import WirelessHub.Firmware.DeviceSession
import WirelessHub.Firmware.TransferResults

/-!
# Buffers of transfers in flight

`usb_drv_send`, `usb_drv_send_blocking` and `usb_drv_control` copy into the buffer of a shared
transfer before the submit that would tell them that it is still in flight. Here any number of
tasks make these calls; each task has its own stage, and between the copy and the submit any
other task may come in. The buffers are left alone in flight as long as the calls on a channel
stay apart, no wait times out and no semaphore is left over from a non-blocking send.
-/

namespace WirelessHub.Firmware.Usb

open Function Framework

/-- What a task does: a blocking call, or a `usb_drv_send` that has filled the buffer. -/
inductive TaskStage
  | call (stage : Stage)
  | sendFilled

/-- The tasks with the transfers they share; `sending` says that a transfer of `usb_drv_send`
is in flight. -/
structure Tasks where
  calls : Calls
  stage : Nat → TaskStage
  sending : Bool

inductive TaskInput
  | call (k : Nat) (i : CallInput)
  | send (k : Nat) (buf : List UInt8)
  | sendSubmit (k : Nat) (accepted : Bool)
  | complete (ch : Channel) (c : Completion)

def Stage.channel : Stage → Option Channel
  | .idle => none
  | .filled c | .waiting c _ | .taken c _ | .checked c _ => some c.channel

/-- The channel on which a task is under way. -/
def TaskStage.channel : TaskStage → Option Channel
  | .call stage => stage.channel
  | .sendFilled => some .out

namespace Calls

variable {s s' : Calls} {i : CallInput}

/-- `usb_drv_send` up to its submit; without a pipe it returns at once. -/
def fillSend (s : Calls) (buf : List UInt8) : Option Calls :=
  match s.dev, s.xfer .out with
  | true, some x => some { s with xfer := update s.xfer .out (some (x.fillOut buf s.outMps)) }
  | _, _ => none

/-- The submit of `usb_drv_send`, and whether the transfer is in flight with it. -/
def submitSend (s : Calls) (accepted : Bool) : Calls × Bool :=
  match s.xfer .out with
  | some x =>
      if accepted ∧ x.inFlight = none then ((s.launch .out x).emit (.sent true), true)
      else (s.emit (.sent false), false)
  | none => (s.emit (.sent false), false)

theorem drvSend_eq (s : Calls) (buf : List UInt8) (accepted : Bool) :
    s.drvSend buf accepted = match s.fillSend buf with
      | some s' => (s'.submitSend accepted).1
      | none => s.emit (.sent true) := by
  cases hdev : s.dev with
  | false => simp only [drvSend, fillSend, hdev]
  | true =>
    cases hx : s.xfer .out with
    | none => simp only [drvSend, fillSend, hdev, hx]
    | some x =>
      simp only [drvSend, fillSend, hdev, hx, submitSend, update_self]
      split <;> rfl

/-- What a step of a call does with the transfers and semaphores. -/
inductive Advance (s s' : Calls) : Prop
  | keep (hlatch : ∀ ch, s'.latch ch = s.latch ch) (hwait : ∀ c n, s.call ≠ .waiting c n)
      (hchannel : s'.call.channel = none ∨ s'.call.channel = s.call.channel)
  | submit (c : Call) (n : Nat) (hcall : s.call = .filled c) (hcall' : s'.call = .waiting c n)
      (hlatch : s'.latch c.channel = ⟨some n, s.done c.channel⟩)
      (hother : ∀ ch ≠ c.channel, s'.latch ch = s.latch ch)
  | take (c : Call) (n : Nat) (hcall : s.call = .waiting c n) (hcall' : s'.call = .taken c n)
      (hdone : s.done c.channel = true)
      (hlatch : s'.latch c.channel = ⟨(s.latch c.channel).inFlight, false⟩)
      (hother : ∀ ch ≠ c.channel, s'.latch ch = s.latch ch)

private theorem Advance.of_idle (hlatch : ∀ ch, s'.latch ch = s.latch ch)
    (hwait : ∀ c n, s.call ≠ .waiting c n) (hidle : s'.call = .idle) : s.Advance s' := by
  apply Advance.keep hlatch hwait
  rw [hidle]
  exact .inl rfl

private theorem latch_update (s : Calls) (ch ch' : Channel) (x : Transfer) :
    ({ s with xfer := update s.xfer ch (some x) } : Calls).latch ch' =
      if ch' = ch then ⟨x.inFlight, s.done ch⟩ else s.latch ch' := by
  unfold latch
  split
  · rename_i h
    simp [h]
  · rename_i h
    simp only [update_of_ne h]

private theorem submit_advance {accepted : Bool} (hs : s.step (.submit accepted) = .ok s') : s.Advance s' := by
  simp only [Calls.step] at hs
  split at hs
  case h_1 c hcall =>
    split at hs
    case h_1 x hx =>
      split at hs
      · cases hs
        apply Advance.submit c s.submits hcall rfl
        · exact (latch_update s c.channel c.channel _).trans (if_pos rfl)
        · intro ch hne
          exact (latch_update s c.channel ch _).trans (if_neg hne)
      · cases hs
        exact .of_idle (fun ch => rfl) (by simp [hcall]) rfl
    case h_2 => cases hs
  case h_2 => cases hs

private theorem take_advance (hs : s.step .take = .ok s') : s.Advance s' := by
  simp only [Calls.step] at hs
  split at hs
  case h_1 c n hcall =>
    split at hs
    case isTrue hdone =>
      cases hs
      apply Advance.take c n hcall rfl hdone
      · simp [latch]
      · intro ch hne
        simp [latch, update_of_ne hne]
    case isFalse => cases hs
  case h_2 => cases hs

private theorem finish_advance (hs : s.step .finish = .ok s') : s.Advance s' := by
  simp only [Calls.step] at hs
  split at hs
  case h_1 buf n hcall =>
    cases hs
    exact .of_idle (fun ch => rfl) (by simp [hcall]) rfl
  case h_2 c n _ hcall =>
    split at hs
    · cases hs
      exact .of_idle (fun ch => rfl) (by simp [hcall]) rfl
    · cases hs
      apply Advance.keep
      · exact fun ch => rfl
      · simp [hcall]
      · rw [hcall]
        exact .inr rfl
  case h_3 => cases hs

private theorem collect_advance (hs : s.step .collect = .ok s') : s.Advance s' := by
  simp only [Calls.step] at hs
  split at hs
  case h_1 setup outData inBuf maxIn n x hcall hx =>
    cases hs
    exact .of_idle (fun ch => rfl) (by simp [hcall]) rfl
  case h_2 => cases hs

private theorem begin_latch (s : Calls) (c : Call) (ch : Channel) :
    (s.begin c).latch ch = s.latch ch := by
  have hfill : ∀ ch' x x', s.xfer ch' = some x → x'.inFlight = x.inFlight →
      ({ s with xfer := update s.xfer ch' (some x') } : Calls).latch ch = s.latch ch := by
    intro ch' x x' hx hsame
    rw [latch_update]
    split
    · rename_i h
      simp [latch, h, hx, hsame]
    · rfl
  cases c with
  | control setup outData inBuf maxIn =>
    simp only [begin]
    split
    case h_1 x _ hx =>
      have h := hfill .ctrl x _ hx (x.fillControl_inFlight setup outData maxIn)
      split <;> exact h
    case h_2 => rfl
  | sendBlocking buf =>
    simp only [begin]
    split
    case h_1 x _ hx => exact hfill .out x _ hx rfl
    case h_2 => rfl

/-- The buffer of a transfer and the length to be transferred. -/
def buffer (s : Calls) (ch : Channel) : Option (List UInt8 × Nat) :=
  (s.xfer ch).map fun x => (x.dataBuffer, x.numBytes)

private theorem buffer_launch {x : Transfer} {ch : Channel} (hx : s.xfer ch = some x)
    (ch' : Channel) : (s.launch ch x).buffer ch' = s.buffer ch' := by
  by_cases hch : ch' = ch
  · simp [buffer, launch, hch, hx]
  · simp [buffer, launch, update_of_ne hch]

private theorem buffer_begin (s : Calls) (c : Call) {ch : Channel}
    (h : ch ≠ c.channel ∨ s.dev = false ∨ s.xfer c.channel = none) :
    (s.begin c).buffer ch = s.buffer ch := by
  cases c with
  | control setup outData inBuf maxIn =>
    simp only [begin]
    split
    case h_1 x hdev hx =>
      have hne : ch ≠ .ctrl := by
        rcases h with h | h | h
        · exact h
        · rw [hdev] at h
          cases h
        · exact absurd (hx.symm.trans h) (by simp)
      split <;> simp [buffer, ret, emit, update_of_ne hne]
    case h_2 => rfl
  | sendBlocking buf =>
    simp only [begin]
    split
    case h_1 x hdev hx =>
      have hne : ch ≠ .out := by
        rcases h with h | h | h
        · exact h
        · rw [hdev] at h
          cases h
        · exact absurd (hx.symm.trans h) (by simp)
      simp [buffer, update_of_ne hne]
    case h_2 => rfl

private theorem step_buffer (hs : s.step i = .ok s') (hcall : ∀ c, i ≠ .call c)
    (hcomplete : ∀ ch c, i ≠ .complete ch c) (hsend : ∀ buf accepted, i ≠ .send buf accepted)
    (ch : Channel) : s'.buffer ch = s.buffer ch := by
  cases i with
  | call c => exact absurd rfl (hcall c)
  | complete ch c => exact absurd rfl (hcomplete ch c)
  | send buf accepted => exact absurd rfl (hsend buf accepted)
  | submit accepted =>
    simp only [Calls.step] at hs
    split at hs
    · split at hs
      · rename_i x hx
        split at hs
        · cases hs
          exact buffer_launch hx ch
        · cases hs
          rfl
      · cases hs
    · cases hs
  | take =>
    simp only [Calls.step] at hs
    split at hs
    · split at hs
      · cases hs
        rfl
      · cases hs
    · cases hs
  | timeout =>
    simp only [Calls.step] at hs
    split at hs
    · split at hs
      · cases hs
      · cases hs
        rfl
    · cases hs
  | finish =>
    simp only [Calls.step] at hs
    split at hs
    · cases hs
      rfl
    · split at hs
      · cases hs
        rfl
      · cases hs
        rfl
    · cases hs
  | collect =>
    simp only [Calls.step] at hs
    split at hs
    · cases hs
      rfl
    · cases hs

private theorem begin_call (s : Calls) (c : Call) :
    (s.begin c).call = .idle ∨ (s.begin c).call = .filled c := by
  unfold begin
  split
  · split
    · dsimp only
      split
      · exact .inr rfl
      · exact .inl rfl
    · exact .inl rfl
  · split
    · exact .inr rfl
    · exact .inl rfl

end Calls

namespace Tasks

variable {s s' : Tasks} {k : Nat}

def setStage (s : Tasks) (k : Nat) (stage : TaskStage) : Tasks :=
  { s with stage := fun k' => if k' = k then stage else s.stage k' }

/-- A step of a blocking call by task `k`. -/
def callStep (s : Tasks) (k : Nat) (i : CallInput) : Except Unit Tasks :=
  match s.stage k, i with
  | .sendFilled, _ => .error ()
  | _, .send _ _ => .error ()
  | _, .complete _ _ => .error ()
  | .call stage, i => match Calls.step { s.calls with call := stage } i with
    | .ok calls => .ok ({ s with calls := calls }.setStage k (.call calls.call))
    | .error _ => .error ()

def step (s : Tasks) : TaskInput → Except Unit Tasks
  | .call k i => s.callStep k i
  | .send k buf => match s.stage k with
    | .call .idle => match s.calls.fillSend buf with
      | some calls => .ok ({ s with calls := calls }.setStage k .sendFilled)
      | none => .ok { s with calls := s.calls.emit (.sent true) }
    | _ => .error ()
  | .sendSubmit k accepted => match s.stage k with
    | .sendFilled =>
        let r := s.calls.submitSend accepted
        .ok ({ s with calls := r.1, sending := s.sending || r.2 }.setStage k (.call .idle))
    | _ => .error ()
  | .complete ch c => match s.calls.step (.complete ch c) with
    | .ok calls => .ok { s with calls := calls, sending := if ch = .out then false else s.sending }
    | .error _ => .error ()

/-- The transfer whose buffer a step writes. -/
def written (s : Tasks) : TaskInput → Option Channel
  | .call _ (.call c) => if s.calls.dev ∧ (s.calls.xfer c.channel).isSome then some c.channel else none
  | .send _ _ => if s.calls.dev ∧ (s.calls.xfer .out).isSome then some .out else none
  | _ => none

/-- The step writes no buffer of a transfer in flight. So such a buffer is the same after it,
unless it completes the transfer. -/
def Untouched (s : Tasks) (i : TaskInput) : Prop :=
  (∀ ch, s.written i = some ch → (s.calls.latch ch).inFlight = none) ∧
  ∀ s' ch, s.step i = .ok s' → (s.calls.latch ch).inFlight ≠ none → (∀ c, i ≠ .complete ch c) →
    s'.calls.buffer ch = s.calls.buffer ch

/-- Calls on a channel stay apart from each other and from a send in flight, no wait times out
and each submit finds its semaphore clear. -/
def Apart (s : Tasks) : TaskInput → Prop
  | .call _ (.call c) => (∀ k, (s.stage k).channel ≠ some c.channel) ∧ (c.channel = .out → s.sending = false)
  | .call k (.submit _) => ∀ c, s.stage k = .call (.filled c) → s.calls.done c.channel = false
  | .call _ .timeout => False
  | .send _ _ => (∀ k, (s.stage k).channel ≠ some .out) ∧ s.sending = false
  | _ => True

/-- A transfer is in flight for a send, or for a call that waits with its semaphore clear. -/
def Owned (stage : Nat → TaskStage) (sending : Bool) (ch : Channel) (n : Nat) (done : Bool) : Prop :=
  ch = .out ∧ sending = true ∨ ∃ k c, stage k = .call (.waiting c n) ∧ c.channel = ch ∧ done = false

/-- The invariant of runs that stay apart. -/
structure ApartInv (s : Tasks) : Prop where
  alone : ∀ ch k k', (s.stage k).channel = some ch → (s.stage k').channel = some ch → k = k'
  sending : s.sending = true → ∀ k, (s.stage k).channel ≠ some .out
  flying : ∀ ch n, (s.calls.latch ch).inFlight = some n →
    Owned s.stage s.sending ch n (s.calls.done ch)

private theorem ApartInv.free (h : s.ApartInv) {ch : Channel}
    (hcalls : ∀ k, (s.stage k).channel ≠ some ch)
    (hsending : ch = .out → s.sending = false) : (s.calls.latch ch).inFlight = none := by
  by_contra hfly
  obtain ⟨n, hn⟩ := Option.ne_none_iff_exists'.mp hfly
  rcases h.flying ch n hn with hsend | hcall
  · rw [hsending hsend.1] at hsend
    cases hsend.2
  · obtain ⟨k, c, hk, hc, -⟩ := hcall
    apply hcalls k
    rw [hk]
    exact congrArg some hc

private theorem callStep_eq_ok {i : CallInput} (hs : s.callStep k i = .ok s') :
    ∃ stage calls, s.stage k = .call stage ∧ Calls.step { s.calls with call := stage } i = .ok calls ∧
      s' = { s with calls := calls }.setStage k (.call calls.call) := by
  unfold callStep at hs
  split at hs
  · cases hs
  · cases hs
  · cases hs
  · rename_i stage hk _ _
    split at hs
    · rename_i calls hcalls
      cases hs
      exact ⟨stage, calls, hk, hcalls, rfl⟩
    · cases hs

private theorem buffer_of_not_written {i : TaskInput} {ch : Channel} (hs : s.step i = .ok s')
    (hwritten : s.written i ≠ some ch) (hcomplete : ∀ c, i ≠ .complete ch c) :
    s'.calls.buffer ch = s.calls.buffer ch := by
  cases i with
  | call k i =>
    obtain ⟨stage, calls, hk, hcalls, rfl⟩ := callStep_eq_ok hs
    cases i with
    | call c =>
      cases stage with
      | idle =>
        cases hcalls
        apply Calls.buffer_begin
        simp only [written, Option.isSome_iff_ne_none] at hwritten
        grind
      | filled | waiting | taken | checked => cases hcalls
    | send | complete =>
      simp only [step, callStep, hk] at hs
      cases hs
    | submit | take | timeout | finish | collect =>
      apply Calls.step_buffer hcalls
      all_goals
        intros
        exact CallInput.noConfusion
  | send k buf =>
    simp only [step] at hs
    split at hs
    · split at hs
      case h_1 calls hcalls =>
        cases hs
        simp only [Calls.fillSend] at hcalls
        split at hcalls
        case h_1 x hdev hx =>
          cases hcalls
          have hne : ch ≠ .out := by
            intro hch
            simp [written, hdev, hx, hch] at hwritten
          simp [Calls.buffer, Tasks.setStage, update_of_ne hne]
        case h_2 => cases hcalls
      case h_2 =>
        cases hs
        rfl
    · cases hs
  | sendSubmit k accepted =>
    simp only [step] at hs
    split at hs
    · cases hs
      simp only [Calls.submitSend]
      split
      · rename_i x hx
        split
        · exact Calls.buffer_launch hx ch
        · rfl
      · rfl
    · cases hs
  | complete ch' c =>
    have hne : ch ≠ ch' := by
      intro hch
      exact hcomplete c (by rw [hch])
    simp only [step, Calls.step] at hs
    split at hs
    · rename_i calls hcalls
      cases hs
      split at hcalls
      · split at hcalls
        · cases hcalls
          simp [Calls.buffer, Calls.transferCb, Calls.land, Calls.emit, update_of_ne hne]
        · cases hcalls
      · cases hcalls
    · cases hs

private theorem ApartInv.not_written (h : s.ApartInv) {i : TaskInput} (hg : s.Apart i)
    {ch : Channel} (hch : s.written i = some ch) : (s.calls.latch ch).inFlight = none := by
  cases i with
  | call k i =>
    cases i with
    | call c =>
      simp only [written] at hch
      split at hch
      · cases hch
        exact h.free hg.1 hg.2
      · cases hch
    | submit | take | timeout | finish | collect | complete | send => cases hch
  | send k buf =>
    simp only [written] at hch
    split at hch
    · cases hch
      exact h.free hg.1 fun _ => hg.2
    · cases hch
  | sendSubmit | complete => cases hch

private theorem ApartInv.setStage (h : s.ApartInv) {calls : Calls} {stage : TaskStage}
    (hstage : ∀ ch, stage.channel = some ch → (s.stage k).channel = some ch ∨
      (∀ k', (s.stage k').channel ≠ some ch) ∧ (ch = .out → s.sending = false))
    (hflying : ∀ ch n, (calls.latch ch).inFlight = some n →
      Owned (fun k' => if k' = k then stage else s.stage k') s.sending ch n (calls.done ch)) :
    ({ s with calls := calls }.setStage k stage : Tasks).ApartInv where
  alone := by
    intro ch k₁ k₂ h₁ h₂
    simp only [Tasks.setStage] at h₁ h₂
    have h0 := hstage ch
    have halone := h.alone ch
    split at h₁ <;> split at h₂ <;> grind
  sending := by
    intro hsending k'
    change s.sending = true at hsending
    have hold := h.sending hsending
    simp only [Tasks.setStage]
    split
    · intro hout
      rcases hstage .out hout with hsame | hnew
      · exact hold k hsame
      · rw [hnew.2 rfl] at hsending
        cases hsending
    · exact hold k'
  flying := hflying

private theorem ApartInv.owned (h : s.ApartInv) {calls : Calls} (stage : TaskStage) {ch : Channel}
    {n : Nat} (hlatch : calls.latch ch = s.calls.latch ch) (hn : (calls.latch ch).inFlight = some n)
    (hk : ∀ c m, s.stage k = .call (.waiting c m) → c.channel ≠ ch) :
    Owned (fun k' => if k' = k then stage else s.stage k') s.sending ch n (calls.done ch) := by
  have hdone : calls.done ch = s.calls.done ch := congrArg Latch.done hlatch
  rw [hlatch] at hn
  rcases h.flying ch n hn with hsend | hcall
  · exact .inl hsend
  · obtain ⟨k', c, hk', hc, hclear⟩ := hcall
    have hne : k' ≠ k := by
      intro heq
      rw [heq] at hk'
      exact hk c n hk' hc
    exact .inr ⟨k', c, (if_neg hne).trans hk', hc, hdone.trans hclear⟩

private theorem ApartInv.submit (h : s.ApartInv) {calls : Calls} {c : Call} {n : Nat}
    (hk : s.stage k = .call (.filled c)) (hdone : s.calls.done c.channel = false)
    (hlatch : calls.latch c.channel = ⟨some n, s.calls.done c.channel⟩)
    (hother : ∀ ch ≠ c.channel, calls.latch ch = s.calls.latch ch) :
    ({ s with calls := calls }.setStage k (.call (.waiting c n)) : Tasks).ApartInv := by
  apply h.setStage
  · intro ch hch
    rw [hk]
    exact .inl hch
  · intro ch m hm
    by_cases hch : ch = c.channel
    · subst hch
      rw [hlatch] at hm
      cases hm
      refine .inr ⟨k, c, if_pos rfl, rfl, ?_⟩
      exact (congrArg Latch.done hlatch).trans hdone
    · apply h.owned _ (hother ch hch) hm
      intro c' m' hwait
      rw [hk] at hwait
      cases hwait

private theorem ApartInv.take (h : s.ApartInv) {calls : Calls} {c : Call} {n : Nat}
    (hk : s.stage k = .call (.waiting c n)) (hdone : s.calls.done c.channel = true)
    (hlatch : calls.latch c.channel = ⟨(s.calls.latch c.channel).inFlight, false⟩)
    (hother : ∀ ch ≠ c.channel, calls.latch ch = s.calls.latch ch) :
    ({ s with calls := calls }.setStage k (.call (.taken c n)) : Tasks).ApartInv := by
  have hchannel : (s.stage k).channel = some c.channel := by
    rw [hk]
    rfl
  -- the semaphore is given, so the transfer has landed
  have hfree : (s.calls.latch c.channel).inFlight = none := by
    by_contra hfly
    obtain ⟨m, hm⟩ := Option.ne_none_iff_exists'.mp hfly
    rcases h.flying c.channel m hm with hsend | hcall
    · rw [hsend.1] at hchannel
      exact h.sending hsend.2 k hchannel
    · obtain ⟨k', c', -, -, hclear⟩ := hcall
      rw [hdone] at hclear
      cases hclear
  apply h.setStage
  · intro ch hch
    rw [hchannel]
    exact .inl hch
  · intro ch m hm
    by_cases hch : ch = c.channel
    · rw [hch, hlatch, hfree] at hm
      cases hm
    · apply h.owned _ (hother ch hch) hm
      intro c' m' hwait
      rw [hk] at hwait
      cases hwait
      exact Ne.symm hch

private theorem ApartInv.advance (h : s.ApartInv) {calls : Calls} {stage : Stage} (hk : s.stage k = .call stage)
    (hadv : Calls.Advance { s.calls with call := stage } calls)
    (hclear : ∀ c, stage = .filled c → s.calls.done c.channel = false) :
    ({ s with calls := calls }.setStage k (.call calls.call) : Tasks).ApartInv := by
  cases hadv with
  | keep hlatch hwait hchannel =>
    apply h.setStage
    · intro ch hch
      rw [hk]
      rcases hchannel with hnone | hsame
      · exact absurd (hnone.symm.trans hch) (by simp)
      · exact .inl (hsame.symm.trans hch)
    · intro ch n hn
      apply h.owned _ (hlatch ch) hn
      intro c m hstage
      rw [hk] at hstage
      cases hstage
      exact absurd rfl (hwait c m)
  | submit c n hcall hcall' hlatch hother =>
    rw [hcall']
    change stage = .filled c at hcall
    rw [hcall] at hk
    exact h.submit hk (hclear c hcall) hlatch hother
  | take c n hcall hcall' hdone hlatch hother =>
    rw [hcall']
    change stage = .waiting c n at hcall
    rw [hcall] at hk
    exact h.take hk hdone hlatch hother

private theorem ApartInv.begin (h : s.ApartInv) (hk : s.stage k = .call .idle) {c : Call}
    (hfree : ∀ k', (s.stage k').channel ≠ some c.channel) (hsending : c.channel = .out → s.sending = false)
    {calls : Calls} (hcalls : calls = Calls.begin { s.calls with call := .idle } c) :
    ({ s with calls := calls }.setStage k (.call calls.call) : Tasks).ApartInv := by
  apply h.setStage
  · intro ch hch
    rw [hcalls] at hch
    rcases Calls.begin_call { s.calls with call := .idle } c with hcall | hcall
    · simp [TaskStage.channel, hcall, Stage.channel] at hch
    · simp only [TaskStage.channel, hcall, Stage.channel, Option.some.injEq] at hch
      rw [← hch]
      exact .inr ⟨hfree, hsending⟩
  · intro ch n hn
    apply h.owned _ _ hn
    · intro c' m hstage
      rw [hk] at hstage
      cases hstage
    · rw [hcalls]
      exact Calls.begin_latch _ c ch

private theorem callStep_apartInv {i : CallInput} (h : s.ApartInv) (hg : s.Apart (.call k i))
    (hs : s.callStep k i = .ok s') : s'.ApartInv := by
  obtain ⟨stage, calls, hk, hcalls, rfl⟩ := callStep_eq_ok hs
  cases i with
  | send | complete =>
    simp only [callStep, hk] at hs
    cases hs
  | timeout => exact hg.elim
  | call c =>
    cases stage with
    | idle =>
      cases hcalls
      exact h.begin hk hg.1 hg.2 rfl
    | filled | waiting | taken | checked => cases hcalls
  | submit accepted =>
    apply h.advance hk (Calls.submit_advance hcalls)
    intro c hc
    exact hg c (by rw [hk, hc])
  | take =>
    apply h.advance hk (Calls.take_advance hcalls)
    intro c hc
    rw [hc] at hcalls
    cases hcalls
  | finish =>
    apply h.advance hk (Calls.finish_advance hcalls)
    intro c hc
    rw [hc] at hcalls
    cases hcalls
  | collect =>
    apply h.advance hk (Calls.collect_advance hcalls)
    intro c hc
    rw [hc] at hcalls
    cases hcalls

private theorem fillSend_latch {calls calls' : Calls} {buf : List UInt8} (h : calls.fillSend buf = some calls')
    (ch : Channel) : calls'.latch ch = calls.latch ch := by
  unfold Calls.fillSend at h
  split at h
  · rename_i x _ hx
    cases h
    rw [Calls.latch_update]
    split
    · rename_i hch
      rw [hch, Calls.latch, hx]
      rfl
    · rfl
  · cases h

private theorem submitSend_latch (calls : Calls) (accepted : Bool) :
    ((calls.submitSend accepted).2 = false ∧
      ∀ ch, (calls.submitSend accepted).1.latch ch = calls.latch ch) ∨
    (calls.submitSend accepted).2 = true ∧
      ∀ ch ≠ .out, (calls.submitSend accepted).1.latch ch = calls.latch ch := by
  unfold Calls.submitSend
  split
  · split
    · refine .inr ⟨rfl, fun ch hne => ?_⟩
      exact (Calls.latch_update calls .out ch _).trans (if_neg hne)
    · exact .inl ⟨rfl, fun ch => rfl⟩
  · exact .inl ⟨rfl, fun ch => rfl⟩

private theorem ApartInv.sendSubmit (h : s.ApartInv) (hk : s.stage k = .sendFilled)
    (accepted : Bool) : ({ s with
        calls := (s.calls.submitSend accepted).1
        sending := s.sending || (s.calls.submitSend accepted).2 }.setStage k (.call .idle) :
      Tasks).ApartInv := by
  have hidle : ∀ ch, (TaskStage.call .idle).channel ≠ some ch := by
    intro ch hch
    cases hch
  have hwait : ∀ c m, s.stage k ≠ .call (.waiting c m) := by
    intro c m hstage
    rw [hk] at hstage
    cases hstage
  rcases submitSend_latch s.calls accepted with hkeep | hlaunch
  · rw [hkeep.1, Bool.or_false]
    apply h.setStage
    · intro ch hch
      exact absurd hch (hidle ch)
    · intro ch n hn
      exact h.owned _ (hkeep.2 ch) hn fun c m hstage => absurd hstage (hwait c m)
  · rw [hlaunch.1, Bool.or_true]
    have halone : ∀ k', k' ≠ k → (s.stage k').channel ≠ some .out := by
      intro k' hne hk'
      exact hne (h.alone .out k' k hk' (by rw [hk]; rfl))
    constructor
    case alone =>
      intro ch k₁ k₂ h₁ h₂
      simp only [Tasks.setStage] at h₁ h₂
      have := h.alone ch k₁ k₂
      have := hidle ch
      split at h₁ <;> split at h₂ <;> grind
    case sending =>
      intro _ k'
      simp only [Tasks.setStage]
      split
      · exact hidle .out
      · rename_i hne
        exact halone k' hne
    case flying =>
      intro ch n hn
      by_cases hch : ch = .out
      · exact .inl ⟨hch, rfl⟩
      · rcases h.owned (k := k) (.call .idle) (hlaunch.2 ch hch) hn
          (fun c m hstage => absurd hstage (hwait c m)) with hsend | hcall
        · exact absurd hsend.1 hch
        · exact .inr hcall

private theorem ApartInv.complete (h : s.ApartInv) {ch : Channel} {c : Completion} {calls : Calls}
    (hs : s.calls.step (.complete ch c) = .ok calls) :
    ({ s with calls := calls, sending := if ch = .out then false else s.sending } : Tasks).ApartInv := by
  have hlatch : (calls.latch ch).inFlight = none ∧ ∀ ch' ≠ ch, calls.latch ch' = s.calls.latch ch' := by
    simp only [Calls.step] at hs
    split at hs
    · split at hs
      · cases hs
        constructor
        · simp [Calls.latch, Calls.transferCb, Calls.land, Calls.emit]
        · intro ch' hne
          simp [Calls.latch, Calls.transferCb, Calls.land, Calls.emit, update_of_ne hne]
      · cases hs
    · cases hs
  constructor
  case alone => exact h.alone
  case sending =>
    intro hsending
    apply h.sending
    simp only at hsending
    split at hsending
    · cases hsending
    · exact hsending
  case flying =>
    intro ch' n hn
    by_cases hch : ch' = ch
    · rw [hch, hlatch.1] at hn
      cases hn
    · change (calls.latch ch').inFlight = some n at hn
      have hdone : calls.done ch' = s.calls.done ch' := congrArg Latch.done (hlatch.2 ch' hch)
      rw [hlatch.2 ch' hch] at hn
      rcases h.flying ch' n hn with hsend | hcall
      · refine .inl ⟨hsend.1, ?_⟩
        rw [if_neg (hsend.1 ▸ Ne.symm hch)]
        exact hsend.2
      · obtain ⟨k, c', hk, hc', hclear⟩ := hcall
        exact .inr ⟨k, c', hk, hc', hdone.trans hclear⟩

private theorem step_apartInv {i : TaskInput} (h : s.ApartInv) (hg : s.Apart i)
    (hs : s.step i = .ok s') : s'.ApartInv := by
  cases i with
  | call k i => exact callStep_apartInv h hg hs
  | send k buf =>
    simp only [step] at hs
    split at hs
    case h_1 hk =>
      split at hs
      case h_1 calls hcalls =>
        cases hs
        apply h.setStage
        · intro ch hch
          cases hch
          exact .inr ⟨hg.1, fun _ => hg.2⟩
        · intro ch n hn
          apply h.owned _ (fillSend_latch hcalls ch) hn
          intro c m hstage
          rw [hk] at hstage
          cases hstage
      case h_2 =>
        cases hs
        exact { h with }
    case h_2 => cases hs
  | sendSubmit k accepted =>
    simp only [step] at hs
    split at hs
    case h_1 hk =>
      cases hs
      exact h.sendSubmit hk accepted
    case h_2 => cases hs
  | complete ch c =>
    simp only [step] at hs
    split at hs
    case h_1 calls hcalls =>
      cases hs
      exact h.complete hcalls
    case h_2 => cases hs

def start (calls : Calls) : Tasks := ⟨calls, fun _ => .call .idle, false⟩

/-- As long as the calls stay apart, no buffer of a transfer in flight is written. -/
theorem apart_run_untouched (calls : Calls) (hfresh : calls.Fresh) (is : List TaskInput)
    (hg : RunAll step Apart (start calls) is) : RunAll step Untouched (start calls) is := by
  have hstart : (start calls).ApartInv := by
    constructor
    · intro ch k k' hk
      cases hk
    · intro hsending
      cases hsending
    · intro ch n hn
      obtain ⟨x, hx, hfly⟩ := Option.bind_eq_some_iff.mp hn
      rw [hfresh.free ch x hx] at hfly
      cases hfly
  apply hg.imp_of_invariant _ _ hstart
  · intro s i s' h hg hs
    exact step_apartInv h hg hs
  · intro s i h hg
    refine ⟨fun ch => h.not_written hg, ?_⟩
    intro s' ch hs hfly hcomplete
    apply buffer_of_not_written hs _ hcomplete
    intro hwritten
    exact hfly (h.not_written hg hwritten)

/-- Two requests one after another. -/
def inTurn : List TaskInput :=
  [.call 0 (.call (Calls.getDescriptor 1)), .call 0 (.submit true), .complete .ctrl (Calls.descriptor 1),
    .call 0 .take, .call 0 .finish, .call 0 .collect, .call 0 (.call (Calls.getDescriptor 2))]

theorem apart_run_untouched_in_turn :
    Calls.attached.Fresh ∧ (∃ s, run step (start Calls.attached) inTurn = .ok s) ∧
      RunAll step Apart (start Calls.attached) inTurn ∧
      RunAll step Untouched (start Calls.attached) inTurn := by
  have hg : RunAll step Apart (start Calls.attached) inTurn := by
    refine runAll_cons_of_ok rfl ⟨?_, by decide⟩ ?_
    · intro k hk
      cases hk
    refine runAll_cons_of_ok rfl (fun _ _ => rfl) ?_
    iterate 4 refine runAll_cons_of_ok rfl trivial ?_
    refine runAll_cons_of_ok rfl ⟨?_, by decide⟩ trivial
    intro k hk
    simp only [setStage] at hk
    split at hk <;> cases hk
  exact ⟨Calls.attached_fresh, ⟨_, rfl⟩, hg, apart_run_untouched _ Calls.attached_fresh _ hg⟩

/-- `reasm_push` hands over the two fragments of a report back to back: the second one is copied
into the buffer while the first one is in flight. A call that is made after a timeout does the
same. -/
theorem buffer_written_in_flight :
    (Reasm.push { Reasm.zero with
        active := true, transferSeq := 1, total := 2, received := 1,
        slots := fun i => if i = 0 then some [1] else none } ⟨1, 1, 2⟩ [2] []).2.1 =
      [.opsSend [1], .opsSend [2]] ∧
    (∃ s, run step (start Calls.attached) [.send 0 [1], .sendSubmit 0 true] = .ok s ∧
      ¬ s.Untouched (.send 0 [2]) ∧ ∃ s', s.step (.send 0 [2]) = .ok s' ∧
        (s'.calls.xfer .out).map (fun x => (x.dataBuffer.take 1, x.inFlight)) = some ([2], some 0)) ∧
    ∃ s, run step (start Calls.attached) [.call 0 (.call (Calls.getDescriptor 1)),
        .call 0 (.submit true), .call 0 .timeout] = .ok s ∧
      ¬ s.Untouched (.call 0 (.call (Calls.getDescriptor 2))) := by
  refine ⟨rfl, ⟨_, rfl, ?_, _, rfl, rfl⟩, ⟨_, rfl, ?_⟩⟩
  · intro h
    cases h.1 .out rfl
  · intro h
    cases h.1 .ctrl rfl

end Tasks
end WirelessHub.Firmware.Usb
