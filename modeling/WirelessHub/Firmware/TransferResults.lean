import WirelessHub.Firmware.UsbDriver
import WirelessHub.Framework.Latch
import WirelessHub.Framework.Run

/-!
# Results of control and OUT transfers

A call of `usb_drv_control` or `usb_drv_send_blocking` waits for a semaphore that the
callback gives. A completion after the caller's timeout leaves the semaphore given, and the
next call takes it for its own transfer. As long as each submit finds the semaphore clear,
the result of a call is that of the transfer it submitted.
-/

namespace WirelessHub.Firmware.Usb

open Function Framework

def Call.Succeeds (c : Call) (ret : Int) : Prop :=
  match c with
  | .control .. => 0 ≤ ret
  | .sendBlocking _ => ret = 0

/-- What the call returns if its transfer ended so. -/
def Call.outcome (c : Call) (r : Completion) : Int × List UInt8 :=
  match c with
  | .control _ _ inBuf maxIn => controlResult inBuf maxIn (r.actualNumBytes - setupSize) r.buffer
  | .sendBlocking _ => (r.status.toInt, [])

/-- A call that succeeded returned the outcome of the transfer that it submitted itself. -/
def CallEvent.Own (trace : List CallEvent) : CallEvent → Prop
  | .returned c sub ret data => c.Succeeds ret →
      ∃ n r, sub = some n ∧ .completed c.channel n r ∈ trace ∧ r.status = .completed ∧
        (ret, data) = c.outcome r
  | _ => True

private theorem CallEvent.Own.mono {trace trace' : List CallEvent} {e : CallEvent} (h : e.Own trace)
    (hsub : trace ⊆ trace') : e.Own trace' := by
  cases e with
  | returned c sub ret data =>
    intro hret
    obtain ⟨n, r, hn, hmem, hr⟩ := h hret
    exact ⟨n, r, hn, hsub hmem, hr⟩
  | completed => trivial
  | sent => trivial

/-- The request of a call that has submitted. -/
def Stage.pending : Stage → Option (Call × Wait)
  | .idle => none
  | .filled _ => none
  | .waiting c n => some (c, .waiting n)
  | .taken c n => some (c, .taken n)
  | .checked c n => some (c, .taken n)

namespace Calls

variable {s s' : Calls}

def OwnResults (s : Calls) : Prop := ∀ e ∈ s.trace, e.Own s.trace

def latch (s : Calls) (ch : Channel) : Latch := ⟨(s.xfer ch).bind Transfer.inFlight, s.done ch⟩

/-- The status variables and the buffer are those that submit `n` left. -/
def Answer (s : Calls) (ch : Channel) (n : Nat) : Prop :=
  ∃ r, .completed ch n r ∈ s.trace ∧ s.status ch = r.status ∧
    (ch = .ctrl → s.ctrlActual = r.actualNumBytes - setupSize ∧
      (s.xfer .ctrl).map Transfer.dataBuffer = some r.buffer)

structure Inv (s : Calls) : Prop where
  paired : ∀ c w, s.call.pending = some (c, w) → (s.latch c.channel).Paired (s.Answer c.channel) w
  checked : ∀ c n, s.call = .checked c n → c.channel = .ctrl ∧ s.status .ctrl = .completed
  own : s.OwnResults

private theorem OwnResults.emit (h : s.OwnResults) {e : CallEvent} (he : e.Own (s.trace ++ [e])) :
    (s.emit e).OwnResults := by
  intro e' hmem
  rcases List.mem_append.mp hmem with hmem | hmem
  · exact (h e' hmem).mono (List.subset_append_left _ _)
  · exact List.mem_singleton.mp hmem ▸ he

private theorem inv_of_own (h : s.OwnResults) (hpending : s.call.pending = none) : Inv s where
  paired c w hw := by simp [hpending] at hw
  checked c n hc := by simp [hc, Stage.pending] at hpending
  own := h

private theorem inv_ret (h : s.OwnResults) {c : Call} {sub : Option Nat} {value : Int}
    {data : List UInt8}
    (he : (CallEvent.returned c sub value data).Own (s.trace ++ [.returned c sub value data])) :
    Inv (s.ret c sub value data) :=
  inv_of_own (OwnResults.emit (s := { s with call := .idle }) h he) rfl

private theorem inv_failed (h : s.OwnResults) {c : Call} (sub : Option Nat) {value : Int} (data : List UInt8)
    (hvalue : ¬c.Succeeds value) : Inv (s.ret c sub value data) :=
  inv_ret h fun hs => absurd hs hvalue

private theorem not_succeeds_neg (c : Call) : ¬c.Succeeds (-1) := by
  cases c <;> simp [Call.Succeeds]

/-- Each submit finds the semaphore of its channel clear, and an OUT transfer has a pipe. -/
def Clear (s : Calls) : CallInput → Prop
  | .submit _ => ∀ c, s.call = .filled c → s.done c.channel = false
  | .call (.sendBlocking _) => s.dev = true ∧ s.xfer .out ≠ none
  | _ => True

private theorem Inv.begin (h : Inv s) {c : Call} (hclear : s.Clear (.call c)) : Inv
    (s.begin c) := by
  cases c with
  | control setup outData inBuf maxIn =>
    unfold Calls.begin
    dsimp only
    split
    case h_1 x _ _ =>
      split
      case isTrue => exact inv_of_own h.own rfl
      case isFalse => exact inv_failed (by exact h.own) none [] (not_succeeds_neg _)
    case h_2 => exact inv_failed (by exact h.own) none [] (not_succeeds_neg _)
  | sendBlocking buf =>
    obtain ⟨hdev, hxfer⟩ := hclear
    obtain ⟨x, hx⟩ := Option.ne_none_iff_exists'.mp hxfer
    simp only [Calls.begin, hdev, hx]
    exact inv_of_own h.own rfl

private theorem Inv.submit (h : Inv s) {c : Call} (x : Transfer)
    (hclear : s.done c.channel = false) :
    Inv { s.launch c.channel x with call := .waiting c s.submits } where
  paired c' w hw := by
    cases hw
    simp only [latch, launch, update_self, Option.bind_some, hclear]
    exact Latch.paired_submit s.submits
  checked c n hc := by cases hc
  own := h.own

private theorem Inv.take (h : Inv s) {c : Call} {n : Nat} (hcall : s.call = .waiting c n)
    (hdone : s.done c.channel = true) :
    Inv { s with done := update s.done c.channel false, call := .taken c n } where
  paired c' w hw := by
    cases hw
    have hpaired := (h.paired c (.waiting n) (by rw [hcall]; rfl)).take hdone
    simp only [latch, update_self]
    exact hpaired
  checked c n hc := by cases hc
  own := h.own

private theorem Inv.finish (h : Inv s) {c : Call} {n : Nat} (hcall : s.call = .taken c n)
    (hctrl : c.channel = .ctrl) (hst : s.status .ctrl = .completed) :
    Inv { s with call := .checked c n } where
  paired c' w hw := by
    cases hw
    exact h.paired c (.taken n) (by rw [hcall]; rfl)
  checked c' n' hc := by
    cases hc
    exact ⟨hctrl, hst⟩
  own := h.own

private theorem toInt_eq_zero {st : TransferStatus} (h : st.toInt = 0) : st = .completed := by
  cases st <;> first | rfl | cases h

private theorem neg_toInt_neg {st : TransferStatus} (h : st ≠ .completed) : -st.toInt < 0 := by
  cases st <;> first | exact absurd rfl h | decide

private theorem Inv.answer (h : Inv s) {c : Call} {n : Nat}
    (hcall : s.call.pending = some (c, .taken n)) : s.Answer c.channel n :=
  (h.paired c (.taken n) hcall).2

private theorem Inv.sendBlocking (h : Inv s) {buf : List UInt8} {n : Nat}
    (hcall : s.call = .taken (.sendBlocking buf) n) :
    Inv (s.ret (.sendBlocking buf) (some n) (s.status .out).toInt []) := by
  obtain ⟨r, hmem, hst, -⟩ := h.answer (c := .sendBlocking buf) (n := n) (by rw [hcall]; rfl)
  refine inv_ret h.own fun hret => ?_
  have hcompleted := toInt_eq_zero hret
  rw [show s.status .out = r.status from hst] at hcompleted ⊢
  exact ⟨n, r, rfl, List.mem_append_left _ hmem, hcompleted, rfl⟩

private theorem Inv.collect (h : Inv s) {setup : Vector UInt8 8} {outData : Option (List UInt8)}
    {inBuf : Bool} {maxIn n : Nat} {x : Transfer}
    (hcall : s.call = .checked (.control setup outData inBuf maxIn) n) (hx : s.xfer .ctrl = some x) :
    Inv (s.ret (.control setup outData inBuf maxIn) (some n)
      (controlResult inBuf maxIn s.ctrlActual x.dataBuffer).1
      (controlResult inBuf maxIn s.ctrlActual x.dataBuffer).2) := by
  obtain ⟨r, hmem, hst, hctrl⟩ :=
    h.answer (c := .control setup outData inBuf maxIn) (n := n) (by rw [hcall]; rfl)
  obtain ⟨hactual, hbuffer⟩ := hctrl rfl
  rw [hx, Option.map_some, Option.some.injEq] at hbuffer
  refine inv_ret h.own fun _ => ⟨n, r, rfl, List.mem_append_left _ hmem, ?_, ?_⟩
  · rw [← hst]
    exact (h.checked _ n hcall).2
  · rw [hactual, hbuffer]
    rfl

private theorem answer_landed {ch : Channel} {x : Transfer} {n : Nat} (r : Completion) :
    ((s.land ch x n r).transferCb ch r).Answer ch n := by
  refine ⟨r, List.mem_append_right _ (List.mem_singleton.mpr rfl), update_self .., ?_⟩
  rintro rfl
  simp [transferCb, land, emit]

private theorem Answer.landed {ch ch' : Channel} (hne : ch ≠ ch') {x : Transfer} {n m : Nat} {r : Completion}
    (h : s.Answer ch m) : ((s.land ch' x n r).transferCb ch' r).Answer ch m := by
  obtain ⟨r', hmem, hst, hctrl⟩ := h
  refine ⟨r', List.mem_append_left _ hmem, (update_of_ne hne ..).trans hst, ?_⟩
  rintro rfl
  obtain ⟨hactual, hbuffer⟩ := hctrl rfl
  refine ⟨(if_neg (Ne.symm hne)).trans hactual, ?_⟩
  rw [← hbuffer]
  exact congrArg _ (update_of_ne hne ..)

private theorem Inv.complete (h : Inv s) {ch : Channel} {x : Transfer} {n : Nat}
    (hx : s.xfer ch = some x)
    (hfly : x.inFlight = some n) (r : Completion) : Inv ((s.land ch x n r).transferCb ch r) where
  paired c w hw := by
    have hpaired := h.paired c w hw
    by_cases hch : c.channel = ch
    · subst hch
      have hlatch : ((s.land c.channel x n r).transferCb c.channel r).latch c.channel = ⟨none, true⟩ := by
        simp [latch, transferCb, land, emit]
      rw [hlatch]
      exact hpaired.complete (by simp [latch, hx, hfly]) (answer_landed r)
    · have hlatch : ((s.land ch x n r).transferCb ch r).latch c.channel = s.latch c.channel := by
        simp [latch, transferCb, land, emit, hch]
      rw [hlatch]
      exact hpaired.mono fun m hanswer => hanswer.landed hch
  checked c m hc := by
    obtain ⟨hctrl, hst⟩ := h.checked c m hc
    refine ⟨hctrl, ?_⟩
    -- its own transfer is not in flight any more, so it is one on the other channel
    have hpaired := h.paired c (.taken m) (by rw [show s.call = .checked c m from hc]; rfl)
    have hne : Channel.ctrl ≠ ch := by
      rintro rfl
      have hnone := hpaired.1
      rw [hctrl, latch, hx, Option.bind_some, hfly] at hnone
      cases hnone
    exact (update_of_ne hne ..).trans hst
  own := OwnResults.emit (s := { s with xfer := _ }) h.own trivial

private theorem Inv.drvSend (h : Inv s) (hidle : s.call = .idle) (buf : List UInt8)
    (accepted : Bool) : Inv (s.drvSend buf accepted) := by
  have hown : ∀ (f : Channel → Option Transfer) (n : Nat) (ok : Bool),
      Inv ({ s with xfer := f, submits := n }.emit (.sent ok)) := fun f n ok =>
    inv_of_own (OwnResults.emit (s := { s with xfer := f, submits := n }) h.own trivial)
      (by simp [Calls.emit, hidle, Stage.pending])
  unfold Calls.drvSend
  split
  case h_1 =>
    dsimp only
    split
    case isTrue => exact hown ..
    case isFalse => exact hown ..
  case h_2 => exact hown ..

private theorem Inv.step {i : CallInput} (h : Inv s) (hi : s.Clear i) (hstep : s.step i = .ok s') : Inv s' := by
  unfold Calls.step at hstep
  split at hstep
  case h_1 c =>
    split at hstep
    case h_1 =>
      cases hstep
      exact h.begin hi
    case h_2 => cases hstep
  case h_2 accepted =>
    split at hstep
    case h_1 c hcall =>
      split at hstep
      case h_1 x hx =>
        split at hstep
        case isTrue =>
          cases hstep
          exact h.submit x (hi c hcall)
        case isFalse =>
          cases hstep
          exact inv_failed h.own none [] (not_succeeds_neg c)
      case h_2 => cases hstep
    case h_2 => cases hstep
  case h_3 =>
    split at hstep
    case h_1 c n hcall =>
      split at hstep
      case isTrue hdone =>
        cases hstep
        exact h.take hcall hdone
      case isFalse => cases hstep
    case h_2 => cases hstep
  case h_4 =>
    split at hstep
    case h_1 c n hcall =>
      split at hstep
      case isTrue => cases hstep
      case isFalse =>
        cases hstep
        refine inv_failed h.own (some n) [] ?_
        cases c <;> simp [Call.Succeeds, timeoutValue, espErrTimeout]
    case h_2 => cases hstep
  case h_5 =>
    split at hstep
    case h_1 buf n hcall =>
      cases hstep
      exact h.sendBlocking hcall
    case h_2 c n hne hcall =>
      have hctrl : c.channel = .ctrl := by
        cases c with
        | control => rfl
        | sendBlocking buf => exact absurd rfl (hne buf)
      split at hstep
      case isTrue hst =>
        cases hstep
        refine inv_failed h.own (some n) [] ?_
        cases c with
        | control => exact Int.not_le.mpr (neg_toInt_neg hst)
        | sendBlocking => cases hctrl
      case isFalse hst =>
        cases hstep
        exact h.finish hcall hctrl (not_not.mp hst)
    case h_3 => cases hstep
  case h_6 =>
    split at hstep
    case h_1 setup outData inBuf maxIn n x hcall hx =>
      cases hstep
      exact h.collect hcall hx
    case h_2 => cases hstep
  case h_7 ch c =>
    split at hstep
    case h_1 x hx =>
      split at hstep
      case h_1 n hfly =>
        cases hstep
        exact h.complete hx hfly c
      case h_2 => cases hstep
    case h_2 => cases hstep
  case h_8 buf accepted =>
    split at hstep
    case h_1 hidle =>
      cases hstep
      exact h.drvSend hidle buf accepted
    case h_2 => cases hstep

/-- No call is under way, nothing is in flight and nothing was recorded. -/
structure Fresh (s : Calls) : Prop where
  idle : s.call = .idle
  free : ∀ ch x, s.xfer ch = some x → x.inFlight = none
  trace : s.trace = []

/-- Where every submit finds its semaphore clear, a call that succeeds returns the result of
its own transfer. -/
theorem results_own (s t : Calls) (hs : Fresh s) (is : List CallInput)
    (hclear : RunAll Calls.step Clear s is) (hr : run Calls.step s is = .ok t) : t.OwnResults := by
  have hstart : Inv s := inv_of_own (by simp [OwnResults, hs.trace]) (by rw [hs.idle]; rfl)
  exact (run_invariant (fun s i s' (h : Inv s) hi hstep => h.step hi hstep) hstart hclear hr).own

/-- The sizes that `open_pipes` allocates, for an OUT endpoint with packets of 64 bytes. -/
def bufferSize : Channel → Nat
  | .out => 64
  | .ctrl => 8 + 1024

def attached : Calls where
  dev := true
  xfer ch := some ⟨List.replicate (bufferSize ch) 0, 0, none⟩
  done _ := false
  status _ := .completed
  ctrlActual := 0
  outMps := 64
  call := .idle
  submits := 0
  trace := []

theorem attached_fresh : Fresh attached := ⟨rfl, by rintro ch x ⟨⟩; rfl, rfl⟩

/-- GET_DESCRIPTOR, for a descriptor of the given type. -/
def getDescriptor (type : UInt8) : Call := .control #v[0x80, 6, 0, type, 0, 0, 2, 0] none true 2

/-- A control transfer that brought two bytes. -/
def descriptor (type : UInt8) : Completion :=
  ⟨.completed, 10, [0x80, 6, 0, type, 0, 0, 2, 0, 18, type], Nat.le_refl 10⟩

theorem descriptor_own :
    ∃ t, run Calls.step attached [.call (getDescriptor 1), .submit true,
        .complete .ctrl (descriptor 1), .take, .finish, .collect] = .ok t ∧
      t.trace = [.completed .ctrl 0 (descriptor 1), .returned (getDescriptor 1) (some 0) 2 [18, 1]] ∧
      t.OwnResults := by
  refine ⟨_, rfl, rfl, results_own attached _ attached_fresh [.call (getDescriptor 1), .submit true,
    .complete .ctrl (descriptor 1), .take, .finish, .collect] ?_ rfl⟩
  refine ⟨trivial, fun s₁ h₁ => ?_⟩
  cases h₁
  exact ⟨fun _ _ => rfl, fun _ _ => ⟨trivial, fun _ _ => ⟨trivial, fun _ _ => ⟨trivial, fun _ _ =>
    ⟨trivial, fun _ _ => trivial⟩⟩⟩⟩⟩

/-- The first request times out and completes late; the second one, for another descriptor,
returns what the first one brought, before its own transfer is done. -/
theorem stale_descriptor :
    ∃ t, run Calls.step attached [.call (getDescriptor 1), .submit true, .timeout,
        .complete .ctrl (descriptor 1), .call (getDescriptor 2), .submit true, .take, .finish,
        .collect] = .ok t ∧ Fresh attached ∧
      t.trace = [.returned (getDescriptor 1) (some 0) (-1) [], .completed .ctrl 0 (descriptor 1),
        .returned (getDescriptor 2) (some 1) 2 [18, 1]] ∧ ¬t.OwnResults := by
  refine ⟨_, rfl, attached_fresh, rfl, fun hown => ?_⟩
  obtain ⟨n, r, hn, hmem, -⟩ := hown (.returned (getDescriptor 2) (some 1) 2 [18, 1])
    (.tail _ (.tail _ (.head _))) (show (0 : Int) ≤ 2 by decide)
  obtain rfl := Option.some.inj hn
  have hlate : CallEvent.completed .ctrl 1 r ∈ [.returned (getDescriptor 1) (some 0) (-1) [],
      .completed .ctrl 0 (descriptor 1), .returned (getDescriptor 2) (some 1) 2 [18, 1]] := hmem
  simp at hlate

end Calls
end WirelessHub.Firmware.Usb
