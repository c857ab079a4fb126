import WirelessHub.Firmware.UsbDriver
import WirelessHub.Firmware.UsbHost

/-!
# The origin of received frames

`usb_drv_recv` waits on a queue that all devices share and that nothing empties when a device
leaves. The frames in the queue carry the handle of the device whose transfer produced them,
which the code does not see. `open_pipes` allocates the IN transfer anew for each device, so
the handle of the device also names its IN transfer. A transfer that is in flight when its
device leaves may still complete, in whatever way. Calls of several tasks may wait at a time.
-/

namespace WirelessHub.Firmware.Usb

open Framework

/-- A call under way, with `s_dev` as it was found at the start; once its transfer is
submitted, the call waits on the queue. -/
structure RecvCall where
  maxLen : Nat
  dev : Nat
  waiting : Bool
  deriving DecidableEq

/-- A call that returned a frame: `s_dev` at the call and at its end, and the producer. -/
structure Received where
  calledOn : Nat
  dev : Option Nat
  producer : Nat
  data : List UInt8
  deriving DecidableEq

structure Rx where
  bus : Bus
  flights : List Nat
  queue : List (UsbFrame × Nat)
  calls : Nat → Option RecvCall
  received : List Received

inductive RxInput
  | bus (e : BusEvent)
  | recv (k maxLen : Nat)
  | submit (k : Nat) (accepted : Bool)
  | take (k : Nat)
  | timeout (k : Nat)
  | complete (dev : Nat) (c : Completion)

/-- The frame that `in_transfer_cb` puts into the queue. -/
def Completion.frame (c : Completion) : Option UsbFrame :=
  match c.status with
  | .completed =>
      let copy := if c.actualNumBytes < frameMax then c.actualNumBytes else frameMax
      some ⟨c.buffer.take copy, UInt16.ofNat copy⟩
  | .noDevice => none
  | _ => some .failed

namespace Rx

def boot : Rx := ⟨.boot, [], [], fun _ => none, []⟩

def setCall (s : Rx) (k : Nat) (call : Option RecvCall) : Rx :=
  { s with calls := fun k' => if k' = k then call else s.calls k' }

/-- `xQueueSend` without waiting; a full queue drops the frame. -/
def queueSend (s : Rx) (frame : UsbFrame) (producer : Nat) : Rx :=
  if s.queue.length < rxQueueDepth then { s with queue := s.queue ++ [(frame, producer)] } else s

/-- The check at the start of `usb_drv_recv`. -/
def drvRecv (s : Rx) (k maxLen : Nat) : Rx :=
  match s.bus.driver.dev, s.bus.driver.inXfer with
  | some d, some _ => s.setCall k (some ⟨maxLen, d, false⟩)
  | _, _ => s

/-- `usb_host_transfer_submit` of whatever is then in `s_in_xfer`. -/
def drvSubmit (s : Rx) (k : Nat) (call : RecvCall) (accepted : Bool) : Rx :=
  match s.bus.driver.inXfer with
  | some x =>
      if accepted ∧ x.deviceHandle ∉ s.flights then
        { s with flights := x.deviceHandle :: s.flights }.setCall k (some { call with waiting := true })
      else s.setCall k none
  | none => s.setCall k none

/-- `usb_drv_recv` with a frame from the queue. -/
def drvReceived (s : Rx) (call : RecvCall) (frame : UsbFrame) (producer : Nat) : Rx :=
  if frame.len = 0xFFFF then s
  else
    let copy := if frame.len.toNat < call.maxLen then frame.len.toNat else call.maxLen
    { s with received := s.received ++ [⟨call.dev, s.bus.driver.dev, producer, frame.data.take copy⟩] }

def step (s : Rx) : RxInput → Except Unit Rx
  | .bus e => match s.bus.step e with
    | .ok bus => .ok { s with bus := bus }
    | .error _ => .error ()
  | .recv k maxLen => match s.calls k with
    | none => .ok (s.drvRecv k maxLen)
    | some _ => .error ()
  | .submit k accepted => match s.calls k with
    | some call => if call.waiting then .error () else .ok (s.drvSubmit k call accepted)
    | none => .error ()
  | .take k => match s.calls k, s.queue with
    | some call, (frame, producer) :: rest =>
        if call.waiting then
          .ok (({ s with queue := rest }.setCall k none).drvReceived call frame producer)
        else .error ()
    | _, _ => .error ()
  | .timeout k => match s.calls k, s.queue with
    | some call, [] => if call.waiting then .ok (s.setCall k none) else .error ()
    | _, _ => .error ()
  | .complete dev c =>
      if dev ∈ s.flights then
        let s := { s with flights := s.flights.erase dev }
        match c.frame with
        | some frame => .ok (s.queueSend frame dev)
        | none => .ok s
      else .error ()

end Rx

/-- A frame that was returned comes from the device that the call was made on, and that device
is still the one in `s_dev`. -/
def Received.Own (r : Received) : Prop := r.producer = r.calledOn ∧ r.dev = some r.producer

private theorem Driver.openPipes_inXfer {s : Driver} {handle : Nat} {config : List Descriptor}
    {x : Pipe}
    (h : (s.openPipes handle config).inXfer = some x) : s.inXfer = some x ∨ x.deviceHandle = handle := by
  by_cases hintf : config.findSome? Descriptor.interfaceNumber = none
  · rw [openPipes_of_none hintf] at h
    exact .inl h
  · obtain ⟨n, hn⟩ := Option.ne_none_iff_exists'.mp hintf
    have hframe := (foldl_considerEndpoint_frame { s with intfNum := n } config).2.2.1
    simp only [openPipes, hn] at h
    split at h
    · exact .inl (hframe.symm.trans h)
    · cases h
      exact .inr rfl

namespace Bus

variable {s s' : Bus} {e : BusEvent}

/-- An event leaves `s_dev` alone, clears it or sets it to a device that was not there before;
so does it with the IN transfer. -/
theorem step_dev (hs : s.step e = .ok s') :
    s.devices.length ≤ s'.devices.length ∧
    (s'.driver.dev = s.driver.dev ∨ s'.driver.dev = none ∨ s'.driver.dev = some s.devices.length) ∧
    ∀ x, s'.driver.inXfer = some x → s.driver.inXfer = some x ∨
      x.deviceHandle = s.devices.length ∧ s.devices.length < s'.devices.length := by
  cases e with
  | newDev deviceClass config opened =>
    simp only [step, Except.ok.injEq] at hs
    subst hs
    refine ⟨by simp, ?_⟩
    cases opened with
    | false => exact ⟨.inl rfl, fun x hx => .inl hx⟩
    | true =>
      simp only [if_pos, Driver.onNewDev]
      split
      · exact ⟨.inl rfl, fun x hx => .inl hx⟩
      · constructor
        · by_cases hintf : config.findSome? Descriptor.interfaceNumber = none
          · simp [Driver.openPipes_of_none hintf]
          · simp [Driver.openPipes_dev hintf]
        · intro x hx
          rcases Driver.openPipes_inXfer hx with hx | hx
          · exact .inl hx
          · exact .inr ⟨hx, by simp⟩
  | devGone g =>
    simp only [step] at hs
    split at hs
    · split at hs
      · cases hs
        simp only [Driver.onDevGone]
        split
        · simp
        · split <;> simp
      · cases hs
    · cases hs

end Bus

namespace Rx

/-- When nothing of another device can get into a call: `s_dev` changes only while no frame
with data is queued, no transfer of another device than the one in `s_dev` brings data, and a
transfer is submitted only while all calls under way were made on the device in `s_dev`. -/
def Settled (s : Rx) : RxInput → Prop
  | .bus e => ∀ bus, s.bus.step e = .ok bus → bus.driver.dev ≠ s.bus.driver.dev →
      ∀ f ∈ s.queue, f.1.len = 0xFFFF
  | .submit _ _ => ∀ k call, s.calls k = some call → s.bus.driver.dev = some call.dev
  | .complete dev c => c.status = .completed → s.bus.driver.dev = some dev
  | _ => True

/-- The invariant of settled runs. -/
structure SettledInv (s : Rx) : Prop where
  queued : ∀ f ∈ s.queue, f.1.len ≠ 0xFFFF →
    s.bus.driver.dev = some f.2 ∧ ∀ k call, s.calls k = some call → call.dev = f.2
  flying : ∀ d ∈ s.flights, s.bus.driver.dev = some d → ∀ k call, s.calls k = some call → call.dev = d
  flights_lt : ∀ d ∈ s.flights, d < s.bus.devices.length
  inXfer_lt : ∀ x, s.bus.driver.inXfer = some x → x.deviceHandle < s.bus.devices.length
  own : ∀ r ∈ s.received, r.Own

variable {s s' : Rx} {i : RxInput}

private theorem settledInv_boot : SettledInv boot := by
  constructor <;> simp [boot, Bus.boot, Driver.boot]

private theorem SettledInv.bus (h : s.SettledInv) {e : BusEvent} {bus : Bus}
    (hg : s.Settled (.bus e))
    (hs : s.bus.step e = .ok bus) : ({ s with bus := bus } : Rx).SettledInv := by
  obtain ⟨hlen, hdev, hxfer⟩ := Bus.step_dev hs
  have hguard := hg bus hs
  constructor
  case queued =>
    intro f hf hdata
    have hsame : bus.driver.dev = s.bus.driver.dev := by
      by_contra hne
      exact hdata (hguard hne f hf)
    rw [hsame]
    exact h.queued f hf hdata
  case flying =>
    intro d hd hcur
    have hlt := h.flights_lt d hd
    have hsame : bus.driver.dev = s.bus.driver.dev := by
      rcases hdev with hdev | hdev | hdev
      · exact hdev
      · rw [hdev] at hcur
        cases hcur
      · rw [hdev, Option.some.injEq] at hcur
        omega
    exact h.flying d hd (hsame ▸ hcur)
  case flights_lt =>
    intro d hd
    exact Nat.lt_of_lt_of_le (h.flights_lt d hd) hlen
  case inXfer_lt =>
    intro x hx
    rcases hxfer x hx with hx | hx
    · exact Nat.lt_of_lt_of_le (h.inXfer_lt x hx) hlen
    · rw [hx.1]
      exact hx.2
  case own => exact h.own

private theorem SettledInv.setCall (h : s.SettledInv) (k : Nat) {call : Option RecvCall}
    (hcall : ∀ c, call = some c →
      (∃ c₀, s.calls k = some c₀ ∧ c₀.dev = c.dev) ∨ s.bus.driver.dev = some c.dev) :
    (s.setCall k call).SettledInv := by
  have hcalls : ∀ d, s.bus.driver.dev = some d → (∀ k c, s.calls k = some c → c.dev = d) →
      ∀ k' c, (s.setCall k call).calls k' = some c → c.dev = d := by
    intro d hd hold k' c hc
    simp only [Rx.setCall] at hc
    split at hc
    · rcases hcall c hc with h₀ | hdev
      · obtain ⟨c₀, hc₀, heq⟩ := h₀
        exact heq ▸ hold k c₀ hc₀
      · exact Option.some.inj (hdev.symm.trans hd)
    · exact hold k' c hc
  constructor
  case queued =>
    intro f hf hdata
    obtain ⟨hdev, hold⟩ := h.queued f hf hdata
    exact ⟨hdev, hcalls f.2 hdev hold⟩
  case flying =>
    intro d hd hdev
    exact hcalls d hdev (h.flying d hd hdev)
  case flights_lt => exact h.flights_lt
  case inXfer_lt => exact h.inXfer_lt
  case own => exact h.own

private theorem SettledInv.launch (h : s.SettledInv) {d : Nat} (hlt : d < s.bus.devices.length)
    (hcalls : ∀ k call, s.calls k = some call → s.bus.driver.dev = some call.dev) :
    ({ s with flights := d :: s.flights } : Rx).SettledInv where
  queued := h.queued
  flying := by
    intro d' _ hdev k call hcall
    exact Option.some.inj ((hcalls k call hcall).symm.trans hdev)
  flights_lt := by
    intro d' hd'
    rcases List.mem_cons.mp hd' with rfl | hd'
    · exact hlt
    · exact h.flights_lt d' hd'
  inXfer_lt := h.inXfer_lt
  own := h.own

private theorem SettledInv.land (h : s.SettledInv) (d : Nat) :
    ({ s with flights := s.flights.erase d } : Rx).SettledInv where
  queued := h.queued
  flying := fun d' hd' => h.flying d' (List.mem_of_mem_erase hd')
  flights_lt := fun d' hd' => h.flights_lt d' (List.mem_of_mem_erase hd')
  inXfer_lt := h.inXfer_lt
  own := h.own

private theorem SettledInv.queueSend (h : s.SettledInv) {frame : UsbFrame} {d : Nat}
    (hdata : frame.len ≠ 0xFFFF →
      s.bus.driver.dev = some d ∧ ∀ k call, s.calls k = some call → call.dev = d) :
    (s.queueSend frame d).SettledInv := by
  unfold Rx.queueSend
  split
  · refine { h with queued := ?_ }
    intro f hf
    rcases List.mem_append.mp hf with hf | hf
    · exact h.queued f hf
    · rw [List.mem_singleton.mp hf]
      exact hdata
  · exact h

private theorem SettledInv.dequeue (h : s.SettledInv) {f : UsbFrame × Nat}
    {rest : List (UsbFrame × Nat)}
    (hq : s.queue = f :: rest) : ({ s with queue := rest } : Rx).SettledInv :=
  { h with queued := fun g hg => h.queued g (hq ▸ .tail f hg) }

private theorem Completion.frame_len {c : Completion} {frame : UsbFrame} (h : c.frame = some frame)
    (hlen : frame.len ≠ 0xFFFF) : c.status = .completed := by
  unfold Completion.frame at h
  cases hstatus : c.status with
  | completed => rfl
  | noDevice => simp [hstatus] at h
  | error | timedOut | canceled | stall | overflow | skipped =>
    simp only [hstatus, Option.some.injEq] at h
    rw [← h] at hlen
    exact absurd rfl hlen

private theorem SettledInv.endCall (h : s.SettledInv) (k : Nat) :
    (s.setCall k none).SettledInv := by
  apply h.setCall
  intro c hc
  cases hc

private theorem SettledInv.drvRecv (h : s.SettledInv) (k maxLen : Nat) : (s.drvRecv k maxLen).SettledInv := by
  unfold Rx.drvRecv
  split
  · rename_i d x hdev hx
    apply h.setCall
    intro c hc
    cases hc
    exact .inr hdev
  · exact h

private theorem SettledInv.drvSubmit (h : s.SettledInv) {k : Nat} {call : RecvCall} (hcall : s.calls k = some call)
    (hcalls : ∀ k call, s.calls k = some call → s.bus.driver.dev = some call.dev) (accepted : Bool) :
    (s.drvSubmit k call accepted).SettledInv := by
  unfold Rx.drvSubmit
  split
  · rename_i x hx
    split
    · apply (h.launch (h.inXfer_lt x hx) hcalls).setCall
      intro c hc
      cases hc
      exact .inl ⟨call, hcall, rfl⟩
    · exact h.endCall k
  · exact h.endCall k

/-- A frame with data at the head of the queue is of the device of the call that takes it. -/
theorem SettledInv.take (h : s.SettledInv) {k producer : Nat} {call : RecvCall} {frame : UsbFrame}
    {rest : List (UsbFrame × Nat)} (hcall : s.calls k = some call)
    (hq : s.queue = (frame, producer) :: rest) :
    (({ s with queue := rest }.setCall k none).drvReceived call frame producer).SettledInv := by
  have hnext := (h.dequeue hq).endCall k
  unfold Rx.drvReceived
  split
  · exact hnext
  · rename_i hlen
    obtain ⟨hdev, hcalls⟩ := h.queued (frame, producer) (hq ▸ List.mem_cons_self) hlen
    refine { hnext with own := ?_ }
    intro r hr
    rcases List.mem_append.mp hr with hr | hr
    · exact h.own r hr
    · rw [List.mem_singleton.mp hr]
      exact ⟨(hcalls k call hcall).symm, hdev⟩

private theorem step_settledInv (h : s.SettledInv) (hg : s.Settled i) (hs : s.step i = .ok s') :
    s'.SettledInv := by
  cases i with
  | bus e =>
    simp only [step] at hs
    split at hs
    case h_1 bus hbus =>
      cases hs
      exact h.bus hg hbus
    case h_2 => cases hs
  | recv k maxLen =>
    simp only [step] at hs
    split at hs
    · cases hs
      exact h.drvRecv k maxLen
    · cases hs
  | submit k accepted =>
    simp only [step] at hs
    split at hs
    case h_1 call hcall =>
      split at hs
      · cases hs
      · cases hs
        exact h.drvSubmit hcall hg accepted
    case h_2 => cases hs
  | take k =>
    simp only [step] at hs
    split at hs
    case h_1 call frame producer rest hcall hq =>
      split at hs
      · cases hs
        exact h.take hcall hq
      · cases hs
    case h_2 => cases hs
  | timeout k =>
    simp only [step] at hs
    split at hs
    · split at hs
      · cases hs
        exact h.endCall k
      · cases hs
    · cases hs
  | complete d c =>
    simp only [step] at hs
    split at hs
    case isTrue hd =>
      split at hs
      case h_1 frame hframe =>
        cases hs
        apply (h.land d).queueSend
        intro hlen
        have hdev := hg (Completion.frame_len hframe hlen)
        exact ⟨hdev, h.flying d hd hdev⟩
      case h_2 =>
        cases hs
        exact h.land d
    case isFalse => cases hs

/-- In a settled run every frame that a call returns was produced by a transfer submitted on
the device in `s_dev`, at the call as well as at its end. -/
theorem settled_run_own (is : List RxInput) (s : Rx) (hr : run step boot is = .ok s)
    (hg : RunAll step Settled boot is) : ∀ r ∈ s.received, r.Own := by
  have h : s.SettledInv :=
    run_invariant (fun _ _ _ h hg hs => step_settledInv h hg hs) settledInv_boot hg hr
  exact h.own

def report : Completion := ⟨.completed, 2, [0, 4], by decide⟩

theorem settled_run_own_keyboard :
    ∃ s, run step boot [.bus (Bus.keyboard 0x81), .recv 0 8, .submit 0 true, .complete 0 report,
        .take 0] = .ok s ∧
      s.received = [⟨0, some 0, 0, [0, 4]⟩] ∧ ∀ r ∈ s.received, r.Own := by
  refine ⟨_, rfl, rfl, settled_run_own [.bus (Bus.keyboard 0x81), .recv 0 8, .submit 0 true,
    .complete 0 report, .take 0] _ rfl ?_⟩
  refine runAll_cons_of_ok rfl ?_ (runAll_cons_of_ok rfl trivial (runAll_cons_of_ok rfl ?_
    (runAll_cons_of_ok rfl ?_ (runAll_cons_of_ok rfl trivial trivial))))
  · intro bus _ _ f hf
    cases hf
  · intro k call hcall
    change (if k = 0 then some (RecvCall.mk 8 0 false) else none) = some call at hcall
    split at hcall
    · cases hcall
      rfl
    · cases hcall
  · intro _
    rfl

/-- The report of a keyboard comes after the call has given up, the keyboard is unplugged and
another one plugged in: the next call returns the report of the first. -/
theorem report_of_unplugged_keyboard :
    ∃ s, run step boot [.bus (Bus.keyboard 0x81), .recv 0 8, .submit 0 true, .timeout 0,
        .complete 0 report, .bus (.devGone 0), .bus (Bus.keyboard 0x82), .recv 0 8, .submit 0 true,
        .take 0] = .ok s ∧
      s.received = [⟨1, some 1, 0, [0, 4]⟩] ∧
      (s.bus.devices.map Device.attached) = [false, true] ∧ ¬ ∀ r ∈ s.received, r.Own := by
  refine ⟨_, rfl, rfl, rfl, ?_⟩
  intro h
  have := (h ⟨1, some 1, 0, [0, 4]⟩ (List.mem_singleton_self _)).1
  exact absurd this (by decide)

end Rx
end WirelessHub.Firmware.Usb
