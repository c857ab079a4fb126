import WirelessHub.Firmware.Replies
import WirelessHub.Firmware.UsbDriver
import WirelessHub.Framework.Run

/-!
# Driver calls from start to return

`usb_drv_control`, `usb_drv_recv` and `usb_drv_send_blocking` as their caller sees them, with no
other task in between: a call is decided by the state it finds and by what the host library and
the device do with its transfer until it stops waiting. Each of them is a run of the machine that
cuts it where other tasks can come in. The calls also record which parts of the caller's and of
the control buffer they touch.
-/

namespace WirelessHub.Firmware.Usb

open Function Framework

/-- Whether the transfer of a call is accepted, and how it has ended when the call stops waiting. -/
structure Fate where
  accepted : Bool
  completion : Option Completion

/-- The buffers of a request: the payload, the data behind its header, `in_buf` and the buffer
of the control transfer. -/
inductive Region
  | request | data | inBuf | ctrlBuffer
  deriving DecidableEq, Repr

structure Access where
  region : Region
  offset : Nat
  len : Nat
  deriving DecidableEq, Repr

/-- The value of a call, the data it copies to its caller and the accesses it makes. -/
structure Returned where
  ret : Int
  data : List UInt8
  accesses : List Access

namespace Calls

/-- The variables of the control transfer when its semaphore is taken. A semaphore that was
given before is taken with the variables that are left from then. -/
def ctrlAnswer (s : Calls) (buffer : List UInt8) (f : Fate) :
    Option (TransferStatus × Nat × List UInt8) :=
  match f.completion with
  | some c => some (c.status, c.actualNumBytes - setupSize, c.buffer)
  | none => if s.done .ctrl then some (s.status .ctrl, s.ctrlActual, buffer) else none

def outAnswer (s : Calls) (f : Fate) : Option TransferStatus :=
  match f.completion with
  | some c => some c.status
  | none => if s.done .out then some (s.status .out) else none

/-- The accesses before the submit: the setup packet and the data of an OUT transfer. -/
def fillAccesses (outLen : Nat) : List Access :=
  ⟨.ctrlBuffer, 0, setupSize⟩ ::
    if 0 < outLen ∧ outLen ≤ ctrlMax then [⟨.data, 0, outLen⟩, ⟨.ctrlBuffer, setupSize, outLen⟩] else []

def drvControl (s : Calls) (setup : Vector UInt8 8) (outData : Option (List UInt8)) (inBuf : Bool)
    (maxIn : Nat) (f : Fate) : Returned :=
  match s.dev, s.xfer .ctrl with
  | true, some x =>
      let filled := x.fillControl setup outData maxIn
      let fill := fillAccesses (outData.getD []).length
      if filled.2 ∧ f.accepted ∧ x.inFlight = none then
        match s.ctrlAnswer filled.1.dataBuffer f with
        | none => ⟨-1, [], fill⟩
        | some (status, actual, buffer) =>
            if status ≠ .completed then ⟨-status.toInt, [], fill⟩
            else if inBuf ∧ 0 < maxIn ∧ 0 < actual then
              let copy := if actual < maxIn then actual else maxIn
              ⟨copy, (buffer.drop setupSize).take copy,
                fill ++ [⟨.ctrlBuffer, setupSize, copy⟩, ⟨.inBuf, 0, copy⟩]⟩
            else ⟨actual, [], fill⟩
      else ⟨-1, [], fill⟩
  | _, _ => ⟨-1, [], []⟩

def drvSendBlocking (s : Calls) (buf : List UInt8) (f : Fate) : Returned :=
  match s.dev, s.xfer .out with
  | true, some x =>
      let len := if buf.length > s.outMps then s.outMps else buf.length
      let ret : Int := if f.accepted ∧ x.inFlight = none then
          match s.outAnswer f with
          | none => espErrTimeout
          | some status => status.toInt
        else -1
      ⟨ret, [], [⟨.data, 0, len⟩]⟩
  | _, _ => ⟨0, [], []⟩

end Calls

/-- The queue when `usb_drv_recv` stops waiting. -/
def InPipe.settledQueue (s : InPipe) (f : Fate) : List UsbFrame :=
  match f.completion with
  | some c => (s.inTransferCb c).rxQueue
  | none => s.rxQueue

/-- `usb_drv_recv`; a frame that is already in the queue comes before that of the transfer. -/
def InPipe.drvRecvFrame (s : InPipe) (maxLen : Nat) (f : Fate) : Returned :=
  match s.dev, s.xfer with
  | true, some x =>
      if f.accepted ∧ x.inFlight = none then
        match s.settledQueue f with
        | [] => ⟨-1, [], []⟩
        | frame :: _ =>
            if frame.len = 0xFFFF then ⟨-1, [], []⟩
            else
              let copy := if frame.len.toNat < maxLen then frame.len.toNat else maxLen
              ⟨copy, frame.data.take copy, [⟨.inBuf, 0, copy⟩]⟩
      else ⟨-1, [], []⟩
  | _, _ => ⟨-1, [], []⟩

/-! ## Calls as runs -/

namespace Calls

variable {s s' : Calls} {c : Call} {n : Nat} {x : Transfer} {ret : Int} {data : List UInt8}

/-- The inputs with which a task enters the driver. -/
def starts : CallInput → Bool
  | .call _ => true
  | .send _ _ => true
  | _ => false

/-- The call that is under way returns with this value and this data in some run. -/
def Returns (s : Calls) (c : Call) (ret : Int) (data : List UInt8) : Prop :=
  CanReach Calls.step (starts · = false)
    (fun t => ∃ sub, t.trace.getLast? = some (.returned c sub ret data)) s

private theorem returns_ret (s : Calls) (c : Call) (sub : Option Nat) (ret : Int)
    (data : List UInt8) : (s.ret c sub ret data).Returns c ret data :=
  CanReach.here ⟨sub, List.getLast?_concat⟩

private theorem launch_xfer (s : Calls) (ch : Channel) (x : Transfer) :
    (s.launch ch x).xfer ch = some { x with inFlight := some s.submits } :=
  update_self ..

def settled (s : Calls) (ch : Channel) (x : Transfer) (n : Nat) (f : Fate) : Calls :=
  match f.completion with
  | some r => (s.land ch x n r).transferCb ch r
  | none => s

def takeDone (s : Calls) (c : Call) (n : Nat) : Calls :=
  { s with done := update s.done c.channel false, call := .taken c n }

private theorem returns_of_waiting (hcall : s.call = .waiting c n) (hx : s.xfer c.channel = some x)
    (hfly : x.inFlight = some n) (f : Fate)
    (htaken : (s.settled c.channel x n f).done c.channel = true →
      ((s.settled c.channel x n f).takeDone c n).Returns c ret data)
    (htimeout : (s.settled c.channel x n f).done c.channel = false → ret = timeoutValue c ∧ data = []) :
    s.Returns c ret data := by
  have hwait : (s.settled c.channel x n f).call = .waiting c n := by
    unfold settled
    split <;> exact hcall
  have hend : (s.settled c.channel x n f).Returns c ret data := by
    cases hdone : (s.settled c.channel x n f).done c.channel with
    | true =>
      have hstep : (s.settled c.channel x n f).step .take = .ok ((s.settled c.channel x n f).takeDone c n) := by
        simp only [Calls.step, hwait, if_pos hdone, takeDone]
      exact (htaken hdone).of_step rfl hstep
    | false =>
      obtain ⟨rfl, rfl⟩ := htimeout hdone
      have hstep : (s.settled c.channel x n f).step .timeout =
          .ok ((s.settled c.channel x n f).ret c (some n) (timeoutValue c) []) := by
        simp only [Calls.step, hwait, hdone, Bool.false_eq_true, if_false]
      exact (returns_ret ..).of_step rfl hstep
  cases hf : f.completion with
  | some r =>
    have hstep : s.step (.complete c.channel r) = .ok (s.settled c.channel x n f) := by
      simp only [Calls.step, hx, hfly, settled, hf]
    exact hend.of_step rfl hstep
  | none =>
    have heq : s.settled c.channel x n f = s := by simp only [settled, hf]
    rwa [heq] at hend

private theorem returns_of_filled (hcall : s.call = .filled c) (hx : s.xfer c.channel = some x)
    (f : Fate) (hwaiting : f.accepted = true ∧ x.inFlight = none →
      Returns { s.launch c.channel x with call := .waiting c s.submits } c ret data)
    (hrefused : ¬(f.accepted = true ∧ x.inFlight = none) → ret = -1 ∧ data = []) :
    s.Returns c ret data := by
  by_cases haccepted : f.accepted = true ∧ x.inFlight = none
  · have hstep : s.step (.submit f.accepted) =
        .ok { s.launch c.channel x with call := .waiting c s.submits } := by
      simp only [Calls.step, hcall, hx, if_pos haccepted]
    exact (hwaiting haccepted).of_step rfl hstep
  · obtain ⟨rfl, rfl⟩ := hrefused haccepted
    have hstep : s.step (.submit f.accepted) = .ok (s.ret c none (-1) []) := by
      simp only [Calls.step, hcall, hx, if_neg haccepted]
    exact (returns_ret ..).of_step rfl hstep

def controlReturn (inBuf : Bool) (maxIn : Nat) : Option (TransferStatus × Nat × List UInt8) → Int × List UInt8
  | none => (-1, [])
  | some (status, actual, buffer) =>
      if status ≠ .completed then (-status.toInt, []) else controlResult inBuf maxIn actual buffer

section Control

variable {setup : Vector UInt8 8} {outData : Option (List UInt8)} {inBuf : Bool} {maxIn : Nat}

private theorem returns_of_control_taken
    (hcall : s.call = .taken (.control setup outData inBuf maxIn) n)
    (hx : s.xfer .ctrl = some x) (hvalue : (ret, data) =
      controlReturn inBuf maxIn (some (s.status .ctrl, s.ctrlActual, x.dataBuffer))) :
    s.Returns (.control setup outData inBuf maxIn) ret data := by
  by_cases hst : s.status .ctrl ≠ .completed
  · have hfinish : s.step .finish =
        .ok (s.ret (.control setup outData inBuf maxIn) (some n) (-(s.status .ctrl).toInt) []) := by
      simp only [Calls.step, hcall, if_pos hst]
    rw [controlReturn, if_pos hst, Prod.mk.injEq] at hvalue
    rw [hvalue.1, hvalue.2]
    exact (returns_ret ..).of_step rfl hfinish
  · have hfinish : s.step .finish = .ok { s with call := .checked (.control setup outData inBuf maxIn) n } := by
      simp only [Calls.step, hcall, if_neg hst]
    rw [controlReturn, if_neg hst] at hvalue
    have hcollect : ({ s with call := .checked (.control setup outData inBuf maxIn) n } : Calls).step .collect =
        .ok (s.ret (.control setup outData inBuf maxIn) (some n) ret data) := by
      simp only [Calls.step, hx, ← hvalue]
      rfl
    exact ((returns_ret ..).of_step rfl hcollect).of_step rfl hfinish

private theorem drvControl_value (hdev : s.dev = true) (hx : s.xfer .ctrl = some x)
    (hok : (x.fillControl setup outData maxIn).2 = true) (f : Fate)
    (haccepted : f.accepted = true ∧ x.inFlight = none) :
    ((s.drvControl setup outData inBuf maxIn f).ret, (s.drvControl setup outData inBuf maxIn f).data) =
      controlReturn inBuf maxIn
        (s.ctrlAnswer (x.fillControl setup outData maxIn).1.dataBuffer f) := by
  unfold drvControl
  simp only [hdev, hx, hok, haccepted, and_self, if_true]
  cases s.ctrlAnswer (x.fillControl setup outData maxIn).1.dataBuffer f with
  | none => rfl
  | some answer =>
    obtain ⟨status, actual, buffer⟩ := answer
    simp only [controlReturn, controlResult]
    split
    · rfl
    · split <;> rfl

private theorem settled_ctrl (hx : s.xfer .ctrl = some x) (n : Nat) (f : Fate) :
    ∃ x', (s.settled .ctrl x n f).xfer .ctrl = some x' ∧ s.ctrlAnswer x.dataBuffer f =
      if (s.settled .ctrl x n f).done .ctrl then
        some ((s.settled .ctrl x n f).status .ctrl, (s.settled .ctrl x n f).ctrlActual, x'.dataBuffer)
      else none := by
  cases hf : f.completion with
  | some r =>
    simp only [settled, ctrlAnswer, hf]
    exact ⟨{ x with dataBuffer := r.buffer, inFlight := none }, by simp [transferCb, land, emit],
      by simp [transferCb, land, emit]⟩
  | none =>
    simp only [settled, ctrlAnswer, hf]
    exact ⟨x, hx, rfl⟩

private theorem returns_of_control_waiting (hcall : s.call = .waiting (.control setup outData inBuf maxIn) n)
    (hx : s.xfer .ctrl = some x) (hfly : x.inFlight = some n) (f : Fate)
    (hvalue : (ret, data) = controlReturn inBuf maxIn (s.ctrlAnswer x.dataBuffer f)) :
    s.Returns (.control setup outData inBuf maxIn) ret data := by
  obtain ⟨x', hx', hanswer⟩ := settled_ctrl hx n f
  apply returns_of_waiting hcall hx hfly f
  · intro (hdone : (s.settled .ctrl x n f).done .ctrl = true)
    rw [hanswer, if_pos hdone] at hvalue
    exact returns_of_control_taken rfl hx' hvalue
  · intro (hdone : (s.settled .ctrl x n f).done .ctrl = false)
    rw [hanswer, hdone] at hvalue
    exact Prod.mk.inj hvalue

/-- `usb_drv_control` is a run of its machine. -/
theorem drvControl_returns (hidle : s.call = .idle) (f : Fate) :
    ∃ s', s.step (.call (.control setup outData inBuf maxIn)) = .ok s' ∧
      s'.Returns (.control setup outData inBuf maxIn) (s.drvControl setup outData inBuf maxIn f).ret
        (s.drvControl setup outData inBuf maxIn f).data := by
  have hbegin : s.step (.call (.control setup outData inBuf maxIn)) =
      .ok (s.begin (.control setup outData inBuf maxIn)) := by
    simp only [Calls.step, hidle]
  refine ⟨_, hbegin, ?_⟩
  cases hdev : s.dev with
  | false =>
    simp only [begin, drvControl, hdev]
    exact returns_ret ..
  | true =>
    cases hx : s.xfer .ctrl with
    | none =>
      simp only [begin, drvControl, hdev, hx]
      exact returns_ret ..
    | some x =>
      by_cases hok : (x.fillControl setup outData maxIn).2 = true
      · have hfly := x.fillControl_inFlight setup outData maxIn
        have hvalue := @drvControl_value s x setup outData inBuf maxIn hdev hx hok f
        simp only [begin, hdev, hx, if_pos hok]
        have hself : ∀ y : Transfer, update s.xfer .ctrl (some y) .ctrl = some y := fun y => update_self ..
        apply returns_of_filled rfl (hself _) f
        · intro haccepted
          rw [hfly] at haccepted
          exact returns_of_control_waiting rfl (launch_xfer _ .ctrl _) rfl f (hvalue haccepted)
        · intro hrefused
          rw [hfly] at hrefused
          simp only [drvControl, hdev, hx, hrefused, and_false, if_false, and_self]
      · simp only [begin, drvControl, hdev, hx, hok]
        exact returns_ret ..

end Control

private theorem settled_out (s : Calls) (x : Transfer) (n : Nat) (f : Fate) : s.outAnswer f =
    if (s.settled .out x n f).done .out then some ((s.settled .out x n f).status .out) else none := by
  cases hf : f.completion with
  | some r => simp [settled, outAnswer, hf, transferCb]
  | none => simp [settled, outAnswer, hf]

def sendReturn : Option TransferStatus → Int
  | none => espErrTimeout
  | some status => status.toInt

private theorem returns_of_send_waiting {buf : List UInt8}
    (hcall : s.call = .waiting (.sendBlocking buf) n)
    (hx : s.xfer .out = some x) (hfly : x.inFlight = some n) (f : Fate)
    (hvalue : ret = sendReturn (s.outAnswer f)) : s.Returns (.sendBlocking buf) ret [] := by
  rw [settled_out s x n f] at hvalue
  apply returns_of_waiting hcall hx hfly f
  · intro (hdone : (s.settled .out x n f).done .out = true)
    rw [if_pos hdone] at hvalue
    rw [hvalue]
    have hfinish : ((s.settled .out x n f).takeDone (.sendBlocking buf) n).step .finish =
        .ok (((s.settled .out x n f).takeDone (.sendBlocking buf) n).ret (.sendBlocking buf) (some n)
          ((s.settled .out x n f).status .out).toInt []) := rfl
    exact (returns_ret ..).of_step rfl hfinish
  · intro (hdone : (s.settled .out x n f).done .out = false)
    rw [hdone] at hvalue
    exact ⟨hvalue, rfl⟩

private theorem drvSendBlocking_value (hdev : s.dev = true) (hx : s.xfer .out = some x)
    (buf : List UInt8) (f : Fate) (haccepted : f.accepted = true ∧ x.inFlight = none) :
    (s.drvSendBlocking buf f).ret = sendReturn (s.outAnswer f) := by
  unfold drvSendBlocking
  simp only [hdev, hx, if_pos haccepted]
  cases s.outAnswer f <;> rfl

/-- `usb_drv_send_blocking` is a run of its machine. -/
theorem drvSendBlocking_returns (hidle : s.call = .idle) (buf : List UInt8) (f : Fate) :
    ∃ s', s.step (.call (.sendBlocking buf)) = .ok s' ∧
      s'.Returns (.sendBlocking buf) (s.drvSendBlocking buf f).ret (s.drvSendBlocking buf f).data := by
  have hbegin : s.step (.call (.sendBlocking buf)) = .ok (s.begin (.sendBlocking buf)) := by
    simp only [Calls.step, hidle]
  refine ⟨_, hbegin, ?_⟩
  cases hdev : s.dev with
  | false =>
    simp only [begin, drvSendBlocking, hdev]
    exact returns_ret ..
  | true =>
    cases hx : s.xfer .out with
    | none =>
      simp only [begin, drvSendBlocking, hdev, hx]
      exact returns_ret ..
    | some x =>
      have hdata : (s.drvSendBlocking buf f).data = [] := by
        simp only [drvSendBlocking, hdev, hx]
      simp only [begin, hdev, hx, hdata]
      have hself : ∀ y : Transfer, update s.xfer .out (some y) .out = some y := fun y => update_self ..
      apply returns_of_filled rfl (hself _) f
      · intro haccepted
        have hvalue := drvSendBlocking_value hdev hx buf f haccepted
        exact returns_of_send_waiting rfl (launch_xfer _ .out _) rfl f hvalue
      · intro (hrefused : ¬(f.accepted = true ∧ x.inFlight = none))
        simp only [drvSendBlocking, hdev, hx, if_neg hrefused, and_self]

end Calls

namespace InPipe

variable {s t : InPipe} {maxLen : Nat} {ret : Int} {data : List UInt8}

def starts : InInput → Bool
  | .recv _ _ => true
  | _ => false

/-- The call that is under way returns with this value and this data in some run. -/
def Receives (s : InPipe) (ret : Int) (data : List UInt8) : Prop :=
  CanReach InPipe.step (starts · = false) (fun t => t.trace.getLast? = some (.received ret data)) s

private theorem receives_emit (s : InPipe) (ret : Int) (data : List UInt8) :
    (s.emit (.received ret data)).Receives ret data :=
  CanReach.here List.getLast?_concat

private theorem queueSend_recv (s : InPipe) (frame : UsbFrame) :
    (s.queueSend frame).recv = s.recv := by
  unfold queueSend
  split <;> rfl

private theorem queueSend_rxQueue (h : s.rxQueue = t.rxQueue) (frame : UsbFrame) :
    (s.queueSend frame).rxQueue = (t.queueSend frame).rxQueue := by
  unfold queueSend
  rw [h]
  split
  · rfl
  · exact h

private theorem inTransferCb_recv (s : InPipe) (c : Completion) :
    (s.inTransferCb c).recv = s.recv := by
  unfold inTransferCb
  split
  · exact s.queueSend_recv _
  · rfl
  · exact s.queueSend_recv _

private theorem inTransferCb_rxQueue (h : s.rxQueue = t.rxQueue) (c : Completion) :
    (s.inTransferCb c).rxQueue = (t.inTransferCb c).rxQueue := by
  unfold inTransferCb
  split
  · exact queueSend_rxQueue h _
  · exact h
  · exact queueSend_rxQueue h _

/-- What `usb_drv_recv` makes of the queue at the end of its wait. -/
def recvReturn (maxLen : Nat) : List UsbFrame → Int × List UInt8
  | [] => (-1, [])
  | frame :: _ =>
      if frame.len = 0xFFFF then (-1, [])
      else
        let copy := if frame.len.toNat < maxLen then frame.len.toNat else maxLen
        (copy, frame.data.take copy)

private theorem receives_of_waiting (hrecv : s.recv = some maxLen)
    (hvalue : (ret, data) = recvReturn maxLen s.rxQueue) : s.Receives ret data := by
  cases hq : s.rxQueue with
  | nil =>
    have hstep : s.step .recvTimeout = .ok ({ s with recv := none }.emit (.received (-1) [])) := by
      simp only [InPipe.step, hrecv, hq]
    rw [hq, recvReturn, Prod.mk.injEq] at hvalue
    rw [hvalue.1, hvalue.2]
    exact (receives_emit ..).of_step rfl hstep
  | cons frame rest =>
    have hstep : s.step .recvTake = .ok ({ s with rxQueue := rest }.drvReceived maxLen frame) := by
      simp only [InPipe.step, hrecv, hq]
    have hend : ({ s with rxQueue := rest }.drvReceived maxLen frame).Receives ret data := by
      rw [hq, recvReturn] at hvalue
      by_cases hlen : frame.len = 0xFFFF
      · rw [if_pos hlen, Prod.mk.injEq] at hvalue
        rw [drvReceived, if_pos hlen, hvalue.1, hvalue.2]
        exact receives_emit ..
      · rw [if_neg hlen, Prod.mk.injEq] at hvalue
        rw [drvReceived, if_neg hlen, hvalue.1, hvalue.2]
        exact receives_emit ..
    exact hend.of_step rfl hstep

private theorem settledQueue_congr (h : s.rxQueue = t.rxQueue) (f : Fate) :
    s.settledQueue f = t.settledQueue f := by
  unfold settledQueue
  split
  · exact inTransferCb_rxQueue h _
  · exact h

private theorem receives_of_submitted {x : Transfer} {n : Nat} (hrecv : s.recv = some maxLen)
    (hx : s.xfer = some x) (hfly : x.inFlight = some n) (f : Fate)
    (hvalue : (ret, data) = recvReturn maxLen (s.settledQueue f)) : s.Receives ret data := by
  cases hf : f.completion with
  | none =>
    rw [settledQueue, hf] at hvalue
    exact receives_of_waiting hrecv hvalue
  | some c =>
    have hstep : s.step (.complete c) = .ok ((s.land x n c).inTransferCb c) := by
      simp only [InPipe.step, hx, hfly]
    have hqueue : (s.inTransferCb c).rxQueue = ((s.land x n c).inTransferCb c).rxQueue :=
      inTransferCb_rxQueue (show s.rxQueue = (s.land x n c).rxQueue from rfl) c
    rw [settledQueue, hf] at hvalue
    have hrecv' : ((s.land x n c).inTransferCb c).recv = some maxLen :=
      (inTransferCb_recv _ c).trans hrecv
    exact (receives_of_waiting hrecv' (hvalue.trans (congrArg _ hqueue))).of_step rfl hstep

private theorem drvRecvFrame_value {x : Transfer} (hdev : s.dev = true) (hx : s.xfer = some x) (maxLen : Nat)
    (f : Fate) (haccepted : f.accepted = true ∧ x.inFlight = none) :
    ((s.drvRecvFrame maxLen f).ret, (s.drvRecvFrame maxLen f).data) =
      recvReturn maxLen (s.settledQueue f) := by
  simp only [drvRecvFrame, hdev, hx, if_pos haccepted, recvReturn]
  cases s.settledQueue f with
  | nil => rfl
  | cons frame rest =>
    dsimp only
    split <;> rfl

/-- `usb_drv_recv` is a run of its machine. -/
theorem drvRecvFrame_receives (hidle : s.recv = none) (maxLen : Nat) (f : Fate) :
    ∃ s', s.step (.recv maxLen f.accepted) = .ok s' ∧
      s'.Receives (s.drvRecvFrame maxLen f).ret (s.drvRecvFrame maxLen f).data := by
  have hbegin : s.step (.recv maxLen f.accepted) = .ok (s.drvRecv maxLen f.accepted) := by
    simp only [InPipe.step, hidle]
  refine ⟨_, hbegin, ?_⟩
  cases hdev : s.dev with
  | false =>
    simp only [drvRecv, drvRecvFrame, hdev]
    exact receives_emit ..
  | true =>
    cases hx : s.xfer with
    | none =>
      simp only [drvRecv, drvRecvFrame, hdev, hx]
      exact receives_emit ..
    | some x =>
      by_cases haccepted : f.accepted = true ∧ x.inFlight = none
      · simp only [drvRecv, hdev, hx, if_pos haccepted]
        apply receives_of_submitted rfl rfl rfl f
        rw [drvRecvFrame_value hdev hx maxLen f haccepted]
        apply congrArg
        apply settledQueue_congr
        rfl
      · simp only [drvRecv, drvRecvFrame, hdev, hx, if_neg haccepted]
        exact receives_emit ..

end InPipe

/-! ## The driver as the proxy calls it -/

section Control

variable {s : Calls} {x : Transfer} {setup : Vector UInt8 8} {outData : Option (List UInt8)}
  {maxIn : Nat} {f : Fate}

def Calls.filledControl (s : Calls) (setup : Vector UInt8 8) (outData : Option (List UInt8))
    (maxIn : Nat) : Option Transfer :=
  match s.dev, s.xfer .ctrl with
  | true, some x =>
      let r := x.fillControl setup outData maxIn
      if r.2 then some r.1 else none
  | _, _ => none

private theorem Calls.filledControl_of_ok (hdev : s.dev = true) (hx : s.xfer .ctrl = some x)
    (hok : (x.fillControl setup outData maxIn).2 = true) :
    s.filledControl setup outData maxIn = some (x.fillControl setup outData maxIn).1 := by
  simp only [filledControl, hdev, hx, if_pos hok]

theorem Calls.exists_of_filledControl (h : s.filledControl setup outData maxIn = some x) :
    ∃ y, s.dev = true ∧ s.xfer .ctrl = some y ∧ (y.fillControl setup outData maxIn).2 = true ∧
      (y.fillControl setup outData maxIn).1 = x := by
  unfold filledControl at h
  split at h
  · rename_i y hdev hy
    by_cases hok : (y.fillControl setup outData maxIn).2 = true
    · rw [if_pos hok, Option.some.injEq] at h
      exact ⟨y, hdev, hy, hok, h⟩
    · rw [if_neg hok] at h
      cases h
  · cases h

theorem Calls.drvControl_of_submitted (hfilled : s.filledControl setup outData maxIn = some x)
    (haccepted : f.accepted = true ∧ x.inFlight = none) (inBuf : Bool) :
    ((s.drvControl setup outData inBuf maxIn f).ret, (s.drvControl setup outData inBuf maxIn f).data) =
      controlReturn inBuf maxIn (s.ctrlAnswer x.dataBuffer f) := by
  obtain ⟨y, hdev, hy, hok, rfl⟩ := exists_of_filledControl hfilled
  rw [Transfer.fillControl_inFlight] at haccepted
  exact drvControl_value hdev hy hok f haccepted

theorem Calls.drvControl_of_not_submitted
    (h : ∀ x, s.filledControl setup outData maxIn = some x → ¬(f.accepted = true ∧ x.inFlight = none))
    (inBuf : Bool) : (s.drvControl setup outData inBuf maxIn f).ret = -1 ∧
      (s.drvControl setup outData inBuf maxIn f).data = [] := by
  unfold drvControl
  split
  · rename_i x hdev hx
    have hno : ¬((x.fillControl setup outData maxIn).2 = true ∧ f.accepted = true ∧ x.inFlight = none) := by
      intro hall
      have hfly := x.fillControl_inFlight setup outData maxIn
      exact h _ (filledControl_of_ok hdev hx hall.1) ⟨hall.2.1, hfly.trans hall.2.2⟩
    simp only [if_neg hno, and_self]
  · exact ⟨rfl, rfl⟩

end Control

/-- The transfers of the driver; both machines have the same device. -/
structure DriverState where
  calls : Calls
  pipe : InPipe
  dev_eq : pipe.dev = calls.dev

namespace DriverState

variable {d : DriverState} {f : Fate} {call : UsbCall} {x : Transfer}

def perform (d : DriverState) (f : Fate) : UsbCall → Returned
  | .controlIn setup maxIn => d.calls.drvControl setup none true maxIn f
  | .controlOut setup data => d.calls.drvControl setup (some data) false 0 f
  | .recv maxLen => d.pipe.drvRecvFrame maxLen f
  | .sendBlocking data => d.calls.drvSendBlocking data f

/-- The transfer that a call fills and submits, if it comes so far. -/
def filled (d : DriverState) : UsbCall → Option Transfer
  | .controlIn setup maxIn => d.calls.filledControl setup none maxIn
  | .controlOut setup data => d.calls.filledControl setup (some data) 0
  | .recv _ => if d.pipe.dev then d.pipe.xfer else none
  | .sendBlocking data =>
      if d.calls.dev then (d.calls.xfer .out).map (·.fillOut data d.calls.outMps) else none

/-- The call submits this transfer. -/
structure Submits (d : DriverState) (f : Fate) (call : UsbCall) (x : Transfer) : Prop where
  filled : d.filled call = some x
  accepted : f.accepted = true ∧ x.inFlight = none

/-- What a call makes of the end of its transfer. -/
def settledReturn (d : DriverState) (f : Fate) (x : Transfer) : UsbCall → Int × List UInt8
  | .controlIn _ maxIn => Calls.controlReturn true maxIn (d.calls.ctrlAnswer x.dataBuffer f)
  | .controlOut _ _ => Calls.controlReturn false 0 (d.calls.ctrlAnswer x.dataBuffer f)
  | .recv maxLen => InPipe.recvReturn maxLen (d.pipe.settledQueue f)
  | .sendBlocking _ => (Calls.sendReturn (d.calls.outAnswer f), [])

theorem perform_of_submits (h : d.Submits f call x) :
    ((d.perform f call).ret, (d.perform f call).data) = d.settledReturn f x call := by
  have hfilled := h.filled
  cases call with
  | controlIn setup maxIn => exact Calls.drvControl_of_submitted hfilled h.accepted _
  | controlOut setup data => exact Calls.drvControl_of_submitted hfilled h.accepted _
  | recv maxLen =>
    cases hdev : d.pipe.dev with
    | false => simp [filled, hdev] at hfilled
    | true =>
      simp only [filled, hdev, if_true] at hfilled
      exact InPipe.drvRecvFrame_value hdev hfilled maxLen f h.accepted
  | sendBlocking data =>
    cases hdev : d.calls.dev with
    | false => simp [filled, hdev] at hfilled
    | true =>
      simp only [filled, hdev, if_true, Option.map_eq_some_iff] at hfilled
      obtain ⟨y, hy, rfl⟩ := hfilled
      apply Prod.ext
      · exact Calls.drvSendBlocking_value hdev hy data f h.accepted
      · simp only [perform, Calls.drvSendBlocking, hdev, hy, settledReturn]

/-- The value of a call that submits nothing: without a device or a pipe an OUT transfer is
reported as a success. -/
theorem perform_of_not_submits (h : ∀ x, ¬d.Submits f call x) :
    (d.perform f call).data = [] ∧ ((d.perform f call).ret = -1 ∨
      (d.perform f call).ret = 0 ∧ ∃ data, call = .sendBlocking data) := by
  have hno : ∀ x, d.filled call = some x → ¬(f.accepted = true ∧ x.inFlight = none) :=
    fun x hfilled haccepted => h x ⟨hfilled, haccepted⟩
  cases call with
  | controlIn setup maxIn =>
    have hret := Calls.drvControl_of_not_submitted hno true
    exact ⟨hret.2, .inl hret.1⟩
  | controlOut setup data =>
    have hret := Calls.drvControl_of_not_submitted hno false
    exact ⟨hret.2, .inl hret.1⟩
  | recv maxLen =>
    simp only [perform, InPipe.drvRecvFrame]
    split
    · rename_i x hdev hx
      have hrefused := hno x (by simp only [filled, hdev, if_true, hx])
      simp [if_neg hrefused]
    · simp
  | sendBlocking data =>
    simp only [perform, Calls.drvSendBlocking]
    split
    · rename_i x hdev hx
      have hrefused : ¬(f.accepted = true ∧ x.inFlight = none) :=
        hno (x.fillOut data d.calls.outMps) (by simp only [filled, hdev, if_true, hx, Option.map_some])
      simp [if_neg hrefused]
    · simp

theorem perform_cases {P : Int → List UInt8 → Prop}
    (hsubmits : ∀ x, d.Submits f call x → P (d.settledReturn f x call).1 (d.settledReturn f x call).2)
    (hfails : P (-1) []) (hdrops : ∀ data, call = .sendBlocking data → P 0 []) :
    P (d.perform f call).ret (d.perform f call).data := by
  by_cases hsub : ∃ x, d.Submits f call x
  · obtain ⟨x, hsub⟩ := hsub
    have hvalue := hsubmits x hsub
    rwa [← perform_of_submits hsub] at hvalue
  · obtain ⟨hdata, hret | ⟨hret, data, hcall⟩⟩ := perform_of_not_submits fun x h => hsub ⟨x, h⟩
    · rw [hdata, hret]
      exact hfails
    · rw [hdata, hret]
      exact hdrops data hcall

/-- In some run the call returns this value and this data. -/
def Ends (d : DriverState) (f : Fate) (ret : Int) (data : List UInt8) : UsbCall → Prop
  | .controlIn setup maxIn => ∃ s, d.calls.step (.call (.control setup none true maxIn)) = .ok s ∧
      s.Returns (.control setup none true maxIn) ret data
  | .controlOut setup out => ∃ s, d.calls.step (.call (.control setup (some out) false 0)) = .ok s ∧
      s.Returns (.control setup (some out) false 0) ret data
  | .recv maxLen => ∃ s, d.pipe.step (.recv maxLen f.accepted) = .ok s ∧ s.Receives ret data
  | .sendBlocking buf => ∃ s, d.calls.step (.call (.sendBlocking buf)) = .ok s ∧
      s.Returns (.sendBlocking buf) ret data

/-- The calls of the proxy are runs of the driver's machines. -/
theorem perform_ends (hcalls : d.calls.call = .idle) (hpipe : d.pipe.recv = none) (f : Fate)
    (call : UsbCall) : d.Ends f (d.perform f call).ret (d.perform f call).data call := by
  cases call with
  | controlIn setup maxIn => exact Calls.drvControl_returns hcalls f
  | controlOut setup data => exact Calls.drvControl_returns hcalls f
  | recv maxLen => exact InPipe.drvRecvFrame_receives hpipe maxLen f
  | sendBlocking data => exact Calls.drvSendBlocking_returns hcalls data f

end DriverState

end WirelessHub.Firmware.Usb
