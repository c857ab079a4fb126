import Mathlib.Logic.Function.Basic
import WirelessHub.Protocol.Wire

/-!
# The USB driver of the firmware

The transfers of `usb_driver.c` with the tasks that wait for them. The calls are cut where
another task can come in between: before a submit, at the wait for a completion and after it.
Completions come at any time while a transfer is in flight, also when the caller has given
up. `usb_host_transfer_submit` fails while its transfer is in flight, and otherwise as the
host library decides. A step that cannot be taken in a state is an error.
-/

namespace WirelessHub.Firmware.Usb

open Function

/-- `usb_transfer_status_t`. -/
inductive TransferStatus
  | completed | error | timedOut | canceled | stall | overflow | skipped | noDevice
  deriving DecidableEq, Repr

def TransferStatus.toInt : TransferStatus → Int
  | .completed => 0
  | .error => 1
  | .timedOut => 2
  | .canceled => 3
  | .stall => 4
  | .overflow => 5
  | .skipped => 6
  | .noDevice => 7

/-- `usb_transfer_t`. While it is in flight it bears the number of its submit. -/
structure Transfer where
  dataBuffer : List UInt8
  numBytes : Nat
  inFlight : Option Nat
  deriving DecidableEq

/-- `memcpy` into the buffer of a transfer. -/
def Transfer.write (x : Transfer) (offset : Nat) (bytes : List UInt8) : Transfer :=
  { x with
    dataBuffer := x.dataBuffer.take offset ++ bytes ++ x.dataBuffer.drop (offset + bytes.length) }

/-- What the host controller reports for a transfer, with the buffer as it leaves it. -/
structure Completion where
  status : TransferStatus
  actualNumBytes : Nat
  buffer : List UInt8
  fits : actualNumBytes ≤ buffer.length

def Completion.data (c : Completion) : List UInt8 := c.buffer.take c.actualNumBytes

/-! ## The IN pipe -/

def rxQueueDepth : Nat := 8
def frameMax : Nat := 512

structure UsbFrame where
  data : List UInt8
  len : UInt16
  deriving DecidableEq

/-- The frame that wakes `usb_drv_recv` after a failed transfer. -/
def UsbFrame.failed : UsbFrame := ⟨[], 0xFFFF⟩

inductive InEvent
  | completed (n : Nat) (c : Completion)
  | dropped (frame : UsbFrame)
  | received (ret : Int) (data : List UInt8)

/-- `s_in_xfer` and `s_rx_queue`, with the `max_len` of the call that waits on the queue. -/
structure InPipe where
  dev : Bool
  xfer : Option Transfer
  rxQueue : List UsbFrame
  recv : Option Nat
  submits : Nat
  trace : List InEvent

inductive InInput
  | recv (maxLen : Nat) (accepted : Bool)
  | recvTake
  | recvTimeout
  | complete (c : Completion)

namespace InPipe

def emit (s : InPipe) (e : InEvent) : InPipe := { s with trace := s.trace ++ [e] }

def land (s : InPipe) (x : Transfer) (n : Nat) (c : Completion) : InPipe :=
  { s with xfer := some { x with dataBuffer := c.buffer, inFlight := none } }.emit (.completed n c)

/-- `xQueueSend` without waiting. -/
def queueSend (s : InPipe) (frame : UsbFrame) : InPipe :=
  if s.rxQueue.length < rxQueueDepth then { s with rxQueue := s.rxQueue ++ [frame] }
  else s.emit (.dropped frame)

def inTransferCb (s : InPipe) (c : Completion) : InPipe :=
  match c.status with
  | .completed =>
      let copy := if c.actualNumBytes < frameMax then c.actualNumBytes else frameMax
      s.queueSend ⟨c.buffer.take copy, UInt16.ofNat copy⟩
  | .noDevice => s
  | _ => s.queueSend .failed

/-- `usb_drv_recv` up to its wait on the queue. -/
def drvRecv (s : InPipe) (maxLen : Nat) (accepted : Bool) : InPipe :=
  match s.dev, s.xfer with
  | true, some x =>
      if accepted ∧ x.inFlight = none then
        { s with
          xfer := some { x with inFlight := some s.submits }
          submits := s.submits + 1
          recv := some maxLen }
      else s.emit (.received (-1) [])
  | _, _ => s.emit (.received (-1) [])

/-- `usb_drv_recv` with a frame from the queue. -/
def drvReceived (s : InPipe) (maxLen : Nat) (frame : UsbFrame) : InPipe :=
  let s := { s with recv := none }
  if frame.len = 0xFFFF then s.emit (.received (-1) [])
  else
    let copy := if frame.len.toNat < maxLen then frame.len.toNat else maxLen
    s.emit (.received copy (frame.data.take copy))

def step (s : InPipe) : InInput → Except Unit InPipe
  | .recv maxLen accepted => match s.recv with
    | none => .ok (s.drvRecv maxLen accepted)
    | some _ => .error ()
  | .recvTake => match s.recv, s.rxQueue with
    | some maxLen, frame :: rest => .ok ({ s with rxQueue := rest }.drvReceived maxLen frame)
    | _, _ => .error ()
  | .recvTimeout => match s.recv, s.rxQueue with
    | some _, [] => .ok ({ s with recv := none }.emit (.received (-1) []))
    | _, _ => .error ()
  | .complete c => match s.xfer with
    | some x => match x.inFlight with
      | some n => .ok ((s.land x n c).inTransferCb c)
      | none => .error ()
    | none => .error ()

end InPipe

/-! ## Control and OUT transfers -/

inductive Channel
  | out | ctrl
  deriving DecidableEq, Repr

/-- A call with its arguments; `inBuf` says whether the caller passed a buffer. -/
inductive Call
  | control (setup : Vector UInt8 8) (outData : Option (List UInt8)) (inBuf : Bool) (maxIn : Nat)
  | sendBlocking (buf : List UInt8)
  deriving DecidableEq

def Call.channel : Call → Channel
  | .control .. => .ctrl
  | .sendBlocking _ => .out

/-- How far the current call has come, with the number of its submit. -/
inductive Stage
  | idle
  | filled (c : Call)
  | waiting (c : Call) (n : Nat)
  | taken (c : Call) (n : Nat)
  | checked (c : Call) (n : Nat)

/-- A call returns with the number of its submit if it made one, the value and the data it
copied to the caller. -/
inductive CallEvent
  | completed (ch : Channel) (n : Nat) (c : Completion)
  | returned (c : Call) (sub : Option Nat) (ret : Int) (data : List UInt8)
  | sent (ok : Bool)

/-- `s_out_xfer` and `s_ctrl_xfer` with their semaphores and status variables. -/
structure Calls where
  dev : Bool
  xfer : Channel → Option Transfer
  done : Channel → Bool
  status : Channel → TransferStatus
  ctrlActual : Nat
  outMps : Nat
  call : Stage
  submits : Nat
  trace : List CallEvent

inductive CallInput
  | call (c : Call)
  | submit (accepted : Bool)
  | take
  | timeout
  | finish
  | collect
  | complete (ch : Channel) (c : Completion)
  | send (buf : List UInt8) (accepted : Bool)

def setupSize : Nat := 8
def ctrlMax : Nat := 1024
def espErrTimeout : Int := 0x107

/-- The buffer of a control transfer, and whether it is submitted at all. -/
def Transfer.fillControl (x : Transfer) (setup : Vector UInt8 8) (outData : Option (List UInt8))
    (maxIn : Nat) : Transfer × Bool :=
  let x := x.write 0 setup.toList
  match outData with
  | some data =>
      if data.length > ctrlMax then (x, false)
      else ({ x.write setupSize data with numBytes := setupSize + data.length }, true)
  | none =>
      if maxIn > ctrlMax then (x, false) else ({ x with numBytes := setupSize + maxIn }, true)

theorem Transfer.fillControl_inFlight (x : Transfer) (setup : Vector UInt8 8)
    (outData : Option (List UInt8)) (maxIn : Nat) :
    (x.fillControl setup outData maxIn).1.inFlight = x.inFlight := by
  unfold Transfer.fillControl
  cases outData <;> dsimp only <;> split <;> rfl

def Transfer.fillOut (x : Transfer) (buf : List UInt8) (outMps : Nat) : Transfer :=
  let len := if buf.length > outMps then outMps else buf.length
  { x.write 0 (buf.take len) with numBytes := len }

/-- The end of `usb_drv_control`: the length it returns and the data it copies. -/
def controlResult (inBuf : Bool) (maxIn actual : Nat) (dataBuffer : List UInt8) : Int × List UInt8 :=
  if inBuf ∧ 0 < maxIn ∧ 0 < actual then
    let copy := if actual < maxIn then actual else maxIn
    (copy, (dataBuffer.drop setupSize).take copy)
  else (actual, [])

namespace Calls

def emit (s : Calls) (e : CallEvent) : Calls := { s with trace := s.trace ++ [e] }

def ret (s : Calls) (c : Call) (sub : Option Nat) (value : Int) (data : List UInt8) : Calls :=
  { s with call := .idle }.emit (.returned c sub value data)

/-- `usb_drv_control` and `usb_drv_send_blocking` up to the submit. Without a device or a
pipe the first fails and the second reports success. -/
def begin (s : Calls) (c : Call) : Calls :=
  match c with
  | .control setup outData _ maxIn => match s.dev, s.xfer .ctrl with
    | true, some x =>
        let r := x.fillControl setup outData maxIn
        let s := { s with xfer := update s.xfer .ctrl (some r.1) }
        if r.2 then { s with call := .filled c } else s.ret c none (-1) []
    | _, _ => s.ret c none (-1) []
  | .sendBlocking buf => match s.dev, s.xfer .out with
    | true, some x =>
        { s with xfer := update s.xfer .out (some (x.fillOut buf s.outMps)), call := .filled c }
    | _, _ => s.ret c none 0 []

def launch (s : Calls) (ch : Channel) (x : Transfer) : Calls :=
  { s with
    xfer := update s.xfer ch (some { x with inFlight := some s.submits })
    submits := s.submits + 1 }

def land (s : Calls) (ch : Channel) (x : Transfer) (n : Nat) (c : Completion) : Calls :=
  { s with xfer := update s.xfer ch (some { x with dataBuffer := c.buffer, inFlight := none }) }.emit
    (.completed ch n c)

def timeoutValue : Call → Int
  | .control .. => -1
  | .sendBlocking _ => espErrTimeout

/-- `out_transfer_cb` and `ctrl_transfer_cb`; the length counts the setup packet. -/
def transferCb (s : Calls) (ch : Channel) (c : Completion) : Calls :=
  { s with
    status := update s.status ch c.status
    ctrlActual := if ch = .ctrl then c.actualNumBytes - setupSize else s.ctrlActual
    done := update s.done ch true }

/-- `usb_drv_send`, the `send` of the device operations. -/
def drvSend (s : Calls) (buf : List UInt8) (accepted : Bool) : Calls :=
  match s.dev, s.xfer .out with
  | true, some x =>
      let x := x.fillOut buf s.outMps
      let s := { s with xfer := update s.xfer .out (some x) }
      if accepted ∧ x.inFlight = none then (s.launch .out x).emit (.sent true)
      else s.emit (.sent false)
  | _, _ => s.emit (.sent true)

def step (s : Calls) : CallInput → Except Unit Calls
  | .call c => match s.call with
    | .idle => .ok (s.begin c)
    | _ => .error ()
  | .submit accepted => match s.call with
    | .filled c => match s.xfer c.channel with
      | some x =>
          if accepted ∧ x.inFlight = none then
            .ok { s.launch c.channel x with call := .waiting c s.submits }
          else .ok (s.ret c none (-1) [])
      | none => .error ()
    | _ => .error ()
  | .take => match s.call with
    | .waiting c n =>
        if s.done c.channel then
          .ok { s with done := update s.done c.channel false, call := .taken c n }
        else .error ()
    | _ => .error ()
  | .timeout => match s.call with
    | .waiting c n =>
        if s.done c.channel then .error () else .ok (s.ret c (some n) (timeoutValue c) [])
    | _ => .error ()
  | .finish => match s.call with
    | .taken (.sendBlocking buf) n =>
        .ok (s.ret (.sendBlocking buf) (some n) (s.status .out).toInt [])
    | .taken c n =>
        if s.status .ctrl ≠ .completed then .ok (s.ret c (some n) (-(s.status .ctrl).toInt) [])
        else .ok { s with call := .checked c n }
    | _ => .error ()
  | .collect => match s.call, s.xfer .ctrl with
    | .checked (.control setup outData inBuf maxIn) n, some x =>
        let r := controlResult inBuf maxIn s.ctrlActual x.dataBuffer
        .ok (s.ret (.control setup outData inBuf maxIn) (some n) r.1 r.2)
    | _, _ => .error ()
  | .complete ch c => match s.xfer ch with
    | some x => match x.inFlight with
      | some n => .ok ((s.land ch x n c).transferCb ch c)
      | none => .error ()
    | none => .error ()
  | .send buf accepted => match s.call with
    | .idle => .ok (s.drvSend buf accepted)
    | _ => .error ()

end Calls
end WirelessHub.Firmware.Usb
