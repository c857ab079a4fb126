import WirelessHub.Protocol.Usbip

/-!
# Device sessions of the firmware

The session code of `device_session.c`: `send_raw` with its fragmentation, the one-slot
reassembly, the USB/IP proxy and what `session_down_task` does with one datagram. The
answers of the USB driver and of the heap come with each call.
-/

namespace WirelessHub.Firmware

/-- The configuration of a session; `ops` is the driver behind the answers. -/
structure SessionCfg where
  deviceId : UInt8
  speed : UInt8
  usbClass : UInt8
  subclass : UInt8
  protocol : UInt8
  usbipMode : Bool
  deriving DecidableEq, Repr

def reasmMaxFrags : Nat := 8
def reasmFragLen : Nat := 1536

/-- `reasm_state_t`; a filled slot stands for `have`, `data` and `lens` of one index. -/
structure Reasm where
  active : Bool
  transferSeq : UInt16
  total : UInt8
  received : UInt8
  slots : Nat → Option (List UInt8)

def Reasm.zero : Reasm := ⟨false, 0, 0, 0, fun _ => none⟩

/-- `session_t`; an inactive session has no socket. -/
structure Session where
  cfg : SessionCfg
  sock : Option Nat
  daemonIp : UInt32
  seq : UInt8
  outTransferSeq : UInt16
  reasm : Reasm

structure SockAddr where
  ip : UInt32
  port : UInt16
  deriving DecidableEq, Repr

inductive UsbCall
  | controlIn (setup : Vector UInt8 8) (maxIn : Nat)
  | controlOut (setup : Vector UInt8 8) (data : List UInt8)
  | recv (maxLen : Nat)
  | sendBlocking (data : List UInt8)
  deriving DecidableEq

inductive Effect
  | sendto (dest : SockAddr) (bytes : List UInt8)
  | eventSend (bytes : List UInt8)
  | submit (payload : List UInt8)
  | usb (call : UsbCall)
  | opsSend (bytes : List UInt8)
  deriving DecidableEq

def inBufSize : Nat := 1280

/-- What a driver call returns and what it wrote to `in_buf`; it keeps to the buffer. -/
structure UsbAnswer where
  ret : Int
  data : List UInt8
  ret_fits : ret ≤ inBufSize
  data_fits : data.length ≤ inBufSize

/-- The answers of the surroundings during one call. -/
structure Answers where
  usb : UsbAnswer := ⟨0, [], by decide, by decide⟩
  malloc : Bool := true
  sends : List Bool := []

namespace Session

def dest (s : Session) : SockAddr := ⟨s.daemonIp, daemonPort⟩

def rawHeader (s : Session) (len : Nat) : Header where
  cmdType := CmdType.rawData.toByte
  deviceId := s.cfg.deviceId
  endpoint := 0
  seq := s.seq
  payloadLen := UInt16.ofNat len

def fragment (s : Session) (tseq : UInt16) (totalFrags : Nat) (data : List UInt8) (i : Nat) :
    List UInt8 :=
  let offset := i * mtuPayload
  let chunkLen := if offset + mtuPayload ≤ data.length then mtuPayload else data.length - offset
  let hdr : Header :=
    { cmdType := CmdType.rawFrag.toByte
      deviceId := s.cfg.deviceId
      endpoint := 0
      seq := s.seq + UInt8.ofNat i
      payloadLen := UInt16.ofNat (FragHeader.size + chunkLen) }
  let fhdr : FragHeader := ⟨tseq, UInt8.ofNat i, UInt8.ofNat totalFrags⟩
  hdr.encode ++ fhdr.encode ++ (data.drop offset).take chunkLen

/-- One datagram, or one for each fragment. The transfer number is used up even when the
frame is too large and dropped. -/
def sendRaw (s : Session) (data : List UInt8) : Session × List Effect :=
  match s.sock with
  | none => (s, [])
  | some _ =>
      if data.length ≤ mtuPayload then
        ({ s with seq := s.seq + 1 },
          [.sendto s.dest ((s.rawHeader data.length).encode ++ data)])
      else
        let totalFrags := (data.length + mtuPayload - 1) / mtuPayload
        let next := { s with outTransferSeq := s.outTransferSeq + 1 }
        if totalFrags > 255 then (next, [])
        else ({ next with seq := s.seq + UInt8.ofNat totalFrags },
          (List.range totalFrags).map fun i =>
            .sendto s.dest (s.fragment s.outTransferSeq totalFrags data i))

end Session

/-- `if (!ops->send(...)) break;` over the fragments; calls without an answer succeed. -/
def sendFragments : List Bool → List (List UInt8) → List Effect
  | _, [] => []
  | [], d :: ds => .opsSend d :: sendFragments [] ds
  | ok :: oks, d :: ds => .opsSend d :: if ok then sendFragments oks ds else []

/-- `reasm_push`; the flag says whether the transfer is complete. -/
def Reasm.push (r : Reasm) (f : FragHeader) (chunk : List UInt8) (sends : List Bool) :
    Reasm × List Effect × Bool :=
  if f.fragTotal = 0 ∨ f.fragIdx ≥ f.fragTotal ∨ f.fragIdx.toNat ≥ reasmMaxFrags then (r, [], false)
  else
    let r := if !r.active || r.transferSeq ≠ f.transferSeq then
        { Reasm.zero with active := true, transferSeq := f.transferSeq, total := f.fragTotal }
      else r
    let r := if (r.slots f.fragIdx.toNat).isNone then
        { r with
          slots := fun i =>
            if i = f.fragIdx.toNat then some (chunk.take reasmFragLen) else r.slots i
          received := r.received + 1 }
      else r
    if r.received < r.total then (r, [], false)
    else ({ r with active := false },
      sendFragments sends ((List.range r.total.toNat).map fun i => (r.slots i).getD []), true)

def usbCall (cmd : CmdSubmit) (data : List UInt8) : UsbCall :=
  let length := cmd.transferBufferLength.toNat
  let maxIn := if length < inBufSize then length else inBufSize
  let outLen := if length < data.length then length else data.length
  if cmd.ep = 0 then
    if cmd.direction = usbipDirIn then .controlIn cmd.setup maxIn
    else .controlOut cmd.setup (data.take outLen)
  else
    if cmd.direction = usbipDirIn then .recv maxIn
    else .sendBlocking (data.take outLen)

def usbOutcome (ret : Int) : UsbCall → Nat × UInt32
  | .controlIn _ _ => if ret < 0 then (0, 1) else (ret.toNat, 0)
  | .controlOut _ _ => if ret < 0 then (0, 1) else (0, 0)
  | .recv _ => if ret < 0 then (0, 1) else (ret.toNat, 0)
  | .sendBlocking _ => if ret ≠ 0 then (0, 1) else (0, 0)

/-- `in_buf` after the driver call; an OUT transfer passes no buffer. -/
def usbFill (inBuf : List UInt8) (answer : UsbAnswer) : UsbCall → List UInt8
  | .controlIn _ _ => answer.data ++ inBuf.drop answer.data.length
  | .controlOut _ _ => inBuf
  | .recv _ => answer.data ++ inBuf.drop answer.data.length
  | .sendBlocking _ => inBuf

structure Handled where
  session : Session
  inBuf : List UInt8
  effects : List Effect

def retSubmit (cmd : CmdSubmit) (inBuf : List UInt8) (actual : Nat) (status : UInt32) : List UInt8 :=
  let inDataLen := if cmd.direction = usbipDirIn ∧ 0 < actual then actual else 0
  RetSubmit.encode ⟨cmd.seqnum, cmd.direction, cmd.ep, status, UInt32.ofNat actual⟩ ++
    inBuf.take inDataLen

/-- Handle one USB/IP payload: one driver call and one reply at most. -/
def usbHandleSubmit (s : Session) (inBuf raw : List UInt8) (a : Answers) : Handled :=
  if raw.length < CmdSubmit.size then ⟨s, inBuf, []⟩
  else
    let cmd := CmdSubmit.decode raw
    if cmd.command = usbipCmdUnlink then
      let r := s.sendRaw (retUnlink cmd.seqnum)
      ⟨r.1, inBuf, r.2⟩
    else if cmd.command ≠ usbipCmdSubmit then ⟨s, inBuf, []⟩
    else
      let call := usbCall cmd (raw.drop CmdSubmit.size)
      let inBuf := usbFill inBuf a.usb call
      let outcome := usbOutcome a.usb.ret call
      if a.malloc then
        let r := s.sendRaw (retSubmit cmd inBuf outcome.1 outcome.2)
        ⟨r.1, inBuf, .usb call :: r.2⟩
      else ⟨s, inBuf, [.usb call]⟩

/-- The size of a receive buffer; a longer datagram is cut. -/
def rxBufSize : Nat := Header.size + FragHeader.size + mtuPayload + 8

/-- What `session_down_task` does with one datagram. -/
def onDatagram (s : Session) (inBuf bytes : List UInt8) (a : Answers) : Handled :=
  let buf := bytes.take rxBufSize
  let payload := buf.drop Header.size
  if buf.length < Header.size then ⟨s, inBuf, []⟩
  else if (Header.decode buf).cmdType = CmdType.rawData.toByte then
    if s.cfg.usbipMode then
      let r := usbHandleSubmit s inBuf payload a
      { r with effects := .submit payload :: r.effects }
    else ⟨s, inBuf, [.opsSend payload]⟩
  else if (Header.decode buf).cmdType = CmdType.rawFrag.toByte then
    if payload.length < FragHeader.size then ⟨s, inBuf, []⟩
    else if s.cfg.usbipMode then ⟨s, inBuf, []⟩
    else
      let r := s.reasm.push (FragHeader.decode payload) (payload.drop FragHeader.size) a.sends
      ⟨{ s with reasm := r.1 }, inBuf, r.2.1⟩
  else ⟨s, inBuf, []⟩

end WirelessHub.Firmware
