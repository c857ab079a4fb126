import Mathlib.Logic.Function.Basic
import WirelessHub.Firmware.DeviceSession

/-!
# The device firmware on its network

The sessions of one ESP with the sockets they use: a UDP reply socket for each session, and
one TCP connection for the device events of all of them. A step is one phase of a session
task, or the arrival of data on a socket; the phases come in any order, also in orders that
the tasks do not produce.
-/

namespace WirelessHub.Firmware

open Function

/-- A socket with what has arrived on it and was not read yet. -/
inductive Socket
  | udp (port : UInt16) (rx : List (List UInt8))
  | tcp (rx : List UInt8)
  deriving DecidableEq, Repr

structure Esp where
  sockets : Nat → Option Socket
  eventSock : Option Nat
  eventConnected : Bool
  sessions : UInt8 → Option Session
  inBuf : List UInt8
  trace : List (UInt8 × Effect)

def Session.eventPacket (s : Session) (event : DeviceEvent) : List UInt8 :=
  Header.encode ⟨CmdType.deviceEvent.toByte, s.cfg.deviceId, 0, s.seq,
      UInt16.ofNat DeviceEventPayload.size⟩ ++
    DeviceEventPayload.encode
      { deviceId := s.cfg.deviceId
        event := event.toByte
        speed := s.cfg.speed
        usbClass := s.cfg.usbClass
        subclass := s.cfg.subclass
        protocol := s.cfg.protocol
        replyPort := deviceBasePort + s.cfg.deviceId.toUInt16 }

/-- The answers of the network stack while a device event is sent. -/
structure EventAnswers where
  socket : Option Nat := none
  connect : Bool := true
  sent : Option Nat := none

namespace Esp

def boot (sessions : UInt8 → Option SessionCfg) : Esp where
  sockets _ := none
  eventSock := none
  eventConnected := false
  sessions d := (sessions d).map fun cfg => ⟨cfg, none, 0, 0, 0, .zero⟩
  inBuf := List.replicate inBufSize 0
  trace := []

def close (e : Esp) (fd : Nat) : Esp := { e with sockets := update e.sockets fd none }

def setSession (e : Esp) (d : UInt8) (s : Session) : Esp :=
  { e with sessions := update e.sessions d (some s) }

def emit (e : Esp) (d : UInt8) (effects : List Effect) : Esp :=
  { e with trace := e.trace ++ effects.map (d, ·) }

/-- A new descriptor is not one that is open. -/
def openSocket (e : Esp) (answer : Option Nat) (sock : Socket) : Option (Nat × Esp) :=
  match answer with
  | none => none
  | some fd =>
      if e.sockets fd = none then some (fd, { e with sockets := update e.sockets fd (some sock) })
      else none

/-- `session_ctrl_task` when the daemon was found: note its address, open and bind the reply
socket, then reset the session. A failure leaves no socket behind. -/
def openReply (e : Esp) (d : UInt8) (daemonIp : UInt32) (socket : Option Nat) (bind setsockopt : Bool) :
    Esp :=
  match e.sessions d with
  | none => e
  | some s =>
      let s := { s with daemonIp := daemonIp }
      let e := e.setSession d s
      match e.openSocket socket (.udp (deviceBasePort + d.toUInt16) []) with
      | none => e
      | some (fd, e') =>
          if bind && setsockopt then
            e'.setSession d { s with sock := some fd, reasm := .zero, seq := 0, outTransferSeq := 0 }
          else e

/-- `session_ctrl_task` when the daemon was lost: the reply socket goes. -/
def closeReply (e : Esp) (d : UInt8) : Esp :=
  match e.sessions d with
  | none => e
  | some s => match s.sock with
    | none => e
    | some fd => (e.setSession d { s with sock := none }).close fd

def dropEvent (e : Esp) : Esp :=
  match e.eventSock with
  | none => { e with eventConnected := false }
  | some fd => { e.close fd with eventSock := none, eventConnected := false }

def ensureEventTcpConnected (e : Esp) (a : EventAnswers) : Esp :=
  if e.eventSock.isSome && e.eventConnected then e
  else
    let e := e.dropEvent
    match e.openSocket a.socket (.tcp []) with
    | none => e
    | some (fd, e') =>
        if a.connect then { e' with eventSock := some fd, eventConnected := true } else e

/-- A device event goes out on the shared connection; a short or failed `send` closes it. -/
def sendDeviceEvent (e : Esp) (d : UInt8) (event : DeviceEvent) (a : EventAnswers) : Esp :=
  match e.sessions d with
  | none => e
  | some s =>
      let e := e.ensureEventTcpConnected a
      if e.eventSock.isSome && e.eventConnected then
        let pkt := s.eventPacket event
        let e := (e.setSession d { s with seq := s.seq + 1 }).emit d
          [.eventSend (pkt.take (a.sent.getD 0))]
        if a.sent = some pkt.length then e else e.dropEvent
      else e

/-- `recvfrom`: the next datagram of a UDP socket, or bytes of a TCP stream. -/
def recvFrom (e : Esp) (fd : Nat) : Option (List UInt8 × Esp) :=
  match e.sockets fd with
  | none => none
  | some (.udp _ []) => none
  | some (.udp port (dgram :: rx)) =>
      some (dgram, { e with sockets := update e.sockets fd (some (.udp port rx)) })
  | some (.tcp []) => none
  | some (.tcp (b :: rx)) =>
      some ((b :: rx).take rxBufSize,
        { e with sockets := update e.sockets fd (some (.tcp ((b :: rx).drop rxBufSize))) })

/-- One round of the receive loop of `session_down_task`. -/
def receive (e : Esp) (d : UInt8) (a : Answers) : Esp :=
  match e.sessions d with
  | none => e
  | some s => match s.sock with
    | none => e
    | some fd => match e.recvFrom fd with
      | none => e
      | some (bytes, e') =>
          let r := onDatagram s e'.inBuf bytes a
          { (e'.setSession d r.session).emit d r.effects with inBuf := r.inBuf }

def forward (e : Esp) (d : UInt8) (frame : List UInt8) : Esp :=
  match e.sessions d with
  | none => e
  | some s =>
      if s.cfg.usbipMode || frame.isEmpty then e
      else
        let r := s.sendRaw frame
        (e.setSession d r.1).emit d r.2

def udpArrives (e : Esp) (port : UInt16) (bytes : List UInt8) : Esp :=
  { e with sockets := fun fd => match e.sockets fd with
    | some (.udp p rx) => some (.udp p (if p = port then rx ++ [bytes] else rx))
    | sock => sock }

def tcpArrives (e : Esp) (fd : Nat) (bytes : List UInt8) : Esp :=
  match e.sockets fd with
  | some (.tcp rx) => { e with sockets := update e.sockets fd (some (.tcp (rx ++ bytes))) }
  | _ => e

end Esp

/-- What happens next on the device. -/
inductive EspInput
  | openReply (d : UInt8) (daemonIp : UInt32) (socket : Option Nat) (bind setsockopt : Bool)
  | closeReply (d : UInt8)
  | sendDeviceEvent (d : UInt8) (event : DeviceEvent) (a : EventAnswers)
  | receive (d : UInt8) (a : Answers)
  | forward (d : UInt8) (frame : List UInt8)
  | udpArrives (port : UInt16) (bytes : List UInt8)
  | tcpArrives (fd : Nat) (bytes : List UInt8)

def Esp.step (e : Esp) : EspInput → Esp
  | .openReply d ip socket bind setsockopt => e.openReply d ip socket bind setsockopt
  | .closeReply d => e.closeReply d
  | .sendDeviceEvent d event a => e.sendDeviceEvent d event a
  | .receive d a => e.receive d a
  | .forward d frame => e.forward d frame
  | .udpArrives port bytes => e.udpArrives port bytes
  | .tcpArrives fd bytes => e.tcpArrives fd bytes

end WirelessHub.Firmware
