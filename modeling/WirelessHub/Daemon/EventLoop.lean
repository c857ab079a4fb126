import WirelessHub.Daemon.HubServer
import WirelessHub.Framework.Run

/-!
# The event loop

The callbacks that `main` installs in the hub, `HubServer::onTcpReadable`, and the handling
of one epoll event. A turn faults when the code is still inside a system call or a wait
loop, or when it follows a null pointer.
-/

namespace WirelessHub

open Function Framework

/-- Why a turn of the loop does not end. -/
inductive Fault
  | waiting | nullDeref
  deriving DecidableEq, Repr

namespace Daemon

def sessionEvents : EventMask := { epollin := true, epollrdhup := true }

def usbipDevid (deviceId : UInt8) : UInt32 := ((1 : UInt32) <<< 16) ||| UInt32.ofNat (deviceId.toNat + 1)

def attach (st : Daemon) (socketFd : Fd) (deviceId : UInt8) (speed : UInt32) (sys : Syscalls) :
    Int × Daemon :=
  let r := st.vhci.attach sys.sysfsAttach
  (r.1, { st with
    vhci := r.2
    os := match st.vhci.freeSlot with
      | none => st.os
      | some port => st.os.emit (.sysfsAttach port socketFd (usbipDevid deviceId) speed) })

/-- Socketpair, port, pending socket, session, registration; each failure closes the pair. -/
def doUsbAttach (st : Daemon) (deviceId speed : UInt8) (devAddr : SockaddrIn) (sys : Syscalls) :
    Daemon :=
  match st.os.socketpair false sys.socketpair with
  | none => st
  | some (spv0, spv1, os) =>
      let r := attach { st with os := os } spv0 deviceId speed.toUInt32 sys
      if r.1 < 0 then (r.2.close spv0).close spv1
      else match r.2.hub.extractPendingSocket (ntohs devAddr.sinPort) with
        | none => (r.2.close spv0).close spv1
        | some (sock, hub) =>
            { r.2 with
              hub := hub.addSession (.make deviceId r.1 spv1 spv0 devAddr (some sock))
              os := (r.2.os.epollAdd sock.fd sessionEvents sys.epollCtl).epollAdd spv1
                sessionEvents sys.epollCtl }

/-- The disconnect callback: unregister, give the port back, remove the session. -/
def onDisconnect (st : Daemon) (deviceId : UInt8) (sys : Syscalls) : Daemon :=
  match st.hub.findByDeviceId deviceId with
  | none => st
  | some p => match st.hub.heap p with
    | none => st
    | some s =>
        let os := st.os.epollDel s.vhciFd
        let os := match s.tcpSock with
          | some sock => os.epollDel sock.fd
          | none => os
        let vhci := if 0 ≤ s.vhciPort then (st.vhci.detach s.vhciPort sys.sysfsDetach).2 else st.vhci
        removeSession { st with os := os, vhci := vhci } deviceId

/-- A failed read drops a pending connection and disconnects a bound one. -/
def onReadFailure (st : Daemon) (fd : Fd) (sys : Syscalls) : Daemon :=
  match st.hub.pendingTcpSocks fd with
  | some sock =>
      { st with
        hub := { st.hub with pendingTcpSocks := update st.hub.pendingTcpSocks fd none }
        os := st.os.close sock.fd }
  | none => match st.hub.tcpFdMap fd with
    | some p => st.onDisconnect (st.deviceIdAt p sys) sys
    | none => st

/-- The first half of `CONNECT`: an old session of the device goes. -/
def evict (st : Daemon) (deviceId : UInt8) (sys : Syscalls) : Daemon :=
  match st.hub.findByDeviceId deviceId with
  | some _ => st.onDisconnect deviceId sys
  | none => st

/-- `CONNECT`: only a pending socket is bound. -/
def onConnectEvent (st : Daemon) (fd : Fd) (dep : DeviceEventPayload) (sys : Syscalls) : Daemon :=
  let st := st.evict dep.deviceId sys
  match st.hub.pendingTcpSocks fd with
  | some _ => st.doUsbAttach dep.deviceId dep.speed ⟨htons fd⟩ sys
  | none => st

def onDeviceEvent (st : Daemon) (fd : Fd) (payload : List UInt8) (sys : Syscalls) : Daemon :=
  if payload.length < DeviceEventPayload.size then st
  else
    let dep := DeviceEventPayload.decode payload
    if dep.event = DeviceEvent.connect.toByte then st.onConnectEvent fd dep sys
    else if dep.event = DeviceEvent.disconnect.toByte then st.onDisconnect dep.deviceId sys
    else st

def onRawData (st : Daemon) (hdr : Header) (payload : List UInt8) (sys : Syscalls) :
    Except Fault Daemon :=
  match (st.hub.sessions hdr.deviceId).bind st.hub.heap with
  | none => .ok st
  | some s => match s.handler with
    | none => .error .nullDeref
    | some h =>
        let w := onDeviceData sys.writes payload
        if w.result = none then .error .waiting
        else .ok ((st.emit (.deviceData hdr.deviceId h.vhciFd payload)).emit
          (.kernelWrite h.vhciFd w.taken))

def stripLineEnds (msg : List UInt8) : List UInt8 :=
  (msg.reverse.dropWhile fun b => b = 10 || b = 13).reverse

def onLog (st : Daemon) (payload : List UInt8) : Daemon :=
  match payload with
  | [] => st
  | level :: msg => st.emit (.logLine level (stripLineEnds msg))

def handlePacket (st : Daemon) (fd : Fd) (hdr : Header) (payload : List UInt8) (sys : Syscalls) :
    Except Fault Daemon :=
  if hdr.cmdType = CmdType.deviceEvent.toByte then .ok (st.onDeviceEvent fd payload sys)
  else if hdr.cmdType = CmdType.rawData.toByte then st.onRawData hdr payload sys
  else if hdr.cmdType = CmdType.log.toByte then .ok (st.onLog payload)
  else .ok st

def onTcpReadable (st : Daemon) (fd : Fd) (sys : Syscalls) : Except Fault Daemon :=
  let r := st.readTcpPacket fd
  let st := { st with os := st.os.setRx fd r.2 }
  match r.1 with
  | .waiting => .error .waiting
  | .failed => .ok (st.onReadFailure fd sys)
  | .packet hdr payload => (st.emit (.packet fd hdr payload)).handlePacket fd hdr payload sys

/-- The first half of a reset: the TCP socket moves out of the session, which is then removed. -/
def unplug (st : Daemon) (fd : Fd) (p : SessionPtr) (s : DeviceSession) : Daemon :=
  removeSession { st with
    hub := { st.hub with heap := update st.hub.heap p (some { s with tcpSock := none }) }
    os := st.os.epollDel fd
    vhci := st.vhci.freePort s.vhciPort } s.deviceId

/-- A socket that was moved out of its session closes at the end of the turn. -/
def dropSocket (st : Daemon) (sock : Option TcpSocket) : Daemon :=
  { st with os := st.os.closeAll (sock.map TcpSocket.fd).toList }

/-- Hang-up of the kernel side: re-attach the device on the same TCP socket. -/
def reattach (st : Daemon) (fd : Fd) (p : SessionPtr) (s : DeviceSession) (sys : Syscalls) : Daemon :=
  let st := st.unplug fd p s
  match st.os.socketpair false sys.socketpair with
  | none => st.dropSocket s.tcpSock
  | some (spv0, spv1, os) =>
      let r := attach { st with os := os } spv0 s.deviceId 2 sys
      if r.1 < 0 then ((r.2.close spv0).close spv1).dropSocket s.tcpSock
      else { r.2 with
        hub := r.2.hub.addSession (.make s.deviceId r.1 spv1 spv0 s.devAddr s.tcpSock)
        os := r.2.os.epollAdd spv1 sessionEvents sys.epollCtl }

/-- `EPOLLIN` of the kernel side: drain it, and remove the session when the handler fails. -/
def vhciReadable (st : Daemon) (p : SessionPtr) (s : DeviceSession) (sys : Syscalls) :
    Except Fault Daemon :=
  match s.handler with
  | none => .error .nullDeref
  | some h =>
      let d := h.onVhciReadable sys.sends sys.reads
      let st := { st with
        hub := { st.hub with heap := update st.hub.heap p (some { s with handler := some d.handler }) }
        os := st.os.emit (.tcpSend h.sock d.bytes) }
      match d.result with
      | none => .error .waiting
      | some true => .ok st
      | some false => .ok (st.removeSession s.deviceId)

def onTcpEvent (st : Daemon) (fd : Fd) (p : SessionPtr) (evts : EventMask) (sys : Syscalls) :
    Except Fault Daemon :=
  if evts.hangup then .ok (st.removeSession (st.deviceIdAt p sys))
  else if evts.epollin then st.onTcpReadable fd sys
  else .ok st

def onVhciEvent (st : Daemon) (fd : Fd) (p : SessionPtr) (evts : EventMask) (sys : Syscalls) :
    Except Fault Daemon :=
  match st.hub.heap p with
  | none => .ok st
  | some s =>
      if evts.hangup then .ok (if 0 ≤ s.vhciPort then st.reattach fd p s sys else st)
      else if evts.epollin then st.vhciReadable p s sys
      else .ok st

/-- The body of the loop over the events of one `epoll_wait`. -/
def handleEvent (st : Daemon) (fd : Fd) (evts : EventMask) (sys : Syscalls) : Except Fault Daemon :=
  if fd = st.hub.udpFd then .ok (st.onUdpReadable sys)
  else if fd = st.hub.tcpServerFd then .ok (st.onTcpAccept sys)
  else match st.hub.findByTcpFd fd with
    | some p => st.onTcpEvent fd p evts sys
    | none => match st.hub.findByVhciFd fd with
      | some p => st.onVhciEvent fd p evts sys
      | none => if evts.epollin then st.onTcpReadable fd sys else .ok st

/-- One event with the input that has arrived and the answers of the system. -/
structure Input where
  fd : Fd
  evts : EventMask
  arrivals : List Recv := []
  sys : Syscalls := {}

def step (st : Daemon) (i : Input) : Except Fault Daemon :=
  handleEvent { st with os := st.os.deliver i.fd i.arrivals } i.fd i.evts i.sys

/-- The daemon when it enters the loop: the two server sockets are open and registered. -/
def boot (udpFd tcpServerFd : Fd) (inherited : Fd → Option FdMode) : Daemon where
  hub := .empty udpFd tcpServerFd
  vhci := .init
  os :=
    { fds := update (update inherited udpFd (some .nonblocking)) tcpServerFd (some .nonblocking)
      epoll := update (update (fun _ => none) udpFd (some { epollin := true })) tcpServerFd
        (some { epollin := true })
      rx := fun _ => []
      trace := [] }

end Daemon
end WirelessHub
