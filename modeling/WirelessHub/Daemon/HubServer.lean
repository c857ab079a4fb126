import WirelessHub.Daemon.Os
import WirelessHub.Daemon.VhciDriver

/-!
# The hub server

`HubServer` owns the sessions and the sockets of clients that have not sent `CONNECT` yet.
Sessions live on a heap; `sessions_` owns them and the two descriptor maps hold plain
pointers, so a pointer can outlive its session.
-/

namespace WirelessHub

open Function

structure TcpSocket where
  fd : Fd
  deriving DecidableEq, Repr

/-- The one field of `sockaddr_in` that is used, in network byte order. -/
structure SockaddrIn where
  sinPort : UInt16
  deriving DecidableEq, Repr

def swap16 (w : UInt16) : UInt16 := UInt16.ofNat (w.toNat / 256 + 256 * (w.toNat % 256))

/-- `htons` of an `int`: the value is cut to 16 bits first. -/
def htons (n : Nat) : UInt16 := swap16 (UInt16.ofNat n)

def ntohs (w : UInt16) : Nat := (swap16 w).toNat

private theorem swap16_swap16 (w : UInt16) : swap16 (swap16 w) = w := by
  have hw : w.toNat < 65536 := w.toNat_lt
  have hs : (swap16 w).toNat = w.toNat / 256 + 256 * (w.toNat % 256) := by
    rw [swap16, UInt16.toNat_ofNat']
    omega
  have hlo : (w.toNat / 256 + 256 * (w.toNat % 256)) % 256 = w.toNat / 256 := by
    rw [Nat.add_mul_mod_self_left, Nat.mod_eq_of_lt (by omega)]
  have hhi : (w.toNat / 256 + 256 * (w.toNat % 256)) / 256 = w.toNat % 256 := by
    rw [Nat.add_mul_div_left _ _ (by decide)]
    omega
  apply UInt16.toNat_inj.mp
  rw [swap16, UInt16.toNat_ofNat', hs, hlo, hhi]
  omega

theorem ntohs_htons (n : Nat) : ntohs (htons n) = n % 65536 := by
  rw [ntohs, htons, swap16_swap16, UInt16.toNat_ofNat']

abbrev SessionPtr := Nat

structure DeviceSession where
  deviceId : UInt8
  vhciPort : Int
  vhciFd : Fd
  kernelFd : Fd
  devAddr : SockaddrIn
  tcpSock : Option TcpSocket
  handler : Option PassthroughHandler
  deriving DecidableEq, Repr

def DeviceSession.make (deviceId : UInt8) (vhciPort : Int) (vhciFd kernelFd : Fd) (devAddr : SockaddrIn)
    (tcpSock : Option TcpSocket) : DeviceSession where
  deviceId := deviceId
  vhciPort := vhciPort
  vhciFd := vhciFd
  kernelFd := kernelFd
  devAddr := devAddr
  tcpSock := tcpSock
  handler := tcpSock.map fun sock => ⟨vhciFd, sock.fd, deviceId, 0⟩

structure HubServer where
  udpFd : Fd
  tcpServerFd : Fd
  sessions : UInt8 → Option SessionPtr
  vhciFdMap : Fd → Option SessionPtr
  tcpFdMap : Fd → Option SessionPtr
  pendingTcpSocks : Fd → Option TcpSocket
  heap : SessionPtr → Option DeviceSession
  nextPtr : SessionPtr

/-- The daemon process: the hub, the port table and the operating system under them. -/
structure Daemon where
  hub : HubServer
  vhci : VhciDriver
  os : Os

namespace HubServer

def empty (udpFd tcpServerFd : Fd) : HubServer where
  udpFd := udpFd
  tcpServerFd := tcpServerFd
  sessions _ := none
  vhciFdMap _ := none
  tcpFdMap _ := none
  pendingTcpSocks _ := none
  heap _ := none
  nextPtr := 0

def findByDeviceId (hub : HubServer) (deviceId : UInt8) : Option SessionPtr := hub.sessions deviceId
def findByVhciFd (hub : HubServer) (vhciFd : Fd) : Option SessionPtr := hub.vhciFdMap vhciFd
def findByTcpFd (hub : HubServer) (tcpFd : Fd) : Option SessionPtr := hub.tcpFdMap tcpFd

def extractPendingSocket (hub : HubServer) (fd : Fd) : Option (TcpSocket × HubServer) :=
  match hub.pendingTcpSocks fd with
  | none => none
  | some sock => some (sock, { hub with pendingTcpSocks := update hub.pendingTcpSocks fd none })

def addSession (hub : HubServer) (s : DeviceSession) : HubServer :=
  { hub with
    heap := update hub.heap hub.nextPtr (some s)
    nextPtr := hub.nextPtr + 1
    tcpFdMap := match s.tcpSock with
      | some sock => update hub.tcpFdMap sock.fd (some hub.nextPtr)
      | none => hub.tcpFdMap
    vhciFdMap := update hub.vhciFdMap s.vhciFd (some hub.nextPtr)
    sessions := update hub.sessions s.deviceId (some hub.nextPtr) }

/-- Drop the session at `p` from the maps and the heap. -/
def dropSession (hub : HubServer) (deviceId : UInt8) (p : SessionPtr) (s : DeviceSession) : HubServer :=
  { hub with
    vhciFdMap := update hub.vhciFdMap s.vhciFd none
    tcpFdMap := match s.tcpSock with
      | some sock => update hub.tcpFdMap sock.fd none
      | none => hub.tcpFdMap
    sessions := update hub.sessions deviceId none
    heap := update hub.heap p none }

section Heap

variable {hub : HubServer} {p q : SessionPtr} {s r : DeviceSession}

theorem heap_of_dropSession {d : UInt8} (hq : (hub.dropSession d p s).heap q = some r) :
    q ≠ p ∧ hub.heap q = some r := by
  by_cases hqp : q = p
  · simp [dropSession, hqp] at hq
  · exact ⟨hqp, by simpa [dropSession, hqp] using hq⟩

theorem heap_of_addSession (hq : (hub.addSession s).heap q = some r) :
    (q = hub.nextPtr ∧ r = s) ∨ (q ≠ hub.nextPtr ∧ hub.heap q = some r) := by
  by_cases hqn : q = hub.nextPtr
  · exact .inl ⟨hqn, by simpa [addSession, hqn, eq_comm] using hq⟩
  · exact .inr ⟨hqn, by simpa [addSession, hqn] using hq⟩

theorem heap_of_update (hq : update hub.heap p (some s) q = some r) :
    (q = p ∧ r = s) ∨ (q ≠ p ∧ hub.heap q = some r) := by
  by_cases hqp : q = p
  · exact .inl ⟨hqp, by simpa [hqp, eq_comm] using hq⟩
  · exact .inr ⟨hqp, by simpa [hqp] using hq⟩

end Heap

end HubServer

namespace Daemon

def emit (st : Daemon) (e : Effect) : Daemon := { st with os := st.os.emit e }
def close (st : Daemon) (fd : Fd) : Daemon := { st with os := st.os.close fd }

def sessionFds (s : DeviceSession) : List Fd :=
  [s.vhciFd, s.kernelFd] ++ (s.tcpSock.map TcpSocket.fd).toList

def removeSession (st : Daemon) (deviceId : UInt8) : Daemon :=
  match st.hub.sessions deviceId with
  | none => st
  | some p => match st.hub.heap p with
    | none => st
    | some s =>
        { st with hub := st.hub.dropSession deviceId p s, os := st.os.closeAll (sessionFds s) }

def deviceIdAt (st : Daemon) (p : SessionPtr) (sys : Syscalls) : UInt8 :=
  match st.hub.heap p with
  | some s => s.deviceId
  | none => sys.staleDevice

def onTcpAccept (st : Daemon) (sys : Syscalls) : Daemon :=
  match st.os.accept4 true sys.accept with
  | none => st
  | some (fd, os) =>
      { st with
        os := os
        hub := { st.hub with
          pendingTcpSocks := update st.hub.pendingTcpSocks fd (some ⟨fd⟩) } }

/-- Answer `DISCOVER`; every other datagram is dropped. -/
def onUdpReadable (st : Daemon) (sys : Syscalls) : Daemon :=
  match sys.recvFrom with
  | none => st
  | some bytes =>
      if bytes.length < Header.size then st
      else if (Header.decode bytes).cmdType = CmdType.discover.toByte then
        st.emit (.udpSend (Header.encode ⟨CmdType.discoverReply.toByte, 0, 0, 0, 2⟩
          ++ discoverReplyPayload))
      else st

/-- Read one packet from the socket behind `fd`, if the hub knows one. A pointer to a freed
session yields a socket of unknown contents. -/
def readTcpPacket (st : Daemon) (fd : Fd) : TcpRead × List Recv :=
  match st.hub.pendingTcpSocks fd with
  | some _ => readPacket (st.os.rx fd)
  | none => match st.hub.tcpFdMap fd with
    | none => (.failed, st.os.rx fd)
    | some p => match st.hub.heap p with
      | none => readPacket (st.os.rx fd)
      | some s => match s.tcpSock with
        | none => (.failed, st.os.rx fd)
        | some _ => readPacket (st.os.rx fd)

end Daemon
end WirelessHub
