import WirelessHub.Firmware.Wiring
import WirelessHub.Framework.Run

/-!
# What the sessions read

`session_down_task` receives from reply sockets, which are UDP sockets. So the sessions do
the same whether or not bytes arrive on TCP connections: such arrivals can be left out of
any run without a change to what the firmware does.
-/

namespace WirelessHub.Firmware

open Function Framework

def Socket.erase : Socket → Socket
  | .udp port rx => .udp port rx
  | .tcp _ => .tcp []

namespace Esp

variable {e : Esp} {d : UInt8} {fd : Nat}

def erase (e : Esp) : Esp := { e with sockets := fun fd => (e.sockets fd).map Socket.erase }

private theorem erase_sockets_eq_none : e.erase.sockets fd = none ↔ e.sockets fd = none := by
  simp [erase]

private theorem erase_update (e : Esp) (fd : Nat) (sock : Option Socket) :
    ({ e with sockets := update e.sockets fd sock } : Esp).erase =
      { e.erase with sockets := update e.erase.sockets fd (sock.map Socket.erase) } := by
  simp only [erase, mk.injEq, and_self, and_true]
  exact comp_update (Option.map Socket.erase) e.sockets fd sock

private theorem erase_openSocket (answer : Option Nat) {sock : Socket} (hsock : sock.erase = sock) :
    e.erase.openSocket answer sock = (e.openSocket answer sock).map fun r => (r.1, r.2.erase) := by
  cases answer with
  | none => rfl
  | some fd =>
    simp only [openSocket, erase_sockets_eq_none]
    split
    · rw [Option.map_some, erase_update, Option.map_some, hsock]
    · rfl

private theorem erase_openReply (ip : UInt32) (socket : Option Nat) (bind setsockopt : Bool) :
    (e.openReply d ip socket bind setsockopt).erase =
      e.erase.openReply d ip socket bind setsockopt := by
  cases hs : e.sessions d with
  | none => simp only [openReply, hs, show e.erase.sessions d = none from hs]
  | some s =>
    have hopen := erase_openSocket (e := e.setSession d { s with daemonIp := ip }) socket
      (show (Socket.udp (deviceBasePort + d.toUInt16) []).erase = _ from rfl)
    simp only [openReply, hs, show e.erase.sessions d = some s from hs,
      show e.erase.setSession d { s with daemonIp := ip } =
        (e.setSession d { s with daemonIp := ip }).erase from rfl, hopen]
    cases (e.setSession d { s with daemonIp := ip }).openSocket socket _ with
    | none => rfl
    | some r => cases bind && setsockopt <;> rfl

private theorem erase_close (e : Esp) (fd : Nat) : (e.close fd).erase = e.erase.close fd := erase_update e fd none

private theorem erase_closeReply : (e.closeReply d).erase = e.erase.closeReply d := by
  cases hs : e.sessions d with
  | none => simp only [closeReply, hs, show e.erase.sessions d = none from hs]
  | some s =>
    cases hfd : s.sock with
    | none => simp only [closeReply, hs, hfd, show e.erase.sessions d = some s from hs]
    | some fd =>
      simp only [closeReply, hs, hfd, show e.erase.sessions d = some s from hs, erase_close]
      rfl

private theorem erase_dropEvent : e.dropEvent.erase = e.erase.dropEvent := by
  cases hev : e.eventSock with
  | none =>
    simp only [dropEvent, hev, show e.erase.eventSock = none from hev]
    rfl
  | some fd =>
    have hclose := erase_close e fd
    simp only [dropEvent, hev, show e.erase.eventSock = some fd from hev, ← hclose]
    rfl

private theorem erase_ensureEventTcpConnected (a : EventAnswers) :
    (e.ensureEventTcpConnected a).erase = e.erase.ensureEventTcpConnected a := by
  have hopen := erase_openSocket (e := e.dropEvent) a.socket (show (Socket.tcp []).erase = _ from rfl)
  rw [erase_dropEvent] at hopen
  cases hcond : e.eventSock.isSome && e.eventConnected with
  | true =>
    simp only [ensureEventTcpConnected, hcond, if_true,
      show (e.erase.eventSock.isSome && e.erase.eventConnected) = true from hcond]
  | false =>
    simp only [ensureEventTcpConnected, hcond, hopen, Bool.false_eq_true, if_false,
      show (e.erase.eventSock.isSome && e.erase.eventConnected) = false from hcond]
    cases e.dropEvent.openSocket a.socket (.tcp []) with
    | none => exact erase_dropEvent
    | some r =>
      cases a.connect
      · exact erase_dropEvent
      · rfl

private theorem erase_sendDeviceEvent (event : DeviceEvent) (a : EventAnswers) :
    (e.sendDeviceEvent d event a).erase = e.erase.sendDeviceEvent d event a := by
  have hensure := erase_ensureEventTcpConnected (e := e) a
  cases hs : e.sessions d with
  | none => simp only [sendDeviceEvent, hs, show e.erase.sessions d = none from hs]
  | some s =>
    simp only [sendDeviceEvent, hs, show e.erase.sessions d = some s from hs, ← hensure]
    generalize e.ensureEventTcpConnected a = f
    cases hcond : f.eventSock.isSome && f.eventConnected with
    | true =>
      simp only [if_true, show (f.erase.eventSock.isSome && f.erase.eventConnected) = true from hcond]
      split
      · rfl
      · exact erase_dropEvent
    | false =>
      simp only [Bool.false_eq_true, if_false,
        show (f.erase.eventSock.isSome && f.erase.eventConnected) = false from hcond]

private theorem erase_recvFrom (hudp : e.kind fd = some true) :
    e.erase.recvFrom fd = (e.recvFrom fd).map fun r => (r.1, r.2.erase) := by
  obtain ⟨sock, hsock, hk⟩ := Option.map_eq_some_iff.mp hudp
  cases sock with
  | tcp rx => cases hk
  | udp port rx =>
    have hsock' : e.erase.sockets fd = some (.udp port rx) := by
      simp only [erase, hsock]
      rfl
    cases rx with
    | nil => simp only [recvFrom, hsock, hsock', Option.map_none]
    | cons dgram rx =>
      have hupdate := erase_update e fd (some (.udp port rx))
      simp only [recvFrom, hsock, hsock', Option.map_some, hupdate]
      rfl

private theorem erase_receive (h : Wired e) (a : Answers) :
    (e.receive d a).erase = e.erase.receive d a := by
  cases hs : e.sessions d with
  | none => simp only [receive, hs, show e.erase.sessions d = none from hs]
  | some s =>
    cases hfd : s.sock with
    | none => simp only [receive, hs, hfd, show e.erase.sessions d = some s from hs]
    | some fd =>
      have hreply : e.replySock d = some fd := by
        rw [replySock, hs]
        exact hfd
      have hrecv := erase_recvFrom (h.reply d fd hreply)
      simp only [receive, hs, hfd, show e.erase.sessions d = some s from hs, hrecv]
      cases e.recvFrom fd <;> rfl

private theorem erase_forward (frame : List UInt8) : (e.forward d frame).erase = e.erase.forward d frame := by
  cases hs : e.sessions d with
  | none => simp only [forward, hs, show e.erase.sessions d = none from hs]
  | some s =>
    simp only [forward, hs, show e.erase.sessions d = some s from hs]
    split <;> rfl

private theorem erase_udpArrives (port : UInt16) (bytes : List UInt8) :
    (e.udpArrives port bytes).erase = e.erase.udpArrives port bytes := by
  simp only [udpArrives, erase, mk.injEq, and_self, and_true]
  funext fd
  rcases e.sockets fd with - | (- | -) <;> rfl

private theorem erase_tcpArrives (bytes : List UInt8) :
    (e.tcpArrives fd bytes).erase = e.erase := by
  unfold tcpArrives
  split
  case h_1 rx hsock =>
    rw [erase_update]
    simp only [erase, mk.injEq, and_self, and_true, update_eq_self_iff, hsock]
    rfl
  case h_2 => rfl

end Esp

def EspInput.isTcp : EspInput → Bool
  | .tcpArrives _ _ => true
  | _ => false

namespace Esp

variable {e : Esp}

private theorem erase_step (h : Wired e) {i : EspInput} (hi : i.isTcp = false) :
    (e.step i).erase = e.erase.step i := by
  cases i with
  | openReply d ip socket bind setsockopt => exact erase_openReply ip socket bind setsockopt
  | closeReply d => exact erase_closeReply
  | sendDeviceEvent d event a => exact erase_sendDeviceEvent event a
  | receive d a => exact erase_receive h a
  | forward d frame => exact erase_forward frame
  | udpArrives port bytes => exact erase_udpArrives port bytes
  | tcpArrives fd bytes => cases hi

private theorem erase_step_tcp {i : EspInput} (hi : i.isTcp = true) :
    (e.step i).erase = e.erase := by
  cases i with
  | tcpArrives fd bytes => exact erase_tcpArrives bytes
  | _ => cases hi

/-- Along a run, what arrives on TCP connections can be left out. -/
theorem erase_run (h : Wired e) (is : List EspInput) :
    (is.foldl step e).erase = (is.filter fun i => !i.isTcp).foldl step e.erase :=
  foldl_erase (P := Wired) (fun _ i h => h.step i) (fun _ _ h hi => erase_step h hi)
    (fun _ _ _ hi => erase_step_tcp hi) h is

/-- Bytes that arrive on a TCP connection never change what the firmware does. -/
theorem trace_of_tcpArrives (h : Wired e) (fd : Nat) (bytes : List UInt8) (is : List EspInput) :
    (is.foldl step (e.step (.tcpArrives fd bytes))).trace = (is.foldl step e).trace := by
  change (is.foldl step (e.step (.tcpArrives fd bytes))).erase.trace = (is.foldl step e).erase.trace
  rw [erase_run (h.step _), erase_run h, erase_step_tcp rfl]

end Esp
end WirelessHub.Firmware
