import WirelessHub.Firmware.Esp
import WirelessHub.Firmware.Replies

/-!
# Which socket a session reads

The reply socket of a session is a UDP socket of its own and the shared event connection is
a TCP socket, in every state the firmware reaches: no session reads the socket of another
one or the event connection.
-/

namespace WirelessHub.Firmware

open Function

def Socket.isUdp : Socket → Bool
  | .udp _ _ => true
  | .tcp _ => false

namespace Esp

variable {e e' : Esp} {d : UInt8} {fd : Nat}

def kind (e : Esp) (fd : Nat) : Option Bool := (e.sockets fd).map Socket.isUdp

def replySock (e : Esp) (d : UInt8) : Option Nat := (e.sessions d).bind Session.sock

/-- Reply sockets are UDP sockets, one for each session; the event socket is a TCP socket. -/
structure Wired (e : Esp) : Prop where
  reply : ∀ d fd, e.replySock d = some fd → e.kind fd = some true
  event : ∀ fd, e.eventSock = some fd → e.kind fd = some false
  distinct : ∀ d₁ d₂ fd, e.replySock d₁ = some fd → e.replySock d₂ = some fd → d₁ = d₂

private theorem Wired.of_eq (h : Wired e) (hr : e'.replySock = e.replySock)
    (he : e'.eventSock = e.eventSock) (hk : e'.kind = e.kind) : Wired e' := by
  refine ⟨fun d fd => ?_, fun fd => ?_, fun d₁ d₂ fd => ?_⟩
  · rw [hr, hk]
    exact h.reply d fd
  · rw [he, hk]
    exact h.event fd
  · rw [hr]
    exact h.distinct d₁ d₂ fd

private theorem replySock_setSession (e : Esp) (d : UInt8) (s : Session) :
    (e.setSession d s).replySock = update e.replySock d s.sock := by
  funext d'
  by_cases hd : d' = d <;> simp [replySock, setSession, hd]

private theorem replySock_setSession_self {s t : Session} (hs : e.sessions d = some s) (ht : t.sock = s.sock) :
    (e.setSession d t).replySock = e.replySock := by
  rw [replySock_setSession, update_eq_self_iff, ht, replySock, hs]
  rfl

private theorem kind_update (e : Esp) (fd : Nat) (sock : Option Socket) :
    ({ e with sockets := update e.sockets fd sock } : Esp).kind =
      update e.kind fd (sock.map Socket.isUdp) := by
  funext fd'
  by_cases hfd : fd' = fd <;> simp [kind, hfd]

theorem openSocket_some {answer : Option Nat} {sock : Socket}
    (h : e.openSocket answer sock = some (fd, e')) : e.kind fd = none ∧
      e' = { e with sockets := update e.sockets fd (some sock) } := by
  cases answer with
  | none => simp [openSocket] at h
  | some fd' =>
    simp only [openSocket, Option.ite_none_right_eq_some, Option.some.injEq, Prod.mk.injEq] at h
    obtain ⟨hfree, rfl, rfl⟩ := h
    exact ⟨by rw [kind, hfree]; rfl, rfl⟩

section Changes

variable (h : Wired e)

include h

private theorem Wired.openUdp (hfree : e.kind fd = none) (hr : e'.replySock = update e.replySock d (some fd))
    (he : e'.eventSock = e.eventSock) (hk : e'.kind = update e.kind fd (some true)) : Wired e' := by
  have hother : ∀ d' fd', d' ≠ d → e'.replySock d' = some fd' → fd' ≠ fd ∧ e.replySock d' = some fd' := by
    intro d' fd' hd hfd'
    rw [hr, update_of_ne hd] at hfd'
    refine ⟨?_, hfd'⟩
    rintro rfl
    exact Option.some_ne_none _ ((h.reply d' fd' hfd').symm.trans hfree)
  have hself : ∀ fd', e'.replySock d = some fd' → fd' = fd := by
    intro fd' hfd'
    rw [hr, update_self] at hfd'
    exact (Option.some.inj hfd').symm
  refine ⟨fun d' fd' hfd' => ?_, fun fd' hfd' => ?_, fun d₁ d₂ fd' h₁ h₂ => ?_⟩
  · by_cases hd : d' = d
    · rw [hd] at hfd'
      rw [hself fd' hfd', hk, update_self]
    · obtain ⟨hne, hold⟩ := hother d' fd' hd hfd'
      rw [hk, update_of_ne hne]
      exact h.reply d' fd' hold
  · rw [he] at hfd'
    have hkind := h.event fd' hfd'
    rw [hk, update_of_ne (by rintro rfl; exact Option.some_ne_none _ (hkind.symm.trans hfree))]
    exact hkind
  · by_cases hd₁ : d₁ = d <;> by_cases hd₂ : d₂ = d
    · rw [hd₁, hd₂]
    · exact absurd (hself fd' (hd₁ ▸ h₁)) (hother d₂ fd' hd₂ h₂).1
    · exact absurd (hself fd' (hd₂ ▸ h₂)) (hother d₁ fd' hd₁ h₁).1
    · exact h.distinct d₁ d₂ fd' (hother d₁ fd' hd₁ h₁).2 (hother d₂ fd' hd₂ h₂).2

private theorem Wired.closeUdp (hfd : e.replySock d = some fd) (hr : e'.replySock = update e.replySock d none)
    (he : e'.eventSock = e.eventSock) (hk : e'.kind = update e.kind fd none) : Wired e' := by
  have hother : ∀ d' fd', e'.replySock d' = some fd' → fd' ≠ fd ∧ e.replySock d' = some fd' := by
    intro d' fd' hfd'
    by_cases hd : d' = d
    · rw [hd, hr, update_self] at hfd'
      exact absurd hfd' (Option.some_ne_none _).symm
    · rw [hr, update_of_ne hd] at hfd'
      refine ⟨?_, hfd'⟩
      rintro rfl
      exact hd (h.distinct d' d fd' hfd' hfd)
  refine ⟨fun d' fd' hfd' => ?_, fun fd' hfd' => ?_, fun d₁ d₂ fd' h₁ h₂ => ?_⟩
  · obtain ⟨hne, hold⟩ := hother d' fd' hfd'
    rw [hk, update_of_ne hne]
    exact h.reply d' fd' hold
  · rw [he] at hfd'
    have hkind := h.event fd' hfd'
    have hne : fd' ≠ fd := by
      rintro rfl
      exact absurd (hkind.symm.trans (h.reply d fd' hfd)) (by decide)
    rw [hk, update_of_ne hne]
    exact hkind
  · exact h.distinct d₁ d₂ fd' (hother d₁ fd' h₁).2 (hother d₂ fd' h₂).2

private theorem Wired.changeTcp {k : Option Bool} (hother : e.kind fd ≠ some true)
    (hr : e'.replySock = e.replySock) (hk : e'.kind = update e.kind fd k)
    (hevent : ∀ fd', e'.eventSock = some fd' → e'.kind fd' = some false) : Wired e' := by
  refine ⟨fun d' fd' hfd' => ?_, hevent, fun d₁ d₂ fd' => ?_⟩
  · rw [hr] at hfd'
    have hkind := h.reply d' fd' hfd'
    have hne : fd' ≠ fd := by
      rintro rfl
      exact hother hkind
    rw [hk, update_of_ne hne]
    exact hkind
  · rw [hr]
    exact h.distinct d₁ d₂ fd'

private theorem Wired.closeTcp (hfd : e.eventSock = some fd) (hr : e'.replySock = e.replySock)
    (he : e'.eventSock = none) (hk : e'.kind = update e.kind fd none) : Wired e' := by
  apply h.changeTcp _ hr hk
  · intro fd' hfd'
    rw [he] at hfd'
    cases hfd'
  · rw [h.event fd hfd]
    decide

private theorem Wired.openTcp (hfree : e.kind fd = none) (hr : e'.replySock = e.replySock)
    (he : e'.eventSock = some fd) (hk : e'.kind = update e.kind fd (some false)) : Wired e' := by
  apply h.changeTcp _ hr hk
  · intro fd' hfd'
    rw [he] at hfd'
    rw [hk, ← Option.some.inj hfd', update_self]
  · rw [hfree]
    exact (Option.some_ne_none _).symm

end Changes

section Steps

private theorem Wired.openReply (h : Wired e) (ip : UInt32) (socket : Option Nat)
    (bind setsockopt : Bool) : Wired (e.openReply d ip socket bind setsockopt) := by
  unfold Esp.openReply
  split
  case h_1 => exact h
  case h_2 s hs =>
    have h' : Wired (e.setSession d { s with daemonIp := ip }) :=
      h.of_eq (replySock_setSession_self hs rfl) rfl rfl
    dsimp only
    split
    case h_1 => exact h'
    case h_2 fd e' ho =>
      obtain ⟨hfree, rfl⟩ := openSocket_some ho
      split
      · refine h'.openUdp hfree (replySock_setSession _ _ _) rfl ?_
        exact kind_update _ _ _
      · exact h'

private theorem Wired.closeReply (h : Wired e) : Wired (e.closeReply d) := by
  unfold Esp.closeReply
  split
  case h_1 => exact h
  case h_2 s hs =>
    split
    case h_1 => exact h
    case h_2 fd hfd =>
      have hreply : e.replySock d = some fd := by
        rw [replySock, hs]
        exact hfd
      exact h.closeUdp hreply (replySock_setSession _ _ _) rfl (kind_update _ _ _)

private theorem Wired.dropEvent (h : Wired e) :
    Wired e.dropEvent ∧ e.dropEvent.sessions = e.sessions := by
  unfold Esp.dropEvent
  split
  case h_1 => exact ⟨h.of_eq rfl rfl rfl, rfl⟩
  case h_2 fd hfd => exact ⟨h.closeTcp hfd rfl rfl (kind_update _ _ _), rfl⟩

private theorem Wired.ensureEventTcpConnected (h : Wired e) (a : EventAnswers) :
    Wired (e.ensureEventTcpConnected a) ∧ (e.ensureEventTcpConnected a).sessions = e.sessions := by
  unfold Esp.ensureEventTcpConnected
  split
  · exact ⟨h, rfl⟩
  · obtain ⟨hdrop, hsess⟩ := h.dropEvent
    dsimp only
    split
    case h_1 => exact ⟨hdrop, hsess⟩
    case h_2 fd e' ho =>
      obtain ⟨hfree, rfl⟩ := openSocket_some ho
      split
      · exact ⟨hdrop.openTcp hfree rfl rfl (kind_update _ _ _), hsess⟩
      · exact ⟨hdrop, hsess⟩

private theorem Wired.sendDeviceEvent (h : Wired e) (event : DeviceEvent) (a : EventAnswers) :
    Wired (e.sendDeviceEvent d event a) := by
  unfold Esp.sendDeviceEvent
  split
  case h_1 => exact h
  case h_2 s hs =>
    obtain ⟨hw, hsess⟩ := h.ensureEventTcpConnected a
    rw [← hsess] at hs
    dsimp only
    split
    · have hw' : Wired (((e.ensureEventTcpConnected a).setSession d { s with seq := s.seq + 1 }).emit d
          [.eventSend ((s.eventPacket event).take (a.sent.getD 0))]) :=
        hw.of_eq (replySock_setSession_self hs rfl) rfl rfl
      split
      · exact hw'
      · exact hw'.dropEvent.1
    · exact hw

theorem recvFrom_some {bytes : List UInt8} (h : e.recvFrom fd = some (bytes, e')) :
    e'.sessions = e.sessions ∧ e'.eventSock = e.eventSock ∧ e'.kind = e.kind ∧
      e'.eventConnected = e.eventConnected := by
  have hkeep : ∀ sock sock', e.sockets fd = some sock → sock'.isUdp = sock.isUdp →
      ({ e with sockets := update e.sockets fd (some sock') } : Esp).kind = e.kind := by
    intro sock sock' hsock hudp
    rw [kind_update, update_eq_self_iff, kind, hsock, Option.map_some, Option.map_some, hudp]
  unfold recvFrom at h
  split at h
  · cases h
  · cases h
  case h_3 port dgram rx hsock =>
    cases h
    exact ⟨rfl, rfl, hkeep _ _ hsock rfl, rfl⟩
  · cases h
  case h_5 b rx hsock =>
    cases h
    exact ⟨rfl, rfl, hkeep _ _ hsock rfl, rfl⟩

private theorem onDatagram_sock (s : Session) (inBuf bytes : List UInt8) (a : Answers) :
    (onDatagram s inBuf bytes a).session.sock = s.sock := by
  simp only [onDatagram]
  split_ifs <;> first | rfl | exact usbHandleSubmit_sock s inBuf _ a

private theorem Wired.receive (h : Wired e) (a : Answers) : Wired (e.receive d a) := by
  unfold Esp.receive
  split
  case h_1 => exact h
  case h_2 s hs =>
    split
    case h_1 => exact h
    case h_2 fd hfd =>
      split
      case h_1 => exact h
      case h_2 bytes e' hrecv =>
        obtain ⟨hsess, hevent, hkind, -⟩ := recvFrom_some hrecv
        have hreply : (e'.setSession d (onDatagram s e'.inBuf bytes a).session).replySock =
            e.replySock := by
          rw [replySock_setSession_self (hsess.symm ▸ hs) (onDatagram_sock s _ bytes a)]
          funext d'
          rw [replySock, replySock, hsess]
        exact h.of_eq hreply hevent hkind

private theorem Wired.forward (h : Wired e) (frame : List UInt8) : Wired (e.forward d frame) := by
  unfold Esp.forward
  split
  case h_1 => exact h
  case h_2 s hs =>
    split
    · exact h
    · exact h.of_eq (replySock_setSession_self hs (s.sendRaw_sock frame)) rfl rfl

private theorem Wired.udpArrives (h : Wired e) (port : UInt16) (bytes : List UInt8) :
    Wired (e.udpArrives port bytes) := by
  refine h.of_eq rfl rfl (funext fun fd => ?_)
  simp only [kind, Esp.udpArrives]
  rcases e.sockets fd with - | (- | -) <;> rfl

private theorem Wired.tcpArrives (h : Wired e) (bytes : List UInt8) : Wired
    (e.tcpArrives fd bytes) := by
  unfold Esp.tcpArrives
  split
  case h_1 rx hsock =>
    refine h.of_eq rfl rfl ?_
    rw [kind_update, update_eq_self_iff, kind, hsock]
    rfl
  case h_2 => exact h

theorem Wired.step (h : Wired e) (i : EspInput) : Wired (e.step i) := by
  cases i with
  | openReply d ip socket bind setsockopt => exact h.openReply ip socket bind setsockopt
  | closeReply d => exact h.closeReply
  | sendDeviceEvent d event a => exact h.sendDeviceEvent event a
  | receive d a => exact h.receive a
  | forward d frame => exact h.forward frame
  | udpArrives port bytes => exact h.udpArrives port bytes
  | tcpArrives fd bytes => exact h.tcpArrives bytes

private theorem boot_wired (cfgs : UInt8 → Option SessionCfg) : Wired (boot cfgs) := by
  have hnone : ∀ d, (boot cfgs).replySock d = none := by
    intro d
    simp only [replySock, boot]
    cases cfgs d <;> rfl
  refine ⟨fun d fd h => ?_, fun fd h => ?_, fun d₁ d₂ fd h => ?_⟩
  · exact absurd ((hnone d).symm.trans h) (Option.some_ne_none _).symm
  · exact absurd h (Option.some_ne_none _).symm
  · exact absurd ((hnone d₁).symm.trans h) (Option.some_ne_none _).symm

/-- In every state that the firmware reaches the sockets are in order. -/
theorem run_wired (cfgs : UInt8 → Option SessionCfg) (is : List EspInput) :
    Wired (is.foldl Esp.step (boot cfgs)) :=
  List.foldlRecOn is Esp.step (boot_wired cfgs) fun _ h i _ => h.step i

end Steps

end Esp
end WirelessHub.Firmware
