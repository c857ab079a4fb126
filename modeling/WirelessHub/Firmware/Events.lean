import WirelessHub.Firmware.Wiring

/-!
# The device events of the firmware

All sessions report their events on one connection. Only `send_device_event` opens, uses or
drops it, and where the network takes whatever is sent, a report leaves the device online and
hands one whole packet to the connection, or changes nothing that matters for the next one.
-/

namespace WirelessHub.Firmware

open Function

private theorem Session.sendRaw_cfg (s : Session) (data : List UInt8) :
    (s.sendRaw data).1.cfg = s.cfg := by
  unfold sendRaw
  split
  · rfl
  · split
    · rfl
    · dsimp only
      split <;> rfl

private theorem onDatagram_cfg (s : Session) (inBuf bytes : List UInt8) (a : Answers) :
    (onDatagram s inBuf bytes a).session.cfg = s.cfg := by
  simp only [onDatagram, usbHandleSubmit]
  split_ifs <;> first | rfl | exact s.sendRaw_cfg _

/-- A device event as the packet that the daemon reads. -/
def Session.eventFrame (s : Session) (event : DeviceEvent) : Packet where
  header := ⟨CmdType.deviceEvent.toByte, s.cfg.deviceId, 0, s.seq, UInt16.ofNat DeviceEventPayload.size⟩
  payload := DeviceEventPayload.encode
    { deviceId := s.cfg.deviceId
      event := event.toByte
      speed := s.cfg.speed
      usbClass := s.cfg.usbClass
      subclass := s.cfg.subclass
      protocol := s.cfg.protocol
      replyPort := deviceBasePort + s.cfg.deviceId.toUInt16 }
  payload_length := rfl

theorem Session.bytes_eventFrame (s : Session) (event : DeviceEvent) :
    (s.eventFrame event).bytes = s.eventPacket event := rfl

def EspInput.isEvent : EspInput → Bool
  | .sendDeviceEvent _ _ _ => true
  | _ => false

namespace Esp

variable {e e' : Esp} {d : UInt8}

/-- The event connection is up, as far as the device knows. -/
def online (e : Esp) : Bool := e.eventSock.isSome && e.eventConnected

/-- Each session carries the id of the device it stands for. -/
def CfgIds (e : Esp) : Prop := ∀ d s, e.sessions d = some s → s.cfg.deviceId = d

theorem CfgIds.of_sessions (h : CfgIds e) (hs : e'.sessions = e.sessions) : CfgIds e' := by
  intro d s
  rw [hs]
  exact h d s

theorem CfgIds.update {t : Session} (h : CfgIds e)
    (hs : e'.sessions = Function.update e.sessions d (some t)) (ht : t.cfg.deviceId = d) :
    CfgIds e' := by
  intro d' s hs'
  rw [hs] at hs'
  by_cases hd : d' = d
  · subst hd
    rw [Function.update_self, Option.some.injEq] at hs'
    exact hs' ▸ ht
  · exact h d' s (by simpa [hd] using hs')

theorem boot_cfgIds {cfgs : UInt8 → Option SessionCfg}
    (hcfg : ∀ d cfg, cfgs d = some cfg → cfg.deviceId = d) : CfgIds (boot cfgs) := by
  intro d s hs
  simp only [boot, Option.map_eq_some_iff] at hs
  obtain ⟨cfg, hc, rfl⟩ := hs
  exact hcfg d cfg hc

theorem step_online {i : EspInput} (hi : i.isEvent = false) : (e.step i).online = e.online := by
  cases i with
  | sendDeviceEvent => cases hi
  | openReply d ip socket bind setsockopt =>
    simp only [step, openReply]
    split
    case h_1 => rfl
    case h_2 s hs =>
      split
      case h_1 => rfl
      case h_2 fd e' ho =>
        obtain ⟨-, rfl⟩ := openSocket_some ho
        split <;> rfl
  | closeReply d =>
    simp only [step, closeReply]
    repeat' split
    all_goals rfl
  | receive d a =>
    simp only [step, receive]
    repeat' split
    case h_2 bytes e' hrecv =>
      obtain ⟨-, hsock, -, hconn⟩ := recvFrom_some hrecv
      change (e'.eventSock.isSome && e'.eventConnected) = e.online
      rw [hsock, hconn]
      rfl
    all_goals rfl
  | forward d frame =>
    simp only [step, forward]
    repeat' split
    all_goals rfl
  | udpArrives port bytes => rfl
  | tcpArrives fd bytes =>
    simp only [step, tcpArrives]
    split <;> rfl

theorem step_cfgIds {i : EspInput} (h : CfgIds e) (hi : i.isEvent = false) : CfgIds (e.step i) := by
  cases i with
  | sendDeviceEvent => cases hi
  | openReply d ip socket bind setsockopt =>
    simp only [step, openReply]
    split
    case h_1 => exact h
    case h_2 s hs =>
      have hid := h d s hs
      have h' : CfgIds (e.setSession d { s with daemonIp := ip }) := h.update rfl hid
      split
      case h_1 => exact h'
      case h_2 fd e' ho =>
        obtain ⟨-, rfl⟩ := openSocket_some ho
        split
        · exact h'.update rfl hid
        · exact h'
  | closeReply d =>
    simp only [step, closeReply]
    split
    case h_1 => exact h
    case h_2 s hs =>
      split
      · exact h
      · exact h.update rfl (h d s hs)
  | receive d a =>
    simp only [step, receive]
    split
    case h_1 => exact h
    case h_2 s hs =>
      split
      case h_1 => exact h
      case h_2 fd hfd =>
        split
        case h_1 => exact h
        case h_2 bytes e' hrecv =>
          obtain ⟨hsess, -⟩ := recvFrom_some hrecv
          apply (h.of_sessions hsess).update rfl
          rw [onDatagram_cfg]
          exact h d s hs
  | forward d frame =>
    simp only [step, forward]
    split
    case h_1 => exact h
    case h_2 s hs =>
      split
      · exact h
      · exact h.update rfl (by rw [s.sendRaw_cfg]; exact h d s hs)
  | udpArrives port bytes => exact h.of_sessions rfl
  | tcpArrives fd bytes =>
    simp only [step, tcpArrives]
    split
    · exact h.of_sessions rfl
    · exact h

def eventPacketSize : Nat := Header.size + DeviceEventPayload.size

theorem ensureEventTcpConnected_spec (e : Esp) (a : EventAnswers) :
    (e.ensureEventTcpConnected a).sessions = e.sessions ∧
      (e.ensureEventTcpConnected a).trace = e.trace ∧
      (e.online = true → (e.ensureEventTcpConnected a).online = true) := by
  have hdrop : e.dropEvent.sessions = e.sessions ∧ e.dropEvent.trace = e.trace := by
    unfold dropEvent
    split <;> exact ⟨rfl, rfl⟩
  unfold ensureEventTcpConnected
  split
  case isTrue h => exact ⟨rfl, rfl, id⟩
  case isFalse h =>
    refine ⟨?_, ?_, fun ho => absurd ho h⟩ <;> dsimp only <;> split
    · exact hdrop.1
    · rename_i ho
      obtain ⟨-, rfl⟩ := openSocket_some ho
      split
      · exact hdrop.1
      · exact hdrop.1
    · exact hdrop.2
    · rename_i ho
      obtain ⟨-, rfl⟩ := openSocket_some ho
      split
      · exact hdrop.2
      · exact hdrop.2

/-- A report on a network that takes whole packets: one packet of the session goes out and the
device is online, or nothing goes out. A device that was online stays so. -/
theorem sendDeviceEvent_cases (e : Esp) (d : UInt8) (ev : DeviceEvent) (socket : Option Nat)
    (connect : Bool) :
    let e' := e.sendDeviceEvent d ev ⟨socket, connect, some eventPacketSize⟩
    (e'.trace = e.trace ∧ e'.sessions = e.sessions ∧ e'.online = e.online) ∨
    ∃ s, e.sessions d = some s ∧ e'.trace = e.trace ++ [(d, .eventSend (s.eventPacket ev))] ∧
      e'.sessions = update e.sessions d (some { s with seq := s.seq + 1 }) ∧ e'.online = true := by
  intro e'
  have he' : e' = e.sendDeviceEvent d ev ⟨socket, connect, some eventPacketSize⟩ := rfl
  cases hs : e.sessions d with
  | none =>
    simp only [sendDeviceEvent, hs] at he'
    rw [he']
    exact .inl ⟨rfl, rfl, rfl⟩
  | some s =>
    obtain ⟨hsess, htrace, honline⟩ :=
      e.ensureEventTcpConnected_spec ⟨socket, connect, some eventPacketSize⟩
    simp only [sendDeviceEvent, hs] at he'
    generalize e.ensureEventTcpConnected ⟨socket, connect, some eventPacketSize⟩ = m at *
    cases ho : m.online with
    | true =>
      have hsize : some eventPacketSize = some (s.eventPacket ev).length := rfl
      have htake : (s.eventPacket ev).take eventPacketSize = s.eventPacket ev :=
        List.take_of_length_le (Nat.le_refl eventPacketSize)
      rw [if_pos (show (m.eventSock.isSome && m.eventConnected) = true from ho), if_pos hsize,
        Option.getD_some, htake] at he'
      rw [he']
      refine .inr ⟨s, rfl, congrArg (· ++ _) htrace, ?_, ho⟩
      rw [← hsess]
      rfl
    | false =>
      rw [if_neg (show ¬(m.eventSock.isSome && m.eventConnected) = true by
        simpa [online] using ho)] at he'
      have hoff : e.online = false := by
        cases he : e.online with
        | false => rfl
        | true => exact absurd (honline he) (by simp [ho])
      rw [he']
      exact .inl ⟨htrace, hsess, ho.trans hoff.symm⟩

end Esp
end WirelessHub.Firmware
