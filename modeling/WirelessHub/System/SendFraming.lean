import Mathlib.Data.List.TakeDrop
import WirelessHub.Daemon.PassthroughHandler
import WirelessHub.Firmware.Events
import WirelessHub.Firmware.LogForwarder

/-!
# The senders of frames

Three places put frames on a TCP connection, and each treats a `send` that fails or takes a
part in its own way. `send_device_event` closes the connection on anything but a whole packet,
so that nothing follows a part of one. `log_sender_task` does so on an error only, and
`sendRawDataPacket` never: on their connections a frame may stand behind a part of another.
-/

namespace WirelessHub.System

open Framework Firmware

section Events

/-- A `send` of `send_device_event`, with the number of its connection. -/
structure Report where
  conn : Nat
  piece : Piece UInt8

/-- The `send` of a step, where `c` is the number of the last connection. -/
def reportOf (c : Nat) (e : Esp) : EspInput → Option Report
  | .sendDeviceEvent d event a => (e.sessions d).bind fun s =>
      if (e.ensureEventTcpConnected a).online then
        some
          { conn := if e.online then c else c + 1
            piece := ⟨s.eventPacket event, (s.eventPacket event).take (a.sent.getD 0),
              List.take_prefix _ _⟩ }
      else none
  | _ => none

def reports : Nat → Esp → List EspInput → List Report
  | _, _, [] => []
  | c, e, i :: is => match reportOf c e i with
    | none => reports c (e.step i) is
    | some r => r :: reports r.conn (e.step i) is

def reportsOn (e : Esp) (is : List EspInput) (c : Nat) : List (Piece UInt8) :=
  ((reports 0 e is).filter fun r => r.conn = c).map Report.piece

private theorem dropEvent_spec (e : Esp) :
    e.dropEvent.online = false ∧ e.dropEvent.trace = e.trace := by
  unfold Esp.dropEvent
  split
  · exact ⟨Bool.and_false _, rfl⟩
  · exact ⟨rfl, rfl⟩

/-- A step either sends no report and does not bring the device online, or it sends one, on
the connection that is up or on a new one, and leaves the connection up only if the whole
packet was taken. -/
theorem step_report (c : Nat) (e : Esp) (i : EspInput) :
    (reportOf c e i = none ∧ ((e.step i).online = true → e.online = true)) ∨
    ∃ r d, reportOf c e i = some r ∧ r.conn = (if e.online then c else c + 1) ∧
      (e.step i).trace = e.trace ++ [(d, .eventSend r.piece.taken)] ∧
      ((e.step i).online = true → r.piece.taken = r.piece.whole) := by
  cases i with
  | sendDeviceEvent d event a =>
    cases hs : e.sessions d with
    | none =>
      apply Or.inl
      simp only [reportOf, Esp.step, Esp.sendDeviceEvent, hs]
      exact ⟨rfl, id⟩
    | some s =>
      have hstep : e.step (.sendDeviceEvent d event a) = e.sendDeviceEvent d event a := rfl
      have htrace := (e.ensureEventTcpConnected_spec a).2.1
      simp only [Esp.sendDeviceEvent, hs] at hstep
      simp only [reportOf, hs, Option.bind_some]
      generalize e.ensureEventTcpConnected a = m at hstep htrace
      cases ho : m.online with
      | false =>
        rw [if_neg (show ¬(m.eventSock.isSome && m.eventConnected) = true by
          simpa [Esp.online] using ho)] at hstep
        rw [hstep, ho]
        exact .inl ⟨rfl, fun h => Bool.noConfusion h⟩
      | true =>
        rw [if_pos (show (m.eventSock.isSome && m.eventConnected) = true from ho)] at hstep
        refine .inr ⟨_, d, rfl, rfl, ?_, ?_⟩
        · rw [hstep]
          split
          · exact congrArg (· ++ _) htrace
          · rw [(dropEvent_spec _).2]
            exact congrArg (· ++ _) htrace
        · intro hon
          rw [hstep] at hon
          split at hon
          · rename_i hsent
            change (s.eventPacket event).take (a.sent.getD 0) = s.eventPacket event
            rw [hsent]
            exact List.take_length
          · rw [(dropEvent_spec _).1] at hon
            cases hon
  | openReply | closeReply | receive | forward | udpArrives | tcpArrives =>
    apply Or.inl
    refine ⟨rfl, fun h => ?_⟩
    rwa [Esp.step_online rfl] at h

private theorem reports_conn (c : Nat) (e : Esp) (is : List EspInput) :
    ∀ r ∈ reports c e is, c ≤ r.conn ∧ (r.conn = c → e.online = true) := by
  induction is generalizing c e with
  | nil =>
    intro r hr
    cases hr
  | cons i is ih =>
    intro r hr
    cases step_report c e i with
    | inl hnone =>
      simp only [reports, hnone.1] at hr
      have hlater := ih c (e.step i) r hr
      exact ⟨hlater.1, fun hc => hnone.2 (hlater.2 hc)⟩
    | inr hsome =>
      obtain ⟨r₀, d, hr₀, hconn, -⟩ := hsome
      have hfirst : c ≤ r₀.conn ∧ (r₀.conn = c → e.online = true) := by
        cases ho : e.online with
        | true => simp [hconn, ho]
        | false => simp [hconn, ho]
      simp only [reports, hr₀, List.mem_cons] at hr
      cases hr with
      | inl heq =>
        rw [heq]
        exact hfirst
      | inr hmem =>
        have hlater := ih r₀.conn (e.step i) r hmem
        constructor
        · omega
        · intro hc
          exact hfirst.2 (by omega)

private theorem reports_pairwise (c : Nat) (e : Esp) (is : List EspInput) :
    (reports c e is).Pairwise fun r r' => r.conn = r'.conn → r.piece.taken = r.piece.whole := by
  induction is generalizing c e with
  | nil => exact .nil
  | cons i is ih =>
    cases step_report c e i with
    | inl hnone =>
      simp only [reports, hnone.1]
      exact ih c (e.step i)
    | inr hsome =>
      obtain ⟨r, d, hr, -, -, hup⟩ := hsome
      simp only [reports, hr]
      constructor
      · intro r' hr' hconn
        exact hup ((reports_conn r.conn (e.step i) is r' hr').2 hconn.symm)
      · exact ih r.conn (e.step i)

private theorem reportsOn_framed (e : Esp) (is : List EspInput) (c : Nat) : Framed
    (reportsOn e is c) := by
  rw [Framed, reportsOn, List.pairwise_map]
  apply ((reports_pairwise 0 e is).filter _).imp_of_mem
  intro r r' hr hr' hwhole _ hcut
  have hc : r.conn = c := by simpa using (List.mem_filter.mp hr).2
  have hc' : r'.conn = c := by simpa using (List.mem_filter.mp hr').2
  exact absurd (hwhole (hc.trans hc'.symm)) hcut

end Events

section Log

/-- The `send` took a part of the packet. -/
def ShortSend (x : LogSend) : Prop := ∃ n, x.sent = some n ∧ 0 < n ∧ n < x.frame.pkt.length

/-- The `send` failed or took nothing. -/
def NoSend (x : LogSend) : Prop := x.sent = none ∨ x.sent = some 0

private theorem pkt_ne_nil (frame : LogFrame) : frame.pkt ≠ [] := by
  rw [frame.built]
  exact List.cons_ne_nil _ _

private theorem shortSend_iff (x : LogSend) :
    ShortSend x ↔ x.piece.taken ≠ [] ∧ x.piece.taken ≠ x.piece.whole := by
  have hpkt := pkt_ne_nil x.frame
  simp only [ShortSend, LogSend.piece]
  cases x.sent with
  | none => simp
  | some n => simp [List.take_eq_self_iff, hpkt, Nat.pos_iff_ne_zero]

private theorem noSend_iff (x : LogSend) : NoSend x ↔ x.piece.taken = [] := by
  have hpkt := pkt_ne_nil x.frame
  simp only [NoSend, LogSend.piece]
  cases x.sent with
  | none => simp
  | some n => simp [hpkt]

end Log

section RawData

/-- A call of `sendRawDataPacket` and the results of its `send` calls. -/
structure RawSend where
  handler : PassthroughHandler
  data : List UInt8
  sends : List IoResult

namespace RawSend

variable (x : RawSend)

def header : List UInt8 := (x.handler.rawDataHeader x.data.length).encode

def body : List UInt8 := x.data.take (actualLen x.data.length)

/-- How much of the packet the results of `send` let through before one that fails or never
returns, if there is one: inside the header, or behind it with the results that are left. -/
def failedAt : Option Nat :=
  (stopsAt sendVerdict x.sends x.header.length).or
    ((stopsAt sendVerdict (unused sendVerdict x.sends x.header.length) x.body.length).map
      (x.header.length + ·))

def packet : List UInt8 := x.header ++ x.body

def bytes : List UInt8 := (x.handler.sendRawDataPacket x.sends x.data).bytes

private theorem bytes_cases : (x.failedAt = none ∧ x.bytes = x.packet) ∨
    ∃ n, x.failedAt = some n ∧ x.bytes <+: x.packet ∧ x.bytes.length = n ∧ n < x.packet.length := by
  have hlen : x.packet.length = x.header.length + x.body.length := List.length_append
  cases hhead : stopsAt sendVerdict x.sends x.header.length with
  | some n =>
    obtain ⟨hresult, htaken, hlt⟩ := transferAll_of_stopsAt_some hhead
    have hbytes : x.bytes = (sendExactly x.sends x.header).taken := by
      rw [bytes, PassthroughHandler.sendRawDataPacket]
      exact congrArg Sent.bytes (if_neg hresult)
    have hleads : (sendExactly x.sends x.header).taken <+: x.header := transferAll_taken_leads _ _
    refine .inr ⟨n, by rw [failedAt, hhead]; rfl, ?_, by rw [hbytes]; exact htaken, by omega⟩
    rw [hbytes]
    exact hleads.trans (List.prefix_append _ _)
  | none =>
    obtain ⟨hresult, htaken⟩ := transferAll_of_stopsAt_none hhead
    have hbytes : x.bytes = x.header ++
        (sendExactly (unused sendVerdict x.sends x.header.length) x.body).taken := by
      rw [bytes, PassthroughHandler.sendRawDataPacket]
      refine (congrArg Sent.bytes (if_pos hresult)).trans ?_
      change (transferAll sendVerdict x.sends x.header).taken ++
        (sendExactly (transferAll sendVerdict x.sends x.header).rest x.body).taken = _
      rw [htaken, transferAll_rest]
    cases hbody : stopsAt sendVerdict (unused sendVerdict x.sends x.header.length) x.body.length with
    | none =>
      refine .inl ⟨by simp [failedAt, hhead, hbody], ?_⟩
      rw [hbytes]
      exact congrArg _ (transferAll_of_stopsAt_none hbody).2
    | some n =>
      obtain ⟨-, hpart, hlt⟩ := transferAll_of_stopsAt_some hbody
      have hleads : (sendExactly (unused sendVerdict x.sends x.header.length) x.body).taken <+:
          x.body := transferAll_taken_leads _ _
      refine .inr ⟨x.header.length + n, by simp [failedAt, hhead, hbody], ?_, ?_, by omega⟩
      · rw [hbytes]
        exact (List.prefix_append_right_inj _).mpr hleads
      · rw [hbytes, List.length_append]
        exact congrArg _ hpart

def piece : Piece UInt8 where
  whole := x.packet
  taken := x.bytes
  leads := by
    cases x.bytes_cases with
    | inl h => exact ⟨[], by rw [List.append_nil, h.2]⟩
    | inr h =>
      obtain ⟨n, -, hleads, -⟩ := h
      exact hleads

/-- A `send` failed inside the packet, or has not returned there. -/
def Cut : Prop := ∃ n, x.failedAt = some n ∧ 0 < n

def Unsent : Prop := x.failedAt = some 0

private theorem packet_ne_nil : x.packet ≠ [] := List.cons_ne_nil _ _

private theorem cut_iff : x.Cut ↔ x.piece.taken ≠ [] ∧ x.piece.taken ≠ x.piece.whole := by
  change _ ↔ x.bytes ≠ [] ∧ x.bytes ≠ x.packet
  rw [Cut]
  cases x.bytes_cases with
  | inl h => simp [h]
  | inr h =>
    obtain ⟨n, hfailed, -, hlen, hlt⟩ := h
    have hne : x.bytes ≠ x.packet := by
      intro heq
      rw [heq] at hlen
      omega
    rw [hfailed, ← List.length_pos_iff, hlen]
    simp [hne]

private theorem unsent_iff : x.Unsent ↔ x.piece.taken = [] := by
  change _ ↔ x.bytes = []
  rw [Unsent]
  cases x.bytes_cases with
  | inl h => simp [h, x.packet_ne_nil]
  | inr h =>
    obtain ⟨n, hfailed, -, hlen, -⟩ := h
    rw [hfailed, ← List.length_eq_zero_iff, hlen, Option.some.injEq]

end RawSend

end RawData

/-- What stands on a connection is a row of frames, with nothing behind a part of one. -/
def KeepsFraming (ps : List (Piece UInt8)) : Prop := IsRow ps ∧ Framed ps

private theorem keepsFraming_iff (ps : List (Piece UInt8)) : KeepsFraming ps ↔ Framed ps :=
  ⟨fun h => h.2, fun h => ⟨h.isRow, h⟩⟩

/-- What `send_device_event` sends are its reports, and their connections always keep their
framing. On a connection of `log_sender_task` nothing follows a `send` that failed; it keeps
its framing exactly if nothing is taken after a `send` that took a part. One on which
`sendRawDataPacket` is called does so exactly if nothing is taken after a call in which a
`send` failed inside the packet. -/
theorem senders_keep_framing_iff (e : Esp) (is : List EspInput) (c : Nat) {ls : List LogInput}
    {s : LogForwarder} (hr : run LogForwarder.step .init ls = .ok s) (calls : List RawSend) :
    (∀ i r, reportOf c e i = some r →
      ∃ d, (e.step i).trace = e.trace ++ [(d, .eventSend r.piece.taken)]) ∧
    KeepsFraming (reportsOn e is c) ∧
    (s.sendsOn c).Pairwise (fun x _ => x.sent ≠ none) ∧
    (KeepsFraming ((s.sendsOn c).map LogSend.piece) ↔
      (s.sendsOn c).Pairwise fun x y => ShortSend x → NoSend y) ∧
    (KeepsFraming (calls.map RawSend.piece) ↔ calls.Pairwise fun x y => x.Cut → y.Unsent) := by
  refine ⟨?_, ?_, ?_, ?_, ?_⟩
  · intro i r hi
    cases step_report c e i with
    | inl hnone =>
      rw [hnone.1] at hi
      cases hi
    | inr hsome =>
      obtain ⟨r', d, hr', -, htrace, -⟩ := hsome
      rw [hr', Option.some.injEq] at hi
      exact ⟨d, hi ▸ htrace⟩
  · rw [keepsFraming_iff]
    exact reportsOn_framed e is c
  · exact (LogForwarder.run_closing hr).failed_last c
  · rw [keepsFraming_iff]
    exact framed_map_iff shortSend_iff noSend_iff _
  · rw [keepsFraming_iff]
    exact framed_map_iff RawSend.cut_iff RawSend.unsent_iff calls

/-- Two lines are logged; `send` takes three bytes of the packet of the first one, and `sent`
is its result for the other. -/
def shortRun (sent : Option Nat) : List LogInput :=
  [.call [0x45, 0x0A] true, .call [0x49] true, .fill 0, .fill 1, .enqueue 0, .enqueue 0,
    .sender {}, .sender {}, .sender {}, .sender {}, .sender { sent := some 3 },
    .sender {}, .sender {}, .sender {}, .sender { sent := sent }]

/-- A call whose second `send` fails after one byte of the data. -/
def cutCall : RawSend := ⟨⟨7, 5, 0, 0⟩, [1, 2], [.count 6, .count 1, .error]⟩

theorem senders_keep_framing_after_cut :
    (∃ s, run LogForwarder.step .init (shortRun none) = .ok s ∧
      KeepsFraming ((s.sendsOn 0).map LogSend.piece)) ∧
    KeepsFraming ([cutCall, ⟨⟨7, 5, 0, 1⟩, [3], [.error]⟩].map RawSend.piece) := by
  obtain ⟨s, hr, x, y, hsends, hy⟩ : ∃ s, run LogForwarder.step .init (shortRun none) = .ok s ∧
      ∃ x y, s.sendsOn 0 = [x, y] ∧ y.sent = none := ⟨_, rfl, _, _, rfl, rfl⟩
  obtain ⟨-, -, -, hlog, hraw⟩ := senders_keep_framing_iff (.boot fun _ => none) [] 0 hr
    [cutCall, ⟨⟨7, 5, 0, 1⟩, [3], [.error]⟩]
  constructor
  · refine ⟨s, hr, hlog.mpr ?_⟩
    rw [hsends, List.pairwise_pair]
    exact fun _ => .inl hy
  · rw [hraw, List.pairwise_pair]
    exact fun _ => rfl

/-- The second packet follows three bytes of the first one, and seven bytes of a packet of eight
are followed by the next packet. -/
theorem frame_behind_part :
    (∃ s, run LogForwarder.step .init (shortRun (some 8)) = .ok s ∧
      s.written 0 = [0x50, 0, 0] ++ [0x50, 0, 0, 0, 2, 0, 3, 0x49] ∧
      ¬KeepsFraming ((s.sendsOn 0).map LogSend.piece)) ∧
    stream ([cutCall, ⟨⟨7, 5, 0, 1⟩, [3], []⟩].map RawSend.piece) =
      [0x30, 0, 0, 0, 2, 0, 1] ++ [0x30, 0, 0, 1, 1, 0, 3] ∧
    ¬KeepsFraming ([cutCall, ⟨⟨7, 5, 0, 1⟩, [3], []⟩].map RawSend.piece) := by
  have hbroken : ∀ p q : Piece UInt8, p.taken ≠ [] → p.taken ≠ p.whole → q.taken ≠ [] →
      ¬KeepsFraming [p, q] := by
    intro p q hsome hpart hq h
    exact hq (List.pairwise_pair.mp h.2 hsome hpart)
  refine ⟨⟨_, rfl, rfl, ?_⟩, rfl, ?_⟩
  · exact hbroken _ _ (by decide) (by decide) (by decide)
  · exact hbroken _ _ (by decide) (by decide) (by decide)

end WirelessHub.System
