import Mathlib.Data.List.Nodup
import WirelessHub.Daemon.EventLoop
import WirelessHub.Firmware.LogForwarder

/-!
# Log lines from the device to the daemon

What the daemon logs for a connection of the log forwarder. If every `send` takes a whole
packet or fails, a connection carries a row of `CMD_LOG` packets, and the daemon logs for them
some of the lines that went through the queue, in their order, each cut to what an entry holds
and without the line ends. A line is never sent a second time.
-/

namespace WirelessHub.System

open Framework Firmware

/-- What the daemon is to log for a line. -/
def asLogged (line : LogLine) : WirelessHub.Effect :=
  .logLine (detectLevel (line.text.take 255)).toByte (Daemon.stripLineEnds (line.text.take 255))

def logFrame (text : List UInt8) : Packet where
  header := ⟨CmdType.log.toByte, 0, 0, 0, UInt16.ofNat (1 + (text.take 255).length)⟩
  payload := (detectLevel (text.take 255)).toByte :: text.take 255
  payload_length := by
    have hle : (text.take 255).length ≤ 255 := List.length_take_le 255 text
    change _ = (UInt16.ofNat _).toNat
    rw [UInt16.toNat_ofNat', Nat.mod_eq_of_lt (by omega), List.length_cons]
    omega

theorem logPacket_renderEntry (text : List UInt8) :
    logPacket (renderEntry text) = (logFrame text).bytes := by
  have hlen : (renderEntry text).len.toNat = (text.take 255).length := by
    change (UInt16.ofNat (if text.length < 256 then text.length else 255)).toNat = _
    rw [UInt16.toNat_ofNat', List.length_take]
    split <;> omega
  have hmsg : (renderEntry text).msg.take (renderEntry text).len.toNat = text.take 255 := by
    rw [hlen]
    exact List.take_length
  rw [logPacket, hmsg, hlen]
  rfl

def handleOn (fd : Fd) (st : Daemon) (x : Packet × Syscalls) : Except Fault Daemon :=
  st.handlePacket fd x.1.header x.1.payload x.2

def emitAll (st : Daemon) (effects : List WirelessHub.Effect) : Daemon :=
  { st with os := { st.os with trace := st.os.trace ++ effects } }

private theorem emitAll_cons (st : Daemon) (e : WirelessHub.Effect) (es : List WirelessHub.Effect) :
    emitAll st (e :: es) = emitAll (st.emit e) es := by
  simp [emitAll, Daemon.emit, Os.emit]

private theorem handleOn_logFrame (fd : Fd) (st : Daemon) (line : LogLine) (sys : Syscalls) :
    handleOn fd st (logFrame line.text, sys) = .ok (st.emit (asLogged line)) := rfl

theorem run_handleOn (fd : Fd) (st : Daemon) (read : List (Packet × Syscalls)) (lines : List LogLine)
    (h : read.map Prod.fst = lines.map fun line => logFrame line.text) :
    run (handleOn fd) st read = .ok (emitAll st (lines.map asLogged)) := by
  induction read generalizing st lines with
  | nil =>
    rw [List.map_nil, eq_comm, List.map_eq_nil_iff] at h
    rw [h, run_nil, List.map_nil, emitAll, List.append_nil]
  | cons x read ih =>
    cases lines with
    | nil => cases h
    | cons line lines =>
      rw [List.map_cons, List.map_cons, List.cons.injEq] at h
      obtain ⟨pkt, sys⟩ := x
      have hpkt : pkt = logFrame line.text := h.1
      rw [hpkt, run_cons_of_ok read (handleOn_logFrame fd st line sys), ih _ _ h.2, List.map_cons,
        emitAll_cons]

def WholeOrFails (s : LogForwarder) : LogInput → Prop
  | .sender a => ∀ frame, s.sender = .sending frame → a.sent = none ∨ a.sent = some frame.pkt.length
  | _ => True

def arrivedOn (s : LogForwarder) (c : Nat) : List LogLine :=
  ((s.sendsOn c).filter fun x => x.sent.isSome).map (·.frame.line)

private theorem stream_of_whole {xs : List LogSend}
    (h : ∀ x ∈ xs, x.sent = none ∨ x.sent = some x.frame.pkt.length) :
    stream (xs.map LogSend.piece) = (((xs.filter fun x => x.sent.isSome).map (·.frame.line)).map
      fun line => logFrame line.text).flatMap Frame.bytes := by
  induction xs with
  | nil => rfl
  | cons x xs ih =>
    have ih' := ih fun y hy => h y (List.mem_cons_of_mem x hy)
    rw [stream, List.map_cons, List.flatMap_cons]
    rw [stream] at ih'
    cases h x List.mem_cons_self with
    | inl hnone =>
      rw [List.filter_cons_of_neg (by simp [hnone]), ih']
      simp [LogSend.piece, hnone]
    | inr hall =>
      have htaken : x.piece.taken = (logFrame x.frame.line.text).bytes := by
        rw [← logPacket_renderEntry, ← x.frame.built]
        simp [LogSend.piece, hall]
      rw [List.filter_cons_of_pos (by simp [hall]), htaken, ih']
      rfl

private theorem run_whole {is : List LogInput} {s : LogForwarder}
    (hg : RunAll LogForwarder.step WholeOrFails .init is)
    (hr : run LogForwarder.step .init is = .ok s) :
    ∀ x ∈ s.log, x.sent = none ∨ x.sent = some x.frame.pkt.length := by
  apply run_invariant (P := fun s : LogForwarder =>
    ∀ x ∈ s.log, x.sent = none ∨ x.sent = some x.frame.pkt.length) _ _ hg hr
  · intro s i s' h hguard hs x hx
    cases LogForwarder.step_link hs with
    | keep log | drop log | connect log =>
      rw [log] at hx
      exact h x hx
    | send frame a y sender input call log =>
      subst input
      rw [log] at hx
      cases List.mem_append.mp hx with
      | inl hold => exact h x hold
      | inr hnew =>
        rw [List.mem_singleton.mp hnew, call]
        dsimp only
        split
        · exact hguard frame sender
        · exact .inl rfl
  · intro x hx
    cases hx

/-- In every run of the log forwarder in which a `send` takes the whole packet or fails: each
connection carries whole packets, and whatever number of them the daemon has handled, it has
logged for them the first of the lines `got`, which are some of the lines that went into the
queue, in their order. No line is among those of two connections, no line went into the queue
twice, and each entry is in one place. -/
theorem log_lines_in_order {is : List LogInput} {s : LogForwarder}
    (hg : RunAll LogForwarder.step WholeOrFails .init is)
    (hr : run LogForwarder.step .init is = .ok s) :
    ∃ got : Nat → List LogLine,
      (∀ c, (got c).Sublist s.enqueued ∧ ∃ packets, parseFrames headerCodec (s.written c) = some packets ∧
        packets.length = (got c).length ∧
        ∀ (st : Daemon) (fd : Fd) (read : List (Packet × Syscalls)), read.map Prod.fst <+: packets →
          run (handleOn fd) st read =
            .ok (emitAll st (((got c).take read.length).map asLogged))) ∧
      (∀ c c' line, line ∈ got c → line ∈ got c' → c = c') ∧
      (s.enqueued.map LogLine.id).Nodup ∧ s.places.Perm (List.range s.nextId) := by
  have hkept := LogForwarder.run_kept hr
  have hwhole := run_whole hg hr
  have hlog : (s.log.map (·.frame.line)).Sublist s.enqueued := by
    rw [hkept.order, List.append_assoc]
    exact List.sublist_append_left _ _
  have hids : (s.enqueued.map LogLine.id).Nodup := (List.nodup_append.mp hkept.once).2.1
  refine ⟨arrivedOn s, ?_, ?_, hids, hkept.custody⟩
  · intro c
    have hparse := parseFrames_flatMap ((arrivedOn s c).map fun line => logFrame line.text)
    have hwritten : s.written c =
        ((arrivedOn s c).map fun line => logFrame line.text).flatMap Frame.bytes :=
      stream_of_whole fun x hx => hwhole x (List.mem_of_mem_filter hx)
    rw [← hwritten] at hparse
    constructor
    · exact ((List.filter_sublist.trans List.filter_sublist).map _).trans hlog
    · refine ⟨_, hparse, List.length_map _, ?_⟩
      intro st fd read hread
      apply run_handleOn
      rw [List.map_take]
      have htake := List.prefix_iff_eq_take.mp hread
      rw [List.length_map] at htake
      exact htake
  · intro c c' line hc hc'
    -- a line has one `send`, and a `send` has one connection
    have hnodup : (s.log.map (·.frame.line)).Nodup := hlog.nodup (List.Nodup.of_map _ hids)
    obtain ⟨x, hx, hline⟩ := List.mem_map.mp hc
    obtain ⟨y, hy, hline'⟩ := List.mem_map.mp hc'
    have hx' := List.mem_filter.mp (List.mem_of_mem_filter hx)
    have hy' := List.mem_filter.mp (List.mem_of_mem_filter hy)
    have hxy : x = y := List.inj_on_of_nodup_map hnodup hx'.1 hy'.1 (hline.trans hline'.symm)
    have hcx : x.conn = some c := by simpa using hx'.2
    have hcy : y.conn = some c' := by simpa using hy'.2
    rw [hxy, hcy] at hcx
    exact (Option.some.inj hcx).symm

/-- Two lines are logged, the sender connects and sends the first one; the second is queued. -/
def twoLines : List LogInput :=
  [.call [0x45, 0x0A] true, .call [0x49] true, .fill 1, .fill 0, .enqueue 0, .enqueue 0,
    .sender {}, .sender {}, .sender {}, .sender {}, .sender { sent := some 9 }]

theorem log_lines_in_order_two :
    ∃ s packets lines, run LogForwarder.step .init twoLines = .ok s ∧
      s.enqueued = [⟨0, [0x45, 0x0A]⟩, ⟨1, [0x49]⟩] ∧ s.places.Perm (List.range 2) ∧
      parseFrames headerCodec (s.written 0) = some packets ∧ packets.length = 1 ∧
      List.Sublist lines s.enqueued ∧
      run (handleOn 5) (Daemon.boot 3 4 fun _ => none) (packets.map fun p => (p, {})) =
        .ok (emitAll (Daemon.boot 3 4 fun _ => none) (lines.map asLogged)) := by
  obtain ⟨s, hr, henq, hid, hwritten⟩ : ∃ s, run LogForwarder.step .init twoLines = .ok s ∧
      s.enqueued = [⟨0, [0x45, 0x0A]⟩, ⟨1, [0x49]⟩] ∧ s.nextId = 2 ∧
      s.written 0 = [logFrame [0x45, 0x0A]].flatMap Frame.bytes := ⟨_, rfl, rfl, rfl, rfl⟩
  have hg : RunAll LogForwarder.step WholeOrFails .init twoLines := by
    iterate 6 apply runAll_cons_of_ok rfl trivial
    iterate 4 apply runAll_cons_of_ok rfl fun _ h => SenderStage.noConfusion h
    apply runAll_cons_of_ok rfl
    · intro frame hframe
      cases hframe
      exact .inr rfl
    · trivial
  obtain ⟨got, hconn, -, -, hcustody⟩ := log_lines_in_order hg hr
  obtain ⟨hsub, packets, hparse, hlen, hread⟩ := hconn 0
  have hone : packets.length = 1 := by
    rw [hwritten, parseFrames_flatMap, Option.some.injEq] at hparse
    rw [← hparse]
    rfl
  refine ⟨s, packets, got 0, hr, henq, hid ▸ hcustody, hparse, hone, hsub, ?_⟩
  rw [hread]
  · rw [List.length_map, hlen, List.take_length]
  · simp [Function.comp_def]

end WirelessHub.System
