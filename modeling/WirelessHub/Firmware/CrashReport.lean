import WirelessHub.Firmware.CrashReporter
import WirelessHub.Framework.Buffer
import WirelessHub.Framework.Search

/-!
# The crash report

What `crash_reporter_init` copies from the ring to `s_pending` in normal RAM, and the lines that
`crash_send_task` prints of it. The report of the ring is the abstract side: the buffer holds it
as a string, and the chunks of the task put it together again.
-/

namespace WirelessHub.Firmware.CrashReporter

open Framework

def pendingSize : Nat := rtcBufSize + 64

/-- The normal RAM of the reporter. -/
structure Ram where
  pending : List UInt8
  hasPending : Bool
  pendingReason : ResetReason
  size : pending.length = pendingSize

/-- The copies that bring the ring into chronological order, and how many bytes they write. -/
def copyRing (ring : Ring LogByte rtcBufSize) (dst : List UInt8) : List UInt8 × Nat :=
  let buf := ring.buf.map LogByte.value
  if ring.wrapped then
    let tail := rtcBufSize - ring.pos
    (store (store dst 0 ((buf.drop ring.pos).take tail)) tail (buf.take ring.pos), tail + ring.pos)
  else (store dst 0 (buf.take ring.pos), ring.pos)

def sanitiseByte (c : UInt8) : UInt8 :=
  if c ≠ 10 ∧ c ≠ 9 ∧ (c < 0x20 ∨ c > 0x7E) then 46 else c

/-- What `crash_reporter_init` does with `s_pending` after a crash. -/
def reconstruct (ring : Ring LogByte rtcBufSize) (dst : List UInt8) : List UInt8 :=
  let copied := copyRing ring dst
  let dst := store copied.1 copied.2 [0]
  store dst 0 ((dst.take copied.2).map sanitiseByte)

section Reconstruct

variable (ring : Ring LogByte rtcBufSize) (dst : List UInt8)

private theorem copyRing_eq : copyRing ring dst =
    (store dst 0 (ring.contents.map LogByte.value), ring.contents.length) := by
  have hpos := ring.pos_lt
  have hlen := ring.length_contents
  unfold copyRing
  split
  · rename_i hw
    have htail : (((ring.buf.map LogByte.value).drop ring.pos).take (rtcBufSize - ring.pos)) =
        (ring.buf.drop ring.pos).map LogByte.value := by
      rw [List.map_drop, List.take_of_length_le]
      rw [List.length_drop, List.length_map, ring.size]
    have hoff : rtcBufSize - ring.pos = 0 + ((ring.buf.drop ring.pos).map LogByte.value).length := by
      rw [List.length_map, List.length_drop, ring.size, Nat.zero_add]
    rw [if_pos hw] at hlen
    dsimp only
    rw [htail, hlen, Ring.contents, if_pos hw, List.map_append, List.map_take,
      Nat.sub_add_cancel hpos.le, hoff, store_store (Nat.zero_le _)]
  · rename_i hw
    rw [if_neg hw] at hlen
    dsimp only
    rw [hlen, Ring.contents, if_neg hw, List.map_take]

private theorem sanitise_value (b : LogByte) : (sanitise b).value = sanitiseByte b.value := by
  unfold sanitise sanitiseByte
  split <;> rfl

theorem map_sanitise_value (bytes : List LogByte) :
    (bytes.map sanitise).map LogByte.value = (bytes.map LogByte.value).map sanitiseByte := by
  rw [List.map_map, List.map_map]
  apply List.map_congr_left
  intro b _
  exact sanitise_value b

private theorem reconstruct_eq :
    reconstruct ring dst = store dst 0 ((ring.contents.map sanitise).map LogByte.value ++ [0]) := by
  have hclosed : store (store dst 0 (ring.contents.map LogByte.value)) ring.contents.length [0] =
      ring.contents.map LogByte.value ++ (0 :: dst.drop (ring.contents.length + 1)) := by
    have hstore := @store_store _ dst (ring.contents.map LogByte.value) [0] 0 (Nat.zero_le _)
    rw [List.length_map, Nat.zero_add] at hstore
    rw [hstore, store_zero]
    simp
  have hlen : (ring.contents.map LogByte.value).length = ring.contents.length := List.length_map _
  rw [reconstruct, copyRing_eq]
  dsimp only
  rw [hclosed, List.take_left' hlen, ← map_sanitise_value, store_zero, store_zero, List.drop_left']
  · simp
  · simp

private theorem length_reconstruct (h : dst.length = pendingSize) :
    (reconstruct ring dst).length = pendingSize := by
  rw [reconstruct_eq, length_store, h]
  have hlen := ring.length_contents
  have hpos := ring.pos_lt
  simp only [List.length_append, List.length_map, List.length_singleton, h, pendingSize]
  split at hlen <;> omega

end Reconstruct

/-- `crash_reporter_init` on both memories. -/
def crashReporterInit (boot : Boot) (s : Rtc) (ram : Ram) (reason : ResetReason) : Rtc × Ram :=
  let ram := if reason.isCrash ∧ s.magic = crashMagic ∧ (0 < s.ring.pos ∨ s.ring.wrapped) then
      { pending := reconstruct s.ring ram.pending
        hasPending := true
        pendingReason := reason
        size := length_reconstruct s.ring ram.pending ram.size }
    else ram
  (cleared boot, ram)

/-- The lines of the report. -/
inductive ReportLine
  | header (reasonStr : String) (reason : ResetReason) (logBytes : Nat)
  | chunk (bytes : List UInt8)
  | noLog
  | ending
  deriving DecidableEq, Repr

def reasonStr : ResetReason → String
  | .panic => "PANIC"
  | .taskWdt => "TASK_WDT"
  | .intWdt => "INT_WDT"
  | .wdt => "WDT"
  | .sw => "SW_RESET"
  | .brownout => "BROWNOUT"
  | .other => "UNKNOWN"

/-- The loop over the chunks; `%.*s` ends at a zero byte. -/
def chunksFrom (pending : List UInt8) (total off : Nat) : List (List UInt8) :=
  if off < total then
    let chunk := if total - off < 200 then total - off else 200
    ((pending.drop off).take chunk).takeWhile (· ≠ 0) :: chunksFrom pending total (off + 200)
  else []
termination_by total - off
decreasing_by omega

def crashSendTask (ram : Ram) : List ReportLine :=
  let total := (ram.pending.takeWhile (· ≠ 0)).length
  .header (reasonStr ram.pendingReason) ram.pendingReason total ::
    (if 0 < total then (chunksFrom ram.pending total 0).map .chunk else [.noLog]) ++ [.ending]

private theorem chunksFrom_spec {pending text rest : List UInt8} (hpending : pending = text ++ rest)
    (hzero : 0 ∉ text) (off : Nat) :
    (chunksFrom pending text.length off).flatten = text.drop off ∧
      ∀ chunk ∈ chunksFrom pending text.length off, 1 ≤ chunk.length ∧ chunk.length ≤ 200 := by
  have hchunk : ∀ off < text.length, ((pending.drop off).take
      (if text.length - off < 200 then text.length - off else 200)).takeWhile (· ≠ 0) =
        (text.drop off).take 200 := by
    intro off hoff
    have htake : (pending.drop off).take (if text.length - off < 200 then text.length - off else 200) =
        (text.drop off).take 200 := by
      rw [hpending, List.drop_append_of_le_length hoff.le, List.take_append_of_le_length]
      · split
        · have hlen := @List.length_drop _ off text
          rw [List.take_of_length_le hlen.le, List.take_of_length_le]
          omega
        · rfl
      · rw [List.length_drop]
        split <;> omega
    rw [htake]
    apply takeWhile_ne_mark
    intro hmem
    exact hzero (List.mem_of_mem_drop (List.mem_of_mem_take hmem))
  fun_induction chunksFrom pending text.length off with
  | case1 off hoff chunk ih =>
    simp only [chunk, dite_eq_ite, hchunk off hoff]
    constructor
    · rw [List.flatten_cons, ih.1, ← List.drop_drop, List.take_append_drop]
    · intro chunk hmem
      rw [List.mem_cons] at hmem
      cases hmem with
      | inl heq =>
        rw [heq, List.length_take, List.length_drop]
        omega
      | inr hmem => exact ih.2 chunk hmem
  | case2 off hoff =>
    rw [List.drop_eq_nil_of_le (Nat.le_of_not_lt hoff)]
    exact ⟨rfl, fun _ h => absurd h List.not_mem_nil⟩

theorem crashSendTask_of_string {ram : Ram} {text rest : List UInt8} (hpending : ram.pending = text ++ 0 :: rest)
    (hzero : 0 ∉ text) (hne : text ≠ []) :
    ∃ chunks : List (List UInt8), crashSendTask ram =
        .header (reasonStr ram.pendingReason) ram.pendingReason text.length ::
          (chunks.map .chunk ++ [.ending]) ∧
      chunks.flatten = text ∧ ∀ chunk ∈ chunks, 1 ≤ chunk.length ∧ chunk.length ≤ 200 := by
  obtain ⟨hflatten, hlengths⟩ := chunksFrom_spec hpending hzero 0
  refine ⟨chunksFrom ram.pending text.length 0, ?_, hflatten, hlengths⟩
  have htotal : ram.pending.takeWhile (· ≠ 0) = text := by
    rw [hpending, takeWhile_ne_mark_append hzero]
  unfold crashSendTask
  rw [htotal]
  dsimp only
  rw [if_pos (List.length_pos_iff.mpr hne), List.cons_append]

/-- A byte as the report shows it. -/
def shown (b : UInt8) : UInt8 :=
  if b = 0x0A ∨ b = 0x09 ∨ (0x20 ≤ b ∧ b ≤ 0x7E) then b else 0x2E

theorem sanitiseByte_eq : sanitiseByte = shown := by
  funext b
  unfold sanitiseByte shown
  by_cases hn : b = 10
  · simp [hn]
  by_cases ht : b = 9
  · simp [ht]
  · simp only [hn, ht, ne_eq, not_false_eq_true, true_and, false_or, ← UInt8.not_lt, gt_iff_lt,
      ← not_or, ite_not]

theorem shown_ne_zero (b : UInt8) : shown b ≠ 0 := by
  unfold shown
  split
  · rintro rfl
    revert ‹_›
    decide
  · decide

section Report

variable {s : Rtc} {history : List LogByte} {boot : Boot}

private theorem Recorded.appends (h : Recorded s history) (calls : List (List LogByte)) :
    Recorded (calls.foldl CrashReporter.append s) (history ++ calls.flatten) := by
  induction calls generalizing s history with
  | nil => simpa using h
  | cons bytes calls ih =>
    rw [List.foldl_cons, List.flatten_cons, ← List.append_assoc]
    exact ih (h.append bytes)

theorem crashReporterInit_of_report {ram : Ram} {reason : ResetReason} {report : List LogByte}
    (h : (init boot s reason).2 = some report) :
    let after := (crashReporterInit boot s ram reason).2
    after.pending = store ram.pending 0 (report.map LogByte.value ++ [0]) ∧
      after.hasPending = true ∧ after.pendingReason = reason := by
  unfold init at h
  unfold crashReporterInit
  dsimp only at h ⊢
  split at h
  · rename_i hcond
    rw [Option.some.injEq] at h
    rw [if_pos hcond, ← h]
    exact ⟨reconstruct_eq _ _, rfl, rfl⟩
  · cases h

end Report

/-- For every row of calls of `crash_reporter_append` after an init that append something: the
position stays in the ring, and an init after a crash leaves the last 600 bytes in `s_pending`,
in order and as a string, which the chunks of `crash_send_task` put together again. -/
theorem crash_report_newest_bytes (s : Rtc) (ram ram' : Ram) (boot boot' : Boot) (reason : ResetReason)
    {reason' : ResetReason} (hcrash : reason'.isCrash = true) {calls : List (List LogByte)}
    (hsome : calls.flatten ≠ []) :
    let rtc := calls.foldl append (crashReporterInit boot s ram reason).1
    let after := (crashReporterInit boot' rtc ram' reason').2
    let text := ((calls.flatten.map LogByte.value).rtake 600).map shown
    rtc.ring.pos < 600 ∧ after.hasPending = true ∧
    (∃ rest, after.pending = text ++ 0 :: rest) ∧ 0 ∉ text ∧
    text.length = min calls.flatten.length 600 ∧
    ∃ chunks : List (List UInt8), crashSendTask after =
        .header (reasonStr reason') reason' text.length :: (chunks.map .chunk ++ [.ending]) ∧
      chunks.flatten = text ∧ ∀ chunk ∈ chunks, 1 ≤ chunk.length ∧ chunk.length ≤ 200 := by
  intro rtc after text
  have hrec : Recorded rtc calls.flatten := (recorded_cleared boot).appends calls
  have hreport : (init boot' rtc reason').2 = some ((calls.flatten.rtake rtcBufSize).map sanitise) := by
    rw [hrec.report hcrash, if_neg hsome]
  obtain ⟨hpending, hhas, hreason⟩ := @crashReporterInit_of_report _ _ ram' _ _ hreport
  have htext : ((calls.flatten.rtake rtcBufSize).map sanitise).map LogByte.value = text := by
    rw [map_sanitise_value, sanitiseByte_eq, List.rtake, List.map_drop]
    simp only [text, List.rtake, List.length_map, rtcBufSize]
  rw [htext, store_zero, List.append_assoc] at hpending
  have hzero : 0 ∉ text := by
    intro h
    obtain ⟨b, -, hb⟩ := List.mem_map.mp h
    exact shown_ne_zero b hb
  have hlen : text.length = min calls.flatten.length 600 := by
    simp only [text, List.length_map, List.rtake, List.length_drop]
    omega
  have hne : text ≠ [] := by
    have hpos := List.length_pos_iff.mpr hsome
    apply List.ne_nil_of_length_pos
    omega
  obtain ⟨chunks, hlines, hchunks⟩ := crashSendTask_of_string hpending hzero hne
  rw [hreason] at hlines
  exact ⟨rtc.ring.pos_lt, hhas, ⟨_, hpending⟩, hzero, hlen, chunks, hlines, hchunks⟩

/-- A log with a zero byte in it. -/
theorem crash_report_newest_bytes_panic :
    ResetReason.panic.isCrash = true ∧
    ∃ chunks : List (List UInt8), chunks.flatten = [69, 46, 10] ∧
      ∃ ram : Ram, crashSendTask ram = .header "PANIC" .panic 3 :: (chunks.map .chunk ++ [.ending]) := by
  obtain ⟨-, -, -, -, -, chunks, hlines, hflatten, -⟩ := @crash_report_newest_bytes (cleared .crashed)
    ⟨List.replicate pendingSize 0, false, .other, List.length_replicate⟩
    ⟨List.replicate pendingSize 0, false, .other, List.length_replicate⟩ .crashed .next .other .panic rfl
    [[⟨69, .crashed⟩, ⟨0, .crashed⟩], [⟨10, .crashed⟩]] (by decide)
  exact ⟨rfl, chunks, hflatten, _, hlines⟩

end WirelessHub.Firmware.CrashReporter
