import WirelessHub.Firmware.CrashReport
import WirelessHub.Firmware.Portal
import WirelessHub.Framework.Decimal
import WirelessHub.System.LogLines

/-!
# A crash report on its way to the daemon

The crash reporter prints its report with `ESP_LOGE`, so its lines take the way of all log lines:
through the hook, which cuts a line at 255 bytes, into packets, and to the log of the daemon, which
drops the line ends. What `ESP_LOGE` prints around a message is up to the SDK; as long as it is no
more than 55 bytes, the hook cuts nothing of a chunk of 200 bytes, and the daemon logs every byte of
the report.
-/

namespace WirelessHub.Firmware

open Framework
open Portal (ascii)

/-- What `ESP_LOGE` prints in front of a message and behind it. -/
structure EspLog where
  start : List UInt8
  finish : List UInt8

namespace EspLog

def line (f : EspLog) (body : List UInt8) : List UInt8 := f.start ++ (body ++ f.finish)

/-- What is relied on of the SDK: the line begins with an `E`, perhaps behind an escape sequence, and
there are at most 55 bytes around the message. -/
structure IsError (f : EspLog) : Prop where
  level : ∃ rest, f.start = 0x45 :: rest ∨
    ∃ params, 0 ∉ params ∧ 0x6D ∉ params ∧ f.start = 0x1B :: 0x5B :: (params ++ 0x6D :: 0x45 :: rest)
  length : f.start.length + f.finish.length ≤ 55

private theorem skipAnsi_params {params : List UInt8} (hzero : 0 ∉ params) (hend : 0x6D ∉ params)
    (s : List UInt8) : skipAnsi .params (params ++ 0x6D :: s) = skipAnsi .outside s := by
  induction params with
  | nil => rfl
  | cons b params ih =>
    rw [List.mem_cons, not_or] at hzero hend
    rw [List.cons_append, skipAnsi, if_neg (Ne.symm hzero.1), if_neg (Ne.symm hend.1),
      ih hzero.2 hend.2]

private theorem detectLevel_line {f : EspLog} (h : f.IsError) (body : List UInt8) :
    detectLevel (f.line body) = .error := by
  obtain ⟨rest, hstart | ⟨params, hzero, hend, hstart⟩⟩ := h.level
  · rw [line, hstart]
    rfl
  · have hskip : skipAnsi .outside (f.line body) = 0x45 :: (rest ++ (body ++ f.finish)) := by
      rw [line, hstart]
      simp only [List.cons_append, List.append_assoc]
      exact skipAnsi_params hzero hend _
    rw [detectLevel, hskip]
    rfl

end EspLog

namespace CrashReporter

namespace ReportLine

/-- The message of a line of the report; `code` gives the reasons the numbers of the SDK, of which
`s_pending_reason` holds a byte. -/
def body (code : ResetReason → UInt8) : ReportLine → List UInt8
  | .header reasonStr reason logBytes =>
      ascii "====== PREVIOUS CRASH: ".toList ++ (ascii reasonStr.toList ++
        (ascii " (code=".toList ++ (decimal (code reason).toNat ++
          (ascii ") log_bytes=".toList ++ (decimal logBytes ++ ascii " ======".toList)))))
  | .chunk bytes => bytes
  | .noLog => ascii "(no log captured before crash)".toList
  | .ending => ascii "====== END CRASH REPORT ======".toList

/-- The bytes of the crashed boot in a line. -/
def logBytes : ReportLine → List UInt8
  | .chunk bytes => bytes
  | _ => []

end ReportLine

section Body

variable {code : ResetReason → UInt8}

private theorem length_reasonStr_le (reason : ResetReason) :
    (reasonStr reason).toList.length ≤ 8 := by
  cases reason <;> decide

private theorem length_body_header_le (reason : ResetReason) {n : Nat} (hn : n < 1000) :
    ((ReportLine.header (reasonStr reason) reason n).body code).length ≤ 200 := by
  have hreason := length_reasonStr_le reason
  have hcode : (decimal (code reason).toNat).length ≤ 3 := by
    have := (code reason).toNat_lt
    exact length_decimal_le (by omega) (by omega)
  have hlen : (decimal n).length ≤ 3 := length_decimal_le (by omega) hn
  have h₁ : "====== PREVIOUS CRASH: ".toList.length = 23 := by decide
  have h₂ : " (code=".toList.length = 7 := by decide
  have h₃ : ") log_bytes=".toList.length = 12 := by decide
  have h₄ : " ======".toList.length = 7 := by decide
  simp only [ReportLine.body, List.length_append, ascii, List.length_map]
  omega

end Body

section Report

variable (code : ResetReason → UInt8)

private theorem map_value_appended (boot : Boot) (lines : List (List UInt8)) :
    (lines.flatMap (appended boot)).map LogByte.value = lines.flatMap (·.take 127) := by
  rw [List.map_flatMap]
  congr 1
  funext line
  rw [appended, List.map_map]
  change List.map id _ = _
  rw [List.map_id]
  split
  · rw [List.take_length, List.take_of_length_le (by omega)]
  · rfl

private theorem map_rtake {α β : Type*} (f : α → β) (l : List α) (n : Nat) :
    (l.rtake n).map f = (l.map f).rtake n := by
  rw [List.rtake, List.rtake, List.map_drop, List.length_map]

private theorem crashSendTask_lines {ram : Ram} {text rest : List UInt8} (hpending : ram.pending = text ++ 0 :: rest)
    (hzero : 0 ∉ text) (hne : text ≠ []) (hle : text.length ≤ 600) :
    (crashSendTask ram).head? =
        some (.header (reasonStr ram.pendingReason) ram.pendingReason text.length) ∧
      (crashSendTask ram).flatMap ReportLine.logBytes = text ∧
      ∀ line ∈ crashSendTask ram, (line.body code).length ≤ 200 := by
  obtain ⟨chunks, hlines, hflatten, hchunks⟩ := crashSendTask_of_string hpending hzero hne
  rw [hlines]
  refine ⟨rfl, ?_, ?_⟩
  · have hmap : (chunks.map ReportLine.chunk).flatMap ReportLine.logBytes = chunks.flatten := by
      rw [List.flatMap_map]
      exact List.flatMap_id
    rw [List.flatMap_cons, List.flatMap_append, hmap, hflatten]
    exact List.append_nil text
  · intro line hline
    rw [List.mem_cons, List.mem_append, List.mem_map, List.mem_singleton] at hline
    rcases hline with rfl | ⟨chunk, hchunk, rfl⟩ | rfl
    · exact length_body_header_le _ (Nat.lt_of_le_of_lt hle (by omega))
    · exact (hchunks chunk hchunk).2
    · change (ascii "====== END CRASH REPORT ======".toList).length ≤ 200
      decide

private theorem shown_newest (log : List UInt8) : 0 ∉ (log.rtake 600).map shown ∧
    ((log.rtake 600).map shown).length ≤ 600 ∧ (log ≠ [] → (log.rtake 600).map shown ≠ []) := by
  refine ⟨fun h => ?_, ?_, fun hne => ?_⟩
  · obtain ⟨b, -, hb⟩ := List.mem_map.mp h
    exact shown_ne_zero b hb
  · simp only [List.length_map, List.rtake, List.length_drop]
    omega
  · exact List.map_eq_nil_iff.not.mpr (List.ne_nil_of_mem (getLast_mem_rtake hne (by decide)))

/-- The report after a crash holds the newest bytes that the hook appended in either boot. -/
theorem crashSendTask_of_lines (s : Rtc) (ram ram' : Ram) (reason : ResetReason)
    {reason' : ResetReason} (hcrash : reason'.isCrash = true) {lines early : List (List UInt8)}
    (hsome : ∃ line ∈ lines ++ early, line ≠ []) :
    let rtc := early.foldl (hook .next) (lines.foldl (hook .crashed)
      (crashReporterInit .crashed s ram reason).1)
    let report := crashSendTask (crashReporterInit .next rtc ram' reason').2
    let bytes := (((lines ++ early).flatMap (·.take 127)).rtake 600).map shown
    report.head? = some (.header (reasonStr reason') reason' bytes.length) ∧
      report.flatMap ReportLine.logBytes = bytes ∧ ∀ line ∈ report, (line.body code).length ≤ 200 := by
  intro rtc report bytes
  have hrec := ((recorded_cleared .crashed).hooks .crashed lines).hooks .next early
  rw [List.nil_append] at hrec
  have hne : lines.flatMap (appended .crashed) ++ early.flatMap (appended .next) ≠ [] := by
    obtain ⟨line, hmem, hline⟩ := hsome
    intro hnil
    rw [List.append_eq_nil_iff, flatMap_appended_eq_nil_iff, flatMap_appended_eq_nil_iff] at hnil
    cases List.mem_append.mp hmem with
    | inl hl => exact hline (hnil.1 line hl)
    | inr he => exact hline (hnil.2 line he)
  have hreport : (init .next rtc reason').2 = _ := hrec.report hcrash
  rw [if_neg hne] at hreport
  obtain ⟨hpending, -, hreason⟩ := @crashReporterInit_of_report _ _ ram' _ _ hreport
  have hvalues : (lines.flatMap (appended .crashed) ++ early.flatMap (appended .next)).map
      LogByte.value = (lines ++ early).flatMap (·.take 127) := by
    rw [List.map_append, map_value_appended, map_value_appended, List.flatMap_append]
  have hlog : (lines ++ early).flatMap (·.take 127) ≠ [] := by
    rw [← hvalues]
    exact List.map_eq_nil_iff.not.mpr hne
  rw [map_sanitise_value, sanitiseByte_eq, map_rtake, hvalues, store_zero, List.append_assoc]
    at hpending
  obtain ⟨hzero, hle, hpos⟩ := shown_newest ((lines ++ early).flatMap (·.take 127))
  have hspec := crashSendTask_lines code hpending hzero (hpos hlog) hle
  rw [hreason] at hspec
  exact hspec

end Report
end CrashReporter
end WirelessHub.Firmware

namespace WirelessHub.System

open Framework Firmware CrashReporter
open Portal (ascii)

private theorem asLogged_line {f : EspLog} (hf : f.IsError) {body : List UInt8}
    (hbody : body.length ≤ 200) (id : Nat) :
    asLogged ⟨id, f.line body⟩ =
      .logLine LogLevel.error.toByte (Daemon.stripLineEnds (f.line body)) := by
  have hlen : (f.line body).length ≤ 255 := by
    have := hf.length
    simp only [EspLog.line, List.length_append]
    omega
  rw [asLogged]
  dsimp only
  rw [List.take_of_length_le hlen, EspLog.detectLevel_line hf]

/-- A boot logs `lines`, crashes, and the next one logs `early` before it makes the report. The
packets that carry the report, whatever `ESP_LOGE` prints around each message, make the daemon log
one error for each of its lines, as it was printed but for the line ends. The first one says why
the boot ended and how long the log is, and the rest hold the newest 600 bytes of what both boots
appended, in order and without a gap. -/
theorem crash_report_reaches_daemon (s : Rtc) (ram ram' : Ram) (reason : ResetReason)
    {reason' : ResetReason} (hcrash : reason'.isCrash = true) {lines early : List (List UInt8)}
    (hsome : ∃ line ∈ lines ++ early, line ≠ []) (code : ResetReason → UInt8)
    {printed : List (EspLog × ReportLine)} (hlog : ∀ x ∈ printed, x.1.IsError) :
    let rtc := early.foldl (hook .next) (lines.foldl (hook .crashed)
      (crashReporterInit .crashed s ram reason).1)
    let bytes := (((lines ++ early).flatMap (·.take 127)).rtake 600).map shown
    let text := fun x : EspLog × ReportLine => x.1.line (x.2.body code)
    printed.map Prod.snd = crashSendTask (crashReporterInit .next rtc ram' reason').2 →
    (∃ packets, parseFrames headerCodec
        (printed.flatMap fun x => logPacket (renderEntry (text x))) = some packets ∧
      packets.length = printed.length ∧
      ∀ (st : Daemon) (fd : Fd) (read : List (Packet × Syscalls)), read.map Prod.fst = packets →
        run (handleOn fd) st read = .ok (emitAll st (printed.map fun x =>
          .logLine LogLevel.error.toByte (Daemon.stripLineEnds (text x))))) ∧
    printed.head?.map Prod.snd = some (.header (reasonStr reason') reason' bytes.length) ∧
    (printed.flatMap fun x => x.2.logBytes) = bytes := by
  intro rtc bytes text hprinted
  obtain ⟨hhead, hbytes, hbody⟩ :=
    crashSendTask_of_lines code s ram ram' reason hcrash hsome
  rw [← hprinted] at hhead hbytes hbody
  have hframes : (printed.flatMap fun x => logPacket (renderEntry (text x))) =
      (printed.map fun x => logFrame (text x)).flatMap Frame.bytes := by
    rw [List.flatMap_map]
    exact List.flatMap_congr fun x _ => logPacket_renderEntry _
  refine ⟨⟨_, by rw [hframes, parseFrames_flatMap], List.length_map _, ?_⟩, ?_, ?_⟩
  · intro st fd read hread
    rw [run_handleOn fd st read (printed.map fun x => ⟨0, text x⟩)
      (by rw [hread, List.map_map]; rfl), List.map_map]
    congr 2
    apply List.map_congr_left
    intro x hx
    exact asLogged_line (hlog x hx) (hbody x.2 (List.mem_map_of_mem hx)) 0
  · rw [← List.head?_map]
    exact hhead
  · rw [List.flatMap_map] at hbytes
    exact hbytes

/-- `ESP_LOGE` with colours, at seven milliseconds. -/
def colouredLog : EspLog where
  start := 0x1B :: ascii "[0;31mE (7) CrashRpt: ".toList
  finish := 0x1B :: ascii "[0m\n".toList

/-- One line is logged before a panic. -/
theorem crash_report_of_one_line :
    ∃ (printed : List (EspLog × ReportLine)) (packets : List Packet),
      printed.head?.map Prod.snd = some (.header "PANIC" .panic 2) ∧
      (printed.flatMap fun x => x.2.logBytes) = [69, 10] ∧ packets.length = printed.length ∧
      run (handleOn 5) (Daemon.boot 3 4 fun _ => none) (packets.map fun p => (p, {})) =
        .ok (emitAll (Daemon.boot 3 4 fun _ => none) (printed.map fun x =>
          .logLine LogLevel.error.toByte (Daemon.stripLineEnds (x.1.line (x.2.body fun _ => 4))))) := by
  let ram : Ram := ⟨List.replicate pendingSize 0, false, .other, List.length_replicate⟩
  let rtc := [[69, 10]].foldl (hook .crashed) (crashReporterInit .crashed (cleared .crashed) ram .other).1
  let report := crashSendTask (crashReporterInit .next rtc ram .panic).2
  have herror : colouredLog.IsError := ⟨⟨ascii " (7) CrashRpt: ".toList, .inr ⟨ascii "0;31".toList,
    by decide, by decide, by decide⟩⟩, by decide⟩
  have hlog : ∀ x ∈ report.map fun line => (colouredLog, line), x.1.IsError := by
    intro x hx
    obtain ⟨line, -, rfl⟩ := List.mem_map.mp hx
    exact herror
  obtain ⟨⟨packets, -, hlen, hrun⟩, hhead, hbytes⟩ := @crash_report_reaches_daemon (cleared .crashed)
    ram ram .other .panic rfl [[69, 10]] [] ⟨_, List.mem_cons_self, by simp⟩ (fun _ => 4) _ hlog
    (by rw [List.map_map]; exact List.map_id report)
  refine ⟨_, packets, hhead, hbytes, hlen, hrun _ 5 _ ?_⟩
  rw [List.map_map]
  exact List.map_id packets

end WirelessHub.System
