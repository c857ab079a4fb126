import Mathlib.Tactic.Common
import WirelessHub.Framework.Ring

/-!
# The crash reporter

`crash_reporter.c` keeps the last log bytes in a ring in RTC memory, which survives a reset,
and makes a report of them when the next boot finds that the last one crashed. The log hook
appends to the ring from the moment `log_forwarder_init` installs it, which is before
`crash_reporter_init` has looked at what the crashed boot left there. Each byte carries the
boot in which it was appended; the code does not look at this mark.
-/

namespace WirelessHub.Firmware

open Framework

/-- `esp_reset_reason_t`; the reasons that are no crash are one value here. -/
inductive ResetReason
  | panic | taskWdt | intWdt | wdt | brownout | sw | other
  deriving DecidableEq, Repr

def ResetReason.isCrash : ResetReason → Bool
  | .panic | .taskWdt | .intWdt | .wdt | .brownout | .sw => true
  | .other => false

/-- The boot that appended a byte. -/
inductive Boot
  | crashed | next
  deriving DecidableEq, Repr

structure LogByte where
  value : UInt8
  boot : Boot
  deriving DecidableEq, Repr

namespace CrashReporter

def crashMagic : UInt32 := 0xC0FFEE42
def rtcBufSize : Nat := 600

/-- The RTC memory of the reporter. -/
structure Rtc where
  magic : UInt32
  ring : Ring LogByte rtcBufSize

def append (s : Rtc) (bytes : List LogByte) : Rtc :=
  if s.magic ≠ crashMagic then s else { s with ring := s.ring.pushAll bytes }

/-- What the hook appends of a rendered line: as much as `rtc_tmp` holds. -/
def appended (boot : Boot) (line : List UInt8) : List LogByte :=
  (line.take (if line.length < 128 then line.length else 127)).map (⟨·, boot⟩)

/-- The first part of `log_forwarder_vprintf`. -/
def hook (boot : Boot) (s : Rtc) (line : List UInt8) : Rtc :=
  if 0 < line.length then append s (appended boot line) else s

def sanitise (b : LogByte) : LogByte :=
  if b.value ≠ 10 ∧ b.value ≠ 9 ∧ (b.value < 0x20 ∨ b.value > 0x7E) then { b with value := 46 }
  else b

def cleared (boot : Boot) : Rtc := ⟨crashMagic, .empty ⟨0, boot⟩ (by decide)⟩

/-- `crash_reporter_init`: the report, if there is one, and the memory for this boot. -/
def init (boot : Boot) (s : Rtc) (reason : ResetReason) : Rtc × Option (List LogByte) :=
  let pending := if reason.isCrash ∧ s.magic = crashMagic ∧ (0 < s.ring.pos ∨ s.ring.wrapped) then
      some (s.ring.contents.map sanitise)
    else none
  (cleared boot, pending)

/-- The report after a boot that logged `lines` and crashed, where the next boot logged
`early` before its own `crash_reporter_init`. -/
def reportAfter (s : Rtc) (reason reason' : ResetReason) (lines early : List (List UInt8)) :
    Option (List LogByte) :=
  let s := (init .crashed s reason).1
  let s := lines.foldl (hook .crashed) s
  let s := early.foldl (hook .next) s
  (init .next s reason').2

/-- The sanitised end of what a crashed boot appended; there is none if it appended nothing. -/
def expected (lines : List (List UInt8)) : Option (List LogByte) :=
  let bytes := lines.flatMap (appended .crashed)
  if bytes = [] then none else some ((bytes.rtake rtcBufSize).map sanitise)

variable {s : Rtc} {history : List LogByte} {boot : Boot}

/-- The memory is in use and holds the end of what was appended since it was cleared. -/
def Recorded (s : Rtc) (history : List LogByte) : Prop :=
  s.magic = crashMagic ∧ s.ring.Holds history

theorem recorded_cleared (boot : Boot) : Recorded (cleared boot) [] :=
  ⟨rfl, Ring.holds_empty _ _⟩

theorem Recorded.append (h : Recorded s history) (bytes : List LogByte) :
    Recorded (append s bytes) (history ++ bytes) := by
  rw [CrashReporter.append, if_neg (not_not.mpr h.1)]
  exact ⟨h.1, h.2.pushAll bytes⟩

private theorem Recorded.hook (h : Recorded s history) (boot : Boot) (line : List UInt8) :
    Recorded (hook boot s line) (history ++ appended boot line) := by
  unfold CrashReporter.hook
  split
  · exact h.append _
  · have hnil : line = [] := List.length_eq_zero_iff.mp (by omega)
    rw [hnil]
    simpa [appended] using h

theorem Recorded.hooks (h : Recorded s history) (boot : Boot) (lines : List (List UInt8)) :
    Recorded (lines.foldl (CrashReporter.hook boot) s) (history ++ lines.flatMap (appended boot)) := by
  induction lines generalizing s history with
  | nil => simpa using h
  | cons line lines ih =>
    rw [List.foldl_cons, List.flatMap_cons, ← List.append_assoc]
    exact ih (h.hook boot line)

theorem Recorded.report (h : Recorded s history) {reason : ResetReason} (hcrash : reason.isCrash = true) :
    (init boot s reason).2 =
      if history = [] then none else some ((history.rtake rtcBufSize).map sanitise) := by
  have hempty : (0 < s.ring.pos ∨ s.ring.wrapped = true) ↔ history ≠ [] := by
    rw [Ne, ← h.2.eq_nil_iff, not_and_or, Bool.not_eq_false, Nat.pos_iff_ne_zero]
  simp only [init, hcrash, h.1, hempty, true_and, h.2.1, ne_eq, ite_not]

private theorem reportAfter_eq (s : Rtc) (reason : ResetReason) {reason' : ResetReason}
    (hcrash : reason'.isCrash = true) (lines early : List (List UInt8)) :
    reportAfter s reason reason' lines early =
      if lines.flatMap (appended .crashed) ++ early.flatMap (appended .next) = [] then none
      else some (((lines.flatMap (appended .crashed) ++
        early.flatMap (appended .next)).rtake rtcBufSize).map sanitise) := by
  have hrec := ((recorded_cleared .crashed).hooks .crashed lines).hooks .next early
  rw [List.nil_append] at hrec
  exact hrec.report hcrash

@[simp] theorem sanitise_boot (b : LogByte) : (sanitise b).boot = b.boot := by
  unfold sanitise
  split <;> rfl

private theorem boot_of_mem_flatMap {lines : List (List UInt8)} {b : LogByte}
    (h : b ∈ lines.flatMap (appended boot)) : b.boot = boot := by
  obtain ⟨line, -, hb⟩ := List.mem_flatMap.mp h
  obtain ⟨v, -, rfl⟩ := List.mem_map.mp hb
  rfl

theorem getLast_mem_rtake {α : Type*} {l : List α} (h : l ≠ []) {n : Nat} (hn : 0 < n) :
    l.getLast h ∈ l.rtake n := by
  have hlen : 0 < l.length := List.length_pos_iff.mpr h
  have hne : l.drop (l.length - n) ≠ [] := by
    apply List.ne_nil_of_length_pos
    rw [List.length_drop]
    omega
  rw [List.rtake, ← List.getLast_drop hne]
  exact List.getLast_mem hne

private theorem appended_eq_nil_iff (boot : Boot) (line : List UInt8) : appended boot line = [] ↔ line = [] := by
  rw [appended, List.map_eq_nil_iff, List.take_eq_nil_iff]
  constructor
  · intro h
    rcases h with h | h
    · apply List.length_eq_zero_iff.mp
      split at h <;> omega
    · exact h
  · exact Or.inr

theorem flatMap_appended_eq_nil_iff (boot : Boot) (lines : List (List UInt8)) :
    lines.flatMap (appended boot) = [] ↔ ∀ line ∈ lines, line = [] := by
  rw [List.flatMap_eq_nil_iff]
  exact forall₂_congr fun line _ => appended_eq_nil_iff boot line

/-- The report is the end of what the crashed boot appended, without a byte of the next one,
exactly if the next boot has logged nothing before it makes the report. -/
theorem report_covers_crashed_boot_iff (s : Rtc) (reason reason' : ResetReason)
    (hcrash : reason'.isCrash = true) (lines early : List (List UInt8)) :
    (reportAfter s reason reason' lines early = expected lines ∧
      ∀ report ∈ reportAfter s reason reason' lines early, ∀ b ∈ report, b.boot = .crashed) ↔
    ∀ line ∈ early, line = [] := by
  rw [reportAfter_eq s reason hcrash, ← flatMap_appended_eq_nil_iff .next]
  constructor
  · intro h
    by_contra hearly
    -- the last byte of the window is the last byte of the report
    have hne : lines.flatMap (appended .crashed) ++ early.flatMap (appended .next) ≠ [] :=
      List.append_ne_nil_of_right_ne_nil _ hearly
    rw [if_neg hne] at h
    have hlast := h.2 _ rfl _ (List.mem_map_of_mem (getLast_mem_rtake hne (by decide : 0 < rtcBufSize)))
    rw [sanitise_boot, List.getLast_append_of_ne_nil _ hearly,
      boot_of_mem_flatMap (List.getLast_mem hearly)] at hlast
    cases hlast
  · intro hearly
    rw [hearly, List.append_nil]
    refine ⟨rfl, ?_⟩
    intro report hreport b hb
    split at hreport
    · cases hreport
    · rw [← Option.mem_some_iff.mp hreport] at hb
      obtain ⟨b', hb', rfl⟩ := List.mem_map.mp hb
      rw [sanitise_boot]
      exact boot_of_mem_flatMap ((List.drop_suffix _ _).subset hb')

theorem report_covers_crashed_boot_quiet :
    ResetReason.panic.isCrash = true ∧
    (reportAfter (cleared .crashed) .other .panic [[69, 10]] [] = expected [[69, 10]] ∧
      ∀ report ∈ reportAfter (cleared .crashed) .other .panic [[69, 10]] [],
        ∀ b ∈ report, b.boot = .crashed) :=
  ⟨rfl, (report_covers_crashed_boot_iff _ .other .panic rfl _ []).mpr (by simp)⟩

/-- The line that `app_main` logs between the two inits ends the report of the crashed boot. -/
theorem report_has_line_of_next_boot :
    ResetReason.panic.isCrash = true ∧
    reportAfter (cleared .crashed) .other .panic [[69, 10]] [[82]] =
      some [⟨69, .crashed⟩, ⟨10, .crashed⟩, ⟨82, .next⟩] ∧
    reportAfter (cleared .crashed) .other .panic [[69, 10]] [[82]] ≠ expected [[69, 10]] := by
  decide

end CrashReporter
end WirelessHub.Firmware
