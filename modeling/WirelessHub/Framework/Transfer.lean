import Mathlib.Tactic.Common

/-!
# Transfer loops

A caller hands a buffer to a system call again and again until the call has taken all of
it. Each answer either advances the buffer, asks for another try, leaves the caller waiting, or
ends the loop. The answers come from a script; when the script is used up the call takes all
that is left.
-/

namespace WirelessHub.Framework

variable {α ρ : Type*}

/-- What a transfer loop does with one answer of the system call. -/
inductive Verdict
  | advance (n : Nat)
  | again
  | wait
  | stop
  deriving DecidableEq

/-- The outcome of a transfer loop: what was taken, whether all was, and the unused answers. The
result is absent while the loop is still waiting for its call. -/
structure Transfer (α ρ : Type*) where
  taken : List α
  result : Option Bool
  rest : List ρ

/-- The loop `while (written < len)` over the answers of the call. A call that waits stays the
next one. -/
def transferAll (verdict : ρ → Verdict) : List ρ → List α → Transfer α ρ
  | script, [] => ⟨[], some true, script⟩
  | [], a :: data => ⟨a :: data, some true, []⟩
  | r :: script, a :: data => match verdict r with
    | .advance n =>
        let t := transferAll verdict script ((a :: data).drop n)
        ⟨(a :: data).take n ++ t.taken, t.result, t.rest⟩
    | .again => transferAll verdict script (a :: data)
    | .wait => ⟨[], none, r :: script⟩
    | .stop => ⟨[], some false, script⟩

/-- How much the answers let through before one that ends or holds the loop, if one does. -/
def granted (verdict : ρ → Verdict) : List ρ → Option Nat
  | [] => none
  | r :: script => match verdict r with
    | .advance n => (granted verdict script).map (n + ·)
    | .again => granted verdict script
    | .wait | .stop => some 0

/-- Whether the first answer that does not let the loop go on holds it. -/
def held (verdict : ρ → Verdict) : List ρ → Bool
  | [] => false
  | r :: script => match verdict r with
    | .advance _ | .again => held verdict script
    | .wait => true
    | .stop => false

/-- The answers that are left when `len` have been let through. -/
def unused (verdict : ρ → Verdict) : List ρ → Nat → List ρ
  | script, 0 => script
  | [], _ + 1 => []
  | r :: script, len + 1 => match verdict r with
    | .advance n => unused verdict script (len + 1 - n)
    | .again => unused verdict script (len + 1)
    | .wait => r :: script
    | .stop => script

/-- Where the loop over `len` values is ended or held, if it is before its end. -/
def stopsAt (verdict : ρ → Verdict) (script : List ρ) (len : Nat) : Option Nat :=
  (granted verdict script).filter (· < len)

/-- The loop over `len` values does not get to its end: an answer holds it before. -/
def Stalls (verdict : ρ → Verdict) (script : List ρ) (len : Nat) : Prop :=
  held verdict script = true ∧ ∃ n, granted verdict script = some n ∧ n < len

variable {verdict : ρ → Verdict}

@[simp] theorem transferAll_empty (script : List ρ) :
    transferAll verdict script ([] : List α) = ⟨[], some true, script⟩ := by
  cases script <;> rfl

theorem transferAll_taken (script : List ρ) (data : List α) :
    (transferAll verdict script data).taken =
      (granted verdict script).elim data fun n => data.take n := by
  induction script generalizing data with
  | nil => cases data <;> rfl
  | cons r script ih =>
    cases data with
    | nil => cases granted verdict (r :: script) <;> simp
    | cons a data =>
      cases hv : verdict r with
      | advance n =>
        simp only [transferAll, granted, hv, ih]
        cases granted verdict script with
        | none => exact List.take_append_drop n _
        | some k => exact List.take_add.symm
      | again =>
        simp only [transferAll, granted, hv, ih]
      | wait | stop => simp only [transferAll, granted, hv, Option.elim_some, List.take_zero]

theorem transferAll_taken_leads (script : List ρ) (data : List α) :
    (transferAll verdict script data).taken <+: data := by
  rw [transferAll_taken]
  cases granted verdict script with
  | none => exact List.prefix_refl data
  | some n => exact List.take_prefix n data

theorem transferAll_taken_eq_nil_iff (script : List ρ) (data : List α) :
    (transferAll verdict script data).taken = [] ↔ data = [] ∨ granted verdict script = some 0 := by
  rw [transferAll_taken]
  cases granted verdict script with
  | none => simp
  | some n => simp [or_comm]

/-- The loop ends well where no answer ends or holds it before all is let through. Otherwise the
first such answer says which it is. -/
theorem transferAll_result (script : List ρ) (data : List α) :
    (transferAll verdict script data).result = match granted verdict script with
      | none => some true
      | some n => if data.length ≤ n then some true
          else if held verdict script then none else some false := by
  induction script generalizing data with
  | nil => cases data <;> rfl
  | cons r script ih =>
    cases data with
    | nil =>
      rw [transferAll_empty]
      split <;> simp
    | cons a data =>
      cases hv : verdict r with
      | advance n =>
        simp only [transferAll, granted, held, hv, ih]
        cases granted verdict script with
        | none => rfl
        | some k => simp only [Option.map_some, List.length_drop, Nat.sub_le_iff_le_add']
      | again => simp only [transferAll, granted, held, hv, ih]
      | wait | stop => simp [transferAll, granted, held, hv]

theorem transferAll_result_eq_none_iff (script : List ρ) (data : List α) :
    (transferAll verdict script data).result = none ↔ Stalls verdict script data.length := by
  rw [transferAll_result, Stalls]
  cases granted verdict script with
  | none => simp
  | some n =>
    by_cases hle : data.length ≤ n
    · simp [hle]
    · cases held verdict script <;> simp [hle, Nat.lt_of_not_le hle]

theorem transferAll_result_eq_true_iff (script : List ρ) (data : List α) :
    (transferAll verdict script data).result = some true ↔
      ∀ n, granted verdict script = some n → data.length ≤ n := by
  rw [transferAll_result]
  cases granted verdict script with
  | none => simp
  | some n =>
    by_cases hle : data.length ≤ n
    · simp [hle]
    · cases held verdict script <;> simp [hle]

theorem transferAll_taken_of_result (script : List ρ) (data : List α)
    (h : (transferAll verdict script data).result = some true) :
    (transferAll verdict script data).taken = data := by
  rw [transferAll_result_eq_true_iff] at h
  rw [transferAll_taken]
  cases hg : granted verdict script with
  | none => rfl
  | some n => exact List.take_of_length_le (h n hg)

theorem transferAll_of_stopsAt_none {script : List ρ} {data : List α}
    (h : stopsAt verdict script data.length = none) :
    (transferAll verdict script data).result = some true ∧
      (transferAll verdict script data).taken = data := by
  have hresult : (transferAll verdict script data).result = some true := by
    rw [transferAll_result_eq_true_iff]
    intro n hn
    simpa [stopsAt, hn] using h
  exact ⟨hresult, transferAll_taken_of_result script data hresult⟩

theorem transferAll_of_stopsAt_some {script : List ρ} {data : List α} {n : Nat}
    (h : stopsAt verdict script data.length = some n) :
    (transferAll verdict script data).result ≠ some true ∧
      (transferAll verdict script data).taken.length = n ∧ n < data.length := by
  obtain ⟨hgranted, hlt⟩ := Option.filter_eq_some_iff.mp h
  have hlt : n < data.length := by simpa using hlt
  refine ⟨fun hresult => ?_, ?_, hlt⟩
  · exact Nat.not_lt.mpr ((transferAll_result_eq_true_iff script data).mp hresult n hgranted) hlt
  · rw [transferAll_taken, hgranted]
    exact List.length_take_of_le (Nat.le_of_lt hlt)

theorem transferAll_rest (script : List ρ) (data : List α) :
    (transferAll verdict script data).rest = unused verdict script data.length := by
  induction script generalizing data with
  | nil => cases data <;> rfl
  | cons r script ih =>
    cases data with
    | nil => rw [transferAll_empty, List.length_nil, unused]
    | cons a data =>
      cases hv : verdict r with
      | advance n =>
        simp only [transferAll, List.length_cons, unused, hv, ih]
        rw [List.length_drop, List.length_cons]
      | again => simp only [transferAll, List.length_cons, unused, hv, ih]
      | wait | stop => simp only [transferAll, List.length_cons, unused, hv]

theorem unused_suffix (script : List ρ) (len : Nat) : unused verdict script len <:+ script := by
  induction script generalizing len with
  | nil => cases len <;> exact List.suffix_refl _
  | cons r script ih =>
    cases len with
    | zero => exact List.suffix_refl _
    | succ len =>
      cases hv : verdict r with
      | advance n => simpa only [unused, hv] using (ih _).trans (List.suffix_cons r script)
      | again => simpa only [unused, hv] using (ih _).trans (List.suffix_cons r script)
      | wait => simpa only [unused, hv] using List.suffix_refl _
      | stop => simpa only [unused, hv] using List.suffix_cons r script

theorem not_stalls_of_no_wait {script : List ρ} (h : ∀ r ∈ script, verdict r ≠ .wait) (len : Nat) :
    ¬Stalls verdict script len := by
  have hheld : held verdict script = false := by
    induction script with
    | nil => rfl
    | cons r script ih =>
      have ih' := ih fun r' hr' => h r' (List.mem_cons_of_mem r hr')
      cases hv : verdict r with
      | advance n => simp only [held, hv, ih']
      | again => simp only [held, hv, ih']
      | wait => exact absurd hv (h r List.mem_cons_self)
      | stop => simp only [held, hv]
  intro hs
  rw [Stalls, hheld] at hs
  cases hs.1

theorem transferAll_result_of_goesOn (script : List ρ) (data : List α)
    (h : ∀ r ∈ script, verdict r ≠ .wait ∧ verdict r ≠ .stop) :
    (transferAll verdict script data).result = some true := by
  have hnone : granted verdict script = none := by
    induction script with
    | nil => rfl
    | cons r script ih =>
      have ih' := ih fun r' hr' => h r' (List.mem_cons_of_mem r hr')
      cases hv : verdict r with
      | advance n => simp only [granted, hv, ih', Option.map_none]
      | again => simp only [granted, hv, ih']
      | wait => exact absurd hv (h r List.mem_cons_self).1
      | stop => exact absurd hv (h r List.mem_cons_self).2
  rw [transferAll_result, hnone]

end WirelessHub.Framework
