import Mathlib.Logic.Function.Basic
import Mathlib.Tactic.Common

/-!
# A table of handles with owners

Handles are taken from and given back to one table by several owners, and their numbers are
used again. An owner that knows its handle keeps knowing it, whatever the others do with handles
that are free or their own.
-/

namespace WirelessHub.Framework

open Function

variable {κ ω : Type*} [DecidableEq κ]

/-- The handle that `o` has in the table is `x`, and it has no other. -/
def Owns (table : κ → Option ω) (o : ω) (x : Option κ) : Prop := ∀ k, table k = some o ↔ x = some k

namespace Owns

variable {table : κ → Option ω} {o o' : ω} {x : Option κ} {k : κ}

omit [DecidableEq κ] in
theorem at_self (h : Owns table o (some k)) : table k = some o := (h k).mpr rfl

theorem take (h : Owns table o none) (k : κ) : Owns (update table k (some o)) o (some k) := by
  intro q
  by_cases hq : q = k
  · simp [hq]
  · rw [update_of_ne hq, h q]
    simp [Ne.symm hq]

theorem give (h : Owns table o (some k)) : Owns (update table k none) o none := by
  intro q
  by_cases hq : q = k
  · simp [hq]
  · rw [update_of_ne hq, h q]
    simp [Ne.symm hq]

theorem of_update (h : Owns table o x) (hk : table k ≠ some o) {v : Option ω} (hv : v ≠ some o) :
    Owns (update table k v) o x := by
  intro q
  by_cases hq : q = k
  · subst hq
    rw [update_self, ← h q]
    exact ⟨fun hv' => absurd hv' hv, fun hk' => absurd hk' hk⟩
  · rw [update_of_ne hq, h q]

end Owns
end WirelessHub.Framework
