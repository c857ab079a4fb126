import Mathlib.Data.List.Basic

/-!
# A resource for the first who claims it

A resource goes to the holder of the first claim and is gone with the next act of this
holder, whatever that act is. Other parties cannot take it or end it. The state after a
history of acts is a fold, and the history says who holds the resource.
-/

namespace WirelessHub.Framework

inductive FirstClaim (κ : Type*)
  | fresh
  | bound (holder : κ)
  | dead

namespace FirstClaim

variable {κ α : Type*} {claims : α → Bool} {k : κ} {xs : List (κ × α)}

/-- The history gives the resource to `k`: its claim is the first one and its last act. -/
def Holds (claims : α → Bool) (xs : List (κ × α)) (k : κ) : Prop :=
  ∃ before a after, xs = before ++ (k, a) :: after ∧ claims a = true ∧
    (∀ x ∈ before, claims x.2 = false) ∧ ∀ x ∈ after, x.1 ≠ k

theorem holds_cons_of_claims {k' : κ} {a : α} (ha : claims a = true) :
    Holds claims ((k', a) :: xs) k ↔ k' = k ∧ ∀ x ∈ xs, x.1 ≠ k' := by
  constructor
  · rintro ⟨before, b, after, hxs, -, hbefore, hafter⟩
    cases before with
    | nil =>
      cases hxs
      exact ⟨rfl, hafter⟩
    | cons y before =>
      obtain ⟨rfl, -⟩ := List.cons.inj hxs
      exact absurd (hbefore _ List.mem_cons_self) (by simp [ha])
  · rintro ⟨rfl, hafter⟩
    exact ⟨[], a, xs, rfl, ha, by simp, hafter⟩

theorem holds_cons_of_not_claims {k' : κ} {a : α} (ha : claims a = false) :
    Holds claims ((k', a) :: xs) k ↔ Holds claims xs k := by
  constructor
  · rintro ⟨before, b, after, hxs, hb, hbefore, hafter⟩
    cases before with
    | nil =>
      cases hxs
      exact absurd (ha.symm.trans hb) (by simp)
    | cons y before =>
      obtain ⟨rfl, hrest⟩ := List.cons.inj hxs
      exact ⟨before, b, after, hrest, hb, (List.forall_mem_cons.mp hbefore).2, hafter⟩
  · rintro ⟨before, b, after, rfl, hb, hbefore, hafter⟩
    exact ⟨(k', a) :: before, b, after, rfl, hb, List.forall_mem_cons.mpr ⟨ha, hbefore⟩, hafter⟩

variable [DecidableEq κ]

def next (claims : α → Bool) : FirstClaim κ → κ × α → FirstClaim κ
  | .fresh, (k, a) => if claims a then .bound k else .fresh
  | .bound holder, (k, _) => if k = holder then .dead else .bound holder
  | .dead, _ => .dead

theorem foldl_dead (claims : α → Bool) (xs : List (κ × α)) :
    xs.foldl (next claims) .dead = .dead := by
  induction xs with
  | nil => rfl
  | cons x xs ih => exact ih

theorem foldl_bound_iff {holder : κ} :
    xs.foldl (next claims) (.bound holder) = .bound k ↔ holder = k ∧ ∀ x ∈ xs, x.1 ≠ holder := by
  induction xs with
  | nil => simp
  | cons x xs ih =>
    by_cases hx : x.1 = holder
    · simp [next, hx, foldl_dead]
    · simp [next, hx, ih]

def lastAct (xs : List (κ × α)) (k : κ) : Option α :=
  (xs.filter fun x => x.1 = k).getLast?.map Prod.snd

theorem Holds.lastAct (h : Holds claims xs k) : ∃ a, FirstClaim.lastAct xs k = some a ∧ claims a = true := by
  obtain ⟨before, a, after, rfl, ha, -, hafter⟩ := h
  have hnone : after.filter (fun x => x.1 = k) = [] := by simpa using hafter
  exact ⟨a, by simp [FirstClaim.lastAct, hnone], ha⟩

theorem foldl_fresh_iff : xs.foldl (next claims) .fresh = .bound k ↔ Holds claims xs k := by
  induction xs with
  | nil => simp [Holds]
  | cons x xs ih =>
    obtain ⟨k', a⟩ := x
    cases ha : claims a with
    | true => rw [List.foldl_cons, next, if_pos ha, foldl_bound_iff, holds_cons_of_claims ha]
    | false =>
      rw [List.foldl_cons, next, if_neg (by simp [ha]), ih, holds_cons_of_not_claims ha]

end FirstClaim
end WirelessHub.Framework
