import Mathlib.Logic.Relation
import Mathlib.Tactic.Common

/-!
# Loops with a variant

A turn of a loop either leads to another turn or leaves the loop with a value. A loop carries a
variant that every turn decreases, so it is left from every state, and its value is a function
of the state it starts in.
-/

namespace WirelessHub.Framework

/-- What a turn of a loop leads to. -/
inductive Turn (σ ρ : Type*)
  | again (s : σ)
  | done (r : ρ)

variable {σ ρ : Type*}

/-- The states a loop passes through. -/
def Reaches (turn : σ → Turn σ ρ) : σ → σ → Prop :=
  Relation.ReflTransGen fun s s' => turn s = .again s'

/-- A loop that starts in `s` is left with `r`. -/
def Exits (turn : σ → Turn σ ρ) (s : σ) (r : ρ) : Prop := ∃ t, Reaches turn s t ∧ turn t = .done r

/-- A loop whose turns decrease a variant. -/
structure Loop (σ ρ : Type*) where
  turn : σ → Turn σ ρ
  variant : σ → Nat
  decreases : ∀ s s', turn s = .again s' → variant s' < variant s

namespace Loop

variable {L : Loop σ ρ} {s s' : σ} {r : ρ}

def runWithin (L : Loop σ ρ) : (n : Nat) → (s : σ) → L.variant s < n → ρ
  | 0, _, h => absurd h (Nat.not_lt_zero _)
  | n + 1, s, h => match hturn : L.turn s with
    | .done r => r
    | .again s' =>
      L.runWithin n s' (Nat.lt_of_lt_of_le (L.decreases s s' hturn) (Nat.le_of_lt_succ h))

/-- The value with which the loop is left. -/
def run (L : Loop σ ρ) (s : σ) : ρ := L.runWithin (L.variant s + 1) s (Nat.lt_succ_self _)

theorem runWithin_of_done {n : Nat} {hn : L.variant s < n} (h : L.turn s = .done r) :
    L.runWithin n s hn = r := by
  cases n with
  | zero => exact absurd hn (Nat.not_lt_zero _)
  | succ n =>
    rw [runWithin]
    split
    case h_1 r' hr => exact Turn.done.inj (hr.symm.trans h)
    case h_2 s' hs => exact absurd (hs.symm.trans h) nofun

theorem runWithin_of_again {n : Nat} {hn : L.variant s < n + 1} (h : L.turn s = .again s')
    (hn' : L.variant s' < n) : L.runWithin (n + 1) s hn = L.runWithin n s' hn' := by
  rw [runWithin]
  split
  case h_1 r' hr => exact absurd (hr.symm.trans h) nofun
  case h_2 t ht =>
    obtain rfl : t = s' := Turn.again.inj (ht.symm.trans h)
    rfl

/-- The value does not depend on the number of turns that are granted. -/
theorem runWithin_eq_run {n : Nat} (hn : L.variant s < n) : L.runWithin n s hn = L.run s := by
  have hany : ∀ (n m : Nat) (s : σ) (hn : L.variant s < n) (hm : L.variant s < m),
      L.runWithin n s hn = L.runWithin m s hm := by
    intro n
    induction n with
    | zero => exact fun m s hn => absurd hn (Nat.not_lt_zero _)
    | succ n ih =>
      intro m s hn hm
      cases hturn : L.turn s with
      | done r => rw [runWithin_of_done hturn, runWithin_of_done hturn]
      | again s' =>
        have hlt := L.decreases s s' hturn
        cases m with
        | zero => exact absurd hm (Nat.not_lt_zero _)
        | succ m =>
          rw [runWithin_of_again hturn (by omega), runWithin_of_again hturn (by omega)]
          apply ih
  exact hany _ _ s hn _

theorem run_of_done (h : L.turn s = .done r) : L.run s = r := runWithin_of_done h

theorem run_of_again (h : L.turn s = .again s') : L.run s = L.run s' := by
  rw [run, runWithin_of_again h (L.decreases s s' h), runWithin_eq_run]

theorem run_of_reaches (h : Reaches L.turn s s') : L.run s = L.run s' := by
  induction h with
  | refl => rfl
  | tail _ hturn ih => rw [ih, run_of_again hturn]

/-- What every turn keeps, and every way out turns into `Q`, gives `Q` of the loop's value. -/
theorem run_induction {P : σ → Prop} {Q : ρ → Prop}
    (hagain : ∀ s s', P s → L.turn s = .again s' → P s')
    (hdone : ∀ s r, P s → L.turn s = .done r → Q r) (hs : P s) : Q (L.run s) := by
  induction hv : L.variant s using Nat.strongRecOn generalizing s with
  | ind v ih =>
    cases hturn : L.turn s with
    | done r =>
      rw [run_of_done hturn]
      exact hdone s r hs hturn
    | again s' =>
      rw [run_of_again hturn]
      exact ih (L.variant s') (hv ▸ L.decreases s s' hturn) (hagain s s' hs hturn) rfl

theorem exits_run (L : Loop σ ρ) (s : σ) : Exits L.turn s (L.run s) := by
  apply run_induction (P := Reaches L.turn s)
  · exact fun t t' ht hturn => ht.tail hturn
  · exact fun t r ht hturn => ⟨t, ht, hturn⟩
  · exact .refl

theorem exits_iff : Exits L.turn s r ↔ L.run s = r := by
  constructor
  · rintro ⟨t, ht, hturn⟩
    rw [run_of_reaches ht, run_of_done hturn]
  · rintro rfl
    exact L.exits_run s

end Loop
end WirelessHub.Framework
