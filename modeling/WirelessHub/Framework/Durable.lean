import Mathlib.Logic.Function.Basic
import Mathlib.Tactic.Common

/-!
# A store with commits and resets

Values are put under keys and made durable by a commit. A reset may come at any time and keeps of
each value that was put and not committed what it wants. What holds of all values in the store
is kept by every operation that does not put another value.
-/

namespace WirelessHub.Framework

open Function

/-- What a reset leaves for certain, and what was put since the last commit. -/
structure Durable (κ α : Type*) where
  durable : κ → Option α
  written : κ → Option α

namespace Durable

variable {κ α : Type*} {s : Durable κ α} {P Q : κ → α → Prop} {k : κ} {v : α}

def empty : Durable κ α := ⟨fun _ => none, fun _ => none⟩

def read (s : Durable κ α) (k : κ) : Option α := (s.written k).or (s.durable k)

def put [DecidableEq κ] (s : Durable κ α) (k : κ) (v : α) : Durable κ α :=
  { s with written := update s.written k (some v) }

def commit (s : Durable κ α) : Durable κ α := ⟨s.read, fun _ => none⟩

def reset (s : Durable κ α) (keep : κ → Bool) : Durable κ α :=
  ⟨fun k => if keep k then s.read k else s.durable k, fun _ => none⟩

/-- Every value in the store has the property. -/
structure Holds (P : κ → α → Prop) (s : Durable κ α) : Prop where
  durable : ∀ k v, s.durable k = some v → P k v
  written : ∀ k v, s.written k = some v → P k v

theorem holds_empty : Holds P (empty : Durable κ α) := ⟨nofun, nofun⟩

theorem Holds.mono (h : Holds P s) (himp : ∀ k v, P k v → Q k v) : Holds Q s :=
  ⟨fun k v hv => himp k v (h.durable k v hv), fun k v hv => himp k v (h.written k v hv)⟩

theorem Holds.read (h : Holds P s) (hv : s.read k = some v) : P k v := by
  rcases Option.or_eq_some_iff.mp hv with hw | ⟨-, hd⟩
  · exact h.written k v hw
  · exact h.durable k v hd

theorem Holds.put [DecidableEq κ] (h : Holds P s) (hv : P k v) : Holds P (s.put k v) := by
  refine ⟨h.durable, fun q w hw => ?_⟩
  by_cases hq : q = k
  · subst hq
    simp only [Durable.put, update_self, Option.some.injEq] at hw
    exact hw ▸ hv
  · simp only [Durable.put, update_of_ne hq] at hw
    exact h.written q w hw

theorem Holds.reset (h : Holds P s) (keep : κ → Bool) : Holds P (s.reset keep) := by
  refine ⟨fun k v hv => ?_, nofun⟩
  by_cases hk : keep k = true
  · simp only [Durable.reset, hk, if_true] at hv
    exact h.read hv
  · simp only [Durable.reset, hk] at hv
    exact h.durable k v hv

theorem put_written [DecidableEq κ] (s : Durable κ α) (k : κ) (v : α) :
    (s.put k v).written k = some v := by
  simp [put]

theorem read_ne_none (h : s.durable k ≠ none) : s.read k ≠ none := by
  intro hn
  exact h (Option.or_eq_none_iff.mp hn).2

theorem reset_ne_none (h : s.durable k ≠ none) (keep : κ → Bool) : (s.reset keep).durable k ≠ none := by
  simp only [reset]
  split
  · exact read_ne_none h
  · exact h

theorem commit_of_written (h : s.written k = some v) : s.commit.durable k = some v := by
  simp [commit, read, h]

end Durable
end WirelessHub.Framework
