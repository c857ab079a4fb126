import Mathlib.Tactic.Common

/-!
# Pieces of a stream

A sender hands over one unit after another, and the channel takes a leading part of each. The
stream is what was taken. It is uncut if nothing follows a unit that was not taken to its end,
and framed if nothing follows a unit that was taken in part.
-/

namespace WirelessHub.Framework

/-- A unit and the leading part of it that was taken. -/
structure Piece (α : Type*) where
  whole : List α
  taken : List α
  leads : taken <+: whole

variable {α : Type*} {ps : List (Piece α)}

def stream (ps : List (Piece α)) : List α := ps.flatMap Piece.taken

def Uncut (ps : List (Piece α)) : Prop :=
  ps.Pairwise fun p q => p.taken ≠ p.whole → q.taken = []

theorem stream_eq_nil (h : ∀ p ∈ ps, p.taken = []) : stream ps = [] := by
  rw [stream, List.flatMap_eq_nil_iff]
  exact h

theorem Uncut.stream_isPrefix (h : Uncut ps) : stream ps <+: ps.flatMap Piece.whole := by
  induction ps with
  | nil => exact List.nil_prefix
  | cons p ps ih =>
    rw [Uncut, List.pairwise_cons] at h
    rw [stream, List.flatMap_cons, List.flatMap_cons]
    by_cases hp : p.taken = p.whole
    · rw [hp, List.prefix_append_right_inj]
      exact ih h.2
    · have hrest : stream ps = [] := stream_eq_nil fun q hq => h.1 q hq hp
      rw [stream] at hrest
      rw [hrest, List.append_nil]
      exact p.leads.trans (List.prefix_append _ _)

def Framed (ps : List (Piece α)) : Prop :=
  ps.Pairwise fun p q => p.taken ≠ [] → p.taken ≠ p.whole → q.taken = []

theorem framed_map_iff {β : Type*} {f : β → Piece α} {cut unsent : β → Prop}
    (hcut : ∀ x, cut x ↔ (f x).taken ≠ [] ∧ (f x).taken ≠ (f x).whole)
    (hunsent : ∀ x, unsent x ↔ (f x).taken = []) (xs : List β) :
    Framed (xs.map f) ↔ xs.Pairwise fun x y => cut x → unsent y := by
  rw [Framed, List.pairwise_map]
  apply List.Pairwise.iff
  intro x y
  rw [hcut, hunsent, and_imp]

/-- The stream is a row of whole units and the beginning of at most one more. -/
def IsRow (ps : List (Piece α)) : Prop :=
  ∃ (units : List (List α)) (rest : List α), stream ps = units.flatten ++ rest ∧
    units.Sublist (ps.map Piece.whole) ∧ (rest = [] ∨ ∃ p ∈ ps, rest = p.taken)

theorem Framed.isRow (h : Framed ps) : IsRow ps := by
  induction ps with
  | nil => exact ⟨[], [], rfl, .slnil, .inl rfl⟩
  | cons p ps ih =>
    rw [Framed, List.pairwise_cons] at h
    obtain ⟨units, rest, hstream, hunits, hrest⟩ := ih h.2
    have hrest' : rest = [] ∨ ∃ q ∈ p :: ps, rest = q.taken := by
      apply hrest.imp_right
      intro hq
      obtain ⟨q, hmem, hq⟩ := hq
      exact ⟨q, List.mem_cons_of_mem p hmem, hq⟩
    rw [stream] at hstream
    by_cases hnil : p.taken = []
    · refine ⟨units, rest, ?_, hunits.cons p.whole, hrest'⟩
      rw [stream, List.flatMap_cons, hnil, hstream]
      rfl
    · by_cases hall : p.taken = p.whole
      · refine ⟨p.whole :: units, rest, ?_, hunits.cons_cons p.whole, hrest'⟩
        rw [stream, List.flatMap_cons, hall, hstream, List.flatten_cons, List.append_assoc]
      · -- nothing behind `p` was taken
        have htail : stream ps = [] := stream_eq_nil fun q hq => h.1 q hq hnil hall
        refine ⟨[], p.taken, ?_, List.nil_sublist _, .inr ⟨p, List.mem_cons_self, rfl⟩⟩
        rw [stream] at htail
        rw [stream, List.flatMap_cons, htail, List.append_nil, List.flatten_nil, List.nil_append]

end WirelessHub.Framework
