import Mathlib.Data.List.DropRight

/-!
# Ring buffers

A buffer of fixed size that is written in a circle. A flag says whether the writer has come
round once; the contents then begin at the position of the writer. What is in the ring is
always the end of what was written to it since it was empty.
-/

namespace WirelessHub.Framework

variable {α : Type*} {cap : Nat}

structure Ring (α : Type*) (cap : Nat) where
  buf : List α
  pos : Nat
  wrapped : Bool
  size : buf.length = cap
  pos_lt : pos < cap

namespace Ring

/-- An empty ring with a value in its unused cells. -/
def empty (a : α) (h : 0 < cap) : Ring α cap where
  buf := List.replicate cap a
  pos := 0
  wrapped := false
  size := List.length_replicate
  pos_lt := h

def push (r : Ring α cap) (a : α) : Ring α cap where
  buf := r.buf.set r.pos a
  pos := if cap ≤ r.pos + 1 then 0 else r.pos + 1
  wrapped := r.wrapped || decide (cap ≤ r.pos + 1)
  size := by rw [List.length_set, r.size]
  pos_lt := by
    have := r.pos_lt
    split <;> omega

def pushAll (r : Ring α cap) (as : List α) : Ring α cap := as.foldl push r

/-- The contents in the order in which they were written. -/
def contents (r : Ring α cap) : List α :=
  if r.wrapped then r.buf.drop r.pos ++ r.buf.take r.pos else r.buf.take r.pos

theorem contents_empty (a : α) (h : 0 < cap) : (empty a h).contents = [] := rfl

theorem length_contents (r : Ring α cap) :
    r.contents.length = if r.wrapped then cap else r.pos := by
  have hsize := r.size
  have hpos := r.pos_lt
  unfold contents
  split
  · rw [List.length_append, List.length_drop, List.length_take]
    omega
  · rw [List.length_take]
    omega

theorem drop_set_pos (r : Ring α cap) (a : α) :
    (r.buf.set r.pos a).drop (r.pos + 1) = r.buf.drop (r.pos + 1) := by
  rw [List.drop_set_of_lt (Nat.lt_succ_self r.pos)]

theorem take_set_pos (r : Ring α cap) (a : α) :
    (r.buf.set r.pos a).take (r.pos + 1) = r.buf.take r.pos ++ [a] := by
  have hlt : r.pos < (r.buf.set r.pos a).length := by
    rw [List.length_set, r.size]
    exact r.pos_lt
  rw [List.take_succ_eq_append_getElem hlt, List.getElem_set_self, List.take_set_of_le (Nat.le_refl _)]

theorem contents_push (r : Ring α cap) (a : α) :
    (r.push a).contents = (if r.wrapped then r.contents.tail else r.contents) ++ [a] := by
  have hpos := r.pos_lt
  have hold : r.wrapped = true → r.contents.tail = r.buf.drop (r.pos + 1) ++ r.buf.take r.pos := by
    intro hw
    rw [contents, if_pos hw, List.drop_eq_getElem_cons (r.size.symm ▸ hpos)]
    rfl
  by_cases hwrap : cap ≤ r.pos + 1
  · have hdrop : r.buf.drop (r.pos + 1) = [] := List.drop_eq_nil_of_le (r.size.symm ▸ hwrap)
    have hall : r.buf.set r.pos a = r.buf.take r.pos ++ [a] := by
      rw [← take_set_pos, List.take_of_length_le]
      rw [List.length_set, r.size]
      exact hwrap
    have hnew : (r.push a).contents = r.buf.take r.pos ++ [a] := by
      simp [push, contents, hwrap, hall]
    rw [hnew]
    cases hw : r.wrapped with
    | true => rw [if_pos rfl, hold hw, hdrop, List.nil_append]
    | false => rw [if_neg Bool.false_ne_true, contents, hw, if_neg Bool.false_ne_true]
  · cases hw : r.wrapped with
    | true =>
      rw [if_pos rfl, hold hw]
      simp only [push, contents, hw, Bool.true_or, if_true, hwrap, if_false, drop_set_pos,
        take_set_pos, List.append_assoc]
    | false =>
      rw [if_neg Bool.false_ne_true]
      simp only [push, contents, hw, hwrap, decide_false, Bool.or_self, Bool.false_eq_true, if_false,
        take_set_pos]

/-- The ring holds the last `cap` values of a history. -/
def Holds (r : Ring α cap) (history : List α) : Prop :=
  r.contents = history.rtake cap ∧ (r.wrapped = true ↔ cap ≤ history.length)

theorem holds_empty (a : α) (h : 0 < cap) : Holds (empty a h) [] := by
  refine ⟨by rw [List.rtake_nil, contents_empty], ?_⟩
  simp only [empty, Bool.false_eq_true, List.length_nil, false_iff]
  omega

theorem Holds.push {r : Ring α cap} {history : List α} (h : Holds r history) (a : α) :
    Holds (r.push a) (history ++ [a]) := by
  obtain ⟨hcontents, hwrapped⟩ := h
  have hcap : 0 < cap := Nat.lt_of_le_of_lt (Nat.zero_le _) r.pos_lt
  have hlen := r.length_contents
  rw [hcontents, List.rtake, List.length_drop] at hlen
  cases hw : r.wrapped with
  | true =>
    have hfull := hwrapped.mp hw
    refine ⟨?_, ?_⟩
    · rw [contents_push, if_pos hw, hcontents, List.rtake, List.rtake, List.tail_drop,
        List.drop_append_of_le_length (by rw [List.length_append]; simp; omega)]
      congr 2
      rw [List.length_append, List.length_singleton]
      omega
    · simp only [Ring.push, hw, Bool.true_or, true_iff, List.length_append]
      omega
  | false =>
    have hshort : ¬cap ≤ history.length := fun hle => by simp [hwrapped.mpr hle] at hw
    rw [hw, if_neg Bool.false_ne_true] at hlen
    refine ⟨?_, ?_⟩
    · rw [contents_push, if_neg (by simp [hw]), hcontents, List.rtake, List.rtake]
      have h₀ : history.length - cap = 0 := by omega
      have h₁ : (history ++ [a]).length - cap = 0 := by
        rw [List.length_append, List.length_singleton]
        omega
      rw [h₀, h₁, List.drop_zero, List.drop_zero]
    · simp only [Ring.push, hw, Bool.false_or, decide_eq_true_eq, List.length_append,
        List.length_singleton]
      omega

theorem Holds.pushAll {r : Ring α cap} {history : List α} (h : Holds r history) (as : List α) :
    Holds (r.pushAll as) (history ++ as) := by
  induction as generalizing r history with
  | nil =>
    rw [List.append_nil]
    exact h
  | cons a as ih =>
    have hstep := ih (h.push a)
    rw [List.append_assoc] at hstep
    exact hstep

theorem Holds.eq_nil_iff {r : Ring α cap} {history : List α} (h : Holds r history) :
    r.pos = 0 ∧ r.wrapped = false ↔ history = [] := by
  obtain ⟨hcontents, hwrapped⟩ := h
  have hcap : 0 < cap := Nat.lt_of_le_of_lt (Nat.zero_le _) r.pos_lt
  have hlen := r.length_contents
  rw [hcontents, List.rtake, List.length_drop] at hlen
  rw [← List.length_eq_zero_iff]
  cases hw : r.wrapped with
  | true =>
    have hfull := hwrapped.mp hw
    simp only [Bool.true_eq_false, and_false, false_iff]
    omega
  | false =>
    have hshort : ¬cap ≤ history.length := fun hle => by simp [hwrapped.mpr hle] at hw
    rw [hw, if_neg Bool.false_ne_true] at hlen
    simp only [and_true]
    omega

end Ring
end WirelessHub.Framework
