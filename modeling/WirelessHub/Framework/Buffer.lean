import Mathlib.Tactic.Common

/-!
# Writing into a buffer

A buffer is a list of its cells. Cells that are stored behind its end make it longer, so a
buffer that has kept its length, and its cells from some index on, was not overrun there.
-/

namespace WirelessHub.Framework

variable {α : Type*} {dst as bs : List α} {o n : Nat}

/-- `memcpy` of some cells to an offset. -/
def store (dst : List α) (o : Nat) (bs : List α) : List α :=
  dst.take o ++ bs ++ dst.drop (o + bs.length)

theorem store_zero (dst bs : List α) : store dst 0 bs = bs ++ dst.drop bs.length := by
  rw [store, List.take_zero, List.nil_append, Nat.zero_add]

theorem length_store (h : o + bs.length ≤ dst.length) : (store dst o bs).length = dst.length := by
  simp only [store, List.length_append, List.length_take, List.length_drop]
  omega

theorem le_length_store (h : o ≤ dst.length) : o + bs.length ≤ (store dst o bs).length := by
  simp only [store, List.length_append, List.length_take]
  omega

theorem take_store (h : o ≤ dst.length) :
    (store dst o bs).take (o + bs.length) = dst.take o ++ bs := by
  apply List.take_left'
  rw [List.length_append, List.length_take, Nat.min_eq_left h]

theorem drop_store (h : o ≤ dst.length) (hn : o + bs.length ≤ n) :
    (store dst o bs).drop n = dst.drop n := by
  have hlen : (dst.take o ++ bs).length = o + bs.length := by
    rw [List.length_append, List.length_take, Nat.min_eq_left h]
  rw [store, List.drop_append, List.drop_eq_nil_of_le (hlen ▸ hn), List.nil_append, List.drop_drop, hlen,
    Nat.add_sub_of_le hn]

theorem store_store (h : o ≤ dst.length) :
    store (store dst o as) (o + as.length) bs = store dst o (as ++ bs) := by
  rw [store, take_store h, drop_store h (by omega), store, List.length_append, Nat.add_assoc]
  simp only [List.append_assoc]

end WirelessHub.Framework
