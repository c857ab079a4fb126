import Mathlib.Data.List.Sort

/-!
# Offsets of pieces in a stream

A stream can be cut into pieces in several ways. Each piece of a cut stands at an offset,
and the offsets of non-empty pieces increase, so a list of pieces marked with their offsets
is determined by its members. Two pieces of different cuts that stand at the same offset
begin with the same symbols. A cut into blocks of one size gives the stream back.
-/

namespace WirelessHub.Framework

variable {α β γ : Type*}

/-- The pieces of a list, each with the offset at which it starts. -/
def withOffsets (size : α → Nat) : Nat → List α → List (Nat × α)
  | _, [] => []
  | o, a :: as => (o, a) :: withOffsets size (o + size a) as

def Before (x y : Nat × γ) : Prop := x.1 < y.1

instance : Std.Antisymm (@Before γ) :=
  ⟨fun _ _ h h' => absurd (Nat.lt_trans h h') (Nat.lt_irrefl _)⟩

instance : Std.Irrefl (@Before γ) := ⟨fun _ => Nat.lt_irrefl _⟩

variable {size : α → Nat}

theorem withOffsets_map_snd (o : Nat) (as : List α) : (withOffsets size o as).map Prod.snd = as := by
  induction as generalizing o with
  | nil => rfl
  | cons a as ih => rw [withOffsets, List.map_cons, ih]

theorem le_of_mem_withOffsets {o : Nat} {as : List α} {x : Nat × α}
    (h : x ∈ withOffsets size o as) : o ≤ x.1 := by
  induction as generalizing o with
  | nil => simp [withOffsets] at h
  | cons a as ih =>
    rcases List.mem_cons.mp h with rfl | h
    · exact Nat.le_refl o
    · exact (Nat.le_add_right o (size a)).trans (ih h)

theorem withOffsets_pairwise {as : List α} (hpos : ∀ a ∈ as, 0 < size a) (o : Nat) :
    (withOffsets size o as).Pairwise Before := by
  induction as generalizing o with
  | nil => exact .nil
  | cons a as ih =>
    refine List.pairwise_cons.mpr ⟨fun x hx => ?_, ih (fun b hb => hpos b (.tail a hb)) _⟩
    have hle := le_of_mem_withOffsets hx
    have hlt := hpos a List.mem_cons_self
    change o < x.1
    omega

theorem drop_of_mem_withOffsets (f : α → List β) {as : List α} {o o' : Nat} {a : α}
    (h : (o', a) ∈ withOffsets (fun a => (f a).length) o as) :
    ∃ tail, (as.flatMap f).drop (o' - o) = f a ++ tail := by
  induction as generalizing o with
  | nil => simp [withOffsets] at h
  | cons b as ih =>
    rcases List.mem_cons.mp h with h | h
    · obtain ⟨rfl, rfl⟩ := Prod.mk.inj h
      exact ⟨as.flatMap f, by rw [Nat.sub_self, List.drop_zero, List.flatMap_cons]⟩
    · obtain ⟨tail, ht⟩ := ih h
      have hle := le_of_mem_withOffsets h
      have hsplit : o' - o = (f b).length + (o' - (o + (f b).length)) := by
        change o + (f b).length ≤ o' at hle
        omega
      exact ⟨tail, by rw [← ht, List.flatMap_cons, hsplit, List.drop_length_add_append]⟩

/-- Pieces of two cuts of one stream that stand at the same offset begin alike. -/
theorem common_of_mem_withOffsets {f : α → List β} {g : γ → List β} {as : List α} {cs : List γ}
    (hstream : as.flatMap f = cs.flatMap g) {o : Nat} {a : α} {c : γ}
    (ha : (o, a) ∈ withOffsets (fun a => (f a).length) 0 as)
    (hc : (o, c) ∈ withOffsets (fun c => (g c).length) 0 cs) :
    ∃ s t, f a ++ s = g c ++ t := by
  obtain ⟨s, hs⟩ := drop_of_mem_withOffsets f ha
  obtain ⟨t, ht⟩ := drop_of_mem_withOffsets g hc
  exact ⟨s, t, by rw [← hs, ← ht, hstream]⟩

theorem eq_of_before_of_subset {xs ys : List (Nat × γ)} (hx : xs.Pairwise Before)
    (hy : ys.Pairwise Before) (hsub : xs.map Prod.fst ⊆ ys.map Prod.fst)
    (hsnd : xs.map Prod.snd = ys.map Prod.snd) : xs = ys := by
  have hlen : xs.length = ys.length := by simpa using congrArg List.length hsnd
  have hx' : (xs.map Prod.fst).Pairwise (· < ·) := List.pairwise_map.mpr hx
  have hy' : (ys.map Prod.fst).Pairwise (· < ·) := List.pairwise_map.mpr hy
  have hsubperm := List.subperm_of_subset hx'.nodup hsub
  have hfst : xs.map Prod.fst = ys.map Prod.fst :=
    (List.sublist_of_subperm_of_pairwise hsubperm hx' hy').eq_of_length (by simpa using hlen)
  rw [← List.zip_unzip xs, ← List.zip_unzip ys, List.unzip_eq_map, List.unzip_eq_map, hfst, hsnd]

/-- The block with number `i` of a list that is cut after every `m` members. -/
def block (m : Nat) (as : List α) (i : Nat) : List α := (as.drop (i * m)).take m

theorem flatMap_block (m : Nat) (as : List α) (n : Nat) :
    (List.range n).flatMap (block m as) = as.take (n * m) := by
  induction n with
  | zero => simp
  | succ n ih =>
    rw [List.range_succ, List.flatMap_append, ih, List.flatMap_singleton, block, Nat.succ_mul,
      List.take_add]

theorem flatMap_block_of_le {m n : Nat} {as : List α} (h : as.length ≤ n * m) :
    (List.range n).flatMap (block m as) = as := by
  rw [flatMap_block, List.take_of_length_le h]

end WirelessHub.Framework
