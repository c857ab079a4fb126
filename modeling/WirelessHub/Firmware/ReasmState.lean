import Mathlib.Data.Fintype.Card
import Mathlib.Logic.Function.Basic
import WirelessHub.Framework.Buffer
import WirelessHub.Firmware.Reassembly

/-!
# The arrays of the reassembly slot

`reasm_push` over `reasm_state_t` as it is laid out, with the flags, the fragments and their lengths
in three arrays of eight entries. The loop that delivers a transfer runs to the total that
its first fragment announced, which may be 255; the entries it reads are recorded with
their indices. Seen through `view` a call does what `Reasm.push` does.
-/

namespace WirelessHub.Firmware

open Framework

/-- `reasm_state_t`; `filled` is its field `have`. -/
structure ReasmState where
  active : Bool
  transferSeq : UInt16
  total : UInt8
  received : UInt8
  filled : Fin reasmMaxFrags → Bool
  data : Fin reasmMaxFrags → List UInt8
  lens : Fin reasmMaxFrags → UInt16

namespace ReasmState

def zero : ReasmState where
  active := false
  transferSeq := 0
  total := 0
  received := 0
  filled := fun _ => false
  data := fun _ => List.replicate reasmFragLen 0
  lens := fun _ => 0

/-- The reset at the first fragment of a transfer. -/
def opened (r : ReasmState) (f : FragHeader) : ReasmState :=
  if !r.active || r.transferSeq ≠ f.transferSeq then
    { zero with active := true, transferSeq := f.transferSeq, total := f.fragTotal }
  else r

/-- A fragment is stored unless its index is taken. -/
def put (r : ReasmState) (i : Fin reasmMaxFrags) (chunk : List UInt8) : ReasmState :=
  if !r.filled i then
    let copyLen := min chunk.length reasmFragLen
    { r with
      data := Function.update r.data i (store (r.data i) 0 (chunk.take copyLen))
      lens := Function.update r.lens i (UInt16.ofNat copyLen)
      filled := Function.update r.filled i true
      received := r.received + 1 }
  else r

/-- The bytes that `ops->send` gets for an index; behind the arrays nothing is known. -/
def fragment (r : ReasmState) (i : Nat) : List UInt8 :=
  if h : i < reasmMaxFrags then (r.data ⟨i, h⟩).take (r.lens ⟨i, h⟩).toNat else []

/-- The delivery loop over some indices, with the index of each entry it reads. -/
def deliver (r : ReasmState) : List Bool → List Nat → List (Nat × List UInt8)
  | _, [] => []
  | [], i :: is => (i, r.fragment i) :: r.deliver [] is
  | ok :: oks, i :: is => (i, r.fragment i) :: if ok then r.deliver oks is else []

/-- `reasm_push`, with what the delivery loop reads. -/
def push (r : ReasmState) (p : Push) : ReasmState × List (Nat × List UInt8) × Bool :=
  let f := p.header
  if h : f.fragTotal = 0 ∨ f.fragIdx ≥ f.fragTotal ∨ f.fragIdx.toNat ≥ reasmMaxFrags then
    (r, [], false)
  else
    let chunk := p.chunk.take reasmFragLen
    let i : Fin reasmMaxFrags :=
      ⟨f.fragIdx.toNat, Nat.lt_of_not_le fun hge => h (.inr (.inr hge))⟩
    let r := (r.opened f).put i chunk
    if r.received < r.total then (r, [], false)
    else ({ r with active := false }, r.deliver p.sends (List.range r.total.toNat), true)

/-- The slot as one entry for each index. -/
def view (r : ReasmState) : Reasm where
  active := r.active
  transferSeq := r.transferSeq
  total := r.total
  received := r.received
  slots i := if h : i < reasmMaxFrags then
      if r.filled ⟨i, h⟩ then some (r.fragment i) else none
    else none

/-- What holds of the lengths. -/
structure Sized (r : ReasmState) : Prop where
  le : ∀ i, (r.lens i).toNat ≤ reasmFragLen
  empty : ∀ i, r.filled i = false → r.lens i = 0

variable {r : ReasmState} {f : FragHeader} {p : Push} {i : Fin reasmMaxFrags} {chunk : List UInt8}

private theorem sized_zero : Sized zero := ⟨fun _ => Nat.zero_le _, fun _ _ => rfl⟩

private theorem Sized.opened (h : Sized r) (f : FragHeader) : Sized (r.opened f) := by
  rw [ReasmState.opened]
  split
  case isTrue => exact ⟨sized_zero.le, sized_zero.empty⟩
  case isFalse => exact h

private theorem toNat_copyLen (chunk : List UInt8) :
    (UInt16.ofNat (min chunk.length reasmFragLen)).toNat = min chunk.length reasmFragLen := by
  apply UInt16.toNat_ofNat_of_lt'
  exact Nat.lt_of_le_of_lt (Nat.min_le_right _ _) (by decide)

private theorem Sized.put (h : Sized r) (i : Fin reasmMaxFrags) (chunk : List UInt8) :
    Sized (r.put i chunk) := by
  rw [ReasmState.put]
  split
  case isTrue =>
    constructor
    · intro j
      by_cases hj : j = i
      · subst hj
        simp only [Function.update_self, toNat_copyLen]
        exact Nat.min_le_right _ _
      · simp only [Function.update_of_ne hj]
        exact h.le j
    · intro j hfilled
      by_cases hj : j = i
      · subst hj
        simp at hfilled
      · simp only [Function.update_of_ne hj] at hfilled ⊢
        exact h.empty j hfilled
  case isFalse => exact h

private theorem put_of_filled (h : r.filled i = true) : r.put i chunk = r := by
  rw [put, if_neg (by simp [h])]

private theorem put_of_free (h : r.filled i = false) :
    r.put i chunk = { r with
      data := Function.update r.data i (store (r.data i) 0 (chunk.take (min chunk.length reasmFragLen)))
      lens := Function.update r.lens i (UInt16.ofNat (min chunk.length reasmFragLen))
      filled := Function.update r.filled i true
      received := r.received + 1 } := by
  rw [put, if_pos (by simp [h])]

private theorem fragment_fin (r : ReasmState) (i : Fin reasmMaxFrags) :
    r.fragment i = (r.data i).take (r.lens i).toNat :=
  dif_pos i.isLt

private theorem fragment_put_self (h : r.filled i = false) :
    (r.put i chunk).fragment i = chunk.take reasmFragLen := by
  have hlen : (chunk.take (min chunk.length reasmFragLen)).length = min chunk.length reasmFragLen := by
    rw [List.length_take]
    omega
  have hmin : chunk.take (min chunk.length reasmFragLen) = chunk.take reasmFragLen := by
    rw [Nat.min_comm, ← List.take_take, List.take_length]
  rw [fragment_fin, put_of_free h]
  simp only [Function.update_self, toNat_copyLen, store_zero]
  rw [List.take_left' hlen, hmin]

private theorem fragment_put_of_ne {j : Fin reasmMaxFrags} (hj : j ≠ i) :
    (r.put i chunk).fragment j = r.fragment j := by
  rw [fragment_fin, fragment_fin]
  cases hfilled : r.filled i with
  | true => rw [put_of_filled hfilled]
  | false => simp only [put_of_free hfilled, Function.update_of_ne hj]

private theorem slots_view (r : ReasmState) (i : Fin reasmMaxFrags) :
    r.view.slots i = if r.filled i then some (r.fragment i) else none :=
  dif_pos i.isLt

private theorem slots_view_of_le {n : Nat} (h : reasmMaxFrags ≤ n) : r.view.slots n = none :=
  dif_neg (Nat.not_lt.mpr h)

private theorem view_zero : zero.view = Reasm.zero := by
  have hnone : zero.view.slots = fun _ => none := by
    funext n
    by_cases hn : n < reasmMaxFrags
    · exact slots_view zero ⟨n, hn⟩
    · exact slots_view_of_le (Nat.not_lt.mp hn)
  exact congrArg (Reasm.mk false 0 0 0) hnone

private theorem view_opened (r : ReasmState) (f : FragHeader) :
    (r.opened f).view = r.view.opened f := by
  have hreset : (!r.active || decide (r.transferSeq ≠ f.transferSeq)) = true ↔ r.view.Resets f := by
    simp [Reasm.Resets, view]
  have hnone : zero.view.slots = Reasm.zero.slots := congrArg Reasm.slots view_zero
  rw [opened, Reasm.opened]
  simp only [hreset]
  split
  case isTrue => exact congrArg (Reasm.mk true f.transferSeq f.fragTotal 0) hnone
  case isFalse => rfl

private theorem slots_view_put (chunk : List UInt8) (hfilled : r.filled i = false) (n : Nat) :
    (r.put i chunk).view.slots n =
      if n = i then some (chunk.take reasmFragLen) else r.view.slots n := by
  by_cases hn : n < reasmMaxFrags
  · have hput := slots_view (r.put i chunk) ⟨n, hn⟩
    by_cases heq : n = i
    · obtain rfl : ⟨n, hn⟩ = i := Fin.ext heq
      have htrue : (r.put ⟨n, hn⟩ chunk).filled ⟨n, hn⟩ = true := by
        rw [put_of_free hfilled]
        exact Function.update_self ..
      rw [htrue, if_pos rfl, fragment_put_self hfilled] at hput
      rw [if_pos rfl]
      exact hput
    · have hne : (⟨n, hn⟩ : Fin reasmMaxFrags) ≠ i := fun h => heq (congrArg Fin.val h)
      have hsame : (r.put i chunk).filled ⟨n, hn⟩ = r.filled ⟨n, hn⟩ := by
        rw [put_of_free hfilled]
        exact Function.update_of_ne hne ..
      rw [hsame, fragment_put_of_ne hne, ← slots_view] at hput
      rw [if_neg heq]
      exact hput
  · have hne : n ≠ i := fun h => hn (h ▸ i.isLt)
    rw [slots_view_of_le (Nat.not_lt.mp hn), if_neg hne, slots_view_of_le (Nat.not_lt.mp hn)]

private theorem view_put (hi : p.header.fragIdx.toNat = i) :
    (r.put i p.data).view = r.view.put p := by
  have hslot := slots_view r i
  cases hfilled : r.filled i with
  | true =>
    rw [hfilled, if_pos rfl] at hslot
    rw [put_of_filled hfilled, Reasm.put_of_some (by rw [hi, hslot]; exact Option.some_ne_none _)]
  | false =>
    rw [hfilled, if_neg Bool.false_ne_true] at hslot
    have hdata : p.data.take reasmFragLen = p.data := by
      rw [Push.data, List.take_take, Nat.min_self]
    have hslots := funext (slots_view_put p.data hfilled)
    rw [hdata] at hslots
    rw [Reasm.put_of_none (by rw [hi, hslot]), hi, ← hslots, put_of_free hfilled]
    rfl

/-- An entry that was never filled has the length zero, so it is sent as nothing. -/
theorem Sized.fragment_eq (h : Sized r) (n : Nat) : r.fragment n = (r.view.slots n).getD [] := by
  by_cases hn : n < reasmMaxFrags
  · have hslot := slots_view r ⟨n, hn⟩
    have hfragment := fragment_fin r ⟨n, hn⟩
    cases hfilled : r.filled ⟨n, hn⟩ with
    | true =>
      rw [hfilled, if_pos rfl] at hslot
      rw [hslot, Option.getD_some]
    | false =>
      rw [hfilled, if_neg Bool.false_ne_true] at hslot
      rw [h.empty _ hfilled] at hfragment
      rw [hslot, Option.getD_none]
      exact hfragment
  · rw [slots_view_of_le (Nat.not_lt.mp hn)]
    exact dif_neg hn

private theorem Sized.deliver_eq (h : Sized r) (sends : List Bool) (is : List Nat) :
    (r.deliver sends is).map (fun x => .opsSend x.2) =
      sendFragments sends (is.map fun n => (r.view.slots n).getD []) := by
  induction is generalizing sends with
  | nil =>
    cases sends with
    | nil => rfl
    | cons ok oks => rfl
  | cons n is ih =>
    cases sends with
    | nil =>
      rw [deliver, List.map_cons, List.map_cons, sendFragments, ih, h.fragment_eq]
    | cons ok oks =>
      rw [deliver, List.map_cons, List.map_cons, sendFragments, h.fragment_eq]
      cases ok with
      | true => rw [if_pos rfl, if_pos rfl, ih]
      | false => rfl

private theorem mem_of_mem_deliver {sends : List Bool} {is : List Nat} {x : Nat × List UInt8}
    (h : x ∈ r.deliver sends is) : x.1 ∈ is := by
  induction is generalizing sends with
  | nil =>
    rw [deliver] at h
    cases h
  | cons n is ih =>
    cases sends with
    | nil =>
      rcases List.mem_cons.mp h with rfl | h
      · exact List.mem_cons_self
      · exact List.mem_cons_of_mem n (ih h)
    | cons ok oks =>
      rcases List.mem_cons.mp h with rfl | h
      · exact List.mem_cons_self
      · cases ok with
        | true => exact List.mem_cons_of_mem n (ih h)
        | false => cases h

/-- The slot with a fragment stored, before it is tested for completeness. -/
def stored (r : ReasmState) (p : Push) (h : Reasm.Accepts p.header) : ReasmState :=
  (r.opened p.header).put ⟨p.header.fragIdx.toNat, (Reasm.accepts_iff.mp h).2⟩ p.data

private theorem view_stored (h : Reasm.Accepts p.header) :
    (r.stored p h).view = r.view.stored p := by
  rw [stored, view_put rfl, view_opened, Reasm.stored]

private theorem push_of_not_accepts (h : ¬Reasm.Accepts p.header) : r.push p = (r, [], false) :=
  dif_pos (not_not.mp h)

private theorem push_of_accepts (h : Reasm.Accepts p.header) :
    r.push p =
      if (r.stored p h).received < (r.stored p h).total then (r.stored p h, [], false)
      else ({ r.stored p h with active := false },
        (r.stored p h).deliver p.sends (List.range (r.stored p h).total.toNat), true) :=
  dif_neg h

private theorem Sized.stored (hs : Sized r) (h : Reasm.Accepts p.header) : Sized (r.stored p h) :=
  (hs.opened p.header).put _ _

private theorem Sized.push (hs : Sized r) (p : Push) : Sized (r.push p).1 := by
  by_cases h : Reasm.Accepts p.header
  · rw [push_of_accepts h]
    split
    case isTrue => exact hs.stored h
    case isFalse => exact ⟨(hs.stored h).le, (hs.stored h).empty⟩
  · rw [push_of_not_accepts h]
    exact hs

/-- A call over the arrays does what the call over the slots does. -/
theorem view_push (hs : Sized r) (p : Push) :
    ((r.push p).1.view, (r.push p).2.1.map (fun x => Effect.opsSend x.2), (r.push p).2.2) =
      r.view.pushed p := by
  rw [Reasm.pushed_eq]
  by_cases h : Reasm.Accepts p.header
  · have hview := view_stored (r := r) h
    have hreceived : (r.stored p h).received = (r.view.stored p).received := by rw [← hview]; rfl
    have htotal : (r.stored p h).total = (r.view.stored p).total := by rw [← hview]; rfl
    rw [push_of_accepts h, if_neg (not_not.mpr h), ← hreceived, ← htotal]
    split
    case isTrue => rw [hview, List.map_nil]
    case isFalse =>
      rw [(hs.stored h).deliver_eq, Reasm.contents, ← hview]
      rfl
  · rw [push_of_not_accepts h, if_pos h, List.map_nil]

def after (ps : List Push) : ReasmState := ps.foldl (fun r p => (r.push p).1) zero

private theorem after_concat (ps : List Push) (p : Push) : after (ps ++ [p]) =
    ((after ps).push p).1 := by
  rw [after, List.foldl_append]
  rfl

private theorem sized_after (ps : List Push) : Sized (after ps) := by
  induction ps using List.reverseRecOn with
  | nil => exact sized_zero
  | append_singleton ps p ih =>
    rw [after_concat]
    exact ih.push p

private theorem view_after (ps : List Push) : (after ps).view = (Reasm.after ps).1 := by
  induction ps using List.reverseRecOn with
  | nil => exact view_zero
  | append_singleton ps p ih =>
    rw [after_concat, Reasm.after_concat, ← ih, ← view_push (sized_after ps)]

private theorem held_view (r : ReasmState) :
    r.view.held = (Finset.univ.filter fun i => r.filled i = true).map Fin.valEmbedding := by
  ext n
  simp only [Reasm.held, Finset.mem_filter, Finset.mem_range, Finset.mem_map, Finset.mem_univ,
    true_and, Fin.valEmbedding_apply]
  constructor
  · rintro ⟨hn, hslot⟩
    rw [slots_view r ⟨n, hn⟩] at hslot
    refine ⟨⟨n, hn⟩, ?_, rfl⟩
    by_contra hfilled
    exact hslot (if_neg hfilled)
  · rintro ⟨i, hfilled, rfl⟩
    refine ⟨i.isLt, ?_⟩
    rw [slots_view, if_pos hfilled]
    exact Option.some_ne_none _

private theorem ready_view_after (ps : List Push) : Reasm.Ready (after ps).view
    (Reasm.after ps).2 := by
  rw [view_after]
  exact Reasm.ready_after ps

private theorem lt_of_mem_push {ps : List Push} {x : Nat × List UInt8}
    (hx : x ∈ ((after ps).push p).2.1) : x.1 < reasmMaxFrags := by
  have hview := view_push (sized_after ps) p
  by_cases h : Reasm.Accepts p.header
  · have hpush := push_of_accepts (r := after ps) h
    split at hpush
    case isTrue =>
      rw [hpush] at hx
      cases hx
    case isFalse =>
      have hdone : ((after ps).view.pushed p).2.2 = true := by rw [← hview, hpush]
      have hfull := ((ready_view_after ps).complete hdone).full
      rw [← view_stored h] at hfull
      rw [hpush] at hx
      have hlt := List.mem_range.mp (mem_of_mem_deliver hx)
      calc x.1 < ((after ps).stored p h).total.toNat := hlt
        _ = ((after ps).stored p h).view.held.card := hfull.symm
        _ ≤ (Finset.range reasmMaxFrags).card := Finset.card_filter_le _ _
        _ = reasmMaxFrags := Finset.card_range _
  · rw [push_of_not_accepts h] at hx
    cases hx

/-- Between the calls the counters and lengths of an open slot are in range, and no call reads
behind the arrays, whatever the headers say. -/
theorem reasm_state_in_range (ps : List Push) :
    ((after ps).active = true →
      (after ps).received.toNat = (Finset.univ.filter fun i => (after ps).filled i = true).card ∧
      (after ps).received.toNat < (after ps).total.toNat ∧
      1 ≤ (after ps).total.toNat ∧ (after ps).total.toNat ≤ 255 ∧
      ∀ i, ((after ps).lens i).toNat ≤ reasmFragLen) ∧
    ∀ p, ∀ x ∈ ((after ps).push p).2.1, x.1 < reasmMaxFrags := by
  refine ⟨fun hactive => ?_, fun p x hx => lt_of_mem_push hx⟩
  have hready := ready_view_after ps
  have hreceived := (hready.holds hactive).received
  rw [held_view, Finset.card_map] at hreceived
  have hlt : (after ps).received.toNat < (after ps).total.toNat :=
    UInt8.lt_iff_toNat_lt.mp (hready.incomplete hactive)
  have hmax := (after ps).total.toNat_lt
  exact ⟨hreceived, hlt, by omega, by omega, (sized_after ps).le⟩

/-- The second of three fragments, twice, and one that announces 255. -/
def samplePushes : List Push :=
  [⟨⟨7, 1, 3⟩, [1, 2], []⟩, ⟨⟨7, 1, 3⟩, [3], []⟩, ⟨⟨7, 4, 255⟩, [4], []⟩]

theorem reasm_state_in_range_sample :
    (after samplePushes).active = true ∧
    (after samplePushes).received.toNat =
      (Finset.univ.filter fun i => (after samplePushes).filled i = true).card ∧
    (after samplePushes).received.toNat < (after samplePushes).total.toNat :=
  ⟨by decide, ((reasm_state_in_range samplePushes).1 (by decide)).1,
    ((reasm_state_in_range samplePushes).1 (by decide)).2.1⟩

end ReasmState
end WirelessHub.Firmware
