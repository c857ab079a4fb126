import Mathlib.Data.Finset.Card
import WirelessHub.Firmware.DeviceSession

/-!
# The reassembly slot

`reasm_push` keeps one transfer at a time. What the slot holds is determined by the
fragments that were accepted since it was last reset: for each index the first chunk that
came with it, their number, and the total that the first of them announced. A delivery is
made when the number reaches that total, whatever the totals of the later fragments were.
-/

namespace WirelessHub.Firmware

/-- A call of `reasm_push`: a fragment, and what the calls of `ops->send` answer. -/
structure Push where
  header : FragHeader
  chunk : List UInt8
  sends : List Bool

namespace Push

/-- What of the chunk is stored. -/
def data (p : Push) : List UInt8 := p.chunk.take reasmFragLen

/-- The call that `session_down_task` makes for a datagram. -/
def ofDatagram (bytes : List UInt8) (sends : List Bool) : Push where
  header := FragHeader.decode ((bytes.take rxBufSize).drop Header.size)
  chunk := ((bytes.take rxBufSize).drop Header.size).drop FragHeader.size
  sends := sends

def IsRead (p : Push) : Prop := ∃ bytes, p = .ofDatagram bytes p.sends

theorem IsRead.data_eq {p : Push} (h : p.IsRead) : p.data = p.chunk := by
  obtain ⟨bytes, hp⟩ := h
  refine List.take_of_length_le ?_
  rw [hp, ofDatagram, List.length_drop, List.length_drop, List.length_take]
  have hbuf : rxBufSize ≤ reasmFragLen := by decide
  omega

end Push

namespace Reasm

variable {r : Reasm} {since : List Push} {p : Push}

def pushed (r : Reasm) (p : Push) : Reasm × List Effect × Bool := r.push p.header p.chunk p.sends

theorem onDatagram_of_frag {s : Session} {inBuf bytes : List UInt8} {a : Answers}
    (hmode : s.cfg.usbipMode = false)
    (hcmd : (Header.decode (bytes.take rxBufSize)).cmdType = CmdType.rawFrag.toByte)
    (hlen : Header.size + FragHeader.size ≤ (bytes.take rxBufSize).length) :
    onDatagram s inBuf bytes a =
      let r := s.reasm.pushed (.ofDatagram bytes a.sends)
      ⟨{ s with reasm := r.1 }, inBuf, r.2.1⟩ := by
  have hhdr : ¬(bytes.take rxBufSize).length < Header.size := by omega
  have hfrag : ¬((bytes.take rxBufSize).drop Header.size).length < FragHeader.size := by
    rw [List.length_drop]
    omega
  simp only [onDatagram, if_neg hhdr, hcmd, if_neg hfrag, hmode, Bool.false_eq_true, if_false, if_true,
    show CmdType.rawFrag.toByte ≠ CmdType.rawData.toByte by decide]
  rfl

def Accepts (f : FragHeader) : Prop :=
  ¬(f.fragTotal = 0 ∨ f.fragIdx ≥ f.fragTotal ∨ f.fragIdx.toNat ≥ reasmMaxFrags)
  deriving Decidable

theorem accepts_iff {f : FragHeader} :
    Accepts f ↔ f.fragIdx < f.fragTotal ∧ f.fragIdx.toNat < reasmMaxFrags := by
  simp only [Accepts, not_or, ge_iff_le, not_le, UInt8.not_le]
  refine ⟨fun h => h.2, fun h => ⟨fun hzero => ?_, h⟩⟩
  rw [hzero] at h
  exact UInt8.not_lt_zero h.1

def Resets (r : Reasm) (f : FragHeader) : Prop := r.active = false ∨ r.transferSeq ≠ f.transferSeq
  deriving Decidable

/-- The slot when a fragment is about to be stored in it. -/
def opened (r : Reasm) (f : FragHeader) : Reasm :=
  if r.Resets f then
    { Reasm.zero with active := true, transferSeq := f.transferSeq, total := f.fragTotal }
  else r

def put (r : Reasm) (p : Push) : Reasm :=
  if r.slots p.header.fragIdx.toNat = none then
    { r with
      slots := fun i => if i = p.header.fragIdx.toNat then some p.data else r.slots i
      received := r.received + 1 }
  else r

/-- The slot with a fragment stored, before it is tested for completeness. -/
def stored (r : Reasm) (p : Push) : Reasm := (r.opened p.header).put p

/-- The fragments that were accepted since the slot was last reset. -/
def record (r : Reasm) (since : List Push) (p : Push) : List Push :=
  if Accepts p.header then (if r.Resets p.header then [] else since) ++ [p] else since

def contents (r : Reasm) : List (List UInt8) :=
  (List.range r.total.toNat).map fun i => (r.slots i).getD []

theorem pushed_eq (r : Reasm) (p : Push) :
    r.pushed p =
      if ¬Accepts p.header then (r, [], false)
      else if (r.stored p).received < (r.stored p).total then (r.stored p, [], false)
      else ({ r.stored p with active := false }, sendFragments p.sends (r.stored p).contents,
        true) := by
  have hreset : (!r.active || decide (r.transferSeq ≠ p.header.transferSeq)) = true ↔
      r.Resets p.header := by
    simp [Resets]
  simp only [pushed, push, Accepts, not_not, stored, opened, put, Push.data, contents, hreset,
    Option.isNone_iff_eq_none]

/-- The indices that are filled. -/
def held (r : Reasm) : Finset Nat := (Finset.range reasmMaxFrags).filter fun i => r.slots i ≠ none

/-- The slot holds what the fragments since the last reset brought. -/
structure Holds (r : Reasm) (since : List Push) : Prop where
  first : ∀ p ∈ since.head?, p.header.fragTotal = r.total
  accepted : ∀ p ∈ since, Accepts p.header
  transfer : ∀ p ∈ since, p.header.transferSeq = r.transferSeq
  slots : ∀ i, r.slots i = (since.find? fun p => p.header.fragIdx.toNat = i).map Push.data
  received : r.received.toNat = r.held.card

theorem Holds.mem_held (h : Holds r since) {i : Nat} :
    i ∈ r.held ↔ ∃ p ∈ since, p.header.fragIdx.toNat = i := by
  have hslot : r.slots i ≠ none ↔ ∃ p ∈ since, p.header.fragIdx.toNat = i := by
    rw [h.slots, Ne, Option.map_eq_none_iff, List.find?_eq_none]
    simp
  rw [held, Finset.mem_filter, hslot, Finset.mem_range, and_iff_right_iff_imp]
  rintro ⟨p, hp, rfl⟩
  exact (accepts_iff.mp (h.accepted p hp)).2

private theorem Holds.received_le (h : Holds r since) : r.received.toNat ≤ reasmMaxFrags := by
  rw [h.received]
  exact (Finset.card_filter_le _ _).trans (Finset.card_range _).le

theorem put_of_none (h : r.slots p.header.fragIdx.toNat = none) :
    r.put p = { r with
      slots := fun i => if i = p.header.fragIdx.toNat then some p.data else r.slots i
      received := r.received + 1 } :=
  if_pos h

theorem put_of_some (h : r.slots p.header.fragIdx.toNat ≠ none) : r.put p = r := if_neg h

@[simp] theorem put_total : (r.put p).total = r.total := by
  unfold put
  split <;> rfl

@[simp] theorem put_transferSeq : (r.put p).transferSeq = r.transferSeq := by
  unfold put
  split <;> rfl

@[simp] theorem put_active : (r.put p).active = r.active := by
  unfold put
  split <;> rfl

private theorem held_put (hidx : p.header.fragIdx.toNat < reasmMaxFrags)
    (hslot : r.slots p.header.fragIdx.toNat = none) :
    (r.put p).held = insert p.header.fragIdx.toNat r.held := by
  ext i
  simp only [put_of_none hslot, held, Finset.mem_filter, Finset.mem_range, Finset.mem_insert]
  by_cases hi : i = p.header.fragIdx.toNat
  · simp [hi, hidx]
  · simp [hi]

private theorem Holds.slots_put (h : Holds r since) (p : Push) (i : Nat) :
    (r.put p).slots i =
      ((since ++ [p]).find? fun q => q.header.fragIdx.toNat = i).map Push.data := by
  have hi := h.slots i
  rw [List.find?_append, List.find?_singleton]
  by_cases hidx : p.header.fragIdx.toNat = i
  · subst hidx
    cases hfind : since.find? fun q => q.header.fragIdx.toNat = p.header.fragIdx.toNat with
    | none =>
      rw [hfind, Option.map_none] at hi
      simp [put_of_none hi]
    | some q =>
      rw [hfind, Option.map_some] at hi
      rw [put_of_some (by simp [hi]), hi]
      rfl
  · rw [if_neg (by simpa using hidx), Option.or_none, ← hi]
    by_cases hslot : r.slots p.header.fragIdx.toNat = none
    · rw [put_of_none hslot]
      exact if_neg (Ne.symm hidx)
    · rw [put_of_some hslot]

private theorem Holds.received_put (h : Holds r since)
    (hidx : p.header.fragIdx.toNat < reasmMaxFrags) :
    (r.put p).received.toNat = (r.put p).held.card := by
  by_cases hslot : r.slots p.header.fragIdx.toNat = none
  · have hle := h.received_le
    have hreceived : (r.put p).received.toNat = r.received.toNat + 1 := by
      rw [put_of_none hslot, UInt8.toNat_add]
      exact Nat.mod_eq_of_lt (Nat.lt_of_le_of_lt (Nat.succ_le_succ hle) (by decide))
    have hnew : p.header.fragIdx.toNat ∉ r.held := by simp [held, hslot]
    rw [hreceived, h.received, held_put hidx hslot, Finset.card_insert_of_notMem hnew]
  · rw [put_of_some hslot, h.received]

private theorem Holds.put (h : Holds r since) (hacc : Accepts p.header)
    (hseq : p.header.transferSeq = r.transferSeq)
    (hfirst : since = [] → p.header.fragTotal = r.total) : Holds (r.put p) (since ++ [p]) where
  first := by
    rw [put_total]
    cases since with
    | nil => simpa using hfirst rfl
    | cons a as => simpa using h.first
  accepted q hq := by
    rcases List.mem_append.mp hq with hq | hq
    · exact h.accepted q hq
    · exact List.mem_singleton.mp hq ▸ hacc
  transfer q hq := by
    rw [put_transferSeq]
    rcases List.mem_append.mp hq with hq | hq
    · exact h.transfer q hq
    · exact List.mem_singleton.mp hq ▸ hseq
  slots := h.slots_put p
  received := h.received_put (accepts_iff.mp hacc).2

/-- The slot between two calls: while a transfer is open it holds what was recorded for it,
and is not complete. -/
structure Ready (r : Reasm) (since : List Push) : Prop where
  holds : r.active = true → Holds r since
  begun : r.active = true → since ≠ []
  incomplete : r.active = true → r.received < r.total

private theorem ready_of_inactive (h : r.active = false) (since : List Push) : Ready r since := by
  constructor <;> simp [h]

theorem not_resets {f : FragHeader} (h : ¬r.Resets f) :
    r.active = true ∧ r.transferSeq = f.transferSeq := by
  simpa [Resets] using h

private theorem Ready.holds_stored (h : Ready r since) (hacc : Accepts p.header) :
    Holds (r.stored p) (r.record since p) := by
  rw [record, if_pos hacc, stored, opened]
  by_cases hreset : r.Resets p.header
  · rw [if_pos hreset, if_pos hreset]
    refine Holds.put ⟨by simp, by simp, by simp, fun _ => rfl, ?_⟩ hacc rfl fun _ => rfl
    simp [held, zero]
  · rw [if_neg hreset, if_neg hreset]
    obtain ⟨hactive, hseq⟩ := not_resets hreset
    exact (h.holds hactive).put hacc hseq.symm fun hnil => absurd hnil (h.begun hactive)

private theorem Ready.received_opened_lt (h : Ready r since) (hacc : Accepts p.header) :
    (r.opened p.header).received < (r.opened p.header).total := by
  rw [opened]
  split
  case isTrue => exact UInt8.pos_iff_ne_zero.mpr fun hzero => hacc (.inl hzero)
  case isFalse hreset => exact h.incomplete (not_resets hreset).1

/-- A count that was below the total does not pass it by one more fragment. -/
theorem Ready.received_stored_le (h : Ready r since) (hacc : Accepts p.header) :
    (r.stored p).received ≤ (r.stored p).total := by
  have hlt := h.received_opened_lt hacc
  rw [stored, put_total]
  by_cases hslot : (r.opened p.header).slots p.header.fragIdx.toNat = none
  · rw [put_of_none hslot, UInt8.le_iff_toNat_le, UInt8.toNat_add]
    exact (Nat.mod_le _ _).trans (UInt8.lt_iff_toNat_lt.mp hlt)
  · rw [put_of_some hslot]
    exact UInt8.le_of_lt hlt

private theorem record_ne_nil (hacc : Accepts p.header) : r.record since p ≠ [] := by
  simp [record, hacc]

private theorem Ready.pushed (h : Ready r since) (p : Push) : Ready (r.pushed p).1
    (r.record since p) := by
  rw [pushed_eq]
  split
  case isTrue hacc =>
    rw [record, if_neg hacc]
    exact h
  case isFalse hacc =>
    rw [not_not] at hacc
    split
    case isTrue hlt =>
      exact ⟨fun _ => h.holds_stored hacc, fun _ => record_ne_nil hacc, fun _ => hlt⟩
    case isFalse => exact ready_of_inactive rfl _

/-- What a call finds that completes a transfer. -/
structure Complete (r : Reasm) (since : List Push) (effects : List Effect) (p : Push) : Prop where
  holds : Holds r since
  full : r.held.card = r.total.toNat
  last : p ∈ since
  sent : effects = sendFragments p.sends r.contents

theorem Ready.complete (h : Ready r since) (hdone : (r.pushed p).2.2 = true) :
    Complete (r.stored p) (r.record since p) (r.pushed p).2.1 p := by
  rw [pushed_eq] at hdone ⊢
  split at hdone
  case isTrue => cases hdone
  case isFalse hacc =>
    rw [not_not] at hacc
    split at hdone
    case isTrue => cases hdone
    case isFalse hge =>
      have hholds := h.holds_stored hacc
      have heq : (r.stored p).received = (r.stored p).total :=
        UInt8.le_antisymm (h.received_stored_le hacc) (UInt8.not_lt.mp hge)
      refine ⟨hholds, by rw [← hholds.received, heq], by simp [record, hacc], ?_⟩
      rw [if_neg (not_not.mpr hacc), if_neg hge]

private theorem completes_of_sent (h : (r.pushed p).2.1 ≠ []) : (r.pushed p).2.2 = true := by
  rw [pushed_eq] at h ⊢
  split at h
  case isTrue => exact absurd rfl h
  case isFalse hacc =>
    rw [if_neg hacc]
    split at h
    case isTrue => exact absurd rfl h
    case isFalse hge => rw [if_neg hge]

/-- The slot after some calls on a zeroed one, with the fragments since the last reset. -/
def after (ps : List Push) : Reasm × List Push :=
  ps.foldl (fun s p => ((s.1.pushed p).1, s.1.record s.2 p)) (.zero, [])

theorem after_concat (ps : List Push) (p : Push) :
    after (ps ++ [p]) = (((after ps).1.pushed p).1, (after ps).1.record (after ps).2 p) := by
  rw [after, List.foldl_append]
  rfl

theorem ready_after (ps : List Push) : Ready (after ps).1 (after ps).2 := by
  induction ps using List.reverseRecOn with
  | nil => exact ready_of_inactive rfl []
  | append_singleton ps p ih =>
    rw [after_concat]
    exact ih.pushed p

theorem after_subset (ps : List Push) : (after ps).2 ⊆ ps := by
  induction ps using List.reverseRecOn with
  | nil => exact List.Subset.refl []
  | append_singleton ps p ih =>
    rw [after_concat, record]
    intro q hq
    split at hq
    case isTrue =>
      rcases List.mem_append.mp hq with hq | hq
      · split at hq
        · cases hq
        · exact List.mem_append_left _ (ih hq)
      · exact List.mem_append_right _ hq
    case isFalse => exact List.mem_append_left _ (ih hq)

end Reasm

private theorem getElem?_sendFragments {sends : List Bool} {ds : List (List UInt8)} {i : Nat}
    {e : Effect}
    (h : (sendFragments sends ds)[i]? = some e) : ∃ d, ds[i]? = some d ∧ e = .opsSend d := by
  induction sends, ds using sendFragments.induct generalizing i with
  | case1 => simp [sendFragments] at h
  | case2 d ds ih =>
    cases i with
    | zero => exact ⟨d, rfl, by simpa [sendFragments] using h.symm⟩
    | succ i => exact ih (by simpa [sendFragments] using h)
  | case3 ok oks d ds ih =>
    cases i with
    | zero => exact ⟨d, rfl, by simpa [sendFragments] using h.symm⟩
    | succ i =>
      cases ok with
      | true => exact ih (by simpa [sendFragments] using h)
      | false => simp [sendFragments] at h

namespace Reasm

variable {r : Reasm} {since : List Push} {p : Push} {effects : List Effect}

/-- Each position of a delivery is the chunk of a fragment with its index. -/
def Intact (since : List Push) (transferSeq : UInt16) (total : Nat) (effects : List Effect) : Prop :=
  ∀ i < total, ∃ q ∈ since, q.header.transferSeq = transferSeq ∧ q.header.fragIdx.toNat = i ∧
    ∀ e, effects[i]? = some e → e = .opsSend q.chunk

/-- No fragment has an index beyond the total that the first one announced. -/
def Fitting (since : List Push) : Prop :=
  ∀ first ∈ since.head?, ∀ q ∈ since, q.header.fragIdx < first.header.fragTotal
  deriving Decidable

theorem Holds.exists_first (h : Holds r since) (hne : since ≠ []) :
    ∃ first, since.head? = some first ∧ first.header.fragTotal = r.total := by
  have hhead := h.first
  cases since with
  | nil => exact absurd rfl hne
  | cons a as => exact ⟨a, rfl, hhead a rfl⟩

private theorem Complete.fitting_iff (h : Complete r since effects p) :
    Fitting since ↔ r.held ⊆ Finset.range r.total.toNat := by
  obtain ⟨first, hfirst, htotal⟩ := h.holds.exists_first (List.ne_nil_of_mem h.last)
  constructor
  · intro hfit i hi
    obtain ⟨q, hq, rfl⟩ := h.holds.mem_held.mp hi
    exact Finset.mem_range.mpr (htotal ▸ UInt8.lt_iff_toNat_lt.mp (hfit first hfirst q hq))
  · intro hsub f hf q hq
    obtain rfl : first = f := Option.some.inj (hfirst.symm.trans hf)
    have hmem := hsub (h.holds.mem_held.mpr ⟨q, hq, rfl⟩)
    exact htotal ▸ UInt8.lt_iff_toNat_lt.mpr (Finset.mem_range.mp hmem)

theorem Holds.slot_of_mem_held (h : Holds r since) {i : Nat} (hi : i ∈ r.held) :
    ∃ q ∈ since, q.header.fragIdx.toNat = i ∧ r.slots i = some q.data := by
  obtain ⟨chunk, hchunk⟩ := Option.ne_none_iff_exists'.mp (Finset.mem_filter.mp hi).2
  have hslot := h.slots i
  rw [hchunk] at hslot
  obtain ⟨q, hfind, rfl⟩ := Option.map_eq_some_iff.mp hslot.symm
  exact ⟨q, List.mem_of_find?_eq_some hfind, by simpa using List.find?_some hfind, hchunk⟩

private theorem Complete.exists_of_mem_held (h : Complete r since effects p) {i : Nat}
    (hi : i ∈ r.held) : ∃ q ∈ since, q.header.transferSeq = p.header.transferSeq ∧
      q.header.fragIdx.toNat = i ∧ ∀ e, effects[i]? = some e → e = .opsSend q.data := by
  obtain ⟨q, hq, hidx, hchunk⟩ := h.holds.slot_of_mem_held hi
  have hseq := (h.holds.transfer q hq).trans (h.holds.transfer p h.last).symm
  refine ⟨q, hq, hseq, hidx, fun e he => ?_⟩
  rw [h.sent] at he
  obtain ⟨d, hd, rfl⟩ := getElem?_sendFragments he
  rw [contents, List.getElem?_map] at hd
  obtain ⟨j, hj, rfl⟩ := Option.map_eq_some_iff.mp hd
  obtain rfl : i = j := by simpa using (List.getElem?_eq_some_iff.mp hj).2
  rw [hchunk, Option.getD_some]

theorem Complete.held_eq (h : Complete r since effects p) (hfit : Fitting since) :
    r.held = Finset.range r.total.toNat :=
  Finset.eq_of_subset_of_card_le (h.fitting_iff.mp hfit) (by rw [h.full, Finset.card_range])

private theorem Complete.intact_iff (h : Complete r since effects p)
    (hread : ∀ q ∈ since, q.IsRead) :
    Intact since p.header.transferSeq r.total.toNat effects ↔ Fitting since := by
  constructor
  · intro hintact
    have hsub : Finset.range r.total.toNat ⊆ r.held := fun i hi => by
      obtain ⟨q, hq, -, hidx, -⟩ := hintact i (Finset.mem_range.mp hi)
      exact h.holds.mem_held.mpr ⟨q, hq, hidx⟩
    have hcard : r.held.card ≤ (Finset.range r.total.toNat).card := by rw [h.full, Finset.card_range]
    exact h.fitting_iff.mpr (Finset.eq_of_subset_of_card_le hsub hcard).ge
  · intro hfit i hi
    obtain ⟨q, hq, hseq, hidx, he⟩ := h.exists_of_mem_held (h.held_eq hfit ▸ Finset.mem_range.mpr hi)
    rw [(hread q hq).data_eq] at he
    exact ⟨q, hq, hseq, hidx, he⟩

private theorem total_pushed (h : (r.pushed p).2.2 = true) : (r.pushed p).1.total =
    (r.stored p).total := by
  rw [pushed_eq] at h ⊢
  split at h
  case isTrue => cases h
  case isFalse hacc =>
    rw [if_neg hacc]
    split <;> rfl

/-- A delivery has every fragment at its place exactly if no fragment since the last reset
has an index beyond the total of the first: the count can only be right then. -/
theorem delivery_intact_iff (ps : List Push) (p : Push) (hread : ∀ q ∈ ps ++ [p], q.IsRead)
    (hsent : ((after ps).1.pushed p).2.1 ≠ []) :
    Intact (after (ps ++ [p])).2 p.header.transferSeq (after (ps ++ [p])).1.total.toNat
        ((after ps).1.pushed p).2.1 ↔
      Fitting (after (ps ++ [p])).2 := by
  have hdone := completes_of_sent hsent
  have hsince : ∀ q ∈ (after (ps ++ [p])).2, q.IsRead := fun q hq => hread q (after_subset _ hq)
  rw [after_concat] at hsince ⊢
  rw [total_pushed hdone]
  exact ((ready_after ps).complete hdone).intact_iff hsince

/-- A one-byte fragment of transfer 7, as it stands in a datagram. -/
def shortPush (idx total data : UInt8) : Push :=
  .ofDatagram [CmdType.rawFrag.toByte, 2, 0, 0, 5, 0, 7, 0, idx, total, data] []

private theorem shortPush_isRead (idx total data : UInt8) :
    (shortPush idx total data).IsRead := ⟨_, rfl⟩

theorem delivery_intact_of_two :
    Intact [shortPush 0 2 10, shortPush 1 2 11] 7 2 [.opsSend [10], .opsSend [11]] :=
  (delivery_intact_iff [shortPush 0 2 10] (shortPush 1 2 11)
    (by simp [shortPush_isRead]) (by decide)).mpr (by decide)

/-- After the first of two fragments, a fragment of the same transfer with index 5 completes
the count: the second position is sent empty. -/
theorem delivery_not_intact :
    (∀ q ∈ [shortPush 0 2 10, shortPush 5 8 11], q.IsRead) ∧
    ((after [shortPush 0 2 10]).1.pushed (shortPush 5 8 11)).2.1 = [.opsSend [10], .opsSend []] ∧
      ¬Intact (after [shortPush 0 2 10, shortPush 5 8 11]).2 7
        (after [shortPush 0 2 10, shortPush 5 8 11]).1.total.toNat
        ((after [shortPush 0 2 10]).1.pushed (shortPush 5 8 11)).2.1 := by
  refine ⟨by simp [shortPush_isRead], rfl, fun hintact => ?_⟩
  obtain ⟨q, hq, -, hidx, -⟩ := hintact 1 (by decide)
  obtain rfl | rfl : q = shortPush 0 2 10 ∨ q = shortPush 5 8 11 := by
    simpa using (show q ∈ [shortPush 0 2 10, shortPush 5 8 11] from hq)
  · exact absurd hidx (by decide)
  · exact absurd hidx (by decide)

end Reasm
end WirelessHub.Firmware
