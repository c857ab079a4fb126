import WirelessHub.Firmware.Reassembly
import WirelessHub.Framework.Offsets

/-!
# Delivery of fragmented frames

What the reassembly slot does with the fragments of `send_raw`, in any order, with loss and
duplication. A delivery is always one of the frames, and a stretch with all fragments of a
frame delivers it. The slot forgets a transfer when it delivers it, so a second such stretch
delivers the frame again.
-/

namespace WirelessHub.Firmware

open Framework

def fragCount (data : List UInt8) : Nat := (data.length + mtuPayload - 1) / mtuPayload

/-- A call of `reasm_push` for a datagram that `send_raw` sent for the frame. -/
def Push.IsFragmentOf (p : Push) (transferSeq : UInt16) (data : List UInt8) : Prop :=
  ∃ (s : Session) (bytes : List UInt8), s.outTransferSeq = transferSeq ∧
    .sendto s.dest bytes ∈ (s.sendRaw data).2 ∧ p = .ofDatagram bytes p.sends

def Session.fragHeader (s : Session) (data : List UInt8) (i : Nat) : Header where
  cmdType := CmdType.rawFrag.toByte
  deviceId := s.cfg.deviceId
  endpoint := 0
  seq := s.seq + UInt8.ofNat i
  payloadLen := UInt16.ofNat (FragHeader.size + (block mtuPayload data i).length)

theorem Session.fragment_eq (s : Session) (t : UInt16) (n : Nat) (data : List UInt8) (i : Nat) :
    s.fragment t n data i = (s.fragHeader data i).encode ++
      (FragHeader.encode ⟨t, UInt8.ofNat i, UInt8.ofNat n⟩ ++ block mtuPayload data i) := by
  have hlen : (if i * mtuPayload + mtuPayload ≤ data.length then mtuPayload
      else data.length - i * mtuPayload) = (block mtuPayload data i).length := by
    rw [block, List.length_take, List.length_drop]
    split <;> omega
  have hchunk : (data.drop (i * mtuPayload)).take (block mtuPayload data i).length =
      block mtuPayload data i := by
    rw [block, List.length_take, ← List.take_eq_take_min]
  unfold fragment fragHeader
  dsimp only
  rw [hlen, hchunk, List.append_assoc]

private theorem Session.mem_sendRaw {s : Session} {data bytes : List UInt8} (hmin : mtuPayload < data.length)
    (hmax : fragCount data ≤ 255) (h : .sendto s.dest bytes ∈ (s.sendRaw data).2) :
    ∃ i < fragCount data, bytes = s.fragment s.outTransferSeq (fragCount data) data i := by
  unfold sendRaw at h
  cases hsock : s.sock with
  | none => simp [hsock] at h
  | some fd =>
    have hcount : ¬(data.length + mtuPayload - 1) / mtuPayload > 255 := Nat.not_lt.mpr hmax
    simp only [hsock, if_neg (Nat.not_le.mpr hmin), if_neg hcount] at h
    obtain ⟨i, hi, heq⟩ := List.mem_map.mp h
    exact ⟨i, List.mem_range.mp hi, (Effect.sendto.inj heq).2.symm⟩

private theorem Push.ofDatagram_fragment (hdr : Header) {f : FragHeader} {chunk : List UInt8}
    (h : chunk.length ≤ mtuPayload) (sends : List Bool) :
    (Push.ofDatagram (hdr.encode ++ (f.encode ++ chunk)) sends).header = f ∧
      (Push.ofDatagram (hdr.encode ++ (f.encode ++ chunk)) sends).chunk = chunk := by
  have hfit : (hdr.encode ++ (f.encode ++ chunk)).length ≤ rxBufSize := by
    simp only [List.length_append, Header.length_encode, FragHeader.length_encode, rxBufSize]
    omega
  have hpayload : (hdr.encode ++ (f.encode ++ chunk)).drop Header.size = f.encode ++ chunk :=
    List.drop_left' hdr.length_encode
  have hchunk : (f.encode ++ chunk).drop FragHeader.size = chunk := List.drop_left' f.length_encode
  simp only [ofDatagram, List.take_of_length_le hfit, hpayload, hchunk, FragHeader.decode_encode,
    and_self]

/-- Frames of two to eight fragments under different transfer numbers. -/
structure Frames where
  frame : UInt16 → Option (List UInt8)
  range : ∀ t data, frame t = some data →
    mtuPayload < data.length ∧ data.length ≤ reasmMaxFrags * mtuPayload

def Frames.Sent (fs : Frames) (p : Push) : Prop :=
  ∃ t data, fs.frame t = some data ∧ p.IsFragmentOf t data

/-- The fields of a fragment of the frame. -/
structure Carries (data : List UInt8) (p : Push) : Prop where
  idx : p.header.fragIdx.toNat < fragCount data
  total : p.header.fragTotal.toNat = fragCount data
  data : p.data = block mtuPayload data p.header.fragIdx.toNat

private theorem fragCount_le {data : List UInt8} (h : data.length ≤ reasmMaxFrags * mtuPayload) :
    fragCount data ≤ reasmMaxFrags := by
  simp only [fragCount, mtuPayload, reasmMaxFrags] at *
  omega

theorem length_le_fragCount (data : List UInt8) : data.length ≤ fragCount data * mtuPayload := by
  simp only [fragCount, mtuPayload]
  omega

private theorem Frames.Sent.carries {fs : Frames} {p : Push} (h : fs.Sent p) :
    ∃ data, fs.frame p.header.transferSeq = some data ∧ Carries data p := by
  obtain ⟨t, data, hframe, s, bytes, rfl, hsent, hp⟩ := h
  obtain ⟨hmin, hmax⟩ := fs.range _ data hframe
  have hcount := fragCount_le hmax
  obtain ⟨i, hi, hbytes⟩ := Session.mem_sendRaw hmin (hcount.trans (by decide)) hsent
  have heq := s.fragment_eq s.outTransferSeq (fragCount data) data i
  have hlen : (block mtuPayload data i).length ≤ mtuPayload := List.length_take_le _ _
  obtain ⟨hheader, hchunk⟩ := Push.ofDatagram_fragment (s.fragHeader data i) hlen p.sends
  rw [← heq, ← hbytes, ← hp] at hheader hchunk
  have htoNat : ∀ n ≤ reasmMaxFrags, (UInt8.ofNat n).toNat = n := fun n hn => by
    rw [UInt8.toNat_ofNat']
    exact Nat.mod_eq_of_lt (Nat.lt_of_le_of_lt hn (by decide))
  have hidx := htoNat i (hi.le.trans hcount)
  refine ⟨data, by rw [hheader, hframe], ?_, ?_, ?_⟩
  · rwa [hheader, hidx]
  · rw [hheader, htoNat _ hcount]
  · rw [Push.IsRead.data_eq ⟨bytes, hp⟩, hheader, hidx, hchunk]

private theorem Carries.accepts {data : List UInt8} {p : Push} (h : Carries data p)
    (hcount : fragCount data ≤ reasmMaxFrags) : Reasm.Accepts p.header := by
  rw [Reasm.accepts_iff, UInt8.lt_iff_toNat_lt, h.total]
  exact ⟨h.idx, h.idx.trans_le hcount⟩

private theorem sendFragments_of_all {sends : List Bool} (h : ∀ ok ∈ sends, ok = true)
    (ds : List (List UInt8)) : sendFragments sends ds = ds.map .opsSend := by
  induction sends, ds using sendFragments.induct with
  | case1 => simp [sendFragments]
  | case2 d ds ih => simpa [sendFragments] using ih h
  | case3 ok oks d ds ih =>
    rw [sendFragments, if_pos (h ok List.mem_cons_self), ih fun o ho => h o (.tail ok ho),
      List.map_cons]

namespace Reasm

variable {fs : Frames} {ps since : List Push} {p : Push} {data : List UInt8} {r : Reasm}
  {effects : List Effect} {t : UInt16}

/-- Fragments of one frame fit together, so the slot has all of them when it is complete. -/
theorem Complete.of_carries (h : Complete r since effects p) (hc : ∀ q ∈ since, Carries data q) :
    r.held = Finset.range (fragCount data) ∧
      r.contents = (List.range (fragCount data)).map (block mtuPayload data) := by
  obtain ⟨first, hfirst, htotal⟩ := h.holds.exists_first (List.ne_nil_of_mem h.last)
  have hcount : r.total.toNat = fragCount data := by
    rw [← htotal, (hc first (List.mem_of_head? hfirst)).total]
  have hfit : Fitting since := fun f hf q hq => by
    rw [UInt8.lt_iff_toNat_lt, (hc f (List.mem_of_head? hf)).total]
    exact (hc q hq).idx
  have hheld := h.held_eq hfit
  rw [hcount] at hheld
  refine ⟨hheld, ?_⟩
  rw [contents, hcount]
  refine List.map_congr_left fun i hi => ?_
  obtain ⟨q, hq, rfl, hslot⟩ :=
    h.holds.slot_of_mem_held (hheld ▸ Finset.mem_range.mpr (List.mem_range.mp hi))
  rw [hslot, Option.getD_some, (hc q hq).data]

/-- A call that completes a transfer, after the calls `ps` on a zeroed slot. -/
def Delivers (ps : List Push) (p : Push) : Prop := ((after ps).1.pushed p).2.2 = true

private theorem carries_since (hps : ∀ q ∈ ps ++ [p], fs.Sent q) (h : Delivers ps p)
    (hframe : fs.frame p.header.transferSeq = some data) :
    ∀ q ∈ (after (ps ++ [p])).2, q.header.transferSeq = p.header.transferSeq ∧ Carries data q := by
  intro q hq
  have hc := (ready_after ps).complete h
  obtain ⟨d, hd, hcarries⟩ := (hps q (after_subset _ hq)).carries
  rw [after_concat] at hq
  have hseq := (hc.holds.transfer q hq).trans (hc.holds.transfer p hc.last).symm
  rw [hseq, hframe] at hd
  exact ⟨hseq, Option.some.inj hd ▸ hcarries⟩

/-- A delivery is the frame of the fragment that completed it. -/
theorem delivered_frame (hps : ∀ q ∈ ps ++ [p], fs.Sent q) (h : Delivers ps p)
    (hsends : ∀ ok ∈ p.sends, ok = true) :
    ∃ ds : List (List UInt8), ((after ps).1.pushed p).2.1 = ds.map .opsSend ∧
      fs.frame p.header.transferSeq = some ds.flatten := by
  obtain ⟨data, hframe, -⟩ := (hps p (by simp)).carries
  have hc := (ready_after ps).complete h
  have hcarries := carries_since hps h hframe
  rw [after_concat] at hcarries
  obtain ⟨-, hcontents⟩ := hc.of_carries fun q hq => (hcarries q hq).2
  refine ⟨_, hc.sent.trans (sendFragments_of_all hsends _), ?_⟩
  rw [hframe, hcontents, ← List.flatMap_def, flatMap_block_of_le (length_le_fragCount data)]

private theorem stored_active (r : Reasm) (p : Push) :
    (r.stored p).active = true ∧ (r.stored p).transferSeq = p.header.transferSeq := by
  have hopened : (r.opened p.header).active = true ∧
      (r.opened p.header).transferSeq = p.header.transferSeq := by
    rw [opened]
    split
    case isTrue => exact ⟨rfl, rfl⟩
    case isFalse hreset => exact not_resets hreset
  rwa [stored, put_transferSeq, put_active]

private theorem pushed_of_not_complete (hacc : Accepts p.header) (h : ¬(r.pushed p).2.2 = true) :
    (r.pushed p).1 = r.stored p := by
  rw [pushed_eq, if_neg (not_not.mpr hacc)] at h ⊢
  split at h
  case isTrue hlt => rw [if_pos hlt]
  case isFalse => exact absurd rfl h

private theorem gathers (before : List Push) {s : List Push}
    (hs : ∀ p ∈ s, Accepts p.header ∧ p.header.transferSeq = t)
    (hnone : ∀ a p b, s = a ++ p :: b → ¬Delivers (before ++ a) p) :
    (s ≠ [] → (after (before ++ s)).1.active = true ∧ (after (before ++ s)).1.transferSeq = t) ∧
      s <:+ (after (before ++ s)).2 := by
  induction s using List.reverseRecOn with
  | nil => exact ⟨fun h => absurd rfl h, List.nil_suffix⟩
  | append_singleton s p ih =>
    obtain ⟨hacc, hseq⟩ := hs p (by simp)
    obtain ⟨hactive, hsuffix⟩ := ih (fun q hq => hs q (List.mem_append_left _ hq))
      fun a q b hsplit => hnone a q (b ++ [p]) (by rw [hsplit, List.append_assoc, List.cons_append])
    rw [← List.append_assoc, after_concat, pushed_of_not_complete hacc (hnone s p [] rfl), record,
      if_pos hacc]
    refine ⟨fun _ => hseq ▸ stored_active _ p, List.suffix_append_self_iff.mpr ?_⟩
    by_cases hnil : s = []
    · exact hnil ▸ List.nil_suffix
    · rw [if_neg]
      · exact hsuffix
      · have hopen := hactive hnil
        simp [Resets, hopen, hseq]

/-- Only fragments of one transfer, and each of its indices. -/
def Full (t : UInt16) (data : List UInt8) (s : List Push) : Prop :=
  (∀ p ∈ s, p.header.transferSeq = t) ∧ ∀ i < fragCount data, ∃ p ∈ s, p.header.fragIdx.toNat = i

private theorem accepts_of_sent (h : fs.Sent p) : Accepts p.header := by
  obtain ⟨data, hframe, hcarries⟩ := h.carries
  exact hcarries.accepts (fragCount_le (fs.range _ data hframe).2)

private theorem Full.fragCount_le_length {s : List Push} (h : Full t data s) : fragCount data ≤ s.length := by
  have hsub : Finset.range (fragCount data) ⊆ (s.map fun p => p.header.fragIdx.toNat).toFinset :=
    fun i hi => by simpa using h.2 i (Finset.mem_range.mp hi)
  calc fragCount data = (Finset.range (fragCount data)).card := (Finset.card_range _).symm
    _ ≤ (s.map fun p => p.header.fragIdx.toNat).toFinset.card := Finset.card_le_card hsub
    _ ≤ (s.map fun p => p.header.fragIdx.toNat).length := List.toFinset_card_le _
    _ = s.length := List.length_map _

private theorem Full.ne_nil {s : List Push} (hfull : Full t data s)
    (hframe : fs.frame t = some data) : s ≠ [] := by
  have hmin := (fs.range t data hframe).1
  have hpos : 0 < fragCount data := Nat.div_pos (by omega) (by decide)
  exact List.ne_nil_of_length_pos (hpos.trans_le hfull.fragCount_le_length)

/-- A stretch with all fragments of a frame completes it: otherwise they gather in the slot
until their number reaches the total. -/
theorem Full.delivers (before : List Push) {s : List Push} (hfull : Full t data s)
    (hframe : fs.frame t = some data) (hsent : ∀ p ∈ before ++ s, fs.Sent p) :
    ∃ a p b, s = a ++ p :: b ∧ Delivers (before ++ a) p := by
  by_contra hnone
  simp only [not_exists, not_and] at hnone
  obtain ⟨hopen, hsuffix⟩ := gathers before
    (fun p hp => ⟨accepts_of_sent (hsent p (List.mem_append_right _ hp)), hfull.1 p hp⟩) hnone
  obtain ⟨hactive, hseq⟩ := hopen (hfull.ne_nil hframe)
  have hready := ready_after (before ++ s)
  have hholds := hready.holds hactive
  -- the total is that of a fragment of this frame, also when it came before the stretch
  obtain ⟨first, hfirst, htotal⟩ := hholds.exists_first (hready.begun hactive)
  have hmem := List.mem_of_head? hfirst
  obtain ⟨d, hd, hcarries⟩ := (hsent first (after_subset _ hmem)).carries
  rw [hholds.transfer first hmem, hseq, hframe] at hd
  obtain rfl := Option.some.inj hd
  have hsub : Finset.range (fragCount data) ⊆ (after (before ++ s)).1.held := fun i hi => by
    obtain ⟨p, hp, hidx⟩ := hfull.2 i (Finset.mem_range.mp hi)
    exact hholds.mem_held.mpr ⟨p, hsuffix.mem hp, hidx⟩
  have hcard := Finset.card_le_card hsub
  have hlt := UInt8.lt_iff_toNat_lt.mp (hready.incomplete hactive)
  rw [Finset.card_range, ← hholds.received, ← hcarries.total, htotal] at hcard
  omega

/-- The shortest frame that is fragmented, as transfer 7. -/
def shortFrames : Frames where
  frame t := if t = 7 then some (List.replicate (mtuPayload + 1) 5) else none
  range t data h := by
    simp only [Option.ite_none_right_eq_some, Option.some.injEq] at h
    rw [← h.2, List.length_replicate]
    decide

def shortFragment (i : Nat) : Push :=
  .ofDatagram (Session.fragment ⟨⟨2, 1, 8, 6, 0x50, false⟩, some 3, 0, 0, 7, .zero⟩ 7 2
    (List.replicate (mtuPayload + 1) 5) i) []

private theorem shortFragment_sent {i : Nat} (hi : i < 2) : shortFrames.Sent (shortFragment i) := by
  refine ⟨7, _, rfl, ⟨⟨2, 1, 8, 6, 0x50, false⟩, some 3, 0, 0, 7, .zero⟩, _, rfl, ?_, rfl⟩
  simp only [Session.sendRaw, List.length_replicate]
  rw [if_neg (by decide), if_neg (by decide)]
  exact List.mem_map.mpr ⟨i, List.mem_range.mpr hi, rfl⟩

private theorem shortFragments_sent : ∀ p ∈
    [shortFragment 0, shortFragment 1], shortFrames.Sent p := by
  simp [shortFragment_sent]

private theorem shortFrame_fragCount : fragCount (List.replicate (mtuPayload + 1) 5) = 2 := by
  rw [fragCount, List.length_replicate]
  decide

private theorem shortFragments_full :
    Full 7 (List.replicate (mtuPayload + 1) 5) [shortFragment 0, shortFragment 1] := by
  have hcount := shortFrame_fragCount
  have h0 : (shortFragment 0).header = ⟨7, 0, 2⟩ := rfl
  have h1 : (shortFragment 1).header = ⟨7, 1, 2⟩ := rfl
  refine ⟨by simp [h0, h1], fun i hi => ?_⟩
  obtain rfl | rfl : i = 0 ∨ i = 1 := by omega
  · exact ⟨shortFragment 0, by simp, by rw [h0]; rfl⟩
  · exact ⟨shortFragment 1, by simp, by rw [h1]; rfl⟩

/-- Every delivery is the frame of the fragment that completed it, and a stretch with all
fragments of one frame, and no others, delivers that frame. -/
theorem frames_delivered (fs : Frames) (ps : List Push) (hsent : ∀ p ∈ ps, fs.Sent p)
    (hsends : ∀ p ∈ ps, ∀ ok ∈ p.sends, ok = true) :
    (∀ a p b, ps = a ++ p :: b → Delivers a p →
      ∃ ds : List (List UInt8), ((after a).1.pushed p).2.1 = ds.map .opsSend ∧
        fs.frame p.header.transferSeq = some ds.flatten) ∧
    (∀ t data a s b, ps = a ++ s ++ b → fs.frame t = some data → Full t data s →
      ∃ a' p b', s = a' ++ p :: b' ∧ Delivers (a ++ a') p ∧
        ∃ ds : List (List UInt8), ((after (a ++ a')).1.pushed p).2.1 = ds.map .opsSend ∧
          ds.flatten = data) := by
  refine ⟨fun a p b hps hdel => ?_, fun t data a s b hps hframe hfull => ?_⟩
  · exact delivered_frame (fun q hq => hsent q (by grind)) hdel (hsends p (by grind))
  · obtain ⟨a', p, b', rfl, hdel⟩ := hfull.delivers a hframe fun q hq => hsent q (by grind)
    refine ⟨a', p, b', rfl, hdel, ?_⟩
    obtain ⟨ds, heq, hds⟩ :=
      delivered_frame (fun q hq => hsent q (by grind)) hdel (hsends p (by grind))
    rw [hfull.1 p (by simp), hframe] at hds
    exact ⟨ds, heq, (Option.some.inj hds).symm⟩

theorem short_frame_delivered :
    ∃ a p b, [shortFragment 0, shortFragment 1] = a ++ p :: b ∧ Delivers a p ∧
      ∃ ds : List (List UInt8), ((after a).1.pushed p).2.1 = ds.map .opsSend ∧
        ds.flatten = List.replicate (mtuPayload + 1) 5 :=
  (frames_delivered shortFrames [shortFragment 0, shortFragment 1] shortFragments_sent
    (by simp [shortFragment, Push.ofDatagram])).2 7 _ [] _ [] rfl rfl shortFragments_full

private theorem inactive_of_delivers (h : Delivers ps p) :
    (after (ps ++ [p])).1.active = false := by
  rw [after_concat]
  rw [Delivers, pushed_eq] at h
  rw [pushed_eq]
  split at h
  case isTrue => cases h
  case isFalse hacc =>
    rw [if_neg hacc]
    split at h
    case isTrue => cases h
    case isFalse hge => rw [if_neg hge]

private theorem since_suffix {before : List Push} (s : List Push) (hinactive : (after before).1.active = false)
    (hacc : ∀ p ∈ s, Accepts p.header) (hne : s ≠ []) : (after (before ++ s)).2 <:+ s := by
  induction s using List.reverseRecOn with
  | nil => exact absurd rfl hne
  | append_singleton s p ih =>
    rw [← List.append_assoc, after_concat, record, if_pos (hacc p (by simp))]
    refine List.suffix_append_self_iff.mpr ?_
    by_cases hnil : s = []
    · subst hnil
      rw [List.append_nil, if_pos (.inl hinactive)]
    · split
      case isTrue => exact List.nil_suffix
      case isFalse => exact ih (fun q hq => hacc q (List.mem_append_left _ hq)) hnil

private theorem Delivers.full (h : Delivers ps p) (hsent : ∀ q ∈ ps ++ [p], fs.Sent q)
    (hframe : fs.frame p.header.transferSeq = some data) :
    Full p.header.transferSeq data (after (ps ++ [p])).2 := by
  have hc := (ready_after ps).complete h
  have hcarries := carries_since hsent h hframe
  refine ⟨fun q hq => (hcarries q hq).1, fun i hi => ?_⟩
  rw [after_concat] at hcarries ⊢
  obtain ⟨hheld, -⟩ := hc.of_carries fun q hq => (hcarries q hq).2
  exact hc.holds.mem_held.mp (hheld ▸ Finset.mem_range.mpr hi)

/-- No two calls deliver the transfer. -/
def AtMostOnce (t : UInt16) (ps : List Push) : Prop :=
  ∀ a p b q c, ps = a ++ p :: b ++ q :: c → p.header.transferSeq = t → q.header.transferSeq = t →
    Delivers a p → ¬Delivers (a ++ p :: b) q

/-- All fragments of the frame come in one stretch, and once more in a later one. -/
def Repeats (t : UInt16) (data : List UInt8) (ps : List Push) : Prop :=
  ∃ a s b s' c, ps = a ++ s ++ b ++ s' ++ c ∧ Full t data s ∧ Full t data s'

private theorem Repeats.not_atMostOnce (h : Repeats t data ps) (hframe : fs.frame t = some data)
    (hsent : ∀ p ∈ ps, fs.Sent p) : ¬AtMostOnce t ps := by
  obtain ⟨a, s, b, s', c, rfl, hfull, hfull'⟩ := h
  obtain ⟨x, p, y, rfl, hp⟩ := hfull.delivers a hframe fun q hq => hsent q (by grind)
  obtain ⟨x', q, y', rfl, hq⟩ := hfull'.delivers (a ++ (x ++ p :: y) ++ b) hframe
    fun q hq => hsent q (by grind)
  intro honce
  refine honce (a ++ x) p (y ++ b ++ x') q (y' ++ c) (by simp) (hfull.1 p (by simp))
    (hfull'.1 q (by simp)) hp ?_
  simpa using hq

/-- A transfer is delivered at most once exactly if its fragments do not all come again. -/
theorem delivered_once_iff (fs : Frames) (ps : List Push) (hsent : ∀ p ∈ ps, fs.Sent p)
    (t : UInt16) (data : List UInt8) (hframe : fs.frame t = some data) :
    AtMostOnce t ps ↔ ¬Repeats t data ps := by
  refine ⟨fun honce hrep => hrep.not_atMostOnce hframe hsent honce, ?_⟩
  rintro hrep a p b q c rfl hp hq hdel hdel'
  have hacc : ∀ x ∈ a ++ p :: b ++ q :: c, Accepts x.header := fun x hx => accepts_of_sent (hsent x hx)
  -- each delivery is made of what came since the one before it
  have hsuffix : (after (a ++ [p])).2 <:+ a ++ [p] :=
    since_suffix (a ++ [p]) (show (after []).1.active = false from rfl) (fun x hx => hacc x (by grind))
      (by simp)
  have hsuffix' : (after (a ++ p :: b ++ [q])).2 <:+ b ++ [q] := by
    simpa using since_suffix (b ++ [q]) (inactive_of_delivers hdel) (fun x hx => hacc x (by grind))
      (by simp)
  have hfull := hdel.full (fun x hx => hsent x (by grind)) (hp ▸ hframe)
  have hfull' := hdel'.full (fun x hx => hsent x (by grind)) (hq ▸ hframe)
  obtain ⟨x, hx⟩ := hsuffix
  obtain ⟨y, hy⟩ := hsuffix'
  refine hrep ⟨x, _, y, _, c, ?_, hp ▸ hfull, hq ▸ hfull'⟩
  rw [hx, List.append_assoc (a ++ [p]), hy]
  simp

theorem short_frame_delivered_once : AtMostOnce 7 [shortFragment 0, shortFragment 1] := by
  refine (delivered_once_iff shortFrames _ shortFragments_sent 7 _ rfl).mpr ?_
  rintro ⟨a, s, b, s', c, hsplit, hfull, hfull'⟩
  have hlen := hfull.fragCount_le_length
  have hlen' := hfull'.fragCount_le_length
  have htotal := congrArg List.length hsplit
  simp only [shortFrame_fragCount] at hlen hlen'
  simp only [List.length_append, List.length_cons, List.length_nil] at htotal
  omega

/-- The two fragments of a frame, both duplicated by the network: the frame is delivered twice. -/
theorem short_frame_delivered_twice :
    (∀ p ∈ [shortFragment 0, shortFragment 1, shortFragment 0, shortFragment 1], shortFrames.Sent p) ∧
      ¬AtMostOnce 7 [shortFragment 0, shortFragment 1, shortFragment 0, shortFragment 1] := by
  have hsent : ∀ p ∈ [shortFragment 0, shortFragment 1, shortFragment 0, shortFragment 1],
      shortFrames.Sent p := by
    simp [shortFragment_sent]
  have hrepeats : Repeats 7 (List.replicate (mtuPayload + 1) 5)
      [shortFragment 0, shortFragment 1, shortFragment 0, shortFragment 1] :=
    ⟨[], _, [], _, [], rfl, shortFragments_full, shortFragments_full⟩
  exact ⟨hsent, Repeats.not_atMostOnce hrepeats (show shortFrames.frame 7 = _ from rfl) hsent⟩

end Reasm
end WirelessHub.Firmware
