import WirelessHub.Firmware.DnsReply

/-!
# The name in the log

Before it answers, `dns_server_task` writes the queried name with dots into `qname` for a log
line. The room that is left is tested once for each label, so what may go wrong is decided by
the last label that is begun: it is copied whole, and a dot behind it.
-/

namespace WirelessHub.Firmware.DnsTask

open Framework

/-- `sizeof(qname)`. -/
def qnameSize : Nat := 128

/-- The positions in `buf` and `qname`, with the indices of `qname` that were written. -/
structure Render where
  qi : Nat
  qo : Nat
  qname : List UInt8
  writes : List Nat

namespace Render

def start : Render := ⟨12, 0, List.replicate qnameSize 0, []⟩

def put (s : Render) (b : UInt8) : Render :=
  { s with qo := s.qo + 1, qname := store s.qname s.qo [b], writes := s.writes ++ [s.qo] }

def close (s : Render) : Render :=
  if s.qo ≠ 0 then
    { s with qname := store s.qname (s.qo - 1) [0], writes := s.writes ++ [s.qo - 1] }
  else s

end Render

/-- The loop over the bytes of a label. -/
def copyLabel (r : Received) : Nat → Render → Render
  | 0, s => s
  | k + 1, s =>
    if s.qi < r.len then copyLabel r k { s.put (r.byte s.qi) with qi := s.qi + 1 } else s

def renderTurn (r : Received) (s : Render) : Turn Render Render :=
  if s.qi < r.len ∧ r.byte s.qi ≠ 0 ∧ s.qo < qnameSize - 2 then
    let l := r.byte s.qi
    let s := { s with qi := s.qi + 1 }
    if isPointer l then .done s else .again ((copyLabel r l.toNat s).put 0x2E)
  else .done s

/-- What has been written so far: one cell after the other from the start. -/
structure Rendered (s : Render) : Prop where
  writes : s.writes = List.range s.qo
  text : ∃ t, t.length = s.qo ∧ s.qname = store (List.replicate qnameSize 0) 0 t

section Copy

variable {r : Received} {s s' : Render}

private theorem Rendered.put (h : Rendered s) (b : UInt8) : Rendered (s.put b) := by
  obtain ⟨t, hlen, hname⟩ := h.text
  refine ⟨?_, t ++ [b], ?_, ?_⟩
  · rw [Render.put, h.writes, List.range_succ]
  · rw [List.length_append, hlen]
    rfl
  · rw [Render.put, hname, ← store_store (Nat.zero_le _), Nat.zero_add, hlen]

private theorem Rendered.move (h : Rendered s) (qi : Nat) : Rendered { s with qi := qi } :=
  ⟨h.writes, h.text⟩

private theorem Rendered.copyLabel (h : Rendered s) (k : Nat) : Rendered (copyLabel r k s) := by
  induction k generalizing s with
  | zero => exact h
  | succ k ih =>
    rw [DnsTask.copyLabel]
    split
    case isTrue =>
      apply ih
      exact (h.put _).move _
    case isFalse => exact h

private theorem copyLabel_positions (k : Nat) (h : s.qi ≤ r.len) :
    (copyLabel r k s).qi = min (s.qi + k) r.len ∧
      (copyLabel r k s).qo + s.qi = s.qo + (copyLabel r k s).qi := by
  induction k generalizing s with
  | zero => exact ⟨(Nat.min_eq_left h).symm, rfl⟩
  | succ k ih =>
    rw [copyLabel]
    split
    case isTrue hlt =>
      obtain ⟨hqi, hqo⟩ := ih (s := { s.put (r.byte s.qi) with qi := s.qi + 1 }) hlt
      simp only [Render.put] at hqi hqo ⊢
      omega
    case isFalse hge => omega

end Copy

section Turns

variable {r : Received} {s s' : Render} {p : Nat}

private theorem Hop.lt_len {p' : Nat} (h : Hop r.text p p') : p < p' ∧ p < r.len :=
  r.length_text ▸ h.lt

private theorem renderTurn_of_hop (hhop : Hop r.text s.qi p) (hqo : s.qo < qnameSize - 2) :
    ∃ s', renderTurn r s = .again s' ∧ s'.qi = min p r.len ∧ s'.qo + s.qi = s.qo + s'.qi ∧
      (Rendered s → Rendered s') := by
  obtain ⟨l, hl, hzero, hptr, rfl⟩ := hhop
  have hlt := Received.lt_len_of_getElem?_text hl
  have hbyte := Received.byte_of_getElem?_text hl
  obtain ⟨hqi, hpos⟩ := copyLabel_positions (s := { s with qi := s.qi + 1 }) l.toNat hlt
  refine ⟨(copyLabel r l.toNat { s with qi := s.qi + 1 }).put 0x2E, ?_, ?_, ?_, ?_⟩
  · rw [renderTurn, if_pos ⟨hlt, hbyte ▸ hzero, hqo⟩]
    simp only [hbyte, hptr, Bool.false_eq_true, if_false]
  · rw [Render.put, hqi, Nat.add_right_comm]
  · simp only [Render.put] at hpos ⊢
    omega
  · intro h
    apply ((h.move (s.qi + 1)).copyLabel l.toNat).put

private theorem hop_of_again (h : renderTurn r s = .again s') :
    s.qo < qnameSize - 2 ∧ ∃ p, Hop r.text s.qi p ∧ s'.qi = min p r.len ∧
      s'.qo + s.qi = s.qo + s'.qi ∧ (Rendered s → Rendered s') := by
  have hgo : s.qi < r.len ∧ r.byte s.qi ≠ 0 ∧ isPointer (r.byte s.qi) = false ∧
      s.qo < qnameSize - 2 := by
    rw [renderTurn] at h
    split at h
    case isTrue hgo =>
      simp only at h
      split at h
      case isTrue => cases h
      case isFalse hptr => exact ⟨hgo.1, hgo.2.1, Bool.eq_false_iff.mpr hptr, hgo.2.2⟩
    case isFalse => cases h
  obtain ⟨hlt, hzero, hptr, hqo⟩ := hgo
  have hhop : Hop r.text s.qi (s.qi + (r.byte s.qi).toNat + 1) :=
    ⟨_, Received.getElem?_text hlt, hzero, hptr, rfl⟩
  obtain ⟨t, ht, hspec⟩ := renderTurn_of_hop hhop hqo
  obtain rfl : t = s' := Turn.again.inj (ht.symm.trans h)
  exact ⟨hqo, _, hhop, hspec⟩

private theorem renderTurn_done (h : renderTurn r s = .done s') : ∃ qi, s' =
    { s with qi := qi } := by
  rw [renderTurn] at h
  split at h
  case isTrue =>
    simp only at h
    split at h
    case isTrue => exact ⟨s.qi + 1, (Turn.done.inj h).symm⟩
    case isFalse => cases h
  case isFalse => exact ⟨s.qi, (Turn.done.inj h).symm⟩

end Turns

def renderLoop (r : Received) : Loop Render Render where
  turn := renderTurn r
  variant s := r.len - s.qi
  decreases s s' h := by
    obtain ⟨-, p, hhop, hqi, -⟩ := hop_of_again h
    have hlt := hhop.lt_len
    omega

/-- What holds at each turn: the name is read and written in step, at a length byte or at the
end of the datagram. -/
structure Rendering (r : Received) (s : Render) : Prop where
  step : s.qi = 12 + s.qo
  place : LabelAt r.text s.qi ∨ s.qi = r.len
  rendered : Rendered s

section Loop

variable {r : Received} {s s' : Render} {p p' : Nat}

private theorem rendering_start : Rendering r .start where
  step := rfl
  place := .inl .refl
  rendered := ⟨rfl, [], rfl, by rw [store_zero]; rfl⟩

private theorem Rendering.labelAt (h : Rendering r s) (hhop : Hop r.text s.qi p) :
    LabelAt r.text s.qi :=
  h.place.resolve_right (Nat.ne_of_lt hhop.lt_len.2)

private theorem Rendering.again (h : Rendering r s) (hturn : renderTurn r s = .again s') :
    Rendering r s' := by
  obtain ⟨-, p, hhop, hqi, hpos, hrendered⟩ := hop_of_again hturn
  refine ⟨?_, ?_, hrendered h.rendered⟩
  · have hstep := h.step
    omega
  · rw [hqi]
    rcases Nat.le_total p r.len with hp | hp
    · rw [Nat.min_eq_left hp]
      exact .inl ((h.labelAt hhop).tail hhop)
    · exact .inr (Nat.min_eq_right hp)

private theorem Rendering.done (h : Rendering r s) (hturn : renderTurn r s = .done s') :
    s'.qo = s.qo ∧ Rendered s' := by
  obtain ⟨qi, rfl⟩ := renderTurn_done hturn
  exact ⟨rfl, h.rendered.move qi⟩

private theorem exists_again (hhop : Hop r.text s.qi p) (hstep : s.qi = 12 + s.qo)
    (hroom : s.qi < 138) :
    ∃ s', renderTurn r s = .again s' ∧ s'.qi = min p r.len ∧ s'.qi = 12 + s'.qo := by
  have hqo : s.qo < qnameSize - 2 := by
    rw [qnameSize]
    omega
  obtain ⟨s', hturn, hqi, hpos, -⟩ := renderTurn_of_hop hhop hqo
  exact ⟨s', hturn, hqi, by omega⟩

/-- The loop comes to every label that begins while there is room. -/
theorem exists_reaches_labelAt (h : LabelAt r.text p) (hlen : p ≤ r.len) (hroom : p ≤ 138) :
    ∃ s, Reaches (renderTurn r) .start s ∧ s.qi = p ∧ s.qi = 12 + s.qo := by
  induction h with
  | refl => exact ⟨.start, .refl, rfl, rfl⟩
  | @tail p p' _ hhop ih =>
    have hlt := hhop.lt
    obtain ⟨s, hs, rfl, hstep⟩ := ih (by omega) (by omega)
    obtain ⟨s', hturn, hqi, hstep'⟩ := exists_again hhop hstep (by omega)
    exact ⟨s', hs.tail hturn, hqi.trans (Nat.min_eq_left hlen), hstep'⟩

private theorem exits_renderTurn : Exits (renderTurn r) .start s ↔ (renderLoop r).run .start = s :=
  Loop.exits_iff (L := renderLoop r)

private theorem rendered_run (r : Received) : Rendered ((renderLoop r).run .start) := by
  apply Loop.run_induction (P := Rendering r)
  case hs => exact rendering_start
  case hagain => exact fun s s' h => h.again
  case hdone => exact fun s s' h hturn => (h.done hturn).2

private theorem le_qo_run (hlabel : LabelAt r.text p) (hhop : Hop r.text p p') (hroom : p < 138) :
    min p' r.len ≤ 12 + ((renderLoop r).run .start).qo := by
  obtain ⟨s, hs, rfl, hstep⟩ :=
    exists_reaches_labelAt hlabel (Nat.le_of_lt hhop.lt_len.2) (Nat.le_of_lt hroom)
  obtain ⟨s', hturn, hqi, hstep'⟩ := exists_again hhop hstep hroom
  rw [Loop.run_of_reaches (L := renderLoop r) (hs.tail hturn)]
  apply Loop.run_induction (P := fun t : Render => min p' r.len ≤ 12 + t.qo)
    (Q := fun t : Render => min p' r.len ≤ 12 + t.qo)
  case hs => exact Nat.le_of_eq (hqi.symm.trans hstep')
  case hagain =>
    intro t t' hle hagain
    obtain ⟨-, q, hq, htqi, htpos, -⟩ := hop_of_again hagain
    have hltq := hq.lt_len
    omega
  case hdone =>
    intro t t' hle hdone
    obtain ⟨qi, rfl⟩ := renderTurn_done hdone
    exact hle

private theorem qo_run_le (hfits : ∀ p p', LabelAt r.text p → Hop r.text p p' → p < 138 →
    min p' r.len ≤ 140) : ((renderLoop r).run .start).qo ≤ qnameSize := by
  apply Loop.run_induction (P := fun s => Rendering r s ∧ s.qo ≤ qnameSize)
    (Q := fun s : Render => s.qo ≤ qnameSize)
  case hs => exact ⟨rendering_start, Nat.zero_le _⟩
  case hagain =>
    rintro s s' ⟨h, -⟩ hturn
    obtain ⟨hqo, p, hhop, hqi, hpos, -⟩ := hop_of_again hturn
    have hstep := h.step
    rw [qnameSize] at hqo ⊢
    have hfit := hfits s.qi p (h.labelAt hhop) hhop (by omega)
    exact ⟨h.again hturn, by omega⟩
  case hdone =>
    rintro s s' ⟨h, hle⟩ hturn
    rw [(h.done hturn).1]
    exact hle

end Loop

section Close

variable {s : Render}

private theorem Rendered.writes_close_iff (h : Rendered s) :
    (∀ i ∈ s.close.writes, i < qnameSize) ↔ s.qo ≤ qnameSize := by
  rw [Render.close]
  split
  case isTrue hpos =>
    simp only [h.writes, List.forall_mem_append, List.mem_range, List.forall_mem_singleton]
    constructor
    · intro hall
      omega
    · intro hle
      exact ⟨fun i hi => by omega, by omega⟩
  case isFalse hzero =>
    simp only [h.writes, List.mem_range]
    exact ⟨fun _ => by omega, fun hle i hi => by omega⟩

private theorem Rendered.terminated (h : Rendered s) (hle : s.qo ≤ qnameSize) :
    ∃ i < qnameSize, s.close.qname[i]? = some 0 := by
  obtain ⟨t, hlen, hname⟩ := h.text
  rw [Render.close]
  split
  case isTrue hpos =>
    refine ⟨s.qo - 1, by omega, ?_⟩
    have hroom : s.qo - 1 ≤ s.qname.length := by
      rw [hname, store_zero, List.length_append]
      omega
    simp only [store, List.append_assoc]
    rw [List.getElem?_append_right (by rw [List.length_take]; omega), List.length_take,
      Nat.min_eq_left hroom, Nat.sub_self]
    rfl
  case isFalse hzero =>
    obtain rfl : t = [] := List.eq_nil_of_length_eq_zero (by omega)
    rw [hname]
    exact ⟨0, by decide, rfl⟩

end Close

/-- No label that begins before offset 138 reaches beyond offset 140 within the datagram. -/
def NameFits (d : List UInt8) : Prop :=
  ∀ p p', LabelAt d p → Hop d p p' → p < 138 → min p' d.length ≤ 140

theorem writes_name_iff (r : Received) :
    (∀ i ∈ ((renderLoop r).run .start).close.writes, i < qnameSize) ↔ NameFits r.text := by
  rw [(rendered_run r).writes_close_iff, NameFits, r.length_text]
  constructor
  · intro hqo p p' hlabel hhop hroom
    have hle := le_qo_run hlabel hhop hroom
    rw [qnameSize] at hqo
    omega
  · exact qo_run_le

/-- The loop that renders the name ends, stays inside `qname` and leaves it terminated exactly
if every label that is begun fits. -/
theorem name_in_bounds_iff (buf d : List UInt8) (hsize : d.length ≤ bufSize - 1) :
    (∃ s, Exits (renderTurn (receive buf d)) .start s ∧ (∀ i ∈ s.close.writes, i < qnameSize) ∧
      ∃ i < qnameSize, s.close.qname[i]? = some 0) ↔
    NameFits d := by
  have hwrites := writes_name_iff (receive buf d)
  rw [text_receive_of_le buf hsize] at hwrites
  rw [← hwrites]
  constructor
  · rintro ⟨s, hexits, hs, -⟩
    rwa [exits_renderTurn.mp hexits]
  · intro hs
    have hrendered := rendered_run (receive buf d)
    exact ⟨_, exits_renderTurn.mpr rfl, hs,
      hrendered.terminated (hrendered.writes_close_iff.mp hs)⟩

theorem name_in_bounds_iff_sampleQuery :
    sampleQuery.encode.length ≤ bufSize - 1 ∧
    ((∃ s, Exits (renderTurn (receive [] sampleQuery.encode)) .start s ∧
      (∀ i ∈ s.close.writes, i < qnameSize) ∧ ∃ i < qnameSize, s.close.qname[i]? = some 0) ↔
    NameFits sampleQuery.encode) :=
  ⟨by decide, name_in_bounds_iff [] sampleQuery.encode (by decide)⟩

/-- A query for a name of 188 characters in three labels. -/
def longNameQuery : DnsQuery where
  header := ⟨0x1234, 0x0100, 1, 0, 0, 0⟩
  question :=
    ⟨[List.replicate 60 0x61, List.replicate 63 0x61] ++ [List.replicate 63 0x61], dnsTypeA,
      dnsClassIn⟩
  trailing := []
  label_length := by decide
  name_length := by
    rw [length_encodeName]
    decide

private theorem length_longNameQuery : longNameQuery.encode.length = 206 := by
  rw [DnsQuery.length_encode, length_encodeName]
  decide

private theorem not_nameFits_longNameQuery : ¬NameFits longNameQuery.encode := by
  intro hfits
  have hthird := hop_of_mem_labels longNameQuery.header longNameQuery.question [] (by decide) rfl
  have hbefore : ([List.replicate 60 0x61, List.replicate 63 0x61].flatMap encodeLabel).length =
      125 := by
    rw [List.length_flatMap]
    decide
  rw [hbefore, List.length_replicate] at hthird
  have hle := hfits _ _ hthird.1 hthird.2 (by decide)
  rw [length_longNameQuery] at hle
  omega

/-- The third label begins when one cell is left before the test fails, and is copied whole. -/
theorem long_name_overruns :
    12 ≤ longNameQuery.encode.length ∧ longNameQuery.encode.length ≤ bufSize - 1 ∧
    ¬∃ s, Exits (renderTurn (receive (List.replicate bufSize 0) longNameQuery.encode)) .start s ∧
      (∀ i ∈ s.close.writes, i < qnameSize) ∧ ∃ i < qnameSize, s.close.qname[i]? = some 0 := by
  have hlen := length_longNameQuery
  have hsize : longNameQuery.encode.length ≤ bufSize - 1 := by
    rw [hlen]
    decide
  refine ⟨by omega, hsize, ?_⟩
  rintro ⟨s, hexits, hwrites, -⟩
  obtain rfl := exits_renderTurn.mp hexits
  rw [writes_name_iff, text_receive_of_le _ hsize] at hwrites
  exact not_nameFits_longNameQuery hwrites

end WirelessHub.Firmware.DnsTask
