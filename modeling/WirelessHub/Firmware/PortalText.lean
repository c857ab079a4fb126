import WirelessHub.Firmware.PortalRoundTrip
import WirelessHub.Framework.Buffer

/-!
# The text functions of the portal

`url_decode` and `html_escape` with the buffers they write to. Both test their bound before a
byte of the source and close the string behind it. `html_escape` ends on whole entities inside
its buffer. `url_decode` leaves the digits of an escape to `strtol`, which makes something of
any two characters; where they are two digits it is the decoding of the form encoding.
-/

namespace WirelessHub.Firmware.Portal

open Framework

/-! ## HTML escaping -/

/-- `html_escape` with `o` bytes in `dst`. -/
def htmlEscapeTo (dstLen : Nat) (dst : List UInt8) (o : Nat) : List UInt8 → List UInt8
  | [] => store dst o [0]
  | b :: src =>
      if o < dstLen - 7 then htmlEscapeTo dstLen (store dst o (entity b)) (o + (entity b).length) src
      else store dst o [0]

private theorem htmlEscapeTo_eq (dstLen : Nat) {dst : List UInt8} {o : Nat} (ho : o ≤ dst.length)
    (src : List UInt8) :
    htmlEscapeTo dstLen dst o src = store dst o (htmlEscape dstLen o src ++ [0]) := by
  induction src generalizing dst o with
  | nil => rfl
  | cons b src ih =>
    simp only [htmlEscapeTo, htmlEscape]
    split
    · rw [ih (le_length_store ho), store_store ho, List.append_assoc]
    · rfl

theorem reached_leads (dstLen o : Nat) (src : List UInt8) : reached dstLen o src <+: src := by
  induction src generalizing o with
  | nil => exact List.nil_prefix
  | cons b src ih =>
    rw [reached]
    split
    · exact (List.prefix_cons_inj b).mpr (ih _)
    · exact List.nil_prefix

/-- Every `&` in a text begins one of the entities. -/
def OnlyEntities (text : List UInt8) : Prop :=
  ∀ p q, text = p ++ 0x26 :: q → ∃ e ∈ entities, e.2 <+: 0x26 :: q

private theorem entity_of_mem {b : UInt8} {p q : List UInt8} (h : entity b = p ++ 0x26 :: q) :
    p = [] ∧ ∃ e ∈ entities, e.2 = 0x26 :: q := by
  cases entity_cases b with
  | inl hb =>
    obtain ⟨e, he, -, heq⟩ := hb
    obtain ⟨-, -, -, -, -, htail⟩ := entities_spec e he
    rw [heq] at h
    cases p with
    | nil => exact ⟨rfl, e, he, h⟩
    | cons a p =>
      rw [h] at htail
      exact absurd (by simp) htail
  | inr hb =>
    have hmem : 0x26 ∈ entity b := by simp [h]
    rw [hb.2, List.mem_singleton] at hmem
    exact absurd hmem.symm hb.1.1

private theorem onlyEntities_flatMap (src : List UInt8) : OnlyEntities (src.flatMap entity) := by
  induction src with
  | nil =>
    intro p q h
    simp at h
  | cons b src ih =>
    intro p q h
    rw [List.flatMap_cons, List.append_eq_append_iff] at h
    cases h with
    | inl h =>
      obtain ⟨r, -, hr⟩ := h
      exact ih r q hr
    | inr h =>
      obtain ⟨r, hr, hq⟩ := h
      cases r with
      | nil => exact ih [] q hq.symm
      | cons c r =>
        rw [List.cons_append, List.cons.injEq] at hq
        rw [← hq.1] at hr
        obtain ⟨-, e, he, heq⟩ := entity_of_mem hr
        exact ⟨e, he, by rw [heq, hq.2, List.cons_prefix_cons]; exact ⟨rfl, List.prefix_append _ _⟩⟩

/-- The text reaches its end where all of it fits in front of the last seven bytes. -/
theorem reached_of_fits {dstLen : Nat} {src : List UInt8} (h : (src.flatMap entity).length ≤ dstLen - 7) :
    reached dstLen 0 src = src := by
  by_cases hne : src = []
  · rw [hne]
    rfl
  · rw [reached_eq_iff dstLen 0 src hne]
    have hpos : 0 < (entity (src.getLast hne)).length := by
      cases entity_cases (src.getLast hne) with
      | inl hb =>
        obtain ⟨e, he, -, heq⟩ := hb
        rw [heq]
        exact (show ∀ e ∈ entities, 0 < e.2.length by decide) e he
      | inr hb => simp [hb.2]
    rw [← List.dropLast_concat_getLast hne, List.flatMap_append, List.length_append] at h
    simp only [List.flatMap_singleton] at h
    omega

/-- `html_escape` stays inside its buffer and closes the string. What it writes has no
delimiter in it and no `&` but those of its entities, and stands for a leading part of the
source, which is all of it if it fits in front of the last seven bytes. -/
theorem html_escape_faithful {dst : List UInt8} {dstLen : Nat} (hlen : 8 ≤ dstLen)
    (hdst : dstLen ≤ dst.length) (src : List UInt8) :
    ∃ out, htmlEscapeTo dstLen dst 0 src = out ++ 0 :: dst.drop (out.length + 1) ∧
      out.length < dstLen ∧ (htmlEscapeTo dstLen dst 0 src).length = dst.length ∧
      (htmlEscapeTo dstLen dst 0 src).drop dstLen = dst.drop dstLen ∧
      0x3C ∉ out ∧ 0x3E ∉ out ∧ 0x22 ∉ out ∧ OnlyEntities out ∧
      htmlUnescape 0 out <+: src ∧
      ((src.flatMap entity).length ≤ dstLen - 7 → htmlUnescape 0 out = src) := by
  have hroom := htmlEscape_length_le dstLen 0 src (Nat.zero_le _)
  have hto := htmlEscapeTo_eq dstLen (Nat.zero_le dst.length) src
  have hdel := htmlEscape_no_delimiter dstLen 0 src
  have hun : htmlUnescape 0 (htmlEscape dstLen 0 src) = reached dstLen 0 src := by
    rw [htmlEscape_eq, htmlUnescape_flatMap]
  have hwritten : 0 + (htmlEscape dstLen 0 src ++ [0]).length ≤ dstLen := by
    rw [List.length_append, List.length_singleton]
    omega
  refine ⟨htmlEscape dstLen 0 src, ?_, by omega, ?_, ?_, hdel.2.1, hdel.2.2, hdel.1, ?_, ?_, ?_⟩
  · rw [hto, store]
    simp
  · rw [hto]
    exact length_store (hwritten.trans hdst)
  · rw [hto]
    exact drop_store (Nat.zero_le _) hwritten
  · rw [htmlEscape_eq]
    exact onlyEntities_flatMap _
  · rw [hun]
    exact reached_leads dstLen 0 src
  · intro hfits
    rw [hun]
    exact reached_of_fits hfits

theorem html_escape_faithful_option :
    8 ≤ 140 ∧ ∃ out, htmlEscapeTo 140 (List.replicate 140 0) 0 (ascii ['a', '"', '&']) =
        out ++ 0 :: (List.replicate 140 0).drop (out.length + 1) ∧
      htmlUnescape 0 out = ascii ['a', '"', '&'] := by
  obtain ⟨out, hout, -, -, -, -, -, -, -, -, hall⟩ :=
    @html_escape_faithful (List.replicate 140 0) 140 (by decide) (by simp) (ascii ['a', '"', '&'])
  exact ⟨by decide, out, hout, hall (by decide)⟩

/-! ## URL decoding -/

/-- `url_decode` with `j` bytes in `dst` and room for `room` more. -/
def urlDecodeTo (dst : List UInt8) (j : Nat) : Nat → List UInt8 → List UInt8
  | 0, _ => store dst j [0]
  | _ + 1, [] => store dst j [0]
  | room + 1, b :: src =>
      if b = 0x2B then urlDecodeTo (store dst j [0x20]) (j + 1) room src
      else if b = 0x25 ∧ 2 ≤ src.length then
        urlDecodeTo (store dst j [UInt8.ofInt (strtol16 (src.take 2))]) (j + 1) room (src.drop 2)
      else urlDecodeTo (store dst j [b]) (j + 1) room src

private theorem urlDecodeTo_eq {dst : List UInt8} {j : Nat} (hj : j ≤ dst.length) (room : Nat)
    (src : List UInt8) : urlDecodeTo dst j room src = store dst j (urlDecode room src ++ [0]) := by
  induction room generalizing dst j src with
  | zero => rfl
  | succ room ih =>
    have hnext : ∀ (c : UInt8) (src : List UInt8),
        urlDecodeTo (store dst j [c]) (j + 1) room src = store dst j (c :: urlDecode room src ++ [0]) := by
      intro c src
      have hle : j + 1 ≤ (store dst j [c]).length := @le_length_store _ dst [c] j hj
      rw [ih hle]
      exact store_store hj
    cases src with
    | nil => rfl
    | cons b src =>
      simp only [urlDecodeTo, urlDecode]
      split
      · exact hnext _ _
      · split
        · exact hnext _ _
        · exact hnext _ _

theorem urlDecode_length_le (room : Nat) (src : List UInt8) : (urlDecode room src).length ≤ room := by
  induction room generalizing src with
  | zero => simp [urlDecode]
  | succ room ih =>
    cases src with
    | nil => simp [urlDecode]
    | cons b src =>
      simp only [urlDecode]
      split
      · exact Nat.succ_le_succ (ih _)
      · split
        · exact Nat.succ_le_succ (ih _)
        · exact Nat.succ_le_succ (ih _)

/-- The byte that two hexadecimal digits stand for. -/
def hexByte (hi lo : UInt8) : Option UInt8 :=
  match hexVal hi, hexVal lo with
  | some h, some l => some (UInt8.ofNat (16 * h + l))
  | _, _ => none

/-- The decoding of the form encoding: what is no escape is kept. -/
def percentDecode : List UInt8 → List UInt8
  | 0x25 :: hi :: lo :: src => match hexByte hi lo with
    | some b => b :: percentDecode src
    | none => 0x25 :: percentDecode (hi :: lo :: src)
  | b :: src => (if b = 0x2B then 0x20 else b) :: percentDecode src
  | [] => []

/-- Each `%` that stands for one of the first `room` bytes and has two characters behind it
has two hexadecimal digits there. -/
def EscapesHex (room : Nat) (src : List UInt8) : Prop :=
  ∀ p hi lo q, src = p ++ 0x25 :: hi :: lo :: q → (percentDecode p).length < room →
    hexByte hi lo ≠ none

example : percentDecode (ascii ['a', '%', '4', '1', '%', 'z', '+']) = ascii ['a', 'A', '%', 'z', ' '] := by
  decide

private theorem percentDecode_plain {b : UInt8} (hb : b ≠ 0x25) (src : List UInt8) :
    percentDecode (b :: src) = (if b = 0x2B then 0x20 else b) :: percentDecode src := by
  rw [percentDecode]
  intro hi lo rest h
  exact absurd h hb

private theorem percentDecode_short {src : List UInt8} (hsrc : src.length < 2) :
    percentDecode (0x25 :: src) = 0x25 :: percentDecode src := by
  match src, hsrc with
  | [], _ => rfl
  | [c], _ => rfl

private theorem percentDecode_hex {hi lo b : UInt8} (h : hexByte hi lo = some b)
    (src : List UInt8) : percentDecode (0x25 :: hi :: lo :: src) = b :: percentDecode src := by
  simp only [percentDecode, h]

private theorem percentDecode_bad {hi lo : UInt8} (h : hexByte hi lo = none) (src : List UInt8) :
    percentDecode (0x25 :: hi :: lo :: src) = 0x25 :: percentDecode (hi :: lo :: src) := by
  simp only [percentDecode, h]

private theorem hexVal_lt {b : UInt8} {v : Nat} (h : hexVal b = some v) : v < 16 :=
    (hexVal_some h).1

private theorem strtol16_of_hexByte {hi lo b : UInt8} (h : hexByte hi lo = some b) :
    UInt8.ofInt (strtol16 [hi, lo]) = b := by
  unfold hexByte at h
  split at h
  · rename_i v w hv hw
    have hlt := hexVal_lt hv
    have hlt' := hexVal_lt hw
    have hbyte : ((16 * (v : Int) + w) % 2 ^ 8).toNat = 16 * v + w := by omega
    rw [Option.some.injEq] at h
    rw [strtol16_hex hv hw, UInt8.ofInt, hbyte, h]
  · cases h

private theorem hexDigits_le_one {s : List UInt8} (hs : s.length ≤ 1) : hexDigits 0 s < 16 := by
  match s, hs with
  | [], _ => simp [hexDigits]
  | [b], _ =>
    cases hb : hexVal b with
    | none => simp [hexDigits, hb]
    | some v => simpa [hexDigits, hb] using hexVal_lt hb

private theorem hexDigits_of_not_hexByte {hi lo : UInt8} (h : hexByte hi lo = none) :
    hexDigits 0 [hi, lo] < 16 := by
  cases hhi : hexVal hi with
  | none => simp [hexDigits, hhi]
  | some v =>
    cases hlo : hexVal lo with
    | none => simpa [hexDigits, hhi, hlo] using hexVal_lt hhi
    | some w => simp [hexByte, hhi, hlo] at h

private theorem strtol16_of_not_hexByte {hi lo : UInt8} (h : hexByte hi lo = none) :
    -16 < strtol16 [hi, lo] ∧ strtol16 [hi, lo] < 16 := by
  have hsign : ∀ (neg : Prop) [Decidable neg] (n : Nat), n < 16 →
      -16 < (if neg then -(n : Int) else n) ∧ (if neg then -(n : Int) else n) < 16 := by
    intro neg _ n hn
    split <;> omega
  unfold strtol16
  apply hsign
  by_cases hspace : isSpace hi = true
  · -- one character is left behind the space
    have hleft : ([hi, lo].dropWhile isSpace).length ≤ 1 := by
      rw [List.dropWhile_cons_of_pos hspace]
      exact (List.dropWhile_suffix _).length_le
    apply hexDigits_le_one
    generalize [hi, lo].dropWhile isSpace = s at hleft
    have htail : s.tail.length ≤ 1 := by
      rw [List.length_tail]
      omega
    have hdrop : ∀ t : List UInt8, t.length ≤ 1 → (t.drop 2).length ≤ 1 := by
      intro t ht
      rw [List.length_drop]
      omega
    split
    · split
      · exact hdrop _ htail
      · exact htail
    · split
      · exact hdrop _ hleft
      · exact hleft
  · rw [List.dropWhile_cons_of_neg hspace]
    split
    · apply hexDigits_le_one
      split <;> simp
    · split
      · exact hexDigits_le_one (by simp)
      · exact hexDigits_of_not_hexByte h

private theorem escapesHex_plain {room : Nat} {b : UInt8} (hb : b ≠ 0x25) (src : List UInt8) :
    EscapesHex (room + 1) (b :: src) ↔ EscapesHex room src := by
  constructor
  · intro h p hi lo q hsrc hlen
    apply h (b :: p) hi lo q (by rw [hsrc, List.cons_append])
    rw [percentDecode_plain hb, List.length_cons]
    exact Nat.succ_lt_succ hlen
  · intro h p hi lo q hsrc hlen
    cases p with
    | nil => exact absurd (List.cons.inj hsrc).1 hb
    | cons c p =>
      obtain ⟨rfl, hrest⟩ := List.cons.inj hsrc
      rw [percentDecode_plain hb, List.length_cons] at hlen
      exact h p hi lo q hrest (Nat.lt_of_succ_lt_succ hlen)

private theorem escapesHex_short {room : Nat} {src : List UInt8} (hsrc : src.length < 3) :
    EscapesHex room src := by
  intro p hi lo q h
  rw [h] at hsrc
  simp at hsrc
  omega

private theorem hexByte_ne_percent {hi lo b : UInt8} (h : hexByte hi lo = some b) : hi ≠ 0x25 ∧ lo ≠ 0x25 := by
  constructor
  · rintro rfl
    cases h
  · rintro rfl
    unfold hexByte at h
    split at h
    · rename_i hlo
      cases hlo
    · cases h

private theorem escapesHex_hex {room : Nat} {hi lo b : UInt8} (hb : hexByte hi lo = some b) (src : List UInt8) :
    EscapesHex (room + 1) (0x25 :: hi :: lo :: src) ↔ EscapesHex room src := by
  obtain ⟨hhi, hlo⟩ := hexByte_ne_percent hb
  constructor
  · intro h p hi' lo' q hsrc hlen
    apply h (0x25 :: hi :: lo :: p) hi' lo' q (by rw [hsrc]; rfl)
    rw [percentDecode_hex hb, List.length_cons]
    exact Nat.succ_lt_succ hlen
  · intro h p hi' lo' q hsrc hlen
    match p, hsrc with
    | [], hsrc =>
      simp only [List.nil_append, List.cons.injEq, true_and] at hsrc
      rw [← hsrc.1, ← hsrc.2.1, hb]
      exact Option.some_ne_none b
    | [_], hsrc =>
      simp only [List.cons_append, List.nil_append, List.cons.injEq] at hsrc
      exact absurd hsrc.2.1 hhi
    | [_, _], hsrc =>
      simp only [List.cons_append, List.nil_append, List.cons.injEq] at hsrc
      exact absurd hsrc.2.2.1 hlo
    | c :: c' :: c'' :: p, hsrc =>
      simp only [List.cons_append, List.cons.injEq] at hsrc
      obtain ⟨rfl, rfl, rfl, hrest⟩ := hsrc
      rw [percentDecode_hex hb, List.length_cons] at hlen
      exact h p hi' lo' q hrest (Nat.lt_of_succ_lt_succ hlen)

private theorem ofInt_strtol16_ne {hi lo : UInt8} (h : hexByte hi lo = none) :
    0x25 ≠ UInt8.ofInt (strtol16 [hi, lo]) := by
  intro heq
  obtain ⟨hlow, hhigh⟩ := strtol16_of_not_hexByte h
  have hnat := congrArg UInt8.toNat heq
  simp only [UInt8.ofInt, UInt8.toNat_ofNat'] at hnat
  change 37 = _ at hnat
  omega

/-- The decoding of the form encoding and what the loop writes, compared byte by byte up to
the end of both: they agree exactly if no escape that is met has other characters than digits. -/
theorem percentDecode_rel_iff {R : List UInt8 → List UInt8 → Prop} (hnil : R [] [])
    (hcons : ∀ a b x y, R (a :: x) (b :: y) ↔ a = b ∧ R x y) (room : Nat) (src : List UInt8) :
    R ((percentDecode src).take room) (urlDecode room src) ↔ EscapesHex room src := by
  induction room generalizing src with
  | zero => simp [urlDecode, EscapesHex, hnil]
  | succ room ih =>
    cases src with
    | nil => simp [urlDecode, percentDecode, EscapesHex, hnil]
    | cons b src =>
      by_cases hb : b = 0x25
      · subst hb
        by_cases hlen : 2 ≤ src.length
        · obtain ⟨hi, lo, rest, rfl⟩ : ∃ hi lo rest, src = hi :: lo :: rest := by
            cases src with
            | nil => exact absurd hlen (by decide)
            | cons hi src =>
              cases src with
              | nil => exact absurd hlen (by simp)
              | cons lo rest => exact ⟨hi, lo, rest, rfl⟩
          have hstep : urlDecode (room + 1) (0x25 :: hi :: lo :: rest) =
              UInt8.ofInt (strtol16 [hi, lo]) :: urlDecode room rest := by
            rw [urlDecode, if_neg (by decide), if_pos ⟨rfl, hlen⟩]
            rfl
          cases hbyte : hexByte hi lo with
          | some c =>
            rw [hstep, strtol16_of_hexByte hbyte, percentDecode_hex hbyte, List.take_succ_cons,
              hcons, escapesHex_hex hbyte, ← ih]
            exact and_iff_right rfl
          | none =>
            rw [hstep, percentDecode_bad hbyte, List.take_succ_cons, hcons]
            constructor
            · intro h
              exact absurd h.1 (ofInt_strtol16_ne hbyte)
            · intro h
              exact absurd hbyte (h [] hi lo rest rfl (Nat.succ_pos room))
        · have hshort : src.length < 2 := Nat.lt_of_not_le hlen
          rw [urlDecode, if_neg (by decide), if_neg (fun h => hlen h.2), percentDecode_short hshort,
            List.take_succ_cons, hcons, ih]
          simp [escapesHex_short (show src.length < 3 by omega),
            escapesHex_short (show (0x25 :: src : List UInt8).length < 3 by simp; omega)]
      · rw [percentDecode_plain hb, List.take_succ_cons, escapesHex_plain hb, ← ih]
        by_cases hplus : b = 0x2B
        · rw [urlDecode, if_pos hplus, if_pos hplus, hcons]
          exact and_iff_right rfl
        · rw [urlDecode, if_neg hplus, if_neg hplus, if_neg (fun h => hb h.1), hcons]
          exact and_iff_right rfl

private theorem urlDecode_eq {room : Nat} {src : List UInt8} (h : EscapesHex room src) :
    urlDecode room src = (percentDecode src).take room :=
  ((percentDecode_rel_iff rfl (fun _ _ _ _ => by rw [List.cons.injEq]) room src).mpr h).symm

private theorem escapesHex_of_leads {room : Nat} {src rest : List UInt8}
    (h : (percentDecode src).take room <+: urlDecode room src ++ rest) : EscapesHex room src := by
  apply (percentDecode_rel_iff (R := fun x y => x <+: y ++ rest) _ _ room src).mp h
  · exact List.nil_prefix
  · intro a b x y
    rw [List.cons_append, List.cons_prefix_cons]

/-- `url_decode` stays inside its buffer. It writes the first bytes of the decoding of the
form encoding, closed by a zero byte, exactly if each `%` that it meets with two characters
behind it has two hexadecimal digits there. -/
theorem url_decode_reference_iff {dst : List UInt8} {dstLen : Nat} (hlen : 1 ≤ dstLen)
    (hdst : dstLen ≤ dst.length) (src : List UInt8) :
    (urlDecodeTo dst 0 (dstLen - 1) src).length = dst.length ∧
    (urlDecodeTo dst 0 (dstLen - 1) src).drop dstLen = dst.drop dstLen ∧
    ((urlDecodeTo dst 0 (dstLen - 1) src).take (((percentDecode src).take (dstLen - 1)).length + 1) =
        (percentDecode src).take (dstLen - 1) ++ [0] ↔
      EscapesHex (dstLen - 1) src) := by
  have hto := urlDecodeTo_eq (Nat.zero_le dst.length) (dstLen - 1) src
  have hroom := urlDecode_length_le (dstLen - 1) src
  have hwritten : 0 + (urlDecode (dstLen - 1) src ++ [0]).length ≤ dstLen := by
    rw [List.length_append, List.length_singleton]
    omega
  rw [hto]
  refine ⟨length_store (hwritten.trans hdst), drop_store (Nat.zero_le _) hwritten, ?_⟩
  constructor
  · intro h
    have hleads : (percentDecode src).take (dstLen - 1) <+:
        store dst 0 (urlDecode (dstLen - 1) src ++ [0]) := by
      apply (List.prefix_append _ [0]).trans
      rw [← h]
      exact List.take_prefix _ _
    apply escapesHex_of_leads
    rwa [store, List.take_zero, List.nil_append, List.append_assoc] at hleads
  · intro h
    have htake := @take_store _ dst (urlDecode (dstLen - 1) src ++ [0]) 0 (Nat.zero_le _)
    rw [List.length_append, List.length_singleton, Nat.zero_add] at htake
    rw [urlDecode_eq h] at htake ⊢
    simpa using htake

theorem url_decode_reference_iff_digits :
    1 ≤ 4 ∧ 4 ≤ (List.replicate 6 (0xFF : UInt8)).length ∧
      EscapesHex (4 - 1) (ascii ['a', '%', '4', '1', '+', '%']) := by
  refine ⟨by decide, by decide, ?_⟩
  exact (@url_decode_reference_iff (List.replicate 6 0xFF) 4 (by decide) (by decide) _).2.2.mp
    (by decide)

/-- A `%` in front of other characters becomes a zero byte, which ends the text there. -/
theorem url_decode_drops_percent :
    urlDecodeTo (List.replicate 8 0xFF) 0 (8 - 1) (ascii ['a', '%', 'z', 'z', 'b']) =
        [0x61, 0, 0x62, 0, 0xFF, 0xFF, 0xFF, 0xFF] ∧
      percentDecode (ascii ['a', '%', 'z', 'z', 'b']) = ascii ['a', '%', 'z', 'z', 'b'] := by
  decide

end WirelessHub.Firmware.Portal
