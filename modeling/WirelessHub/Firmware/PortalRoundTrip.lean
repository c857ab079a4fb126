import Mathlib.Data.List.TakeDrop
import WirelessHub.Firmware.Portal

/-!
# The round trip of a network name through the portal

The option list carries a scanned name as long as `html_escape` reaches its last byte, and the
form brings a name back as long as it fits the buffer of `post_save_handler`, which has room
for one byte less than a name may have.
-/

namespace WirelessHub.Firmware.Portal

open Framework

section Html

theorem entity_cases (b : UInt8) : (∃ e ∈ entities, e.1 = b ∧ entity b = e.2) ∨
    (b ≠ 0x26 ∧ b ≠ 0x22 ∧ b ≠ 0x3C ∧ b ≠ 0x3E) ∧ entity b = [b] := by
  by_cases hamp : b = 0x26
  · subst hamp
    exact .inl ⟨_, .head _, rfl, rfl⟩
  by_cases hquot : b = 0x22
  · subst hquot
    exact .inl ⟨_, .tail _ (.head _), rfl, rfl⟩
  by_cases hlt : b = 0x3C
  · subst hlt
    exact .inl ⟨_, .tail _ (.tail _ (.head _)), rfl, rfl⟩
  by_cases hgt : b = 0x3E
  · subst hgt
    exact .inl ⟨_, .tail _ (.tail _ (.tail _ (.head _))), rfl, rfl⟩
  · refine .inr ⟨⟨hamp, hquot, hlt, hgt⟩, ?_⟩
    simp only [entity, entities, List.lookup_cons, List.lookup_nil, beq_false_of_ne hamp, beq_false_of_ne hquot,
      beq_false_of_ne hlt, beq_false_of_ne hgt, Option.getD_none]

theorem entities_spec : ∀ e ∈ entities, e.2.length ≤ 6 ∧ 0x22 ∉ e.2 ∧ 0x3C ∉ e.2 ∧ 0x3E ∉ e.2 ∧
    e.2.head? = some 0x26 ∧ 0x26 ∉ e.2.tail := by decide

private theorem entity_length_le (b : UInt8) : (entity b).length ≤ 6 := by
  cases entity_cases b with
  | inl h =>
    obtain ⟨e, he, -, heq⟩ := h
    rw [heq]
    exact (entities_spec e he).1
  | inr h => simp [h.2]

private theorem entity_no_delimiter (b : UInt8) :
    0x22 ∉ entity b ∧ 0x3C ∉ entity b ∧ 0x3E ∉ entity b := by
  cases entity_cases b with
  | inl h =>
    obtain ⟨e, he, -, heq⟩ := h
    rw [heq]
    obtain ⟨-, hquot, hlt, hgt, -⟩ := entities_spec e he
    exact ⟨hquot, hlt, hgt⟩
  | inr h => simp [h.2, Ne.symm h.1.2.1, Ne.symm h.1.2.2.1, Ne.symm h.1.2.2.2]

private theorem htmlUnescape_entity (b : UInt8) (s : List UInt8) :
    htmlUnescape 0 (entity b ++ s) = b :: htmlUnescape 0 s := by
  cases entity_cases b with
  | inl h =>
    obtain ⟨e, he, rfl, heq⟩ := h
    rw [heq]
    simp only [entities, List.mem_cons, List.not_mem_nil, or_false] at he
    rcases he with rfl | rfl | rfl | rfl <;> rfl
  | inr h =>
    have hfind : entities.find? (fun e => e.2.isPrefixOf (b :: s)) = none := by
      simp [entities, ascii, List.isPrefixOf, Ne.symm h.1.1]
    rw [h.2, List.singleton_append, htmlUnescape, hfind]

theorem htmlUnescape_flatMap (src : List UInt8) : htmlUnescape 0 (src.flatMap entity) = src := by
  induction src with
  | nil => rfl
  | cons b src ih => rw [List.flatMap_cons, htmlUnescape_entity, ih]

/-- The bytes that the loop of `html_escape` reaches. -/
def reached (dstLen o : Nat) : List UInt8 → List UInt8
  | [] => []
  | b :: src => if o < dstLen - 7 then b :: reached dstLen (o + (entity b).length) src else []

theorem htmlEscape_eq (dstLen o : Nat) (src : List UInt8) :
    htmlEscape dstLen o src = (reached dstLen o src).flatMap entity := by
  induction src generalizing o with
  | nil => rfl
  | cons b src ih =>
    simp only [htmlEscape, reached]
    split
    · rw [List.flatMap_cons, ih]
    · rfl

theorem reached_eq_iff (dstLen o : Nat) (src : List UInt8) (hne : src ≠ []) :
    reached dstLen o src = src ↔ o + (src.dropLast.flatMap entity).length < dstLen - 7 := by
  induction src generalizing o with
  | nil => exact absurd rfl hne
  | cons b src ih =>
    cases src with
    | nil =>
      simp only [reached, List.dropLast_singleton, List.flatMap_nil, List.length_nil, Nat.add_zero]
      split <;> simp [*]
    | cons c src =>
      rw [List.dropLast_cons_cons, List.flatMap_cons, List.length_append, ← Nat.add_assoc,
        ← ih _ (List.cons_ne_nil c src), reached]
      split
      · simp
      · rename_i hlt
        constructor
        · intro h
          cases h
        · intro h
          rw [ih _ (List.cons_ne_nil c src)] at h
          omega

theorem htmlEscape_length_le (dstLen o : Nat) (src : List UInt8) (ho : o ≤ dstLen - 2) :
    o + (htmlEscape dstLen o src).length ≤ dstLen - 2 := by
  induction src generalizing o with
  | nil => simpa [htmlEscape] using ho
  | cons b src ih =>
    have hb := entity_length_le b
    simp only [htmlEscape]
    split
    · have hrest := ih (o + (entity b).length) (by omega)
      rw [List.length_append]
      omega
    · simpa using ho

theorem htmlEscape_no_delimiter (dstLen o : Nat) (src : List UInt8) :
    0x22 ∉ htmlEscape dstLen o src ∧ 0x3C ∉ htmlEscape dstLen o src ∧
      0x3E ∉ htmlEscape dstLen o src := by
  rw [htmlEscape_eq]
  simp only [List.mem_flatMap, not_exists, not_and]
  exact ⟨fun b _ => (entity_no_delimiter b).1, fun b _ => (entity_no_delimiter b).2.1,
    fun b _ => (entity_no_delimiter b).2.2⟩

theorem optionHtml_eq {slot : List UInt8} (hne : slot ≠ []) : optionHtml slot =
    some (optionOpen ++ htmlEscape 140 0 slot ++ optionMid ++ htmlEscape 140 0 slot ++ optionClose) := by
  have hlen := htmlEscape_length_le 140 0 slot (by omega)
  rw [optionHtml, if_neg hne]
  simp only [Option.some.injEq]
  apply List.take_of_length_le
  simp only [List.length_append, optionOpen, optionMid, optionClose, ascii, List.length_map,
    List.length_cons, List.length_nil]
  omega

/-- The option of a name carries it exactly if the loop of `html_escape` reaches its end. -/
theorem option_carries_iff {slot : List UInt8} (hne : slot ≠ []) :
    (∃ html, optionHtml slot = some html ∧ Carries html slot) ↔
      (slot.dropLast.flatMap entity).length ≤ 132 := by
  have hreach := reached_eq_iff 140 0 slot hne
  have hunescape : htmlUnescape 0 (htmlEscape 140 0 slot) = reached 140 0 slot := by
    rw [htmlEscape_eq, htmlUnescape_flatMap]
  rw [optionHtml_eq hne]
  constructor
  · intro h
    obtain ⟨html, hhtml, value, label, heq, hvalue, -, hun, -⟩ := h
    rw [Option.some.injEq] at hhtml
    rw [← hhtml] at heq
    -- both values end at the first quote
    have hcut : htmlEscape 140 0 slot = value := by
      simp only [List.append_assoc] at heq
      have htail := List.append_cancel_left heq
      have hfirst := takeWhile_ne_mark_append (htmlEscape_no_delimiter 140 0 slot).1
        ([0x3E] ++ (htmlEscape 140 0 slot ++ optionClose))
      rw [← hfirst]
      exact (congrArg _ htail).trans (takeWhile_ne_mark_append hvalue _)
    rw [hcut, hun] at hunescape
    have := hreach.mp hunescape.symm
    omega
  · intro h
    have hall := hreach.mpr (by omega)
    rw [hall] at hunescape
    have hdel := htmlEscape_no_delimiter 140 0 slot
    exact ⟨_, rfl, _, _, rfl, hdel.1, hdel.2.1, hunescape, hunescape⟩

end Html

section Form

variable {text enc ssid pass encSsid encPass : List UInt8}

theorem hexVal_some {b : UInt8} {v : Nat} (h : hexVal b = some v) : v < 16 ∧ isSpace b = false ∧
    b ≠ 0x2B ∧ b ≠ 0x2D ∧ b ≠ 0x78 ∧ b ≠ 0x58 ∧ b ≠ 0x3D ∧ b ≠ 0x26 ∧ b ≠ 0 := by
  have hrange : v < 16 ∧ ((48 ≤ b.toNat ∧ b.toNat ≤ 57) ∨ (65 ≤ b.toNat ∧ b.toNat ≤ 70) ∨
      (97 ≤ b.toNat ∧ b.toNat ≤ 102)) := by
    unfold hexVal at h
    split at h
    · cases h
      omega
    · split at h
      · cases h
        omega
      · split at h
        · cases h
          omega
        · cases h
  have hne : ∀ c : UInt8, ¬((48 ≤ c.toNat ∧ c.toNat ≤ 57) ∨ (65 ≤ c.toNat ∧ c.toNat ≤ 70) ∨
      (97 ≤ c.toNat ∧ c.toNat ≤ 102)) → b ≠ c := by
    intro c hc heq
    exact hc (heq ▸ hrange.2)
  refine ⟨hrange.1, ?_, ?_, ?_, ?_, ?_, ?_, ?_, ?_⟩
  · have hspace : b ≠ 32 := hne 32 (by decide)
    simp only [isSpace, hspace, decide_false, Bool.false_or, Bool.and_eq_false_iff,
      decide_eq_false_iff_not]
    omega
  all_goals exact hne _ (by decide)

theorem strtol16_hex {hi lo : UInt8} {h l : Nat} (hhi : hexVal hi = some h) (hlo : hexVal lo = some l) :
    strtol16 [hi, lo] = 16 * h + l := by
  obtain ⟨-, hspace, hplus, hminus, -⟩ := hexVal_some hhi
  obtain ⟨-, -, -, -, hx, hX, -⟩ := hexVal_some hlo
  have hdrop : [hi, lo].dropWhile isSpace = [hi, lo] := by
    rw [List.dropWhile_cons_of_neg (by simp [hspace])]
  simp only [strtol16, hdrop, List.head?_cons, Option.some.injEq, hplus, hminus, or_self, if_false,
    List.tail_cons, hx, hX, and_false, hexDigits, hhi, hlo]
  omega

private theorem Encodes.spec (h : Encodes text enc) :
    0x3D ∉ enc ∧ 0x26 ∉ enc ∧ 0 ∉ enc ∧ enc.length ≤ 3 * text.length := by
  induction h with
  | nil => simp
  | plain unreserved rest ih =>
    obtain ⟨heq, hamp, -, -, -, hzero⟩ := unreserved
    simp only [List.mem_cons, not_or, List.length_cons]
    exact ⟨⟨heq.symm, ih.1⟩, ⟨hamp.symm, ih.2.1⟩, ⟨hzero.symm, ih.2.2.1⟩, by omega⟩
  | space rest ih =>
    simp only [List.mem_cons, not_or, List.length_cons]
    exact ⟨⟨by decide, ih.1⟩, ⟨by decide, ih.2.1⟩, ⟨by decide, ih.2.2.1⟩, by omega⟩
  | percent high low value rest ih =>
    obtain ⟨-, -, -, -, -, -, heq, hamp, hzero⟩ := hexVal_some high
    obtain ⟨-, -, -, -, -, -, heq', hamp', hzero'⟩ := hexVal_some low
    simp only [List.mem_cons, not_or, List.length_cons]
    exact ⟨⟨by decide, heq.symm, heq'.symm, ih.1⟩, ⟨by decide, hamp.symm, hamp'.symm, ih.2.1⟩,
      ⟨by decide, hzero.symm, hzero'.symm, ih.2.2.1⟩, by omega⟩

private theorem urlDecode_of_encodes (h : Encodes text enc) (room : Nat) :
    urlDecode room enc = text.take room := by
  induction h generalizing room with
  | nil => cases room <;> rfl
  | plain unreserved rest ih =>
    cases room with
    | zero => rfl
    | succ room =>
      rw [urlDecode, if_neg unreserved.2.2.2.1, if_neg (fun h => unreserved.2.2.1 h.1), ih,
        List.take_succ_cons]
  | space rest ih =>
    cases room with
    | zero => rfl
    | succ room => rw [urlDecode, if_pos rfl, ih, List.take_succ_cons]
  | @percent b hi lo h l text enc high low value rest ih =>
    cases room with
    | zero => rfl
    | succ room =>
      have hb : UInt8.ofInt (strtol16 [hi, lo]) = b := by
        have hval : (16 * (h : Int) + l) = (b.toNat : Int) := by omega
        have hbyte : ((b.toNat : Int) % 2 ^ 8).toNat = b.toNat := by
          have hlt := b.toNat_lt
          omega
        rw [strtol16_hex high low, hval, UInt8.ofInt, hbyte, UInt8.ofNat_toNat]
      rw [urlDecode, if_neg (by decide), if_pos ⟨rfl, by simp⟩]
      simp only [List.take_succ_cons, List.take_zero, List.drop_succ_cons, List.drop_zero, hb, ih]

theorem formSearch_eq {key : List UInt8} (hkey : key.length ≤ 62) :
    (key ++ ascii ['=']).take 63 = key ++ [0x3D] := by
  apply List.take_of_length_le
  simp only [List.length_append, ascii, List.length_map, List.length_cons, List.length_nil]
  omega

theorem formField_eq {body key rest : List UInt8} (outLen : Nat) (hkey : key.length ≤ 62)
    (h : strstr (key ++ [0x3D]) body = some (key ++ 0x3D :: rest)) :
    formField body key outLen =
      some (cString (urlDecode (outLen - 1) ((rest.takeWhile (· ≠ 0x26)).take 255))) := by
  have hdrop : (key ++ 0x3D :: rest).drop (key ++ [0x3D]).length = rest := by
    rw [List.length_append, ← List.drop_drop, List.drop_left]
    rfl
  simp only [formField, formSearch_eq hkey, h, Option.map_some, hdrop]

private theorem cString_take (h : 0 ∉ text) (n : Nat) : cString (text.take n) = text.take n :=
  takeWhile_ne_mark fun hmem => h (List.mem_of_mem_take hmem)

private theorem Encodes.part_unmarked (hs : Encodes ssid encSsid) :
    0x3D ∉ encSsid ++ 0x26 :: ssidManualKey := by
  rw [List.mem_append, not_or]
  exact ⟨hs.spec.1, by decide⟩

private theorem strstr_ssidManual (hs : Encodes ssid encSsid) (encPass : List UInt8) :
    strstr (ssidManualKey ++ [0x3D]) (formBody encSsid encPass) =
      some (ssidManualKey ++ 0x3D :: (0x26 :: passKey ++ 0x3D :: encPass)) := by
  rw [formBody, strstr_marked (by decide) (by decide), if_neg (by decide),
    strstr_marked (by decide) hs.part_unmarked, if_pos]
  exact (List.suffix_cons _ _).trans (List.suffix_append _ _)

private theorem strstr_ssidList (encSsid encPass : List UInt8) :
    strstr (ssidListKey ++ [0x3D]) (formBody encSsid encPass) =
      some (formBody encSsid encPass) := by
  rw [formBody, strstr_marked (by decide) (by decide), if_pos (List.suffix_refl _)]

private theorem strstr_pass (hs : Encodes ssid encSsid) (encPass : List UInt8) :
    strstr (passKey ++ [0x3D]) (formBody encSsid encPass) = some (passKey ++ 0x3D :: encPass) := by
  rw [formBody, strstr_marked (by decide) (by decide), if_neg (by decide),
    strstr_marked (by decide) hs.part_unmarked, if_neg (not_suffix_append (by decide) (by decide)),
    strstr_marked (by decide) (by decide), if_pos (List.suffix_cons _ _)]

private theorem formBody_spec (hs : Encodes ssid encSsid) (hp : Encodes pass encPass)
    (hssid : ssid.length ≤ 32) (hpass : pass.length ≤ 63) :
    (formBody encSsid encPass).length ≤ 511 ∧ 0 ∉ formBody encSsid encPass := by
  obtain ⟨-, -, hzero, hlen⟩ := hs.spec
  obtain ⟨-, -, hzero', hlen'⟩ := hp.spec
  have hfixed : ssidListKey.length = 9 ∧ ssidManualKey.length = 11 ∧ passKey.length = 4 := by decide
  have hkeys : 0 ∉ ssidListKey ∧ 0 ∉ 0x26 :: ssidManualKey ∧ 0 ∉ 0x26 :: passKey := by decide
  constructor
  · simp only [formBody, List.length_append, List.length_cons]
    omega
  · simp only [formBody, List.mem_append, List.mem_cons, not_or] at hkeys ⊢
    exact ⟨hkeys.1, by decide, ⟨hzero, hkeys.2.1⟩, by decide, hkeys.2.2, by decide, hzero'⟩

/-- The form brings back as much of the name as the buffer of `post_save_handler` holds. -/
theorem postSaveHandler_formBody (hs : Encodes ssid encSsid) (hp : Encodes pass encPass)
    (hne : ssid ≠ []) (hssid : ssid.length ≤ 32) (hpass : pass.length ≤ 63) (hszero : 0 ∉ ssid)
    (hpzero : 0 ∉ pass) : postSaveHandler (formBody encSsid encPass) = some (ssid.take 31, pass) := by
  obtain ⟨hlen, hzero⟩ := formBody_spec hs hp hssid hpass
  have hbody : cString ((formBody encSsid encPass).take 511) = formBody encSsid encPass := by
    rw [cString_take hzero, List.take_of_length_le hlen]
  have hmanual : formField (formBody encSsid encPass) ssidManualKey 32 = some [] := by
    rw [formField_eq 32 (by decide) (strstr_ssidManual hs encPass)]
    rfl
  have hlist : formField (formBody encSsid encPass) ssidListKey 32 = some (ssid.take 31) := by
    rw [formField_eq 32 (by decide) (strstr_ssidList encSsid encPass), List.append_assoc,
      List.cons_append, takeWhile_ne_mark_append hs.spec.2.1, List.take_of_length_le,
      urlDecode_of_encodes hs, cString_take hszero]
    have := hs.spec.2.2.2
    omega
  have hpw : formField (formBody encSsid encPass) passKey 64 = some pass := by
    rw [formField_eq 64 (by decide) (strstr_pass hs encPass), takeWhile_ne_mark hp.spec.2.1,
      List.take_of_length_le, urlDecode_of_encodes hp, cString_take hpzero,
      List.take_of_length_le hpass]
    have := hp.spec.2.2.2
    omega
  have htake : ssid.take 31 ≠ [] := by simp [hne]
  have hsome : formBody encSsid encPass ≠ [] := List.cons_ne_nil _ _
  simp only [postSaveHandler, hbody, hmanual, hlist, hpw, Option.getD_some, if_true, htake, hsome,
    if_false]

end Form

/-- For every name of 1 to 32 bytes, every password of up to 63 and every encoding of the two:
the option of the name carries it and the form saves both as they are, exactly if the name has
at most 31 bytes and all but its last byte take at most 132 bytes with their entities. -/
theorem portal_round_trip_iff {ssid pass encSsid encPass : List UInt8} (hpos : 1 ≤ ssid.length)
    (hssid : ssid.length ≤ 32) (hszero : 0 ∉ ssid) (hpass : pass.length ≤ 63) (hpzero : 0 ∉ pass)
    (hs : Encodes ssid encSsid) (hp : Encodes pass encPass) :
    ((∃ html, optionHtml (scanSlot ssid) = some html ∧ Carries html ssid) ∧
      postSaveHandler (formBody encSsid encPass) = some (ssid, pass)) ↔
    ssid.length ≤ 31 ∧ (ssid.dropLast.flatMap entity).length ≤ 132 := by
  have hne : ssid ≠ [] := List.length_pos_iff.mp hpos
  have hslot : scanSlot ssid = ssid := by
    rw [scanSlot, cString, takeWhile_ne_mark hszero, List.take_of_length_le hssid]
  rw [hslot, option_carries_iff hne, postSaveHandler_formBody hs hp hne hssid hpass hszero hpzero,
    Option.some.injEq, Prod.mk.injEq, List.take_eq_self_iff]
  constructor
  · intro h
    exact ⟨h.2.1, h.1⟩
  · intro h
    exact ⟨h.2, h.1, rfl⟩

/-- The name `a&b c` and the password `p=+`. -/
theorem portal_round_trip_reserved :
    ∃ html, optionHtml (scanSlot (ascii ['a', '&', 'b', ' ', 'c'])) = some html ∧
      Carries html (ascii ['a', '&', 'b', ' ', 'c']) ∧
      postSaveHandler (formBody (ascii ['a', '%', '2', '6', 'b', '+', 'c'])
        (ascii ['p', '%', '3', 'd', '%', '2', 'B'])) =
          some (ascii ['a', '&', 'b', ' ', 'c'], ascii ['p', '=', '+']) := by
  have hs : Encodes (ascii ['a', '&', 'b', ' ', 'c']) (ascii ['a', '%', '2', '6', 'b', '+', 'c']) := by
    apply Encodes.plain (by decide)
    apply Encodes.percent (h := 2) (l := 6) rfl rfl rfl
    apply Encodes.plain (by decide)
    apply Encodes.space
    apply Encodes.plain (by decide)
    exact .nil
  have hp : Encodes (ascii ['p', '=', '+']) (ascii ['p', '%', '3', 'd', '%', '2', 'B']) := by
    apply Encodes.plain (by decide)
    apply Encodes.percent (h := 3) (l := 13) rfl rfl rfl
    apply Encodes.percent (h := 2) (l := 11) rfl rfl rfl
    exact .nil
  obtain ⟨⟨html, hhtml, hcarries⟩, hsaved⟩ := (portal_round_trip_iff (by decide) (by decide)
    (by decide) (by decide) (by decide) hs hp).mpr (by decide)
  exact ⟨html, hhtml, hcarries, hsaved⟩

private theorem encodes_replicate_a (n : Nat) : Encodes (List.replicate n 0x61) (List.replicate n 0x61) := by
  induction n with
  | zero => exact .nil
  | succ n ih => exact .plain (by decide) ih

/-- A name of 32 bytes is saved without its last byte, and of a name of 24 quotes the value of
the option has 23. -/
theorem portal_cuts_names :
    Encodes (List.replicate 32 0x61) (List.replicate 32 0x61) ∧
    postSaveHandler (formBody (List.replicate 32 0x61) []) = some (List.replicate 31 0x61, []) ∧
    optionHtml (scanSlot (List.replicate 24 0x22)) =
      some (optionOpen ++ (List.replicate 23 0x22).flatMap entity ++ optionMid ++
        (List.replicate 23 0x22).flatMap entity ++ optionClose) ∧
    htmlUnescape 0 ((List.replicate 23 0x22).flatMap entity) = List.replicate 23 0x22 := by
  have hesc : htmlEscape 140 0 (scanSlot (List.replicate 24 0x22)) =
      (List.replicate 23 0x22).flatMap entity := by decide
  refine ⟨encodes_replicate_a 32, by decide, ?_, htmlUnescape_flatMap _⟩
  rw [optionHtml_eq (by decide), hesc]

end WirelessHub.Firmware.Portal
