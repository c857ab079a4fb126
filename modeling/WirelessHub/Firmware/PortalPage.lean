import Mathlib.Data.List.Forall2
import WirelessHub.Firmware.PortalText

/-!
# The list of networks on the portal page

`send_portal_html` sends the page in chunks: the head, the select element with one option for each
network of the scan, and the form. The names are what other people call their networks. Whatever
is in them, a browser finds one option for each network that has a name, and in it the name.
-/

namespace WirelessHub.Firmware.Portal

open Framework

/-- `wifi_scan`: the slots after a scan that found `records`. -/
def wifiScan (records : List (List UInt8)) : List (List UInt8) := (records.take 20).map scanSlot

def selOpen : List UInt8 :=
  ascii "<label>Network</label><select name='ssid_list'><option value=''>".toList ++
    [0xE2, 0x80, 0x94] ++ ascii " choose network ".toList ++ [0xE2, 0x80, 0x94] ++
    ascii "</option>".toList

def selClose : List UInt8 := ascii "</select>".toList

def tailHtml : List UInt8 :=
  ascii "<p class='sep'>or type manually</p>".toList ++
    (ascii "<input name='ssid_manual' placeholder='SSID' maxlength='31'>".toList ++
      (ascii "<label>Password</label>".toList ++
        (ascii "<input name='pass' type='password' placeholder='Leave empty if open' ".toList ++
          (ascii "maxlength='63'>".toList ++
            (ascii "<button type='submit'>Connect</button>".toList ++
              ascii "</form></div></body></html>".toList)))))

/-- The chunks of `send_portal_html`; `head` is the text in front of the select element. -/
def sendPortalHtml (head : List UInt8) (slots : List (List UInt8)) : List (List UInt8) :=
  head :: ((if 0 < slots.length then selOpen :: (slots.filterMap optionHtml ++ [selClose]) else []) ++
    [tailHtml])

section Browser

def expect (tag s : List UInt8) : Option (List UInt8) :=
  if tag.isPrefixOf s then some (s.drop tag.length) else none

/-- An option with its value and its label, and what is behind it. -/
def readOption (s : List UInt8) : Option ((List UInt8 × List UInt8) × List UInt8) := do
  let s ← expect optionOpen s
  let value := s.takeWhile (· ≠ 0x22)
  let s ← expect optionMid (s.drop value.length)
  let label := s.takeWhile (· ≠ 0x3C)
  let s ← expect optionClose (s.drop label.length)
  some ((htmlUnescape 0 value, htmlUnescape 0 label), s)

/-- The options up to the end of the select element, with one unit of fuel each. -/
def readOptions : Nat → List UInt8 → Option (List (List UInt8 × List UInt8))
  | 0, _ => none
  | fuel + 1, s =>
      if selClose.isPrefixOf s then some []
      else (readOption s).bind fun x => (readOptions fuel x.2).map (x.1 :: ·)

/-- The networks that a browser offers; without a select element there are none. -/
def networks (s : List UInt8) : Option (List (List UInt8 × List UInt8)) :=
  if selOpen.isPrefixOf s then readOptions s.length (s.drop selOpen.length) else some []

end Browser

section Reading

private theorem expect_append (tag s : List UInt8) : expect tag (tag ++ s) = some s := by
  rw [expect, if_pos (List.isPrefixOf_iff_prefix.mpr (List.prefix_append tag s)), List.drop_left]

private theorem networks_tailHtml : networks (tailHtml ++ []) = some [] := by
  have hfirst : ∀ s, selOpen.isPrefixOf (ascii "<p class='sep'>or type manually</p>".toList ++ s) =
      false := fun s => rfl
  rw [networks, tailHtml, List.append_assoc, hfirst, if_neg Bool.false_ne_true]

def optionText (name : List UInt8) : List UInt8 :=
  optionOpen ++ (htmlEscape 140 0 name ++ (optionMid ++ (htmlEscape 140 0 name ++ optionClose)))

private theorem filterMap_optionHtml (slots : List (List UInt8)) :
    slots.filterMap optionHtml = (slots.filter (· ≠ [])).map optionText := by
  induction slots with
  | nil => rfl
  | cons slot slots ih =>
    by_cases hslot : slot = []
    · rw [List.filterMap_cons_none (by rw [hslot]; rfl), ih,
        List.filter_cons_of_neg (by simpa using hslot)]
    · rw [List.filterMap_cons_some (optionHtml_eq hslot), ih,
        List.filter_cons_of_pos (by simpa using hslot), List.map_cons, optionText]
      simp only [List.append_assoc]

/-- A browser reads the part of the name that `html_escape` reached, from either place. -/
theorem readOption_optionText (name rest : List UInt8) :
    readOption (optionText name ++ rest) = some ((reached 140 0 name, reached 140 0 name), rest) := by
  obtain ⟨hquot, hlt, -⟩ := htmlEscape_no_delimiter 140 0 name
  have hun : htmlUnescape 0 (htmlEscape 140 0 name) = reached 140 0 name := by
    rw [htmlEscape_eq, htmlUnescape_flatMap]
  have hvalue : ∀ s, (htmlEscape 140 0 name ++ (optionMid ++ s)).takeWhile (· ≠ 0x22) =
      htmlEscape 140 0 name := fun s => takeWhile_ne_mark_append hquot _
  have hlabel : ∀ s, (htmlEscape 140 0 name ++ (optionClose ++ s)).takeWhile (· ≠ 0x3C) =
      htmlEscape 140 0 name := fun s => takeWhile_ne_mark_append hlt _
  simp only [readOption, optionText, List.append_assoc, expect_append, Option.bind_eq_bind,
    Option.bind_some, hvalue, hlabel, List.drop_left, hun]

private theorem readOptions_map (names : List (List UInt8)) {fuel : Nat}
    (hfuel : names.length < fuel) (rest : List UInt8) :
    readOptions fuel ((names.map optionText).flatten ++ (selClose ++ rest)) =
      some (names.map fun name => (reached 140 0 name, reached 140 0 name)) := by
  induction names generalizing fuel with
  | nil =>
    obtain ⟨fuel, rfl⟩ := Nat.exists_eq_succ_of_ne_zero (Nat.ne_of_gt hfuel)
    exact if_pos (List.isPrefixOf_iff_prefix.mpr (List.prefix_append selClose rest))
  | cons name names ih =>
    obtain ⟨fuel, rfl⟩ := Nat.exists_eq_succ_of_ne_zero (Nat.ne_of_gt (Nat.zero_lt_of_lt hfuel))
    rw [List.map_cons, List.flatten_cons, List.append_assoc, readOptions, readOption_optionText,
      if_neg (by rw [optionText, List.append_assoc]; exact Bool.false_ne_true), Option.bind_some,
      ih (Nat.lt_of_succ_lt_succ hfuel)]
    rfl

private theorem length_le_flatten_optionText (names : List (List UInt8)) :
    names.length ≤ (names.map optionText).flatten.length := by
  induction names with
  | nil => exact Nat.le_refl 0
  | cons name names ih =>
    have hpos : 1 ≤ (optionText name).length := by
      rw [optionText, List.length_append]
      exact Nat.le_add_right_of_le (by decide)
    rw [List.map_cons, List.flatten_cons, List.length_append, List.length_cons]
    omega

end Reading

/-- For every scan: a browser offers one network for each scanned one that has a name, in their
order and with the same value and label, which is the name as far as `html_escape` gets, and all
of it if it takes at most 133 bytes escaped. No name adds, hides or changes another one. -/
theorem portal_lists_scan (head : List UInt8) (records : List (List UInt8)) :
    ∃ offered, networks ((sendPortalHtml head (wifiScan records)).flatten.drop head.length) =
        some (offered.map fun name => (name, name)) ∧
      List.Forall₂ (fun name slot => name <+: slot ∧
        ((slot.flatMap entity).length ≤ 133 → name = slot)) offered
        ((wifiScan records).filter (· ≠ [])) := by
  generalize wifiScan records = slots
  refine ⟨(slots.filter (· ≠ [])).map (reached 140 0), ?_, ?_⟩
  · have hpage : (sendPortalHtml head slots).flatten.drop head.length =
        (sendPortalHtml head slots).tail.flatten := List.drop_left
    rw [hpage, List.map_map]
    by_cases hslots : 0 < slots.length
    · have hselect : (sendPortalHtml head slots).tail.flatten = selOpen ++
          (((slots.filter (· ≠ [])).map optionText).flatten ++ (selClose ++ tailHtml)) := by
        simp [sendPortalHtml, hslots, filterMap_optionHtml]
      rw [hselect, networks, if_pos (List.isPrefixOf_iff_prefix.mpr (List.prefix_append _ _)),
        List.drop_left]
      apply readOptions_map
      have hlen := length_le_flatten_optionText (slots.filter (· ≠ []))
      have hopen : 0 < selOpen.length := by decide
      rw [List.length_append, List.length_append]
      omega
    · have hnil : slots = [] := List.length_eq_zero_iff.mp (by omega)
      rw [hnil]
      exact networks_tailHtml
  · rw [List.forall₂_map_left_iff, List.forall₂_same]
    intro slot _
    exact ⟨reached_leads 140 0 slot, fun hfits => reached_of_fits hfits⟩

end WirelessHub.Firmware.Portal
