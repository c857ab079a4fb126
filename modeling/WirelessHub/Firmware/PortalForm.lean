import WirelessHub.Firmware.PortalRoundTrip

/-!
# The form that comes back to the portal

`form_field` finds a field by the first place where its key and a `=` occur in the body, and
`post_save_handler` reads the body with a single call of `httpd_req_recv`. The pairs of the form
and the pieces in which a body may arrive are the other sides of the comparison.
-/

namespace WirelessHub.Firmware.Portal

open Framework

def portalKeys : List (List UInt8) := [ssidManualKey, ssidListKey, passKey]

/-- The value of a pair of the form, if it has the key in front of its first `=`. -/
def valueOf (key pair : List UInt8) : Option (List UInt8) :=
  if 0x3D ∈ pair ∧ pair.takeWhile (· ≠ 0x3D) = key then some (pair.drop (key.length + 1)) else none

/-- The value of the first pair with the key. -/
def pairValue (key body : List UInt8) : Option (List UInt8) :=
  (body.splitOn 0x26).findSome? (valueOf key)

/-- What `form_field` makes of the value of a field. -/
def fieldText (outLen : Nat) (value : List UInt8) : List UInt8 :=
  cString (urlDecode (outLen - 1) (value.take 255))

section Pairs

variable {key pair body before rest value : List UInt8}

private theorem portalKeys_spec : ∀ key ∈ portalKeys, 0x3D ∉ key ∧ 0x26 ∉ key ∧ 0 < key.length ∧
    key.length ≤ 62 := by decide

private theorem drop_key (key value : List UInt8) : (key ++ 0x3D :: value).drop (key.length + 1) = value := by
  rw [← List.drop_drop, List.drop_left]
  rfl

private theorem eq_of_valueOf (h : valueOf key pair = some value) :
    pair = key ++ 0x3D :: value := by
  unfold valueOf at h
  split at h
  · rename_i hkey
    obtain ⟨front, behind, rfl, hfront⟩ := List.eq_append_cons_of_mem hkey.1
    rw [takeWhile_ne_mark_append hfront] at hkey
    rw [← hkey.2, drop_key, Option.some.injEq] at h
    rw [h, hkey.2]
  · cases h

private theorem valueOf_append (hkey : 0x3D ∉ key) (value : List UInt8) :
    valueOf key (key ++ 0x3D :: value) = some value := by
  rw [valueOf, if_pos ⟨by simp, takeWhile_ne_mark_append hkey value⟩, drop_key]

private theorem infix_of_mem_splitOn (h : pair ∈ body.splitOn 0x26) : pair <:+: body := by
  have hjoin := @List.intercalate_splitOn _ body _ _ 0x26
  rw [← hjoin]
  generalize body.splitOn 0x26 = pairs at h
  induction pairs with
  | nil => cases h
  | cons first pairs ih =>
    cases pairs with
    | nil =>
      rw [List.mem_singleton] at h
      exact ⟨[], [], by rw [h, List.intercalate_singleton, List.nil_append, List.append_nil]⟩
    | cons second pairs =>
      rw [List.intercalate_cons_cons]
      rw [List.mem_cons] at h
      cases h with
      | inl heq =>
        rw [heq, List.append_assoc]
        exact (List.prefix_append _ _).isInfix
      | inr hmem => exact (ih hmem).trans (List.suffix_append _ _).isInfix

private theorem occurs_of_pairValue (h : pairValue key body = some value) :
    ∃ p r, body = p ++ ((key ++ [0x3D]) ++ r) := by
  obtain ⟨pair, hmem, hvalue⟩ := List.exists_of_findSome?_eq_some h
  obtain ⟨p, r, hbody⟩ := infix_of_mem_splitOn hmem
  refine ⟨p, value ++ r, ?_⟩
  rw [← hbody, eq_of_valueOf hvalue]
  simp

private theorem pairValue_append (body rest : List UInt8) :
    pairValue key (body ++ 0x26 :: rest) = (pairValue key body).or (pairValue key rest) := by
  rw [pairValue, List.splitOn_append_cons_self, List.findSome?_append]
  rfl

private theorem pairValue_leads (hkey : 0x3D ∉ key) (hsep : 0x26 ∉ key) (rest : List UInt8) :
    pairValue key ((key ++ [0x3D]) ++ rest) = some (rest.takeWhile (· ≠ 0x26)) := by
  have hone : ∀ value : List UInt8, 0x26 ∉ value →
      pairValue key (key ++ 0x3D :: value) = some value := by
    intro value hvalue
    have hpair : 0x26 ∉ key ++ 0x3D :: value := by simp [hsep, hvalue]
    rw [pairValue, List.splitOn_eq_singleton hpair, List.findSome?_singleton, valueOf_append hkey]
  rw [List.append_assoc, List.singleton_append]
  by_cases hrest : 0x26 ∈ rest
  · obtain ⟨value, more, rfl, hvalue⟩ := List.eq_append_cons_of_mem hrest
    rw [takeWhile_ne_mark_append hvalue, ← List.cons_append, ← List.append_assoc, pairValue_append,
      hone value hvalue]
    rfl
  · rw [takeWhile_ne_mark hrest, hone rest hrest]

/-- A key that is first met where a pair starts has the value of the first pair with it. -/
theorem pairValue_of_firstAt (hkey : 0x3D ∉ key) (hsep : 0x26 ∉ key)
    (h : FirstAt (key ++ [0x3D]) body before rest)
    (hstart : before = [] ∨ before.getLast? = some 0x26) :
    pairValue key body = some (rest.takeWhile (· ≠ 0x26)) := by
  cases hstart with
  | inl hnil => rw [h.1, hnil, List.nil_append, pairValue_leads hkey hsep]
  | inr hlast =>
    obtain ⟨front, rfl⟩ := List.getLast?_eq_some_iff.mp hlast
    have hbody : body = front ++ 0x26 :: ((key ++ [0x3D]) ++ rest) := by rw [h.1]; simp
    have hnone : pairValue key front = none := by
      rw [Option.eq_none_iff_forall_ne_some]
      intro value hvalue
      obtain ⟨p, r, hfront⟩ := occurs_of_pairValue hvalue
      have hearly := h.2 p (r ++ 0x26 :: ((key ++ [0x3D]) ++ rest)) (by rw [hbody, hfront]; simp)
      have hlen := congrArg List.length hfront
      simp only [List.length_append, List.length_singleton] at hearly hlen
      omega
    rw [hbody, pairValue_append, hnone, Option.none_or, pairValue_leads hkey hsep]

private theorem formField_of_firstAt (hkey : key.length ≤ 62) (outLen : Nat)
    (h : FirstAt (key ++ [0x3D]) body before rest) :
    formField body key outLen = some (fieldText outLen (rest.takeWhile (· ≠ 0x26))) := by
  have hfound := h.strstr
  rw [List.append_assoc, List.singleton_append] at hfound
  exact formField_eq outLen hkey hfound

private theorem formField_eq_none (hkey : key.length ≤ 62) (outLen : Nat)
    (h : ¬∃ p r, body = p ++ ((key ++ [0x3D]) ++ r)) : formField body key outLen = none := by
  have hnone : strstr (key ++ [0x3D]) body = none := by
    rw [Option.eq_none_iff_forall_ne_some]
    intro s hs
    exact h (occurs_of_strstr hs)
  simp only [formField, formSearch_eq hkey, hnone, Option.map_none]

end Pairs

/-- For every body, every key of the portal and every size of the output: if the first place where
the key and a `=` occur is the start of a pair, `form_field` writes the text of the first pair with
the key; if no pair has the key, it finds a field all the same wherever the key and a `=` occur.
It does as the pairs say if and only if that first place, if there is one, is the start of a pair,
or there is a pair with the key whose value has the same text as what stands there. -/
theorem form_field_pairs_iff {key : List UInt8} (hkey : key ∈ portalKeys) (body : List UInt8) (n : Nat) :
    (formField body key (n + 1) = (pairValue key body).map (fieldText (n + 1)) ↔
      ∀ before rest, FirstAt (key ++ [0x3D]) body before rest →
        before = [] ∨ before.getLast? = some 0x26 ∨
          ∃ value, pairValue key body = some value ∧
            fieldText (n + 1) value = fieldText (n + 1) (rest.takeWhile (· ≠ 0x26))) ∧
    ∀ before rest, FirstAt (key ++ [0x3D]) body before rest →
      (before = [] ∨ before.getLast? = some 0x26 →
        formField body key (n + 1) = (pairValue key body).map (fieldText (n + 1))) ∧
      (pairValue key body = none → formField body key (n + 1) ≠ none) := by
  obtain ⟨hmark, hsep, -, hlen⟩ := portalKeys_spec key hkey
  have hstart : ∀ before rest, FirstAt (key ++ [0x3D]) body before rest →
      before = [] ∨ before.getLast? = some 0x26 →
      formField body key (n + 1) = (pairValue key body).map (fieldText (n + 1)) := by
    intro before rest hfirst hstart
    rw [formField_of_firstAt hlen _ hfirst, pairValue_of_firstAt hmark hsep hfirst hstart,
      Option.map_some]
  have hfound : ∀ before rest, FirstAt (key ++ [0x3D]) body before rest →
      formField body key (n + 1) ≠ none := by
    intro before rest hfirst
    rw [formField_of_firstAt hlen _ hfirst]
    exact Option.some_ne_none _
  refine ⟨⟨fun h before rest hfirst => ?_, fun h => ?_⟩, fun before rest hfirst =>
    ⟨hstart before rest hfirst, fun _ => hfound before rest hfirst⟩⟩
  · rw [formField_of_firstAt hlen _ hfirst] at h
    exact .inr (.inr (Option.map_eq_some_iff.mp h.symm))
  · by_cases hoccurs : ∃ p r, body = p ++ ((key ++ [0x3D]) ++ r)
    · obtain ⟨p, r, hbody⟩ := hoccurs
      obtain ⟨before, rest, hfirst⟩ := exists_firstAt hbody
      rcases h before rest hfirst with hnil | hlast | ⟨value, hvalue, htext⟩
      · exact hstart before rest hfirst (.inl hnil)
      · exact hstart before rest hfirst (.inr hlast)
      · rw [formField_of_firstAt hlen _ hfirst, hvalue, Option.map_some, htext]
    · have hnone : pairValue key body = none := by
        rw [Option.eq_none_iff_forall_ne_some]
        intro value hvalue
        exact hoccurs (occurs_of_pairValue hvalue)
      rw [hnone, Option.map_none]
      exact formField_eq_none hlen _ hoccurs

theorem form_field_pairs_iff_plain : passKey ∈ portalKeys ∧
    ∀ before rest, FirstAt (passKey ++ [0x3D]) (formBody (ascii ['a']) (ascii ['b'])) before rest →
      before = [] ∨ before.getLast? = some 0x26 ∨
        ∃ value, pairValue passKey (formBody (ascii ['a']) (ascii ['b'])) = some value ∧
          fieldText (63 + 1) value = fieldText (63 + 1) (rest.takeWhile (· ≠ 0x26)) :=
  ⟨by decide, (form_field_pairs_iff (by decide) _ 63).1.mp (by decide)⟩

/-- The end of another key is taken for the key, whether or not the form has a pair with it. -/
theorem form_field_inside_other_key :
    formField (ascii ['b', 'y', 'p', 'a', 's', 's', '=', '1']) passKey 64 = some (ascii ['1']) ∧
    pairValue passKey (ascii ['b', 'y', 'p', 'a', 's', 's', '=', '1']) = none ∧
    formField (ascii ['b', 'y', 'p', 'a', 's', 's', '=', '1', '&', 'p', 'a', 's', 's', '=', '2']) passKey 64 =
      some (ascii ['1']) ∧
    pairValue passKey (ascii ['b', 'y', 'p', 'a', 's', 's', '=', '1', '&', 'p', 'a', 's', 's', '=', '2']) =
      some (ascii ['2']) := by
  decide

/-! ## A body in pieces -/

/-- The results of successive calls of `httpd_req_recv` for a body. -/
def Arrives (body : List UInt8) (recvs : List (List UInt8)) : Prop :=
  recvs.flatten = body ∧ ∀ recv ∈ recvs, recv ≠ []

/-- `post_save_handler` with the results of `httpd_req_recv` that it would get. It calls it
once, and without a body the call returns nothing. -/
def postSave (recvs : List (List UInt8)) : Option (List UInt8 × List UInt8) :=
  postSaveHandler (recvs.headD [])

section Pieces

variable {body recv : List UInt8} {recvs : List (List UInt8)}

private theorem Arrives.head_leads (h : Arrives body recvs) : recvs.headD [] <+: body := by
  rw [← h.1]
  cases recvs with
  | nil => exact List.nil_prefix
  | cons recv recvs => exact List.prefix_append _ _

private theorem exists_arrives (hne : recv ≠ []) (h : recv <+: body) :
    ∃ recvs, Arrives body recvs ∧ recvs.headD [] = recv := by
  obtain ⟨more, rfl⟩ := h
  by_cases hmore : more = []
  · exact ⟨[recv], ⟨by simp [hmore], by simpa using hne⟩, rfl⟩
  · exact ⟨[recv, more], ⟨by simp, by simp [hne, hmore]⟩, rfl⟩

private theorem cString_leads (h : recv <+: body) :
    ∃ more, cString body = cString recv ++ more := by
  obtain ⟨more, rfl⟩ := h
  unfold cString
  rw [List.takeWhile_append]
  split
  · rename_i hall
    refine ⟨more.takeWhile (· ≠ 0), ?_⟩
    rw [(List.takeWhile_prefix _).eq_of_length hall]
  · exact ⟨[], (List.append_nil _).symm⟩

def nameKeys : List (List UInt8) := [ssidManualKey, ssidListKey]

private theorem nameKeys_spec : ∀ key ∈ nameKeys, 0 < key.length ∧ key.length ≤ 62 := by decide

/-- The handler saves something exactly if one of the keys of a name has a text. -/
theorem postSaveHandler_eq_none_iff (hlen : recv.length ≤ 511) : postSaveHandler recv = none ↔
    ∀ key ∈ nameKeys, (formField (cString recv) key 32).getD [] = [] := by
  unfold postSaveHandler
  rw [List.take_of_length_le hlen]
  split
  · rename_i hnil
    subst hnil
    exact ⟨fun _ => by decide, fun _ => rfl⟩
  · simp only [nameKeys, List.forall_mem_cons, List.not_mem_nil, false_imp_iff, implies_true, and_true]
    split
    · rename_i hmanual
      simp [hmanual]
    · rename_i hmanual
      simp [hmanual]

/-- The first value of each key of a name is empty. -/
def NoName (body : List UInt8) : Prop :=
  ∀ key ∈ nameKeys, ∀ before rest,
    FirstAt (key ++ [0x3D]) (cString body) before rest → rest.takeWhile (· ≠ 0x26) = []

private theorem NoName.postSaveHandler (h : NoName body) (hlen : body.length ≤ 511) (hrecv : recv <+: body) :
    postSaveHandler recv = none := by
  rw [postSaveHandler_eq_none_iff (hrecv.length_le.trans hlen)]
  intro key hkey
  obtain ⟨-, hfits⟩ := nameKeys_spec key hkey
  by_cases hoccurs : ∃ p r, cString recv = p ++ ((key ++ [0x3D]) ++ r)
  · obtain ⟨p, r, hpr⟩ := hoccurs
    obtain ⟨before, rest, hfirst⟩ := exists_firstAt hpr
    obtain ⟨more, hmore⟩ := cString_leads hrecv
    have hempty := h key hkey before (rest ++ more) (hmore ▸ hfirst.append more)
    have hrest : rest.takeWhile (· ≠ 0x26) = [] := by
      cases rest with
      | nil => rfl
      | cons c rest => simpa using hempty
    rw [formField_of_firstAt hfits 32 hfirst, hrest]
    rfl
  · rw [formField_eq_none hfits 32 hoccurs]
    rfl

private theorem postSaveHandler_one (b : UInt8) : postSaveHandler [b] = none := by
  rw [postSaveHandler_eq_none_iff (by simp)]
  intro key hkey
  obtain ⟨hpos, hfits⟩ := nameKeys_spec key hkey
  rw [formField_eq_none hfits]
  · rfl
  · intro h
    obtain ⟨p, r, hpr⟩ := h
    have hshort := (List.takeWhile_prefix (l := [b]) (· ≠ 0)).length_le
    have hlen := congrArg List.length hpr
    rw [cString] at hlen
    simp only [List.length_append, List.length_singleton] at hshort hlen
    omega

private theorem fieldText_one_ne_nil {c : UInt8} (hc : c ≠ 0) : fieldText 32 [c] ≠ [] := by
  by_cases hplus : c = 0x2B
  · subst hplus
    decide
  · simp [fieldText, urlDecode, hplus, cString, hc]

private theorem postSaveHandler_ne_none {key before : List UInt8} {c : UInt8}
    (hkey : key ∈ nameKeys) (hlen : (before ++ ((key ++ [0x3D]) ++ [c])).length ≤ 511)
    (hzero : 0 ∉ before ++ ((key ++ [0x3D]) ++ [c])) (hsep : c ≠ 0x26)
    (hfirst : FirstAt (key ++ [0x3D]) (before ++ ((key ++ [0x3D]) ++ [c])) before [c]) :
    postSaveHandler (before ++ ((key ++ [0x3D]) ++ [c])) ≠ none := by
  intro hnone
  rw [postSaveHandler_eq_none_iff hlen] at hnone
  have hempty := hnone key hkey
  have hc : c ≠ 0 := by
    intro h
    apply hzero
    simp [h]
  have hvalue : [c].takeWhile (· ≠ 0x26) = [c] := List.takeWhile_cons_of_pos (by simpa using hsep)
  rw [cString, takeWhile_ne_mark hzero, formField_of_firstAt (nameKeys_spec key hkey).2 32 hfirst,
    hvalue] at hempty
  exact fieldText_one_ne_nil hc hempty

end Pieces

/-- For every body that fits the buffer: it is saved the same in whatever pieces it arrives
exactly if the first value of each key of a name in it is empty. -/
theorem post_save_pieces_iff {body : List UInt8} (hlen : body.length ≤ 511) :
    (∀ recvs, Arrives body recvs → postSave recvs = postSave [body]) ↔ NoName body := by
  constructor
  · intro h key hkey before rest hfirst
    by_contra hne
    cases rest with
    | nil => exact hne rfl
    | cons c rest =>
      have hsep : c ≠ 0x26 := by
        rintro rfl
        exact hne rfl
      have hcut : FirstAt (key ++ [0x3D]) (before ++ ((key ++ [0x3D]) ++ [c])) before [c] :=
        @FirstAt.of_append _ _ _ _ [c] rest hfirst
      have hstring : before ++ ((key ++ [0x3D]) ++ [c]) <+: cString body := by
        rw [hfirst.1]
        exact ⟨rest, by simp⟩
      have hleads := hstring.trans (List.takeWhile_prefix (l := body) _)
      have hzero : 0 ∉ before ++ ((key ++ [0x3D]) ++ [c]) := by
        intro hmem
        simpa using List.mem_takeWhile_imp (hstring.subset hmem)
      -- the piece that ends in the first byte of the name saves it, the first byte alone does not
      obtain ⟨recvs, harrives, hhead⟩ := exists_arrives (by simp) hleads
      have hsaved := postSaveHandler_ne_none hkey (hleads.length_le.trans hlen) hzero hsep hcut
      cases body with
      | nil => simp at hleads
      | cons b body =>
        obtain ⟨recvs', harrives', hhead'⟩ :=
          exists_arrives (List.cons_ne_nil b []) ⟨body, rfl⟩
        have hsame := (h recvs harrives).trans (h recvs' harrives').symm
        rw [postSave, postSave, hhead, hhead', postSaveHandler_one] at hsame
        exact hsaved hsame
  · intro h recvs harrives
    have hwhole : postSave [body] = none := h.postSaveHandler hlen (List.prefix_refl body)
    rw [hwhole]
    exact h.postSaveHandler hlen harrives.head_leads

theorem post_save_pieces_without_name :
    (formBody [] [0x78]).length ≤ 511 ∧
      ∀ recvs, Arrives (formBody [] [0x78]) recvs → postSave recvs = postSave [formBody [] [0x78]] := by
  have hnone : NoName (formBody [] [0x78]) := by
    intro key hkey before rest hfirst
    have hfound := hfirst.strstr
    simp only [nameKeys, List.mem_cons, List.not_mem_nil, or_false] at hkey
    cases hkey with
    | inl hmanual =>
      subst hmanual
      have hvalue : strstr (ssidManualKey ++ [0x3D]) (cString (formBody [] [0x78])) =
          some ((ssidManualKey ++ [0x3D]) ++ 0x26 :: passKey ++ [0x3D, 0x78]) := by decide
      rw [hvalue, Option.some.injEq, List.append_assoc] at hfound
      rw [← List.append_cancel_left hfound]
      rfl
    | inr hlist =>
      subst hlist
      have hvalue : strstr (ssidListKey ++ [0x3D]) (cString (formBody [] [0x78])) =
          some ((ssidListKey ++ [0x3D]) ++ (0x26 :: ssidManualKey ++ 0x3D :: 0x26 :: passKey ++ [0x3D, 0x78])) := by
        decide
      rw [hvalue, Option.some.injEq] at hfound
      rw [← List.append_cancel_left hfound]
      rfl
  exact ⟨by decide, (post_save_pieces_iff (by decide)).mpr hnone⟩

/-- A body whose last byte arrives late is saved without it. -/
theorem post_save_cut_name :
    Arrives (ssidListKey ++ ascii ['=', 'a', 'b']) [ssidListKey ++ ascii ['=', 'a'], ascii ['b']] ∧
    postSave [ssidListKey ++ ascii ['=', 'a'], ascii ['b']] = some (ascii ['a'], []) ∧
    postSave [ssidListKey ++ ascii ['=', 'a', 'b']] = some (ascii ['a', 'b'], []) := by
  refine ⟨⟨by decide, by decide⟩, by decide, by decide⟩

end WirelessHub.Firmware.Portal
