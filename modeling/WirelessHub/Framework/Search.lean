import Mathlib.Data.List.TakeWhile
import Mathlib.Tactic.Common

/-!
# Searching a text for a key

The first occurrence of a key with a mark behind it, in a text whose parts are closed by the
mark. Neither the key nor the parts contain the mark, so an occurrence ends where a part ends.
-/

namespace WirelessHub.Framework

variable {α : Type*} {mark : α} {key part : List α}

theorem marked_leads_iff (hkey : mark ∉ key) (hpart : mark ∉ part) (text : List α) :
    key ++ [mark] <+: part ++ mark :: text ↔ key = part := by
  induction key generalizing part with
  | nil =>
    cases part with
    | nil => simp
    | cons a part =>
      have hne : mark ≠ a := fun h => hpart (h ▸ List.mem_cons_self)
      simp [hne]
  | cons b key ih =>
    rw [List.mem_cons, not_or] at hkey
    cases part with
    | nil => simp [Ne.symm hkey.1]
    | cons a part =>
      rw [List.mem_cons, not_or] at hpart
      rw [List.cons_append, List.cons_append, List.cons_prefix_cons, ih hkey.2 hpart.2, List.cons.injEq]

theorem not_suffix_append {u w : List α} (hlen : key.length ≤ w.length) (h : ¬key <:+ w) :
    ¬key <:+ u ++ w := by
  intro hs
  exact h (List.suffix_of_suffix_length_le hs (List.suffix_append u w) hlen)

/-- The first occurrence of a pattern in a text, with what is in front of it and behind it. -/
def FirstAt (pat text before rest : List α) : Prop :=
  text = before ++ (pat ++ rest) ∧ ∀ p r, text = p ++ (pat ++ r) → before.length ≤ p.length

variable {pat text before rest : List α}

theorem firstAt_cons {a : α} (h : ¬pat <+: a :: text) :
    FirstAt pat (a :: text) (a :: before) rest ↔ FirstAt pat text before rest := by
  unfold FirstAt
  rw [List.cons_append, List.cons.injEq, and_iff_right rfl]
  apply and_congr_right
  intro _
  constructor
  · intro hfirst p r heq
    exact Nat.le_of_succ_le_succ (hfirst (a :: p) r (by rw [heq, List.cons_append]))
  · intro hfirst p r heq
    cases p with
    | nil => exact absurd ⟨r, heq.symm⟩ h
    | cons b p => exact Nat.succ_le_succ (hfirst p r (List.cons.inj heq).2)

theorem exists_firstAt {p r : List α} (h : text = p ++ (pat ++ r)) :
    ∃ before rest, FirstAt pat text before rest := by
  induction p generalizing text with
  | nil => exact ⟨[], r, h, fun _ _ _ => Nat.zero_le _⟩
  | cons a p ih =>
    rw [List.cons_append] at h
    subst h
    by_cases hleads : pat <+: a :: (p ++ (pat ++ r))
    · obtain ⟨rest, hrest⟩ := hleads
      exact ⟨[], rest, hrest.symm, fun _ _ _ => Nat.zero_le _⟩
    · obtain ⟨before, rest, hfirst⟩ := ih rfl
      exact ⟨a :: before, rest, (firstAt_cons hleads).mpr hfirst⟩

theorem FirstAt.append (h : FirstAt pat text before rest) (more : List α) :
    FirstAt pat (text ++ more) before (rest ++ more) := by
  refine ⟨by simp [h.1], ?_⟩
  intro p r heq
  by_contra hlt
  -- an earlier occurrence would end in front of `more`
  have hends : p ++ pat <+: text := by
    apply @List.prefix_of_prefix_length_le _ _ _ (text ++ more)
    · exact ⟨r, by rw [heq, List.append_assoc]⟩
    · exact List.prefix_append _ _
    · rw [h.1]
      simp only [List.length_append]
      omega
  obtain ⟨r', hr'⟩ := hends
  exact hlt (h.2 p r' (by rw [← hr', List.append_assoc]))

theorem FirstAt.of_append {more : List α} (h : FirstAt pat text before (rest ++ more)) :
    FirstAt pat (before ++ (pat ++ rest)) before rest := by
  refine ⟨rfl, ?_⟩
  intro p r heq
  apply h.2 p (r ++ more)
  rw [h.1, ← List.append_assoc pat, ← List.append_assoc before, heq]
  simp

variable [DecidableEq α]

theorem takeWhile_ne_mark (hpart : mark ∉ part) : part.takeWhile (· ≠ mark) = part := by
  rw [List.takeWhile_eq_self_iff]
  intro a ha
  rw [decide_eq_true_iff]
  intro heq
  exact hpart (heq ▸ ha)

theorem takeWhile_ne_mark_append (hpart : mark ∉ part) (text : List α) :
    (part ++ mark :: text).takeWhile (· ≠ mark) = part := by
  rw [List.takeWhile_append, if_pos (by rw [takeWhile_ne_mark hpart]),
    List.takeWhile_cons_of_neg (by simp), List.append_nil]

/-- The text from the first occurrence of the pattern on. -/
def strstr (pat : List α) : List α → Option (List α)
  | [] => if pat.isPrefixOf [] then some [] else none
  | a :: text => if pat.isPrefixOf (a :: text) then some (a :: text) else strstr pat text

/-- The key is found at the end of the first part, or behind it. -/
theorem strstr_marked (hkey : mark ∉ key) (hpart : mark ∉ part) (text : List α) :
    strstr (key ++ [mark]) (part ++ mark :: text) =
      if key <:+ part then some (key ++ mark :: text) else strstr (key ++ [mark]) text := by
  induction part with
  | nil =>
    have hleads : key ++ [mark] <+: mark :: text ↔ key = [] :=
      marked_leads_iff hkey List.not_mem_nil text
    rw [List.nil_append]
    simp only [strstr, List.isPrefixOf_iff_prefix, hleads, List.suffix_nil]
    split
    · rename_i hnil
      rw [hnil]
      rfl
    · rfl
  | cons a part ih =>
    have hleads := marked_leads_iff hkey hpart text
    rw [List.mem_cons, not_or] at hpart
    rw [List.cons_append] at hleads ⊢
    simp only [strstr, List.isPrefixOf_iff_prefix, hleads, ih hpart.2, List.suffix_cons_iff]
    by_cases heq : key = a :: part
    · simp [heq]
    · simp [heq]

theorem occurs_of_strstr {s : List α} (h : strstr pat text = some s) :
    ∃ p r, text = p ++ (pat ++ r) := by
  have hhere : ∀ {text : List α}, pat.isPrefixOf text = true → ∃ p r, text = p ++ (pat ++ r) := by
    intro text hleads
    obtain ⟨r, hr⟩ := List.isPrefixOf_iff_prefix.mp hleads
    exact ⟨[], r, hr.symm⟩
  induction text with
  | nil =>
    rw [strstr] at h
    split at h
    · exact hhere ‹_›
    · cases h
  | cons a text ih =>
    rw [strstr] at h
    split at h
    · exact hhere ‹_›
    · obtain ⟨p, r, htext⟩ := ih h
      exact ⟨a :: p, r, by rw [htext, List.cons_append]⟩

theorem FirstAt.strstr (h : FirstAt pat text before rest) : strstr pat text = some (pat ++ rest) := by
  induction before generalizing text with
  | nil =>
    rw [h.1, List.nil_append]
    have hleads : pat.isPrefixOf (pat ++ rest) := List.isPrefixOf_iff_prefix.mpr ⟨rest, rfl⟩
    cases heq : pat ++ rest with
    | nil => rw [Framework.strstr, ← heq, if_pos hleads]
    | cons a text => rw [Framework.strstr, ← heq, if_pos hleads]
  | cons a before ih =>
    obtain ⟨heq, hmin⟩ := id h
    rw [List.cons_append] at heq
    subst heq
    have hleads : ¬pat <+: a :: (before ++ (pat ++ rest)) := by
      intro ⟨r, hr⟩
      exact absurd (hmin [] r hr.symm) (Nat.not_succ_le_zero _)
    rw [Framework.strstr, if_neg (mt List.isPrefixOf_iff_prefix.mp hleads)]
    exact ih ((firstAt_cons hleads).mp h)

end WirelessHub.Framework
