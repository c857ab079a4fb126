import WirelessHub.Framework.Loop
import WirelessHub.Firmware.Endpoints

/-!
# Interfaces and alternate settings

`open_pipes` over a configuration with its interfaces and their alternate settings. The interface
it claims is that of the first interface descriptor, while the walk over the endpoint
descriptors goes through the whole configuration. So an endpoint is picked from whatever
setting has the first one that suits.
-/

namespace WirelessHub.Firmware.Usb

open Framework

/-- A descriptor behind that of the configuration. -/
inductive ConfigDescriptor
  | interface (number alternate : UInt8)
  | endpoint (address attributes : UInt8) (maxPacketSize : UInt16)
  | other
  deriving DecidableEq, Repr

namespace ConfigDescriptor

/-- What `open_pipes` reads of a descriptor. -/
def toDescriptor : ConfigDescriptor → Descriptor
  | interface number _ => .interface number
  | endpoint address attributes mps => .endpoint address attributes mps
  | other => .other

def isInterface : ConfigDescriptor → Bool
  | interface _ _ => true
  | _ => false

def isEndpoint : ConfigDescriptor → Bool
  | endpoint _ _ _ => true
  | _ => false

/-- The interface and the alternate setting that the following endpoints belong to. -/
def setting : ConfigDescriptor → Option (UInt8 × UInt8)
  | interface number alternate => some (number, alternate)
  | _ => none

end ConfigDescriptor

open ConfigDescriptor

/-- `usb_parse_next_descriptor_of_type`: where the next descriptor of a type stands. -/
def nextOfType (isType : ConfigDescriptor → Bool) (config : List ConfigDescriptor) (offset : Nat) :
    Option Nat :=
  ((config.drop offset).findIdx? isType).map (offset + ·)

/-- The walk over the endpoint descriptors, with the places where `s_in_ep` and `s_out_ep` were
taken from. -/
structure Walk where
  offset : Nat
  driver : Driver
  inAt : Option Nat
  outAt : Option Nat

def Walk.visit (w : Walk) (i : Nat) (d : ConfigDescriptor) : Walk :=
  let s := w.driver.considerEndpoint d.toDescriptor
  { offset := i + 1
    driver := s
    inAt := if w.driver.inEp = 0 ∧ s.inEp ≠ 0 then some i else w.inAt
    outAt := if w.driver.outEp = 0 ∧ s.outEp ≠ 0 then some i else w.outAt }

def walkTurn (config : List ConfigDescriptor) (w : Walk) : Turn Walk Walk :=
  match nextOfType isEndpoint config w.offset with
  | none => .done w
  | some i => .again (w.visit i (config.getD i .other))

section Next

variable {isType : ConfigDescriptor → Bool} {config : List ConfigDescriptor} {k i : Nat}

private theorem nextOfType_eq_some (h : nextOfType isType config k = some i) :
    k ≤ i ∧ (∃ d, config[i]? = some d ∧ isType d = true) ∧
      ∀ j d, k ≤ j → j < i → config[j]? = some d → isType d = false := by
  obtain ⟨m, hm, rfl⟩ := Option.map_eq_some_iff.mp h
  obtain ⟨hlt, hhere, hbefore⟩ := List.findIdx?_eq_some_iff_getElem.mp hm
  refine ⟨Nat.le_add_right k m, ⟨_, ?_, hhere⟩, ?_⟩
  · rw [← List.getElem?_drop]
    exact List.getElem?_eq_getElem hlt
  · intro j d hkj hji hd
    have hj := hbefore (j - k) (by omega)
    rw [← Nat.add_sub_of_le hkj, ← List.getElem?_drop] at hd
    obtain ⟨_, rfl⟩ := List.getElem?_eq_some_iff.mp hd
    exact Bool.eq_false_iff.mpr hj

private theorem nextOfType_eq_none (h : nextOfType isType config k = none) :
    ∀ j d, k ≤ j → config[j]? = some d → isType d = false := by
  intro j d hkj hd
  have hnone := List.findIdx?_eq_none_iff.mp (Option.map_eq_none_iff.mp h)
  rw [← Nat.add_sub_of_le hkj, ← List.getElem?_drop] at hd
  exact hnone d (List.mem_of_getElem? hd)

private theorem walkTurn_again {w w' : Walk} (h : walkTurn config w = .again w') :
    ∃ i d, nextOfType isEndpoint config w.offset = some i ∧ config[i]? = some d ∧
      w' = w.visit i d := by
  rw [walkTurn] at h
  split at h
  case h_1 => cases h
  case h_2 i hi =>
    obtain ⟨-, ⟨d, hd, -⟩, -⟩ := nextOfType_eq_some hi
    refine ⟨i, d, hi, hd, ?_⟩
    rw [← Turn.again.inj h, List.getD_eq_getElem?_getD, hd, Option.getD_some]

private theorem walkTurn_done {w w' : Walk} (h : walkTurn config w = .done w') :
    nextOfType isEndpoint config w.offset = none ∧ w' = w := by
  rw [walkTurn] at h
  split at h
  case h_1 hnone => exact ⟨hnone, (Turn.done.inj h).symm⟩
  case h_2 => cases h

end Next

def walkLoop (config : List ConfigDescriptor) : Loop Walk Walk where
  turn := walkTurn config
  variant w := config.length - w.offset
  decreases w w' h := by
    obtain ⟨i, d, hi, hd, rfl⟩ := walkTurn_again h
    have hle := (nextOfType_eq_some hi).1
    have hlt := (List.getElem?_eq_some_iff.mp hd).1
    simp only [Walk.visit]
    omega

/-- What `open_pipes` leaves: the driver, the interface it claims, and the places of the
endpoints it picks. -/
structure Opened where
  driver : Driver
  claimed : Option UInt8
  inAt : Option Nat
  outAt : Option Nat

/-- `open_pipes` for the device in `s_dev`. -/
def openPipes (s : Driver) (handle : Nat) (config : List ConfigDescriptor) : Opened :=
  match nextOfType isInterface config 0 with
  | none => ⟨{ s with dev := none }, none, none, none⟩
  | some i =>
    let n := (config.getD i .other).toDescriptor.interfaceNumber.getD 0
    let w := (walkLoop config).run ⟨0, { s with intfNum := n }, none, none⟩
    let s := w.driver
    if s.inEp = 0 then ⟨s, none, w.inAt, w.outAt⟩
    else
      { driver := { s with
          inXfer := some ⟨handle, s.inEp, s.inMps.toNat⟩
          outXfer := if s.outEp ≠ 0 then some ⟨handle, s.outEp, s.outMps.toNat⟩ else s.outXfer
          ctrlXfer := some ⟨handle, 0, 8 + 1024⟩ }
        claimed := some s.intfNum
        inAt := w.inAt
        outAt := w.outAt }

/-! ### The walk as a search for the first endpoints -/

def suitsIn (d : ConfigDescriptor) : Bool := d.toDescriptor.inAddress.isSome

def suitsOut (d : ConfigDescriptor) : Bool := d.toDescriptor.outAddress.isSome

section Picking

variable {field : Driver → UInt8} {pick : Descriptor → Option UInt8}

/-- A field that was empty stays empty as long as no descriptor can fill it. -/
theorem field_foldl_eq_zero_iff
    (hfold : ∀ s (ds : List Descriptor), field (ds.foldl Driver.considerEndpoint s) =
      if field s = 0 then (ds.findSome? pick).getD 0 else field s)
    (hpick : ∀ d a, pick d = some a → a ≠ 0) {s : Driver} (hs : field s = 0)
    (pre : List ConfigDescriptor) :
    field ((pre.map toDescriptor).foldl Driver.considerEndpoint s) = 0 ↔
      pre.findIdx? (fun d => (pick d.toDescriptor).isSome) = none := by
  rw [hfold, if_pos hs, List.findIdx?_eq_none_iff]
  cases hfind : (pre.map toDescriptor).findSome? pick with
  | none =>
    rw [List.findSome?_eq_none_iff] at hfind
    refine ⟨fun _ d hd => ?_, fun _ => rfl⟩
    rw [hfind d.toDescriptor (List.mem_map_of_mem hd)]
    rfl
  | some a =>
    obtain ⟨_, hmem, ha⟩ := List.exists_of_findSome?_eq_some hfind
    obtain ⟨d, hd, rfl⟩ := List.mem_map.mp hmem
    refine ⟨fun hzero => absurd hzero (hpick _ a ha), fun hall => ?_⟩
    have hnone := hall d hd
    rw [ha] at hnone
    cases hnone

private theorem findIdx?_concat_pick
    (hfold : ∀ s (ds : List Descriptor), field (ds.foldl Driver.considerEndpoint s) =
      if field s = 0 then (ds.findSome? pick).getD 0 else field s)
    (hpick : ∀ d a, pick d = some a → a ≠ 0) (s : Driver) (pre : List ConfigDescriptor)
    (d : ConfigDescriptor) :
    (if field ((pre.map toDescriptor).foldl Driver.considerEndpoint s) = 0 ∧
        field (((pre ++ [d]).map toDescriptor).foldl Driver.considerEndpoint s) ≠ 0 then
      some pre.length
    else if field s = 0 then pre.findIdx? fun d => (pick d.toDescriptor).isSome else none) =
      if field s = 0 then (pre ++ [d]).findIdx? fun d => (pick d.toDescriptor).isSome else none := by
  by_cases hs : field s = 0
  · simp only [if_pos hs, ne_eq, field_foldl_eq_zero_iff hfold hpick hs, List.findIdx?_append,
      List.findIdx?_singleton]
    cases hfind : pre.findIdx? fun d => (pick d.toDescriptor).isSome with
    | some i => rfl
    | none =>
      cases hd : pick d.toDescriptor with
      | none => rfl
      | some a => simp
  · rw [if_neg hs, if_neg hs, hfold, if_neg hs, if_neg fun h => hs h.1]

end Picking

/-- The driver and the places behind the first descriptors of a configuration. -/
structure Walked (s : Driver) (config : List ConfigDescriptor) (w : Walk) : Prop where
  driver : w.driver = ((config.take w.offset).map toDescriptor).foldl Driver.considerEndpoint s
  inAt : w.inAt = if s.inEp = 0 then (config.take w.offset).findIdx? suitsIn else none
  outAt : w.outAt = if s.outEp = 0 then (config.take w.offset).findIdx? suitsOut else none

section Walking

variable {s : Driver} {config : List ConfigDescriptor} {w w' : Walk} {d : ConfigDescriptor}

private theorem walked_start (s : Driver) (config : List ConfigDescriptor) :
    Walked s config ⟨0, s, none, none⟩ := by
  constructor
  · rfl
  · exact (ite_self none).symm
  · exact (ite_self none).symm

private theorem Walked.visit (h : Walked s config w) (hd : config[w.offset]? = some d) :
    Walked s config (w.visit w.offset d) := by
  have hlen : (config.take w.offset).length = w.offset :=
    List.length_take_of_le (Nat.le_of_lt (List.getElem?_eq_some_iff.mp hd).1)
  have htake : config.take (w.offset + 1) = config.take w.offset ++ [d] := by
    rw [List.take_add_one, hd]
    rfl
  have hdriver : w.driver.considerEndpoint d.toDescriptor =
      ((config.take (w.offset + 1)).map toDescriptor).foldl Driver.considerEndpoint s := by
    rw [htake, List.map_append, List.foldl_append, ← h.driver]
    rfl
  constructor
  · exact hdriver
  · have hfirst := findIdx?_concat_pick Driver.foldl_inEp (fun _ _ => Driver.inAddress_ne_zero) s
      (config.take w.offset) d
    rw [hlen, ← htake, ← hdriver, ← h.driver] at hfirst
    simp only [Walk.visit, h.inAt]
    exact hfirst
  · have hfirst := findIdx?_concat_pick Driver.foldl_outEp (fun _ _ => Driver.outAddress_ne_zero) s
      (config.take w.offset) d
    rw [hlen, ← htake, ← hdriver, ← h.driver] at hfirst
    simp only [Walk.visit, h.outAt]
    exact hfirst

private theorem visit_of_not_endpoint (hd : d.isEndpoint = false) (i : Nat) :
    w.visit i d = { w with offset := i + 1 } := by
  have hsame : w.driver.considerEndpoint d.toDescriptor = w.driver := by
    cases d with
    | interface n a => rfl
    | endpoint a b c => cases hd
    | other => rfl
  simp only [Walk.visit, hsame]
  rw [if_neg fun h => h.2 h.1, if_neg fun h => h.2 h.1]

private theorem Walked.skip (h : Walked s config w) {i : Nat} (hle : w.offset ≤ i)
    (hi : i ≤ config.length)
    (hbetween : ∀ j d, w.offset ≤ j → j < i → config[j]? = some d → d.isEndpoint = false) :
    Walked s config { w with offset := i } := by
  induction i, hle using Nat.le_induction with
  | base => exact h
  | succ i hle ih =>
    have hw := ih (Nat.le_of_succ_le hi) fun j d hj hji => hbetween j d hj (Nat.lt_succ_of_lt hji)
    have hd := List.getElem?_eq_getElem (Nat.lt_of_succ_le hi)
    have hvisit := hw.visit hd
    rwa [visit_of_not_endpoint (hbetween i _ hle (Nat.lt_succ_self i) hd)] at hvisit

private theorem Walked.again (h : Walked s config w) (hturn : walkTurn config w = .again w') :
    Walked s config w' := by
  obtain ⟨i, d, hi, hd, rfl⟩ := walkTurn_again hturn
  obtain ⟨hle, -, hbetween⟩ := nextOfType_eq_some hi
  have hlt := (List.getElem?_eq_some_iff.mp hd).1
  exact (h.skip hle (Nat.le_of_lt hlt) hbetween).visit hd

private theorem walked_run (s : Driver) (config : List ConfigDescriptor) :
    ((walkLoop config).run ⟨0, s, none, none⟩).driver =
      (config.map toDescriptor).foldl Driver.considerEndpoint s ∧
    ((walkLoop config).run ⟨0, s, none, none⟩).inAt =
      (if s.inEp = 0 then config.findIdx? suitsIn else none) ∧
    ((walkLoop config).run ⟨0, s, none, none⟩).outAt =
      (if s.outEp = 0 then config.findIdx? suitsOut else none) := by
  have hall : ∃ n, config.take n = config ∧
      Walked s config { (walkLoop config).run ⟨0, s, none, none⟩ with offset := n } := by
    apply Loop.run_induction (P := Walked s config)
      (Q := fun w : Walk => ∃ n, config.take n = config ∧ Walked s config { w with offset := n })
    case hs => exact walked_start s config
    case hagain => exact fun w w' h => h.again
    case hdone =>
      intro w w' h hturn
      obtain ⟨hnone, rfl⟩ := walkTurn_done hturn
      rcases Nat.le_total w'.offset config.length with hle | hle
      · refine ⟨config.length, List.take_length, h.skip hle (Nat.le_refl _) ?_⟩
        exact fun j d hj _ hd => nextOfType_eq_none hnone j d hj hd
      · exact ⟨w'.offset, List.take_of_length_le hle, h⟩
  obtain ⟨n, htake, hwalked⟩ := hall
  have hdriver := hwalked.driver
  have hin := hwalked.inAt
  have hout := hwalked.outAt
  rw [htake] at hdriver hin hout
  exact ⟨hdriver, hin, hout⟩

end Walking

/-! ### The claimed interface -/

/-- The interface that is claimed, where one is. -/
def firstInterface (config : List ConfigDescriptor) : Option UInt8 :=
  (config.map toDescriptor).findSome? Descriptor.interfaceNumber

private theorem map_nextOfType_interface (config : List ConfigDescriptor) :
    (nextOfType isInterface config 0).map (fun i =>
      (config.getD i .other).toDescriptor.interfaceNumber.getD 0) = firstInterface config := by
  rw [nextOfType, List.drop_zero, Option.map_map, firstInterface]
  induction config with
  | nil => rfl
  | cons d config ih =>
    rw [List.findIdx?_cons, List.map_cons, List.findSome?_cons, ← ih]
    cases d with
    | interface n a => rfl
    | endpoint a b c =>
      have hkind : ¬(endpoint a b c).isInterface = true := Bool.false_ne_true
      rw [if_neg hkind, Option.map_map]
      rfl
    | other =>
      have hkind : ¬other.isInterface = true := Bool.false_ne_true
      rw [if_neg hkind, Option.map_map]
      rfl

section Opening

variable {s : Driver} {handle : Nat} {config : List ConfigDescriptor} {n : UInt8}

private theorem foldl_intfNum (s : Driver) (ds : List Descriptor) :
    (ds.foldl Driver.considerEndpoint s).intfNum = s.intfNum := by
  induction ds generalizing s with
  | nil => rfl
  | cons d ds ih =>
    rw [List.foldl_cons, ih]
    cases d with
    | interface n => rfl
    | endpoint a b c =>
      simp only [Driver.considerEndpoint]
      split <;> split <;> rfl
    | other => rfl

private theorem inEp_foldl_eq_zero_iff (s : Driver) (config : List ConfigDescriptor) :
    ((config.map toDescriptor).foldl Driver.considerEndpoint s).inEp = 0 ↔
      s.inEp = 0 ∧ config.findIdx? suitsIn = none := by
  by_cases hs : s.inEp = 0
  · rw [and_iff_right hs]
    exact field_foldl_eq_zero_iff Driver.foldl_inEp (fun _ _ => Driver.inAddress_ne_zero) hs config
  · rw [Driver.foldl_inEp, if_neg hs]
    exact ⟨fun h => absurd h hs, fun h => absurd h.1 hs⟩

private theorem openPipes_of_none (h : firstInterface config = none) :
    openPipes s handle config = ⟨{ s with dev := none }, none, none, none⟩ := by
  rw [← map_nextOfType_interface, Option.map_eq_none_iff] at h
  simp only [openPipes, h]

private theorem openPipes_of_some (s : Driver) (handle : Nat) (h : firstInterface config = some n) :
    (openPipes s handle config).driver = s.openPipes handle (config.map toDescriptor) ∧
    (openPipes s handle config).claimed =
      (if s.inEp = 0 ∧ config.findIdx? suitsIn = none then none else some n) ∧
    (openPipes s handle config).inAt =
      (if s.inEp = 0 then config.findIdx? suitsIn else none) ∧
    (openPipes s handle config).outAt =
      (if s.outEp = 0 then config.findIdx? suitsOut else none) := by
  have hfirst : (config.map toDescriptor).findSome? Descriptor.interfaceNumber = some n := h
  rw [← map_nextOfType_interface] at h
  obtain ⟨i, hi, hn⟩ := Option.map_eq_some_iff.mp h
  obtain ⟨hdriver, hin, hout⟩ := walked_run { s with intfNum := n } config
  have hintf := foldl_intfNum { s with intfNum := n } (config.map toDescriptor)
  have hzero := inEp_foldl_eq_zero_iff { s with intfNum := n } config
  simp only [openPipes, hi, hn, Driver.openPipes, hfirst, hdriver, hin, hout, hzero]
  split
  case isTrue => exact ⟨rfl, rfl, rfl, rfl⟩
  case isFalse => exact ⟨rfl, congrArg some hintf, rfl, rfl⟩

/-- The finer model of `open_pipes` leaves the driver as the one without settings does. -/
theorem driver_openPipes (s : Driver) (handle : Nat) (config : List ConfigDescriptor) :
    (openPipes s handle config).driver = s.openPipes handle (config.map toDescriptor) := by
  cases h : firstInterface config with
  | none => rw [openPipes_of_none h, Driver.openPipes_of_none h]
  | some n => exact (openPipes_of_some s handle h).1

end Opening

/-- The interface and alternate setting under which a descriptor is declared: that of the last
interface descriptor before it. -/
def settingAt (config : List ConfigDescriptor) (i : Nat) : Option (UInt8 × UInt8) :=
  ((config.take i).filterMap setting).getLast?

/-- Before a suitable endpoint under any other setting there is one under the alternate
setting 0 of the interface. -/
def OwnsFirst (suits : ConfigDescriptor → Bool) (config : List ConfigDescriptor) (n : UInt8) : Prop :=
  ∀ j d, config[j]? = some d → suits d = true → settingAt config j ≠ some (n, 0) →
    ∃ i < j, ∃ e, config[i]? = some e ∧ suits e = true ∧ settingAt config i = some (n, 0)

private theorem ownsFirst_iff {suits : ConfigDescriptor → Bool} {config : List ConfigDescriptor} {n : UInt8} :
    OwnsFirst suits config n ↔
      ∀ i ∈ config.findIdx? suits, settingAt config i = some (n, 0) := by
  constructor
  · intro howns i hi
    obtain ⟨hlt, hsuits, hbefore⟩ := List.findIdx?_eq_some_iff_getElem.mp hi
    by_contra hother
    obtain ⟨k, hki, e, he, hearlier, -⟩ :=
      howns i _ (List.getElem?_eq_getElem hlt) hsuits hother
    obtain ⟨_, rfl⟩ := List.getElem?_eq_some_iff.mp he
    exact hbefore k hki hearlier
  · intro hfirst j d hd hsuits hother
    cases hfind : config.findIdx? suits with
    | none =>
      have hnone := List.findIdx?_eq_none_iff.mp hfind d (List.mem_of_getElem? hd)
      exact absurd hsuits (Bool.eq_false_iff.mp hnone)
    | some i =>
      obtain ⟨hlt, hearlier, hbefore⟩ := List.findIdx?_eq_some_iff_getElem.mp hfind
      have hsetting := hfirst i hfind
      have hne : i ≠ j := fun heq => hother (heq ▸ hsetting)
      have hle : ¬j < i := by
        intro hji
        obtain ⟨_, rfl⟩ := List.getElem?_eq_some_iff.mp hd
        exact hbefore j hji hsuits
      exact ⟨i, by omega, _, List.getElem?_eq_getElem hlt, hearlier, hsetting⟩

private theorem forall_mem_ite_none {c : Prop} [Decidable c] {o : Option Nat} {P : Nat → Prop} :
    (∀ i ∈ (if c then o else none), P i) ↔ (c → ∀ i ∈ o, P i) := by
  by_cases hc : c
  · rw [if_pos hc]
    exact ⟨fun h _ => h, fun h => h hc⟩
  · rw [if_neg hc]
    exact ⟨fun _ h => absurd h hc, fun _ => nofun⟩

private theorem claimed_eq_some_iff {s : Driver} {handle : Nat} {config : List ConfigDescriptor} {n : UInt8} :
    (openPipes s handle config).claimed = some n ↔
      firstInterface config = some n ∧ (s.inEp ≠ 0 ∨ ∃ d ∈ config, suitsIn d = true) := by
  have hsome : config.findIdx? suitsIn = none ↔ ¬∃ d ∈ config, suitsIn d = true := by
    rw [List.findIdx?_eq_none_iff]
    simp
  cases hfirst : firstInterface config with
  | none =>
    rw [openPipes_of_none hfirst]
    simp
  | some m =>
    rw [(openPipes_of_some s handle hfirst).2.1]
    simp only [hsome]
    split
    case isTrue hnone =>
      refine ⟨nofun, fun ⟨_, hin⟩ => ?_⟩
      rcases hin with hin | hin
      · exact absurd hnone.1 hin
      · exact absurd hin hnone.2
    case isFalse hin =>
      rw [not_and_or, not_not] at hin
      exact ⟨fun h => ⟨h, hin⟩, fun h => h.1⟩

/-- The endpoints that are picked belong to the claimed interface in its alternate setting 0
exactly if, for each direction that is still to be picked, no other setting has a suitable
endpoint before the first one of that setting. -/
theorem pipes_of_claimed_iff (s : Driver) (handle : Nat) (config : List ConfigDescriptor) :
    (∀ n, (openPipes s handle config).claimed = some n →
      (∀ i ∈ (openPipes s handle config).inAt, settingAt config i = some (n, 0)) ∧
      ∀ i ∈ (openPipes s handle config).outAt, settingAt config i = some (n, 0)) ↔
    ∀ n, firstInterface config = some n → (s.inEp ≠ 0 ∨ ∃ d ∈ config, suitsIn d = true) →
      (s.inEp = 0 → OwnsFirst suitsIn config n) ∧ (s.outEp = 0 → OwnsFirst suitsOut config n) := by
  simp only [claimed_eq_some_iff, and_imp]
  refine forall_congr' fun n => forall_congr' fun hfirst => forall_congr' fun _ => ?_
  obtain ⟨-, -, hin, hout⟩ := openPipes_of_some s handle hfirst
  rw [hin, hout, ownsFirst_iff, ownsFirst_iff, forall_mem_ite_none, forall_mem_ite_none]

/-- Two interfaces, the first of them without an endpoint. -/
def compositeConfig : List ConfigDescriptor :=
  [.interface 0 0, .other, .interface 1 0, .endpoint 0x81 0x02 64]

/-- Interface 0 is claimed, and the endpoint of interface 1 is picked. -/
theorem composite_picks_other_interface :
    ¬∀ n, (openPipes .boot 0 compositeConfig).claimed = some n →
      (∀ i ∈ (openPipes .boot 0 compositeConfig).inAt, settingAt compositeConfig i = some (n, 0)) ∧
      ∀ i ∈ (openPipes .boot 0 compositeConfig).outAt, settingAt compositeConfig i = some (n, 0) := by
  intro hall
  have hfirst : firstInterface compositeConfig = some 0 := by decide
  have hclaimed : (openPipes .boot 0 compositeConfig).claimed = some 0 :=
    claimed_eq_some_iff.mpr ⟨hfirst, .inr (by decide)⟩
  have hin : (openPipes .boot 0 compositeConfig).inAt = some 3 := by
    rw [(openPipes_of_some .boot 0 hfirst).2.2.1]
    decide
  have hsetting := (hall 0 hclaimed).1 3 hin
  revert hsetting
  decide

end WirelessHub.Firmware.Usb
