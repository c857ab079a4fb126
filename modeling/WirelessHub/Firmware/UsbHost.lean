import Mathlib.Tactic.Common
import WirelessHub.Framework.Run

/-!
# Attached devices

`client_event_cb` of `usb_driver.c` with `open_pipes`: which device the driver works with, and
the transfers and endpoints it has set up for it. The devices are kept in the order in which
they were plugged in, so that the place of a device serves as its handle and no handle is used
twice. An allocation that fails crashes the firmware and is left out.
-/

namespace WirelessHub.Firmware.Usb

open Framework

/-- A descriptor in a configuration of a device, as far as `open_pipes` reads it. -/
inductive Descriptor
  | interface (number : UInt8)
  | endpoint (address attributes : UInt8) (maxPacketSize : UInt16)
  | other
  deriving DecidableEq, Repr

def Descriptor.interfaceNumber : Descriptor → Option UInt8
  | interface n => some n
  | _ => none

def Descriptor.address : Descriptor → Option UInt8
  | endpoint a _ _ => some a
  | _ => none

def isIn (address : UInt8) : Bool := address &&& 0x80 ≠ 0

/-- `USB_BM_ATTRIBUTES_XFER_INT` or `USB_BM_ATTRIBUTES_XFER_BULK`. -/
def isIntOrBulk (attributes : UInt8) : Bool :=
  attributes &&& 0x03 = 0x03 ∨ attributes &&& 0x03 = 0x02

/-- A device that was plugged in; `opened` says that the driver got a handle for it. -/
structure Device where
  deviceClass : UInt8
  config : List Descriptor
  opened : Bool
  attached : Bool := true
  deriving DecidableEq

def Device.isHub (d : Device) : Bool := d.deviceClass = 0x09

/-- A transfer as `open_pipes` prepares it. -/
structure Pipe where
  deviceHandle : Nat
  endpointAddress : UInt8
  size : Nat
  deriving DecidableEq

structure Driver where
  dev : Option Nat
  inXfer : Option Pipe
  outXfer : Option Pipe
  ctrlXfer : Option Pipe
  inEp : UInt8
  outEp : UInt8
  inMps : UInt16
  outMps : UInt16
  intfNum : UInt8
  hubConnected : Bool
  hubDev : Option Nat

namespace Driver

def boot : Driver where
  dev := none
  inXfer := none
  outXfer := none
  ctrlXfer := none
  inEp := 0
  outEp := 0
  inMps := 64
  outMps := 64
  intfNum := 0
  hubConnected := false
  hubDev := none

def considerEndpoint (s : Driver) : Descriptor → Driver
  | .endpoint address attributes mps =>
      let s := if s.inEp = 0 ∧ isIn address ∧ isIntOrBulk attributes then
          { s with inEp := address, inMps := mps }
        else s
      if s.outEp = 0 ∧ ¬ isIn address ∧ isIntOrBulk attributes then
        { s with outEp := address, outMps := mps }
      else s
  | _ => s

/-- `open_pipes` for the device in `s_dev`. Without an interface the device is released; without
an IN endpoint no transfer is prepared. -/
def openPipes (s : Driver) (handle : Nat) (config : List Descriptor) : Driver :=
  match config.findSome? Descriptor.interfaceNumber with
  | none => { s with dev := none }
  | some n =>
      let s := config.foldl considerEndpoint { s with intfNum := n }
      if s.inEp = 0 then s
      else
        { s with
          inXfer := some ⟨handle, s.inEp, s.inMps.toNat⟩
          outXfer := if s.outEp ≠ 0 then some ⟨handle, s.outEp, s.outMps.toNat⟩ else s.outXfer
          ctrlXfer := some ⟨handle, 0, 8 + 1024⟩ }

/-- `client_event_cb` for a new device that could be opened. -/
def onNewDev (s : Driver) (handle : Nat) (d : Device) : Driver :=
  if d.isHub then { s with hubDev := some handle, hubConnected := true }
  else { s with dev := some handle }.openPipes handle d.config

/-- `client_event_cb` for a device that left; the message is not asked which one it was. -/
def onDevGone (s : Driver) : Driver :=
  if s.dev.isSome then
    { s with inXfer := none, outXfer := none, ctrlXfer := none, dev := none, inEp := 0, outEp := 0 }
  else if s.hubDev.isSome then { s with hubDev := none, hubConnected := false }
  else s

/-- A driver with nothing of an earlier device in it. -/
structure Fresh (s : Driver) : Prop where
  inXfer : s.inXfer = none
  outXfer : s.outXfer = none
  ctrlXfer : s.ctrlXfer = none
  inEp : s.inEp = 0
  outEp : s.outEp = 0

theorem foldl_considerEndpoint_frame (s : Driver) (config : List Descriptor) :
    (config.foldl considerEndpoint s).dev = s.dev ∧
    (config.foldl considerEndpoint s).hubDev = s.hubDev ∧
    (config.foldl considerEndpoint s).inXfer = s.inXfer ∧
    (config.foldl considerEndpoint s).outXfer = s.outXfer ∧
    (config.foldl considerEndpoint s).ctrlXfer = s.ctrlXfer := by
  induction config generalizing s with
  | nil => exact ⟨rfl, rfl, rfl, rfl, rfl⟩
  | cons d config ih =>
    have hd : (s.considerEndpoint d).dev = s.dev ∧ (s.considerEndpoint d).hubDev = s.hubDev ∧
        (s.considerEndpoint d).inXfer = s.inXfer ∧ (s.considerEndpoint d).outXfer = s.outXfer ∧
        (s.considerEndpoint d).ctrlXfer = s.ctrlXfer := by
      cases d with
      | endpoint address attributes mps =>
        simp only [considerEndpoint]
        split <;> split <;> simp
      | interface n => simp [considerEndpoint]
      | other => simp [considerEndpoint]
    rw [List.foldl_cons]
    grind

private theorem foldl_considerEndpoint_mem (s : Driver) (config : List Descriptor) :
    ((config.foldl considerEndpoint s).inEp = s.inEp ∨
      (config.foldl considerEndpoint s).inEp ∈ config.filterMap Descriptor.address) ∧
    ((config.foldl considerEndpoint s).outEp = s.outEp ∨
      (config.foldl considerEndpoint s).outEp ∈ config.filterMap Descriptor.address) := by
  induction config generalizing s with
  | nil => exact ⟨.inl rfl, .inl rfl⟩
  | cons d config ih =>
    rw [List.foldl_cons]
    have hd := ih (s.considerEndpoint d)
    cases d with
    | endpoint address attributes mps =>
      have hin : (s.considerEndpoint (.endpoint address attributes mps)).inEp = s.inEp ∨
          (s.considerEndpoint (.endpoint address attributes mps)).inEp = address := by
        simp only [considerEndpoint]
        split <;> split <;> simp
      have hout : (s.considerEndpoint (.endpoint address attributes mps)).outEp = s.outEp ∨
          (s.considerEndpoint (.endpoint address attributes mps)).outEp = address := by
        simp only [considerEndpoint]
        split <;> split <;> simp
      simp only [List.filterMap_cons, Descriptor.address, List.mem_cons]
      grind
    | interface n =>
      rw [List.filterMap_cons_none rfl]
      exact hd
    | other =>
      rw [List.filterMap_cons_none rfl]
      exact hd

variable {s : Driver} {handle : Nat} {config : List Descriptor}

private theorem openPipes_hubDev : (s.openPipes handle config).hubDev = s.hubDev := by
  unfold openPipes
  split
  · rfl
  · rename_i n _
    have := (foldl_considerEndpoint_frame { s with intfNum := n } config).2.1
    simp only
    split <;> exact this

theorem openPipes_dev (h : config.findSome? Descriptor.interfaceNumber ≠ none) :
    (s.openPipes handle config).dev = s.dev := by
  obtain ⟨n, hn⟩ := Option.ne_none_iff_exists'.mp h
  have := (foldl_considerEndpoint_frame { s with intfNum := n } config).1
  simp only [openPipes, hn]
  split <;> exact this

theorem openPipes_of_none (h : config.findSome? Descriptor.interfaceNumber = none) :
    s.openPipes handle config = { s with dev := none } := by
  simp only [openPipes, h]

/-- What `open_pipes` sets up is for the device and on its endpoints. -/
theorem Fresh.openPipes (hs : s.Fresh) (h : config.findSome? Descriptor.interfaceNumber ≠ none) :
    (∀ x, (s.openPipes handle config).inXfer = some x ∨ (s.openPipes handle config).outXfer = some x ∨
      (s.openPipes handle config).ctrlXfer = some x → x.deviceHandle = handle) ∧
    ∀ ep ≠ 0, (s.openPipes handle config).inEp = ep ∨ (s.openPipes handle config).outEp = ep →
      ep ∈ config.filterMap Descriptor.address := by
  obtain ⟨n, hn⟩ := Option.ne_none_iff_exists'.mp h
  have hframe := foldl_considerEndpoint_frame { s with intfNum := n } config
  have hmem := foldl_considerEndpoint_mem { s with intfNum := n } config
  simp only [Driver.openPipes, hn]
  generalize config.foldl considerEndpoint { s with intfNum := n } = s' at hframe hmem
  simp only [hs.inXfer, hs.outXfer, hs.ctrlXfer, hs.inEp, hs.outEp] at hframe hmem
  split
  · grind
  · grind

end Driver

/-- The devices plugged in so far, and the driver. -/
structure Bus where
  devices : List Device
  driver : Driver

inductive BusEvent
  | newDev (deviceClass : UInt8) (config : List Descriptor) (opened : Bool)
  | devGone (handle : Nat)

namespace Bus

def boot : Bus := ⟨[], .boot⟩

def step (s : Bus) : BusEvent → Except Unit Bus
  | .newDev deviceClass config opened =>
      let d : Device := { deviceClass, config, opened }
      .ok ⟨s.devices ++ [d], if opened then s.driver.onNewDev s.devices.length d else s.driver⟩
  | .devGone h => match s.devices[h]? with
    | some d =>
        if d.attached then .ok ⟨s.devices.set h { d with attached := false }, s.driver.onDevGone⟩
        else .error ()
    | none => .error ()

/-- The driver works with an attached device, on endpoints of that device, and has not lost a
handle that it opened. -/
structure Follows (s : Bus) : Prop where
  dev_attached : ∀ h, s.driver.dev = some h →
    ∃ d, s.devices[h]? = some d ∧ d.attached = true ∧ d.isHub = false
  xfers : ∀ x, s.driver.inXfer = some x ∨ s.driver.outXfer = some x ∨ s.driver.ctrlXfer = some x →
    s.driver.dev = some x.deviceHandle
  endpoints : ∀ ep ≠ 0, s.driver.inEp = ep ∨ s.driver.outEp = ep →
    ∃ h d, s.driver.dev = some h ∧ s.devices[h]? = some d ∧ ep ∈ d.config.filterMap Descriptor.address
  held : ∀ (h : Nat) d, s.devices[h]? = some d → d.attached = true → d.opened = true →
    s.driver.dev = some h ∨ s.driver.hubDev = some h

/-- Every device that can be opened has an interface and finds its slot free, and the device
that leaves is the one whose slot `client_event_cb` clears. -/
def OneAtATime (s : Bus) : BusEvent → Prop
  | .newDev deviceClass config opened => opened = true →
      if deviceClass = 0x09 then
        ∀ h d, s.driver.hubDev = some h → s.devices[h]? = some d → d.attached = false
      else s.driver.dev = none ∧ config.findSome? Descriptor.interfaceNumber ≠ none
  | .devGone h =>
      (∀ g, s.driver.dev = some g → g = h) ∧
      (s.driver.dev = none → ∀ g d, s.driver.hubDev = some g → s.devices[g]? = some d →
        d.attached = true → g = h)

/-- The slots hold handles of their kind, in every run. -/
structure Slots (s : Bus) : Prop where
  dev : ∀ h, s.driver.dev = some h → ∃ d, s.devices[h]? = some d ∧ d.opened = true ∧ d.isHub = false
  hub : ∀ h, s.driver.hubDev = some h → ∃ d, s.devices[h]? = some d ∧ d.opened = true ∧ d.isHub = true

private theorem slots_boot : Slots boot := by
  constructor <;> intro h hh <;> cases hh

private theorem follows_boot : Follows boot := by
  constructor
  · intro h hh
    cases hh
  · intro x hx
    rcases hx with hx | hx | hx <;> cases hx
  · intro ep hep h
    rcases h with h | h <;> exact absurd h.symm hep
  · intro h d hd
    cases hd

variable {s s' : Bus} {e : BusEvent}

private theorem getElem?_snoc_of_some {α : Type*} {l : List α} {h : Nat} {a : α} (hl : l[h]? = some a) (b : α) :
    (l ++ [b])[h]? = some a := by
  rw [List.getElem?_append_left (List.getElem?_eq_some_iff.mp hl).1]
  exact hl

private theorem getElem?_of_snoc {α : Type*} {l : List α} {h : Nat} {a b : α} (hl : (l ++ [b])[h]? = some a) :
    l[h]? = some a ∨ h = l.length ∧ b = a := by
  by_cases hlt : h < l.length
  · rw [List.getElem?_append_left hlt] at hl
    exact .inl hl
  · rw [List.getElem?_append_right (Nat.le_of_not_lt hlt), List.getElem?_singleton] at hl
    split at hl
    · cases hl
      exact .inr ⟨by omega, rfl⟩
    · cases hl

private theorem getElem?_detach_of_some {l : List Device} {g h : Nat} {d e : Device}
    (hd : l[g]? = some d)
    (he : l[h]? = some e) : ∃ e', (l.set g { d with attached := false })[h]? = some e' ∧
      e'.opened = e.opened ∧ e'.isHub = e.isHub := by
  by_cases hgh : g = h
  · subst hgh
    rw [hd, Option.some.injEq] at he
    subst he
    exact ⟨_, List.getElem?_set_self (List.getElem?_eq_some_iff.mp hd).1, rfl, rfl⟩
  · exact ⟨e, by rw [List.getElem?_set_ne hgh, he], rfl, rfl⟩

private theorem getElem?_of_detach {l : List Device} {g h : Nat} {d e : Device}
    (hd : l[g]? = some d)
    (he : (l.set g { d with attached := false })[h]? = some e) (ha : e.attached = true) :
    h ≠ g ∧ l[h]? = some e := by
  by_cases hgh : g = h
  · subst hgh
    rw [List.getElem?_set_self (List.getElem?_eq_some_iff.mp hd).1, Option.some.injEq] at he
    rw [← he] at ha
    cases ha
  · rw [List.getElem?_set_ne hgh] at he
    exact ⟨Ne.symm hgh, he⟩

private theorem Slots.snoc (h : s.Slots) (d : Device) : Slots ⟨s.devices ++ [d], s.driver⟩ where
  dev := by
    intro g hg
    obtain ⟨e, he, hkind⟩ := h.dev g hg
    exact ⟨e, getElem?_snoc_of_some he d, hkind⟩
  hub := by
    intro g hg
    obtain ⟨e, he, hkind⟩ := h.hub g hg
    exact ⟨e, getElem?_snoc_of_some he d, hkind⟩

private theorem Slots.detach (h : s.Slots) {g : Nat} {d : Device} (hd : s.devices[g]? = some d) :
    Slots ⟨s.devices.set g { d with attached := false }, s.driver⟩ where
  dev := by
    intro k hk
    obtain ⟨e, he, hopened, hhub⟩ := h.dev k hk
    obtain ⟨e', he', hopened', hhub'⟩ := getElem?_detach_of_some hd he
    exact ⟨e', he', hopened'.trans hopened, hhub'.trans hhub⟩
  hub := by
    intro k hk
    obtain ⟨e, he, hopened, hhub⟩ := h.hub k hk
    obtain ⟨e', he', hopened', hhub'⟩ := getElem?_detach_of_some hd he
    exact ⟨e', he', hopened'.trans hopened, hhub'.trans hhub⟩

private theorem Slots.of_driver (h : s.Slots) {driver : Driver}
    (hdev : driver.dev = none ∨ driver.dev = s.driver.dev)
    (hhub : driver.hubDev = none ∨ driver.hubDev = s.driver.hubDev) : Slots ⟨s.devices, driver⟩ where
  dev := by
    intro g hg
    change driver.dev = some g at hg
    cases hdev with
    | inl hnone =>
      rw [hnone] at hg
      cases hg
    | inr hsame =>
      rw [hsame] at hg
      exact h.dev g hg
  hub := by
    intro g hg
    change driver.hubDev = some g at hg
    cases hhub with
    | inl hnone =>
      rw [hnone] at hg
      cases hg
    | inr hsame =>
      rw [hsame] at hg
      exact h.hub g hg

private theorem Slots.newDev (h : s.Slots) {d : Device} (hopened : d.opened = true) :
    Slots ⟨s.devices ++ [d], s.driver.onNewDev s.devices.length d⟩ := by
  have hlast : (s.devices ++ [d])[s.devices.length]? = some d := by simp
  have hold := h.snoc d
  unfold Driver.onNewDev
  by_cases hclass : d.isHub = true
  · rw [if_pos hclass]
    constructor
    · exact hold.dev
    · intro g hg
      cases hg
      exact ⟨d, hlast, hopened, hclass⟩
  · rw [if_neg hclass]
    by_cases hintf : d.config.findSome? Descriptor.interfaceNumber = none
    · rw [Driver.openPipes_of_none hintf]
      exact hold.of_driver (.inl rfl) (.inr rfl)
    · constructor
      · intro g hg
        change Driver.dev (Driver.openPipes _ _ _) = some g at hg
        rw [Driver.openPipes_dev hintf] at hg
        cases hg
        exact ⟨d, hlast, hopened, Bool.eq_false_iff.mpr hclass⟩
      · intro g hg
        change Driver.hubDev (Driver.openPipes _ _ _) = some g at hg
        rw [Driver.openPipes_hubDev] at hg
        exact hold.hub g hg

private theorem step_slots (h : s.Slots) (hs : s.step e = .ok s') : s'.Slots := by
  cases e with
  | newDev deviceClass config opened =>
    cases hs
    cases opened with
    | false => exact h.snoc _
    | true => exact h.newDev rfl
  | devGone g =>
    simp only [step] at hs
    split at hs
    · rename_i d hd
      split at hs
      · cases hs
        apply (h.detach hd).of_driver
        all_goals
          unfold Driver.onDevGone
          repeat' split
          all_goals simp
      · cases hs
    · cases hs

private theorem follows_newDev_closed (h : s.Follows) (deviceClass : UInt8)
    (config : List Descriptor) :
    Follows ⟨s.devices ++ [{ deviceClass, config, opened := false }], s.driver⟩ where
  dev_attached := by
    intro g hg
    obtain ⟨d, hd, hda⟩ := h.dev_attached g hg
    exact ⟨d, getElem?_snoc_of_some hd _, hda⟩
  xfers := h.xfers
  endpoints := by
    intro ep hep hrec
    obtain ⟨g, d, hg, hd, hmem⟩ := h.endpoints ep hep hrec
    exact ⟨g, d, hg, getElem?_snoc_of_some hd _, hmem⟩
  held := by
    intro g d hd hattached hopened
    cases getElem?_of_snoc hd with
    | inl hold => exact h.held g d hold hattached hopened
    | inr hnew =>
      rw [← hnew.2] at hopened
      cases hopened

private theorem follows_newHub_iff (hb : s.Slots) (h : s.Follows) (d : Device) :
    (∀ h e, s.driver.hubDev = some h → s.devices[h]? = some e → e.attached = false) ↔
    Follows ⟨s.devices ++ [d], { s.driver with hubDev := some s.devices.length, hubConnected := true }⟩ := by
  constructor
  · intro hfree
    constructor
    case dev_attached =>
      intro g hg
      obtain ⟨e, he, hea⟩ := h.dev_attached g hg
      exact ⟨e, getElem?_snoc_of_some he _, hea⟩
    case xfers => exact h.xfers
    case endpoints =>
      intro ep hep hrec
      obtain ⟨g, e, hg, he, hmem⟩ := h.endpoints ep hep hrec
      exact ⟨g, e, hg, getElem?_snoc_of_some he _, hmem⟩
    case held =>
      intro g e he hattached hopened
      cases getElem?_of_snoc he with
      | inl hold =>
        cases h.held g e hold hattached hopened with
        | inl hdev => exact .inl hdev
        | inr hhub =>
          rw [hfree g e hhub hold] at hattached
          cases hattached
      | inr hnew => exact .inr (congrArg some hnew.1.symm)
  · intro h' g e hg he
    -- the new hub takes the slot, and the old one is no device the driver works with
    obtain ⟨e', he', hopened', hhub⟩ := hb.hub g hg
    have hheld' := h'.held g e (getElem?_snoc_of_some he _)
    change e.attached = true → e.opened = true →
      s.driver.dev = some g ∨ some s.devices.length = some g at hheld'
    have hdev := hb.dev g
    grind

/-- With no device in the slot nothing of an earlier device is left in the driver. -/
theorem Follows.fresh (h : s.Follows) (hnone : s.driver.dev = none) : s.driver.Fresh := by
  have hxfer : ∀ x, ¬ (s.driver.inXfer = some x ∨ s.driver.outXfer = some x ∨ s.driver.ctrlXfer = some x) := by
    intro x hx
    have := h.xfers x hx
    rw [hnone] at this
    cases this
  have hep : ∀ ep, s.driver.inEp = ep ∨ s.driver.outEp = ep → ep = 0 := by
    intro ep hrec
    by_contra hne
    obtain ⟨g, d, hg, -⟩ := h.endpoints ep hne hrec
    rw [hnone] at hg
    cases hg
  refine ⟨?_, ?_, ?_, hep _ (.inl rfl), hep _ (.inr rfl)⟩
  · exact Option.eq_none_iff_forall_ne_some.mpr fun x hx => hxfer x (.inl hx)
  · exact Option.eq_none_iff_forall_ne_some.mpr fun x hx => hxfer x (.inr (.inl hx))
  · exact Option.eq_none_iff_forall_ne_some.mpr fun x hx => hxfer x (.inr (.inr hx))

private theorem follows_newDevice_iff (hb : s.Slots) (h : s.Follows) {d : Device} (hopened : d.opened = true)
    (hattached : d.attached = true) (hhub : d.isHub = false) :
    (s.driver.dev = none ∧ d.config.findSome? Descriptor.interfaceNumber ≠ none) ↔
    Follows ⟨s.devices ++ [d],
      { s.driver with dev := some s.devices.length }.openPipes s.devices.length d.config⟩ := by
  have hlast : (s.devices ++ [d])[s.devices.length]? = some d := by simp
  constructor
  · intro hfree
    obtain ⟨hnone, hintf⟩ := hfree
    have hfresh : Driver.Fresh { s.driver with dev := some s.devices.length } :=
      { h.fresh hnone with }
    have hopen := @Driver.Fresh.openPipes _ s.devices.length d.config hfresh hintf
    have hdev := @Driver.openPipes_dev { s.driver with dev := some s.devices.length }
      s.devices.length d.config hintf
    constructor
    case dev_attached =>
      intro g hg
      rw [hdev] at hg
      cases hg
      exact ⟨d, hlast, hattached, hhub⟩
    case xfers =>
      intro x hx
      rw [hdev, hopen.1 x hx]
    case endpoints =>
      intro ep hep hrec
      exact ⟨_, d, hdev, hlast, hopen.2 ep hep hrec⟩
    case held =>
      intro g e he hea heo
      rw [hdev, Driver.openPipes_hubDev]
      cases getElem?_of_snoc he with
      | inl hold =>
        have hheld := h.held g e hold hea heo
        rw [hnone] at hheld
        exact .inr (hheld.resolve_left (by simp))
      | inr hnew => exact .inl (congrArg some hnew.1.symm)
  · intro h'
    have hheld' := h'.held
    simp only [Driver.openPipes_hubDev] at hheld'
    have hintf : d.config.findSome? Descriptor.interfaceNumber ≠ none := by
      intro hintf
      have hnew := hheld' s.devices.length d hlast hattached hopened
      rw [Driver.openPipes_of_none hintf] at hnew
      have hslot := hb.hub s.devices.length
      grind
    refine ⟨?_, hintf⟩
    rw [Driver.openPipes_dev hintf] at hheld'
    by_contra hsome
    -- the handle of the device that was there before is lost
    obtain ⟨g, hg⟩ := Option.ne_none_iff_exists'.mp hsome
    obtain ⟨e, he, hea, heh⟩ := h.dev_attached g hg
    have hold := hheld' g e (getElem?_snoc_of_some he _) hea
    have hdev := hb.dev g hg
    have hslot := hb.hub g
    grind

private theorem follows_of_dev_none (hdev : s.driver.dev = none) (hfresh : s.driver.Fresh)
    (hheld : ∀ (h : Nat) d, s.devices[h]? = some d → d.attached = true → d.opened = true →
      s.driver.hubDev = some h) : s.Follows where
  dev_attached := by
    intro h hh
    rw [hdev] at hh
    cases hh
  xfers := by
    intro x hx
    simp [hfresh.inXfer, hfresh.outXfer, hfresh.ctrlXfer] at hx
  endpoints := by
    intro ep hep hrec
    rw [hfresh.inEp, hfresh.outEp, or_self] at hrec
    exact absurd hrec.symm hep
  held := by
    intro h d hd ha ho
    exact .inr (hheld h d hd ha ho)

private theorem Follows.held_of_detach (h : s.Follows) {g k : Nat} {d e : Device} (hd : s.devices[g]? = some d)
    (he : (s.devices.set g { d with attached := false })[k]? = some e) (ha : e.attached = true)
    (ho : e.opened = true) :
    k ≠ g ∧ s.devices[k]? = some e ∧ (s.driver.dev = some k ∨ s.driver.hubDev = some k) := by
  obtain ⟨hne, hold⟩ := getElem?_of_detach hd he ha
  exact ⟨hne, hold, h.held k e hold ha ho⟩

private theorem follows_devGone_iff (hb : s.Slots) (h : s.Follows) {g : Nat} {d : Device}
    (hd : s.devices[g]? = some d) :
    s.OneAtATime (.devGone g) ↔
      Follows ⟨s.devices.set g { d with attached := false }, s.driver.onDevGone⟩ := by
  simp only [OneAtATime]
  cases hdev : s.driver.dev with
  | some k =>
    simp only [Driver.onDevGone, hdev, Option.isSome_some, if_pos]
    obtain ⟨e, he, hea, heh⟩ := h.dev_attached k hdev
    obtain ⟨e', he', heo, -⟩ := hb.dev k hdev
    constructor
    · intro hguard
      apply follows_of_dev_none rfl ⟨rfl, rfl, rfl, rfl, rfl⟩
      intro k' e'' hk' ha ho
      obtain ⟨hne, -, hslot⟩ := h.held_of_detach hd hk' ha ho
      cases hslot with
      | inl hcur => exact absurd (hguard.1 k' (hdev.symm.trans hcur)) hne
      | inr hhub => exact hhub
    · intro h'
      -- the handle that was closed belongs to a device that is still there
      have hk : k = g := by
        by_contra hne
        rw [he, Option.some.injEq] at he'
        subst he'
        have hstill := h'.held k e (by rw [List.getElem?_set_ne (Ne.symm hne), he]) hea heo
        obtain ⟨f, hf, -, hfh⟩ := hb.hub k (hstill.resolve_left (by simp))
        rw [he, Option.some.injEq] at hf
        rw [← hf, heh] at hfh
        cases hfh
      constructor
      · intro k' hk'
        cases hk'
        exact hk
      · intro hnone
        cases hnone
  | none =>
    have hfresh := h.fresh hdev
    cases hhub : s.driver.hubDev with
    | none =>
      simp only [Driver.onDevGone, hdev, hhub, Option.isSome_none, Bool.false_eq_true, if_false]
      constructor
      · intro _
        apply follows_of_dev_none
        · exact hdev
        · exact hfresh
        intro k e hk ha ho
        obtain ⟨-, -, hslot⟩ := h.held_of_detach hd hk ha ho
        exact hslot.resolve_left (by simp [hdev])
      · intro _
        simp
    | some k =>
      simp only [Driver.onDevGone, hdev, hhub, Option.isSome_none, Option.isSome_some, Bool.false_eq_true,
        if_false, if_true]
      obtain ⟨e, he, heo, heh⟩ := hb.hub k hhub
      constructor
      · intro hguard
        apply follows_of_dev_none rfl
        · exact { hfresh with }
        intro k' e' hk' ha ho
        obtain ⟨hne, hold, hslot⟩ := h.held_of_detach hd hk' ha ho
        have hcur := hslot.resolve_left (by simp [hdev])
        exact absurd (hguard.2 trivial k' e' (hhub.symm.trans hcur) hold ha) hne
      · intro h'
        apply And.intro
        · intro k' hk'
          cases hk'
        · intro _ k' e' hk' he' ha
          cases hk'
          by_contra hne
          rw [he, Option.some.injEq] at he'
          subst he'
          have hstill := h'.held k e (by rw [List.getElem?_set_ne (Ne.symm hne), he]) ha heo
          simp at hstill

/-- A step keeps the driver in accord with the devices exactly if it is of the kind above. -/
theorem step_follows_iff (hb : s.Slots) (hp : s.Follows) (hs : s.step e = .ok s') :
    s.OneAtATime e ↔ s'.Follows := by
  cases e with
  | newDev deviceClass config opened =>
    simp only [step, Except.ok.injEq] at hs
    subst hs
    cases opened with
    | false =>
      have := follows_newDev_closed hp deviceClass config
      simpa [OneAtATime] using this
    | true =>
      by_cases hclass : deviceClass = 0x09
      · have := follows_newHub_iff hb hp ⟨deviceClass, config, true, true⟩
        simpa [OneAtATime, Driver.onNewDev, Device.isHub, hclass] using this
      · have := follows_newDevice_iff hb hp (d := ⟨deviceClass, config, true, true⟩) rfl rfl
          (by simp [Device.isHub, hclass])
        simpa [OneAtATime, Driver.onNewDev, Device.isHub, hclass] using this
  | devGone g =>
    simp only [step] at hs
    split at hs
    case h_1 d hd =>
      split at hs
      · cases hs
        exact follows_devGone_iff hb hp hd
      · cases hs
    case h_2 => cases hs

/-- The driver follows the attached devices through a sequence of events exactly if the events
come one device at a time. -/
theorem follows_throughout_iff (es : List BusEvent) (s : Bus) (hr : run step boot es = .ok s) :
    RunAll step OneAtATime boot es ↔ ∀ fs t, fs <+: es → run step boot fs = .ok t → t.Follows := by
  apply runAll_iff_throughout _ _ slots_boot follows_boot hr
  · intro s e s' h hs
    exact step_slots h hs
  · intro s e s' hb hp hs
    exact step_follows_iff hb hp hs

/-- A keyboard with one interrupt endpoint. -/
def keyboard (address : UInt8) : BusEvent :=
  .newDev 0 [.interface 0, .endpoint address 0x03 8] true

theorem follows_throughout_replug :
    ∃ s, run step boot [keyboard 0x81, .devGone 0, keyboard 0x82] = .ok s ∧
      ∀ fs t, fs <+: [keyboard 0x81, .devGone 0, keyboard 0x82] → run step boot fs = .ok t →
        t.Follows := by
  refine ⟨_, rfl, (follows_throughout_iff [keyboard 0x81, .devGone 0, keyboard 0x82] _ rfl).mp ?_⟩
  refine runAll_cons_of_ok rfl ?_ (runAll_cons_of_ok rfl ?_ (runAll_cons_of_ok rfl ?_ trivial))
  · intro _
    exact ⟨rfl, by decide⟩
  · refine ⟨fun g hg => (Option.some.inj hg).symm, fun h => ?_⟩
    cases h
  · intro _
    exact ⟨rfl, by decide⟩

/-- A second keyboard takes the slot of the first: the handle of the first is lost, and the
endpoint on record is not one of the second. -/
theorem second_keyboard_not_followed :
    ∃ s, run step boot [keyboard 0x81, keyboard 0x82] = .ok s ∧
      s.devices.map Device.attached = [true, true] ∧ s.devices.map Device.opened = [true, true] ∧
      s.driver.dev = some 1 ∧ s.driver.hubDev = none ∧ s.driver.inEp = 0x81 ∧
      s.driver.inXfer = some ⟨1, 0x81, 8⟩ ∧
      ((s.devices[1]?).map fun d => d.config.filterMap Descriptor.address) = some [0x82] ∧
      ¬ s.Follows := by
  refine ⟨_, rfl, rfl, rfl, rfl, rfl, rfl, rfl, rfl, ?_⟩
  intro h
  have := h.held 0 _ rfl rfl rfl
  revert this
  decide

end Bus
end WirelessHub.Firmware.Usb
