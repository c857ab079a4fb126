import WirelessHub.Daemon.Ports
import WirelessHub.Framework.Decimal
import WirelessHub.Framework.Run

/-!
# What the driver writes to sysfs

`attach` and `detach` print their command into a buffer and write it to a file of the kernel. The
driver never reads a port back: `ports_` is its only record. A reader of the two files who starts
with no port attached and takes each text as the command it spells comes to the same table.
-/

namespace WirelessHub

open Function Framework

/-- What `attach` hands over for a port. A descriptor is a C `int` that is not negative. -/
structure Attachment where
  socketFd : Nat
  devid : Nat
  speed : Nat
  deriving DecidableEq

/-- `"%d %d %u %u"` printed into 64 bytes. -/
def attachText (port : Nat) (a : Attachment) : List UInt8 :=
  (decimal port ++ 32 :: (decimal a.socketFd ++ 32 :: (decimal a.devid ++ 32 ::
    decimal a.speed))).take 63

/-- `"%d"` printed into 16 bytes. -/
def detachText (port : Nat) : List UInt8 := (decimal port).take 15

/-- What happens to the ports outside the driver: a text that is written in full, or a port that
the kernel gave up and the driver was told of. -/
inductive PortRecord
  | attach (text : List UInt8)
  | detach (text : List UInt8)
  | freed (port : Nat)

section Reader

inductive SysfsFault
  | text | busy | idle
  deriving DecidableEq

/-- `<port> <socket_fd> <devid> <speed>`, and nothing behind it. -/
def readAttach (text : List UInt8) : Option (Nat × Attachment) := do
  let (port, rest) ← scanUnsigned text
  let (socketFd, rest) ← scanUnsigned rest
  let (devid, rest) ← scanUnsigned rest
  let (speed, rest) ← scanUnsigned rest
  if rest = [] then some (port, ⟨socketFd, devid, speed⟩) else none

def readDetach (text : List UInt8) : Option Nat := do
  let (port, rest) ← scanUnsigned text
  if rest = [] then some port else none

/-- A port is attached only while it is vacant and detached only while it is not. -/
def readRecord (table : Nat → Option Attachment) :
    PortRecord → Except SysfsFault (Nat → Option Attachment)
  | .attach text => match readAttach text with
    | none => .error .text
    | some (port, a) =>
        if table port = none then .ok (update table port (some a)) else .error .busy
  | .detach text => match readDetach text with
    | none => .error .text
    | some port => if table port = none then .error .idle else .ok (update table port none)
  | .freed port => .ok (update table port none)

end Reader

section Texts

private theorem ends_nil : Ends [] := nofun

private theorem ends_space (s : List UInt8) : Ends (32 :: s) := by
  intro b t h
  rw [← (List.cons.inj h).1]
  rfl

private theorem length_decimal_port {port : Nat} (hport : port < maxPorts) :
    (decimal port).length ≤ 1 := by
  rw [maxPorts] at hport
  exact length_decimal_le (by omega) (by omega)

private theorem readAttach_attachText {port : Nat} {a : Attachment} (hport : port < maxPorts)
    (hfd : a.socketFd < 2 ^ 31) (hdevid : a.devid < 2 ^ 32) (hspeed : a.speed < 2 ^ 32) :
    readAttach (attachText port a) = some (port, a) := by
  have hp := length_decimal_port hport
  have hf : (decimal a.socketFd).length ≤ 10 := length_decimal_le (by omega) (by omega)
  have hd : (decimal a.devid).length ≤ 10 := length_decimal_le (by omega) (by omega)
  have hs : (decimal a.speed).length ≤ 10 := length_decimal_le (by omega) (by omega)
  have hlast : scanUnsigned (decimal a.speed) = some (a.speed, []) := by
    rw [← List.append_nil (decimal a.speed), scanUnsigned_decimal ends_nil]
  rw [attachText, List.take_of_length_le (by simp only [List.length_append, List.length_cons]; omega)]
  simp only [readAttach, scanUnsigned_decimal (ends_space _), scanUnsigned_space, hlast,
    Option.bind_eq_bind, Option.bind_some, if_true]

private theorem readDetach_detachText {port : Nat} (hport : port < maxPorts) :
    readDetach (detachText port) = some port := by
  have hp := length_decimal_port hport
  rw [detachText, List.take_of_length_le (by omega), ← List.append_nil (decimal port), readDetach,
    scanUnsigned_decimal ends_nil]
  rfl

end Texts

/-- The driver, what it has written, and what its callers were told of each port: the values they
passed to the `attach` that returned it. -/
structure PortHistory where
  vhci : VhciDriver
  log : List PortRecord
  held : Nat → Option Attachment

inductive DriverCall
  | attach (socketFd : Fin (2 ^ 31)) (devid speed : UInt32) (sysfs : Bool)
  | detach (port : Int) (sysfs : Bool)
  | freePort (port : Int)
  | detachAll (sysfs : Nat → Bool)

namespace VhciDriver

/-- What `attach` writes, if the write succeeds. -/
def attachWrites (v : VhciDriver) (a : Attachment) (sysfs : Bool) : List PortRecord :=
  match v.freeSlot with
  | none => []
  | some port => if sysfs then [.attach (attachText port a)] else []

def detachWrites (v : VhciDriver) (port : Int) (sysfs : Bool) : List PortRecord :=
  if port < 0 ∨ port ≥ maxPorts ∨ v.ports port.toNat = false then []
  else if sysfs then [.detach (detachText port.toNat)] else []

end VhciDriver

namespace PortHistory

def init : PortHistory := ⟨.init, [], fun _ => none⟩

def attach (h : PortHistory) (a : Attachment) (sysfs : Bool) : PortHistory :=
  let (port, vhci) := h.vhci.attach sysfs
  { vhci
    log := h.log ++ h.vhci.attachWrites a sysfs
    held := if 0 ≤ port then update h.held port.toNat (some a) else h.held }

def detach (h : PortHistory) (port : Int) (sysfs : Bool) : PortHistory :=
  let (detached, vhci) := h.vhci.detach port sysfs
  { vhci
    log := h.log ++ h.vhci.detachWrites port sysfs
    held := if detached then update h.held port.toNat none else h.held }

def freePort (h : PortHistory) (port : Int) : PortHistory :=
  if 0 ≤ port ∧ port < maxPorts then
    { vhci := h.vhci.freePort port
      log := h.log ++ [.freed port.toNat]
      held := update h.held port.toNat none }
  else { h with vhci := h.vhci.freePort port }

def detachAll (h : PortHistory) (sysfs : Nat → Bool) : PortHistory :=
  (List.range maxPorts).foldl (fun h i => if h.vhci.ports i then h.detach i (sysfs i) else h) h

def step (h : PortHistory) : DriverCall → PortHistory
  | .attach socketFd devid speed sysfs =>
      h.attach ⟨socketFd, devid.toNat, speed.toNat⟩ sysfs
  | .detach port sysfs => h.detach port sysfs
  | .freePort port => h.freePort port
  | .detachAll sysfs => h.detachAll sysfs

/-- A reader of the log ends in what the callers know, and the marks are the ports in it. -/
structure Agrees (h : PortHistory) : Prop where
  read : run readRecord (fun _ => none) h.log = .ok h.held
  marks : ∀ i, h.vhci.ports i = (h.held i).isSome

namespace Agrees

variable {h : PortHistory}

private theorem record (hh : h.Agrees) {r : PortRecord} {port : Nat} {x : Option Attachment}
    (hr : readRecord h.held r = .ok (update h.held port x)) :
    Agrees ⟨⟨update h.vhci.ports port x.isSome⟩, h.log ++ [r], update h.held port x⟩ where
  read := by rw [run_append [r] hh.read, run_cons_of_ok [] hr, run_nil]
  marks i := by
    by_cases hi : i = port
    · simp [hi]
    · simp [hi, hh.marks i]

private theorem unmarked (hh : h.Agrees) {port : Nat} (hp : h.vhci.ports port = false) :
    h.held port = none := by
  rw [hh.marks, Option.isSome_eq_false_iff, Option.isNone_iff_eq_none] at hp
  exact hp

private theorem attach (hh : h.Agrees) {a : Attachment} (hfd : a.socketFd < 2 ^ 31)
    (hdevid : a.devid < 2 ^ 32) (hspeed : a.speed < 2 ^ 32) (sysfs : Bool) :
    (h.attach a sysfs).Agrees := by
  cases hf : h.vhci.freeSlot with
  | none => simpa [PortHistory.attach, VhciDriver.attach, VhciDriver.attachWrites, hf] using hh
  | some port =>
    cases sysfs with
    | false => simpa [PortHistory.attach, VhciDriver.attach, VhciDriver.attachWrites, hf] using hh
    | true =>
      obtain ⟨hlt, hfree⟩ := VhciDriver.freeSlot_some hf
      have hread : readRecord h.held (.attach (attachText port a)) =
          .ok (update h.held port (some a)) := by
        simp only [readRecord, readAttach_attachText hlt hfd hdevid hspeed, hh.unmarked hfree, if_true]
      simpa [PortHistory.attach, VhciDriver.attach, VhciDriver.attachWrites, hf] using hh.record hread

private theorem detach (hh : h.Agrees) (port : Int) (sysfs : Bool) :
    (h.detach port sysfs).Agrees := by
  by_cases hp : port < 0 ∨ port ≥ maxPorts ∨ h.vhci.ports port.toNat = false
  · simpa [PortHistory.detach, VhciDriver.detach, VhciDriver.detachWrites, hp] using hh
  · cases sysfs with
    | false => simpa [PortHistory.detach, VhciDriver.detach, VhciDriver.detachWrites, hp] using hh
    | true =>
      have hlt : port.toNat < maxPorts := by omega
      have hmark : h.held port.toNat ≠ none := by
        intro hn
        have := hh.marks port.toNat
        rw [hn] at this
        exact hp (.inr (.inr this))
      have hread : readRecord h.held (.detach (detachText port.toNat)) =
          .ok (update h.held port.toNat none) := by
        simp only [readRecord, readDetach_detachText hlt, hmark, if_false]
      simpa [PortHistory.detach, VhciDriver.detach, VhciDriver.detachWrites, hp] using hh.record hread

private theorem freePort (hh : h.Agrees) (port : Int) : (h.freePort port).Agrees := by
  by_cases hp : 0 ≤ port ∧ port < maxPorts
  · have hread : readRecord h.held (.freed port.toNat) = .ok (update h.held port.toNat none) := rfl
    simpa [PortHistory.freePort, VhciDriver.freePort, hp] using hh.record hread
  · simpa [PortHistory.freePort, VhciDriver.freePort, hp] using hh

private theorem detachAll (hh : h.Agrees) (sysfs : Nat → Bool) : (h.detachAll sysfs).Agrees := by
  rw [PortHistory.detachAll]
  induction List.range maxPorts generalizing h with
  | nil => exact hh
  | cons i l ih =>
    rw [List.foldl_cons]
    apply ih
    split
    · exact hh.detach i (sysfs i)
    · exact hh

private theorem step (hh : h.Agrees) (c : DriverCall) : (h.step c).Agrees := by
  cases c with
  | attach socketFd devid speed sysfs =>
    exact hh.attach socketFd.isLt devid.toNat_lt speed.toNat_lt sysfs
  | detach port sysfs => exact hh.detach port sysfs
  | freePort port => exact hh.freePort port
  | detachAll sysfs => exact hh.detachAll sysfs

private theorem foldl_step (hh : h.Agrees) (calls : List DriverCall) : (calls.foldl PortHistory.step h).Agrees := by
  induction calls generalizing h with
  | nil => exact hh
  | cons c calls ih => exact ih (hh.step c)

end Agrees

end PortHistory
end WirelessHub
