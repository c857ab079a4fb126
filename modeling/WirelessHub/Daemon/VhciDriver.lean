import Mathlib.Tactic.Common
import Mathlib.Logic.Function.Basic

/-!
# Virtual host controller ports

The port table of `VhciDriver`. The sysfs writes behind `attach` and `detach` succeed or
fail as the caller says.
-/

namespace WirelessHub

def maxPorts : Nat := 8

/-- `ports_[i]` is set while port `i` is in use. -/
structure VhciDriver where
  ports : Nat → Bool

def VhciDriver.init : VhciDriver := ⟨fun _ => false⟩

def VhciDriver.freeSlot (v : VhciDriver) : Option Nat :=
  (List.range maxPorts).find? fun i => !v.ports i

/-- Take the first free port if the sysfs write succeeds; `-1` on failure. -/
def VhciDriver.attach (v : VhciDriver) (sysfs : Bool) : Int × VhciDriver :=
  match v.freeSlot with
  | none => (-1, v)
  | some port =>
      if sysfs then ((port : Int), ⟨Function.update v.ports port true⟩) else (-1, v)

/-- Give a port back through sysfs; a failed write leaves it marked as used. -/
def VhciDriver.detach (v : VhciDriver) (port : Int) (sysfs : Bool) : Bool × VhciDriver :=
  if port < 0 ∨ port ≥ maxPorts ∨ v.ports port.toNat = false then (false, v)
  else if sysfs then (true, ⟨Function.update v.ports port.toNat false⟩) else (false, v)

def VhciDriver.freePort (v : VhciDriver) (port : Int) : VhciDriver :=
  if 0 ≤ port ∧ port < maxPorts then ⟨Function.update v.ports port.toNat false⟩ else v

end WirelessHub
