import Mathlib.Tactic.Common

/-!
# Discovery and session control

`hub_discover_task` and `session_ctrl_task` as two tasks that share the daemon's address and
the bits `DAEMON_FOUND_BIT` and `DAEMON_LOST_BIT`. Each assignment to a shared variable and
each look at a bit is a step of its own, so the tasks interleave between any two of them.
Setting a bit releases a task that waits for it, and a wait for a bit that is set does not
block. How long a delay, an attempt or a connect takes is open.
-/

namespace WirelessHub.Firmware

/-- The sender of a discovery reply, with the port that the reply names. -/
structure Discovered where
  ip : UInt32
  port : UInt16
  ip_ne_zero : ip ≠ 0

/-- What `hub_discover_task` does next. -/
inductive HubPc
  | waitReady
  | discover
  | storeFound (d : Discovered)
  | storeIp (d : Discovered)
  | storePort (d : Discovered)
  | clearLost
  | setFound
  | waitWifiLost
  | resetFound
  | zeroIp
  | zeroPort
  | clearFound
  | setLost

/-- What `session_ctrl_task` does next. -/
inductive CtrlPc
  | enterFound
  | waitFound
  | readIp
  | openReply
  | retryDelay
  | usbCheck
  | usbLoop
  | usbDelay
  | usbFinal
  | connect
  | clearSessionLost
  | setSessionActive
  | enterLost
  | waitLost
  | clearSessionActive
  | setSessionLost
  | closeReply
  | disconnect
  | forgetLost
  deriving DecidableEq

/-- `s_hub` with its event group, and one session with its own. -/
structure HubTasks where
  found : Bool
  ip : UInt32
  port : UInt16
  foundBit : Bool
  lostBit : Bool
  hubPc : HubPc
  usbipMode : Bool
  daemonIp : UInt32
  sock : Option Nat
  sessionActive : Bool
  sessionLost : Bool
  ctrlPc : CtrlPc

/-- The answers of the surroundings to a step of the session. -/
structure CtrlAnswers where
  opened : Option Nat := none
  usbReady : Bool := true

inductive HubInput
  | wifiReady
  | attemptFails
  | reply (d : Discovered)
  | wifiLost
  | hub
  | ctrl (a : CtrlAnswers)

namespace HubTasks

def boot (usbipMode : Bool) : HubTasks where
  found := false
  ip := 0
  port := 0
  foundBit := false
  lostBit := false
  hubPc := .waitReady
  usbipMode := usbipMode
  daemonIp := 0
  sock := none
  sessionActive := false
  sessionLost := false
  ctrlPc := .enterFound

/-- The next assignment of `hub_discover_task`. -/
def hubStep (s : HubTasks) : Except Unit HubTasks :=
  match s.hubPc with
  | .storeFound d => .ok { s with found := true, hubPc := .storeIp d }
  | .storeIp d => .ok { s with ip := d.ip, hubPc := .storePort d }
  | .storePort d => .ok { s with port := d.port, hubPc := .clearLost }
  | .clearLost => .ok { s with lostBit := false, hubPc := .setFound }
  | .setFound => .ok { s with
      foundBit := true
      hubPc := .waitWifiLost
      ctrlPc := if s.ctrlPc = .waitFound then .readIp else s.ctrlPc }
  | .resetFound => .ok { s with found := false, hubPc := .zeroIp }
  | .zeroIp => .ok { s with ip := 0, hubPc := .zeroPort }
  | .zeroPort => .ok { s with port := 0, hubPc := .clearFound }
  | .clearFound => .ok { s with foundBit := false, hubPc := .setLost }
  | .setLost => .ok { s with
      lostBit := true
      hubPc := .waitReady
      ctrlPc := if s.ctrlPc = .waitLost then .clearSessionActive else s.ctrlPc }
  | .waitReady => .error ()
  | .discover => .error ()
  | .waitWifiLost => .error ()

/-- The next step of `session_ctrl_task`. A failure to open the reply socket starts the loop
again after a delay; so does a daemon that is lost while the session waits for a device. -/
def ctrlStep (s : HubTasks) (a : CtrlAnswers) : Except Unit HubTasks :=
  match s.ctrlPc with
  | .enterFound => .ok { s with ctrlPc := if s.foundBit then .readIp else .waitFound }
  | .waitFound => .error ()
  | .readIp => .ok { s with daemonIp := s.ip, ctrlPc := .openReply }
  | .openReply => match a.opened with
    | none => .ok { s with ctrlPc := .retryDelay }
    | some fd => .ok { s with sock := some fd, ctrlPc := if s.usbipMode then .usbCheck else .connect }
  | .retryDelay => .ok { s with ctrlPc := .enterFound }
  | .usbCheck => .ok { s with ctrlPc := if a.usbReady then .connect else .usbLoop }
  | .usbLoop => .ok { s with ctrlPc := if a.usbReady then .usbFinal else .usbDelay }
  | .usbDelay => .ok { s with ctrlPc := if s.lostBit then .usbFinal else .usbLoop }
  | .usbFinal =>
      if s.lostBit then .ok { s with sock := none, ctrlPc := .enterFound }
      else .ok { s with ctrlPc := .connect }
  | .connect => .ok { s with ctrlPc := .clearSessionLost }
  | .clearSessionLost => .ok { s with sessionLost := false, ctrlPc := .setSessionActive }
  | .setSessionActive => .ok { s with sessionActive := true, ctrlPc := .enterLost }
  | .enterLost => .ok { s with ctrlPc := if s.lostBit then .clearSessionActive else .waitLost }
  | .waitLost => .error ()
  | .clearSessionActive => .ok { s with sessionActive := false, ctrlPc := .setSessionLost }
  | .setSessionLost => .ok { s with sessionLost := true, ctrlPc := .closeReply }
  | .closeReply => .ok { s with sock := none, ctrlPc := .disconnect }
  | .disconnect => .ok { s with ctrlPc := .forgetLost }
  | .forgetLost => .ok { s with sessionLost := false, ctrlPc := .enterFound }

def step (s : HubTasks) : HubInput → Except Unit HubTasks
  | .wifiReady => match s.hubPc with
    | .waitReady => .ok { s with hubPc := .discover }
    | _ => .error ()
  | .attemptFails => match s.hubPc with
    | .discover => .ok s
    | _ => .error ()
  | .reply d => match s.hubPc with
    | .discover => .ok { s with hubPc := .storeFound d }
    | _ => .error ()
  | .wifiLost => match s.hubPc with
    | .waitWifiLost => .ok { s with hubPc := .resetFound }
    | _ => .error ()
  | .hub => s.hubStep
  | .ctrl a => s.ctrlStep a

end HubTasks
end WirelessHub.Firmware
