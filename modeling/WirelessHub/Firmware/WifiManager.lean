import Mathlib.Data.List.DropRight
import Mathlib.Tactic.Common

/-!
# The WiFi manager

The event group of `wifi_manager.c` and the functions that write it: `start_ap_mode`,
`start_sta_mode` and `wifi_event_handler`. The calls to the WiFi driver, the network interfaces
and the two servers of the portal are effects.
-/

namespace WirelessHub.Firmware

/-- The bits of the event group. -/
inductive WifiBit
  | ready | lost | apMode | connecting | authFail
  deriving DecidableEq, Repr

inductive WifiMode
  | sta | ap
  deriving DecidableEq, Repr

/-- `wifi_err_reason_t`; the handler tells two of them from the others. -/
inductive DisconnectReason
  | authFail | fourWayHandshakeTimeout | other (code : UInt8)
  deriving DecidableEq, Repr

/-- The events for which the handler is registered. -/
inductive WifiEvent
  | staStart
  | staDisconnected (reason : DisconnectReason)
  | apStaConnected
  | otherWifi
  | gotIp
  deriving DecidableEq, Repr

inductive WifiCall
  | startApMode
  | createNetif (mode : WifiMode)
  | dhcpsStop
  | setIpInfo
  | setMode (mode : WifiMode)
  | setConfig (mode : WifiMode)
  | wifiStart
  | setDnsInfo
  | dhcpsOption
  | dhcpsStart
  | startHttpServer
  | startDnsServer
  | stopDnsServer
  | stopHttpServer
  | connect
  deriving DecidableEq, Repr

def wifiMaxRetry : Nat := 5

/-- The state of the manager. -/
structure Wifi where
  bits : WifiBit → Bool
  retryCount : Nat
  netifStaCreated : Bool
  netifApCreated : Bool

namespace Wifi

/-- `wifi_manager_start`, before the manager's task runs. -/
def boot : Wifi := ⟨fun _ => false, 0, false, false⟩

def clearBits (w : Wifi) (mask : List WifiBit) : Wifi :=
  { w with bits := fun b => if b ∈ mask then false else w.bits b }

def setBits (w : Wifi) (mask : List WifiBit) : Wifi :=
  { w with bits := fun b => if b ∈ mask then true else w.bits b }

/-- `start_ap_mode` up to the call of `start_http_server`. -/
def openAp (w : Wifi) : Wifi := { w with netifApCreated := true }

/-- The last two calls of `start_ap_mode`. -/
def apBits (w : Wifi) : Wifi := (w.clearBits [.ready, .connecting]).setBits [.lost, .apMode]

def startApMode (w : Wifi) : Wifi × List WifiCall :=
  (w.openAp.apBits,
    .startApMode :: (if w.netifApCreated then [] else [.createNetif .ap]) ++
      [.dhcpsStop, .setIpInfo, .setMode .ap, .setConfig .ap, .wifiStart, .setDnsInfo, .dhcpsOption,
        .dhcpsStart, .startHttpServer, .startDnsServer])

def startStaMode (w : Wifi) : Wifi × List WifiCall :=
  (({ w with netifStaCreated := true }.clearBits [.apMode, .authFail]).setBits [.connecting],
    (if w.netifStaCreated then [] else [.createNetif .sta]) ++
      [.setMode .sta, .setConfig .sta, .wifiStart])

/-- What `wifi_scan` leaves behind: the interface of the station. -/
def scanned (w : Wifi) : Wifi := { w with netifStaCreated := true }

/-- The end of `wifi_manager_task`: which mode is started depends on the stored credentials, and
without them there was a scan. -/
def start (mode : WifiMode) : Wifi × List WifiCall :=
  match mode with
  | .sta => boot.startStaMode
  | .ap => boot.scanned.startApMode

end Wifi

def DisconnectReason.isAuth : DisconnectReason → Bool
  | .authFail | .fourWayHandshakeTimeout => true
  | .other _ => false

namespace Wifi

def wifiEventHandler (w : Wifi) : WifiEvent → Wifi × List WifiCall
  | .staStart => (w, [.connect])
  | .staDisconnected reason =>
      let w := (w.clearBits [.ready, .connecting]).setBits [.lost]
      let w := if reason.isAuth then w.setBits [.authFail] else w
      let w := { w with retryCount := w.retryCount + 1 }
      if w.retryCount ≤ wifiMaxRetry then (w.setBits [.connecting], [.connect])
      else { w with retryCount := 0 }.startApMode
  | .apStaConnected => (w, [])
  | .otherWifi => (w, [])
  | .gotIp =>
      let w := { w with retryCount := 0 }
      ((w.clearBits [.lost, .connecting, .apMode, .authFail]).setBits [.ready],
        [.stopDnsServer, .stopHttpServer])

def after (mode : WifiMode) (es : List WifiEvent) : Wifi :=
  es.foldl (fun w e => (w.wifiEventHandler e).1) (start mode).1

theorem after_concat (mode : WifiMode) (es : List WifiEvent) (e : WifiEvent) :
    after mode (es ++ [e]) = ((after mode es).wifiEventHandler e).1 := by
  rw [after, List.foldl_append]
  rfl

end Wifi

end WirelessHub.Firmware
