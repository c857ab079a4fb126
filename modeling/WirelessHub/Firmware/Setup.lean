import WirelessHub.Firmware.PortalPage
import WirelessHub.Firmware.WifiBits
import WirelessHub.Framework.Durable

/-!
# Setting the device up

The device from its first power-up on: `wifi_manager_task` loads the credentials and chooses the
mode, the event handler opens and closes the portal, `post_save_handler` stores what the form
brings, call by call, and restarts. `start_ap_mode` opens the portal in parts, in the task of the
manager or in the one of the event handler. The power may go, or a checked call may abort, between
any two calls. The flash is a library of the SDK: its functions are a parameter, and what is
relied on of them is `NvsApi.Lawful`.
-/

namespace WirelessHub.Firmware

open Function Framework Portal

variable {σ ρ : Type}

inductive NvsKey
  | ssid | pass
  deriving DecidableEq

structure Credentials where
  ssid : List UInt8
  pass : List UInt8
  deriving DecidableEq

def Credentials.get (c : Credentials) : NvsKey → List UInt8
  | .ssid => c.ssid
  | .pass => c.pass

/-- The calls of the NVS library on a flash with the contents `σ`: the flash after an erase,
`nvs_get_str` into a buffer of the given size, `nvs_set_str`, `nvs_commit`, and what a restart or a
power cut leaves, which may depend on the moment `ρ`. -/
structure NvsApi (σ ρ : Type) where
  erased : σ
  getStr : σ → NvsKey → Nat → Option (List UInt8)
  setStr : σ → NvsKey → List UInt8 → σ
  commit : σ → σ
  restart : σ → ρ → σ

/-- The library keeps a store with commits: a string that fits with its zero byte is read as it was
set last, a commit makes all of it durable, and a restart keeps what was committed and of the
rest what it wants. -/
structure NvsApi.Lawful (api : NvsApi σ ρ) (view : σ → Durable NvsKey (List UInt8)) : Prop where
  erased : view api.erased = Durable.empty
  getStr : ∀ nvs key len,
    api.getStr nvs key len = ((view nvs).read key).filter fun v => v.length + 1 ≤ len
  setStr : ∀ nvs key v, view (api.setStr nvs key v) = (view nvs).put key v
  commit : ∀ nvs, view (api.commit nvs) = (view nvs).commit
  restart : ∀ nvs r, ∃ keep, view (api.restart nvs r) = (view nvs).reset keep

/-- A library that meets the laws; what a restart keeps is chosen then. -/
def NvsApi.durable : NvsApi (Durable NvsKey (List UInt8)) (NvsKey → Bool) where
  erased := .empty
  getStr nvs key len := (nvs.read key).filter fun v => v.length + 1 ≤ len
  setStr := .put
  commit := .commit
  restart := .reset

theorem NvsApi.durable_lawful : NvsApi.durable.Lawful id where
  erased := rfl
  getStr _ _ _ := rfl
  setStr _ _ _ := rfl
  commit _ := rfl
  restart _ keep := ⟨keep, rfl⟩

/-- Which calls of `nvs_load_credentials` work. -/
structure LoadIo where
  opens : Bool := true
  getsSsid : Bool := true
  getsPass : Bool := true
  deriving DecidableEq

def nvsLoadCredentials (api : NvsApi σ ρ) (nvs : σ) (io : LoadIo) : Option Credentials :=
  if io.opens then
    match if io.getsSsid then api.getStr nvs .ssid 32 else none with
    | none => none
    | some ssid => match if io.getsPass then api.getStr nvs .pass 64 else none with
      | none => none
      | some pass => some ⟨ssid, pass⟩
  else none

/-- `ssid` and `password` of `wifi_sta_config_t`. -/
structure StaConfig where
  ssid : List UInt8
  password : List UInt8
  deriving DecidableEq

/-- A zeroed buffer of `size` bytes after `strncpy` of at most `size - 1`. -/
def copied (size : Nat) (src : List UInt8) : List UInt8 :=
  let text := (cString src).take (size - 1)
  text ++ List.replicate (size - text.length) 0

def staConfig (c : Credentials) : StaConfig := ⟨copied 32 c.ssid, copied 64 c.pass⟩

/-- The calls of `nvs_save_credentials` in order, and the end of `post_save_handler`. -/
inductive SavePc
  | idle
  | open (c : Credentials)
  | setSsid (c : Credentials)
  | setPass (c : Credentials)
  | commit (c : Credentials)
  | restart
  deriving DecidableEq

/-- Who is in `start_ap_mode`. -/
inductive ApTask
  | manager | handler
  deriving DecidableEq

/-- Where: in front of `start_http_server`, or in front of the calls that set the bits. -/
inductive ApPc
  | idle | http | bits
  deriving DecidableEq

/-- What has been done to the stored credentials. -/
inductive SaveEvent
  | begun (c : Credentials)
  | done (c : Credentials)
  | erased
  deriving DecidableEq

/-- The device. All but `nvs` is lost when it restarts; `saves` is a record and no memory. -/
structure Setup (σ : Type) where
  nvs : σ
  booted : Bool
  wifi : Wifi
  ap : ApTask → ApPc
  http : Bool
  scanSsids : List (List UInt8)
  config : Option StaConfig
  save : SavePc
  saves : List SaveEvent

/-- How a boot goes. `scan` is none if the scan fails. -/
structure BootIo where
  erase : Bool := false
  load : LoadIo := {}
  scan : Option (List (List UInt8)) := none
  deriving DecidableEq

inductive SetupInput (ρ : Type)
  | boot (io : BootIo)
  | wifiEvent (e : WifiEvent)
  | apStep (task : ApTask) (httpStarts : Bool)
  | post (received : List UInt8)
  | nvsCall
  | restart (r : ρ)
  | cut (r : ρ)

/-- `wifi_event_handler` up to the call of `start_ap_mode`, and whether it comes to it. -/
def Wifi.beforeAp (w : Wifi) : WifiEvent → Wifi × Bool
  | .staDisconnected reason =>
      let w := w.dropped reason
      let w := { w with retryCount := w.retryCount + 1 }
      if w.retryCount ≤ wifiMaxRetry then (w.setBits [.connecting], false)
      else ({ w with retryCount := 0 }, true)
  | e => ((w.wifiEventHandler e).1, false)

namespace Setup

variable (api : NvsApi σ ρ)

def reboot (nvs : σ) (saves : List SaveEvent) : Setup σ :=
  ⟨nvs, false, Wifi.boot, fun _ => .idle, false, [], none, .idle, saves⟩

/-- A device with an empty flash. -/
def factory : Setup σ := reboot api.erased []

/-- `nvs_flash_init` in `app_main` erases a partition that it cannot use. -/
def flashInit (d : Setup σ) (erase : Bool) : Setup σ :=
  if erase then { d with nvs := api.erased, saves := d.saves ++ [.erased] } else d

/-- `wifi_manager_task`, without credentials up to `start_http_server` in `start_ap_mode`. -/
def wifiManagerTask (d : Setup σ) (io : BootIo) : Setup σ :=
  match nvsLoadCredentials api d.nvs io.load with
  | some c => { d with booted := true, wifi := d.wifi.startStaMode.1, config := some (staConfig c) }
  | none =>
      { d with
        booted := true
        wifi := d.wifi.scanned.openAp
        ap := update d.ap .manager .http
        scanSsids := io.scan.elim [] wifiScan }

/-- `wifi_event_handler`; a call of `start_ap_mode` at its end is left in front of
`start_http_server`. -/
def handle (d : Setup σ) (e : WifiEvent) : Setup σ :=
  let r := d.wifi.beforeAp e
  { d with
    wifi := if r.2 then r.1.openAp else r.1
    ap := if r.2 then update d.ap .handler .http else d.ap
    http := d.http && e ≠ .gotIp }

/-- The next part of `start_ap_mode`. -/
def apStep (d : Setup σ) (task : ApTask) (httpStarts : Bool) : Option (Setup σ) :=
  match d.ap task with
  | .idle => none
  | .http => some { d with http := d.http || httpStarts, ap := update d.ap task .bits }
  | .bits => some { d with wifi := d.wifi.apBits, ap := update d.ap task .idle }

/-- `post_save_handler` up to the first call of `nvs_save_credentials`. -/
def postSave (d : Setup σ) (received : List UInt8) : Setup σ :=
  match postSaveHandler received with
  | some (ssid, pass) =>
      { d with save := .open ⟨ssid, pass⟩, saves := d.saves ++ [.begun ⟨ssid, pass⟩] }
  | none => d

/-- The next call of `nvs_save_credentials`; one that fails is a `cut`. -/
def nvsCall (d : Setup σ) : Option (Setup σ) :=
  match d.save with
  | .open c => some { d with save := .setSsid c }
  | .setSsid c => some { d with nvs := api.setStr d.nvs .ssid c.ssid, save := .setPass c }
  | .setPass c => some { d with nvs := api.setStr d.nvs .pass c.pass, save := .commit c }
  | .commit c =>
      some { d with nvs := api.commit d.nvs, save := .restart, saves := d.saves ++ [.done c] }
  | .idle | .restart => none

/-- One step of the device. The handler of an event is called once the one before it has returned,
and a request is handled while the server runs and after the one before it. -/
def step (d : Setup σ) : SetupInput ρ → Except Unit (Setup σ)
  | .boot io => if d.booted then .error () else .ok (wifiManagerTask api (d.flashInit api io.erase) io)
  | .wifiEvent e => if d.booted ∧ d.ap .handler = .idle then .ok (d.handle e) else .error ()
  | .apStep task httpStarts => (d.apStep task httpStarts).elim (.error ()) .ok
  | .post received => if d.http ∧ d.save = .idle then .ok (d.postSave received) else .error ()
  | .nvsCall => (d.nvsCall api).elim (.error ()) .ok
  | .restart r =>
      if d.save = .restart then .ok (reboot (api.restart d.nvs r) d.saves) else .error ()
  | .cut r => .ok (reboot (api.restart d.nvs r) d.saves)

/-- What is relied on of the SDK: `httpd_stop` returns only when no request is being handled, and the
station gets no address while `wifi_manager_task` is still opening the setup network. -/
structure Orderly (d : Setup σ) (i : SetupInput ρ) : Prop where
  httpdStop : i = .wifiEvent .gotIp → d.save = .idle
  noAddress : i = .wifiEvent .gotIp → d.ap .manager = .idle

/-- What a step can do. -/
inductive Step : Setup σ → SetupInput ρ → Setup σ → Prop
  | boot {d : Setup σ} (io : BootIo) (h : d.booted = false) :
      Step d (.boot io) (wifiManagerTask api (d.flashInit api io.erase) io)
  | handle {d : Setup σ} (e : WifiEvent) (h : d.booted = true) (hap : d.ap .handler = .idle) :
      Step d (.wifiEvent e) (d.handle e)
  | http {d : Setup σ} {task : ApTask} (starts : Bool) (h : d.ap task = .http) :
      Step d (.apStep task starts) { d with http := d.http || starts, ap := update d.ap task .bits }
  | bits {d : Setup σ} {task : ApTask} (starts : Bool) (h : d.ap task = .bits) :
      Step d (.apStep task starts) { d with wifi := d.wifi.apBits, ap := update d.ap task .idle }
  | refused {d : Setup σ} (received : List UInt8) : Step d (.post received) d
  | post {d : Setup σ} {received ssid pass : List UInt8} (h : d.http = true)
      (hform : postSaveHandler received = some (ssid, pass)) : Step d (.post received)
        { d with save := .open ⟨ssid, pass⟩, saves := d.saves ++ [.begun ⟨ssid, pass⟩] }
  | nvsCall {d d' : Setup σ} (h : d.nvsCall api = some d') : Step d .nvsCall d'
  | restart {d : Setup σ} (r : ρ) : Step d (.restart r) (reboot (api.restart d.nvs r) d.saves)
  | cut {d : Setup σ} (r : ρ) : Step d (.cut r) (reboot (api.restart d.nvs r) d.saves)

variable {api} {d d' : Setup σ} {i : SetupInput ρ}

theorem step_cases (h : step api d i = .ok d') : Step api d i d' := by
  cases i with
  | boot io =>
    simp only [step] at h
    split at h
    · cases h
    · rename_i hb
      cases h
      exact .boot io (by simpa using hb)
  | wifiEvent e =>
    simp only [step] at h
    split at h
    · rename_i hok
      cases h
      exact .handle e hok.1 hok.2
    · cases h
  | apStep task starts =>
    simp only [step, apStep] at h
    split at h
    · cases h
    · cases h
      exact .http starts ‹_›
    · cases h
      exact .bits starts ‹_›
  | post received =>
    simp only [step, postSave] at h
    split at h
    · rename_i hok
      split at h
      · cases h
        exact .post hok.1 ‹_›
      · cases h
        exact .refused received
    · cases h
  | nvsCall =>
    cases hcall : d.nvsCall api with
    | none => simp [step, hcall] at h
    | some d₁ =>
      simp only [step, hcall, Option.elim_some, Except.ok.injEq] at h
      exact .nvsCall (h ▸ hcall)
  | restart r =>
    simp only [step] at h
    split at h
    · cases h
      exact .restart r
    · cases h
  | cut r =>
    cases h
    exact .cut r

theorem wifiManagerTask_kept (d : Setup σ) (io : BootIo) :
    (wifiManagerTask api d io).booted = true ∧ (wifiManagerTask api d io).nvs = d.nvs ∧
      (wifiManagerTask api d io).saves = d.saves ∧ (wifiManagerTask api d io).save = d.save := by
  unfold wifiManagerTask
  cases nvsLoadCredentials api d.nvs io.load <;> exact ⟨rfl, rfl, rfl, rfl⟩

private theorem nvsCall_kept (h : d.nvsCall api = some d') : d.save ≠ .idle ∧
    ∃ nvs save saves, d' = { d with nvs := nvs, save := save, saves := saves } := by
  simp only [Setup.nvsCall] at h
  split at h <;> cases h <;> exact ⟨by simp [*], _, _, _, rfl⟩

/-- Before the device has booted it is as a reset leaves it. -/
def Fresh (d : Setup σ) : Prop := d.booted = false → d = reboot d.nvs d.saves

theorem fresh_reboot (nvs : σ) (saves : List SaveEvent) : Fresh (reboot nvs saves) := fun _ => rfl

theorem Fresh.step (h : Fresh d) (hstep : step api d i = .ok d') : Fresh d' := by
  intro hb
  cases step_cases hstep with
  | boot io hf => exact Bool.noConfusion (hb.symm.trans (wifiManagerTask_kept _ io).1)
  | handle e hup hap => exact Bool.noConfusion (hup.symm.trans hb)
  | http starts hpc | bits starts hpc =>
    rw [h hb] at hpc
    cases hpc
  | refused received => exact h hb
  | post hhttp hform =>
    rw [h hb] at hhttp
    cases hhttp
  | nvsCall hcall =>
    obtain ⟨hsave, nvs, save, saves, rfl⟩ := nvsCall_kept hcall
    rw [h hb] at hsave
    exact absurd rfl hsave
  | restart r | cut r => rfl

theorem Fresh.flashInit (api : NvsApi σ ρ) (h : Fresh d) (hb : d.booted = false) (erase : Bool) :
    ∃ nvs saves, d.flashInit api erase = reboot nvs saves := by
  rw [h hb]
  cases erase <;> exact ⟨_, _, rfl⟩

/-! ## The parts of `start_ap_mode` in a row -/

/-- `s_http_server` after the calls. -/
def serve (http starts : Bool) (calls : List WifiCall) : Bool :=
  calls.foldl (fun up call => match call with
    | .startHttpServer => up || starts
    | .stopHttpServer => false
    | _ => up) http

section Parts

private theorem serve_startApMode (w : Wifi) (http starts : Bool) :
    serve http starts w.startApMode.2 = (http || starts) := by
  cases hn : w.netifApCreated <;> simp [serve, Wifi.startApMode, hn]

private theorem handler_of_beforeAp (w : Wifi) (e : WifiEvent) :
    ((w.beforeAp e).2 = true ∧ e ≠ .gotIp ∧ w.wifiEventHandler e = (w.beforeAp e).1.startApMode) ∨
    ((w.beforeAp e).2 = false ∧ (w.wifiEventHandler e).1 = (w.beforeAp e).1 ∧
      ∀ http starts, serve http starts (w.wifiEventHandler e).2 = (http && e ≠ .gotIp)) := by
  cases e with
  | staStart | apStaConnected | otherWifi | gotIp =>
    exact .inr ⟨rfl, rfl, fun http starts => by simp [Wifi.wifiEventHandler, serve]⟩
  | staDisconnected reason =>
    have hcount := w.dropped_retryCount reason
    rcases w.disconnect_cases reason with ⟨hlt, heq⟩ | ⟨hge, heq⟩
    · have hle : w.retryCount + 1 ≤ wifiMaxRetry := hlt
      exact .inr (by simp [Wifi.beforeAp, hcount, hle, heq, serve])
    · have hgt : ¬w.retryCount + 1 ≤ wifiMaxRetry := by
        unfold wifiMaxRetry
        omega
      exact .inl (by simp [Wifi.beforeAp, hcount, hgt, heq])

private theorem run_apSteps {task : ApTask} (h : d.ap task = .http) (starts : Bool) :
    run (step api) d [.apStep task starts, .apStep task starts] = .ok { d with
      wifi := d.wifi.apBits, http := d.http || starts, ap := update d.ap task .idle } := by
  have hfirst : step api d (.apStep task starts) =
      .ok { d with http := d.http || starts, ap := update d.ap task .bits } := by
    simp [step, apStep, h]
  rw [run_cons_of_ok _ hfirst]
  simp [run, step, apStep]

/-- The steps of an event, run without another one in between, are `wifi_event_handler`. -/
theorem handler_in_parts (hb : d.booted = true) (hap : d.ap .handler = .idle) (e : WifiEvent)
    (starts : Bool) : ∃ d', run (step api) d (.wifiEvent e :: if (d.wifi.beforeAp e).2 then
        [.apStep .handler starts, .apStep .handler starts] else []) = .ok d' ∧
      d'.wifi = (d.wifi.wifiEventHandler e).1 ∧
      d'.http = serve d.http starts (d.wifi.wifiEventHandler e).2 ∧ d'.ap = d.ap := by
  have hstep : step api d (.wifiEvent e) = .ok (d.handle e) := if_pos ⟨hb, hap⟩
  rw [run_cons_of_ok _ hstep]
  rcases handler_of_beforeAp d.wifi e with ⟨hcall, hne, heq⟩ | ⟨hcall, hstate, hserve⟩
  · have hhttp : (d.handle e).ap .handler = .http := by simp [handle, hcall]
    rw [if_pos hcall, run_apSteps hhttp]
    refine ⟨_, rfl, ?_, ?_, ?_⟩
    · simp [heq, handle, hcall, Wifi.startApMode]
    · rw [heq, serve_startApMode]
      simp [handle, hne]
    · simp [handle, hcall, ← hap]
  · rw [if_neg (by simp [hcall])]
    exact ⟨_, rfl, by simp [handle, hcall, hstate], by simp [handle, hserve],
      by simp [handle, hcall]⟩

/-- The steps of a boot, run without another one in between, start the manager in the mode that the
stored credentials ask for. -/
theorem boot_in_parts (nvs : σ) (saves : List SaveEvent) (io : BootIo) (starts : Bool) :
    ∃ mode d', run (step api) (reboot nvs saves) (.boot io :: if mode = WifiMode.ap then
        [.apStep .manager starts, .apStep .manager starts] else []) = .ok d' ∧
      d'.wifi = (Wifi.start mode).1 ∧ d'.http = serve false starts (Wifi.start mode).2 ∧
      (mode = .ap ↔ d'.config = none) := by
  obtain ⟨nvs₁, saves₁, hinit⟩ :=
    (fresh_reboot nvs saves).flashInit api rfl io.erase
  have hstep : step api (reboot nvs saves) (.boot io) =
      .ok (wifiManagerTask api (reboot nvs₁ saves₁) io) := by
    rw [← hinit]
    rfl
  cases hload : nvsLoadCredentials api nvs₁ io.load with
  | some c =>
    refine ⟨.sta, _, run_cons_of_ok [] hstep, ?_, ?_, ?_⟩ <;>
      simp [wifiManagerTask, reboot, hload, serve, Wifi.start, Wifi.startStaMode, Wifi.boot]
  | none =>
    have hpc : (wifiManagerTask api (reboot nvs₁ saves₁) io).ap .manager = .http := by
      simp [wifiManagerTask, reboot, hload]
    have hrun := (run_cons_of_ok _ hstep).trans (run_apSteps hpc starts)
    refine ⟨.ap, _, hrun, ?_, ?_, ?_⟩
    · simp [wifiManagerTask, reboot, hload, Wifi.start, Wifi.startApMode]
    · rw [Wifi.start, serve_startApMode]
      simp [wifiManagerTask, reboot, hload]
    · simp [wifiManagerTask, reboot, hload]

end Parts

/-! ## When the portal is open -/

/-- When the portal is up, and what it can show. -/
structure PortalOk (d : Setup σ) : Prop where
  fresh : Fresh d
  ready : (d.http = true ∨ ∃ task, d.ap task ≠ .idle) → d.wifi.bits .ready = false
  opened : d.http = true → d.wifi.bits .apMode = true ∨ ∃ task, d.ap task = .bits
  saving : d.save ≠ .idle → d.http = true
  listed : d.scanSsids ≠ [] → d.config = none

namespace PortalOk

private theorem reboot (nvs : σ) (saves : List SaveEvent) : PortalOk (reboot nvs saves) where
  fresh := fresh_reboot nvs saves
  ready _ := rfl
  opened := nofun
  saving h := absurd rfl h
  listed h := absurd rfl h

private theorem boot (nvs : σ) (saves : List SaveEvent) (io : BootIo) :
    PortalOk (wifiManagerTask api (Setup.reboot nvs saves) io) := by
  unfold wifiManagerTask
  cases nvsLoadCredentials api _ io.load with
  | some c => exact ⟨nofun, fun _ => rfl, nofun, fun h => absurd rfl h, fun h => absurd rfl h⟩
  | none => exact ⟨nofun, fun _ => rfl, nofun, fun h => absurd rfl h, fun _ => rfl⟩

private theorem handle (h : PortalOk d) (hb : d.booted = true) (hap : d.ap .handler = .idle)
    {e : WifiEvent} (hstop : e = .gotIp → d.save = .idle)
    (haddr : e = .gotIp → d.ap .manager = .idle) : PortalOk (d.handle e) := by
  have hup : Fresh (d.handle e) := fun hf => Bool.noConfusion (hb.symm.trans hf)
  cases e with
  | staStart | apStaConnected | otherWifi =>
    have hsame : d.http = (d.http && true) := (Bool.and_true _).symm
    refine ⟨hup, ?_, ?_, ?_, h.listed⟩ <;>
      simp only [Setup.handle, ne_eq, reduceCtorEq, not_false_eq_true, decide_true, ← hsame]
    · exact h.ready
    · exact h.opened
    · exact h.saving
  | gotIp =>
    have hidle : ∀ task, d.ap task = .idle := by
      intro task
      cases task with
      | manager => exact haddr rfl
      | handler => exact hap
    have hdown : (d.handle .gotIp).http = false := by simp [Setup.handle]
    refine ⟨hup, ?_, fun hhttp => ?_, fun hne => absurd (hstop rfl) hne, h.listed⟩
    · rintro (hhttp | ⟨task, hne⟩)
      · simp [hdown] at hhttp
      · exact absurd (hidle task) hne
    · simp [hdown] at hhttp
  | staDisconnected reason =>
    have hbits := d.wifi.dropped_bits reason
    have hhttp : (d.handle (.staDisconnected reason)).http = d.http := by simp [Setup.handle]
    have hready : (d.handle (.staDisconnected reason)).wifi.bits .ready = false := by
      simp only [Setup.handle, Wifi.beforeAp]
      split_ifs <;> simp_all [Wifi.setBits, Wifi.openAp]
    have hmode : (d.handle (.staDisconnected reason)).wifi.bits .apMode = d.wifi.bits .apMode := by
      simp only [Setup.handle, Wifi.beforeAp]
      split_ifs <;> simp_all [Wifi.setBits, Wifi.openAp]
    -- The task between the server and the bits is the manager: the handler is not in the call.
    have hpc : ∀ task, d.ap task = .bits → (d.handle (.staDisconnected reason)).ap task = .bits := by
      intro task ht
      have hne : task ≠ .handler := by
        rintro rfl
        rw [hap] at ht
        cases ht
      simp only [Setup.handle]
      split_ifs
      · rw [update_of_ne hne, ht]
      · exact ht
    refine ⟨hup, fun _ => hready, fun hopen => ?_, fun hne => ?_, h.listed⟩
    · rw [hhttp] at hopen
      rw [hmode]
      cases h.opened hopen with
      | inl hset => exact .inl hset
      | inr hbits =>
        obtain ⟨task, ht⟩ := hbits
        exact .inr ⟨task, hpc task ht⟩
    · rw [hhttp]
      exact h.saving hne

private theorem step (h : PortalOk d) (hi : Orderly d i) (hstep : step api d i = .ok d') :
    PortalOk d' := by
  have hfresh := h.fresh.step hstep
  cases step_cases hstep with
  | boot io hb =>
    obtain ⟨nvs, saves, heq⟩ := h.fresh.flashInit api hb io.erase
    rw [heq]
    exact boot nvs saves io
  | handle e hb hap =>
    exact h.handle hb hap (fun he => hi.httpdStop (he ▸ rfl)) fun he => hi.noAddress (he ▸ rfl)
  | @http task starts hpc =>
    have hne : d.ap task ≠ .idle := by simp [hpc]
    refine ⟨hfresh, fun _ => h.ready (.inr ⟨task, hne⟩), fun _ => .inr ⟨task, update_self _ _ _⟩,
      fun hs => ?_, h.listed⟩
    rw [h.saving hs]
    rfl
  | bits starts hpc =>
    refine ⟨hfresh, fun _ => ?_, fun _ => .inl ?_, h.saving, h.listed⟩ <;>
      simp [Wifi.apBits, Wifi.setBits, Wifi.clearBits]
  | refused received => exact h
  | post hhttp hform => exact ⟨hfresh, h.ready, h.opened, fun _ => hhttp, h.listed⟩
  | nvsCall hcall =>
    obtain ⟨hsave, nvs, save, saves, rfl⟩ := nvsCall_kept hcall
    exact ⟨hfresh, h.ready, h.opened, fun _ => h.saving hsave, h.listed⟩
  | restart r | cut r => exact .reboot _ _

end PortalOk

variable {is : List (SetupInput ρ)}

/-- In every orderly history, for any flash library: while the server of the portal runs, or a form
is being saved, the device has no address, and the setup network is up unless a `start_ap_mode` has
started the server and not set its bit yet. A list of networks is shown only in a boot that did
not find credentials. -/
theorem portal_of_run (hg : RunAll (step api) Orderly (factory api) is)
    (hr : run (step api) (factory api) is = .ok d) :
    (d.http = true ∨ d.save ≠ .idle → d.wifi.bits .ready = false ∧
      (d.wifi.bits .apMode = true ∨ ∃ task, d.ap task = .bits)) ∧
    (d.scanSsids ≠ [] → d.config = none) := by
  have h : PortalOk d :=
    run_invariant (P := PortalOk) (fun _ _ _ h hi hstep => h.step hi hstep) (.reboot _ _) hg hr
  refine ⟨fun hup => ?_, h.listed⟩
  have hhttp : d.http = true := hup.elim id h.saving
  exact ⟨h.ready (.inl hhttp), h.opened hhttp⟩

/-- The form with the name `a` and the password `b`, and the calls that save it. -/
def savedRun : List (SetupInput (NvsKey → Bool)) :=
  [.boot {}, .apStep .manager true, .apStep .manager true, .post (formBody [0x61] [0x62]), .nvsCall,
    .nvsCall, .nvsCall, .nvsCall, .restart fun _ => true]

/-- The network of that form is gone. -/
def lostRun : List (SetupInput (NvsKey → Bool)) :=
  savedRun ++ .boot {} :: List.replicate 6 (.wifiEvent (.staDisconnected (.other 201)))

/-- The portal is reachable again, and the bit of the setup network is not set yet. -/
theorem portal_reopened : ∃ d, run (step .durable) (factory .durable)
      (lostRun ++ [.apStep .handler true]) = .ok d ∧ d.http = true ∧
    d.wifi.bits .apMode = false ∧ d.wifi.bits .ready = false := by
  obtain ⟨d, hr, hup, hmode⟩ : ∃ d, run (step .durable) (factory .durable)
      (lostRun ++ [.apStep .handler true]) = .ok d ∧ d.http = true ∧
      d.wifi.bits .apMode = false := ⟨_, rfl, rfl, rfl⟩
  have hall : ∀ i ∈ lostRun ++ [.apStep .handler true], i ≠ .wifiEvent .gotIp := by
    simp [lostRun, savedRun]
  have hg : RunAll (step .durable) Orderly (factory .durable) (lostRun ++ [.apStep .handler true]) :=
    (runAll_of_forall hall _).imp_of_invariant (P := fun _ => True) (fun _ _ _ _ _ _ => trivial)
      (fun _ _ _ hne => ⟨fun h => absurd h hne, fun h => absurd h hne⟩) trivial
  exact ⟨d, hr, hup, hmode, ((portal_of_run hg hr).1 (.inl hup)).1⟩

end Setup
end WirelessHub.Firmware
