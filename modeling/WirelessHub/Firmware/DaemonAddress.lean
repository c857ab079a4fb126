import WirelessHub.Firmware.HubClient
import WirelessHub.Framework.Run

/-!
# The daemon address of a session

A session takes the daemon's address once, and then relies on `DAEMON_LOST_BIT` to hear that
it is void. The bit is looked at only when the session starts to wait for it. A rediscovery
that clears the bit before that leaves the session with the address of a daemon that is gone.
Where no rediscovery comes in between, a waiting session has the current address, except for
the moments in which the discovery task has zeroed it and not yet set the bit.
-/

namespace WirelessHub.Firmware

open Framework

/-- The discovery task has no address, has published one, or is withdrawing it. -/
inductive HubPhase
  | searching | known | zeroed
  deriving DecidableEq

def HubPc.phase : HubPc → HubPhase
  | .waitReady => .searching
  | .discover => .searching
  | .storeFound _ => .searching
  | .storeIp _ => .searching
  | .storePort _ => .searching
  | .clearLost => .searching
  | .setFound => .known
  | .waitWifiLost => .known
  | .resetFound => .known
  | .zeroIp => .known
  | .zeroPort => .zeroed
  | .clearFound => .zeroed
  | .setLost => .zeroed

/-- The session has taken an address and does not wait for its loss yet. -/
def CtrlPc.connecting : CtrlPc → Bool
  | .openReply | .usbCheck | .usbLoop | .usbDelay | .usbFinal | .connect | .clearSessionLost
  | .setSessionActive | .enterLost => true
  | _ => false

namespace HubTasks

variable {s s' : HubTasks}

/-- The address is stored before the lost bit is cleared. -/
def Stored (s : HubTasks) : Prop :=
  match s.hubPc with
  | .storePort _ => s.ip ≠ 0
  | .clearLost => s.ip ≠ 0
  | _ => True

structure Inv (s : HubTasks) : Prop where
  stored : s.Stored
  searching : s.hubPc.phase = .searching → s.lostBit = true ∨
    s.foundBit = false ∧ (s.ctrlPc = .enterFound ∨ s.ctrlPc = .waitFound)
  known : s.hubPc.phase = .known → s.lostBit = false ∧ s.ip ≠ 0
  zeroed : s.hubPc.phase = .zeroed → s.lostBit = false ∧ s.ip = 0
  current : s.hubPc.phase = .known → s.ctrlPc.connecting = true ∨ s.ctrlPc = .waitLost → s.daemonIp = s.ip
  waiting : s.ctrlPc = .waitLost → s.lostBit = false

/-- A rediscovery does not end while the session is connecting. -/
def Undisturbed (s : HubTasks) : HubInput → Prop
  | .hub => s.hubPc = .clearLost → s.ctrlPc.connecting = false
  | _ => True

private theorem inv_boot (usbipMode : Bool) : Inv (boot usbipMode) := by
  constructor <;> simp [boot, Stored, HubPc.phase]

/-- What a step of the session changes. -/
structure CtrlMoves (s s' : HubTasks) : Prop where
  hubPc : s'.hubPc = s.hubPc
  ip : s'.ip = s.ip
  foundBit : s'.foundBit = s.foundBit
  lostBit : s'.lostBit = s.lostBit
  asleep : s.foundBit = false → s.ctrlPc = .enterFound ∨ s.ctrlPc = .waitFound →
    s'.ctrlPc = .enterFound ∨ s'.ctrlPc = .waitFound
  address : s'.ctrlPc.connecting = true ∨ s'.ctrlPc = .waitLost →
    s'.daemonIp = s.ip ∨ s'.daemonIp = s.daemonIp ∧ s.ctrlPc.connecting = true
  waits : s'.ctrlPc = .waitLost → s.lostBit = false

private theorem CtrlMoves.of_connecting (hconn : s.ctrlPc.connecting = true)
    (hhub : s'.hubPc = s.hubPc)
    (hip : s'.ip = s.ip) (hfound : s'.foundBit = s.foundBit) (hlost : s'.lostBit = s.lostBit)
    (hdaemon : s'.daemonIp = s.daemonIp) (hwaits : s'.ctrlPc = .waitLost → s.lostBit = false) :
    CtrlMoves s s' where
  hubPc := hhub
  ip := hip
  foundBit := hfound
  lostBit := hlost
  asleep _ hpc := by rcases hpc with hpc | hpc <;> simp [hpc, CtrlPc.connecting] at hconn
  address _ := .inr ⟨hdaemon, hconn⟩
  waits := hwaits

private theorem CtrlMoves.of_apart (hstart : s.ctrlPc ≠ .enterFound ∧ s.ctrlPc ≠ .waitFound)
    (hapart : s'.ctrlPc.connecting = false ∧ s'.ctrlPc ≠ .waitLost) (hhub : s'.hubPc = s.hubPc)
    (hip : s'.ip = s.ip) (hfound : s'.foundBit = s.foundBit) (hlost : s'.lostBit = s.lostBit) :
    CtrlMoves s s' where
  hubPc := hhub
  ip := hip
  foundBit := hfound
  lostBit := hlost
  asleep _ hpc := absurd hpc (not_or.mpr hstart)
  address hlate := absurd hlate (not_or.mpr ⟨ne_true_of_eq_false hapart.1, hapart.2⟩)
  waits hw := absurd hw hapart.2

theorem ctrlStep_moves {a : CtrlAnswers} (h : s.ctrlStep a = .ok s') : CtrlMoves s s' := by
  unfold ctrlStep at h
  split at h <;> rename_i hpc
  case h_1 =>
    cases h
    refine ⟨rfl, rfl, rfl, rfl, fun hf _ => .inr (by simp [hf]), fun hlate => ?_, fun hw => ?_⟩
    · cases hf : s.foundBit <;> simp [hf, CtrlPc.connecting] at hlate
    · cases hf : s.foundBit <;> simp [hf] at hw
  case h_3 =>
    cases h
    exact ⟨rfl, rfl, rfl, rfl, by simp [hpc], fun _ => .inl rfl, nofun⟩
  case h_4 =>
    split at h <;> cases h
    · exact .of_connecting (by rw [hpc]; rfl) rfl rfl rfl rfl rfl nofun
    · refine .of_connecting (by rw [hpc]; rfl) rfl rfl rfl rfl rfl fun hw => ?_
      cases hm : s.usbipMode <;> simp [hm] at hw
  case h_6 | h_7 =>
    cases h
    refine .of_connecting (by rw [hpc]; rfl) rfl rfl rfl rfl rfl fun hw => ?_
    cases hr : a.usbReady <;> simp [hr] at hw
  case h_8 | h_13 =>
    cases h
    refine .of_connecting (by rw [hpc]; rfl) rfl rfl rfl rfl rfl fun hw => ?_
    cases hl : s.lostBit
    · rfl
    · simp [hl] at hw
  case h_9 =>
    split at h <;> cases h <;> exact .of_connecting (by rw [hpc]; rfl) rfl rfl rfl rfl rfl nofun
  case h_10 | h_11 | h_12 =>
    cases h
    exact .of_connecting (by rw [hpc]; rfl) rfl rfl rfl rfl rfl nofun
  case h_5 | h_15 | h_16 | h_17 | h_18 | h_19 =>
    cases h
    exact .of_apart (by simp [hpc]) ⟨rfl, by simp⟩ rfl rfl rfl rfl
  case h_2 | h_14 => cases h

private theorem Inv.ctrl (h : Inv s) {a : CtrlAnswers} (hstep : s.ctrlStep a = .ok s') :
    Inv s' := by
  have hm := ctrlStep_moves hstep
  refine ⟨?_, fun hph => ?_, fun hph => ?_, fun hph => ?_, fun hph hlate => ?_, fun hw => ?_⟩
  · have hstored := h.stored
    rw [Stored, hm.hubPc, hm.ip]
    exact hstored
  · rw [hm.hubPc] at hph
    rw [hm.lostBit, hm.foundBit]
    exact (h.searching hph).imp_right fun ⟨hf, hpc⟩ => ⟨hf, hm.asleep hf hpc⟩
  · rw [hm.hubPc] at hph
    rw [hm.lostBit, hm.ip]
    exact h.known hph
  · rw [hm.hubPc] at hph
    rw [hm.lostBit, hm.ip]
    exact h.zeroed hph
  · rw [hm.hubPc] at hph
    rw [hm.ip]
    rcases hm.address hlate with haddr | ⟨haddr, hconn⟩
    · exact haddr
    · exact haddr.trans (h.current hph (.inl hconn))
  · rw [hm.lostBit]
    exact hm.waits hw

private theorem Inv.of_phase (h : Inv s) (hphase : s'.hubPc.phase = s.hubPc.phase)
    (hstored : s'.Stored) (hip : s'.ip = s.ip) (hlost : s'.lostBit = s.lostBit)
    (hfound : s'.foundBit = s.foundBit ∨ s'.foundBit = false) (hctrl : s'.ctrlPc = s.ctrlPc)
    (hdaemon : s'.daemonIp = s.daemonIp) : Inv s' where
  stored := hstored
  searching hph := by
    rw [hlost, hctrl]
    refine (h.searching (hphase ▸ hph)).imp_right fun ⟨hf, hpc⟩ => ⟨?_, hpc⟩
    exact hfound.elim (fun he => he.trans hf) id
  known hph := by
    rw [hlost, hip]
    exact h.known (hphase ▸ hph)
  zeroed hph := by
    rw [hlost, hip]
    exact h.zeroed (hphase ▸ hph)
  current hph hlate := by
    rw [hctrl] at hlate
    rw [hip, hdaemon]
    exact h.current (hphase ▸ hph) hlate
  waiting hw := by
    rw [hctrl] at hw
    rw [hlost]
    exact h.waiting hw

private theorem Inv.hub (h : Inv s) (hu : s.Undisturbed .hub) (hstep : s.hubStep = .ok s') :
    Inv s' := by
  unfold hubStep at hstep
  split at hstep <;> rename_i hpc
  case h_1 d =>
    cases hstep
    exact h.of_phase (by rw [hpc]; rfl) trivial rfl rfl (.inl rfl) rfl rfl
  case h_2 d =>
    cases hstep
    exact ⟨d.ip_ne_zero, fun _ => h.searching (by rw [hpc]; rfl), nofun, nofun, nofun, h.waiting⟩
  case h_3 d =>
    cases hstep
    have hstored := h.stored
    rw [Stored, hpc] at hstored
    exact h.of_phase (by rw [hpc]; rfl) hstored rfl rfl (.inl rfl) rfl rfl
  case h_4 =>
    cases hstep
    have hstored := h.stored
    rw [Stored, hpc] at hstored
    refine ⟨trivial, nofun, fun _ => ⟨rfl, hstored⟩, nofun, fun _ hlate => ?_, fun _ => rfl⟩
    -- the session is not connecting, and a wait for the lost bit would have ended
    rcases hlate with hconn | hwait
    · rw [hu hpc] at hconn
      cases hconn
    · have hlost := h.waiting hwait
      rcases h.searching (by rw [hpc]; rfl) with hset | ⟨-, hfound | hfound⟩
      · rw [hlost] at hset
        cases hset
      · rw [hwait] at hfound
        cases hfound
      · rw [hwait] at hfound
        cases hfound
  case h_5 =>
    cases hstep
    obtain ⟨hlost, hip⟩ := h.known (by rw [hpc]; rfl)
    refine ⟨trivial, nofun, fun _ => ⟨hlost, hip⟩, nofun, fun _ hlate => ?_, fun _ => hlost⟩
    refine h.current (by rw [hpc]; rfl) ?_
    dsimp only at hlate
    split at hlate
    · rcases hlate with hlate | hlate <;> cases hlate
    · exact hlate
  case h_6 =>
    cases hstep
    exact h.of_phase (by rw [hpc]; rfl) trivial rfl rfl (.inl rfl) rfl rfl
  case h_7 =>
    cases hstep
    exact ⟨trivial, nofun, nofun, fun _ => ⟨(h.known (by rw [hpc]; rfl)).1, rfl⟩, nofun, h.waiting⟩
  case h_8 =>
    cases hstep
    exact h.of_phase (by rw [hpc]; rfl) trivial rfl rfl (.inl rfl) rfl rfl
  case h_9 =>
    cases hstep
    exact h.of_phase (by rw [hpc]; rfl) trivial rfl rfl (.inr rfl) rfl rfl
  case h_10 =>
    cases hstep
    refine ⟨trivial, fun _ => .inl rfl, nofun, nofun, nofun, fun hw => ?_⟩
    dsimp only at hw
    split at hw
    · cases hw
    · contradiction
  all_goals cases hstep

private theorem Inv.step (h : Inv s) {i : HubInput} (hu : s.Undisturbed i)
    (hstep : s.step i = .ok s') : Inv s' := by
  cases i with
  | hub => exact h.hub hu hstep
  | ctrl a => exact h.ctrl hstep
  | _ =>
    -- a wait of the discovery task ends, or an attempt to discover
    simp only [HubTasks.step] at hstep
    split at hstep
    case h_1 hpc =>
      cases hstep
      exact h.of_phase (by simp [hpc, HubPc.phase]) (by simp [Stored, hpc]) rfl rfl (.inl rfl) rfl rfl
    case h_2 => cases hstep

/-- Where no rediscovery ends while the session connects, a session that waits for the loss
of its daemon has the current address, which is not zero, exactly if the discovery task is
not between zeroing the address and setting the lost bit. -/
theorem waiting_address_iff {usbipMode : Bool} {is : List HubInput} {t : HubTasks}
    (hu : RunAll HubTasks.step Undisturbed (boot usbipMode) is)
    (hr : run HubTasks.step (boot usbipMode) is = .ok t) (hwait : t.ctrlPc = .waitLost)
    (hlost : t.lostBit = false) : t.daemonIp = t.ip ∧ t.daemonIp ≠ 0 ↔ t.hubPc.phase ≠ .zeroed := by
  have h : Inv t := run_invariant (fun s i s' (h : Inv s) hi hs => h.step hi hs) (inv_boot usbipMode) hu hr
  cases hph : t.hubPc.phase with
  | searching =>
    rcases h.searching hph with hset | ⟨-, hpc | hpc⟩
    · rw [hlost] at hset
      cases hset
    · rw [hwait] at hpc
      cases hpc
    · rw [hwait] at hpc
      cases hpc
  | known =>
    have haddr := h.current hph (.inr hwait)
    exact iff_of_true ⟨haddr, haddr ▸ (h.known hph).2⟩ (by decide)
  | zeroed =>
    have hzero := (h.zeroed hph).2
    exact iff_of_false (fun ⟨haddr, hne⟩ => hne (haddr.trans hzero)) (by decide)

/-- The discovery task finds a daemon and publishes its address. -/
def discovery (d : Discovered) : List HubInput := [.wifiReady, .reply d, .hub, .hub, .hub, .hub, .hub]

def takesAddress : List HubInput := [.ctrl {}, .ctrl { opened := some 3 }]

def announces : List HubInput := [.ctrl {}, .ctrl {}, .ctrl {}, .ctrl {}]

def lossOfWifi : List HubInput := [.wifiLost, .hub, .hub, .hub, .hub, .hub]

def firstDaemon : Discovered := ⟨0x0A00000A, 7788, by decide⟩

def secondDaemon : Discovered := ⟨0x0B00000A, 7788, by decide⟩

theorem address_current_after_discovery :
    ∃ t, run HubTasks.step (boot false)
        ([.ctrl {}] ++ discovery firstDaemon ++ takesAddress ++ announces) = .ok t ∧
      t.ctrlPc = .waitLost ∧ t.daemonIp = t.ip ∧ t.daemonIp ≠ 0 := by
  have hu : RunAll HubTasks.step Undisturbed (boot false)
      ([.ctrl {}] ++ discovery firstDaemon ++ takesAddress ++ announces) := by
    iterate 14 refine runAll_cons_of_ok rfl (by first | trivial | exact fun _ => rfl) ?_
    trivial
  exact ⟨_, rfl, rfl, (waiting_address_iff hu rfl rfl rfl).mpr (by decide)⟩

/-- The network is lost while the session connects, and another daemon is found before it
waits for the loss: it goes on with the address of the first one. -/
theorem address_stale_after_rediscovery :
    ∃ t, run HubTasks.step (boot false) ([.ctrl {}] ++ discovery firstDaemon ++ takesAddress ++
        lossOfWifi ++ discovery secondDaemon ++ announces) = .ok t ∧
      t.ctrlPc = .waitLost ∧ t.lostBit = false ∧ t.hubPc = .waitWifiLost ∧
      t.daemonIp = firstDaemon.ip ∧ t.ip = secondDaemon.ip ∧ t.daemonIp ≠ t.ip :=
  ⟨_, rfl, rfl, rfl, rfl, rfl, rfl, by decide⟩

end HubTasks
end WirelessHub.Firmware
