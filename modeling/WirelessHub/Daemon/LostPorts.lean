import WirelessHub.Daemon.Switchboard

/-!
# Ports that are lost

A port that is marked in use while no session has it is out of reach: only a session's own port
is ever given back, and only an unmarked port is ever handed out. Hang-ups, failing writes to
sysfs and oversized descriptors leave such ports behind, and each takes a place away from every
later client until the daemon is restarted.
-/

namespace WirelessHub

open Function Framework

/-- The ports that are marked in use though no session has them. -/
def lostPorts (hub : HubServer) (vhci : VhciDriver) : Set Nat :=
  {port | port < maxPorts ∧ vhci.ports port = true ∧
    ∀ p s, hub.heap p = some s → s.vhciPort ≠ port}

section Preservation

variable {hub : HubServer} {vhci : VhciDriver} {st st' : Daemon} {p : SessionPtr}
  {s t : DeviceSession} {port : Nat}

private theorem lostPorts_drop (hp : PortsOk hub vhci) (hs : hub.heap p = some s) (d : UInt8)
    (freed : Bool) (h : port ∈ lostPorts hub vhci) :
    port ∈ lostPorts (hub.dropSession d p t) (if freed then vhci.freePort s.vhciPort else vhci) := by
  obtain ⟨hlt, hmark, hnone⟩ := h
  refine ⟨hlt, ?_, fun q r hq => hnone q r (HubServer.heap_of_dropSession hq).2⟩
  cases freed with
  | false => exact hmark
  | true =>
    obtain ⟨h₀, h₁, -⟩ := hp.used p s hs
    have hne : port ≠ s.vhciPort.toNat := by
      have := hnone p s hs
      omega
    rw [if_pos rfl, VhciDriver.freePort_ports _ h₀ h₁, if_neg hne]
    exact hmark

private theorem lostPorts_add {new : Nat} (hfree : vhci.freeSlot = some new) (hs : s.vhciPort = new)
    (h : port ∈ lostPorts hub vhci) :
    port ∈ lostPorts (hub.addSession s) ⟨update vhci.ports new true⟩ := by
  obtain ⟨hlt, hmark, hnone⟩ := h
  have hne : port ≠ new := by
    rintro rfl
    rw [(VhciDriver.freeSlot_some hfree).2] at hmark
    cases hmark
  refine ⟨hlt, by simpa [hne] using hmark, fun q r hq => ?_⟩
  rcases HubServer.heap_of_addSession hq with ⟨-, rfl⟩ | ⟨-, hr⟩
  · rw [hs]
    omega
  · exact hnone q r hr

private theorem Move.lostPorts_subset {k : MoveKind} (hm : Move k st st') (hs : Sound st) :
    lostPorts st.hub st.vhci ⊆ lostPorts st'.hub st'.vhci := by
  intro port h
  cases hm with
  | quiet hub vhci => rw [hub, vhci]; exact h
  | accept f free hub vhci => rw [hub, vhci]; exact h
  | dropPending k sock pending hub vhci => rw [hub, vhci]; exact h
  | forward p s h₀ h₁ session handler same hub vhci =>
    rw [hub, vhci]
    refine ⟨h.1, h.2.1, fun q r hq => ?_⟩
    by_cases hqp : q = p
    · subst hqp
      obtain rfl : { s with handler := some h₁ } = r := by simpa using hq
      exact h.2.2 q s session
    · exact h.2.2 q r (by simpa [hqp] using hq)
  | leak new free hub vhci =>
    rw [hub, vhci]
    refine ⟨h.1, ?_, h.2.2⟩
    by_cases hne : port = new
    · simp [hne]
    · simpa [hne] using h.2.1
  | remove freed p s session hub vhci =>
    rw [hub, vhci]
    exact lostPorts_drop hs.ports session _ freed h
  | connect ok k s sock pending binds =>
    obtain ⟨new, hfree, hnew, hv⟩ := binds.port
    rw [binds.hub, hv]
    exact lostPorts_add hfree hnew h
  | reset ok p s t sock tcpSock device unplugs binds =>
    obtain ⟨new, hfree, hnew, hv⟩ := binds.port
    rw [binds.hub, hv]
    apply lostPorts_add hfree hnew
    rw [unplugs.hub, unplugs.vhci]
    exact lostPorts_drop hs.ports unplugs.session _ true h
  | resetFail p s sock tcpSock unplugs hub vhci =>
    rw [hub, vhci, unplugs.hub, unplugs.vhci]
    exact lostPorts_drop hs.ports unplugs.session _ true h

private theorem Sound.plugged_add_lost_le (hs : Sound st) :
    st.hub.switchboard.plugged.ncard + (lostPorts st.hub st.vhci).ncard ≤ maxPorts := by
  apply plugged_ncard_add_le hs.wf hs.ports
  · intro port h
    exact h.1
  · intro p s hp h
    have := (hs.ports.used p s hp).1
    exact h.2.2 p s hp (by omega)

private theorem lostPorts_finite : (lostPorts hub vhci).Finite := by
  apply (Set.finite_lt_nat maxPorts).subset
  intro port h
  exact h.1

/-- A session that leaves without a detach leaves its port behind. -/
theorem Move.lostPorts_succ_le (hm : Move (.remove false) st st') (hs : Sound st) :
    (lostPorts st.hub st.vhci).ncard + 1 ≤ (lostPorts st'.hub st'.vhci).ncard := by
  have hsub := hm.lostPorts_subset hs
  cases hm with
  | remove _ p s session hub vhci =>
    obtain ⟨h₀, h₁, hmark⟩ := hs.ports.used p s session
    have hnot : s.vhciPort.toNat ∉ lostPorts st.hub st.vhci := by
      intro h
      exact h.2.2 p s session (by omega)
    have hlost : s.vhciPort.toNat ∈ lostPorts st'.hub st'.vhci := by
      rw [hub, vhci]
      refine ⟨by omega, hmark, fun q r hq heq => ?_⟩
      obtain ⟨hqp, hr⟩ := HubServer.heap_of_dropSession hq
      exact hqp (hs.ports.inj q p r s hr session (by omega))
    rw [← Set.ncard_insert_of_notMem hnot lostPorts_finite]
    exact Set.ncard_le_ncard (Set.insert_subset hlost hsub) lostPorts_finite

end Preservation

namespace Daemon

variable {udpFd tcpServerFd : Fd} {inherited : Fd → Option FdMode} {is js : List Input}
  {st st' : Daemon} {i : Input}

/-- The turn removes a session and calls no detach for it: the connection of the session hung
up, or its handler reports that the kernel side failed. -/
def abandons (st : Daemon) (i : Input) : Bool :=
  match st.hub.route i.fd with
  | .tcp p => i.evts.hangup && (st.hub.sessions (st.deviceIdAt p i.sys)).isSome
  | .vhci _ => !i.evts.hangup && i.evts.epollin && drainResult i.sys.reads == some false
  | _ => false

private theorem step_lostPorts (hs : Sound st) (hstep : step st i = .ok st') :
    lostPorts st.hub st.vhci ⊆ lostPorts st'.hub st'.vhci :=
  (step_moves hs hstep).invariant
    (P := fun b => lostPorts st.hub st.vhci ⊆ lostPorts b.hub b.vhci)
    (fun _ _ _ _ ha hm h => h.trans (hm.lostPorts_subset ha)) hs subset_rfl

private theorem removeSession_lostPorts (hs : Sound st) {d : UInt8}
    (hd : st.hub.sessions d ≠ none) : (lostPorts st.hub st.vhci).ncard + 1 ≤
      (lostPorts (st.removeSession d).hub (st.removeSession d).vhci).ncard := by
  rcases removeSession_moves hs d with he | hm
  · obtain ⟨p, hp⟩ := Option.ne_none_iff_exists'.mp hd
    obtain ⟨s, hheap, -⟩ := hs.wf.live d p hp
    have hnone : (st.removeSession d).hub.sessions d = none := by
      rw [removeSession_of_some hp hheap]
      simp [HubServer.dropSession]
    exact absurd (he ▸ hnone) hd
  · exact hm.lostPorts_succ_le hs

private theorem vhciReadable_abandons (hs : Sound st) {p : SessionPtr} {s : DeviceSession}
    (hp : st.hub.heap p = some s) {sys : Syscalls} (hd : drainResult sys.reads = some false)
    (h : st.vhciReadable p s sys = .ok st') :
    (lostPorts st.hub st.vhci).ncard + 1 ≤ (lostPorts st'.hub st'.vhci).ncard := by
  obtain ⟨h₀, hh, ⟨htrue, -⟩ | ⟨-, rfl⟩⟩ := vhciReadable_forwards h
  · rw [hd] at htrue
    cases htrue
  have hf : Move .forward st (st.forwarded p s h₀ sys) := forwarded_move hp hh sys
  have hlive : st.hub.sessions s.deviceId ≠ none := by
    rw [hs.wf.owned p s hp]
    exact Option.some_ne_none p
  have hle := Set.ncard_le_ncard (hf.lostPorts_subset hs) lostPorts_finite
  exact (Nat.succ_le_succ hle).trans (removeSession_lostPorts (hf.sound hs) hlive)

private theorem step_abandons (hs : Sound st) (hstep : step st i = .ok st')
    (hab : st.abandons i = true) :
    (lostPorts st.hub st.vhci).ncard + 1 ≤ (lostPorts st'.hub st'.vhci).ncard := by
  have hs₁ := arrived_sound hs i
  have h : (st.arrived i).handleEvent i.fd i.evts i.sys = .ok st' := hstep
  have hab' : (st.arrived i).abandons i = true := hab
  rw [handleEvent_route] at h
  cases hr : (st.arrived i).hub.route i.fd with
  | udp => simp [abandons, hr] at hab'
  | server => simp [abandons, hr] at hab'
  | other => simp [abandons, hr] at hab'
  | tcp p =>
    simp only [abandons, hr, Bool.and_eq_true, Option.isSome_iff_ne_none] at hab'
    simp only [hr, onTcpEvent, hab'.1, if_true, Except.ok.injEq] at h
    subst h
    exact removeSession_lostPorts hs₁ hab'.2
  | vhci p =>
    obtain ⟨s, hp, -⟩ := (hs₁.wf.vhciMap _ _).mp (HubServer.route_vhci hr)
    simp only [abandons, hr, Bool.and_eq_true, Bool.not_eq_true', beq_iff_eq] at hab'
    obtain ⟨⟨hh, hin⟩, hd⟩ := hab'
    simp only [hr, onVhciEvent, hp, hh, hin, Bool.false_eq_true, if_false, if_true] at h
    have hlost := vhciReadable_abandons hs₁ hp hd h
    exact hlost

private theorem step_lostPorts_ncard (st : Daemon) (i : Input) (st' : Daemon) (hs : Sound st)
    (hstep : step st i = .ok st') :
    (lostPorts st.hub st.vhci).ncard + (st.abandons i).toNat ≤
      (lostPorts st'.hub st'.vhci).ncard := by
  cases hab : st.abandons i with
  | true => exact step_abandons hs hstep hab
  | false => exact Set.ncard_le_ncard (step_lostPorts hs hstep) lostPorts_finite

/-- A port that is marked for no session stays so for good, and every session that ends without
a detach adds one: whatever arrives and whichever calls fail, the devices that are put through
and the sessions that ended this way before are never more than eight together. -/
theorem lost_ports_accumulate (hr : run step (boot udpFd tcpServerFd inherited) is = .ok st)
    (hr' : run step st js = .ok st') :
    lostPorts st.hub st.vhci ⊆ lostPorts st'.hub st'.vhci ∧
      st'.hub.switchboard.plugged.ncard + (lostPorts st.hub st.vhci).ncard +
        runCount step abandons st js ≤ maxPorts := by
  have hs := run_sound hr
  have hkeep : ∀ a i b, Sound a → step a i = .ok b → Sound b := fun _ _ _ => step_sound
  constructor
  · have hboth : Sound st' ∧ lostPorts st.hub st.vhci ⊆ lostPorts st'.hub st'.vhci :=
      run_invariant_of_step (P := fun b =>
          Sound b ∧ lostPorts st.hub st.vhci ⊆ lostPorts b.hub b.vhci)
        (fun _ _ _ h hstep => ⟨step_sound h.1 hstep, h.2.trans (step_lostPorts h.1 hstep)⟩)
        ⟨hs, subset_rfl⟩ hr'
    exact hboth.2
  · have hle := rank_add_runCount_le hkeep step_lostPorts_ncard hs hr'
    have htop := (run_invariant_of_step hkeep hs hr').plugged_add_lost_le
    omega

/-- The first client's connection hangs up, and a second client gets one of the ports left. -/
theorem lost_ports_of_hangup : ∃ st st',
    run step (boot 3 4 fun _ => none) connectedRun = .ok st ∧
    run step st [{ fd := 5, evts := { epollrdhup := true } }, acceptInput 4 8,
      connectInput 8 1 (9, 10)] = .ok st' ∧
    st'.hub.line 1 = some 8 ∧ st'.hub.switchboard.plugged.ncard ≤ 7 := by
  obtain ⟨st, st', hr, hr', hline, hcount⟩ : ∃ st st',
      run step (boot 3 4 fun _ => none) connectedRun = .ok st ∧
      run step st [{ fd := 5, evts := { epollrdhup := true } }, acceptInput 4 8,
        connectInput 8 1 (9, 10)] = .ok st' ∧
      st'.hub.line 1 = some 8 ∧
      runCount step abandons st [{ fd := 5, evts := { epollrdhup := true } }, acceptInput 4 8,
        connectInput 8 1 (9, 10)] = 1 := ⟨_, _, rfl, rfl, rfl, rfl⟩
  have h := (lost_ports_accumulate hr hr').2
  have h8 : maxPorts = 8 := rfl
  exact ⟨st, st', hr, hr', hline, by omega⟩

end Daemon
end WirelessHub
