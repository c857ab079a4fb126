import Mathlib.Data.Set.Card
import WirelessHub.Daemon.Runs

/-!
# Use of the ports

Sessions never share a port and are always usable. The converse, that every port in use
belongs to a session, depends on how sessions end: the disconnect callback gives the port
back, a hang-up of the TCP connection and a failing handler do not, and a `CONNECT` on a
descriptor beyond 16 bits marks a port for no session.
-/

namespace WirelessHub

open Function Framework

def Accounted (hub : HubServer) (vhci : VhciDriver) : Prop :=
  ∀ port : Nat, vhci.ports port = true →
    ∃ d p s, hub.sessions d = some p ∧ hub.heap p = some s ∧ s.vhciPort = port

section Preservation

variable {st st' : Daemon} {p : SessionPtr} {s t : DeviceSession} {sock : TcpSocket}

private theorem accounted_iff (hs : Sound st) : Accounted st.hub st.vhci ↔
    ∀ port : Nat, st.vhci.ports port = true →
      ∃ p s, st.hub.heap p = some s ∧ s.vhciPort = port := by
  refine forall₂_congr fun port _ => ⟨?_, ?_⟩
  · rintro ⟨d, p, s, -, hp, hport⟩
    exact ⟨p, s, hp, hport⟩
  · rintro ⟨p, s, hp, hport⟩
    exact ⟨s.deviceId, p, s, hs.wf.owned p s hp, hp, hport⟩

private theorem heap_after_drop (hs : Sound st) (h : Accounted st.hub st.vhci)
    (hp : st.hub.heap p = some s) {d : UInt8} {port : Nat}
    (hu : (st.vhci.freePort s.vhciPort).ports port = true) :
    ∃ q r, (st.hub.dropSession d p t).heap q = some r ∧ r.vhciPort = port := by
  obtain ⟨h₀, h₁, -⟩ := hs.ports.used p s hp
  rw [VhciDriver.freePort_ports _ h₀ h₁] at hu
  by_cases hport : port = s.vhciPort.toNat
  · simp [hport] at hu
  · rw [if_neg hport] at hu
    obtain ⟨q, r, hq, hr⟩ := (accounted_iff hs).mp h port hu
    have hqp : q ≠ p := by
      rintro rfl
      rw [hp, Option.some.injEq] at hq
      subst hq
      omega
    exact ⟨q, r, by simpa [HubServer.dropSession, hqp] using hq, hr⟩

private theorem heap_after_add {hub : HubServer} {ports : Nat → Bool}
    (hfresh : hub.heap hub.nextPtr = none) {new : Nat} (hs : s.vhciPort = new)
    (h : ∀ port : Nat, ports port = true → ∃ p s, hub.heap p = some s ∧ s.vhciPort = port)
    {port : Nat} (hu : update ports new true port = true) :
    ∃ q r, (hub.addSession s).heap q = some r ∧ r.vhciPort = port := by
  by_cases hport : port = new
  · exact ⟨hub.nextPtr, s, by simp [HubServer.addSession], by rw [hs, hport]⟩
  · obtain ⟨q, r, hq, hr⟩ := h port (by simpa [hport] using hu)
    have hqn : q ≠ hub.nextPtr := by
      rintro rfl
      rw [hfresh] at hq
      exact absurd hq (by simp)
    exact ⟨q, r, by simpa [HubServer.addSession, hqn] using hq, hr⟩

private theorem Move.accounted {k : MoveKind} (hl : k ≠ .leak) (hr : k ≠ .remove false)
    (hs : Sound st)
    (hm : Move k st st') (h : Accounted st.hub st.vhci) : Accounted st'.hub st'.vhci := by
  rw [accounted_iff (hm.sound hs)]
  have h' := (accounted_iff hs).mp h
  cases hm with
  | quiet hub vhci => rw [hub, vhci]; exact h'
  | accept f free hub vhci => rw [hub, vhci]; exact h'
  | dropPending k sock pending hub vhci => rw [hub, vhci]; exact h'
  | leak => exact absurd rfl hl
  | forward p s h₀ h₁ session handler same hub vhci =>
    intro port hu
    rw [vhci] at hu
    obtain ⟨q, r, hq, hport⟩ := h' port hu
    rw [hub]
    by_cases hqp : q = p
    · subst hqp
      rw [session, Option.some.injEq] at hq
      exact ⟨q, { s with handler := some h₁ }, by simp, by rw [← hport, ← hq]⟩
    · exact ⟨q, r, by simpa [hqp] using hq, hport⟩
  | remove freed p s session hub vhci =>
    cases freed with
    | false => exact absurd rfl hr
    | true =>
      intro port hu
      rw [hub]
      exact heap_after_drop hs h session (by rwa [vhci] at hu)
  | connect ok k s sock pending binds =>
    obtain ⟨new, -, hnew, hv⟩ := binds.port
    intro port hu
    rw [binds.hub]
    rw [hv] at hu
    exact heap_after_add (hs.wf.fresh _ (Nat.le_refl _)) hnew h' hu
  | reset ok p s t sock tcpSock device unplugs binds =>
    obtain ⟨new, -, hnew, hv⟩ := binds.port
    have hmid := (unplugs.spec hs tcpSock).1
    intro port hu
    rw [binds.hub]
    rw [hv] at hu
    refine heap_after_add (hmid.wf.fresh _ (Nat.le_refl _)) hnew (fun port hu => ?_) hu
    rw [unplugs.vhci] at hu
    rw [unplugs.hub]
    exact heap_after_drop hs h unplugs.session hu
  | resetFail p s sock tcpSock unplugs hub vhci os =>
    intro port hu
    rw [vhci, unplugs.vhci] at hu
    rw [hub, unplugs.hub]
    exact heap_after_drop hs h unplugs.session hu

def HubServer.portOf (hub : HubServer) (d : UInt8) : Nat :=
  match (hub.sessions d).bind hub.heap with
  | some s => s.vhciPort.toNat
  | none => 0

private theorem exists_session (hs : Sound st) {d : UInt8} (hd : st.hub.sessions d ≠ none) :
    ∃ p s, st.hub.heap p = some s ∧ s.deviceId = d ∧ (s.vhciPort : Int) = st.hub.portOf d ∧
      st.hub.portOf d < 8 := by
  obtain ⟨p, hp⟩ := Option.ne_none_iff_exists'.mp hd
  obtain ⟨s, hheap, hdev⟩ := hs.wf.live d p hp
  obtain ⟨h₀, h₁, -⟩ := hs.ports.used p s hheap
  have hport : st.hub.portOf d = s.vhciPort.toNat := by simp [HubServer.portOf, hp, hheap]
  have h8 : (maxPorts : Int) = 8 := rfl
  exact ⟨p, s, hheap, hdev, by omega, by omega⟩

private theorem ncard_sessions_of_full (hs : Sound st) (h : Accounted st.hub st.vhci)
    (hfull : st.vhci.freeSlot = none) : {d | st.hub.sessions d ≠ none}.ncard = 8 := by
  have hcard : (↑(Finset.range 8) : Set Nat).ncard = 8 := by
    rw [Set.ncard_coe_finset, Finset.card_range]
  rw [← hcard]
  refine Set.ncard_congr (fun d _ => st.hub.portOf d) ?_ ?_ ?_
  · intro d hd
    obtain ⟨p, s, -, -, -, hlt⟩ := exists_session hs hd
    simpa using hlt
  · intro d e hd he hport
    obtain ⟨p, s, hp, hsd, hps, -⟩ := exists_session hs hd
    obtain ⟨q, t, hq, hte, hqt, -⟩ := exists_session hs he
    obtain rfl := hs.ports.inj p q s t hp hq (by rw [hps, hqt, hport])
    rw [← hsd, ← hte, Option.some.inj (hp.symm.trans hq)]
  · intro n hn
    have hn' : n < maxPorts := by simpa [maxPorts] using hn
    obtain ⟨d, p, s, hd, hp, hport⟩ := h n (VhciDriver.freeSlot_none hfull hn')
    refine ⟨d, by simp [hd], ?_⟩
    simp [HubServer.portOf, hd, hp, hport]

end Preservation

namespace Daemon

variable {udpFd tcpServerFd : Fd} {inherited : Fd → Option FdMode} {is : List Input} {st : Daemon}

/-- A turn that gives back the port of every session it removes and binds what it attaches. -/
def ReturnsPorts (st : Daemon) (i : Input) : Prop :=
  i.sys.sysfsDetach = true ∧ ¬Undetached st i ∧ ¬Misdirected st i

/-- Over runs of such turns no port leaks, and a `CONNECT` that finds no free port does so
with eight sessions live. -/
theorem ports_accounted
    (hg : RunAll step ReturnsPorts (boot udpFd tcpServerFd inherited) is)
    (hr : run step (boot udpFd tcpServerFd inherited) is = .ok st) :
    Accounted st.hub st.vhci ∧
    ∀ i hdr payload, ReturnsPorts st i → Reads st i hdr payload → IsConnect hdr payload →
      let mid := (st.received i hdr payload).evict (DeviceEventPayload.decode payload).deviceId i.sys
      mid.vhci.freeSlot = none → {d | mid.hub.sessions d ≠ none}.ncard = 8 := by
  have hs := run_sound hr
  have hacc : Accounted st.hub st.vhci := by
    refine run_keeps (P := fun st => Accounted st.hub st.vhci) ?_ ?_ hg hr
    · intro st i hret k a b hk ha hm h
      refine hm.accounted ?_ ?_ ha h
      · rintro rfl
        exact hret.2.2 hk
      · rintro rfl
        rcases hk with hk | hk
        · rw [hret.1] at hk
          exact absurd hk (by simp)
        · exact hret.2.1 hk
    · intro port hu
      simp [boot, VhciDriver.init] at hu
  refine ⟨hacc, fun i hdr payload hret _ _ hfull => ?_⟩
  have hq := received_quiet st i hdr payload
  have hs' := hq.sound hs
  have hacc' := hq.accounted (by simp) (by simp) hs hacc
  generalize (DeviceEventPayload.decode payload).deviceId = d at hfull ⊢
  have hm := (onDisconnect_moves hs' d i.sys).1
  rw [← (evict_spec hs' d i.sys).1, hret.1] at hm
  rcases hm with he | hm
  · rw [he] at hfull ⊢
    exact ncard_sessions_of_full hs' hacc' hfull
  · exact ncard_sessions_of_full (hm.sound hs') (hm.accounted (by simp) (by simp) hs' hacc') hfull

def politeRun : List Input :=
  connectedRun ++ [disconnectInput 5 0]

theorem ports_accounted_polite :
    ∃ st, run step (boot 3 4 fun _ => none) politeRun = .ok st ∧ Accounted st.hub st.vhci := by
  have hg : RunAll step ReturnsPorts (boot 3 4 fun _ => none) politeRun := by
    refine ⟨⟨rfl, ?_, not_misdirected_of_lt (by decide)⟩, fun s₁ h₁ => ?_⟩
    · rintro (⟨p, hr, -⟩ | ⟨p, hr, -⟩) <;> cases hr
    cases h₁
    refine ⟨⟨rfl, ?_, not_misdirected_of_lt (by decide)⟩, fun s₂ h₂ => ?_⟩
    · rintro (⟨p, hr, -⟩ | ⟨p, hr, -⟩) <;> cases hr
    cases h₂
    refine ⟨⟨rfl, ?_, not_misdirected_of_lt (by decide)⟩, fun _ _ => trivial⟩
    rintro (⟨p, -, hh, -⟩ | ⟨p, hr, -⟩)
    · cases hh
    · cases hr
  exact ⟨_, rfl, (ports_accounted hg rfl).1⟩

/-- A client connects, and its connection hangs up: the port stays marked. -/
def hangupRun : List Input :=
  connectedRun ++ [{ fd := 5, evts := { epollrdhup := true } }]

theorem port_leaks_on_hangup :
    RunAll step (fun _ i => i.sys.sysfsDetach = true) (boot 3 4 fun _ => none) hangupRun ∧
    ∃ st, run step (boot 3 4 fun _ => none) hangupRun = .ok st ∧ ¬Accounted st.hub st.vhci := by
  refine ⟨⟨rfl, fun _ _ => ⟨rfl, fun _ _ => ⟨rfl, fun _ _ => trivial⟩⟩⟩, ?_⟩
  obtain ⟨st, hr, hport, hsess⟩ : ∃ st, run step (boot 3 4 fun _ => none) hangupRun = .ok st ∧
      st.vhci.ports 0 = true ∧
      st.hub.sessions = update (update (fun _ => none) 0 (some 0)) 0 none := ⟨_, rfl, rfl, rfl⟩
  refine ⟨st, hr, fun h => ?_⟩
  obtain ⟨d, p, s, hd, -⟩ := h 0 hport
  by_cases hd0 : d = 0 <;> simp [hsess, hd0] at hd

/-- Whatever the run, each session has its socket, its handler and a port of its own. -/
theorem sessions_usable (hr : run step (boot udpFd tcpServerFd inherited) is = .ok st) :
    (∀ d p, st.hub.sessions d = some p → ∃ s, st.hub.heap p = some s ∧ s.deviceId = d ∧
      s.tcpSock ≠ none ∧ s.handler ≠ none ∧ 0 ≤ s.vhciPort ∧ s.vhciPort < 8 ∧
      st.vhci.ports s.vhciPort.toNat = true) ∧
    (∀ d e p q s t, st.hub.sessions d = some p → st.hub.sessions e = some q →
      st.hub.heap p = some s → st.hub.heap q = some t → s.vhciPort = t.vhciPort → d = e) := by
  have hs := run_sound hr
  constructor
  · intro d p hp
    obtain ⟨s, hheap, hdev⟩ := hs.wf.live d p hp
    obtain ⟨sock, h, hsock, hh, -⟩ := hs.wf.usable p s hheap
    refine ⟨s, hheap, hdev, ?_, ?_, hs.ports.used p s hheap⟩
    · rw [hsock]
      exact Option.some_ne_none sock
    · rw [hh]
      exact Option.some_ne_none h
  · intro d e p q s t hd he hp hq hport
    obtain rfl := hs.ports.inj p q s t hp hq hport
    obtain ⟨s', hs', rfl⟩ := hs.wf.live d p hd
    obtain ⟨t', ht', rfl⟩ := hs.wf.live e p he
    rw [Option.some.inj (hs'.symm.trans ht')]

theorem sessions_usable_two_clients :
    ∃ st, run step (boot 3 4 fun _ => none) twoClients = .ok st ∧
      ∃ s t, st.hub.heap 0 = some s ∧ st.hub.heap 1 = some t ∧ s.vhciPort ≠ t.vhciPort := by
  obtain ⟨st, hr, h₀, h₁, s, t, hs, ht⟩ : ∃ st,
      run step (boot 3 4 fun _ => none) twoClients = .ok st ∧ st.hub.sessions 0 = some 0 ∧
      st.hub.sessions 1 = some 1 ∧ ∃ s t, st.hub.heap 0 = some s ∧ st.hub.heap 1 = some t :=
    ⟨_, rfl, rfl, rfl, _, _, rfl, rfl⟩
  refine ⟨st, hr, s, t, hs, ht, fun h => ?_⟩
  exact absurd ((sessions_usable hr).2 0 1 0 1 s t h₀ h₁ hs ht h) (by decide)

end Daemon
end WirelessHub
