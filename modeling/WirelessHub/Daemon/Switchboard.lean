import Mathlib.Data.Set.Card
import WirelessHub.Daemon.PortUse

/-!
# The hub as a switchboard

What the hub is for, without descriptors of the kernel side, ports, maps and buffers: clients
wait on connections, and a device is put through to a connection that waits, as long as fewer
than a fixed number of devices are. The event loop refines this machine. A take-over of a device
by another client is an unplugging followed by a plugging, and a re-attachment after a reset of
the kernel side cannot be seen at all.
-/

namespace WirelessHub

open Function Framework

/-- Connections that wait, and the connection that each device is put through to. -/
@[ext]
structure Switchboard (Dev Conn : Type) where
  waiting : Set Conn
  line : Dev → Option Conn

namespace Switchboard

variable {Dev Conn : Type} {b b' : Switchboard Dev Conn} {capacity : Nat}

def idle : Switchboard Dev Conn := ⟨∅, fun _ => none⟩

def InUse (b : Switchboard Dev Conn) (c : Conn) : Prop := c ∈ b.waiting ∨ ∃ d, b.line d = some c

def plugged (b : Switchboard Dev Conn) : Set Dev := {d | b.line d ≠ none}

def join (b : Switchboard Dev Conn) (c : Conn) : Switchboard Dev Conn :=
  { b with waiting := insert c b.waiting }

def leave (b : Switchboard Dev Conn) (c : Conn) : Switchboard Dev Conn :=
  { b with waiting := b.waiting \ {c} }

def plug [DecidableEq Dev] (b : Switchboard Dev Conn) (d : Dev) (c : Conn) :
    Switchboard Dev Conn :=
  ⟨b.waiting \ {c}, update b.line d (some c)⟩

def unplug [DecidableEq Dev] (b : Switchboard Dev Conn) (d : Dev) : Switchboard Dev Conn :=
  { b with line := update b.line d none }

variable [DecidableEq Dev]

inductive Step (capacity : Nat) : Switchboard Dev Conn → Switchboard Dev Conn → Prop
  | join {b : Switchboard Dev Conn} (c : Conn) (new : ¬b.InUse c) : Step capacity b (b.join c)
  | leave {b : Switchboard Dev Conn} (c : Conn) (waits : c ∈ b.waiting) :
      Step capacity b (b.leave c)
  | plug {b : Switchboard Dev Conn} (d : Dev) (c : Conn) (waits : c ∈ b.waiting)
      (free : b.line d = none) (room : b.plugged.ncard < capacity) : Step capacity b (b.plug d c)
  | unplug {b : Switchboard Dev Conn} (d : Dev) (c : Conn) (through : b.line d = some c) :
      Step capacity b (b.unplug d)

def Steps (capacity : Nat) : Switchboard Dev Conn → Switchboard Dev Conn → Prop :=
  Relation.ReflTransGen (Step capacity)

/-- A connection serves one device, or it waits, or neither, and there is room for the devices. -/
structure Proper (capacity : Nat) (b : Switchboard Dev Conn) : Prop where
  single : ∀ d e c, b.line d = some c → b.line e = some c → d = e
  apart : ∀ d c, b.line d = some c → c ∉ b.waiting
  room : b.plugged.ncard ≤ capacity

omit [DecidableEq Dev] in
private theorem proper_idle : Proper capacity (idle : Switchboard Dev Conn) where
  single := nofun
  apart := nofun
  room := by simp [plugged, idle]

private theorem Step.proper [Finite Dev] (hs : Step capacity b b') (h : Proper capacity b) :
    Proper capacity b' := by
  cases hs with
  | join c new =>
    refine ⟨h.single, fun d e hd hmem => ?_, h.room⟩
    rcases hmem with rfl | hmem
    · exact new (.inr ⟨d, hd⟩)
    · exact h.apart d e hd hmem
  | leave c waits => exact ⟨h.single, fun d e hd hmem => h.apart d e hd hmem.1, h.room⟩
  | plug d c waits free room =>
    have hline : ∀ e f, (b.plug d c).line e = some f → (e = d ∧ f = c) ∨ b.line e = some f := by
      intro e f he
      by_cases hed : e = d
      · subst hed
        simp only [Switchboard.plug, update_self, Option.some.injEq] at he
        exact .inl ⟨rfl, he.symm⟩
      · simp only [Switchboard.plug, update_of_ne hed] at he
        exact .inr he
    refine ⟨fun e e' f he he' => ?_, fun e f he hmem => ?_, ?_⟩
    · rcases hline e f he with ⟨hed, hf⟩ | hold <;> rcases hline e' f he' with ⟨hed', hf'⟩ | hold'
      · rw [hed, hed']
      · exact absurd waits (h.apart e' c (hf ▸ hold'))
      · exact absurd waits (h.apart e c (hf' ▸ hold))
      · exact h.single e e' f hold hold'
    · rcases hline e f he with ⟨-, rfl⟩ | he
      · exact hmem.2 rfl
      · exact h.apart e f he hmem.1
    · have hsub : (b.plug d c).plugged ⊆ insert d b.plugged := by
        intro e he
        by_cases hed : e = d
        · exact .inl hed
        · exact .inr (by simpa [plugged, Switchboard.plug, hed] using he)
      calc (b.plug d c).plugged.ncard ≤ (insert d b.plugged).ncard := Set.ncard_le_ncard hsub
        _ ≤ b.plugged.ncard + 1 := Set.ncard_insert_le _ _
        _ ≤ capacity := room
  | unplug d c through =>
    have hline : ∀ e f, (b.unplug d).line e = some f → b.line e = some f := by
      intro e f he
      by_cases hed : e = d
      · simp [Switchboard.unplug, hed] at he
      · simpa [Switchboard.unplug, hed] using he
    refine ⟨fun e e' f he he' => h.single e e' f (hline _ _ he) (hline _ _ he'),
      fun e f he => h.apart e f (hline _ _ he), le_trans (Set.ncard_le_ncard ?_) h.room⟩
    intro e he
    obtain ⟨f, hf⟩ := Option.ne_none_iff_exists'.mp he
    simp [plugged, hline e f hf]

private theorem Steps.proper [Finite Dev] (hs : Steps capacity b b') (h : Proper capacity b) :
    Proper capacity b' := by
  induction hs with
  | refl => exact h
  | tail _ hs ih => exact hs.proper ih

end Switchboard

def HubServer.line (hub : HubServer) (d : UInt8) : Option Fd :=
  (((hub.sessions d).bind hub.heap).bind DeviceSession.tcpSock).map TcpSocket.fd

/-- The switchboard that the hub's maps represent. -/
def HubServer.switchboard (hub : HubServer) : Switchboard UInt8 Fd where
  waiting := {k | hub.pendingTcpSocks k ≠ none}
  line := hub.line

section Lines

variable {hub : HubServer} {os : Os} {p : SessionPtr} {s t : DeviceSession} {sock : TcpSocket}

private theorem HubServer.line_eq_some {d : UInt8} {c : Fd} : hub.line d = some c ↔
    ∃ p s sock, hub.sessions d = some p ∧ hub.heap p = some s ∧ s.tcpSock = some sock ∧
      sock.fd = c := by
  simp only [HubServer.line, Option.map_eq_some_iff, Option.bind_eq_some_iff]
  constructor
  · rintro ⟨sock, ⟨s, ⟨p, hp, hs⟩, hsock⟩, hc⟩
    exact ⟨p, s, sock, hp, hs, hsock, hc⟩
  · rintro ⟨p, s, sock, hp, hs, hsock, hc⟩
    exact ⟨sock, ⟨s, ⟨p, hp, hs⟩, hsock⟩, hc⟩

private theorem Wf.line_of_session (hw : Wf hub os) (hs : hub.heap p = some s)
    (hsock : s.tcpSock = some sock) : hub.line s.deviceId = some sock.fd :=
  HubServer.line_eq_some.mpr ⟨p, s, sock, hw.owned p s hs, hs, hsock, rfl⟩

private theorem Wf.line_dropSession (hw : Wf hub os) (hs : hub.heap p = some s) :
    (hub.dropSession s.deviceId p t).line = update hub.line s.deviceId none := by
  funext d
  by_cases hd : d = s.deviceId
  · simp [HubServer.line, HubServer.dropSession, hd]
  · simp only [HubServer.line, HubServer.dropSession, update_of_ne hd]
    cases hq : hub.sessions d with
    | none => rfl
    | some q =>
      have hqp : q ≠ p := by
        rintro rfl
        obtain ⟨r, hr, hrd⟩ := hw.live d q hq
        rw [hs, Option.some.injEq] at hr
        exact hd (by rw [← hrd, hr])
      simp [hqp]

private theorem Wf.line_addSession (hw : Wf hub os) (hsock : s.tcpSock = some sock) :
    (hub.addSession s).line = update hub.line s.deviceId (some sock.fd) := by
  funext d
  by_cases hd : d = s.deviceId
  · simp [HubServer.line, HubServer.addSession, hd, hsock]
  · simp only [HubServer.line, HubServer.addSession, update_of_ne hd]
    cases hq : hub.sessions d with
    | none => rfl
    | some q =>
      have hqn : q ≠ hub.nextPtr := by
        rintro rfl
        obtain ⟨r, hr, -⟩ := hw.live d _ hq
        rw [hw.fresh _ (Nat.le_refl _)] at hr
        cases hr
      simp [hqn]

private theorem line_forward (hs : hub.heap p = some s) (h : PassthroughHandler) :
    HubServer.line { hub with heap := update hub.heap p (some { s with handler := some h }) } =
      hub.line := by
  funext d
  cases hq : hub.sessions d with
  | none => simp [HubServer.line, hq]
  | some q =>
    by_cases hqp : q = p
    · subst hqp
      simp [HubServer.line, hq, hs]
    · simp [HubServer.line, hq, hqp]

private theorem Wf.opened_of_inUse (hw : Wf hub os) {c : Fd} (h : hub.switchboard.InUse c) :
    os.fds c ≠ none := by
  rcases h with h | ⟨d, h⟩
  · exact hw.opened _ _ (hw.slotFd_pending_self h)
  · obtain ⟨p, s, sock, -, hs, hsock, rfl⟩ := HubServer.line_eq_some.mp h
    exact hw.opened _ _ (slotFd_tcp hs hsock)

theorem plugged_ncard_add_le {vhci : VhciDriver} (hw : Wf hub os) (hp : PortsOk hub vhci)
    {unused : Set Nat} (hlt : ∀ port ∈ unused, port < maxPorts)
    (hunused : ∀ p s, hub.heap p = some s → s.vhciPort.toNat ∉ unused) :
    hub.switchboard.plugged.ncard + unused.ncard ≤ maxPorts := by
  have hsession : ∀ d ∈ hub.switchboard.plugged, ∃ p s, hub.sessions d = some p ∧
      hub.heap p = some s ∧ (s.vhciPort : Int) = hub.portOf d := by
    intro d hd
    obtain ⟨c, hc⟩ := Option.ne_none_iff_exists'.mp hd
    obtain ⟨p, s, -, hd, hs, -⟩ := HubServer.line_eq_some.mp hc
    refine ⟨p, s, hd, hs, ?_⟩
    have := (hp.used p s hs).1
    simp only [HubServer.portOf, hd, hs, Option.bind_some]
    omega
  have hsub : unused ⊆ ↑(Finset.range maxPorts) := by
    intro port hport
    rw [Finset.mem_coe, Finset.mem_range]
    exact hlt port hport
  have hcard : hub.switchboard.plugged.ncard ≤
      ((↑(Finset.range maxPorts) : Set Nat) \ unused).ncard := by
    refine Set.ncard_le_ncard_of_injOn hub.portOf (fun d hd => ?_) (fun d hd e he hde => ?_)
      (Finset.finite_toSet _).sdiff
    · obtain ⟨p, s, -, hs, hport⟩ := hsession d hd
      have hnot := hunused p s hs
      rw [hport, Int.toNat_natCast] at hnot
      have := (hp.used p s hs).2.1
      refine ⟨?_, hnot⟩
      rw [Finset.mem_coe, Finset.mem_range]
      omega
    · obtain ⟨p, s, hdp, hs, hps⟩ := hsession d hd
      obtain ⟨q, t, heq, ht, hqt⟩ := hsession e he
      obtain rfl := hp.inj p q s t hs ht (by rw [hps, hqt, hde])
      obtain ⟨s', hs', rfl⟩ := hw.live d p hdp
      obtain ⟨t', ht', rfl⟩ := hw.live e p heq
      rw [Option.some.inj (hs'.symm.trans ht')]
  have htotal := Set.ncard_sdiff_add_ncard_of_subset hsub (Finset.finite_toSet _)
  rw [Set.ncard_coe_finset, Finset.card_range] at htotal
  omega

private theorem plugged_ncard_lt {vhci : VhciDriver} (hw : Wf hub os) (hp : PortsOk hub vhci)
    {port : Nat} (hf : vhci.freeSlot = some port) : hub.switchboard.plugged.ncard < maxPorts := by
  obtain ⟨hlt, hfree⟩ := VhciDriver.freeSlot_some hf
  have hunused : ∀ p s, hub.heap p = some s → s.vhciPort.toNat ∉ ({port} : Set Nat) := by
    intro p s hs hmem
    have hu := (hp.used p s hs).2.2
    rw [Set.mem_singleton_iff.mp hmem, hfree] at hu
    cases hu
  have hle := plugged_ncard_add_le hw hp (by simpa using hlt) hunused
  rw [Set.ncard_singleton] at hle
  omega

end Lines

section Moves

variable {st st' : Daemon}

/-- Each move is at most one step of the switchboard. -/
theorem Move.refines {k : MoveKind} (hs : Sound st) (hm : Move k st st') :
    Switchboard.Steps maxPorts st.hub.switchboard st'.hub.switchboard := by
  cases hm with
  | quiet hub | leak _ _ hub =>
    rw [hub]
    exact .refl
  | forward p s h₀ h₁ session handler same hub =>
    have he : st'.hub.switchboard = st.hub.switchboard := by
      rw [hub]
      exact Switchboard.ext rfl (line_forward session h₁)
    rw [he]
    exact .refl
  | accept f free hub =>
    have he : st'.hub.switchboard = st.hub.switchboard.join f := by
      rw [hub]
      refine Switchboard.ext (Set.ext fun k => ?_) rfl
      by_cases hk : k = f <;> simp [HubServer.switchboard, Switchboard.join, hk]
    rw [he]
    exact .single (.join f fun h => hs.wf.opened_of_inUse h free)
  | dropPending k sock pending hub =>
    have he : st'.hub.switchboard = st.hub.switchboard.leave k := by
      rw [hub]
      refine Switchboard.ext (Set.ext fun q => ?_) rfl
      by_cases hq : q = k <;>
        simp [HubServer.switchboard, Switchboard.leave, Daemon.extracted, hq]
    rw [he]
    exact .single (.leave k (by simp [HubServer.switchboard, pending]))
  | remove freed p s session hub =>
    obtain ⟨sock, -, hsock, -⟩ := hs.wf.usable p s session
    have he : st'.hub.switchboard = st.hub.switchboard.unplug s.deviceId := by
      rw [hub]
      exact Switchboard.ext rfl (hs.wf.line_dropSession session)
    rw [he]
    exact .single (.unplug _ _ (hs.wf.line_of_session session hsock))
  | connect ok k s sock pending binds =>
    have hmid := (hs.extracted pending).1
    have hkey := hs.wf.pendingKey k sock pending
    obtain ⟨port, hfree, -⟩ := binds.port
    have he : st'.hub.switchboard = st.hub.switchboard.plug s.deviceId k := by
      rw [binds.hub]
      refine Switchboard.ext (Set.ext fun q => ?_) ?_
      · by_cases hq : q = k <;> simp [HubServer.switchboard, Switchboard.plug, Daemon.extracted,
          HubServer.addSession, hq]
      · rw [← hkey]
        exact hmid.wf.line_addSession binds.tcpSock
    rw [he]
    refine .single (.plug _ _ (by simp [HubServer.switchboard, pending]) ?_ ?_)
    · have hnone : st.hub.sessions s.deviceId = none := binds.device
      simp [HubServer.switchboard, HubServer.line, hnone]
    · exact plugged_ncard_lt hs.wf hs.ports hfree
  | reset ok p s t sock tcpSock device unplugs binds =>
    have he : st'.hub.switchboard = st.hub.switchboard := by
      rw [binds.hub]
      refine Switchboard.ext ?_ ?_
      · rw [unplugs.hub]
        rfl
      · have hmid := (unplugs.spec hs tcpSock).1
        have hline : (_ : HubServer).line = _ := hmid.wf.line_addSession binds.tcpSock
        refine hline.trans ?_
        rw [unplugs.hub, hs.wf.line_dropSession unplugs.session, device, update_idem,
          ← hs.wf.line_of_session unplugs.session tcpSock, update_eq_self]
        rfl
    rw [he]
    exact .refl
  | resetFail p s sock tcpSock unplugs hub =>
    have he : st'.hub.switchboard = st.hub.switchboard.unplug s.deviceId := by
      rw [hub, unplugs.hub]
      exact Switchboard.ext rfl (hs.wf.line_dropSession unplugs.session)
    rw [he]
    exact .single (.unplug _ _ (hs.wf.line_of_session unplugs.session tcpSock))

private theorem Moves.refines {ok : MoveKind → Prop} (h : Moves ok st st') (hs : Sound st) :
    Switchboard.Steps maxPorts st.hub.switchboard st'.hub.switchboard :=
  h.invariant (P := fun b => Switchboard.Steps maxPorts st.hub.switchboard b.hub.switchboard)
    (fun _ _ _ _ ha hm hab => hab.trans (hm.refines ha)) hs .refl

end Moves

namespace Daemon

variable {udpFd tcpServerFd : Fd} {inherited : Fd → Option FdMode} {is js : List Input}
  {st st' : Daemon}

/-- Between any two states of any run, whatever arrives and whichever system calls fail, the hub
has made steps of a switchboard for eight devices; and in every state a connection serves at
most one device, none that waits serves one, and at most eight devices are put through. -/
theorem run_refines_switchboard (hr : run step (boot udpFd tcpServerFd inherited) is = .ok st)
    (hr' : run step st js = .ok st') :
    Switchboard.Steps maxPorts st.hub.switchboard st'.hub.switchboard ∧
      st'.hub.switchboard.Proper maxPorts := by
  have hsteps : ∀ {a b : Daemon} {ks : List Input}, Sound a → run step a ks = .ok b →
      Switchboard.Steps maxPorts a.hub.switchboard b.hub.switchboard := by
    intro a b ks ha hab
    have hboth : Sound b ∧ Switchboard.Steps maxPorts a.hub.switchboard b.hub.switchboard :=
      run_invariant_of_step (P := fun b =>
          Sound b ∧ Switchboard.Steps maxPorts a.hub.switchboard b.hub.switchboard)
        (fun _ _ _ h hstep =>
          ⟨step_sound h.1 hstep, h.2.trans ((step_moves h.1 hstep).refines h.1)⟩) ⟨ha, .refl⟩ hab
    exact hboth.2
  have hlast := hsteps (run_sound hr) hr'
  have hboot : (boot udpFd tcpServerFd inherited).hub.switchboard = Switchboard.idle :=
    Switchboard.ext (by simp [HubServer.switchboard, boot, HubServer.empty, Switchboard.idle]) rfl
  have hall := (hsteps (boot_sound udpFd tcpServerFd inherited) hr).trans hlast
  rw [hboot] at hall
  have hfin : Finite UInt8 := Finite.of_injective UInt8.toFin fun _ _ => UInt8.toFin_inj.mp
  exact ⟨hlast, Switchboard.Steps.proper hall Switchboard.proper_idle⟩

/-- Two clients connect, and the second one's device is put through on descriptor 8. -/
theorem switchboard_of_two_clients : ∃ st st',
    run step (boot 3 4 fun _ => none) connectedRun = .ok st ∧
    run step st [acceptInput 4 8, connectInput 8 1 (9, 10)] = .ok st' ∧
    st.hub.line 1 = none ∧ st'.hub.line 1 = some 8 ∧
    Switchboard.Steps maxPorts st.hub.switchboard st'.hub.switchboard := by
  obtain ⟨st, st', hr, hr', h, h'⟩ : ∃ st st',
      run step (boot 3 4 fun _ => none) connectedRun = .ok st ∧
      run step st [acceptInput 4 8, connectInput 8 1 (9, 10)] = .ok st' ∧
      st.hub.line 1 = none ∧ st'.hub.line 1 = some 8 := ⟨_, _, rfl, rfl, rfl, rfl⟩
  exact ⟨st, st', hr, hr', h, h', (run_refines_switchboard hr hr').1⟩

end Daemon
end WirelessHub
