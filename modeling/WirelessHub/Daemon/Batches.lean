import WirelessHub.Daemon.Connection

/-!
# The events of one batch

`epoll_wait` returns a batch of events, and each of them names its target by descriptor only.
Handling an event can close descriptors and open new ones under the same numbers, so a later
event of the batch can lead to something that did not exist when it was reported. It does not
as long as its descriptor stays with its owner or stays closed, and no outdated entry of the
TCP map leads elsewhere.
-/

namespace WirelessHub

open Function Framework

/-- What an event can be applied to. -/
inductive Target
  | session (p : SessionPtr)
  | pending (fd : Fd)
  deriving DecidableEq

def Target.Present (hub : HubServer) : Target → Prop
  | .session p => hub.heap p ≠ none
  | .pending fd => hub.pendingTcpSocks fd ≠ none

def Slot.target : Slot → Target
  | .pending k => .pending k
  | .tcp p | .vhci p | .kernel p => .session p

section Registered

/-- Apart from the descriptors in `loose`, a registered descriptor is one of the two servers or
sits in a slot. -/
def RegisteredOwned (hub : HubServer) (os : Os) (loose : List Fd) : Prop :=
  ∀ f, os.epoll f ≠ none → f ∉ loose →
    f = hub.udpFd ∨ f = hub.tcpServerFd ∨ ∃ x, slotFd hub x = some f

variable {st st' : Daemon} {hub : HubServer} {os os' : Os} {p : SessionPtr} {s t : DeviceSession}
  {sock : TcpSocket}

private theorem RegisteredOwned.close (h : RegisteredOwned hub os [sock.fd])
    (hc : os.Closes os' [sock.fd]) : RegisteredOwned hub os' [] := by
  intro f hf _
  rw [hc.epoll] at hf
  by_cases hm : f ∈ [sock.fd]
  · simp [hm] at hf
  · exact h f (by simpa [hm] using hf) hm

private theorem RegisteredOwned.extract {k : Fd} (hk : st.hub.pendingTcpSocks k = some sock)
    (h : RegisteredOwned st.hub st.os []) :
    RegisteredOwned (st.extracted k).hub (st.extracted k).os [sock.fd] := by
  intro f hf hm
  refine (h f hf List.not_mem_nil).imp_right (Or.imp_right (Exists.imp fun x hx => ?_))
  cases x with
  | pending q =>
    have hqk : q ≠ k := by
      rintro rfl
      rw [slotFd_pending hk, Option.some.injEq] at hx
      exact hm (by simp [hx])
    simpa [slotFd, Daemon.extracted, hqk] using hx
  | tcp q | vhci q | kernel q => exact hx

private theorem RegisteredOwned.drop {d : UInt8} (hs : hub.heap p = some s)
    (hsock : s.tcpSock = some sock) {l : List Fd} (hl : s.vhciFd ∈ l ∧ s.kernelFd ∈ l)
    (hc : os.Closes os' l) (h : RegisteredOwned hub os []) :
    RegisteredOwned (hub.dropSession d p t) os' [sock.fd] := by
  intro f hf hm
  have hfl : f ∉ l := by
    intro hfl
    rw [hc.epoll, if_pos hfl] at hf
    exact hf rfl
  rw [hc.epoll, if_neg hfl] at hf
  refine (h f hf List.not_mem_nil).imp_right (Or.imp_right (Exists.imp fun x hx =>
    slotFd_dropSession_of hx ⟨?_, ?_, ?_⟩))
  · rintro rfl
    rw [slotFd_vhci hs, Option.some.injEq] at hx
    exact hfl (hx ▸ hl.1)
  · rintro rfl
    rw [slotFd_kernel hs, Option.some.injEq] at hx
    exact hfl (hx ▸ hl.2)
  · rintro rfl
    rw [slotFd_tcp hs hsock, Option.some.injEq] at hx
    exact hm (by simp [hx])

private theorem Binds.registeredOwned {fresh ok : Bool} (hs : Sound st)
    (hb : Binds s sock fresh ok st st') (h : RegisteredOwned st.hub st.os [sock.fd]) :
    RegisteredOwned st'.hub st'.os [] := by
  have hnew : ∀ f, f = s.vhciFd ∨ f = sock.fd → ∃ x, slotFd (st.hub.addSession s) x = some f := by
    rintro f (rfl | rfl)
    · exact ⟨.vhci st.hub.nextPtr, by simp [slotFd, HubServer.addSession]⟩
    · exact ⟨.tcp st.hub.nextPtr, by simp [slotFd, HubServer.addSession, hb.tcpSock]⟩
  intro f hf _
  rw [hb.hub]
  by_cases hown : f = s.vhciFd ∨ f = sock.fd
  · exact .inr (.inr (hnew f hown))
  rw [not_or] at hown
  have hold : st.os.epoll f ≠ none := by
    rw [hb.epoll] at hf
    cases fresh <;> cases ok <;> simpa [Os.epollAdd, hown.1, hown.2] using hf
  refine (h f hold (by simpa using hown.2)).imp_right (Or.imp_right (Exists.imp fun x hx => ?_))
  exact slotFd_addSession_of (hs.wf.fresh _ (Nat.le_refl _)) hx

private theorem Move.registeredOwned {k : MoveKind} (hs : Sound st) (hm : Move k st st')
    (h : RegisteredOwned st.hub st.os []) : RegisteredOwned st'.hub st'.os [] := by
  cases hm with
  | quiet hub vhci fds epoll | leak _ _ hub vhci fds epoll =>
    rw [hub]
    exact fun f hf => h f (epoll ▸ hf)
  | forward p s h₀ h₁ session handler same hub vhci fds epoll =>
    intro f hf _
    refine (h f (epoll ▸ hf) List.not_mem_nil).imp ?_ (Or.imp ?_ (Exists.imp fun x hx => ?_))
    · exact fun he => by rw [hub]; exact he
    · exact fun he => by rw [hub]; exact he
    · rw [hub]
      cases x with
      | pending q => exact hx
      | tcp q | vhci q | kernel q =>
        by_cases hq : q = p
        · subst hq
          simpa [slotFd, session] using hx
        · simpa [slotFd, hq] using hx
  | accept g free hub vhci fds epoll =>
    intro f hf _
    rw [hub]
    refine (h f (epoll ▸ hf) List.not_mem_nil).imp_right (Or.imp_right (Exists.imp fun x hx => ?_))
    cases x with
    | pending q =>
      have hqg : q ≠ g := by
        rintro rfl
        refine hs.wf.unowned_of_free free _ (hs.wf.slotFd_pending_self fun hn => ?_)
        simp [slotFd, hn] at hx
      simpa [slotFd, hqg] using hx
    | tcp q | vhci q | kernel q => exact hx
  | dropPending k sock pending hub vhci os =>
    rw [hub]
    exact (h.extract pending).close os
  | remove freed p s session hub vhci os =>
    obtain ⟨sock, -, hsock, -⟩ := hs.wf.usable p s session
    have hdrop : RegisteredOwned (st.hub.dropSession s.deviceId p s) st'.os [sock.fd] :=
      h.drop session hsock (by simp [Daemon.sessionFds]) os
    intro f hf _
    rw [hub]
    refine hdrop f hf fun hm => hf ?_
    rw [os.epoll, if_pos (by simp_all [Daemon.sessionFds])]
  | connect ok k s sock pending binds =>
    exact binds.registeredOwned (hs.extracted pending).1 (h.extract pending)
  | reset ok p s t sock tcpSock device unplugs binds =>
    refine binds.registeredOwned (unplugs.spec hs tcpSock).1 ?_
    rw [unplugs.hub]
    exact h.drop unplugs.session tcpSock (by simp) unplugs.os
  | resetFail p s sock tcpSock unplugs hub vhci os =>
    rw [hub, unplugs.hub]
    exact (h.drop unplugs.session tcpSock (by simp) unplugs.os).close os

private theorem Move.servers {k : MoveKind} (hm : Move k st st') :
    st'.hub.udpFd = st.hub.udpFd ∧ st'.hub.tcpServerFd = st.hub.tcpServerFd := by
  cases hm with
  | quiet hub | leak _ _ hub | forward _ _ _ _ _ _ _ hub | accept _ _ hub
  | dropPending _ _ _ hub | remove _ _ _ _ hub => rw [hub]; exact ⟨rfl, rfl⟩
  | connect ok k s sock pending binds => rw [binds.hub]; exact ⟨rfl, rfl⟩
  | reset ok p s t sock tcpSock device unplugs binds =>
    rw [binds.hub]
    simp only [HubServer.addSession, unplugs.hub, HubServer.dropSession, and_self]
  | resetFail p s sock tcpSock unplugs hub => rw [hub, unplugs.hub]; exact ⟨rfl, rfl⟩

end Registered

namespace Daemon

variable {st₀ st st' : Daemon} {i : Input} {js : List Input} {x : Target} {y : Slot}

/-- A read goes to the pending connection of the number, if there is one, and else to the
session that the TCP map names. -/
def readTarget (st : Daemon) (fd : Fd) (sys : Syscalls) : Option Target :=
  match st.hub.pendingTcpSocks fd with
  | some _ => some (.pending fd)
  | none => match st.hub.tcpFdMap fd with
    | some q => (st.hub.sessions (st.deviceIdAt q sys)).map .session
    | none => none

/-- What the loop applies an event to, as a reset, a disconnect or a read. -/
def target (st : Daemon) (i : Input) : Option Target :=
  match st.hub.route i.fd with
  | .udp | .server => none
  | .tcp q =>
      if i.evts.hangup then (st.hub.sessions (st.deviceIdAt q i.sys)).map .session
      else if i.evts.epollin then st.readTarget i.fd i.sys
      else none
  | .vhci p => if i.evts.hangup || i.evts.epollin then some (.session p) else none
  | .other => if i.evts.epollin then st.readTarget i.fd i.sys else none

/-- An event of the batch has brought the target up. -/
def Created (st₀ : Daemon) (js : List Input) (x : Target) : Prop :=
  ∃ ks j st₁ st₂, ks ++ [j] <+: js ∧ run step st₀ ks = .ok st₁ ∧ step st₁ j = .ok st₂ ∧
    ¬x.Present st₁.hub ∧ x.Present st₂.hub

/-- Through the events `js` the descriptor stays with the owner it has at the start of the
batch, or it is closed in the end. -/
def Unreused (st₀ : Daemon) (js : List Input) (st : Daemon) (f : Fd) : Prop :=
  (∀ y, slotFd st₀.hub y = some f → ∀ ks st₁, ks <+: js → run step st₀ ks = .ok st₁ →
    slotFd st₁.hub y = some f) ∨ st.os.fds f = none

/-- The TCP map has no outdated entry for the descriptor. -/
def MapLive (hub : HubServer) (f : Fd) : Prop :=
  ∀ q, hub.tcpFdMap f = some q → slotFd hub (.tcp q) = some f

private theorem present_of_slot {hub : HubServer} {f : Fd} (h : slotFd hub y = some f) :
    y.target.Present hub := by
  cases y with
  | pending k | tcp p | vhci p | kernel p =>
    intro hn
    simp [slotFd, hn] at h

section Owner

variable {f : Fd}

private theorem tcpFdMap_eq_none (hmap : MapLive st.hub f)
    (h : ∀ q, slotFd st.hub (.tcp q) ≠ some f) : st.hub.tcpFdMap f = none := by
  by_contra hne
  obtain ⟨q, hq⟩ := Option.ne_none_iff_exists'.mp hne
  exact h q (hmap q hq)

private theorem vhciFdMap_eq_none (hs : Sound st) (h : ∀ q, slotFd st.hub (.vhci q) ≠ some f) :
    st.hub.vhciFdMap f = none := by
  by_contra hne
  obtain ⟨q, hq⟩ := Option.ne_none_iff_exists'.mp hne
  obtain ⟨s, hp, rfl⟩ := (hs.wf.vhciMap f q).mp hq
  exact h q (slotFd_vhci hp)

private theorem pendingTcpSocks_eq_none (hs : Sound st) (h : slotFd st.hub (.pending f) ≠ some f) :
    st.hub.pendingTcpSocks f = none := by
  by_contra hne
  exact h (hs.wf.slotFd_pending_self hne)

end Owner

private theorem target_of_server (h : i.fd = st.hub.udpFd ∨ i.fd = st.hub.tcpServerFd) :
    target st i = none := by
  simp only [target, HubServer.route]
  by_cases hudp : i.fd = st.hub.udpFd
  · rw [if_pos hudp]
  · rw [if_neg hudp, if_pos (h.resolve_left hudp)]

private theorem target_of_unowned (hs : Sound st) (hmap : MapLive st.hub i.fd)
    (hserver : i.fd ≠ st.hub.udpFd ∧ i.fd ≠ st.hub.tcpServerFd)
    (h : ∀ p, slotFd st.hub (.tcp p) ≠ some i.fd ∧ slotFd st.hub (.vhci p) ≠ some i.fd) :
    target st i = if i.evts.epollin ∧ st.hub.pendingTcpSocks i.fd ≠ none then some (.pending i.fd)
      else none := by
  have htcp := tcpFdMap_eq_none hmap fun q => (h q).1
  have hvhci := vhciFdMap_eq_none hs fun q => (h q).2
  simp only [target, HubServer.route, hserver, if_false, HubServer.findByTcpFd, htcp,
    HubServer.findByVhciFd, hvhci, readTarget]
  cases i.evts.epollin <;> cases st.hub.pendingTcpSocks i.fd <;> simp

/-- An event goes to what owns its descriptor. -/
theorem target_of_slot (hs : Sound st) (hmap : MapLive st.hub i.fd)
    (hslot : slotFd st.hub y = some i.fd) (ht : target st i = some x) : x = y.target := by
  obtain ⟨hudp, hserver⟩ := hs.wf.reserved y i.fd hslot
  have hother : ∀ z, z ≠ y → slotFd st.hub z ≠ some i.fd :=
    fun z hne hz => hne (hs.wf.unique _ _ _ hz hslot)
  cases y with
  | tcp p =>
    obtain ⟨s, hp, -⟩ := exists_session_of_slot hslot
    have hpend := pendingTcpSocks_eq_none hs (hother (.pending i.fd) (by simp))
    simp only [target, HubServer.route, hudp, hserver, if_false, HubServer.findByTcpFd,
      tcpFdMap_of_slot hs hslot, readTarget, hpend, deviceIdAt, hp, hs.wf.owned p s hp] at ht
    split_ifs at ht <;> exact (Option.some.inj ht).symm
  | vhci p =>
    have htcp := tcpFdMap_eq_none hmap fun q => hother (.tcp q) (by simp)
    have hvhci : st.hub.vhciFdMap i.fd = some p := by
      simp only [slotFd, Option.map_eq_some_iff] at hslot
      exact (hs.wf.vhciMap _ _).mpr hslot
    simp only [target, HubServer.route, hudp, hserver, if_false, HubServer.findByTcpFd, htcp,
      HubServer.findByVhciFd, hvhci] at ht
    split_ifs at ht
    exact (Option.some.inj ht).symm
  | kernel p =>
    rw [target_of_unowned hs hmap ⟨hudp, hserver⟩
      fun q => ⟨hother _ (by simp), hother _ (by simp)⟩,
      pendingTcpSocks_eq_none hs (hother _ (by simp))] at ht
    simp at ht
  | pending k =>
    rw [target_of_unowned hs hmap ⟨hudp, hserver⟩
      fun q => ⟨hother _ (by simp), hother _ (by simp)⟩] at ht
    split_ifs at ht
    simp only [slotFd, Option.map_eq_some_iff] at hslot
    obtain ⟨sock, hk, hfd⟩ := hslot
    rw [← Option.some.inj ht, ← hfd, hs.wf.pendingKey k sock hk]
    rfl

private theorem target_of_closed (hs : Sound st) (hmap : MapLive st.hub i.fd)
    (hfree : st.os.fds i.fd = none) : target st i = none := by
  have hslot := hs.wf.unowned_of_free hfree
  rw [target_of_unowned hs hmap (hs.wf.ne_of_free hfree) fun p => ⟨hslot _, hslot _⟩,
    pendingTcpSocks_eq_none hs (hslot _)]
  simp

theorem run_servers (hs : Sound st₀) (hrun : run step st₀ js = .ok st) :
    Sound st ∧ st.hub.udpFd = st₀.hub.udpFd ∧ st.hub.tcpServerFd = st₀.hub.tcpServerFd := by
  refine run_invariant_of_step (P := fun st => Sound st ∧ st.hub.udpFd = st₀.hub.udpFd ∧
    st.hub.tcpServerFd = st₀.hub.tcpServerFd) ?_ ⟨hs, rfl, rfl⟩ hrun
  rintro a j b ⟨ha, hfds⟩ hstep
  refine ⟨step_sound ha hstep, (step_moves ha hstep).invariant
    (P := fun st => st.hub.udpFd = st₀.hub.udpFd ∧ st.hub.tcpServerFd = st₀.hub.tcpServerFd)
    ?_ ha hfds⟩
  intro k c d _ _ hm hc
  exact ⟨hm.servers.1.trans hc.1, hm.servers.2.trans hc.2⟩

variable {udpFd tcpServerFd : Fd} {inherited : Fd → Option FdMode} {is : List Input}

private theorem run_registeredOwned (hr : run step (boot udpFd tcpServerFd inherited) is = .ok st) :
    RegisteredOwned st.hub st.os [] := by
  have hg : RunAll step (fun _ _ => True) (boot udpFd tcpServerFd inherited) is := runAll_true _ _
  refine run_keeps (P := fun st => RegisteredOwned st.hub st.os [])
    (fun _ _ _ k a b _ ha hm h => hm.registeredOwned ha h) (fun f hf _ => ?_) hg hr
  by_cases ht : f = tcpServerFd
  · exact .inr (.inl ht)
  · by_cases hu : f = udpFd
    · exact .inl hu
    · simp [boot, ht, hu] at hf

/-- From every state of every run, an event of a batch is applied to nothing that an earlier
event `js` of the batch has created, provided that its descriptor is not used again in between
and that the TCP map has no outdated entry for it. The event is on a descriptor that is
registered at the start of the batch, or on a pending connection. -/
theorem target_not_created (hr : run step (boot udpFd tcpServerFd inherited) is = .ok st₀)
    (hev : st₀.os.epoll i.fd ≠ none ∨ st₀.hub.pendingTcpSocks i.fd ≠ none)
    (hrun : run step st₀ js = .ok st) (hown : Unreused st₀ js st i.fd) (hmap : MapLive st.hub i.fd)
    (x : Target) (ht : target st i = some x) : ¬Created st₀ js x := by
  have hs₀ := run_sound hr
  obtain ⟨hs, hudp, hserver⟩ := run_servers hs₀ hrun
  rcases hown with hkept | hfree
  · have howner : i.fd = st₀.hub.udpFd ∨ i.fd = st₀.hub.tcpServerFd ∨
        ∃ y, slotFd st₀.hub y = some i.fd := by
      rcases hev with hreg | hpend
      · exact run_registeredOwned hr i.fd hreg List.not_mem_nil
      · exact .inr (.inr ⟨_, hs₀.wf.slotFd_pending_self hpend⟩)
    rcases howner with he | he | ⟨y, hy⟩
    · rw [target_of_server (.inl (he.trans hudp.symm))] at ht
      cases ht
    · rw [target_of_server (.inr (he.trans hserver.symm))] at ht
      cases ht
    -- the target owned the descriptor all along, so no event of the batch can have created it
    · obtain rfl := target_of_slot hs hmap (hkept y hy js st (List.prefix_refl js) hrun) ht
      rintro ⟨ks, j, st₁, st₂, hks, hst₁, -, habsent, -⟩
      have hpre : ks <+: js := (List.prefix_append ks [j]).trans hks
      exact habsent (present_of_slot (hkept y hy ks st₁ hpre hst₁))
  · rw [target_of_closed hs hmap hfree] at ht
    cases ht

def readable (fd : Fd) : Input where
  fd := fd
  evts := { epollin := true }
  arrivals := [.eagain]

/-- A connection is accepted while an event of the session's connection waits in the batch. -/
theorem target_kept_over_accept :
    ∃ st₀ st, run step (boot 3 4 fun _ => none) connectedRun = .ok st₀ ∧
      run step st₀ [acceptInput 4 8] = .ok st ∧ target st (readable 5) = some (.session 0) ∧
      ¬Created st₀ [acceptInput 4 8] (.session 0) := by
  obtain ⟨st₀, st, hr, hrun, hreg, hslot₀, hslot, hmap, ht⟩ : ∃ st₀ st,
      run step (boot 3 4 fun _ => none) connectedRun = .ok st₀ ∧
      run step st₀ [acceptInput 4 8] = .ok st ∧ st₀.os.epoll 5 ≠ none ∧
      slotFd st₀.hub (.tcp 0) = some 5 ∧ slotFd st.hub (.tcp 0) = some 5 ∧
      st.hub.tcpFdMap 5 = some 0 ∧ target st (readable 5) = some (.session 0) :=
    ⟨_, _, rfl, rfl, Option.some_ne_none _, rfl, rfl, rfl, rfl⟩
  refine ⟨st₀, st, hr, hrun, ht, target_not_created hr (.inl hreg) hrun (.inl ?_) ?_ _ ht⟩
  · intro y hy ks st₁ hks hst₁
    obtain rfl := (run_sound hr).wf.unique _ _ _ hy hslot₀
    rcases List.prefix_cons_iff.mp hks with rfl | ⟨ls, rfl, hls⟩
    · rwa [← Except.ok.inj hst₁]
    · obtain rfl := List.prefix_nil.mp hls
      rwa [← Except.ok.inj (hrun.symm.trans hst₁)]
  · intro q hq
    rwa [← Option.some.inj (hmap.symm.trans hq)]

/-- The kernel hands out the lowest free descriptors in a turn that closes none. -/
def LowestFds (st : Daemon) (i : Input) : Prop :=
  (∀ f ∈ i.sys.accept, ∀ g < f, st.os.fds g ≠ none) ∧
    ∀ pair ∈ i.sys.socketpair, pair.1 < pair.2 ∧ ∀ g < pair.2, g ≠ pair.1 → st.os.fds g ≠ none

/-- The kernel side sends its last bytes and closes. -/
def lastRead (fd : Fd) : Input where
  fd := fd
  evts := { epollin := true }
  sys := { reads := [.data ⟨[0], by decide, by decide⟩, .eof] }

/-- The device's connection is 6 and its kernel side is 8. In one batch the kernel side ends,
which closes both, a new client is accepted as 6, and the event of the old connection 6 is
read from the new client, which is dropped for it. -/
theorem stale_event_drops_new_client :
    ∃ st₀ st st', run step (boot 4 5 fun f => if f < 4 then some .nonblocking else none)
        [acceptInput 5 6, connectInput 6 0 (7, 8)] = .ok st₀ ∧
      RunAll step LowestFds (boot 4 5 fun f => if f < 4 then some .nonblocking else none)
        ([acceptInput 5 6, connectInput 6 0 (7, 8)] ++ [lastRead 8, acceptInput 5 6, readable 6]) ∧
      (∀ i ∈ [lastRead 8, acceptInput 5 6, readable 6], st₀.os.epoll i.fd ≠ none) ∧
      run step st₀ [lastRead 8, acceptInput 5 6] = .ok st ∧
      target st (readable 6) = some (.pending 6) ∧
      Created st₀ [lastRead 8, acceptInput 5 6] (.pending 6) ∧
      step st (readable 6) = .ok st' ∧ st'.hub.pendingTcpSocks 6 = none := by
  refine ⟨_, _, _, rfl, ?_, ?_, rfl, rfl, ⟨[lastRead 8], acceptInput 5 6, _, _, List.prefix_refl _,
    rfl, rfl, fun h => h rfl, Option.some_ne_none _⟩, rfl, rfl⟩
  · refine runAll_cons_of_ok rfl ⟨by decide, by decide⟩ (runAll_cons_of_ok rfl ?_
      (runAll_cons_of_ok rfl ?_ (runAll_cons_of_ok rfl ?_ (runAll_cons_of_ok rfl ?_ trivial))))
    all_goals exact ⟨by decide, by decide⟩
  · intro i hi
    simp only [List.mem_cons, List.not_mem_nil, or_false] at hi
    rcases hi with rfl | rfl | rfl <;> exact Option.some_ne_none _

end Daemon
end WirelessHub
