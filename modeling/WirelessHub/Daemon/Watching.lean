import WirelessHub.Daemon.Runs

/-!
# Watched descriptors

Which descriptors of the hub are registered with epoll. The descriptors of a session are,
as long as `epoll_ctl` succeeds: `doUsbAttach` registers both and a reset registers the new
socketpair while the TCP socket keeps its registration. An accepted connection is not,
from the accept until it becomes a session.
-/

namespace WirelessHub

open Function Framework

/-- Every descriptor that the daemon expects events on is registered. -/
structure Watched (st : Daemon) : Prop where
  pending : ∀ fd, st.hub.pendingTcpSocks fd ≠ none → st.os.epoll fd ≠ none
  tcp : ∀ d p s sock, st.hub.sessions d = some p → st.hub.heap p = some s →
    s.tcpSock = some sock → st.os.epoll sock.fd ≠ none
  vhci : ∀ d p s, st.hub.sessions d = some p → st.hub.heap p = some s →
    st.os.epoll s.vhciFd ≠ none

def PendingUnwatched (st : Daemon) : Prop :=
  ∀ k, st.hub.pendingTcpSocks k ≠ none → st.os.epoll k = none

def SessionsWatched (hub : HubServer) (os : Os) : Prop :=
  ∀ p f, slotFd hub (.tcp p) = some f ∨ slotFd hub (.vhci p) = some f → os.epoll f ≠ none

section Preservation

variable {st st' : Daemon} {hub : HubServer} {os os' : Os} {p : SessionPtr} {s t : DeviceSession}
  {sock : TcpSocket}

private theorem Os.Closes.epoll_none {l : List Fd} (hc : os.Closes os' l) {f : Fd}
    (h : os.epoll f = none) : os'.epoll f = none := by
  rw [hc.epoll, h, ite_self]

private theorem Os.epoll_epollAdd_of_ne {f g : Fd} (hne : f ≠ g) (evts : EventMask) (ok : Bool) :
    (os.epollAdd g evts ok).epoll f = os.epoll f := by
  cases ok <;> simp [Os.epollAdd, hne]

private theorem Binds.pendingUnwatched {fresh ok : Bool} (hs : Sound st)
    (hb : Binds s sock fresh ok st st') (h : PendingUnwatched st) : PendingUnwatched st' := by
  intro k hk
  rw [hb.hub] at hk
  have hk' : st.hub.pendingTcpSocks k ≠ none := hk
  have hslot := hs.wf.slotFd_pending_self hk'
  have hv : k ≠ s.vhciFd := fun he => hs.wf.opened _ _ hslot (he ▸ hb.vhciFree)
  have ht : k ≠ sock.fd := fun he => hb.loose.unowned _ (he ▸ hslot)
  rw [hb.epoll, Os.epoll_epollAdd_of_ne hv]
  cases fresh with
  | false => exact h k hk'
  | true => rw [if_pos rfl, Os.epoll_epollAdd_of_ne ht]; exact h k hk'

private theorem Move.pendingUnwatched {k : MoveKind} (hs : Sound st) (hm : Move k st st')
    (h : PendingUnwatched st) : PendingUnwatched st' := by
  cases hm with
  | quiet hub vhci fds epoll =>
    intro k hk
    rw [epoll]
    exact h k (hub ▸ hk)
  | leak port free hub vhci fds epoll =>
    intro k hk
    rw [epoll]
    exact h k (hub ▸ hk)
  | forward p s h₀ h₁ session handler same hub vhci fds epoll =>
    intro k hk
    rw [epoll]
    rw [hub] at hk
    exact h k hk
  | accept f free hub vhci fds epoll =>
    intro k hk
    rw [epoll]
    by_cases hkf : k = f
    · subst hkf
      by_contra hne
      exact hs.wf.registered k hne free
    · rw [hub] at hk
      exact h k (by simpa [hkf] using hk)
  | dropPending f sock pending hub vhci os =>
    intro k hk
    refine os.epoll_none (h k ?_)
    rw [hub] at hk
    by_cases hkf : k = f
    · simp [Daemon.extracted, hkf] at hk
    · simpa [Daemon.extracted, hkf] using hk
  | remove freed p s session hub vhci os =>
    intro k hk
    rw [hub] at hk
    exact os.epoll_none (h k hk)
  | connect ok f s sock pending binds =>
    refine binds.pendingUnwatched (hs.extracted pending).1 fun k hk => h k ?_
    by_cases hkf : k = f
    · simp [Daemon.extracted, hkf] at hk
    · simpa [Daemon.extracted, hkf] using hk
  | reset ok p s t sock tcpSock device unplugs binds =>
    refine binds.pendingUnwatched (unplugs.spec hs tcpSock).1 fun k hk => ?_
    rw [unplugs.hub] at hk
    exact unplugs.os.epoll_none (h k hk)
  | resetFail p s sock tcpSock unplugs hub vhci os =>
    intro k hk
    rw [hub, unplugs.hub] at hk
    exact os.epoll_none (unplugs.os.epoll_none (h k hk))

private theorem SessionsWatched.drop (hw : Wf hub os) (hs : hub.heap p = some s)
    (ht : t = s ∨ t = { s with tcpSock := none }) {d : UInt8}
    (hc : os.Closes os' (Daemon.sessionFds t)) (h : SessionsWatched hub os) :
    SessionsWatched (hub.dropSession d p t) os' := by
  intro q f hslot
  have hold : slotFd hub (.tcp q) = some f ∨ slotFd hub (.vhci q) = some f :=
    hslot.imp (fun hx => (slotFd_dropSession hx).1) fun hx => (slotFd_dropSession hx).1
  have hnot : f ∉ Daemon.sessionFds t := by
    rcases hslot with hx | hx
    · exact hw.dropSession_disjoint hs ht hx
    · exact hw.dropSession_disjoint hs ht hx
  rw [hc.epoll, if_neg hnot]
  exact h q f hold

private theorem Binds.sessionsWatched {fresh : Bool} (hb : Binds s sock fresh true st st')
    (hsock : fresh = true ∨ st.os.epoll sock.fd ≠ none) (h : SessionsWatched st.hub st.os) :
    SessionsWatched st'.hub st'.os := by
  have hkeep : ∀ f, st.os.epoll f ≠ none ∨ (fresh = true ∧ f = sock.fd) ∨ f = s.vhciFd →
      st'.os.epoll f ≠ none := by
    intro f hf
    rw [hb.epoll]
    by_cases hv : f = s.vhciFd
    · simp [Os.epollAdd, hv]
    · rw [Os.epoll_epollAdd_of_ne hv]
      cases fresh <;> by_cases ht : f = sock.fd <;> simp_all [Os.epollAdd]
  intro q f hslot
  rw [hb.hub] at hslot
  have hnew : slotFd st.hub (.tcp q) = some f ∨ slotFd st.hub (.vhci q) = some f ∨
      f = s.vhciFd ∨ f = sock.fd := by
    rcases hslot with hx | hx <;> rcases slotFd_addSession hx with hx | ⟨-, rfl⟩ | ⟨hq, -⟩ | ⟨hq, hx⟩
    · exact .inl hx
    · exact .inr (.inr (.inl rfl))
    · cases hq
    · obtain ⟨sock', hs', rfl⟩ := hx
      rw [hb.tcpSock, Option.some.injEq] at hs'
      exact .inr (.inr (.inr (by rw [hs'])))
    · exact .inr (.inl hx)
    · exact .inr (.inr (.inl rfl))
    · cases hq
    · cases hq
  rcases hnew with hx | hx | hx | rfl
  · exact hkeep f (.inl (h q f (.inl hx)))
  · exact hkeep f (.inl (h q f (.inr hx)))
  · exact hkeep f (.inr (.inr hx))
  · rcases hsock with hfresh | hold
    · exact hkeep _ (.inr (.inl ⟨hfresh, rfl⟩))
    · exact hkeep _ (.inl hold)

private theorem Move.sessionsWatched {k : MoveKind} (hc : k ≠ .connect false)
    (hr : k ≠ .reset false)
    (hs : Sound st) (hm : Move k st st') (h : SessionsWatched st.hub st.os) :
    SessionsWatched st'.hub st'.os := by
  cases hm with
  | quiet hub vhci fds epoll =>
    intro p f hslot
    rw [epoll]
    exact h p f (hub ▸ hslot)
  | leak port free hub vhci fds epoll =>
    intro p f hslot
    rw [epoll]
    exact h p f (hub ▸ hslot)
  | accept g free hub vhci fds epoll =>
    intro p f hslot
    rw [epoll]
    rw [hub] at hslot
    exact h p f hslot
  | forward p s h₀ h₁ session handler same hub vhci fds epoll =>
    intro q f hslot
    rw [epoll]
    rw [hub] at hslot
    refine h q f ?_
    by_cases hqp : q = p
    · subst hqp
      simpa [slotFd, session] using hslot
    · simpa [slotFd, hqp] using hslot
  | dropPending k sock pending hub vhci os =>
    intro p f hslot
    rw [hub] at hslot
    have hold : slotFd st.hub (.tcp p) = some f ∨ slotFd st.hub (.vhci p) = some f := hslot
    have hne : f ≠ sock.fd := by
      rintro rfl
      rcases hold with hx | hx
      · exact absurd (hs.wf.unique _ _ _ hx (slotFd_pending pending)) (by simp)
      · exact absurd (hs.wf.unique _ _ _ hx (slotFd_pending pending)) (by simp)
    rw [os.epoll, if_neg (by simpa using hne)]
    exact h p f hold
  | remove freed p s session hub vhci os =>
    rw [hub]
    exact h.drop hs.wf session (.inl rfl) os
  | connect ok k s sock pending binds =>
    cases ok with
    | false => exact absurd rfl hc
    | true => exact binds.sessionsWatched (.inl rfl) h
  | reset ok p s t sock tcpSock device unplugs binds =>
    cases ok with
    | false => exact absurd rfl hr
    | true =>
      refine binds.sessionsWatched (.inr ?_) ?_
      · have hslot := slotFd_tcp unplugs.session tcpSock
        have hv : sock.fd ≠ s.vhciFd := fun he =>
          absurd (hs.wf.unique _ _ _ hslot (he ▸ slotFd_vhci unplugs.session)) (by simp)
        have hk : sock.fd ≠ s.kernelFd := fun he =>
          absurd (hs.wf.unique _ _ _ hslot (he ▸ slotFd_kernel unplugs.session)) (by simp)
        rw [unplugs.os.epoll, if_neg (by simp [hv, hk])]
        exact h p _ (.inl hslot)
      · rw [unplugs.hub]
        exact h.drop hs.wf unplugs.session (.inr rfl) unplugs.os
  | resetFail p s sock tcpSock unplugs hub vhci os =>
    obtain ⟨-, hloose, -⟩ := unplugs.spec hs tcpSock
    have hmid : SessionsWatched _ _ := h.drop (d := s.deviceId) hs.wf unplugs.session (.inr rfl)
      unplugs.os
    rw [← unplugs.hub] at hmid
    intro q f hslot
    rw [hub] at hslot
    have hne : f ≠ sock.fd := by
      rintro rfl
      rcases hslot with hx | hx
      · exact hloose.unowned _ hx
      · exact hloose.unowned _ hx
    rw [os.epoll, if_neg (by simpa using hne)]
    exact hmid q f hslot

end Preservation

private theorem watched_iff_no_pending {st : Daemon} (hp : PendingUnwatched st)
    (hw : SessionsWatched st.hub st.os) :
    Watched st ↔ ∀ fd, st.hub.pendingTcpSocks fd = none := by
  constructor
  · intro h fd
    by_contra hne
    exact h.pending fd hne (hp fd hne)
  · intro h
    refine ⟨fun fd hne => absurd (h fd) hne, fun d p s sock _ hp hsock => ?_, fun d p s _ hp => ?_⟩
    · exact hw p _ (.inl (slotFd_tcp hp hsock))
    · exact hw p _ (.inr (slotFd_vhci hp))

private theorem Move.pending_of_ne_accept {k : MoveKind} {st st' : Daemon} (hk : k ≠ .accept)
    (hm : Move k st st') {fd : Fd} (h : st.hub.pendingTcpSocks fd = none) :
    st'.hub.pendingTcpSocks fd = none := by
  cases hm with
  | quiet hub | leak _ _ hub | forward _ _ _ _ _ _ _ hub | remove _ _ _ _ hub => rw [hub]; exact h
  | accept => exact absurd rfl hk
  | dropPending f sock pending hub =>
    rw [hub]
    by_cases hf : fd = f <;> simp [Daemon.extracted, hf, h]
  | connect ok f s sock pending binds =>
    rw [binds.hub]
    by_cases hf : fd = f <;> simp [Daemon.extracted, HubServer.addSession, hf, h]
  | reset ok p s t sock tcpSock device unplugs binds =>
    rw [binds.hub]
    simpa [HubServer.addSession, unplugs.hub, HubServer.dropSession] using h
  | resetFail p s sock tcpSock unplugs hub =>
    rw [hub, unplugs.hub]
    exact h

private theorem Move.heap_of_idle {k : MoveKind} {st st' : Daemon} (hm : Move k st st')
    (hp : ∀ fd, st.hub.pendingTcpSocks fd = none) (hh : ∀ p, st.hub.heap p = none) (p : SessionPtr) :
    st'.hub.heap p = none := by
  cases hm with
  | quiet hub | leak _ _ hub => rw [hub]; exact hh p
  | accept f free hub => rw [hub]; exact hh p
  | dropPending f sock pending => rw [hp f] at pending; cases pending
  | forward q s h₀ h₁ session => rw [hh q] at session; cases session
  | remove freed q s session => rw [hh q] at session; cases session
  | connect ok f s sock pending => rw [hp f] at pending; cases pending
  | reset ok q s t sock tcpSock device unplugs =>
    have := unplugs.session
    rw [hh q] at this
    cases this
  | resetFail q s sock tcpSock unplugs =>
    have := unplugs.session
    rw [hh q] at this
    cases this

namespace Daemon

variable {st st' : Daemon} {i : Input}

private theorem step_no_pending_iff (hs : Sound st) (h : ∀ fd, st.hub.pendingTcpSocks fd = none)
    (hstep : step st i = .ok st') :
    ¬Accepts st i ↔ ∀ fd, st'.hub.pendingTcpSocks fd = none := by
  constructor
  · intro hg
    refine (step_moves hs hstep).invariant
      (P := fun st => ∀ fd, st.hub.pendingTcpSocks fd = none) ?_ hs h
    intro k a b hk _ hm hnone fd
    refine hm.pending_of_ne_accept ?_ (hnone fd)
    rintro rfl
    exact hg hk
  · rintro hnone ⟨hr, ha⟩
    obtain ⟨⟨f, os⟩, ha⟩ := Option.ne_none_iff_exists'.mp ha
    obtain ⟨hans, hfree, -⟩ := Os.accept4_some ha
    have hr' : (st.arrived i).hub.route i.fd = .server := hr
    have hacc : (st.arrived i).os.accept4 true i.sys.accept =
        some (f, (st.arrived i).os.opened f (.ofFlag true)) := by
      simp [Os.accept4, hans, arrived, Os.deliver, hfree]
    have hstep' : (st.arrived i).handleEvent i.fd i.evts i.sys = .ok st' := hstep
    rw [handleEvent_route, hr'] at hstep'
    simp only [onTcpAccept, hacc, Except.ok.injEq] at hstep'
    have := hnone f
    simp [← hstep'] at this

variable {udpFd tcpServerFd : Fd} {inherited : Fd → Option FdMode} {is : List Input}

private theorem boot_no_pending (fd : Fd) :
    (boot udpFd tcpServerFd inherited).hub.pendingTcpSocks fd = none := rfl

private theorem run_pendingUnwatched
    (hr : run step (boot udpFd tcpServerFd inherited) is = .ok st) : PendingUnwatched st := by
  have hg : RunAll step (fun _ _ => True) (boot udpFd tcpServerFd inherited) is := runAll_true _ _
  exact run_keeps (fun _ _ _ k a b _ ha hm h => hm.pendingUnwatched ha h)
    (fun k hk => absurd (boot_no_pending k) hk) hg hr

private theorem run_sessionsWatched
    (hg : RunAll step (fun _ i => i.sys.epollCtl = true) (boot udpFd tcpServerFd inherited) is)
    (hr : run step (boot udpFd tcpServerFd inherited) is = .ok st) :
    SessionsWatched st.hub st.os := by
  refine run_keeps (P := fun st => SessionsWatched st.hub st.os) ?_ ?_ hg hr
  · intro st i hok k a b hk ha hm h
    refine hm.sessionsWatched ?_ ?_ ha h
    · rintro rfl
      exact absurd (hk.trans hok) (by simp)
    · rintro rfl
      exact absurd (hk.trans hok) (by simp)
  · intro p f hslot
    simp [slotFd, boot, HubServer.empty] at hslot

private theorem run_idle (hg : RunAll step (fun st i => ¬Accepts st i) (boot udpFd tcpServerFd inherited) is)
    (hr : run step (boot udpFd tcpServerFd inherited) is = .ok st) :
    (∀ fd, st.hub.pendingTcpSocks fd = none) ∧ ∀ p, st.hub.heap p = none := by
  refine run_keeps (P := fun st => (∀ fd, st.hub.pendingTcpSocks fd = none) ∧
    ∀ p, st.hub.heap p = none) ?_ ⟨boot_no_pending, fun p => rfl⟩ hg hr
  intro st i hna k a b hk _ hm h
  refine ⟨fun fd => hm.pending_of_ne_accept ?_ (h.1 fd), hm.heap_of_idle h.1 h.2⟩
  rintro rfl
  exact hna hk

/-- A run is watched in all its states exactly if it accepts no connection. When `epoll_ctl`
succeeds, a state it reaches is watched exactly if no connection is pending. -/
theorem watched_iff (hr : run step (boot udpFd tcpServerFd inherited) is = .ok st) :
    ((∀ js st₁, js <+: is → run step (boot udpFd tcpServerFd inherited) js = .ok st₁ →
        Watched st₁) ↔
      RunAll step (fun st i => ¬Accepts st i) (boot udpFd tcpServerFd inherited) is) ∧
    (RunAll step (fun _ i => i.sys.epollCtl = true) (boot udpFd tcpServerFd inherited) is →
      (Watched st ↔ ∀ fd, st.hub.pendingTcpSocks fd = none)) := by
  refine ⟨⟨fun h => ?_, fun h js st₁ hjs hst₁ => ?_⟩, fun hg => ?_⟩
  · refine (runAll_iff_throughout (B := Sound)
      (P := fun st => ∀ fd, st.hub.pendingTcpSocks fd = none) (fun _ _ _ => step_sound)
      (fun _ _ _ => step_no_pending_iff) (boot_sound udpFd tcpServerFd inherited) boot_no_pending
      hr).mpr fun js st₁ hjs hst₁ fd => ?_
    by_contra hne
    exact (h js st₁ hjs hst₁).pending fd hne (run_pendingUnwatched hst₁ fd hne)
  · obtain ⟨ks, rfl⟩ := hjs
    obtain ⟨hp, hh⟩ := run_idle h.of_append hst₁
    refine ⟨fun fd hne => absurd (hp fd) hne, fun d p s sock _ hs => ?_, fun d p s _ hs => ?_⟩ <;>
      exact absurd (hh p) (by rw [hs]; simp)
  · exact watched_iff_no_pending (run_pendingUnwatched hr) (run_sessionsWatched hg hr)

def servedRun : List Input :=
  connectedRun ++ [{ fd := 7, evts := { epollhup := true }, sys := { socketpair := some (8, 9) } }]

theorem watched_after_reset :
    ∃ st, run step (boot 3 4 fun _ => none) servedRun = .ok st ∧ st.hub.sessions 0 = some 1 ∧
      Watched st := by
  obtain ⟨st, hr, hsess, hpend⟩ : ∃ st,
      run step (boot 3 4 fun _ => none) servedRun = .ok st ∧ st.hub.sessions 0 = some 1 ∧
      st.hub.pendingTcpSocks = update (update (fun _ => none) 5 (some ⟨5⟩)) 5 none :=
    ⟨_, rfl, rfl, rfl⟩
  have hg : RunAll step (fun _ i => i.sys.epollCtl = true) (boot 3 4 fun _ => none) servedRun :=
    ⟨rfl, fun _ _ => ⟨rfl, fun _ _ => ⟨rfl, fun _ _ => trivial⟩⟩⟩
  refine ⟨st, hr, hsess, ((watched_iff hr).2 hg).mpr fun fd => ?_⟩
  by_cases hfd : fd = 5 <;> simp [hpend, hfd]

/-- An accepted connection waits in the hub without a registration. -/
theorem accepted_not_watched :
    ∃ st, run step (boot 3 4 fun _ => none) [acceptInput 4 5] = .ok st ∧
      st.hub.pendingTcpSocks 5 = some ⟨5⟩ ∧ st.os.epoll 5 = none ∧ ¬Watched st :=
  ⟨_, rfl, rfl, rfl, fun h => h.pending 5 (Option.some_ne_none _) rfl⟩

end Daemon
end WirelessHub
