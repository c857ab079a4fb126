import WirelessHub.Daemon.Runs

/-!
# Consistency of the session index

The two descriptor maps, the session table and the pending sockets agree: every map entry
leads to a live session that owns the descriptor, and every session is found under both of
its descriptors. The one way to lose this is a reset whose re-attach fails, because the
TCP socket has left the session by the time the session is removed from the maps.
-/

namespace WirelessHub

open Function Framework

structure IndexConsistent (hub : HubServer) : Prop where
  tcp : ∀ fd p, hub.tcpFdMap fd = some p →
    ∃ s sock, hub.heap p = some s ∧ hub.sessions s.deviceId = some p ∧ s.tcpSock = some sock ∧
      sock.fd = fd
  vhci : ∀ fd p, hub.vhciFdMap fd = some p →
    ∃ s, hub.heap p = some s ∧ hub.sessions s.deviceId = some p ∧ s.vhciFd = fd
  both : ∀ d p, hub.sessions d = some p →
    ∃ s sock, hub.heap p = some s ∧ s.tcpSock = some sock ∧ hub.tcpFdMap sock.fd = some p ∧
      hub.vhciFdMap s.vhciFd = some p
  disjoint : ∀ fd, hub.pendingTcpSocks fd = none ∨ hub.tcpFdMap fd = none

def TcpLive (hub : HubServer) : Prop :=
  ∀ f p, hub.tcpFdMap f = some p → slotFd hub (.tcp p) = some f

private theorem indexConsistent_iff {st : Daemon} (hs : Sound st) :
    IndexConsistent st.hub ↔ TcpLive st.hub := by
  constructor
  · intro h f p hp
    obtain ⟨s, sock, hheap, -, hsock, rfl⟩ := h.tcp f p hp
    exact slotFd_tcp hheap hsock
  · intro h
    refine ⟨fun f p hp => ?_, fun f p hp => ?_, fun d p hp => ?_, fun f => ?_⟩
    · have hslot := h f p hp
      simp only [slotFd, Option.bind_eq_some_iff, Option.map_eq_some_iff] at hslot
      obtain ⟨s, hheap, sock, hsock, hf⟩ := hslot
      exact ⟨s, sock, hheap, hs.wf.owned p s hheap, hsock, hf⟩
    · obtain ⟨s, hheap, hf⟩ := (hs.wf.vhciMap f p).mp hp
      exact ⟨s, hheap, hs.wf.owned p s hheap, hf⟩
    · obtain ⟨s, hheap, -⟩ := hs.wf.live d p hp
      obtain ⟨sock, -, hsock, -, hmap, -⟩ := hs.wf.usable p s hheap
      exact ⟨s, sock, hheap, hsock, hmap, (hs.wf.vhciMap _ p).mpr ⟨s, hheap, rfl⟩⟩
    · cases hk : st.hub.pendingTcpSocks f with
      | none => exact .inl rfl
      | some sock =>
        right
        by_contra hne
        obtain ⟨p, hp⟩ := Option.ne_none_iff_exists'.mp hne
        have hpend := slotFd_pending hk
        rw [hs.wf.pendingKey f sock hk] at hpend
        exact absurd (hs.wf.unique _ _ _ hpend (h f p hp)) (by simp)

section Preservation

variable {hub : HubServer} {p : SessionPtr} {s t : DeviceSession} {sock : TcpSocket}

private theorem tcpLive_drop (h : TcpLive hub) (hs : hub.heap p = some s)
    (hsock : s.tcpSock = some sock) {d : UInt8} {f : Fd} {q : SessionPtr} (hf : f ≠ sock.fd)
    (hq : (hub.dropSession d p t).tcpFdMap f = some q) :
    slotFd (hub.dropSession d p t) (.tcp q) = some f := by
  have hq' : hub.tcpFdMap f = some q := by
    cases ht : t.tcpSock with
    | none => simpa [HubServer.dropSession, ht] using hq
    | some u =>
      by_cases hfu : f = u.fd
      · simp [HubServer.dropSession, ht, hfu] at hq
      · simpa [HubServer.dropSession, ht, hfu] using hq
  have hslot := h f q hq'
  have hqp : q ≠ p := by
    rintro rfl
    rw [slotFd_tcp hs hsock, Option.some.injEq] at hslot
    exact hf hslot.symm
  simpa [slotFd, HubServer.dropSession, hqp] using hslot

private theorem tcpLive_add (hfresh : hub.heap hub.nextPtr = none) (hsock : s.tcpSock = some sock)
    (h : ∀ f q, f ≠ sock.fd → hub.tcpFdMap f = some q → slotFd hub (.tcp q) = some f) :
    TcpLive (hub.addSession s) := by
  intro f q hq
  by_cases hf : f = sock.fd
  · subst hf
    obtain rfl : hub.nextPtr = q := by simpa [HubServer.addSession, hsock] using hq
    simp [slotFd, HubServer.addSession, hsock]
  · have hq' : hub.tcpFdMap f = some q := by simpa [HubServer.addSession, hsock, hf] using hq
    have hslot := h f q hf hq'
    have hqn : q ≠ hub.nextPtr := by
      rintro rfl
      simp [slotFd, hfresh] at hslot
    simpa [slotFd, HubServer.addSession, hqn] using hslot

private theorem Move.tcpLive {k : MoveKind} {st st' : Daemon} (hk : k ≠ .resetFail) (hs : Sound st)
    (hm : Move k st st') (h : TcpLive st.hub) : TcpLive st'.hub := by
  cases hm with
  | quiet hub => exact hub ▸ h
  | leak port free hub => exact hub ▸ h
  | accept f free hub => rw [hub]; exact h
  | dropPending k sock pending hub => rw [hub]; exact h
  | forward p s h₀ h₁ session handler same hub =>
    intro f q hq
    rw [hub] at hq ⊢
    have hslot := h f q hq
    by_cases hqp : q = p
    · subst hqp
      simpa [slotFd, session] using hslot
    · simpa [slotFd, hqp] using hslot
  | remove freed p s session hub =>
    obtain ⟨sock, -, hsock, -⟩ := hs.wf.usable p s session
    rw [hub]
    intro f q hq
    refine tcpLive_drop h session hsock ?_ hq
    rintro rfl
    simp [HubServer.dropSession, hsock] at hq
  | connect ok k s sock pending binds =>
    rw [binds.hub]
    exact tcpLive_add (hs.wf.fresh _ (Nat.le_refl _)) binds.tcpSock fun f q _ hq => h f q hq
  | reset ok p s t sock tcpSock device unplugs binds =>
    have hmid := (unplugs.spec hs tcpSock).1
    rw [binds.hub]
    refine tcpLive_add (hmid.wf.fresh _ (Nat.le_refl _)) binds.tcpSock fun f q hf hq => ?_
    rw [unplugs.hub] at hq ⊢
    exact tcpLive_drop h unplugs.session tcpSock hf hq
  | resetFail => exact absurd rfl hk

private theorem Move.not_tcpLive_of_resetFail {st st' : Daemon} (hs : Sound st)
    (hm : Move .resetFail st st') : ¬TcpLive st'.hub := by
  cases hm with
  | resetFail p s sock tcpSock unplugs hub vhci os =>
    intro h
    obtain ⟨sock', -, hsock, -, hmap, -⟩ := hs.wf.usable p s unplugs.session
    have hstale : st'.hub.tcpFdMap sock'.fd = some p := by
      rw [hub, unplugs.hub]
      exact hmap
    have hslot := h _ p hstale
    rw [hub, unplugs.hub] at hslot
    simp [slotFd, HubServer.dropSession] at hslot

end Preservation

namespace Daemon

variable {st st' : Daemon} {i : Input}

private theorem step_tcpLive_iff (hs : Sound st) (h : TcpLive st.hub)
    (hstep : step st i = .ok st') : ¬ResetFails st i ↔ TcpLive st'.hub := by
  constructor
  · intro hg
    refine (step_moves hs hstep).invariant (P := fun st => TcpLive st.hub) ?_ hs h
    intro k a b hk ha hm hl
    refine hm.tcpLive ?_ ha hl
    rintro rfl
    exact hg hk
  · rintro hl ⟨p, s, hr, hp, hh, hn⟩
    have hq := arrived_sound hs i
    obtain rfl := Except.ok.inj ((step_of_reset hs hr hp hh).symm.trans hstep)
    rcases reattach_moves hq hp i.sys with ⟨-, hok⟩ | ⟨hm, -⟩
    · exact hn hok
    · exact hm.not_tcpLive_of_resetFail hq hl

variable {udpFd tcpServerFd : Fd} {inherited : Fd → Option FdMode} {is : List Input}

/-- Along a run the index is consistent in every state exactly if no reset fails. -/
theorem index_consistent_iff_no_reset_fails
    (hr : run step (boot udpFd tcpServerFd inherited) is = .ok st) :
    (∀ js st₁, js <+: is → run step (boot udpFd tcpServerFd inherited) js = .ok st₁ →
      IndexConsistent st₁.hub) ↔
    RunAll step (fun st i => ¬ResetFails st i) (boot udpFd tcpServerFd inherited) is := by
  have hboot : TcpLive (boot udpFd tcpServerFd inherited).hub := by
    intro f p hp
    simp [boot, HubServer.empty] at hp
  rw [runAll_iff_throughout (B := Sound) (P := fun st => TcpLive st.hub)
    (fun _ _ _ => step_sound) (fun _ _ _ => step_tcpLive_iff)
    (boot_sound udpFd tcpServerFd inherited) hboot hr]
  constructor
  · exact fun h js st₁ hjs hst₁ => (indexConsistent_iff (run_sound hst₁)).mp (h js st₁ hjs hst₁)
  · exact fun h js st₁ hjs hst₁ => (indexConsistent_iff (run_sound hst₁)).mpr (h js st₁ hjs hst₁)

def resetRun (pair : Option (Fd × Fd)) : List Input :=
  connectedRun ++ [{ fd := 7, evts := { epollhup := true }, sys := { socketpair := pair } }]

theorem index_stale_after_failed_reset :
    ∃ st, run step (boot 3 4 fun _ => none) (resetRun none) = .ok st ∧ ¬IndexConsistent st.hub := by
  refine ⟨_, rfl, fun h => ?_⟩
  obtain ⟨s, sock, hs, -⟩ := h.tcp 5 0 rfl
  cases hs

private theorem resetRun_no_reset_fails :
    RunAll step (fun st i => ¬ResetFails st i) (boot 3 4 fun _ => none) (resetRun (some (8, 9))) := by
  refine ⟨?_, fun s₁ h₁ => ?_⟩
  · rintro ⟨p, s, hr, -⟩
    cases hr
  · cases h₁
    refine ⟨?_, fun s₂ h₂ => ?_⟩
    · rintro ⟨p, s, hr, -⟩
      cases hr
    · cases h₂
      refine ⟨?_, fun _ _ => trivial⟩
      rintro ⟨p, s, hr, hs, -, hn⟩
      cases hr
      cases hs
      exact hn ⟨Option.some_ne_none _, rfl⟩

theorem index_consistent_along_reset :
    ∃ st, run step (boot 3 4 fun _ => none) (resetRun (some (8, 9))) = .ok st ∧
      st.hub.tcpFdMap 5 = some 1 ∧ IndexConsistent st.hub := by
  obtain ⟨st, hr, hmap⟩ : ∃ st, run step (boot 3 4 fun _ => none) (resetRun (some (8, 9))) = .ok st ∧
      st.hub.tcpFdMap 5 = some 1 := ⟨_, rfl, rfl⟩
  refine ⟨st, hr, hmap, ?_⟩
  exact (index_consistent_iff_no_reset_fails hr).mpr resetRun_no_reset_fails _ st List.prefix_rfl hr

end Daemon
end WirelessHub
