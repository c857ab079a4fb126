import WirelessHub.Daemon.Batches

/-!
# Every open descriptor has an owner

What the daemon inherits stays open, and beyond that exactly the server sockets and the
descriptors in slots are open: no path of the event loop forgets to close a descriptor, and none
closes one that is not its own.
-/

namespace WirelessHub

open Function Framework

/-- The open descriptors are those of `base`, the `loose` ones and those in slots, and the ones
of `base` are never among the others. -/
structure Inventory (base : Fd → Prop) (hub : HubServer) (os : Os) (loose : List Fd) : Prop where
  opened : ∀ f, os.fds f ≠ none ↔ base f ∨ f ∈ loose ∨ ∃ x, slotFd hub x = some f
  apart : ∀ f, base f → f ∉ loose ∧ ∀ x, slotFd hub x ≠ some f

namespace Inventory

variable {base : Fd → Prop} {hub hub' : HubServer} {os os' : Os} {l : List Fd}
  {st st' : Daemon} {p : SessionPtr} {s t : DeviceSession} {sock : TcpSocket}

private theorem of_slots (h : Inventory base hub os l) (hslots : ∀ x, slotFd hub' x = slotFd hub x)
    (hfds : os'.fds = os.fds) : Inventory base hub' os' l where
  opened f := by simpa only [hfds, hslots] using h.opened f
  apart f hf := by simpa only [hslots] using h.apart f hf

private theorem close (h : Inventory base hub os l) (hl : ∀ f ∈ l, ∀ x, slotFd hub x ≠ some f)
    (hc : os.Closes os' l) : Inventory base hub os' [] := by
  refine ⟨fun f => ?_, fun f hf => ⟨List.not_mem_nil, (h.apart f hf).2⟩⟩
  rw [hc.fds]
  by_cases hm : f ∈ l
  · have hbase : ¬base f := fun hb => (h.apart f hb).1 hm
    simp [hm, hbase, hl f hm]
  · rw [if_neg hm, h.opened f]
    simp [hm]

private theorem extract (h : Inventory base st.hub st.os []) {k : Fd}
    (hk : st.hub.pendingTcpSocks k = some sock) :
    Inventory base (st.extracted k).hub (st.extracted k).os [sock.fd] := by
  have hslot := slotFd_pending hk
  constructor
  · intro f
    have hopen : (st.extracted k).os.fds f ≠ none ↔ _ := h.opened f
    rw [hopen, List.mem_singleton]
    constructor
    · rintro (hb | hn | ⟨x, hx⟩)
      · exact .inl hb
      · cases hn
      · by_cases hxk : x = .pending k
        · rw [hxk, hslot, Option.some.injEq] at hx
          exact .inr (.inl hx.symm)
        · refine .inr (.inr ⟨x, ?_⟩)
          cases x with
          | pending q =>
            have hqk : q ≠ k := fun he => hxk (by rw [he])
            simpa [slotFd, Daemon.extracted, hqk] using hx
          | tcp q | vhci q | kernel q => exact hx
    · rintro (hb | rfl | ⟨x, hx⟩)
      · exact .inl hb
      · exact .inr (.inr ⟨_, hslot⟩)
      · exact .inr (.inr ⟨x, (slotFd_extract hx).1⟩)
  · intro f hb
    refine ⟨?_, fun x hx => (h.apart f hb).2 x (slotFd_extract hx).1⟩
    rw [List.mem_singleton]
    rintro rfl
    exact (h.apart _ hb).2 _ hslot

private theorem drop (h : Inventory base hub os []) (hw : Wf hub os) (hs : hub.heap p = some s)
    (hsock : s.tcpSock = some sock) {d : UInt8} (hc : os.Closes os' [s.vhciFd, s.kernelFd]) :
    Inventory base (hub.dropSession d p t) os' [sock.fd] := by
  have hslot := slotFd_tcp hs hsock
  constructor
  · intro f
    rw [hc.fds, List.mem_singleton]
    constructor
    · intro hf
      have hfl : f ∉ [s.vhciFd, s.kernelFd] := fun hm => hf (if_pos hm)
      rw [if_neg hfl, h.opened f] at hf
      simp only [List.mem_cons, List.not_mem_nil, or_false, not_or] at hfl
      rcases hf with hb | hn | ⟨x, hx⟩
      · exact .inl hb
      · cases hn
      · by_cases hxt : x = .tcp p
        · rw [hxt, hslot, Option.some.injEq] at hx
          exact .inr (.inl hx.symm)
        · refine .inr (.inr ⟨x, slotFd_dropSession_of hx ⟨?_, ?_, hxt⟩⟩)
          · rintro rfl
            rw [slotFd_vhci hs, Option.some.injEq] at hx
            exact hfl.1 hx.symm
          · rintro rfl
            rw [slotFd_kernel hs, Option.some.injEq] at hx
            exact hfl.2 hx.symm
    · intro hf
      have hother : ∀ x, slotFd hub x = some f → x ≠ .vhci p → x ≠ .kernel p →
          f ∉ [s.vhciFd, s.kernelFd] := by
        intro x hx hv hk hm
        simp only [List.mem_cons, List.not_mem_nil, or_false] at hm
        rcases hm with rfl | rfl
        · exact hv (hw.unique _ _ _ hx (slotFd_vhci hs))
        · exact hk (hw.unique _ _ _ hx (slotFd_kernel hs))
      rcases hf with hb | rfl | ⟨x, hx⟩
      · rw [if_neg]
        · exact (h.opened f).mpr (.inl hb)
        · intro hm
          simp only [List.mem_cons, List.not_mem_nil, or_false] at hm
          rcases hm with rfl | rfl
          · exact (h.apart _ hb).2 _ (slotFd_vhci hs)
          · exact (h.apart _ hb).2 _ (slotFd_kernel hs)
      · rw [if_neg (hother _ hslot (by simp) (by simp))]
        exact hw.opened _ _ hslot
      · obtain ⟨hx, hv, hk, -⟩ := slotFd_dropSession hx
        rw [if_neg (hother x hx hv hk)]
        exact hw.opened _ _ hx
  · intro f hb
    refine ⟨?_, fun x hx => (h.apart f hb).2 x (slotFd_dropSession hx).1⟩
    rw [List.mem_singleton]
    rintro rfl
    exact (h.apart _ hb).2 _ hslot

private theorem bind (h : Inventory base st.hub st.os [sock.fd]) (hw : Wf st.hub st.os)
    {fresh ok : Bool} (hb : Binds s sock fresh ok st st') : Inventory base st'.hub st'.os [] := by
  have hvhci : slotFd st'.hub (.vhci st.hub.nextPtr) = some s.vhciFd := by
    simp [hb.hub, slotFd, HubServer.addSession]
  have hkernel : slotFd st'.hub (.kernel st.hub.nextPtr) = some s.kernelFd := by
    simp [hb.hub, slotFd, HubServer.addSession]
  have htcp : slotFd st'.hub (.tcp st.hub.nextPtr) = some sock.fd := by
    simp [hb.hub, slotFd, HubServer.addSession, hb.tcpSock]
  have hslots : ∀ f, (∃ x, slotFd st'.hub x = some f) ↔
      f = s.vhciFd ∨ f = s.kernelFd ∨ f = sock.fd ∨ ∃ x, slotFd st.hub x = some f := by
    intro f
    constructor
    · rintro ⟨x, hx⟩
      rw [hb.hub] at hx
      rcases slotFd_addSession hx with hx | ⟨-, rfl⟩ | ⟨-, rfl⟩ | ⟨-, sock', hsock', rfl⟩
      · exact .inr (.inr (.inr ⟨x, hx⟩))
      · exact .inl rfl
      · exact .inr (.inl rfl)
      · rw [hb.tcpSock, Option.some.injEq] at hsock'
        exact .inr (.inr (.inl (by rw [hsock'])))
    · rintro (rfl | rfl | rfl | ⟨x, hx⟩)
      · exact ⟨_, hvhci⟩
      · exact ⟨_, hkernel⟩
      · exact ⟨_, htcp⟩
      · rw [hb.hub]
        exact ⟨x, slotFd_addSession_of (hw.fresh _ (Nat.le_refl _)) hx⟩
  have hfds : ∀ f, st'.os.fds f ≠ none ↔ f = s.vhciFd ∨ f = s.kernelFd ∨ st.os.fds f ≠ none := by
    intro f
    rw [hb.fds]
    by_cases hv : f = s.vhciFd
    · simp [hv]
    · by_cases hk : f = s.kernelFd <;> simp [hv, hk, hb.pair.symm]
  constructor
  · intro f
    rw [hfds, hslots, h.opened, List.mem_singleton]
    simp only [List.not_mem_nil, false_or]
    tauto
  · intro f hbase
    have hopen := (h.opened f).mpr (.inl hbase)
    refine ⟨List.not_mem_nil, fun x hx => ?_⟩
    rcases (hslots f).mp ⟨x, hx⟩ with rfl | rfl | rfl | ⟨y, hy⟩
    · exact hopen hb.vhciFree
    · exact hopen hb.kernelFree
    · exact (h.apart _ hbase).1 (List.mem_singleton_self _)
    · exact (h.apart f hbase).2 y hy

private theorem accept (h : Inventory base hub os []) (hw : Wf hub os) {g : Fd}
    (hfree : os.fds g = none) (m : FdMode) : Inventory base
      { hub with pendingTcpSocks := update hub.pendingTcpSocks g (some ⟨g⟩) } (os.opened g m) [] := by
  have hslots : ∀ x, x ≠ .pending g → slotFd
      { hub with pendingTcpSocks := update hub.pendingTcpSocks g (some ⟨g⟩) } x = slotFd hub x := by
    intro x hx
    cases x with
    | pending q =>
      have hq : q ≠ g := fun he => hx (by rw [he])
      simp [slotFd, hq]
    | tcp q | vhci q | kernel q => rfl
  have hnew : slotFd { hub with pendingTcpSocks := update hub.pendingTcpSocks g (some ⟨g⟩) }
      (.pending g) = some g := by simp [slotFd]
  have hold : ∀ f, ¬slotFd hub (.pending g) = some f := by
    intro f hf
    refine hw.unowned_of_free hfree _ (hw.slotFd_pending_self fun hn => ?_)
    simp [slotFd, hn] at hf
  have hex : ∀ f, (∃ x, slotFd
      { hub with pendingTcpSocks := update hub.pendingTcpSocks g (some ⟨g⟩) } x = some f) ↔
      f = g ∨ ∃ x, slotFd hub x = some f := by
    intro f
    constructor
    · rintro ⟨x, hx⟩
      by_cases hxg : x = .pending g
      · rw [hxg, hnew, Option.some.injEq] at hx
        exact .inl hx.symm
      · exact .inr ⟨x, by rwa [← hslots x hxg]⟩
    · rintro (rfl | ⟨x, hx⟩)
      · exact ⟨_, hnew⟩
      · have hxg : x ≠ .pending g := by
          rintro rfl
          exact hold f hx
        exact ⟨x, by rwa [hslots x hxg]⟩
  constructor
  · intro f
    rw [hex]
    have hopen := h.opened f
    by_cases hf : f = g
    · simp [hf, Os.opened]
    · simpa [hf, Os.opened] using hopen
  · intro f hb
    refine ⟨List.not_mem_nil, fun x hx => ?_⟩
    rcases (hex f).mp ⟨x, hx⟩ with rfl | ⟨y, hy⟩
    · exact (h.opened f).mpr (.inl hb) hfree
    · exact (h.apart f hb).2 y hy

end Inventory

section Moves

variable {base : Fd → Prop} {st st' : Daemon}

private theorem slotFd_forward {hub : HubServer} {p : SessionPtr} {s : DeviceSession}
    (hs : hub.heap p = some s) (h : PassthroughHandler) (x : Slot) :
    slotFd { hub with heap := update hub.heap p (some { s with handler := some h }) } x =
      slotFd hub x := by
  cases x with
  | pending q => rfl
  | tcp q | vhci q | kernel q =>
    by_cases hq : q = p
    · subst hq
      simp [slotFd, hs]
    · simp [slotFd, hq]

private theorem Move.inventory {k : MoveKind} (hs : Sound st) (hm : Move k st st')
    (h : Inventory base st.hub st.os []) : Inventory base st'.hub st'.os [] := by
  cases hm with
  | quiet hub vhci fds | leak _ _ hub vhci fds => exact h.of_slots (fun x => by rw [hub]) fds
  | forward p s h₀ h₁ session handler same hub vhci fds =>
    exact h.of_slots (fun x => by rw [hub, slotFd_forward session]) fds
  | accept g free hub vhci fds =>
    exact (h.accept hs.wf free .nonblocking).of_slots (fun x => by rw [hub]) fds
  | dropPending k sock pending hub vhci os =>
    have hl := (hs.extracted pending).2
    rw [hub]
    exact (h.extract pending).close (by simpa using hl.unowned) os
  | remove freed p s session hub vhci os =>
    obtain ⟨sock, -, hsock, -⟩ := hs.wf.usable p s session
    have hmid := h.drop (t := s) (d := s.deviceId) hs.wf session hsock
      (st.os.closeAll_closes [s.vhciFd, s.kernelFd])
    rw [hub]
    refine hmid.close (fun f hf x hx => ?_) ⟨fun f => ?_, fun f => ?_⟩
    · obtain ⟨hx, -, -, htcp⟩ := slotFd_dropSession hx
      rw [List.mem_singleton] at hf
      exact htcp (hs.wf.unique _ _ _ hx (hf ▸ slotFd_tcp session hsock))
    · rw [os.fds, (st.os.closeAll_closes _).fds]
      by_cases ht : f = sock.fd <;> simp [Daemon.sessionFds, hsock, ht]
    · rw [os.epoll, (st.os.closeAll_closes _).epoll]
      by_cases ht : f = sock.fd <;> simp [Daemon.sessionFds, hsock, ht]
  | connect ok k s sock pending binds =>
    exact (h.extract pending).bind (hs.extracted pending).1.wf binds
  | reset ok p s t sock tcpSock device unplugs binds =>
    refine Inventory.bind ?_ (unplugs.spec hs tcpSock).1.wf binds
    rw [unplugs.hub]
    exact h.drop hs.wf unplugs.session tcpSock unplugs.os
  | resetFail p s sock tcpSock unplugs hub vhci os =>
    have hl := (unplugs.spec hs tcpSock).2.1
    rw [hub]
    refine Inventory.close (l := [sock.fd]) ?_ (by simpa using hl.unowned) os
    rw [unplugs.hub]
    exact h.drop hs.wf unplugs.session tcpSock unplugs.os

end Moves

namespace Daemon

variable {udpFd tcpServerFd : Fd} {inherited : Fd → Option FdMode} {is : List Input} {st : Daemon}

/-- What is open before the first event. -/
def OpenAtBoot (udpFd tcpServerFd : Fd) (inherited : Fd → Option FdMode) (f : Fd) : Prop :=
  inherited f ≠ none ∨ f = udpFd ∨ f = tcpServerFd

theorem run_inventory (hr : run step (boot udpFd tcpServerFd inherited) is = .ok st) :
    Inventory (OpenAtBoot udpFd tcpServerFd inherited) st.hub st.os [] := by
  have hslot : ∀ x f, slotFd (HubServer.empty udpFd tcpServerFd) x ≠ some f := by
    intro x f
    cases x <;> simp [slotFd, HubServer.empty]
  refine run_keeps (P := fun st => Inventory (OpenAtBoot udpFd tcpServerFd inherited) st.hub st.os [])
    (fun _ _ _ k a b _ ha hm h => hm.inventory ha h) ⟨fun f => ?_, fun f _ => ?_⟩
    (runAll_true _ _) hr
  · by_cases ht : f = tcpServerFd
    · simp [boot, OpenAtBoot, ht]
    · by_cases hu : f = udpFd
      · subst hu
        simp [boot, OpenAtBoot, ht]
      · simp [boot, OpenAtBoot, ht, hu, hslot]
  · exact ⟨List.not_mem_nil, fun x => hslot x f⟩

/-- In every state of every run, whichever system calls fail: a descriptor is open exactly if it
was open when the loop was entered, or it is a pending connection or one of the three
descriptors of a live session. -/
theorem open_iff_owned (hr : run step (boot udpFd tcpServerFd inherited) is = .ok st) (f : Fd) :
    st.os.fds f ≠ none ↔ OpenAtBoot udpFd tcpServerFd inherited f ∨ ∃ x, slotFd st.hub x = some f := by
  rw [(run_inventory hr).opened f]
  simp

/-- The three descriptors of a session, and the servers. -/
theorem open_of_connected : ∃ st, run step (boot 3 4 fun _ => none) connectedRun = .ok st ∧
    (∀ x f, slotFd st.hub x = some f → st.os.fds f ≠ none) ∧ st.os.fds 3 ≠ none ∧
    slotFd st.hub (.kernel 0) = some 6 := by
  obtain ⟨st, hr, hslot⟩ : ∃ st, run step (boot 3 4 fun _ => none) connectedRun = .ok st ∧
      slotFd st.hub (.kernel 0) = some 6 := ⟨_, rfl, rfl⟩
  refine ⟨st, hr, fun x f hx => (open_iff_owned hr f).mpr (.inr ⟨x, hx⟩), ?_, hslot⟩
  exact (open_iff_owned hr 3).mpr (.inl (.inr (.inl rfl)))

end Daemon
end WirelessHub
