import Mathlib.Data.List.Nodup
import WirelessHub.Daemon.Descriptors

/-!
# The end of `main`

After the loop `main` detaches all ports, closes the epoll descriptor and returns, which destroys
the hub and then the driver. The destructors close what is left: each descriptor once, and none
that is closed already. The driver tries every port that is still marked a second time, so a port
stays attached only if both of its writes fail. This also holds for ports that a run has lost track of.
-/

namespace WirelessHub

open Function Framework

namespace VhciDriver

/-- Detach every port that is marked; `ok` says which sysfs writes succeed. -/
def detachAll (v : VhciDriver) (ok : Nat → Bool) : VhciDriver :=
  (List.range maxPorts).foldl (fun v i => if v.ports i then (v.detach i (ok i)).2 else v) v

private theorem ports_detach (v : VhciDriver) (ok : Bool) {j : Nat} (hj : j < maxPorts) (i : Nat) :
    (if v.ports j then (v.detach j ok).2 else v).ports i =
      if i = j then v.ports i && !ok else v.ports i := by
  by_cases hv : v.ports j = true
  · rw [if_pos hv, detach_of_used (by omega) (by omega) hv]
    cases ok with
    | false => simp
    | true =>
      rw [if_pos rfl, freePort_ports v (by omega) (by omega)]
      simp
  · rw [if_neg hv]
    by_cases hij : i = j
    · subst hij
      simp [hv]
    · rw [if_neg hij]

private theorem ports_detachAll (v : VhciDriver) (ok : Nat → Bool) {i : Nat} (hi : i < maxPorts) :
    (v.detachAll ok).ports i = (v.ports i && !ok i) := by
  have hfold : ∀ (l : List Nat) (v : VhciDriver), (∀ j ∈ l, j < maxPorts) →
      (l.foldl (fun v i => if v.ports i then (v.detach i (ok i)).2 else v) v).ports i =
        if i ∈ l then v.ports i && !ok i else v.ports i := by
    intro l
    induction l with
    | nil => exact fun _ _ => rfl
    | cons j l ih =>
      intro v hl
      rw [List.foldl_cons, ih _ fun k hk => hl k (.tail j hk), ports_detach v _ (hl j List.mem_cons_self)]
      by_cases hij : i = j
      · subst hij
        by_cases hm : i ∈ l <;> simp [hm]
      · by_cases hm : i ∈ l <;> simp [hij, hm]
  rw [detachAll, hfold _ v fun j hj => List.mem_range.mp hj, if_pos (List.mem_range.mpr hi)]

end VhciDriver

/-- The order in which the two owning maps of the hub hold their entries. -/
structure MapOrder where
  pending : List Fd
  sessions : List UInt8

/-- The order goes through each entry once. -/
structure MapOrder.Of (o : MapOrder) (hub : HubServer) : Prop where
  pending_nodup : o.pending.Nodup
  pending_mem : ∀ k, k ∈ o.pending ↔ hub.pendingTcpSocks k ≠ none
  sessions_nodup : o.sessions.Nodup
  sessions_mem : ∀ d, d ∈ o.sessions ↔ hub.sessions d ≠ none

namespace HubServer

def pendingFds (hub : HubServer) (o : MapOrder) : List Fd :=
  o.pending.filterMap fun k => (hub.pendingTcpSocks k).map TcpSocket.fd

def allSessionFds (hub : HubServer) (o : MapOrder) : List Fd :=
  o.sessions.flatMap fun d => (((hub.sessions d).bind hub.heap).map Daemon.sessionFds).getD []

/-- What `~HubServer` closes: the members go in the reverse order of their declaration. -/
def destroyedFds (hub : HubServer) (o : MapOrder) : List Fd :=
  hub.pendingFds o ++ hub.allSessionFds o ++ [hub.tcpServerFd, hub.udpFd]

end HubServer

/-- The end of `main`, with the epoll descriptor and the descriptor of `/dev/vhci`. `first` and
`second` say which detach writes of the two rounds succeed. -/
def Daemon.shutdown (st : Daemon) (epfd vhciFd : Fd) (o : MapOrder) (first second : Nat → Bool) :
    VhciDriver × Os :=
  let vhci := st.vhci.detachAll first
  let os := (st.os.close epfd).closeAll (st.hub.destroyedFds o)
  (vhci.detachAll second, os.close vhciFd)

section Closing

variable {hub : HubServer} {os : Os} {o : MapOrder} {f : Fd}

private theorem mem_pendingFds (ho : o.Of hub) : f ∈ hub.pendingFds o ↔ ∃ k, slotFd hub (.pending k) = some f := by
  simp only [HubServer.pendingFds, List.mem_filterMap, slotFd]
  constructor
  · rintro ⟨k, -, hk⟩
    exact ⟨k, hk⟩
  · rintro ⟨k, hk⟩
    refine ⟨k, (ho.pending_mem k).mpr fun hn => ?_, hk⟩
    simp [hn] at hk

def Slot.OfSession (p : SessionPtr) (x : Slot) : Prop := x = .vhci p ∨ x = .kernel p ∨ x = .tcp p

private theorem mem_sessionFds {p : SessionPtr} {s : DeviceSession} (hs : hub.heap p = some s) :
    f ∈ Daemon.sessionFds s ↔ ∃ x, x.OfSession p ∧ slotFd hub x = some f := by
  constructor
  · intro hf
    obtain ⟨x, hx, hp⟩ := Wf.sessionFds_slot hs (.inl rfl) hf
    exact ⟨x, hp, hx⟩
  · rintro ⟨x, rfl | rfl | rfl, hx⟩
    · rw [slotFd_vhci hs, Option.some.injEq] at hx
      simp [Daemon.sessionFds, hx]
    · rw [slotFd_kernel hs, Option.some.injEq] at hx
      simp [Daemon.sessionFds, hx]
    · simp only [slotFd, hs, Option.bind_some] at hx
      simp [Daemon.sessionFds, hx]

private theorem mem_allSessionFds (hw : Wf hub os) (ho : o.Of hub) :
    f ∈ hub.allSessionFds o ↔ ∃ p x, x.OfSession p ∧ slotFd hub x = some f := by
  simp only [HubServer.allSessionFds, List.mem_flatMap]
  constructor
  · rintro ⟨d, hd, hf⟩
    obtain ⟨p, hp⟩ := Option.ne_none_iff_exists'.mp ((ho.sessions_mem d).mp hd)
    obtain ⟨s, hs, -⟩ := hw.live d p hp
    simp only [hp, Option.bind_some, hs, Option.map_some, Option.getD_some] at hf
    exact ⟨p, (mem_sessionFds hs).mp hf⟩
  · rintro ⟨p, x, hx, hf⟩
    have hheap : hub.heap p ≠ none := by
      intro hn
      rcases hx with rfl | rfl | rfl <;> simp [slotFd, hn] at hf
    obtain ⟨s, hs⟩ := Option.ne_none_iff_exists'.mp hheap
    have hp := hw.owned p s hs
    refine ⟨s.deviceId, (ho.sessions_mem _).mpr (by simp [hp]), ?_⟩
    simp only [hp, Option.bind_some, hs, Option.map_some, Option.getD_some]
    exact (mem_sessionFds hs).mpr ⟨x, hx, hf⟩

private theorem nodup_sessionFds (hw : Wf hub os) {p : SessionPtr} {s : DeviceSession}
    (hs : hub.heap p = some s) : (Daemon.sessionFds s).Nodup := by
  obtain ⟨sock, -, hsock, -⟩ := hw.usable p s hs
  have hne : ∀ {x y : Slot} {f g : Fd}, slotFd hub x = some f → slotFd hub y = some g → x ≠ y → f ≠ g := by
    rintro x y f g hx hy hxy rfl
    exact hxy (hw.unique _ _ _ hx hy)
  have hvk := hne (slotFd_vhci hs) (slotFd_kernel hs) (by simp)
  have hvt := hne (slotFd_vhci hs) (slotFd_tcp hs hsock) (by simp)
  have hkt := hne (slotFd_kernel hs) (slotFd_tcp hs hsock) (by simp)
  simp [Daemon.sessionFds, hsock, hvk, hvt, hkt]

private theorem nodup_allSessionFds (hw : Wf hub os) (ho : o.Of hub) :
    (hub.allSessionFds o).Nodup := by
  refine List.nodup_flatMap.mpr ⟨fun d hd => ?_, ho.sessions_nodup.imp_of_mem fun {d c} hd hc hdc => ?_⟩
  · obtain ⟨p, hp⟩ := Option.ne_none_iff_exists'.mp ((ho.sessions_mem d).mp hd)
    obtain ⟨s, hs, -⟩ := hw.live d p hp
    simp only [hp, Option.bind_some, hs, Option.map_some, Option.getD_some]
    exact nodup_sessionFds hw hs
  · obtain ⟨p, hp⟩ := Option.ne_none_iff_exists'.mp ((ho.sessions_mem d).mp hd)
    obtain ⟨q, hq⟩ := Option.ne_none_iff_exists'.mp ((ho.sessions_mem c).mp hc)
    obtain ⟨s, hs, hsd⟩ := hw.live d p hp
    obtain ⟨t, ht, htc⟩ := hw.live c q hq
    intro f hf hg
    simp only [hp, Option.bind_some, hs, Option.map_some, Option.getD_some] at hf
    simp only [hq, Option.bind_some, ht, Option.map_some, Option.getD_some] at hg
    obtain ⟨x, hx, hxf⟩ := (mem_sessionFds hs).mp hf
    obtain ⟨y, hy, hyf⟩ := (mem_sessionFds ht).mp hg
    have hpq : p = q := by
      have hxy := hw.unique _ _ _ hxf hyf
      rcases hx with rfl | rfl | rfl <;> rcases hy with rfl | rfl | rfl <;> cases hxy <;> rfl
    subst hpq
    rw [hs, Option.some.injEq] at ht
    exact hdc (by rw [← hsd, ← htc, ht])

private theorem nodup_pendingFds (hw : Wf hub os) (ho : o.Of hub) : (hub.pendingFds o).Nodup := by
  refine ho.pending_nodup.filterMap fun k q f hk hq => ?_
  have hslots := hw.unique (.pending k) (.pending q) f (by simpa [slotFd] using hk) (by simpa [slotFd] using hq)
  exact Slot.pending.inj hslots

private theorem mem_destroyedFds (hw : Wf hub os) (ho : o.Of hub) :
    f ∈ hub.destroyedFds o ↔ (f = hub.udpFd ∨ f = hub.tcpServerFd) ∨ ∃ x, slotFd hub x = some f := by
  simp only [HubServer.destroyedFds, List.mem_append, mem_pendingFds ho, mem_allSessionFds hw ho,
    List.mem_cons, List.not_mem_nil, or_false]
  constructor
  · rintro ((⟨k, hk⟩ | ⟨p, x, -, hx⟩) | hf | hf)
    · exact .inr ⟨_, hk⟩
    · exact .inr ⟨x, hx⟩
    · exact .inl (.inr hf)
    · exact .inl (.inl hf)
  · rintro ((hf | hf) | ⟨x, hx⟩)
    · exact .inr (.inr hf)
    · exact .inr (.inl hf)
    · cases x with
      | pending k => exact .inl (.inl ⟨k, hx⟩)
      | tcp p => exact .inl (.inr ⟨p, _, .inr (.inr rfl), hx⟩)
      | vhci p => exact .inl (.inr ⟨p, _, .inl rfl, hx⟩)
      | kernel p => exact .inl (.inr ⟨p, _, .inr (.inl rfl), hx⟩)

private theorem nodup_destroyedFds (hw : Wf hub os) (hservers : hub.udpFd ≠ hub.tcpServerFd) (ho : o.Of hub) :
    (hub.destroyedFds o).Nodup := by
  refine List.nodup_append.mpr ⟨List.nodup_append.mpr ⟨nodup_pendingFds hw ho, nodup_allSessionFds hw ho, ?_⟩,
    by simpa using hservers.symm, ?_⟩
  · rintro f hf g hg rfl
    obtain ⟨k, hk⟩ := (mem_pendingFds ho).mp hf
    obtain ⟨p, x, hx, hxf⟩ := (mem_allSessionFds hw ho).mp hg
    have hkx := hw.unique _ _ _ hk hxf
    rcases hx with rfl | rfl | rfl <;> cases hkx
  · rintro f hf g hg rfl
    obtain ⟨x, hx⟩ : ∃ x, slotFd hub x = some f := by
      rcases List.mem_append.mp hf with hf | hf
      · obtain ⟨k, hk⟩ := (mem_pendingFds ho).mp hf
        exact ⟨_, hk⟩
      · obtain ⟨p, x, -, hx⟩ := (mem_allSessionFds hw ho).mp hf
        exact ⟨x, hx⟩
    have hres := hw.reserved x f hx
    simp only [List.mem_cons, List.not_mem_nil, or_false] at hg
    exact hg.elim hres.2 hres.1

end Closing

namespace Daemon

variable {udpFd tcpServerFd epfd vhciFd : Fd} {inherited : Fd → Option FdMode} {is : List Input}
  {st : Daemon} {o : MapOrder}

/-- The driver and `main` have opened a descriptor each before the hub has opened its servers. -/
structure Started (udpFd tcpServerFd epfd vhciFd : Fd) (inherited : Fd → Option FdMode) : Prop where
  epfd_open : inherited epfd ≠ none
  vhci_open : inherited vhciFd ≠ none
  epfd_ne_vhci : epfd ≠ vhciFd
  udp_fresh : inherited udpFd = none
  server_fresh : inherited tcpServerFd = none
  servers : udpFd ≠ tcpServerFd

/-- The descriptors that are closed after the loop, in order. -/
def closedAtExit (st : Daemon) (epfd vhciFd : Fd) (o : MapOrder) : List Fd :=
  [epfd] ++ st.hub.destroyedFds o ++ [vhciFd]

private theorem shutdown_os (st : Daemon) (epfd vhciFd : Fd) (o : MapOrder)
    (first second : Nat → Bool) :
    (st.shutdown epfd vhciFd o first second).2 = st.os.closeAll (closedAtExit st epfd vhciFd o) := by
  simp [shutdown, closedAtExit, Os.closeAll]

section Exit

variable (hstart : Started udpFd tcpServerFd epfd vhciFd inherited)
  (hr : run step (boot udpFd tcpServerFd inherited) is = .ok st) (ho : o.Of st.hub)

include hr ho in
private theorem mem_closedAtExit (epfd vhciFd f : Fd) : f ∈ closedAtExit st epfd vhciFd o ↔
    f = epfd ∨ f = vhciFd ∨ (f = udpFd ∨ f = tcpServerFd) ∨ ∃ x, slotFd st.hub x = some f := by
  obtain ⟨hs, hudp, htcp⟩ := run_servers (boot_sound udpFd tcpServerFd inherited) hr
  simp only [closedAtExit, List.mem_append, List.mem_singleton, mem_destroyedFds hs.wf ho, hudp, htcp]
  change (f = epfd ∨ (f = udpFd ∨ f = tcpServerFd) ∨ _) ∨ f = vhciFd ↔ _
  tauto

include hstart hr ho in
private theorem nodup_closedAtExit : (closedAtExit st epfd vhciFd o).Nodup := by
  obtain ⟨hs, hudp, htcp⟩ := run_servers (boot_sound udpFd tcpServerFd inherited) hr
  have hacc := run_inventory hr
  have hapart : ∀ f, inherited f ≠ none → f ∉ st.hub.destroyedFds o := by
    intro f hf hm
    rcases (mem_destroyedFds hs.wf ho).mp hm with (he | he) | ⟨x, hx⟩
    · exact hf ((he.trans hudp) ▸ hstart.udp_fresh)
    · exact hf ((he.trans htcp) ▸ hstart.server_fresh)
    · exact (hacc.apart f (.inl hf)).2 x hx
  have hservers : st.hub.udpFd ≠ st.hub.tcpServerFd := by
    rw [hudp, htcp]
    exact hstart.servers
  simp only [closedAtExit, List.nodup_append, List.nodup_singleton, List.mem_append, List.mem_singleton,
    nodup_destroyedFds hs.wf hservers ho, true_and]
  refine ⟨?_, ?_⟩
  · rintro f rfl g hg rfl
    exact hapart f hstart.epfd_open hg
  · rintro f (rfl | hf) g rfl rfl
    · exact hstart.epfd_ne_vhci rfl
    · exact hapart _ hstart.vhci_open hf

/-- After every run, in whatever order the maps hold their entries: the end of `main` closes each
descriptor once and none that is closed already, leaves open exactly what was open before `main`,
and leaves a port attached only if it was marked and its detach failed twice. -/
theorem shutdown_complete (hstart : Started udpFd tcpServerFd epfd vhciFd inherited)
    (hr : run step (boot udpFd tcpServerFd inherited) is = .ok st) (ho : o.Of st.hub)
    (first second : Nat → Bool) :
    ((closedAtExit st epfd vhciFd o).Nodup ∧
        ∀ f ∈ closedAtExit st epfd vhciFd o, st.os.fds f ≠ none) ∧
      (∀ f, (st.shutdown epfd vhciFd o first second).2.fds f ≠ none ↔
        inherited f ≠ none ∧ f ≠ epfd ∧ f ≠ vhciFd) ∧
      ∀ i < maxPorts, (st.shutdown epfd vhciFd o first second).1.ports i = true ↔
        st.vhci.ports i = true ∧ first i = false ∧ second i = false := by
  have hacc := run_inventory hr
  refine ⟨⟨nodup_closedAtExit hstart hr ho, fun f hf => (hacc.opened f).mpr ?_⟩, fun f => ?_, fun i hi => ?_⟩
  · rcases (mem_closedAtExit hr ho epfd vhciFd f).mp hf with rfl | rfl | hserver | hslot
    · exact .inl (.inl hstart.epfd_open)
    · exact .inl (.inl hstart.vhci_open)
    · exact .inl (.inr hserver)
    · exact .inr (.inr hslot)
  · rw [shutdown_os, (Os.closeAll_closes _ _).fds]
    have hmem := mem_closedAtExit hr ho epfd vhciFd f
    by_cases hm : f ∈ closedAtExit st epfd vhciFd o
    · refine iff_of_false (by simp [hm]) ?_
      rintro ⟨hin, hep, hvhci⟩
      rcases hmem.mp hm with he | he | (rfl | rfl) | ⟨x, hx⟩
      · exact hep he
      · exact hvhci he
      · exact hin hstart.udp_fresh
      · exact hin hstart.server_fresh
      · exact (hacc.apart f (.inl hin)).2 x hx
    · rw [if_neg hm, hacc.opened f]
      rw [hmem] at hm
      simp only [OpenAtBoot, List.not_mem_nil, false_or]
      tauto
  · rw [shutdown]
    simp only [VhciDriver.ports_detachAll _ _ hi]
    cases st.vhci.ports i <;> cases first i <;> cases second i <;> decide

/-- A client has connected and another one is pending when the daemon is stopped. The detach of
port 0 fails once. -/
theorem shutdown_of_two_clients :
    ∃ st, run step (boot 3 4 fun f => if f < 3 then some .blocking else none)
        (connectedRun ++ [acceptInput 4 8]) = .ok st ∧
      closedAtExit st 2 1 ⟨[8], [0]⟩ = [2, 8, 7, 6, 5, 4, 3, 1] ∧
      (∀ f : Nat, (st.shutdown 2 1 ⟨[8], [0]⟩ (fun _ => false) fun _ => true).2.fds f ≠ none → f = 0) ∧
      (st.shutdown 2 1 ⟨[8], [0]⟩ (fun _ => false) fun _ => true).1.ports 0 = false := by
  obtain ⟨st, hr, hpend, hsess, hclosed⟩ : ∃ st,
      run step (boot 3 4 fun f => if f < 3 then some .blocking else none)
        (connectedRun ++ [acceptInput 4 8]) = .ok st ∧
      st.hub.pendingTcpSocks = update (update (update (fun _ => none) 5 (some ⟨5⟩)) 5 none) 8 (some ⟨8⟩) ∧
      st.hub.sessions = update (fun _ => none) 0 (some 0) ∧
      closedAtExit st 2 1 ⟨[8], [0]⟩ = [2, 8, 7, 6, 5, 4, 3, 1] := ⟨_, rfl, rfl, rfl, rfl⟩
  have hstart : Started 3 4 2 1 fun f => if f < 3 then some FdMode.blocking else none :=
    ⟨by decide, by decide, by decide, by decide, by decide, by decide⟩
  have ho : MapOrder.Of ⟨[8], [0]⟩ st.hub := by
    refine ⟨by simp, fun k => ?_, by simp, fun d => ?_⟩
    · rw [hpend]
      by_cases hk : k = 8 <;> by_cases hk' : k = 5 <;> simp [hk, hk']
    · rw [hsess]
      by_cases hd : d = 0 <;> simp [hd]
  obtain ⟨-, hfds, hports⟩ := shutdown_complete hstart hr ho (fun _ => false) fun _ => true
  refine ⟨st, hr, hclosed, fun f hf => ?_, ?_⟩
  · obtain ⟨hin, h2, h1⟩ := (hfds f).mp hf
    have hlt : f < 3 := by
      by_contra hge
      simp [hge] at hin
    have hother : f ≠ 2 ∧ f ≠ 1 := ⟨h2, h1⟩
    omega
  · rw [← Bool.not_eq_true, hports 0 (by decide)]
    simp

end Exit
end Daemon
end WirelessHub
