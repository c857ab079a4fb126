import Mathlib.Logic.Relation
import WirelessHub.Daemon.Ports

/-!
# What one turn of the loop can do

A turn is a short chain of moves: a connection is accepted or dropped, a session is removed,
added, or re-attached, a port is marked, or nothing of this changes. The moves say exactly
what happens to the hub, the port table and the descriptor tables, so that every invariant
is checked once per move and never again against the code of the loop.
-/

namespace WirelessHub

open Function

/-- The session at `p` leaves while its TCP socket stays open outside of it. -/
structure Unplugs (p : SessionPtr) (s : DeviceSession) (st st' : Daemon) : Prop where
  session : st.hub.heap p = some s
  hub : st'.hub = st.hub.dropSession s.deviceId p { s with tcpSock := none }
  vhci : st'.vhci = st.vhci.freePort s.vhciPort
  os : st.os.Closes st'.os [s.vhciFd, s.kernelFd]

/-- A session comes up over a loose TCP socket, a fresh socketpair and the first free port.
The TCP socket is registered if it is `fresh`. -/
structure Binds (s : DeviceSession) (sock : TcpSocket) (fresh ok : Bool) (st st' : Daemon) :
    Prop where
  device : st.hub.sessions s.deviceId = none
  tcpSock : s.tcpSock = some sock
  handler : s.handler = some ⟨s.vhciFd, sock.fd, s.deviceId, 0⟩
  loose : Loose st.hub st.os sock.fd
  pair : s.vhciFd ≠ s.kernelFd
  vhciFree : st.os.fds s.vhciFd = none
  kernelFree : st.os.fds s.kernelFd = none
  port : ∃ port : Nat, st.vhci.freeSlot = some port ∧ s.vhciPort = port ∧
    st'.vhci = ⟨update st.vhci.ports port true⟩
  hub : st'.hub = st.hub.addSession s
  fds : st'.os.fds = update (update st.os.fds s.kernelFd (some .blocking)) s.vhciFd (some .blocking)
  epoll : st'.os.epoll = ((if fresh then st.os.epollAdd sock.fd Daemon.sessionEvents ok
    else st.os).epollAdd s.vhciFd Daemon.sessionEvents ok).epoll

def Daemon.extracted (st : Daemon) (k : Fd) : Daemon :=
  { st with hub := { st.hub with pendingTcpSocks := update st.hub.pendingTcpSocks k none } }

inductive MoveKind
  | quiet | forward | accept | dropPending | leak | resetFail
  | remove (freed : Bool)
  | connect (ok : Bool)
  | reset (ok : Bool)
  deriving DecidableEq

/-- One move of the daemon. Unread input and the trace are left open. -/
inductive Move : MoveKind → Daemon → Daemon → Prop
  | quiet {st st' : Daemon} (hub : st'.hub = st.hub) (vhci : st'.vhci = st.vhci)
      (fds : st'.os.fds = st.os.fds) (epoll : st'.os.epoll = st.os.epoll) : Move .quiet st st'
  | forward {st st' : Daemon} (p : SessionPtr) (s : DeviceSession) (h₀ h₁ : PassthroughHandler)
      (session : st.hub.heap p = some s) (handler : s.handler = some h₀)
      (same : h₁ = { h₀ with seq := h₁.seq })
      (hub : st'.hub = { st.hub with
        heap := update st.hub.heap p (some { s with handler := some h₁ }) })
      (vhci : st'.vhci = st.vhci) (fds : st'.os.fds = st.os.fds)
      (epoll : st'.os.epoll = st.os.epoll) : Move .forward st st'
  | accept {st st' : Daemon} (f : Fd) (free : st.os.fds f = none)
      (hub : st'.hub = { st.hub with
        pendingTcpSocks := update st.hub.pendingTcpSocks f (some ⟨f⟩) })
      (vhci : st'.vhci = st.vhci) (fds : st'.os.fds = (st.os.opened f .nonblocking).fds)
      (epoll : st'.os.epoll = st.os.epoll) : Move .accept st st'
  | dropPending {st st' : Daemon} (k : Fd) (sock : TcpSocket)
      (pending : st.hub.pendingTcpSocks k = some sock) (hub : st'.hub = (st.extracted k).hub)
      (vhci : st'.vhci = st.vhci) (os : st.os.Closes st'.os [sock.fd]) : Move .dropPending st st'
  | leak {st st' : Daemon} (port : Nat) (free : st.vhci.freeSlot = some port)
      (hub : st'.hub = st.hub) (vhci : st'.vhci = ⟨update st.vhci.ports port true⟩)
      (fds : st'.os.fds = st.os.fds) (epoll : st'.os.epoll = st.os.epoll) : Move .leak st st'
  | remove {st st' : Daemon} (freed : Bool) (p : SessionPtr) (s : DeviceSession)
      (session : st.hub.heap p = some s) (hub : st'.hub = st.hub.dropSession s.deviceId p s)
      (vhci : st'.vhci = if freed then st.vhci.freePort s.vhciPort else st.vhci)
      (os : st.os.Closes st'.os (Daemon.sessionFds s)) : Move (.remove freed) st st'
  | connect {st st' : Daemon} (ok : Bool) (k : Fd) (s : DeviceSession) (sock : TcpSocket)
      (pending : st.hub.pendingTcpSocks k = some sock)
      (binds : Binds s sock true ok (st.extracted k) st') : Move (.connect ok) st st'
  | reset {st mid st' : Daemon} (ok : Bool) (p : SessionPtr) (s t : DeviceSession)
      (sock : TcpSocket) (tcpSock : s.tcpSock = some sock) (device : t.deviceId = s.deviceId)
      (unplugs : Unplugs p s st mid) (binds : Binds t sock false ok mid st') : Move (.reset ok) st st'
  | resetFail {st mid st' : Daemon} (p : SessionPtr) (s : DeviceSession) (sock : TcpSocket)
      (tcpSock : s.tcpSock = some sock) (unplugs : Unplugs p s st mid) (hub : st'.hub = mid.hub)
      (vhci : st'.vhci = mid.vhci) (os : mid.os.Closes st'.os [sock.fd]) : Move .resetFail st st'

/-- A chain of moves of the kinds in `ok`. -/
def Moves (ok : MoveKind → Prop) : Daemon → Daemon → Prop :=
  Relation.ReflTransGen fun st st' => ∃ k, ok k ∧ Move k st st'

theorem Moves.refl {ok : MoveKind → Prop} (st : Daemon) : Moves ok st st :=
  Relation.ReflTransGen.refl

theorem Moves.single {ok : MoveKind → Prop} {k : MoveKind} {st st' : Daemon} (hk : ok k)
    (h : Move k st st') : Moves ok st st' :=
  Relation.ReflTransGen.single ⟨k, hk, h⟩

theorem Moves.trans {ok : MoveKind → Prop} {st mid st' : Daemon} (h : Moves ok st mid)
    (h' : Moves ok mid st') : Moves ok st st' :=
  Relation.ReflTransGen.trans h h'

/-- The invariant of every run: well-formed ownership and sound ports. -/
structure Sound (st : Daemon) : Prop where
  wf : Wf st.hub st.os
  ports : PortsOk st.hub st.vhci

section Preservation

variable {st st' : Daemon} {p : SessionPtr} {s : DeviceSession} {sock : TcpSocket}

theorem Unplugs.spec (h : Unplugs p s st st') (hs : Sound st) (hsock : s.tcpSock = some sock) :
    Sound st' ∧ Loose st'.hub st'.os sock.fd ∧ st'.hub.sessions s.deviceId = none := by
  have hwf := hs.wf.drop h.session (.inr rfl) h.os
  have hslot := slotFd_tcp h.session hsock
  have hports := hs.ports.drop (d := s.deviceId) (t := { s with tcpSock := none }) h.session true
  refine ⟨⟨h.hub ▸ hwf, ?_⟩, ⟨?_, ?_, ?_⟩, ?_⟩
  · rw [h.hub, h.vhci]
    exact hports
  · rw [h.os.fds, if_neg]
    · exact hs.wf.opened _ _ hslot
    · intro hm
      simp only [List.mem_cons, List.not_mem_nil, or_false] at hm
      rcases hm with hm | hm
      · exact absurd (hs.wf.unique _ _ _ hslot (hm ▸ slotFd_vhci h.session)) (by simp)
      · exact absurd (hs.wf.unique _ _ _ hslot (hm ▸ slotFd_kernel h.session)) (by simp)
  · rw [h.hub]
    intro x hx
    obtain ⟨hx, -, -, htc⟩ := slotFd_dropSession hx
    exact htc (hs.wf.unique _ _ _ hx hslot)
  · rw [h.hub]
    exact hs.wf.reserved _ _ hslot
  · simp [h.hub, HubServer.dropSession]

private theorem Binds.opened_pair {fresh ok : Bool} (h : Binds s sock fresh ok st st')
    (hw : Wf st.hub st.os) :
    Wf st.hub ((st.os.opened s.kernelFd .blocking).opened s.vhciFd .blocking) ∧
      Loose st.hub ((st.os.opened s.kernelFd .blocking).opened s.vhciFd .blocking) s.vhciFd ∧
      Loose st.hub ((st.os.opened s.kernelFd .blocking).opened s.vhciFd .blocking) s.kernelFd ∧
      Loose st.hub ((st.os.opened s.kernelFd .blocking).opened s.vhciFd .blocking) sock.fd := by
  obtain ⟨hw₁, hk⟩ := hw.open_free h.kernelFree .blocking
  have hv : (st.os.opened s.kernelFd .blocking).fds s.vhciFd = none := by
    simp [Os.opened, h.pair, h.vhciFree]
  obtain ⟨hw₂, hv₂⟩ := hw₁.open_free hv .blocking
  refine ⟨hw₂, hv₂, ⟨?_, hk.unowned, hk.reserved⟩, ⟨?_, h.loose.unowned, h.loose.reserved⟩⟩
  · simp [Os.opened, h.pair.symm]
  · have hk' : sock.fd ≠ s.kernelFd := fun he => h.loose.opened (he ▸ h.kernelFree)
    have hv' : sock.fd ≠ s.vhciFd := fun he => h.loose.opened (he ▸ h.vhciFree)
    simpa [Os.opened, hk', hv'] using h.loose.opened

private theorem Binds.sound {fresh ok : Bool} (h : Binds s sock fresh ok st st') (hs : Sound st) :
    Sound st' := by
  obtain ⟨port, hfree, hport, hvhci⟩ := h.port
  obtain ⟨hw, hv, hk, ht⟩ := h.opened_pair hs.wf
  have hk' : s.kernelFd ≠ sock.fd := fun he => h.loose.opened (he ▸ h.kernelFree)
  have hv' : s.vhciFd ≠ sock.fd := fun he => h.loose.opened (he ▸ h.vhciFree)
  have hadd := hw.add h.device h.tcpSock h.handler hv hk ht h.pair hv' hk' (by simp [Os.opened])
  constructor
  · rw [h.hub]
    cases fresh with
    | false =>
      refine (hadd.epollAdd hv.opened Daemon.sessionEvents ok).of_tables ?_ ?_
      · rw [h.fds, Os.epollAdd_fds]
        rfl
      · rw [h.epoll]
        cases ok <;> rfl
    | true =>
      have hreg := hadd.epollAdd ht.opened Daemon.sessionEvents ok
      refine (hreg.epollAdd (f := s.vhciFd) ?_ Daemon.sessionEvents ok).of_tables ?_ ?_
      · rw [Os.epollAdd_fds]
        exact hv.opened
      · rw [h.fds, Os.epollAdd_fds, Os.epollAdd_fds]
        rfl
      · rw [h.epoll]
        cases ok <;> rfl
  · rw [h.hub, hvhci]
    exact hs.ports.add hfree hport

theorem Sound.extracted (hs : Sound st) {k : Fd} (hk : st.hub.pendingTcpSocks k = some sock) :
    Sound (st.extracted k) ∧ Loose (st.extracted k).hub (st.extracted k).os sock.fd :=
  ⟨⟨(hs.wf.extract hk).1, ⟨hs.ports.used, hs.ports.inj⟩⟩, (hs.wf.extract hk).2⟩

theorem Move.sound {k : MoveKind} (h : Move k st st') (hs : Sound st) : Sound st' := by
  cases h with
  | quiet hub vhci fds epoll =>
    exact ⟨hub ▸ hs.wf.of_tables fds epoll, by rw [hub, vhci]; exact hs.ports⟩
  | forward p s h₀ h₁ session handler same hub vhci fds epoll =>
    refine ⟨hub ▸ (hs.wf.forward session handler ?_ ?_ ?_).of_tables fds epoll, ?_⟩
    · rw [same]
    · rw [same]
    · rw [same]
    · rw [hub, vhci]
      exact hs.ports.forward session
  | accept f free hub vhci fds epoll =>
    refine ⟨hub ▸ (hs.wf.accept free .nonblocking).of_tables fds epoll, ?_⟩
    rw [hub, vhci]
    exact ⟨hs.ports.used, hs.ports.inj⟩
  | dropPending k sock pending hub vhci os =>
    obtain ⟨hx, hl⟩ := hs.extracted pending
    refine ⟨hub ▸ hx.wf.close_loose (by simpa using hl) os, ?_⟩
    rw [hub, vhci]
    exact hx.ports
  | leak port free hub vhci fds epoll =>
    refine ⟨hub ▸ hs.wf.of_tables fds epoll, ?_⟩
    rw [hub, vhci]
    exact hs.ports.mark port
  | remove freed p s session hub vhci os =>
    refine ⟨hub ▸ hs.wf.drop session (.inl rfl) os, ?_⟩
    rw [hub, vhci]
    exact hs.ports.drop session freed
  | connect ok k s sock pending binds => exact binds.sound (hs.extracted pending).1
  | reset ok p s t sock tcpSock device unplugs binds =>
    exact binds.sound (unplugs.spec hs tcpSock).1
  | resetFail p s sock tcpSock unplugs hub vhci os =>
    obtain ⟨hm, hl, -⟩ := unplugs.spec hs tcpSock
    refine ⟨hub ▸ hm.wf.close_loose (by simpa using hl) os, ?_⟩
    rw [hub, vhci]
    exact hm.ports

theorem Moves.sound {ok : MoveKind → Prop} (h : Moves ok st st') (hs : Sound st) : Sound st' := by
  induction h with
  | refl => exact hs
  | tail _ hm ih =>
    obtain ⟨k, -, hm⟩ := hm
    exact hm.sound ih

theorem Moves.invariant {ok : MoveKind → Prop} {P : Daemon → Prop}
    (hmove : ∀ k st st', ok k → Sound st → Move k st st' → P st → P st')
    (h : Moves ok st st') (hs : Sound st) (hi : P st) : P st' := by
  have hboth : Sound st' ∧ P st' := by
    induction h with
    | refl => exact ⟨hs, hi⟩
    | tail _ hm ih =>
      obtain ⟨k, hk, hm⟩ := hm
      exact ⟨hm.sound ih.1, hmove k _ _ hk ih.1 hm ih.2⟩
  exact hboth.2

end Preservation
end WirelessHub
