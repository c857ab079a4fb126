import WirelessHub.Daemon.Connecting
import WirelessHub.Framework.FirstClaim

/-!
# Device events on one connection

A client that reports the events of all its devices on one connection. The daemon gives the
connection to the device of the first `CONNECT`, and closes it with the next event of this
device. To the events of other devices it does nothing, so for a daemon with this client alone
the connection is a resource for the first who claims it.
-/

namespace WirelessHub

open Function Framework

def DeviceEvent.opens : DeviceEvent → Bool
  | .connect => true
  | .disconnect => false

/-- The packet reports an event of a device. -/
structure Reports (hdr : Header) (payload : List UInt8) (x : UInt8 × DeviceEvent) : Prop where
  cmd : hdr.cmdType = CmdType.deviceEvent.toByte
  size : DeviceEventPayload.size ≤ payload.length
  device : (DeviceEventPayload.decode payload).deviceId = x.1
  event : (DeviceEventPayload.decode payload).event = x.2.toByte

namespace Daemon

variable {st st' : Daemon} {c : Fd} {ph : FirstClaim UInt8} {x : UInt8 × DeviceEvent} {hdr : Header}
  {payload : List UInt8} {sys : Syscalls}

/-- Where the only connection `c` of the daemon stands: pending, bound to a device, or closed.
There is no session but the one of that device. -/
def AtPhase (c : Fd) (st : Daemon) : FirstClaim UInt8 → Prop
  | .fresh => slotFd st.hub (.pending c) = some c ∧ (∀ d, st.hub.sessions d = none) ∧ st.os.rx c = []
  | .bound d => BoundTo st.hub c d ∧ (∀ d', d' ≠ d → st.hub.sessions d' = none) ∧ st.os.rx c = []
  | .dead => st.os.fds c = none ∧ ∀ d, st.hub.sessions d = none

theorem sessions_of_atPhase (h : AtPhase c st ph) (d : UInt8) :
    st.hub.sessions d ≠ none ↔ ph = .bound d := by
  cases ph with
  | fresh => simp [h.2.1 d]
  | dead => simp [h.2 d]
  | bound d' =>
    by_cases hd : d = d'
    · obtain ⟨p, hp, -⟩ := h.1
      simp [hd, hp]
    · simp [h.2.1 d hd, Ne.symm hd]

private theorem evict_of_none {d : UInt8} (h : st.hub.sessions d = none) (sys : Syscalls) :
    st.evict d sys = st := by
  simp [evict, HubServer.findByDeviceId, h]

private theorem pending_none_of_boundTo {d : UInt8} (hs : Sound st) (h : BoundTo st.hub c d) :
    st.hub.pendingTcpSocks c = none := by
  by_contra hne
  obtain ⟨p, -, hslot⟩ := h
  exact absurd (hs.wf.unique _ _ _ (hs.wf.slotFd_pending_self hne) hslot) (by simp)

private theorem handlePacket_ends (hs : Sound st) (hends : Ends st.hub c (hdr, payload))
    (h : st.handlePacket c hdr payload sys = .ok st') : st'.os.fds c = none := by
  obtain ⟨⟨hev, hlen, hkind⟩, hb⟩ := hends
  have hclosed : (st.onDisconnect (DeviceEventPayload.decode payload).deviceId sys).os.fds c = none := by
    obtain ⟨p, hp, hslot⟩ := hb
    obtain ⟨s, hheap, -⟩ := exists_session_of_slot hslot
    obtain ⟨sock, -, he⟩ := onDisconnect_of_some hs hp hheap sys
    rw [he]
    exact closeAll_sessionFds_closes hheap hslot
  rcases hkind with hcon | hdis
  · obtain ⟨he, -, hpend⟩ := evict_spec hs (DeviceEventPayload.decode payload).deviceId sys
    rw [handlePacket_of_connect ⟨hev, hlen, hcon⟩, Except.ok.injEq] at h
    subst h
    rw [← he] at hclosed
    simp only [onConnectEvent, hpend, pending_none_of_boundTo hs hb]
    exact hclosed
  · rw [handlePacket_of_disconnect ⟨hev, hlen, hdis⟩, Except.ok.injEq] at h
    exact h ▸ hclosed

private theorem atPhase_dead (hs : Sound st) (hp : AtPhase c st (.bound x.1))
    (hrep : Reports hdr payload x) (h : st.handlePacket c hdr payload sys = .ok st')
    (hgone : st'.hub.sessions x.1 = none)
    (hsame : ∀ d, d ≠ x.1 → SameSession d st.hub st'.hub) : AtPhase c st' .dead := by
  have hends : Ends st.hub c (hdr, payload) := by
    refine ⟨⟨hrep.cmd, hrep.size, ?_⟩, hrep.device.symm ▸ hp.1⟩
    rw [hrep.event]
    cases x.2
    · exact .inl rfl
    · exact .inr rfl
  refine ⟨handlePacket_ends hs hends h, fun d => ?_⟩
  by_cases hd : d = x.1
  · rw [hd, hgone]
  · rw [(hsame d hd).sessions, hp.2.1 d hd]

private theorem atPhase_bound (hs : Sound st) {d : UInt8} (hp : AtPhase c st .fresh)
    (h : st.handlePacket c hdr payload sys = .ok st') (hb : BoundTo st'.hub c d)
    (hsame : ∀ d', d' ≠ d → SameSession d' st.hub st'.hub) : AtPhase c st' (.bound d) := by
  refine ⟨hb, fun d' hd => (hsame d' hd).sessions.trans (hp.2.1 d'), ?_⟩
  have hends : ¬Ends st.hub c (hdr, payload) := by
    rintro ⟨-, p, hsess, -⟩
    simp [hp.2.1] at hsess
  exact (handlePacket_keeps hs (.inl hp.1) hends h).2.rx.trans hp.2.2

private theorem handlePacket_connects {d : UInt8} (hs : Sound st) (hc : c < 65536)
    (hp : AtPhase c st ph) (hne : ph ≠ .dead) (hrep : Reports hdr payload (d, .connect))
    (hok : st.hub.pendingTcpSocks c ≠ none → AttachOk st sys)
    (h : st.handlePacket c hdr payload sys = .ok st') :
    AtPhase c st' (ph.next DeviceEvent.opens (d, .connect)) := by
  obtain rfl := hrep.device
  have hst : st' = st.onConnectEvent c (.decode payload) sys := by
    rw [handlePacket_of_connect ⟨hrep.cmd, hrep.size, hrep.event⟩, Except.ok.injEq] at h
    exact h.symm
  have hsame : ∀ d, d ≠ (DeviceEventPayload.decode payload).deviceId →
      SameSession d st.hub st'.hub :=
    fun d hd => hst ▸ onConnectEvent_sameSession hs hd c sys
  cases ph with
  | dead => exact absurd rfl hne
  | fresh =>
    have hpend : st.hub.pendingTcpSocks c ≠ none := fun hn => absurd hp.1 (by simp [slotFd, hn])
    have hevict := evict_of_none (hp.2.1 (DeviceEventPayload.decode payload).deviceId) sys
    refine atPhase_bound hs hp h ?_ hsame
    rw [hst]
    exact (onConnectEvent_boundTo_iff hs (hevict.symm ▸ hok hpend)).mpr ⟨hpend, hc⟩
  | bound d =>
    obtain ⟨-, hgone, hpend⟩ := evict_spec hs (DeviceEventPayload.decode payload).deviceId sys
    have hevict : st' = st.evict (DeviceEventPayload.decode payload).deviceId sys := by
      rw [hst]
      simp only [onConnectEvent, hpend, pending_none_of_boundTo hs hp.1]
    by_cases hd : (DeviceEventPayload.decode payload).deviceId = d
    · rw [FirstClaim.next, if_pos hd]
      rw [← hd] at hp
      exact atPhase_dead hs hp hrep h (hevict ▸ hgone) hsame
    · rw [FirstClaim.next, if_neg hd, hevict, evict_of_none (hp.2.1 _ hd)]
      exact hp

private theorem handlePacket_disconnects {d : UInt8} (hs : Sound st) (hp : AtPhase c st ph)
    (hne : ph ≠ .dead) (hrep : Reports hdr payload (d, .disconnect))
    (h : st.handlePacket c hdr payload sys = .ok st') :
    AtPhase c st' (ph.next DeviceEvent.opens (d, .disconnect)) := by
  obtain rfl := hrep.device
  have hst : st' = st.onDisconnect (DeviceEventPayload.decode payload).deviceId sys := by
    rw [handlePacket_of_disconnect ⟨hrep.cmd, hrep.size, hrep.event⟩, Except.ok.injEq] at h
    exact h.symm
  cases ph with
  | dead => exact absurd rfl hne
  | fresh =>
    rw [hst, onDisconnect_of_none (hp.2.1 _)]
    exact hp
  | bound d =>
    by_cases hd : (DeviceEventPayload.decode payload).deviceId = d
    · rw [FirstClaim.next, if_pos hd]
      rw [← hd] at hp
      refine atPhase_dead hs hp hrep h ?_ fun d hd => hst ▸ onDisconnect_sameSession hs hd sys
      rw [hst]
      exact (onDisconnect_moves hs _ sys).2.1
    · rw [FirstClaim.next, if_neg hd, hst, onDisconnect_of_none (hp.2.1 _ hd)]
      exact hp

/-- No client was accepted so far. -/
structure Idle (st : Daemon) : Prop where
  servers : st.hub.tcpServerFd ≠ st.hub.udpFd
  sessions : ∀ d, st.hub.sessions d = none
  rx : ∀ f, st.os.rx f = []

theorem step_accepts (hs : Sound st) (hi : Idle st) (hfree : st.os.fds c = none) :
    ∃ st', step st (acceptInput st.hub.tcpServerFd c) = .ok st' ∧ Sound st' ∧ AtPhase c st' .fresh := by
  have hroute : (st.arrived (acceptInput st.hub.tcpServerFd c)).hub.route st.hub.tcpServerFd =
      .server := by
    simp [arrived, HubServer.route, hi.servers]
  have hfds : (st.arrived (acceptInput st.hub.tcpServerFd c)).os.fds c = none := hfree
  have hstep : step st (acceptInput st.hub.tcpServerFd c) =
      .ok ((st.arrived (acceptInput st.hub.tcpServerFd c)).onTcpAccept { accept := some c }) := by
    change (st.arrived _).handleEvent st.hub.tcpServerFd _ _ = _
    rw [handleEvent_route, hroute]
    rfl
  refine ⟨_, hstep, step_sound hs hstep, ?_⟩
  simp only [onTcpAccept, Os.accept4, hfds, if_true]
  refine ⟨by simp [slotFd], hi.sessions, ?_⟩
  by_cases hc : c = st.hub.tcpServerFd <;>
    simp [arrived, Os.deliver, Os.opened, acceptInput, hc, hi.rx]

/-- The next packet of the connection has arrived whole. -/
def packetInput (c : Fd) (pkt : List UInt8) (sys : Syscalls) : Input where
  fd := c
  evts := { epollin := true }
  arrivals := leftover pkt []
  sys := sys

private theorem socketpair_ne_none_of_fds {os : Os} (os' : Os) (hf : os'.fds = os.fds) {flag : Bool}
    {answer : Option (Fd × Fd)} (h : os.socketpair flag answer ≠ none) :
    os'.socketpair flag answer ≠ none := by
  cases answer with
  | none => exact absurd rfl h
  | some ab =>
    simp only [Os.socketpair, hf] at h ⊢
    split_ifs at h ⊢ with hfree
    · exact Option.some_ne_none _
    · exact absurd rfl h

theorem connected_of_atPhase (hp : AtPhase c st ph) (hne : ph ≠ .dead) :
    Connected st.hub c ∧ st.os.rx c = [] := by
  cases ph with
  | dead => exact absurd rfl hne
  | fresh => exact ⟨.inl hp.1, hp.2.2⟩
  | bound d =>
    obtain ⟨⟨p, -, hslot⟩, -, hrx⟩ := hp
    exact ⟨.inr ⟨p, hslot⟩, hrx⟩

/-- A turn that reads a report moves the connection as the abstract resource moves. -/
theorem step_reports {pkt : List UInt8} (hs : Sound st) (hc : c < 65536) (hp : AtPhase c st ph)
    (hne : ph ≠ .dead) (hpkt : readPacket (leftover pkt []) = (.packet hdr payload, []))
    (hrep : Reports hdr payload x) (hok : st.hub.pendingTcpSocks c ≠ none → AttachOk st sys) :
    ∃ st', step st (packetInput c pkt sys) = .ok st' ∧ Sound st' ∧
      AtPhase c st' (ph.next DeviceEvent.opens x) := by
  obtain ⟨hcon, hrx⟩ := connected_of_atPhase hp hne
  have hread : (st.arrived (packetInput c pkt sys)).readTcpPacket c = (.packet hdr payload, []) := by
    rw [readTcpPacket_of_connected (arrived_sound hs _) hcon, ← hpkt]
    simp [arrived, Os.deliver, packetInput, hrx]
  have hreads : Reads st (packetInput c pkt sys) hdr payload :=
    ⟨⟨rfl, (route_of_connected hs hcon).imp_right (Exists.imp fun p hp => ⟨hp, rfl⟩)⟩,
      congrArg Prod.fst hread⟩
  have hq := received_quiet st (packetInput c pkt sys) hdr payload
  have hrx' : (st.received (packetInput c pkt sys) hdr payload).os.rx c = [] := by
    have hrest := congrArg Prod.snd hread
    simpa [received, emit, Os.emit, Os.setRx, packetInput] using hrest
  have hp' : AtPhase c (st.received (packetInput c pkt sys) hdr payload) ph := by
    cases ph with
    | dead => exact hp
    | fresh => exact ⟨hp.1, hp.2.1, hrx'⟩
    | bound d => exact ⟨hp.1, hp.2.1, hrx'⟩
  have hok' : (st.received (packetInput c pkt sys) hdr payload).hub.pendingTcpSocks c ≠ none →
      AttachOk (st.received (packetInput c pkt sys) hdr payload) sys :=
    fun hpend => ⟨socketpair_ne_none_of_fds _ (by rfl) (hok hpend).pair, (hok hpend).port⟩
  obtain ⟨st', hstep⟩ : ∃ st', step st (packetInput c pkt sys) = .ok st' := by
    refine ((step_of_packet hs hreads).resolve_left fun hb => ?_).2
    have hev := hrep.cmd.symm.trans hb.1.1
    exact absurd hev (by decide)
  have h := (step_of_reads hreads).symm.trans hstep
  refine ⟨st', hstep, step_sound hs hstep, ?_⟩
  obtain ⟨d, ev⟩ := x
  cases ev with
  | connect => exact handlePacket_connects (hq.sound hs) hc hp' hne hrep hok' h
  | disconnect => exact handlePacket_disconnects (hq.sound hs) hp' hne hrep h

end Daemon
end WirelessHub
