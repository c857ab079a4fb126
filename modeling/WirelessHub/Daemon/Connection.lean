import WirelessHub.Daemon.Receiving
import WirelessHub.Daemon.Runs

/-!
# One client connection

The events of one connection as the loop sees them: a readable connection is handed to the
packet reader, which either returns in the same turn or waits in it. The reader waits
whenever what has arrived ends inside a header or inside a payload.
-/

namespace WirelessHub

open Function Framework

/-- The hub owns `c` as the socket of a client, pending or bound to a session. -/
def Connected (hub : HubServer) (c : Fd) : Prop :=
  slotFd hub (.pending c) = some c ∨ ∃ p, slotFd hub (.tcp p) = some c

namespace Daemon

variable {st st' : Daemon} {i : Input} {c : Fd}

theorem exists_session_of_slot {p : SessionPtr} (h : slotFd st.hub (.tcp p) = some c) :
    ∃ s, st.hub.heap p = some s ∧ s.tcpSock = some ⟨c⟩ := by
  simp only [slotFd, Option.bind_eq_some_iff, Option.map_eq_some_iff] at h
  obtain ⟨s, hp, ⟨fd⟩, hsock, rfl⟩ := h
  exact ⟨s, hp, hsock⟩

theorem tcpFdMap_of_slot (hs : Sound st) {p : SessionPtr} (h : slotFd st.hub (.tcp p) = some c) :
    st.hub.tcpFdMap c = some p := by
  obtain ⟨s, hp, hsock⟩ := exists_session_of_slot h
  obtain ⟨sock, -, hsock', -, hmap, -⟩ := hs.wf.usable p s hp
  obtain rfl := Option.some.inj (hsock'.symm.trans hsock)
  exact hmap

theorem route_of_connected (hs : Sound st) (hc : Connected st.hub c) :
    st.hub.route c = .other ∨ ∃ p, st.hub.route c = .tcp p := by
  obtain ⟨x, hx, hxv⟩ : ∃ x, slotFd st.hub x = some c ∧ ∀ p, x ≠ .vhci p := by
    rcases hc with h | ⟨p, h⟩
    · exact ⟨_, h, by simp⟩
    · exact ⟨_, h, by simp⟩
  obtain ⟨hudp, hserver⟩ := hs.wf.reserved x c hx
  have hvhci : st.hub.vhciFdMap c = none := by
    by_contra hne
    obtain ⟨p, hp⟩ := Option.ne_none_iff_exists'.mp hne
    obtain ⟨s, hheap, rfl⟩ := (hs.wf.vhciMap c p).mp hp
    exact hxv p (hs.wf.unique _ _ _ hx (slotFd_vhci hheap))
  simp only [HubServer.route, HubServer.findByTcpFd, HubServer.findByVhciFd, hudp, hserver,
    if_false, hvhci]
  cases st.hub.tcpFdMap c with
  | none => exact .inl rfl
  | some p => exact .inr ⟨p, rfl⟩

theorem readTcpPacket_of_connected (hs : Sound st) (hc : Connected st.hub c) :
    st.readTcpPacket c = readPacket (st.os.rx c) := by
  cases hk : st.hub.pendingTcpSocks c with
  | some sock => simp [readTcpPacket, hk]
  | none =>
    rcases hc with h | ⟨p, h⟩
    · simp [slotFd, hk] at h
    · obtain ⟨s, hp, hsock⟩ := exists_session_of_slot h
      simp [readTcpPacket, hk, tcpFdMap_of_slot hs h, hp, hsock]

/-- A packet is handled to its end, or the daemon stays in the `write` of its data. -/
theorem handlePacket_returns (hs : Sound st) (fd : Fd) (hdr : Header) (payload : List UInt8)
    (sys : Syscalls) :
    (Blocks st.hub hdr payload sys ∧ st.handlePacket fd hdr payload sys = .error .waiting) ∨
      (¬Blocks st.hub hdr payload sys ∧ ∃ st', st.handlePacket fd hdr payload sys = .ok st') := by
  by_cases hraw : hdr.cmdType = CmdType.rawData.toByte
  · have hev : hdr.cmdType ≠ CmdType.deviceEvent.toByte := by
      rw [hraw]
      decide
    simp only [handlePacket, if_neg hev, if_pos hraw, onRawData]
    cases hb : (st.hub.sessions hdr.deviceId).bind st.hub.heap with
    | none => exact .inr ⟨fun hblocks => hblocks.2.1 hb, st, rfl⟩
    | some s =>
      obtain ⟨p, -, hp⟩ := Option.bind_eq_some_iff.mp hb
      obtain ⟨sock, h, -, hh, -⟩ := hs.wf.usable p s hp
      have hstall : (onDeviceData sys.writes payload).result = none ↔
          Stalls writeVerdict sys.writes payload.length := transferAll_result_eq_none_iff _ _
      simp only [hh]
      split
      · rename_i hw
        exact .inl ⟨⟨hraw, by rw [hb]; exact Option.some_ne_none s, hstall.mp hw⟩, rfl⟩
      · rename_i hw
        exact .inr ⟨fun hblocks => hw (hstall.mpr hblocks.2.2), _, rfl⟩
  · refine .inr ⟨fun hblocks => hraw hblocks.1, ?_⟩
    simp only [handlePacket, if_neg hraw]
    split_ifs
    · exact ⟨_, rfl⟩
    · exact ⟨_, rfl⟩
    · exact ⟨_, rfl⟩

theorem step_of_packet (hs : Sound st) {hdr : Header} {payload : List UInt8}
    (h : Reads st i hdr payload) :
    (Blocks st.hub hdr payload i.sys ∧ step st i = .error .waiting) ∨
      (¬Blocks st.hub hdr payload i.sys ∧ ∃ st', step st i = .ok st') := by
  rw [step_of_reads h]
  exact handlePacket_returns ((received_quiet st i hdr payload).sound hs) i.fd hdr payload i.sys

theorem step_of_waiting (h : ReadsTcp st i) (hr : ((st.arrived i).readTcpPacket i.fd).1 = .waiting) :
    step st i = .error .waiting := by
  rw [step_of_readsTcp h, onTcpReadable]
  simp only [hr]

private theorem step_of_failed (h : ReadsTcp st i)
    (hr : ((st.arrived i).readTcpPacket i.fd).1 = .failed) : ∃ st', step st i = .ok st' := by
  rw [step_of_readsTcp h, onTcpReadable]
  simp only [hr]
  exact ⟨_, rfl⟩

/-- An `EPOLLIN` event on a connection whose peer sends nothing more: once what has arrived
is consumed, `recv` returns `EAGAIN` however often it is called. -/
def stalledInput (c : Fd) (k : Nat) (sys : Syscalls) : Input where
  fd := c
  evts := { epollin := true }
  arrivals := List.replicate k .eagain
  sys := sys

private theorem stalled_read (hs : Sound st) (hc : Connected st.hub c) (k : Nat) (sys : Syscalls) :
    ReadsTcp st (stalledInput c k sys) ∧
      ((st.arrived (stalledInput c k sys)).readTcpPacket c).1 =
        (readPacket (st.os.rx c ++ List.replicate k .eagain)).1 := by
  refine ⟨⟨rfl, (route_of_connected hs hc).imp id fun ⟨p, hp⟩ => ⟨p, hp, rfl⟩⟩, ?_⟩
  rw [readTcpPacket_of_connected (arrived_sound hs _) hc]
  simp [arrived, Os.deliver, stalledInput]

/-- What has arrived is cut so that the reader returns, and if it holds a packet, the packet is
handled without a `write` that waits. -/
def ReadEnds (hub : HubServer) (bytes : List UInt8) (sys : Syscalls) : Prop :=
  CutClean bytes ∧
    (HoldsPacket bytes → ¬Blocks hub (nextPacket bytes).1 (nextPacket bytes).2 sys)

private theorem step_of_stalled (hs : Sound st) (hc : Connected st.hub c)
    (hd : AllData (st.os.rx c)) (sys : Syscalls) :
    (ReadEnds st.hub (dataOf (st.os.rx c)) sys ∧
        ∃ st', step st (stalledInput c 1 sys) = .ok st') ∨
      (¬ReadEnds st.hub (dataOf (st.os.rx c)) sys ∧
        ∀ k, step st (stalledInput c k sys) = .error .waiting) := by
  by_cases hp : HoldsPacket (dataOf (st.os.rx c))
  · -- the whole packet is there, and what is left is the `write` of its data
    have hstep : ∀ k, _ := fun k => step_of_packet hs ⟨(stalled_read hs hc k sys).1,
      (stalled_read hs hc k sys).2.trans (readPacket_of_holdsPacket hd hp _)⟩
    rcases hstep 1 with ⟨hb, -⟩ | ⟨hb, hok⟩
    · refine .inr ⟨fun hends => hends.2 hp hb, fun k => ?_⟩
      rcases hstep k with ⟨-, hw⟩ | ⟨hnb, -⟩
      · exact hw
      · exact absurd hb hnb
    · exact .inl ⟨⟨.inr (.inr hp), fun _ => hb⟩, hok⟩
  · by_cases hcut : CutClean (dataOf (st.os.rx c))
    · obtain ⟨hreads, hread⟩ := stalled_read hs hc 1 sys
      exact .inl ⟨⟨hcut, fun h => absurd h hp⟩,
        step_of_failed hreads (hread.trans (readPacket_of_cutClean hd hcut hp))⟩
    · refine .inr ⟨fun hends => hcut hends.1, fun k => ?_⟩
      obtain ⟨hreads, hread⟩ := stalled_read hs hc k sys
      exact step_of_waiting hreads (hread.trans (readPacket_of_not_cutClean hd hcut k))

variable {udpFd tcpServerFd : Fd} {inherited : Fd → Option FdMode} {is : List Input}

/-- In every state of every run, a turn on a connection whose peer has stopped sending ends
exactly if what has arrived ends in front of a packet, right behind its header or not before
its end, and in the last case the packet is no data whose `write` to the kernel side stays in its
call. Otherwise the daemon waits in the turn for as long as the peer and the kernel do. -/
theorem read_returns_iff_cutClean (hr : run step (boot udpFd tcpServerFd inherited) is = .ok st)
    (hc : Connected st.hub c) (hd : AllData (st.os.rx c)) (sys : Syscalls) :
    ((∃ k st', step st (stalledInput c k sys) = .ok st') ↔
      ReadEnds st.hub (dataOf (st.os.rx c)) sys) ∧
    (¬ReadEnds st.hub (dataOf (st.os.rx c)) sys →
      ∀ k, step st (stalledInput c k sys) = .error .waiting) := by
  rcases step_of_stalled (run_sound hr) hc hd sys with ⟨hends, hok⟩ | ⟨hends, hw⟩
  · exact ⟨⟨fun _ => hends, fun _ => ⟨1, hok⟩⟩, fun h => absurd hends h⟩
  · refine ⟨⟨?_, fun h => absurd h hends⟩, fun _ => hw⟩
    rintro ⟨k, st', hok⟩
    rw [hw k] at hok
    cases hok

/-- A device is connected and the first bytes of a packet have arrived on its connection. -/
def arrivedRun (bytes : List UInt8) : List Input :=
  connectedRun ++ [{ fd := 5, evts := {}, arrivals := leftover bytes [] }]

theorem read_returns_on_whole_packet :
    ∃ st, run step (boot 3 4 fun _ => none) (arrivedRun [0x50, 0, 0, 0, 1, 0, 3]) = .ok st ∧
      ∃ k st', step st (stalledInput 5 k {}) = .ok st' := by
  obtain ⟨st, hr, hc, hrx⟩ : ∃ st,
      run step (boot 3 4 fun _ => none) (arrivedRun [0x50, 0, 0, 0, 1, 0, 3]) = .ok st ∧
      slotFd st.hub (.tcp 0) = some 5 ∧ st.os.rx 5 = [.data 0x50 [0, 0, 0, 1, 0, 3]] :=
    ⟨_, rfl, rfl, rfl⟩
  have hd : AllData (st.os.rx 5) := by
    rw [hrx]
    exact allData_cons.mpr ⟨⟨_, _, rfl⟩, fun r hr => absurd hr List.not_mem_nil⟩
  refine ⟨st, hr, (read_returns_iff_cutClean hr (.inr ⟨0, hc⟩) hd {}).1.mpr ?_⟩
  rw [hrx]
  refine ⟨.inr (.inr (by decide)), fun _ hb => ?_⟩
  exact absurd hb.1 (by decide)

/-- Three bytes of a header hold the daemon for as long as the client likes. -/
theorem half_header_holds_the_daemon :
    ∃ st, run step (boot 3 4 fun _ => none) (arrivedRun [0x30, 0, 0]) = .ok st ∧
      st.os.rx 5 = [.data 0x30 [0, 0]] ∧
      ∀ k, step st (stalledInput 5 k {}) = .error .waiting := by
  obtain ⟨st, hr, hc, hrx⟩ : ∃ st,
      run step (boot 3 4 fun _ => none) (arrivedRun [0x30, 0, 0]) = .ok st ∧
      slotFd st.hub (.tcp 0) = some 5 ∧ st.os.rx 5 = [.data 0x30 [0, 0]] := ⟨_, rfl, rfl, rfl⟩
  have hd : AllData (st.os.rx 5) := by
    rw [hrx]
    exact allData_cons.mpr ⟨⟨_, _, rfl⟩, fun r hr => absurd hr List.not_mem_nil⟩
  refine ⟨st, hr, hrx, ?_⟩
  rcases step_of_stalled (run_sound hr) (.inr ⟨0, hc⟩) hd {} with ⟨hends, -⟩ | ⟨-, hw⟩
  · rw [hrx] at hends
    rcases hends.1 with h | h | h
    · cases h
    · exact absurd h (by decide)
    · exact absurd h (by decide)
  · exact hw

end Daemon
end WirelessHub
