import WirelessHub.Daemon.Frames

/-!
# Decoding of a packet stream

The packets of one connection over many turns of the loop. Each reading turn handles the
next packet and leaves the rest of the stream, provided that no `EAGAIN` stands in front of
a header or a payload and that no hang-up is reported while input is unread: there the
daemon tears the connection down instead. The turns on other descriptors may come in between,
as long as none of them ends the session of the connection.
-/

namespace WirelessHub

open Function Framework

namespace Daemon

variable {st st' : Daemon} {i : Input} {c : Fd} {d : UInt8} {sys : Syscalls}

section Turns

variable {later : List Recv} {pkts : List Packet} {closed : Bool}

def unread (st : Daemon) (i : Input) : List Recv := st.os.rx i.fd ++ i.arrivals

/-- A whole packet arrives, or the close of the peer. -/
def Completes (rx : List Recv) : Prop :=
  Header.size + (Header.decode (dataOf rx)).payloadLen.toNat ≤ (dataOf rx).length ∨ .eof ∈ rx

/-- A turn that meets the connection at a good time: the map entry that leads to it is live, a
reading turn is given a whole packet or the close, however late and in however many pieces, but
no `EAGAIN` in front of the header or the payload, the packet it reads neither ends the session of
its own connection nor holds the daemon in the `write` of its data, and a hang-up of a bound
connection comes after its last byte was read and the peer has closed. -/
structure Timely (st : Daemon) (i : Input) : Prop where
  live : ∀ p, st.hub.tcpFdMap i.fd = some p → slotFd st.hub (.tcp p) = some i.fd
  completes : ReadsTcp st i → Connected st.hub i.fd → Completes (st.unread i)
  header : ReadsTcp st i → readyNow (st.unread i) = true
  payload : ReadsTcp st i → (nextPacket (dataOf (st.unread i))).1.payloadLen ≠ 0 →
    readyNow (dropBytes Header.size (st.unread i)) = true
  packet : ∀ hdr payload, Reads st i hdr payload →
    ¬Ends st.hub i.fd (hdr, payload) ∧ ¬Blocks st.hub hdr payload i.sys
  hangup : ∀ p, st.hub.route i.fd = .tcp p → i.evts.hangup = true →
    dataOf (st.unread i) = [] ∧ .eof ∈ st.unread i

/-- The turns on the connection are timely, and those on other descriptors spare it. -/
structure Meets (c : Fd) (st : Daemon) (i : Input) : Prop where
  own : i.fd = c → Timely st i
  other : i.fd ≠ c → Spares c st i

/-- Where a connection stands: open with the packets `rest` still to come, or closed by the
daemon when nothing was left and the peer had closed. -/
def Standing (c : Fd) (st : Daemon) (later : List Recv) (rest : List Packet) (closed : Bool) : Prop :=
  (Connected st.hub c ∧ wire (st.os.rx c ++ later) = some (rest.flatMap Frame.bytes, closed)) ∨
  (st.os.fds c = none ∧ rest = [] ∧ closed = true)

private theorem onReadFailure_closes (hs : Sound st) (hc : Connected st.hub c) (sys : Syscalls) :
    (st.onReadFailure c sys).os.fds c = none ∧
      handledOn c (st.onReadFailure c sys).os.trace = handledOn c st.os.trace := by
  constructor
  · cases hk : st.hub.pendingTcpSocks c with
    | some sock => simp [onReadFailure, hk, hs.wf.pendingKey c sock hk, Os.close]
    | none =>
      rcases hc with h | ⟨p, h⟩
      · simp [slotFd, hk] at h
      · obtain ⟨s, hp, -⟩ := exists_session_of_slot h
        obtain ⟨sock, -, he⟩ := onDisconnect_of_some hs (hs.wf.owned p s hp) hp sys
        simp only [onReadFailure, hk, tcpFdMap_of_slot hs h, deviceIdAt, hp, he]
        exact closeAll_sessionFds_closes hp h
  · have hemits : st.os.Emits sys (fun e => ∃ f, e = .close f) (st.onReadFailure c sys).os :=
      onReadFailure_emits (.of_eq rfl rfl rfl) (fun _ _ => ⟨_, rfl⟩) fun _ _ _ _ => ⟨_, rfl⟩
    exact hemits.handled fun _ _ he => Effect.noConfusion he.choose_spec

private theorem step_of_closed (hs : Sound st) (hfree : st.os.fds i.fd = none) (ht : Timely st i) :
    ∃ st', step st i = .ok st' ∧ st'.os.fds i.fd = none ∧
      handledOn i.fd st'.os.trace = handledOn i.fd st.os.trace := by
  have hslot : ∀ x, slotFd st.hub x ≠ some i.fd := hs.wf.unowned_of_free hfree
  obtain ⟨hudp, hserver⟩ := hs.wf.ne_of_free hfree
  have htcp : st.hub.tcpFdMap i.fd = none := by
    by_contra hne
    obtain ⟨p, hp⟩ := Option.ne_none_iff_exists'.mp hne
    exact hslot _ (ht.live p hp)
  have hvhci : st.hub.vhciFdMap i.fd = none := by
    by_contra hne
    obtain ⟨p, hp⟩ := Option.ne_none_iff_exists'.mp hne
    obtain ⟨s, hheap, hfd⟩ := (hs.wf.vhciMap _ p).mp hp
    exact hslot _ (hfd ▸ slotFd_vhci hheap)
  have hpend : st.hub.pendingTcpSocks i.fd = none := by
    by_contra hne
    exact hslot _ (hs.wf.slotFd_pending_self hne)
  change ∃ st', (st.arrived i).handleEvent i.fd i.evts i.sys = .ok st' ∧ _
  simp only [handleEvent, arrived, hudp, hserver, if_false, HubServer.findByTcpFd, htcp,
    HubServer.findByVhciFd, hvhci]
  split
  · simp only [onTcpReadable, readTcpPacket, hpend, htcp, onReadFailure]
    exact ⟨_, rfl, hfree, rfl⟩
  · exact ⟨_, rfl, hfree, rfl⟩

def asHandled (p : Packet) : Header × List UInt8 := (p.header, p.payload)

private theorem readTcpPacket_arrived (hs : Sound st) (hc : Connected st.hub i.fd) :
    (st.arrived i).readTcpPacket i.fd = readPacket (st.unread i) := by
  rw [readTcpPacket_of_connected (arrived_sound hs i) hc]
  simp [arrived, Os.deliver, unread]

private theorem decode_of_wire {rx : List Recv} {p : Packet}
    (hw : wire (rx ++ later) = some ((p :: pkts).flatMap Frame.bytes, closed))
    (hle : Header.size ≤ (dataOf rx).length) : Header.decode (dataOf rx) = p.header := by
  obtain ⟨tail, hdata⟩ := wire_append hw
  rw [← Header.decode_take, ← List.take_append_of_le_length hle, ← hdata, Header.decode_take,
    List.flatMap_cons, Frame.bytes, List.append_assoc]
  exact Header.decode_encode p.header _

private theorem length_bytes_le_of_completes {rx : List Recv} {p : Packet}
    (hw : wire (rx ++ later) = some ((p :: pkts).flatMap Frame.bytes, closed))
    (hc : Completes rx) : p.bytes.length ≤ (dataOf rx).length := by
  rcases hc with hle | heof
  · have hlen : p.bytes.length = Header.size + p.header.payloadLen.toNat := p.length_bytes
    rw [decode_of_wire hw (by omega)] at hle
    omega
  · rw [← (wire_of_eof hw heof).1, List.flatMap_cons, List.length_append]
    omega

private theorem step_of_next {p : Packet} (hs : Sound st) (hc : Connected st.hub i.fd)
    (ht : Timely st i) (hreads : ReadsTcp st i)
    (hw : wire (st.unread i ++ later) = some ((p :: pkts).flatMap Frame.bytes, closed)) :
    ∃ st', step st i = .ok st' ∧
      handledOn i.fd st'.os.trace = handledOn i.fd st.os.trace ++ [asHandled p] ∧
      Connected st'.hub i.fd ∧
      wire (st'.os.rx i.fd ++ later) = some (pkts.flatMap Frame.bytes, closed) := by
  have hread := readTcpPacket_arrived hs hc
  have hle := length_bytes_le_of_completes hw (ht.completes hreads hc)
  have hpay : p.header.payloadLen ≠ 0 → readyNow (dropBytes Header.size (st.unread i)) = true := by
    intro hne
    refine ht.payload hreads ?_
    have hlen : p.bytes.length = Header.size + p.header.payloadLen.toNat := p.length_bytes
    rwa [nextPacket, decode_of_wire hw (by omega)]
  obtain ⟨hpkt, hrest⟩ := readPacket_next hw (ht.header hreads) hpay hle
  have hpacket : Reads st i p.header p.payload := ⟨hreads, hread ▸ hpkt⟩
  obtain ⟨hends, hblocks⟩ := ht.packet _ _ hpacket
  obtain ⟨st', hstep⟩ := ((step_of_packet hs hpacket).resolve_left fun hb => hblocks hb.1).2
  have hhandle : (st.received i p.header p.payload).handlePacket i.fd p.header p.payload i.sys =
      .ok st' := (step_of_reads hpacket).symm.trans hstep
  obtain ⟨hc', hsame⟩ := handlePacket_keeps ((received_quiet st i _ _).sound hs) hc hends hhandle
  have hrx : (st.received i p.header p.payload).os.rx i.fd = (readPacket (st.unread i)).2 := by
    rw [← hread]
    simp [received, emit, Os.emit, Os.setRx]
  have hreceived : handledOn i.fd (st.received i p.header p.payload).os.trace =
      handledOn i.fd st.os.trace ++ [asHandled p] := by
    simp [handledOn, received, emit, Os.emit, Os.setRx, arrived, Os.deliver, Effect.packetOn, asHandled]
  exact ⟨st', hstep, hsame.handled.trans hreceived, hc', by rw [hsame.rx, hrx, hrest]⟩

private theorem step_of_no_packet (hs : Sound st) (hc : Connected st.hub i.fd) (ht : Timely st i)
    (hreads : ReadsTcp st i) (hw : wire (st.unread i ++ later) = some ([], closed)) :
    ∃ st', step st i = .ok st' ∧ handledOn i.fd st'.os.trace = handledOn i.fd st.os.trace ∧
      st'.os.fds i.fd = none ∧ closed = true := by
  have heof : .eof ∈ st.unread i := by
    refine (ht.completes hreads hc).resolve_left fun hle => ?_
    obtain ⟨tail, hdata⟩ := wire_append hw
    rw [(List.append_eq_nil_iff.mp hdata.symm).1, List.length_nil] at hle
    exact absurd hle (by simp [Header.size])
  obtain ⟨hfail, hclosed⟩ := readPacket_done hw (ht.header hreads) heof
  rw [step_of_readsTcp hreads, onTcpReadable, readTcpPacket_arrived hs hc]
  simp only [hfail]
  have hq : Move .quiet st
      { st.arrived i with os := (st.arrived i).os.setRx i.fd (readPacket (st.unread i)).2 } :=
    .quiet rfl rfl rfl rfl
  obtain ⟨hfree, hsame⟩ := onReadFailure_closes (hq.sound hs) hc i.sys
  exact ⟨_, rfl, hsame, hfree, hclosed⟩

private theorem step_of_hangup (hs : Sound st) {p : SessionPtr} (hr : st.hub.route i.fd = .tcp p)
    (hh : i.evts.hangup = true) (hslot : slotFd st.hub (.tcp p) = some i.fd) :
    ∃ st', step st i = .ok st' ∧ handledOn i.fd st'.os.trace = handledOn i.fd st.os.trace ∧
      st'.os.fds i.fd = none := by
  obtain ⟨s, hp, -⟩ := exists_session_of_slot hslot
  have hr' : (st.arrived i).hub.route i.fd = .tcp p := hr
  have hp' : (st.arrived i).hub.heap p = some s := hp
  have howned : (st.arrived i).hub.sessions s.deviceId = some p := hs.wf.owned p s hp
  change ∃ st', (st.arrived i).handleEvent i.fd i.evts i.sys = .ok st' ∧ _
  rw [handleEvent_route, hr']
  simp only [onTcpEvent, hh, if_true, deviceIdAt, hp', removeSession_of_some howned hp']
  have hemits : (st.arrived i).os.Emits {} (fun e => ∃ f, e = .close f)
      ((st.arrived i).os.closeAll (sessionFds s)) := Os.closeAll_emits _ fun f _ => ⟨f, rfl⟩
  refine ⟨_, rfl, ?_, closeAll_sessionFds_closes hp hslot⟩
  exact hemits.handled fun _ _ he => Effect.noConfusion he.choose_spec

private theorem step_of_idle (hs : Sound st) (hc : Connected st.hub i.fd) (hreads : ¬ReadsTcp st i)
    (hh : ¬∃ p, st.hub.route i.fd = .tcp p ∧ i.evts.hangup = true) :
    i.evts.epollin = false ∧ step st i = .ok (st.arrived i) := by
  change _ ∧ (st.arrived i).handleEvent i.fd i.evts i.sys = _
  rw [handleEvent_route]
  rcases route_of_connected hs hc with hr | ⟨p, hr⟩
  · have hin : i.evts.epollin = false := by
      by_contra hin
      exact hreads ⟨by simpa using hin, .inl hr⟩
    have hr' : (st.arrived i).hub.route i.fd = .other := hr
    simp [hr', hin]
  · have hhang : i.evts.hangup = false := by
      by_contra hhang
      exact hh ⟨p, hr, by simpa using hhang⟩
    have hin : i.evts.epollin = false := by
      by_contra hin
      exact hreads ⟨by simpa using hin, .inr ⟨p, hr, hhang⟩⟩
    have hr' : (st.arrived i).hub.route i.fd = .tcp p := hr
    simp [hr', onTcpEvent, hin, hhang]

private theorem step_of_own (hs : Sound st) (ht : Timely st i)
    (hst : Standing i.fd st (i.arrivals ++ later) pkts closed) :
    ∃ st', step st i = .ok st' ∧ ∃ done rest, pkts = done ++ rest ∧
      (i.evts.epollin = true → rest.length ≤ pkts.length - 1) ∧
      handledOn i.fd st'.os.trace = handledOn i.fd st.os.trace ++ done.map asHandled ∧
      Standing i.fd st' later rest closed := by
  rcases hst with ⟨hc, hw⟩ | ⟨hfree, rfl, hclosed⟩
  · rw [← List.append_assoc] at hw
    rcases em (ReadsTcp st i) with hreads | hreads
    · cases pkts with
      | nil =>
        obtain ⟨st', hstep, hsame, hfree, hclosed⟩ := step_of_no_packet hs hc ht hreads hw
        exact ⟨st', hstep, [], [], rfl, fun _ => Nat.le_refl 0, by simpa using hsame,
          .inr ⟨hfree, rfl, hclosed⟩⟩
      | cons p pkts =>
        obtain ⟨st', hstep, hhandled, hst'⟩ := step_of_next hs hc ht hreads hw
        exact ⟨st', hstep, [p], pkts, rfl, fun _ => by simp, by simpa using hhandled, .inl hst'⟩
    · rcases em (∃ p, st.hub.route i.fd = .tcp p ∧ i.evts.hangup = true) with ⟨p, hr, hh⟩ | hh
      · obtain ⟨hnil, heof⟩ := ht.hangup p hr hh
        obtain ⟨hdata, hclosed⟩ := wire_of_eof hw heof
        obtain rfl := flatMap_bytes_eq_nil (hdata.trans hnil)
        obtain ⟨st', hstep, hsame, hfree⟩ :=
          step_of_hangup hs hr hh (ht.live p (HubServer.route_tcp hr))
        exact ⟨st', hstep, [], [], rfl, fun _ => Nat.le_refl 0, by simpa using hsame,
          .inr ⟨hfree, rfl, hclosed⟩⟩
      · obtain ⟨hin, hidle⟩ := step_of_idle hs hc hreads hh
        refine ⟨_, hidle, [], pkts, rfl, by simp [hin], by simp [arrived, Os.deliver],
          .inl ⟨hc, ?_⟩⟩
        simpa [arrived, Os.deliver] using hw
  · obtain ⟨st', hstep, hfree', hsame⟩ := step_of_closed hs hfree ht
    exact ⟨st', hstep, [], [], rfl, fun _ => Nat.le_refl 0, by simpa using hsame,
      .inr ⟨hfree', rfl, hclosed⟩⟩

private theorem step_of_other (hs : Sound st) (hne : i.fd ≠ c) (hsp : Spares c st i)
    (hst : Standing c st later pkts closed) :
    ∃ st', step st i = .ok st' ∧ handledOn c st'.os.trace = handledOn c st.os.trace ∧
      Standing c st' later pkts closed := by
  obtain ⟨st', hstep⟩ := hsp.ends
  rcases hst with ⟨hc, hw⟩ | ⟨hfree, hend⟩
  · obtain ⟨hc', hsame⟩ := step_keeps hs hc hne hsp hstep
    exact ⟨st', hstep, hsame.handled, .inl ⟨hc', by rw [hsame.rx]; exact hw⟩⟩
  · obtain ⟨hfree', hsame⟩ := step_stays_closed hne hsp hfree hstep
    exact ⟨st', hstep, hsame, .inr ⟨hfree', hend⟩⟩

/-- What arrives on the connection over the turns. -/
def arrivalsOn (c : Fd) (is : List Input) : List Recv :=
  is.flatMap fun i => if i.fd = c then i.arrivals else []

/-- How often the connection is readable over the turns. -/
def readableOn (c : Fd) (is : List Input) : Nat := is.countP fun i => i.fd = c && i.evts.epollin

/-- One turn ends: packets leave the front of the list in order, at least one of them if it is a
readable turn of the connection, and the connection stands where it should. -/
theorem step_on_connection (hs : Sound st) (hm : Meets c st i)
    (hst : Standing c st (arrivalsOn c [i] ++ later) pkts closed) :
    ∃ st', step st i = .ok st' ∧ ∃ done rest, pkts = done ++ rest ∧
      rest.length ≤ pkts.length - readableOn c [i] ∧
      handledOn c st'.os.trace = handledOn c st.os.trace ++ done.map asHandled ∧
      Standing c st' later rest closed := by
  by_cases hfd : i.fd = c
  · have ht := hm.own hfd
    subst hfd
    simp only [arrivalsOn, List.flatMap_singleton, if_true] at hst
    obtain ⟨st', hstep, done, rest, rfl, hcount, hhandled, hst'⟩ := step_of_own hs ht hst
    refine ⟨st', hstep, done, rest, rfl, ?_, hhandled, hst'⟩
    by_cases hin : i.evts.epollin = true
    · simpa [readableOn, hin] using hcount hin
    · simp [readableOn, hin]
  · simp only [arrivalsOn, List.flatMap_singleton, if_neg hfd, List.nil_append] at hst
    obtain ⟨st', hstep, hhandled, hst'⟩ := step_of_other hs hfd (hm.other hfd) hst
    exact ⟨st', hstep, [], pkts, rfl, by simp [readableOn, hfd], by simpa using hhandled, hst'⟩

private theorem run_on_connection {js : List Input} (hs : Sound st)
    (hg : RunAll step (Meets c) st js)
    (hst : Standing c st (arrivalsOn c js ++ later) pkts closed) :
    ∃ st', run step st js = .ok st' ∧ ∃ done rest, pkts = done ++ rest ∧
      rest.length ≤ pkts.length - readableOn c js ∧
      handledOn c st'.os.trace = handledOn c st.os.trace ++ done.map asHandled ∧
      Standing c st' later rest closed := by
  induction js generalizing st pkts with
  | nil => exact ⟨st, rfl, [], pkts, rfl, Nat.le_refl _, by simp, hst⟩
  | cons i js ih =>
    have harr : arrivalsOn c (i :: js) = arrivalsOn c [i] ++ arrivalsOn c js := by
      simp [arrivalsOn]
    have hcount : readableOn c (i :: js) = readableOn c [i] + readableOn c js := by
      simp only [readableOn, List.countP_cons, List.countP_nil]
      omega
    rw [harr, List.append_assoc] at hst
    obtain ⟨mid, hstep, done₁, rest₁, rfl, hcount₁, hhandled₁, hst₁⟩ :=
      step_on_connection hs hg.1 hst
    obtain ⟨st', hr, done₂, rest₂, rfl, hcount₂, hhandled₂, hst₂⟩ :=
      ih (step_sound hs hstep) (hg.2 mid hstep) hst₁
    refine ⟨st', run_cons_eq_ok.mpr ⟨mid, hstep, hr⟩, done₁ ++ done₂, rest₂,
      by rw [List.append_assoc], ?_, ?_, hst₂⟩
    · rw [hcount]
      simp only [List.length_append] at hcount₁ hcount₂ ⊢
      omega
    · rw [hhandled₂, hhandled₁, List.map_append, List.append_assoc]

end Turns

variable {udpFd tcpServerFd : Fd} {inherited : Fd → Option FdMode} {pre js ks : List Input}
  {pkts : List Packet} {closed : Bool}

/-- From any state of any run, and for every way in which the packets of a client arrive over
the turns `js ++ ks` of the loop: if the turns of the connection among `js` are timely and the others
spare it, all of them end, and the packets handled are the front of the list, all of it after as many
readable turns of the connection. The connection is open with exactly the rest to come, or closed
with no packet left and after the peer's close. -/
theorem packets_handled_in_order
    (hpre : run step (boot udpFd tcpServerFd inherited) pre = .ok st) (hc : Connected st.hub c)
    (hw : wire (st.os.rx c ++ arrivalsOn c (js ++ ks)) = some (pkts.flatMap Frame.bytes, closed))
    (hg : RunAll step (Meets c) st js) :
    ∃ st', run step st js = .ok st' ∧ ∃ done rest, pkts = done ++ rest ∧
      handledOn c st'.os.trace = handledOn c st.os.trace ++ done.map asHandled ∧
      (pkts.length ≤ readableOn c js → rest = []) ∧
      Standing c st' (arrivalsOn c ks) rest closed := by
  rw [arrivalsOn, List.flatMap_append] at hw
  obtain ⟨st', hr, done, rest, hpkts, hcount, hhandled, hst⟩ :=
    run_on_connection (run_sound hpre) hg (.inl ⟨hc, hw⟩)
  refine ⟨st', hr, done, rest, hpkts, hhandled, fun hle => ?_, hst⟩
  rw [Nat.sub_eq_zero_of_le hle] at hcount
  exact List.length_eq_zero_iff.mp (Nat.le_zero.mp hcount)

def logPacket : Packet := ⟨⟨CmdType.log.toByte, 0, 0, 0, 1⟩, [LogLevel.info.toByte], rfl⟩

def readableInput (arrivals : List Recv) : Input where
  fd := 5
  evts := { epollin := true }
  arrivals := arrivals

/-- Two log packets, cut inside the header of the first, with another client accepted before the
second one is read. -/
def twoLogTurns : List Input :=
  [readableInput [.data 0x50 [0, 0], .eagain, .eintr, .data 0 [1, 0], .data 3 [0x50, 0, 0, 0, 1, 0]],
    acceptInput 4 8, readableInput [.eintr, .data 3 []]]

private theorem meets_of_log (hfd : i.fd = c) (hmap : st.hub.tcpFdMap i.fd = some 0)
    (hslot : slotFd st.hub (.tcp 0) = some i.fd)
    (hlen : Header.size + (Header.decode (dataOf (st.unread i))).payloadLen.toNat ≤
      (dataOf (st.unread i)).length)
    (hhdr : readyNow (st.unread i) = true)
    (hpay : readyNow (dropBytes Header.size (st.unread i)) = true)
    (hlog : ((st.arrived i).readTcpPacket i.fd).1 = .packet logPacket.header logPacket.payload)
    (hh : i.evts.hangup = false) : Meets c st i := by
  refine ⟨fun _ => ⟨fun p hp => ?_, fun _ _ => .inl hlen, fun _ => hhdr, fun _ _ => hpay, ?_, ?_⟩,
    fun hne => absurd hfd hne⟩
  · obtain rfl := Option.some.inj (hmap.symm.trans hp)
    exact hslot
  · intro hdr payload hreads
    obtain ⟨rfl, rfl⟩ := TcpRead.packet.inj (hlog.symm.trans hreads.2)
    exact ⟨fun hends => absurd hends.1.1 (by decide), fun hb => absurd hb.1 (by decide)⟩
  · intro p _ hh'
    rw [hh] at hh'
    cases hh'

private theorem twoLogTurns_meet :
    ∃ st, run step (boot 3 4 fun _ => none) connectedRun = .ok st ∧ Connected st.hub 5 ∧
      wire (st.os.rx 5 ++ arrivalsOn 5 (twoLogTurns ++ [])) =
        some ([logPacket, logPacket].flatMap Frame.bytes, false) ∧
      RunAll step (Meets 5) st twoLogTurns := by
  refine ⟨_, rfl, .inr ⟨0, rfl⟩, rfl, ⟨?_, fun s₁ h₁ => ?_⟩⟩
  · exact meets_of_log rfl rfl rfl (by decide) rfl rfl rfl rfl
  · cases h₁
    refine ⟨⟨fun hfd => absurd hfd (by decide), fun _ => ⟨⟨_, rfl⟩, ?_, ?_, ?_, ?_⟩⟩, fun s₂ h₂ => ?_⟩
    · intro p hp
      cases hp
    · rintro hdr payload ⟨⟨-, hr | ⟨p, hr, -⟩⟩, -⟩
      · cases hr
      · cases hr
    · intro p hr
      cases hr
    · intro hfree
      cases hfree
    · cases h₂
      exact ⟨meets_of_log rfl rfl rfl (by decide) rfl rfl rfl rfl, fun _ _ => trivial⟩

theorem two_packets_handled :
    ∃ st st', run step (boot 3 4 fun _ => none) connectedRun = .ok st ∧
      run step st twoLogTurns = .ok st' ∧
      handledOn 5 st'.os.trace =
        handledOn 5 st.os.trace ++ [asHandled logPacket, asHandled logPacket] := by
  obtain ⟨st, hpre, hc, hw, hg⟩ := twoLogTurns_meet
  obtain ⟨st', hr, done, rest, hpkts, hhandled, hrest, -⟩ :=
    packets_handled_in_order hpre hc hw hg
  refine ⟨st, st', hpre, hr, ?_⟩
  rw [hrest (by decide), List.append_nil] at hpkts
  rw [hhandled, ← hpkts]
  rfl

/-- A pause of the network between the header and the payload of a packet: the packet is lost
and the connection is closed, though the peer has not closed it. -/
theorem pause_before_payload_tears_down :
    ∃ st st', run step (boot 3 4 fun _ => none) connectedRun = .ok st ∧ Connected st.hub 5 ∧
      wire (st.os.rx 5 ++ [.data 0x50 [0, 0, 0, 1, 0], .eagain, .data 3 []]) =
        some (logPacket.bytes, false) ∧
      step st (readableInput [.data 0x50 [0, 0, 0, 1, 0], .eagain, .data 3 []]) = .ok st' ∧
      handledOn 5 st'.os.trace = handledOn 5 st.os.trace ∧ st'.os.fds 5 = none :=
  ⟨_, _, rfl, .inr ⟨0, rfl⟩, rfl, rfl, rfl, rfl⟩

end Daemon
end WirelessHub
