import WirelessHub.Daemon.Connection
import WirelessHub.Daemon.Trace

/-!
# What the handlers leave of a connection

The input and the packets of one connection, seen from the turns of the others. Such a turn
reaches the connection only through the session that runs over it: by a packet that names the
device of the session, by a kernel side that fails, or by a reset that cannot attach the
device again.
-/

namespace WirelessHub

open Function Framework

def Effect.packetOn (c : Fd) : Effect → Option (Header × List UInt8)
  | .packet fd hdr payload => if fd = c then some (hdr, payload) else none
  | _ => none

def handledOn (c : Fd) (trace : List Effect) : List (Header × List UInt8) :=
  trace.filterMap (Effect.packetOn c)

/-- Neither a packet of the connection nor its close. -/
def Effect.Apart (c : Fd) (e : Effect) : Prop := e.packetOn c = none ∧ e ≠ .close c

section Frame

variable {c : Fd} {sys : Syscalls} {P : Effect → Prop} {os os' os'' : Os}

/-- Neither the input of the connection nor the packets handled on it have changed. -/
structure Os.SameOn (c : Fd) (os os' : Os) : Prop where
  rx : os'.rx c = os.rx c
  handled : handledOn c os'.trace = handledOn c os.trace

private theorem Os.SameOn.trans (h : os.SameOn c os') (h' : os'.SameOn c os'') : os.SameOn c os'' :=
  ⟨h'.rx.trans h.rx, h'.handled.trans h.handled⟩

private theorem Effect.apart_close {f : Fd} (h : f ≠ c) : Effect.Apart c (.close f) :=
  ⟨rfl, fun he => h (Effect.close.inj he)⟩

private theorem Os.Emits.sameOn (h : os.Emits sys (Effect.Apart c) os') : os.SameOn c os' :=
  ⟨h.rx c fun ha => ha.2 rfl, h.filterMap_eq fun _ he => he.1⟩

theorem Os.Emits.handled (h : os.Emits sys P os') (hP : ∀ hdr payload, ¬P (.packet c hdr payload)) :
    handledOn c os'.trace = handledOn c os.trace := by
  refine h.filterMap_eq fun e he => ?_
  cases e with
  | packet fd hdr payload =>
    have hne : fd ≠ c := by
      rintro rfl
      exact hP hdr payload he
    exact if_neg hne
  | _ => rfl

end Frame

def BoundTo (hub : HubServer) (c : Fd) (d : UInt8) : Prop :=
  ∃ p, hub.sessions d = some p ∧ slotFd hub (.tcp p) = some c

/-- A `DISCONNECT`, or a `CONNECT`, which takes the place of an older session. -/
def AsksEnd (pkt : Header × List UInt8) : Prop :=
  pkt.1.cmdType = CmdType.deviceEvent.toByte ∧ DeviceEventPayload.size ≤ pkt.2.length ∧
    ((DeviceEventPayload.decode pkt.2).event = DeviceEvent.connect.toByte ∨
      (DeviceEventPayload.decode pkt.2).event = DeviceEvent.disconnect.toByte)

def Ends (hub : HubServer) (c : Fd) (pkt : Header × List UInt8) : Prop :=
  AsksEnd pkt ∧ BoundTo hub c (DeviceEventPayload.decode pkt.2).deviceId

section Connected

variable {hub : HubServer} {os : Os} {c : Fd} {p : SessionPtr} {s : DeviceSession} {d : UInt8}

theorem Connected.open (hc : Connected hub c) (hw : Wf hub os) : os.fds c ≠ none := by
  rcases hc with h | ⟨p, h⟩
  · exact hw.opened _ _ h
  · exact hw.opened _ _ h

private theorem Connected.of_slots {hub' : HubServer} (hc : Connected hub c)
    (hp : slotFd hub (.pending c) = some c → slotFd hub' (.pending c) = some c)
    (ht : ∀ p, slotFd hub (.tcp p) = some c → ∃ q, slotFd hub' (.tcp q) = some c) :
    Connected hub' c := by
  rcases hc with h | ⟨p, h⟩
  · exact .inl (hp h)
  · exact .inr (ht p h)

private theorem Connected.dropSession (hc : Connected hub c) (t : DeviceSession)
    (hne : slotFd hub (.tcp p) ≠ some c) : Connected (hub.dropSession d p t) c := by
  apply hc.of_slots
  · intro h
    exact slotFd_dropSession_of h (by simp)
  · intro q h
    refine ⟨q, slotFd_dropSession_of h ⟨by simp, by simp, fun he => ?_⟩⟩
    exact hne (he ▸ h)

private theorem Connected.addSession (hc : Connected hub c) (hw : Wf hub os) (s : DeviceSession) :
    Connected (hub.addSession s) c := by
  have hfresh := hw.fresh hub.nextPtr (Nat.le_refl _)
  exact hc.of_slots (slotFd_addSession_of hfresh) fun p h => ⟨p, slotFd_addSession_of hfresh h⟩

private theorem connected_addSession {sock : TcpSocket} (hsock : s.tcpSock = some sock) (hfd : sock.fd = c) :
    Connected (hub.addSession s) c :=
  .inr ⟨hub.nextPtr, by simp [slotFd, HubServer.addSession, hsock, hfd]⟩

private theorem boundTo_of_mem_fdsOf (hw : Wf hub os) (hc : Connected hub c)
    (hm : c ∈ hub.fdsOf d) : BoundTo hub c d := by
  obtain ⟨p, s, hp, hheap, hf⟩ := HubServer.mem_fdsOf hm
  obtain ⟨y, hy, hyp⟩ := Wf.sessionFds_slot hheap (.inl rfl) hf
  obtain ⟨x, hx, hxv⟩ : ∃ x, slotFd hub x = some c ∧ x ≠ .vhci p ∧ x ≠ .kernel p := by
    rcases hc with h | ⟨q, h⟩
    · exact ⟨_, h, by simp⟩
    · exact ⟨_, h, by simp⟩
  have hxy := hw.unique _ _ _ hx hy
  rcases hyp with rfl | rfl | rfl
  · exact absurd hxy hxv.1
  · exact absurd hxy hxv.2
  · exact ⟨p, hp, hy⟩

end Connected

private theorem Move.connected {k : MoveKind} {st st' : Daemon} {c : Fd} (hm : Move k st st') (hs : Sound st)
    (hc : Connected st.hub c) (hopen : st'.os.fds c ≠ none) : Connected st'.hub c := by
  cases hm with
  | quiet hub | leak _ _ hub => rw [hub]; exact hc
  | forward p s h₀ h₁ session _ _ hub =>
    rw [hub]
    refine hc.of_slots id fun q hq => ⟨q, ?_⟩
    by_cases hqp : q = p
    · subst hqp
      simpa [slotFd, session] using hq
    · simpa [slotFd, hqp] using hq
  | accept f free hub =>
    have hne : c ≠ f := fun he => hc.open hs.wf (he ▸ free)
    rw [hub]
    refine hc.of_slots (fun h => ?_) fun q hq => ⟨q, hq⟩
    simpa [slotFd, hne] using h
  | dropPending k sock pending hub _ os =>
    have hne : c ≠ k := by
      rintro rfl
      rw [os.fds, if_pos (by simp [hs.wf.pendingKey c sock pending])] at hopen
      exact hopen rfl
    rw [hub]
    refine hc.of_slots (fun h => ?_) fun q hq => ⟨q, hq⟩
    simpa [slotFd, Daemon.extracted, hne] using h
  | remove freed p s session hub _ os =>
    rw [hub]
    refine hc.dropSession s fun hslot => hopen ?_
    obtain ⟨s', hs', hsock⟩ := Daemon.exists_session_of_slot hslot
    obtain rfl := Option.some.inj (session.symm.trans hs')
    rw [os.fds, if_pos (by simp [Daemon.sessionFds, hsock])]
  | connect ok k s sock pending binds =>
    obtain ⟨hs', -⟩ := hs.extracted pending
    rw [binds.hub]
    by_cases hck : c = k
    · exact connected_addSession binds.tcpSock ((hs.wf.pendingKey k sock pending).trans hck.symm)
    · refine Connected.addSession ?_ hs'.wf s
      refine hc.of_slots (fun h => ?_) fun q hq => ⟨q, hq⟩
      simpa [slotFd, Daemon.extracted, hck] using h
  | reset ok p s t sock tcpSock _ unplugs binds =>
    rw [binds.hub]
    by_cases hslot : slotFd st.hub (.tcp p) = some c
    · -- the new session runs over the socket of the old one
      have hsock := (slotFd_tcp unplugs.session tcpSock).symm.trans hslot
      exact connected_addSession binds.tcpSock (Option.some.inj hsock)
    · refine Connected.addSession ?_ (unplugs.spec hs tcpSock).1.wf t
      rw [unplugs.hub]
      exact hc.dropSession _ hslot
  | resetFail p s sock tcpSock unplugs hub _ os =>
    rw [hub, unplugs.hub]
    refine hc.dropSession _ fun hslot => hopen ?_
    have hsock := (slotFd_tcp unplugs.session tcpSock).symm.trans hslot
    rw [os.fds, if_pos (by simp [Option.some.inj hsock])]

namespace Daemon

variable {st st' : Daemon} {i : Input} {c : Fd} {d : UInt8} {sys : Syscalls} {p : SessionPtr}
  {s : DeviceSession}

theorem closeAll_sessionFds_closes {os : Os}
    (hp : st.hub.heap p = some s) (hslot : slotFd st.hub (.tcp p) = some c) :
    (os.closeAll (sessionFds s)).fds c = none := by
  obtain ⟨s', hp', hsock⟩ := exists_session_of_slot hslot
  obtain rfl := Option.some.inj (hp.symm.trans hp')
  rw [(os.closeAll_closes (sessionFds s)).fds, if_pos]
  simp [sessionFds, hsock]

/-- The connection is still there, with the same input and the same packets. -/
def Keeps (c : Fd) (st st' : Daemon) : Prop := Connected st'.hub c ∧ st.os.SameOn c st'.os

private theorem Keeps.refl (hc : Connected st.hub c) : Keeps c st st := ⟨hc, rfl, rfl⟩

private theorem Keeps.trans {st'' : Daemon} (h : Keeps c st st') (h' : Keeps c st' st'') : Keeps c st st'' :=
  ⟨h'.1, h.2.trans h'.2⟩

private theorem Move.keeps {k : MoveKind} (hm : Move k st st') (hs : Sound st)
    (hc : Connected st.hub c) (he : st.os.Emits sys (Effect.Apart c) st'.os) : Keeps c st st' :=
  ⟨hm.connected hs hc (he.opened c (fun ha => ha.2 rfl) (hc.open hs.wf)), he.sameOn⟩

private theorem apart_fdsOf (hs : Sound st) (hc : Connected st.hub c) (hne : ¬BoundTo st.hub c d) :
    ∀ f ∈ st.hub.fdsOf d, Effect.Apart c (.close f) := by
  intro f hf
  apply Effect.apart_close
  rintro rfl
  exact hne (boundTo_of_mem_fdsOf hs.wf hc hf)

private theorem apart_free (hs : Sound st) (hc : Connected st.hub c) (f : Fd)
    (hf : st.os.fds f = none) :
    Effect.Apart c (.close f) := by
  apply Effect.apart_close
  rintro rfl
  exact hc.open hs.wf hf

private theorem apart_sysfsAttach (port : Int) (f : Fd) (devid speed : UInt32) :
    Effect.Apart c (.sysfsAttach port f devid speed) := ⟨rfl, Effect.noConfusion⟩

private theorem removeSession_keeps (hs : Sound st) (hc : Connected st.hub c)
    (hne : ¬BoundTo st.hub c d) : Keeps c st (st.removeSession d) := by
  rcases removeSession_moves hs d with he | hm
  · rw [he]
    exact .refl hc
  · have hemits : st.os.Emits {} (Effect.Apart c) (st.removeSession d).os :=
      removeSession_emits (.of_eq rfl rfl rfl) (apart_fdsOf hs hc hne)
    exact Move.keeps hm hs hc hemits

private theorem onDisconnect_keeps (hs : Sound st) (hc : Connected st.hub c)
    (hne : ¬BoundTo st.hub c d) (sys : Syscalls) : Keeps c st (st.onDisconnect d sys) := by
  rcases (onDisconnect_moves hs d sys).1 with he | hm
  · rw [he]
    exact .refl hc
  · exact Move.keeps hm hs hc (onDisconnect_emits (.of_eq rfl rfl rfl) (apart_fdsOf hs hc hne))

private theorem doUsbAttach_keeps (hs : Sound st) (hc : Connected st.hub c)
    (hd : st.hub.sessions d = none) (speed : UInt8) (addr : SockaddrIn) (sys : Syscalls) :
    Keeps c st (st.doUsbAttach d speed addr sys) := by
  have hemits : st.os.Emits sys (Effect.Apart c) (st.doUsbAttach d speed addr sys).os :=
    doUsbAttach_emits apart_sysfsAttach (apart_free hs hc) d speed addr
  rcases doUsbAttach_moves hs hd speed addr sys with hm | ⟨hm, -⟩ | hm
  · exact Move.keeps hm hs hc hemits
  · exact Move.keeps hm hs hc hemits
  · exact Move.keeps hm hs hc hemits

theorem handlePacket_keeps {hdr : Header} {payload : List UInt8} {fd : Fd} (hs : Sound st)
    (hc : Connected st.hub c) (hends : ¬Ends st.hub c (hdr, payload))
    (h : st.handlePacket fd hdr payload sys = .ok st') : Keeps c st st' := by
  cases handlePacket_handles h with
  | connect asks =>
    have hne : ¬BoundTo st.hub c (DeviceEventPayload.decode payload).deviceId :=
      fun hb => hends ⟨⟨asks.1, asks.2.1, .inl asks.2.2⟩, hb⟩
    obtain ⟨he, hnone, -⟩ := evict_spec hs (DeviceEventPayload.decode payload).deviceId sys
    have hevict := onDisconnect_keeps hs hc hne sys
    rw [← he] at hevict
    simp only [onConnectEvent]
    split
    · exact hevict.trans (doUsbAttach_keeps (evict_sound hs _ sys) hevict.1 hnone _ _ sys)
    · exact hevict
  | disconnect asks =>
    exact onDisconnect_keeps hs hc (fun hb => hends ⟨⟨asks.1, asks.2.1, .inr asks.2.2⟩, hb⟩) sys
  | data | log | ignored =>
    refine ⟨hc, (handlePacket_emits h).rx c ?_, (handlePacket_emits h).handled fun _ _ he => he⟩
    rintro (hfree | ⟨hasks | hasks, hf⟩)
    · exact hc.open hs.wf hfree
    · exact hends ⟨⟨hasks.1, hasks.2.1, .inl hasks.2.2⟩, boundTo_of_mem_fdsOf hs.wf hc hf⟩
    · exact hends ⟨⟨hasks.1, hasks.2.1, .inr hasks.2.2⟩, boundTo_of_mem_fdsOf hs.wf hc hf⟩

private theorem not_boundTo_of_slot {fd : Fd} (hs : Sound st) (hp : st.hub.heap p = some s)
    (hslot : slotFd st.hub (.tcp p) = some fd) (hne : fd ≠ c) : ¬BoundTo st.hub c s.deviceId := by
  rintro ⟨q, hq, hc⟩
  obtain rfl := Option.some.inj ((hs.wf.owned p s hp).symm.trans hq)
  exact hne (Option.some.inj (hslot.symm.trans hc))

private theorem not_boundTo_deviceIdAt {fd : Fd} (hs : Sound st)
    (hslot : slotFd st.hub (.tcp p) = some fd) (hne : fd ≠ c) (sys : Syscalls) :
    ¬BoundTo st.hub c (st.deviceIdAt p sys) := by
  obtain ⟨s, hp, -⟩ := exists_session_of_slot hslot
  simp only [deviceIdAt, hp]
  exact not_boundTo_of_slot hs hp hslot hne

private theorem onReadFailure_keeps {fd : Fd} (hs : Sound st) (hc : Connected st.hub c)
    (hne : fd ≠ c)
    (hlive : ∀ p, st.hub.tcpFdMap fd = some p → slotFd st.hub (.tcp p) = some fd) (sys : Syscalls) :
    Keeps c st (st.onReadFailure fd sys) := by
  have hemits : st.os.Emits sys (Effect.Apart c) (st.onReadFailure fd sys).os := by
    apply onReadFailure_emits (.of_eq rfl rfl rfl)
    · intro sock hk
      rw [hs.wf.pendingKey fd sock hk]
      exact Effect.apart_close hne
    · intro p hm
      exact apart_fdsOf hs hc (not_boundTo_deviceIdAt hs (hlive p hm) hne sys)
  rcases onReadFailure_move hs fd sys with he | hm | hm
  · rw [he]
    exact .refl hc
  · exact Move.keeps hm hs hc hemits
  · exact Move.keeps hm hs hc hemits

private theorem reattach_keeps (hs : Sound st) (hc : Connected st.hub c)
    (hp : st.hub.heap p = some s) (hok : slotFd st.hub (.tcp p) = some c → ReattachOk st p s sys) :
    Keeps c st (st.reattach s.vhciFd p s sys) := by
  obtain ⟨sock, h₀, hsock, -⟩ := hs.wf.usable p s hp
  have hun := unplug_unplugs hs hp
  have hpair : ∀ f ∈ [s.vhciFd, s.kernelFd], f ≠ c := by
    intro f hf he
    have hslot : ∃ x, slotFd st.hub x = some c ∧ ∀ q, x ≠ .vhci q ∧ x ≠ .kernel q := by
      rcases hc with h | ⟨q, h⟩
      · exact ⟨_, h, by simp⟩
      · exact ⟨_, h, by simp⟩
    obtain ⟨x, hx, hxp⟩ := hslot
    simp only [List.mem_cons, List.not_mem_nil, or_false] at hf
    rcases hf with rfl | rfl
    · exact (hxp p).1 (hs.wf.unique _ _ _ hx (he ▸ slotFd_vhci hp))
    · exact (hxp p).2 (hs.wf.unique _ _ _ hx (he ▸ slotFd_kernel hp))
  have hemits : st.os.Emits sys (Effect.Apart c) (st.reattach s.vhciFd p s sys).os := by
    apply reattach_emits apart_sysfsAttach
    · refine removeSession_emits (.of_eq rfl rfl rfl) fun f hf => Effect.apart_close ?_
      apply hpair
      simpa [HubServer.fdsOf, hs.wf.owned p s hp, sessionFds] using hf
    · intro f hf
      apply Effect.apart_close
      rintro rfl
      rw [hun.os.fds] at hf
      split at hf
      · exact hpair f ‹_› rfl
      · exact hc.open hs.wf hf
    · intro hfails f hf
      apply Effect.apart_close
      rintro rfl
      have hslot : slotFd st.hub (.tcp p) = some f := by
        rw [slotFd_tcp hp hsock]
        simpa [hsock, eq_comm] using hf
      rcases hfails with hnone | hneg
      · exact (hok hslot).1 hnone
      · exact attach_nonneg_of_reattachOk hs hp (hok hslot) hneg
  rcases reattach_moves hs hp sys with ⟨hm, -⟩ | ⟨hm, -⟩
  · exact Move.keeps hm hs hc hemits
  · exact Move.keeps hm hs hc hemits

private theorem vhciReadable_keeps (hs : Sound st) (hc : Connected st.hub c)
    (hp : st.hub.heap p = some s)
    (hok : slotFd st.hub (.tcp p) = some c → drainResult sys.reads ≠ some false)
    (h : st.vhciReadable p s sys = .ok st') : Keeps c st st' := by
  obtain ⟨h₀, hh, hcases⟩ := vhciReadable_forwards h
  have hmove := forwarded_move hp hh sys
  have hf : Keeps c st (st.forwarded p s h₀ sys) := by
    have hemits : st.os.Emits sys (Effect.Apart c) (st.forwarded p s h₀ sys).os :=
      Os.emit_emits _ ⟨rfl, Effect.noConfusion⟩
    exact Move.keeps hmove hs hc hemits
  rcases hcases with ⟨-, rfl⟩ | ⟨hdrain, rfl⟩
  · exact hf
  · refine hf.trans (removeSession_keeps (hmove.sound hs) hf.1 ?_)
    rintro ⟨q, hq, hslot⟩
    obtain rfl := Option.some.inj ((hs.wf.owned p s hp).symm.trans hq)
    refine hok ?_ hdrain
    simpa [slotFd, forwarded, hp] using hslot

/-- A turn on another descriptor that leaves the connection `c` alone: the turn ends, the map entry
that leads to its own connection is live, the packet it reads does not end the session of `c`, the
kernel side of that session neither fails nor is reset in vain, and while `c` is closed its
number is not handed out again. -/
structure Spares (c : Fd) (st : Daemon) (i : Input) : Prop where
  ends : ∃ st', step st i = .ok st'
  live : ∀ p, st.hub.tcpFdMap i.fd = some p → slotFd st.hub (.tcp p) = some i.fd
  packet : ∀ hdr payload, Reads st i hdr payload → ¬Ends st.hub c (hdr, payload)
  kernel : ∀ p, st.hub.route i.fd = .vhci p → slotFd st.hub (.tcp p) = some c →
    ¬ResetFails st i ∧ ¬Undetached st i
  number : st.os.fds c = none → ¬i.sys.Offers c

private theorem arrived_keeps (hc : Connected st.hub c) (hne : i.fd ≠ c) : Keeps c st
    (st.arrived i) :=
  ⟨hc, by simp [arrived, Os.deliver, hne.symm], rfl⟩

private theorem tcpRead_keeps (hs : Sound st) (hc : Connected st.hub c) (hne : i.fd ≠ c)
    (hsp : Spares c st i) (hr : ReadsTcp st i) (hstep : step st i = .ok st') : Keeps c st st' := by
  have hread : Keeps c st
      { st.arrived i with os := (st.arrived i).os.setRx i.fd ((st.arrived i).readTcpPacket i.fd).2 } :=
    ⟨hc, by simp [arrived, Os.deliver, Os.setRx, hne.symm], rfl⟩
  cases hpkt : ((st.arrived i).readTcpPacket i.fd).1 with
  | waiting =>
    rw [step_of_waiting hr hpkt] at hstep
    cases hstep
  | failed =>
    have hq : Move .quiet st { st.arrived i with
        os := (st.arrived i).os.setRx i.fd ((st.arrived i).readTcpPacket i.fd).2 } :=
      .quiet rfl rfl rfl rfl
    rw [step_of_readsTcp hr, onTcpReadable] at hstep
    simp only [hpkt, Except.ok.injEq] at hstep
    rw [← hstep]
    exact hread.trans (onReadFailure_keeps (hq.sound hs) hc hne hsp.live i.sys)
  | packet hdr payload =>
    have hreads : Reads st i hdr payload := ⟨hr, hpkt⟩
    have hq := received_quiet st i hdr payload
    have hrec : Keeps c st (st.received i hdr payload) := by
      refine ⟨hc, hread.2.trans ⟨rfl, ?_⟩⟩
      simp [handledOn, received, emit, Os.emit, Effect.packetOn, hne]
    rw [step_of_reads hreads] at hstep
    exact hrec.trans (handlePacket_keeps (hq.sound hs) hc (hsp.packet hdr payload hreads) hstep)

/-- A turn that spares a connection keeps it. -/
theorem step_keeps (hs : Sound st) (hc : Connected st.hub c) (hne : i.fd ≠ c) (hsp : Spares c st i)
    (hstep : step st i = .ok st') : Keeps c st st' := by
  have hs' := arrived_sound hs i
  have hq : Keeps c st (st.arrived i) := arrived_keeps hc hne
  cases step_turned hstep with
  | idle => exact hq
  | reply bytes hr => exact hq.trans ⟨hc, rfl, by simp [handledOn, emit, Os.emit, Effect.packetOn]⟩
  | @accept f os hr ha =>
    obtain ⟨-, hfree, rfl⟩ := Os.accept4_some ha
    have hcf : c ≠ f := fun he => hc.open hs.wf (he ▸ hfree)
    simp only [onTcpAccept, ha]
    refine hq.trans ⟨hc.of_slots (fun hp => ?_) fun q hq => ⟨q, hq⟩, rfl, rfl⟩
    simpa [slotFd, arrived, hcf] using hp
  | read hread _ => exact tcpRead_keeps hs hc hne hsp hread hstep
  | @hangup p hr hh =>
    refine hq.trans (removeSession_keeps hs' hq.1 ?_)
    exact not_boundTo_deviceIdAt hs' (hsp.live p (HubServer.route_tcp hr)) hne i.sys
  | @reset p s hr hp hh _ =>
    rw [route_vhciFd hs hr hp]
    refine hq.trans (reattach_keeps hs' hq.1 hp fun hslot => ?_)
    by_contra hfail
    exact (hsp.kernel p hr hslot).1 ⟨p, s, hr, hp, hh, hfail⟩
  | @drain p s _ hr hp hh hin h =>
    refine hq.trans (vhciReadable_keeps hs' hq.1 hp (fun hslot hdrain => ?_) h)
    exact (hsp.kernel p hr hslot).2 (.inr ⟨p, hr, hh, hin, hdrain⟩)

theorem step_stays_closed (hne : i.fd ≠ c) (hsp : Spares c st i) (hfree : st.os.fds c = none)
    (hstep : step st i = .ok st') :
    st'.os.fds c = none ∧ handledOn c st'.os.trace = handledOn c st.os.trace := by
  have hemits := step_emits hstep
  exact ⟨hemits.closed c hfree (hsp.number hfree), hemits.handled fun _ _ he => hne he.1.symm⟩

end Daemon
end WirelessHub
