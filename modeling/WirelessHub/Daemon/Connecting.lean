import WirelessHub.Daemon.Decoding

/-!
# What a `CONNECT` binds

A `CONNECT` first ends the session that its device has, and then takes the socket of its
connection from the pending ones. So a device is bound to the connection only if the
connection was still pending, and only if the descriptor survives the 16-bit port field that
carries it to the attach callback. The sessions of other devices stay as they are.
-/

namespace WirelessHub

open Function Framework

/-- The device keeps its session, and the session stays as it is. -/
structure SameSession (d : UInt8) (hub hub' : HubServer) : Prop where
  sessions : hub'.sessions d = hub.sessions d
  heap : ∀ p, hub.sessions d = some p → hub'.heap p = hub.heap p

section SameSession

variable {d d' : UInt8} {hub hub' hub'' : HubServer} {p : SessionPtr} {s : DeviceSession}

private theorem SameSession.refl (d : UInt8) (hub : HubServer) : SameSession d hub hub := ⟨rfl, fun _ _ => rfl⟩

private theorem SameSession.trans (h : SameSession d hub hub') (h' : SameSession d hub' hub'') :
    SameSession d hub hub'' :=
  ⟨h'.sessions.trans h.sessions,
    fun p hp => (h'.heap p (h.sessions.trans hp)).trans (h.heap p hp)⟩

private theorem sameSession_dropSession {os : Os} (hw : Wf hub os) (hp : hub.sessions d' = some p) (hne : d ≠ d') :
    SameSession d hub (hub.dropSession d' p s) := by
  refine ⟨update_of_ne hne _ _, fun q hq => update_of_ne ?_ _ _⟩
  rintro rfl
  obtain ⟨r, hr, hd⟩ := hw.live d q hq
  obtain ⟨r', hr', hd'⟩ := hw.live d' q hp
  obtain rfl := Option.some.inj (hr.symm.trans hr')
  exact hne (hd.symm.trans hd')

private theorem sameSession_addSession {os : Os} (hw : Wf hub os) (hne : d ≠ s.deviceId) :
    SameSession d hub (hub.addSession s) := by
  refine ⟨update_of_ne hne _ _, fun q hq => update_of_ne ?_ _ _⟩
  rintro rfl
  obtain ⟨r, hr, -⟩ := hw.live d hub.nextPtr hq
  rw [hw.fresh hub.nextPtr (Nat.le_refl _)] at hr
  cases hr

theorem SameSession.heap_of {os : Os} (h : SameSession s.deviceId hub hub') (hw : Wf hub os)
    (hp : hub.heap p = some s) : hub'.heap p = some s :=
  (h.heap p (hw.owned p s hp)).trans hp

end SameSession

namespace Daemon

variable {st st' : Daemon} {i : Input} {d d' : UInt8} {sys : Syscalls}

theorem onDisconnect_sameSession (hs : Sound st) (hne : d ≠ d') (sys : Syscalls) :
    SameSession d st.hub (st.onDisconnect d' sys).hub := by
  cases hp : st.hub.sessions d' with
  | none =>
    rw [onDisconnect_of_none hp]
    exact .refl d st.hub
  | some p =>
    obtain ⟨s, hheap, -⟩ := hs.wf.live d' p hp
    obtain ⟨sock, -, he⟩ := onDisconnect_of_some hs hp hheap sys
    rw [he]
    exact sameSession_dropSession hs.wf hp hne

/-- The socketpair and the port that an attach asks for can be had. -/
structure AttachOk (st : Daemon) (sys : Syscalls) : Prop where
  pair : st.os.socketpair false sys.socketpair ≠ none
  port : 0 ≤ (st.vhci.attach sys.sysfsAttach).1

/-- An attach ends with a session on the pending socket that the port field names, or without
a change to the hub. The latter needs a failed call or that there is no such socket. -/
theorem doUsbAttach_hub (st : Daemon) (d speed : UInt8) (addr : SockaddrIn) (sys : Syscalls) :
    ((AttachOk st sys → st.hub.pendingTcpSocks (ntohs addr.sinPort) = none) ∧
      (st.doUsbAttach d speed addr sys).hub = st.hub) ∨
    ∃ sock s, st.hub.pendingTcpSocks (ntohs addr.sinPort) = some sock ∧ s.deviceId = d ∧
      s.tcpSock = some sock ∧
      (st.doUsbAttach d speed addr sys).hub = (st.extracted (ntohs addr.sinPort)).hub.addSession s := by
  cases hpair : st.os.socketpair false sys.socketpair with
  | none =>
    refine .inl ⟨fun hok => absurd hpair hok.pair, ?_⟩
    simp only [doUsbAttach, hpair]
  | some r =>
    obtain ⟨a, b, os⟩ := r
    by_cases hneg : (st.vhci.attach sys.sysfsAttach).1 < 0
    · refine .inl ⟨fun hok => absurd hneg (Int.not_lt.mpr hok.port), ?_⟩
      simp only [doUsbAttach, hpair, attach_port, hneg, if_true]
      rfl
    cases hk : st.hub.pendingTcpSocks (ntohs addr.sinPort) with
    | none =>
      refine .inl ⟨fun _ => rfl, ?_⟩
      simp only [doUsbAttach, hpair, attach_port, hneg, if_false, attach_hub,
        HubServer.extractPendingSocket, hk]
      rfl
    | some sock =>
      refine .inr ⟨sock, .make d (st.vhci.attach sys.sysfsAttach).1 b a addr (some sock), rfl, rfl, rfl, ?_⟩
      simp only [doUsbAttach, hpair, attach_port, hneg, if_false, attach_hub,
        HubServer.extractPendingSocket, hk]
      rfl

private theorem boundTo_addSession (hub : HubServer) {s : DeviceSession} {sock : TcpSocket} {c : Fd}
    (hsock : s.tcpSock = some sock) : BoundTo (hub.addSession s) c s.deviceId ↔ sock.fd = c := by
  simp [BoundTo, slotFd, HubServer.addSession, hsock]

theorem onConnectEvent_boundTo_iff {fd : Fd} {dep : DeviceEventPayload} (hs : Sound st)
    (hok : AttachOk (st.evict dep.deviceId sys) sys) :
    BoundTo (st.onConnectEvent fd dep sys).hub fd dep.deviceId ↔
      st.hub.pendingTcpSocks fd ≠ none ∧ fd < 65536 := by
  obtain ⟨-, hnone, hpend⟩ := evict_spec hs dep.deviceId sys
  have hmid := evict_sound hs dep.deviceId sys
  rw [← hpend]
  simp only [onConnectEvent]
  generalize st.evict dep.deviceId sys = mid at *
  have hunbound : ¬BoundTo mid.hub fd dep.deviceId := by
    rintro ⟨p, hp, -⟩
    simp [hnone] at hp
  cases hk : mid.hub.pendingTcpSocks fd with
  | none => simpa using hunbound
  | some sock =>
    -- the attach looks for the pending socket under the number that the port field carries
    have hport : ntohs (htons fd) = fd % 65536 := ntohs_htons fd
    obtain ⟨hn, hhub⟩ | ⟨sock', s, hsock', hd, hs', hhub⟩ :=
      doUsbAttach_hub mid dep.deviceId dep.speed ⟨htons fd⟩ sys
    · simp only [hhub, hunbound, false_iff, not_and]
      intro _ hlt
      have hnone' := hn hok
      rw [hport, Nat.mod_eq_of_lt hlt, hk] at hnone'
      cases hnone'
    · have hfd : sock'.fd = fd % 65536 := (hmid.wf.pendingKey _ _ hsock').trans hport
      have hbound := boundTo_addSession (c := fd) (mid.extracted (ntohs (htons fd))).hub hs'
      rw [hd, hfd] at hbound
      simp only [hhub, hbound]
      simp

theorem onConnectEvent_sameSession {dep : DeviceEventPayload} (hs : Sound st)
    (hne : d ≠ dep.deviceId) (fd : Fd) (sys : Syscalls) :
    SameSession d st.hub (st.onConnectEvent fd dep sys).hub := by
  have hevict : SameSession d st.hub (st.evict dep.deviceId sys).hub := by
    rw [(evict_spec hs dep.deviceId sys).1]
    exact onDisconnect_sameSession hs hne sys
  have hmid := evict_sound hs dep.deviceId sys
  simp only [onConnectEvent]
  generalize st.evict dep.deviceId sys = mid at *
  split
  · obtain ⟨-, hhub⟩ | ⟨sock, s, hsock, hd, -, hhub⟩ :=
      doUsbAttach_hub mid dep.deviceId dep.speed ⟨htons fd⟩ sys
    · rw [hhub]
      exact hevict
    · have hout : SameSession d mid.hub (mid.extracted (ntohs (htons fd))).hub :=
        ⟨rfl, fun _ _ => rfl⟩
      rw [hhub]
      exact (hevict.trans hout).trans
        (sameSession_addSession (hmid.extracted hsock).1.wf (hd ▸ hne))
  · exact hevict

variable {udpFd tcpServerFd : Fd} {inherited : Fd → Option FdMode} {is : List Input} {hdr : Header}
  {payload : List UInt8}

/-- In every state of every run, a `CONNECT` whose socketpair and port can be had binds the
device to the connection it came on exactly if this connection is still pending and its
descriptor fits in 16 bits. The sessions of other devices stay as they are in any case. -/
theorem connect_binds_iff (hr : run step (boot udpFd tcpServerFd inherited) is = .ok st)
    (hread : Reads st i hdr payload) (hcon : IsConnect hdr payload)
    (hok : AttachOk ((st.received i hdr payload).evict (DeviceEventPayload.decode payload).deviceId
      i.sys) i.sys) :
    ∃ st', step st i = .ok st' ∧
      (BoundTo st'.hub i.fd (DeviceEventPayload.decode payload).deviceId ↔
        st.hub.pendingTcpSocks i.fd ≠ none ∧ i.fd < 65536) ∧
      ∀ d, d ≠ (DeviceEventPayload.decode payload).deviceId → SameSession d st.hub st'.hub := by
  have hs := (received_quiet st i hdr payload).sound (run_sound hr)
  have hstep : step st i = .ok ((st.received i hdr payload).onConnectEvent i.fd
      (DeviceEventPayload.decode payload) i.sys) := by
    rw [step_of_reads hread, handlePacket_of_connect hcon]
  exact ⟨_, hstep, onConnectEvent_boundTo_iff hs hok, fun d hne =>
    onConnectEvent_sameSession hs hne i.fd i.sys⟩

def connectHeader (d : UInt8) : Header := ⟨CmdType.deviceEvent.toByte, d, 0, 0, 8⟩

def connectPayload (d : UInt8) : List UInt8 :=
  DeviceEventPayload.encode ⟨d, DeviceEvent.connect.toByte, 2, 3, 1, 1, deviceBasePort⟩

/-- What the hypotheses on a `CONNECT` of the device come to for an input. -/
def Offers (st : Daemon) (i : Input) (d : UInt8) : Prop :=
  Reads st i (connectHeader d) (connectPayload d) ∧
    AttachOk ((st.received i (connectHeader d) (connectPayload d)).evict d i.sys) i.sys

theorem first_connect_binds :
    ∃ st, run step (boot 3 4 fun _ => none) [acceptInput 4 5] = .ok st ∧
      ∃ st', step st (connectInput 5 0 (6, 7)) = .ok st' ∧ BoundTo st'.hub 5 0 := by
  obtain ⟨st, hr, ⟨hread, hok⟩, hpend⟩ : ∃ st,
      run step (boot 3 4 fun _ => none) [acceptInput 4 5] = .ok st ∧
      Offers st (connectInput 5 0 (6, 7)) 0 ∧ st.hub.pendingTcpSocks 5 ≠ none :=
    ⟨_, rfl, ⟨⟨⟨rfl, .inl rfl⟩, rfl⟩, Option.some_ne_none _, Int.le_refl 0⟩, Option.some_ne_none _⟩
  obtain ⟨st', hstep, hbound, -⟩ := connect_binds_iff hr hread ⟨rfl, by decide, rfl⟩ hok
  exact ⟨st, hr, st', hstep, hbound.mpr ⟨hpend, by decide⟩⟩

/-- A `CONNECT` that is sent again on a bound connection leaves its device without a session. -/
theorem second_connect_unbinds :
    ∃ st st', run step (boot 3 4 fun _ => none) connectedRun = .ok st ∧ BoundTo st.hub 5 0 ∧
      Offers st (connectInput 5 0 (5, 6)) 0 ∧ IsConnect (connectHeader 0) (connectPayload 0) ∧
      step st (connectInput 5 0 (5, 6)) = .ok st' ∧ st'.hub.sessions 0 = none :=
  ⟨_, _, rfl, ⟨0, rfl, rfl⟩,
    ⟨⟨⟨rfl, .inr ⟨0, rfl, rfl⟩⟩, rfl⟩, Option.some_ne_none _, Int.le_refl 0⟩,
    ⟨rfl, by decide, rfl⟩, rfl, rfl⟩

end Daemon
end WirelessHub
