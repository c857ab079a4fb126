import WirelessHub.Daemon.Moves

/-!
# The moves of one turn

Each handler of the event loop is a chain of moves. The chain of a turn also records what
the event and the answers of the system must have been for the moves that matter later:
an accepted connection, a session removed without a detach, a port marked for no session,
and a reset whose re-attach failed.
-/

namespace WirelessHub

open Function Framework

namespace Daemon

variable {st st' : Daemon} {p : SessionPtr} {s : DeviceSession} {d : UInt8} {sys : Syscalls}

theorem removeSession_of_none (h : st.hub.sessions d = none) : st.removeSession d = st := by
  simp [removeSession, h]

theorem removeSession_of_some (hp : st.hub.sessions d = some p) (hs : st.hub.heap p = some s) :
    st.removeSession d =
      { st with hub := st.hub.dropSession d p s, os := st.os.closeAll (sessionFds s) } := by
  simp [removeSession, hp, hs]

theorem removeSession_moves (hst : Sound st) (d : UInt8) :
    st.removeSession d = st ∨ Move (.remove false) st (st.removeSession d) := by
  cases hp : st.hub.sessions d with
  | none => exact .inl (removeSession_of_none hp)
  | some p =>
    obtain ⟨s, hs, rfl⟩ := hst.wf.live d p hp
    rw [removeSession_of_some hp hs]
    exact .inr (.remove false p s hs rfl rfl (st.os.closeAll_closes _))

theorem onDisconnect_of_none (h : st.hub.sessions d = none) : st.onDisconnect d sys = st := by
  simp [onDisconnect, HubServer.findByDeviceId, h]

theorem onDisconnect_of_some (hst : Sound st) (hp : st.hub.sessions d = some p)
    (hs : st.hub.heap p = some s) (sys : Syscalls) :
    ∃ sock, s.tcpSock = some sock ∧ st.onDisconnect d sys =
      { hub := st.hub.dropSession d p s
        vhci := if sys.sysfsDetach then st.vhci.freePort s.vhciPort else st.vhci
        os := ((st.os.epollDel s.vhciFd).epollDel sock.fd).closeAll (sessionFds s) } := by
  obtain ⟨sock, h₀, hsock, -⟩ := hst.wf.usable p s hs
  obtain ⟨hlo, hhi, hu⟩ := hst.ports.used p s hs
  refine ⟨sock, hsock, ?_⟩
  simp only [onDisconnect, HubServer.findByDeviceId, hp, hs, hsock, hlo, if_true,
    VhciDriver.detach_of_used hlo hhi hu]
  exact removeSession_of_some hp hs

theorem onDisconnect_moves (hst : Sound st) (d : UInt8) (sys : Syscalls) :
    (st.onDisconnect d sys = st ∨ Move (.remove sys.sysfsDetach) st (st.onDisconnect d sys)) ∧
      (st.onDisconnect d sys).hub.sessions d = none ∧
      (st.onDisconnect d sys).hub.pendingTcpSocks = st.hub.pendingTcpSocks := by
  cases hp : st.hub.sessions d with
  | none =>
    rw [onDisconnect_of_none hp]
    exact ⟨.inl rfl, hp, rfl⟩
  | some p =>
    obtain ⟨s, hs, hd⟩ := hst.wf.live d p hp
    obtain ⟨sock, hsock, he⟩ := onDisconnect_of_some hst hp hs sys
    rw [he]
    refine ⟨.inr (.remove _ p s hs (by rw [hd]) rfl ?_), by simp [HubServer.dropSession], rfl⟩
    have hc := Os.closeAll_closes ((st.os.epollDel s.vhciFd).epollDel sock.fd) (sessionFds s)
    exact (hc.of_epollDel (by simp [sessionFds, hsock])).of_epollDel (by simp [sessionFds])

private theorem reclosed (hw : Wf st.hub st.os) {a b : Fd} (ha : st.os.fds a = none)
    (hb : st.os.fds b = none) (os : Os)
    (hf : os.fds = ((st.os.opened a .blocking).opened b .blocking).fds)
    (he : os.epoll = st.os.epoll) :
    ((os.close a).close b).fds = st.os.fds ∧ ((os.close a).close b).epoll = st.os.epoll := by
  have hea : st.os.epoll a = none := by
    by_contra hc
    exact hw.registered a hc ha
  have heb : st.os.epoll b = none := by
    by_contra hc
    exact hw.registered b hc hb
  constructor <;> funext f <;> by_cases hfa : f = a <;> by_cases hfb : f = b <;>
    simp_all [Os.close, Os.opened]

@[simp] theorem attach_hub (st : Daemon) (f : Fd) (d : UInt8) (speed : UInt32) (sys : Syscalls) :
    (st.attach f d speed sys).2.hub = st.hub := rfl

@[simp] theorem attach_port (st : Daemon) (f : Fd) (d : UInt8) (speed : UInt32) (sys : Syscalls) :
    (st.attach f d speed sys).1 = (st.vhci.attach sys.sysfsAttach).1 := rfl

@[simp] theorem attach_fds (st : Daemon) (f : Fd) (d : UInt8) (speed : UInt32) (sys : Syscalls) :
    (st.attach f d speed sys).2.os.fds = st.os.fds := by
  simp only [attach]
  cases st.vhci.freeSlot <;> rfl

@[simp] theorem attach_epoll (st : Daemon) (f : Fd) (d : UInt8) (speed : UInt32)
    (sys : Syscalls) : (st.attach f d speed sys).2.os.epoll = st.os.epoll := by
  simp only [attach]
  cases st.vhci.freeSlot <;> rfl

/-- What `doUsbAttach` comes to: nothing, a marked port, or a session on the pending socket. -/
theorem doUsbAttach_moves (hst : Sound st) (hd : st.hub.sessions d = none) (speed : UInt8)
    (addr : SockaddrIn) (sys : Syscalls) :
    Move .quiet st (st.doUsbAttach d speed addr sys) ∨
      (Move .leak st (st.doUsbAttach d speed addr sys) ∧
        st.hub.pendingTcpSocks (ntohs addr.sinPort) = none) ∨
      Move (.connect sys.epollCtl) st (st.doUsbAttach d speed addr sys) := by
  cases hp : st.os.socketpair false sys.socketpair with
  | none =>
    left
    simp only [doUsbAttach, hp]
    exact .quiet rfl rfl rfl rfl
  | some r =>
    obtain ⟨a, b, os⟩ := r
    obtain ⟨-, hab, ha, hb, rfl⟩ := Os.socketpair_some hp
    have hback := fun speed' => reclosed hst.wf ha hb
      (attach { st with os := (st.os.opened a .blocking).opened b .blocking } a d speed' sys).2.os
      (attach_fds _ _ _ _ _) (attach_epoll _ _ _ _ _)
    by_cases hneg : (st.vhci.attach sys.sysfsAttach).1 < 0
    · left
      simp only [doUsbAttach, hp, attach_port, hneg, if_true]
      exact .quiet rfl (VhciDriver.attach_neg hneg) (hback _).1 (hback _).2
    · obtain ⟨port, hfree, hsys, hatt⟩ := VhciDriver.attach_nonneg (Int.not_lt.mp hneg)
      right
      cases hk : st.hub.pendingTcpSocks (ntohs addr.sinPort) with
      | none =>
        left
        simp only [doUsbAttach, hp, attach_port, hneg, if_false, attach_hub,
          HubServer.extractPendingSocket, hk]
        exact ⟨.leak port hfree rfl (congrArg Prod.snd hatt) (hback _).1 (hback _).2, trivial⟩
      | some sock =>
        right
        obtain ⟨-, hl⟩ := hst.extracted hk
        simp only [doUsbAttach, hp, attach_port, hneg, if_false, attach_hub,
          HubServer.extractPendingSocket, hk]
        refine .connect sys.epollCtl (ntohs addr.sinPort)
          (.make d (st.vhci.attach sys.sysfsAttach).1 b a addr (some sock)) sock hk ?_
        exact
          { device := hd, tcpSock := rfl, handler := rfl, loose := hl, pair := hab.symm
            vhciFree := hb, kernelFree := ha
            port := ⟨port, hfree, congrArg Prod.fst hatt, congrArg Prod.snd hatt⟩
            hub := rfl
            fds := by
              rw [Os.epollAdd_fds, Os.epollAdd_fds, attach_fds]
              rfl
            epoll := by
              simp only [Os.epollAdd_epoll, attach_epoll, if_true]
              rfl }

theorem unplug_unplugs (hst : Sound st) (hs : st.hub.heap p = some s) :
    Unplugs p s st (st.unplug s.vhciFd p s) := by
  have he : st.unplug s.vhciFd p s =
      { hub := st.hub.dropSession s.deviceId p { s with tcpSock := none }
        vhci := st.vhci.freePort s.vhciPort
        os := (st.os.epollDel s.vhciFd).closeAll [s.vhciFd, s.kernelFd] } := by
    have hp := hst.wf.owned p s hs
    simp [unplug, removeSession, hp, HubServer.dropSession, sessionFds]
  rw [he]
  refine ⟨hs, rfl, rfl, ?_⟩
  exact (Os.closeAll_closes _ [s.vhciFd, s.kernelFd]).of_epollDel (by simp)

private theorem freeSlot_freePort (v : VhciDriver) {q : Int} (h₀ : 0 ≤ q) (h₁ : q < maxPorts) :
    (v.freePort q).freeSlot ≠ none := by
  intro hn
  have hu := VhciDriver.freeSlot_none hn (i := q.toNat) (by omega)
  rw [VhciDriver.freePort_ports v h₀ h₁, if_pos rfl] at hu
  exact absurd hu (by simp)

/-- A reset succeeds when a socketpair can be had after the old one is closed and the sysfs
write goes through. -/
def ReattachOk (st : Daemon) (p : SessionPtr) (s : DeviceSession) (sys : Syscalls) : Prop :=
  (st.unplug s.vhciFd p s).os.socketpair false sys.socketpair ≠ none ∧ sys.sysfsAttach = true

theorem attach_nonneg_of_reattachOk (hst : Sound st) (hs : st.hub.heap p = some s)
    (hok : ReattachOk st p s sys) :
    ¬((st.unplug s.vhciFd p s).vhci.attach sys.sysfsAttach).1 < 0 := by
  intro hneg
  obtain ⟨hlo, hhi, -⟩ := hst.ports.used p s hs
  obtain ⟨port, hfree⟩ := Option.ne_none_iff_exists'.mp (freeSlot_freePort st.vhci hlo hhi)
  rw [(unplug_unplugs hst hs).vhci, hok.2, VhciDriver.attach_of_free hfree] at hneg
  exact absurd hneg (by simp)

theorem reattach_moves (hst : Sound st) (hs : st.hub.heap p = some s) (sys : Syscalls) :
    (Move (.reset sys.epollCtl) st (st.reattach s.vhciFd p s sys) ∧ ReattachOk st p s sys) ∨
      (Move .resetFail st (st.reattach s.vhciFd p s sys) ∧ ¬ReattachOk st p s sys) := by
  obtain ⟨sock, h₀, hsock, -⟩ := hst.wf.usable p s hs
  have hun := unplug_unplugs hst hs
  obtain ⟨hmid, hloose, hdev⟩ := hun.spec hst hsock
  cases hp : (st.unplug s.vhciFd p s).os.socketpair false sys.socketpair with
  | none =>
    refine .inr ⟨.resetFail p s sock hsock hun ?_ ?_ ?_, fun h => h.1 hp⟩ <;>
      simp only [reattach, hp, dropSocket, hsock]
    exact Os.closeAll_closes _ [sock.fd]
  | some r =>
    obtain ⟨a, b, os⟩ := r
    obtain ⟨-, hab, ha, hb, rfl⟩ := Os.socketpair_some hp
    generalize hm : st.unplug s.vhciFd p s = mid at *
    have hback := fun speed => reclosed hmid.wf ha hb
      (attach { mid with os := (mid.os.opened a .blocking).opened b .blocking } a s.deviceId speed
        sys).2.os (attach_fds _ _ _ _ _) (attach_epoll _ _ _ _ _)
    by_cases hneg : (mid.vhci.attach sys.sysfsAttach).1 < 0
    · refine .inr ⟨?_, fun h => ?_⟩
      · refine .resetFail p s sock hsock hun ?_ ?_ ?_ <;>
          simp only [reattach, hm, hp, dropSocket, hsock, attach_port, hneg, if_true]
        · rfl
        · exact VhciDriver.attach_neg hneg
        · exact (Os.closeAll_closes _ [sock.fd]).of_tables (hback _).1 (hback _).2
      · rw [← hm] at hneg
        exact attach_nonneg_of_reattachOk hst hs h hneg
    · obtain ⟨port, hfree, hsys, hatt⟩ := VhciDriver.attach_nonneg (Int.not_lt.mp hneg)
      refine .inl ⟨?_, by rw [hm, hp]; exact Option.some_ne_none _, hsys⟩
      simp only [reattach, hm, hp, attach_port, hneg, if_false, attach_hub]
      refine .reset sys.epollCtl p s
        (.make s.deviceId (mid.vhci.attach sys.sysfsAttach).1 b a s.devAddr s.tcpSock) sock hsock rfl
        hun ?_
      exact
        { device := hdev, tcpSock := hsock, handler := by rw [hsock]; rfl, loose := hloose
          pair := hab.symm, vhciFree := hb, kernelFree := ha
          port := ⟨port, hfree, congrArg Prod.fst hatt, congrArg Prod.snd hatt⟩
          hub := rfl
          fds := by
            rw [Os.epollAdd_fds, attach_fds]
            rfl
          epoll := by
            simp only [Os.epollAdd_epoll, attach_epoll]
            rfl }

/-- The daemon after the handler of the session at `p` has sent what it read. -/
def forwarded (st : Daemon) (p : SessionPtr) (s : DeviceSession) (h : PassthroughHandler)
    (sys : Syscalls) : Daemon :=
  { st with
    hub := { st.hub with heap := update st.hub.heap p (some { s with
      handler := some (h.onVhciReadable sys.sends sys.reads).handler }) }
    os := st.os.emit (.tcpSend h.sock (h.onVhciReadable sys.sends sys.reads).bytes) }

theorem forwarded_move {h : PassthroughHandler} (hp : st.hub.heap p = some s)
    (hh : s.handler = some h) (sys : Syscalls) : Move .forward st (st.forwarded p s h sys) :=
  .forward p s h _ hp hh (h.onVhciReadable_handler sys.sends sys.reads) rfl rfl rfl rfl

/-- A drain that ends has forwarded what it read, and the session goes if its handler failed. -/
theorem vhciReadable_forwards (h : st.vhciReadable p s sys = .ok st') :
    ∃ h₀, s.handler = some h₀ ∧
      (drainResult sys.reads = some true ∧ st' = st.forwarded p s h₀ sys ∨
        drainResult sys.reads = some false ∧
          st' = (st.forwarded p s h₀ sys).removeSession s.deviceId) := by
  rw [vhciReadable] at h
  cases hh : s.handler with
  | none => simp [hh] at h
  | some h₀ =>
    have hresult := h₀.onVhciReadable_result sys.sends sys.reads
    simp only [hh] at h
    refine ⟨h₀, rfl, ?_⟩
    cases hd : (h₀.onVhciReadable sys.sends sys.reads).result with
    | none => simp [hd] at h
    | some b =>
      rw [hd, or_iff_right (Option.some_ne_none b)] at hresult
      cases b with
      | true =>
        simp only [hd, Except.ok.injEq] at h
        exact .inl ⟨hresult.symm, h.symm⟩
      | false =>
        simp only [hd, Except.ok.injEq] at h
        exact .inr ⟨hresult.symm, h.symm⟩

section Handlers

variable {ok : MoveKind → Prop} {fd : Fd} {hdr : Header} {payload : List UInt8}

/-- The kinds of moves that are part of the normal course of a turn. -/
structure Usual (ok : MoveKind → Prop) (sys : Syscalls) : Prop where
  quiet : ok .quiet
  forward : ok .forward
  dropPending : ok .dropPending
  remove : ok (.remove sys.sysfsDetach)
  connect : ok (.connect sys.epollCtl)
  reset : ok (.reset sys.epollCtl)

private theorem disconnects (hok : Usual ok sys) (hst : Sound st) (d : UInt8) :
    Moves ok st (st.onDisconnect d sys) := by
  rcases (onDisconnect_moves hst d sys).1 with he | hm
  · rw [he]
    exact .refl st
  · exact .single hok.remove hm

theorem evict_eq (st : Daemon) (d : UInt8) (sys : Syscalls) :
    st.evict d sys = st.onDisconnect d sys := by
  cases hd : st.hub.findByDeviceId d <;> simp [evict, onDisconnect, hd]

theorem evict_spec (hst : Sound st) (d : UInt8) (sys : Syscalls) :
    st.evict d sys = st.onDisconnect d sys ∧ (st.evict d sys).hub.sessions d = none ∧
      (st.evict d sys).hub.pendingTcpSocks = st.hub.pendingTcpSocks := by
  rw [evict_eq]
  exact ⟨rfl, (onDisconnect_moves hst d sys).2⟩

theorem evict_sound (hst : Sound st) (d : UInt8) (sys : Syscalls) : Sound (st.evict d sys) := by
  rw [(evict_spec hst d sys).1]
  rcases (onDisconnect_moves hst d sys).1 with he | hm
  · rw [he]
    exact hst
  · exact hm.sound hst

theorem onReadFailure_move (hst : Sound st) (fd : Fd) (sys : Syscalls) :
    st.onReadFailure fd sys = st ∨ Move .dropPending st (st.onReadFailure fd sys) ∨
      Move (.remove sys.sysfsDetach) st (st.onReadFailure fd sys) := by
  cases hp : st.hub.pendingTcpSocks fd with
  | some sock =>
    refine .inr (.inl (.dropPending fd sock hp ?_ ?_ ?_)) <;> simp only [onReadFailure, hp]
    · rfl
    · exact st.os.close_closes sock.fd
  | none =>
    cases hm : st.hub.tcpFdMap fd with
    | none => exact .inl (by simp only [onReadFailure, hp, hm])
    | some p =>
      simp only [onReadFailure, hp, hm]
      exact (onDisconnect_moves hst _ sys).1.imp_right .inr

private theorem onReadFailure_moves (hok : Usual ok sys) (hst : Sound st) (fd : Fd) :
    Moves ok st (st.onReadFailure fd sys) := by
  rcases onReadFailure_move hst fd sys with he | hm | hm
  · rw [he]
    exact .refl st
  · exact .single hok.dropPending hm
  · exact .single hok.remove hm

def IsConnect (hdr : Header) (payload : List UInt8) : Prop :=
  hdr.cmdType = CmdType.deviceEvent.toByte ∧ DeviceEventPayload.size ≤ payload.length ∧
    (DeviceEventPayload.decode payload).event = DeviceEvent.connect.toByte

def IsDisconnect (hdr : Header) (payload : List UInt8) : Prop :=
  hdr.cmdType = CmdType.deviceEvent.toByte ∧ DeviceEventPayload.size ≤ payload.length ∧
    (DeviceEventPayload.decode payload).event = DeviceEvent.disconnect.toByte

theorem handlePacket_of_connect (h : IsConnect hdr payload) : st.handlePacket fd hdr payload sys =
    .ok (st.onConnectEvent fd (.decode payload) sys) := by
  rw [handlePacket, if_pos h.1, onDeviceEvent, if_neg (Nat.not_lt.mpr h.2.1)]
  simp only [h.2.2, if_true]

theorem handlePacket_of_disconnect (h : IsDisconnect hdr payload) : st.handlePacket fd hdr payload sys =
    .ok (st.onDisconnect (DeviceEventPayload.decode payload).deviceId sys) := by
  rw [handlePacket, if_pos h.1, onDeviceEvent, if_neg (Nat.not_lt.mpr h.2.1)]
  simp only [h.2.2, if_true, show DeviceEvent.disconnect.toByte ≠ DeviceEvent.connect.toByte by decide,
    if_false]

/-- The descriptor is pending, but not under the number that comes out of the port field. -/
def Truncated (hub : HubServer) (fd : Fd) : Prop :=
  hub.pendingTcpSocks fd ≠ none ∧ hub.pendingTcpSocks (fd % 65536) = none

private theorem onConnectEvent_moves (hok : Usual ok sys) (hst : Sound st)
    (hl : Truncated st.hub fd → ok .leak) (dep : DeviceEventPayload) :
    Moves ok st (st.onConnectEvent fd dep sys) := by
  obtain ⟨he, hnone, hpend⟩ := evict_spec hst dep.deviceId sys
  have hm : Moves ok st (st.evict dep.deviceId sys) := he ▸ disconnects hok hst dep.deviceId
  simp only [onConnectEvent]
  generalize st.evict dep.deviceId sys = mid at *
  cases hp : mid.hub.pendingTcpSocks fd with
  | none => exact hm
  | some sock =>
    refine hm.trans ?_
    rcases doUsbAttach_moves (hm.sound hst) hnone dep.speed ⟨htons fd⟩ sys with
      hq | ⟨hq, hn⟩ | hq
    · exact .single hok.quiet hq
    · refine .single (hl ⟨?_, ?_⟩) hq
      · rw [← hpend, hp]
        exact Option.some_ne_none sock
      · rw [← hpend, ← hn, ntohs_htons]
    · exact .single hok.connect hq

/-- The packet is data for a device with a session, and the `write` to its kernel side does not
get to the end of it. -/
def Blocks (hub : HubServer) (hdr : Header) (payload : List UInt8) (sys : Syscalls) : Prop :=
  hdr.cmdType = CmdType.rawData.toByte ∧ (hub.sessions hdr.deviceId).bind hub.heap ≠ none ∧
    Stalls writeVerdict sys.writes payload.length

/-- What the handling of a packet comes to. -/
inductive Handles (st : Daemon) (fd : Fd) (hdr : Header) (payload : List UInt8) (sys : Syscalls) :
    Daemon → Prop
  | connect (asks : IsConnect hdr payload) :
      Handles st fd hdr payload sys (st.onConnectEvent fd (.decode payload) sys)
  | disconnect (asks : IsDisconnect hdr payload) :
      Handles st fd hdr payload sys
        (st.onDisconnect (DeviceEventPayload.decode payload).deviceId sys)
  | data (s : DeviceSession) (h : PassthroughHandler) (cmd : hdr.cmdType = CmdType.rawData.toByte)
      (session : (st.hub.sessions hdr.deviceId).bind st.hub.heap = some s)
      (handler : s.handler = some h)
      (written : ¬Stalls writeVerdict sys.writes payload.length) :
      Handles st fd hdr payload sys ((st.emit (.deviceData hdr.deviceId h.vhciFd payload)).emit
        (.kernelWrite h.vhciFd (onDeviceData sys.writes payload).taken))
  | log (level : UInt8) (msg : List UInt8) (cmd : hdr.cmdType = CmdType.log.toByte) :
      Handles st fd hdr payload sys (st.emit (.logLine level (stripLineEnds msg)))
  | ignored (noConnect : ¬IsConnect hdr payload) (noDisconnect : ¬IsDisconnect hdr payload)
      (noData : hdr.cmdType = CmdType.rawData.toByte →
        (st.hub.sessions hdr.deviceId).bind st.hub.heap = none) :
      Handles st fd hdr payload sys st

theorem handlePacket_handles (h : st.handlePacket fd hdr payload sys = .ok st') :
    Handles st fd hdr payload sys st' := by
  rw [handlePacket] at h
  by_cases hev : hdr.cmdType = CmdType.deviceEvent.toByte
  · rw [if_pos hev, Except.ok.injEq, onDeviceEvent] at h
    subst h
    have hraw : hdr.cmdType ≠ CmdType.rawData.toByte := by
      rw [hev]
      decide
    by_cases hlen : payload.length < DeviceEventPayload.size
    · rw [if_pos hlen]
      exact .ignored (fun hc => Nat.not_lt.mpr hc.2.1 hlen) (fun hd => Nat.not_lt.mpr hd.2.1 hlen)
        fun hr => absurd hr hraw
    rw [if_neg hlen]
    by_cases hcon : (DeviceEventPayload.decode payload).event = DeviceEvent.connect.toByte
    · simp only [hcon, if_true]
      exact .connect ⟨hev, Nat.not_lt.mp hlen, hcon⟩
    by_cases hdis : (DeviceEventPayload.decode payload).event = DeviceEvent.disconnect.toByte
    · simp only [hdis, if_true]
      exact .disconnect ⟨hev, Nat.not_lt.mp hlen, hdis⟩
    · simp only [hcon, hdis, if_false]
      exact .ignored (fun hc => hcon hc.2.2) (fun hd => hdis hd.2.2) fun hr => absurd hr hraw
  rw [if_neg hev] at h
  by_cases hraw : hdr.cmdType = CmdType.rawData.toByte
  · rw [if_pos hraw, onRawData] at h
    cases hb : (st.hub.sessions hdr.deviceId).bind st.hub.heap with
    | none =>
      simp only [hb, Except.ok.injEq] at h
      exact h ▸ .ignored (fun hc => hev hc.1) (fun hd => hev hd.1) fun _ => hb
    | some s =>
      cases hh : s.handler with
      | none => simp [hb, hh] at h
      | some h₀ =>
        simp only [hb, hh] at h
        split at h
        · cases h
        · rename_i hw
          cases h
          exact .data s h₀ hraw hb hh fun hstall =>
            hw ((transferAll_result_eq_none_iff sys.writes payload).mpr hstall)
  rw [if_neg hraw] at h
  have hskip : Handles st fd hdr payload sys st :=
    .ignored (fun hc => hev hc.1) (fun hd => hev hd.1) fun hr => absurd hr hraw
  split at h
  · rename_i hlog
    cases h
    cases payload with
    | nil => exact hskip
    | cons level msg => exact .log level msg hlog
  · cases h
    exact hskip

private theorem handlePacket_moves (hok : Usual ok sys) (hst : Sound st)
    (hl : IsConnect hdr payload → Truncated st.hub fd → ok .leak)
    (h : st.handlePacket fd hdr payload sys = .ok st') : Moves ok st st' := by
  cases handlePacket_handles h with
  | connect asks => exact onConnectEvent_moves hok hst (hl asks) _
  | disconnect => exact disconnects hok hst _
  | data | log => exact .single hok.quiet (.quiet rfl rfl rfl rfl)
  | ignored => exact .refl st

theorem onTcpReadable_moves (hok : Usual ok sys) (hst : Sound st)
    (hl : ∀ hdr payload, (st.readTcpPacket fd).1 = .packet hdr payload → IsConnect hdr payload →
      Truncated st.hub fd → ok .leak)
    (h : st.onTcpReadable fd sys = .ok st') : Moves ok st st' := by
  have hq : Moves ok st { st with os := st.os.setRx fd (st.readTcpPacket fd).2 } :=
    .single hok.quiet (.quiet rfl rfl rfl rfl)
  rw [onTcpReadable] at h
  cases hr : (st.readTcpPacket fd).1 with
  | waiting => simp [hr] at h
  | failed =>
    simp only [hr, Except.ok.injEq] at h
    exact hq.trans (h ▸ onReadFailure_moves hok (hq.sound hst) fd)
  | packet hdr payload =>
    simp only [hr] at h
    have hq' : Moves ok st ({ st with os := st.os.setRx fd (st.readTcpPacket fd).2 }.emit
        (.packet fd hdr payload)) := .single hok.quiet (.quiet rfl rfl rfl rfl)
    exact hq'.trans (handlePacket_moves hok (hq'.sound hst) (hl hdr payload hr) h)

end Handlers

end Daemon
end WirelessHub
