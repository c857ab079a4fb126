import WirelessHub.Daemon.Runs

/-!
# What a turn leaves behind

Each handler says once which effects it can have and which descriptors it can close. What the
hub has handled, written or sent over a run is read off the trace, and that a handler leaves
one of these alone follows from the effects it can have.
-/

namespace WirelessHub

open Function Framework

/-- The system hands out the number in this turn. -/
def Syscalls.Offers (sys : Syscalls) (f : Fd) : Prop :=
  sys.accept = some f ∨ ∃ a b, sys.socketpair = some (a, b) ∧ (f = a ∨ f = b)

/-- Only effects in `P` are added. A descriptor that they do not close keeps its unread input and
stays open, and a closed one stays closed unless its number is handed out. -/
structure Os.Emits (sys : Syscalls) (P : Effect → Prop) (os os' : Os) : Prop where
  trace : ∃ new, os'.trace = os.trace ++ new ∧ ∀ e ∈ new, P e
  rx : ∀ f, ¬P (.close f) → os'.rx f = os.rx f
  opened : ∀ f, ¬P (.close f) → os.fds f ≠ none → os'.fds f ≠ none
  closed : ∀ f, os.fds f = none → ¬sys.Offers f → os'.fds f = none

namespace Os

variable {sys : Syscalls} {P Q : Effect → Prop} {os os' os'' : Os} {β : Type}

theorem Emits.of_eq (ht : os'.trace = os.trace) (hr : os'.rx = os.rx) (hf : os'.fds = os.fds) :
    os.Emits sys P os' where
  trace := ⟨[], by rw [ht, List.append_nil], fun _ he => absurd he List.not_mem_nil⟩
  rx _ _ := by rw [hr]
  opened _ _ h := by rwa [hf]
  closed _ h _ := by rwa [hf]

private theorem Emits.trans (h : os.Emits sys P os') (h' : os'.Emits sys P os'') :
    os.Emits sys P os'' := by
  obtain ⟨new, ht, hnew⟩ := h.trace
  obtain ⟨new', ht', hnew'⟩ := h'.trace
  constructor
  · refine ⟨new ++ new', by rw [ht', ht, List.append_assoc], fun e he => ?_⟩
    exact (List.mem_append.mp he).elim (hnew e) (hnew' e)
  · exact fun f hf => (h'.rx f hf).trans (h.rx f hf)
  · exact fun f hf ho => h'.opened f hf (h.opened f hf ho)
  · exact fun f hc hno => h'.closed f (h.closed f hc hno) hno

private theorem Emits.mono (h : os.Emits sys P os') (hPQ : ∀ e, P e → Q e) :
    os.Emits sys Q os' := by
  obtain ⟨new, ht, hnew⟩ := h.trace
  constructor
  · exact ⟨new, ht, fun e he => hPQ e (hnew e he)⟩
  · exact fun f hf => h.rx f fun hp => hf (hPQ _ hp)
  · exact fun f hf => h.opened f fun hp => hf (hPQ _ hp)
  · exact h.closed

theorem Emits.filterMap_eq {g : Effect → Option β} (h : os.Emits sys P os')
    (hg : ∀ e, P e → g e = none) : os'.trace.filterMap g = os.trace.filterMap g := by
  obtain ⟨new, ht, hnew⟩ := h.trace
  have hnil : new.filterMap g = [] :=
    List.filterMap_eq_nil_iff.mpr fun e he => hg e (hnew e he)
  rw [ht, List.filterMap_append, hnil, List.append_nil]

theorem Emits.flatMap_eq {g : Effect → List β} (h : os.Emits sys P os')
    (hg : ∀ e, P e → g e = []) : os'.trace.flatMap g = os.trace.flatMap g := by
  obtain ⟨new, ht, hnew⟩ := h.trace
  have hnil : new.flatMap g = [] := List.flatMap_eq_nil_iff.mpr fun e he => hg e (hnew e he)
  rw [ht, List.flatMap_append, hnil, List.append_nil]

theorem emit_emits (os : Os) {e : Effect} (he : P e) : os.Emits sys P (os.emit e) where
  trace := ⟨[e], rfl, fun _ h => List.mem_singleton.mp h ▸ he⟩
  rx _ _ := rfl
  opened _ _ h := h
  closed _ h _ := h

private theorem close_emits (os : Os) {f : Fd} (hf : P (.close f)) : os.Emits sys P
    (os.close f) where
  trace := ⟨[.close f], rfl, fun _ h => List.mem_singleton.mp h ▸ hf⟩
  rx g hg := by
    have hne : g ≠ f := fun he => hg (he ▸ hf)
    simp [close, hne]
  opened g hg h := by
    have hne : g ≠ f := fun he => hg (he ▸ hf)
    simpa [close, hne] using h
  closed g h _ := by
    by_cases hne : g = f <;> simp [close, hne, h]

theorem closeAll_emits (os : Os) {l : List Fd} (hl : ∀ f ∈ l, P (.close f)) :
    os.Emits sys P (os.closeAll l) := by
  induction l generalizing os with
  | nil => exact .of_eq rfl rfl rfl
  | cons f l ih =>
    have hf : os.Emits sys P (os.close f) := os.close_emits (hl f List.mem_cons_self)
    exact hf.trans (ih (os.close f) fun g hg => hl g (List.mem_cons_of_mem f hg))

private theorem epollAdd_emits (os : Os) (f : Fd) (evts : EventMask) (ok : Bool) :
    os.Emits sys P (os.epollAdd f evts ok) := by
  cases ok <;> exact .of_eq rfl rfl rfl

private theorem opened_emits (os : Os) {f : Fd} (hf : sys.Offers f) (mode : FdMode) :
    os.Emits sys P (os.opened f mode) where
  trace := ⟨[], (List.append_nil _).symm, fun _ he => absurd he List.not_mem_nil⟩
  rx _ _ := rfl
  opened g _ h := by
    by_cases hne : g = f <;> simp [opened, hne, h]
  closed g h hno := by
    have hne : g ≠ f := fun he => hno (he ▸ hf)
    simpa [opened, hne] using h

private theorem socketpair_emits {flag : Bool} {a b : Fd}
    (h : os.socketpair flag sys.socketpair = some (a, b, os')) :
    os.Emits sys P os' ∧ os.fds a = none ∧ os.fds b = none := by
  obtain ⟨hpair, -, ha, hb, rfl⟩ := socketpair_some h
  have hoa : sys.Offers a := .inr ⟨a, b, hpair, .inl rfl⟩
  have hob : sys.Offers b := .inr ⟨a, b, hpair, .inr rfl⟩
  exact ⟨(os.opened_emits hoa _).trans (opened_emits _ hob _), ha, hb⟩

end Os

/-- The descriptors that the session of a device holds. -/
def HubServer.fdsOf (hub : HubServer) (d : UInt8) : List Fd :=
  ((hub.sessions d).bind hub.heap).elim [] Daemon.sessionFds

theorem HubServer.mem_fdsOf {hub : HubServer} {d : UInt8} {f : Fd} (h : f ∈ hub.fdsOf d) :
    ∃ p s, hub.sessions d = some p ∧ hub.heap p = some s ∧ f ∈ Daemon.sessionFds s := by
  cases hb : (hub.sessions d).bind hub.heap with
  | none => simp [fdsOf, hb] at h
  | some s =>
    obtain ⟨p, hp, hs⟩ := Option.bind_eq_some_iff.mp hb
    exact ⟨p, s, hp, hs, by simpa [fdsOf, hb] using h⟩

namespace Daemon

-- A chain of handlers is read from its start `os`, so each of these lemmas takes the chain so far.
variable {P : Effect → Prop} {os : Os} {st st' : Daemon} {i : Input} {d : UInt8} {p : SessionPtr}
  {s : DeviceSession} {sys : Syscalls}

theorem removeSession_emits (h : os.Emits sys P st.os)
    (hclose : ∀ f ∈ st.hub.fdsOf d, P (.close f)) : os.Emits sys P (st.removeSession d).os := by
  unfold removeSession
  cases hp : st.hub.sessions d with
  | none => exact h
  | some p =>
    cases hs : st.hub.heap p with
    | none =>
      simp only [hs]
      exact h
    | some s =>
      have hfds : st.hub.fdsOf d = sessionFds s := by simp [HubServer.fdsOf, hp, hs]
      simp only [hs]
      exact h.trans (Os.closeAll_emits _ (hfds ▸ hclose))

theorem onDisconnect_emits (h : os.Emits sys P st.os)
    (hclose : ∀ f ∈ st.hub.fdsOf d, P (.close f)) : os.Emits sys P (st.onDisconnect d sys).os := by
  unfold onDisconnect
  split
  · exact h
  · split
    · exact h
    · rename_i s _
      refine removeSession_emits (h.trans ?_) hclose
      cases s.tcpSock <;> exact .of_eq rfl rfl rfl

section Attach

variable (hsys : ∀ port f devid speed, P (.sysfsAttach port f devid speed))
include hsys

private theorem attach_emits (st : Daemon) (f : Fd) (d : UInt8) (speed : UInt32) (sys' : Syscalls) :
    st.os.Emits sys P (st.attach f d speed sys').2.os := by
  simp only [attach]
  cases st.vhci.freeSlot with
  | none => exact .of_eq rfl rfl rfl
  | some port => exact Os.emit_emits _ (hsys _ _ _ _)

private theorem paired_emits {a b : Fd} {os : Os}
    (hfree : ∀ f, st.os.fds f = none → P (.close f))
    (h : st.os.socketpair false sys.socketpair = some (a, b, os)) (d : UInt8) (speed : UInt32) :
    st.os.Emits sys P (attach { st with os := os } a d speed sys).2.os ∧
      st.os.Emits sys P (((attach { st with os := os } a d speed sys).2.close a).close b).os := by
  obtain ⟨hpair, ha, hb⟩ := Os.socketpair_emits (P := P) h
  have hatt := hpair.trans (attach_emits hsys { st with os := os } a d speed sys)
  have hclosed := (hatt.trans (Os.close_emits _ (hfree a ha))).trans (Os.close_emits _ (hfree b hb))
  exact ⟨hatt, hclosed⟩

theorem doUsbAttach_emits (hfree : ∀ f, st.os.fds f = none → P (.close f)) (d speed : UInt8)
    (addr : SockaddrIn) : st.os.Emits sys P (st.doUsbAttach d speed addr sys).os := by
  cases hp : st.os.socketpair false sys.socketpair with
  | none =>
    simp only [doUsbAttach, hp]
    exact .of_eq rfl rfl rfl
  | some r =>
    obtain ⟨a, b, os⟩ := r
    obtain ⟨hatt, hclosed⟩ := paired_emits hsys hfree hp d speed.toUInt32
    simp only [doUsbAttach, hp]
    split
    · exact hclosed
    · split
      · exact hclosed
      · exact (hatt.trans (Os.epollAdd_emits _ _ _ _)).trans (Os.epollAdd_emits _ _ _ _)

/-- The socket that was moved out of the session is closed only if the re-attach fails. -/
theorem reattach_emits {fd : Fd} (hun : os.Emits sys P (st.unplug fd p s).os)
    (hfree : ∀ f, (st.unplug fd p s).os.fds f = none → P (.close f))
    (hsock : (st.unplug fd p s).os.socketpair false sys.socketpair = none ∨
        ((st.unplug fd p s).vhci.attach sys.sysfsAttach).1 < 0 →
      ∀ f ∈ (s.tcpSock.map TcpSocket.fd).toList, P (.close f)) :
    os.Emits sys P (st.reattach fd p s sys).os := by
  refine hun.trans ?_
  rw [reattach]
  generalize st.unplug fd p s = mid at *
  cases hpair : mid.os.socketpair false sys.socketpair with
  | none => exact Os.closeAll_emits _ (hsock (.inl hpair))
  | some r =>
    obtain ⟨a, b, os'⟩ := r
    obtain ⟨hatt, hclosed⟩ := paired_emits hsys hfree hpair s.deviceId 2
    simp only
    split
    · rename_i hneg
      exact hclosed.trans (Os.closeAll_emits _ (hsock (.inr hneg)))
    · exact hatt.trans (Os.epollAdd_emits _ _ _ _)

end Attach

def PacketEffect (st : Daemon) (hdr : Header) (payload : List UInt8) : Effect → Prop
  | .close f => st.os.fds f = none ∨ (IsConnect hdr payload ∨ IsDisconnect hdr payload) ∧
      f ∈ st.hub.fdsOf (DeviceEventPayload.decode payload).deviceId
  | .sysfsAttach .. => IsConnect hdr payload
  | .deviceData .. | .kernelWrite .. => hdr.cmdType = CmdType.rawData.toByte
  | .logLine .. => hdr.cmdType = CmdType.log.toByte
  | .packet .. | .tcpSend .. | .udpSend .. => False

theorem handlePacket_emits {fd : Fd} {hdr : Header} {payload : List UInt8}
    (h : st.handlePacket fd hdr payload sys = .ok st') :
    st.os.Emits sys (PacketEffect st hdr payload) st'.os := by
  cases handlePacket_handles h with
  | connect asks =>
    have hdis : ∀ {Q : Effect → Prop},
        (∀ f ∈ st.hub.fdsOf (DeviceEventPayload.decode payload).deviceId, Q (.close f)) →
        st.os.Emits sys Q (st.evict (DeviceEventPayload.decode payload).deviceId sys).os := by
      intro Q hclose
      rw [evict_eq]
      exact onDisconnect_emits (.of_eq rfl rfl rfl) hclose
    have hevict := hdis (Q := PacketEffect st hdr payload) fun f hf => .inr ⟨.inl asks, hf⟩
    simp only [onConnectEvent]
    split
    · refine hevict.trans (doUsbAttach_emits (fun _ _ _ _ => asks) (fun f hf => ?_) _ _ _)
      -- a number that is free now was free before or belonged to the session that was evicted
      by_contra hno
      obtain ⟨hopen, hnot⟩ := not_or.mp hno
      have hkept := (hdis (Q := fun e => ∃ g ∈ st.hub.fdsOf
        (DeviceEventPayload.decode payload).deviceId, e = .close g) fun g hg => ⟨g, hg, rfl⟩).opened f
      refine hkept ?_ hopen hf
      rintro ⟨g, hg, he⟩
      cases he
      exact hnot ⟨.inl asks, hg⟩
    · exact hevict
  | disconnect asks =>
    exact onDisconnect_emits (.of_eq rfl rfl rfl) fun f hf => .inr ⟨.inr asks, hf⟩
  | data s h₀ cmd => exact (Os.emit_emits _ cmd).trans (Os.emit_emits _ cmd)
  | log level msg cmd => exact Os.emit_emits _ cmd
  | ignored => exact .of_eq rfl rfl rfl

theorem onReadFailure_emits {fd : Fd} (h : os.Emits sys P st.os)
    (hpend : ∀ sock, st.hub.pendingTcpSocks fd = some sock → P (.close sock.fd))
    (hbound : ∀ p, st.hub.tcpFdMap fd = some p →
      ∀ f ∈ st.hub.fdsOf (st.deviceIdAt p sys), P (.close f)) :
    os.Emits sys P (st.onReadFailure fd sys).os := by
  unfold onReadFailure
  split
  · rename_i sock hk
    exact h.trans (Os.close_emits _ (hpend sock hk))
  · split
    · rename_i p hm
      exact onDisconnect_emits h (hbound p hm)
    · exact h

private theorem fdsOf_forwarded (hp : st.hub.heap p = some s) (h : PassthroughHandler)
    (sys : Syscalls) (d : UInt8) : (st.forwarded p s h sys).hub.fdsOf d = st.hub.fdsOf d := by
  cases hq : st.hub.sessions d with
  | none => simp [HubServer.fdsOf, forwarded, hq]
  | some q =>
    by_cases hqp : q = p
    · subst hqp
      simp [HubServer.fdsOf, forwarded, hq, hp, sessionFds]
    · simp [HubServer.fdsOf, forwarded, hq, hqp]

/-- The descriptors of the session are closed only if its handler fails. -/
theorem vhciReadable_emits (h : os.Emits sys P st.os) (hp : st.hub.heap p = some s)
    (hsend : ∀ f bytes, P (.tcpSend f bytes))
    (hclose : drainResult sys.reads = some false → ∀ f ∈ st.hub.fdsOf s.deviceId, P (.close f))
    (hok : st.vhciReadable p s sys = .ok st') : os.Emits sys P st'.os := by
  obtain ⟨h₀, -, hcases⟩ := vhciReadable_forwards hok
  have hsent : os.Emits sys P (st.forwarded p s h₀ sys).os :=
    h.trans (Os.emit_emits _ (hsend _ _))
  rcases hcases with ⟨-, rfl⟩ | ⟨hdrain, rfl⟩
  · exact hsent
  · refine removeSession_emits hsent ?_
    rw [fdsOf_forwarded hp]
    exact hclose hdrain

def TurnEffect (st : Daemon) (i : Input) : Effect → Prop
  | .packet fd hdr payload => fd = i.fd ∧ Reads st i hdr payload
  | .deviceData .. | .kernelWrite .. =>
      ∃ hdr payload, Reads st i hdr payload ∧ hdr.cmdType = CmdType.rawData.toByte
  | .logLine .. => ∃ hdr payload, Reads st i hdr payload ∧ hdr.cmdType = CmdType.log.toByte
  | .tcpSend .. => ∃ p, st.hub.route i.fd = .vhci p
  | .udpSend .. => st.hub.route i.fd = .udp
  | .sysfsAttach .. | .close _ => True

private theorem arrived_emits (hP : ∀ f, P (.close f)) (st : Daemon) (i : Input) :
    st.os.Emits sys P (st.arrived i).os where
  trace := ⟨[], (List.append_nil _).symm, fun _ he => absurd he List.not_mem_nil⟩
  rx f hf := absurd (hP f) hf
  opened _ _ h := h
  closed _ h _ := h

private theorem tcpRead_emits (hr : ReadsTcp st i)
    (hstep : (st.arrived i).onTcpReadable i.fd i.sys = .ok st') :
    st.os.Emits i.sys (TurnEffect st i) st'.os := by
  have hread : st.os.Emits i.sys (TurnEffect st i)
      ((st.arrived i).os.setRx i.fd ((st.arrived i).readTcpPacket i.fd).2) :=
    { trace := ⟨[], (List.append_nil _).symm, fun _ he => absurd he List.not_mem_nil⟩
      rx := fun f hf => absurd trivial hf
      opened := fun _ _ h => h
      closed := fun _ h _ => h }
  rw [onTcpReadable] at hstep
  cases hpkt : ((st.arrived i).readTcpPacket i.fd).1 with
  | waiting => simp [hpkt] at hstep
  | failed =>
    simp only [hpkt, Except.ok.injEq] at hstep
    rw [← hstep]
    exact onReadFailure_emits hread (fun _ _ => trivial) fun _ _ _ _ => trivial
  | packet hdr payload =>
    simp only [hpkt] at hstep
    have hreads : Reads st i hdr payload := ⟨hr, hpkt⟩
    have hpacket : TurnEffect st i (.packet i.fd hdr payload) := ⟨rfl, hreads⟩
    refine (hread.trans (Os.emit_emits _ hpacket)).trans ((handlePacket_emits hstep).mono ?_)
    intro e he
    cases e with
    | deviceData | kernelWrite | logLine => exact ⟨hdr, payload, hreads, he⟩
    | sysfsAttach | close => exact trivial
    | packet | tcpSend | udpSend => exact he.elim

/-- What a turn does is one of the things that its event can lead to. -/
theorem step_emits (hstep : step st i = .ok st') :
    st.os.Emits i.sys (TurnEffect st i) st'.os := by
  have hq : st.os.Emits i.sys (TurnEffect st i) (st.arrived i).os :=
    arrived_emits (fun _ => trivial) st i
  cases step_turned hstep with
  | idle => exact hq
  | reply bytes hr => exact hq.trans (Os.emit_emits _ hr)
  | accept hr ha =>
    obtain ⟨hans, -, rfl⟩ := Os.accept4_some ha
    simp only [onTcpAccept, ha]
    exact hq.trans (Os.opened_emits _ (.inl hans) _)
  | read hread h => exact tcpRead_emits hread h
  | hangup hr hh => exact removeSession_emits hq fun _ _ => trivial
  | @reset p s hr hp hh _ =>
    have hun : st.os.Emits i.sys (TurnEffect st i) ((st.arrived i).unplug i.fd p s).os :=
      removeSession_emits (hq.trans (.of_eq rfl rfl rfl)) fun _ _ => trivial
    exact reattach_emits (fun _ _ _ _ => trivial) hun (fun _ _ => trivial) fun _ _ _ => trivial
  | @drain p s _ hr hp hh hin h =>
    exact vhciReadable_emits hq hp (fun _ _ => ⟨p, hr⟩) (fun _ _ _ => trivial) h

end Daemon
end WirelessHub
