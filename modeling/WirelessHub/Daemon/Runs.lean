import WirelessHub.Daemon.Turn

/-!
# Turns and runs of the loop

Where an event goes, which turns are exceptional, and the two facts that every result about
runs starts from: a turn is a chain of moves whose exceptional kinds name their cause, and
each run from the start keeps the invariant.
-/

namespace WirelessHub

open Function Framework

/-- The branch of the loop body that an event takes. -/
inductive Route
  | udp | server | other
  | tcp (p : SessionPtr)
  | vhci (p : SessionPtr)
  deriving DecidableEq

def HubServer.route (hub : HubServer) (fd : Fd) : Route :=
  if fd = hub.udpFd then .udp
  else if fd = hub.tcpServerFd then .server
  else match hub.findByTcpFd fd with
    | some p => .tcp p
    | none => match hub.findByVhciFd fd with
      | some p => .vhci p
      | none => .other

theorem HubServer.route_vhci {hub : HubServer} {fd : Fd} {p : SessionPtr}
    (h : hub.route fd = .vhci p) : hub.vhciFdMap fd = some p := by
  simp only [route, findByTcpFd, findByVhciFd] at h
  split_ifs at h
  split at h
  · cases h
  · split at h <;> simp_all

theorem HubServer.route_tcp {hub : HubServer} {fd : Fd} {p : SessionPtr}
    (h : hub.route fd = .tcp p) : hub.tcpFdMap fd = some p := by
  simp only [route, findByTcpFd, findByVhciFd] at h
  split_ifs at h
  split at h
  · simp_all
  · split at h <;> cases h

namespace Daemon

theorem handleEvent_route (st : Daemon) (fd : Fd) (evts : EventMask) (sys : Syscalls) :
    st.handleEvent fd evts sys = match st.hub.route fd with
      | .udp => .ok (st.onUdpReadable sys)
      | .server => .ok (st.onTcpAccept sys)
      | .tcp p => st.onTcpEvent fd p evts sys
      | .vhci p => st.onVhciEvent fd p evts sys
      | .other => if evts.epollin then st.onTcpReadable fd sys else .ok st := by
  simp only [handleEvent, HubServer.route]
  split_ifs
  · rfl
  · rfl
  all_goals
    cases st.hub.findByTcpFd fd with
    | some p => rfl
    | none => cases st.hub.findByVhciFd fd <;> simp [*]

/-- The state in which the code of a turn starts: the new input has arrived. -/
def arrived (st : Daemon) (i : Input) : Daemon :=
  { st with os := st.os.deliver i.fd i.arrivals }

def Accepts (st : Daemon) (i : Input) : Prop :=
  st.hub.route i.fd = .server ∧ st.os.accept4 true i.sys.accept ≠ none

def ReadsTcp (st : Daemon) (i : Input) : Prop :=
  i.evts.epollin = true ∧
    (st.hub.route i.fd = .other ∨ ∃ p, st.hub.route i.fd = .tcp p ∧ i.evts.hangup = false)

def Reads (st : Daemon) (i : Input) (hdr : Header) (payload : List UInt8) : Prop :=
  ReadsTcp st i ∧ ((st.arrived i).readTcpPacket i.fd).1 = .packet hdr payload

def received (st : Daemon) (i : Input) (hdr : Header) (payload : List UInt8) : Daemon :=
  emit { st with os := (st.arrived i).os.setRx i.fd ((st.arrived i).readTcpPacket i.fd).2 }
    (.packet i.fd hdr payload)

theorem received_quiet (st : Daemon) (i : Input) (hdr : Header) (payload : List UInt8) :
    Move .quiet st (st.received i hdr payload) :=
  .quiet rfl rfl rfl rfl

/-- The turn removes a session without a detach: its connection hung up, or its handler
reports that the kernel side failed. -/
def Undetached (st : Daemon) (i : Input) : Prop :=
  (∃ p, st.hub.route i.fd = .tcp p ∧ i.evts.hangup = true ∧
    st.hub.sessions (st.deviceIdAt p i.sys) ≠ none) ∨
  (∃ p, st.hub.route i.fd = .vhci p ∧ i.evts.hangup = false ∧ i.evts.epollin = true ∧
    drainResult i.sys.reads = some false)

/-- The turn handles a `CONNECT` on a descriptor that the port field cannot carry. -/
def Misdirected (st : Daemon) (i : Input) : Prop :=
  ∃ hdr payload, Reads st i hdr payload ∧ IsConnect hdr payload ∧ Truncated st.hub i.fd

theorem not_misdirected_of_lt {st : Daemon} {i : Input} (h : i.fd < 65536) :
    ¬Misdirected st i := by
  rintro ⟨hdr, payload, -, -, hpend, hnone⟩
  rw [Nat.mod_eq_of_lt h] at hnone
  exact hpend hnone

/-- The turn handles a reset and cannot attach the device again. -/
def ResetFails (st : Daemon) (i : Input) : Prop :=
  ∃ p s, st.hub.route i.fd = .vhci p ∧ st.hub.heap p = some s ∧ i.evts.hangup = true ∧
    ¬ReattachOk (st.arrived i) p s i.sys

/-- The kinds of moves a turn can make, with the cause of the exceptional ones. -/
def Permitted (st : Daemon) (i : Input) : MoveKind → Prop
  | .accept => Accepts st i
  | .leak => Misdirected st i
  | .resetFail => ResetFails st i
  | .remove freed => freed = i.sys.sysfsDetach ∨ Undetached st i
  | .connect ok => ok = i.sys.epollCtl
  | .reset ok => ok = i.sys.epollCtl
  | .quiet => True
  | .forward => True
  | .dropPending => True

private theorem permitted_usual (st : Daemon) (i : Input) : Usual (Permitted st i) i.sys :=
  ⟨trivial, trivial, trivial, .inl rfl, rfl, rfl⟩

section Step

variable {st st' : Daemon} {i : Input}

theorem arrived_moves {ok : MoveKind → Prop} (hq : ok .quiet) : Moves ok st (st.arrived i) :=
  .single hq (.quiet rfl rfl rfl rfl)

theorem arrived_sound (hs : Sound st) (i : Input) : Sound (st.arrived i) :=
  ⟨hs.wf.of_tables rfl rfl, hs.ports⟩

theorem route_vhciFd (hs : Sound st) {p : SessionPtr} {s : DeviceSession}
    (hr : st.hub.route i.fd = .vhci p) (hp : st.hub.heap p = some s) : i.fd = s.vhciFd := by
  obtain ⟨s', hs', hfd⟩ := (hs.wf.vhciMap _ _).mp (HubServer.route_vhci hr)
  obtain rfl : s' = s := Option.some.inj (hs'.symm.trans hp)
  exact hfd.symm

theorem step_of_reset (hs : Sound st) {p : SessionPtr} {s : DeviceSession}
    (hr : st.hub.route i.fd = .vhci p) (hp : st.hub.heap p = some s) (hh : i.evts.hangup = true) :
    step st i = .ok ((st.arrived i).reattach s.vhciFd p s i.sys) := by
  have hroute : (st.arrived i).hub.route i.fd = .vhci p := hr
  have hheap : (st.arrived i).hub.heap p = some s := hp
  change (st.arrived i).handleEvent i.fd i.evts i.sys = _
  rw [handleEvent_route, hroute]
  simp only [onVhciEvent, hheap, hh, if_true, (hs.ports.used p s hp).1, route_vhciFd hs hr hp]

theorem step_of_drain {p : SessionPtr} {s : DeviceSession} (hr : st.hub.route i.fd = .vhci p)
    (hp : st.hub.heap p = some s) (hh : i.evts.hangup = false) (hin : i.evts.epollin = true) :
    step st i = (st.arrived i).vhciReadable p s i.sys := by
  have hroute : (st.arrived i).hub.route i.fd = .vhci p := hr
  have hheap : (st.arrived i).hub.heap p = some s := hp
  change (st.arrived i).handleEvent i.fd i.evts i.sys = _
  rw [handleEvent_route, hroute]
  simp only [onVhciEvent, hheap, hh, hin, Bool.false_eq_true, if_false, if_true]

theorem step_of_readsTcp (h : ReadsTcp st i) :
    step st i = (st.arrived i).onTcpReadable i.fd i.sys := by
  change (st.arrived i).handleEvent i.fd i.evts i.sys = _
  rw [handleEvent_route]
  obtain ⟨hin, hr | ⟨p, hr, hh⟩⟩ := h
  · have hr' : (st.arrived i).hub.route i.fd = .other := hr
    simp only [hr', hin, if_true]
  · have hr' : (st.arrived i).hub.route i.fd = .tcp p := hr
    simp only [hr', onTcpEvent, hin, hh, Bool.false_eq_true, if_false, if_true]

theorem step_of_reads {hdr : Header} {payload : List UInt8} (h : Reads st i hdr payload) :
    step st i = (st.received i hdr payload).handlePacket i.fd hdr payload i.sys := by
  rw [step_of_readsTcp h.1, onTcpReadable]
  simp only [h.2]
  rfl

/-- What a turn that ends can be, with the event that leads to it. -/
inductive Turned (st : Daemon) (i : Input) : Daemon → Prop
  | idle : Turned st i (st.arrived i)
  | reply (bytes : List UInt8) (route : st.hub.route i.fd = .udp) :
      Turned st i ((st.arrived i).emit (.udpSend bytes))
  | accept {f : Fd} {os : Os} (route : st.hub.route i.fd = .server)
      (answer : (st.arrived i).os.accept4 true i.sys.accept = some (f, os)) :
      Turned st i ((st.arrived i).onTcpAccept i.sys)
  | read {st' : Daemon} (reads : ReadsTcp st i)
      (result : (st.arrived i).onTcpReadable i.fd i.sys = .ok st') : Turned st i st'
  | hangup {p : SessionPtr} (route : st.hub.route i.fd = .tcp p) (hangup : i.evts.hangup = true) :
      Turned st i ((st.arrived i).removeSession ((st.arrived i).deviceIdAt p i.sys))
  | reset {p : SessionPtr} {s : DeviceSession} (route : st.hub.route i.fd = .vhci p)
      (heap : st.hub.heap p = some s) (hangup : i.evts.hangup = true) (port : 0 ≤ s.vhciPort) :
      Turned st i ((st.arrived i).reattach i.fd p s i.sys)
  | drain {p : SessionPtr} {s : DeviceSession} {st' : Daemon} (route : st.hub.route i.fd = .vhci p)
      (heap : st.hub.heap p = some s) (hangup : i.evts.hangup = false)
      (epollin : i.evts.epollin = true) (result : (st.arrived i).vhciReadable p s i.sys = .ok st') :
      Turned st i st'

theorem step_turned (hstep : step st i = .ok st') : Turned st i st' := by
  have h : (st.arrived i).handleEvent i.fd i.evts i.sys = .ok st' := hstep
  rw [handleEvent_route] at h
  cases hr : (st.arrived i).hub.route i.fd with
  | udp =>
    simp only [hr, Except.ok.injEq] at h
    rw [← h, onUdpReadable]
    repeat' split
    · exact .idle
    · exact .idle
    · exact .reply _ hr
    · exact .idle
  | server =>
    simp only [hr, Except.ok.injEq] at h
    rw [← h]
    cases ha : (st.arrived i).os.accept4 true i.sys.accept with
    | none =>
      simp only [onTcpAccept, ha]
      exact .idle
    | some r => exact .accept hr ha
  | other =>
    simp only [hr] at h
    split at h
    · exact .read ⟨‹_›, .inl hr⟩ h
    · cases h
      exact .idle
  | tcp p =>
    simp only [hr, onTcpEvent] at h
    split at h
    · cases h
      exact .hangup hr ‹_›
    · rename_i hh
      split at h
      · exact .read ⟨‹_›, .inr ⟨p, hr, by simpa using hh⟩⟩ h
      · cases h
        exact .idle
  | vhci p =>
    simp only [hr, onVhciEvent] at h
    split at h
    · cases h
      exact .idle
    · rename_i s hp
      split at h
      · rename_i hh
        cases h
        split
        · exact .reset hr hp hh ‹_›
        · exact .idle
      · rename_i hh
        split at h
        · exact .drain hr hp (by simpa using hh) ‹_› h
        · cases h
          exact .idle

private theorem drain_moves (hs : Sound st) {p : SessionPtr} {s : DeviceSession}
    (hp : st.hub.heap p = some s) {ok : MoveKind → Prop} (hok : Usual ok i.sys)
    (hrm : drainResult i.sys.reads = some false → ok (.remove false))
    (h : st.vhciReadable p s i.sys = .ok st') : Moves ok st st' := by
  obtain ⟨h₀, hh, hcases⟩ := vhciReadable_forwards h
  have hf : Moves ok st (st.forwarded p s h₀ i.sys) :=
    .single hok.forward (forwarded_move hp hh i.sys)
  rcases hcases with ⟨-, rfl⟩ | ⟨hdrain, rfl⟩
  · exact hf
  · rcases removeSession_moves (hf.sound hs) s.deviceId with he | hm
    · rw [he]
      exact hf
    · exact hf.trans (.single (hrm hdrain) hm)

/-- A turn of the loop is a chain of permitted moves. -/
theorem step_moves (hs : Sound st) (hstep : step st i = .ok st') :
    Moves (Permitted st i) st st' := by
  have hq : Moves (Permitted st i) st (st.arrived i) := arrived_moves trivial
  have hq' := hq.sound hs
  cases step_turned hstep with
  | idle => exact hq
  | reply bytes hr => exact hq.trans (.single (k := .quiet) trivial (.quiet rfl rfl rfl rfl))
  | @accept f os hr ha =>
    obtain ⟨hans, hfree, rfl⟩ := Os.accept4_some ha
    have hacc : Accepts st i := by
      refine ⟨hr, ?_⟩
      have hfree' : st.os.fds f = none := hfree
      simp [Os.accept4, hans, hfree']
    simp only [onTcpAccept, ha]
    exact .single (k := .accept) hacc (.accept f hfree rfl rfl rfl rfl)
  | read hread h =>
    refine hq.trans (onTcpReadable_moves (permitted_usual st i) hq' ?_ h)
    exact fun hdr payload hp hc ht => ⟨hdr, payload, ⟨hread, hp⟩, hc, ht⟩
  | @hangup p hr hh =>
    by_cases hn : st.hub.sessions (st.deviceIdAt p i.sys) = none
    · have hn' : (st.arrived i).hub.sessions ((st.arrived i).deviceIdAt p i.sys) = none := hn
      rw [removeSession_of_none hn']
      exact hq
    · rcases removeSession_moves hq' ((st.arrived i).deviceIdAt p i.sys) with he | hm
      · rw [he]
        exact hq
      · exact hq.trans (.single (k := .remove false) (.inr (.inl ⟨p, hr, hh, hn⟩)) hm)
  | @reset p s hr hp hh _ =>
    rw [route_vhciFd hs hr hp]
    rcases reattach_moves hq' hp i.sys with ⟨hm, -⟩ | ⟨hm, hn⟩
    · exact hq.trans (.single (k := .reset i.sys.epollCtl) rfl hm)
    · exact hq.trans (.single (k := .resetFail) ⟨p, s, hr, hp, hh, hn⟩ hm)
  | @drain p s _ hr hp hh hin hdrain =>
    exact hq.trans (drain_moves hq' hp (permitted_usual st i)
      (fun hd => .inr (.inr ⟨p, hr, hh, hin, hd⟩)) hdrain)

theorem step_sound (hs : Sound st) (h : step st i = .ok st') : Sound st' :=
  (step_moves hs h).sound hs

end Step

section Boot

variable (udpFd tcpServerFd : Fd) (inherited : Fd → Option FdMode)

theorem boot_sound : Sound (boot udpFd tcpServerFd inherited) := by
  have hslot : ∀ x f, slotFd (HubServer.empty udpFd tcpServerFd) x ≠ some f := by
    intro x f
    cases x <;> simp [slotFd, HubServer.empty]
  refine ⟨⟨?_, ?_, ?_, ?_, ?_, ?_, ?_, ?_, ?_, ⟨?_, ?_⟩, ?_, ?_⟩, ?_, ?_⟩
  · simp [boot, HubServer.empty]
  · simp [boot, HubServer.empty]
  · simp [boot, HubServer.empty]
  · simp [boot, HubServer.empty]
  · simp [boot, HubServer.empty]
  · simp [boot, HubServer.empty]
  · exact fun x f hx => absurd hx (hslot x f)
  · exact fun x y f hx => absurd hx (hslot x f)
  · exact fun x f hx => absurd hx (hslot x f)
  · by_cases h : udpFd = tcpServerFd <;> simp [boot, HubServer.empty, h]
  · simp [boot, HubServer.empty]
  · intro f hf
    by_cases ht : f = tcpServerFd <;> by_cases hu : f = udpFd <;> simp_all [boot]
  · simp [boot, HubServer.empty]
  · simp [boot, HubServer.empty]
  · simp [boot, HubServer.empty]

variable {udpFd tcpServerFd inherited} {st : Daemon} {is : List Input}

/-- Every state that a run reaches is sound, whatever the events and the system's answers. -/
theorem run_sound (h : run step (boot udpFd tcpServerFd inherited) is = .ok st) : Sound st :=
  run_invariant_of_step (fun _ _ _ => step_sound) (boot_sound udpFd tcpServerFd inherited) h

/-- A property that every permitted move keeps in guarded turns holds after guarded runs. -/
theorem run_keeps {guard : Daemon → Input → Prop} {P : Daemon → Prop}
    (hmove : ∀ st i, guard st i → ∀ k a b, Permitted st i k → Sound a → Move k a b → P a → P b)
    (hi : P (boot udpFd tcpServerFd inherited))
    (hg : RunAll step guard (boot udpFd tcpServerFd inherited) is)
    (hr : run step (boot udpFd tcpServerFd inherited) is = .ok st) : P st := by
  have hboth : Sound st ∧ P st :=
    run_invariant (P := fun st => Sound st ∧ P st) (fun a i b hinv hgi hstep =>
      ⟨step_sound hinv.1 hstep, (step_moves hinv.1 hstep).invariant (hmove a i hgi) hinv.1 hinv.2⟩)
      ⟨boot_sound udpFd tcpServerFd inherited, hi⟩ hg hr
  exact hboth.2

end Boot

section Inputs

def acceptInput (server fd : Fd) : Input where
  fd := server
  evts := { epollin := true }
  sys := { accept := some fd }

def connectBytes (deviceId : UInt8) : List UInt8 :=
  Header.encode ⟨CmdType.deviceEvent.toByte, deviceId, 0, 0, 8⟩ ++
    DeviceEventPayload.encode
      ⟨deviceId, DeviceEvent.connect.toByte, 2, 3, 1, 1, deviceBasePort⟩

def connectInput (fd : Fd) (deviceId : UInt8) (pair : Fd × Fd) : Input where
  fd := fd
  evts := { epollin := true }
  arrivals := leftover (connectBytes deviceId) []
  sys := { socketpair := some pair }

/-- A client connects on descriptor 5 and its device gets the socketpair 6, 7. -/
def connectedRun : List Input := [acceptInput 4 5, connectInput 5 0 (6, 7)]

/-- A second client connects on descriptor 8 with a device of its own. -/
def twoClients : List Input :=
  connectedRun ++ [acceptInput 4 8, connectInput 8 1 (9, 10)]

def disconnectInput (fd : Fd) (deviceId : UInt8) : Input where
  fd := fd
  evts := { epollin := true }
  arrivals := leftover (Header.encode ⟨CmdType.deviceEvent.toByte, deviceId, 0, 0, 8⟩ ++
    DeviceEventPayload.encode
      ⟨deviceId, DeviceEvent.disconnect.toByte, 0, 0, 0, 0, deviceBasePort⟩) []

end Inputs

end Daemon
end WirelessHub
