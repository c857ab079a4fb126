import WirelessHub.Daemon.Announcing
import WirelessHub.Firmware.Events
import WirelessHub.System.DataPath

/-!
# What the device reported and what the daemon has

One device with any number of sessions, the daemon, and the connection between them that
carries the device events. The network keeps packets in order and loses none, except that it
discards what is sent after the daemon has closed the connection. The daemon gives the
connection to the first `CONNECT`, so the two sides agree once everything is delivered exactly
if no device other than that one, and none a second time, counts as connected.
-/

namespace WirelessHub.System

open Framework Firmware Function

/-- How far the event connection has come, as the network sees it. -/
inductive Conn
  | unopened | queued
  | accepted (fd : Fd)
  | closed
  deriving DecidableEq

structure EventLink where
  esp : Esp
  daemon : Daemon
  conn : Conn
  /-- Packets that were sent and not read yet, in their order. -/
  wire : List (List UInt8)
  /-- The events that the device logged as sent. -/
  reported : List (UInt8 × DeviceEvent)

inductive LinkInput
  | report (d : UInt8) (ev : DeviceEvent) (socket : Option Nat) (connect : Bool)
  | device (i : EspInput)
  | discover (bytes : List UInt8)
  | accept (fd : Fd)
  | deliver (sys : Syscalls)

def eventSends (trace : List (UInt8 × Firmware.Effect)) : List (List UInt8) :=
  trace.filterMap fun
    | (_, .eventSend bytes) => some bytes
    | _ => none

namespace EventLink

def boot (cfgs : UInt8 → Option SessionCfg) (udpFd tcpServerFd : Fd) (inherited : Fd → Option FdMode) :
    EventLink where
  esp := .boot cfgs
  daemon := .boot udpFd tcpServerFd inherited
  conn := .unopened
  wire := []
  reported := []

/-- `send_device_event` of a session, on a network that takes every packet whole. -/
def report (l : EventLink) (d : UInt8) (ev : DeviceEvent) (socket : Option Nat) (connect : Bool) :
    EventLink :=
  let esp := l.esp.sendDeviceEvent d ev ⟨socket, connect, some Esp.eventPacketSize⟩
  let sent := eventSends (esp.trace.drop l.esp.trace.length)
  { l with
    esp := esp
    conn := if l.conn = .unopened ∧ esp.online = true then .queued else l.conn
    wire := if l.conn = .closed then l.wire else l.wire ++ sent
    reported := l.reported ++ sent.map fun _ => (d, ev) }

def accept (l : EventLink) (fd : Fd) : Except Fault EventLink :=
  if l.conn = .queued ∧ l.daemon.os.fds fd = none then
    match Daemon.step l.daemon (Daemon.acceptInput l.daemon.hub.tcpServerFd fd) with
    | .error fault => .error fault
    | .ok daemon => .ok { l with daemon := daemon, conn := .accepted fd }
  else .ok l

/-- The daemon reads the next packet. What is on its way when it closes the connection is lost. -/
def deliver (l : EventLink) (sys : Syscalls) : Except Fault EventLink :=
  match l.conn, l.wire with
  | .accepted fd, pkt :: rest =>
      match Daemon.step l.daemon (Daemon.packetInput fd pkt sys) with
      | .error fault => .error fault
      | .ok daemon =>
          if daemon.os.fds fd = none then
            .ok { l with daemon := daemon, conn := .closed, wire := [] }
          else .ok { l with daemon := daemon, wire := rest }
  | _, _ => .ok l

def discover (l : EventLink) (bytes : List UInt8) : Except Fault EventLink :=
  match Daemon.step l.daemon (datagramInput l.daemon.hub.udpFd bytes) with
  | .error fault => .error fault
  | .ok daemon => .ok { l with daemon := daemon }

/-- One step of either party. Events of the device go through `report` only. -/
def step (l : EventLink) : LinkInput → Except Fault EventLink
  | .report d ev socket connect => .ok (l.report d ev socket connect)
  | .device i => .ok (if i.isEvent then l else { l with esp := l.esp.step i })
  | .discover bytes => l.discover bytes
  | .accept fd => l.accept fd
  | .deliver sys => l.deliver sys

/-- Descriptors of clients fit in 16 bits, and a pending connection can be attached. -/
def Reliable (l : EventLink) : LinkInput → Prop
  | .accept fd => fd < 65536
  | .deliver sys => ∀ fd, l.conn = .accepted fd → l.daemon.hub.pendingTcpSocks fd ≠ none →
      l.daemon.AttachOk sys
  | _ => True

def Carries (pkt : List UInt8) (x : UInt8 × DeviceEvent) : Prop :=
  ∃ hdr payload, readPacket (leftover pkt []) = (.packet hdr payload, []) ∧ Reports hdr payload x

private theorem carries_eventPacket (s : Session) (ev : DeviceEvent) :
    Carries (s.eventPacket ev) (s.cfg.deviceId, ev) :=
  ⟨(s.eventFrame ev).header, (s.eventFrame ev).payload,
    s.bytes_eventFrame ev ▸ readPacket_leftover (s.eventFrame ev), rfl, Nat.le_refl _, rfl, rfl⟩

/-- Where the daemon stands with the connection. -/
def Stands (st : Daemon) : Conn → FirstClaim UInt8 → Prop
  | .unopened, ph => st.Idle ∧ ph = .fresh
  | .queued, ph => st.Idle ∧ ph = .fresh
  | .accepted fd, ph => fd < 65536 ∧ st.AtPhase fd ph ∧ ph ≠ .dead
  | .closed, ph => (∀ d, st.hub.sessions d = none) ∧ ph = .dead

/-- What the daemon has handled and what is still on the wire make up what was reported. -/
structure Linked (l : EventLink) : Prop where
  sound : Sound l.daemon
  cfgs : l.esp.CfgIds
  online : l.esp.online = true ↔ l.conn ≠ .unopened
  drained : l.conn = .closed → l.wire = []
  history : ∃ ph evs, Stands l.daemon l.conn ph ∧ List.Forall₂ Carries l.wire evs ∧
    evs.foldl (FirstClaim.next DeviceEvent.opens) ph =
      l.reported.foldl (FirstClaim.next DeviceEvent.opens) .fresh

section Steps

variable {l l' : EventLink}

variable {esp : Esp} {conn : Conn} {pkt : List UInt8} {x : UInt8 × DeviceEvent}

private theorem linked_sent (h : Linked l) (hcfgs : esp.CfgIds) (honline : esp.online = true)
    (hpkt : Carries pkt x) (hconn : conn ≠ .unopened ∧ conn ≠ .closed)
    (hst : ∀ ph, Stands l.daemon l.conn ph → Stands l.daemon conn ph) :
    Linked { l with esp := esp, conn := conn, wire := l.wire ++ [pkt], reported := l.reported ++ [x] } := by
  obtain ⟨ph, evs, hstands, hwire, hfold⟩ := h.history
  refine ⟨h.sound, hcfgs, iff_of_true honline hconn.1, fun hc => absurd hc hconn.2, ph, evs ++ [x],
    hst ph hstands, ?_, ?_⟩
  · exact List.rel_append hwire (.cons hpkt .nil)
  · rw [List.foldl_append, List.foldl_append, hfold]

/-- What is sent on a closed connection is reported and lost. -/
private theorem linked_lost (h : Linked l) (hcfgs : esp.CfgIds) (honline : esp.online = true)
    (hc : l.conn = .closed) (x : UInt8 × DeviceEvent) :
    Linked { l with esp := esp, reported := l.reported ++ [x] } := by
  obtain ⟨ph, evs, hstands, hwire, hfold⟩ := h.history
  refine ⟨h.sound, hcfgs, iff_of_true honline (by simp [hc]), h.drained, ph, evs, hstands, hwire, ?_⟩
  rw [hc] at hstands
  obtain ⟨-, rfl⟩ := hstands
  rw [FirstClaim.foldl_dead] at hfold ⊢
  rw [List.foldl_append, ← hfold]
  rfl

private theorem linked_report (h : Linked l) (d : UInt8) (ev : DeviceEvent) (socket : Option Nat)
    (connect : Bool) : Linked (l.report d ev socket connect) := by
  rcases l.esp.sendDeviceEvent_cases d ev socket connect with
    ⟨htrace, hsess, honline⟩ | ⟨s, hs, htrace, hsess, honline⟩
  · have hoff : ¬(l.conn = .unopened ∧ l.esp.online = true) := fun ho => h.online.mp ho.2 ho.1
    have hsent : eventSends [] = [] := rfl
    simp only [report, htrace, List.drop_length, hsent, honline, hoff, if_false, List.map_nil,
      List.append_nil, ite_self]
    exact ⟨h.sound, h.cfgs.of_sessions hsess, by rw [honline]; exact h.online, h.drained, h.history⟩
  · have hid := h.cfgs d s hs
    have hcfgs := h.cfgs.update hsess hid
    have hpkt := hid ▸ carries_eventPacket s ev
    have hsent : eventSends [(d, .eventSend (s.eventPacket ev))] = [s.eventPacket ev] := rfl
    simp only [report, htrace, List.drop_left, hsent, honline, and_true, List.map_cons, List.map_nil]
    cases hconn : l.conn with
    | unopened | queued | accepted fd =>
      exact linked_sent h hcfgs honline hpkt (by simp) fun ph hst => by rwa [hconn] at hst
    | closed =>
      have hlost := linked_lost h hcfgs honline hconn (d, ev)
      simp only [hconn] at hlost
      exact hlost

private theorem linked_accept (h : Linked l) {fd : Fd} (hfd : fd < 65536) :
    ∃ l', l.accept fd = .ok l' ∧ Linked l' := by
  obtain ⟨ph, evs, hstands, hwire, hfold⟩ := h.history
  by_cases hq : l.conn = .queued ∧ l.daemon.os.fds fd = none
  · rw [hq.1] at hstands
    obtain ⟨hidle, rfl⟩ := hstands
    obtain ⟨st', hstep, hs', hp⟩ := Daemon.step_accepts h.sound hidle hq.2
    simp only [accept, hq, hstep, and_self, if_true]
    refine ⟨_, rfl, hs', h.cfgs, ?_, by simp, .fresh, evs, ⟨hfd, hp, by simp⟩, hwire, hfold⟩
    exact iff_of_true (h.online.mpr (by simp [hq.1])) (by simp)
  · rw [accept, if_neg hq]
    exact ⟨l, rfl, h⟩

private theorem linked_deliver (h : Linked l) {sys : Syscalls} (hok : l.Reliable (.deliver sys)) :
    ∃ l', l.deliver sys = .ok l' ∧ Linked l' := by
  obtain ⟨ph, evs, hstands, hwire, hfold⟩ := h.history
  cases hconn : l.conn with
  | unopened | queued | closed => exact ⟨l, by simp [deliver, hconn], h⟩
  | accepted fd =>
    cases hw : l.wire with
    | nil => exact ⟨l, by simp [deliver, hconn, hw], h⟩
    | cons pkt rest =>
      rw [hconn] at hstands
      obtain ⟨hfd, hp, hne⟩ := hstands
      rw [hw] at hwire
      cases hwire with
      | cons hpkt hrest =>
        rename_i x evs
        obtain ⟨hdr, payload, hread, hrep⟩ := hpkt
        obtain ⟨st', hstep, hs', hp'⟩ := Daemon.step_reports h.sound hfd hp hne hread hrep (hok fd hconn)
        simp only [deliver, hconn, hw, hstep]
        rw [List.foldl_cons] at hfold
        have honline : l.esp.online = true := h.online.mpr (by simp [hconn])
        generalize ph.next DeviceEvent.opens x = ph' at hp' hfold
        by_cases hdead : ph' = .dead
        -- the session took the connection with it, and no later event counts
        · subst hdead
          rw [FirstClaim.foldl_dead] at hfold
          rw [if_pos hp'.1]
          exact ⟨_, rfl, hs', h.cfgs, iff_of_true honline (by simp), fun _ => rfl, .dead, [],
            ⟨hp'.2, rfl⟩, .nil, hfold⟩
        · have hopen := (Daemon.connected_of_atPhase hp' hdead).1.open hs'.wf
          rw [if_neg hopen]
          exact ⟨_, rfl, hs', h.cfgs, iff_of_true honline (by simp), by simp, ph', evs,
            ⟨hfd, hp', hdead⟩, hrest, hfold⟩

private theorem step_datagram (st : Daemon) (bytes : List UInt8) :
    ∃ st', Daemon.step st (datagramInput st.hub.udpFd bytes) = .ok st' ∧ st'.hub = st.hub ∧
      st'.os.fds = st.os.fds ∧ st'.os.rx = st.os.rx := by
  have hrx : update st.os.rx st.hub.udpFd (st.os.rx st.hub.udpFd ++ []) = st.os.rx := by simp
  simp only [Daemon.step, Daemon.handleEvent, datagramInput, if_true, Except.ok.injEq, exists_eq_left',
    Daemon.onUdpReadable]
  split_ifs <;> exact ⟨rfl, rfl, hrx⟩

private theorem Stands.of_same {st st' : Daemon} {ph : FirstClaim UInt8} (h : Stands st conn ph)
    (hhub : st'.hub = st.hub) (hfds : st'.os.fds = st.os.fds) (hrx : st'.os.rx = st.os.rx) :
    Stands st' conn ph := by
  cases conn with
  | unopened | queued =>
    exact ⟨⟨hhub ▸ h.1.servers, hhub ▸ h.1.sessions, hrx ▸ h.1.rx⟩, h.2⟩
  | accepted fd =>
    refine ⟨h.1, ?_, h.2.2⟩
    have hp := h.2.1
    cases ph with
    | fresh | bound d => exact ⟨hhub ▸ hp.1, hhub ▸ hp.2.1, hrx ▸ hp.2.2⟩
    | dead => exact ⟨hfds ▸ hp.1, hhub ▸ hp.2⟩
  | closed => exact ⟨hhub ▸ h.1, h.2⟩

private theorem linked_discover (h : Linked l) (bytes : List UInt8) :
    ∃ l', l.discover bytes = .ok l' ∧ Linked l' := by
  obtain ⟨ph, evs, hstands, hwire, hfold⟩ := h.history
  obtain ⟨st', hstep, hhub, hfds, hrx⟩ := step_datagram l.daemon bytes
  simp only [discover, hstep]
  exact ⟨_, rfl, Daemon.step_sound h.sound hstep, h.cfgs, h.online, h.drained, ph, evs,
    hstands.of_same hhub hfds hrx, hwire, hfold⟩

private theorem step_linked (h : Linked l) (i : LinkInput) (hok : l.Reliable i) :
    ∃ l', l.step i = .ok l' ∧ Linked l' := by
  cases i with
  | report d ev socket connect => exact ⟨_, rfl, linked_report h d ev socket connect⟩
  | device i =>
    refine ⟨_, rfl, ?_⟩
    cases hi : i.isEvent with
    | true => exact h
    | false =>
      have hcfgs := Esp.step_cfgIds h.cfgs hi
      have honline := Esp.step_online (e := l.esp) hi
      exact ⟨h.sound, hcfgs, (Bool.eq_iff_iff.mp honline).trans h.online, h.drained, h.history⟩
  | discover bytes => exact linked_discover h bytes
  | accept fd => exact linked_accept h hok
  | deliver sys => exact linked_deliver h hok

end Steps

variable {cfgs : UInt8 → Option SessionCfg} {udpFd tcpServerFd : Fd}
  {inherited : Fd → Option FdMode} {is : List LinkInput}

private theorem boot_linked (hcfg : ∀ d cfg, cfgs d = some cfg → cfg.deviceId = d)
    (hfd : tcpServerFd ≠ udpFd) : Linked (boot cfgs udpFd tcpServerFd inherited) where
  sound := Daemon.boot_sound udpFd tcpServerFd inherited
  cfgs := Esp.boot_cfgIds hcfg
  online := iff_of_false (by simp [boot, Esp.boot, Esp.online]) (by simp [boot])
  drained _ := rfl
  history := ⟨.fresh, [], ⟨⟨hfd, fun _ => rfl, fun _ => rfl⟩, rfl⟩, .nil, rfl⟩

/-- Once everything is delivered, the daemon has a session for the device that holds the
connection, and for no other. -/
theorem sessions_of_linked {l : EventLink} (h : Linked l) (hw : l.wire = []) (d : UInt8) :
    l.daemon.hub.sessions d ≠ none ↔ FirstClaim.Holds DeviceEvent.opens l.reported d := by
  obtain ⟨ph, evs, hstands, hwire, hfold⟩ := h.history
  rw [hw, List.forall₂_nil_left_iff] at hwire
  subst hwire
  rw [← FirstClaim.foldl_fresh_iff, ← hfold, List.foldl_nil]
  cases hconn : l.conn with
  | unopened | queued =>
    rw [hconn] at hstands
    obtain ⟨hidle, rfl⟩ := hstands
    simp [hidle.sessions d]
  | accepted fd =>
    rw [hconn] at hstands
    exact Daemon.sessions_of_atPhase hstands.2.1 d
  | closed =>
    rw [hconn] at hstands
    obtain ⟨hnone, rfl⟩ := hstands
    simp [hnone d]

/-- In every state of every run in which no packet is undelivered, the daemon has sessions for
exactly the devices whose last reported event is `CONNECT`, if and only if each of these devices
sent the first `CONNECT` of all and reported nothing after it. Such runs do not get stuck. -/
theorem sessions_agree_iff (hcfg : ∀ d cfg, cfgs d = some cfg → cfg.deviceId = d)
    (hfd : tcpServerFd ≠ udpFd)
    (hg : RunAll step Reliable (boot cfgs udpFd tcpServerFd inherited) is) :
    ∃ l, run step (boot cfgs udpFd tcpServerFd inherited) is = .ok l ∧
      (l.wire = [] →
        ((∀ d, l.daemon.hub.sessions d ≠ none ↔
            FirstClaim.lastAct l.reported d = some DeviceEvent.connect) ↔
          ∀ d, FirstClaim.lastAct l.reported d = some DeviceEvent.connect →
            FirstClaim.Holds DeviceEvent.opens l.reported d)) := by
  obtain ⟨l, hr, h⟩ := run_progress (fun l i h hok => step_linked h i hok) (boot_linked hcfg hfd) hg
  refine ⟨l, hr, fun hw => ?_⟩
  simp only [sessions_of_linked h hw]
  refine ⟨fun hall d => (hall d).mpr, fun hlast d => ⟨fun hold => ?_, hlast d⟩⟩
  obtain ⟨ev, hev, hopens⟩ := hold.lastAct
  cases ev with
  | connect => exact hev
  | disconnect => cases hopens

/-- One device is announced and the daemon handles it. -/
def announcedLink : List LinkInput :=
  [.report 0 .connect (some 4) true, .accept 5, .deliver { socketpair := some (6, 7) }]

theorem one_device_agrees :
    ∃ l, run step (boot mouse 3 4 fun _ => none) announcedLink = .ok l ∧ l.wire = [] ∧
      ∀ d, l.daemon.hub.sessions d ≠ none ↔
        FirstClaim.lastAct l.reported d = some DeviceEvent.connect := by
  have hcfg : ∀ d cfg, mouse d = some cfg → cfg.deviceId = d := by
    intro d cfg h
    simp only [mouse, Option.ite_none_right_eq_some, Option.some.injEq] at h
    obtain ⟨rfl, rfl⟩ := h
    rfl
  have hg : RunAll step Reliable (boot mouse 3 4 fun _ => none) announcedLink := by
    refine runAll_cons_of_ok rfl trivial (runAll_cons_of_ok rfl
      (show 5 < 65536 by decide) (runAll_cons_of_ok rfl ?_ trivial))
    exact fun _ _ _ => ⟨Option.some_ne_none _, Int.le_refl 0⟩
  obtain ⟨l, hr, hiff⟩ := sessions_agree_iff hcfg (by decide) hg
  obtain ⟨l', hr', hw, hrep⟩ : ∃ l, run step (boot mouse 3 4 fun _ => none) announcedLink = .ok l ∧
      l.wire = [] ∧ l.reported = [(0, .connect)] := ⟨_, rfl, rfl, rfl⟩
  obtain rfl := Except.ok.inj (hr'.symm.trans hr)
  refine ⟨l', hr, hw, (hiff hw).mpr fun d hd => ?_⟩
  rw [hrep] at hd ⊢
  by_cases h0 : d = 0
  · subst h0
    exact ⟨[], .connect, [], rfl, rfl, by simp, by simp⟩
  · simp [FirstClaim.lastAct, Ne.symm h0] at hd

/-- Two devices, each behind a plain session. -/
def mice (d : UInt8) : Option SessionCfg := if d < 2 then some ⟨d, 2, 3, 1, 1, false⟩ else none

/-- The second device announces itself on the connection that the first one holds. Its `CONNECT`
is read, and the daemon has no session for it. -/
theorem second_device_not_attached :
    ∃ l, RunAll step Reliable (boot mice 3 4 fun _ => none)
        (announcedLink ++ [.report 1 .connect none true, .deliver {}]) ∧
      run step (boot mice 3 4 fun _ => none)
        (announcedLink ++ [.report 1 .connect none true, .deliver {}]) = .ok l ∧
      l.wire = [] ∧ l.reported = [(0, .connect), (1, .connect)] ∧
      FirstClaim.lastAct l.reported 1 = some DeviceEvent.connect ∧
      l.daemon.hub.sessions 1 = none := by
  refine ⟨_, runAll_cons_of_ok rfl trivial (runAll_cons_of_ok rfl ?_ (runAll_cons_of_ok rfl ?_
    (runAll_cons_of_ok rfl trivial (runAll_cons_of_ok rfl ?_ trivial)))), rfl, rfl, rfl, rfl, rfl⟩
  · exact show 5 < 65536 by decide
  · exact fun _ _ _ => ⟨Option.some_ne_none _, Int.le_refl 0⟩
  · intro fd hfd hpend
    cases hfd
    exact absurd rfl hpend

end EventLink
end WirelessHub.System
