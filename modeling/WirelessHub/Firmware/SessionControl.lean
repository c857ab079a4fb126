import WirelessHub.Framework.Custody
import WirelessHub.Framework.Run
import WirelessHub.Protocol.Wire

/-!
# The sockets of a session

`session_ctrl_task` of the one session that `app_main` starts, call by call: the reply socket is
opened, bound and published, the session is announced over the event connection, the bits of the
session are set, and all of it is undone when the daemon is lost. Every call can fail. Between any
two calls other tasks of the device open and close sockets of their own in the same table, so that
the number of a closed socket comes back as someone else's. `session_up_task` and
`session_down_task` only read what is shared.
-/

namespace WirelessHub.Firmware

open Function Framework

inductive SockOwner
  | reply | event | other
  deriving DecidableEq

/-- The calls of `send_device_event` and `ensure_event_tcp_connected`. -/
inductive EventCall
  | check
  | closeOld
  | socket
  | connect
  | send
  | closeFailed
  | forget
  deriving DecidableEq

/-- What `session_ctrl_task` does next, with the sockets in its local variables. -/
inductive CtrlCall
  | waitFound
  | socket
  | bind (sock : Nat)
  | setTimeout (sock : Nat)
  | giveUp (sock : Nat)
  | publish (sock : Nat)
  | usbCheck (sock : Nat)
  | usbLoop (sock : Nat)
  | usbDelay (sock : Nat)
  | usbFinal (sock : Nat)
  | abortClose (sock : Nat)
  | abortClear
  | event (ev : DeviceEvent) (call : EventCall)
  | clearLost
  | setActive
  | waitLost
  | clearActive
  | setLost
  | loadSock
  | clearSock (oldSock : Option Nat)
  | closeSock (oldSock : Option Nat)
  | forgetLost
  deriving DecidableEq

/-- What the surroundings answer to a call. -/
structure CtrlIo where
  socket : Option Nat := none
  works : Bool := true
  usbReady : Bool := true
  daemonLost : Bool := false

structure SessionControl where
  usbipMode : Bool
  table : Nat → Option SockOwner
  sock : Option Nat
  eventSock : Option Nat
  eventConnected : Bool
  active : Bool
  lost : Bool
  next : CtrlCall
  /-- The events for which `send_device_event` was called. -/
  announced : List DeviceEvent

inductive ControlInput
  | ctrl (io : CtrlIo)
  | opens (fd : Nat)
  | closes (fd : Nat)

namespace SessionControl

def boot (usbipMode : Bool) : SessionControl where
  usbipMode := usbipMode
  table _ := none
  sock := none
  eventSock := none
  eventConnected := false
  active := false
  lost := false
  next := .waitFound
  announced := []

/-- `close` takes any descriptor that is open. -/
def close (s : SessionControl) (fd : Option Nat) : SessionControl :=
  match fd with
  | some fd => { s with table := update s.table fd none }
  | none => s

/-- A socket gets a descriptor that is free. -/
def openAs (s : SessionControl) (o : SockOwner) (fd : Nat) : Except Unit SessionControl :=
  if s.table fd = none then .ok { s with table := update s.table fd (some o) } else .error ()

def announce (s : SessionControl) (ev : DeviceEvent) : SessionControl :=
  { s with next := .event ev .check, announced := s.announced ++ [ev] }

/-- Where the task goes on behind `send_device_event`. -/
def behind : DeviceEvent → CtrlCall
  | .connect => .clearLost
  | .disconnect => .forgetLost

def eventStep (s : SessionControl) (ev : DeviceEvent) (io : CtrlIo) :
    EventCall → Except Unit SessionControl
  | .check =>
      if s.eventSock.isSome && s.eventConnected then .ok { s with next := .event ev .send }
      else .ok { s with next := .event ev (if s.eventSock.isSome then .closeOld else .socket) }
  | .closeOld => .ok { s.close s.eventSock with next := .event ev .socket }
  | .socket => match io.socket with
    | none => .ok { s with eventSock := none, eventConnected := false, next := behind ev }
    | some fd => (s.openAs .event fd).map fun s =>
        { s with eventSock := some fd, next := .event ev .connect }
  | .connect =>
      if io.works then .ok { s with eventConnected := true, next := .event ev .send }
      else .ok { s with next := .event ev .closeFailed }
  | .send => .ok { s with next := if io.works then behind ev else .event ev .closeFailed }
  | .closeFailed => .ok { s.close s.eventSock with next := .event ev .forget }
  | .forget => .ok { s with eventSock := none, eventConnected := false, next := behind ev }

def ctrlStep (s : SessionControl) (io : CtrlIo) : Except Unit SessionControl :=
  match s.next with
  | .waitFound => .ok { s with next := .socket }
  | .socket => match io.socket with
    | none => .ok { s with next := .waitFound }
    | some fd => (s.openAs .reply fd).map fun s => { s with next := .bind fd }
  | .bind fd => .ok { s with next := if io.works then .setTimeout fd else .giveUp fd }
  | .setTimeout fd => .ok { s with next := if io.works then .publish fd else .giveUp fd }
  | .giveUp fd => .ok { s.close (some fd) with next := .waitFound }
  | .publish fd =>
      if s.usbipMode then .ok { s with sock := some fd, next := .usbCheck fd }
      else .ok ({ s with sock := some fd }.announce .connect)
  | .usbCheck fd =>
      if io.usbReady then .ok (s.announce .connect) else .ok { s with next := .usbLoop fd }
  | .usbLoop fd => .ok { s with next := if io.usbReady then .usbFinal fd else .usbDelay fd }
  | .usbDelay fd => .ok { s with next := if io.daemonLost then .usbFinal fd else .usbLoop fd }
  | .usbFinal fd =>
      if io.daemonLost then .ok { s with next := .abortClose fd } else .ok (s.announce .connect)
  | .abortClose fd => .ok { s.close (some fd) with next := .abortClear }
  | .abortClear => .ok { s with sock := none, next := .waitFound }
  | .event ev call => s.eventStep ev io call
  | .clearLost => .ok { s with lost := false, next := .setActive }
  | .setActive => .ok { s with active := true, next := .waitLost }
  | .waitLost => .ok { s with next := .clearActive }
  | .clearActive => .ok { s with active := false, next := .setLost }
  | .setLost => .ok { s with lost := true, next := .loadSock }
  | .loadSock => .ok { s with next := .clearSock s.sock }
  | .clearSock old => .ok { s with sock := none, next := .closeSock old }
  | .closeSock old => .ok ((s.close old).announce .disconnect)
  | .forgetLost => .ok { s with lost := false, next := .waitFound }

def step (s : SessionControl) : ControlInput → Except Unit SessionControl
  | .ctrl io => s.ctrlStep io
  | .opens fd => s.openAs .other fd
  | .closes fd => if s.table fd = some .other then .ok (s.close (some fd)) else .error ()

/-! ## What the task owns -/

/-- The reply socket that the session has to close, if any. -/
def replySock (s : SessionControl) : Option Nat :=
  match s.next with
  | .bind fd | .setTimeout fd | .giveUp fd | .publish fd => some fd
  | .usbCheck fd | .usbLoop fd | .usbDelay fd | .usbFinal fd | .abortClose fd => some fd
  | .event .connect _ | .clearLost | .setActive | .waitLost | .clearActive | .setLost | .loadSock =>
      s.sock
  | .clearSock old | .closeSock old => old
  | .waitFound | .socket | .abortClear | .event .disconnect _ | .forgetLost => none

def eventOwned (s : SessionControl) : Option Nat :=
  match s.next with
  | .event _ .forget => none
  | _ => s.eventSock

/-- The descriptor that the next call closes, and whose it has to be. -/
def closing (s : SessionControl) : Option (Nat × SockOwner) :=
  match s.next with
  | .giveUp fd | .abortClose fd => some (fd, .reply)
  | .closeSock old => old.map fun fd => (fd, .reply)
  | .event _ .closeOld | .event _ .closeFailed => s.eventSock.map fun fd => (fd, .event)
  | _ => none

/-- What `s->sock` is, call by call. -/
def SockAt (sock : Option Nat) : CtrlCall → Prop
  | .usbCheck fd | .usbLoop fd | .usbDelay fd | .usbFinal fd | .abortClose fd => sock = some fd
  | .event .connect _ | .clearLost | .setActive | .waitLost | .clearActive | .setLost | .loadSock =>
      sock ≠ none
  | .clearSock old => sock = old ∧ old ≠ none
  | .closeSock old => sock = none ∧ old ≠ none
  | .abortClear => True
  | .waitFound | .socket | .bind _ | .setTimeout _ | .giveUp _ | .publish _ | .event .disconnect _
  | .forgetLost => sock = none

/-- What `s_event_sock` and `s_event_connected` are, call by call. -/
def EventAt (sock : Option Nat) (connected : Bool) : CtrlCall → Prop
  | .event _ .closeOld => False
  | .event _ .socket => sock = none
  | .event _ .connect | .event _ .closeFailed | .event _ .forget => sock ≠ none
  | .event _ .send => sock ≠ none ∧ connected = true
  | _ => connected = sock.isSome

/-- The session is announced, or about to be. -/
def announcing : CtrlCall → Bool
  | .event .connect _ | .clearLost | .setActive | .waitLost | .clearActive | .setLost | .loadSock
  | .clearSock _ | .closeSock _ => true
  | _ => false

def activeAt : CtrlCall → Bool
  | .waitLost | .clearActive => true
  | _ => false

def lostAt : CtrlCall → Bool
  | .loadSock | .clearSock _ | .closeSock _ | .event .disconnect _ | .forgetLost => true
  | _ => false

/-- `CONNECT` and `DISCONNECT` in turn. -/
def Alternates (evs : List DeviceEvent) : Prop :=
  ∀ n ev, evs[n]? = some ev → ev = if n % 2 = 0 then .connect else .disconnect

private theorem Alternates.concat {evs : List DeviceEvent} (h : Alternates evs) {ev : DeviceEvent}
    (hev : ev = if evs.length % 2 = 0 then .connect else .disconnect) : Alternates (evs ++ [ev]) := by
  intro n e he
  by_cases hn : n < evs.length
  · rw [List.getElem?_append_left hn] at he
    exact h n e he
  · rw [List.getElem?_append_right (Nat.le_of_not_lt hn), List.getElem?_singleton] at he
    split at he
    · have hlen : n = evs.length := by omega
      rw [Option.some.injEq] at he
      rw [hlen, ← he, hev]
    · cases he

private theorem Alternates.connect {evs : List DeviceEvent} (h : Alternates evs) (heven : evs.length % 2 = 0) :
    Alternates (evs ++ [.connect]) ∧ (evs ++ [DeviceEvent.connect]).length % 2 = 1 := by
  refine ⟨h.concat (if_pos heven).symm, ?_⟩
  rw [List.length_append, List.length_singleton]
  omega

private theorem Alternates.disconnect {evs : List DeviceEvent} (h : Alternates evs)
    (hodd : evs.length % 2 = 1) :
    Alternates (evs ++ [.disconnect]) ∧ (evs ++ [DeviceEvent.disconnect]).length % 2 = 0 := by
  refine ⟨h.concat (if_neg (by omega)).symm, ?_⟩
  rw [List.length_append, List.length_singleton]
  omega

/-- The invariant of the task and its surroundings. -/
structure Coherent (s : SessionControl) : Prop where
  reply : Owns s.table .reply s.replySock
  event : Owns s.table .event s.eventOwned
  sockAt : SockAt s.sock s.next
  eventAt : EventAt s.eventSock s.eventConnected s.next
  active : s.active = activeAt s.next
  lost : s.lost = lostAt s.next
  alternates : Alternates s.announced
  announced : s.announced.length % 2 = if announcing s.next then 1 else 0

private theorem coherent_boot (usbipMode : Bool) : Coherent (boot usbipMode) where
  reply := by simp [Owns, boot, replySock]
  event := by simp [Owns, boot, eventOwned]
  sockAt := rfl
  eventAt := rfl
  active := rfl
  lost := rfl
  alternates n ev h := by simp [boot] at h
  announced := rfl

private theorem openAs_eq {s s' : SessionControl} {o : SockOwner} {fd : Nat}
    (h : s.openAs o fd = .ok s') :
    s.table fd = none ∧ s' = { s with table := update s.table fd (some o) } := by
  unfold openAs at h
  split at h
  · exact ⟨‹_›, (Except.ok.inj h).symm⟩
  · cases h

private theorem Coherent.elsewhere {s : SessionControl} (h : Coherent s) {fd : Nat}
    {v : Option SockOwner}
    (hfd : s.table fd = none ∨ s.table fd = some .other) (hv : v = none ∨ v = some .other) :
    Coherent { s with table := update s.table fd v } := by
  have hold : ∀ o, o ≠ .other → s.table fd ≠ some o := by
    intro o ho he
    rcases hfd with hfd | hfd
    · rw [hfd] at he
      cases he
    · rw [hfd, Option.some.injEq] at he
      exact ho he.symm
  have hnew : ∀ o, o ≠ .other → v ≠ some o := by
    intro o ho he
    rcases hv with rfl | rfl
    · cases he
    · exact ho (Option.some.inj he).symm
  exact { h with
    reply := h.reply.of_update (hold .reply nofun) (hnew .reply nofun)
    event := h.event.of_update (hold .event nofun) (hnew .event nofun) }

/-- The calls for the event connection keep the invariant; the branch for a socket that is open
and not connected is never taken. -/
theorem Coherent.eventStep {s s' : SessionControl} (h : Coherent s) {ev : DeviceEvent} {io : CtrlIo}
    {call : EventCall} (hnext : s.next = .event ev call) (hstep : s.eventStep ev io call = .ok s') :
    Coherent s' := by
  obtain ⟨mode, table, sock, eventSock, connected, active, lost, next, announced⟩ := s
  dsimp only at hnext
  subst hnext
  cases call with
  | check =>
    obtain rfl : connected = eventSock.isSome := h.eventAt
    cases eventSock with
    | none =>
      cases hstep
      cases ev <;>
        exact ⟨h.reply, h.event, h.sockAt, rfl, h.active, h.lost, h.alternates, h.announced⟩
    | some e =>
      cases hstep
      cases ev <;>
        exact ⟨h.reply, h.event, h.sockAt, ⟨nofun, rfl⟩, h.active, h.lost, h.alternates, h.announced⟩
  | closeOld => exact h.eventAt.elim
  | socket =>
    obtain rfl : eventSock = none := h.eventAt
    cases hio : io.socket with
    | none =>
      simp only [SessionControl.eventStep, hio, Except.ok.injEq] at hstep
      subst hstep
      cases ev <;>
        exact ⟨h.reply, h.event, h.sockAt, rfl, h.active, h.lost, h.alternates, h.announced⟩
    | some fd =>
      simp only [SessionControl.eventStep, hio] at hstep
      obtain ⟨s₁, hopen, rfl⟩ := map_eq_ok hstep
      obtain ⟨hfree, rfl⟩ := openAs_eq hopen
      have hreply := h.reply.of_update (k := fd) (v := some .event) (by rw [hfree]; nofun) nofun
      have hevent : Owns (update table fd (some .event)) .event (some fd) := Owns.take h.event fd
      cases ev <;>
        exact ⟨hreply, hevent, h.sockAt, nofun, h.active, h.lost, h.alternates, h.announced⟩
  | connect =>
    simp only [SessionControl.eventStep] at hstep
    split at hstep
    · cases hstep
      cases ev <;>
        exact ⟨h.reply, h.event, h.sockAt, ⟨h.eventAt, rfl⟩, h.active, h.lost, h.alternates, h.announced⟩
    · cases hstep
      cases ev <;>
        exact ⟨h.reply, h.event, h.sockAt, h.eventAt, h.active, h.lost, h.alternates, h.announced⟩
  | send =>
    obtain ⟨hsome, rfl⟩ : eventSock ≠ none ∧ connected = true := h.eventAt
    have hconn : true = eventSock.isSome := (Option.isSome_iff_ne_none.mpr hsome).symm
    cases hstep
    cases io.works with
    | true =>
      cases ev <;>
        exact ⟨h.reply, h.event, h.sockAt, hconn, h.active, h.lost, h.alternates, h.announced⟩
    | false =>
      cases ev <;>
        exact ⟨h.reply, h.event, h.sockAt, hsome, h.active, h.lost, h.alternates, h.announced⟩
  | closeFailed =>
    have hsome : eventSock ≠ none := h.eventAt
    cases eventSock with
    | none => exact absurd rfl hsome
    | some e =>
      cases hstep
      have hown : Owns table .event (some e) := h.event
      have hne : table e ≠ some .reply := by
        rw [hown.at_self]
        nofun
      have hreply := h.reply.of_update (v := none) hne nofun
      cases ev <;>
        exact ⟨hreply, hown.give, h.sockAt, nofun, h.active, h.lost, h.alternates, h.announced⟩
  | forget =>
    cases hstep
    cases ev <;> exact ⟨h.reply, h.event, h.sockAt, rfl, h.active, h.lost, h.alternates, h.announced⟩

private theorem Coherent.closeReply {s : SessionControl} (h : Coherent s) {fd : Nat}
    (hown : s.replySock = some fd) :
    Owns (s.close (some fd)).table .reply none ∧ Owns (s.close (some fd)).table .event s.eventOwned := by
  have hreply : Owns s.table .reply (some fd) := hown ▸ h.reply
  refine ⟨hreply.give, h.event.of_update ?_ nofun⟩
  rw [hreply.at_self]
  nofun

private theorem Coherent.ctrlStep {s s' : SessionControl} (h : Coherent s) {io : CtrlIo}
    (hstep : s.ctrlStep io = .ok s') : Coherent s' := by
  obtain ⟨mode, table, sock, eventSock, connected, active, lost, next, announced⟩ := s
  cases next with
  | waitFound =>
    cases hstep
    exact ⟨h.reply, h.event, h.sockAt, h.eventAt, h.active, h.lost, h.alternates, h.announced⟩
  | socket =>
    cases hio : io.socket with
    | none =>
      simp only [SessionControl.ctrlStep, hio, Except.ok.injEq] at hstep
      subst hstep
      exact ⟨h.reply, h.event, h.sockAt, h.eventAt, h.active, h.lost, h.alternates, h.announced⟩
    | some fd =>
      simp only [SessionControl.ctrlStep, hio] at hstep
      obtain ⟨s₁, hopen, rfl⟩ := map_eq_ok hstep
      obtain ⟨hfree, rfl⟩ := openAs_eq hopen
      have hevent := h.event.of_update (k := fd) (v := some .reply) (by rw [hfree]; nofun) nofun
      have hreply : Owns (update table fd (some .reply)) .reply (some fd) := Owns.take h.reply fd
      exact ⟨hreply, hevent, h.sockAt, h.eventAt, h.active, h.lost, h.alternates, h.announced⟩
  | bind fd | setTimeout fd =>
    cases hstep
    cases io.works <;>
      exact ⟨h.reply, h.event, h.sockAt, h.eventAt, h.active, h.lost, h.alternates, h.announced⟩
  | giveUp fd =>
    cases hstep
    obtain ⟨hreply, hevent⟩ := h.closeReply rfl
    exact ⟨hreply, hevent, h.sockAt, h.eventAt, h.active, h.lost, h.alternates, h.announced⟩
  | publish fd =>
    cases mode with
    | true =>
      cases hstep
      exact ⟨h.reply, h.event, rfl, h.eventAt, h.active, h.lost, h.alternates, h.announced⟩
    | false =>
      cases hstep
      obtain ⟨halt, hlen⟩ := h.alternates.connect h.announced
      exact ⟨h.reply, h.event, nofun, h.eventAt, h.active, h.lost, halt, hlen⟩
  | usbCheck fd =>
    obtain rfl : sock = some fd := h.sockAt
    simp only [SessionControl.ctrlStep] at hstep
    split at hstep
    · cases hstep
      obtain ⟨halt, hlen⟩ := h.alternates.connect h.announced
      exact ⟨h.reply, h.event, nofun, h.eventAt, h.active, h.lost, halt, hlen⟩
    · cases hstep
      exact ⟨h.reply, h.event, rfl, h.eventAt, h.active, h.lost, h.alternates, h.announced⟩
  | usbLoop fd =>
    cases hstep
    cases io.usbReady <;>
      exact ⟨h.reply, h.event, h.sockAt, h.eventAt, h.active, h.lost, h.alternates, h.announced⟩
  | usbDelay fd =>
    cases hstep
    cases io.daemonLost <;>
      exact ⟨h.reply, h.event, h.sockAt, h.eventAt, h.active, h.lost, h.alternates, h.announced⟩
  | usbFinal fd =>
    obtain rfl : sock = some fd := h.sockAt
    simp only [SessionControl.ctrlStep] at hstep
    split at hstep
    · cases hstep
      exact ⟨h.reply, h.event, rfl, h.eventAt, h.active, h.lost, h.alternates, h.announced⟩
    · cases hstep
      obtain ⟨halt, hlen⟩ := h.alternates.connect h.announced
      exact ⟨h.reply, h.event, nofun, h.eventAt, h.active, h.lost, halt, hlen⟩
  | abortClose fd =>
    cases hstep
    obtain ⟨hreply, hevent⟩ := h.closeReply rfl
    exact ⟨hreply, hevent, trivial, h.eventAt, h.active, h.lost, h.alternates, h.announced⟩
  | abortClear =>
    cases hstep
    exact ⟨h.reply, h.event, rfl, h.eventAt, h.active, h.lost, h.alternates, h.announced⟩
  | event ev call => exact h.eventStep rfl hstep
  | clearLost | setLost | forgetLost =>
    cases hstep
    exact ⟨h.reply, h.event, h.sockAt, h.eventAt, h.active, rfl, h.alternates, h.announced⟩
  | setActive | clearActive =>
    cases hstep
    exact ⟨h.reply, h.event, h.sockAt, h.eventAt, rfl, h.lost, h.alternates, h.announced⟩
  | waitLost =>
    cases hstep
    exact ⟨h.reply, h.event, h.sockAt, h.eventAt, h.active, h.lost, h.alternates, h.announced⟩
  | loadSock =>
    cases hstep
    exact ⟨h.reply, h.event, ⟨rfl, h.sockAt⟩, h.eventAt, h.active, h.lost, h.alternates, h.announced⟩
  | clearSock old =>
    cases hstep
    exact ⟨h.reply, h.event, ⟨rfl, h.sockAt.2⟩, h.eventAt, h.active, h.lost, h.alternates,
      h.announced⟩
  | closeSock old =>
    cases old with
    | none => exact absurd rfl h.sockAt.2
    | some fd =>
      cases hstep
      obtain ⟨hreply, hevent⟩ := h.closeReply rfl
      obtain ⟨halt, hlen⟩ := h.alternates.disconnect h.announced
      exact ⟨hreply, hevent, h.sockAt.1, h.eventAt, h.active, h.lost, halt, hlen⟩

private theorem Coherent.step {s s' : SessionControl} (h : Coherent s) {i : ControlInput}
    (hstep : s.step i = .ok s') : Coherent s' := by
  cases i with
  | ctrl io => exact h.ctrlStep hstep
  | opens fd =>
    obtain ⟨hfree, rfl⟩ := openAs_eq hstep
    exact h.elsewhere (.inl hfree) (.inr rfl)
  | closes fd =>
    simp only [SessionControl.step] at hstep
    split at hstep
    · cases hstep
      exact h.elsewhere (.inr ‹_›) (.inl rfl)
    · cases hstep

private theorem run_coherent {usbipMode : Bool} {is : List ControlInput} {s : SessionControl}
    (hr : run step (boot usbipMode) is = .ok s) : Coherent s :=
  run_invariant_of_step (fun _ _ _ h hstep => h.step hstep) (coherent_boot usbipMode) hr

section Results

variable {usbipMode : Bool} {is : List ControlInput} {s : SessionControl}

/-- Whichever calls fail, and whatever the other tasks do with the numbers of closed sockets: the
session has exactly the reply socket and the event socket that its variables and the next call
name, and it never closes a descriptor that is not its own. -/
theorem sockets_of_session (hr : run step (boot usbipMode) is = .ok s) :
    (∀ fd, s.table fd = some .reply ↔ s.replySock = some fd) ∧
    (∀ fd, s.table fd = some .event ↔ s.eventOwned = some fd) ∧
    (∀ fd o, s.closing = some (fd, o) → s.table fd = some o) := by
  have h := run_coherent hr
  refine ⟨h.reply, h.event, fun fd o hclose => ?_⟩
  obtain ⟨mode, table, sock, eventSock, connected, active, lost, next, announced⟩ := s
  cases next with
  | giveUp g | abortClose g =>
    cases hclose
    exact h.reply.at_self
  | closeSock old =>
    obtain ⟨g, hg, heq⟩ := Option.map_eq_some_iff.mp hclose
    cases heq
    exact (h.reply _).mpr hg
  | event ev call =>
    cases call with
    | closeOld => exact h.eventAt.elim
    | closeFailed =>
      obtain ⟨g, hg, heq⟩ := Option.map_eq_some_iff.mp hclose
      cases heq
      exact (h.event _).mpr hg
    | check | socket | connect | send | forget => cases hclose
  | _ => cases hclose

/-- The first session fails to announce itself, and its number of the event socket is taken by
another task at once; the session goes down and comes up again. -/
def takenRun : List ControlInput :=
  [.ctrl {}, .ctrl { socket := some 3 }, .ctrl {}, .ctrl {}, .ctrl {}, .ctrl {},
    .ctrl { socket := some 4 }, .ctrl { works := false }, .ctrl {}, .opens 4, .ctrl {}, .ctrl {},
    .ctrl {}, .ctrl {}, .ctrl {}, .ctrl {}, .ctrl {}, .ctrl {}]

theorem sockets_of_taken_run : ∃ s, run step (boot false) takenRun = .ok s ∧
    s.closing = some (3, .reply) ∧ s.table 3 = some .reply ∧ s.table 4 = some .other := by
  obtain ⟨s, hr, hclose, hother⟩ : ∃ s, run step (boot false) takenRun = .ok s ∧
      s.closing = some (3, .reply) ∧ s.table 4 = some .other := ⟨_, rfl, rfl, rfl⟩
  exact ⟨s, hr, hclose, (sockets_of_session hr).2.2 3 .reply hclose, hother⟩

/-- `s->sock` is the reply socket whenever it is set, up to the one call at which a session that
was never announced has closed it. -/
theorem Coherent.sock_open (h : Coherent s) {fd : Nat} (hsock : s.sock = some fd) :
    s.table fd = some .reply ∨ s.next = .abortClear := by
  obtain ⟨mode, table, sock, eventSock, connected, active, lost, next, announced⟩ := s
  dsimp only at hsock
  subst hsock
  have hat := h.sockAt
  cases next with
  | abortClear => exact .inr rfl
  | usbCheck g | usbLoop g | usbDelay g | usbFinal g | abortClose g =>
    cases hat
    exact .inl h.reply.at_self
  | clearSock old =>
    obtain rfl : some fd = old := hat.1
    exact .inl h.reply.at_self
  | closeSock old => cases hat.1
  | event ev call =>
    cases ev with
    | connect => exact .inl h.reply.at_self
    | disconnect => cases hat
  | clearLost | setActive | waitLost | clearActive | setLost | loadSock => exact .inl h.reply.at_self
  | waitFound | socket | bind g | setTimeout g | giveUp g | publish g | forgetLost => cases hat

private theorem Alternates.getLast_of_odd {evs : List DeviceEvent} (h : Alternates evs)
    (hodd : evs.length % 2 = 1) : evs.getLast? = some .connect := by
  have hlt : evs.length - 1 < evs.length := by omega
  have hlast := h (evs.length - 1) _ (List.getElem?_eq_getElem hlt)
  rw [if_pos (by omega)] at hlast
  rw [List.getLast?_eq_getElem?, List.getElem?_eq_getElem hlt, hlast]

/-- The session's announcements are a `CONNECT` and a `DISCONNECT` in turn, its two bits are never
set together, and while `SESSION_ACTIVE_BIT` is set, the last announcement is a `CONNECT` and
`s->sock` is the open reply socket. -/
theorem announcements_of_session (hr : run step (boot usbipMode) is = .ok s) :
    Alternates s.announced ∧ ¬(s.active = true ∧ s.lost = true) ∧
    (s.active = true → s.announced.getLast? = some .connect ∧
      ∃ fd, s.sock = some fd ∧ s.table fd = some .reply) ∧
    ∀ fd, s.sock = some fd → s.table fd = some .reply ∨ s.next = .abortClear := by
  have h := run_coherent hr
  refine ⟨h.alternates, fun hboth => ?_, fun hactive => ?_, fun fd => h.sock_open⟩
  · rw [h.active, h.lost] at hboth
    cases hn : s.next <;> simp [hn, activeAt, lostAt] at hboth
  · rw [h.active] at hactive
    have hsock := h.sockAt
    have hlen := h.announced
    cases hn : s.next with
    | waitLost | clearActive =>
      rw [hn] at hsock hlen
      obtain ⟨fd, hfd⟩ := Option.ne_none_iff_exists'.mp hsock
      refine ⟨h.alternates.getLast_of_odd hlen, fd, hfd, ?_⟩
      rcases h.sock_open hfd with hopen | habort
      · exact hopen
      · rw [hn] at habort
        cases habort
    | _ => simp [hn, activeAt] at hactive

/-- The session of `app_main` is active after its device has come. -/
def activeRun : List ControlInput :=
  [.ctrl {}, .ctrl { socket := some 3 }, .ctrl {}, .ctrl {}, .ctrl {}, .ctrl { usbReady := false },
    .ctrl {}, .ctrl {}, .ctrl {}, .ctrl { socket := some 4 }, .ctrl {}, .ctrl {}, .ctrl {}, .ctrl {}]

theorem announcements_of_active_run : ∃ s, run step (boot true) activeRun = .ok s ∧
    s.active = true ∧ s.announced.getLast? = some .connect := by
  obtain ⟨s, hr, hactive⟩ : ∃ s, run step (boot true) activeRun = .ok s ∧ s.active = true :=
    ⟨_, rfl, rfl⟩
  exact ⟨s, hr, hactive, ((announcements_of_session hr).2.2.1 hactive).1⟩

end Results

end SessionControl
end WirelessHub.Firmware
