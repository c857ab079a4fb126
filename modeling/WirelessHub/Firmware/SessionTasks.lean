import WirelessHub.Firmware.HubClient
import WirelessHub.Firmware.SessionControl

/-!
# The session beside the discovery task

`session_ctrl_task` is modelled twice: in `HubTasks` with the bits and the address that it shares
with the discovery task, where opening the reply socket or sending an event is one step, and in
`SessionControl` call by call, where the bits of the discovery task are answers of the surroundings.
Here the session that is modelled call by call runs beside the discovery task and reads its bits.
Every such run is a run of `HubTasks` with the same discovery task.
-/

namespace WirelessHub.Firmware

open Framework

/-- The discovery task, of which `hub` has the variables, and the session. -/
structure HubAndSession where
  hub : HubTasks
  session : SessionControl

inductive HubAndSessionInput
  | hub (i : HubInput)
  | session (i : ControlInput)

namespace HubAndSession

def boot (usbipMode : Bool) : HubAndSession := ⟨.boot usbipMode, .boot usbipMode⟩

/-- The inputs of the discovery task. -/
def hubInput : HubInput → List HubInput
  | .ctrl _ => []
  | i => [i]

def step (x : HubAndSession) : HubAndSessionInput → Except Unit HubAndSession
  | .hub (.ctrl _) => .error ()
  | .hub i => (x.hub.step i).map fun hub => { x with hub := hub }
  | .session i => (x.session.step i).map fun session => { x with session := session }

/-- The session goes on behind a wait when the bit is set, and sees the bit when it looks at it. -/
structure Heeds (x : HubAndSession) (i : HubAndSessionInput) : Prop where
  found : ∀ io, i = .session (.ctrl io) → x.session.next = .waitFound → x.hub.foundBit = true
  lost : ∀ io, i = .session (.ctrl io) → x.session.next = .waitLost → x.hub.lostBit = true
  looks : ∀ io sock, i = .session (.ctrl io) →
    x.session.next = .usbDelay sock ∨ x.session.next = .usbFinal sock → io.daemonLost = x.hub.lostBit

/-- The step of `HubTasks` in which a call is made. -/
def pcOf : CtrlCall → CtrlPc
  | .waitFound | .abortClose _ | .abortClear => .enterFound
  | .socket => .readIp
  | .bind _ | .setTimeout _ | .giveUp _ | .publish _ => .openReply
  | .usbCheck _ => .usbCheck
  | .usbLoop _ => .usbLoop
  | .usbDelay _ => .usbDelay
  | .usbFinal _ => .usbFinal
  | .event .connect _ => .connect
  | .clearLost => .clearSessionLost
  | .setActive => .setSessionActive
  | .waitLost => .enterLost
  | .clearActive => .clearSessionActive
  | .setLost => .setSessionLost
  | .loadSock | .clearSock _ => .closeReply
  | .closeSock _ | .event .disconnect _ => .disconnect
  | .forgetLost => .forgetLost

/-- `s->sock` as `HubTasks` has it. A session that gives up waiting for a device has left it. -/
def sockOf (s : SessionControl) : Option Nat :=
  match s.next with
  | .abortClose _ | .abortClear => none
  | _ => s.sock

/-- The state of `HubTasks`; the address that the session has taken is not in `SessionControl`. -/
def coarse (x : HubAndSession) (daemonIp : UInt32) : HubTasks :=
  { x.hub with
    usbipMode := x.session.usbipMode
    daemonIp := daemonIp
    sock := sockOf x.session
    sessionActive := x.session.active
    sessionLost := x.session.lost
    ctrlPc := pcOf x.session.next }

section Matching

variable {x : HubAndSession} {s' : SessionControl} {io : CtrlIo}

/-- The session is never in a wait: it goes on from in front of it when the bit is set. -/
private theorem pcOf_ne_wait (call : CtrlCall) :
    pcOf call ≠ .waitFound ∧ pcOf call ≠ .waitLost := by
  cases call with
  | event ev call => cases ev <;> exact ⟨nofun, nofun⟩
  | _ => exact ⟨nofun, nofun⟩

private theorem hub_matches (ip : UInt32) {i : HubInput} {x' : HubAndSession} (h : x.step (.hub i) = .ok x') :
    hubInput i = [i] ∧ (x.coarse ip).step i = .ok (x'.coarse ip) := by
  have hwait := pcOf_ne_wait x.session.next
  cases i with
  | ctrl a => cases h
  | wifiReady | attemptFails | reply d | wifiLost | hub =>
    obtain ⟨hub', hstep, rfl⟩ := map_eq_ok h
    refine ⟨rfl, ?_⟩
    cases hpc : x.hub.hubPc <;> simp_all [HubTasks.step, HubTasks.hubStep, coarse] <;>
      subst hstep <;> simp_all

private theorem close_eq (s : SessionControl) (fd : Option Nat) :
    ∃ table, s.close fd = { s with table := table } := by
  cases fd with
  | none => exact ⟨s.table, rfl⟩
  | some fd => exact ⟨_, rfl⟩

private theorem openAs_eq {s : SessionControl} {o : SockOwner} {fd : Nat}
    (h : s.openAs o fd = .ok s') : ∃ table, s' = { s with table := table } := by
  simp only [SessionControl.openAs] at h
  split at h
  · exact ⟨_, (Except.ok.inj h).symm⟩
  · cases h

/-- A call of `send_device_event` changes nothing that `HubTasks` has, and the last one returns. -/
private theorem eventStep_eq {s : SessionControl} {ev : DeviceEvent} {call : EventCall}
    (h : s.eventStep ev io call = .ok s') : ∃ table eventSock eventConnected next,
      s' = { s with
        table := table, eventSock := eventSock, eventConnected := eventConnected, next := next } ∧
      ((∃ call', next = .event ev call') ∨ next = SessionControl.behind ev) := by
  cases call with
  | check =>
    simp only [SessionControl.eventStep] at h
    split at h <;> cases h <;> exact ⟨_, _, _, _, rfl, .inl ⟨_, rfl⟩⟩
  | closeOld | closeFailed =>
    obtain ⟨table, hclose⟩ := close_eq s s.eventSock
    rw [SessionControl.eventStep, hclose] at h
    cases h
    exact ⟨_, _, _, _, rfl, .inl ⟨_, rfl⟩⟩
  | socket =>
    simp only [SessionControl.eventStep] at h
    split at h
    · cases h
      exact ⟨_, _, _, _, rfl, .inr rfl⟩
    · obtain ⟨s₁, hopen, rfl⟩ := map_eq_ok h
      obtain ⟨table, rfl⟩ := openAs_eq hopen
      exact ⟨_, _, _, _, rfl, .inl ⟨_, rfl⟩⟩
  | connect =>
    simp only [SessionControl.eventStep] at h
    split at h <;> cases h <;> exact ⟨_, _, _, _, rfl, .inl ⟨_, rfl⟩⟩
  | send =>
    cases h
    refine ⟨_, _, _, _, rfl, ?_⟩
    split
    · exact .inr rfl
    · exact .inl ⟨_, rfl⟩
  | forget =>
    cases h
    exact ⟨_, _, _, _, rfl, .inr rfl⟩

/-- The session's call is answered by steps of the session in `HubTasks`. -/
private def Matched (x : HubAndSession) (ip : UInt32) (s' : SessionControl) : Prop :=
  ∃ (as : List CtrlAnswers) (ip' : UInt32),
    run HubTasks.step (x.coarse ip) (as.map .ctrl) = .ok (coarse { x with session := s' } ip')

private theorem Matched.silent {ip : UInt32} (h : x.coarse ip = coarse { x with session := s' } ip) :
    Matched x ip s' :=
  ⟨[], ip, congrArg Except.ok h⟩

private theorem Matched.one {ip : UInt32} (a : CtrlAnswers) (ip' : UInt32)
    (h : (x.coarse ip).ctrlStep a = .ok (coarse { x with session := s' } ip')) : Matched x ip s' :=
  ⟨[a], ip', run_cons_of_ok [] h⟩

private theorem ctrl_matches (ip : UInt32) (hx : Heeds x (.session (.ctrl io)))
    (h : x.session.ctrlStep io = .ok s') : Matched x ip s' := by
  cases hnext : x.session.next with
  | waitFound =>
    have hfound := hx.found io rfl hnext
    simp only [SessionControl.ctrlStep, hnext, Except.ok.injEq] at h
    subst h
    exact .one {} ip (by simp [HubTasks.ctrlStep, coarse, pcOf, sockOf, hnext, hfound])
  | socket =>
    simp only [SessionControl.ctrlStep, hnext] at h
    split at h
    · cases h
      exact ⟨[{}, {}, {}], x.hub.ip,
        by simp [run, HubTasks.step, HubTasks.ctrlStep, coarse, pcOf, sockOf, hnext]⟩
    · obtain ⟨s₁, hopen, rfl⟩ := map_eq_ok h
      obtain ⟨table, rfl⟩ := openAs_eq hopen
      exact .one {} x.hub.ip (by simp [HubTasks.ctrlStep, coarse, pcOf, sockOf, hnext])
  | bind fd | setTimeout fd =>
    simp only [SessionControl.ctrlStep, hnext, Except.ok.injEq] at h
    subst h
    refine .silent ?_
    cases io.works <;> simp [coarse, pcOf, sockOf, hnext]
  | giveUp fd =>
    obtain ⟨table, hclose⟩ := close_eq x.session (some fd)
    simp only [SessionControl.ctrlStep, hnext, hclose, Except.ok.injEq] at h
    subst h
    exact ⟨[{}, {}], ip, by simp [run, HubTasks.step, HubTasks.ctrlStep, coarse, pcOf, sockOf, hnext]⟩
  | publish fd =>
    simp only [SessionControl.ctrlStep, hnext] at h
    refine .one { opened := some fd } ip ?_
    split at h <;> cases h <;> simp [HubTasks.ctrlStep, coarse, pcOf, sockOf,
      SessionControl.announce, *]
  | usbCheck fd =>
    simp only [SessionControl.ctrlStep, hnext] at h
    refine .one { usbReady := io.usbReady } ip ?_
    split at h <;> cases h <;> simp [HubTasks.ctrlStep, coarse, pcOf, sockOf,
      SessionControl.announce, *]
  | usbLoop fd =>
    simp only [SessionControl.ctrlStep, hnext, Except.ok.injEq] at h
    subst h
    refine .one { usbReady := io.usbReady } ip ?_
    cases io.usbReady <;> simp [HubTasks.ctrlStep, coarse, pcOf, sockOf, hnext]
  | usbDelay fd =>
    have hlooks := hx.looks io fd rfl (.inl hnext)
    simp only [SessionControl.ctrlStep, hnext, hlooks, Except.ok.injEq] at h
    subst h
    refine .one {} ip ?_
    cases hlost : x.hub.lostBit <;>
      simp [HubTasks.ctrlStep, coarse, pcOf, sockOf, hnext, hlost]
  | usbFinal fd =>
    have hlooks := hx.looks io fd rfl (.inr hnext)
    simp only [SessionControl.ctrlStep, hnext, hlooks] at h
    refine .one {} ip ?_
    split at h <;> cases h <;> simp [HubTasks.ctrlStep, coarse, pcOf, sockOf,
      SessionControl.announce, *]
  | abortClose fd =>
    obtain ⟨table, hclose⟩ := close_eq x.session (some fd)
    simp only [SessionControl.ctrlStep, hnext, hclose, Except.ok.injEq] at h
    subst h
    exact .silent (by simp [coarse, pcOf, sockOf, hnext])
  | abortClear | loadSock =>
    simp only [SessionControl.ctrlStep, hnext, Except.ok.injEq] at h
    subst h
    exact .silent (by simp [coarse, pcOf, sockOf, hnext])
  | event ev call =>
    simp only [SessionControl.ctrlStep, hnext] at h
    obtain ⟨table, eventSock, eventConnected, next, rfl, ⟨call', rfl⟩ | rfl⟩ := eventStep_eq h
    · refine .silent ?_
      cases ev <;> simp [coarse, pcOf, sockOf, hnext]
    · refine .one {} ip ?_
      cases ev <;> simp [HubTasks.ctrlStep, coarse, pcOf, sockOf,
        SessionControl.behind, hnext]
  | waitLost =>
    have hlost := hx.lost io rfl hnext
    simp only [SessionControl.ctrlStep, hnext, Except.ok.injEq] at h
    subst h
    exact .one {} ip (by simp [HubTasks.ctrlStep, coarse, pcOf, sockOf, hnext, hlost])
  | clearLost | setActive | clearActive | setLost | clearSock old | forgetLost =>
    simp only [SessionControl.ctrlStep, hnext, Except.ok.injEq] at h
    subst h
    exact .one {} ip (by simp [HubTasks.ctrlStep, coarse, pcOf, sockOf, hnext])
  | closeSock old =>
    obtain ⟨table, hclose⟩ := close_eq x.session old
    simp only [SessionControl.ctrlStep, hnext, hclose, Except.ok.injEq] at h
    subst h
    exact .silent (by simp [coarse, pcOf, sockOf, SessionControl.announce, hnext])

private theorem table_eq {s : SessionControl} {i : ControlInput} (hi : ∀ io, i ≠ .ctrl io)
    (h : s.step i = .ok s') : ∃ table, s' = { s with table := table } := by
  cases i with
  | ctrl io => exact absurd rfl (hi io)
  | opens fd => exact openAs_eq h
  | closes fd =>
    simp only [SessionControl.step] at h
    split at h
    · exact ⟨_, (Except.ok.inj h).symm⟩
    · cases h

end Matching

/-- The inputs of the discovery task in a run beside it. -/
def visible : HubAndSessionInput → List HubInput
  | .hub i => hubInput i
  | .session _ => []

private theorem flatMap_ctrl (as : List CtrlAnswers) :
    (as.map HubInput.ctrl).flatMap hubInput = [] := by
  rw [List.flatMap_map]
  exact List.flatMap_eq_nil_iff.mpr fun _ _ => rfl

/-- Every run of the session, call by call and beside the discovery task, is a run of `HubTasks`
with the same discovery task: the socket, the bits of the session and what it does next agree. -/
theorem session_refines (usbipMode : Bool) {is : List HubAndSessionInput} {x : HubAndSession}
    (hg : RunAll step Heeds (boot usbipMode) is) (hr : run step (boot usbipMode) is = .ok x) :
    ∃ js ip, run HubTasks.step (.boot usbipMode) js = .ok (x.coarse ip) ∧
      js.flatMap hubInput = is.flatMap visible := by
  have hstep : ∀ (x : HubAndSession) (i : HubAndSessionInput) (x' : HubAndSession) (t : HubTasks),
      (∃ ip, t = x.coarse ip) → Heeds x i → step x i = .ok x' →
      ∃ js t', run HubTasks.step t js = .ok t' ∧ js.flatMap hubInput = visible i ∧
        ∃ ip, t' = x'.coarse ip := by
    rintro x i x' t ⟨ip, rfl⟩ hx hstep
    cases i with
    | hub i =>
      obtain ⟨hview, hmatch⟩ := hub_matches ip hstep
      exact ⟨[i], _, run_cons_of_ok [] hmatch, List.flatMap_singleton _ _, ip, rfl⟩
    | session i =>
      obtain ⟨s', hs, rfl⟩ := map_eq_ok hstep
      by_cases hi : ∃ io, i = .ctrl io
      · obtain ⟨io, rfl⟩ := hi
        obtain ⟨as, ip', hrun⟩ := ctrl_matches ip hx hs
        exact ⟨as.map .ctrl, _, hrun, flatMap_ctrl as, ip', rfl⟩
      · obtain ⟨table, rfl⟩ := table_eq (fun io h => hi ⟨io, h⟩) hs
        exact ⟨[], _, rfl, rfl, ip, rfl⟩
  obtain ⟨js, t, hrun, hview, ip, rfl⟩ := run_simulation hstep ⟨0, rfl⟩ hg hr
  exact ⟨js, ip, hrun, hview⟩

end HubAndSession
end WirelessHub.Firmware
