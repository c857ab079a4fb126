import Mathlib.Logic.Function.Basic
import WirelessHub.Firmware.DaemonAddress
import WirelessHub.Firmware.DeviceSession

/-!
# The search for a daemon

The inner loop of `hub_discover_task`, call by call: a socket is opened, made ready to
broadcast and to time out, `DISCOVER` is sent, one datagram is awaited, and the socket is
closed. Each call can fail, and each failure leads to a delay and a new attempt. What the
tasks do besides is left to `HubTasks`.
-/

namespace WirelessHub.Firmware

open Function Framework

/-- What `recvfrom` gives: the sender, which has an address, and the bytes. -/
structure Received where
  sender : SockAddr
  bytes : List UInt8
  ip_ne_zero : sender.ip ≠ 0
  deriving DecidableEq

def discoverPacket : List UInt8 := Header.encode ⟨CmdType.discover.toByte, 0, 0, 0, 0⟩

/-- The size of the buffer for the reply: a header and `DiscoverReplyPayload`. -/
def replySize : Nat := Header.size + 2

/-- The checks on what was received, and the address that is taken from it. -/
def Received.discovered (r : Received) : Option Discovered :=
  if r.bytes.length < replySize then none
  else if (Header.decode r.bytes).cmdType ≠ CmdType.discoverReply.toByte then none
  else some ⟨r.sender.ip, ofLe16 (r.bytes.getD 6 0) (r.bytes.getD 7 0), r.ip_ne_zero⟩

/-- The next call of an attempt, with the socket and the result that it works on. -/
inductive Attempt
  | socket
  | setBroadcast (sock : Nat)
  | setTimeout (sock : Nat)
  | sendto (sock : Nat)
  | recvfrom (sock : Nat)
  | close (sock : Nat) (rcvd : Option Received)
  | check (rcvd : Option Received)
  | abandon (sock : Nat)
  | retryDelay
  deriving DecidableEq

/-- The tasks, the attempt of the discovery task, and the sockets that it has open with the
port of each: an unbound socket has port 0. -/
structure Searcher where
  tasks : HubTasks
  attempt : Attempt
  sockets : Nat → Option UInt16

/-- The answers of the system to a call. `sendto` binds the socket to a port. -/
structure CallAnswers where
  opened : Option Nat := none
  broadcast : Bool := true
  bound : Option UInt16 := none
  received : Option Received := none

namespace Searcher

def boot (usbipMode : Bool) : Searcher where
  tasks := .boot usbipMode
  attempt := .socket
  sockets _ := none

/-- The next call of the attempt. The kernel hands out no descriptor that is open. -/
def call (s : Searcher) (a : CallAnswers) : Except Unit Searcher :=
  match s.attempt with
  | .socket => match a.opened with
    | none => .ok { s with attempt := .retryDelay }
    | some sock =>
        if s.sockets sock = none then
          .ok { s with sockets := update s.sockets sock (some 0), attempt := .setBroadcast sock }
        else .error ()
  | .setBroadcast sock =>
      .ok { s with attempt := if a.broadcast then .setTimeout sock else .abandon sock }
  | .setTimeout sock => .ok { s with attempt := .sendto sock }
  | .sendto sock => match a.bound with
    | none => .ok { s with attempt := .abandon sock }
    | some port =>
        .ok { s with sockets := update s.sockets sock (some port), attempt := .recvfrom sock }
  | .recvfrom sock => .ok { s with attempt := .close sock a.received }
  | .close sock rcvd =>
      .ok { s with sockets := update s.sockets sock none, attempt := .check rcvd }
  | .check rcvd => match rcvd.bind Received.discovered with
    | none => .ok { s with attempt := .retryDelay }
    | some d => (s.tasks.step (.reply d)).map fun tasks => { s with tasks := tasks }
  | .abandon sock =>
      .ok { s with sockets := update s.sockets sock none, attempt := .retryDelay }
  | .retryDelay => (s.tasks.step .attemptFails).map fun tasks =>
      { s with tasks := tasks, attempt := .socket }

/-- A call is made while the discovery task is in its inner loop. -/
def callStep (s : Searcher) (a : CallAnswers) : Except Unit Searcher :=
  match s.tasks.hubPc with
  | .discover => s.call a
  | _ => .error ()

/-- The inner loop starts with a new attempt. -/
def entering (s : Searcher) : HubInput → Attempt
  | .wifiReady => .socket
  | _ => s.attempt

/-- A step of the tasks outside of the inner loop. -/
def taskStep (s : Searcher) (i : HubInput) : Except Unit Searcher :=
  match i with
  | .attemptFails => .error ()
  | .reply _ => .error ()
  | i => (s.tasks.step i).map fun tasks => { s with tasks := tasks, attempt := s.entering i }

/-- The port of the socket that `sendto` is about to send from. -/
def sending (s : Searcher) (a : CallAnswers) : Option UInt16 :=
  match s.attempt with
  | .sendto _ => a.bound
  | _ => none

/-- The port at which the attempt waits for a datagram. -/
def awaiting (s : Searcher) : Option UInt16 :=
  match s.attempt with
  | .recvfrom sock => s.sockets sock
  | _ => none

end Searcher

inductive SearchInput
  | task (i : HubInput)
  | call (a : CallAnswers)

def Searcher.step (s : Searcher) : SearchInput → Except Unit Searcher
  | .task i => s.taskStep i
  | .call a => s.callStep a

/-- The socket that the attempt has open before its next call. -/
def Attempt.sock : Attempt → Option Nat
  | .socket => none
  | .setBroadcast sock => some sock
  | .setTimeout sock => some sock
  | .sendto sock => some sock
  | .recvfrom sock => some sock
  | .close sock _ => some sock
  | .check _ => none
  | .abandon sock => some sock
  | .retryDelay => none

/-- The datagram that the attempt has received and not yet looked at. -/
def Attempt.rcvd : Attempt → Option Received
  | .close _ rcvd => rcvd
  | .check rcvd => rcvd
  | _ => none

namespace Searcher

variable {s s' : Searcher} {a : CallAnswers} {i : HubInput}

/-- What a call comes to. -/
inductive Calls (s : Searcher) (a : CallAnswers) : Searcher → Prop
  | opens (sock : Nat) (none_open : s.attempt.sock = none) (free : s.sockets sock = none) :
      Calls s a { s with
        sockets := update s.sockets sock (some 0), attempt := .setBroadcast sock }
  | goesOn (attempt : Attempt) (sock : attempt.sock = s.attempt.sock) (rcvd : attempt.rcvd = none)
      (calls : ∀ k, attempt ≠ .recvfrom k) : Calls s a { s with attempt := attempt }
  | binds (sock : Nat) (port : UInt16) (at_sendto : s.attempt = .sendto sock)
      (bound : a.bound = some port) :
      Calls s a { s with sockets := update s.sockets sock (some port), attempt := .recvfrom sock }
  | receives (sock : Nat) (at_recvfrom : s.attempt = .recvfrom sock) :
      Calls s a { s with attempt := .close sock a.received }
  | closes (sock : Nat) (attempt : Attempt) (opened : s.attempt.sock = some sock)
      (closed : attempt.sock = none) (rcvd : attempt.rcvd = s.attempt.rcvd) :
      Calls s a { s with sockets := update s.sockets sock none, attempt := attempt }
  | found (r : Received) (d : Discovered) (tasks : HubTasks) (at_check : s.attempt = .check (some r))
      (reply : r.discovered = some d) (step : s.tasks.step (.reply d) = .ok tasks) :
      Calls s a { s with tasks := tasks }
  | again (tasks : HubTasks) (at_delay : s.attempt = .retryDelay)
      (step : s.tasks.step .attemptFails = .ok tasks) :
      Calls s a { s with tasks := tasks, attempt := .socket }

private theorem call_calls (h : s.call a = .ok s') : Calls s a s' := by
  unfold call at h
  split at h <;> rename_i hat
  · split at h
    · cases h
      exact .goesOn .retryDelay (by rw [hat]; rfl) rfl nofun
    · split at h
      · cases h
        exact .opens _ (by rw [hat]; rfl) ‹_›
      · cases h
  · cases h
    cases a.broadcast with
    | false => exact .goesOn (.abandon _) (by rw [hat]; rfl) rfl nofun
    | true => exact .goesOn (.setTimeout _) (by rw [hat]; rfl) rfl nofun
  · cases h
    exact .goesOn (.sendto _) (by rw [hat]; rfl) rfl nofun
  · split at h
    · cases h
      exact .goesOn (.abandon _) (by rw [hat]; rfl) rfl nofun
    · cases h
      exact .binds _ _ hat ‹_›
  · cases h
    exact .receives _ hat
  · cases h
    exact .closes _ (.check _) (by rw [hat]; rfl) rfl (by rw [hat]; rfl)
  · split at h
    · cases h
      exact .goesOn .retryDelay (by rw [hat]; rfl) rfl nofun
    · rename_i rcvd _ d hd
      obtain ⟨r, rfl, hr⟩ := Option.bind_eq_some_iff.mp hd
      obtain ⟨tasks, hstep, rfl⟩ := map_eq_ok h
      exact .found r d tasks hat hr hstep
  · cases h
    exact .closes _ .retryDelay (by rw [hat]; rfl) rfl (by rw [hat]; rfl)
  · obtain ⟨tasks, hstep, rfl⟩ := map_eq_ok h
    exact .again tasks hat hstep

theorem callStep_calls (h : s.callStep a = .ok s') : s.tasks.hubPc = .discover ∧ Calls s a s' := by
  unfold callStep at h
  split at h
  · exact ⟨‹_›, call_calls h⟩
  · cases h

theorem taskStep_eq (h : s.taskStep i = .ok s') :
    (∀ d, i ≠ .reply d) ∧ ∃ tasks, s.tasks.step i = .ok tasks ∧
      s' = { s with tasks := tasks, attempt := s.entering i } := by
  cases i with
  | attemptFails => cases h
  | reply d => cases h
  | wifiReady | wifiLost | hub | ctrl =>
    obtain ⟨tasks, hstep, rfl⟩ := map_eq_ok h
    exact ⟨nofun, tasks, hstep, rfl⟩

section Sockets

/-- The open sockets are those of the attempt, and there is none outside of the inner loop. -/
structure Tidy (s : Searcher) : Prop where
  owned : ∀ k, s.sockets k ≠ none ↔ s.attempt.sock = some k
  outside : s.tasks.hubPc ≠ .discover → s.attempt.sock = none

theorem tidy_boot (usbipMode : Bool) : Tidy (boot usbipMode) :=
  ⟨by simp [boot, Attempt.sock], fun _ => rfl⟩

private theorem Tidy.sets (h : Tidy s) {k : Nat} {port : UInt16} {attempt : Attempt}
    (hpc : s.tasks.hubPc = .discover) (hk : s.attempt.sock = none ∨ s.attempt.sock = some k)
    (hsock : attempt.sock = some k) :
    Tidy { s with sockets := update s.sockets k (some port), attempt := attempt } := by
  refine ⟨fun j => ?_, fun hout => absurd hpc hout⟩
  have hown := h.owned j
  by_cases hj : j = k
  · simp [hj, hsock]
  · have hother : s.attempt.sock ≠ some j := by
      rcases hk with hk | hk <;> simp [hk, Ne.symm hj]
    simp only [hother, iff_false] at hown
    simp [hj, hsock, hown, Ne.symm hj]

private theorem Tidy.closes (h : Tidy s) {k : Nat} {attempt : Attempt}
    (hk : s.attempt.sock = some k) (hsock : attempt.sock = none) :
    Tidy { s with sockets := update s.sockets k none, attempt := attempt } := by
  refine ⟨fun j => ?_, fun _ => hsock⟩
  have hown := h.owned j
  by_cases hj : j = k
  · simp [hj, hsock]
  · simp only [hk, Option.some.injEq, Ne.symm hj, iff_false] at hown
    simp [hj, hsock, hown]

theorem Tidy.calls (h : Tidy s) (hpc : s.tasks.hubPc = .discover) (hcall : Calls s a s') :
    Tidy s' := by
  cases hcall with
  | opens sock hnone => exact h.sets hpc (.inl hnone) rfl
  | goesOn attempt hsock =>
    exact ⟨fun k => by rw [hsock]; exact h.owned k, fun hout => absurd hpc hout⟩
  | binds sock port hat => exact h.sets hpc (.inr (by rw [hat]; rfl)) rfl
  | receives sock hat =>
    have hsock : s.attempt.sock = some sock := by rw [hat]; rfl
    exact ⟨fun k => by rw [h.owned k, hsock]; rfl, fun hout => absurd hpc hout⟩
  | closes sock attempt hopen hclosed => exact h.closes hopen hclosed
  | found r d tasks hat => exact ⟨h.owned, fun _ => by rw [hat]; rfl⟩
  | again tasks hat =>
    have hsock : s.attempt.sock = none := by rw [hat]; rfl
    exact ⟨fun k => by rw [h.owned k, hsock]; rfl, fun _ => rfl⟩

private theorem hubPc_of_step {t t' : HubTasks} (hpc : t.hubPc = .discover) (hi : ∀ d, i ≠ .reply d)
    (h : t.step i = .ok t') : t'.hubPc = .discover := by
  cases i with
  | wifiReady | wifiLost => simp [HubTasks.step, hpc] at h
  | attemptFails =>
    simp only [HubTasks.step, hpc, Except.ok.injEq] at h
    rwa [← h]
  | reply d => exact absurd rfl (hi d)
  | hub => simp [HubTasks.step, HubTasks.hubStep, hpc] at h
  | ctrl a => exact (HubTasks.ctrlStep_moves h).hubPc.trans hpc

theorem Tidy.task (h : Tidy s) (hstep : s.taskStep i = .ok s') : Tidy s' := by
  obtain ⟨hi, tasks, htasks, rfl⟩ := taskStep_eq hstep
  have hout : s.tasks.hubPc ≠ .discover ∨ tasks.hubPc = .discover := by
    by_cases hpc : s.tasks.hubPc = .discover
    · exact .inr (hubPc_of_step hpc hi htasks)
    · exact .inl hpc
  cases i with
  | wifiReady =>
    have hpc : s.tasks.hubPc ≠ .discover := by
      intro hpc
      simp [HubTasks.step, hpc] at htasks
    exact ⟨fun k => by rw [h.owned k, h.outside hpc]; rfl, fun _ => rfl⟩
  | attemptFails | reply | wifiLost | hub | ctrl =>
    exact ⟨h.owned, fun hne => h.outside (hout.resolve_right hne)⟩

private theorem Tidy.step (h : Tidy s) {j : SearchInput} (hstep : s.step j = .ok s') : Tidy s' := by
  cases j with
  | task i => exact h.task hstep
  | call a => exact h.calls (callStep_calls hstep).1 (callStep_calls hstep).2

/-- Whichever calls fail, in every run and however the tasks interleave: the discovery task has
at most one socket open, which its next call works on, and none outside of its inner loop. -/
theorem sockets_of_run {usbipMode : Bool} {is : List SearchInput}
    (hr : run Searcher.step (boot usbipMode) is = .ok s) (k : Nat) :
    s.sockets k ≠ none ↔ s.tasks.hubPc = .discover ∧ s.attempt.sock = some k := by
  have h : Tidy s := run_invariant_of_step (fun _ _ _ h => h.step) (tidy_boot usbipMode) hr
  constructor
  · intro hk
    have hsock := (h.owned k).mp hk
    refine ⟨?_, hsock⟩
    by_contra hout
    rw [h.outside hout] at hsock
    cases hsock
  · exact fun hk => (h.owned k).mpr hk.2

/-- `sendto` fails, and the socket of the attempt is closed before the delay. -/
theorem sockets_closed_after_failure : ∃ s, run Searcher.step (boot true)
    [.task .wifiReady, .call { opened := some 5 }, .call {}, .call {}, .call {}, .task (.ctrl {}),
      .call {}] = .ok s ∧ s.attempt = .retryDelay ∧ s.sockets 5 = none := by
  obtain ⟨s, hr, hat⟩ : ∃ s, run Searcher.step (boot true)
      [.task .wifiReady, .call { opened := some 5 }, .call {}, .call {}, .call {}, .task (.ctrl {}),
        .call {}] = .ok s ∧ s.attempt = .retryDelay := ⟨_, rfl, rfl⟩
  refine ⟨s, hr, hat, ?_⟩
  by_contra hopen
  have hsock := ((sockets_of_run hr 5).mp hopen).2
  rw [hat] at hsock
  cases hsock

end Sockets
end Searcher

section Addresses

variable {P Q : SockAddr → Prop}

/-- The address that the discovery task is about to store. -/
def HubPc.pending : HubPc → Option Discovered
  | .storeFound d => some d
  | .storeIp d => some d
  | .storePort d => some d
  | _ => none

/-- The discovery task has stored an address and not begun to withdraw it. -/
def HubPc.stored : HubPc → Bool
  | .clearLost => true
  | pc => pc.phase = .known

def Discovered.addr (d : Discovered) : SockAddr := ⟨d.ip, d.port⟩

/-- Every address that the tasks hold is one with `P`, or the zero of an address withdrawn. -/
structure HubTasks.Told (P : SockAddr → Prop) (t : HubTasks) : Prop where
  pending : ∀ d, t.hubPc.pending = some d → P d.addr
  ip : t.ip = 0 ∨ ∃ port, P ⟨t.ip, port⟩
  daemonIp : t.daemonIp = 0 ∨ ∃ port, P ⟨t.daemonIp, port⟩
  half : ∀ d, t.hubPc = .storePort d → t.ip = d.ip
  stored : t.hubPc.stored = true → P ⟨t.ip, t.port⟩

namespace HubTasks

variable {t t' : HubTasks} {i : HubInput}

private theorem told_boot (usbipMode : Bool) : Told P (boot usbipMode) where
  pending := nofun
  ip := .inl rfl
  daemonIp := .inl rfl
  half := nofun
  stored := nofun

private theorem Told.mono (h : Told P t) (hpq : ∀ x, P x → Q x) : Told Q t where
  pending d hd := hpq _ (h.pending d hd)
  ip := h.ip.imp_right fun ⟨port, hp⟩ => ⟨port, hpq _ hp⟩
  daemonIp := h.daemonIp.imp_right fun ⟨port, hp⟩ => ⟨port, hpq _ hp⟩
  half := h.half
  stored hs := hpq _ (h.stored hs)

private theorem Told.of_pc (h : Told P t) (hip : t'.ip = t.ip) (hport : t'.port = t.port)
    (hdaemon : t'.daemonIp = t.daemonIp ∨ t'.daemonIp = t.ip)
    (hpending : ∀ d, t'.hubPc.pending = some d → t.hubPc.pending = some d)
    (hhalf : ∀ d, t'.hubPc = .storePort d → t.hubPc = .storePort d)
    (hstored : t'.hubPc.stored = true → t.hubPc.stored = true) : Told P t' where
  pending d hd := h.pending d (hpending d hd)
  ip := by rw [hip]; exact h.ip
  daemonIp := by
    rcases hdaemon with he | he
    · rw [he]; exact h.daemonIp
    · rw [he]; exact h.ip
  half d hd := by rw [hip]; exact h.half d (hhalf d hd)
  stored hs := by rw [hip, hport]; exact h.stored (hstored hs)

private theorem ctrlStep_daemonIp {a : CtrlAnswers} (h : t.ctrlStep a = .ok t') :
    t'.port = t.port ∧ (t'.daemonIp = t.daemonIp ∨ t'.daemonIp = t.ip) := by
  unfold ctrlStep at h
  split at h
  case h_4 => split at h <;> cases h <;> exact ⟨rfl, .inl rfl⟩
  case h_9 => split at h <;> cases h <;> exact ⟨rfl, .inl rfl⟩
  case h_3 => cases h; exact ⟨rfl, .inr rfl⟩
  all_goals cases h
  all_goals exact ⟨rfl, .inl rfl⟩

private theorem Told.hub (h : Told P t) (hstep : t.hubStep = .ok t') : Told P t' := by
  unfold hubStep at hstep
  split at hstep <;> rename_i hpc
  case h_1 d =>
    cases hstep
    exact h.of_pc rfl rfl (.inl rfl) (fun e he => by rw [hpc]; exact he) nofun nofun
  case h_2 d =>
    cases hstep
    have hd := h.pending d (by rw [hpc]; rfl)
    refine ⟨fun e he => Option.some.inj he ▸ hd, .inr ⟨d.port, hd⟩, h.daemonIp, fun e he => ?_, nofun⟩
    cases he
    rfl
  case h_3 d =>
    cases hstep
    have hd := h.pending d (by rw [hpc]; rfl)
    have hip := h.half d hpc
    refine ⟨nofun, h.ip, h.daemonIp, nofun, fun _ => ?_⟩
    change P ⟨t.ip, d.port⟩
    rw [hip]
    exact hd
  case h_4 | h_5 =>
    cases hstep
    exact h.of_pc rfl rfl (.inl rfl) nofun nofun fun _ => by rw [hpc]; rfl
  case h_6 =>
    cases hstep
    exact h.of_pc rfl rfl (.inl rfl) nofun nofun fun _ => by rw [hpc]; rfl
  case h_7 =>
    cases hstep
    exact ⟨nofun, .inl rfl, h.daemonIp, nofun, nofun⟩
  case h_8 =>
    cases hstep
    exact ⟨nofun, h.ip, h.daemonIp, nofun, nofun⟩
  case h_9 | h_10 =>
    cases hstep
    exact h.of_pc rfl rfl (.inl rfl) nofun nofun nofun
  all_goals cases hstep

private theorem Told.step (h : Told P t) (hi : ∀ d, i = .reply d → P d.addr)
    (hstep : t.step i = .ok t') : Told P t' := by
  cases i with
  | hub => exact h.hub hstep
  | ctrl a =>
    have hm := ctrlStep_moves hstep
    obtain ⟨hport, hdaemon⟩ := ctrlStep_daemonIp hstep
    exact h.of_pc hm.ip hport hdaemon (fun _ => by rw [hm.hubPc]; exact id)
      (fun _ => by rw [hm.hubPc]; exact id) (by rw [hm.hubPc]; exact id)
  | reply d =>
    simp only [HubTasks.step] at hstep
    split at hstep <;> cases hstep
    refine ⟨fun e he => Option.some.inj he ▸ hi d rfl, h.ip, h.daemonIp, fun e he => ?_, fun he => ?_⟩
    · cases he
    · cases he
  | wifiReady | attemptFails | wifiLost =>
    simp only [HubTasks.step] at hstep
    split at hstep <;> cases hstep
    rename_i hpc
    exact h.of_pc rfl rfl (.inl rfl) (by simp [hpc, HubPc.pending]) (by simp [hpc])
      (by simp [hpc, HubPc.stored, HubPc.phase])

end HubTasks

namespace Searcher

variable {s s' : Searcher} {a : CallAnswers} {i : HubInput}

/-- A datagram that passes the checks names an address with `P`. -/
def Backs (P : SockAddr → Prop) (rcvd : Option Received) : Prop :=
  ∀ r d, rcvd = some r → r.discovered = some d → P d.addr

structure Told (P : SockAddr → Prop) (s : Searcher) : Prop where
  tasks : s.tasks.Told P
  rcvd : Backs P s.attempt.rcvd

theorem told_boot (usbipMode : Bool) : Told P (boot usbipMode) :=
  ⟨HubTasks.told_boot usbipMode, nofun⟩

theorem Told.mono (h : Told P s) (hpq : ∀ x, P x → Q x) : Told Q s :=
  ⟨h.tasks.mono hpq, fun r d hr hd => hpq _ (h.rcvd r d hr hd)⟩

theorem Told.calls (h : Told P s) (ha : Backs P a.received) (hcall : Calls s a s') : Told P s' := by
  cases hcall with
  | opens => exact ⟨h.tasks, nofun⟩
  | goesOn attempt _ hrcvd => exact ⟨h.tasks, by rw [hrcvd]; exact nofun⟩
  | binds => exact ⟨h.tasks, nofun⟩
  | receives => exact ⟨h.tasks, ha⟩
  | closes sock attempt _ _ hrcvd => exact ⟨h.tasks, by rw [hrcvd]; exact h.rcvd⟩
  | found r d tasks hat hd hstep =>
    refine ⟨h.tasks.step (fun e he => ?_) hstep, h.rcvd⟩
    cases he
    exact h.rcvd r d (by rw [hat]; rfl) hd
  | again tasks _ hstep =>
    refine ⟨h.tasks.step (fun d hd => ?_) hstep, nofun⟩
    cases hd

theorem Told.task (h : Told P s) (hstep : s.taskStep i = .ok s') : Told P s' := by
  obtain ⟨hi, tasks, htasks, rfl⟩ := taskStep_eq hstep
  refine ⟨h.tasks.step (fun d hd => absurd hd (hi d)) htasks, ?_⟩
  cases i with
  | wifiReady => exact nofun
  | attemptFails | reply | wifiLost | hub | ctrl => exact h.rcvd

end Searcher

end Addresses

end WirelessHub.Firmware
