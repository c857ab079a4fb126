import Mathlib.Tactic.Common
import WirelessHub.Framework.Run

/-!
# The DNS server of the setup portal

`dns_server_task` and the calls of `start_dns_server` and `stop_dns_server` share the globals
`s_dns_task` and `s_dns_sock`. Each access to one of them and each call of the network stack
is a step of its own, so the tasks and the calls interleave between any two of them. A call
with a descriptor that was loaded before uses that descriptor, whatever became of it since.
-/

namespace WirelessHub.Firmware

/-- What a DNS task does next. A task that has ended, or was never created, is `dead`. -/
inductive DnsPc
  | dead
  | start
  | opened (fd : Option Nat)
  | check
  | bindLoad
  | binding (fd : Option Nat)
  | recvLoad
  | receiving (fd : Option Nat)
  | closeLoad
  | closing (fd : Option Nat)
  | clearSock
  | clearTask
  | failCheck
  | failLoad
  | failClosing (fd : Option Nat)
  | failClear
  deriving DecidableEq, Repr

/-- What a caller of `start_dns_server` or `stop_dns_server` does next. -/
inductive DnsCallPc
  | idle
  | startCheck
  | startCreate
  | stopCheck
  | stopLoad
  | stopClosing (fd : Option Nat)
  | stopClearSock
  | stopClearTask
  deriving DecidableEq, Repr

inductive DnsCall
  | start | stop
  deriving DecidableEq, Repr

/-- The answers of the network stack to a step of a task. -/
structure DnsAnswers where
  socket : Option Nat := none
  bound : Bool := false
  len : Int := -1

inductive DnsInput
  | call (c : Nat) (call : DnsCall)
  | caller (c : Nat) (created : Bool)
  | task (t : Nat) (a : DnsAnswers)

/-- The globals, the tasks and the callers. `owner` gives for an open socket the task that
opened it; `closes` lists the sockets that tasks have closed, as closer and opener. -/
structure Dns where
  task : Option Nat
  sock : Option Nat
  next : Nat
  pcs : Nat → DnsPc
  callers : Nat → DnsCallPc
  owner : Nat → Option Nat
  closes : List (Nat × Nat)

namespace Dns

def boot : Dns where
  task := none
  sock := none
  next := 0
  pcs := fun _ => .dead
  callers := fun _ => .idle
  owner := fun _ => none
  closes := []

def setCaller (s : Dns) (c : Nat) (pc : DnsCallPc) : Dns :=
  { s with callers := fun c' => if c' = c then pc else s.callers c' }

def setTask (s : Dns) (t : Nat) (pc : DnsPc) : Dns :=
  { s with pcs := fun t' => if t' = t then pc else s.pcs t' }

def isOpen (s : Dns) (fd : Option Nat) : Bool := (fd.bind s.owner).isSome

/-- `close`; a descriptor that is not open is left alone. -/
def close (s : Dns) (fd : Option Nat) : Dns :=
  { s with owner := fun fd' => if fd = some fd' then none else s.owner fd' }

def closeBy (s : Dns) (t : Nat) (fd : Option Nat) : Dns :=
  { s.close fd with closes := s.closes ++ (fd.bind s.owner).toList.map (t, ·) }

/-- `xTaskCreate`, which writes the handle before the task can run. -/
def create (s : Dns) : Dns :=
  { s.setTask s.next .start with task := some s.next, next := s.next + 1 }

def callerStep (s : Dns) (c : Nat) (created : Bool) : Except Unit Dns :=
  match s.callers c with
  | .idle => .error ()
  | .startCheck => .ok (s.setCaller c (if s.task.isSome then .idle else .startCreate))
  | .startCreate => .ok ((if created then s.create else s).setCaller c .idle)
  | .stopCheck => .ok (s.setCaller c (if s.sock.isSome then .stopLoad else .stopClearTask))
  | .stopLoad => .ok (s.setCaller c (.stopClosing s.sock))
  | .stopClosing fd => .ok ((s.close fd).setCaller c .stopClearSock)
  | .stopClearSock => .ok ({ s with sock := none }.setCaller c .stopClearTask)
  | .stopClearTask => .ok ({ s with task := none }.setCaller c .idle)

/-- The next step of a task. A datagram of twelve bytes or more is answered and the task
receives again; anything shorter, and any error, ends it. -/
def taskStep (s : Dns) (t : Nat) (a : DnsAnswers) : Except Unit Dns :=
  match s.pcs t with
  | .dead => .error ()
  | .start => match a.socket with
    | none => .ok (s.setTask t (.opened none))
    | some fd =>
      if s.isOpen (some fd) then .error ()
      else .ok ({ s with owner := fun fd' => if fd' = fd then some t else s.owner fd' }.setTask t
        (.opened (some fd)))
  | .opened fd => .ok ({ s with sock := fd }.setTask t .check)
  | .check => .ok (s.setTask t (if s.sock.isSome then .bindLoad else .failCheck))
  | .bindLoad => .ok (s.setTask t (.binding s.sock))
  | .binding fd => .ok (s.setTask t (if a.bound && s.isOpen fd then .recvLoad else .failCheck))
  | .recvLoad => .ok (s.setTask t (.receiving s.sock))
  | .receiving fd => .ok (s.setTask t (if 12 ≤ a.len ∧ s.isOpen fd then .recvLoad else .closeLoad))
  | .closeLoad => .ok (s.setTask t (.closing s.sock))
  | .closing fd => .ok ((s.closeBy t fd).setTask t .clearSock)
  | .clearSock => .ok ({ s with sock := none }.setTask t .clearTask)
  | .clearTask => .ok ({ s with task := none }.setTask t .dead)
  -- the handle stays as it is on the way out after a failure
  | .failCheck => .ok (s.setTask t (if s.sock.isSome then .failLoad else .dead))
  | .failLoad => .ok (s.setTask t (.failClosing s.sock))
  | .failClosing fd => .ok ((s.closeBy t fd).setTask t .failClear)
  | .failClear => .ok ({ s with sock := none }.setTask t .dead)

def step (s : Dns) : DnsInput → Except Unit Dns
  | .call c call => match s.callers c with
    | .idle => .ok (s.setCaller c (match call with | .start => .startCheck | .stop => .stopCheck))
    | _ => .error ()
  | .caller c created => s.callerStep c created
  | .task t a => s.taskStep t a

end Dns
end WirelessHub.Firmware
