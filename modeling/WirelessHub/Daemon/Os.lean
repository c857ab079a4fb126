import Mathlib.Logic.Function.Basic
import WirelessHub.Daemon.PassthroughHandler

/-!
# The operating system under the daemon

The descriptor table, the epoll interest list, the unread input of each connection and a
trace of what the process has done. The kernel never hands out a descriptor number that is
open; an answer that names one counts as a failed call.
-/

namespace WirelessHub

open Function

/-- Whether a call on the descriptor waits for data. -/
inductive FdMode
  | blocking | nonblocking
  deriving DecidableEq, Repr

def FdMode.ofFlag (sockNonblock : Bool) : FdMode := if sockNonblock then .nonblocking else .blocking

/-- The epoll event bits the daemon looks at. -/
structure EventMask where
  epollin : Bool := false
  epollrdhup : Bool := false
  epollhup : Bool := false
  epollerr : Bool := false
  deriving DecidableEq, Repr

def EventMask.hangup (m : EventMask) : Bool := m.epollrdhup || m.epollhup || m.epollerr

inductive Effect
  | packet (fd : Fd) (hdr : Header) (payload : List UInt8)
  | deviceData (deviceId : UInt8) (vhciFd : Fd) (payload : List UInt8)
  | kernelWrite (vhciFd : Fd) (bytes : List UInt8)
  | tcpSend (fd : Fd) (bytes : List UInt8)
  | udpSend (bytes : List UInt8)
  | logLine (level : UInt8) (text : List UInt8)
  | sysfsAttach (port : Int) (socketFd : Fd) (devid speed : UInt32)
  | close (fd : Fd)
  deriving DecidableEq, Repr

structure Os where
  fds : Fd → Option FdMode
  epoll : Fd → Option EventMask
  rx : Fd → List Recv
  trace : List Effect

namespace Os

def emit (os : Os) (e : Effect) : Os := { os with trace := os.trace ++ [e] }

/-- Closing a descriptor also drops its epoll registration and its unread input. -/
def close (os : Os) (fd : Fd) : Os where
  fds := update os.fds fd none
  epoll := update os.epoll fd none
  rx := update os.rx fd []
  trace := os.trace ++ [.close fd]

def closeAll (os : Os) (fds : List Fd) : Os := fds.foldl close os

def opened (os : Os) (fd : Fd) (mode : FdMode) : Os :=
  { os with fds := update os.fds fd (some mode) }

def accept4 (os : Os) (sockNonblock : Bool) : Option Fd → Option (Fd × Os)
  | none => none
  | some fd =>
      if os.fds fd = none then some (fd, os.opened fd (.ofFlag sockNonblock)) else none

def socketpair (os : Os) (sockNonblock : Bool) : Option (Fd × Fd) → Option (Fd × Fd × Os)
  | none => none
  | some (a, b) =>
      if a ≠ b ∧ os.fds a = none ∧ os.fds b = none then
        some (a, b, (os.opened a (.ofFlag sockNonblock)).opened b (.ofFlag sockNonblock))
      else none

theorem accept4_some {os os' : Os} {flag : Bool} {answer : Option Fd} {f : Fd}
    (h : os.accept4 flag answer = some (f, os')) :
    answer = some f ∧ os.fds f = none ∧ os' = os.opened f (.ofFlag flag) := by
  cases answer with
  | none => simp [accept4] at h
  | some g =>
    simp only [accept4, Option.ite_none_right_eq_some, Option.some.injEq, Prod.mk.injEq] at h
    obtain ⟨hfree, rfl, rfl⟩ := h
    exact ⟨rfl, hfree, rfl⟩

theorem socketpair_some {os os' : Os} {flag : Bool} {answer : Option (Fd × Fd)} {a b : Fd}
    (h : os.socketpair flag answer = some (a, b, os')) :
    answer = some (a, b) ∧ a ≠ b ∧ os.fds a = none ∧ os.fds b = none ∧
      os' = (os.opened a (.ofFlag flag)).opened b (.ofFlag flag) := by
  cases answer with
  | none => simp [socketpair] at h
  | some ab =>
    simp only [socketpair, Option.ite_none_right_eq_some, Option.some.injEq, Prod.mk.injEq] at h
    obtain ⟨⟨hne, ha, hb⟩, rfl, rfl, rfl⟩ := h
    exact ⟨rfl, hne, ha, hb, rfl⟩

/-- `epoll_ctl(EPOLL_CTL_ADD)`; its result is not looked at. -/
def epollAdd (os : Os) (fd : Fd) (evts : EventMask) (ok : Bool) : Os :=
  if ok then { os with epoll := update os.epoll fd (some evts) } else os

@[simp] theorem epollAdd_fds (os : Os) (fd : Fd) (evts : EventMask) (ok : Bool) :
    (os.epollAdd fd evts ok).fds = os.fds := by
  cases ok <;> rfl

theorem epollAdd_epoll (os : Os) (fd : Fd) (evts : EventMask) (ok : Bool) :
    (os.epollAdd fd evts ok).epoll =
      if ok then update os.epoll fd (some evts) else os.epoll := by
  cases ok <;> rfl

def epollDel (os : Os) (fd : Fd) : Os := { os with epoll := update os.epoll fd none }

def deliver (os : Os) (fd : Fd) (arrivals : List Recv) : Os :=
  { os with rx := update os.rx fd (os.rx fd ++ arrivals) }

def setRx (os : Os) (fd : Fd) (rest : List Recv) : Os := { os with rx := update os.rx fd rest }

end Os

/-- The answers of the operating system during one turn of the event loop. -/
structure Syscalls where
  accept : Option Fd := none
  socketpair : Option (Fd × Fd) := none
  sysfsAttach : Bool := true
  sysfsDetach : Bool := true
  epollCtl : Bool := true
  reads : List ReadResult := []
  sends : List IoResult := []
  writes : List IoResult := []
  recvFrom : Option (List UInt8) := none
  /-- The device id found through a pointer to a session that was freed before. -/
  staleDevice : UInt8 := 0

end WirelessHub
