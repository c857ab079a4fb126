import WirelessHub.Daemon.Batches
import WirelessHub.Daemon.Trace

/-!
# Datagrams of the daemon

The UDP socket of the hub answers `DISCOVER` and sends nothing else, whatever happens on the
connections in between.
-/

namespace WirelessHub

open Function Framework

/-- The reply to a datagram, if it gets one. -/
def discoverReply (bytes : List UInt8) : Option (List UInt8) :=
  if bytes.length < Header.size then none
  else if (Header.decode bytes).cmdType = CmdType.discover.toByte then
    some (Header.encode ⟨CmdType.discoverReply.toByte, 0, 0, 0, 2⟩ ++ discoverReplyPayload)
  else none

def Effect.udpBytes : Effect → Option (List UInt8)
  | .udpSend bytes => some bytes
  | _ => none

/-- The datagrams that the hub has sent, in order. -/
def udpSent (trace : List Effect) : List (List UInt8) := trace.filterMap Effect.udpBytes

namespace Daemon

variable {st st' : Daemon} {i : Input} {p : SessionPtr} {s : DeviceSession}

private theorem onUdpReadable_eq (st : Daemon) (sys : Syscalls) :
    st.onUdpReadable sys = match sys.recvFrom.bind discoverReply with
      | some reply => st.emit (.udpSend reply)
      | none => st := by
  unfold onUdpReadable
  cases sys.recvFrom with
  | none => rfl
  | some bytes =>
    simp only [Option.bind_some, discoverReply]
    split_ifs <;> rfl

def replyOf (st : Daemon) (i : Input) : Option (List UInt8) :=
  if i.fd = st.hub.udpFd then i.sys.recvFrom.bind discoverReply else none

/-- A turn sends the reply to the datagram that it reads, and nothing else. -/
theorem udpSent_step (h : step st i = .ok st') :
    udpSent st'.os.trace = udpSent st.os.trace ++ (replyOf st i).toList := by
  by_cases hudp : i.fd = st.hub.udpFd
  · have hreply : replyOf st i = i.sys.recvFrom.bind discoverReply := if_pos hudp
    have hudp' : i.fd = (st.arrived i).hub.udpFd := hudp
    have hstep : (st.arrived i).handleEvent i.fd i.evts i.sys = .ok st' := h
    rw [handleEvent, if_pos hudp', onUdpReadable_eq, Except.ok.injEq] at hstep
    rw [← hstep, hreply]
    cases i.sys.recvFrom.bind discoverReply with
    | none => exact (List.append_nil _).symm
    | some reply => simp [udpSent, arrived, emit, Os.emit, Os.deliver, Effect.udpBytes]
  · have hroute : st.hub.route i.fd ≠ .udp := by
      intro hr
      simp only [HubServer.route, if_neg hudp] at hr
      repeat' split at hr
      all_goals cases hr
    rw [replyOf, if_neg hudp, Option.toList_none, List.append_nil]
    refine (step_emits h).filterMap_eq fun e he => ?_
    cases e with
    | udpSend bytes => exact absurd he hroute
    | _ => rfl

variable {udpFd tcpServerFd : Fd} {inherited : Fd → Option FdMode} {is : List Input}

/-- The datagrams that the hub reads in a run, in order. -/
def datagrams (udpFd : Fd) (is : List Input) : List (List UInt8) :=
  is.filterMap fun i => if i.fd = udpFd then i.sys.recvFrom else none

private theorem udpSent_run {st₀ : Daemon} (hs : Sound st₀) (hr : run step st₀ is = .ok st) :
    udpSent st.os.trace =
      udpSent st₀.os.trace ++ (datagrams st₀.hub.udpFd is).filterMap discoverReply := by
  induction is generalizing st₀ with
  | nil =>
    obtain rfl := Except.ok.inj hr
    exact (List.append_nil _).symm
  | cons i is ih =>
    obtain ⟨mid, hstep, hr⟩ := run_cons_eq_ok.mp hr
    have hone : run step st₀ [i] = .ok mid := by rw [run_cons_of_ok [] hstep, run_nil]
    rw [ih (step_sound hs hstep) hr, udpSent_step hstep, (run_servers hs hone).2.1,
      List.append_assoc]
    congr 1
    by_cases hudp : i.fd = st₀.hub.udpFd
    · cases hd : i.sys.recvFrom with
      | none => simp [datagrams, replyOf, hudp, hd]
      | some bytes =>
        cases hreply : discoverReply bytes <;> simp [datagrams, replyOf, hudp, hd, hreply]
    · simp [datagrams, replyOf, hudp]

/-- In every run the hub answers each `DISCOVER` once, in the order in which it reads them, and
sends no other datagram. -/
theorem replies_of_run (hr : run step (boot udpFd tcpServerFd inherited) is = .ok st) :
    udpSent st.os.trace = (datagrams udpFd is).filterMap discoverReply :=
  udpSent_run (boot_sound udpFd tcpServerFd inherited) hr

def datagramInput (udpFd : Fd) (bytes : List UInt8) : Input where
  fd := udpFd
  evts := { epollin := true }
  sys := { recvFrom := some bytes }

/-- A runt, a `DISCOVER`, a client, and another command. -/
def mixedRun : List Input :=
  [datagramInput 3 [1, 0], datagramInput 3 [1, 0, 0, 0, 0, 0]] ++ connectedRun ++
    [datagramInput 3 [48, 0, 0, 0, 0, 0]]

theorem one_reply_among_events : ∃ st, run step (boot 3 4 fun _ => none) mixedRun = .ok st ∧
    udpSent st.os.trace = [[2, 0, 0, 0, 2, 0, 0x6C, 0x1E]] := by
  obtain ⟨st, hr⟩ : ∃ st, run step (boot 3 4 fun _ => none) mixedRun = .ok st := ⟨_, rfl⟩
  refine ⟨st, hr, (replies_of_run hr).trans ?_⟩
  decide

end Daemon
end WirelessHub
