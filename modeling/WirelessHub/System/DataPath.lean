import WirelessHub.Daemon.Runs
import WirelessHub.Firmware.Reading

/-!
# The data path between a device and the daemon

Both ends name the same packets, but not the same sockets. The firmware sends session data
from its reply socket to the UDP port of the daemon, which answers `DISCOVER` and nothing
else; the daemon sends session data on the TCP connection of the session, which the firmware
never reads. No packet of a session gets across, in either direction.
-/

namespace WirelessHub.System

open Framework Firmware Function

def deliveredTo (d : UInt8) (trace : List WirelessHub.Effect) : List (List UInt8) :=
  trace.filterMap fun
    | .deviceData d' _ payload => if d' = d then some payload else none
    | _ => none

def handedTo (d : UInt8) (trace : List (UInt8 × Firmware.Effect)) : List (List UInt8) :=
  trace.filterMap fun
    | (d', .submit payload) => if d' = d then some payload else none
    | (d', .opsSend payload) => if d' = d then some payload else none
    | _ => none

/-- The descriptor of the daemon behind a port; both of its sockets are bound to the same one. -/
def endpoint (hub : HubServer) (isUdp : Bool) (port : UInt16) : Option Fd :=
  if port = daemonPort then some (if isUdp then hub.udpFd else hub.tcpServerFd) else none

def datagramInput (fd : Fd) (bytes : List UInt8) : Daemon.Input where
  fd := fd
  evts := { epollin := true }
  sys := { recvFrom := some bytes }

/-- The packet that `send_raw` emits for `b` reaches the handler of the session through the
endpoint it is addressed to. -/
def UpDelivered (e : Esp) (st : Daemon) (d : UInt8) (b : List UInt8) : Prop :=
  ∃ s fd isUdp dest bytes peer st', e.sessions d = some s ∧ s.sock = some fd ∧
    e.kind fd = some isUdp ∧ (s.sendRaw b).2 = [.sendto dest bytes] ∧
    endpoint st.hub isUdp dest.port = some peer ∧
    Daemon.step st (datagramInput peer bytes) = .ok st' ∧
    deliveredTo d st'.os.trace = deliveredTo d st.os.trace ++ [b]

/-- The packet that `sendRawDataPacket` emits for `b` on a connection is, at some time after it
arrived, handed on by the session of the device. -/
def DownDelivered (e : Esp) (d : UInt8) (fd : Nat) (h : PassthroughHandler) (sends : List IoResult)
    (b : List UInt8) : Prop :=
  ∃ is : List EspInput,
    (handedTo d (is.foldl Esp.step
      (e.step (.tcpArrives fd (h.sendRawDataPacket sends b).bytes))).trace).count b =
    (handedTo d (is.foldl Esp.step e).trace).count b + 1

private theorem datagram_dropped {st st' : Daemon} {bytes : List UInt8}
    (hcmd : (Header.decode bytes).cmdType ≠ CmdType.discover.toByte)
    (hstep : Daemon.step st (datagramInput st.hub.udpFd bytes) = .ok st') :
    st'.os.trace = st.os.trace := by
  have hudp : ∀ u : Daemon, u.onUdpReadable (datagramInput st.hub.udpFd bytes).sys = u := by
    intro u
    simp only [Daemon.onUdpReadable, datagramInput, hcmd, if_false, ite_self]
  simp only [Daemon.step, Daemon.handleEvent, datagramInput, if_true] at hstep hudp
  rw [hudp, Except.ok.injEq] at hstep
  rw [← hstep]
  rfl

/-- No session data crosses: not the datagrams of a device, whatever state the daemon is in,
and not the packets of the daemon, whatever the device does after they arrived. -/
theorem no_data_crosses (cfgs : UInt8 → Option SessionCfg) (is : List EspInput) (st : Daemon)
    (d : UInt8) {b : List UInt8} (hb : 1 ≤ b.length ∧ b.length ≤ mtuPayload) :
    ¬UpDelivered (is.foldl Esp.step (Esp.boot cfgs)) st d b ∧
    ∀ fd h sends, ¬DownDelivered (is.foldl Esp.step (Esp.boot cfgs)) d fd h sends b := by
  have hwired := Esp.run_wired cfgs is
  generalize is.foldl Esp.step (Esp.boot cfgs) = e at hwired
  constructor
  · rintro ⟨s, fd, isUdp, dest, bytes, peer, st', hs, hfd, hkind, hsend, hpeer, hstep, hdel⟩
    have hreply : e.replySock d = some fd := by
      rw [Esp.replySock, hs]
      exact hfd
    obtain rfl : true = isUdp := Option.some.inj ((hwired.reply d fd hreply).symm.trans hkind)
    rw [s.sendRaw_of_short hfd hb.2, List.cons.injEq, Firmware.Effect.sendto.injEq] at hsend
    obtain ⟨⟨rfl, rfl⟩, -⟩ := hsend
    obtain rfl : st.hub.udpFd = peer := Option.some.inj hpeer
    have hcmd : (Header.decode ((s.rawHeader b.length).encode ++ b)).cmdType ≠
        CmdType.discover.toByte := by
      rw [Header.decode_encode]
      change CmdType.rawData.toByte ≠ CmdType.discover.toByte
      decide
    rw [datagram_dropped hcmd hstep] at hdel
    exact absurd (congrArg List.length hdel) (by simp)
  · rintro fd h sends ⟨js, hcount⟩
    rw [Esp.trace_of_tcpArrives hwired] at hcount
    omega

/-- One device, a mouse behind a plain session. -/
def mouse (d : UInt8) : Option SessionCfg := if d = 0 then some ⟨0, 2, 3, 1, 1, false⟩ else none

/-- Its session opens reply socket 3 and announces itself on connection 4. -/
def announced : List EspInput :=
  [.openReply 0 0x0A000001 (some 3) true true,
    .sendDeviceEvent 0 .connect { socket := some 4, sent := some 14 }]

theorem no_data_crosses_announced :
    ∃ st, run Daemon.step (Daemon.boot 3 4 fun _ => none) Daemon.connectedRun = .ok st ∧
      st.hub.sessions 0 = some 0 ∧ (announced.foldl Esp.step (Esp.boot mouse)).replySock 0 = some 3 ∧
      ¬UpDelivered (announced.foldl Esp.step (Esp.boot mouse)) st 0 [42] ∧
      ¬DownDelivered (announced.foldl Esp.step (Esp.boot mouse)) 0 4 ⟨7, 5, 0, 0⟩ [] [42] := by
  obtain ⟨st, hr, hs⟩ : ∃ st, run Daemon.step (Daemon.boot 3 4 fun _ => none) Daemon.connectedRun =
      .ok st ∧ st.hub.sessions 0 = some 0 := ⟨_, rfl, rfl⟩
  obtain ⟨hup, hdown⟩ := no_data_crosses mouse announced st 0 (b := [42]) (by decide)
  exact ⟨st, hr, hs, rfl, hup, hdown 4 _ []⟩

/-- One byte each way between a session and its peer: the daemon drops the datagram, and the
device leaves the packet unread. -/
theorem byte_lost_both_ways :
    ∃ st st', run Daemon.step (Daemon.boot 3 4 fun _ => none) Daemon.connectedRun = .ok st ∧
      st.hub.sessions 0 = some 0 ∧
      ((announced.foldl Esp.step (Esp.boot mouse)).sessions 0).map (fun s => (s.sendRaw [42]).2) =
        some [.sendto ⟨0x0A000001, 7788⟩ [0x30, 0, 0, 1, 1, 0, 42]] ∧
      Daemon.step st (datagramInput 3 [0x30, 0, 0, 1, 1, 0, 42]) = .ok st' ∧
      deliveredTo 0 st'.os.trace = [] ∧
      ((⟨7, 5, 0, 0⟩ : PassthroughHandler).sendRawDataPacket [] [42]).bytes =
        [0x30, 0, 0, 0, 1, 0, 42] ∧
      handedTo 0 (((announced.foldl Esp.step (Esp.boot mouse)).step
        (.tcpArrives 4 [0x30, 0, 0, 0, 1, 0, 42])).step (.receive 0 {})).trace = [] :=
  ⟨_, _, rfl, rfl, rfl, rfl, rfl, rfl, rfl⟩

-- The same packets do get through where the other end listens: TCP up, UDP down.
example : ∃ st st', run Daemon.step (Daemon.boot 3 4 fun _ => none) Daemon.connectedRun = .ok st ∧
    Daemon.step st { fd := 5, evts := { epollin := true }
                     arrivals := [.data 0x30 [0, 0, 1, 1, 0, 42]] } = .ok st' ∧
    deliveredTo 0 st'.os.trace = [[42]] := ⟨_, _, rfl, rfl, rfl⟩

example : handedTo 0 (((announced.foldl Esp.step (Esp.boot mouse)).step
    (.udpArrives 7789 [0x30, 0, 0, 0, 1, 0, 42])).step (.receive 0 {})).trace = [[42]] := rfl

end WirelessHub.System
