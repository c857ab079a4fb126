import WirelessHub.Daemon.Connecting

/-!
# Packets and the sessions of other connections

A packet is handled for the device that it names, not for the connection it came on. So the
data and the `DISCONNECT` of one connection reach the session of another one, and these two
are the only ways in which a packet does so, besides the `CONNECT` that takes a device over.
-/

namespace WirelessHub

open Function Framework

/-- The bytes that an effect writes to a descriptor of the kernel side. -/
def Effect.writtenTo (f : Fd) : Effect → List UInt8
  | .kernelWrite vhciFd bytes => if vhciFd = f then bytes else []
  | _ => []

def writtenTo (f : Fd) (trace : List Effect) : List UInt8 := trace.flatMap (Effect.writtenTo f)

theorem writtenTo_emit (f : Fd) (os : Os) (e : Effect) :
    writtenTo f (os.emit e).trace = writtenTo f os.trace ++ e.writtenTo f := by
  simp [writtenTo, Os.emit]

theorem Os.Emits.writtenTo {sys : Syscalls} {P : Effect → Prop} {os os' : Os}
    (h : os.Emits sys P os') (hP : ∀ g bytes, ¬P (.kernelWrite g bytes)) (f : Fd) :
    writtenTo f os'.trace = writtenTo f os.trace := by
  refine h.flatMap_eq fun e he => ?_
  cases e with
  | kernelWrite g bytes => exact absurd he (hP g bytes)
  | _ => rfl

namespace Daemon

variable {st st' : Daemon} {i : Input} {d : UInt8} {hdr : Header} {payload : List UInt8}
  {p : SessionPtr} {s : DeviceSession}

theorem writtenTo_received (f : Fd) (st : Daemon) (i : Input) (hdr : Header) (payload : List UInt8) :
    writtenTo f (st.received i hdr payload).os.trace = writtenTo f st.os.trace := by
  simp [received, emit, writtenTo_emit, Effect.writtenTo, Os.setRx, arrived, Os.deliver]

private theorem heap_onDisconnect_iff (hs : Sound st) (hp : st.hub.heap p = some s) (d : UInt8)
    (sys : Syscalls) : (st.onDisconnect d sys).hub.heap p = none ↔ s.deviceId = d := by
  constructor
  · intro hn
    by_contra hne
    have hsame := onDisconnect_sameSession hs hne sys
    rw [hsame.heap_of hs.wf hp] at hn
    cases hn
  · rintro rfl
    obtain ⟨sock, -, he⟩ := onDisconnect_of_some hs (hs.wf.owned p s hp) hp sys
    simp [he, HubServer.dropSession]

/-- The turn leaves the sessions of other connections alone, apart from a takeover: none of
them is removed and nothing is written to the kernel side of one. -/
def Isolated (st st' : Daemon) (c : Fd) (hdr : Header) (payload : List UInt8) : Prop :=
  ∀ p s, st.hub.heap p = some s → s.tcpSock ≠ some ⟨c⟩ →
    (st'.hub.heap p = none →
      IsConnect hdr payload ∧ s.deviceId = (DeviceEventPayload.decode payload).deviceId) ∧
    writtenTo s.vhciFd st'.os.trace = writtenTo s.vhciFd st.os.trace

/-- The packet names the device of another connection, as data of which `write` takes the first byte,
or as a `DISCONNECT`. -/
def Trespasses (st : Daemon) (c : Fd) (hdr : Header) (payload : List UInt8) (sys : Syscalls) :
    Prop :=
  ∃ p s, st.hub.heap p = some s ∧ s.tcpSock ≠ some ⟨c⟩ ∧
    ((hdr.cmdType = CmdType.rawData.toByte ∧ s.deviceId = hdr.deviceId ∧ payload ≠ [] ∧
        granted writeVerdict sys.writes ≠ some 0) ∨
      (IsDisconnect hdr payload ∧ s.deviceId = (DeviceEventPayload.decode payload).deviceId))

private theorem isolated_of_same (hhub : st'.hub = st.hub)
    (hw : ∀ f, writtenTo f st'.os.trace = writtenTo f st.os.trace) (c : Fd) :
    Isolated st st' c hdr payload := by
  intro p s hp _
  refine ⟨fun hn => ?_, hw _⟩
  rw [hhub, hp] at hn
  cases hn

private theorem onConnectEvent_isolated (hs : Sound st) (asks : IsConnect hdr payload) (c fd : Fd)
    (sys : Syscalls) (hw : ∀ f, writtenTo f (st.onConnectEvent fd (.decode payload) sys).os.trace =
      writtenTo f st.os.trace) :
    Isolated st (st.onConnectEvent fd (.decode payload) sys) c hdr payload := by
  intro p s hp _
  refine ⟨fun hn => ⟨asks, ?_⟩, hw _⟩
  by_contra hne
  rw [(onConnectEvent_sameSession hs hne fd sys).heap_of hs.wf hp] at hn
  cases hn

private theorem onDisconnect_isolated_iff (hs : Sound st) (hcon : ¬IsConnect hdr payload) (c : Fd)
    (d : UInt8) (sys : Syscalls)
    (hw : ∀ f, writtenTo f (st.onDisconnect d sys).os.trace = writtenTo f st.os.trace) :
    Isolated st (st.onDisconnect d sys) c hdr payload ↔
      ∀ p s, st.hub.heap p = some s → s.tcpSock ≠ some ⟨c⟩ → s.deviceId ≠ d := by
  refine ⟨fun h p s hp hc hd => ?_, fun h p s hp hc => ⟨fun hn => ?_, hw _⟩⟩
  · exact hcon ((h p s hp hc).1 ((heap_onDisconnect_iff hs hp d sys).mpr hd)).1
  · exact absurd ((heap_onDisconnect_iff hs hp d sys).mp hn) (h p s hp hc)

theorem vhciFd_eq_iff (hs : Sound st) {s₀ : DeviceSession} {h₀ : PassthroughHandler}
    (hb : (st.hub.sessions d).bind st.hub.heap = some s₀) (hh : s₀.handler = some h₀)
    (hp : st.hub.heap p = some s) : h₀.vhciFd = s.vhciFd ↔ s.deviceId = d := by
  obtain ⟨q, hq, hheap⟩ := Option.bind_eq_some_iff.mp hb
  obtain ⟨-, h, -, hh', -, hv, -, -⟩ := hs.wf.usable q s₀ hheap
  obtain rfl := Option.some.inj (hh'.symm.trans hh)
  obtain ⟨s₁, hs₁, hd⟩ := hs.wf.live d q hq
  obtain rfl := Option.some.inj (hs₁.symm.trans hheap)
  rw [hv]
  constructor
  · intro he
    have hslot := hs.wf.unique _ _ _ (slotFd_vhci hheap) (he ▸ slotFd_vhci hp)
    obtain rfl : q = p := by simpa using hslot
    rw [← hd, Option.some.inj (hheap.symm.trans hp)]
  · rintro rfl
    obtain rfl := Option.some.inj ((hs.wf.owned p s hp).symm.trans hq)
    rw [Option.some.inj (hheap.symm.trans hp)]

private theorem handlePacket_isolated_iff {c : Fd} {sys : Syscalls} (hs : Sound st)
    (h : st.handlePacket c hdr payload sys = .ok st') :
    Isolated st st' c hdr payload ↔ ¬Trespasses st c hdr payload sys := by
  -- data and log lines are not events
  have hev : ∀ {cmd : CmdType}, hdr.cmdType = cmd.toByte → cmd ≠ .deviceEvent →
      ¬IsConnect hdr payload ∧ ¬IsDisconnect hdr payload := by
    rintro cmd hcmd hne
    constructor <;> intro ha <;> exact hne (by cases cmd <;> simp_all [ha.1, CmdType.toByte])
  -- only data is written
  have hwritten : hdr.cmdType ≠ CmdType.rawData.toByte →
      ∀ f, writtenTo f st'.os.trace = writtenTo f st.os.trace :=
    fun hraw => (handlePacket_emits h).writtenTo fun _ _ he => hraw he
  cases handlePacket_handles h with
  | connect asks =>
    have hraw : hdr.cmdType ≠ CmdType.rawData.toByte := fun hraw => (hev hraw (by decide)).1 asks
    refine iff_of_true (onConnectEvent_isolated hs asks _ _ _ (hwritten hraw)) ?_
    rintro ⟨p, s, -, -, ⟨hraw, -⟩ | ⟨hdis, -⟩⟩
    · exact (hev hraw (by decide)).1 asks
    · exact absurd (asks.2.2.symm.trans hdis.2.2) (by decide)
  | disconnect asks =>
    have hcon : ¬IsConnect hdr payload :=
      fun hc => absurd (hc.2.2.symm.trans asks.2.2) (by decide)
    have hraw : hdr.cmdType ≠ CmdType.rawData.toByte := fun hraw => (hev hraw (by decide)).2 asks
    rw [onDisconnect_isolated_iff hs hcon _ _ _ (hwritten hraw)]
    constructor
    · rintro hnone ⟨p, s, hp, hc, ⟨hraw, -⟩ | ⟨-, hd⟩⟩
      · exact (hev hraw (by decide)).2 asks
      · exact hnone p s hp hc hd
    · exact fun hno p s hp hc hd => hno ⟨p, s, hp, hc, .inr ⟨asks, hd⟩⟩
  | data s₀ h₀ cmd session handler =>
    have hwrite : ∀ p s, st.hub.heap p = some s →
        (writtenTo s.vhciFd ((st.emit (.deviceData hdr.deviceId h₀.vhciFd payload)).emit
            (.kernelWrite h₀.vhciFd (onDeviceData sys.writes payload).taken)).os.trace =
          writtenTo s.vhciFd st.os.trace ↔
        (s.deviceId = hdr.deviceId → payload = [] ∨ granted writeVerdict sys.writes = some 0)) := by
      intro p s hp
      rw [← vhciFd_eq_iff hs session handler hp, ← transferAll_taken_eq_nil_iff]
      simp [emit, writtenTo_emit, Effect.writtenTo, onDeviceData, writeToKernel]
    constructor
    · rintro hiso ⟨p, s, hp, hc, ⟨-, hd, hbytes, hgranted⟩ | ⟨hdis, -⟩⟩
      · exact ((hwrite p s hp).mp (hiso p s hp hc).2 hd).elim hbytes hgranted
      · exact (hev cmd (by decide)).2 hdis
    · intro hno p s hp hc
      refine ⟨fun hn => ?_, (hwrite p s hp).mpr fun hd => ?_⟩
      · exact absurd (hp.symm.trans hn) (by simp)
      · by_contra htaken
        exact hno ⟨p, s, hp, hc, .inl ⟨cmd, hd, not_or.mp htaken⟩⟩
  | log level msg cmd =>
    have hraw : hdr.cmdType ≠ CmdType.rawData.toByte :=
      fun hraw => absurd (cmd.symm.trans hraw) (by decide)
    have hhub : (st.emit (.logLine level (stripLineEnds msg))).hub = st.hub := rfl
    refine iff_of_true (isolated_of_same hhub (hwritten hraw) c) ?_
    rintro ⟨p, s, -, -, ⟨hdata, -⟩ | ⟨hdis, -⟩⟩
    · exact hraw hdata
    · exact (hev cmd (by decide)).2 hdis
  | ignored noConnect noDisconnect noData =>
    refine iff_of_true (isolated_of_same rfl (fun f => rfl) c) ?_
    rintro ⟨p, s, hp, -, ⟨hraw, hd, -⟩ | ⟨hdis, -⟩⟩
    · have hnone := noData hraw
      rw [← hd, hs.wf.owned p s hp, Option.bind_some, hp] at hnone
      cases hnone
    · exact noDisconnect hdis

variable {udpFd tcpServerFd : Fd} {inherited : Fd → Option FdMode} {is : List Input}

/-- In every state of every run, the handling of a packet that ends leaves the sessions of other
connections alone exactly if it is neither data of which the kernel side of such a session takes the
first byte nor a `DISCONNECT` for its device. It ends unless the daemon stays in the `write` of data. -/
theorem packet_isolated_iff (hr : run step (boot udpFd tcpServerFd inherited) is = .ok st)
    (hread : Reads st i hdr payload) :
    (Blocks st.hub hdr payload i.sys → step st i = .error .waiting) ∧
    (¬Blocks st.hub hdr payload i.sys → ∃ st', step st i = .ok st' ∧
      (Isolated st st' i.fd hdr payload ↔ ¬Trespasses st i.fd hdr payload i.sys)) := by
  rcases step_of_packet (run_sound hr) hread with ⟨hb, hw⟩ | ⟨hb, st', hstep⟩
  · exact ⟨fun _ => hw, fun hn => absurd hb hn⟩
  · refine ⟨fun h => absurd h hb, fun _ => ⟨st', hstep, ?_⟩⟩
    have hs := (received_quiet st i hdr payload).sound (run_sound hr)
    have hiso := handlePacket_isolated_iff hs ((step_of_reads hread).symm.trans hstep)
    simp only [Isolated, writtenTo_received] at hiso
    exact hiso

def disconnectHeader (d : UInt8) : Header := ⟨CmdType.deviceEvent.toByte, d, 0, 0, 8⟩

def disconnectPayload (d : UInt8) : List UInt8 :=
  DeviceEventPayload.encode ⟨d, DeviceEvent.disconnect.toByte, 0, 0, 0, 0, deviceBasePort⟩

theorem own_disconnect_isolated :
    ∃ st, run step (boot 3 4 fun _ => none) twoClients = .ok st ∧
      ∃ st', step st (disconnectInput 8 1) = .ok st' ∧
        Isolated st st' 8 (disconnectHeader 1) (disconnectPayload 1) := by
  obtain ⟨st, hr, hread, h₁, s₁, hs₁, hsock⟩ : ∃ st,
      run step (boot 3 4 fun _ => none) twoClients = .ok st ∧
      Reads st (disconnectInput 8 1) (disconnectHeader 1) (disconnectPayload 1) ∧
      st.hub.sessions 1 = some 1 ∧ ∃ s, st.hub.heap 1 = some s ∧ s.tcpSock = some ⟨8⟩ :=
    ⟨_, rfl, ⟨⟨rfl, .inr ⟨1, rfl, rfl⟩⟩, rfl⟩, rfl, _, rfl, rfl⟩
  obtain ⟨st', hstep, hiso⟩ := (packet_isolated_iff hr hread).2 fun hb => absurd hb.1 (by decide)
  refine ⟨st, hr, st', hstep, hiso.mpr ?_⟩
  rintro ⟨p, s, hp, hother, ⟨hraw, -⟩ | ⟨-, hd⟩⟩
  · exact absurd hraw (by decide)
  · have howned := (run_sound hr).wf.owned p s hp
    rw [hd] at howned
    obtain rfl : 1 = p := Option.some.inj (h₁.symm.trans howned)
    exact hother (Option.some.inj (hs₁.symm.trans hp) ▸ hsock)

/-- The client on descriptor 8 ends the session of the device on descriptor 5. -/
theorem disconnect_crosses_connections :
    ∃ st st', run step (boot 3 4 fun _ => none) twoClients = .ok st ∧ BoundTo st.hub 5 0 ∧
      Reads st (disconnectInput 8 0) (disconnectHeader 0) (disconnectPayload 0) ∧
      step st (disconnectInput 8 0) = .ok st' ∧ st'.hub.sessions 0 = none ∧
      ¬Isolated st st' 8 (disconnectHeader 0) (disconnectPayload 0) := by
  obtain ⟨st, st', hr, hb, hread, hstep, hgone, s, hp, hother, hfreed⟩ : ∃ st st',
      run step (boot 3 4 fun _ => none) twoClients = .ok st ∧ BoundTo st.hub 5 0 ∧
      Reads st (disconnectInput 8 0) (disconnectHeader 0) (disconnectPayload 0) ∧
      step st (disconnectInput 8 0) = .ok st' ∧ st'.hub.sessions 0 = none ∧
      ∃ s, st.hub.heap 0 = some s ∧ s.tcpSock = some ⟨5⟩ ∧ st'.hub.heap 0 = none :=
    ⟨_, _, rfl, ⟨0, rfl, rfl⟩, ⟨⟨rfl, .inr ⟨1, rfl, rfl⟩⟩, rfl⟩, rfl, rfl, _, rfl, rfl, rfl⟩
  refine ⟨st, st', hr, hb, hread, hstep, hgone, fun hiso => ?_⟩
  have hcon := ((hiso 0 s hp (by rw [hother]; decide)).1 hfreed).1
  exact absurd hcon.2.2 (by decide)

end Daemon
end WirelessHub
