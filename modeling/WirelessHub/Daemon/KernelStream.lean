import Mathlib.Data.List.TakeDrop
import WirelessHub.Daemon.Isolation
import WirelessHub.Framework.Pieces

/-!
# The stream into the kernel

The payloads that a session writes to its socketpair over many turns of the loop. A payload
whose `write` fails is cut there, and the caller does not look at the result: the session
goes on with the next payload, and the kernel reads it where the rest of the other should be.
-/

namespace WirelessHub

open Function Framework

/-- A `RAW_DATA` payload and the answers of `write` that it meets. -/
structure RawDelivery where
  payload : List UInt8
  writes : List IoResult

def RawDelivery.piece (d : RawDelivery) : Piece UInt8 where
  whole := d.payload
  taken := (onDeviceData d.writes d.payload).taken
  leads := transferAll_taken_leads d.writes d.payload

/-- The `write` calls end with an error before the payload does. -/
def RawDelivery.Fails (d : RawDelivery) : Prop :=
  ∃ n, granted writeVerdict d.writes = some n ∧ n < d.payload.length

/-- The `write` calls end with an error before the first byte, or there is none to write. -/
def RawDelivery.Silent (d : RawDelivery) : Prop :=
  d.payload = [] ∨ granted writeVerdict d.writes = some 0

private theorem RawDelivery.cut_iff (d : RawDelivery) :
    d.piece.taken ≠ d.piece.whole ↔ d.Fails := by
  change (transferAll writeVerdict d.writes d.payload).taken ≠ d.payload ↔ _
  rw [transferAll_taken, Fails]
  cases granted writeVerdict d.writes with
  | none => simp
  | some n => simp [List.take_eq_self_iff]

private theorem RawDelivery.taken_eq_nil_iff (d : RawDelivery) : d.piece.taken = [] ↔ d.Silent :=
  transferAll_taken_eq_nil_iff d.writes d.payload

/-- A failing `write` is followed only by ones that fail at once. -/
def FailsForGood (ds : List RawDelivery) : Prop := ds.Pairwise fun d e => d.Fails → e.Silent

private theorem uncut_iff_failsForGood (ds : List RawDelivery) :
    Uncut (ds.map RawDelivery.piece) ↔ FailsForGood ds := by
  rw [Uncut, List.pairwise_map, FailsForGood]
  apply List.Pairwise.iff
  intro d e
  rw [d.cut_iff, e.taken_eq_nil_iff]

/-- The hub has developed: no pointer is handed out twice, and a session keeps its
descriptor. -/
structure HubServer.Descends (hub hub' : HubServer) : Prop where
  nextPtr : hub.nextPtr ≤ hub'.nextPtr
  heap : ∀ p < hub.nextPtr, ∀ s', hub'.heap p = some s' →
    ∃ s, hub.heap p = some s ∧ s.vhciFd = s'.vhciFd

section Descends

variable {hub hub' hub'' : HubServer} {st st' : Daemon}

private theorem HubServer.Descends.of_heap_eq (hn : hub'.nextPtr = hub.nextPtr) (hh : hub'.heap = hub.heap) :
    hub.Descends hub' := by
  constructor
  · exact Nat.le_of_eq hn.symm
  · intro p _ s' hs'
    rw [hh] at hs'
    exact ⟨s', hs', rfl⟩

private theorem HubServer.Descends.trans (h : hub.Descends hub') (h' : hub'.Descends hub'') :
    hub.Descends hub'' := by
  constructor
  · exact Nat.le_trans h.nextPtr h'.nextPtr
  · intro p hp s'' hs''
    obtain ⟨s', hs', hv'⟩ := h'.heap p (Nat.lt_of_lt_of_le hp h.nextPtr) s'' hs''
    obtain ⟨s, hs, hv⟩ := h.heap p hp s' hs'
    exact ⟨s, hs, hv.trans hv'⟩

private theorem HubServer.descends_dropSession (hub : HubServer) (d : UInt8) (p : SessionPtr)
    (s : DeviceSession) : hub.Descends (hub.dropSession d p s) := by
  constructor
  · exact Nat.le_refl _
  · intro q _ s' hs'
    exact ⟨s', (heap_of_dropSession hs').2, rfl⟩

private theorem HubServer.descends_addSession (hub : HubServer) (s : DeviceSession) :
    hub.Descends (hub.addSession s) := by
  constructor
  · exact Nat.le_succ _
  · intro p hp s' hs'
    cases heap_of_addSession hs' with
    | inl hnew => exact absurd hnew.1 (Nat.ne_of_lt hp)
    | inr hold => exact ⟨s', hold.2, rfl⟩

private theorem Move.descends {k : MoveKind} (hm : Move k st st') : st.hub.Descends st'.hub := by
  cases hm with
  | quiet hub | leak _ _ hub | accept _ _ hub | dropPending _ _ _ hub =>
    rw [hub]
    exact .of_heap_eq rfl rfl
  | forward p s h₀ h₁ session handler same hub =>
    rw [hub]
    constructor
    · exact Nat.le_refl _
    · intro q _ s' hs'
      cases HubServer.heap_of_update hs' with
      | inl heq =>
        rw [heq.1, heq.2]
        exact ⟨s, session, rfl⟩
      | inr hne => exact ⟨s', hne.2, rfl⟩
  | remove freed p s session hub =>
    rw [hub]
    exact HubServer.descends_dropSession _ _ _ _
  | connect ok k s sock pending binds =>
    rw [binds.hub]
    have hout : st.hub.Descends (st.extracted k).hub := .of_heap_eq rfl rfl
    exact hout.trans (HubServer.descends_addSession _ _)
  | reset ok p s t sock tcpSock device unplugs binds =>
    rw [binds.hub, unplugs.hub]
    exact (HubServer.descends_dropSession _ _ _ _).trans (HubServer.descends_addSession _ _)
  | resetFail p s sock tcpSock unplugs hub =>
    rw [hub, unplugs.hub]
    exact HubServer.descends_dropSession _ _ _ _

end Descends

namespace Daemon

variable {st st' : Daemon} {i : Input} {is js : List Input} {p : SessionPtr} {s : DeviceSession}

private theorem step_descends (hs : Sound st) (hstep : step st i = .ok st') :
    st.hub.Descends st'.hub := by
  apply (step_moves hs hstep).invariant (P := fun st' => st.hub.Descends st'.hub)
  · intro k a b _ _ hm hdesc
    exact hdesc.trans hm.descends
  · exact hs
  · exact .of_heap_eq rfl rfl

private theorem run_descends (hs : Sound st) (hr : run step st is = .ok st') :
    st.hub.Descends st'.hub := by
  have hboth : Sound st' ∧ st.hub.Descends st'.hub := by
    apply run_invariant_of_step _ _ hr
    · intro a i b h hstep
      exact ⟨step_sound h.1 hstep, h.2.trans (step_descends h.1 hstep)⟩
    · exact ⟨hs, .of_heap_eq rfl rfl⟩
  exact hboth.2

instance (st : Daemon) (i : Input) : Decidable (ReadsTcp st i) :=
  match h : st.hub.route i.fd with
  | .other => decidable_of_iff (i.evts.epollin = true) (by simp [ReadsTcp, h])
  | .tcp p => decidable_of_iff (i.evts.epollin = true ∧ i.evts.hangup = false) (by simp [ReadsTcp, h])
  | .udp => isFalse (by simp [ReadsTcp, h])
  | .server => isFalse (by simp [ReadsTcp, h])
  | .vhci p => isFalse (by simp [ReadsTcp, h])

/-- The `RAW_DATA` packet that the turn handles for the session, if it handles one. -/
def deliveryFor (p : SessionPtr) (st : Daemon) (i : Input) : Option RawDelivery :=
  if ReadsTcp st i then
    match ((st.arrived i).readTcpPacket i.fd).1 with
    | .packet hdr payload =>
        if hdr.cmdType = CmdType.rawData.toByte ∧ st.hub.sessions hdr.deviceId = some p then
          some ⟨payload, i.sys.writes⟩
        else none
    | _ => none
  else none

/-- The `RAW_DATA` packets that a run handles for the session. -/
def deliveriesFor (p : SessionPtr) : Daemon → List Input → List RawDelivery
  | _, [] => []
  | st, i :: is => match step st i with
    | .ok st' => (deliveryFor p st i).toList ++ deliveriesFor p st' is
    | .error _ => []

private theorem writtenTo_handlePacket {c : Fd} {hdr : Header} {payload : List UInt8}
    {sys : Syscalls}
    (hs : Sound st) (hp : st.hub.heap p = some s) (h : st.handlePacket c hdr payload sys = .ok st') :
    writtenTo s.vhciFd st'.os.trace = writtenTo s.vhciFd st.os.trace ++
      if hdr.cmdType = CmdType.rawData.toByte ∧ st.hub.sessions hdr.deviceId = some p then
        (onDeviceData sys.writes payload).taken
      else [] := by
  by_cases hraw : hdr.cmdType = CmdType.rawData.toByte
  swap
  · rw [if_neg fun hc => hraw hc.1, List.append_nil]
    exact (handlePacket_emits h).writtenTo (fun _ _ he => hraw he) _
  have hevent : ∀ {ev : DeviceEvent}, ¬(hdr.cmdType = CmdType.deviceEvent.toByte ∧
      DeviceEventPayload.size ≤ payload.length ∧
      (DeviceEventPayload.decode payload).event = ev.toByte) := by
    rintro ev ⟨hev, -⟩
    exact absurd (hev.symm.trans hraw) (by decide)
  cases handlePacket_handles h with
  | connect asks => exact absurd asks hevent
  | disconnect asks => exact absurd asks hevent
  | data s₀ h₀ cmd session handler =>
    have howner : st.hub.sessions hdr.deviceId = some p ↔ h₀.vhciFd = s.vhciFd := by
      rw [vhciFd_eq_iff hs session handler hp]
      constructor
      · intro hd
        obtain ⟨s₁, hs₁, hdev⟩ := hs.wf.live _ _ hd
        rw [hp, Option.some.injEq] at hs₁
        rw [hs₁, hdev]
      · intro hd
        rw [← hd]
        exact hs.wf.owned p s hp
    simp only [cmd, true_and, howner, emit, writtenTo_emit, Effect.writtenTo, List.append_nil]
  | log level msg cmd => exact absurd (cmd.symm.trans hraw) (by decide)
  | ignored noConnect noDisconnect noData =>
    rw [if_neg, List.append_nil]
    intro hdata
    have hnone := noData hraw
    rw [hdata.2, Option.bind_some, hp] at hnone
    cases hnone

/-- What a turn writes to the kernel side of a session is what `write` took of the packet that
the turn handled for it. -/
theorem writtenTo_step (hs : Sound st) (hp : st.hub.heap p = some s) (hstep : step st i = .ok st') :
    writtenTo s.vhciFd st'.os.trace = writtenTo s.vhciFd st.os.trace ++
      stream ((deliveryFor p st i).toList.map RawDelivery.piece) := by
  by_cases hread : ReadsTcp st i
  · rw [deliveryFor, if_pos hread]
    cases hpkt : ((st.arrived i).readTcpPacket i.fd).1 with
    | waiting =>
      rw [step_of_waiting hread hpkt] at hstep
      cases hstep
    | failed =>
      refine ((step_emits hstep).writtenTo ?_ _).trans (List.append_nil _).symm
      rintro g bytes ⟨hdr, payload, hreads, -⟩
      rw [hreads.2] at hpkt
      cases hpkt
    | packet hdr payload =>
      rw [step_of_reads ⟨hread, hpkt⟩] at hstep
      have hw := writtenTo_handlePacket ((received_quiet st i hdr payload).sound hs) hp hstep
      have hhub : (st.received i hdr payload).hub = st.hub := rfl
      rw [hw, writtenTo_received, hhub]
      by_cases hraw : hdr.cmdType = CmdType.rawData.toByte ∧ st.hub.sessions hdr.deviceId = some p
      · simp only [if_pos hraw]
        exact congrArg _ (List.append_nil _).symm
      · simp only [if_neg hraw]
        rfl
  · rw [deliveryFor, if_neg hread, (step_emits hstep).writtenTo fun _ _ ⟨_, _, h, _⟩ => hread h.1]
    exact (List.append_nil _).symm

private theorem writtenTo_run (hs : Sound st) (hp : st.hub.heap p = some s)
    (hr : run step st js = .ok st') (hlive : st'.hub.heap p ≠ none) :
    writtenTo s.vhciFd st'.os.trace = writtenTo s.vhciFd st.os.trace ++
      stream ((deliveriesFor p st js).map RawDelivery.piece) := by
  induction js generalizing st s with
  | nil =>
    rw [run_nil, Except.ok.injEq] at hr
    rw [hr]
    exact (List.append_nil _).symm
  | cons i js ih =>
    obtain ⟨st₁, hstep, hr'⟩ := run_cons_eq_ok.mp hr
    have hs₁ := step_sound hs hstep
    have hptr : p < st.hub.nextPtr := by
      by_contra hge
      rw [hs.wf.fresh p (Nat.le_of_not_lt hge)] at hp
      cases hp
    -- the session is still there at the end, so it was there after this turn
    obtain ⟨s', hs'⟩ := Option.ne_none_iff_exists'.mp hlive
    have hdesc := step_descends hs hstep
    obtain ⟨s₁, hp₁, -⟩ := (run_descends hs₁ hr').heap p (Nat.lt_of_lt_of_le hptr hdesc.nextPtr) s' hs'
    obtain ⟨s₀, hp₀, hfd⟩ := hdesc.heap p hptr s₁ hp₁
    rw [hp, Option.some.injEq] at hp₀
    have hrest := ih hs₁ hp₁ hr'
    rw [← hfd, ← hp₀, writtenTo_step hs hp hstep] at hrest
    rw [hrest]
    simp only [deliveriesFor, hstep, List.map_append, stream, List.flatMap_append, List.append_assoc]

variable {udpFd tcpServerFd : Fd} {inherited : Fd → Option FdMode} {st₀ : Daemon}

/-- Over every stretch of every run in which a session lives, what is written to its kernel
side is what `write` took of its packets. This is a leading part of their payloads, with
nothing behind a payload that was cut, exactly if a failing `write` goes on to fail. -/
theorem kernel_stream_uncut_iff (hboot : run step (boot udpFd tcpServerFd inherited) is = .ok st₀)
    (hp : st₀.hub.heap p = some s) (hr : run step st₀ js = .ok st) (hlive : st.hub.heap p ≠ none) :
    writtenTo s.vhciFd st.os.trace = writtenTo s.vhciFd st₀.os.trace ++
      stream ((deliveriesFor p st₀ js).map RawDelivery.piece) ∧
    ((stream ((deliveriesFor p st₀ js).map RawDelivery.piece) <+:
        (deliveriesFor p st₀ js).flatMap RawDelivery.payload ∧
      Uncut ((deliveriesFor p st₀ js).map RawDelivery.piece)) ↔
        FailsForGood (deliveriesFor p st₀ js)) := by
  constructor
  · exact writtenTo_run (run_sound hboot) hp hr hlive
  · rw [uncut_iff_failsForGood]
    constructor
    · intro h
      exact h.2
    · intro h
      have huncut := (uncut_iff_failsForGood _).mpr h
      refine ⟨?_, h⟩
      have hleads := huncut.stream_isPrefix
      rw [List.flatMap_map] at hleads
      exact hleads

def rawInput (fd : Fd) (deviceId : UInt8) (payload : List UInt8) (writes : List IoResult) : Input where
  fd := fd
  evts := { epollin := true }
  arrivals := leftover (Header.encode ⟨CmdType.rawData.toByte, deviceId, 0, 0,
    UInt16.ofNat payload.length⟩ ++ payload) []
  sys := { writes := writes }

theorem kernel_stream_uncut_after_errors :
    ∃ st₀ st s, run step (boot 3 4 fun _ => none) connectedRun = .ok st₀ ∧
      st₀.hub.heap 0 = some s ∧
      run step st₀ [rawInput 5 0 [1, 2] [.count 1, .error], rawInput 5 0 [3] [.error]] = .ok st ∧
      writtenTo s.vhciFd st.os.trace = [1] ∧ writtenTo s.vhciFd st.os.trace <+: [1, 2, 3] := by
  obtain ⟨st₀, st, s, hboot, hp, hr, hlive, hnone, hds⟩ : ∃ st₀ st s,
      run step (boot 3 4 fun _ => none) connectedRun = .ok st₀ ∧ st₀.hub.heap 0 = some s ∧
      run step st₀ [rawInput 5 0 [1, 2] [.count 1, .error], rawInput 5 0 [3] [.error]] = .ok st ∧
      st.hub.heap 0 ≠ none ∧ writtenTo s.vhciFd st₀.os.trace = [] ∧
      deliveriesFor 0 st₀ [rawInput 5 0 [1, 2] [.count 1, .error], rawInput 5 0 [3] [.error]] =
        [⟨[1, 2], [.count 1, .error]⟩, ⟨[3], [.error]⟩] :=
    ⟨_, _, _, rfl, rfl, rfl, Option.some_ne_none _, rfl, rfl⟩
  obtain ⟨hwritten, hiff⟩ := kernel_stream_uncut_iff hboot hp hr hlive
  rw [hds] at hwritten hiff
  rw [hnone] at hwritten
  refine ⟨st₀, st, s, hboot, hp, hr, hwritten, ?_⟩
  rw [hwritten]
  apply (hiff.mpr _).1
  simp [FailsForGood, RawDelivery.Silent, granted, writeVerdict]

/-- After one byte of the first payload the kernel reads the second payload. -/
theorem payload_written_behind_cut :
    ∃ st₀ st s, run step (boot 3 4 fun _ => none) connectedRun = .ok st₀ ∧
      st₀.hub.heap 0 = some s ∧
      run step st₀ [rawInput 5 0 [1, 2] [.count 1, .error], rawInput 5 0 [3] []] = .ok st ∧
      st.hub.heap 0 ≠ none ∧
      deliveriesFor 0 st₀ [rawInput 5 0 [1, 2] [.count 1, .error], rawInput 5 0 [3] []] =
        [⟨[1, 2], [.count 1, .error]⟩, ⟨[3], []⟩] ∧
      writtenTo s.vhciFd st₀.os.trace = [] ∧ writtenTo s.vhciFd st.os.trace = [1, 3] ∧
      ¬[1, 3] <+: ([1, 2] ++ [3] : List UInt8) :=
  ⟨_, _, _, rfl, rfl, rfl, Option.some_ne_none _, rfl, rfl, rfl, by decide⟩

end Daemon
end WirelessHub
