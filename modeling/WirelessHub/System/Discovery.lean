import WirelessHub.Daemon.DiscoverReply
import WirelessHub.Firmware.Discovery

/-!
# Discovery over a network

Any number of devices look for any number of daemons over a network that keeps every datagram
ever sent: a datagram is received late, out of order, more than once, or never. A daemon whose
turn does not end takes no further part. Other hosts send what they want from addresses of
their own. An address that a device holds, in its discovery task or in a session, is that of a
daemon which has answered a `DISCOVER` of this device.
-/

namespace WirelessHub.System

open Function Framework Firmware

structure Datagram where
  src : SockAddr
  dst : SockAddr
  bytes : List UInt8
  ip_ne_zero : src.ip ≠ 0

instance : DecidableEq Datagram := fun g h =>
  decidable_of_iff (g.src = h.src ∧ g.dst = h.dst ∧ g.bytes = h.bytes) <| by
    cases g
    cases h
    simp

/-- The hosts of the network. -/
structure Lan (Esp Pc : Type) where
  espIp : Esp → UInt32
  pcIp : Pc → UInt32
  espIp_ne_zero : ∀ e, espIp e ≠ 0
  pcIp_ne_zero : ∀ d, pcIp d ≠ 0
  espIp_injective : Injective espIp
  apart : ∀ e d, espIp e ≠ pcIp d
  usbipMode : Esp → Bool
  daemon : Pc → Daemon

/-- The devices, the daemons that still run, and all datagrams ever sent. -/
structure World (Esp Pc : Type) where
  esps : Esp → Searcher
  pcs : Pc → Option Daemon
  sent : List Datagram

inductive LanInput (Esp Pc : Type)
  | task (e : Esp) (i : HubInput)
  | call (e : Esp) (a : CallAnswers)
  | receive (e : Esp) (g : Datagram)
  | datagram (d : Pc) (g : Datagram)
  | event (d : Pc) (i : Daemon.Input)
  | other (g : Datagram)

def broadcastIp : UInt32 := 0xFFFFFFFF

def maxPacket : Nat := 65542

variable {Esp Pc : Type}

namespace Lan

def boot (lan : Lan Esp Pc) : World Esp Pc where
  esps e := .boot (lan.usbipMode e)
  pcs d := some (lan.daemon d)
  sent := []

/-- The `DISCOVER` that a device sends from a port. -/
def discover (lan : Lan Esp Pc) (e : Esp) (port : UInt16) : Datagram where
  src := ⟨lan.espIp e, port⟩
  dst := ⟨broadcastIp, daemonPort⟩
  bytes := discoverPacket
  ip_ne_zero := lan.espIp_ne_zero e

/-- A datagram of a daemon to the sender of the one it has read. -/
def replyTo (lan : Lan Esp Pc) (d : Pc) (dst : SockAddr) (bytes : List UInt8) : Datagram where
  src := ⟨lan.pcIp d, daemonPort⟩
  dst := dst
  bytes := bytes
  ip_ne_zero := lan.pcIp_ne_zero d

/-- The turn of the event loop that reads the datagram. -/
def readTurn (st : Daemon) (g : Datagram) : Daemon.Input where
  fd := st.hub.udpFd
  evts := { epollin := true }
  sys := { recvFrom := some (g.bytes.take maxPacket) }

def newlySent (st st' : Daemon) : List (List UInt8) :=
  (udpSent st'.os.trace).drop (udpSent st.os.trace).length

def setEsp [DecidableEq Esp] (w : World Esp Pc) (e : Esp) (s : Searcher) : World Esp Pc :=
  { w with esps := update w.esps e s }

/-- The daemon takes a turn, and its answers go to `dst`. -/
def turn [DecidableEq Pc] (lan : Lan Esp Pc) (w : World Esp Pc) (d : Pc) (st : Daemon) (dst : SockAddr)
    (i : Daemon.Input) : World Esp Pc :=
  match st.step i with
  | .error _ => { w with pcs := update w.pcs d none }
  | .ok st' =>
      { w with
        pcs := update w.pcs d (some st')
        sent := w.sent ++ (newlySent st st').map (lan.replyTo d dst) }

def step [DecidableEq Esp] [DecidableEq Pc] (lan : Lan Esp Pc) (w : World Esp Pc) :
    LanInput Esp Pc → Except Unit (World Esp Pc)
  | .task e i => ((w.esps e).taskStep i).map (setEsp w e)
  | .call e a =>
      if a.received = none then
        ((w.esps e).callStep a).map fun s =>
          { setEsp w e s with
            sent := w.sent ++ (((w.esps e).sending a).map (lan.discover e)).toList }
      else .error ()
  | .receive e g =>
      if g ∈ w.sent ∧ (w.esps e).awaiting = some g.dst.port ∧ g.dst.ip = lan.espIp e then
        ((w.esps e).callStep
          { received := some ⟨g.src, g.bytes.take replySize, g.ip_ne_zero⟩ }).map (setEsp w e)
      else .error ()
  | .datagram d g => match w.pcs d with
    | none => .error ()
    | some st =>
        if g ∈ w.sent ∧ g.dst.port = daemonPort ∧ (g.dst.ip = broadcastIp ∨ g.dst.ip = lan.pcIp d)
        then .ok (lan.turn w d st g.src (readTurn st g))
        else .error ()
  | .event d i => match w.pcs d with
    | none => .error ()
    | some st =>
        -- no datagram is read, so the address of its sender is left at zero
        if i.fd = st.hub.udpFd ∧ i.sys.recvFrom ≠ none then .error ()
        else .ok (lan.turn w d st ⟨0, 0⟩ i)
  | .other g => .ok { w with sent := w.sent ++ [g] }

/-- A datagram that passes for a discovery reply. -/
def PassesForReply (g : Datagram) : Prop :=
  replySize ≤ g.bytes.length ∧ (Header.decode g.bytes).cmdType = CmdType.discoverReply.toByte

/-- The other hosts send from addresses of their own and no discovery replies. -/
def Honest (lan : Lan Esp Pc) (_ : World Esp Pc) : LanInput Esp Pc → Prop
  | .other g => (∀ e, g.src.ip ≠ lan.espIp e) ∧ ¬PassesForReply g
  | _ => True

/-- The daemon at the address has answered a `DISCOVER` of the device. -/
def Answered (lan : Lan Esp Pc) (sent : List Datagram) (e : Esp) (addr : SockAddr) : Prop :=
  ∃ d port bytes, addr = ⟨lan.pcIp d, daemonPort⟩ ∧ lan.discover e port ∈ sent ∧
    lan.replyTo d ⟨lan.espIp e, port⟩ bytes ∈ sent

section Step

variable {lan : Lan Esp Pc} {w w' : World Esp Pc} {e : Esp} {d : Pc}

theorem newlySent_eq {st st' : Daemon} {i : Daemon.Input} (h : st.step i = .ok st') :
    newlySent st st' = (st.replyOf i).toList := by
  rw [newlySent, Daemon.udpSent_step h, List.drop_left]

/-- What a step of the network adds to the datagrams. -/
inductive Adds (lan : Lan Esp Pc) (w : World Esp Pc) (i : LanInput Esp Pc) : List Datagram → Prop
  | nothing : Adds lan w i []
  | discover (e : Esp) (port : UInt16) : Adds lan w i [lan.discover e port]
  | reply (d : Pc) (g : Datagram) (bytes : List UInt8) (read : g ∈ w.sent)
      (reply : discoverReply (g.bytes.take maxPacket) = some bytes) :
      Adds lan w i [lan.replyTo d g.src bytes]
  | other (g : Datagram) (input : i = .other g) : Adds lan w i [g]

/-- What a step does to a device. -/
inductive Changes (lan : Lan Esp Pc) (w w' : World Esp Pc) (e : Esp) : Prop
  | same (esp : w'.esps e = w.esps e)
  | task (i : HubInput) (step : (w.esps e).taskStep i = .ok (w'.esps e))
  | call (a : CallAnswers) (none_received : a.received = none)
      (step : (w.esps e).callStep a = .ok (w'.esps e))
      (sent : ∀ port, (w.esps e).sending a = some port → lan.discover e port ∈ w'.sent)
  | receive (g : Datagram) (sent : g ∈ w.sent) (dst : g.dst.ip = lan.espIp e)
      (step : (w.esps e).callStep
        { received := some ⟨g.src, g.bytes.take replySize, g.ip_ne_zero⟩ } = .ok (w'.esps e))

private theorem turn_esps [DecidableEq Pc] (lan : Lan Esp Pc) (w : World Esp Pc) (d : Pc) (st : Daemon) (dst : SockAddr)
    (i : Daemon.Input) : (lan.turn w d st dst i).esps = w.esps := by
  unfold turn
  split <;> rfl

private theorem turn_sent [DecidableEq Pc] (lan : Lan Esp Pc) (w : World Esp Pc) (d : Pc) (st : Daemon) (dst : SockAddr)
    (i : Daemon.Input) : (lan.turn w d st dst i).sent = w.sent ∨
      ∃ bytes, st.replyOf i = some bytes ∧
        (lan.turn w d st dst i).sent = w.sent ++ [lan.replyTo d dst bytes] := by
  unfold turn
  split
  · exact .inl rfl
  · rename_i st' hstep
    rw [newlySent_eq hstep]
    cases hreply : st.replyOf i with
    | none => exact .inl (List.append_nil _)
    | some bytes => exact .inr ⟨bytes, rfl, rfl⟩

variable [DecidableEq Esp] [DecidableEq Pc]

private theorem step_sent {i : LanInput Esp Pc} (h : lan.step w i = .ok w') :
    ∃ gs, Adds lan w i gs ∧ w'.sent = w.sent ++ gs := by
  cases i with
  | task e i =>
    obtain ⟨s, -, rfl⟩ := map_eq_ok h
    exact ⟨[], .nothing, (List.append_nil _).symm⟩
  | call e a =>
    simp only [step] at h
    split at h
    · obtain ⟨s, -, rfl⟩ := map_eq_ok h
      cases hs : (w.esps e).sending a with
      | none => exact ⟨[], .nothing, rfl⟩
      | some port => exact ⟨_, .discover e port, rfl⟩
    · cases h
  | receive e g =>
    simp only [step] at h
    split at h
    · obtain ⟨s, -, rfl⟩ := map_eq_ok h
      exact ⟨[], .nothing, (List.append_nil _).symm⟩
    · cases h
  | datagram d g =>
    simp only [step] at h
    split at h
    · cases h
    · split at h
      · rename_i st _ hg
        cases h
        rcases lan.turn_sent w d st g.src (readTurn st g) with hs | ⟨bytes, hreply, hs⟩
        · exact ⟨[], .nothing, by rw [hs, List.append_nil]⟩
        · refine ⟨_, .reply d g bytes hg.1 ?_, hs⟩
          simpa [Daemon.replyOf, readTurn] using hreply
      · cases h
  | event d i =>
    simp only [step] at h
    split at h
    · cases h
    · split at h
      · cases h
      · rename_i st _ hn
        cases h
        rcases lan.turn_sent w d st ⟨0, 0⟩ i with hs | ⟨bytes, hreply, -⟩
        · exact ⟨[], .nothing, by rw [hs, List.append_nil]⟩
        · rw [Daemon.replyOf] at hreply
          split at hreply
          · rename_i hfd
            obtain ⟨datagram, hread, -⟩ := Option.bind_eq_some_iff.mp hreply
            exact absurd ⟨hfd, by simp [hread]⟩ hn
          · cases hreply
  | other g =>
    cases h
    exact ⟨[g], .other g rfl, rfl⟩

theorem sent_subset {i : LanInput Esp Pc} (h : lan.step w i = .ok w') : w.sent ⊆ w'.sent := by
  obtain ⟨gs, -, hsent⟩ := step_sent h
  rw [hsent]
  exact List.subset_append_left _ _

theorem step_changes {i : LanInput Esp Pc} (h : lan.step w i = .ok w') (e : Esp) :
    Changes lan w w' e := by
  cases i with
  | task e' i =>
    obtain ⟨s, hs, rfl⟩ := map_eq_ok h
    by_cases he : e = e'
    · subst he
      exact .task i (by simpa [setEsp] using hs)
    · exact .same (by simp [setEsp, he])
  | call e' a =>
    simp only [step] at h
    split at h
    · obtain ⟨s, hs, rfl⟩ := map_eq_ok h
      by_cases he : e = e'
      · subst he
        refine .call a ‹_› (by simpa [setEsp] using hs) fun port hp => ?_
        simp [hp]
      · exact .same (by simp [setEsp, he])
    · cases h
  | receive e' g =>
    simp only [step] at h
    split at h
    · rename_i hg
      obtain ⟨s, hs, rfl⟩ := map_eq_ok h
      by_cases he : e = e'
      · subst he
        exact .receive g hg.1 hg.2.2 (by simpa [setEsp] using hs)
      · exact .same (by simp [setEsp, he])
    · cases h
  | datagram d g =>
    simp only [step] at h
    split at h
    · cases h
    · split at h
      · cases h
        exact .same (by rw [turn_esps])
      · cases h
  | event d i =>
    simp only [step] at h
    split at h
    · cases h
    · split at h
      · cases h
      · cases h
        exact .same (by rw [turn_esps])
  | other g =>
    cases h
    exact .same rfl

end Step

section Safety

variable {lan : Lan Esp Pc} {w w' : World Esp Pc} {e : Esp}

/-- What is known of the datagrams, and of the addresses that follow from them. -/
structure Inv (lan : Lan Esp Pc) (w : World Esp Pc) : Prop where
  fromEsp : ∀ g ∈ w.sent, ∀ e, g.src.ip = lan.espIp e → g = lan.discover e g.src.port
  replies : ∀ g ∈ w.sent, PassesForReply g → ∃ d, ∃ q ∈ w.sent, g = lan.replyTo d q.src g.bytes ∧
    discoverReply (q.bytes.take maxPacket) = some g.bytes
  told : ∀ e, (w.esps e).Told (lan.Answered w.sent e)

private theorem inv_boot (lan : Lan Esp Pc) : Inv lan lan.boot where
  fromEsp := by simp [boot]
  replies := by simp [boot]
  told e := Searcher.told_boot (lan.usbipMode e)

private theorem Answered.mono {sent sent' : List Datagram} {addr : SockAddr}
    (h : lan.Answered sent e addr) (hsub : sent ⊆ sent') : lan.Answered sent' e addr := by
  obtain ⟨d, port, bytes, haddr, hq, hg⟩ := h
  exact ⟨d, port, bytes, haddr, hsub hq, hsub hg⟩

private theorem discoverReply_eq {q bytes : List UInt8} (h : discoverReply q = some bytes) :
    bytes = Header.encode ⟨CmdType.discoverReply.toByte, 0, 0, 0, 2⟩ ++ discoverReplyPayload := by
  unfold discoverReply at h
  split_ifs at h
  exact (Option.some.inj h).symm

/-- A datagram for the device that passes the checks comes from a daemon that has answered it. -/
theorem Inv.backs (h : Inv lan w) {g : Datagram} (hg : g ∈ w.sent) (hdst : g.dst.ip = lan.espIp e) :
    Searcher.Backs (lan.Answered w.sent e)
      (some ⟨g.src, g.bytes.take replySize, g.ip_ne_zero⟩) := by
  intro r d hr hd
  obtain rfl := Option.some.inj hr
  simp only [Received.discovered] at hd
  split_ifs at hd with hlen hcmd
  have hpass : PassesForReply g := by
    rw [List.length_take, Nat.not_lt] at hlen
    refine ⟨Nat.le_trans hlen (Nat.min_le_right _ _), ?_⟩
    have htake : (Header.decode (g.bytes.take replySize)).cmdType = (Header.decode g.bytes).cmdType := by
      cases hb : g.bytes <;> rfl
    rw [← htake]
    exact Classical.not_not.mp hcmd
  obtain ⟨c, q, hq, hgq, hreply⟩ := h.replies g hg hpass
  have hsrc : q.src = g.dst := by rw [hgq]; rfl
  have hask := h.fromEsp q hq e (by rw [hsrc, hdst])
  have hbytes := discoverReply_eq hreply
  refine ⟨c, q.src.port, g.bytes, ?_, hask ▸ hq, ?_⟩
  · rw [← Option.some.inj hd, Discovered.addr, hgq]
    simp only [hbytes]
    rfl
  · have hdst' : q.src = ⟨lan.espIp e, q.src.port⟩ := by rw [hask]; rfl
    rw [← hdst', ← hgq]
    exact hg

variable [DecidableEq Esp] [DecidableEq Pc]

private theorem Inv.step (h : Inv lan w) {i : LanInput Esp Pc} (hi : lan.Honest w i)
    (hstep : lan.step w i = .ok w') : Inv lan w' := by
  obtain ⟨gs, hadds, hsent⟩ := step_sent hstep
  have hsub := sent_subset hstep
  refine ⟨fun g hg e he => ?_, fun g hg hpass => ?_, fun e => ?_⟩
  · rw [hsent, List.mem_append] at hg
    rcases hg with hg | hg
    · exact h.fromEsp g hg e he
    · cases hadds with
      | nothing => cases hg
      | discover e' port =>
        obtain rfl := List.mem_singleton.mp hg
        rw [lan.espIp_injective he]
        rfl
      | reply d q bytes =>
        obtain rfl := List.mem_singleton.mp hg
        exact absurd he.symm (lan.apart e d)
      | other g' hinput =>
        obtain rfl := List.mem_singleton.mp hg
        subst hinput
        exact absurd he (hi.1 e)
  · rw [hsent, List.mem_append] at hg
    rcases hg with hg | hg
    · obtain ⟨d, q, hq, hgq, hreply⟩ := h.replies g hg hpass
      exact ⟨d, q, hsub hq, hgq, hreply⟩
    · cases hadds with
      | nothing => cases hg
      | discover e' port =>
        obtain rfl := List.mem_singleton.mp hg
        exact absurd hpass.1 (Nat.not_le.mpr (by decide : discoverPacket.length < replySize))
      | reply d q bytes hq hreply =>
        obtain rfl := List.mem_singleton.mp hg
        exact ⟨d, q, hsub hq, rfl, hreply⟩
      | other g' hinput =>
        obtain rfl := List.mem_singleton.mp hg
        subst hinput
        exact absurd hpass hi.2
  · have hmono : (w.esps e).Told (lan.Answered w'.sent e) :=
      (h.told e).mono fun _ ha => ha.mono hsub
    cases step_changes hstep e with
    | same he =>
      rw [he]
      exact hmono
    | task i hs => exact hmono.task hs
    | call a hnone hs =>
      exact hmono.calls (by rw [hnone]; exact nofun) (Searcher.callStep_calls hs).2
    | receive g hg hdst hs =>
      refine hmono.calls (fun r d hr hd => ?_) (Searcher.callStep_calls hs).2
      exact (h.backs hg hdst r d hr hd).mono hsub

/-- In every run, whatever the network does to the datagrams and whatever the daemons do
besides: an address that the discovery task or the session of a device holds is that of a
daemon which has answered a `DISCOVER` of this device, and a published address comes with the
port of the daemon. -/
theorem addresses_answered {is : List (LanInput Esp Pc)} (hi : RunAll lan.step lan.Honest lan.boot is)
    (hr : run lan.step lan.boot is = .ok w) (e : Esp) :
    ((w.esps e).tasks.ip = 0 ∨ lan.Answered w.sent e ⟨(w.esps e).tasks.ip, daemonPort⟩) ∧
      ((w.esps e).tasks.daemonIp = 0 ∨
        lan.Answered w.sent e ⟨(w.esps e).tasks.daemonIp, daemonPort⟩) ∧
      ((w.esps e).tasks.hubPc.stored = true →
        lan.Answered w.sent e ⟨(w.esps e).tasks.ip, (w.esps e).tasks.port⟩) := by
  have h : Inv lan w := run_invariant (fun _ _ _ h hi hs => h.step hi hs) (inv_boot lan) hi hr
  have hport : ∀ ip, (∃ port, lan.Answered w.sent e ⟨ip, port⟩) →
      lan.Answered w.sent e ⟨ip, daemonPort⟩ := by
    rintro ip ⟨port, d, p, bytes, haddr, hq, hg⟩
    exact ⟨d, p, bytes, by rw [(SockAddr.mk.inj haddr).1], hq, hg⟩
  exact ⟨(h.told e).tasks.ip.imp_right (hport _), (h.told e).tasks.daemonIp.imp_right (hport _),
    (h.told e).tasks.stored⟩

/-- One device and one daemon, at 10.0.0.5 and 10.0.0.1. -/
def oneDaemon : Lan Unit Unit where
  espIp _ := 0x0500000A
  pcIp _ := 0x0100000A
  espIp_ne_zero _ := by decide
  pcIp_ne_zero _ := by decide
  espIp_injective _ _ _ := rfl
  apart _ _ := by decide
  usbipMode _ := false
  daemon _ := .boot 3 4 fun _ => none

def askingRun : List (LanInput Unit Unit) :=
  [.task () .wifiReady, .call () { opened := some 5 }, .call () {}, .call () {},
    .call () { bound := some 50000 }]

def timedOutRun : List (LanInput Unit Unit) :=
  askingRun ++ [.call () {}, .call () {}, .call () {}]

/-- The daemon replies, and the device publishes its address. -/
def foundRun : List (LanInput Unit Unit) :=
  askingRun ++ [.datagram () (oneDaemon.discover () 50000),
    .receive () (oneDaemon.replyTo () ⟨0x0500000A, 50000⟩ [2, 0, 0, 0, 2, 0, 0x6C, 0x1E]),
    .call () {}, .call () {}, .task () .hub, .task () .hub, .task () .hub, .task () .hub,
    .task () .hub]

theorem address_answered_once : ∃ w, run oneDaemon.step oneDaemon.boot foundRun = .ok w ∧
    (w.esps ()).tasks.ip = 0x0100000A ∧ (w.esps ()).tasks.port = 7788 ∧
    oneDaemon.Answered w.sent () ⟨(w.esps ()).tasks.ip, (w.esps ()).tasks.port⟩ := by
  have hi : RunAll oneDaemon.step oneDaemon.Honest oneDaemon.boot foundRun := by
    iterate 14 refine runAll_cons_of_ok rfl trivial ?_
    trivial
  exact ⟨_, rfl, rfl, rfl, (addresses_answered hi rfl ()).2.2 rfl⟩

end Safety
end Lan
end WirelessHub.System
