import WirelessHub.System.Discovery

/-!
# Every running daemon can be found

However the network has lost or repeated datagrams, whichever calls have failed and whatever
address a device has now, it can still come to know any daemon that runs: a rank falls along
the loop of the discovery task, and only the device and the daemon take steps.
-/

namespace WirelessHub.System

open Function Framework Firmware

namespace Lan

variable {Esp Pc : Type} {lan : Lan Esp Pc} {w w' : World Esp Pc} {e : Esp} {d : Pc}

/-- A device that waits for a datagram has sent its `DISCOVER` from the port at which it waits. -/
def Asked (lan : Lan Esp Pc) (w : World Esp Pc) (e : Esp) : Prop :=
  ∀ port, (w.esps e).awaiting = some port → lan.discover e port ∈ w.sent

/-- What every reachable state gives a device to go on with. -/
structure Ready (lan : Lan Esp Pc) (e : Esp) (w : World Esp Pc) : Prop where
  tidy : (w.esps e).Tidy
  told : (w.esps e).Told fun _ => True
  asked : lan.Asked w e

private theorem ready_boot (lan : Lan Esp Pc) (e : Esp) : Ready lan e lan.boot :=
  ⟨Searcher.tidy_boot _, Searcher.told_boot _, nofun⟩

section Steps

variable [DecidableEq Esp] [DecidableEq Pc] {i : LanInput Esp Pc}

private theorem awaiting_of_calls {s s' : Searcher} {a : CallAnswers}
    (hcall : Searcher.Calls s a s')
    {port : UInt16} (hwait : s'.awaiting = some port) : s.sending a = some port := by
  cases hcall with
  | binds sock p hat hbound =>
    simp only [Searcher.awaiting, update_self, Option.some.injEq] at hwait
    rw [Searcher.sending, hat, hbound, hwait]
  | goesOn attempt _ _ hcalls =>
    cases attempt with
    | recvfrom k => exact absurd rfl (hcalls k)
    | _ => cases hwait
  | closes sock attempt _ hclosed =>
    cases attempt with
    | recvfrom k => cases hclosed
    | _ => cases hwait
  | found r x tasks hat => simp [Searcher.awaiting, hat] at hwait
  | opens | receives | again => cases hwait

private theorem Ready.step (h : Ready lan e w) (hstep : lan.step w i = .ok w') :
    Ready lan e w' := by
  have hsub := sent_subset hstep
  cases step_changes hstep e with
  | same he =>
    refine ⟨by rw [he]; exact h.tidy, by rw [he]; exact h.told, fun port hp => ?_⟩
    rw [he] at hp
    exact hsub (h.asked port hp)
  | task j hs =>
    refine ⟨h.tidy.task hs, h.told.task hs, fun port hp => hsub (h.asked port ?_)⟩
    obtain ⟨-, tasks, -, hw'⟩ := Searcher.taskStep_eq hs
    rw [hw'] at hp
    cases j with
    | wifiReady => cases hp
    | _ => exact hp
  | call a hnone hs hsent =>
    obtain ⟨hpc, hcall⟩ := Searcher.callStep_calls hs
    refine ⟨h.tidy.calls hpc hcall, h.told.calls (fun _ _ _ _ => trivial) hcall, fun port hp => ?_⟩
    exact hsent port (awaiting_of_calls hcall hp)
  | receive g hg hdst hs =>
    obtain ⟨hpc, hcall⟩ := Searcher.callStep_calls hs
    refine ⟨h.tidy.calls hpc hcall, h.told.calls (fun _ _ _ _ => trivial) hcall, fun port hp => ?_⟩
    have hsending := awaiting_of_calls hcall hp
    unfold Searcher.sending at hsending
    split at hsending <;> cases hsending

end Steps

section Rank

/-- The datagram with which the daemon answers the device at a port. -/
def answer (lan : Lan Esp Pc) (d : Pc) (e : Esp) (port : UInt16) : Datagram :=
  lan.replyTo d ⟨lan.espIp e, port⟩
    (Header.encode ⟨CmdType.discoverReply.toByte, 0, 0, 0, 2⟩ ++ discoverReplyPayload)

/-- The address of the daemon that is to be found. -/
def IsAddr (lan : Lan Esp Pc) (d : Pc) (addr : SockAddr) : Prop := addr = ⟨lan.pcIp d, daemonPort⟩

instance (lan : Lan Esp Pc) (d : Pc) (addr : SockAddr) : Decidable (lan.IsAddr d addr) :=
  inferInstanceAs (Decidable (_ = _))

/-- How far an attempt is from the daemon's address. A wrong address has to be stored and
withdrawn before the search starts again. -/
def attemptRank (lan : Lan Esp Pc) (d : Pc) (answered : Bool) : Attempt → Nat
  | .check rcvd => match rcvd.bind Received.discovered with
    | none => 16
    | some x => if lan.IsAddr d x.addr then 6 else 37
  | .close _ rcvd => match rcvd.bind Received.discovered with
    | none => 17
    | some x => if lan.IsAddr d x.addr then 7 else 38
  | .recvfrom _ => if answered then 8 else 9
  | .sendto _ => 10
  | .setTimeout _ => 11
  | .setBroadcast _ => 12
  | .socket => 13
  | .retryDelay => 14
  | .abandon _ => 15

/-- How far the device is from having found the daemon. -/
def searchRank (lan : Lan Esp Pc) (d : Pc) (answered : Bool) (s : Searcher) : Nat :=
  match s.tasks.hubPc with
  | .waitWifiLost => if lan.IsAddr d ⟨s.tasks.ip, s.tasks.port⟩ then 0 else 26
  | .setFound => if lan.IsAddr d ⟨s.tasks.ip, s.tasks.port⟩ then 1 else 32
  | .clearLost => if lan.IsAddr d ⟨s.tasks.ip, s.tasks.port⟩ then 2 else 33
  | .storePort x => if lan.IsAddr d x.addr then 3 else 34
  | .storeIp x => if lan.IsAddr d x.addr then 4 else 35
  | .storeFound x => if lan.IsAddr d x.addr then 5 else 36
  | .discover => lan.attemptRank d answered s.attempt
  | .waitReady => 20
  | .setLost => 21
  | .clearFound => 22
  | .zeroPort => 23
  | .zeroIp => 24
  | .resetFound => 25

/-- The daemon has answered at the port at which the device waits. -/
def answeredAt (lan : Lan Esp Pc) (d : Pc) (e : Esp) (w : World Esp Pc) : Bool :=
  ((w.esps e).awaiting).any fun port => decide (lan.answer d e port ∈ w.sent)

def rank (lan : Lan Esp Pc) (d : Pc) (e : Esp) (w : World Esp Pc) : Nat :=
  lan.searchRank d (lan.answeredAt d e w) (w.esps e)

end Rank

section Progress

variable [DecidableEq Esp] [DecidableEq Pc]

/-- Only the device and the daemon take steps, besides the network around them. -/
def Between (e : Esp) (d : Pc) : LanInput Esp Pc → Prop
  | .task e' _ => e' = e
  | .call e' _ => e' = e
  | .receive e' _ => e' = e
  | .datagram d' _ => d' = d
  | _ => False

/-- Some step of the two lowers the rank, and the daemon goes on running. -/
def Progress (lan : Lan Esp Pc) (d : Pc) (e : Esp) (w : World Esp Pc) : Prop :=
  ∃ i w', Between e d i ∧ lan.step w i = .ok w' ∧ w'.pcs d ≠ none ∧ lan.rank d e w' < lan.rank d e w

private theorem Progress.of_hub (hd : w.pcs d ≠ none) {t : HubTasks}
    (ht : (w.esps e).tasks.hubStep = .ok t)
    (hlt : ∀ answered, lan.searchRank d answered { w.esps e with tasks := t } < lan.rank d e w) :
    Progress lan d e w := by
  refine ⟨.task e .hub, setEsp w e { w.esps e with tasks := t }, rfl, ?_, hd, ?_⟩
  · simp [Lan.step, Searcher.taskStep, HubTasks.step, ht, Except.map, Searcher.entering]
  · simpa only [rank, setEsp, update_self] using hlt _

private theorem Progress.of_call (hd : w.pcs d ≠ none) (hpc : (w.esps e).tasks.hubPc = .discover)
    {a : CallAnswers} (ha : a.received = none) {s : Searcher} (hs : (w.esps e).call a = .ok s)
    (hlt : ∀ answered, lan.searchRank d answered s < lan.rank d e w) : Progress lan d e w := by
  refine ⟨.call e a, { setEsp w e s with
    sent := w.sent ++ (((w.esps e).sending a).map (lan.discover e)).toList }, rfl, ?_, hd, ?_⟩
  · simp [Lan.step, ha, Searcher.callStep, hpc, hs, Except.map]
  · simpa only [rank, setEsp, update_self] using hlt _

private theorem progress_of_storing (h : Ready lan e w) (hd : w.pcs d ≠ none) {t : HubTasks}
    (ht : (w.esps e).tasks.hubStep = .ok t) : Progress lan d e w := by
  refine .of_hub hd ht fun answered => ?_
  have hhalf := h.told.tasks.half
  unfold HubTasks.hubStep at ht
  split at ht <;> rename_i hpc
  all_goals cases ht
  all_goals simp only [rank, searchRank, hpc]
  case h_3 x =>
    have hx : (⟨(w.esps e).tasks.ip, x.port⟩ : SockAddr) = x.addr := by
      rw [hhalf x hpc]
      rfl
    rw [hx]
    split <;> decide
  all_goals first | decide | (split <;> decide)

private theorem progress_of_answer (hd : w.pcs d ≠ none) (hpc : (w.esps e).tasks.hubPc = .discover)
    {sock : Nat} {port : UInt16} (hat : (w.esps e).attempt = .recvfrom sock)
    (hport : (w.esps e).sockets sock = some port) (hanswer : lan.answer d e port ∈ w.sent) :
    Progress lan d e w := by
  have hwait : (w.esps e).awaiting = some port := by rw [Searcher.awaiting, hat, ← hport]
  have hrank : lan.rank d e w = 8 := by
    simp [rank, searchRank, hpc, attemptRank, hat, answeredAt, hwait, hanswer]
  let r : Received := ⟨(lan.answer d e port).src, (lan.answer d e port).bytes.take replySize,
    (lan.answer d e port).ip_ne_zero⟩
  refine ⟨.receive e (lan.answer d e port), setEsp w e { w.esps e with attempt := .close sock (some r) },
    rfl, ?_, hd, ?_⟩
  · have hdst : (lan.answer d e port).dst = ⟨lan.espIp e, port⟩ := rfl
    simp only [Lan.step, hanswer, hdst, hwait, and_self, if_true, Searcher.callStep, hpc, Searcher.call,
      hat]
    rfl
  · have hfound : lan.attemptRank d (lan.answeredAt d e
        (setEsp w e { w.esps e with attempt := .close sock (some r) })) (.close sock (some r)) = 7 := by
      have hgood : lan.IsAddr d ⟨lan.pcIp d, daemonPort⟩ := rfl
      exact if_pos hgood
    rw [hrank]
    simp only [rank, setEsp, update_self, searchRank, hpc]
    exact lt_of_eq_of_lt hfound (by decide)

private theorem progress_of_asked (h : Ready lan e w) {st : Daemon} (hst : w.pcs d = some st)
    (hpc : (w.esps e).tasks.hubPc = .discover) {sock : Nat} {port : UInt16}
    (hat : (w.esps e).attempt = .recvfrom sock) (hport : (w.esps e).sockets sock = some port)
    (hanswer : lan.answer d e port ∉ w.sent) : Progress lan d e w := by
  have hwait : (w.esps e).awaiting = some port := by rw [Searcher.awaiting, hat, ← hport]
  have hasked := h.asked port hwait
  have hrank : lan.rank d e w = 9 := by
    simp [rank, searchRank, hpc, attemptRank, hat, answeredAt, hwait, hanswer]
  have hreply : st.replyOf (readTurn st (lan.discover e port)) = some (lan.answer d e port).bytes := by
    have hudp : (readTurn st (lan.discover e port)).fd = st.hub.udpFd := rfl
    rw [Daemon.replyOf, if_pos hudp]
    rfl
  obtain ⟨st', hstep⟩ : ∃ st', st.step (readTurn st (lan.discover e port)) = .ok st' :=
    ⟨_, if_pos rfl⟩
  have hturn : lan.turn w d st (lan.discover e port).src (readTurn st (lan.discover e port)) =
      { w with pcs := update w.pcs d (some st'), sent := w.sent ++ [lan.answer d e port] } := by
    simp only [turn, hstep, newlySent_eq hstep, hreply]
    rfl
  refine ⟨.datagram d (lan.discover e port), { w with
    pcs := update w.pcs d (some st'), sent := w.sent ++ [lan.answer d e port] }, rfl, ?_, by simp, ?_⟩
  · have hdst : (lan.discover e port).dst = ⟨broadcastIp, daemonPort⟩ := rfl
    simp only [Lan.step, hst, hasked, hdst, true_or, and_self, if_true, hturn]
  · rw [hrank]
    simp [rank, searchRank, hpc, attemptRank, hat, answeredAt, hwait]

private theorem progress_of_attempt (h : Ready lan e w) {st : Daemon} (hst : w.pcs d = some st)
    (hpc : (w.esps e).tasks.hubPc = .discover) : Progress lan d e w := by
  have hd : w.pcs d ≠ none := by simp [hst]
  have hrank : lan.rank d e w = lan.attemptRank d (lan.answeredAt d e w) (w.esps e).attempt := by
    simp only [rank, searchRank, hpc]
  cases hat : (w.esps e).attempt with
  | socket =>
    -- no socket is open, so any number will do
    have hfree : (w.esps e).sockets 0 = none := by
      by_contra hopen
      have hsock := (h.tidy.owned 0).mp hopen
      rw [hat] at hsock
      cases hsock
    refine .of_call hd hpc (a := { opened := some 0 }) rfl (s := { w.esps e with
      sockets := update (w.esps e).sockets 0 (some 0), attempt := .setBroadcast 0 }) ?_ fun answered => ?_
    · simp [Searcher.call, hat, hfree]
    · simp [hrank, hat, searchRank, hpc, attemptRank]
  | setBroadcast sock =>
    refine .of_call hd hpc (a := {}) rfl (s := { w.esps e with attempt := .setTimeout sock }) ?_ fun answered => ?_
    · simp [Searcher.call, hat]
    · simp [hrank, hat, searchRank, hpc, attemptRank]
  | setTimeout sock =>
    refine .of_call hd hpc (a := {}) rfl (s := { w.esps e with attempt := .sendto sock }) ?_ fun answered => ?_
    · simp [Searcher.call, hat]
    · simp [hrank, hat, searchRank, hpc, attemptRank]
  | sendto sock =>
    refine .of_call hd hpc (a := { bound := some 50000 }) rfl (s := { w.esps e with
      sockets := update (w.esps e).sockets sock (some 50000), attempt := .recvfrom sock }) ?_ fun answered => ?_
    · simp [Searcher.call, hat]
    · cases answered <;> simp [hrank, hat, searchRank, hpc, attemptRank]
  | recvfrom sock =>
    obtain ⟨port, hport⟩ := Option.ne_none_iff_exists'.mp ((h.tidy.owned sock).mpr (by rw [hat]; rfl))
    by_cases hanswer : lan.answer d e port ∈ w.sent
    · exact progress_of_answer hd hpc hat hport hanswer
    · exact progress_of_asked h hst hpc hat hport hanswer
  | close sock rcvd =>
    refine .of_call hd hpc (a := {}) rfl (s := { w.esps e with
      sockets := update (w.esps e).sockets sock none, attempt := .check rcvd }) ?_ fun answered => ?_
    · simp [Searcher.call, hat]
    · simp only [hrank, hat, searchRank, hpc, attemptRank]
      split
      · decide
      · split <;> decide
  | check rcvd =>
    cases hx : rcvd.bind Received.discovered with
    | none =>
      refine .of_call hd hpc (a := {}) rfl (s := { w.esps e with attempt := .retryDelay }) ?_ fun answered => ?_
      · simp [Searcher.call, hat, hx]
      · simp [hrank, hat, searchRank, hpc, attemptRank, hx]
    | some x =>
      refine .of_call hd hpc (a := {}) rfl (s := { w.esps e with
        tasks := { (w.esps e).tasks with hubPc := .storeFound x } }) ?_ fun answered => ?_
      · simp [Searcher.call, hat, hx, HubTasks.step, hpc, Except.map]
      · simp only [hrank, hat, searchRank, attemptRank, hx]
        split <;> decide
  | abandon sock =>
    refine .of_call hd hpc (a := {}) rfl (s := { w.esps e with
      sockets := update (w.esps e).sockets sock none, attempt := .retryDelay }) ?_ fun answered => ?_
    · simp [Searcher.call, hat]
    · simp [hrank, hat, searchRank, hpc, attemptRank]
  | retryDelay =>
    refine .of_call hd hpc (a := {}) rfl (s := { w.esps e with attempt := .socket }) ?_ fun answered => ?_
    · simp [Searcher.call, hat, HubTasks.step, hpc, Except.map]
    · simp [hrank, hat, searchRank, hpc, attemptRank]

def Found (lan : Lan Esp Pc) (d : Pc) (e : Esp) (w : World Esp Pc) : Prop :=
  (w.esps e).tasks.hubPc = .waitWifiLost ∧ (w.esps e).tasks.ip = lan.pcIp d ∧
    (w.esps e).tasks.port = daemonPort

private theorem progress (h : Ready lan e w) (hd : w.pcs d ≠ none) (hnot : ¬Found lan d e w) :
    Progress lan d e w := by
  obtain ⟨st, hst⟩ := Option.ne_none_iff_exists'.mp hd
  cases hpc : (w.esps e).tasks.hubPc with
  | discover => exact progress_of_attempt h hst hpc
  | waitReady =>
    refine ⟨.task e .wifiReady, setEsp w e { w.esps e with
      tasks := { (w.esps e).tasks with hubPc := .discover }, attempt := .socket }, rfl, ?_, hd, ?_⟩
    · simp [Lan.step, Searcher.taskStep, HubTasks.step, hpc, Except.map, Searcher.entering]
    · simp [rank, setEsp, searchRank, hpc, attemptRank]
  | waitWifiLost =>
    have hbad : ¬lan.IsAddr d ⟨(w.esps e).tasks.ip, (w.esps e).tasks.port⟩ := fun hgood =>
      hnot ⟨hpc, (SockAddr.mk.inj hgood).1, (SockAddr.mk.inj hgood).2⟩
    refine ⟨.task e .wifiLost, setEsp w e { w.esps e with
      tasks := { (w.esps e).tasks with hubPc := .resetFound } }, rfl, ?_, hd, ?_⟩
    · simp [Lan.step, Searcher.taskStep, HubTasks.step, hpc, Except.map, Searcher.entering]
    · simp [rank, setEsp, searchRank, hpc, hbad]
  | storeFound x | storeIp x | storePort x | clearLost | setFound | resetFound | zeroIp | zeroPort
  | clearFound | setLost =>
    exact progress_of_storing h hd (by rw [HubTasks.hubStep, hpc])

/-- From every reachable state, and with steps of the device, the daemon and the network
between them alone, a device can come to know any daemon that still runs. -/
theorem can_find {is : List (LanInput Esp Pc)} (hr : run lan.step lan.boot is = .ok w)
    (hd : w.pcs d ≠ none) : CanReach lan.step (Between e d) (Found lan d e) w := by
  have h : Ready lan e w := run_invariant_of_step (fun _ _ _ h => h.step) (ready_boot lan e) hr
  refine CanReach.of_rank (Q := fun w => Ready lan e w ∧ w.pcs d ≠ none) (lan.rank d e) ?_ ⟨h, hd⟩
  rintro v ⟨hv, hvd⟩ hnot
  obtain ⟨i, v', hi, hstep, hvd', hlt⟩ := progress hv hvd hnot
  exact ⟨i, v', hi, hstep, ⟨hv.step hstep, hvd'⟩, hlt⟩

/-- A device that has lost its first `DISCOVER` can still find the daemon. -/
theorem can_find_after_timeout : ∃ w, run oneDaemon.step oneDaemon.boot timedOutRun = .ok w ∧
    (w.esps ()).attempt = .retryDelay ∧
    CanReach oneDaemon.step (Between () ()) (Found oneDaemon () ()) w := by
  obtain ⟨w, hr, hat, hd⟩ : ∃ w, run oneDaemon.step oneDaemon.boot timedOutRun = .ok w ∧
      (w.esps ()).attempt = .retryDelay ∧ w.pcs () ≠ none := ⟨_, rfl, rfl, nofun⟩
  exact ⟨w, hr, hat, can_find hr hd⟩

end Progress
end Lan
end WirelessHub.System
