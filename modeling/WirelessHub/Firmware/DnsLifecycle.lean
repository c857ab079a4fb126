import WirelessHub.Firmware.DnsServer

/-!
# One DNS server at a time

The portal's DNS server is exclusive and can be restarted in every run in which a task is
created only after the last one has ended, no call of `socket` or `bind` fails, and
`stop_dns_server` closes the socket of a task only once it is bound. The runs at the end show
what happens when a task is created, or fails to bind, in the other cases.
-/

namespace WirelessHub.Firmware

open Framework

namespace DnsPc

/-- Between `socket` and the end of `bind`. -/
def starting : DnsPc → Bool
  | opened _ | check | bindLoad | binding _ => true
  | _ => false

def failing : DnsPc → Bool
  | failCheck | failLoad | failClosing _ | failClear => true
  | _ => false

/-- From the assignment of the new socket to the assignment of -1. -/
def serving : DnsPc → Bool
  | check | bindLoad | binding _ | recvLoad | receiving _ | closeLoad | closing _ | clearSock => true
  | _ => false

/-- A task at this point can still reach the socket `fd` that it has open. -/
def Reaches (sock : Option Nat) (fd : Nat) : DnsPc → Prop
  | opened r => r = some fd
  | check | bindLoad | recvLoad | receiving _ | closeLoad => sock = some fd
  | binding r | closing r => r = some fd ∧ sock = some fd
  | _ => False

private theorem Reaches.sock_eq {sock : Option Nat} {fd : Nat} {pc : DnsPc} (h : pc.Reaches sock fd)
    (hopen : ∀ r, pc ≠ opened r) : sock = some fd := by
  cases pc with
  | opened r => exact absurd rfl (hopen r)
  | check | bindLoad | recvLoad | receiving | closeLoad => exact h
  | binding r => exact h.2
  | closing r => exact h.2
  | dead | start | clearSock | clearTask | failCheck | failLoad | failClosing | failClear => exact h.elim

end DnsPc

/-- Between the check of the socket in `stop_dns_server` and the assignment of -1. -/
def DnsCallPc.closing : DnsCallPc → Bool
  | stopLoad | stopClosing _ | stopClearSock => true
  | _ => false

namespace Dns

/-- What the portal expects of its DNS server. -/
structure Exclusive (s : Dns) : Prop where
  one_holder : ∀ fd fd' t t', s.owner fd = some t → s.owner fd' = some t' → t = t'
  own_closes : ∀ p ∈ s.closes, p.1 = p.2
  restartable : (∀ t, s.pcs t = .dead) → s.task = none

/-- The runs in which the server is exclusive. -/
def Orderly (s : Dns) : DnsInput → Prop
  | .call _ _ => True
  | .caller c created => match s.callers c with
    | .startCreate => created = true →
        (∀ t, s.pcs t = .dead) ∧ ∀ c', (s.callers c').closing = false
    | .stopClosing fd => ∀ t, fd.bind s.owner = some t → (s.pcs t).starting = false
    | _ => True
  | .task t a => match s.pcs t with
    | .start => a.socket ≠ none
    | .binding _ => a.bound = true
    | _ => True

/-- The invariant of these runs. -/
structure Orderliness (s : Dns) : Prop where
  alone : ∀ t t', s.pcs t ≠ .dead → s.pcs t' ≠ .dead → t = t'
  held : ∀ fd t, s.owner fd = some t → (s.pcs t).Reaches s.sock fd
  starting : ∀ t, (s.pcs t).starting = true → ∃ fd, s.owner fd = some t
  failing : ∀ t, (s.pcs t).failing = false
  serving : s.sock ≠ none → ∃ t, (s.pcs t).serving = true
  closing : ∀ c t, (s.callers c).closing = true → s.pcs t ≠ .start ∧ ∀ r, s.pcs t ≠ .opened r
  loaded : ∀ c r, s.callers c = .stopClosing r → ∀ fd t, s.owner fd = some t → r = some fd
  cleared : ∀ c, s.callers c = .stopClearSock → ∀ fd, s.owner fd = none
  own_closes : ∀ p ∈ s.closes, p.1 = p.2
  handle : (∀ t, s.pcs t = .dead) → s.task = none

variable {s : Dns} {c t : Nat}

private theorem orderliness_boot : Orderliness boot := by
  constructor <;> simp [boot, DnsPc.starting, DnsPc.failing, DnsCallPc.closing]

private theorem Orderliness.alive_of_owner (h : s.Orderliness) {fd : Nat}
    (hfd : s.owner fd = some t) : s.pcs t ≠ .dead := by
  intro hdead
  have hreach := h.held fd t hfd
  rw [hdead] at hreach
  exact hreach

private theorem Orderliness.exclusive (h : s.Orderliness) : s.Exclusive where
  one_holder fd fd' t t' ht ht' := by
    apply h.alone
    · exact h.alive_of_owner ht
    · exact h.alive_of_owner ht'
  own_closes := h.own_closes
  restartable := h.handle

private theorem setCaller_callers (s : Dns) (c c' : Nat) (pc : DnsCallPc) :
    (s.setCaller c pc).callers c' = pc ∨ (s.setCaller c pc).callers c' = s.callers c' := by
  simp only [Dns.setCaller]
  split
  · exact .inl rfl
  · exact .inr rfl

private theorem owner_of_close {fd : Option Nat} {fd' t : Nat}
    (h : (s.close fd).owner fd' = some t) : s.owner fd' = some t := by
  simp only [Dns.close] at h
  split at h
  · cases h
  · exact h

private theorem Orderliness.setCaller (h : s.Orderliness) (c : Nat) {pc : DnsCallPc}
    (hclosing : pc.closing = true → ∀ t, s.pcs t ≠ .start ∧ ∀ r, s.pcs t ≠ .opened r)
    (hloaded : ∀ r, pc = .stopClosing r → ∀ fd t, s.owner fd = some t → r = some fd)
    (hcleared : pc = .stopClearSock → ∀ fd, s.owner fd = none) : (s.setCaller c pc).Orderliness where
  alone := h.alone
  held := h.held
  starting := h.starting
  failing := h.failing
  serving := h.serving
  closing := by
    intro c' t hc
    cases setCaller_callers s c c' pc with
    | inl hnew => exact hclosing (hnew ▸ hc) t
    | inr hold => exact h.closing c' t (hold ▸ hc)
  loaded := by
    intro c' r hc
    cases setCaller_callers s c c' pc with
    | inl hnew => exact hloaded r (hnew.symm.trans hc)
    | inr hold => exact h.loaded c' r (hold.symm.trans hc)
  cleared := by
    intro c' hc
    cases setCaller_callers s c c' pc with
    | inl hnew => exact hcleared (hnew.symm.trans hc)
    | inr hold => exact h.cleared c' (hold.symm.trans hc)
  own_closes := h.own_closes
  handle := h.handle

private theorem Orderliness.close (h : s.Orderliness) (fd : Option Nat)
    (hstarting : ∀ t, fd.bind s.owner = some t → (s.pcs t).starting = false) :
    (s.close fd).Orderliness where
  alone := h.alone
  held := by
    intro fd' t hfd'
    exact h.held fd' t (owner_of_close hfd')
  starting := by
    intro t ht
    change (s.pcs t).starting = true at ht
    obtain ⟨fd', hfd'⟩ := h.starting t ht
    exists fd'
    simp only [Dns.close]
    split <;> grind
  failing := h.failing
  serving := h.serving
  closing := h.closing
  loaded := by
    intro c r hc fd' t hfd'
    exact h.loaded c r hc fd' t (owner_of_close hfd')
  cleared := by
    intro c hc fd'
    cases hfd' : (s.close fd).owner fd' with
    | none => rfl
    | some t =>
      have howner := owner_of_close hfd'
      rw [h.cleared c hc fd'] at howner
      cases howner
  own_closes := h.own_closes
  handle := h.handle

private theorem Orderliness.owner_eq (h : s.Orderliness) (halive : s.pcs t ≠ .dead) {fd t' : Nat}
    (hfd : s.owner fd = some t') : t' = t :=
  h.alone t' t (h.alive_of_owner hfd) halive

private theorem Orderliness.clearSock (h : s.Orderliness) (hnone : ∀ fd, s.owner fd = none) :
    ({ s with sock := none } : Dns).Orderliness where
  alone := h.alone
  held := by
    intro fd t hfd
    rw [hnone] at hfd
    cases hfd
  starting := h.starting
  failing := h.failing
  serving := by simp
  closing := h.closing
  loaded := h.loaded
  cleared := h.cleared
  own_closes := h.own_closes
  handle := h.handle

private theorem Orderliness.clearTask (h : s.Orderliness) :
    ({ s with task := none } : Dns).Orderliness :=
  { h with handle := fun _ => rfl }

private theorem Orderliness.sock_none (h : s.Orderliness) (halive : s.pcs t ≠ .dead)
    (hpc : (s.pcs t).serving = false) : s.sock = none := by
  by_contra hsock
  obtain ⟨u, hu⟩ := h.serving hsock
  have halive' : s.pcs u ≠ .dead := by
    intro hdead
    rw [hdead] at hu
    cases hu
  rw [h.alone u t halive' halive, hpc] at hu
  cases hu

/-- The living task moves on: what it leaves behind has to fit where it goes. The other tasks
are dead. -/
theorem Orderliness.move (h : s.Orderliness) (halive : s.pcs t ≠ .dead) {pc : DnsPc}
    {task sock : Option Nat} {owner : Nat → Option Nat} {closes : List (Nat × Nat)}
    (hheld : ∀ fd u, owner fd = some u → u = t ∧ pc.Reaches sock fd)
    (hstarting : pc.starting = true → ∃ fd, owner fd = some t)
    (hfailing : pc.failing = false) (hserving : sock ≠ none → pc.serving = true)
    (hcalls : ∀ c, (s.callers c).closing = true →
      (pc ≠ .start ∧ ∀ r, pc ≠ .opened r) ∧ ∀ fd u, owner fd = some u → s.owner fd = some u)
    (hcloses : ∀ p ∈ closes, p.1 = p.2) (hhandle : pc = .dead → task = none) :
    ({ s with task := task, sock := sock, owner := owner, closes := closes }.setTask t pc :
      Dns).Orderliness := by
  have hdead : ∀ u, u ≠ t → s.pcs u = .dead := by
    intro u hne
    by_contra hu
    exact hne (h.alone u t hu halive)
  constructor
  case alone =>
    intro u u' hu hu'
    grind [Dns.setTask]
  case held =>
    intro fd u hfd
    obtain ⟨rfl, hreach⟩ := hheld fd u hfd
    simpa [Dns.setTask] using hreach
  case starting =>
    intro u hu
    by_cases hut : u = t
    · subst hut
      exact hstarting (by simpa [Dns.setTask] using hu)
    · simp [Dns.setTask, hut, hdead u hut, DnsPc.starting] at hu
  case failing =>
    intro u
    by_cases hut : u = t
    · simpa [Dns.setTask, hut] using hfailing
    · simp [Dns.setTask, hut, hdead u hut, DnsPc.failing]
  case serving =>
    intro hsock
    exists t
    simpa [Dns.setTask] using hserving hsock
  case closing =>
    intro c u hc
    by_cases hut : u = t
    · simpa [Dns.setTask, hut] using (hcalls c hc).1
    · simp [Dns.setTask, hut, hdead u hut]
  case loaded =>
    intro c r hc fd u hfd
    change s.callers c = _ at hc
    apply h.loaded c r hc fd u
    exact (hcalls c (by rw [hc]; rfl)).2 fd u hfd
  case cleared =>
    intro c hc fd
    change s.callers c = _ at hc
    change owner fd = none
    cases hfd : owner fd with
    | none => rfl
    | some u =>
      have := (hcalls c (by rw [hc]; rfl)).2 fd u hfd
      rw [h.cleared c hc fd] at this
      cases this
  case own_closes => exact hcloses
  case handle =>
    intro hall
    apply hhandle
    rw [← hall t]
    simp [Dns.setTask]

private theorem Orderliness.create (h : s.Orderliness) (hdead : ∀ t, s.pcs t = .dead)
    (hcalls : ∀ c, (s.callers c).closing = false) : s.create.Orderliness where
  alone := by
    intro t t' ht ht'
    grind [Dns.create, Dns.setTask]
  held := by
    intro fd t hfd
    exact absurd (hdead t) (h.alive_of_owner hfd)
  starting := by
    intro t
    have := h.starting t
    simp only [Dns.create, Dns.setTask]
    split <;> grind [DnsPc.starting]
  failing := by
    intro t
    have := h.failing t
    simp only [Dns.create, Dns.setTask]
    split <;> grind [DnsPc.failing]
  serving := by
    intro hsock
    obtain ⟨t, ht⟩ := h.serving hsock
    rw [hdead] at ht
    cases ht
  closing := by
    intro c t hc
    exact absurd hc (by simp [Dns.create, Dns.setTask, hcalls])
  loaded := h.loaded
  cleared := h.cleared
  own_closes := h.own_closes
  handle := by
    intro hall
    have := hall s.next
    simp [Dns.create, Dns.setTask] at this

/-- No task opens or assigns a socket while a stop is under way. -/
theorem Orderliness.reaches_sock (h : s.Orderliness) (hclosing : (s.callers c).closing = true)
    {fd : Nat} (hfd : s.owner fd = some t) : s.sock = some fd := by
  have hheld := h.held fd t hfd
  have hopen := (h.closing c t hclosing).2
  exact hheld.sock_eq hopen

private theorem callerStep_orderliness {s' : Dns} {created : Bool} (h : s.Orderliness)
    (hg : s.Orderly (.caller c created)) (hs : s.callerStep c created = .ok s') : s'.Orderliness := by
  unfold callerStep at hs
  simp only [Orderly] at hg
  cases hpc : s.callers c with
  | idle => simp [hpc] at hs
  | startCheck =>
    simp only [hpc, Except.ok.injEq] at hs
    rw [← hs]
    apply h.setCaller <;> split <;> simp [DnsCallPc.closing]
  | startCreate =>
    simp only [hpc, Except.ok.injEq] at hs hg
    rw [← hs]
    cases created with
    | false => apply h.setCaller <;> simp [DnsCallPc.closing]
    | true =>
      obtain ⟨hdead, hcalls⟩ := hg rfl
      apply (h.create hdead hcalls).setCaller <;> simp [DnsCallPc.closing]
  | stopCheck =>
    simp only [hpc, Except.ok.injEq] at hs
    rw [← hs]
    apply h.setCaller
    · intro hclosing t
      have hsock : s.sock ≠ none := by
        intro hsock
        simp [hsock, DnsCallPc.closing] at hclosing
      constructor
      · intro ht
        exact hsock (h.sock_none (t := t) (by simp [ht]) (by rw [ht]; rfl))
      · intro r ht
        exact hsock (h.sock_none (t := t) (by simp [ht]) (by rw [ht]; rfl))
    · split <;> simp
    · split <;> simp
  | stopLoad =>
    simp only [hpc, Except.ok.injEq] at hs
    rw [← hs]
    have hclosing : (s.callers c).closing = true := by rw [hpc]; rfl
    apply h.setCaller
    · intro _ t
      exact h.closing c t hclosing
    · intro r hr fd t hfd
      cases hr
      exact h.reaches_sock hclosing hfd
    · simp
  | stopClosing fd =>
    simp only [hpc, Except.ok.injEq] at hs hg
    rw [← hs]
    apply (h.close fd hg).setCaller
    · intro _ t
      exact h.closing c t (by rw [hpc]; rfl)
    · simp
    · intro _ fd'
      cases hfd' : s.owner fd' with
      | none => simp [Dns.close, hfd']
      | some t => simp [Dns.close, h.loaded c fd hpc fd' t hfd']
  | stopClearSock =>
    simp only [hpc, Except.ok.injEq] at hs
    rw [← hs]
    apply (h.clearSock (h.cleared c hpc)).setCaller <;> simp [DnsCallPc.closing]
  | stopClearTask =>
    simp only [hpc, Except.ok.injEq] at hs
    rw [← hs]
    apply h.clearTask.setCaller <;> simp [DnsCallPc.closing]

private theorem closes_closeBy (hcloses : ∀ p ∈ s.closes, p.1 = p.2)
    (hown : ∀ fd u, s.owner fd = some u → u = t) (fd : Option Nat) :
    ∀ p ∈ (s.closeBy t fd).closes, p.1 = p.2 := by
  intro p hp
  rcases List.mem_append.mp hp with hp | hp
  · exact hcloses p hp
  · obtain ⟨u, hu, rfl⟩ := List.mem_map.mp hp
    obtain ⟨fd', -, hfd'⟩ := Option.bind_eq_some_iff.mp (Option.mem_toList.mp hu)
    exact (hown fd' u hfd').symm

private theorem Orderliness.living (h : s.Orderliness) (halive : s.pcs t ≠ .dead) :
    (∀ fd u, s.owner fd = some u → u = t ∧ (s.pcs t).Reaches s.sock fd) ∧
      (s.sock ≠ none → (s.pcs t).serving = true) := by
  constructor
  · intro fd u hfd
    have hheld := h.held fd u hfd
    rw [h.owner_eq halive hfd] at hheld
    exact ⟨h.owner_eq halive hfd, hheld⟩
  · intro hsock
    by_contra hpc
    exact hsock (h.sock_none halive (by simpa using hpc))

private theorem Orderliness.pass (h : s.Orderliness) (halive : s.pcs t ≠ .dead) {pc : DnsPc}
    (hreach : ∀ fd, (s.pcs t).Reaches s.sock fd → pc.Reaches s.sock fd)
    (hstarting : pc.starting = true → (s.pcs t).starting = true) (hfailing : pc.failing = false)
    (hserving : pc.serving = true) (hopen : ∀ r, pc ≠ .opened r) : (s.setTask t pc).Orderliness := by
  obtain ⟨hheld, -⟩ := h.living halive
  apply h.move halive
  · intro fd u hfd
    exact ⟨(hheld fd u hfd).1, hreach fd (hheld fd u hfd).2⟩
  · intro hpc
    exact h.starting t (hstarting hpc)
  · exact hfailing
  · exact fun _ => hserving
  · intro c _
    refine ⟨⟨?_, hopen⟩, fun fd u hfd => hfd⟩
    intro hstart
    rw [hstart] at hserving
    cases hserving
  · exact h.own_closes
  · intro hdead
    rw [hdead] at hserving
    cases hserving

private theorem Orderliness.open (h : s.Orderliness) (hpc : s.pcs t = .start) (fd : Nat) :
    ({ s with owner := fun fd' => if fd' = fd then some t else s.owner fd' }.setTask t
      (.opened (some fd)) : Dns).Orderliness := by
  have halive : s.pcs t ≠ .dead := by simp [hpc]
  obtain ⟨hheld, hserving⟩ := h.living halive
  rw [hpc] at hheld hserving
  apply h.move halive
  · intro fd' u hfd'
    split at hfd'
    · rename_i heq
      cases hfd'
      exact ⟨rfl, congrArg some heq.symm⟩
    · exact (hheld fd' u hfd').2.elim
  · exact fun _ => ⟨fd, if_pos rfl⟩
  · rfl
  · intro hsock
    cases hserving hsock
  · intro c hc
    exact absurd hpc (h.closing c t hc).1
  · exact h.own_closes
  · intro hdead
    cases hdead

private theorem Orderliness.store (h : s.Orderliness) {fd : Option Nat}
    (hpc : s.pcs t = .opened fd) : ({ s with sock := fd }.setTask t .check : Dns).Orderliness := by
  have halive : s.pcs t ≠ .dead := by simp [hpc]
  obtain ⟨hheld, -⟩ := h.living halive
  rw [hpc] at hheld
  apply h.move halive
  · intro fd' u hfd'
    exact hheld fd' u hfd'
  · intro _
    exact h.starting t (by rw [hpc]; rfl)
  · rfl
  · exact fun _ => rfl
  · intro c hc
    exact absurd hpc ((h.closing c t hc).2 fd)
  · exact h.own_closes
  · intro hdead
    cases hdead

private theorem Orderliness.windDown (h : s.Orderliness) (halive : s.pcs t ≠ .dead) {pc : DnsPc}
    {task sock : Option Nat} {owner : Nat → Option Nat} {closes : List (Nat × Nat)}
    (hpc : pc = .clearSock ∨ pc = .clearTask ∨ pc = .dead) (hnone : ∀ fd, owner fd = none)
    (hserving : sock ≠ none → pc.serving = true) (hcloses : ∀ p ∈ closes, p.1 = p.2)
    (hhandle : pc = .dead → task = none) :
    ({ s with task := task, sock := sock, owner := owner, closes := closes }.setTask t pc :
      Dns).Orderliness := by
  have howner : ∀ fd u, owner fd ≠ some u := by
    intro fd u hfd
    rw [hnone] at hfd
    cases hfd
  apply h.move halive _ _ _ hserving _ hcloses hhandle
  · exact fun fd u hfd => absurd hfd (howner fd u)
  · rcases hpc with rfl | rfl | rfl <;> exact nofun
  · rcases hpc with rfl | rfl | rfl <;> rfl
  · intro c _
    refine ⟨?_, fun fd u hfd => absurd hfd (howner fd u)⟩
    rcases hpc with rfl | rfl | rfl <;> exact ⟨DnsPc.noConfusion, fun r => DnsPc.noConfusion⟩

private theorem Orderliness.closeOwn (h : s.Orderliness) {fd : Option Nat}
    (hpc : s.pcs t = .closing fd) : ((s.closeBy t fd).setTask t .clearSock : Dns).Orderliness := by
  have halive : s.pcs t ≠ .dead := by simp [hpc]
  obtain ⟨hheld, -⟩ := h.living halive
  rw [hpc] at hheld
  have hnone : ∀ fd', (s.closeBy t fd).owner fd' = none := by
    intro fd'
    cases hfd' : s.owner fd' with
    | none => simp [Dns.closeBy, Dns.close, hfd']
    | some u => simp [Dns.closeBy, Dns.close, (hheld fd' u hfd').2.1]
  apply h.windDown halive (.inl rfl) hnone
  · exact fun _ => rfl
  · exact closes_closeBy h.own_closes (fun fd u hfd => (hheld fd u hfd).1) fd
  · intro hdead
    cases hdead

private theorem Orderliness.leave (h : s.Orderliness) (hpc : s.pcs t = .clearSock) :
    ({ s with sock := none }.setTask t .clearTask : Dns).Orderliness := by
  have halive : s.pcs t ≠ .dead := by simp [hpc]
  obtain ⟨hheld, -⟩ := h.living halive
  rw [hpc] at hheld
  apply h.windDown halive (.inr (.inl rfl))
  · exact fun fd => Option.eq_none_iff_forall_ne_some.mpr fun u hfd => (hheld fd u hfd).2
  · exact fun hsock => absurd rfl hsock
  · exact h.own_closes
  · intro hdead
    cases hdead

private theorem Orderliness.die (h : s.Orderliness) (hpc : s.pcs t = .clearTask) :
    ({ s with task := none }.setTask t .dead : Dns).Orderliness := by
  have halive : s.pcs t ≠ .dead := by simp [hpc]
  obtain ⟨hheld, hserving⟩ := h.living halive
  rw [hpc] at hheld hserving
  apply h.windDown halive (.inr (.inr rfl))
  · exact fun fd => Option.eq_none_iff_forall_ne_some.mpr fun u hfd => (hheld fd u hfd).2
  · intro hsock
    cases hserving hsock
  · exact h.own_closes
  · exact fun _ => rfl

private theorem Orderliness.starting_sock (h : s.Orderliness) (halive : s.pcs t ≠ .dead)
    (hstarting : (s.pcs t).starting = true) (hopen : ∀ r, s.pcs t ≠ .opened r) :
    ∃ fd, s.owner fd = some t ∧ s.sock = some fd := by
  obtain ⟨fd, hfd⟩ := h.starting t hstarting
  exact ⟨fd, hfd, (((h.living halive).1 fd t hfd).2).sock_eq hopen⟩

private theorem taskStep_orderliness {s' : Dns} {a : DnsAnswers} (h : s.Orderliness)
    (hg : s.Orderly (.task t a)) (hs : s.taskStep t a = .ok s') : s'.Orderliness := by
  have hfailing := h.failing t
  simp only [taskStep, Orderly] at hs hg
  cases hpc : s.pcs t with
  | dead => simp [hpc] at hs
  | start =>
    simp only [hpc] at hs hg
    cases hsocket : a.socket with
    | none => exact absurd hsocket hg
    | some fd =>
      simp only [hsocket] at hs
      split at hs
      · cases hs
      · cases hs
        exact h.open hpc fd
  | opened fd =>
    simp only [hpc, Except.ok.injEq] at hs
    rw [← hs]
    exact h.store hpc
  | check =>
    simp only [hpc, Except.ok.injEq] at hs
    obtain ⟨fd, -, hsock⟩ := h.starting_sock (t := t) (by simp [hpc]) (by rw [hpc]; rfl) (by simp [hpc])
    rw [← hs, hsock]
    apply h.pass <;> simp [hpc, DnsPc.Reaches, DnsPc.starting, DnsPc.failing, DnsPc.serving]
  | bindLoad =>
    simp only [hpc, Except.ok.injEq] at hs
    rw [← hs]
    apply h.pass <;> simp [hpc, DnsPc.Reaches, DnsPc.starting, DnsPc.failing, DnsPc.serving]
  | binding fd =>
    simp only [hpc, Except.ok.injEq] at hs hg
    have hopen : s.isOpen fd = true := by
      obtain ⟨fd', hfd'⟩ := h.starting t (by rw [hpc]; rfl)
      have hheld := h.held fd' t hfd'
      rw [hpc] at hheld
      rw [hheld.1, isOpen, Option.bind_some, hfd']
      rfl
    rw [← hs, hg, hopen]
    apply h.pass <;> simp [hpc, DnsPc.Reaches, DnsPc.starting, DnsPc.failing, DnsPc.serving]
  | recvLoad =>
    simp only [hpc, Except.ok.injEq] at hs
    rw [← hs]
    apply h.pass <;> simp [hpc, DnsPc.Reaches, DnsPc.starting, DnsPc.failing, DnsPc.serving]
  | receiving fd =>
    simp only [hpc, Except.ok.injEq] at hs
    rw [← hs]
    split <;> apply h.pass <;> simp [hpc, DnsPc.Reaches, DnsPc.starting, DnsPc.failing, DnsPc.serving]
  | closeLoad =>
    simp only [hpc, Except.ok.injEq] at hs
    rw [← hs]
    apply h.pass <;> simp [hpc, DnsPc.Reaches, DnsPc.starting, DnsPc.failing, DnsPc.serving]
  | closing fd =>
    simp only [hpc, Except.ok.injEq] at hs
    rw [← hs]
    exact h.closeOwn hpc
  | clearSock =>
    simp only [hpc, Except.ok.injEq] at hs
    rw [← hs]
    exact h.leave hpc
  | clearTask =>
    simp only [hpc, Except.ok.injEq] at hs
    rw [← hs]
    exact h.die hpc
  | failCheck | failLoad | failClosing | failClear =>
    rw [hpc] at hfailing
    cases hfailing

private theorem step_orderliness {s' : Dns} {i : DnsInput} (h : s.Orderliness) (hg : s.Orderly i)
    (hs : s.step i = .ok s') : s'.Orderliness := by
  cases i with
  | call c call =>
    simp only [step] at hs
    split at hs
    · cases hs
      cases call <;> apply h.setCaller <;> simp [DnsCallPc.closing]
    · cases hs
  | caller c created => exact callerStep_orderliness h hg hs
  | task t a => exact taskStep_orderliness h hg hs

private theorem start_creates (hs : s.Exclusive) (hdead : ∀ t, s.pcs t = .dead)
    (hc : s.callers c = .startCheck) :
    s.callerStep c true = .ok (s.setCaller c .startCreate) := by
  simp [callerStep, hc, hs.restartable hdead]

/-- In every orderly run at most one DNS task has a socket open, no task closes the socket of
another, and whenever no task is alive the handle is NULL and a start creates a new one. -/
theorem orderly_run_exclusive (is : List DnsInput) (s : Dns) (hr : run step boot is = .ok s)
    (hg : RunAll step Orderly boot is) :
    s.Exclusive ∧ ((∀ t, s.pcs t = .dead) → ∀ c, s.callers c = .startCheck →
      s.callerStep c true = .ok (s.setCaller c .startCreate)) := by
  have hs : s.Orderliness :=
    run_invariant (fun _ _ _ h hg hs => step_orderliness h hg hs) orderliness_boot hg hr
  refine ⟨hs.exclusive, ?_⟩
  intro hdead c hc
  exact start_creates hs.exclusive hdead hc

/-- A whole call of `start_dns_server` that creates a task. -/
def starts (c : Nat) : List DnsInput := [.call c .start, .caller c true, .caller c true]

/-- A whole call of `stop_dns_server` that closes a socket. -/
def stops (c : Nat) : List DnsInput := .call c .stop :: List.replicate 5 (.caller c false)

/-- A new task gets the socket `fd`, binds it and waits for a query. -/
def serves (t fd : Nat) : List DnsInput :=
  [.task t { socket := some fd }, .task t {}, .task t {}, .task t {}, .task t { bound := true }, .task t {}]

/-- The receive of a task fails and the task ends. -/
def exits (t : Nat) : List DnsInput := List.replicate 5 (.task t {})

theorem orderly_run_exclusive_serving :
    ∃ s, run step boot (starts 0 ++ serves 0 54) = .ok s ∧
      RunAll step Orderly boot (starts 0 ++ serves 0 54) ∧
      s.pcs 0 = .receiving (some 54) ∧ s.owner 54 = some 0 ∧ s.Exclusive := by
  have hg : RunAll step Orderly boot (starts 0 ++ serves 0 54) := by
    iterate 2 refine runAll_cons_of_ok rfl trivial ?_
    refine runAll_cons_of_ok rfl (fun _ => ⟨fun _ => rfl, fun c => ?_⟩) ?_
    · simp only [boot, setCaller]
      split <;> rfl
    · refine runAll_cons_of_ok rfl (Option.some_ne_none 54) ?_
      iterate 3 refine runAll_cons_of_ok rfl trivial ?_
      exact runAll_cons_of_ok rfl rfl (runAll_cons_of_ok rfl trivial trivial)
  exact ⟨_, rfl, hg, rfl, rfl, (orderly_run_exclusive (starts 0 ++ serves 0 54) _ rfl hg).1⟩

/-- After a failed `bind` no task is left and the handle still stands, so that the next start
creates none. A task that exits after a restart closes the socket of its successor. A stop
before the task has its socket lets the next start create a second server beside the first. -/
theorem server_not_exclusive :
    (∃ s, run step boot (starts 0 ++ [.task 0 { socket := some 54 }] ++
        List.replicate 8 (.task 0 {}) ++ [.call 0 .start, .caller 0 true]) = .ok s ∧
      s.pcs 0 = .dead ∧ s.next = 1 ∧ s.task = some 0 ∧ s.callers 0 = .idle) ∧
    (∃ s, run step boot (starts 0 ++ serves 0 54 ++ stops 0 ++ starts 0 ++ serves 1 55 ++
        exits 0) = .ok s ∧ s.closes = [(0, 1)] ∧ s.pcs 1 = .receiving (some 55)) ∧
    ∃ s, run step boot (starts 0 ++ [.call 0 .stop, .caller 0 false, .caller 0 false] ++ starts 0 ++
        [.task 0 { socket := some 54 }, .task 1 { socket := some 55 }]) = .ok s ∧
      s.owner 54 = some 0 ∧ s.owner 55 = some 1 := by
  refine ⟨⟨_, rfl, ?_⟩, ⟨_, rfl, ?_⟩, ⟨_, rfl, ?_⟩⟩
  · decide
  · decide
  · decide

end Dns
end WirelessHub.Firmware
