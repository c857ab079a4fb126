import WirelessHub.Daemon.EventLoop

/-!
# Descriptor ownership

Every descriptor the hub owns sits in one slot: a pending socket, or one of the three
descriptors of a session. The well-formedness of a hub over a descriptor table says that
slots hold open descriptors and never share one, and ties the maps to the session heap.
Each operation of the hub keeps it, under the condition its callers establish.
-/

namespace WirelessHub

open Function

inductive Slot
  | pending (key : Fd)
  | tcp (p : SessionPtr)
  | vhci (p : SessionPtr)
  | kernel (p : SessionPtr)
  deriving DecidableEq

def slotFd (hub : HubServer) : Slot → Option Fd
  | .pending k => (hub.pendingTcpSocks k).map TcpSocket.fd
  | .tcp p => (hub.heap p).bind fun s => s.tcpSock.map TcpSocket.fd
  | .vhci p => (hub.heap p).map DeviceSession.vhciFd
  | .kernel p => (hub.heap p).map DeviceSession.kernelFd

/-- A descriptor that is open but in no slot and not a server socket. -/
structure Loose (hub : HubServer) (os : Os) (f : Fd) : Prop where
  opened : os.fds f ≠ none
  unowned : ∀ x, slotFd hub x ≠ some f
  reserved : f ≠ hub.udpFd ∧ f ≠ hub.tcpServerFd

/-- What every hub state keeps, whatever the order of events. Entries of the TCP map may be
stale; entries of the other maps are not. -/
structure Wf (hub : HubServer) (os : Os) : Prop where
  live : ∀ d p, hub.sessions d = some p → ∃ s, hub.heap p = some s ∧ s.deviceId = d
  owned : ∀ p s, hub.heap p = some s → hub.sessions s.deviceId = some p
  fresh : ∀ p, hub.nextPtr ≤ p → hub.heap p = none
  vhciMap : ∀ f p, hub.vhciFdMap f = some p ↔ ∃ s, hub.heap p = some s ∧ s.vhciFd = f
  usable : ∀ p s, hub.heap p = some s → ∃ sock h, s.tcpSock = some sock ∧ s.handler = some h ∧
    hub.tcpFdMap sock.fd = some p ∧ h.vhciFd = s.vhciFd ∧ h.sock = sock.fd ∧
    h.deviceId = s.deviceId
  pendingKey : ∀ k sock, hub.pendingTcpSocks k = some sock → sock.fd = k
  opened : ∀ x f, slotFd hub x = some f → os.fds f ≠ none
  unique : ∀ x y f, slotFd hub x = some f → slotFd hub y = some f → x = y
  reserved : ∀ x f, slotFd hub x = some f → f ≠ hub.udpFd ∧ f ≠ hub.tcpServerFd
  servers : os.fds hub.udpFd ≠ none ∧ os.fds hub.tcpServerFd ≠ none
  registered : ∀ f, os.epoll f ≠ none → os.fds f ≠ none
  blocking : ∀ p s, hub.heap p = some s → os.fds s.vhciFd = some .blocking

section Slots

variable {hub : HubServer} {p : SessionPtr} {s : DeviceSession}

theorem slotFd_vhci (h : hub.heap p = some s) : slotFd hub (.vhci p) = some s.vhciFd := by
  simp [slotFd, h]

theorem slotFd_kernel (h : hub.heap p = some s) : slotFd hub (.kernel p) = some s.kernelFd := by
  simp [slotFd, h]

theorem slotFd_tcp {sock : TcpSocket} (h : hub.heap p = some s) (ht : s.tcpSock = some sock) :
    slotFd hub (.tcp p) = some sock.fd := by
  simp [slotFd, h, ht]

theorem slotFd_pending {k : Fd} {sock : TcpSocket} (h : hub.pendingTcpSocks k = some sock) :
    slotFd hub (.pending k) = some sock.fd := by
  simp [slotFd, h]

theorem slotFd_addSession {x : Slot} {f : Fd} (h : slotFd (hub.addSession s) x = some f) :
    slotFd hub x = some f ∨ (x = .vhci hub.nextPtr ∧ f = s.vhciFd) ∨
      (x = .kernel hub.nextPtr ∧ f = s.kernelFd) ∨
      (x = .tcp hub.nextPtr ∧ ∃ sock, s.tcpSock = some sock ∧ f = sock.fd) := by
  cases x with
  | pending k => exact .inl h
  | vhci q | kernel q =>
    by_cases hq : q = hub.nextPtr
    · subst hq
      simp_all [slotFd, HubServer.addSession, eq_comm]
    · left
      simpa [slotFd, HubServer.addSession, hq] using h
  | tcp q =>
    by_cases hq : q = hub.nextPtr
    · subst hq
      simp only [slotFd, HubServer.addSession, update_self, Option.bind_some,
        Option.map_eq_some_iff] at h
      obtain ⟨sock, hs, hf⟩ := h
      exact .inr (.inr (.inr ⟨rfl, sock, hs, hf.symm⟩))
    · left
      simpa [slotFd, HubServer.addSession, hq] using h

theorem slotFd_dropSession {d : UInt8} {x : Slot} {f : Fd}
    (h : slotFd (hub.dropSession d p s) x = some f) :
    slotFd hub x = some f ∧ x ≠ .vhci p ∧ x ≠ .kernel p ∧ x ≠ .tcp p := by
  cases x with
  | pending k => exact ⟨h, by simp, by simp, by simp⟩
  | tcp q | vhci q | kernel q =>
    by_cases hq : q = p
    · subst hq
      simp [slotFd, HubServer.dropSession] at h
    · simp [slotFd, HubServer.dropSession, hq] at h ⊢
      exact h

theorem slotFd_extract {k : Fd} {x : Slot} {f : Fd}
    (h : slotFd { hub with pendingTcpSocks := update hub.pendingTcpSocks k none } x = some f) :
    slotFd hub x = some f ∧ x ≠ .pending k := by
  cases x with
  | pending q =>
    by_cases hq : q = k
    · subst hq
      simp [slotFd] at h
    · simp [slotFd, hq] at h ⊢
      exact h
  | tcp q | vhci q | kernel q => exact ⟨h, by simp⟩

theorem slotFd_addSession_of (hfresh : hub.heap hub.nextPtr = none) {x : Slot} {f : Fd}
    (h : slotFd hub x = some f) : slotFd (hub.addSession s) x = some f := by
  cases x with
  | pending k => exact h
  | tcp q | vhci q | kernel q =>
    have hq : q ≠ hub.nextPtr := by
      rintro rfl
      simp [slotFd, hfresh] at h
    simpa [slotFd, HubServer.addSession, hq] using h

theorem slotFd_dropSession_of {d : UInt8} {x : Slot} {f : Fd} (h : slotFd hub x = some f)
    (hx : x ≠ .vhci p ∧ x ≠ .kernel p ∧ x ≠ .tcp p) :
    slotFd (hub.dropSession d p s) x = some f := by
  cases x with
  | pending k => exact h
  | tcp q | vhci q | kernel q =>
    have hq : q ≠ p := by
      rintro rfl
      simp at hx
    simpa [slotFd, HubServer.dropSession, hq] using h

end Slots

section Tables

/-- The descriptor tables after some descriptors were closed. -/
structure Os.Closes (os os' : Os) (l : List Fd) : Prop where
  fds : ∀ f, os'.fds f = if f ∈ l then none else os.fds f
  epoll : ∀ f, os'.epoll f = if f ∈ l then none else os.epoll f

theorem Os.close_closes (os : Os) (f : Fd) : os.Closes (os.close f) [f] := by
  constructor <;> intro g <;> by_cases hg : g = f <;> simp [Os.close, hg]

private theorem Os.Closes.trans {a b c : Os} {l m : List Fd} (h : a.Closes b l)
    (h' : b.Closes c m) : a.Closes c (l ++ m) := by
  constructor
  · intro f
    rw [h'.fds, h.fds]
    by_cases hl : f ∈ l <;> by_cases hm : f ∈ m <;> simp [hl, hm]
  · intro f
    rw [h'.epoll, h.epoll]
    by_cases hl : f ∈ l <;> by_cases hm : f ∈ m <;> simp [hl, hm]

theorem Os.closeAll_closes (os : Os) (l : List Fd) : os.Closes (os.closeAll l) l := by
  induction l generalizing os with
  | nil => exact ⟨fun f => by simp [Os.closeAll], fun f => by simp [Os.closeAll]⟩
  | cons f l ih => exact (os.close_closes f).trans (ih (os.close f))

theorem Os.Closes.of_tables {os os₁ os' : Os} {l : List Fd} (h : os₁.Closes os' l)
    (hf : os₁.fds = os.fds) (he : os₁.epoll = os.epoll) : os.Closes os' l :=
  ⟨fun f => by rw [h.fds, hf], fun f => by rw [h.epoll, he]⟩

theorem Os.Closes.of_epollDel {os os' : Os} {f : Fd} {l : List Fd}
    (h : (os.epollDel f).Closes os' l) (hf : f ∈ l) : os.Closes os' l := by
  refine ⟨h.fds, fun g => ?_⟩
  rw [h.epoll]
  by_cases hg : g = f
  · subst hg
    simp [hf]
  · simp [Os.epollDel, hg]

end Tables

namespace Wf

variable {hub : HubServer} {os os' : Os}

theorem of_tables (h : Wf hub os) (hf : os'.fds = os.fds) (he : os'.epoll = os.epoll) :
    Wf hub os' where
  live := h.live
  owned := h.owned
  fresh := h.fresh
  vhciMap := h.vhciMap
  usable := h.usable
  pendingKey := h.pendingKey
  opened := hf ▸ h.opened
  unique := h.unique
  reserved := h.reserved
  servers := hf ▸ h.servers
  registered := hf ▸ he ▸ h.registered
  blocking := hf ▸ h.blocking

theorem unowned_of_free (h : Wf hub os) {f : Fd} (hf : os.fds f = none) (x : Slot) :
    slotFd hub x ≠ some f := fun hx => h.opened x f hx hf

theorem slotFd_pending_self (h : Wf hub os) {k : Fd} (hk : hub.pendingTcpSocks k ≠ none) :
    slotFd hub (.pending k) = some k := by
  obtain ⟨sock, hsock⟩ := Option.ne_none_iff_exists'.mp hk
  rw [slotFd_pending hsock, h.pendingKey k sock hsock]

theorem ne_of_free (h : Wf hub os) {f : Fd} (hf : os.fds f = none) :
    f ≠ hub.udpFd ∧ f ≠ hub.tcpServerFd :=
  ⟨fun he => h.servers.1 (he ▸ hf), fun he => h.servers.2 (he ▸ hf)⟩

private theorem opened_ne_none (os : Os) (f g : Fd) (m : FdMode) (h : os.fds g ≠ none) :
    (os.opened f m).fds g ≠ none := by
  by_cases hg : g = f <;> simp [Os.opened, hg, h]

theorem open_free (h : Wf hub os) {f : Fd} (hf : os.fds f = none) (m : FdMode) :
    Wf hub (os.opened f m) ∧ Loose hub (os.opened f m) f := by
  refine ⟨{ h with
    opened := fun x g hx => opened_ne_none os f g m (h.opened x g hx)
    servers := ⟨opened_ne_none os f _ m h.servers.1, opened_ne_none os f _ m h.servers.2⟩
    registered := fun g hg => opened_ne_none os f g m (h.registered g hg)
    blocking := fun p s hs => ?_ }, ?_, h.unowned_of_free hf, h.ne_of_free hf⟩
  · have hne : s.vhciFd ≠ f := fun he => h.unowned_of_free hf (.vhci p) (he ▸ slotFd_vhci hs)
    simpa [Os.opened, hne] using h.blocking p s hs
  · simp [Os.opened]

theorem close_loose (h : Wf hub os) {l : List Fd} (hl : ∀ f ∈ l, Loose hub os f)
    (hc : os.Closes os' l) : Wf hub os' := by
  have hkeep : ∀ x g, slotFd hub x = some g → g ∉ l :=
    fun x g hx hg => (hl g hg).unowned x hx
  refine { h with
    opened := fun x g hx => ?_
    servers := ⟨?_, ?_⟩
    registered := fun g hg => ?_
    blocking := fun p s hs => ?_ }
  · rw [hc.fds, if_neg (hkeep x g hx)]
    exact h.opened x g hx
  · rw [hc.fds, if_neg fun hg => (hl _ hg).reserved.1 rfl]
    exact h.servers.1
  · rw [hc.fds, if_neg fun hg => (hl _ hg).reserved.2 rfl]
    exact h.servers.2
  · rw [hc.epoll] at hg
    by_cases hm : g ∈ l
    · simp [hm] at hg
    · rw [hc.fds, if_neg hm]
      exact h.registered g (by simpa [hm] using hg)
  · rw [hc.fds, if_neg (hkeep _ _ (slotFd_vhci hs))]
    exact h.blocking p s hs

theorem epollAdd (h : Wf hub os) {f : Fd} (hf : os.fds f ≠ none) (evts : EventMask) (ok : Bool) :
    Wf hub (os.epollAdd f evts ok) := by
  cases ok with
  | false => exact h
  | true =>
    refine { h with registered := fun g hg => ?_ }
    by_cases hgf : g = f
    · exact hgf ▸ hf
    · exact h.registered g (by simpa [Os.epollAdd, hgf] using hg)

theorem accept (h : Wf hub os) {f : Fd} (hf : os.fds f = none) (m : FdMode) :
    Wf { hub with pendingTcpSocks := update hub.pendingTcpSocks f (some ⟨f⟩) } (os.opened f m) := by
  obtain ⟨h', hl⟩ := h.open_free hf m
  have hslot : ∀ x g, slotFd { hub with
      pendingTcpSocks := update hub.pendingTcpSocks f (some ⟨f⟩) } x = some g →
      slotFd hub x = some g ∨ (x = .pending f ∧ g = f) := by
    intro x g hx
    cases x with
    | pending k =>
      by_cases hk : k = f
      · subst hk
        exact .inr ⟨rfl, by simpa [slotFd, eq_comm] using hx⟩
      · exact .inl (by simpa [slotFd, hk] using hx)
    | tcp q | vhci q | kernel q => exact .inl hx
  refine { h' with pendingKey := ?_, opened := ?_, unique := ?_, reserved := ?_ }
  · intro k sock hk
    by_cases hkf : k = f
    · subst hkf
      simp only [update_self, Option.some.injEq] at hk
      rw [← hk]
    · exact h.pendingKey k sock (by simpa [hkf] using hk)
  · intro x g hx
    rcases hslot x g hx with hx | ⟨-, rfl⟩
    · exact h'.opened x g hx
    · exact hl.opened
  · intro x y g hx hy
    rcases hslot x g hx with hx | ⟨hx, hgx⟩ <;> rcases hslot y g hy with hy | ⟨hy, hgy⟩
    · exact h.unique x y g hx hy
    · exact absurd (hgy ▸ hx) (hl.unowned x)
    · exact absurd (hgx ▸ hy) (hl.unowned y)
    · rw [hx, hy]
  · intro x g hx
    rcases hslot x g hx with hx | ⟨-, rfl⟩
    · exact h.reserved x g hx
    · exact hl.reserved

theorem extract (h : Wf hub os) {k : Fd} {sock : TcpSocket}
    (hk : hub.pendingTcpSocks k = some sock) :
    Wf { hub with pendingTcpSocks := update hub.pendingTcpSocks k none } os ∧
      Loose { hub with pendingTcpSocks := update hub.pendingTcpSocks k none } os sock.fd := by
  have hslot := slotFd_pending hk
  refine ⟨{ h with
    pendingKey := fun q t hq => ?_
    opened := fun x g hx => h.opened x g (slotFd_extract hx).1
    unique := fun x y g hx hy => h.unique x y g (slotFd_extract hx).1 (slotFd_extract hy).1
    reserved := fun x g hx => h.reserved x g (slotFd_extract hx).1 },
    h.opened _ _ hslot, fun x hx => ?_, h.reserved _ _ hslot⟩
  · by_cases hqk : q = k
    · simp [hqk] at hq
    · exact h.pendingKey q t (by simpa [hqk] using hq)
  · exact (slotFd_extract hx).2 (h.unique _ _ _ (slotFd_extract hx).1 hslot)

theorem sessionFds_slot {p : SessionPtr} {s t : DeviceSession} (hs : hub.heap p = some s)
    (ht : t = s ∨ t = { s with tcpSock := none }) {f : Fd} (hf : f ∈ Daemon.sessionFds t) :
    ∃ x, slotFd hub x = some f ∧ (x = .vhci p ∨ x = .kernel p ∨ x = .tcp p) := by
  have hf' : f = s.vhciFd ∨ f = s.kernelFd ∨ ∃ sock, s.tcpSock = some sock ∧ f = sock.fd := by
    rcases ht with rfl | rfl <;> simp [Daemon.sessionFds] at hf <;> tauto
  rcases hf' with rfl | rfl | ⟨sock, hsock, rfl⟩
  · exact ⟨_, slotFd_vhci hs, .inl rfl⟩
  · exact ⟨_, slotFd_kernel hs, .inr (.inl rfl)⟩
  · exact ⟨_, slotFd_tcp hs hsock, .inr (.inr rfl)⟩

theorem dropSession_disjoint (h : Wf hub os) {p : SessionPtr} {s t : DeviceSession}
    (hs : hub.heap p = some s) (ht : t = s ∨ t = { s with tcpSock := none }) {d : UInt8}
    {x : Slot} {g : Fd} (hx : slotFd (hub.dropSession d p t) x = some g) :
    g ∉ Daemon.sessionFds t := by
  intro hg
  obtain ⟨hx, hv, hk, htc⟩ := slotFd_dropSession hx
  obtain ⟨y, hy, hy'⟩ := sessionFds_slot hs ht hg
  have he := h.unique x y g hx hy
  rcases hy' with rfl | rfl | rfl
  · exact hv he
  · exact hk he
  · exact htc he

theorem drop (h : Wf hub os) {p : SessionPtr} {s t : DeviceSession} (hs : hub.heap p = some s)
    (ht : t = s ∨ t = { s with tcpSock := none })
    (hc : os.Closes os' (Daemon.sessionFds t)) : Wf (hub.dropSession s.deviceId p t) os' := by
  obtain ⟨sock, h₀, hsock, -, hmap, -⟩ := h.usable p s hs
  have htv : t.vhciFd = s.vhciFd := by rcases ht with rfl | rfl <;> rfl
  have hserver : ∀ g, (∀ x f, slotFd hub x = some f → f ≠ g) → os.fds g ≠ none →
      os'.fds g ≠ none := by
    intro g hg ho
    rw [hc.fds, if_neg]
    · exact ho
    · intro hm
      obtain ⟨x, hx, -⟩ := sessionFds_slot hs ht hm
      exact hg x g hx rfl
  refine
    { live := ?_, owned := ?_, fresh := ?_, vhciMap := ?_, usable := ?_
      pendingKey := h.pendingKey
      opened := ?_
      unique := fun x y g hx hy =>
        h.unique x y g (slotFd_dropSession hx).1 (slotFd_dropSession hy).1
      reserved := fun x g hx => h.reserved x g (slotFd_dropSession hx).1
      servers := ⟨hserver _ (fun x f hx => (h.reserved x f hx).1) h.servers.1,
        hserver _ (fun x f hx => (h.reserved x f hx).2) h.servers.2⟩
      registered := ?_, blocking := ?_ }
  · intro d q hq
    by_cases hd : d = s.deviceId
    · simp [HubServer.dropSession, hd] at hq
    · have hq' : hub.sessions d = some q := by simpa [HubServer.dropSession, hd] using hq
      obtain ⟨r, hr, hrd⟩ := h.live d q hq'
      have hqp : q ≠ p := by
        rintro rfl
        rw [hs, Option.some.injEq] at hr
        exact hd (by rw [← hrd, ← hr])
      exact ⟨r, by simpa [HubServer.dropSession, hqp] using hr, hrd⟩
  · intro q r hq
    obtain ⟨hqp, hr⟩ := HubServer.heap_of_dropSession hq
    have hrs := h.owned q r hr
    have hne : r.deviceId ≠ s.deviceId := by
      intro he
      rw [he, h.owned p s hs, Option.some.injEq] at hrs
      exact hqp hrs.symm
    simpa [HubServer.dropSession, hne] using hrs
  · intro q hq
    have := h.fresh q hq
    by_cases hqp : q = p <;> simp [HubServer.dropSession, hqp, this]
  · intro f q
    by_cases hf : f = s.vhciFd
    · subst hf
      simp only [HubServer.dropSession, htv, update_self, reduceCtorEq, false_iff, not_exists,
        not_and]
      intro r hr hrv
      have hr' : (hub.dropSession s.deviceId p t).heap q = some r := hr
      obtain ⟨hqp, hr⟩ := HubServer.heap_of_dropSession hr'
      have he := h.unique _ _ _ (slotFd_vhci hr) (hrv ▸ slotFd_vhci hs)
      exact hqp (Slot.vhci.inj he)
    · simp only [HubServer.dropSession, htv, update_of_ne hf, h.vhciMap]
      constructor
      · rintro ⟨r, hr, hrv⟩
        have hqp : q ≠ p := by
          rintro rfl
          rw [hs, Option.some.injEq] at hr
          exact hf (by rw [← hrv, ← hr])
        exact ⟨r, by simpa [hqp] using hr, hrv⟩
      · rintro ⟨r, hr, hrv⟩
        have hr' : (hub.dropSession s.deviceId p t).heap q = some r := hr
        exact ⟨r, (HubServer.heap_of_dropSession hr').2, hrv⟩
  · intro q r hq
    obtain ⟨hqp, hr⟩ := HubServer.heap_of_dropSession hq
    obtain ⟨sock', h', hs', hh', hm', hrest⟩ := h.usable q r hr
    refine ⟨sock', h', hs', hh', ?_, hrest⟩
    have hne : sock'.fd ≠ sock.fd := by
      intro he
      have := h.unique _ _ _ (slotFd_tcp hr hs') (he ▸ slotFd_tcp hs hsock)
      exact hqp (Slot.tcp.inj this)
    rcases ht with rfl | rfl
    · simpa [HubServer.dropSession, hsock, hne] using hm'
    · simpa [HubServer.dropSession] using hm'
  · intro x g hx
    rw [hc.fds, if_neg (dropSession_disjoint h hs ht hx)]
    exact h.opened x g (slotFd_dropSession hx).1
  · intro g hg
    rw [hc.epoll] at hg
    by_cases hm : g ∈ Daemon.sessionFds t
    · simp [hm] at hg
    · rw [hc.fds, if_neg hm]
      exact h.registered g (by simpa [hm] using hg)
  · intro q r hq
    rw [hc.fds, if_neg (dropSession_disjoint h hs ht (slotFd_vhci hq))]
    exact h.blocking q r (HubServer.heap_of_dropSession hq).2

private theorem ne_nextPtr (h : Wf hub os) {q : SessionPtr} {r : DeviceSession}
    (hq : hub.heap q = some r) : q ≠ hub.nextPtr := by
  intro heq
  rw [heq, h.fresh _ (Nat.le_refl _)] at hq
  cases hq

private theorem vhciFdMap_addSession (h : Wf hub os) {s : DeviceSession}
    (hv : ∀ x, slotFd hub x ≠ some s.vhciFd) (f : Fd) (q : SessionPtr) :
    (hub.addSession s).vhciFdMap f = some q ↔
      ∃ r, (hub.addSession s).heap q = some r ∧ r.vhciFd = f := by
  by_cases hf : f = s.vhciFd
  · subst hf
    simp only [HubServer.addSession, update_self, Option.some.injEq]
    constructor
    · rintro rfl
      exact ⟨s, by simp, rfl⟩
    · rintro ⟨r, hr, hrv⟩
      have hr' : (hub.addSession s).heap q = some r := hr
      rcases HubServer.heap_of_addSession hr' with ⟨hq, -⟩ | ⟨-, hr⟩
      · exact hq.symm
      · exact absurd (hrv ▸ slotFd_vhci hr) (hv _)
  · simp only [HubServer.addSession, update_of_ne hf, h.vhciMap]
    constructor
    · rintro ⟨r, hr, hrv⟩
      exact ⟨r, by simpa [h.ne_nextPtr hr] using hr, hrv⟩
    · rintro ⟨r, hr, hrv⟩
      have hr' : (hub.addSession s).heap q = some r := hr
      rcases HubServer.heap_of_addSession hr' with ⟨-, rfl⟩ | ⟨-, hr⟩
      · exact absurd hrv.symm hf
      · exact ⟨r, hr, hrv⟩

theorem add (h : Wf hub os) {s : DeviceSession} {sock : TcpSocket}
    (hd : hub.sessions s.deviceId = none) (hsock : s.tcpSock = some sock)
    (hh : s.handler = some ⟨s.vhciFd, sock.fd, s.deviceId, 0⟩)
    (hv : Loose hub os s.vhciFd) (hk : Loose hub os s.kernelFd) (ht : Loose hub os sock.fd)
    (hvk : s.vhciFd ≠ s.kernelFd) (hvt : s.vhciFd ≠ sock.fd) (hkt : s.kernelFd ≠ sock.fd)
    (hb : os.fds s.vhciFd = some .blocking) : Wf (hub.addSession s) os := by
  have hslot : ∀ x g, slotFd (hub.addSession s) x = some g →
      slotFd hub x = some g ∨ (x = .vhci hub.nextPtr ∧ g = s.vhciFd) ∨
        (x = .kernel hub.nextPtr ∧ g = s.kernelFd) ∨ (x = .tcp hub.nextPtr ∧ g = sock.fd) := by
    intro x g hx
    simpa [hsock] using slotFd_addSession hx
  -- what holds of the descriptors that are owned and of the three new ones
  have hall : ∀ P : Fd → Prop, (∀ x g, slotFd hub x = some g → P g) → P s.vhciFd → P s.kernelFd →
      P sock.fd → ∀ x g, slotFd (hub.addSession s) x = some g → P g := by
    intro P hP hPv hPk hPt x g hx
    rcases hslot x g hx with hx | ⟨-, rfl⟩ | ⟨-, rfl⟩ | ⟨-, rfl⟩
    · exact hP x g hx
    · exact hPv
    · exact hPk
    · exact hPt
  have hold : ∀ q r, hub.heap q = some r → r.deviceId ≠ s.deviceId := by
    intro q r hq he
    have := h.owned q r hq
    rw [he, hd] at this
    exact absurd this (by simp)
  refine
    { live := ?_, owned := ?_, fresh := ?_, vhciMap := ?_, usable := ?_
      pendingKey := h.pendingKey
      opened := ?_, unique := ?_, reserved := ?_
      servers := h.servers
      registered := h.registered
      blocking := ?_ }
  · intro d q hq
    by_cases hds : d = s.deviceId
    · have hqn : q = hub.nextPtr := by simpa [HubServer.addSession, hds, eq_comm] using hq
      exact ⟨s, by simp [HubServer.addSession, hqn], hds.symm⟩
    · obtain ⟨r, hr, hrd⟩ := h.live d q (by simpa [HubServer.addSession, hds] using hq)
      exact ⟨r, by simpa [HubServer.addSession, h.ne_nextPtr hr] using hr, hrd⟩
  · intro q r hq
    rcases HubServer.heap_of_addSession hq with ⟨rfl, rfl⟩ | ⟨-, hr⟩
    · simp [HubServer.addSession]
    · simpa [HubServer.addSession, hold q r hr] using h.owned q r hr
  · intro q hq
    have hlt : hub.nextPtr + 1 ≤ q := hq
    have hne : q ≠ hub.nextPtr := by rintro rfl; exact Nat.not_succ_le_self _ hlt
    simpa [HubServer.addSession, hne] using h.fresh q (Nat.le_of_succ_le hlt)
  · exact h.vhciFdMap_addSession hv.unowned
  · intro q r hq
    rcases HubServer.heap_of_addSession hq with ⟨rfl, rfl⟩ | ⟨-, hr⟩
    · exact ⟨sock, _, hsock, hh, by simp [HubServer.addSession, hsock], rfl, rfl, rfl⟩
    · obtain ⟨sock', h', hs', hh', hm', hrest⟩ := h.usable q r hr
      have hne : sock'.fd ≠ sock.fd := fun he => ht.unowned _ (he ▸ slotFd_tcp hr hs')
      exact ⟨sock', h', hs', hh', by simpa [HubServer.addSession, hsock, hne] using hm', hrest⟩
  · exact hall _ h.opened hv.opened hk.opened ht.opened
  · intro x y g hx hy
    rcases hslot x g hx with hx | ⟨rfl, hgx⟩ | ⟨rfl, hgx⟩ | ⟨rfl, hgx⟩ <;>
      rcases hslot y g hy with hy | ⟨rfl, hgy⟩ | ⟨rfl, hgy⟩ | ⟨rfl, hgy⟩
    · exact h.unique x y g hx hy
    all_goals grind [Loose.unowned]
  · exact hall _ h.reserved hv.reserved hk.reserved ht.reserved
  · intro q r hq
    rcases HubServer.heap_of_addSession hq with ⟨-, rfl⟩ | ⟨-, hr⟩
    · exact hb
    · exact h.blocking q r hr

theorem forward (h : Wf hub os) {p : SessionPtr} {s : DeviceSession} {h₀ h₁ : PassthroughHandler}
    (hs : hub.heap p = some s) (hh : s.handler = some h₀) (hv : h₁.vhciFd = h₀.vhciFd)
    (hk : h₁.sock = h₀.sock) (hd : h₁.deviceId = h₀.deviceId) :
    Wf { hub with heap := update hub.heap p (some { s with handler := some h₁ }) } os := by
  have hslot : ∀ x, slotFd { hub with
      heap := update hub.heap p (some { s with handler := some h₁ }) } x = slotFd hub x := by
    intro x
    cases x with
    | pending k => rfl
    | tcp q | vhci q | kernel q => by_cases hqp : q = p <;> simp [slotFd, hqp, hs]
  refine
    { live := ?_, owned := ?_, fresh := ?_, vhciMap := ?_, usable := ?_
      pendingKey := h.pendingKey
      opened := fun x f hx => h.opened x f (hslot x ▸ hx)
      unique := fun x y f hx hy => h.unique x y f (hslot x ▸ hx) (hslot y ▸ hy)
      reserved := fun x f hx => h.reserved x f (hslot x ▸ hx)
      servers := h.servers
      registered := h.registered
      blocking := ?_ }
  · intro d q hq
    obtain ⟨r, hr, hrd⟩ := h.live d q hq
    by_cases hqp : q = p
    · subst hqp
      rw [hs, Option.some.injEq] at hr
      exact ⟨{ s with handler := some h₁ }, by simp, hr ▸ hrd⟩
    · exact ⟨r, by simpa [hqp] using hr, hrd⟩
  · intro q r hq
    rcases HubServer.heap_of_update hq with ⟨rfl, rfl⟩ | ⟨-, hr⟩
    · exact h.owned q s hs
    · exact h.owned q r hr
  · intro q hq
    have hqp : q ≠ p := by
      rintro rfl
      rw [h.fresh q hq] at hs
      exact absurd hs (by simp)
    simpa [hqp] using h.fresh q hq
  · intro f q
    rw [h.vhciMap]
    by_cases hqp : q = p
    · subst hqp
      simp [hs]
    · simp [hqp]
  · intro q r hq
    rcases HubServer.heap_of_update hq with ⟨rfl, rfl⟩ | ⟨-, hr⟩
    · obtain ⟨sock, h', hs', hh', hm', hv', hk', hd'⟩ := h.usable q s hs
      rw [hh, Option.some.injEq] at hh'
      subst hh'
      exact ⟨sock, h₁, hs', rfl, hm', hv.trans hv', hk.trans hk', hd.trans hd'⟩
    · exact h.usable q r hr
  · intro q r hq
    rcases HubServer.heap_of_update hq with ⟨rfl, rfl⟩ | ⟨-, hr⟩
    · exact h.blocking q s hs
    · exact h.blocking q r hr

end Wf
end WirelessHub
