import WirelessHub.Firmware.WifiManager
import WirelessHub.Framework.Run

/-!
# The bits of the WiFi manager and the history of its events

Each bit and the retry counter are functions of the mode the manager was started in and of the
events since the last address. The bit for an authentication failure stays set over later
disconnects of another kind, and a disconnect while the setup network is up sets the bit for a
connection attempt beside its own.
-/

namespace WirelessHub.Firmware

open Framework

def WifiEvent.isDisconnect : WifiEvent → Bool
  | .staDisconnected _ => true
  | _ => false

/-- What can decide between the bits for a connection and for its loss. -/
inductive WifiMark
  | gotIp | disconnected | apStart
  deriving DecidableEq, Repr

def WifiEvent.mark : WifiEvent → Option WifiMark
  | .gotIp => some .gotIp
  | .staDisconnected _ => some .disconnected
  | _ => none

namespace Wifi

/-- The latest of the marks since the start. -/
def latest (mode : WifiMode) (es : List WifiEvent) : Option WifiMark :=
  (es.filterMap WifiEvent.mark).getLast?.or (if mode = .ap then some .apStart else none)

/-- The events since the later of the start and the last address. -/
def sinceIp (es : List WifiEvent) : List WifiEvent := es.rtakeWhile (· ≠ .gotIp)

/-- The disconnects since then. -/
def drops (es : List WifiEvent) : List WifiEvent := (sinceIp es).filter WifiEvent.isDisconnect

def ApActive (mode : WifiMode) (es : List WifiEvent) : Prop :=
  mode = .ap ∧ .gotIp ∉ es ∨ 6 ≤ (drops es).length

def Attempting (mode : WifiMode) (es : List WifiEvent) : Prop :=
  (drops es).length % 6 ≠ 0 ∨ mode = .sta ∧ .gotIp ∉ es ∧ drops es = []

/-- One of the disconnects was an authentication failure. -/
def AuthDrop (es : List WifiEvent) : Prop :=
  ∃ reason : DisconnectReason, .staDisconnected reason ∈ drops es ∧ reason.isAuth = true

variable {mode : WifiMode} {es : List WifiEvent} {e : WifiEvent} {w : Wifi}

/-! ## One more event -/

private theorem drops_gotIp (es : List WifiEvent) : drops (es ++ [.gotIp]) = [] := by
  rw [drops, sinceIp, List.rtakeWhile_concat_neg _ _ _ (by simp)]
  rfl

private theorem drops_of_ne_gotIp (he : e ≠ .gotIp) :
    drops (es ++ [e]) = drops es ++ [e].filter WifiEvent.isDisconnect := by
  rw [drops, sinceIp, List.rtakeWhile_concat_pos _ _ _ (by simpa using he), List.filter_append]
  rfl

private theorem drops_disconnect (es : List WifiEvent) (reason : DisconnectReason) :
    drops (es ++ [.staDisconnected reason]) = drops es ++ [.staDisconnected reason] :=
  drops_of_ne_gotIp WifiEvent.noConfusion

private theorem latest_of_mark {m : WifiMark} (h : e.mark = some m) : latest mode
    (es ++ [e]) = some m := by
  rw [latest, List.filterMap_append, List.filterMap_cons_some h, List.filterMap_nil,
    List.getLast?_concat, Option.some_or]

/-- The other events change nothing but the driver. -/
structure Quiet (e : WifiEvent) : Prop where
  mark : e.mark = none
  state : ∀ w : Wifi, (w.wifiEventHandler e).1 = w
  calls : ∀ w : Wifi, .startApMode ∉ (w.wifiEventHandler e).2

private theorem event_cases (e : WifiEvent) :
    e = .gotIp ∨ (∃ reason, e = .staDisconnected reason) ∨ Quiet e := by
  cases e with
  | gotIp => exact .inl rfl
  | staDisconnected reason => exact .inr (.inl ⟨reason, rfl⟩)
  | staStart | apStaConnected | otherWifi =>
    refine .inr (.inr ⟨rfl, fun _ => rfl, fun _ => ?_⟩)
    simp [wifiEventHandler]

private theorem Quiet.ne_gotIp (h : Quiet e) : e ≠ .gotIp := by
  rintro rfl
  cases h.mark

private theorem Quiet.drops (h : Quiet e) : drops (es ++ [e]) = drops es := by
  have hnot : e.isDisconnect = false := by
    cases e with
    | staDisconnected reason => cases h.mark
    | staStart | apStaConnected | otherWifi | gotIp => rfl
  rw [drops_of_ne_gotIp h.ne_gotIp, List.filter_cons_of_neg (by simp [hnot]), List.filter_nil,
    List.append_nil]

private theorem Quiet.latest (h : Quiet e) : latest mode (es ++ [e]) = latest mode es := by
  rw [Wifi.latest, List.filterMap_append, List.filterMap_cons_none h.mark, List.filterMap_nil,
    List.append_nil]
  rfl

private theorem Quiet.mem (h : Quiet e) : .gotIp ∈ es ++ [e] ↔ .gotIp ∈ es := by
  simp [Ne.symm h.ne_gotIp]

/-- What every disconnect does to the bits. -/
def dropped (w : Wifi) (reason : DisconnectReason) : Wifi :=
  let w := (w.clearBits [.ready, .connecting]).setBits [.lost]
  if reason.isAuth then w.setBits [.authFail] else w

theorem dropped_bits (w : Wifi) (reason : DisconnectReason) (b : WifiBit) :
    (w.dropped reason).bits b = match b with
      | .ready => false
      | .lost => true
      | .apMode => w.bits .apMode
      | .connecting => false
      | .authFail => w.bits .authFail || reason.isAuth := by
  cases hauth : reason.isAuth <;> cases b <;> simp [dropped, clearBits, setBits, hauth]

theorem dropped_retryCount (w : Wifi) (reason : DisconnectReason) :
    (w.dropped reason).retryCount = w.retryCount := by
  unfold dropped
  dsimp only
  split <;> rfl

/-- A disconnect is answered by another attempt or, after five of them, by the setup network. -/
theorem disconnect_cases (w : Wifi) (reason : DisconnectReason) :
    (w.retryCount < 5 ∧ w.wifiEventHandler (.staDisconnected reason) =
      ({ w.dropped reason with retryCount := w.retryCount + 1 }.setBits [.connecting], [.connect])) ∨
    (5 ≤ w.retryCount ∧ w.wifiEventHandler (.staDisconnected reason) =
      { w.dropped reason with retryCount := 0 }.startApMode) := by
  by_cases hretry : w.retryCount < 5
  · refine .inl ⟨hretry, ?_⟩
    rw [← w.dropped_retryCount reason] at hretry ⊢
    exact if_pos hretry
  · refine .inr ⟨Nat.le_of_not_lt hretry, ?_⟩
    rw [← w.dropped_retryCount reason] at hretry
    exact if_neg hretry

private theorem disconnect_bits (w : Wifi) (reason : DisconnectReason) (b : WifiBit) :
    (w.wifiEventHandler (.staDisconnected reason)).1.bits b = match b with
      | .ready => false
      | .lost => true
      | .apMode => w.bits .apMode || decide (5 ≤ w.retryCount)
      | .connecting => decide (w.retryCount < 5)
      | .authFail => w.bits .authFail || reason.isAuth := by
  rcases w.disconnect_cases reason with ⟨hretry, heq⟩ | ⟨hretry, heq⟩
  · have hnot : ¬5 ≤ w.retryCount := Nat.not_le.mpr hretry
    rw [heq]
    cases b <;> simp [setBits, dropped_bits, hretry, hnot]
  · have hnot : ¬w.retryCount < 5 := Nat.not_lt.mpr hretry
    rw [heq]
    cases b <;> simp [startApMode, openAp, apBits, clearBits, setBits, dropped_bits, hretry, hnot]

private theorem disconnect_retryCount (w : Wifi) (reason : DisconnectReason) :
    (w.wifiEventHandler (.staDisconnected reason)).1.retryCount =
      if w.retryCount < 5 then w.retryCount + 1 else 0 := by
  rcases w.disconnect_cases reason with ⟨hretry, heq⟩ | ⟨hretry, heq⟩
  · rw [heq, if_pos hretry]
    rfl
  · rw [heq, if_neg (Nat.not_lt.mpr hretry)]
    rfl

private theorem disconnect_calls (w : Wifi) (reason : DisconnectReason) :
    .startApMode ∈ (w.wifiEventHandler (.staDisconnected reason)).2 ↔ 5 ≤ w.retryCount := by
  rcases w.disconnect_cases reason with ⟨hretry, heq⟩ | ⟨hretry, heq⟩
  · rw [heq]
    simpa using hretry
  · rw [heq]
    simpa [startApMode] using hretry

private theorem gotIp_bits (w : Wifi) (b : WifiBit) :
    (w.wifiEventHandler .gotIp).1.bits b = decide (b = .ready) := by
  cases b <;> rfl

/-! ## The whole history -/

/-- The state is what the history makes of it. -/
structure Follows (mode : WifiMode) (es : List WifiEvent) (w : Wifi) : Prop where
  retry : w.retryCount = (drops es).length % 6
  ready : w.bits .ready = true ↔ latest mode es = some .gotIp
  lost : w.bits .lost = true ↔ ∃ m, latest mode es = some m ∧ m ≠ .gotIp
  exclusive : w.bits .ready = true →
    w.bits .apMode = false ∧ w.bits .connecting = false ∧ w.bits .authFail = false
  apMode : w.bits .apMode = true ↔ ApActive mode es
  connecting : w.bits .connecting = true ↔ Attempting mode es
  authFail : w.bits .authFail = true ↔ AuthDrop es

private theorem follows_start (mode : WifiMode) : Follows mode [] (start mode).1 := by
  cases mode with
  | sta => constructor <;> simp [start, startStaMode, boot, setBits, clearBits, latest, drops,
      sinceIp, ApActive, Attempting, AuthDrop]
  | ap => constructor <;> simp [start, startApMode, scanned, openAp, apBits, boot, setBits,
      clearBits, latest, drops, sinceIp, ApActive, Attempting, AuthDrop]

private theorem follows_gotIp (mode : WifiMode) (es : List WifiEvent) (w : Wifi) :
    Follows mode (es ++ [.gotIp]) (w.wifiEventHandler .gotIp).1 := by
  have hlatest : latest mode (es ++ [.gotIp]) = some .gotIp := latest_of_mark rfl
  have hdrops := drops_gotIp es
  constructor
  · rw [hdrops]
    rfl
  · simp [gotIp_bits, hlatest]
  · simp [gotIp_bits, hlatest]
  · simp [gotIp_bits]
  · simp [gotIp_bits, ApActive, hdrops]
  · simp [gotIp_bits, Attempting, hdrops]
  · simp [gotIp_bits, AuthDrop, hdrops]

private theorem authDrop_disconnect (es : List WifiEvent) (reason : DisconnectReason) :
    AuthDrop (es ++ [.staDisconnected reason]) ↔ AuthDrop es ∨ reason.isAuth = true := by
  unfold AuthDrop
  rw [drops_disconnect]
  constructor
  · intro h
    obtain ⟨r, hmem, hauth⟩ := h
    rw [List.mem_append, List.mem_singleton] at hmem
    cases hmem with
    | inl hold => exact .inl ⟨r, hold, hauth⟩
    | inr hnew =>
      rw [WifiEvent.staDisconnected.injEq] at hnew
      exact .inr (hnew ▸ hauth)
  · intro h
    cases h with
    | inl hold =>
      obtain ⟨r, hmem, hauth⟩ := hold
      exact ⟨r, List.mem_append_left _ hmem, hauth⟩
    | inr hauth => exact ⟨reason, List.mem_append_right _ List.mem_cons_self, hauth⟩

private theorem Follows.disconnect (h : Follows mode es w) (reason : DisconnectReason) :
    Follows mode (es ++ [.staDisconnected reason]) (w.wifiEventHandler (.staDisconnected reason)).1 := by
  have hlatest : latest mode (es ++ [.staDisconnected reason]) = some .disconnected := latest_of_mark rfl
  have hlen : (drops (es ++ [.staDisconnected reason])).length = (drops es).length + 1 := by
    rw [drops_disconnect, List.length_append, List.length_singleton]
  have hne : drops (es ++ [.staDisconnected reason]) ≠ [] := by
    apply List.ne_nil_of_length_pos
    omega
  have hretry := h.retry
  constructor
  · rw [disconnect_retryCount, hlen]
    split <;> omega
  · simp [disconnect_bits, hlatest]
  · simp [disconnect_bits, hlatest]
  · simp [disconnect_bits]
  · have hmem : WifiEvent.gotIp ∈ es ++ [.staDisconnected reason] ↔ .gotIp ∈ es := by simp
    simp only [disconnect_bits, Bool.or_eq_true, decide_eq_true_iff, h.apMode, ApActive, hlen, hmem, or_assoc]
    apply or_congr_right
    omega
  · simp only [disconnect_bits, decide_eq_true_iff, Attempting, hlen, hne, and_false, or_false]
    omega
  · simp only [disconnect_bits, Bool.or_eq_true, h.authFail, authDrop_disconnect]

private theorem Follows.quiet (h : Follows mode es w) (he : Quiet e) :
    Follows mode (es ++ [e]) (w.wifiEventHandler e).1 := by
  rw [he.state]
  constructor
  · rw [he.drops, h.retry]
  · rw [he.latest, h.ready]
  · rw [he.latest, h.lost]
  · exact h.exclusive
  · rw [ApActive, he.drops, he.mem, h.apMode, ApActive]
  · rw [Attempting, he.drops, he.mem, h.connecting, Attempting]
  · rw [AuthDrop, he.drops, h.authFail, AuthDrop]

private theorem follows_after (mode : WifiMode) (es : List WifiEvent) : Follows mode es (after mode es) := by
  induction es using List.reverseRecOn with
  | nil => exact follows_start mode
  | append_singleton es e ih =>
    rw [after_concat]
    rcases event_cases e with rfl | ⟨reason, rfl⟩ | he
    · exact follows_gotIp mode es _
    · exact ih.disconnect reason
    · exact ih.quiet he

/-- For every row of events after either start: one of the bits for a connection and for its
loss is set once anything has decided between them, the first one exactly if an address came
last, and then none of the other three; the retry counter is the number of disconnects since
the last address modulo 6, and the handler starts the setup network at every sixth of them. -/
theorem wifi_bits_follow_history (mode : WifiMode) (es : List WifiEvent) :
    (latest mode es ≠ none → (after mode es).bits .ready ≠ (after mode es).bits .lost) ∧
    ((after mode es).bits .ready = true ↔ latest mode es = some .gotIp) ∧
    ((after mode es).bits .ready = true → (after mode es).bits .apMode = false ∧
      (after mode es).bits .connecting = false ∧ (after mode es).bits .authFail = false) ∧
    (after mode es).retryCount = (drops es).length % 6 ∧
    ∀ e, .startApMode ∈ ((after mode es).wifiEventHandler e).2 ↔
      (∃ reason, e = .staDisconnected reason) ∧ 6 ∣ (drops (es ++ [e])).length := by
  have h := follows_after mode es
  refine ⟨?_, h.ready, h.exclusive, h.retry, ?_⟩
  · intro hsome heq
    obtain ⟨m, hm⟩ := Option.ne_none_iff_exists'.mp hsome
    have hready := h.ready
    have hlost := h.lost
    rw [← heq] at hlost
    by_cases hip : m = .gotIp
    · obtain ⟨m', hm', hne⟩ := hlost.mp (hready.mpr (hip ▸ hm))
      rw [hm, Option.some.injEq] at hm'
      exact hne (hm' ▸ hip)
    · have hgot := hready.mp (hlost.mpr ⟨m, hm, hip⟩)
      rw [hm, Option.some.injEq] at hgot
      exact hip hgot
  · intro e
    have hretry := h.retry
    rcases event_cases e with rfl | ⟨reason, rfl⟩ | he
    · simp [wifiEventHandler]
    · rw [disconnect_calls, drops_disconnect, List.length_append, List.length_singleton]
      constructor
      · intro hfull
        exact ⟨⟨reason, rfl⟩, by omega⟩
      · intro hdvd
        omega
    · constructor
      · intro hcall
        exact absurd hcall (he.calls _)
      · intro hdrop
        obtain ⟨⟨reason, rfl⟩, -⟩ := hdrop
        cases he.mark

example : (after .sta [.staStart, .staDisconnected .authFail, .gotIp]).bits .ready = true ∧
    (after .sta (List.replicate 6 (.staDisconnected (.other 8)))).bits .apMode = true := by decide

/-! ## What the header says -/

/-- The last disconnect since the last address was an authentication failure. -/
def LastDropAuth (es : List WifiEvent) : Prop :=
  ∃ reason : DisconnectReason, (drops es).getLast? = some (.staDisconnected reason) ∧ reason.isAuth = true

/-- The two bits mean what `wifi_manager.h` says of them. -/
structure Documented (mode : WifiMode) (es : List WifiEvent) : Prop where
  authFail : (after mode es).bits .authFail = true ↔ LastDropAuth es
  attempt : ¬((after mode es).bits .connecting = true ∧ (after mode es).bits .apMode = true)

/-- A disconnect comes while the setup network is not up, and none that is no authentication
failure behind one that is. -/
def Fitting (mode : WifiMode) (es : List WifiEvent) : WifiEvent → Prop
  | .staDisconnected reason => ¬ApActive mode es ∧ (reason.isAuth = false → ¬AuthDrop es)
  | _ => True

private theorem lastDropAuth_disconnect (es : List WifiEvent) (reason : DisconnectReason) :
    LastDropAuth (es ++ [.staDisconnected reason]) ↔ reason.isAuth = true := by
  unfold LastDropAuth
  rw [drops_disconnect, List.getLast?_concat]
  constructor
  · intro h
    obtain ⟨r, hr, hauth⟩ := h
    rw [Option.some.injEq, WifiEvent.staDisconnected.injEq] at hr
    exact hr ▸ hauth
  · intro hauth
    exact ⟨reason, rfl, hauth⟩

private theorem documented_iff : Documented mode es ↔
    (AuthDrop es ↔ LastDropAuth es) ∧ ¬(Attempting mode es ∧ ApActive mode es) := by
  have h := follows_after mode es
  rw [← h.authFail, ← h.connecting, ← h.apMode]
  constructor
  · intro hdoc
    exact ⟨hdoc.authFail, hdoc.attempt⟩
  · intro hdoc
    exact ⟨hdoc.1, hdoc.2⟩

private theorem documented_of_drops_eq_nil (hdrops : drops es = []) : Documented mode es := by
  rw [documented_iff]
  constructor
  · simp [AuthDrop, LastDropAuth, hdrops]
  · intro h
    obtain ⟨hattempt, hap⟩ := h
    simp only [Attempting, ApActive, hdrops, List.length_nil] at hattempt hap
    cases mode <;> simp at hattempt hap

private theorem documented_quiet (he : Quiet e) : Documented mode
    (es ++ [e]) ↔ Documented mode es := by
  simp only [documented_iff, AuthDrop, LastDropAuth, Attempting, ApActive, he.drops, he.mem]

private theorem documented_disconnect (h : Documented mode es) (reason : DisconnectReason) :
    Fitting mode es (.staDisconnected reason) ↔ Documented mode (es ++ [.staDisconnected reason]) := by
  have hmem : WifiEvent.gotIp ∈ es ++ [.staDisconnected reason] ↔ .gotIp ∈ es := by simp
  have hauth : (AuthDrop es ∨ reason.isAuth = true ↔ reason.isAuth = true) ↔
      (reason.isAuth = false → ¬AuthDrop es) := by
    cases reason.isAuth <;> simp
  have hlast := (documented_iff.mp h).2
  rw [Fitting, documented_iff, authDrop_disconnect, lastDropAuth_disconnect, hauth, and_comm]
  apply and_congr_right
  intro _
  simp only [Attempting, ApActive, drops_disconnect, List.length_append, List.length_singleton, hmem,
    List.append_ne_nil_of_right_ne_nil _ (List.cons_ne_nil _ _), and_false, or_false] at hlast ⊢
  constructor
  · intro hdown hboth
    cases hboth.2 with
    | inl hap => exact hdown (.inl hap)
    | inr hsix => exact hdown (.inr (by omega))
  · intro hone hup
    have hmod : (drops es).length % 6 = 0 := by
      by_contra hne
      exact hlast ⟨.inl hne, hup⟩
    apply hone
    refine ⟨by omega, ?_⟩
    cases hup with
    | inl hap => exact .inl hap
    | inr hsix => exact .inr (by omega)

private theorem fitting_iff_documented (h : Documented mode es) (e : WifiEvent) :
    Fitting mode es e ↔ Documented mode (es ++ [e]) := by
  rcases event_cases e with rfl | ⟨reason, rfl⟩ | he
  · exact iff_of_true trivial (documented_of_drops_eq_nil (drops_gotIp es))
  · exact documented_disconnect h reason
  · have hfits : Fitting mode es e := by
      cases e with
      | staDisconnected reason => cases he.mark
      | staStart | apStaConnected | otherWifi | gotIp => trivial
    exact iff_of_true hfits ((documented_quiet he).mpr h)

/-- For every row of events after either start: the two bits mean what the header says after
each event exactly if no disconnect comes while the setup network is up, and no disconnect of
another kind comes behind an authentication failure without an address between them. -/
theorem wifi_bits_documented_iff (mode : WifiMode) (es : List WifiEvent) :
    (∀ p, p <+: es → Documented mode p) ↔
      ∀ p reason, p ++ [.staDisconnected reason] <+: es →
        ¬ApActive mode p ∧ (reason.isAuth = false → ¬AuthDrop p) := by
  rw [forall_prefix_iff (documented_of_drops_eq_nil rfl) (fun p e h => fitting_iff_documented h e)]
  constructor
  · intro h p reason hp
    exact h p (.staDisconnected reason) hp
  · intro h p e hp
    cases e with
    | staDisconnected reason => exact h p reason hp
    | staStart | apStaConnected | otherWifi | gotIp => trivial

/-- The bit for an authentication failure outlives a disconnect for another reason, and one
disconnect of the station in the setup network sets two bits that exclude each other. -/
theorem wifi_bits_stale :
    (after .sta [.staDisconnected .authFail, .staDisconnected (.other 8)]).bits .authFail = true ∧
    ¬LastDropAuth [.staDisconnected .authFail, .staDisconnected (.other 8)] ∧
    (after .ap [.staDisconnected (.other 8)]).bits .connecting = true ∧
    (after .ap [.staDisconnected (.other 8)]).bits .apMode = true := by
  refine ⟨by decide, ?_, by decide, by decide⟩
  rw [show [WifiEvent.staDisconnected .authFail, .staDisconnected (.other 8)] =
    [.staDisconnected .authFail] ++ [.staDisconnected (.other 8)] from rfl, lastDropAuth_disconnect]
  decide

end Wifi

end WirelessHub.Firmware
