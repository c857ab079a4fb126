import WirelessHub.Firmware.Setup

/-!
# Credentials over many boots

What a boot can find in the flash, whatever has happened before: the name and the password that it
gives to the driver are what the portal accepted, each of the last completed save or of one that
was begun later. What a form brings arrives there once its save is completed. The laws of the
flash library are an assumption of all results.
-/

namespace WirelessHub.Firmware

open Function Framework Portal

/-- Strings that the buffers of the loader and of the driver hold, with their zero bytes. -/
structure Credentials.Fit (c : Credentials) : Prop where
  ssid_ne_nil : c.ssid ≠ []
  ssid_length : c.ssid.length ≤ 31
  ssid_string : 0 ∉ c.ssid
  pass_length : c.pass.length ≤ 63
  pass_string : 0 ∉ c.pass

namespace Setup

/-- The saves since the last completed one, and that one, with their order. -/
def recent (saves : List SaveEvent) : List Credentials :=
  saves.foldl (fun found e => match e with
    | .begun c => found ++ [c]
    | .done c => [c]
    | .erased => []) []

/-- A save has been completed, and the flash has not been erased since. -/
def completed (saves : List SaveEvent) : Bool :=
  saves.foldl (fun sofar e => match e with
    | .begun _ => sofar
    | .done _ => true
    | .erased => false) false

section History

variable (saves : List SaveEvent) (c : Credentials)

@[simp] theorem recent_begun : recent (saves ++ [.begun c]) = recent saves ++ [c] := by
  simp [recent]

@[simp] theorem recent_done : recent (saves ++ [.done c]) = [c] := by
  simp [recent]

@[simp] theorem recent_erased : recent (saves ++ [.erased]) = [] := by
  simp [recent]

@[simp] theorem completed_begun : completed (saves ++ [.begun c]) = completed saves := by
  simp [completed]

@[simp] theorem completed_done : completed (saves ++ [.done c]) = true := by
  simp [completed]

@[simp] theorem completed_erased : completed (saves ++ [.erased]) = false := by
  simp [completed]

variable {saves c}

private theorem mem_recent_of_getLast (h : saves.getLast? = some (.begun c)) :
    c ∈ recent saves := by
  obtain ⟨init, rfl⟩ := List.getLast?_eq_some_iff.mp h
  simp

end History

private theorem formField_fits {body key value : List UInt8} {outLen : Nat}
    (h : formField body key outLen = some value) : value.length ≤ outLen - 1 ∧ 0 ∉ value := by
  obtain ⟨p, -, rfl⟩ := Option.map_eq_some_iff.mp h
  refine ⟨le_trans (List.takeWhile_prefix _).length_le (urlDecode_length_le _ _), fun hz => ?_⟩
  exact absurd (List.mem_takeWhile_imp hz) (by simp)

private theorem postSaveHandler_fits {received ssid pass : List UInt8}
    (h : postSaveHandler received = some (ssid, pass)) : Credentials.Fit ⟨ssid, pass⟩ := by
  have hfield : ∀ (body key : List UInt8) (outLen : Nat),
      ((formField body key outLen).getD []).length ≤ outLen - 1 ∧
        0 ∉ (formField body key outLen).getD [] := by
    intro body key outLen
    cases hf : formField body key outLen with
    | none => simp
    | some value => exact formField_fits hf
  unfold postSaveHandler at h
  dsimp only at h
  generalize cString (received.take 511) = body at h
  have hname : (if (formField body ssidManualKey 32).getD [] = [] then
      (formField body ssidListKey 32).getD [] else (formField body ssidManualKey 32).getD []).length ≤
        31 ∧ 0 ∉ if (formField body ssidManualKey 32).getD [] = [] then
      (formField body ssidListKey 32).getD [] else (formField body ssidManualKey 32).getD [] := by
    split
    · exact hfield body ssidListKey 32
    · exact hfield body ssidManualKey 32
  generalize (if (formField body ssidManualKey 32).getD [] = [] then
    (formField body ssidListKey 32).getD [] else (formField body ssidManualKey 32).getD []) = name
    at h hname
  split at h
  · cases h
  · split at h
    · cases h
    · rename_i hne
      obtain ⟨rfl, rfl⟩ := Prod.mk.inj (Option.some.inj h)
      exact ⟨hne, hname.1, hname.2, (hfield _ _ 64).1, (hfield _ _ 64).2⟩

/-- Where a save stands, what has been put is its own. -/
def Saving (nvs : Durable NvsKey (List UInt8)) (saves : List SaveEvent) : SavePc → Prop
  | .idle | .restart => True
  | .open c | .setSsid c => saves.getLast? = some (.begun c)
  | .setPass c => saves.getLast? = some (.begun c) ∧ nvs.written .ssid = some c.ssid
  | .commit c => saves.getLast? = some (.begun c) ∧ ∀ key, nvs.written key = some (c.get key)

/-- The flash against the record of the saves. -/
structure Kept (nvs : Durable NvsKey (List UInt8)) (saves : List SaveEvent) (pc : SavePc) : Prop where
  held : nvs.Holds fun key v => ∃ c ∈ recent saves, v = c.get key
  fit : ∀ c ∈ recent saves, c.Fit
  lasting : completed saves = true → ∀ key, nvs.durable key ≠ none
  paired : ∀ before c after, saves = before ++ .done c :: after → before.getLast? = some (.begun c)
  saving : Saving nvs saves pc

namespace Kept

variable {nvs : Durable NvsKey (List UInt8)} {saves : List SaveEvent} {pc : SavePc} {c : Credentials}

private theorem factory : Kept Durable.empty [] .idle where
  held := Durable.holds_empty
  fit := nofun
  lasting := nofun
  paired before c after h := by simp at h
  saving := trivial

private theorem reset (h : Kept nvs saves pc) (keep : NvsKey → Bool) : Kept
    (nvs.reset keep) saves .idle :=
  { h with
    held := h.held.reset keep
    lasting := fun hc key => Durable.reset_ne_none (h.lasting hc key) keep
    saving := trivial }

private theorem paired_concat (h : Kept nvs saves pc) {e : SaveEvent} (he : ∀ c, e ≠ .done c)
    {before after : List SaveEvent} (heq : saves ++ [e] = before ++ .done c :: after) :
    before.getLast? = some (.begun c) := by
  rcases List.eq_nil_or_concat after with rfl | ⟨init, last, rfl⟩
  · have := List.append_inj_right' heq rfl
    exact absurd (List.cons.inj this).1 (he c)
  · rw [List.concat_eq_append, ← List.cons_append, ← List.append_assoc] at heq
    exact h.paired before c init (List.append_inj_left' heq rfl)

private theorem erase (h : Kept nvs saves pc) : Kept Durable.empty (saves ++ [.erased]) .idle where
  held := Durable.holds_empty
  fit := by simp
  lasting := by simp
  paired _ _ _ heq := h.paired_concat (by simp) heq
  saving := trivial

private theorem begin (h : Kept nvs saves pc) (hc : c.Fit) :
    Kept nvs (saves ++ [.begun c]) (.open c) where
  held := by
    apply h.held.mono
    rintro key v ⟨x, hx, rfl⟩
    exact ⟨x, by simp [hx], rfl⟩
  fit x hx := by
    rw [recent_begun, List.mem_append, List.mem_singleton] at hx
    rcases hx with hx | rfl
    · exact h.fit x hx
    · exact hc
  lasting hdone := h.lasting (by simpa using hdone)
  paired _ _ _ heq := h.paired_concat (by simp) heq
  saving := List.getLast?_concat

private theorem put (h : Kept nvs saves pc) (hc : saves.getLast? = some (.begun c)) (key : NvsKey)
    {pc' : SavePc} (hs : Saving (nvs.put key (c.get key)) saves pc') :
    Kept (nvs.put key (c.get key)) saves pc' :=
  { h with
    held := h.held.put ⟨c, mem_recent_of_getLast hc, rfl⟩
    lasting := h.lasting
    saving := hs }

private theorem commit (h : Kept nvs saves (.commit c)) : Kept nvs.commit (saves ++ [.done c]) .restart := by
  obtain ⟨hlast, hw⟩ := h.saving
  have hdurable : ∀ key, nvs.commit.durable key = some (c.get key) := fun key =>
    Durable.commit_of_written (hw key)
  refine ⟨⟨fun key v hv => ?_, nofun⟩, ?_, fun _ key => ?_, fun before x after heq => ?_, trivial⟩
  · rw [hdurable key, Option.some.injEq] at hv
    exact ⟨c, by simp, hv.symm⟩
  · simpa using h.fit c (mem_recent_of_getLast hlast)
  · rw [hdurable key]
    exact Option.some_ne_none _
  · rcases List.eq_nil_or_concat after with rfl | ⟨init, last, rfl⟩
    · have hlist := List.append_inj' heq rfl
      rw [← hlist.1, hlast, SaveEvent.done.inj (List.cons.inj hlist.2).1]
    · rw [List.concat_eq_append, ← List.cons_append, ← List.append_assoc] at heq
      exact h.paired before x init (List.append_inj_left' heq rfl)

end Kept

/-- The text at the front of a buffer of `size` bytes that is zero behind it. -/
def padded (size : Nat) (text : List UInt8) : List UInt8 :=
  text ++ List.replicate (size - text.length) 0

private theorem copied_eq_padded {size : Nat} {text : List UInt8} (hlen : text.length ≤ size - 1)
    (hzero : 0 ∉ text) : copied size text = padded size text := by
  have htext : (cString text).take (size - 1) = text := by
    rw [cString, takeWhile_ne_mark hzero, List.take_of_length_le hlen]
  simp only [copied, htext, padded]

section Flash

variable {σ ρ : Type} {api : NvsApi σ ρ} {view : σ → Durable NvsKey (List UInt8)}
  {d d₁ d₂ d' : Setup σ} {i : SetupInput ρ} {is js : List (SetupInput ρ)} {io : BootIo} {nvs : σ}

private theorem load_reads (hlaw : api.Lawful view) {load : LoadIo} {c : Credentials}
    (h : nvsLoadCredentials api nvs load = some c) :
    (view nvs).read .ssid = some c.ssid ∧ (view nvs).read .pass = some c.pass := by
  have hget : ∀ {key : NvsKey} {len : Nat} {b : Bool} {v : List UInt8},
      (if b then api.getStr nvs key len else none) = some v → (view nvs).read key = some v := by
    intro key len b v hv
    cases b with
    | false => cases hv
    | true => exact (Option.filter_eq_some_iff.mp ((hlaw.getStr nvs key len).symm.trans hv)).1
  unfold nvsLoadCredentials at h
  split at h
  · split at h
    · cases h
    · rename_i ssid hssid
      split at h
      · cases h
      · rename_i pass hpass
        cases h
        exact ⟨hget hssid, hget hpass⟩
  · cases h

private theorem load_of_reads (hlaw : api.Lawful view) {ssid pass : List UInt8}
    (hssid : (view nvs).read .ssid = some ssid) (hpass : (view nvs).read .pass = some pass)
    (hs : ssid.length ≤ 31) (hp : pass.length ≤ 63) :
    nvsLoadCredentials api nvs {} = some ⟨ssid, pass⟩ := by
  have hs' : api.getStr nvs .ssid 32 = some ssid := by
    rw [hlaw.getStr, hssid]
    exact Option.filter_eq_some_iff.mpr ⟨rfl, decide_eq_true (Nat.succ_le_succ hs)⟩
  have hp' : api.getStr nvs .pass 64 = some pass := by
    rw [hlaw.getStr, hpass]
    exact Option.filter_eq_some_iff.mpr ⟨rfl, decide_eq_true (Nat.succ_le_succ hp)⟩
  simp [nvsLoadCredentials, hs', hp']

private theorem Kept.nvsCall (hlaw : api.Lawful view) (h : Kept (view d.nvs) d.saves d.save)
    (hcall : d.nvsCall api = some d') : Kept (view d'.nvs) d'.saves d'.save := by
  have hs := h.saving
  simp only [Setup.nvsCall] at hcall
  cases hpc : d.save with
  | idle | restart => simp [hpc] at hcall
  | «open» c =>
    rw [hpc] at hs
    simp only [hpc, Option.some.injEq] at hcall
    subst hcall
    exact { h with saving := hs }
  | setSsid c =>
    rw [hpc] at hs
    simp only [hpc, Option.some.injEq] at hcall
    subst hcall
    dsimp only
    rw [hlaw.setStr]
    exact h.put hs .ssid ⟨hs, Durable.put_written _ _ _⟩
  | setPass c =>
    rw [hpc] at hs
    simp only [hpc, Option.some.injEq] at hcall
    subst hcall
    dsimp only
    rw [hlaw.setStr]
    refine h.put hs.1 .pass ⟨hs.1, fun key => ?_⟩
    cases key with
    | ssid => exact hs.2
    | pass => exact Durable.put_written _ _ _
  | commit c =>
    simp only [hpc, Option.some.injEq] at hcall
    subst hcall
    dsimp only
    rw [hlaw.commit]
    exact (hpc ▸ h).commit

/-- The invariant of every history of the device. -/
structure Inv (view : σ → Durable NvsKey (List UInt8)) (d : Setup σ) : Prop where
  kept : Kept (view d.nvs) d.saves d.save
  fresh : Fresh d

private theorem inv_factory (hlaw : api.Lawful view) : Inv view (factory api) where
  kept := by
    simp only [factory, reboot, hlaw.erased]
    exact Kept.factory
  fresh := fresh_reboot _ _

private theorem Inv.flashInit (hlaw : api.Lawful view) (h : Inv view d) (hb : d.booted = false)
    (erase : Bool) :
    Kept (view (d.flashInit api erase).nvs) (d.flashInit api erase).saves
      (d.flashInit api erase).save := by
  cases erase with
  | false => exact h.kept
  | true =>
    have hsave : d.save = .idle := congrArg Setup.save (h.fresh hb)
    simp only [Setup.flashInit, if_true, hlaw.erased, hsave]
    exact h.kept.erase

private theorem Inv.step (hlaw : api.Lawful view) (h : Inv view d) (hstep : step api d i = .ok d') :
    Inv view d' := by
  refine ⟨?_, h.fresh.step hstep⟩
  cases step_cases hstep with
  | boot io hb =>
    obtain ⟨-, hnvs, hsaves, hsave⟩ := wifiManagerTask_kept (d.flashInit api io.erase) io
    rw [hnvs, hsaves, hsave]
    exact h.flashInit hlaw hb io.erase
  | handle e hb hap => exact h.kept
  | http starts hpc => exact h.kept
  | bits starts hpc => exact h.kept
  | refused received => exact h.kept
  | post hhttp hform => exact h.kept.begin (postSaveHandler_fits hform)
  | nvsCall hcall => exact h.kept.nvsCall hlaw hcall
  | restart r | cut r =>
    obtain ⟨keep, heq⟩ := hlaw.restart d.nvs r
    simp only [Setup.reboot, heq]
    exact h.kept.reset keep

private theorem run_inv (hlaw : api.Lawful view) (hr : run (step api) (factory api) is = .ok d) :
    Inv view d :=
  run_invariant_of_step (fun _ _ _ h hstep => h.step hlaw hstep) (inv_factory hlaw) hr

/-- What a boot finds in the flash, and what it makes of it. -/
theorem load_of_boot (hlaw : api.Lawful view) (hr : run (step api) (factory api) is = .ok d)
    (hb : step api d (.boot io) = .ok d') :
    Kept (view d'.nvs) d'.saves d'.save ∧
      d'.saves = (d.flashInit api io.erase).saves ∧
      d'.config = (nvsLoadCredentials api d'.nvs io.load).map staConfig := by
  have hinv := run_inv hlaw hr
  refine ⟨(hinv.step hlaw hb).kept, ?_⟩
  cases step_cases hb with
  | boot io hfresh =>
    obtain ⟨-, hnvs, hsaves, -⟩ := wifiManagerTask_kept (d.flashInit api io.erase) io
    refine ⟨hsaves, ?_⟩
    obtain ⟨nvs, saves, heq⟩ := hinv.fresh.flashInit api hfresh io.erase
    rw [hnvs, heq]
    unfold wifiManagerTask
    cases nvsLoadCredentials api (reboot nvs saves).nvs io.load <;> rfl

private theorem Kept.config_origin (hlaw : api.Lawful view) {saves : List SaveEvent} {pc : SavePc}
    {cfg : StaConfig} {load : LoadIo} (h : Kept (view nvs) saves pc)
    (hcfg : (nvsLoadCredentials api nvs load).map staConfig = some cfg) :
    ∃ x ∈ recent saves, ∃ y ∈ recent saves, x.Fit ∧ y.Fit ∧
      cfg = ⟨padded 32 x.ssid, padded 64 y.pass⟩ := by
  obtain ⟨c, hload, rfl⟩ := Option.map_eq_some_iff.mp hcfg
  obtain ⟨hssid, hpass⟩ := load_reads hlaw hload
  obtain ⟨x, hx, hxs⟩ := h.held.read hssid
  obtain ⟨y, hy, hyp⟩ := h.held.read hpass
  have hxfit := h.fit x hx
  have hyfit := h.fit y hy
  refine ⟨x, hx, y, hy, hxfit, hyfit, ?_⟩
  rw [staConfig, hxs, hyp]
  exact congr (congrArg _ (copied_eq_padded hxfit.ssid_length hxfit.ssid_string))
    (copied_eq_padded hyfit.pass_length hyfit.pass_string)

private theorem Kept.load_ne_none (hlaw : api.Lawful view) {saves : List SaveEvent} {pc : SavePc}
    (h : Kept (view nvs) saves pc) (hdone : completed saves = true) :
    nvsLoadCredentials api nvs {} ≠ none := by
  obtain ⟨ssid, hssid⟩ := Option.ne_none_iff_exists'.mp
    (Durable.read_ne_none (h.lasting hdone .ssid))
  obtain ⟨pass, hpass⟩ := Option.ne_none_iff_exists'.mp
    (Durable.read_ne_none (h.lasting hdone .pass))
  obtain ⟨x, hx, rfl⟩ := h.held.read hssid
  obtain ⟨y, hy, rfl⟩ := h.held.read hpass
  rw [load_of_reads hlaw hssid hpass (h.fit x hx).ssid_length (h.fit y hy).pass_length]
  exact Option.some_ne_none _

/-- At every boot of every history, with the power going at any time: the driver is given a name
and a password that the portal has accepted, not shortened, each of them from the last save that
was completed or a later one that was not; and if a save was completed and the flash not erased
since, the boot finds both. -/
theorem config_of_boot (hlaw : api.Lawful view) (hr : run (step api) (factory api) is = .ok d)
    (hb : step api d (.boot io) = .ok d') :
    (∀ cfg, d'.config = some cfg → ∃ x ∈ recent d'.saves, ∃ y ∈ recent d'.saves,
      x.Fit ∧ y.Fit ∧ cfg = ⟨padded 32 x.ssid, padded 64 y.pass⟩) ∧
    (completed d'.saves = true → io.load = {} → d'.config ≠ none) := by
  obtain ⟨hkept, -, hconfig⟩ := load_of_boot hlaw hr hb
  rw [hconfig]
  constructor
  · intro cfg hcfg
    exact hkept.config_origin hlaw hcfg
  · intro hdone hio hnone
    rw [hio] at hnone
    exact hkept.load_ne_none hlaw hdone (Option.map_eq_none_iff.mp hnone)

/-- After the network of the first form is gone the power goes while another form is saved. -/
def interruptedRun : List (SetupInput (NvsKey → Bool)) :=
  lostRun ++ [.apStep .handler true, .apStep .handler true, .post (formBody [0x63] [0x64]),
    .nvsCall, .nvsCall, .cut fun key => key = .ssid]

/-- The new name comes with the old password. -/
theorem config_after_interrupted_save : ∃ d d',
    run (step .durable) (factory .durable) interruptedRun = .ok d ∧
    step .durable d (.boot {}) = .ok d' ∧
    recent d'.saves = [⟨[0x61], [0x62]⟩, ⟨[0x63], [0x64]⟩] ∧
    d'.config = some ⟨padded 32 [0x63], padded 64 [0x62]⟩ ∧ ∃ y ∈ recent d'.saves, y.Fit := by
  obtain ⟨d, d', hr, hb, hrecent, hcfg⟩ : ∃ d d',
      run (step .durable) (factory .durable) interruptedRun = .ok d ∧
      step .durable d (.boot {}) = .ok d' ∧
      recent d'.saves = [⟨[0x61], [0x62]⟩, ⟨[0x63], [0x64]⟩] ∧
      d'.config = some ⟨padded 32 [0x63], padded 64 [0x62]⟩ := ⟨_, _, rfl, rfl, rfl, rfl⟩
  obtain ⟨-, -, y, hy, -, hfit, -⟩ := (config_of_boot NvsApi.durable_lawful hr hb).1 _ hcfg
  exact ⟨d, d', hr, hb, hrecent, hcfg, y, hy, hfit⟩

private theorem encodes_one {b : UInt8}
    (h : b ≠ 0x3D ∧ b ≠ 0x26 ∧ b ≠ 0x25 ∧ b ≠ 0x2B ∧ b ≠ 0x20 ∧ b ≠ 0) : Encodes [b] [b] :=
  .plain h .nil

end Flash
end Setup
end WirelessHub.Firmware
