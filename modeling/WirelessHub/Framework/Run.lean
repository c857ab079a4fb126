import Mathlib.Data.List.Induction
import Mathlib.Tactic.Common

/-!
# Runs of a fallible step function

A system is a step function that consumes one input and may fault. A run feeds it a
list of inputs. Invariants are carried along runs by one rule, with an optional guard
that every step of the run has to meet in the state it is taken in.
-/

namespace WirelessHub.Framework

variable {σ ι ε : Type*} {step : σ → ι → Except ε σ} {guard : σ → ι → Prop}

/-- Feed the inputs one after another; the first fault ends the run. -/
def run (step : σ → ι → Except ε σ) : σ → List ι → Except ε σ
  | s, [] => .ok s
  | s, i :: is => match step s i with
    | .ok s' => run step s' is
    | .error e => .error e

/-- Every input of the run meets the guard in the state in which it is consumed. -/
def RunAll (step : σ → ι → Except ε σ) (guard : σ → ι → Prop) : σ → List ι → Prop
  | _, [] => True
  | s, i :: is => guard s i ∧ ∀ s', step s i = .ok s' → RunAll step guard s' is

@[simp] theorem run_nil (s : σ) : run step s [] = .ok s := rfl

theorem run_cons_of_ok {s s' : σ} {i : ι} (is : List ι) (h : step s i = .ok s') :
    run step s (i :: is) = run step s' is := by
  simp only [run, h]

theorem run_cons_eq_ok {s t : σ} {i : ι} {is : List ι} :
    run step s (i :: is) = .ok t ↔ ∃ s', step s i = .ok s' ∧ run step s' is = .ok t := by
  constructor
  · intro h
    cases hs : step s i with
    | ok s' => exact ⟨s', rfl, by rw [← h, run_cons_of_ok is hs]⟩
    | error e => simp [run, hs] at h
  · rintro ⟨s', hs, h⟩
    rw [run_cons_of_ok is hs, h]

theorem run_append {s t : σ} {is : List ι} (js : List ι) (h : run step s is = .ok t) :
    run step s (is ++ js) = run step t js := by
  induction is generalizing s with
  | nil =>
    rw [run_nil, Except.ok.injEq] at h
    rw [List.nil_append, h]
  | cons i is ih =>
    obtain ⟨s', hs, hr⟩ := run_cons_eq_ok.mp h
    rw [List.cons_append, run_cons_of_ok _ hs, ih hr]

/-- Where it depends on the input alone whether a step faults, a run faults at the first such
input. -/
theorem exists_run_ok_iff {P : ι → Prop} (hstep : ∀ s i, (∃ s', step s i = .ok s') ↔ P i) (s : σ)
    (is : List ι) : (∃ t, run step s is = .ok t) ↔ ∀ i ∈ is, P i := by
  induction is generalizing s with
  | nil => simp
  | cons i is ih =>
    rw [List.forall_mem_cons, ← hstep s i]
    constructor
    · rintro ⟨t, ht⟩
      obtain ⟨s', hs, hr⟩ := run_cons_eq_ok.mp ht
      exact ⟨⟨s', hs⟩, (ih s').mp ⟨t, hr⟩⟩
    · rintro ⟨⟨s', hs⟩, hall⟩
      rw [run_cons_of_ok is hs]
      exact (ih s').mpr hall

/-- The invariant rule: what every guarded step keeps, a guarded run keeps. -/
theorem run_invariant {P : σ → Prop}
    (hstep : ∀ s i s', P s → guard s i → step s i = .ok s' → P s')
    {s t : σ} {is : List ι} (hs : P s) (hg : RunAll step guard s is)
    (hr : run step s is = .ok t) : P t := by
  induction is generalizing s with
  | nil =>
    rw [run_nil, Except.ok.injEq] at hr
    exact hr ▸ hs
  | cons i is ih =>
    obtain ⟨s', hs', hr'⟩ := run_cons_eq_ok.mp hr
    exact ih (hstep s i s' hs hg.1 hs') (hg.2 s' hs') hr'

/-- Where no guarded step faults and each one keeps `P`, a guarded run ends and keeps `P`. -/
theorem run_progress {P : σ → Prop}
    (hstep : ∀ s i, P s → guard s i → ∃ s', step s i = .ok s' ∧ P s')
    {s : σ} {is : List ι} (hs : P s) (hg : RunAll step guard s is) :
    ∃ t, run step s is = .ok t ∧ P t := by
  induction is generalizing s with
  | nil => exact ⟨s, rfl, hs⟩
  | cons i is ih =>
    obtain ⟨s', hs', hp⟩ := hstep s i hs hg.1
    rw [run_cons_of_ok is hs']
    exact ih hp (hg.2 s' hs')

theorem runAll_cons_of_ok {s s' : σ} {i : ι} {is : List ι} (h : step s i = .ok s') (hg : guard s i)
    (hrest : RunAll step guard s' is) : RunAll step guard s (i :: is) :=
  ⟨hg, fun _ hs => Except.ok.inj (h.symm.trans hs) ▸ hrest⟩

theorem runAll_true (s : σ) (is : List ι) : RunAll step (fun _ _ => True) s is := by
  induction is generalizing s with
  | nil => trivial
  | cons i is ih => exact ⟨trivial, fun s' _ => ih s'⟩

theorem runAll_of_forall {P : ι → Prop} {is : List ι} (h : ∀ i ∈ is, P i) (s : σ) :
    RunAll step (fun _ i => P i) s is := by
  induction is generalizing s with
  | nil => trivial
  | cons i is ih => exact ⟨h i List.mem_cons_self, fun s' _ => ih (fun j hj => h j (.tail i hj)) s'⟩

/-- Some run of these inputs ends in a state with `P`. -/
def CanReach (step : σ → ι → Except ε σ) (allowed : ι → Prop) (P : σ → Prop) (s : σ) : Prop :=
  ∃ is t, (∀ i ∈ is, allowed i) ∧ run step s is = .ok t ∧ P t

theorem CanReach.here {allowed : ι → Prop} {P : σ → Prop} {s : σ} (h : P s) :
    CanReach step allowed P s :=
  ⟨[], s, fun _ hi => absurd hi List.not_mem_nil, rfl, h⟩

theorem CanReach.of_step {allowed : ι → Prop} {P : σ → Prop} {s s' : σ} {i : ι}
    (h : CanReach step allowed P s') (hi : allowed i) (hs : step s i = .ok s') :
    CanReach step allowed P s := by
  obtain ⟨is, t, hall, hr, ht⟩ := h
  exact ⟨i :: is, t, List.forall_mem_cons.mpr ⟨hi, hall⟩, by rw [run_cons_of_ok is hs, hr], ht⟩

/-- Where every state with the invariant `Q` is at its goal or has a step that lowers its rank,
the goal can be reached from each of them. -/
theorem CanReach.of_rank {allowed : ι → Prop} {P Q : σ → Prop} (rank : σ → Nat)
    (hstep : ∀ s, Q s → ¬P s → ∃ i s', allowed i ∧ step s i = .ok s' ∧ Q s' ∧ rank s' < rank s)
    {s : σ} (hs : Q s) : CanReach step allowed P s := by
  induction hn : rank s using Nat.strongRecOn generalizing s with
  | _ n ih =>
    by_cases hp : P s
    · exact .here hp
    · obtain ⟨i, s', hi, hstep', hs', hlt⟩ := hstep s hs hp
      exact (ih (rank s') (hn ▸ hlt) hs' rfl).of_step hi hstep'

theorem run_invariant_of_step {P : σ → Prop}
    (hstep : ∀ s i s', P s → step s i = .ok s' → P s')
    {s t : σ} {is : List ι} (hs : P s) (hr : run step s is = .ok t) : P t :=
  @run_invariant σ ι ε step (fun _ _ => True) P (fun s i s' h _ => hstep s i s' h) s t is hs
    (runAll_true s is) hr

/-- Where a step keeps `P` exactly if it meets the guard, a run is guarded exactly if `P`
holds in every state on its way. `B` is an invariant of all runs that the steps may use. -/
theorem runAll_iff_throughout {B P : σ → Prop}
    (hbase : ∀ s i s', B s → step s i = .ok s' → B s')
    (hstep : ∀ s i s', B s → P s → step s i = .ok s' → (guard s i ↔ P s'))
    {s t : σ} {is : List ι} (hb : B s) (hs : P s) (hr : run step s is = .ok t) :
    RunAll step guard s is ↔ ∀ js u, js <+: is → run step s js = .ok u → P u := by
  induction is generalizing s with
  | nil =>
    refine ⟨fun _ js u hjs hu => ?_, fun _ => trivial⟩
    rw [List.prefix_nil.mp hjs, run_nil, Except.ok.injEq] at hu
    exact hu ▸ hs
  | cons i is ih =>
    obtain ⟨s', hs', hr'⟩ := run_cons_eq_ok.mp hr
    have hb' := hbase s i s' hb hs'
    constructor
    · rintro ⟨hg, hrest⟩ js u hjs hu
      cases js with
      | nil =>
        rw [run_nil, Except.ok.injEq] at hu
        exact hu ▸ hs
      | cons j js =>
        obtain ⟨rfl, hjs'⟩ := List.cons_prefix_cons.mp hjs
        rw [run_cons_of_ok js hs'] at hu
        exact (ih hb' ((hstep s j s' hb hs hs').mp hg) hr').mp (hrest s' hs') js u hjs' hu
    · intro hall
      have hinv : P s' := hall [i] s' (by simp) (by rw [run_cons_of_ok [] hs', run_nil])
      refine ⟨(hstep s i s' hb hs hs').mpr hinv, fun u hu => ?_⟩
      obtain rfl : s' = u := Except.ok.inj (hs'.symm.trans hu)
      refine (ih hb' hinv hr').mpr fun js v hjs hv => hall (i :: js) v ?_ ?_
      · exact List.cons_prefix_cons.mpr ⟨rfl, hjs⟩
      · rw [run_cons_of_ok js hs', hv]

theorem RunAll.imp_of_invariant {P : σ → Prop} {guard' : σ → ι → Prop} {s : σ} {is : List ι}
    (hg : RunAll step guard s is)
    (hstep : ∀ s i s', P s → guard s i → step s i = .ok s' → P s')
    (himp : ∀ s i, P s → guard s i → guard' s i) (hs : P s) : RunAll step guard' s is := by
  induction is generalizing s with
  | nil => trivial
  | cons i is ih =>
    constructor
    · exact himp s i hs hg.1
    · intro s' hs'
      exact ih (hg.2 s' hs') (hstep s i s' hs hg.1 hs')

theorem RunAll.of_append {s : σ} {is js : List ι} (hg : RunAll step guard s (is ++ js)) :
    RunAll step guard s is := by
  induction is generalizing s with
  | nil => trivial
  | cons i is ih => exact ⟨hg.1, fun s' hs' => ih (hg.2 s' hs')⟩

/-- A property of histories that one more input keeps exactly if it meets the guard: it holds
of all beginnings of a history exactly if every input meets the guard behind its own. -/
theorem forall_prefix_iff {P : List ι → Prop} {guard : List ι → ι → Prop} (hnil : P [])
    (hstep : ∀ p i, P p → (guard p i ↔ P (p ++ [i]))) (is : List ι) :
    (∀ p, p <+: is → P p) ↔ ∀ p i, p ++ [i] <+: is → guard p i := by
  constructor
  · intro hall p i hp
    exact (hstep p i (hall p ((List.prefix_append p [i]).trans hp))).mpr (hall _ hp)
  · intro hguard p
    induction p using List.reverseRecOn with
    | nil => exact fun _ => hnil
    | append_singleton p i ih =>
      intro hp
      exact (hstep p i (ih ((List.prefix_append p [i]).trans hp))).mp (hguard p i hp)

/-- Inputs that a view of the state does not show can be left out of a run, where the steps
respect the view in all states with the invariant `P`. -/
theorem foldl_erase {next : σ → ι → σ} {erase : σ → σ} {hidden : ι → Bool} {P : σ → Prop}
    (hkeep : ∀ s i, P s → P (next s i))
    (hshown : ∀ s i, P s → hidden i = false → erase (next s i) = next (erase s) i)
    (hhidden : ∀ s i, P s → hidden i = true → erase (next s i) = erase s)
    {s : σ} (hs : P s) (is : List ι) :
    erase (is.foldl next s) = (is.filter fun i => !hidden i).foldl next (erase s) := by
  induction is generalizing s with
  | nil => rfl
  | cons i is ih =>
    rw [List.foldl_cons, ih (hkeep s i hs)]
    cases hi : hidden i with
    | true => rw [List.filter_cons_of_neg (by simp [hi]), hhidden s i hs hi]
    | false => rw [List.filter_cons_of_pos (by simp [hi]), List.foldl_cons, hshown s i hs hi]

/-- How many inputs of the run are counted in the state in which they are consumed. -/
def runCount (step : σ → ι → Except ε σ) (counted : σ → ι → Bool) : σ → List ι → Nat
  | _, [] => 0
  | s, i :: is => (counted s i).toNat + match step s i with
    | .ok s' => runCount step counted s' is
    | .error _ => 0

/-- Where no step lowers the rank and every counted one raises it, the rank grows along a run by
as many inputs as are counted. -/
theorem rank_add_runCount_le {counted : σ → ι → Bool} {P : σ → Prop} {rank : σ → Nat}
    (hkeep : ∀ s i s', P s → step s i = .ok s' → P s')
    (hstep : ∀ s i s', P s → step s i = .ok s' → rank s + (counted s i).toNat ≤ rank s')
    {s t : σ} {is : List ι} (hs : P s) (hr : run step s is = .ok t) :
    rank s + runCount step counted s is ≤ rank t := by
  induction is generalizing s with
  | nil =>
    rw [run_nil, Except.ok.injEq] at hr
    subst hr
    exact Nat.le_refl _
  | cons i is ih =>
    obtain ⟨s', hs', hr'⟩ := run_cons_eq_ok.mp hr
    have hone := hstep s i s' hs hs'
    have hrest := ih (hkeep s i s' hs hs') hr'
    simp only [runCount, hs']
    omega

/-- The simulation rule: where a run of another system with the same visible inputs matches each
guarded step, one matches each guarded run. -/
theorem run_simulation {τ κ ν : Type*} {step' : τ → κ → Except ε τ} {R : σ → τ → Prop}
    {view : ι → List ν} {view' : κ → List ν}
    (hstep : ∀ s i s' t, R s t → guard s i → step s i = .ok s' →
      ∃ js t', run step' t js = .ok t' ∧ js.flatMap view' = view i ∧ R s' t')
    {s s' : σ} {t : τ} {is : List ι} (hR : R s t) (hg : RunAll step guard s is)
    (hr : run step s is = .ok s') :
    ∃ js t', run step' t js = .ok t' ∧ js.flatMap view' = is.flatMap view ∧ R s' t' := by
  induction is generalizing s t with
  | nil =>
    rw [run_nil, Except.ok.injEq] at hr
    exact ⟨[], t, rfl, rfl, hr ▸ hR⟩
  | cons i is ih =>
    obtain ⟨s₁, hs₁, hr₁⟩ := run_cons_eq_ok.mp hr
    obtain ⟨js, t₁, hrun, hview, hR₁⟩ := hstep s i s₁ t hR hg.1 hs₁
    obtain ⟨ks, t', hrun', hview', hR'⟩ := ih hR₁ (hg.2 s₁ hs₁) hr₁
    refine ⟨js ++ ks, t', ?_, ?_, hR'⟩
    · rw [run_append ks hrun, hrun']
    · rw [List.flatMap_append, hview, hview', List.flatMap_cons]

theorem map_eq_ok {α β : Type*} {f : α → β} {x : Except ε α} {y : β} (h : x.map f = .ok y) :
    ∃ z, x = .ok z ∧ f z = y := by
  cases x with
  | error e => cases h
  | ok z => exact ⟨z, rfl, Except.ok.inj h⟩

end WirelessHub.Framework
