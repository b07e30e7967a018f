import Mathlib.Data.List.Induction

/-! # Runs of an event-driven machine, and history variables

    A machine is a partial step function `step : σ → ι → Option (σ × List ο)`: it
    reads an input, moves to a new state and emits outputs, or fails (`none`).

    * `run` executes a list of inputs, `Reach` is reachability through steps that
      all meet a condition `C`; `reach_of_run` connects the two, and `runIf` also
      tests the condition.
    * `run_invariant`, `run_history`: what every step keeps of a state and the outputs, or
      the inputs, so far.
    * `Along` and `Throughout` say that every step of a run meets a condition;
      `run_iff_along_from` reads a property of the outputs, and of the state they start
      from, off the steps.
    * `Reach.invariant` is the induction rule: what holds initially and is kept by
      every step that meets `C` holds in every state such steps reach.
    * `boundaries_iff` and, for machines that never fail, `prefixes_iff`: what holds after
      every prefix of the inputs, read off the steps.
    * `tracked` adds a HISTORY VARIABLE to a machine: a second component, updated
      from what each step did, that the machine itself never reads. -/

namespace MachineRun

variable {σ ι ο γ : Type}

/-- A partial step function with outputs. -/
abbrev Step (σ ι ο : Type) := σ → ι → Option (σ × List ο)

/-- Run a list of inputs, collecting the outputs in order; `none` if a step
    fails. -/
def run (step : Step σ ι ο) : σ → List ι → Option (σ × List ο)
  | s, []      => some (s, [])
  | s, i :: is =>
      (step s i).bind fun p =>
        (run step p.1 is).map fun q => (q.1, p.2 ++ q.2)

/-- Reachability from `s₀` through steps that all meet the condition `C`. -/
inductive Reach (step : Step σ ι ο) (C : σ → ι → Prop) (s₀ : σ) : σ → Prop where
  | init : Reach step C s₀ s₀
  | next {s s' : σ} {i : ι} {out : List ο} :
      Reach step C s₀ s → C s i → step s i = some (s', out) →
      Reach step C s₀ s'

/-- The condition every step meets. -/
def Always (_ : σ) (_ : ι) : Prop := True

variable {step : Step σ ι ο} {C : σ → ι → Prop} {s₀ s s' : σ}

theorem run_cons (step : Step σ ι ο) (s : σ) (i : ι) (is : List ι) :
    run step s (i :: is) = (step s i).bind fun p =>
      (run step p.1 is).map fun q => (q.1, p.2 ++ q.2) := rfl

/-- The first step of a run, and the rest of it. -/
theorem run_cons_eq_some {i : ι} {is : List ι} {t : σ} {out : List ο}
    (h : run step s (i :: is) = some (t, out)) :
    ∃ s' o₁ o₂, step s i = some (s', o₁) ∧ run step s' is = some (t, o₂) ∧
      out = o₁ ++ o₂ := by
  rw [run_cons] at h
  cases hs : step s i with
  | none => rw [hs] at h; cases h
  | some p =>
      rw [hs, Option.bind_some] at h
      cases hr : run step p.1 is with
      | none => rw [hr] at h; cases h
      | some q =>
          rw [hr, Option.map_some, Option.some.injEq, Prod.mk.injEq] at h
          obtain ⟨rfl, rfl⟩ := h
          exact ⟨p.1, p.2, q.2, rfl, hr, rfl⟩

/-- A run in two parts. -/
theorem run_append_eq_some {is js : List ι} {t : σ} {out : List ο} :
    ∀ {s : σ}, run step s (is ++ js) = some (t, out) →
      ∃ s' o₁ o₂, run step s is = some (s', o₁) ∧ run step s' js = some (t, o₂) ∧
        out = o₁ ++ o₂ := by
  induction is generalizing out with
  | nil =>
      intro s h
      exact ⟨s, [], out, rfl, h, rfl⟩
  | cons i is ih =>
      intro s h
      obtain ⟨s', o₁, o₂, hs, hr, rfl⟩ := run_cons_eq_some h
      obtain ⟨s'', o₃, o₄, hr₁, hr₂, rfl⟩ := ih hr
      refine ⟨s'', o₁ ++ o₃, o₄, ?_, hr₂, (List.append_assoc ..).symm⟩
      rw [run_cons, hs, Option.bind_some, hr₁]
      rfl

/-- A run with one more input. -/
theorem run_concat (step : Step σ ι ο) (s : σ) (is : List ι) (i : ι) :
    run step s (is ++ [i]) = (run step s is).bind fun p =>
      (step p.1 i).map fun q => (q.1, p.2 ++ q.2) := by
  induction is generalizing s with
  | nil =>
      show run step s [i] = (step s i).map _
      rw [run_cons]
      cases step s i with
      | none => rfl
      | some p => simp only [Option.bind_some, run, Option.map_some, List.append_nil,
          List.nil_append]
  | cons j is ih =>
      rw [List.cons_append, run_cons, run_cons]
      cases step s j with
      | none => rfl
      | some p =>
          rw [Option.bind_some, Option.bind_some, ih]
          cases run step p.1 is with
          | none => rfl
          | some q =>
              simp only [Option.bind_some, Option.map_some, Option.map_map]
              refine congrArg (fun f => Option.map f _) ?_
              funext r
              exact congrArg (Prod.mk _) (List.append_assoc _ _ _).symm

/-- An output of a run is one of its steps'. -/
theorem run_emits {x : ο} : ∀ {is : List ι} {s t : σ} {out : List ο},
    run step s is = some (t, out) → x ∈ out →
      ∃ past i later s₁ s₂ o₁ o₂ o₃, is = past ++ i :: later ∧
        run step s past = some (s₁, o₁) ∧ step s₁ i = some (s₂, o₂) ∧ x ∈ o₂ ∧
        run step s₂ later = some (t, o₃) ∧ out = o₁ ++ (o₂ ++ o₃) := by
  intro is
  induction is with
  | nil =>
      intro s t out h hx
      obtain ⟨-, rfl⟩ := Prod.mk.inj (Option.some.inj h)
      cases hx
  | cons i is ih =>
      intro s t out h hx
      obtain ⟨s', o₁, o₂, hs, hr, rfl⟩ := run_cons_eq_some h
      rcases List.mem_append.mp hx with hx | hx
      · exact ⟨[], i, is, s, s', [], o₁, o₂, rfl, rfl, hs, hx, hr, rfl⟩
      · obtain ⟨past, j, later, s₁, s₂, o₃, o₄, o₅, rfl, hpast, hstep, hxo, hlater, rfl⟩ := ih hr hx
        refine ⟨i :: past, j, later, s₁, s₂, o₁ ++ o₃, o₄, o₅, rfl, ?_, hstep, hxo, hlater, ?_⟩
        · rw [run_cons, hs, Option.bind_some, hpast]
          rfl
        · exact (List.append_assoc ..).symm

/-- What every step keeps of a state and the outputs so far, a run keeps. -/
theorem run_invariant {J : List ο → σ → Prop}
    (hstep : ∀ past s i s' out, J past s → step s i = some (s', out) → J (past ++ out) s')
    {is : List ι} {t : σ} :
    ∀ {past : List ο} {s : σ} {out : List ο}, J past s → run step s is = some (t, out) →
      J (past ++ out) t := by
  induction is with
  | nil =>
      intro past s out hJ h
      obtain ⟨rfl, rfl⟩ := Prod.mk.inj (Option.some.inj h)
      rwa [List.append_nil]
  | cons i is ih =>
      intro past s out hJ h
      obtain ⟨s', o₁, o₂, hs, hr, rfl⟩ := run_cons_eq_some h
      rw [← List.append_assoc]
      exact ih (hstep past s i s' o₁ hJ hs) hr

/-- The same for a state and the inputs so far. -/
theorem run_history {J : List ι → σ → Prop} (hinit : J [] s₀)
    (hstep : ∀ past s i s' out, J past s → step s i = some (s', out) → J (past ++ [i]) s')
    {is : List ι} {t : σ} {out : List ο} (h : run step s₀ is = some (t, out)) : J is t := by
  induction is using List.reverseRecOn generalizing t out with
  | nil =>
      obtain ⟨rfl, -⟩ := Prod.mk.inj (Option.some.inj h)
      exact hinit
  | append_singleton is i ih =>
      obtain ⟨s, o₁, o₂, hr, hlast, -⟩ := run_append_eq_some h
      obtain ⟨s', o₃, o₄, hs, hnil, -⟩ := run_cons_eq_some hlast
      obtain ⟨rfl, -⟩ := Prod.mk.inj (Option.some.inj hnil)
      exact hstep is s i s' o₃ (ih hr) hs

/-- The same for a state, the inputs and the outputs so far. -/
theorem run_record {J : List ι → List ο → σ → Prop} (hinit : J [] [] s₀)
    (hstep : ∀ past sent s i s' out, J past sent s → step s i = some (s', out) →
      J (past ++ [i]) (sent ++ out) s')
    {is : List ι} {t : σ} {out : List ο} (h : run step s₀ is = some (t, out)) : J is out t := by
  induction is using List.reverseRecOn generalizing t out with
  | nil =>
      obtain ⟨rfl, rfl⟩ := Prod.mk.inj (Option.some.inj h)
      exact hinit
  | append_singleton is i ih =>
      obtain ⟨s, o₁, o₂, hr, hlast, rfl⟩ := run_append_eq_some h
      obtain ⟨s', o₃, o₄, hs, hnil, rfl⟩ := run_cons_eq_some hlast
      obtain ⟨rfl, rfl⟩ := Prod.mk.inj (Option.some.inj hnil)
      rw [List.append_nil]
      exact hstep is o₁ s i s' o₃ (ih hr) hs

/-- **THE INVARIANT RULE.** -/
theorem Reach.invariant {I : σ → Prop} (h0 : I s₀)
    (hstep : ∀ s i s' out, I s → C s i → step s i = some (s', out) → I s')
    (h : Reach step C s₀ s) : I s := by
  induction h with
  | init => exact h0
  | next _ hC hs ih => exact hstep _ _ _ _ ih hC hs

/-- Reachability is transitive. -/
theorem Reach.trans {t : σ} (h₁ : Reach step C s₀ s) (h₂ : Reach step C s t) :
    Reach step C s₀ t := by
  induction h₂ with
  | init => exact h₁
  | next _ hC hs ih => exact Reach.next ih hC hs

/-- A weaker condition reaches as much. -/
theorem Reach.mono {D : σ → ι → Prop} (hCD : ∀ s i, C s i → D s i)
    (h : Reach step C s₀ s) : Reach step D s₀ s := by
  induction h with
  | init => exact Reach.init
  | next _ hC hs ih => exact Reach.next ih (hCD _ _ hC) hs

/-- A run whose inputs always meet `C` ends in a reachable state. -/
theorem reach_of_run (hC : ∀ s i, C s i) :
    ∀ {is : List ι} {s t : σ} {out : List ο},
      run step s is = some (t, out) → Reach step C s t := by
  intro is
  induction is with
  | nil =>
      intro s t out h
      simp only [run, Option.some.injEq, Prod.mk.injEq] at h
      rw [← h.1]
      exact Reach.init
  | cons i is ih =>
      intro s t out h
      obtain ⟨s', o₁, o₂, hs, hr, -⟩ := run_cons_eq_some h
      exact (Reach.next Reach.init (hC s i) hs).trans (ih hr)

/-- A run that checks a test before each step, and stops where it fails. -/
def runIf (step : Step σ ι ο) (c : σ → ι → Bool) : σ → List ι → Option (σ × List ο)
  | s, []      => some (s, [])
  | s, i :: is =>
      if c s i then
        (step s i).bind fun p => (runIf step c p.1 is).map fun q => (q.1, p.2 ++ q.2)
      else none

/-- If the test implies `C`, such a run ends in a reachable state. -/
theorem reach_of_runIf {c : σ → ι → Bool} (hc : ∀ s i, c s i = true → C s i) :
    ∀ {is : List ι} {s t : σ} {out : List ο},
      runIf step c s is = some (t, out) → Reach step C s t := by
  intro is
  induction is with
  | nil =>
      intro s t out h
      simp only [runIf, Option.some.injEq, Prod.mk.injEq] at h
      rw [← h.1]
      exact Reach.init
  | cons i is ih =>
      intro s t out h
      rw [runIf] at h
      split at h
      · next hci =>
          obtain ⟨⟨s', o⟩, hs, hrest⟩ := Option.bind_eq_some_iff.mp h
          obtain ⟨⟨t', o'⟩, hr, heq⟩ := Option.map_eq_some_iff.mp hrest
          obtain ⟨rfl, -⟩ := Prod.mk.inj heq
          exact (Reach.next Reach.init (hc s i hci) hs).trans (ih hr)
      · cases h

-- ── Conditions along a run ──────────────────────────────────────────────────

/-- Every step of the run from `s` meets `P`. -/
def Along (step : Step σ ι ο) (P : σ → ι → Prop) : σ → List ι → Prop
  | _, []      => True
  | s, i :: is => P s i ∧ ∀ s' out, step s i = some (s', out) → Along step P s' is

/-- What the steps that meet `C` keep, a run of such steps keeps. -/
theorem Along.keeps {I : σ → Prop}
    (hstep : ∀ s i s' out, I s → C s i → step s i = some (s', out) → I s') :
    ∀ {is : List ι} {s t : σ} {out : List ο}, Along step C s is → I s →
      run step s is = some (t, out) → I t := by
  intro is
  induction is with
  | nil =>
      intro s t out _ hI h
      obtain ⟨rfl, -⟩ := Prod.mk.inj (Option.some.inj h)
      exact hI
  | cons i is ih =>
      intro s t out halong hI h
      obtain ⟨s', o₁, o₂, hs, hr, -⟩ := run_cons_eq_some h
      exact ih (halong.2 s' o₁ hs) (hstep s i s' o₁ hI halong.1 hs) hr

/-- What every step of a run says about its input. -/
theorem Along.inputs {P : ι → Prop} (hC : ∀ s i, C s i → P i) :
    ∀ {is : List ι} {s t : σ} {out : List ο}, Along step C s is →
      run step s is = some (t, out) → ∀ i ∈ is, P i := by
  intro is
  induction is with
  | nil =>
      intro s t out _ _ i hi
      exact absurd hi List.not_mem_nil
  | cons i is ih =>
      intro s t out halong h
      obtain ⟨s', o₁, o₂, hs, hr, -⟩ := run_cons_eq_some h
      intro j hj
      rcases List.mem_cons.mp hj with rfl | hj
      · exact hC s j halong.1
      · exact ih (halong.2 s' o₁ hs) hr j hj

theorem along_append {is js : List ι} {t : σ} :
    ∀ {s : σ} {out : List ο}, Along step C s (is ++ js) → run step s is = some (t, out) →
      Along step C s is ∧ Along step C t js := by
  induction is with
  | nil =>
      intro s out halong h
      obtain ⟨rfl, -⟩ := Prod.mk.inj (Option.some.inj h)
      exact ⟨trivial, halong⟩
  | cons i is ih =>
      intro s out halong h
      obtain ⟨s', o₁, o₂, hs, hr, -⟩ := run_cons_eq_some h
      obtain ⟨hfirst, hrest⟩ := ih (halong.2 s' o₁ hs) hr
      refine ⟨⟨halong.1, fun s'' out' hs' => ?_⟩, hrest⟩
      rw [hs] at hs'
      obtain ⟨rfl, -⟩ := Prod.mk.inj (Option.some.inj hs')
      exact hfirst

/-- Every step of the run from `s` meets `P`, which also sees the inputs before it. -/
def Throughout (step : Step σ ι ο) (P : List ι → σ → ι → Prop) (s : σ) (is : List ι) : Prop :=
  ∀ past i t out, past ++ [i] <+: is → run step s past = some (t, out) → P past t i

theorem throughout_nil (P : List ι → σ → ι → Prop) (s : σ) : Throughout step P s [] := by
  intro past i t out hp
  simp at hp

theorem throughout_cons (P : List ι → σ → ι → Prop) (s : σ) (i : ι) (is : List ι) :
    Throughout step P s (i :: is) ↔ P [] s i ∧ ∀ s' out, step s i = some (s', out) →
      Throughout step (fun past => P (i :: past)) s' is := by
  constructor
  · intro h
    refine ⟨h [] i s [] (List.prefix_append [i] is) rfl, ?_⟩
    intro s' o hs past j t out hp hrun
    refine h (i :: past) j t (o ++ out) ((List.prefix_cons_inj i).mpr hp) ?_
    rw [run_cons, hs, Option.bind_some, hrun]
    rfl
  · rintro ⟨hfirst, hrest⟩ past j t out hp hrun
    cases past with
    | nil =>
        obtain ⟨rfl, -⟩ := Prod.mk.inj (Option.some.inj hrun)
        obtain ⟨rfl, -⟩ := List.cons_prefix_cons.mp hp
        exact hfirst
    | cons k past =>
        obtain ⟨rfl, hpast⟩ := List.cons_prefix_cons.mp hp
        obtain ⟨s', o₁, o₂, hs, hr, -⟩ := run_cons_eq_some hrun
        exact hrest s' o₁ hs past j t o₂ hpast hr

theorem throughout_congr {P Q : List ι → σ → ι → Prop} {is : List ι}
    (h : ∀ past i t out, run step s past = some (t, out) → (P past t i ↔ Q past t i)) :
    Throughout step P s is ↔ Throughout step Q s is := by
  constructor
  · intro hP past i t out hp hrun
    exact (h past i t out hrun).mp (hP past i t out hp hrun)
  · intro hQ past i t out hp hrun
    exact (h past i t out hrun).mpr (hQ past i t out hp hrun)

/-- If the test implies `C`, every step of a run that checks it meets `C`. -/
theorem throughout_of_runIf {c : σ → ι → Bool} (hc : ∀ s i, c s i = true → C s i) :
    ∀ {is : List ι} {s t : σ} {out : List ο},
      runIf step c s is = some (t, out) → Throughout step (fun _ => C) s is := by
  intro is
  induction is with
  | nil =>
      intro s t out _
      exact throughout_nil _ s
  | cons i is ih =>
      intro s t out h
      rw [runIf] at h
      split at h
      · next hci =>
          obtain ⟨⟨s', o⟩, hs, hrest⟩ := Option.bind_eq_some_iff.mp h
          obtain ⟨⟨t', o'⟩, hr, -⟩ := Option.map_eq_some_iff.mp hrest
          refine (throughout_cons ..).mpr ⟨hc s i hci, ?_⟩
          intro s'' out'' hs'
          rw [hs] at hs'
          obtain ⟨rfl, -⟩ := Prod.mk.inj (Option.some.inj hs')
          exact ih hr
      · cases h

/-- **WHAT A RUN OUTPUTS**: a property of a state and the outputs from there on, that holds
    of a step on an admitted input if and only if the step meets `C`, holds of a run if and
    only if all its steps do.  The invariant `I` is needed only as long as they do. -/
theorem run_iff_along_from {Q : σ → List ο → Prop} {I : σ → Prop} {V : ι → Prop}
    (hnil : ∀ s, Q s [])
    (happend : ∀ s i s' a b, step s i = some (s', a) → (Q s (a ++ b) ↔ Q s a ∧ Q s' b))
    (hstep : ∀ s i s' out, I s → V i → step s i = some (s', out) → (Q s out ↔ C s i))
    (hinv : ∀ s i s' out, I s → C s i → step s i = some (s', out) → I s') :
    ∀ {is : List ι} {s t : σ} {out : List ο}, (∀ i ∈ is, V i) → I s →
      run step s is = some (t, out) → (Q s out ↔ Along step C s is) := by
  intro is
  induction is with
  | nil =>
      intro s t out _ _ h
      obtain ⟨-, rfl⟩ := Prod.mk.inj (Option.some.inj h)
      exact ⟨fun _ => trivial, fun _ => hnil s⟩
  | cons i is ih =>
      intro s t out hV hI h
      have hVi := hV i List.mem_cons_self
      have hVis : ∀ j ∈ is, V j := fun j hj => hV j (List.mem_cons_of_mem i hj)
      obtain ⟨s', o₁, o₂, hs, hr, rfl⟩ := run_cons_eq_some h
      rw [happend s i s' o₁ o₂ hs, hstep s i s' o₁ hI hVi hs]
      constructor
      · rintro ⟨hC, hQ⟩
        refine ⟨hC, ?_⟩
        intro s'' o hs'
        rw [hs] at hs'
        obtain ⟨rfl, -⟩ := Prod.mk.inj (Option.some.inj hs')
        exact (ih hVis (hinv s i s' o₁ hI hC hs) hr).mp hQ
      · rintro ⟨hC, hrest⟩
        exact ⟨hC, (ih hVis (hinv s i s' o₁ hI hC hs) hr).mpr (hrest s' o₁ hs)⟩

/-- The same for a property of the outputs alone. -/
theorem run_iff_along {Q : List ο → Prop} {I : σ → Prop} (hnil : Q [])
    (happend : ∀ a b, Q (a ++ b) ↔ Q a ∧ Q b)
    (hstep : ∀ s i s' out, I s → step s i = some (s', out) → (Q out ↔ C s i))
    (hinv : ∀ s i s' out, I s → C s i → step s i = some (s', out) → I s') :
    ∀ {is : List ι} {s t : σ} {out : List ο}, I s → run step s is = some (t, out) →
      (Q out ↔ Along step C s is) := by
  intro is s t out hI h
  exact run_iff_along_from (Q := fun _ => Q) (V := fun _ => True) (fun _ => hnil)
    (fun _ _ _ a b _ => happend a b) (fun s i s' out hI _ hs => hstep s i s' out hI hs) hinv
    (fun _ _ => trivial) hI h

/-- If a step succeeds when it meets `C`, and only then, a run succeeds when all its steps
    meet it. -/
theorem run_isSome_iff_along (hstep : ∀ s i, (step s i).isSome = true ↔ C s i) :
    ∀ {is : List ι} {s : σ}, (run step s is).isSome = true ↔ Along step C s is := by
  intro is
  induction is with
  | nil =>
      intro s
      exact ⟨fun _ => trivial, fun _ => rfl⟩
  | cons i is ih =>
      intro s
      rw [run_cons, Along, ← hstep]
      cases step s i with
      | none => exact ⟨fun h => (by cases h), fun h => (by cases h.1)⟩
      | some p =>
          rw [Option.bind_some, Option.isSome_map, ih]
          refine ⟨fun h => ⟨rfl, ?_⟩, fun h => h.2 _ _ rfl⟩
          rintro s' out ⟨⟩
          exact h

/-- **WHAT HOLDS AT EVERY BOUNDARY** between two steps of a run, if the invariant `I` gives
    `J`, and from it a step on an admitted input leads to `J` exactly when it meets `C`, and
    then to `I`. -/
theorem boundaries_iff {I J : σ → Prop} {V : ι → Prop} (hJ : ∀ s, I s → J s)
    (hstep : ∀ s i s' out, I s → V i → step s i = some (s', out) → (J s' ↔ C s i))
    (hinv : ∀ s i s' out, I s → V i → C s i → step s i = some (s', out) → I s') :
    ∀ {is : List ι} {s : σ}, (∀ i ∈ is, V i) → I s →
      ((∀ past t out, past <+: is → run step s past = some (t, out) → J t) ↔
        Along step (fun s i => (step s i).isSome = true → C s i) s is) := by
  intro is
  induction is with
  | nil =>
      intro s _ hI
      refine iff_of_true ?_ trivial
      intro past t out hp hrun
      obtain rfl := List.prefix_nil.mp hp
      obtain ⟨rfl, -⟩ := Prod.mk.inj (Option.some.inj hrun)
      exact hJ s hI
  | cons i is ih =>
      intro s hV hI
      have hVi := hV i List.mem_cons_self
      have hVis : ∀ j ∈ is, V j := fun j hj => hV j (List.mem_cons_of_mem i hj)
      have hone : ∀ {s' out}, step s i = some (s', out) → run step s [i] = some (s', out) := by
        intro s' out hs
        rw [run_cons, hs]
        show some (s', out ++ []) = _
        rw [List.append_nil]
      constructor
      · intro h
        have hC : ∀ s' out, step s i = some (s', out) → C s i := fun s' out hs =>
          (hstep s i s' out hI hVi hs).mp
            (h [i] s' out (List.prefix_append [i] is) (hone hs))
        refine ⟨?_, ?_⟩
        · intro hsome
          obtain ⟨⟨s', out⟩, hs⟩ := Option.isSome_iff_exists.mp hsome
          exact hC s' out hs
        · intro s' o hs
          refine (ih hVis (hinv s i s' o hI hVi (hC s' o hs) hs)).mp ?_
          intro past t out hp hrun
          refine h (i :: past) t (o ++ out) ((List.prefix_cons_inj i).mpr hp) ?_
          rw [run_cons, hs, Option.bind_some, hrun]
          rfl
      · rintro ⟨hC, hrest⟩ past t out hp hrun
        cases past with
        | nil =>
            obtain ⟨rfl, -⟩ := Prod.mk.inj (Option.some.inj hrun)
            exact hJ s hI
        | cons j past =>
            obtain ⟨rfl, hpast⟩ := List.cons_prefix_cons.mp hp
            obtain ⟨s', o₁, o₂, hs, hr, -⟩ := run_cons_eq_some hrun
            have hCj := hC (Option.isSome_iff_exists.mpr ⟨_, hs⟩)
            exact (ih hVis (hinv s j s' o₁ hI hVi hCj hs)).mpr (hrest s' o₁ hs) past t o₂ hpast hr

-- ── Machines that never fail ────────────────────────────────────────────────

/-- **WHAT HOLDS AFTER EVERY PREFIX**: if the invariant `I` gives `J` and is kept by the
    steps that meet `C`, and the other steps break `J`, then `J` holds throughout exactly
    when all steps meet `C`. -/
theorem prefixes_iff {f : σ → ι → σ} {I J : List ι → σ → Prop} {C : σ → ι → Prop}
    (hinit : I [] s₀) (hJ : ∀ is s, I is s → J is s)
    (hkept : ∀ is s i, I is s → C s i → I (is ++ [i]) (f s i))
    (honly : ∀ is s i, I is s → J (is ++ [i]) (f s i) → C s i) (is : List ι) :
    (∀ past, past <+: is → J past (past.foldl f s₀)) ↔
      ∀ past i, past ++ [i] <+: is → C (past.foldl f s₀) i := by
  have hinv : ∀ is : List ι, (∀ past i, past ++ [i] <+: is → C (past.foldl f s₀) i) →
      I is (is.foldl f s₀) := by
    intro is
    induction is using List.reverseRecOn with
    | nil => intro _; exact hinit
    | append_singleton is i ih =>
        intro h
        rw [List.foldl_append]
        exact hkept is _ i (ih fun past j hp => h past j (hp.trans (List.prefix_append is [i])))
          (h is i (List.prefix_refl _))
  constructor
  · intro h
    induction is using List.reverseRecOn with
    | nil =>
        intro past i hp
        have hnil := List.prefix_nil.mp hp
        simp at hnil
    | append_singleton is i ih =>
        have hbefore := ih fun past hp => h past (hp.trans (List.prefix_append is [i]))
        intro past j hp
        rcases List.prefix_concat_iff.mp hp with heq | hp
        · obtain ⟨rfl, hj⟩ := List.append_inj' heq rfl
          obtain rfl := List.singleton_inj.mp hj
          have hlast := h _ (List.prefix_refl _)
          rw [List.foldl_append] at hlast
          exact honly past _ j (hinv past hbefore) hlast
        · exact hbefore past j hp
  · intro h past hp
    exact hJ past _ (hinv past fun past' i hp' => h past' i (hp'.trans hp))

-- ── History variables ───────────────────────────────────────────────────────

/-- Add a history variable: `g` updates it from the state before, the input, the
    state after and the outputs. -/
def tracked (step : Step σ ι ο) (g : γ → σ → ι → σ → List ο → γ) :
    Step (σ × γ) ι ο :=
  fun s i => (step s.1 i).map fun p => ((p.1, g s.2 s.1 i p.1 p.2), p.2)

/-- A step of a tracked machine is a step of the machine, with the history
    variable updated beside it. -/
theorem tracked_eq_some {g : γ → σ → ι → σ → List ο → γ} {t t' : σ × γ} {i : ι}
    {out : List ο} (h : tracked step g t i = some (t', out)) :
    step t.1 i = some (t'.1, out) ∧ t'.2 = g t.2 t.1 i t'.1 out := by
  cases hs : step t.1 i with
  | none => simp [tracked, hs] at h
  | some p =>
      simp only [tracked, hs, Option.map_some, Option.some.injEq, Prod.mk.injEq] at h
      obtain ⟨rfl, rfl⟩ := h
      exact ⟨rfl, rfl⟩

/-- Its runs are those of the machine. -/
theorem run_tracked {g : γ → σ → ι → σ → List ο → γ} :
    ∀ {is : List ι} {t : σ × γ},
      (run (tracked step g) t is).map (fun q => (q.1.1, q.2)) = run step t.1 is := by
  intro is
  induction is with
  | nil => intro t; rfl
  | cons i is ih =>
      intro t
      rw [run_cons, run_cons, tracked]
      cases step t.1 i with
      | none => rfl
      | some p =>
          have hrest := @ih (p.1, g t.2 t.1 i p.1 p.2)
          rw [Option.map_some, Option.bind_some, Option.bind_some, ← hrest, Option.map_map,
            Option.map_map]
          rfl

end MachineRun
