import FoxfireSniper.MachineRunProofs

/-! # How often a machine can still be pushed forward

    An OBSERVER watches the inputs of a machine, not its states: it remembers something of
    the inputs so far, says which inputs may come next, and counts some of them.

    A RANKING gives every state a number that no step raises and that every counted input
    lowers.  So after as many counted inputs as the rank of the first state, the rank is
    zero (`Ranking.ends`): the machine is where nothing pushes it any further.

    `stopped` is the machine that halts at a state, and `run_stopped` says where in the run of
    the machine itself that was. -/

namespace MachineRun

variable {σ ι ο κ : Type}

/-- Someone who sees the inputs of a machine. -/
structure Observer (κ ι : Type) where
  /-- What is remembered after one more input. -/
  next   : κ → ι → κ
  /-- May the input come next? -/
  Admits : κ → ι → Prop
  /-- Is the input counted? -/
  counts : κ → ι → Bool

/-- Every input is one that may come next. -/
def Observer.Admitted (O : Observer κ ι) : κ → List ι → Prop
  | _, []      => True
  | c, i :: is => O.Admits c i ∧ O.Admitted (O.next c i) is

/-- How many of the inputs are counted. -/
def Observer.count (O : Observer κ ι) : κ → List ι → Nat
  | _, []      => 0
  | c, i :: is => (O.counts c i).toNat + O.count (O.next c i) is

/-- The observer who admits only what meets `P`. -/
def Observer.restrict (O : Observer κ ι) (P : ι → Prop) : Observer κ ι where
  next       := O.next
  Admits c i := O.Admits c i ∧ P i
  counts     := O.counts

/-- Can it be tested whether every input may come next? -/
instance Observer.decidableAdmitted (O : Observer κ ι) [∀ c i, Decidable (O.Admits c i)] :
    ∀ c is, Decidable (O.Admitted c is)
  | _, []      => isTrue trivial
  | c, i :: is =>
      have := Observer.decidableAdmitted O (O.next c i) is
      inferInstanceAs (Decidable (O.Admits c i ∧ O.Admitted (O.next c i) is))

/-- A rank that no admitted input raises, and that the counted ones lower. -/
structure Ranking (step : Step σ ι ο) (O : Observer κ ι) where
  rank   : σ → Nat
  /-- What is known of the state when so much has been seen. -/
  Inv    : κ → σ → Prop
  keeps  : ∀ c s i s' out, Inv c s → O.Admits c i → step s i = some (s', out) →
    Inv (O.next c i) s'
  weakly : ∀ c s i s' out, Inv c s → O.Admits c i → step s i = some (s', out) →
    rank s' ≤ rank s
  lowers : ∀ c s i s' out, Inv c s → O.Admits c i → O.counts c i = true → 0 < rank s →
    step s i = some (s', out) → rank s' < rank s

variable {step : Step σ ι ο} {O : Observer κ ι}

theorem Observer.Admitted.restrict {P : ι → Prop} {is : List ι} (hP : ∀ i ∈ is, P i) :
    ∀ {c : κ}, O.Admitted c is → (O.restrict P).Admitted c is := by
  induction is with
  | nil => exact fun _ => trivial
  | cons i is ih =>
      rintro c ⟨hi, his⟩
      exact ⟨⟨hi, hP i List.mem_cons_self⟩, ih (fun j hj => hP j (List.mem_cons_of_mem i hj)) his⟩

/-- It counts the same. -/
theorem Observer.count_restrict (P : ι → Prop) (is : List ι) :
    ∀ c : κ, (O.restrict P).count c is = O.count c is := by
  induction is with
  | nil => exact fun _ => rfl
  | cons i is ih =>
      intro c
      rw [Observer.count, Observer.count, ← ih]
      rfl

/-- **A RUN LOWERS THE RANK** by one for every counted input, down to zero. -/
theorem Ranking.run_le (R : Ranking step O) :
    ∀ {is : List ι} {c : κ} {s t : σ} {out : List ο}, R.Inv c s → O.Admitted c is →
      run step s is = some (t, out) → R.rank t ≤ R.rank s - O.count c is := by
  intro is
  induction is with
  | nil =>
      intro c s t out _ _ h
      obtain ⟨rfl, -⟩ := Prod.mk.inj (Option.some.inj h)
      exact Nat.le_refl _
  | cons i is ih =>
      intro c s t out hI hadm h
      obtain ⟨hi, his⟩ := hadm
      obtain ⟨s', o₁, o₂, hs, hr, -⟩ := run_cons_eq_some h
      have hrest := ih (R.keeps c s i s' o₁ hI hi hs) his hr
      have hweak := R.weakly c s i s' o₁ hI hi hs
      rw [Observer.count]
      cases hc : O.counts c i with
      | false =>
          rw [Bool.toNat_false]
          omega
      | true =>
          rw [Bool.toNat_true]
          by_cases hpos : 0 < R.rank s
          · have hlow := R.lowers c s i s' o₁ hI hi hc hpos hs
            omega
          · omega

/-- **THE RANK RUNS OUT.** -/
theorem Ranking.ends (R : Ranking step O) {is : List ι} {c : κ} {s t : σ} {out : List ο}
    (hI : R.Inv c s) (hadm : O.Admitted c is) (henough : R.rank s ≤ O.count c is)
    (h : run step s is = some (t, out)) : R.rank t = 0 := by
  have hle := R.run_le hI hadm h
  omega

-- ── Until a state is reached ────────────────────────────────────────────────

/-- The machine that halts where `stop` holds. -/
def stopped (stop : σ → Bool) (step : Step σ ι ο) : Step σ ι ο := fun s i =>
  if stop s then some (s, []) else step s i

theorem run_halted {stop : σ → Bool} {s : σ} (hs : stop s = true) (is : List ι) :
    run (stopped stop step) s is = some (s, []) := by
  induction is with
  | nil => rfl
  | cons i is ih =>
      rw [run_cons, stopped, if_pos hs, Option.bind_some, ih]
      rfl

/-- **WHERE IT HALTED**: a run of the machine passes through the state in which the halting
    one ends; that is its last state, if it never halted. -/
theorem run_stopped (stop : σ → Bool) :
    ∀ {is : List ι} {s t : σ} {out : List ο}, run step s is = some (t, out) →
      ∃ past s' out', past <+: is ∧ run step s past = some (s', out') ∧
        run (stopped stop step) s is = some (s', out') ∧ (stop s' = true ∨ past = is) := by
  intro is
  induction is with
  | nil =>
      intro s t out h
      exact ⟨[], t, out, List.prefix_refl [], h, h, Or.inr rfl⟩
  | cons i is ih =>
      intro s t out h
      by_cases hs : stop s = true
      · exact ⟨[], s, [], List.nil_prefix, rfl, run_halted hs (i :: is), Or.inl hs⟩
      · obtain ⟨s₁, o₁, o₂, hstep, hr, -⟩ := run_cons_eq_some h
        obtain ⟨past, s', out', hp, hpast, hhalt, hend⟩ := ih hr
        refine ⟨i :: past, s', o₁ ++ out', (List.prefix_cons_inj i).mpr hp, ?_, ?_, ?_⟩
        · rw [run_cons, hstep, Option.bind_some, hpast]
          rfl
        · rw [run_cons, stopped, if_neg hs, hstep, Option.bind_some, hhalt]
          rfl
        · rcases hend with hstop | rfl
          · exact Or.inl hstop
          · exact Or.inr rfl

end MachineRun
