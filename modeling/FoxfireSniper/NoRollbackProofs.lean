import Mathlib.Logic.Basic

/-! # Programs that keep their state when they stop

    A program reads and writes a state `σ` and may stop with an `ε`.  What it wrote
    before it stopped stays written: there is no rollback.

    * `exec` runs a program; the `exec_` lemmas say what each primitive does.
    * `Frame R`: whatever a program does, finished or not, the state stays related by
      `R` to the state before.  `Frame.bind` is the rule for sequences.
    * `Returns Q`: a program that finishes has a result in `Q`. -/

namespace NoRollback

variable {ε σ α β : Type}

/-- A stateful computation that may stop with an `ε`. -/
abbrev Prog (ε σ α : Type) := ExceptT ε (StateM σ) α

/-- The outcome of a program and the state it leaves. -/
def exec (t : Prog ε σ α) (s : σ) : Except ε α × σ := t.run.run s

/-- A pure outcome as a program. -/
def outcome (x : Except ε α) : Prog ε σ α := ExceptT.mk (pure x)

@[simp] theorem exec_pure (a : α) (s : σ) :
    exec (pure a : Prog ε σ α) s = (.ok a, s) := rfl

@[simp] theorem exec_throw (e : ε) (s : σ) :
    exec (throw e : Prog ε σ α) s = (.error e, s) := rfl

/-- A sequence goes on from the value and the state of its first part. -/
theorem exec_bind_ok {t : Prog ε σ α} {f : α → Prog ε σ β} {s s' : σ} {a : α}
    (h : exec t s = (.ok a, s')) : exec (t >>= f) s = exec (f a) s' := by
  simp only [exec] at h ⊢
  rw [ExceptT.run_bind, StateT.run_bind]
  simp only [h]
  rfl

/-- A sequence stops where its first part stops. -/
theorem exec_bind_error {t : Prog ε σ α} {f : α → Prog ε σ β} {s s' : σ} {e : ε}
    (h : exec t s = (.error e, s')) : exec (t >>= f) s = (.error e, s') := by
  simp only [exec] at h ⊢
  rw [ExceptT.run_bind, StateT.run_bind]
  simp only [h]
  rfl

@[simp] theorem exec_get_bind (f : σ → Prog ε σ β) (s : σ) :
    exec (get >>= f) s = exec (f s) s := rfl

@[simp] theorem exec_set_bind (s' : σ) (f : PUnit → Prog ε σ β) (s : σ) :
    exec (set s' >>= f) s = exec (f ⟨⟩) s' := rfl

@[simp] theorem exec_modify_bind (g : σ → σ) (f : PUnit → Prog ε σ β) (s : σ) :
    exec (modify g >>= f) s = exec (f ⟨⟩) (g s) := rfl

@[simp] theorem exec_outcome_ok_bind (a : α) (f : α → Prog ε σ β) (s : σ) :
    exec (outcome (.ok a) >>= f) s = exec (f a) s := rfl

@[simp] theorem exec_outcome_error_bind (e : ε) (f : α → Prog ε σ β) (s : σ) :
    exec (outcome (.error e) >>= f) s = (.error e, s) := rfl

-- ── Frames ──────────────────────────────────────────────────────────────────

/-- However it ends, the program leaves a state related to the one it found. -/
def Frame (R : σ → σ → Prop) (t : Prog ε σ α) : Prop := ∀ s, R s (exec t s).2

/-- **THE FRAME RULE** for a sequence. -/
theorem Frame.bind {R : σ → σ → Prop} (htrans : ∀ a b c, R a b → R b c → R a c)
    {t : Prog ε σ α} {f : α → Prog ε σ β} (ht : Frame R t) (hf : ∀ a, Frame R (f a)) :
    Frame R (t >>= f) := by
  intro s
  have hs := ht s
  cases h : exec t s with
  | mk x s' =>
      rw [h] at hs
      cases x with
      | error e =>
          rw [exec_bind_error h]
          exact hs
      | ok a =>
          rw [exec_bind_ok h]
          exact htrans s s' _ hs (hf a s')

-- ── Results ─────────────────────────────────────────────────────────────────

/-- If the program finishes, its result satisfies `Q`. -/
def Returns (Q : α → Prop) (t : Prog ε σ α) : Prop :=
  ∀ s a s', exec t s = (.ok a, s') → Q a

theorem returns_pure {Q : α → Prop} {a : α} (h : Q a) :
    Returns Q (pure a : Prog ε σ α) := by
  intro s b s' hb
  rw [exec_pure, Prod.mk.injEq, Except.ok.injEq] at hb
  rw [← hb.1]
  exact h

theorem returns_throw {Q : α → Prop} (e : ε) : Returns Q (throw e : Prog ε σ α) := by
  intro s b s' hb
  cases hb

/-- The rule for a sequence. -/
theorem Returns.bind {P : α → Prop} {Q : β → Prop} {t : Prog ε σ α}
    {f : α → Prog ε σ β} (ht : Returns P t) (hf : ∀ a, P a → Returns Q (f a)) :
    Returns Q (t >>= f) := by
  intro s b s' hb
  cases h : exec t s with
  | mk x s₁ =>
      cases x with
      | error e =>
          rw [exec_bind_error h] at hb
          cases hb
      | ok a =>
          rw [exec_bind_ok h] at hb
          exact hf a (ht s a s₁ h) s₁ b s' hb

/-- Reading the state says nothing about the result. -/
theorem returns_get_bind {Q : β → Prop} {f : σ → Prog ε σ β}
    (hf : ∀ s, Returns Q (f s)) : Returns Q (get >>= f) := by
  intro s b s' hb
  rw [exec_get_bind] at hb
  exact hf s s b s' hb

theorem returns_set_bind {Q : β → Prop} {s₀ : σ} {f : PUnit → Prog ε σ β}
    (hf : Returns Q (f ⟨⟩)) : Returns Q (set s₀ >>= f) := by
  intro s b s' hb
  rw [exec_set_bind] at hb
  exact hf s₀ b s' hb

/-- Nothing is known of the result of a first part. -/
theorem Returns.bind_any {Q : β → Prop} {t : Prog ε σ α} {f : α → Prog ε σ β}
    (hf : ∀ a, Returns Q (f a)) : Returns Q (t >>= f) :=
  Returns.bind (fun _ _ _ _ => trivial : Returns (fun _ => True) t) fun a _ => hf a

end NoRollback
