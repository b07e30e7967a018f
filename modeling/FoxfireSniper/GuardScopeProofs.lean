import FoxfireSniper.NoRollbackProofs

/-! # A task and a mutex that is not reentrant

    One task works on a value behind a mutex.  Whoever else takes the mutex gives it
    back, so waiting for others ends; waiting for a guard that the task itself holds
    does not.  A guard lives as long as the scope that took it, and is dropped when the
    scope is left, by its end or by an error.

    * `locked` takes the mutex for one expression, `withGuard` for a scope.
    * A task that takes the mutex under its own guard is stuck: `Stop.deadlock`.  It
      never leaves the scope, so the guard stays.
    * The `exec_` lemmas say what happens with and without a guard held. -/

namespace GuardScope

open NoRollback

variable {ε σ τ α β : Type}

/-- Why a task does not go on: it returned an error, or it never returns. -/
inductive Stop (ε : Type) where
  | failed (e : ε)
  /-- It waits for its own guard. -/
  | deadlock
  /-- It waits for an answer that does not come. -/
  | forever
  deriving DecidableEq

/-- The guarded value, whether the task holds the guard, and the rest of its world. -/
structure World (σ τ : Type) where
  value : σ
  held  : Bool
  rest  : τ

abbrev Task (ε σ τ α : Type) := Prog (Stop ε) (World σ τ) α

/-- Has the call come back to its caller? -/
def Returned : Except (Stop ε) α → Bool
  | .ok _              => true
  | .error (.failed _) => true
  | .error _           => false

/-- Leave a scope that holds the guard. -/
def dropGuard (r : Except (Stop ε) α × World σ τ) : Except (Stop ε) α × World σ τ :=
  (r.1, if Returned r.1 then { r.2 with held := false } else r.2)

/-- `let guard = mutex.lock().await;`, and the scope of `guard`. -/
def withGuard (body : σ → Task ε σ τ α) : Task ε σ τ α :=
  ExceptT.mk fun s =>
    if s.held then (.error .deadlock, s)
    else dropGuard (exec (body s.value) { s with held := true })

/-- `f(mutex.lock().await)`: the guard lives as long as the expression. -/
def locked (f : σ → α) : Task ε σ τ α := withGuard fun v => pure (f v)

variable {s : World σ τ}

theorem exec_withGuard {body : σ → Task ε σ τ α} (h : s.held = false) :
    exec (withGuard body) s = dropGuard (exec (body s.value) { s with held := true }) := by
  show (if s.held = true then _ else _) = _
  rw [h]
  rfl

theorem exec_locked {f : σ → α} (h : s.held = false) :
    exec (locked f : Task ε σ τ α) s = (.ok (f s.value), s) := by
  rw [locked, exec_withGuard h, exec_pure]
  show (Except.ok (f s.value), { s with held := false }) = _
  rw [← h]

/-- **SELF-DEADLOCK.** -/
theorem exec_locked_held {f : σ → α} (h : s.held = true) :
    exec (locked f : Task ε σ τ α) s = (.error .deadlock, s) := by
  show (if s.held = true then _ else _) = _
  rw [if_pos h]

/-- An expression under a free mutex goes on with its value. -/
theorem exec_locked_bind {f : σ → α} {k : α → Task ε σ τ β} (h : s.held = false) :
    exec (locked f >>= k) s = exec (k (f s.value)) s :=
  exec_bind_ok (exec_locked h)

theorem exec_locked_bind_held {f : σ → α} {k : α → Task ε σ τ β} (h : s.held = true) :
    exec (locked f >>= k) s = (.error .deadlock, s) :=
  exec_bind_error (exec_locked_held h)

end GuardScope
