import Mathlib.Data.List.Basic

/-! # A bounded broadcast channel

    Every receiver reads every value, at its own pace.  The channel keeps the last
    `capacity` values; a receiver that has fallen further behind has missed some.  Its
    next reception then reports how many, once, and moves it to the oldest value that is
    kept, where it can go on.

    A receiver is a position in the log of all values ever sent. -/

namespace Broadcast

variable {α : Type}

structure Channel (α : Type) where
  capacity : Nat
  log      : List α

/-- What a reception yields. -/
inductive Received (α : Type) where
  | value (a : α)
  | lagged (missed : Nat)
  /-- Nothing to read yet. -/
  | empty

namespace Channel

def send (c : Channel α) (a : α) : Channel α := { c with log := c.log ++ [a] }

/-- Where a new receiver starts: it reads what is sent from now on. -/
def tail (c : Channel α) : Nat := c.log.length

/-- The position of the oldest value that is kept. -/
def oldest (c : Channel α) : Nat := c.tail - c.capacity

/-- One reception at a position, and the position after it. -/
def recv (c : Channel α) (next : Nat) : Received α × Nat :=
  if next < c.oldest then (.lagged (c.oldest - next), c.oldest)
  else
    match c.log[next]? with
    | some a => (.value a, next + 1)
    | none   => (.empty, next)

variable {c : Channel α} {next : Nat} {a : α}

theorem recv_of_lagged (h : next < c.oldest) :
    c.recv next = (.lagged (c.oldest - next), c.oldest) := if_pos h

/-- In time, the next value is read. -/
theorem recv_in_time (h : c.oldest ≤ next) (ha : c.log[next]? = some a) :
    c.recv next = (.value a, next + 1) := by
  rw [recv, if_neg (Nat.not_lt.mpr h), ha]

/-- A value that is read was sent, and the receiver moves on by one. -/
theorem value_of_recv {next' : Nat} (h : c.recv next = (.value a, next')) :
    c.oldest ≤ next ∧ c.log[next]? = some a ∧ next' = next + 1 := by
  rw [recv] at h
  split at h
  · cases (Prod.mk.inj h).1
  · next hlt =>
      refine ⟨Nat.not_lt.mp hlt, ?_⟩
      cases hget : c.log[next]? with
      | none =>
          rw [hget] at h
          cases (Prod.mk.inj h).1
      | some a' =>
          rw [hget] at h
          obtain ⟨hval, hnext⟩ := Prod.mk.inj h
          cases hval
          exact ⟨rfl, hnext.symm⟩

theorem lagged_of_recv {missed next' : Nat} (h : c.recv next = (.lagged missed, next')) :
    next < c.oldest := by
  rw [recv] at h
  split at h
  · next hlt => exact hlt
  · split at h
    · cases (Prod.mk.inj h).1
    · cases (Prod.mk.inj h).1

end Channel

end Broadcast
