import FoxfireSniper.BroadcastProofs
import Mathlib.Data.List.Range

/-! # A receiver that reads on after a lag

    A task that receives in a loop and goes on after an error reads a channel with gaps.
    Beside its position, a `Reader` has what no such task keeps: the positions it has read
    and how many values it has missed.

    * `Sound`: it reads each value at most once and in order, and every value it has passed
      was either read or reported as missed.
    * **`Sound.recv`**: a reception keeps that, and so does what others send. -/

namespace Broadcast

variable {α : Type}

structure Reader where
  start  : Nat
  next   : Nat
  got    : List Nat
  missed : Nat
  deriving DecidableEq, Repr

namespace Reader

/-- A new receiver. -/
def subscribe (c : Channel α) : Reader := ⟨c.tail, c.tail, [], 0⟩

/-- One reception. -/
def recv (c : Channel α) (r : Reader) : Received α × Reader :=
  match c.recv r.next with
  | (.value a, next)       => (.value a, { r with next := next, got := r.got ++ [r.next] })
  | (.lagged missed, next) =>
      (.lagged missed, { r with next := next, missed := r.missed + missed })
  | (.empty, _)            => (.empty, r)

/-- What a reader has read, and what it has missed. -/
structure Sound (c : Channel α) (r : Reader) : Prop where
  inOrder : r.got.Pairwise (· < ·)
  passed  : ∀ p ∈ r.got, r.start ≤ p ∧ p < r.next
  counted : r.start + r.got.length + r.missed = r.next
  sent    : r.next ≤ c.tail
  /-- A reader that has missed nothing has read everything. -/
  whole   : r.missed = 0 → r.got = List.range' r.start (r.next - r.start)
  /-- Nothing is missed before more has been sent than is kept. -/
  kept    : 0 < r.missed → c.capacity < c.tail

variable {c : Channel α} {r r' : Reader}

theorem recv_value {a : α} (h : r.recv c = (.value a, r')) :
    c.oldest ≤ r.next ∧ c.log[r.next]? = some a ∧
      r' = { r with next := r.next + 1, got := r.got ++ [r.next] } := by
  rw [recv] at h
  cases hc : c.recv r.next with
  | mk received next =>
      rw [hc] at h
      cases received with
      | value b =>
          obtain ⟨hval, rfl⟩ := Prod.mk.inj h
          cases hval
          obtain ⟨hold, hget, rfl⟩ := Channel.value_of_recv hc
          exact ⟨hold, hget, rfl⟩
      | lagged missed => cases (Prod.mk.inj h).1
      | empty => cases (Prod.mk.inj h).1

theorem recv_lagged {missed : Nat} (h : r.recv c = (.lagged missed, r')) :
    r.next < c.oldest ∧ missed = c.oldest - r.next ∧
      r' = { r with next := c.oldest, missed := r.missed + missed } := by
  rw [recv] at h
  cases hc : c.recv r.next with
  | mk received next =>
      rw [hc] at h
      cases received with
      | value b => cases (Prod.mk.inj h).1
      | lagged m =>
          obtain ⟨hval, rfl⟩ := Prod.mk.inj h
          cases hval
          have hlt := Channel.lagged_of_recv hc
          rw [Channel.recv_of_lagged hlt] at hc
          obtain ⟨hm, hnext⟩ := Prod.mk.inj hc
          cases hm
          exact ⟨hlt, rfl, by rw [hnext]⟩
      | empty => cases (Prod.mk.inj h).1

theorem Sound.subscribe (c : Channel α) : Sound c (Reader.subscribe c) where
  inOrder := .nil
  passed p hp := by cases hp
  counted := rfl
  sent := Nat.le_refl _
  whole _ := by
    show [] = List.range' c.tail (c.tail - c.tail)
    rw [Nat.sub_self]
    rfl
  kept h := absurd h (Nat.lt_irrefl 0)

/-- What is sent changes nothing of what has been read. -/
theorem Sound.send (h : Sound c r) (a : α) : Sound (c.send a) r := by
  have htail : (c.send a).tail = c.tail + 1 := List.length_append
  refine ⟨h.inOrder, h.passed, h.counted, ?_, h.whole, ?_⟩
  · rw [htail]
    exact Nat.le_succ_of_le h.sent
  · intro hm
    rw [htail]
    exact Nat.lt_succ_of_lt (h.kept hm)

theorem Sound.value {a : α} (h : Sound c r) (hr : r.recv c = (.value a, r')) : Sound c r' := by
  obtain ⟨-, hget, rfl⟩ := recv_value hr
  have hlt : r.next < c.tail := (List.getElem?_eq_some_iff.mp hget).1
  have hstart : r.start ≤ r.next := by
    have hcount := h.counted
    omega
  refine ⟨?_, ?_, ?_, hlt, ?_, h.kept⟩
  · refine List.pairwise_append.mpr ⟨h.inOrder, List.pairwise_singleton _ _, ?_⟩
    intro p hp q hq
    rw [List.mem_singleton.mp hq]
    exact (h.passed p hp).2
  · intro p hp
    rcases List.mem_append.mp hp with hp | hp
    · obtain ⟨hle, hpn⟩ := h.passed p hp
      exact ⟨hle, Nat.lt_succ_of_lt hpn⟩
    · rw [List.mem_singleton.mp hp]
      exact ⟨hstart, Nat.lt_succ_self _⟩
  · have hcount := h.counted
    show r.start + (r.got ++ [r.next]).length + r.missed = r.next + 1
    rw [List.length_append, List.length_singleton]
    omega
  · intro hm
    show r.got ++ [r.next] = List.range' r.start (r.next + 1 - r.start)
    rw [h.whole hm, Nat.sub_add_comm hstart, List.range'_concat, Nat.one_mul,
      Nat.add_sub_of_le hstart]

theorem Sound.lagged {missed : Nat} (h : Sound c r) (hr : r.recv c = (.lagged missed, r')) :
    Sound c r' := by
  obtain ⟨hlt, rfl, rfl⟩ := recv_lagged hr
  have hcap : c.capacity < c.tail := by
    rw [Channel.oldest] at hlt
    omega
  refine ⟨h.inOrder, ?_, ?_, Nat.sub_le _ _, ?_, fun _ => hcap⟩
  · intro p hp
    obtain ⟨hle, hpn⟩ := h.passed p hp
    exact ⟨hle, hpn.trans hlt⟩
  · have hcount := h.counted
    show r.start + r.got.length + (r.missed + (c.oldest - r.next)) = c.oldest
    omega
  · intro hm
    have hzero : r.missed + (c.oldest - r.next) = 0 := hm
    omega

/-- **A RECEPTION KEEPS A READER SOUND.** -/
theorem Sound.recv {received : Received α} (h : Sound c r) (hr : r.recv c = (received, r')) :
    Sound c r' := by
  cases received with
  | value a => exact h.value hr
  | lagged missed => exact h.lagged hr
  | empty =>
      rw [Reader.recv] at hr
      split at hr
      · cases (Prod.mk.inj hr).1
      · cases (Prod.mk.inj hr).1
      · obtain ⟨-, rfl⟩ := Prod.mk.inj hr
        exact h

end Reader

end Broadcast
