import Mathlib.Logic.Function.Basic
import FoxfireSniper.WindowProofs

/-! # `CircularBufferWithLookupByValue` — a bounded map that is read both ways

    The buffer of `src/utils/circular_buffer_w_rev.rs`: two hash maps, one per
    direction, and two queues that give the order in which entries leave.  A hash
    map is a function into `Option`.

    * `Represents`: while no key is inserted twice, the keys of the buffer are a
      FIFO window, whatever the values are (`Represents.insert`).
    * `getByValue_insert`: the exact effect of an insertion on the lookup by value,
      repeated keys and values included. -/

namespace FoxfireBuffer

open FifoWindow

variable {K V : Type} [DecidableEq K] [DecidableEq V]

structure CircularBufferWithLookupByValue (K V : Type) where
  map          : K → Option V
  reverseMap   : V → Option K
  deque        : List K
  reverseDeque : List V
  capacity     : Nat

namespace CircularBufferWithLookupByValue

def new (capacity : Nat) : CircularBufferWithLookupByValue K V where
  map := fun _ => none
  reverseMap := fun _ => none
  deque := []
  reverseDeque := []
  capacity := capacity

/-- `pop_front`.  A key that the map no longer has leaves the queue of keys alone,
    and nothing else. -/
def popFront (b : CircularBufferWithLookupByValue K V) :
    Option (K × V) × CircularBufferWithLookupByValue K V :=
  match b.deque with
  | []          => (none, b)
  | key :: rest =>
      match b.map key with
      | none       => (none, { b with deque := rest })
      | some value =>
          (some (key, value),
            { b with
              map := Function.update b.map key none
              reverseMap := Function.update b.reverseMap value none
              deque := rest
              reverseDeque := b.reverseDeque.tail })

/-- The first half of `insert`: a full buffer gives up its oldest entry, by the
    same statements as `pop_front`. -/
def makeRoom (b : CircularBufferWithLookupByValue K V) :
    CircularBufferWithLookupByValue K V :=
  if b.deque.length = b.capacity then b.popFront.2 else b

def insert (b : CircularBufferWithLookupByValue K V) (key : K) (value : V) :
    CircularBufferWithLookupByValue K V :=
  let b := b.makeRoom
  { b with
    map := Function.update b.map key (some value)
    reverseMap := Function.update b.reverseMap value (some key)
    deque := b.deque ++ [key]
    reverseDeque := b.reverseDeque ++ [value] }

def containsKey (b : CircularBufferWithLookupByValue K V) (key : K) : Bool :=
  (b.map key).isSome

def containsValue (b : CircularBufferWithLookupByValue K V) (value : V) : Bool :=
  (b.reverseMap value).isSome

def getByKey (b : CircularBufferWithLookupByValue K V) (key : K) : Option V :=
  b.map key

def getByValue (b : CircularBufferWithLookupByValue K V) (value : V) : Option K :=
  b.reverseMap value

-- ── Insertion and the lookup by value ───────────────────────────────────────

/-- The value whose reverse entry the next insertion removes, if any. -/
def evicted (b : CircularBufferWithLookupByValue K V) : Option V :=
  if b.deque.length = b.capacity then b.deque.head?.bind b.map else none

variable (b : CircularBufferWithLookupByValue K V)

theorem popFront_reverseMap (v : V) :
    b.popFront.2.reverseMap v =
      if b.deque.head?.bind b.map = some v then none else b.reverseMap v := by
  cases hd : b.deque with
  | nil => simp [popFront, hd]
  | cons key rest =>
      cases hm : b.map key with
      | none => simp [popFront, hd, hm]
      | some value =>
          simp only [popFront, hd, hm, List.head?_cons, Option.bind_some,
            Option.some.injEq, Function.update_apply, eq_comm]

theorem makeRoom_reverseMap (v : V) :
    b.makeRoom.reverseMap v = if b.evicted = some v then none else b.reverseMap v := by
  by_cases h : b.deque.length = b.capacity
  · simp only [makeRoom, evicted, if_pos h, popFront_reverseMap]
  · simp [makeRoom, evicted, if_neg h]

/-- **WHAT AN INSERTION DOES TO THE LOOKUP BY VALUE**: the value inserted is owned by
    the key inserted, the value evicted is owned by nobody, the rest is unchanged. -/
theorem getByValue_insert (key : K) (value v : V) :
    (b.insert key value).getByValue v =
      if v = value then some key
      else if b.evicted = some v then none else b.getByValue v := by
  show Function.update b.makeRoom.reverseMap value (some key) v = _
  rw [Function.update_apply, makeRoom_reverseMap]
  rfl

/-- A buffer with room evicts nothing and grows by one. -/
theorem insert_room (key : K) (value : V) (h : b.deque.length < b.capacity) :
    b.evicted = none ∧ (b.insert key value).deque.length = b.deque.length + 1 := by
  have hne : b.deque.length ≠ b.capacity := Nat.ne_of_lt h
  constructor
  · rw [evicted, if_neg hne]
  · show (b.makeRoom.deque ++ [key]).length = _
    rw [makeRoom, if_neg hne, List.length_append]
    rfl

/-- The keys of the buffer are the window `w`: the queue lists it, without
    repetition, and the map has exactly these keys. -/
structure Represents (b : CircularBufferWithLookupByValue K V) (w : List K) : Prop where
  deque_eq : b.deque = w
  nodup    : w.Nodup
  contains : ∀ k, b.containsKey k = true ↔ k ∈ w

omit [DecidableEq K] [DecidableEq V] in
theorem represents_new (capacity : Nat) :
    (new capacity : CircularBufferWithLookupByValue K V).Represents [] where
  deque_eq := rfl
  nodup := List.nodup_nil
  contains := by intro k; simp [new, containsKey]

variable {b} {w : List K}

theorem Represents.popFront (h : b.Represents w) : b.popFront.2.Represents w.tail := by
  cases w with
  | nil =>
      have hb : b.popFront.2 = b := by
        simp [CircularBufferWithLookupByValue.popFront, h.deque_eq]
      rw [hb]
      exact h
  | cons key rest =>
      obtain ⟨hkey, hrest⟩ := List.nodup_cons.mp h.nodup
      have hsome : (b.map key).isSome = true := (h.contains key).mpr List.mem_cons_self
      obtain ⟨value, hv⟩ := Option.isSome_iff_exists.mp hsome
      refine ⟨?_, hrest, ?_⟩
      · simp [CircularBufferWithLookupByValue.popFront, h.deque_eq, hv]
      · intro k
        have hk := h.contains k
        simp only [containsKey, List.mem_cons] at hk
        simp only [containsKey, CircularBufferWithLookupByValue.popFront, h.deque_eq, hv,
          List.tail_cons, Function.update_apply]
        by_cases heq : k = key
        · subst heq
          simp [hkey]
        · rw [if_neg heq, hk]
          simp [heq]

theorem popFront_capacity (b : CircularBufferWithLookupByValue K V) :
    b.popFront.2.capacity = b.capacity := by
  simp only [popFront]
  split
  · rfl
  · split <;> rfl

theorem insert_capacity (b : CircularBufferWithLookupByValue K V) (key : K) (value : V) :
    (b.insert key value).capacity = b.capacity := by
  show b.makeRoom.capacity = b.capacity
  by_cases h : b.deque.length = b.capacity
  · rw [makeRoom, if_pos h]
    exact popFront_capacity b
  · rw [makeRoom, if_neg h]

theorem Represents.makeRoom (h : b.Represents w) :
    b.makeRoom.Represents (evict b.capacity w) := by
  by_cases hfull : w.length = b.capacity
  · rw [CircularBufferWithLookupByValue.makeRoom, evict, h.deque_eq, if_pos hfull,
      if_pos hfull]
    exact h.popFront
  · rw [CircularBufferWithLookupByValue.makeRoom, evict, h.deque_eq, if_neg hfull,
      if_neg hfull]
    exact h

/-- **THE BUFFER REFINES THE WINDOW**: inserting a key it does not have records that
    key, whatever value comes with it. -/
theorem Represents.insert {key : K} (h : b.Represents w) (hkey : key ∉ w) (value : V) :
    (b.insert key value).Represents (record b.capacity w key) := by
  have hr := h.makeRoom
  rw [record_of_not_mem hkey]
  refine ⟨?_, ?_, ?_⟩
  · show b.makeRoom.deque ++ [key] = _
    rw [hr.deque_eq]
  · have := @nodup_record _ _ b.capacity _ key h.nodup
    rwa [record_of_not_mem hkey] at this
  · intro k
    show (Function.update b.makeRoom.map key (some value) k).isSome = true ↔ _
    rw [Function.update_apply, List.mem_append, List.mem_singleton, ← hr.contains k]
    by_cases heq : k = key
    · simp [heq]
    · simp [heq, containsKey]

end CircularBufferWithLookupByValue

end FoxfireBuffer
