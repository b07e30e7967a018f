import Mathlib.Data.Finset.Card
import Mathlib.Logic.Function.Basic
import FoxfireSniper.MachineRunProofs
import FoxfireSniper.WindowProofs

/-! # `CircularBuffer` — does an entry stay as long as it should?

    `src/utils/circular_buffer.rs`: a hash map, and a queue of keys that gives the order in
    which entries leave.  `OperationalCache` keeps the actions of the bot in one.

    A key that comes back is queued again, and its old place in the queue stays.  When that
    place leaves, it takes the new entry out of the map.

    * **`Holds`**: every place of the queue stands for an entry, and no two for the same.
    * **`keeps_iff`**: entries are found for as long as the capacity promises, and all values
      are listed once, exactly as long as no key is inserted that is still queued.
    * `keeps_of_distinct`: so they are when no key is ever inserted twice, as the actions'
      are. -/

namespace FoxfireBuffer

open FifoWindow MachineRun

variable {K V : Type} [DecidableEq K]

structure CircularBuffer (K V : Type) where
  map      : K → Option V
  deque    : List K
  capacity : Nat

namespace CircularBuffer

def new (capacity : Nat) : CircularBuffer K V where
  map := fun _ => none
  deque := []
  capacity := capacity

/-- `pop_front`. -/
def popFront (b : CircularBuffer K V) : Option (K × V) × CircularBuffer K V :=
  match b.deque with
  | []          => (none, b)
  | key :: rest =>
      ((b.map key).map fun value => (key, value),
        { b with map := Function.update b.map key none, deque := rest })

/-- The first half of `insert`: a full buffer removes its oldest key, as `pop_front` does. -/
def makeRoom (b : CircularBuffer K V) : CircularBuffer K V :=
  if b.deque.length = b.capacity then b.popFront.2 else b

def insert (b : CircularBuffer K V) (key : K) (value : V) : CircularBuffer K V :=
  let b := b.makeRoom
  { b with
    map := Function.update b.map key (some value)
    deque := b.deque ++ [key] }

def containsKey (b : CircularBuffer K V) (key : K) : Bool := (b.map key).isSome

def len (b : CircularBuffer K V) : Nat := b.deque.length

def isEmpty (b : CircularBuffer K V) : Bool := b.deque.isEmpty

def getByKey (b : CircularBuffer K V) (key : K) : Option V := b.map key

def getAllValues (b : CircularBuffer K V) : List V := b.deque.filterMap b.map

inductive Op (K V : Type) where
  | insert (key : K) (value : V)
  | popFront

def apply (b : CircularBuffer K V) : Op K V → CircularBuffer K V
  | .insert key value => b.insert key value
  | .popFront         => b.popFront.2

/-- A new buffer after these operations. -/
def execute (capacity : Nat) (ops : List (Op K V)) : CircularBuffer K V :=
  ops.foldl apply (new capacity)

-- ── What a buffer of this capacity should keep ──────────────────────────────

/-- The operation inserts another key. -/
def Op.InsertsOther (k : K) : Op K V → Prop
  | .insert key _ => key ≠ k
  | .popFront     => False

/-- An entry is found while its key is not inserted again, nothing is popped, and fewer
    insertions follow than the buffer has room for. -/
def FindsRecent (ops : List (Op K V)) (b : CircularBuffer K V) : Prop :=
  ∀ past k v later, ops = past ++ .insert k v :: later → (∀ op ∈ later, op.InsertsOther k) →
    later.length < b.capacity → b.getByKey k = some v

/-- All values are those of the entries, each listed once. -/
def ListsOnce (b : CircularBuffer K V) : Prop :=
  ∃ keys : List K, keys.Nodup ∧ (∀ k, k ∈ keys ↔ b.containsKey k = true) ∧
    b.getAllValues.map some = keys.map b.getByKey

structure KeepsEntries (ops : List (Op K V)) (b : CircularBuffer K V) : Prop where
  found  : FindsRecent ops b
  listed : ListsOnce b

/-- The key of an insertion is not queued, except as the oldest key of a full buffer. -/
def Fresh (b : CircularBuffer K V) : Op K V → Prop
  | .insert key _ => key ∉ evict b.capacity b.deque
  | .popFront     => True

-- ── The queue and the map ───────────────────────────────────────────────────

/-- The queue is `w`, with one place for each entry of the map. -/
structure Holds (b : CircularBuffer K V) (w : List K) : Prop where
  deque_eq : b.deque = w
  nodup    : w.Nodup
  contains : ∀ k, b.containsKey k = true ↔ k ∈ w

omit [DecidableEq K] in
theorem holds_new (capacity : Nat) : (new capacity : CircularBuffer K V).Holds [] where
  deque_eq := rfl
  nodup := List.nodup_nil
  contains := by intro k; simp [new, containsKey]

variable {b : CircularBuffer K V} {w : List K}

/-- A popped key is gone, the others keep their values. -/
theorem Holds.popFront (h : b.Holds w) :
    b.popFront.2.Holds w.tail ∧ ∀ k ∈ w.tail, b.popFront.2.getByKey k = b.getByKey k := by
  cases w with
  | nil =>
      have hb : b.popFront.2 = b := by
        simp only [CircularBuffer.popFront, h.deque_eq]
      rw [hb]
      exact ⟨h, fun _ _ => rfl⟩
  | cons key rest =>
      obtain ⟨hkey, hrest⟩ := List.nodup_cons.mp h.nodup
      have hb : b.popFront.2 =
          { b with map := Function.update b.map key none, deque := rest } := by
        simp only [CircularBuffer.popFront, h.deque_eq]
      rw [hb]
      refine ⟨⟨rfl, hrest, ?_⟩, ?_⟩
      · intro k
        have hk := h.contains k
        show (Function.update b.map key none k).isSome = true ↔ k ∈ rest
        rw [Function.update_apply]
        by_cases heq : k = key
        · rw [if_pos heq, heq]
          exact iff_of_false Bool.false_ne_true hkey
        · rw [if_neg heq]
          exact hk.trans (List.mem_cons.trans (or_iff_right heq))
      · intro k hk
        refine Function.update_of_ne ?_ ..
        rintro rfl
        exact hkey hk

theorem Holds.makeRoom (h : b.Holds w) :
    b.makeRoom.Holds (evict b.capacity w) ∧
      ∀ k ∈ evict b.capacity w, b.makeRoom.getByKey k = b.getByKey k := by
  rw [CircularBuffer.makeRoom, evict, h.deque_eq]
  split
  · exact h.popFront
  · exact ⟨h, fun _ _ => rfl⟩

omit [DecidableEq K] in
/-- Looked up one by one, keys that are all there give their values. -/
theorem map_some_filterMap {f : K → Option V} {l : List K} (h : ∀ k ∈ l, (f k).isSome = true) :
    (l.filterMap f).map some = l.map f := by
  induction l with
  | nil => rfl
  | cons k l ih =>
      obtain ⟨v, hv⟩ := Option.isSome_iff_exists.mp (h k List.mem_cons_self)
      rw [List.filterMap_cons_some hv, List.map_cons, List.map_cons, hv,
        ih fun j hj => h j (List.mem_cons_of_mem k hj)]

omit [DecidableEq K] in
theorem Holds.listsOnce (h : b.Holds w) : b.ListsOnce := by
  refine ⟨w, h.nodup, fun k => (h.contains k).symm, ?_⟩
  rw [getAllValues, h.deque_eq]
  exact map_some_filterMap fun k hk => (h.contains k).mpr hk

theorem Holds.deque_insert (h : b.Holds w) (key : K) (value : V) :
    (b.insert key value).deque = evict b.capacity w ++ [key] := by
  show b.makeRoom.deque ++ [key] = _
  rw [h.makeRoom.1.deque_eq]

theorem Holds.containsKey_insert (h : b.Holds w) (key : K) (value : V) (k : K) :
    (b.insert key value).containsKey k = true ↔ k ∈ evict b.capacity w ++ [key] := by
  show (Function.update b.makeRoom.map key (some value) k).isSome = true ↔ _
  rw [Function.update_apply, List.mem_append, List.mem_singleton, ← h.makeRoom.1.contains k]
  by_cases heq : k = key
  · simp [heq]
  · simp [heq, containsKey]

/-- A key that is not queued is queued last. -/
theorem Holds.insert (h : b.Holds w) {key : K} (value : V) (hnew : key ∉ evict b.capacity w) :
    (b.insert key value).Holds (evict b.capacity w ++ [key]) where
  deque_eq := h.deque_insert key value
  nodup := by
    rw [← List.concat_eq_append]
    exact h.makeRoom.1.nodup.concat hnew
  contains := h.containsKey_insert key value

/-- **AN INSERTION AFTER WHICH ALL VALUES ARE LISTED ONCE** is of a key that is not queued
    when room has been made. -/
theorem Holds.not_queued (h : b.Holds w) {key : K} {value : V}
    (hlists : (b.insert key value).ListsOnce) : key ∉ evict b.capacity w := by
  intro hqueued
  obtain ⟨keys, hnodup, hmem, hvalues⟩ := hlists
  have hdeque := h.deque_insert key value
  have hcontains := h.containsKey_insert key value
  -- as many values as places in the queue, and as many as different keys
  have hlength : keys.length = (evict b.capacity w ++ [key]).length := by
    have hplaces := map_some_filterMap (f := (b.insert key value).map)
      fun k hk => (hcontains k).mpr hk
    rw [getAllValues, hdeque] at hvalues
    have hlen := congrArg List.length (hvalues.symm.trans hplaces)
    rwa [List.length_map, List.length_map] at hlen
  have hset : keys.toFinset = (evict b.capacity w).toFinset := by
    ext k
    rw [List.mem_toFinset, List.mem_toFinset, hmem, hcontains, List.mem_append,
      List.mem_singleton]
    refine ⟨?_, Or.inl⟩
    rintro (hk | rfl)
    · exact hk
    · exact hqueued
  have hcard := List.toFinset_card_le (evict b.capacity w)
  rw [← hset, List.toFinset_card_of_nodup hnodup, hlength, List.length_append,
    List.length_singleton] at hcard
  exact Nat.not_succ_le_self _ hcard

-- ── Sequences of operations ─────────────────────────────────────────────────

/-- One place for each entry, and the recent ones are the last of the queue. -/
structure Kept (ops : List (Op K V)) (b : CircularBuffer K V) : Prop where
  holds  : b.Holds b.deque
  recent : ∀ past k v later, ops = past ++ .insert k v :: later →
    (∀ op ∈ later, op.InsertsOther k) → later.length < b.capacity →
      b.getByKey k = some v ∧ ∃ newer, newer.length = later.length ∧ k :: newer <:+ b.deque

omit [DecidableEq K] in
theorem Kept.keepsEntries {ops : List (Op K V)} (h : Kept ops b) : KeepsEntries ops b where
  found := fun past k v later hops hothers hlen => (h.recent past k v later hops hothers hlen).1
  listed := h.holds.listsOnce

/-- A fresh insertion: the new entry is the last one, and a recent entry has one more
    behind it. -/
theorem Kept.insert {ops : List (Op K V)} (h : Kept ops b) {key : K} {value : V}
    (hfresh : b.Fresh (.insert key value)) :
    Kept (ops ++ [.insert key value]) (b.insert key value) := by
  obtain ⟨hroom, hvalues⟩ := h.holds.makeRoom
  have hcap : (b.insert key value).capacity = b.capacity := by
    show b.makeRoom.capacity = b.capacity
    rw [makeRoom, CircularBuffer.popFront]
    split
    · split <;> rfl
    · rfl
  have hdeque : (b.insert key value).deque = evict b.capacity b.deque ++ [key] := by
    show b.makeRoom.deque ++ [key] = _
    rw [hroom.deque_eq]
  refine ⟨?_, ?_⟩
  · rw [hdeque]
    exact h.holds.insert value hfresh
  · intro past k v later hops hothers hlen
    rw [hcap] at hlen
    rw [hdeque]
    rcases List.eq_nil_or_concat' later with rfl | ⟨later, op, rfl⟩
    · -- the entry is the one that the step inserts
      obtain ⟨-, hop⟩ := List.append_inj' hops rfl
      obtain ⟨rfl, rfl⟩ := Op.insert.inj (List.singleton_inj.mp hop)
      exact ⟨Function.update_self .., [], rfl, List.suffix_append _ _⟩
    · rw [← List.cons_append, ← List.append_assoc] at hops
      obtain ⟨hbefore, hop⟩ := List.append_inj' hops rfl
      obtain rfl := List.singleton_inj.mp hop
      rw [List.length_append, List.length_singleton] at hlen
      have hother : key ≠ k := hothers _ (List.mem_append_right _ List.mem_cons_self)
      obtain ⟨hfound, newer, hnewer, hsuffix⟩ := h.recent past k v later hbefore
        (fun op hop => hothers op (List.mem_append_left _ hop)) (Nat.lt_of_succ_lt hlen)
      have hstays : k :: newer <:+ evict b.capacity b.deque := by
        refine suffix_evict hsuffix ?_
        rw [List.length_cons, hnewer]
        exact hlen
      refine ⟨?_, newer ++ [key], ?_, ?_⟩
      · show Function.update b.makeRoom.map key (some value) k = some v
        rw [Function.update_of_ne hother.symm]
        exact (hvalues k (hstays.subset List.mem_cons_self)).trans hfound
      · rw [List.length_append, List.length_append, hnewer]
        rfl
      · obtain ⟨older, holder⟩ := hstays
        exact ⟨older, by rw [← holder, ← List.cons_append, List.append_assoc]⟩

theorem Kept.apply {ops : List (Op K V)} {op : Op K V} (h : Kept ops b) (hop : b.Fresh op) :
    Kept (ops ++ [op]) (b.apply op) := by
  cases op with
  | insert key value => exact h.insert hop
  | popFront =>
      have hholds := h.holds.popFront.1
      refine ⟨?_, ?_⟩
      · show b.popFront.2.Holds b.popFront.2.deque
        rw [hholds.deque_eq]
        exact hholds
      · -- the last operation is none that an entry outlives
        intro past k v later hops hothers _
        rcases List.eq_nil_or_concat' later with rfl | ⟨later, op, rfl⟩
        · obtain ⟨-, hop⟩ := List.append_inj' hops rfl
          cases List.singleton_inj.mp hop
        · rw [← List.cons_append, ← List.append_assoc] at hops
          obtain ⟨-, hop⟩ := List.append_inj' hops rfl
          obtain rfl := List.singleton_inj.mp hop
          exact (hothers _ (List.mem_append_right _ List.mem_cons_self)).elim

/-- After every prefix of the operations, the buffer keeps what it should. -/
def KeepsThroughout (capacity : Nat) (ops : List (Op K V)) : Prop :=
  ∀ past, past <+: ops → KeepsEntries past (execute capacity past)

/-- **ENTRIES STAY EXACTLY AS LONG AS NO QUEUED KEY COMES BACK**: after every prefix of a
    sequence of operations, recent entries are found and all values listed once, if and
    only if no insertion is of a key that is still queued when room has been made. -/
theorem keeps_iff (capacity : Nat) (ops : List (Op K V)) :
    KeepsThroughout capacity ops ↔
      ∀ past op, past ++ [op] <+: ops → (execute capacity past).Fresh op := by
  refine MachineRun.prefixes_iff (I := Kept) (J := KeepsEntries) ?_ ?_ ?_ ?_ ops
  · refine ⟨holds_new capacity, ?_⟩
    intro past k v later hops
    simp at hops
  · intro past b h
    exact h.keepsEntries
  · intro past b op h hop
    exact h.apply hop
  · intro past b op h hstep
    cases op with
    | insert key value => exact h.holds.not_queued hstep.listed
    | popFront => trivial

/-- **A KEY THAT COMES BACK LOSES ITS ENTRY** to its own old place in the queue, with one
    more insertion into a buffer for two. -/
theorem repeated_key_is_lost :
    ¬ ∀ (capacity : Nat) (ops : List (Op Nat Nat)), 0 < capacity →
      KeepsThroughout capacity ops := by
  intro hclaim
  have h := (hclaim 2 [.insert 1 10, .insert 1 11, .insert 2 20] (by decide) _
    (List.prefix_refl _)).found [.insert 1 10] 1 11 [.insert 2 20] rfl
    (by simp [Op.InsertsOther]) (by decide)
  exact absurd h (by decide)

-- ── Keys that never come back ───────────────────────────────────────────────

/-- The keys inserted, in order. -/
def insertedKeys : List (Op K V) → List K
  | []                   => []
  | .insert key _ :: ops => key :: insertedKeys ops
  | .popFront :: ops     => insertedKeys ops

omit [DecidableEq K] in
theorem insertedKeys_append (ops ops' : List (Op K V)) :
    insertedKeys (ops ++ ops') = insertedKeys ops ++ insertedKeys ops' := by
  induction ops with
  | nil => rfl
  | cons op ops ih => cases op <;> simp [insertedKeys, ih]

/-- Only inserted keys are queued. -/
theorem deque_subset_inserted (capacity : Nat) (ops : List (Op K V)) :
    (execute capacity ops).deque ⊆ insertedKeys ops := by
  have hpop : ∀ b : CircularBuffer K V, b.popFront.2.deque ⊆ b.deque := by
    intro b
    rw [popFront]
    split
    · exact List.Subset.refl _
    · next hdeque =>
        rw [hdeque]
        exact List.subset_cons_self _ _
  induction ops using List.reverseRecOn with
  | nil => exact List.nil_subset _
  | append_singleton ops op ih =>
      rw [execute, List.foldl_append, insertedKeys_append]
      cases op with
      | insert key value =>
          intro k hk
          rw [List.mem_append]
          rcases List.mem_append.mp hk with hk | hk
          · refine Or.inl (ih ?_)
            rw [makeRoom] at hk
            split at hk
            · exact hpop _ hk
            · exact hk
          · exact Or.inr hk
      | popFront =>
          rw [insertedKeys, insertedKeys, List.append_nil]
          exact List.Subset.trans (hpop _) ih

/-- **KEYS INSERTED ONCE KEEP THEIR ENTRIES.** -/
theorem keeps_of_distinct (capacity : Nat) {ops : List (Op K V)}
    (hdistinct : (insertedKeys ops).Nodup) : KeepsThroughout capacity ops := by
  refine (keeps_iff capacity ops).mpr ?_
  intro past op hp
  cases op with
  | popFront => trivial
  | insert key value =>
      intro hqueued
      obtain ⟨later, rfl⟩ := hp
      rw [insertedKeys_append, insertedKeys_append] at hdistinct
      have hold := deque_subset_inserted capacity past ((evict_sublist _ _).mem hqueued)
      exact (List.nodup_append.mp (List.nodup_append.mp hdistinct).1).2.2 key hold key
        List.mem_cons_self rfl

end CircularBuffer

end FoxfireBuffer
