import Mathlib.Data.Finset.Card
import FoxfireSniper.CircularBufferProofs
import FoxfireSniper.MachineRunProofs

/-! # The five fields of the buffer — are they kept in step?

    The rest of `src/utils/circular_buffer_w_rev.rs`, and sequences of its operations.
    The two maps and the two queues say the same thing four times over, and the operations
    do not all touch the same ones: a key that comes back is queued again and leaves its
    old value behind, a value that comes back changes hands in one map only, and `remove`
    leaves the queue of keys alone and takes the oldest value out of the other queue.

    * **`Lists`**: the buffer shows these entries, each key and each value once.
    * **`in_step_iff`**: so it does, in the order of insertion, exactly as long as no
      insertion meets an entry that stays and nothing is removed. -/

namespace FoxfireBuffer

namespace CircularBufferWithLookupByValue

open FifoWindow

variable {K V : Type} [DecidableEq K] [DecidableEq V]

-- ── The other operations ────────────────────────────────────────────────────

/-- `remove`: the value leaves its map, and the oldest value its queue. -/
def remove (b : CircularBufferWithLookupByValue K V) (key : K) :
    Option V × CircularBufferWithLookupByValue K V :=
  match b.map key with
  | none       => (none, b)
  | some value =>
      (some value,
        { b with
          map := Function.update b.map key none
          reverseMap := Function.update b.reverseMap value none
          reverseDeque := b.reverseDeque.tail })

def len (b : CircularBufferWithLookupByValue K V) : Nat := b.deque.length

def getAllValues (b : CircularBufferWithLookupByValue K V) : List V := b.reverseDeque

inductive Op (K V : Type) where
  | insert (key : K) (value : V)
  | popFront
  | remove (key : K)

def apply (b : CircularBufferWithLookupByValue K V) : Op K V → CircularBufferWithLookupByValue K V
  | .insert key value => b.insert key value
  | .popFront         => b.popFront.2
  | .remove key       => (b.remove key).2

/-- A new buffer after these operations. -/
def execute (capacity : Nat) (ops : List (Op K V)) : CircularBufferWithLookupByValue K V :=
  ops.foldl apply (new capacity)

def Op.insertedKey : Op K V → Option K
  | .insert key _ => some key
  | _             => none

/-- The keys that were inserted, in order. -/
def insertedKeys (ops : List (Op K V)) : List K := ops.filterMap Op.insertedKey

-- ── In step ─────────────────────────────────────────────────────────────────

/-- The fields agree, and the queues have the order in which keys were inserted. -/
structure InStep (inserted : List K) (b : CircularBufferWithLookupByValue K V) : Prop where
  inverse   : ∀ k v, b.getByKey k = some v ↔ b.getByValue v = some k
  once      : b.deque.Nodup
  keys      : ∀ k, k ∈ b.deque ↔ b.containsKey k = true
  order     : b.deque.Sublist inserted
  values    : b.reverseDeque.map some = b.deque.map b.getByKey
  allValues : ∀ v, v ∈ b.getAllValues ↔ ∃ k, b.getByKey k = some v
  size      : ∃ entries : Finset (K × V),
    (∀ k v, (k, v) ∈ entries ↔ b.getByKey k = some v) ∧ b.len = entries.card
  bounded   : b.len ≤ b.capacity

/-- The operation disturbs no entry that stays: an insertion shares neither its key nor its
    value with one, unless that is the oldest of a full buffer; what is removed is not
    there. -/
def Undisturbed (b : CircularBufferWithLookupByValue K V) : Op K V → Prop
  | .insert key value => ∀ k v, b.getByKey k = some v →
      (b.len = b.capacity ∧ b.deque.head? = some k) ∨ (k ≠ key ∧ v ≠ value)
  | .popFront         => True
  | .remove key       => b.containsKey key = false

/-- The buffer shows the entries `es`, oldest first. -/
structure Lists (b : CircularBufferWithLookupByValue K V) (es : List (K × V)) : Prop where
  deque_eq   : b.deque = es.map Prod.fst
  reverse_eq : b.reverseDeque = es.map Prod.snd
  keys       : (es.map Prod.fst).Nodup
  values     : (es.map Prod.snd).Nodup
  map_iff    : ∀ k v, b.map k = some v ↔ (k, v) ∈ es
  rev_iff    : ∀ v k, b.reverseMap v = some k ↔ (k, v) ∈ es

variable {b : CircularBufferWithLookupByValue K V} {es : List (K × V)}

omit [DecidableEq K] [DecidableEq V] in
theorem lists_new (capacity : Nat) :
    (new capacity : CircularBufferWithLookupByValue K V).Lists [] where
  deque_eq := rfl
  reverse_eq := rfl
  keys := List.nodup_nil
  values := List.nodup_nil
  map_iff := by intro k v; simp [new]
  rev_iff := by intro v k; simp [new]

omit [DecidableEq K] [DecidableEq V] in
theorem Lists.length_eq (h : b.Lists es) : b.deque.length = es.length := by
  rw [h.deque_eq, List.length_map]

/-- What is left of a lookup when one key is taken out. -/
theorem update_none_iff {A B : Type} [DecidableEq A] {f : A → Option B} {a x : A} {y : B} :
    Function.update f a none x = some y ↔ f x = some y ∧ x ≠ a := by
  rw [Function.update_apply]
  by_cases hx : x = a
  · simp [hx]
  · simp [hx]

/-- **POPPING** takes the oldest entry out of all fields. -/
theorem Lists.popFront (h : b.Lists es) : b.popFront.2.Lists es.tail := by
  cases es with
  | nil =>
      have hb : b.popFront.2 = b := by
        simp [CircularBufferWithLookupByValue.popFront, h.deque_eq]
      rw [hb]
      exact h
  | cons e es =>
      obtain ⟨key, value⟩ := e
      have hkeys := List.nodup_cons.mp h.keys
      have hvalues := List.nodup_cons.mp h.values
      have hmap : b.map key = some value := (h.map_iff key value).mpr List.mem_cons_self
      have hrev : b.reverseMap value = some key := (h.rev_iff value key).mpr List.mem_cons_self
      have hpop : b.popFront.2 = { b with
          map := Function.update b.map key none
          reverseMap := Function.update b.reverseMap value none
          deque := es.map Prod.fst
          reverseDeque := b.reverseDeque.tail } := by
        simp only [CircularBufferWithLookupByValue.popFront, h.deque_eq, List.map_cons, hmap]
      rw [hpop]
      refine ⟨rfl, ?_, hkeys.2, hvalues.2, ?_, ?_⟩
      · show b.reverseDeque.tail = _
        rw [h.reverse_eq]
        rfl
      · intro k v
        show Function.update b.map key none k = some v ↔ _
        rw [update_none_iff, h.map_iff, List.mem_cons, List.tail_cons]
        constructor
        · rintro ⟨heq | hmem, hk⟩
          · exact absurd (Prod.mk.inj heq).1 hk
          · exact hmem
        · intro hmem
          refine ⟨Or.inr hmem, ?_⟩
          rintro rfl
          exact hkeys.1 (List.mem_map.mpr ⟨_, hmem, rfl⟩)
      · intro v k
        show Function.update b.reverseMap value none v = some k ↔ _
        rw [update_none_iff, h.rev_iff, List.mem_cons, List.tail_cons]
        constructor
        · rintro ⟨heq | hmem, hv⟩
          · exact absurd (Prod.mk.inj heq).2 hv
          · exact hmem
        · intro hmem
          refine ⟨Or.inr hmem, ?_⟩
          rintro rfl
          exact hvalues.1 (List.mem_map.mpr ⟨_, hmem, rfl⟩)

/-- The oldest entry is what is popped. -/
theorem Lists.popped (h : b.Lists es) : b.popFront.1 = es.head? := by
  cases es with
  | nil => simp [CircularBufferWithLookupByValue.popFront, h.deque_eq]
  | cons e es =>
      have hmap : b.map e.1 = some e.2 := (h.map_iff e.1 e.2).mpr List.mem_cons_self
      simp [CircularBufferWithLookupByValue.popFront, h.deque_eq, hmap]

theorem Lists.makeRoom (h : b.Lists es) : b.makeRoom.Lists (evict b.capacity es) := by
  by_cases hfull : es.length = b.capacity
  · rw [CircularBufferWithLookupByValue.makeRoom, evict, h.length_eq, if_pos hfull,
      if_pos hfull]
    exact h.popFront
  · rw [CircularBufferWithLookupByValue.makeRoom, evict, h.length_eq, if_neg hfull,
      if_neg hfull]
    exact h

/-- **AN INSERTION** of a new key with a new value appends an entry. -/
theorem Lists.insert (h : b.Lists es) {key : K} {value : V}
    (hnew : ∀ e ∈ evict b.capacity es, e.1 ≠ key ∧ e.2 ≠ value) :
    (b.insert key value).Lists (evict b.capacity es ++ [(key, value)]) := by
  have hr := h.makeRoom
  refine ⟨?_, ?_, ?_, ?_, ?_, ?_⟩
  · show b.makeRoom.deque ++ [key] = _
    rw [hr.deque_eq, List.map_append]
    rfl
  · show b.makeRoom.reverseDeque ++ [value] = _
    rw [hr.reverse_eq, List.map_append]
    rfl
  · rw [List.map_append, List.map_singleton, ← List.concat_eq_append]
    refine hr.keys.concat ?_
    rintro hmem
    obtain ⟨e, he, heq⟩ := List.mem_map.mp hmem
    exact (hnew e he).1 heq
  · rw [List.map_append, List.map_singleton, ← List.concat_eq_append]
    refine hr.values.concat ?_
    rintro hmem
    obtain ⟨e, he, heq⟩ := List.mem_map.mp hmem
    exact (hnew e he).2 heq
  · intro k v
    show Function.update b.makeRoom.map key (some value) k = some v ↔ _
    rw [Function.update_apply, List.mem_append, List.mem_singleton, ← hr.map_iff]
    by_cases hk : k = key
    · subst hk
      have hnone : ∀ w, b.makeRoom.map k ≠ some w :=
        fun w hw => (hnew _ ((hr.map_iff k w).mp hw)).1 rfl
      simp [hnone v, eq_comm]
    · simp [hk]
  · intro v k
    show Function.update b.makeRoom.reverseMap value (some key) v = some k ↔ _
    rw [Function.update_apply, List.mem_append, List.mem_singleton, ← hr.rev_iff]
    by_cases hv : v = value
    · subst hv
      have hnone : ∀ w, b.makeRoom.reverseMap v ≠ some w :=
        fun w hw => (hnew _ ((hr.rev_iff v w).mp hw)).2 rfl
      simp [hnone k, eq_comm]
    · simp [hv]

/-- **ENTRIES THAT ARE LISTED ARE IN STEP.** -/
theorem Lists.inStep (h : b.Lists es) {inserted : List K}
    (horder : (es.map Prod.fst).Sublist inserted) (hlen : es.length ≤ b.capacity) :
    b.InStep inserted where
  inverse k v := (h.map_iff k v).trans (h.rev_iff v k).symm
  once := h.deque_eq ▸ h.keys
  keys k := by
    rw [h.deque_eq, containsKey, Option.isSome_iff_exists, List.mem_map]
    constructor
    · rintro ⟨e, he, rfl⟩
      exact ⟨e.2, (h.map_iff _ _).mpr he⟩
    · rintro ⟨v, hv⟩
      exact ⟨(k, v), (h.map_iff _ _).mp hv, rfl⟩
  order := h.deque_eq ▸ horder
  values := by
    rw [h.reverse_eq, h.deque_eq, List.map_map, List.map_map]
    refine List.map_congr_left ?_
    intro e he
    exact ((h.map_iff e.1 e.2).mpr he).symm
  allValues v := by
    rw [getAllValues, h.reverse_eq, List.mem_map]
    constructor
    · rintro ⟨e, he, rfl⟩
      exact ⟨e.1, (h.map_iff _ _).mpr he⟩
    · rintro ⟨k, hk⟩
      exact ⟨(k, v), (h.map_iff _ _).mp hk, rfl⟩
  size := by
    refine ⟨es.toFinset, fun k v => List.mem_toFinset.trans (h.map_iff k v).symm, ?_⟩
    rw [List.toFinset_card_of_nodup (List.Nodup.of_map _ h.keys)]
    exact h.length_eq
  bounded := by
    rw [len, h.length_eq]
    exact hlen

-- ── One operation ───────────────────────────────────────────────────────────

/-- What the undisturbed operations keep. -/
def Kept (inserted : List K) (b : CircularBufferWithLookupByValue K V) : Prop :=
  0 < b.capacity ∧ ∃ es, b.Lists es ∧ (es.map Prod.fst).Sublist inserted ∧
    es.length ≤ b.capacity

theorem Kept.inStep {inserted : List K} (h : b.Kept inserted) : b.InStep inserted := by
  obtain ⟨-, es, hlists, horder, hlen⟩ := h
  exact hlists.inStep horder hlen

omit [DecidableEq K] [DecidableEq V] in
/-- The entries that survive the eviction are those that are not the oldest of a full
    buffer. -/
theorem Lists.mem_evict (h : b.Lists es) (hpos : 0 < b.capacity) {k : K} {v : V} :
    (k, v) ∈ evict b.capacity es ↔
      (k, v) ∈ es ∧ ¬ (b.len = b.capacity ∧ b.deque.head? = some k) := by
  rw [len, h.length_eq, h.deque_eq, evict]
  by_cases hfull : es.length = b.capacity
  · rw [if_pos hfull]
    cases es with
    | nil => simp at hfull; omega
    | cons e es =>
        have hkeys := List.nodup_cons.mp h.keys
        rw [List.tail_cons, List.mem_cons, List.map_cons, List.head?_cons, Option.some.injEq]
        constructor
        · intro hmem
          refine ⟨Or.inr hmem, ?_⟩
          rintro ⟨-, heq⟩
          exact hkeys.1 (List.mem_map.mpr ⟨_, hmem, heq.symm⟩)
        · rintro ⟨heq | hmem, hne⟩
          · exact absurd ⟨hfull, by rw [← heq]⟩ hne
          · exact hmem
  · rw [if_neg hfull]
    exact (and_iff_left fun hf => hfull hf.1).symm

omit [DecidableEq K] [DecidableEq V] in
theorem evict_length_lt {capacity : Nat} (hpos : 0 < capacity) (hlen : es.length ≤ capacity) :
    (evict capacity es).length < capacity := by
  by_cases hfull : es.length = capacity
  · rw [evict, if_pos hfull, List.length_tail]
    omega
  · rw [evict, if_neg hfull]
    omega

theorem apply_capacity (b : CircularBufferWithLookupByValue K V) (op : Op K V) :
    (b.apply op).capacity = b.capacity := by
  cases op with
  | insert key value => exact insert_capacity b key value
  | popFront => exact popFront_capacity b
  | remove key =>
      simp only [apply, remove]
      split <;> rfl

/-- **AN UNDISTURBED OPERATION KEEPS THE FIELDS IN STEP.** -/
theorem Kept.apply {past : List (Op K V)} {op : Op K V} (h : b.Kept (insertedKeys past))
    (hop : b.Undisturbed op) : (b.apply op).Kept (insertedKeys (past ++ [op])) := by
  obtain ⟨hpos, es, hlists, horder, hlen⟩ := h
  refine ⟨by rw [apply_capacity]; exact hpos, ?_⟩
  rw [apply_capacity, insertedKeys, List.filterMap_append]
  cases op with
  | insert key value =>
      have hnew : ∀ e ∈ evict b.capacity es, e.1 ≠ key ∧ e.2 ≠ value := by
        intro e he
        obtain ⟨hmem, hstays⟩ := (hlists.mem_evict hpos).mp he
        rcases hop e.1 e.2 ((hlists.map_iff _ _).mpr hmem) with hold | hne
        · exact absurd hold hstays
        · exact hne
      refine ⟨_, hlists.insert hnew, ?_, ?_⟩
      · rw [List.map_append]
        exact (((evict_sublist _ _).map _).trans horder).append (List.Sublist.refl _)
      · rw [List.length_append]
        exact evict_length_lt hpos hlen
  | popFront =>
      refine ⟨es.tail, hlists.popFront, ?_, ?_⟩
      · exact (((List.tail_sublist es).map _).trans horder).trans (List.sublist_append_left _ _)
      · rw [List.length_tail]
        omega
  | remove key =>
      have hnone : b.map key = none := Option.not_isSome_iff_eq_none.mp (by
        show ¬ b.containsKey key = true
        rw [show b.containsKey key = false from hop]
        exact Bool.false_ne_true)
      have hsame : b.apply (.remove key) = b := by
        simp only [CircularBufferWithLookupByValue.apply, remove, hnone]
      rw [hsame]
      exact ⟨es, hlists, horder.trans (List.sublist_append_left _ _), hlen⟩

/-- **ANY OTHER OPERATION PUTS THEM OUT OF STEP.** -/
theorem Kept.undisturbed {inserted inserted' : List K} {op : Op K V} (h : b.Kept inserted)
    (hstep : (b.apply op).InStep inserted') : b.Undisturbed op := by
  obtain ⟨hpos, es, hlists, -, -⟩ := h
  cases op with
  | popFront => trivial
  | insert key value =>
      intro k v hkv
      by_contra hbad
      rw [not_or] at hbad
      obtain ⟨hstays, hclash⟩ := hbad
      have hr := hlists.makeRoom
      have hmem : (k, v) ∈ evict b.capacity es :=
        (hlists.mem_evict hpos).mpr ⟨(hlists.map_iff k v).mp hkv, hstays⟩
      by_cases hk : k = key
      · -- the key is queued twice
        subst hk
        have hnodup : (b.makeRoom.deque ++ [k]).Nodup := hstep.once
        rw [hr.deque_eq, List.nodup_append] at hnodup
        exact hnodup.2.2 k (List.mem_map.mpr ⟨_, hmem, rfl⟩) k List.mem_cons_self rfl
      · -- the value has two keys in one map, and the new one in the other
        obtain rfl : v = value := by
          by_contra hv
          exact hclash ⟨hk, hv⟩
        have hmap : (b.insert key v).getByKey k = some v := by
          show Function.update b.makeRoom.map key (some v) k = some v
          rw [Function.update_of_ne hk]
          exact (hr.map_iff k v).mpr hmem
        have hrev : (b.insert key v).getByValue v = some key := by
          rw [getByValue_insert, if_pos rfl]
        have hback := (hstep.inverse k v).mp hmap
        exact hk (Option.some.inj (hback.symm.trans hrev))
  | remove key =>
      show (b.map key).isSome = false
      by_contra hthere
      rw [Bool.not_eq_false, Option.isSome_iff_exists] at hthere
      obtain ⟨value, hv⟩ := hthere
      have hafter : b.apply (.remove key) = { b with
          map := Function.update b.map key none
          reverseMap := Function.update b.reverseMap value none
          reverseDeque := b.reverseDeque.tail } := by
        simp only [CircularBufferWithLookupByValue.apply, remove, hv]
      rw [hafter] at hstep
      have hqueued : key ∈ b.deque := by
        rw [hlists.deque_eq]
        exact List.mem_map.mpr ⟨_, (hlists.map_iff key value).mp hv, rfl⟩
      have hgone := (hstep.keys key).mp hqueued
      simp [containsKey] at hgone

-- ── Sequences of operations ─────────────────────────────────────────────────

/-- The fields are in step after every prefix of the operations. -/
def StaysInStep (capacity : Nat) (ops : List (Op K V)) : Prop :=
  ∀ past, past <+: ops → (execute capacity past).InStep (insertedKeys past)

/-- **THE FIELDS ARE IN STEP EXACTLY AS LONG AS NO ENTRY IS DISTURBED**: after every
    prefix of a sequence of operations they are if and only if every insertion was of a key
    and a value that no staying entry has, and every removal of a key that was not
    there. -/
theorem in_step_iff {capacity : Nat} (hcap : 0 < capacity) (ops : List (Op K V)) :
    StaysInStep capacity ops ↔
      ∀ past op, past ++ [op] <+: ops → (execute capacity past).Undisturbed op := by
  refine MachineRun.prefixes_iff (I := fun past => Kept (insertedKeys past))
    (J := fun past => InStep (insertedKeys past)) ?_ ?_ ?_ ?_ ops
  · exact ⟨hcap, [], lists_new capacity, List.Sublist.refl _, Nat.zero_le _⟩
  · intro past b h
    exact h.inStep
  · intro past b op h hop
    exact h.apply hop
  · intro past b op h hstep
    exact h.undisturbed hstep

/-- An entry leaves the buffer and comes back. -/
def returningEntry : List (Op Nat Nat) := [.insert 1 10, .popFront, .insert 1 10]

theorem returning_entry_in_step : StaysInStep 1 returningEntry := by
  refine (in_step_iff (by decide) returningEntry).mpr ?_
  intro past op hp
  have hmem : past ++ [op] ∈ returningEntry.inits := (List.mem_inits _ _).mpr hp
  have hinits : returningEntry.inits = [[], [] ++ [.insert 1 10], [.insert 1 10] ++ [.popFront],
      [.insert 1 10, .popFront] ++ [.insert 1 10]] := rfl
  rw [hinits] at hmem
  simp only [List.mem_cons, List.not_mem_nil, or_false] at hmem
  rcases hmem with h | h | h | h
  · simp at h
  · obtain ⟨rfl, hop⟩ := List.append_inj' h rfl
    obtain rfl := List.singleton_inj.mp hop
    intro k v hkv
    cases hkv
  · obtain ⟨rfl, hop⟩ := List.append_inj' h rfl
    obtain rfl := List.singleton_inj.mp hop
    trivial
  · obtain ⟨rfl, hop⟩ := List.append_inj' h rfl
    obtain rfl := List.singleton_inj.mp hop
    intro k v hkv
    have hempty : ∀ k, (execute 1 [.insert 1 10, .popFront] :
        CircularBufferWithLookupByValue Nat Nat).getByKey k = none := by
      intro k
      by_cases hk : k = 1
      · subst hk
        rfl
      · exact (Function.update_of_ne hk ..).trans (Function.update_of_ne hk ..)
    rw [hempty k] at hkv
    cases hkv

/-- **A KEY THAT COMES BACK IS QUEUED TWICE.** -/
theorem repeated_key_out_of_step :
    ¬ ∀ (capacity : Nat) (ops : List (Op Nat Nat)), 0 < capacity → StaysInStep capacity ops := by
  intro hclaim
  have h := (hclaim 2 [.insert 1 10, .insert 1 11] (by decide) _ (List.prefix_refl _)).once
  exact absurd h (by decide)

end CircularBufferWithLookupByValue

end FoxfireBuffer
