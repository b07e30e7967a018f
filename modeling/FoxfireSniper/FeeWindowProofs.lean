import Mathlib.Data.List.Induction
import Mathlib.Data.List.Rotate
import Mathlib.Data.Rat.Floor
import FoxfireSniper.CacheProofs
import FoxfireSniper.LargestProofs
import FoxfireSniper.RoundingProofs

/-! # The fee statistics — what a full set forgets

    `Percentile` of `src/utils/fee_metrics.rs` is a set of fees with a capacity, and a full set
    gives up its least fee before the next one comes.  It is fed with the fee of every
    successful transaction, "to get the most recent fees", beside a ring of the last ones.  But
    a set does not know how old a fee is, and takes equal fees for one.

    * `values_afterFees`: WHAT IS RETAINED is the last fee, and the largest ones before it.
    * **`forgets_iff`**: two histories with the same recent fees leave the same set exactly when
      they have the same largest fees.
    * `largest_fee_stays`: a fee that is never exceeded is never forgotten.
    * `ring_forgets`: the ring beside it does forget what is older than its size. -/

namespace FoxfireFees

open FoxfireTypes FoxfireCache Largest

-- ── Percentiles ─────────────────────────────────────────────────────────────

/-- `RT_FEE_PERCENTILE` -/
def rtFeePercentile : ℚ := 80

/-- The position of a percentile among this many fees; the source computes it in `f64`. -/
def percentilePosition (percentile : ℚ) (len : Nat) : Nat :=
  (RoundedShares.roundHalfAway (percentile / 100 * (len - 1 : ℚ))).toNat

def getPercentile (p : Percentile) (percentile : ℚ) : Option UInt64 :=
  if p.data.isEmpty then none else p.data[percentilePosition percentile p.data.length]?

def getOptimalFee (c : OperationalCache) : UInt64 :=
  (getPercentile c.optimalFee.percentile rtFeePercentile).getD 0

/-- A new set after these fees. -/
def afterFees (capacity : Nat) (fees : List UInt64) : Percentile :=
  fees.foldl Percentile.add ⟨[], capacity⟩

/-- The fees of the transactions reach the set in their order. -/
theorem getOptimalFee_eq (pools : Pubkey → Option RaydiumPool)
    (prices : Pubkey → Option RaydiumPoolPriceUpdate) (fees : List UInt64) :
    getOptimalFee (fees.foldl OperationalCache.updateOptimalFee
        (OperationalCache.new pools prices)) =
      (getPercentile (afterFees rtFeePercentileCapacity fees) rtFeePercentile).getD 0 := by
  have hset : ∀ (fees : List UInt64) (c : OperationalCache),
      (fees.foldl OperationalCache.updateOptimalFee c).optimalFee.percentile =
        fees.foldl Percentile.add c.optimalFee.percentile := by
    intro fees
    induction fees with
    | nil => exact fun c => rfl
    | cons fee fees ih => exact fun c => ih (c.updateOptimalFee fee)
  rw [getOptimalFee, hset]
  rfl

-- ── Sets of fees ────────────────────────────────────────────────────────────

/-- The fees of a list, as a set of numbers. -/
def values (fees : List UInt64) : Finset ℕ := (fees.map UInt64.toNat).toFinset

theorem mem_values {fees : List UInt64} {x : UInt64} : x.toNat ∈ values fees ↔ x ∈ fees := by
  rw [values, List.mem_toFinset, List.mem_map]
  constructor
  · rintro ⟨y, hy, heq⟩
    rw [← UInt64.toNat_inj.mp heq]
    exact hy
  · exact fun hx => ⟨x, hx, rfl⟩

theorem values_concat (fees : List UInt64) (v : UInt64) :
    values (fees ++ [v]) = insert v.toNat (values fees) := by
  ext n
  simp [values, eq_comm]

theorem mem_insertSorted {v x : UInt64} {fees : List UInt64} :
    x ∈ insertSorted v fees ↔ x = v ∨ x ∈ fees := by
  induction fees with
  | nil => simp [insertSorted]
  | cons y fees ih =>
      rw [insertSorted]
      by_cases hlt : v < y
      · rw [if_pos hlt, List.mem_cons]
      · rw [if_neg hlt]
        by_cases heq : v = y
        · subst heq
          rw [if_pos rfl, List.mem_cons]
          tauto
        · rw [if_neg heq, List.mem_cons, ih, List.mem_cons]
          tauto

theorem values_insertSorted (v : UInt64) (fees : List UInt64) :
    values (insertSorted v fees) = insert v.toNat (values fees) := by
  rw [← values_concat]
  ext n
  simp only [values, List.mem_toFinset, List.mem_map, mem_insertSorted, List.mem_append,
    List.mem_singleton]
  exact exists_congr fun x => and_congr_left' or_comm

/-- The set stays in order. -/
theorem insertSorted_sorted {v : UInt64} {fees : List UInt64} (h : fees.Pairwise (· < ·)) :
    (insertSorted v fees).Pairwise (· < ·) := by
  induction fees with
  | nil => exact List.pairwise_singleton ..
  | cons y fees ih =>
      obtain ⟨hy, hfees⟩ := List.pairwise_cons.mp h
      rw [insertSorted]
      by_cases hlt : v < y
      · rw [if_pos hlt]
        refine List.pairwise_cons.mpr ⟨?_, h⟩
        intro x hx
        rcases List.mem_cons.mp hx with rfl | hx
        · exact hlt
        · exact UInt64.lt_trans hlt (hy x hx)
      · rw [if_neg hlt]
        by_cases heq : v = y
        · rw [if_pos heq]
          exact h
        · rw [if_neg heq]
          refine List.pairwise_cons.mpr ⟨?_, ih hfees⟩
          intro x hx
          rcases mem_insertSorted.mp hx with rfl | hx
          · exact UInt64.lt_of_le_of_ne (UInt64.not_lt.mp hlt) (Ne.symm heq)
          · exact hy x hx

theorem nodup_of_sorted {fees : List UInt64} (h : fees.Pairwise (· < ·)) : fees.Nodup :=
  h.imp fun hlt => UInt64.ne_of_lt hlt

/-- Two sets in order with the same fees are the same. -/
theorem eq_of_values_eq {a b : List UInt64} (ha : a.Pairwise (· < ·)) (hb : b.Pairwise (· < ·))
    (h : values a = values b) : a = b := by
  have hmem : ∀ x, x ∈ a ↔ x ∈ b := by
    intro x
    rw [← mem_values, h, mem_values]
  have hperm : a.Perm b :=
    (List.perm_ext_iff_of_nodup (nodup_of_sorted ha) (nodup_of_sorted hb)).mpr hmem
  refine hperm.eq_of_pairwise ?_ ha hb
  intro x y _ _ hxy hyx
  exact absurd (UInt64.lt_trans hxy hyx) (UInt64.lt_irrefl x)

/-- As many numbers as fees. -/
theorem card_values {fees : List UInt64} (h : fees.Nodup) :
    (values fees).card = fees.length := by
  have hnodup : (fees.map UInt64.toNat).Nodup :=
    h.map fun _ _ heq => UInt64.toNat_inj.mp heq
  rw [values, List.toFinset_card_of_nodup hnodup, List.length_map]

-- ── What is retained ────────────────────────────────────────────────────────

/-- A set that is full gives up its least fee. -/
def makeRoom (capacity : Nat) (fees : List UInt64) : List UInt64 :=
  if fees.length = capacity then fees.tail else fees

theorem add_data (p : Percentile) (v : UInt64) :
    (p.add v).data = insertSorted v (makeRoom p.capacity p.data) := rfl

theorem makeRoom_sorted {capacity : Nat} {fees : List UInt64} (h : fees.Pairwise (· < ·)) :
    (makeRoom capacity fees).Pairwise (· < ·) := by
  rw [makeRoom]
  by_cases hfull : fees.length = capacity
  · rw [if_pos hfull]
    exact h.sublist (List.tail_sublist fees)
  · rw [if_neg hfull]
    exact h

/-- What is left are the largest fees but one. -/
theorem values_makeRoom {k : Nat} {fees : List UInt64} (h : fees.Pairwise (· < ·))
    (hle : fees.length ≤ k + 1) : values (makeRoom (k + 1) fees) = top k (values fees) := by
  rw [makeRoom]
  by_cases hfull : fees.length = k + 1
  · rw [if_pos hfull]
    cases fees with
    | nil => cases hfull
    | cons m fees =>
        obtain ⟨hleast, hfees⟩ := List.pairwise_cons.mp h
        have hcard := card_values (nodup_of_sorted h)
        have hmem : m.toNat ∈ values (m :: fees) := mem_values.mpr List.mem_cons_self
        have hmin : ∀ n ∈ values (m :: fees), m.toNat ≤ n := by
          intro n hn
          obtain ⟨x, hx, rfl⟩ := List.mem_map.mp (List.mem_toFinset.mp hn)
          rcases List.mem_cons.mp hx with rfl | hx
          · exact le_rfl
          · exact (UInt64.lt_iff_toNat_lt.mp (hleast x hx)).le
        have hnot : m.toNat ∉ values fees := by
          intro hin
          exact UInt64.lt_irrefl m (hleast m (mem_values.mp hin))
        rw [← erase_least hmem hmin (hcard.trans hfull), List.tail_cons]
        have hinsert : values (m :: fees) = insert m.toNat (values fees) := List.toFinset_cons
        rw [hinsert, Finset.erase_insert hnot]
  · rw [if_neg hfull, top_eq_self]
    rw [card_values (nodup_of_sorted h)]
    exact Nat.le_of_lt_succ (lt_of_le_of_ne hle hfull)

theorem afterFees_concat (capacity : Nat) (fees : List UInt64) (v : UInt64) :
    afterFees capacity (fees ++ [v]) = (afterFees capacity fees).add v := by
  rw [afterFees, List.foldl_append]
  rfl

theorem afterFees_capacity (capacity : Nat) (fees : List UInt64) :
    (afterFees capacity fees).capacity = capacity := by
  induction fees using List.reverseRecOn with
  | nil => rfl
  | append_singleton fees v ih =>
      rw [afterFees_concat]
      exact ih

theorem insertSorted_length_le (v : UInt64) (fees : List UInt64) :
    (insertSorted v fees).length ≤ fees.length + 1 := by
  induction fees with
  | nil => exact le_rfl
  | cons y fees ih =>
      rw [insertSorted]
      split
      · exact le_rfl
      · split
        · exact Nat.le_succ _
        · exact Nat.succ_le_succ ih

theorem makeRoom_length_le {k : Nat} {fees : List UInt64} (hle : fees.length ≤ k + 1) :
    (makeRoom (k + 1) fees).length ≤ k := by
  rw [makeRoom]
  by_cases hfull : fees.length = k + 1
  · rw [if_pos hfull, List.length_tail]
    omega
  · rw [if_neg hfull]
    omega

/-- The set has the largest fees of the history, in order, and not too many. -/
structure Retains (k : Nat) (fees : List UInt64) (data : List UInt64) : Prop where
  sorted  : data.Pairwise (· < ·)
  length  : data.length ≤ k + 1
  largest : top k (values data) = top k (values fees)

/-- What one more fee makes of it. -/
theorem Retains.values_add {k : Nat} {fees data : List UInt64} (h : Retains k fees data)
    (v : UInt64) : values (insertSorted v (makeRoom (k + 1) data)) =
      insert v.toNat (top k (values fees)) := by
  rw [values_insertSorted, values_makeRoom h.sorted h.length, h.largest]

/-- **ONE MORE FEE.** -/
theorem Retains.add {k : Nat} {fees data : List UInt64} (h : Retains k fees data) (v : UInt64) :
    Retains k (fees ++ [v]) (insertSorted v (makeRoom (k + 1) data)) where
  sorted := insertSorted_sorted (makeRoom_sorted h.sorted)
  length := (insertSorted_length_le v _).trans
    (Nat.succ_le_succ (makeRoom_length_le h.length))
  largest := by
    rw [h.values_add, top_insert, values_concat]

theorem retains (k : Nat) (fees : List UInt64) :
    Retains k fees (afterFees (k + 1) fees).data := by
  induction fees using List.reverseRecOn with
  | nil => exact ⟨List.Pairwise.nil, Nat.zero_le _, rfl⟩
  | append_singleton fees v ih =>
      rw [afterFees_concat, add_data, afterFees_capacity]
      exact ih.add v

/-- **WHAT IS RETAINED**: the last fee, and the largest ones of all before it. -/
theorem values_afterFees (k : Nat) (fees : List UInt64) (v : UInt64) :
    values (afterFees (k + 1) (fees ++ [v])).data = insert v.toNat (top k (values fees)) := by
  rw [afterFees_concat, add_data, afterFees_capacity]
  exact (retains k fees).values_add v

-- ── What is forgotten ───────────────────────────────────────────────────────

/-- The set does not tell the two histories apart. -/
structure Forgets (capacity : Nat) (fees₁ fees₂ : List UInt64) : Prop where
  retained    : (afterFees capacity fees₁).data = (afterFees capacity fees₂).data
  percentiles : ∀ percentile, 0 ≤ percentile → percentile ≤ 100 →
    getPercentile (afterFees capacity fees₁) percentile =
      getPercentile (afterFees capacity fees₂) percentile

/-- The fee is one of the `k` largest different ones. -/
def AmongLargest (k : Nat) (fees : List UInt64) (fee : UInt64) : Prop :=
  fee ∈ fees ∧ (above (values fees) fee.toNat).card < k

theorem amongLargest_iff {k : Nat} {fees : List UInt64} {fee : UInt64} :
    AmongLargest k fees fee ↔ fee.toNat ∈ top k (values fees) := by
  rw [AmongLargest, mem_top, mem_values]

/-- Before the last fee, and apart from it, the same fees are the largest. -/
def SameLargest (capacity : Nat) (fees₁ fees₂ : List UInt64) : Prop :=
  ∀ fee, some fee ≠ fees₁.getLast? →
    (AmongLargest (capacity - 1) fees₁.dropLast fee ↔
      AmongLargest (capacity - 1) fees₂.dropLast fee)

/-- One set has nothing but the last fee that the other has not. -/
theorem insert_top_subset {k : Nat} {a b : List UInt64} {v : UInt64}
    (h : ∀ fee, fee ≠ v → AmongLargest k a fee → AmongLargest k b fee) :
    insert v.toNat (top k (values a)) ⊆ insert v.toNat (top k (values b)) := by
  intro n hn
  rcases Finset.mem_insert.mp hn with rfl | hn
  · exact Finset.mem_insert_self ..
  · obtain ⟨fee, -, rfl⟩ := List.mem_map.mp (List.mem_toFinset.mp (top_subset k _ hn))
    by_cases hv : fee = v
    · rw [hv]
      exact Finset.mem_insert_self ..
    · exact Finset.mem_insert_of_mem
        (amongLargest_iff.mp (h fee hv (amongLargest_iff.mpr hn)))

theorem insert_top_eq_iff {k : Nat} {a b : List UInt64} {v : UInt64} :
    insert v.toNat (top k (values a)) = insert v.toNat (top k (values b)) ↔
      ∀ fee, fee ≠ v → (AmongLargest k a fee ↔ AmongLargest k b fee) := by
  constructor
  · intro heq fee hv
    have hne : fee.toNat ≠ v.toNat := fun hnat => hv (UInt64.toNat_inj.mp hnat)
    have hmem := Finset.ext_iff.mp heq fee.toNat
    rw [Finset.mem_insert, Finset.mem_insert, or_iff_right hne, or_iff_right hne] at hmem
    rw [amongLargest_iff, amongLargest_iff]
    exact hmem
  · intro h
    exact Finset.Subset.antisymm (insert_top_subset fun fee hv => (h fee hv).mp)
      (insert_top_subset fun fee hv => (h fee hv).mpr)

theorem forgets_of_retained {capacity : Nat} {fees₁ fees₂ : List UInt64}
    (h : (afterFees capacity fees₁).data = (afterFees capacity fees₂).data) :
    Forgets capacity fees₁ fees₂ := by
  refine ⟨h, ?_⟩
  intro percentile _ _
  rw [getPercentile, getPercentile, h]

/-- **WHAT A FULL SET FORGETS**: two histories with the same recent fees, as many as the
    capacity, leave the same set behind, and the same percentiles, if and only if the same
    fees are the largest in both. -/
theorem forgets_iff {capacity : Nat} (hcap : 1 ≤ capacity) {recent : List UInt64}
    (hrecent : recent.length = capacity) (old₁ old₂ : List UInt64) :
    Forgets capacity (old₁ ++ recent) (old₂ ++ recent) ↔
      SameLargest capacity (old₁ ++ recent) (old₂ ++ recent) := by
  obtain ⟨k, rfl⟩ : ∃ k, capacity = k + 1 := ⟨capacity - 1, by omega⟩
  obtain ⟨init, v, rfl⟩ : ∃ init v, recent = init ++ [v] := by
    rcases List.eq_nil_or_concat' recent with rfl | h
    · cases hrecent
    · exact h
  rw [← List.append_assoc, ← List.append_assoc]
  have hdata : (afterFees (k + 1) (old₁ ++ init ++ [v])).data =
        (afterFees (k + 1) (old₂ ++ init ++ [v])).data ↔
      insert v.toNat (top k (values (old₁ ++ init))) =
        insert v.toNat (top k (values (old₂ ++ init))) := by
    rw [← values_afterFees, ← values_afterFees]
    exact ⟨congrArg values, eq_of_values_eq (retains k _).sorted (retains k _).sorted⟩
  have hsame : SameLargest (k + 1) (old₁ ++ init ++ [v]) (old₂ ++ init ++ [v]) ↔
      ∀ fee, fee ≠ v → (AmongLargest k (old₁ ++ init) fee ↔
        AmongLargest k (old₂ ++ init) fee) := by
    rw [SameLargest, List.getLast?_concat, List.dropLast_concat, List.dropLast_concat,
      Nat.add_sub_cancel]
    exact forall_congr' fun fee => imp_congr_left (Option.some_inj.not)
  rw [hsame, ← insert_top_eq_iff, ← hdata]
  exact ⟨Forgets.retained, forgets_of_retained⟩

/-- **A SPIKE IS NEVER FORGOTTEN**: unless a larger fee comes, it stays in a set for two or
    more, whatever comes after it. -/
theorem largest_fee_stays {capacity : Nat} (hcap : 2 ≤ capacity) {fees : List UInt64}
    {spike : UInt64} (hmem : spike ∈ fees) (hmax : ∀ fee ∈ fees, fee ≤ spike) (last : UInt64) :
    spike ∈ (afterFees capacity (fees ++ [last])).data := by
  obtain ⟨k, rfl⟩ : ∃ k, capacity = k + 1 := ⟨capacity - 1, by omega⟩
  have hnone : above (values fees) spike.toNat = ∅ := by
    refine Finset.eq_empty_of_forall_notMem ?_
    intro n hn
    obtain ⟨hn, hlt⟩ := mem_above.mp hn
    obtain ⟨fee, hfee, rfl⟩ := List.mem_map.mp (List.mem_toFinset.mp hn)
    exact absurd (UInt64.le_iff_toNat_le.mp (hmax fee hfee)) (Nat.not_le_of_lt hlt)
  rw [← mem_values, values_afterFees]
  refine Finset.mem_insert_of_mem (mem_top.mpr ⟨mem_values.mpr hmem, ?_⟩)
  rw [hnone, Finset.card_empty]
  omega

-- ── The ring beside it ──────────────────────────────────────────────────────

/-- `get_average` -/
def getAverage (r : RollingAverage) : UInt64 := r.sum / UInt64.ofNat r.buffer.length

def ringAfter (size : Nat) (h : 0 < size) (fees : List UInt64) : RollingAverage :=
  fees.foldl RollingAverage.add (.new size h)

/-- The sum of the ring, which wraps as the source's does. -/
def total (fees : List UInt64) : UInt64 := fees.foldr (· + ·) 0

theorem total_append (a b : List UInt64) : total (a ++ b) = total a + total b := by
  induction a with
  | nil => exact (UInt64.zero_add _).symm
  | cons x a ih =>
      show x + total (a ++ b) = x + total a + total b
      rw [ih, UInt64.add_assoc]

theorem total_set {fees : List UInt64} {i : Nat} (h : i < fees.length) (v : UInt64) :
    total (fees.set i v) = total fees - fees.get ⟨i, h⟩ + v := by
  induction fees generalizing i with
  | nil => cases h
  | cons x fees ih =>
      cases i with
      | zero =>
          show v + total fees = x + total fees - x + v
          grind
      | succ i =>
          have hi : i < fees.length := Nat.lt_of_succ_lt_succ h
          show x + total (fees.set i v) = x + total fees - fees.get ⟨i, hi⟩ + v
          rw [ih hi]
          grind

theorem total_rotate {fees : List UInt64} {n : Nat} (h : n ≤ fees.length) :
    total (fees.rotate n) = total fees := by
  rw [List.rotate_eq_drop_append_take h, total_append, UInt64.add_comm, ← total_append,
    List.take_append_drop]

theorem rotate_set {fees : List UInt64} {i : Nat} (h : i < fees.length) (v : UInt64) :
    (fees.set i v).rotate (i + 1) = (fees.rotate i).tail ++ [v] := by
  have hset : i < (fees.set i v).length := by rwa [List.length_set]
  have htake : (fees.set i v).take (i + 1) = fees.take i ++ [v] := by
    rw [← List.take_concat_get' (fees.set i v) i hset, List.getElem_set_self,
      List.take_set_of_le (Nat.le_refl i)]
  rw [List.rotate_eq_drop_append_take hset, List.rotate_eq_drop_append_take (Nat.le_of_lt h),
    htake, List.drop_set_of_lt (Nat.lt_succ_self i), List.drop_eq_getElem_cons h,
    ← List.append_assoc]
  rfl

/-- The fees of the ring, oldest first. -/
def ringView (r : RollingAverage) : List UInt64 := r.buffer.rotate r.index

theorem length_ringView (r : RollingAverage) : (ringView r).length = r.buffer.length :=
  List.length_rotate ..

/-- A fee takes the place of the oldest one. -/
theorem ringView_add (r : RollingAverage) (v : UInt64) :
    ringView (r.add v) = (ringView r).tail ++ [v] := by
  have hlength : r.buffer.length = (r.buffer.set r.index v).length := List.length_set.symm
  show (r.buffer.set r.index v).rotate ((r.index + 1) % r.buffer.length) = _
  rw [hlength, List.rotate_mod, rotate_set r.index_lt]
  rfl

/-- After as many fees as it has room for, the ring has these. -/
theorem ringView_foldl (fees : List UInt64) :
    ∀ r : RollingAverage, ringView (fees.foldl RollingAverage.add r) =
      (ringView r ++ fees).drop fees.length := by
  induction fees with
  | nil =>
      intro r
      rw [List.append_nil]
      rfl
  | cons v fees ih =>
      intro r
      have hpos : ringView r ≠ [] := by
        intro hnil
        have hlength := length_ringView r
        rw [hnil] at hlength
        exact absurd r.index_lt (by rw [← hlength]; exact Nat.not_lt_zero _)
      obtain ⟨x, view, hview⟩ := List.exists_cons_of_ne_nil hpos
      rw [List.foldl_cons, ih, ringView_add, hview, List.length_cons, List.cons_append,
        List.drop_succ_cons, List.tail_cons, List.append_assoc]
      rfl

/-- The sum is the sum of the ring. -/
theorem sum_foldl (fees : List UInt64) :
    ∀ r : RollingAverage, r.sum = total r.buffer →
      (fees.foldl RollingAverage.add r).sum = total (fees.foldl RollingAverage.add r).buffer ∧
        (fees.foldl RollingAverage.add r).buffer.length = r.buffer.length := by
  induction fees with
  | nil => exact fun r h => ⟨h, rfl⟩
  | cons v fees ih =>
      intro r h
      have hadd : (r.add v).sum = total (r.add v).buffer := by
        show r.sum - r.buffer.get ⟨r.index, r.index_lt⟩ + v = total (r.buffer.set r.index v)
        rw [total_set r.index_lt, h]
      obtain ⟨hsum, hlength⟩ := ih (r.add v) hadd
      exact ⟨hsum, hlength.trans List.length_set⟩

/-- **THE RING FORGETS**: what the average is after as many recent fees as the ring has places
    does not depend on the older ones. -/
theorem ring_forgets {size : Nat} (h : 0 < size) {recent : List UInt64}
    (hrecent : recent.length = size) (old₁ old₂ : List UInt64) :
    getAverage (ringAfter size h (old₁ ++ recent)) =
      getAverage (ringAfter size h (old₂ ++ recent)) := by
  have hnew : (RollingAverage.new size h).sum = total (RollingAverage.new size h).buffer := by
    show (0 : UInt64) = total (List.replicate size 0)
    clear hrecent h
    induction size with
    | zero => rfl
    | succ size ih =>
        show 0 = 0 + total (List.replicate size 0)
        rw [← ih]
        rfl
  have hall : ∀ old, (ringAfter size h (old ++ recent)).sum = total recent ∧
      (ringAfter size h (old ++ recent)).buffer.length = size := by
    intro old
    have hsize : (RollingAverage.new size h).buffer.length = size := List.length_replicate
    obtain ⟨hsum, hlength⟩ := sum_foldl (old ++ recent) _ hnew
    obtain ⟨-, hold⟩ := sum_foldl old _ hnew
    refine ⟨?_, hlength.trans hsize⟩
    have hview : ringView (ringAfter size h (old ++ recent)) = recent := by
      rw [ringAfter, List.foldl_append, ringView_foldl]
      refine List.drop_left' ?_
      rw [length_ringView, hold, hsize, hrecent]
    have htotal := congrArg total hview
    rw [ringView, total_rotate (RollingAverage.index_lt _).le] at htotal
    exact hsum.trans htotal
  rw [getAverage, getAverage, (hall old₁).1, (hall old₁).2, (hall old₂).1, (hall old₂).2]

-- ── A spike, and no spike ───────────────────────────────────────────────────

/-- The old fees are too small to matter. -/
theorem small_fees_forgotten : SameLargest 3 [5, 7, 6, 8] [4, 7, 6, 8] :=
  (forgets_iff (by decide) (rfl : [7, 6, 8].length = 3) [5] [4]).mp
    (forgets_of_retained (by decide))

/-- **THE SPIKE IS STILL THERE** after as many newer fees as the set has room for. -/
theorem spike_not_forgotten :
    ¬ ∀ (capacity : Nat) (old₁ old₂ recent : List UInt64), 1 ≤ capacity →
      recent.length = capacity → Forgets capacity (old₁ ++ recent) (old₂ ++ recent) := by
  intro hclaim
  have h := (hclaim 2 [100] [1] [1, 1] (by decide) rfl).retained
  exact absurd h (by decide)

end FoxfireFees
