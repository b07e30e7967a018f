import Mathlib.Data.Rat.Floor
import FoxfireSniper.RoundingProofs
import FoxfireSniper.Types
import FoxfireSniper.WordProofs

/-! # Splitting an amount at random

    `src/utils/math.rs`.  The proportions are sampled from a Dirichlet distribution; the
    sample is a parameter, and its products with the amount are exact.  Every share is
    rounded by itself, and what the rounding left over or overdrew is put right in the
    first one.

    The first share can be smaller than what the others were rounded up by:

    * **`split_exact_iff`**: the split adds up exactly when the other rounded shares alone
      do not exceed the amount;
    * **`split_with_min_iff`**: and no share is below the minimum exactly when they do not
      exceed what the minima leave. -/

namespace FoxfireDirichlet

open FoxfireTypes WordArith RoundedShares

-- ── The source ──────────────────────────────────────────────────────────────

/-- The amounts, and whether the correction of the first one wrapped. -/
structure Split where
  amounts : List UInt64
  wrapped : Bool
  deriving DecidableEq

/-- `amounts.iter().sum()` -/
def wordSum (amounts : List UInt64) : UInt64 := amounts.foldl (fun total x => total + x) 0

/-- "Adjust for rounding errors to ensure the sum equals `alpha`".  There is always a
    first amount. -/
def adjustFirst (alpha : UInt64) : List UInt64 → Split
  | []            => ⟨[], false⟩
  | first :: rest =>
      let total := wordSum (first :: rest)
      let difference := alpha.toInt64 - total.toInt64
      let corrected : Word :=
        if total = alpha then first
        else if 0 < difference then (first : Word) + (difference.toUInt64 : Word)
        else if difference < 0 then (first : Word) - (difference.abs.toUInt64 : Word)
        else first
      ⟨corrected.val :: rest, corrected.wrapped⟩

/-- `(x * alpha as f64).round() as u64` -/
def roundedShare (alpha : UInt64) (x : ℚ) : UInt64 :=
  castToU64 ((roundHalfAway (x * alpha.toNat) : ℤ) : ℚ)

/-- **`get_dirichlet_distributed_amount`**, given the sample. -/
def getDirichletDistributedAmount (sample : List ℚ) (alpha : UInt64) (n : Nat) : Split :=
  if n = 0 then ⟨[], false⟩
  else
    let proportions := if 1 < n then sample else [1]
    adjustFirst alpha (proportions.map (roundedShare alpha))

/-- **`get_dirichlet_distributed_with_min_amount`**, given the sample. -/
def getDirichletDistributedWithMinAmount (sample : List ℚ) (alpha : UInt64) (n : Nat)
    (minAmount : UInt64) : Split :=
  if n = 0 then ⟨[], false⟩
  else if n = 1 then ⟨[alpha], false⟩
  else
    let minRequiredTotal := UInt64.ofNat n * minAmount
    if alpha < minRequiredTotal then ⟨List.replicate n minAmount, false⟩
    else
      let remainingAlpha := alpha - minRequiredTotal
      adjustFirst alpha (sample.map fun x => roundedShare remainingAlpha x + minAmount)

-- ── Sums ────────────────────────────────────────────────────────────────────

/-- The sum of words as numbers. -/
def natSum (l : List UInt64) : Nat := (l.map UInt64.toNat).sum

theorem natSum_cons (x : UInt64) (l : List UInt64) : natSum (x :: l) = x.toNat + natSum l := by
  simp only [natSum, List.map_cons, List.sum_cons]

theorem toNat_foldl_add (l : List UInt64) :
    ∀ a : UInt64, (l.foldl (fun total x => total + x) a).toNat =
      (a.toNat + natSum l) % 2 ^ 64 := by
  induction l with
  | nil =>
      intro a
      exact (Nat.mod_eq_of_lt a.toNat_lt).symm
  | cons x l ih =>
      intro a
      rw [List.foldl_cons, ih, UInt64.toNat_add, natSum_cons, Nat.mod_add_mod, Nat.add_assoc]

theorem toNat_wordSum (l : List UInt64) : (wordSum l).toNat = natSum l % 2 ^ 64 := by
  rw [wordSum, toNat_foldl_add, UInt64.toNat_zero, Nat.zero_add]

-- ── The correction ──────────────────────────────────────────────────────────

/-- **THE CORRECTION** of the first amount, when the sum is near `alpha`: it wraps exactly
    when the other amounts exceed `alpha`, and becomes huge, so that the sum is `2 ^ 64` too
    much; else it leaves what they leave. -/
theorem adjustFirst_spec (alpha first : UInt64) (rest : List UInt64)
    (hhigh : natSum (first :: rest) < alpha.toNat + 2 ^ 63)
    (hlow : alpha.toNat < natSum (first :: rest) + 2 ^ 63) :
    ∃ corrected : Word,
      adjustFirst alpha (first :: rest) = ⟨corrected.val :: rest, corrected.wrapped⟩ ∧
      (corrected.wrapped = false ↔ natSum rest ≤ alpha.toNat) ∧
      (natSum rest ≤ alpha.toNat → corrected.val.toNat = alpha.toNat - natSum rest) ∧
      (alpha.toNat < natSum rest →
        corrected.val.toNat + natSum rest = alpha.toNat + 2 ^ 64) := by
  refine ⟨_, rfl, ?_⟩
  have hsum := natSum_cons first rest
  have htotal := toNat_wordSum (first :: rest)
  have halpha := alpha.toNat_lt
  have hfirst := first.toNat_lt
  generalize wordSum (first :: rest) = total at htotal ⊢
  generalize natSum (first :: rest) = sum at hhigh hlow hsum htotal
  have hdiff : alpha.toInt64 - total.toInt64 = (alpha - total).toInt64 := rfl
  have hsub : (alpha - total).toNat = (2 ^ 64 - total.toNat + alpha.toNat) % 2 ^ 64 :=
    UInt64.toNat_sub alpha total
  rw [hdiff]
  by_cases heq : total = alpha
  · subst heq
    have hexact : natSum rest ≤ total.toNat := by omega
    rw [if_pos rfl]
    refine ⟨iff_of_true rfl hexact, fun _ => ?_, fun h => absurd hexact (by omega)⟩
    show first.toNat = _
    omega
  · have hne : total.toNat ≠ alpha.toNat := fun h => heq (UInt64.toNat_inj.mp h)
    rw [if_neg heq]
    by_cases hlt : sum < alpha.toNat
    · -- too little: the difference is added
      have hpos : 0 < (alpha - total).toNat ∧ (alpha - total).toNat < 2 ^ 63 := by omega
      rw [if_pos ((signed_pos_iff _).mpr hpos)]
      have hadd := (is_coe first).add (is_coe (alpha - total)) (by omega)
      refine ⟨iff_of_true hadd.1 (by omega), fun _ => ?_, fun h => absurd hlt (by omega)⟩
      show ((first : Word) + ((alpha - total : UInt64) : Word)).val.toNat = _
      rw [hadd.2]
      omega
    · -- too much: the difference is subtracted
      have hnotpos : ¬ (0 < (alpha - total).toNat ∧ (alpha - total).toNat < 2 ^ 63) := by omega
      have hneg : 2 ^ 63 ≤ (alpha - total).toNat := by omega
      have hsign := (signed_neg_iff _).mpr hneg
      rw [if_neg ((signed_pos_iff _).not.mpr hnotpos), if_pos hsign, signed_abs hsign]
      have hover : (-(alpha - total)).toNat = sum - alpha.toNat := by
        rw [UInt64.toNat_neg, show UInt64.size = 2 ^ 64 from rfl]
        omega
      rw [sub_exact_iff (is_coe first) (is_of_toNat hover)]
      refine ⟨by omega, fun hle => ?_, fun hgt => ?_⟩
      · have hexact := (is_coe first).sub (is_of_toNat hover) (by omega)
        rw [hexact.2]
        omega
      · show (first - -(alpha - total)).toNat + _ = _
        rw [UInt64.toNat_sub, hover]
        omega

/-- A list of amounts adds up to `alpha`, and the correction did not wrap. -/
structure Exact (alpha : UInt64) (n : Nat) (s : Split) : Prop where
  length    : s.amounts.length = n
  sum       : natSum s.amounts = alpha.toNat
  unwrapped : s.wrapped = false

/-- So the corrected amounts add up exactly when the other amounts do not exceed
    `alpha`. -/
theorem adjustFirst_exact_iff (alpha first : UInt64) (rest : List UInt64)
    (hhigh : natSum (first :: rest) < alpha.toNat + 2 ^ 63)
    (hlow : alpha.toNat < natSum (first :: rest) + 2 ^ 63) :
    Exact alpha (rest.length + 1) (adjustFirst alpha (first :: rest)) ↔
      natSum rest ≤ alpha.toNat := by
  obtain ⟨corrected, heq, hwrapped, hval, -⟩ := adjustFirst_spec alpha first rest hhigh hlow
  rw [heq]
  constructor
  · intro h
    exact hwrapped.mp h.unwrapped
  · intro hle
    refine ⟨rfl, ?_, hwrapped.mpr hle⟩
    rw [natSum_cons, hval hle]
    omega

-- ── The rounded shares ──────────────────────────────────────────────────────

/-- A share of a word fits a word. -/
theorem toNat_roundedShare {alpha : UInt64} {x : ℚ} (hx : 0 ≤ x) (hone : x ≤ 1) :
    (roundedShare alpha x).toNat = share alpha.toNat x := by
  have hle : share alpha.toNat x ≤ alpha.toNat := share_le hx hone
  have hlt := alpha.toNat_lt
  have hfloor : (((roundHalfAway (x * (alpha.toNat : ℚ)) : ℤ) : ℚ)).floor =
      roundHalfAway (x * (alpha.toNat : ℚ)) := Rat.floor_intCast _
  rw [roundedShare, castToU64, hfloor]
  show (UInt64.ofNat (min (share alpha.toNat x) (2 ^ 64 - 1))).toNat = _
  rw [UInt64.toNat_ofNat', Nat.min_eq_left (by omega)]
  exact Nat.mod_eq_of_lt (by omega)

theorem toNat_roundedShares (alpha : UInt64) {xs : List ℚ} (h : ∀ x ∈ xs, 0 ≤ x ∧ x ≤ 1) :
    (xs.map (roundedShare alpha)).map UInt64.toNat = shares alpha.toNat xs := by
  rw [List.map_map, shares]
  refine List.map_congr_left ?_
  intro x hx
  exact toNat_roundedShare (h x hx).1 (h x hx).2

theorem natSum_roundedShares (alpha : UInt64) {xs : List ℚ}
    (h : ∀ x ∈ xs, 0 ≤ x ∧ x ≤ 1) :
    natSum (xs.map (roundedShare alpha)) = (shares alpha.toNat xs).sum := by
  rw [natSum, toNat_roundedShares alpha h]

/-- The parts as the code sees them: there is a first one. -/
theorem parts_cons {n : Nat} (p : Proportions ℚ n) :
    ∃ x xs, p.parts = x :: xs ∧ xs.length + 1 = n ∧ ∀ y ∈ x :: xs, 0 ≤ y ∧ y ≤ 1 := by
  cases hp : p.parts with
  | nil =>
      have hsum := p.sum_eq
      rw [hp] at hsum
      cases hsum
  | cons x xs =>
      refine ⟨x, xs, rfl, ?_, ?_⟩
      · rw [← p.length_eq, hp, List.length_cons]
      · intro y hy
        rw [← hp] at hy
        exact ⟨p.nonneg y hy, p.le_one hy⟩

/-- Without a second part the first is the whole. -/
theorem parts_one (p : Proportions ℚ 1) : p.parts = [1] := by
  obtain ⟨x, hx⟩ := List.length_eq_one_iff.mp p.length_eq
  have hsum := p.sum_eq
  rw [hx, List.sum_singleton] at hsum
  rw [hx, hsum]

/-- What is corrected: the rounded shares, whose sum is near the amount. -/
theorem split_code (alpha : UInt64) {n : Nat} (hsize : n < 2 ^ 64) (p : Proportions ℚ n) :
    ∃ first rest, getDirichletDistributedAmount p.parts alpha n =
        adjustFirst alpha (first :: rest) ∧ rest.length + 1 = n ∧
      rest.map UInt64.toNat = shares alpha.toNat p.parts.tail ∧
      natSum (first :: rest) < alpha.toNat + 2 ^ 63 ∧
      alpha.toNat < natSum (first :: rest) + 2 ^ 63 := by
  obtain ⟨x, xs, hparts, hlength, hunit⟩ := parts_cons p
  have hproportions : (if 1 < n then p.parts else [1]) = p.parts := by
    split
    · rfl
    · obtain rfl : n = 1 := by omega
      exact (parts_one p).symm
  have hall := natSum_roundedShares alpha hunit
  obtain ⟨hhigh, hlow⟩ := sum_shares_near p alpha.toNat
  rw [hparts, ← hall, List.map_cons] at hhigh hlow
  refine ⟨roundedShare alpha x, xs.map (roundedShare alpha), ?_, ?_, ?_, by omega, by omega⟩
  · rw [getDirichletDistributedAmount, if_neg (by omega), hproportions, hparts]
    rfl
  · rw [List.length_map, hlength]
  · rw [hparts, List.tail_cons]
    exact toNat_roundedShares alpha fun y hy => hunit y (List.mem_cons_of_mem x hy)

/-- **THE SPLIT ADDS UP EXACTLY WHEN THE OTHER SHARES DO NOT EXCEED THE AMOUNT.** -/
theorem split_exact_iff (alpha : UInt64) {n : Nat} (hsize : n < 2 ^ 64) (p : Proportions ℚ n) :
    Exact alpha n (getDirichletDistributedAmount p.parts alpha n) ↔
      (shares alpha.toNat p.parts.tail).sum ≤ alpha.toNat := by
  obtain ⟨first, rest, hcode, rfl, hshares, hhigh, hlow⟩ := split_code alpha hsize p
  rw [hcode, adjustFirst_exact_iff alpha first rest hhigh hlow, natSum, hshares]

/-- The amounts of a split: one for each part, all but the first of them the shares, and
    their sum is the amount in the same cases, and `2 ^ 64` more in the others. -/
theorem split_amounts (alpha : UInt64) {n : Nat} (hsize : n < 2 ^ 64) (p : Proportions ℚ n) :
    ∃ first rest, (getDirichletDistributedAmount p.parts alpha n).amounts = first :: rest ∧
      rest.length + 1 = n ∧ rest.map UInt64.toNat = shares alpha.toNat p.parts.tail ∧
      natSum (first :: rest) =
        alpha.toNat + if natSum rest ≤ alpha.toNat then 0 else 2 ^ 64 := by
  obtain ⟨first, rest, hcode, hlength, hshares, hhigh, hlow⟩ := split_code alpha hsize p
  obtain ⟨corrected, heq, -, hval, hhuge⟩ := adjustFirst_spec alpha first rest hhigh hlow
  refine ⟨corrected.val, rest, ?_, hlength, hshares, ?_⟩
  · rw [hcode, heq]
  · rw [natSum_cons]
    split
    · next hle =>
        rw [hval hle]
        omega
    · next hgt => exact hhuge (by omega)

/-- A half each of three lamports. -/
def halves : Proportions ℚ 2 := ⟨[1 / 2, 1 / 2], rfl, by decide +kernel, by decide +kernel⟩

theorem three_lamports_in_halves :
    Exact 3 2 (getDirichletDistributedAmount halves.parts 3 2) :=
  (split_exact_iff 3 (by decide) halves).mpr (by decide +kernel)

/-- Nothing, and a half each. -/
def nothingFirst : Proportions ℚ 3 :=
  ⟨[0, 1 / 2, 1 / 2], rfl, by decide +kernel, by decide +kernel⟩

/-- **THE FIRST SHARE UNDERFLOWS**: two halves of three lamports are rounded up, and the
    first share has nothing to give. -/
theorem first_share_underflows :
    ¬ ∀ (alpha : UInt64) (n : Nat) (p : Proportions ℚ n), n < 2 ^ 64 →
      Exact alpha n (getDirichletDistributedAmount p.parts alpha n) := by
  intro hclaim
  have h := (hclaim 3 3 nothingFirst (by decide)).unwrapped
  exact absurd h (by decide +kernel)

-- ── With a minimum for each ─────────────────────────────────────────────────

/-- No amount is below the minimum, and they add up to `alpha`. -/
structure ExactAtLeast (alpha : UInt64) (n : Nat) (minAmount : UInt64) (s : Split) : Prop
    extends Exact alpha n s where
  least : ∀ a ∈ s.amounts, minAmount ≤ a

section

variable {alpha minAmount : UInt64} {n : Nat}

/-- The minima as a word. -/
theorem toNat_minima (hfits : n * minAmount.toNat < 2 ^ 64) (hsize : n < 2 ^ 64) :
    (UInt64.ofNat n * minAmount).toNat = n * minAmount.toNat := by
  rw [UInt64.toNat_mul, UInt64.toNat_ofNat', Nat.mod_eq_of_lt hsize]
  exact Nat.mod_eq_of_lt hfits

theorem toNat_remaining (hfits : n * minAmount.toNat < 2 ^ 64) (hsize : n < 2 ^ 64)
    (hmin : n * minAmount.toNat ≤ alpha.toNat) :
    (alpha - UInt64.ofNat n * minAmount).toNat = alpha.toNat - n * minAmount.toNat := by
  have hminima := toNat_minima hfits hsize
  rw [UInt64.toNat_sub_of_le _ _ (UInt64.le_iff_toNat_le.mpr (by omega)), hminima]

/-- A share with its minimum fits a word. -/
theorem toNat_share_add {remaining : UInt64} {x : ℚ} (hx : 0 ≤ x ∧ x ≤ 1)
    (hroom : remaining.toNat + minAmount.toNat < 2 ^ 64) :
    (roundedShare remaining x + minAmount).toNat =
      share remaining.toNat x + minAmount.toNat := by
  have hle : share remaining.toNat x ≤ remaining.toNat := share_le hx.1 hx.2
  rw [UInt64.toNat_add, toNat_roundedShare hx.1 hx.2]
  exact Nat.mod_eq_of_lt (by omega)

/-- The shares with their minima, as numbers. -/
theorem toNat_shares_add {remaining : UInt64} {xs : List ℚ} (h : ∀ x ∈ xs, 0 ≤ x ∧ x ≤ 1)
    (hroom : remaining.toNat + minAmount.toNat < 2 ^ 64) :
    (xs.map fun x => roundedShare remaining x + minAmount).map UInt64.toNat =
      (shares remaining.toNat xs).map (· + minAmount.toNat) := by
  rw [List.map_map, shares, List.map_map]
  refine List.map_congr_left ?_
  intro x hx
  exact toNat_share_add (h x hx) hroom

theorem sum_map_add (l : List Nat) (k : Nat) :
    (l.map (· + k)).sum = l.sum + l.length * k := by
  induction l with
  | nil => simp
  | cons a l ih =>
      rw [List.map_cons, List.sum_cons, ih, List.sum_cons, List.length_cons, Nat.succ_mul]
      omega

/-- **THE SPLIT WITH A MINIMUM**, when the minima fit the amount: every amount but the first
    is the minimum and a share, and the first is what they leave, if they leave anything. -/
theorem splitWithMin_spec (hfits : n * minAmount.toNat < 2 ^ 64) (hsize : n < 2 ^ 64)
    (hmin : n * minAmount.toNat ≤ alpha.toNat) (p : Proportions ℚ n) :
    ∃ (corrected : Word) (rest : List UInt64),
      getDirichletDistributedWithMinAmount p.parts alpha n minAmount =
        ⟨corrected.val :: rest, corrected.wrapped⟩ ∧
      rest.map UInt64.toNat = (shares (alpha.toNat - n * minAmount.toNat) p.parts.tail).map
        (· + minAmount.toNat) ∧
      (corrected.wrapped = false ↔ natSum rest ≤ alpha.toNat) ∧
      (natSum rest ≤ alpha.toNat → corrected.val.toNat = alpha.toNat - natSum rest) ∧
      (alpha.toNat < natSum rest → 2 ^ 63 < corrected.val.toNat) := by
  obtain ⟨x, xs, hparts, hlength, hunit⟩ := parts_cons p
  by_cases hone : n = 1
  · -- one agent receives everything
    have hnil : xs = [] := List.length_eq_zero_iff.mp (by omega)
    refine ⟨alpha, [], ?_, ?_, iff_of_true rfl (Nat.zero_le _), ?_, ?_⟩
    · rw [getDirichletDistributedWithMinAmount, if_neg (by omega), if_pos hone]
    · rw [hparts, List.tail_cons, hnil]
      rfl
    · intro _
      exact (Nat.sub_zero _).symm
    · intro h
      exact absurd h (Nat.not_lt_zero _)
  · have hremaining := toNat_remaining hfits hsize hmin
    have hminima := toNat_minima hfits hsize
    have hpos : 1 ≤ n := by omega
    have hmul : n * minAmount.toNat = (n - 1) * minAmount.toNat + minAmount.toNat := by
      rw [← Nat.succ_mul]
      congr 1
      omega
    have halpha := alpha.toNat_lt
    have hnot : ¬ alpha < UInt64.ofNat n * minAmount := by
      rw [UInt64.lt_iff_toNat_lt, hminima]
      omega
    generalize hr : alpha - UInt64.ofNat n * minAmount = remaining at hremaining
    have hroom : remaining.toNat + minAmount.toNat < 2 ^ 64 := by omega
    have hcode : getDirichletDistributedWithMinAmount p.parts alpha n minAmount =
        adjustFirst alpha ((roundedShare remaining x + minAmount) ::
          xs.map fun y => roundedShare remaining y + minAmount) := by
      rw [getDirichletDistributedWithMinAmount, if_neg (by omega), if_neg hone]
      dsimp only
      rw [if_neg hnot, hparts, hr]
      rfl
    have hall := toNat_shares_add hunit hroom
    have hrest := toNat_shares_add (fun y hy => hunit y (List.mem_cons_of_mem x hy)) hroom
    obtain ⟨hhigh, hlow⟩ := sum_shares_near p remaining.toNat
    have hsum : natSum ((x :: xs).map fun y => roundedShare remaining y + minAmount)
        = (shares remaining.toNat (x :: xs)).sum + n * minAmount.toNat := by
      rw [natSum, hall, sum_map_add, shares, List.length_map, List.length_cons, hlength]
    rw [hparts] at hhigh hlow
    rw [List.map_cons, natSum_cons] at hsum
    obtain ⟨corrected, heq, hwrapped, hval, hhuge⟩ := adjustFirst_spec alpha
      (roundedShare remaining x + minAmount)
      (xs.map fun y => roundedShare remaining y + minAmount)
      (by rw [natSum_cons]; omega) (by rw [natSum_cons]; omega)
    refine ⟨corrected, _, hcode.trans heq, ?_, hwrapped, hval, ?_⟩
    · rw [hrest, hparts, List.tail_cons, hremaining]
    · intro h
      have hsize := hhuge h
      omega

/-- The sum of all amounts but the first. -/
theorem natSum_rest {p : Proportions ℚ n} {amount : Nat} {rest : List UInt64}
    (h : rest.map UInt64.toNat = (shares amount p.parts.tail).map (· + minAmount.toNat)) :
    natSum rest = (shares amount p.parts.tail).sum + (n - 1) * minAmount.toNat := by
  rw [natSum, h, sum_map_add, shares, List.length_map, List.length_tail, p.length_eq]

theorem length_rest {p : Proportions ℚ n} {amount : Nat} {rest : List UInt64}
    (h : rest.map UInt64.toNat = (shares amount p.parts.tail).map (· + minAmount.toNat)) :
    rest.length + 1 = n := by
  obtain ⟨x, xs, hparts, hlength, -⟩ := parts_cons p
  have hlen := congrArg List.length h
  rw [List.length_map, List.length_map, shares, List.length_map, hparts, List.tail_cons] at hlen
  omega

/-- **NO SHARE IS BELOW THE MINIMUM, AND THEY ADD UP**, exactly when the other shares do not
    exceed what the minima leave. -/
theorem split_with_min_iff (hfits : n * minAmount.toNat < 2 ^ 64) (hsize : n < 2 ^ 64)
    (hmin : n * minAmount.toNat ≤ alpha.toNat) (p : Proportions ℚ n) :
    ExactAtLeast alpha n minAmount
        (getDirichletDistributedWithMinAmount p.parts alpha n minAmount) ↔
      (shares (alpha.toNat - n * minAmount.toNat) p.parts.tail).sum ≤
        alpha.toNat - n * minAmount.toNat := by
  obtain ⟨corrected, rest, heq, hmap, hwrapped, hval, -⟩ := splitWithMin_spec hfits hsize hmin p
  have hrest := natSum_rest hmap
  have hlength := length_rest hmap
  have hmul : n * minAmount.toNat = (n - 1) * minAmount.toNat + minAmount.toNat := by
    rw [← Nat.succ_mul]
    congr 1
    omega
  rw [heq]
  constructor
  · intro h
    have hle := hwrapped.mp h.unwrapped
    have hfirst := UInt64.le_iff_toNat_le.mp (h.least corrected.val List.mem_cons_self)
    rw [hval hle] at hfirst
    omega
  · intro hle
    have hroom : natSum rest ≤ alpha.toNat := by omega
    refine ⟨⟨hlength, ?_, hwrapped.mpr hroom⟩, ?_⟩
    · rw [natSum_cons, hval hroom]
      omega
    · intro a ha
      rcases List.mem_cons.mp ha with rfl | ha
      · rw [UInt64.le_iff_toNat_le, hval hroom]
        omega
      · have hmem : a.toNat ∈ rest.map UInt64.toNat := List.mem_map_of_mem ha
        rw [hmap] at hmem
        obtain ⟨b, -, hb⟩ := List.mem_map.mp hmem
        rw [UInt64.le_iff_toNat_le]
        omega

end

/-- Five lamports in halves, with at least one for each. -/
theorem five_lamports_with_min :
    ExactAtLeast 5 2 1 (getDirichletDistributedWithMinAmount halves.parts 5 2 1) :=
  (split_with_min_iff (by decide) (by decide) (by decide) halves).mpr (by decide +kernel)

/-- **THE FIRST SHARE FALLS BELOW THE MINIMUM**: it is the minimum, and the other two were
    rounded up. -/
theorem first_share_below_min :
    ¬ ∀ (alpha : UInt64) (n : Nat) (minAmount : UInt64) (p : Proportions ℚ n),
      n * minAmount.toNat < 2 ^ 64 → n < 2 ^ 64 → n * minAmount.toNat ≤ alpha.toNat →
      ExactAtLeast alpha n minAmount
        (getDirichletDistributedWithMinAmount p.parts alpha n minAmount) := by
  intro hclaim
  have h := (hclaim 9 3 2 nothingFirst (by decide) (by decide) (by decide)).least 1
  exact absurd (h (by decide +kernel)) (by decide)

end FoxfireDirichlet
