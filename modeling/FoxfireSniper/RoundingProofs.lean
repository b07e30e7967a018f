import Mathlib.Algebra.Order.Round
import Mathlib.Algebra.Order.BigOperators.Group.List
import Mathlib.Tactic.Linarith
import Mathlib.Tactic.Ring

/-! # Rounded shares of an amount

    An amount is divided by proportions that sum to one, and every share is rounded to the
    nearest whole number by itself, halves away from zero.  The rounded shares need not sum
    to the amount.

    * **`abs_sum_shares_sub_le`**: the sum is off by at most half a unit for each share.
    * `share_le`: no share exceeds the amount. -/

namespace RoundedShares

variable {K : Type} [Field K] [LinearOrder K]

/-- Non-negative parts of one. -/
structure Proportions (K : Type) [Field K] [LinearOrder K] (n : ℕ) where
  parts     : List K
  length_eq : parts.length = n
  nonneg    : ∀ x ∈ parts, 0 ≤ x
  sum_eq    : parts.sum = 1

variable [IsStrictOrderedRing K]

/-- No part exceeds the whole. -/
theorem Proportions.le_one {n : ℕ} (p : Proportions K n) {x : K} (hx : x ∈ p.parts) : x ≤ 1 := by
  rw [← p.sum_eq]
  exact List.single_le_sum p.nonneg x hx

variable [FloorRing K]

/-- The nearest whole number, halves away from zero. -/
def roundHalfAway (x : K) : ℤ := if 0 ≤ x then round x else -round (-x)

omit [IsStrictOrderedRing K] in
theorem roundHalfAway_of_nonneg {x : K} (h : 0 ≤ x) : roundHalfAway x = round x := if_pos h

theorem round_nonneg {x : K} (h : 0 ≤ x) : 0 ≤ round x := by
  rw [round_eq, Int.floor_nonneg]
  linarith

theorem round_mono {x y : K} (h : x ≤ y) : round x ≤ round y := by
  rw [round_eq, round_eq]
  exact Int.floor_le_floor (by linarith)

/-- The rounded share of an amount. -/
def share (amount : ℕ) (x : K) : ℕ := (roundHalfAway (x * amount)).toNat

variable {amount : ℕ} {x : K}

omit [FloorRing K] in
theorem mul_amount_nonneg (amount : ℕ) (hx : 0 ≤ x) : 0 ≤ x * (amount : K) :=
  mul_nonneg hx (Nat.cast_nonneg amount)

theorem share_cast (hx : 0 ≤ x) : ((share amount x : ℕ) : ℤ) = round (x * amount) := by
  have hpos := mul_amount_nonneg amount hx
  rw [share, roundHalfAway_of_nonneg hpos, Int.toNat_of_nonneg (round_nonneg hpos)]

theorem share_le (hx : 0 ≤ x) (hone : x ≤ 1) : share amount x ≤ amount := by
  have hmul : x * (amount : K) ≤ ((amount : ℕ) : ℤ) := by
    rw [Int.cast_natCast]
    exact mul_le_of_le_one_left (Nat.cast_nonneg amount) hone
  have hle : ((share amount x : ℕ) : ℤ) ≤ (amount : ℤ) := by
    rw [share_cast hx, ← round_intCast (α := K) (amount : ℤ)]
    exact round_mono hmul
  exact_mod_cast hle

theorem abs_share_sub_le (amount : ℕ) (hx : 0 ≤ x) : |((share amount x : ℕ) : K) - x * amount| ≤ 1 / 2 := by
  have hcast : ((share amount x : ℕ) : K) = ((round (x * (amount : K)) : ℤ) : K) := by
    rw [← share_cast hx, Int.cast_natCast]
  rw [hcast, abs_sub_comm]
  exact abs_sub_round _

/-- The rounded shares of all parts. -/
def shares (amount : ℕ) (xs : List K) : List ℕ := xs.map (share amount)

/-- **THE ROUNDING ERRORS ADD UP** to half a unit for each share, at most. -/
theorem abs_sum_shares_sub_le (amount : ℕ) {xs : List K} (h : ∀ x ∈ xs, 0 ≤ x) :
    |(((shares amount xs).sum : ℕ) : K) - xs.sum * amount| ≤ (xs.length : K) / 2 := by
  induction xs with
  | nil => simp [shares]
  | cons x xs ih =>
      have hone := abs_share_sub_le amount (h x List.mem_cons_self)
      have hrest := ih fun y hy => h y (List.mem_cons_of_mem x hy)
      have hsplit : (((shares amount (x :: xs)).sum : ℕ) : K) - (x :: xs).sum * amount
          = ((share amount x : K) - x * amount)
            + ((((shares amount xs).sum : ℕ) : K) - xs.sum * amount) := by
        simp only [shares, List.map_cons, List.sum_cons, Nat.cast_add]
        ring
      rw [hsplit, List.length_cons, Nat.cast_add, Nat.cast_one]
      calc _ ≤ |(share amount x : K) - x * amount|
            + |(((shares amount xs).sum : ℕ) : K) - xs.sum * amount| := abs_add_le _ _
        _ ≤ 1 / 2 + (xs.length : K) / 2 := add_le_add hone hrest
        _ = ((xs.length : K) + 1) / 2 := by ring

/-- So the sum of the rounded shares is near the amount, on either side. -/
theorem sum_shares_near {n : ℕ} (p : Proportions K n) (amount : ℕ) :
    2 * (shares amount p.parts).sum ≤ 2 * amount + n ∧
      2 * amount ≤ 2 * (shares amount p.parts).sum + n := by
  have h := abs_sum_shares_sub_le amount p.nonneg
  rw [p.sum_eq, p.length_eq, one_mul, abs_le] at h
  constructor
  · have hle : (2 : K) * ((shares amount p.parts).sum : ℕ) ≤ 2 * (amount : K) + n := by
      linarith [h.2]
    exact_mod_cast hle
  · have hle : (2 : K) * (amount : K) ≤ 2 * ((shares amount p.parts).sum : ℕ) + n := by
      linarith [h.1]
    exact_mod_cast hle

end RoundedShares
