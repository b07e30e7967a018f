import Mathlib.Algebra.Order.Ring.Nat

/-! # Words that remember whether they wrapped

    Unchecked `u64` arithmetic wraps around in a release build and panics in a debug
    build.  A `Word` is a `UInt64` with a mark that stays set once an addition or a
    subtraction on the way to it went past the end; code written over `Word` looks like
    the code it models.

    `w.Is n` says that `w` was computed exactly and is the number `n`; the lemmas below
    turn sums and differences of words into sums and differences of numbers. -/

namespace WordArith

/-- A 64-bit word, marked if computing it wrapped around. -/
structure Word where
  val     : UInt64
  wrapped : Bool
  deriving DecidableEq, Repr

/-- A given word is unmarked. -/
instance : Coe UInt64 Word := ⟨fun x => ⟨x, false⟩⟩

instance : Add Word :=
  ⟨fun a b => ⟨a.val + b.val,
    a.wrapped || b.wrapped || decide (2 ^ 64 ≤ a.val.toNat + b.val.toNat)⟩⟩

instance : Sub Word :=
  ⟨fun a b => ⟨a.val - b.val,
    a.wrapped || b.wrapped || decide (a.val.toNat < b.val.toNat)⟩⟩

/-- Computed without wrapping, and equal to `n`. -/
def Word.Is (w : Word) (n : Nat) : Prop := w.wrapped = false ∧ w.val.toNat = n

theorem is_coe (x : UInt64) : (x : Word).Is x.toNat := ⟨rfl, rfl⟩

theorem is_of_toNat {x : UInt64} {n : Nat} (h : x.toNat = n) : (x : Word).Is n := ⟨rfl, h⟩

theorem add_wrapped (a b : Word) : (a + b).wrapped
    = (a.wrapped || b.wrapped || decide (2 ^ 64 ≤ a.val.toNat + b.val.toNat)) := rfl

theorem sub_wrapped (a b : Word) : (a - b).wrapped
    = (a.wrapped || b.wrapped || decide (a.val.toNat < b.val.toNat)) := rfl

/-- A sum is unmarked exactly when its parts are and it fits. -/
theorem add_exact_iff {a b : Word} {m n : Nat} (ha : a.Is m) (hb : b.Is n) :
    (a + b).wrapped = false ↔ m + n < 2 ^ 64 := by
  rw [add_wrapped, ha.1, hb.1, ha.2, hb.2]
  simp

/-- A difference is unmarked exactly when its parts are and it is no less than zero. -/
theorem sub_exact_iff {a b : Word} {m n : Nat} (ha : a.Is m) (hb : b.Is n) :
    (a - b).wrapped = false ↔ n ≤ m := by
  rw [sub_wrapped, ha.1, hb.1, ha.2, hb.2]
  simp

theorem Word.Is.add {a b : Word} {m n : Nat} (ha : a.Is m) (hb : b.Is n)
    (h : m + n < 2 ^ 64) : (a + b).Is (m + n) := by
  refine ⟨(add_exact_iff ha hb).mpr h, ?_⟩
  show (a.val + b.val).toNat = m + n
  rw [UInt64.toNat_add, ha.2, hb.2]
  exact Nat.mod_eq_of_lt h

theorem Word.Is.sub {a b : Word} {m n : Nat} (ha : a.Is m) (hb : b.Is n) (h : n ≤ m) :
    (a - b).Is (m - n) := by
  refine ⟨(sub_exact_iff ha hb).mpr h, ?_⟩
  show (a.val - b.val).toNat = m - n
  have hle : b.val ≤ a.val := by
    rw [UInt64.le_iff_toNat_le, ha.2, hb.2]
    exact h
  rw [UInt64.toNat_sub_of_le _ _ hle, ha.2, hb.2]

/-- A difference is zero only if its parts are equal, wrapped or not. -/
theorem sub_val_eq_zero_iff (a b : Word) : (a - b).val = 0 ↔ a.val = b.val := by
  show a.val - b.val = 0 ↔ a.val = b.val
  constructor
  · intro h
    calc a.val = a.val - b.val + b.val := (UInt64.sub_add_cancel a.val b.val).symm
      _ = 0 + b.val := by rw [h]
      _ = b.val := UInt64.zero_add b.val
  · intro h
    rw [h]
    exact UInt64.sub_self b.val

-- ── Words read as signed ────────────────────────────────────────────────────

theorem toInt_signed (d : UInt64) :
    d.toInt64.toInt = if d.toNat < 2 ^ 63 then (d.toNat : Int) else (d.toNat : Int) - 2 ^ 64 := by
  show d.toBitVec.toInt = _
  rw [BitVec.toInt_eq_toNat_cond, show d.toBitVec.toNat = d.toNat from rfl]
  split <;> split <;> omega

theorem signed_pos_iff (d : UInt64) : 0 < d.toInt64 ↔ 0 < d.toNat ∧ d.toNat < 2 ^ 63 := by
  rw [Int64.lt_iff_toInt_lt, toInt_signed]
  have hlt := d.toNat_lt
  show (0 : Int) < _ ↔ _
  split <;> omega

theorem signed_neg_iff (d : UInt64) : d.toInt64 < 0 ↔ 2 ^ 63 ≤ d.toNat := by
  rw [Int64.lt_iff_toInt_lt, toInt_signed]
  have hlt := d.toNat_lt
  show _ < (0 : Int) ↔ _
  split <;> omega

/-- The absolute value of a negative word. -/
theorem signed_abs {d : UInt64} (h : d.toInt64 < 0) : d.toInt64.abs.toUInt64 = -d := by
  have hmsb : d.toBitVec.msb = true := by
    rw [BitVec.msb_eq_decide]
    have hle := (signed_neg_iff d).mp h
    simpa using hle
  apply UInt64.toBitVec_inj.mp
  show d.toBitVec.abs = -d.toBitVec
  rw [BitVec.abs_eq, if_pos hmsb]

end WordArith
