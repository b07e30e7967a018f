import Mathlib.Algebra.Group.Nat.Even
import Mathlib.Data.Char
import Mathlib.Data.List.Basic

/-! # Hexadecimal text — two digits for every byte

    A writer that pads every byte to two lower-case digits, and a reader that cuts a text into
    slices of two characters and parses each.  The reader is total: `none` is a slice that
    leaves the text or a slice that is no number.  It reads digits of either case.

    A text is the list of its characters.

    * `decode_pair`: the reader takes two characters at a time, so it stays aligned.
    * **`decode_encode`**: what was written is read back.
    * **`encode_decode`**: a text of pairs of digits is read, and written again in lower case. -/

namespace Hex

-- ── Writing ─────────────────────────────────────────────────────────────────

/-- `format!("{:02x}", b)`: the digits of the number, filled up with zeros to two. -/
def lowerHex02 (b : UInt8) : List Char := (Nat.toDigits 16 b.toNat).leftpad 2 '0'

def encode (bytes : List UInt8) : List Char := bytes.flatMap lowerHex02

-- ── Reading ─────────────────────────────────────────────────────────────────

/-- `char::to_digit(16)`. -/
def toDigit (c : Char) : Option Nat :=
  if '0' ≤ c ∧ c ≤ '9' then some (c.toNat - '0'.toNat)
  else if 'a' ≤ c ∧ c ≤ 'f' then some (c.toNat - 'a'.toNat + 10)
  else if 'A' ≤ c ∧ c ≤ 'F' then some (c.toNat - 'A'.toNat + 10)
  else none

/-- Digit after digit, as long as the number is a byte. -/
def readDigits : Nat → List Char → Option Nat
  | n, []      => some n
  | n, c :: cs => (toDigit c).bind fun d =>
      if n * 16 + d < 256 then readDigits (n * 16 + d) cs else none

/-- `u8::from_str_radix(_, 16)`: a plus sign is allowed in front of the digits. -/
def fromStrRadix : List Char → Option UInt8
  | []        => none
  | ['+']     => none
  | '+' :: cs => (readDigits 0 cs).map UInt8.ofNat
  | cs        => (readDigits 0 cs).map UInt8.ofNat

/-- `&text[i..j]`, which has to be inside the text. -/
def slice (text : List Char) (i j : Nat) : Option (List Char) :=
  if i ≤ j ∧ j ≤ text.length then some ((text.drop i).take (j - i)) else none

/-- `(0..text.len()).step_by(2)` -/
def evenPositions (len : Nat) : List Nat := List.range' 0 ((len + 1) / 2) 2

def decode (text : List Char) : Option (List UInt8) :=
  (evenPositions text.length).mapM fun i => (slice text i (i + 2)).bind fromStrRadix

-- ── Digits ──────────────────────────────────────────────────────────────────

theorem lowerHex02_eq (b : UInt8) :
    lowerHex02 b = [Nat.digitChar (b.toNat / 16), Nat.digitChar (b.toNat % 16)] := by
  have hb : b.toNat < 256 := b.toNat_lt
  rw [lowerHex02, Nat.toDigits_eq_if (by decide)]
  by_cases h : b.toNat < 16
  · rw [if_pos h, Nat.div_eq_of_lt h, Nat.mod_eq_of_lt h]
    rfl
  · rw [if_neg h, Nat.toDigits_of_lt_base (by omega)]
    rfl

theorem toDigit_digitChar {n : Nat} (h : n < 16) : toDigit (Nat.digitChar n) = some n := by
  have hall : ∀ n < 16, toDigit (Nat.digitChar n) = some n := by decide
  exact hall n h

/-- The hexadecimal digits, of either case. -/
def hexDigits : List Char :=
  ['0', '1', '2', '3', '4', '5', '6', '7', '8', '9', 'a', 'b', 'c', 'd', 'e', 'f',
    'A', 'B', 'C', 'D', 'E', 'F']

theorem toDigit_isSome_of_mem {c : Char} (h : c ∈ hexDigits) : (toDigit c).isSome = true := by
  have hall : hexDigits.all (fun c => (toDigit c).isSome) = true := by decide
  exact List.all_eq_true.mp hall c h

theorem toNat_lt_of_le {c d : Char} {n : Nat} (h : c ≤ d) (hd : d.toNat < n) : c.toNat < n :=
  Nat.lt_of_le_of_lt (UInt32.le_iff_toNat_le.mp h) hd

/-- A digit is below sixteen, and written again in lower case. -/
theorem digitChar_of_toDigit {c : Char} {d : Nat} (h : toDigit c = some d) :
    d < 16 ∧ Nat.digitChar d = c.toLower := by
  have hall : ∀ n < 128, (toDigit (Char.ofNat n)).all fun d =>
      decide (d < 16 ∧ Nat.digitChar d = (Char.ofNat n).toLower) := by decide
  have hascii : c.toNat < 128 := by
    rw [toDigit] at h
    split at h
    · next hc => exact toNat_lt_of_le hc.2 (by decide)
    split at h
    · next hc => exact toNat_lt_of_le hc.2 (by decide)
    split at h
    · next hc => exact toNat_lt_of_le hc.2 (by decide)
    · cases h
  have hc := hall c.toNat hascii
  rw [Char.ofNat_toNat, h] at hc
  exact of_decide_eq_true hc

/-- Two digits are a byte. -/
theorem fromStrRadix_pair {a b : Char} {x y : Nat} (ha : toDigit a = some x)
    (hb : toDigit b = some y) : fromStrRadix [a, b] = some (UInt8.ofNat (x * 16 + y)) := by
  have hx := (digitChar_of_toDigit ha).1
  have hy := (digitChar_of_toDigit hb).1
  have hplus : a ≠ '+' := by
    rintro rfl
    cases ha
  have hread : readDigits 0 [a, b] = some (x * 16 + y) := by
    rw [readDigits, ha, Option.bind_some, if_pos (by omega), readDigits, hb, Option.bind_some,
      if_pos (by omega), readDigits]
    congr 1
    omega
  rw [fromStrRadix.eq_4 _ (by simp) (by simp) (by simp [hplus]), hread]
  rfl

-- ── Alignment ───────────────────────────────────────────────────────────────

theorem evenPositions_succ (len : Nat) :
    evenPositions (len + 2) = 0 :: (evenPositions len).map (2 + ·) := by
  rw [evenPositions, evenPositions, show (len + 2 + 1) / 2 = (len + 1) / 2 + 1 by omega,
    List.range'_succ, List.map_add_range']

/-- The slices of a text are those of the rest, two places on. -/
theorem slice_pair (a b : Char) (text : List Char) (i : Nat) :
    slice (a :: b :: text) (2 + i) (2 + i + 2) = slice text i (i + 2) := by
  rw [slice, slice, show 2 + i = i + 2 by omega]
  have hiff : (i + 2 ≤ i + 2 + 2 ∧ i + 2 + 2 ≤ (a :: b :: text).length) ↔
      (i ≤ i + 2 ∧ i + 2 ≤ text.length) := by
    simp only [List.length_cons]
    omega
  simp only [hiff, List.drop_succ_cons, Nat.add_sub_cancel_left]

/-- **TWO CHARACTERS AT A TIME.** -/
theorem decode_pair (a b : Char) (text : List Char) :
    decode (a :: b :: text) =
      (fromStrRadix [a, b]).bind fun byte => (decode text).map (byte :: ·) := by
  have hfirst : slice (a :: b :: text) 0 (0 + 2) = some [a, b] := by
    rw [slice, if_pos (by simp)]
    rfl
  have hrest : (fun i => (slice (a :: b :: text) i (i + 2)).bind fromStrRadix) ∘ (2 + ·) =
      fun i => (slice text i (i + 2)).bind fromStrRadix := by
    funext i
    exact congrArg (·.bind fromStrRadix) (slice_pair a b text i)
  rw [decode, List.length_cons, List.length_cons, evenPositions_succ, List.mapM_cons,
    List.mapM_map, hfirst, hrest]
  show ((fromStrRadix [a, b]).bind fun byte => (decode text).bind fun bytes =>
    some (byte :: bytes)) = _
  simp only [Option.map_eq_bind]
  rfl

/-- **WHAT WAS WRITTEN IS READ BACK.** -/
theorem decode_encode (bytes : List UInt8) : decode (encode bytes) = some bytes := by
  induction bytes with
  | nil => rfl
  | cons b bytes ih =>
      have hb : b.toNat < 256 := b.toNat_lt
      show decode (lowerHex02 b ++ encode bytes) = _
      rw [lowerHex02_eq]
      show decode (Nat.digitChar (b.toNat / 16) :: Nat.digitChar (b.toNat % 16) ::
        encode bytes) = _
      rw [decode_pair, fromStrRadix_pair (toDigit_digitChar (by omega))
        (toDigit_digitChar (by omega)), Option.bind_some, ih, Option.map_some,
        Nat.div_add_mod', UInt8.ofNat_toNat]

/-- Only digits are written. -/
theorem mem_hexDigits_of_mem_encode {bytes : List UInt8} {c : Char} (h : c ∈ encode bytes) :
    c ∈ hexDigits := by
  obtain ⟨b, -, hc⟩ := List.mem_flatMap.mp h
  have hall : ∀ n < 16, Nat.digitChar n ∈ hexDigits := by decide
  have hb : b.toNat < 256 := b.toNat_lt
  rw [lowerHex02_eq, List.mem_cons, List.mem_singleton] at hc
  rcases hc with rfl | rfl
  · exact hall _ (by omega)
  · exact hall _ (by omega)

theorem encode_injective : Function.Injective encode := by
  intro a b h
  have hdecoded := congrArg decode h
  rw [decode_encode, decode_encode] at hdecoded
  exact Option.some.inj hdecoded

/-- **PAIRS OF DIGITS ARE READ, AND WRITTEN AGAIN IN LOWER CASE.** -/
theorem encode_decode : ∀ text : List Char, Even text.length →
    (∀ c ∈ text, c ∈ hexDigits) →
    ∃ bytes, decode text = some bytes ∧ encode bytes = text.map Char.toLower
  | [], _, _ => ⟨[], rfl, rfl⟩
  | [_], heven, _ => absurd heven Nat.not_even_one
  | a :: b :: text, heven, hdigits => by
      obtain ⟨x, hx⟩ := Option.isSome_iff_exists.mp
        (toDigit_isSome_of_mem (hdigits a List.mem_cons_self))
      obtain ⟨y, hy⟩ := Option.isSome_iff_exists.mp
        (toDigit_isSome_of_mem (hdigits b (List.mem_cons_of_mem a List.mem_cons_self)))
      have heven' : Even (text.length + 2) := heven
      obtain ⟨bytes, hread, hwrite⟩ := encode_decode text
        ((Nat.even_add.mp heven').mpr (by decide)) fun c hc =>
          hdigits c (List.mem_cons_of_mem a (List.mem_cons_of_mem b hc))
      obtain ⟨hxlt, hxchar⟩ := digitChar_of_toDigit hx
      obtain ⟨hylt, hychar⟩ := digitChar_of_toDigit hy
      refine ⟨UInt8.ofNat (x * 16 + y) :: bytes, ?_, ?_⟩
      · rw [decode_pair, fromStrRadix_pair hx hy, Option.bind_some, hread]
        rfl
      · have hbyte : (UInt8.ofNat (x * 16 + y)).toNat = x * 16 + y := by
          rw [UInt8.toNat_ofNat']
          exact Nat.mod_eq_of_lt (by omega)
        show lowerHex02 _ ++ encode bytes = _
        rw [lowerHex02_eq, hbyte, hwrite, show (x * 16 + y) / 16 = x by omega,
          show (x * 16 + y) % 16 = y by omega, hxchar, hychar]
        rfl

end Hex
