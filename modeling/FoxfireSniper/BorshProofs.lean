import Mathlib.Algebra.Group.Nat.Defs
import Mathlib.Data.List.Basic

/-! # Borsh — what is written is read back

    Borsh writes the fields of a record one after the other, integers with their least
    significant byte first.  A `Codec` is a way to write values together with a reader that
    takes a value off the front of a list of bytes; that the reader undoes the writing is
    part of it, so codecs of larger types are put together without proving it again.

    * `Codec.u8`, `Codec.u64`: the integers; `ofLeBytes_leBytes` is why a word survives.
    * `Codec.seq`, `Codec.record`: one value after another, and a type that has the same
      values in other clothes.
    * **`Codec.tryFromSlice_tryToVec`**: the round trip of a whole list of bytes. -/

namespace Borsh

-- ── Numbers as bytes ────────────────────────────────────────────────────────

/-- The `n` lowest bytes of a number, the least significant one first. -/
def leBytes : Nat → Nat → List UInt8
  | 0, _     => []
  | n + 1, k => UInt8.ofNat k :: leBytes n (k / 256)

/-- The number that bytes stand for. -/
def ofLeBytes : List UInt8 → Nat
  | []      => 0
  | b :: bs => b.toNat + 256 * ofLeBytes bs

theorem length_leBytes (n : Nat) : ∀ k, (leBytes n k).length = n := by
  induction n with
  | zero => intro k; rfl
  | succ n ih =>
      intro k
      rw [leBytes, List.length_cons, ih]

/-- Bytes lose what lies above them, and nothing else. -/
theorem ofLeBytes_leBytes (n : Nat) : ∀ k, ofLeBytes (leBytes n k) = k % 256 ^ n := by
  induction n with
  | zero =>
      intro k
      rw [Nat.pow_zero, Nat.mod_one]
      rfl
  | succ n ih =>
      intro k
      have hpow : 256 ^ (n + 1) = 256 * 256 ^ n := Nat.pow_succ'
      rw [leBytes, ofLeBytes, ih, UInt8.toNat_ofNat', hpow, Nat.mod_mul]

theorem ofLeBytes_word (x : UInt64) : UInt64.ofNat (ofLeBytes (leBytes 8 x.toNat)) = x := by
  have hlt : x.toNat < 256 ^ 8 := x.toNat_lt
  rw [ofLeBytes_leBytes, Nat.mod_eq_of_lt hlt, UInt64.ofNat_toNat]

-- ── Codecs ──────────────────────────────────────────────────────────────────

/-- A way to write values, and to take one off the front of what was written. -/
structure Codec (α : Type) where
  write      : α → List UInt8
  read       : List UInt8 → Option (α × List UInt8)
  read_write : ∀ a rest, read (write a ++ rest) = some (a, rest)

namespace Codec

variable {α β : Type}

def u8 : Codec UInt8 where
  write := fun a => [a]
  read
    | []        => none
    | b :: rest => some (b, rest)
  read_write := fun _ _ => rfl

def u64 : Codec UInt64 where
  write := fun a => leBytes 8 a.toNat
  read := fun bs =>
    if bs.length < 8 then none else some (UInt64.ofNat (ofLeBytes (bs.take 8)), bs.drop 8)
  read_write := by
    intro a rest
    have hlength := length_leBytes 8 a.toNat
    rw [if_neg (by rw [List.length_append]; omega), List.take_left' hlength,
      List.drop_left' hlength, ofLeBytes_word]

/-- One value, then another. -/
def seq (c : Codec α) (d : Codec β) : Codec (α × β) where
  write := fun p => c.write p.1 ++ d.write p.2
  read := fun bs => (c.read bs).bind fun r => (d.read r.2).map fun q => ((r.1, q.1), q.2)
  read_write := by
    intro p rest
    rw [List.append_assoc, c.read_write, Option.bind_some, d.read_write]
    rfl

/-- A record is written as its fields are. -/
def record (c : Codec α) (fields : β → α) (make : α → β)
    (hmake : ∀ b, make (fields b) = b) : Codec β where
  write := fun b => c.write (fields b)
  read := fun bs => (c.read bs).map fun r => (make r.1, r.2)
  read_write := by
    intro b rest
    rw [c.read_write]
    show some (make (fields b), rest) = _
    rw [hmake]

def tryToVec (c : Codec α) (a : α) : List UInt8 := c.write a

/-- All bytes belong to the value. -/
def tryFromSlice (c : Codec α) (bs : List UInt8) : Option α :=
  match c.read bs with
  | some (a, []) => some a
  | _            => none

/-- **WHAT IS WRITTEN IS READ BACK.** -/
theorem tryFromSlice_tryToVec (c : Codec α) (a : α) :
    c.tryFromSlice (c.tryToVec a) = some a := by
  have h := c.read_write a []
  rw [List.append_nil] at h
  rw [tryFromSlice, tryToVec, h]

end Codec

end Borsh
