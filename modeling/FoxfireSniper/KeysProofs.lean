import FoxfireSniper.HexProofs

/-! # Private keys as text

    `private_key_string_base16` and `from_base16_str_private_key` of `src/utils/keys.rs`.
    The 64 bytes of a keypair, and the check that 64 bytes are one, are those of the SDK:
    parameters, of which only that they undo each other is used.

    * **`private_key_round_trip`**: no key is altered by being written and read, nor a text by
      being read and written, except that its digits become lower-case. -/

namespace FoxfireKeys

open Hex

variable {Keypair : Type} (toBytes : Keypair → List UInt8)
  (fromBytes : List UInt8 → Option Keypair)

def privateKeyStringBase16 (keypair : Keypair) : List Char := encode (toBytes keypair)

/-- `none` where the source unwraps an error, or slices past the end. -/
def fromBase16StrPrivateKey (privateKey : List Char) : Option Keypair :=
  (decode privateKey).bind fromBytes

/-- `Keypair::to_bytes` and `Keypair::from_bytes` undo each other. -/
structure MutuallyInverse : Prop where
  from_to : ∀ keypair, fromBytes (toBytes keypair) = some keypair
  to_from : ∀ bytes keypair, fromBytes bytes = some keypair → toBytes keypair = bytes

variable {toBytes fromBytes}

/-- **NO PRIVATE KEY IS ALTERED BY THE ROUND TRIP**: all bytes are read back, every text of
    pairs of digits is read and written again in lower case, and so are keys. -/
theorem private_key_round_trip (h : MutuallyInverse toBytes fromBytes) :
    (∀ bytes, decode (encode bytes) = some bytes) ∧
    (∀ text, Even text.length → (∀ c ∈ text, c ∈ hexDigits) →
      ∃ bytes, decode text = some bytes ∧ encode bytes = text.map Char.toLower) ∧
    (∀ keypair, fromBase16StrPrivateKey fromBytes (privateKeyStringBase16 toBytes keypair) =
      some keypair) ∧
    (∀ text keypair, Even text.length → (∀ c ∈ text, c ∈ hexDigits) →
      fromBase16StrPrivateKey fromBytes text = some keypair →
      privateKeyStringBase16 toBytes keypair = text.map Char.toLower) := by
  refine ⟨decode_encode, encode_decode, ?_, ?_⟩
  · intro keypair
    rw [fromBase16StrPrivateKey, privateKeyStringBase16, decode_encode, Option.bind_some]
    exact h.from_to keypair
  · intro text keypair heven hdigits hread
    obtain ⟨bytes, hdecode, hencode⟩ := encode_decode text heven hdigits
    rw [fromBase16StrPrivateKey, hdecode, Option.bind_some] at hread
    rw [privateKeyStringBase16, h.to_from bytes keypair hread]
    exact hencode

/-- 64 bytes as a keypair. -/
abbrev Bytes64 := { bytes : List UInt8 // bytes.length = 64 }

def bytes64From (bytes : List UInt8) : Option Bytes64 :=
  if h : bytes.length = 64 then some ⟨bytes, h⟩ else none

theorem bytes64_inverse : MutuallyInverse Subtype.val bytes64From where
  from_to := by
    intro keypair
    rw [bytes64From, dif_pos keypair.2]
  to_from := by
    intro bytes keypair h
    rw [bytes64From] at h
    split at h
    · exact congrArg Subtype.val (Option.some.inj h).symm
    · cases h

/-- The secret scalar and the point of an Ed25519 keypair. -/
def aKeypair : Bytes64 :=
  ⟨[0x9d, 0x61, 0xb1, 0x9d, 0xef, 0xfd, 0x5a, 0x60, 0xba, 0x84, 0x4a, 0xf4, 0x92, 0xec, 0x2c,
      0xc4, 0x44, 0x49, 0xc5, 0x69, 0x7b, 0x32, 0x69, 0x19, 0x70, 0x3b, 0xac, 0x03, 0x1c, 0xae,
      0x7f, 0x60, 0xd7, 0x5a, 0x98, 0x01, 0x82, 0xb1, 0x0a, 0xb7, 0xd5, 0x4b, 0xfe, 0xd3, 0xc9,
      0x64, 0x07, 0x3a, 0x0e, 0xe1, 0x72, 0xf3, 0xda, 0xa6, 0x23, 0x25, 0xaf, 0x02, 0x1a, 0x68,
      0xf7, 0x07, 0x51, 0x1a], rfl⟩

/-- A keypair with bytes below 16, which need their zero. -/
theorem keypair_with_small_bytes :
    fromBase16StrPrivateKey bytes64From (privateKeyStringBase16 Subtype.val aKeypair) =
      some aKeypair :=
  (private_key_round_trip bytes64_inverse).2.2.1 aKeypair

end FoxfireKeys
