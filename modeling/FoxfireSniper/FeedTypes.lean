import FoxfireSniper.Types

/-! # What the Geyser feed delivers

    Transaction updates, status updates and account updates of
    `src/collectors/tx_stream/types.rs`, down to the instructions inside a
    transaction.

    The protobuf payload of an update is decoded by crates that are not part of the
    repository (`create_tx_with_meta`, `EncodedTransaction::decode`, the JSON-parsed
    encoding of a message, base58).  The model keeps what these decoders answer, as
    a field, with `none` where they fail; every answer is possible.

    * Text that prints an address or a signature is the address or the signature.
    * `OptionSerializer` is an `Option`: its two empty forms are read alike. -/

namespace FoxfireFeed

open FoxfireTypes

-- ── Instructions as the encoder shows them ──────────────────────────────────

/-- `UiCompiledInstruction`: indices into the account keys of the transaction. -/
structure UiCompiledInstruction where
  programIdIndex : UInt8
  accounts       : List UInt8
  /-- What the base58 text of the data decodes to. -/
  data           : Option (List UInt8)
  deriving DecidableEq, Repr

/-- `UiPartiallyDecodedInstruction`. -/
structure UiPartiallyDecodedInstruction where
  programId : Pubkey
  accounts  : List Pubkey
  data      : Option (List UInt8)
  deriving DecidableEq, Repr

/-- `UiParsedInstruction`: the encoder knows the program and shows it as JSON, which
    nobody reads, or it shows accounts and data. -/
inductive UiParsedInstruction where
  | parsed
  | partiallyDecoded (ix : UiPartiallyDecodedInstruction)
  deriving DecidableEq, Repr

inductive UiInstruction where
  | compiled (ix : UiCompiledInstruction)
  | parsed (ix : UiParsedInstruction)
  deriving DecidableEq, Repr

/-- `UiParsedMessage`. -/
structure UiParsedMessage where
  accountKeys  : List Pubkey
  instructions : List UiInstruction
  deriving DecidableEq, Repr

inductive UiMessage where
  | parsed (message : UiParsedMessage)
  | raw
  deriving DecidableEq, Repr

/-- `VersionedMessage`, with its JSON-parsed encoding. -/
inductive VersionedMessage where
  | legacy (encoded : UiMessage)
  | v0 (encoded : UiMessage)
  deriving DecidableEq, Repr

/-- `VersionedMessage::encode` to `UiTransactionEncoding::JsonParsed`. -/
def VersionedMessage.encode : VersionedMessage → UiMessage
  | .legacy encoded => encoded
  | .v0 encoded     => encoded

structure VersionedTransaction where
  signatures : List Signature
  message    : VersionedMessage
  deriving DecidableEq, Repr

-- ── Transactions with their status ──────────────────────────────────────────

/-- `UiTransactionTokenBalance`: `none` for a mint that prints no address. -/
structure UiTransactionTokenBalance where
  mint     : Option Pubkey
  decimals : UInt8
  deriving DecidableEq, Repr

/-- `UiTransactionStatusMeta`. -/
structure UiTransactionStatusMeta where
  err                  : Option TransactionError := none
  statusIsOk           : Bool := true
  fee                  : UInt64 := 0
  computeUnitsConsumed : Option UInt64 := none
  /-- The instructions of each `UiInnerInstructions`. -/
  innerInstructions    : Option (List (List UiInstruction)) := none
  logMessages          : Option (List String) := none
  preTokenBalances     : Option (List UiTransactionTokenBalance) := none
  deriving DecidableEq, Repr

/-- `EncodedTransactionWithStatusMeta`.  The transaction is in base64, by
    `TransactionPretty::from`; `decoded` is what `decode()` makes of it. -/
structure EncodedTransactionWithStatusMeta where
  decoded    : Option VersionedTransaction
  statusMeta : Option UiTransactionStatusMeta
  deriving DecidableEq, Repr

/-- `SubscribeUpdateTransactionInfo`. -/
structure SubscribeUpdateTransactionInfo where
  signature : List UInt8
  isVote    : Bool
  /-- `create_tx_with_meta(tx)` followed by `encode(Base64, ..)`. -/
  encoded   : Option EncodedTransactionWithStatusMeta
  /-- The status metadata is there and `create_tx_meta` accepts it. -/
  metaIsOk  : Bool
  deriving DecidableEq, Repr

/-- `SubscribeUpdateTransaction`; the slot is read by no modelled function. -/
structure SubscribeUpdateTransaction where
  transaction : Option SubscribeUpdateTransactionInfo
  deriving DecidableEq, Repr

/-- `SubscribeUpdateTransactionStatus`: only the signature is read. -/
structure SubscribeUpdateTransactionStatus where
  signature : List UInt8
  deriving DecidableEq, Repr

inductive GeyserFeedEvent where
  | transaction (tx : SubscribeUpdateTransaction)
  | txStatusUpdate (status : SubscribeUpdateTransactionStatus)
  | account (acc : AccountPretty)
  deriving DecidableEq, Repr

/-- `TransactionPretty`, less the provider's name and the slot. -/
structure TransactionPretty where
  signature : Signature
  isVote    : Bool
  tx        : EncodedTransactionWithStatusMeta
  deriving DecidableEq, Repr

/-- `TransactionPretty::is_successful`. -/
def TransactionPretty.isSuccessful (t : TransactionPretty) : Bool :=
  t.tx.statusMeta.elim false (·.statusIsOk)

/-- `TransactionPretty::from`: `none` where one of its four `expect`s panics. -/
def TransactionPretty.ofUpdate (update : SubscribeUpdateTransaction) :
    Option TransactionPretty := do
  let info ← update.transaction
  let signature ← Signature.tryFrom info.signature
  let tx ← info.encoded
  return { signature, isVote := info.isVote, tx }

end FoxfireFeed
