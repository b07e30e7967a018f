import Mathlib.Algebra.Order.Field.Rat
import FoxfireSniper.FeedTypes

/-! # Parsing transactions — swaps and new pools

    `parse_tx_for_swaps` of `src/solana/tx_parser.rs`, `extract_pool_from_init_tx` of
    `src/solana/pool.rs` and the amounts of `src/utils/decimals.rs`.

    A function that can stop early is a `Flow`: it panics (an index out of range, an
    `unwrap`), or it returns `None` (a `?`, a `return None`), or it goes on with a
    value.  Conversions by crates outside the repository are the fields of `Crates`. -/

namespace FoxfireParser

open FoxfireTypes FoxfireFeed

-- ── Early exits ─────────────────────────────────────────────────────────────

/-- How a function stops before its end. -/
inductive Stop where
  | panicked
  | returnedNone
  deriving DecidableEq, Repr

abbrev Flow := Except Stop

/-- `o?` in a function that returns an `Option`. -/
def orNone {α : Type} (o : Option α) : Flow α := o.elim (throw .returnedNone) pure

/-- `o.unwrap()`. -/
def unwrap {α : Type} (o : Option α) : Flow α := o.elim (throw .panicked) pure

/-- `xs[i]`. -/
def index {α : Type} (xs : List α) (i : Nat) : Flow α := unwrap xs[i]?

-- ── Amounts ─────────────────────────────────────────────────────────────────

/-- The power of ten is a `u64`, or there is nothing to convert. -/
def Convertible (amount : UInt64) (decimals : UInt8) : Prop :=
  amount = 0 ∨ 10 ^ decimals.toNat < 2 ^ 64

instance (amount : UInt64) (decimals : UInt8) : Decidable (Convertible amount decimals) :=
  inferInstanceAs (Decidable (_ ∨ _))

/-- An amount of base units in units of the token. -/
def uiAmount (amount : UInt64) (decimals : UInt8) : ℚ :=
  (amount.toNat : ℚ) / 10 ^ decimals.toNat

/-- `tokens_to_ui_amount_with_decimals_f64`: the `unwrap` of the power of ten panics
    when it overflows. -/
def tokensToUiAmountWithDecimals (amount : UInt64) (decimals : UInt8) : Flow ℚ :=
  if amount = 0 then pure 0
  else if 10 ^ decimals.toNat < 2 ^ 64 then pure (uiAmount amount decimals)
  else throw .panicked

/-- `lamports_to_sol`. -/
def lamportsToSol (lamports : UInt64) : ℚ := (lamports.toNat : ℚ) / 1000000000

/-- **THE CONVERSION IS EXACT, OR IT PANICS.** -/
theorem tokensToUiAmount_eq (amount : UInt64) (decimals : UInt8) :
    tokensToUiAmountWithDecimals amount decimals =
      if Convertible amount decimals then .ok (uiAmount amount decimals)
      else .error .panicked := by
  by_cases h0 : amount = 0
  · subst h0
    simp [tokensToUiAmountWithDecimals, Convertible, uiAmount, pure, Except.pure]
  · by_cases hp : 10 ^ decimals.toNat < 2 ^ 64
    · have hc : Convertible amount decimals := Or.inr hp
      rw [tokensToUiAmountWithDecimals, if_neg h0, if_pos hp, if_pos hc]
      rfl
    · have hc : ¬ Convertible amount decimals := not_or.mpr ⟨h0, hp⟩
      rw [tokensToUiAmountWithDecimals, if_neg h0, if_neg hp, if_neg hc]
      rfl

-- ── What the parsers ask of other crates ────────────────────────────────────

/-- `TokenInstruction`, as far as the parser tells its cases apart. -/
inductive TokenInstruction where
  | transfer (amount : UInt64)
  | other
  deriving DecidableEq, Repr

structure Crates where
  /-- `get_associated_token_address`, by owner and mint. -/
  getAssociatedTokenAddress : Pubkey → Pubkey → Pubkey
  /-- `TokenInstruction::unpack` -/
  unpack                    : List UInt8 → Option TokenInstruction
  /-- `\d` of the `regex` crate: the decimal digits of Unicode. -/
  isDigit                   : Char → Bool

-- ── Swaps ───────────────────────────────────────────────────────────────────

structure Swap where
  signature      : Signature
  poolId         : Pubkey
  quoteAmount    : UInt64
  baseAmount     : UInt64
  tradeDirection : TradeDirection
  deriving DecidableEq, Repr

/-- `parse_ui_compiled_instruction` -/
def parseUiCompiledInstruction (c : UiCompiledInstruction) (accountKeys : List Pubkey) :
    Flow UiPartiallyDecodedInstruction := do
  let programId ← index accountKeys c.programIdIndex.toNat
  let accounts ← c.accounts.mapM fun i => index accountKeys i.toNat
  return { programId, accounts, data := c.data }

/-- `parse_ui_instruction` -/
def parseUiInstruction (uiInstruction : UiInstruction) (accountKeys : List Pubkey) :
    Flow UiParsedInstruction :=
  match uiInstruction with
  | .compiled c                     =>
      .partiallyDecoded <$> parseUiCompiledInstruction c accountKeys
  | .parsed (.partiallyDecoded ix) => pure (.partiallyDecoded ix)
  | .parsed .parsed                 => throw .panicked

/-- The variables of the loop over the inner instructions. -/
structure Amounts where
  quoteAmount    : UInt64 := 0
  baseAmount     : UInt64 := 0
  tradeDirection : TradeDirection := .buy
  deriving DecidableEq, Repr

/-- The first inner loop: decode the instructions; each decides the direction anew. -/
def decodeInner (solAta : Pubkey) (txAccounts : List Pubkey) :
    TradeDirection → List UiInstruction →
      Flow (List UiPartiallyDecodedInstruction × TradeDirection)
  | direction, []      => pure ([], direction)
  | direction, i :: is => do
      match ← parseUiInstruction i txAccounts with
      | .parsed              => decodeInner solAta txAccounts direction is
      | .partiallyDecoded ix =>
          let destination ← index ix.accounts 1
          let direction := if destination = solAta then .sell else .buy
          let (decoded, direction) ← decodeInner solAta txAccounts direction is
          return (ix :: decoded, direction)

/-- The second inner loop: a token transfer is one side of the swap, which one is told
    by its authority. -/
def readTransfer (crates : Crates) (acc : Amounts) (ix : UiPartiallyDecodedInstruction) :
    Flow Amounts := do
  let data ← orNone ix.data
  if ix.programId = tokenProgramId ∧ data.head? = some 3 then
    let amount ← match crates.unpack data with
      | some (.transfer amount) => pure amount
      | _                       => throw .returnedNone
    let _source ← index ix.accounts 0
    let _destination ← index ix.accounts 1
    let authority ← index ix.accounts 2
    if authority = raydiumV4Authority then
      match acc.tradeDirection with
      | .buy  => return { acc with baseAmount := amount }
      | .sell => return { acc with quoteAmount := amount }
    else
      match acc.tradeDirection with
      | .buy  => return { acc with quoteAmount := amount }
      | .sell => return { acc with baseAmount := amount }
  else return acc

/-- One group of inner instructions; only groups of two are looked at. -/
def readInner (crates : Crates) (solAta : Pubkey) (txAccounts : List Pubkey)
    (acc : Amounts) (instructions : List UiInstruction) : Flow Amounts :=
  if instructions.length = 2 then do
    let (decoded, direction) ←
      decodeInner solAta txAccounts acc.tradeDirection instructions
    decoded.foldlM (readTransfer crates) { acc with tradeDirection := direction }
  else pure acc

/-- The swap of one Raydium instruction. -/
def parseSwap (crates : Crates) (signature : Signature)
    (statusMeta : Option UiTransactionStatusMeta) (txAccounts : List Pubkey)
    (ix : UiPartiallyDecodedInstruction) : Flow Swap := do
  let authority ← index ix.accounts (ix.accounts.length - 1)
  let solAta := crates.getAssociatedTokenAddress authority wsolMintPubkey
  let amounts ← match statusMeta with
    | none   => pure {}
    | some m =>
        if m.err.isSome then throw .returnedNone
        else do
          let allInnerIxs ← orNone m.innerInstructions
          allInnerIxs.foldlM (readInner crates solAta txAccounts) {}
  let poolId ← index ix.accounts 1
  return {
    signature
    poolId
    quoteAmount := amounts.quoteAmount
    baseAmount := amounts.baseAmount
    tradeDirection := amounts.tradeDirection }

/-- The loop over the instructions of the message: one that the encoder knows ends the
    whole function. -/
def parseSwaps (crates : Crates) (signature : Signature)
    (statusMeta : Option UiTransactionStatusMeta) (txAccounts : List Pubkey) :
    List UiInstruction → Flow (List Swap)
  | []         => pure []
  | i :: rest => do
      match i with
      | .parsed (.partiallyDecoded ix) =>
          if ix.programId = raydiumV4ProgramId then
            let swap ← parseSwap crates signature statusMeta txAccounts ix
            let swaps ← parseSwaps crates signature statusMeta txAccounts rest
            return swap :: swaps
          else parseSwaps crates signature statusMeta txAccounts rest
      | _ => throw .returnedNone

/-- `parse_tx_for_swaps` -/
def parseTxForSwaps (crates : Crates) (tx : EncodedTransactionWithStatusMeta) :
    Flow (List Swap) := do
  let versionedTx ← unwrap tx.decoded
  let signature ← index versionedTx.signatures 0
  match versionedTx.message with
  | .legacy (.parsed message) =>
      parseSwaps crates signature tx.statusMeta message.accountKeys message.instructions
  | .legacy .raw => throw .returnedNone
  | .v0 _        => throw .returnedNone

-- ── New pools ───────────────────────────────────────────────────────────────

/-- `str::contains` -/
def containsText (needle : List Char) : List Char → Bool
  | []      => needle.isEmpty
  | c :: cs => needle.isPrefixOf (c :: cs) || containsText needle cs

/-- A literal part of the pattern, and what follows it. -/
def literal (text : String) (input : List Char) : Option (List Char) :=
  if text.toList.isPrefixOf input then some (input.drop text.length) else none

/-- `(\d+)`, and what follows it. -/
def digits (crates : Crates) (input : List Char) : Option (List Char × List Char) :=
  let (group, rest) := input.span crates.isDigit
  if group.isEmpty then none else some (group, rest)

/-- The four groups of the log pattern, at the start of the text. -/
def initializeHere (crates : Crates) (input : List Char) :
    Option (List Char × List Char × List Char × List Char) := do
  let input ← literal "initialize2: InitializeInstruction2 \x7b nonce: " input
  let (nonce, input) ← digits crates input
  let input ← literal ", open_time: " input
  let (openTime, input) ← digits crates input
  let input ← literal ", init_pc_amount: " input
  let (initPcAmount, input) ← digits crates input
  let input ← literal ", init_coin_amount: " input
  let (initCoinAmount, input) ← digits crates input
  let _ ← literal " \x7d" input
  return (nonce, openTime, initPcAmount, initCoinAmount)

/-- `re.captures(log_message)`: the leftmost match. -/
def initializeCaptures (crates : Crates) : List Char →
    Option (List Char × List Char × List Char × List Char)
  | []      => initializeHere crates []
  | c :: cs =>
      (initializeHere crates (c :: cs)).orElse fun _ => initializeCaptures crates cs

/-- `str::parse` to an unsigned type of `width` bits. -/
def parseUnsigned (width : Nat) (text : List Char) : Option Nat :=
  let value := text.foldl (fun n c => 10 * n + (c.toNat - '0'.toNat)) 0
  if text.all Char.isDigit && decide (value < 2 ^ width) then some value else none

/-- The amounts of the log line of `initialize2`: `init_pc_amount`, `init_coin_amount`. -/
def initializeLog (crates : Crates) (logMessage : String) : Option (UInt64 × UInt64) := do
  let (nonce, openTime, initPcAmount, initCoinAmount) ←
    initializeCaptures crates logMessage.toList
  let _ ← parseUnsigned 8 nonce
  let _ ← parseUnsigned 64 openTime
  let initPcAmount ← parseUnsigned 64 initPcAmount
  let initCoinAmount ← parseUnsigned 64 initCoinAmount
  return (UInt64.ofNat initPcAmount, UInt64.ofNat initCoinAmount)

/-- `extract_token_balance_from_pre_or_post_token_balances` -/
def extractTokenBalance (tokenBalances : Option (List UiTransactionTokenBalance))
    (tokenMint : Pubkey) : Option UiTransactionTokenBalance :=
  tokenBalances.bind fun balances => balances.find? fun b => b.mint == some tokenMint

/-- The accounts of an instruction of the Raydium program. -/
def raydiumAccounts : UiInstruction → Option (List Pubkey)
  | .parsed (.partiallyDecoded ix) =>
      if ix.programId = raydiumV4ProgramId then some ix.accounts else none
  | _ => none

/-- `extract_pool_from_init_tx` -/
def extractPoolFromInitTx (crates : Crates) (now : Instant)
    (txUpdate : SubscribeUpdateTransaction) :
    Flow (RaydiumPool × RaydiumPoolPriceUpdate) := do
  let txPretty ← unwrap (TransactionPretty.ofUpdate txUpdate)
  let statusMeta ← orNone txPretty.tx.statusMeta
  let logMessages ← orNone statusMeta.logMessages
  let logMessage ←
    orNone (logMessages.find? fun m => containsText "initialize2".toList m.toList)
  let (initPcAmount, initCoinAmount) ← orNone (initializeLog crates logMessage)
  let versionedTx ← orNone txPretty.tx.decoded
  let info ← orNone txUpdate.transaction
  if !info.metaIsOk then throw .returnedNone
  let message ← match versionedTx.message.encode with
    | .parsed message => pure message
    | .raw            => throw .returnedNone
  let accounts ← orNone (message.instructions.findSome? raydiumAccounts)
  let coinMint ← index accounts 8
  let coinVault ← index accounts 10
  let pcMint ← index accounts 9
  let pcVault ← index accounts 11
  let reversedPool := coinMint == wsolMintPubkey
  let (baseMint, quoteMint) :=
    if reversedPool then (pcMint, coinMint) else (coinMint, pcMint)
  let (baseVault, quoteVault) :=
    if reversedPool then (pcVault, coinVault) else (coinVault, pcVault)
  let lpMint ← index accounts 7
  let (solReserve, tokenReserve) :=
    if reversedPool then (initCoinAmount, initPcAmount) else (initPcAmount, initCoinAmount)
  let preTokenBalance ← orNone (extractTokenBalance statusMeta.preTokenBalances baseMint)
  let baseReserve ← tokensToUiAmountWithDecimals tokenReserve preTokenBalance.decimals
  let quoteReserve := lamportsToSol solReserve
  let id ← index accounts 4
  let authority ← index accounts 5
  let openOrders ← index accounts 6
  let targetOrders ← index accounts 13
  let lpVault ← index accounts 12
  let marketProgramId ← index accounts 15
  let marketId ← index accounts 16
  let pool : RaydiumPool := {
    id, baseMint, quoteMint, lpMint
    baseDecimals := preTokenBalance.decimals
    quoteDecimals := 9
    version := 4
    programId := raydiumV4ProgramId
    authority, openOrders, targetOrders, baseVault, quoteVault, lpVault
    marketVersion := 3
    marketProgramId, marketId
    reversePool := reversedPool }
  let price : RaydiumPoolPriceUpdate := {
    pool := id
    price := quoteReserve / baseReserve
    baseReserve, quoteReserve
    createdAt := now }
  return (pool, price)

end FoxfireParser
