import Mathlib.Algebra.Order.Field.Rat

/-! # The data the bot passes around

    Keys, actions, events and pools, as `src/types` and `src/config/constants.rs`
    declare them.  Everything an agent, a collector or an executor reads is here;
    fields that no modelled function reads (log texts, database row ids) are not.

    Conventions:

    * a `u64` is a `UInt64`, so every addition wraps exactly where the release
      build's does;
    * an `f64` price or reserve is an exact rational;
    * an `Instant` or a `DateTime` is a number of milliseconds;
    * a Solana address is its 32 bytes, read as one big-endian number. -/

namespace FoxfireTypes

-- ── Addresses, keys, signatures, identifiers ────────────────────────────────

/-- A Solana address: 32 bytes. -/
structure Pubkey where
  bytes : BitVec 256
  deriving DecidableEq, Repr

/-- `Pubkey::default()`: all bytes zero. -/
instance : Inhabited Pubkey := ⟨⟨0⟩⟩

/-- `KeypairClonable`: an ed25519 keypair. -/
structure Keypair where
  pubkey : Pubkey
  secret : BitVec 256
  deriving DecidableEq, Repr

/-- A transaction signature: exactly 64 bytes. -/
structure Signature where
  bytes     : List UInt8
  length_eq : bytes.length = 64
  deriving DecidableEq, Repr

/-- `Signature::try_from(&[u8])`: only a slice of 64 bytes is a signature. -/
def Signature.tryFrom (b : List UInt8) : Option Signature :=
  if h : b.length = 64 then some ⟨b, h⟩ else none

/-- `Signature::default()`: 64 zero bytes. -/
instance : Inhabited Signature := ⟨⟨List.replicate 64 0, by simp⟩⟩

/-- A version 4 uuid. -/
structure Uuid where
  bits : BitVec 128
  deriving DecidableEq, Repr

/-- Milliseconds on the process's clock (`Instant`, `DateTime<Utc>`). -/
abbrev Instant := Nat

/-- Database id of a strategy instance (`i32`). -/
abbrev StrategyId := Int

/-- The tick of a heartbeat in milliseconds.  `tokio::time::interval` refuses a
    zero period, so the collector that emits heartbeats never emits a zero tick. -/
structure TickSizeMs where
  ms  : Nat
  pos : 0 < ms
  deriving DecidableEq, Repr

/-- `So11111111111111111111111111111111111111112`. -/
def wsolMintPubkey : Pubkey :=
  ⟨0x069b8857feab8184fb687f634618c035dac439dc1aeb3b5598a0f00000000001⟩

/-- `TokenkegQfeZyiNwAJbNbGKPFXCWuBvf9Ss623VQ5DA`. -/
def tokenProgramId : Pubkey :=
  ⟨0x06ddf6e1d765a193d9cbe146ceeb79ac1cb485ed5f5b37913a8cf5857eff00a9⟩

/-- `675kPX9MHTjS2zt1qfr1NYHuzeLXfQM9H24wFSUt1Mp8`. -/
def raydiumV4ProgramId : Pubkey :=
  ⟨0x4bd949c43602c33f207790ed16a3524ca1b9975cf121a2a90cffec7df8b68acd⟩

/-- `5Q544fKrFoe6tsEbD7S8EmxGTJYAKtTVhAW5Q5pge4j1`. -/
def raydiumV4Authority : Pubkey :=
  ⟨0x4157b0580f31c5fce44a62582dbcf9d78ee75943a084a393b350368d22899308⟩

-- ── Constants of `src/config/constants.rs` ──────────────────────────────────

def geyserTxFeedBufferCapacity : Nat := 65536
def cachedTxSignaturesBufferCapacity : Nat := 1024
def rtFeeRollingAverageSize : Nat := 2048
def rtFeePercentileCapacity : Nat := 2048
def maxTransfersInOneTx : Nat := 12
def actionExpiryS : Nat := 1000
def timeoutForActionExecutionHbs : Nat := 200
def retriesIfErrorOrTimeout : Nat := 2
def baseTxFeeSol : UInt64 := 5000
def transferPriorityFeeSol : UInt64 := 10000
def balanceChangeThresholdSol : UInt64 := 1000
def rentExemptionThresholdSol : UInt64 := 2039280
def newAccountThresholdSol : UInt64 := 890880

-- ── Amounts of `src/utils/decimals.rs` ──────────────────────────────────────

/-- The cast `x as u64` of a finite `f64`: toward zero, saturating at both ends. -/
def castToU64 (x : ℚ) : UInt64 := UInt64.ofNat (min x.floor.toNat (2 ^ 64 - 1))

/-- `sol_to_lamports`. -/
def solToLamports (sol : ℚ) : UInt64 := castToU64 (sol * 1000000000)

-- ── Pools ───────────────────────────────────────────────────────────────────

/-- `LiquidityPoolKeys` of the Raydium SDK crate. -/
structure LiquidityPoolKeys where
  id               : Pubkey
  baseMint         : Pubkey
  quoteMint        : Pubkey
  lpMint           : Pubkey
  baseDecimals     : UInt8
  quoteDecimals    : UInt8
  lpDecimals       : UInt8
  version          : UInt8
  programId        : Pubkey
  authority        : Pubkey
  openOrders       : Pubkey
  targetOrders     : Pubkey
  baseVault        : Pubkey
  quoteVault       : Pubkey
  withdrawQueue    : Pubkey
  lpVault          : Pubkey
  marketVersion    : UInt8
  marketProgramId  : Pubkey
  marketId         : Pubkey
  marketAuthority  : Pubkey
  marketBaseVault  : Pubkey
  marketQuoteVault : Pubkey
  marketBids       : Pubkey
  marketAsks       : Pubkey
  marketEventQueue : Pubkey
  deriving DecidableEq, Repr

/-- `RaydiumPool`: what the bot keeps about a pool. -/
structure RaydiumPool where
  id              : Pubkey := default
  baseMint        : Pubkey := default
  quoteMint       : Pubkey := default
  lpMint          : Pubkey := default
  baseDecimals    : UInt8 := 0
  quoteDecimals   : UInt8 := 0
  lpDecimals      : UInt8 := 0
  version         : UInt8 := 0
  programId       : Pubkey := default
  authority       : Pubkey := default
  openOrders      : Pubkey := default
  targetOrders    : Pubkey := default
  baseVault       : Pubkey := default
  quoteVault      : Pubkey := default
  withdrawQueue   : Pubkey := default
  lpVault         : Pubkey := default
  marketVersion   : UInt8 := 0
  marketProgramId : Pubkey := default
  marketId        : Pubkey := default
  lpReserve       : UInt64 := 0
  openTime        : UInt64 := 0
  reversePool     : Bool := false
  freezeAuthority : Option Pubkey := none
  deriving DecidableEq, Repr

/-- `RaydiumPool::default()`. -/
instance : Inhabited RaydiumPool := ⟨{}⟩

/-- `RaydiumPool::to_liquidity_keys`.  Only the vaults depend on the orientation;
    the order-book accounts are filled with the pool id. -/
def RaydiumPool.toLiquidityKeys (p : RaydiumPool) : LiquidityPoolKeys where
  id := p.id
  baseMint := p.baseMint
  quoteMint := p.quoteMint
  lpMint := p.lpMint
  baseDecimals := p.baseDecimals
  quoteDecimals := p.quoteDecimals
  lpDecimals := p.lpDecimals
  version := p.version
  programId := p.programId
  authority := p.authority
  openOrders := p.id
  targetOrders := p.id
  baseVault := if p.reversePool then p.quoteVault else p.baseVault
  quoteVault := if p.reversePool then p.baseVault else p.quoteVault
  withdrawQueue := p.withdrawQueue
  lpVault := p.lpVault
  marketVersion := p.marketVersion
  marketProgramId := p.id
  marketId := p.id
  marketAuthority := p.id
  marketBaseVault := p.id
  marketQuoteVault := p.id
  marketBids := p.id
  marketAsks := p.id
  marketEventQueue := p.id

/-- `RaydiumPoolPriceUpdate`, reserves and price as exact rationals. -/
structure RaydiumPoolPriceUpdate where
  pool         : Pubkey
  price        : ℚ
  baseReserve  : ℚ
  quoteReserve : ℚ
  createdAt    : Instant
  deriving DecidableEq

/-- `RaydiumPoolPriceUpdate::default()`. -/
instance : Inhabited RaydiumPoolPriceUpdate := ⟨⟨default, 0, 0, 0, 0⟩⟩

inductive TradeDirection where
  | buy
  | sell
  deriving DecidableEq, Repr

/-- `RaydiumSwapEvent`. -/
structure RaydiumSwapEvent where
  priceUpdate    : RaydiumPoolPriceUpdate
  signature      : Signature
  pool           : Pubkey
  tradeDirection : TradeDirection
  baseAmount     : ℚ
  quoteAmount    : ℚ
  price          : ℚ
  volume         : ℚ
  createdAt      : Instant
  deriving DecidableEq

-- ── Actions ─────────────────────────────────────────────────────────────────

/-- How much of an asset a step moves. -/
inductive Amount where
  | exact (amount : UInt64)
  /-- No more than this amount, fees included. -/
  | exactWithFees (amount : UInt64)
  /-- Everything, less the SOL for one further transfer. -/
  | maxButLeaveForTransfer
  /-- Everything; the token account stays open. -/
  | max
  /-- Everything, and close the token account; for SOL, like `max`. -/
  | maxAndClose
  deriving DecidableEq, Repr

inductive Asset where
  | sol
  | token (mint : Pubkey)
  deriving DecidableEq, Repr

structure SolanaTransferActionPayload where
  asset    : Asset
  receiver : Pubkey
  amount   : Amount
  deriving DecidableEq, Repr

inductive SwapMethod where
  | buyTokensForExactSol
  | sellExactTokensForSol
  deriving DecidableEq, Repr

structure SolanaSwapActionPayload where
  keys         : LiquidityPoolKeys
  swapMethod   : SwapMethod
  amountIn     : Amount
  minAmountOut : UInt64
  deriving DecidableEq, Repr

inductive SolanaActionPayload where
  | swap (payload : SolanaSwapActionPayload)
  | transfer (payload : SolanaTransferActionPayload)
  deriving DecidableEq, Repr

inductive ActionExecutionStatus where
  | notSent
  | pending
  | success
  | txError (error : String)
  | timeout
  deriving DecidableEq, Repr

/-- `Balance`: SOL and the balances of the tokens an action touches. -/
structure Balance where
  sol   : UInt64
  token : List (Pubkey × UInt64)
  deriving DecidableEq, Repr

structure SolanaAction where
  uuid          : Uuid
  sniper        : Keypair
  feePayer      : Keypair
  createdAt     : Instant
  actionPayload : List SolanaActionPayload
  status        : ActionExecutionStatus
  txHash        : Signature
  balanceBefore : Option Balance
  balanceAfter  : Option Balance
  fee           : Int
  sentAt        : Option Instant
  confirmedAt   : Option Instant
  deriving DecidableEq, Repr

/-- `SolanaAction::new_with_feepayer`, given the fresh uuid and the clock. -/
def SolanaAction.newWithFeepayer (uuid : Uuid) (now : Instant)
    (sniper feePayer : Keypair) (payload : List SolanaActionPayload) :
    SolanaAction where
  uuid := uuid
  sniper := sniper
  feePayer := feePayer
  createdAt := now
  actionPayload := payload
  status := .notSent
  txHash := default
  balanceBefore := none
  balanceAfter := none
  fee := 0
  sentAt := none
  confirmedAt := none

/-- `SolanaAction::new`: the sniper pays the fee. -/
def SolanaAction.new (uuid : Uuid) (now : Instant) (sniper : Keypair)
    (payload : List SolanaActionPayload) : SolanaAction :=
  SolanaAction.newWithFeepayer uuid now sniper sniper payload

/-- `SolanaAction::is_expired`: whole seconds since creation exceed the expiry. -/
def SolanaAction.isExpired (a : SolanaAction) (now : Instant) : Bool :=
  actionExpiryS < (now - a.createdAt) / 1000

-- ── Instructions ────────────────────────────────────────────────────────────

/-- A recent blockhash. -/
structure Hash where
  bytes : BitVec 256
  deriving DecidableEq, Repr

structure AccountMeta where
  pubkey     : Pubkey
  isSigner   : Bool
  isWritable : Bool
  deriving DecidableEq, Repr

/-- `UserKeys` of the Raydium SDK crate. -/
structure UserKeys where
  tokenAccountIn  : Pubkey
  tokenAccountOut : Pubkey
  owner           : Pubkey
  deriving DecidableEq, Repr

/-- The instructions that the bot builds, by what they do; any other one by its parts. -/
inductive Instruction where
  /-- `system_instruction::transfer` -/
  | systemTransfer (source dest : Pubkey) (lamports : UInt64)
  /-- `create_associated_token_account` -/
  | createAssociatedTokenAccount (funder owner mint tokenProgram : Pubkey)
  /-- `spl_token::instruction::transfer` -/
  | tokenTransfer (source dest authority : Pubkey) (amount : UInt64)
  /-- `spl_token::instruction::close_account` -/
  | closeAccount (account dest owner : Pubkey)
  /-- `spl_token::instruction::sync_native` -/
  | syncNative (account : Pubkey)
  /-- `make_swap_fixed_in_instruction` -/
  | swapFixedIn (poolKeys : LiquidityPoolKeys) (userKeys : UserKeys)
      (amountIn minAmountOut : UInt64) (version : UInt8)
  | other (programId : Pubkey) (accounts : List AccountMeta) (data : List UInt8)
  deriving DecidableEq, Repr

-- ── Events ──────────────────────────────────────────────────────────────────

/-- `ExecutionError` of `types/events/events.rs`. -/
inductive ExecutionError where
  | actionTooOld
  | noInstructionsGenerated
  | severalTokensInOneTx
  | zeroSolBalance
  | notEnoughSolBalance (required balance : UInt64)
  | notEnoughTokenBalance (required balance : UInt64)
  | unsupportedPool (baseMint quoteMint : Pubkey)
  | simulationFailed (text : String)
  | other (text : String)
  deriving DecidableEq, Repr

/-- What an executor reports about one action. -/
inductive ExecutionResult where
  | sent
  | executionError (e : ExecutionError)
  deriving DecidableEq, Repr

/-- The on-chain error of a transaction, kept abstract: an error code. -/
structure TransactionError where
  code : Nat
  deriving DecidableEq, Repr

structure ExecutionReceipt where
  actionUuid           : Uuid
  transactionSignature : Signature
  err                  : Option TransactionError
  statusChangedAt      : Instant
  deriving DecidableEq, Repr

/-- `AccountPretty`, less the raw account data: `token_unpacked_data` is the amount
    held when the data unpacks as a token account. -/
structure AccountPretty where
  slot              : UInt64
  pubkey            : Pubkey
  lamports          : UInt64
  tokenUnpackedData : Option UInt64
  writeVersion      : UInt64
  txnSignature      : Option Signature
  deriving DecidableEq, Repr

inductive BlockchainEvent where
  | accountUpdate (acc : AccountPretty)
  | deposit (signature : Option Signature) (acc : Pubkey) (lamports : UInt64)
  | withdrawal (signature : Option Signature) (acc : Pubkey) (lamports : UInt64)
  | executionReceipt (receipt : ExecutionReceipt)
  | raydiumHeartbeatPriceUpdate (update : RaydiumPoolPriceUpdate)
  | raydiumSwapEvent (event : RaydiumSwapEvent)
  | raydiumNewPoolEvent (pool : RaydiumPool) (price : RaydiumPoolPriceUpdate)
  deriving DecidableEq

inductive SystemEvent where
  | destroyStrategy (id : StrategyId)
  | stop
  deriving DecidableEq, Repr

/-- `BotEvent`.  The payload of a derived event (indicator values) is read by no
    strategy and is left out. -/
inductive BotEvent where
  | heartBeat (tick : TickSizeMs) (instant : Instant)
  | blockchainEvent (event : BlockchainEvent)
  | derivedEvent (pool : Pubkey)
  | executionResult (uuid : Uuid) (action : SolanaAction) (result : ExecutionResult)
  | systemEvent (event : SystemEvent)
  deriving DecidableEq

/-- Commands a strategy gives to one of its agents. -/
inductive AgentEvent where
  | buy (amount : Amount)
  | sell (amount : Amount)
  | transfer (batch : List SolanaTransferActionPayload)
  | collect
  | deactivate
  deriving DecidableEq, Repr

inductive SolanaStrategyEvent where
  | original (event : BotEvent)
  | forAgent (event : AgentEvent)
  deriving DecidableEq

end FoxfireTypes
