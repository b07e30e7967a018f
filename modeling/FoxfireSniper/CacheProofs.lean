import FoxfireSniper.CircularBufferProofs
import FoxfireSniper.Types

/-! # `OperationalCache` — what the tasks of the bot share

    `src/config/cache.rs` with the fee statistics of `src/utils/fee_metrics.rs`: the
    part that the executors write and the feed's collector reads.  Each operation
    takes its lock for itself, so each is one atomic step.

    A signature is cached by its base58 text, which determines it; the model caches
    the signature.

    The lemmas say what a registration does to the lookup by signature, and that the
    lookups by signature of other tables are left alone. -/

namespace FoxfireCache

open FoxfireTypes FoxfireBuffer

-- ── Fee statistics ──────────────────────────────────────────────────────────

/-- `RollingAverage`: a ring of the last fees and their sum.  The cursor is always
    inside the ring. -/
structure RollingAverage where
  buffer   : List UInt64
  index    : Nat
  sum      : UInt64
  index_lt : index < buffer.length

def RollingAverage.new (size : Nat) (h : 0 < size) : RollingAverage where
  buffer := List.replicate size 0
  index := 0
  sum := 0
  index_lt := by simpa using h

def RollingAverage.add (r : RollingAverage) (value : UInt64) : RollingAverage where
  sum := r.sum - r.buffer.get ⟨r.index, r.index_lt⟩ + value
  buffer := r.buffer.set r.index value
  index := (r.index + 1) % r.buffer.length
  index_lt := by
    rw [List.length_set]
    exact Nat.mod_lt _ (Nat.zero_lt_of_lt r.index_lt)

/-- `Percentile`: a `BTreeSet` of fees, listed in increasing order. -/
structure Percentile where
  data     : List UInt64
  capacity : Nat

/-- `BTreeSet::insert`. -/
def insertSorted (value : UInt64) : List UInt64 → List UInt64
  | []      => [value]
  | x :: xs =>
      if value < x then value :: x :: xs
      else if value = x then x :: xs
      else x :: insertSorted value xs

/-- A full set gives up its least fee first. -/
def Percentile.add (p : Percentile) (value : UInt64) : Percentile :=
  let data := if p.data.length = p.capacity then p.data.tail else p.data
  { p with data := insertSorted value data }

structure FeeMetrics where
  rollingAverage : RollingAverage
  percentile     : Percentile

def FeeMetrics.new (raSize percentileCapacity : Nat) (h : 0 < raSize) : FeeMetrics where
  rollingAverage := .new raSize h
  percentile := ⟨[], percentileCapacity⟩

def FeeMetrics.addFee (m : FeeMetrics) (fee : UInt64) : FeeMetrics where
  rollingAverage := m.rollingAverage.add fee
  percentile := m.percentile.add fee

-- ── Least recently used ─────────────────────────────────────────────────────

/-- `lru::LruCache`: entries from the most to the least recently used. -/
structure LruCache (K V : Type) where
  entries : List (K × V)
  cap     : Nat

/-- `contains` does not count as a use. -/
def LruCache.contains {K V : Type} [DecidableEq K] (c : LruCache K V) (key : K) : Bool :=
  c.entries.any fun e => e.1 == key

def LruCache.put {K V : Type} [DecidableEq K] (c : LruCache K V) (key : K) (value : V) :
    LruCache K V :=
  { c with entries := ((key, value) :: c.entries.filter fun e => e.1 != key).take c.cap }

-- ── The cache ───────────────────────────────────────────────────────────────

structure OperationalCache where
  agentTxSignatures   : CircularBufferWithLookupByValue Uuid Signature
  processedSignatures : CircularBufferWithLookupByValue Uuid Signature
  optimalFee          : FeeMetrics
  /-- By pool id. -/
  targetPools         : Pubkey → Option RaydiumPool
  /-- Pool ids, by token. -/
  targetTokens        : LruCache Pubkey Pubkey
  targetPoolsPrices   : Pubkey → Option RaydiumPoolPriceUpdate
  /-- `some none` is an account that is monitored and has not been seen yet. -/
  accounts            : Pubkey → Option (Option AccountPretty)

namespace OperationalCache

def new (targetPools : Pubkey → Option RaydiumPool)
    (targetPoolsPrices : Pubkey → Option RaydiumPoolPriceUpdate) : OperationalCache where
  agentTxSignatures := .new cachedTxSignaturesBufferCapacity
  processedSignatures := .new cachedTxSignaturesBufferCapacity
  optimalFee := .new rtFeeRollingAverageSize rtFeePercentileCapacity (by decide)
  targetPools := targetPools
  targetTokens := ⟨[], cachedTxSignaturesBufferCapacity⟩
  targetPoolsPrices := targetPoolsPrices
  accounts := fun _ => none

def addAgentTx (c : OperationalCache) (uuid : Uuid) (signature : Signature) :
    OperationalCache :=
  { c with agentTxSignatures := c.agentTxSignatures.insert uuid signature }

def getUuidBySignature (c : OperationalCache) (signature : Signature) : Option Uuid :=
  c.agentTxSignatures.getByValue signature

def popFront (c : OperationalCache) : Option (Uuid × Signature) × OperationalCache :=
  let (popped, buffer) := c.agentTxSignatures.popFront
  (popped, { c with agentTxSignatures := buffer })

/-- `if_agent_signature`; no signature of a transaction is the empty text. -/
def ifAgentSignature (c : OperationalCache) (signature : Option Signature) : Bool :=
  signature.elim false c.agentTxSignatures.containsValue

def markSignatureAsProcessed (c : OperationalCache) (uuid : Uuid)
    (signature : Signature) : OperationalCache :=
  { c with processedSignatures := c.processedSignatures.insert uuid signature }

def isSignatureProcessed (c : OperationalCache) (signature : Signature) : Bool :=
  c.processedSignatures.containsValue signature

def updateOptimalFee (c : OperationalCache) (fee : UInt64) : OperationalCache :=
  { c with optimalFee := c.optimalFee.addFee fee }

def getAccount (c : OperationalCache) (acc : Pubkey) : Option (Option AccountPretty) :=
  c.accounts acc

def updateAccount (c : OperationalCache) (acc : Pubkey) (account : Option AccountPretty) :
    OperationalCache :=
  { c with accounts := Function.update c.accounts acc (some account) }

/-- `monitor_with_geyser`: whatever is known about the account is forgotten. -/
def monitorWithGeyser (c : OperationalCache) (acc : Pubkey) : OperationalCache :=
  c.updateAccount acc none

def dropAccountMonitoring (c : OperationalCache) (acc : Pubkey) : OperationalCache :=
  { c with accounts := Function.update c.accounts acc none }

end OperationalCache

-- ── Registration ────────────────────────────────────────────────────────────

variable (c : OperationalCache)

/-- What a registration does to the owner of a signature. -/
theorem getUuidBySignature_addAgentTx (uuid : Uuid) (sig s : Signature) :
    (c.addAgentTx uuid sig).getUuidBySignature s =
      if s = sig then some uuid
      else if c.agentTxSignatures.evicted = some s then none
      else c.getUuidBySignature s :=
  CircularBufferWithLookupByValue.getByValue_insert _ uuid sig s

theorem getAccount_updateAccount_self (acc : Pubkey) (account : Option AccountPretty) :
    (c.updateAccount acc account).getAccount acc = some account :=
  Function.update_self ..

theorem getAccount_updateAccount_other {acc k : Pubkey} (h : k ≠ acc)
    (account : Option AccountPretty) :
    (c.updateAccount acc account).getAccount k = c.getAccount k :=
  Function.update_of_ne h ..

theorem getAccount_drop_self (acc : Pubkey) :
    (c.dropAccountMonitoring acc).getAccount acc = none :=
  Function.update_self ..

theorem getAccount_drop_other {acc k : Pubkey} (h : k ≠ acc) :
    (c.dropAccountMonitoring acc).getAccount k = c.getAccount k :=
  Function.update_of_ne h ..

end FoxfireCache
