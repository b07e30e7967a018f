import FoxfireSniper.TxParserProofs

/-! # What a new pool is taken from

    `extract_pool_from_init_tx` of `src/solana/pool.rs`, cut where it stops looking for a
    deployment and starts reading one: `findDeployment` matches the log line and looks for
    an instruction of the Raydium program, `readPool` reads that instruction's accounts.

    Nothing in the first part looks at the transaction's status, and the instruction is
    the first one of the Raydium program, whatever it does: the log line may come from
    anybody.  Nothing in the second part asks for WSOL to be one of the two mints.

    * **`extract_eq`**: the function is its two parts.
    * **`readPool_eq_ok`**: everything a returned pool is made of.
    * **`genuine_iff`**: a returned pool is a real deployment against WSOL exactly when
      the three facts that nobody checks happen to hold. -/

namespace FoxfireParser

open FoxfireTypes FoxfireFeed

-- ── Finding a deployment ────────────────────────────────────────────────────

/-- An instruction of the Raydium program. -/
def raydiumInstruction : UiInstruction → Option UiPartiallyDecodedInstruction
  | .parsed (.partiallyDecoded ix) =>
      if ix.programId = raydiumV4ProgramId then some ix else none
  | _ => none

/-- What the function has in hand when it starts to read accounts. -/
structure Deployment where
  statusMeta     : UiTransactionStatusMeta
  initPcAmount   : UInt64
  initCoinAmount : UInt64
  instruction    : UiPartiallyDecodedInstruction

/-- The first part; `none` is a return of `None`. -/
def findDeployment (crates : Crates) (txUpdate : SubscribeUpdateTransaction)
    (txPretty : TransactionPretty) : Option Deployment := do
  let statusMeta ← txPretty.tx.statusMeta
  let logMessages ← statusMeta.logMessages
  let logMessage ← logMessages.find? fun m => containsText "initialize2".toList m.toList
  let (initPcAmount, initCoinAmount) ← initializeLog crates logMessage
  let versionedTx ← txPretty.tx.decoded
  let info ← txUpdate.transaction
  if !info.metaIsOk then none
  let message ← match versionedTx.message.encode with
    | .parsed message => some message
    | .raw            => none
  let instruction ← message.instructions.findSome? raydiumInstruction
  return ⟨statusMeta, initPcAmount, initCoinAmount, instruction⟩

/-- The second part. -/
def readPool (now : Instant) (d : Deployment) : Flow (RaydiumPool × RaydiumPoolPriceUpdate) := do
  let accounts := d.instruction.accounts
  let coinMint ← index accounts 8
  let coinVault ← index accounts 10
  let pcMint ← index accounts 9
  let pcVault ← index accounts 11
  let reversedPool := coinMint == wsolMintPubkey
  let (baseMint, quoteMint) :=
    if reversedPool then (pcMint, coinMint) else (coinMint, pcMint)
  let (baseVault, quoteVault) :=
    if reversedPool then (pcVault, coinVault) else (coinVault, pcVault)
  let lpMint ← index accounts 7
  let (solReserve, tokenReserve) :=
    if reversedPool then (d.initCoinAmount, d.initPcAmount)
    else (d.initPcAmount, d.initCoinAmount)
  let preTokenBalance ← orNone (extractTokenBalance d.statusMeta.preTokenBalances baseMint)
  let baseReserve ← tokensToUiAmountWithDecimals tokenReserve preTokenBalance.decimals
  let quoteReserve := lamportsToSol solReserve
  let id ← index accounts 4
  let authority ← index accounts 5
  let openOrders ← index accounts 6
  let targetOrders ← index accounts 13
  let lpVault ← index accounts 12
  let marketProgramId ← index accounts 15
  let marketId ← index accounts 16
  let pool : RaydiumPool := {
    id, baseMint, quoteMint, lpMint
    baseDecimals := preTokenBalance.decimals
    quoteDecimals := 9
    version := 4
    programId := raydiumV4ProgramId
    authority, openOrders, targetOrders, baseVault, quoteVault, lpVault
    marketVersion := 3
    marketProgramId, marketId
    reversePool := reversedPool }
  let price : RaydiumPoolPriceUpdate := {
    pool := id
    price := quoteReserve / baseReserve
    baseReserve, quoteReserve
    createdAt := now }
  return (pool, price)

theorem findSome_raydiumAccounts (instructions : List UiInstruction) :
    instructions.findSome? raydiumAccounts =
      (instructions.findSome? raydiumInstruction).map (·.accounts) := by
  have hone : ∀ i, raydiumAccounts i = (raydiumInstruction i).map (·.accounts) := by
    intro i
    cases i with
    | compiled ix => rfl
    | parsed ix =>
        cases ix with
        | parsed => rfl
        | partiallyDecoded ix =>
            rw [raydiumAccounts, raydiumInstruction]
            split <;> rfl
  induction instructions with
  | nil => rfl
  | cons i is ih =>
      rw [List.findSome?_cons, List.findSome?_cons, hone]
      cases raydiumInstruction i with
      | none => exact ih
      | some ix => rfl

/-- A `?` after a `?`. -/
theorem orNone_bind {α β γ : Type} (o : Option α) (f : α → Option β) (g : β → Flow γ) :
    orNone (o >>= f) >>= g = orNone o >>= fun a => orNone (f a) >>= g := by
  cases o with
  | none => rfl
  | some a => rfl

/-- **THE FUNCTION IS ITS TWO PARTS.** -/
theorem extract_eq (crates : Crates) (now : Instant) (txUpdate : SubscribeUpdateTransaction) :
    extractPoolFromInitTx crates now txUpdate =
      unwrap (TransactionPretty.ofUpdate txUpdate) >>= fun txPretty =>
        orNone (findDeployment crates txUpdate txPretty) >>= readPool now := by
  rw [extractPoolFromInitTx]
  refine bind_congr fun txPretty => ?_
  rw [findDeployment, orNone_bind]
  refine bind_congr fun statusMeta => ?_
  rw [orNone_bind]
  refine bind_congr fun logMessages => ?_
  rw [orNone_bind]
  refine bind_congr fun logMessage => ?_
  rw [orNone_bind]
  refine bind_congr ?_
  rintro ⟨initPcAmount, initCoinAmount⟩
  rw [orNone_bind]
  refine bind_congr fun versionedTx => ?_
  rw [orNone_bind]
  refine bind_congr fun info => ?_
  cases info.metaIsOk with
  | false => rfl
  | true =>
      cases versionedTx.message.encode with
      | raw => rfl
      | parsed message =>
          show orNone (message.instructions.findSome? raydiumAccounts) >>= _ =
            orNone (message.instructions.findSome? raydiumInstruction >>= _) >>= _
          rw [orNone_bind, findSome_raydiumAccounts]
          cases message.instructions.findSome? raydiumInstruction with
          | none => rfl
          | some instruction => rfl

-- ── Reading it ──────────────────────────────────────────────────────────────

theorem index_of_lt {xs : List Pubkey} {i : Nat} (h : i < xs.length) :
    index xs i = .ok (xs.getD i default) := by
  rw [index, List.getElem?_eq_getElem h, List.getD_eq_getElem?_getD,
    List.getElem?_eq_getElem h]
  rfl

theorem index_of_le {α : Type} {xs : List α} {i : Nat} (h : xs.length ≤ i) :
    index xs i = .error .panicked := by
  rw [index, List.getElem?_eq_none_iff.mpr h]
  rfl

namespace Deployment

def account (d : Deployment) (i : Nat) : Pubkey := d.instruction.accounts.getD i default

/-- The coin mint is WSOL. -/
def reversedPool (d : Deployment) : Bool := d.account 8 == wsolMintPubkey

def baseMint (d : Deployment) : Pubkey :=
  if d.reversedPool then d.account 9 else d.account 8

def quoteMint (d : Deployment) : Pubkey :=
  if d.reversedPool then d.account 8 else d.account 9

def solReserve (d : Deployment) : UInt64 :=
  if d.reversedPool then d.initCoinAmount else d.initPcAmount

def tokenReserve (d : Deployment) : UInt64 :=
  if d.reversedPool then d.initPcAmount else d.initCoinAmount

/-- The token balance that tells the decimals of the base mint. -/
def balance (d : Deployment) : Option UiTransactionTokenBalance :=
  extractTokenBalance d.statusMeta.preTokenBalances d.baseMint

/-- The pool that is returned, with the decimals of its base mint. -/
def pool (d : Deployment) (decimals : UInt8) : RaydiumPool where
  id := d.account 4
  baseMint := d.baseMint
  quoteMint := d.quoteMint
  lpMint := d.account 7
  baseDecimals := decimals
  quoteDecimals := 9
  version := 4
  programId := raydiumV4ProgramId
  authority := d.account 5
  openOrders := d.account 6
  targetOrders := d.account 13
  baseVault := if d.reversedPool then d.account 11 else d.account 10
  quoteVault := if d.reversedPool then d.account 10 else d.account 11
  lpVault := d.account 12
  marketVersion := 3
  marketProgramId := d.account 15
  marketId := d.account 16
  reversePool := d.reversedPool

/-- The price that is returned with it. -/
def price (d : Deployment) (now : Instant) (decimals : UInt8) : RaydiumPoolPriceUpdate where
  pool := d.account 4
  price := lamportsToSol d.solReserve / uiAmount d.tokenReserve decimals
  baseReserve := uiAmount d.tokenReserve decimals
  quoteReserve := lamportsToSol d.solReserve
  createdAt := now

end Deployment

theorem ok_bind {α β : Type} (a : α) (f : α → Flow β) : (Except.ok a : Flow α) >>= f = f a := rfl

namespace Deployment

variable (d : Deployment)

theorem mints_eq :
    (if (d.instruction.accounts.getD 8 default == wsolMintPubkey) = true then
      (d.instruction.accounts.getD 9 default, d.instruction.accounts.getD 8 default)
    else (d.instruction.accounts.getD 8 default, d.instruction.accounts.getD 9 default)) =
      (d.baseMint, d.quoteMint) := by
  show (if d.reversedPool = true then _ else _) = _
  rw [baseMint, quoteMint]
  cases d.reversedPool <;> rfl

theorem vaults_eq :
    (if (d.instruction.accounts.getD 8 default == wsolMintPubkey) = true then
      (d.instruction.accounts.getD 11 default, d.instruction.accounts.getD 10 default)
    else (d.instruction.accounts.getD 10 default, d.instruction.accounts.getD 11 default)) =
      ((d.pool 0).baseVault, (d.pool 0).quoteVault) := by
  show (if d.reversedPool = true then _ else _) = _
  rw [pool]
  cases d.reversedPool <;> rfl

theorem reserves_eq :
    (if (d.instruction.accounts.getD 8 default == wsolMintPubkey) = true then
      (d.initCoinAmount, d.initPcAmount) else (d.initPcAmount, d.initCoinAmount)) =
      (d.solReserve, d.tokenReserve) := by
  show (if d.reversedPool = true then _ else _) = _
  rw [solReserve, tokenReserve]
  cases d.reversedPool <;> rfl

end Deployment

/-- The last accounts are missing. -/
theorem readRest_panics {α : Type} {xs : List Pubkey} (h : xs.length < 17)
    (f : Pubkey → Pubkey → Pubkey → Pubkey → Flow α) :
    (do
      let targetOrders ← index xs 13
      let lpVault ← index xs 12
      let marketProgramId ← index xs 15
      let marketId ← index xs 16
      f targetOrders lpVault marketProgramId marketId) = .error .panicked := by
  rcases Nat.lt_or_ge 13 xs.length with h13 | h13
  · rw [index_of_lt h13, index_of_lt (Nat.lt_trans (by decide) h13)]
    rcases Nat.lt_or_ge 15 xs.length with h15 | h15
    · rw [index_of_lt h15, index_of_le (Nat.le_of_lt_succ h)]
      rfl
    · rw [index_of_le h15]
      rfl
  · rw [index_of_le h13]
    rfl

/-- **EVERYTHING THE SECOND PART DOES**: the first accounts are read before the token
    balance is looked up, the others after. -/
theorem readPool_eq (now : Instant) (d : Deployment) :
    readPool now d =
      if d.instruction.accounts.length < 12 then .error .panicked
      else d.balance.elim (.error .returnedNone) fun b =>
        if Convertible d.tokenReserve b.decimals ∧ 17 ≤ d.instruction.accounts.length
        then .ok (d.pool b.decimals, d.price now b.decimals) else .error .panicked := by
  rw [readPool]
  by_cases hshort : d.instruction.accounts.length < 12
  · rw [if_pos hshort]
    rcases Nat.lt_or_ge 8 d.instruction.accounts.length with h8 | h8
    · rw [index_of_lt h8]
      rcases Nat.lt_or_ge 10 d.instruction.accounts.length with h10 | h10
      · rw [index_of_lt h10, index_of_lt (Nat.lt_trans (by decide) h10),
          index_of_le (Nat.le_of_lt_succ hshort)]
        rfl
      · rw [index_of_le h10]
        rfl
    · rw [index_of_le h8]
      rfl
  · rw [if_neg hshort]
    have hlen : ∀ i, i < 12 → i < d.instruction.accounts.length := by
      intro i hi
      exact Nat.lt_of_lt_of_le hi (Nat.le_of_not_lt hshort)
    rw [index_of_lt (hlen 8 (by decide)), index_of_lt (hlen 10 (by decide)),
      index_of_lt (hlen 9 (by decide)), index_of_lt (hlen 11 (by decide)),
      index_of_lt (hlen 7 (by decide)), index_of_lt (hlen 4 (by decide)),
      index_of_lt (hlen 5 (by decide)), index_of_lt (hlen 6 (by decide))]
    simp only [ok_bind]
    rw [d.mints_eq, d.vaults_eq, d.reserves_eq]
    show orNone d.balance >>= _ = _
    cases d.balance with
    | none => rfl
    | some b =>
        show tokensToUiAmountWithDecimals d.tokenReserve b.decimals >>= _ = _
        rw [tokensToUiAmount_eq]
        by_cases hc : Convertible d.tokenReserve b.decimals
        · rw [if_pos hc, ok_bind, Option.elim_some]
          by_cases hlong : 17 ≤ d.instruction.accounts.length
          · have hlt : ∀ i, i < 17 → i < d.instruction.accounts.length :=
              fun i hi => Nat.lt_of_lt_of_le hi hlong
            rw [if_pos ⟨hc, hlong⟩, index_of_lt (hlt 13 (by decide)),
              index_of_lt (hlt 12 (by decide)), index_of_lt (hlt 15 (by decide)),
              index_of_lt (hlt 16 (by decide))]
            rfl
          · rw [if_neg (fun h => hlong h.2)]
            exact readRest_panics (Nat.lt_of_not_le hlong) _
        · rw [if_neg hc, Option.elim_some, if_neg (fun h => hc h.1)]
          rfl

/-- **EVERYTHING A RETURNED POOL IS MADE OF.** -/
theorem extract_eq_ok {crates : Crates} {now : Instant} {txUpdate : SubscribeUpdateTransaction}
    {pool : RaydiumPool} {price : RaydiumPoolPriceUpdate}
    (h : extractPoolFromInitTx crates now txUpdate = .ok (pool, price)) :
    ∃ txPretty d b, TransactionPretty.ofUpdate txUpdate = some txPretty ∧
      findDeployment crates txUpdate txPretty = some d ∧ d.balance = some b ∧
      17 ≤ d.instruction.accounts.length ∧ pool = d.pool b.decimals ∧
      price = d.price now b.decimals := by
  rw [extract_eq] at h
  cases hp : TransactionPretty.ofUpdate txUpdate with
  | none => rw [hp] at h; cases h
  | some txPretty =>
      rw [hp] at h
      cases hd : findDeployment crates txUpdate txPretty with
      | none =>
          have hnone : (orNone (none : Option Deployment) >>= readPool now) = .ok (pool, price) := by
            rw [← hd]
            exact h
          cases hnone
      | some d =>
          have hread : readPool now d = .ok (pool, price) := by
            have hsome : (orNone (some d) >>= readPool now) = .ok (pool, price) := by
              rw [← hd]
              exact h
            exact hsome
          rw [readPool_eq] at hread
          split at hread
          · cases hread
          · cases hb : d.balance with
            | none => rw [hb] at hread; cases hread
            | some b =>
                rw [hb, Option.elim_some] at hread
                split at hread
                · next hc =>
                    obtain ⟨rfl, rfl⟩ := Prod.mk.inj (Except.ok.inj hread)
                    exact ⟨txPretty, d, b, rfl, hd, hb, hc.2, rfl, rfl⟩
                · cases hread

-- ── What nobody checks ──────────────────────────────────────────────────────

/-- The first byte of the data of the Raydium program's `initialize2`. -/
def initialize2Tag : UInt8 := 1

/-- An `initialize2` of the Raydium program. -/
def isInitialize2 (ix : UiPartiallyDecodedInstruction) : Bool :=
  ix.programId = raydiumV4ProgramId && (ix.data.bind List.head?) == some initialize2Tag

/-- The transaction's status is not an error. -/
def Succeeded (txUpdate : SubscribeUpdateTransaction) : Prop :=
  ∃ txPretty m, TransactionPretty.ofUpdate txUpdate = some txPretty ∧
    txPretty.tx.statusMeta = some m ∧ m.err = none

/-- The instruction whose accounts are used: the first of the Raydium program. -/
def usedInstruction (txUpdate : SubscribeUpdateTransaction) :
    Option UiPartiallyDecodedInstruction := do
  let txPretty ← TransactionPretty.ofUpdate txUpdate
  let versionedTx ← txPretty.tx.decoded
  match versionedTx.message.encode with
  | .parsed message => message.instructions.findSome? raydiumInstruction
  | .raw            => none

/-- Exactly one of the coin mint and the pc mint is WSOL. -/
def OneSideWsol (ix : UiPartiallyDecodedInstruction) : Prop :=
  ¬ (ix.accounts.getD 8 default = wsolMintPubkey ↔ ix.accounts.getD 9 default = wsolMintPubkey)

instance (ix : UiPartiallyDecodedInstruction) : Decidable (OneSideWsol ix) :=
  inferInstanceAs (Decidable (¬ _))

/-- A pool that a successful `initialize2` has opened for a token against WSOL. -/
structure Genuine (txUpdate : SubscribeUpdateTransaction) (pool : RaydiumPool) : Prop where
  succeeded   : Succeeded txUpdate
  initialize2 : ∃ ix, usedInstruction txUpdate = some ix ∧ isInitialize2 ix = true
  quote       : pool.quoteMint = wsolMintPubkey
  base        : pool.baseMint ≠ wsolMintPubkey

theorem findDeployment_uses {crates : Crates} {txUpdate : SubscribeUpdateTransaction}
    {txPretty : TransactionPretty} {d : Deployment}
    (hp : TransactionPretty.ofUpdate txUpdate = some txPretty)
    (h : findDeployment crates txUpdate txPretty = some d) :
    usedInstruction txUpdate = some d.instruction := by
  simp only [findDeployment, Option.bind_eq_bind, Option.bind_eq_some_iff] at h
  obtain ⟨m, -, logs, -, log, -, ⟨pc, coin⟩, -, h⟩ := h
  obtain ⟨tx, htx, info, -, h⟩ := h
  have hinstr : usedInstruction txUpdate = match tx.message.encode with
      | .parsed message => message.instructions.findSome? raydiumInstruction
      | .raw => none := by
    simp only [usedInstruction, hp, htx, Option.bind_eq_bind, Option.bind_some]
  split at h
  · cases h
  · rw [hinstr]
    cases hm : tx.message.encode with
    | raw =>
        rw [hm] at h
        cases h
    | parsed message =>
        simp only [hm, Option.bind_some] at h
        obtain ⟨ix, hix, heq⟩ := Option.bind_eq_some_iff.mp h
        obtain rfl := Option.some.inj heq
        exact hix

/-- The mints of the returned pool. -/
theorem pool_wsol_iff (d : Deployment) (decimals : UInt8) :
    ((d.pool decimals).quoteMint = wsolMintPubkey ∧
      (d.pool decimals).baseMint ≠ wsolMintPubkey) ↔ OneSideWsol d.instruction := by
  show (d.quoteMint = wsolMintPubkey ∧ d.baseMint ≠ wsolMintPubkey) ↔
    ¬ (d.account 8 = wsolMintPubkey ↔ d.account 9 = wsolMintPubkey)
  rw [Deployment.quoteMint, Deployment.baseMint, Deployment.reversedPool]
  by_cases h8 : d.account 8 = wsolMintPubkey
  · have hrev : (d.account 8 == wsolMintPubkey) = true := beq_iff_eq.mpr h8
    rw [if_pos hrev, if_pos hrev]
    constructor
    · rintro ⟨-, h9⟩ hiff
      exact h9 (hiff.mp h8)
    · intro hiff
      exact ⟨h8, fun h9 => hiff ⟨fun _ => h9, fun _ => h8⟩⟩
  · have hrev : ¬ (d.account 8 == wsolMintPubkey) = true := fun h => h8 (beq_iff_eq.mp h)
    rw [if_neg hrev, if_neg hrev]
    constructor
    · rintro ⟨h9, -⟩ hiff
      exact h8 (hiff.mpr h9)
    · intro hiff
      refine ⟨?_, h8⟩
      by_contra h9
      exact hiff ⟨fun h => absurd h h8, fun h => absurd h h9⟩

/-- **A RETURNED POOL IS GENUINE EXACTLY WHEN THE TRANSACTION IS HONEST**: it succeeded,
    its first Raydium instruction is an `initialize2`, and exactly one of that
    instruction's two mints is WSOL. -/
theorem genuine_iff {crates : Crates} {now : Instant} {txUpdate : SubscribeUpdateTransaction}
    {pool : RaydiumPool} {price : RaydiumPoolPriceUpdate}
    (h : extractPoolFromInitTx crates now txUpdate = .ok (pool, price)) :
    Genuine txUpdate pool ↔ Succeeded txUpdate ∧ ∃ ix, usedInstruction txUpdate = some ix ∧
      isInitialize2 ix = true ∧ OneSideWsol ix := by
  obtain ⟨txPretty, d, b, hp, hd, -, -, rfl, -⟩ := extract_eq_ok h
  have hused := findDeployment_uses hp hd
  constructor
  · intro hg
    obtain ⟨ix, hix, hinit⟩ := hg.initialize2
    obtain rfl : d.instruction = ix := Option.some.inj (hused.symm.trans hix)
    exact ⟨hg.succeeded, d.instruction, hused, hinit, (pool_wsol_iff d _).mp ⟨hg.quote, hg.base⟩⟩
  · rintro ⟨hs, ix, hix, hinit, hone⟩
    obtain rfl : d.instruction = ix := Option.some.inj (hused.symm.trans hix)
    obtain ⟨hquote, hbase⟩ := (pool_wsol_iff d b.decimals).mpr hone
    exact ⟨hs, ⟨d.instruction, hused, hinit⟩, hquote, hbase⟩

-- ── An honest deployment, and a forged one ──────────────────────────────────

/-- Crates whose answers do not matter here: ASCII digits, and no token instruction. -/
def plainCrates : Crates where
  getAssociatedTokenAddress := fun owner _ => owner
  unpack := fun _ => none
  isDigit := Char.isDigit

/-- Eighteen accounts, numbered from one hundred, with these two mints. -/
def deploymentAccounts (coinMint pcMint : Pubkey) : List Pubkey :=
  ((List.range 18).map fun n => (⟨BitVec.ofNat 256 (100 + n)⟩ : Pubkey)).set 8 coinMint
    |>.set 9 pcMint

/-- A transaction with one Raydium instruction, that logged the line of `initialize2`. -/
def deploymentTx (err : Option TransactionError) (tag : UInt8) (coinMint pcMint : Pubkey) :
    SubscribeUpdateTransaction where
  transaction := some {
    signature := List.replicate 64 0
    isVote := false
    metaIsOk := true
    encoded := some {
      decoded := some {
        signatures := [default]
        message := .legacy (.parsed {
          accountKeys := []
          instructions := [.parsed (.partiallyDecoded {
            programId := raydiumV4ProgramId
            accounts := deploymentAccounts coinMint pcMint
            data := some [tag] })] }) }
      statusMeta := some {
        err := err
        logMessages := some [
          "Program log: initialize2: InitializeInstruction2 \x7b nonce: 254, open_time: 0, " ++
          "init_pc_amount: 1000, init_coin_amount: 5000 \x7d"]
        preTokenBalances := some [⟨some coinMint, 6⟩] } } }

/-- The mints of what is returned. -/
def viewMints (r : Flow (RaydiumPool × RaydiumPoolPriceUpdate)) : Option (Pubkey × Pubkey) :=
  match r with
  | .ok p    => some (p.1.baseMint, p.1.quoteMint)
  | .error _ => none

theorem viewMints_eq_some {r : Flow (RaydiumPool × RaydiumPoolPriceUpdate)} {base quote : Pubkey}
    (h : viewMints r = some (base, quote)) :
    ∃ pool price, r = .ok (pool, price) ∧ pool.baseMint = base ∧ pool.quoteMint = quote := by
  cases r with
  | error e => cases h
  | ok p =>
      obtain ⟨hb, hq⟩ := Prod.mk.inj (Option.some.inj h)
      exact ⟨p.1, p.2, rfl, hb, hq⟩

/-- A deployment of a token against WSOL. -/
theorem honest_deployment_genuine :
    ∃ pool price, extractPoolFromInitTx plainCrates 0
        (deploymentTx none initialize2Tag ⟨7⟩ wsolMintPubkey) = .ok (pool, price) ∧
      Genuine (deploymentTx none initialize2Tag ⟨7⟩ wsolMintPubkey) pool := by
  have hview : viewMints (extractPoolFromInitTx plainCrates 0
      (deploymentTx none initialize2Tag ⟨7⟩ wsolMintPubkey)) = some (⟨7⟩, wsolMintPubkey) := by
    decide +kernel
  obtain ⟨pool, price, hr, -, -⟩ := viewMints_eq_some hview
  exact ⟨pool, price, hr, (genuine_iff hr).mpr
    ⟨⟨_, _, rfl, rfl, rfl⟩, _, rfl, by decide +kernel, by decide +kernel⟩⟩

/-- **A FORGED LOG LINE IN A FAILED TRANSACTION**: a swap between two tokens, none of them
    WSOL, is taken for a new pool. -/
theorem forged_pool_returned :
    ¬ ∀ (crates : Crates) (now : Instant) (txUpdate : SubscribeUpdateTransaction)
      (pool : RaydiumPool) (price : RaydiumPoolPriceUpdate),
      extractPoolFromInitTx crates now txUpdate = .ok (pool, price) → Genuine txUpdate pool := by
  intro hclaim
  have hview : viewMints (extractPoolFromInitTx plainCrates 0
      (deploymentTx (some ⟨1⟩) 9 ⟨7⟩ ⟨8⟩)) = some (⟨7⟩, ⟨8⟩) := by decide +kernel
  obtain ⟨pool, price, hr, -, hq⟩ := viewMints_eq_some hview
  have hquote := (hclaim _ _ _ pool price hr).quote
  rw [hq] at hquote
  exact absurd hquote (by decide)

end FoxfireParser
