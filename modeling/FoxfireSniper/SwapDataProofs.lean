import FoxfireSniper.AccountReplayProofs
import FoxfireSniper.BorshProofs

/-! # The swaps of an action, as Raydium reads them

    `make_swap_fixed_in_instruction` (`crates/solana_farm_client/src/raydium_sdk.rs`) turns a
    swap into a Raydium instruction: its data is a record in Borsh, with the tag of the
    instruction, the amount paid and the least amount accepted; its last accounts are those
    the user pays from and into.

    The emitted instructions are read back and compared with the swaps that the steps ask
    for, in order.

    * `readSwap_make`: nothing is lost on the way through the instruction;
    * `step_swaps`: a sale asks for the bound of its payload, a purchase for none;
    * **`swaps_as_asked_iff`**: so the swaps are those asked for exactly if no purchase that
      swaps something sets a bound. -/

namespace FoxfireSwapData

open FoxfireTypes FoxfireBuild FoxfireSolvency FoxfireLedger FoxfireReplay MachineRun Borsh

-- ── The instruction ─────────────────────────────────────────────────────────

/-- `Instruction` of the Solana SDK. -/
structure RawInstruction where
  programId : Pubkey
  accounts  : List AccountMeta
  data      : List UInt8
  deriving DecidableEq

structure SwapInstructionData where
  instruction  : UInt8
  amountIn     : UInt64
  minAmountOut : UInt64
  deriving DecidableEq

/-- The derived Borsh instances. -/
def swapInstructionData : Codec SwapInstructionData :=
  (Codec.u8.seq (Codec.u64.seq Codec.u64)).record
    (fun d => (d.instruction, d.amountIn, d.minAmountOut)) (fun p => ⟨p.1, p.2.1, p.2.2⟩)
    fun _ => rfl

/-- `CDSr3ssLcRB6XYPJwAfFt18MZvEZp4LjHcvzBVZ45duo`. -/
def modelDataPubkey : Pubkey :=
  ⟨0xa6a0bfecb36557823b9c2bec5dfde9fa885093d36b0096f628016952a10827d6⟩

def accountMeta (pubkey : Pubkey) (isSigner : Bool) : AccountMeta := ⟨pubkey, isSigner, true⟩

def accountMetaReadonly (pubkey : Pubkey) (isSigner : Bool) : AccountMeta :=
  ⟨pubkey, isSigner, false⟩

/-- **`make_swap_fixed_in_instruction`**. -/
def makeSwapFixedInInstruction (poolKeys : LiquidityPoolKeys) (userKeys : UserKeys)
    (amountIn minAmountOut : UInt64) (version : UInt8) : RawInstruction where
  programId := poolKeys.programId
  data := swapInstructionData.tryToVec ⟨9, amountIn, minAmountOut⟩
  accounts :=
    [accountMetaReadonly tokenProgramId false, accountMeta poolKeys.id false,
      accountMetaReadonly poolKeys.authority false, accountMeta poolKeys.openOrders false]
    ++ (if version = 4 then [accountMeta poolKeys.targetOrders false] else [])
    ++ [accountMeta poolKeys.baseVault false, accountMeta poolKeys.quoteVault false]
    ++ (if version = 5 then [accountMeta modelDataPubkey false] else [])
    ++ [accountMetaReadonly poolKeys.marketProgramId false, accountMeta poolKeys.marketId false,
      accountMeta poolKeys.marketBids false, accountMeta poolKeys.marketAsks false,
      accountMeta poolKeys.marketEventQueue false, accountMeta poolKeys.marketBaseVault false,
      accountMeta poolKeys.marketQuoteVault false,
      accountMetaReadonly poolKeys.marketAuthority false]
    ++ [accountMeta userKeys.tokenAccountIn false, accountMeta userKeys.tokenAccountOut false,
      accountMetaReadonly userKeys.owner true]

/-- The Raydium instruction, if it is one that swaps. -/
def raydium : Instruction → Option RawInstruction
  | .swapFixedIn poolKeys userKeys amountIn minAmountOut version =>
      some (makeSwapFixedInInstruction poolKeys userKeys amountIn minAmountOut version)
  | _ => none

-- ── Reading it back ─────────────────────────────────────────────────────────

/-- A swap: how much is paid, what is the least accepted, from where and into where. -/
structure SwapOrder where
  amountIn     : Nat
  minAmountOut : UInt64
  source       : Pubkey
  destination  : Pubkey
  deriving DecidableEq

/-- A swap with a fixed amount in: the data are those of instruction 9, and the last accounts
    are the source, the destination and the owner. -/
def readSwap (ix : RawInstruction) : Option SwapOrder :=
  match swapInstructionData.tryFromSlice ix.data, ix.accounts.reverse with
  | some d, _ :: destination :: source :: _ =>
      if d.instruction = 9 then
        some ⟨d.amountIn.toNat, d.minAmountOut, source.pubkey, destination.pubkey⟩
      else none
  | _, _ => none

/-- Nothing is lost on the way. -/
theorem readSwap_make (poolKeys : LiquidityPoolKeys) (userKeys : UserKeys)
    (amountIn minAmountOut : UInt64) (version : UInt8) :
    readSwap (makeSwapFixedInInstruction poolKeys userKeys amountIn minAmountOut version) =
      some ⟨amountIn.toNat, minAmountOut, userKeys.tokenAccountIn,
        userKeys.tokenAccountOut⟩ := by
  rw [readSwap, makeSwapFixedInInstruction, Codec.tryFromSlice_tryToVec, List.reverse_append]
  rfl

/-- The swaps among instructions, as they are read. -/
def readSwaps (ixs : List Instruction) : List (Option SwapOrder) :=
  (ixs.filterMap raydium).map readSwap

theorem readSwaps_append (a b : List Instruction) :
    readSwaps (a ++ b) = readSwaps a ++ readSwaps b := by
  rw [readSwaps, List.filterMap_append, List.map_append]
  rfl

-- ── What the steps ask for ──────────────────────────────────────────────────

/-- The amount that a swap comes to. -/
def resolvedAmountIn (tx : TxContext) (p : Pointers) (s : SolanaSwapActionPayload) : Nat :=
  match s.swapMethod with
  | .buyTokensForExactSol  => buyLamports tx p s.amountIn
  | .sellExactTokensForSol => (tokenAmount p s.amountIn).toNat

/-- A purchase pays from the wrapped SOL into the token account, a sale the other way. -/
def asked (tx : TxContext) (p : Pointers) (s : SolanaSwapActionPayload) : SwapOrder :=
  match s.swapMethod with
  | .buyTokensForExactSol =>
      ⟨resolvedAmountIn tx p s, s.minAmountOut, tx.sniperWsolAta, tx.sniperTokenAta⟩
  | .sellExactTokensForSol =>
      ⟨resolvedAmountIn tx p s, s.minAmountOut, tx.sniperTokenAta, tx.sniperWsolAta⟩

/-- The swap of a step: none for a transfer, or if the amount comes to nothing. -/
def swapOf (tx : TxContext) (p : Pointers) : SolanaActionPayload → List SwapOrder
  | .transfer _ => []
  | .swap s     => if 0 < resolvedAmountIn tx p s then [asked tx p s] else []

/-- The swaps that the steps ask for, with the pointers as the loop moves them. -/
def swapsOf (tx : TxContext) : Pointers → List SolanaActionPayload → List SwapOrder
  | _, []      => []
  | p, s :: ss => swapOf tx p s ++
      match round tx p s with
      | some (p', _) => swapsOf tx p' ss
      | none         => []

/-- **A BOUND THAT IS KEPT**: a purchase that swaps something has none to keep. -/
def BoundKept (tx : TxContext) (p : Pointers) : SolanaActionPayload → Prop
  | .transfer _ => True
  | .swap s     =>
      s.swapMethod = .buyTokensForExactSol → 0 < buyLamports tx p s.amountIn → s.minAmountOut = 0

variable {tx : TxContext} {p : Pointers}

-- ── A step ──────────────────────────────────────────────────────────────────

/-- What a step's instructions are read to swap: a purchase without its bound. -/
def emitted (tx : TxContext) (p : Pointers) : SolanaActionPayload → List SwapOrder
  | .transfer _ => []
  | .swap s     =>
      if 0 < resolvedAmountIn tx p s then
        match s.swapMethod with
        | .buyTokensForExactSol  => [{ asked tx p s with minAmountOut := 0 }]
        | .sellExactTokensForSol => [asked tx p s]
      else []

/-- To create an account that does not exist is no swap. -/
theorem readSwaps_created (c : Bool) (payer owner mint : Pubkey) :
    readSwaps (if c = true then [] else
      [.createAssociatedTokenAccount payer owner mint tokenProgramId]) = [] := by
  cases c with
  | true => rfl
  | false => rfl

theorem readSwaps_transfer {t : SolanaTransferActionPayload} {r : StepResult}
    (h : Stepped tx p (.transfer t) r) : readSwaps (emittedIxs r.1) = [] := by
  cases h with
  | sol ha =>
      cases hamount : t.amount with
      | max => simp only [transferSol, hamount]; rfl
      | maxAndClose => simp only [transferSol, hamount]; rfl
      | _ =>
          simp only [transferSol, hamount]
          split <;> rfl
  | token ha =>
      simp only [transferToken]
      split
      · split <;> split <;> rfl
      · rfl

theorem readSwaps_buy (hf : FeeOK tx) (hp : FeeShown tx p) {s : SolanaSwapActionPayload}
    {r : StepResult} (hsup : supportedPool s.keys = true)
    (hm : s.swapMethod = .buyTokensForExactSol) (h : buy tx p s = .ok r) :
    readSwaps (emittedIxs r.1) = (emitted tx p (.swap s)).map some := by
  have hkeys : userKeys tx s = ⟨tx.sniperWsolAta, tx.sniperTokenAta, tx.sniper⟩ := by
    rw [userKeys_supported hsup, hm]
  simp only [emitted, asked, resolvedAmountIn, hm]
  cases hin : swapSolAmountIn tx p s.amountIn with
  | error e =>
      simp only [buy, hin] at h
      cases h
  | ok amountIn =>
      rw [← swapSolAmountIn_lamports hf hp hin]
      rcases buy_of_amount hin h with ⟨hpos, rfl⟩ | ⟨hzero, rfl⟩
      · have hpos' : 0 < amountIn.val.toNat := hpos
        rw [if_pos hpos']
        show readSwaps (buyIxs tx s amountIn.val) = _
        rw [buyIxs, readSwaps_append, readSwaps_append, readSwaps_created, readSwaps_created,
          hkeys]
        show [readSwap _] = _
        rw [readSwap_make]
        rfl
      · rw [hzero, UInt64.toNat_zero, if_neg (Nat.lt_irrefl 0)]
        rfl

theorem readSwaps_sell {s : SolanaSwapActionPayload} (hsup : supportedPool s.keys = true)
    (hm : s.swapMethod = .sellExactTokensForSol) :
    readSwaps (emittedIxs (sell tx p s).1) = (emitted tx p (.swap s)).map some := by
  have hkeys : userKeys tx s = ⟨tx.sniperTokenAta, tx.sniperWsolAta, tx.sniper⟩ := by
    rw [userKeys_supported hsup, hm]
  simp only [emitted, asked, resolvedAmountIn, hm, sell]
  by_cases hpos : 0 < tokenAmount p s.amountIn
  · have hpos' : 0 < (tokenAmount p s.amountIn).toNat := hpos
    rw [if_pos hpos, if_pos hpos', emittedIxs, readSwaps_append, readSwaps_created, hkeys]
    show [readSwap _] = _
    rw [readSwap_make]
    rfl
  · have hpos' : ¬ 0 < (tokenAmount p s.amountIn).toNat := hpos
    rw [if_neg hpos, if_neg hpos']
    rfl

/-- **THE SWAPS OF A STEP**: a sale is asked with the bound of its payload, a purchase with
    none. -/
theorem step_swaps (hf : FeeOK tx) (hp : FeeShown tx p) {s : SolanaActionPayload}
    {e : Option Emission} {w : Bool} (h : stepResult tx p s = .ok (e, w)) :
    readSwaps (emittedIxs e) = (emitted tx p s).map some := by
  generalize hr : (e, w) = r at h
  obtain rfl : r.1 = e := (congrArg Prod.fst hr).symm
  cases stepResult_cases h with
  | sol ha => exact readSwaps_transfer (Stepped.sol ha)
  | token ha => exact readSwaps_transfer (Stepped.token ha)
  | bought hsup hm hbuy => exact readSwaps_buy hf hp hsup hm hbuy
  | sold hsup hm => exact readSwaps_sell hsup hm

/-- They are those asked for if the bound is kept, and else as many. -/
theorem emitted_iff (tx : TxContext) (p : Pointers) (s : SolanaActionPayload) :
    (emitted tx p s).length = (swapOf tx p s).length ∧
      (emitted tx p s = swapOf tx p s ↔ BoundKept tx p s) := by
  cases s with
  | transfer t => exact ⟨rfl, iff_of_true rfl trivial⟩
  | swap s =>
      cases hm : s.swapMethod with
      | buyTokensForExactSol =>
          simp only [emitted, swapOf, BoundKept, asked, resolvedAmountIn, hm]
          split
          · next hpos =>
              refine ⟨rfl, ?_⟩
              rw [List.cons.injEq, SwapOrder.mk.injEq, eq_comm (a := (0 : UInt64))]
              exact ⟨fun h _ _ => h.1.2.1, fun h => ⟨⟨rfl, h trivial hpos, rfl, rfl⟩, rfl⟩⟩
          · next hzero => exact ⟨rfl, iff_of_true rfl fun _ hpos => absurd hpos hzero⟩
      | sellExactTokensForSol =>
          simp only [emitted, swapOf, BoundKept, asked, resolvedAmountIn, hm]
          exact ⟨trivial, iff_of_true trivial nofun⟩

-- ── The loop ────────────────────────────────────────────────────────────────

theorem round_of_processStep {p' : Pointers} {s : SolanaActionPayload} {out : List Instruction}
    (h : processStep tx p s = .ok (p', out)) : round tx p s = some (p', out) := by
  show (processStep tx p s).toOption = _
  rw [h]
  rfl

theorem loop_swaps_iff (hf : FeeOK tx) (steps : List SolanaActionPayload) :
    ∀ {p p' : Pointers} {out : List Instruction}, FeeShown tx p →
      processSteps tx p steps = .ok (p', out) →
      (readSwaps out = (swapsOf tx p steps).map some ↔
        Along (round tx) (BoundKept tx) p steps) := by
  induction steps with
  | nil =>
      intro p p' out hp h
      obtain ⟨-, rfl⟩ := Prod.mk.inj (Except.ok.inj h)
      exact iff_of_true rfl trivial
  | cons s ss ih =>
      intro p p'' out hp h
      obtain ⟨p', ixs, rest, hstep, hrest, rfl⟩ := processSteps_cons h
      have hround := round_of_processStep hstep
      obtain ⟨e, w, hres, rfl⟩ := processStep_emitted hstep
      obtain ⟨hlength, hkept⟩ := emitted_iff tx p s
      have hfirst := step_swaps hf hp hres
      rw [readSwaps_append, hfirst, swapsOf, hround, List.map_append, Along, ← hkept,
        hround]
      constructor
      · intro heq
        obtain ⟨hhead, htail⟩ := List.append_inj heq (by simp only [List.length_map, hlength])
        refine ⟨List.map_injective_iff.mpr (Option.some_injective _) hhead, ?_⟩
        rintro q out ⟨⟩
        exact (ih (hp.processStep hf hstep) hrest).mp htail
      · rintro ⟨hhead, htail⟩
        rw [hhead, (ih (hp.processStep hf hstep) hrest).mpr (htail p' _ rfl)]

-- ── The payload ─────────────────────────────────────────────────────────────

/-- The instructions that are built, read back, are the swaps that the steps ask for. -/
def SwapsAsAsked (chain : Chain) (action : SolanaAction) (price : UInt64) (cu : UInt32)
    (b : Built) : Prop :=
  readSwaps b.actionIxs = (swapsOf (txContext chain action price cu)
    (txContext chain action price cu).start action.actionPayload).map some

instance {chain : Chain} {action : SolanaAction} {price : UInt64} {cu : UInt32} {b : Built} :
    Decidable (SwapsAsAsked chain action price cu b) := inferInstanceAs (Decidable (_ = _))

/-- No purchase that swaps something sets a bound, with the pointers as the loop moves
    them. -/
def BoundsKept (chain : Chain) (action : SolanaAction) (price : UInt64) (cu : UInt32) : Prop :=
  Along (round (txContext chain action price cu)) (BoundKept (txContext chain action price cu))
    (txContext chain action price cu).start action.actionPayload

/-- **THE SWAPS ARE THOSE ASKED FOR**, with their amounts, bounds and accounts, if and only if
    no purchase that swaps something sets a bound. -/
theorem swaps_as_asked_iff {chain : Chain} {action : SolanaAction} {price : UInt64}
    {cu : UInt32} {b : Built} (hb : buildInstructions chain action price cu = .ok b) :
    SwapsAsAsked chain action price cu b ↔ BoundsKept chain action price cu := by
  obtain ⟨p, -, hfee, hloop, -⟩ := buildInstructions_ok hb
  have hshown : FeeShown (txContext chain action price cu)
      (txContext chain action price cu).start := ⟨Or.inr ⟨rfl, rfl⟩, Nat.le_refl _⟩
  exact loop_swaps_iff (feeOK_txContext hfee) action.actionPayload hshown hloop

/-- A pool of the token `5`. -/
def poolKeys : LiquidityPoolKeys :=
  RaydiumPool.toLiquidityKeys { baseMint := ⟨5⟩, quoteMint := wsolMintPubkey, version := 4 }

/-- Buy for a thousand lamports, for no less than `bound` tokens, and sell all tokens for no
    less than seven lamports. -/
def buyAndSell (bound : UInt64) : SolanaAction :=
  SolanaAction.new ⟨1⟩ 0 ⟨⟨1⟩, 1⟩
    [.swap ⟨poolKeys, .buyTokensForExactSol, .exact 1000, bound⟩,
      .swap ⟨poolKeys, .sellExactTokensForSol, .max, 7⟩]

/-- Without a bound on the purchase, both are as asked. -/
theorem unbounded_purchase_as_asked :
    ∃ b, buildInstructions sampleChain (buyAndSell 0) 0 0 = .ok b ∧
      SwapsAsAsked sampleChain (buyAndSell 0) 0 0 b := by
  obtain ⟨b, hb⟩ : ∃ b, buildInstructions sampleChain (buyAndSell 0) 0 0 = .ok b := ⟨_, rfl⟩
  have hkept : BoundsKept sampleChain (buyAndSell 0) 0 0 :=
    ⟨fun _ _ => rfl, fun _ _ _ => ⟨nofun, fun _ _ _ => trivial⟩⟩
  exact ⟨b, hb, (swaps_as_asked_iff hb).mpr hkept⟩

/-- **THE BOUND IS DROPPED**: a purchase for no less than five tokens is sent without it. -/
theorem bound_of_purchase_is_dropped :
    ¬ ∀ (chain : Chain) (action : SolanaAction) (price : UInt64) (cu : UInt32) (b : Built),
      buildInstructions chain action price cu = .ok b →
      SwapsAsAsked chain action price cu b := by
  intro hclaim
  have h := hclaim sampleChain (buyAndSell 5) 0 0 _ rfl
  exact absurd h (by decide +kernel)

end FoxfireSwapData
