import Mathlib.Data.List.Forall2
import FoxfireSniper.ParserPanicProofs
import FoxfireSniper.ReceiptProofs

/-! # Whose inner transfers make a swap

    `parse_tx_for_swaps` reads, for every Raydium instruction of the message, ALL groups of
    two inner instructions of the transaction, whichever instruction they belong to; the
    last write of each variable wins.

    A group of inner instructions has the index of its instruction.  The parser never reads
    it, so the groups with their indices stand beside the transaction here
    (`SuccessfulLegacy`).

    * **`foldGroups_eq`**: the loops are their last writes.
    * **`attributed_iff`**: one swap for each swap instruction, read from its own group,
      exactly when the own group has the last word and nothing else in the message
      interferes. -/

namespace FoxfireParser

open FoxfireTypes FoxfireFeed FoxfireCollector

-- ── Last writes ─────────────────────────────────────────────────────────────

inductive Side where
  | base
  | quote
  deriving DecidableEq, Repr

/-- The amount of the last transfer on a side. -/
def lastOn (s : Side) (transfers : List (Side × UInt64)) : Option UInt64 :=
  ((transfers.filter (·.1 = s)).getLast?).map (·.2)

theorem lastOn_append (s : Side) (xs ys : List (Side × UInt64)) :
    lastOn s (xs ++ ys) = (lastOn s ys).or (lastOn s xs) := by
  rw [lastOn, List.filter_append, List.getLast?_append, Option.map_or]
  rfl

/-- The variables after a direction and some transfers have been written. -/
def Amounts.after (acc : Amounts) (direction : Option TradeDirection)
    (transfers : List (Side × UInt64)) : Amounts where
  quoteAmount := (lastOn .quote transfers).getD acc.quoteAmount
  baseAmount := (lastOn .base transfers).getD acc.baseAmount
  tradeDirection := direction.getD acc.tradeDirection

/-- Writing twice. -/
theorem Amounts.after_after (acc : Amounts) (d d' : Option TradeDirection)
    (xs ys : List (Side × UInt64)) :
    (acc.after d xs).after d' ys = acc.after (d'.or d) (xs ++ ys) := by
  simp only [Amounts.after, lastOn_append, Option.getD_or]

-- ── What a clean group writes ───────────────────────────────────────────────

/-- The amount of a token transfer, and whether Raydium is its authority. -/
def transferOf (crates : Crates) (ix : UiPartiallyDecodedInstruction) : Option (Bool × UInt64) :=
  match ix.data with
  | none      => none
  | some data =>
      if ix.programId = tokenProgramId ∧ data.head? = some 3 then
        match crates.unpack data with
        | some (.transfer amount) =>
            some (ix.accounts.getD 2 default = raydiumV4Authority, amount)
        | _                       => none
      else none

/-- The side that a transfer is taken for. -/
def sideOf (direction : TradeDirection) (byRaydium : Bool) : Side :=
  match direction with
  | .buy  => if byRaydium then .base else .quote
  | .sell => if byRaydium then .quote else .base

def transfersOf (crates : Crates) (direction : TradeDirection)
    (ixs : List UiPartiallyDecodedInstruction) : List (Side × UInt64) :=
  ixs.filterMap fun ix => (transferOf crates ix).map fun t => (sideOf direction t.1, t.2)

/-- The direction that a group decides; only groups of two decide. -/
def directionIn (solAta : Pubkey) (txAccounts : List Pubkey) (group : List UiInstruction) :
    Option TradeDirection :=
  if group.length = 2 then
    (group.filterMap (resolve txAccounts)).getLast?.map (tradeOf solAta)
  else none

/-- The transfers of a group; only groups of two are looked at. -/
def transfersIn (crates : Crates) (solAta : Pubkey) (txAccounts : List Pubkey)
    (group : List UiInstruction) : List (Side × UInt64) :=
  if group.length = 2 then
    transfersOf crates ((directionIn solAta txAccounts group).getD .buy)
      (group.filterMap (resolve txAccounts))
  else []

theorem readTransfer_eq {crates : Crates} {ix : UiPartiallyDecodedInstruction}
    (h : transferFlaw crates ix = none) (acc : Amounts) :
    readTransfer crates acc ix =
      .ok (acc.after none (transfersOf crates acc.tradeDirection [ix])) := by
  rw [transferFlaw] at h
  rw [readTransfer, transfersOf, List.filterMap_cons, transferOf]
  cases hdata : ix.data with
  | none => rw [hdata] at h; cases h
  | some data =>
      rw [hdata] at h
      show (if ix.programId = tokenProgramId ∧ data.head? = some 3 then _ else _) = _
      dsimp only at h ⊢
      by_cases ht : ix.programId = tokenProgramId ∧ data.head? = some 3
      · rw [if_pos ht] at h
        rw [if_pos ht, if_pos ht]
        cases hu : crates.unpack data with
        | none => rw [hu] at h; cases h
        | some t =>
            cases t with
            | other => rw [hu] at h; cases h
            | transfer amount =>
                rw [hu] at h
                dsimp only at h
                have hlen : 2 < ix.accounts.length := by
                  by_contra hno
                  rw [if_neg hno] at h
                  cases h
                show (index ix.accounts 0 >>= fun _ => index ix.accounts 1 >>= fun _ =>
                  index ix.accounts 2 >>= fun authority => _) = _
                rw [index_of_lt (Nat.lt_trans (by decide) hlen),
                  index_of_lt (Nat.lt_trans (by decide) hlen), index_of_lt hlen]
                simp only [ok_bind]
                obtain ⟨quote, base, direction⟩ := acc
                by_cases ha : ix.accounts.getD 2 default = raydiumV4Authority
                · rw [if_pos ha, decide_eq_true ha]
                  cases direction <;> rfl
                · rw [if_neg ha, decide_eq_false ha]
                  cases direction <;> rfl
      · rw [if_neg ht, if_neg ht]
        rfl

/-- The second inner loop. -/
theorem foldTransfers_eq {crates : Crates} :
    ∀ (ixs : List UiPartiallyDecodedInstruction) (acc : Amounts),
      ixs.findSome? (transferFlaw crates) = none →
      ixs.foldlM (readTransfer crates) acc =
        .ok (acc.after none (transfersOf crates acc.tradeDirection ixs)) := by
  intro ixs
  induction ixs with
  | nil => intro acc _; rfl
  | cons ix ixs ih =>
      intro acc h
      rw [List.findSome?_cons] at h
      cases hix : transferFlaw crates ix with
      | some s => rw [hix] at h; cases h
      | none =>
          rw [hix] at h
          rw [List.foldlM_cons, readTransfer_eq hix, ok_bind, ih _ h, Amounts.after_after]
          have happend : transfersOf crates acc.tradeDirection (ix :: ixs) =
              transfersOf crates acc.tradeDirection [ix] ++
                transfersOf crates acc.tradeDirection ixs :=
            @List.filterMap_append _ _ [ix] ixs _
          rw [happend]
          rfl

/-- **A CLEAN GROUP IS WHAT IT WRITES.** -/
theorem readInner_eq {crates : Crates} {txAccounts : List Pubkey} {group : List UiInstruction}
    (h : groupFlaw crates txAccounts group = none) (solAta : Pubkey) (acc : Amounts) :
    readInner crates solAta txAccounts acc group =
      .ok (acc.after (directionIn solAta txAccounts group)
        (transfersIn crates solAta txAccounts group)) := by
  rw [readInner, transfersIn, directionIn]
  rw [groupFlaw] at h
  by_cases h2 : group.length = 2
  · rw [if_pos h2] at h
    rw [if_pos h2, if_pos h2, if_pos h2, decodeInner_eq]
    cases hall : group.all (located txAccounts) with
    | false => rw [hall] at h; cases h
    | true =>
        rw [hall, if_pos rfl] at h
        rw [if_pos rfl, ok_bind]
        dsimp only
        rw [foldTransfers_eq _ _ h]
        cases hlast : (group.filterMap (resolve txAccounts)).getLast? with
        | none =>
            rw [List.getLast?_eq_none_iff.mp hlast]
            rfl
        | some last => rfl
  · rw [if_neg h2, if_neg h2, if_neg h2]
    rfl

/-- The direction of the last group that decides one. -/
def lastDirection (solAta : Pubkey) (txAccounts : List Pubkey)
    (groups : List (List UiInstruction)) : Option TradeDirection :=
  (groups.filterMap (directionIn solAta txAccounts)).getLast?

/-- **THE LOOPS ARE THEIR LAST WRITES.** -/
theorem foldGroups_eq {crates : Crates} {txAccounts : List Pubkey} (solAta : Pubkey) :
    ∀ (groups : List (List UiInstruction)) (acc : Amounts),
      (∀ g ∈ groups, groupFlaw crates txAccounts g = none) →
      groups.foldlM (readInner crates solAta txAccounts) acc =
        .ok (acc.after (lastDirection solAta txAccounts groups)
          (groups.flatMap (transfersIn crates solAta txAccounts))) := by
  intro groups
  induction groups with
  | nil => intro acc _; rfl
  | cons g groups ih =>
      intro acc h
      rw [List.foldlM_cons, readInner_eq (h g List.mem_cons_self), ok_bind,
        ih _ (fun g' hg' => h g' (List.mem_cons_of_mem g hg')), Amounts.after_after,
        List.flatMap_cons, lastDirection, lastDirection, List.filterMap_cons]
      cases directionIn solAta txAccounts g with
      | none => rw [Option.or_none]
      | some d =>
          rw [List.getLast?_cons]
          cases (groups.filterMap (directionIn solAta txAccounts)).getLast? with
          | none => rfl
          | some d' => rfl

-- ── One swap for each swap instruction ──────────────────────────────────────

/-- The account whose balance the proceeds of a sale go to. -/
def solAtaOf (crates : Crates) (ix : UiPartiallyDecodedInstruction) : Pubkey :=
  crates.getAssociatedTokenAddress (ix.accounts.getD (ix.accounts.length - 1) default)
    wsolMintPubkey

/-- What the parser makes of a Raydium instruction of a clean transaction. -/
def swapRead (crates : Crates) (signature : Signature) (txAccounts : List Pubkey)
    (groups : List (List UiInstruction)) (ix : UiPartiallyDecodedInstruction) : Swap :=
  let amounts := ({} : Amounts).after (lastDirection (solAtaOf crates ix) txAccounts groups)
    (groups.flatMap (transfersIn crates (solAtaOf crates ix) txAccounts))
  { signature
    poolId := ix.accounts.getD 1 default
    quoteAmount := amounts.quoteAmount
    baseAmount := amounts.baseAmount
    tradeDirection := amounts.tradeDirection }

theorem parseSwap_eq {crates : Crates} {m : UiTransactionStatusMeta}
    {txAccounts : List Pubkey} {groups : List (List UiInstruction)}
    {ix : UiPartiallyDecodedInstruction} (herr : m.err = none)
    (hinner : m.innerInstructions = some groups)
    (hclean : ∀ g ∈ groups, groupFlaw crates txAccounts g = none)
    (hlen : 2 ≤ ix.accounts.length) (signature : Signature) :
    parseSwap crates signature (some m) txAccounts ix =
      .ok (swapRead crates signature txAccounts groups ix) := by
  have hlast : ix.accounts.length - 1 < ix.accounts.length :=
    Nat.sub_lt (Nat.lt_of_lt_of_le Nat.two_pos hlen) Nat.one_pos
  rw [parseSwap, index_of_lt hlast, ok_bind]
  dsimp only
  rw [herr, hinner, if_neg (fun h => (by cases h))]
  show groups.foldlM (readInner crates (solAtaOf crates ix) txAccounts) {} >>= _ = _
  rw [foldGroups_eq _ _ _ hclean, ok_bind, index_of_lt hlen]
  rfl

/-- The Raydium instructions of a message, with their indices. -/
def raydiumInstructions (message : UiParsedMessage) :
    List (UiPartiallyDecodedInstruction × Nat) :=
  message.instructions.zipIdx.filterMap fun p => (raydiumInstruction p.1).map (·, p.2)

/-- The first byte of the data of `swap_base_in`. -/
def swapBaseInTag : UInt8 := 9

/-- The first byte of the data of `swap_base_out`. -/
def swapBaseOutTag : UInt8 := 11

/-- A swap, among the instructions of the Raydium program. -/
def isSwap (ix : UiPartiallyDecodedInstruction) : Bool :=
  ix.data.bind List.head? == some swapBaseInTag || ix.data.bind List.head? == some swapBaseOutTag

/-- The swap instructions of a message, with their indices. -/
def swapInstructions (message : UiParsedMessage) : List (UiPartiallyDecodedInstruction × Nat) :=
  (raydiumInstructions message).filter fun p => isSwap p.1

/-- `UiInnerInstructions`, with the index of the instruction that made them. -/
structure UiInnerInstructions where
  index        : UInt8
  instructions : List UiInstruction
  deriving DecidableEq, Repr

/-- The inner instructions of the instruction with this index. -/
def ownGroup (groups : List UiInnerInstructions) (n : Nat) : Option UiInnerInstructions :=
  groups.find? fun g => g.index.toNat = n

/-- A successful legacy transaction with its inner instructions. -/
structure SuccessfulLegacy (tx : EncodedTransactionWithStatusMeta) (signature : Signature)
    (message : UiParsedMessage) (groups : List UiInnerInstructions) : Prop where
  decoded : ∃ signatures,
    tx.decoded = some ⟨signature :: signatures, .legacy (.parsed message)⟩
  status  : ∃ m, tx.statusMeta = some m ∧ m.err = none ∧
    m.innerInstructions = some (groups.map (·.instructions))

/-- The swap of an instruction: its amounts and its direction are what its own two inner
    instructions say. -/
structure SwapOf (crates : Crates) (signature : Signature) (txAccounts : List Pubkey)
    (groups : List UiInnerInstructions) (p : UiPartiallyDecodedInstruction × Nat)
    (swap : Swap) : Prop where
  signature : swap.signature = signature
  pool      : p.1.accounts[1]? = some swap.poolId
  amounts   : ∃ own, ownGroup groups p.2 = some own ∧ own.instructions.length = 2 ∧
    readInner crates (solAtaOf crates p.1) txAccounts {} own.instructions =
      .ok ⟨swap.quoteAmount, swap.baseAmount, swap.tradeDirection⟩

/-- A group has the last word: the last group of two is on its side of the trade, and the
    last transfer of each side, among all groups of two, is for its amount. -/
structure Prevails (crates : Crates) (solAta : Pubkey) (txAccounts : List Pubkey)
    (groups : List UiInnerInstructions) (own : UiInnerInstructions) : Prop where
  direction : (lastDirection solAta txAccounts (groups.map (·.instructions))).getD .buy =
    (directionIn solAta txAccounts own.instructions).getD .buy
  amounts   : ∀ s : Side,
    (lastOn s ((groups.map (·.instructions)).flatMap
        (transfersIn crates solAta txAccounts))).getD 0 =
      (lastOn s (transfersIn crates solAta txAccounts own.instructions)).getD 0

/-- What makes the parser find the swaps as they are. -/
structure Attributable (crates : Crates) (message : UiParsedMessage)
    (groups : List UiInnerInstructions) : Prop where
  /-- The encoder knows no instruction of the message. -/
  shown : ∀ i ∈ message.instructions, ∃ ix, i = .parsed (.partiallyDecoded ix)
  /-- Raydium is only asked to swap. -/
  swaps : ∀ p ∈ raydiumInstructions message, isSwap p.1 = true ∧ 2 ≤ p.1.accounts.length
  /-- The groups of two can be read. -/
  clean : raydiumInstructions message ≠ [] →
    ∀ g ∈ groups, groupFlaw crates message.accountKeys g.instructions = none
  /-- The own group of each swap has the last word. -/
  own   : ∀ p ∈ swapInstructions message, ∃ own, ownGroup groups p.2 = some own ∧
    own.instructions.length = 2 ∧
    Prevails crates (solAtaOf crates p.1) message.accountKeys groups own

-- ── The parser on a clean transaction ───────────────────────────────────────

theorem Stops.flaw_none {α : Type} {flaw : Option Stop} {x : Flow α} {a : α}
    (h : Stops flaw x) (hx : x = .ok a) : flaw = none := by
  cases flaw with
  | none => rfl
  | some s =>
      obtain rfl : x = .error s := h
      cases hx

theorem swapFlaw_eq_none {status : Option Stop} {ix : UiPartiallyDecodedInstruction} :
    swapFlaw status ix = none ↔ status = none ∧ 2 ≤ ix.accounts.length := by
  rw [swapFlaw]
  by_cases hlen : 2 ≤ ix.accounts.length
  · have hsome : ¬ ix.accounts.isEmpty = true := by
      intro h
      rw [List.isEmpty_iff.mp h] at hlen
      exact absurd hlen (by decide)
    rw [if_neg hsome, if_pos (Nat.lt_of_succ_le hlen), Option.or_none]
    exact ⟨fun h => ⟨h, hlen⟩, fun h => h.1⟩
  · rw [if_neg (mt Nat.succ_le_of_lt hlen)]
    refine ⟨fun h => ?_, fun h => absurd h.2 hlen⟩
    split at h
    · cases h
    · cases status with
      | none => cases h
      | some s => cases h

/-- The instructions without their indices. -/
theorem raydiumInstructions_fst (message : UiParsedMessage) :
    (raydiumInstructions message).map (·.1) =
      message.instructions.filterMap raydiumInstruction := by
  rw [raydiumInstructions, List.map_filterMap]
  have hone : ∀ n, (message.instructions.zipIdx n).filterMap
      (fun p => ((raydiumInstruction p.1).map (·, p.2)).map (·.1)) =
        message.instructions.filterMap raydiumInstruction := by
    induction message.instructions with
    | nil => intro n; rfl
    | cons i is ih =>
        intro n
        rw [List.zipIdx_cons, List.filterMap_cons, List.filterMap_cons, ih]
        cases raydiumInstruction i with
        | none => rfl
        | some ix => rfl
  exact hone 0

/-- The loop over the message, when nothing stops it. -/
theorem parseSwaps_eq {crates : Crates} {statusMeta : Option UiTransactionStatusMeta}
    {txAccounts : List Pubkey} {signature : Signature}
    (read : UiPartiallyDecodedInstruction → Swap) :
    ∀ instructions : List UiInstruction,
      (∀ i ∈ instructions, ∃ ix, i = .parsed (.partiallyDecoded ix)) →
      (∀ ix ∈ instructions.filterMap raydiumInstruction,
        parseSwap crates signature statusMeta txAccounts ix = .ok (read ix)) →
      parseSwaps crates signature statusMeta txAccounts instructions =
        .ok ((instructions.filterMap raydiumInstruction).map read) := by
  intro instructions
  induction instructions with
  | nil => intro _ _; rfl
  | cons i rest ih =>
      intro hshown hread
      obtain ⟨ix, rfl⟩ := hshown i List.mem_cons_self
      have hshown' : ∀ i ∈ rest, ∃ ix, i = .parsed (.partiallyDecoded ix) :=
        fun i hi => hshown i (List.mem_cons_of_mem _ hi)
      rw [parseSwaps]
      by_cases hp : ix.programId = raydiumV4ProgramId
      · have hcons : (UiInstruction.parsed (.partiallyDecoded ix) :: rest).filterMap
            raydiumInstruction = ix :: rest.filterMap raydiumInstruction := by
          rw [List.filterMap_cons, raydiumInstruction, if_pos hp]
        rw [hcons] at hread ⊢
        rw [if_pos hp, hread ix List.mem_cons_self, ok_bind,
          ih hshown' (fun ix hix => hread ix (List.mem_cons_of_mem _ hix))]
        rfl
      · have hcons : (UiInstruction.parsed (.partiallyDecoded ix) :: rest).filterMap
            raydiumInstruction = rest.filterMap raydiumInstruction := by
          rw [List.filterMap_cons, raydiumInstruction, if_neg hp]
        rw [hcons] at hread ⊢
        rw [if_neg hp]
        exact ih hshown' hread

/-- Nothing has stopped the loop. -/
theorem clean_of_ok {crates : Crates} {statusMeta : Option UiTransactionStatusMeta}
    {txAccounts : List Pubkey} {signature : Signature} {instructions : List UiInstruction}
    {swaps : List Swap}
    (h : parseSwaps crates signature statusMeta txAccounts instructions = .ok swaps) :
    (∀ i ∈ instructions, ∃ ix, i = .parsed (.partiallyDecoded ix)) ∧
    (∀ ix ∈ instructions.filterMap raydiumInstruction,
      statusFlaw crates statusMeta txAccounts = none ∧ 2 ≤ ix.accounts.length) := by
  have hnone := (parseSwaps_flaw crates signature statusMeta txAccounts instructions).flaw_none h
  rw [List.findSome?_eq_none_iff] at hnone
  constructor
  · intro i hi
    have hflaw := hnone i hi
    cases i with
    | compiled c => cases hflaw
    | parsed p =>
        cases p with
        | parsed => cases hflaw
        | partiallyDecoded ix => exact ⟨ix, rfl⟩
  · intro ix hix
    obtain ⟨i, hi, hray⟩ := List.mem_filterMap.mp hix
    have hflaw := hnone i hi
    cases i with
    | compiled c => cases hray
    | parsed p =>
        cases p with
        | parsed => cases hray
        | partiallyDecoded ix' =>
            rw [raydiumInstruction] at hray
            rw [instructionFlaw] at hflaw
            by_cases hp : ix'.programId = raydiumV4ProgramId
            · rw [if_pos hp] at hray hflaw
              obtain rfl := Option.some.inj hray
              exact swapFlaw_eq_none.mp hflaw
            · rw [if_neg hp] at hray
              cases hray

-- ── Attribution ─────────────────────────────────────────────────────────────

theorem ownGroup_mem {groups : List UiInnerInstructions} {n : Nat} {own : UiInnerInstructions}
    (h : ownGroup groups n = some own) : own ∈ groups :=
  List.mem_of_find?_eq_some h

/-- What is read for an instruction is its own swap when its group has the last word. -/
theorem swapOf_iff {crates : Crates} {signature : Signature} {txAccounts : List Pubkey}
    {groups : List UiInnerInstructions} {p : UiPartiallyDecodedInstruction × Nat}
    (hlen : 2 ≤ p.1.accounts.length)
    (hclean : ∀ g ∈ groups, groupFlaw crates txAccounts g.instructions = none) :
    SwapOf crates signature txAccounts groups p
        (swapRead crates signature txAccounts (groups.map (·.instructions)) p.1) ↔
      ∃ own, ownGroup groups p.2 = some own ∧ own.instructions.length = 2 ∧
        Prevails crates (solAtaOf crates p.1) txAccounts groups own := by
  constructor
  · intro hswap
    obtain ⟨own, hown, h2, hread⟩ := hswap.amounts
    rw [readInner_eq (hclean own (ownGroup_mem hown))] at hread
    obtain ⟨hquote, hbase, hdirection⟩ := Amounts.mk.inj (Except.ok.inj hread)
    refine ⟨own, hown, h2, hdirection.symm, ?_⟩
    intro s
    cases s with
    | base => exact hbase.symm
    | quote => exact hquote.symm
  · rintro ⟨own, hown, h2, hprevails⟩
    refine ⟨rfl, ?_, own, hown, h2, ?_⟩
    · show p.1.accounts[1]? = some (p.1.accounts.getD 1 default)
      rw [List.getD_eq_getElem?_getD, List.getElem?_eq_getElem hlen]
      rfl
    · rw [readInner_eq (hclean own (ownGroup_mem hown))]
      refine congrArg Except.ok (Amounts.mk.injEq .. |>.mpr ⟨?_, ?_, ?_⟩)
      · exact (hprevails.amounts .quote).symm
      · exact (hprevails.amounts .base).symm
      · exact hprevails.direction.symm

/-- **THE SWAPS ARE FOUND AS THEY ARE EXACTLY WHEN THE OWN GROUPS HAVE THE LAST WORD**: no
    instruction of the message is known to the encoder, Raydium is only asked to swap, the
    groups of two can be read, and none of them overrides the one that belongs to a swap. -/
theorem attributed_iff {crates : Crates} {tx : EncodedTransactionWithStatusMeta}
    {signature : Signature} {message : UiParsedMessage} {groups : List UiInnerInstructions}
    (h : SuccessfulLegacy tx signature message groups) :
    (∃ swaps, parseTxForSwaps crates tx = .ok swaps ∧
      List.Forall₂ (SwapOf crates signature message.accountKeys groups)
        (swapInstructions message) swaps) ↔
    Attributable crates message groups := by
  obtain ⟨signatures, hdecoded⟩ := h.decoded
  obtain ⟨m, hm, herr, hinner⟩ := h.status
  have hparse : parseTxForSwaps crates tx = parseSwaps crates signature (some m)
      message.accountKeys message.instructions := by
    rw [parseTxForSwaps, hdecoded, hm]
    rfl
  have hstatus : statusFlaw crates (some m) message.accountKeys = none ↔
      ∀ g ∈ groups, groupFlaw crates message.accountKeys g.instructions = none := by
    rw [statusFlaw, herr, hinner]
    show (groups.map (·.instructions)).findSome? _ = none ↔ _
    rw [List.findSome?_eq_none_iff, List.forall_mem_map]
  -- the result, when nothing stops the loop
  have hresult : (∀ i ∈ message.instructions, ∃ ix, i = .parsed (.partiallyDecoded ix)) →
      (∀ p ∈ raydiumInstructions message, 2 ≤ p.1.accounts.length ∧
        ∀ g ∈ groups, groupFlaw crates message.accountKeys g.instructions = none) →
      parseTxForSwaps crates tx = .ok ((raydiumInstructions message).map fun p =>
        swapRead crates signature message.accountKeys (groups.map (·.instructions)) p.1) := by
    intro hshown hclean
    rw [hparse, parseSwaps_eq
      (swapRead crates signature message.accountKeys (groups.map (·.instructions)))
      message.instructions hshown, ← raydiumInstructions_fst, List.map_map]
    · rfl
    · intro ix hix
      rw [← raydiumInstructions_fst] at hix
      obtain ⟨p, hp, rfl⟩ := List.mem_map.mp hix
      obtain ⟨hlen, hgroups⟩ := hclean p hp
      exact parseSwap_eq herr hinner (List.forall_mem_map.mpr hgroups) hlen signature
  constructor
  · rintro ⟨swaps, hok, hall⟩
    obtain ⟨hshown, hclean⟩ := clean_of_ok (hparse.symm.trans hok)
    have hread : ∀ p ∈ raydiumInstructions message, 2 ≤ p.1.accounts.length ∧
        ∀ g ∈ groups, groupFlaw crates message.accountKeys g.instructions = none := by
      intro p hp
      have hmem : p.1 ∈ message.instructions.filterMap raydiumInstruction := by
        rw [← raydiumInstructions_fst]
        exact List.mem_map_of_mem hp
      exact ⟨(hclean p.1 hmem).2, hstatus.mp (hclean p.1 hmem).1⟩
    obtain rfl := Except.ok.inj ((hresult hshown hread).symm.trans hok)
    -- as many swaps are returned as there are Raydium instructions
    have hswaps : ∀ p ∈ raydiumInstructions message, isSwap p.1 = true := by
      refine List.length_filter_eq_length_iff.mp ?_
      exact hall.length_eq.trans (List.length_map ..)
    have hsame : swapInstructions message = raydiumInstructions message :=
      List.filter_eq_self.mpr hswaps
    refine ⟨hshown, fun p hp => ⟨hswaps p hp, (hread p hp).1⟩, ?_, ?_⟩
    · intro hne
      obtain ⟨p, hp⟩ := List.exists_mem_of_ne_nil _ hne
      exact (hread p hp).2
    · intro p hp
      rw [hsame] at hall hp
      rw [List.forall₂_map_right_iff, List.forall₂_same] at hall
      exact (swapOf_iff (hread p hp).1 (hread p hp).2).mp (hall p hp)
  · intro hattr
    have hread : ∀ p ∈ raydiumInstructions message, 2 ≤ p.1.accounts.length ∧
        ∀ g ∈ groups, groupFlaw crates message.accountKeys g.instructions = none :=
      fun p hp => ⟨(hattr.swaps p hp).2, hattr.clean (List.ne_nil_of_mem hp)⟩
    have hsame : swapInstructions message = raydiumInstructions message :=
      List.filter_eq_self.mpr fun p hp => (hattr.swaps p hp).1
    refine ⟨_, hresult hattr.shown hread, ?_⟩
    rw [hsame, List.forall₂_map_right_iff, List.forall₂_same]
    intro p hp
    exact (swapOf_iff (hread p hp).1 (hread p hp).2).mpr (hattr.own p (hsame ▸ hp))

-- ── One swap, and two ───────────────────────────────────────────────────────

/-- A swap of the sample pool by the sample user, who signs it with the last account. -/
def sampleSwapIx : UiPartiallyDecodedInstruction where
  programId := raydiumV4ProgramId
  accounts := [tokenProgramId, sampleKey 4, raydiumV4Authority] ++
    (List.range 13).map (fun n => sampleKey (20 + n)) ++ [sampleKey 1]
  data := some (swapBaseInTag :: List.replicate 16 0)

/-- This many swaps. -/
def sampleMessage (count : Nat) : UiParsedMessage where
  accountKeys := [sampleKey 1, sampleKey 2, sampleKey 3, sampleKey 5, sampleKey 6,
    raydiumV4Authority, tokenProgramId]
  instructions := List.replicate count (.parsed (.partiallyDecoded sampleSwapIx))

/-- The inner transfers of a buy. -/
def buyGroup (index : UInt8) (quoteAmount baseAmount : UInt8) : UiInnerInstructions where
  index := index
  instructions := [transferIx 1 3 0 quoteAmount, transferIx 4 2 5 baseAmount]

def swapsTx (count : Nat) (groups : List UiInnerInstructions) :
    EncodedTransactionWithStatusMeta where
  decoded := some ⟨[default], .legacy (.parsed (sampleMessage count))⟩
  statusMeta := some { innerInstructions := some (groups.map (·.instructions)) }

theorem swapsTx_successful (count : Nat) (groups : List UiInnerInstructions) :
    SuccessfulLegacy (swapsTx count groups) default (sampleMessage count) groups :=
  ⟨⟨[], rfl⟩, _, rfl, rfl, rfl⟩

/-- A single buy is found as it is. -/
theorem single_buy_attributed :
    ∃ swaps, parseTxForSwaps sampleCrates (swapsTx 1 [buyGroup 0 2 5]) = .ok swaps ∧
      List.Forall₂ (SwapOf sampleCrates default (sampleMessage 1).accountKeys [buyGroup 0 2 5])
        (swapInstructions (sampleMessage 1)) swaps := by
  refine (attributed_iff (swapsTx_successful 1 [buyGroup 0 2 5])).mpr ⟨?_, ?_, ?_, ?_⟩
  · intro i hi
    obtain rfl := List.mem_singleton.mp hi
    exact ⟨_, rfl⟩
  · decide +kernel
  · intro _ g hg
    obtain rfl := List.mem_singleton.mp hg
    decide +kernel
  · intro p hp
    obtain rfl := List.mem_singleton.mp hp
    refine ⟨buyGroup 0 2 5, rfl, rfl, by decide +kernel, ?_⟩
    intro s
    cases s <;> decide +kernel

/-- **THE LAST OF TWO SWAPS MAKES BOTH**: the first buy, of 5 units for 2 lamports, is
    taken for a buy of 9 units for 4 lamports. -/
theorem two_buys_confused :
    ¬ ∀ (crates : Crates) (tx : EncodedTransactionWithStatusMeta) (signature : Signature)
      (message : UiParsedMessage) (groups : List UiInnerInstructions),
      SuccessfulLegacy tx signature message groups →
      ∃ swaps, parseTxForSwaps crates tx = .ok swaps ∧
        List.Forall₂ (SwapOf crates signature message.accountKeys groups)
          (swapInstructions message) swaps := by
  intro hclaim
  obtain ⟨swaps, hok, hall⟩ := hclaim sampleCrates
    (swapsTx 2 [buyGroup 0 2 5, buyGroup 1 4 9]) default (sampleMessage 2)
    [buyGroup 0 2 5, buyGroup 1 4 9] (swapsTx_successful 2 _)
  have hparse : parseTxForSwaps sampleCrates (swapsTx 2 [buyGroup 0 2 5, buyGroup 1 4 9]) =
      .ok [⟨default, sampleKey 4, 4, 9, .buy⟩, ⟨default, sampleKey 4, 4, 9, .buy⟩] := by
    decide +kernel
  obtain rfl := Except.ok.inj (hparse.symm.trans hok)
  have hinstructions : swapInstructions (sampleMessage 2) =
      [(sampleSwapIx, 0), (sampleSwapIx, 1)] := by decide +kernel
  rw [hinstructions] at hall
  obtain ⟨own, hown, -, hread⟩ := (List.forall₂_cons.mp hall).1.amounts
  obtain rfl : buyGroup 0 2 5 = own := Option.some.inj hown
  have hfirst : readInner sampleCrates (solAtaOf sampleCrates sampleSwapIx)
      (sampleMessage 2).accountKeys {} (buyGroup 0 2 5).instructions = .ok ⟨2, 5, .buy⟩ := by
    decide +kernel
  have hamounts := Except.ok.inj (hfirst.symm.trans hread)
  exact absurd (congrArg Amounts.quoteAmount hamounts) (by decide)

end FoxfireParser
