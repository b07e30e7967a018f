import FoxfireSniper.NewPoolProofs

/-! # When a transaction makes the parsers panic

    `parse_tx_for_swaps` and `extract_pool_from_init_tx` read account lists by fixed
    indices and unwrap what they compute from them.  The parsers also return `None` at many
    places, and a `None` that comes first saves them from a panic that would come later, so
    the condition follows their order.

    A FLAW is what stops a parser at some part of a transaction, read off the shape of that
    part: `transferFlaw` of one inner instruction, `groupFlaw` of a group, `statusFlaw` of
    the status metadata, `swapFlaw` of a Raydium instruction.  A part without a flaw is
    passed.  `foldlM_flaw` is the rule for a loop: it stops at its first flaw.

    * **`parseSwaps_flaw`**: the swap parser stops exactly with the first flaw.
    * **`panic_free_iff`**: no panic, exactly when the parts that are read have the accounts
      and amounts that the parsers take for granted. -/

namespace FoxfireParser

open FoxfireTypes FoxfireFeed

-- ── Loops that stop at their first flaw ─────────────────────────────────────

/-- The outcome of a program is told by its flaw: it stops with it, or goes through. -/
def Stops {α : Type} (flaw : Option Stop) (x : Flow α) : Prop :=
  match flaw with
  | some s => x = .error s
  | none   => ∃ a, x = .ok a

theorem stops_panicked_iff {α : Type} {flaw : Option Stop} {x : Flow α} (h : Stops flaw x) :
    x ≠ .error .panicked ↔ flaw ≠ some .panicked := by
  cases flaw with
  | none =>
      obtain ⟨a, rfl⟩ := h
      constructor
      · intro _ h
        cases h
      · intro _ h
        cases h
  | some s =>
      obtain rfl : x = .error s := h
      rw [ne_eq, ne_eq, Except.error.injEq, Option.some.injEq]

/-- A sequence stops where its first part stops, else where its second does. -/
theorem Stops.bind {α β : Type} {first second : Option Stop} {x : Flow α} {f : α → Flow β}
    (hx : Stops first x) (hf : ∀ a, Stops second (f a)) : Stops (first.or second) (x >>= f) := by
  cases first with
  | none =>
      obtain ⟨a, rfl⟩ := hx
      exact hf a
  | some s =>
      obtain rfl : x = .error s := hx
      exact rfl

/-- **A LOOP STOPS AT ITS FIRST FLAW**, if the flaw of an element does not depend on what
    the loop has gathered. -/
theorem foldlM_flaw {α β : Type} {f : β → α → Flow β} {flaw : α → Option Stop}
    (h : ∀ b a, Stops (flaw a) (f b a)) :
    ∀ (xs : List α) (b : β), Stops (xs.findSome? flaw) (xs.foldlM f b) := by
  intro xs
  induction xs with
  | nil => intro b; exact ⟨b, rfl⟩
  | cons x xs ih =>
      intro b
      rw [List.findSome?_cons, List.foldlM_cons]
      have hbind := (h b x).bind (fun b' => ih b')
      cases hx : flaw x with
      | none =>
          rw [hx] at hbind
          exact hbind
      | some s =>
          rw [hx] at hbind
          exact hbind

-- ── Flaws of a transaction ──────────────────────────────────────────────────

/-- An inner instruction with its accounts looked up; `none` if that panics. -/
def resolve (txAccounts : List Pubkey) : UiInstruction → Option UiPartiallyDecodedInstruction
  | .compiled c =>
      if c.programIdIndex.toNat < txAccounts.length ∧
          c.accounts.all fun i => i.toNat < txAccounts.length then
        some {
          programId := txAccounts.getD c.programIdIndex.toNat default
          accounts := c.accounts.map fun i => txAccounts.getD i.toNat default
          data := c.data }
      else none
  | .parsed (.partiallyDecoded ix) => some ix
  | .parsed .parsed                 => none

/-- It has a destination account. -/
def located (txAccounts : List Pubkey) (i : UiInstruction) : Bool :=
  (resolve txAccounts i).any fun ix => 2 ≤ ix.accounts.length

/-- An inner instruction whose data cannot be read returns `None`; a token transfer
    without an authority account panics. -/
def transferFlaw (crates : Crates) (ix : UiPartiallyDecodedInstruction) : Option Stop :=
  match ix.data with
  | none      => some .returnedNone
  | some data =>
      if ix.programId = tokenProgramId ∧ data.head? = some 3 then
        match crates.unpack data with
        | some (.transfer _) => if 2 < ix.accounts.length then none else some .panicked
        | _                  => some .returnedNone
      else none

/-- Only groups of two are looked at: both instructions are located, then each is read. -/
def groupFlaw (crates : Crates) (txAccounts : List Pubkey) (group : List UiInstruction) :
    Option Stop :=
  if group.length = 2 then
    if group.all (located txAccounts) then
      (group.filterMap (resolve txAccounts)).findSome? (transferFlaw crates)
    else some .panicked
  else none

/-- What the status metadata stops a Raydium instruction with: a failed transaction and
    missing inner instructions return `None`, else it is the first flaw of a group. -/
def statusFlaw (crates : Crates) (statusMeta : Option UiTransactionStatusMeta)
    (txAccounts : List Pubkey) : Option Stop :=
  match statusMeta with
  | none   => none
  | some m =>
      if m.err.isSome then some .returnedNone
      else m.innerInstructions.elim (some .returnedNone) fun groups =>
        groups.findSome? (groupFlaw crates txAccounts)

/-- The last account is read before the status, the second after it. -/
def swapFlaw (status : Option Stop) (ix : UiPartiallyDecodedInstruction) : Option Stop :=
  if ix.accounts.isEmpty then some .panicked
  else status.or (if 1 < ix.accounts.length then none else some .panicked)

/-- The flaw of an instruction of the message. -/
def instructionFlaw (status : Option Stop) : UiInstruction → Option Stop
  | .parsed (.partiallyDecoded ix) =>
      if ix.programId = raydiumV4ProgramId then swapFlaw status ix else none
  | _ => some .returnedNone

-- ── The parser stops with the first flaw ────────────────────────────────────

theorem stops_lookup (txAccounts : List Pubkey) (indices : List UInt8) :
    (indices.mapM fun i => index txAccounts i.toNat) =
      if indices.all fun i => i.toNat < txAccounts.length
      then .ok (indices.map fun i => txAccounts.getD i.toNat default)
      else .error .panicked := by
  induction indices with
  | nil => rfl
  | cons i is ih =>
      rw [List.mapM_cons, ih, List.all_cons]
      by_cases hi : i.toNat < txAccounts.length
      · rw [index_of_lt hi, ok_bind, decide_eq_true hi, Bool.true_and]
        cases is.all fun j => j.toNat < txAccounts.length <;> rfl
      · rw [index_of_le (Nat.le_of_not_lt hi), decide_eq_false hi, Bool.false_and]
        rfl

/-- Looking up the accounts of an inner instruction. -/
theorem parseUiInstruction_eq (txAccounts : List Pubkey) (i : UiInstruction) :
    parseUiInstruction i txAccounts =
      (resolve txAccounts i).elim (.error .panicked) fun ix => .ok (.partiallyDecoded ix) := by
  cases i with
  | parsed p =>
      cases p with
      | parsed => rfl
      | partiallyDecoded ix => rfl
  | compiled c =>
      rw [parseUiInstruction, parseUiCompiledInstruction, stops_lookup, resolve]
      by_cases hp : c.programIdIndex.toNat < txAccounts.length
      · rw [index_of_lt hp, ok_bind]
        by_cases ha : c.accounts.all fun i => i.toNat < txAccounts.length
        · rw [if_pos ha, if_pos ⟨hp, ha⟩]
          rfl
        · have hno : ¬ (c.programIdIndex.toNat < txAccounts.length ∧
              c.accounts.all fun i => i.toNat < txAccounts.length) := fun h => ha h.2
          rw [if_neg ha, if_neg hno]
          rfl
      · have hno : ¬ (c.programIdIndex.toNat < txAccounts.length ∧
            c.accounts.all fun i => i.toNat < txAccounts.length) := fun h => hp h.1
        rw [index_of_le (Nat.le_of_not_lt hp), if_neg hno]
        rfl

/-- The side on which an instruction with these accounts trades. -/
def tradeOf (solAta : Pubkey) (ix : UiPartiallyDecodedInstruction) : TradeDirection :=
  if ix.accounts.getD 1 default = solAta then .sell else .buy

/-- The first inner loop decodes all instructions, the last of which decides the direction,
    or panics. -/
theorem decodeInner_eq (solAta : Pubkey) (txAccounts : List Pubkey) :
    ∀ (is : List UiInstruction) (direction : TradeDirection),
      decodeInner solAta txAccounts direction is =
        if is.all (located txAccounts) then
          .ok (is.filterMap (resolve txAccounts),
            ((is.filterMap (resolve txAccounts)).getLast?.map (tradeOf solAta)).getD direction)
        else .error .panicked := by
  intro is
  induction is with
  | nil => intro direction; rfl
  | cons i is ih =>
      intro direction
      rw [decodeInner, parseUiInstruction_eq, List.all_cons, located]
      cases hr : resolve txAccounts i with
      | none => exact rfl
      | some ix =>
          rw [Option.any_some, Option.elim_some, ok_bind]
          by_cases hlen : 2 ≤ ix.accounts.length
          · dsimp only
            rw [index_of_lt hlen, ok_bind, decide_eq_true hlen, Bool.true_and, ih,
              List.filterMap_cons, hr]
            cases is.all (located txAccounts) with
            | false => exact rfl
            | true =>
                rw [if_pos rfl, if_pos rfl, List.getLast?_cons]
                cases (is.filterMap (resolve txAccounts)).getLast? with
                | none => exact rfl
                | some last => exact rfl
          · dsimp only
            rw [index_of_le (Nat.le_of_lt_succ (Nat.lt_of_not_le hlen)),
              decide_eq_false hlen, Bool.false_and]
            exact rfl

/-- Three accounts are read. -/
theorem readThree_flaw {α : Type} (xs : List Pubkey) (f : Pubkey → Flow α)
    (hf : ∀ authority, ∃ a, f authority = .ok a) :
    Stops (if 2 < xs.length then none else some .panicked)
      (do
        let _source ← index xs 0
        let _destination ← index xs 1
        let authority ← index xs 2
        f authority) := by
  by_cases h2 : 2 < xs.length
  · rw [if_pos h2, index_of_lt h2, index_of_lt (Nat.lt_trans (by decide) h2),
      index_of_lt (Nat.lt_trans (by decide) h2)]
    exact hf _
  · rw [if_neg h2, index_of_le (Nat.le_of_not_lt h2)]
    rcases Nat.lt_or_ge 0 xs.length with h0 | h0
    · rw [index_of_lt h0]
      rcases Nat.lt_or_ge 1 xs.length with h1 | h1
      · rw [index_of_lt h1]
        exact rfl
      · rw [index_of_le h1]
        exact rfl
    · rw [index_of_le h0]
      exact rfl

/-- Reading one inner instruction. -/
theorem readTransfer_flaw (crates : Crates) (acc : Amounts) (ix : UiPartiallyDecodedInstruction) :
    Stops (transferFlaw crates ix) (readTransfer crates acc ix) := by
  rw [transferFlaw, readTransfer]
  cases ix.data with
  | none => exact rfl
  | some data =>
      show Stops _ (if ix.programId = tokenProgramId ∧ data.head? = some 3 then _ else _)
      by_cases ht : ix.programId = tokenProgramId ∧ data.head? = some 3
      · dsimp only
        rw [if_pos ht, if_pos ht]
        cases crates.unpack data with
        | none => exact rfl
        | some t =>
            cases t with
            | other => exact rfl
            | transfer amount =>
                refine readThree_flaw ix.accounts _ ?_
                intro authority
                split
                · split <;> exact ⟨_, rfl⟩
                · split <;> exact ⟨_, rfl⟩
      · dsimp only
        rw [if_neg ht, if_neg ht]
        exact ⟨acc, rfl⟩

/-- Reading one group. -/
theorem readInner_flaw (crates : Crates) (solAta : Pubkey) (txAccounts : List Pubkey)
    (acc : Amounts) (group : List UiInstruction) :
    Stops (groupFlaw crates txAccounts group) (readInner crates solAta txAccounts acc group) := by
  rw [groupFlaw, readInner]
  by_cases h2 : group.length = 2
  · rw [if_pos h2, if_pos h2]
    rw [decodeInner_eq]
    cases group.all (located txAccounts) with
    | true => exact foldlM_flaw (readTransfer_flaw crates) _ _
    | false => exact rfl
  · rw [if_neg h2, if_neg h2]
    exact ⟨acc, rfl⟩

/-- The swap of one Raydium instruction. -/
theorem parseSwap_flaw (crates : Crates) (signature : Signature)
    (statusMeta : Option UiTransactionStatusMeta) (txAccounts : List Pubkey)
    (ix : UiPartiallyDecodedInstruction) :
    Stops (swapFlaw (statusFlaw crates statusMeta txAccounts) ix)
      (parseSwap crates signature statusMeta txAccounts ix) := by
  rw [swapFlaw, parseSwap]
  cases hacc : ix.accounts.isEmpty with
  | true =>
      rw [List.isEmpty_iff.mp hacc]
      exact rfl
  | false =>
      have hpos : 0 < ix.accounts.length := List.length_pos_iff.mpr (by simpa using hacc)
      rw [if_neg Bool.false_ne_true, index_of_lt (Nat.sub_lt hpos Nat.one_pos), ok_bind]
      -- what is left once the amounts are known
      have hrest : ∀ amounts : Amounts,
          Stops (if 1 < ix.accounts.length then none else some .panicked)
            (index ix.accounts 1 >>= fun poolId => (pure {
              signature, poolId, quoteAmount := amounts.quoteAmount
              baseAmount := amounts.baseAmount
              tradeDirection := amounts.tradeDirection } : Flow Swap)) := by
        intro amounts
        by_cases h1 : 1 < ix.accounts.length
        · rw [if_pos h1, index_of_lt h1]
          exact ⟨_, rfl⟩
        · rw [if_neg h1, index_of_le (Nat.le_of_not_lt h1)]
          exact rfl
      cases statusMeta with
      | none => exact hrest {}
      | some m =>
          dsimp only [statusFlaw]
          by_cases herr : m.err.isSome = true
          · rw [if_pos herr, if_pos herr]
            exact rfl
          · rw [if_neg herr, if_neg herr]
            cases m.innerInstructions with
            | none => exact rfl
            | some groups =>
                exact (foldlM_flaw (readInner_flaw crates _ txAccounts) groups {}).bind hrest

/-- The loop over the message. -/
theorem parseSwaps_flaw (crates : Crates) (signature : Signature)
    (statusMeta : Option UiTransactionStatusMeta) (txAccounts : List Pubkey) :
    ∀ instructions : List UiInstruction,
      Stops (instructions.findSome? (instructionFlaw (statusFlaw crates statusMeta txAccounts)))
        (parseSwaps crates signature statusMeta txAccounts instructions) := by
  intro instructions
  induction instructions with
  | nil => exact ⟨[], rfl⟩
  | cons i rest ih =>
      rw [List.findSome?_cons]
      cases i with
      | compiled c => exact rfl
      | parsed p =>
          cases p with
          | parsed => exact rfl
          | partiallyDecoded ix =>
              rw [parseSwaps, instructionFlaw]
              by_cases hp : ix.programId = raydiumV4ProgramId
              · rw [if_pos hp, if_pos hp]
                have hswap := parseSwap_flaw crates signature statusMeta txAccounts ix
                cases hf : swapFlaw (statusFlaw crates statusMeta txAccounts) ix with
                | some s =>
                    rw [hf] at hswap
                    rw [show parseSwap crates signature statusMeta txAccounts ix = .error s
                      from hswap]
                    exact rfl
                | none =>
                    rw [hf] at hswap
                    obtain ⟨swap, heq⟩ := hswap
                    rw [heq, ok_bind]
                    have hpure : ∀ swaps : List Swap,
                        Stops none (pure (swap :: swaps) : Flow (List Swap)) :=
                      fun swaps => ⟨swap :: swaps, rfl⟩
                    have hrest := ih.bind hpure
                    rw [Option.or_none] at hrest
                    exact hrest
              · rw [if_neg hp, if_neg hp]
                exact ih

-- ── No panic ────────────────────────────────────────────────────────────────

/-- The Raydium instructions before the first instruction that the encoder knows. -/
def raydiumReached : List UiInstruction → List UiPartiallyDecodedInstruction
  | .parsed (.partiallyDecoded ix) :: rest =>
      if ix.programId = raydiumV4ProgramId then ix :: raydiumReached rest else raydiumReached rest
  | _ => []

/-- Only the Raydium instructions that are reached can make the loop panic. -/
theorem reached_panic_iff (status : Option Stop) (instructions : List UiInstruction) :
    instructions.findSome? (instructionFlaw status) = some .panicked ↔
      (raydiumReached instructions).findSome? (swapFlaw status) = some .panicked := by
  induction instructions with
  | nil => rfl
  | cons i rest ih =>
      rw [List.findSome?_cons]
      cases i with
      | compiled c => exact ⟨fun h => (by cases h), fun h => (by cases h)⟩
      | parsed p =>
          cases p with
          | parsed => exact ⟨fun h => (by cases h), fun h => (by cases h)⟩
          | partiallyDecoded ix =>
              rw [instructionFlaw, raydiumReached]
              by_cases hp : ix.programId = raydiumV4ProgramId
              · rw [if_pos hp, if_pos hp, List.findSome?_cons]
                cases swapFlaw status ix with
                | none => exact ih
                | some s => rfl
              · rw [if_neg hp, if_neg hp]
                exact ih

/-- With a clean status every instruction is read to its second account. -/
theorem clean_status_iff (instructions : List UiInstruction) :
    instructions.findSome? (instructionFlaw none) ≠ some .panicked ↔
      ∀ ix ∈ raydiumReached instructions, 2 ≤ ix.accounts.length := by
  rw [ne_eq, reached_panic_iff]
  have hflaw : ∀ ix : UiPartiallyDecodedInstruction,
      swapFlaw none ix = if 2 ≤ ix.accounts.length then none else some .panicked := by
    intro ix
    rw [swapFlaw, Option.none_or]
    cases ix.accounts with
    | nil => rfl
    | cons a as => rfl
  induction raydiumReached instructions with
  | nil => exact ⟨fun _ ix h => (by cases h), fun _ h => (by cases h)⟩
  | cons ix rest ih =>
      rw [List.findSome?_cons, hflaw, List.forall_mem_cons]
      by_cases hlen : 2 ≤ ix.accounts.length
      · rw [if_pos hlen]
        exact ih.trans ⟨fun h => ⟨hlen, h⟩, fun h => h.2⟩
      · rw [if_neg hlen]
        exact ⟨fun h => absurd rfl h, fun h => absurd h.1 hlen⟩

/-- With another status nothing is read after the first Raydium instruction. -/
theorem flawed_status_iff (s : Stop) (instructions : List UiInstruction) :
    instructions.findSome? (instructionFlaw (some s)) ≠ some .panicked ↔
      ∀ ix ∈ (raydiumReached instructions).head?, ix.accounts ≠ [] ∧ s ≠ .panicked := by
  rw [ne_eq, reached_panic_iff]
  cases raydiumReached instructions with
  | nil => exact ⟨fun _ ix h => (by cases h), fun _ h => (by cases h)⟩
  | cons ix rest =>
      rw [List.findSome?_cons, List.head?_cons, swapFlaw, Option.some_or]
      cases hacc : ix.accounts with
      | nil => simp [hacc]
      | cons a as => simp [hacc]

/-- What saves the swap parser from a panic. -/
structure SwapsGuarded (crates : Crates) (versionedTx : VersionedTransaction)
    (statusMeta : Option UiTransactionStatusMeta) : Prop where
  /-- The transaction is signed. -/
  signed : versionedTx.signatures ≠ []
  /-- The first Raydium instruction has an account, and the inner instructions are sound as
      far as they are read. -/
  first  : ∀ message, versionedTx.message = .legacy (.parsed message) →
    ∀ ix ∈ (raydiumReached message.instructions).head?, ix.accounts ≠ [] ∧
      statusFlaw crates statusMeta message.accountKeys ≠ some .panicked
  /-- If they are read to the end, every Raydium instruction has two accounts. -/
  all    : ∀ message, versionedTx.message = .legacy (.parsed message) →
    statusFlaw crates statusMeta message.accountKeys = none →
    ∀ ix ∈ raydiumReached message.instructions, 2 ≤ ix.accounts.length

/-- What saves the search for new pools: a deployment has twelve accounts, and seventeen
    accounts and a convertible reserve if the balance of its base mint is there. -/
def PoolGuarded (crates : Crates) (update : SubscribeUpdateTransaction)
    (txPretty : TransactionPretty) : Prop :=
  ∀ d, findDeployment crates update txPretty = some d →
    12 ≤ d.instruction.accounts.length ∧ ∀ b, d.balance = some b →
      Convertible d.tokenReserve b.decimals ∧ 17 ≤ d.instruction.accounts.length

/-- **`parse_tx_for_swaps` DOES NOT PANIC EXACTLY WHEN IT IS GUARDED.** -/
theorem parseTxForSwaps_panic_iff (crates : Crates) {tx : EncodedTransactionWithStatusMeta}
    {versionedTx : VersionedTransaction} (hd : tx.decoded = some versionedTx) :
    parseTxForSwaps crates tx ≠ .error .panicked ↔
      SwapsGuarded crates versionedTx tx.statusMeta := by
  obtain ⟨signatures, message⟩ := versionedTx
  rw [parseTxForSwaps, hd]
  cases signatures with
  | nil => exact ⟨fun h => absurd rfl h, fun h => absurd rfl h.signed⟩
  | cons signature signatures =>
      have hsigned : signature :: signatures ≠ [] := List.cons_ne_nil _ _
      cases message with
      | v0 encoded =>
          exact ⟨fun _ => ⟨hsigned, fun m h => (by cases h), fun m h => (by cases h)⟩,
            fun _ h => (by cases h)⟩
      | legacy encoded =>
          cases encoded with
          | raw =>
              exact ⟨fun _ => ⟨hsigned, fun m h => (by cases h), fun m h => (by cases h)⟩,
                fun _ h => (by cases h)⟩
          | parsed message =>
              show parseSwaps crates signature tx.statusMeta message.accountKeys
                message.instructions ≠ _ ↔ _
              rw [stops_panicked_iff (parseSwaps_flaw crates signature tx.statusMeta _ _)]
              cases hstatus : statusFlaw crates tx.statusMeta message.accountKeys with
              | none =>
                  rw [clean_status_iff]
                  constructor
                  · intro hall
                    refine ⟨hsigned, ?_, ?_⟩
                    · rintro m ⟨⟩ ix hix
                      refine ⟨?_, by rw [hstatus]; exact fun h => (by cases h)⟩
                      exact List.ne_nil_of_length_pos
                        (Nat.lt_of_lt_of_le Nat.two_pos (hall ix (List.mem_of_mem_head? hix)))
                    · rintro m ⟨⟩ -
                      exact hall
                  · intro hg
                    exact hg.all message rfl hstatus
              | some s =>
                  rw [flawed_status_iff]
                  constructor
                  · intro hall
                    refine ⟨hsigned, ?_, ?_⟩
                    · rintro m ⟨⟩ ix hix
                      obtain ⟨hacc, hs⟩ := hall ix hix
                      exact ⟨hacc, fun h => hs (Option.some.inj (hstatus.symm.trans h))⟩
                    · rintro m ⟨⟩ hnone
                      rw [hstatus] at hnone
                      cases hnone
                  · intro hg ix hix
                    obtain ⟨hacc, hflaw⟩ := hg.first message rfl ix hix
                    rw [hstatus, ne_eq, Option.some.injEq] at hflaw
                    exact ⟨hacc, hflaw⟩

/-- **`extract_pool_from_init_tx` DOES NOT PANIC EXACTLY WHEN IT IS GUARDED.** -/
theorem extractPool_panic_iff (crates : Crates) (now : Instant)
    {update : SubscribeUpdateTransaction} {txPretty : TransactionPretty}
    (hp : TransactionPretty.ofUpdate update = some txPretty) :
    extractPoolFromInitTx crates now update ≠ .error .panicked ↔
      PoolGuarded crates update txPretty := by
  rw [extract_eq, hp]
  show orNone (findDeployment crates update txPretty) >>= readPool now ≠ _ ↔ _
  cases hd : findDeployment crates update txPretty with
  | none =>
      refine ⟨fun _ d h => ?_, fun _ h => (by cases h)⟩
      rw [hd] at h
      cases h
  | some d =>
      show readPool now d ≠ _ ↔ _
      have honly : PoolGuarded crates update txPretty ↔
          12 ≤ d.instruction.accounts.length ∧ ∀ b, d.balance = some b →
            Convertible d.tokenReserve b.decimals ∧ 17 ≤ d.instruction.accounts.length := by
        constructor
        · intro hg
          exact hg d hd
        · intro hg d' hd'
          obtain rfl := Option.some.inj (hd.symm.trans hd')
          exact hg
      rw [honly, readPool_eq]
      by_cases hshort : d.instruction.accounts.length < 12
      · rw [if_pos hshort]
        exact ⟨fun h => absurd rfl h, fun h => absurd h.1 (Nat.not_le_of_lt hshort)⟩
      · rw [if_neg hshort]
        have hlong := Nat.le_of_not_lt hshort
        cases d.balance with
        | none => exact ⟨fun _ => ⟨hlong, fun b h => (by cases h)⟩, fun _ h => (by cases h)⟩
        | some b =>
            rw [Option.elim_some]
            by_cases hb : Convertible d.tokenReserve b.decimals ∧
                17 ≤ d.instruction.accounts.length
            · rw [if_pos hb]
              refine ⟨fun _ => ⟨hlong, fun b' h => ?_⟩, fun _ h => (by cases h)⟩
              obtain rfl := Option.some.inj h
              exact hb
            · rw [if_neg hb]
              exact ⟨fun h => absurd rfl h, fun h => absurd (h.2 b rfl) hb⟩

/-- **NO PANIC EXACTLY WHEN BOTH PARSERS ARE GUARDED.** -/
theorem panic_free_iff (crates : Crates) (now : Instant) {update : SubscribeUpdateTransaction}
    {txPretty : TransactionPretty} {versionedTx : VersionedTransaction}
    (hp : TransactionPretty.ofUpdate update = some txPretty)
    (hd : txPretty.tx.decoded = some versionedTx) :
    (parseTxForSwaps crates txPretty.tx ≠ .error .panicked ∧
      extractPoolFromInitTx crates now update ≠ .error .panicked) ↔
    (SwapsGuarded crates versionedTx txPretty.tx.statusMeta ∧
      PoolGuarded crates update txPretty) :=
  and_congr (parseTxForSwaps_panic_iff crates hd) (extractPool_panic_iff crates now hp)

/-- The deployment of a token against WSOL is guarded. -/
theorem deployment_guarded :
    ∃ txPretty versionedTx,
      TransactionPretty.ofUpdate (deploymentTx none initialize2Tag ⟨7⟩ wsolMintPubkey) =
        some txPretty ∧
      SwapsGuarded plainCrates versionedTx txPretty.tx.statusMeta ∧
      PoolGuarded plainCrates (deploymentTx none initialize2Tag ⟨7⟩ wsolMintPubkey) txPretty := by
  have hview : viewMints (extractPoolFromInitTx plainCrates 0
      (deploymentTx none initialize2Tag ⟨7⟩ wsolMintPubkey)) = some (⟨7⟩, wsolMintPubkey) := by
    decide +kernel
  refine ⟨_, _, rfl, (panic_free_iff plainCrates 0 rfl rfl).mp ⟨?_, ?_⟩⟩
  · intro h
    cases h
  · intro h
    rw [h] at hview
    cases hview

/-- A transaction with one Raydium instruction that has no accounts. -/
def emptyAccountsTx : SubscribeUpdateTransaction where
  transaction := some {
    signature := List.replicate 64 0
    isVote := false
    metaIsOk := true
    encoded := some {
      decoded := some {
        signatures := [default]
        message := .legacy (.parsed {
          accountKeys := []
          instructions := [.parsed (.partiallyDecoded {
            programId := raydiumV4ProgramId
            accounts := []
            data := some [9] })] }) }
      statusMeta := some { err := some ⟨1⟩, statusIsOk := false } } }

/-- **A FAILED TRANSACTION KILLS THE COLLECTOR**: the last of no accounts is read before
    the status. -/
theorem empty_accounts_panic :
    ¬ ∀ (crates : Crates) (now : Instant) (update : SubscribeUpdateTransaction)
      (txPretty : TransactionPretty) (versionedTx : VersionedTransaction),
      TransactionPretty.ofUpdate update = some txPretty →
      txPretty.tx.decoded = some versionedTx →
      parseTxForSwaps crates txPretty.tx ≠ .error .panicked ∧
        extractPoolFromInitTx crates now update ≠ .error .panicked := by
  intro hclaim
  exact (hclaim plainCrates 0 emptyAccountsTx _ _ rfl rfl).1 rfl

end FoxfireParser
