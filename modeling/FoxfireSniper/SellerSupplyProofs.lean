import FoxfireSniper.DirichletProofs
import FoxfireSniper.FundingProofs

/-! # Do the sellers get all the tokens?

    `transfer_token_to_sellers` creates the sellers, splits the main wallet's tokens among
    as many as are configured, and looks the `k`-th agent up for the `k`-th amount.  A
    creation that fails leaves no agent: `create_agents` drops it, and the look-up of the
    last amount is out of range.

    * `commanded`: the transfers that the call comes to, before the main wallet handles them
      (`transferTokenToSellers_eq`).
    * **`supplied_in_full_iff`**: they add up to the balance exactly if no creation fails and
      the split is exact; of these, the main wallet queues those to six sellers, which are
      all of the balance exactly if the split leaves nothing for others. -/

namespace FoxfireFunding

open FoxfireTypes FoxfireAttempt FoxfireAgent FoxfireDirichlet RoundedShares MachineRun

-- ── The call ────────────────────────────────────────────────────────────────

/-- What a call meets: the outcome of each creation, in the order in which they complete,
    and the sampled proportions. -/
structure Supply where
  outcomes : List (Option Keypair)
  sample   : List ℚ

/-- `create_agents` keeps the agents that were created. -/
def Supply.input (u : Supply) (x : TrancheInput) : TrancheInput :=
  { x with
    created := fun _ => u.outcomes.filterMap id
    dirichlet := fun alpha n => (getDirichletDistributedAmount u.sample alpha n).amounts }

/-- It is for this number of sellers, an `i32`: `0..number_of_agents` has as many elements,
    and as many proportions are sampled, if there are any. -/
structure Supply.For (u : Supply) (count : Int) : Prop where
  outcomes : u.outcomes.length = count.toNat
  sample   : asUsize count ≠ 0 → ∃ p : Proportions ℚ (asUsize count), p.parts = u.sample

/-- The transfers of `transfer_token_to_sellers`; `none` if an index is out of range. -/
def commanded (s : Strategy) (x : TrancheInput) : Option (List SolanaTransferActionPayload) :=
  if (x.created s.inst.agentsSellingInTranche).length < sellerCount s x then none
  else some ((newSellers s x).map fun p =>
    if eligible p.1 then sellerTransfers s.pool p.1.storage.pubkey p.2 else []).flatten

/-- The call hands them to the main wallet. -/
theorem transferTokenToSellers_eq (s : Strategy) (x : TrancheInput) :
    transferTokenToSellers s x = (commanded s x).bind fun transfers =>
      (handleBatches x s.mainWallet (chunks maxTransfersInOneTx transfers)).map fun r =>
        ({ s with
            mainWallet := r.1
            agents := (x.created s.inst.agentsSellingInTranche).map (s.newAgent x) }, r.2) := by
  rw [transferTokenToSellers, commanded, sellerCount]
  dsimp only
  rw [List.length_map]
  split
  · rfl
  · rfl

-- ── Tokens in transfers ─────────────────────────────────────────────────────

/-- The tokens of this mint that a transfer moves. -/
def tokenAmount (mint : Pubkey) : SolanaTransferActionPayload → Nat
  | ⟨.token m, _, .exact amount⟩ => if m = mint then amount.toNat else 0
  | _                            => 0

def tokensIn (mint : Pubkey) (transfers : List SolanaTransferActionPayload) : Nat :=
  (transfers.map (tokenAmount mint)).sum

/-- The tokens in the transfers of the actions queued. -/
def tokensQueued (mint : Pubkey) (out : List Effect) : Nat :=
  (((queuedActions out).map SolanaAction.actionPayload).flatten.map fun
    | .transfer t => tokenAmount mint t
    | .swap _     => 0).sum

/-- The call does not panic, and its transfers move the whole balance. -/
def SuppliesAll (s : Strategy) (x : TrancheInput) : Prop :=
  ∃ transfers, commanded s x = some transfers ∧
    tokensIn s.pool.baseMint transfers = x.tokenBalance.toNat

/-- Every creation succeeds, and the shares of all sellers but the first do not exceed the
    balance, or there is nothing to split if there are no sellers. -/
structure Suffices (u : Supply) (count : Int) (balance : UInt64) : Prop where
  count_nonneg : 0 ≤ count
  created      : ∀ o ∈ u.outcomes, o.isSome = true
  split        : if count = 0 then balance = 0
    else (shares balance.toNat u.sample.tail).sum ≤ balance.toNat

/-- The same, with shares that are nothing after the sixth seller.  When the first share wraps
    around, it is `2 ^ 64` too much. -/
structure SufficesSix (u : Supply) (count : Int) (balance : UInt64) : Prop where
  count_nonneg : 0 ≤ count
  created      : ∀ o ∈ u.outcomes, o.isSome = true
  split        : if count = 0 then balance = 0
    else ((shares balance.toNat u.sample.tail).drop 5).sum =
      if (shares balance.toNat u.sample.tail).sum ≤ balance.toNat then 0 else 2 ^ 64

theorem tokensIn_append (mint : Pubkey) (ts ts' : List SolanaTransferActionPayload) :
    tokensIn mint (ts ++ ts') = tokensIn mint ts + tokensIn mint ts' := by
  rw [tokensIn, List.map_append, List.sum_append]
  rfl

/-- Each seller is sent SOL, and its tokens. -/
theorem tokensIn_sellers (pool : RaydiumPool) (l : List (Agent × UInt64)) :
    tokensIn pool.baseMint ((l.map fun p =>
      sellerTransfers pool p.1.storage.pubkey p.2).flatten) = natSum (l.map Prod.snd) := by
  induction l with
  | nil => rfl
  | cons p l ih =>
      rw [List.map_cons, List.flatten_cons, tokensIn_append, ih, List.map_cons, natSum_cons]
      congr 1
      show 0 + ((if pool.baseMint = pool.baseMint then p.2.toNat else 0) + 0) = _
      rw [if_pos rfl, Nat.zero_add, Nat.add_zero]

theorem natSum_take_add_drop (l : List UInt64) (k : Nat) :
    natSum (l.take k) + natSum (l.drop k) = natSum l := by
  rw [natSum, natSum, natSum, List.map_take, List.map_drop, List.sum_take_add_sum_drop]

variable {s : Strategy} {x : TrancheInput} {u : Supply}

/-- The sellers are new, so nobody is left out. -/
theorem commanded_eq (s : Strategy) (x : TrancheInput) :
    commanded s x = if (x.created s.inst.agentsSellingInTranche).length < sellerCount s x then none
      else some ((newSellers s x).map fun p =>
        sellerTransfers s.pool p.1.storage.pubkey p.2).flatten := by
  have hmap : ((newSellers s x).map fun p =>
      if eligible p.1 then sellerTransfers s.pool p.1.storage.pubkey p.2 else [])
      = (newSellers s x).map fun p => sellerTransfers s.pool p.1.storage.pubkey p.2 := by
    refine List.map_congr_left ?_
    intro p hp
    rw [if_pos (newSellers_eligible hp)]
  rw [commanded, hmap]

-- ── The number of sellers ───────────────────────────────────────────────────

theorem asUsize_of_nonneg {count : Int} (h : 0 ≤ count) (h' : count < 2 ^ 31) :
    asUsize count = count.toNat := by
  rw [asUsize]
  omega

/-- A negative `i32` becomes a huge number. -/
theorem asUsize_of_neg {count : Int} (h : count < 0) (h' : -2 ^ 31 ≤ count) :
    0 < asUsize count := by
  rw [asUsize]
  omega

theorem asUsize_lt (count : Int) : asUsize count < 2 ^ 64 := by
  rw [asUsize]
  omega

/-- There is an amount for every configured seller. -/
theorem sellerCount_input (hu : u.For s.inst.agentsSellingInTranche) :
    sellerCount s (u.input x) = asUsize s.inst.agentsSellingInTranche := by
  show (getDirichletDistributedAmount u.sample x.tokenBalance
    (asUsize s.inst.agentsSellingInTranche)).amounts.length = _
  by_cases hzero : asUsize s.inst.agentsSellingInTranche = 0
  · rw [hzero]
    rfl
  · obtain ⟨p, hp⟩ := hu.sample hzero
    obtain ⟨first, rest, hamounts, hlength, -, -⟩ :=
      split_amounts x.tokenBalance (asUsize_lt _) p
    rw [← hp, hamounts, List.length_cons, hlength]

/-- There are no more agents than amounts, and as many if every creation succeeds. -/
theorem created_length (hu : u.For s.inst.agentsSellingInTranche) :
    (u.outcomes.filterMap id).length ≤ s.inst.agentsSellingInTranche.toNat ∧
      ((u.outcomes.filterMap id).length = s.inst.agentsSellingInTranche.toNat ↔
        ∀ o ∈ u.outcomes, o.isSome = true) := by
  rw [← hu.outcomes]
  exact ⟨List.length_filterMap_le _ _, List.filterMap_length_eq_length⟩

/-- **THE LOOK-UPS ARE IN RANGE** exactly if no creation fails. -/
theorem commanded_iff (hu : u.For s.inst.agentsSellingInTranche)
    (hlow : -2 ^ 31 ≤ s.inst.agentsSellingInTranche)
    (hhigh : s.inst.agentsSellingInTranche < 2 ^ 31) :
    (∃ transfers, commanded s (u.input x) = some transfers) ↔
      0 ≤ s.inst.agentsSellingInTranche ∧ ∀ o ∈ u.outcomes, o.isSome = true := by
  obtain ⟨hle, hall⟩ := created_length hu
  have hcreated : (u.input x).created s.inst.agentsSellingInTranche =
      u.outcomes.filterMap id := rfl
  rw [commanded_eq, hcreated, sellerCount_input hu]
  by_cases hneg : s.inst.agentsSellingInTranche < 0
  · have hpos := asUsize_of_neg hneg hlow
    rw [if_pos (by omega)]
    exact iff_of_false nofun fun h => absurd h.1 (by omega)
  · rw [asUsize_of_nonneg (by omega) hhigh]
    constructor
    · rintro ⟨transfers, h⟩
      refine ⟨by omega, hall.mp ?_⟩
      by_contra hne
      rw [if_pos (by omega)] at h
      cases h
    · rintro ⟨-, hsome⟩
      have heq := hall.mpr hsome
      rw [if_neg (by omega)]
      exact ⟨_, rfl⟩

/-- The transfers of a call that does not panic: two for each of the amounts. -/
theorem commanded_amounts {transfers : List SolanaTransferActionPayload}
    (h : commanded s (u.input x) = some transfers) :
    transfers = ((newSellers s (u.input x)).map fun p =>
        sellerTransfers s.pool p.1.storage.pubkey p.2).flatten ∧
      (newSellers s (u.input x)).map Prod.snd = (getDirichletDistributedAmount u.sample
        x.tokenBalance (asUsize s.inst.agentsSellingInTranche)).amounts := by
  rw [commanded_eq] at h
  split at h
  · cases h
  · next hlength =>
      refine ⟨(Option.some.inj h).symm, ?_⟩
      refine List.map_snd_zip ?_
      rw [List.length_map]
      exact Nat.not_lt.mp hlength

/-- With no sellers there are no amounts, and the balance must be nothing. -/
theorem amounts_iff {count : Int} (hnonneg : 0 ≤ count) (hhigh : count < 2 ^ 31)
    {sample : List ℚ} {balance : UInt64} {f : List UInt64 → List UInt64} {P : Prop}
    (hf : f [] = [])
    (hpos : asUsize count ≠ 0 → (natSum (f (getDirichletDistributedAmount sample balance
      (asUsize count)).amounts) = balance.toNat ↔ P)) :
    natSum (f (getDirichletDistributedAmount sample balance (asUsize count)).amounts) =
      balance.toNat ↔ if count = 0 then balance = 0 else P := by
  by_cases hzero : count = 0
  · have hnone : (getDirichletDistributedAmount sample balance (asUsize count)).amounts = [] := by
      rw [hzero]
      rfl
    rw [if_pos hzero, hnone, hf, ← UInt64.toNat_inj, UInt64.toNat_zero, eq_comm]
    rfl
  · rw [if_neg hzero]
    refine hpos ?_
    rw [asUsize_of_nonneg hnonneg hhigh]
    omega

/-- The amounts are the whole balance exactly if the first one does not wrap around. -/
theorem whole_split_iff (hu : u.For s.inst.agentsSellingInTranche) (balance : UInt64)
    (hzero : asUsize s.inst.agentsSellingInTranche ≠ 0) :
    natSum (getDirichletDistributedAmount u.sample balance
        (asUsize s.inst.agentsSellingInTranche)).amounts = balance.toNat ↔
      (shares balance.toNat u.sample.tail).sum ≤ balance.toNat := by
  obtain ⟨p, hp⟩ := hu.sample hzero
  obtain ⟨first, rest, hamounts, -, hshares, hsum⟩ :=
    split_amounts balance (asUsize_lt s.inst.agentsSellingInTranche) p
  rw [← hp, hamounts, hsum, natSum, hshares]
  split
  · next hle => exact iff_of_true (Nat.add_zero _) hle
  · next hgt => exact iff_of_false (by omega) hgt

/-- **THE CALL SUPPLIES ALL TOKENS** exactly if nothing fails and the split is exact. -/
theorem suppliesAll_iff (hu : u.For s.inst.agentsSellingInTranche)
    (hlow : -2 ^ 31 ≤ s.inst.agentsSellingInTranche)
    (hhigh : s.inst.agentsSellingInTranche < 2 ^ 31) :
    SuppliesAll s (u.input x) ↔ Suffices u s.inst.agentsSellingInTranche x.tokenBalance := by
  have hrange := commanded_iff (x := x) hu hlow hhigh
  have hsum := fun h : 0 ≤ s.inst.agentsSellingInTranche =>
    amounts_iff (f := id) h hhigh rfl fun hne =>
      whole_split_iff hu x.tokenBalance hne
  constructor
  · rintro ⟨transfers, hcommanded, htokens⟩
    obtain ⟨hnonneg, hcreated⟩ := hrange.mp ⟨transfers, hcommanded⟩
    obtain ⟨rfl, hamounts⟩ := commanded_amounts hcommanded
    rw [tokensIn_sellers, hamounts] at htokens
    exact ⟨hnonneg, hcreated, (hsum hnonneg).mp htokens⟩
  · rintro ⟨hnonneg, hcreated, hsplit⟩
    obtain ⟨transfers, hcommanded⟩ := hrange.mpr ⟨hnonneg, hcreated⟩
    obtain ⟨rfl, hamounts⟩ := commanded_amounts hcommanded
    refine ⟨_, hcommanded, ?_⟩
    rw [tokensIn_sellers, hamounts]
    exact (hsum hnonneg).mpr hsplit

-- ── What the main wallet queues ─────────────────────────────────────────────

/-- The call queues the whole balance. -/
def QueuesAll (s : Strategy) (x : TrancheInput) : Prop :=
  ∃ s' out, transferTokenToSellers s x = some (s', out) ∧
    tokensQueued s.pool.baseMint out = x.tokenBalance.toNat

/-- A main wallet that awaits a command queues the tokens of the first six sellers. -/
theorem queued_tokens (hs : s.mainWallet.state = .idle ∨ s.mainWallet.state = .success)
    {transfers : List SolanaTransferActionPayload}
    (h : commanded s (u.input x) = some transfers) :
    ∃ s' out, transferTokenToSellers s (u.input x) = some (s', out) ∧
      tokensQueued s.pool.baseMint out = natSum ((getDirichletDistributedAmount u.sample
        x.tokenBalance (asUsize s.inst.agentsSellingInTranche)).amounts.take 6) := by
  obtain ⟨rfl, hamounts⟩ := commanded_amounts h
  obtain ⟨wallet', out, hrun, hpay⟩ := handleBatches_chunks (x := u.input x) hs
    ((newSellers s (u.input x)).map fun p =>
      sellerTransfers s.pool p.1.storage.pubkey p.2).flatten
  have hcall := transferTokenToSellers_eq s (u.input x)
  rw [h, Option.bind_some, hrun] at hcall
  refine ⟨_, out, hcall, ?_⟩
  rw [tokensQueued, hpay, List.map_map, show maxTransfersInOneTx = 6 * 2 from rfl,
    take_flatten_map (f := fun p : Agent × UInt64 =>
      sellerTransfers s.pool p.1.storage.pubkey p.2) (fun _ => rfl), ← hamounts,
    ← List.map_take, ← tokensIn_sellers s.pool]
  rfl

/-- The first six of the amounts are the whole balance exactly if the others are nothing, or
    as much as the first one wrapped around by. -/
theorem first_six_iff (hu : u.For s.inst.agentsSellingInTranche) (balance : UInt64)
    (hzero : asUsize s.inst.agentsSellingInTranche ≠ 0) :
    natSum ((getDirichletDistributedAmount u.sample balance
        (asUsize s.inst.agentsSellingInTranche)).amounts.take 6) = balance.toNat ↔
      ((shares balance.toNat u.sample.tail).drop 5).sum =
        if (shares balance.toNat u.sample.tail).sum ≤ balance.toNat then 0 else 2 ^ 64 := by
  obtain ⟨p, hp⟩ := hu.sample hzero
  obtain ⟨first, rest, hamounts, -, hshares, hsum⟩ :=
    split_amounts balance (asUsize_lt s.inst.agentsSellingInTranche) p
  have hparts := natSum_take_add_drop (first :: rest) 6
  have hdrop : natSum ((first :: rest).drop 6) =
      ((shares balance.toNat p.parts.tail).drop 5).sum := by
    rw [List.drop_succ_cons, natSum, List.map_drop, hshares]
  have hrest : natSum rest = (shares balance.toNat p.parts.tail).sum := by
    rw [natSum, hshares]
  rw [hsum, hdrop, hrest] at hparts
  rw [← hp, hamounts]
  omega

/-- **THE CALL QUEUES ALL TOKENS** exactly if nothing fails and the split gives the sellers
    after the sixth nothing. -/
theorem queuesAll_iff (hu : u.For s.inst.agentsSellingInTranche)
    (hlow : -2 ^ 31 ≤ s.inst.agentsSellingInTranche)
    (hhigh : s.inst.agentsSellingInTranche < 2 ^ 31)
    (hs : s.mainWallet.state = .idle ∨ s.mainWallet.state = .success) :
    QueuesAll s (u.input x) ↔
      SufficesSix u s.inst.agentsSellingInTranche x.tokenBalance := by
  have hrange := commanded_iff (x := x) hu hlow hhigh
  have hsum := fun h : 0 ≤ s.inst.agentsSellingInTranche =>
    amounts_iff (f := List.take 6) h hhigh rfl fun hne =>
      first_six_iff hu x.tokenBalance hne
  constructor
  · rintro ⟨t, out, hcall, hall⟩
    obtain ⟨transfers, hcommanded⟩ : ∃ transfers, commanded s (u.input x) = some transfers := by
      rw [transferTokenToSellers_eq] at hcall
      obtain ⟨transfers, hcommanded, -⟩ := Option.bind_eq_some_iff.mp hcall
      exact ⟨transfers, hcommanded⟩
    obtain ⟨hnonneg, hcreated⟩ := hrange.mp ⟨transfers, hcommanded⟩
    obtain ⟨t', out', hcall', hqueued⟩ := queued_tokens hs hcommanded
    obtain ⟨rfl, rfl⟩ := Prod.mk.inj (Option.some.inj (hcall.symm.trans hcall'))
    exact ⟨hnonneg, hcreated, (hsum hnonneg).mp (hqueued.symm.trans hall)⟩
  · rintro ⟨hnonneg, hcreated, hsplit⟩
    obtain ⟨transfers, hcommanded⟩ := hrange.mpr ⟨hnonneg, hcreated⟩
    obtain ⟨t, out, hcall, hqueued⟩ := queued_tokens hs hcommanded
    exact ⟨t, out, hcall, hqueued.trans ((hsum hnonneg).mpr hsplit)⟩

/-- **ALL TOKENS GO TO SELLERS THAT EXIST** exactly if every creation succeeds and the split
    is exact: then no index is out of range, and the transfers handed to the main wallet add
    up to its balance.  A main wallet that awaits a command queues them for the first six
    sellers, and so all of the balance exactly if the split leaves nothing for others. -/
theorem supplied_in_full_iff (s : Strategy) (x : TrancheInput) (u : Supply)
    (hu : u.For s.inst.agentsSellingInTranche)
    (hlow : -2 ^ 31 ≤ s.inst.agentsSellingInTranche)
    (hhigh : s.inst.agentsSellingInTranche < 2 ^ 31) :
    (SuppliesAll s (u.input x) ↔ Suffices u s.inst.agentsSellingInTranche x.tokenBalance) ∧
    (s.mainWallet.state = .idle ∨ s.mainWallet.state = .success →
      (QueuesAll s (u.input x) ↔
        SufficesSix u s.inst.agentsSellingInTranche x.tokenBalance)) :=
  ⟨suppliesAll_iff hu hlow hhigh, queuesAll_iff hu hlow hhigh⟩

/-- Two sellers, created or not, and a half of the tokens for each. -/
def twoSellers (first second : Option Keypair) : Supply where
  outcomes := [first, second]
  sample := halves.parts

theorem twoSellers_for (first second : Option Keypair) : (twoSellers first second).For 2 where
  outcomes := rfl
  sample := fun _ => ⟨halves, rfl⟩

/-- Both are created, and share the thousand tokens. -/
theorem two_sellers_supplied :
    SuppliesAll (sampleStrategy 2)
      ((twoSellers (some ⟨⟨10⟩, 0⟩) (some ⟨⟨11⟩, 0⟩)).input sampleInput) ∧
    QueuesAll (sampleStrategy 2)
      ((twoSellers (some ⟨⟨10⟩, 0⟩) (some ⟨⟨11⟩, 0⟩)).input sampleInput) := by
  obtain ⟨hcommands, hqueues⟩ := supplied_in_full_iff (sampleStrategy 2) sampleInput
    (twoSellers (some ⟨⟨10⟩, 0⟩) (some ⟨⟨11⟩, 0⟩)) (twoSellers_for _ _) (by decide) (by decide)
  refine ⟨hcommands.mpr ⟨by decide, by decide, ?_⟩, (hqueues (Or.inl rfl)).mpr
    ⟨by decide, by decide, ?_⟩⟩
  · show if (2 : Int) = 0 then _ else _
    decide +kernel
  · show if (2 : Int) = 0 then _ else _
    decide +kernel

/-- **A SELLER THAT COULD NOT BE CREATED** makes the look-up of the second one panic. -/
theorem failed_creation_panics :
    ¬ ∀ (s : Strategy) (x : TrancheInput) (u : Supply),
      u.For s.inst.agentsSellingInTranche → -2 ^ 31 ≤ s.inst.agentsSellingInTranche →
      s.inst.agentsSellingInTranche < 2 ^ 31 → SuppliesAll s (u.input x) := by
  intro hclaim
  obtain ⟨transfers, h, -⟩ := hclaim (sampleStrategy 2) sampleInput
    (twoSellers (some ⟨⟨10⟩, 0⟩) none) (twoSellers_for _ _) (by decide) (by decide)
  have hnone : commanded (sampleStrategy 2)
      ((twoSellers (some ⟨⟨10⟩, 0⟩) none).input sampleInput) = none := by decide +kernel
  rw [hnone] at h
  cases h

end FoxfireFunding
