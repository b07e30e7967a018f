import FoxfireSniper.AgentRunProofs
import Mathlib.Data.List.Count

/-! # Funding the agents of a tranche — one batch or several

    The volume strategy (`src/strategies/volume_strategy/strategy_state_machine.rs`)
    creates agents, cuts the transfers that fund them into batches of
    `MAX_TRANSFERS_IN_ONE_TX`, and hands the batches to the main wallet's state machine
    one after the other.  The machine accepts a `Transfer` in `idle` and `success` only:
    the first batch takes it to `transferring`, where further batches are ignored.

    * **`run_batches`**: of any list of batches, the main wallet queues the first.
    * **`funded_iff_one_batch`**: so every agent gets its transfers exactly when they all
      fit the first batch — twelve agents to fund, or six sellers with two transfers
      each.

    Random draws, key generation and the clock are in `TrancheInput`. -/

namespace FoxfireFunding

open FoxfireTypes FoxfireAttempt FoxfireAgent MachineRun

/-- `VolumeStrategyInstance`, as far as funding reads it. -/
structure VolumeStrategyInstance where
  id                       : StrategyId
  trancheSizeSol           : ℚ
  agentsBuyingInTranche    : Int
  agentsSellingInTranche   : Int
  agentsKeepTokensLamports : Int

/-- `VolumeStrategyStateMachine`, as far as funding reads it. -/
structure Strategy where
  inst       : VolumeStrategyInstance
  pool       : RaydiumPool
  mainWallet : Agent
  agents     : List Agent

structure TrancheInput where
  /-- `get_dirichlet_distributed_with_min_amount`, by total, number and minimum. -/
  dirichletWithMin : UInt64 → Nat → UInt64 → List UInt64
  /-- `get_dirichlet_distributed_amount`, by total and number. -/
  dirichlet        : UInt64 → Nat → List UInt64
  /-- The key of the `k`-th agent, `none` if `AgentState::new` fails. -/
  newAgent         : Nat → Option Keypair
  /-- The keys of the agents that `create_agents` collects. -/
  created          : Int → List Keypair
  /-- The main wallet's token balance. -/
  tokenBalance     : UInt64
  /-- `Instant::now()` when agents are created. -/
  createdAt        : Instant
  /-- Clock and uuid for the `k`-th event that the main wallet handles. -/
  walletInput      : Nat → Input

/-- The cast `x as usize` of an `i32`. -/
def asUsize (x : Int) : Nat := (x % 2 ^ 64).toNat

/-- `slice::chunks`: consecutive pieces of length `n`, the last one possibly shorter. -/
def chunks {α : Type} (n : Nat) (l : List α) : List (List α) :=
  (List.range ((l.length + n - 1) / n)).map fun k => (l.drop (k * n)).take n

/-- The main wallet handles one `Transfer` per batch. -/
def handleBatches (x : TrancheInput) (wallet : Agent)
    (batches : List (List SolanaTransferActionPayload)) : Option (Agent × List Effect) :=
  run handle wallet (batches.mapIdx fun k batch =>
    { x.walletInput k with event := .forAgent (.transfer batch) })

/-- The smallest amount an agent is funded with. -/
def minAgentAmount (inst : VolumeStrategyInstance) : UInt64 :=
  if inst.agentsKeepTokensLamports = 0 then
    newAccountThresholdSol + 3 * (baseTxFeeSol + transferPriorityFeeSol)
  else
    baseTxFeeSol + transferPriorityFeeSol + baseTxFeeSol + transferPriorityFeeSol
      + rentExemptionThresholdSol + transferPriorityFeeSol + baseTxFeeSol

/-- The agents that `initialize_agents_with_sol` manages to create, with the amount each
    is to receive. -/
def buyers (s : Strategy) (x : TrancheInput) : List (Keypair × UInt64) :=
  (x.dirichletWithMin (solToLamports s.inst.trancheSizeSol)
    (asUsize s.inst.agentsBuyingInTranche) (minAgentAmount s.inst)).zipIdx.filterMap
      fun p => (x.newAgent p.2).map fun key => (key, p.1)

/-- A new agent of the strategy. -/
def Strategy.newAgent (s : Strategy) (x : TrancheInput) (key : Keypair) : Agent :=
  Agent.new s.pool key (some s.inst.id) (some s.mainWallet.storage.agentKey) x.createdAt

/-- **`initialize_agents_with_sol`**. -/
def initializeAgentsWithSol (s : Strategy) (x : TrancheInput) :
    Option (Strategy × List Effect) :=
  let transfers := (buyers s x).map fun p =>
    (⟨.sol, p.1.pubkey, .exactWithFees p.2⟩ : SolanaTransferActionPayload)
  (handleBatches x s.mainWallet (chunks maxTransfersInOneTx transfers)).map fun r =>
    ({ s with mainWallet := r.1
              agents := s.agents ++ (buyers s x).map fun p => s.newAgent x p.1 }, r.2)

/-- Not `Error` and not `Deactivated`. -/
def eligible (a : Agent) : Bool :=
  match a.state with
  | .error _     => false
  | .deactivated => false
  | _            => true

/-- The two transfers to a seller: SOL for its fees, and its tokens. -/
def sellerTransfers (pool : RaydiumPool) (seller : Pubkey) (amount : UInt64) :
    List SolanaTransferActionPayload :=
  [⟨.sol, seller, .exact (baseTxFeeSol + transferPriorityFeeSol + rentExemptionThresholdSol)⟩,
    ⟨.token pool.baseMint, seller, .exact amount⟩]

/-- **`transfer_token_to_sellers`**.  The sellers are indexed by the amounts: with fewer
    agents than amounts the indexing panics. -/
def transferTokenToSellers (s : Strategy) (x : TrancheInput) :
    Option (Strategy × List Effect) :=
  let agents := (x.created s.inst.agentsSellingInTranche).map (s.newAgent x)
  let amounts := x.dirichlet x.tokenBalance (asUsize s.inst.agentsSellingInTranche)
  if agents.length < amounts.length then none
  else
    let transfers := ((agents.zip amounts).map fun p =>
      if eligible p.1 then sellerTransfers s.pool p.1.storage.pubkey p.2 else []).flatten
    (handleBatches x s.mainWallet (chunks maxTransfersInOneTx transfers)).map fun r =>
      ({ s with mainWallet := r.1, agents := agents }, r.2)

-- ── Batches ─────────────────────────────────────────────────────────────────

theorem chunks_nil {α : Type} {n : Nat} (hn : 0 < n) : chunks n ([] : List α) = [] := by
  have hz : (n - 1) / n = 0 := Nat.div_eq_of_lt (by omega)
  simp [chunks, hz]

/-- The first piece of a non-empty list. -/
theorem chunks_cons {α : Type} {n : Nat} (hn : 0 < n) {l : List α} (hl : l ≠ []) :
    ∃ rest, chunks n l = l.take n :: rest := by
  have hlen : 0 < l.length := List.length_pos_iff.mpr hl
  obtain ⟨k, hk⟩ : ∃ k, (l.length + n - 1) / n = k + 1 := by
    refine Nat.exists_eq_add_one_of_ne_zero ?_
    have hge : 1 ≤ (l.length + n - 1) / n := (Nat.one_le_div_iff hn).mpr (by omega)
    omega
  rw [chunks, hk, List.range_succ_eq_map, List.map_cons, Nat.zero_mul, List.drop_zero]
  exact ⟨_, rfl⟩

/-- A working agent ignores a further `Transfer`. -/
theorem handle_transfer_working {m : Agent} {i : Input}
    {batch : List SolanaTransferActionPayload} (hw : m.state.working = true)
    (hev : i.event = .forAgent (.transfer batch)) : handle m i = some (m, []) := by
  obtain ⟨r, hr⟩ := retry_of_working hw
  have hd : m.dispatch i = (m.storage, .super) := by
    rw [dispatch_working hw hr]
    simp only [AgentState.transitionToSuccessOrError, hev, attemptTransition]
  simp only [handle, hd]

/-- So it ignores any number of them. -/
theorem run_transfers_working {m : Agent} (hw : m.state.working = true) :
    ∀ {is : List Input}, (∀ i ∈ is, ∃ batch, i.event = .forAgent (.transfer batch)) →
      run handle m is = some (m, []) := by
  intro is
  induction is with
  | nil => intro _; rfl
  | cons i is ih =>
      intro h
      obtain ⟨batch, hev⟩ := h i List.mem_cons_self
      rw [run_cons, handle_transfer_working hw hev, Option.bind_some,
        ih (fun j hj => h j (List.mem_cons_of_mem i hj))]
      rfl

/-- An agent that awaits a command carries out a `Transfer`. -/
theorem handle_transfer_awaiting {m : Agent} {i : Input}
    {batch : List SolanaTransferActionPayload}
    (hs : m.state = .idle ∨ m.state = .success)
    (hev : i.event = .forAgent (.transfer batch)) :
    handle m i = some (⟨.transferring batch 0, (m.storage.transfer i batch).1⟩,
      (m.storage.transfer i batch).2) := by
  have hd : m.dispatch i = (m.storage, .transition (.transferring batch 0)) := by
    rw [dispatch_awaiting i hs, AgentState.awaitCommand, hev]
  simp only [handle, hd, AgentState.enter, Option.map_some]

/-- **THE MAIN WALLET QUEUES THE FIRST BATCH**, and nothing of the others. -/
theorem handleBatches_queued {x : TrancheInput} {wallet : Agent}
    (hs : wallet.state = .idle ∨ wallet.state = .success)
    {batch : List SolanaTransferActionPayload}
    {rest : List (List SolanaTransferActionPayload)} :
    ∃ wallet' out action, handleBatches x wallet (batch :: rest) = some (wallet', out) ∧
      queuedActions out = [action] ∧ action.actionPayload = batch.map .transfer := by
  have hfirst := handle_transfer_awaiting (i := { x.walletInput 0 with
    event := .forAgent (.transfer batch) }) hs rfl
  simp only [handleBatches, List.mapIdx_cons, run_cons]
  rw [hfirst, Option.bind_some, run_transfers_working rfl ?_]
  · refine ⟨_, _, _, rfl, rfl, rfl⟩
  · intro i hi
    obtain ⟨k, hk, rfl⟩ := List.mem_mapIdx.mp hi
    exact ⟨_, rfl⟩

/-- Of transfers cut into batches, those of the first batch are queued. -/
theorem handleBatches_chunks {x : TrancheInput} {wallet : Agent}
    (hs : wallet.state = .idle ∨ wallet.state = .success)
    (transfers : List SolanaTransferActionPayload) :
    ∃ wallet' out, handleBatches x wallet (chunks maxTransfersInOneTx transfers)
        = some (wallet', out) ∧
      ((queuedActions out).map SolanaAction.actionPayload).flatten
        = (transfers.take maxTransfersInOneTx).map .transfer := by
  by_cases hnil : transfers = []
  · subst hnil
    rw [chunks_nil (by decide)]
    exact ⟨_, _, rfl, rfl⟩
  · obtain ⟨rest, hrest⟩ := chunks_cons (n := maxTransfersInOneTx) (by decide) hnil
    rw [hrest]
    obtain ⟨wallet', out, action, hrun, hout, hpay⟩ := handleBatches_queued hs
    refine ⟨wallet', out, hrun, ?_⟩
    rw [hout, List.map_singleton, List.flatten_singleton, hpay]

-- ── Lists without repetitions ───────────────────────────────────────────────

/-- An element past position `k` does not occur before it. -/
theorem notMem_take_of_mem_drop {α : Type} {l : List α} (h : l.Nodup) {k : Nat} {a : α}
    (ha : a ∈ l.drop k) : a ∉ l.take k := by
  intro hmem
  rw [← List.take_append_drop k l, List.nodup_append] at h
  exact h.2.2 a hmem a ha rfl

/-- All elements are among the first `k` exactly when there are at most `k`. -/
theorem forall_mem_take_iff {α : Type} {l : List α} (h : l.Nodup) {k : Nat} :
    (∀ a ∈ l, a ∈ l.take k) ↔ l.length ≤ k := by
  constructor
  · intro hall
    by_contra hlt
    have hlt' : k < l.length := Nat.not_le.mp hlt
    have hdrop : l[k] ∈ l.drop k := by
      rw [List.drop_eq_getElem_cons hlt']
      exact List.mem_cons_self
    exact notMem_take_of_mem_drop h hdrop (hall _ (List.getElem_mem hlt'))
  · intro hle a ha
    rw [List.take_of_length_le hle]
    exact ha

/-- Pieces of equal length: a prefix of the concatenation is a concatenation of a
    prefix. -/
theorem take_flatten_map {α β : Type} {f : α → List β} {c : Nat}
    (hf : ∀ a, (f a).length = c) :
    ∀ (k : Nat) (l : List α), ((l.map f).flatten).take (k * c) = ((l.take k).map f).flatten := by
  intro k
  induction k with
  | zero =>
      intro l
      simp
  | succ k ih =>
      intro l
      cases l with
      | nil => simp
      | cons a l =>
          rw [List.map_cons, List.flatten_cons, List.take_succ_cons, List.map_cons,
            List.flatten_cons, ← ih l, Nat.succ_mul, Nat.add_comm, List.take_append, hf a,
            Nat.add_sub_cancel_left, List.take_of_length_le (by rw [hf a]; omega)]

-- ── Who is funded ───────────────────────────────────────────────────────────

def isSolTransferTo (pk : Pubkey) : SolanaActionPayload → Bool
  | .transfer t => t.asset = .sol ∧ t.receiver = pk
  | .swap _     => false

/-- The number of SOL transfers to an address among queued actions. -/
def solTransfersTo (pk : Pubkey) (actions : List SolanaAction) : Nat :=
  ((actions.map SolanaAction.actionPayload).flatten).countP (isSolTransferTo pk)

/-- The agents that the call pushed. -/
def pushed (s s' : Strategy) : List Agent := s'.agents.drop s.agents.length

/-- Every agent that was pushed has exactly one SOL transfer queued. -/
def AllFunded (s s' : Strategy) (out : List Effect) : Prop :=
  ∀ a ∈ pushed s s', solTransfersTo a.storage.pubkey (queuedActions out) = 1

/-- The sellers with the amounts they are to receive. -/
def sellers (s : Strategy) (x : TrancheInput) (s' : Strategy) : List (Agent × UInt64) :=
  (s'.agents.zip (x.dirichlet x.tokenBalance (asUsize s.inst.agentsSellingInTranche))).filter
    fun p => eligible p.1

/-- Every eligible seller has its SOL transfer and its token transfer queued. -/
def AllSupplied (s : Strategy) (x : TrancheInput) (s' : Strategy) (out : List Effect) : Prop :=
  ∀ p ∈ sellers s x s', ∀ t ∈ sellerTransfers s.pool p.1.storage.pubkey p.2,
    ∃ action ∈ queuedActions out, .transfer t ∈ action.actionPayload

/-- The keys of the agents that `initialize_agents_with_sol` pushes. -/
def buyerKeys (s : Strategy) (x : TrancheInput) : List Pubkey :=
  (buyers s x).map fun p => p.1.pubkey

/-- Counting the transfers to an address is counting the address. -/
theorem countP_transfers (l : List (Keypair × UInt64)) (pk : Pubkey) :
    ((l.map fun p => (⟨.sol, p.1.pubkey, .exactWithFees p.2⟩ : SolanaTransferActionPayload)).map
      .transfer).countP (isSolTransferTo pk) = (l.map fun p => p.1.pubkey).count pk := by
  induction l with
  | nil => rfl
  | cons p l ih =>
      rw [List.map_cons, List.map_cons, List.map_cons, List.countP_cons, List.count_cons, ih]
      congr 1
      by_cases h : p.1.pubkey = pk
      · simp [isSolTransferTo, h]
      · simp [isSolTransferTo, h]

/-- `initialize_agents_with_sol` from a main wallet that awaits a command. -/
theorem initialize_funds_iff {s : Strategy} {x : TrancheInput}
    (hs : s.mainWallet.state = .idle ∨ s.mainWallet.state = .success)
    (hkeys : (buyerKeys s x).Nodup) :
    ∃ s' out, initializeAgentsWithSol s x = some (s', out) ∧
      (AllFunded s s' out ↔ (buyers s x).length ≤ maxTransfersInOneTx) := by
  obtain ⟨wallet', out, hrun, hpay⟩ := handleBatches_chunks (x := x) hs
    ((buyers s x).map fun p => ⟨.sol, p.1.pubkey, .exactWithFees p.2⟩)
  have hinit : initializeAgentsWithSol s x = some ({ s with
      mainWallet := wallet'
      agents := s.agents ++ (buyers s x).map fun p => s.newAgent x p.1 }, out) := by
    simp only [initializeAgentsWithSol, hrun, Option.map_some]
  refine ⟨_, out, hinit, ?_⟩
  have hcount : ∀ pk, solTransfersTo pk (queuedActions out)
      = ((buyerKeys s x).take maxTransfersInOneTx).count pk := by
    intro pk
    rw [solTransfersTo, hpay, ← List.map_take, countP_transfers, List.map_take]
    rfl
  have hone : ∀ pk, ((buyerKeys s x).take maxTransfersInOneTx).count pk = 1
      ↔ pk ∈ (buyerKeys s x).take maxTransfersInOneTx := by
    intro pk
    constructor
    · intro h
      rw [← List.count_pos_iff]
      omega
    · intro h
      exact List.count_eq_one_of_mem (hkeys.sublist (List.take_sublist _ _)) h
  have hpushed : ∀ s' : Strategy,
      s'.agents = s.agents ++ (buyers s x).map (fun p => s.newAgent x p.1) →
      (AllFunded s s' out ↔
        ∀ pk ∈ buyerKeys s x, pk ∈ (buyerKeys s x).take maxTransfersInOneTx) := by
    intro s' hagents
    simp only [AllFunded, pushed, hagents, List.drop_left]
    constructor
    · intro h pk hpk
      obtain ⟨p, hp, rfl⟩ := List.mem_map.mp hpk
      have hcnt := h _ (List.mem_map_of_mem hp)
      rw [hcount] at hcnt
      exact (hone _).mp hcnt
    · intro h a ha
      obtain ⟨p, hp, rfl⟩ := List.mem_map.mp ha
      rw [hcount]
      exact (hone _).mpr (h _ (List.mem_map_of_mem hp))
  rw [hpushed _ rfl, forall_mem_take_iff hkeys]
  simp only [buyerKeys, List.length_map]

-- ── The sellers ─────────────────────────────────────────────────────────────

/-- The number of sellers: one per amount. -/
def sellerCount (s : Strategy) (x : TrancheInput) : Nat :=
  (x.dirichlet x.tokenBalance (asUsize s.inst.agentsSellingInTranche)).length

/-- The keys of the agents that `create_agents` collects. -/
def sellerKeys (s : Strategy) (x : TrancheInput) : List Pubkey :=
  (x.created s.inst.agentsSellingInTranche).map Keypair.pubkey

/-- The agents that `create_agents` collects, with the amounts. -/
def newSellers (s : Strategy) (x : TrancheInput) : List (Agent × UInt64) :=
  ((x.created s.inst.agentsSellingInTranche).map (s.newAgent x)).zip
    (x.dirichlet x.tokenBalance (asUsize s.inst.agentsSellingInTranche))

theorem map_fst_zip_sublist {α β : Type} :
    ∀ (l : List α) (l' : List β), ((l.zip l').map Prod.fst).Sublist l := by
  intro l
  induction l with
  | nil => intro l'; exact List.Sublist.refl _
  | cons a l ih =>
      intro l'
      cases l' with
      | nil => exact List.nil_sublist _
      | cons b l' => exact (ih l').cons_cons a

/-- New agents are idle, so they are all eligible. -/
theorem newSellers_eligible {s : Strategy} {x : TrancheInput} {p : Agent × UInt64}
    (h : p ∈ newSellers s x) : eligible p.1 = true := by
  have hmem := (List.of_mem_zip (show (p.1, p.2) ∈ _ from h)).1
  obtain ⟨key, -, hkey⟩ := List.mem_map.mp hmem
  rw [← hkey]
  rfl

/-- With different keys, the sellers have different addresses. -/
theorem newSellers_nodup {s : Strategy} {x : TrancheInput} (h : (sellerKeys s x).Nodup) :
    ((newSellers s x).map fun p => p.1.storage.pubkey).Nodup := by
  have hsub := (map_fst_zip_sublist
    ((x.created s.inst.agentsSellingInTranche).map (s.newAgent x))
    (x.dirichlet x.tokenBalance (asUsize s.inst.agentsSellingInTranche))).map
      (fun a : Agent => a.storage.pubkey)
  rw [List.map_map, List.map_map] at hsub
  exact h.sublist hsub

theorem receiver_of_mem_sellerTransfers {pool : RaydiumPool} {pk : Pubkey} {amount : UInt64}
    {t : SolanaTransferActionPayload} (h : t ∈ sellerTransfers pool pk amount) :
    t.receiver = pk := by
  simp only [sellerTransfers, List.mem_cons, List.not_mem_nil, or_false] at h
  rcases h with rfl | rfl
  · rfl
  · rfl

/-- Two transfers for each seller: those of the first six are in the first batch. -/
theorem supplied_iff (pool : RaydiumPool) {l : List (Agent × UInt64)}
    (hkeys : (l.map fun p => p.1.storage.pubkey).Nodup) :
    (∀ p ∈ l, ∀ t ∈ sellerTransfers pool p.1.storage.pubkey p.2,
      t ∈ ((l.map fun q => sellerTransfers pool q.1.storage.pubkey q.2).flatten).take
        maxTransfersInOneTx) ↔ 2 * l.length ≤ maxTransfersInOneTx := by
  have htake := take_flatten_map
    (f := fun q : Agent × UInt64 => sellerTransfers pool q.1.storage.pubkey q.2) (c := 2)
    (fun _ => rfl) 6 l
  have hmax : maxTransfersInOneTx = 6 * 2 := rfl
  rw [hmax, htake]
  constructor
  · intro hall
    by_contra hlt
    have hlt' : 6 < l.length := by omega
    obtain ⟨q, hq, hmem⟩ : ∃ q ∈ l.take 6, _ ∈ sellerTransfers pool q.1.storage.pubkey q.2 := by
      obtain ⟨ts, hts, hmem⟩ := List.mem_flatten.mp
        (hall _ (List.getElem_mem hlt') _ List.mem_cons_self)
      obtain ⟨q, hq, rfl⟩ := List.mem_map.mp hts
      exact ⟨q, hq, hmem⟩
    have hrec := receiver_of_mem_sellerTransfers hmem
    have hdrop : l[6].1.storage.pubkey ∈ (l.map fun p => p.1.storage.pubkey).drop 6 := by
      rw [← List.map_drop, List.drop_eq_getElem_cons hlt']
      exact List.mem_cons_self
    refine notMem_take_of_mem_drop hkeys hdrop ?_
    rw [show l[6].1.storage.pubkey = q.1.storage.pubkey from hrec, ← List.map_take]
    exact List.mem_map_of_mem hq
  · intro hle p hp t ht
    rw [List.take_of_length_le (by omega)]
    exact List.mem_flatten.mpr ⟨_, List.mem_map_of_mem hp, ht⟩

/-- `transfer_token_to_sellers` from a main wallet that awaits a command. -/
theorem transfer_supplies_iff {s s' : Strategy} {x : TrancheInput} {out : List Effect}
    (hs : s.mainWallet.state = .idle ∨ s.mainWallet.state = .success)
    (hkeys : (sellerKeys s x).Nodup)
    (h : transferTokenToSellers s x = some (s', out)) :
    AllSupplied s x s' out ↔ 2 * sellerCount s x ≤ maxTransfersInOneTx := by
  simp only [transferTokenToSellers] at h
  split at h
  · cases h
  · rename_i hlen
    obtain ⟨r, hr, heq⟩ := Option.map_eq_some_iff.mp h
    obtain ⟨rfl, rfl⟩ := Prod.mk.inj heq
    obtain ⟨wallet', out, hrun, hpay⟩ := handleBatches_chunks (x := x) hs
      ((newSellers s x).map fun p =>
        if eligible p.1 then sellerTransfers s.pool p.1.storage.pubkey p.2 else []).flatten
    obtain rfl := Option.some.inj (hrun.symm.trans hr)
    -- all sellers are eligible, so nothing is filtered out on either side
    have hmap : ((newSellers s x).map fun p =>
        if eligible p.1 then sellerTransfers s.pool p.1.storage.pubkey p.2 else [])
        = (newSellers s x).map fun p => sellerTransfers s.pool p.1.storage.pubkey p.2 := by
      refine List.map_congr_left ?_
      intro p hp
      rw [if_pos (newSellers_eligible hp)]
    have hsellers : (newSellers s x).filter (fun p => eligible p.1) = newSellers s x :=
      List.filter_eq_self.mpr (fun p hp => newSellers_eligible hp)
    have hcount : (newSellers s x).length = sellerCount s x := by
      rw [newSellers, List.length_zip]
      exact Nat.min_eq_right (Nat.not_lt.mp hlen)
    rw [hmap] at hpay
    rw [← hcount, ← supplied_iff s.pool (newSellers_nodup hkeys)]
    have hqueued : ∀ t, (∃ action ∈ queuedActions out, .transfer t ∈ action.actionPayload) ↔
        t ∈ (((newSellers s x).map fun q =>
          sellerTransfers s.pool q.1.storage.pubkey q.2).flatten).take maxTransfersInOneTx := by
      intro t
      rw [← List.mem_map_of_injective (f := SolanaActionPayload.transfer)
        (fun _ _ h => SolanaActionPayload.transfer.inj h), ← hpay, List.mem_flatten]
      constructor
      · rintro ⟨action, hact, hmem⟩
        exact ⟨_, List.mem_map_of_mem hact, hmem⟩
      · rintro ⟨payload, hpl, hmem⟩
        obtain ⟨action, hact, rfl⟩ := List.mem_map.mp hpl
        exact ⟨action, hact, hmem⟩
    show (∀ p ∈ (newSellers s x).filter (fun p => eligible p.1), _) ↔ _
    rw [hsellers]
    constructor
    · intro hall p hp t ht
      exact (hqueued t).mp (hall p hp t ht)
    · intro hall p hp t ht
      exact (hqueued t).mpr (hall p hp t ht)

/-- **ONE BATCH, OR SOMEBODY IS LEFT OUT.**  From a main wallet that awaits a command, and
    with different keys for different agents: every agent that was pushed is funded
    exactly once if and only if at most `MAX_TRANSFERS_IN_ONE_TX` were created, and every
    seller is supplied if and only if its two transfers per seller fit as well. -/
theorem funded_iff_one_batch (s : Strategy) (x : TrancheInput)
    (hs : s.mainWallet.state = .idle ∨ s.mainWallet.state = .success)
    (hbuyers : (buyerKeys s x).Nodup) (hsellers : (sellerKeys s x).Nodup) :
    (∃ s' out, initializeAgentsWithSol s x = some (s', out) ∧
      (AllFunded s s' out ↔ (buyers s x).length ≤ maxTransfersInOneTx)) ∧
    (∀ s' out, transferTokenToSellers s x = some (s', out) →
      (AllSupplied s x s' out ↔ 2 * sellerCount s x ≤ maxTransfersInOneTx)) := by
  refine ⟨initialize_funds_iff hs hbuyers, ?_⟩
  intro s' out h
  exact transfer_supplies_iff hs hsellers h

/-- A strategy with `n` buyers and `n` sellers, whose main wallet is idle. -/
def sampleStrategy (n : Int) : Strategy where
  inst := ⟨1, 1, n, n, 0⟩
  pool := default
  mainWallet := Agent.new default ⟨⟨1⟩, 1⟩ none none 0
  agents := []

/-- Every draw gives a thousand lamports, every key is new. -/
def sampleInput : TrancheInput where
  dirichletWithMin := fun _ n _ => List.replicate n 1000
  dirichlet := fun _ n => List.replicate n 1000
  newAgent := fun k => some ⟨⟨BitVec.ofNat 256 (k + 10)⟩, 0⟩
  created := fun n => (List.range n.toNat).map fun k => ⟨⟨BitVec.ofNat 256 (k + 10)⟩, 0⟩
  tokenBalance := 1000
  createdAt := 0
  walletInput := fun k => input (.forAgent .collect) 0 ⟨BitVec.ofNat 128 k⟩

/-- Two agents are funded. -/
theorem two_agents_are_funded :
    ∃ s' out, initializeAgentsWithSol (sampleStrategy 2) sampleInput = some (s', out) ∧
      AllFunded (sampleStrategy 2) s' out := by
  obtain ⟨⟨s', out, hrun, hiff⟩, -⟩ := funded_iff_one_batch (sampleStrategy 2) sampleInput
    (Or.inl rfl) (by decide) (by decide)
  exact ⟨s', out, hrun, hiff.mpr (by decide)⟩

/-- **THE THIRTEENTH AGENT IS NOT FUNDED.** -/
theorem thirteenth_agent_is_not_funded :
    ¬ ∀ (s : Strategy) (x : TrancheInput) (s' : Strategy) (out : List Effect),
      (s.mainWallet.state = .idle ∨ s.mainWallet.state = .success) →
      (buyerKeys s x).Nodup → initializeAgentsWithSol s x = some (s', out) →
      AllFunded s s' out := by
  intro hclaim
  have hkeys : (buyerKeys (sampleStrategy 13) sampleInput).Nodup := by decide
  obtain ⟨s', out, hrun, hiff⟩ := initialize_funds_iff (Or.inl rfl) hkeys
  have hle := hiff.mp (hclaim _ _ s' out (Or.inl rfl) hkeys hrun)
  exact absurd hle (by decide)

end FoxfireFunding
