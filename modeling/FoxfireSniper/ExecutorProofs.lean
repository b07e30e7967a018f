import FoxfireSniper.GuardScopeProofs
import FoxfireSniper.BuildProofs
import FoxfireSniper.ExecuteTxProofs
import FoxfireSniper.CacheProofs

/-! # Executing an action — does the agent that queued it hear back?

    `SolanaExecutor::execute` (`src/executors/solana_executor.rs`) and the executor loop
    of `Engine::run` (`src/engine.rs`), with `build_instructions` and `execute_tx` as
    modelled.  An action is shared behind a mutex; `execute` reads it through short
    guards until it has built the instructions, and from then on holds a guard until it
    returns.  Under that guard it takes the mutex again, to report a failed simulation
    and to update the action that was sent.

    The engine publishes the event that `execute` returns; an error is only logged.

    * **`returns_iff`**: `execute` returns unless it has something to report after the
      instructions were built.
    * **`failure_reported_iff`**: of all failures, the agent hears of two. -/

namespace FoxfireExecutor

open FoxfireTypes FoxfireBuild FoxfireExecuteTx FoxfireCache NoRollback GuardScope

-- ── Costs ───────────────────────────────────────────────────────────────────

def simulationRetries : Nat := 1

/-- `price_per_cu_priority`, in micro-lamports. -/
def pricePerCuPriority : UInt64 := 3052504

/-- The estimate for one step of an action. -/
def estimateCuOfStep : SolanaActionPayload → UInt32
  | .transfer t =>
      match t.asset with
      | .sol     => 150
      | .token _ => 35000
  | .swap s =>
      match s.swapMethod with
      | .buyTokensForExactSol  => 80000 + 35000
      | .sellExactTokensForSol => 80000

/-- `estimate_cu_per_tx`. -/
def estimateCuPerTx (action : SolanaAction) : UInt32 :=
  (action.actionPayload.map estimateCuOfStep).foldl (· + ·) 0 + 300

/-- `ComputeBudget111111111111111111111111111111`. -/
def computeBudgetProgramId : Pubkey :=
  ⟨0x0306466fe5211732ffecadba72c39be7bc8ce5bbc5f7126b2c439b3a40000000⟩

/-- The low `k` bytes of a number, the lowest first. -/
def leBytes (k n : Nat) : List UInt8 :=
  (List.range k).map fun i => UInt8.ofNat (n / 256 ^ i)

def setComputeUnitLimit (units : UInt32) : Instruction :=
  .other computeBudgetProgramId [] (2 :: leBytes 4 units.toNat)

def setComputeUnitPrice (microLamports : UInt64) : Instruction :=
  .other computeBudgetProgramId [] (3 :: leBytes 8 microLamports.toNat)

/-- The instructions that are sent: the compute budget before those of the action. -/
def prefinalItxsWithCu (cu : UInt32) (actionItx : List Instruction) : List Instruction :=
  (if 0 < pricePerCuPriority then
    [setComputeUnitLimit cu, setComputeUnitPrice pricePerCuPriority] else []) ++ actionItx

/-- `SolanaAction::sent`: the action as it should be noted once it has been sent. -/
def sent (a : SolanaAction) (balanceBefore : Balance) (signature : Signature) (fee : Int)
    (now : Instant) : SolanaAction :=
  { a with
    status := .pending
    txHash := signature
    balanceBefore := some balanceBefore
    balanceAfter := none
    fee := fee
    sentAt := some now
    confirmedAt := none }

/-- The fee that `execute` notes: the price is not taken per million. -/
def notedFee (cu : UInt32) : Int :=
  (baseTxFeeSol.toNat : Int) + (pricePerCuPriority.toNat : Int) * (cu.toNat : Int)

-- ── What the call asks of its surroundings ──────────────────────────────────

/-- What becomes of `get_latest_blockhash`, which asks its first client until that
    answers. -/
inductive LatestBlockhash where
  /-- "No Geyser clients available" -/
  | noClients
  /-- The first client never answers with success. -/
  | unanswered
  /-- The text of the answer, `none` if it is no hash. -/
  | answered (hash : Option Hash)

/-- Why `execute` returns an error. -/
inductive Failure where
  | execution (e : ExecutionError)
  | noGeyserClients
  | malformedBlockhash
  /-- "All ways to send the tx failed" -/
  | allWaysToSendFailed
  deriving DecidableEq

structure Env where
  now               : Instant
  chain             : Chain
  latestBlockhash   : LatestBlockhash
  /-- `settings.executor.simulate_execution` -/
  simulateExecution : Bool
  /-- The error of the `k`-th simulation, if it fails. -/
  simulateTx        : Nat → Option String
  bloxroute         : BloxRoute
  replies           : Replies
  /-- The signature of a message under a list of keys. -/
  sign              : Message → List Keypair → Signature

abbrev Exec := Task Failure SolanaAction OperationalCache

-- ── The call ────────────────────────────────────────────────────────────────

/-- `get_latest_blockhash().await?` and `Hash::from_str(...)?`. -/
def recentBlockhash : LatestBlockhash → Exec Hash
  | .noClients            => throw (.failed .noGeyserClients)
  | .unanswered           => throw .forever
  | .answered none        => throw (.failed .malformedBlockhash)
  | .answered (some hash) => pure hash

/-- The simulation loop: `left` attempts remain, `k` were made.  Its result is the error
    of the last attempt, if all fail. -/
def simulate (simulateTx : Nat → Option String) : Nat → Nat → Option String
  | 0, _        => none
  | left + 1, k =>
      match simulateTx k with
      | none     => none
      | some err => if left = 0 then some err else simulate simulateTx left (k + 1)

/-- The error that the simulation is reported with, if it is made and fails. -/
def Env.simulationError (env : Env) : Option String :=
  if env.simulateExecution then simulate env.simulateTx simulationRetries 0 else none

/-- The result of `execute_tx` for an action and its final instructions. -/
def Env.send (env : Env) (action : SolanaAction) (hash : Hash) (itxs : List Instruction) :
    Option Signature :=
  (executeTx env.sign env.bloxroute hash action.sniper action.feePayer itxs env.replies).1

/-- `BotEvent::ExecutionResult(action.lock().await.uuid, action.clone(), result)`. -/
def report (result : ExecutionResult) : Exec BotEvent := do
  let uuid ← locked (·.uuid)
  let world ← get
  return .executionResult uuid world.value result

/-- `self.context.cache.add_agent_tx(uuid, signature)`. -/
def addAgentTx (uuid : Uuid) (signature : Signature) : Exec PUnit :=
  modify fun s => { s with rest := s.rest.addAgentTx uuid signature }

/-- The scope of `action_guard`. -/
def sendGuarded (env : Env) (cu : UInt32) (built : Built) (guard : SolanaAction) :
    Exec BotEvent := do
  let itxs := prefinalItxsWithCu cu built.actionIxs
  let hash ← recentBlockhash env.latestBlockhash
  match env.simulationError with
  | some err => report (.executionError (.simulationFailed err))
  | none =>
      match env.send guard hash itxs with
      | none => throw (.failed .allWaysToSendFailed)
      | some signature => do
          addAgentTx guard.uuid signature
          -- the new action is computed and dropped
          let _ ← locked fun a => sent a built.balanceBefore signature (notedFee cu) env.now
          report .sent

/-- **`SolanaExecutor::execute`**. -/
def execute (env : Env) : Exec BotEvent := do
  let expired ← locked (·.isExpired env.now)
  if expired then report (.executionError .actionTooOld)
  else
    let cu ← locked estimateCuPerTx
    let built ← locked fun a => buildInstructions env.chain a pricePerCuPriority cu
    match built with
    | .error (.other text) => report (.executionError (.other text))
    | .error e             => throw (.failed (.execution e))
    | .ok built            =>
        if built.actionIxs.isEmpty then report (.executionError .noInstructionsGenerated)
        else withGuard (sendGuarded env cu built)

/-- What the call leaves, from an action that nobody holds. -/
def outcomeOf (env : Env) (cache : OperationalCache) (action : SolanaAction) :
    Except (Stop Failure) BotEvent × World SolanaAction OperationalCache :=
  exec (execute env) ⟨action, false, cache⟩

/-- `event_sender.send`: an event that nobody is subscribed to is not published. -/
def publish (receivers : Nat) (event : BotEvent) : List BotEvent :=
  if 0 < receivers then [event] else []

/-- One round of the executor loop: what is published for an action. -/
def runExecutor (env : Env) (receivers : Nat) (cache : OperationalCache)
    (action : SolanaAction) : List BotEvent :=
  match (outcomeOf env cache action).1 with
  | .ok event => publish receivers event
  | .error _  => []

-- ── The errors of `build_instructions` ──────────────────────────────────────

/-- The only error that `execute` reports among those of `build_instructions`. -/
def IsOther (e : ExecutionError) : Prop := ∃ text, e = .other text

/-- **NO ERROR OF `build_instructions` IS THE ONE THAT IS REPORTED.** -/
theorem buildInstructions_error {chain : Chain} {action : SolanaAction} {price : UInt64}
    {cu : UInt32} {e : ExecutionError}
    (h : buildInstructions chain action price cu = .error e) : ¬ IsOther e := by
  rintro ⟨text, rfl⟩
  cases buildInstructions_refused h

-- ── What the call does, branch by branch ────────────────────────────────────

section

variable {env : Env} {cache : OperationalCache} {action : SolanaAction}
  {s : World SolanaAction OperationalCache}

/-- `build_instructions` with the price and the estimate that `execute` passes. -/
def Env.build (env : Env) (action : SolanaAction) : Except ExecutionError Built :=
  buildInstructions env.chain action pricePerCuPriority (estimateCuPerTx action)

theorem exec_report (h : s.held = false) (result : ExecutionResult) :
    exec (report result) s = (.ok (.executionResult s.value.uuid s.value result), s) := by
  rw [report, exec_locked_bind h]
  rfl

theorem exec_report_held (h : s.held = true) (result : ExecutionResult) :
    exec (report result) s = (.error .deadlock, s) :=
  exec_locked_bind_held h

theorem exec_recentBlockhash_bind {α : Type} (hash : Hash) (k : Hash → Exec α) :
    exec (recentBlockhash (.answered (some hash)) >>= k) s = exec (k hash) s := rfl

/-- An expired action is reported. -/
theorem outcome_expired (h : action.isExpired env.now = true) :
    outcomeOf env cache action
      = (.ok (.executionResult action.uuid action (.executionError .actionTooOld)),
          ⟨action, false, cache⟩) := by
  rw [outcomeOf, execute, exec_locked_bind rfl]
  simp only [h, if_true]
  exact exec_report rfl _

/-- The call up to the result of `build_instructions`. -/
theorem outcome_unexpired (h : action.isExpired env.now = false) :
    outcomeOf env cache action = exec (match env.build action with
      | .error (.other text) => report (.executionError (.other text))
      | .error e             => throw (.failed (.execution e))
      | .ok built            =>
          if built.actionIxs.isEmpty then report (.executionError .noInstructionsGenerated)
          else withGuard (sendGuarded env (estimateCuPerTx action) built))
      ⟨action, false, cache⟩ := by
  rw [outcomeOf, execute, exec_locked_bind rfl]
  simp only [h, Bool.false_eq_true, if_false]
  rw [exec_locked_bind rfl, exec_locked_bind rfl]
  rfl

/-- An error of `build_instructions` is returned, not reported. -/
theorem outcome_not_built {e : ExecutionError} (h : action.isExpired env.now = false)
    (hbuild : env.build action = .error e) :
    outcomeOf env cache action = (.error (.failed (.execution e)), ⟨action, false, cache⟩) := by
  rw [outcome_unexpired h, hbuild]
  have hother := buildInstructions_error hbuild
  cases e with
  | other text => exact absurd ⟨text, rfl⟩ hother
  | actionTooOld => rfl
  | noInstructionsGenerated => rfl
  | severalTokensInOneTx => rfl
  | zeroSolBalance => rfl
  | notEnoughSolBalance r b => rfl
  | notEnoughTokenBalance r b => rfl
  | unsupportedPool b q => rfl
  | simulationFailed text => rfl

/-- An action without instructions is reported. -/
theorem outcome_empty {built : Built} (h : action.isExpired env.now = false)
    (hbuild : env.build action = .ok built) (hnil : built.actionIxs = []) :
    outcomeOf env cache action
      = (.ok (.executionResult action.uuid action (.executionError .noInstructionsGenerated)),
          ⟨action, false, cache⟩) := by
  rw [outcome_unexpired h, hbuild]
  simp only [hnil, List.isEmpty_nil, if_true]
  exact exec_report rfl _

/-- Any other action is sent under a guard. -/
theorem outcome_guarded {built : Built} (h : action.isExpired env.now = false)
    (hbuild : env.build action = .ok built) (hne : built.actionIxs ≠ []) :
    outcomeOf env cache action = dropGuard
      (exec (sendGuarded env (estimateCuPerTx action) built action) ⟨action, true, cache⟩) := by
  rw [outcome_unexpired h, hbuild]
  have hempty : built.actionIxs.isEmpty = false := by
    simpa using hne
  simp only [hempty, Bool.false_eq_true, if_false]
  exact exec_withGuard rfl

/-- Under the guard there is nothing to report: no blockhash is returned, or the
    simulation passes (or is off) and every way to send fails. -/
def NothingToReport (env : Env) (action : SolanaAction) (built : Built) : Prop :=
  match env.latestBlockhash with
  | .noClients            => True
  | .unanswered           => False
  | .answered none        => True
  | .answered (some hash) =>
      env.simulationError = none ∧
        env.send action hash (prefinalItxsWithCu (estimateCuPerTx action) built.actionIxs) = none

/-- Then the guarded scope returns an error. -/
theorem sendGuarded_silent {built : Built} (h : NothingToReport env action built)
    (s : World SolanaAction OperationalCache) :
    ∃ e, exec (sendGuarded env (estimateCuPerTx action) built action) s
      = (.error (.failed e), s) := by
  rw [NothingToReport] at h
  split at h
  · rename_i hb
    rw [sendGuarded, hb]
    exact ⟨_, rfl⟩
  · exact h.elim
  · rename_i hb
    rw [sendGuarded, hb]
    exact ⟨_, rfl⟩
  · rename_i hash hb
    rw [sendGuarded, hb]
    refine ⟨.allWaysToSendFailed, ?_⟩
    simp only [exec_recentBlockhash_bind, h.1, h.2]
    rfl

/-- Otherwise it does not return: it takes the mutex under its own guard, or waits for a
    blockhash for ever. -/
theorem sendGuarded_stuck {built : Built} (h : ¬ NothingToReport env action built)
    (hs : s.held = true) :
    Returned (exec (sendGuarded env (estimateCuPerTx action) built action) s).1 = false := by
  cases hb : env.latestBlockhash with
  | noClients => exact absurd (by rw [NothingToReport, hb]; trivial) h
  | unanswered =>
      rw [sendGuarded, hb]
      rfl
  | answered hash =>
      cases hash with
      | none => exact absurd (by rw [NothingToReport, hb]; trivial) h
      | some hash =>
          rw [sendGuarded, hb]
          cases hsim : env.simulationError with
          | some err =>
              simp only [exec_recentBlockhash_bind, exec_report_held hs]
              rfl
          | none =>
              cases hsend : env.send action hash
                  (prefinalItxsWithCu (estimateCuPerTx action) built.actionIxs) with
              | none => exact absurd (by rw [NothingToReport, hb]; exact ⟨hsim, hsend⟩) h
              | some sig =>
                  simp only [exec_recentBlockhash_bind, hsend, addAgentTx, exec_modify_bind]
                  rw [exec_locked_bind_held
                    (s := { s with rest := s.rest.addAgentTx action.uuid sig }) hs]
                  rfl

/-- The scope that sends never completes with an event. -/
theorem sendGuarded_no_event {built : Built} (hs : s.held = true) (event : BotEvent) :
    (exec (sendGuarded env (estimateCuPerTx action) built action) s).1 ≠ .ok event := by
  intro hok
  by_cases hq : NothingToReport env action built
  · obtain ⟨e, he⟩ := sendGuarded_silent hq s
    rw [he] at hok
    cases hok
  · have hstuck := sendGuarded_stuck hq hs
    rw [hok] at hstuck
    cases hstuck

-- ── Does the call return? ───────────────────────────────────────────────────

/-- What the call owes for an action whose instructions were built: it returns, and if
    it reports `Sent`, the shared action (the one that the cache registered) is pending
    with the signature sent, the balance found and the fee budgeted. -/
structure Settles (env : Env) (cache : OperationalCache) (action : SolanaAction)
    (built : Built) : Prop where
  returned : Returned (outcomeOf env cache action).1 = true
  noted    : ∀ uuid a,
    (outcomeOf env cache action).1 = .ok (.executionResult uuid a .sent) →
    ∃ hash signature, env.latestBlockhash = .answered (some hash) ∧
      env.send action hash (prefinalItxsWithCu (estimateCuPerTx action) built.actionIxs)
        = some signature ∧
      (outcomeOf env cache action).2.value.status = .pending ∧
      (outcomeOf env cache action).2.value.txHash = signature ∧
      (outcomeOf env cache action).2.value.balanceBefore = some built.balanceBefore ∧
      (outcomeOf env cache action).2.value.fee
        = (computeTxFee pricePerCuPriority (estimateCuPerTx action)).val.toNat

/-- **THE CALL RETURNS EXACTLY WHEN NOTHING IS TO BE REPORTED UNDER ITS GUARD**: the
    action is expired, or has no instructions, or the call fails with an error. -/
theorem settles_iff {built : Built} (hbuild : env.build action = .ok built) :
    Settles env cache action built ↔
      action.isExpired env.now = true ∨ built.actionIxs = [] ∨
        NothingToReport env action built := by
  cases hexp : action.isExpired env.now with
  | true =>
      refine iff_of_true ⟨?_, ?_⟩ (Or.inl rfl)
      · rw [outcome_expired hexp]
        rfl
      · intro uuid a hok
        rw [outcome_expired hexp] at hok
        cases hok
  | false =>
      by_cases hnil : built.actionIxs = []
      · refine iff_of_true ⟨?_, ?_⟩ (Or.inr (Or.inl hnil))
        · rw [outcome_empty hexp hbuild hnil]
          rfl
        · intro uuid a hok
          rw [outcome_empty hexp hbuild hnil] at hok
          cases hok
      · have hout : outcomeOf env cache action = dropGuard
            (exec (sendGuarded env (estimateCuPerTx action) built action)
              ⟨action, true, cache⟩) := outcome_guarded hexp hbuild hnil
        constructor
        · intro h
          by_contra hcond
          have hq : ¬ NothingToReport env action built := fun hq => hcond (Or.inr (Or.inr hq))
          have hret := h.returned
          rw [hout, dropGuard, sendGuarded_stuck hq rfl] at hret
          cases hret
        · intro hcond
          obtain hq : NothingToReport env action built := by
            rcases hcond with h | h | h
            · cases h
            · exact absurd h hnil
            · exact h
          refine ⟨?_, ?_⟩
          · obtain ⟨e, he⟩ := sendGuarded_silent hq ⟨action, true, cache⟩
            rw [hout, he]
            rfl
          · intro uuid a hok
            rw [hout] at hok
            exact absurd hok (sendGuarded_no_event rfl _)

-- ── Does the agent hear of a failure? ───────────────────────────────────────

/-- Every collaborator did its part, and a route accepted the transaction. -/
def SendingSucceeds (env : Env) (action : SolanaAction) : Prop :=
  action.isExpired env.now = false ∧ ∃ built hash signature,
    env.build action = .ok built ∧ built.actionIxs ≠ [] ∧
    env.latestBlockhash = .answered (some hash) ∧ env.simulationError = none ∧
    env.send action hash (prefinalItxsWithCu (estimateCuPerTx action) built.actionIxs)
      = some signature

/-- Unless the transaction was sent, exactly one event is published: an execution error
    with the uuid of the action. -/
def FailureReported (env : Env) (receivers : Nat) (cache : OperationalCache)
    (action : SolanaAction) : Prop :=
  ¬ SendingSucceeds env action →
    ∃ e, runExecutor env receivers cache action
      = [.executionResult action.uuid action (.executionError e)]

/-- What is published for an action: one error if it is expired or has no
    instructions, else nothing. -/
theorem published_error_iff (receivers : Nat) :
    (∃ e, runExecutor env receivers cache action
      = [.executionResult action.uuid action (.executionError e)]) ↔
    0 < receivers ∧ (action.isExpired env.now = true ∨
      ∃ built, env.build action = .ok built ∧ built.actionIxs = []) := by
  -- a reported event is published if anybody listens
  have hpub : ∀ e, (outcomeOf env cache action).1
        = .ok (.executionResult action.uuid action (.executionError e)) →
      ((∃ e, runExecutor env receivers cache action
        = [.executionResult action.uuid action (.executionError e)]) ↔ 0 < receivers) := by
    intro e hok
    have hrun : runExecutor env receivers cache action
        = publish receivers (.executionResult action.uuid action (.executionError e)) := by
      simp only [runExecutor, hok]
    rw [hrun]
    constructor
    · rintro ⟨e', he'⟩
      by_contra hzero
      rw [publish, if_neg hzero] at he'
      cases he'
    · intro hpos
      exact ⟨e, by rw [publish, if_pos hpos]⟩
  cases hexp : action.isExpired env.now with
  | true =>
      rw [hpub _ (by rw [outcome_expired hexp])]
      simp
  | false =>
      cases hbuild : env.build action with
      | error e =>
          rw [runExecutor, outcome_not_built hexp hbuild]
          simp
      | ok built =>
          by_cases hnil : built.actionIxs = []
          · rw [hpub _ (by rw [outcome_empty hexp hbuild hnil])]
            simp [hnil]
          · have hnone : runExecutor env receivers cache action = [] := by
              rw [runExecutor, outcome_guarded hexp hbuild hnil]
              cases hok : (exec (sendGuarded env (estimateCuPerTx action) built action)
                  ⟨action, true, cache⟩).1 with
              | ok event => exact absurd hok (sendGuarded_no_event rfl event)
              | error stop => rw [dropGuard, hok]
            rw [hnone]
            simp [hnil]

/-- **OF ALL FAILURES THE AGENT HEARS OF TWO**: an action that is too old, and an action
    without instructions. -/
theorem failure_reported_iff (env : Env) (receivers : Nat) (cache : OperationalCache)
    (action : SolanaAction) :
    FailureReported env receivers cache action ↔
      SendingSucceeds env action ∨
      0 < receivers ∧ (action.isExpired env.now = true ∨
        ∃ built, env.build action = .ok built ∧ built.actionIxs = []) := by
  rw [FailureReported, published_error_iff]
  exact or_iff_not_imp_left.symm

end

-- ── Two payments ────────────────────────────────────────────────────────────

/-- A sniper that owns one SOL pays half of it. -/
def halfSolPayment : SolanaAction :=
  SolanaAction.new ⟨1⟩ 0 ⟨⟨1⟩, 1⟩ [.transfer ⟨.sol, ⟨2⟩, .exact 500000000⟩]

/-- Every account holds `lamports` and exists. -/
def uniformChain (lamports : UInt64) : Chain :=
  ⟨fun _ => lamports, fun _ _ => 0, fun _ => true, fun owner _ => owner⟩

/-- All requests are accepted at once. -/
def smoothEnv (lamports : UInt64) (latestBlockhash : LatestBlockhash) : Env where
  now := 0
  chain := uniformChain lamports
  latestBlockhash := latestBlockhash
  simulateExecution := false
  simulateTx := fun _ => none
  bloxroute := ⟨0, false⟩
  replies := allAccepted
  sign := fun _ _ => default

def emptyCache : OperationalCache := .new (fun _ => none) (fun _ => none)

/-- Without a Geyser client the payment fails with an error. -/
theorem payment_without_blockhash_settles :
    ∃ built, (smoothEnv 1000000000 .noClients).build halfSolPayment = .ok built ∧
      Settles (smoothEnv 1000000000 .noClients) emptyCache halfSolPayment built :=
  ⟨_, rfl, (settles_iff rfl).mpr (Or.inr (Or.inr trivial))⟩

/-- **STUCK AFTER SENDING**: the payment is sent, and the call waits for its own guard. -/
theorem sent_payment_deadlocks :
    ¬ ∀ (env : Env) (cache : OperationalCache) (action : SolanaAction) (built : Built),
      env.build action = .ok built → Settles env cache action built := by
  intro hclaim
  obtain ⟨built, hbuild, hout⟩ : ∃ built,
      (smoothEnv 1000000000 (.answered (some ⟨0⟩))).build halfSolPayment = .ok built ∧
      (outcomeOf (smoothEnv 1000000000 (.answered (some ⟨0⟩))) emptyCache halfSolPayment).1
        = .error .deadlock := ⟨_, rfl, rfl⟩
  have hret := (hclaim _ emptyCache _ built hbuild).returned
  rw [hout] at hret
  cases hret

/-- **A FAILURE NOBODY HEARS OF**: a sniper without SOL cannot pay, and the error is only
    logged. -/
theorem zero_balance_is_not_reported :
    ¬ ∀ (env : Env) (cache : OperationalCache) (action : SolanaAction),
      FailureReported env 1 cache action := by
  intro hclaim
  have hbuild : (smoothEnv 0 .noClients).build halfSolPayment = .error .zeroSolBalance := rfl
  have hnone : runExecutor (smoothEnv 0 .noClients) 1 emptyCache halfSolPayment = [] := rfl
  obtain ⟨e, he⟩ := hclaim (smoothEnv 0 .noClients) emptyCache halfSolPayment (by
    rintro ⟨-, built, hash, sig, hb, -⟩
    rw [hbuild] at hb
    cases hb)
  rw [hnone] at he
  cases he

end FoxfireExecutor
