import FoxfireSniper.AgentRunProofs
import FoxfireSniper.NetworkCustodyProofs
import FoxfireSniper.ReceiptRaceProofs

/-! # Why a worker moves on — agents, executor, cache and feed together

    An agent succeeds, and a snipe leaves `buying` or `selling`, when it gets the receipt of
    an action that it has in progress.  The receipt has come a long way: the action was
    executed, the signature that `execute_tx` returned was registered for the action's uuid,
    the feed handed on a transaction with this signature, and the collector looked up whose it
    is.

    The model lets all of this interleave freely, for any number of agents and snipes that come
    and go, in live mode: a worker may be given any event at any time, as long as a receipt is
    one that the collector has emitted; any number of calls of `execute` may be on their way.
    `Uuid::new_v4` never returns a uuid twice, and the feed hands a transaction on once.  The
    optional polling collector is left out.

    * `Sound` keeps the books: who listens for what, who owns a registered signature, and what
      is behind each receipt.
    * **`moves_confirmed`**: no worker moves on but for a transaction that was made for an
      action of its own and was then confirmed without error, and no two moves are due to the
      same transaction. -/

namespace FoxfireAttempt

open FoxfireTypes

/-- A worker that listened for `op` listens for `op'` after a step: for nothing new but what
    it has queued, which is at most one action, under the uuid of the step. -/
structure Listens (uuid : Uuid) (op op' : List Uuid) (queued : List SolanaAction) : Prop where
  fresh  : ∀ a ∈ queued, a.uuid = uuid
  single : queued.length ≤ 1
  heard  : ∀ u ∈ op', u ∈ op ∨ ∃ a ∈ queued, a.uuid = u

theorem Listens.quiet {uuid : Uuid} {op op' : List Uuid} (hsub : ∀ u ∈ op', u ∈ op) :
    Listens uuid op op' [] where
  fresh _ ha := absurd ha List.not_mem_nil
  single := Nat.zero_le _
  heard u hu := Or.inl (hsub u hu)

theorem Listens.queued {uuid : Uuid} {op kept : List Uuid} {action : SolanaAction}
    (hsub : ∀ u ∈ kept, u ∈ op) (huuid : action.uuid = uuid) :
    Listens uuid op (kept ++ [uuid]) [action] where
  fresh a ha := by rwa [List.mem_singleton.mp ha]
  single := Nat.le_refl _
  heard u hu := by
    rcases List.mem_append.mp hu with hu | hu
    · exact Or.inl (hsub u hu)
    · exact Or.inr
        ⟨action, List.mem_singleton_self _, huuid.trans (List.mem_singleton.mp hu).symm⟩

/-- At most one action is queued, so no uuid is queued twice. -/
theorem Listens.nodup {uuid : Uuid} {op op' : List Uuid} {queued : List SolanaAction}
    (h : Listens uuid op op' queued) : (queued.map (·.uuid)).Nodup := by
  cases queued with
  | nil => exact List.nodup_nil
  | cons a rest =>
      have hrest : rest = [] := List.eq_nil_of_length_eq_zero
        (Nat.le_zero.mp (Nat.le_of_succ_le_succ h.single))
      rw [hrest]
      exact List.nodup_singleton _

end FoxfireAttempt

namespace FoxfireAgent

open FoxfireTypes FoxfireAttempt MachineRun

variable {m m' : Agent} {i : Input} {out : List Effect}

theorem handle_listens (h : handle m i = some (m', out)) :
    Listens i.uuid m.inProgress m'.inProgress (queuedActions out) := by
  cases handle_cases h with
  | quiet _ hsub hout | succeeded _ _ _ _ _ hsub hout =>
      rw [hout]
      exact .quiet hsub
  | started _ _ hin hout huuid | retriedTimeout _ _ _ _ hin hout huuid =>
      rw [hin, hout]
      exact .queued (fun _ hu => hu) huuid
  | retriedFailed _ _ _ _ hin hout huuid =>
      rw [hin, hout]
      exact .queued (fun _ hu => (List.mem_filter.mp hu).1) huuid

/-- What brings an agent to success, and is then done with. -/
theorem success_by_receipt (h : handle m i = some (m', out)) (hnot : m.state ≠ .success)
    (hsucc : m'.state = .success) :
    ∃ r : ExecutionReceipt, i.event = receiptEvent r ∧ r.err = none ∧
      r.actionUuid ∈ m.inProgress ∧ r.actionUuid ∉ m'.inProgress := by
  have hretry : ∀ {r : Nat}, m.state.retry = some r → m'.state ≠ m.state.retried := by
    intro r hr heq
    have hr' := retried_retry hr
    rw [← heq, hsucc] at hr'
    cases hr'
  cases handle_cases h with
  | quiet hstate _ _ =>
      rcases hstate with heq | ⟨-, hne⟩
      · exact absurd (heq.symm.trans hsucc) hnot
      · exact absurd hsucc hne
  | @succeeded r hwork hev herr hmem _ _ _ =>
      rw [handle_receipt hwork hev herr hmem] at h
      obtain ⟨rfl, -⟩ := Prod.mk.inj (Option.some.inj h)
      refine ⟨r, hev, herr, hmem, fun hin => ?_⟩
      simpa using (List.mem_filter.mp hin).2
  | started _ hr _ _ _ =>
      rw [hsucc] at hr
      cases hr
  | retriedFailed hr hstate _ _ _ _ _ => exact absurd hstate (hretry hr)
  | retriedTimeout hr hstate _ _ _ _ _ => exact absurd hstate (hretry hr)

end FoxfireAgent

namespace FoxfireSnipe

open FoxfireTypes FoxfireAttempt MachineRun

variable {m m' : Sniper} {i : Input} {out : List Effect}

theorem handle_listens (h : handle m i = some (m', out)) :
    Listens i.uuid m.inProgress m'.inProgress (queuedActions out) := by
  cases handle_cases h with
  | quiet _ hsub hout =>
      rw [hout]
      exact .quiet hsub
  | bought _ _ hq | sold _ _ hq | retriedTimeout _ _ _ hq =>
      rw [hq.inProgress, hq.out]
      exact .queued (fun _ hu => hu) hq.uuid
  | retriedFailed _ _ _ _ hq =>
      rw [hq.inProgress, hq.out]
      exact .queued (fun _ hu => (List.mem_filter.mp hu).1) hq.uuid

/-- An error-free receipt of an action in progress ends a purchase or a sale, and is then
    done with. -/
theorem receipt_done_with {r : ExecutionReceipt} {n : Nat} (hr : m.state.retry = some n)
    (hev : i.event = receiptEvent r) (herr : r.err = none) (hmem : r.actionUuid ∈ m.inProgress)
    (h : handle m i = some (m', out)) : r.actionUuid ∉ m'.inProgress := by
  obtain ⟨htr, -, -⟩ := ready_keeps m i
  have hproc : (m.ready i).tracker.processExecutionReceipt r
      = (m.storage.tracker.drop r.actionUuid, .ok (some ())) := by
    rw [htr, ActionTracker.processExecutionReceipt, if_pos hmem, herr]
  have hleaves : ∀ success : State, success.retry = none → success ≠ .waitingToBuy →
      (m.ready i).dispatch i m.state =
        ({ m.ready i with tracker := m.storage.tracker.drop r.actionUuid }, .transition success) →
      r.actionUuid ∉ m'.inProgress := by
    intro success hnone hne hd hin
    obtain ⟨-, he⟩ := handle_transition hd h
    have htracker : m'.storage.tracker = m.storage.tracker.drop r.actionUuid := by
      cases success with
      | waitingToBuy => exact absurd rfl hne
      | waitingToSell => exact (setWhenBoughtTimer_quiet he).1
      | done | error =>
          obtain ⟨hst, -⟩ := Prod.mk.inj (Option.some.inj he)
          rw [← hst]
      | buying | selling => cases hnone
    rw [Sniper.inProgress, htracker] at hin
    simpa using (List.mem_filter.mp hin).2
  cases hs : m.state with
  | buying amt retry =>
      refine hleaves .waitingToSell rfl (fun h => by cases h) ?_
      rw [hs]
      simp only [SniperAgentState.dispatch, SniperAgentState.conditionalTransition, hev,
        attemptTransition, hproc]
  | selling amt retry =>
      refine hleaves .done rfl (fun h => by cases h) ?_
      rw [hs]
      simp only [SniperAgentState.dispatch, SniperAgentState.conditionalTransition, hev,
        attemptTransition, hproc]
  | waitingToBuy | waitingToSell | done | error =>
      rw [hs] at hr
      cases hr

/-- What ends a purchase or a sale without an error, and is then done with. -/
theorem trade_by_receipt {n : Nat} (hr : m.state.retry = some n) (hnone : m'.state.retry = none)
    (herror : ∀ msg, m'.state ≠ .error msg) (h : handle m i = some (m', out)) :
    ∃ r : ExecutionReceipt, i.event = receiptEvent r ∧ r.err = none ∧
      r.actionUuid ∈ m.inProgress ∧ r.actionUuid ∉ m'.inProgress := by
  rcases handle_turns h with ⟨target, -, htarget, hturns⟩ | ⟨-, hstay, -⟩
  · rw [htarget] at hnone herror
    cases hturns with
    | buys hs | skips hs | sells hs =>
        rw [hs] at hr
        cases hr
    | retries hr' _ =>
        rw [retried_retry hr'] at hnone
        cases hnone
    | fails => exact absurd rfl (herror _)
    | bought _ hev herr hmem | sold _ hev herr hmem =>
        exact ⟨_, hev, herr, hmem, receipt_done_with hr hev herr hmem h⟩
  · rw [hstay, hr] at hnone
    cases hnone

end FoxfireSnipe

namespace FoxfireReceiptRace

open FoxfireTypes FoxfireFeed FoxfireCache FoxfireParser FoxfireCollector NoRollback

variable {crates : Crates} {x y : System} {i : Input} {out : List BotEvent} {uuid : Uuid}
  {s : Signature}

/-- Whoever owns a signature owned it before, or was about to register it. -/
theorem owner_origin (h : step crates x i = some (y, out))
    (howner : y.cache.getUuidBySignature s = some uuid) :
    x.cache.getUuidBySignature s = some uuid ∨ (uuid, s) ∈ x.inFlight := by
  rcases (owner_step h).mp howner with rfl | ⟨hx, -⟩
  · cases step_cases h with
    | registered hsent => exact Or.inr hsent
  · exact Or.inl hx

/-- What is in flight was so before, or has just been sent. -/
theorem inFlight_origin {p : Uuid × Signature} (h : step crates x i = some (y, out))
    (hp : p ∈ y.inFlight) : p ∈ x.inFlight ∨ i = .submit p.1 p.2 := by
  cases step_cases h with
  | submitted =>
      rcases List.mem_cons.mp hp with rfl | hp
      · exact Or.inr rfl
      · exact Or.inl hp
  | registered => exact Or.inl (List.mem_of_mem_erase hp)
  | fed | refreshed => exact Or.inl hp

/-- What is behind a receipt: a transaction that is being handed on, and an action that owns
    its signature. -/
theorem receipt_origin {r : ExecutionReceipt} (h : step crates x i = some (y, out))
    (hmem : r ∈ out.filterMap receiptIn) :
    ∃ now upd tx, i = .feed now (.transaction upd) ∧ TransactionPretty.ofUpdate upd = some tx ∧
      x.cache.getUuidBySignature tx.signature = some r.actionUuid ∧
      r.transactionSignature = tx.signature ∧ r.err = tx.tx.statusMeta.bind (·.err) := by
  obtain ⟨ev, hev, hr⟩ := List.mem_filterMap.mp hmem
  cases step_cases h with
  | submitted | registered | refreshed => cases hev
  | @fed now e =>
      cases hcall : exec (onFeedEvent crates .live now e) x.cache with
      | mk result c =>
          rw [hcall] at hev
          cases result with
          | error stop => cases hev
          | ok events =>
              cases e with
              | txStatusUpdate status => cases hcall
              | account acc =>
                  have hnone := parseAccount_noReceipts acc x.cache events c hcall ev hev
                  rw [hr] at hnone
                  cases hnone
              | transaction upd =>
                  obtain ⟨tx, htx, howner, rfl⟩ := parseTransaction_receipts hcall hev hr
                  have heq := (Option.some.inj hr).symm
                  exact ⟨now, upd, tx, rfl, htx, howner,
                    congrArg ExecutionReceipt.transactionSignature heq,
                    congrArg ExecutionReceipt.err heq⟩

/-- It had not been handed on before. -/
theorem receipt_new {r : ExecutionReceipt} (h : step crates x i = some (y, out))
    (hr : r ∈ out.filterMap receiptIn) :
    r.transactionSignature ∉ x.delivered ∧ r.transactionSignature ∈ y.delivered := by
  obtain ⟨ev, hev, hr⟩ := List.mem_filterMap.mp hr
  exact step_receipts h hev ⟨r, hr, rfl, rfl⟩

/-- A step emits receipts of one action. -/
theorem receipts_agree {r r' : ExecutionReceipt} (h : step crates x i = some (y, out))
    (hr : r ∈ out.filterMap receiptIn) (hr' : r' ∈ out.filterMap receiptIn) :
    r.actionUuid = r'.actionUuid := by
  obtain ⟨now, upd, tx, hi, htx, howner, -, -⟩ := receipt_origin h hr
  obtain ⟨now', upd', tx', hi', htx', howner', -, -⟩ := receipt_origin h hr'
  obtain ⟨-, hupd⟩ := Input.feed.inj (hi.symm.trans hi')
  obtain rfl := GeyserFeedEvent.transaction.inj hupd
  obtain rfl := Option.some.inj (htx.symm.trans htx')
  exact Option.some.inj (howner.symm.trans howner')

end FoxfireReceiptRace

namespace FoxfireConfirm

open FoxfireTypes FoxfireAttempt FoxfireFeed FoxfireCache FoxfireParser FoxfireCollector
open FoxfireExecutor FoxfireExecuteTx NoRollback MachineRun

-- ── Workers ─────────────────────────────────────────────────────────────────

/-- Who waits for the receipts of its own actions. -/
inductive Worker where
  /-- An agent of a volume strategy or a sweeper. -/
  | agent (m : FoxfireAgent.Agent)
  | snipe (m : FoxfireSnipe.Sniper)

inductive WorkerInput where
  | agent (i : FoxfireAgent.Input)
  | snipe (i : FoxfireSnipe.Input)

def WorkerInput.event : WorkerInput → SolanaStrategyEvent
  | .agent i => i.event
  | .snipe i => i.event

def WorkerInput.uuid : WorkerInput → Uuid
  | .agent i => i.uuid
  | .snipe i => i.uuid

def Worker.inProgress : Worker → List Uuid
  | .agent m => m.inProgress
  | .snipe m => m.inProgress

/-- One event: the worker after it, and the actions that it has queued. -/
def Worker.handle : Worker → WorkerInput → Option (Worker × List SolanaAction)
  | .agent m, .agent i =>
      (FoxfireAgent.handle m i).map fun p => (.agent p.1, FoxfireAgent.queuedActions p.2)
  | .snipe m, .snipe i =>
      (FoxfireSnipe.handle m i).map fun p => (.snipe p.1, FoxfireSnipe.queuedActions p.2)
  | _, _ => none

/-- The step counts a command as done, or a purchase or a sale. -/
def Worker.movesOn : Worker → Worker → Bool
  | .agent m, .agent m' => m.state ≠ .success ∧ m'.state = .success
  | .snipe m, .snipe m' =>
      (FoxfireSnipe.isBuying m.state && m'.state = .waitingToSell) ||
        (FoxfireSnipe.isSelling m.state && m'.state = .done)
  | _, _ => false

theorem Worker.handle_cases {w w' : Worker} {i : WorkerInput} {queued : List SolanaAction}
    (h : w.handle i = some (w', queued)) :
    (∃ m j m' out, w = .agent m ∧ i = .agent j ∧ w' = .agent m' ∧
      FoxfireAgent.handle m j = some (m', out) ∧ queued = FoxfireAgent.queuedActions out) ∨
    ∃ m j m' out, w = .snipe m ∧ i = .snipe j ∧ w' = .snipe m' ∧
      FoxfireSnipe.handle m j = some (m', out) ∧ queued = FoxfireSnipe.queuedActions out := by
  cases w with
  | agent m =>
      cases i with
      | agent j =>
          obtain ⟨⟨m', out⟩, hm, heq⟩ := Option.map_eq_some_iff.mp h
          obtain ⟨rfl, rfl⟩ := Prod.mk.inj heq
          exact Or.inl ⟨m, j, m', out, rfl, rfl, rfl, hm, rfl⟩
      | snipe j => cases h
  | snipe m =>
      cases i with
      | agent j => cases h
      | snipe j =>
          obtain ⟨⟨m', out⟩, hm, heq⟩ := Option.map_eq_some_iff.mp h
          obtain ⟨rfl, rfl⟩ := Prod.mk.inj heq
          exact Or.inr ⟨m, j, m', out, rfl, rfl, rfl, hm, rfl⟩

theorem Worker.handle_listens {w w' : Worker} {i : WorkerInput} {queued : List SolanaAction}
    (h : w.handle i = some (w', queued)) :
    Listens i.uuid w.inProgress w'.inProgress queued := by
  rcases Worker.handle_cases h with
    ⟨m, j, m', out, rfl, rfl, rfl, hm, rfl⟩ | ⟨m, j, m', out, rfl, rfl, rfl, hm, rfl⟩
  · exact FoxfireAgent.handle_listens hm
  · exact FoxfireSnipe.handle_listens hm

/-- **A WORKER MOVES ON WITH A RECEIPT** of an action that it has in progress, and the
    receipt is good for one move. -/
theorem Worker.moves_by_receipt {w w' : Worker} {i : WorkerInput} {queued : List SolanaAction}
    (h : w.handle i = some (w', queued)) (hmoved : w.movesOn w' = true) :
    ∃ r : ExecutionReceipt, i.event = receiptEvent r ∧ r.err = none ∧
      r.actionUuid ∈ w.inProgress ∧ r.actionUuid ∉ w'.inProgress := by
  rcases Worker.handle_cases h with
    ⟨m, j, m', out, rfl, rfl, rfl, hm, -⟩ | ⟨m, j, m', out, rfl, rfl, rfl, hm, -⟩
  · obtain ⟨hnot, hsucc⟩ := of_decide_eq_true hmoved
    exact FoxfireAgent.success_by_receipt hm hnot hsucc
  · simp only [Worker.movesOn, Bool.or_eq_true, Bool.and_eq_true, decide_eq_true_eq] at hmoved
    rcases hmoved with ⟨hbuying, hs⟩ | ⟨hselling, hs⟩
    · obtain ⟨n, hr⟩ := FoxfireSnipe.retry_of_isBuying hbuying
      refine FoxfireSnipe.trade_by_receipt hr ?_ ?_ hm
      · rw [hs]
        rfl
      · rw [hs]
        exact fun _ h => by cases h
    · obtain ⟨amt, n, hfrom⟩ := FoxfireSnipe.selling_of_isSelling hselling
      refine FoxfireSnipe.trade_by_receipt (n := n) ?_ ?_ ?_ hm
      · rw [hfrom]
        rfl
      · rw [hs]
        rfl
      · rw [hs]
        exact fun _ h => by cases h

-- ── The bot ─────────────────────────────────────────────────────────────────

structure Bot where
  workers  : List Worker
  /-- The actions sent so far, each with the worker that queued it, if one did. -/
  sent     : List (Option Nat × SolanaAction)
  /-- The calls of `execute` that have sent a transaction, the cache and the feed. -/
  network  : FoxfireReceiptRace.System
  /-- The receipts that the collector has emitted. -/
  receipts : List ExecutionReceipt

/-- What a worker has queued. -/
def Bot.own (b : Bot) (k : Nat) : List SolanaAction :=
  b.sent.filterMap fun p => if p.1 = some k then some p.2 else none

def Bot.uuids (b : Bot) : List Uuid := b.sent.map fun p => p.2.uuid

/-- An event that a worker can be given: a receipt comes from the collector. -/
def Bot.offers (b : Bot) : SolanaStrategyEvent → Bool
  | .original (.blockchainEvent (.executionReceipt r)) => b.receipts.contains r
  | _                                                  => true

inductive Input where
  /-- A strategy starts an agent, or a snipe. -/
  | newAgent (pool : RaydiumPool) (key : Keypair) (strategyIdOpt : Option StrategyId)
      (mainWallet : Option Keypair) (now : Instant)
  | newSnipe (pool : RaydiumPool) (key : Keypair) (inst : FoxfireSnipe.SnipingStrategyInstance)
      (deployPrice : RaydiumPoolPriceUpdate) (now : Instant)
  /-- A worker handles an event. -/
  | work (k : Nat) (i : WorkerInput)
  /-- The deposit strategy, which has no agents, returns an action. -/
  | pay (action : SolanaAction)
  /-- A call of `execute`, until `execute_tx` returns. -/
  | execute (env : Env) (action : SolanaAction)
  /-- Such a call goes on: `add_agent_tx`. -/
  | register (uuid : Uuid) (s : Signature)
  /-- The collector handles an event of the feed. -/
  | feed (now : Instant) (e : GeyserFeedEvent)
  /-- Other tasks rewrite what is known about pools and prices. -/
  | refresh (pools : Pubkey → Option RaydiumPool)
      (prices : Pubkey → Option RaydiumPoolPriceUpdate)

/-- What `execute_tx` returns to a call of `execute`, if it gets that far. -/
def signatureSent (env : Env) (action : SolanaAction) : Option Signature :=
  (env.submits action).bind fun p => env.send action p.1 p.2

/-- A step of the executor, the cache and the feed. -/
def Bot.onNetwork (crates : Crates) (b : Bot) (j : FoxfireReceiptRace.Input) :
    Option (Bot × List (Nat × SolanaStrategyEvent)) :=
  (FoxfireReceiptRace.step crates b.network j).map fun p =>
    ({ b with network := p.1, receipts := b.receipts ++ p.2.filterMap receiptIn }, [])

/-- One step; its output says which worker moves on, and with which event.  `sign` is the
    signature of a message under a list of keys. -/
def step (sign : Message → List Keypair → Signature) (crates : Crates) :
    Step Bot Input (Nat × SolanaStrategyEvent) := fun b i =>
  match i with
  | .newAgent pool key sid mainWallet now =>
      some ({ b with workers := b.workers ++ [.agent (.new pool key sid mainWallet now)] }, [])
  | .newSnipe pool key inst deployPrice now =>
      some ({ b with workers := b.workers ++ [.snipe (.new pool key inst deployPrice now)] }, [])
  | .work k i =>
      if i.uuid ∉ b.uuids ∧ b.offers i.event = true then do
        let w ← b.workers[k]?
        let (w', queued) ← w.handle i
        some ({ b with
          workers := b.workers.set k w'
          sent := b.sent ++ queued.map (some k, ·) },
          if w.movesOn w' then [(k, i.event)] else [])
      else none
  | .pay action =>
      if action.uuid ∉ b.uuids then some ({ b with sent := b.sent ++ [(none, action)] }, [])
      else none
  | .execute env action =>
      if action ∈ b.sent.map Prod.snd then
        match signatureSent { env with sign := sign } action with
        | none   => some (b, [])
        | some s => b.onNetwork crates (.submit action.uuid s)
      else none
  | .register uuid s      => b.onNetwork crates (.register uuid s)
  | .feed now e           => b.onNetwork crates (.feed now e)
  | .refresh pools prices => b.onNetwork crates (.refresh pools prices)

/-- The bot has just started. -/
def start (pools : Pubkey → Option RaydiumPool)
    (prices : Pubkey → Option RaydiumPoolPriceUpdate) : Bot where
  workers := []
  sent := []
  network := FoxfireReceiptRace.start pools prices
  receipts := []

variable {sign : Message → List Keypair → Signature} {crates : Crates} {b b' : Bot} {i : Input}
  {out : List (Nat × SolanaStrategyEvent)}

/-- A step, by what it may change. -/
inductive Stepped (sign : Message → List Keypair → Signature) (crates : Crates) (b : Bot)
    (i : Input) : Bot → List (Nat × SolanaStrategyEvent) → Prop where
  | joined {w : Worker} (hnew : w.inProgress = []) :
      Stepped sign crates b i { b with workers := b.workers ++ [w] } []
  | worked {k : Nat} {j : WorkerInput} {w w' : Worker} {queued : List SolanaAction}
      (hworker : b.workers[k]? = some w) (hfresh : j.uuid ∉ b.uuids)
      (hoffered : b.offers j.event = true) (h : w.handle j = some (w', queued)) :
      Stepped sign crates b i
        { b with
          workers := b.workers.set k w'
          sent := b.sent ++ queued.map (some k, ·) }
        (if w.movesOn w' then [(k, j.event)] else [])
  | paid {action : SolanaAction} (hfresh : action.uuid ∉ b.uuids) :
      Stepped sign crates b i { b with sent := b.sent ++ [(none, action)] } []
  | silent : Stepped sign crates b i b []
  | networked {j : FoxfireReceiptRace.Input} {x : FoxfireReceiptRace.System}
      {events : List BotEvent}
      (h : FoxfireReceiptRace.step crates b.network j = some (x, events))
      (hsubmit : ∀ uuid s, j = .submit uuid s → ∃ env action, i = .execute env action ∧
        action ∈ b.sent.map Prod.snd ∧ action.uuid = uuid ∧
        signatureSent { env with sign := sign } action = some s)
      (hfeed : ∀ now e, j = .feed now e → i = .feed now e) :
      Stepped sign crates b i
        { b with network := x, receipts := b.receipts ++ events.filterMap receiptIn } []

/-- **INVERSION**: a step is one of these. -/
theorem step_cases (h : step sign crates b i = some (b', out)) :
    Stepped sign crates b i b' out := by
  have hnetwork : ∀ {j : FoxfireReceiptRace.Input},
      b.onNetwork crates j = some (b', out) →
      (∀ uuid s, j = .submit uuid s → ∃ env action, i = .execute env action ∧
        action ∈ b.sent.map Prod.snd ∧ action.uuid = uuid ∧
        signatureSent { env with sign := sign } action = some s) →
      (∀ now e, j = .feed now e → i = .feed now e) → Stepped sign crates b i b' out := by
    intro j hj hsubmit hfeed
    obtain ⟨⟨x, events⟩, hstep, heq⟩ := Option.map_eq_some_iff.mp hj
    obtain ⟨rfl, rfl⟩ := Prod.mk.inj heq
    exact .networked hstep hsubmit hfeed
  cases i with
  | newAgent | newSnipe =>
      obtain ⟨rfl, rfl⟩ := Prod.mk.inj (Option.some.inj h)
      exact .joined rfl
  | work k j =>
      simp only [step] at h
      split at h
      · next hguard =>
          obtain ⟨w, hw, h⟩ := Option.bind_eq_some_iff.mp h
          obtain ⟨⟨w', queued⟩, hhandle, h⟩ := Option.bind_eq_some_iff.mp h
          obtain ⟨rfl, rfl⟩ := Prod.mk.inj (Option.some.inj h)
          exact .worked hw hguard.1 hguard.2 hhandle
      · cases h
  | pay action =>
      simp only [step] at h
      split at h
      · next hfresh =>
          obtain ⟨rfl, rfl⟩ := Prod.mk.inj (Option.some.inj h)
          exact .paid hfresh
      · cases h
  | execute env action =>
      simp only [step] at h
      split at h
      · next hsent =>
          split at h
          · obtain ⟨rfl, rfl⟩ := Prod.mk.inj (Option.some.inj h)
            exact .silent
          · next s hs =>
              refine hnetwork h (fun uuid s' heq => ?_) (fun _ _ heq => by cases heq)
              obtain ⟨rfl, rfl⟩ := FoxfireReceiptRace.Input.submit.inj heq
              exact ⟨env, action, rfl, hsent, rfl, hs⟩
      · cases h
  | register | refresh =>
      exact hnetwork h (fun _ _ heq => by cases heq) (fun _ _ heq => by cases heq)
  | feed now e =>
      refine hnetwork h (fun _ _ heq => by cases heq) (fun now' e' heq => ?_)
      obtain ⟨rfl, rfl⟩ := FoxfireReceiptRace.Input.feed.inj heq
      rfl

-- ── What is behind a receipt ────────────────────────────────────────────────

/-- A call of `execute` has made a transaction for the action that has the uuid; the
    signature is that of the transaction. -/
inductive Executed (sign : Message → List Keypair → Signature) (past : List Input)
    (actions : List SolanaAction) (uuid : Uuid) (s : Signature) : Prop where
  | intro {env : Env} {action : SolanaAction} {hash : Hash} {itxs : List Instruction}
      (hcall : .execute env action ∈ past) (haction : action ∈ actions)
      (huuid : action.uuid = uuid) (hitxs : env.submits action = some (hash, itxs))
      (hsig : s = (signTransaction sign hash action.sniper action.feePayer itxs).signature)

/-- The receipt is that of a transaction that was made for one of the actions, and that the
    feed has handed on since. -/
inductive Confirmed (sign : Message → List Keypair → Signature) (past : List Input)
    (actions : List SolanaAction) (r : ExecutionReceipt) : Prop where
  | intro {before later : List Input} {now : Instant} {upd : SubscribeUpdateTransaction}
      {tx : TransactionPretty} (hpast : past = before ++ .feed now (.transaction upd) :: later)
      (hexec : Executed sign before actions r.actionUuid r.transactionSignature)
      (htx : TransactionPretty.ofUpdate upd = some tx)
      (hsig : tx.signature = r.transactionSignature)
      (herr : tx.tx.statusMeta.bind (·.err) = r.err)

theorem Executed.mono {past past' : List Input} {actions actions' : List SolanaAction}
    {uuid : Uuid} {s : Signature} (h : Executed sign past actions uuid s)
    (hpast : past ⊆ past') (hactions : actions ⊆ actions') :
    Executed sign past' actions' uuid s := by
  obtain ⟨hcall, haction, huuid, hitxs, hsig⟩ := h
  exact .intro (hpast hcall) (hactions haction) huuid hitxs hsig

theorem Confirmed.mono {past : List Input} {actions actions' : List SolanaAction}
    {r : ExecutionReceipt} (h : Confirmed sign past actions r) (i : Input)
    (hactions : actions ⊆ actions') : Confirmed sign (past ++ [i]) actions' r := by
  obtain ⟨rfl, hexec, htx, hsig, herr⟩ := h
  exact .intro (List.append_assoc ..) (hexec.mono (List.Subset.refl _) hactions) htx hsig herr

/-- The signature that a call is returned is the one of its transaction. -/
theorem signatureSent_eq_some {env : Env} {action : SolanaAction} {s : Signature}
    (h : signatureSent { env with sign := sign } action = some s) :
    ∃ hash itxs, env.submits action = some (hash, itxs) ∧
      s = (signTransaction sign hash action.sniper action.feePayer itxs).signature := by
  obtain ⟨⟨hash, itxs⟩, hsubmits, hsend⟩ := Option.bind_eq_some_iff.mp h
  exact ⟨hash, itxs, hsubmits, selectLoop_signature hsend⟩

-- ── The books of the network ────────────────────────────────────────────────

abbrev Bot.actions (b : Bot) : List SolanaAction := b.sent.map Prod.snd

/-- Behind every signature that is on its way or registered, and every receipt, is what it
    says. -/
structure Traced (sign : Message → List Keypair → Signature) (past : List Input) (b : Bot) :
    Prop where
  inFlight  : ∀ p ∈ b.network.inFlight, Executed sign past b.actions p.1 p.2
  owned     : ∀ uuid s, b.network.cache.getUuidBySignature s = some uuid →
    Executed sign past b.actions uuid s
  delivered : ∀ r ∈ b.receipts, r.transactionSignature ∈ b.network.delivered
  confirmed : ∀ r ∈ b.receipts, Confirmed sign past b.actions r
  /-- One transaction has receipts of one action. -/
  once      : ∀ r ∈ b.receipts, ∀ r' ∈ b.receipts,
    r.transactionSignature = r'.transactionSignature → r.actionUuid = r'.actionUuid

theorem traced_start (pools : Pubkey → Option RaydiumPool)
    (prices : Pubkey → Option RaydiumPoolPriceUpdate) : Traced sign [] (start pools prices) where
  inFlight _ hp := absurd hp List.not_mem_nil
  owned _ _ howner := by cases howner
  delivered _ hr := absurd hr List.not_mem_nil
  confirmed _ hr := absurd hr List.not_mem_nil
  once _ hr := absurd hr List.not_mem_nil

/-- More may be sent. -/
theorem Traced.grows {past : List Input} {i : Input} {workers : List Worker}
    {sent : List (Option Nat × SolanaAction)} (h : Traced sign past b) (hsent : b.sent ⊆ sent) :
    Traced sign (past ++ [i]) { b with workers := workers, sent := sent } where
  inFlight p hp := (h.inFlight p hp).mono (List.subset_append_left ..) (List.map_subset _ hsent)
  owned uuid s howner :=
    (h.owned uuid s howner).mono (List.subset_append_left ..) (List.map_subset _ hsent)
  delivered := h.delivered
  confirmed r hr := (h.confirmed r hr).mono i (List.map_subset _ hsent)
  once := h.once

theorem Traced.networked {past : List Input} {i : Input} {j : FoxfireReceiptRace.Input}
    {x : FoxfireReceiptRace.System} {events : List BotEvent} (h : Traced sign past b)
    (hstep : FoxfireReceiptRace.step crates b.network j = some (x, events))
    (hsubmit : ∀ uuid s, j = .submit uuid s → ∃ env action, i = .execute env action ∧
      action ∈ b.actions ∧ action.uuid = uuid ∧
      signatureSent { env with sign := sign } action = some s)
    (hfeed : ∀ now e, j = .feed now e → i = .feed now e) :
    Traced sign (past ++ [i])
      { b with network := x, receipts := b.receipts ++ events.filterMap receiptIn } := by
  have hlater : ∀ {uuid s}, Executed sign past b.actions uuid s →
      Executed sign (past ++ [i]) b.actions uuid s :=
    fun he => he.mono (List.subset_append_left ..) (List.Subset.refl _)
  refine ⟨fun p hp => ?_, fun uuid s howner => ?_, fun r hr => ?_, fun r hr => ?_,
    fun r hr r' hr' hsig => ?_⟩
  · rcases FoxfireReceiptRace.inFlight_origin hstep hp with hp | hj
    · exact hlater (h.inFlight p hp)
    · obtain ⟨env, action, rfl, haction, huuid, hs⟩ := hsubmit _ _ hj
      obtain ⟨hash, itxs, hitxs, hsig⟩ := signatureSent_eq_some hs
      exact .intro (List.mem_append_right _ List.mem_cons_self) haction huuid hitxs hsig
  · rcases FoxfireReceiptRace.owner_origin hstep howner with hx | hp
    · exact hlater (h.owned uuid s hx)
    · exact hlater (h.inFlight _ hp)
  · rcases List.mem_append.mp hr with hr | hr
    · exact FoxfireReceiptRace.delivered_step hstep (h.delivered r hr)
    · exact (FoxfireReceiptRace.receipt_new hstep hr).2
  · rcases List.mem_append.mp hr with hr | hr
    · exact (h.confirmed r hr).mono i (List.Subset.refl _)
    · obtain ⟨now, upd, tx, hj, htx, howner, hsig, herr⟩ :=
        FoxfireReceiptRace.receipt_origin hstep hr
      obtain rfl := hfeed _ _ hj
      exact .intro rfl (hsig ▸ h.owned _ _ howner) htx hsig.symm herr.symm
  · rcases List.mem_append.mp hr with hr | hr
    · rcases List.mem_append.mp hr' with hr' | hr'
      · exact h.once r hr r' hr' hsig
      · exact absurd (hsig ▸ h.delivered r hr) (FoxfireReceiptRace.receipt_new hstep hr').1
    · rcases List.mem_append.mp hr' with hr' | hr'
      · exact absurd (hsig ▸ h.delivered r' hr') (FoxfireReceiptRace.receipt_new hstep hr).1
      · exact FoxfireReceiptRace.receipts_agree hstep hr hr'

-- ── The books of the workers ────────────────────────────────────────────────

theorem mem_own {k : Nat} {a : SolanaAction} : a ∈ b.own k ↔ (some k, a) ∈ b.sent := by
  rw [Bot.own, List.mem_filterMap]
  constructor
  · rintro ⟨⟨k', a'⟩, hp, heq⟩
    split at heq
    · next hk =>
        obtain rfl := Option.some.inj heq
        rwa [← show k' = some k from hk]
    · cases heq
  · intro hp
    exact ⟨_, hp, if_pos rfl⟩

/-- A worker listens for actions of its own, and no more for those that it has moved on
    with; each move was due to a receipt, no two to receipts of one action. -/
structure Tidy (moves : List (Nat × SolanaStrategyEvent)) (b : Bot) : Prop where
  unique  : b.uuids.Nodup
  listens : ∀ k w, b.workers[k]? = some w → ∀ u ∈ w.inProgress,
    ∃ a, (some k, a) ∈ b.sent ∧ a.uuid = u
  done    : ∀ k w, b.workers[k]? = some w → ∀ r, (k, receiptEvent r) ∈ moves →
    r.actionUuid ∉ w.inProgress
  moved   : ∀ m ∈ moves, ∃ r ∈ b.receipts, m.2 = receiptEvent r ∧ r.err = none ∧
    ∃ a, (some m.1, a) ∈ b.sent ∧ a.uuid = r.actionUuid
  apart   : moves.Pairwise fun m m' => ∀ r r', m.2 = receiptEvent r → m'.2 = receiptEvent r' →
    r.actionUuid ≠ r'.actionUuid

theorem tidy_start (pools : Pubkey → Option RaydiumPool)
    (prices : Pubkey → Option RaydiumPoolPriceUpdate) : Tidy [] (start pools prices) where
  unique := List.nodup_nil
  listens _ _ hw := by cases hw
  done _ _ hw := by cases hw
  moved _ hm := absurd hm List.not_mem_nil
  apart := .nil

/-- A uuid belongs to one worker. -/
theorem sender_unique (h : b.uuids.Nodup) {k k' : Option Nat} {a a' : SolanaAction}
    (ha : (k, a) ∈ b.sent) (ha' : (k', a') ∈ b.sent) (huuid : a.uuid = a'.uuid) :
    (k, a) = (k', a') :=
  List.inj_on_of_nodup_map h ha ha' huuid

theorem nodup_sent {new : List (Option Nat × SolanaAction)} (h : b.uuids.Nodup)
    (hnew : (new.map fun p => p.2.uuid).Nodup) (hfresh : ∀ p ∈ new, p.2.uuid ∉ b.uuids) :
    ((b.sent ++ new).map fun p => p.2.uuid).Nodup := by
  rw [List.map_append]
  refine List.nodup_append.mpr ⟨h, hnew, fun u hu v hv huv => ?_⟩
  obtain ⟨p, hp, rfl⟩ := List.mem_map.mp hv
  exact hfresh p hp (huv ▸ hu)

variable {moves : List (Nat × SolanaStrategyEvent)}

theorem Tidy.joined (h : Tidy moves b) {w : Worker} (hnew : w.inProgress = []) :
    Tidy moves { b with workers := b.workers ++ [w] } := by
  have hold : ∀ (k : Nat) (w' : Worker), (b.workers ++ [w])[k]? = some w' →
      b.workers[k]? = some w' ∨ w'.inProgress = [] := by
    intro k w' hw'
    rw [List.getElem?_append] at hw'
    split at hw'
    · exact Or.inl hw'
    · obtain rfl := List.mem_singleton.mp (List.mem_of_getElem? hw')
      exact Or.inr hnew
  refine ⟨h.unique, fun k w' hw' u hu => ?_, fun k w' hw' r hr hu => ?_, h.moved, h.apart⟩
  · rcases hold k w' hw' with hw' | hnil
    · exact h.listens k w' hw' u hu
    · rw [hnil] at hu
      cases hu
  · rcases hold k w' hw' with hw' | hnil
    · exact h.done k w' hw' r hr hu
    · rw [hnil] at hu
      cases hu

theorem Tidy.paid (h : Tidy moves b) {action : SolanaAction} (hfresh : action.uuid ∉ b.uuids) :
    Tidy moves { b with sent := b.sent ++ [(none, action)] } where
  unique := nodup_sent h.unique (List.nodup_singleton _) fun p hp => by
    rwa [List.mem_singleton.mp hp]
  listens k w hw u hu := by
    obtain ⟨a, ha, huuid⟩ := h.listens k w hw u hu
    exact ⟨a, List.mem_append_left _ ha, huuid⟩
  done := h.done
  moved m hm := by
    obtain ⟨r, hr, hev, herr, a, ha, huuid⟩ := h.moved m hm
    exact ⟨r, hr, hev, herr, a, List.mem_append_left _ ha, huuid⟩
  apart := h.apart

theorem Tidy.networked (h : Tidy moves b) (x : FoxfireReceiptRace.System)
    (new : List ExecutionReceipt) :
    Tidy moves { b with network := x, receipts := b.receipts ++ new } where
  unique := h.unique
  listens := h.listens
  done := h.done
  moved m hm := by
    obtain ⟨r, hr, hrest⟩ := h.moved m hm
    exact ⟨r, List.mem_append_left _ hr, hrest⟩
  apart := h.apart

theorem getElem?_set_cases {α : Type} {l : List α} {k k' : Nat} {x y : α}
    (h : (l.set k x)[k']? = some y) : (k' = k ∧ y = x) ∨ (k' ≠ k ∧ l[k']? = some y) := by
  rw [List.getElem?_set] at h
  split at h
  · next hk =>
      split at h
      · exact Or.inl ⟨hk.symm, (Option.some.inj h).symm⟩
      · cases h
  · next hk => exact Or.inr ⟨fun heq => hk heq.symm, h⟩

section

variable {k : Nat} {j : WorkerInput} {w w' : Worker} {queued : List SolanaAction}

/-- What a worker moves on with, if it does. -/
theorem move_cases (hoffered : b.offers j.event = true)
    (hhandle : w.handle j = some (w', queued)) {m : Nat × SolanaStrategyEvent}
    (hm : m ∈ (if w.movesOn w' then [(k, j.event)] else [])) :
    ∃ r ∈ b.receipts, m = (k, receiptEvent r) ∧ r.err = none ∧ r.actionUuid ∈ w.inProgress ∧
      r.actionUuid ∉ w'.inProgress := by
  split at hm
  · next hmoved =>
      obtain ⟨r, hev, herr, hin, hout⟩ := Worker.moves_by_receipt hhandle hmoved
      rw [hev] at hoffered hm
      exact ⟨r, by simpa [Bot.offers] using hoffered, List.mem_singleton.mp hm, herr, hin, hout⟩
  · cases hm

theorem Tidy.unique_worked (h : Tidy moves b) (hfresh : j.uuid ∉ b.uuids)
    (hhandle : w.handle j = some (w', queued)) :
    ((b.sent ++ queued.map (some k, ·)).map fun p => p.2.uuid).Nodup := by
  have hlistens := Worker.handle_listens hhandle
  have hnew : ((queued.map (some k, ·)).map fun p => p.2.uuid).Nodup := by
    rw [List.map_map]
    exact hlistens.nodup
  refine nodup_sent h.unique hnew fun p hp => ?_
  obtain ⟨a, ha, rfl⟩ := List.mem_map.mp hp
  rwa [hlistens.fresh a ha]

/-- What the worker listens for afterwards is not what it moved on with, before or now. -/
theorem Tidy.done_worked (h : Tidy moves b) (hworker : b.workers[k]? = some w)
    (hfresh : j.uuid ∉ b.uuids) (hoffered : b.offers j.event = true)
    (hhandle : w.handle j = some (w', queued)) {r : ExecutionReceipt}
    (hr : (k, receiptEvent r) ∈ moves ++ if w.movesOn w' then [(k, j.event)] else []) :
    r.actionUuid ∉ w'.inProgress := by
  have hlistens := Worker.handle_listens hhandle
  intro hu
  rcases List.mem_append.mp hr with hr | hr
  · rcases hlistens.heard _ hu with hu | ⟨a, ha, huuid⟩
    · exact h.done k w hworker r hr hu
    · -- the uuid is new, and the action of an earlier move is not
      obtain ⟨r', -, hev, -, a', ha', huuid'⟩ := h.moved _ hr
      cases hev
      refine hfresh (List.mem_map.mpr ⟨_, ha', ?_⟩)
      rw [huuid', ← huuid, hlistens.fresh a ha]
  · obtain ⟨r', -, heq, -, -, hout⟩ := move_cases hoffered hhandle hr
    cases heq
    exact hout hu

/-- Nobody has moved on with what the worker listens for. -/
theorem Tidy.not_moved (h : Tidy moves b) (hworker : b.workers[k]? = some w)
    {r : ExecutionReceipt} (hin : r.actionUuid ∈ w.inProgress) {m : Nat × SolanaStrategyEvent}
    (hm : m ∈ moves) {r' : ExecutionReceipt} (hr' : m.2 = receiptEvent r') :
    r'.actionUuid ≠ r.actionUuid := by
  intro huuid
  obtain ⟨s, -, hev, -, a, ha, hs⟩ := h.moved m hm
  obtain ⟨a', ha', hr⟩ := h.listens k w hworker _ hin
  cases hr'.symm.trans hev
  -- both actions have the uuid, so they are one
  have hone := sender_unique h.unique ha ha' (hs.trans (huuid.trans hr.symm))
  refine h.done k w hworker r' ?_ (huuid ▸ hin)
  rw [← hr', ← Option.some.inj (congrArg Prod.fst hone)]
  exact hm

/-- **A WORKER HANDLES AN EVENT.** -/
theorem Tidy.worked (h : Tidy moves b) (hworker : b.workers[k]? = some w)
    (hfresh : j.uuid ∉ b.uuids) (hoffered : b.offers j.event = true)
    (hhandle : w.handle j = some (w', queued)) :
    Tidy (moves ++ if w.movesOn w' then [(k, j.event)] else [])
      { b with
        workers := b.workers.set k w'
        sent := b.sent ++ queued.map (some k, ·) } := by
  have hsent : ∀ {p}, p ∈ b.sent → p ∈ b.sent ++ queued.map (some k, ·) :=
    fun hp => List.mem_append_left _ hp
  refine ⟨h.unique_worked hfresh hhandle, fun k' w'' hw'' u hu => ?_,
    fun k' w'' hw'' r hr => ?_, fun m hm => ?_, ?_⟩
  · rcases getElem?_set_cases hw'' with ⟨rfl, rfl⟩ | ⟨-, hw''⟩
    · rcases (Worker.handle_listens hhandle).heard u hu with hu | ⟨a, ha, huuid⟩
      · obtain ⟨a, ha, huuid⟩ := h.listens k' w hworker u hu
        exact ⟨a, hsent ha, huuid⟩
      · exact ⟨a, List.mem_append_right _ (List.mem_map_of_mem ha), huuid⟩
    · obtain ⟨a, ha, huuid⟩ := h.listens k' w'' hw'' u hu
      exact ⟨a, hsent ha, huuid⟩
  · rcases getElem?_set_cases hw'' with ⟨rfl, rfl⟩ | ⟨hne, hw''⟩
    · exact h.done_worked hworker hfresh hoffered hhandle hr
    · rcases List.mem_append.mp hr with hr | hr
      · exact h.done k' w'' hw'' r hr
      · obtain ⟨r', -, heq, -⟩ := move_cases hoffered hhandle hr
        exact absurd (congrArg Prod.fst heq) hne
  · rcases List.mem_append.mp hm with hm | hm
    · obtain ⟨r, hr, hev, herr, a, ha, huuid⟩ := h.moved m hm
      exact ⟨r, hr, hev, herr, a, hsent ha, huuid⟩
    · obtain ⟨r, hr, rfl, herr, hin, -⟩ := move_cases hoffered hhandle hm
      obtain ⟨a, ha, huuid⟩ := h.listens k w hworker _ hin
      exact ⟨r, hr, rfl, herr, a, hsent ha, huuid⟩
  · refine List.pairwise_append.mpr ⟨h.apart, ?_, fun m hm m' hm' r r' hr hr' => ?_⟩
    · split
      · exact List.pairwise_singleton _ _
      · exact .nil
    · obtain ⟨s, -, rfl, -, hin, -⟩ := move_cases hoffered hhandle hm'
      cases hr'
      exact h.not_moved hworker hin hm hr

end

-- ── Runs ────────────────────────────────────────────────────────────────────

structure Sound (sign : Message → List Keypair → Signature) (past : List Input)
    (moves : List (Nat × SolanaStrategyEvent)) (b : Bot) : Prop where
  traced : Traced sign past b
  tidy   : Tidy moves b

theorem Sound.step {past : List Input} (hsound : Sound sign past moves b)
    (h : step sign crates b i = some (b', out)) :
    Sound sign (past ++ [i]) (moves ++ out) b' := by
  have hgrows : ∀ workers : List Worker,
      Traced sign (past ++ [i]) { b with workers := workers, sent := b.sent } :=
    fun workers => hsound.traced.grows (List.Subset.refl _)
  cases step_cases h with
  | joined hnew =>
      rw [List.append_nil]
      exact ⟨hgrows _, hsound.tidy.joined hnew⟩
  | worked hworker hfresh hoffered hhandle =>
      exact ⟨hsound.traced.grows (List.subset_append_left ..),
        hsound.tidy.worked hworker hfresh hoffered hhandle⟩
  | paid hfresh =>
      rw [List.append_nil]
      exact ⟨hsound.traced.grows (List.subset_append_left ..), hsound.tidy.paid hfresh⟩
  | silent =>
      rw [List.append_nil]
      exact ⟨hgrows b.workers, hsound.tidy⟩
  | networked hstep hsubmit hfeed =>
      rw [List.append_nil]
      exact ⟨hsound.traced.networked hstep hsubmit hfeed, hsound.tidy.networked _ _⟩

/-- The signature that a receipt is about. -/
def signatureIn : SolanaStrategyEvent → Option Signature
  | .original (.blockchainEvent (.executionReceipt r)) => some r.transactionSignature
  | _                                                  => none

/-- **NO MOVE WITHOUT A CONFIRMED TRANSACTION OF ITS OWN.**  However agents, snipes, calls of
    `execute` and the collector interleave: when an agent succeeds, or a snipe is done with a
    purchase or a sale, a transaction had been made for an action of its own, and after that
    the feed had handed the transaction on, without an error; and each such move is due to
    another transaction. -/
theorem moves_confirmed (sign : Message → List Keypair → Signature) (crates : Crates)
    (pools : Pubkey → Option RaydiumPool) (prices : Pubkey → Option RaydiumPoolPriceUpdate)
    {is : List Input} {b : Bot} {moves : List (Nat × SolanaStrategyEvent)}
    (hrun : run (step sign crates) (start pools prices) is = some (b, moves)) :
    (∀ m ∈ moves, ∃ r, m.2 = receiptEvent r ∧ r.err = none ∧
        Confirmed sign is (b.own m.1) r) ∧
      moves.Pairwise fun m m' => signatureIn m.2 ≠ signatureIn m'.2 := by
  obtain ⟨htraced, htidy⟩ := run_record (J := Sound sign) ⟨traced_start .., tidy_start ..⟩
    (fun _ _ _ _ _ _ hsound hstep => hsound.step hstep) hrun
  refine ⟨fun m hm => ?_, htidy.apart.imp_of_mem fun {m m'} hm hm' hne hsig => ?_⟩
  · obtain ⟨r, hr, hev, herr, a, ha, huuid⟩ := htidy.moved m hm
    obtain ⟨hpast, ⟨hcall, haction, huuid', hitxs, hmade⟩, htx, hsig, hmeta⟩ :=
      htraced.confirmed r hr
    -- the action that was executed is the one that the worker queued
    obtain ⟨⟨sender, action⟩, hsent, rfl⟩ := List.mem_map.mp haction
    obtain ⟨rfl, rfl⟩ := Prod.mk.inj
      (sender_unique htidy.unique hsent ha (huuid'.trans huuid.symm))
    exact ⟨r, hev, herr, .intro hpast
      (.intro hcall (mem_own.mpr hsent) huuid' hitxs hmade) htx hsig hmeta⟩
  · obtain ⟨r, hr, hev, -⟩ := htidy.moved m hm
    obtain ⟨r', hr', hev', -⟩ := htidy.moved m' hm'
    rw [hev, hev'] at hsig
    exact hne r r' hev hev' (htraced.once r hr r' hr' (Option.some.inj hsig))

/-- The receipt of an agent's first action. -/
def firstReceipt : ExecutionReceipt := ⟨⟨1⟩, sampleTx.signature, none, 0⟩

/-- An agent is told to pay half a SOL; the payment is executed, registered and seen. -/
def halfSolPaid : List Input :=
  [.newAgent default ⟨⟨1⟩, 1⟩ (some 1) (some ⟨⟨2⟩, 2⟩) 0,
    .work 0 (.agent (FoxfireAgent.input
      (.forAgent (.transfer [⟨.sol, ⟨2⟩, .exact 500000000⟩])) 0 ⟨1⟩)),
    .execute (smoothEnv 1000000000 (.answered (some ⟨0⟩))) halfSolPayment,
    .register ⟨1⟩ sampleTx.signature,
    .feed 0 (.transaction sampleBuy),
    .work 0 (.agent (FoxfireAgent.input (receiptEvent firstReceipt) 0 ⟨2⟩))]

theorem halfSolPaid_confirmed :
    ∃ b, [halfSolPayment] = Bot.own b 0 ∧ ∃ r, receiptEvent firstReceipt = receiptEvent r ∧
      r.err = none ∧ Confirmed (fun _ _ => sampleTx.signature) halfSolPaid (b.own 0) r := by
  have hview : (run (step (fun _ _ => sampleTx.signature) sampleCrates)
      (start (fun id => if id = sampleKey 4 then some {} else none) samplePrices)
      halfSolPaid).map (fun p => (p.1.own 0, p.2)) =
        some ([halfSolPayment], [(0, receiptEvent firstReceipt)]) := by decide +kernel
  obtain ⟨⟨b, moves⟩, hrun, heq⟩ := Option.map_eq_some_iff.mp hview
  obtain ⟨hown, rfl⟩ := Prod.mk.inj heq
  exact ⟨b, hown.symm, (moves_confirmed _ _ _ _ hrun).1 _ List.mem_cons_self⟩

end FoxfireConfirm
