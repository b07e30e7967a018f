import FoxfireSniper.SniperProofs
import FoxfireSniper.AgentRunProofs

/-! # Runs of the sniper agent — whose receipt ends the snipe?

    A snipe leaves `selling` for `done` on the error-free receipt of any action in
    progress.  A purchase that was repeated after a timeout leaves a uuid in the list,
    and `waiting_to_sell` does not clear it: when the sale starts, the machine listens
    for that purchase as well.

    * **`sniping`** is the sniper with the sales it queued beside it, as a history
      variable.
    * **`done_only_by_own_sale`**: when every sale starts with an empty list, only a
      receipt of a sale ends the snipe. -/

namespace FoxfireSnipe

open FoxfireTypes FoxfireAttempt MachineRun

def isSelling : State → Bool
  | .selling _ _ => true
  | _            => false

/-- The sales noted after a step that leaves `m'` and queues the actions of `out`. -/
def noteSales (sales : List SolanaAction) (m' : Sniper) (out : List Effect) :
    List SolanaAction :=
  if isSelling m'.state then sales ++ queuedActions out else sales

/-- The sniper together with the actions that it queued in `selling`. -/
abbrev sniping : Step (Sniper × List SolanaAction) Input Effect :=
  tracked handle fun sales _ _ m' out => noteSales sales m' out

/-- A new snipe, with no sale queued. -/
def freshSnipe (pool : RaydiumPool) (key : Keypair) (inst : SnipingStrategyInstance)
    (deployPrice : RaydiumPoolPriceUpdate) (now : Instant) : Sniper × List SolanaAction :=
  (Sniper.new pool key inst deployPrice now, [])

/-- The handler of `waiting_to_sell` decides to sell. -/
def StartsSale (m : Sniper) (i : Input) : Prop :=
  m.state = .waitingToSell ∧
    ∃ amt, ((m.ready i).waitingToSell i).2 = .transition (.selling amt 0)

/-- A step that starts a sale finds no action in progress. -/
def SellsClean (t : Sniper × List SolanaAction) (i : Input) : Prop :=
  StartsSale t.1 i → t.1.inProgress = []

/-- The action swaps tokens for SOL, in one step. -/
def IsSale (action : SolanaAction) : Prop :=
  ∃ keys amt, action.actionPayload = [.swap ⟨keys, .sellExactTokensForSol, amt, 0⟩]

/-- The actions noted are sales, and in `selling` the machine listens for no others. -/
structure ListensToSales (t : Sniper × List SolanaAction) : Prop where
  sales   : ∀ a ∈ t.2, IsSale a
  listens : isSelling t.1.state = true → ∀ u ∈ t.1.inProgress, ∃ a ∈ t.2, a.uuid = u

-- ── Steps into and out of `selling` ─────────────────────────────────────────

theorem selling_of_isSelling {s : State} (h : isSelling s = true) :
    ∃ amt r, s = .selling amt r := by
  cases s with
  | selling amt r => exact ⟨amt, r, rfl⟩
  | waitingToBuy => cases h
  | buying amt r => cases h
  | waitingToSell => cases h
  | done => cases h
  | error msg => cases h

/-- The state that a retry enters sells exactly when the state before did. -/
theorem isSelling_retried (s : State) : isSelling s.retried = isSelling s := by
  cases s <;> rfl

/-- An action queued on entering `selling` is a sale. -/
theorem Queues.isSale {i : Input} {m' : Sniper} {out : List Effect} {op : List Uuid}
    {action : SolanaAction} (hq : Queues i m' out op action)
    (hsell : isSelling m'.state = true) : IsSale action := by
  obtain ⟨amt, r, hs⟩ := selling_of_isSelling hsell
  have hpay := hq.payload
  rw [hs] at hpay
  exact ⟨_, amt, hpay⟩

/-- A step from `waiting_to_sell` into `selling` is one that its handler decided on. -/
theorem startsSale_of_step {m m' : Sniper} {i : Input} {out : List Effect} {amt : Amount}
    (hfrom : m.state = .waitingToSell) (hstate : m'.state = .selling amt 0)
    (h : handle m i = some (m', out)) : StartsSale m i := by
  refine ⟨hfrom, ?_⟩
  have hd := dispatch_waitingToSell i hfrom
  rcases waitingToSell_cases (m.ready i) i with ⟨amt', heq⟩ | heq
  · rw [heq]
    exact ⟨amt', rfl⟩
  · rw [heq] at hd
    obtain ⟨rfl, -⟩ := handle_stay hd (Or.inl rfl) h
    rw [hfrom] at hstate
    cases hstate

/-- What leads from `selling` to `done`: the error-free receipt of an action in
    progress. -/
theorem done_by_receipt {m m' : Sniper} {i : Input} {out : List Effect} {amt : Amount}
    {r : Nat} (hs : m.state = .selling amt r) (hdone : m'.state = .done)
    (h : handle m i = some (m', out)) :
    ∃ receipt : ExecutionReceipt, i.event = receiptEvent receipt ∧ receipt.err = none ∧
      receipt.actionUuid ∈ m.inProgress := by
  obtain ⟨htr, -, -⟩ := ready_keeps m i
  have hd : (m.ready i).dispatch i m.state
      = (m.ready i).conditionalTransition i (.selling .max (r + 1)) .done (r + 1) := by
    rw [hs]
    rfl
  have hcases := attemptTransition_cases i.now (m.ready i).tracker i.event
    (State.selling .max (r + 1)) .done .error (r + 1)
  simp only [SniperAgentState.conditionalTransition] at hd
  generalize (attemptTransition i.now (m.ready i).tracker i.event
    (State.selling .max (r + 1)) .done .error (r + 1)).1 = t at hd hcases
  generalize (attemptTransition i.now (m.ready i).tracker i.event
    (State.selling .max (r + 1)) .done .error (r + 1)).2 = resp at hd hcases
  rw [htr] at hcases
  -- after a failure or a timeout the machine sells again or gives up
  have hretry : ∀ msg, resp = retryOrError (r + 1) (.selling .max (r + 1)) .error msg →
      False := by
    intro msg hresp
    rw [hresp, retryOrError] at hd
    split at hd
    · obtain ⟨hstate, -⟩ := handle_transition hd h
      rw [hdone] at hstate
      cases hstate
    · obtain ⟨hstate, -⟩ := handle_transition hd h
      rw [hdone] at hstate
      cases hstate
  cases hcases with
  | ignored _ =>
      obtain ⟨rfl, -⟩ := handle_stay hd (Or.inl rfl) h
      rw [hs] at hdone
      cases hdone
  | succeeded hev herr hmem => exact ⟨_, hev, herr, hmem⟩
  | failed _ _ _ => exact (hretry _ rfl).elim
  | timedOut _ _ _ => exact (hretry _ rfl).elim

-- ── Runs ────────────────────────────────────────────────────────────────────

/-- A step that queues nothing notes nothing. -/
theorem noteSales_quiet {sales : List SolanaAction} {m' : Sniper} {out : List Effect}
    (hout : queuedActions out = []) : noteSales sales m' out = sales := by
  rw [noteSales, hout, List.append_nil, ite_self]

/-- A step that enters a waiting state on top of the list `op`: if the sales before it
    account for `op`, the sales after it account for all that is in progress. -/
theorem ListensToSales.queued {t : Sniper × List SolanaAction} {m' : Sniper} {i : Input}
    {out : List Effect} {op : List Uuid} {action : SolanaAction} (hI : ListensToSales t)
    (hq : Queues i m' out op action)
    (hop : isSelling m'.state = true → ∀ u ∈ op, ∃ a ∈ t.2, a.uuid = u) :
    ListensToSales (m', noteSales t.2 m' out) := by
  by_cases hsell : isSelling m'.state = true
  · have hnote : noteSales t.2 m' out = t.2 ++ [action] := by
      rw [noteSales, if_pos hsell, hq.out]
    rw [hnote]
    refine ⟨?_, ?_⟩
    · intro a ha
      rcases List.mem_append.mp ha with hold | hnew
      · exact hI.sales a hold
      · rw [List.mem_singleton.mp hnew]
        exact hq.isSale hsell
    · intro _ u hu
      rw [hq.inProgress] at hu
      rcases List.mem_append.mp hu with hold | hnew
      · obtain ⟨a, ha, rfl⟩ := hop hsell u hold
        exact ⟨a, List.mem_append_left _ ha, rfl⟩
      · rw [List.mem_singleton.mp hnew]
        exact ⟨action, List.mem_append_right _ (List.mem_singleton_self action), hq.uuid⟩
  · rw [noteSales, if_neg hsell]
    exact ⟨hI.sales, fun h => absurd h hsell⟩

theorem sales_step {t t' : Sniper × List SolanaAction} {i : Input} {out : List Effect}
    (hI : ListensToSales t) (hC : SellsClean t i) (h : sniping t i = some (t', out)) :
    ListensToSales t' := by
  obtain ⟨hstep, hnote⟩ := tracked_eq_some h
  have ht' : t' = (t'.1, noteSales t.2 t'.1 out) := Prod.ext rfl hnote
  rw [ht']
  cases handle_cases hstep with
  | quiet hstate hsub hout =>
      rw [noteSales_quiet hout]
      refine ⟨hI.sales, ?_⟩
      intro hsell u hu
      rcases hstate with hs | ⟨hr, -⟩
      · rw [hs] at hsell
        exact hI.listens hsell u (hsub u hu)
      · -- a state without a retry count does not sell
        obtain ⟨amt, r, hs⟩ := selling_of_isSelling hsell
        have hs' : t'.1.state = .selling amt r := hs
        rw [hs'] at hr
        cases hr
  | bought _ hstate hq =>
      refine hI.queued hq ?_
      intro hsell
      rw [hstate] at hsell
      cases hsell
  | sold hfrom hstate hq =>
      refine hI.queued hq ?_
      intro _ u hu
      rw [hC (startsSale_of_step hfrom hstate hstep)] at hu
      cases hu
  | retriedFailed _ hstate _ _ hq =>
      refine hI.queued hq ?_
      intro hsell u hu
      rw [hstate, isSelling_retried] at hsell
      exact hI.listens hsell u (List.mem_filter.mp hu).1
  | retriedTimeout _ hstate _ hq =>
      refine hI.queued hq ?_
      intro hsell u hu
      rw [hstate, isSelling_retried] at hsell
      exact hI.listens hsell u hu

theorem sales_reach {pool : RaydiumPool} {key : Keypair} {inst : SnipingStrategyInstance}
    {deployPrice : RaydiumPoolPriceUpdate} {now : Instant}
    {t : Sniper × List SolanaAction}
    (h : Reach sniping SellsClean (freshSnipe pool key inst deployPrice now) t) :
    ListensToSales t := by
  refine h.invariant ?_ (fun s i s' out hI hC hs => sales_step hI hC hs)
  refine ⟨?_, ?_⟩
  · intro a ha
    cases ha
  · intro hsell
    cases hsell

/-- The event is an error-free receipt of a sale that the machine queued in
    `selling`. -/
def EndedByOwnSale (t : Sniper × List SolanaAction) (i : Input) : Prop :=
  ∃ r : ExecutionReceipt, i.event = receiptEvent r ∧ r.err = none ∧
    ∃ a ∈ t.2, IsSale a ∧ a.uuid = r.actionUuid

/-- **NO SNIPE ENDS WITH ITS TOKENS UNSOLD.**  In every run in which each sale starts
    with no action in progress, every transition from `selling` to `done` is made by a
    receipt of a sale. -/
theorem done_only_by_own_sale {pool : RaydiumPool} {key : Keypair}
    {inst : SnipingStrategyInstance} {deployPrice : RaydiumPoolPriceUpdate} {now : Instant}
    {t t' : Sniper × List SolanaAction} {i : Input} {out : List Effect}
    (hreach : Reach sniping SellsClean (freshSnipe pool key inst deployPrice now) t)
    (hstep : sniping t i = some (t', out))
    (hsell : isSelling t.1.state = true) (hdone : t'.1.state = .done) :
    EndedByOwnSale t i := by
  have hlisten := sales_reach hreach
  obtain ⟨hs, -⟩ := tracked_eq_some hstep
  obtain ⟨amt, r, hstate⟩ := selling_of_isSelling hsell
  obtain ⟨receipt, hev, herr, hmem⟩ := done_by_receipt hstate hdone hs
  obtain ⟨a, ha, huuid⟩ := hlisten.listens hsell _ hmem
  exact ⟨receipt, hev, herr, a, ha, hlisten.sales a ha, huuid⟩

/-- A snipe of one SOL that buys at once and sells after a minute. -/
def minuteSnipe : Sniper × List SolanaAction :=
  freshSnipe default ⟨⟨1⟩, 1⟩ ⟨1, 1, 2, 60, 0, 50⟩ default 0

/-- An event at a time, with the price of the pool known. -/
def eventAt (event : SolanaStrategyEvent) (now : Instant) (uuid : Uuid) : Input :=
  ⟨event, now, now, now, uuid, none, some default, none⟩

def beatAt (now : Instant) (uuid : Uuid) : Input :=
  eventAt (.original (.heartBeat FoxfireAgent.tick 0)) now uuid

def receiptAt (now : Instant) (uuid : Uuid) : Input :=
  eventAt (receiptEvent ⟨uuid, default, none, now⟩) now uuid

/-- Bought at the first attempt, and sold a minute later. -/
theorem minuteSnipe_ended_by_own_sale :
    ∃ t t' out, Reach sniping SellsClean minuteSnipe t ∧
      sniping t (receiptAt 70010 ⟨2⟩) = some (t', out) ∧ t'.1.state = .done ∧
      EndedByOwnSale t (receiptAt 70010 ⟨2⟩) := by
  have hbuy : Reach sniping SellsClean minuteSnipe _ :=
    .next .init (fun h => by cases h.1) (i := beatAt 0 ⟨1⟩) rfl
  have hbought : Reach sniping SellsClean minuteSnipe _ :=
    .next hbuy (fun h => by cases h.1) (i := receiptAt 10 ⟨1⟩) rfl
  have hsell : Reach sniping SellsClean minuteSnipe _ :=
    .next hbought (fun _ => rfl) (i := beatAt 70000 ⟨2⟩) rfl
  exact ⟨_, _, _, hsell, rfl, rfl, done_only_by_own_sale hsell rfl rfl rfl⟩

/-- A purchase is retried after a timeout, its first attempt lands after all, and a
    minute later the snipe sells while the second attempt is still in progress. -/
def buyTwiceAndSell : List Input :=
  [beatAt 0 ⟨1⟩, beatAt 200 ⟨2⟩, receiptAt 210 ⟨1⟩, beatAt 70000 ⟨3⟩]

/-- **DONE WITH THE TOKENS STILL HELD**: the late receipt of the purchase's second
    attempt ends the snipe. -/
theorem late_buy_receipt_ends_snipe :
    ¬ ∀ (t t' : Sniper × List SolanaAction) (i : Input) (out : List Effect),
      Reach sniping Always minuteSnipe t → sniping t i = some (t', out) →
      isSelling t.1.state = true → t'.1.state = .done → EndedByOwnSale t i := by
  intro hclaim
  obtain ⟨t, out, hrun, hsell, hsales, t', out', hstep, hdone⟩ : ∃ t out,
      run sniping minuteSnipe buyTwiceAndSell = some (t, out) ∧
      isSelling t.1.state = true ∧ t.2.map SolanaAction.uuid = [⟨3⟩] ∧
      ∃ t' out', sniping t (receiptAt 70010 ⟨2⟩) = some (t', out') ∧
        t'.1.state = .done :=
    ⟨_, _, rfl, rfl, rfl, _, _, rfl, rfl⟩
  have hreach := reach_of_run (C := Always) (fun _ _ => trivial) hrun
  obtain ⟨r, hev, -, a, ha, -, huuid⟩ := hclaim t t' _ out' hreach hstep hsell hdone
  have hr : (⟨2⟩ : Uuid) = r.actionUuid := by
    simp only [receiptAt, eventAt, receiptEvent, SolanaStrategyEvent.original.injEq,
      BotEvent.blockchainEvent.injEq, BlockchainEvent.executionReceipt.injEq] at hev
    rw [← hev]
  have hmem : a.uuid ∈ t.2.map SolanaAction.uuid := List.mem_map_of_mem ha
  rw [hsales, huuid, ← hr] at hmem
  exact absurd hmem (by decide)

end FoxfireSnipe
