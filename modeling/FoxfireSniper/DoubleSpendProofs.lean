import Mathlib.Algebra.Order.BigOperators.Group.List
import Mathlib.Algebra.Order.Ring.Nat
import Mathlib.Algebra.Group.Action.Defs
import FoxfireSniper.AgentRunProofs
import FoxfireSniper.SniperProofs

/-! # How often can one command be executed?

    A timeout retries a command without knowing what became of the attempt before it,
    so two transactions of one command can land.  What the two machines do guarantee:

    * **`retries_paid_by_timeouts`**, first two parts: at every retry, the earlier
      attempts whose failure has not been reported are at most the timeouts that have
      retried the command, plus the attempts of earlier commands that were still in
      progress when it started.  Without those, every earlier attempt has failed.
    * Its third part: the purchases of one snipe that may have landed commit at most
      its size, times one more than the timeouts that repeated the purchase. -/

namespace FoxfireDoubleSpend

open FoxfireTypes FoxfireAttempt FoxfireRetry MachineRun AttemptLog

-- ── The volume agent ────────────────────────────────────────────────────────

/-- A step of the volume agent is a move. -/
theorem agent_move {m m' : FoxfireAgent.Agent} {i : FoxfireAgent.Input}
    {out : List FoxfireAgent.Effect} (h : FoxfireAgent.handle m i = some (m', out)) :
    Move i.event i.uuid (FoxfireAgent.queuedActions out) m'.state.retry m.inProgress
      m'.inProgress := by
  cases FoxfireAgent.handle_cases h with
  | quiet _ hsub hout => exact .quiet hsub hout
  | succeeded _ _ _ _ _ hsub hout => exact .quiet hsub hout
  | started _ hretry hin hout huuid => exact .started hretry hin hout huuid
  | retriedFailed hretry hstate hev hmem hin hout huuid =>
      have hr := FoxfireAgent.retried_retry hretry
      rw [← hstate] at hr
      exact .retriedFailed hr hev hmem hin hout huuid
  | retriedTimeout hretry hstate hev _ hin hout huuid =>
      have hr := FoxfireAgent.retried_retry hretry
      rw [← hstate] at hr
      exact .retriedTimeout hr hev hin hout huuid

theorem agent_bounded {pool : RaydiumPool} {key : Keypair} {sid : Option StrategyId}
    {mainWallet : Option Keypair} {now : Instant} {t : FoxfireAgent.Agent × Log Uuid}
    (h : Reach FoxfireAgent.logged Always
      (FoxfireAgent.freshAgent pool key sid mainWallet now) t) :
    t.2.Bounded t.1.inProgress := by
  refine h.invariant (I := fun t => t.2.Bounded t.1.inProgress) empty_bounded ?_
  intro s i s' out hI _ hs
  obtain ⟨hstep, hlog⟩ := tracked_eq_some hs
  rw [hlog]
  exact (agent_move hstep).bounded hI

-- ── The sniper, with the actions it queued ──────────────────────────────────

/-- The history of a snipe: its ledger, everything it queued, and how often a timeout
    repeated the purchase. -/
structure SnipeHistory where
  log         : Log Uuid
  queued      : List SolanaAction
  buyTimeouts : Nat

def isBuying : FoxfireSnipe.State → Bool
  | .buying _ _ => true
  | _           => false

def SnipeHistory.note (h : SnipeHistory) (m : FoxfireSnipe.Sniper) (i : FoxfireSnipe.Input)
    (m' : FoxfireSnipe.Sniper) (out : List FoxfireSnipe.Effect) : SnipeHistory where
  log := record h.log m.inProgress i.event m'.state.retry (FoxfireSnipe.queuedActions out)
  queued := h.queued ++ FoxfireSnipe.queuedActions out
  buyTimeouts :=
    if isBuying m.state ∧ isHeartBeat i.event ∧ FoxfireSnipe.queuedActions out ≠ []
    then h.buyTimeouts + 1 else h.buyTimeouts

/-- The sniper together with its history. -/
abbrev snipe : Step (FoxfireSnipe.Sniper × SnipeHistory) FoxfireSnipe.Input
    FoxfireSnipe.Effect :=
  tracked FoxfireSnipe.handle SnipeHistory.note

def freshSniper (pool : RaydiumPool) (key : Keypair)
    (inst : FoxfireSnipe.SnipingStrategyInstance) (deployPrice : RaydiumPoolPriceUpdate)
    (now : Instant) : FoxfireSnipe.Sniper × SnipeHistory :=
  (FoxfireSnipe.Sniper.new pool key inst deployPrice now, ⟨Log.empty, [], 0⟩)

/-- A step of the sniper is a move. -/
theorem sniper_move {m m' : FoxfireSnipe.Sniper} {i : FoxfireSnipe.Input}
    {out : List FoxfireSnipe.Effect} (h : FoxfireSnipe.handle m i = some (m', out)) :
    Move i.event i.uuid (FoxfireSnipe.queuedActions out) m'.state.retry m.inProgress
      m'.inProgress := by
  cases FoxfireSnipe.handle_cases h with
  | quiet _ hsub hout => exact .quiet hsub hout
  | bought _ hstate hq =>
      refine .started ?_ hq.inProgress hq.out hq.uuid
      rw [hstate]
      rfl
  | sold _ hstate hq =>
      refine .started ?_ hq.inProgress hq.out hq.uuid
      rw [hstate]
      rfl
  | retriedFailed hretry hstate hev hmem hq =>
      have hr := FoxfireSnipe.retried_retry hretry
      rw [← hstate] at hr
      exact .retriedFailed hr hev hmem hq.inProgress hq.out hq.uuid
  | retriedTimeout hretry hstate hev hq =>
      have hr := FoxfireSnipe.retried_retry hretry
      rw [← hstate] at hr
      exact .retriedTimeout hr hev hq.inProgress hq.out hq.uuid

-- ── What the purchases commit ───────────────────────────────────────────────

/-- The lamports a purchase can spend of a balance. -/
def amountCommits (balance : Nat) : Amount → Nat
  | .exact n         => n.toNat
  | .exactWithFees n => n.toNat
  | _                => balance

def payloadCommits (balance : Nat) : SolanaActionPayload → Nat
  | .swap p =>
      match p.swapMethod with
      | .buyTokensForExactSol  => amountCommits balance p.amountIn
      | .sellExactTokensForSol => 0
  | .transfer _ => 0

/-- The lamports that the purchases of an action can spend. -/
def commits (balance : Nat) (action : SolanaAction) : Nat :=
  (action.actionPayload.map (payloadCommits balance)).sum

/-- The actions that can still land or have landed: no failure was reported. -/
def SnipeHistory.landable (h : SnipeHistory) : List SolanaAction :=
  h.queued.filter (fun a => a.uuid ∉ h.log.resolved)

/-- What they can spend in purchases, together. -/
def SnipeHistory.committed (h : SnipeHistory) (balance : Nat) : Nat :=
  (h.landable.map (commits balance)).sum

/-- The size of a snipe in lamports. -/
def sizeLamports (m : FoxfireSnipe.Sniper) : Nat :=
  (solToLamports m.storage.snipingStrategyInstance.sizeSol).toNat

/-- The commitments of a snipe stay within its size per purchase that was not known to
    have failed when it was repeated. -/
def WithinSize (balance : Nat) (t : FoxfireSnipe.Sniper × SnipeHistory) : Prop :=
  t.2.committed balance ≤ sizeLamports t.1 * (1 + t.2.buyTimeouts)

/-- What is known about the history in each phase of the snipe: nothing queued before
    the purchase; during it, the ledger is exactly about the actions queued so far, all
    of the snipe's size. -/
def PhaseOK (balance : Nat) (t : FoxfireSnipe.Sniper × SnipeHistory) : Prop :=
  match t.1.state with
  | .waitingToBuy => t.2.queued = [] ∧ t.1.inProgress = [] ∧ t.2.buyTimeouts = 0
  | .buying amt _ =>
      amt = .exact (solToLamports t.1.storage.snipingStrategyInstance.sizeSol) ∧
      t.2.queued.map SolanaAction.uuid = t.2.log.current ∧
      (∀ a ∈ t.2.queued, commits balance a = sizeLamports t.1) ∧
      t.2.log.timeouts = t.2.buyTimeouts ∧ t.2.log.stale = 0
  | _ => WithinSize balance t

/-- The invariant of a snipe. -/
structure SnipeInv (balance : Nat) (t : FoxfireSnipe.Sniper × SnipeHistory) : Prop where
  bounded : t.2.log.Bounded t.1.inProgress
  phase   : PhaseOK balance t

/-- As many actions are landable as attempts are unresolved, while the ledger is about
    all of them. -/
theorem landable_length {h : SnipeHistory} (hcur : h.queued.map SolanaAction.uuid = h.log.current) :
    h.landable.length = h.log.unresolved.length := by
  simp only [Log.unresolved, ← hcur, List.filter_map, List.length_map]
  rfl

/-- In every phase the commitments are within the size. -/
theorem SnipeInv.within {balance : Nat} {t : FoxfireSnipe.Sniper × SnipeHistory}
    (h : SnipeInv balance t) : WithinSize balance t := by
  have hphase := h.phase
  simp only [PhaseOK] at hphase
  split at hphase
  · obtain ⟨hq, -, -⟩ := hphase
    simp [WithinSize, SnipeHistory.committed, SnipeHistory.landable, hq]
  · obtain ⟨-, hcur, hall, htime, hstale⟩ := hphase
    have heach : ∀ n ∈ t.2.landable.map (commits balance), n ≤ sizeLamports t.1 := by
      intro n hn
      obtain ⟨a, ha, rfl⟩ := List.mem_map.mp hn
      exact (hall a (List.mem_filter.mp ha).1).le
    have hsum := List.sum_le_card_nsmul _ _ heach
    rw [List.length_map, landable_length hcur, smul_eq_mul, Nat.mul_comm] at hsum
    have hb : t.2.log.unresolved.length + (t.2.log.owed t.1.inProgress).card
        ≤ t.2.log.timeouts + t.2.log.stale + 1 := h.bounded
    have hle : t.2.log.unresolved.length ≤ 1 + t.2.buyTimeouts := by omega
    exact hsum.trans (Nat.mul_le_mul_left _ hle)
  · exact hphase

/-- Failures are only ever added. -/
theorem resolved_record {log : Log Uuid} {op : List Uuid} {event : SolanaStrategyEvent}
    {retryAfter : Option Nat} {queued : List SolanaAction} {u : Uuid}
    (h : u ∈ log.resolved) : u ∈ (record log op event retryAfter queued).resolved := by
  have hres : u ∈ (log.resolve (failedUuid event)).resolved := by
    cases failedUuid event with
    | none => exact h
    | some v => exact List.mem_cons_of_mem v h
  cases queued with
  | nil => exact hres
  | cons a as =>
      simp only [record]
      split
      · exact hres
      · exact hres

/-- A step adds at most the commitments of what it queues. -/
theorem committed_note (balance : Nat) (h : SnipeHistory) (m : FoxfireSnipe.Sniper)
    (i : FoxfireSnipe.Input) (m' : FoxfireSnipe.Sniper) (out : List FoxfireSnipe.Effect) :
    (h.note m i m' out).committed balance ≤ h.committed balance
      + ((FoxfireSnipe.queuedActions out).map (commits balance)).sum := by
  have hsub : ((h.note m i m' out).landable).Sublist
      (h.landable ++ FoxfireSnipe.queuedActions out) := by
    show ((h.queued ++ FoxfireSnipe.queuedActions out).filter _).Sublist _
    rw [List.filter_append]
    refine List.Sublist.append ?_ List.filter_sublist
    refine List.monotone_filter_right _ ?_
    intro a ha
    simp only [decide_eq_true_eq] at ha ⊢
    exact fun hr => ha (resolved_record hr)
  have hle := (hsub.map (commits balance)).sum_le_sum (fun n _ => Nat.zero_le n)
  rw [List.map_append, List.sum_append] at hle
  exact hle

/-- A step out of the purchase, or one that only sells, stays within the size. -/
theorem within_note {balance : Nat} {t t' : FoxfireSnipe.Sniper × SnipeHistory}
    {i : FoxfireSnipe.Input} {out : List FoxfireSnipe.Effect}
    (hw : WithinSize balance t) (hsize : sizeLamports t'.1 = sizeLamports t.1)
    (hnote : t'.2 = t.2.note t.1 i t'.1 out)
    (hzero : ((FoxfireSnipe.queuedActions out).map (commits balance)).sum = 0) :
    WithinSize balance t' := by
  have hadd := committed_note balance t.2 t.1 i t'.1 out
  rw [hzero, Nat.add_zero, ← hnote] at hadd
  have htime : t.2.buyTimeouts ≤ t'.2.buyTimeouts := by
    rw [hnote]
    simp only [SnipeHistory.note]
    split
    · exact Nat.le_succ _
    · exact Nat.le_refl _
  have hw' : t.2.committed balance ≤ sizeLamports t.1 * (1 + t.2.buyTimeouts) := hw
  show t'.2.committed balance ≤ sizeLamports t'.1 * (1 + t'.2.buyTimeouts)
  rw [hsize]
  calc t'.2.committed balance
      ≤ t.2.committed balance := hadd
    _ ≤ sizeLamports t.1 * (1 + t.2.buyTimeouts) := hw'
    _ ≤ sizeLamports t.1 * (1 + t'.2.buyTimeouts) := Nat.mul_le_mul_left _ (by omega)

/-- What the action that enters a state commits: the amount of a purchase, nothing for
    a sale. -/
def stateCommits (balance : Nat) : FoxfireSnipe.State → Nat
  | .buying amt _ => amountCommits balance amt
  | _             => 0

theorem commits_of_payload {balance : Nat} {action : SolanaAction} {s : FoxfireSnipe.State}
    {pool : RaydiumPool} (h : action.actionPayload = s.payload pool) :
    commits balance action = stateCommits balance s := by
  simp only [commits, h]
  cases s <;> simp [FoxfireSnipe.State.payload, payloadCommits, stateCommits]

/-- A retry during the purchase adds one action of the snipe's size to the ledger. -/
theorem phase_retried_buy {balance : Nat} {t t' : FoxfireSnipe.Sniper × SnipeHistory}
    {i : FoxfireSnipe.Input} {out : List FoxfireSnipe.Effect} {op : List Uuid}
    {action : SolanaAction} {amt : Amount} {r : Nat}
    (hinst : t'.1.storage.snipingStrategyInstance = t.1.storage.snipingStrategyInstance)
    (hnote : t'.2 = t.2.note t.1 i t'.1 out) (hphase : PhaseOK balance t)
    (hs : t.1.state = .buying amt r) (hs' : t'.1.state = .buying amt (r + 1))
    (hq : FoxfireSnipe.Queues i t'.1 out op action) : PhaseOK balance t' := by
  have hsize : sizeLamports t'.1 = sizeLamports t.1 := by
    simp only [sizeLamports, hinst]
  simp only [PhaseOK, hs] at hphase
  obtain ⟨hamt, hcur, hall, htime, hstale⟩ := hphase
  have hlog : t'.2.log = (t.2.log.resolve (failedUuid i.event)).push action.uuid
      (isHeartBeat i.event) := by
    rw [hnote]
    simp only [SnipeHistory.note, hq.out]
    exact record_retried (r := r) (by rw [hs']; rfl)
  have hqueued : t'.2.queued = t.2.queued ++ [action] := by
    rw [hnote]
    simp only [SnipeHistory.note, hq.out]
  have hbt : t'.2.buyTimeouts = if isHeartBeat i.event then t.2.buyTimeouts + 1
      else t.2.buyTimeouts := by
    rw [hnote]
    simp [SnipeHistory.note, hq.out, hs, isBuying]
  simp only [PhaseOK, hs']
  refine ⟨?_, ?_, ?_, ?_, ?_⟩
  · rw [hinst]
    exact hamt
  · rw [hqueued, hlog, List.map_append, hcur]
    show _ = (t.2.log.resolve (failedUuid i.event)).current ++ [action.uuid]
    rw [resolve_current]
    rfl
  · intro a ha
    rw [hqueued, List.mem_append] at ha
    rw [hsize]
    rcases ha with ha | ha
    · exact hall a ha
    · rw [List.mem_singleton.mp ha, commits_of_payload hq.payload, hs', hamt]
      rfl
  · rw [hlog, hbt]
    show (if isHeartBeat i.event then (t.2.log.resolve _).timeouts + 1
      else (t.2.log.resolve _).timeouts) = _
    rw [resolve_timeouts, htime]
  · rw [hlog]
    show (t.2.log.resolve _).stale = 0
    rw [resolve_stale]
    exact hstale

/-- A retry, of the purchase or of the sale. -/
theorem phase_retried {balance : Nat} {t t' : FoxfireSnipe.Sniper × SnipeHistory}
    {i : FoxfireSnipe.Input} {out : List FoxfireSnipe.Effect} {op : List Uuid}
    {action : SolanaAction} {r : Nat} (hI : SnipeInv balance t)
    (hinst : t'.1.storage.snipingStrategyInstance = t.1.storage.snipingStrategyInstance)
    (hnote : t'.2 = t.2.note t.1 i t'.1 out) (hretry : t.1.state.retry = some r)
    (hs' : t'.1.state = t.1.state.retried)
    (hq : FoxfireSnipe.Queues i t'.1 out op action) : PhaseOK balance t' := by
  cases hs : t.1.state with
  | buying amt n =>
      rw [hs] at hs'
      exact phase_retried_buy hinst hnote hI.phase hs hs' hq
  | selling amt n =>
      rw [hs] at hs'
      have hzero : ((FoxfireSnipe.queuedActions out).map (commits balance)).sum = 0 := by
        rw [hq.out, List.map_singleton, List.sum_singleton, commits_of_payload hq.payload, hs']
        rfl
      have hw := within_note hI.within (by simp only [sizeLamports, hinst]) hnote hzero
      simp only [PhaseOK, hs', FoxfireSnipe.State.retried]
      exact hw
  | waitingToBuy => rw [hs] at hretry; cases hretry
  | waitingToSell => rw [hs] at hretry; cases hretry
  | done => rw [hs] at hretry; cases hretry
  | error msg => rw [hs] at hretry; cases hretry

/-- A step that queues nothing keeps the phase. -/
theorem phase_quiet {balance : Nat} {t t' : FoxfireSnipe.Sniper × SnipeHistory}
    {i : FoxfireSnipe.Input} {out : List FoxfireSnipe.Effect} (hI : SnipeInv balance t)
    (hinst : t'.1.storage.snipingStrategyInstance = t.1.storage.snipingStrategyInstance)
    (hnote : t'.2 = t.2.note t.1 i t'.1 out)
    (hstate : t'.1.state = t.1.state ∨
      t'.1.state.retry = none ∧ t'.1.state ≠ .waitingToBuy)
    (hsub : ∀ u ∈ t'.1.inProgress, u ∈ t.1.inProgress)
    (hout : FoxfireSnipe.queuedActions out = []) : PhaseOK balance t' := by
  have hsize : sizeLamports t'.1 = sizeLamports t.1 := by simp only [sizeLamports, hinst]
  have hw : WithinSize balance t' := within_note hI.within hsize hnote (by rw [hout]; rfl)
  have hqueued : t'.2.queued = t.2.queued := by
    rw [hnote]
    simp [SnipeHistory.note, hout]
  have hbt : t'.2.buyTimeouts = t.2.buyTimeouts := by
    rw [hnote]
    simp [SnipeHistory.note, hout]
  have hlog : t'.2.log = t.2.log.resolve (failedUuid i.event) := by
    rw [hnote]
    simp only [SnipeHistory.note, hout, record_quiet]
  rcases hstate with hs | ⟨hr, hne⟩
  · have hphase := hI.phase
    cases hst : t.1.state with
    | waitingToBuy =>
        simp only [PhaseOK, hst] at hphase
        obtain ⟨hq, hin, hb⟩ := hphase
        simp only [PhaseOK, hs, hst]
        refine ⟨hqueued.trans hq, ?_, hbt.trans hb⟩
        refine List.eq_nil_iff_forall_not_mem.mpr ?_
        intro u hu
        have hu' := hsub u hu
        rw [hin] at hu'
        cases hu'
    | buying amt r =>
        simp only [PhaseOK, hst] at hphase
        simp only [PhaseOK, hs, hst, hinst, hqueued, hbt, hlog, resolve_current,
          resolve_timeouts, resolve_stale, hsize]
        exact hphase
    | waitingToSell => simp only [PhaseOK, hs, hst]; exact hw
    | selling amt r => simp only [PhaseOK, hs, hst]; exact hw
    | done => simp only [PhaseOK, hs, hst]; exact hw
    | error msg => simp only [PhaseOK, hs, hst]; exact hw
  · cases hst : t'.1.state with
    | waitingToBuy => exact absurd hst hne
    | buying amt r => rw [hst] at hr; cases hr
    | waitingToSell => simp only [PhaseOK, hst]; exact hw
    | selling amt r => rw [hst] at hr; cases hr
    | done => simp only [PhaseOK, hst]; exact hw
    | error msg => simp only [PhaseOK, hst]; exact hw

/-- **ONE STEP OF A SNIPE KEEPS ITS INVARIANT.** -/
theorem snipe_step {balance : Nat} {t t' : FoxfireSnipe.Sniper × SnipeHistory}
    {i : FoxfireSnipe.Input} {out : List FoxfireSnipe.Effect} (hI : SnipeInv balance t)
    (h : snipe t i = some (t', out)) : SnipeInv balance t' := by
  obtain ⟨hstep, hnote⟩ := tracked_eq_some h
  have hinst := FoxfireSnipe.handle_keeps hstep
  refine ⟨?_, ?_⟩
  · rw [hnote]
    exact (sniper_move hstep).bounded hI.bounded
  · cases FoxfireSnipe.handle_cases hstep with
    | quiet hstate hsub hout => exact phase_quiet hI hinst hnote hstate hsub hout
    | @bought action hfrom hstate hq =>
        have hphase := hI.phase
        simp only [PhaseOK, hfrom] at hphase
        obtain ⟨hqueued, hin, hbt⟩ := hphase
        have hlog : t'.2.log = (t.2.log.resolve (failedUuid i.event)).start action.uuid
            t.1.inProgress.length := by
          rw [hnote]
          simp only [SnipeHistory.note, hq.out]
          exact record_started (by rw [hstate]; rfl)
        simp only [PhaseOK, hstate]
        refine ⟨by rw [hinst], ?_, ?_, ?_, ?_⟩
        · rw [hlog, hnote]
          simp [SnipeHistory.note, hqueued, hq.out, Log.start]
        · intro a ha
          rw [hnote] at ha
          simp only [SnipeHistory.note, hqueued, hq.out, List.nil_append] at ha
          rw [List.mem_singleton.mp ha, commits_of_payload hq.payload, hstate, ← hinst]
          rfl
        · rw [hlog, hnote]
          simp [SnipeHistory.note, Log.start, hbt, hfrom, isBuying]
        · rw [hlog, hin]
          rfl
    | sold hfrom hstate hq =>
        have hzero : ((FoxfireSnipe.queuedActions out).map (commits balance)).sum = 0 := by
          rw [hq.out, List.map_singleton, List.sum_singleton, commits_of_payload hq.payload,
            hstate]
          rfl
        have hw := within_note hI.within (by simp only [sizeLamports, hinst]) hnote hzero
        simp only [PhaseOK, hstate]
        exact hw
    | retriedFailed hretry hstate _ _ hq =>
        exact phase_retried hI hinst hnote hretry hstate hq
    | retriedTimeout hretry hstate _ hq =>
        exact phase_retried hI hinst hnote hretry hstate hq

theorem snipe_reach (balance : Nat) {pool : RaydiumPool} {key : Keypair}
    {inst : FoxfireSnipe.SnipingStrategyInstance} {deployPrice : RaydiumPoolPriceUpdate}
    {now : Instant} {t : FoxfireSnipe.Sniper × SnipeHistory}
    (h : Reach snipe Always (freshSniper pool key inst deployPrice now) t) :
    SnipeInv balance t := by
  refine h.invariant ⟨empty_bounded, ?_⟩ (fun s i s' out hI _ hs => snipe_step hI hs)
  exact ⟨rfl, rfl, rfl⟩

-- ── The guarantee ───────────────────────────────────────────────────────────

/-- The step queued an action, and it was not the first of a command. -/
def IsRetry (queued : List SolanaAction) (retryAfter : Option Nat) : Prop :=
  queued ≠ [] ∧ retryAfter ≠ some 0

/-- Every earlier action of the command has been reported as failed, before the event
    or by it. -/
def EarlierResolved (log : Log Uuid) (event : SolanaStrategyEvent) : Prop :=
  ∀ u ∈ log.current, u ∈ (log.resolve (failedUuid event)).resolved

/-- At a retry that turns the ledger `log` into `log'`: the earlier actions of the
    command not reported as failed are at most its timeouts and the older actions it
    found in progress; so if there were none of these, all of them have failed. -/
structure RetryPaid (log : Log Uuid) (event : SolanaStrategyEvent) (log' : Log Uuid) :
    Prop where
  atMost : (log.resolve (failedUuid event)).unresolved.length ≤ log'.timeouts + log'.stale
  none   : log'.timeouts = 0 → log'.stale = 0 → EarlierResolved log event

theorem retryPaid_of_le {log log' : Log Uuid} {event : SolanaStrategyEvent}
    (h : (log.resolve (failedUuid event)).unresolved.length ≤ log'.timeouts + log'.stale) :
    RetryPaid log event log' := by
  refine ⟨h, ?_⟩
  intro ht hs u hu
  rw [ht, hs] at h
  have hnil := List.length_eq_zero_iff.mp (Nat.le_zero.mp h)
  by_contra hn
  have hmem : u ∈ (log.resolve (failedUuid event)).unresolved := by
    refine List.mem_filter.mpr ⟨?_, by simpa using hn⟩
    rw [resolve_current]
    exact hu
  rw [hnil] at hmem
  cases hmem

/-- **RETRIES ARE PAID FOR BY TIMEOUTS**, in every run of either machine; and the
    purchases of a snipe commit its size at most once for each timeout that repeated
    the purchase, and once more. -/
theorem retries_paid_by_timeouts :
    (∀ (pool : RaydiumPool) (key : Keypair) (sid : Option StrategyId)
        (mainWallet : Option Keypair) (now : Instant) (t t' : FoxfireAgent.Agent × Log Uuid)
        (i : FoxfireAgent.Input) (out : List FoxfireAgent.Effect),
      Reach FoxfireAgent.logged Always
        (FoxfireAgent.freshAgent pool key sid mainWallet now) t →
      FoxfireAgent.logged t i = some (t', out) →
      IsRetry (FoxfireAgent.queuedActions out) t'.1.state.retry →
      RetryPaid t.2 i.event t'.2) ∧
    (∀ (pool : RaydiumPool) (key : Keypair) (inst : FoxfireSnipe.SnipingStrategyInstance)
        (deployPrice : RaydiumPoolPriceUpdate) (now : Instant)
        (t t' : FoxfireSnipe.Sniper × SnipeHistory) (i : FoxfireSnipe.Input)
        (out : List FoxfireSnipe.Effect),
      Reach snipe Always (freshSniper pool key inst deployPrice now) t →
      snipe t i = some (t', out) →
      IsRetry (FoxfireSnipe.queuedActions out) t'.1.state.retry →
      RetryPaid t.2.log i.event t'.2.log) ∧
    (∀ (balance : Nat) (pool : RaydiumPool) (key : Keypair)
        (inst : FoxfireSnipe.SnipingStrategyInstance)
        (deployPrice : RaydiumPoolPriceUpdate) (now : Instant)
        (t : FoxfireSnipe.Sniper × SnipeHistory),
      Reach snipe Always (freshSniper pool key inst deployPrice now) t →
      WithinSize balance t) := by
  refine ⟨?_, ?_, ?_⟩
  · intro pool key sid mainWallet now t t' i out hreach hstep hretry
    obtain ⟨hs, hlog⟩ := tracked_eq_some hstep
    have hpaid := (agent_move hs).retry_paid (agent_bounded hreach) hretry.1 hretry.2
    rw [← hlog] at hpaid
    exact retryPaid_of_le hpaid
  · intro pool key inst deployPrice now t t' i out hreach hstep hretry
    obtain ⟨hs, hnote⟩ := tracked_eq_some hstep
    have hpaid := (sniper_move hs).retry_paid (snipe_reach 0 hreach).bounded
      hretry.1 hretry.2
    refine retryPaid_of_le ?_
    rw [hnote]
    exact hpaid
  · intro balance pool key inst deployPrice now t hreach
    exact (snipe_reach balance hreach).within

/-- A snipe of one SOL without a delay. -/
def oneSolSnipe : FoxfireSnipe.Sniper × SnipeHistory :=
  freshSniper default ⟨⟨1⟩, 1⟩ ⟨1, 1, 2, 60, 0, 50⟩ default 0

def snipeInput (event : SolanaStrategyEvent) (now : Instant) (uuid : Uuid) :
    FoxfireSnipe.Input :=
  ⟨event, now, now, now, uuid, none, none, none⟩

/-- Two heartbeats: the first one buys, the second one is a timeout. -/
def buyAndTimeout : List FoxfireSnipe.Input :=
  [snipeInput (.original (.heartBeat FoxfireAgent.tick 0)) 0 ⟨1⟩,
    snipeInput (.original (.heartBeat FoxfireAgent.tick 0)) 200 ⟨2⟩]

/-- The trader's purchase, repeated by a timeout, leaves one attempt unresolved. -/
theorem retry_paid_of_one_timeout :
    ∃ t', FoxfireAgent.logged FoxfireAgent.buyingTrader (FoxfireAgent.timeoutInput ⟨2⟩)
        = some t' ∧ RetryPaid FoxfireAgent.buyingTrader.2
          (FoxfireAgent.timeoutInput ⟨2⟩).event t'.1.2 ∧ t'.1.2.timeouts = 1 := by
  have hreach : Reach FoxfireAgent.logged Always FoxfireAgent.trader
      FoxfireAgent.buyingTrader :=
    .next .init trivial (i := FoxfireAgent.buyInput 0 ⟨1⟩) rfl
  refine ⟨_, rfl, ?_, rfl⟩
  exact retries_paid_by_timeouts.1 _ _ _ _ _ _ _ _ _ hreach rfl
    ⟨List.cons_ne_nil _ _, by decide⟩

/-- **TWO ATTEMPTS IN FLIGHT**: a timeout retries the trader's purchase although its
    first attempt is unresolved, and two purchases of a one SOL snipe commit two
    SOL. -/
theorem timeout_repeats_unresolved_purchase :
    (¬ ∀ (t t' : FoxfireAgent.Agent × Log Uuid) (i : FoxfireAgent.Input)
        (out : List FoxfireAgent.Effect), Reach FoxfireAgent.logged Always
        FoxfireAgent.trader t → FoxfireAgent.logged t i = some (t', out) →
      IsRetry (FoxfireAgent.queuedActions out) t'.1.state.retry →
      EarlierResolved t.2 i.event) ∧
    ¬ ∀ t : FoxfireSnipe.Sniper × SnipeHistory, Reach snipe Always oneSolSnipe t →
      t.2.committed 0 ≤ sizeLamports t.1 := by
  refine ⟨?_, ?_⟩
  · intro hclaim
    have hreach : Reach FoxfireAgent.logged Always FoxfireAgent.trader
        FoxfireAgent.buyingTrader :=
      .next .init trivial (i := FoxfireAgent.buyInput 0 ⟨1⟩) rfl
    have hres := hclaim _ _ (FoxfireAgent.timeoutInput ⟨2⟩) _ hreach rfl
      ⟨List.cons_ne_nil _ _, by decide⟩ ⟨1⟩ (by decide)
    cases hres
  · intro hclaim
    obtain ⟨t, out, hrun, hcommitted, hsize⟩ : ∃ t out,
        run snipe oneSolSnipe buyAndTimeout = some (t, out) ∧
        t.2.committed 0 = 2000000000 ∧ sizeLamports t.1 = 1000000000 :=
      ⟨_, _, rfl, by decide +kernel, by decide +kernel⟩
    have hle := hclaim t (reach_of_run (fun _ _ => trivial) hrun)
    rw [hcommitted, hsize] at hle
    exact absurd hle (by decide)

end FoxfireDoubleSpend
