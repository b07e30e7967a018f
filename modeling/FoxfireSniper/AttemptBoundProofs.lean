import FoxfireSniper.SnipePhaseProofs

/-! # How often a command is attempted

    A waiting state retries as long as its retry count, which starts at zero, is at most
    `RETRIES_IF_ERROR_OR_TIMEOUT`.  So a state is entered once more than it is retried, and
    it is retried once more than the constant says.  `selling` of the sniper passes
    `retry + 1`, and is retried once less.

    * **`handle_retry_le`** — the count never gets beyond the last retry;
    * **`attempting`** is the volume agent with the states beside it that it entered with
      an action since it last obeyed a command.  A command that it ignores does not start
      a new list, so the bounds hold between any two commands;
    * **`attempts_bounded`** has the bounds of both machines, and that a command changes
      nothing while an attempt is active. -/

namespace FoxfireAgent

open FoxfireTypes FoxfireAttempt MachineRun

-- ── The retry count ─────────────────────────────────────────────────────────

/-- A transition to a waiting state: the count starts, or a retry is allowed. -/
def Counts (m : Agent) (target : State) (n : Nat) : Prop :=
  n = 0 ∨ target = m.state.retried ∧ ∃ r, m.state.retry = some r ∧ r ≤ retriesIfErrorOrTimeout

theorem Counts.le {m : Agent} {target : State} {n : Nat} (h : Counts m target n)
    (hn : target.retry = some n) : n ≤ retriesIfErrorOrTimeout + 1 := by
  rcases h with rfl | ⟨rfl, r, hr, hle⟩
  · exact Nat.zero_le _
  · rw [retried_retry hr] at hn
    cases hn
    exact Nat.succ_le_succ hle

theorem retryOrError_counts {m : Agent} {target : State} {r n : Nat} {msg : ErrorMsg}
    (hr : m.state.retry = some r)
    (h : retryOrError r m.state.retried .error msg = .transition target)
    (hn : target.retry = some n) : Counts m target n := by
  rw [retryOrError] at h
  split at h
  · next hle =>
      cases h
      exact Or.inr ⟨rfl, r, hr, hle⟩
  · cases h
    cases hn

theorem attempt_counts {m : Agent} {i : Input} {target : State} {r n : Nat}
    (hr : m.state.retry = some r)
    (h : (m.storage.transitionToSuccessOrError i m.state.retried r).2 = .transition target)
    (hn : target.retry = some n) : Counts m target n := by
  cases attempt_leads h with
  | deactivates hev ht =>
      rcases ht with rfl | hnone
      · cases hn
        exact Or.inl rfl
      · rw [hnone] at hn
        cases hn
  | succeeds ht =>
      rw [ht] at hn
      cases hn
  | retries hretry => exact retryOrError_counts hr hretry hn

theorem await_counts {a : AgentState} {i : Input} {target : State} {n : Nat}
    (h : (a.awaitCommand i).2 = .transition target) (hn : target.retry = some n) : n = 0 := by
  rcases await_leads h with ⟨-, rfl⟩ | hc
  · cases hn
  · rw [retry_of_commanded hc] at hn
    exact (Option.some.inj hn).symm

/-- The last retry of a deactivation has failed, and the receipt says so. -/
def Agent.exhaustedBy (m : Agent) (event : SolanaStrategyEvent) : Prop :=
  ∃ (r : Nat) (receipt : ExecutionReceipt), m.state = .deactivating r ∧
    retriesIfErrorOrTimeout < r ∧ event = receiptEvent receipt ∧ receipt.err ≠ none ∧
    receipt.actionUuid ∈ m.inProgress

/-- Where `deactivating` leads. -/
theorem deactivating_cases {m : Agent} {i : Input} {target : State} {r : Nat}
    (hs : m.state = .deactivating r)
    (h : (m.storage.deactivating i r).2 = .transition target) :
    (target = .deactivating (r + 1) ∧ r ≤ retriesIfErrorOrTimeout) ∨ target = .deactivated ∨
      ∃ msg, target = .error msg ∧ m.exhaustedBy i.event := by
  rw [AgentState.deactivating] at h
  split at h
  · next receipt hev =>
      rcases processExecutionReceipt_cases m.storage.tracker receipt with
        ⟨_, heq⟩ | ⟨_, _, heq⟩ | ⟨err, hmem, herr, heq⟩
      · rw [heq] at h
        cases h
      · rw [heq] at h
        cases h
        exact Or.inr (Or.inl rfl)
      · rw [heq] at h
        dsimp only at h
        rw [retryOrError] at h
        split at h
        · next hle =>
            cases h
            exact Or.inl ⟨rfl, hle⟩
        · next hlt =>
            cases h
            refine Or.inr (Or.inr ⟨_, rfl, r, receipt, hs, Nat.lt_of_not_le hlt, hev, ?_, hmem⟩)
            rw [herr]
            exact fun h => by cases h
  · split at h
    · dsimp only at h
      split at h
      · next hle =>
          cases h
          exact Or.inl ⟨rfl, hle⟩
      · cases h
        exact Or.inr (Or.inl rfl)
    · cases h
  · cases h

/-- **A WAITING STATE IS ENTERED** with count zero, or by a retry that is allowed. -/
theorem dispatch_counts {m : Agent} {i : Input} {target : State} {n : Nat}
    (h : (m.dispatch i).2 = .transition target) (hn : target.retry = some n) :
    Counts m target n := by
  cases hw : m.state.working with
  | true =>
      obtain ⟨r, hr⟩ := retry_of_working hw
      rw [dispatch_working hw hr] at h
      exact attempt_counts hr h hn
  | false =>
      rw [Agent.dispatch] at h
      rcases not_working_cases hw with (hs | hs) | ⟨msg, hs⟩ | ⟨r, hs⟩ | hs
      · rw [hs] at h
        exact Or.inl (await_counts h hn)
      · rw [hs] at h
        exact Or.inl (await_counts h hn)
      · rw [hs] at h
        dsimp only at h
        split at h
        · cases h
          cases hn
        · cases h
          cases hn
          exact Or.inl rfl
      · rw [hs] at h
        rcases deactivating_cases hs h with ⟨rfl, hle⟩ | rfl | ⟨msg, rfl, -⟩
        · rw [Counts, hs]
          exact Or.inr ⟨rfl, r, rfl, hle⟩
        · cases hn
        · cases hn
      · rw [hs] at h
        cases h

/-- A step that ends in a waiting state stayed there, or entered it with one action. -/
theorem handle_waits {m m' : Agent} {i : Input} {out : List Effect} {n : Nat}
    (hn : m'.state.retry = some n) (h : handle m i = some (m', out)) :
    (m'.state = m.state ∧ out = []) ∨
      (Counts m m'.state n ∧ ∃ action, queuedActions out = [action]) := by
  cases hd : m.dispatch i with
  | mk a resp =>
      cases resp with
      | transition target =>
          obtain ⟨hs, -⟩ := handle_transition hd h
          rw [hs] at hn ⊢
          obtain ⟨action, -, hout, -, -⟩ := handle_enters hd hn h
          exact Or.inr ⟨dispatch_counts (congrArg Prod.snd hd) hn, action, hout⟩
      | handled =>
          obtain ⟨rfl, rfl⟩ := handle_stay hd (Or.inr rfl) h
          exact Or.inl ⟨rfl, rfl⟩
      | super =>
          obtain ⟨rfl, rfl⟩ := handle_stay hd (Or.inl rfl) h
          exact Or.inl ⟨rfl, rfl⟩

/-- **THE RETRY COUNT STAYS BELOW THE LAST RETRY.** -/
theorem handle_retry_le {m m' : Agent} {i : Input} {out : List Effect}
    (hI : ∀ n, m.state.retry = some n → n ≤ retriesIfErrorOrTimeout + 1)
    (h : handle m i = some (m', out)) :
    ∀ n, m'.state.retry = some n → n ≤ retriesIfErrorOrTimeout + 1 := by
  intro n hn
  rcases handle_waits hn h with ⟨hs, -⟩ | ⟨hcounts, -⟩
  · rw [hs] at hn
    exact hI n hn
  · exact hcounts.le hn

/-- A command other than `Deactivate` changes nothing while an action is waited for. -/
theorem handle_ignores {m : Agent} {i : Input} {r : Nat} {event : AgentEvent}
    (hr : m.state.retry = some r) (hev : i.event = .forAgent event)
    (hne : event ≠ .deactivate) : handle m i = some (m, []) := by
  have hattempt : ∀ retryAction, m.storage.transitionToSuccessOrError i retryAction r
      = (m.storage, .super) := by
    intro retryAction
    rw [AgentState.transitionToSuccessOrError, hev]
    cases event with
    | deactivate => exact absurd rfl hne
    | transfer batch => rfl
    | collect => rfl
    | buy amt => rfl
    | sell amt => rfl
  have hd : m.dispatch i = (m.storage, .super) := by
    cases hw : m.state.working with
    | true =>
        rw [dispatch_working hw hr]
        exact hattempt _
    | false =>
        rcases not_working_cases hw with (hs | hs) | ⟨msg, hs⟩ | ⟨n, hs⟩ | hs
        · rw [hs] at hr; cases hr
        · rw [hs] at hr; cases hr
        · rw [hs] at hr; cases hr
        · rw [Agent.dispatch, hs]
          show m.storage.deactivating i n = (m.storage, .super)
          rw [AgentState.deactivating, hev]
        · rw [hs] at hr; cases hr
  rw [handle, hd]

end FoxfireAgent

-- ── The volume agent ────────────────────────────────────────────────────────

namespace FoxfireAgent

open FoxfireTypes FoxfireAttempt MachineRun

/-- The commands an agent works on. -/
inductive Work where
  | transferring
  | collecting
  | buying
  | selling
  deriving DecidableEq, Repr

def State.work : State → Option Work
  | .transferring _ _ => some .transferring
  | .collecting _     => some .collecting
  | .buying _ _       => some .buying
  | .selling _ _      => some .selling
  | _                 => none

/-- The agent waits for a command, and this is one. -/
def Agent.obeys (m : Agent) (event : SolanaStrategyEvent) : Bool :=
  (m.state = .idle || m.state = .success) && isCommand event

/-- A command that is obeyed starts a new list; every action queued adds the state that
    queued it. -/
def noteAttempt (entered : List State) (m : Agent) (i : Input) (m' : Agent)
    (out : List Effect) : List State :=
  (if m.obeys i.event then [] else entered) ++ (queuedActions out).map fun _ => m'.state

/-- The agent together with its attempts since the last command it obeyed. -/
abbrev attempting : Step (Agent × List State) Input Effect :=
  tracked handle fun entered m i m' out => noteAttempt entered m i m' out

def freshAttempts (pool : RaydiumPool) (key : Keypair) (sid : Option StrategyId)
    (mainWallet : Option Keypair) (now : Instant) : Agent × List State :=
  (Agent.new pool key sid mainWallet now, [])

/-- The actions queued at one kind of work. -/
def attempts (entered : List State) (w : Work) : Nat := entered.countP fun s => s.work = some w

/-- The attempts so far, and those still allowed. -/
structure Paced (t : Agent × List State) : Prop where
  retry   : ∀ n, t.1.state.retry = some n → n ≤ retriesIfErrorOrTimeout + 1
  total   : ∀ w, attempts t.2 w ≤ retriesIfErrorOrTimeout + 2
  current : ∀ w n, t.1.state.work = some w → t.1.state.retry = some n → attempts t.2 w ≤ n + 1

theorem retried_work (s : State) : s.retried.work = s.work := by
  cases s <;> rfl

theorem work_of_idle {s : State} (h : s.working = false) : s.work = none := by
  cases s <;> first | rfl | cases h

theorem attempts_base (entered : List State) (m : Agent) (event : SolanaStrategyEvent)
    (w : Work) : attempts (if m.obeys event then [] else entered) w ≤ attempts entered w := by
  split
  · exact Nat.zero_le _
  · exact Nat.le_refl _

theorem attempts_quiet {entered : List State} {m m' : Agent} {i : Input} {out : List Effect}
    (hout : queuedActions out = []) (w : Work) :
    attempts (noteAttempt entered m i m' out) w ≤ attempts entered w := by
  rw [noteAttempt, hout, List.map_nil, List.append_nil]
  exact attempts_base entered m i.event w

theorem attempts_queued {entered : List State} {m m' : Agent} {i : Input} {out : List Effect}
    {action : SolanaAction} (hout : queuedActions out = [action]) (w : Work) :
    attempts (noteAttempt entered m i m' out) w
      ≤ attempts entered w + if m'.state.work = some w then 1 else 0 := by
  have hbase := attempts_base entered m i.event w
  rw [noteAttempt, hout, attempts, List.countP_append, List.map_singleton, List.countP_singleton]
  simp only [decide_eq_true_eq]
  exact Nat.add_le_add_right hbase _

/-- A step that works on nothing afterwards. -/
theorem Paced.rests {t : Agent × List State} {m' : Agent} {entered : List State}
    (hI : Paced t) (hretry : ∀ n, m'.state.retry = some n → n ≤ retriesIfErrorOrTimeout + 1)
    (hw : m'.state.work = none) (hle : ∀ w, attempts entered w ≤ attempts t.2 w) :
    Paced (m', entered) := by
  refine ⟨hretry, fun w => (hle w).trans (hI.total w), ?_⟩
  intro w n hwork
  rw [hw] at hwork
  cases hwork

/-- A step that retries. -/
theorem Paced.retries {t : Agent × List State} {m' : Agent} {i : Input} {out : List Effect}
    {action : SolanaAction} {r : Nat} (hI : Paced t)
    (hretry : ∀ n, m'.state.retry = some n → n ≤ retriesIfErrorOrTimeout + 1)
    (hr : t.1.state.retry = some r) (hs : m'.state = t.1.state.retried)
    (hout : queuedActions out = [action]) : Paced (m', noteAttempt t.2 t.1 i m' out) := by
  have hr' : m'.state.retry = some (r + 1) := by rw [hs]; exact retried_retry hr
  have hle : r + 1 ≤ retriesIfErrorOrTimeout + 1 := hretry _ hr'
  have hwork : m'.state.work = t.1.state.work := by rw [hs]; exact retried_work _
  have hcount : ∀ w, m'.state.work = some w →
      attempts (noteAttempt t.2 t.1 i m' out) w ≤ (r + 1) + 1 := by
    intro w hw
    have hadd : attempts (noteAttempt t.2 t.1 i m' out) w ≤
        attempts t.2 w + if m'.state.work = some w then 1 else 0 := attempts_queued hout w
    rw [if_pos hw] at hadd
    have hold := hI.current w r (by rw [← hwork]; exact hw) hr
    omega
  refine ⟨hretry, ?_, ?_⟩
  · intro w
    by_cases hw : m'.state.work = some w
    · have hw' := hcount w hw
      show attempts (noteAttempt t.2 t.1 i m' out) w ≤ _
      omega
    · have hadd : attempts (noteAttempt t.2 t.1 i m' out) w ≤
          attempts t.2 w + if m'.state.work = some w then 1 else 0 := attempts_queued hout w
      rw [if_neg hw] at hadd
      exact hadd.trans (hI.total w)
  · intro w n hw hn
    have hn' : m'.state.retry = some n := hn
    rw [hr'] at hn'
    cases hn'
    exact hcount w hw

theorem paced_step {t t' : Agent × List State} {i : Input} {out : List Effect} (hI : Paced t)
    (h : attempting t i = some (t', out)) : Paced t' := by
  obtain ⟨hstep, hnote⟩ := tracked_eq_some h
  have hretry := handle_retry_le hI.retry hstep
  have ht' : t' = (t'.1, noteAttempt t.2 t.1 i t'.1 out) := Prod.ext rfl hnote
  rw [ht']
  cases handle_cases hstep with
  | quiet hstate _ hout =>
      have hle : ∀ w, attempts (noteAttempt t.2 t.1 i t'.1 out) w ≤ attempts t.2 w :=
        attempts_quiet hout
      rcases hstate with hs | ⟨hw, -⟩
      · refine ⟨hretry, fun w => (hle w).trans (hI.total w), ?_⟩
        intro w n hw hn
        have hw' : t'.1.state.work = some w := hw
        have hn' : t'.1.state.retry = some n := hn
        rw [hs] at hw' hn'
        exact (hle w).trans (hI.current w n hw' hn')
      · exact hI.rests hretry (work_of_idle hw) hle
  | succeeded _ _ _ _ hs _ hout =>
      exact hI.rests hretry (by rw [hs]; rfl) (attempts_quiet hout)
  | started hcause hr _ hout _ =>
      by_cases hw : t'.1.state.working = true
      · -- the command is obeyed: its first attempt is the only one
        have hcmd : t.1.obeys i.event = true := by
          rcases hcause with ⟨hs, hc⟩ | hfalse
          · rw [Agent.obeys, hc]
            rcases hs with hs | hs
            · rw [hs]; rfl
            · rw [hs]; rfl
          · rw [hw] at hfalse
            cases hfalse
        have hone : ∀ w, attempts (noteAttempt t.2 t.1 i t'.1 out) w ≤ 1 := by
          intro w
          rw [noteAttempt, hcmd, hout]
          exact List.countP_le_length
        refine ⟨hretry, fun w => (hone w).trans (Nat.le_add_left _ _), ?_⟩
        intro w n _ _
        exact (hone w).trans (Nat.le_add_left _ _)
      · have hnone := work_of_idle (by simpa using hw : t'.1.state.working = false)
        refine hI.rests hretry hnone ?_
        intro w
        have hadd : attempts (noteAttempt t.2 t.1 i t'.1 out) w ≤
            attempts t.2 w + if t'.1.state.work = some w then 1 else 0 := attempts_queued hout w
        rw [hnone, if_neg (fun h => by cases h)] at hadd
        exact hadd
  | retriedFailed hr hs _ _ _ hout _ => exact hI.retries hretry hr hs hout
  | retriedTimeout hr hs _ _ _ hout _ => exact hI.retries hretry hr hs hout

theorem paced_reach {pool : RaydiumPool} {key : Keypair} {sid : Option StrategyId}
    {mainWallet : Option Keypair} {now : Instant} {t : Agent × List State}
    (h : Reach attempting Always (freshAttempts pool key sid mainWallet now) t) : Paced t := by
  refine h.invariant ?_ (fun s i s' out hI _ hs => paced_step hI hs)
  refine ⟨?_, fun _ => Nat.zero_le _, ?_⟩
  · intro n hn
    cases hn
  · intro w n hw
    cases hw

end FoxfireAgent

-- ── The sniper ──────────────────────────────────────────────────────────────

namespace FoxfireSnipe

open FoxfireTypes FoxfireAttempt MachineRun

/-- The sniper together with the states that it entered with an action. -/
abbrev lifetime : Step (Sniper × List State) Input Effect :=
  tracked handle fun entered _ _ m' out => entered ++ (queuedActions out).map fun _ => m'.state

def freshLifetime (pool : RaydiumPool) (key : Keypair) (inst : SnipingStrategyInstance)
    (deployPrice : RaydiumPoolPriceUpdate) (now : Instant) : Sniper × List State :=
  (Sniper.new pool key inst deployPrice now, [])

/-- The purchases and sales that were queued. -/
def purchases (entered : List State) : Nat := entered.countP isBuying

def sales (entered : List State) : Nat := entered.countP isSelling

/-- The attempts so far, and those still allowed. -/
structure Spent (t : Sniper × List State) : Prop where
  charged   : t.1.state.charged ≤ retriesIfErrorOrTimeout + 1
  purchases : purchases t.2 ≤ retriesIfErrorOrTimeout + 2
  sales     : sales t.2 ≤ retriesIfErrorOrTimeout + 1
  waiting   : t.1.state = .waitingToBuy → t.2 = []
  buying    : ∀ amt r, t.1.state = .buying amt r → FoxfireSnipe.purchases t.2 ≤ r + 1
  unsold    : t.1.state.rank < 3 → FoxfireSnipe.sales t.2 = 0
  selling   : ∀ amt r, t.1.state = .selling amt r → FoxfireSnipe.sales t.2 ≤ r + 1

/-- The count passed to `conditional_transition` stays below the last retry. -/
theorem Turns.charged_le {m : Sniper} {i : Input} {target : State} (h : Turns m i target) :
    target.charged ≤ retriesIfErrorOrTimeout + 1 := by
  cases h with
  | buys _ => exact Nat.zero_le _
  | skips _ => exact Nat.zero_le _
  | retries hr hle =>
      have hcharged : m.state.retried.charged = m.state.charged + 1 := by
        cases hs : m.state with
        | buying amt r => rfl
        | selling amt r => rfl
        | waitingToBuy => rw [hs] at hr; cases hr
        | waitingToSell => rw [hs] at hr; cases hr
        | done => rw [hs] at hr; cases hr
        | error msg => rw [hs] at hr; cases hr
      rw [hcharged]
      exact Nat.succ_le_succ hle
  | bought _ _ _ _ => exact Nat.zero_le _
  | sells _ => exact Nat.succ_le_succ (Nat.zero_le _)
  | sold _ _ _ _ => exact Nat.zero_le _
  | fails _ => exact Nat.zero_le _

/-- No step goes back to an earlier phase, or beyond the last retry. -/
theorem handle_forward {m m' : Sniper} {i : Input} {out : List Effect}
    (h : handle m i = some (m', out)) :
    m.state.rank ≤ m'.state.rank ∧ (m.state.charged ≤ retriesIfErrorOrTimeout + 1 →
      m'.state.charged ≤ retriesIfErrorOrTimeout + 1) := by
  rcases handle_turns h with ⟨target, -, hs, hturn⟩ | ⟨-, hs, -⟩
  · rw [hs]
    exact ⟨hturn.rank_le, fun _ => hturn.charged_le⟩
  · rw [hs]
    exact ⟨Nat.le_refl _, id⟩

theorem purchases_buying (entered : List State) (amt : Amount) (r : Nat) :
    purchases (entered ++ [.buying amt r]) = purchases entered + 1 := by
  rw [purchases, List.countP_append, List.countP_singleton]
  rfl

theorem sales_buying (entered : List State) (amt : Amount) (r : Nat) :
    sales (entered ++ [.buying amt r]) = sales entered := by
  rw [sales, List.countP_append, List.countP_singleton]
  rfl

theorem purchases_selling (entered : List State) (amt : Amount) (r : Nat) :
    purchases (entered ++ [.selling amt r]) = purchases entered := by
  rw [purchases, List.countP_append, List.countP_singleton]
  rfl

theorem sales_selling (entered : List State) (amt : Amount) (r : Nat) :
    sales (entered ++ [.selling amt r]) = sales entered + 1 := by
  rw [sales, List.countP_append, List.countP_singleton]
  rfl

/-- Once more in `buying`, before any sale. -/
theorem spent_buys {t : Sniper × List State} {m' : Sniper} {amt : Amount} {r : Nat}
    (hs : m'.state = .buying amt r)
    (hcharged : m'.state.charged ≤ retriesIfErrorOrTimeout + 1)
    (hbuys : FoxfireSnipe.purchases t.2 ≤ r) (hunsold : FoxfireSnipe.sales t.2 = 0) :
    Spent (m', t.2 ++ [m'.state]) := by
  have hle : r ≤ retriesIfErrorOrTimeout + 1 := by
    rw [hs] at hcharged
    exact hcharged
  have hcount := purchases_buying t.2 amt r
  have hsales := (sales_buying t.2 amt r).trans hunsold
  refine ⟨hcharged, ?_, ?_, ?_, ?_, ?_, ?_⟩
  · rw [hs, hcount]
    omega
  · rw [hs, hsales]
    exact Nat.zero_le _
  · intro h
    rw [hs] at h
    cases h
  · intro a k h
    rw [hs] at h
    cases h
    rw [hs, hcount]
    omega
  · intro _
    rw [hs]
    exact hsales
  · intro a k h
    rw [hs] at h
    cases h

/-- Once more in `selling`. -/
theorem Spent.sells {t : Sniper × List State} {m' : Sniper} {amt : Amount} {r : Nat}
    (hI : Spent t) (hs : m'.state = .selling amt r)
    (hcharged : m'.state.charged ≤ retriesIfErrorOrTimeout + 1)
    (hsold : FoxfireSnipe.sales t.2 ≤ r) : Spent (m', t.2 ++ [m'.state]) := by
  have hle : r + 1 ≤ retriesIfErrorOrTimeout + 1 := by
    rw [hs] at hcharged
    exact hcharged
  have hcount := sales_selling t.2 amt r
  refine ⟨hcharged, ?_, ?_, ?_, ?_, ?_, ?_⟩
  · rw [hs, purchases_selling]
    exact hI.purchases
  · rw [hs, hcount]
    omega
  · intro h
    rw [hs] at h
    cases h
  · intro a k h
    rw [hs] at h
    cases h
  · intro h
    rw [hs] at h
    exact absurd h (Nat.lt_irrefl 3)
  · intro a k h
    rw [hs] at h
    cases h
    rw [hs, hcount]
    omega

/-- A step that retries. -/
theorem Spent.retries {t : Sniper × List State} {m' : Sniper} {r : Nat} (hI : Spent t)
    (hcharged : m'.state.charged ≤ retriesIfErrorOrTimeout + 1)
    (hr : t.1.state.retry = some r) (hs : m'.state = t.1.state.retried) :
    Spent (m', t.2 ++ [m'.state]) := by
  cases hstate : t.1.state with
  | buying amt n =>
      refine spent_buys (by rw [hs, hstate]; rfl) hcharged (hI.buying amt n hstate) ?_
      exact hI.unsold (by rw [hstate]; exact (show 1 < 3 by omega))
  | selling amt n =>
      exact hI.sells (by rw [hs, hstate]; rfl) hcharged (hI.selling amt n hstate)
  | waitingToBuy => rw [hstate] at hr; cases hr
  | waitingToSell => rw [hstate] at hr; cases hr
  | done => rw [hstate] at hr; cases hr
  | error msg => rw [hstate] at hr; cases hr

theorem spent_step {t t' : Sniper × List State} {i : Input} {out : List Effect} (hI : Spent t)
    (h : lifetime t i = some (t', out)) : Spent t' := by
  obtain ⟨hstep, hnote⟩ := tracked_eq_some h
  obtain ⟨hrank, hcharged⟩ := handle_forward hstep
  have hcharged := hcharged hI.charged
  have ht' : t' = (t'.1, t.2 ++ (queuedActions out).map fun _ => t'.1.state) :=
    Prod.ext rfl hnote
  rw [ht']
  cases handle_cases hstep with
  | quiet hstate _ hout =>
      rw [hout, List.map_nil, List.append_nil]
      have hsame : t'.1.state.retry ≠ none ∨ t'.1.state = .waitingToBuy →
          t'.1.state = t.1.state := by
        intro hor
        rcases hstate with hs | ⟨hr, hne⟩
        · exact hs
        · rcases hor with hr' | hw
          · exact absurd hr hr'
          · exact absurd hw hne
      refine ⟨hcharged, hI.purchases, hI.sales, ?_, ?_, ?_, ?_⟩
      · intro hw
        exact hI.waiting ((hsame (Or.inr hw)).symm.trans hw)
      · intro amt r hs
        have hs' : t'.1.state = .buying amt r := hs
        refine hI.buying amt r ((hsame (Or.inl ?_)).symm.trans hs')
        rw [hs']
        exact fun h => by cases h
      · exact fun hlt => hI.unsold (Nat.lt_of_le_of_lt hrank hlt)
      · intro amt r hs
        have hs' : t'.1.state = .selling amt r := hs
        refine hI.selling amt r ((hsame (Or.inl ?_)).symm.trans hs')
        rw [hs']
        exact fun h => by cases h
  | bought hfrom hs hq =>
      rw [hq.out, List.map_singleton]
      refine spent_buys hs hcharged ?_ (hI.unsold ?_)
      · rw [hI.waiting hfrom]
        exact Nat.le_refl 0
      · rw [hfrom]
        exact (show 0 < 3 by omega)
  | sold hfrom hs hq =>
      rw [hq.out, List.map_singleton]
      refine hI.sells hs hcharged ?_
      rw [hI.unsold (by rw [hfrom]; exact (show 2 < 3 by omega))]
  | retriedFailed hr hs _ _ hq =>
      rw [hq.out, List.map_singleton]
      exact hI.retries hcharged hr hs
  | retriedTimeout hr hs _ hq =>
      rw [hq.out, List.map_singleton]
      exact hI.retries hcharged hr hs

theorem spent_reach {pool : RaydiumPool} {key : Keypair} {inst : SnipingStrategyInstance}
    {deployPrice : RaydiumPoolPriceUpdate} {now : Instant} {t : Sniper × List State}
    (h : Reach lifetime Always (freshLifetime pool key inst deployPrice now) t) : Spent t := by
  refine h.invariant ?_ (fun s i s' out hI _ hs => spent_step hI hs)
  refine ⟨Nat.zero_le _, Nat.zero_le _, Nat.zero_le _, fun _ => rfl, ?_, fun _ => rfl, ?_⟩
  · intro amt r hs
    cases hs
  · intro amt r hs
    cases hs

/-- A command changes nothing while the sniper waits for an action. -/
theorem handle_ignores {m : Sniper} {i : Input} {r : Nat} {event : AgentEvent}
    (hr : m.state.retry = some r) (hev : i.event = .forAgent event) :
    ∃ m', handle m i = some (m', []) ∧ m'.state = m.state := by
  have hattempt : ∀ retryAction success n,
      (m.ready i).conditionalTransition i retryAction success n = (m.ready i, .super) := by
    intro retryAction success n
    rw [SniperAgentState.conditionalTransition, hev]
    rfl
  have hd : (m.ready i).dispatch i m.state = (m.ready i, .super) := by
    cases hs : m.state with
    | buying amt n => exact hattempt _ _ _
    | selling amt n => exact hattempt _ _ _
    | waitingToBuy => rw [hs] at hr; cases hr
    | waitingToSell => rw [hs] at hr; cases hr
    | done => rw [hs] at hr; cases hr
    | error msg => rw [hs] at hr; cases hr
  refine ⟨⟨m.state, m.ready i, true⟩, ?_, rfl⟩
  rw [handle, hd]

end FoxfireSnipe

-- ── Both machines ───────────────────────────────────────────────────────────

namespace FoxfireAttemptBound

open FoxfireTypes FoxfireAttempt MachineRun

/-- **HOW OFTEN MONEY IS SENT.**  In every run: between two commands the volume agent queues
    at most `RETRIES_IF_ERROR_OR_TIMEOUT + 2` actions of each kind, and a snipe queues as
    many purchases and one sale less in all.  A command that arrives while an action is
    waited for changes nothing, unless it tells the volume agent to deactivate. -/
theorem attempts_bounded (pool : RaydiumPool) (key : Keypair) (sid : Option StrategyId)
    (mainWallet : Option Keypair) (inst : FoxfireSnipe.SnipingStrategyInstance)
    (deployPrice : RaydiumPoolPriceUpdate) (now : Instant) :
    (∀ t, Reach FoxfireAgent.attempting Always
        (FoxfireAgent.freshAttempts pool key sid mainWallet now) t →
      (∀ w, FoxfireAgent.attempts t.2 w ≤ retriesIfErrorOrTimeout + 2) ∧
      ∀ i event, t.1.state.retry ≠ none → i.event = .forAgent event → event ≠ .deactivate →
        FoxfireAgent.handle t.1 i = some (t.1, [])) ∧
    (∀ t, Reach FoxfireSnipe.lifetime Always
        (FoxfireSnipe.freshLifetime pool key inst deployPrice now) t →
      FoxfireSnipe.purchases t.2 ≤ retriesIfErrorOrTimeout + 2 ∧
      FoxfireSnipe.sales t.2 ≤ retriesIfErrorOrTimeout + 1 ∧
      ∀ i event, t.1.state.retry ≠ none → i.event = .forAgent event →
        ∃ m', FoxfireSnipe.handle t.1 i = some (m', []) ∧ m'.state = t.1.state) := by
  refine ⟨?_, ?_⟩
  · intro t hreach
    refine ⟨(FoxfireAgent.paced_reach hreach).total, ?_⟩
    intro i event hr hev hne
    obtain ⟨r, hr⟩ := Option.ne_none_iff_exists'.mp hr
    exact FoxfireAgent.handle_ignores hr hev hne
  · intro t hreach
    have hI := FoxfireSnipe.spent_reach hreach
    refine ⟨hI.purchases, hI.sales, ?_⟩
    intro i event hr hev
    obtain ⟨r, hr⟩ := Option.ne_none_iff_exists'.mp hr
    exact FoxfireSnipe.handle_ignores hr hev

/-- A heartbeat for the volume agent, and for the sniper. -/
def beat (now : Instant) (uuid : Uuid) : FoxfireAgent.Input :=
  FoxfireAgent.input (.original (.heartBeat FoxfireAgent.tick 0)) now uuid

/-- Told to buy, then nothing is heard for three timeouts. -/
def buyAndWait : List FoxfireAgent.Input :=
  [FoxfireAgent.buyInput 0 ⟨1⟩, beat 200 ⟨2⟩, beat 400 ⟨3⟩, beat 600 ⟨4⟩]

/-- The same for a snipe. -/
def snipeAndWait : List FoxfireSnipe.Input :=
  [FoxfireSnipe.beatAt 0 ⟨1⟩, FoxfireSnipe.beatAt 200 ⟨2⟩, FoxfireSnipe.beatAt 400 ⟨3⟩,
    FoxfireSnipe.beatAt 600 ⟨4⟩]

/-- Both have queued four purchases then, and the trader ignores the command to sell. -/
theorem four_purchases :
    ∃ t out t' out',
      run FoxfireAgent.attempting (FoxfireAgent.freshAttempts default ⟨⟨1⟩, 1⟩ (some 1)
        (some ⟨⟨9⟩, 9⟩) 0) buyAndWait = some (t, out) ∧
      FoxfireAgent.attempts t.2 .buying = 4 ∧
      (∀ w, FoxfireAgent.attempts t.2 w ≤ retriesIfErrorOrTimeout + 2) ∧
      FoxfireAgent.handle t.1 (FoxfireAgent.input (.forAgent (.sell .max)) 601 ⟨5⟩)
        = some (t.1, []) ∧
      run FoxfireSnipe.lifetime (FoxfireSnipe.freshLifetime default ⟨⟨1⟩, 1⟩
        ⟨1, 1, 2, 60, 0, 50⟩ default 0) snipeAndWait = some (t', out') ∧
      FoxfireSnipe.purchases t'.2 = 4 ∧
      FoxfireSnipe.purchases t'.2 ≤ retriesIfErrorOrTimeout + 2 := by
  obtain ⟨hagent, hsniper⟩ := attempts_bounded default ⟨⟨1⟩, 1⟩ (some 1) (some ⟨⟨9⟩, 9⟩)
    ⟨1, 1, 2, 60, 0, 50⟩ default 0
  obtain ⟨t, out, hrun, hfour, hwait⟩ : ∃ t out,
      run FoxfireAgent.attempting (FoxfireAgent.freshAttempts default ⟨⟨1⟩, 1⟩ (some 1)
        (some ⟨⟨9⟩, 9⟩) 0) buyAndWait = some (t, out) ∧
      FoxfireAgent.attempts t.2 .buying = 4 ∧ t.1.state.retry = some 3 := ⟨_, _, rfl, rfl, rfl⟩
  obtain ⟨t', out', hrun', hfour'⟩ : ∃ t' out',
      run FoxfireSnipe.lifetime (FoxfireSnipe.freshLifetime default ⟨⟨1⟩, 1⟩
        ⟨1, 1, 2, 60, 0, 50⟩ default 0) snipeAndWait = some (t', out') ∧
      FoxfireSnipe.purchases t'.2 = 4 := ⟨_, _, rfl, rfl⟩
  obtain ⟨hbound, hignores⟩ := hagent t (reach_of_run (fun _ _ => trivial) hrun)
  obtain ⟨hbuys, -, -⟩ := hsniper t' (reach_of_run (fun _ _ => trivial) hrun')
  refine ⟨t, out, t', out', hrun, hfour, hbound, hignores _ _ ?_ rfl ?_, hrun', hfour', hbuys⟩
  · rw [hwait]
    exact fun h => by cases h
  · exact fun h => by cases h

end FoxfireAttemptBound
