import FoxfireSniper.RankingProofs
import FoxfireSniper.TimerProofs

/-! # No command keeps an agent busy forever

    The strategies move on when their agents have finished.  `timer_armed` ends one attempt;
    here the attempts are counted.

    * **`waiting_leads`**: a transition of a waiting state leaves fewer attempts, whatever its
      cause, `Deactivate` included.
    * **`wait_ends`**: an agent that waits for an action stops waiting before it has seen as
      many late heartbeats as attempts are left, eight at most, whatever else it is sent. -/

namespace FoxfireAgent

open FoxfireTypes FoxfireAttempt MachineRun

/-- How many attempts a waiting state can still make.  A command that is being executed can
    be cut short by `Deactivate`, which has attempts of its own. -/
def State.attemptsLeft (s : State) : Nat :=
  match s.retry with
  | none   => 0
  | some r =>
      (retriesIfErrorOrTimeout + 1 - r) +
        if s.working = true then retriesIfErrorOrTimeout + 3 else 1

theorem attemptsLeft_none {s : State} (h : s.retry = none) : s.attemptsLeft = 0 := by
  rw [State.attemptsLeft, h]

theorem attemptsLeft_some {s : State} {r : Nat} (h : s.retry = some r) :
    s.attemptsLeft = (retriesIfErrorOrTimeout + 1 - r) +
      if s.working = true then retriesIfErrorOrTimeout + 3 else 1 := by
  rw [State.attemptsLeft, h]

theorem attemptsLeft_retried {s : State} {r : Nat} (hr : s.retry = some r)
    (hle : r ≤ retriesIfErrorOrTimeout) : s.retried.attemptsLeft < s.attemptsLeft := by
  rw [attemptsLeft_some hr, attemptsLeft_some (retried_retry hr), retried_working]
  omega

theorem attemptsLeft_pos {s : State} {r : Nat} (hr : s.retry = some r) : 0 < s.attemptsLeft := by
  rw [attemptsLeft_some hr]
  split
  · omega
  · omega

-- ── What a transition leaves ────────────────────────────────────────────────

theorem retryOrError_leaves {s target : State} {r : Nat} {msg : ErrorMsg}
    (hr : s.retry = some r) (h : retryOrError r s.retried .error msg = .transition target) :
    target.attemptsLeft < s.attemptsLeft := by
  rw [retryOrError] at h
  split at h
  · next hle =>
      cases h
      exact attemptsLeft_retried hr hle
  · cases h
    exact (attemptsLeft_none rfl).trans_lt (attemptsLeft_pos hr)

/-- Where `deactivating` leads. -/
theorem deactivating_leaves {m : Agent} {i : Input} {r : Nat} {target : State}
    (hs : m.state = .deactivating r)
    (h : (m.storage.deactivating i r).2 = .transition target) :
    target.attemptsLeft < m.state.attemptsLeft := by
  have hr : m.state.retry = some r := by rw [hs]; rfl
  have hretried : State.deactivating (r + 1) = m.state.retried := by rw [hs]; rfl
  have hgone : State.deactivated.attemptsLeft < m.state.attemptsLeft :=
    (attemptsLeft_none rfl).trans_lt (attemptsLeft_pos hr)
  rw [AgentState.deactivating] at h
  split at h
  · split at h
    · cases h
      exact hgone
    · cases h
    · rw [hretried] at h
      exact retryOrError_leaves hr h
  · split at h
    · dsimp only at h
      split at h
      · next hle =>
          cases h
          rw [hretried]
          exact attemptsLeft_retried hr hle
      · cases h
        exact hgone
    · cases h
  · cases h

/-- **A TRANSITION OF A WAITING STATE LEAVES FEWER ATTEMPTS.** -/
theorem waiting_leads {m : Agent} {i : Input} {r : Nat} {target : State}
    (hr : m.state.retry = some r) (h : (m.dispatch i).2 = .transition target) :
    target.attemptsLeft < m.state.attemptsLeft := by
  cases hw : m.state.working with
  | true =>
      rw [dispatch_working hw hr] at h
      cases attempt_leads h with
      | deactivates _ ht =>
          rcases ht with rfl | ht
          · rw [attemptsLeft_some hr, attemptsLeft_some (s := .deactivating 0) rfl, if_pos hw,
              if_neg (by decide)]
            omega
          · exact (attemptsLeft_none ht).trans_lt (attemptsLeft_pos hr)
      | succeeds ht =>
          rw [ht]
          exact (attemptsLeft_none rfl).trans_lt (attemptsLeft_pos hr)
      | retries hretry => exact retryOrError_leaves hr hretry
  | false =>
      rcases not_working_cases hw with (hs | hs) | ⟨msg, hs⟩ | ⟨n, hs⟩ | hs
      · rw [hs] at hr; cases hr
      · rw [hs] at hr; cases hr
      · rw [hs] at hr; cases hr
      · have hd : m.dispatch i = m.storage.deactivating i n := by rw [Agent.dispatch, hs]
        rw [hd] at h
        exact deactivating_leaves hs h
      · rw [hs] at hr; cases hr

-- ── The clock ───────────────────────────────────────────────────────────────

/-- The clock does not go back; a heartbeat is counted if it comes a whole lap after the
    event before it. -/
def lateHeartBeats : Observer Instant Input where
  next _ i := i.queuedAt
  Admits c i := c ≤ i.now ∧ i.now ≤ i.queuedAt
  counts c i :=
    match i.event with
    | .original (.heartBeat tick _) => c + timeoutForActionExecutionHbs * tick.ms ≤ i.now
    | _ => false

/-- The timer of a waiting state was started before `c`. -/
def Timed (c : Instant) (m : Agent) : Prop :=
  ∀ r, m.state.retry = some r →
    m.storage.tracker.timeoutTimer.lapTicks = timeoutForActionExecutionHbs ∧
      m.storage.tracker.timeoutTimer.start ≤ c

theorem Timed.stays {c : Instant} {m : Agent} {i : Input} {a : AgentState}
    {resp : Response State} (hT : Timed c m) (hd : m.dispatch i = (a, resp))
    (hresp : ∀ target, resp ≠ .transition target) (hc : c ≤ i.queuedAt) :
    Timed i.queuedAt ⟨m.state, a⟩ := by
  intro r hr
  have htimer : (m.dispatch i).1.tracker.timeoutTimer = m.storage.tracker.timeoutTimer := by
    refine dispatch_stays_timer hr ?_
    rw [hd]
    exact hresp
  rw [hd] at htimer
  show a.tracker.timeoutTimer.lapTicks = _ ∧ a.tracker.timeoutTimer.start ≤ _
  rw [htimer]
  exact ⟨(hT r hr).1, (hT r hr).2.trans hc⟩

/-- **ONE STEP** on the clock. -/
theorem Timed.step {c : Instant} {m m' : Agent} {i : Input} {out : List Effect}
    (hT : Timed c m) (hadm : lateHeartBeats.Admits c i) (h : handle m i = some (m', out)) :
    Timed i.queuedAt m' := by
  have hc : c ≤ i.queuedAt := hadm.1.trans hadm.2
  cases hd : m.dispatch i with
  | mk a resp =>
      cases resp with
      | transition target =>
          obtain ⟨hs, he⟩ := handle_transition hd h
          intro r hr
          obtain ⟨action, -, -, ht⟩ := enter_queues (hs ▸ hr) he
          rw [ht]
          exact ⟨rfl, Nat.le_refl _⟩
      | handled =>
          obtain ⟨rfl, -⟩ := handle_stay hd (Or.inr rfl) h
          exact hT.stays hd (fun _ heq => by cases heq) hc
      | super =>
          obtain ⟨rfl, -⟩ := handle_stay hd (Or.inl rfl) h
          exact hT.stays hd (fun _ heq => by cases heq) hc

/-- **A LATE HEARTBEAT ENDS THE ATTEMPT.** -/
theorem Timed.overdue {c : Instant} {m : Agent} {i : Input} {r : Nat} (hT : Timed c m)
    (hr : m.state.retry = some r) (hcount : lateHeartBeats.counts c i = true) :
    ∃ target, (m.dispatch i).2 = .transition target := by
  simp only [lateHeartBeats] at hcount
  split at hcount
  · next tick at_ hev =>
      obtain ⟨hticks, hstart⟩ := hT r hr
      have hlate : timeoutForActionExecutionHbs * tick.ms ≤ i.now - c :=
        Nat.le_sub_of_add_le' (of_decide_eq_true hcount)
      have htime : m.storage.tracker.timeoutTimer.isTimeElapsed tick i.now = true := by
        refine lap_elapsed (by rw [hticks]; exact Nat.succ_pos _) ?_
        rw [hticks, Stopwatch.ticksElapsed, Nat.le_div_iff_mul_le tick.pos]
        exact hlate.trans (Nat.sub_le_sub_left hstart i.now)
      obtain ⟨t, hd⟩ := dispatch_timeout hr hev htime
      exact ⟨_, congrArg Prod.snd hd⟩
  · cases hcount

-- ── The ranking ─────────────────────────────────────────────────────────────

/-- Has the agent stopped waiting? -/
def Agent.rests (m : Agent) : Bool := m.state.retry.isNone

theorem not_rests {m : Agent} (h : ¬ m.rests = true) : ∃ r, m.state.retry = some r := by
  rw [Agent.rests, Option.isNone_iff_eq_none] at h
  exact Option.ne_none_iff_exists'.mp h

/-- A count of the attempts that a waiting agent has left, as long as it is sent nothing but
    what meets `P`: every transition uses one up. -/
structure AttemptCount (P : Input → Prop) where
  left  : State → Nat
  zero  : ∀ s, s.retry = none → left s = 0
  pos   : ∀ s r, s.retry = some r → 0 < left s
  leads : ∀ (m : Agent) (i : Input) r target, P i → m.state.retry = some r →
    (m.dispatch i).2 = .transition target → left target < left m.state

variable {P : Input → Prop}

/-- Attempts are only used up while the agent waits. -/
theorem AttemptCount.waiting_le (A : AttemptCount P) {m m' : Agent} {i : Input}
    {out : List Effect} {r : Nat} (hi : P i) (hr : m.state.retry = some r)
    (h : handle m i = some (m', out)) : A.left m'.state ≤ A.left m.state := by
  cases hd : m.dispatch i with
  | mk a resp =>
      cases resp with
      | transition target =>
          obtain ⟨hs, -⟩ := handle_transition hd h
          rw [hs]
          exact (A.leads m i r target hi hr (congrArg Prod.snd hd)).le
      | handled =>
          obtain ⟨rfl, -⟩ := handle_stay hd (Or.inr rfl) h
          exact Nat.le_refl _
      | super =>
          obtain ⟨rfl, -⟩ := handle_stay hd (Or.inl rfl) h
          exact Nat.le_refl _

variable {c : Instant} {m m' : Agent} {i : Input} {out : List Effect}

theorem AttemptCount.keeps (hT : Timed c m) (hadm : (lateHeartBeats.restrict P).Admits c i)
    (h : stopped Agent.rests handle m i = some (m', out)) : Timed i.queuedAt m' := by
  rw [stopped] at h
  split at h
  · next hrests =>
      obtain ⟨rfl, -⟩ := Prod.mk.inj (Option.some.inj h)
      intro r hr
      rw [Agent.rests, hr] at hrests
      cases hrests
  · exact hT.step hadm.1 h

theorem AttemptCount.weakly (A : AttemptCount P) (hadm : (lateHeartBeats.restrict P).Admits c i)
    (h : stopped Agent.rests handle m i = some (m', out)) :
    A.left m'.state ≤ A.left m.state := by
  rw [stopped] at h
  split at h
  · obtain ⟨rfl, -⟩ := Prod.mk.inj (Option.some.inj h)
    exact Nat.le_refl _
  · next hrests =>
      obtain ⟨r, hr⟩ := not_rests hrests
      exact A.waiting_le hadm.2 hr h

theorem AttemptCount.lowers (A : AttemptCount P) (hT : Timed c m)
    (hadm : (lateHeartBeats.restrict P).Admits c i) (hcount : lateHeartBeats.counts c i = true)
    (hpos : 0 < A.left m.state) (h : stopped Agent.rests handle m i = some (m', out)) :
    A.left m'.state < A.left m.state := by
  rw [stopped] at h
  split at h
  · next hrests =>
      rw [A.zero m.state (Option.isNone_iff_eq_none.mp hrests)] at hpos
      omega
  · next hrests =>
      obtain ⟨r, hr⟩ := not_rests hrests
      obtain ⟨target, htarget⟩ := hT.overdue hr hcount
      obtain ⟨hs, -⟩ := handle_transition (Prod.ext rfl htarget) h
      rw [hs]
      exact A.leads m i r target hadm.2 hr htarget

/-- The attempts of an agent, up to the moment it stops waiting. -/
def AttemptCount.ranking (A : AttemptCount P) :
    Ranking (stopped Agent.rests handle) (lateHeartBeats.restrict P) where
  rank m := A.left m.state
  Inv    := Timed
  keeps _ _ _ _ _ hT hadm h            := AttemptCount.keeps hT hadm h
  weakly _ _ _ _ _ _ hadm h            := A.weakly hadm h
  lowers _ _ _ _ _ hT hadm hcount hpos := A.lowers hT hadm hcount hpos

/-- **WHERE AN AGENT STOPS WAITING**: somewhere in a run with as many late heartbeats as
    attempts were left. -/
theorem AttemptCount.rests (A : AttemptCount P) {t : Agent} {inputs : List Input}
    (hm : Timed c m) (hP : ∀ i ∈ inputs, P i) (hclock : lateHeartBeats.Admitted c inputs)
    (hlate : A.left m.state ≤ lateHeartBeats.count c inputs)
    (hrun : run handle m inputs = some (t, out)) :
    ∃ past m' out', past <+: inputs ∧ run handle m past = some (m', out') ∧
      m'.state.retry = none := by
  rw [← Observer.count_restrict P] at hlate
  obtain ⟨past, m', out', hp, hpast, hhalt, -⟩ := run_stopped Agent.rests hrun
  have hzero : A.left m'.state = 0 := A.ranking.ends hm (hclock.restrict hP) hlate hhalt
  refine ⟨past, m', out', hp, hpast, ?_⟩
  cases hr : m'.state.retry with
  | none => rfl
  | some r =>
      have hpos := A.pos m'.state r hr
      omega

end FoxfireAgent
