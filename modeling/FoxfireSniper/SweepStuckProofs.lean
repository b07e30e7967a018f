import FoxfireSniper.SweepPaymentProofs

/-! # When the sweeper stays in `sweeping`

    `get_execution_status` answers `Done` if an agent has succeeded, `Error` if all have
    failed, and `Idle` if there is none.  The handler of `sweeping` reacts to `Done` only.
    (That of the volume strategy reacts to `Error` as well, and takes no agents for an
    error.)

    * **`Lost`** is the invariant of a sweeper in which nobody has succeeded: nobody will;
    * **`Won`** that of one in which somebody has, while an event is handled;
    * **`sweeping_left_iff`** puts the two together.  It supposes that no task hands an event
      to an agent in its error state meanwhile: such an agent tries to deactivate, which
      `get_execution_status` takes for work;
    * **`sweeping_not_left`** is a sweeper with nothing to sweep. -/

namespace FoxfireAgent

open FoxfireTypes FoxfireAttempt

/-- Without a command, an agent in such a state never succeeds. -/
def State.isLost : State → Bool
  | .idle           => true
  | .error _        => true
  | .deactivating _ => true
  | .deactivated    => true
  | _               => false

theorem lost_not_working {s : State} (h : s.isLost = true) : s.working = false := by
  cases s <;> first | rfl | cases h

theorem lost_retried {s : State} (h : s.isLost = true) : s.retried.isLost = true := by
  cases s <;> first | rfl | cases h

theorem Turns.lost {m : Agent} {e : BotEvent} {s : State} (h : Turns m (.original e) s)
    (hm : m.state.isLost = true) : s.isLost = true := by
  cases h with
  | stays => exact hm
  | retries _ => exact lost_retried hm
  | succeeds hw =>
      rw [lost_not_working hm] at hw
      cases hw
  | fails _ => rfl
  | obeys _ hc => cases hc
  | recovers _ _ => rfl
  | givesUp _ _ => rfl
  | isDeactivated _ => rfl
  | deactivates h => cases h

/-- An agent that has come to an end stays there, unless it is in its error state. -/
theorem react_ended {m : Agent} {i : Input} {e : BotEvent} (hev : i.event = .original e)
    (hs : m.state = .success ∨ m.state = .deactivated) : (m.react i).1 = m := by
  rcases hs with hs | hs
  · have hd : m.dispatch i = (m.storage, .super) := by
      rw [dispatch_awaiting i (Or.inr hs), AgentState.awaitCommand, hev]
    rw [react_stays hd (Or.inl rfl)]
  · have hd : m.dispatch i = (m.storage, .handled) := by rw [Agent.dispatch, hs]
    rw [react_stays hd (Or.inr rfl)]

end FoxfireAgent

namespace FoxfireSweeper

open FoxfireTypes FoxfireAttempt FoxfireAgent MachineRun
open FoxfireVolume (VolumeInstance AgentRef DispatchTask Member Forwards)

-- ── What holds in every run ─────────────────────────────────────────────────

/-- The state's handler has been called. -/
def Phase.running : Phase → Bool
  | .called _     => true
  | .asking _ _ _ => true
  | _             => false

theorem Edge.running {s target : State} {p : Phase} (h : Edge s p target) : p.running = true := by
  cases h <;> rfl

structure Placed (c : Config) : Prop where
  /-- Only the initial state is entered before the first event is handled. -/
  begun    : c.sweeper.state ≠ .list → c.sweeper.initialized = true
  started  : c.phase.running = true → c.sweeper.initialized = true
  asking   : ∀ env n rest, c.phase = .asking env n rest → c.sweeper.state = .sweeping
  forwards : Forwards c.sweeper.tasks
  orders   : ∀ o ∈ c.orders, OrderOf o
  wallet   : Sole c.sweeper.mainWallet

theorem prepare_same (s : Sweeper) (env : Env) (target : State) :
    (s.prepare env target).1.state = s.state ∧
    (s.prepare env target).1.initialized = s.initialized ∧
    (s.prepare env target).1.mainWallet = s.mainWallet := by
  cases target with
  | sweeping => exact ⟨rfl, rfl, rfl⟩
  | sellingTokenMainW => exact ⟨rfl, rfl, rfl⟩
  | done => exact ⟨rfl, rfl, rfl⟩
  | list =>
      show (s.getAgentsWithBalance env).state = _ ∧ (s.getAgentsWithBalance env).initialized = _ ∧
        (s.getAgentsWithBalance env).mainWallet = _
      rw [Sweeper.getAgentsWithBalance]
      split
      · exact ⟨rfl, rfl, rfl⟩
      · exact ⟨rfl, rfl, rfl⟩

theorem placed_enter {s : Sweeper} {env : Env} {next : Option (BotEvent × Env)}
    (hbegun : s.state ≠ .list → s.initialized = true) (hforwards : Forwards s.tasks)
    (hwallet : Sole s.mainWallet) : Placed (Config.enter s env next) := by
  obtain ⟨hstate, hinit, hw⟩ := prepare_same s env s.state
  constructor
  · show (s.prepare env s.state).1.state ≠ _ → (s.prepare env s.state).1.initialized = true
    rw [hstate, hinit]
    exact hbegun
  · intro h
    cases h
  · intro e n rest h
    cases h
  · show Forwards (s.prepare env s.state).1.tasks
    rw [prepare_tasks]
    exact hforwards
  · exact prepare_orders s env _
  · show Sole (s.prepare env s.state).1.mainWallet
    rw [hw]
    exact hwallet

/-- The strategy is initialized once, in its first state. -/
theorem Placed.unbegun {c : Config} (hI : Placed c) (hinit : c.sweeper.initialized = false) :
    c.sweeper.state = .list := by
  by_contra hlist
  have hbegun := hI.begun hlist
  rw [hinit] at hbegun
  cases hbegun

theorem Placed.of_same {c c' : Config} (hI : Placed c) (hsame : Same c.sweeper c'.sweeper)
    (hstarted : c'.phase.running = true → c'.sweeper.initialized = true)
    (hasking : ∀ env n rest, c'.phase = .asking env n rest → c.sweeper.state = .sweeping)
    (horders : ∀ o ∈ c'.orders, o ∈ c.orders) : Placed c' := by
  constructor
  · rw [hsame.state]
    exact fun h => hsame.init (hI.begun h)
  · exact hstarted
  · rw [hsame.state]
    exact hasking
  · exact hsame.forwards hI.forwards
  · exact fun o ho => hI.orders o (horders o ho)
  · rw [hsame.wallet]
    exact hI.wallet

theorem setMember_same (s : Sweeper) (a : Agent) (who : Member) :
    (s.setMember a who).state = s.state ∧ (s.setMember a who).initialized = s.initialized ∧
    (s.setMember a who).tasks = s.tasks := by
  cases who with
  | none => exact ⟨rfl, rfl, rfl⟩
  | some r => exact ⟨rfl, rfl, rfl⟩

/-- One member has handled an event, and the wallet any but `Collect`. -/
theorem Placed.of_member {c c' : Config} {who : Member} {a : Agent} {i : FoxfireAgent.Input}
    (hI : Placed c) (hmember : c.sweeper.member who = some a)
    (hev : who = none → i.event ≠ .forAgent .collect)
    (hsame : Same (c.sweeper.setMember (a.react i).1 who) c'.sweeper)
    (hstarted : c'.phase.running = true → c.sweeper.initialized = true)
    (hasking : ∀ env n rest, c'.phase = .asking env n rest → c.sweeper.state = .sweeping)
    (horders : ∀ o ∈ c'.orders, o ∈ c.orders) : Placed c' := by
  obtain ⟨hstate, hinit, htasks⟩ := setMember_same c.sweeper (a.react i).1 who
  rw [← hinit] at hstarted
  rw [← hstate] at hasking
  constructor
  · rw [hsame.state, hstate]
    intro h
    refine hsame.init ?_
    rw [hinit]
    exact hI.begun h
  · exact fun h => hsame.init (hstarted h)
  · rw [hsame.state]
    exact hasking
  · refine hsame.forwards ?_
    rw [htasks]
    exact hI.forwards
  · exact fun o ho => hI.orders o (horders o ho)
  · rw [hsame.wallet]
    cases who with
    | some r => exact hI.wallet
    | none =>
        obtain rfl : c.sweeper.mainWallet = a := Option.some.inj hmember
        obtain ⟨a', out, hstep, hsole, -⟩ := sole_handle hI.wallet (hev rfl)
        rw [react_handled hstep]
        exact hsole

theorem placed_step {c c' : Config} {m : Move} {out : List Output} (hI : Placed c)
    (h : sweeper c m = some (c', out)) : Placed c' := by
  -- the handler is between two events, or in an entry action
  have hidle : Same c.sweeper c'.sweeper → c'.phase.running = false →
      (∀ o ∈ c'.orders, o ∈ c.orders) → Placed c' := by
    intro hsame hphase horders
    refine hI.of_same hsame ?_ ?_ horders
    · intro h
      rw [hphase] at h
      cases h
    · intro env n rest h
      rw [h] at hphase
      cases hphase
  have hnone : c'.orders = [] → ∀ o ∈ c'.orders, o ∈ c.orders := by
    intro hnil o ho
    rw [hnil] at ho
    cases ho
  cases move_cases h with
  | rests _ hsame hphase =>
      refine hI.of_same hsame ?_ ?_ ?_
      · intro h
        rw [hphase] at h
        exact hsame.init (hI.started h)
      · intro env n rest h
        exact hI.asking env n rest (hphase.symm.trans h)
      · intro o ho
        rwa [Config.orders, hphase] at ho
  | settles hsame _ hphase =>
      exact hidle hsame (by rw [hphase]; rfl) (hnone (by rw [Config.orders, hphase]))
  | stays hsame _ hphase =>
      exact hidle hsame (by rw [hphase]; rfl) (hnone (by rw [Config.orders, hphase]))
  | calls _ hsame hinit _ hphase =>
      refine hI.of_same hsame (fun _ => hinit) ?_ (hnone (by rw [Config.orders, hphase]))
      intro env n rest h
      rw [hphase] at h
      cases h
  | asks hsame hcalled hstate hphase =>
      refine hI.of_same hsame ?_ (fun _ _ _ _ => hstate) (hnone (by rw [Config.orders, hphase]))
      exact fun _ => hsame.init (hI.started (by rw [hcalled]; rfl))
  | reads hsame hasking _ _ hphase =>
      refine hI.of_same hsame ?_ (fun _ _ _ _ => hI.asking _ _ _ hasking)
        (hnone (by rw [Config.orders, hphase]))
      exact fun _ => hsame.init (hI.started (by rw [hasking]; rfl))
  | @delivers k i _ t who a htask hmember _ hsame hphase =>
      obtain ⟨e, he⟩ := hI.forwards t (List.mem_of_getElem? htask)
      refine hI.of_member hmember ?_ hsame ?_ ?_ ?_
      · intro _ hcol
        rw [show t.event = _ from hcol] at he
        cases he
      · rw [hphase]
        exact hI.started
      · rw [hphase]
        exact hI.asking
      · intro o ho
        rwa [Config.orders, hphase] at ho
  | @commands _ o orders next a hentering hmember hsame hphase =>
      have hof : OrderOf o := hI.orders o (Config.orders_of_entering hentering).1
      have hentry : c'.phase.running = false := by
        rw [hphase]
        split
        · rfl
        · rfl
      refine hI.of_member hmember hof.not_collect hsame ?_ ?_
        (Config.orders_given hentering hphase)
      · intro h
        rw [hentry] at h
        cases h
      · intro env n rest h
        rw [h] at hentry
        cases hentry
  | @misses _ o orders next hentering _ hsame hphase =>
      exact hidle hsame (by rw [hphase]; rfl)
        (@Config.orders_given c c' o orders next true hentering hphase)
  | begins _ _ => exact placed_enter hI.begun hI.forwards hI.wallet
  | @moves env target hedge =>
      have hrunning : c.phase.running = true := hedge.running
      exact placed_enter (s := { c.sweeper with state := target })
        (fun _ => hI.started hrunning) hI.forwards hI.wallet

theorem placed_reach {inst : VolumeInstance} {pool : RaydiumPool} {key : Keypair} {now : Instant}
    {c : Config} (h : Reach sweeper Always (Config.new inst pool key now) c) : Placed c := by
  refine h.invariant ?_ (fun c m c' out hI _ hs => placed_step hI hs)
  refine ⟨fun h => absurd rfl h, ?_, ?_, ?_, ?_, ⟨⟨rfl, rfl⟩, rfl, rfl⟩⟩
  · intro h
    cases h
  · intro env n rest h
    cases h
  · intro t ht
    cases ht
  · intro o ho
    cases ho

-- ── Nobody has succeeded ────────────────────────────────────────────────────

/-- In `sweeping`, with no agent that could still succeed. -/
structure Lost (c : Config) : Prop where
  placed : Placed c
  state  : c.sweeper.state = .sweeping
  agents : ∀ a ∈ c.sweeper.agents, a.state.isLost = true
  phase  : c.phase = .waiting ∨ (∃ env, c.phase = .called env) ∨
    ∃ env rest, c.phase = .asking env 0 rest

theorem Lost.not_entering {c : Config} (hI : Lost c) {orders : List Order}
    {next : Option (BotEvent × Env)} : c.phase ≠ .entering orders next := by
  intro hp
  rcases hI.phase with h | ⟨env, h⟩ | ⟨env, rest, h⟩
  · rw [hp] at h; cases h
  · rw [hp] at h; cases h
  · rw [hp] at h; cases h

theorem Lost.of_same {c c' : Config} (hI : Lost c) (hplaced : Placed c')
    (hsame : Same c.sweeper c'.sweeper)
    (hphase : c'.phase = .waiting ∨ (∃ env, c'.phase = .called env) ∨
      ∃ env rest, c'.phase = .asking env 0 rest) : Lost c' := by
  refine ⟨hplaced, hsame.state.trans hI.state, ?_, hphase⟩
  rw [hsame.agents]
  exact hI.agents

/-- **NOBODY WILL**: such a sweeper stays as it is, whatever happens. -/
theorem lost_step {c c' : Config} {m : Move} {out : List Output} (hI : Lost c)
    (h : sweeper c m = some (c', out)) : Lost c' := by
  have hplaced := placed_step hI.placed h
  cases move_cases h with
  | rests _ hsame hphase => exact hI.of_same hplaced hsame (by rw [hphase]; exact hI.phase)
  | settles _ hentering _ => exact absurd hentering hI.not_entering
  | calls _ hsame _ _ hphase => exact hI.of_same hplaced hsame (Or.inr (Or.inl ⟨_, hphase⟩))
  | asks hsame _ _ hphase => exact hI.of_same hplaced hsame (Or.inr (Or.inr ⟨_, _, hphase⟩))
  | stays hsame _ hphase => exact hI.of_same hplaced hsame (Or.inl hphase)
  | @reads _ env n n' r rest hsame hasking hread hmissing hphase =>
      have hn : n = 0 := by
        rcases hI.phase with h | ⟨env, h⟩ | ⟨env, rest, h⟩
        · rw [hasking] at h; cases h
        · rw [hasking] at h; cases h
        · rw [hasking] at h; cases h; rfl
      have hn' : n' = 0 := by
        cases ha : c.sweeper.agents[r]? with
        | none => exact (hmissing ha).trans hn
        | some a =>
            have hlost := hI.agents a (List.mem_of_getElem? ha)
            have hns : a.state ≠ .success := by
              intro hs
              rw [hs] at hlost
              cases hlost
            rw [(hread a ha).2, if_neg hns]
            exact hn
      rw [hn'] at hphase
      exact hI.of_same hplaced hsame (Or.inr (Or.inr ⟨_, _, hphase⟩))
  | @delivers k i _ t who a htask hmember _ hsame hphase =>
      obtain ⟨e, he⟩ := hI.placed.forwards t (List.mem_of_getElem? htask)
      obtain ⟨hstate, -, -⟩ := setMember_same c.sweeper
        (a.react { i with event := t.event }).1 who
      refine ⟨hplaced, (hsame.state.trans hstate).trans hI.state, ?_, by rw [hphase]; exact hI.phase⟩
      rw [hsame.agents]
      cases who with
      | none => exact hI.agents
      | some r =>
          intro b hb
          rcases List.mem_or_eq_of_mem_set hb with hb | rfl
          · exact hI.agents b hb
          · have hturns := react_turns a { i with event := t.event }
            rw [show ({ i with event := t.event } : FoxfireAgent.Input).event = .original e
              from he] at hturns
            exact hturns.lost (hI.agents a (List.mem_of_getElem? hmember))
  | commands hentering _ _ _ => exact absurd hentering hI.not_entering
  | misses hentering _ _ _ => exact absurd hentering hI.not_entering
  | begins hinit _ =>
      have hlist := hI.placed.unbegun hinit
      rw [hI.state] at hlist
      cases hlist
  | moves hedge =>
      rw [hI.state] at hedge
      rcases hI.phase with h | ⟨env, h⟩ | ⟨env, rest, h⟩
      · rw [h] at hedge; cases hedge
      · rw [h] at hedge; cases hedge
      · rw [h] at hedge
        cases hedge with
        | swept hn => exact absurd hn (Nat.lt_irrefl 0)

theorem lost_reach {c c' : Config} {C : Config → Move → Prop} (hI : Lost c)
    (h : Reach sweeper C c c') : Lost c' :=
  h.invariant hI fun _ _ _ _ hI _ hs => lost_step hI hs

-- ── Somebody has ────────────────────────────────────────────────────────────

/-- No event for the strategy, and no task hands one to an agent in its error state. -/
structure Quiet (c : Config) (m : Move) : Prop where
  busy  : ∀ e initEnv env, m ≠ .event e initEnv env
  spare : ∀ r a i, handed c m = some (some r, a, i) → ∀ msg, a.state ≠ .error msg

/-- In `sweeping`, with an event under way that will find an agent in `success`. -/
structure Won (c : Config) : Prop where
  placed : Placed c
  state  : c.sweeper.state = .sweeping
  ended  : ∀ a ∈ c.sweeper.agents, terminal a.state = true
  found  : ((∃ env, c.phase = .called env) ∧ ∃ a ∈ c.sweeper.agents, a.state = .success) ∨
    ∃ env n rest, c.phase = .asking env n rest ∧
      (0 < n ∨ ∃ r ∈ rest, ∃ a, c.sweeper.agents[r]? = some a ∧ a.state = .success)

/-- Past `sweeping`. -/
def Left (c : Config) : Prop :=
  c.sweeper.state = .sellingTokenMainW ∨ c.sweeper.state = .done

theorem left_enter {s : Sweeper} {env : Env} {next : Option (BotEvent × Env)}
    (h : s.state = .sellingTokenMainW ∨ s.state = .done) : Left (Config.enter s env next) := by
  show (s.prepare env s.state).1.state = _ ∨ (s.prepare env s.state).1.state = _
  rw [(prepare_same s env s.state).1]
  exact h

/-- What has left `sweeping` does not come back. -/
theorem left_step {c c' : Config} {m : Move} {out : List Output} (hI : Left c)
    (h : sweeper c m = some (c', out)) : Left c' := by
  have hof : c'.sweeper.state = c.sweeper.state → Left c' := by
    intro hstate
    rw [Left, hstate]
    exact hI
  cases move_cases h with
  | rests _ hsame _ => exact hof hsame.state
  | settles hsame _ _ => exact hof hsame.state
  | calls _ hsame _ _ _ => exact hof hsame.state
  | asks hsame _ _ _ => exact hof hsame.state
  | reads hsame _ _ _ _ => exact hof hsame.state
  | stays hsame _ _ => exact hof hsame.state
  | misses _ _ hsame _ => exact hof hsame.state
  | delivers _ _ _ hsame _ => exact hof (hsame.state.trans (setMember_same _ _ _).1)
  | commands _ _ hsame _ => exact hof (hsame.state.trans (setMember_same _ _ _).1)
  | begins _ _ => exact left_enter hI
  | @moves env target hedge =>
      refine left_enter (s := { c.sweeper with state := target }) ?_
      generalize c.phase = p at hedge
      generalize hs : c.sweeper.state = s at hedge
      cases hedge with
      | listed =>
          rcases hI with h | h
          · rw [h] at hs; cases hs
          · rw [h] at hs; cases hs
      | swept _ => exact Or.inl rfl
      | sold => exact Or.inr rfl

theorem success_of_ended {s : FoxfireAgent.State} (h : terminal s = true)
    (hs : ∀ msg, s ≠ .error msg) : s = .success ∨ s = .deactivated := by
  cases s with
  | success => exact Or.inl rfl
  | deactivated => exact Or.inr rfl
  | error msg => exact absurd rfl (hs msg)
  | idle => cases h
  | transferring _ _ => cases h
  | collecting _ => cases h
  | buying _ _ => cases h
  | selling _ _ => cases h
  | deactivating _ => cases h

theorem Won.of_same {c c' : Config} (hI : Won c) (hplaced : Placed c')
    (hstate : c'.sweeper.state = c.sweeper.state) (hagents : c'.sweeper.agents = c.sweeper.agents)
    (hphase : c'.phase = c.phase) : Won c' := by
  refine ⟨hplaced, hstate.trans hI.state, ?_, ?_⟩
  · rw [hagents]
    exact hI.ended
  · rw [hagents, hphase]
    exact hI.found

theorem Won.not_entering {c : Config} (hI : Won c) {orders : List Order}
    {next : Option (BotEvent × Env)} : c.phase ≠ .entering orders next := by
  intro hp
  rcases hI.found with ⟨⟨env, h⟩, -⟩ | ⟨env, n, rest, h, -⟩
  · rw [hp] at h; cases h
  · rw [hp] at h; cases h

/-- It reads one more agent. -/
theorem won_reads {c c' : Config} {env : Env} {n n' : Nat} {r : AgentRef} {rest : List AgentRef}
    (hI : Won c) (hplaced : Placed c') (hsame : Same c.sweeper c'.sweeper)
    (hasking : c.phase = .asking env n (r :: rest))
    (hread : ∀ a, c.sweeper.agents[r]? = some a → terminal a.state = true ∧
      n' = if a.state = .success then n + 1 else n)
    (hmissing : c.sweeper.agents[r]? = none → n' = n)
    (hphase : c'.phase = .asking env n' rest) : Won c' := by
  refine ⟨hplaced, hsame.state.trans hI.state, ?_, Or.inr ⟨env, n', rest, hphase, ?_⟩⟩
  · rw [hsame.agents]
    exact hI.ended
  · rw [hsame.agents]
    have hle : n ≤ n' := by
      cases ha : c.sweeper.agents[r]? with
      | none => exact Nat.le_of_eq (hmissing ha).symm
      | some a =>
          rw [(hread a ha).2]
          split
          · exact Nat.le_succ n
          · exact Nat.le_refl n
    rcases hI.found with ⟨⟨env', h⟩, -⟩ | ⟨env', m, rest', h, hfound⟩
    · rw [hasking] at h; cases h
    · rw [hasking] at h
      cases h
      rcases hfound with hpos | ⟨q, hq, a, ha, hs⟩
      · exact Or.inl (Nat.lt_of_lt_of_le hpos hle)
      · rcases List.mem_cons.mp hq with rfl | hq
        · refine Or.inl ?_
          rw [(hread a ha).2, if_pos hs]
          exact Nat.succ_pos _
        · exact Or.inr ⟨q, hq, a, ha, hs⟩

/-- **SOMEBODY HAS**: the event goes on, or `sweeping` is left. -/
theorem won_step {c c' : Config} {m : Move} {out : List Output} (hI : Won c) (hC : Quiet c m)
    (h : sweeper c m = some (c', out)) : Won c' ∨ Left c' := by
  have hplaced := placed_step hI.placed h
  cases move_cases h with
  | rests _ hsame hphase => exact Or.inl (hI.of_same hplaced hsame.state hsame.agents hphase)
  | settles _ hentering _ => exact absurd hentering hI.not_entering
  | calls _ _ _ hidle _ =>
      rcases hidle with hw | ⟨p, hp⟩
      · rcases hI.found with ⟨⟨env, h⟩, -⟩ | ⟨env, n, rest, h, -⟩
        · rw [hw] at h; cases h
        · rw [hw] at h; cases h
      · exact absurd hp hI.not_entering
  | @asks _ env hsame hcalled _ hphase =>
      refine Or.inl ⟨hplaced, hsame.state.trans hI.state, ?_, Or.inr ⟨env, 0, _, hphase, ?_⟩⟩
      · rw [hsame.agents]
        exact hI.ended
      · rw [hsame.agents]
        rcases hI.found with ⟨-, a, ha, hs⟩ | ⟨env, n, rest, h, -⟩
        · obtain ⟨r, hr⟩ := List.mem_iff_getElem?.mp ha
          obtain ⟨hlt, -⟩ := List.getElem?_eq_some_iff.mp hr
          exact Or.inr ⟨r, List.mem_range.mpr hlt, a, hr, hs⟩
        · rw [hcalled] at h; cases h
  | reads hsame hasking hread hmissing hphase =>
      exact Or.inl (won_reads hI hplaced hsame hasking hread hmissing hphase)
  | stays hsame hwhy hphase =>
      exfalso
      rcases hwhy with ⟨n, r, rest, a, hp, ha, hbusy⟩ | hp | ⟨hp, hnil⟩ | ⟨hp, hdone⟩
      · rw [hI.ended a (List.mem_of_getElem? ha)] at hbusy
        cases hbusy
      · rcases hI.found with ⟨⟨env, h⟩, -⟩ | ⟨env, n, rest, h, hfound⟩
        · rw [hp] at h; cases h
        · rw [hp] at h
          cases h
          rcases hfound with hpos | ⟨r, hr, -⟩
          · exact absurd hpos (Nat.lt_irrefl 0)
          · cases hr
      · rcases hI.found with ⟨-, a, ha, -⟩ | ⟨env, n, rest, h, -⟩
        · rw [hnil] at ha; cases ha
        · rw [hp] at h; cases h
      · rw [hI.state] at hdone
        cases hdone
  | @delivers k i _ t who a htask hmember hhanded hsame hphase =>
      obtain ⟨e, he⟩ := hI.placed.forwards t (List.mem_of_getElem? htask)
      obtain ⟨hstate, -, -⟩ := setMember_same c.sweeper
        (a.react { i with event := t.event }).1 who
      refine Or.inl (hI.of_same hplaced (hsame.state.trans hstate) ?_ hphase)
      rw [hsame.agents]
      cases who with
      | none => rfl
      | some r =>
          -- an agent in `success` or `deactivated` does not react
          obtain ⟨hr, rfl⟩ := List.getElem?_eq_some_iff.mp hmember
          have hends := success_of_ended (hI.ended _ (List.mem_of_getElem? hmember))
            (hC.spare r _ _ hhanded)
          show c.sweeper.agents.set r (Agent.react _ _).1 = c.sweeper.agents
          rw [react_ended (i := { i with event := t.event }) he hends]
          exact List.set_getElem_self hr
  | commands hentering _ _ _ => exact absurd hentering hI.not_entering
  | misses hentering _ _ _ => exact absurd hentering hI.not_entering
  | begins hinit _ =>
      have hlist := hI.placed.unbegun hinit
      rw [hI.state] at hlist
      cases hlist
  | @moves env target hedge =>
      refine Or.inr (left_enter (s := { c.sweeper with state := target }) ?_)
      rw [hI.state] at hedge
      generalize c.phase = p at hedge
      cases hedge with
      | swept _ => exact Or.inl rfl

-- ── The handler returns ─────────────────────────────────────────────────────

theorem quiet_advance {c : Config}
    (h : ∀ o os next, c.phase = .entering (o :: os) next → o.receiver = none) :
    Quiet c .advance := by
  refine ⟨fun _ _ _ h => (by cases h), ?_⟩
  intro r a i hhanded
  exfalso
  rw [handed] at hhanded
  split at hhanded
  · next o os next hp =>
      obtain ⟨b, -, heq⟩ := Option.map_eq_some_iff.mp hhanded
      cases (Prod.mk.inj heq).1.symm.trans (h o os next hp)
  · cases hhanded

/-- One lock of the handler, when it gives no command to an agent. -/
theorem reach_advance {c c' : Config}
    (h : ∀ o os next, c.phase = .entering (o :: os) next → o.receiver = none)
    (hc' : c.advance.1 = c') : Reach sweeper Quiet c c' := by
  have hstep : sweeper c .advance = some (c', c.advance.2) := by
    rw [← hc']
    rfl
  exact .next .init (quiet_advance h) hstep

/-- The loop of `get_execution_status`, when all agents have come to an end. -/
theorem reach_asking {s : Sweeper} {env : Env} (hend : ∀ a ∈ s.agents, terminal a.state = true) :
    ∀ (rest : List AgentRef) (n : Nat), ∃ n',
      Reach sweeper Quiet ⟨s, .asking env n rest⟩ ⟨s, .asking env n' []⟩ := by
  intro rest
  induction rest with
  | nil => intro n; exact ⟨n, .init⟩
  | cons r rest ih =>
      intro n
      obtain ⟨m, hm⟩ : ∃ m, (Config.advance ⟨s, .asking env n (r :: rest)⟩).1
          = ⟨s, .asking env m rest⟩ := by
        simp only [Config.advance, Config.ask]
        cases ha : s.agents[r]? with
        | none => exact ⟨n, rfl⟩
        | some a =>
            simp only [if_pos (hend a (List.mem_of_getElem? ha))]
            exact ⟨_, rfl⟩
      obtain ⟨n', hn'⟩ := ih m
      exact ⟨n', (reach_advance (fun _ _ _ h => by cases h) hm).trans hn'⟩

/-- The sale, which the main wallet always handles. -/
theorem reach_sale {s : Sweeper} {env : Env} (hw : Sole s.mainWallet)
    (hs : s.state = .sellingTokenMainW) :
    ∃ c, Reach sweeper Quiet (Config.enter s env none) c ∧ c.phase = .waiting := by
  obtain ⟨a', out, hstep, -, -⟩ := sole_handle (i := { env.walletInput with
    event := .forAgent (.sell .max) }) hw (fun h => by cases h)
  have henter : Config.enter s env none = ⟨s, .entering (Sweeper.sellToken env) none⟩ := by
    rw [Config.enter, hs]
    rfl
  have hsale : (Config.advance ⟨s, .entering (Sweeper.sellToken env) none⟩).1
      = ⟨{ s with mainWallet := a' }, .entering [] none⟩ := by
    simp only [Config.advance, Sweeper.sellToken, Config.command, Sweeper.member, Sweeper.tell,
      Order.event, react_handled hstep]
    rfl
  rw [henter]
  refine ⟨⟨{ s with mainWallet := a' }, .waiting⟩, ?_, rfl⟩
  refine (reach_advance ?_ hsale).trans (reach_advance (fun _ _ _ h => by cases h) rfl)
  intro o os next h
  cases h
  rfl

theorem won_reach {c c' : Config} (hI : Won c) (h : Reach sweeper Quiet c c') :
    Won c' ∨ Left c' := by
  refine h.invariant (I := fun d => Won d ∨ Left d) (Or.inl hI) ?_
  rintro d m d' out (hwon | hleft) hC hs
  · exact won_step hwon hC hs
  · exact Or.inr (left_step hleft hs)

/-- The event is handled to the end, if nobody else moves. -/
theorem won_returns {s : Sweeper} {env : Env} (hI : Won ⟨s, .called env⟩) :
    ∃ c, Reach sweeper Quiet ⟨s, .called env⟩ c ∧ c.phase = .waiting := by
  have hs : s.state = .sweeping := hI.state
  have hne : s.agents.isEmpty = false := by
    rcases hI.found with ⟨-, a, ha, -⟩ | ⟨env', n, rest, h, -⟩
    · cases hl : s.agents with
      | nil => rw [show s.agents = [] from hl] at ha; cases ha
      | cons b l => rfl
    · cases h
  have hask : (Config.advance ⟨s, .called env⟩).1
      = ⟨s, .asking env 0 (List.range s.agents.length)⟩ := by
    simp only [Config.advance, Config.call, hs, hne, Bool.false_eq_true, if_false]
  have hfirst := reach_advance (fun _ _ _ h => by cases h) hask
  obtain ⟨n, hread⟩ := @reach_asking s env hI.ended (List.range s.agents.length) 0
  have hreach := hfirst.trans hread
  -- it has seen the agent that succeeded
  have hn : 0 < n := by
    rcases won_reach hI hreach with hwon | hleft
    · rcases hwon.found with ⟨⟨env', h⟩, -⟩ | ⟨env', m, rest, h, hfound⟩
      · cases h
      · cases h
        rcases hfound with hpos | ⟨r, hr, -⟩
        · exact hpos
        · cases hr
    · rcases hleft with h | h
      · cases hs.symm.trans h
      · cases hs.symm.trans h
  have hmove : (Config.advance ⟨s, .asking env n []⟩).1
      = Config.enter { s with state := .sellingTokenMainW } env none := by
    simp only [Config.advance, Config.ask, if_pos hn, onStatus, Config.respond]
  obtain ⟨c, hsale, hwait⟩ :=
    @reach_sale { s with state := .sellingTokenMainW } env hI.placed.wallet rfl
  exact ⟨c, (hreach.trans (reach_advance (fun _ _ _ h => by cases h) hmove)).trans hsale, hwait⟩

-- ── When `sweeping` is left ─────────────────────────────────────────────────

/-- The event under way is handled to its end, and ends outside `sweeping`. -/
def Leaves (c : Config) : Prop :=
  (∃ d, Reach sweeper Quiet c d ∧ d.phase = .waiting) ∧
  ∀ d, Reach sweeper Quiet c d → d.phase = .waiting → d.sweeper.state ≠ .sweeping

theorem won_leaves {s : Sweeper} {env : Env} (hI : Won ⟨s, .called env⟩) :
    Leaves ⟨s, .called env⟩ := by
  refine ⟨won_returns hI, fun d hd hwait hs => ?_⟩
  rcases won_reach hI hd with hwon | hleft
  · rcases hwon.found with ⟨⟨env', h⟩, -⟩ | ⟨env', n, rest, h, -⟩
    · rw [hwait] at h; cases h
    · rw [hwait] at h; cases h
  · rcases hleft with h | h
    · rw [hs] at h; cases h
    · rw [hs] at h; cases h

/-- The event finds the strategy in `sweeping`: its handler is called. -/
theorem takes_event {c c' : Config} {e : BotEvent} {initEnv env : Env} {out : List Output}
    (hI : Placed c) (hs : c.sweeper.state = .sweeping) (he : isProcessed e = true)
    (h : sweeper c (.event e initEnv env) = some (c', out)) :
    c' = ⟨c.sweeper.spawn e, .called env⟩ := by
  obtain ⟨d, htake, heq⟩ := Option.map_eq_some_iff.mp h
  obtain ⟨rfl, -⟩ := Prod.mk.inj heq
  have hinit := hI.begun (by rw [hs]; exact fun h => by cases h)
  rw [Config.take] at htake
  split at htake
  · rw [if_pos he, if_pos hinit] at htake
    exact (Option.some.inj htake).symm
  · cases htake

/-- **WHEN `sweeping` IS LEFT.**  Once every agent has come to an end, the next event that
    the strategy handles makes it leave `sweeping` if and only if some agent has succeeded,
    supposing that meanwhile no task hands an event to an agent in its error state.  If none
    has, then no event ever does, whatever happens meanwhile. -/
theorem sweeping_left_iff {inst : VolumeInstance} {pool : RaydiumPool} {key : Keypair}
    {now : Instant} {c c' : Config} {e : BotEvent} {initEnv env : Env} {out : List Output}
    (hreach : Reach sweeper Always (Config.new inst pool key now) c)
    (hs : c.sweeper.state = .sweeping) (hend : ∀ a ∈ c.sweeper.agents, terminal a.state = true)
    (he : isProcessed e = true) (h : sweeper c (.event e initEnv env) = some (c', out)) :
    (Leaves c' ↔ ∃ a ∈ c.sweeper.agents, a.state = .success) ∧
      ((∀ a ∈ c.sweeper.agents, a.state ≠ .success) →
        ∀ d, Reach sweeper Always c' d → d.sweeper.state = .sweeping) := by
  have hI := placed_reach hreach
  have hplaced := placed_step hI h
  obtain rfl := takes_event hI hs he h
  have hlost : (∀ a ∈ c.sweeper.agents, a.state ≠ .success) →
      Lost ⟨c.sweeper.spawn e, .called env⟩ := by
    intro hnone
    refine ⟨hplaced, hs, fun a ha => ?_, Or.inr (Or.inl ⟨env, rfl⟩)⟩
    have hterm := hend a ha
    have hns := hnone a ha
    cases hst : a.state with
    | error msg => rfl
    | deactivated => rfl
    | success => exact absurd hst hns
    | idle => rw [hst] at hterm; cases hterm
    | transferring _ _ => rw [hst] at hterm; cases hterm
    | collecting _ => rw [hst] at hterm; cases hterm
    | buying _ _ => rw [hst] at hterm; cases hterm
    | selling _ _ => rw [hst] at hterm; cases hterm
    | deactivating _ => rw [hst] at hterm; cases hterm
  refine ⟨⟨?_, ?_⟩, fun hnone d hd => (lost_reach (hlost hnone) hd).state⟩
  · rintro ⟨⟨d, hd, hwait⟩, hall⟩
    by_contra hnone
    have hno : ∀ a ∈ c.sweeper.agents, a.state ≠ .success :=
      fun a ha hsucc => hnone ⟨a, ha, hsucc⟩
    exact hall d hd hwait (lost_reach (hlost hno) hd).state
  · intro hsome
    exact won_leaves ⟨hplaced, hs, hend, Or.inl ⟨⟨env, rfl⟩, hsome⟩⟩

-- ── Sweepers that succeed, and that do not ──────────────────────────────────

/-- The receipt of the first sweep, without an error. -/
def sweepReceipt : List Move :=
  [.event (.blockchainEvent (.executionReceipt ⟨⟨1⟩, default, none, 10⟩)) traderEnv traderEnv,
    .advance, .advance, .task 1 (input (.forAgent .collect) 10 ⟨100⟩),
    .task 1 (input (.forAgent .collect) 10 ⟨2⟩)]

/-- The one agent has succeeded, and the next heartbeat makes the sweeper go on. -/
theorem swept_trader_leaves :
    ∃ c c', c.sweeper.agents.map (fun a => a.state) = [.success] ∧
      sweeper c (.event (.heartBeat tick 20) traderEnv traderEnv) = some (c', []) ∧
      Leaves c' := by
  obtain ⟨c, out, hrun, hs, hstates, c', hstep⟩ : ∃ c out,
      run sweeper traderSweeper (firstSweep ++ sweepReceipt) = some (c, out) ∧
      c.sweeper.state = .sweeping ∧ c.sweeper.agents.map (fun a => a.state) = [.success] ∧
      ∃ c', sweeper c (.event (.heartBeat tick 20) traderEnv traderEnv) = some (c', []) :=
    ⟨_, _, rfl, rfl, rfl, _, rfl⟩
  have hsuccess : ∀ a ∈ c.sweeper.agents, a.state = .success := by
    intro a ha
    have hmem := List.mem_map_of_mem (f := fun a : Agent => a.state) ha
    rw [hstates] at hmem
    exact List.mem_singleton.mp hmem
  have hleaves := sweeping_left_iff (reach_of_run (fun _ _ => trivial) hrun) hs
    (fun a ha => by rw [hsuccess a ha]; rfl) rfl hstep
  refine ⟨c, c', hstates, hstep, hleaves.1.mpr ?_⟩
  cases hl : c.sweeper.agents with
  | nil =>
      rw [hl] at hstates
      cases hstates
  | cons a l =>
      exact ⟨a, List.mem_cons_self, hsuccess a (by rw [hl]; exact List.mem_cons_self)⟩

/-- **A SWEEPER WITH NOTHING TO SWEEP** stays in `sweeping`. -/
theorem sweeping_not_left :
    ¬ ∀ c c' e initEnv env out, Reach sweeper Always traderSweeper c →
      c.sweeper.state = .sweeping → (∀ a ∈ c.sweeper.agents, terminal a.state = true) →
      isProcessed e = true → sweeper c (.event e initEnv env) = some (c', out) → Leaves c' := by
  intro hall
  obtain ⟨c, out, hrun, hs, hagents, c', hstep, d, hd, hphase, hstate⟩ : ∃ c out,
      run sweeper traderSweeper
        (.event (.heartBeat tick 0) { traderEnv with traders := some [] } traderEnv ::
          List.replicate 3 .advance) = some (c, out) ∧
      c.sweeper.state = .sweeping ∧ c.sweeper.agents = [] ∧
      ∃ c', sweeper c (.event (.heartBeat tick 20) traderEnv traderEnv) = some (c', []) ∧
      ∃ d, c'.advance.1 = d ∧ d.phase = .waiting ∧ d.sweeper.state = .sweeping :=
    ⟨_, _, rfl, rfl, rfl, _, rfl, _, rfl, rfl, rfl⟩
  have hleaves := hall c c' _ _ _ _ (reach_of_run (fun _ _ => trivial) hrun) hs
    (fun a ha => by rw [hagents] at ha; cases ha) rfl hstep
  refine hleaves.2 d (reach_advance ?_ hd) hphase hstate
  intro o os next h
  rw [takes_event (placed_reach (reach_of_run (fun _ _ => trivial) hrun)) hs rfl hstep] at h
  cases h

end FoxfireSweeper
