import FoxfireSniper.TimerProofs
import FoxfireSniper.ProgressProofs

/-! # The main wallet is never collected

    The main wallet is an agent without a strategy id and without a main wallet of its own:
    `collect` would panic in it.  Two tests keep it away from there.  `idle`, `success` and
    `error` ask for the strategy id; the working states compare its key with that of its
    main wallet, which is its own for want of another.  And none of the strategy's entry
    actions addresses `Collect` to it.

    * **`sole_handle`** — the wallet handles any event but `Collect` without a panic, marks
      nobody inactive, and stays out of the three states;
    * **`disturbed`** is the strategy's handler where in addition any member may be told to
      `Deactivate` at any time;
    * **`main_wallet_not_collected`** is this for all its runs. -/

namespace FoxfireAgent

open FoxfireTypes FoxfireAttempt

/-- A main wallet that has no main wallet, and does not need one. -/
structure Sole (a : Agent) : Prop where
  wallet : Wallet a
  alone  : a.storage.mainWallet = none
  idle   : a.state.collects = false

/-- Only the command `Collect` makes a wallet collect. -/
theorem Turns.sole {m : Agent} {event : SolanaStrategyEvent} {s : State} (h : Turns m event s)
    (hm : Sole m) (hoff : event ≠ .forAgent .deactivate) (hcol : event ≠ .forAgent .collect) :
    s.isOff = false ∧ s.collects = false := by
  refine ⟨h.on hoff hm.wallet, ?_⟩
  cases h with
  | stays => exact hm.idle
  | retries hr => exact (retried_collects _).trans hm.idle
  | obeys _ hc =>
      rcases commanded_cases hc with ⟨_, -, rfl⟩ | ⟨rfl, -⟩ | ⟨_, -, rfl⟩ | ⟨_, -, rfl⟩
      · rfl
      · exact absurd rfl hcol
      · rfl
      · rfl
  | givesUp _ hfalse =>
      rw [hm.wallet.main] at hfalse
      cases hfalse
  | isDeactivated hs =>
      have hidle := hm.idle
      rw [hs] at hidle
      cases hidle
  | deactivates h => exact absurd h hoff
  | succeeds _ => rfl
  | fails _ => rfl
  | recovers _ _ => rfl

/-- `Deactivate` is refused, or an error. -/
theorem deactivate_sole {m : Agent} {i : Input} {target : State} (hm : Sole m)
    (hev : i.event = .forAgent .deactivate) (h : (m.dispatch i).2 = .transition target) :
    target = .idle ∨ target = .error .attemptToDeactivateMainWallet := by
  cases hw : m.state.working with
  | true =>
      obtain ⟨r, hr⟩ := retry_of_working hw
      rw [dispatch_working hw hr, AgentState.transitionToSuccessOrError, hev] at h
      have hkey : m.storage.getMainWalletPubkey = m.storage.pubkey := by
        rw [AgentState.getMainWalletPubkey, hm.alone]
        rfl
      dsimp only at h
      rw [if_pos hkey] at h
      cases h
      exact Or.inr rfl
  | false =>
      have hmain := hm.wallet.main
      have hawait : (m.storage.awaitCommand i).2 = .handled := by
        rw [AgentState.awaitCommand, hev]
        dsimp only
        rw [if_pos hmain]
      rw [Agent.dispatch] at h
      rcases not_working_cases hw with (hs | hs) | ⟨msg, hs⟩ | ⟨n, hs⟩ | hs
      · rw [hs] at h
        cases hawait.symm.trans h
      · rw [hs] at h
        cases hawait.symm.trans h
      · rw [hs] at h
        dsimp only at h
        rw [if_pos hmain] at h
        cases h
        exact Or.inl rfl
      · have hon := hm.wallet.on
        rw [hs] at hon
        cases hon
      · have hon := hm.wallet.on
        rw [hs] at hon
        cases hon

/-- Only `deactivated` marks an agent inactive. -/
theorem enter_marks {a a' : AgentState} {i : Input} {s : State} {out : List Effect}
    (hs : s ≠ .deactivated) (h : a.enter i s = some (a', out)) :
    ∀ w, Effect.markInactive w ∉ out := by
  intro w hmem
  have hqueued : ∀ {action : SolanaAction}, out = [.queued action] → False := by
    intro action hout
    rw [hout] at hmem
    cases List.mem_singleton.mp hmem
  have hcollect : a.collect i = some (a', out) → False := by
    intro hc
    obtain ⟨w', -, heq⟩ := Option.map_eq_some_iff.mp hc
    exact hqueued (Prod.mk.inj heq).2.symm
  cases s with
  | collecting _ => exact hcollect h
  | deactivating _ => exact hcollect h
  | transferring _ _ => exact hqueued (Prod.mk.inj (Option.some.inj h)).2.symm
  | buying _ _ => exact hqueued (Prod.mk.inj (Option.some.inj h)).2.symm
  | selling _ _ => exact hqueued (Prod.mk.inj (Option.some.inj h)).2.symm
  | idle =>
      rw [← (Prod.mk.inj (Option.some.inj h)).2] at hmem
      cases hmem
  | success =>
      rw [← (Prod.mk.inj (Option.some.inj h)).2] at hmem
      cases hmem
  | error _ =>
      rw [← (Prod.mk.inj (Option.some.inj h)).2] at hmem
      cases hmem
  | deactivated => exact hs rfl

theorem Sole.after {a a' : Agent} {i : Input} {out : List Effect} (ha : Sole a)
    (h : handle a i = some (a', out)) (hon : a'.state.isOff = false)
    (hidle : a'.state.collects = false) : Sole a' := by
  refine ⟨⟨?_, hon⟩, (handle_mainWallet h).trans ha.alone, hidle⟩
  have hid : a'.storage.strategyIdOpt = a.storage.strategyIdOpt :=
    congrArg Prod.snd (FoxfireVolume.handle_identity h).1
  rw [AgentState.isMainWallet, hid]
  exact ha.wallet.main

/-- **ANY EVENT BUT `Collect`** is handled, and leaves the wallet as it should be. -/
theorem sole_handle {a : Agent} {i : Input} (ha : Sole a) (hev : i.event ≠ .forAgent .collect) :
    ∃ a' out, handle a i = some (a', out) ∧ Sole a' ∧ ∀ w, Effect.markInactive w ∉ out := by
  have hstay : ∀ {st : AgentState} {resp : Response State}, a.dispatch i = (st, resp) →
      (∀ target, resp ≠ .transition target) →
      ∃ a' out, handle a i = some (a', out) ∧ Sole a' ∧ ∀ w, Effect.markInactive w ∉ out := by
    intro st resp hd hresp
    have hstep : handle a i = some (⟨a.state, st⟩, []) := by
      rw [handle, hd]
      cases resp with
      | transition target => exact absurd rfl (hresp target)
      | handled => rfl
      | super => rfl
    refine ⟨_, _, hstep, ha.after hstep ha.wallet.on ha.idle, ?_⟩
    intro w hmem
    cases hmem
  cases hd : a.dispatch i with
  | mk st resp =>
      cases resp with
      | handled => exact hstay hd (fun target h => by cases h)
      | super => exact hstay hd (fun target h => by cases h)
      | transition target =>
          have hd' : (a.dispatch i).2 = .transition target := congrArg Prod.snd hd
          have htarget : target.isOff = false ∧ target.collects = false := by
            by_cases hoff : i.event = .forAgent .deactivate
            · rcases deactivate_sole ha hoff hd' with rfl | rfl
              · exact ⟨rfl, rfl⟩
              · exact ⟨rfl, rfl⟩
            · exact (dispatch_turns hd').sole ha hoff hev
          obtain ⟨st', out, he⟩ := enter_total (a := st) (i := i) (s := target)
            (fun hc => by rw [htarget.2] at hc; cases hc)
          have hstep : handle a i = some (⟨target, st'⟩, out) := by
            rw [handle, hd]
            show Option.map _ (st.enter i target) = _
            rw [he]
            rfl
          refine ⟨_, _, hstep, ha.after hstep htarget.1 htarget.2, enter_marks ?_ he⟩
          rintro rfl
          cases htarget.1

end FoxfireAgent

namespace FoxfireVolume

open FoxfireTypes FoxfireAttempt FoxfireAgent FoxfireFunding MachineRun

-- ── The wallet among the strategy's members ─────────────────────────────────

/-- A move of the strategy's handler and its tasks, or a member is told to deactivate. -/
inductive Disturbance where
  | move (m : Move)
  | deactivate (who : Member) (i : FoxfireAgent.Input)

def deactivation (who : Member) (i : FoxfireAgent.Input) : Order :=
  ⟨who, i, fun _ => some .deactivate⟩

/-- The handler, where anybody may be deactivated under its lock.  If that panics, nothing
    else is affected. -/
def disturbed : Step Config Disturbance Effect
  | c, .move m => handler c m
  | c, .deactivate who i =>
      match c.strategy.give (deactivation who i) with
      | none   => some (c, [])
      | some p => some (⟨p.1, c.phase⟩, p.2)

/-- The events that the wallet may be given next: what the tasks pass on, `Deactivate`, and
    what the entry action under way has chosen for it. -/
inductive Offered (c : Config) : SolanaStrategyEvent → Prop where
  | passedOn (e : BotEvent) : Offered c (.original e)
  | switchedOff : Offered c (.forAgent .deactivate)
  | ordered {o : Order} {event : AgentEvent} (ho : o ∈ c.orders) (hr : o.receiver = none)
      (hc : o.choose c.strategy.mainWallet = some event) : Offered c (.forAgent event)

/-- No command to the wallet is `Collect`. -/
def Spares (orders : List Order) : Prop :=
  ∀ o ∈ orders, o.receiver = none → ∀ a, o.choose a ≠ some .collect

structure Guarded (c : Config) : Prop where
  sole     : Sole c.strategy.mainWallet
  forwards : Forwards c.strategy.tasks
  spares   : Spares c.orders

theorem offered_not_collect {c : Config} {event : SolanaStrategyEvent} (hI : Guarded c)
    (h : Offered c event) : event ≠ .forAgent .collect := by
  rintro rfl
  cases h with
  | ordered ho hr hc => exact hI.spares _ ho hr _ hc

theorem spares_nil : Spares [] := by
  intro o ho
  cases ho

theorem spares_toAgents (v : VolumeStrategy) (env : Env) (choose : Agent → Option AgentEvent) :
    Spares (v.toAgents env choose) := by
  intro o ho hr
  obtain ⟨r, -, rfl⟩ := List.mem_map.mp ho
  cases hr

theorem spares_toWallet (env : Env) (transfers : List SolanaTransferActionPayload) :
    Spares (VolumeStrategy.toWallet env transfers) := by
  intro o ho _ a h
  obtain ⟨k, hk, rfl⟩ := List.mem_mapIdx.mp ho
  cases h

/-- **NO ENTRY ACTION ADDRESSES `Collect` TO THE WALLET.** -/
theorem prepare_spares {v w : VolumeStrategy} {env : Env} {s : State} {orders : List Order}
    (h : v.prepare env s = some (w, orders)) : Spares orders := by
  have hret : ∀ {u : VolumeStrategy} {os : List Order}, some (u, os) = some (w, orders) →
      Spares os → Spares orders := by
    intro u os heq hos
    obtain ⟨-, rfl⟩ := Prod.mk.inj (Option.some.inj heq)
    exact hos
  cases s with
  | sweeping => exact hret h (spares_toAgents _ _ _)
  | offloadingInventory =>
      refine hret h ?_
      intro o ho _ a hc
      rw [List.mem_singleton.mp ho] at hc
      dsimp only at hc
      rw [VolumeStrategy.offloadCommand] at hc
      split at hc
      · cases hc
      · cases hc
  | fund => exact hret h (spares_toWallet _ _)
  | buying => exact hret h (spares_toAgents _ _ _)
  | collectingTokens => exact hret h (spares_toAgents _ _ _)
  | transferringTokenToSellers =>
      rw [VolumeStrategy.prepare] at h
      split at h
      · cases h
      · exact hret h (spares_toWallet _ _)
  | selling => exact hret h (spares_toAgents _ _ _)
  | collectingSol => exact hret h (spares_toAgents _ _ _)
  | sleeping => exact hret h spares_nil
  | idle => exact hret h spares_nil
  | error _ => exact hret h spares_nil

theorem Guarded.of_same {c c' : Config} (hI : Guarded c) (hsame : Same c.strategy c'.strategy)
    (horders : ∀ o ∈ c'.orders, o ∈ c.orders) : Guarded c' := by
  constructor
  · rw [hsame.wallet]
    exact hI.sole
  · exact hsame.forwards hI.forwards
  · exact fun o ho => hI.spares o (horders o ho)

/-- One member has handled an event. -/
theorem Guarded.of_member {c c' : Config} {who : Member} {a' : Agent} (hI : Guarded c)
    (hsame : Same (c.strategy.setMember a' who) c'.strategy) (hsole : who = none → Sole a')
    (horders : ∀ o ∈ c'.orders, o ∈ c.orders) : Guarded c' := by
  constructor
  · rw [hsame.wallet]
    cases who with
    | none => exact hsole rfl
    | some r => exact hI.sole
  · refine hsame.forwards ?_
    rw [setMember_tasks]
    exact hI.forwards
  · exact fun o ho => hI.spares o (horders o ho)

theorem guarded_enter {v : VolumeStrategy} {env : Env} {next : Option (BotEvent × Env)}
    (hsole : Sole v.mainWallet) (hforwards : Forwards v.tasks) :
    Guarded (Config.enter v env next) := by
  rw [Config.enter]
  cases hp : v.prepare env v.state with
  | none => exact ⟨hsole, hforwards, spares_nil⟩
  | some p =>
      obtain ⟨w, orders⟩ := p
      have hprep := VolumeStrategy.prepare_prepared hp
      refine ⟨?_, ?_, prepare_spares hp⟩
      · show Sole w.mainWallet
        rw [hprep.wallet]
        exact hsole
      · show Forwards w.tasks
        rw [hprep.tasks]
        exact hforwards

/-- A member handles an event that the wallet may be given. -/
theorem sole_member {v : VolumeStrategy} {who : Member} {a a' : Agent} {i : FoxfireAgent.Input}
    {out : List Effect} (hI : Sole v.mainWallet) (hmember : v.member who = some a)
    (hev : who = none → i.event ≠ .forAgent .collect)
    (h : FoxfireAgent.handle a i = some (a', out)) : who = none → Sole a' := by
  rintro rfl
  obtain rfl : v.mainWallet = a := Option.some.inj hmember
  obtain ⟨b, o, hstep, hb, -⟩ := sole_handle hI (hev rfl)
  rw [hstep] at h
  obtain ⟨rfl, -⟩ := Prod.mk.inj (Option.some.inj h)
  exact hb

theorem guarded_obey {v : VolumeStrategy} {o : Order} {a a' : Agent} {out : List Effect}
    (hI : Sole v.mainWallet) (hspares : o.receiver = none → ∀ a, o.choose a ≠ some .collect)
    (hmember : v.member o.receiver = some a) (h : o.obey a = some (a', out)) :
    o.receiver = none → Sole a' := by
  rcases obey_cases h with ⟨-, rfl⟩ | ⟨event, hc, hhandle⟩
  · intro hr
    rw [hr] at hmember
    obtain rfl := Option.some.inj hmember
    exact hI
  · refine sole_member hI hmember ?_ hhandle
    rintro hr ⟨⟩
    exact hspares hr a hc

theorem guarded_move {c c' : Config} {m : Move} (hI : Guarded c) (h : Moved c m c') :
    Guarded c' := by
  have hnone : ∀ {p : Phase}, c'.phase = p → (Config.orders ⟨c'.strategy, p⟩ = []) →
      ∀ o ∈ c'.orders, o ∈ c.orders := by
    rintro p rfl hnil o ho
    rw [show c'.orders = [] from hnil] at ho
    cases ho
  have herase : ∀ {orders : List Order} {next : Option (BotEvent × Env)} {j : Nat},
      c.phase = .entering orders next → c'.phase = .entering (orders.eraseIdx j) next →
      ∀ o ∈ c'.orders, o ∈ c.orders := by
    intro orders next j hp hp' o ho
    rw [Config.orders, hp'] at ho
    rw [Config.orders, hp]
    exact List.mem_of_mem_eraseIdx ho
  cases h with
  | rests hsame hphase =>
      refine hI.of_same hsame fun o ho => ?_
      rwa [Config.orders, hphase] at ho
  | settles hsame _ hphase => exact hI.of_same hsame (hnone hphase rfl)
  | calls hsame _ _ hphase => exact hI.of_same hsame (hnone hphase rfl)
  | asks hsame _ _ hphase => exact hI.of_same hsame (hnone hphase rfl)
  | reads hsame _ _ hphase => exact hI.of_same hsame (hnone hphase rfl)
  | panics hsame hphase => exact hI.of_same hsame (hnone hphase rfl)
  | misses hentering _ _ hsame hphase => exact hI.of_same hsame (herase hentering hphase)
  | @delivers _ _ _ t who a a' _ htask _ hmember hhandle hsame hphase =>
      obtain ⟨e, he⟩ := hI.forwards t (List.mem_of_getElem? htask)
      refine hI.of_member hsame (sole_member hI.sole hmember ?_ hhandle) fun o ho => ?_
      · intro _ hcollect
        rw [show t.event = .forAgent .collect from hcollect] at he
        cases he
      · rwa [Config.orders, hphase] at ho
  | @commands _ _ _ o orders _ _ _ _ hentering horder _ hmember hobey hsame hphase =>
      refine hI.of_member hsame (guarded_obey hI.sole (hI.spares o ?_) hmember hobey)
        (herase hentering hphase)
      rw [Config.orders, hentering]
      exact List.mem_of_getElem? horder
  | begins _ _ => exact guarded_enter hI.sole hI.forwards
  | @moves _ v _ _ _ hsame _ _ =>
      rw [VolumeStrategy.exit_eq]
      refine guarded_enter ?_ (hsame.forwards hI.forwards)
      show Sole v.mainWallet
      rw [hsame.wallet]
      exact hI.sole

/-- **ONE MOVE**, also `Deactivate` to anybody. -/
theorem guarded_step {c c' : Config} {d : Disturbance} {out : List Effect} (hI : Guarded c)
    (h : disturbed c d = some (c', out)) : Guarded c' := by
  cases d with
  | move m => exact guarded_move hI (move_cases h)
  | deactivate who i =>
      rw [disturbed, VolumeStrategy.give] at h
      cases hmember : c.strategy.member who with
      | none =>
          simp only [deactivation, hmember] at h
          obtain ⟨rfl, -⟩ := Prod.mk.inj (Option.some.inj h)
          exact hI
      | some a =>
          simp only [deactivation, hmember] at h
          cases hobey : (deactivation who i).obey a with
          | none =>
              simp only [deactivation] at hobey
              simp only [hobey, Option.map_none] at h
              obtain ⟨rfl, -⟩ := Prod.mk.inj (Option.some.inj h)
              exact hI
          | some p =>
              have hsole := guarded_obey (o := deactivation who i) hI.sole
                (fun _ a hc => by cases hc) hmember hobey
              simp only [deactivation] at hobey
              simp only [hobey, Option.map_some] at h
              obtain ⟨rfl, -⟩ := Prod.mk.inj (Option.some.inj h)
              exact hI.of_member (Same.refl _) hsole fun o ho => ho

theorem guarded_reach {inst : VolumeInstance} {pool : RaydiumPool} {key : Keypair}
    {now : Instant} {c : Config}
    (h : Reach disturbed Always (Config.new inst pool key now) c) : Guarded c := by
  refine h.invariant ⟨⟨⟨rfl, rfl⟩, rfl, rfl⟩, ?_, ?_⟩ ?_
  · intro t ht
    cases ht
  · exact spares_nil
  · intro c d c' out hI _ hs
    exact guarded_step hI hs

/-- **THE MAIN WALLET IS NEVER COLLECTED OR DEACTIVATED.**  In every run of the strategy's
    handler and tasks, with `Deactivate` sent to any member at any time: the wallet's
    machine is in none of `collecting`, `deactivating` and `deactivated`, and handles every
    event it may be given next without a panic and without marking anybody inactive. -/
theorem main_wallet_not_collected {inst : VolumeInstance} {pool : RaydiumPool} {key : Keypair}
    {now : Instant} {c : Config}
    (h : Reach disturbed Always (Config.new inst pool key now) c) :
    (c.strategy.mainWallet.state.collects = false ∧
      c.strategy.mainWallet.state ≠ .deactivated) ∧
    ∀ i, Offered c i.event → ∃ a' out,
      FoxfireAgent.handle c.strategy.mainWallet i = some (a', out) ∧
      ∀ w, Effect.markInactive w ∉ out := by
  have hI := guarded_reach h
  refine ⟨⟨hI.sole.idle, ?_⟩, ?_⟩
  · intro hs
    have hon := hI.sole.wallet.on
    rw [hs] at hon
    cases hon
  · intro i hoffered
    obtain ⟨a', out, hstep, -, hmarks⟩ := sole_handle hI.sole (offered_not_collect hI hoffered)
    exact ⟨a', out, hstep, hmarks⟩

/-- While it funds the agents, the wallet is told to deactivate. -/
theorem funding_wallet_not_collected :
    ∃ c : Config, c.strategy.mainWallet.state = .error .attemptToDeactivateMainWallet ∧
      c.strategy.mainWallet.state ≠ .deactivated := by
  have hview : (run disturbed smallConfig
      ((beats 1 4 ++ beats 2 3).map .move ++ [.deactivate none (fineEnv 3).walletInput])).map
        (fun p => p.1.strategy.mainWallet.state)
      = some (.error .attemptToDeactivateMainWallet) := rfl
  obtain ⟨⟨c, out⟩, hrun, hs⟩ := Option.map_eq_some_iff.mp hview
  have hreach := reach_of_run (C := Always) (fun _ _ => trivial) hrun
  exact ⟨c, hs, (main_wallet_not_collected hreach).1.2⟩

end FoxfireVolume
