import FoxfireSniper.SnipeCleanupProofs
import FoxfireSniper.SnipePhaseProofs

/-! # The orders of the sniper strategy — which pools are traded in?

    The strategy (`src/strategies/sniper_strategy/strategy_state_machine.rs`) hears of a pool,
    asks the RPC pool about its token and, if the answers are fine, spawns a task that starts a
    snipe.  The snipes queue their actions on their own, in tasks that outlive the handler's
    call.  What the handler has checked is therefore said of the inputs so far:

    * **`Vetted`**: the pool was announced, the next answer was about its token, and it passed
      every check of the settings;
    * **`snipes_vetted`**: the strategy's wallet signs and pays for every action of a snipe; it
      buys for the size of the settings, in a vetted pool, and sells nothing but what it has
      bought there. -/

namespace FoxfireSniperStrategy

open FoxfireTypes FoxfireAttempt FoxfireSnipe FoxfireCleanup MachineRun

-- ── Orders ──────────────────────────────────────────────────────────────────

/-- The payload of a purchase. -/
def purchase (inst : SniperInstance) (pool : RaydiumPool) : List SolanaActionPayload :=
  [.swap ⟨pool.toLiquidityKeys, .buyTokensForExactSol, .exact (solToLamports inst.sizeSol), 0⟩]

/-- The payload of a sale of everything, which may close the account. -/
inductive Sale (pool : RaydiumPool) : List SolanaActionPayload → Prop where
  | max : Sale pool [.swap ⟨pool.toLiquidityKeys, .sellExactTokensForSol, .max, 0⟩]
  | maxAndClose :
      Sale pool [.swap ⟨pool.toLiquidityKeys, .sellExactTokensForSol, .maxAndClose, 0⟩]

/-- Does the handler take the input? -/
def Input.toHandler : Input → Bool
  | .event _ _ => true
  | .answer _  => true
  | _          => false

/-- The last that the handler has heard of is this pool, and its id is a fine one. -/
def Announced (inst : SniperInstance) (past : List Input) (pool : RaydiumPool)
    (price : RaydiumPoolPriceUpdate) : Prop :=
  ∃ before idText since, past = before ++
      .event (.blockchainEvent (.raydiumNewPoolEvent pool price)) idText :: since ∧
    (∀ i ∈ since, i.toHandler = false) ∧
    (inst.skipPumpFun = true → SniperStrategy.isPump idText = false)

/-- What the RPC pool has to answer about a token, and the pool's reserve. -/
structure Clears (inst : SniperInstance) (price : RaydiumPoolPriceUpdate) (a : RpcAnswers) :
    Prop where
  known  : a.accountData = true
  frozen : a.isFreezable = some false
  minted : inst.skipMintable = true → a.isMintable = some false
  liquid : inst.minPoolLiquiditySol ≤ price.quoteReserve

/-- The pool was announced, and the answer that came then was fine. -/
def Vetted (inst : SniperInstance) (past : List Input) (pool : RaydiumPool)
    (price : RaydiumPoolPriceUpdate) : Prop :=
  ∃ before a after, past = before ++ .answer a :: after ∧ Announced inst before pool price ∧
    Clears inst price a

/-- **AN ORDER OF THE STRATEGY**, after the inputs `past` and the effects `sent`. -/
structure Ordered (inst : SniperInstance) (wallet : Keypair) (past : List Input)
    (sent : List Effect) (action : SolanaAction) : Prop where
  signer   : action.sniper = wallet
  feePayer : action.feePayer = wallet
  trades   : ∃ pool price, Vetted inst past pool price ∧
    (action.actionPayload = purchase inst pool ∨
      Sale pool action.actionPayload ∧
        ∃ bought ∈ queuedActions sent, bought.actionPayload = purchase inst pool)

theorem Announced.concat {inst : SniperInstance} {past : List Input} {pool : RaydiumPool}
    {price : RaydiumPoolPriceUpdate} {i : Input} (h : Announced inst past pool price)
    (hi : i.toHandler = false) : Announced inst (past ++ [i]) pool price := by
  obtain ⟨before, idText, since, rfl, hsince, hpump⟩ := h
  refine ⟨before, idText, since ++ [i], by simp, ?_, hpump⟩
  intro j hj
  rcases List.mem_append.mp hj with hj | hj
  · exact hsince j hj
  · rw [List.mem_singleton.mp hj]
    exact hi

theorem Vetted.append {inst : SniperInstance} {past : List Input} {pool : RaydiumPool}
    {price : RaydiumPoolPriceUpdate} (h : Vetted inst past pool price) (later : List Input) :
    Vetted inst (past ++ later) pool price := by
  obtain ⟨before, a, after, rfl, hannounced, hclears⟩ := h
  exact ⟨before, a, after ++ later, by simp, hannounced, hclears⟩

-- ── A snipe ─────────────────────────────────────────────────────────────────

/-- The snipe has queued a purchase. -/
def Invested (s : State) : Prop := s.retry ≠ none ∨ s = .waitingToSell

/-- What is known of a snipe after the inputs `past` and the effects `sent`. -/
structure Sound (inst : SniperInstance) (wallet : Keypair) (past : List Input)
    (sent : List Effect) (m : Sniper) : Prop where
  key    : m.storage.agentKey = wallet
  config : m.storage.snipingStrategyInstance = inst.toSnipingStrategyInstance
  vetted : ∃ price, Vetted inst past m.storage.pool price
  buys   : ∀ amt r, m.state = .buying amt r → amt = .exact (solToLamports inst.sizeSol)
  sells  : ∀ amt r, m.state = .selling amt r → amt = .max ∨ amt = .maxAndClose
  bought : Invested m.state →
    ∃ action ∈ queuedActions sent, action.actionPayload = purchase inst m.storage.pool

variable {inst : SniperInstance} {wallet : Keypair} {past : List Input} {sent : List Effect}
  {m m' : Sniper} {i : FoxfireSnipe.Input} {out : List Effect}

theorem queuedActions_append (o₁ o₂ : List Effect) :
    queuedActions (o₁ ++ o₂) = queuedActions o₁ ++ queuedActions o₂ :=
  List.filterMap_append

theorem mem_queuedActions {action : SolanaAction} :
    action ∈ queuedActions out ↔ .queued action ∈ out := by
  rw [queuedActions, List.mem_filterMap]
  constructor
  · rintro ⟨e, he, heq⟩
    cases e with
    | queued action' =>
        obtain rfl := Option.some.inj heq
        exact he
    | insertTargetPool | insertTargetPoolPrice | removeTargetPool | stopMonitoringAccount
    | stopMonitoringTokenAccount => cases heq
  · intro h
    exact ⟨_, h, rfl⟩

/-- What is known stays known. -/
theorem Sound.mono (h : Sound inst wallet past sent m) (later : List Input)
    (more : List Effect) : Sound inst wallet (past ++ later) (sent ++ more) m where
  key := h.key
  config := h.config
  vetted := h.vetted.imp fun _ hv => hv.append later
  buys := h.buys
  sells := h.sells
  bought hs := by
    obtain ⟨action, hmem, hpayload⟩ := h.bought hs
    refine ⟨action, ?_, hpayload⟩
    rw [queuedActions_append]
    exact List.mem_append_left _ hmem

/-- An entry action queues an action of the snipe's own, if any. -/
theorem enter_signs {a a' : SniperAgentState} {s : State} (h : a.enter i s = some (a', out)) :
    ∀ action ∈ queuedActions out, action.sniper = a.agentKey ∧ action.feePayer = a.agentKey := by
  cases s with
  | waitingToSell =>
      intro action hmem
      rw [(setWhenBoughtTimer_quiet h).2] at hmem
      cases hmem
  | buying | selling =>
      obtain ⟨-, rfl⟩ := Prod.mk.inj (Option.some.inj h)
      intro action hmem
      obtain rfl := List.mem_singleton.mp hmem
      exact ⟨rfl, rfl⟩
  | waitingToBuy | done | error =>
      obtain ⟨-, rfl⟩ := Prod.mk.inj (Option.some.inj h)
      exact fun _ hmem => by cases hmem

theorem handle_signs (h : handle m i = some (m', out)) :
    ∀ action ∈ queuedActions out,
      action.sniper = m.storage.agentKey ∧ action.feePayer = m.storage.agentKey := by
  have howner := dispatch_sameOwner m i
  cases hd : (m.ready i).dispatch i m.state with
  | mk a resp =>
      rw [hd] at howner
      cases resp with
      | transition target =>
          rw [← howner.key]
          exact enter_signs (handle_transition hd h).2
      | super =>
          obtain ⟨-, rfl⟩ := handle_stay hd (Or.inl rfl) h
          exact fun _ hmem => by cases hmem
      | handled =>
          obtain ⟨-, rfl⟩ := handle_stay hd (Or.inr rfl) h
          exact fun _ hmem => by cases hmem

/-- A sale is one of everything. -/
theorem waitingToSell_amount {a : SniperAgentState} {target : State}
    (h : (a.waitingToSell i).2 = .transition target) :
    target = .selling .max 0 ∨ target = .selling .maxAndClose 0 := by
  unfold SniperAgentState.waitingToSell at h
  split at h
  · cases h
    exact Or.inr rfl
  · split at h
    · split at h
      · cases h
        exact Or.inl rfl
      · split at h
        · cases h
          exact Or.inl rfl
        · cases h
    · cases h

/-- The size of a purchase and of a sale. -/
theorem handle_sizes (hS : Sound inst wallet past sent m) (h : handle m i = some (m', out)) :
    (∀ amt r, m'.state = .buying amt r → amt = .exact (solToLamports inst.sizeSol)) ∧
      ∀ amt r, m'.state = .selling amt r → amt = .max ∨ amt = .maxAndClose := by
  have hretried : m'.state = m.state.retried →
      (∀ amt r, m'.state = .buying amt r → amt = .exact (solToLamports inst.sizeSol)) ∧
        ∀ amt r, m'.state = .selling amt r → amt = .max ∨ amt = .maxAndClose := by
    intro hs
    rw [hs]
    cases hm : m.state with
    | buying amt r =>
        refine ⟨fun amt' r' heq => ?_, fun _ _ heq => by cases heq⟩
        obtain ⟨rfl, -⟩ := State.buying.inj heq
        exact hS.buys _ _ hm
    | selling amt r =>
        refine ⟨(fun _ _ heq => by cases heq), fun amt' r' heq => ?_⟩
        obtain ⟨rfl, -⟩ := State.selling.inj heq
        exact Or.inl rfl
    | waitingToBuy | waitingToSell | done | error =>
        exact ⟨(fun _ _ heq => by cases heq), fun _ _ heq => by cases heq⟩
  cases handle_cases h with
  | quiet hstate =>
      rcases hstate with hs | ⟨hr, -⟩
      · rw [hs]
        exact ⟨hS.buys, hS.sells⟩
      · refine ⟨fun amt r hs => ?_, fun amt r hs => ?_⟩
        · rw [hs] at hr
          cases hr
        · rw [hs] at hr
          cases hr
  | bought hfrom hstate =>
      rw [hstate]
      refine ⟨fun amt r heq => ?_, fun _ _ heq => by cases heq⟩
      obtain ⟨rfl, -⟩ := State.buying.inj heq
      rw [hS.config]
  | @sold action amt hfrom hstate hq =>
      rw [hstate]
      refine ⟨(fun _ _ heq => by cases heq), fun amt' r heq => ?_⟩
      obtain ⟨rfl, -⟩ := State.selling.inj heq
      rcases handle_turns h with ⟨target, hd, hs, -⟩ | ⟨-, hs, -⟩
      · rw [hfrom] at hd
        have htarget := waitingToSell_amount (a := m.ready i) hd
        rw [← hs, hstate] at htarget
        rcases htarget with heq | heq
        · exact Or.inl (State.selling.inj heq).1
        · exact Or.inr (State.selling.inj heq).1
      · rw [hfrom, hstate] at hs
        cases hs
  | retriedFailed _ hstate => exact hretried hstate
  | retriedTimeout _ hstate => exact hretried hstate

/-- **WHAT A SNIPE QUEUES** is the order of the state that it enters. -/
theorem handle_payload (h : handle m i = some (m', out)) :
    ∀ action ∈ queuedActions out,
      action.actionPayload = m'.state.payload m'.storage.pool ∧ m'.state.retry ≠ none := by
  have hone : ∀ {op a r}, Queues i m' out op a → m'.state.retry = some r →
      ∀ action ∈ queuedActions out,
        action.actionPayload = m'.state.payload m'.storage.pool ∧ m'.state.retry ≠ none := by
    intro op a r hq hr action hmem
    rw [hq.out] at hmem
    obtain rfl := List.mem_singleton.mp hmem
    refine ⟨hq.payload, ?_⟩
    rw [hr]
    exact Option.some_ne_none r
  cases handle_cases h with
  | quiet _ _ hout =>
      rw [hout]
      exact fun _ hmem => by cases hmem
  | bought _ hstate hq => exact hone hq (by rw [hstate]; rfl)
  | sold _ hstate hq => exact hone hq (by rw [hstate]; rfl)
  | retriedFailed hr hstate _ _ hq => exact hone hq (by rw [hstate]; exact retried_retry hr)
  | retriedTimeout hr hstate _ hq => exact hone hq (by rw [hstate]; exact retried_retry hr)

/-- A snipe invests by a purchase, or has invested before. -/
theorem handle_invests (h : handle m i = some (m', out)) (hs : Invested m'.state) :
    Invested m.state ∨ m.state = .waitingToBuy ∧ ∃ amt action, m'.state = .buying amt 0 ∧
      queuedActions out = [action] ∧ action.actionPayload = m'.state.payload m'.storage.pool := by
  have hretry : ∀ {r}, m.state.retry = some r → Invested m.state := by
    intro r hr
    refine Or.inl ?_
    rw [hr]
    exact Option.some_ne_none r
  rcases handle_turns h with ⟨target, -, htarget, hturn⟩ | ⟨-, hstay, -⟩
  · cases hturn with
    | buys hfrom =>
        right
        cases handle_cases h with
        | quiet hstate =>
            rcases hstate with hsame | ⟨hr, -⟩
            · rw [hfrom, htarget] at hsame
              cases hsame
            · rw [htarget] at hr
              cases hr
        | bought _ hstate hq => exact ⟨hfrom, _, _, hstate, hq.out, hq.payload⟩
        | sold hfrom' =>
            rw [hfrom] at hfrom'
            cases hfrom'
        | retriedFailed hr =>
            rw [hfrom] at hr
            cases hr
        | retriedTimeout hr =>
            rw [hfrom] at hr
            cases hr
    | skips =>
        rw [htarget] at hs
        rcases hs with hs | hs
        · exact absurd rfl hs
        · cases hs
    | retries hr => exact Or.inl (hretry hr)
    | bought hfrom => exact Or.inl (hretry (by rw [hfrom]; rfl))
    | sells hfrom => exact Or.inl (Or.inr hfrom)
    | sold hfrom => exact Or.inl (hretry (by rw [hfrom]; rfl))
    | fails hr => exact Or.inl (hretry hr)
  · rw [hstay] at hs
    exact Or.inl hs

/-- **A SNIPE STAYS SOUND**, and orders what it should. -/
theorem Sound.handle (hS : Sound inst wallet past sent m) (h : handle m i = some (m', out)) :
    Sound inst wallet past (sent ++ out) m' ∧
      ∀ action ∈ queuedActions out, Ordered inst wallet past sent action := by
  obtain ⟨hpool, hkey⟩ := (handle_frame (fun k _ => k) h).1
  obtain ⟨hbuys, hsells⟩ := handle_sizes hS h
  obtain ⟨price, hvetted⟩ := hS.vetted
  -- the first purchase is the one that the step queues
  have hbought : Invested m'.state → ∃ action ∈ queuedActions (sent ++ out),
      action.actionPayload = purchase inst m.storage.pool := by
    intro hs
    rw [queuedActions_append]
    rcases handle_invests h hs with hbefore | ⟨-, amt, action, hbuying, hout, hpayload⟩
    · obtain ⟨action, hmem, hpayload⟩ := hS.bought hbefore
      exact ⟨action, List.mem_append_left _ hmem, hpayload⟩
    · refine ⟨action, List.mem_append_right _ (hout ▸ List.mem_singleton_self action), ?_⟩
      rw [hpayload, hbuying, hpool, hbuys _ _ hbuying]
      rfl
  refine ⟨⟨hkey.trans hS.key, (handle_keeps h).trans hS.config, ⟨price, hpool ▸ hvetted⟩, hbuys,
    hsells, hpool ▸ hbought⟩, ?_⟩
  intro action hmem
  obtain ⟨hsigner, hfee⟩ := handle_signs h action hmem
  obtain ⟨hpayload, hwaits⟩ := handle_payload h action hmem
  refine ⟨hsigner.trans hS.key, hfee.trans hS.key, m.storage.pool, price, hvetted, ?_⟩
  rw [hpool] at hpayload
  cases hs : m'.state with
  | buying amt r =>
      left
      rw [hpayload, hs, hbuys _ _ hs]
      rfl
  | selling amt r =>
      right
      refine ⟨?_, ?_⟩
      · rw [hpayload, hs]
        rcases hsells _ _ hs with rfl | rfl
        · exact .max
        · exact .maxAndClose
      · -- nobody sells at the step that buys first
        rcases handle_invests h (Or.inl hwaits) with hbefore | ⟨-, amt', -, hbuying, -⟩
        · exact hS.bought hbefore
        · rw [hbuying] at hs
          cases hs
  | waitingToBuy | waitingToSell | done | error =>
      rw [hs] at hwaits
      exact absurd rfl hwaits

theorem sound_new {pool : RaydiumPool} {price : RaydiumPoolPriceUpdate}
    (h : Vetted inst past pool price) (now : Instant) :
    Sound inst wallet past sent
      (Sniper.new pool wallet inst.toSnipingStrategyInstance price now) where
  key := rfl
  config := rfl
  vetted := ⟨price, h⟩
  buys := fun _ _ heq => by cases heq
  sells := fun _ _ heq => by cases heq
  bought h := by
    rcases h with h | h
    · exact absurd rfl h
    · cases h

-- ── The handler ─────────────────────────────────────────────────────────────

section Handler

variable {s s' : SniperStrategy} {i : Input}

/-- An event is taken when the handler is idle. -/
theorem event_cases {e : BotEvent} {idText : String}
    (h : SniperStrategy.step s (.event e idText) = some (s', out)) :
    s.handler = .idle ∧ out = [] ∧ (s' = s ∨ s' = (s.spawnDispatch e).running e idText) := by
  unfold SniperStrategy.step at h
  dsimp only at h
  cases hc : s.collecting with
  | some c =>
      rw [hc] at h
      cases h
  | none =>
      cases hh : s.handler with
      | idle =>
          rw [hc, hh] at h
          dsimp only at h
          split at h
          · obtain ⟨rfl, rfl⟩ := Prod.mk.inj (Option.some.inj h)
            exact ⟨rfl, rfl, Or.inr rfl⟩
          · obtain ⟨rfl, rfl⟩ := Prod.mk.inj (Option.some.inj h)
            exact ⟨rfl, rfl, Or.inl rfl⟩
      | checking | panicked =>
          rw [hc, hh] at h
          cases h

/-- An answer is taken when the handler waits for one. -/
theorem answer_cases {a : RpcAnswers} (h : SniperStrategy.step s (.answer a) = some (s', out)) :
    ∃ pool price, s.handler = .checking pool price ∧ out = [] ∧ s' = s.checked pool price a := by
  unfold SniperStrategy.step at h
  dsimp only at h
  cases hc : s.collecting with
  | some c =>
      rw [hc] at h
      cases h
  | none =>
      cases hh : s.handler with
      | checking pool price =>
          rw [hc, hh] at h
          obtain ⟨rfl, rfl⟩ := Prod.mk.inj (Option.some.inj h)
          exact ⟨pool, price, rfl, rfl, rfl⟩
      | idle | panicked =>
          rw [hc, hh] at h
          cases h

/-- The handler waits for an answer about a pool that was announced just now. -/
theorem running_checking {e : BotEvent} {idText : String} {pool : RaydiumPool}
    {price : RaydiumPoolPriceUpdate} (hidle : s.handler = .idle)
    (h : (s.running e idText).handler = .checking pool price) :
    e = .blockchainEvent (.raydiumNewPoolEvent pool price) ∧
      (s.inst.skipPumpFun = true → SniperStrategy.isPump idText = false) := by
  unfold SniperStrategy.running at h
  split at h
  · split at h
    · rw [hidle] at h
      cases h
    · split at h
      · rw [hidle] at h
        cases h
      · next hfine =>
          obtain ⟨rfl, rfl⟩ := Handler.checking.inj h
          refine ⟨rfl, fun hskip => ?_⟩
          rw [hskip, Bool.true_and] at hfine
          exact Bool.eq_false_iff.mpr hfine
  · rw [hidle] at h
    cases h

theorem check_clears {price : RaydiumPoolPriceUpdate} {a : RpcAnswers}
    (h : s.check price a = some true) : Clears s.inst price a := by
  unfold SniperStrategy.check at h
  split at h
  · next hknown =>
      obtain ⟨freezable, hfreezable, h⟩ := Option.bind_eq_some_iff.mp h
      split at h
      · cases h
      · next hfrozen =>
          obtain ⟨mintable, hmintable, h⟩ := Option.map_eq_some_iff.mp h
          split at h
          · cases h
          · next hminted =>
              split at h
              · cases h
              · next hliquid =>
                  obtain rfl := Bool.eq_false_iff.mpr hfrozen
                  obtain rfl := Bool.eq_false_iff.mpr hminted
                  refine ⟨hknown, hfreezable, fun hskip => ?_, not_lt.mp hliquid⟩
                  rwa [if_pos hskip] at hmintable
  · cases h

-- ── The strategy ────────────────────────────────────────────────────────────

/-- What is known of the strategy after the inputs `past` and the effects `sent`. -/
structure Vouched (inst : SniperInstance) (wallet : Keypair) (past : List Input)
    (sent : List Effect) (s : SniperStrategy) : Prop where
  config     : s.inst = inst
  signer     : s.sniperWallet = wallet
  checking   : ∀ pool price, s.handler = .checking pool price → Announced inst past pool price
  insertions : ∀ task ∈ s.insertions, Vetted inst past task.pool task.price
  snipes     : ∀ m ∈ s.heap, Sound inst wallet past sent m

/-- A task leaves the handler alone. -/
theorem task_keeps (hi : i.toHandler = false) (h : SniperStrategy.step s i = some (s', out)) :
    s'.inst = s.inst ∧ s'.sniperWallet = s.sniperWallet ∧ s'.handler = s.handler ∧
      s'.insertions ⊆ s.insertions := by
  cases step_cases h with
  | handled | ignored | checked => cases hi
  | inserted => exact ⟨rfl, rfl, rfl, List.eraseIdx_subset⟩
  | delivered | removed | searched => exact ⟨rfl, rfl, rfl, List.Subset.refl _⟩

/-- **EVERY SNIPE IS SOUND**, a new one and one that has handled an event. -/
theorem Vouched.heap (hV : Vouched inst wallet past sent s)
    (h : SniperStrategy.step s i = some (s', out)) :
    (∀ m ∈ s'.heap, Sound inst wallet past (sent ++ out) m) ∧
      ∀ action ∈ queuedActions out, Ordered inst wallet past sent action := by
  have hkept : ∀ m ∈ s.heap, ∀ more, Sound inst wallet past (sent ++ more) m := by
    intro m hm more
    have hS := (hV.snipes m hm).mono [] more
    rwa [List.append_nil] at hS
  have hnone : ∀ action ∈ queuedActions ([] : List Effect),
      Ordered inst wallet past sent action := by
    intro action hmem
    cases hmem
  cases step_cases h with
  | @handled e idText =>
      obtain ⟨handler, heq⟩ := running_eq (s.spawnDispatch e) e idText
      rw [heq]
      exact ⟨fun m hm => hkept m hm [], hnone⟩
  | @checked a pool price =>
      unfold SniperStrategy.checked
      split <;> exact ⟨fun m hm => hkept m hm [], hnone⟩
  | @inserted k now task htask =>
      refine ⟨fun m hm => ?_, hnone⟩
      rcases List.mem_append.mp hm with hm | hm
      · exact hkept m hm []
      · rw [List.mem_singleton.mp hm, hV.signer, hV.config]
        exact sound_new (hV.insertions task (List.mem_of_getElem? htask)) now
  | @delivered k j i event refs r =>
      rcases delivered_cases s r event i with heq | ⟨m, m', out, hfound, hhandle, heq⟩
      · rw [heq]
        exact ⟨fun m hm => hkept m hm [], hnone⟩
      · rw [heq]
        obtain ⟨hsound, hordered⟩ :=
          (hV.snipes m (List.mem_of_getElem? hfound)).handle hhandle
        refine ⟨fun n hn => ?_, hordered⟩
        rcases List.mem_or_eq_of_mem_set hn with hn | rfl
        · exact hkept n hn out
        · exact hsound
  | ignored | removed | searched => exact ⟨fun m hm => hkept m hm [], hnone⟩

theorem announced_running {e : BotEvent} {idText : String} {pool : RaydiumPool}
    {price : RaydiumPoolPriceUpdate} (hidle : s.handler = .idle)
    (h : (s.running e idText).handler = .checking pool price) :
    Announced s.inst (past ++ [.event e idText]) pool price := by
  obtain ⟨rfl, hpump⟩ := running_checking hidle h
  exact ⟨past, idText, [], rfl, fun _ hi => absurd hi List.not_mem_nil, hpump⟩

/-- A pool that passes the checks was announced, and its answer is the last input. -/
theorem vetted_checked (hV : Vouched inst wallet past sent s) {pool : RaydiumPool}
    {price : RaydiumPoolPriceUpdate} {a : RpcAnswers}
    (hchecking : s.handler = .checking pool price) :
    (∀ pool' price', (s.checked pool price a).handler ≠ .checking pool' price') ∧
      ∀ task ∈ (s.checked pool price a).insertions,
        Vetted inst (past ++ [.answer a]) task.pool task.price := by
  have hold : ∀ task ∈ s.insertions, Vetted inst (past ++ [.answer a]) task.pool task.price :=
    fun task htask => (hV.insertions task htask).append [.answer a]
  unfold SniperStrategy.checked
  cases hcheck : s.check price a with
  | none => exact ⟨fun _ _ h => Handler.noConfusion h, hold⟩
  | some fine =>
      cases fine with
      | false => exact ⟨fun _ _ h => Handler.noConfusion h, hold⟩
      | true =>
          refine ⟨fun _ _ h => Handler.noConfusion h, fun task htask => ?_⟩
          rcases List.mem_append.mp htask with htask | htask
          · exact hold task htask
          · rw [List.mem_singleton.mp htask]
            have hclears := check_clears hcheck
            rw [hV.config] at hclears
            exact ⟨past, a, [], rfl, hV.checking pool price hchecking, hclears⟩

theorem checked_keeps (s : SniperStrategy) (pool : RaydiumPool) (price : RaydiumPoolPriceUpdate)
    (a : RpcAnswers) : (s.checked pool price a).inst = s.inst ∧
      (s.checked pool price a).sniperWallet = s.sniperWallet := by
  unfold SniperStrategy.checked
  split <;> exact ⟨rfl, rfl⟩

theorem vouched_step (hV : Vouched inst wallet past sent s)
    (h : SniperStrategy.step s i = some (s', out)) :
    Vouched inst wallet (past ++ [i]) (sent ++ out) s' := by
  have hsnipes : ∀ m ∈ s'.heap, Sound inst wallet (past ++ [i]) (sent ++ out) m := by
    intro m hm
    have hS := ((hV.heap h).1 m hm).mono [i] []
    rwa [List.append_nil] at hS
  have hold : ∀ task ∈ s.insertions, Vetted inst (past ++ [i]) task.pool task.price :=
    fun task htask => (hV.insertions task htask).append [i]
  cases hi : i.toHandler with
  | false =>
      obtain ⟨hinst, hwallet, hhandler, hsub⟩ := task_keeps hi h
      exact ⟨hinst.trans hV.config, hwallet.trans hV.signer,
        fun pool price hchecking => (hV.checking pool price (hhandler ▸ hchecking)).concat hi,
        fun task htask => hold task (hsub htask), hsnipes⟩
  | true =>
      cases i with
      | event e idText =>
          obtain ⟨hidle, -, rfl | rfl⟩ := event_cases h
          · refine ⟨hV.config, hV.signer, fun pool price hchecking => ?_, hold, hsnipes⟩
            rw [hidle] at hchecking
            cases hchecking
          · have hchecking : ∀ pool price,
                ((s.spawnDispatch e).running e idText).handler = .checking pool price →
                  Announced inst (past ++ [.event e idText]) pool price := by
              intro pool price hchecking
              rw [← hV.config]
              exact announced_running (s := s.spawnDispatch e) hidle hchecking
            obtain ⟨handler, heq⟩ := running_eq (s.spawnDispatch e) e idText
            rw [heq] at hchecking hsnipes ⊢
            exact ⟨hV.config, hV.signer, hchecking, hold, hsnipes⟩
      | answer a =>
          obtain ⟨pool, price, hchecking, -, rfl⟩ := answer_cases h
          obtain ⟨hinst, hwallet⟩ := checked_keeps s pool price a
          obtain ⟨hidle, hinsertions⟩ := vetted_checked (a := a) hV hchecking
          exact ⟨hinst.trans hV.config, hwallet.trans hV.signer,
            fun pool' price' h' => absurd h' (hidle pool' price'), hinsertions, hsnipes⟩
      | insertSnipe | fetch | deliver | collect | examine | release | removeSnipe => cases hi

end Handler

theorem vouched_new (inst : SniperInstance) (wallet : Keypair) :
    Vouched inst wallet [] [] (SniperStrategy.new inst wallet) where
  config := rfl
  signer := rfl
  checking _ _ h := by cases h
  insertions _ h := absurd h List.not_mem_nil
  snipes _ h := absurd h List.not_mem_nil

/-- Whatever a run has queued was an order when it was queued. -/
theorem ordered_of_queued {inst : SniperInstance} {wallet : Keypair} {inputs : List Input}
    {s : SniperStrategy} {out : List Effect} {action : SolanaAction}
    (h : run SniperStrategy.step (SniperStrategy.new inst wallet) inputs = some (s, out))
    (hmem : .queued action ∈ out) :
    ∃ past later sent more, inputs = past ++ later ∧ out = sent ++ more ∧
      .queued action ∈ more ∧ Ordered inst wallet past sent action := by
  obtain ⟨past, i, later, s₁, s₂, o₁, o₂, o₃, rfl, hpast, hstep, hqueued, -, rfl⟩ :=
    run_emits h hmem
  have hV := run_record (J := fun past sent s => Vouched inst wallet past sent s)
    (vouched_new inst wallet) (fun _ _ _ _ _ _ hV hs => vouched_step hV hs) hpast
  exact ⟨past, i :: later, o₁, o₂ ++ o₃, rfl, rfl, List.mem_append_left _ hqueued,
    (hV.heap hstep).2 action (mem_queuedActions.mpr hqueued)⟩

/-- **WHAT THE STRATEGY BUYS, IT HAS VETTED.**  In every run, however the snipes' tasks and the
    handler overlap: the strategy's wallet signs and pays for every action, and nothing else
    does; the action buys for the size of the settings, in a pool that was announced and passed
    every check before, or sells all of the token of such a pool, and then a purchase there was
    queued before it. -/
theorem snipes_vetted (inst : SniperInstance) (wallet : Keypair) (inputs : List Input)
    (s : SniperStrategy) (out : List Effect)
    (h : run SniperStrategy.step (SniperStrategy.new inst wallet) inputs = some (s, out)) :
    ∀ action, .queued action ∈ out → ∃ past later sent more,
      inputs = past ++ later ∧ out = sent ++ more ∧ .queued action ∈ more ∧
        Ordered inst wallet past sent action :=
  fun _ hmem => ordered_of_queued h hmem

/-- The pool `7` is announced and found to be fine; its snipe buys at the next heartbeat. -/
def sevenBought : List Input :=
  [announced 7, fine, .insertSnipe 0 0, .event (.heartBeat FoxfireAgent.tick 0) "", .fetch 1,
    .deliver 1 0 (beatAt 10 ⟨5⟩)]

theorem sevenBought_vetted :
    ∃ s out action, run SniperStrategy.step oneAtATime sevenBought = some (s, out) ∧
      queuedActions out = [action] ∧ action.uuid = ⟨5⟩ ∧ ∃ past later sent more,
        sevenBought = past ++ later ∧ out = sent ++ more ∧ .queued action ∈ more ∧
          Ordered oneAtATime.inst ⟨⟨1⟩, 1⟩ past sent action := by
  have hview : (run SniperStrategy.step oneAtATime sevenBought).map
      (fun p => (queuedActions p.2).map SolanaAction.uuid) = some [⟨5⟩] := by decide +kernel
  obtain ⟨⟨s, out⟩, hrun, huuids⟩ := Option.map_eq_some_iff.mp hview
  obtain ⟨action, hone, huuid⟩ := List.map_eq_singleton_iff.mp huuids
  refine ⟨s, out, action, hrun, hone, huuid, ?_⟩
  exact snipes_vetted oneAtATime.inst ⟨⟨1⟩, 1⟩ sevenBought s out hrun action
    (mem_queuedActions.mp (hone ▸ List.mem_singleton_self action))

end FoxfireSniperStrategy
