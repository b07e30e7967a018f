import FoxfireSniper.MachineRunProofs
import FoxfireSniper.NewPoolProofs
import FoxfireSniper.ReceiptProofs
import FoxfireSniper.RecencyProofs

/-! # New pools — one announcement for each token

    The collector announces a pool that a transaction of the feed creates, unless it has
    announced one for the same token: `target_tokens` remembers the tokens in an `LruCache`.
    To ask for a token is no use of it, and a token is put only when it is not there, so that
    the cache forgets the tokens in the order in which they were announced.

    Only the collector touches `target_tokens`; everything else in the cache may change
    between its calls.

    * **`announced_iff`**: what one call announces.
    * **`tokens_announced_once`**: in every run, tokens that come again are not announced
      until as many others have been as the cache holds; every other pool that is found is
      announced. -/

namespace FoxfireCollector

open FoxfireTypes FoxfireFeed FoxfireCache FoxfireParser NoRollback MachineRun Recency

-- ── The cache of tokens ─────────────────────────────────────────────────────

/-- The tokens that are remembered, the one announced last first. -/
def rememberedTokens (c : OperationalCache) : List Pubkey := c.targetTokens.entries.map Prod.fst

theorem keys_put {K V : Type} [DecidableEq K] (c : LruCache K V) (k : K) (v : V) :
    (c.put k v).entries.map Prod.fst = touch c.cap (c.entries.map Prod.fst) k := by
  rw [LruCache.put, touch, List.map_take, List.map_cons, List.filter_map]
  rfl

theorem contains_iff {K V : Type} [DecidableEq K] {c : LruCache K V} {k : K} :
    c.contains k = true ↔ k ∈ c.entries.map Prod.fst := by
  rw [LruCache.contains, List.any_eq_true, List.mem_map]
  constructor
  · rintro ⟨e, he, heq⟩
    exact ⟨e, he, by simpa using heq⟩
  · rintro ⟨e, he, rfl⟩
    exact ⟨e, he, by simp⟩

/-- Pools, prices and announced tokens are as they were. -/
structure SamePools (c c' : OperationalCache) : Prop where
  pools  : c'.targetPools = c.targetPools
  prices : c'.targetPoolsPrices = c.targetPoolsPrices
  tokens : c'.targetTokens = c.targetTokens

theorem SamePools.refl (c : OperationalCache) : SamePools c c := ⟨rfl, rfl, rfl⟩

theorem SamePools.swapsApply {c c' : OperationalCache} (h : SamePools c c')
    (swaps : List Swap) : SwapsApply c' swaps ↔ SwapsApply c swaps := by
  simp only [SwapsApply, h.pools, h.prices]

-- ── What is announced ───────────────────────────────────────────────────────

/-- The token that an event announces a pool for. -/
def tokenOf : BotEvent → Option Pubkey
  | .blockchainEvent (.raydiumNewPoolEvent pool _) => some pool.baseMint
  | _                                              => none

def announcedTokens (events : List BotEvent) : List Pubkey := events.filterMap tokenOf

def newPoolEvent (pool : RaydiumPool) (price : RaydiumPoolPriceUpdate) : BotEvent :=
  .blockchainEvent (.raydiumNewPoolEvent pool price)

/-- None of the events announces a pool. -/
def Silent (events : List BotEvent) : Prop := ∀ e ∈ events, tokenOf e = none

theorem silent_nil : Silent [] := by
  intro e he
  cases he

theorem Silent.append {events events' : List BotEvent} (h : Silent events)
    (h' : Silent events') : Silent (events ++ events') := by
  intro e he
  rcases List.mem_append.mp he with he | he
  · exact h e he
  · exact h' e he

theorem announcedTokens_silent {events : List BotEvent} (h : Silent events) :
    announcedTokens events = [] :=
  List.filterMap_eq_nil_iff.mpr h

theorem announcedTokens_append (events events' : List BotEvent) :
    announcedTokens (events ++ events') = announcedTokens events ++ announcedTokens events' :=
  List.filterMap_append

theorem newPoolEvent_notMem {events : List BotEvent} (h : Silent events) (p : RaydiumPool)
    (u : RaydiumPoolPriceUpdate) : newPoolEvent p u ∉ events := by
  intro he
  cases h _ he

-- ── The stages of a call ────────────────────────────────────────────────────

variable {crates : Crates} {mode : Mode} {now : Instant} {cache : OperationalCache}
  {txUpdate : SubscribeUpdateTransaction} {tx : TransactionPretty}

theorem parseCachedExecutions_silent (hmode : mode ≠ .backTesting) (now : Instant)
    (tx : TransactionPretty) (c : OperationalCache) :
    ∃ confirmation c', exec (parseCachedExecutions mode now tx) c = (.ok confirmation, c') ∧
      SamePools c c' ∧ Silent confirmation := by
  have hone : ∀ r, Silent [BotEvent.blockchainEvent (.executionReceipt r)] := by
    intro r e he
    rw [List.mem_singleton.mp he]
    rfl
  rw [parseCachedExecutions, exec_get_bind]
  cases mode with
  | backTesting => exact absurd rfl hmode
  | live =>
      cases c.getUuidBySignature tx.signature with
      | none => exact ⟨_, _, rfl, .refl c, silent_nil⟩
      | some uuid => exact ⟨_, _, rfl, ⟨rfl, rfl, rfl⟩, hone _⟩
  | paperTrading =>
      cases hp : c.popFront with
      | mk pop c' =>
          have hsame : SamePools c c' := by
            rw [OperationalCache.popFront] at hp
            obtain ⟨-, rfl⟩ := Prod.mk.inj hp
            exact ⟨rfl, rfl, rfl⟩
          simp only [exec_set_bind]
          cases pop with
          | none => exact ⟨_, _, rfl, hsame, silent_nil⟩
          | some p => exact ⟨_, _, rfl, hsame, hone _⟩

theorem noteFee_pools (tx : TransactionPretty) (c : OperationalCache) :
    SamePools c (noteFee tx c) := by
  obtain ⟨hpools, hprices⟩ := noteFee_keeps tx c
  refine ⟨hpools, hprices, ?_⟩
  simp only [noteFee]
  split
  · rfl
  · split
    · split
      · rfl
      · split
        · rfl
        · rfl
    · rfl

/-- The announced tokens are as they were. -/
def SameTokens (c c' : OperationalCache) : Prop := c'.targetTokens = c.targetTokens

theorem SameTokens.trans (a b c : OperationalCache) (hab : SameTokens a b)
    (hbc : SameTokens b c) : SameTokens a c := Eq.trans hbc hab

theorem applySwap_tokens (now : Instant) (sig : Signature) (s : Swap) :
    Frame SameTokens (applySwap now sig s) := by
  intro c
  rcases applySwap_cases now sig c s with ⟨-, events, h⟩ | ⟨-, stop, prices, h⟩
  · obtain ⟨prices, hprices⟩ := shiftPrices_eq c s
    rw [h, hprices]
    rfl
  · rw [h]
    rfl

theorem applySwaps_tokens (now : Instant) (sig : Signature) (swaps : List Swap) :
    Frame SameTokens (applySwaps now sig swaps) := by
  induction swaps with
  | nil => exact fun c => rfl
  | cons s rest ih =>
      refine Frame.bind SameTokens.trans (applySwap_tokens now sig s) fun event => ?_
      exact Frame.bind SameTokens.trans ih fun events c => rfl

theorem applySwap_silent (now : Instant) (sig : Signature) (s : Swap) :
    Returns Silent (applySwap now sig s) := by
  refine returns_get_bind fun cache => ?_
  cases cache.targetPools s.poolId with
  | none => exact returns_pure silent_nil
  | some pool =>
      refine Returns.bind_any fun entry => Returns.bind_any fun base =>
        Returns.bind_any fun quote => returns_set_bind ?_
      split
      · exact returns_throw _
      · split
        · exact returns_throw _
        · refine returns_pure fun e he => ?_
          rw [List.mem_singleton.mp he]
          rfl

theorem applySwaps_silent (now : Instant) (sig : Signature) (swaps : List Swap) :
    Returns Silent (applySwaps now sig swaps) := by
  induction swaps with
  | nil => exact returns_pure silent_nil
  | cons s rest ih =>
      refine Returns.bind (applySwap_silent now sig s) fun event hevent => ?_
      exact Returns.bind ih fun events hevents => returns_pure (hevent.append hevents)

/-- No swap of a monitored pool stops the call. -/
def SwapsPass (crates : Crates) (cache : OperationalCache) (tx : TransactionPretty) : Prop :=
  parseTxForSwaps crates tx.tx ≠ .error .panicked ∧
    ∀ swaps, parseTxForSwaps crates tx.tx = .ok swaps → SwapsApply cache swaps

/-- The swap stage announces nothing. -/
theorem swapStage_cases (crates : Crates) (now : Instant) (tx : TransactionPretty)
    (c : OperationalCache) :
    ∃ r c', exec (ifLetSome (parseTxForSwaps crates tx.tx) (applySwaps now tx.signature)) c =
        (r, c') ∧ SameTokens c c' ∧
      ((¬ SwapsPass crates c tx ∧ ∃ stop, r = .error stop) ∨
        (SwapsPass crates c tx ∧ ∃ events, r = .ok events ∧ Silent events)) := by
  have hpass := ifLetSome_ok_iff (parseTxForSwaps crates tx.tx)
    (applySwaps now tx.signature) c
  simp only [applySwaps_ok_iff] at hpass
  have htokens : Frame SameTokens
      (ifLetSome (parseTxForSwaps crates tx.tx) (applySwaps now tx.signature)) := by
    cases parseTxForSwaps crates tx.tx with
    | ok swaps => exact applySwaps_tokens now tx.signature swaps
    | error stop =>
        cases stop with
        | panicked => exact fun c => rfl
        | returnedNone => exact fun c => rfl
  have hsilent : Returns Silent
      (ifLetSome (parseTxForSwaps crates tx.tx) (applySwaps now tx.signature)) := by
    cases parseTxForSwaps crates tx.tx with
    | ok swaps => exact applySwaps_silent now tx.signature swaps
    | error stop =>
        cases stop with
        | panicked => exact returns_throw _
        | returnedNone => exact returns_pure silent_nil
  have hsame := htokens c
  have hnone := hsilent c
  generalize exec (ifLetSome (parseTxForSwaps crates tx.tx) (applySwaps now tx.signature)) c
    = p at hpass hsame hnone
  obtain ⟨r, c'⟩ := p
  refine ⟨r, c', rfl, hsame, ?_⟩
  cases r with
  | error stop =>
      refine Or.inl ⟨fun h => ?_, stop, rfl⟩
      obtain ⟨events, heq⟩ := hpass.mpr h
      cases heq
  | ok events => exact Or.inr ⟨hpass.mp ⟨events, rfl⟩, events, rfl, hnone events c' rfl⟩

/-- How a call ends, when `found` are the pools it finds: it announces nothing, or a pool that
    it finds, and then remembers its token. -/
inductive Called (found : RaydiumPool → RaydiumPoolPriceUpdate → Prop) (c : OperationalCache) :
    Flow (List BotEvent) × OperationalCache → Prop where
  | silent {r : Flow (List BotEvent)} {c' : OperationalCache} (htokens : SameTokens c c')
      (hsilent : ∀ events, r = .ok events → Silent events)
      (hnone : ∀ p u, found p u → c.targetTokens.contains p.baseMint = true) :
      Called found c (r, c')
  | announces {p : RaydiumPool} {u : RaydiumPoolPriceUpdate} {events : List BotEvent}
      {c' : OperationalCache} (hfound : found p u)
      (honly : ∀ p' u', found p' u' → p' = p ∧ u' = u)
      (hfresh : c.targetTokens.contains p.baseMint = false) (hsilent : Silent events)
      (htokens : c'.targetTokens = c.targetTokens.put p.baseMint p.id) :
      Called found c (.ok (events ++ [newPoolEvent p u]), c')

theorem Called.congr {found found' : RaydiumPool → RaydiumPoolPriceUpdate → Prop}
    {c c₁ : OperationalCache} {x : Flow (List BotEvent) × OperationalCache}
    (hsame : SameTokens c c₁) (hfound : ∀ p u, found' p u ↔ found p u)
    (h : Called found c₁ x) : Called found' c x := by
  have htokens : c₁.targetTokens = c.targetTokens := hsame
  cases h with
  | silent ht hs hn =>
      refine .silent (SameTokens.trans _ _ _ hsame ht) hs ?_
      intro p u hf
      rw [← htokens]
      exact hn p u ((hfound p u).mp hf)
  | announces hf ho hfr hs ht =>
      rw [htokens] at hfr ht
      exact .announces ((hfound _ _).mpr hf) (fun p u h => ho p u ((hfound p u).mp h)) hfr hs ht

/-- Some events of a call are returned, and none if there are none. -/
theorem finish_silent {events : List BotEvent} (h : Silent events) (c : OperationalCache) :
    ∃ r, exec (if events.isEmpty then throw .returnedNone else pure events :
        Call (List BotEvent)) c = (r, c) ∧ ∀ events', r = .ok events' → Silent events' := by
  cases events with
  | nil => exact ⟨_, rfl, fun events' heq => by cases heq⟩
  | cons e es =>
      refine ⟨_, rfl, ?_⟩
      intro events' heq
      cases heq
      exact h

/-- The later stages, after a confirmation. -/
theorem laterStages_called {confirmation : List BotEvent} (hconf : Silent confirmation)
    (c : OperationalCache) :
    Called (fun p u => SwapsPass crates c tx ∧
        extractPoolFromInitTx crates now txUpdate = .ok (p, u)) c
      (exec (laterStages crates now txUpdate tx confirmation) c) := by
  obtain ⟨r, c₁, hs, hsame, hcase⟩ := swapStage_cases crates now tx c
  have htokens : c₁.targetTokens = c.targetTokens := hsame
  rw [laterStages]
  rcases hcase with ⟨hstop, stop, rfl⟩ | ⟨hpass, swapEvents, rfl, hswaps⟩
  · rw [exec_bind_error hs]
    exact .silent hsame (fun events heq => by cases heq) (fun p u hf => absurd hf.1 hstop)
  · rw [exec_bind_ok hs]
    have hquiet := hconf.append hswaps
    cases hx : extractPoolFromInitTx crates now txUpdate with
    | error stop =>
        cases stop with
        | panicked =>
            have hstage : exec (ifLetSome (.error .panicked : Flow (RaydiumPool × _))
                fun p => announcePool p.1 p.2) c₁ = (.error .panicked, c₁) := rfl
            rw [exec_bind_error hstage]
            refine .silent hsame (fun events heq => by cases heq) ?_
            rintro p u ⟨-, hf⟩
            cases hf
        | returnedNone =>
            have hstage : exec (ifLetSome (.error .returnedNone : Flow (RaydiumPool × _))
                fun p => announcePool p.1 p.2) c₁ = (.ok [], c₁) := rfl
            rw [exec_bind_ok hstage]
            obtain ⟨r, hr, hquiet'⟩ := finish_silent (hquiet.append silent_nil) c₁
            rw [hr]
            refine .silent hsame hquiet' ?_
            rintro p u ⟨-, hf⟩
            cases hf
    | ok found =>
        obtain ⟨p, u⟩ := found
        cases hc : c₁.targetTokens.contains p.baseMint with
        | true =>
            have hannounce : exec (ifLetSome (.ok (p, u) : Flow _)
                fun p => announcePool p.1 p.2) c₁ = (.ok [], c₁) := by
              rw [ifLetSome, announcePool, exec_get_bind, if_pos hc]
              rfl
            rw [exec_bind_ok hannounce]
            obtain ⟨r, hr, hquiet'⟩ := finish_silent (hquiet.append silent_nil) c₁
            rw [hr]
            refine .silent hsame hquiet' ?_
            rintro p' u' ⟨-, hf⟩
            cases hf
            rw [← htokens, hc]
        | false =>
            have hannounce : exec (ifLetSome (.ok (p, u) : Flow _)
                fun p => announcePool p.1 p.2) c₁ = (.ok [newPoolEvent p u], { c₁ with
                  targetTokens := c₁.targetTokens.put p.baseMint p.id }) := by
              rw [ifLetSome, announcePool, exec_get_bind,
                if_neg (by rw [hc]; exact Bool.false_ne_true)]
              rfl
            rw [exec_bind_ok hannounce]
            have hsome : (confirmation ++ swapEvents ++ [newPoolEvent p u]).isEmpty = false := by
              rw [List.isEmpty_eq_false_iff]
              exact List.append_ne_nil_of_right_ne_nil _ (List.cons_ne_nil _ _)
            dsimp only
            rw [if_neg (by rw [hsome]; exact Bool.false_ne_true)]
            refine .announces ⟨hpass, rfl⟩ ?_ (by rw [← htokens, hc]) hquiet
              (by rw [← htokens])
            rintro p' u' ⟨-, hf⟩
            cases hf
            exact ⟨rfl, rfl⟩

/-- The call finds a new pool: it is no vote, no swap of a monitored pool stops it, and the
    transaction creates the pool. -/
structure Finds (crates : Crates) (mode : Mode) (now : Instant) (cache : OperationalCache)
    (e : GeyserFeedEvent) (p : RaydiumPool) (u : RaydiumPoolPriceUpdate) : Prop where
  mode        : mode ≠ .backTesting
  transaction : ∃ txUpdate tx, e = .transaction txUpdate ∧
    TransactionPretty.ofUpdate txUpdate = some tx ∧ tx.isVote = false ∧
    SwapsPass crates cache tx ∧ extractPoolFromInitTx crates now txUpdate = .ok (p, u)

theorem parseTransaction_called (crates : Crates) (mode : Mode) (now : Instant)
    (txUpdate : SubscribeUpdateTransaction) (c : OperationalCache) :
    Called (Finds crates mode now c (.transaction txUpdate)) c
      (exec (parseTransaction crates mode now txUpdate) c) := by
  have hnothing : ∀ {stop : Stop},
      (∀ p u, ¬ Finds crates mode now c (.transaction txUpdate) p u) →
      Called (Finds crates mode now c (.transaction txUpdate)) c (.error stop, c) := by
    intro stop hno
    exact .silent rfl (fun events heq => by cases heq) (fun p u hf => absurd hf (hno p u))
  rw [parseTransaction]
  cases htx : TransactionPretty.ofUpdate txUpdate with
  | none =>
      refine hnothing ?_
      rintro p u ⟨-, txUpdate', tx', heq, htx', -⟩
      cases heq
      rw [htx] at htx'
      cases htx'
  | some tx =>
      rw [show unwrap (some tx) = .ok tx from rfl, exec_outcome_ok_bind]
      have hthis : ∀ {p u}, Finds crates mode now c (.transaction txUpdate) p u →
          tx.isVote = false ∧ SwapsPass crates c tx ∧
            extractPoolFromInitTx crates now txUpdate = .ok (p, u) := by
        rintro p u ⟨-, txUpdate', tx', heq, htx', hrest⟩
        cases heq
        rw [htx] at htx'
        obtain rfl := Option.some.inj htx'
        exact hrest
      cases hvote : tx.isVote with
      | true =>
          rw [if_pos rfl]
          refine hnothing ?_
          intro p u hf
          have hno := (hthis hf).1
          rw [hvote] at hno
          cases hno
      | false =>
          rw [if_neg Bool.false_ne_true]
          by_cases hmode : mode = .backTesting
          · subst hmode
            exact hnothing fun p u hf => absurd rfl hf.mode
          · obtain ⟨confirmation, c₁, hc, hsame, hsilent⟩ :=
              parseCachedExecutions_silent hmode now tx c
            rw [exec_bind_ok hc, exec_modify_bind]
            have hfee := noteFee_pools tx c₁
            have hpass : SwapsPass crates (noteFee tx c₁) tx ↔ SwapsPass crates c tx := by
              simp only [SwapsPass, hfee.swapsApply, hsame.swapsApply]
            refine (laterStages_called hsilent _).congr (hfee.tokens.trans hsame.tokens) ?_
            intro p u
            rw [hpass]
            constructor
            · intro hf
              exact (hthis hf).2
            · rintro ⟨hp, hx⟩
              exact ⟨hmode, txUpdate, tx, rfl, htx, hvote, hp, hx⟩

/-- **WHAT ONE CALL DOES.** -/
theorem onFeedEvent_called (crates : Crates) (mode : Mode) (now : Instant)
    (e : GeyserFeedEvent) (c : OperationalCache) :
    Called (Finds crates mode now c e) c (exec (onFeedEvent crates mode now e) c) := by
  cases e with
  | transaction txUpdate => exact parseTransaction_called crates mode now txUpdate c
  | account acc =>
      have hno : ∀ p u, ¬ Finds crates mode now c (.account acc) p u := by
        rintro p u ⟨-, txUpdate, tx, heq, -⟩
        cases heq
      have hquiet : ∀ {events : List BotEvent} {c' : OperationalCache}, SameTokens c c' →
          Silent events → Called (Finds crates mode now c (.account acc)) c (.ok events, c') := by
        intro events c' hsame hs
        refine .silent hsame ?_ (fun p u hf => absurd hf (hno p u))
        intro events' heq
        cases heq
        exact hs
      rw [onFeedEvent, parseAccount, exec_get_bind, exec_set_bind]
      dsimp only
      split
      · exact hquiet rfl (by simp [Silent, tokenOf])
      · split
        · exact hquiet rfl (by simp [Silent, tokenOf])
        · split
          · exact hquiet rfl (by simp [Silent, tokenOf])
          · exact hquiet rfl (by simp [Silent, tokenOf])
  | txStatusUpdate status =>
      refine .silent rfl (fun events heq => by cases heq) ?_
      rintro p u ⟨-, txUpdate, tx, heq, -⟩
      cases heq

/-- **WHAT IS ANNOUNCED**: the pool that the call finds, if its token is not remembered. -/
theorem announced_iff {e : GeyserFeedEvent} {p : RaydiumPool} {u : RaydiumPoolPriceUpdate} :
    (∃ events, (exec (onFeedEvent crates mode now e) cache).1 = .ok events ∧
        newPoolEvent p u ∈ events) ↔
      Finds crates mode now cache e p u ∧ p.baseMint ∉ rememberedTokens cache := by
  have hcalled := onFeedEvent_called crates mode now e cache
  generalize exec (onFeedEvent crates mode now e) cache = x at hcalled
  have hcontains : ∀ {q : RaydiumPool}, q.baseMint ∉ rememberedTokens cache ↔
      cache.targetTokens.contains q.baseMint = false := by
    intro q
    rw [← Bool.not_eq_true, contains_iff]
    rfl
  rw [hcontains]
  cases hcalled with
  | silent _ hsilent hnone =>
      constructor
      · rintro ⟨events, heq, hmem⟩
        exact absurd hmem (newPoolEvent_notMem (hsilent events heq) p u)
      · rintro ⟨hf, hfresh⟩
        rw [hnone p u hf] at hfresh
        cases hfresh
  | announces hfound honly hfresh hsilent _ =>
      constructor
      · rintro ⟨events, heq, hmem⟩
        cases heq
        rcases List.mem_append.mp hmem with hmem | hmem
        · exact absurd hmem (newPoolEvent_notMem hsilent p u)
        · have heq := List.mem_singleton.mp hmem
          cases heq
          exact ⟨hfound, hfresh⟩
      · rintro ⟨hf, -⟩
        obtain ⟨rfl, rfl⟩ := honly p u hf
        exact ⟨_, rfl, List.mem_append_right _ List.mem_cons_self⟩

-- ── Whole runs ──────────────────────────────────────────────────────────────

/-- The cache, and whether the collector's task has panicked. -/
structure Announcer where
  cache : OperationalCache
  alive : Bool

inductive FeedMove where
  /-- The collector handles an event of the feed. -/
  | feed (now : Instant) (e : GeyserFeedEvent)
  /-- Everything else in the cache changes. -/
  | others (cache : OperationalCache)

/-- **ONE STEP.** -/
def announcer (crates : Crates) (mode : Mode) : Step Announcer FeedMove BotEvent
  | x, .feed now e =>
      if x.alive then
        let call := exec (onFeedEvent crates mode now e) x.cache
        some (⟨call.2, match call.1 with
          | .error .panicked => false
          | _                => true⟩, call.1.toOption.getD [])
      else none
  | x, .others cache =>
      some (⟨{ cache with targetTokens := x.cache.targetTokens }, x.alive⟩, [])

/-- The cache remembers the tokens that were announced last, which came one by one. -/
structure Remembers (past : List BotEvent) (x : Announcer) : Prop where
  capacity : x.cache.targetTokens.cap = cachedTxSignaturesBufferCapacity
  last     : rememberedTokens x.cache = touches cachedTxSignaturesBufferCapacity
    (announcedTokens past)
  spaced   : Spaced cachedTxSignaturesBufferCapacity (announcedTokens past)

theorem Remembers.quiet {past out : List BotEvent} {x x' : Announcer} (h : Remembers past x)
    (hsame : SameTokens x.cache x'.cache) (hout : Silent out) : Remembers (past ++ out) x' := by
  have htokens : x'.cache.targetTokens = x.cache.targetTokens := hsame
  have hpast : announcedTokens (past ++ out) = announcedTokens past := by
    rw [announcedTokens_append, announcedTokens_silent hout, List.append_nil]
  refine ⟨by rw [htokens, h.capacity], ?_, by rw [hpast]; exact h.spaced⟩
  rw [hpast, ← h.last, rememberedTokens, htokens]
  rfl

/-- **ONE STEP.** -/
theorem Remembers.step {past out : List BotEvent} {x x' : Announcer} {m : FeedMove}
    (h : Remembers past x) (hs : announcer crates mode x m = some (x', out)) :
    Remembers (past ++ out) x' := by
  cases m with
  | others cache =>
      obtain ⟨rfl, rfl⟩ := Prod.mk.inj (Option.some.inj hs)
      exact h.quiet rfl silent_nil
  | feed now e =>
      rw [announcer] at hs
      split at hs
      · obtain ⟨rfl, rfl⟩ := Prod.mk.inj (Option.some.inj hs)
        have hcalled := onFeedEvent_called crates mode now e x.cache
        generalize exec (onFeedEvent crates mode now e) x.cache = call at hcalled
        cases hcalled with
        | @silent r c' htokens hsilent _ =>
            refine h.quiet htokens ?_
            cases r with
            | error stop => exact silent_nil
            | ok events => exact hsilent events rfl
        | @announces p u events c' _ _ hfresh hsilent htokens =>
            have hout : announcedTokens (past ++ (events ++ [newPoolEvent p u])) =
                announcedTokens past ++ [p.baseMint] := by
              rw [announcedTokens_append, announcedTokens_append, announcedTokens_silent hsilent]
              rfl
            have hnew : p.baseMint ∉ touches cachedTxSignaturesBufferCapacity
                (announcedTokens past) := by
              rw [← h.last, rememberedTokens, ← contains_iff, hfresh]
              exact Bool.false_ne_true
            show Remembers (past ++ (events ++ [newPoolEvent p u])) _
            refine ⟨?_, ?_, ?_⟩
            · show c'.targetTokens.cap = _
              rw [htokens]
              exact h.capacity
            · show c'.targetTokens.entries.map Prod.fst = _
              rw [hout, touches_concat, htokens, keys_put, ← h.last, h.capacity]
              rfl
            · rw [hout]
              exact h.spaced.concat hnew
      · cases hs

/-- **ONE ANNOUNCEMENT FOR EACH TOKEN**: in every run of the collector, between two
    announcements for the same token there are announcements for as many different others as
    the cache holds; and in every state, the next call announces the pool it finds, if its
    token is not among so many different tokens that were announced last. -/
theorem tokens_announced_once (crates : Crates) (mode : Mode)
    (pools : Pubkey → Option RaydiumPool) (prices : Pubkey → Option RaydiumPoolPriceUpdate)
    (moves : List FeedMove) (x : Announcer) (out : List BotEvent)
    (h : run (announcer crates mode) ⟨.new pools prices, true⟩ moves = some (x, out)) :
    (∀ before token since after,
      announcedTokens out = before ++ token :: since ++ token :: after → token ∉ since →
        cachedTxSignaturesBufferCapacity ≤ since.dedup.length) ∧
    ∀ now e p u,
      (∃ events, (exec (onFeedEvent crates mode now e) x.cache).1 = .ok events ∧
        newPoolEvent p u ∈ events) ↔
      Finds crates mode now x.cache e p u ∧
        p.baseMint ∉ (announcedTokens out).dedup.reverse.take
          cachedTxSignaturesBufferCapacity := by
  have hinit : Remembers [] (⟨.new pools prices, true⟩ : Announcer) := ⟨rfl, rfl, spaced_nil _⟩
  have hinv : Remembers out x :=
    run_invariant (J := Remembers) (fun past s i s' out hJ hs => hJ.step hs) hinit h
  refine ⟨hinv.spaced, ?_⟩
  intro now e p u
  rw [announced_iff, hinv.last, touches_eq]

/-- A deployment of a token is seen twice, with other work in between, and then one of
    another token. -/
def seenTwice : List FeedMove :=
  [.feed 0 (.transaction (deploymentTx none initialize2Tag ⟨7⟩ wsolMintPubkey)),
    .others (.new (fun _ => none) fun _ => none),
    .feed 1 (.transaction (deploymentTx none initialize2Tag ⟨7⟩ wsolMintPubkey)),
    .feed 2 (.transaction (deploymentTx none initialize2Tag ⟨8⟩ wsolMintPubkey))]

theorem seen_twice_announced_once :
    ∃ x out, run (announcer plainCrates .live) ⟨.new (fun _ => none) fun _ => none, true⟩
        seenTwice = some (x, out) ∧ announcedTokens out = [⟨7⟩, ⟨8⟩] ∧
      ∀ now e p u,
        (∃ events, (exec (onFeedEvent plainCrates .live now e) x.cache).1 = .ok events ∧
          newPoolEvent p u ∈ events) ↔
        Finds plainCrates .live now x.cache e p u ∧
          p.baseMint ∉ (announcedTokens out).dedup.reverse.take
            cachedTxSignaturesBufferCapacity := by
  have hview : (run (announcer plainCrates .live)
      ⟨.new (fun _ => none) fun _ => none, true⟩ seenTwice).map
        (fun p => announcedTokens p.2) = some [⟨7⟩, ⟨8⟩] := by decide +kernel
  obtain ⟨⟨x, out⟩, hrun, hout⟩ := Option.map_eq_some_iff.mp hview
  exact ⟨x, out, hrun, hout,
    (tokens_announced_once plainCrates .live (fun _ => none) (fun _ => none) seenTwice x out
      hrun).2⟩

end FoxfireCollector
