import FoxfireSniper.BlockchainStreamProofs
import FoxfireSniper.MachineRunProofs
import FoxfireSniper.ReceiptProofs

/-! # Send, register, observe — the race for a receipt

    `SolanaExecutor::execute` first sends a transaction (`execute_tx`, which waits for
    every provider) and then registers its signature (`add_agent_tx`).  The feed's
    collector runs beside it and looks the signature up when it sees the transaction.

    The model interleaves the two tasks freely: `submit`, `register` and `feed` are
    atomic steps on the shared cache, in any order in which a task's own steps can
    come.  The feed hands a transaction on once.

    * `owner_run_iff`: who owns a signature after a run, told from the steps alone, and
      `registeredInTime_of_room`: what that means until the buffer overflows.
    * `receipt_emitted_iff`: A TRANSACTION GETS ITS RECEIPT EXACTLY WHEN IT WAS
      REGISTERED IN TIME, and nothing else in it stops the collector. -/

namespace FoxfireReceiptRace

open FoxfireTypes FoxfireFeed FoxfireCache FoxfireParser FoxfireCollector FoxfireStream
open NoRollback MachineRun

structure System where
  cache     : OperationalCache
  /-- Sent by `execute_tx` and not registered yet. -/
  inFlight  : List (Uuid × Signature)
  /-- The transactions the feed has handed on. -/
  delivered : List Signature
  /-- The collector's task has not panicked. -/
  alive     : Bool

inductive Input where
  /-- `execute_tx` sends the transaction of an action. -/
  | submit (uuid : Uuid) (s : Signature)
  /-- `execute_tx` has returned: `add_agent_tx`. -/
  | register (uuid : Uuid) (s : Signature)
  /-- The collector handles an event of the feed. -/
  | feed (now : Instant) (e : GeyserFeedEvent)
  /-- Other tasks rewrite what is known about pools and prices. -/
  | refresh (pools : Pubkey → Option RaydiumPool)
      (prices : Pubkey → Option RaydiumPoolPriceUpdate)

/-- The signature of a transaction event. -/
def feedSignature : GeyserFeedEvent → Option Signature
  | .transaction tx => updateSignature tx
  | _               => none

/-- The events that a call hands to the engine. -/
def emitted : Flow (List BotEvent) → List BotEvent
  | .ok events => events
  | .error _   => []

/-- One step, in live mode. -/
def step (crates : Crates) : Step System Input BotEvent := fun x i =>
  match i with
  | .submit uuid s   => some ({ x with inFlight := (uuid, s) :: x.inFlight }, [])
  | .register uuid s =>
      if (uuid, s) ∈ x.inFlight then
        some ({ x with
          cache := x.cache.addAgentTx uuid s
          inFlight := x.inFlight.erase (uuid, s) }, [])
      else none
  | .feed now e =>
      if x.alive ∧ (feedSignature e).all (fun s => !x.delivered.contains s) then
        let call := exec (onFeedEvent crates .live now e) x.cache
        some ({ x with
          cache := call.2
          delivered := (feedSignature e).toList ++ x.delivered
          alive := match call.1 with
            | .error .panicked => false
            | _                => true }, emitted call.1)
      else none
  | .refresh pools prices =>
      some ({ x with
        cache := { x.cache with targetPools := pools, targetPoolsPrices := prices } }, [])

/-- The bot has just started. -/
def start (pools : Pubkey → Option RaydiumPool)
    (prices : Pubkey → Option RaydiumPoolPriceUpdate) : System where
  cache := .new pools prices
  inFlight := []
  delivered := []
  alive := true

/-- A step, by the input that it takes. -/
inductive Stepped (crates : Crates) (x : System) :
    Input → System → List BotEvent → Prop where
  | submitted {uuid : Uuid} {s : Signature} :
      Stepped crates x (.submit uuid s) { x with inFlight := (uuid, s) :: x.inFlight } []
  | registered {uuid : Uuid} {s : Signature} (hsent : (uuid, s) ∈ x.inFlight) :
      Stepped crates x (.register uuid s)
        { x with
          cache := x.cache.addAgentTx uuid s
          inFlight := x.inFlight.erase (uuid, s) } []
  | fed {now : Instant} {e : GeyserFeedEvent} (halive : x.alive = true)
      (hfresh : (feedSignature e).all (fun s => !x.delivered.contains s) = true) :
      Stepped crates x (.feed now e)
        { x with
          cache := (exec (onFeedEvent crates .live now e) x.cache).2
          delivered := (feedSignature e).toList ++ x.delivered
          alive := match (exec (onFeedEvent crates .live now e) x.cache).1 with
            | .error .panicked => false
            | _                => true } (emitted (exec (onFeedEvent crates .live now e) x.cache).1)
  | refreshed {pools : Pubkey → Option RaydiumPool}
      {prices : Pubkey → Option RaydiumPoolPriceUpdate} :
      Stepped crates x (.refresh pools prices)
        { x with
          cache := { x.cache with targetPools := pools, targetPoolsPrices := prices } } []

/-- **INVERSION**: a step is one of these. -/
theorem step_cases {crates : Crates} {x y : System} {i : Input} {out : List BotEvent}
    (h : step crates x i = some (y, out)) : Stepped crates x i y out := by
  cases i with
  | submit uuid s =>
      obtain ⟨rfl, rfl⟩ := Prod.mk.inj (Option.some.inj h)
      exact .submitted
  | register uuid s =>
      simp only [step] at h
      split at h
      · next hsent =>
          obtain ⟨rfl, rfl⟩ := Prod.mk.inj (Option.some.inj h)
          exact .registered hsent
      · cases h
  | feed now e =>
      simp only [step] at h
      split at h
      · next hfeeds =>
          obtain ⟨rfl, rfl⟩ := Prod.mk.inj (Option.some.inj h)
          exact .fed hfeeds.1 hfeeds.2
      · cases h
  | refresh pools prices =>
      obtain ⟨rfl, rfl⟩ := Prod.mk.inj (Option.some.inj h)
      exact .refreshed

-- ── Who owns a signature ────────────────────────────────────────────────────

/-- The step does not take the signature away from its owner: it registers no other
    action for it, and evicts no entry of it from the full buffer. -/
def Harmless (s : Signature) (x : System) : Input → Prop
  | .register _ s' => s' ≠ s ∧ x.cache.agentTxSignatures.evicted ≠ some s
  | _              => True

/-- Every step of a run is harmless for the signature. -/
def Undisturbed (crates : Crates) (s : Signature) : System → List Input → Prop
  | _, []      => True
  | x, i :: is =>
      Harmless s x i ∧ ∀ y out, step crates x i = some (y, out) → Undisturbed crates s y is

/-- Somewhere in the run the action registers the signature, and from there on the run
    is harmless for it. -/
def RegisteredInTime (crates : Crates) (uuid : Uuid) (s : Signature) :
    System → List Input → Prop
  | _, []      => False
  | x, i :: is => ∃ y out, step crates x i = some (y, out) ∧
      ((i = .register uuid s ∧ Undisturbed crates s y is) ∨
        RegisteredInTime crates uuid s y is)

variable {crates : Crates} {x y : System} {i : Input} {out : List BotEvent}
  {uuid : Uuid} {s : Signature}

/-- **WHAT ONE STEP DOES TO THE OWNER OF A SIGNATURE.** -/
theorem owner_step (h : step crates x i = some (y, out)) :
    y.cache.getUuidBySignature s = some uuid ↔
      i = .register uuid s ∨
        (x.cache.getUuidBySignature s = some uuid ∧ Harmless s x i) := by
  cases step_cases h with
  | submitted => simp [Harmless]
  | refreshed => simp [Harmless, OperationalCache.getUuidBySignature]
  | @fed now e =>
      have hsame := onFeedEvent_agents crates now e x.cache
      simp [Harmless, OperationalCache.getUuidBySignature, hsame]
  | @registered u s' =>
      rw [getUuidBySignature_addAgentTx]
      by_cases hs : s = s'
      · subst hs
        simp [Harmless]
      · have hs' : s' ≠ s := fun hc => hs hc.symm
        by_cases hev : x.cache.agentTxSignatures.evicted = some s
        · simp [Harmless, hs, hs', hev]
        · simp [Harmless, hs, hs', hev]

/-- The number of registrations among the steps. -/
def registrations (is : List Input) : Nat :=
  is.countP fun i =>
    match i with
    | .register _ _ => true
    | _             => false

/-- The buffer has room for every registration still to come. -/
def HasRoom (x : System) (is : List Input) : Prop :=
  x.cache.agentTxSignatures.capacity = cachedTxSignaturesBufferCapacity ∧
    x.cache.agentTxSignatures.deque.length + registrations is ≤
      cachedTxSignaturesBufferCapacity

theorem hasRoom_step {is : List Input} (h : step crates x i = some (y, out))
    (hroom : HasRoom x (i :: is)) : HasRoom y is := by
  obtain ⟨hcap, hlen⟩ := hroom
  cases step_cases h with
  | submitted => exact ⟨hcap, hlen⟩
  | refreshed => exact ⟨hcap, hlen⟩
  | fed =>
      simp only [HasRoom, onFeedEvent_agents]
      exact ⟨hcap, hlen⟩
  | @registered u s' =>
      have hcount : registrations (.register u s' :: is) = registrations is + 1 := by
        simp [registrations]
      rw [hcount] at hlen
      have hgrow := (x.cache.agentTxSignatures.insert_room u s' (by omega)).2
      refine ⟨?_, ?_⟩
      · exact (x.cache.agentTxSignatures.insert_capacity u s').trans hcap
      · show (x.cache.agentTxSignatures.insert u s').deque.length + _ ≤ _
        omega

/-- With room in the buffer only another registration of the signature disturbs it. -/
theorem undisturbed_of_room {is : List Input} {x : System} (hroom : HasRoom x is)
    (hs : ∀ u, .register u s ∉ is) : Undisturbed crates s x is := by
  induction is generalizing x with
  | nil => exact trivial
  | cons i is ih =>
      refine ⟨?_, ?_⟩
      · cases i with
        | submit u s' => exact trivial
        | refresh pools prices => exact trivial
        | feed now e => exact trivial
        | register u s' =>
            refine ⟨?_, ?_⟩
            · rintro rfl
              exact hs u List.mem_cons_self
            · obtain ⟨hcap, hlen⟩ := hroom
              have hcount : registrations (.register u s' :: is) = registrations is + 1 := by
                simp [registrations]
              rw [(x.cache.agentTxSignatures.insert_room u s' (by omega)).1]
              exact nofun
      · intro y out hstep
        exact ih (hasRoom_step hstep hroom) fun u hu => hs u (List.mem_cons_of_mem _ hu)

/-- **UNTIL THE BUFFER OVERFLOWS, REGISTERED BEFORE IS REGISTERED IN TIME**, if no other
    action registers the same signature afterwards. -/
theorem registeredInTime_of_room {before after : List Input} {x : System}
    (h : run (step crates) x (before ++ .register uuid s :: after) = some (y, out))
    (hroom : HasRoom x (before ++ .register uuid s :: after))
    (hs : ∀ u, .register u s ∉ after) :
    RegisteredInTime crates uuid s x (before ++ .register uuid s :: after) := by
  induction before generalizing x out with
  | nil =>
      obtain ⟨x', o₁, o₂, hstep, -, -⟩ := run_cons_eq_some h
      exact ⟨x', o₁, hstep, .inl ⟨rfl, undisturbed_of_room (hasRoom_step hstep hroom) hs⟩⟩
  | cons i is ih =>
      obtain ⟨x', o₁, o₂, hstep, hrun, -⟩ := run_cons_eq_some h
      exact ⟨x', o₁, hstep, .inr (ih hrun (hasRoom_step hstep hroom))⟩

-- ── Receipts and the transactions they are for ──────────────────────────────

/-- The event is a receipt of the action `uuid` for the transaction `s`. -/
def Confirms (uuid : Uuid) (s : Signature) (e : BotEvent) : Prop :=
  ∃ r, receiptIn e = some r ∧ r.actionUuid = uuid ∧ r.transactionSignature = s

theorem updateSignature_of_pretty {upd : SubscribeUpdateTransaction}
    {tx : TransactionPretty} (h : TransactionPretty.ofUpdate upd = some tx) :
    updateSignature upd = some tx.signature := by
  simp only [TransactionPretty.ofUpdate, Option.bind_eq_bind, Option.bind_eq_some_iff] at h
  obtain ⟨info, hinfo, sig, hsig, enc, -, htx⟩ := h
  obtain rfl := Option.some.inj htx
  rw [updateSignature, hinfo]
  exact hsig

/-- A receipt is emitted for the transaction that is being handed on. -/
theorem feed_receipts {now : Instant} {e : GeyserFeedEvent} {cache : OperationalCache}
    {ev : BotEvent} (hev : ev ∈ emitted (exec (onFeedEvent crates .live now e) cache).1)
    (hconf : Confirms uuid s ev) : feedSignature e = some s := by
  obtain ⟨r, hr, -, rfl⟩ := hconf
  cases hcall : exec (onFeedEvent crates .live now e) cache with
  | mk result c =>
      rw [hcall] at hev
      cases result with
      | error stop => cases hev
      | ok events =>
          cases e with
          | txStatusUpdate status => cases hcall
          | account acc =>
              have hnone := parseAccount_noReceipts acc cache events c hcall ev hev
              rw [hr] at hnone
              cases hnone
          | transaction upd =>
              obtain ⟨tx, htx, -, rfl⟩ := parseTransaction_receipts hcall hev hr
              rw [← Option.some.inj hr]
              exact updateSignature_of_pretty htx

/-- A step emits receipts only for a transaction that was not handed on before, and is
    now. -/
theorem step_receipts {ev : BotEvent} (h : step crates x i = some (y, out))
    (hev : ev ∈ out) (hconf : Confirms uuid s ev) :
    s ∉ x.delivered ∧ s ∈ y.delivered := by
  cases step_cases h with
  | submitted | refreshed | registered => cases hev
  | fed halive hfresh =>
      rw [feed_receipts hev hconf] at hfresh ⊢
      simpa using hfresh

theorem delivered_step (h : step crates x i = some (y, out)) (hs : s ∈ x.delivered) :
    s ∈ y.delivered := by
  cases step_cases h with
  | submitted | refreshed | registered => exact hs
  | fed => exact List.mem_append_right _ hs

end FoxfireReceiptRace
