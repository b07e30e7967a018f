import FoxfireSniper.CacheProofs
import FoxfireSniper.LookupBufferProofs
import FoxfireSniper.MachineRunProofs

/-! # Polling for confirmations — is what the feed missed asked about?

    `src/collectors/poll_tx_confirmation_collector.rs`: on every tick the collector takes
    the unprocessed signatures from the cache and asks a node about each.  A transaction
    that the node knows is marked as processed, and its receipt sent, unless it has been
    marked already.

    Other tasks register and mark signatures in between.  Each access to the cache takes its
    lock for itself, so the steps of all tasks interleave freely.

    `get_all_unprocessed_tx_signatures` keeps the signatures that ARE processed.

    * `mem_unprocessed_iff`: what it returns, as long as no buffer has overflowed.
    * `no_receipts`: THE COLLECTOR NEVER SENDS A RECEIPT, as it asks about nothing else.
    * **`polls_iff`**: it returns what it should only until a transaction is registered. -/

namespace FoxfirePoll

open FoxfireTypes FoxfireBuffer FoxfireCache MachineRun

def getAllUnprocessedTxSignatures (c : OperationalCache) : List Signature :=
  c.agentTxSignatures.getAllValues.filter c.processedSignatures.containsValue

-- ── The collector beside the other tasks ────────────────────────────────────

/-- What the collector does next about a signature that the node knows. -/
inductive Pending where
  /-- Ask `is_signature_processed`. -/
  | check (uuid : Uuid) (s : Signature) (err : Option TransactionError)
  /-- `mark_signature_as_processed`, and send the receipt. -/
  | confirm (uuid : Uuid) (s : Signature) (err : Option TransactionError)

structure System where
  cache   : OperationalCache
  /-- `signatures_to_poll`, from the next one on. -/
  toPoll  : List Signature
  pending : Option Pending
  /-- The collector's task has not panicked. -/
  alive   : Bool

/-- What `get_signature_status` returns: `none` is a transaction that the node does not
    know. -/
inductive Status where
  | err
  | ok (status : Option (Option TransactionError))

inductive Input where
  /-- Another task calls `add_agent_tx`. -/
  | addAgentTx (uuid : Uuid) (s : Signature)
  /-- Another task calls `mark_signature_as_processed`. -/
  | markSignatureAsProcessed (uuid : Uuid) (s : Signature)
  /-- The interval elapses. -/
  | tick
  /-- The node answers about the next signature. -/
  | answer (status : Status)
  /-- The collector does what is pending. -/
  | proceed (now : Instant)

/-- The calls that change a buffer, and the receipts sent by the collector, each with its
    own call of `mark_signature_as_processed`. -/
inductive Call where
  | registered (uuid : Uuid) (s : Signature)
  | processed (uuid : Uuid) (s : Signature)
  | receipt (r : ExecutionReceipt)

def step : Step System Input Call := fun x i =>
  match i with
  | .addAgentTx uuid s => some ({ x with cache := x.cache.addAgentTx uuid s },
      [.registered uuid s])
  | .markSignatureAsProcessed uuid s =>
      some ({ x with cache := x.cache.markSignatureAsProcessed uuid s }, [.processed uuid s])
  | .tick =>
      if x.alive ∧ x.toPoll = [] ∧ x.pending.isNone then
        some ({ x with toPoll := getAllUnprocessedTxSignatures x.cache }, [])
      else none
  | .answer status =>
      if x.alive ∧ x.pending.isNone then
        match x.toPoll with
        | []        => none
        | s :: rest =>
            match status with
            | .ok (some err) =>
                match x.cache.getUuidBySignature s with
                | some uuid => some ({ x with toPoll := rest, pending := some (.check uuid s err) }, [])
                -- `unwrap`
                | none      => some ({ x with alive := false }, [])
            | _ => some ({ x with toPoll := rest }, [])
      else none
  | .proceed now =>
      match x.pending with
      | none => none
      | some (.check uuid s err) =>
          if x.cache.isSignatureProcessed s then some ({ x with pending := none }, [])
          else some ({ x with pending := some (.confirm uuid s err) }, [])
      | some (.confirm uuid s err) =>
          some ({ x with cache := x.cache.markSignatureAsProcessed uuid s, pending := none },
            [.receipt { actionUuid := uuid, transactionSignature := s, err := err,
                        statusChangedAt := now }])

/-- A step of the collector, and what it finds. -/
inductive Stepped (x : System) : Input → System → List Call → Prop where
  | added {uuid : Uuid} {s : Signature} :
      Stepped x (.addAgentTx uuid s) { x with cache := x.cache.addAgentTx uuid s }
        [.registered uuid s]
  | marked {uuid : Uuid} {s : Signature} :
      Stepped x (.markSignatureAsProcessed uuid s)
        { x with cache := x.cache.markSignatureAsProcessed uuid s } [.processed uuid s]
  | ticked : Stepped x .tick { x with toPoll := getAllUnprocessedTxSignatures x.cache } []
  /-- The node does not know the signature, or does not answer. -/
  | skipped {status : Status} {s : Signature} {rest : List Signature}
      (htoPoll : x.toPoll = s :: rest) : Stepped x (.answer status) { x with toPoll := rest } []
  | found {err : Option TransactionError} {uuid : Uuid} {s : Signature} {rest : List Signature}
      (htoPoll : x.toPoll = s :: rest) (huuid : x.cache.getUuidBySignature s = some uuid) :
      Stepped x (.answer (.ok (some err)))
        { x with toPoll := rest, pending := some (.check uuid s err) } []
  | panicked {status : Status} : Stepped x (.answer status) { x with alive := false } []
  | known {now : Instant} {uuid : Uuid} {s : Signature} {err : Option TransactionError}
      (hpending : x.pending = some (.check uuid s err))
      (hdone : x.cache.isSignatureProcessed s = true) :
      Stepped x (.proceed now) { x with pending := none } []
  | unknown {now : Instant} {uuid : Uuid} {s : Signature} {err : Option TransactionError}
      (hpending : x.pending = some (.check uuid s err))
      (hnew : ¬ x.cache.isSignatureProcessed s = true) :
      Stepped x (.proceed now) { x with pending := some (.confirm uuid s err) } []
  | confirmed {now : Instant} {uuid : Uuid} {s : Signature} {err : Option TransactionError}
      (hpending : x.pending = some (.confirm uuid s err)) :
      Stepped x (.proceed now)
        { x with cache := x.cache.markSignatureAsProcessed uuid s, pending := none }
        [.receipt { actionUuid := uuid, transactionSignature := s, err := err,
                    statusChangedAt := now }]

/-- **INVERSION**: a step is one of these. -/
theorem step_cases {x y : System} {i : Input} {out : List Call}
    (h : step x i = some (y, out)) : Stepped x i y out := by
  cases i with
  | addAgentTx uuid s =>
      obtain ⟨rfl, rfl⟩ := Prod.mk.inj (Option.some.inj h)
      exact .added
  | markSignatureAsProcessed uuid s =>
      obtain ⟨rfl, rfl⟩ := Prod.mk.inj (Option.some.inj h)
      exact .marked
  | tick =>
      simp only [step] at h
      split at h
      · obtain ⟨rfl, rfl⟩ := Prod.mk.inj (Option.some.inj h)
        exact .ticked
      · cases h
  | answer status =>
      simp only [step] at h
      split at h
      · split at h
        · cases h
        · next htoPoll =>
            split at h
            · split at h
              · next huuid =>
                  obtain ⟨rfl, rfl⟩ := Prod.mk.inj (Option.some.inj h)
                  exact .found htoPoll huuid
              · obtain ⟨rfl, rfl⟩ := Prod.mk.inj (Option.some.inj h)
                exact .panicked
            · obtain ⟨rfl, rfl⟩ := Prod.mk.inj (Option.some.inj h)
              exact .skipped htoPoll
      · cases h
  | proceed now =>
      simp only [step] at h
      split at h
      · cases h
      · next hpending =>
          split at h
          · next hdone =>
              obtain ⟨rfl, rfl⟩ := Prod.mk.inj (Option.some.inj h)
              exact .known hpending hdone
          · next hnew =>
              obtain ⟨rfl, rfl⟩ := Prod.mk.inj (Option.some.inj h)
              exact .unknown hpending hnew
      · next hpending =>
          obtain ⟨rfl, rfl⟩ := Prod.mk.inj (Option.some.inj h)
          exact .confirmed hpending

def start (pools : Pubkey → Option RaydiumPool)
    (prices : Pubkey → Option RaydiumPoolPriceUpdate) : System where
  cache := .new pools prices
  toPoll := []
  pending := none
  alive := true

-- ── What should be polled ───────────────────────────────────────────────────

/-- The entries inserted into `agent_tx_signatures`. -/
def Call.registration : Call → Option (Uuid × Signature)
  | .registered uuid s => some (uuid, s)
  | _                  => none

/-- The entries inserted into `processed_signatures`. -/
def Call.mark : Call → Option (Uuid × Signature)
  | .registered _ _   => none
  | .processed uuid s => some (uuid, s)
  | .receipt r        => some (r.actionUuid, r.transactionSignature)

def registered (calls : List Call) : List (Uuid × Signature) := calls.filterMap Call.registration

def marked (calls : List Call) : List (Uuid × Signature) := calls.filterMap Call.mark

/-- There was room for every entry. -/
def NoOverflow (calls : List Call) : Prop :=
  (registered calls).length ≤ cachedTxSignaturesBufferCapacity ∧
    (marked calls).length ≤ cachedTxSignaturesBufferCapacity

/-- The unprocessed signatures are those registered and not marked. -/
def ListsUnprocessed (calls : List Call) (c : OperationalCache) : Prop :=
  ∀ s, s ∈ getAllUnprocessedTxSignatures c ↔
    s ∈ (registered calls).map Prod.snd ∧ s ∉ (marked calls).map Prod.snd

/-- No receipt is for a signature that had been marked before. -/
def ConfirmsOnce (calls : List Call) : Prop :=
  ∀ before r after, calls = before ++ .receipt r :: after →
    r.transactionSignature ∉ (marked before).map Prod.snd

/-- After every prefix of the inputs. -/
def PollsUnprocessed (x : System) (is : List Input) : Prop :=
  ∀ past y calls, past <+: is → run step x past = some (y, calls) →
    ListsUnprocessed calls y.cache ∧ ConfirmsOnce calls

-- ── A buffer that has never been full ───────────────────────────────────────

/-- The buffer holds these entries, each as it was inserted. -/
structure Filled {K V : Type} (b : CircularBufferWithLookupByValue K V) (es : List (K × V)) :
    Prop where
  deque    : b.deque.length = es.length
  values   : b.getAllValues = es.map Prod.snd
  contains : ∀ v, b.containsValue v = true ↔ v ∈ es.map Prod.snd

theorem filled_new {K V : Type} [DecidableEq K] [DecidableEq V] (capacity : Nat) :
    Filled (.new capacity : CircularBufferWithLookupByValue K V) [] where
  deque := rfl
  values := rfl
  contains := by
    intro v
    simp [CircularBufferWithLookupByValue.new, CircularBufferWithLookupByValue.containsValue]

/-- An insertion with room adds its entry, whatever key and value are there already. -/
theorem Filled.insert {K V : Type} [DecidableEq K] [DecidableEq V]
    {b : CircularBufferWithLookupByValue K V} {es : List (K × V)} (h : Filled b es)
    (hroom : es.length < b.capacity) (key : K) (value : V) :
    Filled (b.insert key value) (es ++ [(key, value)]) := by
  have hlt : b.deque.length < b.capacity := by
    rw [h.deque]
    exact hroom
  obtain ⟨hevicted, hgrows⟩ := b.insert_room key value hlt
  refine ⟨?_, ?_, ?_⟩
  · rw [hgrows, h.deque, List.length_append]
    rfl
  · have hmake : b.makeRoom = b := if_neg (Nat.ne_of_lt hlt)
    show b.makeRoom.reverseDeque ++ [value] = _
    rw [hmake, show b.reverseDeque = _ from h.values, List.map_append]
    rfl
  · intro v
    show ((b.insert key value).getByValue v).isSome = true ↔ _
    rw [b.getByValue_insert, hevicted, List.map_append, List.mem_append, ← h.contains v]
    by_cases hv : v = value
    · simp [hv]
    · simp [hv, CircularBufferWithLookupByValue.containsValue,
        CircularBufferWithLookupByValue.getByValue]

/-- **WHAT COUNTS AS UNPROCESSED**: the signatures that were registered and HAVE BEEN
    marked. -/
theorem mem_unprocessed_iff {c : OperationalCache} {calls : List Call}
    (hagents : Filled c.agentTxSignatures (registered calls))
    (hprocessed : Filled c.processedSignatures (marked calls)) (s : Signature) :
    s ∈ getAllUnprocessedTxSignatures c ↔
      s ∈ (registered calls).map Prod.snd ∧ s ∈ (marked calls).map Prod.snd := by
  rw [getAllUnprocessedTxSignatures, List.mem_filter, hagents.values, hprocessed.contains]

-- ── Runs ────────────────────────────────────────────────────────────────────

variable {x y : System} {i : Input} {is : List Input} {calls out : List Call}
  {pools : Pubkey → Option RaydiumPool} {prices : Pubkey → Option RaydiumPoolPriceUpdate}

/-- The buffers hold what was inserted, and the collector has only ever taken up signatures
    that were marked before. -/
structure Inv (calls : List Call) (x : System) : Prop where
  agents       : Filled x.cache.agentTxSignatures (registered calls)
  agentsCap    : x.cache.agentTxSignatures.capacity = cachedTxSignaturesBufferCapacity
  processed    : Filled x.cache.processedSignatures (marked calls)
  processedCap : x.cache.processedSignatures.capacity = cachedTxSignaturesBufferCapacity
  polled       : ∀ s ∈ x.toPoll, s ∈ (marked calls).map Prod.snd
  pending      : ∀ p, x.pending = some p →
    ∃ uuid s err, p = .check uuid s err ∧ s ∈ (marked calls).map Prod.snd
  silent       : ∀ r, Call.receipt r ∉ calls

theorem inv_start : Inv [] (start pools prices) where
  agents := filled_new _
  agentsCap := rfl
  processed := filled_new _
  processedCap := rfl
  polled := nofun
  pending := nofun
  silent := nofun

theorem registered_append (calls out : List Call) :
    registered (calls ++ out) = registered calls ++ registered out := List.filterMap_append

theorem marked_append (calls out : List Call) :
    marked (calls ++ out) = marked calls ++ marked out := List.filterMap_append

/-- What is marked stays marked. -/
theorem marked_stays {s : Signature} (h : s ∈ (marked calls).map Prod.snd) (out : List Call) :
    s ∈ (marked (calls ++ out)).map Prod.snd := by
  rw [marked_append, List.map_append]
  exact List.mem_append_left _ h

theorem silent_append (h : ∀ r, Call.receipt r ∉ calls) (hout : ∀ r, Call.receipt r ∉ out)
    (r : ExecutionReceipt) : Call.receipt r ∉ calls ++ out := by
  rw [List.mem_append]
  exact not_or.mpr ⟨h r, hout r⟩

theorem NoOverflow.of_append (h : NoOverflow (calls ++ out)) : NoOverflow calls := by
  obtain ⟨hregistered, hmarked⟩ := h
  rw [registered_append, List.length_append] at hregistered
  rw [marked_append, List.length_append] at hmarked
  exact ⟨Nat.le_of_add_right_le hregistered, Nat.le_of_add_right_le hmarked⟩

/-- **A STEP OF ANY TASK**: what is marked stays marked, so a check that is due fails. -/
theorem Inv.step (h : Inv calls x) (hroom : NoOverflow (calls ++ out))
    (hstep : step x i = some (y, out)) : Inv (calls ++ out) y := by
  obtain ⟨hregistered, hmarked⟩ := hroom
  cases step_cases hstep with
  | @added uuid s =>
      have hmark : marked (calls ++ [.registered uuid s]) = marked calls := by
        rw [marked_append]
        exact List.append_nil _
      rw [registered_append, List.length_append] at hregistered
      refine ⟨?_, ?_, ?_, h.processedCap, ?_, ?_, silent_append h.silent (by simp)⟩
      · rw [registered_append]
        refine h.agents.insert ?_ uuid s
        rw [h.agentsCap]
        exact hregistered
      · exact (CircularBufferWithLookupByValue.insert_capacity _ uuid s).trans h.agentsCap
      · rw [hmark]
        exact h.processed
      · rw [hmark]
        exact h.polled
      · rw [hmark]
        exact h.pending
  | @marked uuid s =>
      have hreg : registered (calls ++ [.processed uuid s]) = registered calls := by
        rw [registered_append]
        exact List.append_nil _
      rw [marked_append, List.length_append] at hmarked
      refine ⟨?_, h.agentsCap, ?_, ?_, fun v hv => marked_stays (h.polled v hv) _, ?_,
        silent_append h.silent (by simp)⟩
      · rw [hreg]
        exact h.agents
      · rw [marked_append]
        refine h.processed.insert ?_ uuid s
        rw [h.processedCap]
        exact hmarked
      · exact (CircularBufferWithLookupByValue.insert_capacity _ uuid s).trans h.processedCap
      · intro p hp
        obtain ⟨u, v, err, hcheck, hv⟩ := h.pending p hp
        exact ⟨u, v, err, hcheck, marked_stays hv _⟩
  | ticked =>
      rw [List.append_nil]
      refine { h with polled := ?_ }
      intro s hs
      exact ((mem_unprocessed_iff h.agents h.processed s).mp hs).2
  | @skipped status s rest htoPoll =>
      rw [List.append_nil]
      refine { h with polled := ?_ }
      intro v hv
      refine h.polled v ?_
      rw [htoPoll]
      exact List.mem_cons_of_mem s hv
  | @found err uuid s rest htoPoll =>
      rw [List.append_nil]
      have hpolled := h.polled
      rw [htoPoll] at hpolled
      refine { h with
        polled := fun v hv => hpolled v (List.mem_cons_of_mem s hv), pending := ?_ }
      intro p hp
      exact ⟨uuid, s, err, (Option.some.inj hp).symm, hpolled s List.mem_cons_self⟩
  | panicked =>
      rw [List.append_nil]
      exact { h with }
  | known =>
      rw [List.append_nil]
      exact { h with pending := nofun }
  | unknown hpending hnew =>
      obtain ⟨uuid, s, err, heq, hs⟩ := h.pending _ hpending
      obtain ⟨-, rfl, -⟩ := Pending.check.inj heq
      exact absurd ((h.processed.contains _).mpr hs) hnew
  | confirmed hpending =>
      obtain ⟨uuid, s, err, heq, -⟩ := h.pending _ hpending
      cases heq

theorem inv_run (h : run step (start pools prices) is = some (y, calls))
    (hroom : NoOverflow calls) : Inv calls y := by
  have hrun : NoOverflow ([] ++ calls) → Inv ([] ++ calls) y := by
    refine run_invariant (J := fun calls x => NoOverflow calls → Inv calls x) ?_
      (fun _ => inv_start) h
    intro past s i s' out hJ hs hroom
    exact (hJ hroom.of_append).step hroom hs
  exact hrun hroom

/-- **THE COLLECTOR SENDS NO RECEIPT** as long as no buffer has overflowed. -/
theorem no_receipts (h : run step (start pools prices) is = some (y, calls))
    (hroom : NoOverflow calls) (r : ExecutionReceipt) : .receipt r ∉ calls :=
  (inv_run h hroom).silent r

/-- Only `add_agent_tx` registers. -/
theorem registered_step (hstep : step x i = some (y, out)) :
    registered out = [] ↔ ∀ uuid s, i ≠ .addAgentTx uuid s := by
  cases step_cases hstep with
  | @added uuid s => exact iff_of_false (List.cons_ne_nil _ _) fun hother => hother uuid s rfl
  | marked | ticked | skipped | found | panicked | known | unknown | confirmed =>
      exact iff_of_true rfl nofun

theorem registered_run (h : run step x is = some (y, calls)) :
    registered calls = [] ↔ ∀ uuid s, .addAgentTx uuid s ∉ is := by
  induction is generalizing x calls with
  | nil =>
      obtain ⟨-, rfl⟩ := Prod.mk.inj (Option.some.inj h)
      exact iff_of_true rfl fun _ _ => List.not_mem_nil
  | cons i is ih =>
      obtain ⟨x', o₁, o₂, hstep, hrun, rfl⟩ := run_cons_eq_some h
      rw [registered_append, List.append_eq_nil_iff, registered_step hstep, ih hrun]
      constructor
      · rintro ⟨hi, his⟩ uuid s hmem
        rcases List.mem_cons.mp hmem with heq | hmem
        · exact hi uuid s heq.symm
        · exact his uuid s hmem
      · intro hnone
        refine ⟨fun uuid s heq => hnone uuid s ?_, fun uuid s hmem =>
          hnone uuid s (List.mem_cons_of_mem i hmem)⟩
        rw [heq]
        exact List.mem_cons_self

/-- **WHAT THE FEED MISSED IS POLLED ONLY IF THERE IS NOTHING TO MISS**: in a run in which no
    buffer overflows, the unprocessed signatures are those that were registered and not
    marked, after every prefix of it, exactly if no transaction is registered at all. -/
theorem polls_iff (h : run step (start pools prices) is = some (y, calls))
    (hroom : NoOverflow calls) :
    PollsUnprocessed (start pools prices) is ↔ ∀ uuid s, .addAgentTx uuid s ∉ is := by
  rw [← registered_run h]
  constructor
  · intro hpolls
    have hinv := inv_run h hroom
    refine List.eq_nil_iff_forall_not_mem.mpr ?_
    rintro ⟨uuid, s⟩ hmem
    have hs : s ∈ (registered calls).map Prod.snd := List.mem_map.mpr ⟨_, hmem, rfl⟩
    have hlists := (hpolls is y calls (List.prefix_refl is) h).1 s
    rw [mem_unprocessed_iff hinv.agents hinv.processed] at hlists
    -- marked or not, the signature is on one list only
    by_cases hmarked : s ∈ (marked calls).map Prod.snd
    · exact (hlists.mp ⟨hs, hmarked⟩).2 hmarked
    · exact hmarked (hlists.mpr ⟨hs, hmarked⟩).2
  · rintro hnone past x calls' ⟨later, rfl⟩ hrun
    obtain ⟨x', o₁, o₂, hpast, -, rfl⟩ := run_append_eq_some h
    obtain ⟨rfl, rfl⟩ := Prod.mk.inj (Option.some.inj (hpast.symm.trans hrun))
    have hinv := inv_run hpast hroom.of_append
    rw [registered_append, List.append_eq_nil_iff] at hnone
    refine ⟨?_, ?_⟩
    · intro s
      rw [mem_unprocessed_iff hinv.agents hinv.processed, hnone.1]
      exact iff_of_false (fun hs => List.not_mem_nil hs.1) fun hs => List.not_mem_nil hs.1
    · rintro before r after rfl
      exact absurd (List.mem_append_right _ List.mem_cons_self) (hinv.silent r)

def aSignature : Signature := ⟨List.replicate 64 7, by decide⟩

/-- Other tasks mark a signature, and the collector finds nothing to poll. -/
theorem idle_collector_polls :
    PollsUnprocessed (start (fun _ => none) (fun _ => none))
      [.markSignatureAsProcessed ⟨1⟩ aSignature, .tick] := by
  refine (polls_iff rfl ?_).mpr ?_
  · exact ⟨by decide, by decide⟩
  · intro uuid s hmem
    simp at hmem

/-- **A REGISTERED TRANSACTION IS NOT POLLED.** -/
theorem registered_is_not_polled :
    ¬ ∀ (is : List Input) (y : System) (calls : List Call),
      run step (start (fun _ => none) (fun _ => none)) is = some (y, calls) →
      NoOverflow calls → PollsUnprocessed (start (fun _ => none) (fun _ => none)) is := by
  intro hclaim
  have hpolls := hclaim [.addAgentTx ⟨1⟩ aSignature] _ _ rfl ⟨by decide, by decide⟩
  have hlists := (hpolls _ _ _ (List.prefix_refl _) rfl).1 aSignature
  exact absurd (hlists.mpr (by decide)) (by decide)

end FoxfirePoll
