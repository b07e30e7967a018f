import FoxfireSniper.BorshProofs
import FoxfireSniper.CollectorProofs
import FoxfireSniper.HexProofs
import FoxfireSniper.LookupBufferProofs

/-! # Paper trading — the signature cache as a queue

    `PaperExecutor::execute` registers an action under a made-up signature, sleeps, and
    reports it sent.  The collector in paper trading takes the oldest entry for every
    transaction it sees, whichever it is, and returns a receipt without an error.  The two
    share `agent_tx_signatures`, a buffer that is made for lookups in both directions and
    gives up its oldest entry when it is full.

    * `paperSignature_injective`: different actions have different made-up signatures.
    * `parse_paper`: the branch of `parse_cached_executions` that is run here.
    * **`receipts_in_order`**: while there is room, every execution gets one receipt, in the
      order of execution, and there is none exactly when nothing is outstanding. -/

namespace FoxfirePaper

open FoxfireTypes FoxfireBuffer FoxfireCache FoxfireCollector NoRollback MachineRun FifoWindow
open CircularBufferWithLookupByValue (Lists lists_new)

-- ── Made-up signatures ──────────────────────────────────────────────────────

/-- The bytes of a uuid, the most significant one first. -/
def uuidBytes (uuid : Uuid) : List UInt8 := (Borsh.leBytes 16 uuid.bits.toNat).reverse

/-- A hyphen after each of these groups. -/
def hyphenate : List Nat → List Char → List Char
  | [], d      => d
  | n :: ns, d => d.take n ++ '-' :: hyphenate ns (d.drop n)

/-- `Display` of a uuid: the digits in groups of 8, 4, 4, 4 and 12. -/
def uuidText (uuid : Uuid) : List Char := hyphenate [8, 4, 4, 4] (Hex.encode (uuidBytes uuid))

/-- `format!("<Paper trading> signature {}", uuid)` -/
def paperSignature (uuid : Uuid) : List Char :=
  "<Paper trading> signature ".toList ++ uuidText uuid

theorem uuidBytes_injective : Function.Injective uuidBytes := by
  intro u v h
  have hnat := congrArg Borsh.ofLeBytes (List.reverse_injective h)
  rw [Borsh.ofLeBytes_leBytes, Borsh.ofLeBytes_leBytes,
    Nat.mod_eq_of_lt (show u.bits.toNat < 256 ^ 16 from u.bits.isLt),
    Nat.mod_eq_of_lt (show v.bits.toNat < 256 ^ 16 from v.bits.isLt)] at hnat
  cases u
  cases v
  exact congrArg Uuid.mk (BitVec.eq_of_toNat_eq hnat)

/-- The hyphens can be taken out again. -/
theorem filter_hyphenate (ns : List Nat) :
    ∀ {d : List Char}, (∀ c ∈ d, c ≠ '-') → (hyphenate ns d).filter (· ≠ '-') = d := by
  induction ns with
  | nil =>
      intro d hd
      rw [hyphenate, List.filter_eq_self]
      exact fun c hc => decide_eq_true (hd c hc)
  | cons n ns ih =>
      intro d hd
      have htake : (d.take n).filter (· ≠ '-') = d.take n := by
        rw [List.filter_eq_self]
        exact fun c hc => decide_eq_true (hd c (List.mem_of_mem_take hc))
      rw [hyphenate, List.filter_append, htake, List.filter_cons_of_neg (by decide),
        ih fun c hc => hd c (List.mem_of_mem_drop hc), List.take_append_drop]

/-- **DIFFERENT ACTIONS HAVE DIFFERENT MADE-UP SIGNATURES.** -/
theorem paperSignature_injective : Function.Injective paperSignature := by
  intro u v h
  have hdigit : ∀ uuid, ∀ c ∈ Hex.encode (uuidBytes uuid), c ≠ '-' := by
    rintro uuid c hc rfl
    exact absurd (Hex.mem_hexDigits_of_mem_encode hc) (by decide)
  have htext : uuidText u = uuidText v := List.append_cancel_left h
  have hfilter := congrArg (List.filter (· ≠ '-')) htext
  rw [uuidText, uuidText, filter_hyphenate _ (hdigit u), filter_hyphenate _ (hdigit v)] at hfilter
  exact uuidBytes_injective (Hex.encode_injective hfilter)

-- ── The executor and the collector ──────────────────────────────────────────

/-- `agent_tx_signatures`, by the text of the signature. -/
abbrev Signatures := CircularBufferWithLookupByValue Uuid (List Char)

/-- The branch of `parse_cached_executions` for `Mode::PaperTrading`. -/
def parseCachedExecutions (signatures : Signatures) (now : Instant) :
    Option ExecutionReceipt × Signatures :=
  match signatures.popFront with
  | (some (swapUuid, _), rest) =>
      (some {
        actionUuid := swapUuid
        transactionSignature := default
        err := none
        statusChangedAt := now }, rest)
  | (none, rest) => (none, rest)

/-- The same as the collector does with the operational cache, which pops the same uuid. -/
theorem parse_paper (now : Instant) (tx : FoxfireFeed.TransactionPretty)
    (cache : OperationalCache) (signatures : Signatures)
    (h : cache.agentTxSignatures.popFront.1.map Prod.fst =
      signatures.popFront.1.map Prod.fst) :
    (exec (FoxfireCollector.parseCachedExecutions .paperTrading now tx) cache).1 =
      .ok ((parseCachedExecutions signatures now).1.toList.map fun receipt =>
        .blockchainEvent (.executionReceipt receipt)) := by
  have hcache : cache.popFront.1 = cache.agentTxSignatures.popFront.1 := rfl
  rw [← hcache] at h
  rw [FoxfireCollector.parseCachedExecutions, exec_get_bind, parseCachedExecutions]
  generalize signatures.popFront = popped at h
  generalize cache.popFront = popped' at h
  obtain ⟨pop, rest⟩ := popped
  obtain ⟨pop', rest'⟩ := popped'
  cases pop' with
  | none =>
      obtain rfl : pop = none := Option.map_eq_none_iff.mp h.symm
      rfl
  | some entry =>
      obtain ⟨entry', rfl, huuid⟩ := Option.map_eq_some_iff.mp h.symm
      obtain ⟨uuid, text⟩ := entry'
      obtain rfl : uuid = entry.1 := huuid
      rfl

/-- The cache, and the executors that sleep. -/
structure PaperBot where
  agentTxSignatures : Signatures
  sleeping          : List SolanaAction

inductive Move where
  /-- `PaperExecutor::execute` comes to its `sleep`. -/
  | execute (action : SolanaAction)
  /-- An executor wakes up. -/
  | wake (executor : Nat)
  /-- The collector sees a transaction. -/
  | parseCachedExecutions (now : Instant)

inductive Reply where
  | executed (event : BotEvent)
  | parsed (receipt : Option ExecutionReceipt)

def paper : Step PaperBot Move Reply
  | s, .execute action            =>
      some (⟨s.agentTxSignatures.insert action.uuid (paperSignature action.uuid),
        s.sleeping ++ [action]⟩, [])
  | s, .wake executor             =>
      s.sleeping[executor]?.map fun action =>
        (⟨s.agentTxSignatures, s.sleeping.eraseIdx executor⟩,
          [.executed (.executionResult action.uuid action .sent)])
  | s, .parseCachedExecutions now =>
      let (receipt, signatures) := parseCachedExecutions s.agentTxSignatures now
      some (⟨signatures, s.sleeping⟩, [.parsed receipt])

def PaperBot.new : PaperBot := ⟨.new cachedTxSignaturesBufferCapacity, []⟩

-- ── What was executed, and what was received ────────────────────────────────

/-- The executions and the receipts so far: a history variable. -/
structure History where
  executed : List Uuid
  receipts : List ExecutionReceipt

def Reply.receipt : Reply → Option ExecutionReceipt
  | .parsed receipt => receipt
  | .executed _     => none

def Move.executes : Move → List Uuid
  | .execute action => [action.uuid]
  | _               => []

def note (h : History) (_ : PaperBot) (m : Move) (_ : PaperBot) (out : List Reply) : History where
  executed := h.executed ++ m.executes
  receipts := h.receipts ++ out.filterMap Reply.receipt

/-- How many executions have no receipt. -/
def History.outstanding (h : History) : Nat := h.executed.length - h.receipts.length

/-- The actions have different uuids, and there is room for their signatures. -/
def Allowed (t : PaperBot × History) : Move → Prop
  | .execute action => action.uuid ∉ t.2.executed ∧
      t.2.outstanding < cachedTxSignaturesBufferCapacity
  | _               => True

instance (t : PaperBot × History) (m : Move) : Decidable (Allowed t m) :=
  match m with
  | .execute _               => inferInstanceAs (Decidable (_ ∧ _))
  | .wake _                  => isTrue trivial
  | .parseCachedExecutions _ => isTrue trivial

/-- The entries of these executions. -/
def entriesOf (waiting : List Uuid) : List (Uuid × List Char) :=
  waiting.map fun uuid => (uuid, paperSignature uuid)

/-- The buffer is the queue of what is outstanding. -/
structure Inv (t : PaperBot × History) (waiting : List Uuid) : Prop where
  split     : t.2.executed = t.2.receipts.map (·.actionUuid) ++ waiting
  once      : t.2.executed.Nodup
  errorFree : ∀ r ∈ t.2.receipts, r.err = none
  lists     : t.1.agentTxSignatures.Lists (entriesOf waiting)
  room      : waiting.length ≤ t.1.agentTxSignatures.capacity
  capacity  : t.1.agentTxSignatures.capacity = cachedTxSignaturesBufferCapacity

variable {t t' : PaperBot × History} {waiting : List Uuid}

theorem begin_inv : Inv (PaperBot.new, ⟨[], []⟩) [] where
  split := rfl
  once := List.nodup_nil
  errorFree := fun _ h => absurd h List.not_mem_nil
  lists := lists_new _
  room := Nat.zero_le _
  capacity := rfl

theorem Inv.outstanding_eq (h : Inv t waiting) : t.2.outstanding = waiting.length := by
  rw [History.outstanding, h.split, List.length_append, List.length_map]
  omega

/-- **A CALL RETURNS THE OLDEST EXECUTION** that is outstanding. -/
theorem Inv.parse (h : Inv t waiting) (now : Instant) :
    parseCachedExecutions t.1.agentTxSignatures now =
      (waiting.head?.map fun uuid => ⟨uuid, default, none, now⟩,
        t.1.agentTxSignatures.popFront.2) := by
  have hpop := h.lists.popped
  rw [parseCachedExecutions]
  cases hb : t.1.agentTxSignatures.popFront with
  | mk pop rest =>
      rw [hb] at hpop
      cases waiting with
      | nil =>
          obtain rfl : pop = none := hpop
          rfl
      | cons uuid waiting =>
          obtain rfl : pop = some (uuid, paperSignature uuid) := hpop
          rfl

/-- A new execution goes to the end of the queue. -/
theorem Inv.execute (h : Inv t waiting) {action : SolanaAction}
    (hnew : action.uuid ∉ t.2.executed)
    (hroom : t.2.outstanding < cachedTxSignaturesBufferCapacity) :
    Inv (⟨t.1.agentTxSignatures.insert action.uuid (paperSignature action.uuid),
        t.1.sleeping ++ [action]⟩,
      ⟨t.2.executed ++ [action.uuid], t.2.receipts⟩) (waiting ++ [action.uuid]) := by
  have hlength : (entriesOf waiting).length = waiting.length := List.length_map ..
  rw [h.outstanding_eq, ← h.capacity] at hroom
  -- nothing is evicted, and no entry has the key or the value of the new one
  have hevict : evict t.1.agentTxSignatures.capacity (entriesOf waiting) = entriesOf waiting :=
    if_neg (by omega)
  have hfresh : ∀ e ∈ evict t.1.agentTxSignatures.capacity (entriesOf waiting),
      e.1 ≠ action.uuid ∧ e.2 ≠ paperSignature action.uuid := by
    rw [hevict]
    intro e he
    obtain ⟨uuid, hmem, rfl⟩ := List.mem_map.mp he
    have hne : uuid ≠ action.uuid := by
      rintro rfl
      rw [h.split] at hnew
      exact hnew (List.mem_append_right _ hmem)
    exact ⟨hne, fun heq => hne (paperSignature_injective heq)⟩
  have hlists := h.lists.insert hfresh
  rw [hevict] at hlists
  have hcapacity := CircularBufferWithLookupByValue.insert_capacity t.1.agentTxSignatures
    action.uuid (paperSignature action.uuid)
  refine ⟨?_, ?_, h.errorFree, ?_, ?_, hcapacity.trans h.capacity⟩
  · show t.2.executed ++ [action.uuid] = _
    rw [h.split, List.append_assoc]
  · show (t.2.executed ++ [action.uuid]).Nodup
    rw [← List.concat_eq_append]
    exact h.once.concat hnew
  · rw [entriesOf, List.map_append]
    exact hlists
  · rw [hcapacity, List.length_append]
    exact hroom

/-- A receipt leaves the front of it. -/
theorem Inv.receive {uuid : Uuid} (h : Inv t (uuid :: waiting)) (now : Instant) :
    Inv (⟨t.1.agentTxSignatures.popFront.2, t.1.sleeping⟩,
      ⟨t.2.executed, t.2.receipts ++ [⟨uuid, default, none, now⟩]⟩) waiting := by
  refine ⟨?_, h.once, ?_, h.lists.popFront, ?_, ?_⟩
  · rw [h.split, List.map_append, List.append_assoc]
    rfl
  · intro r hr
    rcases List.mem_append.mp hr with hr | hr
    · exact h.errorFree r hr
    · rw [List.mem_singleton.mp hr]
  · rw [CircularBufferWithLookupByValue.popFront_capacity]
    exact Nat.le_of_succ_le h.room
  · exact (CircularBufferWithLookupByValue.popFront_capacity _).trans h.capacity

/-- Whoever wakes up and whatever an empty queue is asked, nothing is noted. -/
theorem Inv.quiet (h : Inv t waiting) {signatures : Signatures} (sleeping : List SolanaAction)
    (hlists : signatures.Lists (entriesOf waiting))
    (hcapacity : signatures.capacity = t.1.agentTxSignatures.capacity) :
    Inv (⟨signatures, sleeping⟩, ⟨t.2.executed ++ [], t.2.receipts ++ []⟩) waiting := by
  rw [List.append_nil, List.append_nil]
  exact ⟨h.split, h.once, h.errorFree, hlists, h.room.trans hcapacity.ge,
    hcapacity.trans h.capacity⟩

/-- **ONE MOVE KEEPS THE QUEUE.** -/
theorem inv_step {m : Move} {out : List Reply} (h : Inv t waiting) (hm : Allowed t m)
    (hstep : tracked paper note t m = some (t', out)) : ∃ waiting', Inv t' waiting' := by
  obtain ⟨s', h'⟩ := t'
  obtain ⟨hmove, hnote⟩ := tracked_eq_some hstep
  obtain rfl : h' = note t.2 t.1 m s' out := hnote
  cases m with
  | execute action =>
      obtain ⟨rfl, rfl⟩ := Prod.mk.inj (Option.some.inj hmove)
      refine ⟨waiting ++ [action.uuid], ?_⟩
      show Inv (_, ⟨t.2.executed ++ [action.uuid], t.2.receipts ++ []⟩) _
      rw [List.append_nil]
      exact h.execute hm.1 hm.2
  | wake executor =>
      obtain ⟨action, -, heq⟩ := Option.map_eq_some_iff.mp hmove
      obtain ⟨rfl, rfl⟩ := Prod.mk.inj heq
      exact ⟨waiting, h.quiet _ h.lists rfl⟩
  | parseCachedExecutions now =>
      rw [paper, h.parse now] at hmove
      obtain ⟨rfl, rfl⟩ := Prod.mk.inj (Option.some.inj hmove)
      cases waiting with
      | nil =>
          exact ⟨[], h.quiet _ h.lists.popFront
            (CircularBufferWithLookupByValue.popFront_capacity _)⟩
      | cons uuid waiting =>
          refine ⟨waiting, ?_⟩
          show Inv (_, ⟨t.2.executed ++ [], _⟩) _
          rw [List.append_nil]
          exact h.receive now

theorem inv_of_reach (h : Reach (tracked paper note) Allowed (PaperBot.new, ⟨[], []⟩) t) :
    ∃ waiting, Inv t waiting := by
  refine h.invariant (I := fun t => ∃ waiting, Inv t waiting) ⟨[], begin_inv⟩ ?_
  rintro s m s' out ⟨waiting, hs⟩ hm hstep
  exact inv_step hs hm hstep

-- ── Receipts ────────────────────────────────────────────────────────────────

/-- Only the collector moves. -/
def Parses (_ : PaperBot × History) (m : Move) : Prop := ∃ now, m = .parseCachedExecutions now

/-- As many transactions as executions are outstanding, and all have their receipts. -/
theorem Inv.drain (waiting : List Uuid) :
    ∀ {t : PaperBot × History}, Inv t waiting →
      ∃ t', Reach (tracked paper note) Parses t t' ∧ t'.2.executed = t.2.executed ∧
        Inv t' [] := by
  induction waiting with
  | nil =>
      intro t h
      exact ⟨t, Reach.init, rfl, h⟩
  | cons uuid waiting ih =>
      intro t h
      have hcall : tracked paper note t (.parseCachedExecutions 0) =
          some ((⟨t.1.agentTxSignatures.popFront.2, t.1.sleeping⟩,
              ⟨t.2.executed, t.2.receipts ++ [⟨uuid, default, none, 0⟩]⟩),
            [.parsed (some ⟨uuid, default, none, 0⟩)]) := by
        rw [tracked, paper, h.parse 0]
        show some ((_, (⟨t.2.executed ++ [], _⟩ : History)), _) = _
        rw [List.append_nil]
        rfl
      obtain ⟨t', hreach, hexecuted, hinv⟩ := ih (h.receive 0)
      exact ⟨t', (Reach.next Reach.init ⟨0, rfl⟩ hcall).trans hreach, hexecuted, hinv⟩

/-- Every execution has one receipt, in the order of execution, or waits for it. -/
structure ReceiptsInOrder (t : PaperBot × History) : Prop where
  inOrder   : t.2.receipts.map (·.actionUuid) <+: t.2.executed
  once      : (t.2.receipts.map (·.actionUuid)).Nodup
  errorFree : ∀ r ∈ t.2.receipts, r.err = none
  /-- The next call returns the receipt of the oldest execution without one. -/
  next      : ∀ now, (parseCachedExecutions t.1.agentTxSignatures now).1 =
    (t.2.executed[t.2.receipts.length]?).map fun uuid => ⟨uuid, default, none, now⟩
  /-- It returns `None` exactly when no execution is outstanding. -/
  none_iff  : ∀ now, (parseCachedExecutions t.1.agentTxSignatures now).1 = none ↔
    t.2.outstanding = 0
  /-- Further calls alone return the receipts that are missing. -/
  complete  : ∃ t', Reach (tracked paper note) Parses t t' ∧
    t'.2.executed = t.2.executed ∧ t'.2.receipts.map (·.actionUuid) = t.2.executed

/-- **RECEIPTS COME IN THE ORDER OF EXECUTION**, one for each, in every run whose actions have
    different uuids and never have more signatures than the buffer holds. -/
theorem receipts_in_order
    (h : Reach (tracked paper note) Allowed (PaperBot.new, ⟨[], []⟩) t) :
    ReceiptsInOrder t := by
  obtain ⟨waiting, hinv⟩ := inv_of_reach h
  refine ⟨?_, ?_, hinv.errorFree, ?_, ?_, ?_⟩
  · rw [hinv.split]
    exact List.prefix_append ..
  · have honce := hinv.once
    rw [hinv.split] at honce
    exact honce.of_append_left
  · intro now
    have hlength : t.2.receipts.length = (t.2.receipts.map (·.actionUuid)).length :=
      (List.length_map _).symm
    rw [hinv.parse now, hinv.split, hlength, List.getElem?_append_right le_rfl, Nat.sub_self,
      List.head?_eq_getElem?]
  · intro now
    rw [hinv.parse now, hinv.outstanding_eq, Option.map_eq_none_iff, List.head?_eq_none_iff,
      List.length_eq_zero_iff]
  · obtain ⟨t', hreach, hexecuted, hinv'⟩ := Inv.drain waiting hinv
    refine ⟨t', hreach, hexecuted, ?_⟩
    have hsplit := hinv'.split
    rw [List.append_nil, hexecuted] at hsplit
    exact hsplit.symm

def anAction (n : Nat) : SolanaAction := .new ⟨BitVec.ofNat 128 n⟩ 0 ⟨⟨n⟩, 0⟩ []

/-- Two actions, a receipt, a third action, and a receipt. -/
theorem two_receipts_of_three :
    ∃ t, ReceiptsInOrder t ∧ t.2.executed = [⟨1⟩, ⟨2⟩, ⟨3⟩] ∧
      t.2.receipts.map (·.actionUuid) = [⟨1⟩, ⟨2⟩] := by
  have hview : (runIf (tracked paper note) (fun t m => decide (Allowed t m))
      (PaperBot.new, ⟨[], []⟩)
      [.execute (anAction 1), .execute (anAction 2), .parseCachedExecutions 7, .wake 0,
        .execute (anAction 3), .parseCachedExecutions 8]).map
      (fun p => (p.1.2.executed, p.1.2.receipts.map (·.actionUuid))) =
    some ([⟨1⟩, ⟨2⟩, ⟨3⟩], [⟨1⟩, ⟨2⟩]) := by decide
  obtain ⟨⟨t, out⟩, hrun, heq⟩ := Option.map_eq_some_iff.mp hview
  obtain ⟨hexecuted, hreceipts⟩ := Prod.mk.inj heq
  exact ⟨t, receipts_in_order (reach_of_runIf (fun _ _ => of_decide_eq_true) hrun),
    hexecuted, hreceipts⟩

end FoxfirePaper
