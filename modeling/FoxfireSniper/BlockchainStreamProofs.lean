import FoxfireSniper.CircularBufferProofs
import FoxfireSniper.FeedTypes

/-! # `blockchain_stream` — one feed out of many, without duplicates

    `src/collectors/tx_stream/tx_stream.rs`.  Every provider's task sends into one
    channel; what arrives there, in whatever order, goes through one `filter_map`
    with one buffer of recently seen signatures.

    * `blockchainStream` is the stream on a finite sequence of arrivals.  A panic of
      the closure ends it: nothing after it is forwarded.
    * `after_spec`: the buffer refines the FIFO window of the signatures that
      arrived, in transactions AND in status updates.
    * `forwards_first_iff`: the first transaction event of every signature is
      forwarded exactly when no status update got into its way, and
      `forwardsFirst_of_no_status`: without status updates always. -/

namespace FoxfireStream

open FoxfireTypes FoxfireFeed FoxfireBuffer FifoWindow

/-- Signatures and the time they were first seen at. -/
abbrev TxBuffer := CircularBufferWithLookupByValue Signature Int

/-- An event, and what `Utc::now().timestamp_millis()` answers when it arrives. -/
structure Arrival where
  event : GeyserFeedEvent
  now   : Int
  deriving DecidableEq

/-- The signature of a transaction update, if there is one and it is well formed. -/
def updateSignature (tx : SubscribeUpdateTransaction) : Option Signature :=
  tx.transaction.bind fun info => Signature.tryFrom info.signature

/-- Forward an event unless its signature is in the buffer; remember the signature. -/
def forwardOnce (txBuffer : TxBuffer) (a : Arrival) (signature : Signature) :
    TxBuffer × Option GeyserFeedEvent :=
  if txBuffer.containsKey signature then (txBuffer, none)
  else (txBuffer.insert signature a.now, some a.event)

/-- The closure of the `filter_map`; `none` where `expect("valid signature")`
    panics. -/
def onEvent (txBuffer : TxBuffer) (a : Arrival) :
    Option (TxBuffer × Option GeyserFeedEvent) :=
  match a.event with
  | .transaction tx =>
      match updateSignature tx with
      | none           => some (txBuffer, none)
      | some signature => some (forwardOnce txBuffer a signature)
  | .txStatusUpdate tx =>
      match Signature.tryFrom tx.signature with
      | none     => none
      | some sig => some (forwardOnce txBuffer a sig)
  | .account _ => some (txBuffer, some a.event)

/-- What is forwarded of a sequence of arrivals. -/
def stream (txBuffer : TxBuffer) : List Arrival → List GeyserFeedEvent
  | []      => []
  | a :: as =>
      match onEvent txBuffer a with
      | none          => []
      | some (b, out) => out.toList ++ stream b as

def blockchainStream (arrivals : List Arrival) : List GeyserFeedEvent :=
  stream (.new geyserTxFeedBufferCapacity) arrivals

-- ── The stream on a prefix ──────────────────────────────────────────────────

/-- The buffer after a sequence of arrivals; `none` once the stream has panicked. -/
def after (txBuffer : TxBuffer) : List Arrival → Option TxBuffer
  | []      => some txBuffer
  | a :: as => (onEvent txBuffer a).bind fun p => after p.1 as

theorem after_append (b : TxBuffer) (xs ys : List Arrival) :
    after b (xs ++ ys) = (after b xs).bind fun b' => after b' ys := by
  induction xs generalizing b with
  | nil => rfl
  | cons a as ih =>
      rw [List.cons_append, after, after]
      cases onEvent b a with
      | none => rfl
      | some p => exact ih p.1

/-- The stream is online: what a prefix makes it forward does not depend on what
    comes later. -/
theorem stream_append (b : TxBuffer) (xs ys : List Arrival) :
    stream b (xs ++ ys) = stream b xs ++ (after b xs).elim [] fun b' => stream b' ys := by
  induction xs generalizing b with
  | nil => rfl
  | cons a as ih =>
      rw [List.cons_append, stream, stream, after]
      cases onEvent b a with
      | none => rfl
      | some p =>
          show p.2.toList ++ stream p.1 (as ++ ys) = _
          rw [ih p.1, ← List.append_assoc]
          rfl

theorem stream_singleton (b : TxBuffer) (a : Arrival) :
    stream b [a] = (onEvent b a).elim [] fun p => p.2.toList := by
  rw [stream]
  cases onEvent b a with
  | none => rfl
  | some p => exact List.append_nil _

-- ── What an arrival says ────────────────────────────────────────────────────

/-- The signature of a transaction event. -/
def txSignature (a : Arrival) : Option Signature :=
  match a.event with
  | .transaction tx => updateSignature tx
  | _               => none

/-- The signature an arrival brings, as a transaction or as a status update. -/
def signatureOf (a : Arrival) : Option Signature :=
  match a.event with
  | .transaction tx    => updateSignature tx
  | .txStatusUpdate tx => Signature.tryFrom tx.signature
  | .account _         => none

/-- A status update whose signature is not 64 bytes long. -/
def isMalformedStatus (a : Arrival) : Bool :=
  match a.event with
  | .txStatusUpdate tx => (Signature.tryFrom tx.signature).isNone
  | _                  => false

/-- The signatures that arrived, in order. -/
def signatures (arrivals : List Arrival) : List Signature :=
  arrivals.filterMap signatureOf

theorem signatureOf_of_txSignature {a : Arrival} {s : Signature}
    (h : txSignature a = some s) : signatureOf a = some s := by
  cases he : a.event with
  | transaction tx => simpa [txSignature, signatureOf, he] using h
  | txStatusUpdate tx => simp [txSignature, he] at h
  | account acc => simp [txSignature, he] at h

-- ── One arrival ─────────────────────────────────────────────────────────────

/-- The buffer holds the window `w`, and no more than the feed's capacity. -/
def Holds (b : TxBuffer) (w : List Signature) : Prop :=
  b.capacity = geyserTxFeedBufferCapacity ∧ b.Represents w

variable {b : TxBuffer} {w : List Signature}

theorem forwardOnce_holds (a : Arrival) (s : Signature) (h : Holds b w) :
    Holds (forwardOnce b a s).1 (record geyserTxFeedBufferCapacity w s) ∧
      (forwardOnce b a s).2 = if s ∈ w then none else some a.event := by
  obtain ⟨hcap, hrep⟩ := h
  by_cases hs : s ∈ w
  · rw [forwardOnce, if_pos ((hrep.contains s).mpr hs), record_of_mem hs, if_pos hs]
    exact ⟨⟨hcap, hrep⟩, rfl⟩
  · rw [forwardOnce, if_neg (mt (hrep.contains s).mp hs), if_neg hs, ← hcap]
    refine ⟨⟨?_, hrep.insert hs a.now⟩, rfl⟩
    rw [CircularBufferWithLookupByValue.insert_capacity, hcap]

theorem onEvent_malformed {a : Arrival} (h : isMalformedStatus a = true) (b : TxBuffer) :
    onEvent b a = none := by
  cases he : a.event with
  | transaction tx => simp [isMalformedStatus, he] at h
  | account acc => simp [isMalformedStatus, he] at h
  | txStatusUpdate tx =>
      cases hs : Signature.tryFrom tx.signature with
      | none => simp [onEvent, he, hs]
      | some sig => simp [isMalformedStatus, he, hs] at h

/-- An arrival that brings a signature is forwarded once per window. -/
theorem onEvent_signature {a : Arrival} {s : Signature} (h : signatureOf a = some s)
    (b : TxBuffer) : onEvent b a = some (forwardOnce b a s) := by
  cases he : a.event with
  | transaction tx =>
      simp only [signatureOf, he] at h
      simp only [onEvent, he, h]
  | txStatusUpdate tx =>
      simp only [signatureOf, he] at h
      simp only [onEvent, he, h]
  | account acc => simp [signatureOf, he] at h

/-- Any other arrival leaves the buffer alone. -/
theorem onEvent_other {a : Arrival} (h : signatureOf a = none)
    (hm : isMalformedStatus a = false) (b : TxBuffer) :
    ∃ out, onEvent b a = some (b, out) := by
  cases he : a.event with
  | transaction tx =>
      simp only [signatureOf, he] at h
      exact ⟨none, by simp only [onEvent, he, h]⟩
  | txStatusUpdate tx =>
      simp only [signatureOf, he] at h
      simp [isMalformedStatus, he, h] at hm
  | account acc => exact ⟨some a.event, by simp only [onEvent, he]⟩

-- ── A sequence of arrivals ──────────────────────────────────────────────────

/-- **THE BUFFER REFINES THE WINDOW OF ARRIVED SIGNATURES**, as long as no malformed
    status update has arrived. -/
theorem after_spec (as : List Arrival) (h : ∀ a ∈ as, isMalformedStatus a = false) :
    ∃ b, after (.new geyserTxFeedBufferCapacity) as = some b ∧
      Holds b (recent geyserTxFeedBufferCapacity (signatures as)) := by
  induction as using List.reverseRecOn with
  | nil =>
      exact ⟨_, rfl, rfl, CircularBufferWithLookupByValue.represents_new _⟩
  | append_singleton as a ih =>
      obtain ⟨b, hb, hholds⟩ := ih fun x hx => h x (List.mem_append_left _ hx)
      have hm : isMalformedStatus a = false := h a (by simp)
      rw [after_append, hb, Option.bind_some]
      cases hs : signatureOf a with
      | none =>
          obtain ⟨out, hout⟩ := onEvent_other hs hm b
          refine ⟨b, by rw [after, hout]; rfl, ?_⟩
          simpa [signatures, hs] using hholds
      | some s =>
          refine ⟨(forwardOnce b a s).1, by rw [after, onEvent_signature hs b]; rfl, ?_⟩
          have happ : signatures (as ++ [a]) = signatures as ++ [s] := by
            simp [signatures, hs]
          rw [happ, recent_concat]
          exact (forwardOnce_holds a s hholds).1

/-- A malformed status update ends the stream for good. -/
theorem after_malformed {as : List Arrival} {a : Arrival} (ha : a ∈ as)
    (hm : isMalformedStatus a = true) (b : TxBuffer) : after b as = none := by
  obtain ⟨xs, ys, rfl⟩ := List.append_of_mem ha
  rw [after_append]
  cases after b xs with
  | none => rfl
  | some b' => rw [Option.bind_some, after, onEvent_malformed hm]; rfl

/-- When an event with a signature is forwarded, given everything that arrived before. -/
theorem forwarded_iff {pre : List Arrival} {a : Arrival} {s : Signature}
    (hs : signatureOf a = some s) :
    blockchainStream (pre ++ [a]) = blockchainStream pre ++ [a.event] ↔
      (∀ x ∈ pre, isMalformedStatus x = false) ∧
      s ∉ recent geyserTxFeedBufferCapacity (signatures pre) := by
  rw [blockchainStream, blockchainStream, stream_append, List.append_cancel_left_eq]
  by_cases hall : ∀ x ∈ pre, isMalformedStatus x = false
  · obtain ⟨b, hb, hholds⟩ := after_spec pre hall
    have hout := (forwardOnce_holds a s hholds).2
    rw [hb, Option.elim_some, stream_singleton,
      onEvent_signature hs, Option.elim_some, hout]
    by_cases hmem : s ∈ recent geyserTxFeedBufferCapacity (signatures pre)
    · rw [if_pos hmem]
      constructor
      · intro hn
        cases hn
      · intro hc
        exact absurd hmem hc.2
    · rw [if_neg hmem]
      exact ⟨fun _ => ⟨hall, hmem⟩, fun _ => rfl⟩
  · have hpan : after (.new geyserTxFeedBufferCapacity) pre = none := by
      simp only [not_forall, Bool.not_eq_false] at hall
      obtain ⟨x, hx, hm⟩ := hall
      exact after_malformed hx hm _
    rw [hpan]
    constructor
    · intro hn
      cases hn
    · intro hc
      exact absurd hc.1 hall

/-- Whatever arrives at `a`, with `pre` before it, is the first transaction event with
    the signature `s`. -/
def FirstTransaction (arrivals pre : List Arrival) (a : Arrival) (s : Signature) : Prop :=
  (∃ post, arrivals = pre ++ a :: post) ∧ txSignature a = some s ∧
    ∀ x ∈ pre, txSignature x ≠ some s

/-- Of every signature that arrives in a transaction event, the first such event is
    forwarded, when it arrives. -/
def ForwardsFirst (arrivals : List Arrival) : Prop :=
  ∀ pre a s, FirstTransaction arrivals pre a s →
    blockchainStream (pre ++ [a]) = blockchainStream pre ++ [a.event]

/-- **STATUS UPDATES CAN SILENCE TRANSACTIONS.**  The first transaction event of every
    signature is forwarded iff, for each of them, no malformed status update came
    before it and no status update has put its signature into the window. -/
theorem forwards_first_iff (arrivals : List Arrival) :
    ForwardsFirst arrivals ↔
      ∀ pre a s, FirstTransaction arrivals pre a s →
        (∀ x ∈ pre, isMalformedStatus x = false) ∧
        s ∉ recent geyserTxFeedBufferCapacity (signatures pre) := by
  constructor
  · intro h pre a s hfirst
    exact (forwarded_iff (signatureOf_of_txSignature hfirst.2.1)).mp (h pre a s hfirst)
  · intro h pre a s hfirst
    exact (forwarded_iff (signatureOf_of_txSignature hfirst.2.1)).mpr (h pre a s hfirst)

/-- A status update, malformed or not. -/
def isStatusUpdate (a : Arrival) : Bool :=
  match a.event with
  | .txStatusUpdate _ => true
  | _                 => false

/-- **WITHOUT STATUS UPDATES NOTHING IS LOST**: what silences transactions is that the
    two subscriptions share one buffer. -/
theorem forwardsFirst_of_no_status {arrivals : List Arrival}
    (h : ∀ a ∈ arrivals, isStatusUpdate a = false) : ForwardsFirst arrivals := by
  rintro pre a s ⟨⟨post, rfl⟩, hsome, hfirst⟩
  have hpre : ∀ x ∈ pre, isStatusUpdate x = false := fun x hx =>
    h x (List.mem_append_left _ hx)
  refine (forwarded_iff (signatureOf_of_txSignature hsome)).mpr ⟨?_, ?_⟩
  · intro x hx
    have hx' := hpre x hx
    cases he : x.event with
    | txStatusUpdate tx => simp [isStatusUpdate, he] at hx'
    | transaction tx => simp [isMalformedStatus, he]
    | account acc => simp [isMalformedStatus, he]
  · intro hmem
    obtain ⟨x, hx, hsig⟩ := List.mem_filterMap.mp (mem_of_mem_recent hmem)
    have hx' := hpre x hx
    cases he : x.event with
    | txStatusUpdate tx => simp [isStatusUpdate, he] at hx'
    | transaction tx =>
        refine hfirst x hx ?_
        simpa [txSignature, signatureOf, he] using hsig
    | account acc => simp [signatureOf, he] at hsig

/-- A status update and then the transaction, one millisecond apart, both with the
    default signature. -/
def statusFirst : List Arrival :=
  [⟨.txStatusUpdate ⟨List.replicate 64 0⟩, 0⟩,
   ⟨.transaction ⟨some ⟨List.replicate 64 0, false, none, false⟩⟩, 1⟩]

/-- The status update is forwarded, the transaction is not. -/
theorem status_first_silences_transaction :
    blockchainStream statusFirst = [.txStatusUpdate ⟨List.replicate 64 0⟩] ∧
      ¬ ForwardsFirst statusFirst := by
  have hstream : blockchainStream statusFirst =
      [.txStatusUpdate ⟨List.replicate 64 0⟩] := by decide +kernel
  refine ⟨hstream, ?_⟩
  intro h
  have hfirst : FirstTransaction statusFirst (statusFirst.take 1)
      ⟨.transaction ⟨some ⟨List.replicate 64 0, false, none, false⟩⟩, 1⟩ default :=
    ⟨⟨[], rfl⟩, by decide +kernel, by decide +kernel⟩
  have hfwd := h _ _ _ hfirst
  rw [show statusFirst.take 1 ++ [_] = statusFirst from rfl, hstream] at hfwd
  exact absurd hfwd (by decide +kernel)

end FoxfireStream
