import FoxfireSniper.BlockchainStreamProofs

/-! # How long `blockchain_stream` stays silent about a signature

    `src/collectors/tx_stream/tx_stream.rs` remembers a signature under the time it was first
    seen at.  The buffer also keeps a map from times to signatures, which two signatures of
    one millisecond spoil; the stream never reads it.  The keys alone decide, and they leave
    in the order they came.

    * `recordings`: the signatures that the buffer takes in while events arrive.
    * **`silent_until_capacity`**: an event that brings a forwarded signature again is
      dropped, until the buffer has taken in as many other signatures as it holds. -/

namespace FoxfireStream

open FoxfireTypes FoxfireFeed FoxfireBuffer FifoWindow

/-- The stream forwards the event of `a`, given everything that arrived before. -/
def Forwards (pre : List Arrival) (a : Arrival) : Prop :=
  blockchainStream (pre ++ [a]) = blockchainStream pre ++ [a.event]

/-- The signatures that are inserted into the buffer while `as` arrive, in order. -/
def recordings (b : TxBuffer) : List Arrival → List Signature
  | []      => []
  | a :: as =>
      match onEvent b a with
      | none         => []
      | some (b', _) =>
          ((signatureOf a).filter fun s => !b.containsKey s).toList ++ recordings b' as

/-- Those inserted while `later` arrive, after `past`. -/
def recordedAfter (past later : List Arrival) : List Signature :=
  (after (.new geyserTxFeedBufferCapacity) past).elim [] fun b => recordings b later

-- ── The buffer and the window ───────────────────────────────────────────────

theorem signatures_append (xs ys : List Arrival) :
    signatures (xs ++ ys) = signatures xs ++ signatures ys := List.filterMap_append

/-- **THE BUFFER RECORDS WHAT THE WINDOW RECORDS**, from any state on. -/
theorem recordings_eq {as : List Arrival} (h : ∀ a ∈ as, isMalformedStatus a = false) :
    ∀ {b : TxBuffer} {w : List Signature}, Holds b w →
      recordings b as = recorded geyserTxFeedBufferCapacity w (signatures as) := by
  induction as with
  | nil => intro b w _; rfl
  | cons a as ih =>
      intro b w hb
      have hrest : ∀ x ∈ as, isMalformedStatus x = false :=
        fun x hx => h x (List.mem_cons_of_mem a hx)
      cases hs : signatureOf a with
      | none =>
          obtain ⟨out, hout⟩ := onEvent_other hs (h a List.mem_cons_self) b
          have hsig : signatures (a :: as) = signatures as := by
            rw [signatures, List.filterMap_cons, hs]
            rfl
          rw [hsig, recordings, hout, hs]
          exact ih hrest hb
      | some s =>
          have hsig : signatures (a :: as) = s :: signatures as := by
            rw [signatures, List.filterMap_cons, hs]
            rfl
          rw [hsig, recordings, onEvent_signature hs b, hs]
          show ((some s).filter fun s => !b.containsKey s).toList ++
            recordings (forwardOnce b a s).1 as = _
          rw [ih hrest (forwardOnce_holds a s hb).1]
          by_cases hmem : s ∈ w
          · rw [recorded_of_mem hmem, record_of_mem hmem, Option.filter_some,
              (hb.2.contains s).mpr hmem]
            rfl
          · have hnot : b.containsKey s = false :=
              Bool.eq_false_iff.mpr (mt (hb.2.contains s).mp hmem)
            rw [recorded_of_not_mem hmem, Option.filter_some, hnot]
            rfl

-- ── Silence ─────────────────────────────────────────────────────────────────

/-- A forwarded signature is the newest entry of the window. -/
theorem newest_of_forwards {pre : List Arrival} {a : Arrival} {s : Signature}
    (hs : signatureOf a = some s) (h : Forwards pre a) :
    ∃ older, recent geyserTxFeedBufferCapacity (signatures (pre ++ [a])) = older ++ [s] := by
  obtain ⟨-, hnew⟩ := (forwarded_iff hs).mp h
  have hsig : signatures (pre ++ [a]) = signatures pre ++ [s] := by
    rw [signatures_append, signatures, signatures, List.filterMap_cons, hs]
    rfl
  rw [hsig, recent_concat, record_of_not_mem hnew]
  exact ⟨_, rfl⟩

/-- **ONE REPORT PER SIGNATURE AND WINDOW.**  After an event with the signature `s` has been
    forwarded, and while fewer other signatures have been recorded since than the buffer
    holds, no event with that signature is forwarded, whatever the clock answered. -/
theorem silent_until_capacity {pre mid : List Arrival} {a again : Arrival} {s : Signature}
    (hs : signatureOf a = some s) (hagain : signatureOf again = some s)
    (hforwarded : Forwards pre a)
    (hfew : ((recordedAfter (pre ++ [a]) mid).toFinset.erase s).card
      < geyserTxFeedBufferCapacity) :
    ¬ Forwards (pre ++ a :: mid) again := by
  intro htwice
  have hlist : pre ++ a :: mid = (pre ++ [a]) ++ mid := by
    rw [List.append_assoc, List.singleton_append]
  rw [hlist] at htwice
  obtain ⟨halive, hout⟩ := (forwarded_iff hagain).mp htwice
  obtain ⟨b, hb, hholds⟩ := after_spec (pre ++ [a]) fun x hx =>
    halive x (List.mem_append_left mid hx)
  have hrec := recordings_eq (fun x hx => halive x (List.mem_append_right _ hx)) hholds
  obtain ⟨older, hwindow⟩ := newest_of_forwards hs hforwarded
  have hlost : s ∉ (signatures mid).foldl (record geyserTxFeedBufferCapacity) (older ++ [s]) := by
    rw [← hwindow, recent, ← List.foldl_append, ← signatures_append]
    exact hout
  have hlast : older ++ [s] = older ++ s :: [] := rfl
  have hmany := capacity_le_recorded hlast hlost
  have hothers : (recordedAfter (pre ++ [a]) mid).toFinset.erase s =
      ((recorded geyserTxFeedBufferCapacity (older ++ [s]) (signatures mid)).toFinset.filter
        fun z => z ∉ [s]) := by
    rw [recordedAfter, hb, Option.elim_some, hrec, hwindow]
    ext z
    simp only [Finset.mem_erase, Finset.mem_filter, List.mem_singleton, and_comm, ne_eq]
  rw [hothers] at hfew
  rw [List.length_nil, Nat.zero_add] at hmany
  exact absurd hmany (Nat.not_le.mpr hfew)

/-- A transaction and its status update, at the same millisecond: one is forwarded. -/
theorem two_reports_one_forwarded :
    Forwards [] ⟨.transaction ⟨some ⟨List.replicate 64 0, false, none, false⟩⟩, 7⟩ ∧
      ¬ Forwards ([] ++ ⟨.transaction ⟨some ⟨List.replicate 64 0, false, none, false⟩⟩, 7⟩ :: [])
        ⟨.txStatusUpdate ⟨List.replicate 64 0⟩, 7⟩ := by
  have hfirst : Forwards []
      ⟨.transaction ⟨some ⟨List.replicate 64 0, false, none, false⟩⟩, 7⟩ := by
    refine (forwarded_iff (s := default) (by decide +kernel)).mpr ⟨?_, ?_⟩
    · intro x hx
      cases hx
    · exact List.not_mem_nil
  refine ⟨hfirst, silent_until_capacity (s := default) (by decide +kernel) (by decide +kernel)
    hfirst ?_⟩
  show (Finset.erase (recordedAfter _ []).toFinset _).card < _
  decide +kernel

end FoxfireStream
