import Mathlib.Data.Finset.Card
import Mathlib.Data.Finset.Dedup

/-! # A ledger of attempts

    A client executes one command at a time by submitting ATTEMPTS, each with an
    identifier, and keeps a list of the attempts it still listens for.  It retries
    when it learns that an attempt failed, or blindly, when a timeout fires.  This
    file is about any such client; it knows nothing of what an attempt is.

    The ledger records the attempts of the current command, the attempts known to
    have failed, how many blind retries the command made, and how many attempts of
    earlier commands were still open when it started.  The point is `Bounded`: each
    attempt whose fate is unknown is paid for, by a blind retry or by an attempt
    left over from an earlier command.  The moves a client can make (`resolve`,
    dropping an attempt from the list, `push`, `start`) keep it, one lemma each. -/

namespace AttemptLog

variable {α : Type} [DecidableEq α]

/-- What is known about the attempts of the current command. -/
structure Log (α : Type) where
  /-- Attempts of the current command, oldest first. -/
  current  : List α
  /-- Attempts known to have failed, of any command. -/
  resolved : List α
  /-- Blind retries of the current command. -/
  timeouts : Nat
  /-- Attempts of earlier commands still open when the current one started. -/
  stale    : Nat

/-- Nothing attempted yet. -/
def Log.empty : Log α := ⟨[], [], 0, 0⟩

/-- Learn that an attempt failed (`none`: nothing learned). -/
def Log.resolve (log : Log α) : Option α → Log α
  | none   => log
  | some u => { log with resolved := u :: log.resolved }

/-- A further attempt at the current command; `blind` when a timeout asked for
    it. -/
def Log.push (log : Log α) (v : α) (blind : Bool) : Log α :=
  { log with
    current := log.current ++ [v]
    timeouts := if blind then log.timeouts + 1 else log.timeouts }

/-- First attempt at a new command, with `n` older attempts still open. -/
def Log.start (log : Log α) (v : α) (n : Nat) : Log α :=
  { log with current := [v], timeouts := 0, stale := n }

/-- Attempts of the current command whose failure is not known: they may still
    succeed, or have succeeded. -/
def Log.unresolved (log : Log α) : List α :=
  log.current.filter (fun u => u ∉ log.resolved)

/-- Open attempts that are not unresolved attempts of the current command. -/
def Log.owed (log : Log α) (op : List α) : Finset α :=
  op.toFinset.filter (fun u => u ∉ log.current ∨ u ∈ log.resolved)

/-- **THE LEDGER'S INVARIANT**: unresolved attempts are paid for. -/
def Log.Bounded (log : Log α) (op : List α) : Prop :=
  log.unresolved.length + (log.owed op).card ≤ log.timeouts + log.stale + 1

theorem mem_owed {log : Log α} {op : List α} {u : α} :
    u ∈ log.owed op ↔ u ∈ op ∧ (u ∉ log.current ∨ u ∈ log.resolved) := by
  simp [Log.owed]

theorem owed_mono (log : Log α) {op op' : List α} (h : ∀ u ∈ op', u ∈ op) :
    log.owed op' ⊆ log.owed op := by
  intro u hu
  rw [mem_owed] at hu ⊢
  exact ⟨h u hu.1, hu.2⟩

/-- Filtering out one more value shortens the list when the value is there. -/
theorem filter_notMem_cons_length_lt {l r : List α} {u : α} (hl : u ∈ l) (hr : u ∉ r) :
    (l.filter (fun x => x ∉ u :: r)).length < (l.filter (fun x => x ∉ r)).length := by
  have hsplit : l.filter (fun x => x ∉ u :: r)
      = (l.filter (fun x => x ∉ r)).filter (fun x => x ≠ u) := by
    rw [List.filter_filter]
    refine List.filter_congr ?_
    intro x _
    simp only [List.mem_cons, not_or, decide_not, Bool.decide_and]
  rw [hsplit]
  refine List.length_filter_lt_length_iff_exists.mpr ⟨u, ?_, by simp⟩
  rw [List.mem_filter]
  exact ⟨hl, by simpa using hr⟩

/-- Filtering out one more value never lengthens the list. -/
theorem filter_notMem_cons_length_le (l r : List α) (u : α) :
    (l.filter (fun x => x ∉ u :: r)).length ≤ (l.filter (fun x => x ∉ r)).length := by
  have hsub : (l.filter (fun x => x ∉ u :: r)).Sublist (l.filter (fun x => x ∉ r)) := by
    refine List.monotone_filter_right l ?_
    intro x hx
    simp only [List.mem_cons, not_or, decide_eq_true_eq] at hx ⊢
    exact hx.2
  exact hsub.length_le

/-- Learning of a failure never increases the debt, also when it drops open
    attempts. -/
theorem Log.Bounded.resolve {log : Log α} {op op' : List α} (h : log.Bounded op)
    (hsub : ∀ u ∈ op', u ∈ op) (f : Option α) : (log.resolve f).Bounded op' := by
  cases f with
  | none =>
      have hcard := Finset.card_le_card (owed_mono log hsub)
      have h' : log.unresolved.length + (log.owed op).card
          ≤ log.timeouts + log.stale + 1 := h
      show log.unresolved.length + (log.owed op').card ≤ log.timeouts + log.stale + 1
      omega
  | some u =>
      have h' : log.unresolved.length + (log.owed op).card
          ≤ log.timeouts + log.stale + 1 := h
      show ((log.resolve (some u)).unresolved).length
        + ((log.resolve (some u)).owed op').card ≤ log.timeouts + log.stale + 1
      by_cases hu : u ∈ log.current ∧ u ∉ log.resolved
      · -- an unresolved attempt becomes resolved: it may move into the owed part
        have hlt : (log.resolve (some u)).unresolved.length < log.unresolved.length :=
          filter_notMem_cons_length_lt hu.1 hu.2
        have hins : (log.resolve (some u)).owed op' ⊆ insert u (log.owed op) := by
          intro w hw
          rw [mem_owed] at hw
          rw [Finset.mem_insert, mem_owed]
          by_cases hwu : w = u
          · exact Or.inl hwu
          · refine Or.inr ⟨hsub w hw.1, ?_⟩
            rcases hw.2 with hc | hr
            · exact Or.inl hc
            · rcases List.mem_cons.mp hr with heq | hmem
              · exact absurd heq hwu
              · exact Or.inr hmem
        have h1 := Finset.card_le_card hins
        have h2 := Finset.card_insert_le u (log.owed op)
        omega
      · -- nothing of the current command changes
        have hle : (log.resolve (some u)).unresolved.length ≤ log.unresolved.length :=
          filter_notMem_cons_length_le _ _ u
        have hsub' : (log.resolve (some u)).owed op' ⊆ log.owed op := by
          intro w hw
          rw [mem_owed] at hw ⊢
          refine ⟨hsub w hw.1, ?_⟩
          rcases hw.2 with hc | hr
          · exact Or.inl hc
          · rcases List.mem_cons.mp hr with heq | hmem
            · subst heq
              by_cases hcur : w ∈ log.current
              · exact Or.inr (by_contra fun hn => hu ⟨hcur, hn⟩)
              · exact Or.inl hcur
            · exact Or.inr hmem
        have h1 := Finset.card_le_card hsub'
        omega

/-- Learning of the failure of an OPEN attempt, and closing it, pays off one. -/
theorem Log.Bounded.settle {log : Log α} {op : List α} {u : α} (h : log.Bounded op)
    (hu : u ∈ op) :
    (log.resolve (some u)).unresolved.length
      + ((log.resolve (some u)).owed (op.filter (fun x => x ≠ u))).card
      ≤ log.timeouts + log.stale := by
  have h' : log.unresolved.length + (log.owed op).card
      ≤ log.timeouts + log.stale + 1 := h
  have hmem : ∀ w, w ∈ (log.resolve (some u)).owed (op.filter (fun x => x ≠ u)) →
      w ∈ log.owed op ∧ w ≠ u := by
    intro w hw
    rw [mem_owed] at hw
    obtain ⟨hop, hor⟩ := hw
    have hne : w ≠ u := by
      have := (List.mem_filter.mp hop).2
      simpa using this
    refine ⟨mem_owed.mpr ⟨(List.mem_filter.mp hop).1, ?_⟩, hne⟩
    rcases hor with hc | hr
    · exact Or.inl hc
    · rcases List.mem_cons.mp hr with heq | hm
      · exact absurd heq hne
      · exact Or.inr hm
  by_cases hcur : u ∈ log.current ∧ u ∉ log.resolved
  · have hlt : (log.resolve (some u)).unresolved.length < log.unresolved.length :=
      filter_notMem_cons_length_lt hcur.1 hcur.2
    have h1 := Finset.card_le_card (fun w hw => (hmem w hw).1)
    omega
  · have hle : (log.resolve (some u)).unresolved.length ≤ log.unresolved.length :=
      filter_notMem_cons_length_le _ _ u
    have hin : u ∈ log.owed op := by
      rw [mem_owed]
      refine ⟨hu, ?_⟩
      by_cases hc : u ∈ log.current
      · exact Or.inr (by_contra fun hn => hcur ⟨hc, hn⟩)
      · exact Or.inl hc
    have hsub : (log.resolve (some u)).owed (op.filter (fun x => x ≠ u))
        ⊆ (log.owed op).erase u := by
      intro w hw
      rw [Finset.mem_erase]
      exact ⟨(hmem w hw).2, (hmem w hw).1⟩
    have h1 := Finset.card_le_card hsub
    have h2 := Finset.card_erase_lt_of_mem hin
    omega

/-- One further attempt costs one. -/
theorem push_cost (log : Log α) (op : List α) (v : α) (blind : Bool) :
    (log.push v blind).unresolved.length + ((log.push v blind).owed (op ++ [v])).card
      ≤ log.unresolved.length + (log.owed op).card + 1 := by
  have hun : (log.push v blind).unresolved
      = log.unresolved ++ [v].filter (fun u => u ∉ log.resolved) := by
    show (log.current ++ [v]).filter (fun u => u ∉ log.resolved) = _
    rw [List.filter_append]
    rfl
  by_cases hv : v ∈ log.resolved
  · have hlen : (log.push v blind).unresolved.length = log.unresolved.length := by
      rw [hun]
      simp [hv]
    have hsub : (log.push v blind).owed (op ++ [v]) ⊆ insert v (log.owed op) := by
      intro w hw
      rw [mem_owed] at hw
      obtain ⟨hop, hor⟩ := hw
      rw [Finset.mem_insert, mem_owed]
      rcases List.mem_append.mp hop with hin | heq
      · refine Or.inr ⟨hin, ?_⟩
        rcases hor with hc | hr
        · exact Or.inl (fun hm => hc (List.mem_append_left [v] hm))
        · exact Or.inr hr
      · exact Or.inl (List.mem_singleton.mp heq)
    have h1 := Finset.card_le_card hsub
    have h2 := Finset.card_insert_le v (log.owed op)
    omega
  · have hlen : (log.push v blind).unresolved.length = log.unresolved.length + 1 := by
      rw [hun]
      simp [hv]
    have hsub : (log.push v blind).owed (op ++ [v]) ⊆ log.owed op := by
      intro w hw
      rw [mem_owed] at hw ⊢
      obtain ⟨hop, hor⟩ := hw
      rcases List.mem_append.mp hop with hin | heq
      · refine ⟨hin, ?_⟩
        rcases hor with hc | hr
        · exact Or.inl (fun hm => hc (List.mem_append_left [v] hm))
        · exact Or.inr hr
      · have hwv : w = v := List.mem_singleton.mp heq
        subst hwv
        rcases hor with hc | hr
        · exact absurd (List.mem_append_right log.current (List.mem_singleton_self w)) hc
        · exact absurd hr hv
    have h1 := Finset.card_le_card hsub
    omega

/-- A blind retry is bounded, and before it at most one attempt per blind retry
    (this one included) or left-over attempt is unresolved. -/
theorem Log.Bounded.retryBlind {log : Log α} {op : List α} (h : log.Bounded op) (v : α) :
    (log.push v true).Bounded (op ++ [v]) ∧
      log.unresolved.length ≤ (log.push v true).timeouts + log.stale := by
  have hc := push_cost log op v true
  have h' : log.unresolved.length + (log.owed op).card
      ≤ log.timeouts + log.stale + 1 := h
  have ht : (log.push v true).timeouts = log.timeouts + 1 := rfl
  have hs : (log.push v true).stale = log.stale := rfl
  refine ⟨?_, by omega⟩
  show (log.push v true).unresolved.length + ((log.push v true).owed (op ++ [v])).card
    ≤ (log.push v true).timeouts + (log.push v true).stale + 1
  omega

/-- A retry after the failure of an open attempt is bounded, and before it at most
    one attempt per blind retry or left-over attempt is unresolved. -/
theorem Log.Bounded.retryFailed {log : Log α} {op : List α} {u : α} (h : log.Bounded op)
    (hu : u ∈ op) (v : α) :
    ((log.resolve (some u)).push v false).Bounded (op.filter (fun x => x ≠ u) ++ [v]) ∧
      (log.resolve (some u)).unresolved.length ≤ log.timeouts + log.stale := by
  have hset := h.settle hu
  have hc := push_cost (log.resolve (some u)) (op.filter (fun x => x ≠ u)) v false
  refine ⟨?_, by omega⟩
  show ((log.resolve (some u)).push v false).unresolved.length
    + (((log.resolve (some u)).push v false).owed
        (op.filter (fun x => x ≠ u) ++ [v])).card
    ≤ log.timeouts + log.stale + 1
  omega

/-- A command that starts with `op` open owes at most those. -/
theorem start_bounded (log : Log α) (op : List α) (v : α) :
    (log.start v op.length).Bounded (op ++ [v]) := by
  show (log.start v op.length).unresolved.length
    + ((log.start v op.length).owed (op ++ [v])).card ≤ 0 + op.length + 1
  have hcard : op.toFinset.card ≤ op.length := List.toFinset_card_le op
  by_cases hv : v ∈ log.resolved
  · have hun : (log.start v op.length).unresolved = [] := by
      show [v].filter (fun u => u ∉ log.resolved) = []
      simp [hv]
    have hsub : (log.start v op.length).owed (op ++ [v]) ⊆ insert v op.toFinset := by
      intro w hw
      have hop := (mem_owed.mp hw).1
      rw [Finset.mem_insert, List.mem_toFinset]
      rcases List.mem_append.mp hop with hin | heq
      · exact Or.inr hin
      · exact Or.inl (List.mem_singleton.mp heq)
    have h1 := Finset.card_le_card hsub
    have h2 := Finset.card_insert_le v op.toFinset
    rw [hun]
    simp only [List.length_nil]
    omega
  · have hun : (log.start v op.length).unresolved.length = 1 := by
      show ([v].filter (fun u => u ∉ log.resolved)).length = 1
      simp [hv]
    have hsub : (log.start v op.length).owed (op ++ [v]) ⊆ op.toFinset := by
      intro w hw
      obtain ⟨hop, hor⟩ := mem_owed.mp hw
      rw [List.mem_toFinset]
      rcases List.mem_append.mp hop with hin | heq
      · exact hin
      · have hwv : w = v := List.mem_singleton.mp heq
        subst hwv
        rcases hor with hc | hr
        · exact absurd (List.mem_singleton_self w) hc
        · exact absurd hr hv
    have h1 := Finset.card_le_card hsub
    omega

end AttemptLog
