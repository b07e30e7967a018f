import Mathlib.Data.Finset.Card
import Mathlib.Data.List.Induction
import Mathlib.Data.List.Nodup

/-! # FIFO windows — what a bounded "seen already?" memory remembers

    A window of capacity `cap` records arrivals.  An arrival that it holds already
    leaves it alone; a new one is appended, at the price of the oldest entry when
    the window is full.

    * `record` is one arrival, `recent` is a whole list of arrivals.
    * `mem_record_iff`: ONE ARRIVAL ONLY EVER LOSES THE OLDEST ENTRY.
    * `nodup_record`, `mem_of_mem_recent`: the window holds arrivals, each once.
    * `capacity_le_recorded`: AN ENTRY IS ONLY LOST TO `cap` DIFFERENT ONES recorded
      after it. -/

namespace FifoWindow

variable {α : Type}

/-- Make room for one more entry: a full window gives up its oldest one. -/
def evict (cap : Nat) (w : List α) : List α :=
  if w.length = cap then w.tail else w

theorem evict_sublist (cap : Nat) (w : List α) : (evict cap w).Sublist w := by
  by_cases h : w.length = cap
  · rw [evict, if_pos h]
    exact List.tail_sublist w
  · rw [evict, if_neg h]

/-- Making room leaves the newest entries in place, if they are fewer than the capacity. -/
theorem suffix_evict {cap : Nat} {s w : List α} (h : s <:+ w) (hlen : s.length < cap) :
    s <:+ evict cap w := by
  rw [evict]
  split
  · next hfull =>
      obtain ⟨older, rfl⟩ := h
      cases older with
      | nil =>
          rw [List.nil_append] at hfull
          exact absurd hfull (Nat.ne_of_lt hlen)
      | cons o older => exact ⟨older, rfl⟩
  · exact h

variable [DecidableEq α]

/-- One arrival. -/
def record (cap : Nat) (w : List α) (x : α) : List α :=
  if x ∈ w then w else evict cap w ++ [x]

/-- What the window holds after these arrivals. -/
def recent (cap : Nat) (xs : List α) : List α :=
  xs.foldl (record cap) []

variable {cap : Nat} {w : List α} {x y : α}

theorem recent_concat (xs : List α) (x : α) :
    recent cap (xs ++ [x]) = record cap (recent cap xs) x := by
  simp [recent]

theorem record_of_mem (h : x ∈ w) : record cap w x = w := if_pos h

theorem record_of_not_mem (h : x ∉ w) : record cap w x = evict cap w ++ [x] := if_neg h

/-- What is in the window after an arrival: the arrival, and what the eviction left. -/
theorem mem_record_iff :
    y ∈ record cap w x ↔ y = x ∨ (y ∈ w ∧ (x ∈ w ∨ y ∈ evict cap w)) := by
  by_cases h : x ∈ w
  · rw [record_of_mem h]
    constructor
    · intro hy
      exact .inr ⟨hy, .inl h⟩
    · rintro (rfl | ⟨hy, -⟩)
      · exact h
      · exact hy
  · rw [record_of_not_mem h, List.mem_append, List.mem_singleton]
    constructor
    · rintro (hy | rfl)
      · exact .inr ⟨(evict_sublist cap w).mem hy, .inr hy⟩
      · exact .inl rfl
    · rintro (rfl | ⟨-, hx | hy⟩)
      · exact .inr rfl
      · exact absurd hx h
      · exact .inl hy

/-- Each arrival is held at most once. -/
theorem nodup_record (h : w.Nodup) : (record cap w x).Nodup := by
  by_cases hx : x ∈ w
  · rw [record_of_mem hx]
    exact h
  · rw [record_of_not_mem hx]
    have hsub := evict_sublist cap w
    have hx' : x ∉ evict cap w := fun hm => hx (hsub.mem hm)
    rw [← List.concat_eq_append]
    exact (hsub.nodup h).concat hx'

/-- The window holds nothing but arrivals. -/
theorem mem_of_mem_recent {xs : List α} (h : y ∈ recent cap xs) : y ∈ xs := by
  induction xs using List.reverseRecOn with
  | nil => cases h
  | append_singleton xs x ih =>
      rw [recent_concat, mem_record_iff] at h
      rcases h with rfl | ⟨hy, -⟩
      · simp
      · exact List.mem_append_left _ (ih hy)

-- ── How long an entry stays ─────────────────────────────────────────────────

/-- The arrivals that are new to the window when they come, in order. -/
def recorded (cap : Nat) : List α → List α → List α
  | _, []      => []
  | w, x :: xs => if x ∈ w then recorded cap w xs else x :: recorded cap (record cap w x) xs

theorem recorded_of_mem {xs : List α} (h : x ∈ w) :
    recorded cap w (x :: xs) = recorded cap w xs := if_pos h

theorem recorded_of_not_mem {xs : List α} (h : x ∉ w) :
    recorded cap w (x :: xs) = x :: recorded cap (record cap w x) xs := if_neg h

/-- A new arrival pushes out an entry that is the oldest of a full window; any other entry
    has one more behind it. -/
theorem record_pushes (cap : Nat) {older newer : List α} (hw : w = older ++ y :: newer) (hx : x ∉ w) :
    cap = newer.length + 1 ∨
      ∃ older', record cap w x = older' ++ y :: (newer ++ [x]) := by
  rw [record_of_not_mem hx, evict]
  split
  · next hfull =>
      cases older with
      | nil =>
          rw [hw] at hfull
          exact Or.inl hfull.symm
      | cons o older => exact Or.inr ⟨older, by rw [hw]; simp⟩
  · exact Or.inr ⟨older, by rw [hw]; simp⟩

/-- An entry that is lost had room for the `newer` entries behind it; the rest of the window
    was filled by different entries recorded since. -/
theorem capacity_le_recorded {xs : List α} :
    ∀ {w older newer : List α}, w = older ++ y :: newer → y ∉ xs.foldl (record cap) w →
      cap ≤ newer.length +
        ((recorded cap w xs).toFinset.filter fun z => z ∉ y :: newer).card := by
  induction xs with
  | nil =>
      intro w older newer hw hout
      exact absurd (by rw [hw]; simp) hout
  | cons x xs ih =>
      intro w older newer hw hout
      rw [List.foldl_cons] at hout
      by_cases hx : x ∈ w
      · rw [record_of_mem hx] at hout
        rw [recorded_of_mem hx]
        exact ih hw hout
      · have hnew : x ∉ y :: newer := by
          intro hmem
          rw [hw] at hx
          exact hx (List.mem_append_right _ hmem)
        have hmem : x ∈ (recorded cap w (x :: xs)).toFinset.filter fun z => z ∉ y :: newer := by
          rw [recorded_of_not_mem hx, Finset.mem_filter, List.mem_toFinset]
          exact ⟨List.mem_cons_self, hnew⟩
        rcases record_pushes cap hw hx with hcap | ⟨older', hstays⟩
        · rw [hcap]
          refine Nat.add_le_add_left ?_ _
          rw [← hcap]
          exact Finset.card_pos.mpr ⟨x, hmem⟩
        · have hrest := ih hstays hout
          rw [List.length_append, List.length_singleton] at hrest
          -- what was recorded later is counted, and `x` besides
          have hsub : insert x ((recorded cap (record cap w x) xs).toFinset.filter
                fun z => z ∉ y :: (newer ++ [x])) ⊆
              (recorded cap w (x :: xs)).toFinset.filter fun z => z ∉ y :: newer := by
            intro z hz
            rcases Finset.mem_insert.mp hz with rfl | hz
            · exact hmem
            · obtain ⟨hlater, hnot⟩ := Finset.mem_filter.mp hz
              rw [recorded_of_not_mem hx, Finset.mem_filter, List.mem_toFinset]
              refine ⟨List.mem_cons_of_mem x (List.mem_toFinset.mp hlater), ?_⟩
              intro hold
              refine hnot ?_
              rw [← List.cons_append]
              exact List.mem_append_left _ hold
          have hcard := Finset.card_le_card hsub
          rw [Finset.card_insert_of_notMem ?_] at hcard
          · omega
          · intro hin
            refine (Finset.mem_filter.mp hin).2 ?_
            rw [← List.cons_append]
            exact List.mem_append_right _ (List.mem_singleton_self x)

end FifoWindow
