import Mathlib.Data.List.Dedup
import Mathlib.Data.List.Induction

/-! # A bounded list of the most recently used keys

    A key that is used comes to the front; when there are more than `cap`, the last one
    falls out.

    * **`touches_eq`**: what is left of any keys are the last `cap` different ones, the most
      recent first.
    * **`evicted_iff`**: a key is forgotten when `cap` different ones have been used since,
      and not before.
    * `Spaced`: `cap` different keys are used between two uses of a key, if only forgotten
      keys are used. -/

namespace Recency

variable {α : Type} [DecidableEq α]

/-- A key is used. -/
def touch (cap : Nat) (keys : List α) (k : α) : List α :=
  (k :: keys.filter fun x => x != k).take cap

/-- Keys are used one after the other, the first one first. -/
def touches (cap : Nat) (ks : List α) : List α := ks.foldl (touch cap) []

theorem touches_concat (cap : Nat) (ks : List α) (k : α) :
    touches cap (ks ++ [k]) = touch cap (touches cap ks) k := by
  rw [touches, List.foldl_append]
  rfl

/-- The last occurrence of a key is the one that counts. -/
theorem dedup_concat (ks : List α) (k : α) :
    (ks ++ [k]).dedup = (ks.dedup.filter fun x => x != k) ++ [k] := by
  induction ks with
  | nil => rfl
  | cons a ks ih =>
      rw [List.cons_append]
      by_cases hk : a = k
      · subst hk
        rw [List.dedup_cons_of_mem (List.mem_append_right ks List.mem_cons_self), ih]
        by_cases hmem : a ∈ ks
        · rw [List.dedup_cons_of_mem hmem]
        · rw [List.dedup_cons_of_notMem hmem, List.filter_cons_of_neg (by simp)]
      · by_cases hmem : a ∈ ks
        · rw [List.dedup_cons_of_mem (List.mem_append_left [k] hmem), ih,
            List.dedup_cons_of_mem hmem]
        · have hnot : a ∉ ks ++ [k] := by
            intro h
            rcases List.mem_append.mp h with h | h
            · exact hmem h
            · exact hk (List.mem_singleton.mp h)
          rw [List.dedup_cons_of_notMem hnot, ih, List.dedup_cons_of_notMem hmem,
            List.filter_cons_of_pos (by simpa using hk)]
          rfl

/-- Of different keys, one more than is to be left is enough to remove one from. -/
theorem take_filter_ne {k : α} : ∀ {l : List α} (m : Nat), l.Nodup →
    ((l.take (m + 1)).filter fun x => x != k).take m = (l.filter fun x => x != k).take m := by
  intro l
  induction l with
  | nil => intro m _; rfl
  | cons x l ih =>
      intro m hl
      obtain ⟨hx, hl⟩ := List.nodup_cons.mp hl
      rw [List.take_succ_cons]
      by_cases hk : x = k
      · subst hk
        have hnone : ∀ l' : List α, x ∉ l' → (l'.filter fun y => y != x) = l' := by
          intro l' hl'
          refine List.filter_eq_self.mpr ?_
          intro y hy
          have hne : y ≠ x := fun h => hl' (h ▸ hy)
          simpa using hne
        rw [List.filter_cons_of_neg (by simp), List.filter_cons_of_neg (by simp),
          hnone l hx, hnone _ (fun h => hx (List.mem_of_mem_take h)), List.take_take,
          Nat.min_self]
      · rw [List.filter_cons_of_pos (by simpa using hk),
          List.filter_cons_of_pos (by simpa using hk)]
        cases m with
        | zero => rfl
        | succ m => rw [List.take_succ_cons, List.take_succ_cons, ih m hl]

/-- **WHAT IS LEFT**: the last `cap` different keys. -/
theorem touches_eq (cap : Nat) (ks : List α) : touches cap ks = ks.dedup.reverse.take cap := by
  induction ks using List.reverseRecOn with
  | nil => rw [touches, List.foldl_nil, List.dedup_nil, List.reverse_nil, List.take_nil]
  | append_singleton ks k ih =>
      rw [touches_concat, ih, touch, dedup_concat, List.reverse_append, List.reverse_singleton,
        List.singleton_append]
      cases cap with
      | zero => rfl
      | succ cap =>
          rw [List.take_succ_cons, List.take_succ_cons,
            take_filter_ne cap (List.nodup_reverse.mpr (List.nodup_dedup ks)), List.filter_reverse]

/-- Keys used earlier do not come between a key and those used since. -/
theorem dedup_since {k : α} {since : List α} (hk : k ∉ since) (before : List α) :
    ∃ earlier, (before ++ k :: since).dedup = earlier ++ k :: since.dedup := by
  induction before with
  | nil => exact ⟨[], List.dedup_cons_of_notMem hk⟩
  | cons a before ih =>
      obtain ⟨earlier, heq⟩ := ih
      rw [List.cons_append]
      by_cases ha : a ∈ before ++ k :: since
      · rw [List.dedup_cons_of_mem ha]
        exact ⟨earlier, heq⟩
      · rw [List.dedup_cons_of_notMem ha, heq]
        exact ⟨a :: earlier, rfl⟩

/-- **WHEN A KEY IS FORGOTTEN**: after its last use, `cap` different keys have been used. -/
theorem evicted_iff {cap : Nat} {k : α} {before since : List α} (hk : k ∉ since) :
    k ∉ touches cap (before ++ k :: since) ↔ cap ≤ since.dedup.length := by
  obtain ⟨earlier, heq⟩ := dedup_since hk before
  have hlen : since.dedup.reverse.length = since.dedup.length := List.length_reverse
  rw [touches_eq, heq, List.reverse_append, List.reverse_cons, List.append_assoc,
    List.singleton_append, List.take_append, hlen]
  constructor
  · intro h
    by_contra hlt
    obtain ⟨m, hm⟩ := Nat.exists_eq_add_of_lt (Nat.not_le.mp hlt)
    refine h (List.mem_append_right _ ?_)
    rw [hm, Nat.add_assoc, Nat.add_sub_cancel_left, List.take_succ_cons]
    exact List.mem_cons_self
  · intro h hmem
    rw [Nat.sub_eq_zero_of_le h, List.take_zero, List.append_nil] at hmem
    have hin := List.mem_of_mem_take hmem
    rw [List.mem_reverse, List.mem_dedup] at hin
    exact hk hin

/-- Between a use of a key and the next one, `cap` different keys are used. -/
def Spaced (cap : Nat) (ks : List α) : Prop :=
  ∀ before k since after, ks = before ++ k :: since ++ k :: after → k ∉ since →
    cap ≤ since.dedup.length

theorem spaced_nil (cap : Nat) : Spaced cap ([] : List α) := by
  intro before k since after h
  simp at h

/-- A forgotten key is used. -/
theorem Spaced.concat {cap : Nat} {ks : List α} {k : α} (h : Spaced cap ks)
    (hk : k ∉ touches cap ks) : Spaced cap (ks ++ [k]) := by
  intro before x since after heq hx
  rcases List.eq_nil_or_concat after with rfl | ⟨after, y, rfl⟩
  · obtain ⟨rfl, hlast⟩ := List.append_inj' heq rfl
    obtain rfl := (List.cons.inj hlast).1
    exact (evicted_iff hx).mp hk
  · rw [List.concat_eq_append, ← List.cons_append, ← List.append_assoc] at heq
    obtain ⟨rfl, -⟩ := List.append_inj' heq rfl
    exact h before x since after rfl hx

end Recency
