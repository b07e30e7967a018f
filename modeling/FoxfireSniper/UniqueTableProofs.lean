import Mathlib.Data.List.Pairwise

/-! # A table with unique columns

    Rows are appended and changed in place.  A row has an identity, which a change keeps, and
    some identities exclude each other: those with a value in common in a unique column.  A
    table carries the proof that none of its rows exclude each other.

    * `insert_eq_none`: AN INSERTION FAILS exactly if a row stands against it.
    * **`Table.unique`**: rows that have something in common are the same row.
    * **`Extends.persists`**: a row that was there is found again later under what it had in
      common with the later one. -/

namespace UniqueTable

/-- What identifies a row, and which identities exclude each other. -/
structure Schema (ρ ι : Type) where
  identity : ρ → ι
  clash    : ι → ι → Bool
  symm     : ∀ a b, clash a b = clash b a

variable {ρ ι : Type} {S : Schema ρ ι}

/-- The rows exclude each other. -/
def Schema.excludes (S : Schema ρ ι) (r s : ρ) : Bool := S.clash (S.identity r) (S.identity s)

structure Table (S : Schema ρ ι) where
  rows     : List ρ
  distinct : rows.Pairwise fun r s => S.excludes r s = false

namespace Table

theorem insert_distinct {t : Table S} {x : ρ}
    (h : t.rows.all (fun r => !S.excludes r x) = true) :
    (t.rows ++ [x]).Pairwise fun r s => S.excludes r s = false := by
  refine List.pairwise_append.mpr ⟨t.distinct, List.pairwise_singleton .., ?_⟩
  intro r hr s hs
  obtain rfl := List.mem_singleton.mp hs
  have hfree := List.all_eq_true.mp h r hr
  rwa [Bool.not_eq_true'] at hfree

/-- An insertion fails if a row stands against it. -/
def insert (t : Table S) (x : ρ) : Option (Table S) :=
  if h : t.rows.all (fun r => !S.excludes r x) = true then
    some ⟨t.rows ++ [x], insert_distinct h⟩
  else none

/-- Rows are changed where they stand. -/
def change (t : Table S) (f : ρ → ρ) (hf : ∀ r, S.identity (f r) = S.identity r) : Table S where
  rows := t.rows.map f
  distinct := by
    refine t.distinct.map f ?_
    intro r s h
    show S.clash (S.identity (f r)) (S.identity (f s)) = false
    rw [hf, hf]
    exact h

theorem insert_eq_some {t t' : Table S} {x : ρ} (h : t.insert x = some t') :
    t'.rows = t.rows ++ [x] := by
  rw [insert] at h
  split at h
  · obtain rfl := Option.some.inj h
    rfl
  · cases h

theorem insert_eq_none {t : Table S} {x : ρ} :
    t.insert x = none ↔ ∃ r ∈ t.rows, S.excludes r x = true := by
  rw [insert]
  split
  · next h =>
      refine ⟨fun h => (by cases h), ?_⟩
      rintro ⟨r, hr, hx⟩
      have hfree := List.all_eq_true.mp h r hr
      rw [hx] at hfree
      cases hfree
  · next h =>
      refine ⟨fun _ => ?_, fun _ => rfl⟩
      rw [Bool.not_eq_true, List.all_eq_false] at h
      obtain ⟨r, hr, hx⟩ := h
      refine ⟨r, hr, ?_⟩
      simpa using hx

/-- **ROWS THAT HAVE SOMETHING IN COMMON** are the same row. -/
theorem unique {t : Table S} {r s : ρ} (hr : r ∈ t.rows) (hs : s ∈ t.rows)
    (h : S.excludes r s = true) : r = s := by
  by_contra hne
  have hsymm : Std.Symm fun r s => S.excludes r s = false :=
    ⟨fun r s h => (S.symm (S.identity s) (S.identity r)).trans h⟩
  have hfree := t.distinct.forall hr hs hne
  rw [h] at hfree
  cases hfree

end Table

-- ── Later tables ────────────────────────────────────────────────────────────

/-- The rows of a table are there later, in their places. -/
def Extends (t t' : Table S) : Prop := t.rows.map S.identity <+: t'.rows.map S.identity

namespace Extends

theorem refl (t : Table S) : Extends t t := List.prefix_refl _

theorem trans {t t' t'' : Table S} (h : Extends t t') (h' : Extends t' t'') : Extends t t'' :=
  List.IsPrefix.trans h h'

theorem insert {t t' : Table S} {x : ρ} (h : t.insert x = some t') : Extends t t' := by
  rw [Extends, Table.insert_eq_some h, List.map_append]
  exact List.prefix_append _ _

theorem change {t : Table S} {f : ρ → ρ} {hf : ∀ r, S.identity (f r) = S.identity r} :
    Extends t (t.change f hf) := by
  have hmap : (t.rows.map f).map S.identity = t.rows.map S.identity := by
    rw [List.map_map]
    exact List.map_congr_left fun r _ => hf r
  refine ⟨[], ?_⟩
  rw [List.append_nil]
  exact hmap.symm

/-- A row keeps its identity. -/
theorem keeps {t t' : Table S} (h : Extends t t') {r : ρ} (hr : r ∈ t.rows) :
    ∃ r' ∈ t'.rows, S.identity r' = S.identity r :=
  List.mem_map.mp (h.subset (List.mem_map_of_mem hr))

/-- **A ROW IS FOUND AGAIN**: what has something in common with it later has its identity. -/
theorem persists {t t' : Table S} (h : Extends t t') {r r' : ρ} (hr : r ∈ t.rows)
    (hr' : r' ∈ t'.rows) (hclash : S.excludes r r' = true) : S.identity r = S.identity r' := by
  obtain ⟨r'', hr'', hid⟩ := h.keeps hr
  have hsame : S.excludes r'' r' = true := by
    rw [Schema.excludes, hid]
    exact hclash
  rw [← hid, Table.unique hr'' hr' hsame]

end Extends

end UniqueTable
