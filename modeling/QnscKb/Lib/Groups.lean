import Mathlib.Data.List.Dedup
import Mathlib.Data.List.Perm.Basic

/-!
# Groups — grouped counts of a table

`GROUP BY` a column with an aggregate over the rows of each group, and `count(DISTINCT …)` over
the rows of a join.
-/

namespace QnscKb.Groups

variable {ρ κ ι γ β : Type} [DecidableEq κ] [DecidableEq ι]

/-- `SELECT key, aggregate GROUP BY key`. -/
def groupBy (key : ρ → κ) (aggregate : List ρ → β) (rows : List ρ) : List (κ × β) :=
  (rows.map key).dedup.map fun k => (k, aggregate (rows.filter fun row => decide (key row = k)))

/-- `count(DISTINCT column)`. -/
def distinct (column : ρ → ι) (rows : List ρ) : Nat := (rows.map column).dedup.length

/-- The rows of a table, each with every child of it. -/
def joinEach (children : ρ → List γ) (rows : List ρ) : List (ρ × γ) :=
  rows.flatMap fun row => (children row).map fun child => (row, child)

section Group

variable {key : ρ → κ} {aggregate : List ρ → β} {rows : List ρ}

/-- One entry for each value of the column. -/
theorem mem_groupBy {k : κ} {value : β} : (k, value) ∈ groupBy key aggregate rows ↔
    (∃ row ∈ rows, key row = k) ∧
      value = aggregate (rows.filter fun row => decide (key row = k)) := by
  simp only [groupBy, List.mem_map, List.mem_dedup, Prod.mk.injEq]
  constructor
  · rintro ⟨k', ⟨row, hrow, rfl⟩, rfl, rfl⟩
    exact ⟨⟨row, hrow, rfl⟩, rfl⟩
  · rintro ⟨⟨row, hrow, rfl⟩, rfl⟩
    exact ⟨key row, ⟨row, hrow, rfl⟩, rfl, rfl⟩

theorem groupBy_keys_nodup : ((groupBy key aggregate rows).map Prod.fst).Nodup := by
  have hkeys : (groupBy key aggregate rows).map Prod.fst = (rows.map key).dedup := by
    rw [groupBy, List.map_map]
    exact List.map_id _
  rw [hkeys]
  exact List.nodup_dedup _

end Group

section Join

variable {children : ρ → List γ} {rows : List ρ}

theorem mem_joinEach {row : ρ} {child : γ} :
    (row, child) ∈ joinEach children rows ↔ row ∈ rows ∧ child ∈ children row := by
  simp only [joinEach, List.mem_flatMap, List.mem_map, Prod.mk.injEq]
  constructor
  · rintro ⟨row', hrow, child', hchild, rfl, rfl⟩
    exact ⟨hrow, hchild⟩
  · rintro ⟨hrow, hchild⟩
    exact ⟨row, hrow, child, hchild, rfl, rfl⟩

/-- Counting the different keys of a join counts the rows with a child. -/
theorem distinct_joinEach {column : ρ → ι} (h : (rows.map column).Nodup) (p : ρ × γ → Bool) :
    distinct (fun pair => column pair.1) ((joinEach children rows).filter p) =
      rows.countP fun row => (children row).any fun child => p (row, child) := by
  have hnodup : ((rows.filter fun row =>
      (children row).any fun child => p (row, child)).map column).Nodup :=
    h.sublist (List.filter_sublist.map column)
  have hperm : (((joinEach children rows).filter p).map fun pair => column pair.1).dedup.Perm
      ((rows.filter fun row => (children row).any fun child => p (row, child)).map column) := by
    refine (List.perm_ext_iff_of_nodup (List.nodup_dedup _) hnodup).mpr fun k => ?_
    simp only [List.mem_dedup, List.mem_map, List.mem_filter, List.any_eq_true]
    constructor
    · rintro ⟨⟨row, child⟩, ⟨hpair, hp⟩, rfl⟩
      obtain ⟨hrow, hchild⟩ := mem_joinEach.mp hpair
      exact ⟨row, ⟨hrow, child, hchild, hp⟩, rfl⟩
    · rintro ⟨row, ⟨hrow, child, hchild, hp⟩, rfl⟩
      exact ⟨(row, child), ⟨mem_joinEach.mpr ⟨hrow, hchild⟩, hp⟩, rfl⟩
  rw [distinct, hperm.length_eq, List.length_map, List.countP_eq_length_filter]

end Join

end QnscKb.Groups
