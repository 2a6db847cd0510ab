import Mathlib.Data.List.Nodup

/-!
# Where — conjunctions of row predicates

A `WHERE` clause is a list of row predicates; a row is admitted when every conjunct holds.  `select`
is the rows of a table a clause admits, `total` their number and `page` one page of them.  `meets`
is `bool(a & b)` on two lists read as sets.
-/

namespace QnscKb.Where

variable {ρ σ : Type}

/-- The conjunction of the filters, read at one row. -/
def admits (fs : List (ρ → Bool)) (row : ρ) : Bool :=
  fs.all fun f => f row

@[simp] theorem admits_nil (row : ρ) : admits [] row = true := rfl

@[simp] theorem admits_cons (f : ρ → Bool) (fs : List (ρ → Bool)) (row : ρ) :
    admits (f :: fs) row = (f row && admits fs row) := rfl

@[simp] theorem admits_append (fs gs : List (ρ → Bool)) (row : ρ) :
    admits (fs ++ gs) row = (admits fs row && admits gs row) := by
  simp [admits, List.all_append]

variable {rows table : List ρ}

variable {row : ρ}

theorem find?_key {κ : Type} [DecidableEq κ] {key : ρ → κ} (h : (rows.map key).Nodup)
    (hmem : row ∈ rows) : rows.find? (fun r => key r == key row) = some row := by
  cases hfind : rows.find? fun r => key r == key row with
  | none => exact absurd (List.find?_eq_none.mp hfind row hmem) (by simp)
  | some r =>
    have hkey : key r = key row := by simpa using List.find?_some hfind
    rw [List.inj_on_of_nodup_map h (List.mem_of_find?_eq_some hfind) hmem hkey]

theorem find?_key_and {κ : Type} [DecidableEq κ] {key : ρ → κ} (h : (rows.map key).Nodup)
    (hmem : row ∈ rows) (p : ρ → Bool) :
    rows.find? (fun r => key r == key row && p r) = if p row then some row else none := by
  cases hfind : rows.find? fun r => key r == key row && p r with
  | none =>
    have hnot := List.find?_eq_none.mp hfind row hmem
    rw [beq_self_eq_true, Bool.true_and] at hnot
    rw [if_neg hnot]
  | some r =>
    have hfound := List.find?_some hfind
    rw [Bool.and_eq_true, beq_iff_eq] at hfound
    obtain rfl := List.inj_on_of_nodup_map h (List.mem_of_find?_eq_some hfind) hmem hfound.1
    rw [if_pos hfound.2]

/-! ### Tables -/

/-- The rows of a table the filters admit, in the table's order. -/
def select (fs : List (ρ → Bool)) (table : List ρ) : List ρ :=
  table.filter (admits fs)

/-- `SELECT count(*)`. -/
def total (fs : List (ρ → Bool)) (table : List ρ) : Nat :=
  (select fs table).length

variable {fs : List (ρ → Bool)}

theorem mem_select : row ∈ select fs table ↔ row ∈ table ∧ admits fs row = true := by
  simp [select, List.mem_filter]

theorem total_eq_countP (fs : List (ρ → Bool)) (table : List ρ) :
    total fs table = table.countP (admits fs) := by
  simp [total, select, List.countP_eq_length_filter]

theorem total_le_total {gs : List (ρ → Bool)}
    (h : ∀ row ∈ table, admits fs row = true → admits gs row = true) :
    total fs table ≤ total gs table := by
  rw [total_eq_countP, total_eq_countP]
  exact List.countP_mono_left h

theorem total_le_total_iff (fs gs : List (ρ → Bool)) (table : List ρ) :
    total fs table ≤ total gs table ↔
      table.countP (fun row => admits fs row && !admits gs row) ≤
        table.countP (fun row => admits gs row && !admits fs row) := by
  rw [total_eq_countP, total_eq_countP]
  have hsplit : ∀ p q : ρ → Bool, table.countP p =
      table.countP (fun row => p row && q row) + table.countP (fun row => p row && !q row) := by
    intro p q
    induction table with
    | nil => rfl
    | cons row rows ih =>
      simp only [List.countP_cons]
      cases p row <;> cases q row <;> simp <;> omega
  have hcomm : table.countP (fun row => admits fs row && admits gs row) =
      table.countP (fun row => admits gs row && admits fs row) :=
    congrArg (fun p => table.countP p) (funext fun row => Bool.and_comm _ _)
  rw [hsplit (admits fs) (admits gs), hsplit (admits gs) (admits fs)]
  omega

theorem total_eq_total_iff (fs gs : List (ρ → Bool)) (table : List ρ) :
    total fs table = total gs table ↔
      table.countP (fun row => admits fs row && !admits gs row) =
        table.countP (fun row => admits gs row && !admits fs row) := by
  have hle := total_le_total_iff fs gs table
  have hge := total_le_total_iff gs fs table
  omega

theorem total_eq_iff_of_imp {gs : List (ρ → Bool)}
    (h : ∀ row ∈ table, admits fs row = true → admits gs row = true) :
    total fs table = total gs table ↔
      ∀ row ∈ table, admits gs row = true → admits fs row = true := by
  have hnone : table.countP (fun row => admits fs row && !admits gs row) = 0 := by
    rw [List.countP_eq_zero]
    intro row hrow hboth
    rw [Bool.and_eq_true] at hboth
    rw [h row hrow hboth.1] at hboth
    exact Bool.noConfusion hboth.2
  rw [total_eq_total_iff, hnone, eq_comm, List.countP_eq_zero]
  refine forall₂_congr fun row _ => ?_
  cases admits fs row <;> cases admits gs row <;> simp

theorem select_filter (fs : List (ρ → Bool)) (p : ρ → Bool) (table : List ρ) :
    (select fs table).filter p = select (fs ++ [p]) table := by
  rw [select, List.filter_filter]
  refine List.filter_congr fun row _ => ?_
  rw [admits_append, admits_cons, admits_nil, Bool.and_true, Bool.and_comm]

/-- `LIMIT limit OFFSET offset`. -/
def page (limit offset : Nat) (rows : List ρ) : List ρ :=
  (rows.drop offset).take limit

theorem exists_mem_page {limit : Nat} (h : 0 < limit) :
    (∃ offset, row ∈ page limit offset rows) ↔ row ∈ rows := by
  constructor
  · rintro ⟨offset, hm⟩
    exact List.mem_of_mem_drop (List.mem_of_mem_take hm)
  · intro hm
    obtain ⟨i, hi, rfl⟩ := List.mem_iff_getElem.mp hm
    refine ⟨i, ?_⟩
    rw [page, List.drop_eq_getElem_cons hi]
    obtain ⟨n, rfl⟩ := Nat.exists_eq_succ_of_ne_zero (Nat.pos_iff_ne_zero.mp h)
    exact List.mem_cons_self

/-! ### Sets as lists -/

section Meets

variable [DecidableEq ρ]

/-- `bool(a & b)`. -/
def meets (a b : List ρ) : Bool :=
  a.any fun x => b.contains x

variable {a b : List ρ}

theorem meets_iff : meets a b = true ↔ ∃ x, x ∈ a ∧ x ∈ b := by
  simp [meets]

@[simp] theorem meets_nil_left (b : List ρ) : meets [] b = false := rfl

theorem meets_comm (a b : List ρ) : meets a b = meets b a := by
  rw [Bool.eq_iff_iff, meets_iff, meets_iff]
  exact ⟨fun ⟨x, ha, hb⟩ => ⟨x, hb, ha⟩, fun ⟨x, hb, ha⟩ => ⟨x, ha, hb⟩⟩

theorem meets_mono_left {a' : List ρ} (h : ∀ x ∈ a, x ∈ a') (hm : meets a b = true) :
    meets a' b = true := by
  obtain ⟨x, ha, hb⟩ := meets_iff.mp hm
  exact meets_iff.mpr ⟨x, h x ha, hb⟩

theorem meets_congr_right {b' : List ρ} (h : ∀ x, x ∈ b ↔ x ∈ b') : meets a b = meets a b' := by
  rw [Bool.eq_iff_iff, meets_iff, meets_iff]
  exact ⟨fun ⟨x, ha, hb⟩ => ⟨x, ha, (h x).mp hb⟩, fun ⟨x, ha, hb⟩ => ⟨x, ha, (h x).mpr hb⟩⟩

end Meets

end QnscKb.Where
