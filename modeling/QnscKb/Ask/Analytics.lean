import QnscKb.Ask.Context
import QnscKb.Ask.Numbers

/-!
# Ask — Analytics

`execute_analytics_plan` (`src/domain/evidence_analytics.py`) up to the numbers it computes over,
beside the numbers a chart of the same table shows (`build_chart_artifact`).
-/

namespace QnscKb.Ask

structure RowFilter where
  column : Text
  equals : Text

/-- `AnalyticsPlan`, an operation over one column. -/
structure AnalyticsPlan where
  column : Text
  filters : List RowFilter

/-- `index_by_name.get`: of two columns of one name the last. -/
def indexByName (columns : List Text) (name : Text) : Option Nat :=
  if columns.contains name then some (columns.length - 1 - columns.reverse.idxOf name) else none

def keepRow (columns : List Text) : List RowFilter → List (Option Text) → Except Text Bool
  | [], _ => .ok true
  | rule :: rules, row =>
    match indexByName columns rule.column with
    | none => .error ("unknown filter column: ".toList ++ rule.column)
    | some index =>
      if row[index]?.any fun cell => cellText cell = rule.equals then keepRow columns rules row
      else .ok false

def filteredRows (columns : List Text) (rules : List RowFilter) :
    Nat → List (List (Option Text)) → Except Text (List (Nat × List (Option Text)))
  | _, [] => .ok []
  | index, row :: rows => do
    let keep ← keepRow columns rules row
    let filtered ← filteredRows columns rules (index + 1) rows
    return if keep then (index, row) :: filtered else filtered

/-- `parse_decimal(row[column_index])`; `none` where the cell is skipped. -/
def readCell (row : List (Option Text)) (index : Nat) : Option ℚ :=
  row[index]?.bind fun cell => parseDecimal (cell.getD [])

/-- The `numeric` of `execute_analytics_plan`. -/
def numericCells (plan : AnalyticsPlan) (table : Table) (maxRows : Nat) :
    Except Text (List (Nat × ℚ)) :=
  if maxRows < table.rows.length then .error "table exceeds the analytics row limit".toList
  else do
    let filtered ← filteredRows table.columns plan.filters 0 table.rows
    match indexByName table.columns plan.column with
    | none => .error ("unknown numeric column: ".toList ++ plan.column)
    | some index => return filtered.filterMap fun (row, cells) => (readCell cells index).map (row, ·)

/-- The numbers of a column in a chart of at most `maxPoints` rows. -/
def chartReading (N : Numerals) (table : Table) (maxPoints : Nat) (name : Text) : List (Option ℚ) :=
  columnValues N (columnCells (table.rows.take maxPoints) (table.columns.idxOf name))

/-! ### The same numbers -/

def Kept (plan : AnalyticsPlan) (table : Table) (row : Nat) : Prop :=
  ∃ cells, table.rows[row]? = some cells ∧ keepRow table.columns plan.filters cells = .ok true

def columnCell (plan : AnalyticsPlan) (table : Table) (row : Nat) : Option Text :=
  (table.rows.getD row []).getD (table.columns.idxOf plan.column) none

/-- What the plan computes over are, of the rows a chart shows and the filters keep, the numbers the
chart shows. -/
def SameNumbers (N : Numerals) (plan : AnalyticsPlan) (table : Table) (maxPoints : Nat)
    (numeric : List (Nat × ℚ)) : Prop :=
  ∀ row < maxPoints, ∀ value, (row, value) ∈ numeric ↔
    Kept plan table row ∧ (chartReading N table maxPoints plan.column)[row]? = some (some value)

theorem mem_filteredRows {columns : List Text} {rules : List RowFilter}
    {rows : List (List (Option Text))} {start : Nat} {filtered : List (Nat × List (Option Text))}
    (h : filteredRows columns rules start rows = .ok filtered) (row : Nat)
    (cells : List (Option Text)) : (row, cells) ∈ filtered ↔
      ∃ place, row = start + place ∧ rows[place]? = some cells ∧
        keepRow columns rules cells = .ok true := by
  induction rows generalizing start filtered with
  | nil =>
    obtain rfl := Except.ok.inj h
    simp
  | cons first rows ih =>
    cases hkeep : keepRow columns rules first with
    | error message =>
      rw [filteredRows, hkeep] at h
      cases h
    | ok keep =>
      cases hrest : filteredRows columns rules (start + 1) rows with
      | error message =>
        rw [filteredRows, hkeep, hrest] at h
        cases h
      | ok rest =>
        rw [filteredRows, hkeep, hrest] at h
        obtain rfl := Except.ok.inj h
        have htail : (row, cells) ∈ rest ↔ ∃ place, row = start + (place + 1) ∧
            (first :: rows)[place + 1]? = some cells ∧ keepRow columns rules cells = .ok true := by
          rw [ih hrest]
          simp only [List.getElem?_cons_succ, Nat.add_assoc, Nat.add_comm 1]
        have hsplit : (∃ place, row = start + place ∧ (first :: rows)[place]? = some cells ∧
            keepRow columns rules cells = .ok true) ↔
              (row, cells) = (start, first) ∧ keep = true ∨ (row, cells) ∈ rest := by
          rw [htail]
          constructor
          · rintro ⟨_ | place, hrow, hcells, hkept⟩
            · obtain rfl := Option.some.inj hcells
              exact .inl ⟨Prod.ext hrow rfl, Except.ok.inj (hkeep.symm.trans hkept)⟩
            · exact .inr ⟨place, hrow, hcells, hkept⟩
          · rintro (⟨heq, hkept⟩ | ⟨place, hplace⟩)
            · obtain ⟨rfl, rfl⟩ := Prod.mk.inj heq
              exact ⟨0, rfl, rfl, hkept ▸ hkeep⟩
            · exact ⟨place + 1, hplace⟩
        rw [hsplit]
        cases keep with
        | true => simp
        | false => simp

theorem indexByName_eq {columns : List Text} {name : Text} (h : columns.count name = 1) :
    indexByName columns name = some (columns.idxOf name) := by
  have hmem : name ∈ columns := List.count_pos_iff.mp (by omega)
  obtain ⟨before, after, rfl⟩ := List.append_of_mem hmem
  rw [List.count_append, List.count_cons_self] at h
  have hbefore : name ∉ before := List.count_eq_zero.mp (by omega)
  have hafter : name ∉ after.reverse := by
    rw [List.mem_reverse]
    exact List.count_eq_zero.mp (by omega)
  rw [indexByName, if_pos (List.contains_iff_mem.mpr hmem), List.reverse_append, List.reverse_cons,
    List.append_assoc, List.singleton_append, List.idxOf_append_of_notMem hafter,
    List.idxOf_append_of_notMem hbefore,
    List.idxOf_cons_self, List.idxOf_cons_self, List.length_append, List.length_cons,
    List.length_reverse]
  congr 1
  omega

theorem parseDecimal_cell (cell : Option Text) :
    parseDecimal (cellStripped cell) = parseDecimal (cell.getD []) := by
  cases cell with
  | none => rfl
  | some t => exact parseDecimal_strip t

theorem readCell_eq (row : List (Option Text)) (index : Nat) :
    readCell row index = parseDecimal (cellStripped (row.getD index none)) := by
  rw [readCell, parseDecimal_cell, List.getD_eq_getElem?_getD]
  cases row[index]? with
  | none => rfl
  | some cell => rfl

theorem columnValues_cell (N : Numerals) {cells : List (Option Text)} {cell : Option Text}
    (hcell : cell ∈ cells) :
    (parseDecimal (if dotsAreThousands N cells then ungrouped (cellStripped cell)
        else cellStripped cell) = parseDecimal (cellStripped cell)) ↔
      (dotsAreThousands N cells = true → ¬ReadsApart (cellStripped cell)) := by
  cases hdots : dotsAreThousands N cells with
  | false => exact iff_of_true rfl nofun
  | true =>
    rw [forall_prop_of_true rfl]
    by_cases hdot : '.' ∈ cellStripped cell
    · rw [dotsAreThousands, Bool.and_eq_true, List.all_eq_true] at hdots
      refine parseDecimal_readsApart (hdots.2 _ (List.mem_filter.mpr ⟨?_, ?_⟩))
      · exact List.mem_map_of_mem hcell
      · exact List.contains_iff_mem.mpr hdot
    · rw [ungrouped, if_neg hdot]
      exact iff_of_true rfl fun hapart => hdot hapart.1

theorem chartReading_row (N : Numerals) (plan : AnalyticsPlan) {table : Table} {maxPoints row : Nat}
    (hrow : row < maxPoints) {cells : List (Option Text)} (hcells : table.rows[row]? = some cells) :
    columnCell plan table row ∈
        columnCells (table.rows.take maxPoints) (table.columns.idxOf plan.column) ∧
      (chartReading N table maxPoints plan.column)[row]? = some (parseDecimal
        (if dotsAreThousands N
            (columnCells (table.rows.take maxPoints) (table.columns.idxOf plan.column))
          then ungrouped (cellStripped (columnCell plan table row))
          else cellStripped (columnCell plan table row))) := by
  have hget : (columnCells (table.rows.take maxPoints) (table.columns.idxOf plan.column))[row]? =
      some (columnCell plan table row) := by
    rw [columnCells, List.getElem?_map, List.getElem?_take_of_lt hrow, hcells, columnCell,
      List.getD_eq_getElem?_getD (l := table.rows), hcells]
    rfl
  refine ⟨List.mem_of_getElem? hget, ?_⟩
  rw [chartReading, columnValues, List.getElem?_map, hget]
  rfl

theorem mem_numericCells {plan : AnalyticsPlan} {table : Table} {maxRows : Nat}
    {numeric : List (Nat × ℚ)} (honce : table.columns.count plan.column = 1)
    (h : numericCells plan table maxRows = .ok numeric) (row : Nat) (value : ℚ) :
    (row, value) ∈ numeric ↔ Kept plan table row ∧
      parseDecimal (cellStripped (columnCell plan table row)) = some value := by
  rw [numericCells, indexByName_eq honce] at h
  split at h
  · cases h
  · cases hfiltered : filteredRows table.columns plan.filters 0 table.rows with
    | error message =>
      rw [hfiltered] at h
      cases h
    | ok filtered =>
      rw [hfiltered] at h
      obtain rfl := Except.ok.inj h
      rw [List.mem_filterMap]
      constructor
      · rintro ⟨⟨place, cells⟩, hin, hread⟩
        obtain ⟨number, hnumber, heq⟩ := Option.map_eq_some_iff.mp hread
        obtain ⟨rfl, rfl⟩ := Prod.mk.inj heq
        obtain ⟨_, rfl, hcells, hkeep⟩ := (mem_filteredRows hfiltered _ cells).mp hin
        rw [Nat.zero_add] at *
        refine ⟨⟨cells, hcells, hkeep⟩, ?_⟩
        rw [readCell_eq] at hnumber
        rw [columnCell, List.getD_eq_getElem?_getD (l := table.rows), hcells]
        exact hnumber
      · rintro ⟨⟨cells, hcells, hkeep⟩, hread⟩
        refine ⟨(row, cells), (mem_filteredRows hfiltered row cells).mpr
          ⟨row, (Nat.zero_add row).symm, hcells, hkeep⟩, ?_⟩
        rw [columnCell, List.getD_eq_getElem?_getD (l := table.rows), hcells] at hread
        dsimp only
        rw [readCell_eq]
        exact Option.map_eq_some_iff.mpr ⟨value, hread, rfl⟩

/-- **When a plan and a chart read the same numbers from a column.**  They part where the chart
takes the column's dots for thousands separators and a kept cell has no comma to say so. -/
theorem same_numbers_iff (N : Numerals) (plan : AnalyticsPlan) (table : Table)
    (maxRows maxPoints : Nat) (numeric : List (Nat × ℚ))
    (honce : table.columns.count plan.column = 1)
    (hnumeric : numericCells plan table maxRows = .ok numeric) :
    SameNumbers N plan table maxPoints numeric ↔
      (dotsAreThousands N
          (columnCells (table.rows.take maxPoints) (table.columns.idxOf plan.column)) = true →
        ∀ row < maxPoints, Kept plan table row →
          ¬ReadsApart (cellStripped (columnCell plan table row))) := by
  have hrow : ∀ row < maxPoints, (∀ value, (row, value) ∈ numeric ↔ Kept plan table row ∧
        (chartReading N table maxPoints plan.column)[row]? = some (some value)) ↔
      (Kept plan table row → dotsAreThousands N
          (columnCells (table.rows.take maxPoints) (table.columns.idxOf plan.column)) = true →
        ¬ReadsApart (cellStripped (columnCell plan table row))) := by
    intro row hlt
    by_cases hkept : Kept plan table row
    · obtain ⟨cells, hcells, -⟩ := id hkept
      obtain ⟨hin, hchart⟩ := chartReading_row N plan hlt hcells
      rw [forall_prop_of_true hkept, ← columnValues_cell N hin, hchart]
      simp only [mem_numericCells honce hnumeric, hkept, true_and, Option.some_inj]
      constructor
      · intro hsame
        exact (Option.ext fun value => hsame value).symm
      · intro hsame value
        rw [hsame]
    · refine iff_of_true (fun value => iff_of_false (fun hin => ?_) fun h => hkept h.1)
        fun h => absurd h hkept
      exact hkept ((mem_numericCells honce hnumeric row value).mp hin).1
  constructor
  · intro hsame hdots row hlt hkept
    exact (hrow row hlt).mp (hsame row hlt) hkept hdots
  · intro h row hlt
    exact (hrow row hlt).mpr fun hkept hdots => h hdots row hlt hkept

def revenueTable (first second : Text) : Table where
  id := ['t']
  label := ['T']
  source := 1
  columns := ["Quarter".toList, "Revenue".toList]
  rows := [[some "Q1".toList, some first], [some "Q2".toList, some second]]

def revenuePlan : AnalyticsPlan := ⟨"Revenue".toList, []⟩

/-- A column with a lone decimal point is read as it is by both. -/
theorem same_numbers_mixed :
    SameNumbers asciiNumerals revenuePlan (revenueTable "1.234".toList "12.5".toList) 60
      [(0, 1234 / 1000), (1, 125 / 10)] :=
  (same_numbers_iff asciiNumerals revenuePlan (revenueTable "1.234".toList "12.5".toList) 500 60
    [(0, 1234 / 1000), (1, 125 / 10)] (by decide) (by decide +kernel)).mpr
      fun hdots => absurd hdots (by decide)

/-- A column in thousands: the chart shows 1234 and 1800, the plan computes over 1.234 and 1.8. -/
theorem thousands_read_apart :
    let table := revenueTable "1.234".toList "1.800".toList
    numericCells revenuePlan table 500 = .ok [(0, 1234 / 1000), (1, 18 / 10)] ∧
      chartReading asciiNumerals table 60 "Revenue".toList = [some 1234, some 1800] ∧
      ¬SameNumbers asciiNumerals revenuePlan table 60 [(0, 1234 / 1000), (1, 18 / 10)] := by
  have hchart : chartReading asciiNumerals (revenueTable "1.234".toList "1.800".toList) 60
      "Revenue".toList = [some 1234, some 1800] := by decide +kernel
  refine ⟨by decide +kernel, hchart, fun hsame => ?_⟩
  have hread := (hsame 0 (by decide) 1234).mpr ⟨⟨_, rfl, rfl⟩, hchart ▸ rfl⟩
  exact absurd hread (by decide +kernel)

end QnscKb.Ask
