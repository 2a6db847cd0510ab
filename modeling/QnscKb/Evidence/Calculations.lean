import QnscKb.Ask.Analytics
import QnscKb.Evidence.Tables

/-!
# Evidence — Calculations

A calculation over the evidence of a table (`execute_analytics_plan` of
`src/domain/evidence_analytics.py`), with numbers as rationals; how one is written is `fmt`.

Where the limits cut a source table, a calculation should say so (`Evidenced`).  Its warnings tell
of cells that are no numbers, and a count has none at all.
-/

namespace QnscKb.Evidence

open Ask (RowFilter indexByName filteredRows readCell)

/-! ### Plans -/

inductive Operation
  | count | sum | average | median | min | max | difference | percentageChange
  deriving DecidableEq

def Operation.compares : Operation → Bool
  | .difference | .percentageChange => true
  | _ => false

/-- An `AnalyticsPlan` that `validate_shape` let through. -/
structure AnalyticsPlan where
  operation : Operation
  evidenceId : Text
  column : Option Text
  filters : List RowFilter
  leftRow : Option Nat
  rightRow : Option Nat
  column_given : operation ≠ .count → ∃ name, column = some name ∧ name ≠ []
  rows_given : operation.compares = true → leftRow.isSome ∧ rightRow.isSome

structure Operand where
  label : Text
  row : Nat
  column : Option Text
  value : Text

structure Calculation where
  operation : Operation
  evidenceId : Text
  sourceId : Text
  column : Option Text
  operands : List Operand
  formula : Text
  result : Text
  rowsUsed : Nat
  warnings : List Text

/-! ### Operations -/

section Operations

variable (fmt : ℚ → Text)

/-- `f"{name}({count} values)"`. -/
def overValues (name : Text) (values : List ℚ) : Text :=
  name ++ "(".toList ++ Ask.decimal values.length ++ " values)".toList

/-- `sum(values, Decimal(0))`. -/
def summed (values : List ℚ) : ℚ := values.foldl (· + ·) 0

def medianOf (values : List ℚ) : ℚ :=
  let ordered := values.insertionSort (· ≤ ·)
  let middle := ordered.length / 2
  if ordered.length % 2 = 1 then ordered.getD middle 0
  else (ordered.getD (middle - 1) 0 + ordered.getD middle 0) / 2

def aggregated (values : List ℚ) : Operation → Except Text (ℚ × Text)
  | .sum => .ok (summed values, Text.join " + ".toList (values.map fmt))
  | .average => .ok (summed values / values.length,
      overValues "SUM".toList values ++ " / ".toList ++ Ask.decimal values.length)
  | .median => .ok (medianOf values, overValues "MEDIAN".toList values)
  | .min => .ok (values.min?.getD 0, overValues "MIN".toList values)
  | .max => .ok (values.max?.getD 0, overValues "MAX".toList values)
  | _ => .error "unsupported analytics operation".toList

def comparison (operation : Operation) (left right : ℚ) : Except Text (ℚ × Text) :=
  if operation = .difference then
    .ok (right - left, fmt right ++ " - ".toList ++ fmt left)
  else if left = 0 then .error "percentage change from zero is undefined".toList
  else .ok ((right - left) / |left| * 100,
    "((".toList ++ fmt right ++ " - ".toList ++ fmt left ++ ") / |".toList ++ fmt left ++
      "|) × 100".toList)

/-- `f"{plan.column} · row {row + 1}"` with its number. -/
def numberOperand (column : Option Text) (cell : Nat × ℚ) : Operand where
  label := Ask.cellText column ++ " · row ".toList ++ Ask.decimal (cell.1 + 1)
  row := cell.1
  column := column
  value := fmt cell.2

/-- The operands, the formula and the result of a plan over the numbers of its column. -/
def computed (plan : AnalyticsPlan) (numeric : List (Nat × ℚ)) :
    Except Text (List Operand × Text × ℚ) :=
  if plan.operation.compares then
    match plan.leftRow, plan.rightRow with
    | some leftRow, some rightRow =>
      match numeric.lookup leftRow, numeric.lookup rightRow with
      | some left, some right => do
        let (result, formula) ← comparison fmt plan.operation left right
        return ([(leftRow, left), (rightRow, right)].map (numberOperand fmt plan.column), formula,
          result)
      | _, _ => .error "comparison rows are not numeric or do not match filters".toList
    | _, _ => .error "comparison rows are not numeric or do not match filters".toList
  else do
    let (result, formula) ← aggregated fmt (numeric.map Prod.snd) plan.operation
    return (numeric.map (numberOperand fmt plan.column), formula, result)

/-- `f"{skipped} non-numeric cell(s) omitted"`, when there are some. -/
def skippedWarnings (skipped : Nat) : List Text :=
  if skipped = 0 then [] else [Ask.decimal skipped ++ " non-numeric cell(s) omitted".toList]

def EVIDENCE_ANALYTICS_MAX_ROWS : Nat := 500

def executeAnalyticsPlan (plan : AnalyticsPlan) (table : Structured) (sourceId : Text) :
    Except Text Calculation :=
  if EVIDENCE_ANALYTICS_MAX_ROWS < table.rows.length then
    .error "table exceeds the analytics row limit".toList
  else do
    let filtered ← filteredRows table.columns plan.filters 0 (table.rows.map (·.map some))
    if plan.operation = .count then
      return {
        operation := plan.operation
        evidenceId := plan.evidenceId
        sourceId := sourceId
        column := plan.column
        operands := filtered.map fun row =>
          ⟨"Row ".toList ++ Ask.decimal (row.1 + 1), row.1, none, "included".toList⟩
        formula := "COUNT(".toList ++ Ask.decimal filtered.length ++ " rows)".toList
        result := fmt filtered.length
        rowsUsed := filtered.length
        warnings := [] }
    else
      match indexByName table.columns (Ask.cellText plan.column) with
      | none => .error ("unknown numeric column: ".toList ++ Ask.cellText plan.column)
      | some index =>
        let numeric := filtered.filterMap fun row => (readCell row.2 index).map (row.1, ·)
        if numeric.isEmpty then .error "no numeric cells matched the plan".toList
        else do
          let (operands, formula, result) ← computed fmt plan numeric
          return {
            operation := plan.operation
            evidenceId := plan.evidenceId
            sourceId := sourceId
            column := plan.column
            operands := operands
            formula := formula
            result := fmt result
            rowsUsed := operands.length
            warnings := skippedWarnings (filtered.length - numeric.length) }

end Operations

/-- The limits leave out rows of the source, or columns of the rows that are read. -/
def Cut (rows : List (List Cell)) : Prop :=
  EVIDENCE_MAX_TABLE_ROWS + 1 < rows.length ∨
    ∃ row ∈ rows.take (EVIDENCE_MAX_TABLE_ROWS + 1), EVIDENCE_MAX_TABLE_COLUMNS < row.length

/-- Every calculation on a table has a warning. -/
def Warned (table : Structured) : Prop :=
  ∀ (fmt : ℚ → Text) (plan : AnalyticsPlan) (sourceId : Text) (calculation : Calculation),
    executeAnalyticsPlan fmt plan table sourceId = .ok calculation → calculation.warnings ≠ []

/-- The evidence of a table holds what its source does, and calculations on a source that was cut
are marked. -/
structure Evidenced (rows : List (List Cell)) (spec : Option TableSpec) : Prop where
  faithful : Faithful rows (spec.map (·.structuredData))
  warned : Cut rows → ∀ s ∈ spec, Warned s.structuredData

/-! ### Counting -/

theorem filteredRows_all (columns : List Text) (start : Nat) (rows : List (List (Option Text))) :
    ∃ filtered, filteredRows columns [] start rows = .ok filtered := by
  induction rows generalizing start with
  | nil => exact ⟨[], rfl⟩
  | cons row rows ih =>
    obtain ⟨filtered, hrest⟩ := ih (start + 1)
    refine ⟨(start, row) :: filtered, ?_⟩
    rw [filteredRows, hrest]
    rfl

def countPlan : AnalyticsPlan where
  operation := .count
  evidenceId := "1".toList
  column := none
  filters := []
  leftRow := none
  rightRow := none
  column_given := fun h => absurd rfl h
  rows_given := fun h => absurd h Bool.false_ne_true

/-- **A table's rows can be counted** without a warning, when the analytics take as many. -/
theorem count_unwarned {table : Structured}
    (h : table.rows.length ≤ EVIDENCE_ANALYTICS_MAX_ROWS) : ¬Warned table := by
  intro hwarned
  obtain ⟨filtered, hfiltered⟩ := filteredRows_all table.columns 0 (table.rows.map (·.map some))
  have hcount : executeAnalyticsPlan (fun _ => []) countPlan table [] = .ok
      { operation := .count
        evidenceId := "1".toList
        sourceId := []
        column := none
        operands := filtered.map fun row =>
          ⟨"Row ".toList ++ Ask.decimal (row.1 + 1), row.1, none, "included".toList⟩
        formula := "COUNT(".toList ++ Ask.decimal filtered.length ++ " rows)".toList
        result := []
        rowsUsed := filtered.length
        warnings := [] } := by
    rw [executeAnalyticsPlan, if_neg (Nat.not_lt.mpr h)]
    rw [show countPlan.filters = [] from rfl, hfiltered]
    rfl
  exact hwarned _ _ _ _ hcount rfl

theorem length_window (rows : List (List Cell)) :
    (window rows).length ≤ EVIDENCE_MAX_TABLE_ROWS + 1 := by
  rw [window, List.length_map]
  exact List.length_take_le _ _

theorem length_rows_le {rows : List (List Cell)} {table : Structured}
    (h : structuredData rows = some table) : table.rows.length ≤ EVIDENCE_ANALYTICS_MAX_ROWS := by
  cases hrows : keptRows rows with
  | nil =>
    rw [structuredData_nil hrows] at h
    cases h
  | cons header data =>
    rw [structuredData_cons hrows] at h
    cases h
    have hlength : (keptRows rows).length ≤ EVIDENCE_MAX_TABLE_ROWS + 1 :=
      (List.length_filter_le _ _).trans (length_window rows)
    rw [hrows] at hlength
    rw [List.length_map]
    exact Nat.le_of_succ_le_succ hlength

/-! ### The theorem -/

section Spec

variable (hexdigest : Text → Text) (pageNumber : Nat) (label : Text) (rows : List (List Cell))

theorem tableSpec_structured :
    (tableSpec hexdigest pageNumber label rows).map (·.structuredData) = structuredData rows := by
  rw [tableSpec, Option.map_map]
  exact Option.map_id'

theorem warned_iff :
    (∀ s ∈ tableSpec hexdigest pageNumber label rows, Warned s.structuredData) ↔
      structuredData rows = none := by
  rw [← tableSpec_structured hexdigest pageNumber label]
  cases hspec : tableSpec hexdigest pageNumber label rows with
  | none => simp
  | some spec =>
    refine iff_of_false (fun hwarned => ?_) (by simp)
    have hdata : structuredData rows = some spec.structuredData := by
      rw [← tableSpec_structured hexdigest pageNumber label, hspec]
      rfl
    exact count_unwarned (length_rows_le hdata) (hwarned spec rfl)

/-- **The evidence of a table is faithful** exactly when every cell that is read keeps its text,
and a source that is cut has none. -/
theorem evidenced_iff : Evidenced rows (tableSpec hexdigest pageNumber label rows) ↔
    AllSound rows ∧ (Cut rows → sourceRows rows = []) := by
  have hempty : Faithful rows (structuredData rows) →
      (structuredData rows = none ↔ sourceRows rows = []) := by
    intro h
    cases hdata : structuredData rows with
    | none =>
      rw [hdata] at h
      exact iff_of_true rfl h
    | some table =>
      rw [hdata] at h
      obtain ⟨header, data, hsource, -⟩ := h
      exact iff_of_false (Option.some_ne_none table) (by rw [hsource]; exact List.cons_ne_nil _ _)
  constructor
  · rintro ⟨hfaithful, hwarned⟩
    rw [tableSpec_structured] at hfaithful
    refine ⟨sound_of_faithful hfaithful, fun hcut => (hempty hfaithful).mp ?_⟩
    exact (warned_iff hexdigest pageNumber label rows).mp (hwarned hcut)
  · rintro ⟨hsound, hcut⟩
    have hfaithful := faithful_of_sound hsound
    refine ⟨by rwa [tableSpec_structured], fun h => ?_⟩
    exact (warned_iff hexdigest pageNumber label rows).mpr ((hempty hfaithful).mpr (hcut h))

end Spec

def stock : List (List Cell) := [[.text "Quantity".toList], [.integer 5], [.integer 0]]

def wide : List (List Cell) := List.replicate 2 (List.replicate 41 (.text "a".toList))

/-- **A zero leaves no row**, and a table that was cut is counted without a sign. -/
theorem zero_left_out :
    ¬Evidenced stock (tableSpec id 1 "Table".toList stock) ∧
      ¬Evidenced wide (tableSpec id 1 "Table".toList wide) := by
  refine ⟨fun h => ?_, fun h => ?_⟩
  · have hfaithful := h.faithful
    have hzero := (sound_of_faithful hfaithful [.integer 0] (List.mem_of_getElem? (i := 2) rfl)
      (.integer 0) List.mem_cons_self).truthy rfl
    revert hzero
    decide +kernel
  · have hcut : Cut wide := .inr ⟨List.replicate 41 (.text "a".toList), by simp [wide], by decide⟩
    have hnone := (warned_iff id 1 "Table".toList wide).mp (h.warned hcut)
    revert hnone
    decide +kernel

end QnscKb.Evidence
