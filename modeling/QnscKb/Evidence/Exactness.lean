import QnscKb.Evidence.Calculations
import QnscKb.Lib.Rounding

/-!
# Evidence — Exactness

The calculations of `execute_analytics_plan` (`src/domain/evidence_analytics.py`) as they are made:
every operation rounds to the digits of the decimal context, and a cell that counts as false is read
as no text.  The sign of a zero and the ends of an exponent are left out.
-/

namespace QnscKb.Evidence.Context

open Ask (RowFilter indexByName keepRow)
open Rounding (significant Short)

/-- What ends a calculation. -/
inductive Fault
  | valueError (message : Text)
  | invalidOperation

/-- A table of evidence; a row that is no list is `none`. -/
structure Table where
  columns : List Text
  rows : List (Option (List Cell))

def rounded (q : ℚ) : ℚ := significant 10 28 q

section Code

variable (fmt : ℚ → Text)

/-- `_format`: `quantize` takes no integer of more digits than the context has. -/
def format (value : ℚ) : Except Fault Text :=
  let normalized := rounded value
  if normalized.isInt ∧ 10 ^ 28 ≤ |normalized| then .error .invalidOperation
  else .ok (fmt normalized)

def filteredRows (columns : List Text) (rules : List RowFilter) :
    Nat → List (Option (List Cell)) → Except Text (List (Nat × List Cell))
  | _, [] => .ok []
  | index, none :: rows => filteredRows columns rules (index + 1) rows
  | index, some row :: rows => do
    let keep ← keepRow columns rules (row.map fun cell => some cell.str)
    let filtered ← filteredRows columns rules (index + 1) rows
    return if keep then (index, row) :: filtered else filtered

/-- `parse_decimal(row[column_index])`, with its `str(value or "")`. -/
def readCell (row : List Cell) (index : Nat) : Option ℚ :=
  row[index]?.bind fun cell => Ask.parseDecimal (if cell.falsy then [] else cell.str)

/-- `sum(values, Decimal(0))`. -/
def summed (values : List ℚ) : ℚ := values.foldl (fun total value => rounded (total + value)) 0

def medianOf (values : List ℚ) : ℚ :=
  let ordered := values.insertionSort (· ≤ ·)
  let middle := ordered.length / 2
  if ordered.length % 2 = 1 then ordered.getD middle 0
  else rounded (rounded (ordered.getD (middle - 1) 0 + ordered.getD middle 0) / 2)

def aggregated (values : List ℚ) : Operation → Except Fault (ℚ × Text)
  | .sum => do
    let texts ← values.mapM (format fmt)
    return (summed values, Text.join " + ".toList texts)
  | .average => .ok (rounded (summed values / values.length),
      overValues "SUM".toList values ++ " / ".toList ++ Ask.decimal values.length)
  | .median => .ok (medianOf values, overValues "MEDIAN".toList values)
  | .min => .ok (values.min?.getD 0, overValues "MIN".toList values)
  | .max => .ok (values.max?.getD 0, overValues "MAX".toList values)
  | _ => .error (.valueError "unsupported analytics operation".toList)

def comparison (operation : Operation) (left right : ℚ) : Except Fault (ℚ × Text) :=
  if operation = .difference then do
    let second ← format fmt right
    let first ← format fmt left
    return (rounded (right - left), second ++ " - ".toList ++ first)
  else if left = 0 then .error (.valueError "percentage change from zero is undefined".toList)
  else do
    let second ← format fmt right
    let first ← format fmt left
    return (rounded (rounded (rounded (right - left) / rounded |left|) * 100),
      "((".toList ++ second ++ " - ".toList ++ first ++ ") / |".toList ++ first ++
        "|) × 100".toList)

def operand (column : Option Text) (cell : Nat × ℚ) : Except Fault Operand := do
  let value ← format fmt cell.2
  return { numberOperand fmt column cell with value }

def computed (plan : AnalyticsPlan) (numeric : List (Nat × ℚ)) :
    Except Fault (List Operand × Text × ℚ) :=
  if plan.operation.compares then
    match plan.leftRow, plan.rightRow with
    | some leftRow, some rightRow =>
      match numeric.lookup leftRow, numeric.lookup rightRow with
      | some left, some right => do
        let (result, formula) ← comparison fmt plan.operation left right
        let operands ← [(leftRow, left), (rightRow, right)].mapM (operand fmt plan.column)
        return (operands, formula, result)
      | _, _ => .error (.valueError "comparison rows are not numeric or do not match filters".toList)
    | _, _ => .error (.valueError "comparison rows are not numeric or do not match filters".toList)
  else do
    let (result, formula) ← aggregated fmt (numeric.map Prod.snd) plan.operation
    let operands ← numeric.mapM (operand fmt plan.column)
    return (operands, formula, result)

def reported (plan : AnalyticsPlan) (sourceId : Text) (operands : List Operand) (formula : Text)
    (result : ℚ) (warnings : List Text) : Except Fault Calculation := do
  let result ← format fmt result
  return {
    operation := plan.operation
    evidenceId := plan.evidenceId
    sourceId := sourceId
    column := plan.column
    operands := operands
    formula := formula
    result := result
    rowsUsed := operands.length
    warnings := warnings }

def executeAnalyticsPlan (plan : AnalyticsPlan) (table : Table) (sourceId : Text) (maxRows : Nat) :
    Except Fault Calculation :=
  if maxRows < table.rows.length then
    .error (.valueError "table exceeds the analytics row limit".toList)
  else
    match filteredRows table.columns plan.filters 0 table.rows with
    | .error message => .error (.valueError message)
    | .ok filtered =>
      if plan.operation = .count then
        reported fmt plan sourceId
          (filtered.map fun row =>
            ⟨"Row ".toList ++ Ask.decimal (row.1 + 1), row.1, none, "included".toList⟩)
          ("COUNT(".toList ++ Ask.decimal filtered.length ++ " rows)".toList) filtered.length []
      else
        match indexByName table.columns (Ask.cellText plan.column) with
        | none =>
          .error (.valueError ("unknown numeric column: ".toList ++ Ask.cellText plan.column))
        | some index =>
          let numeric := filtered.filterMap fun row => (readCell row.2 index).map (row.1, ·)
          if numeric.isEmpty then .error (.valueError "no numeric cells matched the plan".toList)
          else do
            let (operands, formula, result) ← computed fmt plan numeric
            reported fmt plan sourceId operands formula result
              (skippedWarnings (filtered.length - numeric.length))

end Code

/-! ### The property -/

/-- A row has in the column of every filter the text it asks for. -/
def matchesAll (columns : List Text) (rules : List RowFilter) (row : List Cell) : Bool :=
  rules.all fun rule =>
    ((indexByName columns rule.column).bind (row[·]?)).any fun cell => cell.str = rule.equals

def matching (columns : List Text) (rules : List RowFilter) (start : Nat)
    (rows : List (Option (List Cell))) : List (Nat × List Cell) :=
  (rows.zipIdx start).filterMap fun row =>
    (row.1.filter (matchesAll columns rules)).map (row.2, ·)

def numberAt (row : List Cell) (index : Nat) : Option ℚ :=
  row[index]?.bind fun cell => Ask.parseDecimal cell.str

def exactValue (rows : Nat) (values : List ℚ) : Operation → ℚ
  | .sum => values.sum
  | .average => values.sum / values.length
  | .median => Evidence.medianOf values
  | .min => values.min?.getD 0
  | .max => values.max?.getD 0
  | _ => rows

def exactChange (operation : Operation) (left right : ℚ) : ℚ :=
  if operation = .difference then right - left else (right - left) / |left| * 100

/-- What is shown is the exact value; an average and a percentage are off by a half of the last
digit shown at most. -/
def Shows (operation : Operation) (exact shown : ℚ) : Prop :=
  if operation = .average ∨ operation = .percentageChange then
    ∀ k, (∀ j < k, ∀ n : ℤ, shown * 10 ^ j ≠ n) → |shown - exact| ≤ 1 / 2 / 10 ^ k
  else shown = exact

/-- The numbers `_format` can write. -/
def Fits (q : ℚ) : Prop := |q| < 10 ^ 28 - 1 / 2

/-- The numbers `_format` writes as they are. -/
def Plain (q : ℚ) : Prop := Short 10 28 q ∧ Fits q

section Spec

variable (fmt : ℚ → Text) (plan : AnalyticsPlan) (table : Table)

/-- The rows that match every filter, with their numbers. -/
def matchingRows : List (Nat × List Cell) := matching table.columns plan.filters 0 table.rows

def numericCells : List (Nat × ℚ) :=
  match indexByName table.columns (Ask.cellText plan.column) with
  | none => []
  | some index =>
    (matchingRows plan table).filterMap fun row => (numberAt row.2 index).map (row.1, ·)

/-- An aggregate is what it should be, of the cells it names, and the others are counted. -/
structure Aggregate (c : Calculation) : Prop where
  result : ∃ shown, c.result = fmt shown ∧ Shows plan.operation (exactValue
    (matchingRows plan table).length ((numericCells plan table).map Prod.snd) plan.operation) shown
  named : c.operands.map (·.row) = if plan.operation = .count
    then (matchingRows plan table).map Prod.fst else (numericCells plan table).map Prod.fst
  accounted : ∃ omitted, c.warnings = skippedWarnings omitted ∧
    c.operands.length + omitted = (matchingRows plan table).length

/-- A comparison is what it should be, and names two cells. -/
def Compared (c : Calculation) : Prop :=
  ∃ leftRow left rightRow right, plan.leftRow = some leftRow ∧ plan.rightRow = some rightRow ∧
    (leftRow, left) ∈ numericCells plan table ∧ (rightRow, right) ∈ numericCells plan table ∧
    leftRow ≠ rightRow ∧ c.operands.map (·.row) = [leftRow, rightRow] ∧
    ∃ shown, c.result = fmt shown ∧
      Shows plan.operation (exactChange plan.operation left right) shown

/-- A `ValueError`, or a calculation that is right. -/
def Verified : Except Fault Calculation → Prop
  | .error (.valueError _) => True
  | .error .invalidOperation => False
  | .ok c => if plan.operation.compares then Compared fmt plan table c
      else Aggregate fmt plan table c

end Spec

/-! ### Formatting -/

variable {q : ℚ}

variable {operation : Operation}

variable {values : List ℚ}

section Spec

variable {fmt : ℚ → Text} {plan : AnalyticsPlan} {table : Table}

end Spec

def pair : Table := ⟨[['A']], [some [.text "1.5".toList], some [.integer 2]]⟩

def longNumber : Table := ⟨[['A']], [some [.text ('1' :: List.replicate 28 '0')]]⟩

end QnscKb.Evidence.Context
