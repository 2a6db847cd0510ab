import QnscKb.Lib.Text

/-!
# Ask — Context

The rows an answer is made from: the passages handed to the prompt, numbered `C1`, `C2`, …, and the
calculations, charts and marked figures beside them.  A text the code makes itself (a date, a
formula, a number) holds no `<`; `PlainText` carries that.
-/

namespace QnscKb.Ask

/-- A text the code makes, without `<`. -/
abbrev PlainText := {t : Text // '<' ∉ t}

/-! ### Numbers -/

/-- `str` of a natural number. -/
def decimal (n : Nat) : Text := Nat.toDigits 10 n

theorem isDigit_of_mem_decimal {n : Nat} {c : Char} (h : c ∈ decimal n) : c.isDigit = true :=
  Nat.isDigit_of_mem_toDigits (by decide) (by decide) h

/-- `str` of an integer. -/
def decimalInt (z : Int) : Text :=
  if z < 0 then '-' :: decimal z.natAbs else decimal z.natAbs

theorem decimal_plain (n : Nat) : '<' ∉ decimal n := by
  intro h
  exact absurd (isDigit_of_mem_decimal h) (by decide)

theorem decimalInt_plain (z : Int) : '<' ∉ decimalInt z := by
  unfold decimalInt
  split
  · simpa using decimal_plain z.natAbs
  · exact decimal_plain z.natAbs

/-- The id of the `n`-th passage, `f"C{n}"`. -/
def sourceId (n : Nat) : Text := 'C' :: decimal n

theorem sourceId_plain (n : Nat) : '<' ∉ sourceId n := by
  simpa [sourceId] using decimal_plain n

/-- A figure or table on a passage's page. -/
structure PageEvidence where
  label : Option Text
  kind : Text

/-- A passage of the context.  Its `source` is the number of its id; `score` a float. -/
structure ContextRow where
  source : Nat
  articleId : Nat
  chunkId : Nat
  childChunkIds : List Nat
  parentChunkId : Option Nat
  score : Rat
  title : Text
  /-- `type == LESSON_TYPE`. -/
  lesson : Bool
  heading : Option Text
  sectionRef : Option Text
  pageNumber : Option Nat
  pageEvidence : List PageEvidence
  lastReviewed : Option PlainText
  ownerEmail : Option Text
  contextText : Text

def ContextRow.childIds (row : ContextRow) : List Nat :=
  if row.childChunkIds.isEmpty then [row.chunkId] else row.childChunkIds

def sectionText (row : ContextRow) : Text :=
  Text.orElse row.heading (Text.orElse row.sectionRef "General".toList)

/-! ### Calculations -/

inductive AnalyticsOperation
  | sum | average | median | min | max | count | difference | percentageChange
  deriving DecidableEq, Repr

def AnalyticsOperation.text : AnalyticsOperation → Text
  | .sum => "sum".toList
  | .average => "average".toList
  | .median => "median".toList
  | .min => "min".toList
  | .max => "max".toList
  | .count => "count".toList
  | .difference => "difference".toList
  | .percentageChange => "percentage_change".toList

theorem AnalyticsOperation.text_plain (op : AnalyticsOperation) : '<' ∉ op.text := by
  cases op <;> decide

/-- What `execute_analytics_plan` returns, as the prompt shows it; its formula never names a column.
-/
structure Calculation where
  source : Nat
  operation : AnalyticsOperation
  formula : PlainText
  result : PlainText

/-- `Coverage`: what a corpus answer was built from.  Its `reason` is not shown. -/
structure Coverage where
  total : Nat
  withDigest : Nat
  considered : Nat
  used : Nat
  incomplete : Bool

/-! ### Charts and figures -/

inductive ChartType
  | bar | line | pie
  deriving DecidableEq, Repr

def ChartType.text : ChartType → Text
  | .bar => "bar".toList
  | .line => "line".toList
  | .pie => "pie".toList

theorem ChartType.text_plain (k : ChartType) : '<' ∉ k.text := by
  cases k <;> decide

/-- The chart type of a text, lower-cased; anything else is a bar chart. -/
def ChartType.ofText (t : Text) : ChartType :=
  if t.map Char.toLower = "line".toList then .line
  else if t.map Char.toLower = "pie".toList then .pie
  else .bar

/-- A table of the context (`table_candidates`). -/
structure Table where
  id : Text
  label : Text
  source : Nat
  columns : List Text
  rows : List (List (Option Text))

/-- The model's choice of a chart, with the defaults of the missing keys. -/
structure ChartChoice where
  use : Bool
  evidenceId : Text
  chartType : Text
  xColumn : Text
  yColumns : List Text
  title : Option Text

/-- A chart beside the answer.  Its random `id` is left out. -/
structure ChartArtifact where
  chartType : ChartType
  title : Text
  xLabel : Text
  categories : List Text
  series : List (Text × List (Option Rat))
  evidenceId : Text
  source : Nat
  truncated : Bool
  totalRows : Nat

inductive Artifact
  | chart (chart : ChartArtifact)
  | figure (source : Nat)

/-- `str` of a cell. -/
def cellText (cell : Option Text) : Text := cell.getD "None".toList

/-- The title a chart is given: the choice's or the table's, words joined by one space, cut. -/
def chartTitle (choice : ChartChoice) (table : Table) : Text :=
  (Text.join " ".toList (Text.words (Text.orElse choice.title table.label))).take 160

/-- `dict.fromkeys`: the first occurrence of each name. -/
def firstOccurrences (names : List Text) : List Text :=
  names.foldl (fun seen name => if seen.contains name then seen else seen ++ [name]) []

/-- The column of an index, `None` where a row is too short. -/
def columnCells (rows : List (List (Option Text))) (index : Nat) : List (Option Text) :=
  rows.map fun row => row.getD index none

/-- `build_chart_artifact`, over the reading of a column's cells as numbers (`column_values`,
floating point). -/
def buildChartArtifact (columnValues : List (Option Text) → List (Option Rat))
    (choice : ChartChoice) (tables : List Table) (maxPoints : Nat) : Option ChartArtifact := do
  guard choice.use
  let table ← tables.find? fun item => item.id = choice.evidenceId
  let chartType := ChartType.ofText choice.chartType
  guard (table.columns.contains choice.xColumn)
  let yNames := ((firstOccurrences choice.yColumns).filter fun name =>
    table.columns.contains name && name != choice.xColumn).take 4
  guard (yNames ≠ [])
  let rows := table.rows.take maxPoints
  let categories := (rows.map fun row => (row[table.columns.idxOf choice.xColumn]?).elim [] cellText)
  let candidates := yNames.map fun name =>
    (name, columnValues (columnCells rows (table.columns.idxOf name)))
  let series := candidates.filter fun s => 2 ≤ s.2.countP Option.isSome
  guard (series ≠ [])
  let series := if chartType = .pie then series.take 1 else series
  -- a pie shows parts of a whole: a negative part has no slice
  guard (chartType ≠ .pie ∨ ∀ s ∈ series, ∀ value ∈ s.2, ∀ v ∈ value, ¬ v < 0)
  return {
    chartType := chartType
    title := chartTitle choice table
    xLabel := choice.xColumn
    categories := categories
    series := series
    evidenceId := table.id
    source := table.source
    truncated := maxPoints < table.rows.length
    totalRows := table.rows.length }

end QnscKb.Ask
