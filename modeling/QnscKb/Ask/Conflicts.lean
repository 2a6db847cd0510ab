import QnscKb.Ask.Context
import QnscKb.Ask.Sections

/-!
# Ask — Conflicts

Contradictory labelled facts (`_detect_explicit_conflicts`) and the answer that lists them
(`_conflict_answer`).  Statement and title are shown as the documents have them.
-/

namespace QnscKb.Ask

/-- The labels of `_EXPLICIT_FACT_RE`, in its order. -/
inductive FactLabel
  | effectiveDate | deadline | approvalDeadline | status | retentionPeriod | limit | owner
  deriving DecidableEq, Repr

def FactLabel.all : List FactLabel :=
  [.effectiveDate, .deadline, .approvalDeadline, .status, .retentionPeriod, .limit, .owner]

/-- The label in lower case, the key of its facts. -/
def FactLabel.text : FactLabel → Text
  | .effectiveDate => "effective date".toList
  | .deadline => "deadline".toList
  | .approvalDeadline => "approval deadline".toList
  | .status => "status".toList
  | .retentionPeriod => "retention period".toList
  | .limit => "limit".toList
  | .owner => "owner".toList

/-- `str.title` of the key. -/
def FactLabel.heading : FactLabel → Text
  | .effectiveDate => "Effective Date".toList
  | .deadline => "Deadline".toList
  | .approvalDeadline => "Approval Deadline".toList
  | .status => "Status".toList
  | .retentionPeriod => "Retention Period".toList
  | .limit => "Limit".toList
  | .owner => "Owner".toList

/-- A fact of a passage. -/
structure FactEntry where
  label : FactLabel
  value : Text
  statement : Text
  source : ContextRow

structure Conflict where
  fact : FactLabel
  entries : List FactEntry

variable (U : Unicode)

/-! ### Detection -/

def factChar (c : Char) : Bool := c != '\n' && c != '.' && c != ';'

/-- The value of a fact and what follows it: white space before it is skipped, unless nothing else
is left of the line. -/
def factValue (t : Text) : Option (Text × Text) :=
  let spaces := t.takeWhile Text.isSpace
  let rest := Text.lstrip t
  if rest.head?.any factChar then some (rest.takeWhile factChar, rest.dropWhile factChar)
  else
    match spaces.reverse.dropWhile (· == '\n') with
    | [] => none
    | c :: before => some ([c], t.drop (before.length + 1))

/-- `_EXPLICIT_FACT_RE` at the start of a line: label, value and the length of the match. -/
def factAt (t : Text) : Option (FactLabel × Text × Nat) := do
  let (label, rest) ← FactLabel.all.findSome? fun label =>
    (afterLiteral U label.text (Text.lstrip t)).map fun rest => (label, rest)
  match Text.lstrip rest with
  | c :: rest =>
    guard (c = ':' ∨ c = '=' ∨ c = '-')
    let (value, rest) ← factValue rest
    return (label, value, t.length - rest.length)
  | [] => none

/-- `_EXPLICIT_FACT_RE.finditer`: `skip` characters belong to the last match. -/
def factsFrom (row : ContextRow) : Nat → Bool → Text → List FactEntry
  | _, _, [] => []
  | skip + 1, _, c :: t => factsFrom row skip (c == '\n') t
  | 0, lineStart, c :: t =>
    match if lineStart then factAt U (c :: t) else none with
    | some (label, value, n) =>
      { label := label
        value := Text.join [' '] (Text.words (value.map U.fold))
        statement := Text.strip ((c :: t).take n)
        source := row } :: factsFrom row (n - 1) (c == '\n') t
    | none => factsFrom row 0 (c == '\n') t

def contextFacts (results : List ContextRow) : List FactEntry :=
  results.flatMap fun row => factsFrom U row 0 true row.contextText

/-- `by_article.setdefault`: the first entry of each article. -/
def firstByArticle (entries : List FactEntry) : List FactEntry :=
  entries.foldl (fun seen entry =>
    if seen.any fun e => e.source.articleId == entry.source.articleId then seen
    else seen ++ [entry]) []

/-- `_detect_explicit_conflicts`: the keys stand in the order they were first found. -/
def detectExplicitConflicts (results : List ContextRow) : List Conflict :=
  let facts := contextFacts U results
  let labels := facts.foldl (fun seen e => if seen.contains e.label then seen else seen ++ [e.label])
    ([] : List FactLabel)
  labels.filterMap fun label =>
    let entries := firstByArticle (facts.filter fun e => e.label == label)
    if 1 < entries.length ∧ entries.any fun e => entries.any fun e' => e.value != e'.value then
      some { fact := label, entries := entries }
    else none

end QnscKb.Ask
