import QnscKb.Lib.Brackets
import QnscKb.Lib.Text

/-!
# Ask — Citations

Citation markers (`src/rag/citations.py`, `strip_citation_markers` of `answer_sections.py`): a
bracketed run of at most 240 characters with a word `C1` … `C999` in it, or a bare number of one or
two digits.  Every pattern is a predicate or a substitution on runs; the Unicode tables are a
parameter.
-/

namespace QnscKb.Ask

open Brackets (runs replace)

/-- The tables `\w`, `\d` and `re.IGNORECASE` read, and what is known of them on ASCII. -/
structure Unicode where
  word : Char → Bool
  digit : Char → Option Nat
  fold : Char → Char
  word_of_isAlphanum : ∀ c, c.isAlphanum = true → word c = true
  digit_of_isDigit : ∀ c, c.isDigit = true → digit c = some (c.toNat - '0'.toNat)
  digit_le : ∀ c d, digit c = some d → d ≤ 9
  digit_visible : ∀ c, (digit c).isSome = true → Text.isSpace c = false

theorem isSpace_of_isDigit {c : Char} (h : c.isDigit = true) : Text.isSpace c = false := by
  obtain ⟨hlo, hhi⟩ : 48 ≤ c.toNat ∧ c.toNat ≤ 57 := Char.isDigit_iff_toNat.mp h
  simp only [Text.isSpace, Bool.or_eq_false_iff, Bool.and_eq_false_iff, decide_eq_false_iff_not,
    beq_eq_false_iff_ne]
  omega

def ascii : Unicode where
  word c := c.isAlphanum || c == '_'
  digit c := if c.isDigit then some (c.toNat - '0'.toNat) else none
  fold c := c.toLower
  word_of_isAlphanum c h := by simp [h]
  digit_of_isDigit c h := by simp [h]
  digit_le c d h := by
    obtain ⟨hdigit, rfl⟩ : c.isDigit = true ∧ c.toNat - '0'.toNat = d := by simpa using h
    have hhi : c.toNat ≤ 57 := (Char.isDigit_iff_toNat.mp hdigit).2
    have hzero : '0'.toNat = 48 := rfl
    omega
  digit_visible c h := isSpace_of_isDigit (by simpa using h)

variable (U : Unicode)

/-! ### Words and numbers -/

/-- The maximal runs of word characters, each with its place: the run being read starts at `start`,
the next character is at `place`. -/
def wordSpansFrom (start place : Nat) (word : Text) : Text → List (Nat × Text)
  | [] => if word.isEmpty then [] else [(start, word)]
  | c :: t =>
    if U.word c then
      wordSpansFrom (if word.isEmpty then place else start) (place + 1) (word ++ [c]) t
    else
      (if word.isEmpty then [] else [(start, word)]) ++ wordSpansFrom place (place + 1) [] t

def wordSpans (t : Text) : List (Nat × Text) := wordSpansFrom U 0 0 [] t

/-- `int` of a text of decimal digits. -/
def intOf (digits : Text) : Option Nat :=
  digits.foldl (fun n c => n.bind fun n => (U.digit c).map fun d => 10 * n + d) (some 0)

/-- `C(\d{1,3})` on a whole word. -/
def markerWord : Text → Option Nat
  | c :: digits =>
    if (c = 'C' ∨ c = 'c') ∧ 1 ≤ digits.length ∧ digits.length ≤ 3 then intOf U digits else none
  | [] => none

def markersInBracket (inner : Text) : List Nat :=
  (wordSpans U inner).filterMap fun span => markerWord U span.2

/-- What is left of a text after a literal, letter case ignored. -/
def afterLiteral : Text → Text → Option Text
  | [], t => some t
  | p :: ps, c :: t => if U.fold c = p then afterLiteral ps t else none
  | _ :: _, [] => none

/-- `(?:Source ID:\s*)?`: the text after it, where it is there. -/
def afterSourceId (t : Text) : Text :=
  match afterLiteral U "source id:".toList t with
  | some rest => Text.lstrip rest
  | none => t

/-- `_LEGACY_BARE.match`: one or two ASCII digits, white space around. -/
def legacyBare (inner : Text) : Option Nat :=
  let digits := Text.rstrip (afterSourceId U (Text.lstrip inner))
  if (digits.length = 1 ∨ digits.length = 2) ∧ digits.all Char.isDigit then
    some (digits.foldl (fun n c => 10 * n + (c.toNat - 48)) 0)
  else none

/-- The ids one run names: those of its markers, else its legacy number. -/
def markerIds (inner : Text) : List Nat :=
  let found := markersInBracket U inner
  if found.isEmpty then (legacyBare U inner).toList else found

/-- The length `_BRACKET` allows a run. -/
def capped (inner : Text) : Bool := 1 ≤ inner.length && inner.length ≤ 240

def readIds (answer : Text) : List Nat :=
  ((runs answer).filter capped).flatMap (markerIds U)

/-- `extract_citation_ids`; `C{n}` is `n`. -/
def extractCitationIds (answer : Text) : List Nat :=
  (readIds U answer).dedup.insertionSort (· ≤ ·)

@[simp] theorem mem_extractCitationIds {answer : Text} {n : Nat} :
    n ∈ extractCitationIds U answer ↔ n ∈ readIds U answer := by
  rw [extractCitationIds, List.mem_insertionSort, List.mem_dedup]

/-! ### White space -/

def isBlank (c : Char) : Bool := c == ' ' || c == '\t'

/-- `re.sub(r"[ \t]{2,}", " ", …)`, with the blanks read so far: none, one, or more. -/
def collapseFrom : Text → Text → Text
  | blanks, [] => if 2 ≤ blanks.length then [' '] else blanks
  | blanks, c :: t =>
    if isBlank c then collapseFrom (blanks ++ [c]) t
    else (if 2 ≤ blanks.length then [' '] else blanks) ++ c :: collapseFrom [] t

def collapseBlanks (t : Text) : Text := collapseFrom [] t

/-- `re.sub(r"[ \t]+([.,;:!?])", r"\1", …)`, with the blanks read so far. -/
def closeFrom : Text → Text → Text
  | blanks, [] => blanks
  | blanks, c :: t =>
    if isBlank c then closeFrom (blanks ++ [c]) t
    else (if c ∈ ['.', ',', ';', ':', '!', '?'] then [] else blanks) ++ c :: closeFrom [] t

def closePunctuation (t : Text) : Text := closeFrom [] t

/-- What `strip_unknown_markers` puts for a run, if it changes it. -/
def keepKnown (known : List Nat) (inner : Text) : Option Text :=
  let found := markerIds U inner
  let kept := found.filter (known.contains ·)
  if !capped inner || found.isEmpty then none
  else if kept.isEmpty then some []
  else if kept.length = found.length then none
  else
    some ('[' :: (Text.join ", ".toList (kept.map fun n => 'C' :: Nat.toDigits 10 n) ++ [']']))

def stripUnknownMarkers (known : List Nat) (answer : Text) : Text :=
  Text.strip (closePunctuation (collapseBlanks (replace (keepKnown U known) answer)))

/-- `_CITATION_MARKER_RE` on a run: a marker word with at most 240 characters on either side, or one
or two digits, not set off by white space. -/
def citationMarker (inner : Text) : Bool :=
  (wordSpans U inner).any (fun span =>
    (markerWord U span.2).isSome && span.1 ≤ 240 &&
      inner.length - (span.1 + span.2.length) ≤ 240) ||
  let digits := afterSourceId U inner
  (digits.length == 1 || digits.length == 2) && digits.all fun c => (U.digit c).isSome

def stripCitationMarkers (t : Text) : Text :=
  Text.strip (collapseBlanks (replace (fun inner => if citationMarker U inner then some [] else none) t))

end QnscKb.Ask
