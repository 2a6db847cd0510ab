import QnscKb.Ask.Citations

/-!
# Ask — Sections

The sections of a model's output (`src/rag/answer_sections.py`): the sentinel lines that separate
them, the normalisation of their Markdown and the removal of provenance the model copied into the
text.  Line-wise patterns are recursions that know where in its line they stand.
-/

namespace QnscKb.Ask

variable (U : Unicode)

/-! ### Lines -/

/-- The line boundaries of `str.splitlines`. -/
def isLineBreak (c : Char) : Bool :=
  let n := c.toNat
  (10 ≤ n && n ≤ 13) || (28 ≤ n && n ≤ 30) || n == 0x85 || n == 0x2028 || n == 0x2029

theorem isSpace_of_isLineBreak {c : Char} (h : isLineBreak c = true) : Text.isSpace c = true := by
  simp only [isLineBreak, Bool.or_eq_true, Bool.and_eq_true, decide_eq_true_eq, beq_iff_eq] at h
  simp only [Text.isSpace, Bool.or_eq_true, Bool.and_eq_true, decide_eq_true_eq, beq_iff_eq]
  omega

/-- `str.splitlines(keepends=True)`, with the line read so far. -/
def splitLinesFrom : Text → Text → List Text
  | line, [] => if line.isEmpty then [] else [line]
  | line, '\r' :: '\n' :: t => (line ++ ['\r', '\n']) :: splitLinesFrom [] t
  | line, c :: t =>
    if isLineBreak c then (line ++ [c]) :: splitLinesFrom [] t else splitLinesFrom (line ++ [c]) t

def splitLines (t : Text) : List Text := splitLinesFrom [] t

def chomp (line : Text) : Text := (line.reverse.dropWhile isLineBreak).reverse

theorem chomp_unbroken {line : Text} (h : ∀ c ∈ line, isLineBreak c = false) :
    chomp line = line := by
  have hline : line.reverse.dropWhile isLineBreak = line.reverse :=
    List.dropWhile_eq_self_iff.mpr fun hpos => by
      rw [h _ (List.mem_reverse.mp (List.getElem_mem hpos))]
      exact Bool.false_ne_true
  rw [chomp, hline, List.reverse_reverse]

theorem chomp_concat {line : Text} {c : Char} (h : ∀ c ∈ line, isLineBreak c = false)
    (hbreak : isLineBreak c = true) : chomp (line ++ [c]) = line := by
  have hchomp : chomp (line ++ [c]) = chomp line := by
    rw [chomp, List.reverse_append, List.reverse_singleton, List.singleton_append,
      List.dropWhile_cons_of_pos hbreak, chomp]
  rw [hchomp, chomp_unbroken h]

/-- A line that opens or closes a code fence. -/
def togglesFence (line : Text) : Bool := "```".toList.isPrefixOf (Text.strip line)

/-! ### Sentinels -/

inductive Sentinel
  | grounded | extended | close
  deriving DecidableEq, Repr

/-- A sentinel's name at the head of a text, and what follows it. -/
def sentinelName (t : Text) : Option (Sentinel × Text) :=
  match afterLiteral U "grounded".toList t with
  | some rest => some (.grounded, rest)
  | none =>
    match afterLiteral U "extended".toList t with
    | some rest => some (.extended, rest)
    | none => (afterLiteral U "end".toList t).map fun rest => (.close, rest)

/-- Two to four copies of a character, no fifth, and what follows them. -/
def angles (a : Char) (t : Text) : Option Text :=
  let n := (t.takeWhile (· == a)).length
  if 2 ≤ n ∧ n ≤ 4 then some (t.drop n) else none

/-- A sentinel from its first `<` to its last `>`, and what follows it. -/
def sentinelHead (t : Text) : Option (Sentinel × Text) := do
  let name ← angles '<' t
  let (kind, rest) ← sentinelName U (Text.lstrip name)
  let rest ← angles '>' (Text.lstrip rest)
  return (kind, rest)

def sentinelLine (line : Text) : Option Sentinel := do
  let (kind, rest) ← sentinelHead U (Text.lstrip line)
  guard (Text.strip rest).isEmpty
  return kind

/-- `_INLINE_SENTINEL_RE.match`: the sentinel and the text that follows it on its line. -/
def inlineSentinel (line : Text) : Option (Text × Text) := do
  let (_, rest) ← sentinelHead U (line.dropWhile isBlank)
  let content := rest.dropWhile isBlank
  guard (content.head?.any fun c => !Text.isSpace c)
  return (line.take (line.length - rest.length), content)

/-- `_break_inline_sentinels`, line by line. -/
def breakInlineFrom (inFence : Bool) : List Text → Text
  | [] => []
  | line :: lines =>
    if togglesFence line then line ++ breakInlineFrom (!inFence) lines
    else
      match if inFence then none else inlineSentinel U line with
      | some (sentinel, content) =>
        Text.strip sentinel ++ '\n' :: content ++ breakInlineFrom inFence lines
      | none => line ++ breakInlineFrom inFence lines

def breakInlineSentinels (t : Text) : Text := breakInlineFrom U false (splitLines t)

/-- The lines of a text, each with the sentinel it is, outside code fences (`_sentinel_lines`). -/
def sentinelLinesFrom (inFence : Bool) : List Text → List (Text × Option Sentinel)
  | [] => []
  | line :: lines =>
    if togglesFence line then (line, none) :: sentinelLinesFrom (!inFence) lines
    else
      (line, if inFence then none else sentinelLine U line) :: sentinelLinesFrom inFence lines

def sentinelLines (t : Text) : List (Text × Option Sentinel) :=
  sentinelLinesFrom U false (splitLines t)

def stripSentinelLines (t : Text) : Text :=
  Text.join ['\n']
    (((sentinelLines U t).filter fun line => line.2.isNone).map fun line => chomp line.1)

/-! ### Normalisation -/

/-- One marker of the shape `[C1]`, `[1]` or `[Source ID: 1]`, and what follows it. -/
def fenceMarker : Text → Option Text
  | '[' :: t =>
    let t := if "Source ID:".toList.isPrefixOf t then Text.lstrip (t.drop 10) else t
    let t := if t.head? = some 'C' then t.drop 1 else t
    let digits := t.takeWhile fun c => (U.digit c).isSome
    match t.drop digits.length with
    | ']' :: rest => if digits.isEmpty then none else some rest
    | _ => none
  | _ => none

/-- Markers, white space between them, up to the end of a line; `fuel` bounds their number. -/
def markersToLineEnd : Nat → Text → Bool
  | 0, _ => false
  | fuel + 1, t =>
    match fenceMarker U t with
    | none => false
    | some rest =>
      (rest.takeWhile Text.isSpace).contains '\n' || (Text.lstrip rest).isEmpty ||
        markersToLineEnd fuel (Text.lstrip rest)

/-- Where a reader stands in a line that may close a fence and go on with markers. -/
inductive FencePlace
  | lineStart | tick1 | tick2 | fence | elsewhere | gap
  deriving DecidableEq, Repr

def FencePlace.next : FencePlace → Char → FencePlace
  | p, c =>
    if c = '\n' then .lineStart
    else
      match p with
      | .lineStart => if isBlank c then .lineStart else if c = '`' then .tick1 else .elsewhere
      | .tick1 => if c = '`' then .tick2 else .elsewhere
      | .tick2 => if c = '`' then .fence else .elsewhere
      | _ => .elsewhere

/-- The first substitution: the markers behind a closing fence go to a paragraph of their own. -/
def splitFenceMarkers : FencePlace → Text → Text
  | _, [] => []
  | .gap, c :: t =>
    if isBlank c then splitFenceMarkers .gap t
    else c :: splitFenceMarkers (FencePlace.gap.next c) t
  | .fence, c :: t =>
    if isBlank c && markersToLineEnd U t.length (t.dropWhile isBlank) then
      '\n' :: '\n' :: splitFenceMarkers .gap t
    else c :: splitFenceMarkers (FencePlace.fence.next c) t
  | p, c :: t => c :: splitFenceMarkers (p.next c) t

/-- A closing fence with a lone `[` behind it at the end of the text, and what follows. -/
def openFenceEnd (t : Text) : Option Text :=
  if "```".toList.isPrefixOf t then
    match (t.drop 3).dropWhile isBlank with
    | '[' :: rest =>
      match rest.dropWhile isBlank with
      | [] => some []
      | ['\n'] => some ['\n']
      | _ => none
    | _ => none
  else none

def dropOpenFenceEnd : Text → Text
  | [] => []
  | c :: t =>
    match openFenceEnd (c :: t) with
    | some rest => "```".toList ++ rest
    | none => c :: dropOpenFenceEnd t

/-- Where a reader stands in a line that may be a lone `[`. -/
inductive LinePlace
  | lineStart | inLine | dropped
  deriving DecidableEq, Repr

/-- The line at the head of a text is a `[`, blanks apart. -/
def loneBracket (t : Text) : Bool :=
  (t.takeWhile (· != '\n')).filter (fun c => !isBlank c) == ['[']

/-- The third substitution: lines that hold a `[` and nothing else are emptied. -/
def dropLoneBrackets : LinePlace → Text → Text
  | _, [] => []
  | .dropped, c :: t =>
    if c = '\n' then c :: dropLoneBrackets .lineStart t else dropLoneBrackets .dropped t
  | .lineStart, c :: t =>
    if loneBracket (c :: t) then dropLoneBrackets .dropped t
    else c :: dropLoneBrackets (if c = '\n' then .lineStart else .inLine) t
  | .inLine, c :: t => c :: dropLoneBrackets (if c = '\n' then .lineStart else .inLine) t

def normalizeAnswerMarkdown (answer : Text) : Text :=
  Text.strip (dropLoneBrackets .lineStart
    (dropOpenFenceEnd (splitFenceMarkers U .lineStart (Text.strip answer))))

def splitAnswerSections (raw : Text) : Text × Text :=
  let text := breakInlineSentinels U raw
  let lines := sentinelLines U text
  let joined := fun (ls : List (Text × Option Sentinel)) => ls.flatMap Prod.fst
  let normalized := fun t => normalizeAnswerMarkdown U (stripSentinelLines U t)
  match lines.span fun line => line.2 != some .grounded with
  | (_, []) => (normalized text, [])
  | (before, _ :: after) =>
    match after.span fun line => line.2 != some .extended with
    | (grounded, []) => (normalized (joined before ++ joined grounded), normalized [])
    | (grounded, _ :: extended) =>
      (normalized (joined before ++ joined grounded), normalized (joined extended))

/-! ### Provenance in the text -/

/-- A part of a pattern of `_SOURCE_METADATA_BRACKET`. -/
inductive Atom
  | word (t : Text)
  /-- `\s*`. -/
  | spaces
  /-- `[-\s]?`. -/
  | joint

def spaceRests : Text → List Text
  | [] => [[]]
  | c :: t => (c :: t) :: if Text.isSpace c then spaceRests t else []

/-- What can be left of a text after a pattern. -/
def Atom.rests : List Atom → Text → List Text
  | [], t => [t]
  | .word w :: atoms, t => ((afterLiteral U w t).map (Atom.rests atoms)).getD []
  | .spaces :: atoms, t => (spaceRests t).flatMap (Atom.rests atoms)
  | .joint :: atoms, t =>
    Atom.rests atoms t ++
      match t with
      | c :: rest => if c = '-' ∨ Text.isSpace c then Atom.rests atoms rest else []
      | [] => []

/-- What a provenance bracket starts with. -/
def metadataHeads : List (List Atom) :=
  [ [.word "last".toList, .joint, .word "reviewed".toList],
    [.word "reviewed".toList],
    [.word "owner".toList],
    [.word "owner".toList, .spaces, .word "email".toList],
    [.word "source".toList, .joint, .word "id".toList],
    [.word "page".toList],
    [.word "ngày".toList, .spaces, .word "xem".toList, .spaces, .word "xét".toList],
    [.word "ngày".toList, .spaces, .word "rà".toList, .spaces, .word "soát".toList],
    [.word "email".toList, .spaces, .word "chủ".toList, .spaces, .word "sở".toList, .spaces,
      .word "hữu".toList],
    [.word "chủ".toList, .spaces, .word "sở".toList, .spaces, .word "hữu".toList],
    [.word "trang".toList] ]

/-- `_SOURCE_METADATA_BRACKET` on a run. -/
def sourceMetadata (inner : Text) : Bool :=
  metadataHeads.any fun head =>
    (Atom.rests U head (Text.lstrip inner)).any fun rest =>
      !(rest.head?.any U.word) && rest.length ≤ 240

/-- `_INTERIOR_RUN.sub(" ", …)`: `visible` says that the character before the blanks read so far is
no white space. -/
def collapseInteriorFrom : Bool → Text → Text → Text
  | _, blanks, [] => blanks
  | visible, blanks, c :: t =>
    if isBlank c then collapseInteriorFrom visible (blanks ++ [c]) t
    else
      (if visible && 2 ≤ blanks.length && !Text.isSpace c then [' '] else blanks) ++
        c :: collapseInteriorFrom (!Text.isSpace c) [] t

def collapseInterior (t : Text) : Text := collapseInteriorFrom false [] t

def stripSourceMetadata (t : Text) : Text :=
  Text.strip (closePunctuation (collapseInterior
    (Brackets.replace (fun inner => if sourceMetadata U inner then some [] else none) t)))

def groundedHeading : Text := "## Answer from the Knowledge Base".toList

def extendedHeading : Text :=
  "## Additional context (general knowledge — not from the Knowledge Base, not cited)".toList

def renderAnswerSections (grounded extended : Text) (enabled : Bool) : Text :=
  let grounded := normalizeAnswerMarkdown U grounded
  let extended := normalizeAnswerMarkdown U extended
  if !enabled then grounded
  else
    Text.strip
      ((if grounded.isEmpty then [] else groundedHeading ++ "\n\n".toList ++ grounded) ++
        if extended.isEmpty then []
        else "\n\n---\n\n".toList ++ extendedHeading ++ "\n\n".toList ++ extended)

/-- `str.rfind`: the last place a text starts with a pattern. -/
def rfind (pattern : Text) : Text → Option Nat
  | [] => none
  | c :: t =>
    match rfind pattern t with
    | some n => some (n + 1)
    | none => if pattern.isPrefixOf (c :: t) then some 0 else none

def compressContext (t : Text) (maxCharacters : Nat) : Text :=
  let t := Text.strip t
  if t.length ≤ maxCharacters then t
  else
    let clipped := t.take maxCharacters
    -- `-1` of a pattern that is not there is below every bound
    let lastBreak := max ((rfind ['\n'] clipped).getD 0) ((rfind ['.', ' '] clipped).getD 0)
    let stop := if maxCharacters / 2 < lastBreak then lastBreak + 1 else maxCharacters
    Text.rstrip (clipped.take stop) ++ " …".toList

end QnscKb.Ask
