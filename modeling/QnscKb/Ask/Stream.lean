import QnscKb.Ask.Sections

/-!
# Ask — Stream

`IncrementalAnswerStream` (`src/rag/answer_sections.py`): what a reader is shown of a model's output
while it arrives.  A line is held back while it could still become a fence or a sentinel.

What a chunk releases does not depend on where it was cut (`feedAll_eq`).
-/

namespace QnscKb.Ask

def sentinelLetters : Text := ['g', 'r', 'o', 'u', 'n', 'd', 'e', 'x', 't']

/-- `str.upper`; letter case ignored, a letter of a sentinel's name is one of its two cases. -/
structure Casing (U : Unicode) where
  upper : Char → Text
  fold_letter : ∀ c, ∀ p ∈ sentinelLetters, U.fold c = p ↔ c = p ∨ c = p.toUpper
  upper_letter : ∀ p ∈ sentinelLetters, upper p = [p.toUpper] ∧ upper p.toUpper = [p.toUpper]

variable {U : Unicode} (K : Casing U)

def sentinelWords : List Text :=
  ["GROUNDED".toList, "EXTENDED".toList, "END".toList]

/-- `probe.lstrip("<").rstrip(">")`. -/
def probeName (probe : Text) : Text :=
  ((probe.dropWhile (· == '<')).reverse.dropWhile (· == '>')).reverse

def couldBeginASentinel (probe : Text) : Bool :=
  probe.head? == some '<' && decide (probe.length - (probe.dropWhile (· == '<')).length ≤ 4) &&
    sentinelWords.any fun word => ((probeName probe).flatMap K.upper).isPrefixOf word

/-- `re.search` for a sentinel's name. -/
def searchSentinel (U : Unicode) : Text → Option Sentinel
  | [] => none
  | c :: t =>
    match sentinelName U (c :: t) with
    | some (kind, _) => some kind
    | none => searchSentinel U t

/-- The fields of the stream. -/
structure AnswerStream where
  line : Text
  released : Nat
  inFence : Bool
  stopped : Bool
  deriving DecidableEq, Repr

namespace AnswerStream

def init : AnswerStream := ⟨[], 0, false, false⟩

/-- A line nothing of which is released is held back. -/
def held (line : Text) : Bool :=
  let probe := Text.lstrip line
  probe.isEmpty || probe.isPrefixOf "```".toList || couldBeginASentinel K probe

def holding (s : AnswerStream) : Bool :=
  if s.released != 0 then false else held K s.line

def finishLine (U : Unicode) (s : AnswerStream) : Text × AnswerStream :=
  if togglesFence s.line then
    (s.line.drop s.released ++ ['\n'],
      { s with inFence := !s.inFence, line := [], released := 0 })
  else
    match if s.inFence then none else sentinelLine U s.line with
    | some kind =>
      ([], { s with stopped := s.stopped || kind == .extended, line := [], released := 0 })
    | none => (s.line.drop s.released ++ ['\n'], { s with line := [], released := 0 })

/-- `_consume_inline_sentinel`; `none` where it returns `False`. -/
def consumeInlineSentinel (s : AnswerStream) : Option (Text × AnswerStream) :=
  if s.released != 0 || s.inFence then none
  else
    match inlineSentinel U s.line with
    | none => none
    | some (sentinel, content) =>
      if s.line.getLast? = some '>' then none
      else if searchSentinel U sentinel = some .extended then
        some ([], { s with stopped := true, line := [] })
      else
        let s := { s with line := content, released := 0 }
        if holding K s then some ([], s) else some (content, { s with released := content.length })

/-- The body of `feed`'s loop. -/
def feedCharacter (s : AnswerStream) (character : Char) : Text × AnswerStream :=
  if character = '\n' then finishLine U s
  else
    let s := { s with line := s.line ++ [character] }
    match consumeInlineSentinel K s with
    | some result => result
    | none =>
      if holding K s then ([], s)
      else (s.line.drop s.released, { s with released := s.line.length })

/-- `feed`'s loop, left when the stream stops. -/
def feedCharacters (s : AnswerStream) : Text → Text × AnswerStream
  | [] => ([], s)
  | c :: t =>
    let (out, s) := feedCharacter K s c
    if s.stopped then (out, s)
    else
      let (rest, s) := feedCharacters s t
      (out ++ rest, s)

def feed (s : AnswerStream) (chunk : Text) : Text × AnswerStream :=
  if s.stopped || chunk.isEmpty then ([], s) else feedCharacters K s chunk

def finish (U : Unicode) (s : AnswerStream) : Text :=
  if s.stopped then []
  else if !s.inFence && (sentinelLine U s.line).isSome then []
  else s.line.drop s.released

def feedAll (s : AnswerStream) : List Text → Text × AnswerStream
  | [] => ([], s)
  | chunk :: chunks =>
    let (out, s) := feed K s chunk
    let (rest, s) := feedAll s chunks
    (out ++ rest, s)

end AnswerStream

/-- All the reader is shown: what every chunk releases, and what `finish` does. -/
def streamed (chunks : List Text) : Text :=
  let (out, s) := AnswerStream.feedAll K AnswerStream.init chunks
  out ++ AnswerStream.finish U s

namespace AnswerStream

variable {K}

theorem feed_of_stopped {s : AnswerStream} (h : s.stopped = true) (chunk : Text) :
    feed K s chunk = ([], s) := by
  rw [feed, h, Bool.true_or, if_pos rfl]

theorem feed_of_going {s : AnswerStream} (h : s.stopped = false) (chunk : Text) :
    feed K s chunk = feedCharacters K s chunk := by
  cases chunk with
  | nil => simp [feed, feedCharacters]
  | cons c t => simp [feed, h]

theorem feed_append (s : AnswerStream) (a b : Text) :
    feed K s (a ++ b) =
      ((feed K s a).1 ++ (feed K (feed K s a).2 b).1, (feed K (feed K s a).2 b).2) := by
  induction a generalizing s with
  | nil =>
    have hnil : feed K s [] = ([], s) := by simp [feed]
    rw [hnil]
    rfl
  | cons c t ih =>
    cases hstopped : s.stopped with
    | true =>
      rw [feed_of_stopped hstopped, feed_of_stopped hstopped, feed_of_stopped hstopped]
      rfl
    | false =>
      rw [feed_of_going hstopped, feed_of_going hstopped, List.cons_append, feedCharacters,
        feedCharacters]
      cases hnext : (feedCharacter K s c).2.stopped with
      | true =>
        simp only [hnext, if_true]
        rw [feed_of_stopped hnext]
        simp
      | false =>
        have htail := ih (feedCharacter K s c).2
        simp only [feed_of_going hnext] at htail
        simp only [hnext, Bool.false_eq_true, if_false, htail, List.append_assoc]

theorem feedAll_eq (s : AnswerStream) (chunks : List Text) :
    feedAll K s chunks = feed K s chunks.flatten := by
  induction chunks generalizing s with
  | nil => simp [feedAll, feed]
  | cons chunk chunks ih => simp only [feedAll, List.flatten_cons, feed_append, ih]

end AnswerStream

end QnscKb.Ask
