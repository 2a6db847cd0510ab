import QnscKb.Routing.Sections

/-!
# Chunking — Model

The chunks an article is searched by (`src/rag/chunker.py`): a text is split into blocks, a block
that is too long into pieces, and the pieces are packed, each pack after the last characters of the
one before it.
-/

namespace QnscKb.Chunking

open QnscKb.Ask (Unicode)
open QnscKb.Routing (splitlines joinLines)

/-! ### Blocks -/

/-- The `type` of a block, a piece or a chunk. -/
inductive Kind where
  | heading
  | table
  | list
  | text
  deriving DecidableEq, Repr

/-- A logical block, with the heading it stands under, if any. -/
structure Block where
  text : Text
  kind : Kind
  heading : Text
  deriving DecidableEq, Repr

variable (U : Unicode)

/-- `[A-Z0-9 /&:()_-]`. -/
def headingChar (c : Char) : Bool :=
  ('A' ≤ c && c ≤ 'Z') || ('0' ≤ c && c ≤ '9') || c ∈ " /&:()_-".toList

/-- `[A-Z][A-Z0-9 /&:()_-]{2,}:\s*$`, on a stripped line. -/
def labelLine (clean : Text) : Bool :=
  match clean with
  | c :: rest =>
    ('A' ≤ c && c ≤ 'Z') && rest.getLast? == some ':' && 2 ≤ rest.dropLast.length &&
      rest.dropLast.all headingChar
  | [] => false

def isHeading (line : Text) : Bool := Routing.opensHeading line || labelLine (Text.strip line)

def isTable (lines : List Text) : Bool := 2 ≤ lines.length && 2 ≤ lines.countP (·.contains '|')

/-- `\s*(?:[-*+]\s+|\d+[.)]\s+)`. -/
def listItem (line : Text) : Bool :=
  match Text.lstrip line with
  | c :: rest =>
    if c ∈ ['-', '*', '+'] then rest.head?.any Text.isSpace
    else
      match (c :: rest).dropWhile fun c => (U.digit c).isSome with
      | mark :: after =>
        (U.digit c).isSome && (mark == '.' || mark == ')') && after.head?.any Text.isSpace
      | [] => false
  | [] => false

def isList (lines : List Text) : Bool := 2 ≤ lines.length && 2 ≤ lines.countP (listItem U)

/-- `[.!?]`, at the end of a text. -/
def endsSentence (t : Text) : Bool := t.getLast?.any fun c => c == '.' || c == '!' || c == '?'

/-- `re.split(r"(?<=[.!?])\s+", …)`, with the sentence read so far and whether white space is being
read. -/
def sentencesFrom : Bool → Text → Text → List Text
  | _, read, [] => [read]
  | between, read, c :: t =>
    if between && Text.isSpace c then sentencesFrom true read t
    else if Text.isSpace c && endsSentence read then read :: sentencesFrom true [] t
    else sentencesFrom false (read ++ [c]) t

def splitSentences (t : Text) : List Text :=
  ((sentencesFrom false [] (Text.strip t)).map Text.strip).filter (!·.isEmpty)

def behindNewlines (run : Text) : Text := (run.reverse.takeWhile (· != '\n')).reverse

/-- `re.split(r"\n\s*\n", …)`, with the paragraph read so far and the white space behind it. -/
def paragraphsFrom : Text → Text → Text → List Text
  | read, run, [] => if 2 ≤ run.count '\n' then [read, behindNewlines run] else [read ++ run]
  | read, run, c :: t =>
    if c = '\n' ∨ (run ≠ [] ∧ Text.isSpace c = true) then paragraphsFrom read (run ++ [c]) t
    else if 2 ≤ run.count '\n' then read :: paragraphsFrom (behindNewlines run ++ [c]) [] t
    else paragraphsFrom (read ++ run ++ [c]) [] t

def paragraphs (t : Text) : List Text := paragraphsFrom [] [] t

/-- `first.lstrip("#").strip().rstrip(":")[:255]`. -/
def headingText (first : Text) : Text :=
  ((Text.strip (first.dropWhile (· == '#'))).reverse.dropWhile (· == ':')).reverse.take 255

/-- The lines of a paragraph that are not blank. -/
def paragraphLines (clean : Text) : List Text :=
  ((splitlines clean).filter fun line => !(Text.strip line).isEmpty).map Text.rstrip

def paragraphBlocks (active raw : Text) : List Block × Text :=
  let clean := Text.strip raw
  match paragraphLines clean with
  | [] => ([], active)
  | first :: rest =>
    let lines := first :: rest
    if isHeading (Text.strip first) then
      let heading := headingText (Text.strip first)
      ([⟨clean, .heading, heading⟩], heading)
    else if isTable lines then ([⟨joinLines lines, .table, active⟩], active)
    else if isList U lines then ([⟨joinLines lines, .list, active⟩], active)
    else ((splitSentences clean).map fun sentence => ⟨sentence, .text, active⟩, active)

def blocksFrom : Text → List Text → List Block
  | _, [] => []
  | active, raw :: raws =>
    (paragraphBlocks U active raw).1 ++ blocksFrom (paragraphBlocks U active raw).2 raws

def blocks (t : Text) (heading : Option Text) : List Block :=
  blocksFrom U (Text.strip (heading.getD [])) (paragraphs t)

def rowsFrom (size : Nat) : List Text → List Text → List Text
  | current, [] => if current.isEmpty then [] else [joinLines current]
  | current, line :: lines =>
    if !current.isEmpty && size < (joinLines (current ++ [line])).length then
      joinLines current :: rowsFrom size [line] lines
    else rowsFrom size (current ++ [line]) lines

def sentenceRunsFrom (size : Nat) : Text → List Text → List Text
  | running, [] => if running.isEmpty then [] else [running]
  | running, sentence :: sentences =>
    let candidate := Text.strip (running ++ ' ' :: sentence)
    if !running.isEmpty && size < candidate.length then
      running :: sentenceRunsFrom size sentence sentences
    else sentenceRunsFrom size candidate sentences

/-- `text[index : index + size]` for every `size`-th index, with the slice read so far. -/
def slicesFrom (size : Nat) : Text → Text → List Text
  | read, [] => if read.isEmpty then [] else [read]
  | read, c :: t =>
    if size ≤ read.length then read :: slicesFrom size [c] t
    else slicesFrom size (read ++ [c]) t

def splitLargeBlock (size : Nat) (block : Block) : List Block :=
  if block.text.length ≤ size then [block]
  else
    let texts :=
      if block.kind = .table ∨ block.kind = .list then rowsFrom size [] (splitlines block.text)
      else if (splitSentences block.text).length ≤ 1 then slicesFrom size [] block.text
      else sentenceRunsFrom size [] (splitSentences block.text)
    texts.map fun text => { block with text := text }

/-! ### Packing -/

/-- Pieces that are packed into one chunk, after the overlap with the chunk before it. -/
structure Pack where
  overlap : Option Block
  pieces : List Block

namespace Pack

def items (p : Pack) : List Block := p.overlap.toList ++ p.pieces

/-- The items, set apart by an empty line. -/
def joined (p : Pack) : Text := Text.join "\n\n".toList (p.items.map Block.text)

def text (p : Pack) : Text := Text.strip p.joined

def kind (p : Pack) : Kind :=
  if p.items.any (·.kind = .table) then .table
  else if p.items.any (·.kind = .list) then .list
  else if p.items.any (·.kind = .heading) then .heading
  else .text

def heading (p : Pack) : Text :=
  ((p.items.reverse.find? fun item => !item.heading.isEmpty).map Block.heading).getD []

/-- `text[-overlap:]` of a chunk of plain text. -/
def lastCharacters (p : Pack) (overlap : Nat) : Text :=
  if overlap ≠ 0 ∧ p.kind = .text then p.text.drop (p.text.length - overlap) else []

def next (p : Pack) (overlap : Nat) : Pack :=
  ⟨if (p.lastCharacters overlap).isEmpty then none
    else some ⟨p.lastCharacters overlap, .text, p.heading⟩, []⟩

end Pack

/-- `current`, with `current_length`. -/
structure Open where
  pack : Pack
  length : Nat

/-- `current.append(piece)`. -/
def Open.add (piece : Block) (o : Open) : Open :=
  ⟨⟨o.pack.overlap, o.pack.pieces ++ [piece]⟩,
    o.length + (piece.text.length + if o.length ≠ 0 then 1 else 0)⟩

/-- The piece does not go into the chunk any more. -/
def Open.full (size : Nat) (piece : Block) (o : Open) : Bool :=
  !o.pack.items.isEmpty && size < o.length + piece.text.length + if o.pack.items.isEmpty then 0 else 1

def Open.after (overlap : Nat) (p : Pack) : Open := ⟨p.next overlap, (p.lastCharacters overlap).length⟩

/-- The loop of `_pack` over the pieces. -/
def packFrom (size overlap : Nat) : Open → List Block → List Pack
  | o, [] => if o.pack.items.isEmpty then [] else [o.pack]
  | o, piece :: pieces =>
    if o.full size piece then
      o.pack :: packFrom size overlap ((Open.after overlap o.pack).add piece) pieces
    else packFrom size overlap (o.add piece) pieces

def Open.start : Open := ⟨⟨none, []⟩, 0⟩

/-- `_pack`, before the chunks without text are left out. -/
def packAll (size overlap : Nat) (blocks : List Block) : List Pack :=
  packFrom size overlap .start (blocks.flatMap (splitLargeBlock size))

def pack (size overlap : Nat) (blocks : List Block) : List Pack :=
  (packAll size overlap blocks).filter fun p => !p.text.isEmpty

def slidingChunks (t : Text) (size overlap : Nat) : List Text :=
  (pack size overlap (blocks U t none)).map Pack.text

structure Parent where
  parentIndex : Nat
  parentText : Text
  chunkType : Kind
  heading : Option Text
  children : List Text

def createParentChildChunks (t : Text) (heading : Option Text) : List Parent :=
  (pack 1800 250 (blocks U t heading)).mapIdx fun index parent =>
    { parentIndex := index
      parentText := parent.text
      chunkType := parent.kind
      heading := if parent.heading.isEmpty then heading.filter (!·.isEmpty) else some parent.heading
      children := slidingChunks U parent.text 250 60 }

end QnscKb.Chunking
