import Mathlib.Data.Finset.Card
import Mathlib.Data.Rat.Defs
import Mathlib.Algebra.Order.Ring.Unbundled.Rat
import QnscKb.Ask.Citations
import QnscKb.Lib.Rankings
import QnscKb.Lib.Tokens

/-!
# Retrieval — Rerank

The lexical reranker (`src/rag/reranker.py`): a question is folded and cut to its terms, and each
candidate is scored by the terms its passage holds and by what else it says.  Scores are rational;
the Unicode tables and the logarithms are parameters.
-/

namespace QnscKb.Rerank

open Ask (Unicode)
open Tokens (tokens)

/-- The tables: `str.lower`, the canonical decomposition of a character, and the combining marks
(`Mn`).  Blanks keep what `str.lower` reads apart. -/
structure Letters extends Unicode where
  lower : Text → Text
  nfd : Char → Text
  mark : Char → Bool
  lower_append_space : ∀ s t, lower (s ++ ' ' :: t) = lower s ++ ' ' :: lower t
  word_space : word ' ' = false

/-- What the settings say, and `log (pool / found) / log pool`. -/
structure Settings where
  identifierTermWeight : ℚ
  vectorAssistTopN : Nat
  vectorAssistScore : ℚ
  rarity : Nat → Nat → ℚ

variable (U : Letters) (S : Settings)

/-- `_build_fold_table`, the loop over the letters: a character without its marks. -/
def strippedEntry (c : Char) : Option Text :=
  let stripped := (U.nfd c).filter fun part => !U.mark part
  -- a combining mark strips to nothing, and gets no entry
  if 0x00C0 ≤ c.toNat ∧ c.toNat < 0x1EFA ∧ stripped ≠ [] ∧ stripped ≠ [c] then
    some (U.lower stripped)
  else none

/-- `_FOLD_TABLE`; a character that is not in it stays. -/
def foldChar (c : Char) : Text :=
  (strippedEntry U c).getD (if c = 'đ' ∨ c = 'Đ' then ['d'] else [c])

def foldDiacritics (value : Text) : Text := (U.lower value).flatMap (foldChar U)

/-- `[\w'-]`. -/
def tokenChar (c : Char) : Bool := U.word c || c == '\'' || c == '-'

/-! ### Stopwords and markers -/

def ENGLISH_STOPWORDS : List Text :=
  ["a", "an", "and", "are", "as", "at", "be", "by", "can", "could", "do", "does", "for", "from",
    "give", "how", "i", "in", "is", "it", "list", "me", "my", "need", "of", "on", "or", "please",
    "provide", "show", "so", "some", "tell", "that", "the", "them", "there", "these", "this",
    "those", "to", "us", "use", "used", "using", "want", "we", "what", "when", "where", "which",
    "who", "why", "will", "with", "would", "you", "your"].map String.toList

def VIETNAMESE_STOPWORDS : List Text :=
  ["à", "ạ", "ai", "bạn", "bằng", "các", "cách", "cần", "cho", "chúng", "có", "của", "cung",
    "cấp", "danh", "dùng", "dụng", "gì", "giúp", "hãy", "khi", "không", "là", "làm", "liệt", "kê",
    "một", "muốn", "nào", "này", "nêu", "như", "những", "ở", "ra", "rằng", "sách", "sao", "sẽ",
    "sử", "thì", "tôi", "trong", "và", "vậy", "về", "với", "được", "đó", "để",
    "đưa"].map String.toList

def VIETNAMESE_STOPWORDS_FOLDED : List Text :=
  VIETNAMESE_STOPWORDS.map (foldDiacritics U) ++ VIETNAMESE_STOPWORDS

def isStopword (raw folded : Text) : Bool :=
  ENGLISH_STOPWORDS.contains raw || (VIETNAMESE_STOPWORDS_FOLDED U).contains folded

def REFERENCE_MARKERS : List Text :=
  ["references", "reference", "helpful documents", "sources", "bibliography",
    "tài liệu tham khảo", "nguồn tham khảo", "http://", "https://", "www."].map String.toList

def DEFINITION_QUERY_MARKERS : List Text :=
  ["what is", "what are", "define", "definition", "meaning", "explain", "là gì", "định nghĩa",
    "có nghĩa là", "giải thích", "khái niệm"].map String.toList

def REFERENCE_MARKERS_FOLDED : List Text := REFERENCE_MARKERS.map (foldDiacritics U)

def DEFINITION_QUERY_MARKERS_FOLDED : List Text := DEFINITION_QUERY_MARKERS.map (foldDiacritics U)

/-- The alternatives of `DEFINITION_PATTERNS`, both patterns'. -/
def DEFINITION_PHRASES : List Text :=
  ["is", "are", "means", "refers to", "defined as", "describes", "la", "duoc goi la",
    "co nghia la", "dung de chi", "duoc dinh nghia la"].map String.toList

def URL_STARTS : List Text := ["http://", "https://", "www."].map String.toList

def contains (needle text : Text) : Bool := text.tails.any fun rest => needle.isPrefixOf rest

/-- One of the phrases stands at the head of a text, no word character after it. -/
def phraseAhead (text : Text) : Bool :=
  DEFINITION_PHRASES.any fun phrase =>
    ((Ask.afterLiteral U.toUnicode phrase text).map fun rest => !rest.head?.any U.word).getD false

/-- `\b(?:…)\b` found in a text, one of the patterns, behind a word character or not. -/
def phraseFrom (behind : Bool) : Text → Bool
  | [] => false
  | c :: text => (!behind && phraseAhead U (c :: text)) || phraseFrom (U.word c) text

/-- A pattern of `DEFINITION_PATTERNS_RE` is found in the passage. -/
def defines (passage : Text) : Bool := phraseFrom U false passage

def refers (passage : Text) : Bool :=
  (REFERENCE_MARKERS_FOLDED U).any fun marker => contains marker passage

/-- `len(URL_RE.findall(passage))`: no two of the starts overlap. -/
def urlCount (passage : Text) : Nat :=
  passage.tails.countP fun rest => URL_STARTS.any fun start => start.isPrefixOf rest

/-! ### The question -/

/-- The tokens of a question that carry a signal, folded. -/
def signals (query : Text) : List Text :=
  (tokens (tokenChar U) (U.lower query)).filterMap fun raw =>
    let folded := foldDiacritics U raw
    -- the spelling tells an English stopword, the folded form a Vietnamese one
    if 1 < folded.length ∧ isStopword U raw folded = false then some folded else none

def normalizeQuery (query : Text) : Text := Text.join [' '] (signals U query)

def isDefinitionQuery (query : Text) : Bool :=
  let normalized := Text.join [' '] (Text.words (foldDiacritics U query))
  (DEFINITION_QUERY_MARKERS_FOLDED U).any fun marker => contains marker normalized

def passageTokens (passage : Text) : List Text := tokens (tokenChar U) (foldDiacritics U passage)

def corpusTerms (passages : List Text) : Finset Text :=
  (passages.flatMap (passageTokens U)).toFinset

def identifierFrequency (passages : List Text) (name : Text) : Nat :=
  passages.countP fun passage => (passageTokens U passage).contains name

def identifierWeights (identifiers : List Text) (frequency : Text → Nat) (poolSize : Nat)
    (maximum : ℚ) : List (Text × ℚ) :=
  identifiers.map fun name =>
    if poolSize < 2 then (name, maximum)
    else (name, 1 + (maximum - 1) * S.rarity poolSize (max 1 (min (frequency name) poolSize)))

structure PreparedQuery where
  normalized : Text
  terms : Finset Text
  isDefinition : Bool
  identifierWeights : List (Text × ℚ)
  vectorRanks : Nat → Option Nat

def queryTerms (query : Text) : Finset Text := (Text.words (normalizeQuery U query)).toFinset

/-- The terms that are scored: those a candidate holds, all of them where no candidate holds
one. -/
def scoredTerms (query : Text) : Option (Finset Text) → Finset Text
  | none => queryTerms U query
  | some findable =>
    -- where nothing is found, all terms stay, and the score is zero
    if queryTerms U query ∩ findable = ∅ then queryTerms U query
    else queryTerms U query ∩ findable

/-- `prepare_query`; `named` is `identifiers`, or what `identifier_terms` finds in the question. -/
def prepareQuery (query : Text) (findable : Option (Finset Text)) (named : List Text)
    (frequency : Option (Text → Nat)) (poolSize : Nat) (vectorRanks : Nat → Option Nat) :
    PreparedQuery :=
  let terms := scoredTerms U query findable
  let maximum := S.identifierTermWeight
  -- a weight of one switches names off
  let identified :=
    if maximum ≠ 1 then (named.filter fun name => decide (name ∈ terms)).dedup else []
  { normalized := normalizeQuery U query
    terms
    isDefinition := isDefinitionQuery U query
    identifierWeights :=
      match frequency with
      | some frequency => identifierWeights S identified frequency poolSize maximum
      | none => identified.map fun name => (name, maximum)
    vectorRanks }

/-! ### The score -/

/-- What the weights of named things add to their number. -/
def weightGain (weights : List (Text × ℚ)) : ℚ :=
  weights.foldr (fun entry gain => entry.2 - 1 + gain) 0

/-- The share of the terms a passage holds, the named things worth more than one. -/
def coverage (prepared : PreparedQuery) (found : Finset Text) : ℚ :=
  if prepared.identifierWeights = [] then (found.card : ℚ) / (max prepared.terms.card 1 : ℕ)
  else
    let weights := prepared.identifierWeights
    let named := weights.filter fun entry => decide (entry.1 ∈ found)
    ((found.card : ℚ) + weightGain named) / max ((prepared.terms.card : ℚ) + weightGain weights) 1

/-- The question stands in a passage, word for word. -/
def quotes (normalized passage : Text) : Bool :=
  decide (2 < normalized.length) &&
    contains normalized (Text.join [' '] (tokens (tokenChar U) passage))

/-- What is added for a definition, and taken for references. -/
def kindBonus (isDefinition : Bool) (passage : Text) : ℚ :=
  if isDefinition then
    -- a passage of links is a reference once more
    (if defines U passage then 3 / 4 else 0) - (if refers U passage then 1 else 0) -
      (if 2 ≤ urlCount passage then 1 / 2 else 0)
  else -(if refers U passage then 1 / 4 else 0)

/-- What a score adds to the coverage; the passage is folded. -/
def bonus (normalized : Text) (isDefinition : Bool) (passage : Text) : ℚ :=
  (if quotes U normalized passage then 7 / 20 else 0) + kindBonus U isDefinition passage

/-- The fields of a passage, as one text. -/
def joined (text title section_ : Text) : Text := Text.join [' '] [text, title, section_]

def scorePreparedText (prepared : PreparedQuery) (text title section_ : Text) : ℚ :=
  let passage := foldDiacritics U (joined text title section_)
  let textTokens := tokens (tokenChar U) passage
  coverage prepared (prepared.terms ∩ textTokens.toFinset) +
    bonus U prepared.normalized prepared.isDefinition passage

/-! ### Candidates -/

/-- `parent_chunk`. -/
structure Parent where
  text : Text
  sectionRef : Text
  deriving DecidableEq

/-- A retrieved chunk; `title` is its article's. -/
structure Chunk where
  id : Nat
  chunkText : Text
  parent : Option Parent
  title : Text
  deriving DecidableEq

/-- The text a chunk is scored on: its own, else its parent's. -/
def Chunk.text (chunk : Chunk) : Text :=
  if chunk.chunkText = [] then (chunk.parent.map Parent.text).getD [] else chunk.chunkText

def Chunk.sectionRef (chunk : Chunk) : Text := (chunk.parent.map Parent.sectionRef).getD []

def chunkPassage (chunk : Chunk) : Text := joined chunk.text chunk.title chunk.sectionRef

def retrievalScore (prepared : PreparedQuery) (chunk : Chunk) : ℚ :=
  let score := scorePreparedText U prepared chunk.text chunk.title chunk.sectionRef
  match prepared.vectorRanks chunk.id with
  | some rank => if rank ≤ S.vectorAssistTopN then max score S.vectorAssistScore else score
  | none => score

def prepareQueryForChunks (query : Text) (chunks : List Chunk) (named : List Text)
    (vectorRanks : Nat → Option Nat) : PreparedQuery :=
  let passages := chunks.map chunkPassage
  prepareQuery U S query (some (corpusTerms U passages)) named
    (some (identifierFrequency U passages)) passages.length vectorRanks

def scoreAt (prepared : PreparedQuery) (chunks : List Chunk) (position : Nat) : ℚ :=
  (chunks[position]?.map (retrievalScore U S prepared)).getD 0

/-- The places of the candidates, the best first, a tie to the earlier one. -/
def positions (prepared : PreparedQuery) (chunks : List Chunk) (limit : Nat) : List Nat :=
  (Rankings.ranking (scoreAt U S prepared chunks) chunks.length).take limit

/-- The candidates by a prepared question, with their scores and places. -/
def rerankPrepared (prepared : PreparedQuery) (chunks : List Chunk) (limit : Nat) :
    List (Nat × Chunk × ℚ) :=
  (positions U S prepared chunks limit).filterMap fun position =>
    chunks[position]?.map fun chunk => (position, chunk, retrievalScore U S prepared chunk)

def rerankChunksWithScores (query : Text) (chunks : List Chunk) (limit : Nat) (named : List Text)
    (vectorRanks : Nat → Option Nat) : List (Nat × Chunk × ℚ) :=
  rerankPrepared U S (prepareQueryForChunks U S query chunks named vectorRanks) chunks limit

variable {U S}

theorem places_rerankPrepared (prepared : PreparedQuery) (chunks : List Chunk) (limit : Nat) :
    (rerankPrepared U S prepared chunks limit).map Prod.fst =
      positions U S prepared chunks limit := by
  have hplace : ∀ position ∈ positions U S prepared chunks limit, position < chunks.length := by
    intro position hmem
    exact Rankings.mem_ranking.mp (List.mem_of_mem_take hmem)
  rw [rerankPrepared, List.map_filterMap]
  conv_rhs => rw [← List.filterMap_some (l := positions U S prepared chunks limit)]
  refine List.filterMap_congr fun position hmem => ?_
  rw [List.getElem?_eq_getElem (hplace position hmem)]
  rfl

end QnscKb.Rerank
