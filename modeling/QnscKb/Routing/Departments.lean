import QnscKb.Ask.Json
import QnscKb.Routing.Sections
import Mathlib.Algebra.GroupWithZero.Nat

/-!
# Routing — Departments

Which departments a section may belong to (`src/domain/department_routing.py`): the ranking by the
words of their names and descriptions, and what is read of a model's reply.  The model behind
`complete` and `json.loads` are parameters.
-/

namespace QnscKb.Routing

open Ask (Json Fields Python decimal)

structure Department where
  id : Text
  name : Text
  description : Text
  deriving DecidableEq

structure Suggestion where
  departmentId : Text
  name : Text
  description : Text
  score : Nat
  deriving DecidableEq

/-- The new department a reviewer is offered to create. -/
structure Proposal where
  name : Text
  description : Text
  deriving DecidableEq

/-- What `_assignment` holds: the owning department first. -/
structure Assignment where
  departmentIds : List Text
  departmentSuggestions : List Suggestion
  proposedDepartment : Option Proposal
  deriving DecidableEq

/-! ### The keyword ranking -/

section Ranking

variable (P : Python)

def STOP_WORDS : List Text :=
  ["about".toList, "and".toList, "are".toList, "for".toList, "from".toList, "into".toList,
    "knowledge".toList, "that".toList, "the".toList, "this".toList, "with".toList, "your".toList,
    "document".toList, "department".toList]

/-- `À-ỹ`. -/
def accented (c : Char) : Bool := 0xC0 ≤ c.toNat && c.toNat ≤ 0x1EF9

/-- The first character of `_TOKEN_RE`. -/
def opensToken (c : Char) : Bool := c.isAlphanum || accented c

def continuesToken (c : Char) : Bool := opensToken c || c == '_' || c == '-'

def tokenOf (run : Text) : List Text := if 3 ≤ run.length then [run] else []

/-- `_TOKEN_RE.findall`, with the run read so far. -/
def tokensFrom : Text → Text → List Text
  | run, [] => tokenOf run
  | run, c :: t =>
    if run.isEmpty then tokensFrom (if opensToken c then [c] else []) t
    else if continuesToken c then tokensFrom (run ++ [c]) t
    else tokenOf run ++ tokensFrom [] t

/-- `_tokens`, each as often as it counts. -/
def tokens (value : Text) : List Text :=
  ((tokensFrom [] value).map P.lower).filter (!STOP_WORDS.contains ·)

/-- How many words of a document a department's name and description share. -/
def overlap (document reference : List Text) : Nat :=
  (document.dedup.map fun token => min (document.count token) (reference.count token)).sum

/-- `re.sub(r"[^\wÀ-ỹ -]+", " ", …)`, inside a run that is replaced or not. -/
def spaced : Bool → Text → Text
  | _, [] => []
  | replacing, c :: t =>
    if P.unicode.word c || accented c || c == ' ' || c == '-' then c :: spaced false t
    else if replacing then spaced true t
    else ' ' :: spaced true t

def proposalName (title : Text) : Text :=
  Text.orElse
    (some ((Text.join [' '] ((Text.words (Text.strip (spaced P false title))).take 6)).take 100))
    "New department".toList

/-- The order departments are ranked in: the higher score, then the name. -/
def rankedBefore (a b : Nat × Department) : Bool :=
  b.1 < a.1 || a.1 == b.1 &&
    !(List.lex (P.lower b.2.name) (P.lower a.2.name) fun c d => c.toNat < d.toNat)

def Suggestion.of (ranked : Nat × Department) : Suggestion where
  departmentId := ranked.2.id
  name := ranked.2.name
  description := ranked.2.description
  score := ranked.1

/-- The departments that share a word with the document, best first. -/
def rankedDepartments (title body : Text) (departments : List Department) :
    List (Nat × Department) :=
  let document := tokens P (title ++ [' '] ++ title ++ [' '] ++ body)
  let scored := departments.map fun d =>
    (overlap document (tokens P (d.name ++ [' '] ++ d.description)), d)
  (scored.filter fun ranked => ranked.1 != 0).insertionSort fun a b => rankedBefore P a b

def suggestDepartments (title body : Text) (departments : List Department) : Assignment :=
  let suggestions := ((rankedDepartments P title body departments).take 3).map Suggestion.of
  { departmentIds := (suggestions.take 1).map Suggestion.departmentId
    departmentSuggestions := suggestions
    proposedDepartment :=
      if suggestions.isEmpty then
        some
          { name := proposalName P title
            description := "Knowledge and procedures related to ".toList ++
              Text.orElse (some ((Text.strip title).take 180)) "this subject".toList ++ ['.'] }
      else none }

end Ranking

/-! ### The model's reply -/

/-- What answers a routing request: whether a provider is configured, its call, and `json.loads`;
`none` is a failure. -/
structure Model where
  configured : Bool
  complete : (system user : Text) → (maxTokens : Nat) → Option Text
  loads : Text → Option Json

structure Settings where
  autoSplit : Bool
  llmEnabled : Bool

def LLM_BODY_CHARS : Nat := 1200
def LLM_MAX_SECTIONS : Nat := 12

def ROUTING_SYSTEM_PROMPT : Text :=
  ("You assign sections of a document to the department that owns them in a company " ++
    "knowledge base. Reply with JSON only, no prose: " ++
    "\x7b\"assignments\": [\x7b\"section\": <int>, \"department\": <int>\x7d]\x7d. " ++
    "Use only the department numbers given. Use 0 when no listed department is a " ++
    "sensible owner. Include every section exactly once.").toList

def routingPrompt (title : Text) (sections : List Section) (departments : List Department) : Text :=
  joinLines
    ("DEPARTMENTS:".toList ::
      departments.mapIdx (fun i d =>
        let description := Text.strip d.description
        decimal (i + 1) ++ ". ".toList ++ d.name ++
          if description.isEmpty then [] else " - ".toList ++ description.take 300) ++
      [[], "DOCUMENT: ".toList ++ title, [], "SECTIONS:".toList] ++
      (sections.mapIdx fun i s =>
        ["--- section ".toList ++ decimal (i + 1) ++ ": ".toList ++ s.title,
          s.bodyMd.take LLM_BODY_CHARS]).flatten)

/-- `payload.get("assignments") or []`, as it is iterated; `none` is an exception. -/
def entriesOf : Json → Option (List Json)
  | .object payload =>
    match Fields.get payload "assignments" with
    | .list entries => some entries
    -- The keys of a dict and the characters of a text are no dicts.
    | .object _ | .text _ => some []
    | value => if value.truthy then none else some []
  | _ => none

def readEntry (sectionCount departmentCount : Nat) : Json → Option (Nat × Nat)
  | .object entry =>
    match Fields.get entry "section", Fields.get entry "department" with
    | .int s, .int d =>
      if 1 ≤ s ∧ s ≤ sectionCount ∧ 1 ≤ d ∧ d ≤ departmentCount then some (s.toNat, d.toNat)
      else none
    | _, _ => none
  | _ => none

/-- `_parse_assignments`: sections with departments, the latest first; `none` is an exception. -/
def parseAssignments (loads : Text → Option Json) (reply : Text)
    (sectionCount departmentCount : Nat) : Option (List (Nat × Nat)) :=
  match Text.replyJson reply with
  | none => some []
  | some text => do
      let payload ← loads text
      let entries ← entriesOf payload
      some (entries.filterMap (readEntry sectionCount departmentCount)).reverse

inductive RoutingState
  | off | notApplicable | unavailable | unreadable | answered
  deriving DecidableEq, Repr

structure RoutingOutcome where
  state : RoutingState
  assignments : List (Nat × Department)
  deriving DecidableEq

def llmSectionDepartments (settings : Settings) (model : Model) (title : Text)
    (sections : List Section) (departments : List Department) : RoutingOutcome :=
  if settings.llmEnabled = false then ⟨.off, []⟩
  else if departments = [] ∨ sections = [] ∨ LLM_MAX_SECTIONS < sections.length then
    ⟨.notApplicable, []⟩
  else if model.configured = false then ⟨.unavailable, []⟩
  else
    match model.complete ROUTING_SYSTEM_PROMPT (routingPrompt title sections departments)
        (64 + 24 * sections.length) with
    | none => ⟨.unavailable, []⟩
    | some reply =>
      match parseAssignments model.loads reply sections.length departments.length with
      | none => ⟨.unreadable, []⟩
      | some chosen =>
        ⟨.answered, chosen.filterMap fun c => departments[c.2 - 1]?.map fun d => (c.1, d)⟩

/-! ### What a reply answers -/

/-- An entry that names a section and a department that exist. -/
def EntryUsable (sectionCount departmentCount : Nat) (entry : Json) : Prop :=
  ∃ (fields : Fields) (s d : Nat), entry = .object fields ∧
    Fields.get fields "section" = .int s ∧ Fields.get fields "department" = .int d ∧
    1 ≤ s ∧ s ≤ sectionCount ∧ 1 ≤ d ∧ d ≤ departmentCount

/-- A reply that holds, between its first `{` and its last `}`, a usable entry. -/
def ReplyUsable (loads : Text → Option Json) (sectionCount departmentCount : Nat)
    (reply : Text) : Prop :=
  ∃ text payload entries, Text.replyJson reply = some text ∧
    loads text = some (.object payload) ∧ Fields.get payload "assignments" = .list entries ∧
    ∃ entry ∈ entries, EntryUsable sectionCount departmentCount entry

/-- The model was asked, and its reply holds a usable entry. -/
structure Answered (settings : Settings) (model : Model) (title : Text) (sections : List Section)
    (departments : List Department) : Prop where
  enabled : settings.llmEnabled = true
  configured : model.configured = true
  few : sections.length ≤ LLM_MAX_SECTIONS
  usable : ∃ reply, model.complete ROUTING_SYSTEM_PROMPT (routingPrompt title sections departments)
    (64 + 24 * sections.length) = some reply ∧
      ReplyUsable model.loads sections.length departments.length reply

end QnscKb.Routing
