import QnscKb.Lib.Text
import QnscKb.Retrieval.TimeFocus

/-!
# Retrieval — Agentic

`agentic_retrieve` (`src/domain/agent/retrieve.py`): one search a sub-question, more where nothing
solid was found, and one list of all that was found in the end.  What the searches and the model
answer is left open, call by call.
-/

namespace QnscKb.Retrieval

variable {σ : Type} [LinearOrder σ] [Zero σ]

/-- `soft_filters`: only one value narrows a search. -/
structure Filters where
  docType : Option Text
  department : Option Text

/-- What of a plan a retrieval reads. -/
structure AgentPlan where
  subQueries : List Text
  docTypes : List Text
  departments : List Text
  asOf : Option Text

def only : List Text → Option Text
  | [value] => some value
  | _ => none

/-- `AgentPlan.soft_filters`; `none` where it is empty. -/
def AgentPlan.softFilters (plan : AgentPlan) : Option Filters :=
  match only plan.docTypes, only plan.departments with
  | none, none => none
  | docType, department => some ⟨docType, department⟩

/-- `queries`: the sub-questions, or the question itself. -/
def AgentPlan.queries (plan : AgentPlan) (question : Text) : List Text :=
  if plan.subQueries.isEmpty then [Text.strip question] else plan.subQueries

/-- `_Group`; `found` records the lists its searches returned. -/
structure Group (σ : Type) where
  query : Text
  variants : List Text
  results : List (Passage σ)
  found : List (List (Passage σ))

def Group.start (query : Text) : Group σ := ⟨query, [query], [], []⟩

def Group.best (group : Group σ) : σ :=
  match group.results with
  | [] => 0
  | item :: rest => rest.foldl (fun best other => max best other.value) item.value

/-- `_Group.covered`, with `RAG_MIN_CONTEXT_SCORE`. -/
def Group.covered (group : Group σ) (minScore : σ) : Bool := decide (minScore ≤ group.best)

/-- What one search answers. -/
structure Answer (σ : Type) where
  passages : List (Passage σ)
  degraded : Bool

/-- The settings and services of a retrieval; a search and a model call are numbered. -/
structure Services (σ : Type) where
  rerankLimit : Nat
  minContextScore : σ
  maxRounds : Nat
  temporal : Bool
  search : Nat → Text → Option Filters → Answer σ
  /-- The texts under `queries` in the model's reply; `none` where it has no such list. -/
  reply : Nat → List Text → Option (List Text)
  casefold : Text → Text
  round : σ → σ
  parseAsOf : Text → Option Int
  dates : Option Dates

/-- What a retrieval has used so far. -/
structure Session where
  searches : Nat
  modelCalls : Nat
  degraded : Bool
  budget : Nat

namespace Services

variable (s : Services σ)

/-- `run`: one search for a sub-question. -/
def run (filters : Option Filters) (query : Text) (group : Group σ) (session : Session) :
    Group σ × Session :=
  let answer := s.search session.searches query filters
  ({ group with
      results := mergeResults [group.results, answer.passages] s.rerankLimit
      found := group.found ++ [answer.passages] },
    { session with
      searches := session.searches + 1
      degraded := session.degraded || answer.degraded })

def each {S : Type} (step : Group σ → S → Group σ × S) : List (Group σ) → S → List (Group σ) × S
  | [], state => ([], state)
  | group :: groups, state =>
    let (group, state) := step group state
    let (groups, state) := each step groups state
    (group :: groups, state)

/-- The retry of the first round: the same question, without the plan's filters. -/
def retryUnfiltered (group : Group σ) (session : Session) : Group σ × Session :=
  if group.covered s.minContextScore then (group, session) else s.run none group.query group session

/-- The retry with the next of the reworded questions, where it says something new. -/
def retryReworded (group : Group σ) (state : Session × List Text) :
    Group σ × Session × List Text :=
  if group.covered s.minContextScore then (group, state)
  else
    match state with
    | (session, []) => (group, session, [])
    | (session, query :: reworded) =>
      if !query.isEmpty && !(group.variants.map s.casefold).contains (s.casefold query) then
        let (group, session) :=
          s.run none query { group with variants := group.variants ++ [query] } session
        (group, session, reworded)
      else (group, session, reworded)

def reformulate (queries : List Text) (session : Session) : List Text × Session :=
  if queries.isEmpty || session.budget == 0 then ([], session)
  else
    let values := (s.reply session.modelCalls queries).getD []
    ((values.map fun value => (Text.join [' '] (Text.words value)).take 300).take queries.length,
      { session with modelCalls := session.modelCalls + 1, budget := session.budget - 1 })

/-- The rounds that are left, after `rounds` of them. -/
def retry (filters : Option Filters) : Nat → Nat → List (Group σ) → Session →
    List (Group σ) × Nat × Session
  | 0, rounds, groups, session => (groups, rounds, session)
  | left + 1, rounds, groups, session =>
    let missing := groups.filter fun group => !group.covered s.minContextScore
    if missing.isEmpty then (groups, rounds, session)
    else if rounds = 0 ∧ filters.isSome then
      let (groups, session) := each s.retryUnfiltered groups session
      retry filters left (rounds + 1) groups session
    else
      let (reworded, session) := s.reformulate (missing.map Group.query) session
      if reworded.isEmpty then (groups, rounds + 1, session)
      else
        let (groups, session, _) := each s.retryReworded groups (session, reworded)
        retry filters left (rounds + 1) groups session

/-- All the searches of a retrieval: the sub-questions, the rounds and what was used. -/
def searched (plan : AgentPlan) (question : Text) (budget : Nat) :
    List (Group σ) × Nat × Session :=
  let groups := (plan.queries question).map Group.start
  let (groups, session) :=
    each (fun group => s.run plan.softFilters group.query group) groups ⟨0, 0, false, budget⟩
  s.retry plan.softFilters s.maxRounds 0 groups session

end Services

/-- How well a sub-question was covered. -/
structure Coverage (σ : Type) where
  query : Text
  variants : Nat
  hits : Nat
  best : σ
  covered : Bool

structure RetrievalOutcome (σ : Type) where
  results : List (Passage σ)
  rounds : Nat
  sufficient : Bool
  degraded : Bool
  coverage : List (Coverage σ)

namespace Services

variable (s : Services σ)

def results (plan : AgentPlan) (groups : List (Group σ)) : List (Passage σ) :=
  let merged := mergeResults (groups.map Group.results) s.rerankLimit
  match plan.asOf with
  | some asOf =>
    if !asOf.isEmpty && s.temporal then applyTimeFocus s.dates merged (s.parseAsOf asOf) else merged
  | none => merged

def agenticRetrieve (plan : AgentPlan) (question : Text) (budget : Nat) : RetrievalOutcome σ :=
  let (groups, rounds, session) := s.searched plan question budget
  let results := s.results plan groups
  { results
    rounds
    sufficient := !results.isEmpty && groups.all fun group => group.covered s.minContextScore
    degraded := session.degraded
    coverage := groups.map fun group =>
      { query := group.query
        variants := group.variants.length
        hits := group.results.length
        best := s.round group.best
        covered := group.covered s.minContextScore } }

/-! ### What the searches keep -/

/-- A sub-question holds the merge of the lists its searches returned. -/
def Holds (group : Group σ) : Prop := group.results = mergeOneByOne s.rerankLimit group.found

variable {s}

omit [LinearOrder σ] [Zero σ] in
theorem each_forall {S : Type} {step : Group σ → S → Group σ × S} {p : Group σ → Prop}
    (hstep : ∀ group state, p group → p (step group state).1) {groups : List (Group σ)} {state : S}
    (h : ∀ group ∈ groups, p group) : ∀ group ∈ (each step groups state).1, p group := by
  induction groups generalizing state with
  | nil => exact h
  | cons group groups ih =>
    obtain ⟨hfirst, hrest⟩ := List.forall_mem_cons.mp h
    exact List.forall_mem_cons.mpr ⟨hstep group state hfirst, ih hrest⟩

variable {group : Group σ}

theorem Holds.run (h : s.Holds group) (filters : Option Filters) (query : Text)
    (session : Session) : s.Holds (s.run filters query group session).1 := by
  have happ := mergeOneByOne_append s.rerankLimit group.found
    (s.search session.searches query filters).passages
  rw [← h] at happ
  exact happ.symm

theorem Holds.retryUnfiltered (h : s.Holds group) (session : Session) :
    s.Holds (s.retryUnfiltered group session).1 := by
  rw [Services.retryUnfiltered]
  split
  · exact h
  · exact h.run none group.query session

theorem Holds.retryReworded (h : s.Holds group) (state : Session × List Text) :
    s.Holds (s.retryReworded group state).1 := by
  obtain ⟨session, reworded⟩ := state
  cases reworded with
  | nil =>
    dsimp only [Services.retryReworded]
    split_ifs <;> exact h
  | cons query reworded =>
    dsimp only [Services.retryReworded]
    split_ifs
    · exact h
    · have hasked : s.Holds { group with variants := group.variants ++ [query] } := h
      exact hasked.run none query session
    · exact h

theorem retry_forall {p : Group σ → Prop} {filters : Option Filters}
    (hunfiltered : ∀ group session, p group → p (s.retryUnfiltered group session).1)
    (hreworded : ∀ group state, p group → p (s.retryReworded group state).1) {left rounds : Nat}
    {groups : List (Group σ)} {session : Session} (h : ∀ group ∈ groups, p group) :
    ∀ group ∈ (s.retry filters left rounds groups session).1, p group := by
  induction left generalizing rounds groups session with
  | zero => exact h
  | succ left ih =>
    dsimp only [retry]
    split_ifs
    · exact h
    · exact ih (each_forall hunfiltered h)
    · exact h
    · exact ih (each_forall hreworded h)

/-- A sub-question holds the merge of what its searches returned. -/
theorem searched_merged (plan : AgentPlan) (question : Text) (budget : Nat) :
    ∀ group ∈ (s.searched plan question budget).1, s.Holds group := by
  refine retry_forall (fun _ session h => h.retryUnfiltered session)
    (fun _ state h => h.retryReworded state) ?_
  refine each_forall (fun group session h => h.run _ group.query session) ?_
  intro group hgroup
  obtain ⟨query, -, rfl⟩ := List.mem_map.mp hgroup
  rfl

end Services

end QnscKb.Retrieval
