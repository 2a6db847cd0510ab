import QnscKb.Ask.Answer
import QnscKb.Lib.Runs

/-!
# Ask — AnswerCache

The cache of answers among the runs of `AIService.ask` (`src/domain/ai_service.py`, steps 2 and 9,
`src/repositories/ai.py`) and the invalidations of `EventBus.publish` (`src/domain/events.py`), each
with its reads and writes as steps of their own.

The changes of an article are counted, and an invalidation says which of them it follows.  Passages,
answers and readable chunks come from outside; `sha256` is a parameter.
-/

namespace QnscKb.Ask
open QnscKb.Runs

/-- A row of `ai_cache`.  `seen` is no column: the changes each article had when the answer was
retrieved. -/
structure AiCache where
  cacheKey : String
  ownerUserId : Nat
  questionHash : String
  authorizationFingerprint : String
  answer : Text
  citations : List Citation
  articleIds : List Nat
  expiresAt : Nat
  seen : Nat → Nat

/-- What a run of `ask` looks up: `followUp` if there is history, `enrichment` for a figure, a chart
or a calculation. -/
structure Question where
  ownerUserId : Nat
  questionHash : String
  authorizationFingerprint : String
  followUp : Bool
  enrichment : Bool

/-- What the generation leaves for the write. -/
structure Generated where
  groundedAnswer : Text
  extendedAnswer : Text
  citations : List Citation
  isRefusal : Bool
  artifacts : Bool
  corpus : Bool

/-! ### `get_cached`, `cache_answer` -/

variable (U : Unicode) (sha256 : String → String) (cacheExtended : Bool)

/-- `get_cached`.  Several rows would raise; the two hashes determine the unique `cache_key`. -/
def getCached (now : Nat) (cache : List AiCache) (q : Question) : Option AiCache :=
  match cache.filter fun row => row.questionHash == q.questionHash && decide (now < row.expiresAt) &&
      row.authorizationFingerprint == q.authorizationFingerprint &&
      row.ownerUserId == q.ownerUserId with
  | [row] => some row
  | _ => none

/-- `cache_valid` and the check of the cited chunks.  A stored citation has the one marker and the
chunk its writer gave it. -/
def cacheValid (row : AiCache) (authorizedIds : List Nat) : Bool :=
  let answerSourceIds := extractCitationIds U (splitAnswerSections U row.answer).1
  !row.citations.isEmpty && !answerSourceIds.isEmpty &&
    answerSourceIds.all (fun n => (row.citations.map (·.source)).contains n) &&
    row.citations.all fun item => authorizedIds.contains item.chunkId

def lookupCache (now : Nat) (cache : List AiCache) (q : Question) (authorizedIds : List Nat) :
    Option AiCache :=
  if q.followUp || q.enrichment then none
  else (getCached now cache q).filter fun row => cacheValid U row authorizedIds

def cacheWorthy (q : Question) (g : Generated) : Bool :=
  !g.isRefusal && !g.citations.isEmpty && !g.artifacts && !g.corpus && !q.followUp

def cachedAnswer (g : Generated) : Text :=
  if cacheExtended && !g.extendedAnswer.isEmpty then
    "<<<GROUNDED>>>\n".toList ++ g.groundedAnswer ++ "\n<<<EXTENDED>>>\n".toList ++ g.extendedAnswer
  else g.groundedAnswer

/-- `cache_obj`, for six hours. -/
def cacheObj (now : Nat) (q : Question) (articleIds : List Nat) (seen : Nat → Nat) (g : Generated) :
    AiCache where
  cacheKey := sha256 (q.questionHash ++ "|" ++ q.authorizationFingerprint)
  ownerUserId := q.ownerUserId
  questionHash := q.questionHash
  authorizationFingerprint := q.authorizationFingerprint
  answer := cachedAnswer cacheExtended g
  citations := g.citations
  articleIds := articleIds
  expiresAt := now + 21600
  seen := seen

/-- `cache_answer`: an upsert by `cache_key`. -/
def cacheAnswer (cache : List AiCache) (row : AiCache) : List AiCache :=
  row :: cache.filter fun other => other.cacheKey != row.cacheKey

/-- The `DELETE` of `EventBus.publish`. -/
def invalidateCache (cache : List AiCache) (articleId : Nat) : List AiCache :=
  cache.filter fun row => !row.articleIds.contains articleId

/-! ### Runs of `ask` -/

/-- Where a run stands. -/
inductive AskStage where
  | lookup
  | retrieval
  | generation (articleIds : List Nat) (seen : Nat → Nat)
  | write (articleIds : List Nat) (seen : Nat → Nat) (g : Generated)
  | finished

structure AskRun where
  question : Question
  stage : AskStage

/-- The cache, the runs, and the committed and the invalidated changes of each article. -/
structure CacheState where
  now : Nat
  cache : List AiCache
  runs : List AskRun
  committed : Nat → Nat
  invalidated : Nat → Nat

namespace CacheState

def move (s : CacheState) (i : Nat) (q : Question) (stage : AskStage) : CacheState :=
  { s with runs := s.runs.set i ⟨q, stage⟩ }

def store (s : CacheState) (row : AiCache) : CacheState :=
  { s with cache := cacheAnswer s.cache row }

def commit (s : CacheState) (articleId : Nat) : CacheState :=
  { s with committed := fun a => if a = articleId then s.committed a + 1 else s.committed a }

/-- The invalidation after the `change`-th change of an article. -/
def invalidate (s : CacheState) (articleId change : Nat) : CacheState :=
  { s with
    cache := invalidateCache s.cache articleId
    invalidated := fun a =>
      if a = articleId then max (s.invalidated a) change else s.invalidated a }

end CacheState

inductive CacheAction where
  /-- A question arrives. -/
  | ask (q : Question)
  /-- A run looks up its question; the chunks its user may read now. -/
  | lookup (run : Nat) (authorizedIds : List Nat)
  /-- A run retrieves; the articles of the results. -/
  | retrieve (run : Nat) (results : List Nat)
  | generate (run : Nat) (g : Generated)
  | write (run : Nat)
  /-- A run returns or raises before its write. -/
  | leave (run : Nat)
  | commit (articleId : Nat)
  | invalidate (articleId change : Nat)
  | wait (seconds : Nat)

inductive CacheEvent where
  | served (row : AiCache)
  | wrote (row : AiCache)
  | quiet

def nextCache (s : CacheState) : CacheAction → Option (CacheEvent × CacheState)
  | .ask q => some (.quiet, { s with runs := s.runs ++ [⟨q, .lookup⟩] })
  | .lookup i authorizedIds =>
    match s.runs[i]? with
    | some ⟨q, .lookup⟩ =>
      match lookupCache U s.now s.cache q authorizedIds with
      | some row => some (.served row, s.move i q .finished)
      | none => some (.quiet, s.move i q .retrieval)
    | _ => none
  | .retrieve i results =>
    match s.runs[i]? with
    | some ⟨q, .retrieval⟩ =>
      if results.isEmpty then some (.quiet, s.move i q .finished)
      else some (.quiet, s.move i q (.generation results.dedup s.committed))
    | _ => none
  | .generate i g =>
    match s.runs[i]? with
    | some ⟨q, .generation ids seen⟩ => some (.quiet, s.move i q (.write ids seen g))
    | _ => none
  | .write i =>
    match s.runs[i]? with
    | some ⟨q, .write ids seen g⟩ =>
      if cacheWorthy q g then
        let row := cacheObj sha256 cacheExtended s.now q ids seen g
        some (.wrote row, (s.store row).move i q .finished)
      else some (.quiet, s.move i q .finished)
    | _ => none
  | .leave i =>
    match s.runs[i]? with
    | some ⟨q, _⟩ => some (.quiet, s.move i q .finished)
    | none => none
  | .commit a => some (.quiet, s.commit a)
  | .invalidate a change =>
    if change ≤ s.committed a then some (.quiet, s.invalidate a change) else none
  | .wait seconds => some (.quiet, { s with now := s.now + seconds })

def CacheInitial (s : CacheState) : Prop :=
  s.cache = [] ∧ s.runs = [] ∧ s.committed = (fun _ => 0) ∧ s.invalidated = fun _ => 0

theorem mem_of_lookupCache {now : Nat} {cache : List AiCache} {q : Question} {ids : List Nat}
    {row : AiCache} (h : lookupCache U now cache q ids = some row) : row ∈ cache := by
  unfold lookupCache at h
  split at h
  · cases h
  · obtain ⟨hget, -⟩ := Option.filter_eq_some_iff.mp h
    unfold getCached at hget
    split at hget
    · rename_i found hfound
      cases hget
      exact List.mem_of_mem_filter (hfound ▸ List.mem_singleton_self _)
    · cases hget

theorem nextCache_cases {s t : CacheState} {a : CacheAction} {e : CacheEvent}
    (h : nextCache U sha256 cacheExtended s a = some (e, t)) :
    (t.cache = s.cache ∧ t.invalidated = s.invalidated ∧
        (e = .quiet ∨ ∃ row ∈ s.cache, e = .served row)) ∨
      (∃ row, e = .wrote row ∧ t.cache = cacheAnswer s.cache row ∧
        t.invalidated = s.invalidated) ∨
      ∃ articleId change, e = .quiet ∧ t.cache = invalidateCache s.cache articleId ∧
        t.invalidated = (s.invalidate articleId change).invalidated := by
  cases a with
  | ask q =>
    cases h
    exact Or.inl ⟨rfl, rfl, Or.inl rfl⟩
  | lookup i authorizedIds =>
    simp only [nextCache] at h
    split at h
    · rename_i q _
      split at h
      · rename_i row hrow
        cases h
        exact Or.inl ⟨rfl, rfl, Or.inr ⟨row, mem_of_lookupCache U hrow, rfl⟩⟩
      · cases h
        exact Or.inl ⟨rfl, rfl, Or.inl rfl⟩
    · cases h
  | retrieve i results =>
    simp only [nextCache] at h
    split at h
    · split at h
      · cases h
        exact Or.inl ⟨rfl, rfl, Or.inl rfl⟩
      · cases h
        exact Or.inl ⟨rfl, rfl, Or.inl rfl⟩
    · cases h
  | generate | leave =>
    simp only [nextCache] at h
    split at h
    · cases h
      exact Or.inl ⟨rfl, rfl, Or.inl rfl⟩
    · cases h
  | write i =>
    simp only [nextCache] at h
    split at h
    · split at h
      · cases h
        exact Or.inr (Or.inl ⟨_, rfl, rfl, rfl⟩)
      · cases h
        exact Or.inl ⟨rfl, rfl, Or.inl rfl⟩
    · cases h
  | commit articleId =>
    cases h
    exact Or.inl ⟨rfl, rfl, Or.inl rfl⟩
  | invalidate articleId change =>
    simp only [nextCache] at h
    split at h
    · cases h
      exact Or.inr (Or.inr ⟨articleId, change, rfl, rfl, rfl⟩)
    · cases h
  | wait seconds =>
    cases h
    exact Or.inl ⟨rfl, rfl, Or.inl rfl⟩

end QnscKb.Ask
