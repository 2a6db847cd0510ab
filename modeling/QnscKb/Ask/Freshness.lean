import QnscKb.Ask.AnswerCache

/-!
# Ask — Freshness

A row of the cache is *current* if it was retrieved after every invalidated change of its articles.
Invalidations, lookups and commits keep that; a write can break it, for it stores what was retrieved
before an invalidation that found nothing to delete.
-/

namespace QnscKb.Ask
open QnscKb.Runs

variable {U : Unicode} {sha256 : String → String} {cacheExtended : Bool}

/-- Retrieved after the last invalidated change of each of its articles. -/
def CurrentIn (invalidated : Nat → Nat) (row : AiCache) : Prop :=
  ∀ a ∈ row.articleIds, invalidated a ≤ row.seen a

instance (invalidated : Nat → Nat) (row : AiCache) : Decidable (CurrentIn invalidated row) :=
  inferInstanceAs (Decidable (∀ a ∈ row.articleIds, _))

def ServedFresh (s : CacheState) : CacheEvent → Prop
  | .served row => CurrentIn s.invalidated row
  | _ => True

instance (s : CacheState) : (e : CacheEvent) → Decidable (ServedFresh s e)
  | .served row => inferInstanceAs (Decidable (CurrentIn s.invalidated row))
  | .wrote _ => isTrue trivial
  | .quiet => isTrue trivial

/-- No change of an article, committed after the retrieval, has been invalidated before the
write. -/
def WritesInTime (s : CacheState) : CacheEvent → Prop
  | .wrote row => CurrentIn s.invalidated row
  | _ => True

instance (s : CacheState) : (e : CacheEvent) → Decidable (WritesInTime s e)
  | .served _ => isTrue trivial
  | .wrote row => inferInstanceAs (Decidable (CurrentIn s.invalidated row))
  | .quiet => isTrue trivial

def CacheCurrent (s : CacheState) : Prop := ∀ row ∈ s.cache, CurrentIn s.invalidated row

/-! ### Steps -/

theorem mem_cacheAnswer {cache : List AiCache} {row other : AiCache}
    (h : other ∈ cacheAnswer cache row) : other = row ∨ other ∈ cache := by
  rcases List.mem_cons.mp h with rfl | hold
  · exact Or.inl rfl
  · exact Or.inr (List.mem_of_mem_filter hold)

theorem current_invalidate {s : CacheState} (h : CacheCurrent s) (articleId change : Nat) :
    ∀ row ∈ invalidateCache s.cache articleId,
      CurrentIn (s.invalidate articleId change).invalidated row := by
  intro row hrow a ha
  obtain ⟨hold, hother⟩ := List.mem_filter.mp hrow
  have hne : a ≠ articleId := by
    rintro rfl
    simp [ha] at hother
  simp only [CacheState.invalidate, if_neg hne]
  exact h row hold a ha

/-- **The step**: every row stays current if the write is in time. -/
theorem current_step {s t : CacheState} {e : CacheEvent} (h : CacheCurrent s)
    (hc : WritesInTime s e) (hstep : By (nextCache U sha256 cacheExtended) s e t) :
    CacheCurrent t := by
  obtain ⟨action, hnext⟩ := hstep
  intro row hrow
  rcases nextCache_cases U sha256 cacheExtended hnext with
    ⟨hcache, hinv, -⟩ | ⟨written, rfl, hcache, hinv⟩ | ⟨articleId, change, -, hcache, hinv⟩
  · rw [hinv]
    exact h row (hcache ▸ hrow)
  · rw [hinv]
    rcases mem_cacheAnswer (hcache ▸ hrow) with rfl | hold
    · exact hc
    · exact h row hold
  · rw [hinv]
    exact current_invalidate h articleId change row (hcache ▸ hrow)

theorem fresh_of_current {s t : CacheState} {e : CacheEvent} (h : CacheCurrent s)
    (hstep : By (nextCache U sha256 cacheExtended) s e t) : ServedFresh s e := by
  obtain ⟨action, hnext⟩ := hstep
  rcases nextCache_cases U sha256 cacheExtended hnext with
    ⟨-, -, rfl | ⟨row, hrow, rfl⟩⟩ | ⟨written, rfl, -, -⟩ | ⟨articleId, change, rfl, -, -⟩
  · trivial
  · exact h row hrow
  · trivial
  · trivial

/-- **No stale answer is served** in a run whose writes are in time. -/
theorem served_fresh {tr : List (CacheState × CacheEvent)} {s : CacheState}
    (r : Run CacheInitial (By (nextCache U sha256 cacheExtended)) tr s)
    (hc : Throughout WritesInTime tr) : Throughout ServedFresh tr := by
  refine r.always (I := CacheCurrent) (C := WritesInTime) ?_ ?_ ?_ hc
  · intro s hs row hrow
    rw [hs.1] at hrow
    cases hrow
  · intro s e t h he hstep
    exact current_step h he hstep
  · intro s e t h _ hstep
    exact fresh_of_current h hstep

/-! ### An edit between a retrieval and its write -/

def standalone : Question where
  ownerUserId := 100
  questionHash := "leave days"
  authorizationFingerprint := "staff"
  followUp := false
  enrichment := false

/-- An answer that cites the one passage of article 1000. -/
def leaveDays : Generated where
  groundedAnswer := "Twelve days [C1].".toList
  extendedAnswer := []
  citations := [{
    source := 1
    chunkId := 5
    childChunkIds := [5]
    parentChunkId := none
    articleId := 1000
    title := "Leave".toList
    sectionRef := none
    heading := none
    sourceRef := "Leave - General".toList
    excerpt := "Twelve days.".toList }]
  isRefusal := false
  artifacts := false
  corpus := false

def emptyCache : CacheState where
  now := 0
  cache := []
  runs := []
  committed := fun _ => 0
  invalidated := fun _ => 0

theorem initial_emptyCache : CacheInitial emptyCache := ⟨rfl, rfl, rfl, rfl⟩

def editSteps : List CacheAction := [.commit 1000, .invalidate 1000 1]

/-- The question is asked and answered, with other steps between the retrieval and the write, and
asked again. -/
def askedTwice (between : List CacheAction) : List CacheAction :=
  [.ask standalone, .lookup 0 [5], .retrieve 0 [1000]] ++ between ++
    [.generate 0 leaveDays, .write 0, .ask standalone, .lookup 1 [5]]

abbrev plainNext : CacheState → CacheAction → Option (CacheEvent × CacheState) :=
  nextCache ascii id false

/-- The question is answered, the article edited, the question answered anew, and once more from the
cache. -/
def askedThrice : List CacheAction :=
  [.ask standalone, .lookup 0 [5], .retrieve 0 [1000], .generate 0 leaveDays, .write 0] ++ editSteps ++
    [.ask standalone, .lookup 1 [5], .retrieve 1 [1000], .generate 1 leaveDays, .write 1,
      .ask standalone, .lookup 2 [5]]

theorem askedThrice_plays : (play plainNext [] emptyCache askedThrice).isSome = true := by
  decide +kernel

theorem served_fresh_askedThrice :
    Throughout ServedFresh ((play plainNext [] emptyCache askedThrice).get askedThrice_plays).1 :=
  served_fresh (run_play initial_emptyCache askedThrice_plays) (by decide +kernel)

theorem askedTwice_plays :
    (play plainNext [] emptyCache (askedTwice editSteps)).isSome = true := by
  decide +kernel

/-- The article is edited, and its cached answers deleted, while an answer is being written from the
old text; the next one who asks is served it. -/
theorem stale_answer_served :
    ¬ ∀ (U : Unicode) (sha256 : String → String) (cacheExtended : Bool)
      (tr : List (CacheState × CacheEvent)) (s : CacheState),
      Run CacheInitial (By (nextCache U sha256 cacheExtended)) tr s →
        Throughout ServedFresh tr := by
  intro h
  have hfresh := h _ _ _ _ _
    (run_play initial_emptyCache askedTwice_plays)
  exact absurd hfresh (by decide +kernel)

end QnscKb.Ask
