import Mathlib.Data.List.Induction
import Mathlib.Data.Prod.Lex
import Mathlib.Algebra.Order.Ring.Rat
import QnscKb.Lib.Text

/-!
# Retrieval — Collapse

One result for a passage that several documents repeat (`collapse_duplicates` of
`src/rag/dedupe.py`, exact matches alone).  The Unicode tables and the rounding of scores are
parameters; times and scores are rationals.
-/

namespace QnscKb.Dedupe

/-! ### Passages -/

structure Article where
  id : Nat
  title : Text
  dept : Option Text
  lastReviewed : Option ℚ
  updatedAt : Option ℚ
  deriving DecidableEq

structure Chunk where
  id : Nat
  chunkText : Text
  evidenceId : Option Nat
  article : Option Article
  deriving DecidableEq

/-- What is said of a copy. -/
structure Source where
  chunkId : Nat
  articleId : Nat
  title : Text
  dept : Option Text
  deriving DecidableEq

/-- `unicodedata.normalize("NFKC", …)`, `str.casefold`, `\w`, and `round(…, 2)` of a score. -/
structure Tables where
  nfkc : Text → Text
  casefold : Text → Text
  word : Char → Bool
  twoPlaces : ℚ → ℚ

variable (T : Tables) (minChars : Nat)

/-- `_NON_WORD.sub(" ", …)`, after a match or not. -/
def foldNonWord (matched : Bool) : Text → Text
  | [] => []
  | c :: t =>
    if !T.word c || c == '_' then
      if matched then foldNonWord true t else ' ' :: foldNonWord true t
    else c :: foldNonWord false t

def passageKey (text : Text) : Text :=
  Text.strip (foldNonWord T false (T.casefold (T.nfkc text)))

/-- `_preference`, compared as Python compares tuples. -/
def preference (p : Chunk × ℚ) : ℚ ×ₗ ℚ ×ₗ ℚ :=
  toLex (T.twoPlaces p.2, toLex ((p.1.article.bind Article.lastReviewed).getD 0,
    (p.1.article.bind Article.updatedAt).getD 0))

/-- `_source`, of a passage that has an article. -/
def source (chunk : Chunk) : List Source :=
  chunk.article.toList.map fun article =>
    { chunkId := chunk.id, articleId := article.id, title := article.title, dept := article.dept }

def Chunk.articleId (chunk : Chunk) : Option Nat := chunk.article.map Article.id

/-- Only plain text that is long enough is compared. -/
def eligible (chunk : Chunk) : Bool :=
  chunk.article.isSome && chunk.evidenceId.isNone &&
    decide (minChars ≤ (Text.strip chunk.chunkText).length)

def Chunk.key (chunk : Chunk) : Text := passageKey T chunk.chunkText

/-! ### The loop -/

/-- `kept`, `also_in` (an absent entry is an empty one) and `by_key`. -/
structure State where
  kept : List (Chunk × ℚ)
  alsoIn : Nat → List Source
  byKey : Text → Option Nat

def init : State := ⟨[], fun _ => [], fun _ => none⟩

/-- The slot of a copy from another article, and what stands in it. -/
def matchOf (s : State) (chunk : Chunk) : Option (Nat × (Chunk × ℚ)) :=
  if eligible minChars chunk then
    (s.byKey (chunk.key T)).bind fun slot =>
      (s.kept[slot]?).bind fun current =>
        if current.1.articleId ≠ chunk.articleId then some (slot, current) else none
  else none

def State.add (s : State) (p : Chunk × ℚ) : State :=
  { s with
    kept := s.kept ++ [p]
    byKey :=
      if eligible minChars p.1 ∧ s.byKey (p.1.key T) = none then
        Function.update s.byKey (p.1.key T) (some s.kept.length)
      else s.byKey }

/-- The better copy takes the slot, and the one before is listed. -/
def State.replace (s : State) (slot : Nat) (current p : Chunk × ℚ) : State :=
  { s with
    kept := s.kept.set slot p
    alsoIn := Function.update (Function.update s.alsoIn current.1.id []) p.1.id
      (s.alsoIn current.1.id ++ source current.1) }

def State.list (s : State) (current p : Chunk × ℚ) : State :=
  { s with
    alsoIn := Function.update s.alsoIn current.1.id (s.alsoIn current.1.id ++ source p.1) }

def step (s : State) (p : Chunk × ℚ) : State :=
  match matchOf T minChars s p.1 with
  | none => s.add T minChars p
  | some (slot, current) =>
    if preference T current < preference T p then s.replace slot current p
    else s.list current p

def run (ranked : List (Chunk × ℚ)) : State := ranked.foldl (step T minChars) init

/-- The entries of articles not seen so far, one for each. -/
def unique : List Nat → List Source → List Source
  | _, [] => []
  | seen, entry :: entries =>
    if seen.contains entry.articleId then unique seen entries
    else entry :: unique (entry.articleId :: seen) entries

/-- The last loop: what is listed for each kept passage; `none` is the `AttributeError` of one
without an article. -/
def cleaned (alsoIn : Nat → List Source) : List (Chunk × ℚ) → Option (Nat → List Source)
  | [] => some fun _ => []
  | p :: kept => do
      let article ← p.1.article
      let later ← cleaned alsoIn kept
      return fun id =>
        if later id ≠ [] then later id
        else if id = p.1.id then unique [article.id] (alsoIn p.1.id) else []

/-- `collapse_duplicates`, with a `similarity` above one. -/
def collapse (ranked : List (Chunk × ℚ)) : Option (List (Chunk × ℚ) × (Nat → List Source)) :=
  let s := run T minChars ranked
  (cleaned s.alsoIn s.kept).map fun alsoIn => (s.kept, alsoIn)

variable {T minChars} {s : State} {p current : Chunk × ℚ} {slot : Nat}

/-! ### One step -/

/-- A passage that is compared, with the text it is compared by. -/
def Says (T : Tables) (minChars : Nat) (key : Text) (p : Chunk × ℚ) : Prop :=
  eligible minChars p.1 = true ∧ p.1.key T = key

/-- Two passages of one text in one article. -/
def Copy (T : Tables) (minChars : Nat) (key : Text) (p q : Chunk × ℚ) : Prop :=
  Says T minChars key p ∧ Says T minChars key q ∧ p.1.articleId = q.1.articleId

variable {chunk : Chunk}

theorem matchOf_some (h : matchOf T minChars s chunk = some (slot, current)) :
    eligible minChars chunk = true ∧ s.byKey (chunk.key T) = some slot ∧
      s.kept[slot]? = some current ∧ current.1.articleId ≠ chunk.articleId := by
  rw [matchOf] at h
  split at h
  · rename_i heligible
    obtain ⟨slot', hslot, h⟩ := Option.bind_eq_some_iff.mp h
    obtain ⟨current', hcurrent, h⟩ := Option.bind_eq_some_iff.mp h
    split at h
    · rename_i harticle
      obtain ⟨rfl, rfl⟩ := Prod.mk.inj (Option.some.inj h)
      exact ⟨heligible, hslot, hcurrent, harticle⟩
    · cases h
  · cases h

theorem matchOf_none (h : matchOf T minChars s chunk = none)
    (heligible : eligible minChars chunk = true) (hslot : s.byKey (chunk.key T) = some slot)
    (hcurrent : s.kept[slot]? = some current) : current.1.articleId = chunk.articleId := by
  rw [matchOf, if_pos heligible, hslot, Option.bind_some, hcurrent, Option.bind_some] at h
  by_contra hne
  rw [if_pos hne] at h
  cases h

/-- **What a passage does**: it is added, it takes a slot, or it is listed. -/
theorem step_cases (s : State) (p : Chunk × ℚ) :
    (matchOf T minChars s p.1 = none ∧ step T minChars s p = s.add T minChars p) ∨
      ∃ slot current, matchOf T minChars s p.1 = some (slot, current) ∧
        (preference T current < preference T p ∧
            step T minChars s p = s.replace slot current p ∨
          step T minChars s p = s.list current p) := by
  rw [step]
  cases hmatch : matchOf T minChars s p.1 with
  | none => exact .inl ⟨rfl, rfl⟩
  | some found =>
    obtain ⟨slot, current⟩ := found
    refine .inr ⟨slot, current, rfl, ?_⟩
    by_cases hbetter : preference T current < preference T p
    · exact .inl ⟨hbetter, if_pos hbetter⟩
    · exact .inr (if_neg hbetter)

/-! ### The slots -/

/-- A passage, or a better copy of it from another article. -/
def Stands (T : Tables) (minChars : Nat) (first q : Chunk × ℚ) : Prop :=
  first = q ∨ (Says T minChars (q.1.key T) first ∧ eligible minChars q.1 = true ∧
    preference T first < preference T q)

/-- What is listed of a passage that stands in a slot. -/
def Listed (s : State) (p q : Chunk × ℚ) : Prop :=
  p.1.articleId = q.1.articleId ∨ ∃ entry ∈ s.alsoIn q.1.id, some entry.articleId = p.1.articleId

/-- What holds of the slots once some passages have been read. -/
structure Slots (T : Tables) (minChars : Nat) (seen : List (Chunk × ℚ)) (s : State) : Prop where
  slot : ∀ key i, s.byKey key = some i → ∃ q, s.kept[i]? = some q ∧ Says T minChars key q
  known : ∀ p ∈ seen, eligible minChars p.1 = true → (s.byKey (p.1.key T)).isSome = true
  subset : ∀ q ∈ s.kept, q ∈ seen
  listed : ∀ p ∈ seen, p ∈ s.kept ∨ eligible minChars p.1 = true ∧
    ∃ i q, s.byKey (p.1.key T) = some i ∧ s.kept[i]? = some q ∧ Listed s p q
  /-- The slots are those of the passages that came first, in their order. -/
  order : ∃ firsts : List (Chunk × ℚ), firsts.Sublist seen ∧
    List.Forall₂ (Stands T minChars) firsts s.kept
  /-- A text that no article repeats has one slot. -/
  alone : ∀ key, seen.Pairwise (fun p q => ¬ Copy T minChars key p q) →
    ∀ i q, s.kept[i]? = some q → Says T minChars key q → s.byKey key = some i

/-- Passages with the same identifier are the same. -/
def Identified (ranked : List (Chunk × ℚ)) : Prop :=
  ∀ p ∈ ranked, ∀ q ∈ ranked, p.1.id = q.1.id → p.1 = q.1

theorem slots_init : Slots T minChars [] init where
  slot _ _ h := by cases h
  known _ h := by cases h
  subset _ h := by cases h
  listed _ h := by cases h
  order := ⟨[], List.Sublist.refl _, .nil⟩
  alone _ _ i q h := by cases i <;> cases h

variable {seen : List (Chunk × ℚ)}

theorem byKey_add (key : Text) : (s.add T minChars p).byKey key =
    if eligible minChars p.1 ∧ s.byKey (p.1.key T) = none ∧ key = p.1.key T then
      some s.kept.length
    else s.byKey key := by
  rw [State.add]
  by_cases hnew : eligible minChars p.1 ∧ s.byKey (p.1.key T) = none
  · by_cases hkey : key = p.1.key T
    · simp [hnew, hkey]
    · simp [hnew, hkey]
  · have hno : ¬ (eligible minChars p.1 ∧ s.byKey (p.1.key T) = none ∧ key = p.1.key T) :=
      fun h => hnew ⟨h.1, h.2.1⟩
    rw [if_neg hno]
    simp [hnew]

variable {i : Nat}

theorem byKey_add_of_some {key : Text} (h : s.byKey key = some i) :
    (s.add T minChars p).byKey key = some i := by
  rw [byKey_add, if_neg, h]
  rintro ⟨-, hnone, rfl⟩
  rw [hnone] at h
  cases h

variable {q : Chunk × ℚ}

theorem getElem?_add (h : s.kept[i]? = some q) : (s.add T minChars p).kept[i]? = some q := by
  obtain ⟨hlt, -⟩ := List.getElem?_eq_some_iff.mp h
  rw [State.add, List.getElem?_append_left hlt, h]

theorem slots_add (h : Slots T minChars seen s) (hmatch : matchOf T minChars s p.1 = none) :
    Slots T minChars (seen ++ [p]) (s.add T minChars p) where
  slot key i hi := by
    rw [byKey_add] at hi
    split at hi
    · rename_i hnew
      obtain rfl := Option.some.inj hi
      exact ⟨p, by simp [State.add], hnew.1, hnew.2.2.symm⟩
    · obtain ⟨q, hq, hspoken⟩ := h.slot key i hi
      exact ⟨q, getElem?_add hq, hspoken⟩
  known q hq heligible := by
    rw [byKey_add]
    split
    · rfl
    · rename_i hno
      rcases List.mem_append.mp hq with hq | hq
      · exact h.known q hq heligible
      · obtain rfl := List.mem_singleton.mp hq
        rw [Option.isSome_iff_ne_none]
        exact fun hnone => hno ⟨heligible, hnone, rfl⟩
  subset q hq := by
    rcases List.mem_append.mp hq with hq | hq
    · exact List.mem_append_left _ (h.subset q hq)
    · exact List.mem_append_right _ hq
  listed q hq := by
    rcases List.mem_append.mp hq with hq | hq
    · rcases h.listed q hq with hkept | ⟨heligible, i, r, hi, hr, hlisted⟩
      · exact .inl (List.mem_append_left _ hkept)
      · exact .inr ⟨heligible, i, r, byKey_add_of_some hi, getElem?_add hr, hlisted⟩
    · exact .inl (List.mem_append_right _ hq)
  order := by
    obtain ⟨firsts, hfirsts, hstands⟩ := h.order
    exact ⟨firsts ++ [p], hfirsts.append (List.Sublist.refl _),
      List.rel_append hstands (.cons (.inl rfl) .nil)⟩
  alone key hpair i q hq hspoken := by
    obtain ⟨hseen, -, hlast⟩ := List.pairwise_append.mp hpair
    rcases Nat.lt_or_ge i s.kept.length with hlt | hge
    · rw [State.add, List.getElem?_append_left hlt] at hq
      exact byKey_add_of_some (h.alone key hseen i q hq hspoken)
    · obtain ⟨hlt, -⟩ := List.getElem?_eq_some_iff.mp hq
      have hend : i = s.kept.length := by
        rw [State.add, List.length_append, List.length_singleton] at hlt
        omega
      subst hend
      obtain rfl : p = q := by simpa [State.add] using hq
      obtain ⟨heligible, rfl⟩ := hspoken
      rw [byKey_add]
      split
      · rfl
      · rename_i hno
        -- A slot taken before holds the same article's text, which is then repeated.
        cases hslot : s.byKey (p.1.key T) with
        | none => exact absurd ⟨heligible, hslot, rfl⟩ hno
        | some j =>
          obtain ⟨r, hr, hspoken⟩ := h.slot _ j hslot
          have hsame := matchOf_none hmatch heligible hslot hr
          have hmem := h.subset r (List.mem_of_getElem? hr)
          exact absurd ⟨hspoken, ⟨heligible, rfl⟩, hsame⟩ (hlast r hmem p List.mem_cons_self)

theorem kept_replace (hslot : s.kept[slot]? = some current) :
    (s.replace slot current p).kept[i]? = some q ↔
      if i = slot then p = q else s.kept[i]? = some q := by
  obtain ⟨hlt, -⟩ := List.getElem?_eq_some_iff.mp hslot
  rw [State.replace, List.getElem?_set]
  by_cases hi : slot = i
  · subst hi
    simp [hlt]
  · rw [if_neg hi, if_neg (Ne.symm hi)]

theorem alsoIn_replace (id : Nat) : (s.replace slot current p).alsoIn id =
    if id = p.1.id then s.alsoIn current.1.id ++ source current.1
    else if id = current.1.id then [] else s.alsoIn id := by
  rw [State.replace]
  by_cases hp : id = p.1.id
  · simp [hp]
  · dsimp only
    rw [if_neg hp, Function.update_of_ne hp, Function.update_apply]

theorem mem_source (h : chunk.article.isSome = true) :
    ∃ entry ∈ source chunk, some entry.articleId = chunk.articleId := by
  obtain ⟨article, harticle⟩ := Option.isSome_iff_exists.mp h
  exact ⟨⟨chunk.id, article.id, article.title, article.dept⟩, by simp [source, harticle],
    by simp [Chunk.articleId, harticle]⟩

theorem article_of_eligible (h : eligible minChars chunk = true) : chunk.article.isSome = true := by
  simp only [eligible, Bool.and_eq_true] at h
  exact h.1.1

theorem forall₂_set {α β : Type} {R : α → β → Prop} {l : List α} {l' : List β}
    (h : List.Forall₂ R l l') {b b' : β} (hi : l'[i]? = some b) (hb : ∀ a ∈ l, R a b → R a b') :
    List.Forall₂ R l (l'.set i b') := by
  induction h generalizing i with
  | nil => cases hi
  | cons hhead htail ih =>
    obtain ⟨hfirst, hrest⟩ := List.forall_mem_cons.mp hb
    cases i with
    | zero =>
      obtain rfl := Option.some.inj hi
      exact .cons (hfirst hhead) htail
    | succ i => exact .cons hhead (ih hi hrest)

/-- A copy of what stands in a slot, for the lemmas on the two ways it is dealt with. -/
structure Meets (T : Tables) (minChars : Nat) (s : State) (slot : Nat) (current p : Chunk × ℚ) :
    Prop where
  eligible : eligible minChars p.1 = true
  taken : s.byKey (p.1.key T) = some slot
  stands : s.kept[slot]? = some current
  said : Says T minChars (p.1.key T) current

theorem Slots.meets (h : Slots T minChars seen s)
    (hmatch : matchOf T minChars s p.1 = some (slot, current)) :
    Meets T minChars s slot current p := by
  obtain ⟨heligible, hslot, hcurrent, -⟩ := matchOf_some hmatch
  obtain ⟨q, hq, hspoken⟩ := h.slot _ slot hslot
  obtain rfl : current = q := Option.some.inj (hcurrent.symm.trans hq)
  exact ⟨heligible, hslot, hcurrent, hspoken⟩

theorem Slots.id_ne (h : Slots T minChars seen s) (hids : Identified (seen ++ [p])) {key : Text}
    (hslot : s.byKey key = some slot) {key' : Text} {r : Chunk × ℚ} (hi : s.byKey key' = some i)
    (hr : s.kept[i]? = some r) (hne : i ≠ slot) (hq : q ∈ seen ++ [p])
    (hspoken : Says T minChars key q) : r.1.id ≠ q.1.id := by
  intro hid
  obtain ⟨r', hr', hspoken'⟩ := h.slot _ i hi
  obtain rfl : r = r' := Option.some.inj (hr.symm.trans hr')
  have hmem := List.mem_append_left [p] (h.subset r (List.mem_of_getElem? hr))
  have hkey : key' = key := by rw [← hspoken'.2, hids r hmem q hq hid, hspoken.2]
  rw [hkey, hslot] at hi
  exact hne (Option.some.inj hi).symm

theorem Listed.taken (harticle : current.1.article.isSome = true) (h : Listed s q current) :
    Listed (s.replace slot current p) q p := by
  rw [Listed, alsoIn_replace, if_pos rfl]
  rcases h with hsame | ⟨entry, hentry, hlisted⟩
  · obtain ⟨entry, hentry, hsource⟩ := mem_source harticle
    exact .inr ⟨entry, List.mem_append_right _ hentry, hsource.trans hsame.symm⟩
  · exact .inr ⟨entry, List.mem_append_left _ hentry, hlisted⟩

theorem Listed.beside {r : Chunk × ℚ} (hp : r.1.id ≠ p.1.id) (hcurrent : r.1.id ≠ current.1.id)
    (h : Listed s q r) : Listed (s.replace slot current p) q r := by
  rwa [Listed, alsoIn_replace, if_neg hp, if_neg hcurrent]

theorem slots_replace (h : Slots T minChars seen s) (hids : Identified (seen ++ [p]))
    (hmeets : Meets T minChars s slot current p) (hbetter : preference T current < preference T p) :
    Slots T minChars (seen ++ [p]) (s.replace slot current p) where
  slot key i hi := by
    obtain ⟨q, hq, hspoken⟩ := h.slot key i hi
    by_cases hslot : i = slot
    · subst hslot
      obtain rfl : current = q := Option.some.inj (hmeets.stands.symm.trans hq)
      refine ⟨p, (kept_replace hmeets.stands).mpr (by rw [if_pos rfl]), hmeets.eligible, ?_⟩
      exact hmeets.said.2.symm.trans hspoken.2
    · exact ⟨q, (kept_replace hmeets.stands).mpr (by rwa [if_neg hslot]), hspoken⟩
  known q hq heligible := by
    rcases List.mem_append.mp hq with hq | hq
    · exact h.known q hq heligible
    · obtain rfl := List.mem_singleton.mp hq
      exact Option.isSome_iff_exists.mpr ⟨slot, hmeets.taken⟩
  subset q hq := by
    rcases List.mem_or_eq_of_mem_set hq with hq | rfl
    · exact List.mem_append_left _ (h.subset q hq)
    · exact List.mem_append_right _ List.mem_cons_self
  listed q hq := by
    have htaken : (s.replace slot current p).kept[slot]? = some p :=
      (kept_replace hmeets.stands).mpr (by rw [if_pos rfl])
    have harticle := article_of_eligible hmeets.said.1
    rcases List.mem_append.mp hq with hq | hq
    · rcases h.listed q hq with hkept | ⟨heligible, i, r, hi, hr, hlisted⟩
      · obtain ⟨i, hi⟩ := List.mem_iff_getElem?.mp hkept
        by_cases hslot : i = slot
        · subst hslot
          obtain rfl : current = q := Option.some.inj (hmeets.stands.symm.trans hi)
          have hsaid := (congrArg s.byKey hmeets.said.2).trans hmeets.taken
          exact .inr ⟨hmeets.said.1, i, p, hsaid, htaken, Listed.taken harticle (.inl rfl)⟩
        · exact .inl (List.mem_of_getElem? ((kept_replace hmeets.stands).mpr
            (by rwa [if_neg hslot])))
      · by_cases hslot : i = slot
        · subst hslot
          obtain rfl : current = r := Option.some.inj (hmeets.stands.symm.trans hr)
          exact .inr ⟨heligible, i, p, hi, htaken, hlisted.taken harticle⟩
        · -- The lists that change are those of this text's passages, and this slot is another's.
          have hmem := List.mem_append_left [p] (h.subset current (List.mem_of_getElem?
            hmeets.stands))
          have hp := h.id_ne hids hmeets.taken hi hr hslot (by simp) ⟨hmeets.eligible, rfl⟩
          have hcurrent := h.id_ne hids hmeets.taken hi hr hslot hmem hmeets.said
          exact .inr ⟨heligible, i, r, hi, (kept_replace hmeets.stands).mpr
            (by rwa [if_neg hslot]), hlisted.beside hp hcurrent⟩
    · obtain rfl := List.mem_singleton.mp hq
      exact .inl (List.mem_of_getElem? htaken)
  order := by
    obtain ⟨firsts, hfirsts, hstands⟩ := h.order
    refine ⟨firsts, hfirsts.trans (List.sublist_append_left _ _), ?_⟩
    refine forall₂_set hstands hmeets.stands fun first _ hfirst => .inr ?_
    rcases hfirst with rfl | ⟨hspoken, -, hless⟩
    · exact ⟨hmeets.said, hmeets.eligible, hbetter⟩
    · exact ⟨⟨hspoken.1, hspoken.2.trans hmeets.said.2⟩, hmeets.eligible, hless.trans hbetter⟩
  alone key hpair i q hq hspoken := by
    obtain ⟨hseen, -, -⟩ := List.pairwise_append.mp hpair
    rw [kept_replace hmeets.stands] at hq
    split at hq
    · rename_i hslot
      subst hq hslot
      rw [← hspoken.2]
      exact hmeets.taken
    · exact h.alone key hseen i q hq hspoken

theorem alsoIn_list {id : Nat} {entry : Source} (h : entry ∈ s.alsoIn id) :
    entry ∈ (s.list current p).alsoIn id := by
  rw [State.list]
  by_cases hid : id = current.1.id
  · subst hid
    simpa using .inl h
  · simpa [hid] using h

theorem slots_list (h : Slots T minChars seen s) (hmeets : Meets T minChars s slot current p) :
    Slots T minChars (seen ++ [p]) (s.list current p) where
  slot := h.slot
  known q hq heligible := by
    rcases List.mem_append.mp hq with hq | hq
    · exact h.known q hq heligible
    · obtain rfl := List.mem_singleton.mp hq
      exact Option.isSome_iff_exists.mpr ⟨slot, hmeets.taken⟩
  subset q hq := List.mem_append_left _ (h.subset q hq)
  listed q hq := by
    rcases List.mem_append.mp hq with hq | hq
    · rcases h.listed q hq with hkept | ⟨heligible, i, r, hi, hr, hlisted⟩
      · exact .inl hkept
      · refine .inr ⟨heligible, i, r, hi, hr, hlisted.imp_right fun ⟨entry, hentry, harticle⟩ => ?_⟩
        exact ⟨entry, alsoIn_list hentry, harticle⟩
    · obtain rfl := List.mem_singleton.mp hq
      obtain ⟨entry, hentry, harticle⟩ := mem_source (article_of_eligible hmeets.eligible)
      refine .inr ⟨hmeets.eligible, slot, current, hmeets.taken, hmeets.stands,
        .inr ⟨entry, ?_, harticle⟩⟩
      simp [State.list, hentry]
  order := by
    obtain ⟨firsts, hfirsts, hstands⟩ := h.order
    exact ⟨firsts, hfirsts.trans (List.sublist_append_left _ _), hstands⟩
  alone key hpair := h.alone key (List.pairwise_append.mp hpair).1

/-- **A passage keeps the slots in order.** -/
theorem slots_step (h : Slots T minChars seen s) (hids : Identified (seen ++ [p])) :
    Slots T minChars (seen ++ [p]) (step T minChars s p) := by
  rcases step_cases s p with ⟨hmatch, hstep⟩ | ⟨slot, current, hmatch, ⟨hbetter, hstep⟩ | hstep⟩
  · rw [hstep]
    exact slots_add h hmatch
  · rw [hstep]
    exact slots_replace h hids (h.meets hmatch) hbetter
  · rw [hstep]
    exact slots_list h (h.meets hmatch)

/-- What holds of the slots, after any list. -/
theorem slots_run {ranked : List (Chunk × ℚ)} (hids : Identified ranked) :
    Slots T minChars ranked (run T minChars ranked) := by
  induction ranked using List.reverseRecOn with
  | nil => exact slots_init
  | append_singleton seen p ih =>
    have hseen : Identified seen := fun p hp q hq =>
      hids p (List.mem_append_left _ hp) q (List.mem_append_left _ hq)
    rw [run, List.foldl_append]
    exact slots_step (ih hseen) hids

/-! ### The lists -/

theorem mem_unique {seen : List Nat} {entries : List Source} {entry : Source}
    (h : entry ∈ entries) (hseen : entry.articleId ∉ seen) :
    ∃ entry' ∈ unique seen entries, entry'.articleId = entry.articleId := by
  induction entries generalizing seen with
  | nil => cases h
  | cons first entries ih =>
    rw [unique]
    split
    · rename_i hfirst
      rcases List.mem_cons.mp h with rfl | h
      · exact absurd (List.contains_iff_mem.mp hfirst) hseen
      · exact ih h hseen
    · rcases List.mem_cons.mp h with rfl | h
      · exact ⟨entry, List.mem_cons_self, rfl⟩
      · by_cases hsame : entry.articleId = first.articleId
        · exact ⟨first, List.mem_cons_self, hsame.symm⟩
        · have hother : entry.articleId ∉ first.articleId :: seen := by simp [hsame, hseen]
          obtain ⟨entry', hentry', harticle⟩ := ih h hother
          exact ⟨entry', List.mem_cons_of_mem _ hentry', harticle⟩

theorem cleaned_of_not_mem {alsoIn lists : Nat → List Source} {kept : List (Chunk × ℚ)}
    (h : cleaned alsoIn kept = some lists) {id : Nat} (hid : ∀ q ∈ kept, q.1.id ≠ id) :
    lists id = [] := by
  induction kept generalizing lists with
  | nil =>
    obtain rfl := Option.some.inj h
    rfl
  | cons p kept ih =>
    obtain ⟨hp, hkept⟩ := List.forall_mem_cons.mp hid
    obtain ⟨article, -, h⟩ := Option.bind_eq_some_iff.mp h
    obtain ⟨later, hlater, h⟩ := Option.bind_eq_some_iff.mp h
    obtain rfl := Option.some.inj h
    dsimp only
    rw [ih hlater hkept, if_neg (by simp), if_neg (Ne.symm hp)]

theorem cleaned_mem {alsoIn lists : Nat → List Source} {kept : List (Chunk × ℚ)}
    (hids : Identified kept) (h : cleaned alsoIn kept = some lists) (hq : q ∈ kept) :
    ∃ article, q.1.article = some article ∧ lists q.1.id = unique [article.id] (alsoIn q.1.id) := by
  induction kept generalizing lists q with
  | nil => cases hq
  | cons p kept ih =>
    obtain ⟨article, harticle, h⟩ := Option.bind_eq_some_iff.mp h
    obtain ⟨later, hlater, h⟩ := Option.bind_eq_some_iff.mp h
    obtain rfl := Option.some.inj h
    have hrest : Identified kept := fun p hp q hq =>
      hids p (List.mem_cons_of_mem _ hp) q (List.mem_cons_of_mem _ hq)
    dsimp only
    by_cases hlast : ∃ r ∈ kept, r.1.id = q.1.id
    · obtain ⟨r, hr, hid⟩ := hlast
      have hsame : r.1 = q.1 := hids r (List.mem_cons_of_mem _ hr) q hq hid
      obtain ⟨article', harticle', hlists⟩ := ih hrest hlater hr
      rw [hsame] at harticle' hlists
      refine ⟨article', harticle', ?_⟩
      rw [hlists]
      split
      · rfl
      · rename_i hempty
        rw [not_ne_iff.mp hempty]
        split
        · rename_i hfirst
          have hp : q.1 = p.1 := hids q hq p List.mem_cons_self hfirst
          rw [hp, harticle] at harticle'
          rw [Option.some.inj harticle', ← hfirst]
          exact not_ne_iff.mp hempty
        · rfl
    · obtain rfl : q = p := by
        rcases List.mem_cons.mp hq with hq | hq
        · exact hq
        · exact absurd ⟨q, hq, rfl⟩ hlast
      refine ⟨article, harticle, ?_⟩
      rw [cleaned_of_not_mem hlater fun r hr hid => hlast ⟨r, hr, hid⟩, if_neg (by simp),
        if_pos rfl]

/-! ### The result -/

/-- What collapsing leaves, of a list of passages. -/
structure Collapsed (T : Tables) (minChars : Nat) (ranked kept : List (Chunk × ℚ))
    (alsoIn : Nat → List Source) : Prop where
  /-- Passages of different articles that are kept differ in their text, unless an article repeats
  it. -/
  apart : ∀ p ∈ kept, ∀ q ∈ kept, eligible minChars p.1 = true → eligible minChars q.1 = true →
    p.1.key T = q.1.key T → p.1.articleId ≠ q.1.articleId →
      ∃ p' q', [p', q'].Sublist ranked ∧ Copy T minChars (p.1.key T) p' q'
  /-- Of a passage that is dropped, the article is that of a kept copy or listed with it. -/
  listed : ∀ p ∈ ranked, p ∉ kept → ∃ q ∈ kept, q.1.key T = p.1.key T ∧
    (p.1.articleId = q.1.articleId ∨
      ∃ entry ∈ alsoIn q.1.id, some entry.articleId = p.1.articleId)
  /-- The slots are those of passages of the list, in its order: each holds that passage, or a
  better copy of it. -/
  order : ∃ firsts : List (Chunk × ℚ), firsts.Sublist ranked ∧
    List.Forall₂ (Stands T minChars) firsts kept

/-- **Collapsing loses no source, and keeps the slots in order.** -/
theorem collapse_sound {T : Tables} {minChars : Nat} {ranked kept : List (Chunk × ℚ)}
    {alsoIn : Nat → List Source} (hids : Identified ranked)
    (h : collapse T minChars ranked = some (kept, alsoIn)) :
    Collapsed T minChars ranked kept alsoIn := by
  have hslots : Slots T minChars ranked (run T minChars ranked) := slots_run hids
  obtain ⟨lists, hlists, hpair⟩ := Option.map_eq_some_iff.mp h
  obtain ⟨rfl, rfl⟩ := Prod.mk.inj hpair
  have hkept : Identified (run T minChars ranked).kept := fun p hp q hq =>
    hids p (hslots.subset p hp) q (hslots.subset q hq)
  refine ⟨?_, ?_, hslots.order⟩
  · intro p hp q hq hpe hqe hkey harticle
    by_contra hnone
    have hpair : ranked.Pairwise fun p' q' => ¬ Copy T minChars (p.1.key T) p' q' :=
      List.pairwise_iff_forall_sublist.mpr fun hsub hcopy => hnone ⟨_, _, hsub, hcopy⟩
    obtain ⟨i, hi⟩ := List.mem_iff_getElem?.mp hp
    obtain ⟨j, hj⟩ := List.mem_iff_getElem?.mp hq
    have hpi := hslots.alone _ hpair i p hi ⟨hpe, rfl⟩
    have hqj := hslots.alone _ hpair j q hj ⟨hqe, hkey.symm⟩
    rw [hpi] at hqj
    obtain rfl := Option.some.inj hqj
    rw [hi] at hj
    exact harticle (by rw [Option.some.inj hj])
  · intro p hp hdropped
    obtain ⟨heligible, i, q, hi, hq, hlisted⟩ := (hslots.listed p hp).resolve_left hdropped
    obtain ⟨q', hq', hspoken⟩ := hslots.slot _ i hi
    obtain rfl : q = q' := Option.some.inj (hq.symm.trans hq')
    have hmem := List.mem_of_getElem? hq
    refine ⟨q, hmem, hspoken.2, ?_⟩
    rcases hlisted with harticle | ⟨entry, hentry, harticle⟩
    · exact .inl harticle
    · obtain ⟨article, hown, hclean⟩ := cleaned_mem hkept hlists hmem
      by_cases hsame : entry.articleId = article.id
      · refine .inl ?_
        rw [← harticle, Chunk.articleId, hown, hsame]
        rfl
      · have hother : entry.articleId ∉ [article.id] := by simpa using hsame
        obtain ⟨entry', hentry', hid⟩ := mem_unique hentry hother
        exact .inr ⟨entry', by rwa [hclean], by rw [hid, harticle]⟩

/-! ### A better copy further down -/

def plainTables : Tables where
  nfkc t := t
  casefold t := t.map Char.toLower
  word c := c.isAlphanum
  twoPlaces score := (score * 100).floor / 100

def article (id : Nat) (reviewed : Option ℚ) : Article := ⟨id, [], none, reviewed, none⟩

/-- A clause, another passage, and the clause as it was reviewed later. -/
def reviewedLater : List (Chunk × ℚ) :=
  [(⟨1, "Notice is three months".toList, none, some (article 1 none)⟩, 9 / 10),
    (⟨2, "Invoices are due at once".toList, none, some (article 2 none)⟩, 9 / 10),
    (⟨3, "Notice is three months".toList, none, some (article 3 (some 5))⟩, 9 / 10)]

theorem reviewedLater_identified : Identified reviewedLater := by
  unfold Identified
  decide +kernel

theorem reviewedLater_kept : (collapse plainTables 5 reviewedLater).map
    (fun result => result.1.map fun p => p.1.id) = some [3, 2] := by
  decide +kernel

theorem reviewedLater_collapses : ∃ kept alsoIn,
    collapse plainTables 5 reviewedLater = some (kept, alsoIn) ∧
      Collapsed plainTables 5 reviewedLater kept alsoIn := by
  obtain ⟨⟨kept, alsoIn⟩, hcollapse, -⟩ := Option.map_eq_some_iff.mp reviewedLater_kept
  exact ⟨kept, alsoIn, hcollapse, collapse_sound reviewedLater_identified hcollapse⟩

/-- The better copy stands before what came before it. -/
theorem reviewedLater_moves : ∃ kept alsoIn,
    collapse plainTables 5 reviewedLater = some (kept, alsoIn) ∧ ¬ kept.Sublist reviewedLater := by
  obtain ⟨⟨kept, alsoIn⟩, hcollapse, hids⟩ := Option.map_eq_some_iff.mp reviewedLater_kept
  refine ⟨kept, alsoIn, hcollapse, fun hsub => ?_⟩
  have hmap := hsub.map fun p => p.1.id
  rw [hids] at hmap
  exact absurd hmap (by decide)

end QnscKb.Dedupe
