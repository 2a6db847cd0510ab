import Mathlib.Data.List.Basic

/-!
# Brackets — the bracketed runs of a text

`runs t` is the contents of the brackets of `t` that hold no bracket, in order: what the pattern
`\\[([^\\[\\]]*)\\]` finds.  A reader is outside a run or inside one (`openAfter`), and
`replace f t` substitutes the runs `f` gives a text for.
-/

namespace QnscKb.Brackets

def runsFrom : Option (List Char) → List Char → List (List Char)
  | _, [] => []
  | o, c :: t =>
    if c = '[' then runsFrom (some []) t
    else if c = ']' then o.toList ++ runsFrom none t
    else runsFrom (o.map (· ++ [c])) t

def runs (t : List Char) : List (List Char) := runsFrom none t

def openAfter : Option (List Char) → List Char → Option (List Char)
  | o, [] => o
  | o, c :: t =>
    if c = '[' then openAfter (some []) t
    else if c = ']' then openAfter none t
    else openAfter (o.map (· ++ [c])) t

/-- What an unfinished run has been read from. -/
def pending : Option (List Char) → List Char
  | none => []
  | some r => '[' :: r

/-- A text with the runs `f` gives a text for replaced. -/
def replaceFrom (f : List Char → Option (List Char)) : Option (List Char) → List Char → List Char
  | o, [] => pending o
  | o, c :: t =>
    if c = '[' then pending o ++ replaceFrom f (some []) t
    else
      match o with
      | none => c :: replaceFrom f none t
      | some r =>
        if c = ']' then (f r).getD ('[' :: (r ++ [']'])) ++ replaceFrom f none t
        else replaceFrom f (some (r ++ [c])) t

/-- `pattern.sub` of a pattern that reads one run. -/
def replace (f : List Char → Option (List Char)) (t : List Char) : List Char :=
  replaceFrom f none t

/-- No bracket stands in a text. -/
def Plain (t : List Char) : Prop := ∀ c ∈ t, c ≠ '[' ∧ c ≠ ']'

instance (t : List Char) : Decidable (Plain t) :=
  List.decidableBAll (fun c => c ≠ '[' ∧ c ≠ ']') t

variable {o : Option (List Char)}

@[simp] theorem runsFrom_nil : runsFrom o [] = [] := rfl

@[simp] theorem runsFrom_open (t : List Char) : runsFrom o ('[' :: t) = runsFrom (some []) t := by
  simp [runsFrom]

@[simp] theorem runsFrom_close (t : List Char) :
    runsFrom o (']' :: t) = o.toList ++ runsFrom none t := by
  simp [runsFrom]

variable {c : Char}

theorem runsFrom_cons (h : c ≠ '[' ∧ c ≠ ']') (t : List Char) :
    runsFrom o (c :: t) = runsFrom (o.map (· ++ [c])) t := by
  simp [runsFrom, h.1, h.2]

/-- Reading is compositional in the reader's state. -/
theorem runsFrom_append (a b : List Char) :
    runsFrom o (a ++ b) = runsFrom o a ++ runsFrom (openAfter o a) b := by
  induction a generalizing o with
  | nil => rfl
  | cons c a ih =>
    simp only [List.cons_append, runsFrom, openAfter, ih]
    split
    · rfl
    · split
      · rw [List.append_assoc]
      · rfl

variable {t a b y : List Char}

theorem Plain.cons (h : Plain (c :: t)) : (c ≠ '[' ∧ c ≠ ']') ∧ Plain t :=
  ⟨h c List.mem_cons_self, fun d hd => h d (List.mem_cons_of_mem c hd)⟩

theorem Plain.append (ha : Plain a) (hb : Plain b) : Plain (a ++ b) := by
  intro c hc
  rcases List.mem_append.mp hc with h | h
  · exact ha c h
  · exact hb c h

theorem runsFrom_plain (h : Plain t) : runsFrom o t = [] := by
  induction t generalizing o with
  | nil => rfl
  | cons c t ih =>
    obtain ⟨hc, ht⟩ := h.cons
    rw [runsFrom_cons hc, ih ht]

theorem openAfter_plain (h : Plain t) : openAfter o t = o.map (· ++ t) := by
  induction t generalizing o with
  | nil => cases o <;> simp [openAfter]
  | cons c t ih =>
    obtain ⟨hc, ht⟩ := h.cons
    rw [openAfter, if_neg hc.1, if_neg hc.2, ih ht]
    cases o <;> simp

theorem runsFrom_of_no_close {t : List Char} (h : ']' ∉ t) : runsFrom o t = [] := by
  induction t generalizing o with
  | nil => rfl
  | cons c t ih =>
    obtain ⟨hc, ht⟩ : ']' ≠ c ∧ ']' ∉ t := by simpa using h
    simp only [runsFrom, ih ht, if_neg (Ne.symm hc), ite_self]

theorem runsFrom_cons_congr (c : Char) (h : ∀ o, runsFrom o a = runsFrom o b) :
    runsFrom o (c :: a) = runsFrom o (c :: b) := by
  simp only [runsFrom, h]

/-- Text without brackets at either end changes nothing. -/
theorem runs_trim (ha : Plain a) (hb : Plain b) (t : List Char) :
    runs (a ++ (t ++ b)) = runs t := by
  have hopen : openAfter none a = none := openAfter_plain ha
  rw [runs, runsFrom_append, runsFrom_plain ha, hopen, runsFrom_append, runsFrom_plain hb,
    List.append_nil, List.nil_append, runs]

theorem openAfter_close (a : List Char) : openAfter o (a ++ [']']) = none := by
  induction a generalizing o with
  | nil => simp [openAfter]
  | cons c a ih => simp only [List.cons_append, openAfter, ih, ite_self]

/-- A `[` forgets what stood open before it. -/
theorem runs_append_cons (a b : List Char) : runs (a ++ '[' :: b) = runs a ++ runs ('[' :: b) := by
  rw [runs, runsFrom_append, runsFrom_open, runs, runs, runsFrom_open]

/-! ### Edits -/

variable {f : List Char → Option (List Char)}

theorem Plain.snoc (ha : Plain a) (hc : c ≠ '[' ∧ c ≠ ']') : Plain (a ++ [c]) :=
  ha.append fun _ hd => List.mem_singleton.mp hd ▸ hc

/-- An edit between the brackets edits each run. -/
theorem runs_edit {g : List Char → List Char} (hplain : ∀ a, Plain a → Plain (g a))
    (hopen : ∀ a t, g (a ++ '[' :: t) = g a ++ '[' :: g t)
    (hclose : ∀ a t, g (a ++ ']' :: t) = g a ++ ']' :: g t) (t : List Char) :
    runs (g t) = (runs t).map g := by
  have hread : ∀ (t a : List Char) (o : Option (List Char)), o = none ∨ o = some [] → Plain a →
      runsFrom o (g (a ++ t)) = (runsFrom (o.map (· ++ a)) t).map g := by
    intro t
    induction t with
    | nil =>
      intro a o _ ha
      rw [List.append_nil, runsFrom_plain (hplain a ha)]
      rfl
    | cons c t ih =>
      intro a o ho ha
      by_cases hleft : c = '['
      · subst hleft
        rw [hopen, runsFrom_append, runsFrom_plain (hplain a ha)]
        exact ih [] _ (.inr rfl) nofun
      · by_cases hright : c = ']'
        · subst hright
          have hrest := ih [] none (.inl rfl) nofun
          rw [List.nil_append] at hrest
          rw [hclose, runsFrom_append, runsFrom_plain (hplain a ha), runsFrom_close,
            runsFrom_close, openAfter_plain (hplain a ha), hrest, List.map_append]
          rcases ho with rfl | rfl <;> simp
        · have hc : c ≠ '[' ∧ c ≠ ']' := ⟨hleft, hright⟩
          have hrest := ih (a ++ [c]) o ho (ha.snoc hc)
          rw [List.append_assoc, List.singleton_append] at hrest
          rw [hrest, runsFrom_cons hc]
          simp [Function.comp_def]
  simpa [runs] using hread t [] none (.inl rfl) nofun

/-- The runs that close only once those `f` empties are gone: `outer` is the run these stand in, and
`inner` the run being read. -/
def hollowsFrom (f : List Char → Option (List Char)) :
    Option (List Char) → Option (List Char) → List Char → List (List Char)
  | _, _, [] => []
  | outer, inner, c :: t =>
    if c = '[' then hollowsFrom f (inner.or outer) (some []) t
    else
      match inner with
      | none =>
        if c = ']' then outer.toList ++ hollowsFrom f none none t
        else hollowsFrom f (outer.map (· ++ [c])) none t
      | some r =>
        if c = ']' then hollowsFrom f (if f r = some [] then outer else none) none t
        else hollowsFrom f outer (some (r ++ [c])) t

def hollows (f : List Char → Option (List Char)) (t : List Char) : List (List Char) :=
  hollowsFrom f none none t

/-- `f` empties a run or puts another in its place. -/
def Rewrites (f : List Char → Option (List Char)) : Prop :=
  ∀ r x, f r = some x → x = [] ∨ ∃ y, Plain y ∧ x = '[' :: (y ++ [']'])

/-- What stands for a run is the run `y`. -/
def StandsFor (f : List Char → Option (List Char)) (r y : List Char) : Prop :=
  (f r).getD ('[' :: (r ++ [']'])) = '[' :: (y ++ [']'])

theorem standsFor_of_none {r : List Char} (h : f r = none) : StandsFor f r y ↔ r = y := by
  simp [StandsFor, h]

theorem standsFor_of_some {r x : List Char} (h : f r = some x) :
    StandsFor f r y ↔ x = '[' :: (y ++ [']']) := by
  simp [StandsFor, h]

@[simp] theorem replaceFrom_open (t : List Char) :
    replaceFrom f o ('[' :: t) = pending o ++ replaceFrom f (some []) t := by
  cases o <;> simp [replaceFrom]

@[simp] theorem hollowsFrom_open (outer inner : Option (List Char)) (t : List Char) :
    hollowsFrom f outer inner ('[' :: t) = hollowsFrom f (inner.or outer) (some []) t := by
  cases inner <;> simp [hollowsFrom]

theorem runsFrom_bracketed (hy : Plain y) (t : List Char) :
    runsFrom o ('[' :: (y ++ [']']) ++ t) = y :: runsFrom none t := by
  rw [List.cons_append, runsFrom_open, List.append_assoc, runsFrom_append, runsFrom_plain hy,
    openAfter_plain hy, List.singleton_append, runsFrom_close]
  rfl

theorem mem_runsFrom_replaceFrom (hf : Rewrites f) (t : List Char) :
    ∀ outer inner : Option (List Char), (∀ r ∈ inner, Plain r) →
      (y ∈ runsFrom outer (replaceFrom f inner t) ↔
        y ∈ hollowsFrom f outer inner t ∨ ∃ r ∈ runsFrom inner t, StandsFor f r y) := by
  induction t with
  | nil =>
    intro outer inner hinner
    cases inner with
    | none => simp [replaceFrom, pending, hollowsFrom]
    | some r => simp [replaceFrom, pending, hollowsFrom, runsFrom_plain (hinner r rfl)]
  | cons c t ih =>
    intro outer inner hinner
    by_cases hleft : c = '['
    · subst hleft
      have hpending : runsFrom outer (pending inner) = [] ∧
          openAfter outer (pending inner) = inner.or outer := by
        cases inner with
        | none => exact ⟨rfl, rfl⟩
        | some r =>
          refine ⟨?_, ?_⟩
          · rw [pending, runsFrom_open, runsFrom_plain (hinner r rfl)]
          · simp [pending, openAfter, openAfter_plain (hinner r rfl)]
      rw [replaceFrom_open, runsFrom_append, hpending.1, hpending.2, List.nil_append,
        ih _ _ (by simp [Plain]), hollowsFrom_open, runsFrom_open]
    · cases inner with
      | none =>
        simp only [replaceFrom, hollowsFrom, if_neg hleft]
        by_cases hright : c = ']'
        · subst hright
          rw [if_pos rfl, runsFrom_close, List.mem_append, ih none none nofun, runsFrom_close,
            List.mem_append, or_assoc, Option.toList_none, List.nil_append]
        · rw [if_neg hright, runsFrom_cons ⟨hleft, hright⟩, ih _ none nofun,
            runsFrom_cons ⟨hleft, hright⟩, Option.map_none]
      | some r =>
        have hr : Plain r := hinner r rfl
        simp only [replaceFrom, hollowsFrom, if_neg hleft]
        by_cases hright : c = ']'
        · subst hright
          rw [if_pos rfl, if_pos rfl, runsFrom_close, Option.toList_some,
            List.singleton_append, List.exists_mem_cons_iff]
          cases hfr : f r with
          | none =>
            rw [Option.getD_none, runsFrom_bracketed hr, List.mem_cons, ih none none nofun,
              standsFor_of_none hfr, if_neg nofun, eq_comm, or_left_comm]
          | some x =>
            rw [Option.getD_some, standsFor_of_some hfr]
            rcases hf r x hfr with rfl | ⟨z, hz, rfl⟩
            · rw [List.nil_append, ih outer none nofun]
              simp
            · rw [runsFrom_bracketed hz, List.mem_cons, ih none none nofun, if_neg (by simp),
                or_left_comm]
              simp [eq_comm]
        · rw [if_neg hright, if_neg hright, runsFrom_cons ⟨hleft, hright⟩,
            ih outer _ fun q hq => Option.some.inj hq ▸ hr.snoc ⟨hleft, hright⟩]
          rfl

/-- **The runs of a text once some are replaced** are what stands for its runs, and its hollow
runs. -/
theorem mem_runs_replace (hf : Rewrites f) :
    y ∈ runs (replace f t) ↔ y ∈ hollows f t ∨ ∃ r ∈ runs t, StandsFor f r y :=
  mem_runsFrom_replaceFrom hf t none none nofun

/-! ### Hollow runs -/

/-- A text between brackets, and what is left of it when the runs in it that `f` empties are
gone. -/
inductive Around (f : List Char → Option (List Char)) : List Char → List Char → Prop
  | nil : Around f [] []
  | cons {c : Char} {m y : List Char} (hc : c ≠ '[' ∧ c ≠ ']') (h : Around f m y) :
      Around f (c :: m) (c :: y)
  | gone {r m y : List Char} (hr : Plain r) (hf : f r = some []) (h : Around f m y) :
      Around f ('[' :: (r ++ ']' :: m)) y

theorem Around.of_cons {m : List Char} (h : Around f (c :: m) y) (hc : c ≠ '[' ∧ c ≠ ']') :
    ∃ y', y = c :: y' ∧ Around f m y' := by
  cases h with
  | cons _ h => exact ⟨_, rfl, h⟩
  | gone => exact absurd rfl hc.1

theorem Around.not_close {m : List Char} : ¬Around f (']' :: m) y := by
  intro h
  cases h with
  | cons hc _ => exact hc.2 rfl

theorem Around.of_open {m y : List Char} (h : Around f ('[' :: m) y) :
    ∃ r m', m = r ++ ']' :: m' ∧ Plain r ∧ f r = some [] ∧ Around f m' y := by
  generalize hm : '[' :: m = t at h
  cases h with
  | nil => cases hm
  | cons hc _ => exact absurd (List.cons.inj hm).1.symm hc.1
  | gone hr hf h => exact ⟨_, _, (List.cons.inj hm).2, hr, hf, h⟩

theorem Plain.eq_nil_of_bracket {s u : List Char} (hs : Plain s) (hc : c = '[' ∨ c = ']')
    (h : c :: t = s ++ u) : s = [] := by
  cases s with
  | nil => rfl
  | cons d s =>
    obtain ⟨rfl, -⟩ := List.cons.inj h
    exact (hc.elim hs.cons.1.1 hs.cons.1.2).elim

/-- A bracket of the text that holds brackets which `f` empties, and no others. -/
def Inside (f : List Char → Option (List Char)) (t y : List Char) : Prop :=
  ∃ a m b, t = a ++ '[' :: (m ++ ']' :: b) ∧ Around f m y ∧ ¬Plain m

theorem inside_cons {c : Char} (hc : c ≠ '[') {t y : List Char} :
    Inside f (c :: t) y ↔ Inside f t y := by
  constructor
  · rintro ⟨_ | ⟨d, a⟩, m, b, ht, hm, hne⟩
    · exact absurd (List.cons.inj ht).1 hc
    · exact ⟨a, m, b, (List.cons.inj ht).2, hm, hne⟩
  · rintro ⟨a, m, b, rfl, hm, hne⟩
    exact ⟨c :: a, m, b, rfl, hm, hne⟩

theorem inside_open : Inside f ('[' :: t) y ↔ Inside f t y ∨
    ∃ m b, t = m ++ ']' :: b ∧ Around f m y ∧ ¬Plain m := by
  constructor
  · rintro ⟨_ | ⟨d, a⟩, m, b, ht, hm, hne⟩
    · exact .inr ⟨m, b, (List.cons.inj ht).2, hm, hne⟩
    · exact .inl ⟨a, m, b, (List.cons.inj ht).2, hm, hne⟩
  · rintro (⟨a, m, b, rfl, hm, hne⟩ | ⟨m, b, rfl, hm, hne⟩)
    · exact ⟨'[' :: a, m, b, rfl, hm, hne⟩
    · exact ⟨[], m, b, rfl, hm, hne⟩

/-- What is read has this run end as a hollow one: the run being read, or the one around it. -/
def Finishes (f : List Char → Option (List Char)) (outer inner : Option (List Char))
    (t y : List Char) : Prop :=
  match inner with
  | none => ∃ o ∈ outer, ∃ m b y', t = m ++ ']' :: b ∧ Around f m y' ∧ y = o ++ y'
  | some r =>
    (∃ m b y', t = m ++ ']' :: b ∧ Around f m y' ∧ ¬Plain m ∧ y = r ++ y') ∨
      ∃ o ∈ outer, ∃ s m b y', t = s ++ ']' :: (m ++ ']' :: b) ∧ Plain s ∧
        f (r ++ s) = some [] ∧ Around f m y' ∧ y = o ++ y'

theorem not_plain_open (m : List Char) : ¬Plain ('[' :: m) :=
  fun h => h.cons.1.1 rfl

variable {outer inner : Option (List Char)}

theorem finishes_open :
    Finishes f outer inner ('[' :: t) y ↔ ∃ o ∈ inner.or outer, ∃ s m b y',
      t = s ++ ']' :: (m ++ ']' :: b) ∧ Plain s ∧ f s = some [] ∧ Around f m y' ∧ y = o ++ y' := by
  have hsplit : ∀ {m b y' : List Char}, '[' :: t = m ++ ']' :: b → Around f m y' →
      ∃ s m', t = s ++ ']' :: (m' ++ ']' :: b) ∧ Plain s ∧ f s = some [] ∧ Around f m' y' := by
    intro m b y' ht hm
    cases m with
    | nil => cases ht
    | cons c m =>
      obtain ⟨rfl, rfl⟩ := List.cons.inj ht
      obtain ⟨s, m', rfl, hs, hf, hm'⟩ := hm.of_open
      exact ⟨s, m', by simp, hs, hf, hm'⟩
  cases inner with
  | none =>
    constructor
    · rintro ⟨o, ho, m, b, y', ht, hm, rfl⟩
      obtain ⟨s, m', rfl, hs, hf, hm'⟩ := hsplit ht hm
      exact ⟨o, ho, s, m', b, y', rfl, hs, hf, hm', rfl⟩
    · rintro ⟨o, ho, s, m, b, y', rfl, hs, hf, hm, rfl⟩
      exact ⟨o, ho, '[' :: (s ++ ']' :: m), b, y', by simp, .gone hs hf hm, rfl⟩
  | some r =>
    constructor
    · rintro (⟨m, b, y', ht, hm, -, rfl⟩ | ⟨o, -, s, m, b, y', ht, hs, -⟩)
      · obtain ⟨s, m', rfl, hs, hf, hm'⟩ := hsplit ht hm
        exact ⟨r, rfl, s, m', b, y', rfl, hs, hf, hm', rfl⟩
      · obtain rfl := hs.eq_nil_of_bracket (.inl rfl) ht
        cases ht
    · rintro ⟨o, ho, s, m, b, y', rfl, hs, hf, hm, rfl⟩
      obtain rfl : r = o := Option.some.inj ho
      exact .inl ⟨'[' :: (s ++ ']' :: m), b, y', by simp, .gone hs hf hm, not_plain_open _, rfl⟩

theorem finishes_close :
    Finishes f outer inner (']' :: t) y ↔ match inner with
      | none => y ∈ outer
      | some r => f r = some [] ∧ Finishes f outer none t y := by
  have hnil : ∀ {m b y' : List Char}, ']' :: t = m ++ ']' :: b → Around f m y' →
      m = [] ∧ y' = [] := by
    intro m b y' ht hm
    cases m with
    | nil =>
      cases hm
      exact ⟨rfl, rfl⟩
    | cons c m =>
      obtain ⟨rfl, -⟩ := List.cons.inj ht
      exact absurd hm Around.not_close
  cases inner with
  | none =>
    constructor
    · rintro ⟨o, ho, m, b, y', ht, hm, rfl⟩
      obtain ⟨rfl, rfl⟩ := hnil ht hm
      rwa [List.append_nil]
    · exact fun hy => ⟨y, hy, [], t, [], rfl, .nil, (List.append_nil y).symm⟩
  | some r =>
    constructor
    · rintro (⟨m, b, y', ht, hm, hne, rfl⟩ | ⟨o, ho, s, m, b, y', ht, hs, hf, hm, rfl⟩)
      · obtain ⟨rfl, -⟩ := hnil ht hm
        exact absurd (List.forall_mem_nil _) hne
      · obtain rfl := hs.eq_nil_of_bracket (.inr rfl) ht
        rw [List.append_nil] at hf
        exact ⟨hf, o, ho, m, b, y', (List.cons.inj ht).2, hm, rfl⟩
    · rintro ⟨hf, o, ho, m, b, y', rfl, hm, rfl⟩
      exact .inr ⟨o, ho, [], m, b, y', rfl, List.forall_mem_nil _, by rwa [List.append_nil], hm,
        rfl⟩

theorem finishes_cons (hc : c ≠ '[' ∧ c ≠ ']') :
    Finishes f outer inner (c :: t) y ↔ match inner with
      | none => Finishes f (outer.map (· ++ [c])) none t y
      | some r => Finishes f outer (some (r ++ [c])) t y := by
  have hsplit : ∀ {m b y' : List Char}, c :: t = m ++ ']' :: b → Around f m y' →
      ∃ m' y'', m = c :: m' ∧ t = m' ++ ']' :: b ∧ Around f m' y'' ∧ y' = c :: y'' := by
    intro m b y' ht hm
    cases m with
    | nil => exact absurd (List.cons.inj ht).1 hc.2
    | cons d m =>
      obtain ⟨rfl, rfl⟩ := List.cons.inj ht
      obtain ⟨y'', rfl, hm'⟩ := hm.of_cons hc
      exact ⟨m, y'', rfl, rfl, hm', rfl⟩
  cases inner with
  | none =>
    constructor
    · rintro ⟨o, ho, m, b, y', ht, hm, rfl⟩
      obtain ⟨m', y'', -, rfl, hm', rfl⟩ := hsplit ht hm
      exact ⟨o ++ [c], Option.map_eq_some_iff.mpr ⟨o, ho, rfl⟩, m', b, y'', rfl, hm', by simp⟩
    · rintro ⟨_, hmap, m, b, y', rfl, hm, rfl⟩
      obtain ⟨o, ho, rfl⟩ := Option.map_eq_some_iff.mp hmap
      exact ⟨o, ho, c :: m, b, c :: y', rfl, .cons hc hm, by simp⟩
  | some r =>
    constructor
    · rintro (⟨m, b, y', ht, hm, hne, rfl⟩ | ⟨o, ho, s, m, b, y', ht, hs, hf, hm, rfl⟩)
      · obtain ⟨m', y'', rfl, rfl, hm', rfl⟩ := hsplit ht hm
        refine .inl ⟨m', b, y'', rfl, hm', fun hplain => hne ?_, by simp⟩
        exact List.forall_mem_cons.mpr ⟨hc, hplain⟩
      · cases s with
        | nil => exact absurd (List.cons.inj ht).1 hc.2
        | cons d s =>
          obtain ⟨rfl, rfl⟩ := List.cons.inj ht
          exact .inr ⟨o, ho, s, m, b, y', rfl, hs.cons.2, by simpa using hf, hm, rfl⟩
    · rintro (⟨m, b, y', rfl, hm, hne, rfl⟩ | ⟨o, ho, s, m, b, y', rfl, hs, hf, hm, rfl⟩)
      · exact .inl ⟨c :: m, b, c :: y', rfl, .cons hc hm, fun hplain => hne hplain.cons.2,
          by simp⟩
      · refine .inr ⟨o, ho, c :: s, m, b, y', rfl, ?_, by simpa using hf, hm, rfl⟩
        exact List.forall_mem_cons.mpr ⟨hc, hs⟩

theorem mem_hollowsFrom_iff (outer inner : Option (List Char)) :
    y ∈ hollowsFrom f outer inner t ↔ Inside f t y ∨ Finishes f outer inner t y := by
  induction t generalizing outer inner with
  | nil => cases inner <;> simp [hollowsFrom, Inside, Finishes]
  | cons c t ih =>
    by_cases hleft : c = '['
    · subst hleft
      rw [hollowsFrom_open, ih, inside_open, finishes_open, or_assoc]
      refine or_congr_right (or_congr ?_ ?_)
      · simp
      · simp
    · rw [inside_cons hleft]
      by_cases hright : c = ']'
      · subst hright
        rw [finishes_close]
        cases inner with
        | none =>
          simp only [hollowsFrom, if_neg hleft, if_true, List.mem_append, ih]
          rw [or_left_comm]
          simp [Finishes]
        | some r =>
          simp only [hollowsFrom, if_neg hleft, if_true, ih]
          by_cases hf : f r = some []
          · rw [if_pos hf, and_iff_right hf]
          · rw [if_neg hf]
            simp [hf, Finishes]
      · rw [finishes_cons ⟨hleft, hright⟩]
        cases inner <;> simp only [hollowsFrom, if_neg hleft, if_neg hright, ih]

/-- **The hollow runs of a text** are what its brackets that hold emptied runs hold besides. -/
theorem mem_hollows_iff : y ∈ hollows f t ↔ Inside f t y := by
  rw [hollows, mem_hollowsFrom_iff]
  simp [Finishes]

/-- What stands in a bracket without brackets is a run. -/
theorem mem_runs_of_plain {r : List Char} (hr : Plain r) (a b : List Char) :
    r ∈ runs (a ++ '[' :: (r ++ ']' :: b)) := by
  have hread : runs ('[' :: (r ++ ']' :: b)) = r :: runs b := by
    have hbracket := runsFrom_bracketed (o := none) hr b
    rwa [List.cons_append, List.append_assoc, List.singleton_append] at hbracket
  rw [runs_append_cons, hread]
  exact List.mem_append_right _ List.mem_cons_self

/-- A bracket that holds emptied runs holds one of the text's. -/
theorem Around.exists_emptied {m : List Char} (h : Around f m y) (hne : ¬Plain m) :
    ∃ a r b, m = a ++ '[' :: (r ++ ']' :: b) ∧ Plain r ∧ f r = some [] := by
  induction h with
  | nil => exact absurd (List.forall_mem_nil _) hne
  | @cons c m y hc h ih =>
    obtain ⟨a, r, b, rfl, hr, hf⟩ := ih fun hplain => hne (List.forall_mem_cons.mpr ⟨hc, hplain⟩)
    exact ⟨c :: a, r, b, rfl, hr, hf⟩
  | gone hr hf _ => exact ⟨[], _, _, rfl, hr, hf⟩

theorem Inside.exists_emptied (h : Inside f t y) : ∃ r ∈ runs t, f r = some [] := by
  obtain ⟨a, m, b, rfl, hm, hne⟩ := h
  obtain ⟨a', r, b', rfl, hr, hf⟩ := hm.exists_emptied hne
  refine ⟨r, ?_, hf⟩
  have hmem := mem_runs_of_plain hr (a ++ '[' :: a') (b' ++ ']' :: b)
  simpa using hmem

/-- **Where no run is changed**, a text has its runs still. -/
theorem mem_runs_replace_of_none (hf : Rewrites f) (hnone : ∀ r ∈ runs t, f r = none) :
    y ∈ runs (replace f t) ↔ y ∈ runs t := by
  rw [mem_runs_replace hf, mem_hollows_iff]
  constructor
  · rintro (hinside | ⟨r, hr, hstands⟩)
    · obtain ⟨r, hr, hgone⟩ := hinside.exists_emptied
      rw [hnone r hr] at hgone
      cases hgone
    · exact (standsFor_of_none (hnone r hr)).mp hstands ▸ hr
  · exact fun hy => .inr ⟨y, hy, (standsFor_of_none (hnone y hy)).mpr rfl⟩

end QnscKb.Brackets
