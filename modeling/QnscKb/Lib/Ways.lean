import QnscKb.Lib.Substitution

/-!
# Ways — the matches of a backtracking pattern

What a regular expression can match at the head of a text, in the order a backtracking reader tries
it: each way is what is matched and what is left.  `pattern` takes the first way that what follows
allows.
-/

namespace QnscKb.Ways

variable {α : Type}

/-- What is matched at the head of a text, and what is left of it. -/
abbrev Matcher (α : Type) := List α → List (List α × List α)

def empty : Matcher α := fun t => [([], t)]

def one (p : α → Bool) : Matcher α
  | [] => []
  | c :: t => if p c then [([c], t)] else []

def seq (a b : Matcher α) : Matcher α := fun t =>
  (a t).flatMap fun way => (b way.2).map fun next => (way.1 ++ next.1, next.2)

/-- One match or, if that leads nowhere, another. -/
def alt (a b : Matcher α) : Matcher α := fun t => a t ++ b t

def opt (a : Matcher α) : Matcher α := alt a empty

/-- As many matches as there are, up to a number. -/
def upTo (a : Matcher α) : Nat → Matcher α
  | 0 => empty
  | n + 1 => opt (seq a (upTo a n))

def times (a : Matcher α) : Nat → Matcher α
  | 0 => empty
  | n + 1 => seq a (times a n)

def between (lo hi : Nat) (a : Matcher α) : Matcher α := seq (times a lo) (upTo a (hi - lo))

/-- `*`, of a match that is not empty. -/
def many (a : Matcher α) : Matcher α := fun t => upTo a t.length t

/-- `+`, of a match that is not empty. -/
def plus (a : Matcher α) : Matcher α := seq a (many a)

/-- A literal, read by one class for each of its elements. -/
def literal (p : α → α → Bool) : List α → Matcher α
  | [] => empty
  | c :: cs => seq (one (p c)) (literal p cs)

/-! ### Cuts -/

/-- Every way is the text, cut in two. -/
def Splits (w : Matcher α) : Prop := ∀ t way, way ∈ w t → t = way.1 ++ way.2

variable {a b : Matcher α}

theorem splits_empty : Splits (empty : Matcher α) := by
  intro t way h
  obtain rfl := List.mem_singleton.mp h
  rfl

theorem splits_one (p : α → Bool) : Splits (one p) := by
  intro t way h
  cases t with
  | nil => cases h
  | cons c t =>
    rw [one] at h
    split at h
    · obtain rfl := List.mem_singleton.mp h
      rfl
    · cases h

theorem Splits.seq (ha : Splits a) (hb : Splits b) : Splits (seq a b) := by
  intro t way h
  obtain ⟨front, hfront, h⟩ := List.mem_flatMap.mp h
  obtain ⟨next, hnext, rfl⟩ := List.mem_map.mp h
  rw [ha t front hfront, hb front.2 next hnext, List.append_assoc]

theorem Splits.alt (ha : Splits a) (hb : Splits b) : Splits (alt a b) := by
  intro t way h
  exact (List.mem_append.mp h).elim (ha t way) (hb t way)

theorem Splits.opt (ha : Splits a) : Splits (opt a) := ha.alt splits_empty

theorem Splits.upTo (ha : Splits a) (n : Nat) : Splits (upTo a n) := by
  induction n with
  | zero => exact splits_empty
  | succ n ih => exact (ha.seq ih).opt

theorem Splits.times (ha : Splits a) (n : Nat) : Splits (times a n) := by
  induction n with
  | zero => exact splits_empty
  | succ n ih => exact ha.seq ih

theorem Splits.between (ha : Splits a) (lo hi : Nat) : Splits (between lo hi a) :=
  (ha.times lo).seq (ha.upTo (hi - lo))

theorem Splits.many (ha : Splits a) : Splits (many a) := fun t => ha.upTo t.length t

theorem Splits.plus (ha : Splits a) : Splits (plus a) := ha.seq ha.many

/-- The first way that what stands before and behind it allows, and what it becomes. -/
def pattern (before : Option α → Bool) (w : Matcher α) (behind : List α → Bool) (new : List α) :
    Substitution.Pattern α := fun prev t =>
  if before prev then
    ((w t).find? fun way => !way.1.isEmpty && behind way.2).map fun way => (way.1, new)
  else none

variable {before : Option α → Bool} {w : Matcher α} {behind : List α → Bool} {new : List α}

/-- The pattern is one of `Substitution`. -/
theorem sound_pattern (hw : Splits w) : Substitution.Sound (pattern before w behind new) := by
  intro prev t m x h
  rw [pattern] at h
  split at h
  · obtain ⟨way, hway, heq⟩ := Option.map_eq_some_iff.mp h
    obtain ⟨rfl, -⟩ := Prod.mk.inj heq
    have hfits := List.find?_some hway
    rw [Bool.and_eq_true, Bool.not_eq_true', List.isEmpty_eq_false_iff] at hfits
    exact ⟨hfits.1, way.2, (hw t way (List.mem_of_find?_eq_some hway)).symm⟩
  · cases h

/-- What it matches stands in the text. -/
theorem infix_of_mem_hits {p : Substitution.Pattern α} (hp : Substitution.Sound p) {t : List α}
    {hit : List α × List α} (h : hit ∈ Substitution.hits p t) : hit.1 <:+: t := by
  have hall : ∀ (prev : Option α) (t : List α), ∀ hit ∈ Substitution.hitsFrom p prev t,
      hit.1 <:+: t := by
    intro prev t
    induction prev, t using Substitution.scan_induction hp with
    | nil prev => exact fun hit h => absurd h List.not_mem_nil
    | pass prev c t hnone ih =>
      rw [Substitution.hitsFrom_pass hnone]
      exact fun hit h => (ih hit h).trans (List.suffix_cons c t).isInfix
    | hit prev m new t hsome hne ih =>
      rw [Substitution.hitsFrom_hit hsome hne]
      exact List.forall_mem_cons.mpr ⟨(List.prefix_append m t).isInfix,
        fun hit h => (ih hit h).trans (List.suffix_append m t).isInfix⟩
  exact hall none t hit h

end QnscKb.Ways
