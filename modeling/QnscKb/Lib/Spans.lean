import Mathlib.Data.List.Chain
import Mathlib.Data.List.TakeDrop

/-!
# Spans — pieces of a text by their places

The slice of a text between two places, and pieces that are said to stand between two places.
-/

namespace QnscKb.Spans

variable {α : Type} {t : List α}

def slice (t : List α) (start stop : Nat) : List α := (t.take stop).drop start

variable {start stop : Nat}

/-- Neighbouring slices are one slice. -/
theorem slice_append {middle : Nat} (h : start ≤ middle) (h' : middle ≤ stop) :
    slice t start middle ++ slice t middle stop = slice t start stop := by
  have hfront : (t.take stop).take middle = t.take middle := by
    rw [List.take_take, Nat.min_eq_left h']
  have hsplit := List.take_append_drop middle (t.take stop)
  rw [hfront] at hsplit
  rw [slice, slice, slice]
  conv_rhs => rw [← hsplit]
  by_cases hshort : middle ≤ t.length
  · rw [List.drop_append_of_le_length]
    rw [List.length_take, Nat.min_eq_left hshort]
    exact h
  · have hnone : (t.take stop).drop middle = [] :=
      List.drop_eq_nil_of_le ((List.length_take_le' _ _).trans (Nat.le_of_not_le hshort))
    rw [hnone, List.append_nil, List.append_nil]

/-- The slice of a part of the text is that part. -/
theorem slice_at (before text after : List α) :
    slice (before ++ (text ++ after)) before.length (before.length + text.length) = text := by
  rw [slice, List.take_length_add_append, List.take_left, List.drop_left]

theorem length_slice (h : stop ≤ t.length) : (slice t start stop).length = stop - start := by
  rw [slice, List.length_drop, List.length_take, Nat.min_eq_left h]

/-- A piece that is said to stand between two places. -/
structure Span (α : Type) where
  start : Nat
  stop : Nat
  body : List α

/-- Two pieces as one, with a text between them. -/
def Span.join (middle : List α) (a b : Span α) : Span α :=
  ⟨a.start, b.stop, a.body ++ (middle ++ b.body)⟩

variable {β : Type} (blank : α → Bool) (read : List α → β)

/-- The places are places of the text, and what stands between them reads as the piece does. -/
structure Stands (t : List α) (a : Span α) : Prop where
  order : a.start ≤ a.stop
  bound : a.stop ≤ t.length
  text : read (slice t a.start a.stop) = read a.body

/-- A piece comes after another one, with blanks between them, at least one. -/
structure Follows (t : List α) (a b : Span α) : Prop where
  before : a.stop < b.start
  gap : ∀ c ∈ slice t a.stop b.start, blank c = true

/-- Pieces that stand in the text in their order, blanks alone between neighbours. -/
structure Tiled (t : List α) (spans : List (Span α)) : Prop where
  stands : ∀ a ∈ spans, Stands read t a
  follows : spans.IsChain (Follows blank t)

variable {blank read}

theorem Tiled.nil : Tiled blank read t [] := ⟨fun _ h => absurd h List.not_mem_nil, .nil⟩

theorem Tiled.cons {a : Span α} {spans : List (Span α)} (hstands : Stands read t a)
    (hfollows : ∀ b ∈ spans.head?, Follows blank t a b) (h : Tiled blank read t spans) :
    Tiled blank read t (a :: spans) where
  stands := List.forall_mem_cons.mpr ⟨hstands, h.stands⟩
  follows := List.isChain_cons.mpr ⟨hfollows, h.follows⟩

section Merge

variable {middle : List α} {a b : Span α}

/-- What is read does not depend on the blanks between two pieces, as long as there are some. -/
abbrev Loose (blank : α → Bool) (read : List α → β) : Prop :=
  ∀ s u gap gap' s' u' : List α, gap ≠ [] → gap' ≠ [] → (∀ c ∈ gap, blank c = true) →
    (∀ c ∈ gap', blank c = true) → read s = read s' → read u = read u' →
      read (s ++ (gap ++ u)) = read (s' ++ (gap' ++ u'))

theorem Stands.join (hloose : Loose blank read) (hmiddle : middle ≠ [])
    (hblank : ∀ c ∈ middle, blank c = true) (ha : Stands read t a) (hb : Stands read t b)
    (hfollows : Follows blank t a b) : Stands read t (a.join middle b) where
  order := ha.order.trans (hfollows.before.le.trans hb.order)
  bound := hb.bound
  text := by
    have hgap : slice t a.stop b.start ≠ [] := by
      intro hnil
      have hlength : (slice t a.stop b.start).length = b.start - a.stop :=
        length_slice (hb.order.trans hb.bound)
      have hbefore := hfollows.before
      rw [hnil, List.length_nil] at hlength
      omega
    rw [Span.join]
    rw [← slice_append ha.order (hfollows.before.le.trans hb.order),
      ← slice_append hfollows.before.le hb.order]
    exact hloose _ _ _ _ _ _ hgap hmiddle hfollows.gap hblank ha.text hb.text

/-- **Two neighbours of a tiling become one piece.** -/
theorem Tiled.merge (hloose : Loose blank read) (hmiddle : middle ≠ [])
    (hblank : ∀ c ∈ middle, blank c = true) {pre post : List (Span α)}
    (h : Tiled blank read t (pre ++ a :: b :: post)) :
    Tiled blank read t (pre ++ a.join middle b :: post) := by
  obtain ⟨hstands, hfollows⟩ := h
  have ha : Stands read t a := hstands a (by simp)
  have hb : Stands read t b := hstands b (by simp)
  rw [List.isChain_append] at hfollows
  obtain ⟨hpre, hrest, hseam⟩ := hfollows
  rw [List.isChain_cons_cons] at hrest
  refine ⟨fun c hc => ?_, List.isChain_append.mpr ⟨hpre, ?_, ?_⟩⟩
  · rcases List.mem_append.mp hc with hc | hc
    · exact hstands c (List.mem_append_left _ hc)
    · rcases List.mem_cons.mp hc with rfl | hc
      · exact ha.join hloose hmiddle hblank hb hrest.1
      · exact hstands c (by simp [hc])
  -- the joined piece stops where the second one does, and starts where the first one does
  · refine List.isChain_cons.mpr ⟨fun c hc => ?_, (List.isChain_cons.mp hrest.2).2⟩
    have hnext := (List.isChain_cons.mp hrest.2).1 c hc
    exact ⟨hnext.before, hnext.gap⟩
  · intro x hx y hy
    cases Option.some.inj hy
    have hlast := hseam x hx a rfl
    exact ⟨hlast.before, hlast.gap⟩

end Merge

/-- Spans of the text from a place on: in their order, apart from each other, and over every
character that is no blank. -/
structure Covers (blank : α → Bool) (t : List α) (place : Nat) (spans : List (Nat × Nat)) :
    Prop where
  bounds : ∀ a ∈ spans, place ≤ a.1 ∧ a.1 < a.2 ∧ a.2 ≤ t.length
  apart : spans.Pairwise fun a b => a.2 ≤ b.1
  inked : ∀ i c, place ≤ i → t[i]? = some c → blank c = false → ∃ a ∈ spans, a.1 ≤ i ∧ i < a.2

theorem Covers.nil {place : Nat} (h : t.length ≤ place) : Covers blank t place [] where
  bounds := fun _ ha => absurd ha List.not_mem_nil
  apart := .nil
  inked := by
    intro i c hi hc
    rw [List.getElem?_eq_none (h.trans hi)] at hc
    cases hc

theorem Covers.eq_or_apart {place : Nat} {spans : List (Nat × Nat)} (h : Covers blank t place spans)
    {a b : Nat × Nat} (ha : a ∈ spans) (hb : b ∈ spans) : a = b ∨ a.2 ≤ b.1 ∨ b.2 ≤ a.1 := by
  have hapart := h.apart
  clear h
  induction hapart with
  | nil => cases ha
  | cons hfirst _ ih =>
    rcases List.mem_cons.mp ha with rfl | hatail <;> rcases List.mem_cons.mp hb with rfl | hbtail
    · exact .inl rfl
    · exact .inr (.inl (hfirst b hbtail))
    · exact .inr (.inr (hfirst a hatail))
    · exact ih hatail hbtail

theorem Covers.cons {next : Nat} {spans : List (Nat × Nat)} (hstart : start < stop)
    (hbound : stop ≤ t.length) (hnext : stop ≤ next)
    (hgap : ∀ i c, stop ≤ i → i < next → t[i]? = some c → blank c = true)
    (h : Covers blank t next spans) : Covers blank t start ((start, stop) :: spans) where
  bounds := by
    refine List.forall_mem_cons.mpr ⟨⟨le_rfl, hstart, hbound⟩, fun a ha => ?_⟩
    obtain ⟨hplace, hrest⟩ := h.bounds a ha
    exact ⟨hstart.le.trans (hnext.trans hplace), hrest⟩
  apart := List.pairwise_cons.mpr ⟨fun a ha => hnext.trans (h.bounds a ha).1, h.apart⟩
  inked := by
    intro i c hi hc hblank
    by_cases hstop : i < stop
    · exact ⟨(start, stop), List.mem_cons_self, hi, hstop⟩
    by_cases hplace : i < next
    · rw [hgap i c (Nat.le_of_not_lt hstop) hplace hc] at hblank
      cases hblank
    · obtain ⟨a, ha, hover⟩ := h.inked i c (Nat.le_of_not_lt hplace) hc hblank
      exact ⟨a, List.mem_cons_of_mem _ ha, hover⟩

end QnscKb.Spans
