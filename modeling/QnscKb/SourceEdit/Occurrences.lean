import QnscKb.SourceEdit.Matching

/-!
# Source edit — Occurrences

Which occurrences of a text `matching_starts` finds (`src/domain/source_edit.py`).  The loop goes
from one occurrence to the next that does not overlap it, whether the surroundings agree or not, so
an occurrence between two stops is never looked at.
-/

namespace QnscKb.SourceEdit

/-- The text has what is to be found at this place. -/
def Occurs (text : Text) (item : Item) (place : ℕ) : Prop := item.1.find <+: text.drop place

/-- What surrounds the place agrees with the selection's surroundings. -/
def agrees (text : Text) (item : Item) (place : ℕ) : Bool :=
  sideMatches (text.take place) item.1.before true &&
    sideMatches (text.drop (place + item.1.find.length)) item.1.after false

def everywhere (item : Item) : Item := ⟨{ item.1 with before := [], after := [] }, item.2⟩

def stopsFrom (text : Text) (item : Item) (position : ℕ) : List ℕ :=
  matchingStartsFrom text (everywhere item) position

def stops (text : Text) (item : Item) : List ℕ := stopsFrom text item 0

/-! ### Stops -/

variable {text : Text} {item : Item} {position place : ℕ}

theorem stopsFrom_none (h : find text item.1.find position = none) :
    stopsFrom text item position = [] := by
  rw [stopsFrom, matchingStartsFrom]
  split
  · rfl
  · rename_i start hstart
    cases h.symm.trans hstart

theorem stopsFrom_some {start : ℕ} (h : find text item.1.find position = some start) :
    stopsFrom text item position = start :: stopsFrom text item (start + item.1.find.length) := by
  have hnorm : norm [] = [] := rfl
  have hsides : ∀ (available : Text) (tail : Bool), sideMatches available [] tail = true := by
    intro available tail
    simp [sideMatches, hnorm]
  rw [stopsFrom, matchingStartsFrom]
  split
  · rename_i hstart
    cases h.symm.trans hstart
  · rename_i start' hstart
    cases h.symm.trans hstart
    simp [everywhere, hsides, stopsFrom]

theorem matchingStartsFrom_eq (text : Text) (item : Item) (position : ℕ) :
    matchingStartsFrom text item position =
      (stopsFrom text item position).filter (agrees text item) := by
  fun_induction matchingStartsFrom text item position with
  | case1 position hnone => rw [stopsFrom_none hnone, List.filter_nil]
  | case2 position start hfind stop hsides ih =>
    rw [stopsFrom_some hfind, List.filter_cons_of_pos (by simpa [agrees] using hsides), ih]
  | case3 position start hfind stop hsides ih =>
    rw [stopsFrom_some hfind, List.filter_cons_of_neg (by simpa [agrees] using hsides), ih]

/-- The matches are the stops that agree with the surroundings. -/
theorem matchingStarts_eq (text : Text) (item : Item) :
    matchingStarts text item = (stops text item).filter (agrees text item) :=
  matchingStartsFrom_eq text item 0

theorem mem_matchingStarts :
    place ∈ matchingStarts text item ↔ place ∈ stops text item ∧ agrees text item place = true := by
  rw [matchingStarts_eq, List.mem_filter]

theorem indexOf_first {needle t : Text} {k : ℕ} (h : needle <+: t.drop k) :
    ∃ j, indexOf needle t = some j ∧ j ≤ k := by
  induction t generalizing k with
  | nil =>
    rw [List.drop_nil, List.prefix_nil] at h
    exact ⟨0, if_pos h, Nat.zero_le k⟩
  | cons c t ih =>
    rw [indexOf]
    split
    · exact ⟨0, rfl, Nat.zero_le k⟩
    · rename_i hno
      cases k with
      | zero => exact absurd (List.isPrefixOf_iff_prefix.mpr h) hno
      | succ k =>
        obtain ⟨j, hj, hle⟩ := ih h
        exact ⟨j + 1, by rw [hj]; rfl, Nat.succ_le_succ hle⟩

theorem find_first (hle : position ≤ place) (h : Occurs text item place) :
    ∃ start, find text item.1.find position = some start ∧ start ≤ place := by
  have hlength := h.length_le
  have hpos := List.length_pos_iff.mpr item.2
  rw [List.length_drop] at hlength
  have hdrop : item.1.find <+: (text.drop position).drop (place - position) := by
    rw [List.drop_drop, Nat.add_sub_cancel' hle]
    exact h
  obtain ⟨j, hj, hjle⟩ := indexOf_first hdrop
  refine ⟨j + position, ?_, by omega⟩
  rw [find, if_pos (by omega), hj]
  rfl

theorem prefix_of_indexOf {needle t : Text} {k : ℕ} (h : indexOf needle t = some k) :
    needle <+: t.drop k := by
  induction t generalizing k with
  | nil =>
    rw [indexOf] at h
    split at h
    · next hempty => exact hempty ▸ List.nil_prefix
    · cases h
  | cons c t ih =>
    rw [indexOf] at h
    split at h
    · next hprefix =>
      cases h
      exact List.isPrefixOf_iff_prefix.mp hprefix
    · obtain ⟨j, hj, rfl⟩ := Option.map_eq_some_iff.mp h
      exact ih hj

/-- A stop is an occurrence. -/
theorem occurs_of_mem_stopsFrom (h : place ∈ stopsFrom text item position) :
    Occurs text item place := by
  fun_induction matchingStartsFrom text item position with
  | case1 position hnone =>
    rw [stopsFrom_none hnone] at h
    cases h
  | case2 position start hfind stop hsides ih | case3 position start hfind stop hsides ih =>
    rw [stopsFrom_some hfind] at h
    rcases List.mem_cons.mp h with rfl | h
    · rw [find] at hfind
      split at hfind
      · obtain ⟨k, hk, rfl⟩ := Option.map_eq_some_iff.mp hfind
        have hprefix := prefix_of_indexOf hk
        rwa [List.drop_drop, Nat.add_comm] at hprefix
      · cases hfind
    · exact ih h

/-- **An occurrence is a stop**, or begins inside one. -/
theorem stop_or_inside (h : Occurs text item place) (position : ℕ) (hle : position ≤ place) :
    place ∈ stopsFrom text item position ∨
      ∃ stop ∈ stopsFrom text item position, stop < place ∧ place < stop + item.1.find.length := by
  fun_induction matchingStartsFrom text item position with
  | case1 position hnone =>
    obtain ⟨start, hstart, -⟩ := find_first hle h
    cases hnone.symm.trans hstart
  | case2 position start hfind stop hsides ih | case3 position start hfind stop hsides ih =>
    obtain ⟨start', hstart, hfirst⟩ := find_first hle h
    cases hfind.symm.trans hstart
    rw [stopsFrom_some hfind]
    rcases hfirst.eq_or_lt with rfl | hlt
    · exact .inl List.mem_cons_self
    · by_cases hinside : place < start + item.1.find.length
      · exact .inr ⟨start, List.mem_cons_self, hlt, hinside⟩
      · -- it lies behind this stop, where the loop goes on
        rcases ih (Nat.not_lt.mp hinside) with hmem | ⟨later, hmem, hbefore⟩
        · exact .inl (List.mem_cons_of_mem _ hmem)
        · exact .inr ⟨later, List.mem_cons_of_mem _ hmem, hbefore⟩

/-! ### Matches -/

theorem Spaced.pairwise {length total : ℕ} {starts : List ℕ} (h : Spaced length total starts) :
    starts.Pairwise fun start later => start + length ≤ later := by
  have hbehind : ∀ {starts : List ℕ} {bound : ℕ}, Spaced length total starts →
      bound ≤ nextStart total starts → ∀ start ∈ starts, bound ≤ start := by
    intro starts
    induction starts with
    | nil => exact fun _ _ start hstart => absurd hstart List.not_mem_nil
    | cons first starts ih =>
      intro bound hspaced hbound start hstart
      rcases List.mem_cons.mp hstart with rfl | hstart
      · exact hbound
      · exact hbound.trans ((Nat.le_add_right _ _).trans (ih hspaced.2 hspaced.1 start hstart))
  induction starts with
  | nil => exact .nil
  | cons start starts ih => exact .cons (hbehind h.2 h.1) (ih h.2)

def Overlap (item : Item) (place other : ℕ) : Prop :=
  place < other + item.1.find.length ∧ other < place + item.1.find.length

/-- The matches are in order and apart, and an occurrence that agrees is one of them or overlaps
one. -/
structure Complete (text : Text) (item : Item) : Prop where
  apart : (matchingStarts text item).Pairwise fun start later =>
    start + item.1.find.length ≤ later
  found : ∀ place, Occurs text item place → agrees text item place = true →
    ∃ start ∈ matchingStarts text item, Overlap item place start

/-- Where an occurrence that agrees begins inside a stop that does not, a later stop agrees and
begins before the occurrence ends. -/
def Rescued (text : Text) (item : Item) : Prop :=
  ∀ stop ∈ stops text item, agrees text item stop = false → ∀ place, stop < place →
    place < stop + item.1.find.length → Occurs text item place → agrees text item place = true →
    ∃ later ∈ stops text item, agrees text item later = true ∧
      stop + item.1.find.length ≤ later ∧ later < place + item.1.find.length

theorem Rescued.complete (h : Rescued text item) : Complete text item := by
  have hpos : 0 < item.1.find.length := List.length_pos_iff.mpr item.2
  refine ⟨(spaced_matchingStarts text item).pairwise, fun place hoccurs hagrees => ?_⟩
  rcases stop_or_inside hoccurs 0 (Nat.zero_le _) with hstop | ⟨stop, hstop, hlt, hinside⟩
  · exact ⟨place, mem_matchingStarts.mpr ⟨hstop, hagrees⟩, by omega, by omega⟩
  · cases hyes : agrees text item stop with
    | true => exact ⟨stop, mem_matchingStarts.mpr ⟨hstop, hyes⟩, hinside, by omega⟩
    | false =>
      obtain ⟨later, hlater, hagree, hbehind, hbefore⟩ :=
        h stop hstop hyes place hlt hinside hoccurs hagrees
      exact ⟨later, mem_matchingStarts.mpr ⟨hlater, hagree⟩, by omega, hbefore⟩

/-- No two occurrences overlap. -/
def Apart (text : Text) (item : Item) : Prop :=
  ∀ place other, Occurs text item place → Occurs text item other → Overlap item place other →
    place = other

/-- Where no two occurrences overlap, none that agrees is missed. -/
theorem Apart.complete (h : Apart text item) : Complete text item := by
  refine Rescued.complete fun stop hstop _ place hlt hinside hoccurs _ => ?_
  have heq := h place stop hoccurs (occurs_of_mem_stopsFrom hstop) ⟨hinside, by omega⟩
  omega

/-- **Every occurrence that agrees** is found, up to overlaps, exactly where the stops that do not
agree hide none. -/
theorem complete_iff (text : Text) (item : Item) : Complete text item ↔ Rescued text item := by
  constructor
  · intro h stop hstop hno place hlt hinside hoccurs hagrees
    obtain ⟨later, hlater, hbefore, hafter⟩ := h.found place hoccurs hagrees
    obtain ⟨hmem, hyes⟩ := mem_matchingStarts.mp hlater
    refine ⟨later, hmem, hyes, ?_, hafter⟩
    have hne : stop ≠ later := fun heq => by simp [heq, hyes] at hno
    -- of two stops one lies behind the other, and this one reaches the occurrence
    have hstops : (stops text item).Pairwise fun start later =>
        start + item.1.find.length ≤ later :=
      (spaced_matchingStarts text (everywhere item)).pairwise
    rw [List.pairwise_iff_getElem] at hstops
    obtain ⟨i, hi, rfl⟩ := List.getElem_of_mem hstop
    obtain ⟨j, hj, rfl⟩ := List.getElem_of_mem hmem
    rcases Nat.lt_trichotomy i j with hij | rfl | hji
    · exact hstops i j hi hj hij
    · exact absurd rfl hne
    · have hbehind := hstops j i hj hi hji
      omega
  · exact Rescued.complete

def doubled : Item :=
  ⟨{ find := ['a', 'a'], replace := ['b'], before := ['a'], after := [] }, List.cons_ne_nil _ _⟩

/-- The first occurrence stands after another letter; the second, inside it, is never looked at. -/
theorem occurrence_missed : ¬ ∀ (text : Text) (item : Item), Complete text item := by
  intro h
  have hfirst : find ['x', 'a', 'a', 'a'] doubled.1.find 0 = some 1 := rfl
  have hlast : find ['x', 'a', 'a', 'a'] doubled.1.find 3 = none := rfl
  have hnone : matchingStarts ['x', 'a', 'a', 'a'] doubled = [] := by
    rw [matchingStarts_eq, stops, stopsFrom_some hfirst]
    change ([1] ++ stopsFrom _ _ 3).filter _ = []
    rw [stopsFrom_none hlast]
    rfl
  obtain ⟨start, hstart, -⟩ := (h ['x', 'a', 'a', 'a'] doubled).found 2 ⟨[], rfl⟩ rfl
  rw [hnone] at hstart
  cases hstart

end QnscKb.SourceEdit
