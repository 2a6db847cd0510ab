import QnscKb.Lib.Text

/-!
# Source edit — Matching

The find and replace of stored originals (`src/domain/source_edit.py`): which occurrences a
replacement means, and what becomes of a text.
-/

namespace QnscKb.SourceEdit

/-! ### Replacements -/

/-- A replacement as it is asked for; the page of a selection in a PDF is left out. -/
structure Replacement where
  find : Text
  replace : Text
  before : Text
  after : Text
  deriving DecidableEq

/-- A replacement `validate_replacements` let through: there is something to find. -/
abbrev Item := { item : Replacement // item.find ≠ [] }

def MAX_REPLACEMENTS : Nat := 20
def MAX_TEXT_LENGTH : Nat := 500
def MAX_CONTEXT_LENGTH : Nat := 200

/-- `validate_replacements`, one replacement. -/
def validateReplacement (item : Replacement) : Except Text Item :=
  if h : item.find = [] then .error "The text to find cannot be empty.".toList
  else if item.find.length > MAX_TEXT_LENGTH ∨ item.replace.length > MAX_TEXT_LENGTH then
    .error "Text is limited to 500 characters.".toList
  else if item.before.length > MAX_CONTEXT_LENGTH ∨ item.after.length > MAX_CONTEXT_LENGTH then
    .error "The surrounding text is limited to 200 characters.".toList
  else if item.find = item.replace then
    .error "The new text is the same as the old text.".toList
  else .ok ⟨item, h⟩

def validateReplacements (items : List Replacement) : Except Text (List Item) :=
  if items = [] then .error "Give at least one piece of text to change.".toList
  else if items.length > MAX_REPLACEMENTS then
    .error "At most 20 changes can be made at once.".toList
  else items.mapM validateReplacement

/-! ### Matches -/

/-- `_norm`: white space collapsed. -/
def norm (t : Text) : Text := Text.join [' '] (Text.words t)

/-- `_side_matches`; `tail`: what is available lies before the match. -/
def sideMatches (available wanted : Text) (tail : Bool) : Bool :=
  let have_ := norm available
  let want := norm wanted
  if want = [] then true
  else if tail then want.isSuffixOf have_ || have_.isSuffixOf want
  else want.isPrefixOf have_ || have_.isPrefixOf want

def indexOf (needle : Text) : Text → Option Nat
  | [] => if needle = [] then some 0 else none
  | c :: t => if needle.isPrefixOf (c :: t) then some 0 else (indexOf needle t).map (· + 1)

def find (text needle : Text) (position : Nat) : Option Nat :=
  if position ≤ text.length then (indexOf needle (text.drop position)).map (· + position) else none

theorem indexOf_le {needle t : Text} {k : Nat} (h : indexOf needle t = some k) :
    k + needle.length ≤ t.length := by
  induction t generalizing k with
  | nil =>
    rw [indexOf] at h
    split at h
    · next hempty =>
      cases h
      simp [hempty]
    · cases h
  | cons c t ih =>
    rw [indexOf] at h
    split at h
    · next hprefix =>
      cases h
      simpa using (List.isPrefixOf_iff_prefix.mp hprefix).length_le
    · obtain ⟨j, hj, rfl⟩ := Option.map_eq_some_iff.mp h
      have htail := ih hj
      simp only [List.length_cons]
      omega

theorem find_spec {text needle : Text} {position start : Nat}
    (h : find text needle position = some start) :
    position ≤ start ∧ start + needle.length ≤ text.length := by
  rw [find] at h
  split at h
  · obtain ⟨k, hk, rfl⟩ := Option.map_eq_some_iff.mp h
    have hle := indexOf_le hk
    rw [List.length_drop] at hle
    omega
  · cases h

/-- The loop of `matching_starts`. -/
def matchingStartsFrom (text : Text) (item : Item) (position : Nat) : List Nat :=
  match _h : find text item.1.find position with
  | none => []
  | some start =>
    let stop := start + item.1.find.length
    if sideMatches (text.take start) item.1.before true &&
        sideMatches (text.drop stop) item.1.after false then
      start :: matchingStartsFrom text item stop
    else matchingStartsFrom text item stop
  termination_by text.length - position
  decreasing_by
    all_goals
      have hspec := find_spec _h
      have hpos := List.length_pos_iff.mpr item.2
      omega

def matchingStarts (text : Text) (item : Item) : List Nat := matchingStartsFrom text item 0

/-- Where the next of some matches begins, or the text ends. -/
def nextStart (total : Nat) (starts : List Nat) : Nat := starts.head?.getD total

/-- Matches of a given length, one after the other, within a text of a given length. -/
def Spaced (length total : Nat) : List Nat → Prop
  | [] => True
  | start :: starts => start + length ≤ nextStart total starts ∧ Spaced length total starts

theorem nextStart_le {length total : Nat} {starts : List Nat} (h : Spaced length total starts) :
    nextStart total starts ≤ total := by
  induction starts with
  | nil => exact Nat.le_refl _
  | cons start starts ih => exact (Nat.le_add_right _ _).trans (h.1.trans (ih h.2))

theorem spaced_matchingStartsFrom (text : Text) (item : Item) (position : Nat)
    (h : position ≤ text.length) :
    position ≤ nextStart text.length (matchingStartsFrom text item position) ∧
      Spaced item.1.find.length text.length (matchingStartsFrom text item position) := by
  fun_induction matchingStartsFrom text item position with
  | case1 position hnone => exact ⟨h, trivial⟩
  | case2 position start hfind stop hsides ih =>
    obtain ⟨hle, hstop⟩ := find_spec hfind
    obtain ⟨hnext, hspaced⟩ := ih hstop
    exact ⟨hle, hnext, hspaced⟩
  | case3 position start hfind stop hsides ih =>
    obtain ⟨hle, hstop⟩ := find_spec hfind
    obtain ⟨hnext, hspaced⟩ := ih hstop
    exact ⟨hle.trans ((Nat.le_add_right _ _).trans hnext), hspaced⟩

/-- Matches do not overlap, and lie in the text. -/
theorem spaced_matchingStarts (text : Text) (item : Item) :
    Spaced item.1.find.length text.length (matchingStarts text item) :=
  (spaced_matchingStartsFrom text item 0 (Nat.zero_le _)).2

def replaceMatch (item : Item) (start : Nat) (text : Text) : Text :=
  text.take start ++ (item.1.replace ++ text.drop (start + item.1.find.length))

/-- `replace_in_text`: the matches are replaced from the last one on. -/
def replaceInText (text : Text) (item : Item) : Text × Nat :=
  let starts := matchingStarts text item
  (starts.foldr (replaceMatch item) text, starts.length)

/-- `replace_in_text` with each replacement in order, as `_edit_text` has it. -/
def replaceAllInText : Text → List Item → Text × List Nat
  | text, [] => (text, [])
  | text, item :: items =>
    let (text, count) := replaceInText text item
    let (text, counts) := replaceAllInText text items
    (text, count :: counts)

end QnscKb.SourceEdit
