import Mathlib.Algebra.GroupWithZero.Nat
import Mathlib.Data.List.Flatten
import QnscKb.Routing.Sections

/-!
# History — Changes

What changed between two versions of an article (`diff_versions` of
`src/domain/article_changes.py`).  The edit script of `difflib` is a parameter of which only its
correctness is used; so is the `repr` of a metadata value.
-/

namespace QnscKb.Changes

open QnscKb.Routing (splitlines)
open QnscKb.Ask (decimal)

/-! ### Lines -/

def maxHunks : Nat := 30
def maxLinesPerSide : Nat := 12
def maxLineChars : Nat := 300
def maxComparedLines : Nat := 20000

def linesOf (body : Option Text) : List Text := (splitlines (body.getD [])).map Text.rstrip

def hasText (line : Text) : Bool := !(Text.strip line).isEmpty

/-- What a heading line says: `^\s{0,3}#{1,6}\s+(.*?)\s*#*\s*$`, the group alone and not empty. -/
def headingText (line : Text) : Option Text :=
  let indent := (line.takeWhile Text.isSpace).length
  let marked := Text.lstrip line
  let marks := (marked.takeWhile (· == '#')).length
  let rest := marked.drop marks
  let title := Text.lstrip rest
  let said := Text.rstrip ((Text.rstrip title).reverse.dropWhile (· == '#')).reverse
  if indent ≤ 3 ∧ 1 ≤ marks ∧ marks ≤ 6 ∧ rest.head?.any Text.isSpace ∧ said ≠ [] then some said
  else none

def headingAt (lines : List Text) (index : Nat) : Option Text :=
  ((lines.take (index + 1)).reverse).findSome? headingText

def slice (lines : List Text) (start stop : Nat) : List Text :=
  (lines.drop start).take (stop - start)

def firstText (lines : List Text) (start stop : Nat) : Nat :=
  match (slice lines start stop).findIdx? hasText with
  | some k => start + k
  | none => start

def clip (line : Text) : Text :=
  if line.length ≤ maxLineChars then line
  else Text.rstrip (line.take maxLineChars) ++ " [...]".toList

/-- The lines of `_side` that are shown. -/
def shownLines (lines : List Text) : List Text :=
  ((lines.filter hasText).take maxLinesPerSide).map clip

/-- How many `_side` leaves out. -/
def leftOut (lines : List Text) : Nat := (lines.filter hasText).length - (shownLines lines).length

/-! ### Metadata -/

/-- A version as it is stored: its body, the metadata fields it records, and its tags. -/
structure Snapshot where
  bodyMd : Option Text
  field : Text → Option (Option Text)
  tags : Option (List Text)

/-- The fields of `METADATA_FIELDS` but the tags, each with how the summary calls it. -/
def metadataFields : List (Text × Text) :=
  [("title", "Title"), ("type", "Type"), ("dept", "Dept"), ("language", "Language"),
    ("sensitivity", "Sensitivity"), ("visibility", "Visibility"),
    ("external_id", "External id")].map fun (name, label) => (name.toList, label.toList)

inductive MetadataChange
  | field (name label : Text) (before after : Option Text)
  | tags (added removed : List Text)

def fieldChange (before after : Snapshot) (name label : Text) : Option MetadataChange :=
  match before.field name, after.field name with
  | some old, some new =>
    if old.filter (!·.isEmpty) ≠ new.filter (!·.isEmpty) then some (.field name label old new)
    else none
  | _, _ => none

/-- What has changed of the tags, those of each side in some order they are sorted in. -/
def tagsChange (sort : List Text → List Text) (before after : Snapshot) : Option MetadataChange :=
  match before.tags, after.tags with
  | some old, some new =>
    if sort old ≠ sort new then
      some (.tags ((sort new).filter (!(sort old).contains ·))
        ((sort old).filter (!(sort new).contains ·)))
    else none
  | _, _ => none

/-- `_metadata_changes`; the tags are its last field. -/
def metadataChanges (sort : List Text → List Text) (before after : Snapshot) :
    List MetadataChange :=
  (metadataFields.filterMap fun (name, label) => fieldChange before after name label) ++
    (tagsChange sort before after).toList

def MetadataChange.text (repr : Option Text → Text) : MetadataChange → Text
  | .field _ label before after =>
    label ++ ": ".toList ++ repr before ++ " -> ".toList ++ repr after ++ ".".toList
  | .tags added removed =>
    let parts :=
      (if added.isEmpty then [] else ["added ".toList ++ Text.join ", ".toList added]) ++
        (if removed.isEmpty then [] else ["removed ".toList ++ Text.join ", ".toList removed])
    "Tags: ".toList ++ Text.join "; ".toList parts ++ ".".toList

/-! ### The edit script -/

inductive Tag
  | replace | delete | insert | equal
  deriving DecidableEq, Repr

/-- An opcode of `SequenceMatcher.get_opcodes`. -/
structure Opcode where
  tag : Tag
  i1 : Nat
  i2 : Nat
  j1 : Nat
  j2 : Nat
  deriving DecidableEq, Repr

inductive Kind
  | added | removed | changed
  deriving DecidableEq, Repr

structure Hunk where
  heading : Text
  kind : Kind
  removed : List Text
  added : List Text
  moreLines : Nat

/-- A hunk and the numbers of lines it stands for. -/
structure Change where
  removedCount : Nat
  addedCount : Nat
  hunk : Hunk

/-- The body of the loop over the opcodes: none for equal lines and where only blank ones moved. -/
def changeOf (old new : List Text) (op : Opcode) : Option Change :=
  let gone := slice old op.i1 op.i2
  let come := slice new op.j1 op.j2
  let removedCount := gone.countP hasText
  let addedCount := come.countP hasText
  if op.tag = .equal ∨ (removedCount = 0 ∧ addedCount = 0) then none
  else
    let heading :=
      if addedCount ≠ 0 then headingAt new (firstText new op.j1 op.j2)
      else headingAt old (firstText old op.i1 op.i2)
    some
      { removedCount, addedCount
        hunk :=
          { heading := Text.orElse heading "(before the first heading)".toList
            kind :=
              if removedCount = 0 then .added else if addedCount = 0 then .removed else .changed
            removed := shownLines gone
            added := shownLines come
            moreLines := leftOut gone + leftOut come } }

/-! ### The comparison -/

/-- What is said of the bodies: how long they are, or how many lines have changed and where. -/
inductive Body
  | tooLong (linesBefore linesAfter : Nat)
  | compared (linesAdded linesRemoved : Nat) (sections : List Text)

structure Result where
  metadataChanges : List MetadataChange
  hunks : List Hunk
  body : Body
  truncated : Bool
  hunksNotShown : Nat
  summary : List Text

def addHeading (sections : List Text) (heading : Text) : List Text :=
  if sections.contains heading then sections else sections ++ [heading]

def unchangedText : Text := "The text is unchanged.".toList

def textSummary (added removed : Nat) (sections : List Text) : Text :=
  if added ≠ 0 ∨ removed ≠ 0 then
    let named := Text.join ", ".toList ((sections.take 5).map fun s => '"' :: s ++ ['"'])
    let rest := if 5 < sections.length then
      " and ".toList ++ decimal (sections.length - 5) ++ " more".toList else []
    "Text: ".toList ++ (decimal added ++ " line(s) added, ".toList ++ decimal removed ++
      " removed, in ".toList ++ decimal sections.length ++ " section(s): ".toList ++ named ++
      rest ++ ".".toList)
  else unchangedText

def tooLongText (before after : Nat) : Text :=
  "The text is too long to compare line by line (".toList ++ decimal before ++ " -> ".toList ++
    decimal after ++ " lines); open both versions to compare them.".toList

variable (opcodes : List Text → List Text → List Opcode) (repr : Option Text → Text)
  (sort : List Text → List Text)

def changes (old new : List Text) : List Change := (opcodes old new).filterMap (changeOf old new)

def compared (metadata : List MetadataChange) (old new : List Text) : Result :=
  let all := changes opcodes old new
  let added := (all.map Change.addedCount).sum
  let removed := (all.map Change.removedCount).sum
  let sections := all.foldl (fun sections change => addHeading sections change.hunk.heading) []
  let shown := (all.map Change.hunk).take maxHunks
  { metadataChanges := metadata
    hunks := shown
    body := .compared added removed sections
    truncated := decide (maxHunks < all.length) || shown.any fun hunk => hunk.moreLines != 0
    hunksNotShown := all.length - maxHunks
    summary := textSummary added removed sections :: metadata.map (MetadataChange.text repr) }

def diffVersions (before after : Snapshot) (maxLines : Option Nat) : Result :=
  let old := linesOf before.bodyMd
  let new := linesOf after.bodyMd
  let metadata := metadataChanges sort before after
  if maxLines.getD maxComparedLines < max old.length new.length then
    { metadataChanges := metadata
      hunks := []
      body := .tooLong old.length new.length
      truncated := true
      hunksNotShown := 0
      summary := [tooLongText old.length new.length] }
  else compared opcodes repr metadata old new

/-! ### What a correct script says -/

variable {opcodes repr sort} {old new : List Text}

/-- A correct edit script from a place in each list on: its opcodes cover the rest of both, and the
lines it calls equal are. -/
def Edits (old new : List Text) : Nat → Nat → List Opcode → Prop
  | i, j, [] => i = old.length ∧ j = new.length
  | i, j, op :: ops =>
    (op.i1 = i ∧ i ≤ op.i2 ∧ op.i2 ≤ old.length) ∧ (op.j1 = j ∧ j ≤ op.j2 ∧ op.j2 ≤ new.length) ∧
      (op.tag = .equal → slice old op.i1 op.i2 = slice new op.j1 op.j2) ∧
        (op.tag = .delete → op.j2 = j) ∧ (op.tag = .insert → op.i2 = i) ∧
          Edits old new op.i2 op.j2 ops

instance decidableEdits (old new : List Text) :
    ∀ (i j : Nat) (ops : List Opcode), Decidable (Edits old new i j ops)
  | i, j, [] => inferInstanceAs (Decidable (i = old.length ∧ j = new.length))
  | i, j, op :: ops =>
    have := decidableEdits old new op.i2 op.j2 ops
    inferInstanceAs (Decidable
      ((op.i1 = i ∧ i ≤ op.i2 ∧ op.i2 ≤ old.length) ∧
        (op.j1 = j ∧ j ≤ op.j2 ∧ op.j2 ≤ new.length) ∧
        (op.tag = .equal → slice old op.i1 op.i2 = slice new op.j1 op.j2) ∧
        (op.tag = .delete → op.j2 = j) ∧ (op.tag = .insert → op.i2 = i) ∧
        Edits old new op.i2 op.j2 ops))

theorem drop_eq_slice {lines : List Text} {i k : Nat} (h : i ≤ k) :
    lines.drop i = slice lines i k ++ lines.drop k := by
  have hrest : (lines.drop i).drop (k - i) = lines.drop k := by
    rw [List.drop_drop, Nat.add_sub_cancel' h]
  rw [slice, ← hrest, List.take_append_drop]

/-- The lines with text an opcode takes out, and those it puts in. -/
def goneOf (old : List Text) (op : Opcode) : List Text :=
  if op.tag = .equal then [] else (slice old op.i1 op.i2).filter hasText

def comeOf (new : List Text) (op : Opcode) : List Text :=
  if op.tag = .equal then [] else (slice new op.j1 op.j2).filter hasText

/-- The script takes out no line with text and puts none in. -/
def Textless (old new : List Text) (ops : List Opcode) : Prop :=
  ∀ op ∈ ops, goneOf old op = [] ∧ comeOf new op = []

/-- What a change stands for. -/
structure Stands (old new : List Text) (op : Opcode) (change : Change) : Prop where
  removedCount : change.removedCount = (goneOf old op).length
  addedCount : change.addedCount = (comeOf new op).length
  removed : change.hunk.removed = ((goneOf old op).take maxLinesPerSide).map clip
  added : change.hunk.added = ((comeOf new op).take maxLinesPerSide).map clip
  moreLines : change.hunk.moreLines + (change.hunk.removed.length + change.hunk.added.length) =
    change.removedCount + change.addedCount
  kind : change.hunk.kind = if change.removedCount = 0 then .added
    else if change.addedCount = 0 then .removed else .changed
  something : ¬ (change.removedCount = 0 ∧ change.addedCount = 0)

variable {op : Opcode}

theorem changeOf_none (h : changeOf old new op = none) :
    goneOf old op = [] ∧ comeOf new op = [] := by
  rw [changeOf] at h
  split at h
  · rename_i hpassed
    rcases hpassed with hequal | ⟨hgone, hcome⟩
    · simp [goneOf, comeOf, hequal]
    · rw [List.countP_eq_length_filter, List.length_eq_zero_iff] at hgone hcome
      rw [goneOf, comeOf, hgone, hcome]
      exact ⟨ite_self [], ite_self []⟩
  · cases h

theorem length_shownLines (lines : List Text) :
    (shownLines lines).length + leftOut lines = (lines.filter hasText).length := by
  rw [leftOut, shownLines, List.length_map, List.length_take]
  omega

variable {change : Change}

theorem changeOf_some (h : changeOf old new op = some change) : Stands old new op change := by
  rw [changeOf] at h
  split at h
  · cases h
  · rename_i hcounted
    obtain rfl := Option.some.inj h
    have htag : op.tag ≠ .equal := fun hequal => hcounted (.inl hequal)
    have hgone : goneOf old op = (slice old op.i1 op.i2).filter hasText := if_neg htag
    have hcome : comeOf new op = (slice new op.j1 op.j2).filter hasText := if_neg htag
    refine ⟨?_, ?_, ?_, ?_, ?_, rfl, fun hzero => hcounted (.inr hzero)⟩
    · rw [hgone, ← List.countP_eq_length_filter]
    · rw [hcome, ← List.countP_eq_length_filter]
    · rw [hgone]
      rfl
    · rw [hcome]
      rfl
    · have hleft := length_shownLines (slice old op.i1 op.i2)
      have hright := length_shownLines (slice new op.j1 op.j2)
      dsimp only
      rw [List.countP_eq_length_filter, List.countP_eq_length_filter]
      omega

theorem changeOf_eq_none_iff :
    changeOf old new op = none ↔ goneOf old op = [] ∧ comeOf new op = [] := by
  refine ⟨changeOf_none, fun ⟨hgone, hcome⟩ => ?_⟩
  cases hchange : changeOf old new op with
  | none => rfl
  | some change =>
    have hstands := changeOf_some hchange
    refine absurd ⟨?_, ?_⟩ hstands.something
    · rw [hstands.removedCount, hgone, List.length_nil]
    · rw [hstands.addedCount, hcome, List.length_nil]

theorem filter_drop {ops : List Opcode} {i j : Nat} (h : Edits old new i j (op :: ops)) :
    ∃ same, (old.drop i).filter hasText = same ++ goneOf old op ++ (old.drop op.i2).filter hasText ∧
      (new.drop j).filter hasText = same ++ comeOf new op ++ (new.drop op.j2).filter hasText := by
  obtain ⟨⟨rfl, hi, -⟩, ⟨rfl, hj, -⟩, hequal, -⟩ := h
  rw [drop_eq_slice hi, drop_eq_slice hj]
  by_cases htag : op.tag = .equal
  · refine ⟨(slice old op.i1 op.i2).filter hasText, ?_, ?_⟩
    · simp [goneOf, htag]
    · simp [comeOf, htag, hequal htag]
  · exact ⟨[], by simp [goneOf, htag], by simp [comeOf, htag]⟩

/-- The lines of the changes of a script, from a place on. -/
structure Accounted (old new : List Text) (i j : Nat) (all : List Change) : Prop where
  difference : (all.map Change.addedCount).sum + ((old.drop i).filter hasText).length =
    (all.map Change.removedCount).sum + ((new.drop j).filter hasText).length
  unchanged : (all.map Change.addedCount).sum = 0 → (all.map Change.removedCount).sum = 0 →
    (old.drop i).filter hasText = (new.drop j).filter hasText
  removed : (all.flatMap fun change => change.hunk.removed).Sublist
    (((old.drop i).filter hasText).map clip)
  added : (all.flatMap fun change => change.hunk.added).Sublist
    (((new.drop j).filter hasText).map clip)
  stands : ∀ change ∈ all, ∃ op, Stands old new op change

/-- **A correct script accounts for every line with text.** -/
theorem accounted_edits {ops : List Opcode} {i j : Nat} (h : Edits old new i j ops) :
    Accounted old new i j (ops.filterMap (changeOf old new)) := by
  induction ops generalizing i j with
  | nil =>
    obtain ⟨rfl, rfl⟩ := h
    exact ⟨by simp, by simp, by simp, by simp, by simp⟩
  | cons op ops ih =>
    obtain ⟨same, hold, hnew⟩ := filter_drop h
    have hrest := ih h.2.2.2.2.2
    rw [List.filterMap_cons]
    cases hchange : changeOf old new op with
    | none =>
      obtain ⟨hgone, hcome⟩ := changeOf_none hchange
      rw [hgone, List.append_nil] at hold
      rw [hcome, List.append_nil] at hnew
      dsimp only
      constructor
      · rw [hold, hnew, List.length_append, List.length_append]
        have := hrest.difference
        omega
      · intro hadded hremoved
        rw [hold, hnew, hrest.unchanged hadded hremoved]
      · rw [hold, List.map_append]
        exact hrest.removed.trans (List.sublist_append_right _ _)
      · rw [hnew, List.map_append]
        exact hrest.added.trans (List.sublist_append_right _ _)
      · exact hrest.stands
    | some change =>
      have hstands := changeOf_some hchange
      constructor
      · rw [hold, hnew, List.map_cons, List.map_cons, List.sum_cons, List.sum_cons,
          hstands.removedCount, hstands.addedCount]
        simp only [List.length_append]
        have := hrest.difference
        omega
      · intro hadded hremoved
        rw [List.map_cons, List.sum_cons] at hadded hremoved
        exact absurd ⟨by omega, by omega⟩ hstands.something
      · rw [hold, List.flatMap_cons, hstands.removed, List.map_append, List.map_append,
          List.append_assoc]
        exact ((((List.take_sublist _ _).map clip).append hrest.removed).trans
          (List.sublist_append_right _ _))
      · rw [hnew, List.flatMap_cons, hstands.added, List.map_append, List.map_append,
          List.append_assoc]
        exact ((((List.take_sublist _ _).map clip).append hrest.added).trans
          (List.sublist_append_right _ _))
      · exact List.forall_mem_cons.mpr ⟨⟨op, hstands⟩, hrest.stands⟩

/-! ### What a comparison says -/

/-- What a comparison of bodies that are short enough says of them. -/
structure Consistent (old new : List Text) (ops : List Opcode) (r : Result) (added removed : Nat) :
    Prop where
  /-- The text is called unchanged where the script is about no line with text, and nowhere else. -/
  said : unchangedText ∈ r.summary.head? ↔ Textless old new ops
  /-- There its lines with text are the same. -/
  unchanged : unchangedText ∈ r.summary.head? → old.filter hasText = new.filter hasText
  difference : added + (old.filter hasText).length = removed + (new.filter hasText).length
  shown_removed : (r.hunks.flatMap Hunk.removed).Sublist ((old.filter hasText).map clip)
  shown_added : (r.hunks.flatMap Hunk.added).Sublist ((new.filter hasText).map clip)
  removed_le : (r.hunks.map fun hunk => hunk.removed.length).sum ≤ removed
  added_le : (r.hunks.map fun hunk => hunk.added.length).sum ≤ added
  /-- What is shown and what the hunks leave out are all the lines counted, unless hunks are left
  out. -/
  accounted : r.hunksNotShown = 0 →
    (r.hunks.map fun hunk => hunk.moreLines + (hunk.removed.length + hunk.added.length)).sum =
      removed + added
  /-- What is shown is all there is, unless the result says that it is not. -/
  complete : r.truncated = false → (r.hunks.map fun hunk => hunk.removed.length).sum = removed ∧
    (r.hunks.map fun hunk => hunk.added.length).sum = added
  kinds : ∀ hunk ∈ r.hunks, (hunk.kind = .added ↔ hunk.removed = []) ∧
    (hunk.kind = .removed ↔ hunk.added = [])

theorem textSummary_unchanged_iff {added removed : Nat} {sections : List Text} :
    textSummary added removed sections = unchangedText ↔ added = 0 ∧ removed = 0 := by
  rw [textSummary]
  split
  · rename_i hchanged
    have hsaid : "Text: ".toList = 'T' :: 'e' :: "xt: ".toList := rfl
    have hunchanged : unchangedText = 'T' :: 'h' :: "e text is unchanged.".toList := rfl
    refine iff_of_false (fun h => ?_) (by omega)
    exact absurd (List.cons.inj (List.cons.inj h).2).1 (by decide)
  · rename_i hnone
    exact iff_of_true rfl (by omega)

/-- The counters are zero where the script is about no line with text. -/
theorem counted_zero_iff (old new : List Text) (ops : List Opcode) :
    ((ops.filterMap (changeOf old new)).map Change.addedCount).sum = 0 ∧
        ((ops.filterMap (changeOf old new)).map Change.removedCount).sum = 0 ↔
      Textless old new ops := by
  simp only [List.sum_eq_zero_iff_forall_eq_nat, List.forall_mem_map, List.mem_filterMap,
    ← forall₂_and]
  constructor
  · intro h op hop
    rw [← changeOf_eq_none_iff]
    cases hchange : changeOf old new op with
    | none => rfl
    | some change =>
      have hzero := h change ⟨op, hop, hchange⟩
      exact absurd hzero.symm (changeOf_some hchange).something
  · rintro h change ⟨op, hop, hchange⟩
    rw [changeOf_eq_none_iff.mpr (h op hop)] at hchange
    cases hchange

theorem Stands.shown_le (h : Stands old new op change) :
    change.hunk.removed.length ≤ change.removedCount ∧
      change.hunk.added.length ≤ change.addedCount := by
  rw [h.removed, h.added, h.removedCount, h.addedCount, List.length_map, List.length_map,
    List.length_take, List.length_take]
  exact ⟨Nat.min_le_right _ _, Nat.min_le_right _ _⟩

theorem Stands.removed_eq_nil (h : Stands old new op change) :
    change.hunk.removed = [] ↔ change.removedCount = 0 := by
  rw [h.removed, h.removedCount, List.map_eq_nil_iff, List.take_eq_nil_iff,
    List.length_eq_zero_iff]
  simp [maxLinesPerSide]

theorem Stands.added_eq_nil (h : Stands old new op change) :
    change.hunk.added = [] ↔ change.addedCount = 0 := by
  rw [h.added, h.addedCount]
  simp [maxLinesPerSide]

theorem Stands.kinds (h : Stands old new op change) :
    (change.hunk.kind = .added ↔ change.hunk.removed = []) ∧
      (change.hunk.kind = .removed ↔ change.hunk.added = []) := by
  have hsomething := h.something
  rw [h.removed_eq_nil, h.added_eq_nil, h.kind]
  by_cases hremoved : change.removedCount = 0
  · simp only [hremoved, true_and] at hsomething
    simp [hremoved, hsomething]
  · by_cases hadded : change.addedCount = 0
    · simp [hremoved, hadded]
    · simp [hremoved, hadded]

theorem sum_take_le (f g : Change → Nat) (all : List Change)
    (h : ∀ change ∈ all, f change ≤ g change) (n : Nat) :
    ((all.take n).map f).sum ≤ (all.map g).sum := by
  induction all generalizing n with
  | nil => simp
  | cons change all ih =>
    obtain ⟨hfirst, hrest⟩ := List.forall_mem_cons.mp h
    cases n with
    | zero => simp
    | succ n =>
      exact Nat.add_le_add hfirst (ih hrest n)

theorem sum_congr {f g : Change → Nat} {all : List Change}
    (h : ∀ change ∈ all, f change = g change) : (all.map f).sum = (all.map g).sum :=
  congrArg List.sum (List.map_congr_left h)

theorem sum_add (f g : Change → Nat) (all : List Change) :
    (all.map fun change => f change + g change).sum = (all.map f).sum + (all.map g).sum := by
  induction all with
  | nil => rfl
  | cons change all ih =>
    simp only [List.map_cons, List.sum_cons]
    omega

theorem map_hunks {β : Type} (f : Hunk → β) (all : List Change) :
    ((all.map Change.hunk).take maxHunks).map f =
      (all.take maxHunks).map fun change => f change.hunk := by
  rw [← List.map_take, List.map_map]
  rfl

theorem flatMap_hunks (f : Hunk → List Text) (all : List Change) :
    (((all.map Change.hunk).take maxHunks).flatMap f).Sublist
      (all.flatMap fun change => f change.hunk) := by
  rw [List.flatMap_def, map_hunks]
  exact ((List.take_sublist _ _).map _).flatten

/-- **A comparison is consistent with the script it is made from.** -/
theorem compared_consistent (hscript : Edits old new 0 0 (opcodes old new))
    (metadata : List MetadataChange) :
    Consistent old new (opcodes old new) (compared opcodes repr metadata old new)
      ((changes opcodes old new).map Change.addedCount).sum
      ((changes opcodes old new).map Change.removedCount).sum := by
  have haccounted := accounted_edits hscript
  have hzero := counted_zero_iff old new (opcodes old new)
  rw [← changes] at haccounted hzero
  generalize hall : changes opcodes old new = all at haccounted hzero
  have hle : ∀ change ∈ all, change.hunk.removed.length ≤ change.removedCount ∧
      change.hunk.added.length ≤ change.addedCount := fun change hchange =>
    (haccounted.stands change hchange).elim fun _ hstands => hstands.shown_le
  have hmore : ∀ change ∈ all,
      change.hunk.moreLines + (change.hunk.removed.length + change.hunk.added.length) =
        change.removedCount + change.addedCount := fun change hchange =>
    (haccounted.stands change hchange).elim fun _ hstands => hstands.moreLines
  rw [compared, hall]
  constructor
  · rw [← hzero, ← textSummary_unchanged_iff]
    exact Option.some_inj
  · intro hunchanged
    obtain ⟨hadded, hremoved⟩ := textSummary_unchanged_iff.mp (Option.some.inj hunchanged)
    exact haccounted.unchanged hadded hremoved
  · exact haccounted.difference
  · exact (flatMap_hunks Hunk.removed all).trans haccounted.removed
  · exact (flatMap_hunks Hunk.added all).trans haccounted.added
  · rw [map_hunks]
    exact sum_take_le _ _ all (fun change hchange => (hle change hchange).1) maxHunks
  · rw [map_hunks]
    exact sum_take_le _ _ all (fun change hchange => (hle change hchange).2) maxHunks
  · intro hshown
    have hall : all.take maxHunks = all := List.take_of_length_le (Nat.sub_eq_zero_iff_le.mp hshown)
    rw [map_hunks, hall, ← sum_add, sum_congr hmore]
  · intro hwhole
    obtain ⟨hshown, hnone⟩ := Bool.or_eq_false_iff.mp hwhole
    have hall : all.take maxHunks = all :=
      List.take_of_length_le (Nat.le_of_not_lt (of_decide_eq_false hshown))
    have hzero : ∀ change ∈ all, change.hunk.moreLines = 0 := by
      intro change hchange
      rw [← List.map_take, hall] at hnone
      simpa using List.any_eq_false.mp hnone change.hunk (List.mem_map_of_mem hchange)
    have hboth : ∀ change ∈ all, change.hunk.removed.length = change.removedCount ∧
        change.hunk.added.length = change.addedCount := by
      intro change hchange
      have hle := hle change hchange
      have hmore := hmore change hchange
      have hzero := hzero change hchange
      omega
    rw [map_hunks, map_hunks, hall]
    exact ⟨sum_congr fun change hchange => (hboth change hchange).1,
      sum_congr fun change hchange => (hboth change hchange).2⟩
  · intro hunk hhunk
    obtain ⟨change, hchange, rfl⟩ := List.mem_map.mp (List.mem_of_mem_take hhunk)
    exact (haccounted.stands change hchange).elim fun _ hstands => hstands.kinds

/-- What `diff_versions` says of two bodies, given their script and its limit: how long they are, or
what changed. -/
def Summarises (old new : List Text) (ops : List Opcode) (limit : Nat) (r : Result) : Prop :=
  match r.body with
  | .tooLong linesBefore linesAfter =>
    (linesBefore = old.length ∧ linesAfter = new.length ∧ limit < max old.length new.length) ∧
      r.hunks = [] ∧ r.truncated = true
  | .compared added removed _ =>
    max old.length new.length ≤ limit ∧ Consistent old new ops r added removed

/-- **What the summary says of the text is so**: it is called unchanged exactly where the script
changes no line with text; the counters and the hunks are those of its lines. -/
theorem diff_consistent {before after : Snapshot} {maxLines : Option Nat}
    (hscript : Edits (linesOf before.bodyMd) (linesOf after.bodyMd) 0 0
      (opcodes (linesOf before.bodyMd) (linesOf after.bodyMd))) :
    Summarises (linesOf before.bodyMd) (linesOf after.bodyMd)
      (opcodes (linesOf before.bodyMd) (linesOf after.bodyMd)) (maxLines.getD maxComparedLines)
      (diffVersions opcodes repr sort before after maxLines) := by
  rw [diffVersions]
  split
  · rename_i hlong
    exact ⟨⟨rfl, rfl, hlong⟩, rfl, rfl⟩
  · rename_i hshort
    exact ⟨Nat.le_of_not_lt hshort, compared_consistent hscript _⟩

/-! ### A line that moves over blank ones -/

def bodyAlone (body : String) : Snapshot := ⟨some body.toList, fun _ => none, none⟩

/-- The script of a line moved over two empty ones: these are the longest run the two bodies
share. -/
def movedOver (_ _ : List Text) : List Opcode :=
  [⟨.delete, 0, 1, 0, 0⟩, ⟨.equal, 1, 3, 0, 2⟩, ⟨.insert, 3, 3, 2, 3⟩]

theorem movedOver_edits :
    Edits (linesOf (bodyAlone "A\n\n\n").bodyMd) (linesOf (bodyAlone "\n\nA").bodyMd) 0 0
      (movedOver (linesOf (bodyAlone "A\n\n\n").bodyMd) (linesOf (bodyAlone "\n\nA").bodyMd)) := by
  decide +kernel

theorem movedOver_summarised :
    Summarises (linesOf (bodyAlone "A\n\n\n").bodyMd) (linesOf (bodyAlone "\n\nA").bodyMd)
      (movedOver [] []) maxComparedLines
      (diffVersions movedOver (fun _ => []) id (bodyAlone "A\n\n\n") (bodyAlone "\n\nA") none) :=
  show Summarises _ _ _ ((none : Option Nat).getD maxComparedLines) _ from
    diff_consistent movedOver_edits

/-- Neither of two equal bodies over the limit, nor of two that differ in blank lines alone, is
called unchanged. -/
theorem unchanged_unsaid :
    (diffVersions movedOver (fun _ => []) id (bodyAlone "A\nB") (bodyAlone "A\nB")
        (some 1)).summary.head? ≠ some unchangedText ∧
      (linesOf (bodyAlone "A\n\n\n").bodyMd).filter hasText =
        (linesOf (bodyAlone "\n\nA").bodyMd).filter hasText ∧
      (diffVersions movedOver (fun _ => []) id (bodyAlone "A\n\n\n") (bodyAlone "\n\nA")
        none).summary.head? ≠ some unchangedText := by
  decide +kernel

end QnscKb.Changes
