import Mathlib.Data.List.Chain
import Mathlib.Data.List.ModifyLast
import QnscKb.Routing.Departments

/-!
# Routing — Partition

The candidates a document is split into (`_finalize`, `route_document_candidates` and
`route_document_candidates_llm` of `src/domain/department_routing.py`).
-/

namespace QnscKb.Routing

open Ask (Python)
open Lines (trimEnds)

structure Candidate extends Section, Assignment
  deriving DecidableEq

def Candidate.primary (c : Candidate) : Option Text := c.departmentIds.head?

/-- `{**section, **_assignment(…)}`. -/
def candidateOf (s : Section) (a : Assignment) : Candidate := { s, a with }

/-- The candidate, with the text of a later one after its own. -/
def Candidate.followedBy (c item : Candidate) : Candidate :=
  { c with bodyMd := c.bodyMd ++ ("\n\n".toList ++ item.bodyMd), sourceEnd := item.sourceEnd }

/-- The candidate, with a heading held back before it. -/
def Candidate.after (item pending : Candidate) : Candidate :=
  { item with
    bodyMd := pending.bodyMd ++ ("\n\n".toList ++ item.bodyMd)
    sourceStart := pending.sourceStart
    heading := if pending.heading.any (!·.isEmpty) then pending.heading else item.heading
    title := if pending.heading.any (!·.isEmpty) then pending.title else item.title }

/-! ### Merging -/

/-- `_absorb_hollow_sections`, after some sections and with a hollow one held back. -/
def absorbFrom : List Candidate → Option Candidate → List Candidate → List Candidate
  | merged, pending, [] => merged ++ pending.toList
  | merged, pending, item :: rest =>
    let current := pending.elim item item.after
    if (bodyWithoutHeadings current.bodyMd).isEmpty = false then
      absorbFrom (merged ++ [current]) none rest
    else if merged = [] then absorbFrom [] (some current) rest
    else absorbFrom (merged.modifyLast (·.followedBy current)) none rest

def absorbHollowSections (routed : List Candidate) : List Candidate :=
  if routed.length < 2 then routed else absorbFrom [] none routed

/-- Neighbours of one owner become one, after the groups there are. -/
def groupFrom : List Candidate → List Candidate → List Candidate
  | grouped, [] => grouped
  | grouped, item :: rest =>
    if grouped ≠ [] ∧ item.primary = grouped.getLast?.bind Candidate.primary then
      groupFrom (grouped.modifyLast (·.followedBy item)) rest
    else groupFrom (grouped ++ [item]) rest

/-- Candidates with the positions they stand at. -/
def numbered (grouped : List Candidate) : List Candidate :=
  grouped.mapIdx fun i item => { item with position := i + 1 }

def finalize (P : Python) (title markdown : Text) (departments : List Department)
    (routed : List Candidate) : List Candidate :=
  let routed := absorbHollowSections routed
  if routed.all (·.departmentIds.isEmpty) then
    [candidateOf
      { position := 1
        title := title.take 255
        bodyMd := Text.strip markdown
        sourceStart := 0
        sourceEnd := (Text.strip markdown).length
        heading := none }
      (suggestDepartments P title markdown departments)]
  else numbered (groupFrom [] routed)

def routeDocumentCandidates (P : Python) (settings : Settings) (title markdown : Text)
    (departments : List Department) : List Candidate :=
  finalize P title markdown departments
    ((majorSections settings.autoSplit title markdown).map fun s =>
      candidateOf s (suggestDepartments P s.title s.bodyMd departments))

/-- The assignment of a section the model chose a department for, or chose none. -/
def assigned (choice : Option Department) (baseline : Assignment) : Assignment :=
  match choice with
  | none => { baseline with departmentSuggestions := baseline.departmentSuggestions.take 3 }
  | some department =>
    let suggestions := baseline.departmentSuggestions
    { departmentIds := [department.id]
      departmentSuggestions :=
        ((suggestions.find? (·.departmentId = department.id)).getD
            (Suggestion.of (0, department)) ::
          suggestions.filter (·.departmentId ≠ department.id)).take 3
      proposedDepartment := none }

def routeDocumentCandidatesLlm (P : Python) (settings : Settings) (model : Model)
    (title markdown : Text) (departments : List Department) (useLlm : Bool) : List Candidate :=
  let sections := majorSections settings.autoSplit title markdown
  let outcome :=
    if useLlm then llmSectionDepartments settings model title sections departments
    else ⟨.off, []⟩
  finalize P title markdown departments
    (sections.mapIdx fun i s =>
      candidateOf s
        (assigned (outcome.assignments.lookup (i + 1))
          (suggestDepartments P s.title s.bodyMd departments)))

/-! ### What the candidates say -/

def linesOf (candidates : List Candidate) : List Text :=
  candidates.flatMap fun c => statedLines c.bodyMd

/-- The lines of sections, each without the white space its first opens with and its last ends
with. -/
def sectionLines (sections : List (List Text)) : List Text :=
  (sections.map (trimEnds Text.isSpace)).flatten

/-- The candidates hold sections, in their order: each of them a run. -/
def Holds (sections : List (List Text)) (candidates : List Candidate) : Prop :=
  ∃ runs : List (List (List Text)), runs.flatten = sections ∧
    candidates.map (fun c => exactLines c.bodyMd) = runs.map sectionLines

section Holds

variable {held more : List (List Text)} {merged candidates : List Candidate} {c item : Candidate}

theorem sectionLines_append (held more : List (List Text)) :
    sectionLines (held ++ more) = sectionLines held ++ sectionLines more := by
  rw [sectionLines, List.map_append, List.flatten_append]
  rfl

theorem holds_singleton : Holds held [c] ↔ exactLines c.bodyMd = sectionLines held := by
  constructor
  · rintro ⟨runs, rfl, hlines⟩
    obtain ⟨run, rest, rfl, hrun, hrest⟩ := List.map_eq_cons_iff.mp hlines.symm
    rw [List.map_eq_nil_iff.mp hrest, List.flatten_singleton, hrun]
  · exact fun h => ⟨[held], List.flatten_singleton, congrArg ([·]) h⟩

theorem Holds.append (h : Holds held merged) (h' : Holds more candidates) :
    Holds (held ++ more) (merged ++ candidates) := by
  obtain ⟨runs, rfl, hlines⟩ := h
  obtain ⟨runs', rfl, hlines'⟩ := h'
  exact ⟨runs ++ runs', List.flatten_append, by
    rw [List.map_append, List.map_append, hlines, hlines']⟩

theorem Holds.split (h : Holds held (merged ++ candidates)) :
    ∃ first second, held = first ++ second ∧ Holds first merged ∧ Holds second candidates := by
  obtain ⟨runs, rfl, hlines⟩ := h
  rw [List.map_append] at hlines
  obtain ⟨first, second, rfl, hfirst, hsecond⟩ := List.map_eq_append_iff.mp hlines.symm
  exact ⟨first.flatten, second.flatten, List.flatten_append, ⟨first, rfl, hfirst.symm⟩,
    second, rfl, hsecond.symm⟩

theorem Holds.followedBy (h : Holds held [c]) (h' : Holds more [item]) :
    Holds (held ++ more) [c.followedBy item] := by
  rw [holds_singleton] at h h' ⊢
  rw [sectionLines_append, ← h, ← h']
  exact exactLines_paragraphs _ _

theorem Holds.after (h : Holds held [c]) (h' : Holds more [item]) :
    Holds (held ++ more) [item.after c] := by
  rw [holds_singleton] at h h' ⊢
  rw [sectionLines_append, ← h, ← h']
  exact exactLines_paragraphs _ _

theorem Holds.modifyLast (h : Holds held merged) (hne : merged ≠ []) (h' : Holds more [item]) :
    Holds (held ++ more) (merged.modifyLast (·.followedBy item)) := by
  obtain ⟨init, last, rfl⟩ := (List.eq_nil_or_concat' merged).resolve_left hne
  obtain ⟨first, second, rfl, hinit, hlast⟩ := h.split
  rw [List.modifyLast_concat, List.append_assoc]
  exact hinit.append (hlast.followedBy h')

theorem Holds.lines (h : Holds held candidates) :
    linesOf candidates = held.flatten.map Text.strip := by
  obtain ⟨runs, rfl, hlines⟩ := h
  have hstated : linesOf candidates = (runs.map sectionLines).flatten.map Text.strip := by
    rw [← hlines, List.map_flatten, List.map_map]
    exact congrArg List.flatten (List.map_congr_left fun c _ => (exactLines_stated _).symm)
  have hrun : ∀ run, (sectionLines run).map Text.strip = run.flatten.map Text.strip := by
    intro run
    rw [sectionLines, List.map_flatten, List.map_flatten, List.map_map]
    exact congrArg List.flatten (List.map_congr_left fun g _ => Lines.map_trim_trimEnds g)
  rw [hstated, List.map_flatten, List.map_map, List.flatten_flatten, List.map_flatten,
    List.map_map]
  exact congrArg List.flatten (List.map_congr_left fun run _ => hrun run)

end Holds

theorem map_numbered {β : Type} {f : Candidate → β} (h : ∀ c n, f { c with position := n } = f c)
    (grouped : List Candidate) : (numbered grouped).map f = grouped.map f := by
  refine List.ext_getElem? fun i => ?_
  rw [numbered, List.getElem?_map, List.getElem?_map, List.getElem?_mapIdx, Option.map_map]
  exact congrArg (Option.map · grouped[i]?) (funext fun c => h c (i + 1))

def chatty : Model where
  configured := true
  complete _ _ _ := some "Sorry, no idea.".toList
  loads _ := none

def physicalDesign : Department := ⟨"phys".toList, "Physical Design".toList, []⟩

end QnscKb.Routing
