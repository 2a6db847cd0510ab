import QnscKb.Lib.Sinks
import QnscKb.Retrieval.TimeFocus

/-!
# Retrieval — Superseded

The articles an answer must not quote because a reviewer decided against them
(`src/domain/conflict_decisions.py`).  A decision counts where the article it keeps is present, and
whether that one is itself dropped is not asked.
-/

namespace QnscKb.Retrieval

open Sinks (Sink Knot)

def supersededBy (present : List String) (decision : Decision) : List String :=
  if present.contains decision.kept then
    decision.articleIds.filter fun id => id != decision.kept && present.contains id
  else []

def supersededArticleIds (decisions : List Decision) (present : List String) : List String :=
  decisions.foldl (fun dropped decision => dropped ++ supersededBy present decision) []

/-- What of a retrieved passage is read here: its article, where it has one. -/
structure Item where
  articleId : Option String
  deriving DecidableEq

def Item.key (item : Item) : String := item.articleId.getD "None"

def dropSuperseded (results : List Item) (dropped : List String) : List Item :=
  if dropped.isEmpty then results else results.filter fun item => !dropped.contains item.key

def presentIn (results : List Item) : List String :=
  (results.filterMap Item.articleId).filter (· != "")

/-- `apply_conflict_decisions`; `none`: the decisions cannot be read. -/
def applyConflictDecisions (decisions : Option (List Decision)) (results : List Item) : List Item :=
  let present := presentIn results
  if present.dedup.length < 2 then results
  else
    match decisions with
    | none => results
    | some decisions => dropSuperseded results (supersededArticleIds decisions present)

/-! ### Losing -/

/-- A decision keeps one present article against another. -/
def Loses (decisions : List Decision) (present : List String) (loser winner : String) : Prop :=
  ∃ decision ∈ decisions, decision.kept = winner ∧ winner ∈ present ∧
    loser ∈ decision.articleIds ∧ loser ≠ winner ∧ loser ∈ present

variable {decisions : List Decision} {present : List String}

variable {id : String}

theorem mem_supersededBy {decision : Decision} :
    id ∈ supersededBy present decision ↔ decision.kept ∈ present ∧ id ∈ decision.articleIds ∧
      id ≠ decision.kept ∧ id ∈ present := by
  rw [supersededBy]
  split
  · next hkept => simp [List.mem_filter, List.contains_iff_mem.mp hkept]
  · next hkept =>
    rw [List.contains_iff_mem] at hkept
    simp [hkept]

theorem superseded_eq (decisions : List Decision) (present : List String) :
    supersededArticleIds decisions present = decisions.flatMap (supersededBy present) := by
  induction decisions using List.reverseRecOn with
  | nil => rfl
  | append_singleton decisions decision ih =>
    rw [supersededArticleIds, List.foldl_append, List.foldl_cons, List.foldl_nil,
      ← supersededArticleIds, ih, List.flatMap_append, List.flatMap_singleton]

/-- **An article is dropped when it loses to a present one.** -/
theorem mem_superseded_iff :
    id ∈ supersededArticleIds decisions present ↔ ∃ winner, Loses decisions present id winner := by
  rw [superseded_eq, List.mem_flatMap]
  constructor
  · rintro ⟨decision, hdecision, hid⟩
    obtain ⟨hkept, hin, hne, hpresent⟩ := mem_supersededBy.mp hid
    exact ⟨decision.kept, decision, hdecision, rfl, hkept, hin, hne, hpresent⟩
  · rintro ⟨winner, decision, hdecision, rfl, hkept, hin, hne, hpresent⟩
    exact ⟨decision, hdecision, mem_supersededBy.mpr ⟨hkept, hin, hne, hpresent⟩⟩

theorem not_mem_superseded_iff :
    id ∉ supersededArticleIds decisions present ↔ Sink (Loses decisions present) id := by
  rw [mem_superseded_iff, not_exists]
  rfl

theorem Loses.winner_present {loser winner : String} (h : Loses decisions present loser winner) :
    winner ∈ present := by
  obtain ⟨-, -, -, hwinner, -⟩ := h
  exact hwinner

theorem winner_present {loser winner : String}
    (h : Relation.TransGen (Loses decisions present) loser winner) : winner ∈ present := by
  cases h with
  | single hstep => exact hstep.winner_present
  | tail _ hstep => exact hstep.winner_present

/-! ### What the decisions should leave -/

/-- Each dropped article is superseded, over some decisions, by a present one that stays. -/
def EachSuperseded (decisions : List Decision) (present : List String) : Prop :=
  ∀ id ∈ supersededArticleIds decisions present, ∃ winner ∈ present,
    winner ∉ supersededArticleIds decisions present ∧
      Relation.TransGen (Loses decisions present) id winner

/-- Something is left of every context these articles are present in. -/
def SomethingLeft (decisions : List Decision) (present : List String) : Prop :=
  ∀ results, presentIn results = present → results ≠ [] →
    dropSuperseded results (supersededArticleIds decisions present) ≠ [] ∧
      applyConflictDecisions (some decisions) results ≠ []

theorem eachSuperseded_iff : EachSuperseded decisions present ↔
    ¬∃ articles, Knot (Loses decisions present) articles := by
  rw [← Sinks.reaches_sink_iff]
  constructor
  · intro h id hloses
    obtain ⟨winner, -, hstays, hwalk⟩ := h id (mem_superseded_iff.mpr hloses)
    exact ⟨winner, hwalk, not_mem_superseded_iff.mp hstays⟩
  · intro h id hid
    obtain ⟨winner, hwalk, hsink⟩ := h id (mem_superseded_iff.mp hid)
    exact ⟨winner, winner_present hwalk, not_mem_superseded_iff.mpr hsink, hwalk⟩

theorem mem_presentIn {results : List Item} (h : id ∈ presentIn results) :
    ∃ item ∈ results, item.key = id := by
  obtain ⟨item, hitem, harticle⟩ := List.mem_filterMap.mp (List.mem_filter.mp h).1
  exact ⟨item, hitem, by rw [Item.key, harticle]; rfl⟩

theorem EachSuperseded.left (h : EachSuperseded decisions present) :
    SomethingLeft decisions present := by
  intro results hpresent hsome
  have hdrop : dropSuperseded results (supersededArticleIds decisions present) ≠ [] := by
    rw [dropSuperseded]
    split
    · exact hsome
    · next hdropped =>
      rw [List.isEmpty_iff] at hdropped
      obtain ⟨id, hid⟩ := List.exists_mem_of_ne_nil _ hdropped
      obtain ⟨winner, hwinner, hstays, -⟩ := h id hid
      obtain ⟨item, hitem, hkey⟩ := mem_presentIn (hpresent.symm ▸ hwinner)
      refine List.ne_nil_of_mem (List.mem_filter.mpr ⟨hitem, ?_⟩)
      rw [hkey, Bool.not_eq_true', ← Bool.not_eq_true, List.contains_iff_mem]
      exact hstays
  refine ⟨hdrop, ?_⟩
  rw [applyConflictDecisions]
  split
  · exact hsome
  · rw [hpresent]
    exact hdrop

/-- **When the decisions leave a side.**  Each dropped article is superseded by a present one that
stays, and something is left of every context, exactly when there are no present articles all of
which lose, and to each other alone. -/
theorem superseded_sound_iff (decisions : List Decision) (present : List String) :
    (EachSuperseded decisions present ∧ SomethingLeft decisions present) ↔
      ¬∃ articles, Knot (Loses decisions present) articles := by
  rw [← eachSuperseded_iff]
  exact ⟨And.left, fun h => ⟨h, h.left⟩⟩

/-- Two decisions on one pair, the other way round: both are dropped, and nothing is left. -/
theorem both_sides_dropped :
    ¬EachSuperseded [⟨["a", "b"], "a"⟩, ⟨["a", "b"], "b"⟩] ["a", "b"] ∧
      applyConflictDecisions (some [⟨["a", "b"], "a"⟩, ⟨["a", "b"], "b"⟩])
        [⟨some "a"⟩, ⟨some "b"⟩] = [] := by
  refine ⟨fun h => ?_, by decide +kernel⟩
  obtain ⟨winner, hpresent, hstays, -⟩ := h "a" (by decide +kernel)
  have hall : ∀ id ∈ ["a", "b"], id ∈ supersededArticleIds
      [⟨["a", "b"], "a"⟩, ⟨["a", "b"], "b"⟩] ["a", "b"] := by decide +kernel
  exact hstays (hall winner hpresent)

end QnscKb.Retrieval
