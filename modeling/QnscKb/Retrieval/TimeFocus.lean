import QnscKb.Retrieval.Merge

/-!
# Retrieval — TimeFocus

`apply_time_focus` (`src/domain/temporal.py`): the passages of the articles in force on a date come
first.  A date is its day number.
-/

namespace QnscKb.Retrieval

/-- When an article is in force. -/
structure Validity where
  issue : Option Int := none
  expiry : Option Int := none
  deriving DecidableEq

inductive Bucket where
  | inForce
  | undated
  | outOfForce
  deriving DecidableEq

def Bucket.rank : Bucket → Nat
  | .inForce => 0
  | .undated => 1
  | .outOfForce => 2

def bucket (validity : Validity) (asOf : Int) : Bucket :=
  if validity.issue = none ∧ validity.expiry = none then .undated
  else if validity.issue.any fun issue => asOf < issue then .outOfForce
  else if validity.expiry.any fun expiry => expiry < asOf then .outOfForce
  -- with only an expiry date there is no proof it had been issued yet
  else if validity.issue.isSome then .inForce else .undated

/-- A dictionary of validities, an article at most once. -/
abbrev Validities := List (String × Validity)

def Validities.set (out : Validities) (articleId : String) (validity : Validity) : Validities :=
  if (out.lookup articleId).isSome then
    out.map fun entry => if entry.1 = articleId then (articleId, validity) else entry
  else out ++ [(articleId, validity)]

/-- A reviewer's decision: the articles in conflict, and the one that was kept. -/
structure Decision where
  articleIds : List String
  kept : String

/-- The loser's part of `with_supersession`. -/
def endValidity (kept : String) (last : Int) (out : Validities) (articleId : String) : Validities :=
  if articleId = kept then out
  else
    let current := (out.lookup articleId).getD {}
    if current.expiry.all fun expiry => last < expiry then
      out.set articleId ⟨current.issue, some last⟩
    else out

def withSupersession (validity : Validities) (decisions : List Decision) : Validities :=
  decisions.foldl (fun out decision =>
    match (out.lookup decision.kept).bind Validity.issue with
    | some issue => decision.articleIds.foldl (endValidity decision.kept (issue - 1)) out
    | none => out) validity

/-- What the database holds for it; `none` where reading it fails. -/
structure Dates where
  decisions : List Decision
  validity : String → Option Validity

/-- `load_validity`. -/
def Dates.load (dates : Dates) (articleIds : List String) : Validities :=
  articleIds.dedup.filterMap fun id => (dates.validity id).map (id, ·)

variable {σ : Type}

/-- `rank_by_time`: a stable partition. -/
def rankByTime (results : List (Passage σ)) (asOf : Int) (validity : Validities) :
    List (Passage σ) :=
  results.insertionSort fun a b =>
    (bucket ((validity.lookup a.articleId).getD {}) asOf).rank ≤
      (bucket ((validity.lookup b.articleId).getD {}) asOf).rank

def applyTimeFocus (dates : Option Dates) (results : List (Passage σ)) (asOf : Option Int) :
    List (Passage σ) :=
  match dates, asOf with
  | some dates, some asOf =>
    if results.length < 2 then results
    else
      let present := (results.map Passage.articleId).filter fun id => id != ""
      let decisions := dates.decisions.filter fun decision =>
        decision.articleIds.any fun id => id ∈ present
      let validity := withSupersession
        (dates.load (present ++ decisions.map Decision.kept)) decisions
      if validity.any fun entry => entry.2.issue.isSome || entry.2.expiry.isSome then
        rankByTime results asOf validity
      else results
  | _, _ => results

theorem rankByTime_perm (results : List (Passage σ)) (asOf : Int) (validity : Validities) :
    (rankByTime results asOf validity).Perm results :=
  List.perm_insertionSort _ _

/-- Nothing is dropped. -/
theorem applyTimeFocus_perm (dates : Option Dates) (results : List (Passage σ))
    (asOf : Option Int) : (applyTimeFocus dates results asOf).Perm results := by
  cases dates with
  | none => exact .refl _
  | some dates =>
    cases asOf with
    | none => exact .refl _
    | some asOf =>
      dsimp only [applyTimeFocus]
      split_ifs
      · exact .refl _
      · exact rankByTime_perm results asOf _
      · exact .refl _

end QnscKb.Retrieval
