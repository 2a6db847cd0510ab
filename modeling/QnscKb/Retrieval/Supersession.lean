import QnscKb.Retrieval.TimeFocus

/-!
# Retrieval — Supersession

`with_supersession` and `apply_time_focus` (`src/domain/temporal.py`) as they may raise: the day
before the issue of a winner need not be in the calendar, whose first day is day 1.  What
`date.fromisoformat` reads is a parameter.
-/

namespace QnscKb.Retrieval

/-! ### The calendar -/

/-- `date.min.toordinal()`. -/
def DATE_MIN : Int := 1

/-- What of `structured_metadata` is read, as `str` has it: `"None"` for a date it does not give. -/
structure Metadata where
  issueDate : String
  expiryDate : String

/-- `_as_date`; a text that is no date is none. -/
def asDate (fromisoformat : String → Option Int) (value : String) : Option Int :=
  fromisoformat (String.ofList (value.toList.take 10))

/-- `parse_validity`; `none`: the metadata is no dictionary. -/
def parseValidity (fromisoformat : String → Option Int) : Option Metadata → Validity
  | none => {}
  | some metadata =>
    { issue := asDate fromisoformat metadata.issueDate
      expiry := asDate fromisoformat metadata.expiryDate }

/-- The rows that are read: the decisions, and the metadata of the articles there are. -/
structure Rows where
  decisions : List Decision
  metadata : String → Option (Option Metadata)

def Rows.dates (rows : Rows) (fromisoformat : String → Option Int) : Dates where
  decisions := rows.decisions
  validity id := (rows.metadata id).map (parseValidity fromisoformat)

/-- `with_supersession`; `none` is the `OverflowError` of a day before the calendar. -/
def withSupersessionOrRaise (validity : Validities) (decisions : List Decision) :
    Option Validities :=
  decisions.foldlM (fun out decision =>
    match (out.lookup decision.kept).bind Validity.issue with
    | some issue =>
      if issue - 1 < DATE_MIN then none
      else some (decision.articleIds.foldl (endValidity decision.kept (issue - 1)) out)
    | none => some out) validity

variable {σ : Type}

def presentOf (results : List (Passage σ)) : List String :=
  (results.map Passage.articleId).filter fun id => id != ""

def Dates.present (dates : Dates) (results : List (Passage σ)) : List Decision :=
  dates.decisions.filter fun decision => decision.articleIds.any fun id => id ∈ presentOf results

/-- The dates that are loaded: of the present articles and of the winners. -/
def Dates.loaded (dates : Dates) (results : List (Passage σ)) : Validities :=
  dates.load (presentOf results ++ (dates.present results).map Decision.kept)

/-- `apply_time_focus`, as it may raise; `dates` are none where they cannot be read. -/
def applyTimeFocusOrRaise (dates : Option Dates) (results : List (Passage σ)) (asOf : Option Int) :
    Option (List (Passage σ)) :=
  match dates, asOf with
  | some dates, some asOf =>
    if results.length < 2 then some results
    else do
      let validity ← withSupersessionOrRaise (dates.loaded results) (dates.present results)
      if validity.any fun entry => entry.2.issue.isSome || entry.2.expiry.isSome then
        some (rankByTime results asOf validity)
      else some results
  | _, _ => some results

/-! ### What ending a validity does -/

theorem lookup_entry (out : Validities) (id other : String) (validity : Validity) :
    List.lookup other ((id, validity) :: out) =
      if other = id then some validity else out.lookup other := by
  by_cases h : other = id
  · rw [h, List.lookup_cons_self, if_pos rfl]
  · rw [List.lookup_cons, beq_false_of_ne h, if_neg h]

theorem lookup_map_entry (out : Validities) (articleId other : String) (validity : Validity) :
    (out.map fun entry =>
        if entry.1 = articleId then (articleId, validity) else entry).lookup other =
      if other = articleId then (out.lookup articleId).map fun _ => validity
      else out.lookup other := by
  induction out with
  | nil => split <;> rfl
  | cons entry out ih =>
    obtain ⟨id, old⟩ := entry
    rw [List.map_cons, lookup_entry, lookup_entry]
    by_cases hid : id = articleId
    · subst hid
      rw [lookup_entry, ih]
      by_cases hother : other = id <;> simp [hother]
    · rw [if_neg hid, if_neg (Ne.symm hid), lookup_entry, ih]
      by_cases hother : other = articleId
      · rw [if_pos hother, if_pos hother, hother, if_neg (Ne.symm hid)]
      · rw [if_neg hother, if_neg hother]

theorem lookup_set (out : Validities) (articleId other : String) (validity : Validity) :
    (out.set articleId validity).lookup other =
      if other = articleId then some validity else out.lookup other := by
  rw [Validities.set]
  split
  · next hin =>
    rw [lookup_map_entry]
    obtain ⟨old, hold⟩ := Option.isSome_iff_exists.mp hin
    rw [hold, Option.map_some]
  · next hout =>
    rw [Bool.not_eq_true, Option.isSome_eq_false_iff, Option.isNone_iff_eq_none] at hout
    rw [List.lookup_append, lookup_entry]
    by_cases hother : other = articleId
    · rw [if_pos hother, if_pos hother, hother, hout, Option.none_or]
    · rw [if_neg hother, if_neg hother, List.lookup_nil, Option.or_none]

def Validities.of (out : Validities) (id : String) : Validity := (out.lookup id).getD {}

/-- An article does not expire before a day. -/
def Validities.lasts (out : Validities) (id : String) (day : Int) : Prop :=
  (out.of id).expiry.all (day ≤ ·) = true

/-- The validities are narrowed: no issue changes, and some articles end on some days or sooner. -/
structure Narrows (out next : Validities) (ends : String → Int → Prop) : Prop where
  issue : ∀ id, (next.lookup id).bind Validity.issue = (out.lookup id).bind Validity.issue
  lasts : ∀ id day, next.lasts id day ↔ out.lasts id day ∧ ∀ last, ends id last → day ≤ last
  known : ∀ id, (next.lookup id).isSome ↔ (out.lookup id).isSome ∨ ∃ last, ends id last

theorem Narrows.refl (out : Validities) : Narrows out out fun _ _ => False :=
  ⟨fun _ => rfl, fun _ _ => by simp, fun _ => by simp⟩

variable {out next validity : Validities} {ends : String → Int → Prop}

theorem Narrows.trans {middle : Validities} {ends' : String → Int → Prop}
    (h : Narrows out middle ends) (h' : Narrows middle next ends') :
    Narrows out next fun id last => ends id last ∨ ends' id last where
  issue id := (h'.issue id).trans (h.issue id)
  lasts id day := by
    rw [h'.lasts, h.lasts, and_assoc]
    refine and_congr_right fun _ => ?_
    rw [← forall_and]
    exact forall_congr' fun _ => or_imp.symm
  known id := by rw [h'.known, h.known, or_assoc, exists_or]

theorem Narrows.congr {ends' : String → Int → Prop} (h : Narrows out next ends)
    (hends : ∀ id last, ends id last ↔ ends' id last) : Narrows out next ends' := by
  have heq : ends = ends' := funext fun id => funext fun last => propext (hends id last)
  rwa [← heq]

theorem narrows_set {loser : String} {last : Int}
    (h : (out.of loser).expiry.all fun expiry => last < expiry) :
    Narrows out (out.set loser ⟨(out.of loser).issue, some last⟩) fun id day =>
      id = loser ∧ day = last where
  issue id := by
    rw [lookup_set]
    split
    · next hid =>
      rw [hid, Validities.of]
      cases out.lookup loser <;> rfl
    · rfl
  lasts id day := by
    rw [Validities.lasts, Validities.of, lookup_set]
    by_cases hid : id = loser
    · subst hid
      rw [if_pos rfl, Option.getD_some, Option.all_some, decide_eq_true_eq, Validities.lasts]
      refine ⟨fun hday => ⟨?_, fun last' hlast => hlast.2 ▸ hday⟩,
        fun hday => hday.2 last ⟨rfl, rfl⟩⟩
      rw [Option.all_eq_true] at h ⊢
      intro expiry hexpiry
      have hlater := of_decide_eq_true (h expiry hexpiry)
      exact decide_eq_true (hday.trans hlater.le)
    · rw [if_neg hid]
      exact (and_iff_left fun _ hlast => absurd hlast.1 hid).symm
  known id := by
    rw [lookup_set]
    by_cases hid : id = loser <;> simp [hid]

theorem narrows_endValidity (kept : String) (last : Int) (out : Validities) (loser : String) :
    Narrows out (endValidity kept last out loser) fun id day =>
      (id = loser ∧ id ≠ kept) ∧ day = last := by
  rw [endValidity]
  by_cases hkept : loser = kept
  · rw [if_pos hkept]
    exact (Narrows.refl out).congr fun id day =>
      iff_of_false not_false fun h => h.1.2 (h.1.1.trans hkept)
  rw [if_neg hkept]
  dsimp only
  split
  · next hlater =>
    refine (narrows_set hlater).congr fun id day => and_congr_left fun _ => ?_
    exact ⟨fun hid => ⟨hid, hid ▸ hkept⟩, And.left⟩
  · next hsooner =>
    -- it has expired by then
    obtain ⟨expiry, hexpiry, hle⟩ : ∃ expiry, (out.of loser).expiry = some expiry ∧
        expiry ≤ last := by
      cases hout : (out.of loser).expiry with
      | none =>
        rw [← Validities.of, hout] at hsooner
        exact absurd rfl hsooner
      | some expiry =>
        rw [← Validities.of, hout, Option.all_some, decide_eq_true_eq] at hsooner
        exact ⟨expiry, rfl, Int.not_lt.mp hsooner⟩
    have hknown : (out.lookup loser).isSome := by
      cases hout : out.lookup loser with
      | none =>
        rw [Validities.of, hout] at hexpiry
        cases hexpiry
      | some _ => rfl
    refine ⟨fun _ => rfl, fun id day => ⟨fun hlasts => ⟨hlasts, ?_⟩, And.left⟩,
      fun id => ⟨.inl, ?_⟩⟩
    · rintro last' ⟨⟨rfl, -⟩, rfl⟩
      rw [Validities.lasts, hexpiry, Option.all_some, decide_eq_true_eq] at hlasts
      exact hlasts.trans hle
    · rintro (hin | ⟨-, ⟨rfl, -⟩, -⟩)
      · exact hin
      · exact hknown

theorem narrows_losers (kept : String) (last : Int) (out : Validities) (articleIds : List String) :
    Narrows out (articleIds.foldl (endValidity kept last) out) fun id day =>
      (id ∈ articleIds ∧ id ≠ kept) ∧ day = last := by
  induction articleIds generalizing out with
  | nil => exact (Narrows.refl out).congr fun id day => by simp
  | cons loser articleIds ih =>
    refine ((narrows_endValidity kept last out loser).trans (ih _)).congr fun id day => ?_
    rw [List.mem_cons]
    tauto

/-- An article loses a decision to one that was issued the day after. -/
def EndsOn (validity : Validities) (decisions : List Decision) (id : String) (last : Int) : Prop :=
  ∃ decision ∈ decisions, (id ∈ decision.articleIds ∧ id ≠ decision.kept) ∧
    (validity.lookup decision.kept).bind Validity.issue = some (last + 1)

theorem withSupersession_concat (validity : Validities) (decisions : List Decision)
    (decision : Decision) : withSupersession validity (decisions ++ [decision]) =
      match ((withSupersession validity decisions).lookup decision.kept).bind Validity.issue with
      | some issue => decision.articleIds.foldl (endValidity decision.kept (issue - 1))
          (withSupersession validity decisions)
      | none => withSupersession validity decisions := by
  rw [withSupersession, List.foldl_append]
  rfl

/-- **What the decisions do**: each ends its losers the day before its winner's issue, whatever the
others did before it. -/
theorem narrows_withSupersession (validity : Validities) (decisions : List Decision) :
    Narrows validity (withSupersession validity decisions) (EndsOn validity decisions) := by
  induction decisions using List.reverseRecOn with
  | nil => exact (Narrows.refl validity).congr fun id last => by simp [EndsOn]
  | append_singleton decisions decision ih =>
    have hissue := ih.issue decision.kept
    have hends : ∀ id last, EndsOn validity (decisions ++ [decision]) id last ↔
        EndsOn validity decisions id last ∨ (id ∈ decision.articleIds ∧ id ≠ decision.kept) ∧
          (validity.lookup decision.kept).bind Validity.issue = some (last + 1) := fun id last => by
      simp [EndsOn, or_and_right, exists_or]
    rw [withSupersession_concat]
    cases hwinner : (validity.lookup decision.kept).bind Validity.issue with
    | none =>
      rw [hwinner] at hissue hends
      rw [hissue]
      exact ih.congr fun id last => by simp [hends]
    | some issue =>
      rw [hwinner] at hissue hends
      rw [hissue]
      refine (ih.trans (narrows_losers decision.kept (issue - 1) _ decision.articleIds)).congr
        fun id last => ?_
      rw [hends, Option.some_inj]
      refine or_congr_right (and_congr_right fun _ => ?_)
      omega

theorem expiry_ext {a b : Option Int}
    (h : ∀ day, a.all (fun last => decide (day ≤ last)) = true ↔
      b.all (fun last => decide (day ≤ last)) = true) : a = b := by
  cases a with
  | none =>
    cases b with
    | none => rfl
    | some last =>
      have hday := (h (last + 1)).mp rfl
      rw [Option.all_some, decide_eq_true_eq] at hday
      omega
  | some last =>
    cases b with
    | none =>
      have hday := (h (last + 1)).mpr rfl
      rw [Option.all_some, decide_eq_true_eq] at hday
      omega
    | some last' =>
      have hle := (h last).mp (by simp)
      have hge := (h last').mpr (by simp)
      rw [Option.all_some, decide_eq_true_eq] at hle hge
      rw [le_antisymm hle hge]

theorem Narrows.lookup_eq {next' : Validities} (h : Narrows out next ends)
    (h' : Narrows out next' ends) (id : String) : next.lookup id = next'.lookup id := by
  have hknown := (h.known id).trans (h'.known id).symm
  have hissue := (h.issue id).trans (h'.issue id).symm
  have hlasts : ∀ day, next.lasts id day ↔ next'.lasts id day := fun day =>
    (h.lasts id day).trans (h'.lasts id day).symm
  simp only [Validities.lasts, Validities.of] at hlasts
  cases hnext : next.lookup id with
  | none =>
    rw [hnext] at hknown
    exact (Option.not_isSome_iff_eq_none.mp fun hsome => by cases hknown.mpr hsome).symm
  | some validity =>
    obtain ⟨validity', hnext'⟩ := Option.isSome_iff_exists.mp (hknown.mp (by rw [hnext]; rfl))
    rw [hnext, hnext'] at hissue hlasts
    rw [hnext', Option.some_inj]
    exact congrArg₂ Validity.mk hissue (expiry_ext hlasts)

variable {decisions : List Decision}

/-- **The order and the repetition of the decisions do not matter.** -/
theorem withSupersession_congr (validity : Validities) {decisions' : List Decision}
    (h : ∀ decision, decision ∈ decisions ↔ decision ∈ decisions') (id : String) :
    (withSupersession validity decisions).lookup id =
      (withSupersession validity decisions').lookup id := by
  refine (narrows_withSupersession validity decisions).lookup_eq
    ((narrows_withSupersession validity decisions').congr fun id last => ?_) id
  exact exists_congr fun decision => and_congr_left fun _ => (h decision).symm

variable {asOf : Int}

theorem bucket_inForce_iff {validity : Validity} : bucket validity asOf = .inForce ↔
    (∃ issue, validity.issue = some issue ∧ issue ≤ asOf) ∧
      validity.expiry.all (fun last => decide (asOf ≤ last)) = true := by
  obtain ⟨issue, expiry⟩ := validity
  rw [bucket]
  cases issue with
  | none =>
    cases expiry with
    | none => simp
    | some expiry => by_cases hexpiry : expiry < asOf <;> simp [hexpiry]
  | some issue =>
    cases expiry with
    | none => simp
    | some expiry =>
      by_cases hissue : asOf < issue
      · simp [hissue]
      · by_cases hexpiry : expiry < asOf
        · simp [hissue, hexpiry]
        · simp [hissue, hexpiry, Int.not_lt.mp hissue, Int.not_lt.mp hexpiry]

/-- **Nothing comes into force.** -/
theorem inForce_of_withSupersession {id : String}
    (h : bucket ((withSupersession validity decisions).of id) asOf = .inForce) :
    bucket (validity.of id) asOf = .inForce := by
  have hnarrows := narrows_withSupersession validity decisions
  rw [bucket_inForce_iff] at h ⊢
  have hlasts := ((hnarrows.lasts id asOf).mp h.2).1
  have hissue : ((withSupersession validity decisions).of id).issue = (validity.of id).issue := by
    have heq := hnarrows.issue id
    rw [Validities.of, Validities.of]
    cases hnew : (withSupersession validity decisions).lookup id <;>
      cases hold : validity.lookup id <;> rw [hnew, hold] at heq <;> exact heq
  exact ⟨hissue ▸ h.1, hlasts⟩

/-! ### The calendar's first day -/

/-- A decision whose winner has no day before its issue. -/
def FirstDay (validity : Validities) (decisions : List Decision) : Prop :=
  ∃ decision ∈ decisions, ∃ issue,
    (validity.lookup decision.kept).bind Validity.issue = some issue ∧ issue - 1 < DATE_MIN

theorem withSupersessionOrRaise_concat (validity : Validities) (decisions : List Decision)
    (decision : Decision) : withSupersessionOrRaise validity (decisions ++ [decision]) =
      (withSupersessionOrRaise validity decisions).bind fun out =>
        match (out.lookup decision.kept).bind Validity.issue with
        | some issue =>
          if issue - 1 < DATE_MIN then none
          else some (decision.articleIds.foldl (endValidity decision.kept (issue - 1)) out)
        | none => some out := by
  rw [withSupersessionOrRaise, List.foldlM_append]
  refine congrArg (Option.bind _) (funext fun out => ?_)
  exact bind_pure _

theorem withSupersessionOrRaise_some (h : ¬FirstDay validity decisions) :
    withSupersessionOrRaise validity decisions = some (withSupersession validity decisions) := by
  induction decisions using List.reverseRecOn with
  | nil => rfl
  | append_singleton decisions decision ih =>
    have hissue := (narrows_withSupersession validity decisions).issue decision.kept
    have hbefore : ¬FirstDay validity decisions := fun ⟨other, hother, hfirst⟩ =>
      h ⟨other, List.mem_append_left _ hother, hfirst⟩
    rw [withSupersessionOrRaise_concat, ih hbefore, Option.bind_some, withSupersession_concat,
      hissue]
    cases hwinner : (validity.lookup decision.kept).bind Validity.issue with
    | none => rfl
    | some issue =>
      exact if_neg fun hfirst => h ⟨decision, by simp, issue, hwinner, hfirst⟩

/-- **A winner of the first day raises**, whatever comes before it. -/
theorem withSupersessionOrRaise_none (h : FirstDay validity decisions) :
    withSupersessionOrRaise validity decisions = none := by
  induction decisions using List.reverseRecOn with
  | nil =>
    obtain ⟨decision, hin, -⟩ := h
    cases hin
  | append_singleton decisions decision ih =>
    rw [withSupersessionOrRaise_concat]
    by_cases hbefore : FirstDay validity decisions
    · rw [ih hbefore, Option.bind_none]
    · obtain ⟨other, hother, issue, hwinner, hfirst⟩ := h
      rcases List.mem_append.mp hother with hother | hother
      · exact absurd ⟨other, hother, issue, hwinner, hfirst⟩ hbefore
      · have hissue := (narrows_withSupersession validity decisions).issue decision.kept
        rw [List.mem_singleton.mp hother] at hwinner
        rw [withSupersessionOrRaise_some hbefore, Option.bind_some, hissue, hwinner]
        exact if_pos hfirst

/-! ### The reordering -/

/-- The results with those of one bucket in their order, and the buckets in theirs. -/
structure Focused (results : List (Passage σ)) (asOf : Int) (validity : Validities)
    (ranked : List (Passage σ)) : Prop where
  perm : ranked.Perm results
  stable : ∀ k, (ranked.filter fun item => decide (bucket (validity.of item.articleId) asOf = k)) =
    results.filter fun item => decide (bucket (validity.of item.articleId) asOf = k)
  ordered : ranked.Pairwise fun a b => (bucket (validity.of a.articleId) asOf).rank ≤
    (bucket (validity.of b.articleId) asOf).rank

theorem Bucket.rank_inj {a b : Bucket} : a.rank = b.rank ↔ a = b := by
  cases a <;> cases b <;> decide

theorem focused_rankByTime (results : List (Passage σ)) (asOf : Int) (validity : Validities) :
    Focused results asOf validity (rankByTime results asOf validity) where
  perm := rankByTime_perm results asOf validity
  stable k := by
    -- the least rank first is the greatest first of the order turned round
    have hstable := filter_insertionSort (σ := Natᵒᵈ)
      (f := fun item : Passage σ =>
        OrderDual.toDual (bucket (validity.of item.articleId) asOf).rank)
      results (OrderDual.toDual k.rank)
    simp only [OrderDual.toDual_inj, OrderDual.toDual_le_toDual, Bucket.rank_inj] at hstable
    rw [rankByTime]
    convert hstable <;> rfl
  ordered := List.pairwise_insertionSort _ results

variable {results : List (Passage σ)}

theorem focused_undated
    (h : ¬validity.any fun entry => entry.2.issue.isSome || entry.2.expiry.isSome) :
    Focused results asOf validity results := by
  have hundated : ∀ id, bucket (validity.of id) asOf = .undated := by
    intro id
    rw [Validities.of]
    cases hid : validity.lookup id with
    | none => rfl
    | some dates =>
      obtain ⟨before, after, heq, -⟩ := List.lookup_eq_some_iff.mp hid
      have hin : (id, dates) ∈ validity := heq ▸ List.mem_append_right _ List.mem_cons_self
      have hnone : ¬(dates.issue.isSome || dates.expiry.isSome) := fun hsome =>
        h (List.any_eq_true.mpr ⟨(id, dates), hin, hsome⟩)
      rw [Bool.or_eq_true, not_or, Option.not_isSome_iff_eq_none,
        Option.not_isSome_iff_eq_none] at hnone
      rw [Option.getD_some, bucket, if_pos hnone]
  refine ⟨.refl _, fun k => rfl, List.pairwise_of_forall fun a b => ?_⟩
  rw [hundated, hundated]

theorem focused_short (h : results.length < 2) (asOf : Int) (validity : Validities) :
    Focused results asOf validity results := by
  refine ⟨.refl _, fun k => rfl, ?_⟩
  match results, h with
  | [], _ => exact .nil
  | [a], _ => exact List.pairwise_singleton _ a

def Dates.focus (dates : Dates) (results : List (Passage σ)) : Validities :=
  withSupersession (dates.loaded results) (dates.present results)

theorem applyTimeFocusOrRaise_eq {dates : Dates}
    (h : 2 ≤ results.length → ¬FirstDay (dates.loaded results) (dates.present results)) :
    applyTimeFocusOrRaise (some dates) results (some asOf) =
      some (applyTimeFocus (some dates) results (some asOf)) := by
  rw [applyTimeFocusOrRaise, applyTimeFocus]
  split
  · rfl
  · next hmany =>
    rw [withSupersessionOrRaise_some (h (Nat.not_lt.mp hmany)), Option.bind_eq_bind,
      Option.bind_some, Dates.loaded, Dates.present, presentOf]
    dsimp only
    split <;> rfl

theorem focused_applyTimeFocus (dates : Dates) (results : List (Passage σ)) (asOf : Int) :
    Focused results asOf (dates.focus results)
      (applyTimeFocus (some dates) results (some asOf)) := by
  rw [applyTimeFocus]
  split
  · next hfew => exact focused_short hfew asOf _
  · dsimp only
    split
    · exact focused_rankByTime results asOf _
    · next hnone => exact focused_undated hnone

/-- The reordering raises nothing, drops nothing, and puts no article out of force before one in
force. -/
def Safe (dates : Dates) (results : List (Passage σ)) (asOf : Int) : Prop :=
  ∃ ranked, applyTimeFocusOrRaise (some dates) results (some asOf) = some ranked ∧
    Focused results asOf (dates.focus results) ranked

/-- Some present decision's winner was issued on the first day of the calendar. -/
def WinnerOfFirstDay (dates : Dates) (results : List (Passage σ)) : Prop :=
  2 ≤ results.length ∧ ∃ decision ∈ dates.present results, ∃ issue,
    (dates.validity decision.kept).bind Validity.issue = some issue ∧ issue - 1 < DATE_MIN

theorem lookup_load (dates : Dates) {ids : List String} {id : String} (h : id ∈ ids) :
    (dates.load ids).lookup id = dates.validity id := by
  rw [Dates.load]
  cases hfound : (ids.dedup.filterMap fun id => (dates.validity id).map (id, ·)).lookup id with
  | none =>
    -- a row that exists is loaded
    rw [List.lookup_eq_none_iff] at hfound
    cases hrow : dates.validity id with
    | none => rfl
    | some validity =>
      have hloaded := hfound (id, validity)
        (List.mem_filterMap.mpr ⟨id, List.mem_dedup.mpr h, by rw [hrow]; rfl⟩)
      exact absurd hloaded (by simp)
  | some validity =>
    obtain ⟨before, after, heq, -⟩ := List.lookup_eq_some_iff.mp hfound
    have hentry : (id, validity) ∈ ids.dedup.filterMap fun id => (dates.validity id).map (id, ·) :=
      heq ▸ List.mem_append_right _ List.mem_cons_self
    obtain ⟨other, -, hother⟩ := List.mem_filterMap.mp hentry
    obtain ⟨row, hrow, hpair⟩ := Option.map_eq_some_iff.mp hother
    obtain ⟨rfl, rfl⟩ := Prod.mk.inj hpair
    exact hrow.symm

theorem winnerOfFirstDay_iff {dates : Dates} :
    WinnerOfFirstDay dates results ↔
      2 ≤ results.length ∧ FirstDay (dates.loaded results) (dates.present results) := by
  refine and_congr_right fun _ => exists_congr fun decision => and_congr_right fun hdecision => ?_
  rw [Dates.loaded, lookup_load dates (List.mem_append_right _ (List.mem_map_of_mem hdecision))]

theorem safe_iff (dates : Dates) (results : List (Passage σ)) (asOf : Int) :
    Safe dates results asOf ↔ ¬WinnerOfFirstDay dates results := by
  rw [winnerOfFirstDay_iff]
  constructor
  · rintro ⟨ranked, hranked, -⟩ ⟨hmany, hfirst⟩
    rw [applyTimeFocusOrRaise, if_neg (Nat.not_lt.mpr hmany),
      withSupersessionOrRaise_none hfirst] at hranked
    cases hranked
  · intro h
    exact ⟨_, applyTimeFocusOrRaise_eq fun hmany hfirst => h ⟨hmany, hfirst⟩,
      focused_applyTimeFocus dates results asOf⟩

/-- **When time focus is a safe reordering.**  It is one unless a present decision's winner was
issued on the first day of the calendar, and then it raises.  The validities never depend on the
order or the repetition of the decisions, and no article comes into force by them. -/
theorem focus_safe_iff (fromisoformat : String → Option Int) :
    (∀ (rows : Rows) (results : List (Passage σ)) (asOf : Int),
      Safe (rows.dates fromisoformat) results asOf ↔
        ¬WinnerOfFirstDay (rows.dates fromisoformat) results) ∧
    (∀ (validity : Validities) (decisions decisions' : List Decision),
      (∀ decision, decision ∈ decisions ↔ decision ∈ decisions') →
        (withSupersessionOrRaise validity decisions).map (fun out id => out.lookup id) =
          (withSupersessionOrRaise validity decisions').map fun out id => out.lookup id) ∧
    ∀ (validity out : Validities) (decisions : List Decision) (id : String) (day : Int),
      withSupersessionOrRaise validity decisions = some out → bucket (out.of id) day = .inForce →
        bucket (validity.of id) day = .inForce := by
  refine ⟨fun rows results asOf => safe_iff _ results asOf,
    fun validity decisions decisions' h => ?_, fun validity out decisions id day hout => ?_⟩
  · have hfirst : FirstDay validity decisions ↔ FirstDay validity decisions' :=
      exists_congr fun decision => and_congr_left fun _ => h decision
    by_cases hraises : FirstDay validity decisions
    · rw [withSupersessionOrRaise_none hraises, withSupersessionOrRaise_none (hfirst.mp hraises)]
    · rw [withSupersessionOrRaise_some hraises,
        withSupersessionOrRaise_some (hfirst.not.mp hraises), Option.map_some, Option.map_some]
      exact congrArg some (funext (withSupersession_congr validity h))
  · by_cases hraises : FirstDay validity decisions
    · rw [withSupersessionOrRaise_none hraises] at hout
      cases hout
    · rw [withSupersessionOrRaise_some hraises] at hout
      rw [← Option.some.inj hout]
      exact inForce_of_withSupersession

def firstDays (value : String) : Option Int :=
  if value = "0001-01-01" then some 1 else if value = "0001-01-10" then some 10 else none

/-- A loser that was issued on day 2 is in force until the winner's issue on day 10. -/
theorem inForce_before_winner :
    bucket (Validities.of [("a", ⟨some 10, none⟩), ("b", ⟨some 2, none⟩)] "b") 5 = .inForce :=
  (focus_safe_iff (σ := Nat) firstDays).2.2 [("a", ⟨some 10, none⟩), ("b", ⟨some 2, none⟩)]
    [("a", ⟨some 10, none⟩), ("b", ⟨some 2, some 9⟩)] [⟨["a", "b"], "a"⟩] "b" 5
    (by decide +kernel) (by decide +kernel)

def firstDayRows : Rows where
  decisions := [⟨["a", "b"], "a"⟩]
  metadata _ := some (some ⟨"0001-01-01", "None"⟩)

def twoPassages : List (Passage Nat) := [⟨"1", "a", none⟩, ⟨"2", "b", some 3⟩]

/-- A winner of the first day: there is no day before it, and the reordering raises. -/
theorem first_day_raises :
    applyTimeFocusOrRaise (some (firstDayRows.dates firstDays)) twoPassages (some 700000) = none ∧
      ¬Safe (firstDayRows.dates firstDays) twoPassages 700000 := by
  have hraises : applyTimeFocusOrRaise (some (firstDayRows.dates firstDays)) twoPassages
      (some 700000) = none := by
    decide +kernel
  refine ⟨hraises, ?_⟩
  rintro ⟨ranked, hranked, -⟩
  cases hranked

end QnscKb.Retrieval
