import QnscKb.Lessons.Model

/-!
# Lessons — Decision

Whether a lesson that is to be merged into an earlier one can be (`decide_lesson` and
`update_lesson`, `src/domain/lessons.py`).  The decision leaves room for 40 characters besides the
two texts and the change adds 24, so what it has checked fits; it does not check where no model
answered, and checks an empty text where the lesson could not be read.
-/

namespace QnscKb.Lessons

open Ask (Json Fields Python)

variable (P : Python) (model : Model) (k : Knowledge)

/-! ### The change -/

theorem length_appended (today : Day) (old lesson : Text) (context : Option Text) :
    (appended today old lesson context).length =
      (Text.rstrip old).length + (lessonBody lesson context).length + 24 := by
  have hstamp : today.stamp.length = 10 := rfl
  have hheading : "\n\n## Update ".toList.length = 12 := by decide +kernel
  have hgap : "\n\n".toList.length = 2 := by decide +kernel
  simp only [appended, List.length_append]
  omega

theorem lesson_within (lesson : Text) (context : Option Text) :
    Text.strip lesson <:+: lessonBody lesson context := by
  unfold lessonBody
  generalize "## Lesson\n\n".toList = heading
  exact List.infix_append _ _ _

theorem context_within (lesson c : Text) : Text.strip c <:+: lessonBody lesson (some c) := by
  unfold lessonBody
  generalize "## Lesson\n\n".toList = heading
  generalize "\n\n## Context\n\n".toList = between
  dsimp only [Option.getD_some]
  split_ifs with hempty
  · rw [List.isEmpty_iff.mp hempty]
    exact List.nil_infix
  · exact (List.suffix_append_of_suffix (List.suffix_append _ _)).isInfix

/-- **Appending loses nothing** but the white space around a text. -/
theorem appended_holds (today : Day) (old lesson : Text) (context : Option Text) :
    Text.rstrip old <+: appended today old lesson context ∧
      Text.strip lesson <:+: appended today old lesson context ∧
        ∀ c, context = some c → Text.strip c <:+: appended today old lesson context := by
  have hlesson : lessonBody lesson context <:+: appended today old lesson context := by
    rw [appended]
    generalize "\n\n".toList = gap
    exact (List.suffix_append _ _).isInfix
  refine ⟨?_, (lesson_within lesson context).trans hlesson, ?_⟩
  · rw [appended, List.append_assoc, List.append_assoc, List.append_assoc]
    generalize "\n\n## Update ".toList = heading
    exact List.prefix_append _ _
  · rintro c rfl
    exact (context_within lesson c).trans hlesson

section Update

variable {today : Day} {mayWrite withinQuota : Bool} {a new : Article} {lesson : Text}
  {context merged : Option Text}

theorem updateLesson_current (h : a.current = true) :
    updateLesson today true true (some a) merged lesson context =
      if LESSON_BODY_LIMIT < (Text.orElse merged (appended today a.bodyMd lesson context)).length then
        .error .tooLong
      else .ok { a with
        bodyMd := Text.orElse merged (appended today a.bodyMd lesson context)
        version := a.version + 1
        indexStatus := "pending".toList } := by
  rw [updateLesson, Option.filter_some, if_pos h]
  rfl

theorem updateLesson_checked (h : a.current = true) :
    updateLesson today mayWrite withinQuota (some a) merged lesson context =
      if !mayWrite then .error .forbidden
      else if !withinQuota then .error .quota
      else updateLesson today true true (some a) merged lesson context := by
  rw [updateLesson, updateLesson, Option.filter_some, if_pos h]
  rfl

theorem updateLesson_other (h : a.current = false) :
    updateLesson today mayWrite withinQuota (some a) merged lesson context = .error .notFound := by
  rw [updateLesson, Option.filter_some, if_neg (by simp [h])]

theorem updateLesson_tooLong_iff :
    updateLesson today true true (some a) none lesson context = .error .tooLong ↔
      a.current = true ∧ LESSON_BODY_LIMIT <
        (Text.rstrip a.bodyMd).length + (lessonBody lesson context).length + 24 := by
  rw [← length_appended today]
  cases hcurrent : a.current with
  | false =>
    rw [updateLesson_other hcurrent]
    exact iff_of_false (fun h => by cases h) fun h => by cases h.1
  | true =>
    rw [updateLesson_current hcurrent]
    split_ifs with hlong
    · exact iff_of_true rfl ⟨rfl, hlong⟩
    · exact iff_of_false (fun h => by cases h) fun h => hlong h.2

theorem updateLesson_ok
    (h : updateLesson today mayWrite withinQuota (some a) merged lesson context = .ok new) :
    new.bodyMd = Text.orElse merged (appended today a.bodyMd lesson context) := by
  cases hcurrent : a.current with
  | false => rw [updateLesson_other hcurrent] at h; cases h
  | true =>
    rw [updateLesson_checked hcurrent, updateLesson_current hcurrent] at h
    split_ifs at h
    rw [← Except.ok.inj h]

theorem updateLesson_tooLong {article : Option Article}
    (h : updateLesson today mayWrite withinQuota article merged lesson context = .error .tooLong) :
    ∃ a, article = some a ∧
      updateLesson today true true (some a) merged lesson context = .error .tooLong ∧
        LESSON_BODY_LIMIT < (Text.orElse merged (appended today a.bodyMd lesson context)).length := by
  cases article with
  | none => cases h
  | some a =>
    cases hcurrent : a.current with
    | false => rw [updateLesson_other hcurrent] at h; cases h
    | true =>
      rw [updateLesson_checked hcurrent] at h
      split_ifs at h
      · cases h
      · cases h
      · refine ⟨a, rfl, h, ?_⟩
        rw [updateLesson_current hcurrent] at h
        split_ifs at h with hlong
        exact hlong

end Update

/-! ### What can be carried out -/

/-- The decision to change a lesson is carried out: its length is not refused, and without a merged
text the lesson keeps what it said and says what is new. -/
structure Carried (today : Day) (lesson : Text) (context : Option Text) (d : LessonDecision) :
    Prop where
  fits : ∀ articleId mayWrite withinQuota, d.articleId = some articleId →
    updateLesson today mayWrite withinQuota (k.store articleId) d.merged lesson context ≠
      .error .tooLong
  whole : ∀ articleId mayWrite withinQuota old new, d.articleId = some articleId →
    d.merged = none → k.store articleId = some old →
      updateLesson today mayWrite withinQuota (some old) none lesson context = .ok new →
        Text.rstrip old.bodyMd <+: new.bodyMd ∧ Text.strip lesson <:+: new.bodyMd ∧
          ∀ c, context = some c → Text.strip c <:+: new.bodyMd

/-- There is room for the new lesson in an earlier one. -/
def Fits (articleId body : Text) : Prop :=
  ∀ a, k.store articleId = some a → a.current = true →
    (Text.rstrip a.bodyMd).length + body.length + 24 ≤ LESSON_BODY_LIMIT

/-- There is room on the two exits that do not look: no model answered, or the lesson the model
chose could not be read. -/
structure Room (title body : Text) : Prop where
  unasked : model.reply title body k.candidates = none →
    ∀ top, k.candidates.find? Candidate.lexical = some top → FALLBACK_UPDATE_SCORE ≤ top.score →
      top.isLesson = true → Fits k top.articleId body
  unread : ∀ reply verdict target chosen, model.reply title body k.candidates = some reply →
    readVerdict P model.loads reply k.candidates.length = .ok verdict →
      verdict.action = .update → verdict.merged = none → verdict.target = some target →
        k.candidates[target - 1]? = some chosen → chosen.isLesson = true →
          k.readable chosen.articleId = false → body.length + APPEND_OVERHEAD ≤ LESSON_BODY_LIMIT →
            Fits k chosen.articleId body

variable {P model k} {today : Day} {title lesson : Text} {context : Option Text}

variable {d : LessonDecision}

theorem carried_append_iff {articleId : Text} (hid : d.articleId = some articleId)
    (hmerged : d.merged = none) :
    Carried k today lesson context d ↔ Fits k articleId (lessonBody lesson context) := by
  refine ⟨fun h a ha hcurrent => Nat.le_of_not_lt fun hlong => ?_, fun h => ⟨?_, ?_⟩⟩
  · refine h.fits articleId true true hid ?_
    rw [ha, hmerged]
    exact updateLesson_tooLong_iff.mpr ⟨hcurrent, hlong⟩
  · intro other mayWrite withinQuota hother hrefused
    rw [hmerged] at hrefused
    obtain ⟨a, ha, hlong, -⟩ := updateLesson_tooLong hrefused
    obtain ⟨hcurrent, hlong⟩ := updateLesson_tooLong_iff.mp hlong
    obtain rfl := Option.some.inj (hid.symm.trans hother)
    exact absurd (h a ha hcurrent) (Nat.not_le_of_lt hlong)
  · intro other mayWrite withinQuota old new _ _ _ hnew
    rw [updateLesson_ok hnew]
    exact appended_holds today old.bodyMd lesson context

variable {merged body : Text}

theorem carried_merged (h : d.merged = some merged) (hne : merged ≠ [])
    (hlength : merged.length ≤ LESSON_BODY_LIMIT) :
    Carried k today lesson context d where
  fits articleId mayWrite withinQuota hid hrefused := by
    obtain ⟨a, -, -, hlong⟩ := updateLesson_tooLong hrefused
    obtain ⟨c, t, rfl⟩ := List.exists_cons_of_ne_nil hne
    rw [h] at hlong
    exact Nat.not_le_of_lt hlong hlength
  whole _ _ _ _ _ _ hnone := by rw [h] at hnone; cases hnone

theorem parseMerged_spec {fields : Option Fields} (h : parseMerged fields = some merged) :
    merged ≠ [] ∧ merged.length ≤ LESSON_BODY_LIMIT := by
  cases fields with
  | none => cases h
  | some fields =>
    rw [parseMerged] at h
    split at h
    · dsimp only at h
      split_ifs at h with hshort
      rw [← Option.some.inj h]
      exact ⟨by simpa using hshort.1, hshort.2⟩
    · cases h

variable {verdict : Verdict}

theorem readVerdict_merged {reply : Text} {n : Nat}
    (h : readVerdict P model.loads reply n = .ok verdict) (hmerged : verdict.merged = some merged) :
    merged ≠ [] ∧ merged.length ≤ LESSON_BODY_LIMIT := by
  rw [readVerdict] at h
  cases hpayload : payload P model.loads reply with
  | error e => rw [hpayload] at h; cases h
  | ok fields =>
    rw [hpayload] at h
    rw [← Except.ok.inj h] at hmerged
    exact parseMerged_spec hmerged

theorem fullBody_eq {c : Candidate} (hc : c ∈ k.candidates) (hlesson : c.isLesson = true) :
    c.fullBody = ((k.row c.articleId).map Article.bodyMd).getD [] := by
  obtain ⟨raw, -, rfl⟩ := List.mem_map.mp hc
  exact if_pos hlesson

/-- The decision answers with a change of a lesson, and the exit it does so on. -/
inductive Exit (P : Python) (model : Model) (k : Knowledge) (title body : Text) :
    LessonDecision → Prop
  | unasked {top : Candidate} {d : LessonDecision}
      (hreply : model.reply title body k.candidates = none)
      (htop : k.candidates.find? Candidate.lexical = some top)
      (hscore : FALLBACK_UPDATE_SCORE ≤ top.score) (hlesson : top.isLesson = true)
      (hid : d.articleId = some top.articleId) (hmerged : d.merged = none) : Exit P model k title body d
  | append {reply : Text} {verdict : Verdict} {target : Nat} {chosen : Candidate} {d : LessonDecision}
      (hreply : model.reply title body k.candidates = some reply)
      (hverdict : readVerdict P model.loads reply k.candidates.length = .ok verdict)
      (haction : verdict.action = .update) (htarget : verdict.target = some target)
      (hchosen : k.candidates[target - 1]? = some chosen) (hlesson : chosen.isLesson = true)
      (hnone : verdict.merged = none)
      (hroom : chosen.fullBody.length + body.length + APPEND_OVERHEAD ≤ LESSON_BODY_LIMIT)
      (hid : d.articleId = some chosen.articleId) (hmerged : d.merged = none) :
      Exit P model k title body d
  | merge {d : LessonDecision} {merged : Text} (hmerged : d.merged = some merged) (hne : merged ≠ [])
      (hlength : merged.length ≤ LESSON_BODY_LIMIT) : Exit P model k title body d

theorem judged_update {candidates : List Candidate}
    (haction : (judged body candidates verdict).action = .update)
    (hlesson : (judged body candidates verdict).isLesson = true) :
    ∃ target chosen, verdict.action = .update ∧ verdict.target = some target ∧
      candidates[target - 1]? = some chosen ∧ chosen.isLesson = true ∧
        (judged body candidates verdict).articleId = some chosen.articleId ∧
          (judged body candidates verdict).merged = verdict.merged ∧
            (verdict.merged = none →
              chosen.fullBody.length + body.length + APPEND_OVERHEAD ≤ LESSON_BODY_LIMIT) := by
  obtain ⟨action, target, reason, merged⟩ := verdict
  cases action with
  | add => cases haction
  | skip =>
    rw [judged] at haction
    split at haction
    · cases haction
    · cases haction
    · split_ifs at haction
  | update =>
    cases hchosen : target.bind fun target => candidates[target - 1]? with
    | none =>
      rw [judged, hchosen] at haction
      cases haction
    | some chosen =>
      obtain ⟨n, htarget, hget⟩ := Option.bind_eq_some_iff.mp hchosen
      rw [judged, hchosen] at haction hlesson ⊢
      dsimp only at haction hlesson ⊢
      by_cases hfull : Action.update = .update ∧ chosen.isLesson = true ∧ merged = none ∧
          LESSON_BODY_LIMIT < chosen.fullBody.length + body.length + APPEND_OVERHEAD
      · rw [if_pos hfull] at haction
        cases haction
      · rw [if_neg hfull] at hlesson ⊢
        refine ⟨n, chosen, rfl, htarget, hget, hlesson, rfl, if_pos ⟨rfl, hlesson⟩, fun hnone => ?_⟩
        exact Nat.le_of_not_lt fun hlong => hfull ⟨rfl, hlesson, hnone, hlong⟩

theorem exit_of_update (h : decideLesson P model k title body = .ok d)
    (haction : d.action = .update) (hlesson : d.isLesson = true) : Exit P model k title body d := by
  rw [decideLesson] at h
  split_ifs at h
  · rw [← Except.ok.inj h] at haction
    cases haction
  cases hreply : model.reply title body k.candidates with
  | none =>
    rw [hreply] at h
    obtain rfl := Except.ok.inj h
    rw [fallback] at haction hlesson ⊢
    cases htop : k.candidates.find? Candidate.lexical with
    | none => rw [htop] at haction; cases haction
    | some top =>
      rw [htop] at haction hlesson
      dsimp only at haction hlesson ⊢
      split_ifs at haction hlesson ⊢ with hscore
      exact .unasked hreply htop hscore hlesson rfl rfl
  | some reply =>
    rw [hreply] at h
    dsimp only at h
    cases hverdict : readVerdict P model.loads reply k.candidates.length with
    | error e => rw [hverdict] at h; cases h
    | ok verdict =>
      rw [hverdict] at h
      obtain rfl := Except.ok.inj h
      obtain ⟨target, chosen, hupdate, htarget, hchosen, hlesson, hid, hmerged, hroom⟩ :=
        judged_update haction hlesson
      cases hnone : verdict.merged with
      | none =>
        exact .append hreply hverdict hupdate htarget hchosen hlesson hnone (hroom hnone) hid
          (hmerged.trans hnone)
      | some merged =>
        obtain ⟨hne, hlength⟩ := readVerdict_merged hverdict hnone
        exact .merge (hmerged.trans hnone) hne hlength

theorem decide_unasked {top : Candidate} (hreply : model.reply title body k.candidates = none)
    (htop : k.candidates.find? Candidate.lexical = some top)
    (hscore : FALLBACK_UPDATE_SCORE ≤ top.score) (hlesson : top.isLesson = true) :
    ∃ d, decideLesson P model k title body = .ok d ∧ d.action = .update ∧ d.isLesson = true ∧
      d.articleId = some top.articleId ∧ d.merged = none := by
  have hsome : ¬k.candidates.isEmpty = true := by
    rw [List.isEmpty_iff]
    intro hnil
    rw [hnil] at htop
    cases htop
  refine ⟨{ action := .update, articleId := some top.articleId, title := some top.title
            reason := "A very similar article already exists.".toList, isLesson := top.isLesson },
    ?_, rfl, hlesson, rfl, rfl⟩
  rw [decideLesson, if_neg hsome, hreply, fallback, htop]
  exact congrArg _ (if_pos hscore)

theorem decide_append {reply : Text} {target : Nat} {chosen : Candidate}
    (hreply : model.reply title body k.candidates = some reply)
    (hverdict : readVerdict P model.loads reply k.candidates.length = .ok verdict)
    (haction : verdict.action = .update) (htarget : verdict.target = some target)
    (hchosen : k.candidates[target - 1]? = some chosen) (hlesson : chosen.isLesson = true)
    (hnone : verdict.merged = none)
    (hroom : chosen.fullBody.length + body.length + APPEND_OVERHEAD ≤ LESSON_BODY_LIMIT) :
    ∃ d, decideLesson P model k title body = .ok d ∧ d.action = .update ∧ d.isLesson = true ∧
      d.articleId = some chosen.articleId ∧ d.merged = none := by
  obtain ⟨action, verdictTarget, reason, merged⟩ := verdict
  obtain rfl : action = .update := haction
  obtain rfl : verdictTarget = some target := htarget
  obtain rfl : merged = none := hnone
  have hsome : ¬k.candidates.isEmpty = true := by
    rw [List.isEmpty_iff]
    intro hnil
    rw [hnil] at hchosen
    cases hchosen
  have hjudged : judged body k.candidates ⟨.update, some target, reason, none⟩ =
      { action := .update, articleId := some chosen.articleId, title := some chosen.title, reason
        merged := none, isLesson := chosen.isLesson } := by
    rw [judged, Option.bind_some, hchosen]
    dsimp only
    rw [if_neg fun h => absurd h.2.2.2 (Nat.not_lt_of_le hroom), ite_self]
  refine ⟨{ action := .update, articleId := some chosen.articleId, title := some chosen.title, reason
            merged := none, isLesson := chosen.isLesson }, ?_, rfl, hlesson, rfl, rfl⟩
  rw [decideLesson, if_neg hsome, hreply]
  dsimp only
  rw [hverdict, Except.map, hjudged]

/-- **A decision can always be carried out exactly where the exits that do not look leave room.** -/
theorem carried_iff (P : Python) (model : Model) (k : Knowledge) (today : Day)
    (title lesson : Text) (context : Option Text) :
    (∀ d, decideLesson P model k title (lessonBody lesson context) = .ok d → d.action = .update →
      d.isLesson = true → Carried k today lesson context d) ↔
        Room P model k title (lessonBody lesson context) := by
  refine ⟨fun h => ⟨?_, ?_⟩, fun h d hd haction hlesson => ?_⟩
  · intro hreply top htop hscore hlesson
    obtain ⟨d, hd, haction, hchanged, hid, hmerged⟩ :=
      decide_unasked (P := P) hreply htop hscore hlesson
    exact (carried_append_iff hid hmerged).mp (h d hd haction hchanged)
  · intro reply verdict target chosen hreply hverdict hupdate hnone htarget hchosen hlesson hunread
      hroom
    have hfull : chosen.fullBody = [] := by
      rw [fullBody_eq (List.mem_of_getElem? hchosen) hlesson, Knowledge.row, hunread]
      rfl
    obtain ⟨d, hd, haction, hchanged, hid, hmerged⟩ := decide_append hreply hverdict hupdate htarget
      hchosen hlesson hnone (by rw [hfull, List.length_nil, Nat.zero_add]; exact hroom)
    exact (carried_append_iff hid hmerged).mp (h d hd haction hchanged)
  · cases exit_of_update hd haction hlesson with
    | unasked hreply htop hscore hlesson hid hmerged =>
      exact (carried_append_iff hid hmerged).mpr (h.unasked hreply _ htop hscore hlesson)
    | @append reply verdict target chosen _ hreply hverdict hupdate htarget hchosen hlesson hnone
        hroom hid hmerged =>
        refine (carried_append_iff hid hmerged).mpr ?_
        have hfull := fullBody_eq (List.mem_of_getElem? hchosen) hlesson
        cases hreadable : k.readable chosen.articleId with
        | false =>
          exact h.unread _ _ _ _ hreply hverdict hupdate hnone htarget hchosen hlesson hreadable
            (by omega)
        | true =>
          -- what was read is what the change finds
          intro a ha _
          rw [Knowledge.row, hreadable, if_pos rfl, ha, Option.map_some, Option.getD_some] at hfull
          have hstrip : (Text.rstrip a.bodyMd).length ≤ a.bodyMd.length := by
            rw [Text.rstrip, List.length_reverse]
            exact (List.dropWhile_sublist _).length_le.trans List.length_reverse.le
          rw [hfull, APPEND_OVERHEAD] at hroom
          omega
    | merge hmerged hne hlength => exact carried_merged hmerged hne hlength

/-! ### A full lesson -/

theorem length_lessonBody (lesson : Text) :
    (lessonBody lesson none).length = 11 + (Text.strip lesson).length := by
  have hheading : "## Lesson\n\n".toList.length = 11 := by decide +kernel
  unfold lessonBody
  generalize "## Lesson\n\n".toList = heading at hheading
  generalize "\n\n## Context\n\n".toList = between
  have hbody : (heading ++ Text.strip lesson ++
      if (Text.strip (none.getD [])).isEmpty then [] else between ++ Text.strip (none.getD [])) =
        heading ++ Text.strip lesson := List.append_nil _
  rw [hbody, List.length_append, hheading]

def longLesson : Text := List.replicate 19980 'a'

/-- It has been saved before, and the retrieval does not answer. -/
def savedBefore : Knowledge where
  hits := none
  similar := some [⟨some ['i'], some ['T'], some 1⟩]
  store articleId :=
    if articleId = ['i'] then
      some ⟨LESSON_TYPE, "published".toList, "active".toList, lessonBody longLesson none, 1, []⟩
    else none
  readable _ := true

def noModel : Model := ⟨false, fun _ _ _ => none, fun _ => .error .decode⟩

/-- Without a model the lesson is to be merged into the full one, which refuses it. -/
theorem full_lesson_refused :
    ∃ d, decideLesson Ask.asciiPython noModel savedBefore ['T'] (lessonBody longLesson none) = .ok d ∧
      d.action = .update ∧ d.isLesson = true ∧ d.articleId = some ['i'] ∧
        updateLesson ⟨2026, 1, 1, by decide, by decide, by decide⟩ true true (savedBefore.store ['i'])
          d.merged longLesson none = .error .tooLong := by
  have hreply : noModel.reply ['T'] (lessonBody longLesson none) savedBefore.candidates = none := rfl
  have htop : savedBefore.candidates.find? Candidate.lexical =
      some (savedBefore.read ⟨['i'], ['T'], 1, [], true, false, []⟩) := rfl
  obtain ⟨d, hd, haction, hlesson, hid, hmerged⟩ :=
    decide_unasked (P := Ask.asciiPython) hreply htop (by decide +kernel) rfl
  refine ⟨d, hd, haction, hlesson, hid, ?_⟩
  rw [hmerged]
  refine updateLesson_tooLong_iff.mpr ⟨rfl, ?_⟩
  have hstrip : Text.strip longLesson = longLesson :=
    Text.strip_eq_self
      (fun c hc => by rw [List.eq_of_mem_replicate (List.mem_of_mem_head? hc)]; rfl)
      (fun c hc => by rw [List.eq_of_mem_replicate (List.mem_of_mem_getLast? hc)]; rfl)
  have hlength : longLesson.length = 19980 := List.length_replicate
  rw [length_lessonBody, hstrip, LESSON_BODY_LIMIT]
  omega

end QnscKb.Lessons
