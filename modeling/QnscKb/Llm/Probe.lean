import QnscKb.Lib.Runs
import QnscKb.Llm.Wire

/-!
# Llm — Probe

Which providers that pass the connection test can be used (`src/domain/llm_client.py`).
-/

namespace QnscKb.Llm.Wire
open Ask (Json Fields Python)
open Runs (bind_ok_iff)

variable {P : Python}

/-! ### Results -/

theorem exists_bind_ok {α β : Type} {x : Except Error α} {f : α → Except Error β} {a : α}
    (hx : x = .ok a) (hf : ∃ b, f a = .ok b) : ∃ b, (x >>= f) = .ok b := by
  obtain ⟨b, hb⟩ := hf
  exact ⟨b, bind_ok_iff.mpr ⟨a, hx, hb⟩⟩

variable {v : Json} {fields data : Fields}

theorem asDict_ok_iff : asDict v = .ok fields ↔ v = .object fields := by
  cases v with
  | object fields' =>
    refine ⟨fun h => ?_, fun h => ?_⟩
    · cases h
      rfl
    · cases h
      rfl
  | null | bool | int | float | text | list =>
    refine ⟨fun h => ?_, fun h => ?_⟩
    · cases h
    · cases h

theorem first_dict_iff :
    (first v >>= asDict) = .ok fields ↔ ∃ rest, v = .list (.object fields :: rest) := by
  rw [bind_ok_iff]
  constructor
  · rintro ⟨choice, hfirst, hdict⟩
    rw [asDict_ok_iff] at hdict
    subst hdict
    unfold first at hfirst
    split at hfirst
    · rename_i v rest
      cases hfirst
      exact ⟨rest, rfl⟩
    · cases hfirst
    · cases hfirst
    · cases hfirst
  · rintro ⟨rest, rfl⟩
    exact ⟨_, rfl, rfl⟩

theorem orDict_ok_iff : orDict v = .ok fields ↔
    v.truthy = false ∧ fields = [] ∨ v.truthy = true ∧ v = .object fields := by
  unfold orDict
  cases h : v.truthy with
  | false =>
    refine ⟨fun h => ?_, fun h => ?_⟩
    · cases h
      exact Or.inl ⟨rfl, rfl⟩
    · rcases h with ⟨-, rfl⟩ | ⟨h, -⟩
      · rfl
      · cases h
  | true =>
    rw [if_pos rfl, asDict_ok_iff]
    refine ⟨fun h => Or.inr ⟨rfl, h⟩, fun h => ?_⟩
    rcases h with ⟨h, -⟩ | ⟨-, h⟩
    · cases h
    · exact h

/-! ### What the readers need -/

/-- `value or {}` has fields. -/
def DictOrNothing (v : Json) : Prop := v.truthy = false ∨ ∃ fields, v = .object fields

/-- `int` reads the value. -/
def Whole (P : Python) : Json → Prop
  | .bool _ | .int _ | .float (.finite ..) => True
  | .text t => (Ask.intOfText P t).isSome = true
  | _ => False

/-- The count of tokens can be read, or there is none. -/
def UsageReadable (P : Python) (fields : Fields) : Prop :=
  let usage := (fields.get "usageMetadata").or (fields.get "usage")
  usage.truthy = false ∨ ∃ u : Fields, usage = .object u ∧
    (((u.get "totalTokenCount").or (u.get "total_tokens")).truthy = false ∨
      Whole P ((u.get "totalTokenCount").or (u.get "total_tokens")))

/-- The choice has a `delta` with fields, or none. -/
def DeltaReadable (fields : Fields) : Prop :=
  (fields.get "choices").truthy = false ∨ ∃ (choice : Fields) (rest : List Json),
    fields.get "choices" = .list (.object choice :: rest) ∧ DictOrNothing (choice.get "delta")

/-- The choice has a `message` with fields, or none. -/
def MessageReadable (fields : Fields) : Prop :=
  ∃ (choice : Fields) (rest : List Json),
    fields.get "choices" = .list (.object choice :: rest) ∧ DictOrNothing (choice.get "message")

/-- The fields that `value or {}` has. -/
def dictOf : Json → Fields
  | .object fields => fields
  | _ => []

def deltaOf (data : Json) : Fields :=
  match data with
  | .object fields =>
    match Fields.get fields "choices" with
    | .list (.object choice :: _) => dictOf (Fields.get choice "delta")
    | _ => []
  | _ => []

def contentOf (P : Python) (data : Json) : Text := strOr P ((deltaOf data).get "content")

def thinkingOf (P : Python) (data : Json) : Text :=
  if contentOf P data ≠ [] then []
  else strOr P (((deltaOf data).get "reasoning_content").or ((deltaOf data).get "reasoning"))

/-- The lines before `[DONE]`. -/
def beforeDone : List Line → List Line
  | [] | .done :: _ => []
  | line :: lines => line :: beforeDone lines

def eventsOf : List Line → List Json
  | [] => []
  | .data (.value data) :: lines => data :: eventsOf lines
  | _ :: lines => eventsOf lines

/-- An event that the streaming reader can read. -/
def EventReadable (P : Python) (data : Json) : Prop :=
  ∃ fields : Fields, data = .object fields ∧ DeltaReadable fields ∧ UsageReadable P fields

def LineReadable (P : Python) : Line → Prop
  | .data (.value data) => EventReadable P data
  | .data .crash => False
  | _ => True

/-- Text reaches the streaming reader: before `[DONE]` every event has a readable count of tokens,
and a choice with a `delta` or none; and some `delta` has text, or the reasoning has the sentinel.
-/
structure Streamable (P : Python) (body : Body) : Prop where
  readable : ∀ line ∈ beforeDone body.lines, LineReadable P line
  answered : (∃ data ∈ eventsOf (beforeDone body.lines), Text.strip (contentOf P data) ≠ []) ∨
    GROUNDED_SENTINEL <:+: (eventsOf (beforeDone body.lines)).flatMap (thinkingOf P)

/-- The body is no JSON, or an object with a choice that has a `message` and a readable count of
tokens. -/
def Direct (P : Python) (body : Body) : Prop :=
  body.whole = .invalid ∨ ∃ data, body.whole = .value (.object data) ∧
    MessageReadable data ∧ UsageReadable P data

/-! ### Reading one value -/

theorem orDict_ok (h : DictOrNothing v) : ∃ fields, orDict v = .ok fields := by
  cases htruthy : v.truthy with
  | false => exact ⟨[], orDict_ok_iff.mpr (Or.inl ⟨htruthy, rfl⟩)⟩
  | true =>
    rcases h with h | ⟨fields, rfl⟩
    · rw [htruthy] at h
      cases h
    · exact ⟨fields, orDict_ok_iff.mpr (Or.inr ⟨htruthy, rfl⟩)⟩

theorem dictOrNothing_of_ok (h : orDict v = .ok fields) : DictOrNothing v := by
  rcases orDict_ok_iff.mp h with ⟨h, -⟩ | ⟨-, h⟩
  · exact Or.inl h
  · exact Or.inr ⟨fields, h⟩

theorem not_whole_iff {e : Error} (h : ¬ Whole P v) :
    (∃ n : Int, (Except.error e : Except Error Int) = .ok n) ↔ true = false ∨ Whole P v := by
  refine ⟨fun ⟨n, hn⟩ => ?_, fun hor => ?_⟩
  · cases hn
  · rcases hor with hor | hor
    · cases hor
    · exact absurd hor h

theorem intOr_ok_iff : (∃ n, intOr P v = .ok n) ↔ v.truthy = false ∨ Whole P v := by
  unfold intOr
  cases htruthy : v.truthy with
  | false => exact ⟨fun _ => Or.inl rfl, fun _ => ⟨0, rfl⟩⟩
  | true =>
    cases v with
    | bool b => exact ⟨fun _ => Or.inr trivial, fun _ => ⟨_, rfl⟩⟩
    | int n => exact ⟨fun _ => Or.inr trivial, fun _ => ⟨_, rfl⟩⟩
    | float x =>
      cases x with
      | finite repr truncated zero => exact ⟨fun _ => Or.inr trivial, fun _ => ⟨_, rfl⟩⟩
      | nan => exact not_whole_iff id
      | infinity negative => exact not_whole_iff id
    | text t =>
      dsimp only
      rw [Whole]
      cases Ask.intOfText P t with
      | none =>
        refine ⟨fun ⟨n, h⟩ => ?_, fun h => ?_⟩
        · cases h
        · rcases h with h | h
          · cases h
          · cases h
      | some n => exact ⟨fun _ => Or.inr rfl, fun _ => ⟨n, rfl⟩⟩
    | null | list | object => exact not_whole_iff id

theorem extractUsage_ok_iff : (∃ n, extractUsage P fields = .ok n) ↔ UsageReadable P fields := by
  unfold extractUsage UsageReadable
  constructor
  · rintro ⟨n, h⟩
    obtain ⟨usage, husage, hn⟩ := bind_ok_iff.mp h
    rcases orDict_ok_iff.mp husage with ⟨hnone, -⟩ | ⟨-, hobject⟩
    · exact Or.inl hnone
    · exact Or.inr ⟨usage, hobject, intOr_ok_iff.mp ⟨n, hn⟩⟩
  · rintro (hnone | ⟨u, hobject, hwhole⟩)
    · exact ⟨0, bind_ok_iff.mpr ⟨[], orDict_ok_iff.mpr (Or.inl ⟨hnone, rfl⟩), rfl⟩⟩
    · obtain ⟨n, hn⟩ := intOr_ok_iff.mpr hwhole
      cases htruthy : ((fields.get "usageMetadata").or (fields.get "usage")).truthy with
      | false => exact ⟨0, bind_ok_iff.mpr ⟨[], orDict_ok_iff.mpr (Or.inl ⟨htruthy, rfl⟩), rfl⟩⟩
      | true => exact ⟨n, bind_ok_iff.mpr ⟨u, orDict_ok_iff.mpr (Or.inr ⟨htruthy, hobject⟩), hn⟩⟩

/-! ### One event -/

theorem dictOf_of_ok (h : orDict v = .ok fields) : dictOf v = fields := by
  rcases orDict_ok_iff.mp h with ⟨hfalse, rfl⟩ | ⟨-, rfl⟩
  · cases v with
    | object fields =>
      rw [Json.truthy, Bool.not_eq_false', List.isEmpty_iff] at hfalse
      exact hfalse
    | null | bool | int | float | text | list => rfl
  · rfl

theorem deltaOf_choice {choice : Fields} {rest : List Json}
    (h : fields.get "choices" = .list (.object choice :: rest)) :
    deltaOf (.object fields) = dictOf (choice.get "delta") := by
  rw [deltaOf, h]

theorem deltaOf_nothing (h : (fields.get "choices").truthy = false) :
    deltaOf (.object fields) = [] := by
  rw [deltaOf]
  cases hchoices : fields.get "choices" with
  | list items =>
    rw [hchoices, Json.truthy, Bool.not_eq_false', List.isEmpty_iff] at h
    rw [h]
  | null | bool | int | float | text | object => rfl

theorem eventDelta_ok_iff {data : Json} {delta : Fields} : eventDelta data = .ok delta ↔
    ∃ fields, data = .object fields ∧ DeltaReadable fields ∧ delta = deltaOf data := by
  unfold eventDelta
  rw [bind_ok_iff]
  constructor
  · rintro ⟨fields, hdata, h⟩
    rw [asDict_ok_iff] at hdata
    subst hdata
    refine ⟨fields, rfl, ?_⟩
    cases hchoices : (fields.get "choices").truthy with
    | false =>
      rw [hchoices] at h
      cases h
      exact ⟨Or.inl hchoices, (deltaOf_nothing hchoices).symm⟩
    | true =>
      rw [hchoices] at h
      obtain ⟨v, hv, h⟩ := bind_ok_iff.mp h
      obtain ⟨choice, hchoice, h⟩ := bind_ok_iff.mp h
      obtain ⟨rest, hlist⟩ := first_dict_iff.mp (bind_ok_iff.mpr ⟨v, hv, hchoice⟩)
      refine ⟨Or.inr ⟨choice, rest, hlist, dictOrNothing_of_ok h⟩, ?_⟩
      rw [deltaOf_choice hlist, dictOf_of_ok h]
  · rintro ⟨fields, rfl, hreadable, rfl⟩
    refine ⟨fields, rfl, ?_⟩
    cases hchoices : (Fields.get fields "choices").truthy with
    | false =>
      rw [deltaOf_nothing hchoices]
      rfl
    | true =>
      rcases hreadable with hfalse | ⟨choice, rest, hlist, hdelta⟩
      · rw [hchoices] at hfalse
        cases hfalse
      · obtain ⟨delta, hok⟩ := orDict_ok hdelta
        rw [Bool.not_true, if_neg Bool.false_ne_true, deltaOf_choice hlist, dictOf_of_ok hok,
          hlist]
        exact hok

/-- **One event** adds its text, or else its reasoning. -/
theorem streamEvent_ok_iff {collected collected' : Text × Text} {data : Json} :
    streamEvent P collected data = .ok collected' ↔ EventReadable P data ∧
      collected' = (collected.1 ++ contentOf P data, collected.2 ++ thinkingOf P data) := by
  have hadd : (if strOr P ((deltaOf data).get "content") ≠ [] then
      (collected.1 ++ strOr P ((deltaOf data).get "content"), collected.2)
      else (collected.1, collected.2 ++
        strOr P (((deltaOf data).get "reasoning_content").or ((deltaOf data).get "reasoning")))) =
      (collected.1 ++ contentOf P data, collected.2 ++ thinkingOf P data) := by
    rw [thinkingOf, contentOf]
    by_cases h : strOr P ((deltaOf data).get "content") ≠ []
    · rw [if_pos h, if_pos h, List.append_nil]
    · rw [if_neg h, if_neg h, not_not.mp h, List.append_nil]
  unfold streamEvent
  rw [bind_ok_iff]
  constructor
  · rintro ⟨delta, hdelta, h⟩
    obtain ⟨fields, rfl, hreadable, rfl⟩ := eventDelta_ok_iff.mp hdelta
    obtain ⟨fields', hfields, husage⟩ := bind_ok_iff.mp h
    obtain ⟨n, hn, hsum⟩ := bind_ok_iff.mp husage
    cases hfields
    refine ⟨⟨fields, rfl, hreadable, extractUsage_ok_iff.mp ⟨n, hn⟩⟩, ?_⟩
    rw [← hadd]
    exact (Except.ok.inj hsum).symm
  · rintro ⟨⟨fields, rfl, hreadable, husage⟩, rfl⟩
    obtain ⟨n, hn⟩ := extractUsage_ok_iff.mpr husage
    refine ⟨_, eventDelta_ok_iff.mpr ⟨fields, rfl, hreadable, rfl⟩, ?_⟩
    refine bind_ok_iff.mpr ⟨fields, rfl, bind_ok_iff.mpr ⟨n, hn, ?_⟩⟩
    rw [← hadd]
    rfl

theorem streamEvents_ok_iff {lines : List Line} {collected collected' : Text × Text} :
    streamEvents P collected lines = .ok collected' ↔
      (∀ line ∈ beforeDone lines, LineReadable P line) ∧
        collected' = (collected.1 ++ (eventsOf (beforeDone lines)).flatMap (contentOf P),
          collected.2 ++ (eventsOf (beforeDone lines)).flatMap (thinkingOf P)) := by
  have hend : ∀ {collected : Text × Text}, (Except.ok collected : Except Error (Text × Text)) =
      .ok collected' ↔ (∀ line ∈ ([] : List Line), LineReadable P line) ∧
        collected' = (collected.1 ++ ([] : List Json).flatMap (contentOf P),
          collected.2 ++ ([] : List Json).flatMap (thinkingOf P)) := by
    intro collected
    rw [List.flatMap_nil, List.flatMap_nil, List.append_nil, List.append_nil, Except.ok.injEq,
      eq_comm]
    exact (and_iff_right (List.forall_mem_nil _)).symm
  induction lines generalizing collected with
  | nil => exact hend
  | cons line lines ih =>
    -- A line that is no event is passed over.
    have hskip : LineReadable P line →
        ((∀ l ∈ line :: beforeDone lines, LineReadable P l) ↔
          ∀ l ∈ beforeDone lines, LineReadable P l) :=
      fun h => List.forall_mem_cons.trans (and_iff_right h)
    cases line with
    | done => exact hend
    | other => exact ih.trans (and_congr_left' (hskip trivial).symm)
    | blank => exact ih.trans (and_congr_left' (hskip trivial).symm)
    | data loaded =>
      cases loaded with
      | invalid => exact ih.trans (and_congr_left' (hskip trivial).symm)
      | crash =>
        refine ⟨fun h => (by cases h), fun h => ?_⟩
        exact (h.1 _ List.mem_cons_self).elim
      | value data =>
        rw [streamEvents, bind_ok_iff]
        constructor
        · rintro ⟨next, hnext, h⟩
          obtain ⟨hevent, rfl⟩ := streamEvent_ok_iff.mp hnext
          obtain ⟨hlines, rfl⟩ := ih.mp h
          refine ⟨List.forall_mem_cons.mpr ⟨hevent, hlines⟩, ?_⟩
          rw [List.append_assoc, List.append_assoc]
          rfl
        · rintro ⟨hlines, rfl⟩
          obtain ⟨hevent, hlines⟩ := List.forall_mem_cons.mp hlines
          refine ⟨_, streamEvent_ok_iff.mpr ⟨hevent, rfl⟩, ih.mpr ⟨hlines, ?_⟩⟩
          rw [List.append_assoc, List.append_assoc]
          rfl

/-! ### Answers -/

theorem answerFromReasoning_prefix (thinking : Text) :
    answerFromReasoning thinking = [] ∨ GROUNDED_SENTINEL <+: answerFromReasoning thinking := by
  induction thinking with
  | nil => exact Or.inl rfl
  | cons c t ih =>
    rw [answerFromReasoning]
    split
    · rename_i h
      exact Or.inr (List.isPrefixOf_iff_prefix.mp h)
    · exact ih

theorem answerFromReasoning_ne_nil_iff {thinking : Text} :
    answerFromReasoning thinking ≠ [] ↔ GROUNDED_SENTINEL <:+: thinking := by
  induction thinking with
  | nil =>
    refine ⟨fun h => absurd rfl h, fun h => ?_⟩
    have hlength := h.length_le
    revert hlength
    decide
  | cons c t ih =>
    rw [answerFromReasoning, List.infix_cons_iff]
    split
    · rename_i h
      exact ⟨fun _ => Or.inl (List.isPrefixOf_iff_prefix.mp h), fun _ => List.cons_ne_nil c t⟩
    · rename_i h
      rw [ih]
      refine ⟨Or.inr, fun hor => hor.resolve_left fun hprefix => ?_⟩
      exact h (List.isPrefixOf_iff_prefix.mpr hprefix)

theorem strip_ne_nil_iff {t : Text} : Text.strip t ≠ [] ↔ ∃ c ∈ t, Text.isSpace c = false := by
  rw [Ne, Text.strip_nil_iff]
  push Not
  refine exists_congr fun c => and_congr_right fun _ => ?_
  exact Bool.not_eq_true _ ▸ Iff.rfl

theorem strip_answerFromReasoning {thinking : Text} (h : answerFromReasoning thinking ≠ []) :
    Text.strip (answerFromReasoning thinking) ≠ [] := by
  rcases answerFromReasoning_prefix thinking with hnone | hprefix
  · exact absurd hnone h
  · refine strip_ne_nil_iff.mpr ⟨'<', hprefix.subset ?_, rfl⟩
    decide

theorem strip_flatMap_ne_nil_iff {events : List Json} {f : Json → Text} :
    Text.strip (events.flatMap f) ≠ [] ↔ ∃ data ∈ events, Text.strip (f data) ≠ [] := by
  simp only [strip_ne_nil_iff, List.mem_flatMap]
  constructor
  · rintro ⟨c, ⟨data, hdata, hc⟩, hspace⟩
    exact ⟨data, hdata, c, hc, hspace⟩
  · rintro ⟨data, hdata, c, hc, hspace⟩
    exact ⟨c, ⟨data, hdata, hc⟩, hspace⟩

variable {body : Body}

/-- **The streaming reader** finds text in the bodies that stream it. -/
theorem requestStream_answered_iff : Answered (requestStream P body) ↔ Streamable P body := by
  constructor
  · rintro ⟨text, h, htext⟩
    obtain ⟨⟨answer, thinking⟩, hevents, h⟩ := bind_ok_iff.mp h
    obtain ⟨hlines, hcollected⟩ := streamEvents_ok_iff.mp hevents
    rw [List.nil_append, List.nil_append] at hcollected
    obtain ⟨rfl, rfl⟩ := hcollected
    refine ⟨hlines, ?_⟩
    dsimp only at h
    split at h
    · rename_i hanswer
      exact Or.inl (strip_flatMap_ne_nil_iff.mp hanswer)
    · rename_i hblank
      refine Or.inr (answerFromReasoning_ne_nil_iff.mp fun hnone => ?_)
      rw [hnone] at h
      cases h
      exact hblank htext
  · rintro ⟨hlines, hanswered⟩
    have hevents : streamEvents P ([], []) body.lines = .ok
        ((eventsOf (beforeDone body.lines)).flatMap (contentOf P),
          (eventsOf (beforeDone body.lines)).flatMap (thinkingOf P)) :=
      streamEvents_ok_iff.mpr ⟨hlines, rfl⟩
    by_cases hblank : Text.strip ((eventsOf (beforeDone body.lines)).flatMap (contentOf P)) ≠ []
    · refine ⟨_, bind_ok_iff.mpr ⟨_, hevents, ?_⟩, hblank⟩
      exact if_pos hblank
    · have hthinking := answerFromReasoning_ne_nil_iff.mpr
        (hanswered.resolve_left fun h => hblank (strip_flatMap_ne_nil_iff.mpr h))
      refine ⟨_, bind_ok_iff.mpr ⟨_, hevents, ?_⟩, strip_answerFromReasoning hthinking⟩
      dsimp only
      rw [if_neg hblank, if_pos hthinking]
      rfl

/-! ### The reader of one answer -/

theorem get_eq_list {items : List Json} (h : data.get "choices" = .list items) :
    data.lookup "choices" = some (.list items) := by
  unfold Fields.get at h
  cases hlookup : data.lookup "choices" with
  | none =>
    rw [hlookup] at h
    cases h
  | some v =>
    rw [hlookup] at h
    exact congrArg some h

theorem extractOpenaiText_ok (h : MessageReadable data) :
    ∃ text, extractOpenaiText P data = .ok text := by
  obtain ⟨choice, rest, hchoices, hmessage⟩ := h
  obtain ⟨message, hok⟩ := orDict_ok hmessage
  unfold extractOpenaiText
  rw [get_eq_list hchoices]
  refine exists_bind_ok (a := .object choice) rfl (exists_bind_ok (a := choice) rfl
    (exists_bind_ok hok ?_))
  dsimp only
  split
  · exact ⟨_, rfl⟩
  · exact ⟨_, rfl⟩

theorem messageReadable_of_ok {text : Text} (h : extractOpenaiText P data = .ok text)
    (htext : Text.strip text ≠ []) : MessageReadable data := by
  obtain ⟨v, hv, h⟩ := bind_ok_iff.mp h
  obtain ⟨choice, hchoice, h⟩ := bind_ok_iff.mp h
  obtain ⟨message, hmessage, h⟩ := bind_ok_iff.mp h
  obtain ⟨rest, hlist⟩ := first_dict_iff.mp (bind_ok_iff.mpr ⟨v, hv, hchoice⟩)
  cases hlookup : data.lookup "choices" with
  | some choices =>
    rw [hlookup, Option.getD_some] at hlist
    refine ⟨choice, rest, ?_, dictOrNothing_of_ok hmessage⟩
    rw [Fields.get, hlookup, Option.getD_some, hlist]
  | none =>
    -- Without choices there is no text.
    rw [hlookup] at hlist
    cases hlist
    cases hmessage
    cases h
    exact absurd rfl htext

theorem direct_iff (h : Answered (probeAnswer P body)) (streamAnswers : Bool) :
    Answered (completeOnce P false false streamAnswers body) ↔ Direct P body := by
  obtain ⟨text, hprobe, htext⟩ := h
  unfold completeOnce Direct
  unfold probeAnswer at hprobe
  cases hwhole : body.whole with
  | crash =>
    rw [hwhole] at hprobe
    cases hprobe
  | invalid =>
    rw [hwhole] at hprobe
    refine ⟨fun _ => Or.inl rfl, fun _ => ⟨text, bind_ok_iff.mpr ⟨text, hprobe, ?_⟩, htext⟩⟩
    exact if_pos htext
  | value v =>
    rw [hwhole] at hprobe
    constructor
    · rintro ⟨answer, hanswer, hstrip⟩
      obtain ⟨data, hdata, hanswer⟩ := bind_ok_iff.mp hanswer
      obtain ⟨answer', hextract, hanswer⟩ := bind_ok_iff.mp hanswer
      obtain ⟨n, husage, hanswer⟩ := bind_ok_iff.mp hanswer
      cases hanswer
      rw [asDict_ok_iff] at hdata
      subst hdata
      exact Or.inr ⟨data, rfl, messageReadable_of_ok hextract hstrip,
        extractUsage_ok_iff.mp ⟨n, husage⟩⟩
    · rintro (hinvalid | ⟨data, hdata, hmessage, husage⟩)
      · cases hinvalid
      · cases hdata
        obtain ⟨answer, hextract⟩ := extractOpenaiText_ok (P := P) hmessage
        obtain ⟨n, hn⟩ := extractUsage_ok_iff.mpr husage
        dsimp only at hprobe
        rw [hextract] at hprobe
        cases hprobe
        exact ⟨text, bind_ok_iff.mpr ⟨data, rfl, bind_ok_iff.mpr ⟨text, hextract,
          bind_ok_iff.mpr ⟨n, hn, rfl⟩⟩⟩, htext⟩

/-! ### Providers that can be used -/

theorem completeOnce_stream {glm onToken streamAnswers : Bool}
    (h : (glm || (onToken && streamAnswers)) = true) :
    completeOnce P glm onToken streamAnswers body = requestStream P body := by
  rw [completeOnce, if_pos h]
  cases requestStream P body with
  | ok answer => rfl
  | error e => rfl

/-- **A provider that passes the connection test** can be used if and only if its body streams text
and, where it is asked without `on_token` and is not GLM, is no JSON or an object that can be read.
-/
theorem probe_usable_iff (P : Python) (glm : Bool) (body : Body)
    (h : Answered (probeAnswer P body)) :
    Usable P glm body ↔ Streamable P body ∧ (glm = false → Direct P body) := by
  unfold Usable
  cases glm with
  | true =>
    rw [completeOnce_stream rfl, requestStream_answered_iff]
    refine and_congr_right fun hstream => ⟨fun _ h => (by cases h), fun _ streamAnswers => ?_⟩
    rw [completeOnce_stream rfl]
    exact requestStream_answered_iff.mpr hstream
  | false =>
    rw [completeOnce_stream rfl, requestStream_answered_iff]
    exact and_congr_right fun _ => ⟨fun hdirect _ => (direct_iff h false).mp (hdirect false),
      fun hdirect streamAnswers => (direct_iff h streamAnswers).mpr (hdirect rfl)⟩

def reply (key : String) : Json :=
  .object [("choices", .list [.object [(key, .object [("content", .text ['O', 'K'])])]])]

def deltaBody : Body where
  whole := .invalid
  lines := [.data (.value (reply "delta")), .blank, .data (.value (reply "finish")), .done]

theorem deltaBody_usable : Usable Ask.asciiPython false deltaBody ↔
    Streamable Ask.asciiPython deltaBody ∧ (false = false → Direct Ask.asciiPython deltaBody) :=
  probe_usable_iff Ask.asciiPython false deltaBody ⟨['O', 'K'], rfl, by decide⟩

/-- One JSON object, as any request gets it that does not ask for a stream. -/
def jsonBody : Body := ⟨.value (reply "message"), [.other]⟩

/-- An event stream with the whole message in one event. -/
def messageBody : Body := ⟨.invalid, [.data (.value (reply "message")), .blank, .done]⟩

/-- The connection test passes, and no streamed answer has text. -/
theorem probe_not_usable :
    (Answered (probeAnswer Ask.asciiPython jsonBody) ∧
      ¬ Usable Ask.asciiPython false jsonBody) ∧
    (Answered (probeAnswer Ask.asciiPython messageBody) ∧
      ¬ Usable Ask.asciiPython false messageBody) := by
  refine ⟨⟨⟨['O', 'K'], rfl, by decide⟩, fun h => ?_⟩,
    ⟨['O', 'K'], rfl, by decide⟩, fun h => ?_⟩
  · obtain ⟨text, htext, hstrip⟩ := h.1
    have hnone : completeOnce Ask.asciiPython false true true jsonBody = .ok [] := rfl
    cases htext
    exact hstrip rfl
  · obtain ⟨text, htext, hstrip⟩ := h.1
    have hnone : completeOnce Ask.asciiPython false true true messageBody = .ok [] := rfl
    cases htext
    exact hstrip rfl

end QnscKb.Llm.Wire
