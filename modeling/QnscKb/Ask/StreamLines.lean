import Mathlib.Data.List.Induction
import QnscKb.Ask.SentinelLines

/-!
# Ask — StreamLines

What the stream shows of one line of an output (`src/rag/answer_sections.py`).  Its state within a
line is a function of what has arrived of the line (`reading`).
-/

namespace QnscKb.Ask

variable {U : Unicode} {K : Casing U}

/-! ### Holding back -/

variable {a b : Text}

theorem prefix_rstrip (p : Char → Bool) (h : a <+: b) :
    (a.reverse.dropWhile p).reverse <+: (b.reverse.dropWhile p).reverse := by
  obtain ⟨more, rfl⟩ := h
  rw [List.reverse_append, List.dropWhile_append]
  split
  case isTrue => exact List.prefix_refl _
  case isFalse =>
    rw [List.reverse_append]
    refine List.IsPrefix.trans ?_ (List.prefix_append _ _)
    refine ⟨(a.reverse.takeWhile p).reverse, ?_⟩
    rw [← List.reverse_append, List.takeWhile_append_dropWhile]

theorem prefix_dropWhile (p : Char → Bool) (h : a <+: b) : a.dropWhile p <+: b.dropWhile p := by
  obtain ⟨more, rfl⟩ := h
  rw [List.dropWhile_append]
  split
  case isTrue hempty =>
    rw [List.isEmpty_iff.mp hempty]
    exact List.nil_prefix
  case isFalse => exact List.prefix_append _ _

theorem prefix_flatMap (f : Char → Text) (h : a <+: b) : a.flatMap f <+: b.flatMap f := by
  obtain ⟨more, rfl⟩ := h
  rw [List.flatMap_append]
  exact List.prefix_append _ _

theorem couldBeginASentinel_of_append {probe more : Text} (hne : probe ≠ [])
    (h : couldBeginASentinel K (probe ++ more) = true) : couldBeginASentinel K probe = true := by
  obtain ⟨c, t, rfl⟩ := List.exists_cons_of_ne_nil hne
  have hpre : c :: t <+: c :: t ++ more := List.prefix_append _ _
  simp only [couldBeginASentinel, Bool.and_eq_true, decide_eq_true_eq, List.any_eq_true,
    List.isPrefixOf_iff_prefix] at h ⊢
  obtain ⟨⟨hhead, hangles⟩, word, hword, hname⟩ := h
  refine ⟨⟨hhead, ?_⟩, word, hword, ?_⟩
  · have hsuffix := (List.dropWhile_suffix (l := more) (· == '<')).length_le
    rw [List.dropWhile_append, List.length_append] at hangles
    split at hangles
    next hempty =>
      omega
    next =>
      rw [List.length_append] at hangles
      omega
  · exact (prefix_flatMap _ (prefix_rstrip _ (prefix_dropWhile _ hpre))).trans hname

namespace AnswerStream

theorem held_nil : held K [] = true := rfl

variable {line body core run rest : Text}

theorem held_of_append {more : Text} (h : held K (line ++ more) = true) : held K line = true := by
  rw [held] at h ⊢
  cases hprobe : Text.lstrip line with
  | nil => rfl
  | cons c t =>
    have hwhole : Text.lstrip (line ++ more) = c :: t ++ more := by
      rw [Text.lstrip] at hprobe ⊢
      rw [List.dropWhile_append, hprobe]
      rfl
    simp only [hwhole, Bool.or_eq_true, List.isPrefixOf_iff_prefix] at h
    simp only [Bool.or_eq_true, List.isPrefixOf_iff_prefix]
    obtain (hempty | hfence) | hsentinel := h
    · cases hempty
    · exact .inl (.inr ((List.prefix_append _ _).trans hfence))
    · exact .inr (couldBeginASentinel_of_append (List.cons_ne_nil _ _) hsentinel)

/-! ### Within a line -/

def fresh (inFence : Bool) : AnswerStream := ⟨[], 0, inFence, false⟩

/-- What has been shown of the line that has arrived so far. -/
def shown (K : Casing U) (line : Text) : Text := if held K line then [] else line

def reading (K : Casing U) (inFence : Bool) (line : Text) : AnswerStream :=
  ⟨line, (shown K line).length, inFence, false⟩

theorem shown_append_drop (line : Text) : shown K line ++ line.drop (shown K line).length = line := by
  unfold shown
  split
  · rfl
  · simp

theorem shown_of_held (h : held K line = true) : shown K line = [] := by
  rw [shown, if_pos h]

theorem length_shown_ne (h : held K line = false) : (shown K line).length ≠ 0 := by
  rw [shown, h, if_neg Bool.false_ne_true]
  rintro hzero
  rw [List.length_eq_zero_iff.mp hzero] at h
  cases h

variable {inFence : Bool}

theorem feedCharacter_reading {c : Char} (hc : c ≠ '\n')
    (hplain : inFence = true ∨ inlineSentinel U (line ++ [c]) = none) :
    ∃ out, feedCharacter K (reading K inFence line) c = (out, reading K inFence (line ++ [c])) ∧
      shown K line ++ out = shown K (line ++ [c]) := by
  have hconsume : consumeInlineSentinel K
      { reading K inFence line with line := line ++ [c] } = none := by
    rcases hplain with rfl | hnone
    · simp [consumeInlineSentinel, reading]
    · simp [consumeInlineSentinel, hnone]
  have hstep : feedCharacter K (reading K inFence line) c =
      if holding K { reading K inFence line with line := line ++ [c] } then
        ([], { reading K inFence line with line := line ++ [c] })
      else ((line ++ [c]).drop (shown K line).length,
        { reading K inFence line with line := line ++ [c], released := (line ++ [c]).length }) := by
    rw [feedCharacter, if_neg hc]
    simp only [reading] at hconsume ⊢
    simp only [hconsume]
    rfl
  cases hheld : held K line with
  | true =>
    have hshown := shown_of_held hheld
    cases hnext : held K (line ++ [c]) with
    | true =>
      refine ⟨[], ?_, by rw [hshown, shown_of_held hnext, List.append_nil]⟩
      rw [hstep, if_pos (by simp [holding, reading, hshown, hnext])]
      simp [reading, hshown, shown_of_held hnext]
    | false =>
      have hshown' : shown K (line ++ [c]) = line ++ [c] := by rw [shown, hnext]; rfl
      refine ⟨line ++ [c], ?_, by rw [hshown, hshown', List.nil_append]⟩
      rw [hstep, if_neg (by simp [holding, reading, hshown, hnext])]
      simp [reading, hshown, hshown']
  | false =>
    have hnext : held K (line ++ [c]) = false := by
      rw [← Bool.not_eq_true]
      intro h
      rw [held_of_append h] at hheld
      cases hheld
    have hshown : shown K line = line := by rw [shown, hheld]; rfl
    have hshown' : shown K (line ++ [c]) = line ++ [c] := by rw [shown, hnext]; rfl
    have hne := length_shown_ne hheld
    refine ⟨[c], ?_, by rw [hshown, hshown']⟩
    rw [hstep, if_neg (by simp [holding, reading, hne])]
    simp [reading, hshown, hshown']

theorem feed_body (K : Casing U) (hbody : Unbroken body)
    (hplain : inFence = true ∨ inlineSentinel U body = none) :
    feed K (fresh inFence) body = (shown K body, reading K inFence body) := by
  induction body using List.reverseRecOn with
  | nil => rfl
  | append_singleton body c ih =>
    have hc : c ≠ '\n' := by
      rintro rfl
      exact absurd (hbody '\n' (by simp)) (by decide)
    have hplain' : inFence = true ∨ inlineSentinel U body = none := by
      refine hplain.imp_right fun hnone => ?_
      rw [← Option.not_isSome_iff_eq_none, Option.isSome_iff_exists]
      rintro ⟨⟨sentinel, content⟩, hfound⟩
      rw [inlineSentinel_append K [c] hfound] at hnone
      cases hnone
    obtain ⟨out, hstep, hshown⟩ := feedCharacter_reading hc hplain
    rw [feed_append, ih (hbody.mono fun d hd => List.mem_append_left _ hd) hplain', ← hshown,
      feed_of_going rfl, feedCharacters, hstep]
    simp [feedCharacters, reading]

/-- A line that is neither a sentinel nor starts with one is shown as it is. -/
theorem feed_line (K : Casing U) (hbody : Unbroken body)
    (hplain : inFence = true ∨ inlineSentinel U body = none ∧ sentinelLine U body = none) :
    feed K (fresh inFence) (body ++ ['\n']) =
      (body ++ ['\n'], fresh (inFence ^^ togglesFence body)) := by
  have hmark : (if (reading K inFence body).inFence then none
      else sentinelLine U (reading K inFence body).line) = none := by
    rcases hplain with rfl | ⟨-, hnone⟩
    · rfl
    · exact (congrArg _ hnone).trans (ite_self none)
  have hend : finishLine U (reading K inFence body) =
      (body.drop (shown K body).length ++ ['\n'], fresh (inFence ^^ togglesFence body)) := by
    by_cases htoggles : togglesFence (reading K inFence body).line = true
    · rw [finishLine, if_pos htoggles, show togglesFence body = true from htoggles, Bool.xor_true]
      rfl
    · rw [finishLine, if_neg htoggles, hmark,
        show togglesFence body = false from (Bool.not_eq_true _).mp htoggles, Bool.xor_false]
      rfl
  rw [feed_append, feed_body K hbody (hplain.imp_right And.left), feed_of_going rfl,
    feedCharacters, feedCharacter, if_pos rfl, hend]
  simp only [fresh, Bool.false_eq_true, if_false, feedCharacters, List.append_nil]
  rw [← List.append_assoc, shown_append_drop]

theorem finish_line (K : Casing U) (hplain : inFence = true ∨ sentinelLine U body = none) :
    shown K body ++ finish U (reading K inFence body) = body := by
  have hmark : (!inFence && (sentinelLine U body).isSome) = false := by
    rcases hplain with rfl | hnone
    · rfl
    · rw [hnone, Option.isSome_none, Bool.and_false]
  rw [finish]
  simp only [reading, hmark]
  exact shown_append_drop body

variable {kind : Sentinel}

/-- A sentinel that is held back to its last character is not shown. -/
theorem feed_sentinel (K : Casing U) (hbody : Unbroken body) (hheld : held K body = true)
    (hinline : inlineSentinel U body = none) (hkind : sentinelLine U body = some kind) :
    feed K (fresh false) (body ++ ['\n']) =
      ([], { fresh false with stopped := kind == .extended }) := by
  have htoggles : togglesFence body = false := by
    rw [← Bool.not_eq_true]
    intro htoggles
    rw [sentinelLine_of_togglesFence K htoggles] at hkind
    cases hkind
  have hend : finishLine U (reading K false body) =
      ([], { fresh false with stopped := kind == .extended }) := by
    rw [finishLine]
    simp only [reading, htoggles, hkind]
    rfl
  rw [feed_append, feed_body K hbody (.inr hinline), shown_of_held hheld, feed_of_going rfl,
    feedCharacters, feedCharacter, if_pos rfl, hend]
  cases kind == .extended <;> simp [feedCharacters, fresh]

/-! ### Sentinels without white space -/

def unspaced (t : Text) : Bool := t.all fun c => !Text.isSpace c

theorem core_unspaced (hcore : Core U kind core) (hunspaced : unspaced core = true) :
    ∃ m n w, (2 ≤ m ∧ m ≤ 4) ∧ 2 ≤ n ∧
      w.map U.fold = kind.name ∧ core = List.replicate m '<' ++ (w ++ List.replicate n '>') := by
  obtain ⟨m, n, gap, w, gap', hm, hn, hgap, hgap', hw, rfl⟩ := hcore
  have hnone : ∀ run : Text, (∀ c ∈ run, Text.isSpace c = true) →
      (∀ c ∈ run, Text.isSpace c = false) → run = [] := by
    rintro (_ | ⟨c, run⟩) hall hno
    · rfl
    · have hc := hall c (List.mem_cons_self ..)
      rw [hno c (List.mem_cons_self ..)] at hc
      cases hc
  simp only [unspaced, List.all_eq_true, Bool.not_eq_true', List.mem_append] at hunspaced
  obtain rfl := hnone gap hgap fun c hc => hunspaced c (.inr (.inl hc))
  obtain rfl := hnone gap' hgap' fun c hc => hunspaced c (.inr (.inr (.inr (.inl hc))))
  exact ⟨m, n, w, hm, hn.1, hw, rfl⟩

theorem upper_name (K : Casing U) {w : Text} (hw : w.map U.fold = kind.name) :
    w.flatMap K.upper = kind.name.map Char.toUpper := by
  have hletters : ∀ c ∈ w, U.fold c ∈ sentinelLetters := by
    intro c hc
    exact name_letters kind _ (hw ▸ List.mem_map_of_mem hc)
  rw [← hw]
  clear hw
  induction w with
  | nil => rfl
  | cons c w ih =>
    obtain ⟨hc, hrest⟩ := List.forall_mem_cons.mp hletters
    have hupper : K.upper c = [(U.fold c).toUpper] := by
      obtain ⟨hsmall, hlarge⟩ := K.upper_letter _ hc
      have hcase := (K.fold_letter c _ hc).mp rfl
      generalize U.fold c = p at hsmall hlarge hcase ⊢
      rcases hcase with rfl | rfl
      · exact hsmall
      · exact hlarge
    rw [List.flatMap_cons, hupper, ih hrest]
    rfl

theorem mem_sentinelWords (kind : Sentinel) : kind.name.map Char.toUpper ∈ sentinelWords := by
  have hgrounded : "GROUNDED".toList = ['G', 'R', 'O', 'U', 'N', 'D', 'E', 'D'] :=
    Text.toList_lit rfl
  have hextended : "EXTENDED".toList = ['E', 'X', 'T', 'E', 'N', 'D', 'E', 'D'] :=
    Text.toList_lit rfl
  have hend : "END".toList = ['E', 'N', 'D'] := Text.toList_lit rfl
  cases kind <;> decide

theorem held_core (K : Casing U) (hrun : ∀ c ∈ run, Text.isSpace c = true)
    (hcore : Core U kind core) (hunspaced : unspaced core = true) :
    held K (run ++ core) = true := by
  obtain ⟨m, n, w, hm, hn, hw, hspelled⟩ := core_unspaced hcore hunspaced
  have hprobe : Text.lstrip (run ++ core) = core := by
    have hstrip : Text.lstrip (run ++ (core ++ [])) = core ++ [] := lstrip_core hcore hrun
    rwa [List.append_nil] at hstrip
  have hangles : core.dropWhile (· == '<') = w ++ List.replicate n '>' := by
    rw [hspelled]
    refine Text.dropWhile_run (by simp) fun c hc => ?_
    simpa using (head_name K hw c hc).2
  have hname : probeName core = w := by
    have hback : (w ++ List.replicate n '>').reverse.dropWhile (· == '>') = w.reverse := by
      rw [List.reverse_append]
      refine Text.dropWhile_run (by simp) fun c hc => ?_
      have hmem : c ∈ w := List.mem_reverse.mp (List.mem_of_head? (Option.mem_def.mp hc))
      simpa using (nameCharacters_plain c (mem_nameCharacters K hw c hmem)).2.2.1
    rw [probeName, hangles, hback, List.reverse_reverse]
  have hfirst : core.head? = some '<' := by
    obtain ⟨t, ht⟩ := hcore.first
    rw [ht]
    rfl
  have hbegins : couldBeginASentinel K core = true := by
    have hlength : core.length - (w ++ List.replicate n '>').length = m := by
      rw [hspelled]
      simp
    simp only [couldBeginASentinel, hangles, hname, hlength, hfirst, Bool.and_eq_true,
      decide_eq_true_eq, List.any_eq_true, List.isPrefixOf_iff_prefix, beq_self_eq_true, true_and]
    exact ⟨hm.2, _, mem_sentinelWords kind, [], by rw [List.append_nil, upper_name K hw]⟩
  rw [held, hprobe, hbegins]
  simp

theorem searchSentinel_skip (K : Casing U) {t : Text} (hrun : ∀ c ∈ run, c ∉ nameCharacters) :
    searchSentinel U (run ++ t) = searchSentinel U t := by
  induction run with
  | nil => rfl
  | cons c run ih =>
    obtain ⟨hc, hrest⟩ := List.forall_mem_cons.mp hrun
    have hnone : sentinelName U (c :: (run ++ t)) = none := by
      rw [← Option.not_isSome_iff_eq_none, Option.isSome_iff_exists]
      rintro ⟨⟨kind, rest⟩, hfound⟩
      obtain ⟨w, hsplit, hw⟩ := sentinelName_iff.mp hfound
      obtain ⟨d, w, rfl⟩ := List.exists_cons_of_ne_nil (name_ne_nil hw)
      obtain rfl := (List.cons.inj hsplit).1
      exact hc (mem_nameCharacters K hw c (List.mem_cons_self ..))
    rw [List.cons_append, searchSentinel, hnone]
    exact ih hrest

theorem searchSentinel_core (K : Casing U) (hrun : ∀ c ∈ run, Text.isSpace c = true)
    (hcore : Core U kind core) : searchSentinel U (run ++ core) = some kind := by
  obtain ⟨m, n, gap, w, gap', -, -, hgap, -, hw, rfl⟩ := hcore
  have hskip : ∀ c ∈ run ++ (List.replicate m '<' ++ gap), c ∉ nameCharacters := by
    intro c hc hname
    obtain ⟨hvisible, hangle, -⟩ := nameCharacters_plain c hname
    rcases List.mem_append.mp hc with hc | hc
    · rw [hrun c hc] at hvisible
      cases hvisible
    · rcases List.mem_append.mp hc with hc | hc
      · exact hangle (List.eq_of_mem_replicate hc)
      · rw [hgap c hc] at hvisible
        cases hvisible
  have hsplit : run ++ (List.replicate m '<' ++ (gap ++ (w ++ (gap' ++ List.replicate n '>')))) =
      (run ++ (List.replicate m '<' ++ gap)) ++ (w ++ (gap' ++ List.replicate n '>')) := by simp
  rw [hsplit, searchSentinel_skip K hskip]
  have hfound : sentinelName U (w ++ (gap' ++ List.replicate n '>')) =
      some (kind, gap' ++ List.replicate n '>') := sentinelName_iff.mpr ⟨w, rfl, hw⟩
  obtain ⟨c, w, rfl⟩ := List.exists_cons_of_ne_nil (name_ne_nil hw)
  rw [List.cons_append] at hfound ⊢
  rw [searchSentinel, hfound]

theorem inlineSentinel_core (K : Casing U) (hrun : ∀ c ∈ run, isBlank c = true)
    (hcore : Core U kind core) : inlineSentinel U (run ++ core) = none := by
  have hline : (run ++ core).dropWhile isBlank = core := by
    refine Text.dropWhile_run hrun ?_
    obtain ⟨t, rfl⟩ := hcore.first
    intro c hc
    obtain rfl : '<' = c := Option.some.inj hc
    decide
  have hhead : sentinelHead U core = some (kind, []) :=
    (sentinelHead_iff K).mpr ⟨core, hcore, (List.append_nil _).symm, by simp⟩
  rw [inlineSentinel, hline, hhead]
  simp

theorem inlineSentinel_singleton (K : Casing U) (c : Char) : inlineSentinel U [c] = none := by
  rw [← Option.not_isSome_iff_eq_none, Option.isSome_iff_exists]
  rintro ⟨⟨sentinel, content⟩, hfound⟩
  obtain ⟨kind, run, core, gap, hcore, -, -, rfl, hline, -, d, t, rfl, -⟩ :=
    (inlineSentinel_iff K).mp hfound
  obtain ⟨front, rfl⟩ := hcore.first
  have hlength := congrArg List.length hline
  simp only [List.length_append, List.length_cons, List.length_nil] at hlength
  omega

/-- Text behind a sentinel that is held back is read as a line of its own; behind `EXTENDED`,
nothing is read. -/
theorem feed_inline (K : Casing U) {t : Text} {c : Char} (hrun : ∀ d ∈ run, isBlank d = true)
    (hcore : Core U kind core) (hunspaced : unspaced core = true) (hbody : Unbroken (run ++ core))
    (hc : Text.isSpace c = false) (hclosed : c ≠ '>') :
    feed K (fresh false) (run ++ core ++ c :: t) =
      if kind = .extended then ([], { fresh false with stopped := true })
      else feed K (fresh false) (c :: t) := by
  have hspace : ∀ d ∈ run, Text.isSpace d = true := fun d hd => isSpace_of_isBlank (hrun d hd)
  have hheld := held_core K hspace hcore hunspaced
  have hnewline : c ≠ '\n' := by
    rintro rfl
    cases hc
  have hfound : inlineSentinel U (run ++ core ++ [c]) = some (run ++ core, [c]) := by
    refine (inlineSentinel_iff K).mpr ⟨kind, run, core, [], hcore, hrun, List.forall_mem_nil _, rfl,
      rfl, ?_, c, [], rfl, hc⟩
    intro h
    exact hclosed (Option.some.inj h)
  have hlast : (run ++ core ++ [c]).getLast? ≠ some '>' := by
    rw [List.getLast?_concat]
    intro h
    exact hclosed (Option.some.inj h)
  have hstate : reading K false (run ++ core) = ⟨run ++ core, 0, false, false⟩ := by
    simp [reading, shown_of_held hheld]
  -- the character behind the sentinel begins a line
  have hbegin : feedCharacter K (fresh false) c =
      if holding K ⟨[c], 0, false, false⟩ then ([], ⟨[c], 0, false, false⟩)
      else ([c], ⟨[c], 1, false, false⟩) := by
    have hnone : consumeInlineSentinel K (⟨[c], 0, false, false⟩ : AnswerStream) = none := by
      simp [consumeInlineSentinel, inlineSentinel_singleton K]
    rw [feedCharacter, if_neg hnewline]
    simp only [fresh, List.nil_append, hnone]
    rfl
  have hconsume : feedCharacter K (reading K false (run ++ core)) c =
      if kind = .extended then ([], { fresh false with stopped := true })
      else feedCharacter K (fresh false) c := by
    have hresult : consumeInlineSentinel K ⟨run ++ core ++ [c], 0, false, false⟩ =
        if kind = .extended then some ([], { fresh false with stopped := true })
        else some (feedCharacter K (fresh false) c) := by
      rw [hbegin, consumeInlineSentinel]
      simp only [bne_self_eq_false, Bool.false_or, Bool.false_eq_true, if_false, hfound, hlast,
        searchSentinel_core K hspace hcore, Option.some.injEq]
      split
      · rfl
      · split <;> rfl
    rw [hstate, feedCharacter, if_neg hnewline]
    simp only [hresult]
    by_cases hext : kind = .extended
    · simp only [if_pos hext]
    · simp only [if_neg hext]
  rw [feed_append, feed_body K hbody (.inr (inlineSentinel_core K hrun hcore)),
    shown_of_held hheld, feed_of_going rfl, feed_of_going rfl, feedCharacters, feedCharacters,
    hconsume]
  by_cases hext : kind = .extended
  · simp only [if_pos hext, if_true, List.nil_append]
  · simp only [if_neg hext, List.nil_append]

/-! ### To the end -/

theorem exists_append_singleton (c : Char) (t : Text) : ∃ front last, c :: t = front ++ [last] :=
  ⟨_, _, (List.dropLast_concat_getLast (List.cons_ne_nil c t)).symm⟩

/-- What is shown from a state on, the end included. -/
def total (K : Casing U) (s : AnswerStream) (t : Text) : Text :=
  (feed K s t).1 ++ finish U (feed K s t).2

theorem total_append (s : AnswerStream) (a b : Text) :
    total K s (a ++ b) = (feed K s a).1 ++ total K (feed K s a).2 b := by
  rw [total, feed_append, total, List.append_assoc]

theorem total_stopped {s : AnswerStream} (h : s.stopped = true) (t : Text) : total K s t = [] := by
  rw [total, feed_of_stopped h, finish, h]
  rfl

theorem total_fresh_nil (inFence : Bool) : total K (fresh inFence) [] = [] := by
  have hfeed : feed K (fresh inFence) [] = ([], fresh inFence) := rfl
  cases inFence <;> rfl

/-- One line of a text, and what follows it. -/
def LineThen (line rest : Text) : Prop :=
  (∃ body, Unbroken body ∧ line = body ++ ['\n']) ∨ line ≠ [] ∧ Unbroken line ∧ rest = []

theorem total_line (K : Casing U) (hline : LineThen line rest)
    (hplain : inFence = true ∨ inlineSentinel U line = none ∧ sentinelLine U line = none) :
    total K (fresh inFence) (line ++ rest) =
      line ++ total K (fresh (inFence ^^ togglesFence line)) rest := by
  rcases hline with ⟨body, hbody, rfl⟩ | ⟨-, hbody, rfl⟩
  · rw [sentinelLine_newline K, inlineSentinel_newline K, Option.map_eq_none_iff] at hplain
    rw [total_append, feed_line K hbody hplain, togglesFence_newline]
  · rw [List.append_nil, total_fresh_nil, List.append_nil, total,
      feed_body K hbody (hplain.imp_right And.left), finish_line K (hplain.imp_right And.right)]

theorem total_sentinel (K : Casing U) (hline : LineThen line rest)
    (hkind : sentinelLine U line = some kind) (hinline : inlineSentinel U line = none)
    (hunspaced : unspaced (Text.lstrip (chomp line)) = true) :
    total K (fresh false) (line ++ rest) =
      if kind = .extended then [] else total K (fresh false) rest := by
  have hheld : ∀ {body : Text}, sentinelLine U body = some kind →
      unspaced (Text.lstrip body) = true → held K body = true := by
    intro body hbody hclean
    obtain ⟨run, core, run', hcore, hrun, hrun', rfl⟩ := (sentinelLine_iff K).mp hbody
    rw [lstrip_core hcore hrun, unspaced, List.all_append, Bool.and_eq_true] at hclean
    cases run' with
    | nil =>
      rw [List.append_nil]
      exact held_core K hrun hcore hclean.1
    | cons c run' =>
      have hc := hrun' c (List.mem_cons_self ..)
      simp [hc] at hclean
  rcases hline with ⟨body, hbody, rfl⟩ | ⟨-, hbody, rfl⟩
  · rw [sentinelLine_newline K] at hkind
    rw [inlineSentinel_newline K, Option.map_eq_none_iff] at hinline
    rw [chomp_concat hbody (by decide)] at hunspaced
    rw [total_append, feed_sentinel K hbody (hheld hkind hunspaced) hinline hkind]
    split
    case isTrue hext => exact total_stopped (by simp [hext]) rest
    case isFalse hext =>
      have hgoing : (kind == Sentinel.extended) = false := beq_eq_false_iff_ne.mpr hext
      rw [hgoing]
      rfl
  · rw [chomp_unbroken hbody] at hunspaced
    rw [List.append_nil, total, feed_body K hbody (.inr hinline),
      shown_of_held (hheld hkind hunspaced), List.nil_append, finish, total_fresh_nil, ite_self]
    simp [reading, hkind]

theorem total_inline (K : Casing U) {sentinel content : Text} (hline : LineThen line rest)
    (hfound : inlineSentinel U line = some (sentinel, content))
    (hkind : searchSentinel U sentinel = some kind)
    (hunspaced : unspaced (Text.lstrip sentinel) = true) (hnear : sentinel ++ content = line) :
    total K (fresh false) (line ++ rest) =
      if kind = .extended then [] else total K (fresh false) (content ++ rest) := by
  obtain ⟨kind', run, core, gap, hcore, hrun, -, rfl, hsplit, hclosed, c, t, rfl, hc⟩ :=
    (inlineSentinel_iff K).mp hfound
  have hspace : ∀ d ∈ run, Text.isSpace d = true := fun d hd => isSpace_of_isBlank (hrun d hd)
  have hclean : unspaced core = true := by
    have hstrip : Text.lstrip (run ++ (core ++ [])) = core ++ [] := lstrip_core hcore hspace
    rw [List.append_nil] at hstrip
    rwa [hstrip] at hunspaced
  have hgap : gap = [] := by
    have hsame : c :: t = gap ++ c :: t := List.append_cancel_left (hnear.trans hsplit)
    simpa using hsame
  subst hgap
  have hbody : Unbroken (run ++ core) := by
    rcases hline with ⟨body, hbody, hend⟩ | ⟨-, hbody, -⟩
    · obtain ⟨front, last, hlast⟩ := exists_append_singleton c t
      rw [← hnear, hlast, ← List.append_assoc] at hend
      rw [← (List.append_inj' hend rfl).1] at hbody
      exact hbody.mono fun d hd => List.mem_append_left _ hd
    · rw [← hnear] at hbody
      exact hbody.mono fun d hd => List.mem_append_left _ hd
  have hname : kind' = kind := by
    rw [searchSentinel_core K hspace hcore] at hkind
    exact Option.some.inj hkind
  subst hname
  have hc' : c ≠ '>' := fun h => hclosed (congrArg some h)
  rw [← hnear, List.append_assoc, List.cons_append, total,
    feed_inline K hrun hcore hclean hbody hc hc']
  split
  · rfl
  · rfl

end AnswerStream

end QnscKb.Ask
