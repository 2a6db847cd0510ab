import QnscKb.Ask.InkedLines
import QnscKb.Ask.Reread

/-!
# Ask — NormalizedLines

What `normalize_answer_markdown` makes of the lines of a text: white space is taken off its ends,
and a line is rewritten in three places only, a fence with markers behind it (`FenceSplit`), one
with an open bracket behind it at the end (`OpenEnd`) and a bracket alone (`LoneBracket`).
-/

namespace QnscKb.Ask

open Lines (Rewrites trimEnds)

variable {U : Unicode} {K : Casing U}

/-! ### Lines that begin with a sentinel -/

/-- A line that begins with a sentinel, white space before it apart. -/
def begins (U : Unicode) (line : Text) : Bool := (sentinelHead U (Text.lstrip line)).isSome

/-- A line outside code fences begins with a sentinel. -/
def headed (U : Unicode) (inFence : Bool) : List Text → Bool
  | [] => false
  | line :: lines =>
    (!inFence && begins U line) || headed U (inFence ^^ togglesFence line) lines

variable {line run t rest : Text}

/-- A line begins with a sentinel where a core stands behind white space. -/
theorem begins_iff (K : Casing U) : begins U line = true ↔
    ∃ kind run core rest, Core U kind core ∧ (∀ c ∈ run, Text.isSpace c = true) ∧
      rest.head? ≠ some '>' ∧ line = run ++ (core ++ rest) := by
  rw [begins, Option.isSome_iff_exists]
  constructor
  · rintro ⟨⟨kind, rest⟩, hfound⟩
    obtain ⟨core, hcore, hline, hclosed⟩ := (sentinelHead_iff K).mp hfound
    obtain ⟨run, hrun, hsplit, -⟩ := Text.dropWhile_split Text.isSpace line
    exact ⟨kind, run, core, rest, hcore, hrun, hclosed, by rw [← hline, Text.lstrip, ← hsplit]⟩
  · rintro ⟨kind, run, core, rest, hcore, hrun, hclosed, rfl⟩
    exact ⟨(kind, rest), (sentinelHead_iff K).mpr ⟨core, hcore, lstrip_core hcore hrun, hclosed⟩⟩

theorem begins_run_append (hrun : ∀ c ∈ run, Text.isSpace c = true) (line : Text) :
    begins U (run ++ line) = begins U line := by
  rw [begins, Text.lstrip, List.dropWhile_append_of_pos hrun, ← Text.lstrip, ← begins]

theorem begins_concat (K : Casing U) {c : Char} (hspace : Text.isSpace c = true) (line : Text) :
    begins U (line ++ [c]) = begins U line := by
  rw [Bool.eq_iff_iff, begins_iff K, begins_iff K]
  constructor
  · rintro ⟨kind, run, core, rest, hcore, hrun, hclosed, hline⟩
    rcases List.eq_nil_or_concat rest with rfl | ⟨rest, d, rfl⟩
    · obtain ⟨t, rfl⟩ := hcore.last
      rw [List.append_nil, ← List.append_assoc] at hline
      obtain rfl : c = '>' := List.cons.inj (List.append_inj' hline rfl).2 |>.1
      cases hspace
    · rw [List.concat_eq_append] at hclosed hline
      rw [← List.append_assoc, ← List.append_assoc] at hline
      refine ⟨kind, run, core, rest, hcore, hrun, ?_, ?_⟩
      · cases rest with
        | nil => exact nofun
        | cons first rest => exact hclosed
      · rw [(List.append_inj' hline rfl).1, List.append_assoc]
  · rintro ⟨kind, run, core, rest, hcore, hrun, hclosed, rfl⟩
    refine ⟨kind, run, core, rest ++ [c], hcore, hrun, ?_, by simp⟩
    cases rest with
    | nil =>
      intro h
      obtain rfl : c = '>' := Option.some.inj h
      cases hspace
    | cons first rest => exact hclosed

/-- White space at its end does not change what a line begins with. -/
theorem begins_append_run (K : Casing U) (hrun : ∀ c ∈ run, Text.isSpace c = true) (line : Text) :
    begins U (line ++ run) = begins U line := by
  induction run using List.reverseRecOn with
  | nil => rw [List.append_nil]
  | append_singleton run c ih =>
    rw [← List.append_assoc, begins_concat K (hrun c (by simp)),
      ih fun d hd => hrun d (List.mem_append_left _ hd)]

theorem begins_of_togglesFence (h : togglesFence line = true) : begins U line = false := by
  obtain ⟨t, ht⟩ := lstrip_of_togglesFence h
  rw [begins, ht]
  rfl

theorem begins_of_bracket (hrun : ∀ c ∈ run, Text.isSpace c = true) :
    begins U (run ++ '[' :: t) = false := by
  rw [begins_run_append hrun]
  rfl

/-! ### Fences -/

def ticks : Text := ['`', '`', '`']

theorem rstrip_ticks_append (t : Text) : ∃ s, Text.rstrip (ticks ++ t) = ticks ++ s := by
  by_cases hblank : ∀ c ∈ t, Text.isSpace c = true
  · refine ⟨[], ?_⟩
    rw [Text.rstrip_append_run hblank]
    decide
  · exact ⟨Text.rstrip t, Text.rstrip_append hblank ticks⟩

/-- A fence line is ticks behind white space. -/
theorem togglesFence_iff : togglesFence line = true ↔
    ∃ run t, (∀ c ∈ run, Text.isSpace c = true) ∧ line = run ++ (ticks ++ t) := by
  have hticks : "```".toList = ticks := Text.toList_lit rfl
  rw [togglesFence, hticks, List.isPrefixOf_iff_prefix]
  constructor
  · rintro ⟨t, ht⟩
    obtain ⟨run, back, hline, hrun, -⟩ := Text.strip_split line
    exact ⟨run, t ++ back, hrun, by rw [hline, ← ht, List.append_assoc]⟩
  · rintro ⟨run, t, hrun, rfl⟩
    have hfront : Text.lstrip (ticks ++ t) = ticks ++ t :=
      Text.dropWhile_of_head fun c hc => by
        obtain rfl : '`' = c := Option.some.inj hc
        decide
    obtain ⟨s, hs⟩ := rstrip_ticks_append t
    rw [Text.strip_run_append hrun, Text.strip, hfront, hs]
    exact List.prefix_append ticks s

theorem togglesFence_of_bracket (hrun : ∀ c ∈ run, Text.isSpace c = true) :
    togglesFence (run ++ '[' :: t) = false := by
  rw [← Bool.not_eq_true]
  intro h
  obtain ⟨s, hs⟩ := lstrip_of_togglesFence h
  rw [Text.lstrip, List.dropWhile_append_of_pos hrun] at hs
  cases (List.cons.inj hs).1

theorem togglesFence_run_append (hrun : ∀ c ∈ run, Text.isSpace c = true) (line : Text) :
    togglesFence (run ++ line) = togglesFence line := by
  rw [togglesFence, Text.strip_run_append hrun, togglesFence]

/-- What follows the ticks does not change what a fence line is. -/
theorem togglesFence_ticks (before s s' : Text) :
    togglesFence (before ++ (ticks ++ s)) = togglesFence (before ++ (ticks ++ s')) := by
  suffices himp : ∀ s s', togglesFence (before ++ (ticks ++ s)) = true →
      togglesFence (before ++ (ticks ++ s')) = true from
    Bool.eq_iff_iff.mpr ⟨himp s s', himp s' s⟩
  intro s s' h
  obtain ⟨run, t, hrun, hline⟩ := togglesFence_iff.mp h
  rw [togglesFence_iff]
  rcases List.append_eq_append_iff.mp hline with ⟨more, rfl, hmore⟩ | ⟨more, rfl, hmore⟩
  · -- white space goes on behind the text before the fence, which has none in it
    cases more with
    | nil => exact ⟨before, s', by simpa using hrun, rfl⟩
    | cons c more =>
      obtain rfl : c = '`' := (List.cons.inj hmore).1.symm
      exact absurd (hrun '`' (by simp)) (by decide)
  · refine ⟨run, more ++ (ticks ++ s') |>.drop 3, hrun, ?_⟩
    have htake : (more ++ (ticks ++ s')).take 3 = ticks := by
      have hsame : (more ++ ticks).take 3 = ticks := by
        have hlength : 3 ≤ (more ++ ticks).length := by simp [ticks]
        have hcut := congrArg (List.take 3) hmore
        rw [← List.append_assoc more, List.take_append_of_le_length hlength] at hcut
        exact hcut.symm
      rw [← List.append_assoc, List.take_append_of_le_length (by simp [ticks]), hsame]
    conv_lhs => rw [List.append_assoc, ← List.take_append_drop 3 (more ++ (ticks ++ s')), htake]

/-- A sentinel holds no tick. -/
theorem Core.no_tick (K : Casing U) {kind : Sentinel} {core : Text} (h : Core U kind core) :
    '`' ∉ core := by
  obtain ⟨m, n, gap, w, gap', -, -, hgap, hgap', hw, rfl⟩ := h
  have hspace : ∀ t : Text, (∀ c ∈ t, Text.isSpace c = true) → '`' ∉ t := fun t ht hmem =>
    absurd (ht '`' hmem) (by decide)
  have hname : '`' ∉ w := fun hmem => absurd (mem_nameCharacters K hw '`' hmem) (by decide)
  simp [hspace gap hgap, hspace gap' hgap', hname]

theorem begins_ticks (K : Casing U) (before s s' : Text) :
    begins U (before ++ (ticks ++ s)) = begins U (before ++ (ticks ++ s')) := by
  suffices himp : ∀ s s', begins U (before ++ (ticks ++ s)) = true →
      begins U (before ++ (ticks ++ s')) = true from
    Bool.eq_iff_iff.mpr ⟨himp s s', himp s' s⟩
  intro s s' h
  obtain ⟨kind, run, core, rest, hcore, hrun, hclosed, hline⟩ := (begins_iff K).mp h
  rw [begins_iff K]
  rw [← List.append_assoc run] at hline
  rcases List.append_eq_append_iff.mp hline with ⟨more, hbefore, hmore⟩ | ⟨more, rfl, hmore⟩
  · cases more with
    | nil =>
      rw [List.append_nil] at hbefore
      exact ⟨kind, run, core, ticks ++ s', hcore, hrun, by simp [ticks], by
        rw [← hbefore, List.append_assoc]⟩
    | cons c more =>
      -- a sentinel holds no backtick
      obtain rfl : c = '`' := (List.cons.inj hmore).1.symm
      have hmem : '`' ∈ run ++ core := by
        rw [hbefore]
        simp
      rcases List.mem_append.mp hmem with hmem | hmem
      · exact absurd (hrun '`' hmem) (by decide)
      · exact absurd hmem (hcore.no_tick K)
  · refine ⟨kind, run, core, more ++ (ticks ++ s'), hcore, hrun, ?_, by simp⟩
    cases more with
    | nil => simp [ticks]
    | cons c more =>
      rw [hmore] at hclosed
      exact hclosed

/-! ### Line by line -/

/-- Induction on the lines of a text whose only breaks are newlines. -/
@[elab_as_elim]
theorem NewlinesOnly.induct {motive : Text → Prop} (h : NewlinesOnly t)
    (last : ∀ line, Unbroken line → motive line)
    (more : ∀ line t, Unbroken line → NewlinesOnly t → motive t → motive (line ++ '\n' :: t)) :
    motive t := by
  induction hlength : t.length using Nat.strong_induction_on generalizing t with
  | _ n ih =>
    obtain ⟨line, hline, hsplit, hstop⟩ := Text.dropWhile_split (fun c => !isLineBreak c) t
    have hunbroken : Unbroken line := fun c hc => by simpa using hline c hc
    cases hrest : t.dropWhile fun c => !isLineBreak c with
    | nil =>
      rw [hsplit, hrest, List.append_nil]
      exact last line hunbroken
    | cons c rest =>
      rw [hrest] at hsplit hstop
      have hbreak : isLineBreak c = true := by simpa using hstop c rfl
      obtain rfl := h c (by rw [hsplit]; simp) hbreak
      have hafter : NewlinesOnly rest := fun d hd => h d (by rw [hsplit]; simp [hd])
      rw [hsplit]
      refine more line rest hunbroken hafter (ih rest.length ?_ hafter rfl)
      rw [← hlength, hsplit]
      simp only [List.length_append, List.length_cons]
      omega

theorem newlinesOnly_unbroken (h : Unbroken line) : NewlinesOnly line := by
  intro c hc hbreak
  rw [h c hc] at hbreak
  cases hbreak

theorem newlinesOnly_append {s : Text} (hs : NewlinesOnly s) (ht : NewlinesOnly t) :
    NewlinesOnly (s ++ t) :=
  fun c hc => (List.mem_append.mp hc).elim (hs c) (ht c)

theorem newlinesOnly_cons (ht : NewlinesOnly t) : NewlinesOnly ('\n' :: t) :=
  newlinesOnly_append (s := ['\n']) (fun _ hc _ => List.mem_singleton.mp hc) ht

theorem Unbroken.no_newline (h : Unbroken line) : '\n' ∉ line :=
  fun hmem => absurd (h _ hmem) (by decide)

/-- A text that is empty or goes on with a new line. -/
def AtLineEnd (t : Text) : Prop := t = [] ∨ ∃ rest, t = '\n' :: rest

/-! ### Markers behind a fence -/

def FenceSplit (line : Text) (put : List Text) : Prop :=
  ∃ run gap marks, (∀ c ∈ run, isBlank c = true) ∧ (∀ c ∈ gap, isBlank c = true) ∧
    line = run ++ (ticks ++ (gap ++ '[' :: marks)) ∧ put = [run ++ ticks, '[' :: marks]

/-- The rest of a line as the first substitution leaves it: as it is, or with the markers behind the
ticks `lead` set apart. -/
def SetApart (lead line done : Text) : Prop :=
  done = line ∨ ∃ gap marks, (∀ c ∈ gap, isBlank c = true) ∧
    line = lead ++ (gap ++ '[' :: marks) ∧ done = lead ++ '\n' :: '\n' :: '[' :: marks

theorem SetApart.cons {lead done : Text} (h : SetApart lead line done) (c : Char) :
    SetApart (c :: lead) (c :: line) (c :: done) := by
  rcases h with rfl | ⟨gap, marks, hgap, rfl, rfl⟩
  · exact .inl rfl
  · exact .inr ⟨gap, marks, hgap, rfl, rfl⟩

theorem splitFenceMarkers_atLineEnd (h : AtLineEnd rest) (p : FencePlace) :
    splitFenceMarkers U p rest = splitFenceMarkers U .elsewhere rest := by
  rcases h with rfl | ⟨rest, rfl⟩
  · simp [splitFenceMarkers]
  · have hblank : isBlank '\n' = false := by decide
    cases p <;> simp [splitFenceMarkers, FencePlace.next, hblank]

theorem splitFenceMarkers_newline (rest : Text) : splitFenceMarkers U .elsewhere ('\n' :: rest) =
    '\n' :: splitFenceMarkers U .lineStart rest := by
  simp [splitFenceMarkers, FencePlace.next]

theorem splitFenceMarkers_elsewhere_append (h : '\n' ∉ line) (rest : Text) :
    splitFenceMarkers U .elsewhere (line ++ rest) =
      line ++ splitFenceMarkers U .elsewhere rest := by
  induction line with
  | nil => rfl
  | cons c line ih =>
    obtain ⟨hc, hline⟩ := List.ne_and_not_mem_of_not_mem_cons h
    have hnext : FencePlace.elsewhere.next c = .elsewhere := by
      simp [FencePlace.next, hc.symm]
    rw [List.cons_append, splitFenceMarkers_cons (by decide) (by decide), hnext, ih hline,
      List.cons_append]

theorem splitFenceMarkers_gap_append (h : '\n' ∉ line) (hrest : AtLineEnd rest) :
    splitFenceMarkers U .gap (line ++ rest) =
      line.dropWhile isBlank ++ splitFenceMarkers U .elsewhere rest := by
  induction line with
  | nil => exact splitFenceMarkers_atLineEnd hrest .gap
  | cons c line ih =>
    obtain ⟨hc, hline⟩ := List.ne_and_not_mem_of_not_mem_cons h
    rw [List.cons_append, splitFenceMarkers_gap, List.dropWhile_cons]
    split_ifs
    · exact ih hline
    · have hnext : FencePlace.gap.next c = .elsewhere := by simp [FencePlace.next, hc.symm]
      rw [hnext, splitFenceMarkers_elsewhere_append hline, List.cons_append]

theorem markersToLineEnd_head {fuel : Nat} (h : markersToLineEnd U fuel t = true) :
    ∃ rest, t = '[' :: rest := by
  cases t with
  | nil => cases fuel <;> cases h
  | cons c t => exact ⟨t, by rw [(markersToLineEnd_cons h).1]⟩

theorem dropWhile_bracket {fuel : Nat} (hrest : AtLineEnd rest)
    (h : markersToLineEnd U fuel ((line ++ rest).dropWhile isBlank) = true) :
    ∃ marks, line.dropWhile isBlank = '[' :: marks := by
  obtain ⟨marks, hmarks⟩ := markersToLineEnd_head h
  rw [List.dropWhile_append] at hmarks
  cases hline : line.dropWhile isBlank with
  | nil =>
    rw [hline] at hmarks
    rcases hrest with rfl | ⟨rest, rfl⟩
    · cases hmarks
    · cases (List.cons.inj hmarks).1
  | cons c t =>
    rw [hline] at hmarks
    obtain rfl : c = '[' := (List.cons.inj hmarks).1
    exact ⟨t, rfl⟩

/-- Behind a fence the line is kept, or its markers set apart. -/
theorem splitFenceMarkers_fence_append (h : '\n' ∉ line) (hrest : AtLineEnd rest) :
    ∃ done, splitFenceMarkers U .fence (line ++ rest) =
      done ++ splitFenceMarkers U .elsewhere rest ∧ SetApart [] line done := by
  cases line with
  | nil => exact ⟨[], splitFenceMarkers_atLineEnd hrest .fence, .inl rfl⟩
  | cons c line =>
    obtain ⟨hc, hline⟩ := List.ne_and_not_mem_of_not_mem_cons h
    rw [List.cons_append, splitFenceMarkers_fence]
    split_ifs with hmarks
    · obtain ⟨hblank, hmarks⟩ := (Bool.and_eq_true _ _).mp hmarks
      obtain ⟨gap, hgap, hsplit, -⟩ := Text.dropWhile_split isBlank line
      obtain ⟨marks, hdrop⟩ := dropWhile_bracket hrest hmarks
      rw [splitFenceMarkers_gap_append hline hrest, hdrop]
      refine ⟨'\n' :: '\n' :: '[' :: marks, rfl, .inr ⟨c :: gap, marks, ?_, ?_, rfl⟩⟩
      · exact List.forall_mem_cons.mpr ⟨hblank, hgap⟩
      · rw [← hdrop, List.nil_append, List.cons_append, ← hsplit]
    · have hnext : FencePlace.fence.next c = .elsewhere := by simp [FencePlace.next, hc.symm]
      rw [hnext, splitFenceMarkers_elsewhere_append hline]
      exact ⟨c :: line, rfl, .inl rfl⟩

theorem splitFenceMarkers_tick_append {p q : FencePlace} {lead : Text} (hgap : p ≠ .gap)
    (hfence : p ≠ .fence) (htick : p.next '`' = q)
    (helse : ∀ c, c ≠ '`' → c ≠ '\n' → p.next c = .elsewhere) (hrest : AtLineEnd rest)
    (hq : ∀ line, '\n' ∉ line → ∃ done, splitFenceMarkers U q (line ++ rest) =
        done ++ splitFenceMarkers U .elsewhere rest ∧ SetApart lead line done)
    (h : '\n' ∉ line) : ∃ done, splitFenceMarkers U p (line ++ rest) =
      done ++ splitFenceMarkers U .elsewhere rest ∧ SetApart ('`' :: lead) line done := by
  cases line with
  | nil => exact ⟨[], splitFenceMarkers_atLineEnd hrest p, .inl rfl⟩
  | cons c line =>
    obtain ⟨hc, hline⟩ := List.ne_and_not_mem_of_not_mem_cons h
    rw [List.cons_append, splitFenceMarkers_cons hgap hfence]
    by_cases heq : c = '`'
    · obtain ⟨done, hdone, hapart⟩ := hq line hline
      rw [heq, htick, hdone]
      exact ⟨'`' :: done, rfl, hapart.cons '`'⟩
    · rw [helse c heq hc.symm, splitFenceMarkers_elsewhere_append hline]
      exact ⟨c :: line, rfl, .inl rfl⟩

theorem splitFenceMarkers_tick1_append (h : '\n' ∉ line) (hrest : AtLineEnd rest) :
    ∃ done, splitFenceMarkers U .tick1 (line ++ rest) =
      done ++ splitFenceMarkers U .elsewhere rest ∧ SetApart ['`', '`'] line done := by
  refine splitFenceMarkers_tick_append (q := .tick2) (by decide) (by decide) rfl (fun c hc hnl => ?_)
    hrest (fun line hline => ?_) h
  · simp [FencePlace.next, hc, hnl]
  · refine splitFenceMarkers_tick_append (q := .fence) (by decide) (by decide) rfl (fun c hc hnl => ?_)
      hrest (fun line hline => splitFenceMarkers_fence_append hline hrest) hline
    simp [FencePlace.next, hc, hnl]

/-- The first substitution line by line: only what stands behind ticks is set apart. -/
theorem splitFenceMarkers_lineStart_append (h : '\n' ∉ line) (hrest : AtLineEnd rest) :
    ∃ done, splitFenceMarkers U .lineStart (line ++ rest) =
      done ++ splitFenceMarkers U .elsewhere rest ∧
        ∃ run, (∀ c ∈ run, isBlank c = true) ∧ SetApart (run ++ ticks) line done := by
  induction line with
  | nil =>
    exact ⟨[], splitFenceMarkers_atLineEnd hrest .lineStart, [], List.forall_mem_nil _, .inl rfl⟩
  | cons c line ih =>
    obtain ⟨hc, hline⟩ := List.ne_and_not_mem_of_not_mem_cons h
    rw [List.cons_append, splitFenceMarkers_cons (by decide) (by decide)]
    by_cases hblank : isBlank c = true
    · have hnext : FencePlace.lineStart.next c = .lineStart := by simp [FencePlace.next, hblank]
      obtain ⟨done, hdone, run, hrun, hapart⟩ := ih hline
      rw [hnext, hdone]
      exact ⟨c :: done, rfl, c :: run, List.forall_mem_cons.mpr ⟨hblank, hrun⟩, hapart.cons c⟩
    · by_cases htick : c = '`'
      · have hnext : FencePlace.lineStart.next '`' = .tick1 := rfl
        obtain ⟨done, hdone, hapart⟩ := splitFenceMarkers_tick1_append (U := U) hline hrest
        rw [htick, hnext, hdone]
        exact ⟨'`' :: done, rfl, [], List.forall_mem_nil _, hapart.cons '`'⟩
      · have hnext : FencePlace.lineStart.next c = .elsewhere := by
          simp [FencePlace.next, hblank, htick, hc.symm]
        rw [hnext, splitFenceMarkers_elsewhere_append hline]
        exact ⟨c :: line, rfl, [], List.forall_mem_nil _, .inl rfl⟩

theorem SetApart.inked {done : Text} (hrun : ∀ c ∈ run, isBlank c = true)
    (h : SetApart (run ++ ticks) line done) (hline : Unbroken line) : NewlinesOnly done ∧
      Rewrites FenceSplit (inkedLines line) (inkedLines done) := by
  rcases h with rfl | ⟨gap, marks, hgap, rfl, rfl⟩
  · exact ⟨newlinesOnly_unbroken hline, .refl _⟩
  · have hlead : Unbroken (run ++ ticks) := hline.mono fun c hc => List.mem_append_left _ hc
    have hmarks : Unbroken ('[' :: marks) :=
      hline.mono fun c hc => List.mem_append_right _ (List.mem_append_right _ hc)
    have hink : inkedLines (run ++ ticks ++ (gap ++ '[' :: marks)) =
        [run ++ (ticks ++ (gap ++ '[' :: marks))] := by
      have htick : Text.isSpace '`' = false := by decide
      rw [inkedLines_unbroken hline]
      simp [ticks, htick]
    have hset : inkedLines (run ++ ticks ++ '\n' :: '\n' :: '[' :: marks) =
        [run ++ ticks, '[' :: marks] := by
      have htick : Text.isSpace '`' = false := by decide
      have hbracket : Text.isSpace '[' = false := by decide
      rw [inkedLines_append_break (by decide), ← List.nil_append ('\n' :: '[' :: marks),
        inkedLines_append_break (by decide), inkedLines_nil, inkedLines_unbroken hlead,
        inkedLines_unbroken hmarks]
      simp [ticks, htick, hbracket]
    refine ⟨newlinesOnly_append (newlinesOnly_unbroken hlead) (newlinesOnly_cons
      (newlinesOnly_cons (newlinesOnly_unbroken hmarks))), ?_⟩
    rw [hink, hset]
    exact .single ⟨run, gap, marks, hrun, hgap, rfl, rfl⟩

/-- **The first substitution** sets apart the markers behind a fence, and keeps every other line. -/
theorem splitFenceMarkers_lines (h : NewlinesOnly t) :
    NewlinesOnly (splitFenceMarkers U .lineStart t) ∧
      Rewrites FenceSplit (inkedLines t) (inkedLines (splitFenceMarkers U .lineStart t)) := by
  refine NewlinesOnly.induct h (fun line hline => ?_) fun line t hline ht ih => ?_
  · obtain ⟨done, hdone, run, hrun, hapart⟩ :=
      splitFenceMarkers_lineStart_append (U := U) hline.no_newline (.inl rfl)
    have hnil : splitFenceMarkers U .elsewhere [] = [] := by simp [splitFenceMarkers]
    rw [List.append_nil, hnil, List.append_nil] at hdone
    rw [hdone]
    exact hapart.inked hrun hline
  · obtain ⟨done, hdone, run, hrun, hapart⟩ :=
      splitFenceMarkers_lineStart_append (U := U) hline.no_newline (.inr ⟨t, rfl⟩)
    obtain ⟨hnewlines, hlines⟩ := hapart.inked hrun hline
    rw [splitFenceMarkers_newline] at hdone
    rw [hdone, inkedLines_append_break (by decide), inkedLines_append_break (by decide)]
    exact ⟨newlinesOnly_append hnewlines (newlinesOnly_cons ih.1), hlines.append ih.2⟩

/-! ### A bracket left open at the end -/

/-- A fence with an open bracket behind it, without the bracket. -/
def OpenEnd (line : Text) (put : List Text) : Prop :=
  ∃ before gap gap', (∀ c ∈ gap, isBlank c = true) ∧ (∀ c ∈ gap', isBlank c = true) ∧
    line = before ++ (ticks ++ (gap ++ '[' :: gap')) ∧ put = [before ++ ticks]

/-- What the second substitution matches: ticks, and a bracket at the end of the text. -/
theorem openFenceEnd_split {stop : Text} (h : openFenceEnd t = some stop) :
    (stop = [] ∨ stop = ['\n']) ∧ ∃ gap gap', (∀ c ∈ gap, isBlank c = true) ∧
      (∀ c ∈ gap', isBlank c = true) ∧ t = ticks ++ (gap ++ '[' :: (gap' ++ stop)) := by
  have hticks : "```".toList = ticks := Text.toList_lit rfl
  rw [openFenceEnd, hticks] at h
  split_ifs at h with hprefix
  obtain ⟨s, rfl⟩ := List.isPrefixOf_iff_prefix.mp hprefix
  have hdrop : (ticks ++ s).drop 3 = s := rfl
  rw [hdrop] at h
  obtain ⟨gap, hgap, hs, -⟩ := Text.dropWhile_split isBlank s
  split at h
  next rest hrest =>
    obtain ⟨gap', hgap', hsplit, -⟩ := Text.dropWhile_split isBlank rest
    have hwhole : ticks ++ s = ticks ++ (gap ++ '[' :: (gap' ++ rest.dropWhile isBlank)) := by
      rw [hs, hrest, hsplit.symm]
    split at h
    next hstop =>
      obtain rfl := Option.some.inj h
      exact ⟨.inl rfl, gap, gap', hgap, hgap', by rw [hwhole, hstop]⟩
    next hstop =>
      obtain rfl := Option.some.inj h
      exact ⟨.inr rfl, gap, gap', hgap, hgap', by rw [hwhole, hstop]⟩
    next => cases h
  next => cases h

theorem dropOpenFenceEnd_cases (t : Text) : dropOpenFenceEnd t = t ∨
    ∃ before gap gap' stop, (stop = [] ∨ stop = ['\n']) ∧ (∀ c ∈ gap, isBlank c = true) ∧
      (∀ c ∈ gap', isBlank c = true) ∧
        t = before ++ (ticks ++ (gap ++ '[' :: (gap' ++ stop))) ∧
          dropOpenFenceEnd t = before ++ (ticks ++ stop) := by
  induction t with
  | nil => exact .inl rfl
  | cons c t ih =>
    have hticks : "```".toList = ticks := Text.toList_lit rfl
    rw [dropOpenFenceEnd]
    cases hend : openFenceEnd (c :: t) with
    | some stop =>
      obtain ⟨hstop, gap, gap', hgap, hgap', hsplit⟩ := openFenceEnd_split hend
      exact .inr ⟨[], gap, gap', stop, hstop, hgap, hgap', hsplit, rfl⟩
    | none =>
      rcases ih with hsame | ⟨before, gap, gap', stop, hstop, hgap, hgap', hsplit, hdone⟩
      · exact .inl (congrArg (c :: ·) hsame)
      · refine .inr ⟨c :: before, gap, gap', stop, hstop, hgap, hgap', ?_, congrArg (c :: ·) hdone⟩
        rw [hsplit]
        rfl

theorem lastLine_split (t : Text) : ∃ head line, Unbroken line ∧ t = head ++ line ∧
    ∀ s, inkedLines (head ++ s) = inkedLines head ++ inkedLines s := by
  induction t using List.reverseRecOn with
  | nil => exact ⟨[], [], unbroken_nil, rfl, fun s => by rw [inkedLines_nil]; rfl⟩
  | append_singleton t c ih =>
    cases hbreak : isLineBreak c with
    | true =>
      refine ⟨t ++ [c], [], unbroken_nil, by simp, fun s => ?_⟩
      rw [List.append_assoc, List.singleton_append, inkedLines_append_break hbreak,
        inkedLines_append_break hbreak, inkedLines_nil, List.append_nil]
    | false =>
      obtain ⟨head, line, hline, rfl, hhead⟩ := ih
      refine ⟨head, line ++ [c], fun d hd => ?_, by simp, hhead⟩
      exact (List.mem_append.mp hd).elim (hline d) fun hlast => by
        rwa [List.mem_singleton.mp hlast]

/-- **The second substitution** rewrites at most the last line. -/
theorem dropOpenFenceEnd_lines (h : NewlinesOnly t) :
    NewlinesOnly (dropOpenFenceEnd t) ∧
      Rewrites OpenEnd (inkedLines t) (inkedLines (dropOpenFenceEnd t)) := by
  rcases dropOpenFenceEnd_cases t with
    hsame | ⟨before, gap, gap', stop, hstop, hgap, hgap', rfl, hdone⟩
  · rw [hsame]
    exact ⟨h, .refl _⟩
  · have hnewlines : NewlinesOnly (before ++ (ticks ++ stop)) := fun c hc => h c (by
      simp only [List.mem_append, List.mem_cons] at hc ⊢
      tauto)
    rw [hdone]
    refine ⟨hnewlines, ?_⟩
    obtain ⟨head, line, hline, rfl, hhead⟩ := lastLine_split before
    have hblank : ∀ {c}, isBlank c = true → isLineBreak c = false := by
      intro c hc
      have hcases : c = ' ' ∨ c = '\t' := by simpa [isBlank] using hc
      rcases hcases with rfl | rfl <;> decide
    have hwhole : Unbroken (line ++ (ticks ++ (gap ++ '[' :: gap'))) := by
      intro c hc
      simp only [List.mem_append, List.mem_cons] at hc
      rcases hc with hc | hc | hc | rfl | hc
      · exact hline c hc
      · rw [List.eq_of_mem_replicate (show c ∈ List.replicate 3 '`' from hc)]
        rfl
      · exact hblank (hgap c hc)
      · rfl
      · exact hblank (hgap' c hc)
    have hshort : Unbroken (line ++ ticks) := hwhole.mono fun c hc => by
      simp only [List.mem_append] at hc ⊢
      exact hc.imp_right Or.inl
    have hbreaks : ∀ c ∈ stop, isLineBreak c = true := by
      rcases hstop with rfl | rfl
      · exact List.forall_mem_nil _
      · exact List.forall_mem_singleton.mpr rfl
    have htick : Text.isSpace '`' = false := by decide
    have hbefore : head ++ line ++ (ticks ++ (gap ++ '[' :: (gap' ++ stop))) =
        head ++ (line ++ (ticks ++ (gap ++ '[' :: gap')) ++ stop) := by simp
    have hafter : head ++ line ++ (ticks ++ stop) = head ++ (line ++ ticks ++ stop) := by simp
    rw [hbefore, hafter, hhead, hhead, inkedLines_append_run hbreaks, inkedLines_append_run hbreaks,
      inkedLines_unbroken hwhole, inkedLines_unbroken hshort]
    refine (Rewrites.refl _).append ?_
    rw [List.filter_cons_of_pos (by simp [ticks, htick]),
      List.filter_cons_of_pos (by simp [ticks, htick])]
    exact .single ⟨line, gap, gap', hgap, hgap', rfl, rfl⟩

/-! ### A bracket alone -/

/-- A line that holds a bracket and nothing else is emptied. -/
def LoneBracket (line : Text) (put : List Text) : Prop :=
  ∃ run run', (∀ c ∈ run, isBlank c = true) ∧ (∀ c ∈ run', isBlank c = true) ∧
    line = run ++ '[' :: run' ∧ put = []

theorem takeWhile_lineEnd (h : '\n' ∉ line) (hrest : AtLineEnd rest) :
    (line ++ rest).takeWhile (· != '\n') = line := by
  refine Text.takeWhile_run (fun c hc => ?_) fun c hc => ?_
  · rw [bne_iff_ne]
    rintro rfl
    exact h hc
  · rcases hrest with rfl | ⟨rest, rfl⟩
    · cases hc
    · obtain rfl : '\n' = c := Option.some.inj hc
      rfl

/-- Whether a line is a lone bracket does not depend on the lines behind it. -/
theorem loneBracket_append (h : '\n' ∉ line) (hrest : AtLineEnd rest) :
    loneBracket (line ++ rest) = loneBracket line := by
  have hline := takeWhile_lineEnd h (.inl rfl)
  rw [List.append_nil] at hline
  rw [loneBracket, loneBracket, takeWhile_lineEnd h hrest, hline]

theorem loneBracket_split (h : '\n' ∉ line) (hlone : loneBracket line = true) :
    LoneBracket line [] := by
  have hline := takeWhile_lineEnd h (.inl rfl)
  rw [List.append_nil] at hline
  rw [loneBracket, hline, beq_iff_eq, List.filter_eq_cons_iff] at hlone
  obtain ⟨run, run', hsplit, hrun, -, hrun'⟩ := hlone
  refine ⟨run, run', fun c hc => ?_, fun c hc => ?_, hsplit, rfl⟩
  · simpa using hrun c hc
  · simpa using List.filter_eq_nil_iff.mp hrun' c hc

theorem dropLoneBrackets_atLineEnd (h : AtLineEnd rest) (p : LinePlace) :
    dropLoneBrackets p rest = dropLoneBrackets .inLine rest := by
  rcases h with rfl | ⟨rest, rfl⟩
  · simp [dropLoneBrackets]
  · cases p <;> simp [dropLoneBrackets, loneBracket]

theorem dropLoneBrackets_inLine_append (h : '\n' ∉ line) (rest : Text) :
    dropLoneBrackets .inLine (line ++ rest) = line ++ dropLoneBrackets .inLine rest := by
  induction line with
  | nil => rfl
  | cons c line ih =>
    obtain ⟨hc, hline⟩ := List.ne_and_not_mem_of_not_mem_cons h
    rw [List.cons_append, dropLoneBrackets, if_neg hc.symm, ih hline, List.cons_append]

theorem dropLoneBrackets_dropped_append (h : '\n' ∉ line) (hrest : AtLineEnd rest) :
    dropLoneBrackets .dropped (line ++ rest) = dropLoneBrackets .inLine rest := by
  induction line with
  | nil => exact dropLoneBrackets_atLineEnd hrest .dropped
  | cons c line ih =>
    obtain ⟨hc, hline⟩ := List.ne_and_not_mem_of_not_mem_cons h
    rw [List.cons_append, dropLoneBrackets, if_neg hc.symm, ih hline]

/-- The third substitution line by line: a lone bracket goes, any other line stays. -/
theorem dropLoneBrackets_line_append (h : '\n' ∉ line) (hrest : AtLineEnd rest) :
    dropLoneBrackets .lineStart (line ++ rest) =
      (if loneBracket line then [] else line) ++ dropLoneBrackets .inLine rest := by
  cases line with
  | nil => exact dropLoneBrackets_atLineEnd hrest .lineStart
  | cons c line =>
    obtain ⟨hc, hline⟩ := List.ne_and_not_mem_of_not_mem_cons h
    rw [List.cons_append, dropLoneBrackets, ← List.cons_append, loneBracket_append h hrest,
      if_neg hc.symm]
    split_ifs with hlone
    · exact dropLoneBrackets_dropped_append hline hrest
    · rw [dropLoneBrackets_inLine_append hline, List.cons_append]

theorem dropLoneBrackets_inked (hline : Unbroken line) :
    NewlinesOnly (if loneBracket line then [] else line) ∧ Rewrites LoneBracket (inkedLines line)
      (inkedLines (if loneBracket line then [] else line)) := by
  split_ifs with hlone
  · obtain ⟨run, run', hrun, hrun', rfl, -⟩ := loneBracket_split hline.no_newline hlone
    have hbracket : Text.isSpace '[' = false := by decide
    rw [inkedLines_unbroken hline, List.filter_cons_of_pos (by simp [hbracket])]
    exact ⟨newlinesOnly_unbroken unbroken_nil, .single ⟨run, run', hrun, hrun', rfl, rfl⟩⟩
  · exact ⟨newlinesOnly_unbroken hline, .refl _⟩

/-- **The third substitution** empties the lines of a lone bracket, and keeps every other line. -/
theorem dropLoneBrackets_lines (h : NewlinesOnly t) :
    NewlinesOnly (dropLoneBrackets .lineStart t) ∧
      Rewrites LoneBracket (inkedLines t) (inkedLines (dropLoneBrackets .lineStart t)) := by
  refine NewlinesOnly.induct h (fun line hline => ?_) fun line t hline ht ih => ?_
  · have hdone := dropLoneBrackets_line_append hline.no_newline (.inl rfl)
    have hnil : dropLoneBrackets .inLine [] = [] := by simp [dropLoneBrackets]
    rw [List.append_nil, hnil, List.append_nil] at hdone
    rw [hdone]
    exact dropLoneBrackets_inked hline
  · have hdone := dropLoneBrackets_line_append hline.no_newline (.inr ⟨t, rfl⟩)
    have hnewline : dropLoneBrackets .inLine ('\n' :: t) = '\n' :: dropLoneBrackets .lineStart t := by
      simp [dropLoneBrackets]
    obtain ⟨hnewlines, hlines⟩ := dropLoneBrackets_inked hline
    rw [hdone, hnewline, inkedLines_append_break (by decide), inkedLines_append_break (by decide)]
    exact ⟨newlinesOnly_append hnewlines (newlinesOnly_cons ih.1), hlines.append ih.2⟩

/-- What normalisation makes of lines: their ends are trimmed, and each line is kept or rewritten by
one of the three substitutions. -/
def Normalized (lines out : List Text) : Prop :=
  ∃ first second third, Rewrites FenceSplit (trimEnds Text.isSpace lines) first ∧
    Rewrites OpenEnd first second ∧ Rewrites LoneBracket second third ∧
      out = trimEnds Text.isSpace third

/-- Stripping a text trims the two ends of its lines that are not blank. -/
theorem inkedLines_strip (t : Text) :
    inkedLines (Text.strip t) = trimEnds Text.isSpace (inkedLines t) :=
  Lines.inked_trim (fun _ => isSpace_of_isLineBreak) t

/-- **The lines of a normalised text.** -/
theorem normalizeAnswerMarkdown_lines (h : NewlinesOnly t) :
    Normalized (inkedLines t) (inkedLines (normalizeAnswerMarkdown U t)) := by
  have hstrip : NewlinesOnly (Text.strip t) := fun c hc => h c (Text.mem_of_mem_strip hc)
  obtain ⟨hfirst, hsplit⟩ := splitFenceMarkers_lines (U := U) hstrip
  obtain ⟨hsecond, hopen⟩ := dropOpenFenceEnd_lines hfirst
  obtain ⟨-, hlone⟩ := dropLoneBrackets_lines hsecond
  rw [inkedLines_strip] at hsplit
  exact ⟨_, _, _, hsplit, hopen, hlone, inkedLines_strip _⟩

/-! ### No line that begins with a sentinel comes or goes -/

/-- A change of one line that leaves what the line is read for. -/
def Unread (U : Unicode) (f : Text → Text) : Prop :=
  ∀ line, togglesFence (f line) = togglesFence line ∧ begins U (f line) = begins U line

theorem unread_dropWhile : Unread U (List.dropWhile Text.isSpace) := by
  intro line
  obtain ⟨run, hrun, hsplit, -⟩ := Text.dropWhile_split Text.isSpace line
  have htoggles := togglesFence_run_append hrun (line.dropWhile Text.isSpace)
  have hbegins := begins_run_append (U := U) hrun (line.dropWhile Text.isSpace)
  rw [← hsplit] at htoggles hbegins
  exact ⟨htoggles.symm, hbegins.symm⟩

theorem unread_rdropWhile (K : Casing U) : Unread U (List.rdropWhile Text.isSpace) := by
  intro line
  obtain ⟨run, hrun, hback⟩ := Text.rstrip_prefix line
  have htoggles := togglesFence_append_run hrun (Text.rstrip line)
  have hbegins := begins_append_run K hrun (Text.rstrip line)
  rw [← hback] at htoggles hbegins
  exact ⟨htoggles.symm, hbegins.symm⟩

theorem headed_modifyHead {f : Text → Text} (hf : Unread U f) (lines : List Text)
    (inFence : Bool) : headed U inFence (lines.modifyHead f) = headed U inFence lines := by
  cases lines with
  | nil => rfl
  | cons line lines => rw [List.modifyHead_cons, headed, headed, (hf line).1, (hf line).2]

theorem headed_concat {f : Text → Text} (hf : Unread U f) (lines : List Text) (line : Text)
    (inFence : Bool) :
    headed U inFence (lines ++ [f line]) = headed U inFence (lines ++ [line]) := by
  induction lines generalizing inFence with
  | nil => exact headed_modifyHead hf [line] inFence
  | cons first lines ih => rw [List.cons_append, headed, ih, List.cons_append, headed]

/-- White space at the ends of a text does not make a line begin with a sentinel. -/
theorem headed_trimEnds (K : Casing U) (lines : List Text) (inFence : Bool) :
    headed U inFence (trimEnds Text.isSpace lines) = headed U inFence lines := by
  rw [trimEnds, ← headed_modifyHead unread_dropWhile lines]
  rcases List.eq_nil_or_concat (lines.modifyHead (List.dropWhile Text.isSpace)) with
    hnil | ⟨init, last, hlast⟩
  · rw [hnil]
    rfl
  · rw [hlast, List.concat_eq_append, List.modifyLast_concat, headed_concat (unread_rdropWhile K)]

/-- Rewriting lines keeps what they begin with, if every rewriting does. -/
theorem headed_rewrites {R : Text → List Text → Prop} {lines new : List Text}
    (hput : ∀ line put, R line put → ∀ inFence rest,
      headed U inFence (put ++ rest) = headed U inFence (line :: rest))
    (h : Rewrites R lines new) (inFence : Bool) :
    headed U inFence new = headed U inFence lines := by
  induction h generalizing inFence with
  | nil => rfl
  | kept _ ih => rw [headed, ih, headed]
  | replaced hline _ ih => rw [hput _ _ hline, headed, ih, headed]

variable {put : List Text}

theorem headed_fenceSplit (h : FenceSplit line put) (inFence : Bool) (rest : List Text) :
    headed U inFence (put ++ rest) = headed U inFence (line :: rest) := by
  obtain ⟨run, gap, marks, hrun, -, rfl, rfl⟩ := h
  have hspace : ∀ c ∈ run, Text.isSpace c = true := fun c hc => isSpace_of_isBlank (hrun c hc)
  have hfence : ∀ t, togglesFence (run ++ (ticks ++ t)) = true := fun t =>
    togglesFence_iff.mpr ⟨run, t, hspace, rfl⟩
  have hline : togglesFence (run ++ ticks) = true := by
    have hline := hfence []
    rwa [List.append_nil] at hline
  have hmarks : togglesFence ('[' :: marks) = false :=
    togglesFence_of_bracket (List.forall_mem_nil _)
  have hhead : begins U ('[' :: marks) = false := begins_of_bracket (List.forall_mem_nil _)
  rw [List.cons_append, List.singleton_append, headed, headed, headed, hline, hfence, hmarks,
    begins_of_togglesFence hline, begins_of_togglesFence (hfence _), hhead]
  simp

theorem headed_openEnd (K : Casing U) (h : OpenEnd line put) (inFence : Bool) (rest : List Text) :
    headed U inFence (put ++ rest) = headed U inFence (line :: rest) := by
  obtain ⟨before, gap, gap', -, -, rfl, rfl⟩ := h
  have htoggles := togglesFence_ticks before (gap ++ '[' :: gap') []
  have hbegins := begins_ticks K before (gap ++ '[' :: gap') []
  rw [List.append_nil] at htoggles hbegins
  rw [List.singleton_append, headed, headed, htoggles, hbegins]

theorem headed_loneBracket (h : LoneBracket line put) (inFence : Bool) (rest : List Text) :
    headed U inFence (put ++ rest) = headed U inFence (line :: rest) := by
  obtain ⟨run, run', hrun, -, rfl, rfl⟩ := h
  have hspace : ∀ c ∈ run, Text.isSpace c = true := fun c hc => isSpace_of_isBlank (hrun c hc)
  rw [List.nil_append, headed, begins_of_bracket hspace, togglesFence_of_bracket hspace,
    Bool.xor_false, Bool.and_false, Bool.false_or]

/-- **Normalisation neither brings nor takes a line that begins with a sentinel.** -/
theorem Normalized.headed (K : Casing U) {lines out : List Text} (h : Normalized lines out) :
    headed U false out = headed U false lines := by
  obtain ⟨first, second, third, hsplit, hopen, hlone, rfl⟩ := h
  rw [headed_trimEnds K, headed_rewrites (fun _ _ => headed_loneBracket) hlone,
    headed_rewrites (fun _ _ => headed_openEnd K) hopen,
    headed_rewrites (fun _ _ => headed_fenceSplit) hsplit, headed_trimEnds K]

end QnscKb.Ask
