import QnscKb.Ask.Stream

/-!
# Ask — SentinelLines

What the sentinel patterns of `src/rag/answer_sections.py` match, and the lines of a text whose only
line breaks are newlines (`Ended`).
-/

namespace QnscKb.Ask

variable {U : Unicode} {K : Casing U}

/-! ### Spelling -/

def Sentinel.name : Sentinel → Text
  | .grounded => ['g', 'r', 'o', 'u', 'n', 'd', 'e', 'd']
  | .extended => ['e', 'x', 't', 'e', 'n', 'd', 'e', 'd']
  | .close => ['e', 'n', 'd']

variable {w t rest core line run : Text}

/-- A literal is read off a text exactly where a beginning of it folds to the literal. -/
theorem afterLiteral_iff :
    afterLiteral U w t = some rest ↔ ∃ a, t = a ++ rest ∧ a.map U.fold = w := by
  induction w generalizing t with
  | nil =>
    rw [afterLiteral, Option.some.injEq]
    constructor
    · rintro rfl
      exact ⟨[], rfl, rfl⟩
    · rintro ⟨a, rfl, ha⟩
      rw [List.map_eq_nil_iff.mp ha, List.nil_append]
  | cons p w ih =>
    cases t with
    | nil =>
      refine ⟨fun h => by simp [afterLiteral] at h, ?_⟩
      rintro ⟨a, ht, ha⟩
      obtain ⟨rfl, -⟩ := List.append_eq_nil_iff.mp ht.symm
      cases ha
    | cons c t =>
      rw [afterLiteral]
      split
      case isTrue hc =>
        rw [ih]
        constructor
        · rintro ⟨a, rfl, rfl⟩
          exact ⟨c :: a, rfl, by rw [List.map_cons, hc]⟩
        · rintro ⟨_ | ⟨c', a⟩, ht, ha⟩
          · cases ha
          · obtain ⟨rfl, rfl⟩ := List.cons.inj ht
            exact ⟨a, rfl, (List.cons.inj ha).2⟩
      case isFalse hc =>
        refine ⟨nofun, ?_⟩
        rintro ⟨_ | ⟨c', a⟩, ht, ha⟩
        · cases ha
        · obtain ⟨rfl, rfl⟩ := List.cons.inj ht
          exact absurd (List.cons.inj ha).1 hc

/-- A literal is not read where a character of it differs. -/
theorem afterLiteral_none {a : Text} {p q : Char} {i : Nat} (hp : w[i]? = some p)
    (hq : (a.map U.fold)[i]? = some q) (hne : p ≠ q) : afterLiteral U w (a ++ rest) = none := by
  rw [← Option.not_isSome_iff_eq_none, Option.isSome_iff_exists]
  rintro ⟨rest', h⟩
  obtain ⟨a', ht, rfl⟩ := afterLiteral_iff.mp h
  have hsame : (a'.map U.fold)[i]? = (a.map U.fold)[i]? := by
    rw [List.getElem?_map, List.getElem?_map]
    obtain ⟨hi, -⟩ := List.getElem?_eq_some_iff.mp hp
    obtain ⟨hi', -⟩ := List.getElem?_eq_some_iff.mp hq
    rw [List.length_map] at hi hi'
    rw [← List.getElem?_append_left hi, ← ht, List.getElem?_append_left hi']
  rw [hp, hq] at hsame
  exact hne (Option.some.inj hsame)

variable {kind : Sentinel}

/-- A sentinel's name is read where a beginning of the text folds to it. -/
theorem sentinelName_iff :
    sentinelName U t = some (kind, rest) ↔
      ∃ w, t = w ++ rest ∧ w.map U.fold = kind.name := by
  have hgrounded : "grounded".toList = Sentinel.name .grounded := Text.toList_lit rfl
  have hextended : "extended".toList = Sentinel.name .extended := Text.toList_lit rfl
  have hend : "end".toList = Sentinel.name .close := Text.toList_lit rfl
  rw [sentinelName, hgrounded, hextended, hend]
  constructor
  · intro h
    split at h
    next found hfound =>
      obtain ⟨rfl, rfl⟩ := Prod.mk.inj (Option.some.inj h)
      exact afterLiteral_iff.mp hfound
    next =>
      split at h
      next found hfound =>
        obtain ⟨rfl, rfl⟩ := Prod.mk.inj (Option.some.inj h)
        exact afterLiteral_iff.mp hfound
      next =>
        obtain ⟨found, hfound, hpair⟩ := Option.map_eq_some_iff.mp h
        obtain ⟨rfl, rfl⟩ := Prod.mk.inj hpair
        exact afterLiteral_iff.mp hfound
  · rintro ⟨w, rfl, hw⟩
    have hfound : afterLiteral U kind.name (w ++ rest) = some rest :=
      afterLiteral_iff.mpr ⟨w, rfl, hw⟩
    cases kind with
    | grounded => rw [hfound]
    | extended =>
      have hno : afterLiteral U (Sentinel.name .grounded) (w ++ rest) = none :=
        afterLiteral_none (i := 0) (p := 'g') (q := 'e') rfl (by rw [hw]; rfl) (by decide)
      rw [hno, hfound]
    | close =>
      have hno : afterLiteral U (Sentinel.name .grounded) (w ++ rest) = none :=
        afterLiteral_none (i := 0) (p := 'g') (q := 'e') rfl (by rw [hw]; rfl) (by decide)
      have hno' : afterLiteral U (Sentinel.name .extended) (w ++ rest) = none :=
        afterLiteral_none (i := 1) (p := 'x') (q := 'n') rfl (by rw [hw]; rfl) (by decide)
      rw [hno, hno', hfound]
      rfl

/-- Two to four angles are read, and no fifth may follow. -/
theorem angles_iff {a : Char} :
    angles a t = some rest ↔ ∃ n, 2 ≤ n ∧ n ≤ 4 ∧ t = List.replicate n a ++ rest ∧
      rest.head? ≠ some a := by
  have hrun : ∀ t : Text, t.takeWhile (· == a) = List.replicate (t.takeWhile (· == a)).length a := by
    intro t
    rw [List.eq_replicate_iff]
    exact ⟨rfl, fun c hc => by simpa using List.mem_takeWhile_imp hc⟩
  constructor
  · intro h
    rw [angles] at h
    split at h
    case isTrue hn =>
      refine ⟨_, hn.1, hn.2, ?_⟩
      have hdrop : t.drop (t.takeWhile (· == a)).length = t.dropWhile (· == a) := by
        calc t.drop (t.takeWhile (· == a)).length
            = (t.takeWhile (· == a) ++ t.dropWhile (· == a)).drop (t.takeWhile (· == a)).length := by
              rw [List.takeWhile_append_dropWhile]
          _ = t.dropWhile (· == a) := List.drop_left
      obtain rfl := Option.some.inj h
      rw [← hrun t, hdrop, List.takeWhile_append_dropWhile]
      refine ⟨rfl, fun hhead => ?_⟩
      have hstop := List.head?_dropWhile_not (· == a) t
      rw [hhead] at hstop
      simp at hstop
    case isFalse => cases h
  · rintro ⟨n, hlo, hhi, rfl, hhead⟩
    have htake : (List.replicate n a ++ rest).takeWhile (· == a) = List.replicate n a := by
      cases rest with
      | nil => simp
      | cons c rest =>
        have hc : (c == a) = false := by
          rw [beq_eq_false_iff_ne]
          rintro rfl
          exact hhead rfl
        simp [hc]
    rw [angles, htake, List.length_replicate, if_pos ⟨hlo, hhi⟩]
    have hdrop : (List.replicate n a ++ rest).drop n = rest := by simp
    rw [hdrop]

/-- The characters a sentinel's name is spelled with. -/
def nameCharacters : Text := sentinelLetters ++ sentinelLetters.map Char.toUpper

theorem name_letters (kind : Sentinel) : ∀ p ∈ kind.name, p ∈ sentinelLetters := by
  have hall : kind.name.all sentinelLetters.contains = true := by cases kind <;> decide
  exact fun p hp => List.contains_iff_mem.mp (List.all_eq_true.mp hall p hp)

/-- A text that folds to a sentinel's name is spelled with the characters of the names. -/
theorem mem_nameCharacters (K : Casing U) (hw : w.map U.fold = kind.name) :
    ∀ c ∈ w, c ∈ nameCharacters := by
  intro c hc
  have hname : U.fold c ∈ kind.name := hw ▸ List.mem_map_of_mem hc
  have hletter := name_letters kind _ hname
  rcases (K.fold_letter c _ hletter).mp rfl with heq | heq
  · rw [heq]
    exact List.mem_append_left _ hletter
  · rw [heq]
    exact List.mem_append_right _ (List.mem_map_of_mem hletter)

/-- No character of a name is white space, an angle or a newline. -/
theorem nameCharacters_plain : ∀ c ∈ nameCharacters,
    Text.isSpace c = false ∧ c ≠ '<' ∧ c ≠ '>' ∧ c ≠ '\n' := by
  have hall : nameCharacters.all (fun c => decide
      (Text.isSpace c = false ∧ c ≠ '<' ∧ c ≠ '>' ∧ c ≠ '\n')) = true := by decide
  exact fun c hc => of_decide_eq_true (List.all_eq_true.mp hall c hc)

/-- A sentinel from its first angle to its last. -/
def Core (U : Unicode) (kind : Sentinel) (core : Text) : Prop :=
  ∃ m n gap w gap', (2 ≤ m ∧ m ≤ 4) ∧ (2 ≤ n ∧ n ≤ 4) ∧ (∀ c ∈ gap, Text.isSpace c = true) ∧
    (∀ c ∈ gap', Text.isSpace c = true) ∧ w.map U.fold = kind.name ∧
    core = List.replicate m '<' ++ (gap ++ (w ++ (gap' ++ List.replicate n '>')))

theorem name_ne_nil (hw : w.map U.fold = kind.name) : w ≠ [] := by
  rintro rfl
  cases kind <;> cases hw

theorem head_name (K : Casing U) (hw : w.map U.fold = kind.name) :
    ∀ c ∈ (w ++ rest).head?, Text.isSpace c = false ∧ c ≠ '<' := by
  obtain ⟨c, w, rfl⟩ := List.exists_cons_of_ne_nil (name_ne_nil hw)
  intro first hfirst
  obtain rfl : c = first := Option.some.inj hfirst
  have hplain := nameCharacters_plain c (mem_nameCharacters K hw c (List.mem_cons_self ..))
  exact ⟨hplain.1, hplain.2.1⟩

/-- A sentinel is read at the head of a text exactly where its core stands, and no more angles. -/
theorem sentinelHead_iff (K : Casing U) :
    sentinelHead U t = some (kind, rest) ↔
      ∃ core, Core U kind core ∧ t = core ++ rest ∧ rest.head? ≠ some '>' := by
  constructor
  · intro h
    simp only [sentinelHead, Option.bind_eq_bind, Option.bind_eq_some_iff, Option.pure_def,
      Option.some.injEq, Prod.mk.injEq, Prod.exists] at h
    obtain ⟨name, hname, _, after, hkind, close, hclose, rfl, rfl⟩ := h
    obtain ⟨m, hlo, hhi, rfl, -⟩ := angles_iff.mp hname
    obtain ⟨w, hw, hfold⟩ := sentinelName_iff.mp hkind
    obtain ⟨n, hlo', hhi', hn, hhead⟩ := angles_iff.mp hclose
    obtain ⟨gap, hgap, hsplit, -⟩ := Text.dropWhile_split Text.isSpace name
    obtain ⟨gap', hgap', hsplit', -⟩ := Text.dropWhile_split Text.isSpace after
    refine ⟨_, ⟨m, n, gap, w, gap', ⟨hlo, hhi⟩, ⟨hlo', hhi'⟩, hgap, hgap', hfold, rfl⟩, ?_, hhead⟩
    rw [Text.lstrip] at hw hn
    rw [hsplit, hw, hsplit', hn]
    simp only [List.append_assoc]
  · rintro ⟨core, ⟨m, n, gap, w, gap', hm, hn, hgap, hgap', hfold, rfl⟩, rfl, hhead⟩
    have hafter : Text.lstrip (gap' ++ (List.replicate n '>' ++ rest)) =
        List.replicate n '>' ++ rest := by
      refine Text.dropWhile_run hgap' ?_
      obtain ⟨n, rfl⟩ := Nat.exists_eq_add_of_le' hn.1
      intro first hfirst
      obtain rfl : '>' = first := Option.some.inj hfirst
      decide
    have hname : Text.lstrip (gap ++ (w ++ (gap' ++ (List.replicate n '>' ++ rest)))) =
        w ++ (gap' ++ (List.replicate n '>' ++ rest)) :=
      Text.dropWhile_run hgap fun c hc => (head_name K hfold c hc).1
    have hstop : (gap ++ (w ++ (gap' ++ (List.replicate n '>' ++ rest)))).head? ≠ some '<' := by
      cases gap with
      | nil => exact fun h => (head_name K hfold '<' h).2 rfl
      | cons c gap =>
        intro h
        have hc := hgap c (List.mem_cons_self ..)
        obtain rfl : c = '<' := Option.some.inj h
        revert hc
        decide
    simp only [sentinelHead, List.append_assoc, Option.bind_eq_bind]
    rw [angles_iff.mpr ⟨m, hm.1, hm.2, rfl, hstop⟩, Option.bind_some, hname,
      sentinelName_iff.mpr ⟨w, rfl, hfold⟩, Option.bind_some, hafter,
      angles_iff.mpr ⟨n, hn.1, hn.2, rfl, hhead⟩]
    rfl

theorem isSpace_of_isBlank {c : Char} (h : isBlank c = true) : Text.isSpace c = true := by
  have hc : c = ' ' ∨ c = '\t' := by simpa [isBlank] using h
  rcases hc with rfl | rfl <;> decide

/-- A sentinel's core begins with an angle. -/
theorem Core.first (h : Core U kind core) : ∃ t, core = '<' :: t := by
  obtain ⟨m, n, gap, w, gap', hm, -, -, -, -, rfl⟩ := h
  obtain ⟨m, rfl⟩ := Nat.exists_eq_add_of_le' hm.1
  exact ⟨_, rfl⟩

/-- A sentinel's core ends with an angle. -/
theorem Core.last (h : Core U kind core) : ∃ t, core = t ++ ['>'] := by
  obtain ⟨m, n, gap, w, gap', -, hn, -, -, -, rfl⟩ := h
  obtain ⟨n, rfl⟩ := Nat.exists_eq_add_of_le' hn.1
  refine ⟨List.replicate m '<' ++ (gap ++ (w ++ (gap' ++ List.replicate (n + 1) '>'))), ?_⟩
  simp only [List.append_assoc, List.replicate_succ' (n := n + 1)]

/-- A sentinel is angles, a name and white space between them. -/
theorem sentinelLine_iff (K : Casing U) :
    sentinelLine U line = some kind ↔ ∃ run core run', Core U kind core ∧
      (∀ c ∈ run, Text.isSpace c = true) ∧ (∀ c ∈ run', Text.isSpace c = true) ∧
      line = run ++ (core ++ run') := by
  constructor
  · intro h
    simp only [sentinelLine, Option.bind_eq_bind, Option.bind_eq_some_iff, Option.pure_def,
      Option.some.injEq, Prod.exists, Option.guard_eq_some', List.isEmpty_iff] at h
    obtain ⟨found, rest, hhead, -, hstrip, rfl⟩ := h
    obtain ⟨core, hcore, hsplit, -⟩ := (sentinelHead_iff K).mp hhead
    obtain ⟨run, hrun, hline, -⟩ := Text.dropWhile_split Text.isSpace line
    refine ⟨run, core, rest, hcore, hrun, Text.strip_nil_iff.mp hstrip, ?_⟩
    rw [hline, ← hsplit]
    rfl
  · rintro ⟨run, core, run', hcore, hrun, hrun', rfl⟩
    obtain ⟨t, rfl⟩ := hcore.first
    have hlstrip : Text.lstrip (run ++ ('<' :: t ++ run')) = '<' :: t ++ run' := by
      refine Text.dropWhile_run hrun ?_
      intro c hc
      obtain rfl : '<' = c := Option.some.inj hc
      decide
    have hhead : run'.head? ≠ some '>' := by
      intro h
      have hspace := hrun' _ (List.mem_of_head? h)
      revert hspace
      decide
    rw [sentinelLine, hlstrip, (sentinelHead_iff K).mpr ⟨_, hcore, rfl, hhead⟩]
    simp [Text.strip_nil_iff.mpr hrun']

theorem take_before (a b : Text) : (a ++ b).take ((a ++ b).length - b.length) = a := by
  rw [List.length_append, Nat.add_sub_cancel, List.take_left]

/-- **An inline sentinel** is a core with blanks before it, and text after it on its line. -/
theorem inlineSentinel_iff (K : Casing U) {sentinel content : Text} :
    inlineSentinel U line = some (sentinel, content) ↔ ∃ kind run core gap, Core U kind core ∧
      (∀ c ∈ run, isBlank c = true) ∧ (∀ c ∈ gap, isBlank c = true) ∧ sentinel = run ++ core ∧
      line = sentinel ++ (gap ++ content) ∧ (gap ++ content).head? ≠ some '>' ∧
      ∃ c t, content = c :: t ∧ Text.isSpace c = false := by
  constructor
  · intro h
    simp only [inlineSentinel, Option.bind_eq_bind, Option.bind_eq_some_iff, Option.pure_def,
      Option.some.injEq, Prod.exists, Prod.mk.injEq, Option.guard_eq_some'] at h
    obtain ⟨kind, rest, hhead, -, hvisible, hsentinel, rfl⟩ := h
    obtain ⟨core, hcore, hsplit, hclosed⟩ := (sentinelHead_iff K).mp hhead
    obtain ⟨run, hrun, hline, -⟩ := Text.dropWhile_split isBlank line
    obtain ⟨gap, hgap, hrest, -⟩ := Text.dropWhile_split isBlank rest
    have hwhole : line = run ++ core ++ rest := by rw [hline, hsplit, List.append_assoc]
    have htake : run ++ core = sentinel := by
      rw [← hsentinel, hwhole, take_before]
    refine ⟨kind, run, core, gap, hcore, hrun, hgap, htake.symm, ?_, by rwa [← hrest], ?_⟩
    · rw [← htake, ← hrest, hwhole]
    · cases hcontent : rest.dropWhile isBlank with
      | nil => simp [hcontent] at hvisible
      | cons c t => exact ⟨c, t, rfl, by simpa [hcontent] using hvisible⟩
  · rintro ⟨kind, run, core, gap, hcore, hrun, hgap, rfl, rfl, hclosed, c, t, rfl, hc⟩
    have hline : (run ++ core ++ (gap ++ c :: t)).dropWhile isBlank = core ++ (gap ++ c :: t) := by
      rw [List.append_assoc]
      refine Text.dropWhile_run hrun ?_
      obtain ⟨t, rfl⟩ := hcore.first
      intro first hfirst
      obtain rfl : '<' = first := Option.some.inj hfirst
      decide
    have hrest : (gap ++ c :: t).dropWhile isBlank = c :: t := by
      refine Text.dropWhile_run hgap ?_
      intro first hfirst
      obtain rfl : c = first := Option.some.inj hfirst
      rw [← Bool.not_eq_true]
      intro hblank
      rw [isSpace_of_isBlank hblank] at hc
      cases hc
    rw [inlineSentinel, hline, (sentinelHead_iff K).mpr ⟨core, hcore, rfl, hclosed⟩]
    simp only [Option.bind_eq_bind, Option.bind_some, hrest, take_before]
    simp [hc]

/-- What follows an inline sentinel may go on. -/
theorem inlineSentinel_append (K : Casing U) {sentinel content : Text} (more : Text)
    (h : inlineSentinel U line = some (sentinel, content)) :
    inlineSentinel U (line ++ more) = some (sentinel, content ++ more) := by
  obtain ⟨kind, run, core, gap, hcore, hrun, hgap, rfl, rfl, hclosed, c, t, rfl, hc⟩ :=
    (inlineSentinel_iff K).mp h
  refine (inlineSentinel_iff K).mpr
    ⟨kind, run, core, gap, hcore, hrun, hgap, rfl, by simp, ?_, c, t ++ more, rfl, hc⟩
  cases gap with
  | nil => exact hclosed
  | cons d gap => exact hclosed

/-! ### The end of a line -/

theorem isSpace_newline : ∀ c ∈ ['\n'], Text.isSpace c = true :=
  List.forall_mem_singleton.mpr (by decide)

/-- White space at its end does not change what a fence line is. -/
theorem togglesFence_append_run (hrun : ∀ c ∈ run, Text.isSpace c = true) (line : Text) :
    togglesFence (line ++ run) = togglesFence line := by
  rw [togglesFence, Text.strip_append_run hrun, togglesFence]

theorem togglesFence_newline (line : Text) : togglesFence (line ++ ['\n']) = togglesFence line :=
  togglesFence_append_run isSpace_newline line

/-- White space at its end does not change what a sentinel line is. -/
theorem sentinelLine_concat (K : Casing U) {c : Char} (hspace : Text.isSpace c = true)
    (line : Text) : sentinelLine U (line ++ [c]) = sentinelLine U line := by
  refine Option.ext fun kind => ?_
  rw [sentinelLine_iff K, sentinelLine_iff K]
  constructor
  · rintro ⟨run, core, run', hcore, hrun, hrun', hline⟩
    rcases List.eq_nil_or_concat run' with rfl | ⟨run', d, rfl⟩
    · obtain ⟨t, rfl⟩ := hcore.last
      rw [List.append_nil, ← List.append_assoc] at hline
      obtain rfl : c = '>' := List.cons.inj (List.append_inj' hline rfl).2 |>.1
      cases hspace
    · rw [List.concat_eq_append] at hrun' hline
      rw [← List.append_assoc, ← List.append_assoc] at hline
      refine ⟨run, core, run', hcore, hrun, fun e he => hrun' e (List.mem_append_left _ he), ?_⟩
      rw [(List.append_inj' hline rfl).1, List.append_assoc]
  · rintro ⟨run, core, run', hcore, hrun, hrun', rfl⟩
    refine ⟨run, core, run' ++ [c], hcore, hrun, fun d hd => ?_, by simp⟩
    exact (List.mem_append.mp hd).elim (hrun' d) fun hlast => by rwa [List.mem_singleton.mp hlast]

theorem sentinelLine_newline (K : Casing U) (line : Text) :
    sentinelLine U (line ++ ['\n']) = sentinelLine U line :=
  sentinelLine_concat K (by decide) line

/-- White space at the end of a line goes to the text behind its sentinel. -/
theorem inlineSentinel_concat (K : Casing U) {e : Char} (hspace : Text.isSpace e = true)
    (line : Text) : inlineSentinel U (line ++ [e]) =
      (inlineSentinel U line).map fun found => (found.1, found.2 ++ [e]) := by
  cases h : inlineSentinel U line with
  | some found => exact inlineSentinel_append K _ h
  | none =>
    rw [Option.map_none, ← Option.not_isSome_iff_eq_none, Option.isSome_iff_exists]
    rintro ⟨⟨sentinel, content⟩, hfound⟩
    obtain ⟨kind, run, core, gap, hcore, hrun, hgap, rfl, hline, hclosed, c, t, rfl, hc⟩ :=
      (inlineSentinel_iff K).mp hfound
    rcases List.eq_nil_or_concat t with rfl | ⟨t, d, rfl⟩
    · rw [← List.append_assoc] at hline
      obtain rfl : e = c := List.cons.inj (List.append_inj' hline rfl).2 |>.1
      rw [hspace] at hc
      cases hc
    · rw [List.concat_eq_append] at hline hclosed
      have hsplit : line ++ [e] = (run ++ core ++ (gap ++ c :: t)) ++ [d] := by
        rw [hline]
        simp
      have hline' := (List.append_inj' hsplit rfl).1
      have hsome : inlineSentinel U line = some (run ++ core, c :: t) := by
        refine (inlineSentinel_iff K).mpr
          ⟨kind, run, core, gap, hcore, hrun, hgap, rfl, hline', ?_, c, t, rfl, hc⟩
        cases gap with
        | nil => exact hclosed
        | cons e gap => exact hclosed
      rw [h] at hsome
      cases hsome

theorem inlineSentinel_newline (K : Casing U) (line : Text) :
    inlineSentinel U (line ++ ['\n']) =
      (inlineSentinel U line).map fun found => (found.1, found.2 ++ ['\n']) :=
  inlineSentinel_concat K (by decide) line

/-! ### Fences -/

/-- A fence line starts with a tick, so it is no sentinel. -/
theorem lstrip_of_togglesFence (h : togglesFence line = true) :
    ∃ t, Text.lstrip line = '`' :: t := by
  obtain ⟨run, -, hback⟩ := Text.rstrip_prefix (Text.lstrip line)
  obtain ⟨t, ht⟩ := List.isPrefixOf_iff_prefix.mp h
  have hticks : "```".toList = ['`', '`', '`'] := Text.toList_lit rfl
  refine ⟨['`', '`'] ++ (t ++ run), ?_⟩
  rw [hback, ← Text.strip, ← ht, hticks]
  simp only [List.cons_append, List.nil_append]

/-- White space before a core is stripped, and nothing else. -/
theorem lstrip_core (hcore : Core U kind core) (hrun : ∀ c ∈ run, Text.isSpace c = true) :
    Text.lstrip (run ++ (core ++ rest)) = core ++ rest := by
  obtain ⟨t, rfl⟩ := hcore.first
  refine Text.dropWhile_run hrun ?_
  intro c hc
  obtain rfl : '<' = c := Option.some.inj hc
  decide

theorem strip_core (hcore : Core U kind core) (hrun : ∀ c ∈ run, Text.isSpace c = true) :
    Text.strip (run ++ core) = core := by
  have hfront : Text.lstrip (run ++ (core ++ [])) = core ++ [] := lstrip_core hcore hrun
  rw [List.append_nil] at hfront
  obtain ⟨t, rfl⟩ := hcore.last
  rw [Text.strip, hfront, Text.rstrip, List.reverse_concat, List.dropWhile_cons_of_neg (by decide),
    List.reverse_cons, List.reverse_reverse]

/-- A fence line is no sentinel line. -/
theorem sentinelLine_of_togglesFence (K : Casing U) (h : togglesFence line = true) :
    sentinelLine U line = none := by
  obtain ⟨t, ht⟩ := lstrip_of_togglesFence h
  rw [← Option.not_isSome_iff_eq_none, Option.isSome_iff_exists]
  rintro ⟨kind, hkind⟩
  obtain ⟨run, core, run', hcore, hrun, -, rfl⟩ := (sentinelLine_iff K).mp hkind
  rw [lstrip_core hcore hrun] at ht
  obtain ⟨t', rfl⟩ := hcore.first
  cases ht

/-- A fence line holds no inline sentinel. -/
theorem inlineSentinel_of_togglesFence (K : Casing U) (h : togglesFence line = true) :
    inlineSentinel U line = none := by
  obtain ⟨t, ht⟩ := lstrip_of_togglesFence h
  rw [← Option.not_isSome_iff_eq_none, Option.isSome_iff_exists]
  rintro ⟨⟨sentinel, content⟩, hfound⟩
  obtain ⟨kind, run, core, gap, hcore, hrun, -, rfl, rfl, -⟩ := (inlineSentinel_iff K).mp hfound
  rw [List.append_assoc, lstrip_core hcore fun c hc => isSpace_of_isBlank (hrun c hc)] at ht
  obtain ⟨t', rfl⟩ := hcore.first
  cases ht

/-! ### Lines and their ends -/

def Unbroken (line : Text) : Prop :=
  ∀ c ∈ line, isLineBreak c = false

theorem Unbroken.mono {a b : Text} (h : Unbroken b) (hsub : ∀ c ∈ a, c ∈ b) : Unbroken a :=
  fun c hc => h c (hsub c hc)

theorem unbroken_nil : Unbroken [] :=
  fun _ h => absurd h List.not_mem_nil

/-- The lines of a text whose only line breaks are newlines: all but the last have theirs. -/
def Ended : List Text → Prop
  | [] => True
  | line :: lines =>
    ((∃ body, Unbroken body ∧ line = body ++ ['\n']) ∨
      line ≠ [] ∧ Unbroken line ∧ lines = []) ∧ Ended lines

variable {lines : List Text}

theorem Ended.sublist {lines' : List Text} (h : Ended lines') (hsub : lines.Sublist lines') :
    Ended lines := by
  induction hsub with
  | slnil => exact h
  | cons line hsub ih => exact ih h.2
  | cons_cons line hsub ih =>
    refine ⟨h.1.imp_right fun ⟨hne, hline, hlast⟩ => ⟨hne, hline, ?_⟩, ih h.2⟩
    subst hlast
    exact List.sublist_nil.mp hsub

/-- What holds no break is read into the line that is open. -/
theorem splitLinesFrom_append (h : Unbroken line) (read rest : Text) :
    splitLinesFrom read (line ++ rest) = splitLinesFrom (read ++ line) rest := by
  induction line generalizing read with
  | nil => rw [List.nil_append, List.append_nil]
  | cons c line ih =>
    obtain ⟨hc, hline⟩ := List.forall_mem_cons.mp h
    have hreturn : c ≠ '\r' := by
      rintro rfl
      cases hc
    rw [List.cons_append, splitLinesFrom, if_neg (by simp [hc]), ih hline, List.append_assoc]
    · rfl
    · rintro t rfl
      exact absurd rfl hreturn

/-- A newline ends the line that is open. -/
theorem splitLinesFrom_newline (read rest : Text) :
    splitLinesFrom read ('\n' :: rest) = (read ++ ['\n']) :: splitLinesFrom [] rest := by
  rw [splitLinesFrom, if_pos (by decide)]
  intro t h
  cases h

/-- A text is its lines. -/
theorem splitLines_flatten (h : Ended lines) : splitLines lines.flatten = lines := by
  induction lines with
  | nil => rfl
  | cons line lines ih =>
    obtain ⟨⟨body, hbody, rfl⟩ | ⟨hne, hline, rfl⟩, hlines⟩ := h
    · rw [splitLines, List.flatten_cons, List.append_assoc, splitLinesFrom_append hbody,
        List.nil_append, List.singleton_append, splitLinesFrom_newline, ← splitLines, ih hlines]
    · have hempty : line.isEmpty = false := by simpa using hne
      rw [splitLines, List.flatten_cons, List.flatten_nil, splitLinesFrom_append hline,
        List.nil_append, splitLinesFrom, hempty]
      rfl

def NewlinesOnly (t : Text) : Prop :=
  ∀ c ∈ t, isLineBreak c = true → c = '\n'

/-- The lines of a text with newlines alone have ends, and are the text. -/
theorem splitLinesFrom_spec {read : Text} (hread : Unbroken read) (ht : NewlinesOnly t) :
    Ended (splitLinesFrom read t) ∧ (splitLinesFrom read t).flatten = read ++ t := by
  induction t generalizing read with
  | nil =>
    rw [splitLinesFrom]
    cases hempty : read.isEmpty with
    | true =>
      rw [List.isEmpty_iff.mp hempty]
      exact ⟨trivial, rfl⟩
    | false =>
      refine ⟨⟨.inr ⟨by simpa using hempty, hread, rfl⟩, trivial⟩, ?_⟩
      simp
  | cons c t ih =>
    obtain ⟨hc, htail⟩ := List.forall_mem_cons.mp ht
    cases hbreak : isLineBreak c with
    | true =>
      obtain rfl := hc hbreak
      obtain ⟨hended, hflat⟩ := ih unbroken_nil htail
      rw [splitLinesFrom_newline]
      exact ⟨⟨.inl ⟨read, hread, rfl⟩, hended⟩, by rw [List.flatten_cons, hflat]; simp⟩
    | false =>
      have hone : Unbroken [c] := List.forall_mem_singleton.mpr hbreak
      have hread' : Unbroken (read ++ [c]) := fun d hd =>
        (List.mem_append.mp hd).elim (hread d) (hone d)
      rw [← List.singleton_append, splitLinesFrom_append hone]
      obtain ⟨hended, hflat⟩ := ih hread' htail
      exact ⟨hended, by rw [hflat, List.append_assoc]⟩

theorem ended_splitLines (ht : NewlinesOnly t) : Ended (splitLines t) :=
  (splitLinesFrom_spec unbroken_nil ht).1

theorem flatten_splitLines (ht : NewlinesOnly t) : (splitLines t).flatten = t :=
  (splitLinesFrom_spec unbroken_nil ht).2

/-- Lines are their contents, joined by newlines, up to white space at the end. -/
theorem flatten_eq_join_chomp (h : Ended lines) :
    ∃ run, (∀ c ∈ run, Text.isSpace c = true) ∧
      lines.flatten = Text.join ['\n'] (lines.map chomp) ++ run := by
  induction lines with
  | nil => exact ⟨[], List.forall_mem_nil _, rfl⟩
  | cons line lines ih =>
    obtain ⟨⟨body, hbody, rfl⟩ | ⟨-, hline, rfl⟩, hlines⟩ := h
    · have hchomp : chomp (body ++ ['\n']) = body := chomp_concat hbody (by decide)
      cases lines with
      | nil => exact ⟨['\n'], isSpace_newline, by simp [hchomp, Text.join]⟩
      | cons next lines =>
        obtain ⟨run, hrun, hflat⟩ := ih hlines
        refine ⟨run, hrun, ?_⟩
        rw [List.flatten_cons, hflat]
        simp only [List.map_cons, Text.join_cons_cons, hchomp, List.append_assoc]
    · exact ⟨[], List.forall_mem_nil _, by simp [chomp_unbroken hline, Text.join]⟩

theorem strip_join_chomp (h : Ended lines) :
    Text.strip lines.flatten = Text.strip (Text.join ['\n'] (lines.map chomp)) := by
  obtain ⟨run, hrun, hflat⟩ := flatten_eq_join_chomp h
  rw [hflat, Text.strip_append_run hrun]

end QnscKb.Ask
