import QnscKb.Ask.NormalizedLines

/-!
# Ask — SectionsKept

Which lines of an output end in which section, and when no sentinel is left there.  Outside code
fences a sentinel at the head of a line is a marker and what stands behind it a line of its own
(`meant`); the first `GROUNDED` and the `EXTENDED` that follows it say where each line goes
(`sections`).
-/

namespace QnscKb.Ask

variable {U : Unicode} {K : Casing U}

/-! ### The sections a marker opens -/

/-- Where a line stands: before the first `GROUNDED`, behind it, behind the `EXTENDED` after it. -/
inductive Place
  | start | grounded | extended
  deriving DecidableEq, Repr

def Place.next : Place → Sentinel → Place
  | .start, .grounded => .grounded
  | .grounded, .extended => .extended
  | place, _ => place

def Place.put (place : Place) (lines : List Text) (rest : List Text × List Text) :
    List Text × List Text :=
  match place with
  | .extended => (rest.1, lines ++ rest.2)
  | _ => (lines ++ rest.1, rest.2)

/-- The lines of the two sections, markers left out. -/
def sections : Place → List (Text × Option Sentinel) → List Text × List Text
  | _, [] => ([], [])
  | place, (_, some kind) :: lines => sections (place.next kind) lines
  | place, (line, none) :: lines => place.put [line] (sections place lines)

theorem Place.put_nil (place : Place) (rest : List Text × List Text) : place.put [] rest = rest := by
  cases place <;> rfl

theorem Place.put_append (place : Place) (a b : List Text) (rest : List Text × List Text) :
    place.put (a ++ b) rest = place.put a (place.put b rest) := by
  cases place <;> simp [Place.put]

variable {place : Place} {line line' : Text}

theorem Place.put_inj {rest rest' : List Text × List Text} :
    place.put [line] rest = place.put [line'] rest' ↔ line = line' ∧ rest = rest' := by
  cases place <;> simp [Place.put, Prod.ext_iff, and_assoc, and_left_comm]

variable {lines : List (Text × Option Sentinel)}

/-- Lines that do not move the place go where they stand. -/
theorem sections_append (h : ∀ line ∈ lines, ∀ kind, line.2 = some kind → place.next kind = place)
    (rest : List (Text × Option Sentinel)) : sections place (lines ++ rest) =
      place.put ((unmarked lines).map Prod.fst) (sections place rest) := by
  induction lines with
  | nil => exact (place.put_nil _).symm
  | cons line lines ih =>
    obtain ⟨hline, hlines⟩ := List.forall_mem_cons.mp h
    obtain ⟨line, _ | kind⟩ := line
    · have hunmarked : unmarked ((line, none) :: lines) = (line, none) :: unmarked lines := rfl
      rw [List.cons_append, sections, ih hlines, ← place.put_append]
      rfl
    · rw [List.cons_append, sections, hline kind rfl, ih hlines]
      rfl

theorem sections_all (h : ∀ line ∈ lines, ∀ kind, line.2 = some kind → place.next kind = place) :
    sections place lines = place.put ((unmarked lines).map Prod.fst) ([], []) := by
  rw [← List.append_nil lines, sections_append h, List.append_nil, sections]

/-! ### The texts handed to normalisation -/

def inkMarks (lines : List (Text × Option Sentinel)) : List (Text × Option Sentinel) :=
  lines.flatMap fun line => (inkedLines line.1).map fun body => (body, line.2)

theorem inkMarks_append (a b : List (Text × Option Sentinel)) :
    inkMarks (a ++ b) = inkMarks a ++ inkMarks b :=
  List.flatMap_append

theorem inkMarks_fst (lines : List (Text × Option Sentinel)) :
    (inkMarks lines).map Prod.fst = (lines.map Prod.fst).flatMap inkedLines := by
  induction lines with
  | nil => rfl
  | cons line lines ih =>
    have hline : inkMarks [line] = (inkedLines line.1).map fun body => (body, line.2) := by
      simp [inkMarks]
    rw [← List.singleton_append, inkMarks_append, List.map_append, ih, hline, List.map_map]
    exact congrArg (· ++ _) (List.map_id _)

theorem mem_inkMarks {body : Text × Option Sentinel} (h : body ∈ inkMarks lines) :
    ∃ line ∈ lines, line.2 = body.2 := by
  obtain ⟨line, hline, hbody⟩ := List.mem_flatMap.mp h
  obtain ⟨text, -, rfl⟩ := List.mem_map.mp hbody
  exact ⟨line, hline, rfl⟩

/-- What `split_answer_sections` hands to `normalize_answer_markdown`. -/
def sectionTexts (U : Unicode) (raw : Text) : Text × Text :=
  match (markedLines U raw).dropWhile fun line => line.2 != some .grounded with
  | [] => (stripSentinelLines U (breakInlineSentinels U raw), [])
  | _ :: after =>
    (stripSentinelLines U
        (((markedLines U raw).takeWhile fun line => line.2 != some .grounded).flatMap Prod.fst ++
          (after.takeWhile fun line => line.2 != some .extended).flatMap Prod.fst),
      stripSentinelLines U
        ((after.dropWhile fun line => line.2 != some .extended).tail.flatMap Prod.fst))

theorem splitAnswerSections_texts (raw : Text) : splitAnswerSections U raw =
    (normalizeAnswerMarkdown U (sectionTexts U raw).1,
      normalizeAnswerMarkdown U (sectionTexts U raw).2) := by
  rw [splitAnswerSections_eq, sectionTexts]
  cases (markedLines U raw).dropWhile fun line => line.2 != some .grounded with
  | nil => rfl
  | cons marker after => rfl

theorem newlinesOnly_sectionTexts (raw : Text) :
    NewlinesOnly (sectionTexts U raw).1 ∧ NewlinesOnly (sectionTexts U raw).2 := by
  rw [sectionTexts]
  cases (markedLines U raw).dropWhile fun line => line.2 != some .grounded with
  | nil => exact ⟨newlinesOnly_stripSentinels _, fun _ hc => absurd hc List.not_mem_nil⟩
  | cons marker after => exact ⟨newlinesOnly_stripSentinels _, newlinesOnly_stripSentinels _⟩

def passMarks (U : Unicode) (lines : List Text) : List (Text × Option Sentinel) :=
  sentinelLinesFrom U false (broken U false lines)

/-- The marks of a text are those of its inked lines, read in three passes. -/
theorem inkMarks_markedLines (K : Casing U) (raw : Text) :
    inkMarks (markedLines U raw) = passMarks U (inkedLines raw) := by
  rw [inkMarks, markedLines, sentinelLines_inked K, inkedLines_breakInline K, passMarks]

variable {kind : Sentinel}

variable {inFence : Bool}

theorem Marked.behind {before after : List (Text × Option Sentinel)}
    (h : Marked U inFence (before ++ (line, some kind) :: after)) : Marked U false after := by
  induction before generalizing inFence with
  | nil =>
    obtain ⟨hmark, hrest⟩ := marked_cons.mp h
    cases inFence with
    | true => simp [markOf] at hmark
    | false => rwa [togglesFence_of_mark hmark, Bool.xor_false] at hrest
  | cons first before ih => exact ih (marked_cons.mp h).2

theorem inkedLines_kept (K : Casing U) (hterminated : Terminated (lines.map Prod.fst))
    (hmarked : Marked U false (inkMarks lines)) :
    inkedLines (stripSentinelLines U (lines.flatMap Prod.fst)) =
      (unmarked (inkMarks lines)).map Prod.fst := by
  rw [inkedLines_stripSentinels K, List.flatMap_def, inkedLines_flatten hterminated, ← inkMarks_fst,
    hmarked]

theorem inkedLines_kept_append (K : Casing U) {before after : List (Text × Option Sentinel)}
    (hterminated : Terminated (before.map Prod.fst ++ after.map Prod.fst))
    (hmarked : Marked U false (inkMarks before ++ inkMarks after)) :
    inkedLines (stripSentinelLines U (before.flatMap Prod.fst ++ after.flatMap Prod.fst)) =
      (unmarked (inkMarks before)).map Prod.fst ++ (unmarked (inkMarks after)).map Prod.fst := by
  rw [← inkMarks_append] at hmarked
  rw [← List.map_append] at hterminated
  rw [← List.flatMap_append, inkedLines_kept K hterminated hmarked, inkMarks_append,
    unmarked_append, List.map_append]

theorem sentinelLine_of_mark {lines : List Text} {line : Text × Option Sentinel}
    (h : line ∈ sentinelLinesFrom U inFence lines) (hkind : line.2 = some kind) :
    sentinelLine U line.1 = some kind := by
  induction lines generalizing inFence with
  | nil => cases h
  | cons first lines ih =>
    rw [sentinelLinesFrom_cons] at h
    rcases List.mem_cons.mp h with rfl | h
    · rw [markOf] at hkind
      split_ifs at hkind
      exact hkind
    · exact ih h

theorem inkMarks_marker {t : Text} {line : Text × Option Sentinel} (h : line ∈ sentinelLines U t)
    (hkind : line.2 = some kind) : ∃ body, inkMarks [line] = [(body, some kind)] := by
  have hline : inkMarks [line] = (inkedLines line.1).map fun body => (body, line.2) := by
    simp [inkMarks]
  rcases (oneLine_sentinelLines h).cases with ⟨hblank, -⟩ | ⟨body, run, -, -, -, hinked⟩
  · have hmark := sentinelLine_of_mark h hkind
    rw [sentinelLine_of_blank hblank] at hmark
    cases hmark
  · exact ⟨body, by rw [hline, hinked, hkind]; rfl⟩

theorem terminated_markedLines (raw : Text) : Terminated ((markedLines U raw).map Prod.fst) := by
  rw [markedLines, sentinelLines, sentinelLinesFrom_fst]
  exact terminated_splitLines _

theorem inkedLines_stripNil : inkedLines (stripSentinelLines U []) = [] := inkedLines_nil

theorem next_of_ne (hplace : ∀ kind', kind' ≠ kind → place.next kind' = place)
    (h : ∀ line ∈ lines, (line.2 != some kind) = true) :
    ∀ line ∈ inkMarks lines, ∀ kind', line.2 = some kind' → place.next kind' = place := by
  intro body hbody kind' hkind'
  obtain ⟨line, hline, hmark⟩ := mem_inkMarks hbody
  refine hplace kind' fun heq => ?_
  have hne := h line hline
  rw [hmark, hkind', heq] at hne
  simp at hne

theorem start_next (h : kind ≠ .grounded) : Place.start.next kind = .start := by
  cases kind with
  | grounded => exact absurd rfl h
  | extended => rfl
  | close => rfl

theorem grounded_next (h : kind ≠ .extended) : Place.grounded.next kind = .grounded := by
  cases kind with
  | extended => exact absurd rfl h
  | grounded => rfl
  | close => rfl

/-- The sections have the lines that are not blank, and no others. -/
theorem inkedLines_sectionTexts (K : Casing U) (raw : Text) :
    (inkedLines (sectionTexts U raw).1, inkedLines (sectionTexts U raw).2) =
      sections .start (passMarks U (inkedLines raw)) := by
  have hmarked : Marked U false (inkMarks (markedLines U raw)) := by
    rw [inkMarks_markedLines K]
    exact marked_sentinelLinesFrom _ _
  have hterminated := terminated_markedLines (U := U) raw
  rw [sectionTexts]
  cases hdrop : (markedLines U raw).dropWhile fun line => line.2 != some .grounded with
  | nil =>
    have hnone := next_of_ne (fun _ => start_next) (List.dropWhile_eq_nil_iff.mp hdrop)
    rw [inkMarks_markedLines K] at hnone
    rw [sections_all hnone, inkedLines_stripSentinels K, inkedLines_breakInline K, inkedLines_nil]
    simp [Place.put, passMarks]
  | cons marker after =>
    obtain ⟨hsplit, hmarker, hbefore⟩ := dropWhile_cons_split hdrop
    generalize (markedLines U raw).takeWhile (fun line => line.2 != some .grounded) = before
      at hsplit hbefore
    have hmem : marker ∈ sentinelLines U (breakInlineSentinels U raw) := by
      rw [← markedLines, hsplit]
      simp
    have hkind : marker.2 = some .grounded := by simpa using hmarker
    obtain ⟨text, hink⟩ := inkMarks_marker hmem hkind
    have hlines : inkMarks (markedLines U raw) =
        inkMarks before ++ (text, some .grounded) :: inkMarks after := by
      rw [hsplit, inkMarks_append, ← List.singleton_append, inkMarks_append, hink]
      rfl
    rw [hsplit, List.map_append, List.map_cons] at hterminated
    rw [hlines] at hmarked
    rw [← inkMarks_markedLines K, hlines, sections_append (next_of_ne (fun _ => start_next) hbefore)]
    show _ = Place.start.put _ (sections .grounded (inkMarks after))
    dsimp only
    cases hstop : after.dropWhile fun line => line.2 != some .extended with
    | nil =>
      have hnone := List.dropWhile_eq_nil_iff.mp hstop
      rw [takeWhile_of_all hnone, List.tail_nil, List.flatMap_nil, inkedLines_stripNil,
        sections_all (next_of_ne (fun _ => grounded_next) hnone), inkedLines_kept_append K]
      · simp [Place.put]
      · exact hterminated.sublist (List.Sublist.append_left (List.sublist_cons_self ..) _)
      · exact hmarked.erase
    | cons marker' behind =>
      obtain ⟨hsplit', hmarker', hbetween⟩ := dropWhile_cons_split hstop
      generalize after.takeWhile (fun line => line.2 != some .extended) = between
        at hsplit' hbetween
      have hmem' : marker' ∈ sentinelLines U (breakInlineSentinels U raw) := by
        rw [← markedLines, hsplit, hsplit']
        simp
      have hkind' : marker'.2 = some .extended := by simpa using hmarker'
      obtain ⟨text', hink'⟩ := inkMarks_marker hmem' hkind'
      have hlines' : inkMarks after =
          inkMarks between ++ (text', some .extended) :: inkMarks behind := by
        rw [hsplit', inkMarks_append, ← List.singleton_append, inkMarks_append, hink']
        rfl
      have hbehind := hmarked.behind
      have hkept := hmarked.erase
      rw [hlines'] at hbehind hkept
      rw [← List.append_assoc] at hkept
      rw [hsplit', List.map_append] at hterminated
      rw [List.tail_cons, inkedLines_kept_append K, inkedLines_kept K, hlines',
        sections_append (next_of_ne (fun _ => grounded_next) hbetween)]
      · show _ = Place.start.put _ (Place.grounded.put _ (sections .extended (inkMarks behind)))
        rw [sections_all fun _ _ _ _ => rfl]
        simp [Place.put]
      · exact hterminated.sublist (List.Sublist.trans (List.sublist_cons_self ..)
          (List.Sublist.trans (List.sublist_append_right ..)
            (List.Sublist.trans (List.sublist_cons_self ..) (List.sublist_append_right ..))))
      · exact hbehind.behind
      · exact hterminated.sublist (List.Sublist.append_left
          (List.Sublist.trans (List.sublist_append_left ..) (List.sublist_cons_self ..)) _)
      · exact hkept.of_append

/-- A line that is no marker and outside code fences begins with a sentinel. -/
def exposed (U : Unicode) (inFence : Bool) : List (Text × Option Sentinel) → Bool
  | [] => false
  | line :: lines =>
    (!inFence && line.2.isNone && begins U line.1) ||
      exposed U (inFence ^^ togglesFence line.1) lines

theorem sections_extended (lines : List (Text × Option Sentinel)) :
    (sections .extended lines).1 = [] := by
  rw [sections_all fun _ _ _ _ => rfl]
  rfl

theorem headed_sections (h : Marked U inFence lines) (place : Place) :
    (headed U inFence (sections place lines).1 ||
        headed U (if place = .extended then inFence else false) (sections place lines).2) =
      exposed U inFence lines := by
  induction lines generalizing inFence place with
  | nil => rfl
  | cons line lines ih =>
    obtain ⟨hmark, hrest⟩ := marked_cons.mp h
    obtain ⟨line, _ | kind⟩ := line
    · have hread := ih hrest place
      rw [sections, exposed, ← hread]
      cases place with
      | extended =>
        rw [Place.put, sections_extended]
        simp [headed]
      | start => simp [Place.put, headed, Bool.or_assoc]
      | grounded => simp [Place.put, headed, Bool.or_assoc]
    · -- the line is a marker, so that no fence is open
      cases inFence with
      | true => simp [markOf] at hmark
      | false =>
        have hread := ih hrest (place.next kind)
        rw [togglesFence_of_mark hmark, Bool.xor_false, ite_self] at hread
        rw [sections, exposed, togglesFence_of_mark hmark, ite_self, hread]
        rfl

/-! ### The lines as they are meant -/

/-- A line outside code fences: the sentinels it begins with, and what stands behind them. -/
def readLine (U : Unicode) : Nat → Text → List (Text × Option Sentinel)
  | 0, line => [(line, sentinelLine U line)]
  | fuel + 1, line =>
    match inlineSentinel U line with
    | some (sentinel, content) =>
      (sentinel, sentinelLine U sentinel) :: readLine U fuel content
    | none => [(line, sentinelLine U line)]

/-- The lines of an output, each outside code fences read with the sentinels it begins with. -/
def meant (U : Unicode) (inFence : Bool) : List Text → List (Text × Option Sentinel)
  | [] => []
  | line :: lines =>
    if inFence then (line, none) :: meant U (!togglesFence line) lines
    else
      let parts := readLine U line.length line
      parts ++ meant U (parts.any fun part => togglesFence part.1) lines

def alone (U : Unicode) (line : Text) : Bool := !begins U line || (sentinelLine U line).isSome

/-- The passes read the lines alike.  `first` and `second` say whether the first pass and the others
take a line to be in a code fence: these alone see one opened behind a sentinel. -/
def agrees (U : Unicode) (first second : Bool) : List Text → Bool
  | [] => true
  | line :: lines =>
    if togglesFence line then agrees U (!first) (!second) lines
    else
      match if first then none else inlineSentinel U line with
      | some (_, content) =>
        -- a line of a fence is not to be broken, nor a second sentinel left behind the first
        !second && alone U content && agrees U first (togglesFence content) lines
      | none => (second || alone U line) && agrees U first second lines

theorem begins_of_inline (K : Casing U) {found : Text × Text}
    (h : inlineSentinel U line = some found) :
    begins U line = true ∧ sentinelLine U line = none ∧ togglesFence line = false := by
  have htoggles : togglesFence line = false := by
    rw [← Bool.not_eq_true]
    intro htoggles
    rw [inlineSentinel_of_togglesFence K htoggles] at h
    cases h
  obtain ⟨kind, run, core, gap, hcore, hrun, -, hsentinel, hline, hclosed, c, t, hcontent, hc⟩ :=
    (inlineSentinel_iff K).mp h
  have hhead : sentinelHead U (Text.lstrip line) = some (kind, gap ++ found.2) := by
    rw [hline, hsentinel, List.append_assoc,
      lstrip_core hcore fun d hd => isSpace_of_isBlank (hrun d hd)]
    exact (sentinelHead_iff K).mpr ⟨core, hcore, rfl, hclosed⟩
  refine ⟨by rw [begins, hhead]; rfl, ?_, htoggles⟩
  have hvisible : Text.strip (gap ++ found.2) ≠ [] := fun hnil => by
    rw [Text.strip_nil_iff.mp hnil c (by simp [hcontent])] at hc
    cases hc
  rw [sentinelLine, hhead]
  simpa using hvisible

theorem begins_of_sentinelLine (K : Casing U) (h : sentinelLine U line = some kind) :
    begins U line = true ∧ togglesFence line = false := by
  refine ⟨?_, ?_⟩
  · cases hhead : sentinelHead U (Text.lstrip line) with
    | none => simp [sentinelLine, hhead] at h
    | some found => rw [begins, hhead]; rfl
  · rw [← Bool.not_eq_true]
    intro htoggles
    rw [sentinelLine_of_togglesFence K htoggles] at h
    cases h

theorem not_alone (line : Text) :
    (!false && (sentinelLine U line).isNone && begins U line) = !alone U line := by
  rw [alone]
  cases sentinelLine U line <;> simp

theorem inlineSentinel_of_alone (K : Casing U) (h : alone U line = true) :
    inlineSentinel U line = none := by
  rw [← Option.not_isSome_iff_eq_none, Option.isSome_iff_exists]
  rintro ⟨found, hfound⟩
  obtain ⟨hbegins, hno, -⟩ := begins_of_inline K hfound
  rw [alone, hbegins, hno] at h
  cases h

theorem readLine_whole (h : inlineSentinel U line = none) (fuel : Nat) :
    readLine U fuel line = [(line, sentinelLine U line)] := by
  cases fuel with
  | zero => rfl
  | succ fuel => rw [readLine, h]

theorem markOf_outside (K : Casing U) (line : Text) :
    markOf U false line = sentinelLine U line := by
  rw [markOf, Bool.or_false]
  split_ifs with htoggles
  · exact (sentinelLine_of_togglesFence K htoggles).symm
  · rfl

theorem sentinel_of_inline (K : Casing U) {sentinel content : Text}
    (h : inlineSentinel U line = some (sentinel, content)) : ∃ kind,
      sentinelLine U sentinel = some kind ∧ sentinelLine U (Text.strip sentinel) = some kind ∧
        (Text.strip sentinel).length < line.length := by
  obtain ⟨kind, run, core, gap, hcore, hrun, -, rfl, rfl, -, c, t, rfl, -⟩ :=
    (inlineSentinel_iff K).mp h
  have hspace : ∀ c ∈ run, Text.isSpace c = true := fun c hc => isSpace_of_isBlank (hrun c hc)
  have hkind : ∀ run, (∀ c ∈ run, Text.isSpace c = true) →
      sentinelLine U (run ++ core) = some kind := fun run hrun =>
    (sentinelLine_iff K).mpr ⟨run, core, [], hcore, hrun, List.forall_mem_nil _, by simp⟩
  refine ⟨kind, hkind run hspace, ?_, ?_⟩
  · rw [strip_core hcore hspace]
    exact hkind [] (List.forall_mem_nil _)
  · rw [strip_core hcore hspace]
    simp only [List.length_append, List.length_cons]
    omega

theorem sections_cons_iff {mark : Option Sentinel} {lines' : List (Text × Option Sentinel)}
    (hline : mark = none → line = line') :
    sections place ((line, mark) :: lines) = sections place ((line', mark) :: lines') ↔
      sections ((mark.map place.next).getD place) lines =
        sections ((mark.map place.next).getD place) lines' := by
  cases mark with
  | some kind => rfl
  | none =>
    rw [sections, sections, Place.put_inj, hline rfl]
    simp

/-- A whole line outside a fence means what it says. -/
theorem meant_outside (h : inlineSentinel U line = none) (lines : List Text) :
    meant U false (line :: lines) =
      (line, sentinelLine U line) :: meant U (togglesFence line) lines := by
  rw [meant, readLine_whole h]
  simp

/-- A line inside a fence is text. -/
theorem meant_inside (line : Text) (lines : List Text) :
    meant U true (line :: lines) = (line, none) :: meant U (!togglesFence line) lines := by
  rw [meant, if_pos rfl]

theorem meant_broken (K : Casing U) {sentinel content : Text}
    (h : inlineSentinel U line = some (sentinel, content)) (halone : alone U content = true)
    (lines : List Text) : meant U false (line :: lines) = (sentinel, sentinelLine U sentinel) ::
      (content, sentinelLine U content) :: meant U (togglesFence content) lines := by
  obtain ⟨kind, hkind, -, hlength⟩ := sentinel_of_inline K h
  obtain ⟨fuel, hfuel⟩ := Nat.exists_eq_add_of_lt hlength
  have htoggles := (begins_of_sentinelLine K hkind).2
  rw [meant, hfuel, readLine, h]
  simp [readLine_whole (inlineSentinel_of_alone K halone), htoggles]

theorem reads_cons {second : Bool} {mark : Option Sentinel}
    {codes goals : List (Text × Option Sentinel)} (hline : mark = none → line = line')
    (hquiet : (!second && mark.isNone && begins U line) = false) :
    (sections place ((line, mark) :: codes) = sections place ((line', mark) :: goals) ∧
        exposed U second ((line, mark) :: codes) = false) ↔
      sections ((mark.map place.next).getD place) codes =
          sections ((mark.map place.next).getD place) goals ∧
        exposed U (second ^^ togglesFence line) codes = false := by
  rw [sections_cons_iff hline, exposed, hquiet, Bool.false_or]

/-- The passes place the lines as they are meant to, and leave no sentinel, where they read them
alike. -/
theorem read_agrees_iff (K : Casing U) (lines : List Text) (place : Place) (first second : Bool) :
    agrees U first second lines = true ↔
      sections place (sentinelLinesFrom U second (broken U first lines)) =
          sections place (meant U second lines) ∧
        exposed U second (sentinelLinesFrom U second (broken U first lines)) = false := by
  induction lines generalizing place first second with
  | nil => simp [agrees, broken, sentinelLinesFrom, meant, exposed]
  | cons line lines ih =>
    by_cases htoggles : togglesFence line = true
    · have hmark : markOf U second line = none := by rw [markOf, htoggles]; rfl
      have hmeant : meant U second (line :: lines) = (line, none) :: meant U (!second) lines := by
        cases second with
        | false =>
          rw [meant_outside (inlineSentinel_of_togglesFence K htoggles),
            sentinelLine_of_togglesFence K htoggles, htoggles]
          rfl
        | true => rw [meant_inside, htoggles]
      rw [agrees, if_pos htoggles, broken, if_pos htoggles, sentinelLinesFrom_cons, hmark, hmeant,
        reads_cons (fun _ => rfl) (by simp [begins_of_togglesFence htoggles]), htoggles,
        Bool.xor_true]
      exact ih place (!first) (!second)
    · have hno : togglesFence line = false := (Bool.not_eq_true _).mp htoggles
      rw [agrees, if_neg htoggles, broken, if_neg htoggles]
      cases hfound : if first then none else inlineSentinel U line with
      | none =>
        dsimp only
        rw [sentinelLinesFrom_cons, hno, Bool.xor_false]
        cases second with
        | true =>
          have hmark : markOf U true line = none := by rw [markOf, Bool.or_true]; rfl
          rw [hmark, meant_inside, hno, reads_cons (fun _ => rfl) rfl, hno, Bool.true_or,
            Bool.true_and]
          exact ih place first true
        | false =>
          rw [markOf_outside K, Bool.false_or]
          by_cases halone : alone U line = true
          · rw [halone, Bool.true_and, meant_outside (inlineSentinel_of_alone K halone), hno,
              reads_cons (fun _ => rfl) (by rw [not_alone, halone]; rfl), hno]
            exact ih _ first false
          · -- a sentinel no pass takes for one stays in its section
            rw [exposed, not_alone, (Bool.not_eq_true _).mp halone]
            simp
      | some found =>
        obtain ⟨sentinel, content⟩ := found
        have hinline : inlineSentinel U line = some (sentinel, content) := by
          cases first with
          | true => cases hfound
          | false => exact hfound
        obtain ⟨kind, hkind, hstrip, hlength⟩ := sentinel_of_inline K hinline
        have hplain := (begins_of_sentinelLine K hstrip).2
        dsimp only
        rw [sentinelLinesFrom_cons]
        cases second with
        | true =>
          -- the line is of a fence, and ends in pieces
          have hmark : markOf U true (Text.strip sentinel) = none := by rw [markOf, Bool.or_true]; rfl
          have hne : Text.strip sentinel ≠ line := fun heq => by
            rw [heq] at hlength
            exact lt_irrefl _ hlength
          rw [hmark, meant_inside, sections, sections, Place.put_inj]
          simp [hne]
        | false =>
          rw [markOf_outside K, hstrip, hplain, Bool.xor_false, sentinelLinesFrom_cons,
            markOf_outside K, Bool.false_xor, Bool.not_false, Bool.true_and]
          by_cases halone : alone U content = true
          · have hmarker : (!false && (some kind).isNone && begins U (Text.strip sentinel)) =
                false := by simp
            have hother : some kind = none → Text.strip sentinel = sentinel := fun hnone => by
              cases hnone
            rw [halone, Bool.true_and, meant_broken K hinline halone, hkind,
              reads_cons hother hmarker, hplain,
              reads_cons (fun _ => rfl) (by rw [Bool.xor_false, not_alone, halone]; rfl),
              Bool.xor_false, Bool.false_xor]
            exact ih _ first (togglesFence content)
          · -- a second sentinel behind the first stays in its section
            rw [exposed, hplain, Bool.xor_false, exposed, not_alone,
              (Bool.not_eq_true _).mp halone]
            simp

/-! ### What the split keeps -/

/-- The split keeps every line on its side. -/
structure SplitKept (U : Unicode) (raw : Text) : Prop where
  /-- No line of a section outside code fences begins with a sentinel. -/
  bare : headed U false (inkedLines (splitAnswerSections U raw).1) = false ∧
    headed U false (inkedLines (splitAnswerSections U raw).2) = false
  /-- The lines that are not blank stand in order, once each, where the markers put them. -/
  placed : (inkedLines (sectionTexts U raw).1, inkedLines (sectionTexts U raw).2) =
    sections .start (meant U false (inkedLines raw))
  /-- Normalisation keeps each of them, or rewrites it. -/
  whole : Normalized (inkedLines (sectionTexts U raw).1)
      (inkedLines (splitAnswerSections U raw).1) ∧
    Normalized (inkedLines (sectionTexts U raw).2) (inkedLines (splitAnswerSections U raw).2)

theorem normalized_sections (raw : Text) :
    Normalized (inkedLines (sectionTexts U raw).1) (inkedLines (splitAnswerSections U raw).1) ∧
      Normalized (inkedLines (sectionTexts U raw).2)
        (inkedLines (splitAnswerSections U raw).2) := by
  obtain ⟨hgrounded, hextended⟩ := newlinesOnly_sectionTexts (U := U) raw
  rw [splitAnswerSections_texts]
  dsimp only
  exact ⟨normalizeAnswerMarkdown_lines hgrounded, normalizeAnswerMarkdown_lines hextended⟩

theorem bare_iff (K : Casing U) (raw : Text) :
    (headed U false (inkedLines (splitAnswerSections U raw).1) = false ∧
        headed U false (inkedLines (splitAnswerSections U raw).2) = false) ↔
      exposed U false (passMarks U (inkedLines raw)) = false := by
  obtain ⟨hgrounded, hextended⟩ := normalized_sections (U := U) raw
  have hsections := inkedLines_sectionTexts K raw
  have hmarked : Marked U false (passMarks U (inkedLines raw)) := marked_sentinelLinesFrom _ _
  rw [hgrounded.headed K, hextended.headed K, ← headed_sections hmarked .start, ← hsections,
    ite_self, Bool.or_eq_false_iff]

/-- **The split keeps every line on its side exactly where its passes read the lines alike.** -/
theorem split_iff (K : Casing U) (raw : Text) :
    SplitKept U raw ↔ agrees U false false (inkedLines raw) = true := by
  have hsections := inkedLines_sectionTexts K raw
  rw [read_agrees_iff K (inkedLines raw) .start false false, ← passMarks, ← bare_iff K, ← hsections]
  constructor
  · intro h
    exact ⟨h.placed, h.bare⟩
  · rintro ⟨hplaced, hbare⟩
    exact ⟨hbare, hplaced, normalized_sections raw⟩

example : agrees ascii false false
    (inkedLines "<<<GROUNDED>>>Twelve days [C1].\n<<<EXTENDED>>>\nMore text.".toList) = true := by
  decide +kernel

def twoSentinels : Text := "<<<GROUNDED>>> <<<EXTENDED>>> More text.".toList

/-- The second sentinel reaches the reader, with the text behind it, as grounded. -/
theorem second_sentinel_left :
    splitAnswerSections ascii twoSentinels = ("<<<EXTENDED>>> More text.".toList, []) ∧
      ¬ SplitKept ascii twoSentinels := by
  refine ⟨by decide +kernel, fun h => ?_⟩
  have hhead : headed ascii false (inkedLines (splitAnswerSections ascii twoSentinels).1) = true := by
    decide +kernel
  rw [h.bare.1] at hhead
  cases hhead

end QnscKb.Ask
