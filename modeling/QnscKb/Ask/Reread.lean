import QnscKb.Ask.Sections

/-!
# Ask — Reread

What normalising a text does to its markers.  Two of its substitutions change none; the third
empties the lines that hold a lone `[`, and that can open, close or join brackets.  `rereadIds` are
the ids read once it has.
-/

namespace QnscKb.Ask

open Brackets (runs runsFrom openAfter Plain)

variable (U : Unicode)

/-- The ids read in a text once its lone brackets are emptied. -/
def rereadIds (t : Text) : List Nat := readIds U (dropLoneBrackets .lineStart (Text.strip t))

variable {U}

/-! ### White space -/

variable {c : Char}

theorem not_bracket_of_isSpace (h : Text.isSpace c = true) : c ≠ '[' ∧ c ≠ ']' := by
  refine ⟨?_, ?_⟩ <;>
    · rintro rfl
      exact absurd h (by decide)

variable {t a b : Text}

theorem plain_of_isSpace (h : ∀ c ∈ t, Text.isSpace c = true) : Plain t :=
  fun c hc => not_bracket_of_isSpace (h c hc)

theorem runs_strip (t : Text) : runs (Text.strip t) = runs t := by
  obtain ⟨a, b, ht, ha, hb⟩ := Text.strip_split t
  conv_rhs => rw [ht]
  exact (Brackets.runs_trim (plain_of_isSpace ha) (plain_of_isSpace hb) _).symm

theorem readIds_strip (t : Text) : readIds U (Text.strip t) = readIds U t := by
  rw [readIds, readIds, runs_strip]

theorem readIds_of_plain (h : Plain t) : readIds U t = [] := by
  simp [readIds, runs, Brackets.runsFrom_plain h]

/-! ### The visible characters of a line -/

def visible (t : Text) : Text := (t.takeWhile (· != '\n')).filter fun c => !isBlank c

theorem loneBracket_iff : loneBracket t = true ↔ visible t = ['['] := by
  simp [loneBracket, visible]

@[simp] theorem visible_newline (t : Text) : visible ('\n' :: t) = [] := by simp [visible]

theorem visible_cons (h : c ≠ '\n') (t : Text) :
    visible (c :: t) = if isBlank c then visible t else c :: visible t := by
  by_cases hb : isBlank c = true <;> simp [visible, h, hb]

theorem not_newline_of_isBlank (h : isBlank c = true) : c ≠ '\n' := by
  rintro rfl
  exact absurd h (by decide)

/-- Two first lines are both a lone bracket or neither. -/
def SameLine (a b : Text) : Prop :=
  visible a = visible b ∨ ('`' ∈ visible a ∧ '`' ∈ visible b)

theorem SameLine.refl (a : Text) : SameLine a a := .inl rfl

theorem SameLine.cons (h : SameLine a b) (c : Char) : SameLine (c :: a) (c :: b) := by
  by_cases hc : c = '\n'
  · subst hc
    exact .inl (by simp)
  · rcases h with h | ⟨ha, hb⟩
    · exact .inl (by rw [visible_cons hc, visible_cons hc, h])
    · refine .inr ⟨?_, ?_⟩ <;>
        · rw [visible_cons hc]
          split
          · assumption
          · exact List.mem_cons_of_mem c ‹_›

theorem SameLine.tick (a b : Text) : SameLine ('`' :: a) ('`' :: b) := by
  refine .inr ⟨?_, ?_⟩ <;>
    · rw [visible_cons (by decide)]
      exact List.mem_cons_self

theorem SameLine.loneBracket (h : SameLine a b) : loneBracket a = loneBracket b := by
  rw [Bool.eq_iff_iff, loneBracket_iff, loneBracket_iff]
  rcases h with h | ⟨ha, hb⟩
  · rw [h]
  · refine ⟨fun h => ?_, fun h => ?_⟩
    · rw [h] at ha
      exact absurd ha (by decide)
    · rw [h] at hb
      exact absurd hb (by decide)

/-! ### Lone brackets -/

theorem dropLoneBrackets_lineStart (c : Char) (t : Text) :
    dropLoneBrackets .lineStart (c :: t) =
      if loneBracket (c :: t) then dropLoneBrackets .dropped t
      else dropLoneBrackets .inLine (c :: t) := by
  rw [dropLoneBrackets, dropLoneBrackets]

theorem dropLoneBrackets_inLine (c : Char) (t : Text) :
    dropLoneBrackets .inLine (c :: t) =
      c :: dropLoneBrackets (if c = '\n' then .lineStart else .inLine) t := rfl

theorem dropLoneBrackets_dropped (c : Char) (t : Text) :
    dropLoneBrackets .dropped (c :: t) =
      if c = '\n' then c :: dropLoneBrackets .lineStart t else dropLoneBrackets .dropped t := rfl

theorem mem_of_mem_dropLoneBrackets {p : LinePlace} (h : c ∈ dropLoneBrackets p t) : c ∈ t := by
  induction t generalizing p with
  | nil => cases p <;> cases h
  | cons d t ih =>
    have hin : ∀ q, c ∈ d :: dropLoneBrackets q t → c ∈ d :: t := fun q hq =>
      (List.mem_cons.mp hq).elim (fun e => e ▸ List.mem_cons_self)
        fun hq => List.mem_cons_of_mem d (ih hq)
    cases p with
    | inLine => exact hin _ h
    | dropped =>
      rw [dropLoneBrackets_dropped] at h
      split at h
      · exact hin _ h
      · exact List.mem_cons_of_mem d (ih h)
    | lineStart =>
      rw [dropLoneBrackets_lineStart] at h
      split at h
      · exact List.mem_cons_of_mem d (ih h)
      · exact hin _ h

theorem Plain.dropLoneBrackets {p : LinePlace} (h : Plain t) : Plain (dropLoneBrackets p t) :=
  fun c hc => h c (mem_of_mem_dropLoneBrackets hc)

theorem rereadIds_of_plain (h : Plain t) : rereadIds U t = [] := by
  refine readIds_of_plain (Plain.dropLoneBrackets fun c hc => h c ?_)
  obtain ⟨a, b, ht, -, -⟩ := Text.strip_split t
  rw [ht]
  simp [hc]

/-! ### The end of an open fence -/

theorem no_close_of_dropWhile {t : Text} (h : ']' ∉ t.dropWhile isBlank) : ']' ∉ t := by
  rw [← List.takeWhile_append_dropWhile (p := isBlank) (l := t), List.mem_append]
  rintro (hblank | hrest)
  · exact absurd (List.mem_takeWhile_imp hblank) (by decide)
  · exact h hrest

theorem openFenceEnd_some {rest : Text} (h : openFenceEnd t = some rest) :
    ∃ t', t = '`' :: t' ∧ ']' ∉ t ∧ ']' ∉ rest := by
  unfold openFenceEnd at h
  split at h
  · next hfence =>
    obtain ⟨x, rfl⟩ := List.isPrefixOf_iff_prefix.mp hfence
    have hdrop : ("```".toList ++ x).drop 3 = x := rfl
    rw [hdrop] at h
    split at h
    · next after hx =>
      have hafter : ']' ∉ after ∧ ']' ∉ rest := by
        split at h
        · next hb =>
          obtain rfl : rest = [] := (Option.some.inj h).symm
          exact ⟨no_close_of_dropWhile (by rw [hb]; decide), by decide⟩
        · next hb =>
          obtain rfl : rest = ['\n'] := (Option.some.inj h).symm
          exact ⟨no_close_of_dropWhile (by rw [hb]; decide), by decide⟩
        · cases h
      have hx' : ']' ∉ x := no_close_of_dropWhile (by simpa [hx] using hafter.1)
      exact ⟨'`' :: '`' :: x, rfl, by simpa using hx', hafter.2⟩
    · cases h
  · cases h

theorem sameLine_dropOpenFenceEnd (t : Text) : SameLine (dropOpenFenceEnd t) t := by
  induction t with
  | nil => exact .refl []
  | cons c t ih =>
    rw [dropOpenFenceEnd]
    split
    · next rest hend =>
      obtain ⟨t', ht, -, -⟩ := openFenceEnd_some hend
      rw [ht]
      exact .tick _ _
    · exact ih.cons c

theorem runsFrom_dropOpenFenceEnd (t : Text) (p : LinePlace) (o : Option Text) :
    runsFrom o (dropLoneBrackets p (dropOpenFenceEnd t)) = runsFrom o (dropLoneBrackets p t) := by
  induction t generalizing p o with
  | nil => rfl
  | cons c t ih =>
    have hline : loneBracket (dropOpenFenceEnd (c :: t)) = loneBracket (c :: t) :=
      (sameLine_dropOpenFenceEnd (c :: t)).loneBracket
    rw [dropOpenFenceEnd] at hline ⊢
    split at hline
    · next rest hend =>
      -- what is taken off and what is left both close nothing
      obtain ⟨t', -, hclose, hrest⟩ := openFenceEnd_some hend
      have hnew : ']' ∉ "```".toList ++ rest := by
        simpa using hrest
      rw [Brackets.runsFrom_of_no_close fun h => hclose (mem_of_mem_dropLoneBrackets h)]
      exact Brackets.runsFrom_of_no_close fun h => hnew (mem_of_mem_dropLoneBrackets h)
    · have hin : runsFrom o (dropLoneBrackets .inLine (c :: dropOpenFenceEnd t)) =
          runsFrom o (dropLoneBrackets .inLine (c :: t)) :=
        Brackets.runsFrom_cons_congr c fun o => ih _ o
      cases p with
      | inLine => exact hin
      | dropped =>
        rw [dropLoneBrackets_dropped, dropLoneBrackets_dropped]
        split
        · exact Brackets.runsFrom_cons_congr c fun o => ih _ o
        · exact ih _ o
      | lineStart =>
        rw [dropLoneBrackets_lineStart, dropLoneBrackets_lineStart, hline]
        split
        · exact ih _ o
        · exact hin

/-! ### The markers behind a fence -/

theorem splitFenceMarkers_gap (c : Char) (t : Text) :
    splitFenceMarkers U .gap (c :: t) =
      if isBlank c then splitFenceMarkers U .gap t
      else c :: splitFenceMarkers U (FencePlace.gap.next c) t := rfl

theorem splitFenceMarkers_fence (c : Char) (t : Text) :
    splitFenceMarkers U .fence (c :: t) =
      if isBlank c && markersToLineEnd U t.length (t.dropWhile isBlank) then
        '\n' :: '\n' :: splitFenceMarkers U .gap t
      else c :: splitFenceMarkers U (FencePlace.fence.next c) t := rfl

variable {s : FencePlace}

theorem splitFenceMarkers_cons (hgap : s ≠ .gap) (hfence : s ≠ .fence) (c : Char) (t : Text) :
    splitFenceMarkers U s (c :: t) = c :: splitFenceMarkers U (s.next c) t := by
  cases s with
  | gap => exact absurd rfl hgap
  | fence => exact absurd rfl hfence
  | lineStart | tick1 | tick2 | elsewhere => rfl

theorem sameLine_splitFenceMarkers (t : Text) (hs : s = .lineStart ∨ s = .elsewhere ∨ s = .gap) :
    SameLine (splitFenceMarkers U s t) t := by
  induction t generalizing s with
  | nil => cases s <;> exact .refl []
  | cons c t ih =>
    rcases hs with rfl | rfl | rfl
    · rw [splitFenceMarkers_cons (by decide) (by decide)]
      by_cases htick : c = '`'
      · subst htick
        exact .tick _ _
      · refine (ih ?_).cons c
        simp only [FencePlace.next]
        split
        · exact .inl rfl
        · split
          · exact .inl rfl
          · exact .inr (.inl rfl)
    · rw [splitFenceMarkers_cons (by decide) (by decide)]
      refine (ih ?_).cons c
      simp only [FencePlace.next]
      split
      · exact .inl rfl
      · exact .inr (.inl rfl)
    · rw [splitFenceMarkers_gap]
      split
      · next hblank =>
        have hvisible : visible (c :: t) = visible t := by
          rw [visible_cons (not_newline_of_isBlank hblank), if_pos hblank]
        unfold SameLine
        rw [hvisible]
        exact ih (.inr (.inr rfl))
      · refine (ih ?_).cons c
        simp only [FencePlace.next]
        split
        · exact .inl rfl
        · exact .inr (.inl rfl)

theorem visible_ne_nil (h : Text.isSpace c = false) (t : Text) : visible (c :: t) ≠ [] := by
  have hnewline : c ≠ '\n' := by
    rintro rfl
    exact absurd h (by decide)
  have hblank : isBlank c = false := by
    rw [isBlank, Bool.or_eq_false_iff, beq_eq_false_iff_ne, beq_eq_false_iff_ne]
    refine ⟨?_, ?_⟩ <;>
      · rintro rfl
        exact absurd h (by decide)
  rw [visible_cons hnewline, hblank]
  exact List.cons_ne_nil _ _

theorem visible_of_fenceMarker {t rest : Text} (h : fenceMarker U ('[' :: t) = some rest) :
    visible t ≠ [] := by
  simp only [fenceMarker] at h
  by_cases hsource : "Source ID:".toList.isPrefixOf t = true
  · obtain ⟨w, rfl⟩ := List.isPrefixOf_iff_prefix.mp hsource
    exact visible_ne_nil (c := 'S') (by decide) _
  · rw [if_neg hsource] at h
    by_cases hmark : t.head? = some 'C'
    · obtain ⟨w, rfl⟩ := List.head?_eq_some_iff.mp hmark
      exact visible_ne_nil (by decide) _
    · rw [if_neg hmark] at h
      cases t with
      | nil => simp at h
      | cons c w =>
        by_cases hdigit : (U.digit c).isSome = true
        · exact visible_ne_nil (U.digit_visible c hdigit) w
        · -- without a digit there is no marker
          simp only [List.takeWhile_cons, hdigit] at h
          split at h <;> simp at h

theorem not_loneBracket_of_visible (h : visible t ≠ []) : loneBracket ('[' :: t) = false := by
  rw [Bool.eq_false_iff, ne_eq, loneBracket_iff]
  intro hv
  exact h (List.cons.inj hv).2

theorem markersToLineEnd_cons {fuel : Nat} (h : markersToLineEnd U fuel (c :: t) = true) :
    c = '[' ∧ visible t ≠ [] := by
  cases fuel with
  | zero => cases h
  | succ fuel =>
    by_cases hc : c = '['
    · subst hc
      cases hmark : fenceMarker U ('[' :: t) with
      | none => simp [markersToLineEnd, hmark] at h
      | some rest => exact ⟨rfl, visible_of_fenceMarker hmark⟩
    · have hnone : fenceMarker U (c :: t) = none := by
        unfold fenceMarker
        split
        · next heq => exact absurd (List.cons.inj heq).1 hc
        · rfl
      simp [markersToLineEnd, hnone] at h

/-- Where the two readers can stand together: behind ticks, in a dropped line only where no tick
follows. -/
structure Fits (s : FencePlace) (p : LinePlace) (t : Text) : Prop where
  gap : s ≠ .gap
  ticks : s = .tick1 ∨ s = .tick2 ∨ s = .fence → p = .inLine
  dropped : p = .dropped → '`' ∉ visible t

theorem fits_inLine (h : s ≠ .gap) (t : Text) : Fits s .inLine t :=
  ⟨h, fun _ => rfl, nofun⟩

theorem FencePlace.next_ne_gap (s : FencePlace) (c : Char) : s.next c ≠ .gap := by
  cases s <;> simp only [FencePlace.next] <;> split_ifs <;> decide

theorem FencePlace.next_ticks (h : s.next c = .tick1 ∨ s.next c = .tick2 ∨ s.next c = .fence) :
    c = '`' := by
  cases s <;> simp only [FencePlace.next] at h <;> split_ifs at h <;> simp_all

theorem mem_visible_cons {a : Char} (hc : c ≠ '\n') (h : a ∈ visible t) : a ∈ visible (c :: t) := by
  rw [visible_cons hc]
  split
  · exact h
  · exact List.mem_cons_of_mem c h

theorem tick_mem_visible (t : Text) : '`' ∈ visible ('`' :: t) := by
  exact List.mem_cons_self

theorem Fits.next_inLine (s : FencePlace) (c : Char) (t : Text) :
    Fits (s.next c) (if c = '\n' then .lineStart else .inLine) t := by
  refine ⟨s.next_ne_gap c, fun h => ?_, fun h => ?_⟩
  · obtain rfl := FencePlace.next_ticks h
    rfl
  · split at h <;> cases h

theorem Fits.next_dropped (hc : c ≠ '\n') (h : '`' ∉ visible (c :: t)) :
    Fits (s.next c) .dropped t := by
  refine ⟨s.next_ne_gap c, fun hticks => ?_, fun _ htick => h (mem_visible_cons hc htick)⟩
  obtain rfl := FencePlace.next_ticks hticks
  exact absurd (tick_mem_visible t) h

theorem not_bracket_of_isBlank (h : isBlank c = true) : c ≠ '[' ∧ c ≠ ']' := by
  refine ⟨?_, ?_⟩ <;>
    · rintro rfl
      exact absurd h (by decide)

section Markers

variable {c : Char} {t : Text}
  (hread : ∀ s p o, Fits s p t → runsFrom o (dropLoneBrackets p (splitFenceMarkers U s t)) =
    runsFrom o (dropLoneBrackets p t))
  (hgap : ∀ fuel o o', markersToLineEnd U fuel (t.dropWhile isBlank) = true →
    runsFrom o (dropLoneBrackets .lineStart (splitFenceMarkers U .gap t)) =
      runsFrom o' (dropLoneBrackets .inLine t))

include hread in
theorem runsFrom_kept {s : FencePlace} {p : LinePlace} (o : Option Text) (hfits : Fits s p (c :: t))
    (hsplit : splitFenceMarkers U s (c :: t) = c :: splitFenceMarkers U (s.next c) t) :
    runsFrom o (dropLoneBrackets p (splitFenceMarkers U s (c :: t))) =
      runsFrom o (dropLoneBrackets p (c :: t)) := by
  have hin : runsFrom o (dropLoneBrackets .inLine (c :: splitFenceMarkers U (s.next c) t)) =
      runsFrom o (dropLoneBrackets .inLine (c :: t)) :=
    Brackets.runsFrom_cons_congr c fun o => hread _ _ o (.next_inLine s c t)
  have hline : p = .lineStart → loneBracket (splitFenceMarkers U s (c :: t)) =
      loneBracket (c :: t) := by
    rintro rfl
    refine (sameLine_splitFenceMarkers (c :: t) ?_).loneBracket
    cases s with
    | lineStart => exact .inl rfl
    | elsewhere => exact .inr (.inl rfl)
    | gap => exact absurd rfl hfits.gap
    | tick1 => cases hfits.ticks (.inl rfl)
    | tick2 => cases hfits.ticks (.inr (.inl rfl))
    | fence => cases hfits.ticks (.inr (.inr rfl))
  rw [hsplit] at hline ⊢
  cases p with
  | inLine => exact hin
  | dropped =>
    rw [dropLoneBrackets_dropped, dropLoneBrackets_dropped]
    split
    · next hnewline =>
      exact Brackets.runsFrom_cons_congr c fun o =>
        hread _ _ o (by simpa [hnewline] using Fits.next_inLine s c t)
    · next hnewline => exact hread _ _ o (.next_dropped hnewline (hfits.dropped rfl))
  | lineStart =>
    rw [dropLoneBrackets_lineStart, dropLoneBrackets_lineStart, hline rfl]
    split
    · next hlone =>
      have hvisible := loneBracket_iff.mp hlone
      have hnewline : c ≠ '\n' := by
        rintro rfl
        simp at hvisible
      exact hread _ _ o (.next_dropped hnewline (by rw [hvisible]; decide))
    · exact hin

include hgap in
theorem runsFrom_fence {s : FencePlace} {p : LinePlace} (o : Option Text)
    (hfits : Fits s p (c :: t))
    (hsplit : splitFenceMarkers U s (c :: t) ≠ c :: splitFenceMarkers U (s.next c) t) :
    runsFrom o (dropLoneBrackets p (splitFenceMarkers U s (c :: t))) =
      runsFrom o (dropLoneBrackets p (c :: t)) := by
  have hs : s = .fence := by
    by_contra hfence
    exact hsplit (splitFenceMarkers_cons hfits.gap hfence c t)
  subst hs
  rw [splitFenceMarkers_fence] at hsplit ⊢
  split at hsplit
  · next hmarked =>
    obtain ⟨hblank, hmarkers⟩ : isBlank c = true ∧
        markersToLineEnd U t.length (t.dropWhile isBlank) = true := by
      simpa using hmarked
    have hempty : loneBracket ('\n' :: splitFenceMarkers U .gap t) = false := by
      simp [loneBracket]
    obtain rfl : p = .inLine := hfits.ticks (.inr (.inr rfl))
    rw [if_pos hmarked, dropLoneBrackets_inLine, dropLoneBrackets_inLine, if_pos rfl,
      dropLoneBrackets_lineStart, hempty, if_neg (by decide), dropLoneBrackets_inLine,
      if_pos rfl, if_neg (not_newline_of_isBlank hblank),
      Brackets.runsFrom_cons (by decide), Brackets.runsFrom_cons (by decide),
      Brackets.runsFrom_cons (not_bracket_of_isBlank hblank)]
    exact hgap _ _ _ hmarkers
  · exact absurd rfl hsplit

include hread hgap in
theorem runsFrom_gap {fuel : Nat} (o o' : Option Text)
    (h : markersToLineEnd U fuel ((c :: t).dropWhile isBlank) = true) :
    runsFrom o (dropLoneBrackets .lineStart (splitFenceMarkers U .gap (c :: t))) =
      runsFrom o' (dropLoneBrackets .inLine (c :: t)) := by
  rw [splitFenceMarkers_gap]
  by_cases hblank : isBlank c = true
  · rw [if_pos hblank, dropLoneBrackets_inLine, if_neg (not_newline_of_isBlank hblank),
      Brackets.runsFrom_cons (not_bracket_of_isBlank hblank)]
    exact hgap fuel o _ (by simpa [hblank] using h)
  · have hmarkers : markersToLineEnd U fuel (c :: t) = true := by simpa [hblank] using h
    obtain ⟨rfl, hvisible⟩ := markersToLineEnd_cons hmarkers
    have hnext : FencePlace.gap.next '[' = .elsewhere := by decide
    have hline : loneBracket ('[' :: splitFenceMarkers U .elsewhere t) = false := by
      rw [((sameLine_splitFenceMarkers t (.inr (.inl rfl))).cons '[').loneBracket]
      exact not_loneBracket_of_visible hvisible
    -- the `[` forgets the white space that differs
    rw [if_neg hblank, hnext, dropLoneBrackets_lineStart, hline, if_neg (by decide),
      dropLoneBrackets_inLine, dropLoneBrackets_inLine, if_neg (by decide),
      Brackets.runsFrom_open, Brackets.runsFrom_open]
    exact hread _ _ _ (fits_inLine (by decide) t)

end Markers

/-- **The markers behind a fence** read alike after the line break. -/
theorem runsFrom_splitFenceMarkers (t : Text) :
    (∀ s p o, Fits s p t → runsFrom o (dropLoneBrackets p (splitFenceMarkers U s t)) =
      runsFrom o (dropLoneBrackets p t)) ∧
    ∀ fuel o o', markersToLineEnd U fuel (t.dropWhile isBlank) = true →
      runsFrom o (dropLoneBrackets .lineStart (splitFenceMarkers U .gap t)) =
        runsFrom o' (dropLoneBrackets .inLine t) := by
  induction t with
  | nil =>
    refine ⟨fun s p o _ => by cases s <;> rfl, fun fuel o o' h => ?_⟩
    cases fuel <;> simp [markersToLineEnd, fenceMarker] at h
  | cons c t ih =>
    obtain ⟨hread, hgap⟩ := ih
    refine ⟨fun s p o hfits => ?_, fun fuel o o' => runsFrom_gap hread hgap o o'⟩
    by_cases hsplit : splitFenceMarkers U s (c :: t) = c :: splitFenceMarkers U (s.next c) t
    · exact runsFrom_kept hread o hfits hsplit
    · exact runsFrom_fence hgap o hfits hsplit

/-! ### Normalisation -/

/-- **Normalisation**: the runs of a normalised text are those read once its lone brackets are
emptied. -/
theorem runs_normalizeAnswerMarkdown (t : Text) :
    runs (normalizeAnswerMarkdown U t) = runs (dropLoneBrackets .lineStart (Text.strip t)) := by
  have hfits : Fits .lineStart .lineStart (Text.strip t) := ⟨nofun, nofun, nofun⟩
  have hfence := (runsFrom_splitFenceMarkers (U := U) (Text.strip t)).1 _ _ none hfits
  rw [normalizeAnswerMarkdown, runs_strip, runs, runsFrom_dropOpenFenceEnd, hfence, runs]

/-- The ids of a normalised text are its `rereadIds`. -/
theorem readIds_normalizeAnswerMarkdown (t : Text) :
    readIds U (normalizeAnswerMarkdown U t) = rereadIds U t := by
  rw [readIds, runs_normalizeAnswerMarkdown, rereadIds, readIds]

/-- A lone bracket stands on some line of a text, whose first line starts with it. -/
def hasLoneBracket (lineStart : Bool) : Text → Bool
  | [] => false
  | c :: t => (lineStart && loneBracket (c :: t)) || hasLoneBracket (c == '\n') t

theorem dropLoneBrackets_of_none {lineStart : Bool} (h : hasLoneBracket lineStart t = false) :
    dropLoneBrackets (if lineStart then .lineStart else .inLine) t = t := by
  induction t generalizing lineStart with
  | nil => cases lineStart <;> rfl
  | cons c t ih =>
    obtain ⟨hhead, htail⟩ := Bool.or_eq_false_iff.mp h
    have hin : dropLoneBrackets .inLine (c :: t) = c :: t := by
      rw [dropLoneBrackets_inLine]
      simpa using ih htail
    cases lineStart with
    | false => exact hin
    | true =>
      have hlone : loneBracket (c :: t) = false := by simpa using hhead
      rw [if_pos rfl, dropLoneBrackets_lineStart, hlone, if_neg (by decide), hin]

/-- Where no line is a lone `[`, emptying lone brackets changes no run. -/
theorem runs_dropLoneBrackets (h : hasLoneBracket true (Text.strip t) = false) :
    runs (dropLoneBrackets .lineStart (Text.strip t)) = runs t := by
  have hdrop : dropLoneBrackets .lineStart (Text.strip t) = Text.strip t := by
    simpa using dropLoneBrackets_of_none h
  rw [hdrop, runs_strip]

theorem rereadIds_eq_readIds (h : hasLoneBracket true (Text.strip t) = false) :
    rereadIds U t = readIds U t := by
  rw [rereadIds, readIds, runs_dropLoneBrackets h, readIds]

/-- **Normalisation keeps the markers**: where no line is a lone `[`, a text names the same ids in
the same order. -/
theorem readIds_normalized (h : hasLoneBracket true (Text.strip t) = false) :
    readIds U (normalizeAnswerMarkdown U t) = readIds U t := by
  rw [readIds_normalizeAnswerMarkdown, rereadIds_eq_readIds h]

/-- The markers behind a fence keep their order. -/
theorem readIds_fenced :
    readIds ascii (normalizeAnswerMarkdown ascii "```\nx\n``` [C2] [C1]".toList) = [2, 1] :=
  (readIds_normalized (by decide +kernel)).trans (by decide +kernel)

/-! ### Line by line -/

theorem visible_append_newline (a b : Text) : visible (a ++ '\n' :: b) = visible a := by
  induction a with
  | nil => simp [visible]
  | cons c a ih =>
    by_cases hc : c = '\n'
    · subst hc
      simp
    · rw [List.cons_append, visible_cons hc, visible_cons hc, ih]

theorem loneBracket_append_newline (a b : Text) : loneBracket (a ++ '\n' :: b) = loneBracket a := by
  rw [Bool.eq_iff_iff, loneBracket_iff, loneBracket_iff, visible_append_newline]

theorem dropLoneBrackets_append_newline (a b : Text) (p : LinePlace) :
    dropLoneBrackets p (a ++ '\n' :: b) =
      dropLoneBrackets p a ++ '\n' :: dropLoneBrackets .lineStart b := by
  induction a generalizing p with
  | nil => cases p <;> simp [dropLoneBrackets, loneBracket]
  | cons c a ih =>
    have hin : dropLoneBrackets .inLine (c :: (a ++ '\n' :: b)) =
        dropLoneBrackets .inLine (c :: a) ++ '\n' :: dropLoneBrackets .lineStart b := by
      rw [dropLoneBrackets_inLine, dropLoneBrackets_inLine, ih, List.cons_append]
    cases p with
    | inLine => exact hin
    | dropped =>
      rw [List.cons_append, dropLoneBrackets_dropped, dropLoneBrackets_dropped]
      split
      · rw [ih, List.cons_append]
      · exact ih .dropped
    | lineStart =>
      have hline := loneBracket_append_newline (c :: a) b
      rw [List.cons_append] at hline
      rw [List.cons_append, dropLoneBrackets_lineStart, dropLoneBrackets_lineStart, hline]
      split
      · exact ih .dropped
      · exact hin

theorem dropLoneBrackets_join (lines : List Text) :
    dropLoneBrackets .lineStart (Text.join ['\n'] lines) =
      Text.join ['\n'] (lines.map (dropLoneBrackets .lineStart)) := by
  induction lines with
  | nil => rfl
  | cons line lines ih =>
    cases lines with
    | nil => simp [Text.join]
    | cons next lines =>
      simp only [Text.join, List.intercalate_cons_cons] at ih ⊢
      rw [List.append_assoc, List.singleton_append, dropLoneBrackets_append_newline, ih]
      simp

theorem dropLoneBrackets_inLine_of_no_newline (h : '\n' ∉ t) : dropLoneBrackets .inLine t = t := by
  induction t with
  | nil => rfl
  | cons c t ih =>
    obtain ⟨hc, ht⟩ : '\n' ≠ c ∧ '\n' ∉ t := by simpa using h
    rw [dropLoneBrackets_inLine, if_neg (Ne.symm hc), ih ht]

theorem mem_visible_append (ha : '\n' ∉ a) (h : c ∈ visible b) : c ∈ visible (a ++ b) := by
  induction a with
  | nil => exact h
  | cons d a ih =>
    obtain ⟨hd, ha'⟩ : '\n' ≠ d ∧ '\n' ∉ a := by simpa using ha
    exact mem_visible_cons (Ne.symm hd) (ih ha')

theorem dropLoneBrackets_append_tail {b : Text} {c : Char} (hline : '\n' ∉ b)
    (hc : c ∈ visible b) (hne : c ≠ '[') (a : Text) (p : LinePlace)
    (hp : p = .dropped → '\n' ∈ a) : ∃ x, dropLoneBrackets p (a ++ b) = x ++ b := by
  induction a generalizing p with
  | nil =>
    have hin := dropLoneBrackets_inLine_of_no_newline hline
    refine ⟨[], ?_⟩
    cases p with
    | inLine => exact hin
    | dropped => exact absurd (hp rfl) List.not_mem_nil
    | lineStart =>
      cases b with
      | nil => rfl
      | cons d b =>
        have hlone : loneBracket (d :: b) = false := by
          rw [Bool.eq_false_iff, ne_eq, loneBracket_iff]
          intro hv
          rw [hv] at hc
          exact hne (List.mem_singleton.mp hc)
        rw [List.nil_append, dropLoneBrackets_lineStart, hlone, if_neg (by decide), hin]
  | cons d a ih =>
    have hin : ∃ x, dropLoneBrackets .inLine (d :: (a ++ b)) = x ++ b := by
      obtain ⟨x, hx⟩ := ih (if d = '\n' then .lineStart else .inLine)
        (fun h => by split at h <;> cases h)
      exact ⟨d :: x, by rw [dropLoneBrackets_inLine, hx, List.cons_append]⟩
    cases p with
    | inLine => exact hin
    | dropped =>
      rw [List.cons_append, dropLoneBrackets_dropped]
      split
      · obtain ⟨x, hx⟩ := ih .lineStart nofun
        exact ⟨d :: x, by rw [hx, List.cons_append]⟩
      · next hd => exact ih .dropped fun _ => by simpa [Ne.symm hd] using hp rfl
    | lineStart =>
      rw [List.cons_append, dropLoneBrackets_lineStart]
      split
      · next hlone =>
        -- the line that is dropped is not the last one
        have hvisible := loneBracket_iff.mp hlone
        have hnewline : '\n' ∈ d :: a := by
          by_contra hno
          have hmem := mem_visible_append hno hc
          rw [List.cons_append, hvisible] at hmem
          exact hne (List.mem_singleton.mp hmem)
        refine ih .dropped fun _ => ?_
        rcases List.mem_cons.mp hnewline with rfl | hmem
        · simp at hvisible
        · exact hmem
      · exact hin

theorem readIds_join {lines : List Text} (h : ∀ line ∈ lines, openAfter none line = none) :
    readIds U (Text.join ['\n'] lines) = lines.flatMap (readIds U) := by
  have hruns : runs (Text.join ['\n'] lines) = lines.flatMap runs := by
    induction lines with
    | nil => rfl
    | cons line lines ih =>
      obtain ⟨hline, hlines⟩ := List.forall_mem_cons.mp h
      cases lines with
      | nil => simp [Text.join]
      | cons next lines =>
        have htail := ih hlines
        simp only [Text.join, List.intercalate_cons_cons] at htail ⊢
        rw [List.append_assoc, runs, Brackets.runsFrom_append, hline, List.singleton_append,
          Brackets.runsFrom_cons (by decide), List.flatMap_cons, ← htail]
        rfl
  rw [readIds, hruns, List.filter_flatMap, List.flatMap_assoc]
  rfl

end QnscKb.Ask
