import QnscKb.Chunking.Lossless

/-!
# Restructure — Oversized

A source that is too long for one call is sent in sections (`_split_oversized_source` of
`src/domain/content_restructure.py`): paragraphs are put together while they fit, and one that does
not fit is cut at blanks.  The loop that cuts runs on fuel.
-/

namespace QnscKb.Restructure

open QnscKb.Chunking (paragraphs paragraphsFrom behindNewlines ink_lstrip ink_strip ink_paragraphs)
open Ink
open Text (isSpace)

/-! ### The loops -/

def rfindBlank (maxChars : ℕ) (paragraph : Text) : Option ℕ :=
  ((paragraph.take maxChars).reverse.findIdx? (· == ' ')).map fun back =>
    (paragraph.take maxChars).length - 1 - back

def boundary (maxChars : ℕ) (paragraph : Text) : ℕ :=
  match rfindBlank maxChars paragraph with
  | some place => if place < maxChars / 2 then maxChars else place
  | none => maxChars

/-- The loop that cuts a paragraph: its pieces, and what is left of it. -/
def cutFrom (maxChars : ℕ) : ℕ → Text → Option (List Text × Text)
  | fuel, paragraph =>
    if paragraph.length ≤ maxChars then some ([], paragraph)
    else
      match fuel with
      | 0 => none
      | fuel + 1 =>
        (cutFrom maxChars fuel (Text.lstrip (paragraph.drop (boundary maxChars paragraph)))).map
          fun out =>
            (Text.strip (paragraph.take (boundary maxChars paragraph)) :: out.1, out.2)

def candidate (current paragraph : Text) : Text :=
  if current.isEmpty then paragraph else current ++ ("\n\n".toList ++ paragraph)

def sectionOf (current : Text) : List Text := if current.isEmpty then [] else [current]

/-- The loop over the paragraphs, from the section read so far on. -/
def sectionsFrom (maxChars fuel : ℕ) : Text → List Text → Option (List Text)
  | current, [] => some (sectionOf current)
  | current, paragraph :: rest =>
    if (candidate current paragraph).length ≤ maxChars then
      sectionsFrom maxChars fuel (candidate current paragraph) rest
    else do
      let out ← cutFrom maxChars fuel paragraph
      let sections ← sectionsFrom maxChars fuel out.2 rest
      return sectionOf current ++ (out.1 ++ sections)

def splitOversizedSource (sourceText : Text) (maxChars fuel : ℕ) : Option (List Text) :=
  (sectionsFrom maxChars fuel [] (paragraphs sourceText)).map fun sections =>
    sections.filter fun text => !(Text.strip text).isEmpty

/-! ### A cut -/

variable {maxChars : ℕ} {paragraph : Text}

theorem rfindBlank_lt {place : ℕ} (h : rfindBlank maxChars paragraph = some place) :
    place < maxChars ∧ paragraph[place]? = some ' ' := by
  obtain ⟨back, hback, rfl⟩ := Option.map_eq_some_iff.mp h
  obtain ⟨hlt, hblank, -⟩ := List.findIdx?_eq_some_iff_getElem.mp hback
  rw [List.length_reverse] at hlt
  rw [List.getElem_reverse, beq_iff_eq, List.getElem_take] at hblank
  refine ⟨?_, ?_⟩
  · have hle := List.length_take_le maxChars paragraph
    omega
  · rw [← hblank]
    exact List.getElem?_eq_getElem _

theorem boundary_le (maxChars : ℕ) (paragraph : Text) : boundary maxChars paragraph ≤ maxChars := by
  unfold boundary
  split
  · rename_i place hplace
    split
    · exact le_rfl
    · exact (rfindBlank_lt hplace).1.le
  · exact le_rfl

theorem length_lstrip_le (t : Text) : (Text.lstrip t).length ≤ t.length :=
  (List.dropWhile_suffix _).length_le

theorem length_left_lt (hmax : 0 < maxChars) (h : maxChars < paragraph.length) :
    (Text.lstrip (paragraph.drop (boundary maxChars paragraph))).length < paragraph.length := by
  cases hboundary : boundary maxChars paragraph with
  | succ n =>
    refine (length_lstrip_le _).trans_lt ?_
    rw [List.length_drop]
    omega
  | zero =>
    have hblank : paragraph[0]? = some ' ' := by
      unfold boundary at hboundary
      split at hboundary
      · rename_i place hplace
        split at hboundary
        · exact absurd hboundary hmax.ne'
        · rw [hboundary] at hplace
          exact (rfindBlank_lt hplace).2
      · exact absurd hboundary hmax.ne'
    cases paragraph with
    | nil => cases hblank
    | cons c rest =>
      cases hblank
      exact Nat.lt_succ_of_le (length_lstrip_le rest)

/-- What cutting a paragraph comes to. -/
structure Cut (maxChars : ℕ) (paragraph : Text) (out : List Text × Text) : Prop where
  short : ∀ piece ∈ out.1, piece.length ≤ maxChars
  left : out.2.length ≤ maxChars
  ink : out.1.flatMap (ink isSpace) ++ ink isSpace out.2 = ink isSpace paragraph

theorem Cut.cons {out : List Text × Text}
    (h : Cut maxChars (Text.lstrip (paragraph.drop (boundary maxChars paragraph))) out) :
    Cut maxChars paragraph
      (Text.strip (paragraph.take (boundary maxChars paragraph)) :: out.1, out.2) where
  short := by
    refine List.forall_mem_cons.mpr ⟨?_, h.short⟩
    exact (Text.length_strip_le _).trans
      ((List.length_take_le _ _).trans (boundary_le maxChars paragraph))
  left := h.left
  ink := by
    have hleft := h.ink
    rw [ink_lstrip] at hleft
    rw [List.flatMap_cons, List.append_assoc, hleft, ink_strip, ← ink_append, List.take_append_drop]

/-- **The loop ends**, after as many passes as the paragraph has characters. -/
theorem cutFrom_ends (hmax : 0 < maxChars) (paragraph : Text) :
    ∃ out, Cut maxChars paragraph out ∧
      ∀ fuel, paragraph.length ≤ fuel → cutFrom maxChars fuel paragraph = some out := by
  induction hlength : paragraph.length using Nat.strong_induction_on generalizing paragraph with
  | _ n ih =>
    subst hlength
    rcases Nat.lt_or_ge maxChars paragraph.length with hlong | hshort
    · -- what is left is shorter, so one pass fewer is enough for it
      obtain ⟨out, hcut, hout⟩ := ih _ (length_left_lt hmax hlong) _ rfl
      refine ⟨_, hcut.cons, fun fuel hfuel => ?_⟩
      cases fuel with
      | zero => exact absurd (hlong.trans_le hfuel) (Nat.not_lt_zero _)
      | succ fuel =>
        have hpasses := (length_left_lt hmax hlong).trans_le hfuel
        rw [cutFrom, if_neg (Nat.not_le.mpr hlong), hout fuel (Nat.le_of_lt_succ hpasses)]
        rfl
    · refine ⟨([], paragraph), ⟨List.forall_mem_nil _, hshort, rfl⟩, fun fuel _ => ?_⟩
      unfold cutFrom
      exact if_pos hshort

/-! ### The sections -/

theorem ink_sectionOf (current : Text) :
    (sectionOf current).flatMap (ink isSpace) = ink isSpace current := by
  unfold sectionOf
  split
  · rename_i hempty
    rw [List.isEmpty_iff.mp hempty]
    rfl
  · exact List.flatMap_singleton ..

theorem length_of_mem_sectionOf {current text : Text} (hcurrent : current.length ≤ maxChars)
    (h : text ∈ sectionOf current) : text.length ≤ maxChars := by
  unfold sectionOf at h
  split at h
  · cases h
  · rw [List.mem_singleton.mp h]
    exact hcurrent

theorem ink_candidate (current paragraph : Text) :
    ink isSpace (candidate current paragraph) = ink isSpace current ++ ink isSpace paragraph := by
  unfold candidate
  split
  · rename_i hempty
    rw [List.isEmpty_iff.mp hempty]
    rfl
  · have hbreaks : ink isSpace "\n\n".toList = [] := ink_blanks (by simp [isSpace])
    rw [ink_append, ink_append, hbreaks, List.nil_append]

/-- The sections of some paragraphs. -/
theorem sectionsFrom_ends (hmax : 0 < maxChars) {current : Text}
    (hcurrent : current.length ≤ maxChars) (rest : List Text) :
    ∃ sections, (∀ fuel, (∀ paragraph ∈ rest, paragraph.length ≤ fuel) →
        sectionsFrom maxChars fuel current rest = some sections) ∧
      (∀ text ∈ sections, text.length ≤ maxChars) ∧
      sections.flatMap (ink isSpace) = ink isSpace current ++ rest.flatMap (ink isSpace) := by
  induction rest generalizing current with
  | nil =>
    refine ⟨sectionOf current, fun _ _ => rfl, fun _ => length_of_mem_sectionOf hcurrent, ?_⟩
    rw [ink_sectionOf, List.flatMap_nil, List.append_nil]
  | cons paragraph rest ih =>
    by_cases hfits : (candidate current paragraph).length ≤ maxChars
    · obtain ⟨sections, hends, hshort, hink⟩ := ih hfits
      refine ⟨sections, fun fuel hfuel => ?_, hshort, ?_⟩
      · rw [sectionsFrom, if_pos hfits]
        exact hends fuel (List.forall_mem_cons.mp hfuel).2
      · rw [hink, ink_candidate, List.append_assoc, List.flatMap_cons]
    · -- the section is closed, and the rest of the cut opens the next one
      obtain ⟨out, hcut, hcuts⟩ := cutFrom_ends hmax paragraph
      obtain ⟨sections, hends, hshort, hink⟩ := ih hcut.left
      refine ⟨sectionOf current ++ (out.1 ++ sections), fun fuel hfuel => ?_, ?_, ?_⟩
      · obtain ⟨hparagraph, hrest⟩ := List.forall_mem_cons.mp hfuel
        rw [sectionsFrom, if_neg hfits, hcuts fuel hparagraph]
        change (sectionsFrom maxChars fuel out.2 rest).bind _ = _
        rw [hends fuel hrest]
        rfl
      · exact List.forall_mem_append.mpr ⟨fun _ => length_of_mem_sectionOf hcurrent,
          List.forall_mem_append.mpr ⟨hcut.short, hshort⟩⟩
      · rw [List.flatMap_append, List.flatMap_append, ink_sectionOf, hink, List.flatMap_cons,
          ← hcut.ink]
        simp only [List.append_assoc]

theorem length_behindNewlines_le (run : Text) : (behindNewlines run).length ≤ run.length := by
  have hle := (List.takeWhile_prefix (l := run.reverse) (· != '\n')).length_le
  rw [behindNewlines, List.length_reverse]
  rwa [List.length_reverse] at hle

theorem length_le_of_mem_paragraphsFrom {read run t : Text}
    (h : paragraph ∈ paragraphsFrom read run t) :
    paragraph.length ≤ read.length + run.length + t.length := by
  fun_induction paragraphsFrom read run t with
  | case1 read run hgap =>
    have hrun := length_behindNewlines_le run
    rcases List.mem_pair.mp h with rfl | rfl <;> simp only [List.length_nil] <;> omega
  | case2 read run hgap =>
    rw [List.mem_singleton.mp h, List.length_append]
    exact le_rfl
  | case3 read run c t hblank ih =>
    have hle := ih h
    simp only [List.length_append, List.length_cons, List.length_nil] at hle ⊢
    omega
  | case4 read run c t hink hgap ih =>
    have hrun := length_behindNewlines_le run
    rw [List.length_cons]
    rcases List.mem_cons.mp h with rfl | h
    · omega
    · have hle := ih h
      simp only [List.length_append, List.length_cons, List.length_nil] at hle
      omega
  | case5 read run c t hink hjoined ih =>
    have hle := ih h
    simp only [List.length_append, List.length_cons, List.length_nil] at hle ⊢
    omega

/-- **Nothing is lost**: the loops end, the sections are as short as they should be, and they are
the source up to white space. -/
theorem splitOversizedSource_lossless (sourceText : Text) (maxChars : ℕ+) :
    ∃ sections, (∀ fuel, sourceText.length ≤ fuel →
        splitOversizedSource sourceText maxChars fuel = some sections) ∧
      (∀ text ∈ sections, text.length ≤ maxChars) ∧
      sections.flatMap (ink isSpace) = ink isSpace sourceText := by
  have hmax : 0 < (maxChars : ℕ) := maxChars.2
  have hnil : ([] : Text).length ≤ maxChars := Nat.zero_le _
  obtain ⟨sections, hends, hshort, hink⟩ :=
    sectionsFrom_ends hmax hnil (paragraphs sourceText)
  refine ⟨sections.filter fun text => !(Text.strip text).isEmpty, fun fuel hfuel => ?_,
    fun text htext => hshort text (List.mem_filter.mp htext).1, ?_⟩
  · rw [splitOversizedSource, hends fuel]
    · rfl
    · intro paragraph hparagraph
      refine (length_le_of_mem_paragraphsFrom hparagraph).trans ?_
      simpa using hfuel
  · rw [flatMap_filter, hink, ink_paragraphs, ink_nil, List.nil_append]
    intro text _ hblank
    have hnil : Text.strip text = [] := by simpa using hblank
    rw [← ink_strip, hnil]
    rfl

end QnscKb.Restructure
