import Mathlib.Data.List.DropRight
import Mathlib.Data.List.ModifyLast

/-!
# Lines — the stated lines of a text

What a text says line by line, whatever the white space around it: its lines, each without the
blanks at its ends, less those that nothing is left of.
-/

namespace QnscKb.Lines

variable {α : Type} (isBreak blank : α → Bool)

/-- A text without the blanks at its ends. -/
def trim (t : List α) : List α := (t.dropWhile blank).rdropWhile blank

/-- The lines of a text that say something, trimmed. -/
def stated (t : List α) : List (List α) :=
  ((t.splitOnP isBreak).map (trim blank)).filter (!·.isEmpty)

/-- The lines of a text that are not blank, as they stand. -/
def inked (t : List α) : List (List α) := (t.splitOnP isBreak).filter (!·.all blank)

/-- The first of lines loses the blanks it opens with, the last those it ends with. -/
def trimEnds (lines : List (List α)) : List (List α) :=
  (lines.modifyHead (List.dropWhile blank)).modifyLast (List.rdropWhile blank)

variable {isBreak blank} {c : α}

/-! ### Trimming -/

theorem trim_never (t : List α) : trim (fun _ => false) t = t := by
  have hfront : t.dropWhile (fun _ => false) = t := by cases t <;> simp
  rw [trim, hfront]
  simp

theorem trim_cons (hblank : blank c = true) (t : List α) : trim blank (c :: t) = trim blank t := by
  rw [trim, List.dropWhile_cons_of_pos hblank, trim]

theorem trim_concat (hblank : blank c = true) (t : List α) :
    trim blank (t ++ [c]) = trim blank t := by
  have hlast : [c].dropWhile blank = [] := by
    rw [List.dropWhile_cons_of_pos hblank, List.dropWhile_nil]
  rw [trim, List.dropWhile_append, trim]
  by_cases hall : (t.dropWhile blank).isEmpty
  · rw [if_pos hall, hlast, List.isEmpty_iff.mp hall]
  · rw [if_neg hall, List.rdropWhile_concat_pos _ _ _ hblank]

theorem trim_rdropWhile (t : List α) : trim blank (t.rdropWhile blank) = trim blank t := by
  induction t using List.reverseRecOn with
  | nil => rfl
  | append_singleton t c ih =>
    by_cases hblank : blank c = true
    · rw [List.rdropWhile_concat_pos _ _ _ hblank, ih, trim_concat hblank]
    · rw [List.rdropWhile_concat_neg _ _ _ hblank]

/-- Trimmed, lines do not tell whether their ends were trimmed before. -/
theorem map_trim_trimEnds (lines : List (List α)) :
    (trimEnds blank lines).map (trim blank) = lines.map (trim blank) := by
  have hlast : ∀ lines : List (List α),
      (lines.modifyLast (List.rdropWhile blank)).map (trim blank) = lines.map (trim blank) := by
    intro lines
    obtain rfl | ⟨init, last, rfl⟩ := List.eq_nil_or_concat' lines
    · rfl
    · rw [List.modifyLast_concat, List.map_append, List.map_append, List.map_singleton,
        List.map_singleton, trim_rdropWhile]
  rw [trimEnds, hlast]
  cases lines with
  | nil => rfl
  | cons line lines =>
    rw [List.modifyHead_cons, List.map_cons, trim, List.dropWhile_idempotent]
    rfl

@[simp] theorem stated_nil : stated isBreak blank [] = [] := rfl

/-- Texts set apart by a break state what each states. -/
theorem stated_append_break (hbreak : isBreak c = true) (s t : List α) :
    stated isBreak blank (s ++ c :: t) = stated isBreak blank s ++ stated isBreak blank t := by
  rw [stated, List.splitOnP_append_cons _ _ hbreak, List.map_append, List.filter_append]
  rfl

theorem stated_unbroken {line : List α} (h : ∀ c ∈ line, isBreak c = false) :
    stated isBreak blank line = [trim blank line].filter (!·.isEmpty) := by
  rw [stated, List.splitOnP_eq_singleton h, List.map_singleton]

/-- Lines without a break state what is left of them. -/
theorem flatMap_stated {lines : List (List α)} (h : ∀ line ∈ lines, ∀ c ∈ line, isBreak c = false) :
    lines.flatMap (stated isBreak blank) = (lines.map (trim blank)).filter (!·.isEmpty) := by
  induction lines with
  | nil => rfl
  | cons line lines ih =>
    obtain ⟨hline, hlines⟩ := List.forall_mem_cons.mp h
    rw [List.flatMap_cons, stated_unbroken hline, ih hlines, ← List.filter_append]
    rfl

theorem stated_intercalate (hbreak : isBreak c = true) (lines : List (List α)) :
    stated isBreak blank ([c].intercalate lines) = lines.flatMap (stated isBreak blank) := by
  induction lines with
  | nil => rfl
  | cons line lines ih =>
    cases lines with
    | nil => simp
    | cons next lines =>
      rw [List.intercalate_cons_cons, List.append_assoc, List.singleton_append,
        stated_append_break hbreak, ih]
      rfl

/-! ### Blanks -/

theorem stated_cons (hblank : blank c = true) (t : List α) :
    stated isBreak blank (c :: t) = stated isBreak blank t := by
  cases hbreak : isBreak c with
  | true => exact stated_append_break hbreak [] t
  | false =>
    obtain ⟨line, lines, hlines⟩ := List.exists_cons_of_ne_nil (List.splitOnP_ne_nil isBreak t)
    rw [stated, stated, List.splitOnP_cons_eq_if_modifyHead, if_neg (by simp [hbreak]), hlines,
      List.modifyHead_cons, List.map_cons, List.map_cons, trim_cons hblank]

theorem splitOnP_concat (hbreak : isBreak c = false) (t : List α) :
    ∃ lines line, t.splitOnP isBreak = lines ++ [line] ∧
      (t ++ [c]).splitOnP isBreak = lines ++ [line ++ [c]] := by
  induction t with
  | nil =>
    refine ⟨[], [], rfl, ?_⟩
    exact List.splitOnP_eq_singleton (by simpa using hbreak)
  | cons d t ih =>
    obtain ⟨lines, line, hsplit, hconcat⟩ := ih
    rw [List.cons_append, List.splitOnP_cons_eq_if_modifyHead,
      List.splitOnP_cons_eq_if_modifyHead, hsplit, hconcat]
    cases isBreak d with
    | true => exact ⟨[] :: lines, line, rfl, rfl⟩
    | false =>
      cases lines with
      | nil => exact ⟨[], d :: line, rfl, rfl⟩
      | cons first lines => exact ⟨(d :: first) :: lines, line, rfl, rfl⟩

theorem stated_concat (hblank : blank c = true) (t : List α) :
    stated isBreak blank (t ++ [c]) = stated isBreak blank t := by
  cases hbreak : isBreak c with
  | true => rw [stated_append_break hbreak, stated_nil, List.append_nil]
  | false =>
    obtain ⟨lines, line, hsplit, hconcat⟩ := splitOnP_concat hbreak t
    rw [stated, stated, hsplit, hconcat, List.map_append, List.map_append, List.map_singleton,
      List.map_singleton, trim_concat hblank]

theorem stated_dropWhile (t : List α) :
    stated isBreak blank (t.dropWhile blank) = stated isBreak blank t := by
  induction t with
  | nil => rfl
  | cons c t ih =>
    rw [List.dropWhile_cons]
    split_ifs with hblank
    · rw [ih, stated_cons hblank]
    · rfl

theorem stated_rdropWhile (t : List α) :
    stated isBreak blank (t.rdropWhile blank) = stated isBreak blank t := by
  induction t using List.reverseRecOn with
  | nil => rfl
  | append_singleton t c ih =>
    rw [List.rdropWhile_concat]
    split_ifs with hblank
    · rw [ih, stated_concat hblank]
    · rfl

/-- The blanks around a text state nothing. -/
theorem stated_trim (t : List α) :
    stated isBreak blank (trim blank t) = stated isBreak blank t := by
  rw [trim, stated_rdropWhile, stated_dropWhile]

/-! ### The lines as they stand -/

theorem inked_append_break (hbreak : isBreak c = true) (s t : List α) :
    inked isBreak blank (s ++ c :: t) = inked isBreak blank s ++ inked isBreak blank t := by
  rw [inked, List.splitOnP_append_cons _ _ hbreak, List.filter_append]
  rfl

theorem inked_unbroken {line : List α} (h : ∀ c ∈ line, isBreak c = false) :
    inked isBreak blank line = [line].filter (!·.all blank) := by
  rw [inked, List.splitOnP_eq_singleton h]

theorem inked_intercalate (hbreak : isBreak c = true) {lines : List (List α)}
    (h : ∀ line ∈ lines, ∀ c ∈ line, isBreak c = false) :
    inked isBreak blank ([c].intercalate lines) = lines.filter (!·.all blank) := by
  induction lines with
  | nil => simp [inked]
  | cons line lines ih =>
    obtain ⟨hline, hlines⟩ := List.forall_mem_cons.mp h
    cases lines with
    | nil => rw [List.intercalate_singleton, inked_unbroken hline]
    | cons next lines =>
      rw [List.intercalate_cons_cons, List.append_assoc, List.singleton_append,
        inked_append_break hbreak, ih hlines, inked_unbroken hline, ← List.filter_append]
      rfl

section Ends

variable (hbreaks : ∀ c, isBreak c = true → blank c = true)
include hbreaks

theorem inked_dropWhile (t : List α) :
    inked isBreak blank (t.dropWhile blank) =
      (inked isBreak blank t).modifyHead (List.dropWhile blank) := by
  induction t with
  | nil => simp [inked]
  | cons c t ih =>
    by_cases hblank : blank c = true
    · rw [List.dropWhile_cons_of_pos hblank, ih]
      cases hbreak : isBreak c with
      | true =>
        have hnil : inked isBreak blank ([] : List α) = [] := by simp [inked]
        rw [← List.nil_append (c :: t), inked_append_break hbreak, hnil, List.nil_append]
      | false =>
        obtain ⟨line, lines, hlines⟩ := List.exists_cons_of_ne_nil (List.splitOnP_ne_nil isBreak t)
        rw [inked, inked, List.splitOnP_cons_eq_if_modifyHead, if_neg (by simp [hbreak]), hlines,
          List.modifyHead_cons, List.filter_cons, List.filter_cons, List.all_cons, hblank,
          Bool.true_and]
        -- a blank first line is left out with the character and without it
        split_ifs
        · rw [List.modifyHead_cons, List.modifyHead_cons, List.dropWhile_cons_of_pos hblank]
        · rfl
    · have hbreak : isBreak c = false := by
        by_contra h
        exact hblank (hbreaks c (by simpa using h))
      obtain ⟨line, lines, hlines⟩ := List.exists_cons_of_ne_nil (List.splitOnP_ne_nil isBreak t)
      rw [List.dropWhile_cons_of_neg hblank, inked, List.splitOnP_cons_eq_if_modifyHead,
        if_neg (by simp [hbreak]), hlines, List.modifyHead_cons,
        List.filter_cons_of_pos (by simp [hblank]), List.modifyHead_cons,
        List.dropWhile_cons_of_neg hblank]

theorem inked_rdropWhile (t : List α) :
    inked isBreak blank (t.rdropWhile blank) =
      (inked isBreak blank t).modifyLast (List.rdropWhile blank) := by
  induction t using List.reverseRecOn with
  | nil =>
    have hnil : inked isBreak blank ([] : List α) = [] := by simp [inked]
    rfl
  | append_singleton t c ih =>
    by_cases hblank : blank c = true
    · rw [List.rdropWhile_concat_pos _ _ _ hblank, ih]
      cases hbreak : isBreak c with
      | true =>
        have hnil : inked isBreak blank ([] : List α) = [] := by simp [inked]
        rw [inked_append_break hbreak, hnil, List.append_nil]
      | false =>
        obtain ⟨lines, line, hsplit, hconcat⟩ := splitOnP_concat hbreak t
        rw [inked, inked, hsplit, hconcat, List.filter_append, List.filter_append,
          List.filter_cons, List.filter_cons, List.all_append, List.all_cons, hblank,
          List.all_nil, Bool.and_true, Bool.and_true]
        split_ifs
        · rw [List.filter_nil, List.modifyLast_concat, List.modifyLast_concat,
            List.rdropWhile_concat_pos _ _ _ hblank]
        · rfl
    · have hbreak : isBreak c = false := by
        by_contra h
        exact hblank (hbreaks c (by simpa using h))
      obtain ⟨lines, line, -, hconcat⟩ := splitOnP_concat hbreak t
      rw [List.rdropWhile_concat_neg _ _ _ hblank, inked, hconcat, List.filter_append,
        List.filter_cons_of_pos (by simp [hblank]), List.filter_nil, List.modifyLast_concat,
        List.rdropWhile_concat_neg _ _ _ hblank]

/-- Trimming a text changes its lines, as they stand, at the two ends alone. -/
theorem inked_trim (t : List α) :
    inked isBreak blank (trim blank t) = trimEnds blank (inked isBreak blank t) := by
  rw [trim, inked_rdropWhile hbreaks, inked_dropWhile hbreaks, trimEnds]

end Ends

/-- Lines kept in order, each as it is or with what `R` puts in its place. -/
inductive Rewrites (R : α → List α → Prop) : List α → List α → Prop
  | nil : Rewrites R [] []
  | kept {line : α} {lines new : List α} :
      Rewrites R lines new → Rewrites R (line :: lines) (line :: new)
  | replaced {line : α} {put lines new : List α} :
      R line put → Rewrites R lines new → Rewrites R (line :: lines) (put ++ new)

variable {R : α → List α → Prop}

theorem Rewrites.refl (lines : List α) : Rewrites R lines lines := by
  induction lines with
  | nil => exact .nil
  | cons line lines ih => exact .kept ih

theorem Rewrites.append {a b a' b' : List α} (h : Rewrites R a a') (h' : Rewrites R b b') :
    Rewrites R (a ++ b) (a' ++ b') := by
  induction h with
  | nil => exact h'
  | kept _ ih => exact .kept ih
  | replaced hput _ ih =>
    rw [List.append_assoc]
    exact .replaced hput ih

theorem Rewrites.single {line : α} {put : List α} (h : R line put) : Rewrites R [line] put := by
  have hput : Rewrites R [line] (put ++ []) := .replaced h .nil
  rwa [List.append_nil] at hput

end QnscKb.Lines
