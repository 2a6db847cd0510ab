import QnscKb.Lib.Ink
import QnscKb.Lib.Spans
import QnscKb.Lib.Text

/-!
# Words — a text up to its white space

The words of a text (`str.split`): what two texts share that differ in the amount of white space
between words alone.
-/

namespace QnscKb.Text

open Ink (ink)

theorem wordsFrom_append_space {c : Char} (hspace : isSpace c = true) (word s t : Text) :
    wordsFrom word (s ++ c :: t) = wordsFrom word s ++ wordsFrom [] t := by
  induction s generalizing word with
  | nil => simp [wordsFrom, hspace]
  | cons d s ih =>
    rw [List.cons_append, wordsFrom, wordsFrom]
    cases hd : isSpace d with
    | true => rw [if_pos rfl, if_pos rfl, ih, List.append_assoc]
    | false => rw [if_neg Bool.false_ne_true, if_neg Bool.false_ne_true, ih]

theorem words_append_run {gap : Text} (hgap : ∀ c ∈ gap, isSpace c = true) (t : Text) :
    words (gap ++ t) = words t := by
  induction gap with
  | nil => rfl
  | cons c gap ih =>
    obtain ⟨hc, hrest⟩ := List.forall_mem_cons.mp hgap
    have hcut : words (c :: gap ++ t) = words (gap ++ t) :=
      wordsFrom_append_space hc [] [] (gap ++ t)
    exact hcut.trans (ih hrest)

/-- Texts with white space between them have the words of each. -/
theorem words_append_gap {gap : Text} (hne : gap ≠ []) (hgap : ∀ c ∈ gap, isSpace c = true)
    (s t : Text) : words (s ++ (gap ++ t)) = words s ++ words t := by
  cases gap with
  | nil => exact absurd rfl hne
  | cons c gap =>
    obtain ⟨hc, hrest⟩ := List.forall_mem_cons.mp hgap
    have hcut := wordsFrom_append_space hc [] s (gap ++ t)
    exact hcut.trans (congrArg (words s ++ ·) (words_append_run hrest t))

/-- Texts joined by a blank have the words of each. -/
theorem words_join_append (a b : List Text) :
    words (join [' '] (a ++ b)) =
      words (join [' '] a) ++ words (join [' '] b) := by
  induction a with
  | nil => rfl
  | cons t a ih =>
    have hgap : ∀ s t, words (s ++ ([' '] ++ t)) = words s ++ words t := by
      intro s t
      exact words_append_gap (List.cons_ne_nil _ _) (by simp [isSpace]) s t
    cases a with
    | nil =>
      cases b with
      | nil => simp [join, words, wordsFrom]
      | cons u b =>
        rw [List.singleton_append, join_cons_cons, hgap]
        simp [join]
    | cons u a =>
      rw [List.cons_append] at ih
      rw [List.cons_append, List.cons_append, join_cons_cons, join_cons_cons, hgap,
        hgap, ih, List.append_assoc]

/-- The words of two texts do not depend on the white space between them. -/
theorem words_loose : Spans.Loose isSpace words := by
  intro s u gap gap' s' u' hne hne' hgap hgap' hs hu
  rw [words_append_gap hne hgap, words_append_gap hne' hgap', hs, hu]

theorem wordsFrom_flatten (word t : Text) :
    (wordsFrom word t).flatten = word ++ ink isSpace t := by
  induction t generalizing word with
  | nil =>
    rw [wordsFrom]
    split
    · next hempty => rw [List.isEmpty_iff.mp hempty]; rfl
    · simp
  | cons c t ih =>
    rw [wordsFrom]
    cases hc : isSpace c with
    | true =>
      rw [if_pos rfl, List.flatten_append, ih, List.nil_append, Ink.ink_cons_blank hc]
      split
      · next hempty => rw [List.isEmpty_iff.mp hempty]; rfl
      · rw [List.flatten_singleton]
    | false =>
      rw [if_neg Bool.false_ne_true, ih, Ink.ink_cons_of_not hc, List.append_assoc]
      rfl

/-- The words together are the characters that are not white space. -/
theorem words_flatten (t : Text) : (words t).flatten = ink isSpace t := by
  have hflatten := wordsFrom_flatten [] t
  rwa [List.nil_append] at hflatten

end QnscKb.Text
