import Mathlib.Data.List.DropRight
import Mathlib.Data.List.Flatten
import Mathlib.Logic.Relation

/-!
# Ink — texts up to their blanks

What is left of a text when its blanks are taken out of it.  Two texts have the same ink when they
differ in blanks alone.
-/

namespace QnscKb.Ink

variable {α : Type} (blank : α → Bool)

/-- The characters that are no blanks. -/
def ink (t : List α) : List α := t.filter fun c => !blank c

variable {blank} {s t : List α} {c : α}

@[simp] theorem ink_nil : ink blank [] = [] := rfl

@[simp] theorem ink_append (s t : List α) : ink blank (s ++ t) = ink blank s ++ ink blank t :=
  List.filter_append ..

theorem ink_cons_blank (h : blank c = true) (t : List α) : ink blank (c :: t) = ink blank t := by
  simp [ink, h]

theorem ink_cons_of_not (h : blank c = false) (t : List α) :
    ink blank (c :: t) = c :: ink blank t := by
  simp [ink, h]

theorem ink_eq_nil_iff : ink blank t = [] ↔ ∀ c ∈ t, blank c = true := by
  simp [ink, List.filter_eq_nil_iff]

theorem ink_blanks (h : ∀ c ∈ t, blank c = true) : ink blank t = [] := ink_eq_nil_iff.mpr h

/-- Ink is read piece by piece. -/
theorem ink_flatten (ts : List (List α)) :
    ink blank ts.flatten = ts.flatMap (ink blank) := by
  induction ts with
  | nil => rfl
  | cons t ts ih => rw [List.flatten_cons, ink_append, List.flatMap_cons, ih]

/-- A separator of blanks adds nothing. -/
theorem ink_intercalate (h : ∀ c ∈ s, blank c = true) (ts : List (List α)) :
    ink blank (s.intercalate ts) = ts.flatMap (ink blank) := by
  induction ts with
  | nil => rfl
  | cons t ts ih =>
    cases ts with
    | nil => simp [List.intercalate]
    | cons next ts =>
      rw [List.intercalate_cons_cons, ink_append, ink_append, ink_blanks h, List.append_nil,
        List.flatMap_cons, ih]

/-- The blanks in front count for nothing. -/
theorem ink_dropWhile (t : List α) : ink blank (t.dropWhile blank) = ink blank t := by
  induction t with
  | nil => rfl
  | cons c t ih =>
    cases hc : blank c with
    | true => rw [List.dropWhile_cons_of_pos hc, ih, ink_cons_blank hc]
    | false => rw [List.dropWhile_cons_of_neg (by simp [hc])]

theorem ink_reverse (t : List α) : ink blank t.reverse = (ink blank t).reverse :=
  List.filter_reverse ..

/-- Those at the end neither. -/
theorem ink_rdropWhile (t : List α) :
    ink blank (t.reverse.dropWhile blank).reverse = ink blank t := by
  rw [ink_reverse, ink_dropWhile, ink_reverse, List.reverse_reverse]

/-- Texts without ink may be left out. -/
theorem flatMap_filter {β : Type} {f : β → List α} {l : List β} {keep : β → Bool}
    (h : ∀ x ∈ l, keep x = false → f x = []) : (l.filter keep).flatMap f = l.flatMap f := by
  induction l with
  | nil => rfl
  | cons x l ih =>
    have hrest := ih fun y hy => h y (List.mem_cons_of_mem x hy)
    cases hkeep : keep x with
    | true => rw [List.filter_cons_of_pos hkeep, List.flatMap_cons, List.flatMap_cons, hrest]
    | false =>
      rw [List.filter_cons_of_neg (by simp [hkeep]), List.flatMap_cons, hrest,
        h x List.mem_cons_self hkeep, List.nil_append]

/-! ### Seams -/

/-- A text is the texts of a list, with blanks alone around and between them. -/
inductive Seamed (blank : α → Bool) : List (List α) → List α → Prop
  | last {gap : List α} (h : ∀ c ∈ gap, blank c = true) : Seamed blank [] gap
  | next {gap : List α} {t : List α} {ts : List (List α)} {rest : List α}
      (h : ∀ c ∈ gap, blank c = true) (htail : Seamed blank ts rest) :
      Seamed blank (t :: ts) (gap ++ t ++ rest)

namespace Seamed

variable {ts : List (List α)} {gap : List α}

theorem prepend (h : ∀ c ∈ gap, blank c = true) (hseamed : Seamed blank ts t) :
    Seamed blank ts (gap ++ t) := by
  cases hseamed with
  | last hlast => exact .last (List.forall_mem_append.mpr ⟨h, hlast⟩)
  | next hnext htail =>
    rw [← List.append_assoc, ← List.append_assoc]
    exact .next (List.forall_mem_append.mpr ⟨h, hnext⟩) htail

theorem append (hseamed : Seamed blank ts t) (h : ∀ c ∈ gap, blank c = true) :
    Seamed blank ts (t ++ gap) := by
  induction hseamed with
  | last hlast => exact .last (List.forall_mem_append.mpr ⟨hlast, h⟩)
  | next hnext _ ih =>
    rw [List.append_assoc]
    exact .next hnext ih

end Seamed

/-- Two neighbours of a list become one, with other blanks between them. -/
inductive Joined (blank : α → Bool) : List (List α) → List (List α) → Prop
  | intro (pre post : List (List α)) {a b u v w : List α} (hu : ∀ c ∈ u, blank c = true)
      (hv : ∀ c ∈ v, blank c = true) (hw : ∀ c ∈ w, blank c = true) :
      Joined blank (pre ++ (a ++ u) :: (v ++ b) :: post) (pre ++ (a ++ (w ++ b)) :: post)

/-- A list of texts with one more seam, or one less. -/
def Reseam (blank : α → Bool) (ts us : List (List α)) : Prop :=
  Joined blank ts us ∨ Joined blank us ts

theorem Joined.ink_eq {ts us : List (List α)} (h : Joined blank ts us) :
    ts.flatMap (ink blank) = us.flatMap (ink blank) := by
  obtain ⟨pre, post, hu, hv, hw⟩ := h
  simp [List.flatMap_append, List.flatMap_cons, ink_blanks hu, ink_blanks hv, ink_blanks hw]

theorem reseams_ink_eq {ts us : List (List α)}
    (h : Relation.ReflTransGen (Reseam blank) ts us) :
    ts.flatMap (ink blank) = us.flatMap (ink blank) := by
  induction h with
  | refl => rfl
  | tail _ hstep ih => exact ih.trans (hstep.elim Joined.ink_eq fun h => h.ink_eq.symm)

end QnscKb.Ink
