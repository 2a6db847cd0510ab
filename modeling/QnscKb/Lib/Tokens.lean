import Mathlib.Data.List.Basic

/-!
# Tokens — the runs of a class

The maximal runs of a list's members of a class, in order: what `findall` of a pattern `[…]+`
returns.
-/

namespace QnscKb.Tokens

variable {α : Type} {p : α → Bool}

def finished (run : List α) : List (List α) := if run.isEmpty then [] else [run]

def tokensFrom (p : α → Bool) : List α → List α → List (List α)
  | run, [] => finished run
  | run, c :: t => if p c then tokensFrom p (run ++ [c]) t else finished run ++ tokensFrom p [] t

def tokens (p : α → Bool) (t : List α) : List (List α) := tokensFrom p [] t

theorem tokensFrom_append_sep {c : α} (hc : p c = false) (run s t : List α) :
    tokensFrom p run (s ++ c :: t) = tokensFrom p run s ++ tokens p t := by
  induction s generalizing run with
  | nil => rw [List.nil_append, tokensFrom, tokensFrom, hc, if_neg Bool.false_ne_true, tokens]
  | cons d s ih =>
    rw [List.cons_append, tokensFrom, tokensFrom]
    split
    · exact ih _
    · rw [ih, List.append_assoc]

/-- A member outside the class keeps the runs around it apart. -/
theorem tokens_append_sep {c : α} (hc : p c = false) (s t : List α) :
    tokens p (s ++ c :: t) = tokens p s ++ tokens p t :=
  tokensFrom_append_sep hc [] s t

theorem tokensFrom_append_run {word : List α} (hword : ∀ c ∈ word, p c = true) (run t : List α) :
    tokensFrom p run (word ++ t) = tokensFrom p (run ++ word) t := by
  induction word generalizing run with
  | nil => rw [List.nil_append, List.append_nil]
  | cons c word ih =>
    obtain ⟨hc, hrest⟩ := List.forall_mem_cons.mp hword
    rw [List.cons_append, tokensFrom, if_pos hc, ih hrest, List.append_assoc,
      List.singleton_append]

/-- Members of the class alone are one run. -/
theorem tokens_run {word : List α} (hword : ∀ c ∈ word, p c = true) (hne : word ≠ []) :
    tokens p word = [word] := by
  have hread := tokensFrom_append_run hword [] []
  rw [List.append_nil, List.nil_append, tokensFrom, finished,
    if_neg (by simpa using hne)] at hread
  exact hread

theorem all_or_split (p : α → Bool) (t : List α) : (∀ c ∈ t, p c = true) ∨
    ∃ run c rest, t = run ++ c :: rest ∧ (∀ d ∈ run, p d = true) ∧ p c = false := by
  induction t with
  | nil => exact Or.inl fun c hc => absurd hc List.not_mem_nil
  | cons c t ih =>
    cases hc : p c with
    | false => exact Or.inr ⟨[], c, t, rfl, fun d hd => absurd hd List.not_mem_nil, hc⟩
    | true =>
      rcases ih with hall | ⟨run, d, rest, rfl, hrun, hd⟩
      · exact Or.inl (List.forall_mem_cons.mpr ⟨hc, hall⟩)
      · exact Or.inr ⟨c :: run, d, rest, rfl, List.forall_mem_cons.mpr ⟨hc, hrun⟩, hd⟩

theorem tokens_between {x y : α} {run : List α} (hx : p x = true) (hy : p y = true)
    (hrun : ∀ c ∈ run, p c = true) : tokens p (x :: (run ++ [y])) = [x :: (run ++ [y])] := by
  refine tokens_run ?_ (List.cons_ne_nil _ _)
  refine List.forall_mem_cons.mpr ⟨hx, fun c hc => ?_⟩
  rcases List.mem_append.mp hc with hc | hc
  · exact hrun c hc
  · rw [List.mem_singleton.mp hc]
    exact hy

/-- A list that can stand for a run, whatever ends it, is that run. -/
theorem eq_of_tokens {x y z : α} {a b : List α} (hx : p x = true) (hy : p y = true)
    (hz : p z = true) (hyz : y ≠ z) (hb : ∀ c ∈ b, p c = true)
    (h : ∀ last ∈ [y, z], ∀ word, word ∈ tokens p (x :: (a ++ [last])) →
      word ∈ tokens p (x :: (b ++ [last]))) : a = b := by
  have hread : ∀ last ∈ [y, z], ∀ word ∈ tokens p (x :: (a ++ [last])),
      word = x :: (b ++ [last]) := by
    intro last hlast word hword
    have hp : p last = true := by
      rcases List.mem_cons.mp hlast with rfl | hlast
      · exact hy
      · rw [List.mem_singleton.mp hlast]
        exact hz
    have hmem := h last hlast word hword
    rwa [tokens_between hx hp hb, List.mem_singleton] at hmem
  have hy' : y ∈ [y, z] := List.mem_cons_self
  have hz' : z ∈ [y, z] := List.mem_cons_of_mem y List.mem_cons_self
  rcases all_or_split p a with hall | ⟨run, c, rest, rfl, hrun, hc⟩
  · have hmem : x :: (a ++ [y]) ∈ tokens p (x :: (a ++ [y])) := by
      rw [tokens_between hx hy hall]
      exact List.mem_cons_self
    have heq := hread y hy' _ hmem
    exact List.append_cancel_right (List.cons.inj heq).2
  -- the run breaks off before its end, so it cannot tell the two ends apart
  · have hfirst : ∀ last, x :: run ∈ tokens p (x :: (run ++ c :: rest ++ [last])) := by
      intro last
      have hsplit : x :: (run ++ c :: rest ++ [last]) = (x :: run) ++ c :: (rest ++ [last]) := by
        simp
      rw [hsplit, tokens_append_sep hc,
        tokens_run (List.forall_mem_cons.mpr ⟨hx, hrun⟩) (List.cons_ne_nil _ _)]
      exact List.mem_cons_self
    have hends : x :: (b ++ [y]) = x :: (b ++ [z]) :=
      (hread y hy' _ (hfirst y)).symm.trans (hread z hz' _ (hfirst z))
    have hlast : [y] = [z] := List.append_cancel_left (List.cons.inj hends).2
    exact absurd (List.cons.inj hlast).1 hyz

end QnscKb.Tokens
