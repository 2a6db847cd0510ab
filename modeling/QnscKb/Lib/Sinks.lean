import Mathlib.Data.Set.Basic

/-!
# Sinks — what a walk can end at

A relation read as steps; a sink has no step.
-/

namespace QnscKb.Sinks

variable {α : Type} (r : α → α → Prop)

/-- No step starts here. -/
def Sink (x : α) : Prop := ∀ y, ¬r x y

/-- A set with something in it, all of it with steps, and these stay in it. -/
structure Knot (s : Set α) : Prop where
  nonempty : s.Nonempty
  step : ∀ x ∈ s, ∃ y, r x y
  closed : ∀ x ∈ s, ∀ y, r x y → y ∈ s

variable {r}

theorem Knot.walk {s : Set α} (h : Knot r s) {x y : α} (hx : x ∈ s)
    (hwalk : Relation.TransGen r x y) : y ∈ s := by
  induction hwalk with
  | single hstep => exact h.closed x hx _ hstep
  | tail _ hstep ih => exact h.closed _ ih _ hstep

theorem knot_of_sinkless {x : α} (hx : ∃ y, r x y)
    (h : ∀ y, Relation.TransGen r x y → ¬Sink r y) : Knot r {y | Relation.TransGen r x y} where
  nonempty := hx.imp fun _ hstep => .single hstep
  step y hy := by
    have hmore := h y hy
    rw [Sink, not_forall] at hmore
    exact hmore.imp fun _ hstep => not_not.mp hstep
  closed _ hy _ hstep := .tail hy hstep

/-- **From everything that has a step a sink is reached exactly when there is no knot.** -/
theorem reaches_sink_iff :
    (∀ x, (∃ y, r x y) → ∃ y, Relation.TransGen r x y ∧ Sink r y) ↔ ¬∃ s, Knot r s := by
  constructor
  · rintro hreach ⟨s, hknot⟩
    obtain ⟨x, hx⟩ := hknot.nonempty
    obtain ⟨y, hwalk, hsink⟩ := hreach x (hknot.step x hx)
    obtain ⟨z, hstep⟩ := hknot.step y (hknot.walk hx hwalk)
    exact hsink z hstep
  · intro hnone x hx
    by_contra hsinkless
    exact hnone ⟨_, knot_of_sinkless hx fun y hwalk hsink => hsinkless ⟨y, hwalk, hsink⟩⟩

end QnscKb.Sinks
