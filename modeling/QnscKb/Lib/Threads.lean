import QnscKb.Lib.Runs
import Mathlib.Logic.Function.Basic

/-!
# Threads — programs over a shared memory

Threads with a local state each, one of which takes a step on its own state and the shared memory
at a time.
-/

namespace QnscKb.Threads
open QnscKb.Runs

variable {ι α L G : Type} [DecidableEq ι]

/-- The threads' states and the memory. -/
structure Config (ι L G : Type) where
  locals : ι → L
  shared : G

/-- A step of one thread. -/
structure Action (ι α : Type) where
  thread : ι
  input : α
  deriving DecidableEq

variable (step : ι → α → L → G → Option (L × G))

def next (s : Config ι L G) (a : Action ι α) : Option (Action ι α × Config ι L G) :=
  (step a.thread a.input (s.locals a.thread) s.shared).map fun out =>
    (a, ⟨Function.update s.locals a.thread out.1, out.2⟩)

variable {step}

theorem next_cases {s t : Config ι L G} {a e : Action ι α} (h : next step s a = some (e, t)) :
    e = a ∧ ∃ l g, step a.thread a.input (s.locals a.thread) s.shared = some (l, g) ∧
      t = ⟨Function.update s.locals a.thread l, g⟩ := by
  obtain ⟨⟨l, g⟩, hstep, heq⟩ := Option.map_eq_some_iff.mp h
  cases heq
  exact ⟨rfl, l, g, hstep, rfl⟩

/-- **Assertions without interference** hold in every interleaving. -/
theorem owicki_gries {init : Config ι L G → Prop} {C : Config ι L G → Action ι α → Prop}
    {I : G → Prop} {A : ι → L → G → Prop}
    (hinit : ∀ s, init s → I s.shared ∧ ∀ i, A i (s.locals i) s.shared)
    (hown : ∀ s i x l g, C s ⟨i, x⟩ → I s.shared → A i (s.locals i) s.shared →
      step i x (s.locals i) s.shared = some (l, g) → I g ∧ A i l g)
    (hothers : ∀ s i x l g j, C s ⟨i, x⟩ → I s.shared → A i (s.locals i) s.shared →
      step i x (s.locals i) s.shared = some (l, g) → j ≠ i → A j (s.locals j) s.shared →
        A j (s.locals j) g)
    {tr : List (Config ι L G × Action ι α)} {s : Config ι L G}
    (r : Run init (By (next step)) tr s) (hc : Throughout C tr) :
    I s.shared ∧ ∀ i, A i (s.locals i) s.shared := by
  refine r.invariant (I := fun s => I s.shared ∧ ∀ i, A i (s.locals i) s.shared) hinit ?_ hc
  rintro s e t ⟨hi, ha⟩ hc ⟨a, hnext⟩
  obtain ⟨rfl, l, g, hstep, rfl⟩ := next_cases hnext
  obtain ⟨hi', ha'⟩ := hown s e.thread e.input l g hc hi (ha _) hstep
  refine ⟨hi', fun j => ?_⟩
  dsimp only
  by_cases hj : j = e.thread
  · rw [hj, Function.update_self]
    exact ha'
  · rw [Function.update_of_ne hj]
    exact hothers s e.thread e.input l g j hc hi (ha _) hstep hj (ha j)

end QnscKb.Threads
