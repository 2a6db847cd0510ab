import Mathlib.Logic.Basic

/-!
# Runs — traces of a labelled step

`Run init step tr s`: `s` is reached from an initial state by steps whose states and labels `tr`
lists, the last one first.
-/

namespace QnscKb.Runs

variable {σ ε : Type} {init : σ → Prop} {step : σ → ε → σ → Prop}

/-- The runs of a labelled step, with the state each step starts from. -/
inductive Run (init : σ → Prop) (step : σ → ε → σ → Prop) : List (σ × ε) → σ → Prop where
  | start {s : σ} (h : init s) : Run init step [] s
  | next {tr : List (σ × ε)} {s t : σ} {e : ε}
      (r : Run init step tr s) (h : step s e t) : Run init step ((s, e) :: tr) t

/-- Every step of the trace meets the condition. -/
def Throughout (C : σ → ε → Prop) (tr : List (σ × ε)) : Prop :=
  ∀ p ∈ tr, C p.1 p.2

instance {C : σ → ε → Prop} [∀ s e, Decidable (C s e)] (tr : List (σ × ε)) :
    Decidable (Throughout C tr) :=
  inferInstanceAs (Decidable (∀ p ∈ tr, C p.1 p.2))

variable {s : σ} {tr : List (σ × ε)}

variable {C : σ → ε → Prop}

theorem Throughout.head {e : ε} (h : Throughout C ((s, e) :: tr)) : C s e :=
  h (s, e) List.mem_cons_self

theorem Throughout.tail {p : σ × ε} (h : Throughout C (p :: tr)) : Throughout C tr :=
  fun q hq => h q (List.mem_cons_of_mem p hq)

theorem Throughout.cons {e : ε} (h : C s e) (ht : Throughout C tr) :
    Throughout C ((s, e) :: tr) := by
  intro q hq
  rcases List.mem_cons.mp hq with rfl | hq
  · exact h
  · exact ht q hq

variable {I : σ → Prop} {C P : σ → ε → Prop}

/-- **Invariance**, along the runs whose steps meet a condition. -/
theorem Run.invariant (hinit : ∀ s, init s → I s) (hstep : ∀ s e t, I s → C s e → step s e t → I t)
    (r : Run init step tr s) (hc : Throughout C tr) : I s := by
  induction r with
  | start h => exact hinit _ h
  | next r h ih => exact hstep _ _ _ (ih hc.tail) hc.head h

/-- What such an invariant gives for one step, it gives for every step of the run. -/
theorem Run.always (hinit : ∀ s, init s → I s) (hstep : ∀ s e t, I s → C s e → step s e t → I t)
    (hP : ∀ s e t, I s → C s e → step s e t → P s e) (r : Run init step tr s)
    (hc : Throughout C tr) : Throughout P tr := by
  induction r with
  | start h => intro p hp; cases hp
  | next r h ih =>
    exact Throughout.cons
      (hP _ _ _ (r.invariant hinit hstep hc.tail) hc.head h) (ih hc.tail)

/-- An invariant of the state and of the trace that led to it. -/
theorem Run.along {J : List (σ × ε) → σ → Prop} (hinit : ∀ s, init s → J [] s)
    (hstep : ∀ tr s e t, J tr s → C s e → step s e t → J ((s, e) :: tr) t) (r : Run init step tr s)
    (hc : Throughout C tr) : J tr s := by
  induction r with
  | start h => exact hinit _ h
  | next r h ih => exact hstep _ _ _ _ (ih hc.tail) hc.head h

/-- Conditions that every step makes one are one of whole runs. -/
theorem Run.throughout_iff (h : ∀ s e t, step s e t → (P s e ↔ C s e)) (r : Run init step tr s) :
    Throughout P tr ↔ Throughout C tr := by
  induction r with
  | start =>
    constructor
    · intro _ p hp
      cases hp
    · intro _ p hp
      cases hp
  | next r hstep ih =>
    constructor
    · intro hp
      exact Throughout.cons ((h _ _ _ hstep).mp hp.head) (ih.mp hp.tail)
    · intro hc
      exact Throughout.cons ((h _ _ _ hstep).mpr hc.head) (ih.mpr hc.tail)

theorem Run.throughout_iff_of_invariant (hinit : ∀ s, init s → I s)
    (hstep : ∀ s e t, I s → step s e t → I t) (h : ∀ s e t, I s → step s e t → (P s e ↔ C s e))
    (r : Run init step tr s) : Throughout P tr ↔ Throughout C tr := by
  have hinv : ∀ {tr s}, Run init step tr s → I s := by
    intro tr s r
    refine r.invariant (C := fun _ _ => True) hinit (fun s e t hs _ => hstep s e t hs) ?_
    exact fun _ _ => trivial
  induction r with
  | start => exact iff_of_true (fun p hp => by cases hp) fun p hp => by cases hp
  | next r hs ih =>
    have hhead := h _ _ _ (hinv r) hs
    constructor
    · intro hp
      exact Throughout.cons (hhead.mp hp.head) (ih.mp hp.tail)
    · intro hc
      exact Throughout.cons (hhead.mpr hc.head) (ih.mpr hc.tail)

/-- **Exact invariance**: where a step from the invariant keeps it exactly under a condition, the
runs with the invariant in every state are those whose steps meet it. -/
theorem Run.invariant_iff {K : σ → Prop} (hinit : ∀ s, init s → K s ∧ I s)
    (h : ∀ s e t, K s → I s → step s e t → K t ∧ (I t ↔ C s e)) (r : Run init step tr s) :
    (Throughout (fun s _ => I s) tr ∧ I s) ↔ Throughout C tr := by
  have hcarried : ∀ {tr s}, Run init step tr s → Throughout (fun s _ => I s) tr → K s := by
    intro tr s r hall
    induction r with
    | start hi => exact (hinit _ hi).1
    | next r hs ih => exact (h _ _ _ (ih hall.tail) hall.head hs).1
  induction r with
  | start hi =>
    exact iff_of_true ⟨fun p hp => absurd hp List.not_mem_nil, (hinit _ hi).2⟩
      fun p hp => absurd hp List.not_mem_nil
  | next r hs ih =>
    constructor
    · rintro ⟨hall, hlast⟩
      have hstep := h _ _ _ (hcarried r hall.tail) hall.head hs
      exact Throughout.cons (hstep.2.mp hlast) (ih.mp ⟨hall.tail, hall.head⟩)
    · intro hc
      obtain ⟨hall, hi⟩ := ih.mpr hc.tail
      have hstep := h _ _ _ (hcarried r hall) hi hs
      exact ⟨Throughout.cons hi hall, hstep.2.mpr hc.head⟩

section Actions

variable {α : Type} {next : σ → α → Option (ε × σ)}

/-- The steps of a system whose actions each have one outcome, or none. -/
def By (next : σ → α → Option (ε × σ)) (s : σ) (e : ε) (t : σ) : Prop :=
  ∃ a, next s a = some (e, t)

/-- The trace of a list of actions, the last step first; `none` where one of them has no outcome. -/
def play (next : σ → α → Option (ε × σ)) (tr : List (σ × ε)) (s : σ) :
    List α → Option (List (σ × ε) × σ)
  | [] => some (tr, s)
  | a :: actions =>
    match next s a with
    | none => none
    | some (e, t) => play next ((s, e) :: tr) t actions

theorem run_of_play (actions : List α) {tr tr' : List (σ × ε)} {s s' : σ}
    (r : Run init (By next) tr s) (h : play next tr s actions = some (tr', s')) :
    Run init (By next) tr' s' := by
  induction actions generalizing tr s with
  | nil =>
    cases h
    exact r
  | cons a actions ih =>
    simp only [play] at h
    split at h
    · cases h
    · rename_i e t hn
      exact ih (r.next ⟨a, hn⟩) h

/-- A list of actions that play through is a run. -/
theorem run_play {actions : List α} {s : σ} (hs : init s)
    (h : (play next [] s actions).isSome = true) :
    Run init (By next) ((play next [] s actions).get h).1 ((play next [] s actions).get h).2 :=
  run_of_play actions (.start hs) (Option.some_get h).symm

variable {γ : Type}

/-- A system beside what an observer notes of each step; the label of a step is its action. -/
def watched (next : σ → α → Option (ε × σ)) (note : σ → γ → α → γ) (p : σ × γ) (a : α) :
    Option (α × (σ × γ)) :=
  (next p.1 a).map fun out => (a, (out.2, note p.1 p.2 a))

theorem by_watched_iff {next : σ → α → Option (ε × σ)} {note : σ → γ → α → γ} {p q : σ × γ}
    {a : α} : By (watched next note) p a q ↔
      (∃ e, next p.1 a = some (e, q.1)) ∧ q.2 = note p.1 p.2 a := by
  constructor
  · rintro ⟨b, hb⟩
    obtain ⟨⟨e, t⟩, hnext, heq⟩ := Option.map_eq_some_iff.mp hb
    cases heq
    exact ⟨⟨e, hnext⟩, rfl⟩
  · rintro ⟨⟨e, hnext⟩, hnote⟩
    refine ⟨a, Option.map_eq_some_iff.mpr ⟨(e, q.1), hnext, ?_⟩⟩
    rw [← hnote]

end Actions

/-- What the one call returns goes into the other. -/
theorem bind_ok_iff {ε α β : Type} {x : Except ε α} {f : α → Except ε β} {b : β} :
    (x >>= f) = .ok b ↔ ∃ a, x = .ok a ∧ f a = .ok b := by
  cases x with
  | error e =>
    refine ⟨fun h => ?_, fun ⟨a, h, _⟩ => ?_⟩
    · cases h
    · cases h
  | ok a =>
    refine ⟨fun h => ⟨a, rfl, h⟩, fun ⟨a', h, hf⟩ => ?_⟩
    cases h
    exact hf

end QnscKb.Runs
