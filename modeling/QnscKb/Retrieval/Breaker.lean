import Mathlib.Algebra.Order.Group.Basic
import Mathlib.Algebra.Order.Group.Int
import Mathlib.Data.List.Induction

/-!
# Retrieval — Breaker

The circuit breaker of the cross-encoder (`CircuitBreaker`, `src/rag/cross_encoder.py`): calls of any
number of searches, in any order, each at a reading of the clock.  `finish` looks at its attempt
before it takes the lock, so that it is two steps.
-/

namespace QnscKb.Retrieval

variable {τ : Type}

/-- `Attempt`, with when it began and how far its `finish` has come. -/
structure Attempt (τ : Type) where
  probe : Bool
  recorded : Bool := false
  started : τ
  entered : Bool := false
  finished : Bool := false
  deriving DecidableEq

/-- A probe without a result, whose `finish` has not run. -/
def Attempt.Outstanding (attempt : Attempt τ) : Prop :=
  attempt.probe = true ∧ attempt.recorded = false ∧ attempt.finished = false

instance (attempt : Attempt τ) : Decidable attempt.Outstanding :=
  inferInstanceAs (Decidable (_ ∧ _))

def Attempt.record (attempt : Attempt τ) : Attempt τ := { attempt with recorded := true }

/-- The check of `finish` before the lock. -/
def Attempt.check (attempt : Attempt τ) : Attempt τ :=
  if !attempt.probe || attempt.recorded then { attempt with finished := true }
  else { attempt with entered := true }

def Attempt.finish (attempt : Attempt τ) : Attempt τ :=
  { attempt with entered := false, finished := true }

def change (f : Attempt τ → Attempt τ) (attempts : List (Attempt τ)) :
    Option Nat → List (Attempt τ)
  | none => attempts
  | some i => attempts.modify i f

/-! ### The attempts -/

/-- When the probes began. -/
def starts (attempts : List (Attempt τ)) : List τ :=
  (attempts.filter Attempt.probe).map Attempt.started

theorem starts_change {f : Attempt τ → Attempt τ}
    (hf : ∀ attempt, (f attempt).probe = attempt.probe ∧ (f attempt).started = attempt.started)
    (attempts : List (Attempt τ)) (i : Option Nat) :
    starts (change f attempts i) = starts attempts := by
  cases i with
  | none => rfl
  | some i =>
    induction attempts generalizing i with
    | nil => cases i <;> rfl
    | cons attempt attempts ih =>
      cases i with
      | zero =>
        obtain ⟨hprobe, hstarted⟩ := hf attempt
        simp only [change, List.modify_zero_cons, starts, List.filter_cons, hprobe]
        split <;> simp only [List.map_cons, hstarted]
      | succ i =>
        have hrest := ih i
        simp only [change, List.modify_succ_cons, starts, List.filter_cons] at hrest ⊢
        split <;> simp only [List.map_cons, hrest]

theorem starts_record (attempts : List (Attempt τ)) (i : Option Nat) :
    starts (change Attempt.record attempts i) = starts attempts :=
  starts_change (f := Attempt.record) (fun _ => ⟨rfl, rfl⟩) attempts i

variable {attempts : List (Attempt τ)}

theorem exists_change {f : Attempt τ → Attempt τ} {attempt : Attempt τ} (h : attempt ∈ attempts)
    (i : Option Nat) : attempt ∈ change f attempts i ∨ f attempt ∈ change f attempts i := by
  cases i with
  | none => exact .inl h
  | some i =>
    obtain ⟨j, hj⟩ := List.mem_iff_getElem?.mp h
    by_cases hij : i = j
    · refine .inr (List.mem_iff_getElem?.mpr ⟨j, ?_⟩)
      rw [change, List.getElem?_modify, hj, Option.map_eq_map, Option.map_some, if_pos hij]
    · refine .inl (List.mem_iff_getElem?.mpr ⟨j, ?_⟩)
      rw [change, List.getElem?_modify, hj, Option.map_eq_map, Option.map_some, if_neg hij]

theorem Attempt.check_outstanding {attempt : Attempt τ} (h : attempt.Outstanding) :
    attempt.check.Outstanding := by
  obtain ⟨hprobe, hrecorded, hfinished⟩ := h
  rw [Attempt.check, hprobe, hrecorded]
  exact ⟨rfl, rfl, hfinished⟩

theorem starts_append (attempts : List (Attempt τ)) (attempt : Attempt τ) :
    starts (attempts ++ [attempt]) =
      starts attempts ++ if attempt.probe then [attempt.started] else [] := by
  rw [starts, List.filter_append, List.map_append, List.filter_cons]
  split <;> rfl

/-! ### The breaker -/

variable [AddCommGroup τ] [LinearOrder τ]

/-- The two settings, `CROSS_ENCODER_BREAKER_…`. -/
structure BreakerSettings (τ : Type) where
  threshold : Nat
  cooldown : τ

/-- The fields of `CircuitBreaker`. -/
structure Breaker (τ : Type) where
  timeouts : Nat
  openedAt : Option τ
  probing : Bool
  probeStarted : τ

namespace Breaker

def begin (settings : BreakerSettings τ) (now : τ) (breaker : Breaker τ) :
    Option (Attempt τ) × Breaker τ :=
  match breaker.openedAt with
  | none => (some { probe := false, started := now }, breaker)
  | some openedAt =>
    if breaker.probing = true ∧ now - breaker.probeStarted < settings.cooldown then (none, breaker)
    else if breaker.probing = false ∧ now - openedAt < settings.cooldown then (none, breaker)
    else
      (some { probe := true, started := now },
        { breaker with probing := true, probeStarted := now })

def recordTimeout (settings : BreakerSettings τ) (now : τ) (breaker : Breaker τ) : Breaker τ :=
  { breaker with
    timeouts := breaker.timeouts + 1
    probing := false
    openedAt :=
      if breaker.openedAt.isSome ∨ settings.threshold ≤ breaker.timeouts + 1 then some now
      else breaker.openedAt }

def recordSuccess (breaker : Breaker τ) : Breaker τ :=
  { breaker with timeouts := 0, openedAt := none, probing := false }

/-- The part of `CircuitBreaker.finish` under the lock. -/
def finish (now : τ) (breaker : Breaker τ) : Breaker τ :=
  if breaker.probing then { breaker with probing := false, openedAt := some now } else breaker

end Breaker

/-- A call; an attempt is named by its place among those that were granted. -/
inductive Call where
  | begin
  | recordTimeout (attempt : Option Nat)
  | recordSuccess (attempt : Option Nat)
  | finish (attempt : Nat)
  | finishLocked (attempt : Nat)
  deriving DecidableEq

/-- The breaker and the attempts it granted. -/
structure World (τ : Type) where
  breaker : Breaker τ
  attempts : List (Attempt τ)

/-- `CircuitBreaker()`. -/
def World.start : World τ := ⟨⟨0, none, false, 0⟩, []⟩

def World.step (settings : BreakerSettings τ) (now : τ) (world : World τ) : Call → World τ
  | .begin =>
    let (attempt, breaker) := world.breaker.begin settings now
    ⟨breaker, world.attempts ++ attempt.toList⟩
  | .recordTimeout attempt =>
    ⟨world.breaker.recordTimeout settings now, change Attempt.record world.attempts attempt⟩
  | .recordSuccess attempt =>
    ⟨world.breaker.recordSuccess, change Attempt.record world.attempts attempt⟩
  | .finish attempt => { world with attempts := change Attempt.check world.attempts attempt }
  | .finishLocked attempt =>
    if world.attempts[attempt]?.any Attempt.entered then
      ⟨world.breaker.finish now, change Attempt.finish world.attempts attempt⟩
    else world

/-- Calls one after the other, each with the clock it reads. -/
def run (settings : BreakerSettings τ) (calls : List (τ × Call)) : World τ :=
  calls.foldl (fun world call => world.step settings call.1 call.2) World.start

def Call.isTimeout : Call → Bool
  | .recordTimeout _ => true
  | _ => false

def Call.isSuccess : Call → Bool
  | .recordSuccess _ => true
  | _ => false

/-- The timeouts since the last success. -/
def timeoutsSince (calls : List (τ × Call)) : Nat :=
  (calls.reverse.takeWhile fun call => !call.2.isSuccess).countP fun call => call.2.isTimeout

theorem run_append (settings : BreakerSettings τ) (calls : List (τ × Call)) (now : τ)
    (call : Call) :
    run settings (calls ++ [(now, call)]) = (run settings calls).step settings now call := by
  rw [run, List.foldl_append]
  rfl

omit [AddCommGroup τ] [LinearOrder τ] in
theorem timeoutsSince_append (calls : List (τ × Call)) (now : τ) (call : Call) :
    timeoutsSince (calls ++ [(now, call)]) = if call.isSuccess then 0
      else timeoutsSince calls + if call.isTimeout then 1 else 0 := by
  rw [timeoutsSince, List.reverse_append]
  cases call with
  | recordTimeout attempt => exact List.countP_cons_of_pos rfl
  | begin | recordSuccess attempt | finish attempt | finishLocked attempt => rfl

/-! ### The invariant -/

/-- What is known after some calls. -/
structure Inv (settings : BreakerSettings τ) (calls : List (τ × Call)) (world : World τ) :
    Prop where
  closed : world.breaker.openedAt = none → world.breaker.probing = false
  counted : world.breaker.timeouts = timeoutsSince calls
  opened : ∀ time, world.breaker.openedAt = some time →
    settings.threshold ≤ world.breaker.timeouts
  /-- The flag is up only while a probe is outstanding. -/
  probing : world.breaker.probing = true → ∃ attempt ∈ world.attempts, attempt.Outstanding
  /-- The probes all began by the time the next cooldown is counted from. -/
  lastProbe : world.breaker.probing = true →
    ∀ start ∈ starts world.attempts, start ≤ world.breaker.probeStarted
  lastOpened : world.breaker.probing = false → ∀ time, world.breaker.openedAt = some time →
    ∀ start ∈ starts world.attempts, start ≤ time
  read : ∀ start ∈ starts world.attempts, start ∈ calls.map Prod.fst
  spaced : (starts world.attempts).Pairwise fun a b => a + settings.cooldown ≤ b

theorem inv_start (settings : BreakerSettings τ) : Inv settings [] World.start where
  closed _ := rfl
  counted := rfl
  opened := nofun
  probing := nofun
  lastProbe := nofun
  lastOpened := nofun
  read := nofun
  spaced := List.Pairwise.nil

variable {settings : BreakerSettings τ} {calls : List (τ × Call)} {world : World τ} {now : τ}

theorem Inv.start_le (h : Inv settings calls world) (hnow : ∀ time ∈ calls.map Prod.fst, time ≤ now)
    {start : τ} (hstart : start ∈ starts world.attempts) : start ≤ now :=
  hnow start (h.read start hstart)

theorem Inv.read_append (h : Inv settings calls world) (call : Call) {start : τ}
    (hstart : start ∈ starts world.attempts) : start ∈ (calls ++ [(now, call)]).map Prod.fst := by
  rw [List.map_append]
  exact List.mem_append_left _ (h.read start hstart)

variable {call : Call}

theorem Inv.keep (h : Inv settings calls world)
    (hcall : call.isSuccess = false ∧ call.isTimeout = false)
    (hstarts : starts attempts = starts world.attempts)
    (hout : ∀ attempt ∈ world.attempts, attempt.Outstanding → ∃ attempt ∈ attempts,
        attempt.Outstanding) :
    Inv settings (calls ++ [(now, call)]) ⟨world.breaker, attempts⟩ where
  closed := h.closed
  counted := by
    rw [timeoutsSince_append, hcall.1, hcall.2]
    exact h.counted
  opened := h.opened
  probing hprobing := by
    obtain ⟨attempt, hin, hattempt⟩ := h.probing hprobing
    exact hout attempt hin hattempt
  lastProbe := hstarts ▸ h.lastProbe
  lastOpened := hstarts ▸ h.lastOpened
  read := hstarts ▸ fun start hstart => h.read_append call hstart
  spaced := hstarts ▸ h.spaced

theorem Inv.reopen (h : Inv settings calls world) (hnow : ∀ time ∈ calls.map Prod.fst, time ≤ now)
    (hstarts : starts attempts = starts world.attempts) {breaker : Breaker τ}
    (hprobing : breaker.probing = false)
    (hopened : breaker.openedAt = none ∨ breaker.openedAt = some now)
    (hcounted : breaker.timeouts = timeoutsSince (calls ++ [(now, call)]))
    (hthreshold : breaker.openedAt = some now → settings.threshold ≤ breaker.timeouts) :
    Inv settings (calls ++ [(now, call)]) ⟨breaker, attempts⟩ where
  closed _ := hprobing
  counted := hcounted
  opened time htime := by
    rcases hopened with hnone | hsome
    · exact absurd (hnone.symm.trans htime) nofun
    · exact hthreshold hsome
  probing hup := absurd (hup.symm.trans hprobing) nofun
  lastProbe hup := absurd (hup.symm.trans hprobing) nofun
  lastOpened _ time htime start hstart := by
    rcases hopened with hnone | hsome
    · exact absurd (hnone.symm.trans htime) nofun
    · obtain rfl := Option.some.inj (hsome.symm.trans htime)
      exact h.start_le hnow (hstarts ▸ hstart)
  read := hstarts ▸ fun start hstart => h.read_append call hstart
  spaced := hstarts ▸ h.spaced

theorem Breaker.begin_cases (settings : BreakerSettings τ) (now : τ) (breaker : Breaker τ) :
    (breaker.openedAt = none ∧
      breaker.begin settings now = (some { probe := false, started := now }, breaker)) ∨
    breaker.begin settings now = (none, breaker) ∨
    (∃ time, breaker.openedAt = some time ∧
      (breaker.probing = true → settings.cooldown ≤ now - breaker.probeStarted) ∧
      (breaker.probing = false → settings.cooldown ≤ now - time) ∧
      breaker.begin settings now = (some { probe := true, started := now },
        { breaker with probing := true, probeStarted := now })) := by
  rw [Breaker.begin]
  cases hopened : breaker.openedAt with
  | none => exact .inl ⟨rfl, rfl⟩
  | some time =>
    dsimp only
    by_cases hprobe : breaker.probing = true ∧ now - breaker.probeStarted < settings.cooldown
    · exact .inr (.inl (if_pos hprobe))
    · by_cases hwait : breaker.probing = false ∧ now - time < settings.cooldown
      · rw [if_neg hprobe, if_pos hwait]
        exact .inr (.inl rfl)
      · rw [if_neg hprobe, if_neg hwait]
        exact .inr (.inr ⟨time, rfl, fun hup => not_lt.mp fun hlt => hprobe ⟨hup, hlt⟩,
          fun hdown => not_lt.mp fun hlt => hwait ⟨hdown, hlt⟩, rfl⟩)

theorem Inv.begin [IsOrderedAddMonoid τ] (h : Inv settings calls world)
    (hnow : ∀ time ∈ calls.map Prod.fst, time ≤ now) :
    Inv settings (calls ++ [(now, .begin)]) (world.step settings now .begin) := by
  rw [World.step]
  rcases Breaker.begin_cases settings now world.breaker with
    ⟨-, hbegin⟩ | hbegin | ⟨time, hopened, hprobe, hwait, hbegin⟩
  · rw [hbegin]
    refine h.keep ⟨rfl, rfl⟩ ?_ fun attempt hin hattempt => ?_
    · rw [Option.toList_some, starts_append]
      exact List.append_nil _
    · exact ⟨attempt, List.mem_append_left _ hin, hattempt⟩
  · rw [hbegin]
    refine h.keep ⟨rfl, rfl⟩ ?_ fun attempt hin hattempt => ?_
    · rw [Option.toList_none, List.append_nil]
    · exact ⟨attempt, List.mem_append_left _ hin, hattempt⟩
  · rw [hbegin]
    dsimp only [Option.toList_some]
    have hstarts : starts (world.attempts ++ [{ probe := true, started := now }]) =
        starts world.attempts ++ [now] := starts_append _ _
    -- whichever of the two cooldowns was over, it began after every probe
    have hspace : ∀ start ∈ starts world.attempts, start + settings.cooldown ≤ now := by
      intro start hstart
      cases hprobing : world.breaker.probing with
      | true =>
        have hle := h.lastProbe hprobing start hstart
        exact (add_le_add_left hle _).trans (le_sub_iff_add_le'.mp (hprobe hprobing))
      | false =>
        have hle := h.lastOpened hprobing time hopened start hstart
        exact (add_le_add_left hle _).trans (le_sub_iff_add_le'.mp (hwait hprobing))
    refine ⟨fun hnone => absurd (hopened.symm.trans hnone) nofun, ?_, h.opened, fun _ => ?_,
      fun _ => ?_, nofun, ?_, ?_⟩
    · rw [timeoutsSince_append]
      exact h.counted
    · exact ⟨_, List.mem_append_right _ (List.mem_singleton.mpr rfl), rfl, rfl, rfl⟩
    · rw [hstarts]
      intro start hstart
      rcases List.mem_append.mp hstart with hold | hnew
      · exact h.start_le hnow hold
      · exact (List.mem_singleton.mp hnew).le
    · rw [hstarts]
      intro start hstart
      rcases List.mem_append.mp hstart with hold | hnew
      · exact h.read_append .begin hold
      · rw [List.mem_singleton.mp hnew, List.map_append]
        exact List.mem_append_right _ (List.mem_singleton.mpr rfl)
    · rw [hstarts]
      refine List.pairwise_append.mpr ⟨h.spaced, List.pairwise_singleton _ _, ?_⟩
      intro start hstart last hlast
      exact List.mem_singleton.mp hlast ▸ hspace start hstart

/-- **What each call keeps.** -/
theorem Inv.step [IsOrderedAddMonoid τ] (h : Inv settings calls world)
    (hnow : ∀ time ∈ calls.map Prod.fst, time ≤ now) (call : Call) :
    Inv settings (calls ++ [(now, call)]) (world.step settings now call) := by
  cases call with
  | begin => exact h.begin hnow
  | recordTimeout attempt =>
    refine h.reopen hnow (starts_record _ attempt) ?_ ?_ ?_ ?_
    · rfl
    · rw [Breaker.recordTimeout]
      by_cases hopens :
          world.breaker.openedAt.isSome ∨ settings.threshold ≤ world.breaker.timeouts + 1
      · exact .inr (if_pos hopens)
      · refine .inl ((if_neg hopens).trans ?_)
        exact Option.not_isSome_iff_eq_none.mp fun hsome => hopens (.inl hsome)
    · rw [timeoutsSince_append]
      exact congrArg (· + 1) h.counted
    · intro hopened
      rw [Breaker.recordTimeout] at hopened ⊢
      by_cases hmany : settings.threshold ≤ world.breaker.timeouts + 1
      · exact hmany
      · cases hbefore : world.breaker.openedAt with
        | none => simp [hbefore, hmany] at hopened
        | some time => exact (h.opened time hbefore).trans (Nat.le_succ _)
  | recordSuccess attempt =>
    refine h.reopen hnow (starts_record _ attempt) ?_ (.inl ?_) ?_ ?_
    · rfl
    · rfl
    · rw [timeoutsSince_append]
      rfl
    · exact fun hopened => absurd hopened nofun
  | finish attempt =>
    refine h.keep ⟨rfl, rfl⟩ (starts_change (fun a => ?_) _ (some attempt)) ?_
    · rw [Attempt.check]
      split <;> exact ⟨rfl, rfl⟩
    · intro a ha hout
      rcases exists_change (f := Attempt.check) ha (some attempt) with hin | hin
      · exact ⟨a, hin, hout⟩
      · exact ⟨_, hin, Attempt.check_outstanding hout⟩
  | finishLocked attempt =>
    rw [World.step]
    by_cases hentered : (world.attempts[attempt]?.any Attempt.entered) = true
    · rw [if_pos hentered]
      have hstarts := starts_change (f := Attempt.finish) (fun _ => ⟨rfl, rfl⟩) world.attempts
        (some attempt)
      rw [Breaker.finish]
      cases hprobing : world.breaker.probing with
      | true =>
        refine h.reopen hnow hstarts rfl (.inr rfl) ?_ fun _ => ?_
        · rw [timeoutsSince_append]
          exact h.counted
        · cases hopened : world.breaker.openedAt with
          | none => exact absurd (hprobing.symm.trans (h.closed hopened)) nofun
          | some time => exact h.opened time hopened
      | false =>
        have hkeep : Inv settings (calls ++ [(now, .finishLocked attempt)]) world :=
          h.keep ⟨rfl, rfl⟩ rfl fun a ha hout => ⟨a, ha, hout⟩
        exact ⟨hkeep.closed, hkeep.counted, hkeep.opened,
          fun hup => absurd (hup.symm.trans hprobing) nofun, hstarts ▸ hkeep.lastProbe,
          hstarts ▸ hkeep.lastOpened, hstarts ▸ hkeep.read, hstarts ▸ hkeep.spaced⟩
    · rw [if_neg hentered]
      exact h.keep ⟨rfl, rfl⟩ rfl fun a ha hout => ⟨a, ha, hout⟩

theorem inv_run [IsOrderedAddMonoid τ] (settings : BreakerSettings τ)
    (hclock : (calls.map Prod.fst).Pairwise (· ≤ ·)) : Inv settings calls (run settings calls) := by
  induction calls using List.reverseRecOn with
  | nil => exact inv_start settings
  | append_singleton calls call ih =>
    rw [List.map_append, List.pairwise_append] at hclock
    obtain ⟨hbefore, -, hlast⟩ := hclock
    rw [run_append]
    exact (ih hbefore).step (fun time htime => hlast time htime call.1 (List.mem_singleton.mpr rfl))
      call.2

/-! ### Whole runs -/

theorem Inv.opens (h : Inv settings calls world) (hclosed : world.breaker.openedAt = none)
    (hopen : (world.step settings now call).breaker.openedAt ≠ none) :
    (∃ attempt, call = .recordTimeout attempt) ∧
      settings.threshold ≤ timeoutsSince (calls ++ [(now, call)]) := by
  cases call with
  | recordTimeout attempt =>
    refine ⟨⟨attempt, rfl⟩, ?_⟩
    rw [timeoutsSince_append]
    by_contra hfew
    refine hopen ((if_neg ?_).trans hclosed)
    rintro (hsome | hmany)
    · rw [hclosed] at hsome
      cases hsome
    · exact hfew (h.counted ▸ hmany)
  | begin =>
    refine absurd ?_ hopen
    rw [World.step, Breaker.begin, hclosed]
    exact hclosed
  | recordSuccess attempt => exact absurd rfl hopen
  | finish attempt => exact absurd hclosed hopen
  | finishLocked attempt =>
    refine absurd ?_ hopen
    rw [World.step, Breaker.finish, h.closed hclosed]
    split <;> exact hclosed

theorem Inv.grants (h : Inv settings calls world) {time : τ}
    (hopened : world.breaker.openedAt = some time) (hcooldown : settings.cooldown ≤ now - time)
    (hnone : ∀ attempt ∈ world.attempts, ¬attempt.Outstanding) :
    (world.breaker.begin settings now).1 = some { probe := true, started := now } := by
  have hprobing : world.breaker.probing = false := by
    by_contra hup
    obtain ⟨attempt, hin, hout⟩ := h.probing (Bool.eq_true_of_not_eq_false hup)
    exact hnone attempt hin hout
  rw [Breaker.begin, hopened, hprobing]
  dsimp only
  rw [if_neg fun hboth => Bool.false_ne_true hboth.1,
    if_neg fun hboth => not_lt.mpr hcooldown hboth.2]

theorem Inv.recent [IsOrderedAddMonoid τ] (h : Inv settings calls world)
    (hnow : ∀ time ∈ calls.map Prod.fst, time ≤ now) :
    ((starts world.attempts).filter fun start => decide (now - start < settings.cooldown)).length
      ≤ 1 := by
  have hspaced := h.spaced.filter fun start => decide (now - start < settings.cooldown)
  cases hrecent : (starts world.attempts).filter
      fun start => decide (now - start < settings.cooldown) with
  | nil => exact Nat.zero_le 1
  | cons first rest =>
    cases rest with
    | nil => exact le_refl 1
    | cons second rest =>
      rw [hrecent] at hspaced
      have hin : ∀ start ∈ first :: second :: rest, start ∈ starts world.attempts ∧
          now - start < settings.cooldown := by
        intro start hstart
        rw [← hrecent] at hstart
        exact ⟨(List.mem_filter.mp hstart).1, of_decide_eq_true (List.mem_filter.mp hstart).2⟩
      obtain ⟨-, hfirst⟩ := hin first (List.mem_cons_self ..)
      obtain ⟨hsecond, -⟩ := hin second (List.mem_cons_of_mem _ (List.mem_cons_self ..))
      have hgap := (List.pairwise_cons.mp hspaced).1 second (List.mem_cons_self ..)
      have hle := hgap.trans (h.start_le hnow hsecond)
      exact absurd hfirst (not_lt.mpr (le_sub_iff_add_le'.mpr hle))

/-- **The breaker over whole runs.**  It opens only when the threshold of timeouts is reached since
the last success; a cooldown after the opening, with no probe outstanding, it lets a probe through;
and probes begin at least a cooldown apart. -/
theorem breaker_runs [IsOrderedAddMonoid τ] (settings : BreakerSettings τ)
    (calls : List (τ × Call)) (hclock : (calls.map Prod.fst).Pairwise (· ≤ ·)) :
    (∀ now call, (run settings calls).breaker.openedAt = none →
      (run settings (calls ++ [(now, call)])).breaker.openedAt ≠ none →
        (∃ attempt, call = .recordTimeout attempt) ∧
          settings.threshold ≤ timeoutsSince (calls ++ [(now, call)])) ∧
    (∀ now time, (run settings calls).breaker.openedAt = some time →
      settings.cooldown ≤ now - time →
        (∀ attempt ∈ (run settings calls).attempts, ¬attempt.Outstanding) →
          ((run settings calls).breaker.begin settings now).1 =
            some { probe := true, started := now }) ∧
    (starts (run settings calls).attempts).Pairwise (fun a b => a + settings.cooldown ≤ b) ∧
    ∀ now, (∀ time ∈ calls.map Prod.fst, time ≤ now) →
      ((starts (run settings calls).attempts).filter
        fun start => decide (now - start < settings.cooldown)).length ≤ 1 := by
  have h := inv_run settings hclock
  refine ⟨fun now call hclosed hopen => ?_, fun now time => h.grants, h.spaced,
    fun now hnow => h.recent hnow⟩
  rw [run_append] at hopen
  exact h.opens hclosed hopen

/-- One timeout opens it, for ten ticks of the clock. -/
def oneTimeout : BreakerSettings Int := ⟨1, 10⟩

/-- A search times out, and the probe after it ends without a result. -/
theorem breaker_runs_cancelled :
    let calls : List (Int × Call) := [(0, .begin), (3, .recordTimeout (some 0)), (13, .begin),
      (14, .finish 1), (15, .finishLocked 1)]
    (starts (run oneTimeout calls).attempts).Pairwise (fun a b => a + 10 ≤ b) ∧
      ∀ now, (∀ time ∈ calls.map Prod.fst, time ≤ now) →
        ((starts (run oneTimeout calls).attempts).filter
          fun start => decide (now - start < 10)).length ≤ 1 :=
  (breaker_runs oneTimeout _ (by decide)).2.2

/-- A probe that has been out for a cooldown is considered lost, and another is let through. -/
theorem two_probes_out :
    let world := run oneTimeout [(0, .recordTimeout none), (10, .begin), (20, .begin)]
    world.breaker.openedAt = some 0 ∧
      ¬(world.attempts.filter fun attempt => decide attempt.Outstanding).length ≤ 1 := by
  decide

end QnscKb.Retrieval
