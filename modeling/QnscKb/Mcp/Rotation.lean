import QnscKb.Mcp.Jwks
import Mathlib.Algebra.Order.Group.Int

/-!
# Mcp — Rotation

How far apart the outbound fetches of the Access verifier are, and which keys it still refuses
(`src/domain/access_jwt.py`).
-/

namespace QnscKb.Mcp
open QnscKb.Runs QnscKb.Threads

variable {τ : Type} [AddCommGroup τ] [LinearOrder τ]

/-! ### The lock -/

/-- The part of `_key_for` under the lock. -/
def Stage.inLock : Stage τ → Bool
  | .locked _ | .gate _ | .lockedForced | .gateForced | .matchLocked | .forceGate => true
  | .fetch _ | .fetching .. | .store .. | .stamp .. | .force .. => true
  | _ => false

omit [AddCommGroup τ] [LinearOrder τ] in
@[simp] theorem returned_inLock (kid : Kid) (again : Bool) (keys : KeySet τ) :
    (returned kid again keys).inLock = false := by
  unfold returned
  split
  · rfl
  · split
    · rfl
    · rfl

omit [AddCommGroup τ] [LinearOrder τ] in
@[simp] theorem returnedStale_inLock (kid : Kid) (again : Bool) (keys : Option (KeySet τ)) :
    (returnedStale kid again keys).inLock = false := by
  cases keys with
  | none => rfl
  | some keys => exact returned_inLock kid again keys

omit [AddCommGroup τ] [LinearOrder τ] in
theorem Stage.over_inLock {stage : Stage τ} (h : stage.over = true) : stage.inLock = false := by
  cases stage with
  | idle => rfl
  | done => rfl
  | _ => cases h

variable {c : AccessJwtConfig τ} {published : τ → List Kid} {i : Nat} {kid : Kid} {now : τ}
  {reply : Option τ} {v v' : Verifier τ} {stage stage' : Stage τ}

theorem Stage.step_outside (h : stage.step c published i kid now reply v = some (stage', v'))
    (hout : stage.inLock = false) :
    v' = v ∧ stage'.inLock = false ∨
      v.lock = none ∧ v' = { v with lock := some i } ∧
        ((∃ again, stage = .wait again ∧ stage' = .locked again) ∨
          stage = .waitForced ∧ stage' = .lockedForced) := by
  cases stage with
  | idle | done => cases h
  | clock again =>
    cases h
    exact Or.inl ⟨rfl, rfl⟩
  | look again read =>
    cases h
    exact Or.inl ⟨rfl, by split <;> rfl⟩
  | take again =>
    obtain ⟨keys, -, heq⟩ := Option.map_eq_some_iff.mp h
    cases heq
    exact Or.inl ⟨rfl, returned_inLock _ _ _⟩
  | attempt again =>
    cases h
    exact Or.inl ⟨rfl, rfl⟩
  | cooling again last =>
    cases h
    exact Or.inl ⟨rfl, by split <;> rfl⟩
  | stale again =>
    cases h
    exact Or.inl ⟨rfl, returnedStale_inLock _ _ _⟩
  | wait again =>
    simp only [Stage.step] at h
    split at h
    · rename_i hfree
      cases h
      exact Or.inr ⟨hfree, rfl, Or.inl ⟨again, rfl, rfl⟩⟩
    · cases h
  | missed =>
    cases h
    exact Or.inl ⟨rfl, rfl⟩
  | forcedCooling last =>
    cases h
    exact Or.inl ⟨rfl, by split <;> rfl⟩
  | waitForced =>
    simp only [Stage.step] at h
    split at h
    · rename_i hfree
      cases h
      exact Or.inr ⟨hfree, rfl, Or.inr ⟨rfl, rfl⟩⟩
    · cases h
  | _ => cases hout

theorem Stage.step_inside (h : stage.step c published i kid now reply v = some (stage', v'))
    (hin : stage.inLock = true) :
    v'.lock = v.lock ∧ stage'.inLock = true ∨ v'.lock = none ∧ stage'.inLock = false := by
  cases stage with
  | locked | gate =>
    simp only [Stage.step] at h
    split at h
    · cases h
      exact Or.inr ⟨rfl, returnedStale_inLock _ _ _⟩
    · cases h
      exact Or.inl ⟨rfl, rfl⟩
  | lockedForced | gateForced =>
    cases h
    exact Or.inl ⟨rfl, by split <;> rfl⟩
  | matchLocked | forceGate =>
    simp only [Stage.step] at h
    split at h
    · cases h
      exact Or.inr ⟨rfl, rfl⟩
    · cases h
      exact Or.inl ⟨rfl, rfl⟩
  | fetch use =>
    cases h
    exact Or.inl ⟨rfl, rfl⟩
  | fetching use start =>
    simp only [Stage.step] at h
    split at h
    · cases use with
      | forced =>
        cases h
        exact Or.inl ⟨rfl, rfl⟩
      | current | expiry =>
        cases h
        exact Or.inr ⟨rfl, rfl⟩
    · split at h
      · cases h
        exact Or.inl ⟨rfl, rfl⟩
      · cases h
  | store use start keys =>
    cases h
    exact Or.inl ⟨rfl, rfl⟩
  | stamp use start keys =>
    cases use with
    | current again =>
      cases h
      exact Or.inr ⟨rfl, returned_inLock _ _ _⟩
    | expiry | forced =>
      cases h
      exact Or.inl ⟨rfl, rfl⟩
  | force start keys =>
    cases h
    refine Or.inr ⟨rfl, ?_⟩
    cases keys with
    | none => rfl
    | some keys => exact returned_inLock _ _ _
  | _ => cases hin

/-- Who holds the lock is in the part under it, and nobody else is. -/
def LockHeld (i : Nat) (stage : Stage τ) (v : Verifier τ) : Prop :=
  stage.inLock = true ↔ v.lock = some i

theorem LockHeld.own (hl : LockHeld i stage v)
    (h : stage.step c published i kid now reply v = some (stage', v')) : LockHeld i stage' v' := by
  cases hin : stage.inLock with
  | false =>
    rcases Stage.step_outside h hin with ⟨rfl, hout⟩ | ⟨-, rfl, hnext⟩
    · refine iff_of_false (by rw [hout]; exact Bool.false_ne_true) fun hlock => ?_
      have := hl.mpr hlock
      rw [hin] at this
      cases this
    · refine iff_of_true ?_ rfl
      rcases hnext with ⟨again, -, rfl⟩ | ⟨-, rfl⟩
      · rfl
      · rfl
  | true =>
    rcases Stage.step_inside h hin with ⟨hlock, hin'⟩ | ⟨hlock, hout⟩
    · exact iff_of_true hin' (hlock.trans (hl.mp hin))
    · refine iff_of_false (by rw [hout]; exact Bool.false_ne_true) fun h => ?_
      rw [hlock] at h
      cases h

theorem LockHeld.other {j : Nat} {other : Stage τ} (hl : LockHeld i stage v)
    (hj : LockHeld j other v) (hne : j ≠ i)
    (h : stage.step c published i kid now reply v = some (stage', v')) : LockHeld j other v' := by
  have hfree : v'.lock = some i ∨ v'.lock = none → v.lock ≠ some j → LockHeld j other v' := by
    intro hlock hnot
    refine iff_of_false (mt hj.mp hnot) fun h => ?_
    rcases hlock with hlock | hlock
    · rw [hlock] at h
      exact hne (Option.some.inj h).symm
    · rw [hlock] at h
      cases h
  cases hin : stage.inLock with
  | false =>
    rcases Stage.step_outside h hin with ⟨rfl, -⟩ | ⟨hlock, rfl, -⟩
    · exact hj
    · exact hfree (Or.inl rfl) (by rw [hlock]; exact fun h => by cases h)
  | true =>
    have hlock := hl.mp hin
    refine hfree ?_ fun h => hne (Option.some.inj (hlock.symm.trans h)).symm
    rcases Stage.step_inside h hin with ⟨hsame, -⟩ | ⟨hnone, -⟩
    · exact Or.inl (hsame.trans hlock)
    · exact Or.inr hnone

/-! ### How far apart fetches begin -/

/-- Fetches begin a cooldown apart, unless the later one is a forced refresh and the earlier is
not. -/
def Spaced (c : AccessJwtConfig τ) (later earlier : Fetch τ) : Prop :=
  later.forced = true ∧ earlier.forced = false ∨
    c.jwksCooldownSeconds ≤ later.start - earlier.start

/-- The fetches that `_last_fetch_attempt` is after. -/
def Attempted (v : Verifier τ) (fetches : List (Fetch τ)) : Prop :=
  ∀ fetch ∈ fetches, ∃ last, v.lastFetchAttempt = some last ∧ fetch.start ≤ last

/-- The forced ones that `_last_forced_refresh` is after. -/
def Noted (v : Verifier τ) (fetches : List (Fetch τ)) : Prop :=
  ∀ fetch ∈ fetches, fetch.forced = true →
    ∃ last, v.lastForcedRefresh = some last ∧ fetch.start ≤ last

/-- The cooldown a fetch waits for is over. -/
def Cooled (c : AccessJwtConfig τ) (v : Verifier τ) : Use → Prop
  | .forced => ∀ last, v.lastForcedRefresh = some last → c.jwksCooldownSeconds ≤ v.clock - last
  | _ => ∀ last, v.lastFetchAttempt = some last → c.jwksCooldownSeconds ≤ v.clock - last

theorem cooling_iff {last : Option τ} :
    cooling c now last = true ↔ ∃ t, last = some t ∧ now - t < c.jwksCooldownSeconds := by
  cases last with
  | none => exact iff_of_false (fun h => by cases h) fun ⟨t, h, _⟩ => by cases h
  | some t =>
    constructor
    · exact fun h => ⟨t, rfl, of_decide_eq_true h⟩
    · rintro ⟨last, heq, h⟩
      cases heq
      exact decide_eq_true h

theorem cooled_of_not {last : Option τ} (h : ¬ cooling c now last = true) :
    ∀ t, last = some t → c.jwksCooldownSeconds ≤ now - t := by
  rintro t rfl
  exact not_lt.mp (mt decide_eq_true h)

/-- The fetch that is not noted yet is the last one that began. -/
structure Pending (v : Verifier τ) (use : Use) (start : τ) : Prop where
  attempted : Attempted v v.fetches
  last : ∃ rest, v.fetches = ⟨use == .forced, start⟩ :: rest ∧ Noted v rest

/-- What the holder of the lock knows of the fetches. -/
def Stage.guards (c : AccessJwtConfig τ) (v : Verifier τ) : Stage τ → Prop
  | .fetch use => Attempted v v.fetches ∧ Noted v v.fetches ∧ Cooled c v use
  | .fetching use start => ∃ rest, v.fetches = ⟨use == .forced, start⟩ :: rest ∧ Noted v rest
  | .store use start _ | .stamp use start _ => Pending v use start
  | .force start _ => Pending v .forced start
  | _ => Attempted v v.fetches ∧ Noted v v.fetches

/-- What holds of the verifier between the steps. -/
structure Orderly (c : AccessJwtConfig τ) (v : Verifier τ) : Prop where
  spaced : v.fetches.Pairwise (Spaced c)
  begun : ∀ fetch ∈ v.fetches, fetch.start ≤ v.clock
  free : v.lock = none → Attempted v v.fetches ∧ Noted v v.fetches

variable {use : Use} {start : τ}

omit [AddCommGroup τ] in
theorem Pending.noted (h : Pending v use start) (hne : use ≠ .forced) : Noted v v.fetches := by
  obtain ⟨rest, hfetches, hnoted⟩ := h.last
  rw [hfetches]
  intro fetch hfetch hforced
  rcases List.mem_cons.mp hfetch with rfl | hfetch
  · exact absurd (beq_iff_eq.mp hforced) hne
  · exact hnoted fetch hfetch hforced

omit [AddCommGroup τ] in
theorem attempted_now (h : ∀ fetch ∈ v.fetches, fetch.start ≤ now)
    (hfetches : v'.fetches = v.fetches) (hlast : v'.lastFetchAttempt = some now) :
    Attempted v' v'.fetches :=
  fun fetch hfetch => ⟨now, hlast, h fetch (hfetches ▸ hfetch)⟩

theorem spaced_of_cooled [IsOrderedAddMonoid τ] (hattempted : Attempted v v.fetches)
    (hnoted : Noted v v.fetches) (hcooled : Cooled c v use) {fetch : Fetch τ}
    (hfetch : fetch ∈ v.fetches) : Spaced c ⟨use == .forced, v.clock⟩ fetch := by
  cases use with
  | forced =>
    cases hforced : fetch.forced with
    | false => exact Or.inl ⟨rfl, hforced⟩
    | true =>
      obtain ⟨last, hlast, hle⟩ := hnoted fetch hfetch hforced
      exact Or.inr ((hcooled last hlast).trans (sub_le_sub_left hle v.clock))
  | current | expiry =>
    obtain ⟨last, hlast, hle⟩ := hattempted fetch hfetch
    exact Or.inr ((hcooled last hlast).trans (sub_le_sub_left hle v.clock))

theorem Orderly.begin [IsOrderedAddMonoid τ] (hv : Orderly c v) (hheld : v.lock ≠ none)
    (hg : Attempted v v.fetches ∧ Noted v v.fetches ∧ Cooled c v use) :
    Orderly c { v with fetches := ⟨use == .forced, v.clock⟩ :: v.fetches } where
  spaced := List.pairwise_cons.mpr
    ⟨fun _ hfetch => spaced_of_cooled hg.1 hg.2.1 hg.2.2 hfetch, hv.spaced⟩
  begun fetch hfetch := by
    rcases List.mem_cons.mp hfetch with rfl | hfetch
    · exact le_refl _
    · exact hv.begun fetch hfetch
  free h := absurd h hheld

theorem Orderly.outside (hv : Orderly c v) (hin : stage.inLock = false)
    (h : stage.step c published i kid v.clock reply v = some (stage', v')) :
    Orderly c v' ∧ (stage'.inLock = true → stage'.guards c v') := by
  rcases Stage.step_outside h hin with ⟨rfl, hout⟩ | ⟨hfree, rfl, hnext⟩
  · exact ⟨hv, fun hin' => by rw [hout] at hin'; cases hin'⟩
  · refine ⟨⟨hv.spaced, hv.begun, fun h => by cases h⟩, fun _ => ?_⟩
    rcases hnext with ⟨again, -, rfl⟩ | ⟨-, rfl⟩
    · exact hv.free hfree
    · exact hv.free hfree

theorem Orderly.answered (hv : Orderly c v) (hheld : v.lock ≠ none)
    (hg : (Stage.fetching use start).guards c v)
    (h : (Stage.fetching use start).step c published i kid v.clock reply v = some (stage', v')) :
    Orderly c v' ∧ (stage'.inLock = true → stage'.guards c v') := by
  obtain ⟨rest, hfetches, hnoted⟩ := hg
  have hpending : Pending { v with lastFetchAttempt := some v.clock } use start :=
    ⟨attempted_now hv.begun rfl rfl, rest, hfetches, hnoted⟩
  simp only [Stage.step] at h
  split at h
  · cases use with
    | forced =>
      cases h
      exact ⟨⟨hv.spaced, hv.begun, fun h => absurd h hheld⟩, fun _ => hpending⟩
    | current | expiry =>
      cases h
      refine ⟨⟨hv.spaced, hv.begun, fun _ => ⟨hpending.attempted, ?_⟩⟩, fun hin => by cases hin⟩
      exact hpending.noted nofun
  · split at h
    · cases h
      exact ⟨⟨hv.spaced, hv.begun, fun h => absurd h hheld⟩, fun _ => hpending⟩
    · cases h

variable {keys : KeySet τ}

theorem Orderly.stamped (hv : Orderly c v) (hheld : v.lock ≠ none) (hg : Pending v use start)
    (h : (Stage.stamp use start keys).step c published i kid v.clock reply v = some (stage', v')) :
    Orderly c v' ∧ (stage'.inLock = true → stage'.guards c v') := by
  cases use with
  | current again =>
    cases h
    exact ⟨⟨hv.spaced, hv.begun, fun _ => ⟨hg.attempted, hg.noted nofun⟩⟩,
      fun hin => by rw [returned_inLock] at hin; cases hin⟩
  | expiry =>
    cases h
    exact ⟨⟨hv.spaced, hv.begun, fun h => absurd h hheld⟩,
      fun _ => ⟨hg.attempted, hg.noted nofun⟩⟩
  | forced =>
    cases h
    exact ⟨⟨hv.spaced, hv.begun, fun h => absurd h hheld⟩, fun _ => ⟨hg.attempted, hg.last⟩⟩

/-- **One step** of the thread that takes it keeps fetches apart. -/
theorem Orderly.own [IsOrderedAddMonoid τ] (hv : Orderly c v)
    (hg : stage.inLock = true → stage.guards c v) (hl : LockHeld i stage v)
    (h : stage.step c published i kid v.clock reply v = some (stage', v')) :
    Orderly c v' ∧ (stage'.inLock = true → stage'.guards c v') := by
  cases hin : stage.inLock with
  | false => exact hv.outside hin h
  | true =>
    have hg := hg hin
    have hlock := hl.mp hin
    have hheld : v.lock ≠ none := fun h => by rw [hlock] at h; cases h
    have hreleased : Attempted v v.fetches ∧ Noted v v.fetches → Orderly c v.release :=
      fun hsettled => ⟨hv.spaced, hv.begun, fun _ => hsettled⟩
    cases stage with
    | locked again =>
      simp only [Stage.step] at h
      split at h
      · cases h
        exact ⟨hreleased hg, fun hin => by rw [returnedStale_inLock] at hin; cases hin⟩
      · cases h
        exact ⟨hv, fun _ => hg⟩
    | gate again =>
      simp only [Stage.step] at h
      split at h
      · cases h
        exact ⟨hreleased hg, fun hin => by rw [returnedStale_inLock] at hin; cases hin⟩
      · rename_i hcool
        cases h
        exact ⟨hv, fun _ => ⟨hg.1, hg.2, cooled_of_not hcool⟩⟩
    | lockedForced =>
      cases h
      exact ⟨hv, fun _ => by split <;> exact hg⟩
    | gateForced =>
      obtain ⟨rfl, rfl⟩ := h
      refine ⟨hv, fun _ => ?_⟩
      split
      · exact hg
      · rename_i hcool
        exact ⟨hg.1, hg.2, cooled_of_not hcool⟩
    | matchLocked =>
      simp only [Stage.step] at h
      split at h
      · cases h
        exact ⟨hreleased hg, fun hin => by cases hin⟩
      · cases h
        exact ⟨hv, fun _ => hg⟩
    | forceGate =>
      simp only [Stage.step] at h
      split at h
      · cases h
        exact ⟨hreleased hg, fun hin => by cases hin⟩
      · rename_i hcool
        cases h
        exact ⟨hv, fun _ => ⟨hg.1, hg.2, cooled_of_not hcool⟩⟩
    | fetch use =>
      cases h
      exact ⟨hv.begin hheld hg, fun _ => ⟨v.fetches, rfl, hg.2.1⟩⟩
    | fetching use start => exact hv.answered hheld hg h
    | store use start keys =>
      cases h
      exact ⟨⟨hv.spaced, hv.begun, fun h => absurd h hheld⟩,
        fun _ => ⟨hg.attempted, hg.last⟩⟩
    | stamp use start keys => exact hv.stamped hheld hg h
    | force start keys =>
      cases h
      refine ⟨⟨hv.spaced, hv.begun, fun _ => ⟨hg.attempted, fun fetch hfetch _ =>
        ⟨v.clock, rfl, hv.begun fetch hfetch⟩⟩⟩, fun hin => ?_⟩
      cases keys with
      | none => cases hin
      | some keys =>
        rw [Option.elim_some, returned_inLock] at hin
        cases hin
    | _ => cases hin

/-! ### Time goes by -/

def Verifier.tick (v : Verifier τ) (now : τ) : Verifier τ := { v with clock := now }

theorem Orderly.tick (hv : Orderly c v) (hle : v.clock ≤ now) : Orderly c (v.tick now) :=
  ⟨hv.spaced, fun fetch hfetch => (hv.begun fetch hfetch).trans hle, hv.free⟩

theorem Stage.guards_tick [IsOrderedAddMonoid τ] (hg : stage.guards c v) (hle : v.clock ≤ now) :
    stage.guards c (v.tick now) := by
  have hlater : ∀ t : τ, v.clock - t ≤ now - t := fun t => sub_le_sub_right hle t
  cases stage with
  | fetch use =>
    refine ⟨hg.1, hg.2.1, ?_⟩
    cases use with
    | forced => exact fun last hlast => (hg.2.2 last hlast).trans (hlater last)
    | current | expiry => exact fun last hlast => (hg.2.2 last hlast).trans (hlater last)
  | store | stamp | force => exact ⟨hg.attempted, hg.last⟩
  | _ => exact hg

variable {call call' : Call τ}

variable {x : τ × Input τ}

theorem threadStep_cases (h : threadStep c published i x call v = some (call', v')) :
    v.clock ≤ x.1 ∧
      ((∃ kid, x.2 = .verify kid ∧ call.stage.over = true ∧ call' = ⟨kid, x.1, .clock false⟩ ∧
          v' = v.tick x.1) ∨
        ∃ reply stage', x.2 = .go reply ∧ call' = { call with stage := stage' } ∧
          call.stage.step c published i call.kid (v.tick x.1).clock reply (v.tick x.1) =
            some (stage', v')) := by
  unfold threadStep at h
  split at h
  · rename_i hle
    refine ⟨hle, ?_⟩
    split at h
    · rename_i kid hx
      split at h
      · rename_i hover
        cases h
        exact Or.inl ⟨kid, hx, hover, rfl, rfl⟩
      · cases h
    · rename_i reply hx
      obtain ⟨⟨stage', v''⟩, hstep, heq⟩ := Option.map_eq_some_iff.mp h
      cases heq
      exact Or.inr ⟨reply, stage', hx, rfl, hstep⟩
  · cases h

theorem lockHeld_thread (hl : LockHeld i call.stage v)
    (h : threadStep c published i x call v = some (call', v')) :
    LockHeld i call'.stage v' ∧
      ∀ j other, j ≠ i → LockHeld j other v → LockHeld j other v' := by
  obtain ⟨-, ⟨kid, -, hover, rfl, rfl⟩ | ⟨reply, stage', -, rfl, hstep⟩⟩ := threadStep_cases h
  · refine ⟨iff_of_false (fun h => by cases h) fun hlock => ?_, fun j other _ hj => hj⟩
    have hin := hl.mpr hlock
    rw [Stage.over_inLock hover] at hin
    cases hin
  · have hl' : LockHeld i call.stage (v.tick x.1) := hl
    exact ⟨hl'.own hstep, fun j other hne hj => hl'.other (j := j) hj hne hstep⟩

theorem untouched {j : Nat} (hl : LockHeld i call.stage v) (hj : v.lock = some j) (hne : j ≠ i)
    (h : threadStep c published i x call v = some (call', v')) : v' = v.tick x.1 := by
  obtain ⟨-, ⟨kid, -, -, -, rfl⟩ | ⟨reply, stage', -, -, hstep⟩⟩ := threadStep_cases h
  · rfl
  · have hout : call.stage.inLock = false := by
      cases hin : call.stage.inLock with
      | false => rfl
      | true => exact absurd (Option.some.inj (hj.symm.trans (hl.mp hin))) hne
    rcases Stage.step_outside hstep hout with ⟨rfl, -⟩ | ⟨hfree, -, -⟩
    · rfl
    · have hfree' : v.lock = none := hfree
      rw [hj] at hfree'
      cases hfree'

/-- Two fetches begin a cooldown apart, unless a forced refresh follows one that was not forced. -/
theorem fetches_spaced [IsOrderedAddMonoid τ]
    {tr : List (Config Nat (Call τ) (Verifier τ) × Action Nat (τ × Input τ))}
    {s : Config Nat (Call τ) (Verifier τ)}
    (r : Run Starts (By (next (threadStep c published))) tr s) :
    s.shared.fetches.Pairwise (Spaced c) := by
  have hinv := owicki_gries (C := fun _ _ => True) (I := Orderly c)
    (A := fun i call v => LockHeld i call.stage v ∧
      (call.stage.inLock = true → call.stage.guards c v)) ?_ ?_ ?_ r fun _ _ => trivial
  · exact hinv.1.spaced
  · rintro s ⟨hidle, -, -, -, -, hlock, hnone⟩
    refine ⟨⟨?_, ?_, fun _ => ⟨?_, ?_⟩⟩, fun i => ⟨?_, fun hin => ?_⟩⟩
    · rw [hnone]
      exact List.Pairwise.nil
    · rw [hnone]
      exact fun fetch hfetch => absurd hfetch List.not_mem_nil
    · rw [hnone]
      exact fun fetch hfetch => absurd hfetch List.not_mem_nil
    · rw [hnone]
      exact fun fetch hfetch => absurd hfetch List.not_mem_nil
    · refine iff_of_false (fun hin => ?_) fun h => ?_
      · rw [hidle i] at hin
        cases hin
      · rw [hlock] at h
        cases h
    · rw [hidle i] at hin
      cases hin
  · rintro s i x call' v' - hv ⟨hl, hg⟩ hstep
    obtain ⟨hle, ⟨kid, -, -, rfl, rfl⟩ | ⟨reply, stage', -, rfl, hgo⟩⟩ := threadStep_cases hstep
    · exact ⟨hv.tick hle, (lockHeld_thread hl hstep).1, fun hin => by cases hin⟩
    · have hnext := (hv.tick hle).own (fun hin => Stage.guards_tick (hg hin) hle) hl hgo
      exact ⟨hnext.1, (lockHeld_thread hl hstep).1, hnext.2⟩
  · rintro s i x call' v' j - hv ⟨hl, hg⟩ hstep hne ⟨hj, hgj⟩
    refine ⟨(lockHeld_thread hl hstep).2 j _ hne hj, fun hin => ?_⟩
    rw [untouched hl (hj.mp hin) hne hstep]
    exact Stage.guards_tick (hgj hin) (threadStep_cases hstep).1

/-! ### What a key set is of -/

/-- There is a key set, of a time that is not further back than the margin. -/
def Since (v : Verifier τ) (t margin : τ) : Prop :=
  ∃ keys, v.keys = some keys ∧ t ≤ keys.asOf + margin

/-- The key set is only ever replaced by a later one. -/
def Later (v v' : Verifier τ) : Prop :=
  ∀ keys, v.keys = some keys → ∃ keys', v'.keys = some keys' ∧ keys.asOf ≤ keys'.asOf

omit [AddCommGroup τ] in
theorem Later.of_eq (h : v'.keys = v.keys) : Later v v' :=
  fun keys hkeys => ⟨keys, h.trans hkeys, le_refl _⟩

theorem Since.mono [IsOrderedAddMonoid τ] {t margin : τ} (h : Since v t margin)
    (hlater : Later v v') : Since v' t margin := by
  obtain ⟨keys, hkeys, hle⟩ := h
  obtain ⟨keys', hkeys', hle'⟩ := hlater keys hkeys
  exact ⟨keys', hkeys', hle.trans (add_le_add_left hle' margin)⟩

/-- Key sets are the team's, and a forced refresh was noted so long after its key set at most. -/
structure Current (published : τ → List Kid) (d : τ) (v : Verifier τ) : Prop where
  keys : ∀ keys, v.keys = some keys → keys.kids = published keys.asOf ∧ keys.asOf ≤ v.clock
  forced : ∀ last, v.lastForcedRefresh = some last → Since v last d

def Stage.again : Stage τ → Bool
  | .clock again | .look again _ | .take again | .attempt again | .cooling again _ => again
  | .stale again | .wait again | .locked again | .gate again => again
  | .fetch (.current again) | .fetching (.current again) _ => again
  | .store (.current again) .. | .stamp (.current again) .. => again
  | _ => false

/-- What a call knows of the key set where it stands. -/
def Stage.facts (c : AccessJwtConfig τ) (published : τ → List Kid) (d : τ) (kid : Kid) (began : τ)
    (v : Verifier τ) : Stage τ → Prop
  | .forcedCooling last => ∀ t, last = some t → Since v t d
  | .forceGate => ∀ keys, v.keys = some keys → kid ∉ keys.kids
  | .fetching _ start => began ≤ start ∧ ∀ keys, v.keys = some keys → keys.asOf ≤ start
  | .store _ start keys => began ≤ start ∧ start ≤ keys.asOf ∧ keys.asOf ≤ v.clock ∧
    keys.kids = published keys.asOf ∧ ∀ old, v.keys = some old → old.asOf ≤ start
  | .stamp _ start keys => v.keys = some keys ∧ began ≤ start ∧ start ≤ keys.asOf
  | .force start keys => ∃ fetched, keys = some fetched ∧ v.keys = some fetched ∧ began ≤ start ∧
    start ≤ fetched.asOf
  | .done .unknown => ∃ u, kid ∉ published u ∧ began ≤ u + (d + c.jwksCooldownSeconds)
  | _ => True

structure Knows (c : AccessJwtConfig τ) (published : τ → List Kid) (d : τ) (kid : Kid) (began : τ)
    (v : Verifier τ) (stage : Stage τ) : Prop where
  past : stage.over = false → began ≤ v.clock
  again : stage.again = true → Since v began (d + c.jwksCooldownSeconds)
  facts : stage.facts c published d kid began v

theorem Knows.first {d began : τ} (hbegan : began ≤ v.clock) (hagain : stage.again = false)
    (hfacts : stage.facts c published d kid began v) : Knows c published d kid began v stage :=
  ⟨fun _ => hbegan, fun h => absurd (hagain.symm.trans h) Bool.false_ne_true, hfacts⟩

def Succeeds (s : Config Nat (Call τ) (Verifier τ)) (a : Action Nat (τ × Input τ)) : Prop :=
  ∀ use start, (s.locals a.thread).stage = .fetching use start → a.input.2 ≠ .go none

/-- The same, and a forced refresh is noted within the time after it began. -/
def Prompt (d : τ) (s : Config Nat (Call τ) (Verifier τ)) (a : Action Nat (τ × Input τ)) : Prop :=
  Succeeds s a ∧
    ∀ start keys, (s.locals a.thread).stage = .force start keys → a.input.1 ≤ start + d

variable {d began : τ}

theorem knows_returned {again : Bool} (hv : Current published d v) (hkeys : v.keys = some keys)
    (hbegan : began ≤ v.clock) (hagain : again = true → Since v began (d + c.jwksCooldownSeconds)) :
    Knows c published d kid began v (returned kid again keys) := by
  unfold returned
  split
  · exact .first hbegan rfl trivial
  · rename_i hmiss
    split
    · rename_i h
      obtain ⟨keys', hkeys', hle⟩ := hagain h
      obtain rfl : keys = keys' := Option.some.inj (hkeys.symm.trans hkeys')
      refine .first hbegan rfl ⟨keys.asOf, ?_, hle⟩
      rw [← (hv.keys keys hkeys).1, ← List.contains_iff_mem]
      exact hmiss
    · exact .first hbegan rfl trivial

theorem knows_returnedStale {again : Bool} (hv : Current published d v) (hbegan : began ≤ v.clock)
    (hagain : again = true → Since v began (d + c.jwksCooldownSeconds)) :
    Knows c published d kid began v (returnedStale kid again v.keys) := by
  cases hkeys : v.keys with
  | none => exact .first hbegan rfl trivial
  | some keys => exact knows_returned hv hkeys hbegan hagain

theorem began_of_cooling [IsOrderedAddMonoid τ] {last t : τ}
    (hcool : now - last < c.jwksCooldownSeconds) (hbegan : began ≤ now)
    (hle : last ≤ t + d) : began ≤ t + (d + c.jwksCooldownSeconds) := by
  have hnow : now ≤ c.jwksCooldownSeconds + last := (sub_lt_iff_lt_add.mp hcool).le
  calc began ≤ c.jwksCooldownSeconds + last := hbegan.trans hnow
    _ ≤ c.jwksCooldownSeconds + (t + d) := add_le_add_right hle _
    _ = t + (d + c.jwksCooldownSeconds) := by rw [add_comm, add_assoc]

theorem Knows.step_outside [IsOrderedAddMonoid τ] (hv : Current published d v)
    (hk : Knows c published d kid began v stage)
    (h : stage.step c published i kid v.clock reply v = some (stage', v'))
    (hout : stage.inLock = false) : Knows c published d kid began v stage' := by
  cases stage with
  | idle | done => cases h
  | clock again | attempt again =>
    cases h
    exact ⟨hk.past, hk.again, trivial⟩
  | look again | cooling again =>
    obtain ⟨rfl, -⟩ := h
    split
    · exact ⟨fun _ => hk.past rfl, hk.again, trivial⟩
    · exact ⟨fun _ => hk.past rfl, hk.again, trivial⟩
  | take again =>
    obtain ⟨keys, hkeys, heq⟩ := Option.map_eq_some_iff.mp h
    cases heq
    exact knows_returned hv hkeys (hk.past rfl) hk.again
  | stale again =>
    cases h
    exact knows_returnedStale hv (hk.past rfl) hk.again
  | wait again =>
    simp only [Stage.step] at h
    split at h
    · cases h
      exact ⟨fun _ => hk.past rfl, hk.again, trivial⟩
    · cases h
  | missed =>
    cases h
    exact .first (hk.past rfl) rfl fun t ht => hv.forced t ht
  | forcedCooling last =>
    obtain ⟨rfl, -⟩ := h
    split
    · rename_i hcool
      refine ⟨fun _ => hk.past rfl, fun _ => ?_, trivial⟩
      cases last with
      | none => cases hcool
      | some last =>
        obtain ⟨keys, hkeys, hle⟩ := hk.facts last rfl
        exact ⟨keys, hkeys, began_of_cooling (of_decide_eq_true hcool) (hk.past rfl) hle⟩
    · exact .first (hk.past rfl) rfl trivial
  | waitForced =>
    simp only [Stage.step] at h
    split at h
    · cases h
      exact .first (hk.past rfl) rfl trivial
    · cases h
  | _ => cases hout

/-- The holder's step, as far as the key set is concerned. -/
structure Moves (c : AccessJwtConfig τ) (published : τ → List Kid) (d : τ) (kid : Kid) (began : τ)
    (v v' : Verifier τ) (stage' : Stage τ) : Prop where
  current : Current published d v'
  later : Later v v'
  clock : v'.clock = v.clock
  knows : Knows c published d kid began v' stage'

theorem Moves.same (hv : Current published d v) (hkeys : v'.keys = v.keys)
    (hforced : v'.lastForcedRefresh = v.lastForcedRefresh) (hclock : v'.clock = v.clock)
    (hk : Current published d v' → Knows c published d kid began v' stage') :
    Moves c published d kid began v v' stage' := by
  have hcurrent : Current published d v' := by
    refine ⟨fun keys h => ?_, fun last h => ?_⟩
    · rw [hclock]
      exact hv.keys keys (hkeys.symm.trans h)
    · obtain ⟨keys, hsome, hle⟩ := hv.forced last (hforced.symm.trans h)
      exact ⟨keys, hkeys.trans hsome, hle⟩
  exact ⟨hcurrent, Later.of_eq hkeys, hclock, hk hcurrent⟩

theorem Knows.store [IsOrderedAddMonoid τ] (hv : Current published d v)
    (hk : Knows c published d kid began v (.store use start keys)) :
    Moves c published d kid began v { v with keys := some keys } (.stamp use start keys) := by
  obtain ⟨hbegan, hstart, hpast, hkids, hold⟩ := hk.facts
  have hlater : Later v { v with keys := some keys } :=
    fun old h => ⟨keys, rfl, (hold old h).trans hstart⟩
  refine ⟨⟨fun keys' h => ?_, fun last h => (hv.forced last h).mono hlater⟩, hlater,
    rfl, fun _ => hk.past rfl, ?_, rfl, hbegan, hstart⟩
  · cases h
    exact ⟨hkids, hpast⟩
  · cases use with
    | current again => exact fun h => (hk.again h).mono hlater
    | expiry | forced => exact fun h => by cases h

theorem Knows.noted [IsOrderedAddMonoid τ] {fetched : KeySet τ} (hv : Current published d v)
    (hk : Knows c published d kid began v (.force start (some fetched)))
    (hsoon : v.clock ≤ start + d) :
    Moves c published d kid began v { v with lastForcedRefresh := some v.clock, lock := none }
      (returned kid true fetched) := by
  obtain ⟨_, heq, hkeys, hbegan, hstart⟩ := hk.facts
  obtain rfl := Option.some.inj heq
  have hd : 0 ≤ d := (le_add_iff_nonneg_right start).mp
    ((hstart.trans (hv.keys fetched hkeys).2).trans hsoon)
  have hcurrent : Current published d
      { v with lastForcedRefresh := some v.clock, lock := none } := by
    refine ⟨hv.keys, fun last h => ?_⟩
    cases h
    exact ⟨fetched, hkeys, hsoon.trans (add_le_add_left hstart d)⟩
  refine ⟨hcurrent, Later.of_eq rfl, rfl, knows_returned hcurrent hkeys (hk.past rfl)
    fun _ => ⟨fetched, hkeys, (hbegan.trans hstart).trans ?_⟩⟩
  exact le_add_of_nonneg_right (add_nonneg hd c.cooldown_nonneg)

theorem Knows.gated [IsOrderedAddMonoid τ] (hv : Current published d v)
    (hk : Knows c published d kid began v stage)
    (hstage : stage = .matchLocked ∨ stage = .forceGate)
    (h : stage.step c published i kid v.clock reply v = some (stage', v')) :
    Moves c published d kid began v v' stage' := by
  rcases hstage with rfl | rfl
  · simp only [Stage.step] at h
    split at h
    · cases h
      exact Moves.same hv rfl rfl rfl fun _ => .first (hk.past rfl) rfl trivial
    · rename_i hmiss
      cases h
      refine Moves.same hv rfl rfl rfl fun _ => .first (hk.past rfl) rfl
        fun keys hkeys hmem => hmiss ?_
      rw [hkeys]
      exact List.contains_iff_mem.mpr hmem
  · simp only [Stage.step] at h
    split at h
    · rename_i hcool
      cases h
      refine Moves.same hv rfl rfl rfl fun _ => .first (hk.past rfl) rfl ?_
      obtain ⟨last, hlast, hyoung⟩ := cooling_iff.mp hcool
      obtain ⟨keys, hkeys, hle⟩ := hv.forced last hlast
      refine ⟨keys.asOf, ?_, began_of_cooling hyoung (hk.past rfl) hle⟩
      rw [← (hv.keys keys hkeys).1]
      exact hk.facts keys hkeys
    · cases h
      exact Moves.same hv rfl rfl rfl fun _ => .first (hk.past rfl) rfl trivial

theorem Knows.stamped (hv : Current published d v)
    (hk : Knows c published d kid began v (.stamp use start keys))
    (h : (Stage.stamp use start keys).step c published i kid v.clock reply v = some (stage', v')) :
    Moves c published d kid began v v' stage' := by
  obtain ⟨hkeys, hbegan, hstart⟩ := hk.facts
  cases use with
  | current again =>
    cases h
    exact Moves.same hv rfl rfl rfl fun hcurrent =>
      knows_returned hcurrent hkeys (hk.past rfl) hk.again
  | expiry =>
    cases h
    exact Moves.same hv rfl rfl rfl fun _ => .first (hk.past rfl) rfl trivial
  | forced =>
    cases h
    exact Moves.same hv rfl rfl rfl fun _ =>
      .first (hk.past rfl) rfl ⟨keys, rfl, hkeys, hbegan, hstart⟩

/-- **One step** of the thread that takes it. -/
theorem Knows.step [IsOrderedAddMonoid τ] (hv : Current published d v)
    (hk : Knows c published d kid began v stage)
    (hreply : ∀ use start, stage = .fetching use start → reply ≠ none)
    (hprompt : ∀ start keys, stage = .force start keys → v.clock ≤ start + d)
    (h : stage.step c published i kid v.clock reply v = some (stage', v')) :
    Moves c published d kid began v v' stage' := by
  cases hin : stage.inLock with
  | false =>
    rcases Stage.step_outside h hin with ⟨rfl, -⟩ | ⟨-, rfl, ⟨again, rfl, rfl⟩ | ⟨rfl, rfl⟩⟩
    · exact Moves.same hv rfl rfl rfl fun _ => hk.step_outside hv h hin
    · exact Moves.same hv rfl rfl rfl fun _ => ⟨fun _ => hk.past rfl, hk.again, trivial⟩
    · exact Moves.same hv rfl rfl rfl fun _ => .first (hk.past rfl) rfl trivial
  | true =>
    cases stage with
    | locked again | gate again =>
      simp only [Stage.step] at h
      split at h
      · cases h
        exact Moves.same hv rfl rfl rfl fun hcurrent =>
          knows_returnedStale hcurrent (hk.past rfl) hk.again
      · cases h
        exact Moves.same hv rfl rfl rfl fun _ => ⟨fun _ => hk.past rfl, hk.again, trivial⟩
    | lockedForced | gateForced =>
      obtain ⟨rfl, rfl⟩ := h
      refine Moves.same hv rfl rfl rfl fun _ => ?_
      split
      · exact .first (hk.past rfl) rfl trivial
      · exact .first (hk.past rfl) rfl trivial
    | matchLocked => exact hk.gated hv (Or.inl rfl) h
    | forceGate => exact hk.gated hv (Or.inr rfl) h
    | fetch use =>
      cases h
      refine Moves.same hv rfl rfl rfl fun _ => ⟨fun _ => hk.past rfl, ?_, hk.past rfl,
        fun keys hkeys => (hv.keys keys hkeys).2⟩
      cases use with
      | current again => exact hk.again
      | expiry | forced => exact fun h => by cases h
    | fetching use start =>
      simp only [Stage.step] at h
      split at h
      · exact absurd rfl (hreply use start rfl)
      · split at h
        · rename_i hwithin
          cases h
          refine Moves.same hv rfl rfl rfl fun _ => ⟨fun _ => hk.past rfl, ?_, hk.facts.1,
            hwithin.1, hwithin.2, rfl, hk.facts.2⟩
          cases use with
          | current again => exact hk.again
          | expiry | forced => exact fun h => by cases h
        · cases h
    | store use start keys =>
      cases h
      exact hk.store hv
    | stamp use start keys => exact hk.stamped hv h
    | force start keys =>
      obtain ⟨fetched, rfl, -⟩ := hk.facts
      cases h
      exact hk.noted hv (hprompt start _ rfl)
    | _ => cases hin

theorem Current.tick (hv : Current published d v) (hle : v.clock ≤ now) :
    Current published d (v.tick now) :=
  ⟨fun keys hkeys => ⟨(hv.keys keys hkeys).1, (hv.keys keys hkeys).2.trans hle⟩, hv.forced⟩

theorem Knows.tick (hk : Knows c published d kid began v stage) (hle : v.clock ≤ now) :
    Knows c published d kid began (v.tick now) stage where
  past h := (hk.past h).trans hle
  again := hk.again
  facts := by
    cases stage with
    | store use start keys =>
      obtain ⟨hbegan, hstart, hpast, hrest⟩ := hk.facts
      exact ⟨hbegan, hstart, hpast.trans hle, hrest⟩
    | done outcome => cases outcome with
      | unknown => exact hk.facts
      | known | unavailable => trivial
    | _ => exact hk.facts

theorem Knows.other [IsOrderedAddMonoid τ] (hk : Knows c published d kid began v stage)
    (hout : stage.inLock = false) (hlater : Later v v') (hclock : v.clock ≤ v'.clock) :
    Knows c published d kid began v' stage where
  past h := (hk.past h).trans hclock
  again h := (hk.again h).mono hlater
  facts := by
    cases stage with
    | forcedCooling last => exact fun t ht => (hk.facts t ht).mono hlater
    | forceGate | fetching | store | stamp | force => cases hout
    | done outcome => cases outcome with
      | unknown => exact hk.facts
      | known | unavailable => trivial
    | _ => exact hk.facts

/-- **A refused kid is new**: while fetches succeed, only a kid that has not been published for the
cooldown and the time of a forced refresh is refused as unknown. -/
theorem unknown_is_new [IsOrderedAddMonoid τ]
    {tr : List (Config Nat (Call τ) (Verifier τ) × Action Nat (τ × Input τ))}
    {s : Config Nat (Call τ) (Verifier τ)}
    (r : Run Starts (By (next (threadStep c published))) tr s) (hc : Throughout (Prompt d) tr)
    {i : Nat} (hunknown : (s.locals i).stage = .done .unknown) :
    ∃ u, (s.locals i).kid ∉ published u ∧
      (s.locals i).began ≤ u + (d + c.jwksCooldownSeconds) := by
  have hinv := owicki_gries (C := Prompt d) (I := Current published d)
    (A := fun i call v => LockHeld i call.stage v ∧
      Knows c published d call.kid call.began v call.stage) ?_ ?_ ?_ r hc
  · have hfacts := ((hinv.2 i).2).facts
    rw [hunknown] at hfacts
    exact hfacts
  · rintro s ⟨hidle, hkeys, -, -, hforced, hlock, -⟩
    refine ⟨⟨fun keys h => ?_, fun last h => ?_⟩, fun i => ⟨iff_of_false ?_ ?_, ?_⟩⟩
    · rw [hkeys] at h
      cases h
    · rw [hforced] at h
      cases h
    · rw [hidle i]
      exact Bool.false_ne_true
    · rw [hlock]
      exact fun h => by cases h
    · rw [hidle i]
      exact ⟨fun h => (by cases h), fun h => (by cases h), trivial⟩
  · rintro s i x call' v' hc hv ⟨hl, hk⟩ hstep
    obtain ⟨hle, ⟨kid, -, -, rfl, rfl⟩ | ⟨reply, stage', hx, rfl, hgo⟩⟩ := threadStep_cases hstep
    · exact ⟨hv.tick hle, (lockHeld_thread hl hstep).1, fun _ => le_refl _,
        fun h => (by cases h), trivial⟩
    · have hnext := (hk.tick hle).step (hv.tick hle)
        (fun use start hstage hnone => hc.1 use start hstage (hnone ▸ hx)) hc.2 hgo
      exact ⟨hnext.current, (lockHeld_thread hl hstep).1, hnext.knows⟩
  · rintro s i x call' v' j hc hv ⟨hl, hk⟩ hstep hne ⟨hj, hkj⟩
    refine ⟨(lockHeld_thread hl hstep).2 j _ hne hj, ?_⟩
    have hle := (threadStep_cases hstep).1
    cases hin : (s.locals j).stage.inLock with
    | true =>
      rw [untouched hl (hj.mp hin) hne hstep]
      exact hkj.tick hle
    | false =>
      obtain ⟨-, ⟨kid, -, -, rfl, rfl⟩ | ⟨reply, stage', hx, rfl, hgo⟩⟩ := threadStep_cases hstep
      · exact hkj.tick hle
      · have hnext := (hk.tick hle).step (hv.tick hle)
          (fun use start hstage hnone => hc.1 use start hstage (hnone ▸ hx)) hc.2 hgo
        exact (hkj.tick hle).other hin hnext.later (le_of_eq hnext.clock.symm)

/-- **The gate of the key set**, for every interleaving: how far apart fetches begin, and for how
long a published kid may be refused. -/
theorem jwks_gate [IsOrderedAddMonoid τ]
    {tr : List (Config Nat (Call τ) (Verifier τ) × Action Nat (τ × Input τ))}
    {s : Config Nat (Call τ) (Verifier τ)}
    (r : Run Starts (By (next (threadStep c published))) tr s) :
    s.shared.fetches.Pairwise (Spaced c) ∧
      ∀ d, Throughout (Prompt d) tr → ∀ i since,
        (∀ u, since ≤ u → (s.locals i).kid ∈ published u) →
        since + (d + c.jwksCooldownSeconds) < (s.locals i).began →
          (s.locals i).stage ≠ .done .unknown := by
  refine ⟨fetches_spaced r, fun d hc i since hpublished hold hunknown => ?_⟩
  obtain ⟨u, hmiss, hbegan⟩ := unknown_is_new r hc hunknown
  have hbefore : u < since := not_le.mp fun hle => hmiss (hpublished u hle)
  exact absurd hbegan (not_le.mpr ((add_lt_add_left hbefore _).trans hold))

/-! ### A key is added while a refresh is under way -/

section Example

def config : AccessJwtConfig Int := ⟨60, 300, by decide, by decide⟩

/-- The team adds a key at time 5. -/
def team (u : Int) : List Kid := if u < 5 then ["old"] else ["old", "new"]

def quiet : Config Nat (Call Int) (Verifier Int) where
  locals _ := ⟨"", 0, .idle⟩
  shared := ⟨0, none, none, none, none, none, []⟩

theorem quiet_starts : Starts quiet := ⟨fun _ => rfl, rfl, rfl, rfl, rfl, rfl, rfl⟩

def verifyAt (now : Int) : Action Nat (Int × Input Int) := ⟨0, now, .verify "new"⟩

/-- The next steps; a fetch that ends brings the key set of time 0. -/
def goAt (now : Int) (count : Nat) : List (Action Nat (Int × Input Int)) :=
  List.replicate count ⟨0, now, .go (some 0)⟩

/-- A first call, whose forced refresh takes ten seconds, and a second call. -/
def calls : List (Action Nat (Int × Input Int)) :=
  verifyAt 0 :: goAt 0 18 ++ goAt 10 4 ++ verifyAt 66 :: goAt 66 8

theorem calls_play : (play (next (threadStep config team)) [] quiet calls).isSome = true := by
  decide +kernel

def called : List (Config Nat (Call Int) (Verifier Int) × Action Nat (Int × Input Int)) ×
    Config Nat (Call Int) (Verifier Int) :=
  (play (next (threadStep config team)) [] quiet calls).get calls_play

theorem called_run : Run Starts (By (next (threadStep config team))) called.1 called.2 :=
  run_play quiet_starts calls_play

theorem called_gate : called.2.shared.fetches.Pairwise (Spaced config) :=
  (jwks_gate called_run).1

theorem called_succeeds : Throughout Succeeds called.1 := by
  have hall : ∀ p ∈ called.1, p.2.input.2 ≠ .go none := by decide +kernel
  exact fun p hp _ _ _ => hall p hp

/-- **One gate is not what there is**: a forced refresh follows the first fetch at once, and a key
older than the cooldown is refused where the last refresh was slow. -/
theorem jwks_not_one_gate :
    (¬ ∀ (c : AccessJwtConfig Int) (published : Int → List Kid)
        (tr : List (Config Nat (Call Int) (Verifier Int) × Action Nat (Int × Input Int)))
        (s : Config Nat (Call Int) (Verifier Int)),
        Run Starts (By (next (threadStep c published))) tr s →
        s.shared.fetches.Pairwise fun later earlier =>
          c.jwksCooldownSeconds ≤ later.start - earlier.start) ∧
      ¬ ∀ (c : AccessJwtConfig Int) (published : Int → List Kid)
        (tr : List (Config Nat (Call Int) (Verifier Int) × Action Nat (Int × Input Int)))
        (s : Config Nat (Call Int) (Verifier Int)),
        Run Starts (By (next (threadStep c published))) tr s → Throughout Succeeds tr →
        ∀ i since, (∀ u, since ≤ u → (s.locals i).kid ∈ published u) →
          since + c.jwksCooldownSeconds < (s.locals i).began →
            (s.locals i).stage ≠ .done .unknown := by
  constructor
  · intro hall
    have hspaced := hall config team _ _ called_run
    revert hspaced
    decide +kernel
  · intro hall
    refine hall config team _ _ called_run called_succeeds 0 5 (fun u hu => ?_) (by decide +kernel)
      (by decide +kernel)
    have hkid : (called.2.locals 0).kid = "new" := by decide +kernel
    rw [team, if_neg (not_lt.mpr hu)]
    exact List.mem_cons_of_mem _ List.mem_cons_self

end Example

end QnscKb.Mcp
