import Mathlib.Data.List.Infix
import Mathlib.Tactic.Linarith
import QnscKb.Lib.Text

/-!
# RateLimit — Window

`InMemoryRateLimiter` (`src/core/rate_limit.py`): the hits of each key in the order they came, those
that have left the window dropped at the key's next call.  Times are in microseconds.
-/

namespace QnscKb.RateLimit

structure InMemoryRateLimiter where
  limit : ℕ
  windowSeconds : ℤ

def second : ℤ := 1000000

def InMemoryRateLimiter.window (limiter : InMemoryRateLimiter) : ℤ := limiter.windowSeconds * second

/-- What `allow` raises: `events[0]` of an empty deque. -/
inductive Failure where
  | indexError
  deriving DecidableEq

/-- What `allow` returns. -/
abbrev Answer := Except Failure (Bool × ℤ)

def Answer.admits : Answer → Bool
  | .ok (allowed, _) => allowed
  | .error _ => false

variable (limiter : InMemoryRateLimiter)

def kept (events : List ℤ) (now : ℤ) : List ℤ :=
  events.dropWhile fun hit => decide (hit ≤ now - limiter.window)

/-- The answer to a call over the limit: it is told when the oldest hit leaves the window. -/
def refusal (events : List ℤ) (now : ℤ) : Answer :=
  match events with
  | [] => .error .indexError
  | oldest :: _ => .ok (false, max 1 ((oldest + limiter.window - now).tdiv second))

/-- `allow` on the deque of its key. -/
def allowIn (events : List ℤ) (now : ℤ) : Answer × List ℤ :=
  let events := kept limiter events now
  if limiter.limit ≤ events.length then (refusal limiter events now, events)
  else (.ok (true, 0), events ++ [now])

section Calls

variable {κ : Type} [DecidableEq κ]

structure Call (κ : Type) where
  key : κ
  time : ℤ

abbrev Events (κ : Type) := κ → List ℤ

def allow (events : Events κ) (call : Call κ) : Answer × Events κ :=
  let out := allowIn limiter (events call.key) call.time
  (out.1, fun key => if key = call.key then out.2 else events key)

def after (events : Events κ) (calls : List (Call κ)) : Events κ :=
  calls.foldl (fun events call => (allow limiter events call).2) events

/-- The times at which calls of a key are let in. -/
def admitted (key : κ) : Events κ → List (Call κ) → List ℤ
  | _, [] => []
  | events, call :: calls =>
    (if call.key = key ∧ (allow limiter events call).1.admits = true then [call.time] else []) ++
      admitted key (allow limiter events call).2 calls

def fresh : Events κ := fun _ => []

/-- The calls come at non-decreasing times. -/
def InOrder (calls : List (Call κ)) : Prop := calls.Pairwise fun a b => a.time ≤ b.time

end Calls

/-! ### A call on its deque -/

theorem kept_suffix (events : List ℤ) (now : ℤ) : kept limiter events now <:+ events :=
  List.dropWhile_suffix _

theorem refusal_admits (events : List ℤ) (now : ℤ) :
    (refusal limiter events now).admits = false := by
  cases events with
  | nil => rfl
  | cons oldest rest => rfl

variable {limiter}

variable {events hits : List ℤ} {now : ℤ}

theorem allowIn_over (h : limiter.limit ≤ (kept limiter events now).length) :
    allowIn limiter events now =
      (refusal limiter (kept limiter events now) now, kept limiter events now) :=
  if_pos h

theorem allowIn_under (h : (kept limiter events now).length < limiter.limit) :
    allowIn limiter events now = (.ok (true, 0), kept limiter events now ++ [now]) :=
  if_neg (Nat.not_le.mpr h)

theorem admits_iff :
    (allowIn limiter events now).1.admits = true ↔
      (kept limiter events now).length < limiter.limit := by
  rcases Nat.lt_or_ge (kept limiter events now).length limiter.limit with h | h
  · rw [allowIn_under h]
    exact iff_of_true rfl h
  · rw [allowIn_over h, refusal_admits]
    exact iff_of_false Bool.false_ne_true (Nat.not_lt.mpr h)

theorem length_allowIn_le (now : ℤ) (h : events.length ≤ limiter.limit) :
    (allowIn limiter events now).2.length ≤ limiter.limit := by
  rcases Nat.lt_or_ge (kept limiter events now).length limiter.limit with hkept | hkept
  · rw [allowIn_under hkept, List.length_append]
    exact hkept
  · rw [allowIn_over hkept]
    exact (kept_suffix limiter events now).length_le.trans h

/-! ### Sequences of calls -/

section Sequences

variable {κ : Type} [DecidableEq κ]

theorem after_append (events : Events κ) (calls later : List (Call κ)) :
    after limiter events (calls ++ later) = after limiter (after limiter events calls) later :=
  List.foldl_append

theorem admitted_append (key : κ) (events : Events κ) (calls later : List (Call κ)) :
    admitted limiter key events (calls ++ later) =
      admitted limiter key events calls ++
        admitted limiter key (after limiter events calls) later := by
  induction calls generalizing events with
  | nil => rfl
  | cons call calls ih =>
    rw [List.cons_append, admitted, admitted, ih, List.append_assoc]
    rfl

variable {events : Events κ}

variable {call : Call κ}

theorem allow_other {key : κ} (h : key ≠ call.key) :
    (allow limiter events call).2 key = events key :=
  if_neg h

theorem allow_own (events : Events κ) (call : Call κ) :
    (allow limiter events call).2 call.key = (allowIn limiter (events call.key) call.time).2 :=
  if_pos rfl

theorem length_after_le (h : ∀ key, (events key).length ≤ limiter.limit) (calls : List (Call κ))
    (key : κ) : (after limiter events calls key).length ≤ limiter.limit := by
  induction calls generalizing events with
  | nil => exact h key
  | cons call calls ih =>
    have hnext : ∀ other, ((allow limiter events call).2 other).length ≤ limiter.limit := by
      intro other
      by_cases hkey : other = call.key
      · rw [hkey, allow_own]
        exact length_allowIn_le _ (h _)
      · rw [allow_other hkey]
        exact h other
    exact ih hnext

variable {calls : List (Call κ)}

theorem admitted_refused {key : κ} (h : (allow limiter events call).1.admits = false) :
    admitted limiter key events (call :: calls) =
      admitted limiter key (allow limiter events call).2 calls := by
  rw [admitted, if_neg fun hcall => Bool.false_ne_true (h.symm.trans hcall.2)]
  rfl

omit [DecidableEq κ] in
theorem InOrder.snoc {last : Call κ} (h : InOrder (calls ++ [call]))
    (hlast : call.time ≤ last.time) : InOrder (calls ++ [call, last]) := by
  obtain ⟨hcalls, -, hcall⟩ := List.pairwise_append.mp h
  refine List.pairwise_append.mpr ⟨hcalls, by simpa using hlast, ?_⟩
  intro c hc later hlater
  have hc' := hcall c hc call List.mem_cons_self
  rcases List.mem_pair.mp hlater with rfl | rfl
  · exact hc'
  · exact hc'.trans hlast

theorem after_suffix {key : κ} (h : admitted limiter key events calls = []) :
    after limiter events calls key <:+ events key := by
  induction calls generalizing events with
  | nil => exact List.suffix_rfl
  | cons call calls ih =>
    rw [admitted, List.append_eq_nil_iff] at h
    obtain ⟨hcall, hcalls⟩ := h
    refine (ih hcalls).trans ?_
    by_cases hkey : key = call.key
    · subst hkey
      have hover : ¬ (allowIn limiter (events call.key) call.time).1.admits = true := by
        intro hadmits
        rw [if_pos ⟨rfl, hadmits⟩] at hcall
        cases hcall
      rw [admits_iff, Nat.not_lt] at hover
      rw [allow_own, allowIn_over hover]
      exact kept_suffix limiter _ _
    · rw [allow_other hkey]

end Sequences

/-! ### The window -/

def inWindow (limiter : InMemoryRateLimiter) (start : ℤ) (hits : List ℤ) : List ℤ :=
  hits.filter fun hit => decide (start ≤ hit ∧ hit < start + limiter.window)

/-- What the deque of a key says of all its hits up to now. -/
structure Held (limiter : InMemoryRateLimiter) (hits events : List ℤ) (now : ℤ) : Prop where
  /-- The hits that are not in the deque have left the window. -/
  left : ∃ old, hits = old ++ events ∧ ∀ hit ∈ old, hit ≤ now - limiter.window
  within : ∀ start, (inWindow limiter start hits).length ≤ limiter.limit

theorem Held.none (now : ℤ) : Held limiter [] [] now where
  left := ⟨[], rfl, fun _ h => absurd h List.not_mem_nil⟩
  within := fun _ => Nat.zero_le _

theorem Held.later {later : ℤ} (h : Held limiter hits events now) (hle : now ≤ later) :
    Held limiter hits events later where
  left := by
    obtain ⟨old, hhits, hold⟩ := h.left
    exact ⟨old, hhits, fun hit hmem => (hold hit hmem).trans (by linarith)⟩
  within := h.within

theorem Held.evict (h : Held limiter hits events now) :
    Held limiter hits (kept limiter events now) now where
  left := by
    obtain ⟨old, hhits, hold⟩ := h.left
    refine ⟨old ++ events.takeWhile fun hit => decide (hit ≤ now - limiter.window), ?_, ?_⟩
    · rw [List.append_assoc, kept, List.takeWhile_append_dropWhile, hhits]
    · intro hit hmem
      rcases List.mem_append.mp hmem with hmem | hmem
      · exact hold hit hmem
      · have hgone := List.mem_takeWhile_imp hmem
        exact of_decide_eq_true hgone
  within := h.within

theorem Held.hit (h : Held limiter hits events now) (hroom : events.length < limiter.limit) :
    Held limiter (hits ++ [now]) (events ++ [now]) now where
  left := by
    obtain ⟨old, hhits, hold⟩ := h.left
    exact ⟨old, by rw [hhits, List.append_assoc], hold⟩
  within := by
    intro start
    by_cases hnow : start ≤ now ∧ now < start + limiter.window
    · -- the hits that left the window cannot share one with this call
      obtain ⟨old, rfl, hold⟩ := h.left
      have hnone : inWindow limiter start old = [] := by
        refine List.filter_eq_nil_iff.mpr fun hit hmem hin => ?_
        have hstart := (of_decide_eq_true hin).1
        linarith [hold hit hmem]
      have hfew : (inWindow limiter start (events ++ [now])).length ≤ events.length + 1 := by
        refine (List.length_filter_le _ _).trans ?_
        rw [List.length_append, List.length_singleton]
      rw [inWindow, List.append_assoc, List.filter_append]
      change (inWindow limiter start old ++ inWindow limiter start (events ++ [now])).length ≤ _
      rw [hnone]
      exact hfew.trans hroom
    · have houtside : inWindow limiter start [now] = [] :=
        List.filter_eq_nil_iff.mpr fun hit hmem hin =>
          hnow (by rw [← List.mem_singleton.mp hmem]; exact of_decide_eq_true hin)
      rw [inWindow, List.filter_append]
      change (inWindow limiter start hits ++ inWindow limiter start [now]).length ≤ _
      rw [houtside, List.append_nil]
      exact h.within start

section Along

variable {κ : Type} [DecidableEq κ]

theorem Held.call {key : κ} {hits : List ℤ} {events : Events κ} (call : Call κ)
    (h : Held limiter hits (events key) call.time) :
    Held limiter (hits ++ admitted limiter key events [call])
      ((allow limiter events call).2 key) call.time := by
  rw [admitted, admitted, List.append_nil]
  by_cases hkey : key = call.key
  · subst hkey
    rw [allow_own]
    rcases Nat.lt_or_ge (kept limiter (events call.key) call.time).length limiter.limit with
      hunder | hover
    · rw [if_pos ⟨rfl, admits_iff.mpr hunder⟩, allowIn_under hunder]
      exact h.evict.hit hunder
    · rw [if_neg fun hadmits => Nat.not_lt.mpr hover (admits_iff.mp hadmits.2), allowIn_over hover,
        List.append_nil]
      exact h.evict
  · rw [if_neg fun hcall => hkey hcall.1.symm, List.append_nil, allow_other hkey]
    exact h

variable {now oldest : ℤ}

theorem held {calls : List (Call κ)} (hcalls : InOrder calls) (key : κ)
    (hnow : ∀ call ∈ calls, call.time ≤ now) :
    Held limiter (admitted limiter key fresh calls) (after limiter fresh calls key) now := by
  induction calls using List.reverseRecOn generalizing now with
  | nil => exact Held.none now
  | append_singleton calls call ih =>
    obtain ⟨hearlier, -, hlast⟩ := List.pairwise_append.mp hcalls
    have hbefore := ih hearlier fun c hc => hlast c hc call List.mem_cons_self
    rw [admitted_append, after_append]
    exact (hbefore.call call).later
      (hnow call (List.mem_append_right _ List.mem_cons_self))

/-- **The window**: no window holds more hits of a key than the limit. -/
theorem admitted_within {calls : List (Call κ)} (hcalls : InOrder calls) (key : κ) (start : ℤ) :
    (inWindow limiter start (admitted limiter key fresh calls)).length ≤ limiter.limit := by
  induction calls using List.reverseRecOn with
  | nil => exact Nat.zero_le _
  | append_singleton calls call _ =>
    have hnow : ∀ c ∈ calls ++ [call], c.time ≤ call.time := by
      intro c hc
      rcases List.mem_append.mp hc with hc | hc
      · exact (List.pairwise_append.mp hcalls).2.2 c hc call List.mem_cons_self
      · rw [List.mem_singleton.mp hc]
    exact (held hcalls key hnow).within start

theorem admitted_sublist (key : κ) (events : Events κ) (calls : List (Call κ)) :
    (admitted limiter key events calls).Sublist (calls.map Call.time) := by
  induction calls generalizing events with
  | nil => exact List.Sublist.slnil
  | cons call calls ih =>
    rw [admitted]
    split_ifs
    · exact (ih _).cons_cons _
    · exact (ih _).cons _

/-- Of hits in order, those that are kept are the recent ones. -/
theorem length_kept (h : events.Pairwise (· ≤ ·)) (now : ℤ) :
    (kept limiter events now).length =
      events.countP fun hit => decide (now - limiter.window < hit) := by
  induction events with
  | nil => rfl
  | cons hit events ih =>
    obtain ⟨hfirst, hrest⟩ := List.pairwise_cons.mp h
    by_cases hleft : hit ≤ now - limiter.window
    · rw [kept, List.dropWhile_cons, if_pos (decide_eq_true hleft),
        List.countP_cons_of_neg (by simpa using hleft)]
      exact ih hrest
    · rw [kept, List.dropWhile_cons, if_neg (by simpa using hleft), eq_comm,
        List.countP_eq_length]
      intro later hlater
      refine decide_eq_true ((not_le.mp hleft).trans_le ?_)
      rcases List.mem_cons.mp hlater with rfl | hlater
      · exact le_rfl
      · exact hfirst later hlater

/-- **The limiter is a sliding window**: a call is let in exactly when fewer calls of its key than
the limit were let in within the window before it. -/
theorem admits_iff_recent {calls : List (Call κ)} (h : InOrder (calls ++ [call])) :
    (allow limiter (after limiter fresh calls) call).1.admits = true ↔
      ((admitted limiter call.key fresh calls).countP fun hit =>
        decide (call.time - limiter.window < hit)) < limiter.limit := by
  obtain ⟨hearlier, -, hlast⟩ := List.pairwise_append.mp h
  obtain ⟨old, hsplit, hold⟩ := (held hearlier call.key
    fun c hc => hlast c hc call List.mem_cons_self).left
  have hsorted : (admitted limiter call.key fresh calls).Pairwise (· ≤ ·) :=
    (List.pairwise_map.mpr hearlier).sublist (admitted_sublist call.key fresh calls)
  have hgone : (old.countP fun hit => decide (call.time - limiter.window < hit)) = 0 :=
    List.countP_eq_zero.mpr fun hit hhit => by simpa using hold hit hhit
  rw [hsplit] at hsorted ⊢
  rw [List.countP_append, hgone, Nat.zero_add,
    ← length_kept (List.pairwise_append.mp hsorted).2.1 call.time, ← admits_iff]
  rfl

theorem refused_within_minute : ¬ (allow ⟨1, 60⟩ (after ⟨1, 60⟩ fresh [⟨0, 0⟩])
    (⟨0, 54000000⟩ : Call ℕ)).1.admits = true := fun hadmits =>
  absurd ((admits_iff_recent (by simp [InOrder])).mp hadmits) (by decide)

/-! ### The wait -/

/-- A caller that is refused after `earlier` and waits as told is let in, where no other call of its
key was meanwhile. -/
def Honoured (limiter : InMemoryRateLimiter) (earlier : List (Call κ)) (call : Call κ) : Prop :=
  ∀ retryAfter, (allow limiter (after limiter fresh earlier) call).1 = .ok (false, retryAfter) →
    ∀ between last, InOrder (earlier ++ call :: (between ++ [last])) → last.key = call.key →
      call.time + retryAfter * second ≤ last.time →
      admitted limiter call.key fresh (earlier ++ call :: between) =
        admitted limiter call.key fresh earlier →
      (allow limiter (after limiter fresh (earlier ++ call :: between)) last).1.admits = true

/-- Where the deque is full, its oldest hit leaves the window within a second, or after a whole
number of them. -/
def WholeWait (limiter : InMemoryRateLimiter) (events : List ℤ) (now : ℤ) : Prop :=
  ∀ oldest ∈ (kept limiter events now).head?, limiter.limit ≤ (kept limiter events now).length →
    oldest + limiter.window - now ≤ second ∨ second ∣ oldest + limiter.window - now

instance (events : List ℤ) (now : ℤ) : Decidable (WholeWait limiter events now) :=
  inferInstanceAs (Decidable (∀ oldest ∈ (kept limiter events now).head?, _))

theorem covers_iff {left : ℤ} (h : 0 < left) :
    left ≤ max 1 (left.tdiv second) * second ↔ left ≤ second ∨ second ∣ left := by
  have hdiv : left.tdiv second = left / second := Int.tdiv_eq_ediv_of_nonneg h.le
  rw [hdiv]
  unfold second
  omega

variable {events rest : List ℤ}

theorem lt_of_kept (h : kept limiter events now = oldest :: rest) :
    0 < oldest + limiter.window - now := by
  have hhead := List.head?_dropWhile_not (fun hit => decide (hit ≤ now - limiter.window)) events
  rw [kept] at h
  rw [h] at hhead
  have hlate : ¬ oldest ≤ now - limiter.window := by simpa using hhead
  linarith

theorem refused_iff {retryAfter : ℤ} :
    (allowIn limiter events now).1 = .ok (false, retryAfter) ↔
      ∃ oldest rest, kept limiter events now = oldest :: rest ∧
        limiter.limit ≤ (oldest :: rest).length ∧
        retryAfter = max 1 ((oldest + limiter.window - now).tdiv second) := by
  rcases Nat.lt_or_ge (kept limiter events now).length limiter.limit with hunder | hover
  · rw [allowIn_under hunder]
    refine iff_of_false (fun h => by cases h) ?_
    rintro ⟨oldest, rest, hkept, hfull, -⟩
    rw [hkept] at hunder
    exact Nat.not_lt.mpr hfull hunder
  · rw [allowIn_over hover]
    cases hkept : kept limiter events now with
    | nil =>
      refine iff_of_false (fun h => by cases h) ?_
      rintro ⟨oldest, rest, h, -⟩
      cases h
    | cons oldest rest =>
      rw [hkept] at hover
      constructor
      · intro h
        refine ⟨oldest, rest, rfl, hover, ?_⟩
        cases h
        rfl
      · rintro ⟨_, _, h, -, rfl⟩
        cases h
        rfl

theorem full_until {later : ℤ} (hevents : events = oldest :: rest)
    (hfull : limiter.limit ≤ events.length) (hlater : later < oldest + limiter.window) :
    (allowIn limiter events later).1.admits = false := by
  subst hevents
  have hstays : kept limiter (oldest :: rest) later = oldest :: rest := by
    refine List.dropWhile_cons_of_neg ?_
    simpa using by linarith
  rw [← Bool.not_eq_true, admits_iff, hstays]
  exact Nat.not_lt.mpr hfull

theorem room_after {later : ℤ} (hsuffix : events <:+ oldest :: rest)
    (hlimit : rest.length < limiter.limit) (hlater : oldest + limiter.window ≤ later) :
    (allowIn limiter events later).1.admits = true := by
  refine admits_iff.mpr (lt_of_le_of_lt (List.IsSuffix.length_le ?_) hlimit)
  rcases List.suffix_cons_iff.mp hsuffix with rfl | hrest
  · have hgone : kept limiter (oldest :: rest) later = kept limiter rest later := by
      refine List.dropWhile_cons_of_pos ?_
      simpa using by linarith
    rw [hgone]
    exact kept_suffix limiter rest later
  · exact (kept_suffix limiter events later).trans hrest

variable {earlier : List (Call κ)}

variable {call : Call κ}

theorem wholeWait_of_honoured (h : InOrder (earlier ++ [call]))
    (hhonoured : Honoured limiter earlier call) :
    WholeWait limiter (after limiter fresh earlier call.key) call.time := by
  intro oldest holdest hfull
  obtain ⟨rest, hkept⟩ := List.head?_eq_some_iff.mp (Option.mem_def.mp holdest)
  have hleft := lt_of_kept hkept
  rw [← covers_iff hleft]
  by_contra hshort
  -- the caller comes back exactly when it was told to
  let last : Call κ := ⟨call.key, call.time +
    max 1 ((oldest + limiter.window - call.time).tdiv second) * second⟩
  have hrefused := refused_iff.mpr ⟨oldest, rest, hkept, by rw [← hkept]; exact hfull, rfl⟩
  have hadmits := hhonoured _ hrefused [] last ?_ rfl le_rfl ?_
  · rw [after_append] at hadmits
    change (allowIn limiter ((allow limiter _ call).2 call.key) last.time).1.admits = true
      at hadmits
    rw [allow_own, allowIn_over hfull,
      full_until hkept hfull (by linarith : last.time < _)] at hadmits
    cases hadmits
  · -- it comes last
    have hlater : call.time ≤ last.time := by
      have hsecond : (1 : ℤ) ≤ max 1 ((oldest + limiter.window - call.time).tdiv second) :=
        le_max_left _ _
      change call.time ≤ call.time +
        max 1 ((oldest + limiter.window - call.time).tdiv second) * second
      unfold second at hsecond ⊢
      omega
    exact h.snoc hlater
  · have hanswer : (allow limiter (after limiter fresh earlier) call).1.admits = false := by
      change (allowIn limiter _ _).1.admits = false
      rw [hrefused]
      rfl
    rw [admitted_append, admitted_refused hanswer]
    exact List.append_nil _

theorem honoured_of_wholeWait
    (hwhole : WholeWait limiter (after limiter fresh earlier call.key) call.time) :
    Honoured limiter earlier call := by
  intro retryAfter hanswer between last horder hkey hwait hsame
  obtain ⟨oldest, rest, hkept, hfull, rfl⟩ := refused_iff.mp hanswer
  have hcovers := (covers_iff (lt_of_kept hkept)).mpr
    (hwhole oldest (by rw [hkept]; rfl) (by rw [hkept]; exact hfull))
  have hrefused : (allow limiter (after limiter fresh earlier) call).1.admits = false := by
    rw [hanswer]
    rfl
  -- the deque of the key only loses hits until the caller comes back
  have hnone : admitted limiter call.key
      (allow limiter (after limiter fresh earlier) call).2 between = [] := by
    rw [admitted_append, admitted_refused hrefused] at hsame
    exact List.append_right_eq_self.mp hsame
  have hsuffix := after_suffix hnone
  rw [allow_own, allowIn_over (by rw [hkept]; exact hfull), hkept] at hsuffix
  have hlimit : rest.length < limiter.limit := by
    have hlength : (after limiter fresh earlier call.key).length ≤ limiter.limit :=
      length_after_le (fun _ => Nat.zero_le _) earlier call.key
    have hle := (kept_suffix limiter (after limiter fresh earlier call.key) call.time).length_le
    rw [hkept, List.length_cons] at hle
    omega
  rw [after_append]
  change (allowIn limiter _ last.time).1.admits = true
  rw [hkey]
  exact room_after hsuffix hlimit (by linarith)

/-- **The wait**: a refused caller who waits as told is let in exactly where the time left is within
a second or whole. -/
theorem wait_honoured_iff (h : InOrder (earlier ++ [call])) :
    Honoured limiter earlier call ↔
      WholeWait limiter (after limiter fresh earlier call.key) call.time :=
  ⟨wholeWait_of_honoured h, honoured_of_wholeWait⟩

/-- **The limiter**: no window holds more hits of a key than the limit, and a refused caller who
waits as told is let in exactly where the time left is within a second or whole. -/
theorem window_and_wait (limiter : InMemoryRateLimiter) {calls : List (Call κ)}
    (h : InOrder calls) :
    (∀ key start,
      (inWindow limiter start (admitted limiter key fresh calls)).length ≤ limiter.limit) ∧
    ∀ earlier call later, calls = earlier ++ call :: later →
      (Honoured limiter earlier call ↔
        WholeWait limiter (after limiter fresh earlier call.key) call.time) := by
  refine ⟨fun key start => admitted_within h key start, ?_⟩
  rintro earlier call later rfl
  refine wait_honoured_iff (List.Pairwise.sublist ?_ h)
  exact List.Sublist.append_left (List.cons_sublist_cons.mpr (List.nil_sublist later)) earlier

end Along

/-- One call a minute: a second call six seconds before the window is over is told to wait so
long. -/
theorem window_and_wait_minute :
    (inWindow ⟨1, 60⟩ 0 (admitted ⟨1, 60⟩ 0 fresh [⟨0, 0⟩, ⟨0, 54000000⟩])).length ≤ 1 ∧
      Honoured ⟨1, 60⟩ [⟨0, 0⟩] (⟨0, 54000000⟩ : Call ℕ) := by
  have horder : InOrder ([⟨0, 0⟩, ⟨0, 54000000⟩] : List (Call ℕ)) := by
    simp [InOrder]
  have hall := window_and_wait ⟨1, 60⟩ horder
  refine ⟨hall.1 0 0, (hall.2 [⟨0, 0⟩] ⟨0, 54000000⟩ [] rfl).mpr ?_⟩
  decide +kernel

/-- With 5.7 seconds left the caller is told to wait 5 of them, and is refused again. -/
theorem wait_too_short :
    ¬ ∀ (limiter : InMemoryRateLimiter) (calls : List (Call ℕ)), InOrder calls →
      (∀ key start,
        (inWindow limiter start (admitted limiter key fresh calls)).length ≤ limiter.limit) ∧
      ∀ earlier call later, calls = earlier ++ call :: later → Honoured limiter earlier call := by
  intro h
  have horder : InOrder ([⟨0, 0⟩, ⟨0, 54300000⟩] : List (Call ℕ)) := by
    simp [InOrder]
  have hhonoured := (h ⟨1, 60⟩ _ horder).2 [⟨0, 0⟩] ⟨0, 54300000⟩ [] rfl
  have hback := hhonoured 5 (by decide +kernel) [] ⟨0, 59300000⟩ (by simp [InOrder]) rfl
    (by decide +kernel) (by decide +kernel)
  exact absurd hback (by decide +kernel)

end QnscKb.RateLimit
