import Mathlib.Data.Rat.Floor
import QnscKb.Lib.Runs
import QnscKb.Lib.Text

/-!
# Llm — Budget

The time a call of a language model takes: `complete` without `on_token`, over `_complete_once` and
`with_exponential_retry` (`src/domain/llm_client.py`, `src/core/retry.py`).  A turn is one round of
`complete`'s loop; what happens to it outside the code is the round's label.
-/

namespace QnscKb.Llm

open Runs

/-! ### What is asked, and what answers -/

structure Settings where
  inlineWait : ℚ
  maxInlineRetries : Nat
  emptyReplyRetries : Nat

inductive Kind where
  | unconfigured
  | mock
  | glm
  | other
  deriving DecidableEq

structure Query where
  kind : Kind
  /-- `provider.custom_endpoint`. -/
  custom : Bool
  background : Bool
  timeout : ℚ
  /-- What `_mock_completion` answers. -/
  mockText : Text

/-- What `float` makes of a text. -/
inductive FloatText where
  | invalid
  | nan
  | infinite
  | finite (x : ℚ)

/-- A 429 has its `Retry-After` and the wait that its body names. -/
inductive Reply where
  | text (t : Text)
  | tooMany (header message : Option FloatText)
  | unauthorized
  | failed

/-- A reply, and when it is there. -/
structure Answer where
  after : ℚ
  reply : Reply
  after_nonneg : 0 ≤ after

/-- One round of the loop, as the call meets it. -/
structure Round where
  /-- Until when the other calls of the process have noted a wait. -/
  others : ℚ
  /-- `random.uniform(0, 1)` of the wait before the attempt. -/
  topJitter : ℚ
  gate : ℚ
  /-- Until when the others have noted a wait by the time the gate lets the call in. -/
  meanwhile : ℚ
  answers : Nat → Answer
  /-- `random.uniform(0, 1)` of the pause after a 429. -/
  jitter : ℚ
  topJitter_nonneg : 0 ≤ topJitter
  gate_nonneg : 0 ≤ gate
  jitter_nonneg : 0 ≤ jitter

/-- `int` of a float. -/
def truncate (x : ℚ) : ℤ := if 0 ≤ x then ⌊x⌋ else ⌈x⌉

/-- `_retry_after_seconds`; `none` is an `OverflowError` or a `ValueError` it lets pass. -/
def retryAfterSeconds (includeMessage : Bool) (header message : Option FloatText) :
    Option (Option ℤ) :=
  match header with
  | some (.finite x) => some (some (max 1 (truncate x)))
  | some .infinite => none
  | _ =>
    if includeMessage then
      match message with
      | none => some none
      | some (.finite x) => some (some (max 1 (truncate x)))
      | some _ => none
    else some none

/-! ### One attempt -/

inductive Result where
  | text (t : Text)
  | rateLimited (retryAfter : Option ℤ)
  | unauthorized
  | failed
  deriving DecidableEq

/-- A request to the provider, with the timeout it is given. -/
structure Sent where
  sentAt : ℚ
  timeout : ℚ

inductive Wait where
  | rate
  | empty
  deriving DecidableEq

inductive Outcome where
  | reply (t : Text)
  | rateLimited (retryAfter : Option ℤ)
  | emptyReply
  | unauthorized
  | failed

/-- A call of `complete`. -/
structure Call where
  now : ℚ
  limitedUntil : ℚ
  deadline : Option ℚ
  rateRetries : Nat
  emptyRetries : Nat
  lastWait : Option Wait
  sent : List Sent
  /-- The sleeps between attempts. -/
  pauses : List ℚ
  outcome : Option Outcome

def Call.sleep (c : Call) (pause : ℚ) : Call :=
  { c with now := c.now + pause, pauses := pause :: c.pauses }

/-- What a reply comes to: a stream of a custom endpoint is not read for its wait. -/
def resultOf (q : Query) : Reply → Result
  | .text t => .text t
  | .tooMany header message =>
    match retryAfterSeconds (!(q.kind = .glm && q.custom)) header message with
    | some retryAfter => .rateLimited retryAfter
    | none => .failed
  | .unauthorized => .unauthorized
  | .failed => .failed

/-- A request of the HTTP client, which gives up at its timeout. -/
def Call.request (q : Query) (timeout : ℚ) (answer : Answer) (c : Call) : Call × Result :=
  let sent : Sent := ⟨c.now, timeout⟩
  if timeout < answer.after then
    ({ c with now := c.now + timeout, sent := sent :: c.sent }, .failed)
  else ({ c with now := c.now + answer.after, sent := sent :: c.sent }, resultOf q answer.reply)

/-- `with_exponential_retry`, with so many attempts left. -/
def withExponentialRetry (request : Nat → Call → Call × Result) (baseDelay : ℚ)
    (giveUpOn : Result → Bool) : Nat → Nat → Call → Call × Result
  | 0, _, c => (c, .failed)
  | left + 1, attempt, c =>
    match request attempt c with
    | (c, .text t) => (c, .text t)
    | (c, error) =>
      if giveUpOn error || left = 0 then (c, error)
      else withExponentialRetry request baseDelay giveUpOn left (attempt + 1)
        (c.sleep (baseDelay * 2 ^ attempt))

def completeOnce (q : Query) (timeout : ℚ) (r : Round) (c : Call) : Call × Result :=
  let request attempt := Call.request q timeout (r.answers attempt)
  match q.kind with
  | .unconfigured => (c, .failed)
  | .mock => (c, .text q.mockText)
  | .glm =>
    withExponentialRetry request 1
      (fun error => error matches .unauthorized | .rateLimited _) 2 0 c
  | .other => withExponentialRetry request (1 / 2) (fun _ => false) 1 0 c

/-! ### One turn -/

/-- The wait the provider has asked for, as the other calls have left it. -/
def Call.noted (c : Call) (r : Round) : Call :=
  { c with limitedUntil := max c.limitedUntil r.others }

def Call.remaining (c : Call) : ℚ := c.limitedUntil - c.now

/-- The call does not wait for the provider. -/
def refuses (S : Settings) (q : Query) (c : Call) : Prop :=
  0 < c.remaining ∧ (q.background = false ∨ S.inlineWait < c.remaining)

instance (S : Settings) (q : Query) (c : Call) : Decidable (refuses S q c) :=
  inferInstanceAs (Decidable (_ ∧ _))

def Call.waited (c : Call) (r : Round) : Call :=
  if 0 < c.remaining then
    { c with
      now := c.now + (c.remaining + r.topJitter)
      pauses := if c.deadline.isSome then (c.remaining + r.topJitter) :: c.pauses else c.pauses }
  else c

def Call.admitted (q : Query) (c : Call) (r : Round) : Call :=
  let now := if q.background then (c.waited r).now + r.gate else (c.waited r).now
  { c.waited r with
    now := now
    limitedUntil := max c.limitedUntil r.meanwhile
    deadline := some (c.deadline.getD (now + q.timeout)) }

def Call.budget (q : Query) (c : Call) : ℚ := c.deadline.getD (c.now + q.timeout) - c.now

/-- The end of a call that has no time left. -/
def Call.exhausted (c : Call) : Call :=
  { c with
    outcome := some (if c.lastWait = some .rate
      then .rateLimited (some (truncate c.remaining + 1)) else .emptyReply) }

def Call.noteRateLimit (c : Call) (wait : ℚ) : Call :=
  { c with limitedUntil := max c.limitedUntil (c.now + wait) }

def waitOf (retryAfter : Option ℤ) : ℚ :=
  if retryAfter.getD 0 = 0 then 5 else (retryAfter.getD 0 : ℤ)

/-- What the loop makes of an attempt. -/
def settle (S : Settings) (q : Query) (r : Round) : Call × Result → Call
  | (c, .rateLimited retryAfter) =>
    let wait := waitOf retryAfter
    let c := c.noteRateLimit wait
    if q.background = false ∨ S.inlineWait < wait ∨ S.maxInlineRetries ≤ c.rateRetries then
      { c with outcome := some (.rateLimited retryAfter) }
    else { c.sleep (wait + r.jitter) with
      rateRetries := c.rateRetries + 1, lastWait := some .rate }
  | (c, .text t) =>
    if Text.strip t ≠ [] then { c with outcome := some (.reply t) }
    else if S.emptyReplyRetries ≤ c.emptyRetries then { c with outcome := some .emptyReply }
    else { c.sleep (c.emptyRetries + 1) with
      emptyRetries := c.emptyRetries + 1, lastWait := some .empty }
  | (c, .unauthorized) => { c with outcome := some .unauthorized }
  | (c, .failed) => { c with outcome := some .failed }

/-- One turn of the loop of `complete`. -/
def turn (S : Settings) (q : Query) (c : Call) (r : Round) : Option Call :=
  if c.outcome.isSome then none
  else
    let c := c.noted r
    if refuses S q c then
      some { c with outcome := some (.rateLimited (some (truncate c.remaining + 1))) }
    else
      let c := c.admitted q r
      if c.budget q ≤ 0 then some c.exhausted
      else some (settle S q r (completeOnce q (min q.timeout (c.budget q)) r c))

def Fresh (c : Call) : Prop :=
  c.deadline = none ∧ c.rateRetries = 0 ∧ c.emptyRetries = 0 ∧ c.lastWait = none ∧ c.sent = [] ∧
    c.pauses = [] ∧ c.outcome = none

def Turns (S : Settings) (q : Query) (c : Call) (r : Round) (c' : Call) : Prop :=
  turn S q c r = some c'

/-- What a call promises: its deadline, the timeout after its first attempt, is passed by one pause
at most; a request's timeout is within what is left; a wait it reports is a second or more. -/
structure Kept (c : Call) : Prop where
  time : ∀ deadline, c.deadline = some deadline → ∃ pause ∈ 0 :: c.pauses, c.now ≤ deadline + pause
  timeouts : ∀ sent ∈ c.sent, ∃ deadline, c.deadline = some deadline ∧ 0 < sent.timeout ∧
    sent.sentAt + sent.timeout ≤ deadline
  waits : ∀ retryAfter, c.outcome = some (.rateLimited (some retryAfter)) → 1 ≤ retryAfter

/-- The stream's first request is over in time, and not with an error that is tried again. -/
def Holds (q : Query) (timeout : ℚ) (answer : Answer) : Prop :=
  answer.after ≤ timeout ∧ resultOf q answer.reply ≠ .failed

/-- The turn after which the budget is kept: one without time left comes within a pause of the
deadline and a second of the provider's wait; and a stream's first request holds. -/
def Fine (S : Settings) (q : Query) (c : Call) (r : Round) : Prop :=
  ¬ refuses S q (c.noted r) →
    (((c.noted r).admitted q r).budget q ≤ 0 →
      (∃ pause ∈ 0 :: ((c.noted r).admitted q r).pauses,
        0 ≤ ((c.noted r).admitted q r).budget q + pause) ∧
      (c.lastWait = some .rate → -1 < ((c.noted r).admitted q r).remaining)) ∧
    (0 < ((c.noted r).admitted q r).budget q → q.kind = .glm →
      Holds q (min q.timeout (((c.noted r).admitted q r).budget q)) (r.answers 0))

theorem truncate_nonneg_iff (x : ℚ) : 0 ≤ truncate x ↔ -1 < x := by
  unfold truncate
  split
  · rename_i h
    exact iff_of_true (Int.floor_nonneg.mpr h) (by linarith)
  · rw [← Int.sub_one_lt_iff, Int.lt_ceil]
    norm_num

theorem one_le_retryAfter {includeMessage : Bool} {header message : Option FloatText} {n : ℤ}
    (h : retryAfterSeconds includeMessage header message = some (some n)) : 1 ≤ n := by
  unfold retryAfterSeconds at h
  split at h
  · cases h
    exact le_max_left _ _
  · cases h
  · split at h
    · split at h
      · cases h
      · cases h
        exact le_max_left _ _
      · cases h
    · cases h

theorem one_le_of_resultOf {q : Query} {reply : Reply} {n : ℤ}
    (h : resultOf q reply = .rateLimited (some n)) : 1 ≤ n := by
  cases reply with
  | tooMany header message =>
    simp only [resultOf] at h
    split at h
    · rename_i heq
      cases h
      exact one_le_retryAfter heq
    · cases h
  | text t => cases h
  | unauthorized => cases h
  | failed => cases h

theorem waitOf_nonneg {retryAfter : Option ℤ} (h : ∀ n, retryAfter = some n → 1 ≤ n) :
    0 ≤ waitOf retryAfter := by
  unfold waitOf
  split
  · norm_num
  · cases retryAfter with
    | none => simp
    | some n =>
      have hn := h n rfl
      exact_mod_cast (by omega : (0 : ℤ) ≤ n)

/-! ### Requests -/

section Requests

variable {q : Query} {timeout : ℚ} {answer : Answer} {c : Call}

/-- A request takes up to its timeout, and adds itself to what was sent. -/
structure After (c : Call) (timeout : ℚ) (c' : Call) : Prop where
  le : c.now ≤ c'.now
  within : c'.now ≤ c.now + timeout
  deadline : c'.deadline = c.deadline
  pauses : c'.pauses = c.pauses
  outcome : c'.outcome = c.outcome
  lastWait : c'.lastWait = c.lastWait
  rateRetries : c'.rateRetries = c.rateRetries
  emptyRetries : c'.emptyRetries = c.emptyRetries

theorem After.refl (c : Call) (h : 0 ≤ timeout) : After c timeout c :=
  ⟨le_refl _, by linarith, rfl, rfl, rfl, rfl, rfl, rfl⟩

theorem after_request (h : 0 ≤ timeout) : After c timeout (c.request q timeout answer).1 := by
  unfold Call.request
  split
  · exact ⟨by dsimp only; linarith, le_refl _, rfl, rfl, rfl, rfl, rfl, rfl⟩
  · rename_i hle
    have hnonneg := answer.after_nonneg
    exact ⟨by dsimp only; linarith, by dsimp only; linarith, rfl, rfl, rfl, rfl, rfl, rfl⟩

theorem request_sent : (c.request q timeout answer).1.sent = ⟨c.now, timeout⟩ :: c.sent := by
  unfold Call.request
  split <;> rfl

theorem request_failed_iff : (c.request q timeout answer).2 = .failed ↔ ¬ Holds q timeout answer := by
  unfold Call.request Holds
  split
  · rename_i hlate
    simp [not_le.mpr hlate]
  · rename_i htime
    simp [not_lt.mp htime]

theorem one_le_of_request {n : ℤ}
    (h : (c.request q timeout answer).2 = .rateLimited (some n)) : 1 ≤ n := by
  unfold Call.request at h
  split at h
  · cases h
  · exact one_le_of_resultOf h

end Requests

/-! ### Attempts -/

section Attempts

variable {q : Query} {timeout : ℚ} {r : Round} {c : Call}

theorem withExponentialRetry_one (request : Nat → Call → Call × Result) (baseDelay : ℚ)
    (giveUpOn : Result → Bool) (attempt : Nat) (c : Call) :
    withExponentialRetry request baseDelay giveUpOn 1 attempt c = request attempt c := by
  rw [withExponentialRetry]
  split
  · rename_i heq
    exact heq.symm
  · rename_i heq
    rw [if_pos (by simp)]
    exact heq.symm

theorem completeOnce_other (h : q.kind = .other) :
    completeOnce q timeout r c = c.request q timeout (r.answers 0) := by
  simp only [completeOnce, h]
  exact withExponentialRetry_one _ _ _ _ _

theorem completeOnce_glm_holds (h : q.kind = .glm) (hholds : Holds q timeout (r.answers 0)) :
    completeOnce q timeout r c = c.request q timeout (r.answers 0) := by
  have hresult : (c.request q timeout (r.answers 0)).2 ≠ .failed :=
    fun hfailed => request_failed_iff.mp hfailed hholds
  simp only [completeOnce, h, withExponentialRetry]
  generalize c.request q timeout (r.answers 0) = first at hresult ⊢
  obtain ⟨c', result⟩ := first
  cases result with
  | text t => rfl
  | rateLimited retryAfter => rfl
  | unauthorized => rfl
  | failed => exact absurd rfl hresult

/-- After a failed first request the stream is asked for again, a second later, with the same
timeout. -/
theorem completeOnce_glm_again (h : q.kind = .glm) (hnot : ¬ Holds q timeout (r.answers 0)) :
    completeOnce q timeout r c =
      ((c.request q timeout (r.answers 0)).1.sleep 1).request q timeout (r.answers 1) := by
  have hfailed : (c.request q timeout (r.answers 0)).2 = .failed := request_failed_iff.mpr hnot
  have hone := withExponentialRetry_one (fun attempt => Call.request q timeout (r.answers attempt)) 1
    (fun error => error matches .unauthorized | .rateLimited _) 1
  rw [completeOnce, h]
  rw [withExponentialRetry]
  generalize c.request q timeout (r.answers 0) = first at hfailed ⊢
  obtain ⟨c', result⟩ := first
  cases hfailed
  have hdelay : (1 : ℚ) * 2 ^ 0 = 1 := by norm_num
  dsimp only
  rw [hone, hdelay]
  rfl

theorem after_completeOnce (htimeout : 0 ≤ timeout)
    (hfine : q.kind = .glm → Holds q timeout (r.answers 0)) :
    After c timeout (completeOnce q timeout r c).1 ∧
      ((completeOnce q timeout r c).1.sent = c.sent ∨
        (completeOnce q timeout r c).1.sent = ⟨c.now, timeout⟩ :: c.sent) := by
  cases hkind : q.kind with
  | unconfigured =>
    rw [completeOnce, hkind]
    exact ⟨.refl c htimeout, .inl rfl⟩
  | mock =>
    rw [completeOnce, hkind]
    exact ⟨.refl c htimeout, .inl rfl⟩
  | glm =>
    rw [completeOnce_glm_holds hkind (hfine hkind)]
    exact ⟨after_request htimeout, .inr request_sent⟩
  | other =>
    rw [completeOnce_other hkind]
    exact ⟨after_request htimeout, .inr request_sent⟩

/-- What any attempt keeps. -/
structure Tried (c c' : Call) : Prop where
  le : c.now ≤ c'.now
  deadline : c'.deadline = c.deadline
  sent : ∀ sent ∈ c.sent, sent ∈ c'.sent
  outcome : c'.outcome = c.outcome
  rateRetries : c'.rateRetries = c.rateRetries
  emptyRetries : c'.emptyRetries = c.emptyRetries

theorem Tried.refl (c : Call) : Tried c c :=
  ⟨le_refl _, rfl, fun _ h => h, rfl, rfl, rfl⟩

theorem Tried.trans {c c' c'' : Call} (h : Tried c c') (h' : Tried c' c'') : Tried c c'' :=
  ⟨h.le.trans h'.le, h'.deadline.trans h.deadline, fun sent hsent => h'.sent sent (h.sent sent hsent),
    h'.outcome.trans h.outcome, h'.rateRetries.trans h.rateRetries,
    h'.emptyRetries.trans h.emptyRetries⟩

theorem Tried.sleep {pause : ℚ} (h : 0 ≤ pause) (c : Call) : Tried c (c.sleep pause) :=
  ⟨le_add_of_nonneg_right h, rfl, fun _ hsent => hsent, rfl, rfl, rfl⟩

theorem tried_request (h : 0 ≤ timeout) (answer : Answer) :
    Tried c (c.request q timeout answer).1 := by
  have hafter : After c timeout (c.request q timeout answer).1 := after_request h
  refine ⟨hafter.le, hafter.deadline, fun sent hsent => ?_, hafter.outcome, hafter.rateRetries,
    hafter.emptyRetries⟩
  rw [request_sent]
  exact List.mem_cons_of_mem _ hsent

theorem tried_completeOnce (h : 0 ≤ timeout) : Tried c (completeOnce q timeout r c).1 := by
  cases hkind : q.kind with
  | unconfigured =>
    simp only [completeOnce, hkind]
    exact .refl c
  | mock =>
    simp only [completeOnce, hkind]
    exact .refl c
  | glm =>
    by_cases hholds : Holds q timeout (r.answers 0)
    · rw [completeOnce_glm_holds hkind hholds]
      exact tried_request h _
    · rw [completeOnce_glm_again hkind hholds]
      exact (tried_request h _).trans ((Tried.sleep zero_le_one _).trans (tried_request h _))
  | other =>
    rw [completeOnce_other hkind]
    exact tried_request h _

theorem one_le_of_completeOnce {n : ℤ}
    (h : (completeOnce q timeout r c).2 = .rateLimited (some n)) : 1 ≤ n := by
  cases hkind : q.kind with
  | unconfigured =>
    simp only [completeOnce, hkind] at h
    cases h
  | mock =>
    simp only [completeOnce, hkind] at h
    cases h
  | glm =>
    by_cases hholds : Holds q timeout (r.answers 0)
    · rw [completeOnce_glm_holds hkind hholds] at h
      exact one_le_of_request h
    · rw [completeOnce_glm_again hkind hholds] at h
      exact one_le_of_request h
  | other =>
    rw [completeOnce_other hkind] at h
    exact one_le_of_request h

end Attempts

/-! ### Turns -/

section Turn

variable {S : Settings} {q : Query} {c c' : Call} {r : Round}

/-- The deadline is set with the first attempt. -/
structure Begun (q : Query) (c : Call) : Prop where
  sent : c.deadline = none → c.sent = []
  deadline : ∀ deadline, c.deadline = some deadline → deadline ≤ c.now + q.timeout

theorem le_waited : c.now ≤ (c.waited r).now := by
  have hjitter := r.topJitter_nonneg
  unfold Call.waited
  split
  · dsimp only
    linarith
  · exact le_refl _

theorem le_admitted : c.now ≤ (c.admitted q r).now := by
  have hwaited : c.now ≤ (c.waited r).now := le_waited
  have hgate := r.gate_nonneg
  simp only [Call.admitted]
  split
  · linarith
  · exact hwaited

theorem admitted_deadline : (c.admitted q r).deadline =
    some ((c.admitted q r).now + (c.admitted q r).budget q) := by
  simp [Call.admitted, Call.budget]

theorem admitted_deadline_of_some {deadline : ℚ} (h : c.deadline = some deadline) :
    (c.admitted q r).deadline = some deadline := by
  simp [Call.admitted, h]

theorem admitted_budget_le (hb : Begun q c) : (c.admitted q r).budget q ≤ q.timeout := by
  have hle : c.now ≤ (c.admitted q r).now := le_admitted
  cases hdeadline : c.deadline with
  | none => simp [Call.admitted, Call.budget, hdeadline]
  | some deadline =>
    have hsame : (c.admitted q r).deadline = some deadline := admitted_deadline_of_some hdeadline
    rw [admitted_deadline] at hsame
    have := hb.deadline deadline hdeadline
    have := Option.some.inj hsame
    linarith

theorem admitted_sent : (c.admitted q r).sent = c.sent := by
  simp only [Call.admitted, Call.waited]
  split <;> rfl

theorem admitted_outcome : (c.admitted q r).outcome = c.outcome := by
  simp only [Call.admitted, Call.waited]
  split <;> rfl

theorem outcome_admitted (h : c.outcome = none) : ((c.noted r).admitted q r).outcome = none :=
  admitted_outcome.trans h

theorem admitted_lastWait : (c.admitted q r).lastWait = c.lastWait := by
  simp only [Call.admitted, Call.waited]
  split <;> rfl

theorem admitted_rateRetries : (c.admitted q r).rateRetries = c.rateRetries := by
  simp only [Call.admitted, Call.waited]
  split <;> rfl

theorem admitted_emptyRetries : (c.admitted q r).emptyRetries = c.emptyRetries := by
  simp only [Call.admitted, Call.waited]
  split <;> rfl

theorem min_budget (hb : Begun q c) :
    min q.timeout ((c.admitted q r).budget q) = (c.admitted q r).budget q :=
  min_eq_right (admitted_budget_le hb)

/-- How a turn goes. -/
inductive Turned (S : Settings) (q : Query) (c : Call) (r : Round) : Call → Prop
  | refused (h : refuses S q (c.noted r)) : Turned S q c r { c.noted r with
      outcome := some (.rateLimited (some (truncate (c.noted r).remaining + 1))) }
  | exhausted (hwaits : ¬ refuses S q (c.noted r))
      (hspent : ((c.noted r).admitted q r).budget q ≤ 0) :
      Turned S q c r ((c.noted r).admitted q r).exhausted
  | tried (hwaits : ¬ refuses S q (c.noted r))
      (hleft : 0 < ((c.noted r).admitted q r).budget q) :
      Turned S q c r (settle S q r (completeOnce q
        (min q.timeout (((c.noted r).admitted q r).budget q)) r ((c.noted r).admitted q r)))

theorem turned_of_turn (h : turn S q c r = some c') : c.outcome = none ∧ Turned S q c r c' := by
  unfold turn at h
  split at h
  · cases h
  · rename_i hnone
    refine ⟨Option.not_isSome_iff_eq_none.mp hnone, ?_⟩
    dsimp only at h
    split at h
    · rename_i hrefuses
      cases h
      exact .refused hrefuses
    · rename_i hwaits
      split at h
      · rename_i hspent
        cases h
        exact .exhausted hwaits hspent
      · rename_i hleft
        cases h
        exact .tried hwaits (not_le.mp hleft)

/-- What the loop makes of an attempt: a pause, or the end with its result. -/
structure Settles (c : Call) (result : Result) (c' : Call) : Prop where
  deadline : c'.deadline = c.deadline
  sent : c'.sent = c.sent
  time : ∃ pause ∈ 0 :: c'.pauses, 0 ≤ pause ∧ c'.now = c.now + pause
  outcome : ∀ retryAfter, c'.outcome = some (.rateLimited retryAfter) →
    result = .rateLimited retryAfter

theorem settles_settle {result : Result} (hnone : c.outcome = none)
    (hresult : ∀ n, result = .rateLimited (some n) → 1 ≤ n) :
    Settles c result (settle S q r (c, result)) := by
  have hsame (c' : Call) (hdeadline : c'.deadline = c.deadline) (hsent : c'.sent = c.sent)
      (hnow : c'.now = c.now) (houtcome : ∀ retryAfter,
        c'.outcome = some (.rateLimited retryAfter) → result = .rateLimited retryAfter) :
      Settles c result c' :=
    ⟨hdeadline, hsent, ⟨0, List.mem_cons_self, le_refl _, by rw [hnow, add_zero]⟩, houtcome⟩
  cases result with
  | rateLimited retryAfter =>
    have hwait : 0 ≤ waitOf retryAfter := waitOf_nonneg fun n hn => hresult n (by rw [hn])
    have hjitter := r.jitter_nonneg
    simp only [settle]
    split
    · exact hsame _ rfl rfl rfl fun _ h => by
        cases h
        rfl
    · refine ⟨rfl, rfl, ⟨_, List.mem_cons_of_mem _ List.mem_cons_self, by linarith, rfl⟩, ?_⟩
      intro n h
      simp only [Call.noteRateLimit, hnone] at h
      cases h
  | text t =>
    simp only [settle]
    split
    · exact hsame _ rfl rfl rfl nofun
    · split
      · exact hsame _ rfl rfl rfl nofun
      · refine ⟨rfl, rfl, ⟨_, List.mem_cons_of_mem _ List.mem_cons_self, by positivity, rfl⟩, ?_⟩
        intro n h
        simp only [Call.sleep, hnone] at h
        cases h
  | unauthorized => exact hsame _ rfl rfl rfl nofun
  | failed => exact hsame _ rfl rfl rfl nofun

/-- Every request is given a timeout within what is left. -/
def Clean (c : Call) : Prop :=
  ∀ sent ∈ c.sent, ∃ deadline, c.deadline = some deadline ∧ 0 < sent.timeout ∧
    sent.sentAt + sent.timeout ≤ deadline

theorem begun_noted (hb : Begun q c) : Begun q (c.noted r) := ⟨hb.sent, hb.deadline⟩

theorem settles_completeOnce {timeout : ℚ} (hnone : c.outcome = none) (htimeout : 0 ≤ timeout) :
    Settles (completeOnce q timeout r c).1 (completeOnce q timeout r c).2
      (settle S q r (completeOnce q timeout r c)) :=
  settles_settle ((tried_completeOnce htimeout).outcome.trans hnone) fun _ => one_le_of_completeOnce

theorem clean_admitted (hc : Clean c) : Clean ((c.noted r).admitted q r) := by
  intro sent hsent
  rw [admitted_sent] at hsent
  obtain ⟨deadline, hdeadline, htimeout⟩ := hc sent hsent
  exact ⟨deadline, admitted_deadline_of_some hdeadline, htimeout⟩

theorem tried_kept {budget : ℚ} (hnone : c.outcome = none)
    (hdeadline : c.deadline = some (c.now + budget)) (hleft : 0 < budget) (hc : Clean c)
    (hfirst : q.kind = .glm → Holds q budget (r.answers 0)) :
    Kept (settle S q r (completeOnce q budget r c)) := by
  obtain ⟨hafter, hsent⟩ := after_completeOnce (c := c) hleft.le hfirst
  have hsettles := settles_completeOnce (S := S) (q := q) (r := r) hnone hleft.le
  have hsame := hsettles.deadline.trans (hafter.deadline.trans hdeadline)
  refine ⟨fun deadline heq => ?_, fun sent hmem => ?_, fun retryAfter heq => ?_⟩
  · cases hsame.symm.trans heq
    obtain ⟨pause, hpause, -, hnow⟩ := hsettles.time
    have hwithin := hafter.within
    exact ⟨pause, hpause, by linarith⟩
  · refine ⟨_, hsame, ?_⟩
    have hold : sent ∈ c.sent → 0 < sent.timeout ∧ sent.sentAt + sent.timeout ≤ c.now + budget := by
      intro hmem
      obtain ⟨deadline, hd, htimeout⟩ := hc sent hmem
      cases hdeadline.symm.trans hd
      exact htimeout
    rw [hsettles.sent] at hmem
    rcases hsent with hsent | hsent
    · rw [hsent] at hmem
      exact hold hmem
    · rw [hsent] at hmem
      rcases List.mem_cons.mp hmem with rfl | hmem
      · exact ⟨hleft, le_refl _⟩
      · exact hold hmem
  · exact one_le_of_completeOnce (hsettles.outcome _ heq)

/-- **A fine turn keeps the budget.** -/
theorem turn_kept (hb : Begun q c) (hk : Kept c) (hf : Fine S q c r)
    (h : turn S q c r = some c') : Kept c' := by
  obtain ⟨hnone, hturned⟩ := turned_of_turn h
  cases hturned with
  | refused hrefuses =>
    refine ⟨hk.time, hk.timeouts, fun retryAfter heq => ?_⟩
    cases heq
    have hpos := (truncate_nonneg_iff _).mpr (lt_trans neg_one_lt_zero hrefuses.1)
    omega
  | exhausted hwaits hspent =>
    obtain ⟨⟨pause, hpause, hlate⟩, hrate⟩ := (hf hwaits).1 hspent
    refine ⟨fun deadline hdeadline => ⟨pause, hpause, ?_⟩, clean_admitted hk.timeouts,
      fun retryAfter heq => ?_⟩
    · have hsame := Option.some.inj (admitted_deadline.symm.trans hdeadline)
      simp only [Call.exhausted]
      linarith
    · simp only [Call.exhausted, admitted_lastWait] at heq
      split at heq
      · rename_i hlast
        cases heq
        have hpos := (truncate_nonneg_iff _).mpr (hrate hlast)
        omega
      · cases heq
  | tried hwaits hleft =>
    have hfirst := (hf hwaits).2 hleft
    rw [min_budget (begun_noted hb)] at hfirst ⊢
    exact tried_kept (admitted_outcome.trans hnone) admitted_deadline hleft
      (clean_admitted hk.timeouts) hfirst

theorem holds_of_clean {budget : ℚ} (hnone : c.outcome = none)
    (hdeadline : c.deadline = some (c.now + budget)) (hleft : 0 < budget) (hkind : q.kind = .glm)
    (hc : Clean (settle S q r (completeOnce q budget r c))) : Holds q budget (r.answers 0) := by
  by_contra hnot
  have hsettles := settles_completeOnce (S := S) (q := q) (r := r) hnone hleft.le
  have htried := tried_completeOnce (q := q) (r := r) (c := c) hleft.le
  have hdue := hsettles.deadline.trans (htried.deadline.trans hdeadline)
  have hfirst : Tried c (c.request q budget (r.answers 0)).1 := tried_request hleft.le _
  have hsecond : (⟨((c.request q budget (r.answers 0)).1.sleep 1).now, budget⟩ : Sent) ∈
      (settle S q r (completeOnce q budget r c)).sent := by
    rw [hsettles.sent, completeOnce_glm_again hkind hnot, request_sent]
    exact List.mem_cons_self
  obtain ⟨deadline, hd, -, hwithin⟩ := hc _ hsecond
  cases hdue.symm.trans hd
  have hle := hfirst.le
  simp only [Call.sleep] at hwithin
  linarith

theorem attempt_facts (S : Settings) (hnone : c.outcome = none)
    (hleft : 0 < ((c.noted r).admitted q r).budget q) :
    Tried ((c.noted r).admitted q r) (completeOnce q (((c.noted r).admitted q r).budget q) r
        ((c.noted r).admitted q r)).1 ∧
      Settles (completeOnce q (((c.noted r).admitted q r).budget q) r ((c.noted r).admitted q r)).1
        (completeOnce q (((c.noted r).admitted q r).budget q) r ((c.noted r).admitted q r)).2
        (settle S q r (completeOnce q (((c.noted r).admitted q r).budget q) r
          ((c.noted r).admitted q r))) :=
  ⟨tried_completeOnce hleft.le, settles_completeOnce (outcome_admitted hnone) hleft.le⟩

theorem attempt_holds (hnone : c.outcome = none)
    (hleft : 0 < ((c.noted r).admitted q r).budget q) (hkind : q.kind = .glm)
    (hc : Clean (settle S q r (completeOnce q (((c.noted r).admitted q r).budget q) r
      ((c.noted r).admitted q r)))) :
    Holds q (((c.noted r).admitted q r).budget q) (r.answers 0) :=
  holds_of_clean (outcome_admitted hnone) admitted_deadline hleft hkind hc

theorem begun_turn (hb : Begun q c) (h : turn S q c r = some c') : Begun q c' := by
  obtain ⟨hnone, hturned⟩ := turned_of_turn h
  have hbudget : ((c.noted r).admitted q r).budget q ≤ q.timeout :=
    admitted_budget_le (begun_noted hb)
  have hset {c'' : Call} (hle : ((c.noted r).admitted q r).now ≤ c''.now)
      (hdeadline : c''.deadline = ((c.noted r).admitted q r).deadline) : Begun q c'' := by
    rw [admitted_deadline] at hdeadline
    refine ⟨fun hnone => ?_, fun deadline hd => ?_⟩
    · rw [hnone] at hdeadline
      cases hdeadline
    · cases hdeadline.symm.trans hd
      linarith
  cases hturned with
  | refused hrefuses => exact ⟨hb.sent, hb.deadline⟩
  | exhausted hwaits hspent => exact hset (le_refl _) rfl
  | tried hwaits hleft =>
    rw [min_budget (begun_noted hb)]
    obtain ⟨htried, hsettles⟩ := attempt_facts S hnone hleft
    obtain ⟨pause, -, hpause, hnow⟩ := hsettles.time
    refine hset ?_ (hsettles.deadline.trans htried.deadline)
    have hle := htried.le
    linarith

theorem turn_clean (hb : Begun q c) (h : turn S q c r = some c') (hc : Clean c') : Clean c := by
  obtain ⟨hnone, hturned⟩ := turned_of_turn h
  have hback {c'' : Call} (hsent : ∀ sent ∈ c.sent, sent ∈ c''.sent)
      (hdeadline : c''.deadline = ((c.noted r).admitted q r).deadline) (hc : Clean c'') :
      Clean c := by
    intro sent hmem
    obtain ⟨deadline, hd, htimeout⟩ := hc sent (hsent sent hmem)
    cases hcd : c.deadline with
    | none =>
      rw [hb.sent hcd] at hmem
      cases hmem
    | some deadline' =>
      have hsame : ((c.noted r).admitted q r).deadline = some deadline' :=
        admitted_deadline_of_some hcd
      rw [hdeadline, hsame] at hd
      cases hd
      exact ⟨_, rfl, htimeout⟩
  cases hturned with
  | refused hrefuses => exact hc
  | exhausted hwaits hspent =>
    refine hback (fun sent hmem => ?_) rfl hc
    have hsame : ((c.noted r).admitted q r).sent = c.sent := admitted_sent
    rwa [hsame]
  | tried hwaits hleft =>
    rw [min_budget (begun_noted hb)] at hc
    obtain ⟨htried, hsettles⟩ := attempt_facts S hnone hleft
    refine hback (fun sent hmem => ?_) (hsettles.deadline.trans htried.deadline) hc
    rw [hsettles.sent]
    exact htried.sent sent (by rwa [admitted_sent])

theorem fine_of_again (hb : Begun q c) (h : turn S q c r = some c') (hagain : c'.outcome = none)
    (hc : Clean c') : Fine S q c r := by
  obtain ⟨hnone, hturned⟩ := turned_of_turn h
  cases hturned with
  | refused hrefuses => cases hagain
  | exhausted hwaits hspent => cases hagain
  | tried hwaits hleft =>
    rw [min_budget (begun_noted hb)] at hc
    intro _
    refine ⟨fun hspent => absurd hleft (not_lt.mpr hspent), fun _ hkind => ?_⟩
    rw [min_budget (begun_noted hb)]
    exact attempt_holds hnone hleft hkind hc

/-- **A turn that keeps the budget is fine.** -/
theorem fine_of_kept (hb : Begun q c) (h : turn S q c r = some c') (hk : Kept c') :
    Fine S q c r := by
  obtain ⟨hnone, hturned⟩ := turned_of_turn h
  cases hturned with
  | refused hrefuses => exact fun hwaits => absurd hrefuses hwaits
  | exhausted hwaits hspent =>
    intro _
    refine ⟨fun _ => ⟨?_, fun hlast => ?_⟩, fun hleft => absurd hleft (not_lt.mpr hspent)⟩
    · obtain ⟨pause, hpause, hlate⟩ := hk.time _ admitted_deadline
      simp only [Call.exhausted] at hlate
      exact ⟨pause, hpause, by linarith⟩
    · refine (truncate_nonneg_iff _).mp ?_
      have hwait := hk.waits (truncate ((c.noted r).admitted q r).remaining + 1)
        (by
          simp only [Call.exhausted, admitted_lastWait]
          exact congrArg some (if_pos hlast))
      omega
  | tried hwaits hleft =>
    have hc : Clean (settle S q r (completeOnce q
      (min q.timeout (((c.noted r).admitted q r).budget q)) r ((c.noted r).admitted q r))) :=
      hk.timeouts
    rw [min_budget (begun_noted hb)] at hc
    intro _
    refine ⟨fun hspent => absurd hleft (not_lt.mpr hspent), fun _ hkind => ?_⟩
    rw [min_budget (begun_noted hb)]
    exact attempt_holds hnone hleft hkind hc

end Turn

/-! ### Calls -/

section Calls

variable {S : Settings} {q : Query} {c : Call} {tr : List (Call × Round)}

theorem Fresh.kept (h : Fresh c) : Kept c := by
  obtain ⟨hdeadline, -, -, -, hsent, -, houtcome⟩ := h
  refine ⟨fun deadline hd => ?_, fun sent hmem => ?_, fun retryAfter heq => ?_⟩
  · rw [hdeadline] at hd
    cases hd
  · rw [hsent] at hmem
    cases hmem
  · rw [houtcome] at heq
    cases heq

theorem run_begun (r : Run Fresh (Turns S q) tr c) : Begun q c := by
  induction r with
  | start h =>
    refine ⟨fun _ => h.2.2.2.2.1, fun deadline hd => ?_⟩
    rw [h.1] at hd
    cases hd
  | next r h ih => exact begun_turn ih h

theorem fine_of_clean (r : Run Fresh (Turns S q) tr c) (hnone : c.outcome = none) (hc : Clean c) :
    Throughout (Fine S q) tr := by
  induction r with
  | start h =>
    intro p hp
    cases hp
  | next r h ih =>
    have hb := run_begun r
    have hbefore := (turned_of_turn h).1
    exact Throughout.cons (fine_of_again hb h hnone hc) (ih hbefore (turn_clean hb h hc))

/-- **A call keeps its budget exactly where each of its turns is fine.** -/
theorem kept_iff (r : Run Fresh (Turns S q) tr c) : Kept c ↔ Throughout (Fine S q) tr := by
  refine ⟨fun hk => ?_, fun hf => ?_⟩
  · cases r with
    | start h =>
      intro p hp
      cases hp
    | next r h =>
      have hb := run_begun r
      exact Throughout.cons (fine_of_kept hb h hk)
        (fine_of_clean r (turned_of_turn h).1 (turn_clean hb h hk.timeouts))
  · induction r with
    | start h => exact h.kept
    | next r h ih => exact turn_kept (run_begun r) (ih hf.tail) hf.head h

theorem settle_again {r : Round} {attempt : Call × Result}
    (hnone : (settle S q r attempt).outcome = none) :
    (settle S q r attempt).rateRetries = attempt.1.rateRetries + 1 ∧
        attempt.1.rateRetries < S.maxInlineRetries ∧
        (settle S q r attempt).emptyRetries = attempt.1.emptyRetries ∨
      (settle S q r attempt).emptyRetries = attempt.1.emptyRetries + 1 ∧
        attempt.1.emptyRetries < S.emptyReplyRetries ∧
        (settle S q r attempt).rateRetries = attempt.1.rateRetries := by
  obtain ⟨c, result⟩ := attempt
  cases result with
  | rateLimited retryAfter =>
    simp only [settle] at hnone ⊢
    split at hnone
    · cases hnone
    · rename_i hmore
      rw [if_neg hmore]
      exact .inl ⟨rfl, not_le.mp fun hle => hmore (.inr (.inr hle)), rfl⟩
  | text t =>
    simp only [settle] at hnone ⊢
    split at hnone
    · cases hnone
    · rename_i hblank
      split at hnone
      · cases hnone
      · rename_i hmore
        rw [if_neg hblank, if_neg hmore]
        exact .inr ⟨rfl, not_le.mp hmore, rfl⟩
  | unauthorized => cases hnone
  | failed => cases hnone

theorem length_of_open (r : Run Fresh (Turns S q) tr c) (hnone : c.outcome = none) :
    tr.length = c.rateRetries + c.emptyRetries ∧ c.rateRetries ≤ S.maxInlineRetries ∧
      c.emptyRetries ≤ S.emptyReplyRetries := by
  induction r with
  | start h =>
    obtain ⟨-, hrate, hempty, -⟩ := h
    rw [hrate, hempty]
    exact ⟨rfl, Nat.zero_le _, Nat.zero_le _⟩
  | @next tr s t round r h ih =>
    obtain ⟨hbefore, hturned⟩ := turned_of_turn h
    obtain ⟨hlength, hrate, hempty⟩ := ih hbefore
    rw [List.length_cons]
    cases hturned with
    | refused hrefuses => cases hnone
    | exhausted hwaits hspent => cases hnone
    | tried hwaits hleft =>
      rw [min_budget (begun_noted (run_begun r))] at hnone ⊢
      obtain ⟨htried, -⟩ := attempt_facts (r := round) S hbefore hleft
      have hrateRetries := htried.rateRetries.trans admitted_rateRetries
      have hemptyRetries := htried.emptyRetries.trans admitted_emptyRetries
      have hagain := settle_again hnone
      rw [hrateRetries, hemptyRetries] at hagain
      simp only [Call.noted] at hagain ⊢
      omega

/-- **A call is over** after a turn more than its retries allow. -/
theorem turns_bounded (r : Run Fresh (Turns S q) tr c) :
    tr.length ≤ S.maxInlineRetries + S.emptyReplyRetries + 1 := by
  cases r with
  | start h => exact Nat.zero_le _
  | next r h =>
    have hlength := length_of_open r (turned_of_turn h).1
    rw [List.length_cons]
    omega

end Calls

/-! ### A call that is told to wait -/

def defaults : Settings := ⟨30, 2, 2⟩

def interactive (kind : Kind) : Query := ⟨kind, false, false, 60, []⟩

def fresh : Call := ⟨0, 0, none, 0, 0, none, [], [], none⟩

def quiet (answers : Nat → Answer) : Round :=
  ⟨0, 0, 0, 0, answers, 0, le_refl _, le_refl _, le_refl _⟩

theorem run_fresh {q : Query} : Run Fresh (Turns defaults q) [] fresh :=
  .start ⟨rfl, rfl, rfl, rfl, rfl, rfl, rfl⟩

def background : Query := ⟨.other, false, true, 60, []⟩

def tooMany : Round := quiet fun _ => ⟨1, .tooMany (some (.finite 10)) none, by norm_num⟩

def prompt : Round := quiet fun _ => ⟨3, .text "Yes.".toList, by norm_num⟩

def paused : Call := ⟨11, 11, some 60, 1, 0, some .rate, [⟨0, 60⟩], [10], none⟩

def answered : Call :=
  ⟨14, 11, some 60, 1, 0, some .rate, [⟨11, 49⟩, ⟨0, 60⟩], [10], some (.reply "Yes.".toList)⟩

theorem turn_tooMany : turn defaults background fresh tooMany = some paused := by
  norm_num [turn, refuses, Call.noted, Call.remaining, fresh, tooMany, quiet, background,
    Call.admitted, Call.waited, Call.budget, settle, completeOnce, withExponentialRetry,
    Call.request, resultOf, retryAfterSeconds, truncate, waitOf, Call.noteRateLimit, Call.sleep,
    defaults, paused]

theorem turn_prompt : turn defaults background paused prompt = some answered := by
  have hsaid : Text.strip "Yes.".toList ≠ [] := by decide
  norm_num [turn, refuses, Call.noted, Call.remaining, paused, prompt, quiet, background,
    Call.admitted, Call.waited, Call.budget, settle, completeOnce, withExponentialRetry,
    Call.request, resultOf, answered, hsaid]

theorem run_answered :
    Run Fresh (Turns defaults background) [(paused, prompt), (fresh, tooMany)] answered :=
  .next (.next run_fresh turn_tooMany) turn_prompt

theorem turns_retried : [(paused, prompt), (fresh, tooMany)].length ≤ 2 + 2 + 1 :=
  turns_bounded run_answered

/-- The rounds of an answered call leave it time. -/
theorem fine_of_budget {c : Call} {r : Round}
    (h : 0 < ((c.noted r).admitted background r).budget background) : Fine defaults background c r :=
  fun _ => ⟨fun hspent => absurd h (not_lt.mpr hspent), fun _ hkind => by cases hkind⟩

theorem kept_retried : Kept answered := by
  have hfirst : Fine defaults background fresh tooMany := fine_of_budget (by
    norm_num [Call.budget, Call.admitted, Call.waited, Call.remaining, Call.noted, fresh, tooMany,
      quiet, background])
  have hsecond : Fine defaults background paused prompt := fine_of_budget (by
    norm_num [Call.budget, Call.admitted, Call.waited, Call.remaining, Call.noted, paused, prompt,
      quiet, background])
  exact (kept_iff run_answered).mpr
    (.cons hsecond (.cons hfirst fun p hp => by cases hp))

/-- A first request that is not answered in time, and a second that is at the last moment. -/
def slow : Round := quiet fun attempt =>
  if attempt = 0 then ⟨61, .failed, by norm_num⟩ else ⟨60, .text "Late.".toList, by norm_num⟩

def overrun : Call :=
  ⟨121, 0, some 60, 0, 0, none, [⟨61, 60⟩, ⟨0, 60⟩], [1], some (.reply "Late.".toList)⟩

theorem turn_slow : turn defaults (interactive .glm) fresh slow = some overrun := by
  have hsaid : Text.strip "Late.".toList ≠ [] := by decide
  norm_num [turn, refuses, Call.noted, Call.remaining, fresh, slow, quiet, interactive,
    Call.admitted, Call.waited, Call.budget, settle, completeOnce, withExponentialRetry,
    Call.request, resultOf, Call.sleep, overrun, hsaid]

/-- **A stream that fails at its timeout is given the timeout again**: a minute's budget takes two
minutes and a second. -/
theorem stream_retry_overruns :
    Run Fresh (Turns defaults (interactive .glm)) [(fresh, slow)] overrun ∧ ¬ Kept overrun := by
  refine ⟨.next run_fresh turn_slow, fun hk => ?_⟩
  obtain ⟨pause, hpause, hlate⟩ := hk.time 60 rfl
  simp only [overrun, List.mem_cons, List.not_mem_nil, or_false] at hpause hlate
  rcases hpause with rfl | rfl
  · norm_num at hlate
  · norm_num at hlate

end QnscKb.Llm
