import QnscKb.Llm.Budget

/-!
# Llm — Refusals

How a call reports that the provider refused it: the request paths of `_complete_once` and
`complete_multimodal`, and the wait that `complete` notes for the calls after it
(`src/domain/llm_client.py`, `src/core/retry.py`).  A response is one whose body has arrived.
-/

namespace QnscKb.Llm.Refusals

open Runs

/-! ### Requests -/

structure Provider where
  glm : Bool
  nativeGemini : Bool
  customEndpoint : Bool

structure Config extends Settings where
  streamAnswers : Bool

structure Response where
  status : Nat
  /-- `Retry-After`, if there is one that is not empty. -/
  header : Option FloatText
  /-- The wait in the first 1000 characters of the body. -/
  message : Option FloatText
  /-- What is read from the body of a response that is no error. -/
  answer : Option Text

inductive Reply where
  | transport
  | response (r : Response)

inductive Raised where
  | auth
  | rateLimited (retryAfter : Option ℤ)
  | other
  deriving DecidableEq

abbrev Outcome := Except Raised Text

def Response.isRedirect (r : Response) : Prop := 300 ≤ r.status ∧ r.status ≤ 399

def Response.isError (r : Response) : Prop := 400 ≤ r.status ∧ r.status ≤ 599

def Response.isSuccess (r : Response) : Prop := 200 ≤ r.status ∧ r.status ≤ 299

instance (r : Response) : Decidable r.isRedirect := inferInstanceAs (Decidable (_ ∧ _))

instance (r : Response) : Decidable r.isError := inferInstanceAs (Decidable (_ ∧ _))

instance (r : Response) : Decidable r.isSuccess := inferInstanceAs (Decidable (_ ∧ _))

def Response.read (r : Response) : Outcome :=
  match r.answer with
  | some t => .ok t
  | none => .error .other

def Response.tooMany (r : Response) (includeMessage : Bool) : Raised :=
  match retryAfterSeconds includeMessage r.header r.message with
  | some retryAfter => .rateLimited retryAfter
  | none => .other

def geminiStream : Reply → Outcome
  | .transport => .error .other
  | .response r => if r.isSuccess then r.read else .error .other

/-- `request_stream`; a custom endpoint's body is not read for its wait. -/
def requestStream (p : Provider) : Reply → Outcome
  | .transport => .error .other
  | .response r =>
    if r.isRedirect then .error .other
    else if r.isError then
      if r.status = 401 ∨ r.status = 403 then .error .auth
      else if r.status = 429 then .error (r.tooMany (!p.customEndpoint))
      else .error .other
    else r.read

def requestCompletion : Reply → Outcome
  | .transport => .error .other
  | .response r =>
    if r.isRedirect then .error .other
    else if r.status = 429 then .error (r.tooMany true)
    else if r.status = 401 ∨ r.status = 403 then .error .auth
    else if r.isSuccess then r.read
    else .error .other

/-- The request of `complete_multimodal`. -/
def completeMultimodal : Reply → Outcome
  | .transport => .error .other
  | .response r =>
    if r.isRedirect then .error .other
    else if r.status = 400 ∨ r.status = 404 ∨ r.status = 415 ∨ r.status = 422 then .error .other
    else if r.status = 401 ∨ r.status = 403 then .error .auth
    else if r.status = 429 then .error (r.tooMany true)
    else if r.isSuccess then r.read
    else .error .other

/-! ### Attempts -/

/-- `with_exponential_retry`, with so many attempts left after this one: how many are made, and what
the last one comes to. -/
def withExponentialRetry (operation : Nat → Outcome) (giveUpOn : Raised → Bool) :
    Nat → Nat → Nat × Outcome
  | 0, attempt => (attempt + 1, operation attempt)
  | left + 1, attempt =>
    match operation attempt with
    | .ok t => (attempt + 1, .ok t)
    | .error e =>
      if giveUpOn e then (attempt + 1, .error e)
      else withExponentialRetry operation giveUpOn left (attempt + 1)

inductive Path where
  | geminiStream
  | stream
  | completion
  deriving DecidableEq

/-- One call of `complete`, at one turn of its loop. -/
structure Asking where
  provider : Provider
  onToken : Bool
  background : Bool
  rateRetries : Nat
  emptyRetries : Nat

def Asking.path (S : Config) (c : Asking) : Path :=
  if c.provider.nativeGemini && c.onToken then .geminiStream
  else if c.provider.glm || (c.onToken && S.streamAnswers) then .stream
  else .completion

/-- The body of a 429 is read for its wait. -/
def Asking.readsMessage (S : Config) (c : Asking) : Bool :=
  !(c.path S = .stream && c.provider.customEndpoint)

/-- `_complete_once`, past the choice of a provider. -/
def Asking.completeOnce (S : Config) (c : Asking) (replies : Nat → Reply) : Nat × Outcome :=
  match c.path S with
  | .geminiStream => (1, geminiStream (replies 0))
  | .stream =>
    withExponentialRetry (fun attempt => requestStream c.provider (replies attempt))
      (fun e => e matches .auth | .rateLimited _) 1 0
  | .completion =>
    withExponentialRetry (fun attempt => requestCompletion (replies attempt)) (fun _ => false) 0 0

/-! ### The process -/

structure Process where
  /-- `time.monotonic()`. -/
  now : ℚ
  limitedUntil : ℚ

def Process.remaining (s : Process) : ℚ := s.limitedUntil - s.now

def Process.noteRateLimit (s : Process) (retryAfter : Option ℤ) : Process :=
  { s with limitedUntil := max s.limitedUntil (s.now + waitOf retryAfter) }

/-- What a call meets at the top of its loop. -/
inductive Entry where
  | refused (retryAfter : ℤ)
  /-- It goes on to its request, at that time at the earliest. -/
  | goesOn (notBefore : ℚ)

/-- The top of the loop, with the `random.uniform(0, 1)` of its sleep. -/
def Process.enter (S : Config) (background : Bool) (jitter : ℚ) (s : Process) : Entry :=
  if 0 < s.remaining then
    if background = false ∨ S.inlineWait < s.remaining then .refused (truncate s.remaining + 1)
    else .goesOn (s.now + (s.remaining + jitter))
  else .goesOn s.now

/-- What the rest of a turn comes to. -/
inductive Turned where
  | raises (e : Raised)
  | emptyReply
  | returns (t : Text)
  /-- The loop goes on, after a pause. -/
  | again (pause : ℚ)

/-- The rest of a turn, once the attempt is over. -/
def Asking.settle (S : Config) (c : Asking) (jitter : ℚ) (s : Process) : Outcome → Process × Turned
  | .error (.rateLimited retryAfter) =>
    (s.noteRateLimit retryAfter,
      if c.background = false ∨ S.inlineWait < waitOf retryAfter ∨
          S.maxInlineRetries ≤ c.rateRetries then .raises (.rateLimited retryAfter)
      else .again (waitOf retryAfter + jitter))
  | .error e => (s, .raises e)
  | .ok t =>
    (s,
      if Text.strip t ≠ [] then .returns t
      else if S.emptyReplyRetries ≤ c.emptyRetries then .emptyReply
      else .again (c.emptyRetries + 1))

inductive Event where
  | passes (time : ℚ)
  | enters (background : Bool) (jitter : ℚ)
  | answered (c : Asking) (jitter : ℚ) (replies : Nat → Reply)

/-- What the calls of a process do, in any order.  A vision request neither notes a wait nor heeds
one. -/
inductive Step (S : Config) : Process → Event → Process → Prop where
  | passes {s : Process} {time : ℚ} (h : 0 ≤ time) :
      Step S s (.passes time) { s with now := s.now + time }
  | enters {s : Process} {background : Bool} {jitter : ℚ} : Step S s (.enters background jitter) s
  | answered {s : Process} {c : Asking} {jitter : ℚ} {replies : Nat → Reply} :
      Step S s (.answered c jitter replies) (c.settle S jitter s (c.completeOnce S replies).2).1

/-- The waits that are read from the response are numbers. -/
def Legible (readsMessage : Bool) (r : Response) : Prop :=
  r.header ≠ some .infinite ∧
    (readsMessage = true → (∀ x, r.header ≠ some (.finite x)) →
      r.message = none ∨ ∃ x, r.message = some (.finite x))

/-- A refusal is reported by its own error. -/
def Classified (r : Response) (outcome : Outcome) : Prop :=
  (r.status = 401 ∨ r.status = 403 → outcome = .error .auth) ∧
    (r.status = 429 → ∃ retryAfter, outcome = .error (.rateLimited retryAfter) ∧
      ∀ n, retryAfter = some n → 1 ≤ n)

/-- A call that enters before that time is refused with a wait, or is a background call that sleeps
until then. -/
def Heeds (S : Config) (wait : ℚ) (s : Process) : Prop :=
  ∀ background jitter, 0 ≤ jitter →
    (∃ n, s.enter S background jitter = .refused n ∧ 1 ≤ n) ∨
      background = true ∧ ∃ notBefore, s.enter S background jitter = .goesOn notBefore ∧
        wait ≤ notBefore

/-- What a turn makes of a refusal: an interactive call raises it, a background call may wait a 429
out, and later calls heed the wait. -/
structure Reported (S : Config) (c : Asking) (jitter : ℚ) (s : Process) (r : Response)
    (outcome : Outcome) : Prop where
  auth : r.status = 401 ∨ r.status = 403 → (c.settle S jitter s outcome).2 = .raises .auth
  rateLimited : r.status = 429 → ∃ retryAfter,
    (∀ n, retryAfter = some n → 1 ≤ n) ∧
    ((c.settle S jitter s outcome).2 = .raises (.rateLimited retryAfter) ∨
      c.background = true ∧ ∃ pause, (c.settle S jitter s outcome).2 = .again pause ∧
        waitOf retryAfter ≤ pause) ∧
    ∀ tr later, Run (· = (c.settle S jitter s outcome).1) (Step S) tr later →
      later.now < s.now + waitOf retryAfter → Heeds S (s.now + waitOf retryAfter) later

/-! ### One request -/

section Requests

variable {r : Response} {readsMessage : Bool}

theorem retryAfter_of_message {header message : Option FloatText}
    (hfinite : ∀ x, header ≠ some (.finite x)) (hinfinite : header ≠ some .infinite)
    (hmessage : readsMessage = true → message = none ∨ ∃ x, message = some (.finite x)) :
    ∃ retryAfter, retryAfterSeconds readsMessage header message = some retryAfter := by
  unfold retryAfterSeconds
  split
  · exact absurd rfl (hfinite _)
  · exact absurd rfl hinfinite
  · split
    · rename_i hreads
      rcases hmessage hreads with rfl | ⟨x, rfl⟩
      · exact ⟨none, rfl⟩
      · exact ⟨some (max 1 (truncate x)), rfl⟩
    · exact ⟨none, rfl⟩

theorem Legible.tooMany (h : Legible readsMessage r) :
    ∃ retryAfter, r.tooMany readsMessage = .rateLimited retryAfter ∧
      ∀ n, retryAfter = some n → 1 ≤ n := by
  have hread : ∃ retryAfter,
      retryAfterSeconds readsMessage r.header r.message = some retryAfter := by
    by_cases hfinite : ∃ x, r.header = some (.finite x)
    · obtain ⟨x, hx⟩ := hfinite
      exact ⟨some (max 1 (truncate x)), by rw [hx]; rfl⟩
    · rw [not_exists] at hfinite
      exact retryAfter_of_message hfinite h.1 fun hreads => h.2 hreads hfinite
  obtain ⟨retryAfter, hretry⟩ := hread
  refine ⟨retryAfter, by rw [Response.tooMany, hretry], ?_⟩
  rintro n rfl
  exact one_le_retryAfter hretry

theorem classified_of_eq {outcome : Outcome}
    (hauth : r.status = 401 ∨ r.status = 403 → outcome = .error .auth)
    (hmany : r.status = 429 → outcome = .error (r.tooMany readsMessage))
    (h : Legible readsMessage r) : Classified r outcome := by
  refine ⟨hauth, fun hstatus => ?_⟩
  obtain ⟨retryAfter, hraised, hle⟩ := h.tooMany
  exact ⟨retryAfter, by rw [hmany hstatus, hraised], hle⟩

theorem Response.not_isRedirect {n : Nat} (h : r.status = n) (hn : 400 ≤ n) : ¬ r.isRedirect := by
  rintro ⟨_, hle⟩
  omega

theorem requestStream_classified {p : Provider} (h : Legible (!p.customEndpoint) r) :
    Classified r (requestStream p (.response r)) := by
  refine classified_of_eq (fun hstatus => ?_) (fun hstatus => ?_) h
  · have herror : ¬ r.isRedirect ∧ r.isError := by
      rcases hstatus with hstatus | hstatus
      · exact ⟨r.not_isRedirect hstatus (by omega), by simp [Response.isError, hstatus]⟩
      · exact ⟨r.not_isRedirect hstatus (by omega), by simp [Response.isError, hstatus]⟩
    simp only [requestStream, if_neg herror.1, if_pos herror.2, if_pos hstatus]
  · have herror : r.isError := by simp [Response.isError, hstatus]
    simp [requestStream, r.not_isRedirect hstatus (by omega), herror, hstatus]

theorem requestCompletion_classified (h : Legible true r) :
    Classified r (requestCompletion (.response r)) := by
  refine classified_of_eq (fun hstatus => ?_) (fun hstatus => ?_) h
  · rcases hstatus with hstatus | hstatus
    · simp [requestCompletion, r.not_isRedirect hstatus (by omega), hstatus]
    · simp [requestCompletion, r.not_isRedirect hstatus (by omega), hstatus]
  · simp [requestCompletion, r.not_isRedirect hstatus (by omega), hstatus]

theorem completeMultimodal_classified (h : Legible true r) :
    Classified r (completeMultimodal (.response r)) := by
  refine classified_of_eq (fun hstatus => ?_) (fun hstatus => ?_) h
  · rcases hstatus with hstatus | hstatus
    · simp [completeMultimodal, r.not_isRedirect hstatus (by omega), hstatus]
    · simp [completeMultimodal, r.not_isRedirect hstatus (by omega), hstatus]
  · simp [completeMultimodal, r.not_isRedirect hstatus (by omega), hstatus]

end Requests

/-! ### All attempts -/

section Attempts

variable {operation : Nat → Outcome} {giveUpOn : Raised → Bool}

theorem withExponentialRetry_zero (attempt : Nat) :
    withExponentialRetry operation giveUpOn 0 attempt = (attempt + 1, operation attempt) := by
  rw [withExponentialRetry]

theorem withExponentialRetry_error {n : Nat} {e : Raised} (hop : operation n = .error e)
    (hgive : giveUpOn e = true) (left attempt : Nat) (hle : attempt ≤ n)
    (hlt : n < (withExponentialRetry operation giveUpOn left attempt).1) :
    (withExponentialRetry operation giveUpOn left attempt).2 = .error e := by
  induction left generalizing attempt with
  | zero =>
    obtain rfl : attempt = n := Nat.le_antisymm hle (Nat.lt_succ_iff.mp hlt)
    exact hop
  | succ left ih =>
    rcases Nat.eq_or_lt_of_le hle with rfl | hnext
    · simp only [withExponentialRetry, hop, hgive, if_true]
    · have hmore : ¬ n < attempt + 1 := not_lt.mpr hnext
      cases hcase : operation attempt with
      | ok t =>
        simp only [withExponentialRetry, hcase] at hlt
        exact absurd hlt hmore
      | error e' =>
        simp only [withExponentialRetry, hcase] at hlt ⊢
        by_cases hstop : giveUpOn e' = true
        · rw [if_pos hstop] at hlt
          exact absurd hlt hmore
        · rw [if_neg hstop] at hlt ⊢
          exact ih _ hnext hlt

/-- **The last refusal is raised.** -/
theorem refusal_raised {S : Config} {c : Asking} (hpath : c.path S ≠ .geminiStream)
    {replies : Nat → Reply} {n : Nat} (hn : n < (c.completeOnce S replies).1) {r : Response}
    (hr : replies n = .response r) (h : Legible (c.readsMessage S) r) :
    Classified r (c.completeOnce S replies).2 := by
  cases hcase : c.path S with
  | geminiStream => exact absurd hcase hpath
  | stream =>
    have hreads : c.readsMessage S = !c.provider.customEndpoint := by
      simp [Asking.readsMessage, hcase]
    rw [hreads] at h
    have hclass := requestStream_classified h
    rw [← hr] at hclass
    simp only [Asking.completeOnce, hcase] at hn ⊢
    refine ⟨fun hstatus => ?_, fun hstatus => ?_⟩
    · exact withExponentialRetry_error (hclass.1 hstatus) rfl 1 0 (Nat.zero_le _) hn
    · obtain ⟨retryAfter, hraised, hle⟩ := hclass.2 hstatus
      exact ⟨retryAfter, withExponentialRetry_error hraised rfl 1 0 (Nat.zero_le _) hn, hle⟩
  | completion =>
    have hreads : c.readsMessage S = true := by simp [Asking.readsMessage, hcase]
    rw [hreads] at h
    simp only [Asking.completeOnce, hcase, withExponentialRetry_zero] at hn ⊢
    have hzero : n = 0 := by omega
    subst hzero
    rw [hr]
    exact requestCompletion_classified h

end Attempts

/-! ### The calls that follow -/

section Later

variable {S : Config} {s : Process} {wait : ℚ}

theorem noteRateLimit_le (s : Process) (retryAfter : Option ℤ) :
    s.limitedUntil ≤ (s.noteRateLimit retryAfter).limitedUntil :=
  le_max_left _ _

theorem settle_limitedUntil_le (c : Asking) (jitter : ℚ) (outcome : Outcome) :
    s.limitedUntil ≤ (c.settle S jitter s outcome).1.limitedUntil := by
  match outcome with
  | .error (.rateLimited retryAfter) => exact noteRateLimit_le s retryAfter
  | .error .auth => exact le_refl _
  | .error .other => exact le_refl _
  | .ok _ => exact le_refl _

theorem Step.limitedUntil_le {e : Event} {t : Process} (h : Step S s e t) :
    s.limitedUntil ≤ t.limitedUntil := by
  cases h with
  | passes _ => exact le_refl _
  | enters => exact le_refl _
  | answered => exact settle_limitedUntil_le _ _ _

theorem run_limitedUntil_le {tr : List (Process × Event)} {t : Process}
    (r : Run (· = s) (Step S) tr t) : s.limitedUntil ≤ t.limitedUntil := by
  refine r.invariant (I := fun t => s.limitedUntil ≤ t.limitedUntil) (C := fun _ _ => True)
    (fun t ht => ?_) (fun t e u ht _ hstep => ?_) (fun _ _ => trivial)
  · rw [ht]
  · exact le_trans ht hstep.limitedUntil_le

theorem heeds_of_lt (hnow : s.now < wait) (hnoted : wait ≤ s.limitedUntil) : Heeds S wait s := by
  intro background jitter hjitter
  have hpos : 0 < s.remaining := by
    unfold Process.remaining
    linarith
  by_cases hrefuse : background = false ∨ S.inlineWait < s.remaining
  · left
    refine ⟨truncate s.remaining + 1, ?_, ?_⟩
    · rw [Process.enter, if_pos hpos, if_pos hrefuse]
    · have hnonneg : 0 ≤ truncate s.remaining := (truncate_nonneg_iff _).mpr (by linarith)
      omega
  · right
    refine ⟨?_, s.now + (s.remaining + jitter), ?_, ?_⟩
    · cases background with
      | false => exact absurd (Or.inl rfl) hrefuse
      | true => rfl
    · rw [Process.enter, if_pos hpos, if_neg hrefuse]
    · unfold Process.remaining
      linarith

theorem reported_of_classified {c : Asking} {jitter : ℚ} (hjitter : 0 ≤ jitter) {r : Response}
    {outcome : Outcome} (h : Classified r outcome) : Reported S c jitter s r outcome where
  auth := by
    intro hstatus
    rw [h.1 hstatus]
    rfl
  rateLimited := by
    intro hstatus
    obtain ⟨retryAfter, rfl, hle⟩ := h.2 hstatus
    refine ⟨retryAfter, hle, ?_, fun tr later run hlater => ?_⟩
    · by_cases hraises : c.background = false ∨ S.inlineWait < waitOf retryAfter ∨
          S.maxInlineRetries ≤ c.rateRetries
      · left
        simp only [Asking.settle, if_pos hraises]
      · right
        refine ⟨?_, waitOf retryAfter + jitter, ?_, by linarith⟩
        · cases hbackground : c.background with
          | false => exact absurd (Or.inl hbackground) hraises
          | true => rfl
        · simp only [Asking.settle, if_neg hraises]
    · refine heeds_of_lt hlater ?_
      calc s.now + waitOf retryAfter ≤ (s.noteRateLimit retryAfter).limitedUntil := le_max_right _ _
        _ ≤ later.limitedUntil := run_limitedUntil_le run

end Later

/-! ### The promise -/

/-- **Refusals are classified** on every path but the Gemini stream, wherever the waits they name
are numbers, and a 429 is heeded by the calls that follow. -/
theorem refusals_classified (S : Config) :
    (∀ r, Legible true r → Classified r (completeMultimodal (.response r))) ∧
    ∀ (c : Asking) (replies : Nat → Reply), c.path S ≠ .geminiStream →
      ∀ n < (c.completeOnce S replies).1, ∀ r, replies n = .response r →
        Legible (c.readsMessage S) r →
        Classified r (c.completeOnce S replies).2 ∧
        ∀ jitter s, 0 ≤ jitter → Reported S c jitter s r (c.completeOnce S replies).2 := by
  refine ⟨fun r h => completeMultimodal_classified h, ?_⟩
  intro c replies hpath n hn r hr h
  have hclass := refusal_raised hpath hn hr h
  exact ⟨hclass, fun jitter s hjitter => reported_of_classified hjitter hclass⟩

def crowded : Response := ⟨429, some (.finite 5), none, none⟩

def defaults : Config := ⟨⟨30, 2, 2⟩, true⟩

def asked : Asking := ⟨⟨false, false, false⟩, true, false, 0, 0⟩

theorem crowded_legible (readsMessage : Bool) : Legible readsMessage crowded := by
  refine ⟨?_, fun _ hheader => absurd rfl (hheader 5)⟩
  intro h
  cases h

theorem crowded_reported :
    Classified crowded (completeMultimodal (.response crowded)) ∧
    Reported defaults asked 0 ⟨0, 0⟩ crowded
      (asked.completeOnce defaults fun _ => .response crowded).2 := by
  have h := refusals_classified defaults
  refine ⟨h.1 crowded (crowded_legible _), ?_⟩
  have hpath : asked.path defaults ≠ .geminiStream := by decide
  have hfirst : 0 < (asked.completeOnce defaults fun _ => .response crowded).1 := by
    exact Nat.zero_lt_one
  exact (h.2 asked _ hpath 0 hfirst crowded rfl (crowded_legible _)).2 0 _ (le_refl _)

/-- A background call waits five seconds out, and is not refused. -/
theorem background_not_refused :
    ¬ ∀ (S : Config) (c : Asking) (replies : Nat → Reply) (s : Process) (retryAfter : Option ℤ),
      c.background = false →
      (c.completeOnce S replies).2 = .error (.rateLimited retryAfter) →
      ∀ tr later, Run (· = (c.settle S 0 s (c.completeOnce S replies).2).1) (Step S) tr later →
        later.now < s.now + waitOf retryAfter →
        ∀ background, ∃ n, later.enter S background 0 = .refused n := by
  intro h
  have htruncate : truncate 5 = 5 := by
    exact Int.floor_ofNat 5
  have hwait : waitOf (some 5) = 5 := by norm_num [waitOf]
  have hraised : (asked.completeOnce defaults fun _ => .response crowded).2 =
      .error (.rateLimited (some 5)) := by
    change Except.error (Raised.rateLimited (some (max 1 (truncate 5)))) = _
    rfl
  have hnoted : (asked.settle defaults 0 ⟨0, 0⟩
      (asked.completeOnce defaults fun _ => .response crowded).2).1 = ⟨0, 5⟩ := by
    rw [hraised]
    simp [Asking.settle, Process.noteRateLimit, hwait]
  obtain ⟨n, hn⟩ := h defaults asked (fun _ => .response crowded) ⟨0, 0⟩ (some 5) rfl hraised []
    ⟨0, 5⟩ (Run.start hnoted.symm) (by norm_num [hwait]) true
  norm_num [Process.enter, Process.remaining, defaults] at hn
  cases hn

end QnscKb.Llm.Refusals
