import QnscKb.Connectors.Requests

/-!
# Connectors — Classified

What `_request` promises its callers: a value or a `ConnectorProviderError` of the right kind, after
four attempts at most, and the token to no other host.
-/

namespace QnscKb.Connectors

open Ask (Json Python)

variable (L : Library) (A : Adapter)

/-! ### The promise -/

/-- 429 and the server's own errors. -/
def Busy (status : Nat) : Prop := status = 429 ∨ 500 ≤ status ∧ status < 600

/-- A provider's error of this kind, or the HTTP library's own. -/
def Ends (outcome : Except Raised Result) (retryable : Bool) : Prop :=
  match outcome with
  | .error (.provider error) => error.retryable = retryable
  | .error .transport => True
  | _ => False

/-- What the call came to, after its last answer. -/
structure Classified (last : Option Answer) (outcome : Except Raised Result) : Prop where
  known : ∀ error, outcome ≠ .error (.python error)
  refused : ∀ r, last = some (.response r) → r.status = 401 ∨ r.status = 403 → Ends outcome false
  redirected : ∀ r, last = some (.response r) → r.redirects = true → Ends outcome false
  busy : ∀ r, last = some (.response r) → Busy r.status → Ends outcome true

/-- A header by the name `Authorization`, in any letter case. -/
def CarriesToken (headers : Headers) : Prop :=
  ∃ header ∈ headers, header.1.map Char.toLower = "authorization".toList

def OnAllowedHost (url : Text) : Prop :=
  ∃ parsed host, L.urlsplit url = some parsed ∧ parsed.scheme = "https".toList ∧
    parsed.hostname = some host ∧ L.python.lower host ∈ A.allowedApiHosts

structure Sound (url : Text) (log : Log) : Prop where
  attempts : log.attempts ≤ 4
  classified : Classified (log.sent.getLast?.map Sent.answer) log.outcome
  untrusted : (∀ parsed, L.urlsplit url = some parsed → trusted L A parsed = false) →
    Ends log.outcome false
  token : ∀ sent ∈ log.sent, CarriesToken sent.headers → OnAllowedHost L A sent.url

/-! ### The answers it holds for -/

/-- `int` reads the declared length. -/
def LengthReads (r : Response) : Prop :=
  ∀ length ∈ declared L r, (Ask.intOfText L.python length).isSome = true

/-- The body is within the limit, as declared and as sent. -/
def Small (r : Response) : Prop :=
  (∀ length ∈ declared L r, ∀ n ∈ Ask.intOfText L.python length, n ≤ (r.maxBytes L A : Int)) ∧
    r.chunks.flatten.length ≤ r.maxBytes L A

/-- `float` reads a `Retry-After` that `isdigit` lets through. -/
def RetryReads (r : Response) : Prop :=
  ∀ seconds, r.header "retry-after" = some seconds → isdigit L seconds = true →
    (floatOf L seconds).isSome = true

/-- The JSON of an error nests no deeper than Python reads, and an `error` in it is an object. -/
def ErrorReads (r : Response) : Prop :=
  r.isJson L = true → L.loads r.chunks.flatten ≠ .error .recursion ∧
    ∀ fields, L.loads r.chunks.flatten = .ok (.object fields) →
      (Ask.Fields.get fields "error").truthy = true →
        ∃ inner, Ask.Fields.get fields "error" = .object inner

/-- JSON that is not read fails as a `JSONDecodeError`. -/
def BodyReads (r : Response) : Prop :=
  r.isJson L = true → L.loads r.chunks.flatten ≠ .error .value ∧
    L.loads r.chunks.flatten ≠ .error .recursion

/-- What is read of a response is of the shape the code takes it for. -/
def Plain (r : Response) : Prop :=
  if r.status ∈ retriedStatuses then RetryReads L r
  else if r.status = 401 ∨ r.status = 403 then True
  else if 400 ≤ r.status then ErrorReads L r
  else BodyReads L r

def Clear (r : Response) : Prop :=
  r.redirects = true ∨ LengthReads L r ∧ (Busy r.status → Small L A r) ∧
    (Small L A r → r.complete = true → Plain L r)

/-- A redirect that is followed names a URL. -/
def RedirectReads (method url : Text) (r : Response) : Prop :=
  L.python.upper method = "GET".toList → given (r.header "location") = true →
    ∃ target, L.urljoin url ((r.header "location").getD []) = some target ∧
      (L.urlsplit target).isSome = true

/-- The response that an attempt settles on: the first, or the one a redirect leads to. -/
def settled (method url : Text) (x : Exchange) : Option Response :=
  match x.first with
  | .failed => none
  | .response r =>
    if r.redirects then
      match follow L method url r, x.second with
      | .ok _, .response r => some r
      | _, _ => none
    else some r

structure Fine (method url : Text) (x : Exchange) : Prop where
  redirect : ∀ r, x.first = .response r → r.redirects = true → RedirectReads L method url r
  clear : ∀ r, settled L method url x = some r → Clear L A r

def Retries (method url : Text) (x : Exchange) : Prop :=
  ∃ r, settled L method url x = some r ∧ r.redirects = false ∧ Small L A r ∧ r.complete = true ∧
    r.status ∈ retriedStatuses

/-- The URL reads, and every exchange that is reached is fine. -/
def AllFine (method url : Text) (accessToken : Option Text) (tape : Nat → Exchange) : Prop :=
  (L.urlsplit url).isSome = true ∧
    ((∃ parsed, L.urlsplit url = some parsed ∧ trusted L A parsed = true) →
      given accessToken = true → ∀ k < 4, (∀ j < k, Retries L A method url (tape j)) →
        Fine L A method url (tape k))

variable {L A}

/-! ### Reading a response -/

theorem readChunks_eq {limit : Nat} {complete : Bool} {body : Bytes} (chunks : List Bytes)
    (h : body.length ≤ limit) : readChunks limit complete body chunks =
      if (body ++ chunks.flatten).length ≤ limit then
        if complete then .ok (body ++ chunks.flatten) else .error .transport
      else .error tooLarge := by
  induction chunks generalizing body with
  | nil => simp [readChunks, h]
  | cons chunk chunks ih =>
    rw [readChunks, List.flatten_cons, ← List.append_assoc]
    split
    · rename_i hlong
      rw [if_neg]
      simp only [List.length_append] at hlong ⊢
      omega
    · rename_i hshort
      exact ih (Nat.not_lt.mp hshort)

/-- How the reading of a response ends. -/
inductive Read (L : Library) (A : Adapter) (r : Response) : Except Raised Bytes → Prop
  | unread (length : ¬ LengthReads L r) : Read L A r (.error (.python .valueError))
  | tooLarge (length : LengthReads L r) (small : ¬ Small L A r) : Read L A r (.error tooLarge)
  | broken (length : LengthReads L r) (small : Small L A r) (complete : r.complete = false) :
      Read L A r (.error .transport)
  | whole (length : LengthReads L r) (small : Small L A r) (complete : r.complete = true) :
      Read L A r (.ok r.chunks.flatten)

variable {r : Response}

theorem read_chunks (hlength : LengthReads L r)
    (hdeclared : ∀ length ∈ declared L r, ∀ n ∈ Ask.intOfText L.python length,
        n ≤ (r.maxBytes L A : Int)) :
    Read L A r (readChunks (r.maxBytes L A) r.complete [] r.chunks) := by
  rw [readChunks_eq r.chunks (Nat.zero_le _)]
  split
  · rename_i hsmall
    cases hcomplete : r.complete with
    | false => exact .broken hlength ⟨hdeclared, hsmall⟩ hcomplete
    | true => exact .whole hlength ⟨hdeclared, hsmall⟩ hcomplete
  · rename_i hlong
    exact .tooLarge hlength fun hsmall => hlong hsmall.2

theorem read_readResponse (h : r.redirects = false) : Read L A r (readResponse L A r) := by
  rw [readResponse, h, if_neg Bool.false_ne_true]
  cases hdeclared : declared L r with
  | none =>
    refine read_chunks (fun length hlength => ?_) fun length hlength => ?_
    · rw [hdeclared] at hlength
      cases hlength
    · rw [hdeclared] at hlength
      cases hlength
  | some length =>
    dsimp only
    cases hint : Ask.intOfText L.python length with
    | none =>
      refine .unread fun hreads => ?_
      have := hreads length hdeclared
      rw [hint] at this
      cases this
    | some n =>
      have hreads : LengthReads L r := by
        intro length' hlength'
        rw [hdeclared] at hlength'
        cases hlength'
        rw [hint]
        rfl
      dsimp only
      split
      · rename_i hlong
        refine .tooLarge hreads fun hsmall => ?_
        have := hsmall.1 length hdeclared n hint
        omega
      · rename_i hshort
        refine read_chunks hreads fun length' hlength' m hm => ?_
        rw [hdeclared] at hlength'
        cases hlength'
        rw [hint] at hm
        cases hm
        omega

/-! ### What a response comes to -/

theorem errorDetail_reads (hjson : r.isJson L = true) :
    (∃ detail, errorDetail L r.chunks.flatten = .ok detail) ↔ ErrorReads L r := by
  unfold errorDetail ErrorReads
  cases hload : L.loads r.chunks.flatten with
  | error error =>
    cases error with
    | jsonDecode => simp
    | value => simp
    | recursion => simp [hjson]
  | ok payload =>
    cases payload with
    | object fields =>
      cases herror : Ask.Fields.get fields "error" with
      | object inner => cases inner <;> simp [Json.or, Json.truthy, herror]
      | null => simp [Json.or, Json.truthy, herror]
      | bool b => cases b <;> simp [Json.or, Json.truthy, herror, hjson]
      | int n =>
        by_cases hn : n = 0
        · simp [Json.or, Json.truthy, herror, hn]
        · simp [Json.or, Json.truthy, herror, hn, hjson]
      | float x =>
        cases hx : Json.truthy (.float x) <;> simp [Json.or, herror, hx, hjson]
      | text t =>
        cases hx : Json.truthy (.text t) <;> simp [Json.or, herror, hx, hjson]
      | list items =>
        cases hx : Json.truthy (.list items) <;> simp [Json.or, herror, hx, hjson]
    | null => simp [Json.or, Json.truthy]
    | bool b => simp [Json.or, Json.truthy]
    | int n => simp [Json.or, Json.truthy]
    | float x => simp [Json.or, Json.truthy]
    | text t => simp [Json.or, Json.truthy]
    | list items => simp [Json.or, Json.truthy]

/-- Every way the attempt can be over is what the call promises after this answer. -/
def Meets (last : Answer) (verdict : Verdict) : Prop :=
  ∀ outcome, verdict = .done outcome → Classified (some last) outcome

theorem meets_done {last : Answer} {outcome : Except Raised Result} :
    Meets last (.done outcome) ↔ Classified (some last) outcome :=
  ⟨fun h => h outcome rfl, fun h _ heq => Verdict.done.inj heq ▸ h⟩

theorem meets_retry (last : Answer) (delay : ℚ) : Meets last (.retry delay) := nofun

theorem not_classified_python (last : Option Answer) (error : PythonError) :
    ¬ Classified last (.error (.python error)) := fun h => h.known error rfl

theorem not_meets_python (last : Answer) (error : PythonError) :
    ¬ Meets last (.done (.error (.python error))) :=
  fun h => not_classified_python _ _ (meets_done.mp h)

theorem busy_of_retried {status : Nat} (h : status ∈ retriedStatuses) : Busy status := by
  simp only [retriedStatuses, List.mem_cons, List.not_mem_nil, or_false] at h
  unfold Busy
  omega

theorem classified_provider {error : ProviderError} (hredirect : r.redirects = false)
    (hrefused : r.status = 401 ∨ r.status = 403 → error.retryable = false)
    (hbusy : Busy r.status → error.retryable = true) :
    Classified (some (.response r)) (.error (.provider error)) where
  known := nofun
  refused r' hr' h := by
    cases hr'
    exact hrefused h
  redirected r' hr' h := by
    cases hr'
    rw [hredirect] at h
    cases h
  busy r' hr' h := by
    cases hr'
    exact hbusy h

theorem classified_ok {result : Result} (hredirect : r.redirects = false) (h : r.status < 400) :
    Classified (some (.response r)) (.ok result) where
  known := nofun
  refused r' hr' hstatus := by
    cases hr'
    omega
  redirected r' hr' hstatus := by
    cases hr'
    rw [hredirect] at hstatus
    cases hstatus
  busy r' hr' hstatus := by
    cases hr'
    unfold Busy at hstatus
    omega

theorem retryDelay_reads (attempt jitter : Nat) (r : Response) :
    (retryDelay L attempt jitter r).isSome = true ↔ RetryReads L r := by
  unfold retryDelay RetryReads
  cases hheader : r.header "retry-after" with
  | none => simp
  | some seconds =>
    dsimp only
    split
    · rename_i hdigits
      simp [hdigits]
    · rename_i hdigits
      simp [hdigits]

variable {attempt jitter : Nat}

theorem meets_conclude (h : r.redirects = false) :
    Meets (.response r) (conclude L attempt jitter r r.chunks.flatten) ↔ Plain L r := by
  unfold conclude Plain
  split
  · rename_i hretried
    have hbusy := busy_of_retried hretried
    rw [← retryDelay_reads attempt jitter]
    cases retryDelay L attempt jitter r with
    | none => simp [not_meets_python]
    | some delay =>
      dsimp only
      split
      · simp only [Option.isSome_some, iff_true, meets_done]
        refine classified_provider h (fun hrefused => ?_) fun _ => rfl
        unfold Busy at hbusy
        omega
      · simp [meets_retry]
  · split
    · rename_i hrefused
      simp only [iff_true, meets_done]
      refine classified_provider h (fun _ => rfl) fun hbusy => ?_
      unfold Busy at hbusy
      omega
    · rename_i hnot
      split
      · cases hjson : r.isJson L with
        | false =>
          have hreads : ErrorReads L r := fun hr => by
            rw [hjson] at hr
            cases hr
          simp only [Bool.false_eq_true, if_false, hreads, iff_true, meets_done]
          exact classified_provider h (fun hrefused => absurd hrefused hnot) fun _ => rfl
        | true =>
          rw [if_pos rfl, ← errorDetail_reads hjson]
          cases errorDetail L r.chunks.flatten with
          | error error => simp [not_meets_python]
          | ok detail =>
            simp only [Except.ok.injEq, exists_eq', iff_true, meets_done]
            exact classified_provider h (fun hrefused => absurd hrefused hnot) fun _ => rfl
      · rename_i hsmall
        have hok (result : Result) : Classified (some (.response r)) (.ok result) :=
          classified_ok h (by omega)
        have hinvalid : Classified (some (.response r))
            (.error (permanent "Provider returned invalid JSON" "invalid_json")) :=
          classified_provider h (fun _ => rfl) fun hbusy => by
            unfold Busy at hbusy
            omega
        unfold BodyReads
        split
        · rename_i hjson
          cases L.loads r.chunks.flatten with
          | ok value => simp [meets_done, hok]
          | error error => cases error <;> simp [meets_done, hinvalid, not_classified_python, hjson]
        · rename_i hjson
          simp [meets_done, hok, hjson]

theorem conclude_retry (h : Plain L r) :
    (∃ delay, conclude L attempt jitter r r.chunks.flatten = .retry delay) ↔
      r.status ∈ retriedStatuses ∧ attempt ≠ 3 := by
  unfold conclude
  split
  · rename_i hretried
    rw [Plain, if_pos hretried, ← retryDelay_reads attempt jitter] at h
    obtain ⟨delay, hdelay⟩ := Option.isSome_iff_exists.mp h
    rw [hdelay]
    dsimp only
    split
    · rename_i hlast
      simp [hlast]
    · rename_i hmore
      simp [hretried, hmore]
  · rename_i hnot
    refine ⟨fun ⟨delay, hdelay⟩ => ?_, fun hretried => absurd hretried.1 hnot⟩
    split at hdelay
    · cases hdelay
    · split at hdelay
      · split at hdelay
        · cases hdelay
        · cases hdelay
      · split at hdelay
        · split at hdelay
          · cases hdelay
          · cases hdelay
          · cases hdelay
          · cases hdelay
        · cases hdelay

/-- What a response that is no redirect comes to, once it is read. -/
def verdict (L : Library) (A : Adapter) (attempt jitter : Nat) (r : Response) : Verdict :=
  match readResponse L A r with
  | .error error => .done (.error error)
  | .ok body => conclude L attempt jitter r body

theorem meets_verdict (h : r.redirects = false) :
    Meets (.response r) (verdict L A attempt jitter r) ↔ Clear L A r := by
  have hclear : Clear L A r ↔ LengthReads L r ∧ (Busy r.status → Small L A r) ∧
      (Small L A r → r.complete = true → Plain L r) := by simp [Clear, h]
  rw [hclear, verdict]
  generalize hread : readResponse L A r = read
  have hcases := read_readResponse (A := A) (L := L) h
  rw [hread] at hcases
  cases hcases with
  | unread hlength => simp [not_meets_python, hlength]
  | tooLarge hlength hsmall =>
    simp only [hlength, hsmall, true_and, false_imp_iff, and_true, meets_done]
    refine ⟨fun hclass hbusy => ?_, fun hbusy => ?_⟩
    · have := hclass.busy r rfl hbusy
      cases this
    · exact classified_provider h (fun _ => rfl) fun hbusy' => absurd hbusy' hbusy
  | broken hlength hsmall hcomplete =>
    simp only [hlength, hsmall, hcomplete, true_and, imp_true_iff, meets_done, iff_true,
      Bool.false_eq_true, false_imp_iff]
    exact ⟨nofun, fun _ _ _ => trivial, fun _ _ _ => trivial, fun _ _ _ => trivial⟩
  | whole hlength hsmall hcomplete =>
    simp only [hlength, hsmall, hcomplete, true_and, imp_true_iff, true_imp_iff]
    exact meets_conclude h

theorem verdict_retry (h : r.redirects = false) (hclear : Clear L A r) :
    (∃ delay, verdict L A attempt jitter r = .retry delay) ↔
      (Small L A r ∧ r.complete = true ∧ r.status ∈ retriedStatuses) ∧ attempt ≠ 3 := by
  rw [verdict]
  generalize hread : readResponse L A r = read
  have hcases := read_readResponse (A := A) (L := L) h
  rw [hread] at hcases
  cases hcases with
  | unread hlength =>
    rcases hclear with hredirect | ⟨hreads, -, -⟩
    · rw [h] at hredirect
      cases hredirect
    · exact absurd hreads hlength
  | tooLarge hlength hsmall => simp [hsmall]
  | broken hlength hsmall hcomplete => simp [hcomplete]
  | whole hlength hsmall hcomplete =>
    have hplain : Plain L r := by
      rcases hclear with hredirect | ⟨-, -, hplain⟩
      · rw [h] at hredirect
        cases hredirect
      · exact hplain hsmall hcomplete
    simp only [hsmall, hcomplete, true_and]
    exact conclude_retry hplain

/-! ### One attempt -/

section Attempt

variable {method url : Text} {headers : Headers} {attempt : Nat} {x : Exchange} {r : Response}

theorem read_redirect (h : r.redirects = true) :
    (Answer.response r).read L A = .ok (r, []) := by
  rw [Answer.read, readResponse, if_pos h]
  rfl

theorem tryOnce_failed (hfirst : x.first = .failed) :
    tryOnce L A method url headers attempt x =
      ([⟨url, headers, .failed⟩], .done (.error .transport)) := by
  rw [tryOnce, hfirst]
  rfl

theorem tryOnce_direct (hfirst : x.first = .response r) (h : r.redirects = false) :
    tryOnce L A method url headers attempt x =
      ([⟨url, headers, .response r⟩], verdict L A attempt x.jitter r) := by
  rw [tryOnce, hfirst, Answer.read, verdict]
  cases readResponse L A r with
  | error error => rfl
  | ok body =>
    simp only [Except.map]
    rw [h, if_neg Bool.false_ne_true]

theorem tryOnce_unfollowed {error : Raised} (hfirst : x.first = .response r)
    (h : r.redirects = true) (hfollow : follow L method url r = .error error) :
    tryOnce L A method url headers attempt x =
      ([⟨url, headers, .response r⟩], .done (.error error)) := by
  simp only [tryOnce, hfirst, read_redirect h, if_pos h, hfollow]

theorem tryOnce_followed {target : Text} (hfirst : x.first = .response r) (h : r.redirects = true)
    (hfollow : follow L method url r = .ok target) :
    tryOnce L A method url headers attempt x =
      ([⟨url, headers, .response r⟩, ⟨target, withoutAuthorization L headers, x.second⟩],
        match x.second with
        | .failed => .done (.error .transport)
        | .response r =>
          if r.redirects then
            .done (.error (permanent "Provider returned too many redirects" "unsafe_redirect"))
          else verdict L A attempt x.jitter r) := by
  simp only [tryOnce, hfirst, read_redirect h, if_pos h, hfollow]
  cases hsecond : x.second with
  | failed => rfl
  | response r' =>
    cases hr' : r'.redirects with
    | true => simp only [read_redirect hr', hr', if_true]
    | false =>
      simp only [Answer.read, verdict]
      cases readResponse L A r' with
      | error error => simp [Except.map, hr']
      | ok body => simp [Except.map, hr']

def MeetsLast (turn : List Sent × Verdict) : Prop :=
  ∀ last, turn.1.getLast? = some last → Meets last.answer turn.2

theorem meetsLast_iff (sent : List Sent) {last : Sent} {verdict : Verdict} :
    MeetsLast (sent ++ [last], verdict) ↔ Meets last.answer verdict := by
  simp [MeetsLast]

theorem meets_failed : Meets .failed (.done (.error .transport)) :=
  meets_done.mpr ⟨nofun, nofun, nofun, nofun⟩

theorem meets_redirect (h : r.redirects = true) {message code : String} :
    Meets (.response r) (.done (.error (permanent message code))) := by
  refine meets_done.mpr ⟨nofun, fun _ _ _ => rfl, fun _ _ _ => rfl, fun r' hr' hbusy => ?_⟩
  cases hr'
  rw [Response.redirects, decide_eq_true_iff] at h
  unfold Busy at hbusy
  omega

/-- How a redirect is followed. -/
inductive Followed (L : Library) (method url : Text) (r : Response) : Except Raised Text → Prop
  | unread (h : ¬ RedirectReads L method url r) :
      Followed L method url r (.error (.python .valueError))
  | refused (h : RedirectReads L method url r) (message code : String) :
      Followed L method url r (.error (permanent message code))
  | target (h : RedirectReads L method url r) (target : Text) : Followed L method url r (.ok target)

theorem followed_follow (L : Library) (method url : Text) (r : Response) :
    Followed L method url r (follow L method url r) := by
  unfold follow
  split
  · rename_i hnot
    refine .refused (fun hget hgiven => ?_) _ _
    rcases hnot with hmethod | hlocation
    · exact absurd hget hmethod
    · rw [hgiven] at hlocation
      cases hlocation
  · rename_i hfollow
    obtain ⟨hget, hgiven⟩ := not_or.mp hfollow
    have hget := not_not.mp hget
    have hgiven := Bool.not_eq_false _ ▸ hgiven
    cases hjoin : L.urljoin url ((r.header "location").getD []) with
    | none =>
      refine .unread fun hreads => ?_
      obtain ⟨target, htarget, -⟩ := hreads hget hgiven
      rw [hjoin] at htarget
      cases htarget
    | some target =>
      dsimp only
      rw [validateRedirectUrl]
      cases hsplit : L.urlsplit target with
      | none =>
        refine .unread fun hreads => ?_
        obtain ⟨target', htarget, hsome⟩ := hreads hget hgiven
        rw [hjoin] at htarget
        cases htarget
        rw [hsplit] at hsome
        cases hsome
      | some parsed =>
        have hreads : RedirectReads L method url r :=
          fun _ _ => ⟨target, hjoin, by rw [hsplit]; rfl⟩
        dsimp only
        split
        · exact .target hreads target
        · exact .refused hreads _ _

theorem settled_direct (hfirst : x.first = .response r) (h : r.redirects = false) :
    settled L method url x = some r := by
  simp [settled, hfirst, h]

theorem settled_unfollowed {error : Raised} (hfirst : x.first = .response r)
    (h : r.redirects = true) (hfollow : follow L method url r = .error error) :
    settled L method url x = none := by
  simp [settled, hfirst, h, hfollow]

theorem settled_followed {target : Text} (hfirst : x.first = .response r) (h : r.redirects = true)
    (hfollow : follow L method url r = .ok target) : settled L method url x =
      match x.second with
      | .failed => none
      | .response r => some r := by
  cases hsecond : x.second <;> simp [settled, hfirst, h, hfollow, hsecond]

theorem fine_of_unsettled (hnone : settled L method url x = none)
    (hreads : ∀ r, x.first = .response r → r.redirects = true → RedirectReads L method url r) :
    Fine L A method url x := by
  refine ⟨hreads, fun r hr => ?_⟩
  rw [hnone] at hr
  cases hr

theorem fine_iff_of_settled (hsome : settled L method url x = some r)
    (hreads : ∀ r, x.first = .response r → r.redirects = true → RedirectReads L method url r) :
    Fine L A method url x ↔ Clear L A r := by
  refine ⟨fun h => h.clear r hsome, fun h => ⟨hreads, fun r' hr' => ?_⟩⟩
  rw [hsome] at hr'
  cases hr'
  exact h

/-- **One attempt keeps the promise exactly where its exchange is fine.** -/
theorem tryOnce_meets :
    MeetsLast (tryOnce L A method url headers attempt x) ↔ Fine L A method url x := by
  cases hfirst : x.first with
  | failed =>
    rw [tryOnce_failed hfirst]
    refine iff_of_true (fun last hlast => ?_) (fine_of_unsettled (by simp [settled, hfirst]) ?_)
    · cases hlast
      exact meets_failed
    · intro r hr
      rw [hfirst] at hr
      cases hr
  | response r =>
    cases hr : r.redirects with
    | false =>
      have hreads : ∀ r', x.first = .response r' → r'.redirects = true →
          RedirectReads L method url r' := by
        intro r' hr' hredirect
        rw [hfirst] at hr'
        cases hr'
        rw [hr] at hredirect
        cases hredirect
      rw [tryOnce_direct hfirst hr, fine_iff_of_settled (settled_direct hfirst hr) hreads,
        ← meets_verdict hr]
      exact meetsLast_iff []
    | true =>
      generalize hfollow : follow L method url r = followed
      have hcases := followed_follow L method url r
      rw [hfollow] at hcases
      have hreads (h : RedirectReads L method url r) (r' : Response)
          (hr' : x.first = .response r') (_ : r'.redirects = true) :
          RedirectReads L method url r' := by
        rw [hfirst] at hr'
        cases hr'
        exact h
      cases hcases with
      | unread hnot =>
        rw [tryOnce_unfollowed hfirst hr hfollow]
        refine iff_of_false (fun h => ?_) fun h => hnot (h.redirect r hfirst hr)
        exact not_meets_python _ _ (h _ rfl)
      | refused h message code =>
        rw [tryOnce_unfollowed hfirst hr hfollow]
        refine iff_of_true (fun last hlast => ?_)
          (fine_of_unsettled (settled_unfollowed hfirst hr hfollow) (hreads h))
        cases hlast
        exact meets_redirect hr
      | target h target =>
        have hsettled := settled_followed hfirst hr hfollow
        rw [tryOnce_followed hfirst hr hfollow]
        cases hsecond : x.second with
        | failed =>
          rw [hsecond] at hsettled
          refine iff_of_true (fun last hlast => ?_) (fine_of_unsettled hsettled (hreads h))
          cases hlast
          exact meets_failed
        | response r' =>
          rw [hsecond] at hsettled
          rw [fine_iff_of_settled hsettled (hreads h)]
          refine (meetsLast_iff [_]).trans ?_
          dsimp only
          split
          · rename_i hr'
            exact iff_of_true (meets_redirect hr') (.inl hr')
          · rename_i hr'
            exact meets_verdict (Bool.not_eq_true _ ▸ hr')

theorem tryOnce_retry (hfine : Fine L A method url x) :
    (∃ delay, (tryOnce L A method url headers attempt x).2 = .retry delay) ↔
      Retries L A method url x ∧ attempt ≠ 3 := by
  have hsettled {r : Response} (hsome : settled L method url x = some r)
      (hr : r.redirects = false) : Retries L A method url x ↔
        Small L A r ∧ r.complete = true ∧ r.status ∈ retriedStatuses := by
    refine ⟨fun ⟨r', hr', h⟩ => ?_, fun h => ⟨r, hsome, hr, h⟩⟩
    rw [hsome] at hr'
    cases hr'
    exact h.2
  have hunsettled (hnot : ∀ r, settled L method url x = some r → r.redirects = true)
      (outcome : Except Raised Result) :
      (∃ delay, Verdict.done outcome = .retry delay) ↔ Retries L A method url x ∧ attempt ≠ 3 := by
    refine iff_of_false (fun ⟨delay, hdelay⟩ => ?_) fun ⟨⟨r, hr, hredirect, _⟩, _⟩ => ?_
    · cases hdelay
    · rw [hnot r hr] at hredirect
      cases hredirect
  cases hfirst : x.first with
  | failed =>
    rw [tryOnce_failed hfirst]
    exact hunsettled (by simp [settled, hfirst]) _
  | response r =>
    cases hr : r.redirects with
    | false =>
      have hsome : settled L method url x = some r := settled_direct hfirst hr
      rw [tryOnce_direct hfirst hr, hsettled hsome hr]
      exact verdict_retry hr (hfine.clear r hsome)
    | true =>
      cases hfollow : follow L method url r with
      | error error =>
        rw [tryOnce_unfollowed hfirst hr hfollow]
        refine hunsettled (fun r' hr' => ?_) _
        rw [settled_unfollowed hfirst hr hfollow] at hr'
        cases hr'
      | ok target =>
        have hsome := settled_followed hfirst hr hfollow
        rw [tryOnce_followed hfirst hr hfollow]
        cases hsecond : x.second with
        | failed =>
          rw [hsecond] at hsome
          refine hunsettled (fun r' hr' => ?_) _
          rw [hsome] at hr'
          cases hr'
        | response r' =>
          rw [hsecond] at hsome
          dsimp only
          split
          · rename_i hr'
            refine hunsettled (fun r'' hr'' => ?_) _
            rw [hsome] at hr''
            cases hr''
            exact hr'
          · rename_i hr'
            have hr' := Bool.not_eq_true _ ▸ hr'
            rw [hsettled hsome hr']
            exact verdict_retry hr' (hfine.clear r' hsome)

theorem tryOnce_sent : (tryOnce L A method url headers attempt x).1 ≠ [] := by
  unfold tryOnce
  split
  · exact List.cons_ne_nil _ _
  · split
    · split
      · exact List.cons_ne_nil _ _
      · split
        · exact List.cons_ne_nil _ _
        · split <;> exact List.cons_ne_nil _ _
    · exact List.cons_ne_nil _ _

end Attempt

/-! ### The loop -/

section Loop

variable {method url : Text} {headers : Headers} {tape : Nat → Exchange}

theorem loop_attempts (left attempt : Nat) :
    (loop L A method url headers tape left attempt).attempts ≤ left := by
  induction left generalizing attempt with
  | zero => exact Nat.zero_le _
  | succ left ih =>
    rw [loop]
    split
    · exact Nat.succ_le_succ (Nat.zero_le _)
    · exact Nat.succ_le_succ (ih _)

theorem loop_sent (left attempt : Nat) :
    (loop L A method url headers tape (left + 1) attempt).sent ≠ [] := by
  have hsent : (tryOnce L A method url headers attempt (tape attempt)).1 ≠ [] := tryOnce_sent
  rw [loop]
  split
  · rename_i heq
    rwa [heq] at hsent
  · rename_i heq
    rw [heq] at hsent
    exact List.append_ne_nil_of_left_ne_nil hsent _

theorem fine_iff_of_done {left attempt : Nat} {outcome : Except Raised Result}
    (hleft : attempt + left = 3)
    (hdone : (tryOnce L A method url headers attempt (tape attempt)).2 = .done outcome) :
    Fine L A method url (tape attempt) ↔ ∀ k, attempt ≤ k → k < 4 →
      (∀ j, attempt ≤ j → j < k → Retries L A method url (tape j)) →
        Fine L A method url (tape k) := by
  refine ⟨fun hfine k hle hlt hretries => ?_, fun h => ?_⟩
  · rcases Nat.eq_or_lt_of_le hle with rfl | hlater
    · exact hfine
    · have hagain : ∃ delay, (tryOnce L A method url headers attempt (tape attempt)).2 =
          .retry delay :=
        (tryOnce_retry hfine).mpr ⟨hretries attempt (le_refl _) hlater, by omega⟩
      obtain ⟨delay, hdelay⟩ := hagain
      rw [hdone] at hdelay
      cases hdelay
  · exact h attempt (le_refl _) (by omega) fun j hj hlt => by omega

/-- **The loop keeps the promise exactly where every exchange it reaches is fine.** -/
theorem loop_classified {left attempt : Nat} (hleft : attempt + left = 4) :
    Classified ((loop L A method url headers tape left attempt).sent.getLast?.map Sent.answer)
      (loop L A method url headers tape left attempt).outcome ↔
      ∀ k, attempt ≤ k → k < 4 → (∀ j, attempt ≤ j → j < k → Retries L A method url (tape j)) →
        Fine L A method url (tape k) := by
  induction left generalizing attempt with
  | zero =>
    refine iff_of_true ⟨nofun, nofun, nofun, nofun⟩ fun k hle hlt _ => ?_
    omega
  | succ left ih =>
    have hmeets : MeetsLast (tryOnce L A method url headers attempt (tape attempt)) ↔
        Fine L A method url (tape attempt) := tryOnce_meets
    have hsent : (tryOnce L A method url headers attempt (tape attempt)).1 ≠ [] := tryOnce_sent
    rw [loop]
    split
    · rename_i sent outcome hturn
      have hdone : (tryOnce L A method url headers attempt (tape attempt)).2 = .done outcome := by
        rw [hturn]
      rw [← fine_iff_of_done (Nat.succ.inj hleft) hdone, ← hmeets, hturn]
      rw [hturn] at hsent
      obtain ⟨front, last, rfl⟩ := List.eq_nil_or_concat sent |>.resolve_left hsent
      rw [List.concat_eq_append, meetsLast_iff, meets_done]
      simp
    · rename_i sent delay hturn
      have hfine : Fine L A method url (tape attempt) := by
        rw [← hmeets, hturn]
        exact fun last _ => meets_retry _ _
      have hagain : (tryOnce L A method url headers attempt (tape attempt)).2 = .retry delay := by
        rw [hturn]
      obtain ⟨hretries, hmore⟩ := (tryOnce_retry hfine).mp ⟨delay, hagain⟩
      have hrest : (sent ++ (loop L A method url headers tape left (attempt + 1)).sent).getLast? =
          (loop L A method url headers tape left (attempt + 1)).sent.getLast? := by
        obtain ⟨left, rfl⟩ : ∃ n, left = n + 1 := Nat.exists_eq_succ_of_ne_zero (by omega)
        exact List.getLast?_append_of_ne_nil _ (loop_sent _ _)
      rw [hrest, ih (by omega)]
      refine ⟨fun h k hle hlt hreached => ?_, fun h k hle hlt hreached => ?_⟩
      · rcases Nat.eq_or_lt_of_le hle with rfl | hlater
        · exact hfine
        · exact h k hlater hlt fun j hj => hreached j (Nat.le_of_succ_le hj)
      · refine h k (Nat.le_of_succ_le hle) hlt fun j hj hjk => ?_
        rcases Nat.eq_or_lt_of_le hj with rfl | hlater
        · exact hretries
        · exact hreached j hlater hjk

theorem loop_token (left attempt : Nat) :
    ∀ sent ∈ (loop L A method url headers tape left attempt).sent,
      sent.url = url ∨ sent.headers = withoutAuthorization L headers := by
  have hturn (attempt : Nat) (x : Exchange) :
      ∀ sent ∈ (tryOnce L A method url headers attempt x).1,
        sent.url = url ∨ sent.headers = withoutAuthorization L headers := by
    intro sent hsent
    cases hfirst : x.first with
    | failed =>
      rw [tryOnce_failed hfirst] at hsent
      exact .inl (List.mem_singleton.mp hsent ▸ rfl)
    | response r =>
      cases hr : r.redirects with
      | false =>
        rw [tryOnce_direct hfirst hr] at hsent
        exact .inl (List.mem_singleton.mp hsent ▸ rfl)
      | true =>
        cases hfollow : follow L method url r with
        | error error =>
          rw [tryOnce_unfollowed hfirst hr hfollow] at hsent
          exact .inl (List.mem_singleton.mp hsent ▸ rfl)
        | ok target =>
          rw [tryOnce_followed hfirst hr hfollow] at hsent
          rcases List.mem_cons.mp hsent with rfl | hsent
          · exact .inl rfl
          · exact .inr (List.mem_singleton.mp hsent ▸ rfl)
  induction left generalizing attempt with
  | zero => exact List.forall_mem_nil _
  | succ left ih =>
    have hfirst := hturn attempt (tape attempt)
    rw [loop]
    split
    · rename_i heq
      rw [heq] at hfirst
      exact hfirst
    · rename_i heq
      rw [heq] at hfirst
      exact List.forall_mem_append.mpr ⟨hfirst, ih _⟩

end Loop

/-! ### The call -/

theorem lower_of_toLower (L : Library) {name target : Text} (htarget : ∀ c ∈ target, c.toNat < 128)
    (h : name.map Char.toLower = target) : L.python.lower name = target := by
  rw [L.lower_ascii name fun c hc => ?_, h]
  have hlower := htarget c.toLower (h ▸ List.mem_map_of_mem hc)
  by_cases hupper : 'A'.val ≤ c.val ∧ c.val ≤ 'Z'.val
  · have hhi : c.toNat ≤ 90 := hupper.2
    omega
  · have hsame : c.toLower = c := dif_neg hupper
    rwa [hsame] at hlower

theorem authorization_ascii : ∀ c ∈ "authorization".toList, c.toNat < 128 := by
  have hall : "authorization".toList.all (fun c => decide (c.toNat < 128)) = true := rfl
  exact fun c hc => of_decide_eq_true (List.all_eq_true.mp hall c hc)

theorem not_carriesToken (headers : Headers) :
    ¬ CarriesToken (withoutAuthorization L headers) := by
  rintro ⟨header, hmem, hname⟩
  have hkept := (List.mem_filter.mp hmem).2
  rw [lower_of_toLower L authorization_ascii hname] at hkept
  simp at hkept

theorem onAllowedHost_of_trusted {url : Text} {parsed : Url} (hsplit : L.urlsplit url = some parsed)
    (h : trusted L A parsed = true) : OnAllowedHost L A url := by
  simp only [trusted, Bool.and_eq_true, beq_iff_eq] at h
  cases hhost : parsed.hostname with
  | none =>
    rw [hhost] at h
    cases h.2
  | some host =>
    rw [hhost] at h
    exact ⟨parsed, host, hsplit, h.1.1.1.1, hhost, List.contains_iff_mem.mp h.2⟩

section Request

variable (method url : Text) (headers : Headers) (accessToken : Option Text)
  (tape : Nat → Exchange)

theorem request_unread (h : L.urlsplit url = none) :
    request L A method url headers accessToken tape =
      ⟨.error (.python .valueError), [], [], 0⟩ := by
  simp only [request, validateProviderUrl, h]

variable {parsed : Url}

theorem request_untrusted (h : L.urlsplit url = some parsed)
    (htrusted : trusted L A parsed = false) :
    request L A method url headers accessToken tape =
      ⟨.error (permanent "Provider returned an untrusted API URL" "untrusted_url"), [], [], 0⟩ := by
  simp [request, validateProviderUrl, h, htrusted]

theorem request_unauthorized (h : L.urlsplit url = some parsed)
    (htrusted : trusted L A parsed = true) (htoken : given accessToken = false) :
    request L A method url headers accessToken tape =
      ⟨.error (permanent "Connector is not authorized" "not_authorized"), [], [], 0⟩ := by
  simp [request, validateProviderUrl, h, htrusted, htoken]

theorem request_loop (h : L.urlsplit url = some parsed) (htrusted : trusted L A parsed = true)
    (htoken : given accessToken = true) :
    request L A method url headers accessToken tape =
      loop L A method url (authorized headers (accessToken.getD [])) tape 4 0 := by
  simp [request, validateProviderUrl, h, htrusted, htoken]

/-- **The token goes to an allowed host only.** -/
theorem token_kept : ∀ sent ∈ (request L A method url headers accessToken tape).sent,
    CarriesToken sent.headers → OnAllowedHost L A sent.url := by
  cases hsplit : L.urlsplit url with
  | none =>
    rw [request_unread method url headers accessToken tape hsplit]
    exact List.forall_mem_nil _
  | some parsed =>
    cases htrusted : trusted L A parsed with
    | false =>
      rw [request_untrusted method url headers accessToken tape hsplit htrusted]
      exact List.forall_mem_nil _
    | true =>
      cases htoken : given accessToken with
      | false =>
        rw [request_unauthorized method url headers accessToken tape hsplit htrusted htoken]
        exact List.forall_mem_nil _
      | true =>
        rw [request_loop method url headers accessToken tape hsplit htrusted htoken]
        intro sent hsent hcarries
        rcases loop_token 4 0 sent hsent with heq | heq
        · rw [heq]
          exact onAllowedHost_of_trusted hsplit htrusted
        · rw [heq] at hcarries
          exact absurd hcarries (not_carriesToken _)

theorem sound_unsent {error : ProviderError} (herror : error.retryable = false) :
    Sound L A url ⟨.error (.provider error), [], [], 0⟩ :=
  ⟨Nat.zero_le _, ⟨nofun, nofun, nofun, nofun⟩, fun _ => herror, List.forall_mem_nil _⟩

/-- **The call keeps its promise exactly where the URL reads and every answer it reaches is of the
shape the code takes it for.** -/
theorem sound_iff : Sound L A url (request L A method url headers accessToken tape) ↔
    AllFine L A method url accessToken tape := by
  cases hsplit : L.urlsplit url with
  | none =>
    rw [request_unread method url headers accessToken tape hsplit]
    refine iff_of_false (fun h => h.classified.known _ rfl) fun h => ?_
    have := h.1
    rw [hsplit] at this
    cases this
  | some parsed =>
    have hparsed {parsed' : Url} (h : L.urlsplit url = some parsed') : parsed' = parsed :=
      Option.some.inj (h.symm.trans hsplit)
    cases htrusted : trusted L A parsed with
    | false =>
      rw [request_untrusted method url headers accessToken tape hsplit htrusted]
      refine iff_of_true (sound_unsent url rfl) ⟨by rw [hsplit]; rfl, ?_⟩
      rintro ⟨parsed', hsplit', htrusted'⟩
      rw [hparsed hsplit', htrusted] at htrusted'
      cases htrusted'
    | true =>
      cases htoken : given accessToken with
      | false =>
        rw [request_unauthorized method url headers accessToken tape hsplit htrusted htoken]
        refine iff_of_true (sound_unsent url rfl) ⟨by rw [hsplit]; rfl, fun _ hgiven => ?_⟩
        rw [htoken] at hgiven
        cases hgiven
      | true =>
        have hkept := token_kept (A := A) (L := L) method url headers accessToken tape
        rw [request_loop method url headers accessToken tape hsplit htrusted htoken] at hkept ⊢
        refine ⟨fun hsound => ?_, fun hfine => ?_⟩
        · refine ⟨by rw [hsplit]; rfl, fun _ _ k hk hreached => ?_⟩
          exact (loop_classified (Nat.zero_add 4)).mp hsound.classified k (Nat.zero_le _) hk
            fun j _ => hreached j
        · refine ⟨loop_attempts 4 0, (loop_classified (Nat.zero_add 4)).mpr
            fun k _ hk hreached => ?_, fun hnone => ?_, hkept⟩
          · exact hfine.2 ⟨parsed, hsplit, htrusted⟩ htoken k hk
              fun j => hreached j (Nat.zero_le _)
          · rw [hnone parsed hsplit] at htrusted
            cases htrusted

end Request

/-! ### An error that is a text -/

def refusal : Bytes := "\x7b\"error\":\"invalid_grant\"\x7d".toList.map fun c => c.toNat.toUInt8

/-- The library on plain ASCII URLs and on this body. -/
def asciiLibrary : Library where
  python := Ask.asciiPython
  urlsplit url :=
    if "https://".toList <+: url then
      some ⟨"https".toList, some ((url.drop 8).takeWhile (· != '/')), none, none⟩
    else some ⟨[], none, none, none⟩
  urljoin _ location := some location
  isGlobal _ := none
  loads body :=
    if body = refusal then .ok (.object [("error", .text "invalid_grant".toList)])
    else .error .jsonDecode
  lower_ascii _ _ := rfl

def graph : Adapter where
  allowedApiHosts := ["graph.microsoft.com".toList]
  maxApiResponseBytes := 5 * 1024 * 1024
  maxSourceUploadBytes := 25 * 1024 * 1024

def refused : Exchange where
  first := .response ⟨400, [("content-type".toList, "application/json".toList)], [refusal], true⟩
  second := .failed
  jitter := 0

theorem refused_outcome : (request asciiLibrary graph "GET".toList
    "https://graph.microsoft.com/v1.0/me".toList [] (some "token".toList) fun _ => refused).outcome =
      .error (.python .attributeError) := by
  rfl

/-- **An `error` that is a text escapes as an `AttributeError`.** -/
theorem error_text_escapes : ¬ Sound asciiLibrary graph "https://graph.microsoft.com/v1.0/me".toList
    (request asciiLibrary graph "GET".toList "https://graph.microsoft.com/v1.0/me".toList []
      (some "token".toList) fun _ => refused) :=
  fun h => h.classified.known _ refused_outcome

end QnscKb.Connectors
