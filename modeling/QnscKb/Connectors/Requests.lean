import QnscKb.Ask.Json
import Mathlib.Data.Rat.Defs
import Mathlib.Algebra.Order.Ring.Unbundled.Rat

/-!
# Connectors — Requests

The one call every provider adapter makes: `ConnectorAdapter._request`
(`src/domain/connector_adapters.py`).  What the provider sends is a tape of exchanges, one for each
attempt; `urlsplit`, `urljoin`, `ipaddress` and `json.loads` are the library's.
-/

namespace QnscKb.Connectors

open Ask (Json Python)

abbrev Bytes := List UInt8

/-- What `urlsplit` gives of a URL. -/
structure Url where
  scheme : Text
  hostname : Option Text
  username : Option Text
  password : Option Text

/-- How `json.loads` fails: bytes of no encoding and numbers of too many digits are a `ValueError`
other than `JSONDecodeError`. -/
inductive LoadError where
  | jsonDecode
  | value
  | recursion
  deriving DecidableEq

/-- The library; `none` is a `ValueError`. -/
structure Library where
  python : Python
  urlsplit : Text → Option Url
  urljoin : Text → Text → Option Text
  /-- `ipaddress.ip_address(…).is_global`. -/
  isGlobal : Text → Option Bool
  loads : Bytes → Except LoadError Json
  lower_ascii : ∀ t : Text, (∀ c ∈ t, c.toNat < 128) → python.lower t = t.map Char.toLower

/-! ### Outcomes -/

structure ProviderError where
  message : Text
  retryable : Bool
  code : Option Text

/-- The exceptions of Python itself. -/
inductive PythonError where
  | valueError
  | attributeError
  | recursionError
  deriving DecidableEq

inductive Raised where
  | provider (error : ProviderError)
  /-- The HTTP library's own error. -/
  | transport
  | python (error : PythonError)

inductive Result where
  | json (value : Json)
  | bytes (body : Bytes)

def permanent (message code : String) : Raised :=
  .provider ⟨message.toList, false, some code.toList⟩

/-! ### The provider's side -/

abbrev Headers := List (Text × Text)

structure Response where
  status : Nat
  headers : Headers
  chunks : List Bytes
  /-- The stream ends; else the library fails after the chunks. -/
  complete : Bool

def Response.header (r : Response) (name : String) : Option Text := r.headers.lookup name.toList

inductive Answer where
  | failed
  | response (r : Response)

/-- What meets one attempt: the answers to its first call and to the redirect's, and the jitter
`secrets.randbelow(500)`. -/
structure Exchange where
  first : Answer
  second : Answer
  jitter : Nat

structure Adapter where
  allowedApiHosts : List Text
  maxApiResponseBytes : Nat
  maxSourceUploadBytes : Nat

/-! ### URLs -/

section

variable (L : Library) (A : Adapter)

/-- An optional text that is neither missing nor empty. -/
def given (t : Option Text) : Bool := t.any (!·.isEmpty)

/-- The test of `_validate_provider_url`. -/
def trusted (url : Url) : Bool :=
  url.scheme == "https".toList && given url.hostname && !given url.username &&
    !given url.password && url.hostname.any fun host => A.allowedApiHosts.contains (L.python.lower host)

def validateProviderUrl (url : Text) : Except Raised Unit :=
  match L.urlsplit url with
  | none => .error (.python .valueError)
  | some parsed =>
    if trusted L A parsed then .ok ()
    else .error (permanent "Provider returned an untrusted API URL" "untrusted_url")

def rstripDots (t : Text) : Text := (t.reverse.dropWhile (· == '.')).reverse

/-- The tests of `_validate_redirect_url`. -/
def redirectSafe (url : Url) : Bool :=
  let hostname := rstripDots (L.python.lower (url.hostname.getD []))
  url.scheme == "https".toList && !hostname.isEmpty && !given url.username &&
    !given url.password && hostname != "localhost".toList &&
    !(".localhost".toList).isSuffixOf hostname && (L.isGlobal hostname).getD true

def validateRedirectUrl (url : Text) : Except Raised Unit :=
  match L.urlsplit url with
  | none => .error (.python .valueError)
  | some parsed =>
    if redirectSafe L parsed then .ok ()
    else .error (permanent "Provider returned an unsafe download redirect" "unsafe_redirect")

/-! ### Reading a response -/

/-- `response.is_redirect`, and the loop's own test of a status. -/
def Response.redirects (r : Response) : Bool := decide (300 ≤ r.status ∧ r.status < 400)

def Response.isJson (r : Response) : Bool :=
  (L.python.lower ((r.header "content-type").getD [])).tails.any fun rest =>
    "application/json".toList.isPrefixOf rest

def Response.maxBytes (r : Response) : Nat :=
  if r.isJson L then A.maxApiResponseBytes else A.maxSourceUploadBytes

def isdigit (t : Text) : Bool := !t.isEmpty && t.all L.python.isdigit

def tooLarge : Raised :=
  permanent "Provider response exceeds the configured size limit" "response_too_large"

def readChunks (limit : Nat) (complete : Bool) : Bytes → List Bytes → Except Raised Bytes
  | body, [] => if complete then .ok body else .error .transport
  | body, chunk :: chunks =>
    if limit < (body ++ chunk).length then .error tooLarge
    else readChunks limit complete (body ++ chunk) chunks

/-- A declared length that `isdigit` lets through. -/
def declared (r : Response) : Option Text := (r.header "content-length").filter (isdigit L)

/-- `_read_response`, once the provider answers. -/
def readResponse (r : Response) : Except Raised Bytes :=
  if r.redirects then .ok []
  else
    match declared L r with
    | some length =>
      match Ask.intOfText L.python length with
      | none => .error (.python .valueError)
      | some n =>
        if (r.maxBytes L A : Int) < n then .error tooLarge
        else readChunks (r.maxBytes L A) r.complete [] r.chunks
    | none => readChunks (r.maxBytes L A) r.complete [] r.chunks

/-! ### What an attempt comes to -/

inductive Verdict where
  | done (outcome : Except Raised Result)
  | retry (delay : ℚ)

def retriedStatuses : List Nat := [429, 500, 502, 503, 504]

/-- `float` of a text of digits. -/
def floatOf (t : Text) : Option ℚ := (Ask.intOf L.python.unicode t).map fun n => (n : ℚ)

/-- The pause before the next attempt; `none` is a `ValueError`. -/
def retryDelay (attempt jitter : Nat) (r : Response) : Option ℚ :=
  match r.header "retry-after" with
  | some seconds =>
    if isdigit L seconds then (floatOf L seconds).map (min 60)
    else some (min 16 (2 ^ attempt) + (jitter : ℚ) / 1000)
  | none => some (min 16 (2 ^ attempt) + (jitter : ℚ) / 1000)

def errorDetail (body : Bytes) : Except PythonError Text :=
  match L.loads body with
  | .error .recursion => .error .recursionError
  | .error _ => .ok []
  | .ok payload =>
    let errorPayload := match payload with
      | .object fields => Ask.Fields.get fields "error"
      | _ => .null
    match errorPayload.or (.object []) with
    | .object fields =>
      .ok ((((Ask.Fields.get fields "message").or
        ((Ask.Fields.get fields "code").or (.text []))).str L.python).take 240)
    | _ => .error .attributeError

def statusText (status : Nat) : Text := '(' :: (Ask.decimal status ++ [')'])

/-- What a response that is no redirect comes to. -/
def conclude (attempt jitter : Nat) (r : Response) (body : Bytes) : Verdict :=
  if r.status ∈ retriedStatuses then
    match retryDelay L attempt jitter r with
    | none => .done (.error (.python .valueError))
    | some delay =>
      if attempt = 3 then
        .done (.error (.provider ⟨"Provider retry limit reached ".toList ++ statusText r.status,
          true, some (Ask.decimal r.status)⟩))
      else .retry delay
  else if r.status = 401 ∨ r.status = 403 then
    .done (.error (.provider ⟨"Provider authorization failed ".toList ++ statusText r.status, false,
      some (Ask.decimal r.status)⟩))
  else if 400 ≤ r.status then
    match if r.isJson L then errorDetail L body else .ok [] with
    | .error error => .done (.error (.python error))
    | .ok detail =>
      .done (.error (.provider ⟨"Provider request failed ".toList ++ statusText r.status ++
        (if detail.isEmpty then [] else ": ".toList ++ detail), true,
        some (Ask.decimal r.status)⟩))
  else if r.isJson L then
    match L.loads body with
    | .ok value => .done (.ok (.json value))
    | .error .jsonDecode =>
      .done (.error (permanent "Provider returned invalid JSON" "invalid_json"))
    | .error .value => .done (.error (.python .valueError))
    | .error .recursion => .done (.error (.python .recursionError))
  else .done (.ok (.bytes body))

def follow (method url : Text) (r : Response) : Except Raised Text :=
  if L.python.upper method ≠ "GET".toList ∨ given (r.header "location") = false then
    .error (permanent "Provider returned an unsupported redirect" "unsafe_redirect")
  else
    match L.urljoin url ((r.header "location").getD []) with
    | none => .error (.python .valueError)
    | some target => (validateRedirectUrl L target).map fun _ => target

/-! ### The loop -/

/-- One call of the HTTP library, with its answer. -/
structure Sent where
  url : Text
  headers : Headers
  answer : Answer

def Answer.read (answer : Answer) : Except Raised (Response × Bytes) :=
  match answer with
  | .failed => .error .transport
  | .response r => (readResponse L A r).map fun body => (r, body)

def withoutAuthorization (headers : Headers) : Headers :=
  headers.filter fun header => L.python.lower header.1 != "authorization".toList

def tryOnce (method url : Text) (headers : Headers) (attempt : Nat) (x : Exchange) :
    List Sent × Verdict :=
  match x.first.read L A with
  | .error error => ([⟨url, headers, x.first⟩], .done (.error error))
  | .ok (r, body) =>
    if r.redirects then
      match follow L method url r with
      | .error error => ([⟨url, headers, x.first⟩], .done (.error error))
      | .ok target =>
        let sent := [⟨url, headers, x.first⟩, ⟨target, withoutAuthorization L headers, x.second⟩]
        match x.second.read L A with
        | .error error => (sent, .done (.error error))
        | .ok (r, body) =>
          if r.redirects then
            (sent, .done (.error
              (permanent "Provider returned too many redirects" "unsafe_redirect")))
          else (sent, conclude L attempt x.jitter r body)
    else ([⟨url, headers, x.first⟩], conclude L attempt x.jitter r body)

/-- What a call came to, and what it did on the way. -/
structure Log where
  outcome : Except Raised Result
  sent : List Sent
  sleeps : List ℚ
  attempts : Nat

/-- `for attempt in range(4)`, with so many turns left. -/
def loop (method url : Text) (headers : Headers) (tape : Nat → Exchange) : Nat → Nat → Log
  | 0, _ => ⟨.error (.provider ⟨"Provider request failed".toList, true, none⟩), [], [], 0⟩
  | left + 1, attempt =>
    match tryOnce L A method url headers attempt (tape attempt) with
    | (sent, .done outcome) => ⟨outcome, sent, [], 1⟩
    | (sent, .retry delay) =>
      let rest := loop method url headers tape left (attempt + 1)
      ⟨rest.outcome, sent ++ rest.sent, delay :: rest.sleeps, rest.attempts + 1⟩

/-- `headers["Authorization"] = f"Bearer {token}"`. -/
def authorized (headers : Headers) (token : Text) : Headers :=
  headers.filter (fun header => header.1 != "Authorization".toList) ++
    [("Authorization".toList, "Bearer ".toList ++ token)]

/-- `_request`; the token as `decrypt_secret` gives it. -/
def request (method url : Text) (headers : Headers) (accessToken : Option Text)
    (tape : Nat → Exchange) : Log :=
  match validateProviderUrl L A url with
  | .error error => ⟨.error error, [], [], 0⟩
  | .ok () =>
    if given accessToken then
      loop L A method url (authorized headers (accessToken.getD [])) tape 4 0
    else ⟨.error (permanent "Connector is not authorized" "not_authorized"), [], [], 0⟩

end

end QnscKb.Connectors
