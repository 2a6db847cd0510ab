import QnscKb.Ask.Json

/-!
# Llm — Wire

The readers of a Chat Completions response: `probe_provider`, `_extract_sse_text`,
`_extract_openai_text`, `_extract_usage` and `_complete_once` with its `request_stream`
(`src/domain/llm_client.py`), of a provider that answers every request with one body.
-/

namespace QnscKb.Llm.Wire
open Ask (Json Fields Python)

/-- What `json.loads` makes of a text: a value, a failure its reader catches, or one it does not. -/
inductive Loaded
  | value (v : Json)
  | invalid
  | crash

/-- A line of the body; what follows `data:` is stripped. -/
inductive Line
  | other
  | blank
  | done
  | data (loaded : Loaded)

/-- A body as its readers take it: as a whole, and line by line. -/
structure Body where
  whole : Loaded
  lines : List Line

/-- The exceptions; `decoding` are those that `probe_provider` takes for another shape of body. -/
inductive Error
  | decoding
  | other
  deriving DecidableEq

/-! ### Reading values -/

/-- `value.get`, of a value that must be a `dict`. -/
def asDict : Json → Except Error Fields
  | .object fields => .ok fields
  | _ => .error .decoding

/-- `value[0]`; on a `dict` it is a `KeyError`. -/
def first : Json → Except Error Json
  | .list (v :: _) => .ok v
  | .text (c :: _) => .ok (.text [c])
  | .object _ => .error .other
  | _ => .error .decoding

/-- `value or {}`, of which fields are taken. -/
def orDict (v : Json) : Except Error Fields :=
  if v.truthy then asDict v else .ok []

variable (P : Python)

/-- `str(value or "")`. -/
def strOr (v : Json) : Text := if v.truthy then v.str P else []

/-- `int(value or 0)`. -/
def intOr (v : Json) : Except Error Int :=
  if !v.truthy then .ok 0
  else match v with
    | .bool b => .ok (if b then 1 else 0)
    | .int n => .ok n
    | .float (.finite _ truncated _) => .ok truncated
    | .float .nan => .error .decoding
    | .float (.infinity _) => .error .other
    | .text t => ((Ask.intOfText P t).map Except.ok).getD (.error .decoding)
    | .null | .list _ | .object _ => .error .decoding

def extractUsage (fields : Fields) : Except Error Int := do
  let usage ← orDict ((fields.get "usageMetadata").or (fields.get "usage"))
  intOr P ((usage.get "totalTokenCount").or (usage.get "total_tokens"))

def GROUNDED_SENTINEL : Text := "<<<GROUNDED>>>".toList

def answerFromReasoning : Text → Text
  | [] => []
  | c :: t => if GROUNDED_SENTINEL.isPrefixOf (c :: t) then c :: t else answerFromReasoning t

def extractOpenaiText (data : Fields) : Except Error Text := do
  let choice ← first ((data.lookup "choices").getD (.list [.object []]))
  let choice ← asDict choice
  let message ← orDict (choice.get "message")
  let content := strOr P (message.get "content")
  if Text.strip content ≠ [] then return content
  let answer := answerFromReasoning
    (strOr P ((message.get "reasoning").or (message.get "reasoning_content")))
  return if answer ≠ [] then answer else content

/-! ### Event streams -/

/-- One event of `_extract_sse_text`. -/
def sseEvent (collected : Text × Text) (chunk : Json) : Except Error (Text × Text) := do
  let chunk ← asDict chunk
  if !(chunk.get "choices").truthy then return collected
  let choice ← first (chunk.get "choices")
  let choice ← asDict choice
  let part ← orDict ((choice.get "delta").or (choice.get "message"))
  return (collected.1 ++ strOr P (part.get "content"),
    collected.2 ++ strOr P ((part.get "reasoning_content").or (part.get "reasoning")))

/-- `_extract_sse_text`: content and reasoning, of every event there is. -/
def extractSseText : Text × Text → List Line → Except Error (Text × Text)
  | collected, [] => .ok collected
  | collected, .data (.value chunk) :: lines => do
    let collected ← sseEvent P collected chunk
    extractSseText collected lines
  | _, .data .crash :: _ => .error .decoding
  | collected, .data .invalid :: lines | collected, .other :: lines | collected, .blank :: lines
  | collected, .done :: lines => extractSseText collected lines

/-- `text or _answer_from_reasoning(reasoning)`, of a body that is no JSON. -/
def sseAnswer (body : Body) : Except Error Text := do
  let (text, reasoning) ← extractSseText P ([], []) body.lines
  return if text ≠ [] then text else answerFromReasoning reasoning

/-- The `delta` of an event, as `request_stream` reads it. -/
def eventDelta (data : Json) : Except Error Fields := do
  let data ← asDict data
  if !(data.get "choices").truthy then return []
  let choice ← first (data.get "choices")
  let choice ← asDict choice
  orDict (choice.get "delta")

/-- One event of `request_stream`. -/
def streamEvent (collected : Text × Text) (data : Json) : Except Error (Text × Text) := do
  let delta ← eventDelta data
  let text := strOr P (delta.get "content")
  let fields ← asDict data
  let _ ← extractUsage P fields
  return if text ≠ [] then (collected.1 ++ text, collected.2)
    else (collected.1, collected.2 ++
      strOr P ((delta.get "reasoning_content").or (delta.get "reasoning")))

/-- The loop of `request_stream`: answer and thinking, up to `[DONE]`. -/
def streamEvents : Text × Text → List Line → Except Error (Text × Text)
  | collected, [] => .ok collected
  | collected, .done :: _ => .ok collected
  | collected, .data (.value data) :: lines => do
    let collected ← streamEvent P collected data
    streamEvents collected lines
  | _, .data .crash :: _ => .error .decoding
  | collected, .data .invalid :: lines | collected, .other :: lines
  | collected, .blank :: lines => streamEvents collected lines

def requestStream (body : Body) : Except Error Text := do
  let (answer, thinking) ← streamEvents P ([], []) body.lines
  if Text.strip answer ≠ [] then return answer
  let recovered := answerFromReasoning thinking
  return if recovered ≠ [] then recovered else answer

/-- The answer that `probe_provider` finds. -/
def probeAnswer (body : Body) : Except Error Text :=
  match body.whole with
  | .value (.object data) =>
    match extractOpenaiText P data with
    | .ok answer => .ok answer
    | .error .decoding => sseAnswer P body
    | .error .other => .error .other
  | .value _ | .invalid => sseAnswer P body
  | .crash => .error .other

def Answered (answer : Except Error Text) : Prop := ∃ text, answer = .ok text ∧ Text.strip text ≠ []

/-- `_complete_once`, of GLM or not, with `on_token` or without.  The second attempt of a stream
gets the same body. -/
def completeOnce (glm onToken streamAnswers : Bool) (body : Body) : Except Error Text :=
  if glm || (onToken && streamAnswers) then
    match requestStream P body with
    | .ok answer => .ok answer
    | .error _ => requestStream P body
  else
    match body.whole with
    | .invalid => do
      let answer ← sseAnswer P body
      if Text.strip answer ≠ [] then return answer
      .error .other
    | .value data => do
      let data ← asDict data
      let answer ← extractOpenaiText P data
      let _ ← extractUsage P data
      return answer
    | .crash => .error .other

/-- The provider can be used: with `on_token`, where answers are streamed, and without. -/
def Usable (glm : Bool) (body : Body) : Prop :=
  Answered (completeOnce P glm true true body) ∧ ∀ streamAnswers,
    Answered (completeOnce P glm false streamAnswers body)

end QnscKb.Llm.Wire
