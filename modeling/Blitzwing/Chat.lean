/-
`orchestrator/app/main.py`, the two routes that may end in a payout:
`chat_completions` with its SSE stream, and `internal_payout`.

A request leaves more than its answer: the completions an inference was
started for, and the calls of `_run_payout` (`Served`). The engine, the payout
and FastAPI's reading of a body are arguments. A stream is the text of its
events; that it pays, if at all, after its last event is kept in the order of
the definition, and a client that hangs up early is left out. The texts of
Pydantic's 422 answers are its own, and so are an argument too.

One rule holds on every path: a chat request pays only when the gateway marks
it `1` (`payouts_of_verified`).
-/
import Blitzwing.Lib.Json
import Blitzwing.Registry

namespace Blitzwing

/-! ## Requests and answers -/

structure HttpResponse where
  status : Nat
  contentType : String
  body : String
deriving DecidableEq, Repr

/-- `response.ok` -/
def HttpResponse.ok (r : HttpResponse) : Bool := 200 ≤ r.status && r.status ≤ 299

def jsonResponse (status : Nat) (v : Json) : HttpResponse := ⟨status, "application/json", v.render⟩

/-- `raise HTTPException(status_code, detail)` -/
def httpException (status : Nat) (detail : String) : HttpResponse := jsonResponse status (.obj [("detail", .str detail)])

/-- What answering a request did. -/
structure Served where
  response : HttpResponse
  /-- The completions an inference was started for. -/
  inferred : List String := []
  /-- The calls of `_run_payout`, each with its completion and settlement. -/
  payouts : List (String × Option String) := []
deriving DecidableEq, Repr

structure ChatMessage where
  role : String
  content : String
deriving DecidableEq, Repr

inductive Stop
  | one (s : String)
  | many (l : List String)
deriving DecidableEq, Repr

/-- What the engine is handed beside the messages. -/
structure Sampling where
  maxTokens : Option Int := .none
  temperature : Option Numeral := .none
  topP : Option Numeral := .none
  stop : Option Stop := .none
deriving DecidableEq, Repr

structure ChatCompletionRequest where
  model : String
  messages : List ChatMessage
  sampling : Sampling := {}
  stream : Bool := false
deriving DecidableEq, Repr

/-- The two headers the gateway sets. -/
structure PaidHeaders where
  x402TxId : Option String
  blitzwingPaid : Option String
deriving DecidableEq, Repr

structure ChatSettings where
  modelName : String
  x402Enabled : Bool := false
  inferenceTimeoutSeconds : Int := 180
deriving DecidableEq, Repr

/-! ## The engine -/

structure GenerationResult where
  text : String
  promptTokens : Int
  completionTokens : Int
  finishReason : String
deriving DecidableEq, Repr

/-- What `wait_for` and `engine.generate` raise. -/
inductive GenerateError
  | timeout
  | missingBlocks (msg : String)
  | httpInference (msg : String)
  | runtimeError (msg : String)
  | other (msg : String)
deriving DecidableEq, Repr

/-- What a stream ends in: the generator's value, or the text of what it raised. -/
abbrev StreamEnd := Except String (Option GenerationResult)

structure Engine where
  generate : List ChatMessage → Sampling → Except GenerateError GenerationResult
  /-- The pieces `stream_generate` yields, and how it ends. -/
  streamGenerate : List ChatMessage → Sampling → List String × StreamEnd

/-- `_run_payout`: the receipt, nothing where payouts are off, or a raise. -/
abbrev RunPayout := String → Option String → Except PyError (Option Json)

/-- `chatcmpl-` and 24 characters of a `uuid4().hex`. -/
def newCompletionId (hex : String) : String := "chatcmpl-" ++ .ofList (hex.toList.take 24)

/-! ## The stream -/

def optStr : Option String → Json
  | .some s => .str s
  | .none => .null

def completionChunk (completionId : String) (created : Int) (model : String) (role content : Option String)
    (finishReason : Option String) : Json :=
  .obj [("id", .str completionId), ("object", .str "chat.completion.chunk"), ("created", .num (.ofInt created)),
    ("model", .str model), ("choices", .arr [.obj [("index", .num (.ofInt 0)),
      ("delta", .obj [("role", optStr role), ("content", optStr content)]), ("finish_reason", optStr finishReason)]])]

def event (v : Json) : String := "data: " ++ v.render ++ "\n\n"

def doneEvent : String := "data: [DONE]\n\n"

/-- The events of a stream: the role, the pieces, and the end, which an error
makes a last piece of its own. -/
def streamSse (completionId : String) (created : Int) (model : String) (pieces : List String) (ending : StreamEnd) :
    String :=
  let chunk := completionChunk completionId created model
  let first := event (chunk (.some "assistant") (.some "") .none)
  let deltas := pieces.map fun piece => event (chunk .none (.some piece) .none)
  let last := match ending with
    | .ok result => event (chunk .none .none (.some ((result.map (·.finishReason)).getD "stop")))
    | .error msg => event (chunk .none (.some ("\n\n[error] " ++ msg)) (.some "stop"))
  first ++ .join deltas ++ last ++ doneEvent

/-! ## `chat_completions` -/

/-- `_ensure_model_or_400` -/
def modelError (settings : ChatSettings) (request : ChatCompletionRequest) : Option HttpResponse :=
  if request.model ≠ "" ∧ request.model ≠ settings.modelName then
    .some (httpException 400 (s!"Unsupported model '{request.model}'. " ++
      s!"This orchestrator serves '{settings.modelName}'."))
  else if request.messages = [] then .some (httpException 400 "messages must be a non-empty list")
  else .none

def generateError (settings : ChatSettings) : GenerateError → HttpResponse
  | .timeout => httpException 503 (s!"Inference timed out after {settings.inferenceTimeoutSeconds}s. " ++
      "Swarm blocks may be unreachable.")
  | .missingBlocks msg | .httpInference msg | .runtimeError msg => httpException 503 msg
  | .other msg => httpException 500 s!"Generation failed: {msg}"

def completionJson (completionId : String) (created : Int) (model : String) (result : GenerationResult)
    (payment : Option Json) : Json :=
  .obj [("id", .str completionId), ("object", .str "chat.completion"), ("created", .num (.ofInt created)),
    ("model", .str model),
    ("choices", .arr [.obj [("index", .num (.ofInt 0)),
      ("message", .obj [("role", .str "assistant"), ("content", .str result.text)]),
      ("finish_reason", .str result.finishReason)]]),
    ("usage", .obj [("prompt_tokens", .num (.ofInt result.promptTokens)),
      ("completion_tokens", .num (.ofInt result.completionTokens)),
      ("total_tokens", .num (.ofInt (result.promptTokens + result.completionTokens)))]),
    ("blitzwing_payment", payment.getD .null)]

/-- `POST /v1/chat/completions`, the body read; `hex` is what `uuid4` draws. -/
def chatCompletions (settings : ChatSettings) (engine : Engine) (runPayout : RunPayout) (headers : PaidHeaders)
    (hex : String) (now : Int) (request : ChatCompletionRequest) : Served :=
  if settings.x402Enabled ∧ headers.blitzwingPaid ∉ [.some "1", .some "verified"] then
    { response := httpException 403 ("Chat is x402-gated. Call the public gateway on :8000 " ++
        "(packages/x402-gateway); do not hit the internal orchestrator directly.") }
  else
    let pays := settings.x402Enabled ∧ headers.blitzwingPaid = .some "1"
    match modelError settings request with
    | .some response => { response }
    | .none =>
      let completionId := newCompletionId hex
      if request.stream then
        let (pieces, ending) := engine.streamGenerate request.messages request.sampling
        { response := ⟨200, "text/event-stream; charset=utf-8",
            streamSse completionId now settings.modelName pieces ending⟩
          inferred := [completionId]
          -- The generator reports an error as an event, so this is reached after one, too.
          payouts := if pays then [(completionId, headers.x402TxId)] else [] }
      else match engine.generate request.messages request.sampling with
        | .error e => { response := generateError settings e, inferred := [completionId] }
        | .ok result =>
          let payment := if pays then (runPayout completionId headers.x402TxId).toOption.join else .none
          { response := jsonResponse 200 (completionJson completionId now settings.modelName result payment)
            inferred := [completionId]
            payouts := if pays then [(completionId, headers.x402TxId)] else [] }

/-- The inference of a request runs to its end. -/
def Completes (settings : ChatSettings) (engine : Engine) (request : ChatCompletionRequest) : Prop :=
  modelError settings request = .none ∧
    if request.stream then ∃ result, (engine.streamGenerate request.messages request.sampling).2 = .ok result
    else ∃ result, engine.generate request.messages request.sampling = .ok result

/-! ## `internal_payout` -/

/-- `InternalPayoutRequest`: a JSON object with a string `request_id`. -/
def payoutRequest (body : String) : Option String :=
  (Json.parse body).bind fun v => (v.get? "request_id").bind Json.str?

/-- `POST /v1/internal/payout`. -/
def internalPayout (settings : ChatSettings) (runPayout : RunPayout) (unprocessable : String) (headers : PaidHeaders)
    (body : String) : Served :=
  match payoutRequest body with
  | .none => { response := ⟨422, "application/json", unprocessable⟩ }
  | .some requestId =>
    if settings.x402Enabled ∧ headers.blitzwingPaid ≠ .some "1" then
      { response := httpException 403 "Settlement required before payout" }
    else
      { response := match runPayout requestId headers.x402TxId with
          | .error e => httpException 500 e.text
          | .ok .none => httpException 503 "Payout service disabled or misconfigured"
          | .ok (.some receipt) => jsonResponse 200 receipt
        payouts := [(requestId, headers.x402TxId)] }

/-! ## What the routes answer and pay -/

section

variable {settings : ChatSettings} {engine : Engine} {request : ChatCompletionRequest}

/-- **Verified is not paid.** A chat request marked `verified` runs no payout. -/
theorem payouts_of_verified (runPayout : RunPayout) (tx : Option String) (hex : String) (now : Int) :
    (chatCompletions settings engine runPayout ⟨tx, .some "verified"⟩ hex now request).payouts = [] := by
  have hpays : ¬ (settings.x402Enabled = true ∧ Option.some "verified" = .some "1") := by simp
  simp only [chatCompletions, if_neg hpays]
  split
  · rfl
  · split
    · rfl
    · split
      · rfl
      · split <;> rfl

/-- An inference that completes is answered 200: with the completion, or with its events. -/
theorem chatCompletions_of_completes (runPayout : RunPayout) (tx : Option String) (hex : String) (now : Int)
    (hc : Completes settings engine request) :
    (chatCompletions settings engine runPayout ⟨tx, .some "verified"⟩ hex now request).inferred =
        [newCompletionId hex] ∧
      if request.stream then ∃ pieces ending,
        (chatCompletions settings engine runPayout ⟨tx, .some "verified"⟩ hex now request).response =
          ⟨200, "text/event-stream; charset=utf-8", streamSse (newCompletionId hex) now settings.modelName pieces ending⟩
      else ∃ result,
        (chatCompletions settings engine runPayout ⟨tx, .some "verified"⟩ hex now request).response =
          jsonResponse 200 (completionJson (newCompletionId hex) now settings.modelName result .none) := by
  obtain ⟨hmodel, hrun⟩ := hc
  have hgate : ¬ (settings.x402Enabled = true ∧ Option.some "verified" ∉ [.some "1", .some "verified"]) := by simp
  have hpays : ¬ (settings.x402Enabled = true ∧ Option.some "verified" = .some "1") := by simp
  simp only [chatCompletions, if_neg hgate, if_neg hpays, hmodel]
  cases hs : request.stream with
  | true => exact ⟨rfl, _, _, rfl⟩
  | false =>
    simp only [hs, Bool.false_eq_true, if_false] at hrun
    obtain ⟨result, hresult⟩ := hrun
    simp only [hresult, Bool.false_eq_true, if_false]
    exact ⟨trivial, result, rfl⟩

/-- The payout route runs the payout of every request it can read, once it is paid. -/
theorem internalPayout_paid (runPayout : RunPayout) (unprocessable : String) (tx : Option String)
    {body requestId : String} (hbody : payoutRequest body = .some requestId) :
    (internalPayout settings runPayout unprocessable ⟨tx, .some "1"⟩ body).payouts = [(requestId, tx)] := by
  have hgate : ¬ (settings.x402Enabled = true ∧ Option.some "1" ≠ .some "1") := by simp
  simp only [internalPayout, hbody, if_neg hgate]

end

@[simp] theorem get?_completionJson (completionId : String) (created : Int) (model : String) (result : GenerationResult)
    (payment : Option Json) :
    (completionJson completionId created model result payment).get? "id" = .some (.str completionId) := rfl

/-- The events of a stream are no JSON text. -/
theorem parse_streamSse (completionId : String) (created : Int) (model : String) (pieces : List String)
    (ending : StreamEnd) : Json.parse (streamSse completionId created model pieces ending) = .none := by
  refine Json.parse_of_head (c := 'd') ?_ (by decide) (by decide) (by decide)
  simp [streamSse, event]

theorem newCompletionId_ne_empty (hex : String) : newCompletionId hex ≠ "" := by
  intro h
  have := congrArg String.toList h
  simp [newCompletionId] at this

end Blitzwing
