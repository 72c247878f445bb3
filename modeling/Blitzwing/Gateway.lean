/-
`packages/x402-gateway/index.ts`: the paid route for chat completions, in
front of the orchestrator.

The gateway settles a payment, proxies the request marked `verified`, and asks
for the payout itself once the answer is there, since the orchestrator pays no
such request. It learns which completion to pay for from the JSON of the
answer. So a paid request is paid out exactly where it asked for no stream
(`paid_iff_not_streamed`): the events of a stream are no JSON
(`streamed_request_unpaid`).

What the x402 library answers and how each `fetch` goes are arguments. A
header arrives as it was sent, which is so of a transaction id, and what the
answer carries beside its status, content type and body is left out.
-/
import Blitzwing.Chat
import Blitzwing.RegistryFacts

namespace Blitzwing

variable {β : Type}

/-- How a `fetch` went: a failed one may have reached the other side. -/
inductive Fetch
  | answered
  | failed (message : String) (handled : Bool)
deriving DecidableEq, Repr

/-- The answer and what was done for it, on this side of the `fetch`. -/
def Fetch.deliver (fetch : Fetch) (served : Served) (unreachable : String → HttpResponse) : Served :=
  match fetch with
  | .answered => served
  | .failed message true => { served with response := unreachable message }
  | .failed message false => { response := unreachable message }

/-- The orchestrator's routes, as the gateway calls them. -/
structure Upstream (β : Type) where
  chat : PaidHeaders → String → β → Served
  payout : PaidHeaders → String → Served

/-- `parse` is FastAPI's reading of a body: the request, or the text of a 422. -/
def orchestrator (settings : ChatSettings) (engine : Engine) (runPayout : RunPayout)
    (parse : String → β → Except String ChatCompletionRequest) (unprocessable hex : String) (now : Int) :
    Upstream β where
  chat headers contentType body := match parse contentType body with
    | .error text => { response := ⟨422, "application/json", text⟩ }
    | .ok request => chatCompletions settings engine runPayout headers hex now request
  payout headers body := internalPayout settings runPayout unprocessable headers body

/-- What `processSettlement` answers. -/
structure Settlement where
  success : Bool
  transaction : Option String := .none
  errorReason : Option String := .none
  errorMessage : Option String := .none
deriving DecidableEq, Repr

/-- What `processHTTPRequest` answers. -/
inductive GateResult
  | paymentError (status : Nat) (contentType : Option String) (body : Option Json)
  | paymentVerified
  | other (type : String)

structure Payment where
  gate : GateResult
  settle : Settlement

/-! ## The route -/

/-- `typeof body === "string" ? body : JSON.stringify(body ?? {})` -/
def bodyText : Option Json → String
  | .some (.str s) => s
  | .none | .some .null => (Json.obj []).render
  | .some v => v.render

/-- `object.name = value` -/
def setField (v : Json) (name : String) (value : Json) : Json :=
  match v with
  | .obj fields =>
    if fields.any (·.1 = name) then .obj (fields.map fun f => if f.1 = name then (name, value) else f)
    else .obj (fields ++ [(name, value)])
  | v => v

def optField (name : String) : Option String → List (String × Json)
  | .some s => [(name, .str s)]
  | .none => []

def unreachable (upstream message : String) : HttpResponse :=
  httpException 502 s!"Upstream orchestrator unreachable at {upstream}: {message}"

/-- The id of a completion, if the answer is an object with one. -/
def completionId? (responseBody : Json) : Option String := truthy ((responseBody.get? "id").bind Json.str?)

/-- `upText ? JSON.parse(upText) : null`, the text itself where that throws. -/
def readBody (upText : String) : Json :=
  if upText = "" then .null else (Json.parse upText).getD (.str upText)

/-- Distribute payment from escrow to compute providers: the answer with the
receipt in it, and the payouts run. -/
def distribute (up : Upstream β) (fetch : Fetch) (transaction completionId : String) (responseBody : Json) :
    Json × List (String × Option String) :=
  let payoutRes := fetch.deliver
    (up.payout ⟨.some transaction, .some "1"⟩ (Json.obj [("request_id", .str completionId)]).render)
    (fun message => ⟨0, "", message⟩)
  let paid := match fetch, payoutRes.response.ok, Json.parse payoutRes.response.body with
    | .answered, true, .some payoutJson => setField responseBody "blitzwing_payment" payoutJson
    | _, _, _ => responseBody
  (paid, payoutRes.payouts)

/-- A request whose payment is verified: settle, proxy, distribute. -/
def settleAndProxy (upstream : String) (up : Upstream β) (settle : Settlement) (fetchChat fetchPayout : Fetch)
    (contentType : String) (body : β) : Served :=
  if settle.success = false then
    { response := jsonResponse 402 (.obj ([("error", .str "settlement_failed")] ++
        optField "errorReason" settle.errorReason ++ optField "errorMessage" settle.errorMessage ++
        [("detail", .str "Payment settlement failed before inference")])) }
  else
    let served := fetchChat.deliver
      (up.chat ⟨.some (settle.transaction.getD ""), .some "verified"⟩ contentType body) (unreachable upstream)
    if served.response.ok = false then served
    else
      let responseBody := readBody served.response.body
      match completionId? responseBody, truthy settle.transaction with
      | .some completionId, .some transaction =>
        let (responseBody, payouts) := distribute up fetchPayout transaction completionId responseBody
        { served with
          response := { served.response with body := bodyText (.some responseBody) }
          payouts := served.payouts ++ payouts }
      | _, _ => { served with response := { served.response with body := bodyText (.some responseBody) } }

/-- `POST /v1/chat/completions`. Without x402 it is a transparent proxy. -/
def chatRoute (upstream : String) (up : Upstream β) (x402 : Option Payment) (fetchChat fetchPayout : Fetch)
    (contentType : Option String) (body : β) : Served :=
  let contentType := (truthy contentType).getD "application/json"
  match x402 with
  | .none => fetchChat.deliver (up.chat ⟨.none, .some "0"⟩ contentType body) (unreachable upstream)
  | .some payment =>
    match payment.gate with
    | .paymentError status contentType body =>
      { response := ⟨status, (truthy contentType).getD "application/json", bodyText body⟩ }
    | .paymentVerified => settleAndProxy upstream up payment.settle fetchChat fetchPayout contentType body
    -- Protected route must not fall through unpaid.
    | .other type =>
      { response := jsonResponse 402 (.obj [("error", .str "payment_required"),
          ("message", .str s!"Unexpected x402 result type: {type}")]) }

/-! ## Who is paid -/

theorem completionId?_completionJson (hex : String) (created : Int) (model : String) (result : GenerationResult)
    (payment : Option Json) :
    completionId? (completionJson (newCompletionId hex) created model result payment) =
      .some (newCompletionId hex) := by
  simp only [completionId?, get?_completionJson, Option.bind_some, Json.str?]
  exact truthy_of_ne (newCompletionId_ne_empty hex)

/-- The payout route reads what the gateway asks it. -/
theorem payoutRequest_render (completionId : String) :
    payoutRequest (Json.obj [("request_id", .str completionId)]).render = .some completionId := by
  simp [payoutRequest, Json.parse_render, Json.get?, Json.str?]

theorem readBody_render {v : Json} (h : v.render ≠ "") : readBody v.render = v := by
  simp [readBody, h, Json.parse_render]

theorem completionId?_streamSse (completionId : String) (created : Int) (model : String) (pieces : List String)
    (ending : StreamEnd) : completionId? (readBody (streamSse completionId created model pieces ending)) = .none := by
  unfold readBody
  split
  · rfl
  · rw [parse_streamSse]
    rfl

theorem render_completionJson_ne_empty (completionId : String) (created : Int) (model : String)
    (result : GenerationResult) (payment : Option Json) :
    (completionJson completionId created model result payment).render ≠ "" := by
  intro h
  have := congrArg String.toList h
  simp [completionJson, Json.render, Json.renderChars] at this

/-- The payout the gateway asks for is run. -/
theorem distribute_answered (settings : ChatSettings) (engine : Engine) (runPayout : RunPayout)
    (parse : String → β → Except String ChatCompletionRequest) (unprocessable hex : String) (now : Int)
    (transaction completionId : String) (responseBody : Json) :
    (distribute (orchestrator settings engine runPayout parse unprocessable hex now) .answered transaction completionId
      responseBody).2 = [(completionId, .some transaction)] := by
  simp only [distribute, Fetch.deliver, orchestrator]
  exact internalPayout_paid runPayout unprocessable (.some transaction) (payoutRequest_render completionId)

section

variable {settings : ChatSettings} {engine : Engine} {parse : String → β → Except String ChatCompletionRequest}
  {payment : Payment} {contentType : Option String} {body : β} {request : ChatCompletionRequest} {tx : String}

/-- A request that is settled and answered in full: the gateway asks for its
payout, unless the answer was a stream. -/
theorem chatRoute_settled (upstream : String) (runPayout : RunPayout) (unprocessable hex : String) (now : Int)
    (hgate : payment.gate = .paymentVerified) (hsettle : payment.settle.success = true)
    (htx : truthy payment.settle.transaction = .some tx)
    (hparse : parse ((truthy contentType).getD "application/json") body = .ok request)
    (hc : Completes settings engine request) :
    let served := chatRoute upstream (orchestrator settings engine runPayout parse unprocessable hex now)
      (.some payment) .answered .answered contentType body
    served.response.status = 200 ∧ served.inferred = [newCompletionId hex] ∧
      served.payouts = if request.stream then [] else [(newCompletionId hex, .some tx)] := by
  obtain ⟨hinferred, hresponse⟩ := chatCompletions_of_completes runPayout (.some tx) hex now hc
  have hheader : payment.settle.transaction.getD "" = tx := by rw [truthy_eq_some htx]; rfl
  have hdistribute := distribute_answered settings engine runPayout parse unprocessable hex now tx (newCompletionId hex)
  simp only [orchestrator] at hdistribute
  simp only [chatRoute, hgate, settleAndProxy, hsettle, Fetch.deliver, orchestrator, hparse, hheader, htx]
  cases hs : request.stream with
  | true =>
    simp only [hs, if_true] at hresponse
    obtain ⟨pieces, ending, hr⟩ := hresponse
    rw [hr]
    simp [HttpResponse.ok, completionId?_streamSse, payouts_of_verified, hinferred]
  | false =>
    simp only [hs, Bool.false_eq_true, if_false] at hresponse
    obtain ⟨result, hr⟩ := hresponse
    rw [hr]
    simp [HttpResponse.ok, jsonResponse, readBody_render (render_completionJson_ne_empty _ _ _ _ _),
      completionId?_completionJson, hdistribute, payouts_of_verified, hinferred]

/-- **Paid and served, but streamed.** A request that is settled and answered in
full is paid out exactly where it asked for no stream. -/
theorem paid_iff_not_streamed (upstream : String) (runPayout : RunPayout) (unprocessable hex : String) (now : Int)
    (hgate : payment.gate = .paymentVerified) (hsettle : payment.settle.success = true)
    (htx : truthy payment.settle.transaction = .some tx)
    (hparse : parse ((truthy contentType).getD "application/json") body = .ok request)
    (hc : Completes settings engine request) :
    (newCompletionId hex, .some tx) ∈ (chatRoute upstream
        (orchestrator settings engine runPayout parse unprocessable hex now) (.some payment) .answered .answered
        contentType body).payouts ↔ request.stream = false := by
  obtain ⟨-, -, hpayouts⟩ := chatRoute_settled upstream runPayout unprocessable hex now hgate hsettle htx hparse hc
  rw [hpayouts]
  cases request.stream <;> simp

end

/-! ## One request, streamed and not -/

def chatBody (stream : Bool) : Json :=
  .obj [("model", .str "m"), ("messages", .arr [.obj [("role", .str "user"), ("content", .str "hi")]]),
    ("stream", .bool stream)]

/-- FastAPI's reading of a body with one message. -/
def readChatBody (_contentType body : String) : Except String ChatCompletionRequest :=
  match Json.parse body with
  | .some v =>
    match v.get? "model", v.get? "messages", v.get? "stream" with
    | .some (.str model), .some (.arr [m]), .some (.bool stream) =>
      match m.get? "role", m.get? "content" with
      | .some (.str role), .some (.str content) => .ok { model, messages := [⟨role, content⟩], stream }
      | _, _ => .error "Field required"
    | _, _, _ => .error "Field required"
  | .none => .error "JSON decode error"

def greeting : Engine where
  generate := fun _ _ => .ok ⟨"hello", 3, 1, "stop"⟩
  streamGenerate := fun _ _ => (["hel", "lo"], .ok (.some ⟨"hello", 3, 1, "stop"⟩))

def settled : Payment where
  gate := .paymentVerified
  settle := { success := true, transaction := .some "0.0.1234@1700000000.000000001" }

/-- What `uuid4().hex` draws. -/
def drawn : String := "0123456789abcdef0123456789abcdef"

def served (stream : Bool) : Served :=
  chatRoute "http://127.0.0.1:8002"
    (orchestrator ⟨"m", true, 180⟩ greeting (fun _ _ => .ok (.some (.obj []))) readChatBody ""
      drawn 1700000000)
    (.some settled) .answered .answered (.some "application/json") (chatBody stream).render

theorem truthy_settled : truthy settled.settle.transaction = .some "0.0.1234@1700000000.000000001" := by decide

theorem readChatBody_chatBody (contentType : String) (stream : Bool) :
    readChatBody contentType (chatBody stream).render = .ok ⟨"m", [⟨"user", "hi"⟩], {}, stream⟩ := by
  simp only [readChatBody, Json.parse_render]
  rfl

theorem completes_greeting (stream : Bool) :
    Completes ⟨"m", true, 180⟩ greeting ⟨"m", [⟨"user", "hi"⟩], {}, stream⟩ := by
  cases stream <;> exact ⟨by decide, _, rfl⟩

/-- The stream is answered in full, and nobody is paid. -/
theorem streamed_request_unpaid :
    (served true).response.status = 200 ∧ (served true).inferred = [newCompletionId drawn] ∧
      (served true).payouts = [] := by
  unfold served
  obtain ⟨hstatus, hinferred, hpayouts⟩ := chatRoute_settled "http://127.0.0.1:8002"
    (fun _ _ => .ok (.some (.obj []))) "" drawn 1700000000 rfl rfl truthy_settled (readChatBody_chatBody _ true)
    (completes_greeting true)
  exact ⟨hstatus, hinferred, hpayouts⟩

theorem paid_iff_not_streamed_whole :
    (newCompletionId drawn, .some "0.0.1234@1700000000.000000001") ∈ (served false).payouts := by
  unfold served
  exact (paid_iff_not_streamed "http://127.0.0.1:8002" _ "" drawn 1700000000 rfl rfl truthy_settled
    (readChatBody_chatBody _ false) (completes_greeting false)).2 rfl

end Blitzwing
