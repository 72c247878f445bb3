/-
Every route of the gateway, in front of every route of the orchestrator.

What a client sends reaches the orchestrator by three of the gateway's routes:
the paid one, `/health`, and the catch-all, which forwards the method, the
path, the query and the body but of the headers only the content type. So no
header of a client's is ever taken for the gateway's own, and with x402 on
nothing but a settled request gets past the two routes that look for them
(`trace_settled`). The chain routes go to the shard manager.

Each request leaves a trace of `Effect`s; requests in flight at the same time
leave a log that interleaves their traces (`Log.Interleaves`). How the
orchestrator's router reads a method and a path is an argument, and so is all
that the outside answers. A `fetch` that failed may have been handled earlier
or later than its place in the trace; it is then the last thing the gateway
does.
-/
import Blitzwing.Gateway
import Blitzwing.Lib.Log

namespace Blitzwing

/-- What the outside can see of a request being handled. -/
inductive Effect
  /-- `processSettlement` returned success. -/
  | settled
  /-- The orchestrator starts an inference. -/
  | inferred (completionId : String)
  /-- The orchestrator's answer to the chat request, at the gateway. -/
  | answered (status : Nat)
  /-- The orchestrator runs `_run_payout`. -/
  | paid (requestId : String) (x402TxId : Option String)
deriving DecidableEq, Repr

namespace Effect

def isSettled : Effect → Bool
  | .settled => true
  | _ => false

def isInferred : Effect → Bool
  | .inferred _ => true
  | _ => false

/-- A status from 200 to 299. -/
def isAnsweredOk : Effect → Bool
  | .answered status => 200 ≤ status && status ≤ 299
  | _ => false

def isPaid : Effect → Bool
  | .paid _ _ => true
  | _ => false

/-- The id of an inference. -/
def inferred? : Effect → Option String
  | .inferred completionId => .some completionId
  | _ => .none

/-- The arguments of a payout. -/
def paid? : Effect → Option (String × Option String)
  | .paid requestId x402TxId => .some (requestId, x402TxId)
  | _ => .none

end Effect

/-- What the orchestrator does for one call, in order. -/
def Served.effects (served : Served) : List Effect :=
  served.inferred.map .inferred ++ served.payouts.map fun p => .paid p.1 p.2

variable {β : Type}

/-! ## The orchestrator's routes -/

/-- What its router takes a method and a path for. -/
inductive Endpoint
  | chat
  | payout
  /-- Any other, and no such: it infers nothing and pays nothing. -/
  | other (response : HttpResponse)

/-- A call of the orchestrator; `text` is the body's text. -/
def Upstream.serve (up : Upstream β) (text : β → String) (endpoint : Endpoint) (headers : PaidHeaders)
    (contentType : String) (body : β) : Served :=
  match endpoint with
  | .chat => up.chat headers contentType body
  | .payout => up.payout headers (text body)
  | .other response => { response }

/-! ## The gateway's routes -/

structure ClientRequest (β : Type) where
  method : String
  path : String
  /-- With its `?`, or empty. -/
  query : String
  headers : List (String × String)
  body : β

def ClientRequest.header (r : ClientRequest β) (name : String) : Option String :=
  (r.headers.find? fun h => h.1.toLower = name).map (·.2)

inductive GatewayRoute
  | preflight
  | health
  | chat
  | chain
  | proxied
deriving DecidableEq, Repr

/-- Hono's table, in the order of its registrations; a `HEAD` is dispatched as a `GET`. -/
def gatewayRoute (method path : String) : GatewayRoute :=
  if method = "OPTIONS" then .preflight
  else if (method = "GET" ∨ method = "HEAD") ∧ path = "/health" then .health
  else if method = "POST" ∧ path = "/v1/chat/completions" then .chat
  else if path = "/v1/chain/prefix" ∨ path = "/v1/chain/continue" then .chain
  else .proxied

/-- What the outside makes of one request. -/
structure Conditions (β : Type) where
  engine : Engine
  runPayout : RunPayout
  parse : String → β → Except String ChatCompletionRequest
  unprocessable : String
  hex : String
  now : Int
  /-- The orchestrator's router. -/
  endpoint : String → String → Endpoint
  text : β → String
  noBody : β
  payment : Payment
  fetchChat : Fetch
  fetchPayout : Fetch
  fetchOther : Fetch

/-- The orchestrator, for one request. -/
def Conditions.upstream (c : Conditions β) (settings : ChatSettings) : Upstream β :=
  orchestrator settings c.engine c.runPayout c.parse c.unprocessable c.hex c.now

/-- The paid route once a payment is verified, as in `settleAndProxy`. -/
def settleTrace (upstream : String) (up : Upstream β) (settle : Settlement) (fetchChat fetchPayout : Fetch)
    (contentType : String) (body : β) : List Effect :=
  if settle.success = false then []
  else
    let served := fetchChat.deliver
      (up.chat ⟨.some (settle.transaction.getD ""), .some "verified"⟩ contentType body) (unreachable upstream)
    let proxied := .settled :: served.effects ++ [.answered served.response.status]
    if served.response.ok = false then proxied
    else
      let responseBody := readBody served.response.body
      match completionId? responseBody, truthy settle.transaction with
      | .some completionId, .some transaction =>
        proxied ++ (distribute up fetchPayout transaction completionId responseBody).2.map fun p => .paid p.1 p.2
      | _, _ => proxied

/-- The gateway, with x402 on. -/
def gatewayTrace (upstream : String) (settings : ChatSettings) (c : Conditions β) (r : ClientRequest β) : List Effect :=
  let up := c.upstream settings
  let call method path contentType body :=
    (c.fetchOther.deliver (up.serve c.text (c.endpoint method path) ⟨.none, .none⟩ contentType body)
      (unreachable upstream)).effects
  match gatewayRoute r.method r.path with
  | .preflight | .chain => []
  | .health => call "GET" "/health" "" c.noBody
  | .chat =>
    match c.payment.gate with
    | .paymentVerified => settleTrace upstream up c.payment.settle c.fetchChat c.fetchPayout
        ((truthy (r.header "content-type")).getD "application/json") r.body
    | .paymentError _ _ _ | .other _ => []
  | .proxied =>
    if r.path ++ r.query = "/health" then []
    else
      let body := if r.method = "GET" ∨ r.method = "HEAD" then c.noBody else r.body
      call r.method (r.path ++ r.query) ((r.header "content-type").getD "") body

/-! ## Calls without the gateway's marks -/

section

variable {settings : ChatSettings} (c : Conditions β)

theorem serve_unmarked (hx : settings.x402Enabled = true) (endpoint : Endpoint) (contentType : String) (body : β) :
    ((c.upstream settings).serve c.text endpoint ⟨.none, .none⟩ contentType body).effects = [] := by
  cases endpoint with
  | other response => rfl
  | chat =>
    simp only [Upstream.serve, Conditions.upstream, orchestrator]
    cases c.parse contentType body with
    | error text => rfl
    | ok request => simp [chatCompletions, hx, Served.effects]
  | payout =>
    simp only [Upstream.serve, Conditions.upstream, orchestrator, internalPayout]
    cases payoutRequest (c.text body) with
    | none => rfl
    | some requestId => simp [hx, Served.effects]

theorem deliver_effects {fetch : Fetch} {served : Served} (h : served.effects = []) (f : String → HttpResponse) :
    (fetch.deliver served f).effects = [] := by
  cases fetch with
  | answered => exact h
  | failed message handled =>
    cases handled with
    | true => exact h
    | false => rfl

theorem modelError_not_ok {request : ChatCompletionRequest} {response : HttpResponse}
    (h : modelError settings request = .some response) : response.ok = false := by
  unfold modelError at h
  split at h
  · obtain rfl := Option.some.inj h
    rfl
  · split at h
    · obtain rfl := Option.some.inj h
      rfl
    · simp at h

/-- A chat request the gateway marks `verified` is not paid by the orchestrator,
and is answered well only if its inference was started. -/
theorem chat_verified (tx : Option String) (contentType : String) (body : β) :
    ((c.upstream settings).chat ⟨tx, .some "verified"⟩ contentType body).payouts = [] ∧
      (((c.upstream settings).chat ⟨tx, .some "verified"⟩ contentType body).response.ok = true →
        ((c.upstream settings).chat ⟨tx, .some "verified"⟩ contentType body).inferred ≠ []) := by
  simp only [Conditions.upstream, orchestrator]
  cases c.parse contentType body with
  | error text => exact ⟨rfl, by simp [HttpResponse.ok]⟩
  | ok request =>
    refine ⟨payouts_of_verified c.runPayout tx c.hex c.now, ?_⟩
    have hgate : ¬ (settings.x402Enabled = true ∧ Option.some "verified" ∉ [.some "1", .some "verified"]) := by simp
    simp only [chatCompletions, if_neg hgate]
    cases hmodel : modelError settings request with
    | some response => simp [modelError_not_ok hmodel]
    | none =>
      cases request.stream with
      | true => simp
      | false => cases c.engine.generate request.messages request.sampling <;> simp

end

/-! ## The shape of a trace -/

/-- Nothing, or a settlement, what the orchestrator did and answered, and at
most one payout, after an inference that was answered well. -/
inductive Shape : List Effect → Prop
  | nothing : Shape []
  | settled {ids : List String} {status : Nat} {pays : List (String × Option String)} :
      pays.length ≤ 1 → (pays ≠ [] → (Effect.answered status).isAnsweredOk = true ∧ ids ≠ []) →
      Shape (.settled :: ids.map .inferred ++ [.answered status] ++ pays.map fun p => .paid p.1 p.2)

section

variable {settings : ChatSettings} {c : Conditions β}

theorem unreachable_ok (upstream message : String) : (unreachable upstream message).ok = false := by
  simp [unreachable, httpException, jsonResponse, HttpResponse.ok]

variable (settings c) in
/-- What is delivered of a chat request that is marked `verified`. -/
theorem delivered_verified (upstream : String) (fetch : Fetch) (tx : Option String) (contentType : String) (body : β)
    {served : Served} (h : served = fetch.deliver
      ((c.upstream settings).chat ⟨tx, .some "verified"⟩ contentType body) (unreachable upstream)) :
    served.payouts = [] ∧ (served.response.ok = true → served.inferred ≠ []) := by
  have hchat := @chat_verified β settings c tx contentType body
  generalize (c.upstream settings).chat ⟨tx, .some "verified"⟩ contentType body = answered at *
  subst h
  cases fetch with
  | answered => exact hchat
  | failed message handled =>
    have hbad := unreachable_ok upstream message
    cases handled with
    | true =>
      simp only [Fetch.deliver, hbad]
      exact ⟨hchat.1, by simp⟩
    | false =>
      simp only [Fetch.deliver, hbad]
      exact ⟨trivial, by simp⟩

/-- The gateway asks for one payout. -/
theorem distribute_length (fetch : Fetch) (transaction completionId : String) (responseBody : Json) :
    (distribute (c.upstream settings) fetch transaction completionId responseBody).2.length ≤ 1 := by
  have hpayout : ∀ headers body, ((c.upstream settings).payout headers body).payouts.length ≤ 1 := by
    intro headers body
    simp only [Conditions.upstream, orchestrator, internalPayout]
    split
    · simp
    · split <;> simp
  cases fetch with
  | answered =>
    simp only [distribute, Fetch.deliver]
    exact hpayout _ _
  | failed message handled =>
    cases handled with
    | true =>
      simp only [distribute, Fetch.deliver]
      exact hpayout _ _
    | false =>
      simp only [distribute, Fetch.deliver]
      simp

theorem settleTrace_shape (upstream : String) (settle : Settlement) (fetchChat fetchPayout : Fetch)
    (contentType : String) (body : β) :
    Shape (settleTrace upstream (c.upstream settings) settle fetchChat fetchPayout contentType body) := by
  have hdelivered := delivered_verified settings c upstream fetchChat (.some (settle.transaction.getD "")) contentType body rfl
  unfold settleTrace
  split
  · exact .nothing
  · generalize fetchChat.deliver _ _ = served at *
    obtain ⟨hpayouts, hinferred⟩ := hdelivered
    have heffects : served.effects = served.inferred.map .inferred := by simp [Served.effects, hpayouts]
    simp only [heffects]
    have hshape := @Shape.settled served.inferred served.response.status [] (by simp) (by simp)
    simp only [List.map_nil, List.append_nil] at hshape
    split
    · exact hshape
    · next hok =>
      split
      · refine .settled (distribute_length _ _ _ _) fun _ => ⟨?_, hinferred (by simpa using hok)⟩
        simpa [HttpResponse.ok, Effect.isAnsweredOk] using hok
      · exact hshape

/-- **Every trace has that shape.** -/
theorem gatewayTrace_shape (upstream : String) (hx : settings.x402Enabled = true) (r : ClientRequest β) :
    Shape (gatewayTrace upstream settings c r) := by
  have hcall : ∀ method path contentType body, (c.fetchOther.deliver ((c.upstream settings).serve c.text
      (c.endpoint method path) ⟨.none, .none⟩ contentType body) (unreachable upstream)).effects = [] :=
    fun method path contentType body => deliver_effects (serve_unmarked c hx _ contentType body) _
  simp only [gatewayTrace, hcall]
  split
  · exact .nothing
  · exact .nothing
  · exact .nothing
  · split
    · exact settleTrace_shape upstream _ _ _ _ _
    · exact .nothing
    · exact .nothing
  · split <;> exact .nothing

/-- A settlement in the trace is one that `processSettlement` answered. -/
theorem success_of_settled_mem {upstream : String} {r : ClientRequest β} (hx : settings.x402Enabled = true)
    (h : Effect.settled ∈ gatewayTrace upstream settings c r) : c.payment.settle.success = true := by
  by_contra hfailed
  have hnothing : ∀ fetchChat fetchPayout contentType body, settleTrace upstream (c.upstream settings)
      c.payment.settle fetchChat fetchPayout contentType (body : β) = [] := by
    intro fetchChat fetchPayout contentType body
    simp [settleTrace, hfailed]
  have hcall : ∀ method path contentType body, (c.fetchOther.deliver ((c.upstream settings).serve c.text
      (c.endpoint method path) ⟨.none, .none⟩ contentType body) (unreachable upstream)).effects = [] :=
    fun method path contentType body => deliver_effects (serve_unmarked c hx _ contentType body) _
  simp only [gatewayTrace, hcall, hnothing] at h
  split at h
  · simp at h
  · simp at h
  · simp at h
  · split at h <;> simp at h
  · split at h <;> simp at h

end

/-! ## The trace and the paid route -/

theorem filterMap_effects (served : Served) : served.effects.filterMap Effect.inferred? = served.inferred ∧
    served.effects.filterMap Effect.paid? = served.payouts := by
  have hid : (Effect.inferred? ∘ Effect.inferred) = .some ∧ (Effect.paid? ∘ Effect.inferred) = fun _ => .none :=
    ⟨rfl, rfl⟩
  have hpay : (Effect.inferred? ∘ fun p : String × Option String => Effect.paid p.1 p.2) = (fun _ => .none) ∧
      (Effect.paid? ∘ fun p : String × Option String => Effect.paid p.1 p.2) = .some := ⟨rfl, rfl⟩
  simp only [Served.effects, List.filterMap_append, List.filterMap_map, hid.1, hid.2, hpay.1, hpay.2]
  simp

/-- What the trace tells of a chat request is what `chatRoute` does for it. -/
theorem gatewayTrace_chat (upstream : String) (settings : ChatSettings) (c : Conditions β) {r : ClientRequest β}
    (hroute : gatewayRoute r.method r.path = .chat) :
    let served := chatRoute upstream (c.upstream settings) (.some c.payment) c.fetchChat c.fetchPayout
      (r.header "content-type") r.body
    (gatewayTrace upstream settings c r).filterMap Effect.inferred? = served.inferred ∧
      (gatewayTrace upstream settings c r).filterMap Effect.paid? = served.payouts := by
  simp only [gatewayTrace, hroute, chatRoute]
  cases c.payment.gate with
  | paymentError status contentType body => exact ⟨rfl, rfl⟩
  | other type => exact ⟨rfl, rfl⟩
  | paymentVerified =>
    simp only [settleTrace, settleAndProxy]
    split
    · exact ⟨rfl, rfl⟩
    · generalize c.fetchChat.deliver _ _ = served
      have heffects := filterMap_effects served
      have hproxied : (Effect.settled :: served.effects ++ [Effect.answered served.response.status]).filterMap
          Effect.inferred? = served.inferred ∧
          (Effect.settled :: served.effects ++ [Effect.answered served.response.status]).filterMap Effect.paid? =
            served.payouts := by
        rw [List.cons_append, List.filterMap_cons, List.filterMap_cons, List.filterMap_append, List.filterMap_append,
          heffects.1, heffects.2]
        simp [Effect.inferred?, Effect.paid?]
      split
      · exact hproxied
      · have hpays : ∀ pays : List (String × Option String),
            (pays.map fun p => Effect.paid p.1 p.2).filterMap Effect.inferred? = [] ∧
              (pays.map fun p => Effect.paid p.1 p.2).filterMap Effect.paid? = pays :=
          fun pays => filterMap_effects { response := served.response, payouts := pays }
        cases completionId? (readBody served.response.body) with
        | none => exact hproxied
        | some completionId =>
          cases truthy c.payment.settle.transaction with
          | none => exact hproxied
          | some transaction =>
            simp only [List.filterMap_append, hpays, List.append_nil]
            simp only [List.filterMap_append] at hproxied
            exact ⟨hproxied.1, by rw [hproxied.2]⟩

/-! ## What the shape says -/

namespace Shape

variable {trace : List Effect}

theorem settled_before (h : Shape trace) : Log.After (·.isInferred = true) (·.isSettled = true) trace ∧
    Log.After (·.isPaid = true) (·.isSettled = true) trace := by
  cases h with
  | nothing => exact ⟨Log.after_of_forall_not (by simp), Log.after_of_forall_not (by simp)⟩
  | settled hpays hpaid =>
    simp only [List.cons_append]
    exact ⟨@Log.after_append _ _ _ [Effect.settled] _ (by simp [Effect.isSettled]) (by simp [Effect.isInferred]),
      @Log.after_append _ _ _ [Effect.settled] _ (by simp [Effect.isSettled]) (by simp [Effect.isPaid])⟩

/-- A payout comes after all the rest of the trace. -/
theorem paid_after (h : Shape trace) : Log.After (·.isPaid = true) (·.isAnsweredOk = true) trace ∧
    Log.After (·.isPaid = true) (·.isInferred = true) trace := by
  cases h with
  | nothing => exact ⟨Log.after_of_forall_not (by simp), Log.after_of_forall_not (by simp)⟩
  | @settled ids status pays hpays hpaid =>
    have hproxied : ∀ e ∈ Effect.settled :: ids.map .inferred ++ [.answered status], ¬ e.isPaid = true := by
      intro e he
      simp only [List.cons_append, List.mem_cons, List.mem_append, List.mem_map, List.not_mem_nil, or_false] at he
      obtain rfl | ⟨id, -, rfl⟩ | rfl := he <;> simp [Effect.isPaid]
    by_cases hnone : pays = []
    · subst hnone
      simp only [List.map_nil, List.append_nil]
      exact ⟨Log.after_of_forall_not hproxied, Log.after_of_forall_not hproxied⟩
    · obtain ⟨hok, hids⟩ := hpaid hnone
      obtain ⟨id, hid⟩ := List.exists_mem_of_ne_nil ids hids
      exact ⟨Log.after_append ⟨.answered status, by simp, hok⟩ hproxied,
        Log.after_append ⟨.inferred id, by simp [hid], rfl⟩ hproxied⟩

theorem countP_le (h : Shape trace) : trace.countP Effect.isPaid ≤ 1 ∧ trace.countP Effect.isSettled ≤ 1 := by
  cases h with
  | nothing => simp
  | @settled ids status pays hpays hpaid =>
    have hids : ids.countP (Effect.isPaid ∘ Effect.inferred) = 0 ∧
        ids.countP (Effect.isSettled ∘ Effect.inferred) = 0 := by
      simp [Function.comp_def, Effect.isPaid, Effect.isSettled]
    have hpayouts : pays.countP (Effect.isSettled ∘ fun p => Effect.paid p.1 p.2) = 0 := by
      simp [Function.comp_def, Effect.isSettled]
    have hcount := @List.countP_le_length _ (Effect.isPaid ∘ fun p => Effect.paid p.1 p.2) pays
    simp only [List.countP_append, List.countP_cons, List.countP_map, List.countP_nil, hids.1, hids.2, hpayouts]
    simp only [Effect.isPaid, Effect.isSettled]
    simp
    omega

end Shape

/-! ## Every log -/

/-- The traces of the requests that were sent. -/
def traces (upstream : String) (settings : ChatSettings) (sent : List (ClientRequest β × Conditions β)) (i : ℕ) :
    List Effect :=
  match sent[i]? with
  | .some (r, c) => gatewayTrace upstream settings c r
  | .none => []

variable {settings : ChatSettings} {sent : List (ClientRequest β × Conditions β)} {log : List (ℕ × Effect)}

theorem traces_shape (upstream : String) (hx : settings.x402Enabled = true) (i : ℕ) :
    Shape (traces upstream settings sent i) := by
  unfold traces
  split
  · exact gatewayTrace_shape upstream hx _
  · exact .nothing

theorem success_of_traces {upstream : String} {i : ℕ} (hx : settings.x402Enabled = true)
    (h : Effect.settled ∈ traces upstream settings sent i) :
    ∃ s, sent[i]? = .some s ∧ s.2.payment.settle.success = true := by
  unfold traces at h
  split at h
  · next r c hsent => exact ⟨(r, c), hsent, success_of_settled_mem hx h⟩
  · simp at h

/-- **No inference and no payout without a settlement.** In every log of the
requests that were sent, an inference comes after its request's settlement, a
request is paid out at most as often as it is settled, and that is once, and a
payout comes after the request's inference was answered with success. -/
theorem trace_settled (upstream : String) (hx : settings.x402Enabled = true)
    (hlog : Log.Interleaves (traces upstream settings sent) log) :
    (∀ pre i id post, log = pre ++ (i, .inferred id) :: post →
      (i, .settled) ∈ pre ∧ ∃ s, sent[i]? = .some s ∧ s.2.payment.settle.success = true) ∧
    (∀ i, (Log.ofProcess i log).countP Effect.isPaid ≤ (Log.ofProcess i log).countP Effect.isSettled ∧
      (Log.ofProcess i log).countP Effect.isSettled ≤ 1) ∧
    ∀ pre i id tx post, log = pre ++ (i, .paid id tx) :: post →
      (∃ id', (i, .inferred id') ∈ pre) ∧
        ∃ status, (i, .answered status) ∈ pre ∧ 200 ≤ status ∧ status ≤ 299 := by
  have hshape : ∀ i, Shape (traces upstream settings sent i) := fun i => traces_shape upstream hx i
  refine ⟨?_, ?_, ?_⟩
  · intro pre i id post hsplit
    obtain ⟨e, hmem, he⟩ := hlog.after (hshape i).settled_before.1 hsplit rfl
    have hsettled : (i, Effect.settled) ∈ pre := by
      cases e with
      | settled => exact hmem
      | inferred | answered | paid => simp [Effect.isSettled] at he
    have htrace : Effect.settled ∈ Log.ofProcess i log := Log.mem_ofProcess.2 (by simp [hsplit, hsettled])
    exact ⟨hsettled, success_of_traces hx ((hlog i).sublist.mem htrace)⟩
  · intro i
    have hpaid : (Log.ofProcess i log).countP Effect.isPaid ≤ 1 :=
      le_trans (hlog.countP_le i _) (hshape i).countP_le.1
    exact ⟨((hshape i).settled_before.2.beginning (hlog i)).countP_le hpaid,
      le_trans (hlog.countP_le i _) (hshape i).countP_le.2⟩
  · intro pre i id tx post hsplit
    obtain ⟨e, hmem, he⟩ := hlog.after (hshape i).paid_after.1 hsplit rfl
    obtain ⟨e', hmem', he'⟩ := hlog.after (hshape i).paid_after.2 hsplit rfl
    constructor
    · cases e' with
      | inferred id' => exact ⟨id', hmem'⟩
      | settled | answered | paid => simp [Effect.isInferred] at he'
    · cases e with
      | answered status => exact ⟨status, hmem, by simpa [Effect.isAnsweredOk] using he⟩
      | settled | inferred | paid => simp [Effect.isAnsweredOk] at he

/-! ## A paid request and a forged one -/

/-- Both reach the orchestrator, and both carry its marks. -/
def conditions : Conditions String where
  engine := greeting
  runPayout := fun _ _ => .ok (.some (.obj []))
  parse := readChatBody
  unprocessable := ""
  hex := drawn
  now := 1700000000
  endpoint method path :=
    if method = "POST" ∧ path = "/v1/internal/payout" then .payout
    else if method = "POST" ∧ path = "/v1/chat/completions" then .chat
    else .other ⟨404, "application/json", ""⟩
  text := id
  noBody := ""
  payment := settled
  fetchChat := .answered
  fetchPayout := .answered
  fetchOther := .answered

def marks : List (String × String) :=
  [("Content-Type", "application/json"), ("X-Blitzwing-Paid", "1"), ("X-Blitzwing-X402-Tx-Id", "0.0.1@1.000000001")]

def paidRequest : ClientRequest String := ⟨"POST", "/v1/chat/completions", "", marks, (chatBody false).render⟩

def forgedRequest : ClientRequest String :=
  ⟨"POST", "/v1/internal/payout", "", marks, (Json.obj [("request_id", .str (newCompletionId drawn))]).render⟩

/-- The two requests, one after the other. -/
def twoRequests : List (ℕ × Effect) :=
  (gatewayTrace "http://127.0.0.1:8002" ⟨"m", true, 180⟩ conditions paidRequest).map (0, ·) ++
    (gatewayTrace "http://127.0.0.1:8002" ⟨"m", true, 180⟩ conditions forgedRequest).map (1, ·)

theorem twoRequests_interleaves : Log.Interleaves (traces "http://127.0.0.1:8002" ⟨"m", true, 180⟩
    [(paidRequest, conditions), (forgedRequest, conditions)]) twoRequests := by
  intro i
  simp only [twoRequests, Log.ofProcess_append, Log.ofProcess_map]
  match i with
  | 0 => simp [traces]
  | 1 => simp [traces]
  | i + 2 => simp

theorem paid_mem_twoRequests :
    (0, .paid (newCompletionId drawn) (.some "0.0.1234@1700000000.000000001")) ∈ twoRequests := by
  have hroute : gatewayRoute paidRequest.method paidRequest.path = .chat := by decide
  obtain ⟨-, hpaid⟩ := gatewayTrace_chat "http://127.0.0.1:8002" ⟨"m", true, 180⟩ conditions hroute
  have hsettled := chatRoute_settled "http://127.0.0.1:8002" conditions.runPayout "" drawn 1700000000 rfl rfl
    truthy_settled (readChatBody_chatBody ((truthy (paidRequest.header "content-type")).getD "application/json") false)
    (completes_greeting false)
  have hmem : (newCompletionId drawn, .some "0.0.1234@1700000000.000000001") ∈
      (gatewayTrace "http://127.0.0.1:8002" ⟨"m", true, 180⟩ conditions paidRequest).filterMap Effect.paid? := by
    rw [hpaid]
    exact hsettled.2.2 ▸ List.mem_singleton.2 rfl
  obtain ⟨e, he, heq⟩ := List.mem_filterMap.1 hmem
  have hpayout : e = .paid (newCompletionId drawn) (.some "0.0.1234@1700000000.000000001") := by
    cases e with
    | paid id tx => simpa [Effect.paid?] using heq
    | settled | inferred | answered => simp [Effect.paid?] at heq
  simp only [twoRequests, List.mem_append, List.mem_map]
  exact .inl ⟨e, he, by rw [hpayout]⟩

theorem trace_settled_twoRequests :
    (∃ pre post, twoRequests =
      pre ++ (0, .paid (newCompletionId drawn) (.some "0.0.1234@1700000000.000000001")) :: post ∧
        ∃ status, (0, .answered status) ∈ pre ∧ 200 ≤ status ∧ status ≤ 299) ∧
      (Log.ofProcess 1 twoRequests).countP Effect.isPaid ≤ (Log.ofProcess 1 twoRequests).countP Effect.isSettled := by
  obtain ⟨pre, post, hsplit⟩ := List.append_of_mem paid_mem_twoRequests
  obtain ⟨-, hcount, hpaid⟩ := trace_settled "http://127.0.0.1:8002" rfl twoRequests_interleaves
  exact ⟨⟨pre, post, hsplit, (hpaid pre 0 _ _ post hsplit).2⟩, (hcount 1).1⟩

end Blitzwing
