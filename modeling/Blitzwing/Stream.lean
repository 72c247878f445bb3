/-
`_paid_stream` and `_stream_sse`, with the thread that runs the engine.

The engine's thread puts pieces and then how it ended into a queue, the
response's generator takes them out, sends them as events, waits for the
thread and runs the payout. Each side takes its steps when it can, in any
order (`streamMachine`); whatever the order, a stream that is closed has sent
the events of `streamSse` and paid what `chatCompletions` says (`closed_served`),
and every stream can be closed from wherever it is (`progress`).

An engine that raises is one more last item in the queue, so the payout comes
after it as well. `payouts_iff_completes` says when that matters.
-/
import Blitzwing.Chat
import Blitzwing.Lib.Machine

namespace Blitzwing

/-- What the thread puts in the queue. -/
inductive StreamItem
  | delta (piece : String)
  | done (result : Option GenerationResult)
  | error (msg : String)
deriving DecidableEq, Repr

inductive Producer
  | idle
  | yielding (pieces : List String) (ending : StreamEnd)
  /-- Its last item is in the queue. -/
  | finishing
  | returned
deriving DecidableEq, Repr

inductive Consumer
  | start
  | waiting
  /-- `await producer`; what is left to send is a last chunk, unless an error was. -/
  | joining (finishReason : Option String)
  | paying
  | closed
deriving DecidableEq, Repr

/-- A stream in progress. -/
structure PaidStream where
  producer : Producer := .idle
  queue : List StreamItem := []
  consumer : Consumer := .start
  sent : List String := []
  payouts : List (String × Option String) := []
deriving DecidableEq, Repr

/-- What `_paid_stream` closes over, and what the engine will do. -/
structure StreamCall where
  completionId : String
  created : Int
  model : String
  x402TxId : Option String
  runPayout : Bool
  pieces : List String
  ending : StreamEnd

inductive StreamAction
  | produce
  | consume
deriving DecidableEq, Repr

namespace StreamCall

variable (c : StreamCall)

def chunk (role content finishReason : Option String) : String :=
  event (completionChunk c.completionId c.created c.model role content finishReason)

/-- The last item of `_producer`. -/
def lastItem : StreamEnd → StreamItem
  | .ok result => .done result
  | .error msg => .error msg

/-- One step of `_producer`. -/
def produce (s : PaidStream) : Option PaidStream :=
  match s.producer with
  | .idle | .returned => .none
  | .yielding (piece :: pieces) ending =>
    .some { s with producer := .yielding pieces ending, queue := s.queue ++ [.delta piece] }
  | .yielding [] ending => .some { s with producer := .finishing, queue := s.queue ++ [lastItem ending] }
  | .finishing => .some { s with producer := .returned }

/-- One step of `_paid_stream`, from one `yield` or `await` to the next. -/
def consume (s : PaidStream) : Option PaidStream :=
  match s.consumer, s.queue with
  | .start, _ =>
    .some { s with consumer := .waiting, producer := .yielding c.pieces c.ending
                   sent := s.sent ++ [c.chunk (.some "assistant") (.some "") .none] }
  | .waiting, [] => .none
  | .waiting, .delta piece :: queue =>
    .some { s with queue, sent := s.sent ++ [c.chunk .none (.some piece) .none] }
  | .waiting, .done result :: queue =>
    .some { s with queue, consumer := .joining (.some ((result.map (·.finishReason)).getD "stop")) }
  | .waiting, .error msg :: queue =>
    .some { s with queue, consumer := .joining .none
                   sent := s.sent ++ [c.chunk .none (.some ("\n\n[error] " ++ msg)) (.some "stop"), doneEvent] }
  | .joining finishReason, _ =>
    if s.producer ≠ .returned then .none
    else
      let last := match finishReason with
        | .some reason => [c.chunk .none .none (.some reason), doneEvent]
        | .none => []
      .some { s with consumer := .paying, sent := s.sent ++ last }
  | .paying, _ =>
    .some { s with consumer := .closed
                   payouts := s.payouts ++ if c.runPayout then [(c.completionId, c.x402TxId)] else [] }
  | .closed, _ => .none

def step (s : PaidStream) : StreamAction → Option PaidStream
  | .produce => produce s
  | .consume => c.consume s

end StreamCall

/-- The thread and the generator, in any order. -/
def streamMachine (c : StreamCall) : Machine PaidStream StreamAction where
  step := c.step

/-- Any step is allowed. -/
def anyStep : PaidStream → StreamAction → Prop := fun _ _ => True

/-! ## What is still to be sent -/

namespace StreamCall

variable (c : StreamCall)

/-- What the generator sends for items it takes out. -/
def eventsOf : List StreamItem → List String
  | [] => []
  | .delta piece :: items => c.chunk .none (.some piece) .none :: eventsOf items
  | .done result :: _ => [c.chunk .none .none (.some ((result.map (·.finishReason)).getD "stop")), doneEvent]
  | .error msg :: _ => [c.chunk .none (.some ("\n\n[error] " ++ msg)) (.some "stop"), doneEvent]

/-- What the thread has still to put in the queue. -/
def toCome : Producer → List StreamItem
  | .idle | .finishing | .returned => []
  | .yielding pieces ending => pieces.map .delta ++ [lastItem ending]

/-- All items of the engine's run. -/
def items : List StreamItem := c.pieces.map .delta ++ [lastItem c.ending]

/-- All events of the stream. -/
def events : List String := c.chunk (.some "assistant") (.some "") .none :: c.eventsOf c.items

/-- What the generator has still to send, with these items before it. -/
def leftFor : Consumer → List StreamItem → List String
  | .start, _ => c.events
  | .waiting, items => c.eventsOf items
  | .joining (.some reason), _ => [c.chunk .none .none (.some reason), doneEvent]
  | .joining .none, _ | .paying, _ | .closed, _ => []

/-- The items the generator has not taken out. -/
def itemsLeft (s : PaidStream) : List StreamItem := s.queue ++ toCome s.producer

/-- The text of the stream. -/
theorem join_events : .join c.events = streamSse c.completionId c.created c.model c.pieces c.ending := by
  have hitems : ∀ (pieces : List String) (ending : StreamEnd), String.join (c.eventsOf (pieces.map .delta ++ [lastItem ending])) =
      .join (pieces.map fun piece => c.chunk .none (.some piece) .none) ++ .join (c.eventsOf [lastItem ending]) := by
    intro pieces ending
    induction pieces with
    | nil => simp [String.join]
    | cons piece pieces ih =>
      simp only [List.map_cons, List.cons_append, eventsOf, String.join_cons, ih, String.append_assoc]
  simp only [events, items, String.join_cons, hitems, streamSse, chunk]
  cases c.ending <;> simp [lastItem, eventsOf, chunk, String.append_assoc]

/-- Pieces, and then how it ended. -/
def Complete (items : List StreamItem) : Prop :=
  ∃ (pieces : List String) (ending : StreamEnd), items = pieces.map .delta ++ [lastItem ending]

/-- What holds of a stream at each step. -/
structure Running (s : PaidStream) : Prop where
  text : s.sent ++ c.leftFor s.consumer (itemsLeft s) = c.events
  started : s.consumer ≠ .start → s.producer ≠ .idle
  ends : s.consumer = .waiting → Complete (itemsLeft s)
  fresh : s.consumer = .start → s.producer = .idle ∧ s.queue = []
  paid : s.payouts = if s.consumer = .closed ∧ c.runPayout = true then [(c.completionId, c.x402TxId)] else []

variable {c} {s s' : PaidStream}

theorem running_start : c.Running {} where
  text := rfl
  started := by simp
  ends := by simp
  fresh := fun _ => ⟨rfl, rfl⟩
  paid := rfl

/-- The steps a thread still takes. -/
def threadSteps : Producer → Nat
  | .idle | .returned => 0
  | .finishing => 1
  | .yielding pieces _ => pieces.length + 2

/-- The thread moves its items into the queue, and nothing else changes. -/
theorem produce_cases (h : produce s = .some s') : ∃ producer queue, s' = { s with producer, queue } ∧
    itemsLeft s' = itemsLeft s ∧ threadSteps producer < threadSteps s.producer ∧ producer ≠ .idle := by
  unfold produce at h
  split at h
  · simp at h
  · simp at h
  · next piece pieces ending hp =>
    obtain rfl := Option.some.inj h
    exact ⟨_, _, rfl, by simp [hp, toCome, itemsLeft], by simp [hp, threadSteps], by simp⟩
  · next ending hp =>
    obtain rfl := Option.some.inj h
    exact ⟨_, _, rfl, by simp [hp, toCome, itemsLeft], by simp [hp, threadSteps], by simp⟩
  · next hp =>
    obtain rfl := Option.some.inj h
    exact ⟨_, s.queue, rfl, by simp [hp, toCome, itemsLeft], by simp [hp, threadSteps], by simp⟩

theorem Running.produce (hs : c.Running s) (h : produce s = .some s') : c.Running s' := by
  obtain ⟨producer, queue, rfl, hitems, hsteps, hidle⟩ := produce_cases h
  have hstart : s.consumer ≠ .start := by
    intro hc
    simp [(hs.fresh hc).1, threadSteps] at hsteps
  exact {
    text := by
      rw [hitems]
      exact hs.text
    started := fun _ => hidle
    ends := fun hc => by
      rw [hitems]
      exact hs.ends hc
    fresh := fun hc => absurd hc hstart
    paid := hs.paid }

theorem Complete.tail {piece : String} {items : List StreamItem} (h : Complete (.delta piece :: items)) :
    Complete items := by
  obtain ⟨pieces, ending, h⟩ := h
  cases pieces with
  | nil => cases ending <;> simp [lastItem] at h
  | cons piece' pieces => exact ⟨pieces, ending, (List.cons.inj h).2⟩

theorem Running.consume (hs : c.Running s) (h : c.consume s = .some s') : c.Running s' := by
  have htext := hs.text
  have hpaid := hs.paid
  unfold StreamCall.consume at h
  split at h
  · next hc =>
    obtain ⟨hp, hq⟩ := hs.fresh hc
    obtain rfl := Option.some.inj h
    simp only [hc, leftFor, events] at htext
    exact {
      text := by
        simp only [leftFor, itemsLeft, hq, toCome, List.nil_append, List.append_assoc, List.singleton_append]
        exact htext
      started := by simp
      ends := fun _ => ⟨c.pieces, c.ending, by simp [itemsLeft, hq, toCome]⟩
      fresh := by simp
      paid := by simpa [hc] using hpaid }
  · simp at h
  · next piece queue hc hq =>
    obtain rfl := Option.some.inj h
    have hends := hs.ends hc
    simp only [hc, leftFor, itemsLeft, hq, List.cons_append, eventsOf] at htext
    simp only [itemsLeft, hq, List.cons_append] at hends
    exact {
      text := by
        simp only [hc, leftFor, itemsLeft, List.append_assoc, List.singleton_append]
        exact htext
      started := fun _ => hs.started (by simp [hc])
      ends := fun _ => hends.tail
      fresh := by simp [hc]
      paid := by simpa [hc] using hpaid }
  · next result queue hc hq =>
    obtain rfl := Option.some.inj h
    simp only [hc, leftFor, itemsLeft, hq, List.cons_append, eventsOf] at htext
    exact {
      text := by
        simp only [leftFor]
        exact htext
      started := fun _ => hs.started (by simp [hc])
      ends := by simp
      fresh := by simp
      paid := by simpa [hc] using hpaid }
  · next msg queue hc hq =>
    obtain rfl := Option.some.inj h
    simp only [hc, leftFor, itemsLeft, hq, List.cons_append, eventsOf] at htext
    exact {
      text := by
        simp only [leftFor, List.append_nil]
        exact htext
      started := fun _ => hs.started (by simp [hc])
      ends := by simp
      fresh := by simp
      paid := by simpa [hc] using hpaid }
  · next reason hc =>
    split at h
    · simp at h
    · obtain rfl := Option.some.inj h
      exact {
        text := by
          simp only [leftFor, List.append_nil]
          rw [hc] at htext
          cases reason <;> simpa [leftFor] using htext
        started := fun _ => hs.started (by simp [hc])
        ends := by simp
        fresh := by simp
        paid := by simpa [hc] using hpaid }
  · next hc =>
    obtain rfl := Option.some.inj h
    exact {
      text := by simpa [hc, leftFor] using htext
      started := fun _ => hs.started (by simp [hc])
      ends := by simp
      fresh := by simp
      paid := by
        simp only [hpaid, hc, true_and, reduceCtorEq, false_and, if_false, List.nil_append] }
  · simp at h

theorem running_of_reaches (h : (streamMachine c).Reaches anyStep {} s) : c.Running s := by
  refine h.invariant running_start ?_
  intro s a s' hs _ hstep
  cases a with
  | produce => exact hs.produce hstep
  | consume => exact hs.consume hstep

/-! ## Every stream can be closed -/

/-- A stream that is not closed has a step. -/
theorem Running.progress (hs : c.Running s) : s.consumer = .closed ∨ ∃ a s', c.step s a = .some s' := by
  -- While the thread is not back, it has a step.
  have hthread : s.producer ≠ .idle → s.producer ≠ .returned → ∃ a s', c.step s a = .some s' := by
    intro hidle hreturned
    refine ⟨.produce, ?_⟩
    cases hp : s.producer with
    | idle => exact absurd hp hidle
    | returned => exact absurd hp hreturned
    | finishing => exact ⟨_, by simp only [step, StreamCall.produce, hp]; rfl⟩
    | yielding pieces ending => cases pieces <;> exact ⟨_, by simp only [step, StreamCall.produce, hp]; rfl⟩
  cases hc : s.consumer with
  | closed => exact .inl rfl
  | start => exact .inr ⟨.consume, _, by simp only [step, StreamCall.consume, hc]; rfl⟩
  | paying => exact .inr ⟨.consume, _, by simp only [step, StreamCall.consume, hc]; rfl⟩
  | waiting =>
    right
    cases hq : s.queue with
    | nil =>
      -- What is still to come is with the thread.
      obtain ⟨pieces, ending, hitems⟩ := hs.ends hc
      refine hthread (hs.started (by simp [hc])) fun hp => ?_
      simp [itemsLeft, hq, hp, toCome] at hitems
    | cons item queue =>
      refine ⟨.consume, ?_⟩
      cases item <;> exact ⟨_, by simp only [step, StreamCall.consume, hc, hq]; rfl⟩
  | joining reason =>
    right
    by_cases hp : s.producer = .returned
    · exact ⟨.consume, _, by simp only [step, StreamCall.consume, hc, hp, ne_eq, not_true_eq_false, if_false]; rfl⟩
    · exact hthread (hs.started (by simp [hc])) hp

/-- The steps a generator still takes, with so many items before it, and at the
start its thread's as well. -/
def generatorSteps (c : StreamCall) : Consumer → Nat → Nat
  | .start, _ => 2 * c.pieces.length + 6
  | .waiting, n => n + 2
  | .joining _, _ => 2
  | .paying, _ => 1
  | .closed, _ => 0

/-- At least as many steps as a stream still takes. -/
def stepsLeft (c : StreamCall) (s : PaidStream) : Nat :=
  threadSteps s.producer + c.generatorSteps s.consumer (itemsLeft s).length

theorem Running.stepsLeft_lt (hs : c.Running s) {a : StreamAction} (h : c.step s a = .some s') :
    c.stepsLeft s' < c.stepsLeft s := by
  cases a with
  | produce =>
    obtain ⟨producer, queue, rfl, hitems, hsteps, -⟩ := produce_cases h
    rw [stepsLeft, stepsLeft, hitems]
    exact Nat.add_lt_add_right hsteps _
  | consume =>
    have h : c.consume s = .some s' := h
    unfold StreamCall.consume at h
    split at h
    · next hc =>
      obtain ⟨hp, hq⟩ := hs.fresh hc
      obtain rfl := Option.some.inj h
      simp [stepsLeft, generatorSteps, threadSteps, itemsLeft, toCome, hc, hp, hq]
      omega
    · simp at h
    · next hc hq =>
      obtain rfl := Option.some.inj h
      simp [stepsLeft, generatorSteps, itemsLeft, hc, hq]
    · next hc hq =>
      obtain rfl := Option.some.inj h
      simp [stepsLeft, generatorSteps, itemsLeft, hc, hq]
    · next hc hq =>
      obtain rfl := Option.some.inj h
      simp [stepsLeft, generatorSteps, itemsLeft, hc, hq]
    · next hc =>
      split at h
      · simp at h
      · obtain rfl := Option.some.inj h
        simp [stepsLeft, generatorSteps, hc]
    · next hc =>
      obtain rfl := Option.some.inj h
      simp [stepsLeft, generatorSteps, hc]
    · simp at h

/-- From wherever a stream is, it can be closed, and it cannot go on for ever. -/
theorem Running.closes (hs : c.Running s) : ∃ t, (streamMachine c).Reaches anyStep s t ∧ t.consumer = .closed := by
  induction hn : c.stepsLeft s using Nat.strongRecOn generalizing s with
  | ind n ih =>
    rcases hs.progress with hclosed | ⟨a, s', hstep⟩
    · exact ⟨s, .refl, hclosed⟩
    · have hs' : c.Running s' := by
        cases a with
        | produce => exact hs.produce hstep
        | consume => exact hs.consume hstep
      obtain ⟨t, hreaches, hclosed⟩ := ih _ (hn ▸ hs.stepsLeft_lt hstep) hs' rfl
      exact ⟨t, Machine.Reaches.trans (.step .refl trivial hstep) hreaches, hclosed⟩

end StreamCall

/-! ## Whole requests -/

/-- What a closed stream was, as the answer to a request. -/
def StreamCall.served (c : StreamCall) (s : PaidStream) : Served where
  response := ⟨200, "text/event-stream; charset=utf-8", .join s.sent⟩
  inferred := [c.completionId]
  payouts := s.payouts

section

variable (settings : ChatSettings) (engine : Engine) (runPayout : RunPayout) (headers : PaidHeaders) (hex : String)
  (now : Int) (request : ChatCompletionRequest)

/-- The request gets as far as its stream. -/
def Streams : Prop :=
  ¬ (settings.x402Enabled ∧ headers.blitzwingPaid ∉ [.some "1", .some "verified"]) ∧
    modelError settings request = .none ∧ request.stream = true

def streamCall : StreamCall where
  completionId := newCompletionId hex
  created := now
  model := settings.modelName
  x402TxId := headers.x402TxId
  runPayout := settings.x402Enabled ∧ headers.blitzwingPaid = .some "1"
  pieces := (engine.streamGenerate request.messages request.sampling).1
  ending := (engine.streamGenerate request.messages request.sampling).2

/-- What `chat_completions` can make of a request: a stream comes to an end in
any order of its steps, everything else is answered in one piece. -/
inductive ChatAnswers : Served → Prop
  | whole : ¬ Streams settings headers request →
      ChatAnswers (chatCompletions settings engine runPayout headers hex now request)
  | stream {s} : Streams settings headers request →
      (streamMachine (streamCall settings engine headers hex now request)).Reaches anyStep {} s → s.consumer = .closed →
      ChatAnswers ((streamCall settings engine headers hex now request).served s)

variable {settings engine runPayout headers hex now request}

/-- **The order does not matter.** Every stream that is closed has sent and paid
what `chatCompletions` says, and there is one. -/
theorem chatAnswers_iff {served : Served} : ChatAnswers settings engine runPayout headers hex now request served ↔
    served = chatCompletions settings engine runPayout headers hex now request := by
  have hclosed : ∀ {s}, Streams settings headers request →
      (streamMachine (streamCall settings engine headers hex now request)).Reaches anyStep {} s →
      s.consumer = .closed → (streamCall settings engine headers hex now request).served s =
        chatCompletions settings engine runPayout headers hex now request := by
    intro s hstreams hreaches hclosed
    have hs := StreamCall.running_of_reaches hreaches
    obtain ⟨hgate, hmodel, hstream⟩ := hstreams
    have hsent : s.sent = (streamCall settings engine headers hex now request).events := by
      simpa [hclosed, StreamCall.leftFor] using hs.text
    have hpaid := hs.paid
    simp only [hclosed, true_and] at hpaid
    simp only [StreamCall.served, hsent, StreamCall.join_events, hpaid, chatCompletions, if_neg hgate, hmodel, hstream,
      if_true, streamCall, decide_eq_true_eq]
  constructor
  · intro h
    cases h with
    | whole => rfl
    | stream hstreams hreaches hc => exact hclosed hstreams hreaches hc
  · intro h
    subst h
    by_cases hstreams : Streams settings headers request
    · obtain ⟨s, hreaches, hc⟩ := (StreamCall.running_start (c := streamCall settings engine headers hex now request)).closes
      rw [← hclosed hstreams hreaches hc]
      exact .stream hstreams hreaches hc
    · exact .whole hstreams

/-- **Paid for what succeeded.** A chat request marked `1` is paid exactly where
its inference completes, unless x402 is on and the engine fails in a stream, or
x402 is off and the inference completes. -/
theorem payouts_iff_completes {tx : Option String} {served : Served}
    (h : ChatAnswers settings engine runPayout ⟨tx, .some "1"⟩ hex now request served) :
    (served.payouts ≠ [] ↔ Completes settings engine request) ↔
      if settings.x402Enabled then
        ¬ (modelError settings request = .none ∧ request.stream = true ∧
          ∃ msg, (engine.streamGenerate request.messages request.sampling).2 = .error msg)
      else ¬ Completes settings engine request := by
  obtain rfl := chatAnswers_iff.1 h
  have hgate : ¬ (settings.x402Enabled = true ∧ Option.some "1" ∉ [.some "1", .some "verified"]) := by simp
  simp only [chatCompletions, if_neg hgate, Completes]
  cases hmodel : modelError settings request with
  | some response => simp
  | none =>
    cases hstream : request.stream with
    | true =>
      cases hending : (engine.streamGenerate request.messages request.sampling).2 with
      | ok result => cases settings.x402Enabled <;> simp
      | error msg => cases settings.x402Enabled <;> simp
    | false =>
      cases hresult : engine.generate request.messages request.sampling with
      | ok result => cases settings.x402Enabled <;> simp
      | error e => cases settings.x402Enabled <;> simp

end

/-! ### An engine that fails after a piece -/

def paidSettings : ChatSettings where
  modelName := "m"
  x402Enabled := true

def streamRequest : ChatCompletionRequest where
  model := "m"
  messages := [⟨"user", "Hi"⟩]
  stream := true

def brokenEngine : Engine where
  generate := fun _ _ => .error (.missingBlocks "Missing blocks: [3]")
  streamGenerate := fun _ _ => (["Hel"], .error "Missing blocks: [3]")

def streamId : String := "0123456789abcdef0123456789abcdef"

/-- The hosts are paid for a stream that broke off. -/
theorem paid_for_broken_stream :
    (∃ served, ChatAnswers paidSettings brokenEngine (fun _ _ => .ok .none) ⟨.some "0.0.9@1.2", .some "1"⟩ streamId 0
      streamRequest served ∧ served.payouts = [("chatcmpl-0123456789abcdef01234567", .some "0.0.9@1.2")]) ∧
    ¬ Completes paidSettings brokenEngine streamRequest := by
  constructor
  · obtain ⟨s, hrun, hclosed, hpayouts⟩ : ∃ s, (streamMachine (streamCall paidSettings brokenEngine
        ⟨.some "0.0.9@1.2", .some "1"⟩ streamId 0 streamRequest)).run {}
          [.consume, .produce, .consume, .produce, .produce, .consume, .consume, .consume] = .some s ∧
        s.consumer = .closed ∧ s.payouts = [("chatcmpl-0123456789abcdef01234567", .some "0.0.9@1.2")] := ⟨_, rfl, rfl, rfl⟩
    exact ⟨_, .stream ⟨by decide, rfl, rfl⟩ (Machine.Reaches.of_run (fun _ _ _ => trivial) hrun) hclosed, hpayouts⟩
  · intro hc
    obtain ⟨_, result, hresult⟩ := hc
    simp [brokenEngine] at hresult

/-- Asked for in one piece, the same failure is answered 503 and not paid. -/
theorem payouts_iff_completes_whole :
    let request : ChatCompletionRequest := { streamRequest with stream := false }
    let served := chatCompletions paidSettings brokenEngine (fun _ _ => .ok .none) ⟨.none, .some "1"⟩ streamId 0 request
    (served.payouts ≠ [] ↔ Completes paidSettings brokenEngine request) ↔
      ¬ (modelError paidSettings request = .none ∧ request.stream = true ∧
        ∃ msg, (brokenEngine.streamGenerate request.messages request.sampling).2 = .error msg) :=
  payouts_iff_completes (.whole fun h => by simp [Streams] at h)

end Blitzwing
