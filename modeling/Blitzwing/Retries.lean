/-
A stream that is retried, against the one generation it should be.

The pieces of the first attempt are with the client when it fails, the retry
starts from the first token, and `stream_generate` yields it all
(`streamGenerate_of_retry`). Neither `yield from` is returned, so no stream ends
with the `GenerationResult` it was to end with (`stream_not_one_generation`), and
the SSE layer says `stop` of every one that completes.
-/
import Blitzwing.Generation

namespace Blitzwing

variable {S : Type} [Zero S] [LE S] [DecidableLE S] {settings : EngineSettings} {client : PetalsClient S}
  {args : GenerateArgs S}

/-! ## One attempt -/

theorem relay_eq (rest pieces : List String) : relay rest pieces = ⟨rest, .ok (pieces ++ rest)⟩ := by
  induction rest generalizing pieces with
  | nil => rw [List.append_nil]; rfl
  | cons piece rest ih => rw [relay, Gen.yield_bind, ih, List.append_assoc, List.singleton_append]

/-- What the streamer delivers to an attempt, and what its thread raises. -/
def delivered (settings : EngineSettings) (client : PetalsClient S) (args : GenerateArgs S) (inputIds : List Nat) :
    List String × Option EngineError :=
  client.stream inputIds (generationKwargs client args.temperature args.topP (capMaxTokens settings args.maxTokens))

/-- An attempt yields what the streamer delivers, and ends as its thread does. -/
theorem streamGenerateOnce_eq {inputIds : List Nat} (hids : inputIdsOf client args.messages = .ok inputIds) :
    streamGenerateOnce settings (.ok client) args = ⟨(delivered settings client args inputIds).1,
      match (delivered settings client args inputIds).2 with
      | .some e => .error e
      | .none =>
        let text := String.join (delivered settings client args inputIds).1
        .ok ⟨text, inputIds.length, client.plainTokens text,
          finishReasonOf (client.plainTokens text) (capMaxTokens settings args.maxTokens)⟩⟩ := by
  have hclient : streamGenerateOnce settings (.ok client) args =
      (liftM (inputIdsOf client args.messages) : Gen String EngineError _) >>= fun inputIds =>
        relay (delivered settings client args inputIds).1 [] >>= fun pieces =>
          match (delivered settings client args inputIds).2 with
          | .some e => throw e
          | .none => pure ⟨String.join pieces, inputIds.length, client.plainTokens (String.join pieces),
              finishReasonOf (client.plainTokens (String.join pieces)) (capMaxTokens settings args.maxTokens)⟩ := by
    rw [streamGenerateOnce, Gen.bind_of_ok rfl]
    rfl
  rw [hclient, hids, Gen.bind_of_ok rfl, Gen.bind_of_ok (by rw [relay_eq])]
  simp only [relay_eq, Gen.yielded_lift, List.nil_append]
  cases (delivered settings client args inputIds).2 with
  | some e => simp
  | none => simp

/-- An attempt that completes has a client, and a prompt it can read. -/
theorem loaded_of_streamGenerateOnce {loaded : Except EngineError (PetalsClient S)} {result : GenerationResult}
    (h : (streamGenerateOnce settings loaded args).outcome = .ok result) :
    ∃ client inputIds, loaded = .ok client ∧ inputIdsOf client args.messages = .ok inputIds := by
  obtain ⟨client, hclient, hrest⟩ := Gen.bind_outcome_ok.1 h
  obtain ⟨inputIds, hids, -⟩ := Gen.bind_outcome_ok.1 hrest
  exact ⟨client, inputIds, hclient, hids⟩

/-- **An attempt that completes** ends with the text it yielded. -/
theorem text_of_streamGenerateOnce {loaded : Except EngineError (PetalsClient S)} {result : GenerationResult}
    (h : (streamGenerateOnce settings loaded args).outcome = .ok result) :
    result.text = String.join (streamGenerateOnce settings loaded args).yielded := by
  obtain ⟨client, inputIds, rfl, hids⟩ := loaded_of_streamGenerateOnce h
  rw [streamGenerateOnce_eq hids] at h ⊢
  simp only at h
  split at h
  · cases h
  · obtain rfl := Except.ok.inj h
    rfl

/-! ## Retried -/

namespace GenerationEngine

variable {engine : GenerationEngine S}

/-- The attempt on the client that is loaded, and the one after a reload. -/
def firstAttempt (engine : GenerationEngine S) (args : GenerateArgs S) : Gen String EngineError GenerationResult :=
  streamGenerateOnce engine.settings engine.loaded args

def secondAttempt (engine : GenerationEngine S) (args : GenerateArgs S) : Gen String EngineError GenerationResult :=
  streamGenerateOnce engine.settings engine.reloaded args

/-- What the caller is given is the text of one generation, and of the result returned. -/
def OneGeneration (engine : GenerationEngine S) (args : GenerateArgs S) : Prop :=
  ∃ result, (engine.streamGenerate args).outcome = .ok (.some result) ∧
    String.join (engine.streamGenerate args).yielded = result.text ∧
    ∃ attempt ∈ [engine.firstAttempt args, engine.secondAttempt args],
      String.join (engine.streamGenerate args).yielded = String.join attempt.yielded

/-- The attempt's value is dropped. -/
theorem dropped {x : Gen String EngineError GenerationResult} {result : GenerationResult} (h : x.outcome = .ok result) :
    (x >>= fun _ => pure .none : Gen String EngineError (Option GenerationResult)) = ⟨x.yielded, .ok .none⟩ := by
  rw [Gen.bind_of_ok h, Gen.yielded_pure, List.append_nil, Gen.outcome_pure]

/-- **No stream ends with a result**, whatever the attempts do. -/
theorem streamGenerate_value {result : Option GenerationResult} (h : (engine.streamGenerate args).outcome = .ok result) :
    result = .none := by
  have hdrop : ∀ (x : Gen String EngineError GenerationResult) (b : Option GenerationResult),
      (x >>= fun _ => pure .none : Gen String EngineError (Option GenerationResult)).outcome = .ok b → b = .none := by
    intro x b hx
    obtain ⟨_, -, hb⟩ := Gen.bind_outcome_ok.1 hx
    exact (Except.ok.inj hb).symm
  refine Gen.tryCatch_values (P := (· = .none)) (hdrop _) ?_ h
  intro e b he
  cases e with
  | missingBlocks msg =>
    obtain ⟨client, -, hretry⟩ := Gen.bind_outcome_ok.1 he
    refine Gen.tryCatch_values (P := (· = .none)) (hdrop _) ?_ hretry
    intro e' b' he'
    cases e' <;> cases he'
  | missingBlocksService msg | httpInference msg | other msg => cases he

/-- **A retry that completes** comes after what the first attempt yielded. -/
theorem streamGenerate_of_retry {msg : String} {result : GenerationResult}
    (hfirst : (engine.firstAttempt args).outcome = .error (.missingBlocks msg))
    (hsecond : (engine.secondAttempt args).outcome = .ok result) :
    engine.streamGenerate args = ⟨(engine.firstAttempt args).yielded ++ (engine.secondAttempt args).yielded, .ok .none⟩ := by
  obtain ⟨client, -, hreloaded, -⟩ := loaded_of_streamGenerateOnce hsecond
  rw [secondAttempt, hreloaded] at hsecond ⊢
  have hretry := dropped hsecond
  have hfail : (engine.firstAttempt args >>= fun _ => pure .none : Gen String EngineError (Option GenerationResult)) =
      ⟨(engine.firstAttempt args).yielded, .error (.missingBlocks msg)⟩ := Gen.bind_of_error hfirst _
  rw [streamGenerate, ← firstAttempt, hfail, Gen.tryCatch_of_error rfl, hreloaded]
  simp only
  rw [Gen.bind_of_ok rfl, hretry, Gen.tryCatch_of_ok rfl]
  rfl

/-- A retried stream is the retry's text exactly if the first attempt yielded none. -/
theorem join_of_retry_iff {msg : String} {result : GenerationResult}
    (hfirst : (engine.firstAttempt args).outcome = .error (.missingBlocks msg))
    (hsecond : (engine.secondAttempt args).outcome = .ok result) :
    String.join (engine.streamGenerate args).yielded = result.text ↔
      String.join (engine.firstAttempt args).yielded = "" := by
  rw [streamGenerate_of_retry hfirst hsecond, String.join_append, text_of_streamGenerateOnce hsecond, ← secondAttempt]
  constructor
  · intro h
    have hlength := congrArg String.length h
    rw [String.length_append] at hlength
    exact String.length_eq_zero_iff.1 (by omega)
  · intro h
    rw [h, String.empty_append]

/-- **A stream is never one generation with its result**: it ends with none. And
a retried one has the first attempt's text before the retry's, so that what is
delivered is the retry's text exactly if the first attempt delivered nothing. -/
theorem stream_not_one_generation (engine : GenerationEngine S) (args : GenerateArgs S) :
    ¬ engine.OneGeneration args ∧
      ∀ msg result, (engine.firstAttempt args).outcome = .error (.missingBlocks msg) →
        (engine.secondAttempt args).outcome = .ok result →
        (engine.streamGenerate args).yielded = (engine.firstAttempt args).yielded ++ (engine.secondAttempt args).yielded ∧
          (String.join (engine.streamGenerate args).yielded = result.text ↔
            String.join (engine.firstAttempt args).yielded = "") := by
  constructor
  · intro h
    obtain ⟨result, hresult, -, -⟩ := h
    cases streamGenerate_value hresult
  · intro msg result hfirst hsecond
    rw [← join_of_retry_iff hfirst hsecond, streamGenerate_of_retry hfirst hsecond]
    exact ⟨rfl, Iff.rfl⟩

/-- A client whose generation is delivered so, and ends so. -/
def clientOf (pieces : List String) (raised : Option EngineError) : PetalsClient ℚ where
  tokenizer :=
    { applyChatTemplate := fun messages => .ok (HttpChain.plainPrompt messages), encode := fun _ => .ok [1, 15, 4]
      decode := fun _ => "Hello world", eosTokenId := .some 2 }
  plainTokens text := text.length
  generate inputIds _ := .ok (inputIds ++ [27, 31, 2])
  stream _ _ := (pieces, raised)

/-- An engine that loses its swarm after the first five letters. -/
def losingEngine : GenerationEngine ℚ where
  loaded := .ok (clientOf ["Hel", "lo"] (.some (.missingBlocks "no servers holding blocks [8, 9]")))
  reloaded := .ok (clientOf ["Hello", " world"] .none)

def helloArgs : GenerateArgs ℚ := ⟨[⟨.some "user", .some "Say hello"⟩], .none, .none, .none⟩

theorem stream_not_one_generation_hello :
    ¬ losingEngine.OneGeneration helloArgs ∧
      (losingEngine.streamGenerate helloArgs).yielded = ["Hel", "lo", "Hello", " world"] ∧
      (String.join (losingEngine.streamGenerate helloArgs).yielded = "Hello world" ↔ String.join ["Hel", "lo"] = "") :=
  let h := stream_not_one_generation losingEngine helloArgs
  ⟨h.1, h.2 "no servers holding blocks [8, 9]" ⟨"Hello world", 3, 11, "stop"⟩ (by decide +kernel) (by decide +kernel)⟩

/-- **A retried stream repeats itself**, and ends with no result. -/
theorem retry_says_hello_twice :
    (losingEngine.firstAttempt helloArgs).outcome = .error (.missingBlocks "no servers holding blocks [8, 9]") ∧
      (losingEngine.secondAttempt helloArgs).outcome = .ok ⟨"Hello world", 3, 11, "stop"⟩ ∧
      String.join (losingEngine.streamGenerate helloArgs).yielded = "HelloHello world" ∧
      (losingEngine.streamGenerate helloArgs).outcome = .ok .none ∧ ¬ losingEngine.OneGeneration helloArgs := by
  refine ⟨by decide +kernel, by decide +kernel, by decide +kernel, by decide +kernel, ?_⟩
  intro h
  obtain ⟨result, hresult, -⟩ := h
  cases streamGenerate_value hresult

/-! ## The events -/

/-- **The client of a retried stream** is sent both attempts, and `stop`. -/
theorem streamSse_of_retry {msg : String} {result : GenerationResult}
    (hfirst : (engine.firstAttempt args).outcome = .error (.missingBlocks msg))
    (hsecond : (engine.secondAttempt args).outcome = .ok result) (completionId : String) (created : Int) (model : String) :
    streamSse completionId created model (engine.stream args).1 (engine.stream args).2 =
      event (completionChunk completionId created model (.some "assistant") (.some "") .none) ++
      .join ((engine.firstAttempt args).yielded.map fun piece =>
        event (completionChunk completionId created model .none (.some piece) .none)) ++
      .join ((engine.secondAttempt args).yielded.map fun piece =>
        event (completionChunk completionId created model .none (.some piece) .none)) ++
      event (completionChunk completionId created model .none .none (.some "stop")) ++ doneEvent := by
  rw [stream, streamGenerate_of_retry hfirst hsecond]
  simp [streamSse, Except.mapError, String.join_append, String.append_assoc]

end GenerationEngine

end Blitzwing
