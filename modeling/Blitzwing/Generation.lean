/-
`orchestrator/app/engine.py`: generations over the Petals swarm or over a
contributor's HTTP chain, and the stream; `http_inference.py` with it.

What the Petals client does is `PetalsClient`: its `generate`, and with a
streamer the pieces that arrive and what it raises after them. A client is what
`_ensure_loaded` comes to, and a reload brings another. Which contributor is
asked, the lock and logging are left out, and so is `stop`, which nothing reads.
-/
import Blitzwing.Lib.Gen
import Blitzwing.HttpChain
import Blitzwing.Chat

namespace Blitzwing

structure EngineSettings where
  defaultMaxTokens : Int := 256
  hardMaxTokens : Int := 512
deriving DecidableEq, Repr

/-- What the engine raises. -/
inductive EngineError
  /-- `petals.client.routing.sequence_manager.MissingBlocksError` -/
  | missingBlocks (msg : String)
  | missingBlocksService (msg : String)
  | httpInference (msg : String)
  | other (msg : String)
deriving DecidableEq, Repr

/-- `str(exc)` -/
def EngineError.text : EngineError → String
  | .missingBlocks msg | .missingBlocksService msg | .httpInference msg | .other msg => msg

/-- `MissingBlocksServiceError(message=...)` -/
def EngineError.service (message : String) : EngineError :=
  .missingBlocksService (if message ≠ "" then message
    else "Required model blocks are not reachable in the swarm. " ++
      "Contributors may be behind NAT without relay, or still loading.")

/-- The keywords of `model.generate`. -/
structure GenerationKwargs (S : Type) where
  maxNewTokens : Int
  doSample : Bool := true
  padTokenId : Option Nat
  eosTokenId : Option Nat
  temperature : Option S := .none
  topP : Option S := .none

/-- A loaded client: `tokenizer` and `model`. -/
structure PetalsClient (S : Type) where
  tokenizer : Tokenizer
  /-- How many tokens a text is, without special ones. -/
  plainTokens : String → Int
  /-- The prompt's tokens and the completion's after them. -/
  generate : List Nat → GenerationKwargs S → Except EngineError (List Nat)
  /-- With a streamer: the pieces it delivers, and what `generate` raises after them. -/
  stream : List Nat → GenerationKwargs S → List String × Option EngineError

/-- The arguments of a generation. -/
structure GenerateArgs (S : Type) where
  messages : List MessageDict
  maxTokens : Option Int := .none
  temperature : Option S
  topP : Option S

/-- `_cap_max_tokens` -/
def capMaxTokens (settings : EngineSettings) (maxTokens : Option Int) : Int :=
  let value := maxTokens.getD settings.defaultMaxTokens
  let value := max 1 value
  min value settings.hardMaxTokens

section

variable {S : Type}

/-- `tokenizer(prompt)["input_ids"]` of `_build_prompt`'s prompt. -/
def inputIdsOf (client : PetalsClient S) (messages : List MessageDict) : Except EngineError (List Nat) :=
  (client.tokenizer.encode (HttpChain.promptOf client.tokenizer messages)).mapError fun e => .other e.text

variable [Zero S] [LE S] [DecidableLE S]

/-- `_generation_kwargs` -/
def generationKwargs (client : PetalsClient S) (temperature topP : Option S) (maxNewTokens : Int) :
    GenerationKwargs S :=
  let kwargs : GenerationKwargs S :=
    { maxNewTokens, padTokenId := client.tokenizer.eosTokenId, eosTokenId := client.tokenizer.eosTokenId }
  let kwargs := match temperature with
    | .some temperature =>
      if temperature ≤ 0 then { kwargs with doSample := false } else { kwargs with temperature := .some temperature }
    | .none => kwargs
  match topP with
  | .some topP => if kwargs.doSample then { kwargs with topP := .some topP } else kwargs
  | .none => kwargs

/-- `"length" if completion_tokens >= max_new_tokens else "stop"` -/
def finishReasonOf (completionTokens maxNewTokens : Int) : String :=
  if completionTokens ≥ maxNewTokens then "length" else "stop"

/-- `_generate_once`; `loaded` is what `_ensure_loaded` comes to. -/
def generateOnce (settings : EngineSettings) (loaded : Except EngineError (PetalsClient S)) (args : GenerateArgs S) :
    Except EngineError GenerationResult := do
  let client ← loaded
  let inputIds ← inputIdsOf client args.messages
  let promptTokens := inputIds.length
  let maxNewTokens := capMaxTokens settings args.maxTokens
  let outputIds ← client.generate inputIds (generationKwargs client args.temperature args.topP maxNewTokens)
  let completionIds := outputIds.drop promptTokens
  let text := client.tokenizer.decode completionIds
  let completionTokens : Int := completionIds.length
  let finishReason := finishReasonOf completionTokens maxNewTokens
  return { text, promptTokens, completionTokens, finishReason }

/-! ## The stream -/

/-- `for piece in streamer` -/
def relay : List String → List String → Gen String EngineError (List String)
  | [], pieces => pure pieces
  | piece :: rest, pieces => do
    Gen.yield piece
    relay rest (pieces ++ [piece])

/-- `_stream_generate_once` -/
def streamGenerateOnce (settings : EngineSettings) (loaded : Except EngineError (PetalsClient S))
    (args : GenerateArgs S) : Gen String EngineError GenerationResult := do
  let client ← loaded
  let inputIds ← inputIdsOf client args.messages
  let promptTokens := inputIds.length
  let maxNewTokens := capMaxTokens settings args.maxTokens
  let (streamer, raised) := client.stream inputIds (generationKwargs client args.temperature args.topP maxNewTokens)
  let pieces ← relay streamer []
  match raised with
  | .some e => throw e
  | .none =>
    let text := String.join pieces
    -- Approximate completion tokens from decoded text when streamer path is used.
    let completionTokens := client.plainTokens text
    let finishReason := finishReasonOf completionTokens maxNewTokens
    return { text, promptTokens, completionTokens, finishReason }

/-- The engine when a call comes: what `_ensure_loaded` and then a reload come to. -/
structure GenerationEngine (S : Type) where
  settings : EngineSettings := {}
  loaded : Except EngineError (PetalsClient S)
  reloaded : Except EngineError (PetalsClient S)

namespace GenerationEngine

variable (engine : GenerationEngine S) (args : GenerateArgs S)

/-- `stream_generate`: neither `yield from` is returned. -/
def streamGenerate : Gen String EngineError (Option GenerationResult) :=
  tryCatch
    (do
      let _ ← streamGenerateOnce engine.settings engine.loaded args
      return .none)
    fun
    | .missingBlocks _ => do
      let client ← engine.reloaded
      tryCatch
        (do
          let _ ← streamGenerateOnce engine.settings (.ok client) args
          return .none)
        fun
        | .missingBlocks msg => throw (.service msg)
        | e => throw e
    | e => throw e

/-- The pieces the SSE layer is handed, and how they end. -/
def stream : List String × StreamEnd :=
  let gen := engine.streamGenerate args
  (gen.yielded, gen.outcome.mapError EngineError.text)

/-- `generate`; with a contributor, its host id and what the request to it comes to. -/
def generate (contributor : Option (String × Except String GenerationResult)) : Except EngineError GenerationResult :=
  match contributor with
  | .some (_, .ok result) => .ok result
  | .some (hostId, .error msg) => .error (.httpInference s!"Distributed HTTP inference via {hostId} failed: {msg}")
  | .none =>
    match generateOnce engine.settings engine.loaded args with
    | .error (.missingBlocks _) => do
      let client ← engine.reloaded
      match generateOnce engine.settings (.ok client) args with
      | .error (.missingBlocks msg) => throw (.service msg)
      | result => result
    | result => result

end GenerationEngine

end

/-! ## Over a contributor -/

section

variable {H S G P : Type}

/-- What `generate_via_contributor_http` posts, `ChatInferenceRequest`. -/
structure ContributorPayload (S : Type) where
  messages : List MessageDict
  maxTokens : Int
  temperature : S
  topP : S
  swarmManifest : ManifestDict

def contributorPayload [OfScientific S] (manifest : ManifestDict) (args : GenerateArgs S) : ContributorPayload S where
  messages := args.messages
  maxTokens := match args.maxTokens with
    | .some maxTokens => if maxTokens = 0 then 64 else maxTokens
    | .none => 64
  temperature := args.temperature.getD 0.7
  topP := args.topP.getD 0.9
  swarmManifest := manifest

variable [Zero S] [One S] [Mul S] [Div S] [LT S] [LE S] [DecidableLT S] [DecidableLE S]

/-- `/v1/chat/completions` of the contributor, on its chain. -/
def contributorChat (node : Node H S G P) (chain : HttpChainInference) (payload : ContributorPayload S) (gen : G) :
    Chain H P InferenceResult :=
  HttpChain.generate node chain payload.messages ⟨payload.maxTokens, payload.temperature, payload.topP⟩
    (.some payload.swarmManifest) gen

/-- `generate_via_contributor_http`; a request that is not answered 200 raises. -/
def generateViaContributorHttp [OfScientific S] (node : Node H S G P) (chain : HttpChainInference)
    (manifest : ManifestDict) (args : GenerateArgs S) (gen : G) : Chain H P GenerationResult := do
  let data ← contributorChat node chain (contributorPayload manifest args) gen
  return { text := data.text, promptTokens := data.promptTokens, completionTokens := data.completionTokens
           finishReason := data.finishReason }

end

end Blitzwing
