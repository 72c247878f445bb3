/-
`shard_manager/http_chain.py`: one generation over a chain of hosts.

`generate` is a `Remote` program: each hop calls a shard manager, and every
token appended is noted with the hidden state it was drawn from. What the
tensors are, what torch computes with a row of logits, the tokenizer and the
tensors' codec are arguments (`Torch`, `Tokenizer`, `Codec`); torch's random
generator is a state that is passed on.

The environment's variables are `ChainEnv`, and `pyFloat` reads a number from
one. Logging is left out, and so is `client`, which only carries the timeout.
-/
import Blitzwing.LocalRunner
import Blitzwing.Manifest

namespace Blitzwing

/-! ## The libraries -/

/-- What is asked of torch, on a row of numbers. -/
structure Torch (S G : Type) where
  argmax : List S → Nat
  softmax : List S → List S
  /-- The row in descending order, and where each number was. -/
  sortDesc : List S → List S × List Nat
  cumsum : List S → List S
  sum : List S → S
  /-- A place drawn with these weights, and the generator after it. -/
  multinomial : List S → G → Nat × G

structure MessageDict where
  role : Option String
  content : Option String
deriving DecidableEq, Repr

structure Tokenizer where
  applyChatTemplate : List MessageDict → Except PyError String
  encode : String → Except PyError (List Nat)
  decode : List Nat → String
  eosTokenId : Option Nat

/-- `tensor_to_payload` and `tensor_from_payload`. -/
structure Codec (H P : Type) where
  toPayload : H → P
  fromPayload : P → Except PyError H

structure ChainEnv where
  motherPublicShardUrl : Option String := .none
  motherUrl : Option String := .none
  blitzwingMotherUrl : Option String := .none
  motherPublicGatewayUrl : Option String := .none
  httpChainPrefixTimeout : Option String := .none
  httpChainRepetitionPenalty : Option String := .none
  totalLayers : Option String := .none
deriving DecidableEq, Repr

/-- What a shard manager's process has. -/
structure Node (H S G P : Type) where
  model : PetalsModel H S
  tokenizer : Tokenizer
  torch : Torch S G
  codec : Codec H P
  env : ChainEnv
  pyFloat : String → Except PyError S

/-- A hop: the base URL of a shard manager and what it is sent, and the host of
the manifest it is meant for, which is not sent. -/
inductive ChainRequest (P : Type)
  | chainPrefix (host : ManifestHost) (url : String) (inputIds : List Nat)
  | chainContinue (host : ManifestHost) (url : String) (hidden : P)

namespace ChainRequest

def url {P : Type} : ChainRequest P → String
  | .chainPrefix _ url _ | .chainContinue _ url _ => url

def host {P : Type} : ChainRequest P → ManifestHost
  | .chainPrefix host _ _ | .chainContinue host _ _ => host

end ChainRequest

/-- A token `generate` appends: what it was computed from, and what it is. -/
structure TokenNote (H : Type) where
  tokenIds : List Nat
  hidden : H
  nextId : Nat
deriving DecidableEq, Repr

/-- A program of the conductor; a hop is answered with a payload or raises. -/
abbrev Chain (H P α : Type) := Remote (ChainRequest P) (Except ChainError P) (TokenNote H) ChainError α

structure InferenceResult where
  text : String
  promptTokens : Nat
  completionTokens : Nat
  finishReason : String
deriving DecidableEq, Repr

/-- The fields of `HttpChainInference`. -/
structure HttpChainInference where
  runner : LocalShardRunner
  localBlockIndices : String
deriving DecidableEq, Repr

/-! ## Where a host is reached -/

namespace HttpChain

def isPublicHttpUrl (url : String) : Bool :=
  if url = "" then false
  else
    let lower := url.toLower
    if PyText.startsWith lower "http://127." || PyText.startsWith lower "http://localhost" then false
    else if PyText.startsWith url "http://172." || PyText.startsWith url "http://192.168." then false
    else if PyText.startsWith url "http://10." then false
    else PyText.startsWith url "http://" || PyText.startsWith url "https://"

def isReachableMotherUrl (url : String) : Bool :=
  if isPublicHttpUrl url = false then false
  else if (":8001".toList.reverse).isPrefixOf (PyText.rstrip url '/').toList.reverse then false
  else true

/-- The loop of `resolve_mother_shard_url` over the manifest's hosts. -/
def motherUrlOf : List ManifestHost → Option String
  | [] => .none
  | host :: rest =>
    if host.role ≠ .some "mother" then motherUrlOf rest
    else
      let url := PyText.rstrip (host.shardManagerUrl.getD "") '/'
      if isReachableMotherUrl url then .some url
      else
        match truthy host.publicIp with
        | .some publicIp => .some s!"http://{publicIp}:8000"
        | .none => motherUrlOf rest

def resolveMotherShardUrl (env : ChainEnv) (manifest : ManifestDict) : Except PyError String :=
  let override := PyText.rstrip (PyText.strip (env.motherPublicShardUrl.getD "")) '/'
  if override ≠ "" then .ok override
  else
    let gateway := PyText.rstrip (PyText.strip
      (((truthy env.motherUrl).or (truthy env.blitzwingMotherUrl)).or (truthy env.motherPublicGatewayUrl) |>.getD "")) '/'
    if gateway ≠ "" then .ok gateway
    else
      match motherUrlOf manifest.hosts with
      | .some url => .ok url
      | .none => .error (.runtimeError ("Cannot resolve mother prefix URL from swarm manifest " ++
          "(set BLITZWING_MOTHER_URL or MOTHER_PUBLIC_SHARD_URL)"))

def hostHttpUrl (env : ChainEnv) (host : ManifestHost) (manifest : ManifestDict) : Except PyError String :=
  if host.role = .some "mother" then resolveMotherShardUrl env manifest
  else
    let url := PyText.rstrip (host.shardManagerUrl.getD "") '/'
    if isPublicHttpUrl url = false then
      let got := if url = "" then "empty" else url
      .error (.runtimeError (s!"host {pyStr host.hostId} has no public shard_manager_url " ++
        s!"(got {got}) — cannot include it in HTTP chain"))
    else .ok url

/-! ## Drawing a token -/

section

variable {S G : Type} [Zero S] [One S] [Mul S] [Div S] [LT S] [LE S] [DecidableLT S] [DecidableLE S]

/-- The loop of `_apply_repetition_penalty`. -/
def penalize (penalty : S) (out : List S) (tokenId : Nat) : Except ChainError (List S) :=
  match out[tokenId]? with
  | .some x => .ok (out.set tokenId (if x < 0 then x * penalty else x / penalty))
  | .none => .error (.indexError s!"index {tokenId} is out of bounds for dimension 0 with size {out.length}")

def applyRepetitionPenalty (logits : List S) (generated : List Nat) (penalty : S) : Except ChainError (List S) :=
  if penalty ≤ 1 ∨ generated = [] then .ok logits else generated.foldlM (penalize penalty) logits

/-- The places past the first whose running sum is over `top_p`, one later. -/
def nucleusMask (topP : S) (cumulative : List S) : List Bool :=
  match cumulative with
  | [] => []
  | _ :: _ => false :: (cumulative.map fun c => decide (topP < c)).dropLast

/-- The branch on `temperature` and `top_p`. -/
def nextToken (torch : Torch S G) (temperature topP : S) (logits : List S) (gen : G) : Except ChainError (Nat × G) :=
  if temperature ≤ 0 then .ok (torch.argmax logits, gen)
  else
    let probs := torch.softmax (logits.map (· / temperature))
    if topP < 1 then
      let (sortedProbs, sortedIdx) := torch.sortDesc probs
      let mask := nucleusMask topP (torch.cumsum sortedProbs)
      let masked := sortedProbs.zipWith (fun p m => if m then 0 else p) mask
      let (pick, gen) := torch.multinomial (masked.map (· / torch.sum masked)) gen
      match sortedIdx[pick]? with
      | .some nextId => .ok (nextId, gen)
      | .none => .error (.indexError s!"index {pick} is out of bounds for dimension 0 with size {sortedIdx.length}")
    else .ok (torch.multinomial probs gen)

end

/-! ## One generation -/

variable {H S G P : Type}

/-- What Python raises, in a program. -/
def py {α : Type} (x : Except PyError α) : Chain H P α := .done (x.mapError .raised)

def remotePrefix (codec : Codec H P) (host : ManifestHost) (url : String) (inputIds : List Nat) : Chain H P H := do
  let resp ← Remote.ask (.chainPrefix host (PyText.rstrip url '/') inputIds)
  let payload ← resp
  py (codec.fromPayload payload)

def remoteContinue (codec : Codec H P) (host : ManifestHost) (url : String) (hidden : H) : Chain H P H := do
  let resp ← Remote.ask (.chainContinue host (PyText.rstrip url '/') (codec.toPayload hidden))
  let payload ← resp
  py (codec.fromPayload payload)

/-- The hidden state of a step: over the hosts upstream and the local tail, or
all of it locally. -/
def stepHidden (node : Node H S G P) (runner : LocalShardRunner) (manifest : ManifestDict)
    (upstream : List ManifestHost) (tokenIds : List Nat) : Chain H P H :=
  match upstream with
  | [] => .done (runner.forwardPrefix node.model tokenIds)
  | first :: mids => do
    let firstUrl ← py (hostHttpUrl node.env first manifest)
    let hidden ← remotePrefix node.codec first firstUrl tokenIds
    let hidden ← mids.foldlM (fun hidden mid => do
      let midUrl ← py (hostHttpUrl node.env mid manifest)
      remoteContinue node.codec mid midUrl hidden) hidden
    .done (runner.forwardTail node.model hidden)

/-- The prompt of a tokenizer without a chat template. -/
def plainPrompt (messages : List MessageDict) : String :=
  String.join (messages.map fun msg => "<|" ++ msg.role.getD "user" ++ "|>\n" ++ msg.content.getD "" ++ "</s>") ++
    "<|assistant|>\n"

/-- The prompt, with the tokenizer's template if that does not raise. -/
def promptOf (tokenizer : Tokenizer) (messages : List MessageDict) : String :=
  match tokenizer.applyChatTemplate messages with
  | .ok prompt => prompt
  | .error _ => plainPrompt messages

variable [Zero S] [One S] [Mul S] [Div S] [LT S] [LE S] [DecidableLT S] [DecidableLE S]

/-- What a request asks for. -/
structure SamplingArgs (S : Type) where
  maxTokens : Int
  temperature : S
  topP : S

/-- What a step does with its hidden state: the next token. -/
def stepToken (node : Node H S G P) (runner : LocalShardRunner) (penalty : S) (args : SamplingArgs S)
    (generated : List Nat) (hidden : H) (gen : G) : Except ChainError (Nat × G) := do
  let logits ← runner.logitsFromHidden node.model node.env.totalLayers hidden
  match logits.getLast? with
  | .none => .error (.indexError "index -1 is out of bounds for dimension 1 with size 0")
  | .some last =>
    let nextLogits ← applyRepetitionPenalty last generated penalty
    nextToken node.torch args.temperature args.topP nextLogits gen

/-- The decode loop, for so many tokens more: the tokens and the finish reason. -/
def decodeLoop (node : Node H S G P) (runner : LocalShardRunner) (manifest : ManifestDict)
    (upstream : List ManifestHost) (inputIds : List Nat) (penalty : S) (args : SamplingArgs S) :
    Nat → List Nat → G → Chain H P (List Nat × String)
  | 0, generated, _ => return (generated, "length")
  | steps + 1, generated, gen => do
    let tokenIds := inputIds ++ generated
    let hidden ← stepHidden node runner manifest upstream tokenIds
    let (nextId, gen) ← stepToken node runner penalty args generated hidden gen
    Remote.jot { tokenIds, hidden, nextId }
    let generated := generated ++ [nextId]
    if node.tokenizer.eosTokenId = .some nextId then return (generated, "stop")
    else decodeLoop node runner manifest upstream inputIds penalty args steps generated gen

/-- `generate` from the prompt on, over these hosts upstream. -/
def generateOver (node : Node H S G P) (runner : LocalShardRunner) (manifest : ManifestDict)
    (upstream : List ManifestHost) (messages : List MessageDict) (args : SamplingArgs S) (gen : G) :
    Chain H P InferenceResult := do
  let _ ← py (node.pyFloat (node.env.httpChainPrefixTimeout.getD "120"))
  let inputIds ← py (node.tokenizer.encode (promptOf node.tokenizer messages))
  let maxNewTokens := max 1 (min args.maxTokens 512)
  let penalty ← py (node.pyFloat (node.env.httpChainRepetitionPenalty.getD "1.1"))
  let (generated, finishReason) ← decodeLoop node runner manifest upstream inputIds penalty args
    maxNewTokens.toNat [] gen
  return { text := node.tokenizer.decode generated, promptTokens := inputIds.length
           completionTokens := generated.length, finishReason }

/-- `HttpChainInference.generate`; an empty manifest is none. -/
def generate (node : Node H S G P) (chain : HttpChainInference) (messages : List MessageDict) (args : SamplingArgs S)
    (swarmManifest : Option ManifestDict) (gen : G) : Chain H P InferenceResult :=
  match swarmManifest with
  | .none => py (.error (.runtimeError "swarm_manifest required for HTTP-chained inference"))
  | .some manifest => do
    let hosts ← py (orderedHosts manifest)
    py (validateChainCoverage hosts (manifest.totalLayers.getD 0))
    let (localStart, localEnd) ← py (parseRange chain.localBlockIndices)
    match hosts.getLast? with
    | .none => .done (.error (.indexError "list index out of range"))
    | .some tail => do
      let (tailStart, tailEnd) ← py (parseRange tail.blocks)
      if (tailStart, tailEnd) ≠ (localStart, localEnd) then
        py (.error (.runtimeError (s!"local blocks {chain.localBlockIndices} are not the tail " ++
          s!"(tail is {pyStr tail.hostId} {tail.blocks})")))
      else generateOver node chain.runner manifest hosts.dropLast messages args gen

end HttpChain

end Blitzwing
