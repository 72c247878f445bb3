/-
`shard_manager/app.py`: a shard manager's process, as the conductor and the
orchestrator see it.

It supervises a Petals server (`running`, `blockIndices`) and caches a runner
and a chain. `/reload` stops the server, starts it on other blocks and drops
the caches, in that order and without a lock around the three; they are
`ShardEvent`s of their own. A hop is let in when the server runs and served
later, on the blocks the process has then: its request names none.

Subprocess handling, the peers a server dials and the pre-warming thread's
waiting are left out; the thread itself is one more `warm`.
-/
import Blitzwing.HttpChain

namespace Blitzwing

structure ShardApp where
  running : Bool
  blockIndices : String
  localRunner : Option LocalShardRunner := .none
  httpChain : Option HttpChainInference := .none
deriving DecidableEq, Repr

namespace ShardApp

/-- `_reset_inference_caches` -/
def resetInferenceCaches (app : ShardApp) : ShardApp := { app with localRunner := .none, httpChain := .none }

/-- `_get_local_runner` -/
def getLocalRunner (app : ShardApp) : Except ChainError (LocalShardRunner × ShardApp) := do
  let app :=
    match app.localRunner with
    | .some runner =>
      if formatRange runner.blockStart runner.blockEnd ≠ app.blockIndices then app.resetInferenceCaches else app
    | .none => app
  match app.localRunner with
  | .some runner => return (runner, app)
  | .none =>
    let runner ← LocalShardRunner.ofBlocks app.blockIndices
    return (runner, { app with localRunner := .some runner })

/-- `_get_http_chain` -/
def getHttpChain (app : ShardApp) : Except ChainError (HttpChainInference × ShardApp) :=
  match app.httpChain with
  | .some chain => return (chain, app)
  | .none => do
    let (runner, app) ← app.getLocalRunner
    let chain := { runner, localBlockIndices := app.blockIndices }
    return (chain, { app with httpChain := .some chain })

end ShardApp

/-! ## Hops -/

/-- The shard managers, by base URL. -/
abbrev Shards := String → Option ShardApp

namespace Shards

variable {H S G P : Type} (node : Node H S G P)

def update (shards : Shards) (url : String) (app : ShardApp) : Shards :=
  fun u => if u = url then .some app else shards u

/-- The forward pass of a hop, on the runner the process has for its blocks. -/
def forward (app : ShardApp) (req : ChainRequest P) : Except ChainError P × ShardApp :=
  match app.getLocalRunner with
  | .error e => (.error e, app)
  | .ok (runner, app) =>
    let hidden := match req with
      | .chainPrefix _ _ inputIds => runner.forwardPrefix node.model inputIds
      | .chainContinue _ _ hidden => do
        runner.forwardTail node.model (← (node.codec.fromPayload hidden).mapError .raised)
    (node.codec.toPayload <$> hidden, app)

/-- `raise_for_status` on what the endpoint made of an exception. -/
def answer (result : Except ChainError P) : Except ChainError P :=
  result.mapError fun _ => .httpStatus 503 "Service Unavailable"

/-- `chain_prefix` and `chain_continue`: the check, then the forward pass. -/
def servers : Servers Shards (ChainRequest P) (Except ChainError P) where
  accept shards req :=
    match shards req.url with
    | .none => .some (.error (.transport "connection refused"))
    | .some app => if app.running then .none else .some (.error (.httpStatus 503 "Service Unavailable"))
  serve shards req :=
    match shards req.url with
    | .none => (.error (.transport "connection reset"), shards)
    | .some app =>
      let (result, app) := forward node app req
      (answer result, shards.update req.url app)

end Shards

/-! ## Reloads -/

/-- The pieces of `/reload`, `/start` and `/stop`, a server that dies, and
another request that asks for the runner. -/
inductive ShardEvent
  | stop
  | start (blockIndices : Option String)
  | reset
  | warm
deriving DecidableEq, Repr

namespace ShardApp

/-- One piece; a `start` where a server runs raises, as does a runner on blocks
that are no range, and neither changes what is modelled here but the blocks. -/
def apply (app : ShardApp) : ShardEvent → ShardApp
  | .stop => { app with running := false }
  | .start blockIndices =>
    let app := { app with blockIndices := (truthy blockIndices).getD app.blockIndices }
    if app.running then app else { app with running := true }
  | .reset => app.resetInferenceCaches
  | .warm =>
    match app.getLocalRunner with
    | .ok (_, app) => app
    | .error _ => app

/-- `POST /reload` on a range, run alone. -/
def reload (app : ShardApp) (blockIndices : String) : ShardApp :=
  ((app.apply .stop).apply (.start (.some blockIndices))).apply .reset

end ShardApp

end Blitzwing
