/-
One inference session as a client runs it: a chain of server sessions, each
for the next blocks, and what is done when a server fails.

A step goes from server to server with the outputs of the last one. When a
server fails, its part of the chain is routed anew, the new sessions replace
its session, and the first of them takes over the failed session's history of
inputs, to be sent whole with its first request. What the network and the
servers do in an attempt is an `Attempt`; a step is run on a list of them.
-/
import Blitzwing.Petals.Backend
import Blitzwing.Petals.Routing

namespace Blitzwing

namespace Petals

variable {Peer H K ι : Type}

/-- How a server runs its blocks. -/
structure ServerConfig (K : Type) where
  zero : K
  maxChunkSizeBytes : Nat
  maxNumHeads : Nat
  dtypeBytes : Nat
  mergeMaxTokens : Nat

/-- A model, and the servers of its blocks. -/
structure Swarm (Peer H K : Type) where
  blocks : List (CausalBlock H K)
  config : Peer → ServerConfig K
  batchSize : Nat
  maxRetries : Option Nat

/-- `xs[start:stop]` -/
def slice {α : Type} (start stop : Int) (xs : List α) : List α := (xs.drop start.toNat).take (stop - start).toNat

namespace Swarm

variable (w : Swarm Peer H K)

def numBlocks : Int := w.blocks.length

/-- What a server is asked to open a session for. -/
def settings (maxLength : Nat) (span : RemoteSpanInfo Peer) : SessionSettings H K :=
  let config := w.config span.peerId
  { backends := (slice span.start span.stop w.blocks).map fun block =>
      ⟨block, config.zero, config.maxChunkSizeBytes, config.maxNumHeads, config.dtypeBytes⟩
    batchSize := w.batchSize
    maxLength
    mergeMaxTokens := config.mergeMaxTokens }

end Swarm

/-! ## `_ServerInferenceSession` -/

/-- The client's end of a session, and what the server holds of it. -/
structure ServerSession (Peer ι H K : Type) where
  span : RemoteSpanInfo Peer
  position : Nat
  history : Option (List (ι → H))
  stepped : Bool
  closed : Bool
  state : SessionState ι K

/-- The prompts of a step, one for each block, and the rows it picks. -/
structure StepArgs (ι H : Type) where
  prompts : Option (List (List (ι → H)))
  hypoIds : Option (ι → ι)

/-- `prompts[span.start : span.end]` -/
def StepArgs.promptsFor (args : StepArgs ι H) (span : RemoteSpanInfo Peer) : Option (List (Option (List (ι → H)))) :=
  args.prompts.map fun prompts => (slice span.start span.stop prompts).map .some

namespace ServerSession

variable (s : ServerSession Peer ι H K)

def create (w : Swarm Peer H K) (maxLength : Nat) (span : RemoteSpanInfo Peer) : ServerSession Peer ι H K where
  span
  position := 0
  history := .none
  stepped := false
  closed := false
  state := (w.settings maxLength span).fresh

/-- The setter of `position`; `none` is the assertion that it does not grow. -/
def setPosition (startFromPosition : Nat) : Option (ServerSession Peer ι H K) :=
  if startFromPosition ≤ s.position then
    .some { s with
      position := startFromPosition
      history := s.history.bind fun history =>
        if startFromPosition ≤ history.length then
          if 0 < startFromPosition then .some (history.take startFromPosition) else .none
        else .some history }
  else .none

/-- The history with this step's inputs, unless it is of another position. -/
def extendedHistory (inputs : List (ι → H)) : List (ι → H) :=
  match s.history with
  | .none => inputs
  | .some history => if history.length = s.position then history ++ inputs else history

/-- `step`: the session after it, and the outputs if it did not raise. A new
session sends its history in place of the inputs. -/
def step [Add H] (w : Swarm Peer H K) (maxLength : Nat) (args : StepArgs ι H) (replies : Bool)
    (inputs : List (ι → H)) : ServerSession Peer ι H K × Option (List (ι → H)) :=
  if s.closed then (s, .none)
  else
    let history := s.extendedHistory inputs
    if history.length ≠ s.position + inputs.length then ({ s with history := .some history }, .none)
    else
      let sent := if s.stepped then inputs else history
      let asked : ServerSession Peer ι H K := { s with history := .some history, stepped := true }
      if !replies then (asked, .none)
      else
        match (w.settings maxLength s.span).step s.state
            ⟨sent, args.promptsFor s.span, args.hypoIds, .some s.position⟩ with
        | .error _ => (asked, .none)
        | .ok (state, outputs) =>
          if outputs.length = sent.length then
            ({ asked with position := s.position + inputs.length, state }, .some outputs)
          else (asked, .none)

end ServerSession

/-! ## `InferenceSession` -/

/-- What `make_sequence`, the connections and the servers do in one attempt. -/
structure Attempt (Peer : Type) where
  makeSequence : Int → Int → Option (List (RemoteSpanInfo Peer))
  connects : Bool
  replies : Bool

/-- `spans[-1].end = min(spans[-1].end, end)` -/
def clipLast (route : List (RemoteSpanInfo Peer)) (stop : Int) : Option (List (RemoteSpanInfo Peer)) :=
  route.getLast?.map fun last => route.dropLast ++ [{ last with stop := min last.stop stop }]

/-- Where a step is: the chain, the server and block it has come to, the
attempts made there, the outputs so far, and who was reported to have failed. -/
structure Loop (Peer ι H K : Type) where
  sessions : List (ServerSession Peer ι H K)
  serverIdx : Nat
  blockIdx : Int
  attemptNo : Nat
  inputs : List (ι → H)
  failures : List (Option Peer)

section loop

variable [Add H] (w : Swarm Peer H K) (maxLength : Nat)

/-- `_update_sequence`: the chain after it, and whether it did not raise. -/
def updateSequence (sessions : List (ServerSession Peer ι H K)) (serverIdx : Nat) (blockIdx : Int) (a : Attempt Peer) :
    List (ServerSession Peer ι H K) × Bool :=
  let sessions := sessions.modify serverIdx fun s => { s with closed := true }
  let updateEnd := sessions[serverIdx]?.elim w.numBlocks (·.span.stop)
  match (a.makeSequence blockIdx updateEnd).bind (clipLast · updateEnd) with
  | .none => (sessions, false)
  | .some updatedSpans =>
    if a.connects then
      let updatedSessions := (updatedSpans.map (ServerSession.create w maxLength)).modify 0 fun s =>
        { s with history := sessions[serverIdx]?.bind (·.history) }
      (sessions.take serverIdx ++ updatedSessions ++ sessions.drop (serverIdx + 1), true)
    else (sessions, false)

/-- The body of the `except`: the failure is reported, and counted. -/
def Loop.failed (st : Loop Peer ι H K) (sessions : List (ServerSession Peer ι H K)) (peer : Option Peer) :
    Loop Peer ι H K :=
  { st with sessions, attemptNo := st.attemptNo + 1, failures := st.failures ++ [peer] }

/-- The chain that an attempt goes on with, and whether making it did not
raise. -/
def Loop.chain (st : Loop Peer ι H K) (a : Attempt Peer) : List (ServerSession Peer ι H K) × Bool :=
  if st.sessions.isEmpty || 1 ≤ st.attemptNo then
    updateSequence w maxLength st.sessions st.serverIdx st.blockIdx a
  else (st.sessions, true)

/-- The body of the `try`, and whether it came through. -/
def Loop.attempt (position : Nat) (args : StepArgs ι H) (st : Loop Peer ι H K) (a : Attempt Peer) :
    Loop Peer ι H K × Bool :=
  let updated := st.chain w maxLength a
  if updated.2 then
    match updated.1[st.serverIdx]? with
    | .none => (st.failed updated.1 .none, false)
    | .some s =>
      if s.position = position then
        let stepped := s.step w maxLength args a.replies st.inputs
        let sessions := updated.1.set st.serverIdx stepped.1
        match stepped.2 with
        | .none => (st.failed sessions (.some s.span.peerId), false)
        | .some outputs =>
          ({ st with
              sessions, inputs := outputs, serverIdx := st.serverIdx + 1, blockIdx := s.span.stop
              attemptNo := 0 }, true)
      else (st.failed updated.1 (.some s.span.peerId), false)
  else (st.failed updated.1 .none, false)

inductive LoopEnd (Peer ι H K : Type)
  | returned (st : Loop Peer ι H K)
  | raised (st : Loop Peer ι H K)
  | running (st : Loop Peer ι H K)

/-- The two loops of `step`, as far as the attempts go. -/
def Loop.run (position : Nat) (args : StepArgs ι H) : List (Attempt Peer) → Loop Peer ι H K → LoopEnd Peer ι H K
  | [], st => if st.blockIdx < w.numBlocks then .running st else .returned st
  | a :: attempts, st =>
    if st.blockIdx < w.numBlocks then
      let next := st.attempt w maxLength position args a
      if !next.2 && w.maxRetries = .some (st.attemptNo + 1) then .raised next.1
      else Loop.run position args attempts next.1
    else .returned st

end loop

structure InferenceSession (Peer ι H K : Type) where
  position : Nat
  maxLength : Nat
  sessions : List (ServerSession Peer ι H K)

namespace InferenceSession

variable (w : Swarm Peer H K) (session : InferenceSession Peer ι H K)

def new (maxLength : Nat) : InferenceSession Peer ι H K := ⟨0, maxLength, []⟩

/-- The setter of `position`. -/
def setPosition (startFromPosition : Nat) : Option (InferenceSession Peer ι H K) :=
  (session.sessions.mapM fun (s : ServerSession Peer ι H K) => s.setPosition startFromPosition).map fun sessions =>
    { session with position := startFromPosition, sessions }

/-- A prompt for each block, none of them longer than the step. -/
def checksPrompts (args : StepArgs ι H) (inputs : List (ι → H)) : Bool :=
  args.prompts.all fun prompts =>
    (prompts.length : Int) = w.numBlocks && prompts.all fun prompt => prompt.length ≤ inputs.length

/-- What a step begins with. -/
def start (inputs : List (ι → H)) : Loop Peer ι H K := ⟨session.sessions, 0, 0, 0, inputs, []⟩

/-- `step`, if it returns within the attempts: the session and the outputs. -/
def step [Add H] (args : StepArgs ι H) (inputs : List (ι → H)) (attempts : List (Attempt Peer)) :
    Option (InferenceSession Peer ι H K × List (ι → H)) :=
  if checksPrompts w args inputs && session.position + inputs.length ≤ session.maxLength then
    match (session.start inputs).run w session.maxLength session.position args attempts with
    | .returned st => .some
      ({ session with position := session.position + inputs.length, sessions := st.sessions },
        if inputs = [] then st.inputs else st.inputs.drop (st.inputs.length - inputs.length))
    | _ => .none
  else .none

/-- What a user does with a session. -/
inductive Op (Peer ι H : Type)
  | step (args : StepArgs ι H) (inputs : List (ι → H)) (attempts : List (Attempt Peer))
  | setPosition (p : Nat)

/-- The session after operations all of which returned, and the outputs of its
steps. -/
def run [Add H] : InferenceSession Peer ι H K → List (Op Peer ι H) →
    Option (InferenceSession Peer ι H K × List (List (ι → H)))
  | session, [] => .some (session, [])
  | session, .step args inputs attempts :: ops => do
    let (session, outputs) ← session.step w args inputs attempts
    let (session, rest) ← run session ops
    return (session, outputs :: rest)
  | session, .setPosition p :: ops => do
    let session ← session.setPosition p
    run session ops

end InferenceSession

end Petals

end Blitzwing
