/-
Training through remote blocks: the forward and backward passes of a client,
and the servers' parts of them.

The forward pass goes from server to server and records what each was given.
The backward pass takes the records from the last one back. Where a server
fails, forward routes the rest of the way anew, and backward runs its part
forward again, on new servers, and puts their records in its place. What the
network and the servers do in an attempt is a `ForwardAttempt` or a
`BackwardAttempt`; a pass is run on a list of them.

Rows of a batch do not depend on each other, and tensors are exact. Left out:
priorities and adapters, the delays between attempts, and whom the manager is
told of.
-/
import Blitzwing.Lib.Reverse
import Blitzwing.Petals.SessionRuns

namespace Blitzwing

namespace Petals

variable {Peer α : Type}

/-- A block on one row of hidden states, and its derivative there. -/
structure GradBlock (α : Type) where
  forward : List α → List α
  backward : List α → List α → List α

/-- Rows of columns. -/
abbrev Batch (α : Type) := List (List α)

/-! ## Servers -/

/-- `hidden_states[:, : prompt.shape[1]] += prompt`, a prompt for each row;
`none` stands for a dummy prompt. -/
def addPrompts [Add α] (prompt : Option (Batch α)) (hiddenStates : Batch α) : Option (Batch α) :=
  match prompt with
  | .none => .some hiddenStates
  | .some prompt =>
    if prompt.length = hiddenStates.length && (prompt.zip hiddenStates).all fun e => e.1.length ≤ e.2.length then
      .some (List.zipWith (fun p row => List.zipWith (· + ·) row p ++ row.drop p.length) prompt hiddenStates)
    else .none

/-- `[DUMMY] * len(requested_backends)`, or the prompts one by one. -/
def promptsOrDummies (blocks : List (GradBlock α)) (prompts : Option (List (Batch α))) : List (Option (Batch α)) :=
  prompts.elim (blocks.map fun _ => .none) fun prompts => prompts.map .some

def runRpcForward [Add α] (blocks : List (GradBlock α)) (prompts : Option (List (Batch α))) (hiddenStates : Batch α) :
    Option (Batch α) :=
  (blocks.zip (promptsOrDummies blocks prompts)).foldlM
    (fun hiddenStates e => (addPrompts e.2 hiddenStates).map fun hiddenStates => hiddenStates.map e.1.forward)
    hiddenStates

/-- A block and its prompt, on batches. The gradient of a prompt is that of the
columns it was added to. -/
def blockLayer [Add α] (e : GradBlock α × Option (Batch α)) : Layer (Batch α) (Batch α) (Option (Batch α)) where
  enter := addPrompts e.2
  forward h := h.map e.1.forward
  backward h grads := List.zipWith e.1.backward h grads
  param grads := e.2.map fun prompt => List.zipWith (fun grad p => grad.take p.length) grads prompt

/-- `run_rpc_backward`: the gradient, and those of the prompts, none of which
is a dummy. -/
def runRpcBackward [Add α] (blocks : List (GradBlock α)) (prompts : Option (List (Batch α))) (inputs : Batch α)
    (gradOutputs : Batch α) : Option (Batch α × List (Batch α)) :=
  let prompts := promptsOrDummies blocks prompts
  if prompts.length = blocks.length then
    let layers := (blocks.zip prompts).map blockLayer
    (Layer.tape layers inputs).map fun interInputs =>
      let out := Layer.sweep layers interInputs gradOutputs
      (out.1, out.2.filterMap id)
  else .none

/-! ## `sequential_forward` -/

/-- The blocks a client trains through, and its retries. -/
structure Learner (α : Type) where
  blocks : List (GradBlock α)
  maxRetries : Option Nat

def Learner.numBlocks (w : Learner α) : Int := w.blocks.length

structure ForwardAttempt (Peer : Type) where
  makeSequence : Int → Int → Option (List (RemoteSpanInfo Peer))
  replies : Bool

structure ForwardLoop (Peer α : Type) where
  sequences : List (RemoteSpanInfo Peer)
  blockIdx : Int
  attemptNo : Nat
  inputs : Batch α
  intermediateInputs : List (Batch α)
  doneSequences : List (RemoteSpanInfo Peer)

inductive ForwardEnd (Peer α : Type)
  | returned (st : ForwardLoop Peer α)
  | raised
  | running

section forward

variable [Add α] (w : Learner α) (prompts : Option (List (Batch α))) (endIndex : Int)

/-- What a server answers for its blocks. -/
def Learner.forwardSpan (span : RemoteSpanInfo Peer) (inputs : Batch α) : Option (Batch α) :=
  runRpcForward (slice span.start span.stop w.blocks) (prompts.map (slice span.start span.stop)) inputs

def ForwardLoop.failed (st : ForwardLoop Peer α) (sequences : List (RemoteSpanInfo Peer)) : ForwardLoop Peer α :=
  { st with sequences, attemptNo := st.attemptNo + 1 }

/-- The body of the `try`, and whether it came through. -/
def ForwardLoop.attempt (st : ForwardLoop Peer α) (a : ForwardAttempt Peer) : ForwardLoop Peer α × Bool :=
  let found := if st.sequences.isEmpty || 1 ≤ st.attemptNo then
      (a.makeSequence st.blockIdx endIndex).bind (clipLast · endIndex)
    else .some st.sequences
  match found with
  | .none => (st.failed st.sequences, false)
  | .some [] => (st.failed [], false)
  | .some (span :: sequences) =>
    match if a.replies then w.forwardSpan prompts span st.inputs else .none with
    | .none => (st.failed sequences, false)
    | .some outputs =>
      if outputs.map List.length = st.inputs.map List.length then
        ({  sequences
            blockIdx := span.stop
            attemptNo := 0
            inputs := outputs
            intermediateInputs := st.intermediateInputs ++ [st.inputs]
            doneSequences := st.doneSequences ++ [span] }, true)
      else (st.failed sequences, false)

/-- The two loops, as far as the attempts go. -/
def ForwardLoop.run : List (ForwardAttempt Peer) → ForwardLoop Peer α → ForwardEnd Peer α
  | [], st => if st.blockIdx < endIndex then .running else .returned st
  | a :: attempts, st =>
    if st.blockIdx < endIndex then
      let next := st.attempt w prompts endIndex a
      if !next.2 && w.maxRetries = .some (st.attemptNo + 1) then .raised
      else ForwardLoop.run attempts next.1
    else .returned st

/-- `sequential_forward` -/
def sequentialForward (inputs : Batch α) (startIndex : Int) (attempts : List (ForwardAttempt Peer)) :
    ForwardEnd Peer α :=
  if 0 ≤ startIndex && endIndex ≤ w.numBlocks && prompts.all fun prompts => prompts.length = w.blocks.length then
    ForwardLoop.run w prompts endIndex attempts ⟨[], startIndex, 0, inputs, [], []⟩
  else .raised

end forward

/-! ## `sequential_backward` -/

/-- How the part is run forward again, if it is, and whether the server
replies. -/
structure BackwardAttempt (Peer : Type) where
  forward : List (ForwardAttempt Peer)
  replies : Bool

/-- The stacks have their tops at the end; `current` is what was taken from
them last. -/
structure BackwardLoop (Peer α : Type) where
  intermediateInputs : List (Batch α)
  forwardSequences : List (RemoteSpanInfo Peer)
  current : Option (Batch α × RemoteSpanInfo Peer)
  attemptNo : Nat
  gradOutputs : Batch α
  gradPromptsReversed : List (List (Batch α))

inductive BackwardEnd (Peer α : Type)
  | returned (st : BackwardLoop Peer α)
  | raised
  | running

namespace BackwardLoop

variable (st : BackwardLoop Peer α)

/-- The tops of the stacks, and what is below. -/
def pop : Option ((Batch α × RemoteSpanInfo Peer) × BackwardLoop Peer α) :=
  match st.intermediateInputs.getLast?, st.forwardSequences.getLast? with
  | .some inputs, .some span => .some ((inputs, span), { st with
      intermediateInputs := st.intermediateInputs.dropLast, forwardSequences := st.forwardSequences.dropLast })
  | _, _ => .none

/-- What the pass is at: what was taken already, or the tops of the stacks. -/
def take : Option ((Batch α × RemoteSpanInfo Peer) × BackwardLoop Peer α) :=
  match st.current with
  | .some current => .some (current, st)
  | .none => st.pop

def failed (current : Batch α × RemoteSpanInfo Peer) : BackwardLoop Peer α :=
  { st with current := .some current, attemptNo := st.attemptNo + 1 }

variable [Add α] (w : Learner α) (prompts : Option (List (Batch α)))

/-- `run_remote_backward` on what is at hand, and what is done with the
answer. -/
def call (current : Batch α × RemoteSpanInfo Peer) (replies : Bool) : BackwardLoop Peer α × Bool :=
  let span := current.2
  match if replies then runRpcBackward (slice span.start span.stop w.blocks)
      (prompts.map (slice span.start span.stop)) current.1 st.gradOutputs else .none with
  | .none => (st.failed current, false)
  | .some (gradOutputs, spanGradPrompts) =>
    ({ st with
        current := .none, attemptNo := 0, gradOutputs
        gradPromptsReversed := st.gradPromptsReversed ++ if spanGradPrompts = [] then [] else [spanGradPrompts] }, true)

/-- The body of the `try`; `none` while the part is still run forward. -/
def attempt (current : Batch α × RemoteSpanInfo Peer) (a : BackwardAttempt Peer) :
    Option (BackwardLoop Peer α × Bool) :=
  if 1 ≤ st.attemptNo then
    match sequentialForward w prompts current.2.stop current.1 current.2.start a.forward with
    | .running => .none
    | .raised => .some (st.failed current, false)
    | .returned backup =>
      if (backup.doneSequences.head?.map (·.start)) = .some current.2.start &&
          (backup.doneSequences.getLast?.map (·.stop)) = .some current.2.stop then
        let extended := { st with
          intermediateInputs := st.intermediateInputs ++ backup.intermediateInputs
          forwardSequences := st.forwardSequences ++ backup.doneSequences }
        match extended.pop with
        | .none => .some (extended.failed current, false)
        | .some (current, st) => .some (st.call w prompts current a.replies)
      else .some (st.failed current, false)
  else .some (st.call w prompts current a.replies)

def run : List (BackwardAttempt Peer) → BackwardLoop Peer α → BackwardEnd Peer α
  | [], st => if st.take.isSome then .running else .returned st
  | a :: attempts, st =>
    match st.take with
    | .none => .returned st
    | .some (current, st) =>
      match st.attempt w prompts current a with
      | .none => .running
      | .some next =>
        if !next.2 && w.maxRetries = .some (st.attemptNo + 1) then .raised
        else run attempts next.1

end BackwardLoop

/-- What comes back for the prompts, in the order of the blocks. -/
def BackwardLoop.gradPrompts (st : BackwardLoop Peer α) : Option (List (Batch α)) :=
  if st.gradPromptsReversed = [] then .none else .some st.gradPromptsReversed.reverse.flatten

/-- `sequential_backward`. The list of sequences is emptied in place; of the
inputs a copy is. -/
def sequentialBackward [Add α] (w : Learner α) (prompts : Option (List (Batch α))) (gradOutputs : Batch α)
    (intermediateInputs : List (Batch α)) (forwardSequences : List (RemoteSpanInfo Peer))
    (attempts : List (BackwardAttempt Peer)) : BackwardEnd Peer α :=
  if intermediateInputs.length = forwardSequences.length then
    BackwardLoop.run w prompts attempts ⟨intermediateInputs, forwardSequences, .none, 0, gradOutputs, []⟩
  else .raised

/-! ## `_RemoteSequentialAutogradFunction` -/

def maxTokensInBatch : Nat := 1024

/-- Rows that go to the servers together. -/
def batchSize (inputs : Batch α) : Option Nat :=
  (inputs.head?.map List.length).bind fun columns =>
    if columns = 0 then .none else .some (max (maxTokensInBatch / columns) 1)

/-- `tensor.split(n)` makes this many pieces, and one of an empty tensor. -/
def pieceCount (n rows : Nat) : Nat := max ((rows + n - 1) / n) 1

def piece {β : Type} (n k : Nat) (xs : List β) : List β := (xs.drop (k * n)).take n

def split {β : Type} (n : Nat) (xs : List β) : List (List β) :=
  (List.range (pieceCount n xs.length)).map fun k => piece n k xs

/-- `is_dummy` of prompts: there are none, or they have no elements. -/
def notDummy (prompts : Option (List (Batch α))) : Option (List (Batch α)) :=
  prompts.filter fun prompts => !prompts.flatten.flatten.isEmpty

/-- `prompts.split(n, dim=1)` -/
def splitPrompts (n : Nat) (prompts : List (Batch α)) : List (List (Batch α)) :=
  (List.range (pieceCount n (prompts.head?.elim 0 List.length))).map fun k => prompts.map (piece n k)

/-- `torch.cat(pieces, dim=1)` -/
def catRows : List (List (Batch α)) → Option (List (Batch α))
  | [] => .none
  | [p] => .some p
  | p :: ps => (catRows ps).bind fun q => if p.length = q.length then .some (List.zipWith (· ++ ·) p q) else .none

/-- What a forward pass leaves to the backward pass. -/
structure AutogradContext (Peer α : Type) where
  promptBatches : List (Option (List (Batch α)))
  intermediateInputBatches : List (List (Batch α))
  sequencesForBatches : List (List (RemoteSpanInfo Peer))

section autograd

variable [Add α] (w : Learner α)

/-- `_gather_forward`, the attempts of each pass beside it, if all return. -/
def gatherForward : List (Batch α × Option (List (Batch α))) → List (List (ForwardAttempt Peer)) →
    Option (List (ForwardLoop Peer α))
  | [], _ => .some []
  | _ :: _, [] => .none
  | batch :: batches, a :: attempts =>
    match sequentialForward w batch.2 w.numBlocks batch.1 0 a with
    | .returned st => (gatherForward batches attempts).map (st :: ·)
    | _ => .none

/-- `_RemoteSequentialAutogradFunction.forward` -/
def autogradForward (inputs : Batch α) (prompts : Option (List (Batch α)))
    (attempts : List (List (ForwardAttempt Peer))) : Option (Batch α × AutogradContext Peer α) :=
  (batchSize inputs).bind fun n =>
    let inputBatches := split n inputs
    let promptBatches := (notDummy prompts).elim (inputBatches.map fun _ => .none) fun prompts =>
      (splitPrompts n prompts).map .some
    (gatherForward w (inputBatches.zip promptBatches) attempts).bind fun outputs =>
      if outputs.length = inputBatches.length then
        .some ((outputs.map (·.inputs)).flatten,
          ⟨promptBatches, outputs.map (·.intermediateInputs), outputs.map (·.doneSequences)⟩)
      else .none

/-- `_gather_backward`, as `gatherForward`. -/
def gatherBackward : List (Batch α) → List (List (Batch α)) → List (Option (List (Batch α))) →
    List (List (RemoteSpanInfo Peer)) → List (List (BackwardAttempt Peer)) → Option (List (BackwardLoop Peer α))
  | grad :: grads, given :: givens, prompts :: rest, spans :: sequences, attempts =>
    match attempts with
    | [] => .none
    | a :: attempts =>
      match sequentialBackward w prompts grad given spans a with
      | .returned st => (gatherBackward grads givens rest sequences attempts).map (st :: ·)
      | _ => .none
  | _, _, _, _, _ => .some []

/-- `_RemoteSequentialAutogradFunction.backward`, if every pass returns: the
gradient at the inputs, that of the prompts, and the context as it is left. -/
def autogradBackward (ctx : AutogradContext Peer α) (gradOutputs : Batch α)
    (attempts : List (List (BackwardAttempt Peer))) :
    Option ((Batch α × Option (List (Batch α))) × AutogradContext Peer α) :=
  (batchSize gradOutputs).bind fun n =>
    let gradOutputBatches := split n gradOutputs
    if ctx.intermediateInputBatches.length = gradOutputBatches.length &&
        gradOutputBatches.length = ctx.sequencesForBatches.length then
      (gatherBackward w gradOutputBatches ctx.intermediateInputBatches ctx.promptBatches ctx.sequencesForBatches
        attempts).bind fun outputs =>
          let gradPromptBatches := outputs.map (·.gradPrompts)
          let gradPrompts :=
            if gradPromptBatches.any Option.isNone then .some .none
            else (catRows (gradPromptBatches.filterMap id)).map .some
          gradPrompts.map fun gradPrompts => (((outputs.map (·.gradOutputs)).flatten, gradPrompts),
            { ctx with sequencesForBatches := outputs.map (·.forwardSequences) })
    else .none

end autograd

end Petals

end Blitzwing
