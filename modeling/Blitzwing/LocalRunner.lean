/-
`shard_manager/local_runner.py`: the forward pass through this node's blocks.

What a model computes with is left open: `H` is a tensor of hidden states, `S`
a number in a row of logits. `PetalsModel` has the attributes the runner looks
for, each of which a model may lack. Loading the model and the tokenizer, and
the Petals server behind them, are left out.
-/
import Blitzwing.Lib.Remote
import Blitzwing.Lib.Raise
import Blitzwing.Lib.Allocation
import Blitzwing.Probes

namespace Blitzwing

/-- The exceptions on a chain: Python's own, and the ones a hop raises. -/
inductive ChainError
  | raised (e : PyError)
  | indexError (msg : String)
  | httpStatus (status : Nat) (detail : String)
  | transport (msg : String)
deriving DecidableEq, Repr

/-- `m.model` -/
structure InnerModel (H S : Type) where
  layers : Option (List (H → H)) := .none
  embedTokens : Option (List Nat → H) := .none
  norm : Option (H → H) := .none
  lmHead : Option (H → List (List S)) := .none

/-- `m.transformer` -/
structure InnerTransformer (H : Type) where
  h : Option (List (H → H)) := .none
  wordEmbeddings : Option (List Nat → H) := .none
  lnF : Option (H → H) := .none

/-- `m.config`, where the values are integers. -/
structure ModelConfig where
  numHiddenLayers : Option Int := .none
  nLayer : Option Int := .none
  numLayers : Option Int := .none
deriving DecidableEq, Repr

structure PetalsModel (H S : Type) where
  model : Option (InnerModel H S) := .none
  transformer : Option (InnerTransformer H) := .none
  lmHead : Option (H → List (List S)) := .none
  config : Option ModelConfig := .none

structure LocalShardRunner where
  blockStart : Int
  blockEnd : Int
deriving DecidableEq, Repr

namespace PetalsModel

variable {H S : Type} (m : PetalsModel H S)

/-- `_layers` -/
def layers : Except ChainError (List (H → H)) :=
  match m.model.bind (·.layers), m.transformer.bind (·.h) with
  | .some layers, _ | .none, .some layers => .ok layers
  | .none, .none => .error (.raised (.runtimeError "Could not locate transformer layers"))

/-- `_embed` -/
def embed (inputIds : List Nat) : Except ChainError H :=
  match m.model.bind (·.embedTokens), m.transformer.bind (·.wordEmbeddings) with
  | .some embed, _ | .none, .some embed => .ok (embed inputIds)
  | .none, .none => .error (.raised (.runtimeError "Could not locate embedding layer"))

/-- `_final_norm` -/
def finalNorm (hidden : H) : H :=
  match m.model.bind (·.norm), m.transformer.bind (·.lnF) with
  | .some norm, _ | .none, .some norm => norm hidden
  | .none, .none => hidden

/-- `_lm_head` -/
def runLmHead (hidden : H) : Except ChainError (List (List S)) :=
  match m.lmHead, m.model.bind (·.lmHead) with
  | .some lmHead, _ | .none, .some lmHead => .ok (lmHead hidden)
  | .none, .none => .error (.raised (.runtimeError "Could not locate lm_head"))

end PetalsModel

/-- `layers[idx]` -/
def layerAt {H : Type} (layers : List (H → H)) (idx : Int) : Except ChainError (H → H) :=
  let i := if idx < 0 then idx + layers.length else idx
  match if i < 0 then .none else layers[i.toNat]? with
  | .some layer => .ok layer
  | .none => .error (.indexError s!"index {idx} is out of range")

namespace LocalShardRunner

variable {H S : Type} (m : PetalsModel H S) (runner : LocalShardRunner)

def ofBlocks (blockIndices : String) : Except ChainError LocalShardRunner :=
  match parseRange blockIndices with
  | .ok (blockStart, blockEnd) => .ok { blockStart, blockEnd }
  | .error e => .error (.raised e)

/-- `_total_layers`; the argument is `TOTAL_LAYERS`. -/
def totalLayers (envTotal : Option String) : Except ChainError Int :=
  let text := PyText.strip (envTotal.getD "")
  if PyText.allDigits text then (pyInt text).mapError .raised
  else
    let values := m.config.toList.flatMap fun c => [c.numHiddenLayers, c.nLayer, c.numLayers].reduceOption
    return (values.find? (0 < ·)).getD runner.blockEnd

/-- `_is_tail_host` -/
def isTailHost (envTotal : Option String) : Except ChainError Bool := do
  return runner.blockEnd ≥ (← runner.totalLayers m envTotal)

/-- The loop over the local blocks. -/
def runBlocks (layers : List (H → H)) (hidden : H) : Except ChainError H :=
  (pyRange runner.blockStart runner.blockEnd).foldlM (fun hidden idx => return (← layerAt layers idx) hidden) hidden

def forwardPrefix (inputIds : List Nat) : Except ChainError H := do
  let hidden ← m.embed inputIds
  runner.runBlocks (← m.layers) hidden

def forwardTail (hidden : H) : Except ChainError H := do
  runner.runBlocks (← m.layers) hidden

def logitsFromHidden (envTotal : Option String) (hidden : H) : Except ChainError (List (List S)) := do
  let hidden := if ← runner.isTailHost m envTotal then m.finalNorm hidden else hidden
  m.runLmHead hidden

/-- The layers a runner runs. -/
def span : Span := ⟨runner.blockStart, runner.blockEnd⟩

end LocalShardRunner

/-! ## Layers in a row -/

/-- The layers of a span, one after another. -/
def through {H : Type} (layers : List (H → H)) (s : Span) (hidden : H) : H :=
  ((layers.take s.hi.toNat).drop s.lo.toNat).foldl (fun hidden layer => layer hidden) hidden

section

variable {H S : Type} {layers : List (H → H)} {hidden : H}

/-- A whole model is each of its layers, applied once and in order. -/
theorem through_all : through layers ⟨0, layers.length⟩ hidden = layers.foldl (fun hidden layer => layer hidden) hidden := by
  simp [through]

theorem through_nil (a : Int) : through layers ⟨a, a⟩ hidden = hidden := by
  simp [through]

/-- What comes up to `b`, then from `b`, is all of it. -/
theorem through_through {a b c : Int} (hab : a ≤ b) (hbc : b ≤ c) :
    through layers ⟨b, c⟩ (through layers ⟨a, b⟩ hidden) = through layers ⟨a, c⟩ hidden := by
  have hsplit : (layers.take c.toNat).drop a.toNat =
      (layers.take b.toNat).drop a.toNat ++ (layers.take c.toNat).drop b.toNat := by
    by_cases ha : a.toNat ≤ (layers.take b.toNat).length
    · have htake : layers.take c.toNat = layers.take b.toNat ++ (layers.take c.toNat).drop b.toNat := by
        conv_lhs => rw [← List.take_append_drop b.toNat (layers.take c.toNat)]
        rw [List.take_take, Nat.min_eq_left (by omega)]
      conv_lhs => rw [htake]
      exact List.drop_append_of_le_length ha
    · -- All three begin past the last layer.
      rw [List.length_take] at ha
      rw [List.drop_eq_nil_of_le, List.drop_eq_nil_of_le, List.drop_eq_nil_of_le]
      · rfl
      all_goals
        rw [List.length_take]
        omega
  simp only [through, hsplit, List.foldl_append]

theorem layerAt_eq {i : Nat} (h : i < layers.length) : layerAt layers i = .ok layers[i] := by
  have hneg : ¬ ((i : Int) < 0) := by omega
  simp [layerAt, hneg, h]

/-- A loop over `n` blocks from `i` on. -/
theorem foldlM_layerAt (i n : Nat) (h : i + n ≤ layers.length) :
    ((List.range n).map fun (k : Nat) => (i : Int) + k).foldlM
        (fun hidden idx => return (← layerAt layers idx) hidden) hidden =
      .ok (((layers.drop i).take n).foldl (fun hidden layer => layer hidden) hidden) := by
  induction n with
  | zero => rfl
  | succ n ih =>
    have hlast : (layers.drop i)[n]? = .some layers[i + n] := by
      rw [List.getElem?_drop, List.getElem?_eq_getElem]
    rw [List.range_succ, List.map_append, List.foldlM_append, ih (by omega), ok_bind, List.take_add_one, hlast]
    have hat : layerAt layers ((i : Int) + n) = .ok layers[i + n] := by
      have := layerAt_eq (show i + n < layers.length by omega)
      simpa using this
    simp [hat]

/-- A runner whose blocks the model has runs them. -/
theorem runBlocks_eq {runner : LocalShardRunner} (hlo : 0 ≤ runner.blockStart)
    (hle : runner.blockStart ≤ runner.blockEnd) (hhi : runner.blockEnd ≤ layers.length) :
    runner.runBlocks layers hidden = .ok (through layers runner.span hidden) := by
  obtain ⟨i, hi⟩ := Int.eq_ofNat_of_zero_le hlo
  obtain ⟨n, hn⟩ := Int.eq_ofNat_of_zero_le (Int.sub_nonneg.2 hle)
  have hloop := @foldlM_layerAt H layers hidden i n (by omega)
  have hslice : (layers.drop i).take n = (layers.take runner.blockEnd.toNat).drop runner.blockStart.toNat := by
    rw [List.drop_take]
    congr 1
    · omega
    · rw [hi]
      rfl
  simp only [LocalShardRunner.runBlocks, pyRange, hn, Int.toNat_natCast, through, LocalShardRunner.span, ← hslice]
  rw [hi]
  exact hloop

theorem lt_of_layerAt {i : Nat} {layer : H → H} (h : layerAt layers i = .ok layer) : i < layers.length := by
  by_contra hle
  have hnone : layers[i]? = .none := List.getElem?_eq_none (by omega)
  have hneg : ¬ ((i : Int) < 0) := by omega
  simp [layerAt, hneg, hnone] at h

/-- Where a runner answers, it has run its blocks. -/
theorem through_of_runBlocks {runner : LocalShardRunner} {out : H} (hlo : 0 ≤ runner.blockStart)
    (h : runner.runBlocks layers hidden = .ok out) : out = through layers runner.span hidden := by
  by_cases hlt : runner.blockStart < runner.blockEnd
  · have hhi : runner.blockEnd ≤ layers.length := by
      -- The last block of the loop is one of the model's.
      obtain ⟨i, hi⟩ := Int.eq_ofNat_of_zero_le hlo
      obtain ⟨n, hn⟩ := Int.eq_ofNat_of_zero_le (show 0 ≤ runner.blockEnd - runner.blockStart - 1 by omega)
      have hrange : (runner.blockEnd - runner.blockStart).toNat = n + 1 := by omega
      simp only [LocalShardRunner.runBlocks, pyRange, hrange, List.range_succ, List.map_append, List.foldlM_append,
        bind_eq_ok] at h
      obtain ⟨mid, -, hlast⟩ := h
      simp only [List.map_cons, List.map_nil, List.foldlM_cons, bind_eq_ok] at hlast
      obtain ⟨_, ⟨layer, hlayer, -⟩, -⟩ := hlast
      rw [hi] at hlayer
      have := lt_of_layerAt (i := i + n) (by simpa using hlayer)
      omega
    rw [runBlocks_eq hlo hlt.le hhi] at h
    exact (Except.ok.inj h).symm
  · have hnone : (runner.blockEnd - runner.blockStart).toNat = 0 := by omega
    have hslice : (layers.take runner.blockEnd.toNat).drop runner.blockStart.toNat = [] := by
      refine List.drop_eq_nil_of_le ?_
      rw [List.length_take]
      omega
    simp only [LocalShardRunner.runBlocks, pyRange, hnone, List.range_zero, List.map_nil, List.foldlM_nil,
      pure_eq_ok] at h
    simp only [through, LocalShardRunner.span, hslice, List.foldl_nil]
    exact (Except.ok.inj h).symm

end

end Blitzwing
