/-
One inference session as a server runs it: blocks with attention caches.

A block's cache has a column for each position of the session, zeros until
written. A step reorders the rows of the caches as asked, cuts them back to the
position it starts from, runs the new columns through each block in chunks
that fit in memory, and writes the new keys and values in place.

The meaning it is held against keeps no cache: `Kept` has what each block was
given so far, and computes everything anew (`iterate_eq_plain`).
-/
import Blitzwing.Lib.Causal
import Blitzwing.Lib.Raise

namespace Blitzwing

namespace Petals

open CausalBlock (pick)

variable {H K ι : Type}

/-! ## `TransformerBackend` -/

/-- A served block: its module, the zero of its cache tensors, and what bounds
the chunks it is run in. -/
structure TransformerBackend (H K : Type) where
  module : CausalBlock H K
  zero : K
  maxChunkSizeBytes : Nat
  maxNumHeads : Nat
  dtypeBytes : Nat

/-- `range(0, seq_len, size)`, and the slice at each offset. -/
def slices {α : Type} (size : Nat) (xs : List α) : List (List α) :=
  (List.range ((xs.length + size - 1) / size)).map fun k => (xs.drop (k * size)).take size

namespace TransformerBackend

variable (backend : TransformerBackend H K)

/-- `_estimate_max_chunk_length` -/
def estimateMaxChunkLength (batchSize seqLength prefixLength : Nat) : Nat :=
  max 1 (backend.maxChunkSizeBytes /
    (backend.maxNumHeads * batchSize * backend.dtypeBytes * (prefixLength + seqLength)))

/-- `module.forward(chunk, layer_past=past, use_cache=True)`: the outputs, and
the keys and values of `past` and the chunk. -/
def forwardChunk (past : List (ι → K)) (chunk : List (ι → H)) : List (ι → H) × List (ι → K) :=
  (backend.module.rows.run past chunk, past ++ backend.module.rows.entries past.length chunk)

/-- `cache[:, prefix_length:new_length] = new[:, prefix_length:new_length]` -/
def updateCache (cache newKvs : List (ι → K)) (prefixLength : Nat) : Option (List (ι → K)) :=
  if newKvs.length ≤ cache.length then
    .some (cache.take prefixLength ++ newKvs.drop prefixLength ++ cache.drop newKvs.length)
  else .none

/-- `inference_step`: the cache and the outputs after it. -/
def inferenceStep (batchSize : Nat) (cache : List (ι → K)) (prefixLength : Nat) (hypoIds : Option (ι → ι))
    (hiddenStates : List (ι → H)) : Option (List (ι → K) × List (ι → H)) :=
  let cache := hypoIds.elim cache fun hypoIds => cache.map (pick hypoIds)
  let maxChunkLength := backend.estimateMaxChunkLength batchSize hiddenStates.length prefixLength
  let done := (slices maxChunkLength hiddenStates).foldl (fun (done : List (ι → K) × List (ι → H)) chunk =>
    let step := backend.forwardChunk done.1 chunk
    (step.2, done.2 ++ step.1)) (cache.take prefixLength, [])
  (updateCache cache done.1 prefixLength).map fun cache => (cache, done.2)

end TransformerBackend

/-! ## `iterate_rpc_inference` -/

/-- The tensors and metadata of one step. `none` stands for a dummy tensor. -/
structure InferenceRequest (ι H : Type) where
  hiddenStates : List (ι → H)
  prompts : Option (List (Option (List (ι → H))))
  hypoIds : Option (ι → ι)
  startFromPosition : Option Nat

inductive InferenceError
  | prompts (received backends : Nat)
  | maximumLength (start current maximum : Nat)
  | shape
deriving DecidableEq

/-- `hidden_states[:, :prompt.shape[1]] += prompt` -/
def addPrompt [Add H] (prompt : Option (List (ι → H))) (hiddenStates : List (ι → H)) : Option (List (ι → H)) :=
  match prompt with
  | .none => .some hiddenStates
  | .some prompt =>
    if prompt.length ≤ hiddenStates.length then
      .some (List.zipWith (fun x y i => x i + y i) hiddenStates prompt ++ hiddenStates.drop prompt.length)
    else .none

/-- `_MergedInferenceStep`: the blocks in turn, each with its cache and prompt. -/
def mergedInferenceStep [Add H] (batchSize prefixLength : Nat) (hypoIds : Option (ι → ι)) :
    List (TransformerBackend H K) → List (List (ι → K)) → List (Option (List (ι → H))) → List (ι → H) →
      Option (List (List (ι → K)) × List (ι → H))
  | backend :: backends, cache :: caches, prompt :: prompts, hiddenStates => do
    let hiddenStates ← addPrompt prompt hiddenStates
    let (cache, hiddenStates) ← backend.inferenceStep batchSize cache prefixLength hypoIds hiddenStates
    let (caches, hiddenStates) ← mergedInferenceStep batchSize prefixLength hypoIds backends caches prompts hiddenStates
    return (cache :: caches, hiddenStates)
  | _, _, _, hiddenStates => .some ([], hiddenStates)

/-- Each block in a task of its own: a merged step of one block. -/
def separateInferenceSteps [Add H] (batchSize prefixLength : Nat) (hypoIds : Option (ι → ι)) :
    List (TransformerBackend H K) → List (List (ι → K)) → List (Option (List (ι → H))) → List (ι → H) →
      Option (List (List (ι → K)) × List (ι → H))
  | backend :: backends, cache :: caches, prompt :: prompts, hiddenStates => do
    let (cache, hiddenStates) ← mergedInferenceStep batchSize prefixLength hypoIds [backend] [cache] [prompt] hiddenStates
    let (caches, hiddenStates) ←
      separateInferenceSteps batchSize prefixLength hypoIds backends caches prompts hiddenStates
    return (cache ++ caches, hiddenStates)
  | _, _, _, hiddenStates => .some ([], hiddenStates)

/-- What a session holds between steps. -/
structure SessionState (ι K : Type) where
  prefixLength : Nat
  caches : List (List (ι → K))

/-- What stays the same through a session. -/
structure SessionSettings (H K : Type) where
  backends : List (TransformerBackend H K)
  batchSize : Nat
  maxLength : Nat
  mergeMaxTokens : Nat

/-- `allocate_cache`: zeros of the session's length. -/
def SessionSettings.fresh (s : SessionSettings H K) : SessionState ι K where
  prefixLength := 0
  caches := s.backends.map fun backend => List.replicate s.maxLength fun _ => backend.zero

/-- All blocks in one task, if the step is short, or each in its own. -/
def SessionSettings.runBlocks [Add H] (s : SessionSettings H K) (prefixLength : Nat) (hypoIds : Option (ι → ι))
    (caches : List (List (ι → K))) (prompts : List (Option (List (ι → H)))) (hiddenStates : List (ι → H)) :
    Option (List (List (ι → K)) × List (ι → H)) :=
  if s.batchSize * hiddenStates.length ≤ s.mergeMaxTokens then
    mergedInferenceStep s.batchSize prefixLength hypoIds s.backends caches prompts hiddenStates
  else separateInferenceSteps s.batchSize prefixLength hypoIds s.backends caches prompts hiddenStates

/-- One turn of the loop. That the start is not beyond the prefix is asserted
of a pair, so it is not checked. -/
def SessionSettings.step [Add H] (s : SessionSettings H K) (state : SessionState ι K) (request : InferenceRequest ι H) :
    Except InferenceError (SessionState ι K × List (ι → H)) :=
  let prefixLength := request.startFromPosition.getD state.prefixLength
  let lengthIncrement := request.hiddenStates.length
  let prompts := request.prompts.getD (s.backends.map fun _ => .none)
  if s.backends.length ≠ prompts.length then .error (.prompts prompts.length s.backends.length)
  else if prefixLength + lengthIncrement > s.maxLength then
    .error (.maximumLength prefixLength lengthIncrement s.maxLength)
  else if request.hiddenStates = [] then .ok (⟨prefixLength, state.caches⟩, [])
  else
    match s.runBlocks prefixLength request.hypoIds state.caches prompts request.hiddenStates with
    | .none => .error .shape
    | .some (caches, hiddenStates) => .ok (⟨prefixLength + lengthIncrement, caches⟩, hiddenStates)

/-- The answers to the requests of a session, up to the first that fails. -/
def SessionSettings.iterate [Add H] (s : SessionSettings H K) (state : SessionState ι K) :
    List (InferenceRequest ι H) → List (Except InferenceError (List (ι → H)))
  | [] => []
  | request :: requests =>
    match s.step state request with
    | .error e => [.error e]
    | .ok (state, hiddenStates) => .ok hiddenStates :: iterate s state requests

/-! ## The same without caches -/

/-- What each block was given at the positions kept. -/
structure Kept (ι H : Type) where
  position : Nat
  given : List (List (ι → H))

/-- All prompts fit, or the step fails. -/
def promptsFit (prompts : List (Option (List (ι → H)))) (n : Nat) : Bool := prompts.all fun p => p.all (·.length ≤ n)

/-- The addition of a prompt that fits. -/
def plus [Add H] (prompt : Option (List (ι → H))) (hiddenStates : List (ι → H)) : List (ι → H) :=
  prompt.elim hiddenStates fun prompt =>
    List.zipWith (fun x y i => x i + y i) hiddenStates prompt ++ hiddenStates.drop prompt.length

/-- The meaning of a step: cut back, pick the rows, and compute everything
anew. -/
def SessionSettings.plainStep [Add H] (s : SessionSettings H K) (kept : Kept ι H) (request : InferenceRequest ι H) :
    Except InferenceError (Kept ι H × List (ι → H)) :=
  let position := request.startFromPosition.getD kept.position
  let n := request.hiddenStates.length
  let prompts := request.prompts.getD (s.backends.map fun _ => .none)
  if s.backends.length ≠ prompts.length then .error (.prompts prompts.length s.backends.length)
  else if position + n > s.maxLength then .error (.maximumLength position n s.maxLength)
  else if request.hiddenStates = [] then .ok (⟨position, kept.given.map (·.take position)⟩, [])
  else if promptsFit prompts n then
    let given := kept.given.map fun xs => (request.hypoIds.elim xs fun σ => xs.map (pick σ)).take position
    let after := CausalBlock.recompute (s.backends.map fun b => b.module.rows) (prompts.map plus) given
      request.hiddenStates
    .ok (⟨position + n, after.1⟩, after.2)
  else .error .shape

def SessionSettings.plain [Add H] (s : SessionSettings H K) (kept : Kept ι H) :
    List (InferenceRequest ι H) → List (Except InferenceError (List (ι → H)))
  | [] => []
  | request :: requests =>
    match s.plainStep kept request with
    | .error e => [.error e]
    | .ok (kept, hiddenStates) => .ok hiddenStates :: plain s kept requests

/-- Without prompts, and without blocks: the columns kept, and at each step the
last outputs of the whole stack for them. -/
def SessionSettings.whole (s : SessionSettings H K) (columns : List (ι → H)) :
    List (InferenceRequest ι H) → List (Except InferenceError (List (ι → H)))
  | [] => []
  | request :: requests =>
    let position := request.startFromPosition.getD columns.length
    let n := request.hiddenStates.length
    if position + n > s.maxLength then [.error (.maximumLength position n s.maxLength)]
    else if request.hiddenStates = [] then .ok [] :: s.whole (columns.take position) requests
    else
      let columns := (request.hypoIds.elim columns fun σ => columns.map (pick σ)).take position ++ request.hiddenStates
      .ok ((CausalBlock.fullStack (s.backends.map fun b => b.module.rows) columns).drop position) ::
        s.whole columns requests

/-- Every request starts at a position reached before. -/
def InOrder : Nat → List (InferenceRequest ι H) → Prop
  | _, [] => True
  | position, r :: rs => r.startFromPosition.getD position ≤ position ∧
      InOrder (r.startFromPosition.getD position + r.hiddenStates.length) rs

/-! ## One block -/

theorem flatten_slices {α : Type} {size : Nat} (hs : 0 < size) (xs : List α) : (slices size xs).flatten = xs := by
  have hbegin : ∀ m, ((List.range m).map fun k => (xs.drop (k * size)).take size).flatten = xs.take (m * size) := by
    intro m
    induction m with
    | zero => simp
    | succ m ih =>
      rw [List.range_succ, List.map_append, List.flatten_append, ih, Nat.succ_mul, List.take_add]
      simp
  rw [slices, hbegin, List.take_of_length_le]
  have := Nat.div_add_mod (xs.length + size - 1) size
  have hmod := Nat.mod_lt (xs.length + size - 1) hs
  rw [Nat.mul_comm] at this
  omega

theorem foldl_forwardChunk (backend : TransformerBackend H K) (chunks : List (List (ι → H)))
    (done : List (ι → K) × List (ι → H)) :
    chunks.foldl (fun (done : List (ι → K) × List (ι → H)) chunk =>
      let step := backend.forwardChunk done.1 chunk
      (step.2, done.2 ++ step.1)) done =
      (done.1 ++ backend.module.rows.entries done.1.length chunks.flatten,
        done.2 ++ backend.module.rows.run done.1 chunks.flatten) := by
  induction chunks generalizing done with
  | nil => simp [CausalBlock.entries, CausalBlock.run]
  | cons chunk chunks ih =>
    rw [List.foldl_cons, ih]
    simp [TransformerBackend.forwardChunk, CausalBlock.entries_append, CausalBlock.run_append]

/-- Chunks or not, a step runs the new columns after the entries it starts
from, and writes theirs behind them. -/
theorem inferenceStep_eq (backend : TransformerBackend H K) (batchSize : Nat) {cache : List (ι → K)}
    {prefixLength : Nat} (hypoIds : Option (ι → ι)) {hiddenStates : List (ι → H)}
    (hfit : prefixLength + hiddenStates.length ≤ cache.length) :
    let picked := hypoIds.elim cache fun hypoIds => cache.map (pick hypoIds)
    backend.inferenceStep batchSize cache prefixLength hypoIds hiddenStates = .some
      (picked.take prefixLength ++ backend.module.rows.entries prefixLength hiddenStates ++
          picked.drop (prefixLength + hiddenStates.length),
        backend.module.rows.run (picked.take prefixLength) hiddenStates) := by
  intro picked
  have hpicked : picked.length = cache.length := by
    cases hypoIds <;> simp [picked]
  have htake : (picked.take prefixLength).length = prefixLength := by
    rw [List.length_take, hpicked]
    omega
  have hpos : 0 < backend.estimateMaxChunkLength batchSize hiddenStates.length prefixLength :=
    Nat.lt_of_lt_of_le Nat.one_pos (Nat.le_max_left ..)
  have hpick : hypoIds.elim cache (fun hypoIds => cache.map (pick hypoIds)) = picked := rfl
  rw [TransformerBackend.inferenceStep]
  simp only [hpick, foldl_forwardChunk, flatten_slices hpos, htake, List.nil_append]
  have hlen : (picked.take prefixLength ++ backend.module.rows.entries prefixLength hiddenStates).length =
      prefixLength + hiddenStates.length := by
    rw [List.length_append, htake, CausalBlock.length_entries]
  rw [TransformerBackend.updateCache, if_pos (by rw [hlen, hpicked]; exact hfit), hlen]
  have hdrop : (picked.take prefixLength ++ backend.module.rows.entries prefixLength hiddenStates).drop prefixLength =
      backend.module.rows.entries prefixLength hiddenStates := by
    rw [List.drop_append_of_le_length (Nat.le_of_eq htake.symm), List.drop_of_length_le (Nat.le_of_eq htake), List.nil_append]
  rw [hdrop]
  rfl

/-- The cache has, up to `position`, the entries of what the block was given. -/
structure CacheHolds (backend : TransformerBackend H K) (maxLength position : Nat) (cache : List (ι → K))
    (given : List (ι → H)) : Prop where
  size : cache.length = maxLength
  reach : given.length = position
  entries : cache.take position = backend.module.rows.entries 0 given

variable {backend : TransformerBackend H K} {maxLength position p : Nat} {cache : List (ι → K)}
  {given : List (ι → H)}

theorem CacheHolds.cutBack (h : CacheHolds backend maxLength position cache given) (hp : p ≤ position) :
    CacheHolds backend maxLength p cache (given.take p) where
  size := h.size
  reach := by rw [List.length_take, h.reach, Nat.min_eq_left hp]
  entries := by rw [CausalBlock.entries_take, ← h.entries, List.take_take, Nat.min_eq_left hp]

theorem CacheHolds.picked (h : CacheHolds backend maxLength position cache given) (hypoIds : Option (ι → ι)) :
    CacheHolds backend maxLength position (hypoIds.elim cache fun σ => cache.map (pick σ))
      (hypoIds.elim given fun σ => given.map (pick σ)) := by
  cases hypoIds with
  | none => exact h
  | some σ =>
    refine ⟨?_, ?_, ?_⟩
    · simpa using h.size
    · simpa using h.reach
    · simp only [Option.elim_some]
      rw [← List.map_take, h.entries, CausalBlock.entries_rows_pick]

/-- **A step of one block** answers as the whole sequence does, and its cache
holds what the block was given. -/
theorem CacheHolds.step (h : CacheHolds backend maxLength position cache given) (hp : p ≤ position)
    (batchSize : Nat) (hypoIds : Option (ι → ι)) {xs : List (ι → H)} (hfit : p + xs.length ≤ maxLength) :
    let kept := (hypoIds.elim given fun σ => given.map (pick σ)).take p
    ∃ cache', backend.inferenceStep batchSize cache p hypoIds xs =
        .some (cache', (backend.module.rows.full (kept ++ xs)).drop kept.length) ∧
      CacheHolds backend maxLength (p + xs.length) cache' (kept ++ xs) := by
  intro kept
  have hkept := (h.picked hypoIds).cutBack hp
  generalize hpicked : (hypoIds.elim cache fun σ => cache.map (pick σ)) = picked at hkept
  have hstep := inferenceStep_eq backend batchSize hypoIds (by rw [h.size]; exact hfit : p + xs.length ≤ _)
  rw [hpicked] at hstep
  dsimp only at hstep
  have hlen : kept.length = p := hkept.reach
  refine ⟨picked.take p ++ backend.module.rows.entries p xs ++ picked.drop (p + xs.length), ?_, ?_, ?_, ?_⟩
  · rw [hstep, hkept.entries, CausalBlock.run_entries]
  · have := hkept.size
    simp only [List.length_append, List.length_take, CausalBlock.length_entries, List.length_drop]
    omega
  · simp [hlen]
  · have htake : (picked.take p ++ backend.module.rows.entries p xs).length = p + xs.length := by
      rw [List.length_append, hkept.entries, CausalBlock.length_entries, CausalBlock.length_entries, hlen]
    rw [List.take_append_of_le_length (Nat.le_of_eq htake.symm), List.take_of_length_le (Nat.le_of_eq htake), hkept.entries,
      CausalBlock.entries_append, hlen, Nat.zero_add]

/-! ## The blocks of a session -/

/-- Every block's cache holds what that block was given. -/
def CachesHold (maxLength position : Nat) :
    List (TransformerBackend H K) → List (List (ι → K)) → List (List (ι → H)) → Prop
  | backend :: backends, cache :: caches, given :: rest =>
    CacheHolds backend maxLength position cache given ∧ CachesHold maxLength position backends caches rest
  | [], [], [] => True
  | _, _, _ => False

variable [Add H] {backends : List (TransformerBackend H K)} {caches : List (List (ι → K))}
  {kept : List (List (ι → H))}

omit [Add H] in
theorem CachesHold.cutBack (h : CachesHold maxLength position backends caches kept) (hp : p ≤ position) :
    CachesHold maxLength p backends caches (kept.map (·.take p)) := by
  induction backends generalizing caches kept with
  | nil =>
    cases caches <;> cases kept <;> simp_all [CachesHold]
  | cons backend backends ih =>
    cases caches with
    | nil => cases kept <;> simp [CachesHold] at h
    | cons cache caches =>
      cases kept with
      | nil => simp [CachesHold] at h
      | cons given kept => exact ⟨h.1.cutBack hp, ih h.2⟩

theorem addPrompt_eq (prompt : Option (List (ι → H))) (hiddenStates : List (ι → H)) :
    addPrompt prompt hiddenStates =
      if prompt.all (·.length ≤ hiddenStates.length) then .some (plus prompt hiddenStates) else .none := by
  cases prompt with
  | none => rfl
  | some prompt => simp [addPrompt, plus]

theorem length_plus {prompt : Option (List (ι → H))} {hiddenStates : List (ι → H)}
    (h : prompt.all (·.length ≤ hiddenStates.length) = true) :
    (plus prompt hiddenStates).length = hiddenStates.length := by
  cases prompt with
  | none => rfl
  | some prompt =>
    simp only [Option.all_some, decide_eq_true_eq] at h
    simp only [plus, Option.elim_some, List.length_append, List.length_zipWith, List.length_drop]
    omega

/-- **A step of all blocks** is the step that computes everything anew. -/
theorem mergedInferenceStep_ok (batchSize : Nat) (hypoIds : Option (ι → ι)) {prompts : List (Option (List (ι → H)))}
    {xs : List (ι → H)} (h : CachesHold maxLength position backends caches kept) (hp : p ≤ position)
    (hfit : p + xs.length ≤ maxLength) (hprompts : prompts.length = backends.length)
    (hall : promptsFit prompts xs.length = true) :
    let given := kept.map fun ks => (hypoIds.elim ks fun σ => ks.map (pick σ)).take p
    let after := CausalBlock.recompute (backends.map fun b => b.module.rows) (prompts.map plus) given xs
    ∃ caches', mergedInferenceStep batchSize p hypoIds backends caches prompts xs = .some (caches', after.2) ∧
      CachesHold maxLength (p + xs.length) backends caches' after.1 ∧ after.2.length = xs.length := by
  induction backends generalizing caches kept prompts xs with
  | nil =>
    obtain rfl := List.length_eq_zero_iff.1 hprompts
    cases caches <;> cases kept <;> simp_all [CachesHold, mergedInferenceStep, CausalBlock.recompute]
  | cons backend backends ih =>
    cases caches with
    | nil => cases kept <;> simp [CachesHold] at h
    | cons cache caches =>
    cases kept with
    | nil => simp [CachesHold] at h
    | cons ks kept =>
    cases prompts with
    | nil => simp at hprompts
    | cons prompt prompts =>
    obtain ⟨hcache, hrest⟩ := h
    simp only [promptsFit, List.all_cons, Bool.and_eq_true] at hall
    obtain ⟨hfirst, hothers⟩ := hall
    -- the first block, and the others on its outputs
    have hlen := length_plus hfirst
    obtain ⟨cache', hstep, hcache'⟩ := hcache.step hp batchSize hypoIds (by rw [hlen]; exact hfit)
    have hout : ((backend.module.rows.full ((hypoIds.elim ks fun σ => ks.map (pick σ)).take p ++ plus prompt xs)).drop
        ((hypoIds.elim ks fun σ => ks.map (pick σ)).take p).length).length = xs.length := by
      rw [List.length_drop, CausalBlock.length_full, List.length_append, hlen]
      omega
    obtain ⟨caches', hmerged, hcaches', hlast⟩ := ih hrest (by rw [hout]; exact hfit) (by simpa using hprompts)
      (by rw [hout]; exact hothers)
    rw [hlen] at hcache'
    rw [hout] at hcaches' hlast
    refine ⟨cache' :: caches', ?_, ⟨hcache', hcaches'⟩, hlast⟩
    simp only [mergedInferenceStep, addPrompt_eq, hfirst, if_true, Option.bind_eq_bind, Option.bind_some, hstep, hmerged]
    rfl

/-- A prompt longer than the step fails it. -/
theorem mergedInferenceStep_none (batchSize : Nat) (hypoIds : Option (ι → ι)) {prompts : List (Option (List (ι → H)))}
    {xs : List (ι → H)} (h : CachesHold maxLength position backends caches kept) (hp : p ≤ position)
    (hfit : p + xs.length ≤ maxLength) (hprompts : prompts.length = backends.length)
    (hall : promptsFit prompts xs.length = false) :
    mergedInferenceStep batchSize p hypoIds backends caches prompts xs = .none := by
  induction backends generalizing caches kept prompts xs with
  | nil =>
    obtain rfl := List.length_eq_zero_iff.1 hprompts
    simp [promptsFit] at hall
  | cons backend backends ih =>
    cases caches with
    | nil => cases kept <;> simp [CachesHold] at h
    | cons cache caches =>
    cases kept with
    | nil => simp [CachesHold] at h
    | cons ks kept =>
    cases prompts with
    | nil => simp at hprompts
    | cons prompt prompts =>
    obtain ⟨hcache, hrest⟩ := h
    simp only [mergedInferenceStep, addPrompt_eq]
    by_cases hfirst : prompt.all (·.length ≤ xs.length) = true
    · have hlen := length_plus hfirst
      obtain ⟨cache', hstep, hcache'⟩ := hcache.step hp batchSize hypoIds (by rw [hlen]; exact hfit)
      have hout : ((backend.module.rows.full ((hypoIds.elim ks fun σ => ks.map (pick σ)).take p ++
          plus prompt xs)).drop ((hypoIds.elim ks fun σ => ks.map (pick σ)).take p).length).length = xs.length := by
        rw [List.length_drop, CausalBlock.length_full, List.length_append, hlen]
        omega
      have hothers : promptsFit prompts xs.length = false := by
        simpa [promptsFit, hfirst] using hall
      have hnone := ih hrest (by rw [hout]; exact hfit) (by simpa using hprompts) (by rw [hout]; exact hothers)
      simp only [hfirst, if_true, Option.bind_eq_bind, Option.bind_some, hstep, hnone, Option.bind_none]
    · simp [hfirst]

omit [Add H] in
theorem CachesHold.length (h : CachesHold maxLength position backends caches kept) :
    caches.length = backends.length ∧ kept.length = backends.length := by
  induction backends generalizing caches kept with
  | nil => cases caches <;> cases kept <;> simp_all [CachesHold]
  | cons backend backends ih =>
    cases caches with
    | nil => cases kept <;> simp [CachesHold] at h
    | cons cache caches =>
      cases kept with
      | nil => simp [CachesHold] at h
      | cons ks kept =>
        have := ih h.2
        simp [this]

/-- One task for all blocks or one each: the same. -/
theorem separateInferenceSteps_eq (batchSize prefixLength : Nat) (hypoIds : Option (ι → ι)) :
    separateInferenceSteps batchSize prefixLength hypoIds (H := H) (K := K) =
      mergedInferenceStep batchSize prefixLength hypoIds := by
  funext backends caches prompts hiddenStates
  induction backends generalizing caches prompts hiddenStates with
  | nil => rfl
  | cons backend backends ih =>
    cases caches with
    | nil => rfl
    | cons cache caches =>
      cases prompts with
      | nil => rfl
      | cons prompt prompts =>
        simp only [separateInferenceSteps, mergedInferenceStep, ih, Option.bind_eq_bind, Option.pure_def,
          Option.bind_assoc, Option.bind_some, List.cons_append, List.nil_append]

theorem SessionSettings.runBlocks_eq (s : SessionSettings H K) (prefixLength : Nat) (hypoIds : Option (ι → ι))
    (prompts : List (Option (List (ι → H)))) (hiddenStates : List (ι → H)) :
    s.runBlocks prefixLength hypoIds caches prompts hiddenStates =
      mergedInferenceStep s.batchSize prefixLength hypoIds s.backends caches prompts hiddenStates := by
  rw [SessionSettings.runBlocks, separateInferenceSteps_eq, ite_self]

omit [Add H] in
/-- The caches of a new session hold nothing yet. -/
theorem SessionSettings.fresh_holds (s : SessionSettings H K) :
    CachesHold s.maxLength 0 s.backends (s.fresh (ι := ι)).caches (s.backends.map fun _ => []) := by
  have hall : ∀ backends : List (TransformerBackend H K), CachesHold (ι := ι) s.maxLength 0 backends
      (backends.map fun backend => List.replicate s.maxLength fun _ => backend.zero) (backends.map fun _ => []) := by
    intro backends
    induction backends with
    | nil => exact trivial
    | cons backend backends ih => exact ⟨⟨by simp, rfl, by simp [CausalBlock.entries]⟩, ih⟩
  exact hall s.backends

/-- The server's step and the meaning of it, from caches that hold. -/
theorem SessionSettings.step_plain (s : SessionSettings H K) {state : SessionState ι K} {now : Kept ι H}
    (h : CachesHold s.maxLength now.position s.backends state.caches now.given)
    (hnow : state.prefixLength = now.position) {request : InferenceRequest ι H}
    (hstart : request.startFromPosition.getD now.position ≤ now.position) :
    (∃ e, s.step state request = .error e ∧ s.plainStep now request = .error e) ∨
      ∃ state' now' out, s.step state request = .ok (state', out) ∧ s.plainStep now request = .ok (now', out) ∧
        state'.prefixLength = now'.position ∧
        now'.position = request.startFromPosition.getD now.position + request.hiddenStates.length ∧
        CachesHold s.maxLength now'.position s.backends state'.caches now'.given := by
  simp only [SessionSettings.step, SessionSettings.plainStep, hnow]
  generalize hstart' : request.startFromPosition.getD now.position = start at hstart ⊢
  generalize hprompts : request.prompts.getD (s.backends.map fun _ => .none) = prompts
  by_cases hcount : s.backends.length = prompts.length
  · by_cases hlong : start + request.hiddenStates.length > s.maxLength
    · refine .inl ⟨.maximumLength start request.hiddenStates.length s.maxLength, ?_, ?_⟩ <;>
        simp only [hcount, ne_eq, not_true_eq_false, if_false, if_pos hlong]
    · simp only [hcount, ne_eq, not_true_eq_false, if_false, if_neg hlong]
      by_cases hnone : request.hiddenStates = []
      · refine .inr ⟨_, _, [], by rw [if_pos hnone], by rw [if_pos hnone], rfl, ?_, ?_⟩
        · simp [hnone]
        · exact h.cutBack hstart
      · simp only [if_neg hnone, s.runBlocks_eq]
        cases hall : promptsFit prompts request.hiddenStates.length with
        | false =>
          have := mergedInferenceStep_none s.batchSize request.hypoIds h hstart (by omega) hcount.symm hall
          exact .inl ⟨.shape, by rw [this], by simp⟩
        | true =>
          obtain ⟨caches', hmerged, hcaches', -⟩ :=
            mergedInferenceStep_ok s.batchSize request.hypoIds h hstart (by omega) hcount.symm hall
          refine .inr ⟨_, _, _, by rw [hmerged], by rw [if_pos rfl], rfl, rfl, ?_⟩
          exact hcaches'
  · refine .inl ⟨.prompts prompts.length s.backends.length, ?_, ?_⟩ <;>
      simp only [ne_eq, hcount, not_false_eq_true, if_true]

theorem SessionSettings.iterate_plain (s : SessionSettings H K) {state : SessionState ι K} {now : Kept ι H}
    (h : CachesHold s.maxLength now.position s.backends state.caches now.given)
    (hnow : state.prefixLength = now.position) {requests : List (InferenceRequest ι H)}
    (horder : InOrder now.position requests) : s.iterate state requests = s.plain now requests := by
  induction requests generalizing state now with
  | nil => rfl
  | cons request requests ih =>
    obtain ⟨hstart, hrest⟩ := horder
    rcases s.step_plain h hnow hstart with ⟨e, hs, hp⟩ | ⟨state', now', out, hs, hp, hnow', hposition, hcaches⟩
    · simp [SessionSettings.iterate, SessionSettings.plain, hs, hp]
    · rw [← hposition] at hrest
      simp only [SessionSettings.iterate, SessionSettings.plain, hs, hp, ih hcaches hnow' hrest]

/-- Without prompts what the blocks are given is set by the columns kept. -/
theorem SessionSettings.plain_whole (s : SessionSettings H K) {now : Kept ι H} {columns : List (ι → H)}
    (h : CausalBlock.Stacked ((s.backends.map (·.module)).map .rows) now.given columns)
    (hnow : now.position = columns.length) {requests : List (InferenceRequest ι H)}
    (horder : InOrder now.position requests) (hno : ∀ r ∈ requests, r.prompts = .none) :
    s.plain now requests = s.whole columns requests := by
  induction requests generalizing now columns with
  | nil => rfl
  | cons request requests ih =>
    obtain ⟨hstart, hrest⟩ := horder
    have hfs : (s.backends.map fun b => b.module.rows (ι := ι)) = (s.backends.map (·.module)).map .rows := by
      rw [List.map_map]
      rfl
    have hprompts : request.prompts = .none := hno request (by simp)
    simp only [SessionSettings.plain, SessionSettings.plainStep, SessionSettings.whole, hnow, hprompts,
      Option.getD_none, List.length_map, ne_eq, not_true_eq_false, if_false]
    rw [hnow] at hstart hrest
    generalize request.startFromPosition.getD columns.length = start at hstart hrest ⊢
    have hnone : ∀ r ∈ requests, r.prompts = .none := fun r hr => hno r (List.mem_cons_of_mem _ hr)
    by_cases hlong : start + request.hiddenStates.length > s.maxLength
    · simp only [if_pos hlong]
    · simp only [if_neg hlong]
      by_cases hempty : request.hiddenStates = []
      · simp only [if_pos hempty]
        rw [hempty, List.length_nil, Nat.add_zero] at hrest
        rw [ih (h.take start) (by simp [hstart]) hrest hnone]
      · have hfit : promptsFit (s.backends.map fun _ => (Option.none : Option (List (ι → H))))
            request.hiddenStates.length = true := by simp [promptsFit]
        simp only [if_neg hempty, hfit, if_true]
        have hplus : (s.backends.map fun _ => (Option.none : Option (List (ι → H)))).map plus =
            ((s.backends.map (·.module)).map (CausalBlock.rows (ι := ι))).map fun _ => id := by
          simp only [List.map_map]
          rfl
        have hpicked : CausalBlock.Stacked ((s.backends.map (·.module)).map .rows)
            (now.given.map fun xs => request.hypoIds.elim xs fun σ => xs.map (pick σ))
            (request.hypoIds.elim columns fun σ => columns.map (pick σ)) := by
          cases request.hypoIds with
          | none => simpa using h
          | some σ => exact h.pick σ
        have hmaps : (now.given.map fun xs => request.hypoIds.elim xs fun σ => xs.map (pick σ)).map (·.take start) =
            now.given.map fun xs => (request.hypoIds.elim xs fun σ => xs.map (pick σ)).take start := by
          rw [List.map_map]
          rfl
        have hcut := hpicked.take start
        rw [hmaps] at hcut
        obtain ⟨hkept, hout⟩ := hcut.recompute request.hiddenStates
        have hlen : ((request.hypoIds.elim columns fun σ => columns.map (pick σ)).take start).length = start := by
          cases request.hypoIds <;> simp [hstart]
        rw [hlen] at hout
        rw [hfs, hplus]
        refine congrArg₂ List.cons (congrArg Except.ok hout) ?_
        exact ih hkept (by simp [hlen]) hrest hnone

/-- **A server's session.** Whatever the steps (their lengths, rows picked,
prompts, cuts back to a position reached before, and the chunks they are run
in), the answers are those of a server that keeps no cache and computes
everything anew; without prompts, those of the whole stack of blocks on the
columns kept. Errors come at the same step and are the same. -/
theorem server_session (s : SessionSettings H K) (requests : List (InferenceRequest ι H))
    (horder : InOrder 0 requests) :
    s.iterate s.fresh requests = s.plain ⟨0, s.backends.map fun _ => []⟩ requests ∧
      ((∀ r ∈ requests, r.prompts = .none) → s.iterate s.fresh requests = s.whole [] requests) := by
  have hplain : s.iterate s.fresh requests = s.plain ⟨0, s.backends.map fun _ => []⟩ requests :=
    s.iterate_plain s.fresh_holds rfl horder
  refine ⟨hplain, fun hno => ?_⟩
  rw [hplain]
  refine s.plain_whole ?_ rfl horder hno
  have hstacked : ∀ fs : List (CausalBlock H K), CausalBlock.Stacked (fs.map .rows)
      (fs.map fun _ => ([] : List (ι → H))) [] := by
    intro fs
    induction fs with
    | nil => exact rfl
    | cons f fs ih => exact ⟨fs.map fun _ => [], rfl, ih⟩
  have hgiven : (s.backends.map (·.module)).map (fun _ => ([] : List (ι → H))) = s.backends.map fun _ => [] := by
    rw [List.map_map]
    rfl
  have hnew := hstacked (s.backends.map (·.module))
  rw [hgiven] at hnew
  exact hnew

/-- Two blocks that add up what they have seen, in chunks of four bytes. -/
def sums : TransformerBackend Nat Nat := ⟨⟨fun _ x => x, fun seen _ => seen.foldl Nat.add 0⟩, 0, 4, 1, 1⟩

def sumsSession : SessionSettings Nat Nat := ⟨[sums, sums], 1, 8, 128⟩

/-- Three columns, and then one more after the first two. -/
def sumsRequests : List (InferenceRequest Unit Nat) :=
  [⟨[fun _ => 1, fun _ => 2, fun _ => 3], .none, .none, .none⟩, ⟨[fun _ => 4], .none, .none, .some 2⟩]

theorem server_session_sums : sumsSession.iterate sumsSession.fresh sumsRequests = sumsSession.whole [] sumsRequests :=
  (server_session sumsSession sumsRequests (by simp [sumsRequests, InOrder])).2 (by simp [sumsRequests])

end Petals

end Blitzwing
