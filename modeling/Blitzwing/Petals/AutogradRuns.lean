/-
Training through remote blocks is differentiation in reverse of all of them in
one place, whatever fails.

What a forward pass records is `Staged`: the servers tile the blocks, and each
was given what the blocks before it give. The backward pass takes the last
record, or cuts it into several, and what it has so far is the derivative of
the blocks behind (`BackwardLoop.Inv`).
-/
import Blitzwing.Petals.Autograd

namespace Blitzwing

namespace Petals

variable {Peer α : Type} [Add α] {w : Learner α} {prompts : Option (List (Batch α))}

/-! ## What servers compute -/

/-- All blocks, each with its prompt. -/
def Learner.layers (w : Learner α) (prompts : Option (List (Batch α))) :
    List (Layer (Batch α) (Batch α) (Option (Batch α))) :=
  (w.blocks.zip (promptsOrDummies w.blocks prompts)).map blockLayer

/-- A prompt for each block, or none at all. -/
def Learner.Prompted (w : Learner α) (prompts : Option (List (Batch α))) : Prop :=
  ∀ ps, prompts = .some ps → ps.length = w.blocks.length

theorem chain_blockLayer (es : List (GradBlock α × Option (Batch α))) (h : Batch α) :
    Layer.chain (es.map blockLayer) h = es.foldlM
      (fun hiddenStates e => (addPrompts e.2 hiddenStates).map fun hiddenStates => hiddenStates.map e.1.forward) h := by
  induction es generalizing h with
  | nil => rfl
  | cons e es ih =>
    rw [List.map_cons, Layer.chain, List.foldlM_cons]
    simp only [blockLayer]
    cases addPrompts e.2 h with
    | none => rfl
    | some h' => exact ih _

omit [Add α] in
theorem promptsOrDummies_slice (start stop : Int) :
    promptsOrDummies (slice start stop w.blocks) (prompts.map (slice start stop)) =
      slice start stop (promptsOrDummies w.blocks prompts) := by
  cases prompts <;> simp [promptsOrDummies, slice, List.map_take, List.map_drop]

omit [Add α] in
theorem length_promptsOrDummies (h : w.Prompted prompts) :
    (promptsOrDummies w.blocks prompts).length = w.blocks.length := by
  cases prompts with
  | none => simp [promptsOrDummies]
  | some ps => simpa [promptsOrDummies] using h ps rfl

theorem length_layers (h : w.Prompted prompts) : (w.layers prompts).length = w.blocks.length := by
  simp [Learner.layers, length_promptsOrDummies h]

theorem layers_slice (start stop : Int) :
    ((slice start stop w.blocks).zip
        (promptsOrDummies (slice start stop w.blocks) (prompts.map (slice start stop)))).map blockLayer =
      slice start stop (w.layers prompts) := by
  rw [promptsOrDummies_slice]
  simp only [Learner.layers, slice, List.zip_eq_zipWith]
  rw [← List.take_zipWith, ← List.drop_zipWith, List.map_take, List.map_drop]

/-- A server's answer in the forward pass. -/
theorem forwardSpan_eq (span : RemoteSpanInfo Peer) (inputs : Batch α) :
    w.forwardSpan prompts span inputs = Layer.chain (slice span.start span.stop (w.layers prompts)) inputs := by
  rw [Learner.forwardSpan, runRpcForward, ← chain_blockLayer, layers_slice]

/-- A server's answer in the backward pass. -/
theorem runRpcBackward_eq (h : w.Prompted prompts) (start stop : Int) (inputs gradOutputs : Batch α) :
    runRpcBackward (slice start stop w.blocks) (prompts.map (slice start stop)) inputs gradOutputs =
      (Layer.reverse (slice start stop (w.layers prompts)) inputs gradOutputs).map fun out =>
        (out.1, out.2.filterMap id) := by
  have hlen : (promptsOrDummies (slice start stop w.blocks) (prompts.map (slice start stop))).length =
      (slice start stop w.blocks).length := by
    rw [promptsOrDummies_slice]
    simp only [slice, List.length_take, List.length_drop, length_promptsOrDummies h]
  rw [runRpcBackward, if_pos hlen, layers_slice, Layer.reverse_eq_sweep, Option.map_map]
  rfl

/-! ## What a forward pass records -/

/-- From the block `start` and its inputs on, each server was given what the
blocks before it give, to the block `stop` and the outputs there. -/
def Staged (ls : List (Layer (Batch α) (Batch α) (Option (Batch α)))) :
    Int → Batch α → List (Batch α × RemoteSpanInfo Peer) → Int → Batch α → Prop
  | start, x, [], stop, y => start = stop ∧ x = y
  | start, x, e :: l, stop, y => e.1 = x ∧ e.2.start = start ∧ start < e.2.stop ∧
      ∃ z, Layer.chain (slice start e.2.stop ls) x = .some z ∧ Staged ls e.2.stop z l stop y

namespace Staged

variable {ls : List (Layer (Batch α) (Batch α) (Option (Batch α)))} {start middle stop : Int} {x y z : Batch α}
  {l l' : List (Batch α × RemoteSpanInfo Peer)}

omit [Add α] in
theorem le (h : Staged ls start x l stop y) : start ≤ stop := by
  induction l generalizing start x with
  | nil => exact Int.le_of_eq h.1
  | cons e l ih =>
    obtain ⟨-, -, hlt, v, -, hrest⟩ := h
    have := ih hrest
    omega

omit [Add α] in
theorem chain (h : Staged ls start x l stop y) (h0 : 0 ≤ start) :
    Layer.chain (slice start stop ls) x = .some y := by
  induction l generalizing start x with
  | nil =>
    obtain ⟨rfl, rfl⟩ := h
    rw [slice_self]
    rfl
  | cons e l ih =>
    obtain ⟨-, -, hlt, v, hv, hrest⟩ := h
    rw [slice_append h0 (le_of_lt hlt) hrest.le, Layer.chain_append, hv, Option.bind_some]
    exact ih hrest (by omega)

omit [Add α] in
theorem append (h : Staged ls start x l middle z) (h' : Staged ls middle z l' stop y) :
    Staged ls start x (l ++ l') stop y := by
  induction l generalizing start x with
  | nil =>
    obtain ⟨rfl, rfl⟩ := h
    exact h'
  | cons e l ih =>
    obtain ⟨he, hs, hlt, v, hv, hrest⟩ := h
    exact ⟨he, hs, hlt, v, hv, ih hrest⟩

omit [Add α] in
/-- The last record: what its server was given, and gave. -/
theorem last {e : Batch α × RemoteSpanInfo Peer} (h : Staged ls start x (l ++ [e]) stop y) :
    Staged ls start x l e.2.start e.1 ∧ e.2.start < e.2.stop ∧ e.2.stop = stop ∧
      Layer.chain (slice e.2.start e.2.stop ls) e.1 = .some y := by
  induction l generalizing start x with
  | nil =>
    obtain ⟨rfl, rfl, hlt, v, hv, rfl, rfl⟩ := h
    exact ⟨⟨rfl, rfl⟩, hlt, rfl, hv⟩
  | cons e' l ih =>
    obtain ⟨he, hs, hlt, v, hv, hrest⟩ := h
    obtain ⟨hbefore, hrest'⟩ := ih hrest
    exact ⟨⟨he, hs, hlt, v, hv, hbefore⟩, hrest'⟩

end Staged

/-! ## The forward pass -/

/-- What the routes of an attempt are, if it has any: they may go past the end,
and only with the last server. -/
def ForwardAttempt.Routes (w : Learner α) (a : ForwardAttempt Peer) : Prop :=
  ∀ start stop route, 0 ≤ start → start < stop → stop ≤ w.numBlocks → a.makeSequence start stop = .some route →
    (∃ last, Span.Chain start (route.map (·.span)) last ∧ stop ≤ last) ∧ (∀ s ∈ route.dropLast, s.stop < stop) ∧
      ∀ s ∈ route, s.start < s.stop

omit [Add α] in
/-- The routes by throughput through a table are good ones. -/
theorem ForwardAttempt.routes_of_throughput [DecidableEq Peer] {t : SortedSpans Peer}
    (ht : t.Consistent w.blocks.length) {rtts : Peer → Option Rtt} {draw : Nat → Nat} {a : ForwardAttempt Peer}
    (ha : ∀ start stop, a.makeSequence start stop =
      (makeSequenceWithMaxThroughput t rtts draw start stop 0).toOption) : a.Routes w := by
  classical
  intro start stop route h0 hlt hstop hroute
  rw [ha] at hroute
  by_cases hheld : ∀ b, start ≤ b → b < stop → t.Holds b
  · obtain ⟨route', last, heq, hR, hlast, hends⟩ :=
      makeSequenceWithMaxThroughput_ok ht rtts draw h0 hstop hheld 0
    rw [heq] at hroute
    obtain rfl : route' = route := Option.some.inj hroute
    exact ⟨⟨last, hR.chain, by omega⟩, hends, fun s hs => (hR.served hs).2.1⟩
  · -- the first block no server has makes the search fail
    have hex : ∃ k : Nat, start + k < stop ∧ ¬ t.Holds (start + k) := by
      push Not at hheld
      obtain ⟨b, hle, hb, hno⟩ := hheld
      have hk : start + ((b - start).toNat : Int) = b := by omega
      exact ⟨(b - start).toNat, by omega, by rwa [hk]⟩
    obtain ⟨hfirst, hno⟩ := Nat.find_spec hex
    have herr := makeSequenceWithMaxThroughput_error ht rtts draw h0 hstop (by omega) hfirst hno
      (fun c hc hlt => by
        by_contra hnc
        have hk : start + ((c - start).toNat : Int) = c := by omega
        have hmin := Nat.find_min' hex (m := (c - start).toNat) ⟨by omega, by rwa [hk]⟩
        omega) 0
    rw [herr] at hroute
    exact absurd hroute (by simp [Except.toOption])

omit [Add α] in
/-- Its last server cut back to the end, a route is one to the end. -/
theorem clipLast_routeFrom {start stop last : Int} (hlt : start < stop) {route : List (RemoteSpanInfo Peer)}
    (hchain : Span.Chain start (route.map (·.span)) last) (hlast : stop ≤ last)
    (hends : ∀ s ∈ route.dropLast, s.stop < stop) (hpos : ∀ s ∈ route, s.start < s.stop) :
    ∃ s rest, clipLast route stop = .some (s :: rest) ∧ RouteFrom start stop (s :: rest) := by
  have hne : route ≠ [] := by
    rintro rfl
    obtain rfl : start = last := hchain
    omega
  obtain ⟨l, hl⟩ := Option.ne_none_iff_exists'.1 (mt List.getLast?_eq_none_iff.1 hne)
  obtain ⟨init, rfl⟩ := List.getLast?_eq_some_iff.1 hl
  rw [List.dropLast_concat] at hends
  rw [List.map_append, Span.chain_append] at hchain
  obtain ⟨m, hinit, hstart, hstop⟩ := hchain
  have hstart : l.start = m := hstart
  have hstop : l.stop = last := hstop
  -- the servers before the last one end before `stop`
  have hm : m < stop := by
    rcases List.eq_nil_or_concat init with rfl | ⟨init', s, rfl⟩
    · obtain rfl : start = m := hinit
      exact hlt
    · rw [List.concat_eq_append, List.map_append, Span.chain_append] at hinit
      obtain ⟨-, -, -, hs⟩ := hinit
      have hs : s.stop = m := hs
      exact hs ▸ hends s (by simp)
  have hclip : clipLast (init ++ [l]) stop = .some (init ++ [{ l with stop := stop }]) := by
    simp [clipLast, hstop, min_eq_right hlast]
  have hfrom : RouteFrom start stop (init ++ [{ l with stop := stop }]) := by
    refine ⟨?_, fun s hs => ?_⟩
    · rw [List.map_append, Span.chain_append]
      exact ⟨m, hinit, hstart, rfl⟩
    · rcases List.mem_append.1 hs with hs | hs
      · exact hpos s (List.mem_append_left _ hs)
      · obtain rfl := List.mem_singleton.1 hs
        show l.start < stop
        omega
  rcases init with - | ⟨s, init⟩
  · exact ⟨_, _, hclip, hfrom⟩
  · exact ⟨s, _, hclip, hfrom⟩

namespace ForwardLoop

/-- What holds whenever an attempt begins: the records are those of the blocks
so far, and what is left of the route leads on. -/
structure Inv (w : Learner α) (prompts : Option (List (Batch α))) (startIndex endIndex : Int) (inputs : Batch α)
    (st : ForwardLoop Peer α) : Prop where
  aligned : st.intermediateInputs.length = st.doneSequences.length
  staged : Staged (w.layers prompts) startIndex inputs (st.intermediateInputs.zip st.doneSequences)
    st.blockIdx st.inputs
  le : st.blockIdx ≤ endIndex
  route : st.attemptNo = 0 → st.sequences = [] ∨ RouteFrom st.blockIdx endIndex st.sequences
  shape : st.inputs.map List.length = inputs.map List.length

variable {startIndex endIndex : Int} {inputs : Batch α} {st : ForwardLoop Peer α}

theorem Inv.failed (h : Inv w prompts startIndex endIndex inputs st) (sequences : List (RemoteSpanInfo Peer)) :
    Inv w prompts startIndex endIndex inputs (st.failed sequences) where
  aligned := h.aligned
  staged := h.staged
  le := h.le
  route h0 := absurd h0 (Nat.succ_ne_zero _)
  shape := h.shape

/-- **A server's answer** is that of the blocks it was asked for. -/
theorem Inv.served (h : Inv w prompts startIndex endIndex inputs st) {span : RemoteSpanInfo Peer}
    {sequences : List (RemoteSpanInfo Peer)} (hroute : RouteFrom st.blockIdx endIndex (span :: sequences))
    {outputs : Batch α} (hout : w.forwardSpan prompts span st.inputs = .some outputs)
    (hshape : outputs.map List.length = st.inputs.map List.length) :
    Inv w prompts startIndex endIndex inputs
      ⟨sequences, span.stop, 0, outputs, st.intermediateInputs ++ [st.inputs], st.doneSequences ++ [span]⟩ := by
  obtain ⟨⟨hstart, hrest⟩, hpos⟩ := hroute
  have hstart : span.start = st.blockIdx := hstart
  have hrest : Span.Chain span.stop (sequences.map (·.span)) endIndex := hrest
  have hspan := hpos span (by simp)
  have hpos' : ∀ s ∈ sequences, s.start < s.stop := fun s hs => hpos s (List.mem_cons_of_mem _ hs)
  have hle : span.stop ≤ endIndex := (Span.Chain.bounds (by
    simpa [RemoteSpanInfo.span] using fun s hs => Int.le_of_lt (hpos' s hs)) hrest).1
  refine ⟨by simp [h.aligned], ?_, hle, fun _ => .inr ⟨hrest, hpos'⟩, hshape.trans h.shape⟩
  rw [List.zip_append h.aligned]
  rw [forwardSpan_eq, hstart] at hout
  exact h.staged.append ⟨rfl, hstart, hstart ▸ hspan, outputs, hout, rfl, rfl⟩

theorem Inv.attempt (h : Inv w prompts startIndex endIndex inputs st) (h0 : 0 ≤ startIndex)
    (hend : endIndex ≤ w.numBlocks) (hlt : st.blockIdx < endIndex) {a : ForwardAttempt Peer} (ha : a.Routes w) :
    Inv w prompts startIndex endIndex inputs (st.attempt w prompts endIndex a).1 := by
  -- whichever route is used, it leads from the block to the end
  have hfound : ∀ span sequences, (if st.sequences.isEmpty || 1 ≤ st.attemptNo then
      (a.makeSequence st.blockIdx endIndex).bind (clipLast · endIndex)
      else .some st.sequences) = .some (span :: sequences) → RouteFrom st.blockIdx endIndex (span :: sequences) := by
    intro span sequences hfound
    split at hfound
    · obtain ⟨route, hroute, hclip⟩ := Option.bind_eq_some_iff.1 hfound
      obtain ⟨⟨last, hchain, hlast⟩, hends, hpos⟩ :=
        ha st.blockIdx endIndex route (h0.trans h.staged.le) hlt hend hroute
      obtain ⟨s, rest, hclip', hfrom⟩ := clipLast_routeFrom hlt hchain hlast hends hpos
      rw [hclip'] at hclip
      exact Option.some.inj hclip ▸ hfrom
    · next hold =>
      have hne : ¬ st.sequences = [] ∧ st.attemptNo = 0 := by
        simpa [List.isEmpty_iff] using hold
      exact Option.some.inj hfound ▸ (h.route hne.2).resolve_left hne.1
  simp only [ForwardLoop.attempt]
  split
  · exact h.failed _
  · exact h.failed _
  · next span sequences heq =>
    split
    · exact h.failed _
    · next outputs hout =>
      split
      · next hshape =>
        refine h.served (hfound span sequences heq) ?_ hshape
        split at hout
        · exact hout
        · exact absurd hout (by simp)
      · exact h.failed _

/-- **A forward pass** that returns has come to the end. -/
theorem Inv.run {attempts : List (ForwardAttempt Peer)} (hroutes : ∀ a ∈ attempts, a.Routes w)
    (h : Inv w prompts startIndex endIndex inputs st) (h0 : 0 ≤ startIndex) (hend : endIndex ≤ w.numBlocks)
    {last : ForwardLoop Peer α} (hrun : ForwardLoop.run w prompts endIndex attempts st = .returned last) :
    Inv w prompts startIndex endIndex inputs last ∧ last.blockIdx = endIndex := by
  induction attempts generalizing st with
  | nil =>
    rw [ForwardLoop.run] at hrun
    split at hrun
    · exact absurd hrun (by simp)
    · obtain rfl : st = last := ForwardEnd.returned.inj hrun
      exact ⟨h, by have := h.le; omega⟩
  | cons a attempts ih =>
    rw [ForwardLoop.run] at hrun
    split at hrun
    · next hlt =>
      have hnext := h.attempt h0 hend hlt (hroutes a (by simp))
      dsimp only at hrun
      split at hrun
      · exact absurd hrun (by simp)
      · exact ih (fun b hb => hroutes b (List.mem_cons_of_mem _ hb)) hnext hrun
    · obtain rfl : st = last := ForwardEnd.returned.inj hrun
      exact ⟨h, by have := h.le; omega⟩

end ForwardLoop

/-- What a forward pass returns. -/
theorem sequentialForward_returned {startIndex endIndex : Int} (hle : startIndex ≤ endIndex) {inputs : Batch α}
    {attempts : List (ForwardAttempt Peer)} (hroutes : ∀ a ∈ attempts, a.Routes w) {last : ForwardLoop Peer α}
    (hrun : sequentialForward w prompts endIndex inputs startIndex attempts = .returned last) :
    w.Prompted prompts ∧ last.intermediateInputs.length = last.doneSequences.length ∧
      Staged (w.layers prompts) startIndex inputs (last.intermediateInputs.zip last.doneSequences) endIndex
        last.inputs ∧ last.inputs.map List.length = inputs.map List.length := by
  rw [sequentialForward] at hrun
  split at hrun
  · next hassert =>
    obtain ⟨⟨h0, hend⟩, hprompts⟩ : (0 ≤ startIndex ∧ endIndex ≤ w.numBlocks) ∧
        prompts.all (fun prompts => prompts.length = w.blocks.length) = true := by simpa using hassert
    have hstart : ForwardLoop.Inv w prompts startIndex endIndex inputs
        (⟨[], startIndex, 0, inputs, [], []⟩ : ForwardLoop Peer α) :=
      ⟨rfl, ⟨rfl, rfl⟩, hle, fun _ => .inl rfl, rfl⟩
    obtain ⟨hinv, hblock⟩ := hstart.run hroutes h0 hend hrun
    refine ⟨fun ps hps => ?_, hinv.aligned, hblock ▸ hinv.staged, hinv.shape⟩
    subst hps
    simpa using hprompts
  · exact absurd hrun (by simp)

/-! ## The backward pass -/

namespace BackwardLoop

/-- The records still to be taken lead to a block, and the gradient so far is
the derivative of the blocks from there on. -/
structure Good (w : Learner α) (prompts : Option (List (Batch α))) (start : Int) (inputs : Batch α) (stop : Int)
    (gradOutputs : Batch α) (st : BackwardLoop Peer α) (records : List (Batch α × RemoteSpanInfo Peer)) : Prop where
  aligned : st.intermediateInputs.length = st.forwardSequences.length
  behind : ∃ block hidden grads, block ≤ stop ∧ Staged (w.layers prompts) start inputs records block hidden ∧
    Layer.reverse (slice block stop (w.layers prompts)) hidden gradOutputs = .some (st.gradOutputs, grads) ∧
    st.gradPromptsReversed.reverse.flatten = grads.filterMap id
  pieces : [] ∉ st.gradPromptsReversed

/-- What is on the stacks. -/
def stacked (st : BackwardLoop Peer α) : List (Batch α × RemoteSpanInfo Peer) :=
  st.intermediateInputs.zip st.forwardSequences

variable {start stop : Int} {inputs gradOutputs : Batch α} {st st' : BackwardLoop Peer α}
  {current : Batch α × RemoteSpanInfo Peer}

omit [Add α] in
theorem stacked_of_pop (haligned : st.intermediateInputs.length = st.forwardSequences.length)
    (h : st.pop = .some (current, st')) : st.stacked = st'.stacked ++ [current] ∧
      st'.intermediateInputs.length = st'.forwardSequences.length ∧ st'.attemptNo = st.attemptNo ∧
      st'.gradOutputs = st.gradOutputs ∧ st'.gradPromptsReversed = st.gradPromptsReversed := by
  rw [pop] at h
  split at h
  · next given span hgiven hspan =>
    obtain ⟨rfl, rfl⟩ := Prod.mk.inj (Option.some.inj h)
    obtain ⟨givens, hgivens⟩ := List.getLast?_eq_some_iff.1 hgiven
    obtain ⟨spans, hspans⟩ := List.getLast?_eq_some_iff.1 hspan
    have hlen : givens.length = spans.length := by simpa [hgivens, hspans] using haligned
    refine ⟨?_, ?_, rfl, rfl, rfl⟩
    · simp only [stacked, hgivens, hspans, List.dropLast_concat, List.zip_append hlen]
      rfl
    · simp only [hgivens, hspans, List.dropLast_concat, hlen]
  · exact absurd h (by simp)

omit [Add α] in
theorem stacked_of_pop_none (h : st.pop = .none) : st.stacked = [] := by
  rcases List.eq_nil_or_concat st.intermediateInputs with hnil | ⟨givens, given, hgivens⟩
  · rw [stacked, hnil, List.zip_nil_left]
  · rcases List.eq_nil_or_concat st.forwardSequences with hnil | ⟨spans, span, hspans⟩
    · rw [stacked, hnil, List.zip_nil_right]
    · simp [pop, hgivens, hspans] at h

/-- What is taken is the last record. -/
theorem Good.take (h : st.Good w prompts start inputs stop gradOutputs (st.stacked ++ st.current.toList)) :
    (st.take = .none ∧ st.stacked ++ st.current.toList = []) ∨ ∃ current st', st.take = .some (current, st') ∧
      st'.Good w prompts start inputs stop gradOutputs (st'.stacked ++ [current]) := by
  rw [BackwardLoop.take]
  cases hcurrent : st.current with
  | some current => exact .inr ⟨current, st, rfl, by rwa [hcurrent] at h⟩
  | none =>
    rw [hcurrent, Option.toList_none, List.append_nil] at h
    rw [Option.toList_none, List.append_nil]
    cases hpop : st.pop with
    | none => exact .inl ⟨rfl, stacked_of_pop_none hpop⟩
    | some popped =>
      obtain ⟨current, st'⟩ := popped
      obtain ⟨hstacked, haligned, -, hgrad, hpieces⟩ := stacked_of_pop h.aligned hpop
      refine .inr ⟨current, st', rfl, haligned, ?_, by rw [hpieces]; exact h.pieces⟩
      rw [← hstacked, hgrad, hpieces]
      exact h.behind

theorem Good.failed (h : st.Good w prompts start inputs stop gradOutputs (st.stacked ++ [current])) :
    (st.failed current).Good w prompts start inputs stop gradOutputs
      ((st.failed current).stacked ++ (st.failed current).current.toList) :=
  ⟨h.aligned, h.behind, h.pieces⟩

/-- **A server's answer** is the derivative of its blocks, so what is behind
grows by them. -/
theorem Good.call (hprompts : w.Prompted prompts) (h0 : 0 ≤ start)
    (h : st.Good w prompts start inputs stop gradOutputs (st.stacked ++ [current])) (replies : Bool) :
    (st.call w prompts current replies).1.Good w prompts start inputs stop gradOutputs
      ((st.call w prompts current replies).1.stacked ++ (st.call w prompts current replies).1.current.toList) := by
  rw [BackwardLoop.call]
  split
  · exact h.failed
  · next grad pieces heq =>
    obtain ⟨block, hidden, grads, hle, hstaged, hbehind, hflat⟩ := h.behind
    obtain ⟨hbefore, hlt, rfl, hchain⟩ := hstaged.last
    have hcall : runRpcBackward (slice current.2.start current.2.stop w.blocks)
        (prompts.map (slice current.2.start current.2.stop)) current.1 st.gradOutputs = .some (grad, pieces) := by
      split at heq
      · exact heq
      · exact absurd heq (by simp)
    rw [runRpcBackward_eq hprompts] at hcall
    obtain ⟨⟨grad', grads'⟩, hreverse, hout⟩ := Option.map_eq_some_iff.1 hcall
    obtain ⟨rfl, rfl⟩ := Prod.mk.inj hout
    refine ⟨h.aligned, ⟨current.2.start, current.1, grads' ++ grads, by omega, ?_, ?_, ?_⟩, ?_⟩
    · simpa [stacked] using hbefore
    · rw [slice_append (h0.trans hbefore.le) (le_of_lt hlt) hle, Layer.reverse_append, hchain, Option.bind_some,
        hbehind, Option.bind_some, hreverse]
      rfl
    · rw [List.filterMap_append, ← hflat]
      split
      · next hnil =>
        rw [show grads'.filterMap id = [] from hnil, List.append_nil, List.nil_append]
      · simp
    · split
      · simpa using h.pieces
      · next hne =>
        rw [List.mem_append, List.mem_singleton]
        exact not_or.2 ⟨h.pieces, Ne.symm hne⟩

/-- **An attempt.** A part run forward again is cut into records that lead to
the same hidden states. -/
theorem Good.attempt (hprompts : w.Prompted prompts) (h0 : 0 ≤ start)
    (h : st.Good w prompts start inputs stop gradOutputs (st.stacked ++ [current])) {a : BackwardAttempt Peer}
    (hroutes : ∀ b ∈ a.forward, b.Routes w) {next : BackwardLoop Peer α × Bool}
    (hnext : st.attempt w prompts current a = .some next) :
    next.1.Good w prompts start inputs stop gradOutputs (next.1.stacked ++ next.1.current.toList) := by
  rw [BackwardLoop.attempt] at hnext
  split at hnext
  · split at hnext
    · exact absurd hnext (by simp)
    · exact Option.some.inj hnext ▸ h.failed
    · next backup hbackup =>
      split at hnext
      · next hends =>
        obtain ⟨block, hidden, grads, hle, hstaged, hbehind, hflat⟩ := h.behind
        obtain ⟨hbefore, hlt, rfl, hchain⟩ := hstaged.last
        obtain ⟨-, haligned, hagain, -⟩ := sequentialForward_returned (le_of_lt hlt) hroutes hbackup
        -- the part gives what it gave before
        have hsame : backup.inputs = hidden := by
          have := hagain.chain (h0.trans hbefore.le)
          rw [hchain] at this
          exact (Option.some.inj this).symm
        subst hsame
        let extended : BackwardLoop Peer α := { st with
          intermediateInputs := st.intermediateInputs ++ backup.intermediateInputs
          forwardSequences := st.forwardSequences ++ backup.doneSequences }
        have hlen : extended.intermediateInputs.length = extended.forwardSequences.length := by
          simp [extended, h.aligned, haligned]
        have hstacked : extended.stacked = st.stacked ++ backup.intermediateInputs.zip backup.doneSequences :=
          List.zip_append h.aligned
        have hgood : extended.Good w prompts start inputs stop gradOutputs extended.stacked :=
          ⟨hlen, ⟨_, _, grads, hle, hstacked ▸ hbefore.append hagain, hbehind, hflat⟩, h.pieces⟩
        dsimp only at hnext
        split at hnext
        · next hpop =>
          -- the part has a block, so there is a record of it
          have hnil : extended.stacked = [] := stacked_of_pop_none hpop
          rw [hstacked, List.append_eq_nil_iff] at hnil
          rw [hnil.2] at hagain
          have := hagain.1
          omega
        · next current' st' hpop =>
          obtain ⟨hst, haligned', -, hgrad, hpieces⟩ := stacked_of_pop hlen hpop
          have hat : st'.Good w prompts start inputs stop gradOutputs (st'.stacked ++ [current']) :=
            ⟨haligned', by rw [← hst, hgrad, hpieces]; exact hgood.behind, by rw [hpieces]; exact hgood.pieces⟩
          exact Option.some.inj hnext ▸ hat.call hprompts h0 _
      · exact Option.some.inj hnext ▸ h.failed
  · exact Option.some.inj hnext ▸ h.call hprompts h0 _

/-- **A backward pass** that returns has taken every record. -/
theorem Good.run (hprompts : w.Prompted prompts) (h0 : 0 ≤ start) {attempts : List (BackwardAttempt Peer)}
    (hroutes : ∀ a ∈ attempts, ∀ b ∈ a.forward, b.Routes w)
    (h : st.Good w prompts start inputs stop gradOutputs (st.stacked ++ st.current.toList))
    {last : BackwardLoop Peer α} (hrun : BackwardLoop.run w prompts attempts st = .returned last) :
    last.Good w prompts start inputs stop gradOutputs [] ∧ last.stacked = [] := by
  induction attempts generalizing st with
  | nil =>
    rw [BackwardLoop.run] at hrun
    rcases h.take with ⟨htake, hnil⟩ | ⟨current, st', htake, -⟩
    · rw [htake] at hrun
      obtain rfl : st = last := BackwardEnd.returned.inj hrun
      exact ⟨hnil ▸ h, (List.append_eq_nil_iff.1 hnil).1⟩
    · rw [htake] at hrun
      exact absurd hrun (by simp)
  | cons a attempts ih =>
    rw [BackwardLoop.run] at hrun
    rcases h.take with ⟨htake, hnil⟩ | ⟨current, st', htake, hgood⟩
    · rw [htake] at hrun
      obtain rfl : st = last := BackwardEnd.returned.inj hrun
      exact ⟨hnil ▸ h, (List.append_eq_nil_iff.1 hnil).1⟩
    · rw [htake] at hrun
      dsimp only at hrun
      split at hrun
      · exact absurd hrun (by simp)
      · next next hnext =>
        have hafter := hgood.attempt hprompts h0 (hroutes a (by simp)) hnext
        split at hrun
        · exact absurd hrun (by simp)
        · exact ih (fun b hb => hroutes b (List.mem_cons_of_mem _ hb)) hafter hrun

end BackwardLoop

/-- A block has a gradient for its prompt just where it has a prompt. -/
theorem isSome_of_reverse {es : List (GradBlock α × Option (Batch α))} {x g r : Batch α}
    {grads : List (Option (Batch α))} (h : Layer.reverse (es.map blockLayer) x g = .some (r, grads)) :
    grads.map Option.isSome = es.map fun e => e.2.isSome := by
  induction es generalizing x r grads with
  | nil =>
    obtain ⟨-, rfl⟩ := Prod.mk.inj (Option.some.inj h)
    rfl
  | cons e es ih =>
    rw [List.map_cons, Layer.reverse] at h
    obtain ⟨hidden, -, h⟩ := Option.bind_eq_some_iff.1 h
    obtain ⟨after, hafter, h⟩ := Option.map_eq_some_iff.1 h
    obtain ⟨-, rfl⟩ := Prod.mk.inj h
    rw [List.map_cons, List.map_cons, ih hafter]
    simp [blockLayer]

theorem isSome_of_reverse_layers (hprompts : w.Prompted prompts) {x g r : Batch α} {grads : List (Option (Batch α))}
    (h : Layer.reverse (w.layers prompts) x g = .some (r, grads)) :
    grads.map Option.isSome = (promptsOrDummies w.blocks prompts).map Option.isSome := by
  -- each block is beside its prompt
  have hzip : (w.blocks.zip (promptsOrDummies w.blocks prompts)).map Prod.snd = promptsOrDummies w.blocks prompts :=
    List.map_snd_zip (by rw [length_promptsOrDummies hprompts])
  rw [isSome_of_reverse h, ← congrArg (List.map Option.isSome) hzip, List.map_map]
  rfl

omit [Add α] in
/-- The pieces put together are a gradient for each block, or none at all. -/
theorem promptsOrDummies_of_flatten (hprompts : w.Prompted prompts) {grads : List (Option (Batch α))}
    (hsome : grads.map Option.isSome = (promptsOrDummies w.blocks prompts).map Option.isSome)
    {pieces : List (List (Batch α))} (hne : [] ∉ pieces) (hflat : pieces.reverse.flatten = grads.filterMap id) :
    grads = promptsOrDummies w.blocks (if pieces = [] then .none else .some pieces.reverse.flatten) := by
  have hlen : grads.length = w.blocks.length := by
    have := congrArg List.length hsome
    rwa [List.length_map, List.length_map, length_promptsOrDummies hprompts] at this
  cases prompts with
  | none =>
    have hnone : ∀ g ∈ grads, g = .none := by
      intro g hg
      have hmem : g.isSome ∈ grads.map Option.isSome := List.mem_map_of_mem hg
      rw [hsome] at hmem
      exact (by simpa [promptsOrDummies] using hmem : _ ∧ g = .none).2
    have hnil : pieces = [] := by
      have hno : grads.filterMap id = [] := List.filterMap_eq_nil_iff.2 hnone
      rw [hno, List.flatten_eq_nil_iff] at hflat
      exact List.eq_nil_iff_forall_not_mem.2 fun p hp =>
        hne (hflat p (List.mem_reverse.2 hp) ▸ hp)
    rw [if_pos hnil, List.eq_replicate_iff.2 ⟨hlen, hnone⟩]
    simp [promptsOrDummies]
  | some ps =>
    have hall : ∀ g ∈ grads, g.isSome = true := by
      intro g hg
      have hmem : g.isSome ∈ grads.map Option.isSome := List.mem_map_of_mem hg
      rw [hsome] at hmem
      obtain ⟨e, he, hmem⟩ := List.mem_map.1 hmem
      obtain ⟨p, -, rfl⟩ := List.mem_map.1 he
      exact hmem.symm
    have hmap : (grads.filterMap id).map Option.some = grads := by
      clear hsome hflat hlen
      induction grads with
      | nil => rfl
      | cons g grads ih =>
        obtain ⟨v, rfl⟩ := Option.isSome_iff_exists.1 (hall g (by simp))
        exact congrArg (Option.some v :: ·) (ih fun g hg => hall g (List.mem_cons_of_mem _ hg))
    split
    · next hnil =>
      rw [hnil] at hflat
      rw [← hmap, ← hflat] at hlen ⊢
      have hblocks : w.blocks = [] := List.length_eq_zero_iff.1 hlen.symm
      rw [hblocks]
      rfl
    · rw [hflat]
      exact hmap.symm

/-- A backward pass through what a forward pass recorded is the derivative of
all blocks. -/
theorem sequentialBackward_reverse (hprompts : w.Prompted prompts) {inputs outputs gradOutputs : Batch α}
    {intermediateInputs : List (Batch α)} {forwardSequences : List (RemoteSpanInfo Peer)}
    (hstaged : Staged (w.layers prompts) 0 inputs (intermediateInputs.zip forwardSequences) w.numBlocks outputs)
    {attempts : List (BackwardAttempt Peer)} (hroutes : ∀ a ∈ attempts, ∀ b ∈ a.forward, b.Routes w)
    {last : BackwardLoop Peer α}
    (h : sequentialBackward w prompts gradOutputs intermediateInputs forwardSequences attempts = .returned last) :
    Layer.reverse (w.layers prompts) inputs gradOutputs =
        .some (last.gradOutputs, promptsOrDummies w.blocks last.gradPrompts) ∧
      last.gradPrompts ≠ .some [] ∧ last.forwardSequences = [] := by
  rw [sequentialBackward] at h
  split at h
  · next haligned =>
    have hstart : BackwardLoop.Good w prompts 0 inputs w.numBlocks gradOutputs
        (⟨intermediateInputs, forwardSequences, .none, 0, gradOutputs, []⟩ : BackwardLoop Peer α)
        (intermediateInputs.zip forwardSequences) :=
      ⟨haligned, ⟨w.numBlocks, outputs, [], le_rfl, hstaged, by rw [slice_self]; rfl, rfl⟩, by simp⟩
    obtain ⟨hgood, hnil⟩ := BackwardLoop.Good.run hprompts le_rfl hroutes
      (by simpa [BackwardLoop.stacked] using hstart) h
    obtain ⟨_, _, grads, -, ⟨rfl, rfl⟩, hreverse, hflat⟩ := hgood.behind
    rw [Learner.numBlocks, ← length_layers hprompts, slice_all] at hreverse
    have hspent : last.forwardSequences = [] := by
      rcases List.zip_eq_nil_iff.1 hnil with hnil | hnil
      · exact List.length_eq_zero_iff.1 (by rw [← hgood.aligned, hnil, List.length_nil])
      · exact hnil
    refine ⟨?_, ?_, hspent⟩
    · rw [hreverse, BackwardLoop.gradPrompts, ← promptsOrDummies_of_flatten hprompts
        (isSome_of_reverse_layers hprompts hreverse) hgood.pieces hflat]
    · rw [BackwardLoop.gradPrompts]
      split
      · simp
      · next hne =>
        obtain ⟨p, hp⟩ := List.exists_mem_of_ne_nil _ hne
        intro hnil
        have hpnil := List.flatten_eq_nil_iff.1 (Option.some.inj hnil) p (List.mem_reverse.2 hp)
        exact hgood.pieces (hpnil ▸ hp)
  · exact absurd h (by simp)

end Petals

end Blitzwing
