/-
Speculative generation: a small model guesses some tokens, the remote model
checks them all in one step, and those that it would have chosen itself are
taken over; of a guess that is wrong from the start, its own first token.

The loop uses an inference session and sets its position back before each
step, to the last token it is sure of. One sequence, no sampling and no prompt
tuning; what the network does in a step is a list of attempts.
-/
import Blitzwing.Lib.Extend
import Blitzwing.Petals.SessionRuns

namespace Blitzwing

namespace Petals

variable {Peer H K S : Type}

/-! ## `_sample` -/

/-- The model in parts, the small one as a whole (`generate` with at most so
many new tokens), and how generation is set up. -/
structure SpeculativeModel (Peer H K S : Type) where
  swarm : Swarm Peer H K
  embedTokens : Nat → Unit → H
  lmHead : (Unit → H) → S
  logitsProcessor : List Nat → S → S
  argmax : S → Nat
  smallModel : List Nat → Nat → List Nat
  stoppingCriteria : List Nat → Bool
  hasEosStoppingCriteria : Bool
  padTokenId : Nat

structure Generation (Peer H K : Type) where
  inputIds : List Nat
  session : InferenceSession Peer Unit H K
  iterationSize : Nat
  firsts : Bool
  unfinishedSequences : Nat

/-- `xs[-k:]`, for `k` above zero. -/
def lastOnes {β : Type} (k : Nat) (xs : List β) : List β := xs.drop (xs.length - k)

/-- `xs[:e]` -/
def sliceTo {β : Type} (e : Int) (xs : List β) : List β := xs.take (if e < 0 then xs.length + e else e).toNat

inductive GenerationEnd (Peer H K : Type)
  | returned (g : Generation Peer H K)
  | raised
  | running

section sample

variable (m : SpeculativeModel Peer H K S)

/-- The tokens the model would choose at the last `k` positions. -/
def SpeculativeModel.validTokens (k : Nat) (inputForValidation : List Nat) (logits : List S) : List Nat :=
  (lastOnes k logits).zipIdx.map fun e =>
    m.argmax (m.logitsProcessor (sliceTo (-(k : Int) + 1 + e.2) inputForValidation) e.1)

/-- The loop over `i`: as far as the guess is right, or the first token. -/
def allValidTokens (valid speculative : List Nat) : List Nat :=
  let tokens := ((valid.zip speculative).takeWhile fun e => e.1 = e.2).map Prod.fst
  if tokens = [] then valid.take 1 else tokens

/-- One iteration, if nothing raises. -/
def Generation.iteration [Add H] (g : Generation Peer H K) (attempts : List (Attempt Peer)) :
    Option (Generation Peer H K) :=
  let k := min g.iterationSize (g.session.maxLength - g.inputIds.length)
  let speculativeTokens := lastOnes k (m.smallModel g.inputIds k)
  let fullSequence := g.inputIds ++ speculativeTokens
  if 0 < k && g.inputIds.length + k = fullSequence.length then
    let ready := if g.firsts then .some (g.session, fullSequence)
      else (g.session.setPosition (g.inputIds.length - 1)).map fun session => (session, lastOnes (k + 1) fullSequence)
    ready.bind fun ready =>
      let inputForValidation := ready.2.dropLast
      (ready.1.step m.swarm ⟨.none, .none⟩ (inputForValidation.map m.embedTokens) attempts).bind fun stepped =>
        let tokens := allValidTokens (m.validTokens k inputForValidation (stepped.2.map m.lmHead)) speculativeTokens
        let tokens := if m.hasEosStoppingCriteria then
            tokens.map fun token => token * g.unfinishedSequences + m.padTokenId * (1 - g.unfinishedSequences)
          else tokens
        let inputIds := g.inputIds ++ tokens
        .some
          { inputIds
            session := stepped.1
            iterationSize := k
            firsts := false
            unfinishedSequences := if m.stoppingCriteria inputIds then 0 else g.unfinishedSequences }
  else .none

/-- The loop, as far as the attempts go: a list of them for each iteration. -/
def Generation.sample [Add H] : List (List (Attempt Peer)) → Generation Peer H K → GenerationEnd Peer H K
  | [], g => if g.unfinishedSequences = 0 then .returned g else .running
  | attempts :: rest, g =>
    if g.unfinishedSequences = 0 then .returned g
    else match g.iteration m attempts with
      | .none => .raised
      | .some g => Generation.sample rest g

/-- What `_sample` begins with, in a session that is new. -/
def SpeculativeModel.start (_ : SpeculativeModel Peer H K S) (maxLength iterationSize : Nat) (inputIds : List Nat) :
    Generation Peer H K := ⟨inputIds, .new maxLength, iterationSize, true, 1⟩

end sample

/-! ## What a session gives -/

namespace InferenceSession

section kept

variable {ι : Type} {w : Swarm Peer H K}

/-- The columns kept after operations. -/
def kept (columns : List (ι → H)) : List (Op Peer ι H) → List (ι → H)
  | [] => columns
  | .step args xs _ :: ops =>
    if xs = [] then kept columns ops
    else kept ((args.hypoIds.elim columns fun σ => columns.map (CausalBlock.pick σ)) ++ xs) ops
  | .setPosition p :: ops => kept (columns.take p) ops

theorem kept_append (columns : List (ι → H)) (ops ops' : List (Op Peer ι H)) :
    kept columns (ops ++ ops') = kept (kept columns ops) ops' := by
  induction ops generalizing columns with
  | nil => rfl
  | cons op ops ih =>
    cases op with
    | step args xs attempts =>
      simp only [List.cons_append, kept, ih]
      split <;> rfl
    | setPosition p => exact ih _

theorem whole_append (columns : List (ι → H)) (ops ops' : List (Op Peer ι H)) :
    whole w columns (ops ++ ops') = whole w columns ops ++ whole w (kept columns ops) ops' := by
  induction ops generalizing columns with
  | nil => rfl
  | cons op ops ih =>
    cases op with
    | step args xs attempts =>
      simp only [List.cons_append, whole, kept, ih]
      split <;> rfl
    | setPosition p => exact ih _

theorem run_append [Add H] {session session' last : InferenceSession Peer ι H K} {ops ops' : List (Op Peer ι H)}
    {outputs outputs' : List (List (ι → H))} (h : session.run w ops = .some (session', outputs))
    (h' : session'.run w ops' = .some (last, outputs')) :
    session.run w (ops ++ ops') = .some (last, outputs ++ outputs') := by
  induction ops generalizing session outputs with
  | nil =>
    obtain ⟨rfl, rfl⟩ := Prod.mk.inj (Option.some.inj h)
    exact h'
  | cons op ops ih =>
    cases op with
    | step args xs attempts =>
      obtain ⟨⟨next, out⟩, hstep, h⟩ := Option.bind_eq_some_iff.1 h
      obtain ⟨⟨after, rest⟩, hrest, h⟩ := Option.bind_eq_some_iff.1 h
      obtain ⟨rfl, rfl⟩ := Prod.mk.inj (Option.some.inj h)
      exact Option.bind_eq_some_iff.2 ⟨(next, out), hstep, Option.bind_eq_some_iff.2 ⟨_, ih hrest, rfl⟩⟩
    | setPosition p =>
      obtain ⟨next, hset, h⟩ := Option.bind_eq_some_iff.1 h
      exact Option.bind_eq_some_iff.2 ⟨next, hset, ih h⟩

end kept

/-- A session in use since it was new, and the columns it keeps. -/
def Keeps [Add H] (w : Swarm Peer H K) (maxLength : Nat) (session : InferenceSession Peer Unit H K)
    (columns : List (Unit → H)) : Prop :=
  ∃ ops outputs, (∀ op ∈ ops, op.Routes w) ∧ (∀ op ∈ ops, op.NoPrompts) ∧
    (new maxLength).run w ops = .some (session, outputs) ∧ kept [] ops = columns

variable [Add H] {w : Swarm Peer H K} {maxLength : Nat} {session session' : InferenceSession Peer Unit H K}
  {columns : List (Unit → H)}

theorem Keeps.new : Keeps w maxLength (.new maxLength : InferenceSession Peer Unit H K) [] :=
  ⟨[], [], by simp, by simp, rfl, rfl⟩

theorem Keeps.maxLength_eq (h : Keeps w maxLength session columns) : session.maxLength = maxLength := by
  obtain ⟨ops, outputs, hroutes, -, hrun, -⟩ := h
  exact ((new_holds w maxLength).run hroutes hrun).2.1

theorem Keeps.setPosition (h : Keeps w maxLength session columns) {p : Nat}
    (hset : session.setPosition p = .some session') : Keeps w maxLength session' (columns.take p) := by
  obtain ⟨ops, outputs, hroutes, hno, hrun, rfl⟩ := h
  refine ⟨ops ++ [.setPosition p], outputs ++ [], ?_, ?_, run_append hrun ?_, ?_⟩
  · simpa [or_imp, forall_and] using ⟨hroutes, trivial⟩
  · simpa [or_imp, forall_and] using ⟨hno, trivial⟩
  · exact Option.bind_eq_some_iff.2 ⟨session', hset, rfl⟩
  · rw [kept_append]
    rfl

/-- **A step** gives the model's outputs at the new columns. -/
theorem Keeps.step (h : Keeps w maxLength session columns) {xs : List (Unit → H)} (hx : xs ≠ [])
    {attempts : List (Attempt Peer)} (hroutes : ∀ a ∈ attempts, a.Routes w) {out : List (Unit → H)}
    (hstep : session.step w ⟨.none, .none⟩ xs attempts = .some (session', out)) :
    Keeps w maxLength session' (columns ++ xs) ∧
      out = (CausalBlock.fullStack (w.blocks.map .rows) (columns ++ xs)).drop columns.length := by
  obtain ⟨ops, outputs, hops, hno, hrun, rfl⟩ := h
  have hops' : ∀ op ∈ ops ++ [Op.step ⟨.none, .none⟩ xs attempts], op.Routes w :=
    List.forall_mem_append.2 ⟨hops, by simpa [Op.Routes] using hroutes⟩
  have hno' : ∀ op ∈ ops ++ [Op.step ⟨.none, .none⟩ xs attempts], op.NoPrompts :=
    List.forall_mem_append.2 ⟨hno, by simp [Op.NoPrompts]⟩
  have hone : session.run w [Op.step ⟨.none, .none⟩ xs attempts] = .some (session', [out]) :=
    Option.bind_eq_some_iff.2 ⟨_, hstep, rfl⟩
  have hrun' := run_append hrun hone
  have hkept : kept (kept [] ops) [Op.step ⟨.none, .none⟩ xs attempts] = kept [] ops ++ xs := by
    simp [kept, if_neg hx]
  refine ⟨⟨_, _, hops', hno', hrun', by rw [kept_append, hkept]⟩, ?_⟩
  have hwhole := (session_run hops' hrun').2 hno'
  rw [whole_append, (session_run hops hrun).2 hno, List.append_cancel_left_eq] at hwhole
  simpa [whole, if_neg hx] using hwhole

end InferenceSession

/-! ## What is generated -/

namespace SpeculativeModel

variable (m : SpeculativeModel Peer H K S)

/-- The outputs of all blocks for some tokens. -/
def hiddenStates (ids : List Nat) : List (Unit → H) :=
  CausalBlock.fullStack (m.swarm.blocks.map .rows) (ids.map m.embedTokens)

/-- The token the model chooses after `ids`. -/
def next (ids : List Nat) : Nat :=
  (m.hiddenStates ids).getLast?.elim 0 fun column => m.argmax (m.logitsProcessor ids (m.lmHead column))

@[simp] theorem length_hiddenStates (ids : List Nat) : (m.hiddenStates ids).length = ids.length := by
  simp [hiddenStates]

theorem hiddenStates_take (p : Nat) (ids : List Nat) : m.hiddenStates (ids.take p) = (m.hiddenStates ids).take p := by
  rw [hiddenStates, List.map_take, CausalBlock.fullStack_take]
  rfl

variable {m}

/-- **The check**: from the outputs at the last token of `ids` on, the tokens
the model chooses along the guess. -/
theorem validTokens_eq (hprocessor : ∀ ids ids' s, m.logitsProcessor ids s = m.logitsProcessor ids' s)
    {ids guess : List Nat} (hids : ids ≠ []) (hguess : guess ≠ []) (input : List Nat) {outs : List (Unit → H)}
    (houts : lastOnes guess.length outs = (m.hiddenStates (ids ++ guess).dropLast).drop (ids.length - 1)) :
    m.validTokens guess.length input (outs.map m.lmHead) =
      (List.range guess.length).map fun i => m.next (ids ++ guess.take i) := by
  have hpos := List.length_pos_iff.2 hids
  have hpos' := List.length_pos_iff.2 hguess
  have hlogits : lastOnes guess.length (outs.map m.lmHead) =
      ((m.hiddenStates (ids ++ guess).dropLast).drop (ids.length - 1)).map m.lmHead := by
    rw [← houts, lastOnes, lastOnes, List.length_map, List.map_drop]
  rw [validTokens, hlogits]
  refine List.ext_getElem (by simp; omega) fun i hi _ => ?_
  have hi : i < guess.length := by
    simp at hi
    omega
  -- the tokens up to there are those the full sequence begins with
  have htake : ids ++ guess.take i = (ids ++ guess).dropLast.take (ids.length + i) := by
    rw [List.dropLast_eq_take, List.take_take, List.length_append,
      Nat.min_eq_left (by omega : ids.length + i ≤ ids.length + guess.length - 1), List.take_append]
    simp
  have hlast : (m.hiddenStates (ids ++ guess.take i)).getLast? =
      (m.hiddenStates (ids ++ guess).dropLast)[ids.length + i - 1]? := by
    rw [htake, hiddenStates_take, List.getLast?_eq_getElem?, List.length_take, length_hiddenStates, List.length_dropLast,
      List.length_append, Nat.min_eq_left (by omega), List.getElem?_take_of_lt (by omega)]
  have hlt : ids.length + i - 1 < (m.hiddenStates (ids ++ guess).dropLast).length := by
    simp
    omega
  have hindex : ids.length - 1 + i = ids.length + i - 1 := by omega
  rw [List.getElem_map, List.getElem_map, List.getElem_range, next, hlast, List.getElem?_eq_getElem hlt]
  simp only [List.getElem_zipIdx, List.getElem_map, List.getElem_drop, Option.elim_some, hindex]
  rw [hprocessor]

end SpeculativeModel

theorem allValidTokens_eq {next : List Nat → Nat} {ids guess : List Nat} (hguess : guess ≠ []) :
    allValidTokens ((List.range guess.length).map fun i => next (ids ++ guess.take i)) guess =
      accepted next ids guess := by
  rw [allValidTokens, takeWhile_zip_eq_agreed, accepted]
  split
  · obtain ⟨g, guess, rfl⟩ := List.exists_cons_of_ne_nil hguess
    rw [List.length_cons, List.range_succ_eq_map]
    simp
  · rfl

/-- A processor that does not look at the tokens before. -/
def SpeculativeModel.Plain (m : SpeculativeModel Peer H K S) : Prop :=
  ∀ ids ids' s, m.logitsProcessor ids s = m.logitsProcessor ids' s

namespace Generation

variable [Add H] {m : SpeculativeModel Peer H K S} {maxLength : Nat} {g g' : Generation Peer H K}

/-- What holds between iterations: the session keeps the tokens, but for the
last one, and maybe more. -/
structure Inv (m : SpeculativeModel Peer H K S) (maxLength : Nat) (g : Generation Peer H K) : Prop where
  ne_nil : g.inputIds ≠ []
  keeps : ∃ columns, g.session.Keeps m.swarm maxLength columns ∧
    if g.firsts then columns = [] else g.inputIds.dropLast.map m.embedTokens <+: columns

theorem Inv.start {ids : List Nat} (hids : ids ≠ []) (iterationSize : Nat) :
    Inv m maxLength (m.start maxLength iterationSize ids) := ⟨hids, [], InferenceSession.Keeps.new, rfl⟩

/-- The session, set back if need be, and the step on it. -/
theorem Inv.outputs (h : g.Inv m maxLength) {guess : List Nat} (hguess : guess ≠ [])
    {ready : InferenceSession Peer Unit H K × List Nat}
    (hready : (if g.firsts then .some (g.session, g.inputIds ++ guess)
      else (g.session.setPosition (g.inputIds.length - 1)).map fun session =>
        (session, lastOnes (guess.length + 1) (g.inputIds ++ guess))) = .some ready)
    {attempts : List (Attempt Peer)} (hroutes : ∀ a ∈ attempts, a.Routes m.swarm)
    {stepped : InferenceSession Peer Unit H K × List (Unit → H)}
    (hstep : ready.1.step m.swarm ⟨.none, .none⟩ (ready.2.dropLast.map m.embedTokens) attempts = .some stepped) :
    stepped.1.Keeps m.swarm maxLength ((g.inputIds ++ guess).dropLast.map m.embedTokens) ∧
      lastOnes guess.length stepped.2 = (m.hiddenStates (g.inputIds ++ guess).dropLast).drop (g.inputIds.length - 1) := by
  have hpos := List.length_pos_iff.2 h.ne_nil
  have hpos' := List.length_pos_iff.2 hguess
  obtain ⟨columns, hkeeps, hcolumns⟩ := h.keeps
  -- the columns from the first token to before the last one of the guess, however they are made up
  suffices ∃ old, ready.1.Keeps m.swarm maxLength (old.map m.embedTokens) ∧ ready.2.dropLast ≠ [] ∧
      old ++ ready.2.dropLast = (g.inputIds ++ guess).dropLast ∧ old.length ≤ g.inputIds.length - 1 by
    obtain ⟨old, hold, hne, hall, hlen⟩ := this
    obtain ⟨hkept, hout⟩ := hold.step (by rwa [Ne, List.map_eq_nil_iff]) hroutes hstep
    rw [← List.map_append, hall] at hkept hout
    refine ⟨hkept, ?_⟩
    rw [hout, lastOnes, ← SpeculativeModel.hiddenStates, List.drop_drop]
    congr 1
    simp
    omega
  cases hfirsts : g.firsts with
  | true =>
    rw [hfirsts] at hready hcolumns
    obtain rfl := Option.some.inj hready
    obtain rfl : columns = [] := hcolumns
    refine ⟨[], hkeeps, ?_, rfl, Nat.zero_le _⟩
    rw [← List.length_pos_iff, List.length_dropLast, List.length_append]
    omega
  | false =>
    rw [hfirsts] at hready hcolumns
    obtain ⟨session, hset, rfl⟩ := Option.map_eq_some_iff.1 hready
    obtain ⟨rest, rfl⟩ : g.inputIds.dropLast.map m.embedTokens <+: columns := hcolumns
    have hback := hkeeps.setPosition hset
    rw [List.take_append_of_le_length (by simp), List.take_of_length_le (by simp)] at hback
    have hlast : lastOnes (guess.length + 1) (g.inputIds ++ guess) = g.inputIds.drop (g.inputIds.length - 1) ++ guess := by
      rw [lastOnes, List.length_append, List.drop_append_of_le_length (by omega)]
      congr 2
      omega
    have hnew : (lastOnes (guess.length + 1) (g.inputIds ++ guess)).dropLast =
        g.inputIds.drop (g.inputIds.length - 1) ++ guess.dropLast := by
      rw [hlast, List.dropLast_append_of_ne_nil hguess]
    refine ⟨g.inputIds.dropLast, hback, ?_, ?_, by simp⟩
    · rw [hnew, ← List.length_pos_iff, List.length_append, List.length_drop]
      omega
    · rw [hnew, List.dropLast_append_of_ne_nil hguess, ← List.append_assoc, List.dropLast_eq_take, List.take_append_drop]

/-- **An iteration** takes over at least one token, each the one the model
chooses, and no more than there is room for. -/
theorem Inv.iteration (h : g.Inv m maxLength) (hplain : m.Plain) (hunfinished : g.unfinishedSequences = 1)
    {attempts : List (Attempt Peer)} (hroutes : ∀ a ∈ attempts, a.Routes m.swarm)
    (hg : g.iteration m attempts = .some g') :
    g'.Inv m maxLength ∧ (∃ n, 0 < n ∧ g'.inputIds = extend m.next n g.inputIds) ∧ g'.inputIds.length ≤ maxLength ∧
      g'.unfinishedSequences = if m.stoppingCriteria g'.inputIds then 0 else 1 := by
  have hsize : g.session.maxLength = maxLength := by
    obtain ⟨columns, hkeeps, -⟩ := h.keeps
    exact hkeeps.maxLength_eq
  rw [Generation.iteration] at hg
  generalize hk : min g.iterationSize (g.session.maxLength - g.inputIds.length) = k at hg
  generalize hguess : lastOnes k (m.smallModel g.inputIds k) = guess at hg
  dsimp only at hg
  split at hg
  · next hassert =>
    obtain ⟨hpos, hlen⟩ : 0 < k ∧ k = guess.length := by simpa using hassert
    have hne : guess ≠ [] := List.length_pos_iff.1 (hlen ▸ hpos)
    obtain ⟨ready, hready, hg⟩ := Option.bind_eq_some_iff.1 hg
    obtain ⟨stepped, hstep, hg⟩ := Option.bind_eq_some_iff.1 hg
    rw [hlen] at hready hg
    obtain ⟨hkeeps, houts⟩ := h.outputs hne hready hroutes hstep
    have htokens := SpeculativeModel.validTokens_eq hplain h.ne_nil hne ready.2.dropLast houts
    rw [htokens, allValidTokens_eq hne] at hg
    -- the one sequence is unfinished, so no token is padded over
    have hpad : (if m.hasEosStoppingCriteria then (accepted m.next g.inputIds guess).map fun token =>
        token * g.unfinishedSequences + m.padTokenId * (1 - g.unfinishedSequences)
        else accepted m.next g.inputIds guess) = accepted m.next g.inputIds guess := by
      rw [hunfinished]
      split <;> simp
    rw [hpad] at hg
    obtain rfl := Option.some.inj hg
    obtain ⟨hsome, hle⟩ : 0 < (accepted m.next g.inputIds guess).length ∧
        (accepted m.next g.inputIds guess).length ≤ guess.length := accepted_length m.next hne
    have hnew : accepted m.next g.inputIds guess ≠ [] := List.length_pos_iff.1 hsome
    refine ⟨⟨by simp [h.ne_nil], _, hkeeps, ?_⟩, ⟨_, hsome, append_accepted m.next g.inputIds guess⟩, ?_, ?_⟩
    · rw [if_neg (by simp)]
      refine List.IsPrefix.map _ ?_
      rw [List.dropLast_append_of_ne_nil hnew, List.dropLast_append_of_ne_nil hne, List.prefix_append_right_inj]
      exact dropLast_accepted_prefix m.next g.inputIds guess
    · simp only [List.length_append]
      omega
    · rw [hunfinished]
  · exact absurd hg (by simp)

/-- What holds when iterations are over. -/
theorem Inv.sample (h : g.Inv m maxLength) (hplain : m.Plain)
    (hunfinished : g.unfinishedSequences = if m.stoppingCriteria g.inputIds then 0 else 1)
    (hlen : g.inputIds.length ≤ maxLength) {attempts : List (List (Attempt Peer))}
    (hroutes : ∀ l ∈ attempts, ∀ a ∈ l, a.Routes m.swarm) (hg : g.sample m attempts = .returned g') :
    (∃ n, g'.inputIds = extend m.next n g.inputIds) ∧ g'.inputIds.length ≤ maxLength ∧
      m.stoppingCriteria g'.inputIds = true := by
  have hdone : g.unfinishedSequences = 0 → m.stoppingCriteria g.inputIds = true := by
    intro hzero
    rw [hunfinished] at hzero
    by_contra hno
    exact absurd hzero (by simp [hno])
  induction attempts generalizing g with
  | nil =>
    rw [Generation.sample] at hg
    split at hg
    · next hzero =>
      obtain rfl := GenerationEnd.returned.inj hg
      exact ⟨⟨0, rfl⟩, hlen, hdone hzero⟩
    · exact absurd hg (by simp)
  | cons a attempts ih =>
    rw [List.forall_mem_cons] at hroutes
    rw [Generation.sample] at hg
    split at hg
    · next hzero =>
      obtain rfl := GenerationEnd.returned.inj hg
      exact ⟨⟨0, rfl⟩, hlen, hdone hzero⟩
    · next hne =>
      split at hg
      · exact absurd hg (by simp)
      · next after hafter =>
        have hone : g.unfinishedSequences = 1 := by
          rw [hunfinished] at hne ⊢
          split <;> simp_all
        obtain ⟨hinv, ⟨n, -, hn⟩, hle, hstop⟩ := h.iteration hplain hone hroutes.1 hafter
        obtain ⟨⟨n', hn'⟩, hrest⟩ := ih hinv hstop hle hroutes.2 hg (fun hzero => by
          rw [hstop] at hzero
          by_contra hno
          exact absurd hzero (by simp [hno]))
        exact ⟨⟨n + n', by rw [hn', hn, extend_add]⟩, hrest⟩

/-- Each iteration takes a place, so there is one that is the last. -/
theorem Inv.ends (h : g.Inv m maxLength) (hplain : m.Plain)
    (hunfinished : g.unfinishedSequences = 0 ∨ g.unfinishedSequences = 1) {attempts : List (List (Attempt Peer))}
    (hroutes : ∀ l ∈ attempts, ∀ a ∈ l, a.Routes m.swarm) (hmany : maxLength - g.inputIds.length < attempts.length) :
    g.sample m attempts ≠ .running := by
  induction attempts generalizing g with
  | nil => exact absurd hmany (Nat.not_lt_zero _)
  | cons a attempts ih =>
    rw [List.forall_mem_cons] at hroutes
    rw [Generation.sample]
    split
    · simp
    · next hne =>
      split
      · simp
      · next after hafter =>
        obtain ⟨hinv, ⟨n, hn, hgrown⟩, hle, hstop⟩ := h.iteration hplain (hunfinished.resolve_left hne) hroutes.1 hafter
        refine ih hinv ?_ hroutes.2 ?_
        · rw [hstop]
          split
          · exact .inl rfl
          · exact .inr rfl
        · have := congrArg List.length hgrown
          rw [length_extend] at this
          rw [List.length_cons] at hmany
          omega

end Generation

/-- Generation without a small model, token by token. -/
def SpeculativeModel.greedy (m : SpeculativeModel Peer H K S) : Nat → List Nat → Option (List Nat)
  | 0, _ => .none
  | n + 1, ids =>
    if m.stoppingCriteria (ids ++ [m.next ids]) then .some (ids ++ [m.next ids])
    else SpeculativeModel.greedy m n (ids ++ [m.next ids])

theorem greedy_extend {m : SpeculativeModel Peer H K S} {n : Nat} {ids : List Nat}
    (hstop : m.stoppingCriteria (extend m.next (n + 1) ids) = true) :
    ∃ k ≤ n, m.greedy (n + 1) ids = .some (extend m.next (k + 1) ids) ∧
      m.stoppingCriteria (extend m.next (k + 1) ids) = true := by
  induction n generalizing ids with
  | zero => exact ⟨0, Nat.le_refl 0, if_pos hstop, hstop⟩
  | succ n ih =>
    rw [SpeculativeModel.greedy]
    split
    · next hnow => exact ⟨0, Nat.zero_le _, rfl, hnow⟩
    · have hrest : m.stoppingCriteria (extend m.next (n + 1) (ids ++ [m.next ids])) = true := hstop
      obtain ⟨k, hk, hgreedy, hstop'⟩ := ih hrest
      exact ⟨k + 1, Nat.succ_le_succ hk, hgreedy, hstop'⟩

/-- **Speculative generation.** Whatever the small model guesses: what is
generated is what the model generates token by token, and maybe more, since the
criteria are looked at only after each guess; nothing more where they are that
the session is full. The loop comes to its end. -/
theorem speculative_generation [Add H] {m : SpeculativeModel Peer H K S} (hplain : m.Plain) {maxLength : Nat}
    (iterationSize : Nat) {ids : List Nat} (hids : ids ≠ []) {attempts : List (List (Attempt Peer))}
    (hroutes : ∀ l ∈ attempts, ∀ a ∈ l, a.Routes m.swarm) :
    (∀ g, (m.start maxLength iterationSize ids).sample m attempts = .returned g →
      ∃ n plain, g.inputIds = extend m.next n ids ∧ g.inputIds.length ≤ maxLength ∧
        m.stoppingCriteria g.inputIds = true ∧ m.greedy n ids = .some plain ∧ plain <+: g.inputIds ∧
        ((∀ ids', m.stoppingCriteria ids' = decide (maxLength ≤ ids'.length)) → plain = g.inputIds)) ∧
    (maxLength - ids.length < attempts.length →
      (m.start maxLength iterationSize ids).sample m attempts ≠ .running) := by
  have hinv : (m.start maxLength iterationSize ids).Inv m maxLength := .start hids iterationSize
  refine ⟨fun g hg => ?_, hinv.ends hplain (.inr rfl) hroutes⟩
  -- the criteria are not looked at before the first iteration
  cases attempts with
  | nil => exact absurd hg (by simp [Generation.sample, SpeculativeModel.start])
  | cons a attempts =>
    rw [List.forall_mem_cons] at hroutes
    rw [Generation.sample, if_neg (by simp [SpeculativeModel.start])] at hg
    split at hg
    · exact absurd hg (by simp)
    · next after hafter =>
      obtain ⟨hinv', ⟨n, hpos, hn⟩, hle, hstop⟩ := hinv.iteration hplain rfl hroutes.1 hafter
      obtain ⟨⟨n', hn'⟩, hlen, hend⟩ := hinv'.sample hplain hstop hle hroutes.2 hg
      have hall : g.inputIds = extend m.next (n + n') ids := by
        rw [hn', hn, extend_add]
        rfl
      obtain ⟨j, hj⟩ : ∃ j, n + n' = j + 1 := ⟨n + n' - 1, by omega⟩
      rw [hj] at hall
      obtain ⟨k, hk, hgreedy, hfirst⟩ := greedy_extend (hall ▸ hend)
      refine ⟨j + 1, _, hall, hlen, hend, hgreedy, ?_, fun hfull => ?_⟩
      · rw [hall]
        exact extend_prefix m.next (by omega) ids
      · rw [hfull, decide_eq_true_eq, length_extend] at hfirst
        rw [hall, length_extend] at hlen
        rw [hall, show k = j from by omega]

/-- Three tokens, of what two blocks have added up, and a small model that
always guesses the same. -/
def sumsModel : SpeculativeModel Nat Nat Nat Nat where
  swarm := sumsSwarm
  embedTokens token _ := token
  lmHead column := column ()
  logitsProcessor _ score := score
  argmax score := score % 3
  smallModel ids k := ids ++ [1, 2, 2].take k
  stoppingCriteria ids := 7 ≤ ids.length
  hasEosStoppingCriteria := false
  padTokenId := 0

def sumsAttempts : List (List (Attempt Nat)) := List.replicate 3 [⟨sumsRoute, true, true⟩, ⟨sumsRoute, true, true⟩]

/-- Five tokens in three steps. -/
theorem sumsModel_returns : ∃ g, (sumsModel.start 7 3 [1, 2]).sample sumsModel sumsAttempts = .returned g := ⟨_, rfl⟩

theorem speculative_generation_sums : ∃ g n,
    (sumsModel.start 7 3 [1, 2]).sample sumsModel sumsAttempts = .returned g ∧
      sumsModel.greedy n [1, 2] = .some g.inputIds := by
  obtain ⟨g, hg⟩ := sumsModel_returns
  have hone := sumsRoute_routes true true
  have hroutes : ∀ l ∈ sumsAttempts, ∀ a ∈ l, a.Routes sumsSwarm := by simp [sumsAttempts, hone]
  obtain ⟨n, plain, -, -, -, hgreedy, -, hfull⟩ := (speculative_generation (fun _ _ _ => rfl : sumsModel.Plain) 3
    (by simp) hroutes).1 g hg
  exact ⟨g, n, hg, hfull (fun _ => rfl) ▸ hgreedy⟩

end Petals

end Blitzwing
