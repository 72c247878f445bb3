/-
A batch goes to the servers in pieces, each with a pass of its own, and the
results are put together.

Rows do not depend on each other, so a chain of layers and its derivative may
be cut between rows (`chain_rows`, `reverse_rows`); `Splits` is such a cut of
the inputs and the prompts, as `tensor.split` makes it (`splits_split`).
-/
import Mathlib.Data.List.Forall2
import Mathlib.Data.Option.NAry
import Blitzwing.Petals.AutogradRuns

namespace Blitzwing

namespace Petals

variable {Peer α : Type}

/-! ## Rows -/

section rows

variable [Add α]

/-- Blocks with one of the two parts of their prompts, or both. -/
def layersOf (f : Batch α × Batch α → Batch α) (es : List (GradBlock α × Option (Batch α × Batch α))) :
    List (Layer (Batch α) (Batch α) (Option (Batch α))) :=
  es.map fun e => blockLayer (e.1, e.2.map f)

theorem addPrompts_append {q : Option (Batch α × Batch α)} {x₁ x₂ h₁ h₂ : Batch α}
    (hfit : ∀ p, q = .some p → p.1.length = x₁.length) (h1 : addPrompts (q.map Prod.fst) x₁ = .some h₁)
    (h2 : addPrompts (q.map Prod.snd) x₂ = .some h₂) :
    addPrompts (q.map fun p => p.1 ++ p.2) (x₁ ++ x₂) = .some (h₁ ++ h₂) ∧ h₁.length = x₁.length := by
  cases q with
  | none =>
    obtain rfl := Option.some.inj h1
    obtain rfl := Option.some.inj h2
    exact ⟨rfl, rfl⟩
  | some p =>
    have hp := hfit p rfl
    simp only [addPrompts, Option.map_some, Option.ite_none_right_eq_some, Bool.and_eq_true, decide_eq_true_eq,
      Option.some.injEq] at h1 h2 ⊢
    obtain ⟨⟨-, hall1⟩, rfl⟩ := h1
    obtain ⟨⟨hlen2, hall2⟩, rfl⟩ := h2
    refine ⟨⟨⟨by simp [hp, hlen2], ?_⟩, List.zipWith_append hp⟩, by simp [hp]⟩
    rw [List.zip_append hp, List.all_append, hall1, hall2]
    rfl

variable {es : List (GradBlock α × Option (Batch α × Batch α))} {x₁ x₂ : Batch α}

theorem chain_rows (hfit : ∀ e ∈ es, ∀ p, e.2 = .some p → p.1.length = x₁.length) {y₁ y₂ : Batch α}
    (h1 : Layer.chain (layersOf Prod.fst es) x₁ = .some y₁) (h2 : Layer.chain (layersOf Prod.snd es) x₂ = .some y₂) :
    Layer.chain (layersOf (fun p => p.1 ++ p.2) es) (x₁ ++ x₂) = .some (y₁ ++ y₂) := by
  induction es generalizing x₁ x₂ with
  | nil =>
    obtain rfl := Option.some.inj h1
    obtain rfl := Option.some.inj h2
    rfl
  | cons e es ih =>
    obtain ⟨h₁, hh1, h1⟩ := Option.bind_eq_some_iff.1 h1
    obtain ⟨h₂, hh2, h2⟩ := Option.bind_eq_some_iff.1 h2
    obtain ⟨hboth, hlen⟩ := addPrompts_append (hfit e (by simp)) hh1 hh2
    refine Option.bind_eq_some_iff.2 ⟨h₁ ++ h₂, hboth, ?_⟩
    rw [show (blockLayer (e.1, e.2.map fun p => p.1 ++ p.2)).forward (h₁ ++ h₂) =
      (blockLayer (e.1, e.2.map Prod.fst)).forward h₁ ++ (blockLayer (e.1, e.2.map Prod.snd)).forward h₂ from
        List.map_append]
    refine ih (fun e' he' p hp => ?_) h1 h2
    rw [hfit e' (List.mem_cons_of_mem _ he') p hp]
    simp [blockLayer, hlen]

/-- Gradients of the same prompts, for some rows and for the rows after them. -/
def joinGrads : Option (Batch α) → Option (Batch α) → Option (Batch α) := Option.map₂ (· ++ ·)

theorem param_append (b : GradBlock α) {q : Option (Batch α × Batch α)} {g₁ g₂ : Batch α}
    (hfit : ∀ p, q = .some p → p.1.length = g₁.length) :
    (blockLayer (b, q.map fun p => p.1 ++ p.2)).param (g₁ ++ g₂) =
      joinGrads ((blockLayer (b, q.map Prod.fst)).param g₁) ((blockLayer (b, q.map Prod.snd)).param g₂) := by
  cases q with
  | none => rfl
  | some p => exact congrArg Option.some (List.zipWith_append (hfit p rfl).symm)

theorem reverse_rows (hfit : ∀ e ∈ es, ∀ p, e.2 = .some p → p.1.length = x₁.length) {g₁ g₂ r₁ r₂ : Batch α}
    {q₁ q₂ : List (Option (Batch α))} (hg : g₁.length = x₁.length)
    (h1 : Layer.reverse (layersOf Prod.fst es) x₁ g₁ = .some (r₁, q₁))
    (h2 : Layer.reverse (layersOf Prod.snd es) x₂ g₂ = .some (r₂, q₂)) :
    Layer.reverse (layersOf (fun p => p.1 ++ p.2) es) (x₁ ++ x₂) (g₁ ++ g₂) =
      .some (r₁ ++ r₂, List.zipWith joinGrads q₁ q₂) ∧ r₁.length = x₁.length := by
  induction es generalizing x₁ x₂ r₁ r₂ q₁ q₂ with
  | nil =>
    obtain ⟨rfl, rfl⟩ := Prod.mk.inj (Option.some.inj h1)
    obtain ⟨rfl, rfl⟩ := Prod.mk.inj (Option.some.inj h2)
    exact ⟨rfl, hg⟩
  | cons e es ih =>
    obtain ⟨h₁, hh1, h1⟩ := Option.bind_eq_some_iff.1 h1
    obtain ⟨h₂, hh2, h2⟩ := Option.bind_eq_some_iff.1 h2
    obtain ⟨⟨a₁, s₁⟩, ha1, h1⟩ := Option.map_eq_some_iff.1 h1
    obtain ⟨⟨a₂, s₂⟩, ha2, h2⟩ := Option.map_eq_some_iff.1 h2
    obtain ⟨rfl, rfl⟩ := Prod.mk.inj h1
    obtain ⟨rfl, rfl⟩ := Prod.mk.inj h2
    obtain ⟨hboth, hlen⟩ := addPrompts_append (hfit e (by simp)) hh1 hh2
    have hforward : ((blockLayer (e.1, e.2.map Prod.fst)).forward h₁).length = x₁.length := by simp [blockLayer, hlen]
    obtain ⟨hafter, halen⟩ := ih (fun e' he' p hp => by
      rw [hfit e' (List.mem_cons_of_mem _ he') p hp, hforward]) (hg.trans hforward.symm) ha1 ha2
    -- as many rows here as behind
    have hrows : h₁.length = a₁.length := by rw [hlen, ← hforward, halen]
    have hback : List.zipWith e.1.backward (h₁ ++ h₂) (a₁ ++ a₂) =
        List.zipWith e.1.backward h₁ a₁ ++ List.zipWith e.1.backward h₂ a₂ := List.zipWith_append hrows
    refine ⟨Option.bind_eq_some_iff.2 ⟨h₁ ++ h₂, hboth,
      Option.map_eq_some_iff.2 ⟨(a₁ ++ a₂, List.zipWith joinGrads s₁ s₂), ?_, ?_⟩⟩, ?_⟩
    · rw [show (blockLayer (e.1, e.2.map fun p => p.1 ++ p.2)).forward (h₁ ++ h₂) =
        (blockLayer (e.1, e.2.map Prod.fst)).forward h₁ ++ (blockLayer (e.1, e.2.map Prod.snd)).forward h₂ from
          List.map_append]
      exact hafter
    · have hlen1 : (List.zipWith e.1.backward h₁ a₁).length = x₁.length := by simp [hrows.symm, hlen]
      have hparam : (blockLayer (e.1, e.2.map fun p => p.1 ++ p.2)).param
          (List.zipWith e.1.backward h₁ a₁ ++ List.zipWith e.1.backward h₂ a₂) = _ :=
        param_append e.1 fun p hp => (hfit e (by simp) p hp).trans hlen1.symm
      rw [← hback] at hparam
      exact Prod.ext hback (congrArg (· :: List.zipWith joinGrads s₁ s₂) hparam)
    · simp [blockLayer, hrows.symm, hlen]

end rows

/-! ## Cuts -/

/-- Prompts for some rows and for the rows after them, or their gradients. -/
def joinPrompts : Option (List (Batch α)) → Option (List (Batch α)) → Option (List (Batch α)) :=
  Option.map₂ (List.zipWith (· ++ ·))

/-- The inputs and the prompts are cut into batches. -/
inductive Splits (w : Learner α) :
    List (Batch α × Option (List (Batch α))) → Batch α → Option (List (Batch α)) → Prop
  | one (x : Batch α) (p : Option (List (Batch α))) : Splits w [(x, p)] x p
  | cons {x x' : Batch α} {p p' : Option (List (Batch α))} {batches : List (Batch α × Option (List (Batch α)))} :
      p.isSome = p'.isSome → w.Prompted p → w.Prompted p' → (∀ ps, p = .some ps → ∀ q ∈ ps, q.length = x.length) →
      Splits w batches x' p' → Splits w ((x, p) :: batches) (x ++ x') (joinPrompts p p')

variable {w : Learner α}

theorem Splits.ne_nil {batches : List (Batch α × Option (List (Batch α)))} {x : Batch α} {p : Option (List (Batch α))}
    (h : Splits w batches x p) : batches ≠ [] := by
  cases h <;> simp

theorem Splits.flatten {batches : List (Batch α × Option (List (Batch α)))} {x : Batch α}
    {p : Option (List (Batch α))} (h : Splits w batches x p) : (batches.map Prod.fst).flatten = x := by
  induction h with
  | one x p => simp
  | cons _ _ _ _ _ ih => rw [List.map_cons, List.flatten_cons, ih]

theorem layers_none [Add α] (f : Batch α × Batch α → Batch α) :
    w.layers .none = layersOf f (w.blocks.map fun b => (b, .none)) := by
  simp only [Learner.layers, promptsOrDummies, Option.elim_none, layersOf]
  induction w.blocks with
  | nil => rfl
  | cons b blocks ih => exact congrArg (blockLayer (b, .none) :: ·) ih

/-- Two cuts' prompts are the parts of prompts. -/
theorem exists_layersOf [Add α] {p p' : Option (List (Batch α))} (hsame : p.isSome = p'.isSome) (hp : w.Prompted p)
    (hp' : w.Prompted p') {n : Nat} (hrows : ∀ ps, p = .some ps → ∀ q ∈ ps, q.length = n) :
    ∃ es, w.layers p = layersOf Prod.fst es ∧ w.layers p' = layersOf Prod.snd es ∧
      w.layers (joinPrompts p p') = layersOf (fun q => q.1 ++ q.2) es ∧
      ∀ e ∈ es, ∀ q, e.2 = .some q → q.1.length = n := by
  cases p with
  | none =>
    cases p' with
    | none =>
      exact ⟨_, layers_none _, layers_none _, layers_none _, by simp⟩
    | some ps' => exact absurd hsame (by simp)
  | some ps =>
    cases p' with
    | none => exact absurd hsame (by simp)
    | some ps' =>
      have hlen : ps.length = ps'.length := (hp ps rfl).trans (hp' ps' rfl).symm
      refine ⟨w.blocks.zip ((ps.zip ps').map .some), ?_, ?_, ?_, fun e he q hq => ?_⟩
      · simp only [Learner.layers, promptsOrDummies, Option.elim_some, layersOf]
        conv_lhs => rw [← List.map_fst_zip hlen.le]
        simp [List.zip_map_right]
      · simp only [Learner.layers, promptsOrDummies, Option.elim_some, layersOf]
        conv_lhs => rw [← List.map_snd_zip hlen.ge]
        simp [List.zip_map_right]
      · simp [Learner.layers, promptsOrDummies, layersOf, joinPrompts, List.zip_map_right, ← List.map_uncurry_zip_eq_zipWith]
      · obtain ⟨q', hq', hsome⟩ := List.mem_map.1 (List.of_mem_zip he).2
        rw [hq] at hsome
        obtain rfl := Option.some.inj hsome
        exact hrows ps rfl q'.1 (List.of_mem_zip hq').1

/-- The gradients of the prompts of some batches, one after the other. -/
def joinAll : List (Option (List (Batch α))) → Option (List (Batch α))
  | [] => .none
  | [p] => p
  | p :: ps => joinPrompts p (joinAll ps)

theorem joinAll_cons (p : Option (List (Batch α))) {ps : List (Option (List (Batch α)))} (hne : ps ≠ []) :
    joinAll (p :: ps) = joinPrompts p (joinAll ps) := by
  cases ps with
  | nil => exact absurd rfl hne
  | cons p' ps => rfl

theorem isSome_joinPrompts {p p' : Option (List (Batch α))} (h : p.isSome = p'.isSome) :
    (joinPrompts p p').isSome = p.isSome := by
  cases p <;> cases p' <;> simp_all [joinPrompts]

/-- Where there are gradients of prompts for some rows, there are for all. -/
theorem isSome_joinAll {s : Bool} {ps : List (Option (List (Batch α)))} (hne : ps ≠ [])
    (h : ∀ p ∈ ps, p.isSome = s) : (joinAll ps).isSome = s := by
  induction ps with
  | nil => exact absurd rfl hne
  | cons p ps ih =>
    by_cases hnil : ps = []
    · subst hnil
      exact h p (by simp)
    · rw [joinAll_cons p hnil, isSome_joinPrompts, h p (by simp)]
      rw [h p (by simp), ih hnil fun q hq => h q (List.mem_cons_of_mem _ hq)]

theorem promptsOrDummies_joinPrompts (blocks : List (GradBlock α)) {p p' : Option (List (Batch α))}
    (h : p.isSome = p'.isSome) : promptsOrDummies blocks (joinPrompts p p') =
      List.zipWith joinGrads (promptsOrDummies blocks p) (promptsOrDummies blocks p') := by
  cases p with
  | none =>
    cases p' with
    | none => simp [promptsOrDummies, joinPrompts, joinGrads]
    | some ps' => exact absurd h (by simp)
  | some ps =>
    cases p' with
    | none => exact absurd h (by simp)
    | some ps' => simp [promptsOrDummies, joinPrompts, joinGrads, List.zipWith_map, List.map_zipWith]

/-- `torch.cat`, if there are gradients to put together. -/
theorem catRows_eq_joinAll {n : Nat} {ps : List (Option (List (Batch α)))} (hne : ps ≠ [])
    (h : ∀ p ∈ ps, p.isSome = true) (hlen : ∀ p ∈ ps, ∀ gs, p = .some gs → gs.length = n) :
    catRows (ps.filterMap id) = joinAll ps ∧ ∀ gs, joinAll ps = .some gs → gs.length = n := by
  induction ps with
  | nil => exact absurd rfl hne
  | cons p ps ih =>
    obtain ⟨gs, rfl⟩ := Option.isSome_iff_exists.1 (h p (by simp))
    have hgs := hlen (.some gs) (by simp) gs rfl
    by_cases hnil : ps = []
    · subst hnil
      refine ⟨rfl, fun gs' hgs' => ?_⟩
      obtain rfl := Option.some.inj hgs'
      exact hgs
    · obtain ⟨hcat, hn⟩ := ih hnil (fun q hq => h q (List.mem_cons_of_mem _ hq))
        fun q hq => hlen q (List.mem_cons_of_mem _ hq)
      obtain ⟨rest, hrest⟩ := Option.isSome_iff_exists.1
        (isSome_joinAll hnil fun q hq => h q (List.mem_cons_of_mem _ hq))
      have hlenrest := hn rest hrest
      rw [joinAll_cons _ hnil, hrest]
      rw [hrest] at hcat
      constructor
      · obtain ⟨q, ps, rfl⟩ := List.exists_cons_of_ne_nil hnil
        obtain ⟨gs', rfl⟩ := Option.isSome_iff_exists.1 (h q (by simp))
        show (catRows (gs' :: ps.filterMap id)).bind _ = _
        rw [show catRows (gs' :: ps.filterMap id) = .some rest from hcat, Option.bind_some,
          if_pos (hgs.trans hlenrest.symm)]
        rfl
      · intro all hall
        obtain rfl := Option.some.inj hall
        simp [hgs, hlenrest]

/-- What comes back for the prompts: nothing, or all of it. -/
theorem gradPrompts_eq_joinAll {n : Nat} {s : Bool} {ps : List (Option (List (Batch α)))} (hne : ps ≠ [])
    (h : ∀ q ∈ ps, q.isSome = s ∧ ∀ gs, q = .some gs → gs.length = n) {gradPrompts : Option (List (Batch α))}
    (hcat : (if ps.any Option.isNone then .some .none else (catRows (ps.filterMap id)).map .some) =
      .some gradPrompts) : gradPrompts = joinAll ps := by
  cases s with
  | true =>
    have hall : ∀ q ∈ ps, q.isSome = true := fun q hq => (h q hq).1
    have hany : ps.any Option.isNone = false := by
      rw [List.any_eq_false]
      intro q hq
      simpa [Option.isNone_iff_eq_none, Option.ne_none_iff_isSome] using hall q hq
    rw [hany] at hcat
    obtain ⟨gs, hgs, rfl⟩ := Option.map_eq_some_iff.1 hcat
    rw [← (catRows_eq_joinAll hne hall fun q hq => (h q hq).2).1, ← hgs]
  | false =>
    obtain ⟨q, hq⟩ := List.exists_mem_of_ne_nil _ hne
    have hany : ps.any Option.isNone = true :=
      List.any_eq_true.2 ⟨q, hq, by simpa [Option.isNone_iff_eq_none] using (h q hq).1⟩
    rw [hany] at hcat
    obtain rfl := Option.some.inj hcat
    have hjoin : joinAll ps = .none := by
      simpa [Option.isSome_eq_false_iff, Option.isNone_iff_eq_none] using isSome_joinAll hne fun q hq => (h q hq).1
    exact hjoin.symm

/-! ## Passes over the batches -/

theorem forall_of_forall₂ {β γ : Type} {R : β → γ → Prop} {Q : γ → Prop} (h : ∀ b c, R b c → Q c) {l : List β}
    {m : List γ} (hall : List.Forall₂ R l m) : ∀ c ∈ m, Q c := by
  induction hall with
  | nil => simp
  | cons hbc _ ih => exact List.forall_mem_cons.2 ⟨h _ _ hbc, ih⟩

section passes

variable [Add α]

/-- What a batch's forward pass leaves. -/
def Forwarded (w : Learner α) (batch : Batch α × Option (List (Batch α))) (st : ForwardLoop Peer α) : Prop :=
  w.Prompted batch.2 ∧ st.intermediateInputs.length = st.doneSequences.length ∧
    Staged (w.layers batch.2) 0 batch.1 (st.intermediateInputs.zip st.doneSequences) w.numBlocks st.inputs ∧
    st.inputs.map List.length = batch.1.map List.length

/-- What a batch's backward pass leaves, given the gradient at its outputs. -/
def Backwarded (w : Learner α) (batch : Batch α × Option (List (Batch α))) (o : Batch α × BackwardLoop Peer α) : Prop :=
  o.1.length = batch.1.length ∧ Layer.reverse (w.layers batch.2) batch.1 o.1 =
      .some (o.2.gradOutputs, promptsOrDummies w.blocks o.2.gradPrompts) ∧
    o.2.gradPrompts ≠ .some [] ∧ o.2.forwardSequences = []

theorem gatherForward_forwarded {batches : List (Batch α × Option (List (Batch α)))}
    {attempts : List (List (ForwardAttempt Peer))} (hroutes : ∀ l ∈ attempts, ∀ a ∈ l, a.Routes w)
    {outs : List (ForwardLoop Peer α)} (h : gatherForward w batches attempts = .some outs) :
    List.Forall₂ (Forwarded w) batches outs := by
  induction batches generalizing attempts outs with
  | nil =>
    obtain rfl := Option.some.inj h
    exact .nil
  | cons batch batches ih =>
    cases attempts with
    | nil => exact absurd h (by simp [gatherForward])
    | cons a attempts =>
      rw [gatherForward] at h
      split at h
      · next st hst =>
        obtain ⟨rest, hrest, rfl⟩ := Option.map_eq_some_iff.1 h
        exact .cons (sequentialForward_returned (Int.natCast_nonneg _) (hroutes a (by simp)) hst)
          (ih (fun l hl => hroutes l (List.mem_cons_of_mem _ hl)) hrest)
      · exact absurd h (by simp)

theorem gatherBackward_backwarded {batches : List (Batch α × Option (List (Batch α)))}
    {forwards : List (ForwardLoop Peer α)} (hforward : List.Forall₂ (Forwarded w) batches forwards)
    {gs : List (Batch α)} (hgs : List.Forall₂ (fun batch g => g.length = batch.1.length) batches gs)
    {attempts : List (List (BackwardAttempt Peer))} (hroutes : ∀ l ∈ attempts, ∀ a ∈ l, ∀ b ∈ a.forward, b.Routes w)
    {outs : List (BackwardLoop Peer α)}
    (h : gatherBackward w gs (forwards.map (·.intermediateInputs)) (batches.map Prod.snd)
      (forwards.map (·.doneSequences)) attempts = .some outs) :
    List.Forall₂ (Backwarded w) batches (gs.zip outs) ∧ outs.length = gs.length := by
  induction hforward generalizing gs attempts outs with
  | nil =>
    cases hgs
    obtain rfl := Option.some.inj h
    exact ⟨.nil, rfl⟩
  | @cons batch st batches forwards hst _ ih =>
    cases hgs with
    | @cons _ g _ gs hg hgs =>
      cases attempts with
      | nil => exact absurd h (by simp [gatherBackward])
      | cons a attempts =>
        rw [List.map_cons, List.map_cons, List.map_cons, gatherBackward] at h
        split at h
        · next last hlast =>
          obtain ⟨rest, hrest, rfl⟩ := Option.map_eq_some_iff.1 h
          obtain ⟨hall, hlen⟩ := ih hgs (fun l hl => hroutes l (List.mem_cons_of_mem _ hl)) hrest
          obtain ⟨hprompts, -, hstaged, -⟩ := hst
          exact ⟨.cons ⟨hg, sequentialBackward_reverse hprompts hstaged (hroutes a (by simp)) hlast⟩ hall,
            by simp [hlen]⟩
        · exact absurd h (by simp)

/-- The batches' outputs are those of all rows. -/
theorem Splits.chain {batches : List (Batch α × Option (List (Batch α)))} {x : Batch α}
    {p : Option (List (Batch α))} (h : Splits w batches x p) {outs : List (ForwardLoop Peer α)}
    (hall : List.Forall₂ (Forwarded w) batches outs) :
    Layer.chain (w.layers p) x = .some (outs.map (·.inputs)).flatten ∧
      (outs.map (·.inputs)).flatten.map List.length = x.map List.length := by
  have hchain : ∀ {batch : Batch α × Option (List (Batch α))} {st : ForwardLoop Peer α}, Forwarded w batch st →
      Layer.chain (w.layers batch.2) batch.1 = .some st.inputs := fun {batch st} hst => by
    have := hst.2.2.1.chain le_rfl
    rwa [Learner.numBlocks, ← length_layers hst.1, slice_all] at this
  induction h generalizing outs with
  | one x p =>
    cases hall with
    | cons hst hnil =>
      cases hnil
      exact ⟨by simpa using hchain hst, by simpa using hst.2.2.2⟩
  | cons hsame hp hp' hrows _ ih =>
    cases hall with
    | cons hst hall =>
      obtain ⟨hrest, hshape⟩ := ih hall
      obtain ⟨es, hes, hes', hboth, hfit⟩ := exists_layersOf hsame hp hp' hrows
      constructor
      · rw [hboth, List.map_cons, List.flatten_cons]
        exact chain_rows hfit (hes ▸ hchain hst) (hes' ▸ hrest)
      · rw [List.map_cons, List.flatten_cons, List.map_append, List.map_append, hshape, hst.2.2.2]

/-- There are gradients of prompts where there are prompts. -/
theorem Backwarded.isSome {batch : Batch α × Option (List (Batch α))} {o : Batch α × BackwardLoop Peer α}
    (h : Backwarded w batch o) (hp : w.Prompted batch.2) :
    o.2.gradPrompts.isSome = (batch.2.isSome && !w.blocks.isEmpty) ∧
      ∀ gs, o.2.gradPrompts = .some gs → gs.length = w.blocks.length := by
  have hpattern := isSome_of_reverse_layers hp h.2.1
  have hlen := congrArg List.length hpattern
  rw [List.length_map, List.length_map, length_promptsOrDummies hp] at hlen
  cases hgrads : o.2.gradPrompts with
  | none =>
    refine ⟨?_, fun gs hgs => absurd hgs (by simp)⟩
    cases hprompts : batch.2 with
    | none => rfl
    | some ps =>
      rw [hgrads, hprompts] at hpattern
      have hps := hp ps hprompts
      cases hblocks : w.blocks with
      | nil => rfl
      | cons b blocks =>
        rw [hblocks] at hps hpattern
        obtain ⟨q, ps, rfl⟩ := List.exists_cons_of_length_eq_add_one hps
        exact absurd hpattern (by simp [promptsOrDummies])
  | some gs =>
    have hne : gs ≠ [] := fun hnil => h.2.2.1 (hgrads.trans (congrArg Option.some hnil))
    rw [hgrads] at hlen hpattern
    have hgs : gs.length = w.blocks.length := by simpa [promptsOrDummies] using hlen
    refine ⟨?_, fun gs' hgs' => Option.some.inj hgs' ▸ hgs⟩
    obtain ⟨g, gs, rfl⟩ := List.exists_cons_of_ne_nil hne
    cases hblocks : w.blocks with
    | nil =>
      rw [hblocks] at hgs
      exact absurd hgs (by simp)
    | cons b blocks =>
      cases hprompts : batch.2 with
      | none =>
        rw [hprompts, hblocks] at hpattern
        exact absurd hpattern (by simp [promptsOrDummies])
      | some ps => rfl

/-- The batches' gradients are those of all rows. -/
theorem Splits.reverse {batches : List (Batch α × Option (List (Batch α)))} {x : Batch α}
    {p : Option (List (Batch α))} (h : Splits w batches x p) (hp : w.Prompted p)
    {outs : List (Batch α × BackwardLoop Peer α)} (hall : List.Forall₂ (Backwarded w) batches outs) :
    Layer.reverse (w.layers p) x (outs.map Prod.fst).flatten = .some ((outs.map (·.2.gradOutputs)).flatten,
        promptsOrDummies w.blocks (joinAll (outs.map (·.2.gradPrompts)))) ∧
      ∀ o ∈ outs, o.2.gradPrompts.isSome = (p.isSome && !w.blocks.isEmpty) ∧
        ∀ gs, o.2.gradPrompts = .some gs → gs.length = w.blocks.length := by
  induction h generalizing outs with
  | one x p =>
    cases hall with
    | cons ho hnil =>
      cases hnil
      exact ⟨by simpa [joinAll] using ho.2.1, by simpa using ho.isSome hp⟩
  | @cons x x' p p' batches hsame hp1 hp' hrows hsplit ih =>
    cases hall with
    | @cons _ o _ outs ho hall =>
      obtain ⟨hrest, hpattern⟩ := ih hp' hall
      obtain ⟨es, hes, hes', hboth, hfit⟩ := exists_layersOf hsame hp1 hp' hrows
      have hne : outs ≠ [] := by
        rintro rfl
        cases hall
        exact hsplit.ne_nil rfl
      have hgrads : (joinAll (outs.map (·.2.gradPrompts))).isSome = (p'.isSome && !w.blocks.isEmpty) :=
        isSome_joinAll (by simpa using hne) fun q hq => by
          obtain ⟨o', ho', rfl⟩ := List.mem_map.1 hq
          exact (hpattern o' ho').1
      have hjoin := isSome_joinPrompts hsame
      constructor
      · rw [hboth, List.map_cons, List.flatten_cons, List.map_cons, List.flatten_cons, List.map_cons,
          joinAll_cons _ (by simpa using hne),
          promptsOrDummies_joinPrompts _ ((ho.isSome hp1).1.trans (by rw [hgrads, hsame]))]
        exact (reverse_rows hfit ho.1 (hes ▸ ho.2.1) (hes' ▸ hrest)).1
      · intro o' ho'
        rw [hjoin]
        rcases List.mem_cons.1 ho' with rfl | ho'
        · exact ho.isSome hp1
        · exact hsame ▸ hpattern o' ho'

end passes

/-! ## `tensor.split` -/

theorem length_le_pieceCount {n : Nat} (hn : 0 < n) (rows : Nat) : rows ≤ pieceCount n rows * n := by
  have h := Nat.div_add_mod (rows + n - 1) n
  have hmod := Nat.mod_lt (rows + n - 1) hn
  have hle : (rows + n - 1) / n * n ≤ pieceCount n rows * n := Nat.mul_le_mul_right n (le_max_left _ _)
  rw [Nat.mul_comm] at h
  omega

/-- The batches of a pass. -/
def batchesOf (n : Nat) (x : Batch α) (p : Option (List (Batch α))) : List (Batch α × Option (List (Batch α))) :=
  (List.range (pieceCount n x.length)).map fun k => (piece n k x, p.map (List.map (piece n k)))

theorem splits_split {n : Nat} (hn : 0 < n) {x : Batch α} {p : Option (List (Batch α))} (hp : w.Prompted p)
    (hrows : ∀ ps, p = .some ps → ∀ q ∈ ps, q.length = x.length) : Splits w (batchesOf n x p) x p := by
  have hprompted : ∀ f : Batch α → Batch α, w.Prompted (p.map (List.map f)) := by
    intro f ps hps
    obtain ⟨qs, hqs, rfl⟩ := Option.map_eq_some_iff.1 hps
    rw [List.length_map, hp qs hqs]
  -- from the piece `k` on
  have hsuffix : ∀ j k, k + (j + 1) = pieceCount n x.length →
      Splits w ((List.range' k (j + 1)).map fun k => (piece n k x, p.map (List.map (piece n k))))
        (x.drop (k * n)) (p.map (List.map (List.drop (k * n)))) := by
    intro j
    induction j with
    | zero =>
      intro k hk
      have hlast : x.length ≤ k * n + n := by
        have := length_le_pieceCount hn x.length
        rw [← hk, Nat.add_mul] at this
        omega
      have hpiece : ∀ q : Batch α, q.length = x.length → piece n k q = q.drop (k * n) := fun q hq =>
        List.take_of_length_le (by rw [List.length_drop]; omega)
      have hprompts : p.map (List.map (piece n k)) = p.map (List.map (List.drop (k * n))) := by
        cases hcase : p with
        | none => rfl
        | some ps => exact congrArg Option.some (List.map_congr_left fun q hq => hpiece q (hrows ps hcase q hq))
      show Splits w [(piece n k x, p.map (List.map (piece n k)))] _ _
      rw [hpiece x rfl, hprompts]
      exact .one _ _
    | succ j ih =>
      intro k hk
      have hcut : ∀ q : Batch α, piece n k q ++ q.drop ((k + 1) * n) = q.drop (k * n) := fun q => by
        rw [show (k + 1) * n = k * n + n from Nat.succ_mul k n, ← List.drop_drop]
        exact List.take_append_drop n (q.drop (k * n))
      have hjoin : joinPrompts (p.map (List.map (piece n k))) (p.map (List.map (List.drop ((k + 1) * n)))) =
          p.map (List.map (List.drop (k * n))) := by
        cases p with
        | none => rfl
        | some ps => simp [joinPrompts, List.zipWith_map, List.zipWith_self, hcut]
      rw [List.range'_succ, List.map_cons, ← hcut x, ← hjoin]
      refine .cons (by simp) (hprompted _) (hprompted _) (fun ps hps q hq => ?_) (ih (k + 1) (by omega))
      obtain ⟨qs, hqs, rfl⟩ := Option.map_eq_some_iff.1 hps
      obtain ⟨q', hq', rfl⟩ := List.mem_map.1 hq
      simp only [piece, List.length_take, List.length_drop, hrows qs hqs q' hq']
  have hpos : 1 ≤ pieceCount n x.length := le_max_right _ _
  have hall := hsuffix (pieceCount n x.length - 1) 0 (by omega)
  rw [Nat.sub_add_cancel hpos, Nat.zero_mul] at hall
  have hid : p.map (List.map (List.drop 0)) = p := by
    cases p with
    | none => rfl
    | some ps => exact congrArg Option.some (List.map_id'' (fun _ => List.drop_zero) ps)
  rw [hid, List.drop_zero] at hall
  rw [batchesOf, List.range_eq_range']
  exact hall

theorem length_batchesOf (n : Nat) (x : Batch α) (p : Option (List (Batch α))) :
    (batchesOf n x p).length = (split n x).length := by
  simp [batchesOf, split]

/-- Pieces of as many rows. -/
theorem split_rows (n : Nat) {x g : Batch α} (p : Option (List (Batch α))) (h : g.length = x.length) :
    List.Forall₂ (fun batch g => g.length = batch.1.length) (batchesOf n x p) (split n g) := by
  rw [batchesOf, split, h, List.forall₂_map_left_iff, List.forall₂_map_right_iff, List.forall₂_same]
  intro k _
  simp only [piece, List.length_take, List.length_drop, h]

theorem split_flatten {n : Nat} (hn : 0 < n) (x : Batch α) : (split n x).flatten = x := by
  have h := (splits_split hn (w := (⟨[], .none⟩ : Learner α)) (x := x) (p := .none)
    (fun ps hps => absurd hps (by simp)) fun ps hps => absurd hps (by simp)).flatten
  rw [batchesOf, List.map_map] at h
  exact h

theorem batchSize_pos {x : Batch α} {n : Nat} (h : batchSize x = .some n) : 0 < n := by
  obtain ⟨columns, -, h⟩ := Option.bind_eq_some_iff.1 h
  split at h
  · exact absurd h (by simp)
  · exact Option.some.inj h ▸ lt_of_lt_of_le one_pos (le_max_right _ 1)

theorem batchSize_congr {x g : Batch α} (h : g.map List.length = x.map List.length) : batchSize g = batchSize x := by
  rw [batchSize, batchSize, ← List.head?_map, ← List.head?_map, h]

/-- Prompts that are not dummies are cut as the inputs are. -/
theorem batches_eq (n : Nat) {x : Batch α} {prompts : Option (List (Batch α))}
    (hrows : ∀ ps, prompts = .some ps → ∀ q ∈ ps, q.length = x.length) :
    (notDummy prompts).elim ((split n x).map fun _ => .none) (fun ps => (splitPrompts n ps).map .some) =
      (batchesOf n x (notDummy prompts)).map Prod.snd := by
  cases hcase : notDummy prompts with
  | none =>
    rw [Option.elim_none, batchesOf, split, List.map_map, List.map_map]
    rfl
  | some ps =>
    obtain ⟨hps, hsome⟩ := Option.filter_eq_some_iff.1 hcase
    have hhead : ps.head?.elim 0 List.length = x.length := by
      cases ps with
      | nil => exact absurd hsome (by simp)
      | cons q ps => exact hrows _ hps q (by simp)
    rw [Option.elim_some, splitPrompts, hhead, batchesOf, List.map_map, List.map_map]
    rfl

/-! ## Training -/

section training

variable [Add α] {inputs : Batch α} {prompts : Option (List (Batch α))}

/-- What the forward pass leaves. -/
theorem autogradForward_forwarded (hrows : ∀ ps, prompts = .some ps → ∀ q ∈ ps, q.length = inputs.length)
    {attempts : List (List (ForwardAttempt Peer))} (hroutes : ∀ l ∈ attempts, ∀ a ∈ l, a.Routes w)
    {outputs : Batch α} {ctx : AutogradContext Peer α}
    (h : autogradForward w inputs prompts attempts = .some (outputs, ctx)) :
    ∃ n outs, batchSize inputs = .some n ∧ List.Forall₂ (Forwarded w) (batchesOf n inputs (notDummy prompts)) outs ∧
      outputs = (outs.map (·.inputs)).flatten ∧ ctx = ⟨(batchesOf n inputs (notDummy prompts)).map Prod.snd,
        outs.map (·.intermediateInputs), outs.map (·.doneSequences)⟩ := by
  obtain ⟨n, hn, h⟩ := Option.bind_eq_some_iff.1 h
  obtain ⟨outs, hgather, h⟩ := Option.bind_eq_some_iff.1 h
  split at h
  · obtain ⟨rfl, rfl⟩ := Prod.mk.inj (Option.some.inj h)
    rw [batches_eq n hrows] at hgather
    have hzip : (split n inputs).zip ((batchesOf n inputs (notDummy prompts)).map Prod.snd) =
        batchesOf n inputs (notDummy prompts) := by
      rw [batchesOf, split, List.map_map, List.zip_map']
      rfl
    rw [hzip] at hgather
    exact ⟨n, outs, hn, gatherForward_forwarded hroutes hgather, rfl, by rw [batches_eq n hrows]⟩
  · exact absurd h (by simp)

/-- The first batch was checked, so there is a prompt for each block. -/
theorem prompted_of_forwarded {n : Nat} {outs : List (ForwardLoop Peer α)} {p : Option (List (Batch α))}
    (h : List.Forall₂ (Forwarded w) (batchesOf n inputs p) outs) : w.Prompted p := by
  intro ps hps
  have hpos : 0 < (batchesOf n inputs p).length := by
    rw [length_batchesOf, split, List.length_map, List.length_range]
    exact lt_of_lt_of_le one_pos (le_max_right _ 1)
  have hfirst := h.get hpos (h.length_eq ▸ hpos)
  have hget : (batchesOf n inputs p).get ⟨0, hpos⟩ = (piece n 0 inputs, p.map (List.map (piece n 0))) := by
    simp [batchesOf]
  rw [hget] at hfirst
  simpa using hfirst.1 (ps.map (piece n 0)) (by rw [hps]; rfl)

/-- What the backward pass leaves. -/
theorem autogradBackward_backwarded {n : Nat} {p : Option (List (Batch α))} (hn : 0 < n)
    (hsplit : Splits w (batchesOf n inputs p) inputs p) {forwards : List (ForwardLoop Peer α)}
    (hforward : List.Forall₂ (Forwarded w) (batchesOf n inputs p) forwards) {gradOutputs : Batch α}
    (hsize : batchSize gradOutputs = .some n) (hlen : gradOutputs.length = inputs.length)
    {attempts : List (List (BackwardAttempt Peer))} (hroutes : ∀ l ∈ attempts, ∀ a ∈ l, ∀ b ∈ a.forward, b.Routes w)
    {out : Batch α × Option (List (Batch α))} {ctx : AutogradContext Peer α}
    (h : autogradBackward w ⟨(batchesOf n inputs p).map Prod.snd, forwards.map (·.intermediateInputs),
      forwards.map (·.doneSequences)⟩ gradOutputs attempts = .some (out, ctx)) :
    Layer.reverse (w.layers p) inputs gradOutputs = .some (out.1, promptsOrDummies w.blocks out.2) ∧
      ctx = ⟨(batchesOf n inputs p).map Prod.snd, forwards.map (·.intermediateInputs),
        List.replicate (split n inputs).length []⟩ := by
  rw [autogradBackward, hsize, Option.bind_some] at h
  dsimp only at h
  split at h
  · obtain ⟨lasts, hgather, h⟩ := Option.bind_eq_some_iff.1 h
    obtain ⟨gradPrompts, hprompts, h⟩ := Option.map_eq_some_iff.1 h
    obtain ⟨rfl, rfl⟩ := Prod.mk.inj h
    obtain ⟨hall, hlasts⟩ := gatherBackward_backwarded hforward (split_rows n p hlen) hroutes hgather
    have hfst : ((split n gradOutputs).zip lasts).map Prod.fst = split n gradOutputs := List.map_fst_zip hlasts.ge
    have hsnd : ((split n gradOutputs).zip lasts).map Prod.snd = lasts := List.map_snd_zip hlasts.le
    have hmap : ∀ {β : Type} (f : BackwardLoop Peer α → β),
        ((split n gradOutputs).zip lasts).map (fun o => f o.2) = lasts.map f := fun f => by
      rw [show (fun o : Batch α × BackwardLoop Peer α => f o.2) = f ∘ Prod.snd from rfl, ← List.map_map, hsnd]
    obtain ⟨hreverse, hpattern⟩ := hsplit.reverse (prompted_of_forwarded hforward) hall
    rw [hfst, split_flatten hn, hmap, hmap] at hreverse
    have hlastsPattern : ∀ q ∈ lasts.map (·.gradPrompts), q.isSome = (p.isSome && !w.blocks.isEmpty) ∧
        ∀ gs, q = .some gs → gs.length = w.blocks.length := by
      intro q hq
      rw [← hmap] at hq
      obtain ⟨o, ho, rfl⟩ := List.mem_map.1 hq
      exact hpattern o ho
    have hne : lasts.map (·.gradPrompts) ≠ [] := by
      rw [← List.length_pos_iff, List.length_map, hlasts, split, List.length_map, List.length_range]
      exact lt_of_lt_of_le one_pos (le_max_right _ 1)
    rw [gradPrompts_eq_joinAll hne hlastsPattern hprompts]
    refine ⟨hreverse, ?_⟩
    have hrows : (split n gradOutputs).length = (split n inputs).length := by
      simp only [split, List.length_map, hlen]
    have hempty := forall_of_forall₂ (fun _ _ ho => ho.2.2.2) hall
    have hspent : lasts.map (·.forwardSequences) = List.replicate (split n inputs).length [] := by
      rw [← hmap, List.eq_replicate_iff]
      refine ⟨by rw [List.length_map, List.length_zip, hlasts, min_self, hrows], fun l hl => ?_⟩
      obtain ⟨o, ho, rfl⟩ := List.mem_map.1 hl
      exact hempty o ho
    rw [hspent]
  · exact absurd h (by simp)

/-- **Training.** Whatever fails, and however the batch and the blocks are
divided: if the forward pass returns, its outputs are those of all blocks, each
with its prompt. If the backward pass returns, so are the gradients, those of
the prompts block by block. -/
theorem training (hrows : ∀ ps, prompts = .some ps → ∀ q ∈ ps, q.length = inputs.length)
    {attempts : List (List (ForwardAttempt Peer))} (hroutes : ∀ l ∈ attempts, ∀ a ∈ l, a.Routes w)
    {outputs : Batch α} {ctx : AutogradContext Peer α}
    (hforward : autogradForward w inputs prompts attempts = .some (outputs, ctx)) :
    Layer.chain (w.layers (notDummy prompts)) inputs = .some outputs ∧
      ∀ (gradOutputs : Batch α) (again : List (List (BackwardAttempt Peer))) (out : Batch α × Option (List (Batch α)))
        (ctx' : AutogradContext Peer α), gradOutputs.map List.length = outputs.map List.length →
        (∀ l ∈ again, ∀ a ∈ l, ∀ b ∈ a.forward, b.Routes w) →
        autogradBackward w ctx gradOutputs again = .some (out, ctx') →
        Layer.reverse (w.layers (notDummy prompts)) inputs gradOutputs =
          .some (out.1, promptsOrDummies w.blocks out.2) := by
  obtain ⟨n, outs, hn, hall, rfl, rfl⟩ := autogradForward_forwarded hrows hroutes hforward
  have hrows' : ∀ ps, notDummy prompts = .some ps → ∀ q ∈ ps, q.length = inputs.length := fun ps hps =>
    hrows ps (Option.filter_eq_some_iff.1 hps).1
  have hsplit := splits_split (batchSize_pos hn) (prompted_of_forwarded hall) hrows'
  obtain ⟨hchain, hshape⟩ := hsplit.chain hall
  refine ⟨hchain, fun gradOutputs again out ctx' hgrad hroutes' hback => ?_⟩
  have hgrad' : gradOutputs.map List.length = inputs.map List.length := hgrad.trans hshape
  exact (autogradBackward_backwarded (batchSize_pos hn) hsplit hall ((batchSize_congr hgrad').trans hn)
    (by simpa using congrArg List.length hgrad') hroutes' hback).1

/-- Where the passes of all batches raise, none of them is waited for. -/
theorem gatherBackward_raised {gs : List (Batch α)} {givens : List (List (Batch α))} {ps : List (Option (List (Batch α)))}
    {spans : List (List (RemoteSpanInfo Peer))} (hgs : gs ≠ []) (hgivens : givens.length = gs.length)
    (hps : ps.length = gs.length) (hspans : spans.length = gs.length)
    (h : ∀ records ∈ givens.zip spans, ∀ p g a, sequentialBackward w p g records.1 records.2 a = .raised)
    (attempts : List (List (BackwardAttempt Peer))) : gatherBackward w gs givens ps spans attempts = .none := by
  obtain ⟨g, gs, rfl⟩ := List.exists_cons_of_ne_nil hgs
  obtain ⟨given, givens, rfl⟩ := List.exists_cons_of_length_eq_add_one hgivens
  obtain ⟨p, ps, rfl⟩ := List.exists_cons_of_length_eq_add_one hps
  obtain ⟨span, spans, rfl⟩ := List.exists_cons_of_length_eq_add_one hspans
  cases attempts with
  | nil => rfl
  | cons a attempts => rw [gatherBackward, h (given, span) (by simp)]

/-- **A second backward pass** through the same forward pass never returns: its
inputs are still recorded and its sequences are not, so that every batch fails
the assertion in front of the loop. -/
theorem second_backward (hblocks : w.blocks ≠ []) (hrows : ∀ ps, prompts = .some ps → ∀ q ∈ ps, q.length = inputs.length)
    {attempts : List (List (ForwardAttempt Peer))} (hroutes : ∀ l ∈ attempts, ∀ a ∈ l, a.Routes w)
    {outputs : Batch α} {ctx : AutogradContext Peer α}
    (hforward : autogradForward w inputs prompts attempts = .some (outputs, ctx)) {gradOutputs : Batch α}
    (hgrad : gradOutputs.map List.length = outputs.map List.length) {again : List (List (BackwardAttempt Peer))}
    (hroutes' : ∀ l ∈ again, ∀ a ∈ l, ∀ b ∈ a.forward, b.Routes w) {out : Batch α × Option (List (Batch α))}
    {ctx' : AutogradContext Peer α} (hback : autogradBackward w ctx gradOutputs again = .some (out, ctx')) :
    ctx'.intermediateInputBatches.length = ctx'.sequencesForBatches.length ∧
      (∀ records ∈ ctx'.intermediateInputBatches.zip ctx'.sequencesForBatches, ∀ p g a,
        sequentialBackward w p g records.1 records.2 a = .raised) ∧
      ∀ later attempts', autogradBackward w ctx' later attempts' = .none := by
  obtain ⟨n, outs, hn, hall, rfl, rfl⟩ := autogradForward_forwarded hrows hroutes hforward
  have hrows' : ∀ ps, notDummy prompts = .some ps → ∀ q ∈ ps, q.length = inputs.length := fun ps hps =>
    hrows ps (Option.filter_eq_some_iff.1 hps).1
  have hsplit := splits_split (batchSize_pos hn) (prompted_of_forwarded hall) hrows'
  obtain ⟨-, hshape⟩ := hsplit.chain hall
  have hgrad' : gradOutputs.map List.length = inputs.map List.length := hgrad.trans hshape
  obtain ⟨-, rfl⟩ := autogradBackward_backwarded (batchSize_pos hn) hsplit hall ((batchSize_congr hgrad').trans hn)
    (by simpa using congrArg List.length hgrad') hroutes' hback
  have houts : outs.length = (split n inputs).length := by rw [← hall.length_eq, length_batchesOf]
  -- a pass through all blocks has given some server its inputs
  have hgiven := forall_of_forall₂ (Q := fun st => st.intermediateInputs ≠ []) (fun batch st hst hnil => by
    obtain ⟨-, -, hstaged, -⟩ := hst
    rw [hnil, List.zip_nil_left] at hstaged
    exact hblocks (List.length_eq_zero_iff.1 (by simpa [Learner.numBlocks] using hstaged.1.symm))) hall
  have hraised : ∀ records ∈ (outs.map (·.intermediateInputs)).zip
      (List.replicate (split n inputs).length ([] : List (RemoteSpanInfo Peer))), ∀ p g a,
      sequentialBackward w p g records.1 records.2 a = .raised := by
    rintro ⟨given, spans⟩ hmem p g a
    obtain ⟨hleft, hright⟩ := List.of_mem_zip hmem
    obtain ⟨st, hst, rfl⟩ := List.mem_map.1 hleft
    obtain rfl := List.eq_of_mem_replicate hright
    rw [sequentialBackward, if_neg]
    simpa using hgiven st hst
  refine ⟨by simp [houts], hraised, fun later attempts' => ?_⟩
  rw [autogradBackward]
  cases batchSize later with
  | none => rfl
  | some m =>
    rw [Option.bind_some]
    dsimp only
    split
    · next hlen =>
      simp only [Bool.and_eq_true, decide_eq_true_eq, List.length_map, List.length_replicate] at hlen
      have hlater : split m later ≠ [] := by
        rw [← List.length_pos_iff, split, List.length_map, List.length_range]
        exact lt_of_lt_of_le one_pos (le_max_right _ 1)
      rw [gatherBackward_raised hlater (by simpa using hlen.1) (by rw [List.length_map, length_batchesOf, hlen.2])
        (by rw [List.length_replicate, hlen.2]) hraised, Option.bind_none]
    · rfl

end training

/-- A block that doubles, and one that squares. -/
def squares : Learner Int where
  blocks := [⟨List.map (2 * ·), fun _ grad => grad.map (2 * ·)⟩,
    ⟨List.map fun x => x * x, List.zipWith fun x grad => 2 * x * grad⟩]
  maxRetries := .some 3

/-- Two servers, where there are blocks for two. -/
def squaresRoute (start stop : Int) : Option (List (RemoteSpanInfo Nat)) :=
  let info := ⟨.online, .none, .none, .none, [], .none, .none⟩
  .some (if start + 1 < stop then [⟨1, start, start + 1, info⟩, ⟨2, start + 1, stop, info⟩] else [⟨3, start, stop, info⟩])

theorem squaresRoute_routes (replies : Bool) : (⟨squaresRoute, replies⟩ : ForwardAttempt Nat).Routes squares := by
  intro start stop route _ hlt _ hroute
  obtain rfl := Option.some.inj hroute
  refine ⟨⟨stop, ?_, le_rfl⟩, ?_, ?_⟩
  · split <;> exact ⟨rfl, by simp [Span.Chain, RemoteSpanInfo.span]⟩
  · split
    · next h => simpa using h
    · simp
  · split
    · next h => simp [h]
    · simpa using hlt

/-- Two rows so long that each goes to the servers alone. -/
def squaresInputs : Batch Int := [List.replicate 600 5, List.replicate 600 7]

/-- A prompt of one column for each row and block. -/
def squaresPrompts : Option (List (Batch Int)) := .some [[[1], [2]], [[3], [4]]]

def squaresOutputs : Batch Int := [225 :: List.replicate 599 100, 484 :: List.replicate 599 196]

def squaresGrads : Batch Int := [List.replicate 600 1, List.replicate 600 1]

def squaresGradInputs : Batch Int := [60 :: List.replicate 599 40, 88 :: List.replicate 599 56]

/-- A server that does not reply to the first row. -/
def squaresForward : List (List (ForwardAttempt Nat)) :=
  [[⟨squaresRoute, true⟩, ⟨squaresRoute, false⟩, ⟨squaresRoute, true⟩], [⟨squaresRoute, true⟩, ⟨squaresRoute, true⟩]]

/-- One that does not reply in the second row's backward pass, so that its part
is run forward again. -/
def squaresBackward : List (List (BackwardAttempt Nat)) :=
  [[⟨[], true⟩, ⟨[], true⟩], [⟨[], false⟩, ⟨[⟨squaresRoute, true⟩], true⟩, ⟨[], true⟩]]

theorem squaresForward_routes : ∀ l ∈ squaresForward, ∀ a ∈ l, a.Routes squares := by
  simp [squaresForward, squaresRoute_routes]

theorem squaresBackward_routes : ∀ l ∈ squaresBackward, ∀ a ∈ l, ∀ b ∈ a.forward, b.Routes squares := by
  simp [squaresBackward, squaresRoute_routes]

theorem squares_forward : ∃ ctx, autogradForward squares squaresInputs squaresPrompts squaresForward =
    .some (squaresOutputs, ctx) ∧ ctx.sequencesForBatches.length = 2 ∧
      ∃ ctx', autogradBackward squares ctx squaresGrads squaresBackward =
        .some ((squaresGradInputs, .some [[[60], [88]], [[30], [44]]]), ctx') := by
  have hrun : ((autogradForward squares squaresInputs squaresPrompts squaresForward).any fun f =>
      f.1 = squaresOutputs && f.2.sequencesForBatches.length = 2 &&
        ((autogradBackward squares f.2 squaresGrads squaresBackward).any fun b =>
          b.1 = (squaresGradInputs, .some [[[60], [88]], [[30], [44]]]))) = true := by decide +kernel
  obtain ⟨⟨outputs, ctx⟩, hforward, hcheck⟩ := (Option.any_eq_true _ _).1 hrun
  simp only [Bool.and_eq_true, decide_eq_true_eq] at hcheck
  obtain ⟨⟨rfl, htwo⟩, hback⟩ := hcheck
  obtain ⟨⟨out, ctx'⟩, hback, hout⟩ := (Option.any_eq_true _ _).1 hback
  exact ⟨ctx, hforward, htwo, ctx', by rw [hback, ← of_decide_eq_true hout]⟩

theorem squaresPrompts_rows : ∀ ps, squaresPrompts = .some ps → ∀ q ∈ ps, q.length = squaresInputs.length := by
  intro ps hps
  obtain rfl := Option.some.inj hps
  have hlen : squaresInputs.length = 2 := rfl
  rw [hlen]
  decide

theorem squaresGrads_shape : squaresGrads.map List.length = squaresOutputs.map List.length := by decide +kernel

theorem training_squares :
    Layer.chain (squares.layers (notDummy squaresPrompts)) squaresInputs = .some squaresOutputs ∧
      Layer.reverse (squares.layers (notDummy squaresPrompts)) squaresInputs squaresGrads =
        .some (squaresGradInputs, [.some [[60], [88]], .some [[30], [44]]]) := by
  obtain ⟨ctx, hforward, -, ctx', hback⟩ := squares_forward
  obtain ⟨hchain, hreverse⟩ := training squaresPrompts_rows squaresForward_routes hforward
  exact ⟨hchain, hreverse squaresGrads squaresBackward _ ctx' squaresGrads_shape squaresBackward_routes hback⟩

theorem second_backward_squares : ∃ ctx ctx',
    autogradForward squares squaresInputs squaresPrompts squaresForward = .some (squaresOutputs, ctx) ∧
      autogradBackward squares ctx squaresGrads squaresBackward =
        .some ((squaresGradInputs, .some [[[60], [88]], [[30], [44]]]), ctx') ∧
      ∀ later attempts, autogradBackward squares ctx' later attempts = .none := by
  obtain ⟨ctx, hforward, -, ctx', hback⟩ := squares_forward
  exact ⟨ctx, ctx', hforward, hback, (second_backward (by simp [squares]) squaresPrompts_rows squaresForward_routes
    hforward squaresGrads_shape squaresBackward_routes hback).2.2⟩

end Petals

end Blitzwing
