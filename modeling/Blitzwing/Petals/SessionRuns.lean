/-
A client's inference session computes what one machine would, whatever fails.

Between steps a chain of server sessions tiles the blocks, and each is `Live`:
its server's caches hold what its blocks were given at the positions kept.
During a step the servers behind the current block are live at the new
position, and those ahead at the old one or new. An attempt keeps this,
whatever it does (`Loop.Inv.attempt`), so a step that returns has computed
what the blocks give in one piece (`session_run`).

A new session is at position zero. So a failure is made good only in a step
from position zero; later every further attempt fails too, at a server that
has done nothing wrong (`failure_not_recovered`, `failure_recovered`).
-/
import Blitzwing.Petals.ClientSession
import Blitzwing.Petals.Latency

namespace Blitzwing

namespace Petals

open CausalBlock (pick)

variable {Peer H K ι : Type} [Add H]

/-! ## The meaning of a step, from one block to another -/

/-- What is added before each block. -/
def StepArgs.adds (w : Swarm Peer H K) (args : StepArgs ι H) : List (List (ι → H) → List (ι → H)) :=
  ((args.prompts.map (·.map .some)).getD (w.blocks.map fun _ => .none)).map plus

/-- A step of the blocks from `start` on to `stop`, computed anew from what
each was given. -/
def Swarm.plainBlocks (w : Swarm Peer H K) (args : StepArgs ι H) (start stop : Int) (given : List (List (ι → H)))
    (xs : List (ι → H)) : List (List (ι → H)) × List (ι → H) :=
  if xs = [] then (given, [])
  else CausalBlock.recompute ((slice start stop w.blocks).map .rows) (slice start stop (args.adds w))
    (given.map fun ks => args.hypoIds.elim ks fun σ => ks.map (pick σ)) xs

variable {w : Swarm Peer H K} {args : StepArgs ι H}

theorem slice_append {α : Type} {a b c : Int} (h0 : 0 ≤ a) (hab : a ≤ b) (hbc : b ≤ c) (xs : List α) :
    slice a c xs = slice a b xs ++ slice b c xs := by
  obtain ⟨a, rfl⟩ := Int.eq_ofNat_of_zero_le h0
  obtain ⟨b, rfl⟩ := Int.eq_ofNat_of_zero_le (h0.trans hab)
  obtain ⟨c, rfl⟩ := Int.eq_ofNat_of_zero_le ((h0.trans hab).trans hbc)
  have hb : ((b : Int) - a).toNat = b - a := by omega
  have hc : ((c : Int) - b).toNat = c - b := by omega
  have hac : ((c : Int) - a).toNat = (b - a) + (c - b) := by omega
  simp only [slice, Int.toNat_natCast, hb, hc, hac, List.take_add, List.drop_drop]
  rw [show a + (b - a) = b by omega]

theorem length_slice {α : Type} {a b : Int} {xs : List α} (h0 : 0 ≤ a) (hb : b ≤ xs.length) :
    (slice a b xs).length = (b - a).toNat := by
  simp only [slice, List.length_take, List.length_drop]
  omega

theorem slice_all {α : Type} (xs : List α) : slice 0 xs.length xs = xs := by simp [slice]

theorem slice_self {α : Type} (a : Int) (xs : List α) : slice a a xs = [] := by simp [slice]

/-- The step's prompts are checked. -/
def StepArgs.Checked (w : Swarm Peer H K) (args : StepArgs ι H) (n : Nat) : Prop :=
  ∀ prompts, args.prompts = .some prompts → (prompts.length : Int) = w.numBlocks ∧ ∀ p ∈ prompts, p.length ≤ n

theorem StepArgs.Checked.length_adds {n : Nat} (h : args.Checked w n) : (args.adds w).length = w.blocks.length := by
  unfold StepArgs.adds
  cases hp : args.prompts with
  | none => simp
  | some prompts =>
    have := (h prompts hp).1
    simp only [Swarm.numBlocks] at this
    simpa using Int.ofNat.inj this

theorem Swarm.length_plainBlocks {n : Nat} (h : args.Checked w n) {a b : Int} (h0 : 0 ≤ a) (hb : b ≤ w.numBlocks)
    {given : List (List (ι → H))} (hg : given.length = (b - a).toNat) (xs : List (ι → H)) :
    (w.plainBlocks args a b given xs).1.length = given.length := by
  unfold Swarm.plainBlocks
  split
  · rfl
  · have hf : (slice a b w.blocks).length = (b - a).toNat := length_slice h0 hb
    have ha : (slice a b (args.adds w)).length = (b - a).toNat :=
      length_slice h0 (by rw [h.length_adds]; exact hb)
    rw [CausalBlock.length_recompute (by simp [hf, ha]) (by simp [hf, hg])]
    simp [hf, hg]

/-- The blocks up to `b`, and then those up to `c`. -/
theorem Swarm.plainBlocks_append {n : Nat} (h : args.Checked w n) {a b c : Int} (h0 : 0 ≤ a) (hab : a ≤ b)
    (hbc : b ≤ c) (hc : c ≤ w.numBlocks) {given given' after after' : List (List (ι → H))}
    {xs ys zs : List (ι → H)} (hg : given.length = (b - a).toNat)
    (hfirst : w.plainBlocks args a b given xs = (after, ys)) (hlen : ys.length = xs.length)
    (hrest : w.plainBlocks args b c given' ys = (after', zs)) :
    w.plainBlocks args a c (given ++ given') xs = (after ++ after', zs) := by
  unfold Swarm.plainBlocks at *
  by_cases hx : xs = []
  · have hy : ys = [] := List.length_eq_zero_iff.1 (by rw [hlen, hx]; rfl)
    rw [if_pos hx] at hfirst ⊢
    rw [if_pos hy] at hrest
    simp only [Prod.mk.injEq] at hfirst hrest ⊢
    exact ⟨by rw [hfirst.1, hrest.1], hrest.2⟩
  · have hy : ys ≠ [] := fun hy => hx (List.length_eq_zero_iff.1 (by rw [← hlen, hy]; rfl))
    rw [if_neg hx] at hfirst ⊢
    rw [if_neg hy] at hrest
    have hf : (slice a b w.blocks).length = (b - a).toNat := length_slice h0 (hbc.trans hc)
    have ha : (slice a b (args.adds w)).length = (b - a).toNat :=
      length_slice h0 (by rw [h.length_adds]; exact hbc.trans hc)
    rw [slice_append h0 hab hbc, slice_append h0 hab hbc, List.map_append, List.map_append,
      CausalBlock.recompute_append (by simp [hf, ha]) (by simp [hf, hg]), hfirst, hrest]

omit [Add H] in
theorem Swarm.length_backends (maxLength : Nat) (span : RemoteSpanInfo Peer) :
    (w.settings maxLength span).backends.length = (slice span.start span.stop w.blocks).length := by
  simp [Swarm.settings]

variable (w args) in
/-- What a server adds is its part of what all add. -/
theorem StepArgs.promptsFor_adds (maxLength : Nat) (span : RemoteSpanInfo Peer) :
    ((args.promptsFor span).getD ((w.settings maxLength span).backends.map fun _ => .none)).map plus =
      slice span.start span.stop (args.adds w) := by
  unfold StepArgs.promptsFor StepArgs.adds
  cases args.prompts with
  | none => simp [Swarm.settings, slice, List.map_take, List.map_drop, Function.comp_def]
  | some prompts => simp [slice, List.map_take, List.map_drop]

omit [Add H] in
theorem StepArgs.Checked.promptsFit {n : Nat} (h : args.Checked w n) (maxLength : Nat) (span : RemoteSpanInfo Peer) :
    promptsFit ((args.promptsFor span).getD ((w.settings maxLength span).backends.map fun _ => .none)) n = true := by
  unfold StepArgs.promptsFor Petals.promptsFit
  cases hp : args.prompts with
  | none => simp
  | some prompts =>
    have := (h prompts hp).2
    simp only [Option.map_some, Option.getD_some, List.all_map, List.all_eq_true, Function.comp_apply, Option.all_some,
      decide_eq_true_eq]
    intro prompt hprompt
    exact this prompt (List.mem_of_mem_drop (List.mem_of_mem_take hprompt))

/-- **A server answers** with what its blocks give, and its caches hold what
they were given. -/
theorem Swarm.server_step {maxLength p : Nat} {span : RemoteSpanInfo Peer} {state : SessionState ι K}
    {given : List (List (ι → H))} {xs : List (ι → H)} (h0 : 0 ≤ span.start) (hN : span.stop ≤ w.numBlocks)
    (hcaches : CachesHold maxLength state.prefixLength (w.settings maxLength span).backends state.caches given)
    (hp : p ≤ state.prefixLength) (hc : args.Checked w xs.length) (hfit : p + xs.length ≤ maxLength) :
    ∃ state' after out, (w.settings maxLength span).step state ⟨xs, args.promptsFor span, args.hypoIds, .some p⟩ =
        .ok (state', out) ∧
      w.plainBlocks args span.start span.stop (given.map (·.take p)) xs = (after, out) ∧ out.length = xs.length ∧
      state'.prefixLength = p + xs.length ∧
      CachesHold maxLength (p + xs.length) (w.settings maxLength span).backends state'.caches after := by
  have hcount := congrArg List.length (StepArgs.promptsFor_adds w args maxLength span)
  rw [List.length_map, length_slice h0 (by rw [hc.length_adds]; exact hN)] at hcount
  have hcount' : (w.settings maxLength span).backends.length =
      ((args.promptsFor span).getD ((w.settings maxLength span).backends.map fun _ => .none)).length := by
    rw [hcount, Swarm.length_backends, length_slice h0 hN]
  have hlong : ¬ p + xs.length > (w.settings maxLength span).maxLength := by
    simp only [Swarm.settings]
    omega
  simp only [SessionSettings.step, Option.getD_some, ← hcount', ne_eq, not_true_eq_false, if_false, if_neg hlong]
  by_cases hx : xs = []
  · refine ⟨⟨p, state.caches⟩, given.map (·.take p), [], by rw [if_pos hx], by simp [Swarm.plainBlocks, hx], by simp [hx],
      by simp [hx], ?_⟩
    simp only [hx, List.length_nil, Nat.add_zero]
    exact hcaches.cutBack hp
  · obtain ⟨caches', hmerged, hcaches', hout⟩ := mergedInferenceStep_ok w.batchSize args.hypoIds hcaches hp hfit
      hcount'.symm (hc.promptsFit maxLength span)
    have hrows : ((w.settings maxLength span).backends.map fun b => b.module.rows (ι := ι)) =
        (slice span.start span.stop w.blocks).map .rows := by
      simp [Swarm.settings]
    have hgiven : (given.map fun ks => (args.hypoIds.elim ks fun σ => ks.map (pick σ)).take p) =
        (given.map (·.take p)).map fun ks => args.hypoIds.elim ks fun σ => ks.map (pick σ) := by
      rw [List.map_map]
      refine List.map_congr_left fun ks _ => ?_
      cases args.hypoIds <;> simp [List.map_take]
    rw [StepArgs.promptsFor_adds, hrows, hgiven] at hmerged hcaches' hout
    refine ⟨⟨p + xs.length, caches'⟩, _, _, ?_, by rw [Swarm.plainBlocks, if_neg hx], hout, rfl, hcaches'⟩
    rw [if_neg hx, SessionSettings.runBlocks_eq]
    simp only [Swarm.settings] at hmerged ⊢
    rw [hmerged]

omit [Add H] in
theorem CachesHold.reach {maxLength position : Nat} {backends : List (TransformerBackend H K)}
    {caches : List (List (ι → K))} {given : List (List (ι → H))}
    (h : CachesHold maxLength position backends caches given) : ∀ ks ∈ given, ks.length = position := by
  induction backends generalizing caches given with
  | nil => cases caches <;> cases given <;> simp_all [CachesHold]
  | cons backend backends ih =>
    cases caches with
    | nil => cases given <;> simp [CachesHold] at h
    | cons cache caches =>
      cases given with
      | nil => simp
      | cons ks given =>
        rw [List.forall_mem_cons]
        exact ⟨h.1.reach, ih h.2⟩

/-! ## One server session -/

namespace ServerSession

/-- Its server holds what the session's blocks were given up to `position`. -/
structure Live (w : Swarm Peer H K) (maxLength position : Nat) (s : ServerSession Peer ι H K)
    (given : List (List (ι → H))) : Prop where
  opened : s.closed = false
  begun : s.stepped = true
  reach : s.position = position
  history : (s.history.getD []).length = position
  caches : ∃ all, given = all.map (·.take position) ∧ position ≤ s.state.prefixLength ∧
    CachesHold maxLength s.state.prefixLength (w.settings maxLength s.span).backends s.state.caches all

/-- Nothing was sent yet. -/
structure Fresh (w : Swarm Peer H K) (maxLength : Nat) (s : ServerSession Peer ι H K) : Prop where
  opened : s.closed = false
  unsent : s.stepped = false
  reach : s.position = 0
  state : s.state = (w.settings maxLength s.span).fresh

/-- At position zero the history is empty, or of this very step. -/
def Recent (position : Nat) (inputs : List (ι → H)) (s : ServerSession Peer ι H K) : Prop :=
  position = 0 → ∀ history, s.history = .some history → history = [] ∨ history = inputs

/-- Not asked in this step yet. -/
def Idle (w : Swarm Peer H K) (maxLength position : Nat) (s : ServerSession Peer ι H K)
    (given : List (List (ι → H))) : Prop :=
  Live w maxLength position s given ∨ Fresh w maxLength s ∧ s.history = .none

variable {maxLength position : Nat} {s : ServerSession Peer ι H K} {given : List (List (ι → H))}
  {inputs : List (ι → H)}

omit [Add H] in
theorem Idle.recent (h : Idle w maxLength position s given) : Recent position inputs s := by
  intro hzero history hsome
  rcases h with hlive | ⟨-, hnone⟩
  · have := hlive.history
    rw [hsome, hzero, Option.getD_some] at this
    exact .inl (List.length_eq_zero_iff.1 this)
  · rw [hnone] at hsome
    cases hsome

omit [Add H] in
theorem extendedHistory_zero (hpos : s.position = 0) (h : Recent 0 inputs s) : s.extendedHistory inputs = inputs := by
  unfold extendedHistory
  cases hh : s.history with
  | none => rfl
  | some history =>
    rcases h rfl history hh with rfl | rfl
    · simp [hpos]
    · by_cases hlen : history.length = s.position
      · obtain rfl : history = [] := List.length_eq_zero_iff.1 (hlen.trans hpos)
        simp
      · simp [hlen]

omit [Add H] in
theorem Live.length_extendedHistory (h : Live w maxLength position s given) :
    (s.extendedHistory inputs).length = position + inputs.length := by
  have hlen := h.history
  unfold extendedHistory
  cases hh : s.history with
  | none =>
    rw [hh, Option.getD_none, List.length_nil] at hlen
    simp [← hlen]
  | some history =>
    rw [hh, Option.getD_some] at hlen
    simp [hlen, h.reach]

omit [Add H] in
/-- The history that a step leaves, where the session is at the step's
position. -/
theorem recent_extendedHistory (hpos : s.position = position) (h : Recent position inputs s)
    {s' : ServerSession Peer ι H K} (hs : s'.history = .some (s.extendedHistory inputs)) :
    Recent position inputs s' := by
  intro hzero history hsome
  subst hzero
  rw [hs, extendedHistory_zero hpos h] at hsome
  exact .inr (Option.some.inj hsome).symm

/-- **A step of one server session**: it answers for its blocks and is live at
the next position, unless the server does not reply. -/
theorem step_spec (hready : Live w maxLength position s given ∨ Fresh w maxLength s)
    (hrecent : Recent position inputs s) (hpos : s.position = position) (h0 : 0 ≤ s.span.start)
    (hN : s.span.stop ≤ w.numBlocks) (hlen : given.length = (s.span.stop - s.span.start).toNat)
    (hzero : position = 0 → ∀ ks ∈ given, ks = []) (hc : args.Checked w inputs.length)
    (hfit : position + inputs.length ≤ maxLength) (replies : Bool) :
    ∃ s', s'.span = s.span ∧
      (replies = true → ∃ after out, s.step w maxLength args replies inputs = (s', .some out) ∧
        w.plainBlocks args s.span.start s.span.stop given inputs = (after, out) ∧ out.length = inputs.length ∧
        Live w maxLength (position + inputs.length) s' after) ∧
      (replies = false → s.step w maxLength args replies inputs = (s', .none) ∧ Recent position inputs s') := by
  have hopened : s.closed = false := hready.elim (·.opened) (·.opened)
  -- what is sent is the inputs, either way
  have hextended : (s.extendedHistory inputs).length = position + inputs.length := by
    rcases hready with hlive | hfresh
    · exact hlive.length_extendedHistory
    · obtain rfl : position = 0 := hpos.symm.trans hfresh.reach
      rw [extendedHistory_zero hpos hrecent, Nat.zero_add]
  have hsent : (if s.stepped = true then inputs else s.extendedHistory inputs) = inputs := by
    rcases hready with hlive | hfresh
    · rw [if_pos hlive.begun]
    · obtain rfl : position = 0 := hpos.symm.trans hfresh.reach
      rw [extendedHistory_zero hpos hrecent, ite_self]
  have hcaches : ∃ all, given = all.map (·.take position) ∧ position ≤ s.state.prefixLength ∧
      CachesHold maxLength s.state.prefixLength (w.settings maxLength s.span).backends s.state.caches all := by
    rcases hready with hlive | hfresh
    · exact hlive.caches
    · obtain rfl : position = 0 := hpos.symm.trans hfresh.reach
      refine ⟨given, ?_, Nat.zero_le _, ?_⟩
      · refine ((List.map_congr_left fun ks hks => ?_).trans (List.map_id given)).symm
        simp [hzero rfl ks hks]
      · have hempty : given = (w.settings maxLength s.span).backends.map fun _ => [] := by
          rw [List.map_const', Swarm.length_backends, length_slice h0 hN, ← hlen]
          exact List.eq_replicate_of_mem (hzero rfl)
        rw [hfresh.state, hempty]
        exact (w.settings maxLength s.span).fresh_holds
  obtain ⟨all, hgiven, hle, hcaches⟩ := hcaches
  obtain ⟨state', after, out, hstep, hplain, hout, hposition, hcaches'⟩ :=
    Swarm.server_step h0 hN hcaches hle hc hfit
  rw [← hgiven] at hplain
  cases replies with
  | false =>
    refine ⟨{ s with history := .some (s.extendedHistory inputs), stepped := true }, rfl, nofun, fun _ => ⟨?_, ?_⟩⟩
    · simp only [step, hopened, Bool.false_eq_true, if_false, hpos, hextended, ne_eq, not_true_eq_false, Bool.not_false,
        if_true]
    · exact recent_extendedHistory hpos hrecent rfl
  | true =>
    refine ⟨{ s with
        history := .some (s.extendedHistory inputs), stepped := true, position := s.position + inputs.length
        state := state' }, rfl, fun _ => ⟨after, out, ?_, hplain, hout, ?_⟩, nofun⟩
    · simp only [step, hopened, Bool.false_eq_true, if_false, hpos, hextended, ne_eq, not_true_eq_false, Bool.not_true,
        hsent, hstep, if_pos hout]
    · refine ⟨hopened, rfl, by simp [hpos], by simpa using hextended, after, ?_, Nat.le_of_eq hposition.symm, ?_⟩
      · exact ((List.map_congr_left fun ks hks =>
          List.take_of_length_le (Nat.le_of_eq (hcaches'.reach ks hks))).trans (List.map_id after)).symm
      · simpa [hposition] using hcaches'

end ServerSession

/-! ## A chain of sessions -/

/-- The sessions serve the blocks from one to another in turn, and `P` holds of
each with its blocks' part of `given`. -/
def Tiled (P : ServerSession Peer ι H K → List (List (ι → H)) → Prop) :
    Int → List (ServerSession Peer ι H K) → List (List (ι → H)) → Int → Prop
  | start, [], given, stop => start = stop ∧ given = []
  | start, s :: sessions, given, stop => s.span.start = start ∧ start < s.span.stop ∧
      ∃ first rest, given = first ++ rest ∧ first.length = (s.span.stop - start).toNat ∧ P s first ∧
        Tiled P s.span.stop sessions rest stop

namespace Tiled

variable {P : ServerSession Peer ι H K → List (List (ι → H)) → Prop} {start middle stop : Int}
  {sessions sessions' : List (ServerSession Peer ι H K)} {given given' : List (List (ι → H))}

omit [Add H] in
theorem le (h : Tiled P start sessions given stop) : start ≤ stop := by
  induction sessions generalizing start given with
  | nil => exact Int.le_of_eq h.1
  | cons s sessions ih =>
    obtain ⟨-, hlt, first, rest, -, -, -, hrest⟩ := h
    have := ih hrest
    omega

omit [Add H] in
theorem eq_nil (h : Tiled P start sessions given start) : sessions = [] := by
  cases sessions with
  | nil => rfl
  | cons s sessions =>
    obtain ⟨-, hlt, first, rest, -, -, -, hrest⟩ := h
    have := hrest.le
    omega

omit [Add H] in
theorem length (h : Tiled P start sessions given stop) : given.length = (stop - start).toNat := by
  induction sessions generalizing start given with
  | nil =>
    obtain ⟨rfl, rfl⟩ := h
    simp
  | cons s sessions ih =>
    obtain ⟨-, hlt, first, rest, rfl, hfirst, -, hrest⟩ := h
    have := ih hrest
    have := hrest.le
    rw [List.length_append]
    omega

omit [Add H] in
theorem imp {Q : ServerSession Peer ι H K → List (List (ι → H)) → Prop} (hPQ : ∀ s first, P s first → Q s first)
    (h : Tiled P start sessions given stop) : Tiled Q start sessions given stop := by
  induction sessions generalizing start given with
  | nil => exact h
  | cons s sessions ih =>
    obtain ⟨hs, hlt, first, rest, hgiven, hfirst, hP, hrest⟩ := h
    exact ⟨hs, hlt, first, rest, hgiven, hfirst, hPQ s first hP, ih hrest⟩

omit [Add H] in
theorem forall_given {p : List (ι → H) → Prop} (hp : ∀ s first, P s first → ∀ ks ∈ first, p ks)
    (h : Tiled P start sessions given stop) : ∀ ks ∈ given, p ks := by
  induction sessions generalizing start given with
  | nil =>
    obtain ⟨-, rfl⟩ := h
    simp
  | cons s sessions ih =>
    obtain ⟨-, -, first, rest, rfl, -, hP, hrest⟩ := h
    exact List.forall_mem_append.2 ⟨hp s first hP, ih hrest⟩

omit [Add H] in
theorem append (h : Tiled P start sessions given middle) (h' : Tiled P middle sessions' given' stop) :
    Tiled P start (sessions ++ sessions') (given ++ given') stop := by
  induction sessions generalizing start given with
  | nil =>
    obtain ⟨rfl, rfl⟩ := h
    exact h'
  | cons s sessions ih =>
    obtain ⟨hs, hlt, first, rest, rfl, hfirst, hP, hrest⟩ := h
    exact ⟨hs, hlt, first, rest ++ given', by simp, hfirst, hP, ih hrest⟩

end Tiled

/-- A route is one server after another, each for some blocks. -/
def RouteFrom (start stop : Int) (route : List (RemoteSpanInfo Peer)) : Prop :=
  Span.Chain start (route.map (·.span)) stop ∧ ∀ s ∈ route, s.start < s.stop

variable (w) in
omit [Add H] in
/-- The sessions of a new route. -/
theorem RouteFrom.tiled (maxLength position : Nat) {start stop : Int} {route : List (RemoteSpanInfo Peer)}
    (h : RouteFrom start stop route) {given : List (List (ι → H))} (hlen : given.length = (stop - start).toNat) :
    Tiled (ServerSession.Idle w maxLength position) start (route.map (ServerSession.create w maxLength)) given stop := by
  obtain ⟨hchain, hpos⟩ := h
  induction route generalizing start given with
  | nil =>
    obtain rfl : start = stop := hchain
    exact ⟨rfl, List.length_eq_zero_iff.1 (by simpa using hlen)⟩
  | cons s route ih =>
    obtain ⟨rfl, hrest⟩ := hchain
    have hs := hpos s (by simp)
    have hrest' : ∀ t ∈ route, t.start < t.stop := fun t ht => hpos t (List.mem_cons_of_mem _ ht)
    have hle : s.stop ≤ stop := (Span.Chain.bounds (by
      simpa [RemoteSpanInfo.span] using fun t ht => Int.le_of_lt (hrest' t ht)) hrest).1
    have hstart : s.span.lo = s.start := rfl
    rw [hstart] at hlen ⊢
    refine ⟨rfl, hs, given.take (s.stop - s.start).toNat, given.drop (s.stop - s.start).toNat,
      (List.take_append_drop ..).symm, ?_, ?_, ih ?_ hrest hrest'⟩
    · rw [List.length_take]
      simp only [ServerSession.create]
      omega
    · exact .inr ⟨⟨rfl, rfl, rfl, rfl⟩, rfl⟩
    · rw [List.length_drop]
      simp only [ServerSession.create]
      omega

omit [Add H] in
theorem clipLast_self {route : List (RemoteSpanInfo Peer)} {start stop : Int} (h : RouteFrom start stop route)
    (hne : route ≠ []) : clipLast route stop = .some route := by
  obtain ⟨last, hlast⟩ := Option.ne_none_iff_exists'.1 (mt List.getLast?_eq_none_iff.1 hne)
  obtain ⟨init, rfl⟩ := List.getLast?_eq_some_iff.1 hlast
  have hchain := h.1
  rw [List.map_append, Span.chain_append] at hchain
  obtain ⟨m, -, -, hstop⟩ := hchain
  have hstop : last.stop = stop := hstop
  simp [clipLast, hstop]
  cases last
  simp_all

/-! ## One attempt -/

section attempts

variable {maxLength position : Nat}

/-- What the routes of an attempt are, if it has any. -/
def Attempt.Routes (w : Swarm Peer H K) (a : Attempt Peer) : Prop :=
  ∀ start stop route, 0 ≤ start → start < stop → stop ≤ w.numBlocks → a.makeSequence start stop = .some route →
    RouteFrom start stop route

/-- The network is up: there are routes, and servers connect and reply. -/
structure Attempt.Works (w : Swarm Peer H K) (a : Attempt Peer) : Prop where
  routes : ∀ start stop, 0 ≤ start → start < stop → stop ≤ w.numBlocks → a.makeSequence start stop ≠ .none
  connects : a.connects = true
  replies : a.replies = true

omit [Add H] in
/-- The routes of least delay through a table are good ones. -/
theorem Attempt.routes_of_latency [DecidableEq Peer] {t : SortedSpans Peer} (ht : t.Consistent w.blocks.length)
    {rtts : Peer → Option Rtt} {cacheTokensNeeded : Option Nat}
    {findPath : Graph (Node Peer) ℚ≥0 → Option (List (Node Peer))}
    (hfind : ∀ start stop g, buildInferenceGraph t rtts cacheTokensNeeded start stop = .ok g →
      g.FindsShortest .start .stop (findPath g)) {a : Attempt Peer}
    (ha : ∀ start stop, a.makeSequence start stop =
      (makeSequenceWithMinLatency t rtts cacheTokensNeeded start stop findPath).toOption) : a.Routes w := by
  intro start stop route h0 hlt hN hroute
  rw [ha] at hroute
  by_cases hheld : ∀ b, start ≤ b → b < stop → t.Holds b
  · by_cases hr : RatesPositive t start stop
    · obtain ⟨u, route', d, hok, hpriced, -⟩ := makeSequenceWithMinLatency_ok ht h0 hlt hN hheld hr (hfind start stop)
      rw [hok] at hroute
      obtain rfl : route' = route := Option.some.inj hroute
      exact ⟨hpriced.toRoute.chain, fun s hs => (hpriced.toRoute.served hs).2.1⟩
    · rw [makeSequenceWithMinLatency_zero ht h0 hlt hN hheld hr] at hroute
      cases hroute
  · obtain ⟨missing, hmissing, -⟩ : ∃ missing, makeSequenceWithMinLatency t rtts cacheTokensNeeded start stop findPath =
        .error (.missingBlocks missing) ∧ _ := makeSequenceWithMinLatency_missing ht h0 hlt hN hheld findPath
    rw [hmissing] at hroute
    cases hroute

omit [Add H] in
theorem modify_append {α : Type} (f : α → α) (xs ys : List α) :
    (xs ++ ys).modify xs.length f = xs ++ ys.modify 0 f := by
  induction xs with
  | nil => rfl
  | cons x xs ih => simp [ih]

variable (w maxLength) in
omit [Add H] in
/-- Where the chain is mended: the failed session is closed, or new ones stand
in its place, the first of them with its history. -/
theorem updateSequence_spec {a : Attempt Peer} (ha : a.Routes w) (done todo : List (ServerSession Peer ι H K))
    {blockIdx updateEnd : Int} (hend : todo.head?.elim w.numBlocks (·.span.stop) = updateEnd) (h0 : 0 ≤ blockIdx)
    (hlt : blockIdx < updateEnd) (hN : updateEnd ≤ w.numBlocks) :
    ¬ a.Works w ∧ updateSequence w maxLength (done ++ todo) done.length blockIdx a =
        (done ++ todo.modify 0 fun s => { s with closed := true }, false) ∨
      ∃ s route, RouteFrom blockIdx updateEnd (s :: route) ∧ a.connects = true ∧
        updateSequence w maxLength (done ++ todo) done.length blockIdx a =
          (done ++ ({ ServerSession.create w maxLength s with history := todo.head?.bind (·.history) } ::
            route.map (ServerSession.create w maxLength)) ++ todo.tail, true) := by
  have hhead : (done ++ todo.modify 0 fun s => { s with closed := true })[done.length]? =
      todo.head?.map fun s => { s with closed := true } := by
    rw [List.getElem?_append_right le_rfl, Nat.sub_self]
    cases todo <;> rfl
  have hupdate : (todo.head?.map fun s : ServerSession Peer ι H K => { s with closed := true }).elim w.numBlocks
      (·.span.stop) = updateEnd := by
    rw [← hend]
    cases todo <;> rfl
  have hhistory : ((todo.head?.map fun s : ServerSession Peer ι H K => { s with closed := true }).bind (·.history)) =
      todo.head?.bind (·.history) := by
    cases todo <;> rfl
  have hdrop : (done ++ todo.modify 0 fun s => { s with closed := true }).drop (done.length + 1) = todo.tail := by
    rw [List.drop_append, List.drop_of_length_le (by omega)]
    cases todo <;> simp
  simp only [updateSequence, modify_append, hhead, hupdate, hhistory, hdrop, List.take_left]
  cases hroute : a.makeSequence blockIdx updateEnd with
  | none => exact .inl ⟨fun h => h.routes _ _ h0 hlt hN hroute, rfl⟩
  | some route =>
    have hfrom := ha _ _ _ h0 hlt hN hroute
    cases route with
    | nil =>
      obtain rfl : blockIdx = updateEnd := hfrom.1
      omega
    | cons s route =>
      rw [Option.bind_some, clipLast_self hfrom (by simp)]
      cases hconnects : a.connects with
      | false => exact .inl ⟨fun h => Bool.false_ne_true (hconnects.symm.trans h.connects), rfl⟩
      | true => exact .inr ⟨s, route, hfrom, rfl, by simp⟩

/-- The session asked next, those behind it, and what their blocks were
given. -/
structure Next (w : Swarm Peer H K) (maxLength position : Nat) (inputs : List (ι → H)) (blockIdx : Int)
    (s : ServerSession Peer ι H K) (sessions : List (ServerSession Peer ι H K)) (first rest : List (List (ι → H))) :
    Prop where
  start : s.span.start = blockIdx
  lt : blockIdx < s.span.stop
  length : first.length = (s.span.stop - blockIdx).toNat
  recent : s.Recent position inputs
  idle : Tiled (ServerSession.Idle w maxLength position) s.span.stop sessions rest w.numBlocks

/-- What lies ahead in a step: no chain was made yet, or the session asked
next, which nobody asked before if it is the first attempt, or nothing. -/
inductive Ahead (w : Swarm Peer H K) (maxLength position : Nat) (inputs : List (ι → H)) (attemptNo : Nat) :
    Int → List (ServerSession Peer ι H K) → List (List (ι → H)) → Prop
  | unmade {given : List (List (ι → H))} (hlen : given.length = w.numBlocks.toNat) :
      Ahead w maxLength position inputs attemptNo 0 [] given
  | next {blockIdx : Int} {s : ServerSession Peer ι H K} {sessions : List (ServerSession Peer ι H K)}
      {first rest : List (List (ι → H))} (h : Next w maxLength position inputs blockIdx s sessions first rest)
      (hidle : attemptNo = 0 → s.Idle w maxLength position first) :
      Ahead w maxLength position inputs attemptNo blockIdx (s :: sessions) (first ++ rest)
  | ended : Ahead w maxLength position inputs attemptNo w.numBlocks [] []

omit [Add H] in
/-- Past the last block nothing lies ahead. -/
theorem Ahead.ended_of_le {inputs : List (ι → H)} {attemptNo : Nat} {blockIdx : Int}
    {todo : List (ServerSession Peer ι H K)} {given : List (List (ι → H))}
    (h : Ahead w maxLength position inputs attemptNo blockIdx todo given) (hend : w.numBlocks ≤ blockIdx) :
    blockIdx = w.numBlocks ∧ todo = [] ∧ given = [] := by
  cases h with
  | unmade hlen =>
    have : 0 ≤ w.numBlocks := Int.natCast_nonneg _
    exact ⟨by omega, rfl, List.length_eq_zero_iff.1 (by omega)⟩
  | next hnext hidle =>
    have := hnext.lt
    have := hnext.idle.le
    omega
  | ended => exact ⟨rfl, rfl, rfl⟩

omit [Add H] in
/-- Once a session has answered, the next one is asked for the first time. -/
theorem Tiled.ahead {blockIdx : Int} {sessions : List (ServerSession Peer ι H K)} {given : List (List (ι → H))}
    (h : Tiled (ServerSession.Idle w maxLength position) blockIdx sessions given w.numBlocks) (inputs : List (ι → H)) :
    Ahead w maxLength position inputs 0 blockIdx sessions given := by
  cases sessions with
  | nil =>
    obtain ⟨rfl, rfl⟩ := h
    exact .ended
  | cons s sessions =>
    obtain ⟨hs, hlt, first, rest, rfl, hlen, hidle, hrest⟩ := h
    exact .next ⟨hs, hlt, hlen, hidle.recent, hrest⟩ fun _ => hidle

omit [Add H] in
/-- New sessions are the next ones, before those that were idle. -/
theorem RouteFrom.next {blockIdx updateEnd : Int} {span : RemoteSpanInfo Peer} {route : List (RemoteSpanInfo Peer)}
    (h : RouteFrom blockIdx updateEnd (span :: route)) {given rest : List (List (ι → H))}
    (hlen : given.length = (updateEnd - blockIdx).toNat) {sessions : List (ServerSession Peer ι H K)}
    (hrest : Tiled (ServerSession.Idle w maxLength position) updateEnd sessions rest w.numBlocks)
    {history : Option (List (ι → H))} {inputs : List (ι → H)}
    (hrecent : position = 0 → ∀ xs, history = .some xs → xs = [] ∨ xs = inputs) :
    ∃ first others, given = first ++ others ∧ Next w maxLength position inputs blockIdx
        { ServerSession.create w maxLength span with history }
        (route.map (ServerSession.create w maxLength) ++ sessions) first (others ++ rest) := by
  obtain ⟨hs, hlt, first, others, rfl, hfirst, -, htiled⟩ := h.tiled w maxLength position hlen
  exact ⟨first, others, rfl, hs, hlt, hfirst, hrecent, htiled.append hrest⟩

omit [Add H] in
/-- **Before the session is asked**: it is new or idle, unless there was no way
to replace the failed one. -/
theorem Ahead.chain {st : Loop Peer ι H K} {done todo : List (ServerSession Peer ι H K)}
    {given : List (List (ι → H))} (h : Ahead w maxLength position st.inputs st.attemptNo st.blockIdx todo given)
    (hsessions : st.sessions = done ++ todo) (hidx : st.serverIdx = done.length)
    (hdone : st.blockIdx = 0 → done = []) (h0 : 0 ≤ st.blockIdx) (hlt : st.blockIdx < w.numBlocks) {a : Attempt Peer}
    (ha : a.Routes w) :
    (¬ a.Works w ∧ (st.chain w maxLength a).2 = false ∧ ∃ todo', (st.chain w maxLength a).1 = done ++ todo' ∧
      Ahead w maxLength position st.inputs (st.attemptNo + 1) st.blockIdx todo' given) ∨
    (st.chain w maxLength a).2 = true ∧ ∃ s sessions first rest, (st.chain w maxLength a).1 = done ++ s :: sessions ∧
      given = first ++ rest ∧ Next w maxLength position st.inputs st.blockIdx s sessions first rest ∧
      ((¬ st.sessions.isEmpty ∧ st.attemptNo = 0) ∧ s.Idle w maxLength position first ∨ s.Fresh w maxLength) := by
  have hstart : ∀ t : RemoteSpanInfo Peer, ∀ history, ServerSession.Fresh w maxLength
      ({ ServerSession.create w maxLength t with history } : ServerSession Peer ι H K) := fun t _ => ⟨rfl, rfl, rfl, rfl⟩
  rw [Loop.chain, hsessions, hidx]
  rw [hsessions] at *
  generalize st.blockIdx = blockIdx at *
  generalize st.attemptNo = attemptNo at *
  generalize st.inputs = inputs at *
  by_cases hupdate : ((done ++ todo).isEmpty || 1 ≤ attemptNo) = true
  · rw [if_pos hupdate]
    cases h with
    | unmade hlen =>
      obtain rfl := hdone rfl
      rcases updateSequence_spec w maxLength ha ([] : List (ServerSession Peer ι H K)) [] rfl le_rfl hlt le_rfl with ⟨hno, hfail⟩ | ⟨s, route, hfrom, -, hok⟩
      · rw [hfail]
        exact .inl ⟨hno, rfl, [], rfl, .unmade hlen⟩
      · rw [hok]
        obtain ⟨first, others, rfl, hnext⟩ := hfrom.next (by simpa using hlen)
          (show Tiled (ServerSession.Idle w maxLength position) w.numBlocks [] [] w.numBlocks from ⟨rfl, rfl⟩)
          (show position = 0 → ∀ xs, Option.none = .some xs → xs = [] ∨ xs = inputs from fun _ _ => nofun)
        refine .inr ⟨rfl, _, _, first, others, ?_, rfl, by simpa using hnext, .inr (hstart s _)⟩
        simp
    | next hnext hidle =>
      rename_i s sessions first rest
      rcases updateSequence_spec w maxLength ha done (s :: sessions) rfl h0 hnext.lt hnext.idle.le with ⟨hno, hfail⟩ | ⟨t, route, hfrom, -, hok⟩
      · rw [hfail]
        refine .inl ⟨hno, rfl, _, rfl, .next ⟨hnext.start, hnext.lt, hnext.length, hnext.recent, hnext.idle⟩ nofun⟩
      · rw [hok]
        obtain ⟨first', others, rfl, hnext'⟩ := hfrom.next hnext.length hnext.idle hnext.recent
        refine .inr ⟨rfl, _, _, first', others ++ rest, ?_, by simp, hnext', .inr (hstart t _)⟩
        simp
    | ended => exact absurd hlt (lt_irrefl _)
  · rw [if_neg hupdate]
    simp only [Bool.or_eq_true, decide_eq_true_eq, not_or, Nat.not_le, Nat.lt_one_iff] at hupdate
    cases h with
    | unmade hlen =>
      obtain rfl := hdone rfl
      exact absurd rfl hupdate.1
    | next hnext hidle => exact .inr ⟨rfl, _, _, _, _, rfl, rfl, hnext, .inl ⟨hupdate, hidle hupdate.2⟩⟩
    | ended => exact absurd hlt (lt_irrefl _)

/-- **In the middle of a step**: the servers behind have computed what their
blocks give, and are live at the position the step leads to. -/
def Loop.Inv (w : Swarm Peer H K) (maxLength position : Nat) (args : StepArgs ι H) (given : List (List (ι → H)))
    (xs : List (ι → H)) (st : Loop Peer ι H K) : Prop :=
  ∃ done todo behind ahead after, st.sessions = done ++ todo ∧ st.serverIdx = done.length ∧ given = behind ++ ahead ∧
    behind.length = st.blockIdx.toNat ∧
    Tiled (ServerSession.Live w maxLength (position + xs.length)) 0 done after st.blockIdx ∧
    w.plainBlocks args 0 st.blockIdx behind xs = (after, st.inputs) ∧ st.inputs.length = xs.length ∧
    Ahead w maxLength position st.inputs st.attemptNo st.blockIdx todo ahead

omit [Add H] in
theorem Tiled.single {P : ServerSession Peer ι H K → List (List (ι → H)) → Prop} {s : ServerSession Peer ι H K}
    {given : List (List (ι → H))} (hlt : s.span.start < s.span.stop)
    (hlen : given.length = (s.span.stop - s.span.start).toNat) (h : P s given) :
    Tiled P s.span.start [s] given s.span.stop := ⟨rfl, hlt, given, [], by simp, hlen, h, rfl, rfl⟩

/-! The ways an attempt goes. -/

section ways

variable {st : Loop Peer ι H K} {args : StepArgs ι H} {a : Attempt Peer}
  {done sessions : List (ServerSession Peer ι H K)} {s s' : ServerSession Peer ι H K}

theorem Loop.attempt_lost (h : (st.chain w maxLength a).2 = false) :
    st.attempt w maxLength position args a = (st.failed (st.chain w maxLength a).1 .none, false) := by
  rw [Loop.attempt]
  simp [h]

variable (hok : (st.chain w maxLength a).2 = true) (hchain : (st.chain w maxLength a).1 = done ++ s :: sessions)
  (hidx : st.serverIdx = done.length)

include hok hchain hidx

theorem Loop.attempt_elsewhere (hpos : s.position ≠ position) : st.attempt w maxLength position args a =
    (st.failed (done ++ s :: sessions) (.some s.span.peerId), false) := by
  rw [Loop.attempt]
  simp [hok, hchain, hidx, hpos]

theorem Loop.attempt_silent (hpos : s.position = position)
    (hstep : s.step w maxLength args a.replies st.inputs = (s', .none)) : st.attempt w maxLength position args a =
      (st.failed (done ++ s' :: sessions) (.some s.span.peerId), false) := by
  rw [Loop.attempt]
  simp [hok, hchain, hidx, hpos, hstep]

theorem Loop.attempt_answered (hpos : s.position = position) {outputs : List (ι → H)}
    (hstep : s.step w maxLength args a.replies st.inputs = (s', .some outputs)) :
    st.attempt w maxLength position args a = ({ st with
      sessions := done ++ s' :: sessions, inputs := outputs, serverIdx := st.serverIdx + 1, blockIdx := s.span.stop
      attemptNo := 0 }, true) := by
  rw [Loop.attempt]
  simp [hok, hchain, hidx, hpos, hstep]

end ways

/-- **One attempt.** Whatever it does it keeps the invariant. In a step from
position zero it comes through if the network is up, and in a later step it
never does once a session was replaced. -/
theorem Loop.Inv.attempt {args : StepArgs ι H} {given : List (List (ι → H))} {xs : List (ι → H)}
    {st : Loop Peer ι H K} (h : st.Inv w maxLength position args given xs) (hzero : position = 0 → ∀ ks ∈ given, ks = [])
    (hc : args.Checked w xs.length) (hfit : position + xs.length ≤ maxLength) (hlt : st.blockIdx < w.numBlocks)
    {a : Attempt Peer} (ha : a.Routes w) :
    (st.attempt w maxLength position args a).1.Inv w maxLength position args given xs ∧
      ((st.attempt w maxLength position args a).2 = true ∧
          (st.attempt w maxLength position args a).1.attemptNo = 0 ∧
          (st.attempt w maxLength position args a).1.failures = st.failures ∧
          st.blockIdx < (st.attempt w maxLength position args a).1.blockIdx ∧
          (position = 0 ∨ st.attemptNo = 0) ∨
        (st.attempt w maxLength position args a).2 = false ∧
          (st.attempt w maxLength position args a).1.attemptNo = st.attemptNo + 1 ∧
          (st.attempt w maxLength position args a).1.blockIdx = st.blockIdx ∧
          (position ≠ 0 ∨ ¬ a.Works w)) := by
  obtain ⟨done, todo, behind, ahead, after, hsessions, hidx, rfl, hbehind, hdone, hplain, hlen, hahead⟩ := h
  have h0 := hdone.le
  have hnone : st.blockIdx = 0 → done = [] := fun hb => by
    rw [hb] at hdone
    exact hdone.eq_nil
  have hchain := hahead.chain hsessions hidx hnone h0 hlt ha
  rcases hchain with ⟨hno, hlost, todo', htodo, hahead'⟩ | ⟨hok, s, sessions, first, rest, hs, rfl, hnext, hasked⟩
  · rw [Loop.attempt_lost hlost]
    refine ⟨⟨done, todo', behind, ahead, after, htodo, hidx, rfl, hbehind, hdone, hplain, hlen, hahead'⟩,
      .inr ⟨rfl, rfl, rfl, .inr hno⟩⟩
  · have hready : s.Live w maxLength position first ∨ s.Fresh w maxLength := by
      rcases hasked with ⟨-, hlive | hfresh⟩ | hfresh
      · exact .inl hlive
      · exact .inr hfresh.1
      · exact .inr hfresh
    have hfirst : position = 0 → ∀ ks ∈ first, ks = [] := fun hp ks hks => hzero hp ks (by simp [hks])
    have hstart := hnext.start
    have hstop := hnext.idle.le
    have hspanlt : s.span.start < s.span.stop := hstart ▸ hnext.lt
    have hfirstlen : first.length = (s.span.stop - s.span.start).toNat := hstart ▸ hnext.length
    -- where the attempt fails, the session is still the next one
    have hfailed : ∀ s' : ServerSession Peer ι H K, s'.span = s.span → s'.Recent position st.inputs → ∀ peer,
        (st.failed (done ++ s' :: sessions) peer).Inv w maxLength position args (behind ++ (first ++ rest)) xs :=
      fun s' hspan hrecent peer => ⟨done, s' :: sessions, behind, first ++ rest, after, rfl, hidx, rfl, hbehind, hdone,
        hplain, hlen, .next ⟨hspan ▸ hnext.start, hspan ▸ hnext.lt, hspan ▸ hnext.length, hrecent, hspan ▸ hnext.idle⟩
          nofun⟩
    by_cases hpos : s.position = position
    · obtain ⟨s', hspan, hanswered, hsilent⟩ := s.step_spec hready hnext.recent hpos (hstart ▸ h0) hstop
        hfirstlen hfirst (show args.Checked w st.inputs.length by rw [hlen]; exact hc) (by rw [hlen]; exact hfit)
        a.replies
      cases hreplies : a.replies with
      | false =>
        obtain ⟨hstep, hrecent⟩ := hsilent hreplies
        rw [Loop.attempt_silent hok hs hidx hpos hstep]
        exact ⟨hfailed s' hspan hrecent _, .inr ⟨rfl, rfl, rfl,
          .inr fun hworks => Bool.false_ne_true (hreplies.symm.trans hworks.replies)⟩⟩
      | true =>
        obtain ⟨piece, out, hstep, hpiece, hout, hlive⟩ := hanswered hreplies
        rw [Loop.attempt_answered hok hs hidx hpos hstep]
        have hpiecelen : piece.length = (s'.span.stop - s'.span.start).toNat := by
          have := Swarm.length_plainBlocks hc (hstart ▸ h0) hstop hfirstlen st.inputs
          rw [hpiece] at this
          rw [hspan, ← hfirstlen]
          exact this
        have hsingle : Tiled (ServerSession.Live w maxLength (position + st.inputs.length)) s'.span.start [s'] piece
            s'.span.stop := Tiled.single (hspan ▸ hspanlt) hpiecelen hlive
        rw [hspan, hstart, hlen] at hsingle
        rw [hstart] at hpiece
        refine ⟨⟨done ++ [s'], sessions, behind ++ first, rest, after ++ piece, by simp, by simp [hidx], by simp, ?_,
          hdone.append hsingle, ?_, hout.trans hlen, hnext.idle.ahead out⟩, .inl ⟨rfl, rfl, rfl, hnext.lt, ?_⟩⟩
        · rw [List.length_append, hbehind, hnext.length]
          have := hnext.lt
          simp only
          omega
        · exact Swarm.plainBlocks_append hc le_rfl h0 (le_of_lt hnext.lt) hstop (by simpa using hbehind) hplain hlen hpiece
        · rcases hasked with hidle | hfresh
          · exact .inr hidle.1.2
          · exact .inl (hpos.symm.trans hfresh.reach)
    · rw [Loop.attempt_elsewhere hok hs hidx hpos]
      refine ⟨hfailed s rfl hnext.recent _, .inr ⟨rfl, rfl, rfl, .inl fun hp => hpos ?_⟩⟩
      rcases hready with hlive | hfresh
      · exact hlive.reach
      · exact hfresh.reach.trans hp.symm

/-! ## One step -/

section steps

variable {args : StepArgs ι H} {given : List (List (ι → H))} {xs : List (ι → H)} {st st' : Loop Peer ι H K}

/-- Past position zero, no attempt comes through after one that failed. -/
theorem Loop.Inv.stuck (h : st.Inv w maxLength position args given xs) (hpos : position ≠ 0)
    (hc : args.Checked w xs.length) (hfit : position + xs.length ≤ maxLength) (hlt : st.blockIdx < w.numBlocks)
    (hfailed : st.attemptNo ≠ 0) {attempts : List (Attempt Peer)} (ha : ∀ a ∈ attempts, a.Routes w) :
    st.run w maxLength position args attempts ≠ .returned st' := by
  induction attempts generalizing st with
  | nil => simp [Loop.run, hlt]
  | cons a attempts ih =>
    rw [List.forall_mem_cons] at ha
    obtain ⟨hinv, ⟨-, -, -, -, hzero⟩ | ⟨hno, hnext, hblock, -⟩⟩ :=
      h.attempt (fun hp => absurd hp hpos) hc hfit hlt ha.1
    · exact absurd hzero (not_or_intro hpos hfailed)
    · simp only [Loop.run, if_pos hlt]
      split
      · exact nofun
      · exact ih hinv (by rw [hblock]; exact hlt) (by rw [hnext]; exact Nat.succ_ne_zero _) ha.2

/-- **A step that returns** keeps the invariant, and has come to the last
block. Past position zero nothing has failed in it. -/
theorem Loop.Inv.run (h : st.Inv w maxLength position args given xs) (hzero : position = 0 → ∀ ks ∈ given, ks = [])
    (hc : args.Checked w xs.length) (hfit : position + xs.length ≤ maxLength) {attempts : List (Attempt Peer)}
    (ha : ∀ a ∈ attempts, a.Routes w) (hrun : st.run w maxLength position args attempts = .returned st') :
    st'.Inv w maxLength position args given xs ∧ w.numBlocks ≤ st'.blockIdx ∧
      (position ≠ 0 → st'.failures = st.failures) := by
  induction attempts generalizing st with
  | nil =>
    simp only [Loop.run] at hrun
    split at hrun
    · cases hrun
    · obtain rfl := LoopEnd.returned.inj hrun
      exact ⟨h, by omega, fun _ => rfl⟩
  | cons a attempts ih =>
    rw [List.forall_mem_cons] at ha
    simp only [Loop.run] at hrun
    split at hrun
    · rename_i hlt
      split at hrun
      · cases hrun
      · obtain ⟨hinv, ⟨-, -, hsame, -, -⟩ | ⟨hno, hnext, hblock, -⟩⟩ := h.attempt hzero hc hfit hlt ha.1
        · obtain ⟨hinv', hend, hfailures⟩ := ih hinv ha.2 hrun
          exact ⟨hinv', hend, fun hp => (hfailures hp).trans hsame⟩
        · obtain ⟨hinv', hend, -⟩ := ih hinv ha.2 hrun
          refine ⟨hinv', hend, fun hp => ?_⟩
          exact absurd hrun (hinv.stuck hp hc hfit (by rw [hblock]; exact hlt) (by rw [hnext]; exact Nat.succ_ne_zero _)
            ha.2)
    · obtain rfl := LoopEnd.returned.inj hrun
      exact ⟨h, by omega, fun _ => rfl⟩

/-- From position zero, and the network up, an attempt for each block left is
enough. -/
theorem Loop.Inv.finish (h : st.Inv w maxLength 0 args given xs) (hzero : ∀ ks ∈ given, ks = [])
    (hc : args.Checked w xs.length) (hfit : xs.length ≤ maxLength) {attempts : List (Attempt Peer)}
    (ha : ∀ a ∈ attempts, a.Routes w ∧ a.Works w) (hlen : w.numBlocks - st.blockIdx ≤ attempts.length) :
    ∃ st', st.run w maxLength 0 args attempts = .returned st' := by
  induction attempts generalizing st with
  | nil =>
    rw [List.length_nil] at hlen
    exact ⟨st, by rw [Loop.run, if_neg (by omega)]⟩
  | cons a attempts ih =>
    rw [List.forall_mem_cons] at ha
    by_cases hlt : st.blockIdx < w.numBlocks
    · obtain ⟨hinv, ⟨hyes, -, -, hmore, -⟩ | ⟨-, -, -, hdown⟩⟩ :=
        h.attempt (fun _ => hzero) hc (by omega) hlt ha.1.1
      · obtain ⟨st', hst'⟩ := ih hinv ha.2 (by
          rw [List.length_cons] at hlen
          omega)
        exact ⟨st', by simpa [Loop.run, hlt, hyes] using hst'⟩
      · exact absurd hdown (not_or_intro (not_not_intro rfl) (not_not_intro ha.1.2))
    · exact ⟨st, by rw [Loop.run, if_neg hlt]⟩

/-- From position zero, whatever attempts fail first, if fewer than the retries
allowed. -/
theorem Loop.Inv.recover (h : st.Inv w maxLength 0 args given xs) (hzero : ∀ ks ∈ given, ks = [])
    (hc : args.Checked w xs.length) (hfit : xs.length ≤ maxLength) (h0 : 0 ≤ st.blockIdx)
    {down up : List (Attempt Peer)} (hdown : ∀ a ∈ down, a.Routes w) (hup : ∀ a ∈ up, a.Routes w ∧ a.Works w)
    (hlen : w.blocks.length ≤ up.length) (hretries : ∀ r, w.maxRetries = .some r → st.attemptNo + down.length < r) :
    ∃ st', st.run w maxLength 0 args (down ++ up) = .returned st' := by
  induction down generalizing st with
  | nil =>
    refine h.finish hzero hc hfit hup ?_
    simp only [Swarm.numBlocks, List.nil_append]
    omega
  | cons a down ih =>
    rw [List.forall_mem_cons] at hdown
    by_cases hlt : st.blockIdx < w.numBlocks
    · rw [List.cons_append, Loop.run, if_pos hlt]
      obtain ⟨hinv, ⟨hyes, hno, -, hmore, -⟩ | ⟨-, hno, hblock, -⟩⟩ :=
        h.attempt (fun _ => hzero) hc (by omega) hlt hdown.1
      · rw [if_neg (by simp [hyes])]
        refine ih hinv (by omega) hdown.2 fun r hr => ?_
        have := hretries r hr
        rw [List.length_cons] at this
        omega
      · have hless : w.maxRetries ≠ .some (st.attemptNo + 1) := fun hr => by
          have := hretries _ hr
          rw [List.length_cons] at this
          omega
        rw [if_neg (by simp [hless])]
        refine ih hinv (by omega) hdown.2 fun r hr => ?_
        have := hretries r hr
        rw [List.length_cons] at this
        omega
    · exact ⟨st, by rw [List.cons_append, Loop.run, if_neg hlt]⟩

end steps

end attempts

/-! ## Whole sessions -/

namespace InferenceSession

/-- Its routes are good, for a step. -/
def Op.Routes (w : Swarm Peer H K) : Op Peer ι H → Prop
  | .step _ _ attempts => ∀ a ∈ attempts, a.Routes w
  | .setPosition _ => True

/-- It has no prompts, for a step. -/
def Op.NoPrompts : Op Peer ι H → Prop
  | .step args _ _ => args.prompts = .none
  | .setPosition _ => True

/-- The outputs of the steps, where each is computed anew from what the blocks
were given at the positions kept. -/
def plain (w : Swarm Peer H K) (given : List (List (ι → H))) : List (Op Peer ι H) → List (List (ι → H))
  | [] => []
  | .step args xs _ :: ops =>
    let after := w.plainBlocks args 0 w.numBlocks given xs
    after.2 :: plain w after.1 ops
  | .setPosition p :: ops => plain w (given.map (·.take p)) ops

/-- The same without prompts: the columns kept, and at each step the last
outputs of the model for them. -/
def whole (w : Swarm Peer H K) (columns : List (ι → H)) : List (Op Peer ι H) → List (List (ι → H))
  | [] => []
  | .step args xs _ :: ops =>
    if xs = [] then [] :: whole w columns ops
    else
      let columns := (args.hypoIds.elim columns fun σ => columns.map (pick σ)) ++ xs
      ((CausalBlock.fullStack (w.blocks.map .rows) columns).drop (columns.length - xs.length)) :: whole w columns ops
  | .setPosition p :: ops => whole w (columns.take p) ops

/-- **Between steps**: there is no chain yet, or it tiles the blocks and every
server of it holds what its blocks were given. -/
def Holds (w : Swarm Peer H K) (session : InferenceSession Peer ι H K) (given : List (List (ι → H))) : Prop :=
  session.sessions = [] ∧ given = w.blocks.map (fun _ => []) ∨
    Tiled (ServerSession.Live w session.maxLength session.position) 0 session.sessions given w.numBlocks

variable {session session' : InferenceSession Peer ι H K} {given : List (List (ι → H))} {xs out : List (ι → H)}

omit [Add H] in
theorem Holds.zero (h : session.Holds w given) (hp : session.position = 0) : ∀ ks ∈ given, ks = [] := by
  rcases h with ⟨-, rfl⟩ | htiled
  · simp
  · refine htiled.forall_given fun s first hlive ks hks => ?_
    obtain ⟨all, rfl, -, -⟩ := hlive.caches
    obtain ⟨ks', -, rfl⟩ := List.mem_map.1 hks
    simp [hp]

omit [Add H] in
theorem Holds.length (h : session.Holds w given) : given.length = w.blocks.length := by
  rcases h with ⟨-, rfl⟩ | htiled
  · simp
  · simpa [Swarm.numBlocks] using htiled.length

/-- The beginning of a step. -/
theorem Holds.start (h : session.Holds w given) (args : StepArgs ι H) (xs : List (ι → H)) :
    (session.start xs).Inv w session.maxLength session.position args given xs := by
  refine ⟨[], session.sessions, [], given, [], rfl, rfl, rfl, rfl, ⟨rfl, rfl⟩, ?_, rfl, ?_⟩
  · simp only [InferenceSession.start, Swarm.plainBlocks, slice_self]
    split
    · rename_i hx
      rw [hx]
    · rfl
  · rcases h with ⟨hnone, rfl⟩ | htiled
    · rw [hnone]
      exact .unmade (by simp [Swarm.numBlocks])
    · exact (htiled.imp fun _ _ => .inl).ahead xs

omit [Add H] in
theorem checksPrompts_checked {args : StepArgs ι H} (h : checksPrompts w args xs = true) :
    args.Checked w xs.length := by
  intro prompts hp
  simp only [checksPrompts, hp, Option.all_some, Bool.and_eq_true, decide_eq_true_eq, List.all_eq_true] at h
  exact h

/-- **A step that returns** gives what the blocks give in one piece. -/
theorem Holds.step (h : session.Holds w given) {args : StepArgs ι H} {attempts : List (Attempt Peer)}
    (ha : ∀ a ∈ attempts, a.Routes w) (hstep : session.step w args xs attempts = .some (session', out)) :
    ∃ after, w.plainBlocks args 0 w.numBlocks given xs = (after, out) ∧ session'.Holds w after ∧
      session'.position = session.position + xs.length ∧ session'.maxLength = session.maxLength := by
  unfold InferenceSession.step at hstep
  split at hstep
  · rename_i hchecks
    simp only [Bool.and_eq_true, decide_eq_true_eq] at hchecks
    obtain ⟨hc, hfit⟩ := hchecks
    have hc := checksPrompts_checked hc
    split at hstep
    · rename_i st hrun
      obtain ⟨hinv, hend, -⟩ := (h.start args xs).run h.zero hc hfit ha hrun
      obtain ⟨done, todo, behind, ahead, after, hsessions, -, hgiven, hbehind, hdone, hplain, hlen, hahead⟩ := hinv
      rw [Option.some.injEq, Prod.mk.injEq] at hstep
      obtain ⟨rfl, rfl⟩ := hstep
      have hout : (if xs = [] then st.inputs else st.inputs.drop (st.inputs.length - xs.length)) = st.inputs := by
        rw [hlen, Nat.sub_self, List.drop_zero, ite_self]
      rw [hout]
      obtain ⟨hblock, rfl, rfl⟩ := hahead.ended_of_le hend
      rw [List.append_nil] at hsessions hgiven
      rw [hblock] at hplain hdone
      exact ⟨after, by rw [hgiven, hplain], .inr (by simpa [hsessions] using hdone), rfl, rfl⟩
    · cases hstep
  · cases hstep

omit [Add H] in
/-- Cutting back a chain: each server is still live, at the position asked. -/
theorem Tiled.setPosition {maxLength position p : Nat} {start stop : Int}
    {sessions sessions' : List (ServerSession Peer ι H K)} {given : List (List (ι → H))}
    (h : Tiled (ServerSession.Live w maxLength position) start sessions given stop)
    (hset : sessions.mapM (fun s => s.setPosition p) = .some sessions') :
    Tiled (ServerSession.Live w maxLength p) start sessions' (given.map (·.take p)) stop := by
  induction sessions generalizing start given sessions' with
  | nil =>
    obtain ⟨rfl, rfl⟩ := h
    obtain rfl : sessions' = [] := by simpa using hset.symm
    exact ⟨rfl, rfl⟩
  | cons s sessions ih =>
    obtain ⟨hs, hlt, first, rest, rfl, hlen, hlive, hrest⟩ := h
    simp only [List.mapM_cons, Option.bind_eq_bind, Option.bind_eq_some_iff, Option.pure_def, Option.some.injEq] at hset
    obtain ⟨s', hs', sessions', hsessions', rfl⟩ := hset
    unfold ServerSession.setPosition at hs'
    split at hs'
    · rename_i hle
      obtain rfl := Option.some.inj hs'
      rw [hlive.reach] at hle
      refine ⟨hs, hlt, first.map (·.take p), rest.map (·.take p), by simp, by simpa using hlen,
        ⟨hlive.opened, hlive.begun, rfl, ?_, ?_⟩, ih hrest hsessions'⟩
      · have hhistory := hlive.history
        cases hh : s.history with
        | none =>
          rw [hh, Option.getD_none, List.length_nil] at hhistory
          simp only [Option.bind_none, Option.getD_none, List.length_nil]
          omega
        | some history =>
          rw [hh, Option.getD_some] at hhistory
          simp only [Option.bind_some, hhistory, if_pos hle]
          split
          · simp [hhistory, hle]
          · simp only [Option.getD_none, List.length_nil]
            omega
      · obtain ⟨all, rfl, hreach, hcaches⟩ := hlive.caches
        refine ⟨all, ?_, hle.trans hreach, hcaches⟩
        rw [List.map_map]
        refine List.map_congr_left fun ks _ => ?_
        rw [Function.comp_apply, List.take_take, Nat.min_eq_left hle]
    · cases hs'

omit [Add H] in
theorem Holds.setPosition (h : session.Holds w given) {p : Nat} (hset : session.setPosition p = .some session') :
    session'.Holds w (given.map (·.take p)) ∧ session'.position = p ∧ session'.maxLength = session.maxLength := by
  simp only [InferenceSession.setPosition, Option.map_eq_some_iff] at hset
  obtain ⟨sessions, hsessions, rfl⟩ := hset
  refine ⟨?_, rfl, rfl⟩
  rcases h with ⟨hnone, rfl⟩ | htiled
  · rw [hnone, List.mapM_nil] at hsessions
    obtain rfl := Option.some.inj hsessions
    exact .inl ⟨rfl, by simp⟩
  · exact .inr (Tiled.setPosition htiled hsessions)

/-- Operations that return give the outputs of `plain`, and the chain they
leave holds what it should. -/
theorem Holds.run (h : session.Holds w given) {ops : List (Op Peer ι H)} (hops : ∀ op ∈ ops, op.Routes w)
    {outputs : List (List (ι → H))} (hrun : session.run w ops = .some (session', outputs)) :
    outputs = plain w given ops ∧ session'.maxLength = session.maxLength ∧ ∃ after, session'.Holds w after := by
  induction ops generalizing session given outputs with
  | nil =>
    rw [InferenceSession.run, Option.some.injEq, Prod.mk.injEq] at hrun
    obtain ⟨rfl, rfl⟩ := hrun
    exact ⟨rfl, rfl, given, h⟩
  | cons op ops ih =>
    rw [List.forall_mem_cons] at hops
    cases op with
    | step args xs attempts =>
      simp only [InferenceSession.run, Option.bind_eq_bind, Option.bind_eq_some_iff, Option.pure_def, Option.some.injEq,
        Prod.mk.injEq, Prod.exists] at hrun
      obtain ⟨next, out, hstep, last, rest, hrest, rfl, rfl⟩ := hrun
      obtain ⟨after, hplain, hholds, -, hmax⟩ := h.step hops.1 hstep
      obtain ⟨rfl, hmax', hlast⟩ := ih hholds hops.2 hrest
      exact ⟨by simp [plain, hplain], hmax'.trans hmax, hlast⟩
    | setPosition p =>
      simp only [InferenceSession.run, Option.bind_eq_bind, Option.bind_eq_some_iff] at hrun
      obtain ⟨next, hset, hrest⟩ := hrun
      obtain ⟨hholds, -, hmax⟩ := h.setPosition hset
      obtain ⟨rfl, hmax', hlast⟩ := ih hholds hops.2 hrest
      exact ⟨rfl, hmax'.trans hmax, hlast⟩

omit [Add H] in
theorem new_holds (w : Swarm Peer H K) (maxLength : Nat) :
    (new maxLength : InferenceSession Peer ι H K).Holds w (w.blocks.map fun _ => []) := .inl ⟨rfl, rfl⟩

/-- Without prompts what the blocks are given is set by the columns kept. -/
theorem plain_whole {columns : List (ι → H)} (h : CausalBlock.Stacked (w.blocks.map .rows) given columns)
    {ops : List (Op Peer ι H)} (hno : ∀ op ∈ ops, op.NoPrompts) : plain w given ops = whole w columns ops := by
  induction ops generalizing given columns with
  | nil => rfl
  | cons op ops ih =>
    rw [List.forall_mem_cons] at hno
    cases op with
    | setPosition p => exact ih (h.take p) hno.2
    | step args xs attempts =>
      have hprompts : args.prompts = .none := hno.1
      by_cases hx : xs = []
      · simp only [plain, whole, Swarm.plainBlocks, if_pos hx, ih h hno.2]
      · have hadds : args.adds w = (w.blocks.map (CausalBlock.rows (ι := ι))).map fun _ => id := by
          simp only [StepArgs.adds, hprompts, Option.map_none, Option.getD_none, List.map_map]
          rfl
        have hpicked : CausalBlock.Stacked (w.blocks.map .rows)
            (given.map fun ks => args.hypoIds.elim ks fun σ => ks.map (pick σ))
            (args.hypoIds.elim columns fun σ => columns.map (pick σ)) := by
          cases args.hypoIds with
          | none => simpa using h
          | some σ => exact h.pick σ
        obtain ⟨hkept, hout⟩ := hpicked.recompute xs
        have hall : slice 0 w.numBlocks (args.adds w) = args.adds w := by
          have := slice_all (args.adds w)
          rwa [hadds, List.length_map, List.length_map, ← hadds] at this
        rw [hadds] at hall
        have hblocks : slice 0 w.numBlocks w.blocks = w.blocks := slice_all w.blocks
        simp only [plain, whole, Swarm.plainBlocks, if_neg hx, hall, hblocks, hadds, hout, List.length_append,
          Nat.add_sub_cancel, ih hkept hno.2]

end InferenceSession

open InferenceSession in
/-- **A client's session.** Whatever steps and cuts back a user makes, on
whatever servers, failing and being replaced as they may: when all of them
return, the outputs are those of a single machine that keeps no cache and
computes everything anew; without prompts, the model's own on the columns
kept. -/
theorem session_run {maxLength : Nat} {ops : List (Op Peer ι H)} (hops : ∀ op ∈ ops, op.Routes w)
    {session : InferenceSession Peer ι H K} {outputs : List (List (ι → H))}
    (hrun : (new maxLength).run w ops = .some (session, outputs)) :
    outputs = plain w (w.blocks.map fun _ => []) ops ∧
      ((∀ op ∈ ops, op.NoPrompts) → outputs = whole w [] ops) := by
  obtain ⟨hplain, -⟩ := (new_holds w maxLength).run hops hrun
  refine ⟨hplain, fun hno => ?_⟩
  rw [hplain]
  refine plain_whole ?_ hno
  induction w.blocks with
  | nil => exact rfl
  | cons block blocks ih => exact ⟨_, rfl, ih⟩

open InferenceSession in
/-- **Which failures are made good.** A new session begins at position zero and
only there can it be asked. So past position zero a step returns only if
nothing at all failed in it, and after one failure no route and no server
helps. At position zero a step returns after any failures, fewer than the
retries allowed, once the network is up. -/
theorem failure_recovery {maxLength : Nat} {ops : List (Op Peer ι H)} (hops : ∀ op ∈ ops, op.Routes w)
    {session : InferenceSession Peer ι H K} {outputs : List (List (ι → H))}
    (hrun : (new maxLength).run w ops = .some (session, outputs)) (args : StepArgs ι H) (xs : List (ι → H)) :
    (session.position ≠ 0 → ∀ attempts, (∀ a ∈ attempts, a.Routes w) →
      ∀ result, session.step w args xs attempts = .some result →
        ∃ st, (session.start xs).run w maxLength session.position args attempts = .returned st ∧ st.failures = []) ∧
    (session.position = 0 → checksPrompts w args xs = true → xs.length ≤ maxLength →
      ∀ down up, (∀ a ∈ down, a.Routes w) → (∀ a ∈ up, a.Routes w ∧ a.Works w) → w.blocks.length ≤ up.length →
        (∀ r, w.maxRetries = .some r → down.length < r) →
        ∃ result, session.step w args xs (down ++ up) = .some result) := by
  obtain ⟨-, hmax, given, hholds⟩ := (new_holds w maxLength).run hops hrun
  have hmax : session.maxLength = maxLength := hmax
  have hstart := hholds.start args xs
  rw [hmax] at hstart
  constructor
  · intro hpos attempts ha result hstep
    simp only [InferenceSession.step, hmax] at hstep
    split at hstep
    · rename_i hchecks
      simp only [Bool.and_eq_true, decide_eq_true_eq] at hchecks
      split at hstep
      · rename_i st hst
        obtain ⟨-, -, hnone⟩ := hstart.run hholds.zero (checksPrompts_checked hchecks.1) hchecks.2 ha hst
        exact ⟨st, hst, hnone hpos⟩
      · cases hstep
    · cases hstep
  · intro hpos hchecks hfit down up hdown hup hlen hretries
    rw [hpos] at hstart
    obtain ⟨st, hst⟩ := hstart.recover (hholds.zero hpos) (checksPrompts_checked hchecks) hfit le_rfl hdown hup hlen
      fun r hr => by simpa [InferenceSession.start] using hretries r hr
    simp only [InferenceSession.step, hmax, hpos, hchecks, hst, Nat.zero_add, hfit, decide_true, Bool.and_self, if_true]
    exact ⟨_, rfl⟩

/-- Two blocks that add up what they have seen, on two servers. -/
def sumsSwarm : Swarm Nat Nat Nat where
  blocks := [sums.module, sums.module]
  config _ := ⟨0, 4, 1, 1, 128⟩
  batchSize := 1
  maxRetries := .some 3

/-- A server for each block. -/
def sumsRoute (start stop : Int) : Option (List (RemoteSpanInfo Nat)) :=
  .some ((range start stop).map fun b => ⟨b.toNat, b, b + 1, ⟨.online, .none, .none, .none, [], .none, .none⟩⟩)

theorem sumsRoute_routes (connects replies : Bool) : (⟨sumsRoute, connects, replies⟩ : Attempt Nat).Routes sumsSwarm := by
  intro start stop route _ hlt _ hroute
  obtain rfl := Option.some.inj hroute
  refine ⟨?_, by simp⟩
  induction hk : (stop - start).toNat using Nat.strong_induction_on generalizing start with
  | _ k ih =>
    rw [range_cons hlt]
    by_cases hnext : start + 1 < stop
    · exact ⟨rfl, ih (stop - (start + 1)).toNat (by omega) (start + 1) (by omega) hnext rfl rfl⟩
    · obtain rfl : stop = start + 1 := by omega
      rw [range_self]
      exact ⟨rfl, rfl⟩

theorem noRoute_routes : (⟨fun _ _ => .none, true, true⟩ : Attempt Nat).Routes sumsSwarm := by
  intro start stop route _ _ _ hroute
  cases hroute

/-- A server that does not reply in the first step, three columns in all, and
the last one again. -/
def sumsOps : List (InferenceSession.Op Nat Unit Nat) :=
  [.step ⟨.none, .none⟩ [fun _ => 1, fun _ => 2]
      [⟨sumsRoute, true, true⟩, ⟨sumsRoute, true, false⟩, ⟨sumsRoute, true, true⟩],
    .step ⟨.none, .none⟩ [fun _ => 3] [⟨sumsRoute, true, true⟩, ⟨sumsRoute, true, true⟩],
    .setPosition 2,
    .step ⟨.none, .none⟩ [fun _ => 4] [⟨sumsRoute, true, true⟩, ⟨sumsRoute, true, true⟩]]

theorem sumsOps_routes : ∀ op ∈ sumsOps, op.Routes sumsSwarm := by
  simp [sumsOps, InferenceSession.Op.Routes, sumsRoute_routes]

theorem sumsOps_returns : ((InferenceSession.new 8).run sumsSwarm sumsOps).isSome = true := by decide

/-- They all return, and give the model's outputs. -/
theorem session_run_sums : ∃ session outputs, (InferenceSession.new 8).run sumsSwarm sumsOps = .some (session, outputs) ∧
    outputs = InferenceSession.whole sumsSwarm [] sumsOps := by
  obtain ⟨⟨session, outputs⟩, hrun⟩ := Option.isSome_iff_exists.1 sumsOps_returns
  exact ⟨session, outputs, hrun, (session_run sumsOps_routes hrun).2 (by simp [sumsOps, InferenceSession.Op.NoPrompts])⟩

/-- A first step returns after two failures. -/
theorem failure_recovery_sums : ∃ result, (InferenceSession.new 8).step sumsSwarm ⟨.none, .none⟩ [fun _ : Unit => 1]
    [⟨fun _ _ => .none, true, true⟩, ⟨sumsRoute, false, true⟩, ⟨sumsRoute, true, true⟩, ⟨sumsRoute, true, true⟩] =
      .some result :=
  (failure_recovery (by simp : ∀ op ∈ ([] : List (InferenceSession.Op Nat Unit Nat)), op.Routes sumsSwarm) rfl ⟨.none, .none⟩ [fun _ : Unit => 1]).2 rfl rfl
    (by decide) [⟨fun _ _ => .none, true, true⟩, ⟨sumsRoute, false, true⟩]
    [⟨sumsRoute, true, true⟩, ⟨sumsRoute, true, true⟩]
    (by simp [sumsRoute_routes, noRoute_routes])
    (by simpa [sumsRoute_routes] using ⟨by simp [sumsRoute], rfl, rfl⟩) (by decide)
    (fun r hr => by
      obtain rfl := Option.some.inj hr
      decide)

end Petals

end Blitzwing
