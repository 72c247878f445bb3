/-
Which layers a chain applies.

A hop is `Right` when it was answered with the layers of the host it was meant
for, applied to what it was sent. If every hop of a step is, the step's hidden
state is the whole model applied to the prompt (`stepHidden_meets`), whoever
ran it; a step a hop of which raises has none. The two results that use this
differ in whether hops may fail, which is `errs`.
-/
import Blitzwing.ShardApp

namespace Blitzwing

open HttpChain

variable {H S G P : Type} (node : Node H S G P) (errs : Prop) (layers : List (H → H)) (manifest : ManifestDict)
  (hosts : List ManifestHost)

/-- The span a runner or a host has, for a hop. -/
def ChainRequest.span (req : ChainRequest P) : Span := req.host.span

/-- The hidden state a hop starts from. -/
def startOf : ChainRequest P → Except ChainError H
  | .chainPrefix _ _ inputIds => node.model.embed inputIds
  | .chainContinue _ _ payload => (node.codec.fromPayload payload).mapError .raised

/-- The hop goes where its host, one of these, is reached. -/
def Meant (req : ChainRequest P) : Prop :=
  req.host ∈ hosts ∧ ∃ url, hostHttpUrl node.env req.host manifest = .ok url ∧ req.url = PyText.rstrip url '/'

/-- The answer a hop to one of the hosts should have; with `errs`, or without a
hidden state to start from, it may also have failed. -/
def Right (req : ChainRequest P) (answer : Except ChainError P) : Prop :=
  Meant node manifest hosts req →
    ((errs ∨ ∃ e, startOf node req = .error e) ∧ ∃ e, answer = .error e) ∨
      ∃ hidden, startOf node req = .ok hidden ∧ answer = .ok (node.codec.toPayload (through layers req.span hidden))

/-- The hidden state of the whole model up to a layer, on these tokens. -/
def UpTo (tokenIds : List Nat) (n : Int) (hidden : H) : Prop :=
  ∃ embedded, node.model.embed tokenIds = .ok embedded ∧ hidden = through layers ⟨0, n⟩ embedded

/-- What a step should have computed; with `errs`, it may also have failed. -/
inductive RightUpTo (tokenIds : List Nat) (n : Int) : Except ChainError H → Prop
  | failed {e} : errs → RightUpTo tokenIds n (.error e)
  | reached {hidden} : UpTo node layers tokenIds n hidden → RightUpTo tokenIds n (.ok hidden)

variable {node errs layers manifest hosts} {runner : LocalShardRunner} {upstream : List ManifestHost}
  {tokenIds : List Nat} {host : ManifestHost} {url : String} {n : Int} {hidden : H}

/-- Nothing is noted down while hidden states are passed on. -/
abbrev Silent : TokenNote H → Prop := fun _ => False

theorem RightUpTo.of_error {e : ChainError} (h : RightUpTo node errs layers tokenIds n (.error e)) : errs := by
  cases h
  assumption

theorem RightUpTo.upTo (h : RightUpTo node errs layers tokenIds n (.ok hidden)) : UpTo node layers tokenIds n hidden := by
  cases h
  assumption

theorem mapError_eq_ok {α ε ε' : Type} {x : Except ε α} {f : ε → ε'} {a : α} : x.mapError f = .ok a ↔ x = .ok a := by
  cases x <;> simp [Except.mapError]

@[simp] theorem py_ok {α : Type} (a : α) : (py (.ok a) : Chain H P α) = .done (.ok a) := rfl

@[simp] theorem py_error {α : Type} (e : PyError) : (py (.error e) : Chain H P α) = .done (.error (.raised e)) := rfl

theorem py_of_ok {α : Type} {x : Except PyError α} {a : α} (h : x = .ok a) : (py x : Chain H P α) = .done (.ok a) := by
  rw [h]
  rfl

theorem remotePrefix_meets (hcodec : ∀ h, node.codec.fromPayload (node.codec.toPayload h) = .ok h)
    (hmem : host ∈ hosts) (hurl : hostHttpUrl node.env host manifest = .ok url)
    (hspan : host.span.lo = 0)
    (hembed : errs ∨ ∃ embedded, node.model.embed tokenIds = .ok embedded) :
    (remotePrefix node.codec host url tokenIds).Meets (Right node errs layers manifest hosts) Silent
      (RightUpTo node errs layers tokenIds host.span.hi) := by
  intro answer hanswer
  rcases hanswer ⟨hmem, url, hurl, rfl⟩ with ⟨herrs | ⟨e', hstart⟩, e, rfl⟩ | ⟨embedded, hembed, rfl⟩
  · exact .failed herrs
  · rcases hembed with herrs | ⟨embedded, hembed⟩
    · exact .failed herrs
    · simp [startOf, hembed] at hstart
  · show Remote.Meets _ _ _ (py (node.codec.fromPayload (node.codec.toPayload _)))
    rw [py_of_ok (hcodec _)]
    refine .reached ⟨embedded, hembed, ?_⟩
    rw [← hspan]
    rfl

theorem remoteContinue_meets (hcodec : ∀ h, node.codec.fromPayload (node.codec.toPayload h) = .ok h)
    (hmem : host ∈ hosts) (hurl : hostHttpUrl node.env host manifest = .ok url) (hlo : 0 ≤ host.span.lo)
    (hle : host.span.lo ≤ host.span.hi)
    (h : UpTo node layers tokenIds host.span.lo hidden) :
    (remoteContinue node.codec host url hidden).Meets (Right node errs layers manifest hosts) Silent
      (RightUpTo node errs layers tokenIds host.span.hi) := by
  intro answer hanswer
  rcases hanswer ⟨hmem, url, hurl, rfl⟩ with ⟨herrs | ⟨e', hstart⟩, e, rfl⟩ | ⟨sent, hsent, rfl⟩
  · exact .failed herrs
  · simp [startOf, hcodec, Except.mapError] at hstart
  · obtain rfl : hidden = sent := by
      simp only [startOf, hcodec] at hsent
      exact Except.ok.inj hsent
    obtain ⟨embedded, hembed, rfl⟩ := h
    show Remote.Meets _ _ _ (py (node.codec.fromPayload (node.codec.toPayload _)))
    rw [py_of_ok (hcodec _)]
    exact .reached ⟨embedded, hembed, through_through hlo hle⟩

/-- A hop to a host whose URL resolves, where that is needed. -/
theorem resolved_meets {f : String → Chain H P H}
    (hurl : errs ∨ ∃ url, hostHttpUrl node.env host manifest = .ok url)
    (h : ∀ url, hostHttpUrl node.env host manifest = .ok url → (f url).Meets (Right node errs layers manifest hosts) Silent (RightUpTo node errs layers tokenIds n)) :
    (py (hostHttpUrl node.env host manifest) >>= f).Meets (Right node errs layers manifest hosts) Silent
      (RightUpTo node errs layers tokenIds n) := by
  refine Remote.Meets.done_bind (fun url hok => h url (mapError_eq_ok.1 hok)) fun e he => ?_
  rcases hurl with herrs | ⟨url, hurl⟩
  · exact .failed herrs
  · simp [hurl, Except.mapError] at he

/-- The hosts in the middle, one after another. -/
theorem middle_meets (hcodec : ∀ h, node.codec.fromPayload (node.codec.toPayload h) = .ok h)
    {mids : List ManifestHost} (hmem : ∀ mid ∈ mids, mid ∈ hosts) {a b : Int} (hchain : Span.Chain a (mids.map (·.span)) b) (ha : 0 ≤ a)
    (hle : ∀ mid ∈ mids, mid.span.lo ≤ mid.span.hi)
    (hurl : errs ∨ ∀ mid ∈ mids, ∃ url, hostHttpUrl node.env mid manifest = .ok url)
    (h : UpTo node layers tokenIds a hidden) :
    (mids.foldlM (fun hidden mid => do
      let midUrl ← py (hostHttpUrl node.env mid manifest)
      remoteContinue node.codec mid midUrl hidden) hidden : Chain H P H).Meets (Right node errs layers manifest hosts) Silent
      (RightUpTo node errs layers tokenIds b) := by
  induction mids generalizing a hidden with
  | nil =>
    obtain rfl : a = b := hchain
    exact .reached h
  | cons mid mids ih =>
    obtain ⟨rfl, hchain⟩ := hchain
    have hmid := hle mid (by simp)
    rw [List.foldlM_cons]
    have hhop := resolved_meets (hurl.imp_right fun hurl => hurl mid (by simp))
      fun url hurl => remoteContinue_meets hcodec (hmem mid (by simp)) hurl ha hmid h
    refine hhop.bind (fun next hnext => ?_) fun e he => .failed he.of_error
    exact ih (fun m hm => hmem m (by simp [hm])) hchain (ha.trans hmid) (fun m hm => hle m (by simp [hm]))
      (hurl.imp_right fun hurl m hm => hurl m (by simp [hm])) hnext.upTo

/-- The forward pass of a runner with the layers that are left. -/
theorem runBlocks_upTo (hlo : 0 ≤ runner.blockStart) (hle : runner.blockStart ≤ runner.blockEnd)
    (hbound : errs ∨ runner.blockEnd ≤ layers.length) (h : UpTo node layers tokenIds runner.blockStart hidden) :
    RightUpTo node errs layers tokenIds runner.blockEnd (runner.runBlocks layers hidden) := by
  cases hout : runner.runBlocks layers hidden with
  | ok out =>
    obtain ⟨embedded, hembed, rfl⟩ := h
    rw [through_of_runBlocks hlo hout]
    exact .reached ⟨embedded, hembed, through_through hlo hle⟩
  | error e =>
    rcases hbound with herrs | hbound
    · exact .failed herrs
    · simp [runBlocks_eq hlo hle hbound] at hout

variable (errs manifest tokenIds) in
/-- **One step.** Where the hosts upstream and the local runner cover the model
in order and every hop is right, the hidden state is the model's. -/
theorem stepHidden_meets (hcodec : ∀ h, node.codec.fromPayload (node.codec.toPayload h) = .ok h)
    (hlayers : node.model.layers = .ok layers) (hchain : Span.Chain 0 (upstream.map (·.span)) runner.blockStart)
    (hups : ∀ up ∈ upstream, up.span.lo ≤ up.span.hi) (hle : runner.blockStart ≤ runner.blockEnd)
    (hok : errs ∨ (∀ up ∈ upstream, ∃ url, hostHttpUrl node.env up manifest = .ok url) ∧
      runner.blockEnd ≤ layers.length ∧ ∃ embedded, node.model.embed tokenIds = .ok embedded) :
    (stepHidden node runner manifest upstream tokenIds).Meets (Right node errs layers manifest upstream) Silent
      (RightUpTo node errs layers tokenIds runner.blockEnd) := by
  have hbound := hok.imp_right fun h => h.2.1
  cases upstream with
  | nil =>
    have hstart : 0 = runner.blockStart := hchain
    show RightUpTo _ _ _ _ _ (runner.forwardPrefix node.model tokenIds)
    cases hembed : node.model.embed tokenIds with
    | ok embedded =>
      have hupto : UpTo node layers tokenIds runner.blockStart embedded :=
        ⟨embedded, hembed, by rw [← hstart, through_nil]⟩
      simp only [LocalShardRunner.forwardPrefix, hembed, hlayers, ok_bind]
      exact runBlocks_upTo hstart.le hle hbound hupto
    | error e =>
      rcases hok with herrs | ⟨-, -, embedded, hok⟩
      · simp only [LocalShardRunner.forwardPrefix, hembed, error_bind]
        exact .failed herrs
      · simp [hembed] at hok
  | cons first mids =>
    obtain ⟨hfirst, hchain⟩ := hchain
    have hfirst : first.span.lo = 0 := hfirst
    have hhi : 0 ≤ first.span.hi := hfirst ▸ hups first (by simp)
    refine resolved_meets (hok.imp_right fun h => h.1 first (by simp)) fun url hurl => ?_
    refine (remotePrefix_meets hcodec (by simp) hurl hfirst (hok.imp_right fun h => h.2.2)).bind (fun hidden h => ?_) fun e he => .failed he.of_error
    refine (middle_meets hcodec (fun m hm => by simp [hm]) hchain hhi (fun m hm => hups m (by simp [hm]))
      (hok.imp_right fun hok m hm => hok.1 m (by simp [hm])) h.upTo).bind (fun hidden h => ?_)
      fun e he => .failed he.of_error
    show RightUpTo _ _ _ _ _ (runner.forwardTail node.model hidden)
    have hlo : 0 ≤ runner.blockStart := by
      refine hhi.trans (hchain.bounds ?_).1
      intro s hs
      obtain ⟨mid, hmid, rfl⟩ := List.mem_map.1 hs
      exact hups mid (by simp [hmid])
    simp only [LocalShardRunner.forwardTail, hlayers, ok_bind]
    exact runBlocks_upTo hlo hle hbound h.upTo

/-! ## Right answers -/

theorem ofBlocks_of_spanOf {blocks : String} {s : Span} (h : spanOf blocks = .some s) :
    LocalShardRunner.ofBlocks blocks = .ok ⟨s.lo, s.hi⟩ := by
  simp [LocalShardRunner.ofBlocks, parseRange_of_spanOf h]

/-- The cached runner if it is one for the process's blocks, else a new one. -/
theorem getLocalRunner_cases (app : ShardApp) :
    (∃ runner, formatRange runner.blockStart runner.blockEnd = app.blockIndices ∧
      app.getLocalRunner = .ok (runner, app)) ∨
    ∃ app₀ : ShardApp, app₀.running = app.running ∧ app₀.blockIndices = app.blockIndices ∧
      app.getLocalRunner = do
        let runner ← LocalShardRunner.ofBlocks app.blockIndices
        return (runner, { app₀ with localRunner := .some runner }) := by
  cases hcached : app.localRunner with
  | none =>
    refine .inr ⟨app, rfl, rfl, ?_⟩
    simp only [ShardApp.getLocalRunner, hcached]
  | some runner =>
    by_cases hstale : formatRange runner.blockStart runner.blockEnd = app.blockIndices
    · refine .inl ⟨runner, hstale, ?_⟩
      simp only [ShardApp.getLocalRunner, hcached, hstale, ne_eq, not_true_eq_false, if_false]
      rfl
    · refine .inr ⟨app.resetInferenceCaches, rfl, rfl, ?_⟩
      simp only [ShardApp.getLocalRunner, hcached, ne_eq, hstale, not_false_eq_true, if_true,
        ShardApp.resetInferenceCaches]

theorem getLocalRunner_of_spanOf {app : ShardApp} {s : Span} (h : spanOf app.blockIndices = .some s) :
    ∃ app', app.getLocalRunner = .ok (⟨s.lo, s.hi⟩, app') := by
  rcases getLocalRunner_cases app with ⟨runner, hfresh, hget⟩ | ⟨app₀, -, -, hget⟩
  · rw [← hfresh, spanOf_formatRange] at h
    obtain rfl := Option.some.inj h
    exact ⟨app, hget⟩
  · rw [hget, ofBlocks_of_spanOf h]
    exact ⟨_, rfl⟩

theorem getLocalRunner_keeps {app app' : ShardApp} {runner : LocalShardRunner}
    (h : app.getLocalRunner = .ok (runner, app')) : app'.running = app.running ∧ app'.blockIndices = app.blockIndices := by
  rcases getLocalRunner_cases app with ⟨cached, -, hget⟩ | ⟨app₀, hrun, hblocks, hget⟩
  · obtain ⟨-, rfl⟩ := Prod.mk.inj (Except.ok.inj (hget.symm.trans h))
    exact ⟨rfl, rfl⟩
  · obtain ⟨fresh, -, hr⟩ := bind_eq_ok.1 (hget.symm.trans h)
    obtain ⟨-, rfl⟩ := Prod.mk.inj (Except.ok.inj hr)
    exact ⟨hrun, hblocks⟩

/-- A hop is answered right by a process on the blocks of the host it is meant for. -/
theorem serve_right {shards : Shards} {req : ChainRequest P} {app : ShardApp}
    (hlayers : node.model.layers = .ok layers) (happ : shards req.url = .some app)
    (hspan : spanOf app.blockIndices = .some req.span) (hlo : 0 ≤ req.span.lo)
    (hbound : errs ∨ req.span.lo ≤ req.span.hi ∧ req.span.hi ≤ layers.length) :
    Right node errs layers manifest hosts req ((Shards.servers node).serve shards req).1 := by
  intro _
  obtain ⟨app', hrunner⟩ := getLocalRunner_of_spanOf hspan
  have hserve : ((Shards.servers node).serve shards req).1 = Shards.answer (node.codec.toPayload <$>
      (startOf node req >>= LocalShardRunner.runBlocks ⟨req.span.lo, req.span.hi⟩ layers)) := by
    simp only [Shards.servers, happ, Shards.forward, hrunner]
    cases req with
    | chainPrefix host url inputIds =>
      simp only [LocalShardRunner.forwardPrefix, startOf, hlayers, ok_bind]
    | chainContinue host url payload =>
      simp only [LocalShardRunner.forwardTail, startOf, hlayers, ok_bind]
  rw [hserve]
  cases hstart : startOf node req with
  | error e => exact .inl ⟨.inr ⟨e, rfl⟩, _, rfl⟩
  | ok hidden =>
    cases hout : LocalShardRunner.runBlocks ⟨req.span.lo, req.span.hi⟩ layers hidden with
    | ok out =>
      refine .inr ⟨hidden, rfl, ?_⟩
      rw [ok_bind, hout, through_of_runBlocks hlo hout]
      rfl
    | error e =>
      rcases hbound with herrs | hbound
      · exact .inl ⟨.inl herrs, _, by rw [ok_bind, hout]; rfl⟩
      · simp [@runBlocks_eq H layers hidden ⟨req.span.lo, req.span.hi⟩ hlo hbound.1 hbound.2] at hout

/-- A hop that is not let in has failed. -/
theorem accept_error {shards : Shards} {req : ChainRequest P} {answer : Except ChainError P}
    (h : (Shards.servers node).accept shards req = .some answer) : ∃ e, answer = .error e := by
  simp only [Shards.servers] at h
  cases happ : shards req.url with
  | none =>
    rw [happ] at h
    exact ⟨_, (Option.some.inj h).symm⟩
  | some app =>
    rw [happ] at h
    cases hrunning : app.running with
    | true => simp [hrunning] at h
    | false =>
      simp only [hrunning] at h
      exact ⟨_, (Option.some.inj h).symm⟩

/-- Serving a hop changes neither what a process runs nor on which blocks. -/
theorem serve_keeps {shards : Shards} (req : ChainRequest P) {url : String} {app : ShardApp}
    (h : shards url = .some app) : ∃ app', ((Shards.servers node).serve shards req).2 url = .some app' ∧
      app'.running = app.running ∧ app'.blockIndices = app.blockIndices := by
  simp only [Shards.servers]
  cases hreq : shards req.url with
  | none => exact ⟨app, h, rfl, rfl⟩
  | some served =>
    by_cases hurl : url = req.url
    · subst hurl
      obtain rfl := Option.some.inj (hreq.symm.trans h)
      simp only [Shards.update, if_true, Shards.forward]
      cases hrunner : served.getLocalRunner with
      | error e => exact ⟨served, rfl, rfl, rfl⟩
      | ok p => exact ⟨p.2, rfl, getLocalRunner_keeps hrunner⟩
    · exact ⟨app, by simp only [Shards.update, hurl, if_false, h], rfl, rfl⟩

/-! ### A model that writes down which layers it was -/

def traceLayers : List (List Nat → List Nat) := (List.range 4).map fun i hidden => hidden ++ [i]

/-- The first place of a greatest number. -/
def firstArgmax (row : List Rat) : Nat := row.idxOf (row.foldl max (row.headD 0))

def traceNode : Node (List Nat) Rat Unit (List Nat) where
  model := { model := .some { layers := .some traceLayers, embedTokens := .some fun _ => []
                              lmHead := .some fun hidden => [[(hidden.length : Rat), 1]] } }
  tokenizer := { applyChatTemplate := fun _ => .ok "", encode := fun _ => .ok [7], decode := fun _ => ""
                 eosTokenId := .some 0 }
  torch := { argmax := firstArgmax, softmax := id, sortDesc := fun row => (row, List.range row.length), cumsum := id
             sum := List.sum, multinomial := fun _ gen => (0, gen) }
  codec := { toPayload := id, fromPayload := .ok }
  env := {}
  pyFloat := fun text =>
    if text = "120" then .ok 120 else if text = "1.1" then .ok (11 / 10)
    else .error (.valueError s!"could not convert string to float: '{text}'")

def chainHost (hostId : String) (start «end» : Int) : ManifestHost where
  hostId := .some hostId
  role := .some "contributor"
  blockIndices := .some (formatRange start «end»)
  shardManagerUrl := .some ("http://" ++ hostId ++ ".example")

/-- Two hosts hold its four layers. -/
def twoHosts : ManifestDict where
  model := .some "m"
  totalLayers := .some 4
  hosts := [chainHost "b" 2 4, chainHost "a" 0 2]

end Blitzwing
