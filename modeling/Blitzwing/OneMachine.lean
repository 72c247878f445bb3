/-
A generation over a chain of hosts computes what one machine would.

While every host upstream serves the range the manifest gives it (`Serving`),
each step of the decode loop has the hidden state of the whole model, over one
host or many, so the two loops draw the same tokens from the same random
draws (`run_decodeLoop`). The induction over the hosts is `stepHidden_meets`;
the one here is over the tokens.
-/
import Blitzwing.Layers

namespace Blitzwing

open HttpChain

variable {H S G P : Type}

section

variable (node : Node H S G P) (manifest : ManifestDict)

/-- The host is reached, and the process there runs the host's range. -/
def Serving (shards : Shards) (host : ManifestHost) : Prop :=
  ∃ url app, hostHttpUrl node.env host manifest = .ok url ∧ shards (PyText.rstrip url '/') = .some app ∧
    app.running = true ∧ spanOf app.blockIndices = .some host.span

end

variable {node : Node H S G P} {manifest : ManifestDict} {layers : List (H → H)} {embed : List Nat → H}
  {upstream : List ManifestHost} {runner : LocalShardRunner} {shards : Shards}

/-- Hosts that serve their ranges answer every hop right, and go on serving them. -/
theorem serving_keeps (hlayers : node.model.layers = .ok layers)
    (hups : ∀ up ∈ upstream, 0 ≤ up.span.lo ∧ up.span.lo ≤ up.span.hi ∧ up.span.hi ≤ layers.length) :
    (Shards.servers node).Keeps (fun shards => ∀ up ∈ upstream, Serving node manifest shards up)
      (Right node False layers manifest upstream) where
  accept := by
    intro shards req answer hserving haccept hmeant
    obtain ⟨hmem, url, hurl, hreq⟩ := hmeant
    obtain ⟨url', app, hurl', happ, hrunning, -⟩ := hserving _ hmem
    obtain rfl := Except.ok.inj (hurl.symm.trans hurl')
    simp [Shards.servers, hreq, happ, hrunning] at haccept
  serve := by
    intro shards req hserving _
    constructor
    · intro hmeant
      obtain ⟨hmem, url, hurl, hreq⟩ := hmeant
      obtain ⟨url', app, hurl', happ, -, hspan⟩ := hserving _ hmem
      obtain rfl := Except.ok.inj (hurl.symm.trans hurl')
      obtain ⟨hlo, hle, hhi⟩ := hups _ hmem
      exact serve_right hlayers (hreq ▸ happ) hspan hlo (.inr ⟨hle, hhi⟩) ⟨hmem, url, hurl, hreq⟩
    · intro up hmem
      obtain ⟨url, app, hurl, happ, hrunning, hspan⟩ := hserving up hmem
      obtain ⟨app', happ', hrunning', hblocks⟩ := serve_keeps req happ
      exact ⟨url, app', hurl, happ', hrunning'.trans hrunning, hblocks ▸ hspan⟩

/-- What a chain needs for no step over it to fail. -/
structure Whole (node : Node H S G P) (layers : List (H → H)) (embed : List Nat → H) (upstream : List ManifestHost)
    (runner : LocalShardRunner) : Prop where
  lossless : ∀ h, node.codec.fromPayload (node.codec.toPayload h) = .ok h
  loads : node.model.layers = .ok layers
  embeds : ∀ ids, node.model.embed ids = .ok (embed ids)
  chain : Span.Chain 0 (upstream.map (·.span)) runner.blockStart
  ups : ∀ up ∈ upstream, up.span.lo ≤ up.span.hi
  le : runner.blockStart ≤ runner.blockEnd
  all : runner.blockEnd = layers.length

/-- The spans of a chain lie in the model. -/
theorem Whole.span_bounds (h : Whole node layers embed upstream runner) :
    ∀ up ∈ upstream, 0 ≤ up.span.lo ∧ up.span.lo ≤ up.span.hi ∧ up.span.hi ≤ layers.length := by
  intro up hmem
  obtain ⟨-, hbounds⟩ := h.chain.bounds fun s hs => by
    obtain ⟨host, hhost, rfl⟩ := List.mem_map.1 hs
    exact h.ups host hhost
  have hle := h.le
  have hall := h.all
  have hup := h.ups up hmem
  have := hbounds up.span (List.mem_map_of_mem hmem)
  omega

variable (manifest shards) in
/-- A step over the hosts has the hidden state of the whole model. -/
theorem run_stepHidden (h : Whole node layers embed upstream runner)
    (hserving : ∀ up ∈ upstream, Serving node manifest shards up) (tokenIds : List Nat) :
    ∃ shards', (∀ up ∈ upstream, Serving node manifest shards' up) ∧
      (Shards.servers node).run shards (stepHidden node runner manifest upstream tokenIds) =
        ⟨.ok (through layers ⟨0, layers.length⟩ (embed tokenIds)), [], shards'⟩ := by
  have hmeets := stepHidden_meets False manifest tokenIds h.lossless h.loads
    h.chain h.ups h.le (.inr ⟨fun up hmem => ?_, h.all.le, _, h.embeds tokenIds⟩)
  · obtain ⟨hresult, hnotes, hserving'⟩ :=
      Servers.run_of_meets hmeets (serving_keeps h.loads h.span_bounds) hserving
    generalize (Shards.servers node).run shards (stepHidden node runner manifest upstream tokenIds) = out at *
    obtain ⟨result, notes, shards'⟩ := out
    refine ⟨shards', hserving', ?_⟩
    have hsilent : notes = [] := List.eq_nil_iff_forall_not_mem.2 hnotes
    cases hresult with
    | failed hno => exact hno.elim
    | reached hupto =>
      obtain ⟨embedded, hembed, rfl⟩ := hupto
      obtain rfl := Except.ok.inj (hembed.symm.trans (h.embeds tokenIds))
      rw [hsilent, h.all]
  · obtain ⟨url, -, hurl, -⟩ := hserving up hmem
    exact ⟨url, hurl⟩

variable (manifest) in
theorem run_stepHidden_local (h : Whole node layers embed [] runner) (tokenIds : List Nat) :
    stepHidden node runner manifest [] tokenIds = .done (.ok (through layers ⟨0, layers.length⟩ (embed tokenIds))) := by
  obtain ⟨_, -, hrun⟩ := run_stepHidden manifest (fun _ => .none) h (by simp) tokenIds
  exact congrArg Remote.done (congrArg Outcome.result hrun)

/-! ## The decode loop -/

section

variable [Zero S] [One S] [Mul S] [Div S] [LT S] [LE S] [DecidableLT S] [DecidableLE S]
  {one : LocalShardRunner} {oneManifest : ManifestDict} {shards₁ : Shards}

/-- Of the runner, drawing a token reads only where its blocks end. -/
theorem stepToken_congr (h : runner.blockEnd = one.blockEnd) (penalty : S) (args : SamplingArgs S)
    (generated : List Nat) (hidden : H) (gen : G) :
    stepToken node runner penalty args generated hidden gen = stepToken node one penalty args generated hidden gen := by
  simp only [stepToken, LocalShardRunner.logitsFromHidden, LocalShardRunner.isTailHost,
    LocalShardRunner.totalLayers, h]

section

variable {hidden : H} {shards' : Shards} {inputIds generated : List Nat} {penalty : S} {args : SamplingArgs S}
  {steps : Nat} {gen gen' : G} {nextId : Nat}

theorem run_decodeLoop_error {e : ChainError}
    (hstep : (Shards.servers node).run shards (stepHidden node runner manifest upstream (inputIds ++ generated)) =
      ⟨.ok hidden, [], shards'⟩)
    (htoken : stepToken node runner penalty args generated hidden gen = .error e) :
    (Shards.servers node).run shards
        (decodeLoop node runner manifest upstream inputIds penalty args (steps + 1) generated gen) =
      ⟨.error e, [], shards'⟩ := by
  rw [decodeLoop, Servers.run_bind, hstep]
  simp only [Servers.Outcome.andThen, htoken, Remote.liftM_error_bind, Servers.run_done, List.append_nil]

theorem run_decodeLoop_ok
    (hstep : (Shards.servers node).run shards (stepHidden node runner manifest upstream (inputIds ++ generated)) =
      ⟨.ok hidden, [], shards'⟩)
    (htoken : stepToken node runner penalty args generated hidden gen = .ok (nextId, gen')) {out : Outcome _ _ _ _}
    (hrest : out = if node.tokenizer.eosTokenId = .some nextId then ⟨.ok (generated ++ [nextId], "stop"), [], shards'⟩
      else (Shards.servers node).run shards'
        (decodeLoop node runner manifest upstream inputIds penalty args steps (generated ++ [nextId]) gen')) :
    (Shards.servers node).run shards
        (decodeLoop node runner manifest upstream inputIds penalty args (steps + 1) generated gen) =
      ⟨out.result, ⟨inputIds ++ generated, hidden, nextId⟩ :: out.notes, out.world⟩ := by
  rw [decodeLoop, Servers.run_bind, hstep]
  simp only [Servers.Outcome.andThen, htoken, Remote.liftM_ok_bind, Remote.jot_bind, Servers.run_note, List.nil_append]
  subst hrest
  split <;> rfl

end

variable (oneManifest shards₁) in
/-- **The two loops.** Over hosts that serve their ranges and on one machine,
the decode loop ends alike and appends the same tokens, each drawn from the
hidden state of the whole model. -/
theorem run_decodeLoop (h : Whole node layers embed upstream runner) (hone : Whole node layers embed [] one)
    (hserving : ∀ up ∈ upstream, Serving node manifest shards up) (inputIds : List Nat) (penalty : S)
    (args : SamplingArgs S) (steps : Nat) (generated : List Nat) (gen : G) :
    ∃ result notes shards', (Shards.servers node).run shards
        (decodeLoop node runner manifest upstream inputIds penalty args steps generated gen) =
          ⟨result, notes, shards'⟩ ∧
      (Shards.servers node).run shards₁ (decodeLoop node one oneManifest [] inputIds penalty args steps generated gen) =
          ⟨result, notes, shards₁⟩ ∧
      ∀ n ∈ notes, n.hidden = through layers ⟨0, layers.length⟩ (embed n.tokenIds) := by
  induction steps generalizing generated gen shards with
  | zero => exact ⟨.ok (generated, "length"), [], shards, rfl, rfl, by simp⟩
  | succ steps ih =>
    obtain ⟨shards₂, hserving₂, hstep⟩ := run_stepHidden manifest shards h hserving (inputIds ++ generated)
    have hstep₁ := run_stepHidden_local oneManifest hone (inputIds ++ generated)
    have hends : runner.blockEnd = one.blockEnd := h.all.trans hone.all.symm
    have hrun₁ := (congrArg ((Shards.servers node).run shards₁) hstep₁).trans (Servers.run_done _ _ _)
    cases htoken : stepToken node one penalty args generated
        (through layers ⟨0, layers.length⟩ (embed (inputIds ++ generated))) gen with
    | error e =>
      have htoken' := (stepToken_congr hends penalty args generated _ gen).trans htoken
      exact ⟨.error e, [], shards₂, run_decodeLoop_error hstep htoken', run_decodeLoop_error hrun₁ htoken, by simp⟩
    | ok drawn =>
      obtain ⟨nextId, gen'⟩ := drawn
      have htoken' := (stepToken_congr hends penalty args generated _ gen).trans htoken
      by_cases heos : node.tokenizer.eosTokenId = .some nextId
      · exact ⟨.ok (generated ++ [nextId], "stop"), [_], shards₂,
          run_decodeLoop_ok hstep htoken' (if_pos heos).symm, run_decodeLoop_ok hrun₁ htoken (if_pos heos).symm, by simp⟩
      · obtain ⟨result, notes, shards', hrest, hrest₁, hnotes⟩ := ih hserving₂ (generated ++ [nextId]) gen'
        refine ⟨result, _ :: notes, shards', run_decodeLoop_ok hstep htoken' (hrest.symm.trans (if_neg heos).symm),
          run_decodeLoop_ok hrun₁ htoken (hrest₁.symm.trans (if_neg heos).symm), ?_⟩
        intro n hn
        rcases List.mem_cons.1 hn with rfl | hn
        · rfl
        · exact hnotes n hn

/-! ## The whole generation -/

/-- The rest of a generation that passed the checks. -/
theorem generate_of_accepted {hosts : List ManifestHost} {tail : ManifestHost} {chain : HttpChainInference}
    (hhosts : orderedHosts manifest = .ok hosts)
    (hcoverage : validateChainCoverage hosts (manifest.totalLayers.getD 0) = .ok ())
    (hlast : hosts.getLast? = .some tail) (htail : spanOf tail.blocks = .some tail.span)
    (hlocal : spanOf chain.localBlockIndices = .some tail.span) (messages : List MessageDict) (args : SamplingArgs S)
    (gen : G) : generate node chain messages args (.some manifest) gen =
      generateOver node chain.runner manifest hosts.dropLast messages args gen := by
  simp only [generate, py_of_ok hhosts, py_of_ok hcoverage, py_of_ok (parseRange_of_spanOf hlocal),
    Remote.done_ok_bind, hlast, py_of_ok (parseRange_of_spanOf htail), ne_eq, not_true_eq_false, if_false]

theorem run_generateOver (h : Whole node layers embed upstream runner) (hone : Whole node layers embed [] one)
    (hserving : ∀ up ∈ upstream, Serving node manifest shards up) (messages : List MessageDict) (args : SamplingArgs S)
    (gen : G) : ∃ result notes shards', (Shards.servers node).run shards
        (generateOver node runner manifest upstream messages args gen) = ⟨result, notes, shards'⟩ ∧
      (Shards.servers node).run shards₁ (generateOver node one oneManifest [] messages args gen) =
        ⟨result, notes, shards₁⟩ ∧
      ∀ n ∈ notes, n.hidden = through layers ⟨0, layers.length⟩ (embed n.tokenIds) := by
  simp only [generateOver]
  cases node.pyFloat (node.env.httpChainPrefixTimeout.getD "120") with
  | error e => exact ⟨.error (.raised e), [], shards, rfl, rfl, by simp⟩
  | ok _ =>
    simp only [py_ok, Remote.done_ok_bind]
    cases node.tokenizer.encode (promptOf node.tokenizer messages) with
    | error e => exact ⟨.error (.raised e), [], shards, rfl, rfl, by simp⟩
    | ok inputIds =>
      simp only [py_ok, Remote.done_ok_bind]
      cases node.pyFloat (node.env.httpChainRepetitionPenalty.getD "1.1") with
      | error e => exact ⟨.error (.raised e), [], shards, rfl, rfl, by simp⟩
      | ok penalty =>
        obtain ⟨result, notes, shards', hrun, hrun₁, hnotes⟩ := run_decodeLoop oneManifest shards₁
          h hone hserving inputIds penalty args (max 1 (min args.maxTokens 512)).toNat [] gen
        simp only [py_ok, Remote.done_ok_bind, Servers.run_bind, hrun, hrun₁, Servers.Outcome.andThen]
        cases result with
        | error e => exact ⟨.error e, notes, shards', rfl, rfl, hnotes⟩
        | ok drawn =>
          simp only [Servers.run_pure, List.append_nil]
          exact ⟨_, notes, shards', rfl, rfl, hnotes⟩

/-- **One machine.** Over hosts that serve the ranges of an accepted manifest,
a generation returns and appends what it does on one machine that has the whole
model, each token drawn from all layers, applied once and in order. -/
theorem generate_eq_one_machine (node : Node H S G P) (layers : List (H → H)) (embed : List Nat → H)
    (hlossless : ∀ h, node.codec.fromPayload (node.codec.toPayload h) = .ok h)
    (hloads : node.model.layers = .ok layers) (hembeds : ∀ ids, node.model.embed ids = .ok (embed ids))
    (hpos : 1 ≤ layers.length) (htotal : manifest.totalLayers = .some (layers.length : Int))
    (hosts : List ManifestHost) (hhosts : orderedHosts manifest = .ok hosts)
    (hcoverage : validateChainCoverage hosts layers.length = .ok ()) (hne : ∀ host ∈ hosts, host.span.Inhabited)
    {chain : HttpChainInference} (hrunner : spanOf chain.localBlockIndices = .some chain.runner.span)
    (htail : ∀ tail, hosts.getLast? = .some tail → spanOf tail.blocks = spanOf chain.localBlockIndices)
    (hserving : ∀ up ∈ hosts.dropLast, Serving node manifest shards up)
    {mother : ManifestHost} (hmother : mother.blockIndices = .some (formatRange 0 layers.length))
    (messages : List MessageDict) (args : SamplingArgs S) (gen : G) :
    ∃ result notes shards', (Shards.servers node).run shards
        (generate node chain messages args (.some manifest) gen) = ⟨result, notes, shards'⟩ ∧
      (Shards.servers node).run shards₁ (generate node ⟨⟨0, layers.length⟩, formatRange 0 layers.length⟩ messages args
        (.some ⟨manifest.model, manifest.totalLayers, [mother]⟩) gen) = ⟨result, notes, shards₁⟩ ∧
      ∀ n ∈ notes, n.hidden = layers.foldl (fun hidden layer => layer hidden) (embed n.tokenIds) := by
  simp only [← through_all]
  obtain ⟨tail, hsplit, hlast, hchain, hend, hparse⟩ := chain_of_coverage hcoverage (by omega)
  have htailSpan := hparse tail (List.mem_of_getLast? hlast)
  have hlocal : spanOf chain.localBlockIndices = .some tail.span := (htail tail hlast).symm.trans htailSpan
  have hspan : chain.runner.span = tail.span := Option.some.inj (hrunner.symm.trans hlocal)
  have hwhole : Whole node layers embed hosts.dropLast chain.runner :=
    { lossless := hlossless, loads := hloads, embeds := hembeds
      chain := by
        have hstart : chain.runner.blockStart = tail.span.lo := congrArg Span.lo hspan
        rw [hstart]
        exact hchain
      ups := fun up hmem => (hne up (List.mem_of_mem_dropLast hmem)).le
      le := by
        have := hne tail (List.mem_of_getLast? hlast)
        rw [← hspan] at this
        exact this.le
      all := (congrArg Span.hi hspan).trans hend }
  have hone : Whole node layers embed [] ⟨0, layers.length⟩ :=
    { lossless := hlossless, loads := hloads, embeds := hembeds, chain := rfl, ups := by simp, le := by simp, all := rfl }
  -- The one-host manifest is accepted too.
  have hblocks : spanOf mother.blocks = .some ⟨0, layers.length⟩ := by
    rw [ManifestHost.blocks, hmother]
    exact spanOf_formatRange 0 layers.length
  have hmotherSpan : mother.span = ⟨0, layers.length⟩ := by
    rw [ManifestHost.span, hblocks]
    rfl
  have hparses : ∀ host ∈ [mother], parseRange host.blocks = .ok (host.span.lo, host.span.hi) := by
    intro host hmem
    obtain rfl := List.mem_singleton.1 hmem
    rw [hmotherSpan]
    exact parseRange_of_spanOf hblocks
  have hordered : orderedHosts ⟨manifest.model, manifest.totalLayers, [mother]⟩ = .ok [mother] :=
    orderedHosts_eq_ok rfl (by simp [hmother, truthy_formatRange]) hparses
  have hcovered : validateChainCoverage [mother] layers.length = .ok () :=
    (validateChainCoverage_eq_ok hparses (by omega)).2 ⟨by rw [hmotherSpan], by rw [hmotherSpan]; rfl⟩
  rw [generate_of_accepted hhosts (by rw [htotal]; exact hcoverage) hlast htailSpan hlocal,
    generate_of_accepted hordered (by rw [htotal]; exact hcovered) rfl (hmotherSpan ▸ hblocks)
      (hmotherSpan ▸ spanOf_formatRange 0 layers.length)]
  exact run_generateOver hwhole hone hserving messages args gen

end

/-! ### Two hosts that hold four layers -/

def twoShards : Shards := fun url =>
  if url = "http://a.example" then .some { running := true, blockIndices := "0:2" } else .none

/-- The embedding counts the tokens, and the second token is the last. -/
def countNode : Node (List Nat) Rat Unit (List Nat) :=
  { traceNode with
    model := { model := .some { layers := .some traceLayers, embedTokens := .some fun ids => [ids.length]
                                lmHead := .some fun hidden => [[(hidden.headD 0 : Rat), 2]] } } }

theorem serving_twoShards : Serving countNode twoHosts twoShards (chainHost "a" 0 2) :=
  ⟨"http://a.example", { running := true, blockIndices := "0:2" }, by decide +kernel, rfl, rfl, rfl⟩

/-- The generation over the two hosts. -/
def chainRun := (Shards.servers countNode).run twoShards
  (generate countNode ⟨⟨2, 4⟩, "2:4"⟩ [] ⟨8, 0, 1⟩ (.some twoHosts) ())

/-- The same on one machine. -/
def wholeRun := (Shards.servers countNode).run twoShards
  (generate countNode ⟨⟨0, 4⟩, formatRange 0 4⟩ [] ⟨8, 0, 1⟩
    (.some ⟨twoHosts.model, twoHosts.totalLayers, [chainHost "a" 0 4]⟩) ())

/-- Two tokens, each drawn from all four layers. -/
theorem generate_eq_one_machine_twoHosts :
    ∃ out notes shards', chainRun = ⟨.ok out, notes, shards'⟩ ∧ wholeRun = ⟨.ok out, notes, twoShards⟩ ∧
      notes.map (·.nextId) = [1, 0] ∧
      ∀ n ∈ notes, n.hidden = traceLayers.foldl (fun hidden layer => layer hidden) [n.tokenIds.length] := by
  have hsame : ∃ result notes shards', chainRun = ⟨result, notes, shards'⟩ ∧ wholeRun = ⟨result, notes, twoShards⟩ ∧
      ∀ n ∈ notes, n.hidden = traceLayers.foldl (fun hidden layer => layer hidden) [n.tokenIds.length] :=
    generate_eq_one_machine countNode traceLayers (fun ids => [ids.length]) (fun _ => rfl) rfl (fun _ => rfl)
      (by decide) rfl [chainHost "a" 0 2, chainHost "b" 2 4] rfl rfl
      (by decide) rfl (by simp; rfl) (by simp [serving_twoShards]) rfl [] _ ()
  obtain ⟨result, notes, shards', hrun, hone, hhidden⟩ := hsame
  have hout : chainRun.result.isOk = true := by decide +kernel
  have hnotes : chainRun.notes.map (·.nextId) = [1, 0] := by decide +kernel
  rw [hrun] at hout hnotes
  cases result with
  | error e => cases hout
  | ok out => exact ⟨out, notes, shards', hrun, hone, hnotes, hhidden⟩

end Blitzwing
