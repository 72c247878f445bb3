/-
A generation while shard managers are reloaded.

Between any two steps of a generation, and between a hop's being let in and
its being served, the pieces of `/reload` calls may run on the shard managers
of the chain (`reloadStep`), and a hop may be lost. A hop is served on the
blocks the callee has at that moment; nothing in its request or its answer
says which, so a generation goes right as long as they are the manifest's
(`notes_of_reloads`) and appends a token all the same where they are not.
-/
import Blitzwing.Layers

namespace Blitzwing

open HttpChain

variable {H S G P : Type} [Zero S] [One S] [Mul S] [Div S] [LT S] [LE S] [DecidableLT S] [DecidableLE S]

/-- A piece of a `/reload` on the shard manager at a base URL. -/
def reloadStep (shards : Shards) (event : String × ShardEvent) : Option Shards :=
  (shards event.1).map fun app => shards.update event.1 (app.apply event.2)

/-- A generation in progress. -/
abbrev Generation (H P : Type) :=
  Session Shards (ChainRequest P) (Except ChainError P) (TokenNote H) ChainError InferenceResult

abbrev GenerationAction := SessionAction (String × ShardEvent) String

/-- A generation among reloads; a lost hop raises. -/
def chainMachine (node : Node H S G P) : Machine (Generation H P) GenerationAction :=
  (Shards.servers node).machine reloadStep fun msg => .error (.transport msg)

/-- `generate`, called on these shard managers. -/
def startGeneration (node : Node H S G P) (shards : Shards) (chain : HttpChainInference) (messages : List MessageDict)
    (args : SamplingArgs S) (manifest : ManifestDict) (gen : G) : Generation H P where
  world := shards
  program := generate node chain messages args (.some manifest) gen

/-- A hop is served on the blocks the manifest has for the host it is meant for. -/
def ServedByManifest (s : Generation H P) (a : GenerationAction) : Prop :=
  a = .serve → ∀ req ∈ Servers.Session.waitsFor s, ∀ app ∈ s.world req.url, spanOf app.blockIndices = .some req.span

instance (s : Generation H P) (a : GenerationAction) : Decidable (ServedByManifest s a) :=
  inferInstanceAs (Decidable (a = .serve → ∀ req ∈ Servers.Session.waitsFor s, ∀ app ∈ s.world req.url,
    spanOf app.blockIndices = .some req.span))

section

variable {node : Node H S G P} {layers : List (H → H)} {manifest : ManifestDict} {upstream : List ManifestHost}
  {runner : LocalShardRunner}

variable (manifest) in
/-- What the decode loop notes, whichever hops fail. -/
theorem decodeLoop_meets (hlossless : ∀ h, node.codec.fromPayload (node.codec.toPayload h) = .ok h)
    (hloads : node.model.layers = .ok layers) (hchain : Span.Chain 0 (upstream.map (·.span)) runner.blockStart)
    (hups : ∀ up ∈ upstream, up.span.lo ≤ up.span.hi) (hle : runner.blockStart ≤ runner.blockEnd)
    (inputIds : List Nat) (penalty : S) (args : SamplingArgs S) (steps : Nat) (generated : List Nat) (gen : G) :
    (decodeLoop node runner manifest upstream inputIds penalty args steps generated gen).Meets
      (Right node True layers manifest upstream)
      (fun n => UpTo node layers n.tokenIds runner.blockEnd n.hidden) fun _ => True := by
  induction steps generalizing generated gen with
  | zero => exact trivial
  | succ steps ih =>
    have hstep := stepHidden_meets True manifest (inputIds ++ generated) hlossless
      hloads hchain hups hle (.inl trivial)
    rw [decodeLoop]
    refine (hstep.imp (fun _ hno => hno.elim) fun _ h => h).bind (fun hidden hhidden => ?_) fun e _ => trivial
    cases stepToken node runner penalty args generated hidden gen with
    | error e => exact trivial
    | ok drawn =>
      simp only [Remote.liftM_ok_bind, Remote.jot_bind]
      refine ⟨hhidden.upTo, ?_⟩
      split
      · exact trivial
      · exact ih _ _

theorem generateOver_meets (hlossless : ∀ h, node.codec.fromPayload (node.codec.toPayload h) = .ok h)
    (hloads : node.model.layers = .ok layers) (hchain : Span.Chain 0 (upstream.map (·.span)) runner.blockStart)
    (hups : ∀ up ∈ upstream, up.span.lo ≤ up.span.hi) (hle : runner.blockStart ≤ runner.blockEnd)
    (messages : List MessageDict) (args : SamplingArgs S) (gen : G) :
    (generateOver node runner manifest upstream messages args gen).Meets (Right node True layers manifest upstream)
      (fun n => UpTo node layers n.tokenIds runner.blockEnd n.hidden) fun _ => True := by
  rw [generateOver]
  refine Remote.Meets.done_bind (fun _ _ => ?_) fun _ _ => trivial
  refine Remote.Meets.done_bind (fun inputIds _ => ?_) fun _ _ => trivial
  refine Remote.Meets.done_bind (fun penalty _ => ?_) fun _ _ => trivial
  have hloop := decodeLoop_meets manifest hlossless hloads hchain hups hle inputIds penalty args
    (max 1 (min args.maxTokens 512)).toNat [] gen
  exact hloop.bind (fun _ _ => trivial) fun _ _ => trivial

/-- What a generation on an accepted manifest notes, whichever hops fail. -/
theorem generate_meets (hlossless : ∀ h, node.codec.fromPayload (node.codec.toPayload h) = .ok h)
    (hloads : node.model.layers = .ok layers) {n : Int} (hn : 1 ≤ n) (htotal : manifest.totalLayers = .some n)
    {hosts : List ManifestHost} (hhosts : orderedHosts manifest = .ok hosts)
    (hcoverage : validateChainCoverage hosts n = .ok ())
    (hforward : ∀ tail, hosts.getLast? = .some tail → tail.span.lo ≤ tail.span.hi) {chain : HttpChainInference}
    (hrunner : spanOf chain.localBlockIndices = .some chain.runner.span) (messages : List MessageDict)
    (args : SamplingArgs S) (gen : G) :
    (generate node chain messages args (.some manifest) gen).Meets (Right node True layers manifest hosts.dropLast)
      (fun note => UpTo node layers note.tokenIds n note.hidden) fun _ => True := by
  obtain ⟨tail, hsplit, hlast, hchain, hend, hparse⟩ := chain_of_coverage hcoverage hn
  have hcovered : validateChainCoverage hosts (manifest.totalLayers.getD 0) = .ok () := by
    rw [htotal]
    exact hcoverage
  have htail := parseRange_of_spanOf (hparse tail (List.mem_of_getLast? hlast))
  simp only [generate, py_of_ok hhosts, py_of_ok hcovered, py_of_ok (parseRange_of_spanOf hrunner),
    Remote.done_ok_bind, hlast, py_of_ok htail]
  split
  · exact trivial
  · next heq =>
    have hspan : tail.span = chain.runner.span := by
      obtain ⟨hlo, hhi⟩ := Prod.mk.inj (not_not.1 heq)
      show (⟨tail.span.lo, tail.span.hi⟩ : Span) = ⟨chain.runner.span.lo, chain.runner.span.hi⟩
      rw [hlo, hhi]
    have hups := fun up hmem => (upstream_bounds hn hhosts hcoverage up hmem).2
    have hle := hforward tail hlast
    rw [hspan] at hchain hend hle
    obtain rfl : chain.runner.blockEnd = n := hend
    exact generateOver_meets hlossless hloads hchain hups hle messages args gen

end

/-- **Reloads.** In a generation every hop of which is served on the blocks the
manifest gives the host it is meant for, each token appended was drawn from the
layers `0` to `total_layers - 1`, applied once and in order. -/
theorem notes_of_reloads (node : Node H S G P)
    (hlossless : ∀ h, node.codec.fromPayload (node.codec.toPayload h) = .ok h) {layers : List (H → H)}
    (hloads : node.model.layers = .ok layers) {manifest : ManifestDict} {n : Int} (hn : 1 ≤ n)
    (htotal : manifest.totalLayers = .some n) (hosts : List ManifestHost) (hhosts : orderedHosts manifest = .ok hosts)
    (hcoverage : validateChainCoverage hosts n = .ok ())
    (hforward : ∀ tail, hosts.getLast? = .some tail → tail.span.lo ≤ tail.span.hi) {chain : HttpChainInference}
    (hrunner : spanOf chain.localBlockIndices = .some chain.runner.span) (shards : Shards)
    (messages : List MessageDict) (args : SamplingArgs S) (gen : G) {s : Generation H P}
    (h : (chainMachine node).Reaches ServedByManifest
      (startGeneration node shards chain messages args manifest gen) s) :
    ∀ note ∈ s.notes, ∃ embedded, node.model.embed note.tokenIds = .ok embedded ∧
      note.hidden = through layers ⟨0, n⟩ embedded := by
  have hmeets := generate_meets hlossless hloads hn htotal hhosts hcoverage hforward hrunner messages args gen
  have hups := upstream_bounds hn hhosts hcoverage
  refine (Servers.reaches_meets h ?_ ?_ ?_ hmeets (by simp [startGeneration])).2
  · intro shards req answer haccept _
    exact .inl ⟨.inl trivial, accept_error haccept⟩
  · exact fun req msg _ => .inl ⟨.inl trivial, _, rfl⟩
  · intro s req hok hwaits hmeant
    cases happ : s.world req.url with
    | none => exact .inl ⟨.inl trivial, .transport "connection reset", by simp only [Shards.servers, happ]⟩
    | some app =>
      have hspan := hok rfl req hwaits app happ
      exact serve_right hloads happ hspan (hups req.host hmeant.1).1 (.inl trivial) hmeant

/-! ### A reload between two steps -/

/-- A generation over two hosts, on the second of them. -/
def twoHostGeneration : Generation (List Nat) (List Nat) :=
  startGeneration traceNode (fun url => if url = "http://a.example" then .some ⟨true, "0:2", .none, .none⟩ else .none)
    ⟨⟨2, 4⟩, "2:4"⟩ [] ⟨8, 0, 1⟩ twoHosts ()

/-- The pieces of a `/reload` on the first host, with these blocks. -/
def reloadFirst (blockIndices : String) : List GenerationAction :=
  [.outside ("http://a.example", .stop), .outside ("http://a.example", .start (.some blockIndices)),
    .outside ("http://a.example", .reset)]

/-- The first host gives up layer 1; the generation appends a token without it. -/
theorem token_without_a_layer :
    ((chainMachine traceNode).run twoHostGeneration (reloadFirst "0:1" ++ [.accept, .serve, .note])).map (·.notes) =
      .some [⟨[7], [0, 2, 3], 0⟩] := by
  decide +kernel

theorem notes_of_reloads_same_blocks :
    ∃ s, (chainMachine traceNode).Reaches ServedByManifest twoHostGeneration s ∧ s.notes.length = 1 ∧
      ∀ note ∈ s.notes, ∃ embedded, traceNode.model.embed note.tokenIds = .ok embedded ∧
        note.hidden = through traceLayers ⟨0, 4⟩ embedded := by
  have hrun : ((chainMachine traceNode).runIf (fun s a => decide (ServedByManifest s a)) twoHostGeneration
      (reloadFirst "0:2" ++ [.accept, .serve, .note])).map (·.notes.length) = .some 1 := by decide +kernel
  obtain ⟨s, hs, hlength⟩ := Option.map_eq_some_iff.1 hrun
  have hreaches := Machine.Reaches.of_runIf (fun a _ s h => of_decide_eq_true h) hs
  exact ⟨s, hreaches, hlength, notes_of_reloads traceNode (fun _ => rfl) rfl (by decide) rfl
    [chainHost "a" 0 2, chainHost "b" 2 4] rfl rfl (by decide) rfl _ [] _ () hreaches⟩

end Blitzwing
