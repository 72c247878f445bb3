/-
`orchestrator/app/swarm_map.py`, the manifest the orchestrator routes by, and
`shard_manager/http_chain.py`, the two functions the conductor reads it with.

The orchestrator validates the spans before it hands a request on
(`validateManifest`), the conductor validates the hosts it is handed
(`validateChainCoverage`). One drops the spans without a layer first, the
other does not: they give the same verdict exactly on the span lists in
`checks_agree_iff`.

`shard_manager` has a `parse_range` of its own, with the same body. In the
manifest a dictionary's absent field and a `None` are the same, and a range
that is no string is left out.
-/
import Blitzwing.Lib.Tiling
import Blitzwing.RegistryFacts
import Mathlib.Data.List.Sort

namespace Blitzwing

/-! ## The orchestrator's manifest -/

structure LayerSpan where
  hostId : String
  role : Role
  blockIndices : String
  start : Int
  «end» : Int
  shardManagerUrl : String
  peerMultiaddr : Option String := .none
  petalsRunning : Option Bool := .none
deriving DecidableEq, Repr

structure SwarmManifest where
  model : String
  totalLayers : Int
  spans : List LayerSpan
deriving DecidableEq, Repr

/-- An entry of the manifest's `hosts`, as it is sent. -/
structure ManifestHost where
  hostId : Option String
  role : Option String
  blockIndices : Option String
  layersHosted : Option Int := .none
  shardManagerUrl : Option String := .none
  publicIp : Option String := .none
  peerMultiaddr : Option String := .none
  petalsRunning : Option Bool := .none
deriving DecidableEq, Repr

/-- The manifest as it is sent. -/
structure ManifestDict where
  model : Option String
  totalLayers : Option Int
  hosts : List ManifestHost
deriving DecidableEq, Repr

def Role.text : Role → String
  | .mother => "mother"
  | .contributor => "contributor"

/-- The layers a span names. -/
def LayerSpan.span (s : LayerSpan) : Span := ⟨s.start, s.end⟩

namespace SwarmManifest

/-- `to_dict`; the argument is `MOTHER_PUBLIC_GATEWAY_URL`. -/
def toDict (motherPublicGatewayUrl : Option String) (m : SwarmManifest) : ManifestDict where
  model := .some m.model
  totalLayers := .some m.totalLayers
  hosts := m.spans.map fun s =>
    let motherPublic := PyText.rstrip (PyText.strip (motherPublicGatewayUrl.getD "")) '/'
    { hostId := .some s.hostId
      role := .some s.role.text
      blockIndices := .some s.blockIndices
      layersHosted := .some (s.end - s.start)
      shardManagerUrl := .some (if s.role = .mother ∧ motherPublic ≠ "" then motherPublic else s.shardManagerUrl)
      peerMultiaddr := s.peerMultiaddr
      petalsRunning := s.petalsRunning }

/-- The loop of `is_complete`: where the spans end, if each starts where the
one before it ends. -/
def follow (expected : Int) : List LayerSpan → Option Int
  | [] => .some expected
  | span :: rest => if span.start ≠ expected then .none else follow span.end rest

/-- True when online spans cover 0:total_layers with no gaps or overlaps. -/
def isComplete (m : SwarmManifest) : Bool :=
  let online := m.spans.filter fun s => s.end > s.start
  if online = [] then false
  else follow 0 (online.insertionSort fun a b => a.start ≤ b.start) = .some m.totalLayers

/-- `validate_manifest`: the verdict and its text. -/
def validateManifest (m : SwarmManifest) : Bool × String :=
  if m.spans = [] then (false, "no online hosts")
  else if m.isComplete = false then
    let covered := ", ".intercalate (m.spans.map fun s => s!"({s.start}, {s.end})")
    (false, s!"layer map not contiguous 0:{m.totalLayers} — have [{covered}]")
  else (true, "ok")

end SwarmManifest

/-- `build_manifest`: a span for each online host, in starting order. -/
def buildManifest (reg : SwarmRegistry) : Except PyError SwarmManifest := do
  let spans ← (reg.hosts.values.filter (·.status = .online)).mapM fun host => do
    let (start, «end») ← parseRange host.blockIndices
    return { hostId := host.hostId, role := host.role, blockIndices := host.blockIndices, start, «end»,
             shardManagerUrl := host.shardManagerUrl, peerMultiaddr := host.peerMultiaddr : LayerSpan }
  return { model := reg.model, totalLayers := reg.totalLayers
           spans := spans.insertionSort fun a b => a.start ≤ b.start }

/-! ## The conductor's -/

/-- `str(h["block_indices"])` -/
def ManifestHost.blocks (h : ManifestHost) : String := h.blockIndices.getD ""

/-- How Python prints a field that may be `None`. -/
def pyStr (o : Option String) : String := o.getD "None"

def orderedHosts (manifest : ManifestDict) : Except PyError (List ManifestHost) := do
  let hosts := manifest.hosts.filter fun h => (truthy h.blockIndices).isSome
  let keyed ← hosts.mapM fun h => do return ((← parseRange h.blocks).1, h)
  return (keyed.insertionSort fun a b => a.1 ≤ b.1).map (·.2)

/-- The loop of `validate_chain_coverage`. -/
def followHosts (expected : Int) : List ManifestHost → Except PyError Int
  | [] => return expected
  | host :: rest => do
    let (start, «end») ← parseRange host.blocks
    if start ≠ expected then
      .error (.runtimeError s!"layer gap before {pyStr host.hostId}: expected start={expected}, got {start}")
    else followHosts «end» rest

def validateChainCoverage (hosts : List ManifestHost) (totalLayers : Int) : Except PyError Unit := do
  if hosts = [] then throw (.runtimeError "swarm_manifest has no hosts")
  let expected ← followHosts 0 hosts
  if totalLayers ≠ 0 ∧ expected ≠ totalLayers then
    throw (.runtimeError s!"layer map incomplete: covered 0:{expected}, need 0:{totalLayers}")

/-! ## Both loops are chains -/

theorem follow_eq_some {l : List LayerSpan} {e f : Int} :
    SwarmManifest.follow e l = .some f ↔ Span.Chain e (l.map (·.span)) f := by
  induction l generalizing e with
  | nil => simp [SwarmManifest.follow, Span.Chain]
  | cons s l ih =>
    simp only [SwarmManifest.follow, List.map_cons, Span.Chain]
    split
    · next hne =>
      have hlo : ¬ s.span.lo = e := hne
      simp [hlo]
    · next he =>
      have hlo : s.span.lo = e := not_not.1 he
      rw [ih]
      simp [hlo, show s.span.hi = s.end from rfl]

section

variable {hosts : List ManifestHost} {p : ManifestHost → Span}

theorem followHosts_eq_ok (h : ∀ host ∈ hosts, parseRange host.blocks = .ok ((p host).lo, (p host).hi)) {e f : Int} :
    followHosts e hosts = .ok f ↔ Span.Chain e (hosts.map p) f := by
  induction hosts generalizing e with
  | nil => simp [followHosts, Span.Chain]
  | cons host rest ih =>
    obtain ⟨hhost, hrest⟩ := List.forall_mem_cons.1 h
    simp only [followHosts, hhost, ok_bind, List.map_cons, Span.Chain]
    split
    · next hne => simp [hne]
    · next he =>
      rw [ih hrest]
      simp [not_not.1 he]

/-- The conductor's verdict, on hosts whose ranges parse. -/
theorem validateChainCoverage_eq_ok
    (h : ∀ host ∈ hosts, parseRange host.blocks = .ok ((p host).lo, (p host).hi)) {n : Int} (hn : 1 ≤ n) :
    validateChainCoverage hosts n = .ok () ↔ Span.Chain 0 (hosts.map p) n := by
  have hloop := fun f => followHosts_eq_ok h (e := 0) (f := f)
  unfold validateChainCoverage
  by_cases hnil : hosts = []
  · subst hnil
    simp [Span.Chain, show ¬ (0 : Int) = n by omega]
  · simp only [hnil, if_false]
    cases hf : followHosts 0 hosts with
    | error e =>
      have hno : ¬ Span.Chain 0 (hosts.map p) n := fun hc => by simp [(hloop n).2 hc] at hf
      simpa using hno
    | ok f =>
      have hc := (hloop f).1 hf
      by_cases hfn : f = n
      · subst hfn
        simpa using hc
      · have hno : ¬ Span.Chain 0 (hosts.map p) n := fun hc => by
          rw [(hloop n).2 hc] at hf
          exact hfn (Except.ok.inj hf).symm
        simpa [hfn, show n ≠ 0 by omega] using hno

/-- The hosts with a range, in starting order. -/
theorem orderedHosts_eq_ok {manifest : ManifestDict} (hhosts : manifest.hosts = hosts)
    (hne : ∀ host ∈ hosts, (truthy host.blockIndices).isSome)
    (h : ∀ host ∈ hosts, parseRange host.blocks = .ok ((p host).lo, (p host).hi)) :
    orderedHosts manifest = .ok (hosts.insertionSort fun a b => (p a).lo ≤ (p b).lo) := by
  have hfilter : manifest.hosts.filter (fun h => (truthy h.blockIndices).isSome) = hosts := by
    rw [hhosts]
    exact List.filter_eq_self.2 hne
  have hkeyed : hosts.mapM (fun h => do return ((← parseRange h.blocks).1, h)) =
      (.ok (hosts.map fun h => ((p h).lo, h)) : Except PyError _) :=
    mapM_ok fun host hmem => by simp [h host hmem]
  have hsort := List.map_insertionSort (fun a b : ManifestHost => (p a).lo ≤ (p b).lo)
    (fun a b : Int × ManifestHost => a.1 ≤ b.1) (fun h => ((p h).lo, h)) hosts (fun _ _ _ _ => Iff.rfl)
  have hsnd : ((·.2) ∘ fun h => ((p h).lo, h) : ManifestHost → ManifestHost) = id := rfl
  simp only [orderedHosts, hfilter, hkeyed, ok_bind, ← hsort, List.map_map, hsnd, List.map_id]
  rfl

end

/-! ## When the two agree -/

namespace SwarmManifest

variable (m : SwarmManifest)

/-- The spans in starting order. -/
def inOrder : List Span := (m.spans.insertionSort fun a b => a.start ≤ b.start).map (·.span)

/-- The ranges of the manifest's texts are those of its spans. -/
def Parses : Prop := ∀ s ∈ m.spans, parseRange s.blockIndices = .ok (s.start, s.end)

/-- The spans without a layer stand where the conductor looks for them: if the
others tile the model, each is empty, inside the model, and not before the end
of a span listed earlier; and no reversed span at the very end leads back to
`total_layers` from a tiling of something else. -/
structure Placed : Prop where
  inPlace : Span.TiledBy m.inOrder 0 m.totalLayers → Span.InPlace m.inOrder 0 m.totalLayers
  noWayBack : ¬ ∃ l r, m.inOrder = l ++ [r] ∧ r.hi < r.lo ∧ r.hi = m.totalLayers ∧
    Span.TiledBy l 0 r.lo ∧ Span.InPlace l 0 r.lo

variable {m}

/-- `is_complete` is the tiling of the model, whatever the order of the spans. -/
theorem isComplete_iff (hn : 1 ≤ m.totalLayers) : m.isComplete = true ↔ Span.TiledBy m.inOrder 0 m.totalLayers := by
  have hne : ∀ s ∈ m.spans.filter fun s => s.end > s.start, s.span.Inhabited := by
    intro s hs
    simpa [Span.Inhabited, LayerSpan.span] using (List.mem_filter.1 hs).2
  generalize honline : (m.spans.filter fun s => s.end > s.start) = online at hne
  have hperm := List.perm_insertionSort (fun a b : LayerSpan => a.start ≤ b.start)
  have hinhab : ∀ s ∈ (online.insertionSort fun a b => a.start ≤ b.start).map (·.span), s.Inhabited := by
    intro s hs
    obtain ⟨a, ha, rfl⟩ := List.mem_map.1 hs
    exact hne a ((hperm online).mem_iff.1 ha)
  have hsorted : ((online.insertionSort fun a b => a.start ≤ b.start).map (·.span)).Pairwise fun s t => s.lo ≤ t.lo :=
    List.pairwise_map.2 (List.pairwise_insertionSort _ online)
  have htiled : Span.TiledBy (online.map (·.span)) 0 m.totalLayers ↔ Span.TiledBy m.inOrder 0 m.totalLayers := by
    have hfilter : (m.spans.map (·.span)).filter (·.Inhabited) = online.map (·.span) := by
      rw [← honline, List.filter_map]
      rfl
    rw [← hfilter, Span.tiledBy_filter]
    exact ⟨fun h => h.perm ((hperm _).map _).symm, fun h => h.perm ((hperm _).map _)⟩
  rw [← htiled]
  unfold isComplete
  simp only [honline]
  by_cases hnil : online = []
  · subst hnil
    have hno : ¬ Span.TiledBy ([].map LayerSpan.span) 0 m.totalLayers := by
      intro h
      obtain ⟨s, hs, -⟩ := (h.covers 0).2 ⟨le_refl 0, by omega⟩
      simp at hs
    simpa using hno
  · simp only [hnil, if_false, decide_eq_true_eq, follow_eq_some]
    rw [Span.chain_iff_tiledBy hsorted fun s hs => (hinhab s hs).le]
    constructor
    · intro h
      exact h.1.perm ((hperm online).map _)
    · intro h
      exact ⟨h.perm ((hperm online).map _).symm, Span.inPlace_of_inhabited hinhab⟩

/-- How many of the spans have the layer. -/
def owners (m : SwarmManifest) (layer : Int) : ℕ := m.spans.countP fun s => s.start ≤ layer ∧ layer < s.end

/-- **`is_complete` is exact.** It is true when every layer of the model lies in
one span, and no layer after the model in any. -/
theorem isComplete_iff_owners (hn : 1 ≤ m.totalLayers) (hspans : ∀ s ∈ m.spans, 0 ≤ s.start ∧ s.start ≤ s.end) :
    m.isComplete = true ↔ (∀ layer, 0 ≤ layer → layer < m.totalLayers → m.owners layer = 1) ∧
      ∀ layer, m.totalLayers ≤ layer → m.owners layer = 0 := by
  have howners : ∀ layer, m.inOrder.countP (layer ∈ ·) = m.owners layer := by
    intro layer
    rw [inOrder, List.countP_map, (List.perm_insertionSort _ m.spans).countP_eq]
    rfl
  have hneg : ∀ layer < 0, m.owners layer = 0 := by
    intro layer hlt
    refine List.countP_eq_zero.2 fun s hs => ?_
    have := hspans s hs
    simp only [decide_eq_true_eq]
    omega
  rw [isComplete_iff hn, Span.tiledBy_iff_countP (by omega)]
  simp only [howners]
  constructor
  · intro h
    exact ⟨h.1, fun layer hle => h.2 layer (.inr hle)⟩
  · intro h
    refine ⟨h.1, fun layer hout => ?_⟩
    obtain hlt | hle := hout
    · exact hneg layer hlt
    · exact h.2 layer hle

/-- The orchestrator's verdict. -/
theorem validateManifest_iff (hn : 1 ≤ m.totalLayers) :
    m.validateManifest.1 = true ↔ Span.TiledBy m.inOrder 0 m.totalLayers := by
  rw [← isComplete_iff hn]
  unfold validateManifest
  by_cases hnil : m.spans = []
  · simp [hnil, isComplete]
  · by_cases hc : m.isComplete <;> simp [hnil, hc]

end SwarmManifest

/-- The span a host's range names. -/
def ManifestHost.span (h : ManifestHost) : Span := (spanOf h.blocks).getD ⟨0, 0⟩

/-- The loop raises on a host whose range does not parse. -/
theorem parses_of_followHosts {hosts : List ManifestHost} {e f : Int} (h : followHosts e hosts = .ok f) :
    ∀ host ∈ hosts, spanOf host.blocks = .some host.span := by
  induction hosts generalizing e with
  | nil => simp
  | cons host rest ih =>
    obtain ⟨⟨start, «end»⟩, hr, h⟩ := bind_eq_ok.1 h
    have hspan : spanOf host.blocks = .some ⟨start, «end»⟩ := spanOf_of_parseRange hr
    by_cases hstart : start = e
    · simp only [hstart, ne_eq, not_true_eq_false, if_false] at h
      intro host' hmem
      rcases List.mem_cons.1 hmem with rfl | hmem
      · rw [ManifestHost.span, hspan]
        rfl
      · exact ih h host' hmem
    · simp [hstart] at h

/-- The hosts the conductor accepts: a last one, whose end is the model's, and
before it a chain up to where it starts. -/
theorem chain_of_coverage {hosts : List ManifestHost} {n : Int} (h : validateChainCoverage hosts n = .ok ())
    (hn : 1 ≤ n) : ∃ tail, hosts = hosts.dropLast ++ [tail] ∧ hosts.getLast? = .some tail ∧
      Span.Chain 0 (hosts.dropLast.map (·.span)) tail.span.lo ∧ tail.span.hi = n ∧
      ∀ host ∈ hosts, spanOf host.blocks = .some host.span := by
  have hspan : ∀ host ∈ hosts, spanOf host.blocks = .some host.span := by
    unfold validateChainCoverage at h
    split at h
    · simp at h
    · obtain ⟨f, hf, -⟩ := bind_eq_ok.1 h
      exact parses_of_followHosts hf
  have hchain := (validateChainCoverage_eq_ok (p := (·.span))
    (fun host hmem => parseRange_of_spanOf (hspan host hmem)) hn).1 h
  rcases List.eq_nil_or_concat hosts with rfl | ⟨l, tail, rfl⟩
  · simp [Span.Chain] at hchain
    omega
  · rw [List.concat_eq_append] at *
    rw [List.map_append, Span.chain_append] at hchain
    obtain ⟨m, hl, htail, hend⟩ := hchain
    refine ⟨tail, by simp, by simp, ?_, hend, hspan⟩
    rw [List.dropLast_concat, show tail.span.lo = m from htail]
    exact hl

/-- The hosts are in starting order. -/
theorem orderedHosts_sorted {manifest : ManifestDict} {hosts : List ManifestHost} (h : orderedHosts manifest = .ok hosts) :
    hosts.Pairwise fun a b => a.span.lo ≤ b.span.lo := by
  obtain ⟨keyed, hkeyed, h⟩ := bind_eq_ok.1 h
  obtain rfl := Except.ok.inj h
  have hkey : ∀ p ∈ keyed, p.1 = p.2.span.lo := by
    intro p hp
    obtain ⟨host, -, hhost⟩ := exists_of_mem_mapM hkeyed hp
    obtain ⟨r, hr, hp⟩ := bind_eq_ok.1 hhost
    obtain rfl := Except.ok.inj hp
    have hspan : spanOf host.blocks = .some ⟨r.1, r.2⟩ := spanOf_of_parseRange hr
    simp [ManifestHost.span, hspan]
  have hsorted := List.pairwise_insertionSort (fun a b : Int × ManifestHost => a.1 ≤ b.1) keyed
  refine List.pairwise_map.2 (hsorted.imp_of_mem fun {p q} hp hq hle => ?_)
  have hmem := (List.perm_insertionSort (fun a b : Int × ManifestHost => a.1 ≤ b.1) keyed).mem_iff (a := p)
  rw [← hkey p (hmem.1 hp), ← hkey q ((List.perm_insertionSort _ keyed).mem_iff.1 hq)]
  exact hle

/-- The hosts upstream: in starting order, only the last range can be reversed. -/
theorem upstream_bounds {manifest : ManifestDict} {n : Int} (hn : 1 ≤ n) {hosts : List ManifestHost} (hhosts : orderedHosts manifest = .ok hosts)
    (hcoverage : validateChainCoverage hosts n = .ok ()) :
    ∀ up ∈ hosts.dropLast, 0 ≤ up.span.lo ∧ up.span.lo ≤ up.span.hi := by
  obtain ⟨tail, hsplit, -, hchain, -, -⟩ := chain_of_coverage hcoverage hn
  have hsorted : (hosts.map (·.span)).Pairwise fun s t => s.lo ≤ t.lo := List.pairwise_map.2 (orderedHosts_sorted hhosts)
  rw [hsplit, List.map_append, List.map_singleton] at hsorted
  have hwhole : Span.Chain 0 (hosts.dropLast.map (·.span) ++ [tail.span]) tail.span.hi :=
    Span.chain_append.2 ⟨_, hchain, rfl, rfl⟩
  have hle := hwhole.le_of_append hsorted
  intro up hmem
  have hup : up.span ∈ hosts.dropLast.map (·.span) := List.mem_map_of_mem hmem
  exact ⟨((hchain.bounds hle).2 _ hup).1, hle _ hup⟩

/-- The conductor accepts the manifest the orchestrator sends when its spans,
in starting order, are a chain. -/
theorem conductor_iff {m : SwarmManifest} {gw : Option String} (hn : 1 ≤ m.totalLayers) (hparse : m.Parses) :
    (orderedHosts (m.toDict gw) >>= (validateChainCoverage · m.totalLayers)) = .ok () ↔
      Span.Chain 0 m.inOrder m.totalLayers := by
  obtain ⟨host, hhosts, hspan, hblocks⟩ : ∃ host : LayerSpan → ManifestHost, (m.toDict gw).hosts = m.spans.map host ∧
      (∀ s ∈ m.spans, (host s).span = s.span) ∧ ∀ s, (host s).blockIndices = .some s.blockIndices := by
    refine ⟨_, rfl, fun s hs => ?_, fun s => rfl⟩
    simp [ManifestHost.span, ManifestHost.blocks, spanOf_of_parseRange (hparse s hs), LayerSpan.span]
  have hranges : ∀ h ∈ m.spans.map host, parseRange h.blocks = .ok (h.span.lo, h.span.hi) := by
    intro h hmem
    obtain ⟨s, hs, rfl⟩ := List.mem_map.1 hmem
    rw [ManifestHost.blocks, hblocks, hspan s hs]
    exact hparse s hs
  have hnonempty : ∀ h ∈ m.spans.map host, (truthy h.blockIndices).isSome := by
    intro h hmem
    obtain ⟨s, hs, rfl⟩ := List.mem_map.1 hmem
    have hs := hparse s hs
    rw [hblocks]
    by_cases he : s.blockIndices = ""
    · rw [he] at hs
      simp [parseRange, PyText.split] at hs
    · simp [truthy, he]
  have hsort := List.map_insertionSort (fun a b : LayerSpan => a.start ≤ b.start)
    (fun a b : ManifestHost => a.span.lo ≤ b.span.lo) host m.spans
    (fun a ha b hb => by rw [hspan a ha, hspan b hb]; exact Iff.rfl)
  rw [orderedHosts_eq_ok hhosts hnonempty hranges, ok_bind, ← hsort]
  have hmem : ∀ s ∈ m.spans.insertionSort fun a b => a.start ≤ b.start, s ∈ m.spans :=
    fun s => (List.perm_insertionSort _ m.spans).mem_iff.1
  have hinOrder : ((m.spans.insertionSort fun a b => a.start ≤ b.start).map host).map (·.span) = m.inOrder := by
    rw [List.map_map]
    exact List.map_congr_left fun s hs => hspan s (hmem s hs)
  rw [validateChainCoverage_eq_ok (p := (·.span)) ?_ hn, hinOrder]
  intro h hsorted
  obtain ⟨s, hs, rfl⟩ := List.mem_map.1 hsorted
  exact hranges _ (List.mem_map_of_mem (hmem s hs))

/-- `build_manifest` makes such a manifest, from any registry. -/
theorem buildManifest_parses {reg : SwarmRegistry} {m : SwarmManifest} (h : buildManifest reg = .ok m) : m.Parses := by
  simp only [buildManifest, bind_eq_ok, pure_eq_ok] at h
  obtain ⟨spans, hspans, hm⟩ := h
  obtain rfl := Except.ok.inj hm
  intro s hs
  have hmem := (List.perm_insertionSort _ spans).mem_iff.1 hs
  obtain ⟨host, -, hhost⟩ := exists_of_mem_mapM hspans hmem
  obtain ⟨r, hr, hs⟩ := bind_eq_ok.1 hhost
  obtain rfl := Except.ok.inj hs
  exact hr

/-- It makes one where every online host's range parses. -/
theorem exists_buildManifest {reg : SwarmRegistry} : (∃ m, buildManifest reg = .ok m) ↔ reg.Readable := by
  have hspans : (∃ m, buildManifest reg = .ok m) ↔
      ∀ h ∈ reg.hosts.values.filter (·.status = .online), ∃ p, parseRange h.blockIndices = .ok p := by
    simp only [buildManifest, bind_eq_ok, pure_eq_ok, Except.ok.injEq]
    rw [exists_comm]
    simp only [exists_and_left, exists_eq', and_true, exists_mapM_ok, bind_eq_ok, Except.ok.injEq]
    exact forall₂_congr fun h _ => by simp
  rw [hspans]
  constructor
  · intro hall k h hk honline
    obtain ⟨⟨start, «end»⟩, hp⟩ := hall h (List.mem_filter.2 ⟨Dict.mem_values.2 ⟨k, hk⟩, by simpa using honline⟩)
    exact ⟨_, spanOf_of_parseRange hp⟩
  · intro hall h hh
    obtain ⟨hmem, honline⟩ := List.mem_filter.1 hh
    obtain ⟨k, hk⟩ := Dict.mem_values.1 hmem
    obtain ⟨s, hs⟩ := hall k h hk (by simpa using honline)
    exact ⟨_, parseRange_of_spanOf hs⟩

/-- **The two checks agree** on a manifest exactly when its spans without a
layer are in place. -/
theorem checks_agree_iff (m : SwarmManifest) (gw : Option String) (hn : 1 ≤ m.totalLayers) (hparse : m.Parses) :
    (m.validateManifest.1 = true ↔
      (orderedHosts (m.toDict gw) >>= (validateChainCoverage · m.totalLayers)) = .ok ()) ↔ m.Placed := by
  have hsorted : m.inOrder.Pairwise fun s t => s.lo ≤ t.lo :=
    List.pairwise_map.2 (List.pairwise_insertionSort _ m.spans)
  rw [SwarmManifest.validateManifest_iff hn, conductor_iff hn hparse, Span.chain_iff hsorted]
  constructor
  · intro h
    -- A way back to `total_layers` is no tiling of the model.
    have hnot : Span.TiledBy m.inOrder 0 m.totalLayers → ¬ ∃ l r, m.inOrder = l ++ [r] ∧ r.hi < r.lo ∧
        r.hi = m.totalLayers ∧ Span.TiledBy l 0 r.lo ∧ Span.InPlace l 0 r.lo := by
      intro ht hback
      obtain ⟨l, r, hl, hrev, hr, hlt, -⟩ := hback
      rw [hl, Span.tiledBy_append_of_not_inhabited (by simp only [Span.Inhabited]; omega)] at ht
      have := ht.end_unique hlt
      omega
    refine ⟨fun ht => ?_, fun hback => ?_⟩
    · rcases h.1 ht with hp | hback
      · exact hp.2
      · exact absurd hback (hnot ht)
    · exact hnot (h.2 (.inr hback)) hback
  · intro h
    constructor
    · intro ht
      exact .inl ⟨ht, h.inPlace ht⟩
    · intro hc
      rcases hc with hp | hback
      · exact hp.1
      · exact absurd hback h.noWayBack

/-! ### A host that lost its layers to a heartbeat -/

/-- A registry's host with these layers. -/
def onlineHost (hostId : String) (start «end» : Int) : HostRecord where
  hostId
  role := .contributor
  model := "m"
  blockIndices := formatRange start «end»
  layersHosted := «end» - start
  publicIp := .none
  shardManagerUrl := "http://" ++ hostId
  status := .online
  joinedAt := 0
  lastHeartbeat := 0

/-- The host's entry in the manifest. -/
def onlineSpan (hostId : String) (start «end» : Int) : LayerSpan where
  hostId
  role := .contributor
  blockIndices := formatRange start «end»
  start
  «end»
  shardManagerUrl := "http://" ++ hostId

/-- Two hosts hold the model, a third nothing. -/
def emptyTail : SwarmManifest where
  model := "m"
  totalLayers := 8
  spans := [onlineSpan "a" 0 4, onlineSpan "b" 4 8, onlineSpan "c" 4 4]

def emptyTailRegistry : SwarmRegistry where
  model := "m"
  totalLayers := 8
  hosts := ((Dict.empty.set "a" (onlineHost "a" 0 4)).set "b" (onlineHost "b" 4 8)).set "c" (onlineHost "c" 4 4)

/-- The orchestrator routes by this manifest, the conductor refuses it. -/
theorem checks_disagree_emptyTail :
    buildManifest emptyTailRegistry = .ok emptyTail ∧ emptyTail.validateManifest = (true, "ok") ∧
      (orderedHosts (emptyTail.toDict .none) >>= (validateChainCoverage · emptyTail.totalLayers)) =
        .error (.runtimeError "layer gap before c: expected start=8, got 4") :=
  ⟨rfl, by decide +kernel, rfl⟩

theorem checks_agree_iff_emptyTail :
    (emptyTail.validateManifest.1 = true ↔
      (orderedHosts (emptyTail.toDict .none) >>= (validateChainCoverage · emptyTail.totalLayers)) = .ok ()) ↔
        emptyTail.Placed :=
  checks_agree_iff emptyTail .none (by decide) (@buildManifest_parses emptyTailRegistry _ rfl)

/-- Each of its layers has one owner, and the span without a layer owns none. -/
theorem isComplete_iff_owners_emptyTail : emptyTail.isComplete = true ↔
    (∀ layer, 0 ≤ layer → layer < 8 → emptyTail.owners layer = 1) ∧ ∀ layer, 8 ≤ layer → emptyTail.owners layer = 0 :=
  SwarmManifest.isComplete_iff_owners (m := emptyTail) (by decide) (by decide)

/-- And the other way round: a reversed range leads back to `total_layers`. -/
example :
    let m : SwarmManifest := { emptyTail with totalLayers := 4, spans := [onlineSpan "a" 0 8, onlineSpan "b" 8 4] }
    m.validateManifest.1 = false ∧
      (orderedHosts (m.toDict .none) >>= (validateChainCoverage · m.totalLayers)) = .ok () :=
  ⟨by decide +kernel, rfl⟩

end Blitzwing
