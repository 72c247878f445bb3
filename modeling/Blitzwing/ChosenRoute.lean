/-
The route the orchestrator chooses, and the one the conductor takes.

`pick_http_inference_host` looks at the tail's URL, `host_http_url` at every
other host's, each with a `_is_public_http_url` of its own. Over a complete
layer map the tail is the conductor's last host, and the conductor's checks pass
exactly when every other contributor's URL is public to it (`works_iff`).
-/
import Blitzwing.OneMachine

namespace Blitzwing

/-! ## The orchestrator's choice -/

/-- `swarm_map._is_public_http_url` -/
def SwarmMap.isPublicHttpUrl (url : String) : Bool :=
  if url = "" then false
  else
    let lower := url.toLower
    if PyText.startsWith lower "http://127." || PyText.startsWith lower "http://localhost" then false
    else if PyText.startsWith url "http://172." || PyText.startsWith url "http://192.168." then false
    else PyText.startsWith url "http://" || PyText.startsWith url "https://"

/-- The online contributor holding the highest block range. -/
def SwarmManifest.tailContributor (m : SwarmManifest) : Option LayerSpan :=
  (m.spans.filter (·.role = .contributor)).maxOn? (·.end)

/-- Route full inference to the tail contributor when it has a public HTTP endpoint. -/
def pickHttpInferenceHost (m : SwarmManifest) : Option LayerSpan :=
  match m.tailContributor with
  | .none => .none
  | .some tail => if SwarmMap.isPublicHttpUrl tail.shardManagerUrl = false then .none else .some tail

/-- What the conductor refuses and the orchestrator does not. -/
theorem HttpChain.isPublicHttpUrl_eq (url : String) :
    isPublicHttpUrl url = (SwarmMap.isPublicHttpUrl url && !PyText.startsWith url "http://10.") := by
  unfold isPublicHttpUrl SwarmMap.isPublicHttpUrl
  repeat' split
  all_goals simp_all

/-! ## The tail is last -/

variable {m : SwarmManifest} {tail : LayerSpan}

theorem tailContributor_mem (h : m.tailContributor = .some tail) : tail ∈ m.spans ∧ tail.role = .contributor := by
  simpa using List.maxOn?_mem h

theorem le_tailContributor (h : m.tailContributor = .some tail) {s : LayerSpan} (hs : s ∈ m.spans)
    (hrole : s.role = .contributor) : s.end ≤ tail.end := by
  have hmem : s ∈ m.spans.filter (·.role = .contributor) := List.mem_filter.2 ⟨hs, by simpa using hrole⟩
  have hle := List.le_apply_get_maxOn?_of_mem (f := LayerSpan.end) hmem
  unfold SwarmManifest.tailContributor at h
  simpa only [h, Option.get_some] using hle

theorem pick_eq_some (h : pickHttpInferenceHost m = .some tail) : m.tailContributor = .some tail := by
  unfold pickHttpInferenceHost at h
  split at h
  · cases h
  · next t ht =>
    split at h
    · cases h
    · rwa [← Option.some.inj h]

/-- The spans in starting order. -/
def SwarmManifest.sorted (m : SwarmManifest) : List LayerSpan := m.spans.insertionSort fun a b => a.start ≤ b.start

theorem mem_sorted {s : LayerSpan} : s ∈ m.sorted ↔ s ∈ m.spans := (List.perm_insertionSort _ m.spans).mem_iff

/-- With no span empty, a complete layer map is a chain. -/
theorem chain_of_complete (hvalid : m.validateManifest.1 = true) (hne : ∀ s ∈ m.spans, s.start < s.end) :
    Span.Chain 0 (m.sorted.map (·.span)) m.totalLayers := by
  unfold SwarmManifest.validateManifest at hvalid
  split at hvalid
  · simp at hvalid
  · split at hvalid
    · simp at hvalid
    · next hc =>
      rw [Bool.not_eq_false] at hc
      have hall : m.spans.filter (fun s => s.end > s.start) = m.spans :=
        List.filter_eq_self.2 fun s hs => by simpa using hne s hs
      unfold SwarmManifest.isComplete at hc
      simp only [hall] at hc
      split at hc
      · cases hc
      · exact follow_eq_some.1 (of_decide_eq_true hc)

theorem inhabited_sorted (hne : ∀ s ∈ m.spans, s.start < s.end) : ∀ s ∈ m.sorted.map (·.span), s.lo ≤ s.hi := by
  intro s hs
  obtain ⟨a, ha, rfl⟩ := List.mem_map.1 hs
  exact (hne a (mem_sorted.1 ha)).le

/-- **The tail is last** in starting order, and the others end before it starts. -/
theorem sorted_eq_append (hvalid : m.validateManifest.1 = true) (hne : ∀ s ∈ m.spans, s.start < s.end)
    (hmother : ∀ s ∈ m.spans, s.role = .mother → 0 ∈ s.span) (htail : m.tailContributor = .some tail) :
    ∃ upstream, m.sorted = upstream ++ [tail] ∧ 1 ≤ m.totalLayers ∧ ∀ s ∈ upstream, s.end ≤ tail.start := by
  have hchain := chain_of_complete hvalid hne
  obtain ⟨hmem, hrole⟩ := tailContributor_mem htail
  have hbounds := hchain.bounds (inhabited_sorted hne)
  obtain hnil | ⟨upstream, last, hsorted⟩ := List.eq_nil_or_concat m.sorted
  · have := mem_sorted.2 hmem
    simp [hnil] at this
  · rw [List.concat_eq_append] at hsorted
    have hlast : last ∈ m.spans := mem_sorted.1 (by simp [hsorted])
    rw [hsorted, List.map_append, Span.chain_append] at hchain
    obtain ⟨mid, hup, hstart, hend⟩ := hchain
    have hbefore : ∀ s ∈ upstream, 0 ≤ s.start ∧ s.end ≤ last.start := by
      intro s hs
      have hle : ∀ s ∈ upstream.map (·.span), s.lo ≤ s.hi := fun s hs => by
        refine inhabited_sorted hne s ?_
        rw [hsorted, List.map_append]
        exact List.mem_append_left _ hs
      have := (hup.bounds hle).2 s.span (List.mem_map_of_mem hs)
      rw [← hstart] at this
      exact this
    have hlen := hne last hlast
    have hnonneg : 0 ≤ last.start := (hbounds.2 last.span (List.mem_map_of_mem (mem_sorted.2 hlast))).1
    have htop : last.end = m.totalLayers := hend
    -- If the mother were last there would be nobody before it, and no contributor.
    have hcontributor : last.role = .contributor := by
      cases hr : last.role with
      | contributor => rfl
      | mother =>
        have hzero : last.start ≤ 0 := (hmother last hlast hr).1
        have htailmem := mem_sorted.2 hmem
        rw [hsorted, List.mem_append, List.mem_singleton] at htailmem
        obtain htailmem | rfl := htailmem
        · have := hbefore tail htailmem
          have := hne tail hmem
          omega
        · rw [hr] at hrole
          cases hrole
    have hlargest := le_tailContributor htail hlast hcontributor
    have htailmem := mem_sorted.2 hmem
    rw [hsorted, List.mem_append, List.mem_singleton] at htailmem
    obtain htailmem | rfl := htailmem
    · have := hbefore tail htailmem
      omega
    · exact ⟨upstream, hsorted, by omega, fun s hs => (hbefore s hs).2⟩

/-! ## The conductor's route -/

/-- A span's entry in the manifest that is sent. -/
def LayerSpan.entry (motherPublicGatewayUrl : Option String) (s : LayerSpan) : ManifestHost :=
  let motherPublic := PyText.rstrip (PyText.strip (motherPublicGatewayUrl.getD "")) '/'
  { hostId := .some s.hostId
    role := .some s.role.text
    blockIndices := .some s.blockIndices
    layersHosted := .some (s.end - s.start)
    shardManagerUrl := .some (if s.role = .mother ∧ motherPublic ≠ "" then motherPublic else s.shardManagerUrl)
    peerMultiaddr := s.peerMultiaddr
    petalsRunning := s.petalsRunning }

variable {gw : Option String}

theorem toDict_hosts : (m.toDict gw).hosts = m.spans.map (·.entry gw) := rfl

theorem entry_span {s : LayerSpan} (h : parseRange s.blockIndices = .ok (s.start, s.end)) : (s.entry gw).span = s.span := by
  have hblocks : (s.entry gw).blocks = s.blockIndices := rfl
  rw [ManifestHost.span, hblocks, spanOf_of_parseRange h]
  rfl

theorem orderedHosts_toDict (hparse : m.Parses) : orderedHosts (m.toDict gw) = .ok (m.sorted.map (·.entry gw)) := by
  have hranges : ∀ h ∈ m.spans.map (·.entry gw), parseRange h.blocks = .ok (h.span.lo, h.span.hi) := by
    intro h hmem
    obtain ⟨s, hs, rfl⟩ := List.mem_map.1 hmem
    rw [entry_span (hparse s hs)]
    exact hparse s hs
  have hnonempty : ∀ h ∈ m.spans.map (·.entry gw), (truthy h.blockIndices).isSome := by
    intro h hmem
    obtain ⟨s, hs, rfl⟩ := List.mem_map.1 hmem
    have hs := hparse s hs
    by_cases he : s.blockIndices = ""
    · rw [he] at hs
      simp [parseRange, PyText.split] at hs
    · simp [LayerSpan.entry, truthy, he]
  have hsort := List.map_insertionSort (fun a b : LayerSpan => a.start ≤ b.start)
    (fun a b : ManifestHost => a.span.lo ≤ b.span.lo) (·.entry gw) m.spans
    (fun a ha b hb => by rw [entry_span (hparse a ha), entry_span (hparse b hb)]; exact Iff.rfl)
  rw [orderedHosts_eq_ok toDict_hosts hnonempty hranges, ← hsort]
  rfl

theorem coverage_toDict (hparse : m.Parses) (hn : 1 ≤ m.totalLayers)
    (hchain : Span.Chain 0 (m.sorted.map (·.span)) m.totalLayers) :
    validateChainCoverage (m.sorted.map (·.entry gw)) m.totalLayers = .ok () := by
  have hspans : (m.sorted.map (·.entry gw)).map (·.span) = m.sorted.map (·.span) := by
    rw [List.map_map]
    exact List.map_congr_left fun s hs => entry_span (hparse s (mem_sorted.1 hs))
  refine (validateChainCoverage_eq_ok (p := (·.span)) ?_ hn).2 (hspans ▸ hchain)
  intro h hmem
  obtain ⟨s, hs, rfl⟩ := List.mem_map.1 hmem
  have hs := hparse s (mem_sorted.1 hs)
  rw [entry_span hs]
  exact hs

namespace HttpChain

variable {H S G P : Type} [Zero S] [One S] [Mul S] [Div S] [LT S] [LE S] [DecidableLT S] [DecidableLE S]

/-- The conductor on the tail takes the route: the tail is its last host, its
checks of the layer map pass, and it has a URL for each host upstream. -/
def Works (node : Node H S G P) (chain : HttpChainInference) (manifest : ManifestDict) (tail : LayerSpan)
    (messages : List MessageDict) (args : SamplingArgs S) (gen : G) : Prop :=
  ∃ hosts last, orderedHosts manifest = .ok hosts ∧ hosts.getLast? = .some last ∧
    last.hostId = .some tail.hostId ∧ last.blockIndices = .some tail.blockIndices ∧
    generate node chain messages args (.some manifest) gen =
      generateOver node chain.runner manifest hosts.dropLast messages args gen ∧
    ∀ up ∈ hosts.dropLast, ∃ url, hostHttpUrl node.env up manifest = .ok url

/-- The conductor accepts the mother, and a contributor whose URL is public to it. -/
theorem hostHttpUrl_ok_iff {env : ChainEnv} {manifest : ManifestDict} {s : LayerSpan}
    (hmother : ∃ url, resolveMotherShardUrl env manifest = .ok url) :
    (∃ url, hostHttpUrl env (s.entry gw) manifest = .ok url) ↔
      (s.role = .contributor → isPublicHttpUrl (PyText.rstrip s.shardManagerUrl '/') = true) := by
  cases hr : s.role with
  | mother =>
    have hrole : (s.entry gw).role = .some "mother" := by simp [LayerSpan.entry, hr, Role.text]
    rw [hostHttpUrl, if_pos hrole]
    simpa using hmother
  | contributor =>
    have hrole : (s.entry gw).role ≠ .some "mother" := by simp [LayerSpan.entry, hr, Role.text]
    have hurl : (s.entry gw).shardManagerUrl.getD "" = s.shardManagerUrl := by simp [LayerSpan.entry, hr]
    rw [hostHttpUrl, if_neg hrole]
    simp only [hurl]
    cases isPublicHttpUrl (PyText.rstrip s.shardManagerUrl '/') <;> simp

/-- **The chosen route works** exactly when every contributor before the tail
has a URL that is public to the conductor. -/
theorem works_iff {reg : SwarmRegistry} (hm : buildManifest reg = .ok m) (hvalid : m.validateManifest.1 = true)
    (hne : ∀ s ∈ m.spans, s.start < s.end) (hmother : ∀ s ∈ m.spans, s.role = .mother → 0 ∈ s.span)
    (hpick : pickHttpInferenceHost m = .some tail) {node : Node H S G P} {chain : HttpChainInference}
    (hlocal : parseRange chain.localBlockIndices = .ok (tail.start, tail.end))
    (hurl : ∃ url, resolveMotherShardUrl node.env (m.toDict gw) = .ok url) (messages : List MessageDict)
    (args : SamplingArgs S) (gen : G) :
    Works node chain (m.toDict gw) tail messages args gen ↔
      ∀ s ∈ m.spans, s ≠ tail → s.role = .contributor →
        isPublicHttpUrl (PyText.rstrip s.shardManagerUrl '/') = true := by
  have hparse := buildManifest_parses hm
  obtain ⟨upstream, hsorted, hn, hbefore⟩ := sorted_eq_append hvalid hne hmother (pick_eq_some hpick)
  have hhosts : orderedHosts (m.toDict gw) = .ok (upstream.map (·.entry gw) ++ [tail.entry gw]) := by
    rw [orderedHosts_toDict hparse, hsorted, List.map_append, List.map_singleton]
  have hcoverage : validateChainCoverage (upstream.map (·.entry gw) ++ [tail.entry gw]) m.totalLayers = .ok () := by
    have hwhole : validateChainCoverage (m.sorted.map (·.entry gw)) m.totalLayers = .ok () :=
      coverage_toDict hparse hn (chain_of_complete hvalid hne)
    rwa [hsorted, List.map_append, List.map_singleton] at hwhole
  have htail : tail ∈ m.spans := mem_sorted.1 (by simp [hsorted])
  have hup : ∀ s, s ∈ upstream ↔ s ∈ m.spans ∧ s ≠ tail := by
    intro s
    rw [← mem_sorted, hsorted, List.mem_append, List.mem_singleton]
    constructor
    · intro hs
      refine ⟨.inl hs, fun he => ?_⟩
      have := hbefore s hs
      have := hne tail htail
      rw [he] at *
      omega
    · intro hs
      exact hs.1.resolve_right hs.2
  have hspan : (tail.entry gw).span = ⟨tail.start, tail.end⟩ := entry_span (hparse tail htail)
  have hblocks : spanOf (tail.entry gw).blocks = .some (tail.entry gw).span := by
    rw [hspan]
    exact spanOf_of_parseRange (hparse tail htail)
  have hlocal' : spanOf chain.localBlockIndices = .some (tail.entry gw).span := by
    rw [hspan]
    exact spanOf_of_parseRange hlocal
  have hgenerate : generate node chain messages args (.some (m.toDict gw)) gen =
      generateOver node chain.runner (m.toDict gw) _ messages args gen :=
    generate_of_accepted hhosts hcoverage List.getLast?_concat hblocks hlocal' messages args gen
  constructor
  · intro h s hs hne' hrole
    obtain ⟨hosts, -, hosts_eq, -, -, -, -, haccepts⟩ := h
    obtain rfl := Except.ok.inj (hhosts.symm.trans hosts_eq)
    rw [List.dropLast_concat] at haccepts
    exact (hostHttpUrl_ok_iff hurl).1 (haccepts _ (List.mem_map_of_mem ((hup s).2 ⟨hs, hne'⟩))) hrole
  · intro h
    refine ⟨_, tail.entry gw, hhosts, List.getLast?_concat, rfl, rfl, hgenerate, ?_⟩
    rw [List.dropLast_concat]
    intro up hmem
    obtain ⟨s, hs, rfl⟩ := List.mem_map.1 hmem
    obtain ⟨hs, hne'⟩ := (hup s).1 hs
    exact (hostHttpUrl_ok_iff hurl).2 (h s hs hne')

/-! ## A host in the middle -/

/-- A mother, and two contributors of which the last is public. -/
def chainOf (middleUrl : String) : SwarmRegistry where
  model := "m"
  totalLayers := 12
  hosts := ((Dict.empty.set "mother" { onlineHost "mother" 0 4 with
      role := .mother, shardManagerUrl := "http://203.0.113.5:8000" }).set "a" { onlineHost "a" 4 8 with
      shardManagerUrl := middleUrl }).set "b" { onlineHost "b" 8 12 with shardManagerUrl := "https://b.example" }

def chainManifest (middleUrl : String) : SwarmManifest where
  model := "m"
  totalLayers := 12
  spans := [{ onlineSpan "mother" 0 4 with role := .mother, shardManagerUrl := "http://203.0.113.5:8000" },
    { onlineSpan "a" 4 8 with shardManagerUrl := middleUrl },
    { onlineSpan "b" 8 12 with shardManagerUrl := "https://b.example" }]

def lastSpan : LayerSpan := { onlineSpan "b" 8 12 with shardManagerUrl := "https://b.example" }

theorem works_iff_public : Works traceNode ⟨⟨8, 12⟩, "8:12"⟩ ((chainManifest "http://203.0.113.7:8003").toDict .none)
    lastSpan [] ⟨1, 0, 1⟩ () ↔ ∀ s ∈ (chainManifest "http://203.0.113.7:8003").spans, s ≠ lastSpan →
      s.role = .contributor → isPublicHttpUrl (PyText.rstrip s.shardManagerUrl '/') = true :=
  works_iff (show buildManifest (chainOf "http://203.0.113.7:8003") = .ok _ from rfl) (by decide +kernel) (by decide) (by decide) (by decide +kernel)
    rfl ⟨"http://203.0.113.5:8000", by decide +kernel⟩ [] ⟨1, 0, 1⟩ ()

/-- The orchestrator hands a request to `b`, and the conductor there refuses `a`. -/
theorem refused_in_the_middle :
    buildManifest (chainOf "http://10.0.0.7:8003") = .ok (chainManifest "http://10.0.0.7:8003") ∧
      (chainManifest "http://10.0.0.7:8003").validateManifest = (true, "ok") ∧
      pickHttpInferenceHost (chainManifest "http://10.0.0.7:8003") = .some lastSpan ∧
      resolveMotherShardUrl traceNode.env ((chainManifest "http://10.0.0.7:8003").toDict .none) =
        .ok "http://203.0.113.5:8000" ∧
      ¬ Works traceNode ⟨⟨8, 12⟩, "8:12"⟩ ((chainManifest "http://10.0.0.7:8003").toDict .none) lastSpan [] ⟨1, 0, 1⟩ () := by
  refine ⟨rfl, by decide +kernel, by decide +kernel, by decide +kernel, ?_⟩
  intro h
  obtain ⟨hosts, last, hosts_eq, -, -, -, -, haccepts⟩ := h
  have hchecked : ((orderedHosts ((chainManifest "http://10.0.0.7:8003").toDict .none)).toOption.all fun hosts =>
      hosts.dropLast.any fun up => !(hostHttpUrl traceNode.env up
        ((chainManifest "http://10.0.0.7:8003").toDict .none)).toBool) = true := by decide +kernel
  rw [hosts_eq] at hchecked
  obtain ⟨up, hup, hrefused⟩ := List.any_eq_true.1 hchecked
  obtain ⟨url, hurl⟩ := haccepts up hup
  simp [hurl, Except.toBool] at hrefused

end HttpChain

end Blitzwing
