/-
The route of least delay: how inference traffic finds its servers.

The graph has a node for each server and block boundary it may be at. Its
edges enter a server at the first block, compute one block, change servers
where the first one's span ends, and leave at the last block, each at its
expected delay. The route is read off a shortest path, found by a package.

Paths of the graph and routes are the same thing (`Priced.walk`,
`exists_priced_of_walk`), so the path found is a route of least delay among
those that use each server to its end.
-/
import Blitzwing.Lib.Walks
import Blitzwing.Petals.Routing
import Mathlib.Algebra.Order.Ring.NNRat

namespace Blitzwing

namespace Petals

variable {Peer : Type}

inductive Node (Peer : Type)
  | start
  | stop
  | atBlock (p : Peer) (b : Int)
deriving DecidableEq

/-- `_rtt_to_delay` -/
def rttToDelay : Option Rtt → ℚ≥0
  | .none => 15 / 100
  | .some .inf => 5
  | .some (.seconds s) => min (s / 2) 5

def overheadDelay : ℚ≥0 := 18 / 1000

def allocDelay : ℚ≥0 := 10

/-- `_has_cache_for`: room for the keys and values of all the server's blocks. -/
def hasCacheFor (span : RemoteSpanInfo Peer) (cacheTokensNeeded : Option Nat) : Bool :=
  match cacheTokensNeeded, span.serverInfo.cacheTokensLeft with
  | .some needed, .some left => decide ((needed : Int) * 2 * span.length ≤ left)
  | _, _ => true

/-- The delay of going to a server, whose round-trip time is given. -/
def arrivalDelay (cacheTokensNeeded : Option Nat) (span : RemoteSpanInfo Peer) (rtt : Option Rtt) : ℚ≥0 :=
  rttToDelay rtt + overheadDelay + if hasCacheFor span cacheTokensNeeded then 0 else allocDelay

/-- The round-trip time one server published for another. -/
def pingBetween [DecidableEq Peer] (cur next : RemoteSpanInfo Peer) : Option Rtt :=
  cur.serverInfo.nextPings.bind (·.lookup next.peerId)

/-- `inference_rps`, or what is taken where none is published. -/
def inferenceRps (span : RemoteSpanInfo Peer) : ℚ≥0 := span.serverInfo.inferenceRps.getD 300

/-- `1.0 / inference_rps`, which raises at zero. -/
def computeDelay (span : RemoteSpanInfo Peer) : Except RoutingError ℚ≥0 :=
  if inferenceRps span = 0 then .error .zeroDivision else .ok (1 / inferenceRps span)

abbrev EdgeList (Peer : Type) := List ((Node Peer × Node Peer) × ℚ≥0)

section build

variable [DecidableEq Peer] (t : SortedSpans Peer) (rtts : Peer → Option Rtt) (cacheTokensNeeded : Option Nat)
  (startIndex endIndex : Int)

/-- The blocks of the range no server has. -/
def missingBlocksIn : Except RoutingError (List Int) :=
  (range startIndex endIndex).filterM fun b => (t.spansAt b).map (·.isEmpty)

/-- Client to server -/
def enterEdges : Except RoutingError (EdgeList Peer) :=
  (t.spansAt startIndex).map fun spans => spans.map fun span =>
    ((.start, .atBlock span.peerId startIndex), arrivalDelay cacheTokensNeeded span (rtts span.peerId))

/-- Server to client -/
def leaveEdges : Except RoutingError (EdgeList Peer) :=
  (t.spansAt (endIndex - 1)).map fun spans => spans.map fun span =>
    ((.atBlock span.peerId endIndex, .stop), rttToDelay (rtts span.peerId))

/-- Server to server, at one block boundary: a server is used to its end. -/
def switchEdges (blockIdx : Int) : Except RoutingError (EdgeList Peer) := do
  let curSpans ← t.spansAt (blockIdx - 1)
  let nextSpans ← t.spansAt blockIdx
  return (curSpans.filter (·.stop = blockIdx)).flatMap fun cur => nextSpans.map fun next =>
    ((.atBlock cur.peerId blockIdx, .atBlock next.peerId blockIdx),
      arrivalDelay cacheTokensNeeded next (pingBetween cur next))

/-- The blocks of one server within the range. -/
def computeEdges (span : RemoteSpanInfo Peer) : Except RoutingError (EdgeList Peer) :=
  (range (max span.start startIndex) (min span.stop endIndex)).mapM fun b =>
    (computeDelay span).map fun delay => ((.atBlock span.peerId b, .atBlock span.peerId (b + 1)), delay)

/-- `_build_inference_graph` -/
def buildInferenceGraph : Except RoutingError (Graph (Node Peer) ℚ≥0) := do
  let missing ← missingBlocksIn t startIndex endIndex
  if missing ≠ [] then throw (.missingBlocks missing)
  let entering ← enterEdges t rtts cacheTokensNeeded startIndex
  let leaving ← leaveEdges t rtts endIndex
  let switching ← (range (startIndex + 1) endIndex).mapM (switchEdges t cacheTokensNeeded)
  let computing ← t.byPriority.mapM (computeEdges startIndex endIndex)
  return Graph.addEdges (entering ++ leaving ++ switching.flatten ++ computing.flatten)

/-- The records of the servers of the range; the last one listed counts. -/
def serverInfosIn : Except RoutingError (Dict Peer (ServerInfo Peer)) := do
  let spans ← (range startIndex endIndex).mapM t.spansAt
  return spans.flatten.foldl (fun infos span => infos.set span.peerId span.serverInfo) .empty

/-- One node of the path: a new server, or the next block at the last one.
`start` and `stop` are no pairs, and a server without a record a `KeyError`. -/
def addNode (serverInfos : Dict Peer (ServerInfo Peer)) (sequence : List (RemoteSpanInfo Peer)) (node : Node Peer) :
    Except RoutingError (List (RemoteSpanInfo Peer)) :=
  match node with
  | .atBlock p b =>
    match sequence.getLast? with
    | .some last =>
      if last.peerId = p then .ok (sequence.dropLast ++ [{ last with stop := b }])
      else
        match serverInfos.get? p with
        | .some info => .ok (sequence ++ [⟨p, b, b, info⟩])
        | .none => .error .indexError
    | .none =>
      match serverInfos.get? p with
      | .some info => .ok (sequence ++ [⟨p, b, b, info⟩])
      | .none => .error .indexError
  | _ => .error .assertion

/-- `_make_sequence_with_min_latency`, given the search for a path. -/
def makeSequenceWithMinLatency (findPath : Graph (Node Peer) ℚ≥0 → Option (List (Node Peer))) :
    Except RoutingError (List (RemoteSpanInfo Peer)) := do
  if startIndex = endIndex then return []
  let missing ← missingBlocksIn t startIndex endIndex
  if missing ≠ [] then throw (.missingBlocks missing)
  let serverInfos ← serverInfosIn t startIndex endIndex
  let graph ← buildInferenceGraph t rtts cacheTokensNeeded startIndex endIndex
  match findPath graph with
  | .none => throw .noPath
  | .some nodes =>
    let sequence ← nodes.tail.dropLast.foldlM (addNode serverInfos) []
    return sequence.filter fun span => 0 < span.length

end build

/-! ## The edges of the graph -/

def blockDelay (span : RemoteSpanInfo Peer) : ℚ≥0 := 1 / inferenceRps span

section edges

variable {t : SortedSpans Peer} {n : Nat} {rtts : Peer → Option Rtt}
  {cacheTokensNeeded : Option Nat} {startIndex endIndex : Int}

/-- What the edges of the graph are, and their delays. -/
inductive IsEdge [DecidableEq Peer] (t : SortedSpans Peer) (rtts : Peer → Option Rtt) (cacheTokensNeeded : Option Nat)
    (startIndex endIndex : Int) : Node Peer → Node Peer → ℚ≥0 → Prop
  | enter {u} : u ∈ t.byPriority → u.Contains startIndex →
      IsEdge t rtts cacheTokensNeeded startIndex endIndex .start (.atBlock u.peerId startIndex)
        (arrivalDelay cacheTokensNeeded u (rtts u.peerId))
  | leave {u} : u ∈ t.byPriority → u.Contains (endIndex - 1) →
      IsEdge t rtts cacheTokensNeeded startIndex endIndex (.atBlock u.peerId endIndex) .stop
        (rttToDelay (rtts u.peerId))
  | switch {u v} : u ∈ t.byPriority → v ∈ t.byPriority → startIndex < u.stop → u.stop < endIndex →
      u.Contains (u.stop - 1) → v.Contains u.stop →
      IsEdge t rtts cacheTokensNeeded startIndex endIndex (.atBlock u.peerId u.stop) (.atBlock v.peerId u.stop)
        (arrivalDelay cacheTokensNeeded v (pingBetween u v))
  | compute {u b} : u ∈ t.byPriority → u.Contains b → startIndex ≤ b → b < endIndex →
      IsEdge t rtts cacheTokensNeeded startIndex endIndex (.atBlock u.peerId b) (.atBlock u.peerId (b + 1))
        (blockDelay u)

/-- No server of the range publishes a rate of zero. -/
def RatesPositive (t : SortedSpans Peer) (startIndex endIndex : Int) : Prop :=
  ∀ u ∈ t.byPriority, ∀ b, startIndex ≤ b → b < endIndex → u.Contains b → inferenceRps u ≠ 0

theorem SortedSpans.Consistent.eq_of_peerId (ht : t.Consistent n) {u v : RemoteSpanInfo Peer}
    (hu : u ∈ t.byPriority) (hv : v ∈ t.byPriority) (h : u.peerId = v.peerId) : u = v :=
  List.inj_on_of_nodup_map ht.peers hu hv h

theorem missingBlocksIn_eq (ht : t.Consistent n) (h0 : 0 ≤ startIndex) (hn : endIndex ≤ n) :
    missingBlocksIn t startIndex endIndex =
      .ok ((range startIndex endIndex).filter fun b => (t.byPriority.filter (·.Contains b)).isEmpty) := by
  refine filterM_ok fun b hb => ?_
  have hb := mem_range.1 hb
  rw [ht.spansAt (by omega) (by omega)]
  rfl

theorem missing_eq_nil : ((range startIndex endIndex).filter fun b => (t.byPriority.filter (·.Contains b)).isEmpty) = []
    ↔ ∀ b, startIndex ≤ b → b < endIndex → t.Holds b := by
  simp only [List.filter_eq_nil_iff, mem_range, and_imp, List.isEmpty_iff, not_forall, decide_eq_true_eq, not_not,
    SortedSpans.Holds, exists_prop]

theorem computeEdges_eq {u : RemoteSpanInfo Peer} (hr : ∀ b, startIndex ≤ b → b < endIndex → u.Contains b →
    inferenceRps u ≠ 0) : computeEdges startIndex endIndex u =
      .ok ((range (max u.start startIndex) (min u.stop endIndex)).map fun b =>
        ((.atBlock u.peerId b, .atBlock u.peerId (b + 1)), blockDelay u)) := by
  refine mapM_ok fun b hb => ?_
  have hb := mem_range.1 hb
  have hpos : inferenceRps u ≠ 0 := hr b (by omega) (by omega) ⟨by omega, by omega⟩
  simp [computeDelay, hpos, blockDelay, Except.map]

/-- A server of the range that publishes a rate of zero fails the whole graph. -/
theorem computeEdges_error {u : RemoteSpanInfo Peer} {b : Int} (h1 : startIndex ≤ b) (h2 : b < endIndex)
    (hb : u.Contains b) (hr : inferenceRps u = 0) : computeEdges startIndex endIndex u = .error .zeroDivision := by
  have hrange : range (max u.start startIndex) (min u.stop endIndex) =
      max u.start startIndex :: (range (max u.start startIndex) (min u.stop endIndex)).tail := by
    have hlt : max u.start startIndex < min u.stop endIndex := by
      have := hb.1
      have := hb.2
      omega
    obtain ⟨k, hk⟩ : ∃ k, (min u.stop endIndex - max u.start startIndex).toNat = k + 1 :=
      ⟨(min u.stop endIndex - max u.start startIndex).toNat - 1, by omega⟩
    simp [range, hk, List.range_succ_eq_map]
  rw [computeEdges, hrange, List.mapM_cons]
  simp [computeDelay, hr, Except.map]

section graph

variable [DecidableEq Peer]

theorem switchEdges_eq (ht : t.Consistent n) {b : Int} (h1 : 0 < b) (hn : b < n) :
    switchEdges t cacheTokensNeeded b =
      .ok (((t.byPriority.filter (·.Contains (b - 1))).filter (·.stop = b)).flatMap fun cur =>
        (t.byPriority.filter (·.Contains b)).map fun next =>
          ((.atBlock cur.peerId b, .atBlock next.peerId b),
            arrivalDelay cacheTokensNeeded next (pingBetween cur next))) := by
  rw [switchEdges, ht.spansAt (by omega) (by omega), ht.spansAt (by omega) hn]
  rfl

/-! The edges out of a node -/

theorem IsEdge.of_start {b : Node Peer} {w : ℚ≥0} (h : IsEdge t rtts cacheTokensNeeded startIndex endIndex .start b w) :
    ∃ u ∈ t.byPriority, u.Contains startIndex ∧ b = .atBlock u.peerId startIndex ∧
      w = arrivalDelay cacheTokensNeeded u (rtts u.peerId) := by
  generalize ha : Node.start = a at h
  cases h with
  | enter hu hc => exact ⟨_, hu, hc, rfl, rfl⟩
  | leave => simp at ha
  | switch => simp at ha
  | compute => simp at ha

theorem IsEdge.not_of_stop {b : Node Peer} {w : ℚ≥0} :
    ¬ IsEdge t rtts cacheTokensNeeded startIndex endIndex .stop b w := by
  intro h
  generalize ha : Node.stop = a at h
  cases h <;> simp at ha

theorem IsEdge.of_block (ht : t.Consistent n) {u : RemoteSpanInfo Peer} (hu : u ∈ t.byPriority) {c : Int}
    {b : Node Peer} {w : ℚ≥0}
    (h : IsEdge t rtts cacheTokensNeeded startIndex endIndex (.atBlock u.peerId c) b w) :
    (u.Contains (endIndex - 1) ∧ c = endIndex ∧ b = .stop ∧ w = rttToDelay (rtts u.peerId)) ∨
    (∃ v ∈ t.byPriority, startIndex < c ∧ c < endIndex ∧ u.stop = c ∧ u.Contains (c - 1) ∧ v.Contains c ∧
      b = .atBlock v.peerId c ∧ w = arrivalDelay cacheTokensNeeded v (pingBetween u v)) ∨
    (u.Contains c ∧ startIndex ≤ c ∧ c < endIndex ∧ b = .atBlock u.peerId (c + 1) ∧ w = blockDelay u) := by
  generalize ha : Node.atBlock u.peerId c = a at h
  cases h with
  | enter => simp at ha
  | @leave u' hu' hc =>
    obtain ⟨hp, rfl⟩ := Node.atBlock.inj ha
    obtain rfl := ht.eq_of_peerId hu hu' hp
    exact .inl ⟨hc, rfl, rfl, rfl⟩
  | @switch u' v hu' hv h1 h2 hc hvc =>
    obtain ⟨hp, rfl⟩ := Node.atBlock.inj ha
    obtain rfl := ht.eq_of_peerId hu hu' hp
    exact .inr (.inl ⟨v, hv, h1, h2, rfl, hc, hvc, rfl, rfl⟩)
  | @compute u' b hu' hc h1 h2 =>
    obtain ⟨hp, rfl⟩ := Node.atBlock.inj ha
    obtain rfl := ht.eq_of_peerId hu hu' hp
    exact .inr (.inr ⟨hc, h1, h2, rfl, rfl⟩)

/-- No edge has two delays. -/
theorem IsEdge.unique (ht : t.Consistent n) {a b : Node Peer} {w w' : ℚ≥0}
    (h : IsEdge t rtts cacheTokensNeeded startIndex endIndex a b w)
    (h' : IsEdge t rtts cacheTokensNeeded startIndex endIndex a b w') : w = w' := by
  have hblock : ∀ u ∈ t.byPriority, ∀ c, a = .atBlock u.peerId c → w = w' := by
    rintro u hu c rfl
    rcases h.of_block ht hu with ⟨-, -, rfl, rfl⟩ | ⟨v, hv, -, -, -, -, -, rfl, rfl⟩ | ⟨-, -, -, rfl, rfl⟩ <;>
      rcases h'.of_block ht hu with ⟨-, -, hb, rfl⟩ | ⟨v', hv', -, -, -, -, -, hb, rfl⟩ | ⟨-, -, -, hb, rfl⟩
    · rfl
    · simp at hb
    · simp at hb
    · simp at hb
    · rw [ht.eq_of_peerId hv hv' (Node.atBlock.inj hb).1]
    · have := (Node.atBlock.inj hb).2
      omega
    · simp at hb
    · have := (Node.atBlock.inj hb).2
      omega
    · rfl
  cases h with
  | enter hu hc =>
    obtain ⟨v, hv, -, hb, rfl⟩ := h'.of_start
    rw [ht.eq_of_peerId hu hv (Node.atBlock.inj hb).1]
  | leave hu => exact hblock _ hu _ rfl
  | switch hu => exact hblock _ hu _ rfl
  | compute hu => exact hblock _ hu _ rfl

variable (rtts cacheTokensNeeded) in
/-- **The graph.** With every block held and no rate at zero it is built, and
its edges are those meant. -/
theorem buildInferenceGraph_ok (ht : t.Consistent n) (h0 : 0 ≤ startIndex) (hlt : startIndex < endIndex)
    (hn : endIndex ≤ n) (hheld : ∀ b, startIndex ≤ b → b < endIndex → t.Holds b)
    (hr : RatesPositive t startIndex endIndex) :
    ∃ g, buildInferenceGraph t rtts cacheTokensNeeded startIndex endIndex = .ok g ∧
      ∀ a b w, g.get? (a, b) = .some w ↔ IsEdge t rtts cacheTokensNeeded startIndex endIndex a b w := by
  have hmissing : missingBlocksIn t startIndex endIndex = .ok [] := by
    rw [missingBlocksIn_eq ht h0 hn, missing_eq_nil.2 hheld]
  have hswitch : (range (startIndex + 1) endIndex).mapM (switchEdges t cacheTokensNeeded) =
      .ok ((range (startIndex + 1) endIndex).map fun b =>
        ((t.byPriority.filter (·.Contains (b - 1))).filter (·.stop = b)).flatMap fun cur =>
          (t.byPriority.filter (·.Contains b)).map fun next =>
            ((.atBlock cur.peerId b, .atBlock next.peerId b),
              arrivalDelay cacheTokensNeeded next (pingBetween cur next))) :=
    mapM_ok fun b hb => switchEdges_eq ht (by have := mem_range.1 hb; omega) (by have := mem_range.1 hb; omega)
  have hcompute : t.byPriority.mapM (computeEdges startIndex endIndex) =
      .ok (t.byPriority.map fun u => (range (max u.start startIndex) (min u.stop endIndex)).map fun b =>
        ((.atBlock u.peerId b, .atBlock u.peerId (b + 1)), blockDelay u)) :=
    mapM_ok fun u hu => computeEdges_eq (hr u hu)
  refine ⟨_, by
    simp only [buildInferenceGraph, hmissing, ok_bind, ne_eq, not_true_eq_false, if_false, enterEdges,
      ht.spansAt h0 (by omega : startIndex < n), leaveEdges, ht.spansAt (by omega : 0 ≤ endIndex - 1) (by omega),
      Except.map, hswitch, hcompute]
    rfl, ?_⟩
  generalize hedges : (_ ++ _ ++ _ ++ _ : EdgeList Peer) = edges
  have hmem : ∀ a b w, ((a, b), w) ∈ edges ↔ IsEdge t rtts cacheTokensNeeded startIndex endIndex a b w := by
    intro a b w
    rw [← hedges]
    simp only [List.mem_append, List.mem_map, List.mem_filter, decide_eq_true_eq, Prod.mk.injEq, List.mem_flatten,
      exists_exists_and_eq_and, List.mem_flatMap, mem_range]
    constructor
    · rintro (((⟨u, ⟨hu, hc⟩, ⟨rfl, rfl⟩, rfl⟩ | ⟨u, ⟨hu, hc⟩, ⟨rfl, rfl⟩, rfl⟩) |
        ⟨c, ⟨h1, h2⟩, u, ⟨⟨hu, hc⟩, rfl⟩, v, ⟨hv, hvc⟩, ⟨rfl, rfl⟩, rfl⟩) | ⟨u, hu, c, ⟨h1, h2⟩, ⟨rfl, rfl⟩, rfl⟩)
      · exact .enter hu hc
      · exact .leave hu hc
      · exact .switch hu hv (by omega) h2 hc hvc
      · exact .compute hu ⟨by omega, by omega⟩ (by omega) (by omega)
    · intro h
      cases h with
      | enter hu hc => exact .inl (.inl (.inl ⟨_, ⟨hu, hc⟩, ⟨rfl, rfl⟩, rfl⟩))
      | leave hu hc => exact .inl (.inl (.inr ⟨_, ⟨hu, hc⟩, ⟨rfl, rfl⟩, rfl⟩))
      | switch hu hv h1 h2 hc hvc =>
        exact .inl (.inr ⟨_, ⟨by omega, h2⟩, _, ⟨⟨hu, hc⟩, rfl⟩, _, ⟨hv, hvc⟩, ⟨rfl, rfl⟩, rfl⟩)
      | @compute u b hu hc h1 h2 =>
        exact .inr ⟨_, hu, b, ⟨by have := hc.1; omega, by have := hc.2; omega⟩, ⟨rfl, rfl⟩, rfl⟩
  intro a b w
  rw [Graph.get?_addEdges _, hmem]
  rintro ⟨⟨a, b⟩, w⟩ he ⟨⟨a', b'⟩, w'⟩ he' hab
  obtain ⟨rfl, rfl⟩ := Prod.mk.inj hab
  exact ((hmem _ _ _).1 he).unique ht ((hmem _ _ _).1 he')

/-! ## Paths are routes -/

/-- A route that uses each of its servers, up to the last, to the end of its
span, with its delay once the first server is reached. -/
inductive Priced (t : SortedSpans Peer) (rtts : Peer → Option Rtt) (cacheTokensNeeded : Option Nat) :
    Int → RemoteSpanInfo Peer → List (RemoteSpanInfo Peer) → Int → ℚ≥0 → Prop
  | last {u a z} : u ∈ t.byPriority → u.start ≤ a → a < z → z ≤ u.stop →
      Priced t rtts cacheTokensNeeded a u [{ u with start := a, stop := z }] z
        ((z - a).toNat • blockDelay u + rttToDelay (rtts u.peerId))
  | cons {u v a z route d} : u ∈ t.byPriority → u.start ≤ a → a < u.stop →
      Priced t rtts cacheTokensNeeded u.stop v route z d →
      Priced t rtts cacheTokensNeeded a u ({ u with start := a } :: route) z
        ((u.stop - a).toNat • blockDelay u + (arrivalDelay cacheTokensNeeded v (pingBetween u v) + d))

/-- The nodes of a piece of a route. -/
def spanNodes (s : RemoteSpanInfo Peer) : List (Node Peer) := (range s.start (s.stop + 1)).map (.atBlock s.peerId)

theorem range_cons {a b : Int} (h : a < b) : range a b = a :: range (a + 1) b := by
  obtain ⟨k, hk⟩ : ∃ k, (b - a).toNat = k + 1 := ⟨(b - a).toNat - 1, by omega⟩
  have hk' : (b - (a + 1)).toNat = k := by omega
  simp only [range, hk, hk', List.range_succ_eq_map, List.map_cons, List.map_map]
  congr 1
  · simp
  · refine List.map_congr_left fun i _ => ?_
    simp only [Function.comp_apply, Nat.succ_eq_add_one]
    omega

theorem range_self (a : Int) : range a a = [] := by simp [range]

variable {g : Graph (Node Peer) ℚ≥0}
  (hg : ∀ a b w, g.get? (a, b) = .some w ↔ IsEdge t rtts cacheTokensNeeded startIndex endIndex a b w)

namespace Priced

variable {a z : Int} {u : RemoteSpanInfo Peer} {route : List (RemoteSpanInfo Peer)} {d : ℚ≥0}

theorem mem (h : Priced t rtts cacheTokensNeeded a u route z d) : u ∈ t.byPriority := by
  cases h with
  | last hu => exact hu
  | cons hu => exact hu

theorem contains (h : Priced t rtts cacheTokensNeeded a u route z d) : u.Contains a := by
  cases h with
  | last hu h1 h2 h3 => exact ⟨h1, by omega⟩
  | cons hu h1 h2 => exact ⟨h1, h2⟩

theorem toRoute (h : Priced t rtts cacheTokensNeeded a u route z d) : Route t a route z := by
  induction h with
  | last hu h1 h2 h3 => exact .cons hu h1 h2 h3 (.nil _)
  | cons hu h1 h2 _ ih => exact .cons hu h1 h2 le_rfl ih

theorem lt (h : Priced t rtts cacheTokensNeeded a u route z d) : a < z := by
  induction h with
  | last _ _ h => exact h
  | cons _ _ h _ ih => omega

end Priced

include hg in
/-- Along the blocks of one server. -/
theorem walk_blocks {u : RemoteSpanInfo Peer} (hu : u ∈ t.byPriority) {a z : Int} (hus : u.start ≤ a) (haz : a ≤ z)
    (hzs : z ≤ u.stop) (hs : startIndex ≤ a) (he : z ≤ endIndex) :
    g.Walk (.atBlock u.peerId a) ((range (a + 1) (z + 1)).map (.atBlock u.peerId)) (.atBlock u.peerId z)
      ((z - a).toNat • blockDelay u) := by
  induction hk : (z - a).toNat generalizing a with
  | zero =>
    obtain rfl : a = z := by omega
    rw [range_self, zero_nsmul]
    exact .nil _
  | succ k ih =>
    rw [range_cons (by omega), List.map_cons, succ_nsmul']
    refine .cons ((hg _ _ _).2 (.compute hu ⟨hus, by omega⟩ hs (by omega))) ?_
    exact ih (by omega) (by omega) (by omega) (by omega)

include hg in
/-- A route is a path from its first server on. -/
theorem Priced.walk {a : Int} {u : RemoteSpanInfo Peer} {route : List (RemoteSpanInfo Peer)} {d : ℚ≥0}
    (h : Priced t rtts cacheTokensNeeded a u route endIndex d) (hs : startIndex ≤ a) :
    ∃ rest, route.flatMap spanNodes = .atBlock u.peerId a :: rest ∧
      g.Walk (.atBlock u.peerId a) (rest ++ [.stop]) .stop d := by
  generalize hz : endIndex = z at h
  induction h with
  | @last u a z hu h1 h2 h3 =>
    subst hz
    refine ⟨(range (a + 1) (endIndex + 1)).map (.atBlock u.peerId), ?_, ?_⟩
    · simp [spanNodes, range_cons (show a < endIndex + 1 by omega)]
    · refine (walk_blocks hg hu h1 h2.le h3 hs le_rfl).append ?_
      have hleave := (hg _ _ _).2 (.leave hu ⟨by omega, by omega⟩)
      simpa using Graph.Walk.cons hleave (.nil _)
  | @cons u v a z route d hu h1 h2 hrest ih =>
    subst hz
    have hlt := hrest.lt
    obtain ⟨rest, hrest', hwalk⟩ := ih (by omega) rfl
    refine ⟨(range (a + 1) (u.stop + 1)).map (.atBlock u.peerId) ++ .atBlock v.peerId u.stop :: rest, ?_, ?_⟩
    · simp [spanNodes, range_cons (show a < u.stop + 1 by omega), hrest']
    · rw [List.append_assoc]
      refine (walk_blocks hg hu h1 h2.le le_rfl hs hlt.le).append ?_
      refine .cons ((hg _ _ _).2 (.switch hu hrest.mem (by omega) hlt ⟨by omega, by omega⟩ hrest.contains)) hwalk

include hg in
/-- A path on from a server: some of its blocks, and then out of the graph, or
on at the end of its span with a route. -/
theorem walk_split (ht : t.Consistent n) {u : RemoteSpanInfo Peer} (hu : u ∈ t.byPriority) {b : Int}
    {l : List (Node Peer)} {c : ℚ≥0} (hw : g.Walk (.atBlock u.peerId b) l .stop c) (hbs : b ≤ u.stop)
    (hbe : b ≤ endIndex) : ∃ z, b ≤ z ∧ z ≤ u.stop ∧ z ≤ endIndex ∧
      ((z = endIndex ∧ l = (range (b + 1) (z + 1)).map (.atBlock u.peerId) ++ [.stop] ∧
          c = (z - b).toNat • blockDelay u + rttToDelay (rtts u.peerId)) ∨
        (z = u.stop ∧ ∃ v route d, Priced t rtts cacheTokensNeeded z v route endIndex d ∧
          l = (range (b + 1) (z + 1)).map (.atBlock u.peerId) ++ (route.flatMap spanNodes ++ [.stop]) ∧
          c = (z - b).toNat • blockDelay u + (arrivalDelay cacheTokensNeeded v (pingBetween u v) + d))) := by
  induction l generalizing u b c with
  | nil => cases hw
  | cons node l ih =>
    cases hw with
    | @cons _ _ _ _ w d he hrest =>
      rcases ((hg _ _ _).1 he).of_block ht hu with ⟨-, rfl, rfl, rfl⟩ | ⟨v, hv, h1, h2, rfl, -, hvc, rfl, rfl⟩ |
        ⟨hc, h1, h2, rfl, rfl⟩
      · -- out of the graph, where every path ends
        cases hrest with
        | nil => exact ⟨b, le_rfl, hbs, le_rfl, .inl ⟨rfl, by simp [range_self], by simp⟩⟩
        | cons he' => exact absurd ((hg _ _ _).1 he') IsEdge.not_of_stop
      · -- to the next server, whose part of the path makes the first piece of a route
        obtain ⟨z, hbz, hzs, hze, hrest⟩ := ih hv hrest hvc.2.le h2.le
        refine ⟨u.stop, le_rfl, le_rfl, h2.le, .inr ⟨rfl, v, ?_⟩⟩
        rcases hrest with ⟨rfl, rfl, rfl⟩ | ⟨rfl, v', route, d', hroute, rfl, rfl⟩
        · refine ⟨_, _, .last hv hvc.1 h2 hzs, ?_, by simp⟩
          simp [range_self, spanNodes, range_cons (show u.stop < z + 1 by omega)]
        · refine ⟨_, _, .cons hv hvc.1 hvc.2 hroute, ?_, by simp⟩
          simp [range_self, spanNodes, range_cons (show u.stop < v.stop + 1 by have := hvc.2; omega)]
      · -- one more block of the same server
        obtain ⟨z, hbz, hzs, hze, hrest⟩ := ih hu hrest (by have := hc.2; omega) (by omega)
        have hnodes : range (b + 1) (z + 1) = (b + 1) :: range (b + 1 + 1) (z + 1) := range_cons (by omega)
        have hcount : (z - b).toNat = (z - (b + 1)).toNat + 1 := by omega
        refine ⟨z, by omega, hzs, hze, ?_⟩
        rcases hrest with ⟨rfl, rfl, rfl⟩ | ⟨rfl, v', route, d', hroute, rfl, rfl⟩
        · exact .inl ⟨rfl, by simp [hnodes], by rw [hcount, succ_nsmul', add_assoc]⟩
        · exact .inr ⟨rfl, v', route, d', hroute, by simp [hnodes], by rw [hcount, succ_nsmul', add_assoc]⟩

include hg in
/-- **Every path is a route.** -/
theorem exists_priced_of_walk (ht : t.Consistent n) (hlt : startIndex < endIndex) {l : List (Node Peer)} {c : ℚ≥0}
    (hw : g.Walk .start l .stop c) : ∃ u route d, Priced t rtts cacheTokensNeeded startIndex u route endIndex d ∧
      l = route.flatMap spanNodes ++ [.stop] ∧ c = arrivalDelay cacheTokensNeeded u (rtts u.peerId) + d := by
  cases hw with
  | @cons _ _ _ _ w d he hrest =>
    obtain ⟨u, hu, hc, rfl, rfl⟩ := ((hg _ _ _).1 he).of_start
    obtain ⟨z, hbz, hzs, hze, h⟩ := walk_split hg ht hu hrest hc.2.le hlt.le
    rcases h with ⟨rfl, rfl, rfl⟩ | ⟨rfl, v, route, d', hroute, rfl, rfl⟩
    · refine ⟨u, _, _, .last hu hc.1 hlt hzs, ?_, rfl⟩
      simp [spanNodes, range_cons (show startIndex < z + 1 by omega)]
    · refine ⟨u, _, _, .cons hu hc.1 hc.2 hroute, ?_, rfl⟩
      simp [spanNodes, range_cons (show startIndex < u.stop + 1 by have := hc.2; omega)]

/-! ## Reading the route off a path -/

theorem foldlM_addNode_stops (serverInfos : Dict Peer (ServerInfo Peer)) (acc : List (RemoteSpanInfo Peer))
    (s : RemoteSpanInfo Peer) {b : Int} (hb : b ≤ s.stop) :
    ((range (b + 1) (s.stop + 1)).map (Node.atBlock s.peerId)).foldlM (addNode serverInfos)
      (acc ++ [{ s with stop := b }]) = .ok (acc ++ [s]) := by
  induction hk : (s.stop - b).toNat generalizing b with
  | zero =>
    obtain rfl : b = s.stop := by omega
    rw [range_self]
    rfl
  | succ k ih =>
    rw [range_cons (by omega), List.map_cons, List.foldlM_cons]
    have hadd : addNode serverInfos (acc ++ [{ s with stop := b }]) (.atBlock s.peerId (b + 1)) =
        .ok (acc ++ [{ s with stop := b + 1 }]) := by
      simp [addNode]
    rw [hadd, ok_bind, ih (by omega) (by omega)]

/-- The pieces of a route, of which no two that follow one another are at one
server. -/
theorem foldlM_addNode_priced (ht : t.Consistent n) {serverInfos : Dict Peer (ServerInfo Peer)} {a z : Int}
    {u : RemoteSpanInfo Peer} {route : List (RemoteSpanInfo Peer)} {d : ℚ≥0}
    (h : Priced t rtts cacheTokensNeeded a u route z d)
    (hinfos : ∀ v ∈ t.byPriority, ∀ b, a ≤ b → b < z → v.Contains b →
      serverInfos.get? v.peerId = .some v.serverInfo)
    (acc : List (RemoteSpanInfo Peer)) (hacc : ∀ last ∈ acc.getLast?, last.peerId ≠ u.peerId) :
    (route.flatMap spanNodes).foldlM (addNode serverInfos) acc = .ok (acc ++ route) := by
  -- the first node of a piece begins it, the others stretch it
  have hpiece : ∀ (u : RemoteSpanInfo Peer) (a stop : Int) (acc : List (RemoteSpanInfo Peer)), a ≤ stop →
      (∀ last ∈ acc.getLast?, last.peerId ≠ u.peerId) → serverInfos.get? u.peerId = .some u.serverInfo →
      (spanNodes { u with start := a, stop }).foldlM (addNode serverInfos) acc =
        .ok (acc ++ [{ u with start := a, stop }]) := by
    intro u a stop acc hle hacc hinfo
    have hadd : addNode serverInfos acc (.atBlock u.peerId a) = .ok (acc ++ [{ u with start := a, stop := a }]) := by
      cases hlast : acc.getLast? with
      | none => simp [addNode, hlast, hinfo]
      | some last => simp [addNode, hlast, hacc last (by rw [hlast]; rfl), hinfo]
    rw [spanNodes, range_cons (show a < stop + 1 by omega), List.map_cons, List.foldlM_cons, hadd, ok_bind]
    exact foldlM_addNode_stops serverInfos acc { u with start := a, stop } hle
  induction h generalizing acc with
  | @last u a z hu h1 h2 h3 =>
    rw [List.flatMap_cons, List.flatMap_nil, List.append_nil]
    exact hpiece u a z acc h2.le hacc (hinfos u hu a le_rfl h2 ⟨h1, by omega⟩)
  | @cons u v a z route d hu h1 h2 hrest ih =>
    have hlt := hrest.lt
    have hne : u.peerId ≠ v.peerId := by
      intro he
      have hc := hrest.contains
      rw [← ht.eq_of_peerId hu hrest.mem he] at hc
      have := hc.2
      omega
    rw [List.flatMap_cons, List.foldlM_append, hpiece u a u.stop acc h2.le hacc
      (hinfos u hu a le_rfl (by omega) ⟨h1, h2⟩), ok_bind,
      ih (fun v hv b hb1 hb2 => hinfos v hv b (by omega) hb2) _ (by simpa using hne)]
    simp

theorem serverInfosIn_ok (ht : t.Consistent n) (h0 : 0 ≤ startIndex) (hn : endIndex ≤ n) :
    ∃ infos, serverInfosIn t startIndex endIndex = .ok infos ∧
      ∀ v ∈ t.byPriority, ∀ b, startIndex ≤ b → b < endIndex → v.Contains b →
        infos.get? v.peerId = .some v.serverInfo := by
  have hspans : (range startIndex endIndex).mapM t.spansAt =
      .ok ((range startIndex endIndex).map fun b => t.byPriority.filter (·.Contains b)) :=
    mapM_ok fun b hb => ht.spansAt (by have := mem_range.1 hb; omega) (by have := mem_range.1 hb; omega)
  refine ⟨_, by rw [serverInfosIn, hspans]; rfl, fun v hv b h1 h2 hc => ?_⟩
  generalize hlisted : ((range startIndex endIndex).map fun b => t.byPriority.filter (·.Contains b)).flatten = listed
  have hmem : ∀ s ∈ listed, s ∈ t.byPriority := by
    intro s hs
    rw [← hlisted] at hs
    obtain ⟨l, hl, hs⟩ := List.mem_flatten.1 hs
    obtain ⟨b, -, rfl⟩ := List.mem_map.1 hl
    exact (List.mem_filter.1 hs).1
  have hv' : v ∈ listed := by
    rw [← hlisted]
    exact List.mem_flatten.2 ⟨_, List.mem_map.2 ⟨b, mem_range.2 ⟨h1, h2⟩, rfl⟩,
      List.mem_filter.2 ⟨hv, by simpa using hc⟩⟩
  have hfold : listed.foldl (fun infos span => infos.set span.peerId span.serverInfo) Dict.empty =
      (listed.map fun s => (s.peerId, s.serverInfo)).foldl (fun infos e => infos.set e.1 e.2) Dict.empty := by
    rw [List.foldl_map]
  rw [hfold, Dict.get?_foldl_set]
  · exact .inl (List.mem_map.2 ⟨v, hv', rfl⟩)
  · intro e he e' he' hk
    obtain ⟨s, hs, rfl⟩ := List.mem_map.1 he
    obtain ⟨s', hs', rfl⟩ := List.mem_map.1 he'
    rw [ht.eq_of_peerId (hmem s hs) (hmem s' hs') hk]

variable (rtts cacheTokensNeeded) in
/-- Where every block is held there is a route. -/
theorem exists_priced {a z : Int} (hlt : a < z) (hheld : ∀ b, a ≤ b → b < z → t.Holds b) :
    ∃ u route d, Priced t rtts cacheTokensNeeded a u route z d := by
  induction hk : (z - a).toNat using Nat.strong_induction_on generalizing a with
  | _ k ih =>
    obtain ⟨u, hu, hc⟩ := hheld a le_rfl hlt
    by_cases hz : z ≤ u.stop
    · exact ⟨u, _, _, .last hu hc.1 hlt hz⟩
    · obtain ⟨v, route, d, h⟩ := ih (z - u.stop).toNat (by have := hc.2; omega) (by omega)
        (fun b hb => hheld b (by have := hc.2; omega)) rfl
      exact ⟨u, _, _, .cons hu hc.1 hc.2 h⟩

/-- What the search is given and what comes back, for a table routing can use. -/
theorem makeSequenceWithMinLatency_ok (ht : t.Consistent n) (h0 : 0 ≤ startIndex) (hlt : startIndex < endIndex)
    (hn : endIndex ≤ n) (hheld : ∀ b, startIndex ≤ b → b < endIndex → t.Holds b)
    (hr : RatesPositive t startIndex endIndex) {findPath : Graph (Node Peer) ℚ≥0 → Option (List (Node Peer))}
    (hfind : ∀ g, buildInferenceGraph t rtts cacheTokensNeeded startIndex endIndex = .ok g →
      g.FindsShortest .start .stop (findPath g)) :
    ∃ u route d, makeSequenceWithMinLatency t rtts cacheTokensNeeded startIndex endIndex findPath = .ok route ∧
      Priced t rtts cacheTokensNeeded startIndex u route endIndex d ∧
      ∀ u' route' d', Priced t rtts cacheTokensNeeded startIndex u' route' endIndex d' →
        arrivalDelay cacheTokensNeeded u (rtts u.peerId) + d ≤
          arrivalDelay cacheTokensNeeded u' (rtts u'.peerId) + d' := by
  obtain ⟨g, hbuild, hg⟩ := buildInferenceGraph_ok rtts cacheTokensNeeded ht h0 hlt hn hheld hr
  have hwalk : ∀ u' route' d', Priced t rtts cacheTokensNeeded startIndex u' route' endIndex d' →
      g.Walk .start (route'.flatMap spanNodes ++ [.stop]) .stop
        (arrivalDelay cacheTokensNeeded u' (rtts u'.peerId) + d') := by
    intro u' route' d' h'
    obtain ⟨rest, hrest, hw⟩ := h'.walk hg le_rfl
    rw [hrest, List.cons_append]
    exact .cons ((hg _ _ _).2 (.enter h'.mem h'.contains)) hw
  obtain ⟨hsome, hnone⟩ := hfind g hbuild
  cases hfound : findPath g with
  | none =>
    obtain ⟨u, route, d, h⟩ := exists_priced rtts cacheTokensNeeded hlt hheld
    exact absurd (hwalk u route d h) (hnone hfound _ _)
  | some nodes =>
    obtain ⟨l, c, rfl, hw, hleast⟩ := hsome nodes hfound
    obtain ⟨u, route, d, hpriced, rfl, rfl⟩ := exists_priced_of_walk hg ht hlt hw
    refine ⟨u, route, d, ?_, hpriced, fun u' route' d' h' => hleast _ _ (hwalk u' route' d' h')⟩
    obtain ⟨infos, hinfos, hget⟩ := serverInfosIn_ok ht h0 hn
    have hmissing : missingBlocksIn t startIndex endIndex = .ok [] := by
      rw [missingBlocksIn_eq ht h0 hn, missing_eq_nil.2 hheld]
    have hread := foldlM_addNode_priced ht hpriced hget [] (by simp)
    -- no piece of a route is empty
    have hfilter : route.filter (fun span => 0 < span.length) = route := by
      refine List.filter_eq_self.2 fun s hs => ?_
      have hpos := (hpriced.toRoute.served hs).2.1
      exact decide_eq_true (sub_pos.2 hpos)
    simp [makeSequenceWithMinLatency, hlt.ne, hmissing, hinfos, hbuild, hfound, hread, hfilter]

/-- A server of the range that publishes a rate of zero leaves no route. -/
theorem makeSequenceWithMinLatency_zero (ht : t.Consistent n) (h0 : 0 ≤ startIndex) (hlt : startIndex < endIndex)
    (hn : endIndex ≤ n) (hheld : ∀ b, startIndex ≤ b → b < endIndex → t.Holds b)
    (hr : ¬ RatesPositive t startIndex endIndex)
    (findPath : Graph (Node Peer) ℚ≥0 → Option (List (Node Peer))) :
    makeSequenceWithMinLatency t rtts cacheTokensNeeded startIndex endIndex findPath = .error .zeroDivision := by
  obtain ⟨infos, hinfos, -⟩ := serverInfosIn_ok ht h0 hn
  have hmissing : missingBlocksIn t startIndex endIndex = .ok [] := by
    rw [missingBlocksIn_eq ht h0 hn, missing_eq_nil.2 hheld]
  have hswitch : ∃ l, (range (startIndex + 1) endIndex).mapM (switchEdges t cacheTokensNeeded) = .ok l :=
    exists_mapM_ok.2 fun b hb => ⟨_, switchEdges_eq ht (by have := mem_range.1 hb; omega)
      (by have := mem_range.1 hb; omega)⟩
  obtain ⟨switching, hswitch⟩ := hswitch
  -- the servers before the first with a rate of zero have edges, and it has none
  have hcompute : ∀ l : List (RemoteSpanInfo Peer), (∃ u ∈ l, ∃ b, startIndex ≤ b ∧ b < endIndex ∧ u.Contains b ∧
      inferenceRps u = 0) → l.mapM (computeEdges startIndex endIndex) = .error .zeroDivision := by
    intro l
    induction l with
    | nil => simp
    | cons u l ih =>
      intro h
      rw [List.mapM_cons]
      by_cases hu : ∃ b, startIndex ≤ b ∧ b < endIndex ∧ u.Contains b ∧ inferenceRps u = 0
      · obtain ⟨b, h1, h2, hb, hz⟩ := hu
        rw [computeEdges_error h1 h2 hb hz]
        rfl
      · have hrest : ∃ v ∈ l, ∃ b, startIndex ≤ b ∧ b < endIndex ∧ v.Contains b ∧ inferenceRps v = 0 := by
          obtain ⟨v, hv, hz⟩ := h
          rcases List.mem_cons.1 hv with rfl | hv
          · exact absurd hz hu
          · exact ⟨v, hv, hz⟩
        rw [computeEdges_eq fun b h1 h2 hb hz => hu ⟨b, h1, h2, hb, hz⟩, ok_bind, ih hrest]
        rfl
  have hzero : t.byPriority.mapM (computeEdges startIndex endIndex) = .error .zeroDivision := by
    refine hcompute _ ?_
    simpa [RatesPositive] using hr
  simp [makeSequenceWithMinLatency, hlt.ne, hmissing, hinfos, buildInferenceGraph, enterEdges, leaveEdges,
    ht.spansAt h0 (by omega : startIndex < n), ht.spansAt (by omega : 0 ≤ endIndex - 1) (by omega), Except.map, hswitch,
    hzero]

theorem makeSequenceWithMinLatency_missing (ht : t.Consistent n) (h0 : 0 ≤ startIndex) (hlt : startIndex < endIndex)
    (hn : endIndex ≤ n) (hheld : ¬ ∀ b, startIndex ≤ b → b < endIndex → t.Holds b)
    (findPath : Graph (Node Peer) ℚ≥0 → Option (List (Node Peer))) :
    ∃ missing, makeSequenceWithMinLatency t rtts cacheTokensNeeded startIndex endIndex findPath =
        .error (.missingBlocks missing) ∧
      ∀ b, b ∈ missing ↔ startIndex ≤ b ∧ b < endIndex ∧ ¬ t.Holds b := by
  refine ⟨(range startIndex endIndex).filter fun b => (t.byPriority.filter (·.Contains b)).isEmpty, ?_, ?_⟩
  · have hne := missing_eq_nil.not.2 hheld
    simp only [makeSequenceWithMinLatency, hlt.ne, if_false, missingBlocksIn_eq ht h0 hn, ok_bind, ne_eq, hne,
      not_false_eq_true, if_true, throw_eq_error, error_bind]
  · intro b
    simp only [List.mem_filter, mem_range, List.isEmpty_iff, List.filter_eq_nil_iff, decide_eq_true_eq,
      SortedSpans.Holds, not_exists, not_and, and_assoc]

end graph

end edges

/-- **Routing by latency.** There is a route if and only if every block of the
range has a server online and no server of the range publishes a rate of zero;
one such server makes every request fail. A route goes without a gap from the
first block to the last, each server is online at every block asked of it, and
of the routes that use each server to the end of its span none has less delay.
With no route, the error lists the blocks that no server has. -/
theorem latency_route [LinearOrder Peer] {infos : List (RemoteModuleInfo Peer)} {t : SortedSpans Peer}
    (ht : sortSpans infos = .some t) (hd : AllDeclared infos) {rtts : Peer → Option Rtt}
    {cacheTokensNeeded : Option Nat} {startIndex endIndex : Int} (h0 : 0 ≤ startIndex) (hlt : startIndex < endIndex)
    (hn : endIndex ≤ infos.length) {findPath : Graph (Node Peer) ℚ≥0 → Option (List (Node Peer))}
    (hfind : ∀ g, buildInferenceGraph t rtts cacheTokensNeeded startIndex endIndex = .ok g →
      g.FindsShortest .start .stop (findPath g)) :
    let served := ∀ b, startIndex ≤ b → b < endIndex → ∃ p, onlineRecord infos p b.toNat ≠ .none
    let result := makeSequenceWithMinLatency t rtts cacheTokensNeeded startIndex endIndex findPath
    ((∃ route, result = .ok route) ↔ served ∧ RatesPositive t startIndex endIndex) ∧
      (∀ route, result = .ok route → ∃ u d, Priced t rtts cacheTokensNeeded startIndex u route endIndex d ∧
        Span.Chain startIndex (route.map (·.span)) endIndex ∧
        (∀ s ∈ route, s.start < s.stop ∧ ∀ b, s.Contains b → onlineRecord infos s.peerId b.toNat ≠ .none) ∧
        ∀ u' route' d', Priced t rtts cacheTokensNeeded startIndex u' route' endIndex d' →
          arrivalDelay cacheTokensNeeded u (rtts u.peerId) + d ≤
            arrivalDelay cacheTokensNeeded u' (rtts u'.peerId) + d') ∧
      ∀ e, result = .error e → (e = .zeroDivision ∧ served ∧ ¬ RatesPositive t startIndex endIndex) ∨
        ∃ missing, e = .missingBlocks missing ∧ ¬ served ∧
          ∀ b, b ∈ missing ↔ startIndex ≤ b ∧ b < endIndex ∧ ∀ p, onlineRecord infos p b.toNat = .none := by
  intro served result
  obtain ⟨t', ht', hcons, -⟩ := sortSpans_consistent infos
  obtain rfl : t' = t := Option.some.inj (ht'.symm.trans ht)
  have hserved : served ↔ ∀ b, startIndex ≤ b → b < endIndex → t'.Holds b :=
    forall_congr' fun b => forall_congr' fun hb1 => forall_congr' fun hb2 =>
      (holds_iff ht hd (by omega) (by omega)).symm
  by_cases hall : served
  · by_cases hr : RatesPositive t' startIndex endIndex
    · obtain ⟨u, route, d, hroute, hpriced, hleast⟩ :=
        makeSequenceWithMinLatency_ok hcons h0 hlt hn (hserved.1 hall) hr hfind
      have hresult : result = .ok route := hroute
      refine ⟨⟨fun _ => ⟨hall, hr⟩, fun _ => ⟨route, hresult⟩⟩, fun r h => ?_, fun e h => ?_⟩
      · obtain rfl : route = r := Except.ok.inj (hresult.symm.trans h)
        refine ⟨u, d, hpriced, hpriced.toRoute.chain, fun s hs => ?_, hleast⟩
        obtain ⟨-, hpos, v, hv, hpeer, -, hsub⟩ := hpriced.toRoute.served hs
        refine ⟨hpos, fun b hb => ?_⟩
        have hw := hcons.within v hv
        have hvb := hsub b hb
        exact (mem_byPriority_iff ht hd _ (hw.1.trans hvb.1) (lt_of_lt_of_le hvb.2 hw.2)).1 ⟨v, hv, hpeer, hvb⟩
      · rw [hresult] at h
        cases h
    · have hresult : result = .error .zeroDivision :=
        makeSequenceWithMinLatency_zero hcons h0 hlt hn (hserved.1 hall) hr findPath
      refine ⟨⟨fun h => ?_, fun h => absurd h.2 hr⟩, fun r h => ?_, fun e h => ?_⟩
      · obtain ⟨route, h⟩ := h
        rw [hresult] at h
        cases h
      · rw [hresult] at h
        cases h
      · rw [hresult] at h
        exact .inl ⟨(Except.error.inj h).symm, hall, hr⟩
  · obtain ⟨missing, hmissing, hmem⟩ :=
      makeSequenceWithMinLatency_missing hcons h0 hlt hn (hserved.not.1 hall) findPath
    have hresult : result = .error (.missingBlocks missing) := hmissing
    refine ⟨⟨fun h => ?_, fun h => absurd h.1 hall⟩, fun r h => ?_, fun e h => ?_⟩
    · obtain ⟨route, h⟩ := h
      rw [hresult] at h
      cases h
    · rw [hresult] at h
      cases h
    · rw [hresult] at h
      refine .inr ⟨missing, (Except.error.inj h).symm, hall, fun b => ?_⟩
      rw [hmem]
      refine and_congr_right fun hb1 => and_congr_right fun hb2 => ?_
      rw [holds_iff ht hd (by omega) (by omega), not_exists]
      exact forall_congr' fun p => not_not

/-- A search that finds the nodes of a route of least delay finds a shortest
path. -/
theorem findsShortest_of_priced [DecidableEq Peer] {t : SortedSpans Peer} {n : Nat} {rtts : Peer → Option Rtt}
    {cacheTokensNeeded : Option Nat} {startIndex endIndex : Int} {g : Graph (Node Peer) ℚ≥0}
    (hg : ∀ a b w, g.get? (a, b) = .some w ↔ IsEdge t rtts cacheTokensNeeded startIndex endIndex a b w)
    (ht : t.Consistent n) (hlt : startIndex < endIndex) {u : RemoteSpanInfo Peer} {route : List (RemoteSpanInfo Peer)}
    {d : ℚ≥0} (h : Priced t rtts cacheTokensNeeded startIndex u route endIndex d)
    (hleast : ∀ u' route' d', Priced t rtts cacheTokensNeeded startIndex u' route' endIndex d' →
      arrivalDelay cacheTokensNeeded u (rtts u.peerId) + d ≤
        arrivalDelay cacheTokensNeeded u' (rtts u'.peerId) + d') :
    g.FindsShortest .start .stop (.some (.start :: (route.flatMap spanNodes ++ [.stop]))) := by
  refine ⟨fun nodes hnodes => ?_, fun hnone => by simp at hnone⟩
  obtain rfl := Option.some.inj hnodes
  obtain ⟨rest, hrest, hw⟩ := h.walk hg le_rfl
  refine ⟨_, arrivalDelay cacheTokensNeeded u (rtts u.peerId) + d, rfl, ?_, fun l' c' hl' => ?_⟩
  · rw [hrest, List.cons_append]
    exact .cons ((hg _ _ _).2 (.enter h.mem h.contains)) hw
  · obtain ⟨u', route', d', h', -, rfl⟩ := exists_priced_of_walk hg ht hlt hl'
    exact hleast u' route' d' h'

/-- The way over the first and the last of the three servers. -/
def overNine : List (RemoteSpanInfo Nat) := [⟨5, 0, 2, onlineInfo 0 2 .none⟩, ⟨9, 2, 3, onlineInfo 2 3 .none⟩]

/-- The three blocks can be had of two servers in two ways, and server 7 is slower. -/
theorem threeServers_priced {t : SortedSpans Nat} (ht : sortSpans (announced "model" 4 threeServers) = .some t)
    {u : RemoteSpanInfo Nat} {route : List (RemoteSpanInfo Nat)} {d : ℚ≥0}
    (h : Priced t (fun _ => .none) (.some 8) 0 u route 3 d) : u = ⟨5, 0, 2, onlineInfo 0 2 .none⟩ ∧
      ∃ w : ℚ≥0, (route = overNine ∧ w = 1 / 300 ∨ route ≠ overNine ∧ w = 1 / 40) ∧
        d = 2 • (1 / 300) + (rttToDelay .none + overheadDelay + (w + rttToDelay .none)) := by
  have hspans {s : RemoteSpanInfo Nat} := threeServers_spans ht (s := s)
  cases h with
  | last hu h1 h2 h3 =>
    obtain rfl | rfl | rfl := hspans hu <;> simp at h1 h3
  | @cons _ v _ _ rest d hu h1 h2 hrest =>
    obtain rfl | rfl | rfl := hspans hu
    · refine ⟨rfl, ?_⟩
      cases hrest with
      | last hv h1 h2 h3 =>
        obtain rfl | rfl | rfl := hspans hv
        · simp at h3
        · exact ⟨1 / 40, .inr ⟨by simp [overNine], rfl⟩,
            by simp [arrivalDelay, pingBetween, hasCacheFor, blockDelay, inferenceRps, onlineInfo]⟩
        · exact ⟨1 / 300, .inl ⟨rfl, rfl⟩,
            by simp [arrivalDelay, pingBetween, hasCacheFor, blockDelay, inferenceRps, onlineInfo]⟩
      | cons hv h1 h2 hrest =>
        have hlt := hrest.lt
        obtain rfl | rfl | rfl := hspans hv <;> simp at h2 hlt
    · simp at h1
    · simp at h1

/-- They have a route of least delay. -/
theorem threeServers_latency_route : ∃ t, sortSpans (announced "model" 4 threeServers) = .some t ∧
    makeSequenceWithMinLatency t (fun _ => .none) (.some 8) 0 3
      (fun _ => .some (.start :: (overNine.flatMap spanNodes ++ [.stop]))) = .ok overNine := by
  obtain ⟨t, ht, hcons, hmem⟩ := sortSpans_consistent (announced "model" 4 threeServers)
  have hthree : (3 : Int) ≤ (announced "model" 4 threeServers).length := by decide
  have hheld (b : Int) (h0 : 0 ≤ b) (hb : b < 3) : t.Holds b :=
    (holds_iff ht announced_declared h0 (by omega)).2 (threeServers_held h0 hb)
  have hrates : RatesPositive t 0 3 := by
    intro u hu _ _ _ _
    obtain rfl | rfl | rfl := threeServers_spans ht hu <;> simp [inferenceRps, onlineInfo]
  -- servers 5 and 9 are in the table, so the route over server 9 is there
  have hfive : (⟨5, 0, 2, onlineInfo 0 2 .none⟩ : RemoteSpanInfo Nat) ∈ t.byPriority := by
    obtain ⟨s, hs, hc⟩ := hheld 0 le_rfl (by decide)
    obtain rfl | rfl | rfl := threeServers_spans ht hs
    · exact hs
    · exact absurd hc.1 (by decide)
    · exact absurd hc.1 (by decide)
  have hnine : (⟨9, 2, 3, onlineInfo 2 3 .none⟩ : RemoteSpanInfo Nat) ∈ t.byPriority := by
    obtain ⟨s, hs, hp, -⟩ := (mem_byPriority_iff ht announced_declared 9 (b := 2) (by decide) (by decide)).2
      (Option.ne_none_iff_exists'.2 ⟨_, onlineRecord_announced.2 ⟨by decide, rfl, by decide, by decide⟩⟩)
    obtain rfl | rfl | rfl := threeServers_spans ht hs
    · exact absurd hp (by decide)
    · exact absurd hp (by decide)
    · exact hs
  have hover : ∃ d, Priced t (fun _ => .none) (.some 8) 0 ⟨5, 0, 2, onlineInfo 0 2 .none⟩ overNine 3 d :=
    ⟨_, .cons hfive le_rfl (by decide) (.last hnine le_rfl (by decide) le_rfl)⟩
  obtain ⟨d, hover⟩ := hover
  -- any other route takes longer
  have hleast : ∀ u' route' d', Priced t (fun _ => .none) (.some 8) 0 u' route' 3 d' →
      u' = ⟨5, 0, 2, onlineInfo 0 2 .none⟩ ∧ d ≤ d' ∧ (route' ≠ overNine → d < d') := by
    intro u' route' d' h'
    obtain ⟨-, w, hw, rfl⟩ := threeServers_priced ht hover
    obtain ⟨rfl, w', hw', rfl⟩ := threeServers_priced ht h'
    obtain ⟨-, rfl⟩ := hw.resolve_right fun h => h.1 rfl
    have hlt : (1 / 300 : ℚ≥0) < 1 / 40 := by norm_num
    obtain ⟨rfl, rfl⟩ | ⟨hne, rfl⟩ := hw'
    · exact ⟨rfl, le_rfl, fun hne => absurd rfl hne⟩
    · exact ⟨rfl, by gcongr, fun _ => by gcongr⟩
  have hfind : ∀ g, buildInferenceGraph t (fun _ => .none) (.some 8) 0 3 = .ok g →
      g.FindsShortest .start .stop (.some (.start :: (overNine.flatMap spanNodes ++ [.stop]))) := by
    intro g hg
    obtain ⟨g', hbuild, hedges⟩ :=
      buildInferenceGraph_ok (fun _ => .none) (.some 8) hcons le_rfl (by decide) hthree hheld hrates
    obtain rfl : g' = g := Except.ok.inj (hbuild.symm.trans hg)
    refine findsShortest_of_priced hedges hcons (by decide) hover fun u' route' d' h' => ?_
    obtain ⟨rfl, hle, -⟩ := hleast u' route' d' h'
    gcongr
  obtain ⟨hiff, hroute, -⟩ := latency_route ht announced_declared le_rfl (by decide) hthree hfind
  obtain ⟨route, hok⟩ := hiff.2 ⟨fun b => threeServers_held, hrates⟩
  obtain ⟨u, d', hpriced, -, -, hbest⟩ := hroute route hok
  refine ⟨t, ht, ?_⟩
  obtain ⟨rfl, -, hlt⟩ := hleast u route d' hpriced
  by_cases hne : route = overNine
  · rw [hok, hne]
  · have hle : d' ≤ d := le_of_add_le_add_left (hbest _ _ _ hover)
    exact absurd (hlt hne) (not_lt_of_ge hle)

end Petals

end Blitzwing
