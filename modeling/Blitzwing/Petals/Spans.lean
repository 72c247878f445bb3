/-
The table a client routes by: which consecutive blocks each server holds.

A DHT record says that one server serves one block. `computeSpans` folds the
records, block by block, into one `RemoteSpanInfo` a server; `sortSpans` lists
the spans longest first, and for each block those that contain it.

The fold looks at one server at a time (`get?_computeSpans`), and what it
leaves for a server is set by that server's first and last record
(`Traced`). A server that declared the same interval with every block of it
gets that interval back (`get?_computeSpans_declared`).
-/
import Blitzwing.Lib.Dict
import Mathlib.Data.List.Induction
import Mathlib.Data.List.Sort
import Mathlib.Algebra.Order.Field.Rat
import Mathlib.Algebra.Order.Nonneg.Field
import Mathlib.Data.NNRat.Defs

namespace Blitzwing

namespace Petals

inductive ServerState
  | offline
  | joining
  | online
deriving DecidableEq, Repr

def ServerState.value : ServerState → Nat
  | .offline => 0
  | .joining => 1
  | .online => 2

/-- A round-trip time; `math.inf` is a peer no ping reached. -/
inductive Rtt
  | seconds (s : ℚ≥0)
  | inf
deriving DecidableEq

/-- What a server publishes of itself, as routing reads it. The bounds are the
ones its record type checks: no count and no rate is below zero. -/
structure ServerInfo (Peer : Type) where
  state : ServerState
  startBlock : Option Nat
  endBlock : Option Nat
  inferenceRps : Option ℚ≥0
  adapters : List String
  cacheTokensLeft : Option Nat
  nextPings : Option (List (Peer × Rtt))
deriving DecidableEq

/-- `<dht_prefix>.<index>` -/
structure ModuleUID where
  dhtPrefix : String
  index : Int
deriving DecidableEq

structure RemoteModuleInfo (Peer : Type) where
  uid : ModuleUID
  servers : Dict Peer (ServerInfo Peer)

/-- The blocks from `start` up to, not including, `stop` (the source's `end`)
at one server. -/
structure RemoteSpanInfo (Peer : Type) where
  peerId : Peer
  start : Int
  stop : Int
  serverInfo : ServerInfo Peer
deriving DecidableEq

variable {Peer : Type}

namespace RemoteSpanInfo

def length (s : RemoteSpanInfo Peer) : Int := s.stop - s.start

def state (s : RemoteSpanInfo Peer) : ServerState := s.serverInfo.state

def Contains (s : RemoteSpanInfo Peer) (b : Int) : Prop := s.start ≤ b ∧ b < s.stop

instance (s : RemoteSpanInfo Peer) (b : Int) : Decidable (s.Contains b) := inferInstanceAs (Decidable (_ ∧ _))

end RemoteSpanInfo

/-! ## `compute_spans` -/

/-- `RemoteSpanInfo(peer_id, block_idx, block_idx + 1, server_info)`, with the
bounds the server declared where it declared both. -/
def newSpan (blockOffset numBlocks : Int) (blockIdx : Nat) (peerId : Peer) (serverInfo : ServerInfo Peer) :
    RemoteSpanInfo Peer :=
  match serverInfo.startBlock, serverInfo.endBlock with
  | .some startBlock, .some endBlock =>
    { peerId, serverInfo
      start := max (startBlock - blockOffset) 0
      stop := min (endBlock - blockOffset) numBlocks }
  | _, _ => { peerId, serverInfo, start := blockIdx, stop := blockIdx + 1 }

@[simp] theorem newSpan_serverInfo (blockOffset numBlocks : Int) (blockIdx : Nat) (p : Peer) (serverInfo : ServerInfo Peer) :
    (newSpan blockOffset numBlocks blockIdx p serverInfo).serverInfo = serverInfo := by
  unfold newSpan
  split <;> rfl

@[simp] theorem newSpan_peerId (blockOffset numBlocks : Int) (blockIdx : Nat) (p : Peer) (serverInfo : ServerInfo Peer) :
    (newSpan blockOffset numBlocks blockIdx p serverInfo).peerId = p := by
  unfold newSpan
  split <;> rfl

section computeSpans

variable [LinearOrder Peer]

/-- The body of the inner loop: one server's record at one block. -/
def addRecord (blockOffset numBlocks : Int) (minState : ServerState) (blockIdx : Nat)
    (spans : Dict Peer (RemoteSpanInfo Peer)) (record : Peer × ServerInfo Peer) : Dict Peer (RemoteSpanInfo Peer) :=
  if record.2.state.value < minState.value then spans
  else
    match spans.get? record.1 with
    | .none => spans.set record.1 (newSpan blockOffset numBlocks blockIdx record.1 record.2)
    | .some span =>
      if span.state.value < record.2.state.value then
        spans.set record.1 (newSpan blockOffset numBlocks blockIdx record.1 record.2)
      else if span.state = record.2.state then
        spans.set record.1 { span with stop := max span.stop (blockIdx + 1) }
      else spans

/-- `sorted(module_info.servers.items())` -/
def RemoteModuleInfo.sortedServers (info : RemoteModuleInfo Peer) : List (Peer × ServerInfo Peer) :=
  info.servers.items.mergeSort fun a b => decide (a.1 ≤ b.1)

/-- The offset of the first block in its model. -/
def blockOffsetOf (moduleInfos : List (RemoteModuleInfo Peer)) : Int :=
  match moduleInfos with
  | [] => 0
  | info :: _ => info.uid.index

def computeSpans (moduleInfos : List (RemoteModuleInfo Peer)) (minState : ServerState) :
    Dict Peer (RemoteSpanInfo Peer) :=
  moduleInfos.zipIdx.foldl (fun spans block =>
    block.1.sortedServers.foldl (addRecord (blockOffsetOf moduleInfos) moduleInfos.length minState block.2) spans)
    .empty

end computeSpans

/-! ## `_sort_spans` -/

/-- `range(start, end)` -/
def range (start stop : Int) : List Int := (List.range (stop - start).toNat).map fun (k : Nat) => start + k

/-- `table[index].append(span)`, an index below zero counted from the end;
`none` is an `IndexError`. -/
def appendAt (table : List (List (RemoteSpanInfo Peer))) (index : Int) (span : RemoteSpanInfo Peer) :
    Option (List (List (RemoteSpanInfo Peer))) :=
  let i := if index < 0 then index + table.length else index
  if 0 ≤ i ∧ i < table.length then .some (table.modify i.toNat (· ++ [span])) else .none

structure SortedSpans (Peer : Type) where
  byPriority : List (RemoteSpanInfo Peer)
  containingBlock : List (List (RemoteSpanInfo Peer))

/-- `spans.sort(key=lambda span: span.length, reverse=True)`, which keeps the
order of spans of one length. -/
def longestFirst (spans : List (RemoteSpanInfo Peer)) : List (RemoteSpanInfo Peer) :=
  spans.mergeSort fun a b => decide (b.length ≤ a.length)

def sortSpans [LinearOrder Peer] (blockInfos : List (RemoteModuleInfo Peer)) : Option (SortedSpans Peer) := do
  let byPriority := longestFirst (computeSpans blockInfos .online).values
  let containingBlock ← byPriority.foldlM (fun table span =>
    (range span.start span.stop).foldlM (fun table blockIndex => appendAt table blockIndex span) table)
    (List.replicate blockInfos.length [])
  return { byPriority, containingBlock }

/-! ## One server's part of the fold -/

variable {blockOffset numBlocks : Int} {minState : ServerState}

/-- What a record does to the span of the server it is of. -/
def spanAfter (blockOffset numBlocks : Int) (minState : ServerState) (blockIdx : Nat) (peerId : Peer)
    (serverInfo : ServerInfo Peer) (span : Option (RemoteSpanInfo Peer)) : Option (RemoteSpanInfo Peer) :=
  if serverInfo.state.value < minState.value then span
  else
    match span with
    | .none => .some (newSpan blockOffset numBlocks blockIdx peerId serverInfo)
    | .some s =>
      if s.state.value < serverInfo.state.value then .some (newSpan blockOffset numBlocks blockIdx peerId serverInfo)
      else if s.state = serverInfo.state then .some { s with stop := max s.stop (blockIdx + 1) }
      else .some s

/-- The span the records of `p` at the first `k` blocks leave it: begun by the
first of them, stretched to the last. -/
inductive Traced (blockOffset numBlocks : Int) (p : Peer) (records : Nat → Option (ServerInfo Peer)) (k : Nat) :
    Option (RemoteSpanInfo Peer) → Prop
  | none : (∀ b < k, records b = .none) → Traced blockOffset numBlocks p records k .none
  | some {first last : Nat} {serverInfo : ServerInfo Peer} : first ≤ last → last < k →
      records first = .some serverInfo → records last ≠ .none → (∀ b < first, records b = .none) →
      (∀ b < k, last < b → records b = .none) →
      Traced blockOffset numBlocks p records k (.some
        { newSpan blockOffset numBlocks first p serverInfo with
          stop := if first = last then (newSpan blockOffset numBlocks first p serverInfo).stop
            else max (newSpan blockOffset numBlocks first p serverInfo).stop (last + 1) })

/-- One more block without a record of `p`. -/
theorem Traced.skip {p : Peer} {records : Nat → Option (ServerInfo Peer)} {k : Nat}
    {span : Option (RemoteSpanInfo Peer)} (h : Traced blockOffset numBlocks p records k span)
    (hk : records k = .none) : Traced blockOffset numBlocks p records (k + 1) span := by
  cases h with
  | none hno => exact .none fun b hb => (Nat.lt_succ_iff_lt_or_eq.1 hb).elim (hno b) fun he => he ▸ hk
  | some hle hlt hfirst hlast hbefore hafter =>
    refine .some hle (by omega) hfirst hlast hbefore fun b hb hl => ?_
    exact (Nat.lt_succ_iff_lt_or_eq.1 hb).elim (fun hb => hafter b hb hl) fun he => he ▸ hk

/-- One more block, with a record of `p`. -/
theorem Traced.record {p : Peer} {records : Nat → Option (ServerInfo Peer)} {k : Nat}
    {span : Option (RemoteSpanInfo Peer)} {serverInfo : ServerInfo Peer}
    (h : Traced blockOffset numBlocks p records k span) (hk : records k = .some serverInfo)
    (hon : ∀ b i, records b = .some i → i.state = .online) :
    Traced blockOffset numBlocks p records (k + 1)
      (spanAfter blockOffset numBlocks .online k p serverInfo span) := by
  have hstate : serverInfo.state = .online := hon k _ hk
  have hafterNone : ∀ b < k + 1, k < b → records b = .none := fun b hb hl => by omega
  cases h with
  | none hno =>
    have hnew : Traced blockOffset numBlocks p records (k + 1) _ :=
      .some (le_refl k) (Nat.lt_succ_self k) hk (by simp [hk]) hno hafterNone
    rw [if_pos rfl] at hnew
    have he : spanAfter blockOffset numBlocks .online k p serverInfo .none =
        .some (newSpan blockOffset numBlocks k p serverInfo) := by simp [spanAfter, hstate]
    rw [he]
    exact hnew
  | @some first last info hle hlt hfirst hlast hbefore hafter =>
    have hinfo : info.state = .online := hon first _ hfirst
    have hnew : Traced blockOffset numBlocks p records (k + 1) _ :=
      .some (by omega : first ≤ k) (Nat.lt_succ_self k) hfirst (by simp [hk]) hbefore hafterNone
    have hne : first ≠ k := by omega
    have hmax : max (if first = last then (newSpan blockOffset numBlocks first p info).stop
        else max (newSpan blockOffset numBlocks first p info).stop (last + 1)) ((k : Int) + 1) =
        max (newSpan blockOffset numBlocks first p info).stop (k + 1) := by
      split <;> omega
    simpa [spanAfter, hstate, hinfo, RemoteSpanInfo.state, hne, hmax] using hnew

section oneServer

variable [LinearOrder Peer]

theorem get?_addRecord (blockIdx : Nat) (spans : Dict Peer (RemoteSpanInfo Peer)) (record : Peer × ServerInfo Peer)
    (p : Peer) : (addRecord blockOffset numBlocks minState blockIdx spans record).get? p =
      if p = record.1 then spanAfter blockOffset numBlocks minState blockIdx p record.2 (spans.get? p)
      else spans.get? p := by
  unfold addRecord spanAfter
  by_cases hp : p = record.1
  · subst hp
    simp only [if_true]
    split
    · rfl
    · cases hs : spans.get? record.1 with
      | none => simp
      | some s =>
        dsimp only
        split
        · simp
        · split <;> simp [hs]
  · simp only [if_neg hp]
    split
    · rfl
    · cases spans.get? record.1 with
      | none => simp [Dict.get?_set_ne hp]
      | some s =>
        dsimp only
        split
        · simp [Dict.get?_set_ne hp]
        · split <;> simp [Dict.get?_set_ne hp]

theorem get?_foldl_addRecord {records : List (Peer × ServerInfo Peer)} (hn : (records.map Prod.fst).Nodup)
    (blockIdx : Nat) (spans : Dict Peer (RemoteSpanInfo Peer)) (p : Peer) :
    (records.foldl (addRecord blockOffset numBlocks minState blockIdx) spans).get? p =
      (records.find? (·.1 = p)).elim (spans.get? p) fun record =>
        spanAfter blockOffset numBlocks minState blockIdx p record.2 (spans.get? p) := by
  induction records generalizing spans with
  | nil => rfl
  | cons record records ih =>
    simp only [List.map_cons, List.nodup_cons] at hn
    rw [List.foldl_cons, ih hn.2, get?_addRecord]
    by_cases hp : p = record.1
    · subst hp
      have hnone : records.find? (·.1 = record.1) = .none := by
        refine List.find?_eq_none.2 fun r hr he => hn.1 ?_
        rw [← of_decide_eq_true he]
        exact List.mem_map_of_mem hr
      simp [hnone]
    · have hne : record.1 ≠ p := Ne.symm hp
      simp [hp, hne]

/-- A loop over the servers of a block changes a server's span by that
server's record alone. -/
theorem get?_foldl_sortedServers (info : RemoteModuleInfo Peer) (blockIdx : Nat)
    (spans : Dict Peer (RemoteSpanInfo Peer)) (p : Peer) :
    (info.sortedServers.foldl (addRecord blockOffset numBlocks minState blockIdx) spans).get? p =
      (info.servers.get? p).elim (spans.get? p) fun serverInfo =>
        spanAfter blockOffset numBlocks minState blockIdx p serverInfo (spans.get? p) := by
  have hperm : info.sortedServers.Perm info.servers.items := List.mergeSort_perm ..
  have hn : (info.sortedServers.map Prod.fst).Nodup := (hperm.map _).nodup_iff.2 info.servers.nodup
  rw [get?_foldl_addRecord hn]
  cases hg : info.servers.get? p with
  | none =>
    have hnone : info.sortedServers.find? (·.1 = p) = .none := by
      refine List.find?_eq_none.2 fun r hr he => Dict.get?_eq_none.1 hg ?_
      rw [← of_decide_eq_true he]
      exact List.mem_map_of_mem (hperm.mem_iff.1 hr)
    simp [hnone]
  | some serverInfo =>
    have hmem : (p, serverInfo) ∈ info.sortedServers := hperm.mem_iff.2 (Dict.get?_eq_some.1 hg)
    simp [Dict.find?_eq_some_of_mem hn hmem]

/-- The record `p` has at a block, if it is online there. -/
def onlineRecord (moduleInfos : List (RemoteModuleInfo Peer)) (p : Peer) (b : Nat) : Option (ServerInfo Peer) :=
  moduleInfos[b]?.bind fun info => (info.servers.get? p).filter (·.state = .online)

/-- **The fold, a server at a time.** -/
theorem get?_computeSpans (moduleInfos : List (RemoteModuleInfo Peer)) (p : Peer) :
    Traced (blockOffsetOf moduleInfos) moduleInfos.length p (onlineRecord moduleInfos p) moduleInfos.length
      ((computeSpans moduleInfos .online).get? p) := by
  unfold computeSpans
  generalize blockOffsetOf moduleInfos = offset
  generalize hnum : (moduleInfos.length : Int) = num
  clear hnum
  -- the loop over a beginning of the list, with the records of the whole list
  have hon : ∀ b i, onlineRecord moduleInfos p b = .some i → i.state = .online := by
    intro b i h
    obtain ⟨info, -, h⟩ := Option.bind_eq_some_iff.1 h
    simpa using (Option.filter_eq_some_iff.1 h).2
  suffices hpre : ∀ l, l <+: moduleInfos → Traced offset num p (onlineRecord moduleInfos p) l.length
      ((l.zipIdx.foldl (fun (spans : Dict Peer (RemoteSpanInfo Peer)) (block : RemoteModuleInfo Peer × Nat) =>
        block.1.sortedServers.foldl (addRecord offset num .online block.2) spans) .empty).get? p) from hpre _ (List.prefix_refl _)
  intro l
  induction l using List.reverseRecOn with
  | nil => exact fun _ => .none fun b hb => absurd hb (Nat.not_lt_zero b)
  | append_singleton l info ih =>
    intro hl
    have ih := ih ((List.prefix_append l [info]).trans hl)
    have hget : moduleInfos[l.length]? = .some info := by
      obtain ⟨rest, rfl⟩ := hl
      simp
    rw [List.zipIdx_append, List.foldl_append, List.length_append]
    simp only [List.zipIdx_singleton, List.foldl_cons, List.foldl_nil, List.length_singleton, Nat.zero_add]
    rw [get?_foldl_sortedServers]
    cases hg : info.servers.get? p with
    | none => exact ih.skip (by simp [onlineRecord, hget, hg])
    | some serverInfo =>
      by_cases hs : serverInfo.state = .online
      · exact ih.record (by simp [onlineRecord, hget, hg, hs]) hon
      · have hlow : serverInfo.state.value < ServerState.online.value := by
          cases he : serverInfo.state <;> simp_all [ServerState.value]
        simpa [spanAfter, hlow] using ih.skip (by simp [onlineRecord, hget, hg, hs])

/-- The server declared one interval with all it serves: it is online at a
block of the table just when the block is in the interval. -/
structure Declared (moduleInfos : List (RemoteModuleInfo Peer)) (p : Peer) (startBlock endBlock : Nat) : Prop where
  bounds : ∀ b serverInfo, onlineRecord moduleInfos p b = .some serverInfo →
    serverInfo.startBlock = .some startBlock ∧ serverInfo.endBlock = .some endBlock
  serves : ∀ b < moduleInfos.length, onlineRecord moduleInfos p b ≠ .none ↔
    (startBlock : Int) ≤ blockOffsetOf moduleInfos + b ∧ blockOffsetOf moduleInfos + b < endBlock

/-- **A declared interval is the span**, cut to the blocks of the table. -/
theorem get?_computeSpans_declared {moduleInfos : List (RemoteModuleInfo Peer)} {p : Peer} {startBlock endBlock : Nat}
    (hd : Declared moduleInfos p startBlock endBlock) (b : Nat) (hb : b < moduleInfos.length) :
    onlineRecord moduleInfos p b ≠ .none ↔
      ∃ s, (computeSpans moduleInfos .online).get? p = .some s ∧ s.Contains b := by
  have htraced := get?_computeSpans moduleInfos p
  generalize (computeSpans moduleInfos .online).get? p = span at htraced ⊢
  cases htraced with
  | none hno => simp [hno b hb]
  | @some first last serverInfo hle hlt hfirst hlast hbefore hafter =>
    obtain ⟨hstart, hend⟩ := hd.bounds first _ hfirst
    -- the last record is inside the interval, so it stretches nothing
    have hlastIn := ((hd.serves last hlt).1 hlast).2
    rw [hd.serves b hb]
    simp only [Option.some.injEq, exists_eq_left', RemoteSpanInfo.Contains, newSpan, hstart, hend]
    split <;> omega

end oneServer

/-! ## The table of the spans -/

theorem Traced.within {p : Peer} {records : Nat → Option (ServerInfo Peer)} {n : Nat} {s : RemoteSpanInfo Peer}
    (h : Traced blockOffset n p records n (.some s)) : 0 ≤ s.start ∧ s.stop ≤ n := by
  have hnew : ∀ (b : Nat) (serverInfo : ServerInfo Peer), b < n →
      0 ≤ (newSpan blockOffset n b p serverInfo).start ∧ (newSpan blockOffset n b p serverInfo).stop ≤ n := by
    intro b serverInfo hb
    unfold newSpan
    split
    · exact ⟨le_max_right _ _, min_le_right _ _⟩
    · dsimp only
      omega
  cases h with
  | @some first last serverInfo hle hlt hfirst hlast hbefore hafter =>
    obtain ⟨hstart, hstop⟩ := hnew first serverInfo (by omega)
    refine ⟨hstart, ?_⟩
    dsimp only
    split <;> omega

theorem Traced.peerId {p : Peer} {records : Nat → Option (ServerInfo Peer)} {n : Nat} {s : RemoteSpanInfo Peer}
    (h : Traced blockOffset numBlocks p records n (.some s)) : s.peerId = p := by
  cases h with
  | some => simp

/-- The span carries the record it was begun by. -/
theorem Traced.exists_record {p : Peer} {records : Nat → Option (ServerInfo Peer)} {n : Nat} {s : RemoteSpanInfo Peer}
    (h : Traced blockOffset numBlocks p records n (.some s)) : ∃ b < n, records b = .some s.serverInfo := by
  cases h with
  | @some first => exact ⟨first, by omega, by simpa⟩

/-- What routing needs of a table of `n` blocks. -/
structure SortedSpans.Consistent (t : SortedSpans Peer) (n : Nat) : Prop where
  peers : (t.byPriority.map (·.peerId)).Nodup
  within : ∀ s ∈ t.byPriority, 0 ≤ s.start ∧ s.stop ≤ n
  online : ∀ s ∈ t.byPriority, s.state = .online
  longest : t.byPriority.Pairwise fun s u => u.length ≤ s.length
  containing : t.containingBlock = (List.range n).map fun (b : Nat) => t.byPriority.filter (·.Contains b)

/-- The loop over the blocks of one span. -/
theorem foldlM_appendAt (span : RemoteSpanInfo Peer) (blocks : List Int) (table : List (List (RemoteSpanInfo Peer)))
    (hn : blocks.Nodup) (hb : ∀ b ∈ blocks, 0 ≤ b ∧ b < table.length) :
    blocks.foldlM (fun table blockIndex => appendAt table blockIndex span) table =
      .some (table.mapIdx fun (b : Nat) spans => if (b : Int) ∈ blocks then spans ++ [span] else spans) := by
  induction blocks generalizing table with
  | nil => exact congrArg Option.some (List.ext_getElem (by simp) fun k hk hk' => by simp)
  | cons i blocks ih =>
    obtain ⟨h0, hi⟩ := hb i (by simp)
    rw [List.nodup_cons] at hn
    have hneg : ¬ i < 0 := by omega
    have happend : appendAt table i span = .some (table.modify i.toNat (· ++ [span])) := by
      simp [appendAt, hneg, h0, hi]
    rw [List.foldlM_cons, happend, Option.bind_eq_bind, Option.bind_some,
      ih _ hn.2 (by simpa using fun b hm => hb b (List.mem_cons_of_mem _ hm))]
    refine congrArg Option.some (List.ext_getElem (by simp) fun k hk hk' => ?_)
    simp only [List.getElem_mapIdx, List.getElem_modify, List.mem_cons]
    by_cases hki : i.toNat = k
    · have he : (k : Int) = i := by omega
      simp [hki, he, hn.1]
    · have he : (k : Int) ≠ i := by omega
      simp [hki, he]

theorem mem_range {start stop b : Int} : b ∈ range start stop ↔ start ≤ b ∧ b < stop := by
  simp only [range, List.mem_map, List.mem_range]
  constructor
  · rintro ⟨k, hk, rfl⟩
    omega
  · intro h
    exact ⟨(b - start).toNat, by omega, by omega⟩

theorem nodup_range (start stop : Int) : (range start stop).Nodup :=
  List.nodup_range.map fun a b h => by simpa using h

/-- The loop over the spans: no index is out of range, and a block's list is
its part of them, in their order. -/
theorem foldlM_spans (spans : List (RemoteSpanInfo Peer)) (n : Nat) (hw : ∀ s ∈ spans, 0 ≤ s.start ∧ s.stop ≤ n) :
    spans.foldlM (fun table span =>
        (range span.start span.stop).foldlM (fun table blockIndex => appendAt table blockIndex span) table)
        (List.replicate n []) =
      .some ((List.range n).map fun (b : Nat) => spans.filter (·.Contains b)) := by
  induction spans using List.reverseRecOn with
  | nil =>
    refine congrArg Option.some (List.ext_getElem (by simp) fun k hk hk' => ?_)
    simp
  | append_singleton spans span ih =>
    have hspan := hw span (by simp)
    rw [List.foldlM_append, ih fun s hs => hw s (by simp [hs]), Option.bind_eq_bind, Option.bind_some]
    simp only [List.foldlM_cons, List.foldlM_nil, bind_pure]
    rw [foldlM_appendAt span _ _ (nodup_range _ _) fun b hb => by
      have := mem_range.1 hb
      simp only [List.length_map, List.length_range]
      omega]
    refine congrArg Option.some (List.ext_getElem (by simp) fun k hk hk' => ?_)
    simp only [List.getElem_mapIdx, List.getElem_map, List.getElem_range, mem_range, List.filter_append]
    by_cases hc : span.Contains k
    · simp [hc, show span.start ≤ k ∧ (k : Int) < span.stop from hc]
    · simp [hc, show ¬ (span.start ≤ k ∧ (k : Int) < span.stop) from hc]

variable [LinearOrder Peer]

theorem Traced.online {p : Peer} {moduleInfos : List (RemoteModuleInfo Peer)} {n : Nat} {s : RemoteSpanInfo Peer}
    (h : Traced blockOffset numBlocks p (onlineRecord moduleInfos p) n (.some s)) : s.state = .online := by
  obtain ⟨b, -, hb⟩ := h.exists_record
  obtain ⟨info, -, hinfo⟩ := Option.bind_eq_some_iff.1 hb
  simpa [RemoteSpanInfo.state] using (Option.filter_eq_some_iff.1 hinfo).2

/-- Sorting never fails, and what it makes is a table routing can use. -/
theorem sortSpans_consistent (blockInfos : List (RemoteModuleInfo Peer)) : ∃ t, sortSpans blockInfos = .some t ∧
    t.Consistent blockInfos.length ∧
    ∀ s, s ∈ t.byPriority ↔ (computeSpans blockInfos .online).get? s.peerId = .some s := by
  generalize hspans : computeSpans blockInfos .online = spans
  have htraced : ∀ p s, spans.get? p = .some s →
      Traced (blockOffsetOf blockInfos) blockInfos.length p (onlineRecord blockInfos p) blockInfos.length (.some s) := by
    intro p s h
    have := get?_computeSpans blockInfos p
    rwa [hspans, h] at this
  have hperm : (longestFirst spans.values).Perm spans.values := List.mergeSort_perm ..
  have hmem : ∀ s, s ∈ longestFirst spans.values ↔ spans.get? s.peerId = .some s := by
    intro s
    rw [hperm.mem_iff, Dict.mem_values]
    constructor
    · rintro ⟨p, hp⟩
      rwa [(htraced p s hp).peerId]
    · exact fun h => ⟨_, h⟩
  have hwithin : ∀ s ∈ longestFirst spans.values, 0 ≤ s.start ∧ s.stop ≤ blockInfos.length :=
    fun s hs => (htraced _ s ((hmem s).1 hs)).within
  have hkeys : spans.values.map (·.peerId) = spans.keys := by
    simp only [Dict.values, Dict.keys, List.map_map]
    refine List.map_congr_left fun r hr => ?_
    exact (htraced r.1 r.2 (Dict.get?_eq_some.2 hr)).peerId
  refine ⟨⟨longestFirst spans.values, (List.range blockInfos.length).map fun (b : Nat) =>
    (longestFirst spans.values).filter (·.Contains b)⟩, ?_, ⟨?_, hwithin, ?_, ?_, rfl⟩, hmem⟩
  · simp only [sortSpans, hspans, foldlM_spans _ _ hwithin]
    rfl
  · rw [(hperm.map _).nodup_iff, hkeys]
    exact spans.nodup
  · exact fun s hs => (htraced _ s ((hmem s).1 hs)).online
  · have hsorted : (longestFirst spans.values).Pairwise fun a b => decide (b.length ≤ a.length) = true :=
      List.pairwise_mergeSort (fun a b c hab hbc => by simp only [decide_eq_true_eq] at *; omega)
      (fun a b => by simp only [Bool.or_eq_true, decide_eq_true_eq]; omega) spans.values
    exact hsorted.imp fun h => of_decide_eq_true h

end Petals

end Blitzwing
