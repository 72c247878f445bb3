/-
Routes drawn by throughput: how training traffic is spread over the servers.

`makeSequenceWithMaxThroughput` draws a server that has the next block, goes
to the end of that server's span, and starts again from there. Any draws give
a route (`Route`), unless a block it comes to is at no server.
-/
import Blitzwing.Lib.Raise
import Blitzwing.Lib.Tiling
import Blitzwing.Petals.Spans
import Mathlib.Tactic.NormNum

namespace Blitzwing

namespace Petals

variable {Peer : Type}

/-! ## `_make_sequence_with_max_throughput` -/

inductive RoutingError
  | missingBlocks (blocks : List Int)
  | zeroDivision
  | indexError
  | assertion
  | noPath
deriving DecidableEq

/-- `table[index]`, an index below zero counted from the end. -/
def SortedSpans.spansAt (t : SortedSpans Peer) (index : Int) : Except RoutingError (List (RemoteSpanInfo Peer)) :=
  let i := if index < 0 then index + t.containingBlock.length else index
  if 0 ≤ i then
    match t.containingBlock[i.toNat]? with
    | .some spans => .ok spans
    | .none => .error .indexError
  else .error .indexError

/-- The weight of a candidate: a server no ping reached is all but left out. -/
def spanWeight (rtts : Peer → Option Rtt) (span : RemoteSpanInfo Peer) : ℚ :=
  if rtts span.peerId ≠ .some .inf then span.length else 1 / 1000000

/-- `np.random.choice(candidates, p=weights)`: any candidate whose weight is
not zero may be drawn; `draw` says which is. A negative weight is refused. -/
def randomChoice (candidates : List (RemoteSpanInfo Peer)) (weight : RemoteSpanInfo Peer → ℚ) (draw : Nat) :
    Option (RemoteSpanInfo Peer) :=
  if candidates.any fun c => weight c < 0 then .none
  else
    let drawable := candidates.filter fun c => 0 < weight c
    drawable[draw % drawable.length]?

def makeSequenceWithMaxThroughput (t : SortedSpans Peer) (rtts : Peer → Option Rtt) (draw : Nat → Nat)
    (currentIndex endIndex : Int) (turn : Nat) : Except RoutingError (List (RemoteSpanInfo Peer)) :=
  if currentIndex < endIndex then
    (t.spansAt currentIndex).bind fun candidateSpans =>
      if candidateSpans = [] then .error (.missingBlocks [currentIndex])
      else
        match randomChoice candidateSpans (spanWeight rtts) (draw turn) with
        | .none => .error .assertion
        | .some chosenSpan =>
          if chosenSpan.start ≤ currentIndex ∧ currentIndex < chosenSpan.stop then
            (makeSequenceWithMaxThroughput t rtts draw chosenSpan.stop endIndex (turn + 1)).map
              ({ chosenSpan with start := currentIndex } :: ·)
          else .error .assertion
  else .ok []
termination_by (endIndex - currentIndex).toNat
decreasing_by omega

/-! ## Routes -/

/-- Some server of the table has the block. -/
def SortedSpans.Holds (t : SortedSpans Peer) (b : Int) : Prop := ∃ s ∈ t.byPriority, s.Contains b

/-- Servers one after the other, from the block `start` to before the block
`stop`, none of them asked for a block it does not have. -/
inductive Route (t : SortedSpans Peer) : Int → List (RemoteSpanInfo Peer) → Int → Prop
  | nil (start : Int) : Route t start [] start
  | cons {u : RemoteSpanInfo Peer} {start stop last : Int} {route : List (RemoteSpanInfo Peer)} :
      u ∈ t.byPriority → u.start ≤ start → start < stop → stop ≤ u.stop → Route t stop route last →
      Route t start ({ u with start, stop } :: route) last

/-- The blocks of a span. -/
def RemoteSpanInfo.span (s : RemoteSpanInfo Peer) : Span := ⟨s.start, s.stop⟩

theorem Route.chain {t : SortedSpans Peer} {start last : Int} {route : List (RemoteSpanInfo Peer)}
    (h : Route t start route last) : Span.Chain start (route.map (·.span)) last := by
  induction h with
  | nil => exact rfl
  | cons _ _ _ _ _ ih => exact ⟨rfl, ih⟩

theorem Route.le {t : SortedSpans Peer} {start last : Int} {route : List (RemoteSpanInfo Peer)}
    (h : Route t start route last) : start ≤ last := by
  induction h with
  | nil => exact le_rfl
  | cons _ _ hlt _ _ ih => omega

/-- Each piece of a route lies in the span of its server. -/
theorem Route.served {t : SortedSpans Peer} {start last : Int} {route : List (RemoteSpanInfo Peer)}
    (h : Route t start route last) {s : RemoteSpanInfo Peer} (hs : s ∈ route) : start ≤ s.start ∧ s.start < s.stop ∧
      ∃ u ∈ t.byPriority, u.peerId = s.peerId ∧ u.serverInfo = s.serverInfo ∧ ∀ b, s.Contains b → u.Contains b := by
  induction h with
  | nil => simp at hs
  | @cons u start stop _ route hu h1 h2 h3 _ ih =>
    rcases List.mem_cons.1 hs with rfl | hs
    · exact ⟨le_rfl, h2, u, hu, rfl, rfl, fun b hb => ⟨h1.trans hb.1, lt_of_lt_of_le hb.2 h3⟩⟩
    · obtain ⟨h, hrest⟩ := ih hs
      exact ⟨by omega, hrest⟩

section consistent

variable {t : SortedSpans Peer} {n : Nat}

theorem SortedSpans.Consistent.spansAt (ht : t.Consistent n) {b : Int} (h0 : 0 ≤ b) (hn : b < n) :
    t.spansAt b = .ok (t.byPriority.filter (·.Contains b)) := by
  have hneg : ¬ b < 0 := by omega
  have hlt : b.toNat < t.containingBlock.length := by
    rw [ht.containing, List.length_map, List.length_range]
    omega
  have hb : ((b.toNat : Nat) : Int) = b := by omega
  have hget : t.containingBlock[b.toNat]? = .some (t.byPriority.filter (·.Contains b)) := by
    rw [List.getElem?_eq_getElem hlt]
    simp only [ht.containing, List.getElem_map, List.getElem_range, hb]
  simp [SortedSpans.spansAt, hneg, h0, hget]

/-- A candidate has a block, so its weight is above zero and some candidate is
drawn. -/
theorem exists_randomChoice (rtts : Peer → Option Rtt) (draw : Nat) {b : Int}
    (hb : t.Holds b) : ∃ s ∈ t.byPriority, s.Contains b ∧
      randomChoice (t.byPriority.filter (·.Contains b)) (spanWeight rtts) draw = .some s := by
  have hweight : ∀ s ∈ t.byPriority.filter (·.Contains b), 0 < spanWeight rtts s := by
    intro s hs
    have hc := of_decide_eq_true (List.mem_filter.1 hs).2
    unfold spanWeight
    split
    · have : 0 < s.length := by
        simp only [RemoteSpanInfo.Contains, RemoteSpanInfo.length] at *
        omega
      exact_mod_cast this
    · norm_num
  have hnone : (t.byPriority.filter (·.Contains b)).any (fun c => spanWeight rtts c < 0) = false := by
    refine List.any_eq_false.2 fun s hs => ?_
    simpa using (hweight s hs).le
  have hall : (t.byPriority.filter (·.Contains b)).filter (fun c => 0 < spanWeight rtts c) =
      t.byPriority.filter (·.Contains b) := List.filter_eq_self.2 fun s hs => by simpa using hweight s hs
  have hpos : 0 < (t.byPriority.filter (·.Contains b)).length := by
    obtain ⟨s, hs, hc⟩ := hb
    exact List.length_pos_of_mem (List.mem_filter.2 ⟨hs, by simpa using hc⟩)
  have hlt := Nat.mod_lt draw hpos
  have hmem := List.mem_filter.1 (List.getElem_mem hlt)
  refine ⟨_, hmem.1, of_decide_eq_true hmem.2, ?_⟩
  simp [randomChoice, hnone, hall, List.getElem?_eq_getElem hlt]

/-- **Drawing servers.** Where every block is at some server, any draws give a
route that reaches the end, and no server after the end was reached. -/
theorem makeSequenceWithMaxThroughput_ok (ht : t.Consistent n) (rtts : Peer → Option Rtt) (draw : Nat → Nat)
    {currentIndex endIndex : Int} (h0 : 0 ≤ currentIndex) (hend : endIndex ≤ n)
    (hheld : ∀ b, currentIndex ≤ b → b < endIndex → t.Holds b) (turn : Nat) :
    ∃ route last, makeSequenceWithMaxThroughput t rtts draw currentIndex endIndex turn = .ok route ∧
      Route t currentIndex route last ∧ endIndex ≤ max last currentIndex ∧
      ∀ s ∈ route.dropLast, s.stop < endIndex := by
  induction hk : (endIndex - currentIndex).toNat using Nat.strong_induction_on generalizing currentIndex turn with
  | _ k ih =>
    rw [makeSequenceWithMaxThroughput]
    by_cases hlt : currentIndex < endIndex
    · obtain ⟨u, hu, hc, hdraw⟩ := exists_randomChoice rtts (draw turn) (hheld _ le_rfl hlt)
      have hne : t.byPriority.filter (·.Contains currentIndex) ≠ [] :=
        List.ne_nil_of_mem (List.mem_filter.2 ⟨hu, by simpa using hc⟩)
      obtain ⟨route, last, hroute, hserved, hlast, hbefore⟩ := ih (endIndex - u.stop).toNat
        (by have := hc.2; omega) (by have := hc.2; omega) (fun b hb => hheld b (by have := hc.2; omega)) (turn + 1) rfl
      refine ⟨{ u with start := currentIndex } :: route, last, ?_, .cons hu hc.1 hc.2 le_rfl hserved, ?_, ?_⟩
      · simp [hlt, ht.spansAt h0 (by omega), Except.bind, hne, hdraw, hroute, Except.map,
          show u.start ≤ currentIndex ∧ currentIndex < u.stop from hc]
      · -- the route went past the end at once, or goes on from where `u` ends
        cases hserved with
        | nil => omega
        | cons _ _ h2 _ hrest =>
          have := hrest.le
          omega
      · cases route with
        | nil => simp
        | cons s route =>
          intro v hv
          rw [List.dropLast_cons_of_ne_nil (by simp)] at hv
          rcases List.mem_cons.1 hv with rfl | hv
          · -- there is a next server, so `u` did not reach the end
            by_contra hge
            rw [makeSequenceWithMaxThroughput, if_neg hge] at hroute
            exact absurd (Except.ok.inj hroute) (by simp)
          · exact hbefore v hv
    · exact ⟨[], currentIndex, by rw [if_neg hlt], .nil _, by omega, by simp⟩

/-- The first block of the range that no server has is the one the error names. -/
theorem makeSequenceWithMaxThroughput_error (ht : t.Consistent n) (rtts : Peer → Option Rtt) (draw : Nat → Nat)
    {currentIndex endIndex b : Int} (h0 : 0 ≤ currentIndex) (hend : endIndex ≤ n) (hle : currentIndex ≤ b)
    (hb : b < endIndex) (hno : ¬ t.Holds b) (hheld : ∀ c, currentIndex ≤ c → c < b → t.Holds c) (turn : Nat) :
    makeSequenceWithMaxThroughput t rtts draw currentIndex endIndex turn = .error (.missingBlocks [b]) := by
  induction hk : (endIndex - currentIndex).toNat using Nat.strong_induction_on generalizing currentIndex turn with
  | _ k ih =>
    rw [makeSequenceWithMaxThroughput, if_pos (by omega), ht.spansAt h0 (by omega)]
    by_cases he : currentIndex = b
    · subst he
      have hnil : t.byPriority.filter (·.Contains currentIndex) = [] :=
        List.filter_eq_nil_iff.2 fun s hs hc => hno ⟨s, hs, of_decide_eq_true hc⟩
      simp [Except.bind, hnil]
    · obtain ⟨u, hu, hc, hdraw⟩ := exists_randomChoice rtts (draw turn) (hheld _ le_rfl (by omega))
      have hne : t.byPriority.filter (·.Contains currentIndex) ≠ [] :=
        List.ne_nil_of_mem (List.mem_filter.2 ⟨hu, by simpa using hc⟩)
      -- the server drawn does not have `b`, so its span ends before it
      have hstop : u.stop ≤ b := by
        by_contra hlt
        exact hno ⟨u, hu, by have := hc.1; omega, by omega⟩
      have hrec := ih (endIndex - u.stop).toNat (by have := hc.2; omega) (by have := hc.2; omega) hstop
        (fun c hcu => hheld c (by have := hc.2; omega)) (turn + 1) rfl
      simp [Except.bind, hne, hdraw, hrec, Except.map,
        show u.start ≤ currentIndex ∧ currentIndex < u.stop from hc]

end consistent

section records

variable [LinearOrder Peer] {infos : List (RemoteModuleInfo Peer)} {t : SortedSpans Peer}

/-- Every server's records are what one declaration of it leaves. -/
def AllDeclared (infos : List (RemoteModuleInfo Peer)) : Prop :=
  ∀ p, ∃ startBlock endBlock, Declared infos p startBlock endBlock

/-- Where servers declare what they serve, the table has a server at a block
just when a record of it does. -/
theorem mem_byPriority_iff (ht : sortSpans infos = .some t) (hd : AllDeclared infos) (p : Peer) {b : Int}
    (h0 : 0 ≤ b) (hn : b < infos.length) :
    (∃ s ∈ t.byPriority, s.peerId = p ∧ s.Contains b) ↔ onlineRecord infos p b.toNat ≠ .none := by
  obtain ⟨t', ht', -, hmem⟩ := sortSpans_consistent infos
  obtain rfl : t' = t := Option.some.inj (ht'.symm.trans ht)
  obtain ⟨startBlock, endBlock, hp⟩ := hd p
  have hb : ((b.toNat : Nat) : Int) = b := by omega
  rw [get?_computeSpans_declared hp b.toNat (by omega), hb]
  constructor
  · rintro ⟨s, hs, rfl, hc⟩
    exact ⟨s, (hmem s).1 hs, hc⟩
  · rintro ⟨s, hs, hc⟩
    have hpeer : s.peerId = p := by
      have htraced := get?_computeSpans infos p
      rw [hs] at htraced
      exact htraced.peerId
    exact ⟨s, (hmem s).2 (hpeer ▸ hs), hpeer, hc⟩

theorem holds_iff (ht : sortSpans infos = .some t) (hd : AllDeclared infos) {b : Int} (h0 : 0 ≤ b)
    (hn : b < infos.length) : t.Holds b ↔ ∃ p, onlineRecord infos p b.toNat ≠ .none := by
  simp only [← mem_byPriority_iff ht hd _ h0 hn, SortedSpans.Holds]
  constructor
  · rintro ⟨s, hs, hc⟩
    exact ⟨s.peerId, s, hs, rfl, hc⟩
  · rintro ⟨p, s, hs, -, hc⟩
    exact ⟨s, hs, hc⟩

/-- **Routing by throughput.** Whatever servers are drawn: there is a route if
and only if every block of the range has a server online. A route goes from
block to block without a gap and past the end only with its last server, and
each of its servers is online at every block asked of it. With no route, the
error names the first block that no server has. -/
theorem throughput_route (ht : sortSpans infos = .some t) (hd : AllDeclared infos) (rtts : Peer → Option Rtt)
    (draw : Nat → Nat) {startIndex endIndex : Int} (h0 : 0 ≤ startIndex)
    (hn : endIndex ≤ infos.length) :
    ((∃ route, makeSequenceWithMaxThroughput t rtts draw startIndex endIndex 0 = .ok route) ↔
        ∀ b, startIndex ≤ b → b < endIndex → ∃ p, onlineRecord infos p b.toNat ≠ .none) ∧
      (∀ route, makeSequenceWithMaxThroughput t rtts draw startIndex endIndex 0 = .ok route →
        ∃ last, Span.Chain startIndex (route.map (·.span)) last ∧ endIndex ≤ last ∧
          (∀ s ∈ route.dropLast, s.stop < endIndex) ∧
          ∀ s ∈ route, s.start < s.stop ∧ ∀ b, s.Contains b → onlineRecord infos s.peerId b.toNat ≠ .none) ∧
      ∀ e, makeSequenceWithMaxThroughput t rtts draw startIndex endIndex 0 = .error e →
        ∃ b, e = .missingBlocks [b] ∧ startIndex ≤ b ∧ b < endIndex ∧ (∀ p, onlineRecord infos p b.toNat = .none) ∧
          ∀ c, startIndex ≤ c → c < b → ∃ p, onlineRecord infos p c.toNat ≠ .none := by
  obtain ⟨t', ht', hcons, -⟩ := sortSpans_consistent infos
  obtain rfl : t' = t := Option.some.inj (ht'.symm.trans ht)
  by_cases hall : ∀ b, startIndex ≤ b → b < endIndex → t'.Holds b
  · obtain ⟨route, last, hroute, hserved, hlast, hbefore⟩ :=
      makeSequenceWithMaxThroughput_ok hcons rtts draw h0 hn hall 0
    refine ⟨⟨fun _ b hb1 hb2 => (holds_iff ht hd (by omega) (by omega)).1 (hall b hb1 hb2), fun _ => ⟨route, hroute⟩⟩,
      fun r hr => ?_, fun e he => by rw [hroute] at he; cases he⟩
    obtain rfl : route = r := by
      rw [hroute] at hr
      exact Except.ok.inj hr
    refine ⟨last, hserved.chain, by have := hserved.le; omega, hbefore, fun s hs => ?_⟩
    obtain ⟨hstart, hlt, u, hu, hpeer, -, hsub⟩ := hserved.served hs
    refine ⟨hlt, fun b hb => ?_⟩
    have hw := hcons.within u hu
    have hub := hsub b hb
    exact (mem_byPriority_iff ht hd _ (hw.1.trans hub.1) (lt_of_lt_of_le hub.2 hw.2)).1 ⟨u, hu, hpeer, hub⟩
  · -- the first block that no server has
    have hex : ∃ k : Nat, startIndex + k < endIndex ∧ ¬ t'.Holds (startIndex + k) := by
      simp only [not_forall] at hall
      obtain ⟨b, hb1, hb2, hno⟩ := hall
      refine ⟨(b - startIndex).toNat, by omega, ?_⟩
      rwa [show startIndex + ((b - startIndex).toNat : Nat) = b by omega]
    classical
    obtain ⟨hk, hno⟩ := Nat.find_spec hex
    have hbefore : ∀ c, startIndex ≤ c → c < startIndex + (Nat.find hex : Nat) → t'.Holds c := by
      intro c hc1 hc2
      by_contra hc
      refine Nat.find_min hex (m := (c - startIndex).toNat) (by omega) ⟨by omega, ?_⟩
      rwa [show startIndex + ((c - startIndex).toNat : Nat) = c by omega]
    have herr := makeSequenceWithMaxThroughput_error hcons rtts draw h0 hn (by omega) hk hno hbefore 0
    have hnone := fun p => not_not.1 (not_exists.1 ((holds_iff ht hd (by omega) (by omega)).not.1 hno) p)
    refine ⟨⟨fun h => ?_, fun h => ?_⟩, fun route hr => ?_, fun e he => ?_⟩
    · obtain ⟨route, hr⟩ := h
      rw [herr] at hr
      cases hr
    · obtain ⟨p, hp⟩ := h _ (by omega) hk
      exact absurd (hnone p) hp
    · rw [herr] at hr
      cases hr
    · rw [herr] at he
      obtain rfl := Except.error.inj he
      exact ⟨_, rfl, by omega, hk, hnone, fun c hc1 hc2 =>
        (holds_iff ht hd (by omega) (by omega)).1 (hbefore c hc1 hc2)⟩

end records

/-! ## Tables of declarations -/

/-- The block is one the server declares. -/
def ServerInfo.Covers (info : ServerInfo Peer) (b : Nat) : Prop :=
  ∃ startBlock ∈ info.startBlock, ∃ endBlock ∈ info.endBlock, startBlock ≤ b ∧ b < endBlock

instance (info : ServerInfo Peer) (b : Nat) : Decidable (info.Covers b) :=
  inferInstanceAs (Decidable (∃ startBlock ∈ info.startBlock, ∃ endBlock ∈ info.endBlock, _))

section announced

variable [LinearOrder Peer] {dhtPrefix : String} {numBlocks : Nat} {servers : Dict Peer (ServerInfo Peer)}

/-- The records once every server has declared the blocks between its bounds
(`declare_active_modules`): the same record under each of them. -/
def announced (dhtPrefix : String) (numBlocks : Nat) (servers : Dict Peer (ServerInfo Peer)) :
    List (RemoteModuleInfo Peer) :=
  (List.range numBlocks).map fun (b : Nat) =>
    ⟨⟨dhtPrefix, b⟩, servers.filter fun p => (servers.get? p).any (·.Covers b)⟩

theorem blockOffsetOf_announced : blockOffsetOf (announced dhtPrefix numBlocks servers) = 0 := by
  cases numBlocks with
  | zero => rfl
  | succ k => simp [announced, blockOffsetOf, List.range_succ_eq_map]

theorem onlineRecord_announced {p : Peer} {b : Nat} {info : ServerInfo Peer} :
    onlineRecord (announced dhtPrefix numBlocks servers) p b = .some info ↔
      b < numBlocks ∧ servers.get? p = .some info ∧ info.state = .online ∧ info.Covers b := by
  by_cases hb : b < numBlocks
  · cases hp : servers.get? p with
    | none => simp [onlineRecord, announced, hb, Dict.get?_filter, hp]
    | some info' =>
      by_cases hc : info'.Covers b <;>
        simp [onlineRecord, announced, hb, Dict.get?_filter, hp, hc, Option.filter_eq_some_iff] <;> grind
  · simp [onlineRecord, announced, hb]

/-- **Declared tables are what routing expects.** -/
theorem announced_declared : AllDeclared (announced dhtPrefix numBlocks servers) := by
  intro p
  have hnone (hno : ∀ b, onlineRecord (announced dhtPrefix numBlocks servers) p b = .none) :
      Declared (announced dhtPrefix numBlocks servers) p 0 0 :=
    ⟨fun b info h => by simp [hno] at h, fun b _ => by simp [hno, blockOffsetOf_announced]⟩
  by_cases hserves : ∃ b info, onlineRecord (announced dhtPrefix numBlocks servers) p b = .some info
  · obtain ⟨b, info, h⟩ := hserves
    obtain ⟨-, hp, hon, startBlock, hstart, endBlock, hend, -⟩ := onlineRecord_announced.1 h
    refine ⟨startBlock, endBlock, fun c info' h' => ?_, fun c hc => ?_⟩
    · obtain ⟨-, hp', -⟩ := onlineRecord_announced.1 h'
      obtain rfl := Option.some.inj (hp.symm.trans hp')
      exact ⟨hstart, hend⟩
    · rw [← Option.isSome_iff_ne_none, Option.isSome_iff_exists, blockOffsetOf_announced]
      constructor
      · rintro ⟨info', h'⟩
        obtain ⟨-, hp', -, s, hs, e, he, hcov⟩ := onlineRecord_announced.1 h'
        obtain rfl := Option.some.inj (hp.symm.trans hp')
        obtain rfl := Option.some.inj (hstart.symm.trans hs)
        obtain rfl := Option.some.inj (hend.symm.trans he)
        omega
      · intro hcov
        have hb : c < numBlocks := by simpa [announced] using hc
        exact ⟨info, onlineRecord_announced.2 ⟨hb, hp, hon, startBlock, hstart, endBlock, hend, by omega⟩⟩
  · refine ⟨0, 0, hnone fun b => ?_⟩
    rw [Option.eq_none_iff_forall_ne_some]
    exact fun info h => hserves ⟨b, info, h⟩

/-- A server's span is what it declared, cut to the blocks of the table. -/
theorem span_announced {t : SortedSpans Peer} (ht : sortSpans (announced dhtPrefix numBlocks servers) = .some t)
    {s : RemoteSpanInfo Peer} (hs : s ∈ t.byPriority) :
    servers.get? s.peerId = .some s.serverInfo ∧ ∃ startBlock ∈ s.serverInfo.startBlock,
      ∃ endBlock ∈ s.serverInfo.endBlock, s.start = startBlock ∧ s.stop = min (endBlock : Int) numBlocks := by
  obtain ⟨t', ht', -, hmem⟩ := sortSpans_consistent (announced dhtPrefix numBlocks servers)
  obtain rfl := Option.some.inj (ht'.symm.trans ht)
  have htraced := get?_computeSpans (announced dhtPrefix numBlocks servers) s.peerId
  have hlen : (announced dhtPrefix numBlocks servers).length = numBlocks := by simp [announced]
  rw [(hmem s).1 hs, blockOffsetOf_announced, hlen] at htraced
  generalize hp : s.peerId = p at htraced
  cases htraced with
  | @some first last info hle hlt hfirst hlast hbefore hafter =>
    obtain ⟨hn, hget, -, startBlock, hstart, endBlock, hend, hcov⟩ := onlineRecord_announced.1 hfirst
    obtain ⟨info', hlast⟩ := Option.ne_none_iff_exists'.1 hlast
    obtain ⟨-, hget', -, s', -, e', hend', hcov'⟩ := onlineRecord_announced.1 hlast
    obtain rfl := Option.some.inj (hget.symm.trans hget')
    obtain rfl := Option.some.inj (hend.symm.trans hend')
    have hnew : newSpan 0 numBlocks first p info =
        ⟨p, max (startBlock - 0 : Int) 0, min (endBlock - 0 : Int) numBlocks, info⟩ := by
      simp only [newSpan, Option.mem_def.1 hstart, Option.mem_def.1 hend]
    simp only [hnew]
    refine ⟨hget, startBlock, hstart, endBlock, hend, by omega, ?_⟩
    split <;> omega

end announced

def onlineInfo (startBlock endBlock : Nat) (inferenceRps : Option ℚ≥0) : ServerInfo Nat :=
  ⟨.online, .some startBlock, .some endBlock, inferenceRps, [], .none, .none⟩

/-- Three blocks at three servers, and a fourth block at none. -/
def threeServers : Dict Nat (ServerInfo Nat) :=
  ((Dict.empty.set 5 (onlineInfo 0 2 .none)).set 7 (onlineInfo 1 3 (.some 40))).set 9 (onlineInfo 2 3 .none)

theorem threeServers_held {b : Int} (h0 : 0 ≤ b) (hb : b < 3) :
    ∃ p, onlineRecord (announced "model" 4 threeServers) p b.toNat ≠ .none := by
  obtain rfl | rfl | rfl : b = 0 ∨ b = 1 ∨ b = 2 := by omega
  · exact ⟨5, Option.ne_none_iff_exists'.2 ⟨_, onlineRecord_announced.2 ⟨by decide, rfl, by decide, by decide⟩⟩⟩
  · exact ⟨7, Option.ne_none_iff_exists'.2 ⟨_, onlineRecord_announced.2 ⟨by decide, rfl, by decide, by decide⟩⟩⟩
  · exact ⟨9, Option.ne_none_iff_exists'.2 ⟨_, onlineRecord_announced.2 ⟨by decide, rfl, by decide, by decide⟩⟩⟩

theorem threeServers_records {p : Nat} {info : ServerInfo Nat} (h : threeServers.get? p = .some info) :
    p = 5 ∧ info = onlineInfo 0 2 .none ∨ p = 7 ∧ info = onlineInfo 1 3 (.some 40) ∨
      p = 9 ∧ info = onlineInfo 2 3 .none := by
  simp only [threeServers, Dict.get?_set, Dict.get?_empty] at h
  split at h
  · next hp => exact .inr (.inr ⟨hp, (Option.some.inj h).symm⟩)
  · split at h
    · next hp => exact .inr (.inl ⟨hp, (Option.some.inj h).symm⟩)
    · split at h
      · next hp => exact .inl ⟨hp, (Option.some.inj h).symm⟩
      · cases h

theorem threeServers_spans {t : SortedSpans Nat} (ht : sortSpans (announced "model" 4 threeServers) = .some t)
    {s : RemoteSpanInfo Nat} (hs : s ∈ t.byPriority) :
    s = ⟨5, 0, 2, onlineInfo 0 2 .none⟩ ∨ s = ⟨7, 1, 3, onlineInfo 1 3 (.some 40)⟩ ∨
      s = ⟨9, 2, 3, onlineInfo 2 3 .none⟩ := by
  obtain ⟨hget, startBlock, hstart, endBlock, hend, hlo, hhi⟩ := span_announced ht hs
  obtain ⟨peerId, start, stop, info⟩ := s
  dsimp only at hget hstart hend hlo hhi
  obtain ⟨rfl, rfl⟩ | ⟨rfl, rfl⟩ | ⟨rfl, rfl⟩ := threeServers_records hget <;>
    obtain rfl := Option.some.inj hstart <;> obtain rfl := Option.some.inj hend <;> simp [hlo, hhi]

/-- The first three blocks have a route, of two servers at least; with the
fourth there is none, and the error names it. -/
theorem threeServers_route : ∃ t, sortSpans (announced "model" 4 threeServers) = .some t ∧
    (∃ route last, makeSequenceWithMaxThroughput t (fun _ => .none) id 0 3 0 = .ok route ∧
      Span.Chain 0 (route.map (·.span)) last ∧ 3 ≤ last ∧ 2 ≤ route.length) ∧
    makeSequenceWithMaxThroughput t (fun _ => .none) id 0 4 0 = .error (.missingBlocks [3]) := by
  obtain ⟨t, ht, -⟩ := sortSpans_consistent (announced "model" 4 threeServers)
  have hthree : (3 : Int) ≤ (announced "model" 4 threeServers).length := by decide
  have hfour : (4 : Int) ≤ (announced "model" 4 threeServers).length := by decide
  refine ⟨t, ht, ?_, ?_⟩
  · obtain ⟨hiff, hroute, -⟩ := throughput_route ht announced_declared (fun _ => .none) id (le_refl (0 : Int)) hthree
    obtain ⟨route, hok⟩ := hiff.2 fun b => threeServers_held
    obtain ⟨last, hchain, hlast, -, honline⟩ := hroute route hok
    refine ⟨route, last, hok, hchain, hlast, ?_⟩
    cases route with
    | nil =>
      obtain rfl : (0 : Int) = last := hchain
      omega
    | cons s rest =>
      cases rest with
      | cons => simp
      | nil =>
        obtain ⟨hlo, hhi⟩ : s.start = 0 ∧ s.stop = last := hchain
        obtain ⟨-, hboth⟩ := honline s (by simp)
        obtain ⟨info, h₀⟩ := Option.ne_none_iff_exists'.1 (hboth 0 ⟨by omega, by omega⟩)
        obtain ⟨info', h₂⟩ := Option.ne_none_iff_exists'.1 (hboth 2 ⟨by omega, by omega⟩)
        obtain ⟨-, hget, -, hcov₀⟩ := onlineRecord_announced.1 h₀
        obtain ⟨-, hget', -, hcov₂⟩ := onlineRecord_announced.1 h₂
        obtain rfl := Option.some.inj (hget.symm.trans hget')
        obtain ⟨-, rfl⟩ | ⟨-, rfl⟩ | ⟨-, rfl⟩ := threeServers_records hget
        · exact absurd hcov₂ (by decide)
        · exact absurd hcov₀ (by decide)
        · exact absurd hcov₀ (by decide)
  · obtain ⟨hiff, -, herror⟩ := throughput_route ht announced_declared (fun _ => .none) id (le_refl (0 : Int)) hfour
    cases hresult : makeSequenceWithMaxThroughput t (fun _ => .none) id 0 4 0 with
    | ok route =>
      obtain ⟨p, hp⟩ := hiff.1 ⟨route, hresult⟩ 3 (by decide) (by decide)
      obtain ⟨info, hrecord⟩ := Option.ne_none_iff_exists'.1 hp
      obtain ⟨-, hget, -, hcov⟩ := onlineRecord_announced.1 hrecord
      obtain ⟨-, rfl⟩ | ⟨-, rfl⟩ | ⟨-, rfl⟩ := threeServers_records hget <;> exact absurd hcov (by decide)
    | error e =>
      obtain ⟨b, rfl, hb₀, hb, hno, -⟩ := herror e hresult
      by_cases hlt : b < 3
      · obtain ⟨p, hp⟩ := threeServers_held hb₀ hlt
        exact absurd (hno p) hp
      · rw [show b = 3 by omega]

end Petals

end Blitzwing
