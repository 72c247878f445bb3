/-
How a client's table follows the DHT and the failures it sees.

A refresh takes the fetched records, drops the servers the client may not use
and those banned for a while, and sorts the rest into the table of
`Petals.Spans`. A failure takes the server off the records but leaves the
sorted table as it is, until some block has no server left and a refresh is
asked for. So between two refreshes every route is made from the table of the
first (`manager_run`), servers that failed since included.
-/
import Blitzwing.Petals.Routing

namespace Blitzwing

namespace Petals

variable {Peer : Type} [LinearOrder Peer]

/-- An adapter is asked for by name; none is needed for the plain model. -/
def ServerInfo.offers (info : ServerInfo Peer) (activeAdapter : Option String) : Bool :=
  activeAdapter.all fun a => a.isEmpty || info.adapters.contains a

/-- `_get_remote_module_infos`: what the DHT has under each uid, less the
servers without the adapter asked for. -/
def getRemoteModuleInfos (found : ModuleUID → Dict Peer (ServerInfo Peer)) (activeAdapter : Option String)
    (uids : List ModuleUID) : List (RemoteModuleInfo Peer) :=
  uids.map fun uid =>
    { uid
      servers := (found uid).filter fun p => ((found uid).get? p).any (·.offers activeAdapter) }

/-- `RemoteSequenceInfo`: the records as last fetched, less the servers that
failed since, and the table sorted from them when they were fetched. -/
structure RemoteSequenceInfo (Peer : Type) where
  blockUids : List ModuleUID
  blockInfos : List (RemoteModuleInfo Peer)
  spans : SortedSpans Peer

/-- `make_empty` -/
def RemoteSequenceInfo.empty (blockUids : List ModuleUID) : RemoteSequenceInfo Peer where
  blockUids
  blockInfos := blockUids.map fun uid => { uid, servers := .empty }
  spans := { byPriority := [], containingBlock := blockUids.map fun _ => [] }

/-- `update_`; `none` when an entry is of another block. -/
def RemoteSequenceInfo.update (info : RemoteSequenceInfo Peer) (newBlockInfos : List (RemoteModuleInfo Peer)) :
    Option (RemoteSequenceInfo Peer) :=
  if newBlockInfos.map (·.uid) = info.blockUids then
    (sortSpans newBlockInfos).map fun spans => { info with blockInfos := newBlockInfos, spans }
  else .none

structure SequenceManager (Peer : Type) where
  activeAdapter : Option String
  allowedServers : Option (List Peer)
  blockedServers : Option (List Peer)
  info : RemoteSequenceInfo Peer
  ready : Bool

namespace SequenceManager

variable (m : SequenceManager Peer)

/-- The allow and block lists. -/
def allows (p : Peer) : Bool :=
  m.allowedServers.all (·.contains p) && m.blockedServers.all (!·.contains p)

/-- The servers of one block a refresh keeps: banned ones go, unless there is
no other. -/
def keptServers (banned : Peer → Bool) (servers : Dict Peer (ServerInfo Peer)) : Dict Peer (ServerInfo Peer) :=
  let servers := servers.filter m.allows
  let validServers := servers.filter fun p => !banned p
  if validServers.items.length < servers.items.length then
    if validServers.items = [] then servers else validServers
  else servers

/-- `_update`, on what the DHT has under each uid. The pings between the table,
which is written under the lock, and `ready` are left out: both come at once. -/
def refresh (banned : Peer → Bool) (found : ModuleUID → Dict Peer (ServerInfo Peer)) : Option (SequenceManager Peer) :=
  let newBlockInfos := getRemoteModuleInfos found m.activeAdapter m.info.blockUids
  (m.info.update (newBlockInfos.map fun info => { info with servers := m.keptServers banned info.servers })).map
    fun info => { m with info, ready := true }

/-- `on_request_failure`: the server is taken off the records, and a refresh
asked for once a block has none. -/
def onRequestFailure (peerId : Option Peer) : SequenceManager Peer :=
  let blockInfos := m.info.blockInfos.map fun info =>
    { info with servers := peerId.elim info.servers info.servers.erase }
  { m with
    info := { m.info with blockInfos }
    ready := m.ready && !blockInfos.any fun info => info.servers.items.isEmpty }

/-- What happens to a manager between two requests. A refresh that raised is
logged by the update thread and changes nothing. -/
inductive Event (Peer : Type)
  | refresh (banned : Peer → Bool) (found : ModuleUID → Dict Peer (ServerInfo Peer))
  | failure (peerId : Option Peer)

def next (m : SequenceManager Peer) : Event Peer → SequenceManager Peer
  | .refresh banned found => (m.refresh banned found).getD m
  | .failure peerId => m.onRequestFailure peerId

def new (activeAdapter : Option String) (allowedServers blockedServers : Option (List Peer))
    (blockUids : List ModuleUID) : SequenceManager Peer where
  activeAdapter
  allowedServers
  blockedServers
  info := .empty blockUids
  ready := false

/-! ## What a refresh keeps -/

variable {m}

theorem get?_keptServers (banned : Peer → Bool) (servers : Dict Peer (ServerInfo Peer)) (p : Peer) :
    (m.keptServers banned servers).get? p =
      if m.allows p ∧ (banned p = true → ∀ q ∈ servers.keys, m.allows q = true → banned q = true) then servers.get? p
      else .none := by
  unfold keptServers
  dsimp only
  generalize hallowed : servers.filter m.allows = allowed
  generalize hvalid : (allowed.filter fun p => !banned p) = valid
  have hget : ∀ q, allowed.get? q = if m.allows q then servers.get? q else .none := by
    intro q
    rw [← hallowed, Dict.get?_filter]
  have hgetValid : ∀ q, valid.get? q = if banned q = true then .none else allowed.get? q := by
    intro q
    rw [← hvalid, Dict.get?_filter]
    cases banned q <;> rfl
  have hlen : valid.items.length = allowed.items.length ↔ ∀ q ∈ allowed.keys, banned q = false := by
    rw [← hvalid]
    simp only [Dict.filter, List.length_filter_eq_length_iff, Dict.keys, List.mem_map, Bool.not_eq_true']
    constructor
    · rintro h q ⟨r, hr, rfl⟩
      exact h r hr
    · exact fun h r hr => h r.1 ⟨r, hr, rfl⟩
  have hle : valid.items.length ≤ allowed.items.length := by
    rw [← hvalid]
    exact List.length_filter_le ..
  have hnil : valid.items = [] ↔ ∀ q ∈ servers.keys, m.allows q = true → banned q = true := by
    rw [← hvalid, ← hallowed]
    simp only [Dict.filter, List.filter_eq_nil_iff, List.mem_filter, Dict.keys, List.mem_map, Bool.not_eq_true',
      Bool.not_eq_false]
    constructor
    · rintro h q ⟨r, hr, rfl⟩ hq
      exact h r ⟨hr, hq⟩
    · rintro h r ⟨hr, hq⟩
      exact h r.1 ⟨r, hr, rfl⟩ hq
  by_cases hp : m.allows p = true
  · split
    · next hlt =>
      by_cases hempty : valid.items = []
      · rw [if_pos hempty, hget, if_pos hp, if_pos ⟨hp, fun _ => hnil.1 hempty⟩]
      · rw [if_neg hempty, hgetValid, hget, if_pos hp]
        cases hb : banned p with
        | false => simp [hp]
        | true => simp [hp, hnil.not.1 hempty]
    · next hge =>
      -- nobody allowed is banned
      have hnone := hlen.1 (by omega)
      rw [hget, if_pos hp]
      cases hg : servers.get? p with
      | none => simp
      | some info =>
        have hb : banned p = false := hnone p (Dict.mem_keys.2 ⟨info, by rw [hget, if_pos hp, hg]⟩)
        simp [hp, hb]
  · have hno : allowed.get? p = .none := by rw [hget, if_neg hp]
    have hnoValid : valid.get? p = .none := by rw [hgetValid, hno, ite_self]
    have hout : ¬ (m.allows p = true ∧
        (banned p = true → ∀ q ∈ servers.keys, m.allows q = true → banned q = true)) := fun h => hp h.1
    rw [if_neg hout]
    split
    · split
      · exact hno
      · exact hnoValid
    · exact hno

/-- The records a refresh leaves. -/
def kept (m : SequenceManager Peer) (banned : Peer → Bool) (found : ModuleUID → Dict Peer (ServerInfo Peer)) :
    List (RemoteModuleInfo Peer) :=
  (getRemoteModuleInfos found m.activeAdapter m.info.blockUids).map fun info =>
    { info with servers := m.keptServers banned info.servers }

theorem refresh_eq (m : SequenceManager Peer) (banned : Peer → Bool)
    (found : ModuleUID → Dict Peer (ServerInfo Peer)) : ∃ t, sortSpans (m.kept banned found) = .some t ∧
      m.next (.refresh banned found) =
        { m with info := { m.info with blockInfos := m.kept banned found, spans := t }, ready := true } := by
  obtain ⟨t, ht, -⟩ := sortSpans_consistent (m.kept banned found)
  refine ⟨t, ht, ?_⟩
  have huids : (m.kept banned found).map (·.uid) = m.info.blockUids := by
    simp [kept, getRemoteModuleInfos, List.map_map, Function.comp_def]
  have hupdate : m.info.update (m.kept banned found) =
      .some { m.info with blockInfos := m.kept banned found, spans := t } := by
    rw [RemoteSequenceInfo.update, if_pos huids, ht]
    rfl
  have hrefresh : m.refresh banned found = (m.info.update (m.kept banned found)).map
    fun info => { m with info, ready := true } := rfl
  rw [next, hrefresh, hupdate]
  rfl

/-! ## From one refresh to the next -/

/-- The records less the servers that failed. -/
def without (failed : List (Option Peer)) (info : RemoteModuleInfo Peer) : RemoteModuleInfo Peer :=
  { info with servers := info.servers.filter fun p => .some p ∉ failed }

theorem without_snoc (failed : List (Option Peer)) (peerId : Option Peer) (info : RemoteModuleInfo Peer) :
    { without failed info with
      servers := peerId.elim (without failed info).servers (without failed info).servers.erase } =
      without (failed ++ [peerId]) info := by
  cases peerId with
  | none => simp [without]
  | some q =>
    simp only [without, Option.elim_some, Dict.erase, Dict.filter, List.filter_filter]
    congr 2
    refine List.filter_congr fun r _ => ?_
    by_cases hr : r.1 = q
    · simp [hr]
    · simp [hr]

theorem isEmpty_without {failed : List (Option Peer)} {info : RemoteModuleInfo Peer} :
    (without failed info).servers.items.isEmpty = false ↔ ∃ p ∈ info.servers.keys, .some p ∉ failed := by
  simp only [without, Dict.filter, Dict.keys, List.isEmpty_eq_false_iff, ne_eq, List.filter_eq_nil_iff, not_forall,
    List.mem_map, decide_eq_true_eq, not_not]
  constructor
  · rintro ⟨r, hr, hf⟩
    exact ⟨r.1, ⟨r, hr, rfl⟩, hf⟩
  · rintro ⟨_, ⟨r, hr, rfl⟩, hf⟩
    exact ⟨r, hr, hf⟩

/-- The failures of a run, one after the other: the sorted table stays, and
the manager stays ready as long as each block has a server that did not fail. -/
theorem foldl_failures (m : SequenceManager Peer) (failed : List (Option Peer)) :
    ∃ ready, (failed.map Event.failure).foldl next m =
        { m with info := { m.info with blockInfos := m.info.blockInfos.map (without failed) }, ready } ∧
      (ready = true ↔ m.ready = true ∧
        (failed = [] ∨ ∀ info ∈ m.info.blockInfos, ∃ p ∈ info.servers.keys, .some p ∉ failed)) := by
  induction failed using List.reverseRecOn with
  | nil =>
    refine ⟨m.ready, ?_, by simp⟩
    have hid : (without [] : RemoteModuleInfo Peer → RemoteModuleInfo Peer) = id := by
      funext info
      simp [without, Dict.filter]
    simp [hid]
  | append_singleton failed peerId ih =>
    obtain ⟨ready, hrun, hready⟩ := ih
    have hall : (!(m.info.blockInfos.map (without (failed ++ [peerId]))).any fun info =>
        info.servers.items.isEmpty) = true ↔
        ∀ info ∈ m.info.blockInfos, ∃ p ∈ info.servers.keys, .some p ∉ failed ++ [peerId] := by
      simp only [Bool.not_eq_true', List.any_eq_false, List.mem_map, forall_exists_index, and_imp,
        forall_apply_eq_imp_iff₂, Bool.not_eq_true, isEmpty_without]
    refine ⟨ready && !(m.info.blockInfos.map (without (failed ++ [peerId]))).any fun info =>
      info.servers.items.isEmpty, ?_, ?_⟩
    · rw [List.map_append, List.foldl_append, hrun]
      simp only [List.map_cons, List.map_nil, List.foldl_cons, List.foldl_nil, next, onRequestFailure, List.map_map,
        Function.comp_def, without_snoc]
    · rw [Bool.and_eq_true, hall, hready]
      constructor
      · exact fun h => ⟨h.1.1, .inr h.2⟩
      · rintro ⟨hm, hno | h⟩
        · simp at hno
        · refine ⟨⟨hm, .inr fun info hi => ?_⟩, h⟩
          obtain ⟨p, hp, hf⟩ := h info hi
          exact ⟨p, hp, fun hf' => hf (List.mem_append_left _ hf')⟩

/-- The configuration and the blocks are those the manager was made with. -/
theorem foldl_next_config (m : SequenceManager Peer) (events : List (Event Peer)) :
    (events.foldl next m).activeAdapter = m.activeAdapter ∧ (events.foldl next m).allows = m.allows ∧
      (events.foldl next m).info.blockUids = m.info.blockUids := by
  induction events generalizing m with
  | nil => exact ⟨rfl, rfl, rfl⟩
  | cons e events ih =>
    obtain ⟨ha, hl, hu⟩ := ih (m.next e)
    rw [List.foldl_cons, ha, hl, hu]
    cases e with
    | failure peerId => exact ⟨rfl, rfl, rfl⟩
    | refresh banned found =>
      obtain ⟨t, -, hnext⟩ := m.refresh_eq banned found
      rw [hnext]
      exact ⟨rfl, rfl, rfl⟩

/-- The DHT has `p` at the block with the adapter asked for, and the client
may use it. -/
def Usable (m : SequenceManager Peer) (found : ModuleUID → Dict Peer (ServerInfo Peer)) (uid : ModuleUID) (p : Peer) :
    Prop :=
  m.allows p = true ∧ ∃ info, (found uid).get? p = .some info ∧ info.offers m.activeAdapter = true

/-- `p` is usable, and not banned unless all usable servers of the block are. -/
def Keeps (m : SequenceManager Peer) (banned : Peer → Bool) (found : ModuleUID → Dict Peer (ServerInfo Peer))
    (uid : ModuleUID) (p : Peer) : Prop :=
  m.Usable found uid p ∧ (banned p = true → ∀ q, m.Usable found uid q → banned q = true)

theorem get?_kept (m : SequenceManager Peer) (banned : Peer → Bool)
    (found : ModuleUID → Dict Peer (ServerInfo Peer)) {b : Nat} {uid : ModuleUID}
    (hb : m.info.blockUids[b]? = .some uid) : ∃ info, (m.kept banned found)[b]? = .some info ∧
      ∀ p record, info.servers.get? p = .some record ↔
        m.Keeps banned found uid p ∧ (found uid).get? p = .some record := by
  refine ⟨_, by simp only [kept, getRemoteModuleInfos, List.map_map, List.getElem?_map, hb, Option.map_some]; rfl,
    fun p record => ?_⟩
  generalize hserved : ((found uid).filter fun p => ((found uid).get? p).any (·.offers m.activeAdapter)) = served
  have hget : ∀ q record, served.get? q = .some record ↔
      (found uid).get? q = .some record ∧ record.offers m.activeAdapter = true := by
    intro q record
    rw [← hserved, Dict.get?_filter]
    cases (found uid).get? q with
    | none => simp
    | some r =>
      by_cases ho : r.offers m.activeAdapter = true
      · simp only [Option.any_some, ho, if_true, Option.some.injEq]
        exact ⟨fun h => ⟨h, h ▸ ho⟩, And.left⟩
      · simp only [Option.any_some, ho, if_false, Option.some.injEq, reduceCtorEq, false_iff, not_and]
        exact fun h => h ▸ ho
  have husable : ∀ q, q ∈ served.keys ∧ m.allows q = true ↔ m.Usable found uid q := by
    intro q
    simp only [Dict.mem_keys, hget, Usable]
    tauto
  dsimp only [Function.comp]
  rw [hserved, get?_keptServers]
  have hbanned : (∀ q ∈ served.keys, m.allows q = true → banned q = true) ↔
      ∀ q, m.Usable found uid q → banned q = true := by
    simp only [← husable, and_imp]
  split
  · next h =>
    rw [hget]
    constructor
    · exact fun hr => ⟨⟨⟨h.1, record, hr⟩, fun hb => hbanned.1 (h.2 hb)⟩, hr.1⟩
    · rintro ⟨⟨⟨-, r, hr⟩, -⟩, hf⟩
      obtain rfl := Option.some.inj (hr.1.symm.trans hf)
      exact hr
  · next h =>
    simp only [reduceCtorEq, false_iff, not_and]
    exact fun hk => absurd ⟨hk.1.1, fun hb => hbanned.2 (hk.2 hb)⟩ h

end SequenceManager

/-- **Between refreshes.** After any run, a last refresh and any failures since:
routes are still made from the records that refresh kept, the servers that
failed included. A server is kept where the DHT has it usable, if it is not
banned or the block's usable servers all are. And the next route waits for a
refresh just when, after some failure, a block has no kept server that did not
fail. -/
theorem manager_run (activeAdapter : Option String) (allowedServers blockedServers : Option (List Peer))
    (blockUids : List ModuleUID) (earlier : List (SequenceManager.Event Peer)) (banned : Peer → Bool)
    (found : ModuleUID → Dict Peer (ServerInfo Peer)) (failed : List (Option Peer)) :
    let new := SequenceManager.new activeAdapter allowedServers blockedServers blockUids
    let m := (earlier ++ SequenceManager.Event.refresh banned found :: failed.map SequenceManager.Event.failure).foldl
      SequenceManager.next new
    (∃ infos, sortSpans infos = .some m.info.spans ∧ infos.length = blockUids.length ∧
      ∀ (b : Nat) uid, blockUids[b]? = .some uid → ∃ info, infos[b]? = .some info ∧
        ∀ p record, info.servers.get? p = .some record ↔
          new.Keeps banned found uid p ∧ (found uid).get? p = .some record) ∧
    (m.ready = true ↔
      failed = [] ∨ ∀ uid ∈ blockUids, ∃ p, new.Keeps banned found uid p ∧ .some p ∉ failed) := by
  intro new m
  obtain ⟨hadapter, hallows, huids⟩ := new.foldl_next_config earlier
  generalize hbefore : earlier.foldl SequenceManager.next new = before at hadapter hallows huids
  have huids : before.info.blockUids = blockUids := huids
  obtain ⟨t, ht, hnext⟩ := before.refresh_eq banned found
  have hkeeps : ∀ uid p, before.Keeps banned found uid p ↔ new.Keeps banned found uid p := by
    simp only [SequenceManager.Keeps, SequenceManager.Usable, hadapter, hallows, implies_true]
  obtain ⟨ready, hrun, hready⟩ := (before.next (.refresh banned found)).foldl_failures failed
  have hm : m = (failed.map SequenceManager.Event.failure).foldl SequenceManager.next
      (before.next (.refresh banned found)) := by
    simp only [m, List.foldl_append, List.foldl_cons, hbefore]
  rw [hm, hrun]
  rw [hnext] at hready ⊢
  dsimp only at hready ⊢
  have hinfos : ∀ (b : Nat) uid, blockUids[b]? = .some uid → ∃ info, (before.kept banned found)[b]? = .some info ∧
      ∀ p record, info.servers.get? p = .some record ↔
        new.Keeps banned found uid p ∧ (found uid).get? p = .some record := by
    intro b uid hb
    rw [← huids] at hb
    obtain ⟨info, hi, hget⟩ := before.get?_kept banned found hb
    exact ⟨info, hi, fun p record => by rw [hget, hkeeps]⟩
  have hlen : (before.kept banned found).length = blockUids.length := by
    simp [SequenceManager.kept, getRemoteModuleInfos, huids]
  refine ⟨⟨_, ht, hlen, hinfos⟩, ?_⟩
  rw [hready]
  simp only [true_and]
  refine or_congr_right ?_
  -- each block's records against its uid
  have hkeys : ∀ (b : Nat) uid info, blockUids[b]? = .some uid → (before.kept banned found)[b]? = .some info →
      ((∃ p ∈ info.servers.keys, .some p ∉ failed) ↔ ∃ p, new.Keeps banned found uid p ∧ .some p ∉ failed) := by
    intro b uid info hb hi
    obtain ⟨info', hi', hget⟩ := hinfos b uid hb
    obtain rfl := Option.some.inj (hi.symm.trans hi')
    refine exists_congr fun p => and_congr_left fun _ => ?_
    rw [Dict.mem_keys]
    constructor
    · rintro ⟨record, hr⟩
      exact ((hget p record).1 hr).1
    · intro hk
      obtain ⟨record, hr, -⟩ := hk.1.2
      exact ⟨record, (hget p record).2 ⟨hk, hr⟩⟩
  constructor
  · intro h uid hu
    obtain ⟨b, hb⟩ := List.mem_iff_getElem?.1 hu
    obtain ⟨info, hi, -⟩ := hinfos b uid hb
    exact (hkeys b uid info hb hi).1 (h info (List.mem_of_getElem? hi))
  · intro h info hi
    obtain ⟨b, hb⟩ := List.mem_iff_getElem?.1 hi
    have hlt : b < blockUids.length := hlen ▸ (List.getElem?_eq_some_iff.1 hb).1
    exact (hkeys b _ info (List.getElem?_eq_getElem hlt) hb).2 (h _ (List.getElem_mem hlt))

end Petals

end Blitzwing
