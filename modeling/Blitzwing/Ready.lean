/-
`hosts_ready` of `orchestrator/app/main.py`: the checks in front of a handoff.

`mark_ready` shrinks the donor, so what the handler has found out before it
gets there (`readyGate`) is all that stands between a handoff and a gap. A
request gets there on any of three findings, or on none: one that names no
peer address beside the mother's own is let through whatever the checks said,
since contributors behind NAT have none (`reachesMarkReady_iff`).

The handoff is meant to wait until the newcomer is verified serving its slice
(`Established`). Only a report that names the range is that, or a view with a
server beside the donor, whom the check counts as well; every other way to
`mark_ready` shrinks a donor nobody stands in for (`verified_iff`,
`unserved_shrink`).

What is published about the handoff afterwards, the ENS record, is an
argument: it runs after `mark_ready` and may change the registry or raise.
-/
import Blitzwing.Probes
import Blitzwing.Lifecycle

namespace Blitzwing

/-- The settings the handler reads. -/
structure ReadySettings where
  initialPeers : List String
  skipReadyVerify : Bool := false
  readyVerifyTimeoutSeconds : Int := 120
deriving DecidableEq, Repr

structure HostReadyRequest where
  hostId : String
  peerMultiaddr : Option String := .none
deriving DecidableEq, Repr

/-- `pending.pending_range or pending.block_indices` -/
def HostRecord.assigned (pending : HostRecord) : String :=
  (truthy pending.pendingRange).getD pending.blockIndices

/-- Never treat mother's own bootstrap addr as the contributor peer; any other
is injected into the engine. -/
def injectPeer (known : List String) (peerMultiaddr : Option String) (engine : PetalsEngine) :
    Option String × PetalsEngine :=
  match truthy peerMultiaddr with
  | .none => (peerMultiaddr, engine)
  | .some peer => if peer ∈ known then (.none, engine) else (.some peer, engine.addPeer peer)

/-- The blocking check: the client is reloaded with the peer, then polls. -/
def verifyBlocking (settings : ReadySettings) (out : Outside) (blockRange : String) :
    EStateM PyError PetalsEngine Unit := fun engine =>
  match PetalsEngine.reload out settings.initialPeers engine with
  | .error reloadExc engine => .error (.runtimeError
      (s!"Petals client reload failed after adding peer: {reloadExc.text}. " ++
        "Check contributor peer reachability and try again.")) engine
  | .ok _ engine =>
    verifyBlocksVisible out settings.initialPeers blockRange settings.readyVerifyTimeoutSeconds engine

/-- Where the checks end. -/
inductive Gate
  | online (host : HostRecord)
  | markReady (donorId : Option String) (peerMultiaddr : Option String)
deriving DecidableEq, Repr

/-- `hosts_ready` up to its call of `mark_ready`. -/
def readyGate (settings : ReadySettings) (out : Outside) (reg : SwarmRegistry) (body : HostReadyRequest) :
    EStateM PyError PetalsEngine Gate := fun engine =>
  match reg.hosts.get? body.hostId with
  | .none => .error (.keyError body.hostId) engine
  | .some pending =>
    if pending.status = .online then .ok (.online pending) engine
    else
      let known := settings.initialPeers ++ reg.bootstrapPeers
      let (peer, engine) := injectPeer known body.peerMultiaddr engine
      let fastPath := contributorPrecheckPassed out pending.shardManagerUrl pending.assigned peer known
      -- NAT / auto-relay contributors often have no public peer multiaddr and a
      -- private shard_manager_url: the handoff is accepted without a check.
      let relayOnly := (truthy peer).isNone && !fastPath
      let pass := Gate.markReady pending.donorHostId peer
      if fastPath || relayOnly || settings.skipReadyVerify then .ok pass engine
      else match verifyBlocking settings out pending.assigned engine with
        | .ok _ engine => .ok pass engine
        | .error e engine => .error e engine

structure Orchestrator where
  registry : SwarmRegistry
  engine : PetalsEngine
deriving DecidableEq, Repr

/-- The body of the `try`. -/
def handoff (settings : ReadySettings) (out : Outside) (post : Reload)
    (publish : Option String → HostRecord → SwarmM HostRecord) (body : HostReadyRequest) (now : Int) :
    EStateM PyError Orchestrator HostRecord := fun s =>
  match readyGate settings out s.registry body s.engine with
  | .error e engine => .error e { s with engine }
  | .ok (.online host) engine => .ok host { s with engine }
  | .ok (.markReady donorId peer) engine =>
    match markReady post body.hostId peer now s.registry with
    | .error e registry => .error e { registry, engine }
    | .ok host registry =>
      match publish donorId host registry with
      | .error e registry => .error e { registry, engine }
      | .ok host registry => .ok host { registry, engine }

structure HostReadyReply where
  hostId : String
  status : Status
  blockIndices : String
  layersHosted : Int
  hederaAccountId : Option String
  ensName : Option String
deriving DecidableEq, Repr

structure HttpException where
  statusCode : Nat
  detail : String
deriving DecidableEq, Repr

/-- `POST /v1/hosts/ready`. A check that fails releases the pending host, and
so does any `RuntimeError` of `mark_ready`. -/
def hostsReady (settings : ReadySettings) (out : Outside) (post leavePost : Reload)
    (publish : Option String → HostRecord → SwarmM HostRecord) (body : HostReadyRequest) (now : Int)
    (s : Orchestrator) : Except HttpException HostReadyReply × Orchestrator :=
  match handoff settings out post publish body now s with
  | .ok host s' => (.ok {
      hostId := host.hostId
      status := host.status
      blockIndices := host.blockIndices
      layersHosted := host.layersHosted
      hederaAccountId := host.hederaAccountId
      ensName := host.ensName }, s')
  | .error (.keyError key) s' => (.error ⟨404, (PyError.keyError key).text⟩, s')
  | .error (.runtimeError msg) s' =>
    (.error ⟨503, msg⟩, { s' with registry := after (leave leavePost body.hostId) s'.registry })
  | .error e s' => (.error ⟨500, e.text⟩, s')

/-- The request gets to `mark_ready`. -/
def reachesMarkReady (settings : ReadySettings) (out : Outside) (s : Orchestrator) (body : HostReadyRequest) : Bool :=
  match readyGate settings out s.registry body s.engine with
  | .ok (.markReady _ _) _ => true
  | _ => false

/-! ## What lets a request through -/

/-- The peer address a request names, unless it is one of the mother's own. -/
def usablePeer (known : List String) (peerMultiaddr : Option String) : Option String :=
  (truthy peerMultiaddr).filter (· ∉ known)

namespace PetalsEngine

theorem mem_effectivePeers {engine : PetalsEngine} {peer : String} (initialPeers : List String) (hne : peer ≠ "")
    (h : peer ∈ engine.extraPeers ∨ peer ∈ initialPeers) : peer ∈ engine.effectivePeers initialPeers := by
  unfold effectivePeers
  generalize engine.extraPeers = extra at h
  induction extra generalizing initialPeers with
  | nil => simpa using h
  | cons p extra ih =>
    refine ih _ ?_
    simp only [List.mem_cons] at h
    rcases h with (rfl | h) | h
    · right
      by_cases hin : peer ∈ initialPeers <;> simp [hne, hin]
    · exact .inl h
    · right
      simp only
      split
      · simp [h]
      · exact h

theorem mem_addPeer {engine : PetalsEngine} {peer : String} (hne : peer ≠ "") :
    peer ∈ (engine.addPeer peer).extraPeers := by
  unfold addPeer
  split
  · simp
  · next h => simpa [hne] using h

end PetalsEngine

theorem verifyBlocking_eq_ok {settings : ReadySettings} {out : Outside} {range : String} {engine : PetalsEngine}
    (hne : engine.effectivePeers settings.initialPeers ≠ []) :
    (∃ engine', verifyBlocking settings out range engine = .ok () engine') ↔
      out.load (engine.effectivePeers settings.initialPeers) = .ok () ∧ BlocksVisible out range := by
  have hsame : ({ engine with loaded := false } : PetalsEngine).effectivePeers settings.initialPeers =
      engine.effectivePeers settings.initialPeers := rfl
  cases hload : out.load (engine.effectivePeers settings.initialPeers) with
  | error e =>
    have hreload : PetalsEngine.reload out settings.initialPeers engine = .error e { engine with loaded := false } := by
      simp [PetalsEngine.reload, bind_apply, PetalsEngine.load, hsame, hne, hload]
    simp [verifyBlocking, hreload]
  | ok _ =>
    have hreload : PetalsEngine.reload out settings.initialPeers engine = .ok () { engine with loaded := true } := by
      simp [PetalsEngine.reload, bind_apply, PetalsEngine.load, hsame, hne, hload]
    simp [verifyBlocking, hreload, verifyBlocksVisible_eq_ok]

/-- What the handler makes of the peer address it is given. -/
theorem injectPeer_eq (known : List String) (peerMultiaddr : Option String) (engine : PetalsEngine) :
    truthy (injectPeer known peerMultiaddr engine).1 = usablePeer known peerMultiaddr ∧
      (injectPeer known peerMultiaddr engine).2 = match usablePeer known peerMultiaddr with
        | .some peer => engine.addPeer peer
        | .none => engine := by
  unfold injectPeer usablePeer
  cases hp : truthy peerMultiaddr with
  | none => simp [hp, Option.filter]
  | some peer =>
    by_cases hk : peer ∈ known
    · simp [hk, Option.filter, truthy]
    · simp [hk, Option.filter, truthy_of_ne (truthy_ne_empty hp)]

/-- The mother's own addresses, which no contributor's peer may be. -/
def Orchestrator.known (settings : ReadySettings) (s : Orchestrator) : List String :=
  settings.initialPeers ++ s.registry.bootstrapPeers

/-- The three branches of the gate. -/
theorem reachesMarkReady_pending {settings : ReadySettings} {out : Outside} {s : Orchestrator} {body : HostReadyRequest}
    {pending : HostRecord} (hget : s.registry.hosts.get? body.hostId = .some pending) (ho : pending.status ≠ .online) :
    reachesMarkReady settings out s body = true ↔
      contributorPrecheckPassed out pending.shardManagerUrl pending.assigned
          (injectPeer (s.known settings) body.peerMultiaddr s.engine).1 (s.known settings) = true ∨
        truthy (injectPeer (s.known settings) body.peerMultiaddr s.engine).1 = .none ∨
        settings.skipReadyVerify = true ∨
        ∃ engine', verifyBlocking settings out pending.assigned
          (injectPeer (s.known settings) body.peerMultiaddr s.engine).2 = .ok () engine' := by
  rcases hpeer : injectPeer (s.known settings) body.peerMultiaddr s.engine with ⟨peer, engine⟩
  simp only [Orchestrator.known] at hpeer
  simp only [reachesMarkReady, readyGate, hget, if_neg ho, hpeer, Orchestrator.known]
  cases contributorPrecheckPassed out pending.shardManagerUrl pending.assigned peer
    (settings.initialPeers ++ s.registry.bootstrapPeers) with
  | true => simp
  | false =>
    cases htr : truthy peer with
    | none => simp
    | some p =>
      cases settings.skipReadyVerify with
      | true => simp
      | false => cases hv : verifyBlocking settings out pending.assigned engine <;> simp

/-- **What lets a request reach `mark_ready`.** The host is registered and not
online, and the checks are off, or the request names no peer address of its
own, whatever the checks said, or the shard manager reports the range, or the
peer accepts a connection, or, the client being reloaded, some poll finds a
server for each block. -/
theorem reachesMarkReady_iff (settings : ReadySettings) (out : Outside) (s : Orchestrator) (body : HostReadyRequest) :
    reachesMarkReady settings out s body = true ↔
      ∃ pending, s.registry.hosts.get? body.hostId = .some pending ∧ pending.status ≠ .online ∧
        (settings.skipReadyVerify = true ∨
          match usablePeer (s.known settings) body.peerMultiaddr with
          | .none => True
          | .some peer => ReportsAssigned out pending.shardManagerUrl pending.assigned ∨ AcceptsTcp out peer ∨
              out.load ((s.engine.addPeer peer).effectivePeers settings.initialPeers) = .ok () ∧
                BlocksVisible out pending.assigned) := by
  cases hget : s.registry.hosts.get? body.hostId with
  | none => simp [reachesMarkReady, readyGate, hget]
  | some pending =>
    by_cases ho : pending.status = .online
    · simp [reachesMarkReady, readyGate, hget, ho]
    obtain ⟨hpeer, hengine⟩ := injectPeer_eq (s.known settings) body.peerMultiaddr s.engine
    rw [reachesMarkReady_pending hget ho, contributorPrecheckPassed_iff, hpeer, hengine]
    simp only [Option.some.injEq, exists_eq_left', ho, ne_eq, not_false_eq_true, true_and]
    cases hu : usablePeer (s.known settings) body.peerMultiaddr with
    | none => simp
    | some p =>
      obtain ⟨hp, hk⟩ := Option.filter_eq_some_iff.1 hu
      have hne := truthy_ne_empty hp
      have hpeers : (s.engine.addPeer p).effectivePeers settings.initialPeers ≠ [] := List.ne_nil_of_mem
        (PetalsEngine.mem_effectivePeers _ hne (.inl (PetalsEngine.mem_addPeer hne)))
      simp only [decide_eq_true_eq] at hk
      simp only [verifyBlocking_eq_ok hpeers, Option.some.injEq, exists_eq_left', hk, not_false_eq_true, true_and,
        reduceCtorEq, false_or]
      tauto

/-! ## What a handoff has established -/

/-- A check that ran has found the newcomer's blocks served by a host other
than the donor: its shard manager names the assigned range, or the blocking
check returns on a view that lists somebody beside the donor for each block. -/
def Established (settings : ReadySettings) (out : Outside) (donor : String) (s : Orchestrator)
    (body : HostReadyRequest) : Prop :=
  ∃ pending, s.registry.hosts.get? body.hostId = .some pending ∧
    (ReportsServing out pending.shardManagerUrl pending.assigned ∨
      ∃ peer view, usablePeer (s.known settings) body.peerMultiaddr = .some peer ∧
        contributorPrecheckPassed out pending.shardManagerUrl pending.assigned (.some peer) (s.known settings) = false ∧
        out.load ((s.engine.addPeer peer).effectivePeers settings.initialPeers) = .ok () ∧
        completeView out pending.assigned = .some view ∧ ServedBeside donor view pending.assigned)

/-- The precheck of a usable peer fails where the shard manager reports
nothing and the peer accepts no connection. -/
theorem contributorPrecheckPassed_eq_false {out : Outside} {url assigned peer : String} {known : List String}
    {peerMultiaddr : Option String} (hu : usablePeer known peerMultiaddr = .some peer) :
    contributorPrecheckPassed out url assigned (.some peer) known = false ↔
      ¬ ReportsAssigned out url assigned ∧ ¬ AcceptsTcp out peer := by
  obtain ⟨hp, hk⟩ := Option.filter_eq_some_iff.1 hu
  simp only [decide_eq_true_eq] at hk
  rw [← Bool.not_eq_true, contributorPrecheckPassed_iff, not_or]
  simp [truthy_of_ne (truthy_ne_empty hp), hk]

/-- **When the donor shrinks for a verified newcomer.** With the checks on,
and for a pending host, a request gets to `mark_ready` only with its blocks
established in exactly these cases: the shard manager names the assigned range;
or the request names a usable peer, neither precheck passes, and the client
does not reload, or the view the check returns on, if there is one, lists
somebody beside the donor for each block. -/
theorem verified_iff {settings : ReadySettings} (out : Outside) (donor : String) (s : Orchestrator)
    (body : HostReadyRequest) (hskip : settings.skipReadyVerify = false) :
    (reachesMarkReady settings out s body = true → Established settings out donor s body) ↔
      ∀ pending, s.registry.hosts.get? body.hostId = .some pending → pending.status ≠ .online →
        ReportsServing out pending.shardManagerUrl pending.assigned ∨
          ∃ peer, usablePeer (s.known settings) body.peerMultiaddr = .some peer ∧
            ¬ ReportsAssigned out pending.shardManagerUrl pending.assigned ∧ ¬ AcceptsTcp out peer ∧
            (out.load ((s.engine.addPeer peer).effectivePeers settings.initialPeers) = .ok () →
              ∀ view, completeView out pending.assigned = .some view → ServedBeside donor view pending.assigned) := by
  rw [reachesMarkReady_iff]
  constructor
  · intro h pending hget ho
    have hreached := fun hway => h ⟨pending, hget, ho, .inr hway⟩
    cases hu : usablePeer (s.known settings) body.peerMultiaddr with
    | none =>
      -- Nobody was asked for anything but the shard manager's report.
      simp only [hu, forall_const] at hreached
      obtain ⟨_, hget', hserving | ⟨_, _, hu', _⟩⟩ := hreached
      · obtain rfl := Option.some.inj (hget.symm.trans hget')
        exact .inl hserving
      · simp [hu] at hu'
    | some peer =>
      simp only [hu] at hreached
      by_cases hserving : ReportsServing out pending.shardManagerUrl pending.assigned
      · exact .inl hserving
      have hview (hway : ReportsAssigned out pending.shardManagerUrl pending.assigned ∨ AcceptsTcp out peer ∨
          out.load ((s.engine.addPeer peer).effectivePeers settings.initialPeers) = .ok () ∧
            BlocksVisible out pending.assigned) :
          ∃ view, contributorPrecheckPassed out pending.shardManagerUrl pending.assigned
              (.some peer) (s.known settings) = false ∧
            completeView out pending.assigned = .some view ∧ ServedBeside donor view pending.assigned := by
        obtain ⟨_, hget', hserving' | ⟨peer', view, hu', hpre, -, hview⟩⟩ := hreached hway
        · obtain rfl := Option.some.inj (hget.symm.trans hget')
          exact absurd hserving' hserving
        · obtain rfl := Option.some.inj (hget.symm.trans hget')
          obtain rfl := Option.some.inj (hu.symm.trans hu')
          exact ⟨view, hpre, hview⟩
      refine .inr ⟨peer, rfl, fun hreports => ?_, fun haccepts => ?_, fun hload view hcomplete => ?_⟩
      · obtain ⟨_, hpre, -⟩ := hview (.inl hreports)
        exact ((contributorPrecheckPassed_eq_false hu).1 hpre).1 hreports
      · obtain ⟨_, hpre, -⟩ := hview (.inr (.inl haccepts))
        exact ((contributorPrecheckPassed_eq_false hu).1 hpre).2 haccepts
      · have hvisible : BlocksVisible out pending.assigned := completeView_isSome.1 (by simp [hcomplete])
        obtain ⟨view', -, hcomplete', hbeside⟩ := hview (.inr (.inr ⟨hload, hvisible⟩))
        obtain rfl := Option.some.inj (hcomplete.symm.trans hcomplete')
        exact hbeside
  · rintro h ⟨pending, hget, ho, hskip' | hway⟩
    · simp [hskip] at hskip'
    refine ⟨pending, hget, ?_⟩
    rcases h pending hget ho with hserving | ⟨peer, hu, hreports, haccepts, hbeside⟩
    · exact .inl hserving
    · simp only [hu, hreports, haccepts, false_or] at hway
      obtain ⟨view, hcomplete⟩ := Option.isSome_iff_exists.1 (completeView_isSome.2 hway.2)
      exact .inr ⟨peer, view, hu, (contributorPrecheckPassed_eq_false hu).2 ⟨hreports, haccepts⟩, hway.1,
        hcomplete, hbeside hway.1 view hcomplete⟩

/-! ## A donor vouches for its newcomer -/

/-- The mother's peer, in the swarm alone; nothing answers for `host-a`. -/
def donorAlone : Outside where
  refused := fun _ => .none
  status := fun _ => .error (.httpError "timed out")
  connect := fun _ _ => .error (.httpError "[Errno 111] Connection refused")
  load := fun _ => .ok ()
  views := .some [List.replicate 12 ["12D3KooWMother"]]

/-- `host-a` holds a reservation of the layers 8 to 12. -/
def awaiting : Orchestrator where
  registry := (joinEvent 4 "host-a" 0).apply (demo 12)
  engine := { loaded := true }

def motherSettings : ReadySettings where
  initialPeers := ["/ip4/198.51.100.1/tcp/31337/p2p/12D3KooWMother"]

def readyRequest : HostReadyRequest := ⟨"host-a", .some "/ip4/203.0.113.7/tcp/31330/p2p/12D3KooWHostA"⟩

/-- What `host-a` has been assigned. -/
theorem awaiting_assigned {pending : HostRecord} (h : awaiting.registry.hosts.get? "host-a" = .some pending) :
    pending.assigned = "8:12" := by
  have hget : (awaiting.registry.hosts.get? "host-a").map (·.assigned) = .some "8:12" := by decide +kernel
  simpa [h] using hget

theorem parseRange_awaiting : parseRange "8:12" = .ok (8, 12) := by decide +kernel

/-- The mother and `host-a` are listed for the layers 8 to 12. -/
def besideDonor : Outside where
  refused := donorAlone.refused
  status := donorAlone.status
  connect := donorAlone.connect
  load := donorAlone.load
  views := .some [List.replicate 8 ["12D3KooWMother"] ++ List.replicate 4 ["12D3KooWMother", "12D3KooWHostA"]]

theorem verified_iff_besideDonor :
    reachesMarkReady motherSettings besideDonor awaiting readyRequest = true ∧
      Established motherSettings besideDonor "12D3KooWMother" awaiting readyRequest := by
  have hreached : reachesMarkReady motherSettings besideDonor awaiting readyRequest = true := by decide +kernel
  refine ⟨hreached, (verified_iff besideDonor "12D3KooWMother" awaiting readyRequest rfl).2 ?_ hreached⟩
  intro pending hget _
  rw [awaiting_assigned hget]
  refine .inr ⟨"/ip4/203.0.113.7/tcp/31330/p2p/12D3KooWHostA", by decide +kernel, ?_, ?_, fun _ view hview => ?_⟩
  · rintro ⟨-, -, reply, hstatus, -⟩
    simp [besideDonor, donorAlone] at hstatus
  · rintro ⟨host, port, -, hconnect⟩
    simp [besideDonor, donorAlone] at hconnect
  · have hcomplete : completeView besideDonor "8:12" = .some (List.replicate 8 ["12D3KooWMother"] ++
        List.replicate 4 ["12D3KooWMother", "12D3KooWHostA"]) := by decide +kernel
    obtain rfl := Option.some.inj (hcomplete.symm.trans hview)
    refine ⟨(8, 12), parseRange_awaiting, fun idx h₁ h₂ =>
      ⟨["12D3KooWMother", "12D3KooWHostA"], ?_, "12D3KooWHostA", by decide, by decide⟩⟩
    obtain rfl | rfl | rfl | rfl : idx = 8 ∨ idx = 9 ∨ idx = 10 ∨ idx = 11 := by omega
    all_goals decide

/-- **The donor is enough.** No probe of `host-a` passes and every view lists
the mother alone for its layers, yet the mother shrinks and `host-a` is online.
A request without a peer address needs no view at all. -/
theorem unserved_shrink :
    let s := (hostsReady motherSettings donorAlone answering answering (fun _ host => pure host)
      readyRequest 5 awaiting).2
    let unlisted := { donorAlone with views := .none }
    reachesMarkReady motherSettings donorAlone awaiting readyRequest = true ∧
      ¬ Established motherSettings donorAlone "12D3KooWMother" awaiting readyRequest ∧
      s.registry.hosts.values.map (fun h => (h.hostId, h.blockIndices, h.status)) =
        [("mother", "0:8", .online), ("host-a", "8:12", .online)] ∧
      reachesMarkReady motherSettings unlisted awaiting ⟨"host-a", .none⟩ = true ∧
      ¬ Established motherSettings unlisted "12D3KooWMother" awaiting ⟨"host-a", .none⟩ := by
  refine ⟨by decide +kernel, ?_, by decide +kernel, by decide +kernel, ?_⟩
  · rintro ⟨pending, hget, ⟨-, -, reply, hstatus, -⟩ | ⟨peer, view, -, -, -, hview, p, hp, hbeside⟩⟩
    · simp [donorAlone] at hstatus
    · rw [awaiting_assigned hget] at hview hp
      have hcomplete : completeView donorAlone "8:12" = .some (List.replicate 12 ["12D3KooWMother"]) := by
        decide +kernel
      obtain rfl := Option.some.inj (hcomplete.symm.trans hview)
      obtain rfl := Except.ok.inj (parseRange_awaiting.symm.trans hp)
      obtain ⟨spans, hspans, other, hmem, hne⟩ := hbeside 8 (by decide) (by decide)
      obtain rfl : ["12D3KooWMother"] = spans := Option.some.inj hspans
      exact hne (List.mem_singleton.1 hmem)
  · rintro ⟨pending, hget, ⟨-, -, reply, hstatus, -⟩ | ⟨peer, view, hu, -⟩⟩
    · simp [donorAlone] at hstatus
    · simp [usablePeer, truthy] at hu

end Blitzwing
