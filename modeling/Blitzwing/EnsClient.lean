/-
`orchestrator/app/ens_client.py`, and the places of `main.py` that publish a
change of the registry: startup, a host that is ready, a host that leaves, and
the calls of the registry that publish nothing, the reapers' among them.

The ENS service is an argument (`EnsBackend`), in a state of its own, so each
call may be answered in any way. A host is looked up where its turn comes, as
the loops hold the registry's own records. What the requests are answered is
left out (`Ready` has what `hosts_ready` answers).
-/
import Blitzwing.EnsService
import Blitzwing.Payouts
import Blitzwing.Ready

namespace Blitzwing.Sync

/-- What is raised on the way. -/
inductive Raised
  /-- A `RuntimeError`, too. -/
  | ensClientError (message : String)
  | httpException (e : HttpException)
  | py (e : PyError)
deriving DecidableEq, Repr

inductive PendingAction
  | provision
  | update
deriving DecidableEq, Repr

/-- An entry of `ens_pending.json`. -/
structure PendingOp where
  action : PendingAction
  hostId : String
  ensName : Option String
  ts : Int
deriving DecidableEq, Repr

/-- The service, as the client reaches it: no answer, or one. -/
structure EnsBackend (ω : Type) where
  base : String
  post : Ens.EnsCall → ω → Except String Ens.EnsAnswer × ω
  resolve : String → ω → Except String (Option EnsRecord) × ω

/-- A write that was asked of the service: whether it succeeded, and whether an
operation for the host was pending then. -/
structure EnsWrite where
  hostId : String
  ok : Bool
  queued : Bool
deriving DecidableEq, Repr

structure EnsState (ω : Type) where
  registry : SwarmRegistry
  engine : PetalsEngine := ⟨false, []⟩
  pendingOps : List PendingOp := []
  verifyCache : VerifyCache := .empty
  service : ω
  /-- Not in the code: the writes so far. -/
  writes : List EnsWrite := []

abbrev SyncM (ω : Type) := EStateM Raised (EnsState ω)

variable {ω : Type}

def onRegistry {α : Type} (x : SwarmM α) : SyncM ω α := fun s =>
  match x s.registry with
  | .ok a registry => .ok a { s with registry }
  | .error e registry => .error (.py e) { s with registry }

def getHost (hostId : String) : SyncM ω HostRecord := do
  match (← get).registry.hosts.get? hostId with
  | .some host => return host
  | .none => throw (.py (.keyError hostId))

def setEnsName (hostId ensName : String) : SyncM ω Unit := do
  let _ ← getHost hostId
  modify fun s => { s with registry := s.registry.updateHost hostId fun h => { h with ensName := .some ensName } }

/-- `except EnsClientError` -/
def tryEns {α : Type} (x : SyncM ω α) (handler : String → SyncM ω α) : SyncM ω α := fun s =>
  match x s with
  | .error (.ensClientError message) s => handler message s
  | r => r

/-- An operation for the host is pending. -/
def EnsState.queued (s : EnsState ω) (hostId : String) : Bool := s.pendingOps.any (·.hostId = hostId)

/-- A write for a host, noted with its outcome. -/
def noted {α : Type} (hostId : String) (x : SyncM ω α) : SyncM ω α := fun s =>
  match x s with
  | .ok a t => .ok a { t with writes := t.writes ++ [⟨hostId, true, s.queued hostId⟩] }
  | .error e t => .error e { t with writes := t.writes ++ [⟨hostId, false, s.queued hostId⟩] }

/-! ## `ens_client.py` -/

def Role.text : Role → String
  | .mother => "mother"
  | .contributor => "contributor"

def Status.text : Status → String
  | .pending => "pending"
  | .online => "online"
  | .offline => "offline"

def enqueuePending (op : PendingOp) : SyncM ω Unit := modify fun s => { s with pendingOps := s.pendingOps ++ [op] }

def clearPendingMatching (hostId : String) (action : PendingAction) : SyncM ω Unit :=
  modify fun s => { s with pendingOps := s.pendingOps.filter fun op => ¬ (op.hostId = hostId ∧ op.action = action) }

def provisionBody (host : HostRecord) : Ens.ProvisionBody where
  hostId := host.hostId
  role := .some (Role.text host.role)
  hederaAccountId := host.hederaAccountId
  blockIndices := .some host.blockIndices
  layersHosted := .some host.layersHosted
  model := .some host.model
  status := .some (if host.status = .pending then "online" else Status.text host.status)

/-- What the callers of `update_host` send: all of the record. -/
def updateBody (ensName : String) (host : HostRecord) (status : String) : Ens.UpdateBody where
  ensName
  hostId := .some host.hostId
  hederaAccountId := host.hederaAccountId
  blockIndices := .some host.blockIndices
  layersHosted := .some host.layersHosted
  model := .some host.model
  role := .some (Role.text host.role)
  status := .some status

/-- A host has a name, and no verdict on it is fresh. -/
def asks (settings : Settings) (now : Int) (host : HostRecord) (cache : VerifyCache) : Bool :=
  settings.ensEnabled && (truthy host.ensName).isSome &&
    !(cache.get? host.hostId).any fun cached => now - cached.2 < verifyTtlSeconds

section

variable (backend : EnsBackend ω) (settings : Settings)

/-- `_post` -/
def post (path : String) (call : Ens.EnsCall) : SyncM ω Ens.EnsAnswer := fun s =>
  let url := backend.base ++ path
  match backend.post call s.service with
  | (.error exc, service) =>
    .error (.ensClientError s!"ENS service unreachable at {url}: {exc}") { s with service }
  | (.ok (.failed _ error _ _), service) => .error (.ensClientError s!"ENS {path} failed: {error}") { s with service }
  | (.ok answer, service) => .ok answer { s with service }

def provisionHost (host : HostRecord) : SyncM ω String := noted host.hostId do
  match ← post backend "/v1/hosts/provision" (.provision (provisionBody host)) with
  | .provisioned ensName _ _ =>
    if ensName = "" then throw (.ensClientError "ENS provision returned no ensName")
    clearPendingMatching host.hostId .provision
    return ensName
  | _ => throw (.ensClientError "ENS provision returned no ensName")

def updateHost (ensName : String) (host : HostRecord) (status : String) : SyncM ω Unit := noted host.hostId do
  let _ ← post backend "/v1/hosts/update" (.update (updateBody ensName host status))

/-- `deactivate_host`, of the host's name. -/
def deactivateHost (hostId ensName : String) : SyncM ω Unit := noted hostId do
  let _ ← post backend "/v1/hosts/deactivate" (.deactivate ensName)

/-- `verify_host`: the service is asked where no verdict is fresh. -/
def verifyHost (now : Int) (host : HostRecord) : SyncM ω Bool := fun s =>
  let name := (truthy host.ensName).getD ""
  let (record, service) := backend.resolve name s.service
  let service := if asks settings now host s.verifyCache then service else s.service
  match Blitzwing.verifyHost settings (fun _ => record.mapError .httpError) now host s.verifyCache with
  | .ok ok verifyCache => .ok ok { s with verifyCache, service }
  | .error e verifyCache => .error (.ensClientError e.text) { s with verifyCache, service }

/-- Provision a host and give it the name. -/
def provisionAndName (host : HostRecord) : SyncM ω String := do
  let ensName ← provisionHost backend host
  setEnsName host.hostId ensName
  return ensName

def reconcileHost (now : String → Int) (hostId : String) : SyncM ω Unit := do
  match (← get).registry.hosts.get? hostId with
  | .none => return
  | .some host =>
    if (truthy host.hederaAccountId).isNone ∨ host.layersHosted ≤ 0 then return
    match truthy host.ensName with
    | .some ensName =>
      tryEns (do
        if ← verifyHost backend settings (now hostId) host then return
        updateHost backend ensName host (if host.status = .online then "online" else "offline"))
        fun _ => enqueuePending ⟨.update, host.hostId, host.ensName, now hostId⟩
    | .none =>
      tryEns (do let _ ← provisionAndName backend host)
        fun _ => enqueuePending ⟨.provision, host.hostId, host.ensName, now hostId⟩

/-- `reconcile_registry` -/
def reconcileRegistry (now : String → Int) : List String → SyncM ω Unit
  | [] => return
  | hostId :: hostIds => do
    reconcileHost backend settings now hostId
    reconcileRegistry now hostIds

def replayOp (op : PendingOp) : SyncM ω Unit := do
  match (← get).registry.hosts.get? op.hostId with
  | .none => return
  | .some host =>
    match op.action, truthy host.ensName with
    | .update, .some ensName =>
      tryEns (updateHost backend ensName host (if host.status = .online then "online" else "offline"))
        fun _ => return
    | _, _ => tryEns (do let _ ← provisionAndName backend host) fun _ => return

/-- `replay_pending`, of the operations it loaded. -/
def replayPending : List PendingOp → SyncM ω Unit
  | [] => return
  | op :: ops => do
    replayOp backend op
    replayPending ops

/-- The update of a donor, or of the host a range goes back to, where it has a name. -/
def updateOnline (host : Option HostRecord) : SyncM ω Unit :=
  match host with
  | .none => pure ()
  | .some host =>
    match truthy host.ensName with
    | .none => pure ()
    | .some ensName => updateHost backend ensName host "online"

def syncHostEnsAfterReady (host : HostRecord) (donor : Option HostRecord) : SyncM ω String := do
  let ensName ← provisionAndName backend host
  updateOnline backend donor
  return ensName

/-- The deactivation of a leaver's name, where it has one. -/
def deactivateLeaver (leaver : HostRecord) : SyncM ω Unit :=
  match truthy leaver.ensName with
  | .none => pure ()
  | .some ensName => deactivateHost backend leaver.hostId ensName

def syncLeaveEns (leaver : HostRecord) (reclaimHost : Option HostRecord) : SyncM ω Unit := do
  deactivateLeaver backend leaver
  updateOnline backend reclaimHost

/-! ## `main.py` -/

def donorOf (donorId : Option String) : SyncM ω (Option HostRecord) :=
  match truthy donorId with
  | .none => return .none
  | .some donorId => .some <$> getHost donorId

/-- The `except EnsClientError` of `hosts_ready`. -/
def notPublished (message : String) : SyncM ω Unit :=
  if settings.ensStrict then throw (.httpException ⟨500, message⟩) else pure ()

/-- What `hosts_ready` does after `mark_ready`. -/
def publishReady (donorId : Option String) (host : HostRecord) : SyncM ω Unit := do
  let donor ← donorOf donorId
  tryEns (do
    let ensName ← syncHostEnsAfterReady backend host donor
    if ensName ≠ "" then setEnsName host.hostId ensName)
    (notPublished settings)

/-- The handoff of `hosts_ready`, once the checks have passed. -/
def handOver (reload : Reload) (hostId : String) (donorId peer : Option String) (now : Int) : SyncM ω Unit := do
  let host ← onRegistry (markReady reload hostId peer now)
  if settings.ensEnabled then publishReady backend settings donorId host

/-- The body of the `try` of `hosts_ready`. -/
def handoff (ready : ReadySettings) (out : Outside) (reload : Reload) (body : HostReadyRequest) (now : Int) :
    SyncM ω Unit := fun s =>
  match readyGate ready out s.registry body s.engine with
  | .error e engine => .error (.py e) { s with engine }
  | .ok (.online _) engine => .ok () { s with engine }
  | .ok (.markReady donorId peer) engine => handOver backend settings reload body.hostId donorId peer now { s with engine }

/-- `POST /v1/hosts/ready` -/
def hostsReady (ready : ReadySettings) (out : Outside) (reload leaveReload : Reload) (body : HostReadyRequest)
    (now : Int) (s : EnsState ω) : EnsState ω :=
  match handoff backend settings ready out reload body now s with
  | .ok _ s => s
  | .error (.py (.runtimeError _)) s | .error (.ensClientError _) s =>
    { s with registry := after (leave leaveReload body.hostId) s.registry }
  | .error _ s => s

/-- The body of the `try` of `hosts_leave`. -/
def departure (reload : Reload) (hostId : String) : SyncM ω Unit := do
  let leaver ← getHost hostId
  onRegistry (leave reload hostId)
  if settings.ensEnabled then
    let reclaim ← getHost "mother"
    syncLeaveEns backend leaver (.some reclaim)

/-- `POST /v1/hosts/leave` -/
def hostsLeave (reload : Reload) (hostId : String) (s : EnsState ω) : EnsState ω :=
  match departure backend settings reload hostId s with
  | .ok _ s => s
  | .error _ s => s

/-- A step of the startup, whatever it raises. -/
def atStartup (x : SyncM ω Unit) (s : EnsState ω) : EnsState ω :=
  if settings.ensEnabled then
    match x s with
    | .ok _ s => s
    | .error _ s => s
  else s

/-- `sync_mother_ens` -/
def syncMotherEns : SyncM ω Unit := do
  let mother ← getHost "mother"
  let _ ← provisionAndName backend mother

/-! ## What each can do -/

section

variable (backend : EnsBackend ω)

theorem post_cases (path : String) (call : Ens.EnsCall) (s : EnsState ω) :
    (∃ answer service, backend.post call s.service = (.ok answer, service) ∧
        (∀ status error code retryable, answer ≠ .failed status error code retryable) ∧
        post backend path call s = .ok answer { s with service }) ∨
      ∃ message, post backend path call s =
        .error (.ensClientError message) { s with service := (backend.post call s.service).2 } := by
  unfold post
  rcases hp : backend.post call s.service with ⟨_ | answer, service⟩
  · exact .inr ⟨_, rfl⟩
  · cases answer with
    | failed status error code retryable => exact .inr ⟨_, rfl⟩
    | provisioned ensName txHashes updated => exact .inl ⟨_, _, rfl, by simp, rfl⟩
    | updated txHashes => exact .inl ⟨_, _, rfl, by simp, rfl⟩

/-- After a write for a host. -/
def EnsState.wrote (s : EnsState ω) (hostId : String) (ok : Bool) (service : ω) : EnsState ω :=
  { s with service, writes := s.writes ++ [⟨hostId, ok, s.queued hostId⟩] }

/-- After a provision for a host. -/
def EnsState.provisioned (s : EnsState ω) (hostId : String) (service : ω) : EnsState ω :=
  { s.wrote hostId true service with
    pendingOps := s.pendingOps.filter fun op => ¬ (op.hostId = hostId ∧ op.action = .provision) }

/-- After a provision for a host, which is given the name. -/
def EnsState.named (s : EnsState ω) (hostId ensName : String) (service : ω) : EnsState ω :=
  { s.provisioned hostId service with
    registry := s.registry.updateHost hostId fun h => { h with ensName := .some ensName } }

theorem provisionHost_cases (host : HostRecord) (s : EnsState ω) :
    (∃ ensName txHashes updated service,
        backend.post (.provision (provisionBody host)) s.service = (.ok (.provisioned ensName txHashes updated), service) ∧
        ensName ≠ "" ∧ provisionHost backend host s = .ok ensName (s.provisioned host.hostId service)) ∨
      ∃ message, provisionHost backend host s = .error (.ensClientError message)
        (s.wrote host.hostId false (backend.post (.provision (provisionBody host)) s.service).2) := by
  unfold provisionHost noted
  simp only [bind_apply]
  obtain ⟨answer, service, hpost, hanswer, h⟩ | ⟨message, h⟩ :=
    post_cases backend "/v1/hosts/provision" (.provision (provisionBody host)) s
  · rw [h, hpost]
    cases answer with
    | failed status error code retryable => exact absurd rfl (hanswer status error code retryable)
    | updated txHashes => exact .inr ⟨_, rfl⟩
    | provisioned ensName txHashes updated =>
      by_cases he : ensName = ""
      · subst he
        exact .inr ⟨_, rfl⟩
      · refine .inl ⟨ensName, txHashes, updated, service, rfl, he, ?_⟩
        simp only [if_neg he]
        rfl
  · rw [h]
    exact .inr ⟨message, rfl⟩

theorem noted_post_cases (hostId path : String) (call : Ens.EnsCall) (s : EnsState ω) :
    let x : SyncM ω Unit := noted hostId do let _ ← post backend path call
    (∃ answer service, backend.post call s.service = (.ok answer, service) ∧
        (∀ status error code retryable, answer ≠ .failed status error code retryable) ∧
        x s = .ok () (s.wrote hostId true service)) ∨
      ∃ message, x s = .error (.ensClientError message) (s.wrote hostId false (backend.post call s.service).2) := by
  simp only [noted, bind_apply]
  obtain ⟨answer, service, hpost, hanswer, h⟩ | ⟨message, h⟩ := post_cases backend path call s
  · rw [h]
    exact .inl ⟨answer, service, hpost, hanswer, rfl⟩
  · rw [h]
    exact .inr ⟨message, rfl⟩

theorem updateHost_cases (ensName : String) (host : HostRecord) (status : String) (s : EnsState ω) :
    (∃ answer service, backend.post (.update (updateBody ensName host status)) s.service = (.ok answer, service) ∧
        (∀ status error code retryable, answer ≠ .failed status error code retryable) ∧
        updateHost backend ensName host status s = .ok () (s.wrote host.hostId true service)) ∨
      ∃ message, updateHost backend ensName host status s = .error (.ensClientError message)
        (s.wrote host.hostId false (backend.post (.update (updateBody ensName host status)) s.service).2) :=
  noted_post_cases backend host.hostId "/v1/hosts/update" (.update (updateBody ensName host status)) s

theorem deactivateHost_cases (hostId ensName : String) (s : EnsState ω) :
    (∃ answer service, backend.post (.deactivate ensName) s.service = (.ok answer, service) ∧
        (∀ status error code retryable, answer ≠ .failed status error code retryable) ∧
        deactivateHost backend hostId ensName s = .ok () (s.wrote hostId true service)) ∨
      ∃ message, deactivateHost backend hostId ensName s = .error (.ensClientError message)
        (s.wrote hostId false (backend.post (.deactivate ensName) s.service).2) :=
  noted_post_cases backend hostId "/v1/hosts/deactivate" (.deactivate ensName) s

theorem verifyHost_cases (settings : Settings) (now : Int) (host : HostRecord) (s : EnsState ω) :
    ∃ verifyCache service,
      (∃ ok, verifyHost backend settings now host s = .ok ok { s with verifyCache, service }) ∨
        ∃ message, verifyHost backend settings now host s =
          .error (.ensClientError message) { s with verifyCache, service } := by
  rcases hr : backend.resolve ((truthy host.ensName).getD "") s.service with ⟨record, service⟩
  unfold verifyHost
  simp only [hr]
  cases Blitzwing.verifyHost settings (fun _ => record.mapError .httpError) now host s.verifyCache with
  | ok ok verifyCache => exact ⟨verifyCache, _, .inl ⟨ok, rfl⟩⟩
  | error e verifyCache => exact ⟨verifyCache, _, .inr ⟨e.text, rfl⟩⟩

/-- The host whose turn it is, if it is still registered. -/
theorem getHost_cases (hostId : String) (s : EnsState ω) :
    (∃ host, s.registry.hosts.get? hostId = .some host ∧ getHost hostId s = .ok host s) ∨
      s.registry.hosts.get? hostId = .none ∧ getHost hostId s = .error (.py (.keyError hostId)) s := by
  have hget : (get : SyncM ω (EnsState ω)) s = .ok s s := rfl
  unfold getHost
  rw [bind_apply, hget]
  cases h : s.registry.hosts.get? hostId with
  | none => exact .inr ⟨rfl, by simp only [h, throw_apply]⟩
  | some host => exact .inl ⟨host, rfl, by simp only [h, pure_apply]⟩

theorem getHost_of_get? {hostId : String} {s : EnsState ω} {host : HostRecord}
    (h : s.registry.hosts.get? hostId = .some host) : getHost hostId s = .ok host s := by
  obtain ⟨host', hk, hget⟩ | ⟨hnone, -⟩ := getHost_cases hostId s
  · obtain rfl := Option.some.inj (h.symm.trans hk)
    exact hget
  · rw [h] at hnone
    cases hnone

theorem sameSeats_named (reg : SwarmRegistry) (hostId ensName : String) :
    reg.SameSeats (reg.updateHost hostId fun h => { h with ensName := .some ensName }) :=
  .updateHost fun _ _ => ⟨rfl, rfl, rfl, rfl, rfl, rfl, rfl, rfl⟩

theorem setEnsName_of_registered {hostId : String} {s : EnsState ω} (h : (s.registry.hosts.get? hostId).isSome)
    (ensName : String) : setEnsName hostId ensName s =
      .ok ⟨⟩ { s with registry := s.registry.updateHost hostId fun h => { h with ensName := .some ensName } } := by
  unfold setEnsName
  obtain ⟨host, -, hget⟩ | ⟨hnone, -⟩ := getHost_cases hostId s
  · rw [bind_apply, hget]
    rfl
  · simp [hnone] at h

theorem provisionAndName_cases {host : HostRecord} {s : EnsState ω}
    (hk : (s.registry.hosts.get? host.hostId).isSome) :
    (∃ ensName txHashes updated service,
        backend.post (.provision (provisionBody host)) s.service = (.ok (.provisioned ensName txHashes updated), service) ∧
        ensName ≠ "" ∧ provisionAndName backend host s = .ok ensName (s.named host.hostId ensName service)) ∨
      ∃ message, provisionAndName backend host s = .error (.ensClientError message)
        (s.wrote host.hostId false (backend.post (.provision (provisionBody host)) s.service).2) := by
  unfold provisionAndName
  rw [bind_apply]
  obtain ⟨ensName, txHashes, updated, service, hpost, hne, h⟩ | ⟨message, h⟩ :=
    provisionHost_cases backend host s
  · refine .inl ⟨ensName, txHashes, updated, service, hpost, hne, ?_⟩
    have hname := setEnsName_of_registered (s := s.provisioned host.hostId service) hk ensName
    rw [h]
    simp only [bind_apply, hname, pure_apply]
    rfl
  · rw [h]
    exact .inr ⟨message, rfl⟩

end

/-! ## Runs -/

/-- What the orchestrator does, with what it reads from outside. -/
inductive EnsEvent
  /-- A call that publishes nothing. -/
  | registry (e : Event)
  | ready (settings : ReadySettings) (out : Outside) (reload leaveReload : Reload) (body : HostReadyRequest) (now : Int)
  | leave (reload : Reload) (hostId : String)
  | syncMother
  | replay
  | reconcile (now : String → Int)

/-- The state an event leaves. -/
def EnsEvent.apply (s : EnsState ω) : EnsEvent → EnsState ω
  | .registry e => { s with registry := e.apply s.registry }
  | .ready gate out reload leaveReload body now => hostsReady backend settings gate out reload leaveReload body now s
  | .leave reload hostId => hostsLeave backend settings reload hostId s
  | .syncMother => atStartup settings (syncMotherEns backend) s
  | .replay => atStartup settings (replayPending backend s.pendingOps) s
  | .reconcile now => atStartup settings (reconcileRegistry backend settings now s.registry.hosts.keys) s

def EnsEvent.drawn (reg : SwarmRegistry) : EnsEvent → Bool
  | .registry e => e.drawn reg
  | _ => true

def orchestrator : Machine (EnsState ω) EnsEvent where
  step s e := if e.drawn s.registry then .some (e.apply backend settings s) else .none

end

end Blitzwing.Sync
