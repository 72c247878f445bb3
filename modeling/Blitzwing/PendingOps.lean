/-
Failed writes and the pending list.

Only `reconcile_registry` puts a failed write on the list, and only a provision
takes anything from it. So a host whose last write failed has an operation
pending as long as no write of another caller fails for a host that has none
(`kept_of_reaches`), and a replay in which a host's calls succeed clears the
host's operations exactly where they are provisions and the host is registered
(`cleared_iff`).
-/
import Blitzwing.EnsClient

namespace Blitzwing.Sync

variable {ω : Type} {backend : EnsBackend ω} {settings : Settings} {s t : EnsState ω} {hostId : String}

/-- The last write for the host failed. -/
def owed (writes : List EnsWrite) (hostId : String) : Bool :=
  ((writes.filter (·.hostId = hostId)).getLast?).any (!·.ok)

/-- A host whose last write failed has an operation pending. -/
def EnsState.Kept (s : EnsState ω) : Prop := ∀ hostId, owed s.writes hostId = true → s.queued hostId = true

/-- The failure of a write that is not queued is of a host that has an operation
pending. -/
def EnsWrite.Excused (w : EnsWrite) : Prop := w.ok = true ∨ w.queued = true

/-- The writes an event makes. -/
def newWrites (s t : EnsState ω) : List EnsWrite := t.writes.drop s.writes.length

theorem owed_append (writes : List EnsWrite) (w : EnsWrite) (hostId : String) :
    owed (writes ++ [w]) hostId = if w.hostId = hostId then !w.ok else owed writes hostId := by
  unfold owed
  rw [List.filter_append]
  by_cases h : w.hostId = hostId
  · simp [h]
  · simp [h]

/-! ## One write -/

theorem EnsState.Kept.of_same (hk : s.Kept) (hw : t.writes = s.writes) (hp : t.pendingOps = s.pendingOps) : t.Kept := by
  intro h ho
  rw [hw] at ho
  have := hk h ho
  rwa [EnsState.queued, hp]

/-- A write that succeeds may clear what is pending for its host. -/
theorem EnsState.Kept.of_success (hk : s.Kept) {w : EnsWrite} (hok : w.ok = true) (hw : t.writes = s.writes ++ [w])
    (hp : ∀ h ≠ w.hostId, t.queued h = s.queued h) : t.Kept := by
  intro h ho
  rw [hw, owed_append] at ho
  split at ho
  · simp [hok] at ho
  · next hne => rw [hp h (Ne.symm hne), hk h ho]

theorem EnsState.Kept.of_failure (hk : s.Kept) {w : EnsWrite} (hw : t.writes = s.writes ++ [w])
    (hq : t.queued w.hostId = true) (hp : ∀ h, s.queued h = true → t.queued h = true) : t.Kept := by
  intro h ho
  rw [hw, owed_append] at ho
  split at ho
  · next he => rwa [← he]
  · exact hp h (hk h ho)

theorem queued_filter_ne {h : String} {action : PendingAction} (hne : h ≠ hostId) :
    (s.pendingOps.filter fun op => ¬ (op.hostId = hostId ∧ op.action = action)).any (·.hostId = h) = s.queued h := by
  rw [EnsState.queued, List.any_filter]
  congr 1
  funext op
  by_cases he : op.hostId = h
  · simp [he, hne]
  · simp [he]

/-! ## What every computation keeps -/

/-- From `s` to `t`, writes were made, and where each is excused, what was kept
still is. -/
structure Keeps (s t : EnsState ω) : Prop where
  wellformed : s.registry.Wellformed → t.registry.Wellformed
  pending : ∃ new, t.writes = s.writes ++ new ∧ ((∀ w ∈ new, w.Excused) → s.Kept → t.Kept)

theorem Keeps.of_same (hreg : s.registry.Wellformed → t.registry.Wellformed) (hw : t.writes = s.writes)
    (hp : t.pendingOps = s.pendingOps) : Keeps s t :=
  ⟨hreg, [], by simp [hw], fun _ hk => hk.of_same hw hp⟩

theorem Keeps.refl (s : EnsState ω) : Keeps s s := .of_same id rfl rfl

theorem Keeps.trans {u : EnsState ω} (h₁ : Keeps s t) (h₂ : Keeps t u) : Keeps s u := by
  obtain ⟨new₁, hw₁, hk₁⟩ := h₁.pending
  obtain ⟨new₂, hw₂, hk₂⟩ := h₂.pending
  refine ⟨fun hw => h₂.wellformed (h₁.wellformed hw), new₁ ++ new₂, by rw [hw₂, hw₁, List.append_assoc], ?_⟩
  intro hex hk
  exact hk₂ (fun w hw => hex w (by simp [hw])) (hk₁ (fun w hw => hex w (by simp [hw])) hk)

abbrev Keeping {α : Type} (x : SyncM ω α) : Prop := Ensures (fun _ => True) Keeps (fun _ _ => True) x

theorem Keeping.bind {α β : Type} {x : SyncM ω α} {f : α → SyncM ω β} (hx : Keeping x) (hf : ∀ a, Keeping (f a)) :
    Keeping (x >>= f) := Ensures.bind (fun h₁ h₂ => h₁.trans h₂) hx hf

theorem Keeping.ret {α : Type} (a : α) : Keeping (pure a : SyncM ω α) := Ensures.ret Keeps.refl fun _ _ => trivial

theorem Keeping.throw {α : Type} (e : Raised) : Keeping (throw e : SyncM ω α) := Ensures.throw Keeps.refl e

theorem Keeping.get : Keeping (get : SyncM ω (EnsState ω)) :=
  Ensures.get (J := fun _ _ => True) Keeps.refl fun _ _ => trivial

theorem Keeping.tryEns {α : Type} {x : SyncM ω α} {handler : String → SyncM ω α} (hx : Keeping x)
    (hh : ∀ message, Keeping (handler message)) : Keeping (tryEns x handler) := by
  intro s _
  have hfirst := hx s trivial
  unfold Sync.tryEns
  cases h : x s with
  | ok a t =>
    rw [h] at hfirst
    exact hfirst
  | error e t =>
    rw [h] at hfirst
    cases e with
    | ensClientError message =>
      have hrest := hh message t trivial
      simp only
      cases h' : handler message t with
      | ok a u =>
        rw [h'] at hrest
        exact ⟨hfirst.trans hrest.1, trivial⟩
      | error e u =>
        rw [h'] at hrest
        exact hfirst.trans hrest
    | httpException e => exact hfirst
    | py e => exact hfirst

theorem keeping_onRegistry {α : Type} {x : SwarmM α}
    (hx : ∀ reg : SwarmRegistry, reg.Wellformed → (after x reg).Wellformed) : Keeping (onRegistry x : SyncM ω α) := by
  intro s _
  have h := hx s.registry
  unfold onRegistry
  cases hr : x s.registry with
  | ok a registry =>
    rw [after_of_ok hr] at h
    exact ⟨.of_same h rfl rfl, trivial⟩
  | error e registry =>
    rw [after_of_error hr] at h
    exact .of_same h rfl rfl

theorem keeping_getHost (hostId : String) : Keeping (getHost hostId : SyncM ω HostRecord) := by
  intro s _
  obtain ⟨host, -, h⟩ | ⟨-, h⟩ := getHost_cases hostId s
  · rw [h]
    exact ⟨.refl s, trivial⟩
  · rw [h]
    exact .refl s

theorem keeping_setEnsName (hostId ensName : String) : Keeping (setEnsName hostId ensName : SyncM ω Unit) :=
  (keeping_getHost hostId).bind fun _ => Ensures.modify fun _ _ =>
    ⟨.of_same (fun hw => hw.sameSeats (sameSeats_named _ _ _)) rfl rfl, trivial⟩

theorem keeps_wrote (s : EnsState ω) (hostId : String) (ok : Bool) (service : ω) :
    Keeps s (s.wrote hostId ok service) := by
  refine ⟨id, [⟨hostId, ok, s.queued hostId⟩], rfl, ?_⟩
  intro hex hk
  obtain hok | hq := hex ⟨hostId, ok, s.queued hostId⟩ (by simp)
  · exact hk.of_success (w := ⟨hostId, ok, s.queued hostId⟩) hok rfl fun _ _ => rfl
  · exact hk.of_failure (w := ⟨hostId, ok, s.queued hostId⟩) rfl hq fun _ hq => hq

theorem keeping_provisionHost (host : HostRecord) : Keeping (provisionHost backend host) := by
  intro s _
  obtain ⟨ensName, txHashes, updated, service, -, -, h⟩ | ⟨message, h⟩ := provisionHost_cases backend host s
  · rw [h]
    refine ⟨⟨id, [⟨host.hostId, true, s.queued host.hostId⟩], rfl, ?_⟩, trivial⟩
    intro _ hk
    exact hk.of_success (w := ⟨host.hostId, true, s.queued host.hostId⟩) rfl rfl fun h hne => queued_filter_ne hne
  · rw [h]
    exact keeps_wrote s host.hostId false _

theorem keeping_updateHost (ensName : String) (host : HostRecord) (status : String) :
    Keeping (updateHost backend ensName host status) := by
  intro s _
  obtain ⟨answer, service, -, -, h⟩ | ⟨message, h⟩ := updateHost_cases backend ensName host status s
  · rw [h]
    exact ⟨keeps_wrote s host.hostId true service, trivial⟩
  · rw [h]
    exact keeps_wrote s host.hostId false _

theorem keeping_deactivateHost (hostId ensName : String) : Keeping (deactivateHost backend hostId ensName) := by
  intro s _
  obtain ⟨answer, service, -, -, h⟩ | ⟨message, h⟩ := deactivateHost_cases backend hostId ensName s
  · rw [h]
    exact ⟨keeps_wrote s hostId true service, trivial⟩
  · rw [h]
    exact keeps_wrote s hostId false _

theorem keeping_verifyHost (now : Int) (host : HostRecord) : Keeping (verifyHost backend settings now host) := by
  intro s _
  obtain ⟨verifyCache, service, ⟨ok, h⟩ | ⟨message, h⟩⟩ := verifyHost_cases backend settings now host s
  · rw [h]
    exact ⟨.of_same id rfl rfl, trivial⟩
  · rw [h]
    exact .of_same id rfl rfl

theorem keeping_provisionAndName (host : HostRecord) : Keeping (provisionAndName backend host) :=
  (keeping_provisionHost host).bind fun ensName => (keeping_setEnsName host.hostId ensName).bind fun _ => .ret ensName

theorem keeping_updateOnline (host : Option HostRecord) : Keeping (updateOnline backend host) := by
  unfold updateOnline
  split
  · exact .ret ()
  · split
    · exact .ret ()
    · exact keeping_updateHost _ _ _

theorem keeping_syncHostEnsAfterReady (host : HostRecord) (donor : Option HostRecord) :
    Keeping (syncHostEnsAfterReady backend host donor) :=
  (keeping_provisionAndName host).bind fun ensName => (keeping_updateOnline donor).bind fun _ => .ret ensName

theorem keeping_deactivateLeaver (leaver : HostRecord) : Keeping (deactivateLeaver backend leaver) := by
  unfold deactivateLeaver
  split
  · exact .ret ()
  · exact keeping_deactivateHost _ _

theorem keeping_syncLeaveEns (leaver : HostRecord) (reclaimHost : Option HostRecord) :
    Keeping (syncLeaveEns backend leaver reclaimHost) :=
  (keeping_deactivateLeaver leaver).bind fun _ => keeping_updateOnline reclaimHost

theorem keeping_donorOf (donorId : Option String) : Keeping (donorOf donorId : SyncM ω (Option HostRecord)) := by
  unfold donorOf
  split
  · exact .ret (α := Option HostRecord) .none
  · exact (keeping_getHost _).bind fun host => .ret (α := Option HostRecord) (.some host)

theorem keeping_publishReady (donorId : Option String) (host : HostRecord) :
    Keeping (publishReady backend settings donorId host) := by
  refine (keeping_donorOf donorId).bind fun donor => .tryEns ?_ fun message => ?_
  · refine (keeping_syncHostEnsAfterReady host donor).bind fun ensName => ?_
    split
    · exact keeping_setEnsName _ _
    · exact .ret ()
  · unfold notPublished
    split
    · exact .throw _
    · exact .ret ()

theorem keeping_handOver (reload : Reload) (hostId : String) (donorId peer : Option String) (now : Int) :
    Keeping (handOver backend settings reload hostId donorId peer now) := by
  refine (keeping_onRegistry fun reg hw => hw.after_markReady reload hostId peer now).bind fun host => ?_
  split
  · exact keeping_publishReady donorId host
  · exact .ret ()

theorem keeping_handoff (ready : ReadySettings) (out : Outside) (reload : Reload) (body : HostReadyRequest)
    (now : Int) : Keeping (handoff backend settings ready out reload body now) := by
  intro s _
  have hengine : ∀ engine, Keeps s { s with engine } := fun _ => .of_same id rfl rfl
  unfold handoff
  cases readyGate ready out s.registry body s.engine with
  | error e engine => exact hengine engine
  | ok gate engine =>
    cases gate with
    | online host => exact ⟨hengine engine, trivial⟩
    | markReady donorId peer =>
      have hover : Keeping (handOver backend settings reload body.hostId donorId peer now) :=
        keeping_handOver reload body.hostId donorId peer now
      have h := hover { s with engine } trivial
      simp only
      cases hr : handOver backend settings reload body.hostId donorId peer now { s with engine } with
      | ok _ t =>
        rw [hr] at h
        exact ⟨(hengine engine).trans h.1, trivial⟩
      | error e t =>
        rw [hr] at h
        exact (hengine engine).trans h

theorem keeping_departure (reload : Reload) (hostId : String) :
    Keeping (departure backend settings reload hostId) := by
  refine (keeping_getHost hostId).bind fun leaver => ?_
  refine (keeping_onRegistry fun reg hw => hw.after_leave reload hostId).bind fun _ => ?_
  split
  · exact (keeping_getHost "mother").bind fun reclaim => keeping_syncLeaveEns leaver (.some reclaim)
  · exact .ret ()

theorem keeping_syncMotherEns : Keeping (syncMotherEns backend) :=
  (keeping_getHost "mother").bind fun mother => (keeping_provisionAndName mother).bind fun _ => .ret ()

theorem keeping_replayOp (op : PendingOp) : Keeping (replayOp backend op) := by
  refine Keeping.get.bind fun s => ?_
  split
  · exact .ret ()
  · split
    · exact .tryEns (keeping_updateHost _ _ _) fun _ => .ret ()
    · exact .tryEns ((keeping_provisionAndName _).bind fun _ => .ret ()) fun _ => .ret ()

theorem keeping_replayPending (ops : List PendingOp) : Keeping (replayPending backend ops) := by
  induction ops with
  | nil => exact .ret ()
  | cons op ops ih => exact (keeping_replayOp op).bind fun _ => ih

theorem keeps_atStartup {x : SyncM ω Unit} (hx : Keeping x) (s : EnsState ω) : Keeps s (atStartup settings x s) := by
  have h := hx s trivial
  unfold atStartup
  split
  · cases hr : x s with
    | ok _ t =>
      rw [hr] at h
      exact h.1
    | error e t =>
      rw [hr] at h
      exact h
  · exact .refl s

theorem keeps_hostsReady (ready : ReadySettings) (out : Outside) (reload leaveReload : Reload)
    (body : HostReadyRequest) (now : Int) (s : EnsState ω) :
    Keeps s (hostsReady backend settings ready out reload leaveReload body now s) := by
  have hall : Keeping (handoff backend settings ready out reload body now) := keeping_handoff ready out reload body now
  have h := hall s trivial
  unfold hostsReady
  cases hr : handoff backend settings ready out reload body now s with
  | ok _ t =>
    rw [hr] at h
    exact h.1
  | error e t =>
    rw [hr] at h
    have hleft : Keeps s { t with registry := after (leave leaveReload body.hostId) t.registry } :=
      h.trans (.of_same (fun hw => hw.after_leave leaveReload body.hostId) rfl rfl)
    cases e with
    | ensClientError message => exact hleft
    | httpException e => exact h
    | py e =>
      cases e with
      | runtimeError message => exact hleft
      | _ => exact h

theorem keeps_hostsLeave (reload : Reload) (hostId : String) (s : EnsState ω) :
    Keeps s (hostsLeave backend settings reload hostId s) := by
  have hall : Keeping (departure backend settings reload hostId) := keeping_departure reload hostId
  have h := hall s trivial
  unfold hostsLeave
  cases hr : departure backend settings reload hostId s with
  | ok _ t =>
    rw [hr] at h
    exact h.1
  | error e t =>
    rw [hr] at h
    exact h

/-! ## Reconciling queues what fails -/

/-- Kept, but for the host whose write has just failed. -/
def EnsState.KeptBut (s : EnsState ω) (hostId : String) : Prop :=
  ∀ h ≠ hostId, owed s.writes h = true → s.queued h = true

theorem EnsState.Kept.wrote_but {s : EnsState ω} (hk : s.Kept) (hostId : String) (ok : Bool) (service : ω) :
    (s.wrote hostId ok service).KeptBut hostId := by
  intro h hne ho
  rw [EnsState.wrote, owed_append, if_neg (Ne.symm hne)] at ho
  exact hk h ho

theorem EnsState.KeptBut.enqueued (hk : s.KeptBut hostId) {op : PendingOp} (hop : op.hostId = hostId) :
    EnsState.Kept { s with pendingOps := s.pendingOps ++ [op] } := by
  intro h ho
  by_cases he : h = hostId
  · simp [EnsState.queued, he, hop]
  · have hq := hk h he ho
    simp only [EnsState.queued] at hq ⊢
    rw [List.any_append, hq, Bool.true_or]

/-- A turn of the reconciling, up to its `except`. -/
def Turned (x : SyncM ω Unit) (s : EnsState ω) (hostId : String) : Prop :=
  (∃ t, x s = .ok () t ∧ t.Kept) ∨ ∃ message t, x s = .error (.ensClientError message) t ∧ t.KeptBut hostId

/-- A turn that fails is followed by the queueing of its operation. -/
theorem Turned.enqueue {x : SyncM ω Unit} {op : PendingOp} (h : Turned x s op.hostId) :
    ∃ t, tryEns x (fun _ => enqueuePending op) s = .ok () t ∧ t.Kept := by
  unfold tryEns
  obtain ⟨t, hx, hk⟩ | ⟨message, t, hx, hbut⟩ := h
  · rw [hx]
    exact ⟨t, rfl, hk⟩
  · rw [hx]
    exact ⟨_, rfl, hbut.enqueued rfl⟩

theorem turned_updateHost (backend : EnsBackend ω) (hk : s.Kept) (ensName : String) (host : HostRecord) (status : String) :
    Turned (updateHost backend ensName host status) s host.hostId := by
  obtain ⟨answer, service, -, -, h⟩ | ⟨message, h⟩ := updateHost_cases backend ensName host status s
  · refine .inl ⟨_, h, ?_⟩
    exact hk.of_success (w := ⟨host.hostId, true, s.queued host.hostId⟩) rfl rfl fun _ _ => rfl
  · exact .inr ⟨message, _, h, hk.wrote_but host.hostId false _⟩

theorem turned_provision (hk : s.Kept) {host : HostRecord} (hreg : (s.registry.hosts.get? host.hostId).isSome) :
    Turned (do let _ ← provisionAndName backend host) s host.hostId := by
  obtain ⟨ensName, txHashes, updated, service, -, -, h⟩ | ⟨message, h⟩ := provisionAndName_cases backend hreg
  · refine .inl ⟨_, by rw [bind_apply, h]; rfl, ?_⟩
    exact hk.of_success (w := ⟨host.hostId, true, s.queued host.hostId⟩) rfl rfl fun h hne => queued_filter_ne hne
  · exact .inr ⟨message, _, by rw [bind_apply, h], hk.wrote_but host.hostId false _⟩

theorem turned_verify (hk : s.Kept) (now : Int) (ensName : String) (host : HostRecord) (status : String) :
    Turned (do
      if ← verifyHost backend settings now host then return
      updateHost backend ensName host status) s host.hostId := by
  obtain ⟨verifyCache, service, ⟨ok, hv⟩ | ⟨message, hv⟩⟩ := verifyHost_cases backend settings now host s
  · have hk' : EnsState.Kept { s with verifyCache, service } := hk.of_same rfl rfl
    cases ok with
    | true => exact .inl ⟨_, by rw [bind_apply, hv]; rfl, hk'⟩
    | false =>
      obtain ⟨t, h, ht⟩ | ⟨message, t, h, ht⟩ := turned_updateHost backend hk' ensName host status
      · exact .inl ⟨t, by rw [bind_apply, hv]; exact h, ht⟩
      · exact .inr ⟨message, t, by rw [bind_apply, hv]; exact h, ht⟩
  · exact .inr ⟨message, { s with verifyCache, service }, by rw [bind_apply, hv], fun h _ => hk h⟩

theorem keeping_enqueuePending (op : PendingOp) : Keeping (enqueuePending op : SyncM ω Unit) := by
  refine Ensures.modify fun s _ => ⟨⟨id, [], by simp, fun _ hk h ho => ?_⟩, trivial⟩
  have hq := hk h ho
  simp only [EnsState.queued] at hq ⊢
  rw [List.any_append, hq, Bool.true_or]

theorem keeping_reconcileHost (now : String → Int) (hostId : String) :
    Keeping (reconcileHost backend settings now hostId) := by
  refine Keeping.get.bind fun s => ?_
  split
  · exact .ret ()
  · split
    · exact .ret ()
    · split
      · refine .tryEns ((keeping_verifyHost _ _).bind fun ok => ?_) fun _ => keeping_enqueuePending _
        split
        · exact .ret ()
        · exact keeping_updateHost _ _ _
      · exact .tryEns ((keeping_provisionAndName _).bind fun _ => .ret ()) fun _ => keeping_enqueuePending _

theorem reconcileHost_kept (backend : EnsBackend ω) (settings : Settings) (now : String → Int) (hostId : String)
    (hw : s.registry.Wellformed) (hk : s.Kept) :
    ∃ t, reconcileHost backend settings now hostId s = .ok () t ∧ t.Kept := by
  have hget : (get : SyncM ω (EnsState ω)) s = .ok s s := rfl
  unfold reconcileHost
  rw [bind_apply, hget]
  simp only
  cases hreg : s.registry.hosts.get? hostId with
  | none => exact ⟨s, rfl, hk⟩
  | some host =>
    have hsome : (s.registry.hosts.get? host.hostId).isSome := by rw [hw.keyed _ _ hreg, hreg, Option.isSome_some]
    simp only
    split
    · exact ⟨s, rfl, hk⟩
    · cases truthy host.ensName with
      | some ensName => exact (turned_verify hk (now hostId) ensName host _).enqueue
      | none => exact (turned_provision hk hsome).enqueue

theorem reconcileRegistry_kept (backend : EnsBackend ω) (settings : Settings) (now : String → Int)
    (hostIds : List String) (hw : s.registry.Wellformed) (hk : s.Kept) :
    ∃ t, reconcileRegistry backend settings now hostIds s = .ok () t ∧ t.registry.Wellformed ∧ t.Kept := by
  induction hostIds generalizing s with
  | nil => exact ⟨s, rfl, hw, hk⟩
  | cons hostId hostIds ih =>
    obtain ⟨t, ht, hkept⟩ := reconcileHost_kept backend settings now hostId hw hk
    have hkeeps := Ensures.ok (keeping_reconcileHost now hostId) trivial ht
    obtain ⟨u, hu, hrest⟩ := ih (hkeeps.1.wellformed hw) hkept
    refine ⟨u, ?_, hrest⟩
    unfold reconcileRegistry
    rw [bind_apply, ht]
    exact hu

/-! ## One replay -/

/-- What replaying one operation does. -/
structure Replayed (op : PendingOp) (s t : EnsState ω) : Prop where
  seats : s.registry.SameSeats t.registry
  writes : ∃ new, t.writes = s.writes ++ new ∧ (∀ w ∈ new, w.hostId = op.hostId) ∧
    (op.action = .provision → (s.registry.hosts.get? op.hostId).isSome → (∀ w ∈ new, w.ok = true) →
      ∀ p ∈ t.pendingOps, p.hostId = op.hostId → p.action = .update)
  fewer : ∀ p ∈ t.pendingOps, p ∈ s.pendingOps
  left : ∀ p ∈ s.pendingOps, p.action = .update ∨ s.registry.hosts.get? p.hostId = .none → p ∈ t.pendingOps

theorem Replayed.of_wrote {op : PendingOp} {ok : Bool} {service : ω}
    (h : op.action = .provision → ok = false) : Replayed op s (s.wrote op.hostId ok service) where
  seats := .refl _
  writes := by
    refine ⟨[⟨op.hostId, ok, s.queued op.hostId⟩], rfl, by simp, ?_⟩
    intro hp _ hok
    have := hok ⟨op.hostId, ok, s.queued op.hostId⟩ (by simp)
    simp [h hp] at this
  fewer := fun _ hp => hp
  left := fun _ hp _ => hp

theorem Replayed.of_named {op : PendingOp} {ensName : String} {service : ω}
    (hreg : (s.registry.hosts.get? op.hostId).isSome) : Replayed op s (s.named op.hostId ensName service) where
  seats := sameSeats_named _ _ _
  writes := by
    refine ⟨[⟨op.hostId, true, s.queued op.hostId⟩], rfl, by simp, ?_⟩
    intro _ _ _ p hp he
    obtain ⟨-, hno⟩ := List.mem_filter.1 hp
    cases ha : p.action with
    | update => rfl
    | provision => simp [he, ha] at hno
  fewer := fun p hp => (List.mem_filter.1 hp).1
  left := by
    intro p hp hleft
    refine List.mem_filter.2 ⟨hp, ?_⟩
    obtain ha | hnone := hleft
    · simp [ha]
    · have hne : p.hostId ≠ op.hostId := by
        intro he
        simp [← he, hnone] at hreg
      simp [hne]

theorem replayOp_replayed (backend : EnsBackend ω) (hw : s.registry.Wellformed) (op : PendingOp) :
    ∃ t, replayOp backend op s = .ok () t ∧ Replayed op s t := by
  have hget : (get : SyncM ω (EnsState ω)) s = .ok s s := rfl
  unfold replayOp
  rw [bind_apply, hget]
  simp only
  cases hreg : s.registry.hosts.get? op.hostId with
  | none =>
    refine ⟨s, rfl, .refl _, ⟨[], by simp, by simp, ?_⟩, fun _ hp => hp, fun _ hp _ => hp⟩
    simp [hreg]
  | some host =>
    have hid : host.hostId = op.hostId := hw.keyed _ _ hreg
    have hsome : (s.registry.hosts.get? op.hostId).isSome := by simp [hreg]
    have hprovision : ∃ t, tryEns (do let _ ← provisionAndName backend host) (fun _ => pure ()) s = .ok () t ∧
        Replayed op s t := by
      obtain ⟨ensName, txHashes, updated, service, -, -, h⟩ | ⟨message, h⟩ :=
        provisionAndName_cases backend (hid ▸ hsome)
      · rw [hid] at h
        exact ⟨_, by simp only [tryEns, bind_apply, h]; rfl, .of_named hsome⟩
      · rw [hid] at h
        exact ⟨_, by simp only [tryEns, bind_apply, h]; rfl, .of_wrote fun _ => rfl⟩
    simp only
    cases ha : op.action with
    | provision => exact hprovision
    | update =>
      cases hn : truthy host.ensName with
      | none => exact hprovision
      | some ensName =>
        have hup : op.action = .provision → ∀ ok, ok = false := by simp [ha]
        obtain ⟨answer, service, -, -, h⟩ | ⟨message, h⟩ := updateHost_cases backend ensName host
          (if host.status = .online then "online" else "offline") s
        · rw [hid] at h
          exact ⟨_, by simp only [tryEns, h]; rfl, .of_wrote fun hp => hup hp true⟩
        · rw [hid] at h
          exact ⟨_, by simp only [tryEns, h]; rfl, .of_wrote fun hp => hup hp false⟩

/-- What replaying operations does, from the registry and the list of `s`. -/
structure ReplayedAll (ops : List PendingOp) (s t : EnsState ω) : Prop where
  writes : ∃ new, t.writes = s.writes ++ new ∧ ∀ hostId, (∃ op ∈ ops, op.hostId = hostId ∧ op.action = .provision) →
    (s.registry.hosts.get? hostId).isSome → (∀ w ∈ new, w.hostId = hostId → w.ok = true) →
      ∀ p ∈ t.pendingOps, p.hostId = hostId → p.action = .update
  fewer : ∀ p ∈ t.pendingOps, p ∈ s.pendingOps
  left : ∀ p ∈ s.pendingOps, p.action = .update ∨ s.registry.hosts.get? p.hostId = .none → p ∈ t.pendingOps

theorem ReplayedAll.cons {op : PendingOp} {ops : List PendingOp} {u : EnsState ω} (h₁ : Replayed op s t)
    (h₂ : ReplayedAll ops t u) : ReplayedAll (op :: ops) s u where
  writes := by
    obtain ⟨new₁, hw₁, hfor, hclear⟩ := h₁.writes
    obtain ⟨new₂, hw₂, hrest⟩ := h₂.writes
    refine ⟨new₁ ++ new₂, by rw [hw₂, hw₁, List.append_assoc], ?_⟩
    intro hostId hex hreg hok p hp he
    by_cases hop : op.hostId = hostId ∧ op.action = .provision
    · obtain ⟨rfl, ha⟩ := hop
      exact hclear ha hreg (fun w hw => hok w (by simp [hw]) (hfor w hw)) p (h₂.fewer p hp) he
    · obtain ⟨op', hmem, hop'⟩ := hex
      have hops : op' ∈ ops := by
        rcases List.mem_cons.1 hmem with rfl | hmem
        · exact absurd hop' hop
        · exact hmem
      obtain ⟨host, hget⟩ := Option.isSome_iff_exists.1 hreg
      obtain ⟨host', hget', -⟩ := h₁.seats.seated hostId host hget
      exact hrest hostId ⟨op', hops, hop'⟩ (by rw [hget', Option.isSome_some])
        (fun w hw => hok w (by simp [hw])) p hp he
  fewer := fun p hp => h₁.fewer p (h₂.fewer p hp)
  left := by
    intro p hp hleft
    refine h₂.left p (h₁.left p hp hleft) ?_
    exact hleft.imp_right fun hnone => h₁.seats.absent _ hnone

theorem replayPending_replayed (backend : EnsBackend ω) (hw : s.registry.Wellformed) (ops : List PendingOp) :
    ∃ t, replayPending backend ops s = .ok () t ∧ ReplayedAll ops s t := by
  induction ops generalizing s with
  | nil => exact ⟨s, rfl, ⟨[], by simp, by simp⟩, fun _ hp => hp, fun _ hp _ => hp⟩
  | cons op ops ih =>
    obtain ⟨t, ht, hone⟩ := replayOp_replayed backend hw op
    obtain ⟨u, hu, hall⟩ := ih (hw.sameSeats hone.seats)
    refine ⟨u, ?_, .cons hone hall⟩
    unfold replayPending
    rw [bind_apply, ht]
    exact hu

/-- A host's operations are provisions, and there are none if it is not registered. -/
def Replayable (s : EnsState ω) (hostId : String) : Prop :=
  ∀ op ∈ s.pendingOps, op.hostId = hostId → op.action = .provision ∧ (s.registry.hosts.get? hostId).isSome

/-- A pass in which every call for a host succeeds clears the host's operations
exactly where they can be replayed. -/
theorem cleared_iff (hw : s.registry.Wellformed) (hens : settings.ensEnabled = true)
    (hok : ∀ w ∈ newWrites s (EnsEvent.apply backend settings s .replay), w.hostId = hostId → w.ok = true) :
    (EnsEvent.apply backend settings s .replay).queued hostId = false ↔ Replayable s hostId := by
  obtain ⟨t, ht, hall⟩ := replayPending_replayed backend hw s.pendingOps
  have happly : EnsEvent.apply backend settings s .replay = t := by
    simp only [EnsEvent.apply, atStartup, if_pos hens, ht]
  rw [happly] at hok ⊢
  obtain ⟨new, hnew, hclear⟩ := hall.writes
  have hdrop : newWrites s t = new := by rw [newWrites, hnew, List.drop_left]
  rw [hdrop] at hok
  have hqueued : t.queued hostId = false ↔ ∀ p ∈ t.pendingOps, p.hostId ≠ hostId := by
    simp [EnsState.queued]
  rw [hqueued]
  constructor
  · intro hnone op hop he
    have hno : ¬ (op.action = .update ∨ s.registry.hosts.get? op.hostId = .none) :=
      fun hleft => hnone op (hall.left op hop hleft) he
    rw [he] at hno
    constructor
    · cases ha : op.action with
      | provision => rfl
      | update => exact absurd (.inl ha) hno
    · cases hreg : s.registry.hosts.get? hostId with
      | none => exact absurd (.inr hreg) hno
      | some host => rfl
  · intro hre p hp he
    obtain ⟨ha, hreg⟩ := hre p (hall.fewer p hp) he
    have hup := hclear hostId ⟨p, hall.fewer p hp, he, ha⟩ hreg hok p hp he
    rw [ha] at hup
    cases hup

/-! ## Every run -/

/-- Outside the reconciling no write fails for a host that has nothing pending. -/
def EnsEvent.Excused (backend : EnsBackend ω) (settings : Settings) (s : EnsState ω) : EnsEvent → Prop
  | .reconcile _ => True
  | e => ∀ w ∈ newWrites s (e.apply backend settings s), w.Excused

theorem EnsEvent.keeps (backend : EnsBackend ω) (settings : Settings) {e : EnsEvent} (hd : e.drawn s.registry = true)
    (hne : ∀ now, e ≠ .reconcile now) : Keeps s (e.apply backend settings s) := by
  cases e with
  | registry e => exact .of_same (fun hw => hw.apply hd) rfl rfl
  | ready gate out reload leaveReload body now => exact keeps_hostsReady gate out reload leaveReload body now s
  | leave reload hostId => exact keeps_hostsLeave reload hostId s
  | syncMother => exact keeps_atStartup keeping_syncMotherEns s
  | replay => exact keeps_atStartup (keeping_replayPending s.pendingOps) s
  | reconcile now => exact absurd rfl (hne now)

theorem EnsEvent.kept (hw : s.registry.Wellformed) (hk : s.Kept) {e : EnsEvent} (hd : e.drawn s.registry = true)
    (hex : e.Excused backend settings s) :
    (e.apply backend settings s).registry.Wellformed ∧ (e.apply backend settings s).Kept := by
  by_cases hr : ∃ now, e = .reconcile now
  · obtain ⟨now, rfl⟩ := hr
    obtain ⟨t, ht, hrest⟩ := reconcileRegistry_kept backend settings now
      s.registry.hosts.keys hw hk
    simp only [EnsEvent.apply, atStartup, ht]
    split
    · exact hrest
    · exact ⟨hw, hk⟩
  · have hkeeps := EnsEvent.keeps backend settings hd fun now h => hr ⟨now, h⟩
    obtain ⟨new, hnew, hkept⟩ := hkeeps.pending
    refine ⟨hkeeps.wellformed hw, hkept ?_ hk⟩
    have hdrop : newWrites s (e.apply backend settings s) = new := by rw [newWrites, hnew, List.drop_left]
    rw [← hdrop]
    cases e with
    | reconcile now => exact absurd ⟨now, rfl⟩ hr
    | _ => exact hex

theorem kept_of_reaches {s₀ : EnsState ω} (hw : s₀.registry.Wellformed) (h₀ : s₀.writes = [])
    (h : (orchestrator backend settings).Reaches (EnsEvent.Excused backend settings) s₀ s) :
    s.registry.Wellformed ∧ s.Kept := by
  refine h.invariant (I := fun s => s.registry.Wellformed ∧ s.Kept) ⟨hw, fun h ho => ?_⟩ ?_
  · simp [h₀, owed] at ho
  · intro s e s' hI hex hstep
    simp only [orchestrator] at hstep
    split at hstep
    · next hd =>
      obtain rfl := Option.some.inj hstep
      exact EnsEvent.kept hI.1 hI.2 hd hex
    · simp at hstep

/-- **What is pending.** In every run in which no write outside the reconciling
fails for a host that has nothing pending, every host whose last write failed
has an operation pending, and a replay in which the calls for a host succeed
leaves none exactly where the host's are provisions and it is registered. -/
theorem pending_of_reaches {s₀ : EnsState ω} (hens : settings.ensEnabled = true) (hw : s₀.registry.Wellformed)
    (h₀ : s₀.writes = []) (h : (orchestrator backend settings).Reaches (EnsEvent.Excused backend settings) s₀ s) :
    (∀ hostId, owed s.writes hostId = true → s.queued hostId = true) ∧
      ∀ hostId, (∀ w ∈ newWrites s (EnsEvent.apply backend settings s .replay), w.hostId = hostId → w.ok = true) →
        ((EnsEvent.apply backend settings s .replay).queued hostId = false ↔ Replayable s hostId) := by
  obtain ⟨hws, hk⟩ := kept_of_reaches hw h₀ h
  exact ⟨hk, fun hostId hok => cleared_iff hws hens hok⟩

/-! ## Where operations are lost, and where they stay -/

/-- A service whose next calls succeed or not; nothing can be resolved. -/
def scripted : EnsBackend (List Bool) where
  base := "http://127.0.0.1:8090"
  post call answers := match answers with
    | true :: answers =>
      match call with
      | .provision body => (.ok (.provisioned (Ens.subname body.hostId "blitzwing.eth") ["0x5e"] false), answers)
      | .update _ | .deactivate _ => (.ok (.updated ["0x5e"]), answers)
    | _ => (.error "timed out", answers.tail)
  resolve _ answers := (.error "timed out", answers)

def ensOn : Settings where
  totalLayers := 12
  ensEnabled := true

def started (answers : List Bool) : EnsState (List Bool) where
  registry := demo 12
  service := answers

/-- `host-a` joins and is ready. -/
def joined : List EnsEvent :=
  [.registry (joinEvent 4 "host-a" 0),
    .ready ⟨[], true, 120⟩ donorAlone answering answering ⟨"host-a", .none⟩ 1]

/-- The provision of a host that is ready fails, and nothing is pending for it.
An update that fails while reconciling is pending, and stays so after a replay
in which it succeeds. -/
theorem writes_lost_and_kept :
    (∃ s, (orchestrator scripted ensOn).run (started [false]) joined = .some s ∧
      owed s.writes "host-a" = true ∧ s.queued "host-a" = false) ∧
    ∃ s, (orchestrator scripted ensOn).run (started [true, true]) (joined ++ [.reconcile fun _ => 2]) = .some s ∧
      s.queued "host-a" = true ∧ (newWrites s (EnsEvent.apply scripted ensOn s .replay)).all (·.ok) = true ∧
      (EnsEvent.apply scripted ensOn s .replay).queued "host-a" = true := by
  have hlost : (((orchestrator scripted ensOn).run (started [false]) joined).any fun s =>
      owed s.writes "host-a" && !s.queued "host-a") = true := by decide +kernel
  have hstays : (((orchestrator scripted ensOn).run (started [true, true])
      (joined ++ [.reconcile fun _ => 2])).any fun s => s.queued "host-a" &&
        ((newWrites s (EnsEvent.apply scripted ensOn s .replay)).all (·.ok) &&
          (EnsEvent.apply scripted ensOn s .replay).queued "host-a")) = true := by decide +kernel
  constructor
  · obtain ⟨s, hs, hcheck⟩ := (Option.any_eq_true _ _).1 hlost
    rw [Bool.and_eq_true, Bool.not_eq_true'] at hcheck
    exact ⟨s, hs, hcheck⟩
  · obtain ⟨s, hs, hcheck⟩ := (Option.any_eq_true _ _).1 hstays
    rw [Bool.and_eq_true, Bool.and_eq_true] at hcheck
    exact ⟨s, hs, hcheck⟩

/-- The same service, which finds no record under any name. -/
def recordless : EnsBackend (List Bool) := { scripted with resolve := fun _ answers => (.ok .none, answers) }

/-- What `Excused` asks, as a check. -/
def excusing (s : EnsState (List Bool)) : EnsEvent → Bool
  | .reconcile _ => true
  | e => (newWrites s (e.apply recordless ensOn s)).all fun w => w.ok || w.queued

theorem excused_of_excusing {s : EnsState (List Bool)} {e : EnsEvent} (h : excusing s e = true) :
    e.Excused recordless ensOn s := by
  have hall : ∀ {writes : List EnsWrite}, (writes.all fun w => w.ok || w.queued) = true → ∀ w ∈ writes, w.Excused := by
    intro writes h w hw
    simpa [EnsWrite.Excused] using List.all_eq_true.1 h w hw
  cases e with
  | reconcile now => exact trivial
  | _ => exact hall h

/-- The update fails while reconciling: it is owed, and pending. -/
theorem pending_of_reaches_reconciled : ∃ s,
    (orchestrator recordless ensOn).runIf excusing (started [true, false, true]) (joined ++ [.reconcile fun _ => 2]) =
        .some s ∧ owed s.writes "host-a" = true ∧
      (∀ hostId, owed s.writes hostId = true → s.queued hostId = true) ∧
      ∀ hostId, (∀ w ∈ newWrites s (EnsEvent.apply recordless ensOn s .replay), w.hostId = hostId → w.ok = true) →
        ((EnsEvent.apply recordless ensOn s .replay).queued hostId = false ↔ Replayable s hostId) := by
  have hrun : ((orchestrator recordless ensOn).runIf excusing (started [true, false, true])
      (joined ++ [.reconcile fun _ => 2])).any (fun s => owed s.writes "host-a") = true := by decide +kernel
  obtain ⟨s, hs, howed⟩ := (Option.any_eq_true _ _).1 hrun
  have hreaches := Machine.Reaches.of_runIf (fun e _ s h => excused_of_excusing h) hs
  exact ⟨s, hs, howed, pending_of_reaches rfl (SwarmRegistry.wellformed_init (init_demo 12)) rfl hreaches⟩

end Blitzwing.Sync
