/-
Whom the reapers remove.

A pass lists its victims under the lock and then removes them one after the
other, and a removal may wait for a `/reload`; `leave` does not look again
whether the host is still dead. `Reaping` runs the calls of the registry with a
clock, and notes beside each call what was heard of the hosts since it listed
them. A removal is right exactly where nothing that matters was heard of the
host meanwhile (`dead_iff_unheard`).
-/
import Blitzwing.Calls
import Blitzwing.Lifecycle

namespace Blitzwing

open SwarmRegistry

/-- A heartbeat of a host, or a handoff to it. -/
structure Heard where
  hostId : String
  time : Int
  handoff : Bool
deriving DecidableEq, Repr

/-- A call in progress: what it was started for, and what was heard since. -/
structure Pass where
  request : Request
  heard : List Heard := []

/-- A host that was removed, with its record at that moment. -/
structure Removal where
  request : Request
  hostId : String
  host : HostRecord
  now : Int
  heard : List Heard

structure Reaping where
  cfg : Config
  clock : Int
  passes : List Pass := []
  removals : List Removal := []

inductive ReapingLabel
  | tick (seconds : ℕ)
  /-- A heartbeat, whatever it says. -/
  | heartbeat (hostId : String) (report : HeartbeatReport)
  | label (label : Label)

/-- The clock reading of a label. -/
def Label.now? : Label → Option Int
  | .start (.reapStale _ now) | .start (.reapStalePending _ now) => .some now
  | .run _ now | .join _ _ _ _ _ now | .deliver _ (.heartbeat _ now) => .some now
  | _ => .none

/-- The call a label starts. -/
def Label.request? : Label → Option Request
  | .start request => .some request
  | _ => .none

def Config.pc? (cfg : Config) (i : ℕ) : Option Pc := cfg.calls[i]?.map (·.pc)

/-- The handoff a commit of `mark_ready` completes. -/
def SwarmRegistry.handoff (reg : SwarmRegistry) (plan : ShrinkPlan) (peer : Option String) (now : Int) : List Heard :=
  match markReadyCommit plan peer now reg with
  | .ok _ _ => [⟨plan.hostId, now, true⟩]
  | .error _ _ => []

/-- What a label lets the registry hear. -/
def Config.hears (cfg : Config) : Label → List Heard
  | .deliver n (.heartbeat _ now) => (cfg.reports[n]?).toList.map fun report => ⟨report.hostId, now, false⟩
  | .run i now =>
    match cfg.pc? i with
    | .some (.shrunk plan peer) => cfg.reg.handoff plan peer now
    | _ => []
  | _ => []

namespace Reaping

/-- The host a label removes. -/
def removes (s : Reaping) : Label → List Removal
  | .run i now =>
    match s.cfg.pc? i, s.passes[i]? with
    | .some (.leave hostId), .some pass =>
      match leaveLocked hostId s.cfg.reg with
      | .ok _ _ => (s.cfg.reg.hosts.get? hostId).toList.map fun host =>
        { request := pass.request, hostId, host, now, heard := pass.heard }
      | .error _ _ => []
    | _, _ => []
  | _ => []

def note (s : Reaping) (heard : List Heard) : List Pass :=
  s.passes.map fun pass => { pass with heard := pass.heard ++ heard }

def step (s : Reaping) : ReapingLabel → Option Reaping
  | .tick seconds => .some { s with clock := s.clock + seconds }
  | .heartbeat hostId report => .some { s with
      cfg := { s.cfg with reg := after (applyHeartbeatManifest hostId report s.clock) s.cfg.reg }
      passes := s.note [⟨hostId, s.clock, false⟩] }
  | .label label =>
    if label.now?.all (· = s.clock) then
      (callsMachine.step s.cfg label).map fun cfg => { s with
        cfg
        passes := s.note (s.cfg.hears label) ++ label.request?.toList.map fun request => { request }
        removals := s.removals ++ s.removes label }
    else .none

def machine : Machine Reaping ReapingLabel := ⟨step⟩

/-- No call in progress. -/
def fresh (reg : SwarmRegistry) (clock : Int) : Reaping := { cfg := .fresh reg, clock }

end Reaping

/-- The host was dead when it was removed, by a reaper. -/
def Removal.Dead (r : Removal) : Prop :=
  match r.request with
  | .reapStale ttl _ => r.now - r.host.lastHeartbeat > ttl
  | .reapStalePending _ _ => r.host.status = .pending
  | .leave _ | .markReady _ _ => True

/-- Nothing was heard of the host since the reaper listed it that makes it a
live one: in the last `ttl` seconds, or of a handoff. -/
def Removal.Unheard (r : Removal) : Prop :=
  match r.request with
  | .reapStale ttl _ => ∀ e ∈ r.heard, e.hostId = r.hostId → r.now - e.time > ttl
  | .reapStalePending _ _ => ∀ e ∈ r.heard, e.hostId = r.hostId → e.handoff = false
  | .leave _ | .markReady _ _ => True

instance (r : Removal) : Decidable r.Dead := by
  unfold Removal.Dead
  split <;> infer_instance

/-! ## What a step does to the hosts' lives -/

/-- The host's record before and after `heard`. -/
structure HostRecord.Lives (heard : List Heard) (hostId : String) (h h' : HostRecord) : Prop where
  sameId : h'.hostId = h.hostId
  beat : ∀ e ∈ heard, e.hostId = hostId → h'.lastHeartbeat = e.time
  quiet : (∀ e ∈ heard, e.hostId ≠ hostId) → h'.lastHeartbeat = h.lastHeartbeat
  pending : h'.status = .pending ↔ h.status = .pending ∧ ∀ e ∈ heard, e.hostId = hostId → e.handoff = false

/-- The hosts registered after `heard` were registered before. -/
def SwarmRegistry.Lives (heard : List Heard) (reg reg' : SwarmRegistry) : Prop :=
  ∀ k h', reg'.hosts.get? k = .some h' → ∃ h, reg.hosts.get? k = .some h ∧ h.Lives heard k h'

theorem HostRecord.Lives.of_same {h h' : HostRecord} {hostId : String} (hid : h'.hostId = h.hostId)
    (hbeat : h'.lastHeartbeat = h.lastHeartbeat) (hstatus : h'.status = h.status) : h.Lives [] hostId h' :=
  ⟨hid, by simp, fun _ => hbeat, by simp [hstatus]⟩

theorem HostRecord.Lives.trans_nil {heard : List Heard} {hostId : String} {h₁ h₂ h₃ : HostRecord}
    (h : h₁.Lives heard hostId h₂) (h' : h₂.Lives [] hostId h₃) : h₁.Lives heard hostId h₃ where
  sameId := h'.sameId.trans h.sameId
  beat e he hid := (h'.quiet (by simp)).trans (h.beat e he hid)
  quiet hno := (h'.quiet (by simp)).trans (h.quiet hno)
  pending := by
    rw [h'.pending, h.pending]
    simp

namespace SwarmRegistry

variable {reg reg' reg'' : SwarmRegistry} {heard : List Heard}

theorem Lives.refl (reg : SwarmRegistry) : reg.Lives [] reg :=
  fun _ h hk => ⟨h, hk, .of_same rfl rfl rfl⟩

theorem Lives.trans_nil (h : reg.Lives heard reg') (h' : reg'.Lives [] reg'') : reg.Lives heard reg'' := by
  intro k g'' hk
  obtain ⟨g', hg', hlives'⟩ := h' k g'' hk
  obtain ⟨g, hg, hlives⟩ := h k g' hg'
  exact ⟨g, hg, hlives.trans_nil hlives'⟩

theorem Lives.nil_trans (h : reg.Lives [] reg') (h' : reg'.Lives heard reg'') : reg.Lives heard reg'' := by
  intro k g'' hk
  obtain ⟨g', hg', hlives'⟩ := h' k g'' hk
  obtain ⟨g, hg, hlives⟩ := h k g' hg'
  refine ⟨g, hg, hlives'.sameId.trans hlives.sameId, hlives'.beat, ?_, ?_⟩
  · intro hno
    exact (hlives'.quiet hno).trans (hlives.quiet (by simp))
  · rw [hlives'.pending, hlives.pending]
    simp

theorem Lives.updateHost {hostId : String} {f : HostRecord → HostRecord} (hid : ∀ h, (f h).hostId = h.hostId)
    (hbeat : ∀ h, (f h).lastHeartbeat = h.lastHeartbeat) (hstatus : ∀ h, (f h).status = h.status) :
    reg.Lives [] (reg.updateHost hostId f) := by
  intro k h' hk
  rw [get?_updateHost] at hk
  split at hk
  · obtain ⟨h, hget, rfl⟩ := Option.map_eq_some_iff.1 hk
    exact ⟨h, hget, .of_same (hid h) (hbeat h) (hstatus h)⟩
  · exact ⟨h', hk, .of_same rfl rfl rfl⟩

theorem Lives.erase (hostId : String) : reg.Lives [] { reg with hosts := reg.hosts.erase hostId } := by
  intro k h' hk
  have hk' : (reg.hosts.erase hostId).get? k = .some h' := hk
  rw [Dict.get?_erase] at hk'
  split at hk'
  · simp at hk'
  · exact ⟨h', hk', .of_same rfl rfl rfl⟩

theorem Lives.of_hosts (h : reg'.hosts = reg.hosts) : reg.Lives [] reg' := by
  intro k g hk
  rw [h] at hk
  exact ⟨g, hk, .of_same rfl rfl rfl⟩

variable (reg) in
theorem lives_adoptReport (hostId : String) (report : Option String) :
    reg.Lives [] (after (adoptReport hostId report) reg) := by
  rw [after_adoptReport]
  exact .updateHost (·.adopt_hostId report) (·.adopt_lastHeartbeat report) (·.adopt_status report)

theorem lives_setIf {α : Type} {hostId : String} {value : Option α} {f : α → HostRecord → HostRecord}
    (hid : ∀ a h, (f a h).hostId = h.hostId) (hbeat : ∀ a h, (f a h).lastHeartbeat = h.lastHeartbeat)
    (hstatus : ∀ a h, (f a h).status = h.status) : reg.Lives [] (reg.setIf hostId value f) := by
  cases value with
  | none => exact .refl reg
  | some a => exact .updateHost (hid a) (hbeat a) (hstatus a)

theorem lives_noteContact (hostId : String) (report : HeartbeatReport) : reg.Lives [] (noteContact hostId report reg) := by
  unfold noteContact
  refine .trans_nil (lives_setIf ?_ ?_ ?_) (.trans_nil (lives_setIf ?_ ?_ ?_)
    (.trans_nil (.of_hosts (addBootstrapPeer_hosts _ _)) (lives_setIf ?_ ?_ ?_)))
  all_goals exact fun _ _ => rfl

variable (reg) in
/-- A heartbeat of a host that is registered. -/
theorem lives_heartbeat (hostId : String) (now : Int) :
    reg.Lives [⟨hostId, now, false⟩] (after (heartbeat hostId now) reg) := by
  intro k h' hk
  simp only [after, heartbeat, locked] at hk
  cases hget : reg.hosts.get? hostId with
  | none =>
    simp only [hget] at hk
    have hne : hostId ≠ k := by
      intro he
      rw [he, hk] at hget
      simp at hget
    exact ⟨h', hk, rfl, by simp [hne], fun _ => rfl, by simp⟩
  | some host =>
    simp only [hget, get?_updateHost] at hk
    split at hk
    · next he =>
      subst he
      obtain ⟨h, hget', rfl⟩ := Option.map_eq_some_iff.1 hk
      refine ⟨h, hget', rfl, by simp, by simp, ?_⟩
      simp only [List.mem_singleton, forall_eq, implies_true, and_true]
      split
      · next hoff => simp [hoff]
      · rfl
    · next hne => exact ⟨h', hk, rfl, by simp [Ne.symm hne], fun _ => rfl, by simp⟩

variable (reg) in
theorem lives_applyHeartbeatManifest (hostId : String) (report : HeartbeatReport) (now : Int) :
    reg.Lives [⟨hostId, now, false⟩] (after (applyHeartbeatManifest hostId report now) reg) := by
  have hbeat := lives_heartbeat reg hostId now
  simp only [applyHeartbeatManifest]
  cases hh : heartbeat hostId now reg with
  | error e reg₁ =>
    rw [after_of_error hh] at hbeat
    rwa [after_bind_error hh]
  | ok _ reg₁ =>
    rw [after_of_ok hh] at hbeat
    rw [after_bind_ok hh]
    have hadopt := lives_adoptReport reg₁ hostId report.blockIndices
    cases ha : adoptReport hostId report.blockIndices reg₁ with
    | error e reg₂ =>
      rw [after_of_error ha] at hadopt
      rw [after_bind_error ha]
      exact hbeat.trans_nil hadopt
    | ok _ reg₂ =>
      rw [after_of_ok ha] at hadopt
      rw [after_bind_ok ha]
      exact (hbeat.trans_nil hadopt).trans_nil (lives_noteContact hostId report)

theorem lives_reconcile (hostId : String) (status : StatusReply) :
    reg.Lives [] (after (reconcile hostId (.some status)) reg) := by
  have hadopt := lives_adoptReport reg hostId status.blockIndices
  simp only [reconcile]
  cases ha : adoptReport hostId status.blockIndices reg with
  | error e reg₁ =>
    rw [after_of_error ha] at hadopt
    rwa [after_bind_error ha]
  | ok _ reg₁ =>
    rw [after_of_ok ha] at hadopt
    rw [after_bind_ok ha]
    exact hadopt.trans_nil (.updateHost (fun _ => rfl) (fun _ => rfl) fun _ => rfl)

theorem lives_markReadyCheck {hostId : String} {peer : Option String} {check : ReadyCheck}
    (h : markReadyCheck hostId peer reg = .ok check reg') : reg.Lives [] reg' := by
  obtain ⟨-, -, ⟨-, -, rfl⟩ | ⟨-, -, -, -, rfl | ⟨p, rfl⟩⟩⟩ := markReadyCheck_ok h
  · exact .refl _
  · exact .refl _
  · exact .updateHost (fun _ => rfl) (fun _ => rfl) fun _ => rfl

theorem lives_reclaimCommit (plan : ReclaimPlan) : reg.Lives [] (after (reclaimCommit plan) reg) := by
  simp only [after, reclaimCommit, locked]
  cases reg.hosts.get? plan.donorId with
  | none => exact .refl reg
  | some donor =>
    cases parseRange plan.newRange with
    | error e => exact .refl reg
    | ok p => exact .updateHost (fun _ => rfl) (fun _ => rfl) fun _ => rfl

/-- The record of a host that is made ready. -/
theorem lives_readied {hostId : String} {now : Int} {f : HostRecord → HostRecord} (hid : ∀ h, (f h).hostId = h.hostId)
    (hbeat : ∀ h, (f h).lastHeartbeat = now) (hstatus : ∀ h, (f h).status = .online) :
    reg.Lives [⟨hostId, now, true⟩] (reg.updateHost hostId f) := by
  intro k h' hk
  rw [get?_updateHost] at hk
  split at hk
  · next he =>
    subst he
    obtain ⟨h, hget, rfl⟩ := Option.map_eq_some_iff.1 hk
    exact ⟨h, hget, hid h, by simp [hbeat], by simp, by simp [hstatus]⟩
  · next hne => exact ⟨h', hk, rfl, by simp [Ne.symm hne], fun _ => rfl, by simp [Ne.symm hne]⟩

theorem lives_handoff (plan : ShrinkPlan) (peer : Option String) (now : Int) :
    reg.Lives (reg.handoff plan peer now) (after (markReadyCommit plan peer now) reg) := by
  simp only [after, handoff, markReadyCommit]
  cases reg.hosts.get? plan.hostId with
  | none => exact .refl reg
  | some host =>
    cases reg.hosts.get? plan.donorId with
    | none => exact .refl reg
    | some donor =>
      cases parseRange plan.shrinkTo with
      | error e => exact .refl reg
      | ok keep =>
        obtain ⟨dStart, dEnd⟩ := keep
        let shrunk := reg.updateHost plan.donorId fun d =>
          { d with blockIndices := plan.shrinkTo, layersHosted := dEnd - dStart }
        have hshrunk : reg.Lives [] shrunk := .updateHost (fun _ => rfl) (fun _ => rfl) fun _ => rfl
        have hmoved : reg.Lives [] (shrunk.updateHost plan.hostId fun h => { h with blockIndices := plan.assigned }) :=
          hshrunk.trans_nil (.updateHost (fun _ => rfl) (fun _ => rfl) fun _ => rfl)
        cases parseRange plan.assigned with
        | error e => exact hmoved
        | ok give =>
          show reg.Lives [⟨plan.hostId, now, true⟩] (addBootstrapPeer _ peer)
          refine .trans_nil ?_ (.of_hosts (addBootstrapPeer_hosts _ peer))
          exact hmoved.nil_trans (lives_readied (fun _ => rfl) (fun _ => rfl) fun _ => rfl)

end SwarmRegistry

/-! ## What a label does to them -/

namespace Config

variable {cfg cfg' : Config} {label : Label}

theorem lives_run {i : ℕ} {now : Int} {c c' : Call} {reg' : SwarmRegistry} (hc : cfg.calls[i]? = .some c)
    (hrun : c.Runs now cfg.reg c' reg') : cfg.reg.Lives (cfg.hears (.run i now)) reg' := by
  have hpc : cfg.pc? i = .some c.pc := by simp [pc?, hc]
  cases hrun with
  | leaveRaises h _ | decides h _ | givesUp h _ | reclaimRaises h _ | readyRaises h _ =>
    simp only [hears, hpc, h]
    exact .refl _
  | leaves h hl | leavesRange h hl =>
    obtain ⟨-, -, -, -, -, -, rfl⟩ := leaveLocked_ok hl
    simp only [hears, hpc, h]
    exact .erase _
  | absorbs h =>
    simp only [hears, hpc, h]
    exact lives_reclaimCommit _
  | wasOnline h hl | checks h hl =>
    simp only [hears, hpc, h]
    exact lives_markReadyCheck hl
  | handsOff h =>
    simp only [hears, hpc, h]
    exact lives_handoff _ _ _

/-- A host that is registered after a label was registered before, or is new. -/
theorem lives_steps (h : cfg.Steps label cfg') {k : String} {h' : HostRecord} (hk : cfg'.reg.hosts.get? k = .some h') :
    (∃ h, cfg.reg.hosts.get? k = .some h ∧ h.Lives (cfg.hears label) k h') ∨
      cfg.shards k = .none ∧ (cfg'.shards k).isSome ∧ h'.hostId = k := by
  cases h with
  | start | answer _ _ | refuse _ _ | joinRaises | report _ => exact .inl (Lives.refl _ k h' hk)
  | run hc hrun => exact .inl (lives_run hc hrun k h' hk)
  | @join _ _ _ _ hostId _ reply reg' hget hshard hj =>
    obtain ⟨record, hrecord, rfl⟩ := join_ok hj
    obtain ⟨-, -, -, -, -, -, -, -, hid, -⟩ := joinRecord_ok hrecord
    simp only [Dict.get?_set] at hk
    split at hk
    · next he =>
      subst he
      obtain rfl := Option.some.inj hk
      exact .inr ⟨hshard, by simp, hid⟩
    · exact .inl ⟨h', hk, .of_same rfl rfl rfl⟩
  | @deliver n delivery report hr =>
    cases delivery with
    | heartbeat contact now =>
      simp only [hears, hr, Option.toList_some, List.map_singleton]
      exact .inl (lives_applyHeartbeatManifest _ _ _ now k h' hk)
    | status running => exact .inl (lives_reconcile _ _ k h' hk)

/-- Ids that were used stay used. -/
theorem shards_steps (h : cfg.Steps label cfg') {k : String} (hk : (cfg.shards k).isSome) : (cfg'.shards k).isSome := by
  cases h with
  | start | run _ _ | refuse _ _ | joinRaises | report _ | deliver _ => exact hk
  | answer _ _ | join _ _ _ =>
    simp only [Function.update_apply]
    split
    · rfl
    · exact hk

end Config

/-- The hosts a call has still to remove. -/
def Call.remaining (c : Call) : List String :=
  match c.pc with
  | .leave hostId => hostId :: c.victims
  | _ => c.victims

@[simp] theorem Call.remaining_resume (c : Call) : c.resume.remaining = c.victims := by
  unfold Call.resume
  split
  · next h => simp [Call.remaining, h]
  · next h => simp [Call.remaining, h]

theorem Call.victims_subset (c : Call) : c.victims ⊆ c.remaining := by
  unfold Call.remaining
  split
  · exact List.subset_cons_self _ _
  · exact List.Subset.refl _

theorem Call.Runs.remaining {c c' : Call} {now : Int} {reg reg' : SwarmRegistry} (h : c.Runs now reg c' reg') :
    c'.remaining ⊆ c.remaining := by
  cases h with
  | leaveRaises _ _ | leaves _ _ | givesUp _ _ | reclaimRaises _ _ | absorbs _ | readyRaises _ _ | wasOnline _ _
  | handsOff _ =>
    rw [Call.remaining_resume]
    exact c.victims_subset
  | leavesRange _ _ | decides _ _ | checks _ _ => exact c.victims_subset

theorem Call.Waits.remaining {c c' : Call} {hostId range : String} (h : c.Waits hostId range c') :
    c'.remaining ⊆ c.remaining := by
  cases h with
  | absorb _ | shrink _ => exact c.victims_subset

/-- The calls after a label have no more to remove than before, but for one that starts. -/
theorem Config.remaining_steps {cfg cfg' : Config} {label : Label} (h : cfg.Steps label cfg') {j : ℕ} {c' : Call}
    (hc' : cfg'.calls[j]? = .some c') : (∃ c, cfg.calls[j]? = .some c ∧ c'.remaining ⊆ c.remaining) ∨
      ∃ request, label = .start request ∧ j = cfg.calls.length ∧ c' = request.call cfg.reg := by
  have hset : ∀ {i c c₁}, cfg.calls[i]? = .some c → c₁.remaining ⊆ c.remaining →
      (cfg.calls.set i c₁)[j]? = .some c' → ∃ c, cfg.calls[j]? = .some c ∧ c'.remaining ⊆ c.remaining := by
    intro i c c₁ hc hsub hget
    rw [List.getElem?_set] at hget
    split at hget
    · next he =>
      subst he
      split at hget
      · obtain rfl := Option.some.inj hget
        exact ⟨c, hc, hsub⟩
      · simp at hget
    · exact ⟨c', hget, List.Subset.refl _⟩
  cases h with
  | @start request =>
    by_cases hj : j < cfg.calls.length
    · rw [List.getElem?_append_left hj] at hc'
      exact .inl ⟨c', hc', List.Subset.refl _⟩
    · rw [List.getElem?_append_right (Nat.le_of_not_lt hj)] at hc'
      obtain ⟨hlt, rfl⟩ := List.getElem?_eq_some_iff.1 hc'
      have hlen : j = cfg.calls.length := by
        simp only [List.length_singleton] at hlt
        omega
      subst hlen
      exact .inr ⟨request, rfl, rfl, by simp⟩
  | run hc hrun => exact .inl (hset hc hrun.remaining hc')
  | answer hc hw => exact .inl (hset hc hw.remaining hc')
  | @refuse i c _ _ _ hc hw =>
    refine .inl (hset hc ?_ hc')
    rw [Call.remaining_resume]
    exact c.victims_subset
  | join _ _ _ | joinRaises | report _ | deliver _ => exact .inl ⟨c', hc', List.Subset.refl _⟩

/-! ## The invariant -/

/-- The call is a reaper's. -/
def Request.Reaps : Request → Prop
  | .reapStale _ _ | .reapStalePending _ _ => True
  | .leave _ | .markReady _ _ => False

/-- If the pass removed the host from now on, it would be dead exactly where
nothing was heard of it. -/
def Pass.Fits (pass : Pass) (clock : Int) (reg : SwarmRegistry) (hostId : String) : Prop :=
  ∀ host, reg.hosts.get? hostId = .some host → ∀ now ≥ clock,
    let removal : Removal := { request := pass.request, hostId, host, now, heard := pass.heard }
    removal.Dead ↔ removal.Unheard

/-- What is heard is noted. -/
theorem Pass.Fits.hears {pass : Pass} {clock : Int} {reg reg' : SwarmRegistry} {hostId : String} {heard : List Heard}
    (h : pass.Fits clock reg hostId) (hpast : ∀ e ∈ pass.heard, e.time ≤ clock) (hnow : ∀ e ∈ heard, e.time = clock)
    (hlives : ∀ host', reg'.hosts.get? hostId = .some host' →
      ∃ host, reg.hosts.get? hostId = .some host ∧ host.Lives heard hostId host') :
    ({ pass with heard := pass.heard ++ heard } : Pass).Fits clock reg' hostId := by
  intro host' hget' now hle
  obtain ⟨host, hget, hone⟩ := hlives host' hget'
  have hfit := h host hget now hle
  obtain ⟨request, before⟩ := pass
  cases request with
  | leave _ | markReady _ _ => exact Iff.rfl
  | reapStale ttl listed =>
    simp only [Removal.Dead, Removal.Unheard, List.mem_append, or_imp, forall_and] at hfit ⊢
    by_cases hbeat : ∃ e ∈ heard, e.hostId = hostId
    · -- The last of what was heard is the heartbeat on record.
      obtain ⟨e, he, hid⟩ := hbeat
      have htime := hnow e he
      have hrecord := hone.beat e he hid
      constructor
      · intro hdead
        refine ⟨fun e' he' _ => ?_, fun e' he' _ => ?_⟩
        · have := hpast e' he'
          omega
        · have := hnow e' he'
          omega
      · intro hunheard
        have := hunheard.2 e he hid
        omega
    · have hquiet := hone.quiet fun e he hid => hbeat ⟨e, he, hid⟩
      rw [hquiet, hfit]
      exact ⟨fun hunheard => ⟨hunheard, fun e he hid => absurd ⟨e, he, hid⟩ hbeat⟩, And.left⟩
  | reapStalePending ttl listed =>
    simp only [Removal.Dead, Removal.Unheard, List.mem_append, or_imp, forall_and] at hfit ⊢
    rw [hone.pending, hfit]

theorem Pass.Fits.later {pass : Pass} {clock clock' : Int} {reg : SwarmRegistry} {hostId : String}
    (h : pass.Fits clock reg hostId) (hle : clock ≤ clock') : pass.Fits clock' reg hostId :=
  fun host hget now hnow => h host hget now (by omega)

/-- A reaper that has just listed its victims. -/
theorem Request.fits {reg : SwarmRegistry} (hkeyed : reg.Keyed) {request : Request} {clock : Int}
    (hclock : (Label.start request).now?.all (· = clock) = true) {hostId : String}
    (hmem : hostId ∈ (request.call reg).remaining) (hreaps : request.Reaps) :
    (∃ host, reg.hosts.get? hostId = .some host) ∧ ({ request } : Pass).Fits clock reg hostId := by
  cases request with
  | leave _ | markReady _ _ => exact hreaps.elim
  | reapStale ttl now =>
    obtain rfl : now = clock := by simpa [Label.now?] using hclock
    simp only [Request.call, Call.remaining_resume, staleHosts, List.mem_map, List.mem_filter,
      decide_eq_true_eq] at hmem
    obtain ⟨host, ⟨hv, -, -, hstale⟩, rfl⟩ := hmem
    have hget := hkeyed.get? hv
    refine ⟨⟨host, hget⟩, ?_⟩
    intro host' hget' later hle
    obtain rfl := Option.some.inj (hget.symm.trans hget')
    simp only [Removal.Dead, Removal.Unheard, List.not_mem_nil, false_implies, implies_true, iff_true]
    omega
  | reapStalePending ttl now =>
    simp only [Request.call, Call.remaining_resume, stalePending, List.mem_map, List.mem_filter,
      decide_eq_true_eq] at hmem
    obtain ⟨host, ⟨hv, -, hpending, -⟩, rfl⟩ := hmem
    have hget := hkeyed.get? hv
    refine ⟨⟨host, hget⟩, ?_⟩
    intro host' hget' later _
    obtain rfl := Option.some.inj (hget.symm.trans hget')
    simp [Removal.Dead, Removal.Unheard, hpending]

namespace Reaping

variable {s t : Reaping}

structure Sound (s : Reaping) : Prop where
  keyed : s.cfg.reg.Keyed
  /-- The shard manager of every host was given a range. -/
  used : ∀ k host, s.cfg.reg.hosts.get? k = .some host → (s.cfg.shards k).isSome
  length : s.passes.length = s.cfg.calls.length
  past : ∀ pass ∈ s.passes, ∀ e ∈ pass.heard, e.time ≤ s.clock
  fits : ∀ (i : ℕ) (c : Call) (pass : Pass), s.cfg.calls[i]? = .some c → s.passes[i]? = .some pass → pass.request.Reaps →
    ∀ hostId ∈ c.remaining, (s.cfg.shards hostId).isSome ∧ pass.Fits s.clock s.cfg.reg hostId
  removals : ∀ r ∈ s.removals, r.Dead ↔ r.Unheard

theorem sound_fresh {reg : SwarmRegistry} (hkeyed : reg.Keyed) (clock : Int) : (fresh reg clock).Sound where
  keyed := hkeyed
  used k host hget := by
    have hget' : reg.hosts.get? k = .some host := hget
    simp [fresh, Config.fresh, hget']
  length := rfl
  past := by simp [fresh]
  fits i c pass hc := by simp [fresh, Config.fresh] at hc
  removals := by simp [fresh]

theorem Sound.removes (hs : s.Sound) {label : Label} (hclock : label.now?.all (· = s.clock) = true) :
    ∀ r ∈ s.removes label, r.Dead ↔ r.Unheard := by
  intro r hr
  unfold Reaping.removes at hr
  split at hr
  · next i now =>
    split at hr
    · next hostId pass hpc hpass =>
      split at hr
      · obtain ⟨host, hhost, rfl⟩ := List.mem_map.1 hr
        have hget : s.cfg.reg.hosts.get? hostId = .some host := by simpa using hhost
        obtain rfl : now = s.clock := by simpa [Label.now?] using hclock
        obtain ⟨c, hc, hleave⟩ := Option.map_eq_some_iff.1 hpc
        by_cases hreaps : pass.request.Reaps
        · have hmem : hostId ∈ c.remaining := by simp [Call.remaining, hleave]
          exact (hs.fits i c pass hc hpass hreaps hostId hmem).2 host hget s.clock (le_refl _)
        · obtain ⟨request, heard⟩ := pass
          cases request with
          | leave _ | markReady _ _ => exact Iff.rfl
          | reapStale _ _ | reapStalePending _ _ => exact absurd trivial hreaps
      · simp at hr
    · simp at hr
  · simp at hr

theorem note_mem {heard : List Heard} {pass : Pass} (h : pass ∈ s.note heard) :
    ∃ before ∈ s.passes, pass = { before with heard := before.heard ++ heard } := by
  obtain ⟨before, hmem, rfl⟩ := List.mem_map.1 h
  exact ⟨before, hmem, rfl⟩

theorem note_get {heard : List Heard} {i : ℕ} {pass : Pass} (h : (s.note heard)[i]? = .some pass) :
    ∃ before, s.passes[i]? = .some before ∧ pass = { before with heard := before.heard ++ heard } := by
  rw [note, List.getElem?_map] at h
  obtain ⟨before, hget, rfl⟩ := Option.map_eq_some_iff.1 h
  exact ⟨before, hget, rfl⟩

/-- What a label lets the registry hear, it hears now. -/
theorem hears_time {label : Label} (hclock : label.now?.all (· = s.clock) = true) :
    ∀ e ∈ s.cfg.hears label, e.time = s.clock := by
  intro e he
  unfold Config.hears at he
  split at he
  · obtain ⟨report, -, rfl⟩ := List.mem_map.1 he
    simpa [Label.now?] using hclock
  · next i now =>
    obtain rfl : now = s.clock := by simpa [Label.now?] using hclock
    split at he
    · unfold SwarmRegistry.handoff at he
      split at he
      · obtain rfl := List.mem_singleton.1 he
        rfl
      · simp at he
    · simp at he
  · simp at he

theorem Sound.heartbeat (hs : s.Sound) (hostId : String) (report : HeartbeatReport) :
    Sound { s with
      cfg := { s.cfg with reg := after (applyHeartbeatManifest hostId report s.clock) s.cfg.reg }
      passes := s.note [⟨hostId, s.clock, false⟩] } := by
  have hlives := lives_applyHeartbeatManifest s.cfg.reg hostId report s.clock
  constructor
  case keyed =>
    intro k h' hget
    obtain ⟨h, hget', hone⟩ := hlives k h' hget
    exact hone.sameId.trans (hs.keyed k h hget')
  case used =>
    intro k h' hget
    obtain ⟨h, hget', -⟩ := hlives k h' hget
    exact hs.used k h hget'
  case length => simpa [note] using hs.length
  case past =>
    intro pass hpass e he
    obtain ⟨before, hmem, rfl⟩ := note_mem hpass
    obtain he | he := List.mem_append.1 he
    · exact hs.past before hmem e he
    · obtain rfl := List.mem_singleton.1 he
      exact le_refl _
  case fits =>
    intro i c pass hc hpass hreaps hostId hmem
    obtain ⟨before, hbefore, rfl⟩ := note_get hpass
    obtain ⟨hused, hfits⟩ := hs.fits i c before hc hbefore hreaps hostId hmem
    exact ⟨hused, hfits.hears (hs.past before (List.mem_of_getElem? hbefore)) (by simp) (hlives hostId)⟩
  case removals => exact hs.removals

theorem Sound.label (hs : s.Sound) {label : Label} (hclock : label.now?.all (· = s.clock) = true) {cfg : Config}
    (hsteps : s.cfg.Steps label cfg) : Sound { s with
      cfg
      passes := s.note (s.cfg.hears label) ++ label.request?.toList.map fun request => { request }
      removals := s.removals ++ s.removes label } := by
  have htime := hears_time hclock
  have hnote : (s.note (s.cfg.hears label)).length = s.cfg.calls.length := by simpa [note] using hs.length
  constructor
  case keyed =>
    intro k h' hget
    obtain ⟨h, hget', hone⟩ | ⟨-, -, hid⟩ := Config.lives_steps hsteps hget
    · exact hone.sameId.trans (hs.keyed k h hget')
    · exact hid
  case used =>
    intro k h' hget
    obtain ⟨h, hget', -⟩ | ⟨-, hused, -⟩ := Config.lives_steps hsteps hget
    · exact Config.shards_steps hsteps (hs.used k h hget')
    · exact hused
  case length =>
    rw [List.length_append, hnote, List.length_map]
    cases hsteps <;> simp [Label.request?]
  case past =>
    intro pass hpass e he
    obtain hpass | hpass := List.mem_append.1 hpass
    · obtain ⟨before, hmem, rfl⟩ := note_mem hpass
      obtain he | he := List.mem_append.1 he
      · exact hs.past before hmem e he
      · exact le_of_eq (htime e he)
    · obtain ⟨request, -, rfl⟩ := List.mem_map.1 hpass
      simp at he
  case fits =>
    intro i c' pass hc' hpass hreaps hostId hmem
    obtain ⟨c, hc, hsub⟩ | ⟨request, rfl, rfl, rfl⟩ := Config.remaining_steps hsteps hc'
    · have hi : i < (s.note (s.cfg.hears label)).length := by
        rw [hnote]
        exact (List.getElem?_eq_some_iff.1 hc).1
      rw [List.getElem?_append_left hi] at hpass
      obtain ⟨before, hbefore, rfl⟩ := note_get hpass
      obtain ⟨hused, hfits⟩ := hs.fits i c before hc hbefore hreaps hostId (hsub hmem)
      refine ⟨Config.shards_steps hsteps hused, ?_⟩
      refine hfits.hears (hs.past before (List.mem_of_getElem? hbefore)) htime ?_
      intro host' hget
      obtain hold | ⟨hnew, -⟩ := Config.lives_steps hsteps hget
      · exact hold
      · simp [hnew] at hused
    · rw [List.getElem?_append_right (Nat.le_of_eq hnote)] at hpass
      obtain rfl : pass = { request } := by simpa [Label.request?, hnote, eq_comm] using hpass
      obtain ⟨⟨host, hget⟩, hfits⟩ := Request.fits hs.keyed hclock hmem hreaps
      cases hsteps
      exact ⟨hs.used hostId host hget, hfits⟩
  case removals =>
    intro r hr
    obtain hr | hr := List.mem_append.1 hr
    · exact hs.removals r hr
    · exact hs.removes hclock r hr

theorem Sound.step (hs : s.Sound) {a : ReapingLabel} (hstep : step s a = .some t) : t.Sound := by
  cases a with
  | tick seconds =>
    obtain rfl := Option.some.inj hstep
    refine ⟨hs.keyed, hs.used, hs.length, ?_, ?_, hs.removals⟩
    · intro pass hpass e he
      have := hs.past pass hpass e he
      show e.time ≤ s.clock + seconds
      omega
    · intro i c pass hc hpass hreaps hostId hmem
      obtain ⟨hused, hfits⟩ := hs.fits i c pass hc hpass hreaps hostId hmem
      exact ⟨hused, hfits.later (by show s.clock ≤ s.clock + seconds; omega)⟩
  | heartbeat hostId report =>
    obtain rfl := Option.some.inj hstep
    exact hs.heartbeat hostId report
  | label label =>
    simp only [Reaping.step] at hstep
    split at hstep
    · next hclock =>
      obtain ⟨cfg, hcfg, rfl⟩ := Option.map_eq_some_iff.1 hstep
      exact hs.label hclock (steps_of_step hcfg)
    · simp at hstep

/-- **Whom a reaper removes.** In every run, a host that `reap_stale` removed
had its last heartbeat before the TTL, and one that `reap_stale_pending`
removed was still pending, exactly where nothing to the contrary was heard of
it since the reaper listed it. -/
theorem dead_iff_unheard {reg : SwarmRegistry} (hkeyed : reg.Keyed) {clock : Int}
    (h : machine.Reaches (fun _ _ => True) (fresh reg clock) s) : ∀ r ∈ s.removals, r.Dead ↔ r.Unheard := by
  have hsound : s.Sound := h.invariant (I := Sound) (sound_fresh hkeyed clock) fun hs _ hstep => hs.step hstep
  exact hsound.removals

/-- Hosts A and B are made ready. -/
def twoHosts : List ReapingLabel :=
  [joinLabel 8 "host-a", .start (.markReady "host-a" .none), .run 0 0, .answer 0, .run 0 0,
    joinLabel 2 "host-b", .start (.markReady "host-b" .none), .run 1 0, .answer 1, .run 1 0].map .label

/-- Both are late; host B beats while host A's layers are reloaded. -/
def beatInTime : List ReapingLabel :=
  twoHosts ++ [.tick 100, .label (.start (.reapStale 60 100)), .label (.run 2 100), .label (.run 2 100), .tick 30,
    .heartbeat "host-b" {}, .label (.answer 2), .label (.run 2 130), .label (.run 2 130)]

/-- Host A's handoff is committed after it was listed as pending. -/
def readyInTime : List ReapingLabel :=
  [.label (joinLabel 8 "host-a"), .tick 100, .label (.start (.markReady "host-a" .none)), .label (.run 0 100),
    .label (.start (.reapStalePending 60 100)), .label (.answer 0), .label (.run 0 100), .label (.run 1 100)]

theorem dead_iff_unheard_demo : ∃ s, machine.run (fresh (demo 12) 0) beatInTime = .some s ∧ s.removals.length = 2 ∧
    ∀ r ∈ s.removals, r.Dead ↔ r.Unheard := by
  have hrun : ((machine.run (fresh (demo 12) 0) beatInTime).any fun s => s.removals.length = 2) = true := by
    decide +kernel
  obtain ⟨s, hrun, hcount⟩ := (Option.any_eq_true _ _).1 hrun
  have hkeyed : (demo 12).Keyed := (wellformed_init (init_demo 12)).keyed
  exact ⟨s, hrun, of_decide_eq_true hcount, dead_iff_unheard hkeyed (.of_run (fun _ _ _ => trivial) hrun)⟩

/-- **The reapers remove hosts that are alive**: one that has just beaten, and
one that has just become online. -/
theorem removes_the_living :
    (∃ s, machine.run (fresh (demo 12) 0) beatInTime = .some s ∧ ¬ ∀ r ∈ s.removals, r.Dead) ∧
      ∃ s, machine.run (fresh (demo 12) 0) readyInTime = .some s ∧ ¬ ∀ r ∈ s.removals, r.Dead := by
  have hruns : ∀ labels ∈ [beatInTime, readyInTime], ((machine.run (fresh (demo 12) 0) labels).any fun s =>
      s.removals.any fun r => ¬ r.Dead) = true := by
    decide +kernel
  have hliving : ∀ labels ∈ [beatInTime, readyInTime],
      ∃ s, machine.run (fresh (demo 12) 0) labels = .some s ∧ ¬ ∀ r ∈ s.removals, r.Dead := by
    intro labels hmem
    obtain ⟨s, hrun, hany⟩ := (Option.any_eq_true _ _).1 (hruns labels hmem)
    obtain ⟨r, hr, hliving⟩ := List.any_eq_true.1 hany
    exact ⟨s, hrun, fun hall => (of_decide_eq_true hliving) (hall r hr)⟩
  exact ⟨hliving _ (by simp), hliving _ (by simp)⟩

end Reaping

end Blitzwing
