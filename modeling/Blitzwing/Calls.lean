/-
The registry's calls, interleaved at the points where they release the lock.

A call is a program counter: the locked piece it is to run next, or the
`/reload` it waits for, with what it carries there; a reaper's call also has
the victims still to come. A label runs one piece of one call, or answers its
`/reload`. Each host's shard manager is known by the range it was last given.
Shard managers also report that range, and a report may arrive at any later
time.

The pieces are those of the registry's methods (`markReadyCheck`, `leaveLocked`,
...), so a call whose labels nobody comes between does what the method does
(`leave_alone`, `markReady_alone`, `reap_alone`).
-/
import Blitzwing.Lib.Machine
import Blitzwing.Lib.Pool
import Blitzwing.Refinement
import Blitzwing.SwarmMap

namespace Blitzwing

open SwarmRegistry

/-- Where a call is. -/
inductive Pc
  /-- `leave`, before it takes the lock. -/
  | leave (hostId : String)
  /-- `_reclaim_range`, before it takes the lock. -/
  | reclaim (range : String)
  /-- The absorber's `/reload` is under way. -/
  | absorb (plan : ReclaimPlan)
  /-- It was answered. -/
  | absorbed (plan : ReclaimPlan)
  /-- `mark_ready`, before it takes the lock. -/
  | ready (hostId : String) (peerMultiaddr : Option String)
  /-- The donor's `/reload` is under way. -/
  | shrink (plan : ShrinkPlan) (peerMultiaddr : Option String)
  /-- It was answered. -/
  | shrunk (plan : ShrinkPlan) (peerMultiaddr : Option String)
  | done
deriving DecidableEq, Repr

structure Call where
  pc : Pc
  /-- The hosts a reaper has still to remove. -/
  victims : List String := []
deriving DecidableEq, Repr

/-- The turn ended, by a return or by a raise: a reaper goes on, `try: ...
except Exception` around each turn; any other call ends. -/
def Call.resume (c : Call) : Call :=
  match c.victims with
  | [] => { pc := .done }
  | victim :: victims => { pc := .leave victim, victims }

/-- One locked piece of a call, at a clock reading; `none` where it waits or is done. -/
def Call.run (c : Call) (now : Int) (reg : SwarmRegistry) : Option (Call × SwarmRegistry) :=
  match c.pc with
  | .leave hostId => .some <| match leaveLocked hostId reg with
    | .ok (.some range) reg' => ({ c with pc := .reclaim range }, reg')
    | .ok .none reg' => (c.resume, reg')
    | .error _ reg' => (c.resume, reg')
  | .reclaim range => .some <| match reclaimLocked reg range with
    | .ok (.some plan) => ({ c with pc := .absorb plan }, reg)
    | .ok .none => (c.resume, reg)
    | .error _ => (c.resume, reg)
  | .absorbed plan => .some (c.resume, after (reclaimCommit plan) reg)
  | .ready hostId peer => .some <| match markReadyCheck hostId peer reg with
    | .ok (.shrink plan) reg' => ({ c with pc := .shrink plan peer }, reg')
    | .ok (.online _) reg' => (c.resume, reg')
    | .error _ reg' => (c.resume, reg')
  | .shrunk plan peer => .some (c.resume, after (markReadyCommit plan peer now) reg)
  | .absorb _ | .shrink _ _ | .done => .none

/-- The `/reload` a call waits for: the host told, the range, and the call
once it is answered. -/
def Call.reload (c : Call) : Option (String × String × Call) :=
  match c.pc with
  | .absorb plan => .some (plan.donorId, plan.newRange, { c with pc := .absorbed plan })
  | .shrink plan peer => .some (plan.donorId, plan.shrinkTo, { c with pc := .shrunk plan peer })
  | _ => .none

/-- A call that starts; a reaper reads its victims. -/
inductive Request
  | leave (hostId : String)
  | markReady (hostId : String) (peerMultiaddr : Option String)
  | reapStale (ttlSeconds now : Int)
  | reapStalePending (ttlSeconds now : Int)
deriving DecidableEq, Repr

def Request.call (reg : SwarmRegistry) : Request → Call
  | .leave hostId => { pc := .leave hostId }
  | .markReady hostId peer => { pc := .ready hostId peer }
  | .reapStale ttl now => Call.resume { pc := .done, victims := reg.staleHosts ttl now }
  | .reapStalePending ttl now => Call.resume { pc := .done, victims := reg.stalePending ttl now }

/-- What a shard manager's heartbeat or `/status` reply says, and of whom. -/
structure Report where
  hostId : String
  blockIndices : String
deriving DecidableEq, Repr

/-- The path a report arrives on, with what else it carries. -/
inductive Delivery
  | heartbeat (contact : HeartbeatReport) (now : Int)
  | status (running : Bool)
deriving DecidableEq, Repr

def Report.adopt (report : Report) : Delivery → SwarmM Unit
  | .heartbeat contact now =>
    applyHeartbeatManifest report.hostId { contact with blockIndices := .some report.blockIndices } now
  | .status running => reconcile report.hostId (.some { blockIndices := .some report.blockIndices, running })

structure Config where
  reg : SwarmRegistry
  /-- The range each host's shard manager was last given. -/
  shards : String → Option String
  calls : List Call := []
  /-- The reports that have not arrived yet. -/
  reports : List Report := []

inductive Label
  | start (request : Request)
  | run (i : Nat) (now : Int)
  /-- The `/reload` of call `i` succeeds. -/
  | answer (i : Nat)
  /-- It raises. -/
  | refuse (i : Nat)
  | join (layers : Int) (publicIp shardManagerUrl hederaAccountId hostId : String) (now : Int)
  /-- A shard manager reports its range. -/
  | report (hostId : String)
  | deliver (n : Nat) (delivery : Delivery)

/-- `join` is one locked piece; a newcomer's shard manager is given its assigned range. -/
def Config.join (cfg : Config) (layers : Int) (publicIp shardManagerUrl hederaAccountId hostId : String) (now : Int) :
    Config :=
  match Blitzwing.join layers publicIp shardManagerUrl hederaAccountId hostId now cfg.reg with
  | .ok reply reg' => { cfg with reg := reg', shards := Function.update cfg.shards hostId (.some reply.blockIndices) }
  | .error _ _ => cfg

def callsMachine : Machine Config Label where
  step cfg
    | .start request => .some { cfg with calls := cfg.calls ++ [request.call cfg.reg] }
    | .run i now => do
      let c ← cfg.calls[i]?
      let (c', reg') ← c.run now cfg.reg
      return { cfg with reg := reg', calls := cfg.calls.set i c' }
    | .answer i => do
      let c ← cfg.calls[i]?
      let (hostId, range, c') ← c.reload
      return { cfg with shards := Function.update cfg.shards hostId (.some range), calls := cfg.calls.set i c' }
    | .refuse i => do
      let c ← cfg.calls[i]?
      let _ ← c.reload
      return { cfg with calls := cfg.calls.set i c.resume }
    | .join layers publicIp url account hostId now =>
      -- `uuid4` draws an id no host ever had.
      if cfg.reg.hosts.contains hostId ∨ (cfg.shards hostId).isSome then .none
      else .some (cfg.join layers publicIp url account hostId now)
    | .report hostId => do
      let range ← cfg.shards hostId
      return { cfg with reports := cfg.reports ++ [⟨hostId, range⟩] }
    | .deliver n delivery => do
      let report ← cfg.reports[n]?
      return { cfg with reg := after (report.adopt delivery) cfg.reg, reports := cfg.reports.eraseIdx n }

/-- No call yet, and every shard manager with the range of its host's record. -/
def Config.fresh (reg : SwarmRegistry) : Config where
  reg
  shards := fun k => (reg.hosts.get? k).map (·.blockIndices)

def joinLabel (layers : Int) (hostId : String) : Label :=
  .join layers "203.0.113.7" "http://203.0.113.7:8003" "0.0.1234" hostId 0

/-- No call is in progress. -/
def Config.AtRest (cfg : Config) : Prop := ∀ c ∈ cfg.calls, c.pc = .done

instance (cfg : Config) : Decidable cfg.AtRest := inferInstanceAs (Decidable (∀ c ∈ cfg.calls, c.pc = .done))

/-! ## What a label does -/

/-- One locked piece, case by case. -/
inductive Call.Runs (c : Call) (now : Int) (reg : SwarmRegistry) : Call → SwarmRegistry → Prop
  | leaveRaises {hostId e} : c.pc = .leave hostId → leaveLocked hostId reg = .error e reg → Runs c now reg c.resume reg
  | leaves {hostId reg'} : c.pc = .leave hostId → leaveLocked hostId reg = .ok .none reg' → Runs c now reg c.resume reg'
  | leavesRange {hostId range reg'} : c.pc = .leave hostId → leaveLocked hostId reg = .ok (.some range) reg' →
      Runs c now reg { c with pc := .reclaim range } reg'
  | decides {range plan} : c.pc = .reclaim range → reclaimLocked reg range = .ok (.some plan) →
      Runs c now reg { c with pc := .absorb plan } reg
  | givesUp {range} : c.pc = .reclaim range → reclaimLocked reg range = .ok .none → Runs c now reg c.resume reg
  | reclaimRaises {range e} : c.pc = .reclaim range → reclaimLocked reg range = .error e → Runs c now reg c.resume reg
  | absorbs {plan} : c.pc = .absorbed plan → Runs c now reg c.resume (after (reclaimCommit plan) reg)
  | readyRaises {hostId peer e} : c.pc = .ready hostId peer → markReadyCheck hostId peer reg = .error e reg →
      Runs c now reg c.resume reg
  | wasOnline {hostId peer host reg'} : c.pc = .ready hostId peer →
      markReadyCheck hostId peer reg = .ok (.online host) reg' → Runs c now reg c.resume reg'
  | checks {hostId peer plan reg'} : c.pc = .ready hostId peer →
      markReadyCheck hostId peer reg = .ok (.shrink plan) reg' → Runs c now reg { c with pc := .shrink plan peer } reg'
  | handsOff {plan peer} : c.pc = .shrunk plan peer →
      Runs c now reg c.resume (after (markReadyCommit plan peer now) reg)

theorem Call.runs_of_run {c c' : Call} {now : Int} {reg reg' : SwarmRegistry} (h : c.run now reg = .some (c', reg')) :
    c.Runs now reg c' reg' := by
  simp only [Call.run] at h
  split at h
  · next hostId hpc =>
    obtain ⟨rfl, rfl⟩ := Prod.mk.inj (Option.some.inj h)
    cases hl : leaveLocked hostId reg with
    | error e reg' =>
      obtain rfl := leaveLocked_error hl
      exact .leaveRaises hpc hl
    | ok o reg' =>
      cases o with
      | none => exact .leaves hpc hl
      | some range => exact .leavesRange hpc hl
  · next range hpc =>
    obtain ⟨rfl, rfl⟩ := Prod.mk.inj (Option.some.inj h)
    cases hl : reclaimLocked reg range with
    | error e => exact .reclaimRaises hpc hl
    | ok o =>
      cases o with
      | none => exact .givesUp hpc hl
      | some plan => exact .decides hpc hl
  · next plan hpc =>
    obtain ⟨rfl, rfl⟩ := Prod.mk.inj (Option.some.inj h)
    exact .absorbs hpc
  · next hostId peer hpc =>
    obtain ⟨rfl, rfl⟩ := Prod.mk.inj (Option.some.inj h)
    cases hc : markReadyCheck hostId peer reg with
    | error e reg' =>
      obtain rfl := markReadyCheck_error hc
      exact .readyRaises hpc hc
    | ok check reg' =>
      cases check with
      | online host => exact .wasOnline hpc hc
      | shrink plan => exact .checks hpc hc
  · next plan peer hpc =>
    obtain ⟨rfl, rfl⟩ := Prod.mk.inj (Option.some.inj h)
    exact .handsOff hpc
  all_goals simp at h

/-- Where a call waits for `/reload`. -/
inductive Call.Waits (c : Call) : String → String → Call → Prop
  | absorb {plan} : c.pc = .absorb plan → Waits c plan.donorId plan.newRange { c with pc := .absorbed plan }
  | shrink {plan peer} : c.pc = .shrink plan peer →
      Waits c plan.donorId plan.shrinkTo { c with pc := .shrunk plan peer }

theorem Call.waits_of_reload {c c' : Call} {hostId range : String} (h : c.reload = .some (hostId, range, c')) :
    c.Waits hostId range c' := by
  simp only [Call.reload] at h
  split at h
  · next plan hpc =>
    obtain ⟨rfl, rfl, rfl⟩ : plan.donorId = hostId ∧ plan.newRange = range ∧ { c with pc := .absorbed plan } = c' := by
      simpa using h
    exact .absorb hpc
  · next plan peer hpc =>
    obtain ⟨rfl, rfl, rfl⟩ : plan.donorId = hostId ∧ plan.shrinkTo = range ∧ { c with pc := .shrunk plan peer } = c' := by
      simpa using h
    exact .shrink hpc
  · simp at h

/-- One label, case by case. -/
inductive Config.Steps (cfg : Config) : Label → Config → Prop
  | start {request} : Steps cfg (.start request) { cfg with calls := cfg.calls ++ [request.call cfg.reg] }
  | run {i now c c' reg'} : cfg.calls[i]? = .some c → c.Runs now cfg.reg c' reg' →
      Steps cfg (.run i now) { cfg with reg := reg', calls := cfg.calls.set i c' }
  | answer {i c c' hostId range} : cfg.calls[i]? = .some c → c.Waits hostId range c' → Steps cfg (.answer i)
      { cfg with shards := Function.update cfg.shards hostId (.some range), calls := cfg.calls.set i c' }
  | refuse {i c c' hostId range} : cfg.calls[i]? = .some c → c.Waits hostId range c' →
      Steps cfg (.refuse i) { cfg with calls := cfg.calls.set i c.resume }
  | join {layers publicIp url account hostId now reply reg'} : cfg.reg.hosts.get? hostId = .none →
      cfg.shards hostId = .none → Blitzwing.join layers publicIp url account hostId now cfg.reg = .ok reply reg' →
      Steps cfg (.join layers publicIp url account hostId now)
        { cfg with reg := reg', shards := Function.update cfg.shards hostId (.some reply.blockIndices) }
  | joinRaises {layers publicIp url account hostId now} : Steps cfg (.join layers publicIp url account hostId now) cfg
  | report {hostId range} : cfg.shards hostId = .some range →
      Steps cfg (.report hostId) { cfg with reports := cfg.reports ++ [⟨hostId, range⟩] }
  | deliver {n delivery report} : cfg.reports[n]? = .some report → Steps cfg (.deliver n delivery)
      { cfg with reg := after (report.adopt delivery) cfg.reg, reports := cfg.reports.eraseIdx n }

theorem steps_of_step {cfg cfg' : Config} {label : Label} (h : callsMachine.step cfg label = .some cfg') :
    cfg.Steps label cfg' := by
  cases label with
  | start request =>
    obtain rfl := Option.some.inj h
    exact .start
  | run i now =>
    obtain ⟨c, hc, h⟩ := Option.bind_eq_some_iff.1 h
    obtain ⟨⟨c', reg'⟩, hrun, h⟩ := Option.bind_eq_some_iff.1 h
    obtain rfl := Option.some.inj h
    exact .run hc (Call.runs_of_run hrun)
  | answer i =>
    obtain ⟨c, hc, h⟩ := Option.bind_eq_some_iff.1 h
    obtain ⟨⟨hostId, range, c'⟩, hw, h⟩ := Option.bind_eq_some_iff.1 h
    obtain rfl := Option.some.inj h
    exact .answer hc (Call.waits_of_reload hw)
  | refuse i =>
    obtain ⟨c, hc, h⟩ := Option.bind_eq_some_iff.1 h
    obtain ⟨⟨hostId, range, c'⟩, hw, h⟩ := Option.bind_eq_some_iff.1 h
    obtain rfl := Option.some.inj h
    exact .refuse hc (Call.waits_of_reload hw)
  | join layers publicIp url account hostId now =>
    simp only [callsMachine] at h
    split at h
    · simp at h
    next hfresh =>
    obtain rfl := Option.some.inj h
    simp only [Dict.contains, not_or, Bool.not_eq_true, Option.isSome_eq_false_iff, Option.isNone_iff_eq_none] at hfresh
    simp only [Config.join]
    cases hj : Blitzwing.join layers publicIp url account hostId now cfg.reg with
    | ok reply reg' => exact .join hfresh.1 hfresh.2 hj
    | error e reg' => exact .joinRaises
  | report hostId =>
    obtain ⟨range, hr, h⟩ := Option.bind_eq_some_iff.1 h
    obtain rfl := Option.some.inj h
    exact .report hr
  | deliver n delivery =>
    obtain ⟨report, hr, h⟩ := Option.bind_eq_some_iff.1 h
    obtain rfl := Option.some.inj h
    exact .deliver hr

/-! ## What every label keeps -/

/-- The ranges a call carries parse. -/
def Pc.Legible : Pc → Prop
  | .reclaim range => ∃ r, spanOf range = .some r
  | .absorb plan | .absorbed plan => ∃ m, spanOf plan.newRange = .some m
  | .shrink plan _ | .shrunk plan _ => (∃ s, spanOf plan.shrinkTo = .some s) ∧ ∃ s, spanOf plan.assigned = .some s
  | .leave _ | .ready _ _ | .done => True

theorem Call.legible_resume (c : Call) : c.resume.pc.Legible := by
  unfold Call.resume
  split <;> trivial

theorem Request.legible_call (request : Request) (reg : SwarmRegistry) : (request.call reg).pc.Legible := by
  cases request with
  | leave hostId => trivial
  | markReady hostId peer => trivial
  | reapStale ttl now => exact Call.legible_resume _
  | reapStalePending ttl now => exact Call.legible_resume _

/-- Either path adopts the report, as far as the layers go. -/
theorem Report.adopt_sameSeats {reg : SwarmRegistry} (hw : reg.Wellformed) (report : Report) (delivery : Delivery) :
    (after (adoptReport report.hostId (.some report.blockIndices)) reg).SameSeats (after (report.adopt delivery) reg) := by
  cases delivery with
  | heartbeat contact now =>
    exact applyHeartbeatManifest_sameSeats hw report.hostId { contact with blockIndices := .some report.blockIndices } now
  | status running => exact reconcile_sameSeats report.hostId ⟨.some report.blockIndices, running⟩ reg

structure Config.Legible (cfg : Config) : Prop where
  wellformed : cfg.reg.Wellformed
  calls : ∀ c ∈ cfg.calls, c.pc.Legible

theorem Call.Runs.legible {c c' : Call} {now : Int} {reg reg' : SwarmRegistry} (hw : reg.Wellformed) (hc : c.pc.Legible)
    (h : c.Runs now reg c' reg') : reg'.Wellformed ∧ c'.pc.Legible := by
  cases h with
  | leaveRaises => exact ⟨hw, c.legible_resume⟩
  | leaves _ hl => exact ⟨hw.of_leaveLocked hl, c.legible_resume⟩
  | leavesRange _ hl => exact ⟨hw.of_leaveLocked hl, hw.spanOf_leaveLocked hl⟩
  | decides hpc hl =>
    rw [hpc] at hc
    obtain ⟨r, hr⟩ := hc
    obtain ⟨o, ho, hsome, -⟩ := reclaimLocked_eq hw.keyed hw.readable hr
    obtain rfl := Except.ok.inj (ho.symm.trans hl)
    obtain ⟨_, m, -, hnew, -⟩ := hsome _ rfl
    exact ⟨hw, m, by simp [hnew]⟩
  | givesUp => exact ⟨hw, c.legible_resume⟩
  | reclaimRaises => exact ⟨hw, c.legible_resume⟩
  | @absorbs plan hpc =>
    refine ⟨?_, c.legible_resume⟩
    rw [hpc] at hc
    obtain ⟨m, hm⟩ := hc
    rcases reclaimCommit_eq hm reg with ⟨-, he⟩ | ⟨_, -, he⟩
    · rwa [after_of_error he]
    · rw [after_of_ok he]
      exact hw.of_reclaimCommit hm he
  | readyRaises => exact ⟨hw, c.legible_resume⟩
  | wasOnline _ hl => exact ⟨hw.sameSeats (markReadyCheck_sameSeats hl), c.legible_resume⟩
  | checks _ hl =>
    obtain ⟨p, -, -, hcar, -⟩ := hw.markReadyCheck_carries hl
    exact ⟨hw.sameSeats (markReadyCheck_sameSeats hl), ⟨_, hcar.spanOf_keep⟩, _, hcar.spanOf_give⟩
  | @handsOff plan peer hpc =>
    refine ⟨?_, c.legible_resume⟩
    rw [hpc] at hc
    obtain ⟨⟨keep, hk⟩, give, hg⟩ := hc
    cases he : markReadyCommit plan peer now reg with
    | error e reg' =>
      obtain ⟨rfl, -⟩ := markReadyCommit_error hk hg he
      rwa [after_of_error he]
    | ok ret reg' =>
      rw [after_of_ok he]
      exact hw.of_markReadyCommit hk hg he

theorem Config.Legible.step {cfg cfg' : Config} {label : Label} (hl : cfg.Legible) (h : cfg.Steps label cfg') :
    cfg'.Legible := by
  cases h with
  | @start request =>
    refine ⟨hl.wellformed, fun c hc => ?_⟩
    rcases List.mem_append.1 hc with hc | hc
    · exact hl.calls c hc
    · obtain rfl := List.mem_singleton.1 hc
      exact request.legible_call cfg.reg
  | run hc hr =>
    obtain ⟨hw, hc'⟩ := hr.legible hl.wellformed (hl.calls _ (List.mem_of_getElem? hc))
    exact ⟨hw, forall_mem_set hl.calls hc'⟩
  | answer hc hw =>
    refine ⟨hl.wellformed, forall_mem_set hl.calls ?_⟩
    have hpc := hl.calls _ (List.mem_of_getElem? hc)
    cases hw with
    | absorb he =>
      rw [he] at hpc
      exact hpc
    | shrink he =>
      rw [he] at hpc
      exact hpc
  | @refuse _ c => exact ⟨hl.wellformed, forall_mem_set hl.calls c.legible_resume⟩
  | join hfresh _ hj => exact ⟨hl.wellformed.of_join hfresh hj, hl.calls⟩
  | joinRaises => exact hl
  | report => exact ⟨hl.wellformed, hl.calls⟩
  | @deliver _ delivery report =>
    exact ⟨(hl.wellformed.after_adoptReport _ _).sameSeats (report.adopt_sameSeats hl.wellformed delivery), hl.calls⟩

/-- In whatever order the pieces of the calls come. -/
theorem Config.Legible.of_reaches {ok : Config → Label → Prop} {cfg cfg' : Config} (hl : cfg.Legible)
    (h : callsMachine.Reaches ok cfg cfg') : cfg'.Legible :=
  h.invariant hl fun hl _ hs => hl.step (steps_of_step hs)

/-! ## A call alone -/

/-- The label is one of call `i`'s own. -/
def Label.Of (i : Nat) : Label → Prop
  | .run j _ | .answer j | .refuse j => j = i
  | _ => False

/-- Labels of call `i` take `cfg` to a configuration with this registry and
this call, and whatever the shard managers were given on the way. -/
def Config.Alone (cfg : Config) (i : Nat) (reg : SwarmRegistry) (c : Call) : Prop :=
  ∃ shards, callsMachine.Reaches (fun _ l => l.Of i) cfg { cfg with reg, shards, calls := cfg.calls.set i c }

section Alone

variable {cfg : Config} {i : Nat} {c c' : Call}

theorem Config.Alone.trans {reg reg' : SwarmRegistry} (h : cfg.Alone i reg c)
    (h' : ∀ shards, Config.Alone { cfg with reg, shards, calls := cfg.calls.set i c } i reg' c') :
    cfg.Alone i reg' c' := by
  obtain ⟨shards, hr⟩ := h
  obtain ⟨shards', hr'⟩ := h' shards
  simp only [List.set_set] at hr'
  exact ⟨shards', hr.trans hr'⟩

theorem Config.Alone.run (now : Int) {reg' : SwarmRegistry} (hc : cfg.calls[i]? = .some c)
    (h : c.run now cfg.reg = .some (c', reg')) : cfg.Alone i reg' c' :=
  ⟨cfg.shards, .step (a := .run i now) .refl rfl (by simp [callsMachine, hc, h])⟩

/-- The answer of `/reload`, as `post` gives it. -/
theorem Config.Alone.reload {hostId range : String} (hc : cfg.calls[i]? = .some c)
    (h : c.reload = .some (hostId, range, c')) :
    cfg.Alone i cfg.reg c' ∧ cfg.Alone i cfg.reg c.resume :=
  ⟨⟨_, .step (a := .answer i) .refl rfl (by simp [callsMachine, hc, h]; rfl)⟩,
    cfg.shards, .step (a := .refuse i) .refl rfl (by simp [callsMachine, hc, h])⟩

theorem reclaim_alone (post : Reload) {range : String} (hc : cfg.calls[i]? = .some c) (hpc : c.pc = .reclaim range) :
    cfg.Alone i (after (reclaimRange post range) cfg.reg) c.resume := by
  have hset : ∀ c' : Call, (cfg.calls.set i c')[i]? = .some c' := fun c' =>
    List.getElem?_set_self (List.getElem?_eq_some_iff.1 hc).1
  simp only [after, reclaimRange_eq]
  cases hl : reclaimLocked cfg.reg range with
  | error e => exact .run 0 hc (by simp [Call.run, hpc, hl])
  | ok o =>
    cases o with
    | none => exact .run 0 hc (by simp [Call.run, hpc, hl])
    | some plan =>
      have hdecide : cfg.Alone i cfg.reg { c with pc := .absorb plan } :=
        .run 0 hc (by simp [Call.run, hpc, hl])
      simp only
      cases reloadShardManager post plan.donorUrl plan.newRange with
      | error e => exact hdecide.trans fun shards => (Config.Alone.reload (c := { c with pc := .absorb plan }) (hset _) rfl).2
      | ok _ =>
        refine (hdecide.trans fun shards =>
          (Config.Alone.reload (c := { c with pc := .absorb plan }) (hset _) rfl).1).trans fun shards => ?_
        exact .run 0 (hset _) rfl

/-- **A departure nobody comes between is `leave`.** -/
theorem leave_alone (post : Reload) {hostId : String} (hc : cfg.calls[i]? = .some c) (hpc : c.pc = .leave hostId) :
    cfg.Alone i (after (leave post hostId) cfg.reg) c.resume := by
  have hset : ∀ c' : Call, (cfg.calls.set i c')[i]? = .some c' := fun c' =>
    List.getElem?_set_self (List.getElem?_eq_some_iff.1 hc).1
  cases hl : leaveLocked hostId cfg.reg with
  | error e reg' =>
    rw [show after (leave post hostId) cfg.reg = reg' by simp [after, leave_eq, hl]]
    exact .run 0 hc (by simp [Call.run, hpc, hl])
  | ok o reg' =>
    cases o with
    | none =>
      rw [show after (leave post hostId) cfg.reg = reg' by simp [after, leave_eq, hl]]
      exact .run 0 hc (by simp [Call.run, hpc, hl])
    | some range =>
      rw [show after (leave post hostId) cfg.reg = after (reclaimRange post range) reg' by simp [after, leave_eq, hl]]
      have hdelete : cfg.Alone i reg' { c with pc := .reclaim range } :=
        .run 0 hc (by simp [Call.run, hpc, hl])
      exact hdelete.trans fun shards => reclaim_alone (c := { c with pc := .reclaim range }) post (hset _) rfl

theorem markReady_alone (post : Reload) {hostId : String} {peer : Option String} (now : Int)
    (hc : cfg.calls[i]? = .some c) (hpc : c.pc = .ready hostId peer) :
    cfg.Alone i (after (markReady post hostId peer now) cfg.reg) c.resume := by
  have hset : ∀ c' : Call, (cfg.calls.set i c')[i]? = .some c' := fun c' =>
    List.getElem?_set_self (List.getElem?_eq_some_iff.1 hc).1
  simp only [after, markReady_eq]
  cases hl : markReadyCheck hostId peer cfg.reg with
  | error e reg' => exact .run now hc (by simp [Call.run, hpc, hl])
  | ok check reg' =>
    cases check with
    | online host => exact .run now hc (by simp [Call.run, hpc, hl])
    | shrink plan =>
      have hcheck : cfg.Alone i reg' { c with pc := .shrink plan peer } :=
        .run now hc (by simp [Call.run, hpc, hl])
      simp only
      cases reloadShardManager post plan.donorUrl plan.shrinkTo with
      | error e => exact hcheck.trans fun shards => (Config.Alone.reload (c := { c with pc := .shrink plan peer }) (hset _) rfl).2
      | ok _ =>
        refine (hcheck.trans fun shards =>
          (Config.Alone.reload (c := { c with pc := .shrink plan peer }) (hset _) rfl).1).trans fun shards => ?_
        exact .run now (hset _) rfl

/-- A reaper nobody comes between is its loop. -/
theorem reap_alone (post : String → Reload) (victims : List String)
    (hc : cfg.calls[i]? = .some (Call.resume { pc := .done, victims })) :
    cfg.Alone i (after (reapLoop post victims) cfg.reg) { pc := .done } := by
  induction victims generalizing cfg with
  | nil =>
    obtain ⟨hi, he⟩ := List.getElem?_eq_some_iff.1 hc
    refine ⟨cfg.shards, ?_⟩
    have hsame : cfg.calls.set i { pc := .done } = cfg.calls :=
      (congrArg (cfg.calls.set i) he).symm.trans (List.set_getElem_self hi)
    rw [hsame]
    exact .refl
  | cons victim victims ih =>
    rw [reapLoop_cons]
    refine (leave_alone (post victim) hc rfl).trans fun shards => ih ?_
    exact List.getElem?_set_self (List.getElem?_eq_some_iff.1 hc).1

end Alone

end Blitzwing
