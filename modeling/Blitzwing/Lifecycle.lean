/-
The registry as a machine: one call at a time, each to its end.

An event is a call with its arguments, the clock it reads and the answers it
gets; whether it returns or raises, its effect is the registry it leaves. Any
run from a fresh registry, reloads failing as they may, keeps the registry
consistent and is a run of the ledger (`consistent_of_reaches`), so its
records have the structure the callers rely on (`structured_of_reaches`).
-/
import Blitzwing.Lib.Machine
import Blitzwing.Refinement
import Blitzwing.SwarmMap

namespace Blitzwing

open SwarmRegistry

/-- One call, with what it reads from outside. The reapers read the answers
to each victim's `leave`. -/
inductive Event
  | join (layers : Int) (publicIp shardManagerUrl hederaAccountId hostId : String) (now : Int)
  | markReady (post : Reload) (hostId : String) (peerMultiaddr : Option String) (now : Int)
  | leave (post : Reload) (hostId : String)
  | reapStale (post : String → Reload) (ttlSeconds now : Int)
  | reapStalePending (post : String → Reload) (ttlSeconds now : Int)
  | heartbeat (hostId : String) (report : HeartbeatReport) (now : Int)
  | refresh (probe : String → Option StatusReply)

/-- The registry the call leaves. -/
def Event.apply : Event → SwarmRegistry → SwarmRegistry
  | .join layers publicIp url account hostId now => after (Blitzwing.join layers publicIp url account hostId now)
  | .markReady post hostId peer now => after (Blitzwing.markReady post hostId peer now)
  | .leave post hostId => after (Blitzwing.leave post hostId)
  | .reapStale post ttl now => after (Blitzwing.reapStale post ttl now)
  | .reapStalePending post ttl now => after (Blitzwing.reapStalePending post ttl now)
  | .heartbeat hostId report now => after (applyHeartbeatManifest hostId report now)
  | .refresh probe => after (refreshLiveStatus probe)

/-- `uuid4` draws an id that no registered host has. -/
def Event.drawn : Event → SwarmRegistry → Bool
  | .join _ _ _ _ hostId _, reg => !reg.hosts.contains hostId
  | _, _ => true

def registryMachine : Machine SwarmRegistry Event where
  step reg e := if e.drawn reg then .some (e.apply reg) else .none

/-- The event carries no range a shard reports. -/
def Event.Silent : Event → Prop
  | .heartbeat _ report _ => report.blockIndices = .none
  | .refresh _ => False
  | _ => True

/-- The host a `mark_ready` call is for. -/
def Event.readies : Event → Option String
  | .markReady _ hostId _ _ => .some hostId
  | _ => .none

/-- The turns of a reaper: each victim, with the registry its `leave` finds. -/
def reapTurns (post : String → Reload) : List String → SwarmRegistry → List (String × SwarmRegistry)
  | [], _ => []
  | victim :: victims, reg => (victim, reg) :: reapTurns post victims (after (leave (post victim) victim) reg)

/-- The turns of a refresh up to the first reply that raises: each host, with
the range it reports and the registry the report finds. -/
def refreshTurns (probe : String → Option StatusReply) :
    List String → SwarmRegistry → List (String × Option String × SwarmRegistry)
  | [], _ => []
  | hostId :: rest, reg =>
    (hostId, (probe hostId).bind (·.blockIndices), reg) ::
      match reconcile hostId (probe hostId) reg with
      | .ok _ reg' => refreshTurns probe rest reg'
      | .error _ _ => []

/-- The reports an event adopts, each with the registry it finds. -/
def Event.reports : Event → SwarmRegistry → List (String × Option String × SwarmRegistry)
  | .heartbeat hostId report _, reg => [(hostId, report.blockIndices, reg)]
  | .refresh probe, reg => refreshTurns probe ((reg.hosts.values.filter (·.status = .online)).map (·.hostId)) reg
  | _, _ => []

theorem step_eq_some {reg reg' : SwarmRegistry} {e : Event} (h : registryMachine.step reg e = .some reg') :
    e.drawn reg = true ∧ reg' = e.apply reg := by
  simp only [registryMachine] at h
  split at h
  · next hd => exact ⟨hd, (Option.some.inj h).symm⟩
  · simp at h

theorem get?_of_drawn {reg : SwarmRegistry} {layers now : Int} {publicIp url account hostId : String}
    (h : (Event.join layers publicIp url account hostId now).drawn reg = true) : reg.hosts.get? hostId = .none := by
  simpa [Event.drawn, Dict.contains] using h

/-! ## Any event keeps the records well formed -/

namespace SwarmRegistry

variable {reg reg' : SwarmRegistry}

theorem Wellformed.after_reclaimRange (hw : reg.Wellformed) {range : String} {r : Span}
    (hrange : spanOf range = .some r) (post : Reload) : (after (reclaimRange post range) reg).Wellformed := by
  obtain ⟨o, ho, hsome, -⟩ := reclaimLocked_eq hw.keyed hw.readable hrange
  refine reclaimRange_keeps post hw fun plan reg' hl hcm => ?_
  rw [ho] at hl
  obtain ⟨d, m, hd, hnew, -⟩ := hsome plan (Except.ok.inj hl)
  have hm : spanOf plan.newRange = .some m := by simp [hnew]
  exact hw.of_reclaimCommit hm hcm

theorem Wellformed.after_leave (hw : reg.Wellformed) (post : Reload) (hostId : String) :
    (after (leave post hostId) reg).Wellformed := by
  refine leave_keeps post hw (fun reg' hl => hw.of_leaveLocked hl) fun range reg' hl => ?_
  obtain ⟨r, hr⟩ := hw.spanOf_leaveLocked hl
  exact (hw.of_leaveLocked hl).after_reclaimRange hr post

theorem Wellformed.after_markReady (hw : reg.Wellformed) (post : Reload) (hostId : String) (peer : Option String)
    (now : Int) : (after (markReady post hostId peer now) reg).Wellformed := by
  refine hw.markReady_keeps post hw (fun check reg' h => hw.sameSeats (markReadyCheck_sameSeats h))
    fun plan ret reg' reg'' h hcm => ?_
  obtain ⟨p, -, -, hcar, -⟩ := hw.markReadyCheck_carries h
  exact (hw.sameSeats (markReadyCheck_sameSeats h)).of_markReadyCommit hcar.spanOf_keep hcar.spanOf_give hcm

theorem Wellformed.apply (hw : reg.Wellformed) {e : Event} (hd : e.drawn reg = true) : (e.apply reg).Wellformed := by
  cases e with
  | join layers publicIp url account hostId now =>
    simp only [Event.apply]
    cases hj : join layers publicIp url account hostId now reg with
    | ok reply reg' =>
      rw [after_of_ok hj]
      exact hw.of_join (get?_of_drawn hd) hj
    | error e reg' =>
      rw [after_of_error hj, join_error hj]
      exact hw
  | markReady post hostId peer now => exact hw.after_markReady post hostId peer now
  | leave post hostId => exact hw.after_leave post hostId
  | reapStale post ttl now => exact reapLoop_keeps (fun victim _ h => h.after_leave (post victim) victim) _ hw
  | reapStalePending post ttl now => exact reapLoop_keeps (fun victim _ h => h.after_leave (post victim) victim) _ hw
  | heartbeat hostId report now =>
    exact (hw.after_adoptReport hostId report.blockIndices).sameSeats (applyHeartbeatManifest_sameSeats hw hostId report now)
  | refresh probe =>
    exact reconcileAll_keeps (fun hostId report _ h => h.after_adoptReport hostId report) (fun _ _ h hs => h.sameSeats hs)
      probe _ hw

theorem wellformed_of_reaches {ok : SwarmRegistry → Event → Prop} (hw : reg.Wellformed)
    (h : registryMachine.Reaches ok reg reg') : reg'.Wellformed := by
  refine h.invariant hw fun hw _ hs => ?_
  obtain ⟨hd, rfl⟩ := step_eq_some hs
  exact hw.apply hd

end SwarmRegistry

/-! ## Any run is a run of the ledger -/

theorem consistent_init {model url : String} {totalLayers now : Int} {wallet : Option String} {reg : SwarmRegistry}
    (h : SwarmRegistry.init model totalLayers url wallet now = .ok reg) (hn : 1 ≤ totalLayers) :
    reg.Consistent ∧ reg.held.Full totalLayers ∧ reg.totalLayers = totalLayers := by
  have hw := wellformed_init h
  obtain ⟨htotal, mother, -, -, hst, hblock, -, -, hget⟩ := init_ok h
  have hheld : ∀ k s, reg.held k = .some s ↔ k = "mother" ∧ s = ⟨0, totalLayers⟩ := by
    intro k s
    rw [held_eq_some]
    constructor
    · rintro ⟨g, hk, -, hs⟩
      rw [hget] at hk
      split at hk
      · next he =>
        obtain rfl := Option.some.inj hk
        rw [hblock, spanOf_formatRange] at hs
        exact ⟨he, (Option.some.inj hs).symm⟩
      · simp at hk
    · rintro ⟨rfl, rfl⟩
      exact ⟨mother, by simp [hget], hst, by simp [hblock]⟩
  have hno : ∀ k g, reg.hosts.get? k = .some g → g.status = .online := by
    intro k g hk
    rw [hget] at hk
    split at hk
    · obtain rfl := Option.some.inj hk
      exact hst
    · simp at hk
  refine ⟨⟨hw, fun k g hk hp => by simp [hno k g hk] at hp, ?_, ?_, ?_, ?_⟩, ?_, htotal⟩
  · rintro i j x ⟨s, hs, -⟩ ⟨t, ht, -⟩
    exact ((hheld i s).1 hs).1.trans ((hheld j t).1 ht).1.symm
  · rintro k s hs
    obtain ⟨-, rfl⟩ := (hheld k s).1 hs
    simp only
    omega
  · exact ⟨⟨0, totalLayers⟩, (hheld _ _).2 ⟨rfl, rfl⟩, rfl⟩
  · rw [ledger_plan_none fun k g hk => by simp [hno k g hk]]
    simp
  · exact fun x h₀ hn => ⟨"mother", _, (hheld _ _).2 ⟨rfl, rfl⟩, h₀, hn⟩

/-- **One event is a sequence of ledger moves.** -/
theorem SwarmRegistry.Consistent.apply {reg : SwarmRegistry} (hc : reg.Consistent) {e : Event} (hd : e.drawn reg = true)
    (he : e.Silent) : (e.apply reg).Consistent ∧ reg.Moves (e.apply reg) := by
  cases e with
  | join layers publicIp url account hostId now =>
    simp only [Event.apply]
    cases hj : Blitzwing.join layers publicIp url account hostId now reg with
    | ok reply reg' =>
      rw [after_of_ok hj]
      exact ⟨hc.of_join (get?_of_drawn hd) hj, hc.wellformed.step_join (get?_of_drawn hd) hj⟩
    | error e reg' =>
      rw [after_of_error hj, join_error hj]
      exact ⟨hc, .refl reg⟩
  | markReady post hostId peer now => exact hc.after_markReady post hostId peer now
  | leave post hostId => exact hc.after_leave post hostId
  | reapStale post ttl now => exact hc.after_reapLoop post _
  | reapStalePending post ttl now => exact hc.after_reapLoop post _
  | heartbeat hostId report now =>
    have hs := applyHeartbeatManifest_sameSeats hc.wellformed hostId report now
    rw [he, adoptReport_none] at hs
    exact hc.sameSeats hs
  | refresh probe => exact absurd he id

/-- What a registry reached from a fresh one is consistent with, and how it
was reached. -/
theorem consistent_of_reaches {reg₀ reg : SwarmRegistry} (hc : reg₀.Consistent)
    (h : registryMachine.Reaches (fun _ e => e.Silent) reg₀ reg) : reg.Consistent ∧ reg₀.Moves reg := by
  refine h.invariant (I := fun reg => reg.Consistent ∧ reg₀.Moves reg) ⟨hc, .refl reg₀⟩ fun hI he hs => ?_
  obtain ⟨hd, rfl⟩ := step_eq_some hs
  obtain ⟨hc', hm⟩ := hI.1.apply hd he
  exact ⟨hc', hI.2.trans hm⟩

/-! ## The structure of a reached registry -/

/-- The records of a registry, as its callers may rely on them. -/
structure SwarmRegistry.Structured (reg : SwarmRegistry) : Prop where
  disjoint : ∀ j k g h s t, reg.hosts.get? j = .some g → reg.hosts.get? k = .some h → j ≠ k →
    g.status = .online → h.status = .online → spanOf g.blockIndices = .some s →
    spanOf h.blockIndices = .some t → ∀ x, ¬ (x ∈ s ∧ x ∈ t)
  online : ∀ k h, reg.hosts.get? k = .some h → h.status = .online →
    ∃ s, spanOf h.blockIndices = .some s ∧ s.lo < s.hi ∧ 0 ≤ s.lo ∧ s.hi ≤ reg.totalLayers
  sized : ∀ k h, reg.hosts.get? k = .some h →
    ∃ s, spanOf h.blockIndices = .some s ∧ h.layersHosted = s.hi - s.lo
  mother : ∃ h s, reg.hosts.get? "mother" = .some h ∧ h.status = .online ∧
    spanOf h.blockIndices = .some s ∧ 0 ∈ s
  onePending : ∀ j k g h, reg.hosts.get? j = .some g → reg.hosts.get? k = .some h →
    g.status = .pending → h.status = .pending → j = k
  planned : ∀ k h, reg.hosts.get? k = .some h → h.status = .pending →
    ∃ donorId keep give, h.donorHostId = .some donorId ∧ h.donorShrinkTo.bind spanOf = .some keep ∧
      h.pendingRange.bind spanOf = .some give ∧ spanOf h.blockIndices = .some give ∧ keep.lo < keep.hi ∧
      give.lo < give.hi ∧ keep.Apart give ∧
      ∀ donor, reg.hosts.get? donorId = .some donor →
        ∃ s, spanOf donor.blockIndices = .some s ∧ s.Covers keep ∧ s.Covers give

theorem SwarmRegistry.Consistent.structured {reg : SwarmRegistry} (hc : reg.Consistent) : reg.Structured := by
  have hw := hc.wellformed
  have hs := hc.sound
  refine ⟨?_, ?_, fun k h hk => (hw.each k h hk).sized, ?_, hw.onePending, ?_⟩
  · rintro j k g h s t hj hk hne hg hh hgs hht x ⟨hxs, hxt⟩
    exact hne (hs.exclusive j k x ⟨s, held_eq_some.2 ⟨g, hj, hg, hgs⟩, hxs⟩ ⟨t, held_eq_some.2 ⟨h, hk, hh, hht⟩, hxt⟩)
  · intro k h hk ho
    obtain ⟨s, hsp, hheld⟩ := hw.held_online hk ho
    exact ⟨s, hsp, hs.span k s hheld⟩
  · obtain ⟨s, hheld, h₀⟩ := hs.origin
    obtain ⟨h, hk, ho, hsp⟩ := held_eq_some.1 hheld
    have hspan : s.lo < s.hi := (hs.span _ _ hheld).1
    exact ⟨h, s, hk, ho, hsp, by simp only [Span.mem_iff]; omega⟩
  · intro k h hk hp
    obtain ⟨p, hpl, hplan, hph⟩ := hw.plan_pending hk hp
    have hps := hs.plan p hplan
    have hblock : spanOf h.blockIndices = .some p.give := by
      rw [← Option.some.inj (hpl.give.symm.trans (hc.reserved k h hk hp)), spanOf_formatRange]
    refine ⟨p.donor, p.keep, p.give, hpl.donor, by simp [hpl.keep], by simp [hpl.give], hblock, hps.keep, hps.give,
      .inl hps.adjacent.le, fun donor hd => ?_⟩
    have hdo : donor.status = .online := by
      refine hw.online hd fun hdp => hpl.distinct ?_
      rw [hph]
      exact hw.onePending _ _ _ _ hd hk hdp hp
    obtain ⟨s, hsp, hheld⟩ := hw.held_online hd hdo
    have hcov := hps.donor s hheld
    have := hps.keep
    have := hps.adjacent
    have := hps.give
    refine ⟨s, hsp, ?_, ?_⟩ <;> simp only [Span.Covers] at * <;> omega

/-- **The structure of the registry survives every run**, reloads failing as
they may. -/
theorem structured_of_reaches {model url : String} {totalLayers now : Int} {wallet : Option String}
    {reg₀ reg : SwarmRegistry} (h₀ : SwarmRegistry.init model totalLayers url wallet now = .ok reg₀)
    (hn : 1 ≤ totalLayers) (h : registryMachine.Reaches (fun _ e => e.Silent) reg₀ reg) :
    reg.totalLayers = totalLayers ∧ reg.Structured := by
  obtain ⟨hc₀, -, htotal⟩ := consistent_init h₀ hn
  obtain ⟨hc, hm⟩ := consistent_of_reaches hc₀ h
  exact ⟨hm.1.trans htotal, hc.structured⟩

/-! ## Runs to try things on -/

/-- Shard managers that answer every `/reload`. -/
def answering : Reload := fun _ _ => .ok ()

/-- Shard managers that answer none. -/
def refusing : Reload := fun _ _ => .error (.httpError "503 Service Unavailable")

def joinEvent (layers : Int) (hostId : String) (now : Int) : Event :=
  .join layers "203.0.113.7" "http://203.0.113.7:8003" "0.0.1234" hostId now

/-- A fresh registry of `totalLayers` layers, whose mother has no wallet. -/
def demo (totalLayers : Int) : SwarmRegistry where
  model := "m"
  totalLayers
  hosts := Dict.empty.set "mother" {
    hostId := "mother"
    role := .mother
    model := "m"
    blockIndices := formatRange 0 totalLayers
    layersHosted := totalLayers
    publicIp := .none
    shardManagerUrl := PyText.rstrip "http://127.0.0.1:8001" '/'
    status := .online
    joinedAt := 0
    lastHeartbeat := 0 }

theorem init_demo (totalLayers : Int) :
    SwarmRegistry.init "m" totalLayers "http://127.0.0.1:8001" .none 0 = .ok (demo totalLayers) := rfl

theorem wellformed_of_run {totalLayers : Int} {events : List Event} {reg : SwarmRegistry}
    (h : registryMachine.run (demo totalLayers) events = .some reg) : reg.Wellformed :=
  wellformed_of_reaches (wellformed_init (init_demo totalLayers)) (.of_run (fun _ _ _ => trivial) h :
    registryMachine.Reaches (fun _ _ => True) (demo totalLayers) reg)

/-- A mother with an account. -/
def paid : SwarmRegistry := (demo 12).updateHost "mother" fun h => { h with hederaAccountId := .some "0.0.5" }

theorem init_paid : SwarmRegistry.init "m" 12 "http://127.0.0.1:8001" (.some "0.0.5") 0 = .ok paid := rfl

/-- A pending join whose donor's reload fails, and a departure nobody absorbs. -/
def failingEvents : List Event :=
  [joinEvent 4 "host-a" 0, .markReady refusing "host-a" .none 1, .markReady answering "host-a" .none 2,
    joinEvent 2 "host-b" 3, .leave refusing "host-a", .markReady answering "host-b" .none 4]

theorem structured_of_reaches_failing :
    ∃ reg, registryMachine.run (demo 12) failingEvents = .some reg ∧ reg.totalLayers = 12 ∧ reg.Structured := by
  obtain ⟨reg, hrun⟩ := Option.isSome_iff_exists.1
    (by decide : (registryMachine.run (demo 12) failingEvents).isSome = true)
  refine ⟨reg, hrun, structured_of_reaches (init_demo 12) (by decide) (.of_run ?_ hrun)⟩
  simp [failingEvents, joinEvent, Event.Silent]

end Blitzwing
