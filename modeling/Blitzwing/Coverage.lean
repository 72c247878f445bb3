/-
Coverage: do the online hosts tile the layers?

`join` writes the shrink plan down and `mark_ready` applies it as written. In
between, a departure may have grown the donor, and then the layers it grew by
are lost: `stale_plan_loses_layers` is such a run. A run whose `mark_ready`
calls all find the donor holding what the plan divides keeps the tiling
(`tiled_of_reaches`), whatever else happens in it.
-/
import Blitzwing.Lifecycle

namespace Blitzwing

open SwarmRegistry

/-- The online hosts' ranges are ranges of `[0, n)`, and every layer of it is
in exactly one. -/
structure SwarmRegistry.Tiled (reg : SwarmRegistry) (n : Int) : Prop where
  ranges : ∀ k h, reg.hosts.get? k = .some h → h.status = .online →
    ∃ s, spanOf h.blockIndices = .some s ∧ s.InLayers n
  tiles : reg.held.Tiles n

/-- Every `/reload` of the call is answered. -/
def Event.Answered : Event → Prop
  | .markReady post _ _ _ | .leave post _ => ∀ url range, post url range = .ok ()
  | .reapStale post _ _ | .reapStalePending post _ _ => ∀ victim url range, post victim url range = .ok ()
  | _ => True

/-- The donor of this pending host, if it is still there, holds exactly what
the plan divides. -/
def SwarmRegistry.PlanCurrent (reg : SwarmRegistry) (hostId : String) : Prop :=
  ∀ p ∈ reg.ledger.plan, p.host = hostId → ∀ s ∈ reg.held p.donor, s = ⟨p.keep.lo, p.give.hi⟩

instance (reg : SwarmRegistry) (hostId : String) : Decidable (reg.PlanCurrent hostId) :=
  inferInstanceAs (Decidable (∀ p ∈ reg.ledger.plan, p.host = hostId → ∀ s ∈ reg.held p.donor, _ = _))

/-- No online host's range has the layer. -/
def SwarmRegistry.unheld (reg : SwarmRegistry) (layer : Int) : Bool :=
  reg.hosts.values.all fun h => !(h.span.any (layer ∈ ·))

theorem SwarmRegistry.not_holds_of_unheld {reg : SwarmRegistry} {layer : Int} (h : reg.unheld layer = true)
    (k : String) : ¬ reg.held.Holds k layer := by
  rintro ⟨s, hs, hmem⟩
  obtain ⟨r, hk, ho, hsp⟩ := held_eq_some.1 hs
  have hr := List.all_eq_true.1 h r (Dict.mem_values.2 ⟨k, hk⟩)
  simp only [HostRecord.span, ho, if_true, hsp, Option.any_some, decide_eq_true hmem] at hr
  simp at hr

namespace SwarmRegistry

variable {reg reg' : SwarmRegistry}

theorem Consistent.tiled (hc : reg.Consistent) (hf : reg.held.Full reg.totalLayers) : reg.Tiled reg.totalLayers where
  ranges := by
    intro k h hk ho
    obtain ⟨s, hs, hheld⟩ := hc.wellformed.held_online hk ho
    exact ⟨s, hs, (hc.sound.span k s hheld).1.le, (hc.sound.span k s hheld).2⟩
  tiles := Allocation.tiles_iff.2 ⟨hc.sound.exclusive, hc.sound.within, hf⟩

/-! ## A departure is absorbed -/

/-- **A reclaim fills the hole it was asked to fill**: somebody touches it, so
somebody can absorb it. -/
theorem Consistent.full_reclaimRange (hc : reg.Consistent) {range : String} {r : Span}
    (hrange : spanOf range = .some r) (hr : reg.Unheld r) (hf : Ledger.FullBut reg.held reg.totalLayers r)
    {post : Reload} (hpost : ∀ url range, post url range = .ok ()) :
    (after (reclaimRange post range) reg).held.Full reg.totalLayers := by
  have hs := hc.sound
  obtain ⟨o, ho, hsome, hnone⟩ := reclaimLocked_eq hc.wellformed.keyed hc.wellformed.readable hrange
  cases o with
  | none =>
    -- The mother holds layer 0, so the hole lies above it and has a left neighbour.
    obtain ⟨s, hm, h₀⟩ := hs.origin
    have hms : s.lo < s.hi := (hs.span _ _ hm).1
    have hap := hr.free _ _ hm
    have hpos := hr.pos
    have hlo : 0 < r.lo := by
      have := hr.within
      simp only [Span.Apart] at hap
      omega
    have hout : ∀ i, ∀ x ∈ r, ¬ reg.held.Holds i x := by
      intro i x hx hi
      obtain ⟨t, ht, hxt⟩ := hi
      exact (hr.free i t ht).not_mem hx hxt
    obtain ⟨i, t, ht, -, htouch⟩ := Allocation.exists_touching hlo hr.pos hr.within.2 hf hout
    exact absurd htouch (hnone rfl i t ht).1
  | some plan =>
    obtain ⟨d, m, hd, hnew, hmerge⟩ := hsome plan rfl
    have hms : spanOf plan.newRange = .some m := by simp [hnew]
    obtain ⟨donor, hk, hon, -⟩ := held_eq_some.1 hd
    obtain ⟨rfl, -⟩ := hmerge.hull (hs.span _ _ hd).1 hr.pos
      (fun j s hj => ⟨(hs.span j s hj).1, hr.free j s hj⟩) fun j hj s hjs => hs.apart hd hjs (Ne.symm hj)
    have hcommit : after (reclaimRange post range) reg =
        reg.updateHost plan.donorId fun h => h.resized plan.newRange (d.hull r).length := by
      rcases reclaimCommit_eq hms reg with ⟨hno, -⟩ | ⟨_, -, he⟩
      · simp [hk] at hno
      · simp only [after, reclaimRange_eq, ho, reloadShardManager, hpost, he]
    have hheld : (reg.updateHost plan.donorId fun h => h.resized plan.newRange (d.hull r).length).held =
        reg.held.assign plan.donorId (d.hull r) :=
      congrArg Ledger.held (hc.wellformed.ledger_resized hk hon hms)
    rw [hcommit, hheld]
    refine hf.absorb hd (fun x hx => ?_) fun x hx => ?_
    · exact (Span.hull_covers_left d r).mem hx
    · exact (Span.hull_covers_right d r).mem hx

/-- A host that is deleted leaves at most the range its call reclaims. -/
theorem full_leaveLocked {n : Int} (hf : reg.held.Full n) {hostId : String}
    {o : Option String} (h : leaveLocked hostId reg = .ok o reg') :
    (o = .none → reg'.held.Full n) ∧
      ∀ range r, o = .some range → spanOf range = .some r → Ledger.FullBut reg'.held n r := by
  obtain ⟨host, range, hk, hrole, hrange, rfl, rfl⟩ := leaveLocked_ok h
  rw [held_erase]
  cases hheld : reg.held hostId with
  | none =>
    have hsame : reg.held.release hostId = reg.held := by
      rw [Allocation.release, ← hheld]
      exact Function.update_eq_self _ _
    rw [hsame]
    exact ⟨fun _ => hf, fun _ _ _ _ x h₀ hn _ => hf x h₀ hn⟩
  | some s =>
    obtain ⟨host', hk', hon, hs⟩ := held_eq_some.1 hheld
    obtain rfl : host = host' := Option.some.inj (hk.symm.trans hk')
    rw [rangeToReclaim_online hk hrole hon] at hrange
    obtain rfl : .some host.blockIndices = range := Except.ok.inj hrange
    rw [truthy_of_ne (ne_empty_of_spanOf hs)]
    refine ⟨by simp, fun range r he hr => ?_⟩
    obtain rfl := Option.some.inj he
    rw [hs] at hr
    obtain rfl := Option.some.inj hr
    exact Ledger.fullBut_release hf hheld

theorem Consistent.full_leave (hc : reg.Consistent) (hf : reg.held.Full reg.totalLayers) {post : Reload}
    (hpost : ∀ url range, post url range = .ok ()) (hostId : String) :
    (after (leave post hostId) reg).held.Full reg.totalLayers := by
  refine leave_keeps (P := fun r => r.held.Full reg.totalLayers) post hf (fun reg' hl => (full_leaveLocked hf hl).1 rfl)
    fun range reg' hl => ?_
  obtain ⟨hc', hm, hun⟩ := hc.of_leaveLocked hl
  obtain ⟨r, hr, hunr⟩ := hun range rfl
  have hbut := (full_leaveLocked hf hl).2 range r rfl hr
  rw [← hm.1] at hbut ⊢
  exact hc'.full_reclaimRange hr hunr hbut hpost

/-! ## A current plan hands off -/

theorem Consistent.full_markReady (hc : reg.Consistent) (hf : reg.held.Full reg.totalLayers) (post : Reload)
    {hostId : String} (hcur : reg.PlanCurrent hostId) (peer : Option String) (now : Int) :
    (after (markReady post hostId peer now) reg).held.Full reg.totalLayers := by
  refine hc.wellformed.markReady_keeps (P := fun r => r.held.Full reg.totalLayers) post hf
    (fun check reg' h => (markReadyCheck_sameSeats h).held_eq ▸ hf) fun plan ret reg' reg'' hcheck hcm => ?_
  have hsame := markReadyCheck_sameSeats hcheck
  obtain ⟨p, hp, hph, hcar, donor, hd, hon⟩ := hc.wellformed.markReadyCheck_carries hcheck
  rw [(held_markReadyCommit hcar.spanOf_keep hcar.spanOf_give hd hon hcm).2, ← hcar.donor, ← hcar.host]
  rw [hc.wellformed.ledger_sameSeats hsame] at hp
  have hps := hc.sound.plan p hp
  obtain ⟨s, -, hs⟩ := (hc.wellformed.sameSeats hsame).held_online hd hon
  rw [← hcar.donor, hsame.held_eq] at hs
  obtain ⟨_, -, -, hpl⟩ := hc.wellformed.plan_some hp
  rw [hsame.held_eq]
  exact Ledger.full_handoff hf hpl.distinct hps.newcomer hps.adjacent (hcur p hp hph s hs ▸ hs)

theorem Consistent.full_apply (hc : reg.Consistent) (hf : reg.held.Full reg.totalLayers) {e : Event}
    (hd : e.drawn reg = true) (he : e.Silent) (ha : e.Answered) (hp : ∀ hostId ∈ e.readies, reg.PlanCurrent hostId) :
    (e.apply reg).held.Full reg.totalLayers := by
  have hreap : ∀ (post : String → Reload) (victims : List String), (∀ victim url range, post victim url range = .ok ()) →
      (after (reapLoop post victims) reg).held.Full reg.totalLayers := fun post victims hpost =>
    (reapLoop_keeps (P := fun r => r.Consistent ∧ r.totalLayers = reg.totalLayers ∧ r.held.Full reg.totalLayers)
      (fun victim r ⟨hc, hn, hf⟩ => by
        obtain ⟨hc', hm⟩ := hc.after_leave (post victim) victim
        exact ⟨hc', hm.1.trans hn, hn ▸ hc.full_leave (hn ▸ hf) (hpost victim) victim⟩) victims ⟨hc, rfl, hf⟩).2.2
  cases e with
  | join layers publicIp url account hostId now =>
    simp only [Event.apply]
    cases hj : Blitzwing.join layers publicIp url account hostId now reg with
    | ok reply reg' =>
      rw [after_of_ok hj, held_join (get?_of_drawn hd) hj]
      exact hf
    | error e reg' => rwa [after_of_error hj, join_error hj]
  | markReady post hostId peer now => exact hc.full_markReady hf post (hp hostId rfl) peer now
  | leave post hostId => exact hc.full_leave hf ha hostId
  | reapStale post ttl now => exact hreap post _ ha
  | reapStalePending post ttl now => exact hreap post _ ha
  | heartbeat hostId report now =>
    have hs := applyHeartbeatManifest_sameSeats hc.wellformed hostId report now
    rw [he, adoptReport_none] at hs
    exact hs.held_eq ▸ hf
  | refresh probe => exact absurd he id

end SwarmRegistry

/-- **Coverage survives every run that applies current plans only**: with all
reloads answered, the online hosts tile the layers after every call. -/
theorem tiled_of_reaches {model url : String} {totalLayers now : Int} {wallet : Option String}
    {reg₀ reg : SwarmRegistry} (h₀ : SwarmRegistry.init model totalLayers url wallet now = .ok reg₀)
    (hn : 1 ≤ totalLayers)
    (h : registryMachine.Reaches (fun reg e => e.Silent ∧ e.Answered ∧ ∀ hostId ∈ e.readies, reg.PlanCurrent hostId)
      reg₀ reg) : reg.Tiled totalLayers := by
  obtain ⟨hc₀, hf₀, htotal⟩ := consistent_init h₀ hn
  have hI : reg.Consistent ∧ reg.totalLayers = totalLayers ∧ reg.held.Full totalLayers := by
    refine h.invariant (I := fun r => r.Consistent ∧ r.totalLayers = totalLayers ∧ r.held.Full totalLayers)
      ⟨hc₀, htotal, hf₀⟩ fun {r e r'} hI ⟨he, ha, hp⟩ hs => ?_
    obtain ⟨hc, rfl, hf⟩ := hI
    obtain ⟨hd, rfl⟩ := step_eq_some hs
    obtain ⟨hc', hm⟩ := hc.apply hd he
    exact ⟨hc', hm.1, hc.full_apply hf hd he ha hp⟩
  obtain ⟨hc, rfl, hf⟩ := hI
  exact hc.tiled hf

/-- Two hosts join, are made ready, and leave again. -/
def currentEvents : List Event :=
  [joinEvent 4 "host-a" 0, .markReady answering "host-a" .none 1, joinEvent 2 "host-b" 2,
    .markReady answering "host-b" .none 3, .leave answering "host-a", .reapStale (fun _ => answering) 60 100]

theorem tiled_of_reaches_current : ∃ reg, registryMachine.runIf
    (fun reg e => decide (∀ hostId ∈ e.readies, reg.PlanCurrent hostId)) (demo 12) currentEvents = .some reg ∧
      reg.Tiled 12 := by
  obtain ⟨reg, hrun⟩ := Option.isSome_iff_exists.1 (by decide : (registryMachine.runIf
    (fun reg e => decide (∀ hostId ∈ e.readies, reg.PlanCurrent hostId)) (demo 12) currentEvents).isSome = true)
  refine ⟨reg, hrun, tiled_of_reaches (init_demo 12) (by decide) (.of_runIf ?_ hrun)⟩
  intro e he reg hcheck
  refine ⟨?_, ?_, by simpa using hcheck⟩ <;>
    · simp only [currentEvents, List.mem_cons, List.not_mem_nil, or_false] at he
      rcases he with rfl | rfl | rfl | rfl | rfl | rfl <;> simp [joinEvent, Event.Silent, Event.Answered, answering]

/-- Host B reserves from a mother of two layers; host A leaves and the mother
is given A's layer; B's `mark_ready` then shrinks her to the one of B's plan. -/
def stalePlanEvents : List Event :=
  [joinEvent 1 "host-a" 0, .markReady answering "host-a" .none 1, joinEvent 1 "host-b" 2,
    .leave answering "host-a", .markReady answering "host-b" .none 3]

/-- **A stale plan loses layers**: after the last call nobody holds layer 2. -/
theorem stale_plan_loses_layers : (∀ e ∈ stalePlanEvents, e.Silent ∧ e.Answered) ∧
    ∃ reg, registryMachine.run (demo 3) stalePlanEvents = .some reg ∧ (∀ k, ¬ reg.held.Holds k 2) ∧ ¬ reg.Tiled 3 := by
  refine ⟨by simp [stalePlanEvents, joinEvent, Event.Silent, Event.Answered, answering], ?_⟩
  have hun : ((registryMachine.run (demo 3) stalePlanEvents).any fun reg => reg.unheld 2) = true := by decide
  obtain ⟨reg, hrun, hno⟩ := (Option.any_eq_true _ _).1 hun
  have hnone := not_holds_of_unheld hno
  refine ⟨reg, hrun, hnone, fun ht => ?_⟩
  obtain ⟨k, hk, -⟩ := ht.tiles.2 2 (by decide) (by decide)
  exact hnone k hk

end Blitzwing
