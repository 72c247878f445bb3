/-
What every registry record keeps, however the calls are ordered and whatever
hosts report, and the ledger a registry stands for.

`Wellformed` needs no assumption about ranges: a resized record parses and is
counted by its length, the mother is there and online, one host at most is
pending, and a pending host carries a plan. Each locked piece keeps it, in any
state (`Wellformed.*`). `ledger` forgets the rest of the records: the held
spans and the pending plan.
-/
import Blitzwing.Ledger
import Blitzwing.RegistryFacts

namespace Blitzwing

open SwarmRegistry

/-- A pending record's fields spell the plan `p`. -/
structure HostRecord.Plans (h : HostRecord) (p : Plan String) : Prop where
  host : p.host = h.hostId
  donor : h.donorHostId = .some p.donor
  keep : h.donorShrinkTo = .some (formatRange p.keep.lo p.keep.hi)
  give : h.pendingRange = .some (formatRange p.give.lo p.give.hi)
  distinct : p.donor ≠ p.host
  keep_pos : p.keep.lo < p.keep.hi
  adjacent : p.keep.hi = p.give.lo
  give_pos : p.give.lo < p.give.hi

/-- What holds of the record stored under `k`. -/
structure HostRecord.Fit (h : HostRecord) (k : String) : Prop where
  keyed : h.hostId = k
  role : h.role = .mother ↔ k = "mother"
  live : h.status ≠ .offline
  mother : k = "mother" → h.status = .online
  sized : ∃ s, spanOf h.blockIndices = .some s ∧ h.layersHosted = s.length
  planned : h.status = .pending → ∃ p, h.Plans p

structure SwarmRegistry.Wellformed (reg : SwarmRegistry) : Prop where
  each : ∀ k h, reg.hosts.get? k = .some h → h.Fit k
  mother : ∃ h, reg.hosts.get? "mother" = .some h
  onePending : ∀ j k g h, reg.hosts.get? j = .some g → reg.hosts.get? k = .some h →
    g.status = .pending → h.status = .pending → j = k

namespace SwarmRegistry

variable {reg reg' : SwarmRegistry}

theorem Wellformed.keyed (hw : reg.Wellformed) : reg.Keyed := fun k h hk => (hw.each k h hk).keyed

theorem Wellformed.readable (hw : reg.Wellformed) : reg.Readable := by
  intro k h hk _
  obtain ⟨s, hs, -⟩ := (hw.each k h hk).sized
  exact ⟨s, hs⟩

/-- A host that is not pending is online. -/
theorem Wellformed.online (hw : reg.Wellformed) {k : String} {h : HostRecord} (hk : reg.hosts.get? k = .some h)
    (hp : h.status ≠ .pending) : h.status = .online := by
  have := (hw.each k h hk).live
  cases hs : h.status <;> simp_all

theorem Wellformed.held_online (hw : reg.Wellformed) {k : String} {h : HostRecord}
    (hk : reg.hosts.get? k = .some h) (ho : h.status = .online) :
    ∃ s, spanOf h.blockIndices = .some s ∧ reg.held k = .some s := by
  obtain ⟨s, hs⟩ := hw.readable k h hk ho
  exact ⟨s, hs, held_eq_some.2 ⟨h, hk, ho, hs⟩⟩

theorem held_pending {k : String} {h : HostRecord} (hk : reg.hosts.get? k = .some h) (hp : h.status ≠ .online) :
    reg.held k = .none := by
  simp [held_of_get? hk, HostRecord.span, hp]

end SwarmRegistry

/-! ## Kept by every piece -/

theorem HostRecord.Fit.resized {h : HostRecord} {k : String} (hf : h.Fit k) {range : String} {s : Span}
    (hs : spanOf range = .some s) : (h.resized range s.length).Fit k where
  keyed := hf.keyed
  role := hf.role
  live := hf.live
  mother := hf.mother
  sized := ⟨s, hs, rfl⟩
  planned := fun hp => (hf.planned hp).imp fun _ hpl => { hpl with }

theorem HostRecord.Fit.readied {h : HostRecord} {k : String} (hf : h.Fit k) {range : String} {s : Span}
    (hs : spanOf range = .some s) (now : Int) : (h.readied range s.length now).Fit k where
  keyed := hf.keyed
  role := hf.role
  live := by simp [HostRecord.readied]
  mother := fun _ => rfl
  sized := ⟨s, hs, rfl⟩
  planned := by simp [HostRecord.readied]

/-- The fields `Fit` reads are the same. -/
structure HostRecord.SameSeat (h h' : HostRecord) : Prop where
  hostId : h'.hostId = h.hostId
  role : h'.role = h.role
  status : h'.status = h.status
  blockIndices : h'.blockIndices = h.blockIndices
  layersHosted : h'.layersHosted = h.layersHosted
  pendingRange : h'.pendingRange = h.pendingRange
  donorHostId : h'.donorHostId = h.donorHostId
  donorShrinkTo : h'.donorShrinkTo = h.donorShrinkTo

namespace HostRecord.SameSeat

variable {h h' : HostRecord}

theorem refl (h : HostRecord) : h.SameSeat h := ⟨rfl, rfl, rfl, rfl, rfl, rfl, rfl, rfl⟩

theorem symm (hs : h.SameSeat h') : h'.SameSeat h :=
  ⟨hs.1.symm, hs.2.symm, hs.3.symm, hs.4.symm, hs.5.symm, hs.6.symm, hs.7.symm, hs.8.symm⟩

theorem trans {h'' : HostRecord} (hs : h.SameSeat h') (hs' : h'.SameSeat h'') : h.SameSeat h'' :=
  ⟨hs'.1.trans hs.1, hs'.2.trans hs.2, hs'.3.trans hs.3, hs'.4.trans hs.4, hs'.5.trans hs.5, hs'.6.trans hs.6,
    hs'.7.trans hs.7, hs'.8.trans hs.8⟩

end HostRecord.SameSeat

theorem HostRecord.Plans.sameSeat {h h' : HostRecord} {p : Plan String} (hp : h.Plans p) (hs : h.SameSeat h') :
    h'.Plans p :=
  { hp with
    host := hs.hostId ▸ hp.host
    donor := hs.donorHostId ▸ hp.donor
    keep := hs.donorShrinkTo ▸ hp.keep
    give := hs.pendingRange ▸ hp.give }

theorem HostRecord.Fit.sameSeat {h h' : HostRecord} {k : String} (hf : h.Fit k) (hs : h.SameSeat h') : h'.Fit k where
  keyed := hs.hostId ▸ hf.keyed
  role := hs.role ▸ hf.role
  live := hs.status ▸ hf.live
  mother := hs.status ▸ hf.mother
  sized := hs.blockIndices ▸ hs.layersHosted ▸ hf.sized
  planned := fun hp => (hf.planned (hs.status ▸ hp)).imp fun _ hpl => hpl.sameSeat hs

namespace SwarmRegistry

variable {reg reg' : SwarmRegistry}

/-- A piece that registers nobody, keeps the mother, and leaves fit records. -/
theorem Wellformed.of_records (hw : reg.Wellformed) (hm : ∃ h, reg'.hosts.get? "mother" = .some h)
    (hold : ∀ k h', reg'.hosts.get? k = .some h' → ∃ h, reg.hosts.get? k = .some h ∧
      (h.Fit k → h'.Fit k) ∧ (h'.status = .pending → h.status = .pending)) : reg'.Wellformed where
  each := by
    intro k h' hk
    obtain ⟨h, hget, hfit, -⟩ := hold k h' hk
    exact hfit (hw.each k h hget)
  mother := hm
  onePending := by
    intro j k g' h' hj hk hg' hh'
    obtain ⟨g, hg, -, hgp⟩ := hold j g' hj
    obtain ⟨h, hh, -, hhp⟩ := hold k h' hk
    exact hw.onePending j k g h hg hh (hgp hg') (hhp hh')

theorem Wellformed.updateHost (hw : reg.Wellformed) {hostId : String} {f : HostRecord → HostRecord}
    (hf : ∀ h, reg.hosts.get? hostId = .some h → h.Fit hostId → (f h).Fit hostId)
    (hp : ∀ h, reg.hosts.get? hostId = .some h → (f h).status = .pending → h.status = .pending) :
    (reg.updateHost hostId f).Wellformed := by
  refine hw.of_records ?_ fun k h' hk => ?_
  · obtain ⟨h, hm⟩ := hw.mother
    rw [get?_updateHost, hm]
    split <;> exact ⟨_, rfl⟩
  · rw [get?_updateHost] at hk
    split at hk
    · next he =>
      subst he
      obtain ⟨h, hget, rfl⟩ := Option.map_eq_some_iff.1 hk
      exact ⟨h, hget, hf h hget, hp h hget⟩
    · exact ⟨h', hk, id, id⟩

/-- Only fields `Fit` does not read differ. -/
structure SameSeats (reg reg' : SwarmRegistry) : Prop where
  layers : reg'.totalLayers = reg.totalLayers
  seated : ∀ k h, reg.hosts.get? k = .some h → ∃ h', reg'.hosts.get? k = .some h' ∧ h.SameSeat h'
  absent : ∀ k, reg.hosts.get? k = .none → reg'.hosts.get? k = .none

theorem SameSeats.refl (reg : SwarmRegistry) : reg.SameSeats reg :=
  ⟨rfl, fun _ h hk => ⟨h, hk, .refl h⟩, fun _ => id⟩

theorem SameSeats.symm (h : reg.SameSeats reg') : reg'.SameSeats reg := by
  refine ⟨h.layers.symm, fun k g' hk => ?_, fun k hk => ?_⟩
  · cases hg : reg.hosts.get? k with
    | none => simp [h.absent k hg] at hk
    | some g =>
      obtain ⟨g'', hg'', hs⟩ := h.seated k g hg
      rw [hk] at hg''
      obtain rfl := Option.some.inj hg''
      exact ⟨g, rfl, hs.symm⟩
  · cases hg : reg.hosts.get? k with
    | none => rfl
    | some g =>
      obtain ⟨g', hg', -⟩ := h.seated k g hg
      simp [hk] at hg'

theorem SameSeats.trans {reg'' : SwarmRegistry} (h₁ : reg.SameSeats reg') (h₂ : reg'.SameSeats reg'') :
    reg.SameSeats reg'' := by
  refine ⟨h₂.layers.trans h₁.layers, fun k h hk => ?_, fun k hk => h₂.absent k (h₁.absent k hk)⟩
  obtain ⟨h', hk', hs⟩ := h₁.seated k h hk
  obtain ⟨h'', hk'', hs'⟩ := h₂.seated k h' hk'
  exact ⟨h'', hk'', hs.trans hs'⟩

theorem SameSeats.updateHost {hostId : String} {f : HostRecord → HostRecord}
    (hf : ∀ h, reg.hosts.get? hostId = .some h → h.SameSeat (f h)) : reg.SameSeats (reg.updateHost hostId f) := by
  refine ⟨rfl, fun k h hk => ?_, fun k hk => ?_⟩
  · rw [get?_updateHost, hk]
    split
    · next he => exact ⟨f h, rfl, hf h (he ▸ hk)⟩
    · exact ⟨h, rfl, .refl h⟩
  · rw [get?_updateHost, hk]
    split <;> rfl

theorem SameSeats.addBootstrapPeer (reg : SwarmRegistry) (peer : Option String) :
    reg.SameSeats (reg.addBootstrapPeer peer) := by
  refine ⟨by simp, fun k h hk => ⟨h, by simpa using hk, .refl h⟩, fun k hk => by simpa using hk⟩

theorem SameSeats.held_eq (h : reg.SameSeats reg') : reg'.held = reg.held := by
  funext k
  cases hk : reg.hosts.get? k with
  | none => rw [held_of_none hk, held_of_none (h.absent k hk)]
  | some g =>
    obtain ⟨g', hg', hs⟩ := h.seated k g hk
    rw [held_of_get? hk, held_of_get? hg', HostRecord.span, HostRecord.span, hs.status, hs.blockIndices]

theorem Wellformed.sameSeats (hw : reg.Wellformed) (h : reg.SameSeats reg') : reg'.Wellformed := by
  refine hw.of_records ?_ fun k g' hk => ?_
  · obtain ⟨m, hm⟩ := hw.mother
    obtain ⟨m', hm', -⟩ := h.seated _ m hm
    exact ⟨m', hm'⟩
  · obtain ⟨g, hg, hs⟩ := h.symm.seated k g' hk
    exact ⟨g, hg, fun hf => hf.sameSeat hs.symm, fun hp => hs.status.trans hp⟩

/-- `mark_ready` notes the peer address before it waits. -/
theorem markReadyCheck_sameSeats {hostId : String} {peer : Option String} {check : ReadyCheck}
    (h : markReadyCheck hostId peer reg = .ok check reg') : reg.SameSeats reg' := by
  obtain ⟨host, -, ⟨-, -, rfl⟩ | ⟨plan, -, -, -, rfl | ⟨p, rfl⟩⟩⟩ := markReadyCheck_ok h
  · exact .refl _
  · exact .refl _
  · exact .updateHost fun h _ => ⟨rfl, rfl, rfl, rfl, rfl, rfl, rfl, rfl⟩

theorem Wellformed.erase (hw : reg.Wellformed) {hostId : String} (hne : hostId ≠ "mother") :
    Wellformed { reg with hosts := reg.hosts.erase hostId } := by
  refine hw.of_records ?_ fun k h' hk => ?_
  · obtain ⟨h, hm⟩ := hw.mother
    exact ⟨h, (Dict.get?_erase_ne (Ne.symm hne)).trans hm⟩
  · simp only [Dict.get?_erase] at hk
    split at hk
    · simp at hk
    · exact ⟨h', hk, id, id⟩

theorem Wellformed.of_leaveLocked (hw : reg.Wellformed) {hostId : String} {o : Option String}
    (h : leaveLocked hostId reg = .ok o reg') : reg'.Wellformed := by
  obtain ⟨host, -, hget, hrole, -, -, rfl⟩ := leaveLocked_ok h
  exact hw.erase fun he => hrole ((hw.each _ _ hget).role.2 he)

/-- The range a departing host leaves behind parses. -/
theorem Wellformed.spanOf_leaveLocked (hw : reg.Wellformed) {hostId range : String}
    (h : leaveLocked hostId reg = .ok (.some range) reg') : ∃ r, spanOf range = .some r := by
  obtain ⟨host, lost, hk, hrole, hrange, ho, -⟩ := leaveLocked_ok h
  obtain rfl := truthy_eq_some ho.symm
  obtain ⟨r, hr, -⟩ := (hw.each _ _ hk).sized
  have hlost : range = host.blockIndices := by
    by_cases hp : host.status = .pending
    · obtain ⟨o, ho, ⟨rfl, -⟩ | ⟨rfl, -⟩⟩ := rangeToReclaim_pending hw.keyed hw.readable hk hrole hp hr
      · simp [ho] at hrange
      · simpa [ho, eq_comm] using hrange
    · rw [rangeToReclaim_online hk hrole (hw.online hk hp)] at hrange
      simpa [eq_comm] using hrange
  exact ⟨r, hlost ▸ hr⟩

theorem Wellformed.of_reclaimCommit (hw : reg.Wellformed) {plan : ReclaimPlan} {m : Span}
    (hm : spanOf plan.newRange = .some m) (h : reclaimCommit plan reg = .ok () reg') : reg'.Wellformed := by
  obtain rfl := reclaimCommit_ok hm h
  exact hw.updateHost (fun h _ hf => hf.resized hm) fun h _ => id

theorem Wellformed.of_markReadyCommit (hw : reg.Wellformed) {plan : ShrinkPlan} {keep give : Span}
    (hk : spanOf plan.shrinkTo = .some keep) (hg : spanOf plan.assigned = .some give) {peer : Option String}
    {now : Int} {ret : HostRecord} (h : markReadyCommit plan peer now reg = .ok ret reg') : reg'.Wellformed := by
  obtain ⟨host, donor, hh, hd, -, hget⟩ := markReadyCommit_ok hk hg h
  refine hw.of_records ?_ fun k h' hk' => ?_
  · obtain ⟨m, hm⟩ := hw.mother
    rw [hget, hm]
    split
    · exact ⟨_, rfl⟩
    · split <;> exact ⟨_, rfl⟩
  rw [hget] at hk'
  split at hk'
  · obtain ⟨h, hgetk, rfl⟩ := Option.map_eq_some_iff.1 hk'
    refine ⟨h, hgetk, fun hf => ?_, by simp [HostRecord.readied]⟩
    split
    · exact (hf.resized hk).readied hg now
    · exact hf.readied hg now
  · split at hk'
    · obtain ⟨h, hgetk, rfl⟩ := Option.map_eq_some_iff.1 hk'
      exact ⟨h, hgetk, fun hf => hf.resized hk, id⟩
    · exact ⟨h', hk', id, id⟩

/-- `join` is where the id `uuid4` draws has to be new. -/
theorem Wellformed.of_join (hw : reg.Wellformed) {layers now : Int}
    {publicIp shardManagerUrl hederaAccountId hostId : String} (hfresh : reg.hosts.get? hostId = .none)
    {reply : JoinReply} (h : join layers publicIp shardManagerUrl hederaAccountId hostId now reg = .ok reply reg') :
    reg'.Wellformed := by
  obtain ⟨record, hrec, rfl⟩ := join_ok h
  obtain ⟨hno, donor, hv, d, hon, hd, hlow, htake, hid, hrole, hst, hblock, hlayers, hpend, hdonor, hshrink⟩ :=
    joinRecord_ok hrec
  simp only [Span.length] at htake
  have hnm : hostId ≠ "mother" := by
    rintro rfl
    obtain ⟨m, hm⟩ := hw.mother
    simp [hfresh] at hm
  have hdne : donor.hostId ≠ hostId := by
    intro he
    simp [← he, hw.keyed.get? hv] at hfresh
  have hno' : ∀ k g, reg.hosts.get? k = .some g → g.status ≠ .pending :=
    fun k g hg => hno g (Dict.mem_values.2 ⟨k, hg⟩)
  refine ⟨fun k h hk => ?_, ?_, fun j k g h hj hk hg hh => ?_⟩
  · simp only [Dict.get?_set] at hk
    split at hk
    · next he =>
      obtain rfl := Option.some.inj hk
      subst he
      refine ⟨hid, by simp [hrole, hnm], by simp [hst], fun he => absurd he hnm, ⟨⟨d.hi - layers, d.hi⟩, ?_, ?_⟩,
        fun _ => ⟨⟨k, donor.hostId, ⟨d.lo, d.hi - layers⟩, ⟨d.hi - layers, d.hi⟩⟩, hid.symm, hdonor, hshrink, hpend,
          hdne, by simp only; omega, rfl, by simp only; omega⟩⟩
      · simp [hblock]
      · simp only [Span.length, hlayers]
        omega
    · exact hw.each k h hk
  · obtain ⟨m, hm⟩ := hw.mother
    exact ⟨m, (Dict.get?_set_ne (Ne.symm hnm)).trans hm⟩
  · simp only [Dict.get?_set] at hj hk
    split at hj
    · next hjid =>
      split at hk
      · next hkid => rw [hjid, hkid]
      · exact absurd hh (hno' k h hk)
    · exact absurd hg (hno' j g hj)

/-- A fresh registry: the mother alone. -/
theorem wellformed_init {model url : String} {totalLayers now : Int} {wallet : Option String}
    (h : SwarmRegistry.init model totalLayers url wallet now = .ok reg) : reg.Wellformed := by
  obtain ⟨-, mother, hid, hrole, hst, hblock, hlayers, -, hget⟩ := init_ok h
  have hall : ∀ k g, reg.hosts.get? k = .some g → k = "mother" ∧ g = mother := by
    intro k g hk
    rw [hget] at hk
    split at hk
    · next he => exact ⟨he, (Option.some.inj hk).symm⟩
    · simp at hk
  refine ⟨fun k g hk => ?_, ⟨mother, by simp [hget]⟩, fun j k g g' hj hk _ _ => ?_⟩
  · obtain ⟨rfl, rfl⟩ := hall k g hk
    refine ⟨hid, by simp [hrole], by simp [hst], fun _ => hst, ⟨⟨0, totalLayers⟩, ?_, ?_⟩, by simp [hst]⟩
    · simp [hblock]
    · simp [Span.length, hlayers]
  · exact (hall j g hj).1.trans (hall k g' hk).1.symm

end SwarmRegistry

/-! ## The ledger of a registry -/

/-- The plan a record's fields spell. -/
def planOf (h : HostRecord) : Option (Plan String) := do
  let donor ← h.donorHostId
  let keep ← h.donorShrinkTo.bind spanOf
  let give ← h.pendingRange.bind spanOf
  return { host := h.hostId, donor, keep, give }

theorem HostRecord.Plans.planOf {h : HostRecord} {p : Plan String} (hp : h.Plans p) : planOf h = .some p := by
  simp [Blitzwing.planOf, hp.donor, hp.keep, hp.give, ← hp.host]

/-- **What a registry stands for**: who holds which span, and the reservation. -/
def SwarmRegistry.ledger (reg : SwarmRegistry) : Ledger String where
  held := reg.held
  plan := (reg.hosts.values.find? (·.status = .pending)).bind planOf

namespace SwarmRegistry

variable {reg reg' : SwarmRegistry}

theorem Wellformed.plan_pending (hw : reg.Wellformed) {k : String} {h : HostRecord}
    (hk : reg.hosts.get? k = .some h) (hp : h.status = .pending) :
    ∃ p, h.Plans p ∧ reg.ledger.plan = .some p ∧ p.host = k := by
  obtain ⟨p, hpl⟩ := (hw.each k h hk).planned hp
  have hid := (hw.each k h hk).keyed
  refine ⟨p, hpl, ?_, hpl.host.trans hid⟩
  cases hf : reg.hosts.values.find? (·.status = .pending) with
  | none =>
    have := List.find?_eq_none.1 hf h (Dict.mem_values.2 ⟨k, hk⟩)
    simp [hp] at this
  | some g =>
    obtain ⟨j, hj⟩ := Dict.mem_values.1 (List.mem_of_find?_eq_some hf)
    have hg := List.find?_some hf
    obtain rfl := hw.onePending j k g h hj hk (by simpa using hg) hp
    rw [hk] at hj
    obtain rfl := Option.some.inj hj
    simp [ledger, hf, hpl.planOf]

theorem ledger_plan_none (hno : ∀ k h, reg.hosts.get? k = .some h → h.status ≠ .pending) :
    reg.ledger.plan = .none := by
  have hf : reg.hosts.values.find? (·.status = .pending) = .none := by
    refine List.find?_eq_none.2 fun h hv => ?_
    obtain ⟨k, hk⟩ := Dict.mem_values.1 hv
    simpa using hno k h hk
  simp [ledger, hf]

theorem Wellformed.plan_some (hw : reg.Wellformed) {p : Plan String} (hp : reg.ledger.plan = .some p) :
    ∃ h, reg.hosts.get? p.host = .some h ∧ h.status = .pending ∧ h.Plans p := by
  by_cases hno : ∀ k h, reg.hosts.get? k = .some h → h.status ≠ .pending
  · simp [ledger_plan_none hno] at hp
  · push Not at hno
    obtain ⟨k, h, hk, hst⟩ := hno
    obtain ⟨q, hpl, hq, rfl⟩ := hw.plan_pending hk hst
    rw [hp] at hq
    obtain rfl := Option.some.inj hq
    exact ⟨h, hk, hst, hpl⟩

end SwarmRegistry

end Blitzwing
