/-
The registry refines the ledger: each piece, in a consistent registry, is a
move of `Ledger.Step` on the ledger it stands for.

`Consistent` is `Wellformed` together with a sound ledger, and with the
reservation of a pending host written in its record. The moves are taken one
piece at a time, so a module about interleaved calls can use them too.
-/
import Blitzwing.Records

namespace Blitzwing

open SwarmRegistry

structure SwarmRegistry.Consistent (reg : SwarmRegistry) : Prop where
  wellformed : reg.Wellformed
  reserved : ∀ k h, reg.hosts.get? k = .some h → h.status = .pending → h.pendingRange = .some h.blockIndices
  sound : reg.ledger.Sound "mother" reg.totalLayers

/-- What `mark_ready` carries across its reload is the plan `p`. -/
structure ShrinkPlan.Carries (plan : ShrinkPlan) (p : Plan String) : Prop where
  host : p.host = plan.hostId
  donor : p.donor = plan.donorId
  keep : plan.shrinkTo = formatRange p.keep.lo p.keep.hi
  give : plan.assigned = formatRange p.give.lo p.give.hi

theorem ShrinkPlan.Carries.spanOf_keep {plan : ShrinkPlan} {p : Plan String} (h : plan.Carries p) :
    spanOf plan.shrinkTo = .some p.keep := by
  simp [h.keep]

theorem ShrinkPlan.Carries.spanOf_give {plan : ShrinkPlan} {p : Plan String} (h : plan.Carries p) :
    spanOf plan.assigned = .some p.give := by
  simp [h.give]

/-- The ledger moves between two registries of the same model. -/
def SwarmRegistry.Moves (reg reg' : SwarmRegistry) : Prop :=
  reg'.totalLayers = reg.totalLayers ∧
    Relation.ReflTransGen (Ledger.Step "mother" reg.totalLayers) reg.ledger reg'.ledger

namespace SwarmRegistry

variable {reg reg' : SwarmRegistry}

theorem Moves.refl (reg : SwarmRegistry) : reg.Moves reg := ⟨rfl, .refl⟩

theorem Moves.trans {reg'' : SwarmRegistry} (h₁ : reg.Moves reg') (h₂ : reg'.Moves reg'') : reg.Moves reg'' :=
  ⟨h₂.1.trans h₁.1, h₁.2.trans (h₁.1 ▸ h₂.2)⟩

theorem Moves.single (hn : reg'.totalLayers = reg.totalLayers)
    (h : Ledger.Step "mother" reg.totalLayers reg.ledger reg'.ledger) : reg.Moves reg' := ⟨hn, .single h⟩

/-- **Soundness is kept along moves.** -/
theorem Moves.sound (h : reg.Moves reg') (hs : reg.ledger.Sound "mother" reg.totalLayers) :
    reg'.ledger.Sound "mother" reg'.totalLayers := by
  rw [h.1]
  exact hs.steps h.2

/-! ## The plan of a changed registry -/

theorem Wellformed.plan_iff (hw : reg.Wellformed) {p : Plan String} : reg.ledger.plan = .some p ↔
    ∃ h, reg.hosts.get? p.host = .some h ∧ h.status = .pending ∧ h.Plans p := by
  refine ⟨hw.plan_some, fun ⟨h, hk, hst, hpl⟩ => ?_⟩
  obtain ⟨q, hq, hplan, hqh⟩ := hw.plan_pending hk hst
  rw [hplan]
  exact hq.planOf.symm.trans hpl.planOf

/-- Registries that hold the same and have the same pending records stand for
the same ledger. -/
theorem Wellformed.ledger_eq (hw : reg.Wellformed) (hw' : reg'.Wellformed) (hheld : reg'.held = reg.held)
    (hplan : ∀ p : Plan String, (∃ h, reg'.hosts.get? p.host = .some h ∧ h.status = .pending ∧ h.Plans p) ↔
      ∃ h, reg.hosts.get? p.host = .some h ∧ h.status = .pending ∧ h.Plans p) : reg'.ledger = reg.ledger := by
  refine Ledger.ext hheld (Option.ext fun p => ?_)
  rw [hw'.plan_iff, hw.plan_iff, hplan]

theorem Wellformed.ledger_sameSeats (hw : reg.Wellformed) (h : reg.SameSeats reg') : reg'.ledger = reg.ledger := by
  refine hw.ledger_eq (hw.sameSeats h) h.held_eq fun p => ⟨?_, ?_⟩
  · rintro ⟨g', hk, hst, hpl⟩
    obtain ⟨g, hg, hs⟩ := h.symm.seated _ g' hk
    exact ⟨g, hg, hs.status.trans hst, hpl.sameSeat hs⟩
  · rintro ⟨g, hk, hst, hpl⟩
    obtain ⟨g', hg', hs⟩ := h.seated _ g hk
    exact ⟨g', hg', hs.status.trans hst, hpl.sameSeat hs⟩

/-! ## The pieces as moves -/

/-- A pending host holds nothing yet. -/
theorem held_join {layers now : Int} {publicIp shardManagerUrl hederaAccountId hostId : String}
    (hfresh : reg.hosts.get? hostId = .none) {reply : JoinReply}
    (h : join layers publicIp shardManagerUrl hederaAccountId hostId now reg = .ok reply reg') :
    reg'.held = reg.held := by
  obtain ⟨record, hrec, rfl⟩ := join_ok h
  obtain ⟨-, donor, -, d, -, -, -, -, -, -, hst, -⟩ := joinRecord_ok hrec
  rw [held_set]
  have hnone : record.span = reg.held hostId := by simp [held_of_none hfresh, HostRecord.span, hst]
  rw [hnone]
  exact Function.update_eq_self _ _

/-- `join` writes one plan down: the top of what its donor holds. -/
theorem Wellformed.ledger_join (hw : reg.Wellformed) {layers now : Int}
    {publicIp shardManagerUrl hederaAccountId hostId : String} (hfresh : reg.hosts.get? hostId = .none)
    {reply : JoinReply} (h : join layers publicIp shardManagerUrl hederaAccountId hostId now reg = .ok reply reg') :
    reg'.totalLayers = reg.totalLayers ∧ reg.ledger.plan = .none ∧ ∃ p : Plan String,
      reg'.ledger = { reg.ledger with plan := .some p } ∧ p.host = hostId ∧
      reg.held p.donor = .some ⟨p.keep.lo, p.give.hi⟩ ∧ p.keep.lo < p.keep.hi ∧ p.keep.hi = p.give.lo ∧
      p.give.lo < p.give.hi := by
  have hw' := hw.of_join hfresh h
  have hheld := held_join hfresh h
  obtain ⟨record, hrec, rfl⟩ := join_ok h
  obtain ⟨hno, donor, hv, d, hon, hd, hlow, htake, hid, -, hst, -, -, hpend, hdonor, hshrink⟩ := joinRecord_ok hrec
  simp only [Span.length] at htake
  let p : Plan String := ⟨hostId, donor.hostId, ⟨d.lo, d.hi - layers⟩, ⟨d.hi - layers, d.hi⟩⟩
  have hdne : donor.hostId ≠ hostId := by
    intro he
    simp [← he, hw.keyed.get? hv] at hfresh
  have hpl : record.Plans p := ⟨hid.symm, hdonor, hshrink, hpend, hdne, by simp only [p]; omega, rfl, by simp only [p]; omega⟩
  refine ⟨rfl, ledger_plan_none fun k g hk => hno g (Dict.mem_values.2 ⟨k, hk⟩), p, ?_, rfl, ?_, hpl.keep_pos,
    hpl.adjacent, hpl.give_pos⟩
  · exact Ledger.ext hheld (hw'.plan_iff.2 ⟨record, by simp [p], hst, hpl⟩)
  · exact held_eq_some.2 ⟨donor, hw.keyed.get? hv, hon, hd⟩

/-- `join` reserves. -/
theorem Wellformed.step_join (hw : reg.Wellformed) {layers now : Int}
    {publicIp shardManagerUrl hederaAccountId hostId : String} (hfresh : reg.hosts.get? hostId = .none)
    {reply : JoinReply} (h : join layers publicIp shardManagerUrl hederaAccountId hostId now reg = .ok reply reg') :
    reg.Moves reg' := by
  obtain ⟨hn, hnone, p, hledger, hhost, hd, hkeep, hadj, hgive⟩ := hw.ledger_join hfresh h
  exact .single hn (hledger ▸ .reserve hnone hd hkeep hadj hgive (hhost ▸ held_of_none hfresh))

/-- The spans `mark_ready` leaves, for a donor that is online. -/
theorem held_markReadyCommit {plan : ShrinkPlan} {keep give : Span} (hk : spanOf plan.shrinkTo = .some keep)
    (hg : spanOf plan.assigned = .some give) {donor : HostRecord} (hd : reg.hosts.get? plan.donorId = .some donor)
    (ho : donor.status = .online) {peer : Option String} {now : Int} {ret : HostRecord}
    (h : markReadyCommit plan peer now reg = .ok ret reg') :
    reg'.totalLayers = reg.totalLayers ∧ reg'.held = (reg.held.assign plan.donorId keep).assign plan.hostId give := by
  obtain ⟨host, -, hh, -, hn, hget⟩ := markReadyCommit_ok hk hg h
  refine ⟨hn, funext fun k => ?_⟩
  simp only [held, hget, Allocation.assign, Function.update_apply]
  split
  · next hkh => subst hkh; simp [hh, HostRecord.span, HostRecord.readied, hg]
  · split
    · next hkd => subst hkd; simp [hd, HostRecord.span, HostRecord.resized, ho, hk]
    · rfl

/-- The plan of a pending host, as `mark_ready` reads it. -/
theorem Wellformed.shrinkPlan_carries (hw : reg.Wellformed) {hostId : String} {host : HostRecord} {plan : ShrinkPlan}
    (hk : reg.hosts.get? hostId = .some host) (hst : host.status ≠ .online)
    (h : reg.shrinkPlan hostId host = .ok plan) : ∃ p, reg.ledger.plan = .some p ∧ p.host = hostId ∧
      plan.Carries p ∧ ∃ donor, reg.hosts.get? plan.donorId = .some donor ∧ donor.status = .online := by
  obtain ⟨hid, hdonor, ⟨donor, hd⟩, hshrink, hassigned⟩ := shrinkPlan_ok h
  have hp : host.status = .pending := by
    by_contra hp
    exact hst (hw.online hk hp)
  obtain ⟨p, hpl, hplan, hph⟩ := hw.plan_pending hk hp
  have hpd : p.donor = plan.donorId := Option.some.inj (hpl.donor.symm.trans hdonor)
  refine ⟨p, hplan, hph, ⟨hph.trans hid.symm, hpd, Option.some.inj (hshrink.symm.trans hpl.keep), ?_⟩, donor, hd, ?_⟩
  · rw [hassigned, hpl.give]
    simp
  · refine hw.online hd fun hdp => hpl.distinct ?_
    rw [hpd, hph]
    exact hw.onePending _ _ _ _ hd hk hdp hp

/-- What `mark_ready` has found when it lets go of the lock. -/
theorem Wellformed.markReadyCheck_carries (hw : reg.Wellformed) {hostId : String} {peer : Option String}
    {plan : ShrinkPlan} (h : markReadyCheck hostId peer reg = .ok (.shrink plan) reg') :
    ∃ p, reg'.ledger.plan = .some p ∧ p.host = hostId ∧ plan.Carries p ∧
      ∃ donor, reg'.hosts.get? plan.donorId = .some donor ∧ donor.status = .online := by
  have hledger := hw.ledger_sameSeats (markReadyCheck_sameSeats h)
  obtain ⟨host, hk, ⟨-, hc, -⟩ | ⟨plan', hst, hplan, hc, -⟩⟩ := markReadyCheck_ok h
  · simp at hc
  obtain rfl : plan = plan' := by simpa using hc
  obtain ⟨p, hp, hph, hcar, donor, hd, ho⟩ := hw.shrinkPlan_carries hk hst hplan
  obtain ⟨donor', hd', hs⟩ := (markReadyCheck_sameSeats h).seated _ donor hd
  exact ⟨p, hledger ▸ hp, hph, hcar, donor', hd', hs.status.trans ho⟩

/-- After a commit nobody is pending. -/
theorem Wellformed.plan_markReadyCommit (hw : reg.Wellformed) {plan : ShrinkPlan} {keep give : Span}
    (hk : spanOf plan.shrinkTo = .some keep) (hg : spanOf plan.assigned = .some give) {host : HostRecord}
    (hh : reg.hosts.get? plan.hostId = .some host) (hp : host.status = .pending) {peer : Option String} {now : Int}
    {ret : HostRecord} (h : markReadyCommit plan peer now reg = .ok ret reg') :
    ∀ k h, reg'.hosts.get? k = .some h → h.status ≠ .pending := by
  obtain ⟨-, -, -, -, -, hget⟩ := markReadyCommit_ok hk hg h
  intro k h' hk' hst
  rw [hget] at hk'
  split at hk'
  · obtain ⟨h, -, rfl⟩ := Option.map_eq_some_iff.1 hk'
    simp [HostRecord.readied] at hst
  · next hne =>
    split at hk'
    · obtain ⟨h, hgk, rfl⟩ := Option.map_eq_some_iff.1 hk'
      exact hne (hw.onePending _ _ _ _ hgk hh hst hp)
    · exact hne (hw.onePending _ _ _ _ hk' hh hst hp)

/-- The commit of a checked plan hands off. -/
theorem Wellformed.step_markReadyCommit (hw : reg.Wellformed) {plan : ShrinkPlan} {p : Plan String}
    (hplan : reg.ledger.plan = .some p) (hcar : plan.Carries p) {donor : HostRecord} (hdonor : reg.hosts.get? plan.donorId = .some donor)
    (ho : donor.status = .online) {peer : Option String} {now : Int} {ret : HostRecord}
    (h : markReadyCommit plan peer now reg = .ok ret reg') : reg.Moves reg' := by
  have hks := hcar.spanOf_keep
  have hgs := hcar.spanOf_give
  obtain ⟨hh, hd, -, -⟩ := hcar
  obtain ⟨host, hhost, hpend, -⟩ := hw.plan_some hplan
  obtain ⟨hn, hheld⟩ := held_markReadyCommit hks hgs hdonor ho h
  have hnone := ledger_plan_none (hw.plan_markReadyCommit hks hgs (hh ▸ hhost) hpend h)
  obtain ⟨s, -, hs⟩ := hw.held_online hdonor ho
  refine .single hn ?_
  have : reg'.ledger = { held := (reg.held.assign p.donor p.keep).assign p.host p.give, plan := .none } :=
    Ledger.ext (hd ▸ hh ▸ hheld) hnone
  exact this ▸ .handoff (L := reg.ledger) hplan (hd ▸ hs)

/-- Deleting a host drops what it held, and its plan. -/
theorem Wellformed.moves_erase (hw : reg.Wellformed) {hostId : String} (hne : hostId ≠ "mother") :
    reg.Moves { reg with hosts := reg.hosts.erase hostId } := by
  have hw' := hw.erase hne
  have hheld := held_erase reg hostId
  have hdrop : Ledger.Step "mother" reg.totalLayers reg.ledger { reg.ledger with held := reg.held.release hostId } :=
    .drop hne
  by_cases hp : ∃ p, reg.ledger.plan = .some p ∧ p.host = hostId
  · obtain ⟨p, hplan, rfl⟩ := hp
    obtain ⟨h, hk, hst, -⟩ := hw.plan_some hplan
    have hnone : ledger { reg with hosts := reg.hosts.erase p.host } = { held := reg.held.release p.host, plan := .none } := by
      refine Ledger.ext hheld (ledger_plan_none fun k g hg hgp => ?_)
      simp only [Dict.get?_erase] at hg
      split at hg
      · simp at hg
      · next hkne => exact hkne (hw.onePending _ _ _ _ hg hk hgp hst)
    exact ⟨rfl, hnone ▸ (Relation.ReflTransGen.single hdrop).tail .cancel⟩
  · have hsame : ledger { reg with hosts := reg.hosts.erase hostId } =
        { reg.ledger with held := reg.held.release hostId } := by
      have hpl : (ledger { reg with hosts := reg.hosts.erase hostId }).plan = reg.ledger.plan := by
        ext p
        rw [hw'.plan_iff, hw.plan_iff, Dict.get?_erase]
        split
        · next he =>
          refine ⟨by simp, fun hplan => ?_⟩
          exact absurd ⟨p, hw.plan_iff.2 hplan, he⟩ hp
        · exact Iff.rfl
      exact Ledger.ext hheld hpl
    exact .single rfl (hsame ▸ hdrop)

/-- A deleted host keeps nothing, and the plan that is left is another's. -/
theorem Wellformed.ledger_leaveLocked (hw : reg.Wellformed) {hostId : String} {o : Option String}
    (h : leaveLocked hostId reg = .ok o reg') : reg'.held = reg.held.release hostId ∧
      ∀ p, reg'.ledger.plan = .some p → reg.ledger.plan = .some p ∧ p.host ≠ hostId := by
  have hw' := hw.of_leaveLocked h
  obtain ⟨host, range, hk, hrole, hrange, ho, hreg⟩ := leaveLocked_ok h
  refine ⟨hreg ▸ held_erase reg hostId, fun p hp => ?_⟩
  obtain ⟨g, hg, hst, hpl⟩ := hw'.plan_some hp
  simp only [hreg, Dict.get?_erase] at hg
  split at hg
  · simp at hg
  · next hne => exact ⟨hw.plan_iff.2 ⟨g, hg, hst, hpl⟩, hne⟩

/-- A merge with a span nobody holds is the hull, and nobody else holds any of it. -/
theorem MergesTo.hull {donorId : String} {d r m : Span} (hm : reg.MergesTo donorId d r m) (hd : d.lo < d.hi)
    (hr : r.lo < r.hi) (hfree : ∀ j s, reg.held j = .some s → s.lo < s.hi ∧ r.Apart s)
    (hapart : ∀ j ≠ donorId, ∀ s, reg.held j = .some s → d.Apart s) :
    m = d.hull r ∧ ∀ j ≠ donorId, ∀ s, reg.held j = .some s → m.Apart s := by
  rcases hm with ⟨hadj, rfl⟩ | ⟨hadj, rfl⟩ | ⟨rfl, hno⟩
  · refine ⟨by simp only [Span.hull, Span.mk.injEq]; omega, fun j hj s hs => ?_⟩
    have h₁ := hapart j hj s hs
    have h₂ := hfree j s hs
    simp only [Span.Apart] at *
    omega
  · refine ⟨by simp only [Span.hull, Span.mk.injEq]; omega, fun j hj s hs => ?_⟩
    have h₁ := hapart j hj s hs
    have h₂ := hfree j s hs
    simp only [Span.Apart] at *
    omega
  · exact ⟨rfl, hno⟩

theorem Wellformed.ledger_resized (hw : reg.Wellformed) {hostId : String} {host : HostRecord}
    (hk : reg.hosts.get? hostId = .some host) (ho : host.status = .online) {range : String} {m : Span}
    (hm : spanOf range = .some m) :
    (reg.updateHost hostId fun h => h.resized range m.length).ledger =
      { reg.ledger with held := reg.held.assign hostId m } := by
  have hw' : (reg.updateHost hostId fun h => h.resized range m.length).Wellformed :=
    hw.updateHost (fun h _ hf => hf.resized hm) fun h _ => id
  have hheld : (reg.updateHost hostId fun h => h.resized range m.length).held = reg.held.assign hostId m := by
    rw [held_updateHost, hk]
    simp [Allocation.assign, HostRecord.span, HostRecord.resized, ho, hm]
  have hpl : (reg.updateHost hostId fun h => h.resized range m.length).ledger.plan = reg.ledger.plan := by
    ext p
    rw [hw'.plan_iff, hw.plan_iff, get?_updateHost]
    split
    · next he =>
      subst he
      simp [hk, HostRecord.resized, ho]
    · exact Iff.rfl
  exact Ledger.ext hheld hpl

/-- What `_reclaim_range` may be asked to give away: a range nobody holds, and
that the pending plan is not cut by. -/
structure Unheld (reg : SwarmRegistry) (r : Span) : Prop where
  pos : r.lo < r.hi
  within : 0 ≤ r.lo ∧ r.hi ≤ reg.totalLayers
  free : ∀ j s, reg.held j = .some s → r.Apart s
  whole : ∀ p, reg.ledger.plan = .some p → r.Whole p.give

/-- The commit of a decided reclaim absorbs. -/
theorem Consistent.step_reclaimCommit (hc : reg.Consistent) {r : Span} (hr : reg.Unheld r) {plan : ReclaimPlan}
    (hp : plan.Absorbs reg r) (h : reclaimCommit plan reg = .ok () reg') : reg.Moves reg' := by
  obtain ⟨d, m, hd, hnew, hmerge⟩ := hp
  have hms : spanOf plan.newRange = .some m := by simp [hnew]
  have hs := hc.sound
  obtain ⟨rfl, hapart⟩ := hmerge.hull (hs.span _ _ hd).1 hr.pos
    (fun j s hj => ⟨(hs.span j s hj).1, hr.free j s hj⟩) fun j hj s hjs => hs.apart hd hjs (Ne.symm hj)
  obtain ⟨donor, hk, ho, -⟩ := held_eq_some.1 hd
  obtain rfl := reclaimCommit_ok hms h
  refine .single rfl ?_
  rw [hc.wellformed.ledger_resized hk ho hms]
  exact .absorb (L := reg.ledger) hd hr.pos hr.within.1 hr.within.2 hr.whole hapart

/-! ## Consistency is kept -/

theorem Consistent.of_moves (hc : reg.Consistent) (hm : reg.Moves reg') (hw : reg'.Wellformed)
    (hres : ∀ k h, reg'.hosts.get? k = .some h → h.status = .pending → h.pendingRange = .some h.blockIndices) :
    reg'.Consistent := ⟨hw, hres, hm.sound hc.sound⟩

theorem Consistent.of_join (hc : reg.Consistent) {layers now : Int}
    {publicIp shardManagerUrl hederaAccountId hostId : String} (hfresh : reg.hosts.get? hostId = .none)
    {reply : JoinReply} (h : join layers publicIp shardManagerUrl hederaAccountId hostId now reg = .ok reply reg') :
    reg'.Consistent := by
  refine hc.of_moves (hc.wellformed.step_join hfresh h) (hc.wellformed.of_join hfresh h) fun k g hk hst => ?_
  obtain ⟨record, hrec, rfl⟩ := join_ok h
  obtain ⟨-, donor, -, d, -, -, -, -, -, -, -, hblock, -, hpend, -, -⟩ := joinRecord_ok hrec
  simp only [Dict.get?_set] at hk
  split at hk
  · obtain rfl := Option.some.inj hk
    rw [hpend, hblock]
  · exact hc.reserved k g hk hst

theorem Consistent.sameSeats (hc : reg.Consistent) (h : reg.SameSeats reg') : reg'.Consistent ∧ reg.Moves reg' := by
  have hm : reg.Moves reg' := ⟨h.layers, by rw [hc.wellformed.ledger_sameSeats h]⟩
  refine ⟨hc.of_moves hm (hc.wellformed.sameSeats h) fun k g' hk hst => ?_, hm⟩
  obtain ⟨g, hg, hs⟩ := h.symm.seated k g' hk
  have hres := hc.reserved k g hg (hs.status.trans hst)
  rwa [hs.pendingRange, hs.blockIndices] at hres

theorem Consistent.of_leaveLocked (hc : reg.Consistent) {hostId : String} {o : Option String}
    (h : leaveLocked hostId reg = .ok o reg') :
    reg'.Consistent ∧ reg.Moves reg' ∧ ∀ range, o = .some range → ∃ r, spanOf range = .some r ∧ reg'.Unheld r := by
  have hw := hc.wellformed
  have hw' := hw.of_leaveLocked h
  obtain ⟨host, range, hk, hrole, hrange, ho, hreg⟩ := leaveLocked_ok h
  have hm : reg.Moves reg' := hreg ▸ hw.moves_erase fun he => hrole ((hw.each _ _ hk).role.2 he)
  have hold : ∀ k g, reg'.hosts.get? k = .some g → k ≠ hostId ∧ reg.hosts.get? k = .some g := by
    intro k g hk'
    simp only [hreg, Dict.get?_erase] at hk'
    split at hk'
    · simp at hk'
    · next hne => exact ⟨hne, hk'⟩
  obtain ⟨hrel, hplan⟩ := hw.ledger_leaveLocked h
  have hheld : ∀ j s, reg'.held j = .some s → j ≠ hostId ∧ reg.held j = .some s := fun j s hj =>
    Allocation.release_eq_some.1 (hrel ▸ hj)
  have hn : reg'.totalLayers = reg.totalLayers := hm.1
  refine ⟨hc.of_moves hm hw' fun k g hk' hst => hc.reserved k g (hold k g hk').2 hst, hm, ?_⟩
  rintro lost rfl
  have hsome := truthy_eq_some ho.symm
  subst hsome
  have hs := hc.sound
  by_cases hon : host.status = .online
  · obtain rfl : host.blockIndices = lost := by
      simpa [rangeToReclaim_online hk hrole hon] using hrange
    obtain ⟨r, hr, hheldr⟩ := hw.held_online hk hon
    refine ⟨r, hr, (hs.span _ _ hheldr).1, hn ▸ (hs.span _ _ hheldr).2, fun j s hj => ?_, fun p hp => ?_⟩
    · exact hs.apart hheldr (hheld j s hj).2 (Ne.symm (hheld j s hj).1)
    · exact (hs.plan p (hplan p hp).1).whole hostId r hheldr
  -- A pending host leaves the `give` of its plan, and no host holds part of it.
  · have hp : host.status = .pending := by
      by_contra hst
      exact hon (hw.online hk hst)
    obtain ⟨p, hpl, hpp, hph⟩ := hw.plan_pending hk hp
    have hblock : host.blockIndices = formatRange p.give.lo p.give.hi :=
      Option.some.inj ((hc.reserved _ _ hk hp).symm.trans hpl.give)
    have hgive : spanOf host.blockIndices = .some p.give := by simp [hblock]
    obtain ⟨o, hro, hcase⟩ := rangeToReclaim_pending hw.keyed hw.readable hk hrole hp hgive
    obtain rfl : o = .some lost := by simpa [hro] using hrange
    rcases hcase with ⟨hno, -⟩ | ⟨hlost, hcov⟩
    · simp at hno
    obtain rfl := Option.some.inj hlost
    have hps := hs.plan p hpp
    refine ⟨p.give, hgive, hps.give, ?_, fun j s hj => ?_, fun q hq => ?_⟩
    · have := hps.within
      have := hps.keep
      have := hps.adjacent
      omega
    · obtain ⟨-, hj⟩ := hheld j s hj
      rcases hps.whole j s hj with hcv | hdis
      · exact absurd hcv (hcov j s hj)
      · exact Span.apart_of_disjoint hps.give (hs.span j s hj).1 hdis
    · obtain ⟨hq, hne⟩ := hplan q hq
      rw [hpp] at hq
      obtain rfl := Option.some.inj hq
      exact absurd hph hne

theorem Consistent.of_reclaimCommit (hc : reg.Consistent) {r : Span} (hr : reg.Unheld r) {plan : ReclaimPlan}
    (hp : plan.Absorbs reg r) (h : reclaimCommit plan reg = .ok () reg') : reg'.Consistent ∧ reg.Moves reg' := by
  have hm := hc.step_reclaimCommit hr hp h
  obtain ⟨d, m, hd, hnew, -⟩ := hp
  have hms : spanOf plan.newRange = .some m := by simp [hnew]
  refine ⟨hc.of_moves hm (hc.wellformed.of_reclaimCommit hms h) fun k g hk hst => ?_, hm⟩
  obtain ⟨donor, hdonor, hon, -⟩ := held_eq_some.1 hd
  obtain rfl := reclaimCommit_ok hms h
  rw [get?_updateHost] at hk
  split at hk
  · next hkd =>
    subst hkd
    rw [hdonor] at hk
    obtain rfl : _ = g := Option.some.inj hk
    simp [HostRecord.resized, hon] at hst
  · exact hc.reserved k g hk hst

theorem Consistent.of_markReadyCommit (hc : reg.Consistent) {plan : ShrinkPlan} {p : Plan String}
    (hplan : reg.ledger.plan = .some p) (hcar : plan.Carries p) {donor : HostRecord}
    (hdonor : reg.hosts.get? plan.donorId = .some donor) (ho : donor.status = .online) {peer : Option String}
    {now : Int} {ret : HostRecord} (h : markReadyCommit plan peer now reg = .ok ret reg') :
    reg'.Consistent ∧ reg.Moves reg' := by
  have hm := hc.wellformed.step_markReadyCommit hplan hcar hdonor ho h
  have hks := hcar.spanOf_keep
  have hgs := hcar.spanOf_give
  obtain ⟨host, hhost, hpend, -⟩ := hc.wellformed.plan_some hplan
  have hno := hc.wellformed.plan_markReadyCommit hks hgs (hcar.host ▸ hhost) hpend h
  exact ⟨hc.of_moves hm (hc.wellformed.of_markReadyCommit hks hgs h) fun k g hk hst => absurd hst (hno k g hk), hm⟩

/-! ## Whole calls -/

/-- What a registry has, and has after the checks and after the commit of
`mark_ready`, it has whatever becomes of the call. -/
theorem Wellformed.markReady_keeps {P : SwarmRegistry → Prop} (hw : reg.Wellformed) (post : Reload) {hostId : String}
    {peer : Option String} {now : Int} (h : P reg)
    (hcheck : ∀ check reg', markReadyCheck hostId peer reg = .ok check reg' → P reg')
    (hcommit : ∀ plan ret reg' reg'', markReadyCheck hostId peer reg = .ok (.shrink plan) reg' →
      markReadyCommit plan peer now reg' = .ok ret reg'' → P reg'') : P (after (markReady post hostId peer now) reg) := by
  simp only [after, markReady_eq]
  cases hc : markReadyCheck hostId peer reg with
  | error e reg' =>
    obtain rfl := markReadyCheck_error hc
    exact h
  | ok check reg' =>
    have h' := hcheck check reg' hc
    cases check with
    | online host => exact h'
    | shrink plan =>
      simp only
      cases reloadShardManager post plan.donorUrl plan.shrinkTo with
      | error e => exact h'
      | ok _ =>
        obtain ⟨p, -, -, hcar, -⟩ := hw.markReadyCheck_carries hc
        simp only
        cases hcm : markReadyCommit plan peer now reg' with
        | ok ret reg'' => exact hcommit plan ret reg' reg'' hc hcm
        | error e reg'' =>
          obtain ⟨rfl, -⟩ := markReadyCommit_error hcar.spanOf_keep hcar.spanOf_give hcm
          exact h'

theorem Consistent.after_reclaimRange (hc : reg.Consistent) {range : String} {r : Span}
    (hrange : spanOf range = .some r) (hr : reg.Unheld r) (post : Reload) :
    (after (reclaimRange post range) reg).Consistent ∧ reg.Moves (after (reclaimRange post range) reg) := by
  obtain ⟨o, ho, hsome, -⟩ := reclaimLocked_eq hc.wellformed.keyed hc.wellformed.readable hrange
  refine reclaimRange_keeps (P := fun r => r.Consistent ∧ reg.Moves r) post ⟨hc, .refl reg⟩ fun plan reg' hl hcm => ?_
  rw [ho] at hl
  exact hc.of_reclaimCommit hr (hsome plan (Except.ok.inj hl)) hcm

theorem Consistent.after_leave (hc : reg.Consistent) (post : Reload) (hostId : String) :
    (after (leave post hostId) reg).Consistent ∧ reg.Moves (after (leave post hostId) reg) := by
  refine leave_keeps (P := fun r => r.Consistent ∧ reg.Moves r) post ⟨hc, .refl reg⟩ (fun reg' hl => ?_)
    fun range reg' hl => ?_
  · obtain ⟨hc', hm, -⟩ := hc.of_leaveLocked hl
    exact ⟨hc', hm⟩
  · obtain ⟨hc', hm, hun⟩ := hc.of_leaveLocked hl
    obtain ⟨r, hr, hunr⟩ := hun range rfl
    obtain ⟨hc'', hm'⟩ := hc'.after_reclaimRange hr hunr post
    exact ⟨hc'', hm.trans hm'⟩

theorem Consistent.after_markReady (hc : reg.Consistent) (post : Reload) (hostId : String) (peer : Option String)
    (now : Int) : (after (markReady post hostId peer now) reg).Consistent ∧
      reg.Moves (after (markReady post hostId peer now) reg) := by
  refine hc.wellformed.markReady_keeps (P := fun r => r.Consistent ∧ reg.Moves r) post ⟨hc, .refl reg⟩
    (fun check reg' h => hc.sameSeats (markReadyCheck_sameSeats h)) fun plan ret reg' reg'' h hcm => ?_
  obtain ⟨hc', hm⟩ := hc.sameSeats (markReadyCheck_sameSeats h)
  obtain ⟨p, hp, -, hcar, donor, hd, ho⟩ := hc.wellformed.markReadyCheck_carries h
  obtain ⟨hc'', hm'⟩ := hc'.of_markReadyCommit hp hcar hd ho hcm
  exact ⟨hc'', hm.trans hm'⟩

theorem Consistent.after_reapLoop (hc : reg.Consistent) (post : String → Reload) (victims : List String) :
    (after (reapLoop post victims) reg).Consistent ∧ reg.Moves (after (reapLoop post victims) reg) :=
  reapLoop_keeps (P := fun reg' => reg'.Consistent ∧ reg.Moves reg')
    (fun victim _ h => (h.1.after_leave (post victim) victim).imp_right h.2.trans) victims ⟨hc, .refl reg⟩

end SwarmRegistry

end Blitzwing
