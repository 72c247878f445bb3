/-
What a departure that goes wrong leaves behind.

`leave` deletes the record first and finds somebody to absorb its range
afterwards, so a departure that then fails cannot be tried again. This module
says who absorbs (`reclaimLocked_eq_absorber`), when exactly a departure can
be retried where it failed (`retryable_iff`), and the same for every host a
reaper handles (`reap_retries_iff`). The results hold in any well-formed
registry, whatever ranges the hosts have reported.
-/
import Blitzwing.Calls
import Blitzwing.Lifecycle

namespace Blitzwing

open SwarmRegistry

namespace SwarmRegistry

variable {reg reg' : SwarmRegistry}

/-! ## Who absorbs -/

/-- The range of `h` grown by `r`, where `_can_merge_ranges` allows it. -/
def merged (reg : SwarmRegistry) (r : Span) (h : HostRecord) : Option (HostRecord × String) :=
  ((reg.canMergeRanges h r.lo r.hi).toOption.join).map (h, ·)

/-- The mother if she can absorb the range, else the largest host if it can,
else an adjacent host. -/
def absorber (reg : SwarmRegistry) (r : Span) : Option (HostRecord × String) :=
  let adjacent := (reg.findAdjacentDonor r.lo r.hi).toOption.join
  (reg.motherLocked.bind (reg.merged r)).or
    ((reg.largestDonorLocked.bind (reg.merged r)).or (adjacent.bind (reg.merged r)))

/-- One turn of the loop. -/
theorem chooseAbsorber_cons (hk : reg.Keyed) (hr : reg.Readable) (r : Span) {h : HostRecord}
    (hv : h ∈ reg.hosts.values) (ho : h.status = .online) (rest : List HostRecord)
    (chosen : Option (HostRecord × String)) :
    reg.chooseAbsorber r.lo r.hi (h :: rest) chosen = match reg.merged r h with
      | .some c => if h.role = .mother then .ok (.some c) else reg.chooseAbsorber r.lo r.hi rest (.some c)
      | .none => reg.chooseAbsorber r.lo r.hi rest chosen := by
  obtain ⟨d, hd⟩ := hr.span hv ho
  obtain ⟨new, hm, -, -⟩ := canMergeRanges_eq hk hr hd r
  simp only [chooseAbsorber, merged, hm, ok_bind]
  cases new <;> rfl

/-- The loop over candidates none of which is the mother keeps the last that can merge. -/
theorem chooseAbsorber_rest (hk : reg.Keyed) (hr : reg.Readable) (r : Span) {cs : List HostRecord}
    (hcs : ∀ h ∈ cs, h ∈ reg.hosts.values ∧ h.status = .online ∧ h.role ≠ .mother)
    (chosen : Option (HostRecord × String)) :
    reg.chooseAbsorber r.lo r.hi cs chosen = .ok (cs.foldl (fun c h => (reg.merged r h).or c) chosen) := by
  induction cs generalizing chosen with
  | nil => rfl
  | cons h rest ih =>
    simp only [List.mem_cons, forall_eq_or_imp] at hcs
    rw [chooseAbsorber_cons hk hr r hcs.1.1 hcs.1.2.1, List.foldl_cons]
    cases reg.merged r h with
    | none => exact ih hcs.2 chosen
    | some c => simpa only [if_neg hcs.1.2.2, Option.some_or] using ih hcs.2 (.some c)

/-- The candidates behind the first, in the order they are tried. -/
def furtherCandidates (m : HostRecord) (adjacent largest : Option HostRecord) : List HostRecord :=
  let first := (adjacent.filter (· ≠ m)).toList
  first ++ (largest.filter fun h => h ≠ m ∧ h ∉ first).toList

theorem addCandidate_eq (m : HostRecord) (adjacent largest : Option HostRecord) :
    addCandidate (addCandidate [m] adjacent) largest = m :: furtherCandidates m adjacent largest := by
  cases adjacent with
  | none =>
    cases largest with
    | none => rfl
    | some l => by_cases h : l = m <;> simp [addCandidate, furtherCandidates, Option.filter, h]
  | some a =>
    by_cases ha : a = m <;> cases largest with
    | none => simp [addCandidate, furtherCandidates, Option.filter, ha]
    | some l => by_cases h : l = m <;> by_cases h' : l = a <;> simp_all [addCandidate, furtherCandidates, Option.filter]

/-- Where the first cannot merge, the last further candidate that can is kept. -/
theorem foldl_furtherCandidates {α : Type} {f : HostRecord → Option α} {m : HostRecord} (hm : f m = .none)
    (adjacent largest : Option HostRecord) :
    (furtherCandidates m adjacent largest).foldl (fun c h => (f h).or c) .none =
      (largest.bind f).or (adjacent.bind f) := by
  cases adjacent with
  | none =>
    cases largest with
    | none => rfl
    | some l => by_cases h : l = m <;> simp [furtherCandidates, Option.filter, h, hm]
  | some a =>
    by_cases ha : a = m <;> cases largest with
    | none => simp [furtherCandidates, Option.filter, ha, hm]
    | some l =>
      by_cases h : l = m
      · simp [furtherCandidates, Option.filter, ha, h, hm]
      · by_cases h' : l = a
        · subst h'
          cases hf : f l <;> simp [furtherCandidates, Option.filter, h, hf]
        · simp [furtherCandidates, Option.filter, ha, h, h', hm]

/-- The decision of `_reclaim_range`, without its loop. -/
theorem Wellformed.reclaimLocked_eq_absorber (hw : reg.Wellformed) {range : String} {r : Span}
    (hrange : spanOf range = .some r) : reclaimLocked reg range = .ok ((reg.absorber r).map fun c =>
      { donorId := c.1.hostId, donorUrl := c.1.shardManagerUrl, newRange := c.2 }) := by
  have hk := hw.keyed
  have hr := hw.readable
  obtain ⟨m, hmget⟩ := hw.mother
  have hmfit := hw.each _ _ hmget
  have hmother : reg.motherLocked = .some m := by simp [motherLocked, hmget, hmfit.mother rfl, Option.filter]
  -- Only the mother has her role.
  have hrole : ∀ h ∈ reg.hosts.values, h ≠ m → h.role ≠ .mother := by
    intro h hv hne hm
    have hg := hk.get? hv
    rw [((hw.each _ _ hg).role.1 hm), hmget] at hg
    exact hne (Option.some.inj hg).symm
  obtain ⟨adjacent, hadj, hsome, -⟩ := findAdjacentDonor_eq hr r
  have hdecide : ∃ cs, reg.reclaimCandidates r.lo r.hi = .ok cs ∧
      reg.chooseAbsorber r.lo r.hi cs .none = .ok (reg.absorber r) := by
    obtain ⟨hmo, hmv⟩ := motherLocked_mem hmother
    have hfurther : ∀ h ∈ furtherCandidates m adjacent reg.largestDonorLocked,
        h ∈ reg.hosts.values ∧ h.status = .online ∧ h.role ≠ .mother := by
      intro h hh
      have hne : h ≠ m ∧ h ∈ reg.hosts.values ∧ h.status = .online := by
        simp only [furtherCandidates, List.mem_append, Option.mem_toList, Option.filter_eq_some_iff,
          decide_eq_true_eq] at hh
        rcases hh with ⟨rfl, hne⟩ | ⟨hl, hne, -⟩
        · exact ⟨hne, (hsome h rfl).1, (hsome h rfl).2.1⟩
        · exact ⟨hne, (largestDonorLocked_mem hl).2, (largestDonorLocked_mem hl).1⟩
      exact ⟨hne.2.1, hne.2.2, hrole h hne.2.1 hne.1⟩
    simp only [reclaimCandidates, hadj, ok_bind, hmother, Option.toList_some, absorber, Except.toOption,
      Option.join_some, Option.bind_some]
    refine ⟨_, rfl, ?_⟩
    rw [addCandidate_eq, chooseAbsorber_cons hk hr r hmv hmo]
    cases hmerge : reg.merged r m with
    | some c => simp [hmfit.role.2 rfl]
    | none =>
      simp only [Option.none_or]
      rw [chooseAbsorber_rest hk hr r hfurther, foldl_furtherCandidates hmerge]
  obtain ⟨cs, hcs, hchoose⟩ := hdecide
  simp only [reclaimLocked, parseRange_of_spanOf hrange, ok_bind, hcs, hchoose]
  cases reg.absorber r <;> rfl

theorem mem_of_absorber (hw : reg.Wellformed) {r : Span} {donor : HostRecord} {new : String}
    (h : reg.absorber r = .some (donor, new)) : donor ∈ reg.hosts.values ∧ donor.status = .online := by
  have hmerged : ∀ {o : Option HostRecord}, (∀ g, o = .some g → g ∈ reg.hosts.values ∧ g.status = .online) →
      o.bind (reg.merged r) = .some (donor, new) → donor ∈ reg.hosts.values ∧ donor.status = .online := by
    intro o hP hm
    obtain ⟨g, hg, hmg⟩ := Option.bind_eq_some_iff.1 hm
    obtain ⟨_, -, heq⟩ := Option.map_eq_some_iff.1 hmg
    rw [← (Prod.mk.inj heq).1]
    exact hP g hg
  obtain ⟨adjacent, hadj, hsome, -⟩ := findAdjacentDonor_eq hw.readable r
  simp only [absorber, hadj, Except.toOption, Option.join_some, Option.or_eq_some_iff] at h
  obtain h | ⟨-, h | ⟨-, h⟩⟩ := h
  · exact hmerged (fun g hg => ⟨(motherLocked_mem hg).2, (motherLocked_mem hg).1⟩) h
  · exact hmerged (fun g hg => ⟨(largestDonorLocked_mem hg).2, (largestDonorLocked_mem hg).1⟩) h
  · exact hmerged (fun g hg => ⟨(hsome g hg).1, (hsome g hg).2.1⟩) h

theorem Wellformed.reclaimRange_of_none (hw : reg.Wellformed) {range : String} {r : Span}
    (hrange : spanOf range = .some r) (h : reg.absorber r = .none) (post : Reload) :
    reclaimRange post range reg = .ok () reg := by
  simp [reclaimRange_eq, hw.reclaimLocked_eq_absorber hrange, h]

/-- The absorber's answer decides whether the reclaim raises. -/
theorem Wellformed.reclaimRange_of_some (hw : reg.Wellformed) {range new : String} {r : Span} {donor : HostRecord}
    (hrange : spanOf range = .some r) (h : reg.absorber r = .some (donor, new)) (post : Reload) :
    (∀ e, reloadShardManager post donor.shardManagerUrl new = .error e → reclaimRange post range reg = .error e reg) ∧
      (reloadShardManager post donor.shardManagerUrl new = .ok () → ∃ m reg', spanOf new = .some m ∧
        reclaimRange post range reg = .ok () reg' ∧ reg'.held = reg.held.assign donor.hostId m ∧
        ∀ k, (reg'.hosts.get? k).isSome = (reg.hosts.get? k).isSome) := by
  have hdecide := hw.reclaimLocked_eq_absorber hrange
  simp only [h, Option.map_some] at hdecide
  obtain ⟨o, ho, hsome, -⟩ := reclaimLocked_eq hw.keyed hw.readable hrange
  rw [hdecide] at ho
  obtain ⟨d, m, hd, hnew, -⟩ := hsome _ (Except.ok.inj ho).symm
  have hm : spanOf new = .some m := by simp only at hnew; simp [hnew]
  refine ⟨fun e he => by simp [reclaimRange_eq, hdecide, he], fun he => ?_⟩
  obtain ⟨g, hg, hon, -⟩ := held_eq_some.1 hd
  have hplan : spanOf (⟨donor.hostId, donor.shardManagerUrl, new⟩ : ReclaimPlan).newRange = .some m := hm
  rcases reclaimCommit_eq hplan reg with ⟨hno, -⟩ | ⟨_, -, hc⟩
  · simp [hno] at hg
  · refine ⟨m, reg.updateHost donor.hostId fun d => d.resized new m.length, hm, ?_, ?_, fun k => ?_⟩
    · simp only [reclaimRange_eq, hdecide, he, hc]
    · exact congrArg Ledger.held (hw.ledger_resized hg hon hm)
    · rw [get?_updateHost]
      split <;> simp

end SwarmRegistry

/-! ## When a failed departure can be retried -/

/-- The registry without one of its hosts. -/
def SwarmRegistry.without (reg : SwarmRegistry) (hostId : String) : SwarmRegistry :=
  { reg with hosts := reg.hosts.erase hostId }

theorem without_updateHost (reg : SwarmRegistry) (hostId : String) (f : HostRecord → HostRecord) :
    (reg.updateHost hostId f).without hostId = reg.without hostId := by
  simp only [SwarmRegistry.without, SwarmRegistry.updateHost, Dict.erase_modify]

/-- Every layer the host held online, an online host holds afterwards. -/
def Absorbed (reg reg' : SwarmRegistry) (hostId : String) : Prop :=
  ∀ x, reg.held.Holds hostId x → ∃ j, reg'.held.Holds j x

/-- `leave` raises, or returns with nobody holding what the host held. -/
def LeaveFails (post : Reload) (reg : SwarmRegistry) (hostId : String) : Prop :=
  (∃ e reg', leave post hostId reg = .error e reg') ∨ ¬ Absorbed reg (after (leave post hostId) reg) hostId

/-- The same hosts with the same ranges. -/
def SameRanges (reg reg' : SwarmRegistry) : Prop :=
  ∀ k, (reg'.hosts.get? k).map (·.blockIndices) = (reg.hosts.get? k).map (·.blockIndices)

/-- A departure that fails leaves the hosts and their ranges as they were. -/
def Retryable (post : Reload) (reg : SwarmRegistry) (hostId : String) : Prop :=
  LeaveFails post reg hostId → SameRanges reg (after (leave post hostId) reg)

/-- A departing contributor's range is somebody's already, or has an absorber
that answers its reload and takes it. A pending host's range may also have no
absorber. -/
def Departs (post : Reload) (reg : SwarmRegistry) (hostId : String) : Prop :=
  ∀ host r, reg.hosts.get? hostId = .some host → host.role ≠ .mother → spanOf host.blockIndices = .some r →
    (host.status = .pending ∧ ∃ j s, reg.held j = .some s ∧ s.Covers r) ∨
    match (reg.without hostId).absorber r with
    | .none => host.status = .pending ∨ ∀ x ∈ r, ∃ j, (reg.without hostId).held.Holds j x
    | .some (donor, new) => reloadShardManager post donor.shardManagerUrl new = .ok () ∧
        (host.status = .pending ∨ ∀ x ∈ r, (∃ m, spanOf new = .some m ∧ x ∈ m) ∨
          ∃ j ≠ donor.hostId, (reg.without hostId).held.Holds j x)

variable {reg : SwarmRegistry}

/-- The range of a contributor that asks to leave, and whether it has to be reclaimed. -/
theorem leaveLocked_contributor (hw : reg.Wellformed) {hostId : String} {host : HostRecord} {r : Span}
    (hk : reg.hosts.get? hostId = .some host) (hrole : host.role ≠ .mother) (hr : spanOf host.blockIndices = .some r) :
    ∃ o, leaveLocked hostId reg = .ok o (reg.without hostId) ∧
      ((o = .none ∧ host.status = .pending ∧ ∃ j s, reg.held j = .some s ∧ s.Covers r) ∨
        (o = .some host.blockIndices ∧ ¬ (host.status = .pending ∧ ∃ j s, reg.held j = .some s ∧ s.Covers r))) := by
  have hlocked : ∀ range, reg.rangeToReclaim hostId = .ok range →
      leaveLocked hostId reg = .ok (truthy range) (reg.without hostId) :=
    fun range hrange => locked_ok.2 (by simp only [hrange, ok_bind]; rfl)
  have htruthy := truthy_of_ne (ne_empty_of_spanOf hr)
  by_cases hp : host.status = .pending
  · obtain ⟨range, hrange, ⟨rfl, hcov⟩ | ⟨rfl, hcov⟩⟩ := rangeToReclaim_pending hw.keyed hw.readable hk hrole hp hr
    · exact ⟨_, hlocked _ hrange, .inl ⟨rfl, hp, hcov⟩⟩
    · exact ⟨_, hlocked _ hrange, .inr ⟨htruthy, fun ⟨_, j, s, hj, hc⟩ => hcov j s hj hc⟩⟩
  · exact ⟨_, hlocked _ (rangeToReclaim_online hk hrole (hw.online hk hp)), .inr ⟨htruthy, fun h => hp h.1⟩⟩

/-- A reclaim registers and deletes nobody. -/
theorem isSome_after_reclaimRange (hw : reg.Wellformed) {range : String} {r : Span} (hr : spanOf range = .some r)
    (post : Reload) (k : String) :
    ((after (reclaimRange post range) reg).hosts.get? k).isSome = (reg.hosts.get? k).isSome := by
  cases ha : reg.absorber r with
  | none => rw [after_of_ok (hw.reclaimRange_of_none hr ha post)]
  | some c =>
    obtain ⟨herr, hok⟩ := hw.reclaimRange_of_some hr ha post
    cases hpost : reloadShardManager post c.1.shardManagerUrl c.2 with
    | error e => rw [after_of_error (herr e hpost)]
    | ok _ =>
      obtain ⟨m, reg', -, hret, -, hsome⟩ := hok hpost
      rw [after_of_ok hret, hsome]

/-- A departing contributor is deleted, whatever becomes of its range. -/
theorem get?_after_leave (hw : reg.Wellformed) (post : Reload) {hostId : String} {host : HostRecord}
    (hk : reg.hosts.get? hostId = .some host) (hrole : host.role ≠ .mother) :
    (after (leave post hostId) reg).hosts.get? hostId = .none := by
  obtain ⟨r, hr, -⟩ := (hw.each _ _ hk).sized
  obtain ⟨o, ho, hcase⟩ := leaveLocked_contributor hw hk hrole hr
  have hgone : (reg.without hostId).hosts.get? hostId = .none := Dict.get?_erase_self _ _
  have hw' : (reg.without hostId).Wellformed := hw.of_leaveLocked ho
  rcases hcase with ⟨rfl, -⟩ | ⟨rfl, -⟩
  · simpa only [after, leave_eq, ho] using hgone
  · have hcall : after (leave post hostId) reg = after (reclaimRange post host.blockIndices) (reg.without hostId) := by
      simp only [after, leave_eq, ho]
    rw [hcall, ← Option.isNone_iff_eq_none, ← Option.not_isSome, isSome_after_reclaimRange hw' hr post, hgone]
    rfl

/-- Who is asked to take the range of a departing host, and its range then. -/
def Asks (reg : SwarmRegistry) (hostId : String) (donor : HostRecord) (new : String) : Prop :=
  ∃ host r, reg.hosts.get? hostId = .some host ∧ host.role ≠ .mother ∧ spanOf host.blockIndices = .some r ∧
    ¬ (host.status = .pending ∧ ∃ j s, reg.held j = .some s ∧ s.Covers r) ∧
    (reg.without hostId).absorber r = .some (donor, new)

/-- What a contributor's departure can do: nobody is asked, or one is and refuses,
or takes the range. -/
theorem leave_cases (hw : reg.Wellformed) (post : Reload) {hostId : String} {host : HostRecord}
    (hk : reg.hosts.get? hostId = .some host) (hrole : host.role ≠ .mother) :
    leave post hostId reg = .ok () (reg.without hostId) ∨
      ∃ donor new m, Asks reg hostId donor new ∧ (reg.without hostId).hosts.get? donor.hostId = .some donor ∧
        donor.status = .online ∧ spanOf new = .some m ∧
        ((∃ e, reloadShardManager post donor.shardManagerUrl new = .error e ∧
            leave post hostId reg = .error e (reg.without hostId)) ∨
          (reloadShardManager post donor.shardManagerUrl new = .ok () ∧ leave post hostId reg =
            .ok () ((reg.without hostId).updateHost donor.hostId fun d => d.resized new m.length))) := by
  obtain ⟨r, hr, -⟩ := (hw.each _ _ hk).sized
  obtain ⟨o, ho, ⟨rfl, -⟩ | ⟨rfl, hopen⟩⟩ := leaveLocked_contributor hw hk hrole hr
  · exact .inl (by simp only [leave_eq, ho])
  have hw' : (reg.without hostId).Wellformed := hw.of_leaveLocked ho
  have hcall : leave post hostId reg = reclaimRange post host.blockIndices (reg.without hostId) := by
    simp only [leave_eq, ho]
  have hdecide := hw'.reclaimLocked_eq_absorber hr
  rw [hcall, reclaimRange_eq, hdecide]
  cases ha : (reg.without hostId).absorber r with
  | none => exact .inl rfl
  | some c =>
    obtain ⟨donor, new⟩ := c
    obtain ⟨hmem, hon⟩ := mem_of_absorber hw' ha
    have hget := hw'.keyed.get? hmem
    obtain ⟨o, ho', hsome, -⟩ := reclaimLocked_eq hw'.keyed hw'.readable hr
    rw [hdecide, ha] at ho'
    obtain ⟨d, m, hd, hnew, -⟩ := hsome _ (Except.ok.inj ho').symm
    have hm : spanOf new = .some m := by simp only at hnew; simp [hnew]
    refine .inr ⟨donor, new, m, ⟨host, r, hk, hrole, hr, hopen, ha⟩, hget, hon, hm, ?_⟩
    simp only [Option.map_some]
    cases hpost : reloadShardManager post donor.shardManagerUrl new with
    | error e => exact .inl ⟨e, rfl, rfl⟩
    | ok _ =>
      refine .inr ⟨rfl, ?_⟩
      have hplan : spanOf (⟨donor.hostId, donor.shardManagerUrl, new⟩ : ReclaimPlan).newRange = .some m := hm
      obtain ⟨hno, -⟩ | ⟨_, -, hc⟩ := reclaimCommit_eq hplan (reg.without hostId)
      · simp [hget] at hno
      · exact hc

/-- Nothing changes where the id is not a contributor's. -/
theorem leave_refused {hostId : String} (h : ∀ host, reg.hosts.get? hostId = .some host → host.role = .mother)
    (post : Reload) : ∃ e, leave post hostId reg = .error e reg := by
  have hrefused : ∀ e, reg.rangeToReclaim hostId = .error e → leave post hostId reg = .error e reg := by
    intro e he
    have hlocked : leaveLocked hostId reg = .error e reg := locked_error.2 ⟨by simp only [he]; rfl, rfl⟩
    simp only [leave_eq, hlocked]
  cases hk : reg.hosts.get? hostId with
  | none => exact ⟨_, hrefused (.keyError hostId) (by simp only [rangeToReclaim, hk])⟩
  | some host =>
    exact ⟨_, hrefused (.valueError "Cannot leave as mother via this API")
      (by simp only [rangeToReclaim, hk, h host hk, if_true])⟩

/-- No departure deletes another host. -/
theorem isSome_after_leave (hw : reg.Wellformed) (post : Reload) {hostId k : String} (hne : k ≠ hostId) :
    ((after (leave post hostId) reg).hosts.get? k).isSome = (reg.hosts.get? k).isSome := by
  have hrest : ∀ {o reg'}, leaveLocked hostId reg = .ok o reg' → reg'.hosts.get? k = reg.hosts.get? k := by
    intro o reg' hl
    obtain ⟨_, _, -, -, -, -, rfl⟩ := leaveLocked_ok hl
    exact Dict.get?_erase_ne hne
  refine leave_keeps (P := fun r => (r.hosts.get? k).isSome = (reg.hosts.get? k).isSome) post rfl
    (fun reg' hl => congrArg _ (hrest hl)) fun range reg' hl => ?_
  obtain ⟨r, hr⟩ := hw.spanOf_leaveLocked hl
  rw [isSome_after_reclaimRange (hw.of_leaveLocked hl) hr post, hrest hl]

/-- What a contributor held online is its range. -/
theorem holds_iff {hostId : String} {host : HostRecord} {r : Span} (hk : reg.hosts.get? hostId = .some host)
    (ho : host.status = .online) (hr : spanOf host.blockIndices = .some r) (x : Int) :
    reg.held.Holds hostId x ↔ x ∈ r := by
  have hheld : reg.held hostId = .some r := held_eq_some.2 ⟨host, hk, ho, hr⟩
  constructor
  · rintro ⟨s, hs, hx⟩
    rw [hheld] at hs
    rwa [Option.some.inj hs]
  · exact fun hx => ⟨r, hheld, hx⟩

/-- A contributor is deleted before anything can fail, so a failed departure
is never one that can be retried. -/
theorem retryable_iff_not_fails (hw : reg.Wellformed) (post : Reload) {hostId : String} {host : HostRecord}
    (hk : reg.hosts.get? hostId = .some host) (hrole : host.role ≠ .mother) :
    Retryable post reg hostId ↔ ¬ LeaveFails post reg hostId := by
  refine ⟨fun h hf => ?_, fun h hf => absurd hf h⟩
  have := h hf hostId
  simp [get?_after_leave hw post hk hrole, hk] at this

/-- **Exactly when a failed departure can be retried.** -/
theorem retryable_iff (hw : reg.Wellformed) (post : Reload) (hostId : String) :
    Retryable post reg hostId ↔ Departs post reg hostId := by
  by_cases hcontributor : ∃ host, reg.hosts.get? hostId = .some host ∧ host.role ≠ .mother
  swap
  -- Where the id is unknown or the mother's, nothing is deleted.
  · refine iff_of_true ?_ fun host r hk hrole => absurd ⟨host, hk, hrole⟩ hcontributor
    obtain ⟨e, he⟩ := leave_refused (fun host hk => by_contra fun hrole => hcontributor ⟨host, hk, hrole⟩) post
    intro _ k
    rw [after_of_error he]
  obtain ⟨host, hk, hrole⟩ := hcontributor
  rw [retryable_iff_not_fails hw post hk hrole]
  obtain ⟨r, hr, -⟩ := (hw.each _ _ hk).sized
  have hdep : Departs post reg hostId ↔ _ := ⟨fun h => h host r hk hrole hr, fun h host' r' hk' _ hr' => by
    obtain rfl : host = host' := Option.some.inj (hk.symm.trans hk')
    obtain rfl : r = r' := Option.some.inj (hr.symm.trans hr')
    exact h⟩
  rw [hdep]
  obtain ⟨o, ho, hcase⟩ := leaveLocked_contributor hw hk hrole hr
  have hw' : (reg.without hostId).Wellformed := hw.of_leaveLocked ho
  -- A pending host held nothing, so there is nothing to absorb.
  have hpending : host.status = .pending → ∀ reg', Absorbed reg reg' hostId := by
    rintro hp reg' x ⟨s, hs, -⟩
    simp [held_pending hk (by simp [hp])] at hs
  have honline : host.status ≠ .pending → ∀ x, reg.held.Holds hostId x ↔ x ∈ r :=
    fun hp => holds_iff hk (hw.online hk hp) hr
  rcases hcase with ⟨rfl, hp, hcov⟩ | ⟨rfl, hcov⟩
  · have hret : leave post hostId reg = .ok () (reg.without hostId) := by simp only [leave_eq, ho]
    refine iff_of_true (fun hf => ?_) (.inl ⟨hp, hcov⟩)
    rcases hf with hraise | hkept
    · obtain ⟨e, _, he⟩ := hraise
      simp [hret] at he
    · exact hkept (hpending hp _)
  have hcall : leave post hostId reg = reclaimRange post host.blockIndices (reg.without hostId) := by
    simp only [leave_eq, ho]
  simp only [LeaveFails, after, hcall, hcov, false_or]
  cases ha : (reg.without hostId).absorber r with
  | none =>
    simp only [hw'.reclaimRange_of_none hr ha post, reduceCtorEq, exists_false, false_or, not_not]
    by_cases hp : host.status = .pending
    · exact iff_of_true (hpending hp _) (.inl hp)
    · simp only [Absorbed, honline hp, hp, false_or]
  | some c =>
    obtain ⟨donor, new⟩ := c
    obtain ⟨herr, hok⟩ := hw'.reclaimRange_of_some hr ha post
    cases hpost : reloadShardManager post donor.shardManagerUrl new with
    | error e => simp [herr e hpost, hpost]
    | ok _ =>
      obtain ⟨m, reg', hm, hret, hheld, -⟩ := hok hpost
      simp only [hret, hpost, reduceCtorEq, exists_false, false_or, not_not, true_and]
      by_cases hp : host.status = .pending
      · exact iff_of_true (hpending hp _) (.inl hp)
      · simp only [Absorbed, honline hp, hp, false_or, hheld, Allocation.holds_assign, hm]
        refine forall₂_congr fun x hx => ⟨?_, ?_⟩
        · rintro ⟨j, ⟨rfl, hmem⟩ | ⟨hj, hh⟩⟩
          · exact .inl ⟨m, rfl, hmem⟩
          · exact .inr ⟨j, hj, hh⟩
        · rintro (⟨_, ⟨⟩, hmem⟩ | ⟨j, hj, hh⟩)
          · exact ⟨donor.hostId, .inl ⟨rfl, hmem⟩⟩
          · exact ⟨j, .inr ⟨hj, hh⟩⟩

/-! ## The reaper -/

/-- Every host that `reap_stale` fails to reclaim is there afterwards with the
range it had, and stale whenever the reaper comes again. -/
def ReapRetries (post : String → Reload) (ttlSeconds now : Int) (reg : SwarmRegistry) : Prop :=
  ∀ t ∈ reapTurns post (reg.staleHosts ttlSeconds now) reg, LeaveFails (post t.1) t.2 t.1 →
    SameRanges t.2 (after (leave (post t.1) t.1) t.2) ∧
      ∀ later ≥ now, t.1 ∈ (after (reapStale post ttlSeconds now) reg).staleHosts ttlSeconds later

/-- At its turn each victim is still a registered contributor. -/
theorem registered_of_reapTurns (post : String → Reload) {victims : List String} (hnodup : victims.Nodup)
    (hw : reg.Wellformed) (hv : ∀ v ∈ victims, v ≠ "mother" ∧ (reg.hosts.get? v).isSome) :
    ∀ t ∈ reapTurns post victims reg, t.2.Wellformed ∧ ∃ host, t.2.hosts.get? t.1 = .some host ∧ host.role ≠ .mother := by
  induction victims generalizing reg with
  | nil => simp [reapTurns]
  | cons v vs ih =>
    simp only [List.nodup_cons] at hnodup
    simp only [List.mem_cons, forall_eq_or_imp] at hv
    intro t ht
    rcases List.mem_cons.1 ht with rfl | ht
    · obtain ⟨host, hk⟩ := Option.isSome_iff_exists.1 hv.1.2
      exact ⟨hw, host, hk, fun hm => hv.1.1 ((hw.each _ _ hk).role.1 hm)⟩
    · refine ih hnodup.2 (hw.after_leave _ _) (fun u hu => ⟨(hv.2 u hu).1, ?_⟩) t ht
      have hne : u ≠ v := fun he => hnodup.1 (he ▸ hu)
      rw [isSome_after_leave hw _ hne]
      exact (hv.2 u hu).2

theorem staleHosts_registered (hw : reg.Wellformed) (ttlSeconds now : Int) : (reg.staleHosts ttlSeconds now).Nodup ∧
    ∀ v ∈ reg.staleHosts ttlSeconds now, v ≠ "mother" ∧ (reg.hosts.get? v).isSome := by
  constructor
  · exact (List.filter_sublist.map _).nodup hw.keyed.nodup
  · intro v hv
    simp only [staleHosts, List.mem_map, List.mem_filter, decide_eq_true_eq] at hv
    obtain ⟨h, ⟨hmem, hrole, -⟩, rfl⟩ := hv
    have hk := hw.keyed.get? hmem
    exact ⟨fun he => hrole ((hw.each _ _ hk).role.2 he), by simp [hk]⟩

/-- **Exactly when a reaper's failures can be retried**: when it has none. -/
theorem reap_retries_iff (hw : reg.Wellformed) (post : String → Reload) (ttlSeconds now : Int) :
    ReapRetries post ttlSeconds now reg ↔
      ∀ t ∈ reapTurns post (reg.staleHosts ttlSeconds now) reg, Departs (post t.1) t.2 t.1 := by
  obtain ⟨hnodup, hv⟩ := staleHosts_registered hw ttlSeconds now
  have hreg := registered_of_reapTurns post hnodup hw hv
  refine forall₂_congr fun t ht => ?_
  obtain ⟨hwt, host, hk, hrole⟩ := hreg t ht
  rw [← retryable_iff hwt, retryable_iff_not_fails hwt _ hk hrole]
  refine ⟨fun h hf => ?_, fun h hf => absurd hf h⟩
  exact (retryable_iff_not_fails hwt _ hk hrole).1 (fun hf => (h hf).1) hf

/-! ## Reached registries -/

/-- **A departure that fails can be retried exactly where `Departs` holds**,
for `leave` and for every turn of a reaper, in every well-formed registry: such
as any run of whole calls reaches, and any interleaving of their pieces. -/
theorem departure_retries_iff {model url : String} {totalLayers now₀ : Int} {wallet : Option String}
    {reg₀ : SwarmRegistry} (h₀ : SwarmRegistry.init model totalLayers url wallet now₀ = .ok reg₀) :
    (∀ reg, registryMachine.Reaches (fun _ _ => True) reg₀ reg → reg.Wellformed) ∧
      (∀ cfg, callsMachine.Reaches (fun _ _ => True) (.fresh reg₀) cfg → cfg.reg.Wellformed) ∧
      ∀ reg : SwarmRegistry, reg.Wellformed →
        (∀ post hostId, Retryable post reg hostId ↔ Departs post reg hostId) ∧
          ∀ post ttlSeconds now, ReapRetries post ttlSeconds now reg ↔
            ∀ t ∈ reapTurns post (reg.staleHosts ttlSeconds now) reg, Departs (post t.1) t.2 t.1 := by
  have hw₀ := wellformed_init h₀
  have hfresh : (Config.fresh reg₀).Legible := ⟨hw₀, by simp [Config.fresh]⟩
  exact ⟨fun reg h => wellformed_of_reaches hw₀ h, fun cfg h => (hfresh.of_reaches h).wellformed,
    fun reg hw => ⟨retryable_iff hw, reap_retries_iff hw⟩⟩

/-- A host of four layers, online. -/
def oneHostEvents : List Event := [joinEvent 4 "host-a" 0, .markReady answering "host-a" .none 1]

/-- The donor's shard manager refuses: the departure raises, and the host that
held the layers is gone. -/
theorem refused_departure_not_retryable : ∃ reg, registryMachine.run (demo 12) oneHostEvents = .some reg ∧
    (∃ e reg', leave refusing "host-a" reg = .error e reg') ∧ (reg.hosts.get? "host-a").isSome ∧
      (after (leave refusing "host-a") reg).hosts.get? "host-a" = .none ∧ ¬ Retryable refusing reg "host-a" := by
  have hrun : ((registryMachine.run (demo 12) oneHostEvents).any fun reg =>
      ((leave refusing "host-a").run' reg).isNone && (reg.hosts.get? "host-a").isSome &&
        ((after (leave refusing "host-a") reg).hosts.get? "host-a").isNone) = true := by decide
  obtain ⟨reg, hreg, hcheck⟩ := (Option.any_eq_true _ _).1 hrun
  simp only [Bool.and_eq_true, Option.isNone_iff_eq_none] at hcheck
  obtain ⟨⟨hrun', hsome⟩, hafter⟩ := hcheck
  cases hl : leave refusing "host-a" reg with
  | ok _ reg' => simp [run'_of_ok hl] at hrun'
  | error e reg' =>
    refine ⟨reg, hreg, ⟨e, reg', hl⟩, hsome, hafter, fun hretry => ?_⟩
    obtain ⟨host, hk⟩ := Option.isSome_iff_exists.1 hsome
    have hsame := hretry (.inl ⟨e, reg', hl⟩) "host-a"
    simp [hafter, hk] at hsame

theorem departure_retries_iff_oneHost : ∃ reg, registryMachine.run (demo 12) oneHostEvents = .some reg ∧
    (∀ post hostId, Retryable post reg hostId ↔ Departs post reg hostId) ∧
      ∀ post ttlSeconds now, ReapRetries post ttlSeconds now reg ↔
        ∀ t ∈ reapTurns post (reg.staleHosts ttlSeconds now) reg, Departs (post t.1) t.2 t.1 := by
  obtain ⟨reg, hrun⟩ := Option.isSome_iff_exists.1 (by decide : (registryMachine.run (demo 12) oneHostEvents).isSome = true)
  obtain ⟨hreached, -, hexact⟩ := departure_retries_iff (init_demo 12)
  exact ⟨reg, hrun, hexact reg (hreached reg (.of_run (fun _ _ _ => trivial) hrun))⟩

end Blitzwing
