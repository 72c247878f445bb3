/-
What is advertised and what `join` takes.

`max_carveable` and `join` choose the donor and its bounds each for itself, and
`join` has a bound of its own, the model's layers. In a registry that no report
has changed a record's count is its range's length and no range is longer than
the model, so the two agree (`join_iff_of_reaches`).
-/
import Blitzwing.Departure

namespace Blitzwing

open SwarmRegistry

variable {reg reg' : SwarmRegistry} {layers now : Int} {publicIp url account hostId : String}

/-! ## The donor -/

theorem largestDonorLocked_largest {donor h : HostRecord} (hl : reg.largestDonorLocked = .some donor)
    (hv : h ∈ reg.hosts.values) (ho : h.status = .online) : h.layersHosted ≤ donor.layersHosted := by
  have hmem : h ∈ reg.hosts.values.filter (·.status = .online) := List.mem_filter.2 ⟨hv, by simpa using ho⟩
  have hle := List.le_apply_get_maxOn?_of_mem (f := HostRecord.layersHosted) hmem
  unfold largestDonorLocked at hl
  simpa only [hl, Option.get_some] using hle

/-- There is a largest donor, and its range is as long as its count says. -/
theorem exists_largestDonor (hw : reg.Wellformed) : ∃ donor d, reg.largestDonorLocked = .some donor ∧
    reg.hosts.get? donor.hostId = .some donor ∧ donor.status = .online ∧ spanOf donor.blockIndices = .some d ∧
    donor.layersHosted = d.length := by
  obtain ⟨mother, hmother⟩ := hw.mother
  have ho := (hw.each _ _ hmother).mother rfl
  have hmem : mother ∈ reg.hosts.values.filter (·.status = .online) :=
    List.mem_filter.2 ⟨Dict.mem_values.2 ⟨_, hmother⟩, by simpa using ho⟩
  obtain ⟨donor, hl⟩ := Option.isSome_iff_exists.1 (List.isSome_maxOn?_of_mem (f := HostRecord.layersHosted) hmem)
  obtain ⟨hon, hv⟩ := largestDonorLocked_mem hl
  have hk := hw.keyed.get? hv
  obtain ⟨d, hd, hlength⟩ := (hw.each _ _ hk).sized
  exact ⟨donor, d, hl, hk, hon, hd, hlength⟩

theorem maxCarveable_eq (hno : ∀ h ∈ reg.hosts.values, h.status ≠ .pending) {donor : HostRecord} {d : Span}
    (hl : reg.largestDonorLocked = .some donor) (hd : spanOf donor.blockIndices = .some d) :
    reg.maxCarveable = .ok (max 0 (d.length - 1)) := by
  simp only [maxCarveable, hl, effectiveDonorRange_eq hno, parseRange_of_spanOf hd, ok_bind]
  rfl

/-! ## What `join` takes -/

theorem find?_pending_eq_none : reg.hosts.values.find? (·.status = .pending) = .none ↔
    ∀ h ∈ reg.hosts.values, h.status ≠ .pending := by
  simp

/-- A record for the top of the largest donor's range. -/
theorem joinRecord_of_donor (hno : ∀ h ∈ reg.hosts.values, h.status ≠ .pending) {donor : HostRecord} {d : Span}
    (hl : reg.largestDonorLocked = .some donor) (hd : spanOf donor.blockIndices = .some d) {wallet : String}
    (hwallet : validateHederaAccountId account = .ok wallet) (hlow : 1 ≤ layers) (htotal : layers < reg.totalLayers)
    (htake : layers < d.length) (publicIp url hostId : String) (now : Int) :
    ∃ record reply, reg.joinRecord layers publicIp url account hostId now = .ok (record, reply) ∧
      reply.donorHostId = donor.hostId ∧ record.blockIndices = formatRange (d.hi - layers) d.hi ∧
      record.donorShrinkTo = .some (formatRange d.lo (d.hi - layers)) := by
  have hmax : ¬ layers > d.hi - d.lo - 1 := by
    simp only [Span.length] at htake
    omega
  simp only [joinRecord, show ¬ layers < 1 by omega, show ¬ layers ≥ reg.totalLayers by omega, hwallet, ok_bind,
    find?_pending_eq_none.2 hno, hl, effectiveDonorRange_eq hno, parseRange_of_spanOf hd, hmax, if_false]
  exact ⟨_, _, rfl, rfl, rfl, rfl⟩

/-- What a request has to satisfy. -/
theorem joinRecord_bounds (hno : ∀ h ∈ reg.hosts.values, h.status ≠ .pending) {donor : HostRecord} {d : Span}
    (hl : reg.largestDonorLocked = .some donor) (hd : spanOf donor.blockIndices = .some d)
    {p : HostRecord × JoinReply} (h : reg.joinRecord layers publicIp url account hostId now = .ok p) :
    1 ≤ layers ∧ layers < d.length := by
  unfold joinRecord at h
  split at h
  · simp at h
  next hlow =>
  split at h
  · simp at h
  obtain ⟨wallet, -, h⟩ := bind_eq_ok.1 h
  simp only [find?_pending_eq_none.2 hno, hl, effectiveDonorRange_eq hno, parseRange_of_spanOf hd, ok_bind] at h
  split at h
  · simp at h
  next htake =>
  simp only [Span.length]
  omega

theorem join_of_pending (hp : ∃ h ∈ reg.hosts.values, h.status = .pending) (reply : JoinReply) :
    join layers publicIp url account hostId now reg ≠ .ok reply reg' := by
  intro h
  obtain ⟨record, hrec, -⟩ := join_ok h
  obtain ⟨pending, hv, hst⟩ := hp
  exact (joinRecord_ok hrec).1 pending hv hst

/-- The newcomer holds the top of the range of an online host with the most
layers, which keeps a layer and shares none with another. -/
def SwarmRegistry.Carves (reg : SwarmRegistry) (layers : Int) (donorId hostId : String) (reg' : SwarmRegistry) : Prop :=
  ∃ donor d record, reg.hosts.get? donorId = .some donor ∧ donor.status = .online ∧
    (∀ h ∈ reg.hosts.values, h.status = .online → h.layersHosted ≤ donor.layersHosted) ∧
    spanOf donor.blockIndices = .some d ∧ donor.layersHosted = d.length ∧ d.lo < d.hi - layers ∧
    reg' = { reg with hosts := reg.hosts.set hostId record } ∧
    spanOf record.blockIndices = .some ⟨d.hi - layers, d.hi⟩ ∧
    record.donorShrinkTo.bind spanOf = .some ⟨d.lo, d.hi - layers⟩ ∧
    ∀ k h s, k ≠ donorId → reg.hosts.get? k = .some h → h.status = .online → spanOf h.blockIndices = .some s →
      s.Apart ⟨d.hi - layers, d.hi⟩

/-! ## The two agree -/

/-- No online host has more layers than the model. -/
def SwarmRegistry.Bounded (reg : SwarmRegistry) : Prop := ∀ k s, reg.held k = .some s → s.length ≤ reg.totalLayers

theorem join_iff (hw : reg.Wellformed) (hb : reg.Bounded) (hno : ∀ h ∈ reg.hosts.values, h.status ≠ .pending)
    {wallet : String} (hwallet : validateHederaAccountId account = .ok wallet) (layers : Int)
    (publicIp url hostId : String) (now : Int) :
    ∃ most, reg.maxCarveable = .ok most ∧
      ((∃ reply reg', join layers publicIp url account hostId now reg = .ok reply reg') ↔ 1 ≤ layers ∧ layers ≤ most) := by
  obtain ⟨donor, d, hl, hk, ho, hd, -⟩ := exists_largestDonor hw
  refine ⟨_, maxCarveable_eq hno hl hd, ?_⟩
  constructor
  · intro h
    obtain ⟨reply, reg', h⟩ := h
    obtain ⟨record, hrec, -⟩ := join_ok h
    obtain ⟨hlow, htake⟩ := joinRecord_bounds hno hl hd hrec
    omega
  · intro h
    have htake : layers < d.length := by omega
    have hlength := hb _ _ (held_eq_some.2 ⟨donor, hk, ho, hd⟩)
    obtain ⟨record, reply, hrec, -⟩ :=
      joinRecord_of_donor hno hl hd hwallet h.1 (by omega) htake publicIp url hostId now
    exact ⟨reply, _, locked_ok.2 (by rw [hrec, ok_bind]; rfl)⟩

/-- What a join that returns has done. -/
theorem carves_of_join (hc : reg.Consistent) {wallet : String} (hwallet : validateHederaAccountId account = .ok wallet)
    {reply : JoinReply} (h : join layers publicIp url account hostId now reg = .ok reply reg') :
    reg.Carves layers reply.donorHostId hostId reg' := by
  obtain ⟨record, hrec, rfl⟩ := join_ok h
  obtain ⟨hno, -⟩ := joinRecord_ok hrec
  obtain ⟨donor, d, hl, hk, ho, hd, hcount⟩ := exists_largestDonor hc.wellformed
  obtain ⟨hlow, htake⟩ := joinRecord_bounds hno hl hd hrec
  have hheld := held_eq_some.2 ⟨donor, hk, ho, hd⟩
  have hspan := hc.sound.span _ _ hheld
  have htotal : layers < reg.totalLayers := by
    simp only [Span.length] at htake
    omega
  obtain ⟨record', reply', hrec', hdonor, hrange, hshrink⟩ :=
    joinRecord_of_donor hno hl hd hwallet hlow htotal htake publicIp url hostId now
  obtain ⟨rfl, rfl⟩ := Prod.mk.inj (Except.ok.inj (hrec.symm.trans hrec'))
  simp only [Span.length] at htake
  refine ⟨donor, d, record, hdonor ▸ hk, ho, fun h hv hon => largestDonorLocked_largest hl hv hon, hd, hcount, by omega,
    rfl, by rw [hrange, spanOf_formatRange], by rw [hshrink, Option.bind_some, spanOf_formatRange], ?_⟩
  intro k h s hne hget hon hs
  have hk' := held_eq_some.2 ⟨h, hget, hon, hs⟩
  have hapart := hc.sound.exclusive.apart hk' hheld (hdonor ▸ hne) (hc.sound.span _ _ hk').1 hspan.1
  simp only [Span.Apart] at hapart ⊢
  omega

/-! ## In every run -/

/-- A registry of a model without layers: the mother alone, with no layer. -/
structure SwarmRegistry.Bare (reg : SwarmRegistry) : Prop where
  wellformed : reg.Wellformed
  layers : reg.totalLayers ≤ 0
  mother : ∀ k h, reg.hosts.get? k = .some h → h.role = .mother ∧ h.status = .online ∧
    spanOf h.blockIndices = .some ⟨0, reg.totalLayers⟩

theorem SwarmRegistry.Bare.bounded (hb : reg.Bare) : reg.Bounded := by
  intro k s hs
  obtain ⟨h, hk, -, hspan⟩ := held_eq_some.1 hs
  obtain rfl := Option.some.inj (hspan.symm.trans (hb.mother k h hk).2.2)
  simp [Span.length]

theorem SwarmRegistry.Bare.sameSeats (hb : reg.Bare) (hs : reg.SameSeats reg') : reg'.Bare where
  wellformed := hb.wellformed.sameSeats hs
  layers := hs.layers ▸ hb.layers
  mother := by
    intro k h' hk'
    cases hk : reg.hosts.get? k with
    | none => simp [hs.absent k hk] at hk'
    | some h =>
      obtain ⟨h'', hk'', hseat⟩ := hs.seated k h hk
      obtain rfl := Option.some.inj (hk'.symm.trans hk'')
      obtain ⟨hrole, hst, hspan⟩ := hb.mother k h hk
      rw [hseat.role, hseat.status, hseat.blockIndices, hs.layers]
      exact ⟨hrole, hst, hspan⟩

/-- Nothing changes but what heartbeats change. -/
theorem SwarmRegistry.Bare.apply (hb : reg.Bare) {e : Event} (he : e.Silent) : (e.apply reg).Bare := by
  have hw := hb.wellformed
  have hreap : ∀ post victims, (∀ victim ∈ victims, False) → (after (reapLoop post victims) reg) = reg := by
    intro post victims hnone
    rw [List.eq_nil_iff_forall_not_mem.2 hnone]
    rfl
  cases e with
  | join layers publicIp url account hostId now =>
    simp only [Event.apply]
    cases hj : Blitzwing.join layers publicIp url account hostId now reg with
    | ok reply reg' =>
      obtain ⟨record, hrec, -⟩ := join_ok hj
      have := hb.layers
      unfold joinRecord at hrec
      split at hrec
      · simp at hrec
      · split at hrec
        · simp at hrec
        · omega
    | error e reg' =>
      rw [after_of_error hj, join_error hj]
      exact hb
  | markReady post hostId peer now =>
    have hsame : after (Blitzwing.markReady post hostId peer now) reg = reg := by
      rw [after, markReady_eq]
      simp only [markReadyCheck, locked]
      cases hk : reg.hosts.get? hostId with
      | none => rfl
      | some host => simp [(hb.mother hostId host hk).2.1]
    rw [Event.apply, hsame]
    exact hb
  | leave post hostId =>
    obtain ⟨e, h⟩ := leave_refused (fun host hk => (hb.mother hostId host hk).1) post
    rw [Event.apply, after_of_error h]
    exact hb
  | reapStale post ttl now =>
    rw [Event.apply, show after (Blitzwing.reapStale post ttl now) reg = reg from hreap post (reg.staleHosts ttl now) ?_]
    · exact hb
    · intro victim hv
      obtain ⟨h, hmem, -⟩ := List.mem_map.1 hv
      obtain ⟨hval, hcond⟩ := List.mem_filter.1 hmem
      simp [(hb.mother _ h (hw.keyed.get? hval)).1] at hcond
  | reapStalePending post ttl now =>
    rw [Event.apply, show after (Blitzwing.reapStalePending post ttl now) reg = reg from
      hreap post (reg.stalePending ttl now) ?_]
    · exact hb
    · intro victim hv
      obtain ⟨h, hmem, -⟩ := List.mem_map.1 hv
      obtain ⟨hval, hcond⟩ := List.mem_filter.1 hmem
      simp [(hb.mother _ h (hw.keyed.get? hval)).1] at hcond
  | heartbeat hostId report now =>
    have hs := applyHeartbeatManifest_sameSeats hw hostId report now
    rw [he, adoptReport_none] at hs
    exact hb.sameSeats hs
  | refresh probe => exact absurd he id

theorem bare_init {model url : String} {totalLayers now : Int} {wallet : Option String}
    (h : SwarmRegistry.init model totalLayers url wallet now = .ok reg) (hn : totalLayers ≤ 0) : reg.Bare := by
  obtain ⟨htotal, mother, -, hrole, hst, hblock, -, -, hget⟩ := init_ok h
  refine ⟨wellformed_init h, htotal ▸ hn, ?_⟩
  intro k h hk
  rw [hget] at hk
  split at hk
  · obtain rfl := Option.some.inj hk
    exact ⟨hrole, hst, by rw [hblock, spanOf_formatRange, htotal]⟩
  · cases hk

/-- Whatever the model, a reached registry is consistent or bare. -/
theorem consistent_or_bare {model url : String} {totalLayers now : Int} {wallet : Option String}
    {reg₀ : SwarmRegistry} (h₀ : SwarmRegistry.init model totalLayers url wallet now = .ok reg₀)
    (h : registryMachine.Reaches (fun _ e => e.Silent) reg₀ reg) : reg.Consistent ∨ reg.Bare := by
  by_cases hn : 1 ≤ totalLayers
  · exact .inl (consistent_of_reaches (consistent_init h₀ hn).1 h).1
  · refine .inr (h.invariant (bare_init h₀ (by omega)) ?_)
    intro reg e reg' hb he hstep
    obtain ⟨-, rfl⟩ := step_eq_some hstep
    exact hb.apply he

theorem SwarmRegistry.Consistent.bounded (hc : reg.Consistent) : reg.Bounded := by
  intro k s hs
  have := hc.sound.span k s hs
  simp only [Span.length]
  omega

/-- **Advertised is what is accepted.** In every run of joins, `mark_ready`,
departures and the reapers, reloads failing as they may, with nobody pending a
join succeeds for the layers up to `max_carveable` and carves them from a
largest donor; with somebody pending it is refused, and refused it changes
nothing. -/
theorem join_iff_of_reaches {model motherUrl : String} {totalLayers start : Int} {motherWallet : Option String}
    {reg₀ : SwarmRegistry} (h₀ : SwarmRegistry.init model totalLayers motherUrl motherWallet start = .ok reg₀)
    (h : registryMachine.Reaches (fun _ e => e.Silent) reg₀ reg) (layers : Int)
    (publicIp url account hostId : String) (now : Int) :
    ((∀ h ∈ reg.hosts.values, h.status ≠ .pending) → (∃ wallet, validateHederaAccountId account = .ok wallet) →
      ∃ most, reg.maxCarveable = .ok most ∧
        ((∃ reply reg', join layers publicIp url account hostId now reg = .ok reply reg') ↔ 1 ≤ layers ∧ layers ≤ most) ∧
        ∀ reply reg', join layers publicIp url account hostId now reg = .ok reply reg' →
          reg.Carves layers reply.donorHostId hostId reg') ∧
    ((∃ h ∈ reg.hosts.values, h.status = .pending) →
      ∀ reply reg', join layers publicIp url account hostId now reg ≠ .ok reply reg') ∧
    ∀ e reg', join layers publicIp url account hostId now reg = .error e reg' → reg' = reg := by
  have hstate := consistent_or_bare h₀ h
  refine ⟨?_, fun hp reply reg' => join_of_pending hp reply, fun e reg' => join_error⟩
  intro hno hvalid
  obtain ⟨wallet, hwallet⟩ := hvalid
  have hw : reg.Wellformed := hstate.elim (·.wellformed) (·.wellformed)
  have hbounded : reg.Bounded := hstate.elim (·.bounded) (·.bounded)
  obtain ⟨most, hmost, hiff⟩ :=
    join_iff hw hbounded hno hwallet layers publicIp url hostId now
  refine ⟨most, hmost, hiff, ?_⟩
  intro reply reg' hj
  obtain hc | hb := hstate
  · exact carves_of_join hc hwallet hj
  · obtain ⟨donor, d, hl, hk, ho, hd, -⟩ := exists_largestDonor hw
    obtain ⟨record, hrec, -⟩ := join_ok hj
    obtain ⟨hlow, htake⟩ := joinRecord_bounds hno hl hd hrec
    have hlength := hbounded _ _ (held_eq_some.2 ⟨donor, hk, ho, hd⟩)
    have := hb.layers
    omega

/-- A host leaves, and nobody takes its range: the mother is left with 8 of 12 layers. -/
def leaving : List Event :=
  [joinEvent 4 "host-a" 0, .markReady answering "host-a" .none 1, .leave refusing "host-a"]

theorem join_iff_of_reaches_leaving : ∃ reg, registryMachine.run (demo 12) leaving = .some reg ∧
    reg.maxCarveable = .ok 7 ∧ ∀ layers, (∃ reply reg', join layers "203.0.113.7" "http://203.0.113.7:8003" "0.0.1234"
      "host-b" 2 reg = .ok reply reg') ↔ 1 ≤ layers ∧ layers ≤ 7 := by
  have hrun : ((registryMachine.run (demo 12) leaving).any fun reg =>
      reg.hosts.values.all (·.status ≠ .pending) && reg.maxCarveable.toOption = .some 7) = true := by decide
  obtain ⟨reg, hreg, hcheck⟩ := (Option.any_eq_true _ _).1 hrun
  rw [Bool.and_eq_true, decide_eq_true_eq] at hcheck
  have hno : ∀ h ∈ reg.hosts.values, h.status ≠ .pending := by simpa using hcheck.1
  have hreaches : registryMachine.Reaches (fun _ e => e.Silent) (demo 12) reg := .of_run (by simp [leaving, joinEvent, Event.Silent]) hreg
  have hmost : ∀ {most}, reg.maxCarveable = .ok most → most = 7 := by
    intro most h
    rw [h] at hcheck
    exact Option.some.inj hcheck.2
  have hwallet : ∃ wallet, validateHederaAccountId "0.0.1234" = .ok wallet := ⟨"0.0.1234", by decide⟩
  have hjoin := fun layers => join_iff_of_reaches (init_demo 12) hreaches layers "203.0.113.7"
    "http://203.0.113.7:8003" "0.0.1234" "host-b" 2
  obtain ⟨most, hm, -⟩ := (hjoin 1).1 hno hwallet
  refine ⟨reg, hreg, hmost hm ▸ hm, ?_⟩
  intro layers
  obtain ⟨most, hm, hiff, -⟩ := (hjoin layers).1 hno hwallet
  rwa [hmost hm] at hiff

end Blitzwing
