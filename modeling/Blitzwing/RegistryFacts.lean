/-
What each piece of the registry does, said once.

A range read as a `Span`, what the registry holds as an `Allocation`
(`held`: the spans of the online hosts), and one lemma for each locked piece:
when it raises, what it returns, and what it leaves of `held` and of the
records. Later modules use these and never open the pieces again.
-/
import Blitzwing.Lib.Raise
import Blitzwing.Lib.Allocation
import Blitzwing.Registry

namespace Blitzwing

/-! ## Ranges as spans -/

/-- The span a range string names; `none` where `parse_range` raises. -/
def spanOf (blockIndices : String) : Option Span :=
  match parseRange blockIndices with
  | .ok (start, «end») => .some ⟨start, «end»⟩
  | .error _ => .none

theorem parseRange_of_spanOf {r : String} {s : Span} (h : spanOf r = .some s) :
    parseRange r = .ok (s.lo, s.hi) := by
  unfold spanOf at h
  split at h
  · next he => simpa [← Option.some.inj h] using he
  · simp at h

theorem spanOf_of_parseRange {r : String} {a b : Int} (h : parseRange r = .ok (a, b)) :
    spanOf r = .some ⟨a, b⟩ := by
  simp [spanOf, h]

@[simp] theorem parseRange_formatRange (a b : Int) : parseRange (formatRange a b) = .ok (a, b) := by
  have hsplit : PyText.split (formatRange a b) ':' = [toString a, toString b] :=
    PyText.split_append (PyText.not_mem_toString_int (by decide) (by decide))
      (PyText.not_mem_toString_int (by decide) (by decide))
  simp only [parseRange, hsplit, pyInt, PyText.int?_toString]
  rfl

@[simp] theorem spanOf_formatRange (a b : Int) : spanOf (formatRange a b) = .some ⟨a, b⟩ :=
  spanOf_of_parseRange (parseRange_formatRange a b)

theorem formatRange_ne_empty (a b : Int) : formatRange a b ≠ "" := by
  intro h
  have hs := parseRange_formatRange a b
  rw [h] at hs
  simp [parseRange, PyText.split] at hs

@[simp] theorem truthy_formatRange (a b : Int) : truthy (.some (formatRange a b)) = .some (formatRange a b) := by
  unfold truthy
  split
  · next h => exact absurd (Option.some.inj h) (formatRange_ne_empty a b)
  · rfl

theorem truthy_of_ne {s : String} (h : s ≠ "") : truthy (.some s) = .some s := by
  unfold truthy
  split
  · next he => exact absurd (Option.some.inj he) h
  · rfl

theorem truthy_eq_some {o : Option String} {s : String} (h : truthy o = .some s) : o = .some s := by
  unfold truthy at h
  split at h
  · simp at h
  · exact h

theorem truthy_ne_empty {o : Option String} {s : String} (h : truthy o = .some s) : s ≠ "" := by
  rintro rfl
  obtain rfl := truthy_eq_some h
  simp [truthy] at h

theorem ne_empty_of_spanOf {r : String} {s : Span} (h : spanOf r = .some s) : r ≠ "" := by
  rintro rfl
  have : spanOf "" = .none := by decide
  simp [this] at h

/-! ## Lookups -/

theorem locked_ok {α : Type} {body : SwarmRegistry → Except PyError (α × SwarmRegistry)} {reg reg' : SwarmRegistry}
    {a : α} : locked body reg = .ok a reg' ↔ body reg = .ok (a, reg') := by
  unfold locked
  split
  · next he => simp [he]
  · next he => simp [he]

/-- A locked piece that raises has changed nothing. -/
theorem locked_error {α : Type} {body : SwarmRegistry → Except PyError (α × SwarmRegistry)}
    {reg reg' : SwarmRegistry} {e : PyError} :
    locked body reg = .error e reg' ↔ body reg = .error e ∧ reg' = reg := by
  unfold locked
  split
  · next he => simp [he]
  · next he => simp [he, eq_comm]

/-- The span an online host holds. -/
def HostRecord.span (h : HostRecord) : Option Span :=
  if h.status = .online then spanOf h.blockIndices else .none

namespace SwarmRegistry

variable {reg : SwarmRegistry}

/-- **What the registry holds**: the span of each online host. -/
def held (reg : SwarmRegistry) : Allocation String := fun k => (reg.hosts.get? k).bind HostRecord.span

/-- Every record is stored under its own id. -/
def Keyed (reg : SwarmRegistry) : Prop := ∀ k h, reg.hosts.get? k = .some h → h.hostId = k

/-- Every online host's range parses. -/
def Readable (reg : SwarmRegistry) : Prop :=
  ∀ k h, reg.hosts.get? k = .some h → h.status = .online → ∃ s, spanOf h.blockIndices = .some s

theorem held_eq_some {k : String} {s : Span} : reg.held k = .some s ↔
    ∃ h, reg.hosts.get? k = .some h ∧ h.status = .online ∧ spanOf h.blockIndices = .some s := by
  simp only [held, Option.bind_eq_some_iff, HostRecord.span]
  constructor
  · rintro ⟨h, hk, hs⟩
    split at hs
    · next ho => exact ⟨h, hk, ho, hs⟩
    · simp at hs
  · rintro ⟨h, hk, ho, hs⟩
    exact ⟨h, hk, by simpa [ho] using hs⟩

theorem held_of_get? {k : String} {h : HostRecord} (hk : reg.hosts.get? k = .some h) : reg.held k = h.span := by
  simp [held, hk]

theorem held_of_none {k : String} (hk : reg.hosts.get? k = .none) : reg.held k = .none := by
  simp [held, hk]

theorem get?_updateHost (reg : SwarmRegistry) (hostId k : String) (f : HostRecord → HostRecord) :
    (reg.updateHost hostId f).hosts.get? k =
      if k = hostId then (reg.hosts.get? k).map f else reg.hosts.get? k :=
  Dict.get?_modify reg.hosts hostId k f

theorem updateHost_congr {hostId : String} {f g : HostRecord → HostRecord}
    (h : ∀ host, reg.hosts.get? hostId = .some host → f host = g host) :
    reg.updateHost hostId f = reg.updateHost hostId g := by
  simp only [updateHost, Dict.modify_congr h]

theorem updateHost_eq_self {hostId : String} {f : HostRecord → HostRecord}
    (h : ∀ host, reg.hosts.get? hostId = .some host → f host = host) : reg.updateHost hostId f = reg := by
  rw [updateHost, Dict.modify_eq_self h]

theorem updateHost_updateHost (reg : SwarmRegistry) (hostId : String) (f g : HostRecord → HostRecord) :
    (reg.updateHost hostId f).updateHost hostId g = reg.updateHost hostId fun h => g (f h) := by
  simp only [updateHost, Dict.modify_modify]

theorem held_updateHost (reg : SwarmRegistry) (hostId : String) (f : HostRecord → HostRecord) :
    (reg.updateHost hostId f).held =
      Function.update reg.held hostId ((reg.hosts.get? hostId).bind fun h => (f h).span) := by
  funext k
  simp only [held, get?_updateHost, Function.update_apply]
  split
  · next hk => subst hk; cases reg.hosts.get? k <;> rfl
  · rfl

theorem held_set (reg : SwarmRegistry) (hostId : String) (h : HostRecord) :
    held { reg with hosts := reg.hosts.set hostId h } = Function.update reg.held hostId h.span := by
  funext k
  simp only [held, Dict.get?_set, Function.update_apply]
  split <;> rfl

theorem held_erase (reg : SwarmRegistry) (hostId : String) :
    held { reg with hosts := reg.hosts.erase hostId } = reg.held.release hostId := by
  funext k
  simp only [held, Dict.get?_erase, Allocation.release, Function.update_apply]
  split <;> rfl

theorem mem_values_of_held {k : String} {s : Span} (h : reg.held k = .some s) :
    ∃ r ∈ reg.hosts.values, reg.hosts.get? k = .some r ∧ r.status = .online ∧ spanOf r.blockIndices = .some s := by
  obtain ⟨r, hk, ho, hs⟩ := held_eq_some.1 h
  exact ⟨r, Dict.mem_values.2 ⟨k, hk⟩, hk, ho, hs⟩

theorem Keyed.get? (hk : reg.Keyed) {h : HostRecord} (hv : h ∈ reg.hosts.values) :
    reg.hosts.get? h.hostId = .some h := by
  obtain ⟨k, hget⟩ := Dict.mem_values.1 hv
  rwa [hk k h hget]

theorem Keyed.held (hk : reg.Keyed) {h : HostRecord} (hv : h ∈ reg.hosts.values) : reg.held h.hostId = h.span :=
  held_of_get? (hk.get? hv)

theorem Keyed.nodup (hk : reg.Keyed) : (reg.hosts.values.map (·.hostId)).Nodup := by
  have hids : reg.hosts.values.map (·.hostId) = reg.hosts.keys := by
    simp only [Dict.values, Dict.keys, List.map_map]
    exact List.map_congr_left fun p hp => hk p.1 p.2 (Dict.get?_eq_some.2 hp)
  rw [hids]
  exact reg.hosts.nodup

theorem Readable.span (hr : reg.Readable) {h : HostRecord} (hv : h ∈ reg.hosts.values)
    (ho : h.status = .online) : ∃ s, spanOf h.blockIndices = .some s := by
  obtain ⟨k, hget⟩ := Dict.mem_values.1 hv
  exact hr k h hget ho

/-- No other online host has a layer of `s`. -/
def Clear (reg : SwarmRegistry) (hostId : String) (s : Span) : Prop :=
  ∀ j ∈ reg.hosts.keys, j ≠ hostId → ∀ t ∈ reg.held j, ¬ t.Meets s

instance (reg : SwarmRegistry) (hostId : String) (s : Span) : Decidable (reg.Clear hostId s) :=
  inferInstanceAs (Decidable (∀ j ∈ reg.hosts.keys, j ≠ hostId → ∀ t ∈ reg.held j, _))

theorem clear_iff {hostId : String} {s : Span} :
    reg.Clear hostId s ↔ ∀ j ≠ hostId, ∀ x ∈ s, ¬ reg.held.Holds j x := by
  constructor
  · rintro h j hj x hx ⟨t, ht, hxt⟩
    obtain ⟨g, hg, -⟩ := held_eq_some.1 ht
    exact h j (Dict.mem_keys.2 ⟨g, hg⟩) hj t ht (Span.meets_iff.2 ⟨x, hxt, hx⟩)
  · intro h j _ hj t ht hm
    obtain ⟨x, hxt, hx⟩ := Span.meets_iff.1 hm
    exact h j hj x hx ⟨t, ht, hxt⟩

/-! ## Choosing who absorbs a range -/

/-- What merging `r` into a donor that holds `d` gives. An adjacent range is
joined as it is; the hull has to be free of every other host. -/
def MergesTo (reg : SwarmRegistry) (donorId : String) (d r m : Span) : Prop :=
  (d.hi = r.lo ∧ m = ⟨d.lo, r.hi⟩) ∨ (r.hi = d.lo ∧ m = ⟨r.lo, d.hi⟩) ∨
    (m = d.hull r ∧ ∀ j ≠ donorId, ∀ s, reg.held j = .some s → m.Apart s)

theorem MergesTo.inLayers {donorId : String} {d r m : Span} {n : Int} (hm : reg.MergesTo donorId d r m)
    (hd : d.InLayers n) (hr : r.InLayers n) : m.InLayers n := by
  simp only [Span.InLayers] at *
  rcases hm with ⟨_, rfl⟩ | ⟨_, rfl⟩ | ⟨rfl, -⟩ <;> simp only [Span.hull] <;> omega

theorem MergesTo.covers {donorId : String} {d r m : Span} (hm : reg.MergesTo donorId d r m) (hd : d.lo ≤ d.hi) :
    m.Covers r := by
  rcases hm with ⟨_, rfl⟩ | ⟨_, rfl⟩ | ⟨rfl, -⟩
  · simp only [Span.Covers]
    omega
  · simp only [Span.Covers]
    omega
  · exact Span.hull_covers_right d r

/-- A merge has no layer of another host, if neither of its parts has. -/
theorem MergesTo.free {donorId : String} {d r m : Span} (hm : reg.MergesTo donorId d r m)
    (hd : ∀ j ≠ donorId, ∀ x ∈ d, ¬ reg.held.Holds j x) (hr : ∀ j, ∀ x ∈ r, ¬ reg.held.Holds j x) :
    ∀ j ≠ donorId, ∀ x ∈ m, ¬ reg.held.Holds j x := by
  intro j hj x hx
  rcases hm with ⟨hadj, rfl⟩ | ⟨hadj, rfl⟩ | ⟨-, hapart⟩
  · by_cases hxd : x ∈ d
    · exact hd j hj x hxd
    · exact hr j x (by simp only [Span.mem_iff] at *; omega)
  · by_cases hxd : x ∈ d
    · exact hd j hj x hxd
    · exact hr j x (by simp only [Span.mem_iff] at *; omega)
  · rintro ⟨s, hs, hxs⟩
    exact (hapart j hj s hs).not_mem hx hxs

/-- The ranges of the other online hosts, as `_can_merge_ranges` collects them. -/
theorem occupied_eq (hk : reg.Keyed) (hr : reg.Readable) (donorId : String) :
    ∃ occupied, (reg.hosts.values.filter fun h => h.hostId ≠ donorId ∧ h.status = .online).mapM
        (fun h => parseRange h.blockIndices) = .ok occupied ∧
      ∀ p, p ∈ occupied ↔ ∃ j ≠ donorId, ∃ s, reg.held j = .some s ∧ p = (s.lo, s.hi) := by
  let g : HostRecord → Int × Int := fun h => ((spanOf h.blockIndices).elim (0, 0) fun s => (s.lo, s.hi))
  refine ⟨_, mapM_ok (g := g) fun h hv => ?_, fun p => ?_⟩
  · simp only [List.mem_filter, decide_eq_true_eq] at hv
    obtain ⟨s, hs⟩ := hr.span hv.1 hv.2.2
    simp [g, hs, parseRange_of_spanOf hs]
  simp only [List.mem_map, List.mem_filter, decide_eq_true_eq]
  constructor
  · rintro ⟨h, ⟨hv, hne, ho⟩, rfl⟩
    obtain ⟨s, hs⟩ := hr.span hv ho
    exact ⟨h.hostId, hne, s, held_eq_some.2 ⟨h, hk.get? hv, ho, hs⟩, by simp [g, hs]⟩
  · rintro ⟨j, hj, s, hs, rfl⟩
    obtain ⟨h, hv, hget, ho, hsp⟩ := mem_values_of_held hs
    exact ⟨h, ⟨hv, by rwa [hk j h hget], ho⟩, by simp [g, hsp]⟩

theorem canMergeRanges_eq (hk : reg.Keyed) (hr : reg.Readable) {donor : HostRecord} {d : Span}
    (hd : spanOf donor.blockIndices = .some d) (r : Span) :
    ∃ o, reg.canMergeRanges donor r.lo r.hi = .ok o ∧
      (∀ new, o = .some new → ∃ m : Span, new = formatRange m.lo m.hi ∧ reg.MergesTo donor.hostId d r m) ∧
      (o = .none → d.hi ≠ r.lo ∧ r.hi ≠ d.lo ∧
        ∃ j ≠ donor.hostId, ∃ s, reg.held j = .some s ∧ ¬ (d.hull r).Apart s) := by
  obtain ⟨occupied, hocc, hmem⟩ := occupied_eq hk hr donor.hostId
  simp only [canMergeRanges, parseRange_of_spanOf hd, ok_bind, hocc]
  by_cases h₁ : d.hi = r.lo
  · refine ⟨.some (formatRange d.lo r.hi), by simp [h₁], ?_, by simp⟩
    rintro _ ⟨⟩
    exact ⟨⟨d.lo, r.hi⟩, rfl, .inl ⟨h₁, rfl⟩⟩
  by_cases h₂ : r.hi = d.lo
  · refine ⟨.some (formatRange r.lo d.hi), by simp [h₁, h₂], ?_, by simp⟩
    rintro _ ⟨⟩
    exact ⟨⟨r.lo, d.hi⟩, rfl, .inr (.inl ⟨h₂, rfl⟩)⟩
  simp only [h₁, h₂, if_false]
  split
  · next hany =>
    refine ⟨.none, rfl, by simp, fun _ => ⟨h₁, h₂, ?_⟩⟩
    obtain ⟨p, hp, hcut⟩ := List.any_eq_true.1 hany
    obtain ⟨j, hj, s, hs, rfl⟩ := (hmem p).1 hp
    simp only [decide_eq_true_eq] at hcut
    exact ⟨j, hj, s, hs, hcut⟩
  · next hany =>
    refine ⟨_, rfl, ?_, by simp⟩
    rintro _ ⟨⟩
    refine ⟨d.hull r, rfl, .inr (.inr ⟨rfl, fun j hj s hs => ?_⟩)⟩
    by_contra hcut
    exact hany (List.any_eq_true.2 ⟨_, (hmem _).2 ⟨j, hj, s, hs, rfl⟩, decide_eq_true hcut⟩)

/-- The first adjacent online host; where there is none, no host is adjacent. -/
theorem findAdjacentDonor_eq (hr : reg.Readable) (r : Span) :
    ∃ o, reg.findAdjacentDonor r.lo r.hi = .ok o ∧
      (∀ h, o = .some h → h ∈ reg.hosts.values ∧ h.status = .online ∧
        ∃ d, spanOf h.blockIndices = .some d ∧ (d.hi = r.lo ∨ r.hi = d.lo)) ∧
      (o = .none → ∀ j d, reg.held j = .some d → d.hi ≠ r.lo ∧ r.hi ≠ d.lo) := by
  let p : HostRecord → Bool := fun h => h.status = .online ∧
    (spanOf h.blockIndices).any fun d => d.hi = r.lo ∨ r.hi = d.lo
  refine ⟨_, findM?_ok (p := p) fun h hv => ?_, fun h he => ?_, fun he j d hd => ?_⟩
  · by_cases ho : h.status = .online
    · obtain ⟨d, hd⟩ := hr.span hv ho
      simp [p, ho, hd, parseRange_of_spanOf hd]
    · simp [p, ho]
  · have hp := List.find?_some he
    simp only [p, Bool.decide_and, Bool.and_eq_true, decide_eq_true_eq, Option.any_eq_true] at hp
    obtain ⟨ho, d, hd, hadj⟩ := hp
    exact ⟨List.mem_of_find?_eq_some he, ho, d, hd, by simpa using hadj⟩
  · obtain ⟨h, hv, -, ho, hs⟩ := mem_values_of_held hd
    have hp := List.find?_eq_none.1 he h hv
    simp [p, ho, hs] at hp
    exact hp

theorem chooseAbsorber_eq (hk : reg.Keyed) (hr : reg.Readable) (r : Span) {cs : List HostRecord}
    (hcs : ∀ h ∈ cs, h.status = .online ∧ h ∈ reg.hosts.values) (chosen : Option (HostRecord × String)) :
    ∃ o, reg.chooseAbsorber r.lo r.hi cs chosen = .ok o ∧
      (∀ c, o = .some c → chosen = .some c ∨
        c.1 ∈ cs ∧ reg.canMergeRanges c.1 r.lo r.hi = .ok (.some c.2)) ∧
      (o = .none → chosen = .none ∧ ∀ h ∈ cs, reg.canMergeRanges h r.lo r.hi = .ok .none) := by
  induction cs generalizing chosen with
  | nil => exact ⟨chosen, rfl, fun c hc => .inl hc, fun hc => ⟨hc, by simp⟩⟩
  | cons donor rest ih =>
    simp only [List.mem_cons, forall_eq_or_imp] at hcs
    obtain ⟨d, hd⟩ := hr.span hcs.1.2 hcs.1.1
    obtain ⟨merged, hm, -, -⟩ := canMergeRanges_eq hk hr hd r
    simp only [chooseAbsorber, hm, ok_bind]
    cases merged with
    | some new =>
      simp only
      split
      · exact ⟨_, rfl, by rintro _ ⟨⟩; exact .inr ⟨by simp, hm⟩, by simp⟩
      · obtain ⟨o, ho, hsome, hnone⟩ := ih hcs.2 (.some (donor, new))
        refine ⟨o, ho, fun c hc => ?_, fun hc => absurd (hnone hc).1 (by simp)⟩
        rcases hsome c hc with ⟨⟨⟩⟩ | ⟨hmem, hc⟩
        · exact .inr ⟨by simp, hm⟩
        · exact .inr ⟨List.mem_cons_of_mem _ hmem, hc⟩
    | none =>
      obtain ⟨o, ho, hsome, hnone⟩ := ih hcs.2 chosen
      refine ⟨o, ho, fun c hc => ?_, fun hc => ⟨(hnone hc).1, ?_⟩⟩
      · exact (hsome c hc).imp_right fun ⟨hmem, hc⟩ => ⟨List.mem_cons_of_mem _ hmem, hc⟩
      · simpa [hm] using (hnone hc).2

theorem motherLocked_mem {h : HostRecord} (hm : reg.motherLocked = .some h) :
    h.status = .online ∧ h ∈ reg.hosts.values := by
  obtain ⟨hget, ho⟩ := Option.filter_eq_some_iff.1 hm
  exact ⟨by simpa using ho, Dict.mem_values.2 ⟨_, hget⟩⟩

theorem largestDonorLocked_mem {h : HostRecord} (hl : reg.largestDonorLocked = .some h) :
    h.status = .online ∧ h ∈ reg.hosts.values := by
  have := List.maxOn?_mem hl
  simp only [List.mem_filter, decide_eq_true_eq] at this
  exact ⟨this.2, this.1⟩

theorem mem_addCandidate {cs : List HostRecord} {o : Option HostRecord} {h : HostRecord} :
    h ∈ addCandidate cs o ↔ h ∈ cs ∨ o = .some h := by
  cases o with
  | none => simp [addCandidate]
  | some h' =>
    simp only [addCandidate, Option.some.injEq]
    split
    · next hmem =>
      refine ⟨.inl, fun hh => hh.elim id ?_⟩
      rintro rfl
      exact hmem
    · simp [eq_comm]

/-- The candidates are online, and an adjacent host is among them where there is one. -/
theorem reclaimCandidates_eq (hr : reg.Readable) (r : Span) :
    ∃ cs, reg.reclaimCandidates r.lo r.hi = .ok cs ∧
      (∀ h ∈ cs, h.status = .online ∧ h ∈ reg.hosts.values) ∧
      ((∃ j d, reg.held j = .some d ∧ (d.hi = r.lo ∨ r.hi = d.lo)) →
        ∃ h ∈ cs, ∃ d, spanOf h.blockIndices = .some d ∧ (d.hi = r.lo ∨ r.hi = d.lo)) := by
  obtain ⟨adjacent, hadj, hsome, hnone⟩ := findAdjacentDonor_eq hr r
  simp only [reclaimCandidates, hadj, ok_bind]
  refine ⟨_, rfl, ?_, ?_⟩
  · intro h hh
    simp only [mem_addCandidate, Option.mem_toList] at hh
    rcases hh with (hm | rfl) | hl
    · exact motherLocked_mem hm
    · exact ⟨(hsome h rfl).2.1, (hsome h rfl).1⟩
    · exact largestDonorLocked_mem hl
  · rintro ⟨j, d, hd, hda⟩
    cases adjacent with
    | none => exact absurd (hnone rfl j d hd) (by tauto)
    | some h =>
      exact ⟨h, mem_addCandidate.2 (.inl (mem_addCandidate.2 (.inr rfl))), (hsome h rfl).2.2⟩

end SwarmRegistry

/-! ## The locked pieces -/

open SwarmRegistry

variable {reg : SwarmRegistry}

/-- What `_reclaim_range` decides: an online donor, and its range merged with `r`. -/
def ReclaimPlan.Absorbs (plan : ReclaimPlan) (reg : SwarmRegistry) (r : Span) : Prop :=
  ∃ d m : Span, reg.held plan.donorId = .some d ∧ plan.newRange = formatRange m.lo m.hi ∧
    reg.MergesTo plan.donorId d r m

/-- `_reclaim_range` gives up only where no host is adjacent. -/
theorem reclaimLocked_eq (hk : reg.Keyed) (hr : reg.Readable) {range : String} {r : Span}
    (hrange : spanOf range = .some r) : ∃ o, reclaimLocked reg range = .ok o ∧
      (∀ plan, o = .some plan → plan.Absorbs reg r) ∧
      (o = .none → ∀ j d, reg.held j = .some d → d.hi ≠ r.lo ∧ r.hi ≠ d.lo) := by
  obtain ⟨cs, hcs, hmem, hadj⟩ := reclaimCandidates_eq hr r
  obtain ⟨o, ho, hsome, hnone⟩ := chooseAbsorber_eq hk hr r hmem .none
  simp only [reclaimLocked, parseRange_of_spanOf hrange, ok_bind, hcs, ho]
  cases o with
  | some c =>
    refine ⟨_, rfl, ?_, by simp⟩
    rintro _ ⟨⟩
    rcases hsome c rfl with h | ⟨hc, hmerge⟩
    · simp at h
    obtain ⟨hon, hv⟩ := hmem _ hc
    obtain ⟨d, hd⟩ := hr.span hv hon
    obtain ⟨o', ho', hnew, -⟩ := canMergeRanges_eq hk hr hd r
    obtain rfl : o' = .some c.2 := by simpa [ho'] using hmerge
    obtain ⟨m, hm, hmt⟩ := hnew c.2 rfl
    exact ⟨d, m, held_eq_some.2 ⟨_, hk.get? hv, hon, hd⟩, hm, hmt⟩
  | none =>
    refine ⟨.none, rfl, by simp, fun _ j d hd => ?_⟩
    by_contra hcon
    obtain ⟨h, hc, d', hd', hda⟩ := hadj ⟨j, d, hd, by tauto⟩
    obtain ⟨o', ho', -, hno⟩ := canMergeRanges_eq hk hr hd' r
    obtain rfl : o' = .none := by simpa [ho'] using (hnone rfl).2 h hc
    have := hno rfl
    tauto

theorem rangeCoveredByOnline_eq (hk : reg.Keyed) (hr : reg.Readable) {range : String} {r : Span}
    (hrange : spanOf range = .some r) (skip : Option String) :
    ∃ b, reg.rangeCoveredByOnline range skip = .ok b ∧
      (b = true ↔ ∃ j s, .some j ≠ skip ∧ reg.held j = .some s ∧ s.Covers r) := by
  let p : HostRecord → Bool := fun h => (.some h.hostId ≠ skip ∧ h.status = .online) ∧
    (spanOf h.blockIndices).any fun s => s.lo ≤ r.lo ∧ r.hi ≤ s.hi
  simp only [rangeCoveredByOnline, parseRange_of_spanOf hrange, ok_bind]
  refine ⟨_, anyM_ok (p := p) fun h hv => ?_, ?_⟩
  · by_cases hskip : .some h.hostId = skip ∨ h.status ≠ .online
    · have hno : ¬ (.some h.hostId ≠ skip ∧ h.status = .online) := by tauto
      simp only [hskip, if_true, p, hno, false_and, decide_false]
      rfl
    · obtain ⟨hs, ho⟩ := not_or.1 hskip
      obtain ⟨s, hsp⟩ := hr.span hv (not_not.1 ho)
      simp [p, hs, not_not.1 ho, hsp, parseRange_of_spanOf hsp]
  simp only [List.any_eq_true, p, decide_eq_true_eq, Option.any_eq_true]
  constructor
  · rintro ⟨h, hv, ⟨hs, ho⟩, s, hsp, hcov⟩
    exact ⟨h.hostId, s, hs, held_eq_some.2 ⟨h, hk.get? hv, ho, hsp⟩, hcov⟩
  · rintro ⟨j, s, hs, hj, hcov⟩
    obtain ⟨h, hv, hget, ho, hsp⟩ := mem_values_of_held hj
    exact ⟨h, hv, ⟨by rwa [hk j h hget], ho⟩, s, hsp, hcov⟩

/-- `leave` deletes the host, who is a contributor. -/
theorem leaveLocked_ok {hostId : String} {o : Option String} {reg' : SwarmRegistry}
    (h : leaveLocked hostId reg = .ok o reg') : ∃ host range, reg.hosts.get? hostId = .some host ∧
      host.role ≠ .mother ∧ reg.rangeToReclaim hostId = .ok range ∧ o = truthy range ∧
      reg' = { reg with hosts := reg.hosts.erase hostId } := by
  obtain ⟨range, hrange, he⟩ := bind_eq_ok.1 (locked_ok.1 h)
  obtain ⟨rfl, rfl⟩ := Prod.mk.inj (Except.ok.inj he)
  have hcase := hrange
  simp only [rangeToReclaim] at hcase
  split at hcase
  · simp at hcase
  · next host hget =>
    split at hcase
    · simp at hcase
    · next hrole => exact ⟨host, range, hget, hrole, hrange, rfl, rfl⟩

/-- The range an online host leaves behind. -/
theorem rangeToReclaim_online {hostId : String} {host : HostRecord} (hget : reg.hosts.get? hostId = .some host)
    (hrole : host.role ≠ .mother) (ho : host.status = .online) :
    reg.rangeToReclaim hostId = .ok (.some host.blockIndices) := by
  simp [rangeToReclaim, hget, hrole, ho]

/-- A pending host leaves a range behind only where no online host has it. -/
theorem rangeToReclaim_pending (hk : reg.Keyed) (hr : reg.Readable) {hostId : String} {host : HostRecord} {r : Span}
    (hget : reg.hosts.get? hostId = .some host) (hrole : host.role ≠ .mother) (hp : host.status = .pending)
    (hs : spanOf host.blockIndices = .some r) : ∃ o, reg.rangeToReclaim hostId = .ok o ∧
      ((o = .none ∧ ∃ j s, reg.held j = .some s ∧ s.Covers r) ∨
        (o = .some host.blockIndices ∧ ∀ j s, reg.held j = .some s → ¬ s.Covers r)) := by
  obtain ⟨b, hb, hiff⟩ := rangeCoveredByOnline_eq hk hr hs (.some host.hostId)
  have hself : reg.held hostId = .none := by simp [held_of_get? hget, HostRecord.span, hp]
  simp only [rangeToReclaim, hget, hrole, if_false, hp, hb, ok_bind]
  cases b with
  | true =>
    obtain ⟨j, s, -, hj, hcov⟩ := hiff.1 rfl
    exact ⟨_, rfl, .inl ⟨rfl, j, s, hj, hcov⟩⟩
  | false =>
    refine ⟨_, rfl, .inr ⟨rfl, fun j s hj hcov => ?_⟩⟩
    refine absurd (hiff.2 ⟨j, s, ?_, hj, hcov⟩) (by simp)
    rintro ⟨⟩
    rw [hk _ _ hget, hself] at hj
    simp at hj

theorem shrinkPlan_ok {hostId : String} {host : HostRecord} {plan : ShrinkPlan}
    (h : reg.shrinkPlan hostId host = .ok plan) : plan.hostId = hostId ∧ host.donorHostId = .some plan.donorId ∧
      (∃ donor, reg.hosts.get? plan.donorId = .some donor) ∧ host.donorShrinkTo = .some plan.shrinkTo ∧
      plan.assigned = (truthy host.pendingRange).getD host.blockIndices := by
  simp only [shrinkPlan] at h
  split at h
  · next donorId donor shrinkTo hdonor hshrink =>
    obtain ⟨d, hd, hmap⟩ := Option.bind_eq_some_iff.1 hdonor
    obtain ⟨r, hr, hpair⟩ := Option.map_eq_some_iff.1 hmap
    obtain ⟨rfl, rfl⟩ := Prod.mk.inj hpair
    obtain ⟨_, -, h⟩ := bind_eq_ok.1 h
    obtain ⟨_, -, h⟩ := bind_eq_ok.1 h
    obtain rfl := Except.ok.inj h
    exact ⟨rfl, truthy_eq_some hd, ⟨r, hr⟩, truthy_eq_some hshrink, rfl⟩
  · simp at h

/-- What `mark_ready` has checked when it lets go of the lock. -/
theorem markReadyCheck_ok {hostId : String} {peer : Option String} {check : ReadyCheck} {reg' : SwarmRegistry}
    (h : markReadyCheck hostId peer reg = .ok check reg') : ∃ host, reg.hosts.get? hostId = .some host ∧
      ((host.status = .online ∧ check = .online host ∧ reg' = reg) ∨
        ∃ plan, host.status ≠ .online ∧ reg.shrinkPlan hostId host = .ok plan ∧ check = .shrink plan ∧
          (reg' = reg ∨ ∃ p, reg' = reg.updateHost hostId fun h => { h with peerMultiaddr := .some p })) := by
  have hb := locked_ok.1 h
  split at hb
  · simp at hb
  next host hget =>
  refine ⟨host, hget, ?_⟩
  split at hb
  · next ho =>
    obtain ⟨rfl, rfl⟩ := Prod.mk.inj (Except.ok.inj hb)
    exact .inl ⟨ho, rfl, rfl⟩
  · next ho =>
    obtain ⟨plan, hplan, hb⟩ := bind_eq_ok.1 hb
    split at hb
    · next p _ =>
      obtain ⟨rfl, rfl⟩ := Prod.mk.inj (Except.ok.inj hb)
      exact .inr ⟨plan, ho, hplan, rfl, .inr ⟨p, rfl⟩⟩
    · obtain ⟨rfl, rfl⟩ := Prod.mk.inj (Except.ok.inj hb)
      exact .inr ⟨plan, ho, hplan, rfl, .inl rfl⟩

/-- Whatever raises in a locked piece raises before the piece changes anything. -/
theorem markReadyCheck_error {hostId : String} {peer : Option String} {e : PyError} {reg' : SwarmRegistry}
    (h : markReadyCheck hostId peer reg = .error e reg') : reg' = reg := (locked_error.1 h).2

theorem leaveLocked_error {hostId : String} {e : PyError} {reg' : SwarmRegistry}
    (h : leaveLocked hostId reg = .error e reg') : reg' = reg := (locked_error.1 h).2

theorem reclaimCommit_error {plan : ReclaimPlan} {e : PyError} {reg' : SwarmRegistry}
    (h : reclaimCommit plan reg = .error e reg') : reg' = reg := (locked_error.1 h).2

/-- The record `mark_ready` leaves of a newcomer. -/
def HostRecord.readied (h : HostRecord) (assigned : String) (layers now : Int) : HostRecord :=
  { h with
    blockIndices := assigned
    layersHosted := layers
    status := .online
    lastHeartbeat := now
    pendingRange := .none
    donorShrinkTo := .none }

/-- The record of a host whose range was set after a reload. -/
def HostRecord.resized (h : HostRecord) (range : String) (layers : Int) : HostRecord :=
  { h with blockIndices := range, layersHosted := layers }

@[simp] theorem addBootstrapPeer_hosts (reg : SwarmRegistry) (peer : Option String) :
    (reg.addBootstrapPeer peer).hosts = reg.hosts := by
  unfold addBootstrapPeer
  split
  · split <;> rfl
  · rfl

@[simp] theorem addBootstrapPeer_totalLayers (reg : SwarmRegistry) (peer : Option String) :
    (reg.addBootstrapPeer peer).totalLayers = reg.totalLayers := by
  unfold addBootstrapPeer
  split
  · split <;> rfl
  · rfl

/-- Resizing a host: if it is online, it holds its new range. -/
theorem SwarmRegistry.Readable.held_resize (hr : reg.Readable) (donorId : String) {range : String}
    {m : Span} (hm : spanOf range = .some m) :
    (reg.updateHost donorId fun d => d.resized range m.length).held =
      if (reg.held donorId).isSome then reg.held.assign donorId m else reg.held := by
  rw [held_updateHost]
  split
  · next hd =>
    obtain ⟨d, hd⟩ := Option.isSome_iff_exists.1 hd
    obtain ⟨donor, hk, hon, -⟩ := held_eq_some.1 hd
    simp [hk, Allocation.assign, HostRecord.span, HostRecord.resized, hon, hm]
  · next hd =>
    rw [Option.not_isSome_iff_eq_none] at hd
    refine (congrArg _ ?_).trans (Function.update_eq_self donorId reg.held)
    cases hk : reg.hosts.get? donorId with
    | none => simp [hd]
    | some donor =>
      have hoff : donor.status ≠ .online := by
        intro hon
        obtain ⟨s, hsp⟩ := hr _ _ hk hon
        simp [held_of_get? hk, HostRecord.span, hon, hsp] at hd
      simp [HostRecord.span, HostRecord.resized, hoff, hd]

/-- What `mark_ready` commits, where both hosts are still registered. -/
theorem markReadyCommit_ok {plan : ShrinkPlan} {keep give : Span} (hk : spanOf plan.shrinkTo = .some keep)
    (hg : spanOf plan.assigned = .some give) {peer : Option String} {now : Int} {ret : HostRecord}
    (h : markReadyCommit plan peer now reg = .ok ret reg') :
    ∃ host donor, reg.hosts.get? plan.hostId = .some host ∧ reg.hosts.get? plan.donorId = .some donor ∧
      reg'.totalLayers = reg.totalLayers ∧ ∀ k, reg'.hosts.get? k =
        if k = plan.hostId then (reg.hosts.get? k).map fun h =>
          ((if k = plan.donorId then h.resized plan.shrinkTo keep.length else h).readied plan.assigned give.length now)
        else if k = plan.donorId then (reg.hosts.get? k).map (·.resized plan.shrinkTo keep.length)
        else reg.hosts.get? k := by
  simp only [markReadyCommit, parseRange_of_spanOf hk, parseRange_of_spanOf hg] at h
  cases hh : reg.hosts.get? plan.hostId with
  | none => simp [hh] at h
  | some host =>
  cases hd : reg.hosts.get? plan.donorId with
  | none => simp [hh, hd] at h
  | some donor =>
    simp only [hh, hd] at h
    obtain ⟨-, rfl⟩ := EStateM.Result.ok.inj h
    refine ⟨host, donor, rfl, rfl, addBootstrapPeer_totalLayers _ _, fun k => ?_⟩
    simp only [addBootstrapPeer_hosts, get?_updateHost]
    split
    · split <;> simp [HostRecord.readied, HostRecord.resized, Function.comp_def, Span.length]
    · rfl

/-- `mark_ready` returns the record it leaves. -/
theorem markReadyCommit_returns {plan : ShrinkPlan} {keep give : Span} (hk : spanOf plan.shrinkTo = .some keep)
    (hg : spanOf plan.assigned = .some give) {peer : Option String} {now : Int} {ret : HostRecord}
    (h : markReadyCommit plan peer now reg = .ok ret reg') : reg'.hosts.get? plan.hostId = .some ret := by
  simp only [markReadyCommit, parseRange_of_spanOf hk, parseRange_of_spanOf hg] at h
  cases hh : reg.hosts.get? plan.hostId with
  | none => simp [hh] at h
  | some host =>
  cases hd : reg.hosts.get? plan.donorId with
  | none => simp [hh, hd] at h
  | some donor =>
    simp only [hh, hd] at h
    obtain ⟨rfl, rfl⟩ := EStateM.Result.ok.inj h
    simp only [addBootstrapPeer_hosts, get?_updateHost, hh, if_true, Option.map_some]
    split <;> simp

/-- A commit fails where a host is gone, and then nothing is changed. -/
theorem markReadyCommit_error {plan : ShrinkPlan} {keep give : Span} (hk : spanOf plan.shrinkTo = .some keep)
    (hg : spanOf plan.assigned = .some give) {peer : Option String} {now : Int} {e : PyError}
    (h : markReadyCommit plan peer now reg = .error e reg') :
    reg' = reg ∧ (reg.hosts.get? plan.hostId = .none ∨ reg.hosts.get? plan.donorId = .none) := by
  simp only [markReadyCommit, parseRange_of_spanOf hk, parseRange_of_spanOf hg] at h
  cases hh : reg.hosts.get? plan.hostId with
  | none =>
    simp only [hh] at h
    exact ⟨(EStateM.Result.error.inj h).2.symm, .inl rfl⟩
  | some host =>
  cases hd : reg.hosts.get? plan.donorId with
  | none =>
    simp only [hh, hd] at h
    exact ⟨(EStateM.Result.error.inj h).2.symm, .inr rfl⟩
  | some donor => simp [hh, hd] at h

/-- `_reclaim_range` commits exactly where the absorber is still registered. -/
theorem reclaimCommit_eq {plan : ReclaimPlan} {m : Span} (hm : spanOf plan.newRange = .some m)
    (reg : SwarmRegistry) :
    (reg.hosts.get? plan.donorId = .none ∧ reclaimCommit plan reg = .error (.keyError plan.donorId) reg) ∨
    ∃ donor, reg.hosts.get? plan.donorId = .some donor ∧ reclaimCommit plan reg =
      .ok () (reg.updateHost plan.donorId fun d => d.resized plan.newRange m.length) := by
  simp only [reclaimCommit, locked]
  cases hd : reg.hosts.get? plan.donorId with
  | none => exact .inl ⟨rfl, rfl⟩
  | some donor =>
    refine .inr ⟨donor, rfl, ?_⟩
    simp only [parseRange_of_spanOf hm, ok_bind]
    rfl

theorem reclaimCommit_ok {plan : ReclaimPlan} {m : Span} (hm : spanOf plan.newRange = .some m)
    (h : reclaimCommit plan reg = .ok () reg') :
    reg' = reg.updateHost plan.donorId fun d => d.resized plan.newRange m.length := by
  rcases reclaimCommit_eq hm reg with ⟨-, he⟩ | ⟨_, -, he⟩
  · simp [he] at h
  · rw [he] at h
    exact (EStateM.Result.ok.inj h).2.symm

/-! ## The methods as the sequence of their pieces -/

theorem raising_apply {α : Type} (x : Except PyError α) (reg : SwarmRegistry) :
    raising x reg = match x with
      | .ok a => .ok a reg
      | .error e => .error e reg := by
  cases x <;> rfl

theorem reclaimRange_eq (post : Reload) (range : String) (reg : SwarmRegistry) :
    reclaimRange post range reg = match reclaimLocked reg range with
      | .error e => .error e reg
      | .ok .none => .ok () reg
      | .ok (.some plan) => match reloadShardManager post plan.donorUrl plan.newRange with
        | .error e => .error e reg
        | .ok () => reclaimCommit plan reg := by
  simp only [reclaimRange, bind_apply, locked]
  cases reclaimLocked reg range with
  | error e => rfl
  | ok o =>
    cases o with
    | none => rfl
    | some plan =>
      change (raising _ >>= fun _ => reclaimCommit plan) reg = _
      rw [bind_apply, raising_apply]
      simp only
      cases reloadShardManager post plan.donorUrl plan.newRange <;> rfl

theorem leave_eq (post : Reload) (hostId : String) (reg : SwarmRegistry) :
    leave post hostId reg = match leaveLocked hostId reg with
      | .error e reg' => .error e reg'
      | .ok .none reg' => .ok () reg'
      | .ok (.some range) reg' => reclaimRange post range reg' := by
  simp only [leave, bind_apply]
  rcases leaveLocked hostId reg with ⟨_ | range, reg'⟩ | ⟨e, reg'⟩ <;> rfl

theorem markReady_eq (post : Reload) (hostId : String) (peer : Option String) (now : Int) (reg : SwarmRegistry) :
    markReady post hostId peer now reg = match markReadyCheck hostId peer reg with
      | .error e reg' => .error e reg'
      | .ok (.online host) reg' => .ok host reg'
      | .ok (.shrink plan) reg' => match reloadShardManager post plan.donorUrl plan.shrinkTo with
        | .error e => .error e reg'
        | .ok () => markReadyCommit plan peer now reg' := by
  simp only [markReady, bind_apply]
  rcases markReadyCheck hostId peer reg with ⟨_ | plan, reg'⟩ | ⟨e, reg'⟩
  · rfl
  · change (raising _ >>= fun _ => markReadyCommit plan peer now) reg' = _
    rw [bind_apply, raising_apply]
    simp only
    cases reloadShardManager post plan.donorUrl plan.shrinkTo <;> rfl
  · rfl

/-- The registry a call leaves, whether it returns or raises. -/
def after {α : Type} (x : SwarmM α) (reg : SwarmRegistry) : SwarmRegistry :=
  match x reg with
  | .ok _ reg' => reg'
  | .error _ reg' => reg'

@[simp] theorem after_of_ok {α : Type} {x : SwarmM α} {a : α} {reg' : SwarmRegistry} (h : x reg = .ok a reg') :
    after x reg = reg' := by
  simp [after, h]

@[simp] theorem after_of_error {α : Type} {x : SwarmM α} {e : PyError} {reg' : SwarmRegistry}
    (h : x reg = .error e reg') : after x reg = reg' := by
  simp [after, h]

theorem after_bind_ok {α β : Type} {x : SwarmM α} {f : α → SwarmM β} {a : α} {reg' : SwarmRegistry}
    (h : x reg = .ok a reg') : after (x >>= f) reg = after (f a) reg' := by
  simp only [after, bind_apply, h]

theorem after_bind_error {α β : Type} {x : SwarmM α} {f : α → SwarmM β} {e : PyError} {reg' : SwarmRegistry}
    (h : x reg = .error e reg') : after (x >>= f) reg = reg' := by
  simp only [after, bind_apply, h]

theorem after_bind_pure {α β : Type} (x : SwarmM α) (f : α → β) (reg : SwarmRegistry) :
    after (x >>= fun a => pure (f a)) reg = after x reg := by
  simp only [after, bind_apply]
  cases x reg <;> rfl

/-- `attempt` swallows the exception and keeps what was changed. -/
theorem attempt_apply (x : SwarmM Unit) (reg : SwarmRegistry) : ∃ b, attempt x reg = .ok b (after x reg) := by
  simp only [attempt, after]
  cases x reg with
  | ok _ reg' => exact ⟨true, rfl⟩
  | error _ reg' => exact ⟨false, rfl⟩

/-- What a registry has, and has after any commit of the reclaim, it has
whatever becomes of the reclaim. -/
theorem reclaimRange_keeps {P : SwarmRegistry → Prop} (post : Reload) {range : String} (h : P reg)
    (hcommit : ∀ plan reg', reclaimLocked reg range = .ok (.some plan) → reclaimCommit plan reg = .ok () reg' →
      P reg') : P (after (reclaimRange post range) reg) := by
  simp only [after, reclaimRange_eq]
  cases hl : reclaimLocked reg range with
  | error e => exact h
  | ok o =>
    cases o with
    | none => exact h
    | some plan =>
      simp only
      cases reloadShardManager post plan.donorUrl plan.newRange with
      | error e => exact h
      | ok _ =>
        simp only
        cases hcm : reclaimCommit plan reg with
        | ok _ reg' => exact hcommit plan reg' hl hcm
        | error e reg' =>
          obtain rfl := reclaimCommit_error hcm
          exact h

/-- A departure is refused, or deletes the host and reclaims its range if need be. -/
theorem leave_keeps {P : SwarmRegistry → Prop} (post : Reload) {hostId : String} (h : P reg)
    (hdelete : ∀ reg', leaveLocked hostId reg = .ok .none reg' → P reg')
    (hreclaim : ∀ range reg', leaveLocked hostId reg = .ok (.some range) reg' →
      P (after (reclaimRange post range) reg')) : P (after (leave post hostId) reg) := by
  cases hl : leaveLocked hostId reg with
  | error e reg' =>
    obtain rfl := leaveLocked_error hl
    rwa [show after (leave post hostId) reg' = reg' by simp only [after, leave_eq, hl]]
  | ok o reg' =>
    cases o with
    | none =>
      rw [show after (leave post hostId) reg = reg' by simp only [after, leave_eq, hl]]
      exact hdelete reg' hl
    | some range =>
      rw [show after (leave post hostId) reg = after (reclaimRange post range) reg' by
        simp only [after, leave_eq, hl]]
      exact hreclaim range reg' hl

theorem reapLoop_cons (post : String → Reload) (victim : String) (victims : List String) :
    after (reapLoop post (victim :: victims)) reg =
      after (reapLoop post victims) (after (leave (post victim) victim) reg) := by
  obtain ⟨left, hleft⟩ := attempt_apply (leave (post victim) victim) reg
  rw [reapLoop, after_bind_ok hleft, after_bind_pure]

/-- What every departure keeps, a reap of any victims keeps. -/
theorem reapLoop_keeps {P : SwarmRegistry → Prop} {post : String → Reload}
    (hstep : ∀ victim reg, P reg → P (after (leave (post victim) victim) reg)) (victims : List String)
    (h : P reg) : P (after (reapLoop post victims) reg) := by
  induction victims generalizing reg with
  | nil => exact h
  | cons victim victims ih =>
    rw [reapLoop_cons]
    exact ih (hstep victim reg h)

/-! ## A fresh registry -/

theorem init_ok {model url : String} {totalLayers now : Int} {wallet : Option String}
    (h : SwarmRegistry.init model totalLayers url wallet now = .ok reg) : reg.totalLayers = totalLayers ∧
      ∃ mother : HostRecord, mother.hostId = "mother" ∧ mother.role = .mother ∧ mother.status = .online ∧
        mother.blockIndices = formatRange 0 totalLayers ∧ mother.layersHosted = totalLayers ∧ mother.ensName = .none ∧
        ∀ k, reg.hosts.get? k = if k = "mother" then .some mother else .none := by
  unfold SwarmRegistry.init at h
  obtain ⟨motherWallet, -, h⟩ := bind_eq_ok.1 h
  obtain rfl := Except.ok.inj h
  refine ⟨rfl, _, ?_, ?_, ?_, ?_, ?_, ?_, fun k => (Dict.get?_set Dict.empty "mother" k _).trans (by simp; rfl)⟩
  all_goals rfl

/-! ## Joining -/

/-- With no reservation pending, a donor's effective range is its own. -/
theorem effectiveDonorRange_eq (hno : ∀ h ∈ reg.hosts.values, h.status ≠ .pending) (donor : HostRecord) :
    reg.effectiveDonorRange donor = parseRange donor.blockIndices := by
  unfold effectiveDonorRange
  cases hd : parseRange donor.blockIndices with
  | error e => rfl
  | ok p =>
    obtain ⟨dStart, dEnd⟩ := p
    simp only [ok_bind]
    rw [foldlM_ok (g := fun e _ => e)]
    · simp
    · intro e h hv
      simp [hno h hv]

/-- What `join` reserves: the top of an online donor's range, where nobody is
pending. -/
theorem joinRecord_ok {layers now : Int} {publicIp shardManagerUrl hederaAccountId hostId : String}
    {record : HostRecord} {reply : JoinReply}
    (h : reg.joinRecord layers publicIp shardManagerUrl hederaAccountId hostId now = .ok (record, reply)) :
    (∀ h ∈ reg.hosts.values, h.status ≠ .pending) ∧ ∃ donor ∈ reg.hosts.values, ∃ d : Span,
      donor.status = .online ∧ spanOf donor.blockIndices = .some d ∧ 1 ≤ layers ∧ layers < d.length ∧
      record.hostId = hostId ∧ record.role = .contributor ∧ record.status = .pending ∧
      record.blockIndices = formatRange (d.hi - layers) d.hi ∧ record.layersHosted = layers ∧
      record.pendingRange = .some (formatRange (d.hi - layers) d.hi) ∧
      record.donorHostId = .some donor.hostId ∧
      record.donorShrinkTo = .some (formatRange d.lo (d.hi - layers)) := by
  unfold joinRecord at h
  split at h
  · simp at h
  next hlow =>
  split at h
  · simp at h
  obtain ⟨wallet, -, h⟩ := bind_eq_ok.1 h
  split at h
  · simp at h
  next hfind =>
  have hno : ∀ h ∈ reg.hosts.values, h.status ≠ .pending := by simpa using hfind
  split at h
  · simp at h
  next donor hlargest =>
  obtain ⟨hon, hv⟩ := largestDonorLocked_mem hlargest
  rw [effectiveDonorRange_eq hno] at h
  obtain ⟨⟨a, b⟩, hparse, h⟩ := bind_eq_ok.1 h
  simp only at h
  split at h
  · simp at h
  next htake =>
  obtain ⟨rfl, rfl⟩ := Prod.mk.inj (Except.ok.inj h)
  refine ⟨hno, donor, hv, ⟨a, b⟩, hon, spanOf_of_parseRange hparse, by omega, ?_, rfl, rfl, rfl, rfl, rfl, rfl, rfl, rfl⟩
  simp only [Span.length]
  omega

/-- The answer of `join` names the assigned range; the record has no name yet. -/
theorem joinRecord_assigned {layers now : Int} {publicIp shardManagerUrl hederaAccountId hostId : String}
    {record : HostRecord} {reply : JoinReply}
    (h : reg.joinRecord layers publicIp shardManagerUrl hederaAccountId hostId now = .ok (record, reply)) :
    reply.blockIndices = record.blockIndices ∧ record.ensName = .none := by
  unfold joinRecord at h
  split at h
  · simp at h
  split at h
  · simp at h
  obtain ⟨wallet, -, h⟩ := bind_eq_ok.1 h
  split at h
  · simp at h
  split at h
  · simp at h
  obtain ⟨⟨a, b⟩, -, h⟩ := bind_eq_ok.1 h
  simp only at h
  split at h
  · simp at h
  obtain ⟨rfl, rfl⟩ := Prod.mk.inj (Except.ok.inj h)
  exact ⟨rfl, rfl⟩

theorem join_ok {layers now : Int} {publicIp shardManagerUrl hederaAccountId hostId : String} {reply : JoinReply}
    {reg' : SwarmRegistry} (h : join layers publicIp shardManagerUrl hederaAccountId hostId now reg = .ok reply reg') :
    ∃ record, reg.joinRecord layers publicIp shardManagerUrl hederaAccountId hostId now = .ok (record, reply) ∧
      reg' = { reg with hosts := reg.hosts.set hostId record } := by
  obtain ⟨⟨record, reply'⟩, hrec, he⟩ := bind_eq_ok.1 (locked_ok.1 h)
  obtain ⟨rfl, rfl⟩ := Prod.mk.inj (Except.ok.inj he)
  exact ⟨record, hrec, rfl⟩

theorem join_error {layers now : Int} {publicIp shardManagerUrl hederaAccountId hostId : String} {e : PyError}
    {reg' : SwarmRegistry} (h : join layers publicIp shardManagerUrl hederaAccountId hostId now reg = .error e reg') :
    reg' = reg := (locked_error.1 h).2

end Blitzwing
