/-
Departures that run at the same time.

A reclaim fixes its absorber's new range under the lock, waits for `/reload`
and writes that range back. Until then its layers are nobody's, but the call
owes them to somebody: at every moment each layer is held or owed. Two
reclaims that absorb into one host may write back in the wrong order, and the
first loses what the second had added (`overtaken_reclaim_loses_layers`).
Where each write still covers what its absorber holds by then, every
interleaving ends tiled (`tiled_of_departures`).
-/
import Blitzwing.Calls
import Blitzwing.Coverage

namespace Blitzwing

open SwarmRegistry

/-- The layers a departing call is still to give to somebody. -/
def Pc.owes : Pc → Option Span
  | .reclaim range => spanOf range
  | .absorb plan | .absorbed plan => spanOf plan.newRange
  | _ => .none

/-- One of these calls owes the layer. -/
def Owed (calls : List Call) (x : Int) : Prop := ∃ c ∈ calls, ∃ s ∈ c.pc.owes, x ∈ s

/-- An online host holds the layer, or one of these calls owes it. -/
def Kept (reg : SwarmRegistry) (calls : List Call) (x : Int) : Prop :=
  (∃ k ∈ reg.hosts.keys, ∃ s ∈ reg.held k, x ∈ s) ∨ Owed calls x

instance (calls : List Call) (x : Int) : Decidable (Owed calls x) :=
  inferInstanceAs (Decidable (∃ c ∈ calls, ∃ s ∈ c.pc.owes, x ∈ s))

instance (reg : SwarmRegistry) (calls : List Call) (x : Int) : Decidable (Kept reg calls x) :=
  inferInstanceAs (Decidable ((∃ k ∈ reg.hosts.keys, ∃ s ∈ reg.held k, x ∈ s) ∨ _))

/-- None of the hosts `_reclaim_range` considers can merge its range with `r`. -/
def SwarmRegistry.nobodyMerges (reg : SwarmRegistry) (r : Span) : Bool :=
  match reg.reclaimCandidates r.lo r.hi with
  | .ok candidates => candidates.all fun h => reg.canMergeRanges h r.lo r.hi = .ok .none
  | .error _ => true

/-- What the next piece of a departing call gives up or overwrites, somebody
else has. -/
def Pc.Careful (reg : SwarmRegistry) (others : List Call) : Pc → Prop
  | .reclaim range => ∀ r ∈ spanOf range, reg.nobodyMerges r = true → ∀ x ∈ r, Kept reg others x
  | .absorbed plan => ∀ m ∈ spanOf plan.newRange,
    (∀ d ∈ reg.held plan.donorId, (∀ x ∈ d, x ∈ m ∨ Owed others x) ∧ reg.Clear plan.donorId m) ∧
      (reg.held plan.donorId = .none → ∀ x ∈ m, Kept reg others x)
  | _ => True

instance (reg : SwarmRegistry) (others : List Call) : (pc : Pc) → Decidable (pc.Careful reg others)
  | .reclaim range => inferInstanceAs (Decidable (∀ r ∈ spanOf range, _ → ∀ x ∈ r, _))
  | .absorbed plan => inferInstanceAs (Decidable (∀ m ∈ spanOf plan.newRange, (∀ d ∈ reg.held plan.donorId,
      (∀ x ∈ d, x ∈ m ∨ Owed others x) ∧ _) ∧ (_ = _ → ∀ x ∈ m, Kept reg others x)))
  | .leave _ | .absorb _ | .ready _ _ | .shrink _ _ | .shrunk _ _ | .done => inferInstanceAs (Decidable True)

/-- The label belongs to departures whose `/reload` is answered, and is careful. -/
def Config.Careful (cfg : Config) : Label → Prop
  | .start (.leave _) | .start (.reapStale _ _) | .answer _ => True
  | .run i _ => ∀ c ∈ cfg.calls[i]?, c.pc.Careful cfg.reg (cfg.calls.eraseIdx i)
  | _ => False

instance (cfg : Config) : (label : Label) → Decidable (cfg.Careful label)
  | .start (.leave _) | .start (.reapStale _ _) | .answer _ => inferInstanceAs (Decidable True)
  | .run i _ => inferInstanceAs (Decidable (∀ c ∈ cfg.calls[i]?, _))
  | .start (.markReady _ _) | .start (.reapStalePending _ _) | .refuse _ | .join _ _ _ _ _ _ | .report _
  | .deliver _ _ => inferInstanceAs (Decidable False)

/-! ## Held or owed -/

section Kept

variable {reg : SwarmRegistry} {calls : List Call} {i : Nat} {c c' : Call} {x : Int}

theorem kept_iff : Kept reg calls x ↔ (∃ k, reg.held.Holds k x) ∨ Owed calls x := by
  refine or_congr_left ⟨fun ⟨k, _, s, hs, hx⟩ => ⟨k, s, hs, hx⟩, fun ⟨k, s, hs, hx⟩ => ?_⟩
  obtain ⟨g, hg, -⟩ := held_eq_some.1 hs
  exact ⟨k, Dict.mem_keys.2 ⟨g, hg⟩, s, hs, hx⟩

/-- What call `i` owes, and what everybody else has. -/
theorem kept_split (hc : calls[i]? = .some c) :
    Kept reg calls x ↔ Kept reg (calls.eraseIdx i) x ∨ ∃ s ∈ c.pc.owes, x ∈ s := by
  simp only [Kept, Owed, mem_iff_others hc]
  constructor
  · rintro (h | ⟨_, rfl | hmem, howe⟩)
    · exact .inl (.inl h)
    · exact .inr howe
    · exact .inl (.inr ⟨_, hmem, howe⟩)
  · rintro ((h | ⟨c₀, hmem, howe⟩) | howe)
    · exact .inl h
    · exact .inr ⟨c₀, .inr hmem, howe⟩
    · exact .inr ⟨c, .inl rfl, howe⟩

theorem kept_set (hc : calls[i]? = .some c) :
    Kept reg (calls.set i c') x ↔ Kept reg (calls.eraseIdx i) x ∨ ∃ s ∈ c'.pc.owes, x ∈ s := by
  have hset : (calls.set i c')[i]? = .some c' := List.getElem?_set_self (List.getElem?_eq_some_iff.1 hc).1
  rw [kept_split hset, List.eraseIdx_set_eq]

/-- Whatever held nothing is released without loss. -/
theorem Kept.release_none {reg' : SwarmRegistry} {hostId : String} (hheld : reg'.held = reg.held.release hostId)
    (hnone : reg.held hostId = .none) (hk : Kept reg calls x) : Kept reg' calls x := by
  have hsame : reg.held.release hostId = reg.held := by
    rw [Allocation.release, show (Option.none : Option Span) = reg.held hostId from hnone.symm]
    exact Function.update_eq_self _ _
  rwa [kept_iff, hheld, hsame, ← kept_iff]

/-- Whatever is lost with a host is in the range it held. -/
theorem Kept.release {reg' : SwarmRegistry} {hostId : String} {s : Span} (hheld : reg'.held = reg.held.release hostId)
    (hsome : reg.held hostId = .some s) (hk : Kept reg calls x) : Kept reg' calls x ∨ x ∈ s := by
  obtain ⟨k, hk⟩ | howed := kept_iff.1 hk
  · by_cases hkh : k = hostId
    · subst hkh
      obtain ⟨t, ht, hxt⟩ := hk
      obtain rfl := Option.some.inj (hsome.symm.trans ht)
      exact .inr hxt
    · exact .inl (kept_iff.2 (.inl ⟨k, hheld ▸ Allocation.holds_release.2 ⟨hkh, hk⟩⟩))
  · exact .inl (kept_iff.2 (.inr howed))

/-- Whatever a donor held is kept when it is given `m`, where it is in `m` or owed. -/
theorem Kept.assign {reg' : SwarmRegistry} {donorId : String} {d m : Span}
    (hheld : reg'.held = reg.held.assign donorId m) (hd : reg.held donorId = .some d)
    (hgiven : ∀ x ∈ d, x ∈ m ∨ Owed calls x) (hk : Kept reg calls x ∨ x ∈ m) : Kept reg' calls x := by
  rw [kept_iff, hheld]
  by_cases hxm : x ∈ m
  · exact .inl ⟨donorId, Allocation.holds_assign.2 (.inl ⟨rfl, hxm⟩)⟩
  obtain ⟨k, hk⟩ | howed := kept_iff.1 (hk.resolve_right hxm)
  · by_cases hkd : k = donorId
    · subst hkd
      obtain ⟨t, ht, hxt⟩ := hk
      obtain rfl := Option.some.inj (hd.symm.trans ht)
      exact .inr ((hgiven x hxt).resolve_left hxm)
    · exact .inl ⟨k, Allocation.holds_assign.2 (.inr ⟨hkd, hk⟩)⟩
  · exact .inr howed

end Kept

namespace SwarmRegistry

variable {reg reg' : SwarmRegistry} {n : Int}

/-- Where nobody is pending, a deleted host leaves exactly what it held. -/
theorem held_leaveLocked (hr : reg.Readable) (hno : ∀ k h, reg.hosts.get? k = .some h → h.status ≠ .pending)
    {hostId : String} {o : Option String} (h : leaveLocked hostId reg = .ok o reg') :
    reg'.held = reg.held.release hostId ∧ (∀ k g, reg'.hosts.get? k = .some g → reg.hosts.get? k = .some g) ∧
      reg.held hostId = o.bind spanOf ∧ (o.isSome → (o.bind spanOf).isSome) := by
  obtain ⟨host, range, hk, hrole, hrange, rfl, rfl⟩ := leaveLocked_ok h
  refine ⟨held_erase reg hostId, fun k g hg => ?_, ?_⟩
  · simp only [Dict.get?_erase] at hg
    split at hg
    · simp at hg
    · exact hg
  cases hst : host.status with
  | pending => exact absurd hst (hno _ _ hk)
  | online =>
    rw [rangeToReclaim_online hk hrole hst] at hrange
    obtain rfl := Except.ok.inj hrange
    obtain ⟨s, hs⟩ := hr _ _ hk hst
    rw [truthy_of_ne (ne_empty_of_spanOf hs)]
    simp [held_of_get? hk, HostRecord.span, hst, hs]
  | offline =>
    simp only [rangeToReclaim, hk, hrole, if_false, hst] at hrange
    obtain rfl := Except.ok.inj hrange
    simp [held_of_get? hk, HostRecord.span, hst, truthy]

/-- `_reclaim_range` gives up only where nobody it considers can merge. -/
theorem nobodyMerges_of_reclaimLocked (hk : reg.Keyed) (hr : reg.Readable) {range : String} {r : Span}
    (hrange : spanOf range = .some r) (h : reclaimLocked reg range = .ok .none) : reg.nobodyMerges r = true := by
  obtain ⟨cs, hcs, hmem, -⟩ := reclaimCandidates_eq hr r
  obtain ⟨o, ho, -, hnone⟩ := chooseAbsorber_eq hk hr r hmem .none
  simp only [reclaimLocked, parseRange_of_spanOf hrange, ok_bind, hcs, ho] at h
  cases o with
  | some c => exact absurd (Except.ok.inj h) (by simp)
  | none => simpa [nobodyMerges, hcs] using (hnone rfl).2

end SwarmRegistry

/-! ## The invariant -/

/-- The call is a departure, and what it owes are layers of the model. -/
def Pc.Departing (n : Int) : Pc → Prop
  | .leave _ | .done => True
  | .reclaim range => ∃ r, spanOf range = .some r ∧ r.InLayers n
  | .absorb plan | .absorbed plan => ∃ m, spanOf plan.newRange = .some m ∧ m.InLayers n
  | .ready _ _ | .shrink _ _ | .shrunk _ _ => False

theorem Call.departing_resume (c : Call) (n : Int) : c.resume.pc.Departing n := by
  unfold Call.resume
  split <;> trivial

/-- What departures leave of a registry: nobody pending, and the online hosts
sharing the layers. -/
structure SwarmRegistry.Stationed (reg : SwarmRegistry) (n : Int) : Prop where
  keyed : reg.Keyed
  readable : reg.Readable
  ready : ∀ k h, reg.hosts.get? k = .some h → h.status ≠ .pending
  shares : reg.held.Shares n

structure Config.Accounted (cfg : Config) (n : Int) : Prop where
  registry : cfg.reg.Stationed n
  calls : ∀ c ∈ cfg.calls, c.pc.Departing n
  kept : ∀ x, 0 ≤ x → x < n → Kept cfg.reg cfg.calls x

theorem SwarmRegistry.Stationed.of_leaveLocked {reg reg' : SwarmRegistry} {n : Int} (hs : reg.Stationed n)
    {hostId : String} {o : Option String} (h : leaveLocked hostId reg = .ok o reg') : reg'.Stationed n := by
  obtain ⟨hheld, hold, -⟩ := held_leaveLocked hs.readable hs.ready h
  exact ⟨fun k g hg => hs.keyed k g (hold k g hg), fun k g hg => hs.readable k g (hold k g hg),
    fun k g hg => hs.ready k g (hold k g hg), hheld ▸ hs.shares.release hostId⟩

theorem SwarmRegistry.Stationed.resize {reg : SwarmRegistry} {n : Int} (hs : reg.Stationed n) {donorId range : String}
    {m : Span} (hm : spanOf range = .some m) (hin : m.InLayers n)
    (hclear : ∀ d, reg.held donorId = .some d → reg.Clear donorId m) :
    (reg.updateHost donorId fun d => d.resized range m.length).Stationed n := by
  refine ⟨fun k g hg => ?_, fun k g hg ho => ?_, fun k g hg => ?_, ?_⟩
  · rw [get?_updateHost] at hg
    split at hg
    · obtain ⟨g₀, hg₀, rfl⟩ := Option.map_eq_some_iff.1 hg
      exact hs.keyed k g₀ hg₀
    · exact hs.keyed k g hg
  · rw [get?_updateHost] at hg
    split at hg
    · obtain ⟨g₀, -, rfl⟩ := Option.map_eq_some_iff.1 hg
      exact ⟨m, hm⟩
    · exact hs.readable k g hg ho
  · rw [get?_updateHost] at hg
    split at hg
    · obtain ⟨g₀, hg₀, rfl⟩ := Option.map_eq_some_iff.1 hg
      exact hs.ready k g₀ hg₀
    · exact hs.ready k g hg
  · rw [hs.readable.held_resize donorId hm]
    split
    · next hd =>
      obtain ⟨d, hd⟩ := Option.isSome_iff_exists.1 hd
      exact hs.shares.assign hin (clear_iff.1 (hclear d hd))
    · exact hs.shares

/-- **One locked piece of a careful departure loses no layer.** -/
theorem Call.Runs.accounted {cfg : Config} {n : Int} {i : Nat} {c c' : Call} {now : Int} {reg' : SwarmRegistry}
    (ha : cfg.Accounted n) (hc : cfg.calls[i]? = .some c) (hcareful : c.pc.Careful cfg.reg (cfg.calls.eraseIdx i))
    (h : c.Runs now cfg.reg c' reg') : reg'.Stationed n ∧ c'.pc.Departing n ∧
      ∀ x, 0 ≤ x → x < n → Kept reg' (cfg.calls.eraseIdx i) x ∨ ∃ s ∈ c'.pc.owes, x ∈ s := by
  have hs := ha.registry
  have hdep := ha.calls c (List.mem_of_getElem? hc)
  have hkept : ∀ x, 0 ≤ x → x < n → Kept cfg.reg (cfg.calls.eraseIdx i) x ∨ ∃ s ∈ c.pc.owes, x ∈ s :=
    fun x h₀ hn => (kept_split hc).1 (ha.kept x h₀ hn)
  -- A piece of a call that owes nothing, and changes nothing.
  have hquiet : c.pc.owes = .none → ∀ x, 0 ≤ x → x < n → Kept cfg.reg (cfg.calls.eraseIdx i) x ∨
      ∃ s ∈ c'.pc.owes, x ∈ s := fun hno x h₀ hn => (hkept x h₀ hn).imp_right fun ⟨s, hs, _⟩ => by simp [hno] at hs
  cases h with
  | @leaveRaises hostId _ hpc => exact ⟨hs, c.departing_resume n, hquiet (by simp [Pc.owes, hpc])⟩
  | @leaves hostId reg' hpc hl =>
    obtain ⟨hheld, -, hnone, -⟩ := held_leaveLocked hs.readable hs.ready hl
    exact ⟨hs.of_leaveLocked hl, c.departing_resume n, fun x h₀ hn =>
      (hquiet (by simp [Pc.owes, hpc]) x h₀ hn).imp_left (.release_none hheld hnone)⟩
  | @leavesRange hostId range reg' hpc hl =>
    obtain ⟨hheld, -, hsome, hspan⟩ := held_leaveLocked hs.readable hs.ready hl
    obtain ⟨s, hsp⟩ := Option.isSome_iff_exists.1 (hspan rfl)
    rw [hsp] at hsome
    refine ⟨hs.of_leaveLocked hl, ⟨s, hsp, hs.shares.span _ _ hsome⟩, fun x h₀ hn => ?_⟩
    rcases hkept x h₀ hn with hk | ⟨_, howe, -⟩
    · exact (hk.release hheld hsome).imp_right fun hx => ⟨s, hsp, hx⟩
    · simp [Pc.owes, hpc] at howe
  | @decides range plan hpc hl =>
    rw [hpc] at hdep
    obtain ⟨r, hr, hrin⟩ := hdep
    obtain ⟨o, ho, hsome, -⟩ := reclaimLocked_eq hs.keyed hs.readable hr
    obtain rfl := Except.ok.inj (ho.symm.trans hl)
    obtain ⟨d, m, hd, hnew, hmerge⟩ := hsome _ rfl
    have hm : spanOf plan.newRange = .some m := by simp [hnew]
    refine ⟨hs, ⟨m, hm, hmerge.inLayers (hs.shares.span _ _ hd) hrin⟩, fun x h₀ hn => ?_⟩
    refine (hkept x h₀ hn).imp_right fun ⟨t, ht, hxt⟩ => ?_
    obtain rfl : r = t := by simpa [Pc.owes, hpc, hr] using ht
    exact ⟨m, hm, (hmerge.covers (hs.shares.span _ _ hd).1).mem hxt⟩
  | @givesUp range hpc hl =>
    rw [hpc] at hdep hcareful
    obtain ⟨r, hr, -⟩ := hdep
    refine ⟨hs, c.departing_resume n, fun x h₀ hn => .inl ?_⟩
    rcases hkept x h₀ hn with hk | ⟨t, ht, hxt⟩
    · exact hk
    · obtain rfl : r = t := by simpa [Pc.owes, hpc, hr] using ht
      exact hcareful r hr (nobodyMerges_of_reclaimLocked hs.keyed hs.readable hr hl) x hxt
  | @reclaimRaises range e hpc hl =>
    rw [hpc] at hdep
    obtain ⟨r, hr, -⟩ := hdep
    obtain ⟨o, ho, -⟩ := reclaimLocked_eq hs.keyed hs.readable hr
    simp [ho] at hl
  | @absorbs plan hpc =>
    rw [hpc] at hdep hcareful
    obtain ⟨m, hm, hin⟩ := hdep
    obtain ⟨honline, hgone⟩ := hcareful m hm
    have howes : ∀ t ∈ c.pc.owes, t = m := by
      intro t ht
      simpa [Pc.owes, hpc, hm, eq_comm] using ht
    have hlost : cfg.reg.held plan.donorId = .none → ∀ x, 0 ≤ x → x < n → Kept cfg.reg (cfg.calls.eraseIdx i) x := by
      intro hd x h₀ hn
      rcases hkept x h₀ hn with hk | ⟨t, ht, hxt⟩
      · exact hk
      · obtain rfl := howes t ht
        exact hgone hd x hxt
    rcases reclaimCommit_eq hm cfg.reg with ⟨hno, he⟩ | ⟨donor, hk, he⟩
    · rw [after_of_error he]
      exact ⟨hs, c.departing_resume n, fun x h₀ hn => .inl (hlost (held_of_none hno) x h₀ hn)⟩
    rw [after_of_ok he]
    refine ⟨hs.resize hm hin fun d hd => (honline d hd).2, c.departing_resume n, fun x h₀ hn => .inl ?_⟩
    have hheld := hs.readable.held_resize plan.donorId hm
    cases hd : cfg.reg.held plan.donorId with
    | none =>
      rw [kept_iff, hheld, hd]
      exact kept_iff.1 (hlost hd x h₀ hn)
    | some d =>
      rw [hd] at hheld
      refine .assign hheld hd (honline _ hd).1 ((hkept x h₀ hn).imp_right fun ⟨t, ht, hxt⟩ => ?_)
      obtain rfl := howes t ht
      exact hxt
  | readyRaises hpc => simp [hpc, Pc.Departing] at hdep
  | wasOnline hpc => simp [hpc, Pc.Departing] at hdep
  | checks hpc => simp [hpc, Pc.Departing] at hdep
  | handsOff hpc => simp [hpc, Pc.Departing] at hdep

/-- A call that waits owes the same once it is answered. -/
theorem Call.Waits.owes {c c' : Call} {hostId range : String} {n : Int} (h : c.Waits hostId range c')
    (hd : c.pc.Departing n) : c'.pc.owes = c.pc.owes ∧ c'.pc.Departing n := by
  cases h with
  | absorb hpc =>
    rw [hpc] at hd ⊢
    exact ⟨rfl, hd⟩
  | shrink hpc => simp [hpc, Pc.Departing] at hd

theorem Config.Accounted.step {cfg cfg' : Config} {label : Label} {n : Int} (ha : cfg.Accounted n)
    (hcareful : cfg.Careful label) (h : cfg.Steps label cfg') : cfg'.Accounted n := by
  cases h with
  | @start request =>
    refine ⟨ha.registry, fun c hc => ?_, fun x h₀ hn => ?_⟩
    · rcases List.mem_append.1 hc with hc | hc
      · exact ha.calls c hc
      · obtain rfl := List.mem_singleton.1 hc
        cases request with
        | leave hostId => trivial
        | reapStale ttl now => exact Call.departing_resume _ n
        | markReady hostId peer => exact absurd hcareful id
        | reapStalePending ttl now => exact absurd hcareful id
    · exact (ha.kept x h₀ hn).imp_right fun ⟨c, hc, howe⟩ => ⟨c, List.mem_append_left _ hc, howe⟩
  | run hc hr =>
    obtain ⟨hs', hd', hkept⟩ := hr.accounted ha hc (hcareful _ hc)
    exact ⟨hs', forall_mem_set ha.calls hd', fun x h₀ hn => (kept_set hc).2 (hkept x h₀ hn)⟩
  | answer hc hw =>
    obtain ⟨howes, hd'⟩ := hw.owes (ha.calls _ (List.mem_of_getElem? hc))
    refine ⟨ha.registry, forall_mem_set ha.calls hd', fun x h₀ hn => (kept_set hc).2 ?_⟩
    rw [howes]
    exact (kept_split hc).1 (ha.kept x h₀ hn)
  | refuse => exact absurd hcareful id
  | join => exact absurd hcareful id
  | joinRaises => exact absurd hcareful id
  | report => exact absurd hcareful id
  | deliver => exact absurd hcareful id

theorem Config.Accounted.tiled {cfg : Config} {n : Int} (ha : cfg.Accounted n) (hrest : cfg.AtRest) : cfg.reg.Tiled n where
  ranges := by
    intro k h hk ho
    obtain ⟨s, hs⟩ := ha.registry.readable k h hk ho
    exact ⟨s, hs, ha.registry.shares.span k s (held_eq_some.2 ⟨h, hk, ho, hs⟩)⟩
  tiles := by
    refine Allocation.tiles_iff.2 ⟨ha.registry.shares.exclusive, ha.registry.shares.within, fun x h₀ hn => ?_⟩
    rcases kept_iff.1 (ha.kept x h₀ hn) with hk | ⟨c, hc, s, hs, -⟩
    · exact hk
    · simp [hrest c hc, Pc.owes] at hs

/-- **Departures that run together end tiled**, in every interleaving whose
pieces are careful. -/
theorem tiled_of_departures {cfg₀ cfg : Config} {n : Int} (hkeyed : cfg₀.reg.Keyed) (htiled : cfg₀.reg.Tiled n)
    (hready : ∀ k h, cfg₀.reg.hosts.get? k = .some h → h.status ≠ .pending) (hrest₀ : cfg₀.AtRest)
    (h : callsMachine.Reaches (fun cfg label => cfg.Careful label) cfg₀ cfg) (hrest : cfg.AtRest) : cfg.reg.Tiled n := by
  obtain ⟨hexcl, -, hfull⟩ := Allocation.tiles_iff.1 htiled.tiles
  have hshares : cfg₀.reg.held.Shares n := by
    refine ⟨fun k s hs => ?_, hexcl⟩
    obtain ⟨g, hk, ho, hsp⟩ := held_eq_some.1 hs
    obtain ⟨t, ht, hin⟩ := htiled.ranges k g hk ho
    obtain rfl := Option.some.inj (hsp.symm.trans ht)
    exact hin
  have hreadable : cfg₀.reg.Readable := fun k g hk ho => (htiled.ranges k g hk ho).imp fun _ => And.left
  have ha₀ : cfg₀.Accounted n := ⟨⟨hkeyed, hreadable, hready, hshares⟩, fun c hc => by simp [hrest₀ c hc, Pc.Departing],
    fun x h₀ hn => kept_iff.2 (.inl (hfull x h₀ hn))⟩
  have ha : cfg.Accounted n := h.invariant (I := fun cfg => cfg.Accounted n) ha₀ fun ha hcareful hs =>
    ha.step hcareful (steps_of_step hs)
  exact ha.tiled hrest

/-! ## Runs -/

/-- An online host that holds `[lo, hi)`. -/
def hostAt (hostId : String) (role : Role) (lo hi : Int) : HostRecord where
  hostId
  role
  model := "m"
  blockIndices := formatRange lo hi
  layersHosted := hi - lo
  publicIp := .none
  shardManagerUrl := "http://203.0.113.7:8003"
  status := .online
  joinedAt := 0
  lastHeartbeat := 0

/-- Mother, host A and host B, with eight layers between them. -/
def threeHosts : Config where
  reg := {
    model := "m"
    totalLayers := 8
    hosts := ((Dict.empty.set "mother" (hostAt "mother" .mother 0 4)).set "host-a" (hostAt "host-a" .contributor 4 6)).set
      "host-b" (hostAt "host-b" .contributor 6 8) }
  shards := fun _ => .none

theorem get?_threeHosts (k : String) : threeHosts.reg.hosts.get? k =
    if k = "host-b" then .some (hostAt "host-b" .contributor 6 8)
    else if k = "host-a" then .some (hostAt "host-a" .contributor 4 6)
    else if k = "mother" then .some (hostAt "mother" .mother 0 4) else .none := by
  simp only [threeHosts, Dict.get?_set, Dict.get?_empty]

theorem held_threeHosts (k : String) (x : Int) : threeHosts.reg.held.Holds k x ↔
    (k = "mother" ∧ 0 ≤ x ∧ x < 4) ∨ (k = "host-a" ∧ 4 ≤ x ∧ x < 6) ∨ (k = "host-b" ∧ 6 ≤ x ∧ x < 8) := by
  simp only [Allocation.Holds, held, get?_threeHosts]
  by_cases hb : k = "host-b"
  · simp [hb, HostRecord.span, hostAt]
  by_cases ha : k = "host-a"
  · simp [ha, HostRecord.span, hostAt]
  by_cases hm : k = "mother"
  · simp [hm, HostRecord.span, hostAt]
  · simp [hb, ha, hm]

theorem mem_threeHosts {k : String} {h : HostRecord} (hk : threeHosts.reg.hosts.get? k = .some h) :
    h.hostId = k ∧ h.status = .online ∧ ∃ s, spanOf h.blockIndices = .some s ∧ s.InLayers 8 := by
  rw [get?_threeHosts] at hk
  split at hk
  · next he => exact Option.some.inj hk ▸ ⟨he.symm, rfl, ⟨6, 8⟩, by simp [hostAt], by decide⟩
  split at hk
  · next he => exact Option.some.inj hk ▸ ⟨he.symm, rfl, ⟨4, 6⟩, by simp [hostAt], by decide⟩
  split at hk
  · next he => exact Option.some.inj hk ▸ ⟨he.symm, rfl, ⟨0, 4⟩, by simp [hostAt], by decide⟩
  · simp at hk

theorem tiled_threeHosts : threeHosts.reg.Tiled 8 where
  ranges := fun _ _ hk _ => (mem_threeHosts hk).2.2
  tiles := by
    refine Allocation.tiles_iff.2 ⟨fun j k x hj hk => ?_, fun k x hk => ?_, fun x h₀ hn => ?_⟩
    · rw [held_threeHosts] at hj hk
      rcases hj with ⟨rfl, _⟩ | ⟨rfl, _⟩ | ⟨rfl, _⟩ <;> rcases hk with ⟨rfl, _⟩ | ⟨rfl, _⟩ | ⟨rfl, _⟩ <;>
        first | rfl | omega
    · rw [held_threeHosts] at hk
      omega
    · by_cases h₄ : x < 4
      · exact ⟨"mother", (held_threeHosts _ _).2 (.inl ⟨rfl, h₀, h₄⟩)⟩
      by_cases h₆ : x < 6
      · exact ⟨"host-a", (held_threeHosts _ _).2 (.inr (.inl ⟨rfl, by omega, h₆⟩))⟩
      · exact ⟨"host-b", (held_threeHosts _ _).2 (.inr (.inr ⟨rfl, by omega, hn⟩))⟩

/-- Both contributors leave, and both reclaims choose the mother before
either is written: host A's gives her six layers, host B's all eight. -/
def bothLeave : List Label :=
  [.start (.leave "host-a"), .start (.leave "host-b"), .run 0 0, .run 1 0, .run 0 0, .run 1 0, .answer 0, .answer 1]

theorem tiled_of_departures_inOrder :
    ∃ cfg, callsMachine.runIf (fun cfg label => decide (cfg.Careful label)) threeHosts
      (bothLeave ++ [.run 0 0, .run 1 0]) = .some cfg ∧ cfg.reg.Tiled 8 := by
  have hrest : ((callsMachine.runIf (fun cfg label => decide (cfg.Careful label)) threeHosts
      (bothLeave ++ [.run 0 0, .run 1 0])).any fun cfg => decide cfg.AtRest) = true := by decide +kernel
  obtain ⟨cfg, hrun, hrest⟩ := (Option.any_eq_true _ _).1 hrest
  exact ⟨cfg, hrun, tiled_of_departures (fun _ _ hk => (mem_threeHosts hk).1) tiled_threeHosts
    (fun _ _ hk => by simp [(mem_threeHosts hk).2.1]) (by decide)
    (.of_runIf (fun _ _ cfg hcheck => of_decide_eq_true hcheck) hrun) (of_decide_eq_true hrest)⟩

/-- **An overtaken reclaim loses layers**: written last, host A's reclaim takes
layers 6 and 7 from the mother again. -/
theorem overtaken_reclaim_loses_layers : threeHosts.reg.Tiled 8 ∧
    ∃ cfg, callsMachine.run threeHosts (bothLeave ++ [.run 1 0, .run 0 0]) = .some cfg ∧ cfg.AtRest ∧
      (∀ k, ¬ cfg.reg.held.Holds k 6) ∧ ¬ cfg.reg.Tiled 8 := by
  have hrun : ((callsMachine.run threeHosts (bothLeave ++ [.run 1 0, .run 0 0])).any fun cfg =>
      decide cfg.AtRest && cfg.reg.unheld 6) = true := by decide
  obtain ⟨cfg, hrun, hcheck⟩ := (Option.any_eq_true _ _).1 hrun
  obtain ⟨hrest, hno⟩ := Bool.and_eq_true_iff.1 hcheck
  have hnone := not_holds_of_unheld hno
  refine ⟨tiled_threeHosts, cfg, hrun, of_decide_eq_true hrest, hnone, fun ht => ?_⟩
  obtain ⟨k, hk, -⟩ := ht.tiles.2 6 (by decide) (by decide)
  exact hnone k hk

end Blitzwing
