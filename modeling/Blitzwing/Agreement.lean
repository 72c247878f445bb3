/-
Do the registry and the shard managers agree when no call is in progress?

A call tells a shard manager its range, lets go of the lock while it waits,
and writes the range into the registry afterwards. If the newcomer was
removed meanwhile, `mark_ready` raises and the donor keeps layers its shard
no longer serves (`lost_newcomer_disagrees`); two reloads of one host may be
written in the other order. Where neither happens, whatever is interleaved,
the two agree at rest (`agree_of_reaches`).
-/
import Blitzwing.Calls
import Blitzwing.Lifecycle

namespace Blitzwing

open SwarmRegistry

/-- The host an answered call is to resize, and the range. -/
def Pc.writes : Pc → Option (String × String)
  | .absorbed plan => .some (plan.donorId, plan.newRange)
  | .shrunk plan _ => .some (plan.donorId, plan.shrinkTo)
  | _ => .none

/-- The host's shard manager was last given this range, or another call is
still to write the range it was given. -/
def Settled (shards : String → Option String) (calls : List Call) (hostId range : String) : Prop :=
  shards hostId = .some range ∨ ∃ c ∈ calls, ∃ given ∈ shards hostId, c.pc.writes = .some (hostId, given)

instance (shards : String → Option String) (calls : List Call) (hostId range : String) :
    Decidable (Settled shards calls hostId range) :=
  inferInstanceAs (Decidable (_ ∨ ∃ c ∈ calls, ∃ given ∈ shards hostId, _ = _))

/-- What a call is about to write is what the shard managers were last told,
and what it is about to leave unwritten, too. -/
def Pc.WritesCurrent (reg : SwarmRegistry) (shards : String → Option String) (others : List Call) : Pc → Prop
  | .absorbed plan => plan.donorId ∈ reg.hosts.keys → Settled shards others plan.donorId plan.newRange
  | .shrunk plan _ => ∀ donor ∈ reg.hosts.get? plan.donorId,
    if plan.hostId ∈ reg.hosts.keys then
      Settled shards others plan.donorId plan.shrinkTo ∧ Settled shards others plan.hostId plan.assigned
    else Settled shards others plan.donorId donor.blockIndices
  | _ => True

instance (reg : SwarmRegistry) (shards : String → Option String) (others : List Call) :
    (pc : Pc) → Decidable (pc.WritesCurrent reg shards others)
  | .absorbed plan => inferInstanceAs (Decidable (plan.donorId ∈ reg.hosts.keys → _))
  | .shrunk plan _ => inferInstanceAs (Decidable (∀ donor ∈ reg.hosts.get? plan.donorId, ite _ _ _))
  | .leave _ | .reclaim _ | .absorb _ | .ready _ _ | .shrink _ _ | .done => inferInstanceAs (Decidable True)

/-- The label belongs to calls whose `/reload` is answered, and writes what is current. -/
def Config.Current (cfg : Config) : Label → Prop
  | .run i _ => ∀ c ∈ cfg.calls[i]?, c.pc.WritesCurrent cfg.reg cfg.shards (cfg.calls.eraseIdx i)
  | .refuse _ | .report _ | .deliver _ _ => False
  | .start _ | .answer _ | .join _ _ _ _ _ _ => True

instance (cfg : Config) : (label : Label) → Decidable (cfg.Current label)
  | .run i _ => inferInstanceAs (Decidable (∀ c ∈ cfg.calls[i]?, _))
  | .refuse _ | .report _ | .deliver _ _ => inferInstanceAs (Decidable False)
  | .start _ | .answer _ | .join _ _ _ _ _ _ => inferInstanceAs (Decidable True)

/-- Each online host's record is the range its shard manager was last given. -/
def Config.Agree (cfg : Config) : Prop :=
  ∀ k h, cfg.reg.hosts.get? k = .some h → h.status = .online → cfg.shards k = .some h.blockIndices

/-! ## Settled ranges -/

section Settled

variable {shards : String → Option String} {calls calls' : List Call} {i : Nat} {c c' : Call} {k range : String}

theorem Settled.mono (h : Settled shards calls k range) (hsub : ∀ c ∈ calls, c ∈ calls') : Settled shards calls' k range :=
  h.imp_right fun ⟨c, hc, given, hg, hw⟩ => ⟨c, hsub c hc, given, hg, hw⟩

/-- A call that writes nothing, or another host, settles nothing here. -/
theorem Settled.others (h : Settled shards calls k range) (hc : calls[i]? = .some c)
    (hno : ∀ p ∈ c.pc.writes, p.1 ≠ k) : Settled shards (calls.eraseIdx i) k range := by
  refine h.imp_right fun ⟨c₀, hmem, given, hg, hw⟩ => ?_
  rcases (mem_iff_others hc).1 hmem with rfl | hmem
  · exact absurd rfl (hno _ hw)
  · exact ⟨c₀, hmem, given, hg, hw⟩

theorem Settled.set (h : Settled shards (calls.eraseIdx i) k range) (hc : calls[i]? = .some c) :
    Settled shards (calls.set i c') k range :=
  h.mono fun _ hmem => (mem_set_iff_others hc).2 (.inr hmem)

theorem Settled.of_done (h : Settled shards calls k range) (hdone : ∀ c ∈ calls, c.pc = .done) :
    shards k = .some range := by
  rcases h with h | ⟨c, hc, given, -, hw⟩
  · exact h
  · simp [hdone c hc, Pc.writes] at hw

end Settled

/-! ## The invariant -/

/-- Every online host's record is settled. -/
structure Config.Tracks (cfg : Config) : Prop where
  legible : cfg.Legible
  settled : ∀ k h, cfg.reg.hosts.get? k = .some h → h.status = .online →
    Settled cfg.shards cfg.calls k h.blockIndices

/-- The online hosts of `reg'` have the ranges they had in `reg`. -/
def SameOnline (reg reg' : SwarmRegistry) : Prop :=
  ∀ k h', reg'.hosts.get? k = .some h' → h'.status = .online →
    ∃ h, reg.hosts.get? k = .some h ∧ h.status = .online ∧ h.blockIndices = h'.blockIndices

theorem SameOnline.refl (reg : SwarmRegistry) : SameOnline reg reg := fun _ h hk ho => ⟨h, hk, ho, rfl⟩

theorem sameOnline_of_sameSeats {reg reg' : SwarmRegistry} (h : reg.SameSeats reg') : SameOnline reg reg' := by
  intro k g' hk ho
  obtain ⟨g, hg, hs⟩ := h.symm.seated k g' hk
  exact ⟨g, hg, hs.status.trans ho, hs.blockIndices⟩

theorem sameOnline_of_leaveLocked {reg reg' : SwarmRegistry} {hostId : String} {o : Option String}
    (h : leaveLocked hostId reg = .ok o reg') : SameOnline reg reg' := by
  obtain ⟨_, _, -, -, -, -, rfl⟩ := leaveLocked_ok h
  intro k g hk ho
  simp only [Dict.get?_erase] at hk
  split at hk
  · simp at hk
  · exact ⟨g, hk, ho, rfl⟩

/-- **One locked piece leaves every online record settled by the other calls**,
if what it writes is current. -/
theorem Call.Runs.settled {cfg : Config} {i : Nat} {c c' : Call} {now : Int} {reg' : SwarmRegistry}
    (ht : cfg.Tracks) (hc : cfg.calls[i]? = .some c) (hcur : c.pc.WritesCurrent cfg.reg cfg.shards (cfg.calls.eraseIdx i))
    (h : c.Runs now cfg.reg c' reg') (k : String) (g : HostRecord) (hk : reg'.hosts.get? k = .some g)
    (ho : g.status = .online) : Settled cfg.shards (cfg.calls.eraseIdx i) k g.blockIndices := by
  -- A piece that resizes nobody keeps what the other calls settle.
  have hquiet : c.pc.writes = .none → SameOnline cfg.reg reg' →
      Settled cfg.shards (cfg.calls.eraseIdx i) k g.blockIndices := by
    intro hno hsame
    obtain ⟨g₀, hg₀, ho₀, hb⟩ := hsame k g hk ho
    exact hb ▸ (ht.settled k g₀ hg₀ ho₀).others hc (by simp [hno])
  have hlegible := ht.legible.calls c (List.mem_of_getElem? hc)
  cases h with
  | leaveRaises hpc => exact hquiet (by simp [Pc.writes, hpc]) (.refl _)
  | leaves hpc hl => exact hquiet (by simp [Pc.writes, hpc]) (sameOnline_of_leaveLocked hl)
  | leavesRange hpc hl => exact hquiet (by simp [Pc.writes, hpc]) (sameOnline_of_leaveLocked hl)
  | decides hpc => exact hquiet (by simp [Pc.writes, hpc]) (.refl _)
  | givesUp hpc => exact hquiet (by simp [Pc.writes, hpc]) (.refl _)
  | reclaimRaises hpc => exact hquiet (by simp [Pc.writes, hpc]) (.refl _)
  | readyRaises hpc => exact hquiet (by simp [Pc.writes, hpc]) (.refl _)
  | wasOnline hpc hl => exact hquiet (by simp [Pc.writes, hpc]) (sameOnline_of_sameSeats (markReadyCheck_sameSeats hl))
  | checks hpc hl => exact hquiet (by simp [Pc.writes, hpc]) (sameOnline_of_sameSeats (markReadyCheck_sameSeats hl))
  | @absorbs plan hpc =>
    rw [hpc] at hcur hlegible
    obtain ⟨m, hm⟩ := hlegible
    have hother : k ≠ plan.donorId → ∀ p ∈ c.pc.writes, p.1 ≠ k := by
      rintro hne _ hp
      obtain rfl : (plan.donorId, plan.newRange) = _ := by simpa [hpc, Pc.writes] using hp
      exact Ne.symm hne
    rcases reclaimCommit_eq hm cfg.reg with ⟨hgone, he⟩ | ⟨donor, hd, he⟩
    · rw [after_of_error he] at hk
      have hne : k ≠ plan.donorId := by
        rintro rfl
        simp [hgone] at hk
      exact (ht.settled k g hk ho).others hc (hother hne)
    · rw [after_of_ok he, get?_updateHost] at hk
      split at hk
      · next hkd =>
        subst hkd
        rw [hd] at hk
        obtain rfl := Option.some.inj hk
        exact hcur (Dict.mem_keys.2 ⟨donor, hd⟩)
      · next hne => exact (ht.settled k g hk ho).others hc (hother hne)
  | @handsOff plan peer hpc =>
    rw [hpc] at hcur hlegible
    obtain ⟨⟨keep, hkeep⟩, give, hgive⟩ := hlegible
    have hother : k ≠ plan.donorId → ∀ p ∈ c.pc.writes, p.1 ≠ k := by
      rintro hne _ hp
      obtain rfl : (plan.donorId, plan.shrinkTo) = _ := by simpa [hpc, Pc.writes] using hp
      exact Ne.symm hne
    cases he : markReadyCommit plan peer now cfg.reg with
    | error e reg' =>
      obtain ⟨hsame, hgone⟩ := markReadyCommit_error hkeep hgive he
      subst hsame
      rw [after_of_error he] at hk
      by_cases hkd : k = plan.donorId
      · subst hkd
        have hhost : plan.hostId ∉ cfg.reg.hosts.keys := by
          rcases hgone with hgone | hgone
          · exact Dict.get?_eq_none.1 hgone
          · simp [hgone] at hk
        have := hcur g hk
        rwa [if_neg hhost] at this
      · exact (ht.settled k g hk ho).others hc (hother hkd)
    | ok ret reg' =>
      obtain ⟨host, donor, hh, hd, -, hget⟩ := markReadyCommit_ok hkeep hgive he
      have hwrites := hcur donor hd
      rw [if_pos (Dict.mem_keys.2 ⟨host, hh⟩)] at hwrites
      rw [after_of_ok he, hget] at hk
      split at hk
      · next hkh =>
        subst hkh
        rw [hh] at hk
        obtain rfl := Option.some.inj hk
        exact hwrites.2
      · split at hk
        · next hkd =>
          subst hkd
          rw [hd] at hk
          obtain rfl := Option.some.inj hk
          exact hwrites.1
        · next hkd => exact (ht.settled k g hk ho).others hc (hother hkd)

/-- What a call that waits does not write yet, it writes once answered. -/
theorem Call.Waits.writes {c c' : Call} {hostId range : String} (h : c.Waits hostId range c') :
    c.pc.writes = .none ∧ c'.pc.writes = .some (hostId, range) := by
  cases h with
  | absorb hpc => exact ⟨by simp [Pc.writes, hpc], rfl⟩
  | shrink hpc => exact ⟨by simp [Pc.writes, hpc], rfl⟩

theorem Config.Tracks.step {cfg cfg' : Config} {label : Label} (ht : cfg.Tracks) (hcur : cfg.Current label)
    (h : cfg.Steps label cfg') : cfg'.Tracks := by
  refine ⟨ht.legible.step h, ?_⟩
  cases h with
  | start => exact fun k g hk ho => (ht.settled k g hk ho).mono fun _ hc => List.mem_append_left _ hc
  | run hc hr => exact fun k g hk ho => (hr.settled ht hc (hcur _ hc) k g hk ho).set hc
  | @answer i c c' hostId range hc hw =>
    intro k g hk ho
    obtain ⟨hno, hwrites⟩ := hw.writes
    by_cases hkh : k = hostId
    · subst hkh
      exact .inr ⟨c', (mem_set_iff_others hc).2 (.inl rfl), range, by simp, hwrites⟩
    · have : Settled cfg.shards (cfg.calls.set i c') k g.blockIndices :=
        ((ht.settled k g hk ho).others hc (by simp [hno])).set hc
      simpa only [Settled, Function.update_of_ne hkh] using this
  | refuse => exact absurd hcur id
  | @join _ _ _ _ hostId _ _ _ hfresh _ hj =>
    intro k g hk ho
    obtain ⟨record, hrec, rfl⟩ := join_ok hj
    obtain ⟨-, _, -, _, -, -, -, -, -, -, hst, -⟩ := joinRecord_ok hrec
    simp only [Dict.get?_set] at hk
    split at hk
    · obtain rfl := Option.some.inj hk
      simp [hst] at ho
    · next hkh => simpa only [Settled, Function.update_of_ne hkh] using ht.settled k g hk ho
  | joinRaises => exact ht.settled
  | report => exact absurd hcur id
  | deliver => exact absurd hcur id

/-- **The registry and the shard managers agree at rest**, after every
interleaving whose calls write what is current. -/
theorem agree_of_reaches {cfg₀ cfg : Config} (hw : cfg₀.reg.Wellformed) (hrest₀ : cfg₀.AtRest) (hagree : cfg₀.Agree)
    (h : callsMachine.Reaches (fun cfg label => cfg.Current label) cfg₀ cfg) (hrest : cfg.AtRest) : cfg.Agree := by
  have ht₀ : cfg₀.Tracks := ⟨⟨hw, fun c hc => by simp [hrest₀ c hc, Pc.Legible]⟩, fun k g hk ho => .inl (hagree k g hk ho)⟩
  have ht := h.invariant ht₀ fun ht hcur hs => ht.step hcur (steps_of_step hs)
  exact fun k g hk ho => (ht.settled k g hk ho).of_done hrest

/-! ## Runs -/

theorem agree_fresh (reg : SwarmRegistry) : (Config.fresh reg).Agree := by
  intro k h hk _
  simp only [Config.fresh] at hk ⊢
  simp [hk]

/-- Host A is made ready; while host B's `mark_ready` waits for the mother's
reload, host A leaves and the mother is told to absorb its layers as well. -/
def crossingLabels : List Label :=
  [joinLabel 4 "host-a", .start (.markReady "host-a" .none), .run 0 0, .answer 0, .run 0 0,
    joinLabel 2 "host-b", .start (.markReady "host-b" .none), .start (.leave "host-a"),
    .run 1 0, .run 2 0, .run 2 0, .answer 1, .answer 2, .run 1 0, .run 2 0]

theorem agree_of_reaches_crossing :
    ∃ cfg, callsMachine.runIf (fun cfg label => decide (cfg.Current label)) (Config.fresh (demo 12)) crossingLabels = .some cfg ∧
      cfg.Agree := by
  have hrest : ((callsMachine.runIf (fun cfg label => decide (cfg.Current label)) (Config.fresh (demo 12)) crossingLabels).any
      fun cfg => decide cfg.AtRest) = true := by decide +kernel
  obtain ⟨cfg, hrun, hrest⟩ := (Option.any_eq_true _ _).1 hrest
  exact ⟨cfg, hrun, agree_of_reaches (wellformed_init (init_demo 12)) (by decide) (agree_fresh _)
    (.of_runIf (fun _ _ cfg hcheck => of_decide_eq_true hcheck) hrun) (of_decide_eq_true hrest)⟩

/-- Host A is reaped as stale while its `mark_ready` waits for the mother's reload. -/
def lostNewcomerLabels : List Label :=
  [joinLabel 4 "host-a", .start (.markReady "host-a" .none), .run 0 0, .start (.reapStalePending 60 100), .run 1 0,
    .answer 0, .run 0 0]

/-- **A newcomer that is gone leaves its donor shrunk**: the mother's shard was
told to serve eight layers, and the registry has her at twelve. -/
theorem lost_newcomer_disagrees : (∀ label ∈ lostNewcomerLabels, ∀ i, label ≠ .refuse i) ∧
    ∃ cfg, callsMachine.run (Config.fresh (demo 12)) lostNewcomerLabels = .some cfg ∧ cfg.AtRest ∧
      cfg.shards "mother" = .some "0:8" ∧ ¬ cfg.Agree := by
  refine ⟨by simp [lostNewcomerLabels, joinLabel], ?_⟩
  have hrun : ((callsMachine.run (Config.fresh (demo 12)) lostNewcomerLabels).any fun cfg => decide cfg.AtRest &&
      decide (cfg.shards "mother" = .some "0:8") && (cfg.reg.hosts.get? "mother").any fun h =>
        h.status = .online ∧ h.blockIndices = "0:12") = true := by decide
  obtain ⟨cfg, hrun, hcheck⟩ := (Option.any_eq_true _ _).1 hrun
  simp only [Bool.and_eq_true, decide_eq_true_eq, Option.any_eq_true] at hcheck
  obtain ⟨⟨hrest, hshard⟩, mother, hm, hon, hblock⟩ := hcheck
  refine ⟨cfg, hrun, hrest, hshard, fun hagree => ?_⟩
  have := hagree "mother" mother hm hon
  rw [hshard, hblock] at this
  exact absurd this (by decide)

end Blitzwing
