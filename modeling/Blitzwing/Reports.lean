/-
What the hosts report, and what a request then pays out.

A contributor's heartbeat and a `/status` reply are adopted as they are, so
one report of a hundred thousand layers is paid for as many
(`report_overpays`); and a call may write a range that others have been given
layers of since it was decided (`overtaken_reclaim_overpays`). Here the calls
run interleaved at their lock releases, with reports of any text between any
two pieces. Where every adopted report names layers of the model that no
other host has, and whatever a call writes after its `/reload` takes no
third host's layers, the online hosts share the layers out between them and
a request pays out at most its price (`payouts_within_price_of_reaches`).
-/
import Blitzwing.Calls
import Blitzwing.Lifecycle
import Blitzwing.Payouts
import Mathlib.Algebra.BigOperators.Ring.List

namespace Blitzwing

open SwarmRegistry

/-! ## Reports of any text -/

inductive ReportingLabel
  /-- A label of the registry's calls. -/
  | call (label : Label)
  | heartbeat (hostId : String) (report : HeartbeatReport) (now : Int)
  /-- `refresh_live_status` comes to the host; `none` where its probe failed. -/
  | status (hostId : String) (reply : Option StatusReply)

def reportingMachine : Machine Config ReportingLabel where
  step cfg
    | .call label => callsMachine.step cfg label
    | .heartbeat hostId report now => .some { cfg with reg := after (applyHeartbeatManifest hostId report now) cfg.reg }
    | .status hostId reply => .some { cfg with reg := after (reconcile hostId reply) cfg.reg }

/-- The range an online host reports, if it is adopted, is of layers no other
host has. -/
def SwarmRegistry.ReportFits (reg : SwarmRegistry) (hostId : String) (report : Option String) : Prop :=
  ∀ host ∈ reg.hosts.get? hostId, host.status = .online → ∀ live ∈ truthy report, live ≠ host.blockIndices →
    ∀ s ∈ spanOf live, s.InLayers reg.totalLayers ∧ reg.Clear hostId s

/-- What the call is about to write after its `/reload` takes no third host's
layers. -/
def Pc.Fits (reg : SwarmRegistry) : Pc → Prop
  | .absorbed plan => ∀ _ ∈ reg.held plan.donorId, ∀ m ∈ spanOf plan.newRange,
      m.InLayers reg.totalLayers ∧ reg.Clear plan.donorId m
  | .shrunk plan _ => plan.hostId ∈ reg.hosts.keys → plan.donorId ∈ reg.hosts.keys →
      ∀ j ∈ reg.hosts.keys, j ≠ plan.donorId → j ≠ plan.hostId → ∀ t ∈ reg.held j,
        (∀ keep ∈ spanOf plan.shrinkTo, ¬ t.Meets keep) ∧ ∀ give ∈ spanOf plan.assigned, ¬ t.Meets give
  | _ => True

/-- Whatever the label is about to write fits. -/
def Config.Fits (cfg : Config) : ReportingLabel → Prop
  | .call (.run i _) => ∀ c ∈ cfg.calls[i]?, c.pc.Fits cfg.reg
  | .call (.deliver n _) => ∀ report ∈ cfg.reports[n]?, cfg.reg.ReportFits report.hostId (.some report.blockIndices)
  | .call _ => True
  | .heartbeat hostId report _ => cfg.reg.ReportFits hostId report.blockIndices
  | .status hostId reply => cfg.reg.ReportFits hostId (reply.bind (·.blockIndices))

instance (reg : SwarmRegistry) (hostId : String) (report : Option String) : Decidable (reg.ReportFits hostId report) :=
  inferInstanceAs (Decidable (∀ host ∈ reg.hosts.get? hostId, host.status = .online → ∀ live ∈ truthy report,
    live ≠ host.blockIndices → ∀ s ∈ spanOf live, _ ∧ _))

instance (reg : SwarmRegistry) : (pc : Pc) → Decidable (pc.Fits reg)
  | .absorbed plan => inferInstanceAs (Decidable (∀ _ ∈ reg.held plan.donorId, ∀ m ∈ spanOf plan.newRange, _ ∧ _))
  | .shrunk plan _ => inferInstanceAs (Decidable (plan.hostId ∈ reg.hosts.keys → plan.donorId ∈ reg.hosts.keys →
      ∀ j ∈ reg.hosts.keys, j ≠ plan.donorId → j ≠ plan.hostId → ∀ t ∈ reg.held j,
        (∀ keep ∈ spanOf plan.shrinkTo, _) ∧ ∀ give ∈ spanOf plan.assigned, _))
  | .leave _ | .reclaim _ | .absorb _ | .ready _ _ | .shrink _ _ | .done => inferInstanceAs (Decidable True)

instance (cfg : Config) : (label : ReportingLabel) → Decidable (cfg.Fits label)
  | .call (.run i _) => inferInstanceAs (Decidable (∀ c ∈ cfg.calls[i]?, _))
  | .call (.deliver n _) => inferInstanceAs (Decidable (∀ report ∈ cfg.reports[n]?, _))
  | .call (.start _) | .call (.answer _) | .call (.refuse _) | .call (.join _ _ _ _ _ _) | .call (.report _) =>
    inferInstanceAs (Decidable True)
  | .heartbeat hostId report _ => inferInstanceAs (Decidable (cfg.reg.ReportFits hostId report.blockIndices))
  | .status hostId reply => inferInstanceAs (Decidable (cfg.reg.ReportFits hostId (reply.bind (·.blockIndices))))

/-! ## What fitting writes keep -/

namespace SwarmRegistry

variable {reg reg' : SwarmRegistry} {n : Int}

/-- The online hosts share the layers out, and the plan divides some of them. -/
structure Shared (reg : SwarmRegistry) (n : Int) : Prop where
  wellformed : reg.Wellformed
  layers : reg.totalLayers = n
  shares : reg.held.Shares n
  plan : ∀ p, reg.ledger.plan = .some p → 0 ≤ p.keep.lo ∧ p.give.hi ≤ n

theorem Shared.sameSeats (h : reg.Shared n) (hs : reg.SameSeats reg') : reg'.Shared n where
  wellformed := h.wellformed.sameSeats hs
  layers := hs.layers.trans h.layers
  shares := hs.held_eq ▸ h.shares
  plan := h.wellformed.ledger_sameSeats hs ▸ h.plan

/-- A plan on record is an older one where the pending records are. -/
theorem Wellformed.plan_of_pending (hw : reg.Wellformed) (hw' : reg'.Wellformed)
    (hold : ∀ k g, reg'.hosts.get? k = .some g → g.status = .pending →
      ∃ g₀ range layers, reg.hosts.get? k = .some g₀ ∧ g = g₀.resized range layers) {p : Plan String}
    (hp : reg'.ledger.plan = .some p) : reg.ledger.plan = .some p := by
  obtain ⟨g, hk, hst, hpl⟩ := hw'.plan_some hp
  obtain ⟨g₀, range, layers, hk₀, rfl⟩ := hold _ g hk hst
  exact hw.plan_iff.2 ⟨g₀, hk₀, by simpa [HostRecord.resized] using hst, { hpl with }⟩

/-- What a report changes of what is held. -/
theorem held_adoptReport (hostId : String) (report : Option String) (reg : SwarmRegistry) :
    (after (adoptReport hostId report) reg).held = reg.held ∨
      ∃ host live s, reg.hosts.get? hostId = .some host ∧ host.status = .online ∧ truthy report = .some live ∧
        live ≠ host.blockIndices ∧ spanOf live = .some s ∧
        (after (adoptReport hostId report) reg).held = reg.held.assign hostId s := by
  have hheld : (after (adoptReport hostId report) reg).held =
      Function.update reg.held hostId ((reg.hosts.get? hostId).bind fun h => (h.adopt report).span) := by
    rw [after_adoptReport, held_updateHost]
  -- Where the record's span stays, so does what is held.
  have hsame : (∀ h, reg.hosts.get? hostId = .some h → (h.adopt report).span = h.span) →
      (after (adoptReport hostId report) reg).held = reg.held := by
    intro hid
    rw [hheld]
    refine (congrArg _ ?_).trans (Function.update_eq_self hostId reg.held)
    cases hk : reg.hosts.get? hostId with
    | none => simp [held, hk]
    | some h => simp [held, hk, hid h hk]
  cases hk : reg.hosts.get? hostId with
  | none => exact .inl (hsame fun h hh => by simp [hk] at hh)
  | some host =>
    by_cases hon : host.status = .online
    swap
    · refine .inl (hsame fun h hh => ?_)
      obtain rfl := Option.some.inj (hk.symm.trans hh)
      simp [HostRecord.span, hon]
    cases hr : truthy report with
    | none => exact .inl (hsame fun h _ => by simp [HostRecord.adopt, hr])
    | some live =>
      by_cases he : live = host.blockIndices
      · refine .inl (hsame fun h hh => ?_)
        obtain rfl := Option.some.inj (hk.symm.trans hh)
        simp [HostRecord.adopt, hr, he]
      cases hs : spanOf live with
      | none =>
        refine .inl (hsame fun h hh => ?_)
        obtain rfl := Option.some.inj (hk.symm.trans hh)
        simp [HostRecord.adopt, hr, he, hs]
      | some s =>
        refine .inr ⟨host, live, s, rfl, hon, rfl, he, hs, ?_⟩
        rw [hheld, hk]
        simp [Allocation.assign, HostRecord.adopt, hr, he, hs, HostRecord.span, HostRecord.resized, hon]

theorem Shared.after_adoptReport (h : reg.Shared n) {hostId : String} {report : Option String}
    (hfit : reg.ReportFits hostId report) : (after (adoptReport hostId report) reg).Shared n := by
  obtain ⟨hlayers, hget⟩ := adoptReport_eq hostId report reg
  have hw' := h.wellformed.after_adoptReport hostId report
  refine ⟨hw', hlayers.trans h.layers, ?_, fun p hp => h.plan p (h.wellformed.plan_of_pending hw' ?_ hp)⟩
  · rcases held_adoptReport hostId report reg with he | ⟨host, live, s, hk, hon, hr, hne, hs, he⟩ <;> rw [he]
    · exact h.shares
    · obtain ⟨hin, hclear⟩ := hfit host hk hon live hr hne s hs
      exact h.shares.assign (h.layers ▸ hin) (clear_iff.1 hclear)
  · intro k g hk _
    rw [hget] at hk
    split at hk
    · obtain ⟨g₀, hk₀, rfl⟩ := Option.map_eq_some_iff.1 hk
      obtain ⟨range, layers, he⟩ := g₀.adopt_eq_resized report
      exact ⟨g₀, range, layers, hk₀, he⟩
    · exact ⟨g, g.blockIndices, g.layersHosted, hk, rfl⟩

theorem Shared.of_join (h : reg.Shared n) {layers now : Int} {publicIp url account hostId : String}
    (hfresh : reg.hosts.get? hostId = .none) {reply : JoinReply}
    (hj : join layers publicIp url account hostId now reg = .ok reply reg') : reg'.Shared n := by
  obtain ⟨hn, -, p, hledger, -, hd, -⟩ := h.wellformed.ledger_join hfresh hj
  refine ⟨h.wellformed.of_join hfresh hj, hn.trans h.layers, held_join hfresh hj ▸ h.shares, fun q hq => ?_⟩
  rw [hledger] at hq
  obtain rfl := Option.some.inj hq
  exact (h.shares.span _ _ hd).2

theorem Shared.of_leaveLocked (h : reg.Shared n) {hostId : String} {o : Option String}
    (hl : leaveLocked hostId reg = .ok o reg') : reg'.Shared n := by
  obtain ⟨hrel, hplan⟩ := h.wellformed.ledger_leaveLocked hl
  have hn : reg'.totalLayers = n := by
    obtain ⟨_, _, -, -, -, -, rfl⟩ := leaveLocked_ok hl
    exact h.layers
  exact ⟨h.wellformed.of_leaveLocked hl, hn, hrel ▸ h.shares.release hostId, fun p hp => h.plan p (hplan p hp).1⟩

/-- Growing a host over layers nobody else has takes no other host's. -/
theorem Shared.resize (h : reg.Shared n) {hostId range : String} {m : Span} (hm : spanOf range = .some m)
    (hfit : ∀ _ ∈ reg.held hostId, m.InLayers n ∧ reg.Clear hostId m) :
    (reg.updateHost hostId fun g => g.resized range m.length).Shared n := by
  have hw' : (reg.updateHost hostId fun g => g.resized range m.length).Wellformed :=
    h.wellformed.updateHost (fun _ _ hf => hf.resized hm) fun _ _ => id
  refine ⟨hw', h.layers, ?_, fun p hp => h.plan p (h.wellformed.plan_of_pending hw' ?_ hp)⟩
  · rw [h.wellformed.readable.held_resize hostId hm]
    split
    · next hd =>
      obtain ⟨d, hd⟩ := Option.isSome_iff_exists.1 hd
      obtain ⟨hin, hclear⟩ := hfit d hd
      exact h.shares.assign hin (clear_iff.1 hclear)
    · exact h.shares
  · intro k g hk _
    rw [get?_updateHost] at hk
    split at hk
    · obtain ⟨g₀, hk₀, rfl⟩ := Option.map_eq_some_iff.1 hk
      exact ⟨g₀, _, _, hk₀, rfl⟩
    · exact ⟨g, g.blockIndices, g.layersHosted, hk, rfl⟩

/-- A handoff takes layers of its donor's and its newcomer's only. -/
theorem Shared.of_markReadyCommit (h : reg.Shared n) {plan : ShrinkPlan} {keep give : Span}
    (hks : spanOf plan.shrinkTo = .some keep) (hgs : spanOf plan.assigned = .some give) (hkeep : keep.InLayers n)
    (hgive : give.InLayers n) (hapart : keep.Apart give)
    (hfree : ∀ j, j ≠ plan.donorId → j ≠ plan.hostId → ∀ x, reg.held.Holds j x → x ∉ keep ∧ x ∉ give)
    {peer : Option String} {now : Int} {ret : HostRecord} (hcm : markReadyCommit plan peer now reg = .ok ret reg') :
    reg'.Shared n := by
  obtain ⟨host, donor, hh, hd, hlayers, hget⟩ := markReadyCommit_ok hks hgs hcm
  have hw' := h.wellformed.of_markReadyCommit hks hgs hcm
  have hheld : ∀ k s, reg'.held k = .some s →
      k = plan.hostId ∧ s = give ∨ k = plan.donorId ∧ s = keep ∨
        k ≠ plan.donorId ∧ k ≠ plan.hostId ∧ reg.held k = .some s := by
    intro k s hs
    obtain ⟨g, hk, hon, hsp⟩ := held_eq_some.1 hs
    rw [hget] at hk
    split at hk
    · next he =>
      obtain ⟨g₀, -, rfl⟩ := Option.map_eq_some_iff.1 hk
      exact .inl ⟨he, Option.some.inj (hsp.symm.trans hgs)⟩
    · next hne =>
      split at hk
      · next he =>
        obtain ⟨g₀, -, rfl⟩ := Option.map_eq_some_iff.1 hk
        exact .inr (.inl ⟨he, Option.some.inj (hsp.symm.trans hks)⟩)
      · next hned => exact .inr (.inr ⟨hned, hne, held_eq_some.2 ⟨g, hk, hon, hsp⟩⟩)
  refine ⟨hw', hlayers.trans h.layers, ⟨fun k s hs => ?_, ?_⟩, fun p hp => h.plan p (h.wellformed.plan_of_pending hw' ?_ hp)⟩
  · obtain ⟨-, rfl⟩ | ⟨-, rfl⟩ | ⟨-, -, hold⟩ := hheld k s hs
    · exact hgive
    · exact hkeep
    · exact h.shares.span k s hold
  · rintro j k x ⟨s, hs, hx⟩ ⟨t, ht, hxt⟩
    obtain ⟨rfl, rfl⟩ | ⟨rfl, rfl⟩ | ⟨hjd, hjh, hj⟩ := hheld j s hs <;>
      obtain ⟨rfl, rfl⟩ | ⟨rfl, rfl⟩ | ⟨hkd, hkh, hk⟩ := hheld k t ht
    · rfl
    · exact absurd hx (hapart.not_mem hxt)
    · exact absurd hx (hfree k hkd hkh x ⟨t, hk, hxt⟩).2
    · exact absurd hxt (hapart.not_mem hx)
    · rfl
    · exact absurd hx (hfree k hkd hkh x ⟨t, hk, hxt⟩).1
    · exact absurd hxt (hfree j hjd hjh x ⟨s, hj, hx⟩).2
    · exact absurd hxt (hfree j hjd hjh x ⟨s, hj, hx⟩).1
    · exact h.shares.exclusive j k x ⟨s, hj, hx⟩ ⟨t, hk, hxt⟩
  · intro k g hk hst
    rw [hget] at hk
    split at hk
    · obtain ⟨g₀, -, rfl⟩ := Option.map_eq_some_iff.1 hk
      simp [HostRecord.readied] at hst
    · split at hk
      · obtain ⟨g₀, hk₀, rfl⟩ := Option.map_eq_some_iff.1 hk
        exact ⟨g₀, _, _, hk₀, rfl⟩
      · exact ⟨g, g.blockIndices, g.layersHosted, hk, rfl⟩

theorem Consistent.shared (hc : reg.Consistent) : reg.Shared reg.totalLayers where
  wellformed := hc.wellformed
  layers := rfl
  shares := ⟨fun k s hs => ⟨(hc.sound.span k s hs).1.le, (hc.sound.span k s hs).2⟩, hc.sound.exclusive⟩
  plan := fun p hp => (hc.sound.plan p hp).within

end SwarmRegistry

/-- The two ranges of a handoff under way lie apart in the layers. -/
def Pc.Divides (n : Int) : Pc → Prop
  | .shrink plan _ | .shrunk plan _ => ∀ keep ∈ spanOf plan.shrinkTo, ∀ give ∈ spanOf plan.assigned,
      keep.InLayers n ∧ give.InLayers n ∧ keep.Apart give
  | _ => True

theorem Call.divides_resume (c : Call) (n : Int) : c.resume.pc.Divides n := by
  unfold Call.resume
  split <;> trivial

theorem Request.divides_call (request : Request) (reg : SwarmRegistry) (n : Int) : (request.call reg).pc.Divides n := by
  cases request with
  | leave hostId => trivial
  | markReady hostId peer => trivial
  | reapStale ttl now => exact Call.divides_resume _ n
  | reapStalePending ttl now => exact Call.divides_resume _ n

structure Config.Shared (cfg : Config) (n : Int) : Prop where
  registry : cfg.reg.Shared n
  legible : ∀ c ∈ cfg.calls, c.pc.Legible
  divides : ∀ c ∈ cfg.calls, c.pc.Divides n

/-- **One locked piece that fits**, of any call, keeps the layers shared out. -/
theorem Call.Runs.shared {c c' : Call} {now n : Int} {reg reg' : SwarmRegistry} (h : reg.Shared n)
    (hc : c.pc.Legible) (hd : c.pc.Divides n) (hfit : c.pc.Fits reg) (hr : c.Runs now reg c' reg') :
    reg'.Shared n ∧ c'.pc.Divides n := by
  cases hr with
  | leaveRaises => exact ⟨h, c.divides_resume n⟩
  | leaves _ hl => exact ⟨h.of_leaveLocked hl, c.divides_resume n⟩
  | leavesRange _ hl => exact ⟨h.of_leaveLocked hl, trivial⟩
  | decides => exact ⟨h, trivial⟩
  | givesUp => exact ⟨h, c.divides_resume n⟩
  | reclaimRaises => exact ⟨h, c.divides_resume n⟩
  | @absorbs plan hpc =>
    refine ⟨?_, c.divides_resume n⟩
    rw [hpc] at hc hfit
    obtain ⟨m, hm⟩ := hc
    rcases reclaimCommit_eq hm reg with ⟨-, he⟩ | ⟨_, -, he⟩
    · rwa [after_of_error he]
    · rw [after_of_ok he]
      exact h.resize hm fun d hd => h.layers ▸ hfit d hd m hm
  | readyRaises => exact ⟨h, c.divides_resume n⟩
  | wasOnline _ hl => exact ⟨h.sameSeats (markReadyCheck_sameSeats hl), c.divides_resume n⟩
  | checks _ hl =>
    -- The plan on record divides its donor's layers.
    have h' := h.sameSeats (markReadyCheck_sameSeats hl)
    obtain ⟨p, hp, -, hcar, -⟩ := h.wellformed.markReadyCheck_carries hl
    obtain ⟨h₀, hn⟩ := h'.plan p hp
    obtain ⟨_, -, -, hpl⟩ := h'.wellformed.plan_some hp
    have hk := hpl.keep_pos
    have ha := hpl.adjacent
    have hg := hpl.give_pos
    refine ⟨h', fun keep hkeep give hgive => ?_⟩
    obtain rfl := Option.some.inj (hcar.spanOf_keep.symm.trans hkeep)
    obtain rfl := Option.some.inj (hcar.spanOf_give.symm.trans hgive)
    exact ⟨⟨hk.le, h₀, by omega⟩, ⟨hg.le, by omega, hn⟩, .inl (by omega)⟩
  | @handsOff plan peer hpc =>
    refine ⟨?_, c.divides_resume n⟩
    rw [hpc] at hc hd hfit
    obtain ⟨⟨keep, hk⟩, give, hg⟩ := hc
    obtain ⟨hkeep, hgive, hapart⟩ := hd keep hk give hg
    cases he : markReadyCommit plan peer now reg with
    | error e reg' =>
      obtain ⟨rfl, -⟩ := markReadyCommit_error hk hg he
      rwa [after_of_error he]
    | ok ret reg' =>
      rw [after_of_ok he]
      obtain ⟨host, donor, hh, hd, -⟩ := markReadyCommit_ok hk hg he
      refine h.of_markReadyCommit hk hg hkeep hgive hapart (fun j hjd hjh x hx => ?_) he
      obtain ⟨t, ht, hxt⟩ := hx
      obtain ⟨g, hgj, -⟩ := held_eq_some.1 ht
      obtain ⟨hnk, hng⟩ := hfit (Dict.mem_keys.2 ⟨host, hh⟩) (Dict.mem_keys.2 ⟨donor, hd⟩) j
        (Dict.mem_keys.2 ⟨g, hgj⟩) hjd hjh t ht
      exact ⟨fun hxk => hnk keep hk (Span.meets_iff.2 ⟨x, hxt, hxk⟩),
        fun hxg => hng give hg (Span.meets_iff.2 ⟨x, hxt, hxg⟩)⟩

/-- **One label whose writes fit** keeps the layers shared out. -/
theorem Config.Shared.step {cfg cfg' : Config} {n : Int} {label : ReportingLabel} (h : cfg.Shared n)
    (hfit : cfg.Fits label) (hs : reportingMachine.step cfg label = .some cfg') : cfg'.Shared n := by
  cases label with
  | heartbeat hostId report now =>
    obtain rfl := Option.some.inj hs
    have hadopt := (h.registry.after_adoptReport hfit).sameSeats
      (applyHeartbeatManifest_sameSeats h.registry.wellformed hostId report now)
    exact ⟨hadopt, h.legible, h.divides⟩
  | status hostId reply =>
    obtain rfl := Option.some.inj hs
    refine ⟨?_, h.legible, h.divides⟩
    cases reply with
    | none => exact h.registry
    | some status => exact (h.registry.after_adoptReport hfit).sameSeats (reconcile_sameSeats hostId status cfg.reg)
  | call label =>
    have hsteps := steps_of_step hs
    have hlegible := (Config.Legible.step ⟨h.registry.wellformed, h.legible⟩ hsteps).calls
    cases hsteps with
    | @start request =>
      refine ⟨h.registry, hlegible, fun c hc => ?_⟩
      rcases List.mem_append.1 hc with hc | hc
      · exact h.divides c hc
      · obtain rfl := List.mem_singleton.1 hc
        exact request.divides_call cfg.reg n
    | run hc hr =>
      have hmem := List.mem_of_getElem? hc
      obtain ⟨hreg, hd⟩ := hr.shared h.registry (h.legible _ hmem) (h.divides _ hmem) (hfit _ hc)
      exact ⟨hreg, hlegible, forall_mem_set h.divides hd⟩
    | answer hc hw =>
      refine ⟨h.registry, hlegible, forall_mem_set h.divides ?_⟩
      have hd := h.divides _ (List.mem_of_getElem? hc)
      cases hw with
      | absorb => trivial
      | shrink he =>
        rw [he] at hd
        exact hd
    | @refuse _ c => exact ⟨h.registry, hlegible, forall_mem_set h.divides (c.divides_resume n)⟩
    | join hfresh _ hj => exact ⟨h.registry.of_join hfresh hj, hlegible, h.divides⟩
    | joinRaises => exact h
    | report => exact ⟨h.registry, hlegible, h.divides⟩
    | @deliver _ delivery report hr =>
      exact ⟨(h.registry.after_adoptReport (hfit _ hr)).sameSeats (report.adopt_sameSeats h.registry.wellformed delivery),
        hlegible, h.divides⟩

/-! ## What a request pays out -/

namespace SwarmRegistry

variable {reg : SwarmRegistry} {n : Int}

/-- One request pays the online hosts at most its price, and none of them for
more layers than there are. -/
structure WithinPrice (reg : SwarmRegistry) (settings : Settings) : Prop where
  owed : ((reg.onlinePayoutHosts.map (hostPayout settings.costPerLayerTinybars)).map (·.amountTinybars)).sum ≤
    settings.requestPriceTinybars
  sent : ∀ resolve clock cache,
    ((sent (redistribute settings resolve clock reg.onlinePayoutHosts) cache).map (·.amountTinybars)).sum ≤
      settings.requestPriceTinybars
  each : ∀ p ∈ reg.onlinePayoutHosts.map (hostPayout settings.costPerLayerTinybars), p.layers ≤ settings.totalLayers

theorem Shared.nonneg (h : reg.Shared n) : 0 ≤ n := by
  obtain ⟨m, hm⟩ := h.wellformed.mother
  obtain ⟨s, -, hheld⟩ := h.wellformed.held_online hm ((h.wellformed.each _ m hm).mother rfl)
  have := h.shares.span _ s hheld
  simp only [Span.InLayers] at this
  omega

/-- An online host is counted by the span it holds. -/
theorem Shared.span (h : reg.Shared n) {host : HostRecord} (hv : host ∈ reg.onlinePayoutHosts) :
    ∃ s, spanOf host.blockIndices = .some s ∧ host.layersHosted = s.length ∧ reg.held host.hostId = .some s ∧
      s.InLayers n := by
  simp only [onlinePayoutHosts, List.mem_filter, decide_eq_true_eq] at hv
  have hk := h.wellformed.keyed.get? hv.1
  obtain ⟨s, hs, hlen⟩ := (h.wellformed.each _ host hk).sized
  have hheld := held_eq_some.2 ⟨host, hk, hv.2.1, hs⟩
  exact ⟨s, hs, hlen, hheld, h.shares.span _ s hheld⟩

/-- **Hosts that share the layers out are counted for at most all of them.** -/
theorem Shared.layers_sum_le (h : reg.Shared n) : (reg.onlinePayoutHosts.map (·.layersHosted)).sum ≤ n := by
  let spanAt : HostRecord → Span := fun host => (spanOf host.blockIndices).getD ⟨0, 0⟩
  have hlen : reg.onlinePayoutHosts.map (·.layersHosted) = (reg.onlinePayoutHosts.map spanAt).map Span.length := by
    rw [List.map_map]
    refine List.map_congr_left fun host hv => ?_
    obtain ⟨s, hs, hl, -⟩ := h.span hv
    simp [spanAt, hs, hl]
  have hpair : reg.onlinePayoutHosts.Pairwise fun g h => g.hostId ≠ h.hostId :=
    List.pairwise_map.1 ((List.filter_sublist.map _).nodup h.wellformed.keyed.nodup)
  rw [hlen]
  refine length_sum_le h.nonneg ?_ ?_ ?_
  · rintro _ hmem
    obtain ⟨host, hv, rfl⟩ := List.mem_map.1 hmem
    obtain ⟨s, hs, -, -, hin⟩ := h.span hv
    simp only [spanAt, hs, Option.getD_some, Span.length, Span.InLayers] at hin ⊢
    omega
  · refine List.pairwise_map.2 (hpair.imp_of_mem fun {g g'} hg hg' hne x hx hx' => hne ?_)
    obtain ⟨s, hs, -, hheld, -⟩ := h.span hg
    obtain ⟨t, ht, -, hheld', -⟩ := h.span hg'
    simp only [spanAt, hs, ht, Option.getD_some] at hx hx'
    exact h.shares.exclusive _ _ x ⟨s, hheld, hx⟩ ⟨t, hheld', hx'⟩
  · rintro _ hmem x hx
    obtain ⟨host, hv, rfl⟩ := List.mem_map.1 hmem
    obtain ⟨s, hs, -, -, hin⟩ := h.span hv
    simp only [spanAt, hs, Option.getD_some, Span.mem_iff, Span.InLayers] at hin hx
    omega

theorem Shared.withinPrice {settings : Settings} (h : reg.Shared settings.totalLayers)
    (hcost : 0 ≤ settings.costPerLayerTinybars) : reg.WithinPrice settings := by
  have howed : ((reg.onlinePayoutHosts.map (hostPayout settings.costPerLayerTinybars)).map (·.amountTinybars)).sum ≤
      settings.requestPriceTinybars := by
    have hsum : ((reg.onlinePayoutHosts.map (hostPayout settings.costPerLayerTinybars)).map (·.amountTinybars)).sum =
        (reg.onlinePayoutHosts.map (·.layersHosted)).sum * settings.costPerLayerTinybars := by
      rw [List.map_map, ← List.sum_map_mul_right]
      rfl
    rw [hsum]
    exact mul_le_mul_of_nonneg_right h.layers_sum_le hcost
  refine ⟨howed, fun resolve clock cache => ?_, fun p hp => ?_⟩
  · refine (((sent_sublist settings resolve clock _ cache).map _).sum_le_sum ?_).trans howed
    simp only [List.map_map, List.mem_map, Function.comp_apply, forall_exists_index, and_imp]
    rintro _ host hv rfl
    simp only [onlinePayoutHosts, List.mem_filter, decide_eq_true_eq] at hv
    exact mul_nonneg hv.2.2.2.le hcost
  · obtain ⟨host, hv, rfl⟩ := List.mem_map.1 hp
    obtain ⟨s, -, hl, -, hin⟩ := h.span hv
    simp only [hostPayout, hl, Span.length, Span.InLayers] at hin ⊢
    omega

end SwarmRegistry

/-- **A request pays out at most its price** in every run in which whatever is
about to be written fits. -/
theorem payouts_within_price_of_reaches {model url : String} {now : Int} {wallet : Option String}
    {settings : Settings} {reg₀ : SwarmRegistry} {cfg : Config}
    (h₀ : SwarmRegistry.init model settings.totalLayers url wallet now = .ok reg₀) (hn : 1 ≤ settings.totalLayers)
    (hcost : 0 ≤ settings.costPerLayerTinybars)
    (h : reportingMachine.Reaches (fun cfg label => cfg.Fits label) (.fresh reg₀) cfg) :
    cfg.reg.WithinPrice settings := by
  obtain ⟨hc₀, -, htotal⟩ := consistent_init h₀ hn
  have hfresh : (Config.fresh reg₀).Shared settings.totalLayers :=
    ⟨htotal ▸ hc₀.shared, by simp [Config.fresh], by simp [Config.fresh]⟩
  have hshared := h.invariant (I := fun cfg => cfg.Shared settings.totalLayers) hfresh fun hI hfit hs => hI.step hfit hs
  exact hshared.registry.withinPrice hcost

/-- Host A is made ready and reports fewer layers than its range; while host B's
`mark_ready` waits for the mother's reload, host A leaves, and host B, who takes
its layers over, reports them before the call has written them. -/
def fittingLabels : List ReportingLabel :=
  [.call (joinLabel 4 "host-a"), .call (.start (.markReady "host-a" .none)), .call (.run 0 0), .call (.answer 0),
    .call (.run 0 0), .heartbeat "host-a" { blockIndices := .some "8:11" } 1, .call (joinLabel 4 "host-b"),
    .call (.start (.markReady "host-b" .none)), .call (.start (.leave "host-a")), .call (.run 1 0), .call (.run 2 0),
    .call (.answer 1), .status "mother" .none, .call (.run 1 0), .call (.run 2 0), .call (.answer 2),
    .status "host-b" (.some ⟨.some "4:11", true⟩), .call (.run 2 0)]

theorem payouts_within_price_of_reaches_fitting :
    ∃ cfg, reportingMachine.runIf (fun cfg label => decide (cfg.Fits label)) (.fresh paid) fittingLabels = .some cfg ∧
      (cfg.AtRest ∧ cfg.reg.onlinePayoutHosts.map (fun h => (h.hostId, h.blockIndices, h.layersHosted)) =
        [("mother", "0:4", 4), ("host-b", "4:11", 7)]) ∧ cfg.reg.WithinPrice (directSettings false) := by
  have hrun : ((reportingMachine.runIf (fun cfg label => decide (cfg.Fits label)) (.fresh paid) fittingLabels).any
      fun cfg => decide (cfg.AtRest ∧ cfg.reg.onlinePayoutHosts.map (fun h => (h.hostId, h.blockIndices, h.layersHosted)) =
        [("mother", "0:4", 4), ("host-b", "4:11", 7)])) = true := by decide +kernel
  obtain ⟨cfg, hrun, hcheck⟩ := (Option.any_eq_true _ _).1 hrun
  exact ⟨cfg, hrun, of_decide_eq_true hcheck, payouts_within_price_of_reaches init_paid (by decide) (by decide)
    (.of_runIf (fun _ _ cfg hcheck => of_decide_eq_true hcheck) hrun)⟩

/-- The registry owes more for one request than the price of 120. -/
def SwarmRegistry.overpays (reg : SwarmRegistry) : Bool :=
  120 < ((reg.onlinePayoutHosts.map (hostPayout 10)).map (·.amountTinybars)).sum

theorem SwarmRegistry.not_withinPrice_of_overpays {reg : SwarmRegistry} (h : reg.overpays = true) :
    ¬ reg.WithinPrice (directSettings false) :=
  fun hw => absurd hw.owed (not_le.2 (of_decide_eq_true h))

/-- One online host reports a hundred thousand layers. -/
def overpaidLabels : List ReportingLabel :=
  [.call (joinLabel 4 "host-a"), .call (.start (.markReady "host-a" .none)), .call (.run 0 0), .call (.answer 0),
    .call (.run 0 0), .heartbeat "host-a" { blockIndices := .some "0:100000" } 2]

/-- **One report is paid as reported**: host A is owed a million tinybars, at a
price of a hundred and twenty. -/
theorem report_overpays : ∃ cfg, reportingMachine.run (.fresh paid) overpaidLabels = .some cfg ∧
    ¬ cfg.reg.WithinPrice (directSettings false) := by
  have hsum : ((reportingMachine.run (.fresh paid) overpaidLabels).any (·.reg.overpays)) = true := by decide +kernel
  obtain ⟨cfg, hrun, hsum⟩ := (Option.any_eq_true _ _).1 hsum
  exact ⟨cfg, hrun, not_withinPrice_of_overpays hsum⟩

/-- Host A leaves; while the mother reloads to absorb its layers, host B's
handoff cuts four of hers off. -/
def overtakenLabels : List ReportingLabel :=
  [.call (joinLabel 4 "host-a"), .call (.start (.markReady "host-a" .none)), .call (.run 0 0), .call (.answer 0),
    .call (.run 0 0), .call (joinLabel 4 "host-b"), .call (.start (.leave "host-a")), .call (.run 1 0), .call (.run 1 0),
    .call (.answer 1), .call (.start (.markReady "host-b" .none)), .call (.run 2 0), .call (.answer 2), .call (.run 2 0),
    .call (.run 1 0)]

/-- **A reclaim that was overtaken is paid twice**: the mother for all twelve
layers, host B for four of them again, and nobody has reported anything. -/
theorem overtaken_reclaim_overpays : ∃ cfg, reportingMachine.run (.fresh paid) overtakenLabels = .some cfg ∧
    cfg.AtRest ∧ ¬ cfg.reg.WithinPrice (directSettings false) := by
  have hsum : ((reportingMachine.run (.fresh paid) overtakenLabels).any
      fun cfg => decide cfg.AtRest && cfg.reg.overpays) = true := by decide +kernel
  obtain ⟨cfg, hrun, hcheck⟩ := (Option.any_eq_true _ _).1 hsum
  obtain ⟨hrest, hsum⟩ := Bool.and_eq_true_iff.1 hcheck
  exact ⟨cfg, hrun, of_decide_eq_true hrest, not_withinPrice_of_overpays hsum⟩

end Blitzwing
