/-
Honest reports that arrive late.

Here calls run one at a time and every `/reload` is answered; only reports
may be on their way at any time. A report has no version, so one made before
a handoff and delivered after it gives the donor its old range back, over the
newcomer's (`late_report_overlaps`). Where a report that arrives names the
range on record or the one its shard manager has now, reports change nothing
at rest (`disjoint_of_reaches`): at most, the donor's new range is on record
before the call that asked for it writes it (`Told`).
-/
import Blitzwing.Calls
import Blitzwing.Lifecycle

namespace Blitzwing

open SwarmRegistry

/-- No two online hosts have a layer in common. -/
def SwarmRegistry.OnlineDisjoint (reg : SwarmRegistry) : Prop :=
  ∀ j k g h s t, reg.hosts.get? j = .some g → reg.hosts.get? k = .some h → j ≠ k →
    g.status = .online → h.status = .online → spanOf g.blockIndices = .some s →
    spanOf h.blockIndices = .some t → ∀ x, ¬ (x ∈ s ∧ x ∈ t)

/-- A report that arrives names the range on record, or the one its shard
manager has now. -/
def Config.Prompt (cfg : Config) : Label → Prop
  | .start _ | .join _ _ _ _ _ _ => cfg.AtRest
  | .run _ _ | .answer _ | .report _ => True
  | .refuse _ => False
  | .deliver n _ => ∀ report ∈ cfg.reports[n]?, ∀ host ∈ cfg.reg.hosts.get? report.hostId,
    report.blockIndices = host.blockIndices ∨ cfg.shards report.hostId = .some report.blockIndices

instance (cfg : Config) : (label : Label) → Decidable (cfg.Prompt label)
  | .start _ | .join _ _ _ _ _ _ => inferInstanceAs (Decidable cfg.AtRest)
  | .run _ _ | .answer _ | .report _ => inferInstanceAs (Decidable True)
  | .refuse _ => inferInstanceAs (Decidable False)
  | .deliver n _ => inferInstanceAs (Decidable (∀ report ∈ cfg.reports[n]?, ∀ host ∈ cfg.reg.hosts.get? report.hostId, _ ∨ _))

/-! ## Between a reload and its commit -/

/-- Every host's record is the range its shard manager was last given. -/
def Serves (shards : String → Option String) (reg : SwarmRegistry) : Prop :=
  ∀ k h, reg.hosts.get? k = .some h → shards k = .some h.blockIndices

theorem Serves.sameSeats {shards : String → Option String} {reg reg' : SwarmRegistry} (h : Serves shards reg)
    (hs : reg.SameSeats reg') : Serves shards reg' := by
  intro k g' hk
  obtain ⟨g, hg, hsame⟩ := hs.symm.seated k g' hk
  rw [h k g hg, hsame.blockIndices]

/-- The shard manager of `hostId` has been told `range`, and everybody else's
has what `base` records. The registry is `base` still, or a report has put
`range` on record already. -/
structure Told (base reg : SwarmRegistry) (shards : String → Option String) (hostId range : String) : Prop where
  told : shards hostId = .some range
  others : ∀ k h, base.hosts.get? k = .some h → k ≠ hostId → shards k = .some h.blockIndices
  record : base.SameSeats reg ∨ (after (adoptReport hostId (.some range)) base).SameSeats reg

namespace Told

variable {base reg : SwarmRegistry} {shards : String → Option String} {hostId range : String}

/-- The records of `base` and of the registry differ in the range of `hostId` at most. -/
theorem records (ht : Told base reg shards hostId range) : reg.totalLayers = base.totalLayers ∧
    (∀ k, base.hosts.get? k = .none → reg.hosts.get? k = .none) ∧
    ∀ k h, base.hosts.get? k = .some h → ∃ g, reg.hosts.get? k = .some g ∧ (k ≠ hostId → h.SameSeat g) ∧
      ∀ range layers, (h.resized range layers).SameSeat (g.resized range layers) := by
  rcases ht.record with hs | hs
  · refine ⟨hs.layers, hs.absent, fun k h hk => ?_⟩
    obtain ⟨g, hg, hsame⟩ := hs.seated k h hk
    exact ⟨g, hg, fun _ => hsame, fun range layers => hsame.resized range layers⟩
  · obtain ⟨hn, hget⟩ := adoptReport_eq hostId (.some range) base
    refine ⟨hs.layers.trans hn, fun k hk => hs.absent k (by rw [hget, hk]; split <;> rfl), fun k h hk => ?_⟩
    by_cases hkh : k = hostId
    · obtain ⟨g, hg, hsame⟩ := hs.seated k (h.adopt (.some range)) (by rw [hget, if_pos hkh, hk, Option.map_some])
      obtain ⟨r, n, he⟩ := h.adopt_eq_resized (.some range)
      refine ⟨g, hg, fun hne => absurd hkh hne, fun range layers => ?_⟩
      have := hsame.resized range layers
      rwa [he] at this
    · obtain ⟨g, hg, hsame⟩ := hs.seated k h (by rw [hget, if_neg hkh, hk])
      exact ⟨g, hg, fun _ => hsame, fun range layers => hsame.resized range layers⟩

/-- **A prompt report changes nothing but that.** -/
theorem adopt (ht : Told base reg shards hostId range) (hrange : ∃ s, spanOf range = .some s) {k r : String}
    (hprompt : ∀ g, reg.hosts.get? k = .some g → r = g.blockIndices ∨ shards k = .some r) :
    Told base (after (adoptReport k (.some r)) reg) shards hostId range := by
  refine ⟨ht.told, ht.others, ?_⟩
  obtain ⟨-, habsent, hseated⟩ := ht.records
  -- Either the report is of the range on record, or of the told one.
  have hcase : (∀ g, reg.hosts.get? k = .some g → g.blockIndices = r) ∨ (k = hostId ∧ r = range ∧ base.SameSeats reg) := by
    by_cases hno : ∀ g, reg.hosts.get? k = .some g → g.blockIndices = r
    · exact .inl hno
    push Not at hno
    obtain ⟨g, hg, hne⟩ := hno
    have hshard : shards k = .some r := (hprompt g hg).resolve_left (Ne.symm hne)
    cases hb : base.hosts.get? k with
    | none => simp [habsent k hb] at hg
    | some h =>
      obtain ⟨g', hg', hsame, -⟩ := hseated k h hb
      obtain rfl := Option.some.inj (hg.symm.trans hg')
      by_cases hkh : k = hostId
      · subst hkh
        obtain rfl : range = r := Option.some.inj (ht.told.symm.trans hshard)
        refine .inr ⟨rfl, rfl, ht.record.resolve_right fun hs => hne ?_⟩
        obtain ⟨-, hget⟩ := adoptReport_eq k (.some range) base
        obtain ⟨g', hg', hs'⟩ := hs.seated k (h.adopt (.some range)) (by rw [hget, if_pos rfl, hb, Option.map_some])
        obtain rfl := Option.some.inj (hg.symm.trans hg')
        obtain ⟨s, hsp⟩ := hrange
        rw [hs'.blockIndices, HostRecord.adopt, truthy_of_ne (ne_empty_of_spanOf hsp)]
        simp only [hsp]
        split
        · next he => exact he.symm
        · rfl
      · refine absurd ?_ hne
        rw [(hsame hkh).blockIndices]
        exact Option.some.inj ((ht.others k h hb hkh).symm.trans hshard)
  rcases hcase with hsame | ⟨rfl, rfl, hs⟩
  · exact ht.record.imp (·.trans (adoptReport_recorded hsame)) (·.trans (adoptReport_recorded hsame))
  · exact .inr (hs.adoptReport k (.some r))

/-- Resizing the told host gives the same from the registry as from `base`. -/
theorem sameSeats_resize (ht : Told base reg shards hostId range) (r : String) (layers : Int) :
    (base.updateHost hostId fun h => h.resized r layers).SameSeats (reg.updateHost hostId fun h => h.resized r layers) := by
  obtain ⟨hn, habsent, hseated⟩ := ht.records
  refine ⟨hn, fun k h' hk => ?_, fun k hk => ?_⟩
  · rw [get?_updateHost] at hk ⊢
    split at hk
    · next he =>
      obtain ⟨h, hh, rfl⟩ := Option.map_eq_some_iff.1 hk
      obtain ⟨g, hg, -, hsame⟩ := hseated k h hh
      exact ⟨_, by rw [if_pos he, hg, Option.map_some], hsame r layers⟩
    · next hne =>
      obtain ⟨g, hg, hsame, -⟩ := hseated k h' hk
      exact ⟨g, by rw [if_neg hne, hg], hsame hne⟩
  · rw [get?_updateHost] at hk ⊢
    split at hk
    · next he => rw [if_pos he, habsent k (Option.map_eq_none_iff.1 hk), Option.map_none]
    · next hne => rw [if_neg hne, habsent k hk]

/-- **A reclaim is committed as if no report had come.** -/
theorem reclaimCommit {plan : ReclaimPlan} {r : Span} (ht : Told base reg shards plan.donorId plan.newRange)
    (hc : base.Consistent) (hr : base.Unheld r) (hp : plan.Absorbs base r) :
    (after (Blitzwing.reclaimCommit plan) reg).Consistent ∧ Serves shards (after (Blitzwing.reclaimCommit plan) reg) := by
  obtain ⟨-, habsent, hseated⟩ := ht.records
  obtain ⟨d, m, hd, hnew, hmerge⟩ := hp
  have hm : spanOf plan.newRange = .some m := by simp [hnew]
  obtain ⟨donor, hk, -⟩ := held_eq_some.1 hd
  obtain ⟨donor', hk', -⟩ := hseated _ donor hk
  have hbase : Blitzwing.reclaimCommit plan base =
      .ok () (base.updateHost plan.donorId fun h => h.resized plan.newRange m.length) := by
    rcases reclaimCommit_eq hm base with ⟨hno, -⟩ | ⟨_, -, he⟩
    · simp [hk] at hno
    · exact he
  have hreg : after (Blitzwing.reclaimCommit plan) reg =
      reg.updateHost plan.donorId fun h => h.resized plan.newRange m.length := by
    rcases reclaimCommit_eq hm reg with ⟨hno, -⟩ | ⟨_, -, he⟩
    · simp [hk'] at hno
    · exact after_of_ok he
  rw [hreg]
  have hsame := ht.sameSeats_resize plan.newRange m.length
  refine ⟨((hc.of_reclaimCommit hr ⟨d, m, hd, hnew, hmerge⟩ hbase).1.sameSeats hsame).1, Serves.sameSeats ?_ hsame⟩
  intro k g hg
  rw [get?_updateHost] at hg
  split at hg
  · next he =>
    obtain ⟨h, -, rfl⟩ := Option.map_eq_some_iff.1 hg
    exact he ▸ ht.told
  · next hne => exact ht.others k g hg hne

/-- A handoff gives the same from the registry as from `base`. -/
theorem sameSeats_handoff {plan : ShrinkPlan} {keep give : Span}
    (ht : Told base reg shards plan.donorId plan.shrinkTo) (hks : spanOf plan.shrinkTo = .some keep)
    (hgs : spanOf plan.assigned = .some give) (hne : plan.hostId ≠ plan.donorId) {peer : Option String} {now : Int}
    {ret ret' : HostRecord} {target reg' : SwarmRegistry}
    (hb : Blitzwing.markReadyCommit plan peer now base = .ok ret target)
    (he : Blitzwing.markReadyCommit plan peer now reg = .ok ret' reg') : target.SameSeats reg' := by
  obtain ⟨hn, habsent, hseated⟩ := ht.records
  obtain ⟨-, -, -, -, hbn, hbget⟩ := markReadyCommit_ok hks hgs hb
  obtain ⟨-, -, -, -, hrn, hget⟩ := markReadyCommit_ok hks hgs he
  refine ⟨hrn.trans (hn.trans hbn.symm), fun k g hk => ?_, fun k hk => ?_⟩ <;> rw [hbget] at hk <;> rw [hget]
  · split at hk
    · next hkh =>
      obtain ⟨h, hh, rfl⟩ := Option.map_eq_some_iff.1 hk
      obtain ⟨h', hh', hs, -⟩ := hseated k h hh
      have hkd : k ≠ plan.donorId := hkh ▸ hne
      refine ⟨_, by rw [if_pos hkh, hh', Option.map_some], ?_⟩
      simp only [if_neg hkd]
      exact { hs hkd with
        status := rfl
        blockIndices := rfl
        layersHosted := rfl
        pendingRange := rfl
        donorShrinkTo := rfl }
    · next hkh =>
      split at hk
      · next hkd =>
        obtain ⟨h, hh, rfl⟩ := Option.map_eq_some_iff.1 hk
        obtain ⟨h', hh', -, hs⟩ := hseated k h hh
        exact ⟨_, by rw [if_neg hkh, if_pos hkd, hh', Option.map_some], hs _ _⟩
      · next hkd =>
        obtain ⟨h', hh', hs, -⟩ := hseated k g hk
        exact ⟨h', by rw [if_neg hkh, if_neg hkd, hh'], hs hkd⟩
  · split at hk
    · next hkh => rw [if_pos hkh, habsent k (Option.map_eq_none_iff.1 hk), Option.map_none]
    · next hkh =>
      split at hk
      · next hkd => rw [if_neg hkh, if_pos hkd, habsent k (Option.map_eq_none_iff.1 hk), Option.map_none]
      · next hkd => rw [if_neg hkh, if_neg hkd, habsent k hk]

/-- **So is a handoff.** -/
theorem markReadyCommit {plan : ShrinkPlan} {p : Plan String} (ht : Told base reg shards plan.donorId plan.shrinkTo)
    (hc : base.Consistent) (hplan : base.ledger.plan = .some p) (hcar : plan.Carries p) {donor : HostRecord}
    (hdonor : base.hosts.get? plan.donorId = .some donor) (hon : donor.status = .online) (peer : Option String) (now : Int) :
    (after (Blitzwing.markReadyCommit plan peer now) reg).Consistent ∧
      Serves shards (after (Blitzwing.markReadyCommit plan peer now) reg) := by
  obtain ⟨-, -, hseated⟩ := ht.records
  have hks := hcar.spanOf_keep
  have hgs := hcar.spanOf_give
  obtain ⟨host, hhost, hpend, hpl⟩ := hc.wellformed.plan_some hplan
  rw [hcar.host] at hhost
  have hne : plan.hostId ≠ plan.donorId := by
    intro he
    rw [he, hdonor] at hhost
    obtain rfl := Option.some.inj hhost
    simp [hon] at hpend
  have hassigned : plan.assigned = host.blockIndices := by
    have := hc.reserved _ host hhost hpend
    rw [hpl.give] at this
    exact hcar.give.trans (Option.some.inj this)
  obtain ⟨host', hhost', -⟩ := hseated _ host hhost
  obtain ⟨donor', hdonor', -⟩ := hseated _ donor hdonor
  cases hb : Blitzwing.markReadyCommit plan peer now base with
  | error e _ =>
    have hno := (markReadyCommit_error hks hgs hb).2
    simp [hhost, hdonor] at hno
  | ok ret target =>
  cases he : Blitzwing.markReadyCommit plan peer now reg with
  | error e _ =>
    have hno := (markReadyCommit_error hks hgs he).2
    simp [hhost', hdonor'] at hno
  | ok ret' reg' =>
  have hseats := ht.sameSeats_handoff hks hgs hne hb he
  obtain ⟨-, -, -, -, -, hbget⟩ := markReadyCommit_ok hks hgs hb
  rw [after_of_ok he]
  refine ⟨((hc.of_markReadyCommit hplan hcar hdonor hon hb).1.sameSeats hseats).1, Serves.sameSeats ?_ hseats⟩
  intro k g hk
  rw [hbget] at hk
  split at hk
  · next hkh =>
    subst hkh
    obtain ⟨h, hh, rfl⟩ := Option.map_eq_some_iff.1 hk
    rw [ht.others _ host hhost hne, ← hassigned]
    rfl
  · split at hk
    · next hkd =>
      obtain ⟨h, -, rfl⟩ := Option.map_eq_some_iff.1 hk
      exact hkd ▸ ht.told
    · next hkd => exact ht.others k g hk hkd

end Told

/-! ## The invariant -/

/-- Between calls, and within one until its `/reload` is answered. -/
structure AtPeace (reg : SwarmRegistry) (shards : String → Option String) : Prop where
  consistent : reg.Consistent
  serves : Serves shards reg

theorem AtPeace.sameSeats {reg reg' : SwarmRegistry} {shards : String → Option String} (h : AtPeace reg shards)
    (hs : reg.SameSeats reg') : AtPeace reg' shards := ⟨(h.consistent.sameSeats hs).1, h.serves.sameSeats hs⟩

/-- What the only call in progress has made of the registry and the shard managers. -/
def Pc.Phase (reg : SwarmRegistry) (shards : String → Option String) : Pc → Prop
  | .leave _ | .ready _ _ | .done => AtPeace reg shards
  | .reclaim range => AtPeace reg shards ∧ ∃ r, spanOf range = .some r ∧ reg.Unheld r
  | .absorb plan => AtPeace reg shards ∧ ∃ r, reg.Unheld r ∧ plan.Absorbs reg r
  | .shrink plan _ => AtPeace reg shards ∧ ∃ p, reg.ledger.plan = .some p ∧ plan.Carries p ∧
      ∃ donor, reg.hosts.get? plan.donorId = .some donor ∧ donor.status = .online
  | .absorbed plan => ∃ base, Told base reg shards plan.donorId plan.newRange ∧ base.Consistent ∧
      ∃ r, base.Unheld r ∧ plan.Absorbs base r
  | .shrunk plan _ => ∃ base, Told base reg shards plan.donorId plan.shrinkTo ∧ base.Consistent ∧
      ∃ p, base.ledger.plan = .some p ∧ plan.Carries p ∧
        ∃ donor, base.hosts.get? plan.donorId = .some donor ∧ donor.status = .online

theorem Call.phase_resume {reg : SwarmRegistry} {shards : String → Option String} (c : Call) (h : AtPeace reg shards) :
    c.resume.pc.Phase reg shards := by
  unfold Call.resume
  split <;> exact h

theorem Unheld.sameSeats {reg reg' : SwarmRegistry} {r : Span} (h : reg.Unheld r) (hw : reg.Wellformed)
    (hs : reg.SameSeats reg') : reg'.Unheld r where
  pos := h.pos
  within := hs.layers ▸ h.within
  free := hs.held_eq ▸ h.free
  whole := hw.ledger_sameSeats hs ▸ h.whole

/-- **One locked piece takes a phase to the next.** -/
theorem Call.Runs.phase {c c' : Call} {now : Int} {reg reg' : SwarmRegistry} {shards : String → Option String}
    (hp : c.pc.Phase reg shards) (h : c.Runs now reg c' reg') : c'.pc.Phase reg' shards := by
  have hleft : ∀ {hostId : String} {o : Option String} {reg' : SwarmRegistry}, AtPeace reg shards →
      leaveLocked hostId reg = .ok o reg' → AtPeace reg' shards := by
    intro hostId o reg' hp hl
    refine ⟨(hp.consistent.of_leaveLocked hl).1, fun k g hg => ?_⟩
    obtain ⟨_, _, -, -, -, -, rfl⟩ := leaveLocked_ok hl
    simp only [Dict.get?_erase] at hg
    split at hg
    · simp at hg
    · exact hp.serves k g hg
  cases h with
  | leaveRaises hpc =>
    rw [hpc] at hp
    exact c.phase_resume hp
  | leaves hpc hl =>
    rw [hpc] at hp
    exact c.phase_resume (hleft hp hl)
  | leavesRange hpc hl =>
    rw [hpc] at hp
    exact ⟨hleft hp hl, (hp.consistent.of_leaveLocked hl).2.2 _ rfl⟩
  | decides hpc hl =>
    rw [hpc] at hp
    obtain ⟨hp, r, hr, hun⟩ := hp
    obtain ⟨o, ho, hsome, -⟩ := reclaimLocked_eq hp.consistent.wellformed.keyed hp.consistent.wellformed.readable hr
    obtain rfl := Except.ok.inj (ho.symm.trans hl)
    exact ⟨hp, r, hun, hsome _ rfl⟩
  | givesUp hpc =>
    rw [hpc] at hp
    exact c.phase_resume hp.1
  | reclaimRaises hpc =>
    rw [hpc] at hp
    exact c.phase_resume hp.1
  | absorbs hpc =>
    rw [hpc] at hp
    obtain ⟨base, htold, hc, r, hun, hab⟩ := hp
    obtain ⟨hc', hs'⟩ := htold.reclaimCommit hc hun hab
    exact c.phase_resume ⟨hc', hs'⟩
  | readyRaises hpc =>
    rw [hpc] at hp
    exact c.phase_resume hp
  | wasOnline hpc hl =>
    rw [hpc] at hp
    exact c.phase_resume (hp.sameSeats (markReadyCheck_sameSeats hl))
  | checks hpc hl =>
    rw [hpc] at hp
    obtain ⟨p, hplan, -, hcar, hdonor⟩ := hp.consistent.wellformed.markReadyCheck_carries hl
    exact ⟨hp.sameSeats (markReadyCheck_sameSeats hl), p, hplan, hcar, hdonor⟩
  | @handsOff plan peer hpc =>
    rw [hpc] at hp
    obtain ⟨base, htold, hc, p, hplan, hcar, donor, hdonor, hon⟩ := hp
    obtain ⟨hc', hs'⟩ := htold.markReadyCommit hc hplan hcar hdonor hon peer now
    exact c.phase_resume ⟨hc', hs'⟩

theorem told_of_answer {reg : SwarmRegistry} {shards : String → Option String} (h : Serves shards reg) (hostId range : String) :
    Told reg reg (Function.update shards hostId (.some range)) hostId range :=
  ⟨by simp, fun k g hg hne => by rw [Function.update_of_ne hne, h k g hg], .inl (.refl reg)⟩

/-- An answered `/reload` takes a phase to the next. -/
theorem Call.Waits.phase {c c' : Call} {hostId range : String} {reg : SwarmRegistry} {shards : String → Option String}
    (hp : c.pc.Phase reg shards) (h : c.Waits hostId range c') :
    c'.pc.Phase reg (Function.update shards hostId (.some range)) := by
  cases h with
  | @absorb plan hpc =>
    rw [hpc] at hp
    exact ⟨reg, told_of_answer hp.1.serves _ _, hp.1.consistent, hp.2⟩
  | @shrink plan peer hpc =>
    rw [hpc] at hp
    exact ⟨reg, told_of_answer hp.1.serves _ _, hp.1.consistent, hp.2⟩

/-- **A prompt report keeps the phase.** -/
theorem Pc.Phase.adopt {pc : Pc} {reg : SwarmRegistry} {shards : String → Option String} (hp : pc.Phase reg shards)
    (report : Report) (delivery : Delivery) (hprompt : ∀ g, reg.hosts.get? report.hostId = .some g →
      report.blockIndices = g.blockIndices ∨ shards report.hostId = .some report.blockIndices) :
    pc.Phase (after (report.adopt delivery) reg) shards := by
  -- At peace the shard manager's range is the one on record.
  have hquiet : AtPeace reg shards → reg.SameSeats (after (report.adopt delivery) reg) := by
    intro hp
    refine (adoptReport_recorded fun g hg => ?_).trans (report.adopt_sameSeats hp.consistent.wellformed delivery)
    rcases hprompt g hg with he | hs
    · exact he.symm
    · exact Option.some.inj ((hp.serves _ g hg).symm.trans hs)
  have htold : ∀ {base : SwarmRegistry} {hostId range : String}, Told base reg shards hostId range → base.Consistent →
      (∃ s, spanOf range = .some s) → Told base (after (report.adopt delivery) reg) shards hostId range := by
    intro base hostId range ht hc hrange
    have hadopt := ht.adopt hrange hprompt
    have hw : reg.Wellformed := ht.record.elim hc.wellformed.sameSeats
      (hc.wellformed.after_adoptReport hostId (.some range)).sameSeats
    have hs := report.adopt_sameSeats hw delivery
    exact ⟨ht.told, ht.others, hadopt.record.imp (·.trans hs) (·.trans hs)⟩
  cases pc with
  | leave hostId => exact AtPeace.sameSeats hp (hquiet hp)
  | ready hostId peer => exact AtPeace.sameSeats hp (hquiet hp)
  | done => exact AtPeace.sameSeats hp (hquiet hp)
  | reclaim range =>
    obtain ⟨hp, r, hr, hun⟩ := hp
    have hs := hquiet hp
    exact ⟨hp.sameSeats hs, r, hr, Unheld.sameSeats hun hp.consistent.wellformed hs⟩
  | absorb plan =>
    obtain ⟨hp, r, hun, d, m, hd, hnew, hmerge⟩ := hp
    have hs := hquiet hp
    refine ⟨hp.sameSeats hs, r, Unheld.sameSeats hun hp.consistent.wellformed hs, d, m, hs.held_eq ▸ hd, hnew, ?_⟩
    simpa only [MergesTo, hs.held_eq] using hmerge
  | shrink plan peer =>
    obtain ⟨hp, p, hplan, hcar, donor, hd, hon⟩ := hp
    have hs := hquiet hp
    obtain ⟨donor', hd', hsame⟩ := hs.seated _ donor hd
    exact ⟨hp.sameSeats hs, p, hp.consistent.wellformed.ledger_sameSeats hs ▸ hplan, hcar, donor', hd',
      hsame.status.trans hon⟩
  | absorbed plan =>
    obtain ⟨base, ht, hc, r, hun, d, m, hd, hnew, hmerge⟩ := hp
    exact ⟨base, htold ht hc ⟨m, by simp [hnew]⟩, hc, r, hun, d, m, hd, hnew, hmerge⟩
  | shrunk plan peer =>
    obtain ⟨base, ht, hc, p, hplan, hcar, hdonor⟩ := hp
    exact ⟨base, htold ht hc ⟨_, hcar.spanOf_keep⟩, hc, p, hplan, hcar, hdonor⟩

/-- One call at most is in progress, in the phase it says. -/
def Config.Orderly (cfg : Config) : Prop :=
  (cfg.AtRest ∧ AtPeace cfg.reg cfg.shards) ∨
    ∃ i c, cfg.calls[i]? = .some c ∧ (∀ c' ∈ cfg.calls.eraseIdx i, c'.pc = .done) ∧ c.pc.Phase cfg.reg cfg.shards

/-- The call that takes a step is the one in progress. -/
theorem Config.Orderly.active {cfg : Config} (ho : cfg.Orderly) {i : Nat} {c : Call} (hc : cfg.calls[i]? = .some c)
    (hnot : c.pc ≠ .done) : (∀ c' ∈ cfg.calls.eraseIdx i, c'.pc = .done) ∧ c.pc.Phase cfg.reg cfg.shards := by
  rcases ho with ⟨hrest, -⟩ | ⟨j, c', hc', hothers, hp⟩
  · exact absurd (hrest c (List.mem_of_getElem? hc)) hnot
  · by_cases hij : i = j
    · subst hij
      obtain rfl := Option.some.inj (hc.symm.trans hc')
      exact ⟨hothers, hp⟩
    · exact absurd (hothers c (mem_others_of_ne hc hij)) hnot

theorem Config.Orderly.atPeace {cfg : Config} (ho : cfg.Orderly) (hrest : cfg.AtRest) : AtPeace cfg.reg cfg.shards := by
  rcases ho with ⟨-, hp⟩ | ⟨i, c, hc, -, hp⟩
  · exact hp
  · rw [hrest c (List.mem_of_getElem? hc)] at hp
    exact hp

theorem Call.Runs.not_done {c c' : Call} {now : Int} {reg reg' : SwarmRegistry} (h : c.Runs now reg c' reg') :
    c.pc ≠ .done := by
  cases h <;> simp_all

theorem Call.Waits.not_done {c c' : Call} {hostId range : String} (h : c.Waits hostId range c') : c.pc ≠ .done := by
  cases h <;> simp_all

theorem Config.Orderly.of_set {cfg cfg' : Config} {i : Nat} {c c' : Call} (hc : cfg.calls[i]? = .some c)
    (hothers : ∀ c₀ ∈ cfg.calls.eraseIdx i, c₀.pc = .done) (hcalls : cfg'.calls = cfg.calls.set i c')
    (hp : c'.pc.Phase cfg'.reg cfg'.shards) : cfg'.Orderly := by
  refine .inr ⟨i, c', ?_, ?_, hp⟩
  · rw [hcalls]
    exact List.getElem?_set_self (List.getElem?_eq_some_iff.1 hc).1
  · rw [hcalls, List.eraseIdx_set_eq]
    exact hothers

theorem Request.phase_call {reg : SwarmRegistry} {shards : String → Option String} (request : Request)
    (h : AtPeace reg shards) : (request.call reg).pc.Phase reg shards := by
  cases request with
  | leave hostId => exact h
  | markReady hostId peer => exact h
  | reapStale ttl now => exact Call.phase_resume _ h
  | reapStalePending ttl now => exact Call.phase_resume _ h

theorem AtPeace.of_join {reg reg' : SwarmRegistry} {shards : String → Option String} (h : AtPeace reg shards)
    {layers now : Int} {publicIp url account hostId : String} {reply : JoinReply}
    (hfresh : reg.hosts.get? hostId = .none) (hj : join layers publicIp url account hostId now reg = .ok reply reg') :
    AtPeace reg' (Function.update shards hostId (.some reply.blockIndices)) := by
  refine ⟨h.consistent.of_join hfresh hj, fun k g hk => ?_⟩
  obtain ⟨record, hrec, rfl⟩ := join_ok hj
  simp only [Dict.get?_set] at hk
  split at hk
  · next he =>
    obtain rfl := Option.some.inj hk
    rw [he, Function.update_self, (joinRecord_assigned hrec).1]
  · next hne => rw [Function.update_of_ne hne, h.serves k g hk]

theorem Config.Orderly.step {cfg cfg' : Config} {label : Label} (ho : cfg.Orderly) (hprompt : cfg.Prompt label)
    (h : cfg.Steps label cfg') : cfg'.Orderly := by
  cases h with
  | @start request =>
    refine .inr ⟨cfg.calls.length, request.call cfg.reg, by simp, fun c hc => ?_, request.phase_call (ho.atPeace hprompt)⟩
    rw [List.eraseIdx_append_of_length_le (le_refl _)] at hc
    exact hprompt c (by simpa using hc)
  | run hc hr =>
    obtain ⟨hothers, hp⟩ := ho.active hc hr.not_done
    exact .of_set hc hothers rfl (hr.phase hp)
  | answer hc hw =>
    obtain ⟨hothers, hp⟩ := ho.active hc hw.not_done
    exact .of_set hc hothers rfl (hw.phase hp)
  | refuse => exact absurd hprompt id
  | join hfresh _ hj => exact .inl ⟨hprompt, (ho.atPeace hprompt).of_join hfresh hj⟩
  | joinRaises => exact ho
  | report => exact ho
  | @deliver n delivery report hreport =>
    have hfits := fun g hg => hprompt report hreport g hg
    rcases ho with ⟨hrest, hp⟩ | ⟨i, c, hc, hothers, hp⟩
    · have hdone : Pc.done.Phase cfg.reg cfg.shards := hp
      exact .inl ⟨hrest, hdone.adopt report delivery hfits⟩
    · exact .inr ⟨i, c, hc, hothers, hp.adopt report delivery hfits⟩

/-- **Prompt reports leave the online ranges disjoint at rest**, from a fresh
registry on, wherever they come between the calls and within them. -/
theorem disjoint_of_reaches {model url : String} {totalLayers now : Int} {wallet : Option String} {reg₀ : SwarmRegistry}
    {cfg : Config} (h₀ : SwarmRegistry.init model totalLayers url wallet now = .ok reg₀) (hn : 1 ≤ totalLayers)
    (h : callsMachine.Reaches (fun cfg label => cfg.Prompt label) (Config.fresh reg₀) cfg) (hrest : cfg.AtRest) :
    cfg.reg.OnlineDisjoint := by
  have hstart : (Config.fresh reg₀).Orderly := by
    refine .inl ⟨by simp [Config.AtRest, Config.fresh], (consistent_init h₀ hn).1, fun k g hk => ?_⟩
    simp only [Config.fresh] at hk ⊢
    simp [hk]
  have ho : cfg.Orderly := h.invariant (I := Config.Orderly) hstart fun ho hprompt hs =>
    ho.step hprompt (steps_of_step hs)
  exact (ho.atPeace hrest).consistent.structured.disjoint

/-! ## Runs -/

/-- Host A is made ready with eight of twelve layers, and host B reserves the
top two of them. -/
def reserved : List Label :=
  [joinLabel 8 "host-a", .start (.markReady "host-a" .none), .run 0 0, .answer 0, .run 0 0, joinLabel 2 "host-b"]

/-- Host A reports its new range before `mark_ready` has written it, and its
old one arrives while that is still on record. -/
def promptLabels : List Label :=
  reserved ++ [.report "host-a", .start (.markReady "host-b" .none), .deliver 0 (.heartbeat {} 1), .run 1 0, .answer 1,
    .report "host-a", .deliver 0 (.status true), .run 1 0]

theorem disjoint_of_reaches_prompt :
    ∃ cfg, callsMachine.runIf (fun cfg label => decide (cfg.Prompt label)) (Config.fresh (demo 12)) promptLabels =
      .some cfg ∧ cfg.reg.OnlineDisjoint := by
  have hrest : ((callsMachine.runIf (fun cfg label => decide (cfg.Prompt label)) (Config.fresh (demo 12))
      promptLabels).any fun cfg => decide cfg.AtRest) = true := by decide +kernel
  obtain ⟨cfg, hrun, hrest⟩ := (Option.any_eq_true _ _).1 hrest
  exact ⟨cfg, hrun, disjoint_of_reaches (init_demo 12) (by decide)
    (.of_runIf (fun _ _ cfg hcheck => of_decide_eq_true hcheck) hrun) (of_decide_eq_true hrest)⟩

/-- Host A's heartbeat is sent before host B is made ready, and arrives after. -/
def lateLabels : List Label :=
  reserved ++ [.report "host-a", .start (.markReady "host-b" .none), .run 1 0, .answer 1, .run 1 0,
    .deliver 0 (.heartbeat {} 1)]

/-- **A late report overlaps**: host A has layers 4 to 12 on record again, and
host B the last two of them. -/
theorem late_report_overlaps :
    ∃ cfg, callsMachine.run (Config.fresh (demo 12)) lateLabels = .some cfg ∧ cfg.AtRest ∧ ¬ cfg.reg.OnlineDisjoint := by
  have hrun : ((callsMachine.run (Config.fresh (demo 12)) lateLabels).any fun cfg => decide cfg.AtRest &&
      ((cfg.reg.hosts.get? "host-a").any fun h => h.status = .online ∧ spanOf h.blockIndices = .some ⟨4, 12⟩) &&
      (cfg.reg.hosts.get? "host-b").any fun h => h.status = .online ∧ spanOf h.blockIndices = .some ⟨10, 12⟩) = true := by
    decide +kernel
  obtain ⟨cfg, hrun, hcheck⟩ := (Option.any_eq_true _ _).1 hrun
  simp only [Bool.and_eq_true, decide_eq_true_eq, Option.any_eq_true] at hcheck
  obtain ⟨⟨hrest, a, ha, haon, has⟩, b, hb, hbon, hbs⟩ := hcheck
  exact ⟨cfg, hrun, hrest, fun hd => hd "host-a" "host-b" a b _ _ ha hb (by decide) haon hbon has hbs 10 (by decide)⟩

end Blitzwing
