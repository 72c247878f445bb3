/-
`orchestrator/app/swarm_map.py`, the two paths that adopt a shard's own word
for its layers: the contributor's heartbeat and the `/status` probe.

Both compare the reported range with the record and, where it differs, parse
it and write it with its length (`adoptReport`); nothing else is asked of it.
A report that does not parse raises, after the heartbeat time was written. A
`/status` reply whose `block_indices` is no string raises as one that does
not parse, so a reply is its text. The manifest `refresh_live_status` builds
at the end reads the registry only and is left out.
-/
import Blitzwing.Records

namespace Blitzwing

open SwarmRegistry

/-- `if block_indices and block_indices != host.block_indices`, and the two
assignments under it. -/
def adoptReport (hostId : String) (blockIndices : Option String) : SwarmM Unit :=
  locked fun reg =>
    match reg.hosts.get? hostId, truthy blockIndices with
    | .some host, .some live =>
      if live = host.blockIndices then .ok ((), reg)
      else do
        let (start, «end») ← parseRange live
        return ((), reg.updateHost hostId fun h => { h with blockIndices := live, layersHosted := «end» - start })
    | _, _ => .ok ((), reg)

structure HeartbeatReport where
  blockIndices : Option String := .none
  petalsRunning : Option Bool := .none
  peerMultiaddr : Option String := .none
  shardManagerUrl : Option String := .none
deriving DecidableEq, Repr

/-- Assign to a host's fields if there is a value for it. -/
def SwarmRegistry.setIf {α : Type} (reg : SwarmRegistry) (hostId : String) (value : Option α)
    (f : α → HostRecord → HostRecord) : SwarmRegistry :=
  match value with
  | .some a => reg.updateHost hostId (f a)
  | .none => reg

/-- What a heartbeat says of the host beside its layers. -/
def noteContact (hostId : String) (report : HeartbeatReport) (reg : SwarmRegistry) : SwarmRegistry :=
  let reg := reg.setIf hostId (truthy report.shardManagerUrl) fun url h =>
    { h with shardManagerUrl := PyText.rstrip url '/' }
  let reg := reg.setIf hostId (truthy report.peerMultiaddr) fun peer h => { h with peerMultiaddr := .some peer }
  let reg := reg.addBootstrapPeer report.peerMultiaddr
  reg.setIf hostId report.petalsRunning fun running h => { h with petalsRunning := .some running }

/-- Update host liveness and layer report from a contributor's heartbeat. -/
def applyHeartbeatManifest (hostId : String) (report : HeartbeatReport) (now : Int) : SwarmM Unit := do
  heartbeat hostId now
  adoptReport hostId report.blockIndices
  modify (noteContact hostId report)

/-- What a shard manager answers a `/status` probe. -/
structure StatusReply where
  blockIndices : Option String
  running : Bool
deriving DecidableEq, Repr

/-- The turn of `refresh_live_status` for one host, `none` where the probe failed. -/
def reconcile (hostId : String) : Option StatusReply → SwarmM Unit
  | .none => return
  | .some status => do
    adoptReport hostId status.blockIndices
    modify fun reg => reg.updateHost hostId fun h => { h with petalsRunning := .some status.running }

/-- Probe each online host's shard manager and reconcile layer ownership with
the registry; the first reply that does not parse ends the loop. -/
def reconcileAll (probe : String → Option StatusReply) : List String → SwarmM Unit
  | [] => return
  | hostId :: rest => do
    reconcile hostId (probe hostId)
    reconcileAll probe rest

def refreshLiveStatus (probe : String → Option StatusReply) : SwarmM Unit := do
  let online := (← get).hosts.values.filter (·.status = .online)
  reconcileAll probe (online.map (·.hostId))

/-! ## What a report changes -/

/-- A record after a report: a range that parses and differs is written as it is. -/
def HostRecord.adopt (report : Option String) (h : HostRecord) : HostRecord :=
  match truthy report with
  | .none => h
  | .some live =>
    if live = h.blockIndices then h
    else match spanOf live with
      | .some s => h.resized live s.length
      | .none => h

/-- A report changes the range and its length, or nothing. -/
theorem HostRecord.adopt_eq_resized (h : HostRecord) (report : Option String) :
    ∃ range layers, h.adopt report = h.resized range layers := by
  unfold HostRecord.adopt
  split
  · exact ⟨_, _, rfl⟩
  · split
    · exact ⟨_, _, rfl⟩
    · split <;> exact ⟨_, _, rfl⟩

/-- A report of the recorded range changes nothing. -/
theorem HostRecord.adopt_self (h : HostRecord) : h.adopt (.some h.blockIndices) = h := by
  unfold HostRecord.adopt
  split
  · rfl
  · next live hlive => exact if_pos (Option.some.inj (truthy_eq_some hlive)).symm

theorem HostRecord.SameSeat.resized {h h' : HostRecord} (hs : h.SameSeat h') (range : String) (layers : Int) :
    (h.resized range layers).SameSeat (h'.resized range layers) :=
  { hs with blockIndices := rfl, layersHosted := rfl }

theorem HostRecord.SameSeat.adopt {h h' : HostRecord} (hs : h.SameSeat h') (report : Option String) :
    (h.adopt report).SameSeat (h'.adopt report) := by
  simp only [HostRecord.adopt, hs.blockIndices]
  split
  · exact hs
  · split
    · exact hs
    · split
      · exact { hs with blockIndices := rfl, layersHosted := rfl }
      · exact hs

theorem HostRecord.Fit.adopt {h : HostRecord} {k : String} (hf : h.Fit k) (report : Option String) :
    (h.adopt report).Fit k := by
  unfold HostRecord.adopt
  split
  · exact hf
  · split
    · exact hf
    · split
      · next s hs => exact hf.resized hs
      · exact hf

@[simp] theorem HostRecord.adopt_status (h : HostRecord) (report : Option String) :
    (h.adopt report).status = h.status := by
  obtain ⟨_, _, hadopt⟩ := h.adopt_eq_resized report
  rw [hadopt, HostRecord.resized]

@[simp] theorem HostRecord.adopt_hostId (h : HostRecord) (report : Option String) :
    (h.adopt report).hostId = h.hostId := by
  obtain ⟨_, _, hadopt⟩ := h.adopt_eq_resized report
  rw [hadopt, HostRecord.resized]

@[simp] theorem HostRecord.adopt_ensName (h : HostRecord) (report : Option String) :
    (h.adopt report).ensName = h.ensName := by
  obtain ⟨_, _, hadopt⟩ := h.adopt_eq_resized report
  rw [hadopt, HostRecord.resized]

@[simp] theorem HostRecord.adopt_lastHeartbeat (h : HostRecord) (report : Option String) :
    (h.adopt report).lastHeartbeat = h.lastHeartbeat := by
  obtain ⟨_, _, hadopt⟩ := h.adopt_eq_resized report
  rw [hadopt, HostRecord.resized]

/-- A report that `parse_range` raises on. -/
def HostRecord.Unreadable (h : HostRecord) (report : Option String) : Prop :=
  ∃ live, truthy report = .some live ∧ live ≠ h.blockIndices ∧ spanOf live = .none

theorem HostRecord.adopt_of_falsy {h : HostRecord} {report : Option String} (hr : truthy report = .none) :
    h.adopt report = h := by
  simp [HostRecord.adopt, hr]

theorem HostRecord.adopt_of_span {h : HostRecord} {blocks : String} {s : Span} (hs : spanOf blocks = .some s)
    (hne : blocks ≠ h.blockIndices) : h.adopt (.some blocks) = h.resized blocks s.length := by
  simp [HostRecord.adopt, truthy_of_ne (ne_empty_of_spanOf hs), hne, hs]

theorem HostRecord.adopt_of_unreadable {h : HostRecord} {report : Option String} (hbreaks : h.Unreadable report) :
    h.adopt report = h := by
  obtain ⟨live, hlive, hne, hnone⟩ := hbreaks
  simp [HostRecord.adopt, hlive, hne, hnone]

namespace SwarmRegistry

variable {reg reg' : SwarmRegistry}

/-- **A report of a registered host** is adopted, or raises and changes nothing. -/
theorem adoptReport_cases {k : String} {h : HostRecord} (hk : reg.hosts.get? k = .some h) (report : Option String) :
    (¬ h.Unreadable report ∧ adoptReport k report reg = .ok () (reg.updateHost k (·.adopt report))) ∨
      h.Unreadable report ∧ ∃ e, adoptReport k report reg = .error e reg := by
  have hsame : h.adopt report = h → reg.updateHost k (·.adopt report) = reg := by
    intro hadopt
    refine updateHost_eq_self ?_
    intro g hg
    obtain rfl := Option.some.inj (hk.symm.trans hg)
    exact hadopt
  cases ht : truthy report with
  | none =>
    refine .inl ⟨?_, ?_⟩
    · intro hbad
      obtain ⟨live, hlive, -⟩ := hbad
      rw [ht] at hlive
      cases hlive
    · rw [hsame (HostRecord.adopt_of_falsy ht)]
      simp only [adoptReport, locked, hk, ht]
  | some live =>
    obtain rfl := truthy_eq_some ht
    by_cases he : live = h.blockIndices
    · refine .inl ⟨?_, ?_⟩
      · intro hbad
        obtain ⟨live', hlive', hne, -⟩ := hbad
        exact hne ((Option.some.inj (ht.symm.trans hlive')).symm.trans he)
      · rw [hsame (he ▸ h.adopt_self)]
        simp only [adoptReport, locked, hk, ht, if_pos he]
    cases hp : parseRange live with
    | error e =>
      refine .inr ⟨⟨live, ht, he, by simp [spanOf, hp]⟩, e, ?_⟩
      simp [adoptReport, locked, hk, ht, he, hp]
    | ok p =>
      obtain ⟨start, «end»⟩ := p
      have hspan := spanOf_of_parseRange hp
      refine .inl ⟨?_, ?_⟩
      · intro hbad
        obtain ⟨live', hlive', -, hnone⟩ := hbad
        obtain rfl := Option.some.inj (ht.symm.trans hlive')
        rw [hspan] at hnone
        cases hnone
      · have hadopt : reg.updateHost k (·.adopt (.some live)) =
            reg.updateHost k fun h => { h with blockIndices := live, layersHosted := «end» - start } := by
          refine updateHost_congr ?_
          intro g hg
          obtain rfl := Option.some.inj (hk.symm.trans hg)
          exact HostRecord.adopt_of_span hspan he
        rw [hadopt]
        simp [adoptReport, locked, hk, ht, he, hp]

/-- A report leaves the record `adopt` gives, whether it raises or not. -/
theorem after_adoptReport (hostId : String) (report : Option String) (reg : SwarmRegistry) :
    after (adoptReport hostId report) reg = reg.updateHost hostId (·.adopt report) := by
  cases hk : reg.hosts.get? hostId with
  | none =>
    have hreg : after (adoptReport hostId report) reg = reg := by simp only [after, adoptReport, locked, hk]
    rw [hreg, updateHost_eq_self]
    intro h hh
    rw [hk] at hh
    cases hh
  | some host =>
    obtain ⟨-, hok⟩ | ⟨hbreaks, e, herr⟩ := adoptReport_cases hk report
    · exact after_of_ok hok
    · rw [after_of_error herr, updateHost_eq_self]
      intro h hh
      obtain rfl := Option.some.inj (hk.symm.trans hh)
      exact HostRecord.adopt_of_unreadable hbreaks

theorem adoptReport_eq (hostId : String) (report : Option String) (reg : SwarmRegistry) :
    (after (adoptReport hostId report) reg).totalLayers = reg.totalLayers ∧
      ∀ k, (after (adoptReport hostId report) reg).hosts.get? k =
        if k = hostId then (reg.hosts.get? k).map (·.adopt report) else reg.hosts.get? k := by
  rw [after_adoptReport]
  exact ⟨rfl, fun k => get?_updateHost reg hostId k _⟩

theorem Wellformed.after_adoptReport (hw : reg.Wellformed) (hostId : String) (report : Option String) :
    (after (adoptReport hostId report) reg).Wellformed := by
  rw [SwarmRegistry.after_adoptReport]
  refine hw.updateHost (fun _ _ hf => hf.adopt report) ?_
  intro h _ hp
  rwa [h.adopt_status] at hp

/-- A report of the range on record changes nothing. -/
theorem adoptReport_recorded {hostId range : String}
    (h : ∀ g, reg.hosts.get? hostId = .some g → g.blockIndices = range) :
    reg.SameSeats (after (adoptReport hostId (.some range)) reg) := by
  rw [after_adoptReport, updateHost_eq_self]
  · exact .refl reg
  · intro g hg
    obtain rfl := h g hg
    exact g.adopt_self

/-- A heartbeat that carries no range adopts none. -/
theorem adoptReport_none (hostId : String) (reg : SwarmRegistry) : after (adoptReport hostId .none) reg = reg := by
  rw [after_adoptReport]
  exact updateHost_eq_self fun _ _ => HostRecord.adopt_of_falsy rfl

/-- A report is adopted by what `SameSeats` keeps. -/
theorem SameSeats.adoptReport (h : reg.SameSeats reg') (hostId : String) (report : Option String) :
    (after (adoptReport hostId report) reg).SameSeats (after (Blitzwing.adoptReport hostId report) reg') := by
  obtain ⟨hn, hget⟩ := adoptReport_eq hostId report reg
  obtain ⟨hn', hget'⟩ := adoptReport_eq hostId report reg'
  refine ⟨hn'.trans (h.layers.trans hn.symm), fun k g hk => ?_, fun k hk => ?_⟩ <;> rw [hget] at hk <;> rw [hget']
  · split at hk
    · next he =>
      obtain ⟨g₀, hg₀, rfl⟩ := Option.map_eq_some_iff.1 hk
      obtain ⟨g₁, hg₁, hs⟩ := h.seated k g₀ hg₀
      exact ⟨g₁.adopt report, by rw [if_pos he, hg₁, Option.map_some], hs.adopt report⟩
    · next hne =>
      rw [if_neg hne]
      exact h.seated k g hk
  · split at hk
    · next he => rw [if_pos he, h.absent k (Option.map_eq_none_iff.1 hk), Option.map_none]
    · next hne => rw [if_neg hne, h.absent k hk]

/-! ## A heartbeat and a probe are reports -/

theorem SameSeats.setIf {α : Type} (hostId : String) (value : Option α) {f : α → HostRecord → HostRecord}
    (hf : ∀ a, ∀ h : HostRecord, h.SameSeat (f a h)) : reg.SameSeats (reg.setIf hostId value f) := by
  cases value with
  | none => exact .refl reg
  | some a => exact .updateHost fun h _ => hf a h

theorem noteContact_sameSeats (hostId : String) (report : HeartbeatReport) (reg : SwarmRegistry) :
    reg.SameSeats (noteContact hostId report reg) := by
  unfold noteContact
  refine .trans (.setIf hostId (truthy report.shardManagerUrl) ?_) (.trans
    (.setIf hostId (truthy report.peerMultiaddr) ?_) (.trans (.addBootstrapPeer _ report.peerMultiaddr)
      (.setIf hostId report.petalsRunning ?_)))
  all_goals exact fun _ _ => ⟨rfl, rfl, rfl, rfl, rfl, rfl, rfl, rfl⟩

/-- With nobody offline, a heartbeat changes the time alone. -/
theorem heartbeat_sameSeats (hw : reg.Wellformed) (hostId : String) (now : Int) :
    reg.SameSeats (after (heartbeat hostId now) reg) := by
  simp only [after, heartbeat, locked]
  cases hk : reg.hosts.get? hostId with
  | none => exact .refl _
  | some host =>
    refine .updateHost fun h hh => ⟨rfl, rfl, ?_, rfl, rfl, rfl, rfl, rfl⟩
    exact if_neg (hw.each _ h hh).live

/-- **A heartbeat is an adopted report**, as far as the layers go. -/
theorem applyHeartbeatManifest_sameSeats (hw : reg.Wellformed) (hostId : String) (report : HeartbeatReport) (now : Int) :
    (after (adoptReport hostId report.blockIndices) reg).SameSeats
      (after (applyHeartbeatManifest hostId report now) reg) := by
  simp only [applyHeartbeatManifest]
  cases hh : heartbeat hostId now reg with
  | error e reg₁ =>
    obtain ⟨hb, rfl⟩ := locked_error.1 hh
    have hk : reg₁.hosts.get? hostId = .none := by
      cases hk : reg₁.hosts.get? hostId with
      | none => rfl
      | some host => simp [hk] at hb
    rw [after_bind_error hh]
    simp only [after, adoptReport, locked, hk]
    exact .refl _
  | ok _ reg₁ =>
    have hs := heartbeat_sameSeats hw hostId now
    rw [after_of_ok hh] at hs
    have hadopt := hs.adoptReport hostId report.blockIndices
    rw [after_bind_ok hh]
    cases ha : adoptReport hostId report.blockIndices reg₁ with
    | error e reg₂ =>
      rw [after_of_error ha] at hadopt
      rwa [after_bind_error ha]
    | ok _ reg₂ =>
      rw [after_of_ok ha] at hadopt
      rw [after_bind_ok ha]
      exact hadopt.trans (noteContact_sameSeats hostId report reg₂)

/-- The turn of a probe is one, too. -/
theorem reconcile_sameSeats (hostId : String) (status : StatusReply) (reg : SwarmRegistry) :
    (after (adoptReport hostId status.blockIndices) reg).SameSeats (after (reconcile hostId (.some status)) reg) := by
  simp only [reconcile]
  cases ha : adoptReport hostId status.blockIndices reg with
  | error e reg₁ =>
    rw [after_bind_error ha, after_of_error ha]
    exact .refl _
  | ok _ reg₁ =>
    rw [after_bind_ok ha, after_of_ok ha]
    exact .updateHost fun h _ => ⟨rfl, rfl, rfl, rfl, rfl, rfl, rfl, rfl⟩

/-- What adopting any report and losing track of `SameSeats` keep, a refresh keeps. -/
theorem reconcileAll_keeps {P : SwarmRegistry → Prop} (hadopt : ∀ hostId report reg, P reg →
      P (after (adoptReport hostId report) reg)) (hsame : ∀ reg reg', P reg → reg.SameSeats reg' → P reg')
    (probe : String → Option StatusReply) (hostIds : List String) (h : P reg) :
    P (after (reconcileAll probe hostIds) reg) := by
  induction hostIds generalizing reg with
  | nil => exact h
  | cons hostId rest ih =>
    have hone : P (after (reconcile hostId (probe hostId)) reg) := by
      cases probe hostId with
      | none => exact h
      | some status => exact hsame _ _ (hadopt hostId _ reg h) (reconcile_sameSeats hostId status reg)
    simp only [reconcileAll]
    cases hr : reconcile hostId (probe hostId) reg with
    | error e reg' =>
      rw [after_bind_error hr]
      rwa [after_of_error hr] at hone
    | ok _ reg' =>
      rw [after_bind_ok hr]
      rw [after_of_ok hr] at hone
      exact ih hone

end SwarmRegistry

end Blitzwing
