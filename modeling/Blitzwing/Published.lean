/-
What the names show in every run.

Joins have no name yet, and a report of the range on record changes nothing that
is published. With the departures and the handoffs the names show the registry
wherever every event publishes what it changes (`published_of_reaches`). Where a
named neighbour takes a departed range, or the reapers delete a host with a
name, they do not (`stale_after_departure`).
-/
import Blitzwing.Publication
import Blitzwing.PendingOps

namespace Blitzwing.Sync

open Ens (EnsConfig EnsCall EnsAnswer EnsChain EnsWorld RegistryId CallFor Answered Shows Isolates Writes Own
  hostIdToEnsName recordKeys tableChain blitzwingEth)

variable {ω : Type} {backend : EnsBackend ω} {settings : Settings} {config : EnsConfig}
  {resolves : ω → String → String → Option String} {good : ω → Prop} {reg reg' : SwarmRegistry}
  {touched : String → Prop} {departed : List (String × Option String)} {s : EnsState ω}

/-! ## Joins -/

/-- The digits that are drawn are no other host's. -/
structure FreshName (reg : SwarmRegistry) (departed : List (String × Option String)) (hostId : String) : Prop where
  id : RegistryId hostId
  registered : ∀ k h, reg.hosts.get? k = .some h → beginning k ≠ beginning hostId
  departed : ∀ d ∈ departed, beginning d.1 ≠ beginning hostId

theorem Mirrors.after_join (hm : Mirrors config resolves good (fun _ => False) departed s)
    {layers now : Int} {publicIp url account hostId : String} (hfresh : FreshName s.registry departed hostId)
    (hd : (Event.join layers publicIp url account hostId now).drawn s.registry = true) :
    Follows config resolves good departed s
      { s with registry := (Event.join layers publicIp url account hostId now).apply s.registry } := by
  have hnew := get?_of_drawn hd
  have hwell := hm.wellformed.apply hd
  simp only [Event.apply] at hwell ⊢
  cases hj : join layers publicIp url account hostId now s.registry with
  | error e reg' =>
    rw [after_of_error hj, join_error hj]
    exact .of_mirrors hm fun k h hk => by rw [hk, Option.isSome_some]
  | ok reply reg' =>
    rw [after_of_ok hj] at hwell ⊢
    obtain ⟨record, hrec, rfl⟩ := join_ok hj
    obtain ⟨-, hunnamed⟩ := joinRecord_assigned hrec
    have hcases : ∀ k h, (s.registry.hosts.set hostId record).get? k = .some h →
        k = hostId ∧ h = record ∨ s.registry.hosts.get? k = .some h := by
      intro k h hk
      rw [Dict.get?_set] at hk
      split at hk
      · next he => exact .inl ⟨he, (Option.some.inj hk).symm⟩
      · exact .inr hk
    have hnoname : ∀ name, truthy record.ensName ≠ .some name := by simp [hunnamed, truthy]
    refine .of_mirrors ⟨hwell, hm.good, ?_, ?_, ?_, ?_, hm.leftApart, ?_, hm.offline⟩ ?_
    · intro k h hk
      obtain ⟨rfl, -⟩ | hk := hcases k h hk
      · exact hfresh.id
      · exact hm.ids k h hk
    · intro k h name hk hname
      obtain ⟨-, rfl⟩ | hk := hcases k h hk
      · exact absurd hname (hnoname name)
      · exact hm.named k h name hk hname
    · intro j k g h hj hk
      obtain ⟨rfl, -⟩ | hj' := hcases j g hj
      · obtain ⟨rfl, -⟩ | hk' := hcases k h hk
        · exact .inl rfl
        · exact .inr (hfresh.registered k h hk').symm
      · obtain ⟨rfl, -⟩ | hk' := hcases k h hk
        · exact .inr (hfresh.registered j g hj')
        · exact hm.apart j k g h hj' hk'
    · intro d hmem
      obtain ⟨hid, hens, hapart⟩ := hm.left d hmem
      refine ⟨hid, hens, ?_⟩
      intro k h hk
      obtain ⟨rfl, -⟩ | hk' := hcases k h hk
      · exact (hfresh.departed d hmem).symm
      · exact hapart k h hk'
    · intro k h name hk ho hname hno
      obtain ⟨-, rfl⟩ | hk := hcases k h hk
      · exact absurd hname (hnoname name)
      · exact hm.published k h name hk ho hname hno
    · intro k h hk
      simp only [Dict.get?_set]
      split
      · rfl
      · rw [hk, Option.isSome_some]

/-! ## Reports -/

/-- A host with a name reports the range on record, if anything that parses. -/
def Agrees (reg : SwarmRegistry) (hostId : String) (report : Option String) : Prop :=
  ∀ h, reg.hosts.get? hostId = .some h → (truthy h.ensName).isSome → ∀ live, truthy report = .some live →
    live = h.blockIndices ∨ spanOf live = .none

theorem HostRecord.adopt_of_agreed {h : HostRecord} {report : Option String}
    (ha : ∀ live, truthy report = .some live → live = h.blockIndices ∨ spanOf live = .none) : h.adopt report = h := by
  unfold HostRecord.adopt
  split
  · rfl
  · next live hlive =>
    split
    · rfl
    · next hne => rw [(ha live hlive).resolve_left hne]

theorem touches_adoptReport {hostId : String} {report : Option String} (ha : Agrees reg hostId report) :
    Touches (fun k => ∀ h, reg.hosts.get? k = .some h → truthy h.ensName = .none) reg
      (after (adoptReport hostId report) reg) := by
  intro k h' hk
  rw [(SwarmRegistry.adoptReport_eq hostId report reg).2] at hk
  split at hk
  · next he =>
    obtain ⟨h, hh, rfl⟩ := Option.map_eq_some_iff.1 hk
    refine ⟨h, hh, h.adopt_ensName report, ?_⟩
    cases hn : truthy h.ensName with
    | none =>
      refine .inl fun g hg => ?_
      rwa [← Option.some.inj (hh.symm.trans hg)]
    | some name =>
      rw [HostRecord.adopt_of_agreed (ha h (he ▸ hh) (by rw [hn, Option.isSome_some]))]
      exact .inr ⟨rfl, rfl, rfl⟩
  · exact ⟨h', hk, rfl, .inr ⟨rfl, rfl, rfl⟩⟩

theorem isSome_after_adoptReport (hostId : String) (report : Option String) (reg : SwarmRegistry) {k : String}
    (h : (reg.hosts.get? k).isSome) : ((after (adoptReport hostId report) reg).hosts.get? k).isSome := by
  rw [(SwarmRegistry.adoptReport_eq hostId report reg).2]
  split
  · rwa [Option.isSome_map]
  · exact h

theorem Mirrors.after_adoptReport (hm : Mirrors config resolves good (fun _ => False) departed s) {hostId : String}
    {report : Option String} (ha : Agrees s.registry hostId report) :
    Mirrors config resolves good (fun _ => False) departed
      { s with registry := after (adoptReport hostId report) s.registry } := by
  have ht := touches_adoptReport ha
  have hstale : Mirrors config resolves good (fun k => ∀ h, s.registry.hosts.get? k = .some h →
      truthy h.ensName = .none) departed { s with registry := after (adoptReport hostId report) s.registry } :=
    hm.of_touches (hm.wellformed.after_adoptReport hostId report) rfl ht (fun _ h => h.elim) fun d hd => .inl hd
  refine hstale.restrict ?_ ?_
  · intro k h' name hk hname hst _ _
    obtain ⟨h, hk, hens, -⟩ := ht k h' hk
    rw [hens, hst h hk] at hname
    cases hname
  · intro d hd name hname _ _
    exact hm.offline d hd name hname id

/-- Nothing that is published changes. -/
theorem Mirrors.untouched (hm : Mirrors config resolves good (fun _ => False) departed s) {reg' : SwarmRegistry}
    (hs : s.registry.SameSeats reg') (ht : Touches (fun _ => False) s.registry reg') :
    Mirrors config resolves good (fun _ => False) departed { s with registry := reg' } :=
  hm.of_touches (hm.wellformed.sameSeats hs) rfl ht (fun _ h => h) fun _ hd => .inl hd

theorem touches_setIf {α : Type} (hostId : String) (value : Option α) {f : α → HostRecord → HostRecord}
    (hname : ∀ a h, (f a h).ensName = h.ensName) (hsame : ∀ a h, (f a h).status = h.status ∧
      (f a h).blockIndices = h.blockIndices ∧ (f a h).layersHosted = h.layersHosted) :
    Touches touched reg (reg.setIf hostId value f) := by
  cases value with
  | none => exact .refl reg
  | some a => exact touches_updateHost (hname a) (.inr (hsame a))

theorem touches_noteContact (hostId : String) (report : HeartbeatReport) (reg : SwarmRegistry) :
    Touches touched reg (noteContact hostId report reg) := by
  unfold noteContact
  have hpeer : ∀ reg : SwarmRegistry, Touches touched reg (reg.addBootstrapPeer report.peerMultiaddr) := by
    intro reg k h hk
    rw [addBootstrapPeer_hosts] at hk
    exact ⟨h, hk, rfl, .inr ⟨rfl, rfl, rfl⟩⟩
  refine .trans (touches_setIf hostId (truthy report.shardManagerUrl) ?_ ?_) (.trans
    (touches_setIf hostId (truthy report.peerMultiaddr) ?_ ?_) (.trans (hpeer _)
      (touches_setIf hostId report.petalsRunning ?_ ?_)))
  all_goals first | exact fun _ _ => rfl | exact fun _ _ => ⟨rfl, rfl, rfl⟩

theorem touches_heartbeat (hw : reg.Wellformed) (hostId : String) (now : Int) :
    Touches touched reg (after (heartbeat hostId now) reg) := by
  simp only [after, heartbeat, locked]
  cases hk : reg.hosts.get? hostId with
  | none => exact .refl _
  | some host =>
    intro k h' hk'
    simp only [SwarmRegistry.get?_updateHost] at hk'
    split at hk'
    · next he =>
      obtain ⟨h, hh, rfl⟩ := Option.map_eq_some_iff.1 hk'
      exact ⟨h, hh, rfl, .inr ⟨if_neg (hw.each _ h hh).live, rfl, rfl⟩⟩
    · exact ⟨h', hk', rfl, .inr ⟨rfl, rfl, rfl⟩⟩

theorem Agrees.of_touches {hostId : String} {report : Option String} (ha : Agrees reg hostId report)
    (ht : Touches (fun _ => False) reg reg') : Agrees reg' hostId report := by
  intro h' hk hname live hlive
  obtain ⟨h, hh, hens, hsame⟩ := ht hostId h' hk
  obtain ⟨-, hblock, -⟩ := hsame.resolve_left id
  rw [hblock]
  exact ha h hh (hens ▸ hname) live hlive

theorem Mirrors.after_heartbeat (hm : Mirrors config resolves good (fun _ => False) departed s) {hostId : String}
    {report : HeartbeatReport} (ha : Agrees s.registry hostId report.blockIndices) (now : Int) :
    Follows config resolves good departed s
      { s with registry := after (applyHeartbeatManifest hostId report now) s.registry } := by
  have hw := hm.wellformed
  have hs := SwarmRegistry.heartbeat_sameSeats hw hostId now
  have ht : Touches (fun _ => False) s.registry (after (heartbeat hostId now) s.registry) := touches_heartbeat hw hostId now
  refine .of_mirrors ?_ ?_
  · simp only [applyHeartbeatManifest]
    cases hh : heartbeat hostId now s.registry with
    | error e reg₁ =>
      rw [after_of_error hh] at hs ht
      rw [after_bind_error hh]
      exact hm.untouched hs ht
    | ok _ reg₁ =>
      rw [after_of_ok hh] at hs ht
      have hadopt := (hm.untouched hs ht).after_adoptReport (ha.of_touches ht)
      rw [after_bind_ok hh]
      simp only at hadopt
      cases hr : adoptReport hostId report.blockIndices reg₁ with
      | error e reg₂ =>
        rw [after_of_error hr] at hadopt
        rwa [after_bind_error hr]
      | ok _ reg₂ =>
        rw [after_of_ok hr] at hadopt
        rw [after_bind_ok hr]
        exact hadopt.untouched (SwarmRegistry.noteContact_sameSeats hostId report reg₂) (touches_noteContact hostId report reg₂)
  · intro k h hk
    have hsome := isSome_after_adoptReport hostId report.blockIndices s.registry (k := k) (by rw [hk, Option.isSome_some])
    obtain ⟨g, hg⟩ := Option.isSome_iff_exists.1 hsome
    obtain ⟨g', hg', -⟩ := (SwarmRegistry.applyHeartbeatManifest_sameSeats hw hostId report now).seated k g hg
    simp only [hg', Option.isSome_some]

theorem Mirrors.after_refresh (probe : String → Option StatusReply) {hostIds : List String}
    (hm : Mirrors config resolves good (fun _ => False) departed s)
    (ha : ∀ turn ∈ refreshTurns probe hostIds s.registry, Agrees turn.2.2 turn.1 turn.2.1) :
    Mirrors config resolves good (fun _ => False) departed
      { s with registry := after (reconcileAll probe hostIds) s.registry } := by
  induction hostIds generalizing s with
  | nil => exact hm
  | cons hostId rest ih =>
    simp only [refreshTurns, List.mem_cons, forall_eq_or_imp] at ha
    have hone : Mirrors config resolves good (fun _ => False) departed
        { s with registry := after (reconcile hostId (probe hostId)) s.registry } := by
      cases hpr : probe hostId with
      | none => exact hm
      | some status =>
        rw [hpr] at ha
        have hadopt := hm.after_adoptReport ha.1
        simp only [reconcile]
        simp only [Option.bind_some] at hadopt
        cases hr : adoptReport hostId status.blockIndices s.registry with
        | error e reg₁ =>
          rw [after_of_error hr] at hadopt
          rwa [after_bind_error hr]
        | ok _ reg₁ =>
          rw [after_of_ok hr] at hadopt
          rw [after_bind_ok hr]
          exact hadopt.untouched (.updateHost fun h _ => ⟨rfl, rfl, rfl, rfl, rfl, rfl, rfl, rfl⟩)
            (touches_updateHost (fun _ => rfl) (.inr fun _ => ⟨rfl, rfl, rfl⟩))
    simp only [reconcileAll]
    cases hr : reconcile hostId (probe hostId) s.registry with
    | error e reg' =>
      rw [after_of_error hr] at hone
      rwa [after_bind_error hr]
    | ok _ reg' =>
      rw [after_of_ok hr] at hone
      rw [after_bind_ok hr]
      rw [hr] at ha
      exact ih hone ha.2

theorem Mirrors.after_refreshLiveStatus (hm : Mirrors config resolves good (fun _ => False) departed s)
    {probe : String → Option StatusReply}
    (ha : ∀ turn ∈ (Event.refresh probe).reports s.registry, Agrees turn.2.2 turn.1 turn.2.1) :
    Follows config resolves good departed s { s with registry := after (refreshLiveStatus probe) s.registry } := by
  refine .of_mirrors (hm.after_refresh probe ha) ?_
  intro k h hk
  refine SwarmRegistry.reconcileAll_keeps (P := fun reg' => (reg'.hosts.get? k).isSome)
    (fun hostId report reg => isSome_after_adoptReport hostId report reg) ?_ probe _ (by rw [hk, Option.isSome_some])
  intro reg reg' hsome hsame
  obtain ⟨g, hg⟩ := Option.isSome_iff_exists.1 hsome
  obtain ⟨g', hg', -⟩ := hsame.seated k g hg
  rw [hg', Option.isSome_some]

/-! ## The mother's name -/

theorem syncMother_follows (hp : Publishes backend config resolves good)
    (hm : Mirrors config resolves good (fun _ => False) departed s)
    (hok : (atStartup settings (syncMotherEns backend) s).AllOk) :
    Follows config resolves good departed s (atStartup settings (syncMotherEns backend) s) := by
  unfold atStartup at hok ⊢
  split
  · next hens =>
    rw [if_pos hens] at hok
    obtain ⟨mother, hk⟩ := hm.wellformed.mother
    have hmid := hm.wellformed.keyed _ _ hk
    simp only [syncMotherEns, bind_apply, getHost_of_get? hk] at hok ⊢
    obtain ⟨name, service, h, -, ht⟩ | ⟨message, t, h, hfail⟩ := provisionAndName_mirrors hp hm (hmid.symm ▸ hk)
    · rw [h]
      refine .of_mirrors (ht.restrict (fun k _ _ _ _ hst _ _ => hst.1.elim) fun d _ _ _ hst _ => hst.1.elim) ?_
      intro k g hk'
      simp only [pure_apply, EnsState.named, SwarmRegistry.get?_updateHost, hk']
      split <;> rfl
    · rw [h] at hok
      exact absurd hok hfail
  · exact .of_mirrors hm fun k h hk => by rw [hk, Option.isSome_some]

/-! ## Every run -/

/-- The hosts with a name that are gone. -/
def departedBy (reg reg' : SwarmRegistry) : List (String × Option String) :=
  (reg.hosts.values.filter fun h => (reg'.hosts.get? h.hostId).isNone && (truthy h.ensName).isSome).map
    fun h => (h.hostId, h.ensName)

/-- The orchestrator, with the hosts that have departed. -/
def publication (backend : EnsBackend ω) (settings : Settings) :
    Machine (EnsState ω × List (String × Option String)) EnsEvent where
  step c e := ((orchestrator backend settings).step c.1 e).map fun t => (t, c.2 ++ departedBy c.1.registry t.registry)

/-- Whoever changes its range or leaves is who the event publishes. -/
def EnsEvent.Covered (backend : EnsBackend ω) (settings : Settings) (s : EnsState ω)
    (departed : List (String × Option String)) : EnsEvent → Prop
  | .registry (.join _ _ _ _ hostId _) => FreshName s.registry departed hostId
  | .registry (.markReady ..) | .registry (.leave ..) => False
  | .registry (.reapStale post ttlSeconds now) =>
    ∀ turn ∈ reapTurns post (s.registry.staleHosts ttlSeconds now) s.registry, Silent (post turn.1) turn.2 turn.1
  | .registry (.reapStalePending post ttlSeconds now) =>
    ∀ turn ∈ reapTurns post (s.registry.stalePending ttlSeconds now) s.registry, Silent (post turn.1) turn.2 turn.1
  | .registry e => ∀ turn ∈ e.reports s.registry, Agrees turn.2.2 turn.1 turn.2.1
  | .ready gate out reload leaveReload body now => ∀ message t,
    handoff backend settings gate out reload body now s = .error (.py (.runtimeError message)) t →
      Silent leaveReload s.registry body.hostId
  | .leave reload hostId => Announced reload s.registry hostId
  | .syncMother => True
  | .replay | .reconcile _ => False

/-- Every write of the event succeeds, and it publishes what it changes. -/
def EnsEvent.Publishing (backend : EnsBackend ω) (settings : Settings) (c : EnsState ω × List (String × Option String))
    (e : EnsEvent) : Prop :=
  (e.apply backend settings c.1).AllOk ∧ e.Covered backend settings c.1 c.2

theorem EnsEvent.follows (hp : Publishes backend config resolves good) (hens : settings.ensEnabled = true)
    (hm : Mirrors config resolves good (fun _ => False) departed s) {e : EnsEvent} (hd : e.drawn s.registry = true)
    (he : e.Publishing backend settings (s, departed)) :
    Follows config resolves good departed s (e.apply backend settings s) := by
  obtain ⟨hok, hcovered⟩ := he
  cases e with
  | registry e =>
    cases e with
    | join layers publicIp url account hostId now => exact hm.after_join hcovered hd
    | reapStale post ttlSeconds now => exact hm.after_reapLoop post hcovered
    | reapStalePending post ttlSeconds now => exact hm.after_reapLoop post hcovered
    | heartbeat hostId report now =>
      exact hm.after_heartbeat (hcovered (hostId, report.blockIndices, s.registry) (by simp [Event.reports])) now
    | refresh probe => exact hm.after_refreshLiveStatus hcovered
    | markReady => exact hcovered.elim
    | leave => exact hcovered.elim
  | ready gate out reload leaveReload body now => exact hostsReady_follows hp hens hm hcovered hok
  | leave reload hostId => exact hostsLeave_follows hp hens hm hcovered hok
  | syncMother => exact syncMother_follows hp hm hok
  | replay => exact hcovered.elim
  | reconcile now => exact hcovered.elim

theorem mirrors_of_reaches (hp : Publishes backend config resolves good) (hens : settings.ensEnabled = true)
    {c₀ c : EnsState ω × List (String × Option String)} (h₀ : Mirrors config resolves good (fun _ => False) c₀.2 c₀.1)
    (h : (publication backend settings).Reaches (fun c e => e.Publishing backend settings c) c₀ c) :
    Mirrors config resolves good (fun _ => False) c.2 c.1 := by
  refine h.invariant (I := fun c => Mirrors config resolves good (fun _ => False) c.2 c.1) h₀ ?_
  intro c e c' hm he hstep
  obtain ⟨t, ht, rfl⟩ := Option.map_eq_some_iff.1 hstep
  simp only [orchestrator] at ht
  split at ht
  · next hd =>
    obtain rfl := Option.some.inj ht
    obtain ⟨gone, hmirrors, haccount⟩ := EnsEvent.follows hp hens hm hd he
    refine hmirrors.fewer ?_
    intro d hmem
    rw [List.mem_append] at hmem ⊢
    refine hmem.imp_right ?_
    intro hmem
    obtain ⟨h, hh, rfl⟩ := List.mem_map.1 hmem
    obtain ⟨hv, hgone⟩ := List.mem_filter.1 hh
    rw [Bool.and_eq_true, Option.isNone_iff_eq_none] at hgone
    refine (haccount _ h (hm.wellformed.keyed.get? hv)).resolve_left ?_
    rw [hgone.1]
    simp
  · cases ht

theorem mirrors_init {model url : String} {totalLayers now : Int} {wallet : Option String}
    (hinit : SwarmRegistry.init model totalLayers url wallet now = .ok s.registry) (hgood : good s.service) :
    Mirrors config resolves good (fun _ => False) [] s := by
  obtain ⟨-, mother, -, -, -, -, -, hunnamed, hget⟩ := init_ok hinit
  have honly : ∀ k h, s.registry.hosts.get? k = .some h → k = "mother" ∧ h = mother := by
    intro k h hk
    rw [hget] at hk
    split at hk
    · next he => exact ⟨he, (Option.some.inj hk).symm⟩
    · cases hk
  have hnoname : ∀ k h name, s.registry.hosts.get? k = .some h → truthy h.ensName ≠ .some name := by
    intro k h name hk
    rw [(honly k h hk).2, hunnamed]
    simp [truthy]
  refine ⟨SwarmRegistry.wellformed_init hinit, hgood, ?_, ?_, ?_, ?_, ?_, ?_, ?_⟩
  · intro k h hk
    exact .inl (honly k h hk).1
  · intro k h name hk hname
    exact absurd hname (hnoname k h name hk)
  · intro j k g h hj hk
    exact .inl ((honly j g hj).1.trans (honly k h hk).1.symm)
  · simp
  · simp
  · intro k h name hk _ hname _
    exact absurd hname (hnoname k h name hk)
  · simp

/-! ## The service as it is -/

section

variable {χ : Type}

/-- The service behind its HTTP API, as `_post` and `_get` find it. -/
def ensBackend (ens : EnsChain χ) (config : EnsConfig) (base : String) : EnsBackend (EnsWorld χ) where
  base
  post call w := (.ok (Ens.serve ens config call w).1, (Ens.serve ens config call w).2)
  resolve name w :=
    match Ens.resolveHostRecord ens config name w with
    | .ok record w => (.ok (record.map fun r => ⟨.some r.hederaAccountId, .some r.blockIndices, .some r.hostId⟩), w)
    | .error message w => (.error ("ENS /v1/hosts/resolve failed: " ++ message), w)

variable {ens : EnsChain χ} {resolves : χ → String → String → Option String} {unset bare : χ → Prop}

theorem publishes_service (hens : Isolates ens config resolves unset bare) (hwrites : Writes ens config resolves)
    (base : String) :
    Publishes (ensBackend ens config base) config (fun w => resolves w.chain) (Own config resolves) where
  keeps := by
    intro id call w hid hcall hown
    obtain ⟨⟨hkept, hothers⟩, -⟩ := Ens.serve_safe hens hid (Ens.hostIdToLabel_of_registryId hid) hcall hown
    refine ⟨hkept hown, ?_⟩
    intro id' name hid' hbegin hname key
    rw [Ens.hostIdToEnsName_of_label (Ens.hostIdToLabel_of_registryId hid')] at hname
    obtain rfl := Except.ok.inj hname
    exact hothers _ (fun heq => hbegin (String.ofList_injective heq)) key
  named := by
    intro body w name txHashes updated hid hown hanswer
    have hlabel := Ens.hostIdToLabel_of_registryId hid
    have hcall : CallFor config body.hostId (.provision body) := rfl
    obtain ⟨-, hnamed⟩ := Ens.serve_safe hens hid hlabel hcall hown
    rw [Ens.hostIdToEnsName_of_label hlabel, hnamed name txHashes updated (Except.ok.inj hanswer)]
  answered := by
    intro call w answer hanswer
    have hanswered := Ens.serve_answered hwrites call w
    obtain rfl := Except.ok.inj hanswer
    have hshows : ∀ {c : EnsWorld χ} {name : String} {fields : Ens.Fields}, Shows resolves c.chain name fields →
        Shows (fun w : EnsWorld χ => resolves w.chain) c name fields := fun h => ⟨h.1, h.2, h.3⟩
    simp only [ensBackend] at hanswered ⊢
    revert hanswered
    generalize (Ens.serve ens config call w).1 = answer, (Ens.serve ens config call w).2 = w'
    intro hanswered
    cases call <;> cases answer <;> first | trivial | exact fun label hlabel => hshows (hanswered label hlabel)

/-- **The names show the registry.** In every run in which every write succeeds
and every event publishes what it changes, every online host with a name has its
range and its layers there, and every departed one is offline there. -/
theorem published_of_reaches {model url base : String} {totalLayers now : Int} {wallet : Option String}
    {c₀ c : EnsState (EnsWorld χ) × List (String × Option String)} (hens : Isolates ens config resolves unset bare)
    (hwrites : Writes ens config resolves) (henabled : settings.ensEnabled = true)
    (hinit : SwarmRegistry.init model totalLayers url wallet now = .ok c₀.1.registry)
    (hown : Own config resolves c₀.1.service) (hnone : c₀.2 = [])
    (h : (publication (ensBackend ens config base) settings).Reaches
      (fun c e => e.Publishing (ensBackend ens config base) settings c) c₀ c) :
    (∀ k h name, c.1.registry.hosts.get? k = .some h → h.status = .online → truthy h.ensName = .some name →
      resolves c.1.service.chain name recordKeys.blockIndices = .some h.blockIndices ∧
        resolves c.1.service.chain name recordKeys.layersHosted = .some (toString h.layersHosted)) ∧
    ∀ d ∈ c.2, ∀ name, truthy d.2 = .some name →
      resolves c.1.service.chain name recordKeys.status = .some "offline" := by
  have hm := mirrors_of_reaches (publishes_service hens hwrites base) henabled
    (hnone ▸ mirrors_init hinit hown) h
  exact ⟨fun k h name hk ho hname => hm.published k h name hk ho hname id,
    fun d hd name hname => hm.offline d hd name hname id⟩

end

/-! ## Runs against a table -/

theorem writes_tableChain : Writes tableChain blitzwingEth fun c name key => c.get? (name, key) := by
  intro label resolver texts hnodup c _
  exact ⟨trivial, fun key v h => Ens.get?_setTexts_of_mem hnodup h _ c⟩

def tableBackend : EnsBackend (EnsWorld (Dict (String × String) String)) :=
  ensBackend tableChain blitzwingEth "http://127.0.0.1:8090"

/-- A registry nobody has joined and a service with nothing written. -/
def unwritten (registry : SwarmRegistry) :
    EnsState (EnsWorld (Dict (String × String) String)) × List (String × Option String) :=
  ({ registry, service := Ens.freshWorld }, [])

def readyEvent (hostId : String) (now : Int) : EnsEvent :=
  .ready ⟨[], true, 120⟩ donorAlone answering answering ⟨hostId, .none⟩ now

def firstReady : List EnsEvent :=
  [.registry (joinEvent 4 "host-0123456789ab" 0), readyEvent "host-0123456789ab" 1]

def bothReady : List EnsEvent :=
  firstReady ++ [.registry (joinEvent 4 "host-fedcba987654" 2), readyEvent "host-fedcba987654" 3]

/-- The layers 8 to 12 go to the neighbour, which has a name and keeps its old
record. A reaped host is online where its name is looked up. -/
theorem stale_after_departure :
    (∃ c h, (publication tableBackend ensOn).run (unwritten (demo 12))
        (bothReady ++ [.leave answering "host-0123456789ab"]) = .some c ∧ c.1.AllOk ∧
      c.1.registry.hosts.get? "host-fedcba987654" = .some h ∧ h.status = .online ∧
      truthy h.ensName = .some "host-fedcba98.blitzwing.eth" ∧ h.blockIndices = "4:12" ∧
      c.1.service.chain.get? ("host-fedcba98.blitzwing.eth", recordKeys.blockIndices) = .some "4:8") ∧
    ∃ c, (publication tableBackend ensOn).run (unwritten (demo 12))
        (firstReady ++ [.registry (.reapStale (fun _ => answering) 120 200)]) = .some c ∧ c.1.AllOk ∧
      c.2 = [("host-0123456789ab", .some "host-01234567.blitzwing.eth")] ∧
      c.1.service.chain.get? ("host-01234567.blitzwing.eth", recordKeys.status) = .some "online" := by
  have htaken : ((publication tableBackend ensOn).run (unwritten (demo 12))
      (bothReady ++ [.leave answering "host-0123456789ab"])).any (fun c => c.1.writes.all (·.ok) &&
        (c.1.registry.hosts.get? "host-fedcba987654").any fun h =>
          h.status = .online ∧ truthy h.ensName = .some "host-fedcba98.blitzwing.eth" ∧ h.blockIndices = "4:12" ∧
          c.1.service.chain.get? ("host-fedcba98.blitzwing.eth", recordKeys.blockIndices) = .some "4:8") = true := by
    decide +kernel
  have hreaped : ((publication tableBackend ensOn).run (unwritten (demo 12))
      (firstReady ++ [.registry (.reapStale (fun _ => answering) 120 200)])).any (fun c => c.1.writes.all (·.ok) &&
        (c.2 = [("host-0123456789ab", .some "host-01234567.blitzwing.eth")] ∧
          c.1.service.chain.get? ("host-01234567.blitzwing.eth", recordKeys.status) = .some "online" : Bool)) = true := by
    decide +kernel
  constructor
  · obtain ⟨c, hrun, hcheck⟩ := (Option.any_eq_true _ _).1 htaken
    rw [Bool.and_eq_true] at hcheck
    obtain ⟨h, hk, hh⟩ := (Option.any_eq_true _ _).1 hcheck.2
    exact ⟨c, h, hrun, List.all_eq_true.1 hcheck.1, hk, of_decide_eq_true hh⟩
  · obtain ⟨c, hrun, hcheck⟩ := (Option.any_eq_true _ _).1 hreaped
    rw [Bool.and_eq_true] at hcheck
    exact ⟨c, hrun, List.all_eq_true.1 hcheck.1, of_decide_eq_true hcheck.2⟩

/-- A mother with a wallet, and so with a name. -/
def walleted : SwarmRegistry :=
  (demo 12).updateHost "mother" fun h => { h with hederaAccountId := .some "0.0.5" }

/-- What `Covered` asks, as a check. -/
def covering (c : EnsState (EnsWorld (Dict (String × String) String)) × List (String × Option String)) : EnsEvent → Bool
  | .registry (.join _ _ _ _ hostId _) => hostId = "host-0123456789ab" &&
    (c.1.registry.hosts.keys.all (beginning · ≠ beginning hostId) && c.2.all (beginning ·.1 ≠ beginning hostId))
  | .ready gate out reload _ body now =>
    match handoff tableBackend ensOn gate out reload body now c.1 with
    | .ok _ _ => true
    | .error _ _ => false
  | .leave reload hostId =>
    ((c.1.registry.hosts.get? hostId).bind fun host =>
      (spanOf host.blockIndices).bind (c.1.registry.without hostId).absorber).all fun a =>
        a.1.hostId = "mother" && (reloadShardManager reload a.1.shardManagerUrl a.2).toBool
  | .syncMother => true
  | _ => false

def publishing (c : EnsState (EnsWorld (Dict (String × String) String)) × List (String × Option String))
    (e : EnsEvent) : Bool :=
  (e.apply tableBackend ensOn c.1).writes.all (·.ok) && covering c e

theorem covered_of_covering {c : EnsState (EnsWorld (Dict (String × String) String)) × List (String × Option String)}
    {e : EnsEvent} (h : covering c e = true) : e.Covered tableBackend ensOn c.1 c.2 := by
  cases e with
  | registry e =>
    cases e with
    | join layers publicIp url account hostId now =>
      simp only [covering, Bool.and_eq_true, decide_eq_true_eq] at h
      obtain ⟨rfl, hregistered, hdeparted⟩ := h
      refine ⟨Ens.registryId_first, ?_, ?_⟩
      · intro k h hk
        exact of_decide_eq_true (List.all_eq_true.1 hregistered k (Dict.mem_keys.2 ⟨h, hk⟩))
      · intro d hd
        exact of_decide_eq_true (List.all_eq_true.1 hdeparted d hd)
    | _ => simp [covering] at h
  | ready gate out reload leaveReload body now =>
    intro message t hraise
    simp [covering, hraise] at h
  | leave reload hostId =>
    have hasked : ∀ donor new, Asks c.1.registry hostId donor new → donor.hostId = "mother" ∧
        reloadShardManager reload donor.shardManagerUrl new = .ok () := by
      intro donor new hasks
      obtain ⟨host, r, hk, -, hr, -, ha⟩ := hasks
      simp only [covering, hk, hr, Option.bind_some, ha, Option.all_some, Bool.and_eq_true, decide_eq_true_eq] at h
      refine ⟨h.1, ?_⟩
      cases hpost : reloadShardManager reload donor.shardManagerUrl new with
      | ok _ => rfl
      | error e => simp [hpost, Except.toBool] at h
    exact ⟨fun _ _ _ donor new hasks => (hasked donor new hasks).2, fun donor new hasks _ => .inl (hasked donor new hasks).1⟩
  | syncMother => exact trivial
  | replay => simp [covering] at h
  | reconcile now => simp [covering] at h

theorem published_of_reaches_departed : ∃ c, (publication tableBackend ensOn).runIf publishing (unwritten walleted)
    (.syncMother :: firstReady ++ [.leave answering "host-0123456789ab"]) = .some c ∧
      c.1.service.chain.get? ("mother.blitzwing.eth", recordKeys.blockIndices) = .some "0:12" ∧
      c.1.service.chain.get? ("host-01234567.blitzwing.eth", recordKeys.status) = .some "offline" := by
  have hrun : ((publication tableBackend ensOn).runIf publishing (unwritten walleted)
      (.syncMother :: firstReady ++ [.leave answering "host-0123456789ab"])).any (fun c =>
        c.2.contains ("host-0123456789ab", .some "host-01234567.blitzwing.eth") &&
          (c.1.registry.hosts.get? "mother").any fun h => h.status = .online ∧
            truthy h.ensName = .some "mother.blitzwing.eth" ∧ h.blockIndices = "0:12") = true := by
    decide +kernel
  obtain ⟨c, hc, hcheck⟩ := (Option.any_eq_true _ _).1 hrun
  rw [Bool.and_eq_true] at hcheck
  obtain ⟨mother, hk, hmother⟩ := (Option.any_eq_true _ _).1 hcheck.2
  obtain ⟨ho, hname, hrange⟩ := of_decide_eq_true hmother
  have hreaches : (publication tableBackend ensOn).Reaches (fun c e => e.Publishing tableBackend ensOn c)
      (unwritten walleted) c := by
    refine .of_runIf ?_ hc
    intro e _ c hpub
    rw [publishing, Bool.and_eq_true] at hpub
    exact ⟨List.all_eq_true.1 hpub.1, covered_of_covering hpub.2⟩
  have hinit : SwarmRegistry.init "m" 12 "http://127.0.0.1:8001" (.some "0.0.5") 0 = .ok walleted := by decide +kernel
  obtain ⟨honline, hdeparted⟩ := published_of_reaches Ens.isolates_tableChain writes_tableChain rfl hinit
    Ens.own_freshWorld rfl hreaches
  refine ⟨c, hc, ?_, hdeparted _ (List.contains_iff_mem.1 hcheck.1) _ rfl⟩
  rw [← hrange]
  exact (honline "mother" mother _ hk ho hname).1

end Blitzwing.Sync
