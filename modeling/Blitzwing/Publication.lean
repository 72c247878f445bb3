/-
The published records and the registry.

A host whose range changes is stale until it is published again. What publishes
is fixed: `hosts_ready` the newcomer and its donor, `hosts_leave` the leaver and
the mother, the reapers nothing. Who takes a departed range is not (`Asks`), so
the records mirror the registry (`Mirrors`) as long as nobody else with a name
takes one, nobody with a name is reaped, and no two hosts share a name.
-/
import Blitzwing.EnsRecords
import Blitzwing.EnsClient
import Blitzwing.Departure

namespace Blitzwing.Sync

open Ens (EnsConfig EnsCall EnsAnswer RegistryId CallFor Answered Shows hostIdToEnsName recordKeys)

/-! ## What the registry's pieces touch -/

/-- Nobody is registered or named, and only `touched` hosts have another range
or come online. -/
def Touches (touched : String → Prop) (reg reg' : SwarmRegistry) : Prop :=
  ∀ k h', reg'.hosts.get? k = .some h' → ∃ h, reg.hosts.get? k = .some h ∧ h'.ensName = h.ensName ∧
    (touched k ∨ h'.status = h.status ∧ h'.blockIndices = h.blockIndices ∧ h'.layersHosted = h.layersHosted)

variable {reg reg' : SwarmRegistry} {touched : String → Prop}

theorem Touches.refl (reg : SwarmRegistry) : Touches touched reg reg := fun _ h hk => ⟨h, hk, rfl, .inr ⟨rfl, rfl, rfl⟩⟩

theorem Touches.trans {reg'' : SwarmRegistry} (h₁ : Touches touched reg reg') (h₂ : Touches touched reg' reg'') :
    Touches touched reg reg'' := by
  intro k h'' hk
  obtain ⟨h', hk', hname', hsame'⟩ := h₂ k h'' hk
  obtain ⟨h, hk, hname, hsame⟩ := h₁ k h' hk'
  refine ⟨h, hk, hname'.trans hname, ?_⟩
  obtain ht | ⟨hs', hb', hl'⟩ := hsame'
  · exact .inl ht
  · exact hsame.imp_right fun ⟨hs, hb, hl⟩ => ⟨hs'.trans hs, hb'.trans hb, hl'.trans hl⟩

theorem Touches.mono {touched' : String → Prop} (h : Touches touched reg reg') (himp : ∀ k, touched k → touched' k) :
    Touches touched' reg reg' := by
  intro k h' hk
  obtain ⟨g, hg, hname, hsame⟩ := h k h' hk
  exact ⟨g, hg, hname, hsame.imp_left (himp k)⟩

theorem touches_updateHost {f : HostRecord → HostRecord} {hostId : String} (hname : ∀ h, (f h).ensName = h.ensName)
    (ht : touched hostId ∨ ∀ h, (f h).status = h.status ∧ (f h).blockIndices = h.blockIndices ∧
      (f h).layersHosted = h.layersHosted) : Touches touched reg (reg.updateHost hostId f) := by
  intro k h' hk
  rw [SwarmRegistry.get?_updateHost] at hk
  split at hk
  · next he =>
    obtain ⟨h, hget, rfl⟩ := Option.map_eq_some_iff.1 hk
    exact ⟨h, hget, hname h, ht.imp (fun ht => he ▸ ht) fun hsame => hsame h⟩
  · exact ⟨h', hk, rfl, .inr ⟨rfl, rfl, rfl⟩⟩

theorem touches_without (reg : SwarmRegistry) (hostId : String) : Touches touched reg (reg.without hostId) := by
  intro k h' hk
  rw [SwarmRegistry.without, Dict.get?_erase] at hk
  split at hk
  · cases hk
  · exact ⟨h', hk, rfl, .inr ⟨rfl, rfl, rfl⟩⟩

/-- The check of `mark_ready` notes a peer address and touches nobody. -/
theorem markReadyCheck_noted {hostId : String} {peer : Option String} {check : ReadyCheck}
    (h : markReadyCheck hostId peer reg = .ok check reg') :
    Touches touched reg reg' ∧ reg'.without hostId = reg.without hostId := by
  obtain ⟨host, -, ⟨-, -, rfl⟩ | ⟨plan, -, -, -, rfl | ⟨p, rfl⟩⟩⟩ := markReadyCheck_ok h
  · exact ⟨.refl _, rfl⟩
  · exact ⟨.refl _, rfl⟩
  · exact ⟨touches_updateHost (fun _ => rfl) (.inr fun _ => ⟨rfl, rfl, rfl⟩), without_updateHost reg hostId _⟩

/-- What `mark_ready` can do to a host that is not online. -/
theorem markReady_cases (hw : reg.Wellformed) (post : Reload) {hostId : String} {host : HostRecord}
    (hk : reg.hosts.get? hostId = .some host) (hst : host.status ≠ .online) (peer : Option String) (now : Int) :
    (∃ ret reg' donorId, markReady post hostId peer now reg = .ok ret reg' ∧ host.donorHostId = .some donorId ∧
        donorId ≠ hostId ∧ (reg'.hosts.get? donorId).isSome ∧ reg'.hosts.get? hostId = .some ret ∧
        (∀ k, (reg.hosts.get? k).isSome → (reg'.hosts.get? k).isSome) ∧
        Touches (fun k => k = hostId ∨ k = donorId) reg reg') ∨
      ∃ e reg', markReady post hostId peer now reg = .error e reg' ∧ Touches (fun _ => False) reg reg' ∧
        reg.SameSeats reg' ∧ reg'.without hostId = reg.without hostId := by
  rw [markReady_eq]
  cases hc : markReadyCheck hostId peer reg with
  | error e reg₁ =>
    obtain rfl := markReadyCheck_error hc
    exact .inr ⟨e, _, rfl, .refl _, .refl _, rfl⟩
  | ok check reg₁ =>
    have hseats := SwarmRegistry.markReadyCheck_sameSeats hc
    obtain ⟨htouch, hwithout⟩ : Touches (fun _ => False) reg reg₁ ∧ reg₁.without hostId = reg.without hostId :=
      markReadyCheck_noted hc
    obtain ⟨host', hk', ⟨ho, -, -⟩ | ⟨plan, -, hplan, rfl, -⟩⟩ := markReadyCheck_ok hc
    · rw [hk] at hk'
      obtain rfl := Option.some.inj hk'
      exact absurd ho hst
    rw [hk] at hk'
    obtain rfl := Option.some.inj hk'
    obtain ⟨hid, hdonor, -, -, -⟩ := shrinkPlan_ok hplan
    obtain ⟨p, -, hph, hcar, -⟩ := hw.markReadyCheck_carries hc
    simp only
    cases reloadShardManager post plan.donorUrl plan.shrinkTo with
    | error e => exact .inr ⟨e, reg₁, rfl, htouch, hseats, hwithout⟩
    | ok _ =>
      simp only
      cases hcm : markReadyCommit plan peer now reg₁ with
      | error e reg₂ =>
        obtain ⟨rfl, -⟩ := markReadyCommit_error hcar.spanOf_keep hcar.spanOf_give hcm
        exact .inr ⟨e, reg₂, rfl, htouch, hseats, hwithout⟩
      | ok ret reg₂ =>
        obtain ⟨h, donor, hh, hd, -, hget⟩ := markReadyCommit_ok hcar.spanOf_keep hcar.spanOf_give hcm
        refine .inl ⟨ret, reg₂, plan.donorId, rfl, hdonor, ?_, ?_, ?_, ?_, ?_⟩
        · obtain ⟨p₀, hplans, -, -⟩ := hw.plan_pending hk (by
            by_contra hp
            exact hst (hw.online hk hp))
          have hdist := hplans.distinct
          rw [hplans.host, (hw.each _ _ hk).keyed] at hdist
          rwa [Option.some.inj (hplans.donor.symm.trans hdonor)] at hdist
        · rw [hget]
          split
          · simp_all
          · simp [hd]
        · rw [← hid]
          exact markReadyCommit_returns hcar.spanOf_keep hcar.spanOf_give hcm
        · intro k hsome
          obtain ⟨g, hg⟩ := Option.isSome_iff_exists.1 hsome
          obtain ⟨g', hg', -⟩ := hseats.seated k g hg
          rw [hget, hg']
          split
          · rfl
          · split <;> rfl
        · refine .trans (htouch.mono fun _ h => h.elim) ?_
          intro k h' hk'
          rw [hget] at hk'
          split at hk'
          · next he =>
            obtain ⟨h, hh, rfl⟩ := Option.map_eq_some_iff.1 hk'
            refine ⟨h, hh, ?_, .inl (.inl (he.trans hid))⟩
            split <;> rfl
          · split at hk'
            · next he =>
              obtain ⟨h, hh, rfl⟩ := Option.map_eq_some_iff.1 hk'
              exact ⟨h, hh, rfl, .inl (.inr he)⟩
            · exact ⟨h', hk', rfl, .inr ⟨rfl, rfl, rfl⟩⟩

/-! ## What a service publishes -/

/-- What a host's name is made from. -/
def beginning (id : String) : List Char := id.toList.take 13

variable {ω : Type} {backend : EnsBackend ω} {settings : Settings} {config : EnsConfig}
  {resolves : ω → String → String → Option String} {good : ω → Prop}

/-- A service as its client may rely on it: a call for a host leaves the other
names as they are, a provision gives a host its own name, and a call that does
not fail shows what it was sent. -/
structure Publishes (backend : EnsBackend ω) (config : EnsConfig) (resolves : ω → String → String → Option String)
    (good : ω → Prop) : Prop where
  keeps : ∀ {id call w}, RegistryId id → CallFor config id call → good w → good (backend.post call w).2 ∧
    ∀ id' name, RegistryId id' → beginning id' ≠ beginning id → hostIdToEnsName id' config.parentName = .ok name →
      ∀ key, resolves (backend.post call w).2 name key = resolves w name key
  named : ∀ {body w name txHashes updated}, RegistryId body.hostId → good w →
    (backend.post (.provision body) w).1 = .ok (.provisioned name txHashes updated) →
      hostIdToEnsName body.hostId config.parentName = .ok name
  answered : ∀ {call w answer}, (backend.post call w).1 = .ok answer →
    Answered config resolves (backend.post call w).2 call answer

theorem subname_of_ensName {id name parentName : String} (hid : RegistryId id)
    (h : hostIdToEnsName id parentName = .ok name) : ∃ label, name = Ens.subname label parentName := by
  rw [Ens.hostIdToEnsName_of_label (Ens.hostIdToLabel_of_registryId hid)] at h
  exact ⟨_, (Except.ok.inj h).symm⟩

theorem ne_empty_of_registryId {id : String} (h : RegistryId id) : id ≠ "" := by
  obtain rfl | ⟨hex, -, -, rfl⟩ := h
  · decide
  · intro he
    have := congrArg String.toList he
    simp at this

/-! ## The mirror -/

/-- The name shows the host's range and how many layers it has. -/
def Published (resolves : ω → String → String → Option String) (w : ω) (name : String) (h : HostRecord) : Prop :=
  resolves w name recordKeys.blockIndices = .some h.blockIndices ∧
    resolves w name recordKeys.layersHosted = .some (toString h.layersHosted)

/-- Hosts have names of their own, and but for the stale ones the names show
the online hosts as the registry has them and the departed as offline. -/
structure Mirrors (config : EnsConfig) (resolves : ω → String → String → Option String) (good : ω → Prop)
    (stale : String → Prop) (departed : List (String × Option String)) (s : EnsState ω) : Prop where
  wellformed : s.registry.Wellformed
  good : good s.service
  ids : ∀ k h, s.registry.hosts.get? k = .some h → RegistryId k
  named : ∀ k h name, s.registry.hosts.get? k = .some h → truthy h.ensName = .some name →
    hostIdToEnsName k config.parentName = .ok name
  apart : ∀ j k g h, s.registry.hosts.get? j = .some g → s.registry.hosts.get? k = .some h →
    j = k ∨ beginning j ≠ beginning k
  left : ∀ d ∈ departed, RegistryId d.1 ∧
    (∀ name, truthy d.2 = .some name → hostIdToEnsName d.1 config.parentName = .ok name) ∧
    ∀ k h, s.registry.hosts.get? k = .some h → beginning k ≠ beginning d.1
  leftApart : ∀ d ∈ departed, ∀ d' ∈ departed, d.1 = d'.1 ∨ beginning d.1 ≠ beginning d'.1
  published : ∀ k h name, s.registry.hosts.get? k = .some h → h.status = .online → truthy h.ensName = .some name →
    ¬ stale k → Published resolves s.service name h
  offline : ∀ d ∈ departed, ∀ name, truthy d.2 = .some name → ¬ stale d.1 →
    resolves s.service name recordKeys.status = .some "offline"

variable {stale stale' : String → Prop} {departed departed' : List (String × Option String)} {s t : EnsState ω}

/-- Nobody is registered, and who departs was registered. -/
theorem Mirrors.of_touches (hm : Mirrors config resolves good stale departed s) (hw : t.registry.Wellformed)
    (hservice : t.service = s.service) (ht : Touches stale' s.registry t.registry) (hs : ∀ k, stale k → stale' k)
    (hd : ∀ d ∈ departed', d ∈ departed ∨ stale' d.1 ∧ t.registry.hosts.get? d.1 = .none ∧
      ∃ h, s.registry.hosts.get? d.1 = .some h ∧ h.ensName = d.2) :
    Mirrors config resolves good stale' departed' t where
  wellformed := hw
  good := hservice ▸ hm.good
  ids := by
    intro k h' hk
    obtain ⟨h, hk, -⟩ := ht k h' hk
    exact hm.ids k h hk
  named := by
    intro k h' name hk hname
    obtain ⟨h, hk, hens, -⟩ := ht k h' hk
    exact hm.named k h name hk (hens ▸ hname)
  apart := by
    intro j k g' h' hj hk
    obtain ⟨g, hj, -⟩ := ht j g' hj
    obtain ⟨h, hk, -⟩ := ht k h' hk
    exact hm.apart j k g h hj hk
  left := by
    intro d hmem
    obtain hold | ⟨-, hnone, h, hk, hens⟩ := hd d hmem
    · obtain ⟨hid, hname, hapart⟩ := hm.left d hold
      refine ⟨hid, hname, ?_⟩
      intro k h' hk
      obtain ⟨h, hk, -⟩ := ht k h' hk
      exact hapart k h hk
    · refine ⟨hm.ids _ h hk, fun name hname => hm.named _ h name hk (hens ▸ hname), ?_⟩
      intro j g' hj
      obtain ⟨g, hj', -⟩ := ht j g' hj
      refine (hm.apart j d.1 g h hj' hk).resolve_left ?_
      intro he
      simp [← he, hj] at hnone
  leftApart := by
    intro d hmem d' hmem'
    obtain hold | ⟨-, -, h, hk, -⟩ := hd d hmem
    · obtain hold' | ⟨-, -, h', hk', -⟩ := hd d' hmem'
      · exact hm.leftApart d hold d' hold'
      · exact .inr ((hm.left d hold).2.2 _ h' hk').symm
    · obtain hold' | ⟨-, -, h', hk', -⟩ := hd d' hmem'
      · exact .inr ((hm.left d' hold').2.2 _ h hk)
      · exact hm.apart _ _ h h' hk hk'
  published := by
    intro k h' name hk ho hname hno
    obtain ⟨h, hk, hens, hsame⟩ := ht k h' hk
    obtain ⟨hst, hblock, hlayers⟩ := hsame.resolve_left hno
    have := hm.published k h name hk (hst ▸ ho) (hens ▸ hname) fun h => hno (hs k h)
    rw [hservice]
    exact ⟨hblock ▸ this.1, hlayers ▸ this.2⟩
  offline := by
    intro d hmem name hname hno
    obtain hold | ⟨hst, -⟩ := hd d hmem
    · rw [hservice]
      exact hm.offline d hold name hname fun h => hno (hs _ h)
    · exact absurd hst hno

/-- A host that is shown is not stale. -/
theorem Mirrors.restrict (hm : Mirrors config resolves good stale departed s)
    (hp : ∀ k h name, s.registry.hosts.get? k = .some h → truthy h.ensName = .some name → stale k → ¬ stale' k →
      h.status = .online → Published resolves s.service name h)
    (ho : ∀ d ∈ departed, ∀ name, truthy d.2 = .some name → stale d.1 → ¬ stale' d.1 →
      resolves s.service name recordKeys.status = .some "offline") :
    Mirrors config resolves good stale' departed s :=
  { hm with
    published := by
      intro k h name hk hon hname hno
      by_cases hst : stale k
      · exact hp k h name hk hname hst hno hon
      · exact hm.published k h name hk hon hname hst
    offline := by
      intro d hmem name hname hno
      by_cases hst : stale d.1
      · exact ho d hmem name hname hst hno
      · exact hm.offline d hmem name hname hst }

theorem Mirrors.fewer (hm : Mirrors config resolves good stale departed s) (h : ∀ d ∈ departed', d ∈ departed) :
    Mirrors config resolves good stale departed' s :=
  hm.of_touches hm.wellformed rfl (.refl _) (fun _ h => h) fun d hd => .inl (h d hd)

/-- A call for a host changes no other name. -/
theorem Mirrors.posted (hp : Publishes backend config resolves good)
    (hm : Mirrors config resolves good stale departed s) {id : String} {call : EnsCall} (hid : RegistryId id)
    (hcall : CallFor config id call)
    (hreg : ∀ k h, s.registry.hosts.get? k = .some h → k = id ∨ beginning k ≠ beginning id)
    (hleft : ∀ d ∈ departed, d.1 = id ∨ beginning d.1 ≠ beginning id) (ht : t.registry = s.registry)
    (hservice : t.service = (backend.post call s.service).2) :
    Mirrors config resolves good (fun k => stale k ∨ k = id) departed t := by
  obtain ⟨hgood, hothers⟩ := hp.keeps hid hcall hm.good
  refine ⟨ht ▸ hm.wellformed, hservice ▸ hgood, ht ▸ hm.ids, ht ▸ hm.named, ht ▸ hm.apart, ht ▸ hm.left, hm.leftApart,
    ?_, ?_⟩
  · intro k h name hk ho hname hno
    rw [ht] at hk
    have hne := (hreg k h hk).resolve_left fun he => hno (.inr he)
    have hsame := hothers k name (hm.ids k h hk) hne (hm.named k h name hk hname)
    have := hm.published k h name hk ho hname fun hs => hno (.inl hs)
    rw [hservice, Published, hsame, hsame]
    exact this
  · intro d hd name hname hno
    obtain ⟨hd', hens, -⟩ := hm.left d hd
    have hne := (hleft d hd).resolve_left fun he => hno (.inr he)
    rw [hservice, hothers d.1 name hd' hne (hens name hname)]
    exact hm.offline d hd name hname fun hs => hno (.inl hs)

/-! ## What the client's writes show -/

/-- Every write so far succeeded. -/
def EnsState.AllOk (s : EnsState ω) : Prop := ∀ w ∈ s.writes, w.ok = true

theorem not_allOk_wrote (s : EnsState ω) (hostId : String) (service : ω) : ¬ (s.wrote hostId false service).AllOk := by
  intro h
  have := h ⟨hostId, false, s.queued hostId⟩ (by simp [EnsState.wrote])
  simp at this

/-- The other registered hosts, and the departed, have other names. -/
theorem Mirrors.others (hm : Mirrors config resolves good stale departed s) {id : String} {host : HostRecord}
    (hk : s.registry.hosts.get? id = .some host) :
    (∀ k h, s.registry.hosts.get? k = .some h → k = id ∨ beginning k ≠ beginning id) ∧
      ∀ d ∈ departed, d.1 = id ∨ beginning d.1 ≠ beginning id :=
  ⟨fun k h hk' => hm.apart k id h host hk' hk, fun d hd => .inr ((hm.left d hd).2.2 id host hk).symm⟩

theorem Mirrors.departed_ne (hm : Mirrors config resolves good stale departed s) {id : String} {host : HostRecord}
    (hk : s.registry.hosts.get? id = .some host) : ∀ d ∈ departed, d.1 ≠ id := by
  intro d hd he
  exact (hm.left d hd).2.2 id host hk (by rw [he])

/-- A host whose name shows it is given that name. -/
theorem Mirrors.of_named {service : ω} {hostId name : String} {host : HostRecord}
    (hm : Mirrors config resolves good (fun k => stale k ∨ k = hostId) departed { s with service })
    (hk : s.registry.hosts.get? hostId = .some host) (hname : hostIdToEnsName hostId config.parentName = .ok name)
    (hshows : Published resolves service name host) :
    Mirrors config resolves good (fun k => stale k ∧ k ≠ hostId) departed (s.named hostId name service) := by
  have hget : ∀ k, (s.named hostId name service).registry.hosts.get? k =
      if k = hostId then (s.registry.hosts.get? k).map fun h => { h with ensName := .some name }
      else s.registry.hosts.get? k := fun k => SwarmRegistry.get?_updateHost _ _ _ _
  have hold : ∀ k h', (s.named hostId name service).registry.hosts.get? k = .some h' →
      ∃ h, s.registry.hosts.get? k = .some h ∧ (k = hostId ∧ h' = { h with ensName := .some name } ∨ k ≠ hostId ∧ h' = h) := by
    intro k h' hk'
    rw [hget] at hk'
    split at hk'
    · next he =>
      obtain ⟨h, hh, rfl⟩ := Option.map_eq_some_iff.1 hk'
      exact ⟨h, hh, .inl ⟨he, rfl⟩⟩
    · next hne => exact ⟨h', hk', .inr ⟨hne, rfl⟩⟩
  have hneeds : ∀ {k}, ¬ (stale k ∧ k ≠ hostId) → k ≠ hostId → ¬ (stale k ∨ k = hostId) := by
    intro k hno hne h
    exact h.elim (fun hs => hno ⟨hs, hne⟩) hne
  refine ⟨hm.wellformed.sameSeats (sameSeats_named _ _ _), hm.good, ?_, ?_, ?_, ?_, hm.leftApart, ?_, ?_⟩
  · intro k h' hk'
    obtain ⟨h, hh, -⟩ := hold k h' hk'
    exact hm.ids k h hh
  · intro k h' name' hk' hname'
    obtain ⟨h, hh, ⟨rfl, rfl⟩ | ⟨-, rfl⟩⟩ := hold k h' hk'
    · obtain rfl := Option.some.inj (truthy_eq_some hname')
      exact hname
    · exact hm.named k h' name' hh hname'
  · intro j k g' h' hj hk'
    obtain ⟨g, hg, -⟩ := hold j g' hj
    obtain ⟨h, hh, -⟩ := hold k h' hk'
    exact hm.apart j k g h hg hh
  · intro d hd
    obtain ⟨hid, hens, hapart⟩ := hm.left d hd
    refine ⟨hid, hens, ?_⟩
    intro k h' hk'
    obtain ⟨h, hh, -⟩ := hold k h' hk'
    exact hapart k h hh
  · intro k h' name' hk' ho hname' hno
    obtain ⟨h, hh, ⟨rfl, rfl⟩ | ⟨hne, rfl⟩⟩ := hold k h' hk'
    · obtain rfl := Option.some.inj (truthy_eq_some hname')
      obtain rfl := Option.some.inj (hk.symm.trans hh)
      exact hshows
    · exact hm.published k h' name' hh ho hname' (hneeds hno hne)
  · intro d hd name' hname' hno
    exact hm.offline d hd name' hname' (hneeds hno (hm.departed_ne hk d hd))

/-- A provision that succeeds names its host and shows it. -/
theorem provisionAndName_mirrors (hp : Publishes backend config resolves good)
    (hm : Mirrors config resolves good stale departed s) {host : HostRecord}
    (hk : s.registry.hosts.get? host.hostId = .some host) :
    (∃ name service, provisionAndName backend host s = .ok name (s.named host.hostId name service) ∧ name ≠ "" ∧
        Mirrors config resolves good (fun k => stale k ∧ k ≠ host.hostId) departed (s.named host.hostId name service)) ∨
      ∃ message t, provisionAndName backend host s = .error (.ensClientError message) t ∧ ¬ t.AllOk := by
  have hid := hm.ids _ host hk
  have hsome : (s.registry.hosts.get? host.hostId).isSome := by rw [hk, Option.isSome_some]
  obtain ⟨name, txHashes, updated, service, hpost, hne, h⟩ | ⟨message, h⟩ := provisionAndName_cases backend hsome
  · refine .inl ⟨name, service, h, hne, ?_⟩
    have hname : hostIdToEnsName host.hostId config.parentName = .ok name :=
      hp.named (show RegistryId (provisionBody host).hostId from hid) hm.good (by rw [hpost])
    have hanswered : Answered config resolves (backend.post (.provision (provisionBody host)) s.service).2
      (.provision (provisionBody host)) (.provisioned name txHashes updated) := hp.answered (by rw [hpost])
    obtain ⟨label, hlabel⟩ := subname_of_ensName hid hname
    have hshows := hanswered label hlabel
    rw [hpost] at hshows
    have hfor : CallFor config host.hostId (.provision (provisionBody host)) := rfl
    have hposted : Mirrors config resolves good (fun k => stale k ∨ k = host.hostId) departed { s with service } :=
      hm.posted hp hid hfor (hm.others hk).1 (hm.others hk).2 rfl (by rw [hpost])
    exact hposted.of_named hk hname ⟨hshows.blockIndices _ rfl, hshows.layersHosted _ rfl⟩
  · exact .inr ⟨message, _, h, not_allOk_wrote s host.hostId _⟩

theorem eq_of_shown {k id : String} (hst : stale k ∨ k = id) (hno : ¬ (stale k ∧ k ≠ id)) : k = id := by
  by_contra hne
  exact hno ⟨hst.resolve_right hne, hne⟩

/-- The update of a host that has a name shows it. -/
theorem updateOnline_mirrors (hp : Publishes backend config resolves good)
    (hm : Mirrors config resolves good stale departed s) {host : HostRecord}
    (hk : s.registry.hosts.get? host.hostId = .some host) :
    (∃ t, updateOnline backend (.some host) s = .ok () t ∧ t.registry = s.registry ∧
        Mirrors config resolves good (fun k => stale k ∧ k ≠ host.hostId) departed t) ∨
      ∃ message t, updateOnline backend (.some host) s = .error (.ensClientError message) t ∧ ¬ t.AllOk := by
  cases hn : truthy host.ensName with
  | none =>
    refine .inl ⟨s, by simp only [updateOnline, hn, pure_apply], rfl, hm.restrict ?_ ?_⟩
    · intro k h name hk' hname hst hno
      have he := eq_of_shown (.inl hst) hno
      rw [he, hk] at hk'
      obtain rfl := Option.some.inj hk'
      simp [hn] at hname
    · intro d hd name _ hst hno
      exact absurd ⟨hst, hm.departed_ne hk d hd⟩ hno
  | some name =>
    have hid := hm.ids _ host hk
    have hname := hm.named _ host name hk hn
    have hcall : updateOnline backend (.some host) s = updateHost backend name host "online" s := by
      simp only [updateOnline, hn]
    rw [hcall]
    obtain ⟨answer, service, hpost, hanswer, h⟩ | ⟨message, h⟩ := updateHost_cases backend name host "online" s
    · refine .inl ⟨_, h, rfl, ?_⟩
      have hanswered : Answered config resolves (backend.post (.update (updateBody name host "online")) s.service).2
        (.update (updateBody name host "online")) answer := hp.answered (by rw [hpost])
      rw [hpost] at hanswered
      obtain ⟨label, hlabel⟩ := subname_of_ensName hid hname
      have hshows : Shows resolves service name (updateBody name host "online").fields := by
        cases answer with
        | failed status error code retryable => exact absurd rfl (hanswer status error code retryable)
        | provisioned _ _ _ => exact hanswered label hlabel
        | updated _ => exact hanswered label hlabel
      have hfor : CallFor config host.hostId (.update (updateBody name host "online")) :=
        ⟨hname, fun hostId he => (Option.some.inj he).symm⟩
      have hposted := hm.posted hp hid hfor (hm.others hk).1 (hm.others hk).2
        (t := s.wrote host.hostId true service) rfl (by rw [hpost]; rfl)
      refine hposted.restrict ?_ ?_
      · intro k h' name' hk' hname' hst hno _
        have he := eq_of_shown hst hno
        rw [he] at hk'
        obtain rfl := Option.some.inj (hk.symm.trans hk')
        obtain rfl := Option.some.inj (hn.symm.trans hname')
        exact ⟨hshows.blockIndices _ rfl, hshows.layersHosted _ rfl⟩
      · intro d hd name' _ hst hno
        exact absurd (eq_of_shown hst hno) (hm.departed_ne hk d hd)
    · exact .inr ⟨message, _, h, not_allOk_wrote s host.hostId _⟩

/-- The deactivation of a departed host's name shows it as offline. -/
theorem deactivateLeaver_mirrors (hp : Publishes backend config resolves good)
    (hm : Mirrors config resolves good stale departed s) {leaver : HostRecord}
    (hd : (leaver.hostId, leaver.ensName) ∈ departed) (honly : ∀ d ∈ departed, d.1 = leaver.hostId → d.2 = leaver.ensName) :
    (∃ t, deactivateLeaver backend leaver s = .ok () t ∧ t.registry = s.registry ∧
        Mirrors config resolves good (fun k => stale k ∧ k ≠ leaver.hostId) departed t) ∨
      ∃ message t, deactivateLeaver backend leaver s = .error (.ensClientError message) t ∧ ¬ t.AllOk := by
  obtain ⟨hid, hens, hapart⟩ := hm.left _ hd
  have hgone : ∀ k h, s.registry.hosts.get? k = .some h → k ≠ leaver.hostId := by
    intro k h hk he
    exact hapart k h hk (by rw [he])
  cases hn : truthy leaver.ensName with
  | none =>
    refine .inl ⟨s, by simp only [deactivateLeaver, hn, pure_apply], rfl, hm.restrict ?_ ?_⟩
    · intro k h name hk _ hst hno
      exact absurd (eq_of_shown (.inl hst) hno) (hgone k h hk)
    · intro d hmem name hname hst hno
      rw [honly d hmem (eq_of_shown (.inl hst) hno), hn] at hname
      cases hname
  | some name =>
    have hname := hens name hn
    have hcall : deactivateLeaver backend leaver s = deactivateHost backend leaver.hostId name s := by
      simp only [deactivateLeaver, hn]
    rw [hcall]
    obtain ⟨answer, service, hpost, hanswer, h⟩ | ⟨message, h⟩ := deactivateHost_cases backend leaver.hostId name s
    · refine .inl ⟨_, h, rfl, ?_⟩
      have hanswered : Answered config resolves (backend.post (.deactivate name) s.service).2 (.deactivate name) answer :=
        hp.answered (by rw [hpost])
      rw [hpost] at hanswered
      obtain ⟨label, hlabel⟩ := subname_of_ensName hid hname
      have hshows : Shows resolves service name { status := .some "offline" } := by
        cases answer with
        | failed status error code retryable => exact absurd rfl (hanswer status error code retryable)
        | provisioned _ _ _ => exact hanswered label hlabel
        | updated _ => exact hanswered label hlabel
      have hfor : CallFor config leaver.hostId (.deactivate name) := hname
      have hposted := hm.posted hp hid hfor (fun k h hk => .inr (hapart k h hk))
        (fun d hmem => hm.leftApart d hmem _ hd) (t := s.wrote leaver.hostId true service) rfl (by rw [hpost]; rfl)
      refine hposted.restrict ?_ ?_
      · intro k h' name' hk' _ hst hno _
        exact absurd (eq_of_shown hst hno) (hgone k h' hk')
      · intro d hmem name' hname' hst hno
        rw [honly d hmem (eq_of_shown hst hno), hn] at hname'
        obtain rfl := Option.some.inj hname'
        exact hshows.status _ rfl
    · exact .inr ⟨message, _, h, not_allOk_wrote s leaver.hostId _⟩

theorem syncLeaveEns_mirrors (hp : Publishes backend config resolves good)
    (hm : Mirrors config resolves good stale departed s) {leaver reclaimHost : HostRecord}
    (hd : (leaver.hostId, leaver.ensName) ∈ departed) (honly : ∀ d ∈ departed, d.1 = leaver.hostId → d.2 = leaver.ensName)
    (hk : s.registry.hosts.get? reclaimHost.hostId = .some reclaimHost) :
    (∃ t, syncLeaveEns backend leaver (.some reclaimHost) s = .ok () t ∧ t.registry = s.registry ∧
        Mirrors config resolves good (fun k => (stale k ∧ k ≠ leaver.hostId) ∧ k ≠ reclaimHost.hostId) departed t) ∨
      ∃ message t, syncLeaveEns backend leaver (.some reclaimHost) s = .error (.ensClientError message) t ∧ ¬ t.AllOk := by
  unfold syncLeaveEns
  rw [bind_apply]
  obtain ⟨t, h, hreg, ht⟩ | ⟨message, t, h, hfail⟩ := deactivateLeaver_mirrors hp hm hd honly
  · rw [h]
    obtain ⟨u, h', hreg', hu⟩ | ⟨message, u, h', hfail⟩ := updateOnline_mirrors hp ht (hreg ▸ hk)
    · exact .inl ⟨u, h', hreg'.trans hreg, hu⟩
    · exact .inr ⟨message, u, h', hfail⟩
  · rw [h]
    exact .inr ⟨message, t, rfl, hfail⟩

/-! ## Departures -/

/-- Who takes a departing host's range. -/
def Takes (post : Reload) (reg : SwarmRegistry) (hostId k : String) : Prop :=
  ∃ donor new, Asks reg hostId donor new ∧ reloadShardManager post donor.shardManagerUrl new = .ok () ∧
    k = donor.hostId ∧ (reg.without hostId).hosts.get? k = .some donor

theorem touches_after_leave (hw : reg.Wellformed) (post : Reload) (hostId : String) :
    Touches (Takes post reg hostId) reg (after (leave post hostId) reg) := by
  by_cases hc : ∃ host, reg.hosts.get? hostId = .some host ∧ host.role ≠ .mother
  · obtain ⟨host, hk, hrole⟩ := hc
    obtain h | ⟨donor, new, m, hasks, hdonor, -, -, ⟨e, -, h⟩ | ⟨hpost, h⟩⟩ := leave_cases hw post hk hrole
    · rw [after_of_ok h]
      exact touches_without _ _
    · rw [after_of_error h]
      exact touches_without _ _
    · rw [after_of_ok h]
      have htakes : Takes post reg hostId donor.hostId := ⟨donor, new, hasks, hpost, rfl, hdonor⟩
      exact (touches_without _ _).trans (touches_updateHost (fun _ => rfl) (.inl htakes))
  · obtain ⟨e, h⟩ := leave_refused (fun host hk => by_contra fun hrole => hc ⟨host, hk, hrole⟩) post
    rw [after_of_error h]
    exact .refl reg

/-- A contributor that departs, however that goes: it is stale, and so is who
takes its range. -/
theorem Mirrors.after_leave (hm : Mirrors config resolves good (fun _ => False) departed s) (post : Reload)
    {hostId : String} {host : HostRecord} (hk : s.registry.hosts.get? hostId = .some host) (hrole : host.role ≠ .mother) :
    Mirrors config resolves good (fun k => k = hostId ∨ Takes post s.registry hostId k)
      (departed ++ [(hostId, host.ensName)]) { s with registry := after (leave post hostId) s.registry } := by
  have hw := hm.wellformed
  refine hm.of_touches (hw.after_leave post hostId) rfl ((touches_after_leave hw post hostId).mono fun _ => .inr)
    (fun _ h => h.elim) ?_
  intro d hd
  rw [List.mem_append, List.mem_singleton] at hd
  obtain hd | rfl := hd
  · exact .inl hd
  · exact .inr ⟨.inl rfl, get?_after_leave hw post hk hrole, host, hk, rfl⟩

theorem Takes.registered {post : Reload} {hostId k : String} (ht : Takes post reg hostId k) :
    ∃ donor new, Asks reg hostId donor new ∧ reloadShardManager post donor.shardManagerUrl new = .ok () ∧
      k = donor.hostId ∧ reg.hosts.get? k = .some donor := by
  obtain ⟨donor, new, hasks, hpost, he, hdonor⟩ := ht
  rw [SwarmRegistry.without, Dict.get?_erase] at hdonor
  split at hdonor
  · cases hdonor
  · exact ⟨donor, new, hasks, hpost, he, hdonor⟩

/-- Who takes the range has the name it had. -/
theorem Takes.ensName (hw : reg.Wellformed) {post : Reload} {hostId k : String} (ht : Takes post reg hostId k)
    {h' : HostRecord} (hk : (after (leave post hostId) reg).hosts.get? k = .some h') :
    ∃ donor new, Asks reg hostId donor new ∧ reloadShardManager post donor.shardManagerUrl new = .ok () ∧
      k = donor.hostId ∧ h'.ensName = donor.ensName := by
  obtain ⟨donor, new, hasks, hpost, he, hdonor⟩ := ht.registered
  obtain ⟨h, hh, hname, -⟩ := touches_after_leave hw post hostId k h' hk
  obtain rfl := Option.some.inj (hh.symm.trans hdonor)
  exact ⟨h, new, hasks, hpost, he, hname⟩

theorem asks_unique {hostId new new' : String} {donor donor' : HostRecord} (h : Asks reg hostId donor new)
    (h' : Asks reg hostId donor' new') : donor = donor' ∧ new = new' := by
  obtain ⟨host, r, hk, -, hr, -, ha⟩ := h
  obtain ⟨host', r', hk', -, hr', -, ha'⟩ := h'
  obtain rfl := Option.some.inj (hk.symm.trans hk')
  obtain rfl := Option.some.inj (hr.symm.trans hr')
  exact Prod.mk.inj (Option.some.inj (ha.symm.trans ha'))

/-- A departure raises where who is asked does not answer. -/
theorem asks_of_error (hw : reg.Wellformed) {post : Reload} {hostId : String} {host : HostRecord}
    (hk : reg.hosts.get? hostId = .some host) (hrole : host.role ≠ .mother) {e : PyError}
    (h : leave post hostId reg = .error e reg') :
    ∃ donor new, Asks reg hostId donor new ∧ reloadShardManager post donor.shardManagerUrl new = .error e := by
  obtain hok | ⟨donor, new, m, hasks, -, -, -, ⟨e', hpost, herr⟩ | ⟨-, hok⟩⟩ := leave_cases hw post hk hrole
  · rw [hok] at h
    cases h
  · rw [herr] at h
    obtain ⟨rfl, -⟩ := EStateM.Result.error.inj h
    exact ⟨donor, new, hasks, hpost⟩
  · rw [hok] at h
    cases h

/-- What is left stale of a departure by the leaver and by who takes its range. -/
theorem Mirrors.settle {post : Reload} {hostId : String} {host : HostRecord} {reg : SwarmRegistry}
    (hw : reg.Wellformed) (hk : reg.hosts.get? hostId = .some host) (hrole : host.role ≠ .mother)
    (hd : ∀ d ∈ departed, ∀ donor, reg.hosts.get? d.1 ≠ .some donor)
    (hm : Mirrors config resolves good stale (departed ++ [(hostId, host.ensName)]) t)
    (ht : t.registry = after (leave post hostId) reg)
    (hstale : ∀ k, stale k → k = hostId ∧ truthy host.ensName = .none ∨ k ≠ hostId ∧ Takes post reg hostId k ∧
      ∀ donor new, Asks reg hostId donor new → k = donor.hostId → truthy donor.ensName = .none) :
    Mirrors config resolves good (fun _ => False) (departed ++ [(hostId, host.ensName)]) t := by
  refine hm.restrict ?_ ?_
  · intro k h' name hk' hname hst _
    rw [ht] at hk'
    obtain ⟨rfl, -⟩ | ⟨-, htakes, hunnamed⟩ := hstale k hst
    · rw [get?_after_leave hw post hk hrole] at hk'
      cases hk'
    · obtain ⟨donor, new, hasks, hpost, he, hens⟩ := htakes.ensName hw hk'
      rw [hens, hunnamed donor new hasks he] at hname
      cases hname
  · intro d hmem name hname hst _
    rw [List.mem_append, List.mem_singleton] at hmem
    obtain ⟨he, hunnamed⟩ | ⟨hne, htakes, -⟩ := hstale d.1 hst
    · obtain hmem | rfl := hmem
      · exact absurd (he ▸ hk) (hd d hmem host)
      · rw [hunnamed] at hname
        cases hname
    · obtain hmem | rfl := hmem
      · obtain ⟨donor, -, -, -, -, hdonor⟩ := htakes.registered
        exact absurd hdonor (hd d hmem donor)
      · exact absurd rfl hne

/-- A departure that nobody is told of: the host has no name, and nobody with a
name takes its range. -/
structure Silent (post : Reload) (reg : SwarmRegistry) (hostId : String) : Prop where
  leaver : ∀ host, reg.hosts.get? hostId = .some host → host.role ≠ .mother → truthy host.ensName = .none
  taker : ∀ donor new, Asks reg hostId donor new → reloadShardManager post donor.shardManagerUrl new = .ok () →
    truthy donor.ensName = .none

/-- The mirror after, with those who are gone. -/
def Follows (config : EnsConfig) (resolves : ω → String → String → Option String) (good : ω → Prop)
    (departed : List (String × Option String)) (s t : EnsState ω) : Prop :=
  ∃ gone, Mirrors config resolves good (fun _ => False) (departed ++ gone) t ∧
    ∀ k h, s.registry.hosts.get? k = .some h → (t.registry.hosts.get? k).isSome ∨ (k, h.ensName) ∈ gone

theorem Follows.of_mirrors (hm : Mirrors config resolves good (fun _ => False) departed t)
    (h : ∀ k h, s.registry.hosts.get? k = .some h → (t.registry.hosts.get? k).isSome) :
    Follows config resolves good departed s t :=
  ⟨[], by rwa [List.append_nil], fun k g hk => .inl (h k g hk)⟩

/-- Nobody but the host itself is deleted. -/
theorem isSome_or_gone (hw : reg.Wellformed) (post : Reload) {hostId : String} {host : HostRecord}
    (hk : reg.hosts.get? hostId = .some host) {k : String} {h : HostRecord} (hh : reg.hosts.get? k = .some h) :
    ((after (leave post hostId) reg).hosts.get? k).isSome ∨ (k, h.ensName) ∈ [(hostId, host.ensName)] := by
  by_cases he : k = hostId
  · subst he
    obtain rfl := Option.some.inj (hk.symm.trans hh)
    exact .inr (by simp)
  · rw [isSome_after_leave hw post he, hh, Option.isSome_some]
    exact .inl rfl

theorem Mirrors.after_silent (hm : Mirrors config resolves good (fun _ => False) departed s) {post : Reload}
    {hostId : String} (hs : Silent post s.registry hostId) :
    Follows config resolves good departed s { s with registry := after (leave post hostId) s.registry } := by
  have hw := hm.wellformed
  by_cases hc : ∃ host, s.registry.hosts.get? hostId = .some host ∧ host.role ≠ .mother
  · obtain ⟨host, hk, hrole⟩ := hc
    have hold : ∀ d ∈ departed, ∀ donor, s.registry.hosts.get? d.1 ≠ .some donor :=
      fun d hd donor hk => hm.departed_ne hk d hd rfl
    have hleaver := hs.leaver host hk hrole
    refine ⟨[(hostId, host.ensName)], (hm.after_leave post hk hrole).settle hw hk hrole hold rfl ?_,
      fun k h hh => isSome_or_gone hw post hk hh⟩
    intro k hst
    by_cases he : k = hostId
    · exact .inl ⟨he, hleaver⟩
    · have htakes := hst.resolve_left he
      refine .inr ⟨he, htakes, ?_⟩
      intro donor new hasks _
      obtain ⟨donor', new', hasks', hpost, -⟩ := htakes.registered
      obtain ⟨rfl, rfl⟩ := asks_unique hasks hasks'
      exact hs.taker donor new hasks hpost
  · obtain ⟨e, h⟩ := leave_refused (fun host hk => by_contra fun hrole => hc ⟨host, hk, hrole⟩) post
    rw [after_of_error h]
    exact .of_mirrors hm fun k h hk => by rw [hk, Option.isSome_some]

/-- A reaper whose every turn is silent. -/
theorem Mirrors.after_reapLoop (post : String → Reload) {victims : List String}
    (hm : Mirrors config resolves good (fun _ => False) departed s)
    (hs : ∀ turn ∈ reapTurns post victims s.registry, Silent (post turn.1) turn.2 turn.1) :
    Follows config resolves good departed s { s with registry := after (reapLoop post victims) s.registry } := by
  induction victims generalizing s departed with
  | nil => exact .of_mirrors hm fun k h hk => by rw [show after (reapLoop post []) s.registry = s.registry from rfl, hk, Option.isSome_some]
  | cons victim victims ih =>
    obtain ⟨gone, hone, haccount⟩ := hm.after_silent (hs (victim, s.registry) (by simp [reapTurns]))
    obtain ⟨gone', hrest, haccount'⟩ := ih hone fun turn ht => hs turn (by simp [reapTurns, ht])
    rw [reapLoop_cons]
    refine ⟨gone ++ gone', by rwa [← List.append_assoc], ?_⟩
    intro k h hk
    obtain hsome | hgone := haccount k h hk
    · obtain ⟨h', hk'⟩ := Option.isSome_iff_exists.1 hsome
      obtain ⟨h₀, hk₀, hname, -⟩ := touches_after_leave hm.wellformed (post victim) victim k h' hk'
      obtain rfl := Option.some.inj (hk.symm.trans hk₀)
      exact (haccount' k h' hk').imp_right fun hmem => by simp [← hname, hmem]
    · exact .inr (by simp [hgone])

/-- A departure that is published: a host with a name has its range taken if
anybody is asked to, and nobody with a name takes it but the mother. -/
structure Announced (post : Reload) (reg : SwarmRegistry) (hostId : String) : Prop where
  leaver : ∀ host, reg.hosts.get? hostId = .some host → (truthy host.ensName).isSome → ∀ donor new,
    Asks reg hostId donor new → reloadShardManager post donor.shardManagerUrl new = .ok ()
  taker : ∀ donor new, Asks reg hostId donor new → reloadShardManager post donor.shardManagerUrl new = .ok () →
    donor.hostId = "mother" ∨ truthy donor.ensName = .none

/-- A departure that raised: nobody took the range, so the leaver had no name. -/
theorem Mirrors.after_raised (hm : Mirrors config resolves good (fun _ => False) departed s) {reload : Reload}
    {hostId : String} {leaver : HostRecord} (hk : s.registry.hosts.get? hostId = .some leaver)
    (hrole : leaver.role ≠ .mother) (ha : Announced reload s.registry hostId) {e : PyError} {reg' : SwarmRegistry}
    (hl : leave reload hostId s.registry = .error e reg') :
    Follows config resolves good departed s { s with registry := reg' } := by
  have hw := hm.wellformed
  have hleft := hm.after_leave reload hk hrole
  rw [after_of_error hl] at hleft
  obtain ⟨donor, new, hasks, hpost⟩ := asks_of_error hw hk hrole hl
  refine ⟨[(hostId, leaver.ensName)], hleft.settle hw hk hrole (fun d hd donor hk => hm.departed_ne hk d hd rfl)
    (after_of_error hl).symm ?_, ?_⟩
  · intro k hst
    have hunnamed : truthy leaver.ensName = .none := by
      by_contra hne
      have := ha.leaver leaver hk (Option.isSome_iff_ne_none.2 hne) donor new hasks
      rw [hpost] at this
      cases this
    refine .inl ⟨hst.resolve_right ?_, hunnamed⟩
    intro htakes
    obtain ⟨donor', new', hasks', hpost', -⟩ := htakes.registered
    obtain ⟨rfl, rfl⟩ := asks_unique hasks hasks'
    rw [hpost] at hpost'
    cases hpost'
  · intro k h hh
    have := isSome_or_gone hw reload hk hh
    rwa [after_of_error hl] at this

/-- A departure that went through, once the leaver and the mother are synced:
nobody else with a name took the range. -/
theorem Mirrors.after_synced (hm : Mirrors config resolves good (fun _ => False) departed s) {reload : Reload}
    {hostId : String} {leaver : HostRecord} (hk : s.registry.hosts.get? hostId = .some leaver)
    (hrole : leaver.role ≠ .mother) (ha : Announced reload s.registry hostId) {u : EnsState ω}
    (hreg : u.registry = after (leave reload hostId) s.registry)
    (hu : Mirrors config resolves good
      (fun k => ((k = hostId ∨ Takes reload s.registry hostId k) ∧ k ≠ hostId) ∧ k ≠ "mother")
      (departed ++ [(hostId, leaver.ensName)]) u) :
    Follows config resolves good departed s u := by
  have hw := hm.wellformed
  refine ⟨[(hostId, leaver.ensName)], hu.settle hw hk hrole (fun d hd donor hk => hm.departed_ne hk d hd rfl) hreg ?_, ?_⟩
  · intro k hst
    obtain ⟨⟨hst, hne⟩, hnm⟩ := hst
    have htakes := hst.resolve_left hne
    refine .inr ⟨hne, htakes, ?_⟩
    intro donor new hasks he
    obtain ⟨donor', new', hasks', hpost, -⟩ := htakes.registered
    obtain ⟨rfl, rfl⟩ := asks_unique hasks hasks'
    exact (ha.taker donor new hasks hpost).resolve_left (he ▸ hnm)
  · intro k h hh
    rw [hreg]
    exact isSome_or_gone hw reload hk hh

theorem hostsLeave_follows (hp : Publishes backend config resolves good) (hens : settings.ensEnabled = true)
    (hm : Mirrors config resolves good (fun _ => False) departed s) {reload : Reload} {hostId : String}
    (ha : Announced reload s.registry hostId) (hok : (hostsLeave backend settings reload hostId s).AllOk) :
    Follows config resolves good departed s (hostsLeave backend settings reload hostId s) := by
  have hw := hm.wellformed
  have hstay : ∀ {t : EnsState ω}, t.registry = s.registry → t.service = s.service → Follows config resolves good departed s t := by
    intro t hreg hservice
    refine .of_mirrors (hm.of_touches (hreg ▸ hw) hservice (hreg ▸ .refl _) (fun _ h => h) fun d hd => .inl hd) ?_
    intro k h hk
    rw [hreg, hk, Option.isSome_some]
  unfold hostsLeave at hok ⊢
  unfold departure at hok ⊢
  rw [bind_apply] at hok ⊢
  obtain ⟨leaver, hk, hget⟩ | ⟨hnone, hget⟩ := getHost_cases hostId s
  · have hid := hw.keyed _ _ hk
    rw [hget] at hok ⊢
    simp only [bind_apply, if_pos hens] at hok ⊢
    by_cases hrole : leaver.role = .mother
    · obtain ⟨e, h⟩ := leave_refused (fun host hk' => Option.some.inj (hk'.symm.trans hk) ▸ hrole) reload
      simp only [onRegistry, h]
      exact hstay rfl rfl
    cases hl : leave reload hostId s.registry with
    | error e reg' =>
      simp only [onRegistry, hl]
      exact hm.after_raised hk hrole ha hl
    | ok _ reg' =>
      have hleft := hm.after_leave reload hk hrole
      rw [after_of_ok hl] at hleft
      simp only [onRegistry, hl] at hok ⊢
      obtain ⟨mother, hmother⟩ := hleft.wellformed.mother
      have hmid := hleft.wellformed.keyed _ _ hmother
      have hmem : (leaver.hostId, leaver.ensName) ∈ departed ++ [(hostId, leaver.ensName)] := by simp [hid]
      have honly : ∀ d ∈ departed ++ [(hostId, leaver.ensName)], d.1 = leaver.hostId → d.2 = leaver.ensName := by
        intro d hd he
        rw [List.mem_append, List.mem_singleton] at hd
        obtain hd | rfl := hd
        · exact absurd (he.trans hid) (hm.departed_ne hk d hd)
        · rfl
      rw [getHost_of_get? hmother] at hok ⊢
      obtain ⟨u, h, hreg, hu⟩ | ⟨message, u, h, hfail⟩ := syncLeaveEns_mirrors hp hleft hmem honly (hmid.symm ▸ hmother)
      · simp only [h]
        rw [hid, hmid] at hu
        exact hm.after_synced hk hrole ha (hreg.trans (after_of_ok hl).symm) hu
      · simp only [h] at hok
        exact absurd hok hfail
  · rw [hget]
    exact hstay rfl rfl

/-! ## A host that is ready -/

theorem readyGate_markReady {ready : ReadySettings} {out : Outside} {body : HostReadyRequest} {engine engine' : PetalsEngine}
    {donorId peer : Option String}
    (h : readyGate ready out reg body engine = .ok (.markReady donorId peer) engine') :
    ∃ pending, reg.hosts.get? body.hostId = .some pending ∧ pending.status ≠ .online ∧ donorId = pending.donorHostId := by
  unfold readyGate at h
  cases hk : reg.hosts.get? body.hostId with
  | none => simp [hk] at h
  | some pending =>
    simp only [hk] at h
    split at h
    · simp at h
    · next ho =>
      refine ⟨pending, rfl, ho, ?_⟩
      split at h
      · have := (EStateM.Result.ok.inj h).1
        simp only [Gate.markReady.injEq] at this
        exact this.1.symm
      · split at h
        · have := (EStateM.Result.ok.inj h).1
          simp only [Gate.markReady.injEq] at this
          exact this.1.symm
        · simp at h

theorem syncHostEnsAfterReady_mirrors (hp : Publishes backend config resolves good) {host donor : HostRecord}
    (hm : Mirrors config resolves good (fun k => k = host.hostId ∨ k = donor.hostId) departed s)
    (hk : s.registry.hosts.get? host.hostId = .some host) (hd : s.registry.hosts.get? donor.hostId = .some donor)
    (hne : donor.hostId ≠ host.hostId) :
    (∃ name service t, syncHostEnsAfterReady backend host (.some donor) s = .ok name t ∧ name ≠ "" ∧
        t.registry = (s.named host.hostId name service).registry ∧
        Mirrors config resolves good (fun _ => False) departed t) ∨
      ∃ message t, syncHostEnsAfterReady backend host (.some donor) s = .error (.ensClientError message) t ∧
        ¬ t.AllOk := by
  unfold syncHostEnsAfterReady
  rw [bind_apply]
  obtain ⟨name, service, h, hnamed, ht⟩ | ⟨message, t, h, hfail⟩ := provisionAndName_mirrors hp hm hk
  · have hd' : (s.named host.hostId name service).registry.hosts.get? donor.hostId = .some donor := by
      rw [EnsState.named, SwarmRegistry.get?_updateHost, if_neg hne, hd]
    simp only [h, bind_apply]
    obtain ⟨u, h', hreg, hu⟩ | ⟨message, u, h', hfail⟩ := updateOnline_mirrors hp ht hd'
    · rw [h']
      refine .inl ⟨name, service, u, rfl, hnamed, hreg, hu.restrict ?_ ?_⟩
      · intro k _ _ _ _ hst _ _
        obtain ⟨⟨hor, hne₁⟩, hne₂⟩ := hst
        exact (hor.elim hne₁ hne₂).elim
      · intro d _ _ _ hst _
        obtain ⟨⟨hor, hne₁⟩, hne₂⟩ := hst
        exact (hor.elim hne₁ hne₂).elim
    · rw [h']
      exact .inr ⟨message, u, rfl, hfail⟩
  · rw [h]
    exact .inr ⟨message, t, rfl, hfail⟩

/-- What is published of a handoff: the newcomer, then its donor. -/
theorem publishReady_mirrors (hp : Publishes backend config resolves good) {host donor : HostRecord}
    (hm : Mirrors config resolves good (fun k => k = host.hostId ∨ k = donor.hostId) departed s)
    (hk : s.registry.hosts.get? host.hostId = .some host) (hd : s.registry.hosts.get? donor.hostId = .some donor)
    (hne : donor.hostId ≠ host.hostId) (hnonempty : donor.hostId ≠ "") :
    (∃ t, publishReady backend settings (.some donor.hostId) host s = .ok () t ∧
        Mirrors config resolves good (fun _ => False) departed t ∧
        ∀ k, (s.registry.hosts.get? k).isSome → (t.registry.hosts.get? k).isSome) ∨
      ∃ t, (publishReady backend settings (.some donor.hostId) host s = .ok () t ∨
        ∃ e, publishReady backend settings (.some donor.hostId) host s = .error (.httpException e) t) ∧ ¬ t.AllOk := by
  have hdonor : donorOf (.some donor.hostId) s = .ok (.some donor) s := by
    simp only [donorOf, truthy_of_ne hnonempty, Functor.map, EStateM.map, getHost_of_get? hd]
  unfold publishReady
  rw [bind_apply, hdonor]
  simp only [tryEns, bind_apply]
  obtain ⟨name, service, t, h, hnamed, hreg, ht⟩ | ⟨message, t, h, hfail⟩ := syncHostEnsAfterReady_mirrors hp hm hk hd hne
  · have hget : t.registry.hosts.get? host.hostId = .some { host with ensName := .some name } := by
      rw [hreg, EnsState.named, SwarmRegistry.get?_updateHost, if_pos rfl, hk, Option.map_some]
    have hsome : (t.registry.hosts.get? host.hostId).isSome := by rw [hget, Option.isSome_some]
    simp only [h, if_pos hnamed, setEnsName_of_registered hsome]
    refine .inl ⟨_, rfl, ?_, ?_⟩
    · refine ht.of_touches (ht.wellformed.sameSeats (sameSeats_named _ _ _)) rfl ?_ (fun _ h => h) fun d hd => .inl hd
      intro k h' hk'
      rw [SwarmRegistry.get?_updateHost] at hk'
      split at hk'
      · next he =>
        obtain ⟨g, hg, rfl⟩ := Option.map_eq_some_iff.1 hk'
        rw [he, hget] at hg
        obtain rfl := Option.some.inj hg
        exact ⟨_, he ▸ hget, rfl, .inr ⟨rfl, rfl, rfl⟩⟩
      · exact ⟨h', hk', rfl, .inr ⟨rfl, rfl, rfl⟩⟩
    · intro k hsomek
      have hmid : (t.registry.hosts.get? k).isSome := by
        rw [hreg, EnsState.named, SwarmRegistry.get?_updateHost]
        split
        · rwa [Option.isSome_map]
        · exact hsomek
      simp only [SwarmRegistry.get?_updateHost]
      split
      · rwa [Option.isSome_map]
      · exact hmid
  · refine .inr ⟨t, ?_, hfail⟩
    simp only [h, notPublished]
    split
    · exact .inr ⟨_, rfl⟩
    · exact .inl rfl

/-- What a handoff that fails has noted makes no difference to a departure. -/
theorem Silent.of_noted {post : Reload} {hostId : String} (hs : Silent post reg hostId) (hseats : reg.SameSeats reg')
    (ht : Touches (fun _ => False) reg reg') (hwithout : reg'.without hostId = reg.without hostId) :
    Silent post reg' hostId where
  leaver := by
    intro host' hk' hrole'
    obtain ⟨host, hk, hens, -⟩ := ht hostId host' hk'
    obtain ⟨host'', hk'', hseat⟩ := hseats.seated hostId host hk
    obtain rfl := Option.some.inj (hk'.symm.trans hk'')
    rw [hens]
    exact hs.leaver host hk (hseat.role ▸ hrole')
  taker := by
    intro donor new hasks
    obtain ⟨host', r, hk', hrole', hr, hopen, ha⟩ := hasks
    obtain ⟨host, hk, -⟩ := ht hostId host' hk'
    obtain ⟨host'', hk'', hseat⟩ := hseats.seated hostId host hk
    obtain rfl := Option.some.inj (hk'.symm.trans hk'')
    refine hs.taker donor new ⟨host, r, hk, hseat.role ▸ hrole', hseat.blockIndices ▸ hr, ?_, hwithout ▸ ha⟩
    intro ⟨hp, hcov⟩
    exact hopen ⟨hseat.status.trans hp, hseats.held_eq ▸ hcov⟩

/-- How a handoff may end. -/
theorem handoff_mirrors (hp : Publishes backend config resolves good) (hens : settings.ensEnabled = true)
    (hm : Mirrors config resolves good (fun _ => False) departed s) (ready : ReadySettings) (out : Outside)
    (reload : Reload) (body : HostReadyRequest) (now : Int) :
    (∃ t, handoff backend settings ready out reload body now s = .ok () t ∧ (t.AllOk →
        Mirrors config resolves good (fun _ => False) departed t ∧
          ∀ k, (s.registry.hosts.get? k).isSome → (t.registry.hosts.get? k).isSome)) ∨
      (∃ e t, handoff backend settings ready out reload body now s = .error (.py e) t ∧
        Mirrors config resolves good (fun _ => False) departed t ∧ s.registry.SameSeats t.registry ∧
        Touches (fun _ => False) s.registry t.registry ∧ t.registry.without body.hostId = s.registry.without body.hostId) ∨
      ∃ e t, handoff backend settings ready out reload body now s = .error (.httpException e) t ∧ ¬ t.AllOk := by
  have hsame : ∀ {t : EnsState ω}, t.registry.Wellformed → t.service = s.service →
      Touches (fun _ => False) s.registry t.registry → Mirrors config resolves good (fun _ => False) departed t :=
    fun hw hservice ht => hm.of_touches hw hservice ht (fun _ h => h) fun d hd => .inl hd
  unfold handoff
  cases hgate : readyGate ready out s.registry body s.engine with
  | error e engine =>
    exact .inr (.inl ⟨e, { s with engine }, rfl, hsame hm.wellformed rfl (.refl _), .refl _, .refl _, rfl⟩)
  | ok gate engine =>
    cases gate with
    | online host => exact .inl ⟨{ s with engine }, rfl, fun _ => ⟨hsame hm.wellformed rfl (.refl _), fun _ h => h⟩⟩
    | markReady donorId peer =>
      obtain ⟨pending, hk, hst, rfl⟩ := readyGate_markReady hgate
      simp only [handOver, bind_apply]
      obtain ⟨ret, reg', donorId, hmr, hdonor, hne, hd, hret, hkept, ht⟩ | ⟨e, reg', hmr, ht, hseats, hwithout⟩ :=
        markReady_cases hm.wellformed reload hk hst peer now
      · obtain ⟨donor, hd⟩ := Option.isSome_iff_exists.1 hd
        have hw' : reg'.Wellformed := by
          have := hm.wellformed.after_markReady reload body.hostId peer now
          rwa [after_of_ok hmr] at this
        have hretid : ret.hostId = body.hostId := hw'.keyed _ _ hret
        have hdid : donor.hostId = donorId := hw'.keyed _ _ hd
        have hm' : Mirrors config resolves good (fun k => k = ret.hostId ∨ k = donor.hostId) departed
            { s with registry := reg', engine } := by
          rw [hretid, hdid]
          exact hm.of_touches hw' rfl ht (fun _ h => h.elim) fun d hd => .inl hd
        obtain ⟨old, hold, -⟩ := ht donorId donor hd
        have hnonempty := ne_empty_of_registryId (hm.ids donorId old hold)
        simp only [onRegistry, hmr, if_pos hens, hdonor]
        rw [← hdid] at hd hne hnonempty ⊢
        obtain ⟨t, h, hmirrors, hkept'⟩ | ⟨t, hends, hfail⟩ := publishReady_mirrors hp hm'
          (hretid.symm ▸ hret) hd (hretid.symm ▸ hne) hnonempty
        · exact .inl ⟨t, h, fun _ => ⟨hmirrors, fun k hsome => hkept' k (hkept k hsome)⟩⟩
        · obtain h | ⟨e, h⟩ := hends
          · exact .inl ⟨t, h, fun hok => absurd hok hfail⟩
          · exact .inr (.inr ⟨e, t, h, hfail⟩)
      · have hw' : reg'.Wellformed := hm.wellformed.sameSeats hseats
        simp only [onRegistry, hmr]
        exact .inr (.inl ⟨e, _, rfl, hsame hw' rfl ht, hseats, ht, hwithout⟩)

theorem hostsReady_follows (hp : Publishes backend config resolves good) (hens : settings.ensEnabled = true)
    (hm : Mirrors config resolves good (fun _ => False) departed s) {ready : ReadySettings} {out : Outside}
    {reload leaveReload : Reload} {body : HostReadyRequest} {now : Int}
    (hs : ∀ message t, handoff backend settings ready out reload body now s = .error (.py (.runtimeError message)) t →
      Silent leaveReload s.registry body.hostId)
    (hok : (hostsReady backend settings ready out reload leaveReload body now s).AllOk) :
    Follows config resolves good departed s (hostsReady backend settings ready out reload leaveReload body now s) := by
  have hkept : ∀ {t : EnsState ω}, s.registry.SameSeats t.registry → ∀ k h, s.registry.hosts.get? k = .some h →
      ∃ h', t.registry.hosts.get? k = .some h' := by
    intro t hseats k h hk
    obtain ⟨h', hk', -⟩ := hseats.seated k h hk
    exact ⟨h', hk'⟩
  unfold hostsReady at hok ⊢
  obtain ⟨t, h, hends⟩ | ⟨e, t, h, ht, hseats, htouch, hwithout⟩ | ⟨e, t, h, hfail⟩ :=
    handoff_mirrors hp hens hm ready out reload body now
  · rw [h] at hok ⊢
    obtain ⟨ht, hkeys⟩ := hends hok
    exact .of_mirrors ht fun k g hk => hkeys k (by rw [hk, Option.isSome_some])
  · rw [h] at hok ⊢
    have hstay : Follows config resolves good departed s t := by
      refine .of_mirrors ht fun k g hk => ?_
      obtain ⟨g', hk'⟩ := hkept hseats k g hk
      rw [hk', Option.isSome_some]
    cases e with
    | runtimeError message =>
      obtain ⟨gone, hmirrors, haccount⟩ := ht.after_silent ((hs message t h).of_noted hseats htouch hwithout)
      refine ⟨gone, hmirrors, ?_⟩
      intro k g hk
      obtain ⟨g', hk'⟩ := hkept hseats k g hk
      obtain ⟨g₀, hk₀, hname, -⟩ := htouch k g' hk'
      obtain rfl := Option.some.inj (hk.symm.trans hk₀)
      rw [← hname]
      exact haccount k g' hk'
    | _ => exact hstay
  · rw [h] at hok
    exact absurd hok hfail

end Blitzwing.Sync
