/-
The registry's file: `persist`, `load_persisted` and `init_registry`.

The file is one for all models and settings. `load_persisted` makes a registry
of the settings and puts the hosts and the peers of the file in it, whatever
they were written under; of the mother it sets the URL, the role and the status,
and of the settings' model, layers and account nothing reaches a record
(`restart_iff`).

`asdict`, JSON and `HostRecord(**data)` give every field back, so the file is
what `persist` puts in its payload.
-/
import Blitzwing.Lifecycle
import Blitzwing.Records

namespace Blitzwing

open SwarmRegistry

structure RegistryFile where
  model : String
  totalLayers : Int
  bootstrapPeers : List String
  hosts : Dict String HostRecord
deriving DecidableEq, Repr

def SwarmRegistry.persist (reg : SwarmRegistry) : RegistryFile :=
  ⟨reg.model, reg.totalLayers, reg.bootstrapPeers, reg.hosts⟩

/-- What `init_registry` is started with. -/
structure StartSettings where
  model : String
  totalLayers : Int
  motherShardManagerUrl : String
  motherHederaAccountId : Option String := .none
deriving DecidableEq, Repr

def StartSettings.fresh (settings : StartSettings) (now : Int) : Except PyError SwarmRegistry :=
  SwarmRegistry.init settings.model settings.totalLayers settings.motherShardManagerUrl settings.motherHederaAccountId now

/-- What `load_persisted` sets of the mother. -/
def StartSettings.takeOver (settings : StartSettings) (mother : HostRecord) : HostRecord :=
  { mother with
    shardManagerUrl := PyText.rstrip settings.motherShardManagerUrl '/'
    role := .mother
    status := .online }

def loadPersisted (file : RegistryFile) (settings : StartSettings) (now : Int) : Except PyError SwarmRegistry := do
  let reg ← settings.fresh now
  let reg := { reg with hosts := file.hosts, bootstrapPeers := file.bootstrapPeers }
  return reg.updateHost "mother" settings.takeOver

/-- The registry, and the file afterwards; a file that cannot be read is none. -/
def initRegistry (file : Option RegistryFile) (settings : StartSettings) (now : Int) :
    Except PyError (SwarmRegistry × Option RegistryFile) :=
  match file.map (loadPersisted · settings now) with
  | .some (.ok reg) => .ok (reg, file)
  | _ => do
    let reg ← settings.fresh now
    return (reg, .some reg.persist)

/-! ## What a restart keeps -/

variable {reg reg' : SwarmRegistry} {settings : StartSettings} {now : Int} {file' : Option RegistryFile}

theorem loadPersisted_ok {file : RegistryFile} (h : loadPersisted file settings now = .ok reg') :
    reg'.model = settings.model ∧ reg'.totalLayers = settings.totalLayers ∧
      reg'.bootstrapPeers = file.bootstrapPeers ∧
      ∀ k, reg'.hosts.get? k = if k = "mother" then (file.hosts.get? k).map settings.takeOver else file.hosts.get? k := by
  unfold loadPersisted at h
  obtain ⟨fresh, hfresh, h⟩ := bind_eq_ok.1 h
  obtain rfl := Except.ok.inj h
  unfold StartSettings.fresh SwarmRegistry.init at hfresh
  obtain ⟨wallet, -, hfresh⟩ := bind_eq_ok.1 hfresh
  obtain rfl := Except.ok.inj hfresh
  exact ⟨rfl, rfl, rfl, fun k => get?_updateHost _ _ _ _⟩

/-- A registry that is started from a file is the one that was loaded. -/
theorem initRegistry_of_file {file : RegistryFile} (h : initRegistry (.some file) settings now = .ok (reg', file')) :
    loadPersisted file settings now = .ok reg' ∧ file' = .some file := by
  unfold initRegistry at h
  simp only [Option.map_some] at h
  cases hl : loadPersisted file settings now with
  | ok reg =>
    rw [hl] at h
    cases h
    exact ⟨rfl, rfl⟩
  | error e =>
    rw [hl] at h
    unfold loadPersisted at hl
    cases hf : settings.fresh now with
    | ok reg => simp [hf] at hl
    | error e => simp [hf] at h

theorem get?_takeOver {file : RegistryFile} (h : loadPersisted file settings now = .ok reg') {k : String} {h' : HostRecord}
    (hk : reg'.hosts.get? k = .some h') : ∃ g, file.hosts.get? k = .some g ∧
      h' = if k = "mother" then settings.takeOver g else g := by
  rw [(loadPersisted_ok h).2.2.2] at hk
  split at hk
  · next he =>
    obtain ⟨g, hg, rfl⟩ := Option.map_eq_some_iff.1 hk
    exact ⟨g, hg, (if_pos he).symm⟩
  · next hne => exact ⟨h', hk, (if_neg hne).symm⟩

theorem HostRecord.Fit.takeOver {h : HostRecord} (hf : h.Fit "mother") (settings : StartSettings) :
    (settings.takeOver h).Fit "mother" where
  keyed := hf.keyed
  role := ⟨fun _ => rfl, fun _ => rfl⟩
  live := by simp [StartSettings.takeOver]
  mother := fun _ => rfl
  sized := hf.sized
  planned := fun hp => by simp [StartSettings.takeOver] at hp

/-- A registry that is loaded is as the one that was written. -/
theorem SwarmRegistry.Wellformed.of_restart (hw : reg.Wellformed)
    (h : loadPersisted reg.persist settings now = .ok reg') : reg'.Wellformed := by
  refine hw.of_records ?_ ?_
  · obtain ⟨m, hm⟩ := hw.mother
    refine ⟨settings.takeOver m, ?_⟩
    rw [(loadPersisted_ok h).2.2.2]
    exact congrArg (Option.map settings.takeOver) hm
  · intro k h' hk
    obtain ⟨g, hg, rfl⟩ := get?_takeOver h hk
    refine ⟨g, hg, ?_, ?_⟩
    · intro hf
      split
      · next he =>
        subst he
        exact hf.takeOver settings
      · exact hf
    · intro hp
      split at hp
      · cases hp
      · exact hp

/-! ## What a restart is asked for -/

/-- The account that is configured, if it is one. -/
def StartSettings.wallet (settings : StartSettings) : Option String :=
  (truthy settings.motherHederaAccountId).bind fun account => (validateHederaAccountId account).toOption

/-- A host of the model that is configured, with a range of its layers. -/
def StartSettings.Serves (settings : StartSettings) (h : HostRecord) : Prop :=
  h.model = settings.model ∧ ∃ s, spanOf h.blockIndices = .some s ∧ s.InLayers settings.totalLayers

/-- The mother's account is the one that is configured. -/
def StartSettings.Pays (settings : StartSettings) (hosts : Dict String HostRecord) : Prop :=
  ∀ m, hosts.get? "mother" = .some m → m.hederaAccountId = settings.wallet

/-- A registry of what is configured. -/
structure StartSettings.Configured (settings : StartSettings) (reg : SwarmRegistry) : Prop where
  hosts : ∀ k h, reg.hosts.get? k = .some h → settings.Serves h
  mother : ∃ m, reg.hosts.get? "mother" = .some m ∧
    m.shardManagerUrl = PyText.rstrip settings.motherShardManagerUrl '/' ∧ m.hederaAccountId = settings.wallet

/-- The hosts and the peers of the file, the mother at the URL that is configured. -/
structure StartSettings.Restores (settings : StartSettings) (file : RegistryFile) (reg : SwarmRegistry) : Prop where
  peers : reg.bootstrapPeers = file.bootstrapPeers
  hosts : reg.hosts = file.hosts.modify "mother" fun m =>
    { m with shardManagerUrl := PyText.rstrip settings.motherShardManagerUrl '/' }

theorem SwarmRegistry.Wellformed.restores (hw : reg.Wellformed)
    (h : loadPersisted reg.persist settings now = .ok reg') : settings.Restores reg.persist reg' := by
  have hhosts : reg'.hosts = reg.hosts.modify "mother" settings.takeOver := by
    unfold loadPersisted at h
    obtain ⟨fresh, -, h⟩ := bind_eq_ok.1 h
    obtain rfl := Except.ok.inj h
    rfl
  refine ⟨(loadPersisted_ok h).2.2.1, hhosts.trans (Dict.modify_congr ?_)⟩
  intro m hm
  have hfit := hw.each "mother" m hm
  rw [StartSettings.takeOver, ← hfit.role.2 rfl, ← hfit.mother rfl]

/-- **When a restart is of what is configured.** A registry that is started from
a file has its hosts and peers, and so it is for the configured model, layers and
account exactly where the registry that was written was. -/
theorem restart_iff (hw : reg.Wellformed)
    (h : initRegistry (.some reg.persist) settings now = .ok (reg', file')) :
    (settings.Configured reg' ∧ (reg.model = settings.model → reg.totalLayers = settings.totalLayers →
        settings.Pays reg.hosts → settings.Restores reg.persist reg')) ↔
      (∀ k h, reg.hosts.get? k = .some h → settings.Serves h) ∧ settings.Pays reg.hosts := by
  obtain ⟨hload, -⟩ := initRegistry_of_file h
  have hget := (loadPersisted_ok hload).2.2.2
  have hserves : ∀ k g, settings.Serves (if k = "mother" then settings.takeOver g else g) ↔ settings.Serves g := by
    intro k g
    split
    · exact Iff.rfl
    · exact Iff.rfl
  constructor
  · intro hconf
    obtain ⟨⟨hhosts, m, hm, -, haccount⟩, -⟩ := hconf
    refine ⟨?_, ?_⟩
    · intro k g hg
      refine (hserves k g).1 (hhosts k _ ?_)
      rw [hget]
      split
      · exact congrArg (Option.map settings.takeOver) hg
      · exact hg
    · intro g hg
      obtain ⟨g', hg', rfl⟩ := get?_takeOver hload hm
      obtain rfl := Option.some.inj (hg.symm.trans hg')
      exact haccount
  · intro hcond
    obtain ⟨hserve, hpays⟩ := hcond
    refine ⟨⟨?_, ?_⟩, fun _ _ _ => hw.restores hload⟩
    · intro k h' hk
      obtain ⟨g, hg, rfl⟩ := get?_takeOver hload hk
      exact (hserves k g).2 (hserve k g hg)
    · obtain ⟨m, hm⟩ := hw.mother
      refine ⟨settings.takeOver m, ?_, rfl, hpays m hm⟩
      rw [hget, if_pos rfl]
      exact congrArg (Option.map settings.takeOver) hm

/-! ## Restarts of a swarm of two, and of one nobody has joined -/

/-- The settings of `demo 12`. -/
def demoSettings : StartSettings := ⟨"m", 12, "http://127.0.0.1:8001", .none⟩

def peerOfHostA : String := "/ip4/203.0.113.7/tcp/31330/p2p/12D3KooWHostA"

/-- A host joins for four layers, and is ready at its address. -/
def peerEvents : List Event := [joinEvent 4 "host-a" 0, .markReady answering "host-a" (.some peerOfHostA) 1]

theorem restart_iff_demo : ∃ reg reg', registryMachine.run (demo 12) peerEvents = .some reg ∧
    reg.hosts.keys = ["mother", "host-a"] ∧ reg.bootstrapPeers = [peerOfHostA] ∧
      initRegistry (.some reg.persist) demoSettings 5 = .ok (reg', .some reg.persist) ∧
      demoSettings.Configured reg' ∧ demoSettings.Restores reg.persist reg' := by
  have hcheck : ((registryMachine.run (demo 12) peerEvents).any fun reg =>
      (reg.hosts.keys = ["mother", "host-a"] && reg.bootstrapPeers = [peerOfHostA]) &&
        ((reg.model = "m" && reg.totalLayers = 12) && reg.hosts.values.all fun h =>
          h.model = "m" && (spanOf h.blockIndices).any fun s => decide (s.InLayers 12)) &&
        (reg.hosts.get? "mother").all fun m => m.hederaAccountId = .none) = true := by decide +kernel
  obtain ⟨reg, hrun, hcheck⟩ := (Option.any_eq_true _ _).1 hcheck
  simp only [Bool.and_eq_true, decide_eq_true_eq, List.all_eq_true, Option.any_eq_true, Option.all_eq_true] at hcheck
  obtain ⟨⟨⟨hkeys, hpeers⟩, ⟨hmodel, htotal⟩, hserves⟩, hwallet⟩ := hcheck
  have hpays : demoSettings.Pays reg.hosts := fun m hm => hwallet m hm
  have hw := wellformed_of_run hrun
  have hinit : ∃ reg', initRegistry (.some reg.persist) demoSettings 5 = .ok (reg', .some reg.persist) := ⟨_, rfl⟩
  obtain ⟨reg', hinit⟩ := hinit
  obtain ⟨hconf, hrest⟩ := (restart_iff hw hinit).2
    ⟨fun k h hk => hserves h (Dict.mem_values.2 ⟨k, hk⟩), hpays⟩
  exact ⟨reg, reg', hrun, hkeys, hpeers, hinit, hconf, hrest hmodel htotal hpays⟩

/-- Another model of eight layers is served by a host of twelve layers of the old
one, and a mother whose account was changed is paid on the old one. -/
theorem restart_keeps_old :
    (∃ reg' m, initRegistry (.some (demo 12).persist) ⟨"n", 8, "http://127.0.0.1:8001", .none⟩ 5 =
        .ok (reg', .some (demo 12).persist) ∧ reg'.totalLayers = 8 ∧ reg'.hosts.get? "mother" = .some m ∧
      m.model = "m" ∧ m.blockIndices = "0:12") ∧
    ∃ reg' m, initRegistry (.some paid.persist) ⟨"m", 12, "http://127.0.0.1:8001", .some "0.0.6"⟩ 5 =
        .ok (reg', .some paid.persist) ∧ reg'.hosts.get? "mother" = .some m ∧ m.hederaAccountId = .some "0.0.5" := by
  constructor
  · exact ⟨_, _, rfl, rfl, rfl, rfl, by decide⟩
  · exact ⟨_, _, rfl, rfl, rfl⟩

end Blitzwing
