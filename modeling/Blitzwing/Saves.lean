/-
When the registry's file follows the registry.

Every call that changes the registry saves it afterwards. `persist` takes its
snapshot under the lock and writes it outside. A call that persists while it
holds the lock (`join`, the commit of `mark_ready`, `set_ens_name`) keeps
everybody else from the registry until its write is done; one that does not
(`leave`, the reapers, a heartbeat's route, `refresh_live_status`) may be
overtaken between the two. A call that raises on its way persists nothing.

`savesMachine` runs these calls in any order, a locked piece, a write, an
answer of a shard manager at a time; the pieces are those of the registry's
methods. The file follows the registry whenever all calls have returned or
raised, if no snapshot was written over a newer one and no call that had
changed the registry raised (`file_follows`).

`refresh_live_status` builds its manifest from the registry and changes nothing
there; that part is left out.
-/
import Blitzwing.Lib.Machine
import Blitzwing.Lib.Snapshots
import Blitzwing.LayerReports
import Blitzwing.RegistryFile

namespace Blitzwing

open SwarmRegistry

/-! ## The calls -/

inductive SaveRequest
  | join (layers : Int) (publicIp shardManagerUrl hederaAccountId hostId : String)
  | markReady (hostId : String) (peerMultiaddr : Option String)
  | leave (hostId : String)
  | reapStale (ttlSeconds now : Int)
  | reapStalePending (ttlSeconds now : Int)
  | setEnsName (hostId ensName : String)
  | refresh
  | heartbeat (hostId : String) (report : HeartbeatReport)
deriving DecidableEq, Repr

/-- Where a call is. -/
inductive SavePc
  /-- Before its first locked piece. -/
  | start (request : SaveRequest)
  /-- A reaper's `leave`, before it takes the lock. -/
  | leave (hostId : String)
  /-- `_reclaim_range`, before it takes the lock. -/
  | reclaim (range : String)
  /-- The absorber's `/reload` is under way. -/
  | absorb (plan : ReclaimPlan)
  /-- It was answered. -/
  | absorbed (plan : ReclaimPlan)
  /-- The donor's `/reload` is under way. -/
  | shrink (plan : ShrinkPlan) (peerMultiaddr : Option String)
  /-- It was answered. -/
  | shrunk (plan : ShrinkPlan) (peerMultiaddr : Option String)
  /-- The hosts to be probed, and whether a drift was found. -/
  | probe (hosts : List HostRecord) (drift : Bool)
  /-- A host's reply differs from its record; `drift` is of the hosts before. -/
  | adopt (hostId : String) (status : LiveStatus) (hosts : List HostRecord) (drift : Bool)
  /-- Before `h.petals_running = live_running`. -/
  | note (hostId : String) (running : Bool) (hosts : List HostRecord) (drift : Bool)
  /-- `persist`, before it takes the lock. -/
  | snapshot
  /-- `persist`, before it writes its `n`-th snapshot. -/
  | write (n : Nat) (file : RegistryFile)
  | done
deriving DecidableEq, Repr

/-- A reaper's pass: the hosts it has still to remove, and whether it removed one. -/
structure Sweep where
  victims : List String
  removed : Bool := false
deriving DecidableEq, Repr

structure SaveCall where
  pc : SavePc
  sweep : Option Sweep := .none
deriving DecidableEq, Repr

/-- A turn ended, by a return or by a raise: a reaper goes on to its next
victim, and persists after the last if it removed one; any other call ends. -/
def SaveCall.next (c : SaveCall) (returned : Bool) : SaveCall :=
  match c.sweep with
  | .none => { pc := .done }
  | .some ⟨victim :: victims, removed⟩ => ⟨.leave victim, .some ⟨victims, removed || returned⟩⟩
  | .some ⟨[], removed⟩ => if removed || returned then { pc := .snapshot } else { pc := .done }

/-- The head of the loop in `refresh_live_status`, and what follows it. -/
def SaveCall.probing (c : SaveCall) (hosts : List HostRecord) (drift : Bool) : SaveCall :=
  if hosts ≠ [] then { c with pc := .probe hosts drift }
  else if drift then { c with pc := .snapshot }
  else c.next true

/-- What a locked piece leaves: the lock is released, or a snapshot is taken
and the lock is released (`held = false`) or held until it is written. -/
inductive Turn
  | go (c : SaveCall) (reg : SwarmRegistry)
  | save (reg : SwarmRegistry) (held : Bool)

/-- Adopt what a reply says; `none` where `parse_range` raises. -/
def SwarmRegistry.adoptDrift (reg : SwarmRegistry) (hostId : String) (blocks : LiveBlocks) : Option SwarmRegistry :=
  match reg.hosts.get? hostId, blocks with
  | .none, _ => .some reg
  | .some _, .text live => (spanOf live).map fun s => reg.updateHost hostId fun h => h.resized live s.length
  | .some _, .other _ _ => .none

/-- The first locked piece of `leave`. -/
def SaveCall.leaving (c : SaveCall) (hostId : String) (reg : SwarmRegistry) : Turn :=
  match leaveLocked hostId reg with
  | .ok (.some range) reg' => .go { c with pc := .reclaim range } reg'
  | .ok .none reg' => .go { c with pc := .snapshot } reg'
  | .error _ reg' => .go (c.next false) reg'

/-- The first locked piece; `none` for an id that `uuid4` does not draw. -/
def SaveCall.start (c : SaveCall) (now : Int) (reg : SwarmRegistry) : SaveRequest → Option Turn
  | .join layers publicIp url account hostId =>
    if reg.hosts.contains hostId then .none
    else .some <| match join layers publicIp url account hostId now reg with
      | .ok _ reg' => .save reg' true
      | .error _ reg' => .go (c.next false) reg'
  | .markReady hostId peer => .some <| match markReadyCheck hostId peer reg with
    | .ok (.shrink plan) reg' => .go { c with pc := .shrink plan peer } reg'
    | .ok (.online _) reg' => .go (c.next true) reg'
    | .error _ reg' => .go (c.next false) reg'
  | .leave hostId => .some (c.leaving hostId reg)
  | .reapStale ttl listed => .some (.go (SaveCall.next ⟨.done, .some ⟨reg.staleHosts ttl listed, false⟩⟩ false) reg)
  | .reapStalePending ttl listed =>
    .some (.go (SaveCall.next ⟨.done, .some ⟨reg.stalePending ttl listed, false⟩⟩ false) reg)
  | .setEnsName hostId ensName => .some <|
    if reg.hosts.contains hostId then .save (reg.updateHost hostId fun h => { h with ensName := .some ensName }) true
    else .go (c.next false) reg
  | .refresh => .some (.go (c.probing (reg.hosts.values.filter (·.status = .online)) false) reg)
  | .heartbeat hostId report => .some <| match applyHeartbeatManifest hostId report now reg with
    | .ok _ reg' => .go { c with pc := .snapshot } reg'
    | .error _ reg' => .go (c.next false) reg'

/-- One locked piece of a call; `none` where it needs no lock, waits or is done. -/
def SaveCall.turn (c : SaveCall) (now : Int) (reg : SwarmRegistry) : Option Turn :=
  match c.pc with
  | .start request => c.start now reg request
  | .leave hostId => .some (c.leaving hostId reg)
  | .reclaim range => .some <| match reclaimLocked reg range with
    | .ok (.some plan) => .go { c with pc := .absorb plan } reg
    | .ok .none => .go { c with pc := .snapshot } reg
    | .error _ => .go (c.next false) reg
  | .absorbed plan => .some <| match reclaimCommit plan reg with
    | .ok _ reg' => .go { c with pc := .snapshot } reg'
    | .error _ reg' => .go (c.next false) reg'
  | .shrunk plan peer => .some <| match markReadyCommit plan peer now reg with
    | .ok _ reg' => .save reg' true
    | .error _ reg' => .go (c.next false) reg'
  | .adopt hostId status hosts _ => .some <| match reg.adoptDrift hostId status.blockIndices with
    | .some reg' => .go { c with pc := .note hostId status.running hosts true } reg'
    | .none => .go (c.next false) reg
  | .note hostId running hosts drift => .some <|
    .go (c.probing hosts drift) (reg.updateHost hostId fun h => { h with petalsRunning := .some running })
  | .snapshot => .some (.save reg false)
  | .absorb _ | .shrink _ _ | .probe _ _ | .write _ _ | .done => .none

/-- A `/reload` is answered, or raises. -/
def SaveCall.answered (c : SaveCall) (ok : Bool) : Option SaveCall :=
  match c.pc with
  | .absorb plan => .some (if ok then { c with pc := .absorbed plan } else c.next false)
  | .shrink plan peer => .some (if ok then { c with pc := .shrunk plan peer } else c.next false)
  | _ => .none

/-- A probe of the first host is answered, or failed; the range on record is
read without the lock, from a record that may be deleted by now. -/
def SaveCall.probed (c : SaveCall) (reg : SwarmRegistry) (reply : Option LiveStatus) : Option SaveCall :=
  match c.pc with
  | .probe (host :: hosts) drift => .some <| match reply with
    | .none => c.probing hosts drift
    | .some status =>
      if status.blockIndices.truth ∧
          status.blockIndices ≠ .text ((reg.hosts.get? host.hostId).getD host).blockIndices then
        { c with pc := .adopt host.hostId status hosts drift }
      else { c with pc := .note host.hostId status.running hosts drift }
  | _ => .none

/-- The registry, its file and the calls; `holder` writes with the lock held. -/
structure Saving where
  reg : SwarmRegistry
  file : RegistryFile
  taken : Nat := 0
  landed : Nat := 0
  holder : Option Nat := .none
  calls : List SaveCall := []

inductive SaveLabel
  | start (request : SaveRequest)
  | turn (i : Nat) (now : Int)
  | answer (i : Nat) (ok : Bool)
  | probe (i : Nat) (reply : Option LiveStatus)
  | write (i : Nat)

namespace Saving

def step (s : Saving) : SaveLabel → Option Saving
  | .start request => .some { s with calls := s.calls ++ [{ pc := .start request }] }
  | .turn i now =>
    if s.holder = .none then do
      let c ← s.calls[i]?
      match ← c.turn now s.reg with
      | .go c' reg => return { s with reg, calls := s.calls.set i c' }
      | .save reg held => return { s with
          reg
          taken := s.taken + 1
          holder := if held then .some i else .none
          calls := s.calls.set i { c with pc := .write (s.taken + 1) reg.persist } }
    else .none
  | .answer i ok => do
    let c ← s.calls[i]?
    return { s with calls := s.calls.set i (← c.answered ok) }
  | .probe i reply => do
    let c ← s.calls[i]?
    return { s with calls := s.calls.set i (← c.probed s.reg reply) }
  | .write i => do
    let c ← s.calls[i]?
    match c.pc with
    | .write n file => return { s with
        file
        landed := n
        holder := if s.holder = .some i then .none else s.holder
        calls := s.calls.set i (c.next true) }
    | _ => .none

def machine : Machine Saving SaveLabel := ⟨step⟩

/-- No call in progress. -/
def fresh (reg : SwarmRegistry) (file : RegistryFile) : Saving := { reg, file }

/-- Every call has returned or raised. -/
def AtRest (s : Saving) : Prop := ∀ c ∈ s.calls, c.pc = .done

instance (s : Saving) : Decidable s.AtRest := inferInstanceAs (Decidable (∀ c ∈ s.calls, c.pc = .done))

end Saving

/-! ## What the file has to give back -/

/-- What is lasting of a record: its status, its layers, the donor's plan, the account and the name. -/
structure Lasting where
  status : Status
  blockIndices : String
  layersHosted : Int
  pendingRange : Option String
  donorHostId : Option String
  donorShrinkTo : Option String
  hederaAccountId : Option String
  ensName : Option String
deriving DecidableEq, Repr

def HostRecord.lasting (h : HostRecord) : Lasting :=
  ⟨h.status, h.blockIndices, h.layersHosted, h.pendingRange, h.donorHostId, h.donorShrinkTo, h.hederaAccountId, h.ensName⟩

namespace SwarmRegistry

variable {reg reg' : SwarmRegistry}

/-- The same hosts, with the same lasting fields. -/
def SameLasting (reg reg' : SwarmRegistry) : Prop :=
  ∀ k, (reg'.hosts.get? k).map (·.lasting) = (reg.hosts.get? k).map (·.lasting)

theorem SameLasting.refl (reg : SwarmRegistry) : reg.SameLasting reg := fun _ => rfl

theorem SameLasting.updateHost {hostId : String} {f : HostRecord → HostRecord}
    (h : ∀ host, reg.hosts.get? hostId = .some host → (f host).lasting = host.lasting) :
    reg.SameLasting (reg.updateHost hostId f) := by
  intro k
  rw [get?_updateHost]
  split
  · next he =>
    subst he
    cases hk : reg.hosts.get? k with
    | none => rfl
    | some host => simp [h host hk]
  · rfl

end SwarmRegistry

/-- `load_persisted` on the file yields the hosts of the registry, with their lasting fields. -/
def RegistryFile.Follows (file : RegistryFile) (reg : SwarmRegistry) : Prop :=
  ∀ settings now loaded, loadPersisted file settings now = .ok loaded → reg.SameLasting loaded

theorem RegistryFile.Follows.same {file : RegistryFile} {reg reg' : SwarmRegistry} (h : file.Follows reg)
    (hsame : reg.SameLasting reg') : file.Follows reg' := by
  intro settings now loaded hload k
  exact (h settings now loaded hload k).trans (hsame k).symm

theorem StartSettings.lasting_takeOver (settings : StartSettings) {h : HostRecord} (honline : h.status = .online) :
    (settings.takeOver h).lasting = h.lasting := by
  simp [StartSettings.takeOver, HostRecord.lasting, honline]

/-- **A registry that is saved is what is loaded.** -/
theorem follows_persist {reg : SwarmRegistry} (hw : reg.Wellformed) : reg.persist.Follows reg := by
  intro settings now loaded hload k
  rw [(loadPersisted_ok hload).2.2.2]
  split
  · next he =>
    subst he
    cases hk : reg.persist.hosts.get? "mother" with
    | none =>
      have hk' : reg.hosts.get? "mother" = .none := hk
      simp [hk']
    | some m =>
      have hk' : reg.hosts.get? "mother" = .some m := hk
      simp [hk', settings.lasting_takeOver ((hw.each _ m hk').mother rfl)]
  · rfl

/-- The file at the start follows the registry at the start. -/
theorem follows_initRegistry {file : Option RegistryFile} {settings : StartSettings} {now : Int} {reg : SwarmRegistry}
    {file' : RegistryFile} (hw : reg.Wellformed) (h : initRegistry file settings now = .ok (reg, .some file')) :
    file'.Follows reg := by
  cases file with
  | none =>
    obtain ⟨fresh, -, hfresh⟩ := bind_eq_ok.1 h
    obtain ⟨rfl, hfile⟩ := Prod.mk.inj (Except.ok.inj hfresh)
    obtain rfl := Option.some.inj hfile
    exact follows_persist hw
  | some file =>
    obtain ⟨hload, hfile⟩ := initRegistry_of_file h
    obtain rfl := Option.some.inj hfile
    -- Another load takes the mother over once more.
    intro settings' now' loaded hload' k
    rw [(loadPersisted_ok hload').2.2.2, (loadPersisted_ok hload).2.2.2]
    split
    · cases file'.hosts.get? k with
      | none => rfl
      | some m => rfl
    · rfl

/-! ## What a call owes -/

/-- The registry was changed since the last snapshot of the call. -/
def SavePc.changed : SavePc → Bool
  | .reclaim _ | .absorb _ | .absorbed _ | .snapshot => true
  | .probe _ drift | .adopt _ _ _ drift | .note _ _ _ drift => drift
  | _ => false

def SaveCall.removed (c : SaveCall) : Bool := c.sweep.any (·.removed)

/-- A reaper that removed a host persists at its end, whatever comes between. -/
def SaveCall.duty (c : SaveCall) : Duty RegistryFile :=
  match c.pc with
  | .start _ | .done => .free
  | .write n file => .holds n file
  | pc => if pc.changed || c.removed then .owes else .free

theorem SaveCall.duty_next (c : SaveCall) (returned : Bool) :
    (c.next returned).duty = if c.removed || (returned && c.sweep.isSome) then .owes else .free := by
  unfold SaveCall.next
  split
  · next he => simp [SaveCall.duty, SaveCall.removed, he]
  · next he => simp [SaveCall.duty, SaveCall.removed, SavePc.changed, he]
  · next removed he =>
    cases hr : removed || returned <;> simp [SaveCall.duty, SaveCall.removed, SavePc.changed, he, hr]

theorem SaveCall.not_holding_next (c : SaveCall) (returned : Bool) : ¬ (c.next returned).duty.Holding := by
  rw [c.duty_next]
  split <;> exact id

theorem SaveCall.duty_next_of_removed {c : SaveCall} (h : c.removed = true) (returned : Bool) :
    (c.next returned).duty = .owes := by
  rw [c.duty_next, h]
  rfl

/-- A turn that ends before it changed anything drops no debt. -/
theorem SaveCall.pays_next {c : SaveCall} (h : c.pc.changed = false) (returned : Bool) :
    c.duty.Pays (c.next returned).duty := by
  intro howes
  refine SaveCall.duty_next_of_removed ?_ returned
  unfold SaveCall.duty at howes
  split at howes
  · cases howes
  · cases howes
  · cases howes
  · split at howes
    · next hor => simpa [h] using hor
    · cases howes

theorem SaveCall.not_holding_probing (c : SaveCall) (hosts : List HostRecord) (drift : Bool) :
    ¬ (c.probing hosts drift).duty.Holding := by
  unfold SaveCall.probing
  split
  · simp only [SaveCall.duty]
    split <;> exact id
  · split
    · simp [SaveCall.duty, SavePc.changed, Duty.Holding]
    · exact c.not_holding_next true

theorem SaveCall.duty_probing {c : SaveCall} {drift : Bool} (h : (drift || c.removed) = true) (hosts : List HostRecord) :
    (c.probing hosts drift).duty = .owes := by
  unfold SaveCall.probing
  split
  · exact if_pos h
  · split
    · rfl
    · next hdrift =>
      refine SaveCall.duty_next_of_removed ?_ true
      simpa [hdrift] using h

/-- The ranges a call carries parse. -/
def SavePc.Legible : SavePc → Prop
  | .reclaim range => ∃ r, spanOf range = .some r
  | .absorb plan | .absorbed plan => ∃ m, spanOf plan.newRange = .some m
  | .shrink plan _ | .shrunk plan _ => (∃ s, spanOf plan.shrinkTo = .some s) ∧ ∃ s, spanOf plan.assigned = .some s
  | _ => True

theorem SaveCall.legible_next (c : SaveCall) (returned : Bool) : (c.next returned).pc.Legible := by
  unfold SaveCall.next
  split
  · trivial
  · trivial
  · split <;> trivial

theorem SaveCall.legible_probing (c : SaveCall) (hosts : List HostRecord) (drift : Bool) :
    (c.probing hosts drift).pc.Legible := by
  unfold SaveCall.probing
  split
  · trivial
  · split
    · trivial
    · exact c.legible_next true

/-! ## What a turn leaves -/

/-- A debt is dropped where a commit finds its donor gone, or a reply that
drifted does not parse after another was adopted. -/
def SaveCall.keepsTurn (c : SaveCall) (reg : SwarmRegistry) : Bool :=
  match c.pc with
  | .absorbed plan => reg.hosts.contains plan.donorId || c.removed
  | .adopt hostId status _ drift => !drift || (reg.adoptDrift hostId status.blockIndices).isSome
  | _ => true

/-- Or where the `/reload` of a departure fails. -/
def SaveCall.keepsAnswer (c : SaveCall) (ok : Bool) : Bool :=
  match c.pc with
  | .absorb _ => ok || c.removed
  | _ => true

/-- What a locked piece leaves owes a save, or nothing lasting was changed and
no debt was dropped. -/
def Turn.Good (c : SaveCall) (reg : SwarmRegistry) : Turn → Prop
  | .go c' reg' => reg'.Wellformed ∧ c'.pc.Legible ∧ ¬ c'.duty.Holding ∧
      (c'.duty = .owes ∨ (reg.SameLasting reg' ∧ c.duty.Pays c'.duty))
  | .save reg' _ => reg'.Wellformed

section Turn

variable {c : SaveCall} {reg reg' : SwarmRegistry} {now : Int} {t : Turn}

/-- A turn that ends, returned or raised, with nothing lasting changed. -/
theorem Turn.good_next (hw : reg'.Wellformed) (hsame : reg.SameLasting reg') (h : c.pc.changed = false) (returned : Bool) :
    Turn.Good c reg (.go (c.next returned) reg') :=
  ⟨hw, c.legible_next returned, c.not_holding_next returned, .inr ⟨hsame, c.pays_next h returned⟩⟩

/-- A piece after which the call owes a save. -/
theorem Turn.good_owes {pc : SavePc} (hw : reg'.Wellformed) (hlegible : pc.Legible) (h : pc.changed = true) :
    Turn.Good c reg (.go { c with pc } reg') := by
  have howes : SaveCall.duty { c with pc } = .owes := by
    cases pc <;> simp_all [SaveCall.duty, SavePc.changed]
  exact ⟨hw, hlegible, by rw [howes]; exact id, .inl howes⟩

theorem wellformed_adoptDrift (hw : reg.Wellformed) {hostId : String} {blocks : LiveBlocks}
    (h : reg.adoptDrift hostId blocks = .some reg') : reg'.Wellformed := by
  unfold adoptDrift at h
  split at h
  · obtain rfl := Option.some.inj h
    exact hw
  · obtain ⟨s, hs, rfl⟩ := Option.map_eq_some_iff.1 h
    exact hw.updateHost (fun _ _ hf => hf.resized hs) fun _ _ => id
  · cases h

theorem sameLasting_markReadyCheck {hostId : String} {peer : Option String} {check : ReadyCheck}
    (h : markReadyCheck hostId peer reg = .ok check reg') : reg.SameLasting reg' := by
  obtain ⟨-, -, ⟨-, -, rfl⟩ | ⟨-, -, -, -, rfl | ⟨p, rfl⟩⟩⟩ := markReadyCheck_ok h
  · exact .refl _
  · exact .refl _
  · exact .updateHost fun _ _ => rfl

/-- A heartbeat that raises has noted the time, and nothing lasting. -/
theorem sameLasting_heartbeat (hw : reg.Wellformed) {hostId : String} {report : HeartbeatReport} {e : PyError}
    (h : applyHeartbeatManifest hostId report now reg = .error e reg') : reg'.Wellformed ∧ reg.SameLasting reg' := by
  cases hk : reg.hosts.get? hostId with
  | none =>
    have herr : applyHeartbeatManifest hostId report now reg = .error (.keyError hostId) reg := by
      simp only [applyHeartbeatManifest, heartbeat, locked, bind_apply, hk]
    obtain ⟨-, rfl⟩ := EStateM.Result.error.inj (herr.symm.trans h)
    exact ⟨hw, .refl reg⟩
  | some host =>
    obtain ⟨-, _, _, hok, -⟩ | ⟨-, _, herr⟩ := applyHeartbeatManifest_cases hk report now
    · rw [hok] at h
      cases h
    · obtain ⟨-, rfl⟩ := EStateM.Result.error.inj (herr.symm.trans h)
      have hbeat : ∀ g, reg.hosts.get? hostId = .some g → (beat now g).status = g.status := by
        intro g hg
        exact if_neg (hw.each _ g hg).live
      refine ⟨hw.sameSeats (.updateHost ?_), .updateHost ?_⟩
      · intro g hg
        exact ⟨rfl, rfl, hbeat g hg, rfl, rfl, rfl, rfl, rfl⟩
      · intro g hg
        simp only [HostRecord.lasting, hbeat g hg]
        rfl

theorem wellformed_heartbeat (hw : reg.Wellformed) {hostId : String} {report : HeartbeatReport}
    (h : applyHeartbeatManifest hostId report now reg = .ok () reg') : reg'.Wellformed := by
  have hseats := applyHeartbeatManifest_sameSeats hw hostId report now
  rw [after_of_ok h] at hseats
  exact (hw.after_adoptReport hostId report.blockIndices).sameSeats hseats

theorem SaveCall.leaving_good (hw : reg.Wellformed) (h : c.pc.changed = false) (hostId : String) :
    (c.leaving hostId reg).Good c reg := by
  unfold SaveCall.leaving
  cases hl : leaveLocked hostId reg with
  | error e reg' =>
    obtain rfl := leaveLocked_error hl
    exact Turn.good_next hw (.refl _) h false
  | ok o reg' =>
    have hw' := hw.of_leaveLocked hl
    cases o with
    | none => exact Turn.good_owes hw' trivial rfl
    | some range => exact Turn.good_owes hw' (hw.spanOf_leaveLocked hl) rfl

/-- **The first locked piece of a call.** -/
theorem SaveCall.start_good (hw : reg.Wellformed) {request : SaveRequest} (hpc : c.pc = .start request)
    (h : c.start now reg request = .some t) : t.Good c reg := by
  have hclean : c.pc.changed = false := by rw [hpc]; rfl
  have hpays : ∀ d, c.duty.Pays d := by
    intro d howes
    rw [SaveCall.duty, hpc] at howes
    cases howes
  cases request with
  | join layers publicIp url account hostId =>
    simp only [SaveCall.start] at h
    split at h
    · cases h
    · next hfresh =>
      obtain rfl := Option.some.inj h
      have hnone : reg.hosts.get? hostId = .none := by simpa [Dict.contains] using hfresh
      cases hj : join layers publicIp url account hostId now reg with
      | ok reply reg' => exact hw.of_join hnone hj
      | error e reg' =>
        obtain rfl := join_error hj
        exact Turn.good_next hw (.refl _) hclean false
  | markReady hostId peer =>
    obtain rfl := Option.some.inj h
    cases hc : markReadyCheck hostId peer reg with
    | error e reg' =>
      obtain rfl := markReadyCheck_error hc
      exact Turn.good_next hw (.refl _) hclean false
    | ok check reg' =>
      have hw' := hw.sameSeats (markReadyCheck_sameSeats hc)
      have hsame := sameLasting_markReadyCheck hc
      cases check with
      | online host => exact Turn.good_next hw' hsame hclean true
      | shrink plan =>
        obtain ⟨p, -, -, hcar, -⟩ := hw.markReadyCheck_carries hc
        refine ⟨hw', ⟨⟨_, hcar.spanOf_keep⟩, _, hcar.spanOf_give⟩, ?_, .inr ⟨hsame, hpays _⟩⟩
        simp only [SaveCall.duty]
        split <;> exact id
  | leave hostId =>
    obtain rfl := Option.some.inj h
    exact c.leaving_good hw hclean hostId
  | reapStale ttl listed | reapStalePending ttl listed =>
    obtain rfl := Option.some.inj h
    exact ⟨hw, SaveCall.legible_next _ _, SaveCall.not_holding_next _ _, .inr ⟨.refl _, hpays _⟩⟩
  | setEnsName hostId ensName =>
    obtain rfl := Option.some.inj h
    split
    · exact hw.sameSeats (.updateHost fun _ _ => ⟨rfl, rfl, rfl, rfl, rfl, rfl, rfl, rfl⟩)
    · exact Turn.good_next hw (.refl _) hclean false
  | refresh =>
    obtain rfl := Option.some.inj h
    exact ⟨hw, c.legible_probing _ _, c.not_holding_probing _ _, .inr ⟨.refl _, hpays _⟩⟩
  | heartbeat hostId report =>
    obtain rfl := Option.some.inj h
    cases hb : applyHeartbeatManifest hostId report now reg with
    | ok _ reg' => exact Turn.good_owes (wellformed_heartbeat hw hb) trivial rfl
    | error e reg' =>
      obtain ⟨hw', hsame⟩ := sameLasting_heartbeat hw hb
      exact Turn.good_next hw' hsame hclean false

/-- **Every locked piece**, from a registry and a call that are well formed. -/
theorem SaveCall.turn_good (hw : reg.Wellformed) (hlegible : c.pc.Legible) (hkeeps : c.keepsTurn reg = true)
    (h : c.turn now reg = .some t) : t.Good c reg := by
  unfold SaveCall.turn at h
  split at h
  · next request hpc => exact c.start_good hw hpc h
  · next hostId hpc =>
    obtain rfl := Option.some.inj h
    exact c.leaving_good hw (by rw [hpc]; rfl) hostId
  · next range hpc =>
    obtain rfl := Option.some.inj h
    rw [hpc] at hlegible
    obtain ⟨r, hr⟩ := hlegible
    obtain ⟨o, ho, hsome, -⟩ := reclaimLocked_eq hw.keyed hw.readable hr
    rw [ho]
    cases o with
    | none => exact Turn.good_owes hw trivial rfl
    | some plan =>
      obtain ⟨_, m, -, hnew, -⟩ := hsome plan rfl
      exact Turn.good_owes hw ⟨m, by simp [hnew]⟩ rfl
  · next plan hpc =>
    obtain rfl := Option.some.inj h
    rw [hpc] at hlegible
    obtain ⟨m, hm⟩ := hlegible
    obtain ⟨hgone, hcommit⟩ | ⟨donor, -, hcommit⟩ := reclaimCommit_eq hm reg
    · -- The absorber is gone: the departure is saved by the reaper, if at all.
      have hremoved : c.removed = true := by simpa [SaveCall.keepsTurn, hpc, Dict.contains, hgone] using hkeeps
      rw [hcommit]
      exact ⟨hw, c.legible_next false, c.not_holding_next false, .inl (c.duty_next_of_removed hremoved false)⟩
    · have hw' := hw.of_reclaimCommit hm hcommit
      rw [hcommit]
      exact Turn.good_owes hw' trivial rfl
  · next plan peer hpc =>
    obtain rfl := Option.some.inj h
    rw [hpc] at hlegible
    obtain ⟨⟨keep, hk⟩, give, hg⟩ := hlegible
    cases hcommit : markReadyCommit plan peer now reg with
    | ok ret reg' => exact hw.of_markReadyCommit hk hg hcommit
    | error e reg' =>
      obtain ⟨rfl, -⟩ := markReadyCommit_error hk hg hcommit
      exact Turn.good_next hw (.refl _) (by rw [hpc]; rfl) false
  · next hostId status hosts drift hpc =>
    obtain rfl := Option.some.inj h
    cases hadopt : reg.adoptDrift hostId status.blockIndices with
    | some reg' => exact Turn.good_owes (wellformed_adoptDrift hw hadopt) trivial rfl
    | none =>
      have hfirst : drift = false := by simpa [SaveCall.keepsTurn, hpc, hadopt] using hkeeps
      exact Turn.good_next hw (.refl _) (by rw [hpc]; exact hfirst) false
  · next hostId running hosts drift hpc =>
    obtain rfl := Option.some.inj h
    refine ⟨hw.sameSeats (.updateHost fun _ _ => ⟨rfl, rfl, rfl, rfl, rfl, rfl, rfl, rfl⟩), c.legible_probing hosts drift,
      c.not_holding_probing hosts drift, .inr ⟨.updateHost fun _ _ => rfl, ?_⟩⟩
    intro howes
    rw [SaveCall.duty, hpc] at howes
    refine SaveCall.duty_probing ?_ hosts
    cases drift with
    | true => rfl
    | false => simpa [SavePc.changed] using howes
  · obtain rfl := Option.some.inj h
    exact hw
  all_goals cases h

end Turn

namespace Saving

variable {s t : Saving}

/-- What the run is to avoid: an older snapshot is written over a newer one, or
a call that owes a save raises. -/
def keeps (s : Saving) : SaveLabel → Bool
  | .turn i _ => (s.calls[i]?).all (·.keepsTurn s.reg)
  | .answer i ok => (s.calls[i]?).all (·.keepsAnswer ok)
  | .write i => (s.calls[i]?).all fun c =>
    match c.pc with
    | .write n _ => s.landed < n
    | _ => true
  | .start _ | .probe _ _ => true

/-- The file, the snapshots and what each call owes. -/
def snapshots (s : Saving) : Snapshots SwarmRegistry RegistryFile where
  value := s.reg
  file := s.file
  taken := s.taken
  landed := s.landed
  duties := s.calls.map SaveCall.duty

structure Sound (s : Saving) : Prop where
  wellformed : s.reg.Wellformed
  legible : ∀ c ∈ s.calls, c.pc.Legible
  snapshots : s.snapshots.Sound RegistryFile.Follows

theorem sound_fresh {reg : SwarmRegistry} {file : RegistryFile} (hw : reg.Wellformed) (hfollows : file.Follows reg) :
    (fresh reg file).Sound where
  wellformed := hw
  legible := by simp [fresh]
  snapshots := {
    landed := Nat.le_refl _
    held := by simp [Saving.snapshots, fresh]
    newest := ⟨file, .inl ⟨rfl, rfl⟩⟩
    current := by
      refine .inr ?_
      intro f hf
      obtain ⟨-, rfl⟩ | h := hf
      · exact hfollows
      · simp [Saving.snapshots, fresh] at h }

theorem duty_get {i : Nat} {c : SaveCall} (hc : s.calls[i]? = .some c) : s.snapshots.duties[i]? = .some c.duty := by
  simp [snapshots, hc]

/-- A call goes on without the registry. -/
theorem Sound.goOn (hs : s.Sound) {i : Nat} {c c' : SaveCall} (hc : s.calls[i]? = .some c) (hlegible : c'.pc.Legible)
    (hd : ¬ c.duty.Holding) (hd' : ¬ c'.duty.Holding) (hpays : c.duty.Pays c'.duty) :
    Sound { s with calls := s.calls.set i c' } := by
  refine ⟨hs.wellformed, forall_mem_set hs.legible hlegible, ?_⟩
  simp only [Saving.snapshots, List.map_set]
  exact hs.snapshots.quiet (duty_get hc) hd hd' hpays fun _ => id

theorem not_holding_of_turn {c : SaveCall} {now : Int} {reg : SwarmRegistry} {t : Turn} (h : c.turn now reg = .some t) :
    ¬ c.duty.Holding := by
  unfold SaveCall.duty
  split
  · exact id
  · exact id
  · next n file hpc => simp [SaveCall.turn, hpc] at h
  · split <;> exact id

theorem Sound.turn (hs : s.Sound) {i : Nat} {now : Int} (hkeeps : s.keeps (.turn i now) = true)
    (hstep : s.step (.turn i now) = .some t) : t.Sound := by
  simp only [step] at hstep
  split at hstep
  · obtain ⟨c, hc, hstep⟩ := Option.bind_eq_some_iff.1 hstep
    obtain ⟨turn, hturn, hstep⟩ := Option.bind_eq_some_iff.1 hstep
    have hlegible := hs.legible c (List.mem_of_getElem? hc)
    have hgood := c.turn_good hs.wellformed hlegible (by simpa [keeps, hc] using hkeeps) hturn
    have hfree := not_holding_of_turn hturn
    cases turn with
    | go c' reg' =>
      obtain rfl := Option.some.inj hstep
      obtain ⟨hw', hlegible', hfree', howes | ⟨hsame, hpays⟩⟩ := hgood
      · refine ⟨hw', forall_mem_set hs.legible hlegible', ?_⟩
        simp only [Saving.snapshots, List.map_set, howes]
        exact hs.snapshots.change (duty_get hc) hfree
      · refine ⟨hw', forall_mem_set hs.legible hlegible', ?_⟩
        simp only [Saving.snapshots, List.map_set]
        exact hs.snapshots.quiet (duty_get hc) hfree hfree' hpays fun _ hf => hf.same hsame
    | save reg' held =>
      obtain rfl := Option.some.inj hstep
      refine ⟨hgood, forall_mem_set hs.legible trivial, ?_⟩
      simp only [Saving.snapshots, List.map_set]
      exact hs.snapshots.snapshot (duty_get hc) hfree (follows_persist hgood)
  · cases hstep

theorem Sound.answer (hs : s.Sound) {i : Nat} {ok : Bool} (hkeeps : s.keeps (.answer i ok) = true)
    (hstep : s.step (.answer i ok) = .some t) : t.Sound := by
  obtain ⟨c, hc, hstep⟩ := Option.bind_eq_some_iff.1 hstep
  obtain ⟨c', hanswer, hstep⟩ := Option.bind_eq_some_iff.1 hstep
  obtain rfl := Option.some.inj hstep
  have hlegible := hs.legible c (List.mem_of_getElem? hc)
  have hkept : c.keepsAnswer ok = true := by simpa [keeps, hc] using hkeeps
  unfold SaveCall.answered at hanswer
  split at hanswer
  · next plan hpc =>
    obtain rfl := Option.some.inj hanswer
    rw [hpc] at hlegible
    have howes : c.duty = .owes := by simp [SaveCall.duty, hpc, SavePc.changed]
    have hfree : ¬ c.duty.Holding := howes ▸ id
    cases ok with
    | true => exact hs.goOn hc hlegible hfree id fun _ => rfl
    | false =>
      have hremoved : c.removed = true := by simpa [SaveCall.keepsAnswer, hpc] using hkept
      exact hs.goOn hc (c.legible_next false) hfree (c.not_holding_next false)
        fun _ => SaveCall.duty_next_of_removed hremoved false
  · next plan peer hpc =>
    obtain rfl := Option.some.inj hanswer
    rw [hpc] at hlegible
    have hclean : c.pc.changed = false := by rw [hpc]; rfl
    have hfree : ¬ c.duty.Holding := by
      rw [SaveCall.duty, hpc]
      simp only
      split <;> exact id
    cases ok with
    | true =>
      have hsame : SaveCall.duty { c with pc := .shrunk plan peer } = c.duty := by
        simp only [SaveCall.duty, hpc]
        rfl
      exact hs.goOn hc hlegible hfree (hsame ▸ hfree) fun howes => hsame.trans howes
    | false => exact hs.goOn hc (c.legible_next false) hfree (c.not_holding_next false) (c.pays_next hclean false)
  · cases hanswer

theorem Sound.probe (hs : s.Sound) {i : Nat} {reply : Option LiveStatus} (hstep : s.step (.probe i reply) = .some t) :
    t.Sound := by
  obtain ⟨c, hc, hstep⟩ := Option.bind_eq_some_iff.1 hstep
  obtain ⟨c', hprobe, hstep⟩ := Option.bind_eq_some_iff.1 hstep
  obtain rfl := Option.some.inj hstep
  unfold SaveCall.probed at hprobe
  split at hprobe
  · next host hosts drift hpc =>
    have hduty : c.duty = if drift || c.removed then .owes else .free := by rw [SaveCall.duty, hpc]; rfl
    have hfree : ¬ c.duty.Holding := by
      rw [hduty]
      split <;> exact id
    obtain rfl := Option.some.inj hprobe
    cases reply with
    | none =>
      refine hs.goOn hc (c.legible_probing hosts drift) hfree (c.not_holding_probing hosts drift) ?_
      intro howes
      refine SaveCall.duty_probing ?_ hosts
      by_contra hno
      rw [hduty, if_neg hno] at howes
      cases howes
    | some status =>
      -- Either way the call is where it was, as far as its debt goes.
      simp only
      split
      · have hsame : SaveCall.duty { c with pc := .adopt host.hostId status hosts drift } = c.duty := hduty.symm
        exact hs.goOn hc trivial hfree (hsame ▸ hfree) fun howes => hsame.trans howes
      · have hsame : SaveCall.duty { c with pc := .note host.hostId status.running hosts drift } = c.duty := hduty.symm
        exact hs.goOn hc trivial hfree (hsame ▸ hfree) fun howes => hsame.trans howes
  · cases hprobe

theorem Sound.write (hs : s.Sound) {i : Nat} (hkeeps : s.keeps (.write i) = true)
    (hstep : s.step (.write i) = .some t) : t.Sound := by
  obtain ⟨c, hc, hstep⟩ := Option.bind_eq_some_iff.1 hstep
  split at hstep
  · next n file hpc =>
    obtain rfl := Option.some.inj hstep
    have hnew : s.landed < n := by simpa [keeps, hc, hpc] using hkeeps
    have hduty : s.snapshots.duties[i]? = .some (.holds n file) := by
      rw [duty_get hc, SaveCall.duty, hpc]
    refine ⟨hs.wellformed, forall_mem_set hs.legible (c.legible_next true), ?_⟩
    simp only [Saving.snapshots, List.map_set]
    exact hs.snapshots.write hduty hnew (c.not_holding_next true)
  · cases hstep

theorem Sound.start (hs : s.Sound) (request : SaveRequest) :
    Sound { s with calls := s.calls ++ [{ pc := .start request }] } := by
  refine ⟨hs.wellformed, ?_, ?_⟩
  · intro c hc
    obtain hc | hc := List.mem_append.1 hc
    · exact hs.legible c hc
    · obtain rfl := List.mem_singleton.1 hc
      trivial
  · simp only [Saving.snapshots, List.map_append, List.map_cons, List.map_nil]
    exact hs.snapshots.start id

theorem Sound.step (hs : s.Sound) {label : SaveLabel} (hkeeps : s.keeps label = true)
    (hstep : s.step label = .some t) : t.Sound := by
  cases label with
  | start request =>
    obtain rfl := Option.some.inj hstep
    exact hs.start request
  | turn i now => exact hs.turn hkeeps hstep
  | answer i ok => exact hs.answer hkeeps hstep
  | probe i reply => exact hs.probe hstep
  | write i => exact hs.write hkeeps hstep

theorem sound_of_reaches {reg : SwarmRegistry} {file : RegistryFile} (hw : reg.Wellformed) (hfollows : file.Follows reg)
    (h : machine.Reaches (fun s label => s.keeps label = true) (fresh reg file) s) : s.Sound :=
  h.invariant (I := Sound) (sound_fresh hw hfollows) fun hs hkeeps hstep => hs.step hkeeps hstep

theorem duty_of_atRest (hrest : s.AtRest) : ∀ d ∈ s.snapshots.duties, d = .free := by
  intro d hd
  obtain ⟨c, hc, rfl⟩ := List.mem_map.1 hd
  rw [SaveCall.duty, hrest c hc]

/-- **The file follows the registry.** From a registry that was just started,
in any order of calls none of which writes an older snapshot over a newer one
or raises while it owes a save: once all calls have returned or raised, the
file gives back the hosts of the registry with their lasting fields. -/
theorem file_follows {reg : SwarmRegistry} {file : RegistryFile} {before : Option RegistryFile}
    {settings : StartSettings} {now : Int} (hinit : initRegistry before settings now = .ok (reg, .some file))
    (hw : reg.Wellformed) (h : machine.Reaches (fun s label => s.keeps label = true) (fresh reg file) s)
    (hrest : s.AtRest) : s.file.Follows s.reg :=
  (sound_of_reaches hw (follows_initRegistry hw hinit) h).snapshots.follows_of_rest (duty_of_atRest hrest)

def joinRequest : SaveRequest := .join 4 "203.0.113.7" "http://203.0.113.7:8003" "0.0.1234" "host-a"

/-- Host A joins and is made ready. -/
def arrival : List SaveLabel :=
  [.start joinRequest, .turn 0 0, .write 0, .start (.markReady "host-a" .none), .turn 1 0, .answer 1 true, .turn 1 0,
    .write 1]

/-- It leaves while the mother beats, and the two saves land in order. -/
def inOrder : List SaveLabel :=
  arrival ++ [.start (.leave "host-a"), .turn 2 1, .turn 2 1, .answer 2 true, .start (.heartbeat "mother" {}), .turn 3 1,
    .turn 3 1, .turn 2 1, .turn 2 1, .write 3, .write 2]

/-- It joins between the snapshot and the write of a heartbeat. -/
def overtaken : List SaveLabel :=
  [.start (.heartbeat "mother" {}), .turn 0 0, .turn 0 0, .start joinRequest, .turn 1 0, .write 1, .write 0]

/-- It leaves, and the mother's `/reload` fails. -/
def refusedLeave : List SaveLabel :=
  arrival ++ [.start (.leave "host-a"), .turn 2 1, .turn 2 1, .answer 2 false]

theorem file_follows_inOrder : ∃ s, machine.runIf keeps (fresh (demo 12) (demo 12).persist) inOrder = .some s ∧
    s.AtRest ∧ s.file.Follows s.reg := by
  have hrun : ((machine.runIf keeps (fresh (demo 12) (demo 12).persist) inOrder).any fun s => s.AtRest) = true := by
    decide +kernel
  obtain ⟨s, hrun, hrest⟩ := (Option.any_eq_true _ _).1 hrun
  have hinit : initRegistry .none demoSettings 0 = .ok (demo 12, .some (demo 12).persist) := rfl
  refine ⟨s, hrun, of_decide_eq_true hrest, ?_⟩
  exact file_follows hinit (wellformed_init (init_demo 12)) (.of_runIf (fun _ _ _ h => h) hrun) (of_decide_eq_true hrest)

theorem contains_of_follows {file : RegistryFile} {reg : SwarmRegistry} (h : file.Follows reg) (k : String) :
    file.hosts.contains k = reg.hosts.contains k := by
  obtain ⟨loaded, hload⟩ : ∃ loaded, loadPersisted file demoSettings 0 = .ok loaded := ⟨_, rfl⟩
  have hsome := congrArg Option.isSome (h demoSettings 0 loaded hload k)
  rw [(loadPersisted_ok hload).2.2.2] at hsome
  simp only [Dict.contains]
  split at hsome <;> simpa using hsome

/-- **An overtaken save and a failed departure** leave the file behind: it
lacks a host that joined, and has one that left. -/
theorem file_behind :
    (∃ s, machine.run (fresh (demo 12) (demo 12).persist) overtaken = .some s ∧ s.AtRest ∧ ¬ s.file.Follows s.reg) ∧
      ∃ s, machine.run (fresh (demo 12) (demo 12).persist) refusedLeave = .some s ∧ s.AtRest ∧
        ¬ s.file.Follows s.reg := by
  have hruns : ∀ labels ∈ [overtaken, refusedLeave], ((machine.run (fresh (demo 12) (demo 12).persist) labels).any fun s =>
      s.AtRest && (s.file.hosts.contains "host-a" != s.reg.hosts.contains "host-a")) = true := by
    decide +kernel
  have hbehind : ∀ labels ∈ [overtaken, refusedLeave], ∃ s,
      machine.run (fresh (demo 12) (demo 12).persist) labels = .some s ∧ s.AtRest ∧ ¬ s.file.Follows s.reg := by
    intro labels hmem
    obtain ⟨s, hrun, hs⟩ := (Option.any_eq_true _ _).1 (hruns labels hmem)
    obtain ⟨hrest, hdiffers⟩ := Bool.and_eq_true_iff.1 hs
    refine ⟨s, hrun, of_decide_eq_true hrest, ?_⟩
    intro hfollows
    simp [contains_of_follows hfollows] at hdiffers
  exact ⟨hbehind _ (by simp), hbehind _ (by simp)⟩

end Saving

end Blitzwing
