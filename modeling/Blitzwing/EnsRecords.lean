/-
What a call that succeeds has published.

A provision, an update and a deactivation end in one `setRecords` of all texts,
so where the chain writes what it is given (`Writes`), a name afterwards shows
the fields the call was sent (`serve_answered`). What is then resolved is the
host, the account and the range that were sent (`serve_identifies`,
`resolveHostRecord_identifies`).
-/
import Blitzwing.EnsNames

namespace Blitzwing.Ens

variable {χ : Type} {ens : EnsChain χ} {config : EnsConfig} {resolves : χ → String → String → Option String}

/-- Texts that are set are resolved. -/
def Writes (ens : EnsChain χ) (config : EnsConfig) (resolves : χ → String → String → Option String) : Prop :=
  ∀ label resolver texts, (texts.map Prod.fst).Nodup → Ensures (fun _ => True) (fun _ _ => True)
    (fun _ c => ∀ key v, (key, v) ∈ texts → resolves c (subname label config.parentName) key = .some v)
    (ens.setRecords (subname label config.parentName) resolver texts)

/-- What is sent of a host's fields. -/
structure Fields where
  blockIndices : Option String := .none
  layersHosted : Option Int := .none
  status : Option String := .none

/-- The name resolves to the fields that are there. -/
structure Shows (resolves : χ → String → String → Option String) (c : χ) (ensName : String) (fields : Fields) : Prop where
  blockIndices : ∀ v, fields.blockIndices = .some v → resolves c ensName recordKeys.blockIndices = .some v
  layersHosted : ∀ v, fields.layersHosted = .some v → resolves c ensName recordKeys.layersHosted = .some (toString v)
  status : ∀ v, fields.status = .some v → resolves c ensName recordKeys.status = .some v

/-- All of a record is sent, under distinct keys. -/
theorem mem_of_recordToTexts {numbers : Numbers} {record : BlitzwingHostRecord} {texts : List (String × String)}
    (h : recordToTexts numbers record = .ok texts) : (texts.map Prod.fst).Nodup ∧
      (recordKeys.blockIndices, record.blockIndices) ∈ texts ∧ (recordKeys.layersHosted, record.layersHosted) ∈ texts ∧
      (recordKeys.status, record.status) ∈ texts := by
  unfold recordToTexts at h
  obtain ⟨_, -, h⟩ := bind_eq_ok.1 h
  obtain ⟨_, -, h⟩ := bind_eq_ok.1 h
  obtain rfl := Except.ok.inj h
  refine ⟨?_, by simp, by simp, by simp⟩
  simp only [List.map_cons, List.map_nil]
  decide +kernel

/-- A computation of which only what it returns is known. -/
theorem ensures_any {α : Type} (x : EnsM χ α) : Ensures (fun _ => True) (fun _ _ => True) (fun _ _ => True) x := by
  intro w _
  cases x w <;> trivial

theorem ensures_ofExcept {α : Type} (x : Except String α) :
    Ensures (fun _ => True) (fun _ _ => True) (fun a _ => x = .ok a) (ofExcept x : EnsM χ α) := by
  cases x with
  | ok a => exact Ensures.ret (fun _ => trivial) fun _ _ => rfl
  | error e => exact Ensures.throw (fun _ => trivial) e

theorem ensures_bind_any {α β : Type} {x : EnsM χ α} {f : α → EnsM χ β} {K : β → EnsWorld χ → Prop}
    (hf : ∀ a, Ensures (fun _ => True) (fun _ _ => True) K (f a)) :
    Ensures (fun _ => True) (fun _ _ => True) K (x >>= f) :=
  Ensures.bind (fun _ _ => trivial) (ensures_any x) hf

/-- What a call that succeeds leaves on the chain. -/
abbrev Leaving {σ α : Type} (J : α → σ → Prop) (x : EStateM String σ α) : Prop :=
  Ensures (fun _ => True) (fun _ _ => True) J x

theorem ensures_chain {α : Type} {x : EStateM String χ α} {I : χ → Prop} {J : α → χ → Prop}
    (h : Ensures I (fun _ _ => True) J x) :
    Ensures (fun w : EnsWorld χ => I w.chain) (fun _ _ => True) (fun a w => J a w.chain) (onChain x) := by
  intro w hw
  unfold onChain
  cases hr : x w.chain with
  | error e c => trivial
  | ok a c => exact ⟨trivial, (Ensures.ok h hw hr).2⟩

/-- The end of every write. -/
theorem ensures_written {P : χ → Prop} {ensName resolver : String} {texts : List (String × String)}
    (hset : Leaving (fun _ => P) (ens.setRecords ensName resolver texts)) (hostId : String) {α : Type}
    (f : String → α) :
    Leaving (fun r w => (∃ hash, r = f hash) ∧ P w.chain)
      (do
        let hash ← onChain (ens.setRecords ensName resolver texts)
        saveHostMapping hostId ensName
        return f hash) := by
  refine Ensures.bind (fun _ _ => trivial) (ensures_chain hset) ?_
  intro hash
  have hsave : Ensures (fun w => P w.chain) (fun _ _ => True) (fun _ w => P w.chain)
      (saveHostMapping hostId ensName) := Ensures.modify fun _ hw => ⟨trivial, hw⟩
  refine Ensures.bind (fun _ _ => trivial) hsave ?_
  intro _
  exact Ensures.ret (fun _ => trivial) fun _ hw => ⟨⟨hash, rfl⟩, hw⟩

/-- What an update writes over the record it read. -/
def UpdateBody.merged (input : UpdateBody) (current : BlitzwingHostRecord) : BlitzwingHostRecord where
  hostId := input.hostId.getD current.hostId
  hederaAccountId := input.hederaAccountId.getD current.hederaAccountId
  blockIndices := input.blockIndices.getD current.blockIndices
  layersHosted := (input.layersHosted.map toString).getD current.layersHosted
  model := input.model.getD current.model
  role := input.role.getD current.role
  status := input.status.getD current.status

theorem ensures_updateHost {P : χ → Prop} (input : UpdateBody)
    (hset : ∀ current resolver texts, recordToTexts config.numbers (input.merged current) = .ok texts →
      Leaving (fun _ => P) (ens.setRecords input.ensName resolver texts)) :
    Leaving (fun _ w => P w.chain) (updateHost ens config input) := by
  unfold updateHost
  refine ensures_bind_any ?_
  intro r
  cases r with
  | none => exact Ensures.throw (fun _ => trivial) _
  | some current =>
    refine ensures_bind_any fun _ => ensures_bind_any fun resolver => ?_
    refine Ensures.bind (fun _ _ => trivial) (ensures_ofExcept _) ?_
    intro texts w htexts
    exact Ensures.imp (ensures_written (hset current resolver texts htexts) _ fun hash => [hash])
      (fun _ (_ : True) => trivial) (fun _ _ hw => hw.2) w trivial

/-- The record a provision writes. -/
def ProvisionBody.record (input : ProvisionBody) : BlitzwingHostRecord where
  hostId := input.hostId
  role := (truthy input.role).getD "contributor"
  hederaAccountId := input.hederaAccountId.getD "null"
  blockIndices := input.blockIndices.getD "null"
  layersHosted := toString (input.layersHosted.getD 0)
  model := (truthy input.model).getD ""
  status := (truthy input.status).getD "online"

theorem ensures_provisionHost {P : String → χ → Prop} (input : ProvisionBody)
    (hset : ∀ ensName resolver texts, recordToTexts config.numbers input.record = .ok texts →
      Leaving (fun _ => P ensName) (ens.setRecords ensName resolver texts)) :
    Leaving (fun r w => P r.1 w.chain) (provisionHost ens config input) := by
  unfold provisionHost
  refine ensures_bind_any fun ensName => ?_
  refine ensures_bind_any fun _ => ensures_bind_any fun label => ensures_bind_any fun resolver => ?_
  refine ensures_bind_any fun created => ?_
  refine Ensures.bind (fun _ _ => trivial) (ensures_ofExcept _) ?_
  intro texts w htexts
  refine Ensures.imp (ensures_written (hset ensName resolver texts htexts) input.hostId
    fun hash => (ensName, created ++ [hash])) (fun _ (_ : True) => trivial) ?_ w trivial
  intro r w hw
  obtain ⟨⟨hash, rfl⟩, hleft⟩ := hw
  exact hleft

/-! ## The fields that are shown -/

theorem leaving_shows (hwrites : Writes ens config resolves) {record : BlitzwingHostRecord} {fields : Fields}
    {texts : List (String × String)} (htexts : recordToTexts config.numbers record = .ok texts)
    (hblocks : ∀ v, fields.blockIndices = .some v → record.blockIndices = v)
    (hlayers : ∀ v, fields.layersHosted = .some v → record.layersHosted = toString v)
    (hstatus : ∀ v, fields.status = .some v → record.status = v) (ensName resolver : String) :
    Leaving (fun _ c => ∀ label, ensName = subname label config.parentName → Shows resolves c ensName fields)
      (ens.setRecords ensName resolver texts) := by
  obtain ⟨hnodup, hb, hl, hs⟩ := mem_of_recordToTexts htexts
  intro c _
  cases hr : ens.setRecords ensName resolver texts c with
  | error e c => trivial
  | ok hash c =>
    refine ⟨trivial, ?_⟩
    intro label hname
    subst hname
    have hwritten := (Ensures.ok (hwrites label resolver texts hnodup) trivial hr).2
    refine ⟨?_, ?_, ?_⟩
    · intro v hv
      rw [← hblocks v hv]
      exact hwritten _ _ hb
    · intro v hv
      rw [← hlayers v hv]
      exact hwritten _ _ hl
    · intro v hv
      rw [← hstatus v hv]
      exact hwritten _ _ hs

def UpdateBody.fields (body : UpdateBody) : Fields := ⟨body.blockIndices, body.layersHosted, body.status⟩

theorem leaving_updateHost (hwrites : Writes ens config resolves) (input : UpdateBody) :
    Leaving (fun _ w => ∀ label, input.ensName = subname label config.parentName →
      Shows resolves w.chain input.ensName input.fields) (updateHost ens config input) := by
  refine ensures_updateHost (P := fun c => ∀ label, input.ensName = subname label config.parentName →
    Shows resolves c input.ensName input.fields) input ?_
  intro current resolver texts htexts
  refine leaving_shows hwrites htexts ?_ ?_ ?_ _ resolver
  · intro v hv
    exact congrArg (·.getD current.blockIndices) hv
  · intro v hv
    exact congrArg (fun l : Option Int => (l.map toString).getD current.layersHosted) hv
  · intro v hv
    exact congrArg (·.getD current.status) hv

def ProvisionBody.fields (body : ProvisionBody) : Fields := ⟨body.blockIndices, body.layersHosted, .none⟩

theorem leaving_provisionHost (hwrites : Writes ens config resolves) (input : ProvisionBody) :
    Leaving (fun r w => ∀ label, r.1 = subname label config.parentName →
      Shows resolves w.chain r.1 input.fields) (provisionHost ens config input) := by
  refine ensures_provisionHost (P := fun ensName c => ∀ label, ensName = subname label config.parentName →
    Shows resolves c ensName input.fields) input ?_
  intro ensName resolver texts htexts
  refine leaving_shows hwrites htexts ?_ ?_ ?_ ensName resolver
  · intro v hv
    exact congrArg (·.getD "null") hv
  · intro v hv
    exact congrArg (fun l : Option Int => toString (l.getD 0)) hv
  · intro v hv
    cases hv

/-- Where an answer is not a failure, what its name shows. -/
def Answered (config : EnsConfig) (resolves : χ → String → String → Option String) (c : χ) : EnsCall → EnsAnswer → Prop
  | _, .failed _ _ _ _ => True
  | .provision body, .provisioned ensName _ _ =>
    ∀ label, ensName = subname label config.parentName → Shows resolves c ensName body.fields
  | .update body, _ => ∀ label, body.ensName = subname label config.parentName → Shows resolves c body.ensName body.fields
  | .deactivate ensName, _ => ∀ label, ensName = subname label config.parentName →
    Shows resolves c ensName { status := .some "offline" }
  | _, _ => True

theorem ensures_handle (hwrites : Writes ens config resolves) (call : EnsCall) :
    Ensures (fun _ => True) (fun _ _ => True) (fun answer w => Answered config resolves w.chain call answer)
      (handle ens config call) := by
  cases call with
  | provision body =>
    simp only [handle]
    split
    · exact Ensures.ret (fun _ => trivial) fun _ _ => trivial
    · refine ensures_bind_any fun mapped => ?_
      cases truthy mapped with
      | some existing =>
        refine Ensures.bind (fun _ _ => trivial) (leaving_updateHost hwrites _) ?_
        intro txHashes
        refine Ensures.ret (fun _ => trivial) ?_
        intro w hw label hlabel
        exact ⟨(hw label hlabel).blockIndices, (hw label hlabel).layersHosted, by simp [ProvisionBody.fields]⟩
      | none =>
        refine Ensures.bind (fun _ _ => trivial) (leaving_provisionHost hwrites body) ?_
        intro r
        exact Ensures.ret (fun _ => trivial) fun _ hw => hw
  | update body =>
    simp only [handle]
    split
    · exact Ensures.ret (fun _ => trivial) fun _ _ => trivial
    · refine Ensures.bind (fun _ _ => trivial) (leaving_updateHost hwrites body) ?_
      intro txHashes
      exact Ensures.ret (fun _ => trivial) fun _ hw => hw
  | deactivate ensName =>
    simp only [handle]
    split
    · exact Ensures.ret (fun _ => trivial) fun _ _ => trivial
    · refine Ensures.bind (fun _ _ => trivial) (leaving_updateHost hwrites { ensName, status := .some "offline" }) ?_
      intro txHashes
      exact Ensures.ret (fun _ => trivial) fun _ hw => hw

/-- **A call that does not fail shows what it was sent.** -/
theorem serve_answered (hwrites : Writes ens config resolves) (call : EnsCall) (w : EnsWorld χ) :
    Answered config resolves (serve ens config call w).2.chain call (serve ens config call w).1 := by
  unfold serve
  cases hr : handle ens config call w with
  | ok answer w' => exact (Ensures.ok (ensures_handle hwrites call) trivial hr).2
  | error message w' =>
    cases call <;> trivial

/-! ## Whose record a name has -/

/-- Texts are kept, of any name. -/
structure Stores (ens : EnsChain χ) (resolves : χ → String → String → Option String) : Prop where
  getTextRecord : ∀ name key, Ensures (fun _ => True) (fun c c' => ∀ n k, resolves c' n k = resolves c n k)
    (fun v c => v = resolves c name key) (ens.getTextRecord name key)
  setRecords : ∀ name resolver texts, (texts.map Prod.fst).Nodup →
    Leaving (fun _ c => ∀ key v, (key, v) ∈ texts → resolves c name key = .some v) (ens.setRecords name resolver texts)

/-- What a payout compares of a record. -/
structure Identity where
  hostId : String
  hederaAccountId : String
  blockIndices : String
deriving DecidableEq, Repr

def BlitzwingHostRecord.identity (record : BlitzwingHostRecord) : Identity :=
  ⟨record.hostId, record.hederaAccountId, record.blockIndices⟩

/-- The name resolves to it. -/
structure Identifies (resolves : χ → String → String → Option String) (c : χ) (ensName : String) (identity : Identity) :
    Prop where
  hostId : resolves c ensName recordKeys.hostId = .some identity.hostId
  hederaAccountId : resolves c ensName recordKeys.hederaAccountId = .some identity.hederaAccountId
  blockIndices : resolves c ensName recordKeys.blockIndices = .some identity.blockIndices
  account_ne : identity.hederaAccountId ≠ ""
  blocks_ne : identity.blockIndices ≠ ""

theorem leaving_identifies (hstores : Stores ens resolves) {record : BlitzwingHostRecord}
    {texts : List (String × String)} (htexts : recordToTexts config.numbers record = .ok texts)
    (ensName resolver : String) :
    Leaving (fun _ c => Identifies resolves c ensName record.identity) (ens.setRecords ensName resolver texts) := by
  obtain ⟨hnodup, -⟩ := mem_of_recordToTexts htexts
  refine Ensures.imp (hstores.setRecords ensName resolver texts hnodup) (fun _ h => h) ?_
  intro _ c hwritten
  unfold recordToTexts at htexts
  obtain ⟨_, haccount, htexts⟩ := bind_eq_ok.1 htexts
  obtain ⟨_, hblocks, htexts⟩ := bind_eq_ok.1 htexts
  obtain rfl := Except.ok.inj htexts
  refine ⟨hwritten _ _ (by simp [BlitzwingHostRecord.identity]), hwritten _ _ (by simp [BlitzwingHostRecord.identity]),
    hwritten _ _ (by simp [BlitzwingHostRecord.identity]), ?_, ?_⟩
  · intro hempty
    rw [show record.hederaAccountId = "" from hempty] at haccount
    cases haccount
  · intro hempty
    rw [show record.blockIndices = "" from hempty] at hblocks
    cases hblocks

theorem updateHost_identifies (hstores : Stores ens resolves) {input : UpdateBody} {identity : Identity}
    (hhost : input.hostId = .some identity.hostId) (haccount : input.hederaAccountId = .some identity.hederaAccountId)
    (hblocks : input.blockIndices = .some identity.blockIndices) :
    Leaving (fun _ w => Identifies resolves w.chain input.ensName identity) (updateHost ens config input) := by
  refine ensures_updateHost (P := fun c => Identifies resolves c input.ensName identity) input ?_
  intro current resolver texts htexts
  have hmerged : (input.merged current).identity = identity := by
    simp [BlitzwingHostRecord.identity, UpdateBody.merged, hhost, haccount, hblocks]
  exact hmerged ▸ leaving_identifies hstores htexts input.ensName resolver

theorem provisionHost_identifies (hstores : Stores ens resolves) (input : ProvisionBody) :
    Leaving (fun r w => Identifies resolves w.chain r.1 input.record.identity) (provisionHost ens config input) := by
  refine ensures_provisionHost (P := fun ensName c => Identifies resolves c ensName input.record.identity) input ?_
  intro ensName resolver texts htexts
  exact leaving_identifies hstores htexts ensName resolver

/-- After an update that says who a host is. -/
theorem serve_update_identifies (hstores : Stores ens resolves) {body : UpdateBody} {identity : Identity}
    (hhost : body.hostId = .some identity.hostId) (haccount : body.hederaAccountId = .some identity.hederaAccountId)
    (hblocks : body.blockIndices = .some identity.blockIndices) {w : EnsWorld χ}
    (hanswer : ∀ status error code retryable,
      (serve ens config (.update body) w).1 ≠ .failed status error code retryable) :
    Identifies resolves (serve ens config (.update body) w).2.chain body.ensName identity := by
  have hhandle : Leaving (fun answer w => (∀ status error code retryable, answer ≠ .failed status error code retryable) →
      Identifies resolves w.chain body.ensName identity) (handle ens config (.update body)) := by
    simp only [handle]
    split
    · exact Ensures.ret (fun _ => trivial) fun _ _ hne => absurd rfl (hne _ _ _ _)
    · refine Ensures.bind (fun _ _ => trivial) (updateHost_identifies hstores hhost haccount hblocks) ?_
      intro txHashes
      exact Ensures.ret (fun _ => trivial) fun _ hw _ => hw
  unfold serve at hanswer ⊢
  cases hr : handle ens config (.update body) w with
  | error message w' =>
    rw [hr] at hanswer
    exact absurd rfl (hanswer _ _ _ _)
  | ok answer w' =>
    rw [hr] at hanswer
    exact (Ensures.ok hhandle trivial hr).2 hanswer

variable (config) in
/-- After a provision of a host with an account and a range. -/
theorem serve_provision_identifies (hstores : Stores ens resolves) (body : ProvisionBody) (identity : Identity)
    (hhost : body.hostId = identity.hostId) (haccount : body.hederaAccountId = .some identity.hederaAccountId)
    (hblocks : body.blockIndices = .some identity.blockIndices) {w : EnsWorld χ} {ensName : String}
    {txHashes : List String} {updated : Bool}
    (hanswer : (serve ens config (.provision body) w).1 = .provisioned ensName txHashes updated) :
    identity.hostId ≠ "" ∧ Identifies resolves (serve ens config (.provision body) w).2.chain ensName identity := by
  have hrecord : body.record.identity = identity := by
    simp [BlitzwingHostRecord.identity, ProvisionBody.record, hhost, haccount, hblocks]
  have hhandle : Leaving (fun answer w => ∀ ensName txHashes updated, answer = .provisioned ensName txHashes updated →
      identity.hostId ≠ "" ∧ Identifies resolves w.chain ensName identity) (handle ens config (.provision body)) := by
    simp only [handle]
    split
    · exact Ensures.ret (fun _ => trivial) fun _ _ _ _ _ h => by cases h
    · next hne =>
      rw [hhost] at hne
      refine ensures_bind_any fun mapped => ?_
      cases truthy mapped with
      | some existing =>
        refine Ensures.bind (fun _ _ => trivial) (updateHost_identifies hstores (congrArg some hhost) haccount hblocks) ?_
        intro txHashes
        refine Ensures.ret (fun _ => trivial) ?_
        intro w hw _ _ _ h
        cases h
        exact ⟨hne, hw⟩
      | none =>
        refine Ensures.bind (fun _ _ => trivial) (provisionHost_identifies hstores body) ?_
        intro r
        refine Ensures.ret (fun _ => trivial) ?_
        intro w hw _ _ _ h
        cases h
        exact ⟨hne, hrecord ▸ hw⟩
  unfold serve at hanswer ⊢
  cases hr : handle ens config (.provision body) w with
  | error message w' =>
    rw [hr] at hanswer
    cases hanswer
  | ok answer w' =>
    rw [hr] at hanswer
    exact (Ensures.ok hhandle trivial hr).2 _ _ _ hanswer

theorem ensures_getTextRecord (hstores : Stores ens resolves) (name : String) (identity : Identity) (key : String) :
    Ensures (fun w => Identifies resolves w.chain name identity) (fun _ _ => True)
      (fun v w => (∃ c, v = resolves c name key ∧ Identifies resolves c name identity) ∧
        Identifies resolves w.chain name identity) (onChain (ens.getTextRecord name key)) := by
  refine ensures_chain (I := fun c => Identifies resolves c name identity)
    (J := fun v c => (∃ c, v = resolves c name key ∧ Identifies resolves c name identity) ∧
      Identifies resolves c name identity) ?_
  intro c hc
  cases hr : ens.getTextRecord name key c with
  | error e c' => trivial
  | ok v c' =>
    obtain ⟨hsame, hv⟩ := Ensures.ok (hstores.getTextRecord name key) trivial hr
    have hc' : Identifies resolves c' name identity := ⟨(hsame _ _).trans hc.hostId,
      (hsame _ _).trans hc.hederaAccountId, (hsame _ _).trans hc.blockIndices, hc.account_ne, hc.blocks_ne⟩
    exact ⟨trivial, ⟨c', hv, hc'⟩, hc'⟩

variable (config) in
/-- **What was written is what is resolved.** -/
theorem resolveHostRecord_identifies (hstores : Stores ens resolves) {name : String} (identity : Identity)
    (hhost : identity.hostId ≠ "") : Ensures (fun w => Identifies resolves w.chain name identity) (fun _ _ => True)
      (fun r _ => ∃ record, r = .some record ∧ record.identity = identity)
      (resolveHostRecord ens config name) := by
  have hread := ensures_getTextRecord hstores name identity
  unfold resolveHostRecord
  refine Ensures.bind (fun _ _ => trivial) (hread recordKeys.hostId) fun hostId => Ensures.of_pure fun hid => ?_
  refine Ensures.bind (fun _ _ => trivial) (hread recordKeys.hederaAccountId) fun hedera => Ensures.of_pure fun ha => ?_
  refine Ensures.bind (fun _ _ => trivial) (hread recordKeys.blockIndices) fun blocks => Ensures.of_pure fun hb => ?_
  iterate 4 refine Ensures.bind (fun _ _ => trivial) (hread _) fun _ => Ensures.of_pure fun _ => ?_
  obtain ⟨_, rfl, hid⟩ := hid
  obtain ⟨_, rfl, ha⟩ := ha
  obtain ⟨_, rfl, hb⟩ := hb
  rw [hid.hostId, ha.hederaAccountId, hb.blockIndices, truthy_of_ne hhost, truthy_of_ne ha.account_ne,
    truthy_of_ne hb.blocks_ne]
  exact Ensures.ret (fun _ => trivial) fun _ _ => ⟨_, rfl, rfl⟩

end Blitzwing.Ens
