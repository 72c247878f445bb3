/-
Whose name a host has, and whose records a call changes.

A host's name has the first eight digits of its id, so two hosts have one name
exactly where these agree (`hostIdToEnsName_eq_iff`), and the second of them
takes the first one's records over (`shared_name_redirects`). Of hosts whose
digits differ no call changes the other's records (`calls_keep_apart`): the
mapping file has of every host its own name, and of every host's name the chain
has no other host's id (`Own`), so a call reads and writes under one label.

What the ENS library does to other names than the one it is called for is a
hypothesis (`Isolates`).
-/
import Blitzwing.EnsService
import Blitzwing.RegistryFacts
import Blitzwing.Lib.Machine

namespace Blitzwing.Ens

/-! ## Names -/

/-- `mother`, or `host-` and twelve digits of a `uuid4().hex`. -/
def RegistryId (id : String) : Prop :=
  id = "mother" ∨ ∃ hex : List Char, hex.length = 12 ∧ (∀ c ∈ hex, c ∈ "0123456789abcdef".toList) ∧
    id = .ofList ("host-".toList ++ hex)

theorem isHexDigit_of_mem {c : Char} (h : c ∈ "0123456789abcdef".toList) : isHexDigit c = true := by
  have hall : "0123456789abcdef".toList.all isHexDigit = true := by decide
  exact List.all_eq_true.1 hall c h

/-- The label of a host: all of `mother`, or `host-` and eight digits. -/
theorem hostIdToLabel_of_registryId {id : String} (h : RegistryId id) :
    hostIdToLabel id = .ok (.ofList (id.toList.take 13)) := by
  obtain rfl | ⟨hex, hlength, hhex, rfl⟩ := h
  · rfl
  · have hne : String.ofList ("host-".toList ++ hex) ≠ "mother" := by
      intro h
      have := congrArg String.toList h
      simp at this
    have hdigits : hostDigits (.ofList ("host-".toList ++ hex)) = .some hex := by
      have hnil : hex ≠ [] := by
        intro h
        simp [h] at hlength
      have hall : hex.all isHexDigit = true := List.all_eq_true.2 fun c hc => isHexDigit_of_mem (hhex c hc)
      simp [hostDigits, hnil, hall]
    simp only [hostIdToLabel, if_neg hne, hdigits]
    simp

theorem subname_inj {label label' parentName : String} :
    subname label parentName = subname label' parentName ↔ label = label' := by
  constructor
  · intro h
    have hlists := congrArg String.toList h
    simp only [subname, String.toList_ofList, List.append_cancel_right_eq] at hlists
    exact String.toList_injective hlists
  · intro h
    rw [h]

theorem hostIdToEnsName_of_label {id label parentName : String} (h : hostIdToLabel id = .ok label) :
    hostIdToEnsName id parentName = .ok (subname label parentName) := by
  simp [hostIdToEnsName, h]

/-- **Two hosts have one name** exactly where their ids begin alike. -/
theorem hostIdToEnsName_eq_iff {a b : String} (ha : RegistryId a) (hb : RegistryId b) (parentName : String) :
    hostIdToEnsName a parentName = hostIdToEnsName b parentName ↔ a.toList.take 13 = b.toList.take 13 := by
  rw [hostIdToEnsName_of_label (hostIdToLabel_of_registryId ha), hostIdToEnsName_of_label (hostIdToLabel_of_registryId hb),
    Except.ok.injEq, subname_inj, String.ofList_inj]

/-! ## What the ENS library leaves alone -/

variable {χ : Type} {ens : EnsChain χ} {config : EnsConfig} {resolves : χ → String → String → Option String}
  {label : String}

/-- Every subname resolves as before. -/
def Same (parentName : String) (resolves : χ → String → String → Option String) (c c' : χ) : Prop :=
  ∀ label key, resolves c' (subname label parentName) key = resolves c (subname label parentName) key

/-- What the library does to the names under the parent. A read finds what the
name resolves to and changes nothing. A transaction changes no other name than
the one it is for, and of that one, mined or not, what it writes; a new name has
no records, or those it had. To give the parent a resolver changes nothing
where it has none of its own (`unset`), nor to give it a registry where it has
none (`bare`). -/
structure Isolates (ens : EnsChain χ) (config : EnsConfig) (resolves : χ → String → String → Option String)
    (unset bare : χ → Prop) : Prop where
  getTextRecord : ∀ label key, Ensures (fun _ => True) (Same config.parentName resolves)
    (fun v c => v = resolves c (subname label config.parentName) key)
    (ens.getTextRecord (subname label config.parentName) key)
  getResolver : ∀ name, Ensures (fun _ => True) (Same config.parentName resolves)
    (fun v c => (∀ existing, truthy v = .some existing → existing.toLower = permissionedResolverImpl) → unset c)
    (ens.getResolver name)
  deployResolver : Ensures unset (Same config.parentName resolves) (fun _ => unset) ens.deployResolver
  grantResolverRoles : ∀ resolver, Ensures unset (Same config.parentName resolves) (fun _ => unset)
    (ens.grantResolverRoles resolver)
  setResolver : ∀ label resolver, Ensures unset (Same config.parentName resolves) (fun _ _ => True)
    (ens.setResolver label resolver)
  getNameRegistryAddress : ∀ label, Ensures (fun _ => True) (Same config.parentName resolves)
    (fun v c => (truthy v).filter (· ≠ zeroAddress) = .none → bare c) (ens.getNameRegistryAddress label)
  deploySubregistry : Ensures bare (Same config.parentName resolves) (fun _ => bare) ens.deploySubregistry
  setSubregistry : ∀ label registry, Ensures bare (Same config.parentName resolves) (fun _ _ => True)
    (ens.setSubregistry label registry)
  createSubnameV2 : ∀ registry label resolver, Ensures (fun _ => True)
    (fun c c' => ∀ l key, resolves c' (subname l config.parentName) key = resolves c (subname l config.parentName) key ∨
      l = label ∧ resolves c' (subname l config.parentName) key = .none)
    (fun _ _ => True) (ens.createSubnameV2 registry label resolver)
  setRecords : ∀ label resolver texts, Ensures (fun _ => True)
    (fun c c' => ∀ l key, resolves c' (subname l config.parentName) key = resolves c (subname l config.parentName) key ∨
      l = label ∧ ∃ v, (key, v) ∈ texts ∧ resolves c' (subname l config.parentName) key = .some v)
    (fun _ _ => True) (ens.setRecords (subname label config.parentName) resolver texts)

/-! ## Every host has its own -/

/-- The mapping file has of each host the name made from its id, and the id a
host's name has on the chain is one that the name is made from. -/
structure Own (config : EnsConfig) (resolves : χ → String → String → Option String) (w : EnsWorld χ) : Prop where
  mapped : ∀ hostId ensName, w.hostMappings.get? hostId = .some ensName →
    hostIdToEnsName hostId config.parentName = .ok ensName
  recorded : ∀ id hostId label, RegistryId id → hostIdToLabel id = .ok label →
    resolves w.chain (subname label config.parentName) recordKeys.hostId = .some hostId → hostId ≠ "" →
      hostIdToLabel hostId = .ok label

/-- Everything stays its host's own, and no other label's name changes. -/
def Leaves (config : EnsConfig) (resolves : χ → String → String → Option String) (label : String)
    (w w' : EnsWorld χ) : Prop :=
  (Own config resolves w → Own config resolves w') ∧ ∀ l ≠ label, ∀ key,
    resolves w'.chain (subname l config.parentName) key = resolves w.chain (subname l config.parentName) key

theorem Leaves.refl (w : EnsWorld χ) : Leaves config resolves label w w := ⟨id, fun _ _ _ => rfl⟩

theorem Leaves.trans {w w' w'' : EnsWorld χ} (h : Leaves config resolves label w w')
    (h' : Leaves config resolves label w' w'') : Leaves config resolves label w w'' :=
  ⟨fun ho => h'.1 (h.1 ho), fun l hl key => (h'.2 l hl key).trans (h.2 l hl key)⟩

/-- A computation for one label: everything stays its host's own. -/
def Safe {α : Type} (config : EnsConfig) (resolves : χ → String → String → Option String) (label : String)
    (P : α → Prop) (x : EnsM χ α) : Prop :=
  Ensures (Own config resolves) (Leaves config resolves label) (fun a w => Own config resolves w ∧ P a) x

namespace Safe

variable {α β : Type} {P : α → Prop} {Q : β → Prop}

theorem ret {a : α} (h : P a) : Safe config resolves label P (pure a : EnsM χ α) :=
  Ensures.ret Leaves.refl fun _ ho => ⟨ho, h⟩

theorem throw (e : String) : Safe config resolves label P (throw e : EnsM χ α) := Ensures.throw Leaves.refl e

theorem bind {x : EnsM χ α} {f : α → EnsM χ β} (hx : Safe config resolves label P x)
    (hf : ∀ a, P a → Safe config resolves label Q (f a)) : Safe config resolves label Q (x >>= f) := by
  refine Ensures.bind Leaves.trans hx ?_
  intro a w hw
  exact hf a hw.2 w hw.1

theorem ofExcept {x : Except String α} (h : ∀ a, x = .ok a → P a) : Safe config resolves label P (ofExcept x) := by
  cases x with
  | ok a => exact ret (h a rfl)
  | error e => exact throw e

theorem imp {P' : α → Prop} {x : EnsM χ α} (h : Safe config resolves label P x) (himp : ∀ a, P a → P' a) :
    Safe config resolves label P' x :=
  Ensures.imp h (fun _ ho => ho) fun a _ hw => ⟨hw.1, himp a hw.2⟩

/-- What holds of the world the computation starts in. -/
theorem get {f : EnsWorld χ → EnsM χ β}
    (h : ∀ w, Own config resolves w → Safe config resolves label Q (f w)) :
    Safe config resolves label Q (get >>= f) := by
  refine Ensures.bind Leaves.trans (Ensures.get (J := fun a w => a = w ∧ Own config resolves w) Leaves.refl
    fun w ho => ⟨rfl, ho⟩) ?_
  intro w w' hw
  exact h w (hw.1 ▸ hw.2) w' hw.2

end Safe

/-- A step on the chain. -/
theorem ensures_onChain {α : Type} {x : EStateM String χ α} {C : χ → Prop} {S : χ → χ → Prop} {J : α → χ → Prop}
    (h : Ensures C S J x)
    (hS : ∀ {w : EnsWorld χ} {c}, S w.chain c → Leaves config resolves label w { w with chain := c }) :
    Ensures (fun w => Own config resolves w ∧ C w.chain) (Leaves config resolves label)
      (fun a w => Own config resolves w ∧ J a w.chain) (onChain x) := by
  intro w hw
  have hx := h w.chain hw.2
  unfold onChain
  cases hr : x w.chain with
  | error e c =>
    rw [hr] at hx
    exact hS hx
  | ok a c =>
    rw [hr] at hx
    exact ⟨hS hx.1, (hS hx.1).1 hw.1, hx.2⟩

theorem leaves_of_same {w : EnsWorld χ} {c : χ} (h : Same config.parentName resolves w.chain c) :
    Leaves config resolves label w { w with chain := c } := by
  refine ⟨fun ho => ⟨ho.mapped, ?_⟩, fun l _ key => h l key⟩
  intro id hostId l hid hl hrecord
  rw [h] at hrecord
  exact ho.recorded id hostId l hid hl hrecord

/-- A step that changes no name. -/
theorem ensures_of_same {α : Type} {x : EStateM String χ α} {C : χ → Prop} {J : α → χ → Prop}
    (h : Ensures C (Same config.parentName resolves) J x) :
    Ensures (fun w => Own config resolves w ∧ C w.chain) (Leaves config resolves label)
      (fun a w => Own config resolves w ∧ J a w.chain) (onChain x) :=
  ensures_onChain h leaves_of_same

theorem safe_saved (payload : ParentState) (address : String) : Safe config resolves label (fun _ => True) (do
    saveParentBootstrap payload
    return address : EnsM χ String) := by
  refine Safe.bind (P := fun _ => True) ?_ fun _ _ => Safe.ret trivial
  refine Ensures.modify fun _ ho => ?_
  exact ⟨⟨fun ho => ⟨ho.mapped, ho.recorded⟩, fun _ _ _ => rfl⟩, ⟨ho.mapped, ho.recorded⟩, trivial⟩

theorem ensures_requireOperatorKey {I : EnsWorld χ → Prop} :
    Ensures I (Leaves config resolves label) (fun _ => I) (requireOperatorKey config : EnsM χ Unit) := by
  unfold requireOperatorKey
  split
  · exact Ensures.throw Leaves.refl _
  · exact Ensures.ret Leaves.refl fun _ hI => hI

theorem safe_requireOperatorKey :
    Safe config resolves label (fun _ => True) (requireOperatorKey config : EnsM χ Unit) :=
  Ensures.imp ensures_requireOperatorKey (fun _ ho => ho) fun _ _ ho => ⟨ho, trivial⟩

theorem safe_saveHostMapping {hostId : String} (h : hostIdToLabel hostId = .ok label) :
    Safe config resolves label (fun _ => True)
      (saveHostMapping hostId (subname label config.parentName) : EnsM χ Unit) := by
  refine Ensures.modify fun w ho => ?_
  have hown : Own config resolves w → Own config resolves { w with
      hostMappings := w.hostMappings.set hostId (subname label config.parentName) } := by
    intro ho
    refine ⟨?_, ho.recorded⟩
    intro hostId' ensName hget
    simp only at hget
    rw [Dict.get?_set] at hget
    split at hget
    · next heq =>
      rw [heq, ← Option.some.inj hget]
      exact hostIdToEnsName_of_label h
    · exact ho.mapped hostId' ensName hget
  exact ⟨⟨hown, fun _ _ _ => rfl⟩, hown ho, trivial⟩

section

variable {unset bare : χ → Prop} (hens : Isolates ens config resolves unset bare)
include hens

/-- The parent gets a resolver where it has none. -/
theorem ensures_install (parent : Option ParentState) :
    Ensures (fun w => Own config resolves w ∧ unset w.chain) (Leaves config resolves label)
      (fun _ w => Own config resolves w ∧ True) (ensureOperatorResolver.install ens config parent) := by
  unfold ensureOperatorResolver.install
  refine Ensures.bind Leaves.trans ensures_requireOperatorKey ?_
  intro _
  refine Ensures.bind Leaves.trans (ensures_of_same hens.deployResolver) ?_
  intro resolver
  refine Ensures.bind Leaves.trans (ensures_of_same (hens.grantResolverRoles resolver)) ?_
  intro _
  refine Ensures.bind Leaves.trans (ensures_of_same (hens.setResolver _ resolver)) ?_
  intro _
  exact Ensures.imp (safe_saved _ resolver) (fun _ hw => hw.1) fun _ _ hw => hw

theorem safe_ensureOperatorResolver :
    Safe config resolves label (fun _ => True) (ensureOperatorResolver ens config) := by
  unfold ensureOperatorResolver
  refine Safe.get ?_
  intro w _
  simp only
  cases truthy (w.parent.bind (·.resolverAddress)) with
  | some resolver => exact Safe.ret trivial
  | none =>
    have hread := @ensures_of_same _ config resolves label _ _ _ _ (hens.getResolver config.parentName)
    refine Ensures.bind Leaves.trans (Ensures.imp hread (fun _ ho => ⟨ho, trivial⟩) fun _ _ hw => hw) ?_
    intro v
    cases htruthy : truthy v with
    | none =>
      refine Ensures.imp (ensures_install hens w.parent) ?_ fun _ _ hw => hw
      intro w' hw
      exact ⟨hw.1, hw.2 (by simp)⟩
    | some existing =>
      simp only
      split
      · exact Ensures.imp (safe_saved _ existing) (fun _ hw => hw.1) fun _ _ hw => hw
      · next himpl =>
        refine Ensures.imp (ensures_install hens w.parent) ?_ fun _ _ hw => hw
        intro w' hw
        refine ⟨hw.1, hw.2 ?_⟩
        intro existing' hexisting'
        obtain rfl := Option.some.inj hexisting'
        exact not_not.1 himpl

theorem safe_ensureParentUserRegistry :
    Safe config resolves label (fun _ => True) (ensureParentUserRegistry ens config) := by
  unfold ensureParentUserRegistry
  refine Safe.get ?_
  intro w _
  simp only
  cases (truthy (w.parent.bind (·.userRegistryAddress))).filter (· ≠ zeroAddress) with
  | some registry => exact Safe.ret trivial
  | none =>
    have hread := @ensures_of_same _ config resolves label _ _ _ _ (hens.getNameRegistryAddress (parentLabel config))
    refine Ensures.bind Leaves.trans (Ensures.imp hread (fun _ ho => ⟨ho, trivial⟩) fun _ _ hw => hw) ?_
    intro v
    cases (truthy v).filter (· ≠ zeroAddress) with
    | some existing => exact Ensures.imp (safe_saved _ existing) (fun _ hw => hw.1) fun _ _ hw => hw
    | none =>
      have hkey : Ensures (fun w => Own config resolves w ∧ bare w.chain) (Leaves config resolves label)
          (fun _ w => Own config resolves w ∧ bare w.chain) (requireOperatorKey config) := ensures_requireOperatorKey
      refine Ensures.bind Leaves.trans (Ensures.imp hkey (fun _ hw => ⟨hw.1, hw.2 rfl⟩) fun _ _ hw => hw) ?_
      intro _
      refine Ensures.bind Leaves.trans (ensures_of_same hens.deploySubregistry) ?_
      intro proxy
      refine Ensures.bind Leaves.trans (ensures_of_same (hens.setSubregistry _ proxy)) ?_
      intro _
      exact Ensures.imp (safe_saved _ proxy) (fun _ hw => hw.1) fun _ _ hw => hw

/-- A record of the label's host is written under its name. -/
theorem safe_setRecords {record : BlitzwingHostRecord} {texts : List (String × String)} (resolver : String)
    (h : hostIdToLabel record.hostId = .ok label) (htexts : recordToTexts config.numbers record = .ok texts) :
    Safe config resolves label (fun _ => True)
      (onChain (ens.setRecords (subname label config.parentName) resolver texts)) := by
  have hkey : ∀ v, (recordKeys.hostId, v) ∈ texts → v = record.hostId := by
    intro v hv
    unfold recordToTexts at htexts
    obtain ⟨_, -, htexts⟩ := bind_eq_ok.1 htexts
    obtain ⟨_, -, htexts⟩ := bind_eq_ok.1 htexts
    obtain rfl := Except.ok.inj htexts
    simpa [recordKeys] using hv
  have hwrite := @ensures_onChain _ config resolves label _ _ _ _ _ (hens.setRecords label resolver texts) ?_
  · exact Ensures.imp hwrite (fun _ ho => ⟨ho, trivial⟩) fun _ _ hw => hw
  · intro w c hc
    refine ⟨fun ho => ⟨ho.mapped, ?_⟩, ?_⟩
    · intro id' hostId l hid' hl hrecord hne
      obtain hsame | ⟨rfl, v, hv, hwritten⟩ := hc l recordKeys.hostId
      · exact ho.recorded id' hostId l hid' hl (hsame ▸ hrecord) hne
      · obtain rfl := Option.some.inj (hwritten.symm.trans hrecord)
        rw [hkey _ hv]
        exact h
    · intro l hl key
      obtain hsame | ⟨heq, -⟩ := hc l key
      · exact hsame
      · exact absurd heq hl

theorem safe_createSubnameV2 (registry resolver : String) : Safe config resolves label (fun _ => True)
    (onChain (ens.createSubnameV2 registry label resolver)) := by
  have hcreate := @ensures_onChain _ config resolves label _ _ _ _ _
    (hens.createSubnameV2 registry label resolver) ?_
  · exact Ensures.imp hcreate (fun _ ho => ⟨ho, trivial⟩) fun _ _ hw => hw
  · intro w c hc
    refine ⟨fun ho => ⟨ho.mapped, ?_⟩, ?_⟩
    · intro id' hostId l hid' hl hrecord hne
      obtain hsame | ⟨rfl, hnone⟩ := hc l recordKeys.hostId
      · exact ho.recorded id' hostId l hid' hl (hsame ▸ hrecord) hne
      · simp [hnone] at hrecord
    · intro l hl key
      obtain hsame | ⟨heq, -⟩ := hc l key
      · exact hsame
      · exact absurd heq hl

/-! ## The calls -/

variable {id : String} (hid : RegistryId id) (hlabel : hostIdToLabel id = .ok label)
include hid hlabel

/-- The id that is read from a host's name is one the name is made from. -/
theorem safe_getTextRecord (key : String) :
    Safe config resolves label
      (fun v => key = recordKeys.hostId → ∀ hostId, truthy v = .some hostId → hostIdToLabel hostId = .ok label)
      (onChain (ens.getTextRecord (subname label config.parentName) key)) := by
  have hread := @ensures_of_same _ config resolves label _ _ _ _ (hens.getTextRecord label key)
  refine Ensures.imp hread (fun _ ho => ⟨ho, trivial⟩) ?_
  intro v w hw
  refine ⟨hw.1, ?_⟩
  intro hkey hostId htruthy
  obtain ⟨ho, hv⟩ := hw
  rw [hkey] at hv
  exact ho.recorded id hostId label hid hlabel (hv ▸ truthy_eq_some htruthy) (truthy_ne_empty htruthy)

theorem safe_subnameExists :
    Safe config resolves label (fun _ => True) (subnameExists ens (subname label config.parentName)) := by
  have hread := safe_getTextRecord hens hid hlabel recordKeys.hostId
  intro w ho
  unfold subnameExists
  cases hr : onChain (ens.getTextRecord (subname label config.parentName) recordKeys.hostId) w with
  | ok v w' =>
    have hw := Ensures.ok hread ho hr
    exact ⟨hw.1, hw.2.1, trivial⟩
  | error e w' =>
    have hw := Ensures.error hread ho hr
    exact ⟨hw, hw.1 ho, trivial⟩

theorem safe_resolveHostRecord :
    Safe config resolves label (fun r => ∀ record, r = .some record → hostIdToLabel record.hostId = .ok label)
      (resolveHostRecord ens config (subname label config.parentName)) := by
  unfold resolveHostRecord
  refine Safe.bind (safe_getTextRecord hens hid hlabel _) ?_
  intro hostId hhostId
  iterate 6 refine Safe.bind (safe_getTextRecord hens hid hlabel _) fun _ _ => ?_
  cases hread : truthy hostId with
  | none => exact Safe.ret (by simp)
  | some hostId' =>
    split
    · next h1 h2 h3 =>
      refine Safe.ret ?_
      intro record hrecord
      obtain rfl := Option.some.inj hrecord
      obtain rfl := Option.some.inj h1
      exact hhostId rfl _ hread
    · exact Safe.ret (by simp)

theorem safe_updateHost {input : UpdateBody} (hname : input.ensName = subname label config.parentName)
    (hhost : ∀ hostId, input.hostId = .some hostId → hostIdToLabel hostId = .ok label) :
    Safe config resolves label (fun _ => True) (updateHost ens config input) := by
  unfold updateHost
  rw [hname]
  refine Safe.bind (safe_resolveHostRecord hens hid hlabel) ?_
  intro r hr
  cases r with
  | none => exact Safe.throw _
  | some current =>
    have hcurrent := hr current rfl
    have hmerged : hostIdToLabel (input.hostId.getD current.hostId) = .ok label := by
      cases h : input.hostId with
      | none => exact hcurrent
      | some hostId => exact hhost hostId h
    refine Safe.bind safe_requireOperatorKey fun _ _ => ?_
    refine Safe.bind (safe_ensureOperatorResolver hens) ?_
    intro resolver _
    refine Safe.bind (Safe.ofExcept fun texts htexts => htexts) ?_
    intro texts htexts
    refine Safe.bind (safe_setRecords hens resolver hmerged htexts) ?_
    intro hash _
    refine Safe.bind (safe_saveHostMapping hmerged) ?_
    intro _ _
    exact Safe.ret trivial

omit hens hid in
/-- The name the mapping file has of the host. -/
theorem safe_getEnsNameForHost : Safe config resolves label
    (fun v => ∀ ensName, truthy v = .some ensName → ensName = subname label config.parentName)
    (getEnsNameForHost id : EnsM χ (Option String)) := by
  unfold getEnsNameForHost
  refine Safe.get fun w ho => Safe.ret ?_
  intro ensName htruthy
  have hmapped := ho.mapped id ensName (truthy_eq_some htruthy)
  rw [hostIdToEnsName_of_label hlabel] at hmapped
  exact (Except.ok.inj hmapped).symm

omit hens hid in
theorem safe_ensNameFor : Safe config resolves label (fun ensName => ensName = subname label config.parentName)
    (ensNameFor config id : EnsM χ String) := by
  unfold ensNameFor
  refine Safe.bind (safe_getEnsNameForHost hlabel) ?_
  intro mapped hmapped
  cases hm : truthy mapped with
  | some ensName => exact Safe.ret (hmapped ensName hm)
  | none =>
    refine Safe.ofExcept ?_
    intro ensName hensName
    rw [hostIdToEnsName_of_label hlabel] at hensName
    exact (Except.ok.inj hensName).symm

theorem safe_createMissing (resolver : String) : Safe config resolves label (fun _ => True)
    (createMissing ens config (subname label config.parentName) label resolver) := by
  unfold createMissing
  refine Safe.bind (safe_subnameExists hens hid hlabel) ?_
  intro isThere _
  cases isThere with
  | true => exact Safe.ret trivial
  | false =>
    refine Safe.bind (safe_ensureParentUserRegistry hens) fun registry _ => ?_
    refine Safe.bind (safe_createSubnameV2 hens registry resolver) fun _ _ => ?_
    exact Safe.ret trivial

theorem safe_provisionHost {input : ProvisionBody} (hhost : input.hostId = id) :
    Safe config resolves label (fun r => r.1 = subname label config.parentName)
      (provisionHost ens config input) := by
  subst hhost
  unfold provisionHost
  refine Safe.bind (safe_ensNameFor hlabel) ?_
  intro ensName hensName
  subst hensName
  refine Safe.bind safe_requireOperatorKey fun _ _ => ?_
  refine Safe.bind (Safe.ofExcept fun l hl => hl) ?_
  intro l hl
  obtain rfl := Except.ok.inj (hlabel.symm.trans hl)
  refine Safe.bind (safe_ensureOperatorResolver hens) ?_
  intro resolver _
  refine Safe.bind (safe_createMissing hens hid hlabel resolver) ?_
  intro created _
  refine Safe.bind (Safe.ofExcept fun texts htexts => htexts) ?_
  intro texts htexts
  refine Safe.bind (safe_setRecords hens resolver hlabel htexts) ?_
  intro hash _
  refine Safe.bind (safe_saveHostMapping hlabel) ?_
  intro _ _
  exact Safe.ret rfl

end

/-! ## Every run of the service -/

/-- A call for a host, as the orchestrator makes it: under the host's own name,
and with no other id than the host's. -/
def CallFor (config : EnsConfig) (id : String) : EnsCall → Prop
  | .provision body => body.hostId = id
  | .update body => hostIdToEnsName id config.parentName = .ok body.ensName ∧
      ∀ hostId, body.hostId = .some hostId → hostId = id
  | .deactivate ensName => hostIdToEnsName id config.parentName = .ok ensName

section

variable {unset bare : χ → Prop} (hens : Isolates ens config resolves unset bare) {id : String} (hid : RegistryId id)
  (hlabel : hostIdToLabel id = .ok label)
include hens hid hlabel

theorem safe_handle {call : EnsCall} (hcall : CallFor config id call) : Safe config resolves label
    (fun answer => ∀ ensName txHashes updated, answer = .provisioned ensName txHashes updated →
      ensName = subname label config.parentName) (handle ens config call) := by
  have hname : ∀ ensName, hostIdToEnsName id config.parentName = .ok ensName →
      ensName = subname label config.parentName := by
    intro ensName h
    rw [hostIdToEnsName_of_label hlabel] at h
    exact (Except.ok.inj h).symm
  cases call with
  | provision body =>
    obtain rfl : body.hostId = id := hcall
    simp only [handle]
    split
    · exact Safe.ret (by simp)
    · refine Safe.bind (safe_getEnsNameForHost hlabel) ?_
      intro mapped hmapped
      cases hm : truthy mapped with
      | some existing =>
        have hexisting := hmapped existing hm
        refine Safe.bind (safe_updateHost hens hid hlabel hexisting ?_) ?_
        · intro hostId hhost
          obtain rfl := Option.some.inj hhost
          exact hlabel
        · intro txHashes _
          refine Safe.ret ?_
          intro ensName _ _ h
          obtain ⟨rfl, -, -⟩ := EnsAnswer.provisioned.inj h
          exact hexisting
      | none =>
        refine Safe.bind (safe_provisionHost hens hid hlabel rfl) ?_
        intro r hr
        refine Safe.ret ?_
        intro ensName _ _ h
        obtain ⟨rfl, -, -⟩ := EnsAnswer.provisioned.inj h
        exact hr
  | update body =>
    obtain ⟨hensName, hhost⟩ := hcall
    simp only [handle]
    split
    · exact Safe.ret (by simp)
    · refine Safe.bind (safe_updateHost hens hid hlabel (hname _ hensName) ?_) fun _ _ => Safe.ret (by simp)
      intro hostId h
      rw [hhost hostId h]
      exact hlabel
  | deactivate ensName =>
    simp only [handle]
    split
    · exact Safe.ret (by simp)
    · exact Safe.bind (safe_updateHost hens hid hlabel (hname _ hcall) (by simp)) fun _ _ => Safe.ret (by simp)

end

/-- The service, call by call. -/
def service (ens : EnsChain χ) (config : EnsConfig) : Machine (EnsWorld χ) EnsCall :=
  ⟨fun w call => .some (serve ens config call w).2⟩

section

variable {unset bare : χ → Prop} (hens : Isolates ens config resolves unset bare)
include hens

/-- What one call does, whatever it answers. -/
theorem serve_safe {id : String} (hid : RegistryId id) (hlabel : hostIdToLabel id = .ok label) {call : EnsCall}
    (hcall : CallFor config id call) {w : EnsWorld χ} (ho : Own config resolves w) :
    Leaves config resolves label w (serve ens config call w).2 ∧
      ∀ ensName txHashes updated, (serve ens config call w).1 = .provisioned ensName txHashes updated →
        ensName = subname label config.parentName := by
  have hsafe := safe_handle hens hid hlabel hcall
  unfold serve
  cases hr : handle ens config call w with
  | ok answer w' =>
    have hw := Ensures.ok hsafe ho hr
    exact ⟨hw.1, hw.2.2⟩
  | error message w' => exact ⟨Ensures.error hsafe ho hr, by simp⟩

theorem own_of_reaches {w₀ w : EnsWorld χ} (h₀ : Own config resolves w₀)
    (h : (service ens config).Reaches (fun _ call => ∃ id, RegistryId id ∧ CallFor config id call) w₀ w) :
    Own config resolves w := by
  refine h.invariant h₀ ?_
  intro w call w' ho hcall hstep
  obtain ⟨id, hid, hcall⟩ := hcall
  obtain rfl := Option.some.inj hstep
  exact (serve_safe hens hid (hostIdToLabel_of_registryId hid) hcall ho).1.1 ho

/-- **Calls keep apart.** In every run of calls for hosts of the registry, a host
is given the name made from its id, and no call for a host changes what the name
of a host resolves to whose id begins differently, nor has that host its name. -/
theorem calls_keep_apart {w₀ w : EnsWorld χ} (h₀ : Own config resolves w₀)
    (h : (service ens config).Reaches (fun _ call => ∃ id, RegistryId id ∧ CallFor config id call) w₀ w)
    {id : String} (hid : RegistryId id) {call : EnsCall} (hcall : CallFor config id call) :
    (∀ ensName txHashes updated, (serve ens config call w).1 = .provisioned ensName txHashes updated →
      hostIdToEnsName id config.parentName = .ok ensName) ∧
    ∀ id', RegistryId id' → id'.toList.take 13 ≠ id.toList.take 13 →
      hostIdToEnsName id' config.parentName ≠ hostIdToEnsName id config.parentName ∧
        ∀ ensName, hostIdToEnsName id' config.parentName = .ok ensName → ∀ key,
          resolves (serve ens config call w).2.chain ensName key = resolves w.chain ensName key := by
  have hlabel := hostIdToLabel_of_registryId hid
  obtain ⟨hleaves, hanswer⟩ := serve_safe hens hid hlabel hcall (own_of_reaches hens h₀ h)
  constructor
  · intro ensName txHashes updated hprovisioned
    rw [hostIdToEnsName_of_label hlabel, hanswer ensName txHashes updated hprovisioned]
  · intro id' hid' hbegin
    refine ⟨fun h => hbegin ((hostIdToEnsName_eq_iff hid' hid _).1 h), ?_⟩
    intro ensName hname key
    rw [hostIdToEnsName_of_label (hostIdToLabel_of_registryId hid')] at hname
    obtain rfl := Except.ok.inj hname
    refine hleaves.2 _ ?_ key
    intro heq
    exact hbegin (String.ofList_injective heq)

end

/-! ## A chain that keeps texts in a table -/

/-- The parent has a resolver and a registry. -/
def tableChain : EnsChain (Dict (String × String) String) where
  getTextRecord name key := do return (← get).get? (name, key)
  getResolver _ := return .some "0xf29100983e058b709f3d539b0c765937b804ac15"
  getNameRegistryAddress _ := return .some "0x8a791620dd6260079bf849dc5567adc3f2fdc318"
  deployResolver := throw "reverted"
  grantResolverRoles _ := throw "reverted"
  setResolver _ _ := throw "reverted"
  deploySubregistry := throw "reverted"
  setSubregistry _ _ := throw "reverted"
  createSubnameV2 _ _ _ := return "0xc0"
  setRecords name _ texts := do
    modify (texts.foldl fun d t => d.set (name, t.1) t.2)
    return "0x5e"

def decimal (s : String) : ℕ := s.toList.foldl (fun n c => 10 * n + (c.toNat - '0'.toNat)) 0

def blitzwingEth : EnsConfig where
  parentName := "blitzwing.eth"
  operatorPrivateKey := "0x0000000000000000000000000000000000000000000000000000000000000001"
  numbers := ⟨id, fun a b => decide (decimal a < decimal b)⟩

def provision (hostId hederaAccountId blockIndices : String) : EnsCall :=
  .provision { hostId, hederaAccountId := .some hederaAccountId, blockIndices := .some blockIndices }

theorem get?_setTexts (texts : List (String × String)) (name : String) (d : Dict (String × String) String)
    (n key : String) :
    (texts.foldl (fun d t => d.set (name, t.1) t.2) d).get? (n, key) = d.get? (n, key) ∨
      n = name ∧ ∃ v, (key, v) ∈ texts ∧
        (texts.foldl (fun d t => d.set (name, t.1) t.2) d).get? (n, key) = .some v := by
  induction texts generalizing d with
  | nil => exact .inl rfl
  | cons t texts ih =>
    simp only [List.foldl_cons]
    obtain hsame | ⟨hn, v, hv, hwritten⟩ := ih (d.set (name, t.1) t.2)
    · rw [hsame, Dict.get?_set]
      split
      · next heq =>
        obtain ⟨rfl, rfl⟩ := Prod.mk.inj heq
        exact .inr ⟨rfl, t.2, by simp, rfl⟩
      · exact .inl rfl
    · exact .inr ⟨hn, v, by simp [hv], hwritten⟩

theorem get?_setTexts_of_mem {texts : List (String × String)} (hnodup : (texts.map Prod.fst).Nodup) {key v : String}
    (h : (key, v) ∈ texts) (name : String) (d : Dict (String × String) String) :
    (texts.foldl (fun d t => d.set (name, t.1) t.2) d).get? (name, key) = .some v := by
  induction texts generalizing d with
  | nil => simp at h
  | cons t texts ih =>
    rw [List.map_cons, List.nodup_cons] at hnodup
    rw [List.foldl_cons]
    obtain rfl | h := List.mem_cons.1 h
    · obtain hsame | ⟨-, v', hmem, -⟩ := get?_setTexts texts name (d.set (name, key) v) name key
      · rw [hsame, Dict.get?_set, if_pos rfl]
      · exact absurd (List.mem_map.2 ⟨_, hmem, rfl⟩) hnodup.1
    · exact ih hnodup.2 h _

theorem isolates_tableChain : Isolates tableChain blitzwingEth (fun c name key => c.get? (name, key))
    (fun _ => False) (fun _ => False) where
  getTextRecord label key := fun c _ => ⟨fun _ _ => rfl, rfl⟩
  getResolver name := by
    intro c _
    refine ⟨fun _ _ => rfl, ?_⟩
    intro h
    have himpl := h _ rfl
    exact absurd himpl (by decide +kernel)
  deployResolver := fun c h => h.elim
  grantResolverRoles _ := fun c h => h.elim
  setResolver _ _ := fun c h => h.elim
  getNameRegistryAddress label := by
    intro c _
    refine ⟨fun _ _ => rfl, ?_⟩
    intro h
    exact absurd h (by decide +kernel)
  deploySubregistry := fun c h => h.elim
  setSubregistry _ _ := fun c h => h.elim
  createSubnameV2 _ _ _ := fun c _ => ⟨fun _ _ => .inl rfl, trivial⟩
  setRecords label resolver texts := by
    intro c _
    refine ⟨?_, trivial⟩
    intro l key
    obtain hsame | ⟨hn, v, hv, hwritten⟩ := get?_setTexts texts (subname label "blitzwing.eth") c
      (subname l "blitzwing.eth") key
    · exact .inl hsame
    · exact .inr ⟨subname_inj.1 hn, v, hv, hwritten⟩

/-- Nothing is there yet. -/
def freshWorld : EnsWorld (Dict (String × String) String) := { chain := .empty }

theorem own_freshWorld : Own blitzwingEth (fun c name key => c.get? (name, key)) freshWorld := by
  constructor
  · intro hostId ensName h
    simp [freshWorld] at h
  · intro id hostId label _ _ h
    simp [freshWorld] at h

theorem registryId_of_digits {id : String} (hex : String) (hlength : hex.toList.length = 12)
    (hhex : hex.toList.all ("0123456789abcdef".toList.contains ·) = true)
    (hid : id = .ofList ("host-".toList ++ hex.toList)) : RegistryId id :=
  .inr ⟨hex.toList, hlength, fun c hc => by simpa using List.all_eq_true.1 hhex c hc, hid⟩

theorem registryId_first : RegistryId "host-0123456789ab" :=
  registryId_of_digits "0123456789ab" (by decide) (by decide) (by decide)

theorem registryId_second : RegistryId "host-01234567cdef" :=
  registryId_of_digits "01234567cdef" (by decide) (by decide) (by decide)

theorem registryId_third : RegistryId "host-fedcba987654" :=
  registryId_of_digits "fedcba987654" (by decide) (by decide) (by decide)

/-- After the first host's provision. -/
def firstWorld : EnsWorld (Dict (String × String) String) :=
  (serve tableChain blitzwingEth (provision "host-0123456789ab" "0.0.1" "0:8") freshWorld).2

theorem reaches_firstWorld : (service tableChain blitzwingEth).Reaches
    (fun _ call => ∃ id, RegistryId id ∧ CallFor blitzwingEth id call) freshWorld firstWorld :=
  .step .refl (a := provision "host-0123456789ab" "0.0.1" "0:8") ⟨_, registryId_first, rfl⟩ rfl

/-- The second host gets the first one's name, and its account is there now. -/
theorem shared_name_redirects : RegistryId "host-0123456789ab" ∧ RegistryId "host-01234567cdef" ∧
    (serve tableChain blitzwingEth (provision "host-0123456789ab" "0.0.1" "0:8") freshWorld).1 =
      .provisioned "host-01234567.blitzwing.eth" ["0xc0", "0x5e"] false ∧
    firstWorld.chain.get? ("host-01234567.blitzwing.eth", recordKeys.hederaAccountId) = .some "0.0.1" ∧
    (serve tableChain blitzwingEth (provision "host-01234567cdef" "0.0.2" "8:12") firstWorld).1 =
      .provisioned "host-01234567.blitzwing.eth" ["0x5e"] false ∧
    (serve tableChain blitzwingEth (provision "host-01234567cdef" "0.0.2" "8:12") firstWorld).2.chain.get?
      ("host-01234567.blitzwing.eth", recordKeys.hederaAccountId) = .some "0.0.2" :=
  ⟨registryId_first, registryId_second, by decide +kernel, by decide +kernel, by decide +kernel, by decide +kernel⟩

theorem calls_keep_apart_third :
    hostIdToEnsName "host-0123456789ab" "blitzwing.eth" ≠ hostIdToEnsName "host-fedcba987654" "blitzwing.eth" ∧
      (serve tableChain blitzwingEth (provision "host-fedcba987654" "0.0.3" "8:12") firstWorld).2.chain.get?
        ("host-01234567.blitzwing.eth", recordKeys.hederaAccountId) =
          firstWorld.chain.get? ("host-01234567.blitzwing.eth", recordKeys.hederaAccountId) := by
  have hcall : CallFor blitzwingEth "host-fedcba987654" (provision "host-fedcba987654" "0.0.3" "8:12") := rfl
  obtain ⟨-, hothers⟩ := calls_keep_apart isolates_tableChain own_freshWorld reaches_firstWorld registryId_third hcall
  obtain ⟨hname, hrecords⟩ := hothers _ registryId_first (by decide)
  exact ⟨hname, hrecords _ (by decide) _⟩

end Blitzwing.Ens
