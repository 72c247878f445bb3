/-
`packages/ens-service`: the hosts' names and their text records.

`records.ts` makes a host's name and its texts, `state.ts` keeps which name a
host was given, `client.ts` writes to the chain, and `server.ts` answers three
calls with it. The ENS library and the chain are an argument (`EnsChain`), each
transaction with the wait for it; so are JavaScript's readings of a number.
Fields are of the types their senders give them; of the state files only what
is read of them is here, and they can be written.
-/
import Blitzwing.Registry
import Blitzwing.Lib.Ensures
import Blitzwing.Lib.Raise

namespace Blitzwing.Ens

/-! ## `records.ts` -/

structure RecordKeys where
  hostId : String := "com.blitzwing.hostId"
  hederaAccountId : String := "com.blitzwing.hederaAccountId"
  blockIndices : String := "com.blitzwing.blockIndices"
  layersHosted : String := "com.blitzwing.layersHosted"
  model : String := "com.blitzwing.model"
  role : String := "com.blitzwing.role"
  status : String := "com.blitzwing.status"

def recordKeys : RecordKeys := {}

/-- `layersHosted` as JavaScript prints it. -/
structure BlitzwingHostRecord where
  hostId : String
  hederaAccountId : String
  blockIndices : String
  layersHosted : String
  model : String
  role : String
  status : String
deriving DecidableEq, Repr

/-- How JavaScript reads a number. -/
structure Numbers where
  /-- `String(Number(s))` -/
  text : String → String
  /-- `Number(a) < Number(b)` -/
  lt : String → String → Bool

/-- What `trim` removes. -/
def isTrimmed (c : Char) : Bool :=
  (9 ≤ c.toNat && c.toNat ≤ 13) || (0x2000 ≤ c.toNat && c.toNat ≤ 0x200a) ||
    [0x20, 0xa0, 0x1680, 0x2028, 0x2029, 0x202f, 0x205f, 0x3000, 0xfeff].contains c.toNat

def trim (s : String) : List Char := PyText.stripBy isTrimmed s.toList

/-- `\d+` -/
def isDecimal (cs : List Char) : Bool := !cs.isEmpty && cs.all Char.isDigit

def validateHederaAccountId (value : String) : Except String String :=
  match trim value with
  | '0' :: '.' :: '0' :: '.' :: num =>
    if isDecimal num then .ok (.ofList (trim value)) else .error s!"Invalid hederaAccountId: {value}"
  | _ => .error s!"Invalid hederaAccountId: {value}"

def validateBlockIndices (numbers : Numbers) (value : String) : Except String String :=
  let v := trim value
  match v.splitOn ':' with
  | [a, b] =>
    if isDecimal a && isDecimal b then
      if numbers.lt (.ofList a) (.ofList b) then .ok (.ofList v)
      else
        let text := String.ofList v
        .error s!"blockIndices start must be < end: {text}"
    else .error s!"Invalid blockIndices: {value}"
  | _ => .error s!"Invalid blockIndices: {value}"

/-- `[a-f0-9]`, in either case. -/
def isHexDigit (c : Char) : Bool := "0123456789abcdef".toList.contains c.toLower

/-- `/^host-([a-f0-9]+)$/i`, the digits. -/
def hostDigits (hostId : String) : Option (List Char) :=
  let digits := hostId.toList.drop 5
  if (hostId.toList.take 5).map Char.toLower = "host-".toList ∧ digits ≠ [] ∧ digits.all isHexDigit then .some digits
  else .none

def hostIdToLabel (hostId : String) : Except String String :=
  if hostId = "mother" then .ok "mother"
  else match hostDigits hostId with
    | .some digits => .ok (.ofList ("host-".toList ++ digits.take 8))
    | .none => .error s!"Invalid hostId: {hostId}"

/-- `label.parentName` -/
def subname (label parentName : String) : String := .ofList (label.toList ++ '.' :: parentName.toList)

def hostIdToEnsName (hostId parentName : String) : Except String String := do
  let label ← hostIdToLabel hostId
  return subname label parentName

def recordToTexts (numbers : Numbers) (record : BlitzwingHostRecord) : Except String (List (String × String)) := do
  let _ ← validateHederaAccountId record.hederaAccountId
  let _ ← validateBlockIndices numbers record.blockIndices
  return [(recordKeys.hostId, record.hostId), (recordKeys.hederaAccountId, record.hederaAccountId),
    (recordKeys.blockIndices, record.blockIndices), (recordKeys.layersHosted, record.layersHosted),
    (recordKeys.model, record.model), (recordKeys.role, record.role), (recordKeys.status, record.status)]

/-! ## The chain and the state files -/

/-- The ENS library, in a state `χ` of the chain. -/
structure EnsChain (χ : Type) where
  getTextRecord (name key : String) : EStateM String χ (Option String)
  getResolver (name : String) : EStateM String χ (Option String)
  getNameRegistryAddress (label : String) : EStateM String χ (Option String)
  deployResolver : EStateM String χ String
  grantResolverRoles (resolver : String) : EStateM String χ Unit
  setResolver (label resolver : String) : EStateM String χ Unit
  deploySubregistry : EStateM String χ String
  setSubregistry (label registry : String) : EStateM String χ Unit
  createSubnameV2 (registry label resolver : String) : EStateM String χ String
  setRecords (name resolver : String) (texts : List (String × String)) : EStateM String χ String

/-- `ens_parent.json` -/
structure ParentState where
  userRegistryAddress : Option String := .none
  resolverAddress : Option String := .none
deriving DecidableEq, Repr

structure EnsConfig where
  parentName : String
  operatorPrivateKey : String
  numbers : Numbers

structure EnsWorld (χ : Type) where
  chain : χ
  /-- `ens_hosts.json` -/
  hostMappings : Dict String String := .empty
  parent : Option ParentState := .none

abbrev EnsM (χ : Type) := EStateM String (EnsWorld χ)

variable {χ : Type}

def onChain {α : Type} (x : EStateM String χ α) : EnsM χ α := fun w =>
  match x w.chain with
  | .ok a chain => .ok a { w with chain }
  | .error e chain => .error e { w with chain }

def ofExcept {ε σ α : Type} : Except ε α → EStateM ε σ α
  | .ok a => pure a
  | .error e => throw e

def getEnsNameForHost (hostId : String) : EnsM χ (Option String) := do
  return (← get).hostMappings.get? hostId

def saveHostMapping (hostId ensName : String) : EnsM χ Unit :=
  modify fun w => { w with hostMappings := w.hostMappings.set hostId ensName }

def saveParentBootstrap (payload : ParentState) : EnsM χ Unit := modify fun w => { w with parent := .some payload }

/-! ## `client.ts` -/

section

variable (ens : EnsChain χ) (config : EnsConfig)

def permissionedResolverImpl : String := "0x9eae5c2730a7dd16bdd1dee6421a1b91e3b0365e"

def zeroAddress : String := "0x0000000000000000000000000000000000000000"

def requireOperatorKey : EnsM χ Unit :=
  if config.operatorPrivateKey.length < 10 then throw "ENS_OPERATOR_PRIVATE_KEY is required" else return

/-- `replace(/\.eth$/i, "")` -/
def parentLabel : String :=
  let cs := config.parentName.toList
  if (cs.drop (cs.length - 4)).map Char.toLower = ".eth".toList then .ofList (cs.take (cs.length - 4))
  else config.parentName

def ensureOperatorResolver : EnsM χ String := do
  let parent := (← get).parent
  match truthy (parent.bind (·.resolverAddress)) with
  | .some resolver => return resolver
  | .none =>
    match truthy (← onChain (ens.getResolver config.parentName)) with
    | .some existing =>
      if existing.toLower ≠ permissionedResolverImpl then
        saveParentBootstrap ⟨parent.bind (·.userRegistryAddress), .some existing⟩
        return existing
      else install parent
    | .none => install parent
where
  install (parent : Option ParentState) : EnsM χ String := do
    requireOperatorKey config
    let resolver ← onChain ens.deployResolver
    onChain (ens.grantResolverRoles resolver)
    onChain (ens.setResolver (parentLabel config) resolver)
    saveParentBootstrap ⟨parent.bind (·.userRegistryAddress), .some resolver⟩
    return resolver

def ensureParentUserRegistry : EnsM χ String := do
  let parent := (← get).parent
  match (truthy (parent.bind (·.userRegistryAddress))).filter (· ≠ zeroAddress) with
  | .some registry => return registry
  | .none =>
    match (truthy (← onChain (ens.getNameRegistryAddress (parentLabel config)))).filter (· ≠ zeroAddress) with
    | .some existing =>
      saveParentBootstrap ⟨.some existing, parent.bind (·.resolverAddress)⟩
      return existing
    | .none =>
      requireOperatorKey config
      let proxy ← onChain ens.deploySubregistry
      onChain (ens.setSubregistry (parentLabel config) proxy)
      saveParentBootstrap ⟨.some proxy, parent.bind (·.resolverAddress)⟩
      return proxy

/-- A name whose `hostId` can be read; one that cannot be read does not exist. -/
def subnameExists (ensName : String) : EnsM χ Bool := fun w =>
  match onChain (ens.getTextRecord ensName recordKeys.hostId) w with
  | .ok v w => .ok (truthy v).isSome w
  | .error _ w => .ok false w

def resolveHostRecord (ensName : String) : EnsM χ (Option BlitzwingHostRecord) := do
  let hostId ← onChain (ens.getTextRecord ensName recordKeys.hostId)
  let hedera ← onChain (ens.getTextRecord ensName recordKeys.hederaAccountId)
  let blocks ← onChain (ens.getTextRecord ensName recordKeys.blockIndices)
  let layers ← onChain (ens.getTextRecord ensName recordKeys.layersHosted)
  let model ← onChain (ens.getTextRecord ensName recordKeys.model)
  let role ← onChain (ens.getTextRecord ensName recordKeys.role)
  let status ← onChain (ens.getTextRecord ensName recordKeys.status)
  match truthy hostId, truthy hedera, truthy blocks with
  | .some hostId, .some hederaAccountId, .some blockIndices =>
    return .some {
      hostId, hederaAccountId, blockIndices
      layersHosted := config.numbers.text ((truthy layers).getD "0")
      model := (truthy model).getD ""
      role := (truthy role).getD "contributor"
      status := (truthy status).getD "offline" }
  | _, _, _ => return .none

/-- What a `provision` call is sent; `none` is a `null`, as Python's `None` arrives. -/
structure ProvisionBody where
  hostId : String
  role : Option String := .none
  hederaAccountId : Option String := .none
  blockIndices : Option String := .none
  layersHosted : Option Int := .none
  model : Option String := .none
  status : Option String := .none
deriving DecidableEq, Repr

/-- What an `update` call is sent; `none` is a field left out. -/
structure UpdateBody where
  ensName : String
  hostId : Option String := .none
  hederaAccountId : Option String := .none
  blockIndices : Option String := .none
  layersHosted : Option Int := .none
  model : Option String := .none
  role : Option String := .none
  status : Option String := .none
deriving DecidableEq, Repr

/-- The name the host was given, or the one made from its id. -/
def ensNameFor (hostId : String) : EnsM χ String := do
  match truthy (← getEnsNameForHost hostId) with
  | .some ensName => return ensName
  | .none => ofExcept (hostIdToEnsName hostId config.parentName)

/-- Create a name that does not exist; the hashes of the transactions. -/
def createMissing (ensName label resolverAddress : String) : EnsM χ (List String) := do
  if ← subnameExists ens ensName then return []
  let userRegistry ← ensureParentUserRegistry ens config
  let hash ← onChain (ens.createSubnameV2 userRegistry label resolverAddress)
  return [hash]

def provisionHost (input : ProvisionBody) : EnsM χ (String × List String) := do
  let ensName ← ensNameFor config input.hostId
  let record : BlitzwingHostRecord := {
    hostId := input.hostId
    role := (truthy input.role).getD "contributor"
    hederaAccountId := input.hederaAccountId.getD "null"
    blockIndices := input.blockIndices.getD "null"
    layersHosted := toString (input.layersHosted.getD 0)
    model := (truthy input.model).getD ""
    status := (truthy input.status).getD "online" }
  requireOperatorKey config
  let label ← ofExcept (hostIdToLabel input.hostId)
  let resolverAddress ← ensureOperatorResolver ens config
  let created ← createMissing ens config ensName label resolverAddress
  let texts ← ofExcept (recordToTexts config.numbers record)
  let hash ← onChain (ens.setRecords ensName resolverAddress texts)
  saveHostMapping input.hostId ensName
  return (ensName, created ++ [hash])

def updateHost (input : UpdateBody) : EnsM χ (List String) := do
  match ← resolveHostRecord ens config input.ensName with
  | .none =>
    let ensName := input.ensName
    throw s!"Cannot update unknown ENS name: {ensName}"
  | .some current =>
    let merged : BlitzwingHostRecord := {
      hostId := input.hostId.getD current.hostId
      hederaAccountId := input.hederaAccountId.getD current.hederaAccountId
      blockIndices := input.blockIndices.getD current.blockIndices
      layersHosted := (input.layersHosted.map toString).getD current.layersHosted
      model := input.model.getD current.model
      role := input.role.getD current.role
      status := input.status.getD current.status }
    requireOperatorKey config
    let resolverAddress ← ensureOperatorResolver ens config
    let texts ← ofExcept (recordToTexts config.numbers merged)
    let hash ← onChain (ens.setRecords input.ensName resolverAddress texts)
    saveHostMapping merged.hostId input.ensName
    return [hash]

def deactivateHost (ensName : String) : EnsM χ (List String) :=
  updateHost ens config { ensName, status := .some "offline" }

/-! ## `server.ts` -/

inductive EnsCall
  | provision (body : ProvisionBody)
  | update (body : UpdateBody)
  | deactivate (ensName : String)
deriving DecidableEq, Repr

inductive EnsAnswer
  | provisioned (ensName : String) (txHashes : List String) (updated : Bool)
  | updated (txHashes : List String)
  | failed (status : Nat) (error code : String) (retryable : Bool)
deriving DecidableEq, Repr

def EnsCall.errorCode : EnsCall → String
  | .provision _ => "ens_provision_failed"
  | .update _ => "ens_update_failed"
  | .deactivate _ => "ens_deactivate_failed"

/-- The handlers, up to what they throw. -/
def handle : EnsCall → EnsM χ EnsAnswer
  | .provision body => do
    if body.hostId = "" then return .failed 400 "hostId required" "invalid_request" false
    match truthy (← getEnsNameForHost body.hostId) with
    | .some existing =>
      let txHashes ← updateHost ens config {
        ensName := existing
        hostId := .some body.hostId
        hederaAccountId := body.hederaAccountId
        blockIndices := body.blockIndices
        layersHosted := body.layersHosted
        model := body.model
        role := body.role
        status := .some ((truthy body.status).getD "online") }
      return .provisioned existing txHashes true
    | .none =>
      let (ensName, txHashes) ← provisionHost ens config body
      return .provisioned ensName txHashes false
  | .update body => do
    if body.ensName = "" then return .failed 400 "ensName required" "invalid_request" false
    let txHashes ← updateHost ens config body
    return .updated txHashes
  | .deactivate ensName => do
    if ensName = "" then return .failed 400 "ensName required" "invalid_request" false
    let txHashes ← deactivateHost ens config ensName
    return .updated txHashes

/-- One call: the answer, and what it leaves. -/
def serve (call : EnsCall) (w : EnsWorld χ) : EnsAnswer × EnsWorld χ :=
  match handle ens config call w with
  | .ok answer w => (answer, w)
  | .error message w => (.failed 500 message call.errorCode true, w)

end

end Blitzwing.Ens
