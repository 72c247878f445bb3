/-
`orchestrator/app/registry.py`: the host registry, layer carve, and donor
shrink and reclaim.

A method that changes the registry is a `SwarmM` action: it returns or
raises, and what it changed before raising stays changed, as in Python. A
method that takes the lock more than once is cut where it lets go of it
(`markReadyCheck` and `markReadyCommit`, `leaveLocked`, `reclaimLocked` and
`reclaimCommit`), with the `/reload` call between the pieces; the method
itself puts the pieces together again, so a module about interleavings can
run the same pieces one at a time. A piece that raises only before its first
assignment is written as `locked` of a function that may fail.

What the methods read from outside is an argument: the clock (`now`), the
id `uuid4` draws in `join`, and the shard managers' answers (`Reload`). The
JSON file `persist` writes is not part of the registry; saving it never
raises. `list_hosts` is the dictionary's values, and logging is left out.
-/
import Blitzwing.Lib.Dict
import Blitzwing.Lib.PyText
import Mathlib.Data.Int.Order.Basic

namespace Blitzwing

/-- The exceptions the orchestrator raises, with their texts. -/
inductive PyError
  | keyError (msg : String)
  | valueError (msg : String)
  | runtimeError (msg : String)
  | httpError (msg : String)
deriving DecidableEq, Repr

/-- `str(exc)`; a `KeyError` prints the `repr` of its key. -/
def PyError.text : PyError → String
  | .keyError key => s!"'{key}'"
  | .valueError msg | .runtimeError msg | .httpError msg => msg

/-! ## Ranges and addresses -/

def pyInt (s : String) : Except PyError Int :=
  match PyText.int? s with
  | .some n => .ok n
  | .none => .error (.valueError s!"invalid literal for int() with base 10: '{s}'")

/-- `start_s, end_s = block_indices.split(":")`, both read as integers. -/
def parseRange (blockIndices : String) : Except PyError (Int × Int) :=
  match PyText.split blockIndices ':' with
  | [startS, endS] => do return (← pyInt startS, ← pyInt endS)
  | parts =>
    if parts.length < 2 then
      .error (.valueError s!"not enough values to unpack (expected 2, got {parts.length})")
    else .error (.valueError "too many values to unpack (expected 2)")

def formatRange (start «end» : Int) : String := toString start ++ .singleton ':' ++ toString «end»

/-- Skip RFC1918 / loopback addrs. -/
def isPublicMultiaddr (addr : String) : Bool :=
  if addr = "" then false
  else
    let lower := addr.toLower
    let privateNets := ["/ip4/127.", "/ip4/10.", "/ip4/192.168.", "/ip4/172.16.", "/ip4/172.17.",
      "/ip4/172.18.", "/ip4/172.19.", "/ip4/172.2", "/ip4/172.30.", "/ip4/172.31."]
    if privateNets.any fun net => PyText.isIn net lower then false
    else PyText.isIn "/p2p/" lower

def validateHederaAccountId (accountId : String) : Except PyError String :=
  let value := PyText.strip accountId
  match PyText.split value '.' with
  | [shard, realm, num] =>
    if shard ≠ "0" ∨ realm ≠ "0" ∨ PyText.allDigits num = false then
      .error (.valueError "hedera_account_id must look like 0.0.123456")
    else .ok value
  | _ => .error (.valueError "hedera_account_id must look like 0.0.123456")

/-- A string field Python tests for truth: absent and empty are the same. -/
def truthy : Option String → Option String
  | .some "" => .none
  | o => o

/-! ## The registry -/

inductive Role | mother | contributor
deriving DecidableEq, Repr

inductive Status | pending | online | offline
deriving DecidableEq, Repr

structure HostRecord where
  hostId : String
  role : Role
  model : String
  blockIndices : String
  layersHosted : Int
  publicIp : Option String
  shardManagerUrl : String
  peerMultiaddr : Option String := .none
  status : Status := .pending
  joinedAt : Int
  lastHeartbeat : Int
  pendingRange : Option String := .none
  donorHostId : Option String := .none
  donorShrinkTo : Option String := .none
  hederaAccountId : Option String := .none
  ensName : Option String := .none
  petalsRunning : Option Bool := .none
deriving DecidableEq, Repr

structure SwarmRegistry where
  model : String
  totalLayers : Int
  hosts : Dict String HostRecord
  bootstrapPeers : List String := []
deriving DecidableEq, Repr

/-- A registry method: what it changed before raising stays changed. -/
abbrev SwarmM := EStateM PyError SwarmRegistry

/-- A body that raises, if it does, before it changes anything. -/
def locked {α : Type} (body : SwarmRegistry → Except PyError (α × SwarmRegistry)) : SwarmM α := fun reg =>
  match body reg with
  | .ok (a, reg') => .ok a reg'
  | .error e => .error e reg

/-- A computation that changes nothing. -/
def raising {α : Type} (x : Except PyError α) : SwarmM α := locked fun reg => x.map (·, reg)

namespace SwarmRegistry

/-- Assign to the fields of a registered host. -/
def updateHost (reg : SwarmRegistry) (hostId : String) (f : HostRecord → HostRecord) : SwarmRegistry :=
  { reg with hosts := reg.hosts.modify hostId f }

/-- `SwarmRegistry.__init__`: the mother holds every layer. -/
def init (model : String) (totalLayers : Int) (motherShardManagerUrl : String)
    (motherHederaAccountId : Option String) (now : Int) : Except PyError SwarmRegistry := do
  let motherWallet ← (truthy motherHederaAccountId).mapM validateHederaAccountId
  return {
    model
    totalLayers
    hosts := Dict.empty.set "mother" {
      hostId := "mother"
      role := .mother
      model
      blockIndices := formatRange 0 totalLayers
      layersHosted := totalLayers
      publicIp := .none
      shardManagerUrl := PyText.rstrip motherShardManagerUrl '/'
      status := .online
      joinedAt := now
      lastHeartbeat := now
      hederaAccountId := motherWallet } }

/-- Online hosts that have a Hedera payout wallet and at least one layer. -/
def onlinePayoutHosts (reg : SwarmRegistry) : List HostRecord :=
  reg.hosts.values.filter fun h => h.status = .online ∧ (truthy h.hederaAccountId).isSome ∧ 0 < h.layersHosted

/-- `max(online, key=layers_hosted)`: the first of the largest. -/
def largestDonorLocked (reg : SwarmRegistry) : Option HostRecord :=
  (reg.hosts.values.filter (·.status = .online)).maxOn? (·.layersHosted)

/-- The donor's range less what pending hosts have reserved of its high end. -/
def effectiveDonorRange (reg : SwarmRegistry) (donor : HostRecord) : Except PyError (Int × Int) := do
  let (dStart, dEnd) ← parseRange donor.blockIndices
  let dEnd ← reg.hosts.values.foldlM (fun dEnd h => do
    if h.status = .pending ∧ h.donorHostId = .some donor.hostId then
      let (pStart, _) ← parseRange h.blockIndices
      return if pStart < dEnd then pStart else dEnd
    else return dEnd) dEnd
  return (dStart, dEnd)

def maxCarveable (reg : SwarmRegistry) : Except PyError Int :=
  match reg.largestDonorLocked with
  | .none => return 0
  | .some donor => do
    let (start, «end») ← reg.effectiveDonorRange donor
    return max 0 ((«end» - start) - 1)

/-- Does one online host's range contain this one? -/
def rangeCoveredByOnline (reg : SwarmRegistry) (blockIndices : String) (skipHostId : Option String) :
    Except PyError Bool := do
  let (pStart, pEnd) ← parseRange blockIndices
  reg.hosts.values.anyM fun h => do
    if .some h.hostId = skipHostId ∨ h.status ≠ .online then return false
    else
      let (a, b) ← parseRange h.blockIndices
      return a ≤ pStart ∧ pEnd ≤ b

def motherLocked (reg : SwarmRegistry) : Option HostRecord :=
  (reg.hosts.get? "mother").filter (·.status = .online)

/-- The first online host whose range is adjacent to the reclaimed range. -/
def findAdjacentDonor (reg : SwarmRegistry) (rStart rEnd : Int) : Except PyError (Option HostRecord) :=
  reg.hosts.values.findM? fun h => do
    if h.status ≠ .online then return false
    else
      let (hStart, hEnd) ← parseRange h.blockIndices
      return hEnd = rStart ∨ rEnd = hStart

/-- The donor's range grown by the reclaimed one. An adjacent range is joined
without a look at the other hosts. -/
def canMergeRanges (reg : SwarmRegistry) (donor : HostRecord) (rStart rEnd : Int) :
    Except PyError (Option String) := do
  let (dStart, dEnd) ← parseRange donor.blockIndices
  if dEnd = rStart then return .some (formatRange dStart rEnd)
  else if rEnd = dStart then return .some (formatRange rStart dEnd)
  else
    let others := reg.hosts.values.filter fun h => h.hostId ≠ donor.hostId ∧ h.status = .online
    let occupied ← others.mapM fun h => parseRange h.blockIndices
    let newStart := min dStart rStart
    let newEnd := max dEnd rEnd
    if occupied.any fun p => ¬ (newEnd ≤ p.1 ∨ newStart ≥ p.2) then return .none
    else return .some (formatRange newStart newEnd)

/-- `if h and h not in candidates: candidates.append(h)` -/
def addCandidate (candidates : List HostRecord) : Option HostRecord → List HostRecord
  | .some h => if h ∈ candidates then candidates else candidates ++ [h]
  | .none => candidates

/-- Mother, an adjacent host, the largest host; each at most once. -/
def reclaimCandidates (reg : SwarmRegistry) (rStart rEnd : Int) : Except PyError (List HostRecord) := do
  let adjacent ← reg.findAdjacentDonor rStart rEnd
  return addCandidate (addCandidate reg.motherLocked.toList adjacent) reg.largestDonorLocked

/-- The last candidate that can merge, unless the mother can: the loop stops there. -/
def chooseAbsorber (reg : SwarmRegistry) (rStart rEnd : Int) :
    List HostRecord → Option (HostRecord × String) → Except PyError (Option (HostRecord × String))
  | [], chosen => return chosen
  | donor :: rest, chosen => do
    match ← reg.canMergeRanges donor rStart rEnd with
    | .some merged =>
      if donor.role = .mother then return .some (donor, merged)
      else reg.chooseAbsorber rStart rEnd rest (.some (donor, merged))
    | .none => reg.chooseAbsorber rStart rEnd rest chosen

end SwarmRegistry

/-! ## The methods, cut where they release the lock -/

/-- A `/reload` request: the URL posted to, the range in the payload, and
whether the shard manager answered it or the client raised. -/
abbrev Reload := String → String → Except PyError Unit

def reloadShardManager (post : Reload) (baseUrl blockIndices : String) : Except PyError Unit :=
  post (PyText.rstrip baseUrl '/' ++ "/reload") blockIndices

structure JoinReply where
  hostId : String
  model : String
  blockIndices : String
  layersHosted : Int
  initialPeers : List String
  donorHostId : String
  maxLayersAvailable : Int
  totalLayers : Int
  hederaAccountId : String
deriving DecidableEq, Repr

/-- The record `join` makes and its answer, for the id `uuid4` draws. -/
def SwarmRegistry.joinRecord (reg : SwarmRegistry) (layers : Int)
    (publicIp shardManagerUrl hederaAccountId hostId : String) (now : Int) :
    Except PyError (HostRecord × JoinReply) :=
  if layers < 1 then .error (.valueError "layers must be >= 1")
  else if layers ≥ reg.totalLayers then .error (.valueError s!"layers must be <= {reg.totalLayers - 1}")
  else do
    let wallet ← validateHederaAccountId hederaAccountId
    -- Only one pending join at a time.
    match reg.hosts.values.find? (·.status = .pending) with
    | .some p => .error (.runtimeError (s!"Another join is still pending ({p.hostId} {p.blockIndices}). " ++
        "Wait for it to finish or time out before joining again."))
    | .none =>
      match reg.largestDonorLocked with
      | .none => .error (.runtimeError "No online donor available")
      | .some donor => do
        let (dStart, dEnd) ← reg.effectiveDonorRange donor
        let donorLen := dEnd - dStart
        let maxTake := donorLen - 1
        if layers > maxTake then
          .error (.valueError s!"Requested {layers} layers but max available from largest donor is {maxTake}")
        else
          -- Carve from the high end of the donor.
          let joinStart := dEnd - layers
          let shrinkTo := formatRange dStart joinStart
          let assigned := formatRange joinStart dEnd
          return ({
            hostId
            role := .contributor
            model := reg.model
            blockIndices := assigned
            layersHosted := layers
            publicIp := .some publicIp
            shardManagerUrl := PyText.rstrip shardManagerUrl '/'
            status := .pending
            joinedAt := now
            lastHeartbeat := now
            pendingRange := .some assigned
            donorHostId := .some donor.hostId
            donorShrinkTo := .some shrinkTo
            hederaAccountId := .some wallet }, {
            hostId
            model := reg.model
            blockIndices := assigned
            layersHosted := layers
            initialPeers := reg.bootstrapPeers
            donorHostId := donor.hostId
            maxLayersAvailable := maxTake
            totalLayers := reg.totalLayers
            hederaAccountId := wallet })

def join (layers : Int) (publicIp shardManagerUrl hederaAccountId hostId : String) (now : Int) :
    SwarmM JoinReply :=
  locked fun reg => do
    let (record, reply) ← reg.joinRecord layers publicIp shardManagerUrl hederaAccountId hostId now
    return (reply, { reg with hosts := reg.hosts.set hostId record })

/-- What `mark_ready` carries across its `/reload` call. -/
structure ShrinkPlan where
  hostId : String
  donorId : String
  donorUrl : String
  shrinkTo : String
  assigned : String
deriving DecidableEq, Repr

inductive ReadyCheck
  | online (host : HostRecord)
  | shrink (plan : ShrinkPlan)
deriving DecidableEq, Repr

/-- Refuse to shrink past another pending reservation on this donor. -/
def refusePastReservation (reg : SwarmRegistry) (hostId donorId : String) (shrinkStart shrinkEnd : Int) :
    Except PyError Unit :=
  reg.hosts.values.forM fun other => do
    if other.hostId = hostId ∨ other.status ≠ .pending ∨ other.donorHostId ≠ .some donorId then return
    else
      let (pStart, pEnd) ← parseRange other.blockIndices
      if shrinkStart ≤ pStart ∧ pEnd ≤ shrinkEnd then return
      else throw (.runtimeError (s!"Cannot complete ready for {hostId}: pending host " ++
        s!"{other.hostId} still holds {other.blockIndices}"))

/-- The donor shrink plan of a host that is not online yet. -/
def SwarmRegistry.shrinkPlan (reg : SwarmRegistry) (hostId : String) (host : HostRecord) :
    Except PyError ShrinkPlan :=
  let donor := (truthy host.donorHostId).bind fun d => (reg.hosts.get? d).map fun r => (d, r)
  match donor, truthy host.donorShrinkTo with
  | .some (donorId, donor), .some shrinkTo => do
    let (shrinkStart, shrinkEnd) ← parseRange shrinkTo
    refusePastReservation reg hostId donorId shrinkStart shrinkEnd
    return {
      hostId
      donorId
      donorUrl := donor.shardManagerUrl
      shrinkTo
      assigned := (truthy host.pendingRange).getD host.blockIndices }
  | _, _ => .error (.runtimeError "Join record missing donor shrink plan")

/-- `mark_ready` up to the release of the lock. -/
def markReadyCheck (hostId : String) (peerMultiaddr : Option String) : SwarmM ReadyCheck :=
  locked fun reg =>
    match reg.hosts.get? hostId with
    | .none => .error (.keyError s!"Unknown host_id {hostId}")
    | .some host =>
      if host.status = .online then .ok (.online host, reg)
      else do
        let plan ← reg.shrinkPlan hostId host
        match truthy peerMultiaddr with
        | .some peer => return (.shrink plan, reg.updateHost hostId fun h => { h with peerMultiaddr := .some peer })
        | .none => return (.shrink plan, reg)

/-- Make the peer a bootstrap peer, once, if there is one and it is public. -/
def SwarmRegistry.addBootstrapPeer (reg : SwarmRegistry) (peerMultiaddr : Option String) : SwarmRegistry :=
  match truthy peerMultiaddr with
  | .some peer =>
    if isPublicMultiaddr peer ∧ peer ∉ reg.bootstrapPeers then
      { reg with bootstrapPeers := reg.bootstrapPeers ++ [peer] }
    else reg
  | .none => reg

/-- `mark_ready` after the donor's `/reload`: both hosts are looked up again. -/
def markReadyCommit (plan : ShrinkPlan) (peerMultiaddr : Option String) (now : Int) : SwarmM HostRecord :=
  fun reg =>
    match reg.hosts.get? plan.hostId, reg.hosts.get? plan.donorId, parseRange plan.shrinkTo with
    | .none, _, _ => .error (.keyError plan.hostId) reg
    | .some _, .none, _ => .error (.keyError plan.donorId) reg
    | .some _, .some _, .error e => .error e reg
    | .some host, .some _, .ok (dStart, dEnd) =>
      let shrunk := reg.updateHost plan.donorId fun d =>
        { d with blockIndices := plan.shrinkTo, layersHosted := dEnd - dStart }
      let moved := shrunk.updateHost plan.hostId fun h => { h with blockIndices := plan.assigned }
      match parseRange plan.assigned with
      | .error e => .error e moved
      | .ok (aStart, aEnd) =>
        let ready := moved.updateHost plan.hostId fun h => { h with
          layersHosted := aEnd - aStart
          status := .online
          lastHeartbeat := now
          pendingRange := .none
          donorShrinkTo := .none }
        let done := ready.addBootstrapPeer peerMultiaddr
        .ok ((done.hosts.get? plan.hostId).getD host) done

def markReady (post : Reload) (hostId : String) (peerMultiaddr : Option String) (now : Int) :
    SwarmM HostRecord := do
  match ← markReadyCheck hostId peerMultiaddr with
  | .online host => return host
  | .shrink plan => do
    raising (reloadShardManager post plan.donorUrl plan.shrinkTo)
    markReadyCommit plan peerMultiaddr now

/-- `SwarmRegistry.heartbeat` -/
def heartbeat (hostId : String) (now : Int) : SwarmM Unit :=
  locked fun reg =>
    match reg.hosts.get? hostId with
    | .none => .error (.keyError hostId)
    | .some _ => .ok ((), reg.updateHost hostId fun h =>
        { h with lastHeartbeat := now, status := if h.status = .offline then .online else h.status })

/-- The range `leave` will have to reclaim, if any. -/
def SwarmRegistry.rangeToReclaim (reg : SwarmRegistry) (hostId : String) : Except PyError (Option String) :=
  match reg.hosts.get? hostId with
  | .none => .error (.keyError hostId)
  | .some host =>
    if host.role = .mother then .error (.valueError "Cannot leave as mother via this API")
    else
      match host.status with
      | .online => .ok (.some host.blockIndices)
      -- A pending host's blocks are still the donor's, unless a hole was punched.
      | .pending => do
        let covered ← reg.rangeCoveredByOnline host.blockIndices (.some host.hostId)
        return if covered then .none else .some host.blockIndices
      | .offline => .ok .none

/-- `leave` up to the release of the lock: the host is deleted, and the range
to reclaim is returned. -/
def leaveLocked (hostId : String) : SwarmM (Option String) :=
  locked fun reg => do
    let range ← reg.rangeToReclaim hostId
    return (truthy range, { reg with hosts := reg.hosts.erase hostId })

/-- What `_reclaim_range` carries across its `/reload` call. -/
structure ReclaimPlan where
  donorId : String
  donorUrl : String
  newRange : String
deriving DecidableEq, Repr

/-- `_reclaim_range` up to the release of the lock; `none` where it gives up. -/
def reclaimLocked (reg : SwarmRegistry) (blockIndices : String) : Except PyError (Option ReclaimPlan) := do
  let (rStart, rEnd) ← parseRange blockIndices
  let candidates ← reg.reclaimCandidates rStart rEnd
  match ← reg.chooseAbsorber rStart rEnd candidates .none with
  | .some (chosen, newRange) =>
    return .some { donorId := chosen.hostId, donorUrl := chosen.shardManagerUrl, newRange }
  | .none => return .none

/-- `_reclaim_range` after the absorber's `/reload`. -/
def reclaimCommit (plan : ReclaimPlan) : SwarmM Unit :=
  locked fun reg =>
    match reg.hosts.get? plan.donorId with
    | .none => .error (.keyError plan.donorId)
    | .some _ => do
      let (s, e) ← parseRange plan.newRange
      return ((), reg.updateHost plan.donorId fun d =>
        { d with blockIndices := plan.newRange, layersHosted := e - s })

def reclaimRange (post : Reload) (blockIndices : String) : SwarmM Unit := do
  match ← locked fun reg => return (← reclaimLocked reg blockIndices, reg) with
  | .none => return
  | .some plan => do
    raising (reloadShardManager post plan.donorUrl plan.newRange)
    reclaimCommit plan

def leave (post : Reload) (hostId : String) : SwarmM Unit := do
  match ← leaveLocked hostId with
  | .some range => reclaimRange post range
  | .none => return

/-! ## The reapers -/

/-- `try: ... except Exception`, keeping what was changed: did it return? -/
def attempt (x : SwarmM Unit) : SwarmM Bool := fun reg =>
  match x reg with
  | .ok _ reg' => .ok true reg'
  | .error _ reg' => .ok false reg'

namespace SwarmRegistry

/-- Contributors whose last heartbeat is older than the TTL. -/
def staleHosts (reg : SwarmRegistry) (ttlSeconds now : Int) : List String :=
  (reg.hosts.values.filter fun h =>
    h.role ≠ .mother ∧ h.status = .online ∧ now - h.lastHeartbeat > ttlSeconds).map (·.hostId)

/-- Pending hosts that joined longer ago than the TTL. -/
def stalePending (reg : SwarmRegistry) (ttlSeconds now : Int) : List String :=
  (reg.hosts.values.filter fun h =>
    h.role ≠ .mother ∧ h.status = .pending ∧ now - h.joinedAt > ttlSeconds).map (·.hostId)

end SwarmRegistry

/-- The loop of both reapers: the ids whose `leave` returned. The shard
managers' answers are those to the `leave` of each victim. -/
def reapLoop (post : String → Reload) : List String → SwarmM (List String)
  | [] => return []
  | victim :: victims => do
    let left ← attempt (leave (post victim) victim)
    let rest ← reapLoop post victims
    return if left then victim :: rest else rest

def reapStale (post : String → Reload) (ttlSeconds now : Int) : SwarmM (List String) := do
  reapLoop post ((← get).staleHosts ttlSeconds now)

def reapStalePending (post : String → Reload) (ttlSeconds now : Int) : SwarmM (List String) := do
  reapLoop post ((← get).stalePending ttlSeconds now)

end Blitzwing
