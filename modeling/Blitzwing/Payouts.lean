/-
`orchestrator/app/hedera_payouts.py`, `hedera_escrow.py` and the part of
`ens_client.py` a payout asks: who is paid for one request, and how much.

`redistribute` takes one of two paths. With an escrow contract configured
and somebody to pay, `release` pays every row; otherwise `planPayouts` checks
the hosts against ENS first and a transfer pays what is not the mother's own.
The ENS service is a function from names to records, the verdicts it gave
less than thirty seconds ago are the state (`EnsM`), and the Hedera calls
themselves are taken to succeed: the model's payments are what they are asked
to send. Receipts, the HCS audit message and the client set-up are left out.
-/
import Blitzwing.Registry
import Blitzwing.Lib.Raise

namespace Blitzwing

/-- The settings a payout reads. -/
structure Settings where
  totalLayers : Int
  x402Enabled : Bool := false
  costPerLayerTinybars : Int := 0
  motherAccountId : Option String := .none
  motherPrivateKey : Option String := .none
  escrowContractId : Option String := .none
  escrowEvmAddress : Option String := .none
  ensEnabled : Bool := false
  ensStrict : Bool := false
deriving DecidableEq, Repr

namespace Settings

def requestPriceTinybars (settings : Settings) : Int := settings.totalLayers * settings.costPerLayerTinybars

/-- `HederaPayoutService.enabled` -/
def payoutsEnabled (settings : Settings) : Bool :=
  settings.x402Enabled ∧ (truthy settings.motherAccountId).isSome ∧ (truthy settings.motherPrivateKey).isSome ∧
    settings.costPerLayerTinybars > 0

/-- `HederaEscrowService.enabled` -/
def escrowEnabled (settings : Settings) : Bool :=
  (truthy settings.escrowContractId).isSome ∧ (truthy settings.escrowEvmAddress).isSome

end Settings

/-! ## ENS verification -/

/-- The fields of a resolved record a payout compares. -/
structure EnsRecord where
  hederaAccountId : Option String
  blockIndices : Option String
  hostId : Option String
deriving DecidableEq, Repr

/-- `resolve`: the record of a name, if it has one; it raises where the
service does not answer. -/
abbrev Resolve := String → Except PyError (Option EnsRecord)

/-- `_VERIFY_CACHE`: the last verdict on each host id, and when it was given. -/
abbrev VerifyCache := Dict String (Bool × Int)

abbrev EnsM := EStateM PyError VerifyCache

def verifyTtlSeconds : Int := 30

def EnsRecord.matches (record : EnsRecord) (host : HostRecord) : Bool :=
  record.hederaAccountId = host.hederaAccountId ∧ record.blockIndices = .some host.blockIndices ∧
    record.hostId = .some host.hostId

def verifyHost (settings : Settings) (resolve : Resolve) (now : Int) (host : HostRecord) : EnsM Bool := fun cache =>
  if settings.ensEnabled = false then .ok true cache
  else match truthy host.ensName with
    | .none => .ok (!settings.ensStrict) cache
    | .some name =>
      match (cache.get? host.hostId).filter fun cached => now - cached.2 < verifyTtlSeconds with
      | .some cached => .ok cached.1 cache
      | .none =>
        match resolve name with
        | .error e => .error e cache
        | .ok record =>
          let ok := record.any (·.matches host)
          .ok ok (cache.set host.hostId (ok, now))

/-- A host with a wallet and a layer. -/
def payable (host : HostRecord) : Bool := (truthy host.hederaAccountId).isSome ∧ 0 < host.layersHosted

/-- The loop of `_verify_hosts_for_payout`. `clock n` is the time at its n-th verification. -/
def ensFailures (settings : Settings) (resolve : Resolve) (clock : Nat → Int) :
    Nat → List HostRecord → EnsM (List String)
  | _, [] => return []
  | n, host :: hosts =>
    if payable host = false then ensFailures settings resolve clock n hosts
    else match truthy host.ensName with
      | .none => do
        let failures ← ensFailures settings resolve clock n hosts
        return if settings.ensStrict then s!"{host.hostId}: missing ens_name" :: failures else failures
      | .some name => do
        let ok ← verifyHost settings resolve (clock n) host
        let failures ← ensFailures settings resolve clock (n + 1) hosts
        return if ok then failures else s!"{host.hostId}: ENS verification failed for {name}" :: failures

def verifyHostsForPayout (settings : Settings) (resolve : Resolve) (clock : Nat → Int) (hosts : List HostRecord) :
    EnsM Unit := do
  if settings.ensEnabled = false then return
  let failures ← ensFailures settings resolve clock 0 hosts
  if failures.isEmpty = false then
    throw (.runtimeError ("ENS payout verification failed: " ++ "; ".intercalate failures))

/-! ## Rows and payments -/

structure HostPayout where
  hostId : String
  hederaAccountId : String
  layers : Int
  amountTinybars : Int
  ensName : Option String
deriving DecidableEq, Repr

/-- What a host is owed for one request. -/
def hostPayout (costPerLayer : Int) (host : HostRecord) : HostPayout where
  hostId := host.hostId
  hederaAccountId := host.hederaAccountId.getD ""
  layers := host.layersHosted
  amountTinybars := host.layersHosted * costPerLayer
  ensName := host.ensName

def planPayouts (settings : Settings) (resolve : Resolve) (clock : Nat → Int) (hosts : List HostRecord) :
    EnsM (List HostPayout) := do
  verifyHostsForPayout settings resolve clock hosts
  return (hosts.filter payable).map (hostPayout settings.costPerLayerTinybars)

/-- The rows of `HederaEscrowService.release`, `none` where it releases nothing. -/
def release (settings : Settings) (hosts : List HostRecord) (costPerLayer : Int) : Option (List HostPayout) :=
  if settings.escrowEnabled = false then .none
  else
    let rows := ((hosts.filter payable).map (hostPayout costPerLayer)).filter (0 < ·.amountTinybars)
    if rows.isEmpty then .none else .some rows

/-- The payments `redistribute` sends. -/
def redistribute (settings : Settings) (resolve : Resolve) (clock : Nat → Int) (hosts : List HostRecord) :
    EnsM (List HostPayout) :=
  match release settings hosts settings.costPerLayerTinybars with
  | .some rows => return rows
  | .none => do
    if settings.payoutsEnabled = false then return []
    let planned ← planPayouts settings resolve clock hosts
    -- Skip no-op credits back to mother treasury.
    return planned.filter fun p => .some p.hederaAccountId ≠ settings.motherAccountId ∧ 0 < p.amountTinybars

/-! ## The gate -/

/-- The host has a name, and the record of that name is its own. -/
def passesGate (resolve : Resolve) (host : HostRecord) : Bool :=
  match truthy host.ensName with
  | .none => false
  | .some name =>
    match resolve name with
    | .ok (.some record) => record.matches host
    | _ => false

/-- The hosts the escrow path owes money. -/
def escrowHosts (settings : Settings) (hosts : List HostRecord) : List HostRecord :=
  hosts.filter fun host => payable host && 0 < host.layersHosted * settings.costPerLayerTinybars

/-- The hosts the direct path owes money. -/
def directHosts (settings : Settings) (hosts : List HostRecord) : List HostRecord :=
  hosts.filter fun host => payable host && (.some (host.hederaAccountId.getD "") ≠ settings.motherAccountId ∧
    0 < host.layersHosted * settings.costPerLayerTinybars : Bool)

/-- The hosts that are owed money, with no gate on either path. -/
def dueHosts (settings : Settings) (hosts : List HostRecord) : List HostRecord :=
  if settings.escrowEnabled ∧ escrowHosts settings hosts ≠ [] then escrowHosts settings hosts
  else if settings.payoutsEnabled then directHosts settings hosts
  else []

/-- What was sent; a call that raises sends nothing. -/
def sent (x : EnsM (List HostPayout)) (cache : VerifyCache) : List HostPayout :=
  match x cache with
  | .ok payments _ => payments
  | .error _ _ => []

/-- The verdict on each host the gate looks at, in order; `none` where the
service does not answer. -/
def verdicts (settings : Settings) (resolve : Resolve) (clock : Nat → Int) :
    Nat → VerifyCache → List HostRecord → List (Option Bool)
  | _, _, [] => []
  | n, cache, host :: hosts =>
    if payable host = false then verdicts settings resolve clock n cache hosts
    else if (truthy host.ensName).isNone then
      .some (!settings.ensStrict) :: verdicts settings resolve clock n cache hosts
    else match verifyHost settings resolve (clock n) host cache with
      | .ok ok cache => .some ok :: verdicts settings resolve clock (n + 1) cache hosts
      | .error _ cache => .none :: verdicts settings resolve clock (n + 1) cache hosts

/-- The loop raises nothing and collects nothing exactly where every verdict is good. -/
theorem ensFailures_eq_nil (settings : Settings) (resolve : Resolve) (clock : Nat → Int) (n : Nat) (cache : VerifyCache)
    (hosts : List HostRecord) : (∃ cache', ensFailures settings resolve clock n hosts cache = .ok [] cache') ↔
      ∀ v ∈ verdicts settings resolve clock n cache hosts, v = .some true := by
  induction hosts generalizing n cache with
  | nil => simp [ensFailures, verdicts]
  | cons host hosts ih =>
    simp only [ensFailures, verdicts]
    split
    · exact ih n cache
    cases hn : truthy host.ensName with
    | none =>
      simp only [Option.isNone_none, if_true, bind_apply, List.mem_cons, forall_eq_or_imp, ← ih n cache]
      cases settings.ensStrict with
      | true =>
        cases ensFailures settings resolve clock n hosts cache <;> simp
      | false =>
        cases ensFailures settings resolve clock n hosts cache <;> simp
    | some name =>
      simp only [Option.isNone_some, Bool.false_eq_true, if_false, bind_apply]
      cases verifyHost settings resolve (clock n) host cache with
      | error e cache' => simp
      | ok ok cache' =>
        simp only [List.mem_cons, forall_eq_or_imp, ← ih (n + 1) cache']
        cases ok <;> cases ensFailures settings resolve clock (n + 1) hosts cache' <;> simp

/-- The direct path is taken, and some verdict on it is bad. -/
def Refuses (settings : Settings) (resolve : Resolve) (clock : Nat → Int) (cache : VerifyCache)
    (hosts : List HostRecord) : Prop :=
  ¬ (settings.escrowEnabled = true ∧ escrowHosts settings hosts ≠ []) ∧ settings.payoutsEnabled = true ∧
    ∃ v ∈ verdicts settings resolve clock 0 cache hosts, v ≠ .some true

instance (settings : Settings) (resolve : Resolve) (clock : Nat → Int) (cache : VerifyCache) (hosts : List HostRecord) :
    Decidable (Refuses settings resolve clock cache hosts) :=
  inferInstanceAs (Decidable (_ ∧ _ ∧ ∃ v ∈ verdicts settings resolve clock 0 cache hosts, _))

theorem verifyHostsForPayout_ok {settings : Settings} (hens : settings.ensEnabled = true) (resolve : Resolve)
    (clock : Nat → Int) (hosts : List HostRecord) (cache : VerifyCache) :
    (∃ cache', verifyHostsForPayout settings resolve clock hosts cache = .ok () cache') ↔
      ∀ v ∈ verdicts settings resolve clock 0 cache hosts, v = .some true := by
  rw [← ensFailures_eq_nil]
  simp only [verifyHostsForPayout, hens, Bool.true_eq_false, if_false, bind_apply]
  rcases ensFailures settings resolve clock 0 hosts cache with ⟨_ | ⟨f, fs⟩, cache'⟩ | ⟨e, cache'⟩
  · simp
  · simp
  · simp

/-- Keeping rows and making rows commute. -/
theorem filter_rows (hosts : List HostRecord) (cost : Int) (p : HostPayout → Bool) :
    ((hosts.filter payable).map (hostPayout cost)).filter p =
      (hosts.filter fun host => payable host && p (hostPayout cost host)).map (hostPayout cost) := by
  simp [List.filter_map, List.filter_filter, Function.comp_def, Bool.and_comm]

theorem release_eq (settings : Settings) (hosts : List HostRecord) :
    release settings hosts settings.costPerLayerTinybars =
      if settings.escrowEnabled ∧ escrowHosts settings hosts ≠ [] then
        .some ((escrowHosts settings hosts).map (hostPayout settings.costPerLayerTinybars))
      else .none := by
  have hrows : ((hosts.filter payable).map (hostPayout settings.costPerLayerTinybars)).filter (0 < ·.amountTinybars) =
      (escrowHosts settings hosts).map (hostPayout settings.costPerLayerTinybars) := filter_rows _ _ _
  simp only [release, hrows, List.isEmpty_map]
  cases settings.escrowEnabled <;> cases escrowHosts settings hosts <;> simp

/-- Either path sends rows of the hosts it is given, each at most once. -/
theorem sent_sublist (settings : Settings) (resolve : Resolve) (clock : Nat → Int) (hosts : List HostRecord)
    (cache : VerifyCache) : List.Sublist (sent (redistribute settings resolve clock hosts) cache)
      (hosts.map (hostPayout settings.costPerLayerTinybars)) := by
  simp only [redistribute, release_eq]
  split
  · next rows hrel =>
    split at hrel
    · obtain rfl := Option.some.inj hrel
      exact List.filter_sublist.map _
    · simp at hrel
  cases hen : settings.payoutsEnabled with
  | false => simp [sent]
  | true =>
    simp only [Bool.true_eq_false, if_false, sent, planPayouts, bind_apply]
    cases verifyHostsForPayout settings resolve clock hosts cache with
    | error e cache' => exact List.nil_sublist _
    | ok _ cache' => exact List.filter_sublist.trans (List.filter_sublist.map _)

/-- **What `redistribute` sends**: everything due, or nothing where the gate refuses. -/
theorem sent_redistribute {settings : Settings} (hens : settings.ensEnabled = true) (resolve : Resolve)
    (clock : Nat → Int) (hosts : List HostRecord) (cache : VerifyCache) :
    sent (redistribute settings resolve clock hosts) cache =
      if Refuses settings resolve clock cache hosts then []
      else (dueHosts settings hosts).map (hostPayout settings.costPerLayerTinybars) := by
  simp only [redistribute, Refuses, dueHosts, release_eq]
  by_cases hesc : settings.escrowEnabled = true ∧ escrowHosts settings hosts ≠ []
  · simp [hesc, sent]
  simp only [hesc, if_false, not_false_eq_true, true_and]
  cases hen : settings.payoutsEnabled with
  | false => simp [sent]
  | true =>
    have hdirect : ((hosts.filter payable).map (hostPayout settings.costPerLayerTinybars)).filter (fun p =>
        .some p.hederaAccountId ≠ settings.motherAccountId ∧ 0 < p.amountTinybars) =
          (directHosts settings hosts).map (hostPayout settings.costPerLayerTinybars) := filter_rows _ _ _
    have hok := verifyHostsForPayout_ok hens resolve clock hosts cache
    simp only [Bool.true_eq_false, if_false, if_true, sent, planPayouts, bind_apply, true_and]
    cases hv : verifyHostsForPayout settings resolve clock hosts cache with
    | ok _ cache' =>
      have hall := hok.1 ⟨cache', hv⟩
      rw [if_neg fun ⟨v, hmem, hne⟩ => hne (hall v hmem)]
      exact hdirect
    | error e cache' =>
      have hsome : ∃ v ∈ verdicts settings resolve clock 0 cache hosts, v ≠ .some true := by
        by_contra hno
        push Not at hno
        obtain ⟨cache'', hgood⟩ := hok.2 hno
        simp [hv] at hgood
      rw [if_pos hsome]

/-! ## When the gate holds -/

/-- In strict mode every due host that passes the gate is paid and nobody
else; otherwise everybody due is paid. -/
def GateHolds (settings : Settings) (resolve : Resolve) (hosts : List HostRecord) (payments : List HostPayout) : Prop :=
  payments = (if settings.ensStrict then (dueHosts settings hosts).filter (passesGate resolve)
    else dueHosts settings hosts).map (hostPayout settings.costPerLayerTinybars)

/-- Where the direct path refuses, nobody passing was due, and in lenient mode
nobody at all; elsewhere in strict mode everybody due passes. -/
def GateKept (settings : Settings) (resolve : Resolve) (clock : Nat → Int) (cache : VerifyCache)
    (hosts : List HostRecord) : Prop :=
  if Refuses settings resolve clock cache hosts then
    ∀ host ∈ dueHosts settings hosts, settings.ensStrict = true ∧ passesGate resolve host = false
  else settings.ensStrict = true → ∀ host ∈ dueHosts settings hosts, passesGate resolve host = true

/-- **Exactly when the payout gate holds.** -/
theorem gate_holds_iff {settings : Settings} (hens : settings.ensEnabled = true) (resolve : Resolve)
    (clock : Nat → Int) (hosts : List HostRecord) (cache : VerifyCache) :
    GateHolds settings resolve hosts (sent (redistribute settings resolve clock hosts) cache) ↔
      GateKept settings resolve clock cache hosts := by
  rw [sent_redistribute hens]
  unfold GateHolds GateKept
  split
  · cases settings.ensStrict with
    | true => simp [eq_comm (a := ([] : List HostPayout))]
    | false => simp [eq_comm (a := ([] : List HostPayout)), List.eq_nil_iff_forall_not_mem]
  · cases settings.ensStrict with
    | true =>
      simp only [if_true, true_implies]
      constructor
      · intro h
        have hlen := congrArg List.length h
        simp only [List.length_map] at hlen
        exact List.filter_eq_self.1 (List.filter_sublist.eq_of_length hlen.symm)
      · intro h
        rw [List.filter_eq_self.2 h]
    | false => simp

/-- An online contributor of four layers, with or without a name. -/
def payee (hostId account : String) (ensName : Option String) : HostRecord where
  hostId
  role := .contributor
  model := "m"
  blockIndices := "8:12"
  layersHosted := 4
  publicIp := .none
  shardManagerUrl := "http://203.0.113.7:8003"
  status := .online
  joinedAt := 0
  lastHeartbeat := 0
  hederaAccountId := .some account
  ensName

/-- Direct payouts of ten tinybars a layer. -/
def directSettings (ensStrict : Bool) : Settings where
  totalLayers := 12
  x402Enabled := true
  costPerLayerTinybars := 10
  motherAccountId := .some "0.0.1001"
  motherPrivateKey := .some "0xkey"
  ensEnabled := true
  ensStrict

/-- The same with an escrow contract. -/
def escrowSettings (ensStrict : Bool) : Settings :=
  { directSettings ensStrict with escrowContractId := .some "0.0.10424668", escrowEvmAddress := .some "0x9f115c" }

/-- One name is registered, and its record is host A's own. -/
def oneRecord : Resolve := fun name =>
  if name = "a.blitzwing.eth" then .ok (.some ⟨.some "0.0.2001", .some "8:12", .some "host-a"⟩) else .ok .none

/-- A host that passes the gate, one with no name, and one whose name has no record. -/
def verifiedHost : HostRecord := payee "host-a" "0.0.2001" (.some "a.blitzwing.eth")

def namelessHost : HostRecord := payee "host-b" "0.0.2002" .none

def unknownHost : HostRecord := payee "host-b" "0.0.2002" (.some "b.blitzwing.eth")

/-- What is sent with an empty cache. -/
def sentFresh (settings : Settings) (hosts : List HostRecord) : List HostPayout :=
  sent (redistribute settings oneRecord (fun _ => 0) hosts) Dict.empty

theorem gate_holds_iff_strict :
    GateHolds (directSettings true) oneRecord [verifiedHost] (sentFresh (directSettings true) [verifiedHost]) ↔
      GateKept (directSettings true) oneRecord (fun _ => 0) Dict.empty [verifiedHost] :=
  gate_holds_iff rfl oneRecord _ _ _

/-- **The gate fails on both paths.** In strict mode the escrow pays a host
with no name, and on the direct path that host keeps one that passes from
being paid; in lenient mode a name without a record blocks everybody. -/
theorem gate_fails :
    ¬ GateHolds (escrowSettings true) oneRecord [namelessHost] (sentFresh (escrowSettings true) [namelessHost]) ∧
    ¬ GateHolds (directSettings true) oneRecord [verifiedHost, namelessHost]
      (sentFresh (directSettings true) [verifiedHost, namelessHost]) ∧
    ¬ GateHolds (directSettings false) oneRecord [verifiedHost, unknownHost]
      (sentFresh (directSettings false) [verifiedHost, unknownHost]) := by
  unfold GateHolds
  decide

end Blitzwing
