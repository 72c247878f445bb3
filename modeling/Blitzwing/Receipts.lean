/-
`redistribute` of `hedera_payouts.py` and `release` of `hedera_escrow.py`, with
the receipts they return.

The two paths filter and price the hosts in loops of their own: `releaseLists`
appends to three lists, `planPayouts` makes one. Their rows are the same
(`releaseLists_eq`), each receipt's total is the sum of its rows and its
transaction is for them (`redistributeReceipt_ok`), and over hosts whose ranges
tile the model the total is the price of a request (`paid_complete`).

The Hedera network, its SDK and the mirror node are arguments, and so are the
ids of topics, which the service finds or creates.
-/
import Blitzwing.Payouts
import Blitzwing.Manifest
import Mathlib.Algebra.BigOperators.Ring.List

namespace Blitzwing

/-- An entry of a receipt's `hosts`; only the escrow adds an EVM address. -/
structure HostRow where
  hostId : String
  ensName : Option String
  hederaAccountId : String
  layers : Int
  amountTinybars : Int
  evmAddress : Option String := .none
deriving DecidableEq, Repr

/-- What `release` returns. -/
structure EscrowOut where
  requestId : String
  payoutTxId : String
  escrowContractId : Option String
  totalTinybars : Int
  hosts : List HostRow
deriving DecidableEq, Repr

structure PayoutReceipt where
  requestId : String
  x402TxId : Option String
  payoutTxId : Option String
  hcsTopicId : Option String
  hcsSequence : Option String
  costPerLayerTinybars : Int
  totalTinybars : Int
  hosts : List HostRow
deriving DecidableEq, Repr

/-- The message of the HCS audit log; only the escrow path names its contract. -/
structure AuditPayload where
  requestId : String
  x402TxId : Option String
  payoutTxId : Option String
  escrowContractId : Option (Option String) := .none
  costPerLayerTinybars : Int
  hosts : List HostRow
deriving DecidableEq, Repr

/-- What a payout asks of the network. -/
structure Hedera where
  /-- The virtual machine, the client and its operator, for the escrow. -/
  escrowClient : Except PyError Unit
  /-- The same for a transfer, and the mother's account. -/
  client : Except PyError Unit
  resolveEvmAddress : String → Except PyError String
  /-- `release(requestId, addresses, amounts)` on the contract: the transaction's id. -/
  execute : String → List String → List Int → Except PyError String
  /-- A transfer of these credits against the mother's debit: the transaction's id. -/
  transfer : Int → List (String × Int) → Except PyError String
  /-- `_topic_id` -/
  topicId : Option String
  /-- The topic an enabled service finds or creates. -/
  hcsTopic : Option String
  /-- The audit message: its sequence number. -/
  submit : String → AuditPayload → Except PyError String

/-- `^0\.0\.\d+$` on the stripped text. -/
def isValidTopicId (topicId : Option String) : Bool :=
  match truthy topicId with
  | .none => false
  | .some id =>
    match PyText.split (PyText.strip id) '.' with
    | [shard, realm, num] =>
      shard = "0" && realm = "0" && !num.toList.isEmpty && num.toList.all fun c => (PyText.decimal? c).isSome
    | _ => false

/-! ## The loop of `release` -/

/-- The lists the loop appends to. -/
structure ReleaseLists where
  recipients : List String := []
  amounts : List Int := []
  hostRows : List HostRow := []
deriving DecidableEq, Repr

def ReleaseLists.add (lists : ReleaseLists) (costPerLayer : Int) (host : HostRecord) : ReleaseLists :=
  match truthy host.hederaAccountId with
  | .none => lists
  | .some account =>
    if host.layersHosted ≤ 0 then lists
    else
      let amount := host.layersHosted * costPerLayer
      if amount ≤ 0 then lists
      else
        { recipients := lists.recipients ++ [account]
          amounts := lists.amounts ++ [amount]
          hostRows := lists.hostRows ++ [{
            hostId := host.hostId
            ensName := host.ensName
            hederaAccountId := account
            layers := host.layersHosted
            amountTinybars := amount }] }

def releaseLists (hosts : List HostRecord) (costPerLayer : Int) : ReleaseLists :=
  hosts.foldl (·.add costPerLayer) {}

/-- `HederaEscrowService.release`, `none` where it releases nothing. -/
def escrowRelease (hedera : Hedera) (settings : Settings) (requestId : String) (hosts : List HostRecord)
    (costPerLayer : Int) : Except PyError (Option EscrowOut) := do
  if settings.escrowEnabled = false then return .none
  else
    let lists := releaseLists hosts costPerLayer
    if lists.recipients = [] then return .none
    else
      hedera.escrowClient
      let addresses ← lists.recipients.mapM hedera.resolveEvmAddress
      let txId ← hedera.execute requestId addresses lists.amounts
      return .some {
        requestId
        payoutTxId := txId
        escrowContractId := settings.escrowContractId
        totalTinybars := lists.amounts.sum
        hosts := lists.hostRows.zipWith (fun row addr => { row with evmAddress := .some addr }) addresses }

/-! ## The receipts -/

/-- `ensure_hcs_topic` -/
def ensureHcsTopic (hedera : Hedera) (settings : Settings) : Option String :=
  if settings.payoutsEnabled = false then .none else hedera.hcsTopic

/-- The audit message, if the topic is one; a failure is only logged. -/
def auditSequence (hedera : Hedera) (topicId : Option String) (payload : AuditPayload) : Option String :=
  if isValidTopicId topicId then (hedera.submit (topicId.getD "") payload).toOption else .none

/-- The receipt of an escrow release. -/
def escrowReceipt (hedera : Hedera) (settings : Settings) (requestId : String) (x402TxId : Option String)
    (out : EscrowOut) : PayoutReceipt :=
  let topicId := ensureHcsTopic hedera settings
  { requestId
    x402TxId
    payoutTxId := .some out.payoutTxId
    hcsTopicId := if isValidTopicId topicId then topicId else .none
    hcsSequence := auditSequence hedera topicId {
      requestId
      x402TxId
      payoutTxId := .some out.payoutTxId
      escrowContractId := .some out.escrowContractId
      costPerLayerTinybars := settings.costPerLayerTinybars
      hosts := out.hosts }
    costPerLayerTinybars := settings.costPerLayerTinybars
    totalTinybars := out.totalTinybars
    hosts := out.hosts }

def HostPayout.row (p : HostPayout) : HostRow where
  hostId := p.hostId
  ensName := p.ensName
  hederaAccountId := p.hederaAccountId
  layers := p.layers
  amountTinybars := p.amountTinybars

/-- The transfer of the direct path: no credits back to the mother, and none
at all where nothing is owed. -/
def directTransfer (hedera : Hedera) (settings : Settings) (planned : List HostPayout) :
    Except PyError (Option String) :=
  let transfers := planned.filter fun p => .some p.hederaAccountId ≠ settings.motherAccountId ∧ 0 < p.amountTinybars
  let total := (transfers.map (·.amountTinybars)).sum
  if 0 < total then
    .some <$> hedera.transfer total (transfers.map fun p => (p.hederaAccountId, p.amountTinybars))
  else .ok .none

/-- The receipt of a direct payout. -/
def directReceipt (hedera : Hedera) (settings : Settings) (requestId : String) (x402TxId : Option String)
    (planned : List HostPayout) (payoutTxId : Option String) : PayoutReceipt :=
  let topicId := ensureHcsTopic hedera settings
  { requestId
    x402TxId
    payoutTxId
    hcsTopicId := topicId
    hcsSequence := auditSequence hedera topicId {
      requestId
      x402TxId
      payoutTxId
      costPerLayerTinybars := settings.costPerLayerTinybars
      hosts := planned.map (·.row) }
    costPerLayerTinybars := settings.costPerLayerTinybars
    totalTinybars := (planned.map (·.amountTinybars)).sum
    hosts := planned.map (·.row) }

/-- The receipt of a payout that pays nobody. -/
def emptyReceipt (hedera : Hedera) (settings : Settings) (requestId : String) (x402TxId : Option String) :
    PayoutReceipt where
  requestId
  x402TxId
  payoutTxId := .none
  hcsTopicId := hedera.topicId
  hcsSequence := .none
  costPerLayerTinybars := settings.costPerLayerTinybars
  totalTinybars := 0
  hosts := []

/-- `redistribute` -/
def redistributeReceipt (hedera : Hedera) (settings : Settings) (resolve : Resolve) (clock : Nat → Int)
    (requestId : String) (hosts : List HostRecord) (x402TxId : Option String) : EnsM PayoutReceipt := do
  match ← ofExcept (escrowRelease hedera settings requestId hosts settings.costPerLayerTinybars) with
  | .some out => return escrowReceipt hedera settings requestId x402TxId out
  | .none =>
    if settings.payoutsEnabled = false then return emptyReceipt hedera settings requestId x402TxId
    else
      ofExcept hedera.client
      let planned ← planPayouts settings resolve clock hosts
      let payoutTxId ← ofExcept (directTransfer hedera settings planned)
      return directReceipt hedera settings requestId x402TxId planned payoutTxId

/-! ## The two loops make the same rows -/

/-- The lists of these payouts. -/
def ReleaseLists.of (planned : List HostPayout) : ReleaseLists where
  recipients := planned.map (·.hederaAccountId)
  amounts := planned.map (·.amountTinybars)
  hostRows := planned.map (·.row)

section

variable {cost : Int} {hosts : List HostRecord}

/-- The rows of `plan_payouts`. -/
def plannedRows (hosts : List HostRecord) (cost : Int) : List HostPayout := (hosts.filter payable).map (hostPayout cost)

/-- One turn of `release` appends what the other loop would. -/
theorem add_of (hcost : 0 < cost) (planned : List HostPayout) (host : HostRecord) :
    (ReleaseLists.of planned).add cost host = .of (planned ++ plannedRows [host] cost) := by
  unfold ReleaseLists.add
  cases haccount : truthy host.hederaAccountId with
  | none =>
    have hpay : payable host = false := by simp [payable, haccount]
    simp [plannedRows, hpay]
  | some account =>
    by_cases hlayers : host.layersHosted ≤ 0
    · have hpay : payable host = false := by simp [payable, hlayers]
      simp [plannedRows, hpay, hlayers]
    · have hpay : payable host = true := by simp [payable, haccount]; omega
      have hamount : ¬ host.layersHosted * cost ≤ 0 := by
        have := Int.mul_pos (a := host.layersHosted) (by omega) hcost
        omega
      obtain hid := truthy_eq_some haccount
      simp [plannedRows, hpay, hlayers, hamount, ReleaseLists.of, hostPayout, HostPayout.row, hid]

/-- **The loop of `release` is the loop of `plan_payouts`**, for a positive price. -/
theorem releaseLists_eq (hcost : 0 < cost) : releaseLists hosts cost = .of (plannedRows hosts cost) := by
  have hfold : ∀ planned : List HostPayout, hosts.foldl (·.add cost) (ReleaseLists.of planned) =
      .of (planned ++ plannedRows hosts cost) := by
    induction hosts with
    | nil => simp [plannedRows]
    | cons host hosts ih =>
      intro planned
      have hrows : plannedRows (host :: hosts) cost = plannedRows [host] cost ++ plannedRows hosts cost := by
        simp only [plannedRows, ← List.map_append, ← List.filter_append, List.singleton_append]
      rw [List.foldl_cons, add_of hcost, ih, hrows, List.append_assoc]
  exact hfold []

end

/-- Every planned row is owed something. -/
theorem plannedRows_pos {cost : Int} (hcost : 0 < cost) {hosts : List HostRecord} {p : HostPayout}
    (hp : p ∈ plannedRows hosts cost) : 0 < p.amountTinybars := by
  obtain ⟨host, hhost, rfl⟩ := List.mem_map.1 hp
  have hpay := (List.mem_filter.1 hhost).2
  simp only [payable, decide_eq_true_eq] at hpay
  exact Int.mul_pos hpay.2 hcost

/-- The payments of `release` are these rows. -/
theorem release_eq_plannedRows {settings : Settings} (hcost : 0 < settings.costPerLayerTinybars)
    (hosts : List HostRecord) : release settings hosts settings.costPerLayerTinybars =
      if settings.escrowEnabled = false ∨ plannedRows hosts settings.costPerLayerTinybars = [] then .none
      else .some (plannedRows hosts settings.costPerLayerTinybars) := by
  have hpositive : ∀ p ∈ plannedRows hosts settings.costPerLayerTinybars, decide (0 < p.amountTinybars) = true :=
    fun p hp => decide_eq_true (plannedRows_pos hcost hp)
  have hrows : ((hosts.filter payable).map (hostPayout settings.costPerLayerTinybars)).filter (0 < ·.amountTinybars) =
      plannedRows hosts settings.costPerLayerTinybars := List.filter_eq_self.2 hpositive
  simp only [release, hrows, List.isEmpty_iff]
  cases settings.escrowEnabled <;> simp

/-! ## What a receipt says -/

/-- The rows that a direct transfer credits: not the mother's own. -/
def credited (settings : Settings) (planned : List HostPayout) : List HostPayout :=
  planned.filter fun p => .some p.hederaAccountId ≠ settings.motherAccountId

/-- The transaction of these rows: the contract's release to the addresses of
all their accounts, or one transfer to those that are credited. -/
def SentFor (hedera : Hedera) (settings : Settings) (requestId : String) (planned : List HostPayout)
    (payoutTxId : Option String) : Prop :=
  if settings.escrowEnabled ∧ planned ≠ [] then
    ∃ addresses txId, (planned.map (·.hederaAccountId)).mapM hedera.resolveEvmAddress = .ok addresses ∧
      hedera.execute requestId addresses (planned.map (·.amountTinybars)) = .ok txId ∧ payoutTxId = .some txId
  else if settings.payoutsEnabled ∧ credited settings planned ≠ [] then
    ∃ txId, hedera.transfer ((credited settings planned).map (·.amountTinybars)).sum
        ((credited settings planned).map fun p => (p.hederaAccountId, p.amountTinybars)) = .ok txId ∧
      payoutTxId = .some txId
  else payoutTxId = .none

/-- With ENS off the gate lets everybody through. -/
theorem planPayouts_eq {settings : Settings} (hens : settings.ensEnabled = false) (resolve : Resolve)
    (clock : Nat → Int) (hosts : List HostRecord) (cache : VerifyCache) :
    planPayouts settings resolve clock hosts cache = .ok (plannedRows hosts settings.costPerLayerTinybars) cache := by
  simp [planPayouts, verifyHostsForPayout, hens, bind_apply, plannedRows]

/-- What the escrow returns: the planned rows, each with an address. -/
theorem escrowRelease_ok {hedera : Hedera} {settings : Settings} {requestId : String} {hosts : List HostRecord}
    {cost : Int} (hcost : 0 < cost) {out : Option EscrowOut}
    (h : escrowRelease hedera settings requestId hosts cost = .ok out) :
    (out = .none ∧ (settings.escrowEnabled = false ∨ plannedRows hosts cost = [])) ∨
      ∃ o, out = .some o ∧ settings.escrowEnabled = true ∧
        plannedRows hosts cost ≠ [] ∧
        o.hosts.map (fun row => { row with evmAddress := .none }) = (plannedRows hosts cost).map (·.row) ∧
        o.totalTinybars = ((plannedRows hosts cost).map (·.amountTinybars)).sum ∧
        ∃ addresses, ((plannedRows hosts cost).map (·.hederaAccountId)).mapM hedera.resolveEvmAddress =
            .ok addresses ∧
          hedera.execute requestId addresses ((plannedRows hosts cost).map (·.amountTinybars)) =
            .ok o.payoutTxId := by
  unfold escrowRelease at h
  split at h
  · next hoff => exact .inl ⟨(Except.ok.inj h).symm, .inl hoff⟩
  · next hon =>
    simp only [releaseLists_eq hcost] at h
    split at h
    · next hnone => exact .inl ⟨(Except.ok.inj h).symm, .inr (List.map_eq_nil_iff.1 hnone)⟩
    · next hsome =>
      obtain ⟨_, -, h⟩ := bind_eq_ok.1 h
      obtain ⟨addresses, haddresses, h⟩ := bind_eq_ok.1 h
      obtain ⟨txId, hexecute, h⟩ := bind_eq_ok.1 h
      have hrows : plannedRows hosts cost ≠ [] := fun hnone => hsome (List.map_eq_nil_iff.2 hnone)
      refine .inr ⟨_, (Except.ok.inj h).symm, by simpa using hon, hrows, ?_, rfl, addresses, haddresses, hexecute⟩
      have hlength : (plannedRows hosts cost).length ≤ addresses.length := by
        rw [length_of_mapM haddresses]
        simp [ReleaseLists.of]
      simp only [ReleaseLists.of, List.map_zipWith, List.zipWith_map_left]
      -- A row has no address before, so it is itself without the one it got.
      calc (plannedRows hosts cost).zipWith (fun p _ => p.row) addresses
          = (((plannedRows hosts cost).zip addresses).map Prod.fst).map (·.row) := by
            rw [List.map_map, ← List.map_uncurry_zip_eq_zipWith]
            rfl
        _ = (plannedRows hosts cost).map (·.row) := by rw [List.map_fst_zip hlength]

/-- The amounts of a receipt do not depend on its addresses. -/
theorem amounts_of_rows {rows : List HostRow} {planned : List HostPayout}
    (h : rows.map (fun row => { row with evmAddress := .none }) = planned.map (·.row)) :
    rows.map (·.amountTinybars) = planned.map (·.amountTinybars) := by
  have := congrArg (List.map HostRow.amountTinybars) h
  simpa only [List.map_map, Function.comp_def, HostPayout.row] using this

/-- The direct path transfers what it credits. -/
theorem directTransfer_ok {hedera : Hedera} {settings : Settings} {planned : List HostPayout}
    (hpositive : ∀ p ∈ planned, 0 < p.amountTinybars) {payoutTxId : Option String}
    (h : directTransfer hedera settings planned = .ok payoutTxId) :
    (credited settings planned = [] ∧ payoutTxId = .none) ∨
      credited settings planned ≠ [] ∧
        ∃ txId, hedera.transfer ((credited settings planned).map (·.amountTinybars)).sum
            ((credited settings planned).map fun p => (p.hederaAccountId, p.amountTinybars)) = .ok txId ∧
          payoutTxId = .some txId := by
  have htransfers : (planned.filter fun p => .some p.hederaAccountId ≠ settings.motherAccountId ∧
      0 < p.amountTinybars) = credited settings planned := by
    refine List.filter_congr fun p hp => ?_
    simp [hpositive p hp]
  simp only [directTransfer, htransfers] at h
  by_cases hnone : credited settings planned = []
  · rw [hnone] at h
    exact .inl ⟨hnone, (Except.ok.inj h).symm⟩
  · have htotal : 0 < ((credited settings planned).map (·.amountTinybars)).sum := by
      refine List.sum_pos _ (fun amount hamount => ?_) (by simpa using hnone)
      obtain ⟨p, hp, rfl⟩ := List.mem_map.1 hamount
      exact hpositive p (List.mem_of_mem_filter hp)
    rw [if_pos htotal] at h
    generalize htransfer : hedera.transfer _ _ = transferred at h
    cases transferred with
    | error e => cases h
    | ok txId => exact .inr ⟨hnone, txId, rfl, (Except.ok.inj h).symm⟩

/-- **A receipt** has the planned rows where a path pays, none elsewhere, its
total is their sum, and its transaction is the one for them. -/
theorem redistributeReceipt_ok {hedera : Hedera} {settings : Settings} (hens : settings.ensEnabled = false)
    (hcost : 0 < settings.costPerLayerTinybars) {resolve : Resolve} {clock : Nat → Int} {requestId : String}
    {hosts : List HostRecord} {x402TxId : Option String} {cache cache' : VerifyCache} {receipt : PayoutReceipt}
    (h : redistributeReceipt hedera settings resolve clock requestId hosts x402TxId cache = .ok receipt cache') :
    receipt.hosts.map (fun row => { row with evmAddress := .none }) =
        (if settings.escrowEnabled ∨ settings.payoutsEnabled then
          plannedRows hosts settings.costPerLayerTinybars else []).map (·.row) ∧
      receipt.totalTinybars = (receipt.hosts.map (·.amountTinybars)).sum ∧
      SentFor hedera settings requestId (plannedRows hosts settings.costPerLayerTinybars) receipt.payoutTxId := by
  unfold redistributeReceipt at h
  obtain ⟨out, hrelease, h⟩ := ofExcept_bind_ok h
  obtain ⟨rfl, hnone⟩ | ⟨o, rfl, hon, hsome, hrows, htotal, addresses, haddresses, hexecute⟩ :=
    escrowRelease_ok hcost hrelease
  · have hskipped : ¬(settings.escrowEnabled = true ∧ plannedRows hosts settings.costPerLayerTinybars ≠ []) := by
      rintro ⟨hescrow, hrows⟩
      obtain hoff | hempty := hnone
      · rw [hoff] at hescrow
        cases hescrow
      · exact hrows hempty
    simp only [SentFor, if_neg hskipped]
    simp only at h
    split at h
    · next hoff =>
      obtain ⟨rfl, -⟩ := EStateM.Result.ok.inj h
      refine ⟨?_, rfl, by simp [hoff, emptyReceipt]⟩
      obtain hescrow | hempty := hnone
      · simp [emptyReceipt, hescrow, hoff]
      · simp [emptyReceipt, hempty]
    · next hon =>
      have hpays : settings.escrowEnabled = true ∨ settings.payoutsEnabled = true := .inr (by simpa using hon)
      obtain ⟨_, -, h⟩ := ofExcept_bind_ok h
      rw [bind_apply, planPayouts_eq hens] at h
      obtain ⟨payoutTxId, htransfer, h⟩ := ofExcept_bind_ok h
      obtain ⟨rfl, -⟩ := EStateM.Result.ok.inj h
      rw [if_pos hpays]
      refine ⟨by simp [directReceipt, HostPayout.row, Function.comp_def],
        by simp [directReceipt, HostPayout.row, Function.comp_def], ?_⟩
      have honly : settings.payoutsEnabled = true := by simpa using hon
      obtain ⟨hnobody, rfl⟩ | ⟨hsomebody, hsent⟩ := directTransfer_ok (fun p => plannedRows_pos hcost) htransfer
      · rw [if_neg fun hboth => hboth.2 hnobody]
        rfl
      · rw [if_pos ⟨honly, hsomebody⟩]
        exact hsent
  · obtain ⟨rfl, -⟩ := EStateM.Result.ok.inj h
    rw [if_pos (.inl hon), SentFor, if_pos ⟨hon, hsome⟩]
    exact ⟨hrows, htotal.trans (congrArg List.sum (amounts_of_rows hrows).symm), addresses, o.payoutTxId, haddresses,
      hexecute, rfl⟩

/-! ## A whole model -/

/-- The span of one host in `build_manifest`. -/
def layerSpan (host : HostRecord) : Except PyError LayerSpan := do
  let (start, «end») ← parseRange host.blockIndices
  return { hostId := host.hostId, role := host.role, blockIndices := host.blockIndices, start, «end»,
           shardManagerUrl := host.shardManagerUrl, peerMultiaddr := host.peerMultiaddr }

/-- The layers a host is paid for. -/
def paidSpan (host : HostRecord) : Span := (spanOf host.blockIndices).getD ⟨0, 0⟩

/-- How many rows pay for the layer. -/
def payers (hosts : List HostRecord) (layer : Int) : ℕ := (hosts.filter payable).countP (layer ∈ paidSpan ·)

/-- `layers_hosted` is the length of the range. -/
def Sized (hosts : List HostRecord) : Prop :=
  ∀ host ∈ hosts, ∀ s ∈ spanOf host.blockIndices, host.layersHosted = s.length

instance (hosts : List HostRecord) : Decidable (Sized hosts) :=
  inferInstanceAs (Decidable (∀ host ∈ hosts, ∀ s ∈ spanOf host.blockIndices, host.layersHosted = s.length))

section

variable {hosts : List HostRecord} {spans : List LayerSpan}

/-- Who is paid is who `is_complete` looks at. -/
theorem paidSpans_eq (hspans : hosts.mapM layerSpan = .ok spans) (hsized : Sized hosts)
    (haccounts : ∀ host ∈ hosts, (truthy host.hederaAccountId).isSome) :
    (hosts.filter payable).map paidSpan = (spans.filter fun s => s.end > s.start).map (·.span) := by
  induction hosts generalizing spans with
  | nil =>
    obtain rfl : [] = spans := Except.ok.inj hspans
    rfl
  | cons host hosts ih =>
    simp only [List.mapM_cons, bind_eq_ok, pure_eq_ok] at hspans
    obtain ⟨s, hs, rest, hrest, hspans⟩ := hspans
    obtain ⟨⟨start, «end»⟩, hrange, hs⟩ := bind_eq_ok.1 hs
    obtain rfl := Except.ok.inj hspans
    obtain rfl := Except.ok.inj hs
    have hspan : spanOf host.blockIndices = .some ⟨start, «end»⟩ := spanOf_of_parseRange hrange
    have hlayers : host.layersHosted = «end» - start := hsized host List.mem_cons_self _ hspan
    have hpaid : paidSpan host = ⟨start, «end»⟩ := by rw [paidSpan, hspan, Option.getD_some]
    have htail := ih hrest (fun host' hmem => hsized host' (List.mem_cons_of_mem _ hmem)) fun host' hmem =>
      haccounts host' (List.mem_cons_of_mem _ hmem)
    have hpay : payable host = true ↔ start < «end» := by
      simp only [payable, haccounts host List.mem_cons_self, hlayers, true_and, decide_eq_true_eq]
      omega
    by_cases hlt : start < «end»
    · rw [List.filter_cons_of_pos (hpay.2 hlt), List.filter_cons_of_pos (by simpa using hlt), List.map_cons,
        List.map_cons, htail, hpaid]
      rfl
    · rw [List.filter_cons_of_neg (mt hpay.1 hlt), List.filter_cons_of_neg (by simpa using hlt), htail]

/-- **A complete layer map is paid for once**: the rows add up to the price of
its layers, and each layer is in one of them. -/
theorem paid_complete (hspans : hosts.mapM layerSpan = .ok spans) (hsized : Sized hosts)
    (haccounts : ∀ host ∈ hosts, (truthy host.hederaAccountId).isSome) {model : String} {n : Int}
    (hcomplete : SwarmManifest.isComplete ⟨model, n, spans⟩ = true) (cost : Int) :
    ((plannedRows hosts cost).map (·.amountTinybars)).sum = n * cost ∧
      ∀ layer, payers hosts layer = if 0 ≤ layer ∧ layer < n then 1 else 0 := by
  have heq := paidSpans_eq hspans hsized haccounts
  generalize honline : spans.filter (fun s => s.end > s.start) = online at heq
  have hperm := (List.perm_insertionSort (fun a b : LayerSpan => a.start ≤ b.start) online).map (·.span)
  have hchain : Span.Chain 0 ((online.insertionSort fun a b => a.start ≤ b.start).map (·.span)) n := by
    unfold SwarmManifest.isComplete at hcomplete
    simp only [honline] at hcomplete
    split at hcomplete
    · cases hcomplete
    · exact follow_eq_some.1 (of_decide_eq_true hcomplete)
  constructor
  · have hamounts : (plannedRows hosts cost).map (·.amountTinybars) =
        ((hosts.filter payable).map paidSpan).map (·.length * cost) := by
      simp only [plannedRows, List.map_map]
      refine List.map_congr_left fun host hhost => ?_
      obtain ⟨s, hs⟩ : ∃ s, spanOf host.blockIndices = .some s := by
        obtain ⟨_, hl⟩ := exists_mapM_ok.1 ⟨spans, hspans⟩ host (List.mem_filter.1 hhost).1
        obtain ⟨⟨start, «end»⟩, hrange, -⟩ := bind_eq_ok.1 hl
        exact ⟨_, spanOf_of_parseRange hrange⟩
      simp [hostPayout, paidSpan, hs, hsized host (List.mem_filter.1 hhost).1 s hs]
    have hsum := hchain.length_sum
    rw [(hperm.map Span.length).sum_eq, sub_zero] at hsum
    rw [hamounts, heq, List.sum_map_mul_right, hsum]
  · intro layer
    have hne : ∀ s ∈ (online.insertionSort fun a b => a.start ≤ b.start).map (·.span), s.lo ≤ s.hi := by
      intro s hs
      obtain ⟨a, ha, rfl⟩ := List.mem_map.1 (hperm.mem_iff.1 hs)
      rw [← honline] at ha
      exact le_of_lt (by simpa [LayerSpan.span] using (List.mem_filter.1 ha).2)
    have hcount : payers hosts layer = (online.map (·.span)).countP (layer ∈ ·) := by
      rw [← heq, payers, List.countP_map]
      rfl
    have htiled := (hchain.tiledBy hne).1
    obtain ⟨hin, hout⟩ := (Span.tiledBy_iff_countP htiled.le).1 htiled
    rw [hcount, ← hperm.countP_eq]
    split
    · next hl => exact hin layer hl.1 hl.2
    · next hl => exact hout layer (by omega)

end

/-- **Payouts are conserved.** Both loops make the same rows, a receipt's total
is the sum of its rows and its transaction pays them, and over a complete layer
map with accounts the total is the price of a request, each layer paid for
once. -/
theorem payouts_conserved {settings : Settings} (hens : settings.ensEnabled = false)
    (hcost : 0 < settings.costPerLayerTinybars) (hosts : List HostRecord) :
    ((∀ resolve clock cache, planPayouts settings resolve clock hosts cache =
          .ok (plannedRows hosts settings.costPerLayerTinybars) cache) ∧
        (releaseLists hosts settings.costPerLayerTinybars).recipients =
          (plannedRows hosts settings.costPerLayerTinybars).map (·.hederaAccountId) ∧
        (releaseLists hosts settings.costPerLayerTinybars).amounts =
          (plannedRows hosts settings.costPerLayerTinybars).map (·.amountTinybars)) ∧
      (∀ hedera resolve clock requestId x402TxId cache cache' receipt,
        redistributeReceipt hedera settings resolve clock requestId hosts x402TxId cache = .ok receipt cache' →
          receipt.hosts.map (fun row => { row with evmAddress := .none }) =
              (if settings.escrowEnabled ∨ settings.payoutsEnabled then
                plannedRows hosts settings.costPerLayerTinybars else []).map (·.row) ∧
            receipt.totalTinybars = (receipt.hosts.map (·.amountTinybars)).sum ∧
            SentFor hedera settings requestId (plannedRows hosts settings.costPerLayerTinybars) receipt.payoutTxId) ∧
      ∀ model spans, hosts.mapM layerSpan = .ok spans →
        SwarmManifest.isComplete ⟨model, settings.totalLayers, spans⟩ = true → Sized hosts →
        (∀ host ∈ hosts, (truthy host.hederaAccountId).isSome) →
          (∀ hedera resolve clock requestId x402TxId cache cache' receipt,
            settings.escrowEnabled ∨ settings.payoutsEnabled →
            redistributeReceipt hedera settings resolve clock requestId hosts x402TxId cache = .ok receipt cache' →
              receipt.totalTinybars = settings.requestPriceTinybars) ∧
            ((plannedRows hosts settings.costPerLayerTinybars).map (·.amountTinybars)).sum =
              settings.requestPriceTinybars ∧
            ∀ layer, payers hosts layer = if 0 ≤ layer ∧ layer < settings.totalLayers then 1 else 0 := by
  refine ⟨⟨fun resolve clock cache => planPayouts_eq hens resolve clock hosts cache, ?_, ?_⟩,
    fun _ _ _ _ _ _ _ _ h => redistributeReceipt_ok hens hcost h, ?_⟩
  · rw [releaseLists_eq hcost, ReleaseLists.of]
  · rw [releaseLists_eq hcost, ReleaseLists.of]
  · intro model spans hspans hcomplete hsized haccounts
    obtain ⟨hsum, hlayers⟩ := paid_complete hspans hsized haccounts hcomplete settings.costPerLayerTinybars
    refine ⟨?_, hsum, hlayers⟩
    intro _ _ _ _ _ _ _ receipt hpays h
    obtain ⟨hrows, htotal, -⟩ := redistributeReceipt_ok hens hcost h
    rw [if_pos hpays] at hrows
    rw [htotal, amounts_of_rows hrows]
    exact hsum

/-- Two hosts of a model of twelve layers, paid by the escrow. -/
def twelveSettings : Settings := { escrowSettings false with ensEnabled := false }

def twelveHosts : List HostRecord :=
  [payee "host-a" "0.0.2001" .none,
    { payee "mother" "0.0.1001" .none with role := .mother, blockIndices := "0:8", layersHosted := 8 }]

/-- A network whose contract takes this one release. -/
def twelveNetwork : Hedera where
  escrowClient := .ok ()
  client := .error (.runtimeError "HEDERA_OPERATOR_KEY not configured")
  resolveEvmAddress account := .ok ("0x" ++ account)
  execute requestId recipients amounts :=
    if (requestId, recipients, amounts) = ("req-1", ["0x0.0.2001", "0x0.0.1001"], [40, 80]) then
      .ok "0.0.1001@1700000000.1"
    else .error (.runtimeError "CONTRACT_REVERT_EXECUTED")
  transfer _ _ := .error (.runtimeError "INSUFFICIENT_PAYER_BALANCE")
  topicId := .none
  hcsTopic := .none
  submit _ _ := .error (.runtimeError "INVALID_TOPIC_ID")

theorem payouts_conserved_twelve :
    ∃ receipt, redistributeReceipt twelveNetwork twelveSettings oneRecord (fun _ => 0) "req-1" twelveHosts .none
        .empty = .ok receipt .empty ∧
      receipt.totalTinybars = 120 ∧ receipt.totalTinybars = (receipt.hosts.map (·.amountTinybars)).sum ∧
      SentFor twelveNetwork twelveSettings "req-1" (plannedRows twelveHosts 10) receipt.payoutTxId ∧
      receipt.payoutTxId = .some "0.0.1001@1700000000.1" ∧
      ∀ layer, payers twelveHosts layer = if 0 ≤ layer ∧ layer < 12 then 1 else 0 := by
  obtain ⟨-, hreceipt, h⟩ := @payouts_conserved twelveSettings rfl (by decide) twelveHosts
  obtain ⟨hprice, -, hlayers⟩ := h "m" _ rfl (by decide +kernel) (by decide +kernel) (by decide)
  have hrun : ∃ receipt, redistributeReceipt twelveNetwork twelveSettings oneRecord (fun _ => 0) "req-1" twelveHosts
      .none .empty = .ok receipt .empty ∧ receipt.payoutTxId = .some "0.0.1001@1700000000.1" := ⟨_, rfl, rfl⟩
  obtain ⟨receipt, hrun, hpaid⟩ := hrun
  obtain ⟨-, hsum, hsent⟩ := hreceipt _ _ _ _ _ _ _ _ hrun
  exact ⟨receipt, hrun, hprice _ _ _ _ _ _ _ _ (.inl rfl) hrun, hsum, hsent, hpaid, hlayers⟩

end Blitzwing
