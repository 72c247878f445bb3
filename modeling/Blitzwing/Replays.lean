/-
What repeating a call of `/v1/internal/payout` does.

The request id passes through all three layers, and none of them keeps it: the
endpoint looks at the paid header, `redistribute` at the hosts that are online,
and the contract at its balance; there the id only says which lock the sum
comes out of first. So a call pays at most once, in full, and the next call
with the same id pays again (`paid_per_call`, `paid_again`).
-/
import Blitzwing.Releases
import Blitzwing.Payouts
import Blitzwing.Chat

namespace Blitzwing

/-- What a payout is made with. -/
structure Rail where
  settings : Settings
  deployment : Deployment
  /-- `request_id_to_bytes32`, a SHA-256. -/
  requestIdToBytes32 : String → Bytes32

/-- A payout that moved money. -/
structure Payout where
  requestId : String
  x402TxId : Option String
  payments : List HostPayout
deriving DecidableEq, Repr

structure Treasury where
  /-- The contract, between transactions. -/
  escrow : Escrow
  cache : VerifyCache
  /-- The payouts that moved money, in order. -/
  moved : List Payout := []

/-- A call of the endpoint, and what it meets. -/
structure PayoutCall where
  headers : PaidHeaders
  body : String
  /-- `registry.online_payout_hosts()` -/
  hosts : List HostRecord
  resolve : Resolve
  clock : ℕ → Int
  /-- `resolve_evm_address` -/
  resolveEvmAddress : String → Except PyError Address
  /-- What the accounts that are paid do. -/
  script : List EscrowAction := []
  /-- The transfer out of the mother's account goes through. -/
  transferred : Bool := true

/-- The operator's transaction of one call, the accounts it pays doing `script`,
and how the call ended. -/
def transact (d : Deployment) (e : Escrow) (c : EscrowCall) (script : List EscrowAction) :
    Option (Escrow × Option Ending) :=
  let base := [(e, .outside)]
  ((Evm.machine d).runIf (fun s a => decide (Evm.FromAccounts d base s a))
      (Evm.enter d e base d.operator c) script).bind fun t =>
    if t.stack.length = 1 then .some (t.escrow, t.ending) else .none

namespace Rail

variable (rail : Rail)

/-- `HederaEscrowService.release`, from the rows on. -/
def releaseRows (call : PayoutCall) (requestId : String) (x402TxId : Option String) (rows : List HostPayout)
    (w : Treasury) : Option Treasury :=
  match rows.mapM fun row => call.resolveEvmAddress row.hederaAccountId with
  | .error _ => .some w
  | .ok addresses =>
    let amounts := rows.map fun row => row.amountTinybars.toNat
    (transact rail.deployment w.escrow (.release (rail.requestIdToBytes32 requestId) addresses amounts)
        call.script).map fun (escrow, ending) =>
      if ending = .some .returned then { w with escrow, moved := w.moved ++ [⟨requestId, x402TxId, rows⟩] }
      else { w with escrow }

/-- `_run_payout` -/
def runPayout (call : PayoutCall) (w : Treasury) (requestId : String) (x402TxId : Option String) : Option Treasury :=
  if rail.settings.payoutsEnabled = false then .some w
  else match release rail.settings call.hosts rail.settings.costPerLayerTinybars with
    | .some rows => rail.releaseRows call requestId x402TxId rows w
    | .none =>
      match redistribute rail.settings call.resolve call.clock call.hosts w.cache with
      | .error _ cache => .some { w with cache }
      | .ok payments cache =>
        if payments = [] ∨ call.transferred = false then .some { w with cache }
        else .some { w with cache, moved := w.moved ++ [⟨requestId, x402TxId, payments⟩] }

/-- The arguments `internal_payout` calls `_run_payout` with, if it does. -/
def asked (call : PayoutCall) : List (String × Option String) :=
  (internalPayout ⟨"", rail.settings.x402Enabled, 180⟩ (fun _ _ => .ok .none) "" call.headers call.body).payouts

/-- `internal_payout` -/
def internalPayout (call : PayoutCall) (w : Treasury) : Option Treasury :=
  (rail.asked call).foldlM (fun w p => rail.runPayout call w p.1 p.2) w

/-- What one payout of the call is. -/
def payout (call : PayoutCall) (p : String × Option String) : Payout :=
  ⟨p.1, p.2, (dueHosts rail.settings call.hosts).map (hostPayout rail.settings.costPerLayerTinybars)⟩

end Rail

inductive TreasuryAction
  | payout (call : PayoutCall)
  /-- Transactions of the contract that are not the endpoint's. -/
  | transactions (actions : List EscrowAction)

/-- What the actions of a run are to pay, once for each call that is let in. -/
def TreasuryAction.payouts (rail : Rail) : TreasuryAction → List Payout
  | .payout call => (rail.asked call).map (rail.payout call)
  | .transactions _ => []

namespace Treasury

def step (rail : Rail) (w : Treasury) : TreasuryAction → Option Treasury
  | .payout call => rail.internalPayout call w
  | .transactions actions => ((Evm.machine rail.deployment).run ⟨w.escrow, [], .none⟩ actions).bind fun s =>
    if s.stack.isEmpty then .some { w with escrow := s.escrow } else .none

def machine (rail : Rail) : Machine Treasury TreasuryAction := ⟨step rail⟩

end Treasury

/-! ## A call -/

theorem release_eq_some {settings : Settings} {hosts : List HostRecord} {rows : List HostPayout}
    (h : release settings hosts settings.costPerLayerTinybars = .some rows) :
    rows = (dueHosts settings hosts).map (hostPayout settings.costPerLayerTinybars) := by
  rw [release_eq] at h
  split at h
  · next hescrow =>
    rw [dueHosts, if_pos hescrow]
    exact (Option.some.inj h).symm
  · simp at h

/-- What `redistribute` pays where it does not raise. -/
theorem redistribute_eq_ok {settings : Settings} {resolve : Resolve} {clock : ℕ → Int} {hosts : List HostRecord}
    {cache cache' : VerifyCache} {payments : List HostPayout}
    (h : redistribute settings resolve clock hosts cache = .ok payments cache') :
    payments = (dueHosts settings hosts).map (hostPayout settings.costPerLayerTinybars) := by
  unfold redistribute at h
  cases hrelease : release settings hosts settings.costPerLayerTinybars with
  | some rows =>
    simp only [hrelease] at h
    obtain ⟨rfl, -⟩ := EStateM.Result.ok.inj h
    exact release_eq_some hrelease
  | none =>
    simp only [hrelease] at h
    have hdirect : ¬ (settings.escrowEnabled = true ∧ escrowHosts settings hosts ≠ []) := by
      intro hescrow
      simp [release_eq, hescrow] at hrelease
    rw [dueHosts, if_neg hdirect]
    cases hen : settings.payoutsEnabled with
    | false =>
      simp only [hen, if_true] at h
      obtain ⟨rfl, -⟩ := EStateM.Result.ok.inj h
      rfl
    | true =>
      simp only [hen, Bool.true_eq_false, if_false, planPayouts, bind_apply] at h
      cases hv : verifyHostsForPayout settings resolve clock hosts cache with
      | error e cache'' => simp [hv] at h
      | ok _ cache'' =>
        simp only [hv] at h
        obtain ⟨rfl, -⟩ := EStateM.Result.ok.inj h
        exact filter_rows _ _ _

/-- The operator's transaction, from its end. -/
theorem transact_eq_some {d : Deployment} {e e' : Escrow} {requestId : Bytes32} {recipients : List Address}
    {amounts : List ℕ} {script : List EscrowAction} {ending : Option Ending}
    (h : transact d e (.release requestId recipients amounts) script = .some (e', ending)) :
    (ending = .some .returned ∧ ∃ paidIn, Escrow.Releases d requestId recipients amounts e e' paidIn) ∨
      ending ≠ .some .returned ∧ e' = e := by
  obtain ⟨t, hrun, hend⟩ := Option.bind_eq_some_iff.1 h
  have hreach : (Evm.machine d).Reaches (Evm.FromAccounts d [(e, .outside)]) _ t :=
    .of_runIf (fun _ _ _ hcheck => of_decide_eq_true hcheck) hrun
  split at hend
  · next hlen =>
    obtain ⟨rfl, rfl⟩ := Prod.mk.inj (Option.some.inj hend)
    obtain ⟨-, hreturned, hreleases⟩ | ⟨-, hsame, reason, hreverted⟩ :=
      Evm.ended_of_reaches (s := ⟨e, [(e, .outside)], .none⟩) rfl hreach (Nat.le_of_eq hlen)
    · exact .inl ⟨hreturned, hreleases⟩
    · exact .inr ⟨by simp [hreverted], hsame⟩
  · simp at hend

namespace Rail

variable {rail : Rail} {call : PayoutCall} {w w' : Treasury}

/-- The call pays out of the escrow: it is configured, and a host is due there. -/
def OnEscrow (rail : Rail) (call : PayoutCall) : Prop :=
  rail.settings.escrowEnabled = true ∧ escrowHosts rail.settings call.hosts ≠ []

/-- The call paid `payout`: out of the escrow the contract sent each row's account
its amount, and on the other path the money is from the mother's account. -/
structure Pays (rail : Rail) (call : PayoutCall) (payout : Payout) (w w' : Treasury) : Prop where
  moved : w'.moved = w.moved ++ [payout]
  released : rail.OnEscrow call → ∃ addresses paidIn,
    (payout.payments.mapM fun row => call.resolveEvmAddress row.hederaAccountId) = .ok addresses ∧
      Escrow.Releases rail.deployment (rail.requestIdToBytes32 payout.requestId) addresses
        (payout.payments.map fun row => row.amountTinybars.toNat) w.escrow w'.escrow paidIn
  direct : ¬ rail.OnEscrow call → w'.escrow = w.escrow

theorem release_eq_some_iff {rows : List HostPayout} :
    release rail.settings call.hosts rail.settings.costPerLayerTinybars = .some rows ↔ rail.OnEscrow call ∧
      rows = (dueHosts rail.settings call.hosts).map (hostPayout rail.settings.costPerLayerTinybars) := by
  constructor
  · intro h
    refine ⟨?_, release_eq_some h⟩
    by_contra hdirect
    unfold OnEscrow at hdirect
    rw [release_eq, if_neg hdirect] at h
    cases h
  · rintro ⟨hescrow, rfl⟩
    unfold OnEscrow at hescrow
    rw [release_eq, if_pos hescrow, dueHosts, if_pos hescrow]

theorem runPayout_eq_some {p : String × Option String} (h : rail.runPayout call w p.1 p.2 = .some w') :
    w'.moved = w.moved ∧ w'.escrow = w.escrow ∨ rail.Pays call (rail.payout call p) w w' := by
  unfold runPayout at h
  split at h
  · obtain rfl := Option.some.inj h
    exact .inl ⟨rfl, rfl⟩
  split at h
  · next rows hrelease =>
    obtain ⟨hescrow, rfl⟩ := release_eq_some_iff.1 hrelease
    unfold releaseRows at h
    split at h
    · obtain rfl := Option.some.inj h
      exact .inl ⟨rfl, rfl⟩
    · next addresses haddresses =>
      obtain ⟨⟨escrow, ending⟩, htransact, hw'⟩ := Option.map_eq_some_iff.1 h
      obtain ⟨rfl, paidIn, hreleases⟩ | ⟨hreverted, rfl⟩ := transact_eq_some htransact
      · obtain rfl : _ = w' := hw'
        exact .inr ⟨rfl, fun _ => ⟨addresses, paidIn, haddresses, hreleases⟩, fun hdirect => absurd hescrow hdirect⟩
      · simp only [if_neg hreverted] at hw'
        obtain rfl := hw'
        exact .inl ⟨rfl, rfl⟩
  · next hrelease =>
    have hdirect : ¬ rail.OnEscrow call := fun hescrow => by
      simp [release_eq_some_iff.2 ⟨hescrow, rfl⟩] at hrelease
    split at h
    · obtain rfl := Option.some.inj h
      exact .inl ⟨rfl, rfl⟩
    · next payments cache hredistribute =>
      obtain rfl := redistribute_eq_ok hredistribute
      split at h
      · obtain rfl := Option.some.inj h
        exact .inl ⟨rfl, rfl⟩
      · obtain rfl := Option.some.inj h
        exact .inr ⟨rfl, fun hescrow => absurd hescrow hdirect, fun _ => rfl⟩

/-- The endpoint asks for one payout at most. -/
theorem asked_length (rail : Rail) (call : PayoutCall) : (rail.asked call).length ≤ 1 := by
  unfold asked Blitzwing.internalPayout
  split
  · simp
  · split
    · simp
    · simp

/-- What a call of the endpoint does: nothing, or the one payout it asks for. -/
theorem internalPayout_eq_some (h : rail.internalPayout call w = .some w') :
    w'.moved = w.moved ∧ w'.escrow = w.escrow ∨
      ∃ p, rail.asked call = [p] ∧ rail.Pays call (rail.payout call p) w w' := by
  unfold internalPayout at h
  have hone := asked_length rail call
  match hasked : rail.asked call with
  | [] =>
    rw [hasked] at h
    obtain rfl := Option.some.inj h
    exact .inl ⟨rfl, rfl⟩
  | [p] =>
    rw [hasked, List.foldlM_cons] at h
    obtain ⟨w₁, hpay, hend⟩ := Option.bind_eq_some_iff.1 h
    obtain rfl := Option.some.inj hend
    obtain hnothing | hpays := runPayout_eq_some hpay
    · exact .inl hnothing
    · exact .inr ⟨p, rfl, hpays⟩
  | _ :: _ :: _ =>
    rw [hasked] at hone
    simp at hone

end Rail

/-! ## A call whose accounts accept what they are paid -/

/-- Accounts that return at once are paid, one after the other. -/
theorem runIf_transfers {d : Deployment} {saved e : Escrow} {base : List (Escrow × Work)} {requestId : Bytes32}
    {sum : ℕ} {recipients : List Address} {rest : List (Address × ℕ)} (hothers : ∀ p ∈ rest, p.1 ≠ d.self)
    (hle : (rest.map (·.2)).sum ≤ e.balance) :
    (Evm.machine d).runIf (fun s a => decide (Evm.FromAccounts d base s a))
      (Evm.transfers d saved requestId sum recipients rest e base) (List.replicate rest.length .ret) =
        .some ⟨{ e with
          balance := e.balance - (rest.map (·.2)).sum
          events := e.events ++ [.released requestId sum recipients]
          sent := e.sent ++ rest }, base, .some .returned⟩ := by
  induction rest generalizing e with
  | nil =>
    simp only [List.map_nil, List.sum_nil, Nat.sub_zero, List.append_nil]
    rfl
  | cons p rest ih =>
    obtain ⟨recipient, amount⟩ := p
    obtain ⟨hother, hothers⟩ := List.forall_mem_cons.1 hothers
    simp only [List.map_cons, List.sum_cons] at hle ⊢
    let paid : Escrow := { e with balance := e.balance - amount, sent := e.sent ++ [(recipient, amount)] }
    have hsend : e.send d recipient amount = .calling paid := by
      rw [Escrow.send, if_neg (by omega)]
      exact if_neg hother
    have hpaying : Evm.transfers d saved requestId sum recipients ((recipient, amount) :: rest) e base =
        ⟨paid, (e, .outside) :: (saved, .releasing requestId sum recipients rest) :: base, .none⟩ := by
      simp only [Evm.transfers, Escrow.payRest, hsend]
    have hcheck : Evm.FromAccounts d base
        ⟨paid, (e, .outside) :: (saved, .releasing requestId sum recipients rest) :: base, .none⟩ .ret :=
      ⟨by simp only [List.length_cons]; omega, trivial⟩
    have hrest := ih (e := paid) hothers (by show _ ≤ e.balance - amount; omega)
    rw [hpaying, List.length_cons, List.replicate_succ, Machine.runIf, if_pos (decide_eq_true hcheck)]
    simp only [paid, Nat.sub_sub, List.append_assoc, List.singleton_append] at hrest
    exact hrest

theorem transact_accepted {d : Deployment} {e : Escrow} (requestId : Bytes32) {recipients : List Address}
    {amounts : List ℕ} (hlength : recipients.length = amounts.length) (hothers : ∀ a ∈ recipients, a ≠ d.self)
    (hfits : amounts.sum < 2 ^ 256) (hle : amounts.sum ≤ e.balance) :
    ∃ e', transact d e (.release requestId recipients amounts) (List.replicate recipients.length .ret) =
      .some (e', .some .returned) := by
  have hstart : e.startRelease d d.operator requestId recipients amounts =
      .ok (e.debit requestId amounts.sum, amounts.sum) := by
    have hsum := Escrow.sumAmounts_eq_ok.2 ⟨hfits, rfl⟩
    simp only [Escrow.startRelease, ne_eq, not_true_eq_false, if_false, hlength, hsum]
    exact if_neg (Nat.not_lt.2 hle)
  have hzip : (recipients.zip amounts).map (·.2) = amounts := List.map_snd_zip (Nat.le_of_eq hlength.symm)
  have hcount : (recipients.zip amounts).length = recipients.length := by simp [hlength]
  have hbalance : (e.debit requestId amounts.sum).balance = e.balance := Escrow.debit_balance amounts.sum
  let debited := e.debit requestId amounts.sum
  let paid : Escrow := { debited with
    balance := debited.balance - ((recipients.zip amounts).map (·.2)).sum
    events := debited.events ++ [.released requestId amounts.sum recipients]
    sent := debited.sent ++ recipients.zip amounts }
  have hrun : (Evm.machine d).runIf (fun s a => decide (Evm.FromAccounts d [(e, .outside)] s a))
      (Evm.transfers d e requestId amounts.sum recipients (recipients.zip amounts) debited [(e, .outside)])
      (List.replicate (recipients.zip amounts).length .ret) = .some ⟨paid, [(e, .outside)], .some .returned⟩ :=
    runIf_transfers (fun p hp => hothers p.1 (List.of_mem_zip hp).1) (by rw [hzip, hbalance]; exact hle)
  rw [hcount] at hrun
  refine ⟨paid, ?_⟩
  simp only [transact, Evm.enter, hstart, debited] at hrun ⊢
  rw [hrun]
  rfl

/-! ## Runs -/

namespace Rail

variable {rail : Rail} {call : PayoutCall} {w w' : Treasury}

/-- The escrow holds what the call is to pay, and the accounts accept it. -/
def Covers (rail : Rail) (w : Treasury) (call : PayoutCall) : Prop :=
  rail.settings.payoutsEnabled = true ∧ ∃ rows addresses,
    release rail.settings call.hosts rail.settings.costPerLayerTinybars = .some rows ∧
    (rows.mapM fun row => call.resolveEvmAddress row.hederaAccountId) = .ok addresses ∧
    (∀ a ∈ addresses, a ≠ rail.deployment.self) ∧ call.script = List.replicate addresses.length .ret ∧
    (rows.map fun row => row.amountTinybars.toNat).sum < 2 ^ 256 ∧
    (rows.map fun row => row.amountTinybars.toNat).sum ≤ w.escrow.balance

/-- A call that is covered pays, whatever was paid for before. -/
theorem internalPayout_covered (hcovers : rail.Covers w call) {p : String × Option String}
    (hasked : rail.asked call = [p]) :
    ∃ w', rail.internalPayout call w = .some w' ∧ rail.Pays call (rail.payout call p) w w' := by
  obtain ⟨henabled, rows, addresses, hrelease, haddresses, hothers, hscript, hfits, hle⟩ := hcovers
  have hlength : addresses.length = (rows.map fun row => row.amountTinybars.toNat).length := by
    rw [List.length_map]
    exact length_of_mapM haddresses
  obtain ⟨escrow, htransact⟩ := transact_accepted (rail.requestIdToBytes32 p.1) hlength hothers hfits hle
  rw [← hscript] at htransact
  have hpay : rail.internalPayout call w =
      .some { w with escrow, moved := w.moved ++ [⟨p.1, p.2, rows⟩] } := by
    simp [internalPayout, hasked, runPayout, henabled, hrelease, releaseRows, haddresses, htransact]
  refine ⟨_, hpay, ?_⟩
  obtain ⟨hnothing, -⟩ | ⟨q, hq, hpays⟩ := internalPayout_eq_some hpay
  · simp at hnothing
  · obtain rfl : p = q := by simpa [hasked] using hq
    exact hpays

end Rail

namespace Treasury

variable {rail : Rail} {w w' : Treasury}

theorem step_moved {a : TreasuryAction} (h : step rail w a = .some w') :
    ∃ payouts, w'.moved = w.moved ++ payouts ∧ payouts.Sublist (a.payouts rail) := by
  cases a with
  | payout call =>
    obtain ⟨hmoved, -⟩ | ⟨p, hasked, hpays⟩ := Rail.internalPayout_eq_some h
    · exact ⟨[], by simpa using hmoved, List.nil_sublist _⟩
    · refine ⟨[rail.payout call p], hpays.moved, ?_⟩
      simp [TreasuryAction.payouts, hasked]
  | transactions actions =>
    obtain ⟨s, -, hend⟩ := Option.bind_eq_some_iff.1 h
    split at hend
    · obtain rfl := Option.some.inj hend
      exact ⟨[], by simp, List.nil_sublist _⟩
    · simp at hend

/-- Every payout of a run is one a call of it asked for, no two the same one. -/
theorem run_moved {actions : List TreasuryAction} (h : (machine rail).run w actions = .some w') :
    ∃ payouts, w'.moved = w.moved ++ payouts ∧ payouts.Sublist (actions.flatMap (·.payouts rail)) := by
  induction actions generalizing w with
  | nil =>
    obtain rfl := Option.some.inj h
    exact ⟨[], by simp, List.nil_sublist _⟩
  | cons a actions ih =>
    rw [Machine.run_cons] at h
    obtain ⟨w₁, hstep, hrun⟩ := Option.bind_eq_some_iff.1 h
    obtain ⟨first, hfirst, hsub⟩ := step_moved hstep
    obtain ⟨rest, hrest, hsubs⟩ := ih hrun
    refine ⟨first ++ rest, by rw [hrest, hfirst, List.append_assoc], ?_⟩
    exact hsub.append hsubs

/-- **A request is paid at most once for each call, and again with each.** The
payouts of a run are some of those its calls asked for, no two the same one. A
call moves nothing, or its one payout; it pays where the escrow covers it,
whatever was paid for its request before. -/
theorem paid_per_call {actions : List TreasuryAction} (h : (machine rail).run w actions = .some w') :
    (∃ payouts, w'.moved = w.moved ++ payouts ∧ payouts.Sublist (actions.flatMap (·.payouts rail))) ∧
      ∀ call,
        (∀ w'', step rail w' (.payout call) = .some w'' → w''.moved = w'.moved ∧ w''.escrow = w'.escrow ∨
          ∃ p, rail.asked call = [p] ∧ rail.Pays call (rail.payout call p) w' w'') ∧
        (rail.Covers w' call → rail.OnEscrow call ∧ ∀ p, rail.asked call = [p] →
          ∃ w'', step rail w' (.payout call) = .some w'' ∧ rail.Pays call (rail.payout call p) w' w'') := by
  refine ⟨run_moved h, ?_⟩
  intro call
  constructor
  · intro w'' hstep
    exact Rail.internalPayout_eq_some hstep
  · intro hcovers
    have hescrow : rail.OnEscrow call := by
      obtain ⟨-, rows, addresses, hrelease, -⟩ := hcovers
      exact (Rail.release_eq_some_iff.1 hrelease).1
    refine ⟨hescrow, ?_⟩
    intro p hasked
    exact Rail.internalPayout_covered hcovers hasked

/-- An escrow, and a pool that several consumers paid into. -/
def escrowRail : Rail := ⟨escrowSettings false, Evm.deployment, fun _ => 1⟩

def pooled : Treasury := ⟨{ poolBalance := 100, balance := 100 }, .empty, []⟩

/-- A payout of 40 for `chatcmpl-1`. -/
def payoutCall (x402TxId : Option String) : PayoutCall where
  headers := ⟨x402TxId, .some "1"⟩
  body := "\x7b\"request_id\": \"chatcmpl-1\"\x7d"
  hosts := [namelessHost]
  resolve := oneRecord
  clock := fun _ => 0
  resolveEvmAddress := fun _ => .ok 0xc
  script := [.ret]

def firstCall : TreasuryAction := .payout (payoutCall (.some "0.0.5001@1"))

theorem paid_per_call_repeated : ∃ w, (machine escrowRail).run pooled [firstCall] = .some w ∧ w.moved.length = 1 ∧
    escrowRail.OnEscrow (payoutCall .none) ∧ ∃ w', step escrowRail w (.payout (payoutCall .none)) = .some w' ∧
      escrowRail.Pays (payoutCall .none) (escrowRail.payout (payoutCall .none) ("chatcmpl-1", .none)) w w' := by
  have hasked : ∀ tx ∈ [.some "0.0.5001@1", .none], escrowRail.asked (payoutCall tx) = [("chatcmpl-1", tx)] := by
    decide +kernel
  have hfirst : (machine escrowRail).run pooled [firstCall] = .some ⟨
      { poolBalance := 60, balance := 60, events := [.released 1 40 [0xc]], sent := [(0xc, 40)] }, .empty,
      [⟨"chatcmpl-1", .some "0.0.5001@1", [hostPayout 10 namelessHost]⟩]⟩ := by
    show (escrowRail.internalPayout (payoutCall (.some "0.0.5001@1")) pooled).bind .some = _
    rw [Rail.internalPayout, hasked _ (by simp)]
    rfl
  have hamount : ([hostPayout 10 namelessHost].map fun row => row.amountTinybars.toNat).sum = 40 := by decide +kernel
  have hcovers : ∀ w, w.escrow.balance = 60 → escrowRail.Covers w (payoutCall .none) := by
    intro w hbalance
    refine ⟨rfl, [hostPayout 10 namelessHost], [0xc], rfl, rfl, ?_, rfl, ?_, ?_⟩
    · simp [escrowRail, Evm.deployment]
    · rw [hamount]
      omega
    · rw [hamount, hbalance]
      omega
  obtain ⟨hescrow, hpays⟩ := ((paid_per_call hfirst).2 (payoutCall .none)).2 (hcovers _ rfl)
  exact ⟨_, hfirst, rfl, hescrow, hpays _ (hasked .none (by simp))⟩

/-- Two calls with the request id of one settlement, and 80 of the pool gone. -/
theorem paid_again : ((machine escrowRail).run pooled [firstCall, .payout (payoutCall .none)]).map (fun w =>
    (w.moved.map fun p => (p.requestId, p.payments.map (·.amountTinybars)), w.escrow.poolBalance, w.escrow.balance)) =
      .some ([("chatcmpl-1", [40]), ("chatcmpl-1", [40])], 20, 20) := by
  decide +kernel

end Treasury

end Blitzwing
