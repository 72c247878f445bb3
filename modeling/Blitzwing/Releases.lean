/-
What a `release` does, whoever it pays.

An account that is paid has control until it returns, and may call the contract
again. It is not the operator, so its calls of `release` and `refund` revert,
and what it leaves behind is value paid in (`Reacts`). At every moment of such
a call the transfers made and those left are together the ones it was asked for
(`Owes`), so it returns with each of them made, or reverts with nothing changed
(`release_pays_exactly`).
-/
import Blitzwing.Earmarks
import Mathlib.Logic.Relation

namespace Blitzwing

/-- What an event says was paid in. -/
def EscrowEvent.paidIn : EscrowEvent → ℕ
  | .deposited _ _ amount | .poolDeposit _ amount => amount
  | .released _ _ _ | .refunded _ _ _ => 0

/-- What an event says was paid into the pool. -/
def EscrowEvent.pooled : EscrowEvent → ℕ
  | .poolDeposit _ amount => amount
  | .deposited _ _ _ | .released _ _ _ | .refunded _ _ _ => 0

/-- What an event says was locked for a request. -/
def EscrowEvent.lockedFor (requestId : Bytes32) : EscrowEvent → ℕ
  | .deposited id _ amount => if id = requestId then amount else 0
  | .poolDeposit _ _ | .released _ _ _ | .refunded _ _ _ => 0

def EscrowEvent.isDeposit : EscrowEvent → Bool
  | .deposited _ _ _ | .poolDeposit _ _ => true
  | .released _ _ _ | .refunded _ _ _ => false

namespace Escrow

variable {d : Deployment} {e e' now : Escrow} {requestId : Bytes32}

/-- Someone pays in, through `receive` or `deposit`. -/
inductive PaysIn (e e' : Escrow) : Prop
  | receive (sender : Address) (value : ℕ)
      (h : ({ e with balance := e.balance + value } : Escrow).receive sender value = .ok e')
  | deposit (sender : Address) (value : ℕ) (requestId : Bytes32)
      (h : ({ e with balance := e.balance + value } : Escrow).deposit sender value requestId = .ok e')

/-- What an account that is called may leave behind. -/
def Reacts : Escrow → Escrow → Prop := Relation.ReflTransGen PaysIn

/-- The transfers are made, in order. -/
inductive Pays (d : Deployment) : List (Address × ℕ) → Escrow → Escrow → Prop
  | done (e : Escrow) : Pays d [] e e
  /-- What the contract pays itself is in its pool. -/
  | self {amount : ℕ} {rest : List (Address × ℕ)} {e paid e' : Escrow} (hle : amount ≤ e.balance)
      (hreceive : ({ e with sent := e.sent ++ [(d.self, amount)] } : Escrow).receive d.self amount = .ok paid)
      (hrest : Pays d rest paid e') : Pays d ((d.self, amount) :: rest) e e'
  | account {recipient : Address} {amount : ℕ} {rest : List (Address × ℕ)} {e now e' : Escrow}
      (hother : recipient ≠ d.self) (hle : amount ≤ e.balance)
      (hreacts : Reacts { e with balance := e.balance - amount, sent := e.sent ++ [(recipient, amount)] } now)
      (hrest : Pays d rest now e') : Pays d ((recipient, amount) :: rest) e e'

/-- A release that went through: what was sent is each recipient's amount, in
order and nothing else, the sum comes out of the request's lock first and then out of the pool, and what else
changed was paid in meanwhile. -/
structure Releases (d : Deployment) (requestId : Bytes32) (recipients : List Address) (amounts : List ℕ)
    (e e' : Escrow) (paidIn : List EscrowEvent) : Prop where
  length : recipients.length = amounts.length
  pays : ∃ paid, Pays d (recipients.zip amounts) (e.debit requestId amounts.sum) paid ∧
    e' = { paid with events := paid.events ++ [.released requestId amounts.sum recipients] }
  sent : e'.sent = e.sent ++ recipients.zip amounts
  events : e'.events = e.events ++ paidIn ++ [.released requestId amounts.sum recipients]
  deposits : ∀ event ∈ paidIn, event.isDeposit = true
  balance : e'.balance + amounts.sum = e.balance + (paidIn.map EscrowEvent.paidIn).sum
  poolBalance : e'.poolBalance + min e.poolBalance (amounts.sum - min (e.locked.amount requestId) amounts.sum) =
    e.poolBalance + (paidIn.map EscrowEvent.pooled).sum
  locked : e'.locked.amount requestId + min (e.locked.amount requestId) amounts.sum =
    e.locked.amount requestId + (paidIn.map (EscrowEvent.lockedFor requestId)).sum
  others : ∀ other ≠ requestId, e'.locked.amount other =
    e.locked.amount other + (paidIn.map (EscrowEvent.lockedFor other)).sum

/-! ## The books -/

/-- `transfers` were sent, and `paidIn` came in. -/
structure Books (transfers : List (Address × ℕ)) (paidIn : List EscrowEvent) (e e' : Escrow) : Prop where
  sent : e'.sent = e.sent ++ transfers
  events : e'.events = e.events ++ paidIn
  deposits : ∀ event ∈ paidIn, event.isDeposit = true
  balance : e'.balance + (transfers.map (·.2)).sum = e.balance + (paidIn.map EscrowEvent.paidIn).sum
  poolBalance : e'.poolBalance = e.poolBalance + (paidIn.map EscrowEvent.pooled).sum
  locked : ∀ id, e'.locked.amount id = e.locked.amount id + (paidIn.map (EscrowEvent.lockedFor id)).sum

theorem Books.refl (e : Escrow) : Books [] [] e e := ⟨by simp, by simp, by simp, by simp, by simp, by simp⟩

theorem Books.trans {e₁ e₂ e₃ : Escrow} {transfers transfers' : List (Address × ℕ)}
    {paidIn paidIn' : List EscrowEvent} (h : Books transfers paidIn e₁ e₂) (h' : Books transfers' paidIn' e₂ e₃) :
    Books (transfers ++ transfers') (paidIn ++ paidIn') e₁ e₃ where
  sent := by rw [h'.sent, h.sent, List.append_assoc]
  events := by rw [h'.events, h.events, List.append_assoc]
  deposits := by
    intro event hmem
    obtain hmem | hmem := List.mem_append.1 hmem
    · exact h.deposits event hmem
    · exact h'.deposits event hmem
  balance := by
    have h₁ := h.balance
    have h₂ := h'.balance
    rw [List.map_append, List.sum_append, List.map_append, List.sum_append]
    omega
  poolBalance := by
    have h₁ := h.poolBalance
    have h₂ := h'.poolBalance
    rw [List.map_append, List.sum_append]
    omega
  locked := by
    intro id
    have h₁ := h.locked id
    have h₂ := h'.locked id
    rw [List.map_append, List.sum_append]
    omega

theorem PaysIn.books (h : PaysIn e e') : ∃ paidIn, Books [] paidIn e e' := by
  cases h with
  | receive sender value h =>
    obtain ⟨-, rfl⟩ := receive_eq_ok.1 h
    exact ⟨[.poolDeposit sender value], by simp, rfl, by simp [EscrowEvent.isDeposit], rfl, rfl, fun _ => rfl⟩
  | deposit sender value requestId h =>
    obtain rfl := deposit_eq_ok h
    refine ⟨[.deposited requestId sender value], by simp, rfl, by simp [EscrowEvent.isDeposit], rfl, rfl, ?_⟩
    intro id
    show (e.locked.set requestId (e.locked.amount requestId + value)).amount id = _
    by_cases hid : id = requestId
    · subst hid
      simp [Dict.amount_set, EscrowEvent.lockedFor]
    · simp [Dict.amount_set, EscrowEvent.lockedFor, hid, Ne.symm hid]

theorem Reacts.books (h : Reacts e e') : ∃ paidIn, Books [] paidIn e e' := by
  induction h with
  | refl => exact ⟨[], Books.refl e⟩
  | tail _ hpays ih =>
    obtain ⟨before, hbefore⟩ := ih
    obtain ⟨after, hafter⟩ := hpays.books
    exact ⟨before ++ after, hbefore.trans hafter⟩

theorem Pays.books {transfers : List (Address × ℕ)} (h : Pays d transfers e e') :
    ∃ paidIn, Books transfers paidIn e e' := by
  induction h with
  | done e => exact ⟨[], Books.refl e⟩
  | @self amount rest e paid e' hle hreceive _ ih =>
    obtain ⟨-, rfl⟩ := receive_eq_ok.1 hreceive
    obtain ⟨after, hafter⟩ := ih
    have hself : Books [(d.self, amount)] [.poolDeposit d.self amount] e { e with
        poolBalance := e.poolBalance + amount
        events := e.events ++ [.poolDeposit d.self amount]
        sent := e.sent ++ [(d.self, amount)] } :=
      ⟨rfl, rfl, by simp [EscrowEvent.isDeposit], by simp [EscrowEvent.paidIn], rfl, fun _ => rfl⟩
    exact ⟨_, hself.trans hafter⟩
  | @account recipient amount rest e now e' _ hle hreacts _ ih =>
    have hsent : Books [(recipient, amount)] [] e { e with
        balance := e.balance - amount, sent := e.sent ++ [(recipient, amount)] } :=
      ⟨rfl, by simp, by simp, by simp; omega, by simp, by simp⟩
    obtain ⟨meanwhile, hmeanwhile⟩ := hreacts.books
    obtain ⟨after, hafter⟩ := ih
    exact ⟨_, by simpa using hsent.trans (hmeanwhile.trans hafter)⟩

theorem debit_locked (sum : ℕ) (id : Bytes32) : (e.debit requestId sum).locked.amount id =
    if id = requestId then e.locked.amount requestId - sum else e.locked.amount id := by
  simp only [debit, apply_ite Escrow.locked, apply_ite (Dict.amount · id), Dict.amount_set, ite_self]
  by_cases hid : id = requestId
  · subst hid
    simp only [if_true]
    split_ifs <;> omega
  · simp only [if_neg hid, ite_self]

@[simp] theorem debit_events (sum : ℕ) : (e.debit requestId sum).events = e.events := by
  unfold debit
  simp only
  split_ifs <;> rfl

@[simp] theorem debit_sent (sum : ℕ) : (e.debit requestId sum).sent = e.sent := by
  unfold debit
  simp only
  split_ifs <;> rfl

theorem Pays.releases {recipients : List Address} {amounts : List ℕ} (hlength : recipients.length = amounts.length)
    (h : Pays d (recipients.zip amounts) (e.debit requestId amounts.sum) e') :
    ∃ paidIn, Releases d requestId recipients amounts e
      { e' with events := e'.events ++ [.released requestId amounts.sum recipients] } paidIn := by
  obtain ⟨paidIn, hbooks⟩ := h.books
  have hzip : (recipients.zip amounts).map (·.2) = amounts := List.map_snd_zip (Nat.le_of_eq hlength.symm)
  have hbalance := hbooks.balance
  have hpool := hbooks.poolBalance
  have hlocked := hbooks.locked
  simp only [debit_balance, hzip] at hbalance
  simp only [debit_poolBalance] at hpool
  simp only [debit_locked] at hlocked
  refine ⟨paidIn, hlength, ⟨e', h, rfl⟩, ?_, ?_, hbooks.deposits, hbalance, ?_, ?_, ?_⟩
  · show e'.sent = _
    rw [hbooks.sent, debit_sent]
  · show e'.events ++ _ = _
    rw [hbooks.events, debit_events]
  · show e'.poolBalance + _ = _
    omega
  · show e'.locked.amount requestId + _ = _
    have hid := hlocked requestId
    rw [if_pos rfl] at hid
    omega
  · intro other hne
    have hid := hlocked other
    rwa [if_neg hne] at hid

/-! ## The transfers -/

/-- From `now`, with `rest` to pay, all of `transfers` will have been made. -/
def Owes (d : Deployment) (transfers : List (Address × ℕ)) (debited : Escrow) (rest : List (Address × ℕ))
    (now : Escrow) : Prop :=
  ∀ later paid, Reacts now later → Pays d rest later paid → Pays d transfers debited paid

theorem Owes.reacts {transfers rest : List (Address × ℕ)} {debited : Escrow} (h : Owes d transfers debited rest e)
    (hreacts : Reacts e e') : Owes d transfers debited rest e' := by
  intro later paid hlater hrest
  exact h later paid (Relation.ReflTransGen.trans hreacts hlater) hrest

/-- `payRest` makes transfers up to the first account. -/
theorem payRest_pays {sum : ℕ} {recipients : List Address} {rest : List (Address × ℕ)} :
    (e.payRest d requestId sum recipients rest = .ok (e', .none) → ∃ paid, Pays d rest e paid ∧
      e' = { paid with events := paid.events ++ [.released requestId sum recipients] }) ∧
    ∀ before left, e.payRest d requestId sum recipients rest = .ok (e', .some (before, left)) →
      Owes d rest e left e' := by
  induction rest generalizing e with
  | nil =>
    constructor
    · intro hpaid
      obtain ⟨rfl, -⟩ := Prod.mk.inj (Except.ok.inj hpaid)
      exact ⟨e, .done e, rfl⟩
    · intro before left hpaid
      simp [payRest] at hpaid
  | cons p rest ih =>
    obtain ⟨recipient, amount⟩ := p
    rw [payRest]
    cases hsend : e.send d recipient amount with
    | failed => simp
    | returned paid =>
      obtain ⟨rfl, hle, hfits, rfl⟩ := send_eq_returned hsend
      have hreceive : ({ e with sent := e.sent ++ [(d.self, amount)] } : Escrow).receive d.self amount = .ok _ :=
        receive_eq_ok.2 ⟨hfits, rfl⟩
      obtain ⟨hdone, hleft⟩ := ih
      constructor
      · intro hpaid
        obtain ⟨paid, hrest, he'⟩ := hdone hpaid
        exact ⟨paid, .self hle hreceive hrest, he'⟩
      · intro before left hpaid later paid hlater hrest
        exact .self hle hreceive (hleft before left hpaid later paid hlater hrest)
    | calling now =>
      obtain ⟨hother, hle, rfl⟩ := send_eq_calling hsend
      constructor
      · intro hpaid
        simp at hpaid
      · intro before left hpaid later paid hlater hrest
        obtain ⟨rfl, hcalling⟩ := Prod.mk.inj (Except.ok.inj hpaid)
        obtain ⟨rfl, rfl⟩ := Prod.mk.inj (Option.some.inj hcalling)
        exact .account hother hle hlater hrest

/-- What `release` has checked before the first transfer. -/
theorem startRelease_eq_ok {sender : Address} {recipients : List Address} {amounts : List ℕ} {started : Escrow × ℕ}
    (h : e.startRelease d sender requestId recipients amounts = .ok started) :
    sender = d.operator ∧ recipients.length = amounts.length ∧ amounts.sum < 2 ^ 256 ∧
      amounts.sum ≤ e.balance ∧ started = (e.debit requestId amounts.sum, amounts.sum) := by
  unfold startRelease at h
  split at h
  · simp at h
  · next hsender =>
    split at h
    · simp at h
    · next hlength =>
      obtain ⟨total, hsum, hrest⟩ := bind_eq_ok.1 h
      obtain ⟨hfits, rfl⟩ := sumAmounts_eq_ok.1 hsum
      split at hrest
      · simp at hrest
      · next hbalance =>
        exact ⟨not_not.1 hsender, not_not.1 hlength, hfits, Nat.le_of_not_lt hbalance, (Except.ok.inj hrest).symm⟩

end Escrow

/-! ## A call -/

namespace Evm

open Escrow (Pays Owes Reacts PaysIn Releases)

variable {d : Deployment} {e now : Escrow} {base stack : List (Escrow × Work)} {requestId : Bytes32}
  {recipients : List Address} {amounts : List ℕ} {s t : Evm} {a : EscrowAction}

/-- What the accounts a release pays may do before it has returned to `base`.
They are not the operator; a native transfer is a transaction of its own. -/
def FromAccounts (d : Deployment) (base : List (Escrow × Work)) (s : Evm) (a : EscrowAction) : Prop :=
  base.length < s.stack.length ∧
    match a with
    | .native _ => False
    | .call sender _ => sender ≠ d.operator
    | .begin | .ret | .fail => True

/-- An account is paid and has not returned. Whichever of its calls fail, the
transfers made and those left are the ones asked for. -/
def Paying (d : Deployment) (e : Escrow) (base : List (Escrow × Work)) (requestId : Bytes32)
    (recipients : List Address) (amounts : List ℕ) (s : Evm) : Prop :=
  ∃ outs before rest,
    s.stack = outs ++ (before, .outside) :: (e, .releasing requestId amounts.sum recipients rest) :: base ∧
    Owes d (recipients.zip amounts) (e.debit requestId amounts.sum) rest s.escrow ∧
    ∀ frame ∈ outs, frame.2 = .outside ∧
      Owes d (recipients.zip amounts) (e.debit requestId amounts.sum) rest frame.1

/-- The call reverted: all is as before it. -/
def Reverted (e : Escrow) (base : List (Escrow × Work)) (s : Evm) : Prop :=
  s.stack = base ∧ s.escrow = e ∧ ∃ reason, s.ending = .some (.reverted reason)

/-- The release is over: it returned and went through, or it reverted. -/
def Ended (d : Deployment) (e : Escrow) (base : List (Escrow × Work)) (requestId : Bytes32)
    (recipients : List Address) (amounts : List ℕ) (s : Evm) : Prop :=
  (s.stack = base ∧ s.ending = .some .returned ∧
      ∃ paidIn, Releases d requestId recipients amounts e s.escrow paidIn) ∨
    Reverted e base s

theorem transfers_paying {rest : List (Address × ℕ)} (hlength : recipients.length = amounts.length)
    (h : ∀ paid, Pays d rest now paid → Pays d (recipients.zip amounts) (e.debit requestId amounts.sum) paid) :
    Paying d e base requestId recipients amounts (transfers d e requestId amounts.sum recipients rest now base) ∨
      Ended d e base requestId recipients amounts
        (transfers d e requestId amounts.sum recipients rest now base) := by
  unfold transfers
  split
  · exact .inr (.inr ⟨rfl, rfl, _, rfl⟩)
  · next e' hpaid =>
    obtain ⟨paid, hpays, rfl⟩ := Escrow.payRest_pays.1 hpaid
    exact .inr (.inl ⟨rfl, rfl, (h paid hpays).releases hlength⟩)
  · next e' before left hpaid =>
    have howes := Escrow.payRest_pays.2 before left hpaid
    refine .inl ⟨[], before, left, rfl, ?_, by simp⟩
    intro later paid hlater hrest
    exact h paid (howes later paid hlater hrest)

variable (e stack) in
/-- A call of the contract by anyone but the operator. -/
theorem enter_reacts {sender : Address} (hsender : sender ≠ d.operator) (c : EscrowCall) :
    (enter d e stack sender c).stack = stack ∧ Reacts e (enter d e stack sender c).escrow := by
  cases c with
  | receive value =>
    simp only [enter]
    split
    · exact ⟨rfl, .refl⟩
    · next e' h => exact ⟨rfl, .single (.receive sender value h)⟩
  | deposit value requestId =>
    simp only [enter]
    split
    · exact ⟨rfl, .refl⟩
    · next e' h => exact ⟨rfl, .single (.deposit sender value requestId h)⟩
  | release requestId recipients amounts =>
    have hrefused : e.startRelease d sender requestId recipients amounts = .error "only operator" := if_pos hsender
    simp only [enter, hrefused]
    exact ⟨trivial, .refl⟩
  | refund requestId payer =>
    have hrefused : e.startRefund d sender requestId payer = .error "only operator" := if_pos hsender
    simp only [enter, hrefused]
    exact ⟨trivial, .refl⟩

/-- Where outside code is in control below, a return and a failure go no further. -/
theorem resume_outs {now before : Escrow} {stack outs : List (Escrow × Work)}
    (h : ∀ frame ∈ outs, frame.2 = .outside) :
    resume d now (outs ++ (before, .outside) :: stack) = ⟨now, outs ++ (before, .outside) :: stack, .none⟩ ∧
      abort now (outs ++ (before, .outside) :: stack) = ⟨now, outs ++ (before, .outside) :: stack, .none⟩ := by
  cases outs with
  | nil => exact ⟨rfl, rfl⟩
  | cons frame outs =>
    obtain ⟨saved, work⟩ := frame
    obtain rfl : work = .outside := h (saved, work) (by simp)
    exact ⟨rfl, rfl⟩

theorem step_paying (hlength : recipients.length = amounts.length)
    (h : Paying d e base requestId recipients amounts s) (hok : FromAccounts d base s a)
    (hstep : step d s a = .some t) : Paying d e base requestId recipients amounts t ∨
      Ended d e base requestId recipients amounts t := by
  obtain ⟨now, stack, ending⟩ := s
  obtain ⟨outs, before, rest, hstack, howes, houts⟩ := h
  obtain rfl : stack = _ := hstack
  -- Outside code is in control.
  obtain ⟨saved, below, htop⟩ : ∃ saved below, outs ++ (before, Work.outside) ::
      (e, Work.releasing requestId amounts.sum recipients rest) :: base = (saved, .outside) :: below := by
    cases outs with
    | nil => exact ⟨_, _, rfl⟩
    | cons frame outs =>
      obtain ⟨saved, work⟩ := frame
      obtain rfl : work = .outside := (houts (saved, work) (by simp)).1
      exact ⟨_, _, rfl⟩
  cases a with
  | native value => exact hok.2.elim
  | begin =>
    rw [htop] at hstep
    obtain rfl := Option.some.inj hstep
    refine .inl ⟨(now, .outside) :: outs, before, rest, ?_, howes, ?_⟩
    · rw [List.cons_append, htop]
    · intro frame hframe
      obtain rfl | hframe := List.mem_cons.1 hframe
      · exact ⟨rfl, howes⟩
      · exact houts frame hframe
  | call sender c =>
    rw [htop] at hstep
    obtain rfl := Option.some.inj hstep
    obtain ⟨hsame, hreacts⟩ := enter_reacts now ((saved, .outside) :: below) hok.2 c
    exact .inl ⟨outs, before, rest, hsame.trans htop.symm, howes.reacts hreacts, houts⟩
  | ret =>
    cases outs with
    | nil =>
      obtain rfl := Option.some.inj hstep
      refine transfers_paying hlength ?_
      intro paid hpays
      exact howes now paid .refl hpays
    | cons frame outs =>
      obtain ⟨hframe, hbelow⟩ := List.forall_mem_cons.1 houts
      obtain ⟨saved, work⟩ := frame
      obtain rfl : work = .outside := hframe.1
      obtain rfl := Option.some.inj hstep
      show Paying d e base requestId recipients amounts (resume d now (outs ++ _ :: _)) ∨ _
      rw [(resume_outs fun frame hmem => (hbelow frame hmem).1).1]
      exact .inl ⟨outs, before, rest, rfl, howes, hbelow⟩
  | fail =>
    cases outs with
    | nil =>
      obtain rfl := Option.some.inj hstep
      exact .inr (.inr ⟨rfl, rfl, _, rfl⟩)
    | cons frame outs =>
      obtain ⟨hframe, hbelow⟩ := List.forall_mem_cons.1 houts
      obtain ⟨saved, work⟩ := frame
      obtain rfl : work = .outside := hframe.1
      obtain rfl := Option.some.inj hstep
      show Paying d e base requestId recipients amounts (abort saved (outs ++ _ :: _)) ∨ _
      rw [(resume_outs (d := d) fun frame hmem => (hbelow frame hmem).1).2]
      exact .inl ⟨outs, before, rest, rfl, hframe.2, hbelow⟩

/-- The operator's call gets to the first account it pays, or ends at once. -/
theorem call_paying {s₁ : Evm}
    (hcall : step d s (.call d.operator (.release requestId recipients amounts)) = .some s₁) :
    Reverted s.escrow s.stack s₁ ∨ recipients.length = amounts.length ∧ amounts.sum < 2 ^ 256 ∧
      (Paying d s.escrow s.stack requestId recipients amounts s₁ ∨
        Ended d s.escrow s.stack requestId recipients amounts s₁) := by
  obtain ⟨e, base, ending⟩ := s
  obtain ⟨saved, below, rfl⟩ : ∃ saved below, base = (saved, .outside) :: below := by
    cases base with
    | nil => simp [step] at hcall
    | cons top below =>
      obtain ⟨saved, work⟩ := top
      cases work with
      | outside => exact ⟨saved, below, rfl⟩
      | releasing | refunding => simp [step] at hcall
  obtain rfl := Option.some.inj hcall
  simp only [enter]
  cases hstart : e.startRelease d d.operator requestId recipients amounts with
  | error message => exact .inl ⟨rfl, rfl, message, rfl⟩
  | ok started =>
    obtain ⟨-, hlength, hfits, -, rfl⟩ := Escrow.startRelease_eq_ok hstart
    exact .inr ⟨hlength, hfits, transfers_paying hlength fun paid hpays => hpays⟩

/-- Once a call is over, the accounts it paid are not in control. -/
theorem eq_of_reaches {s₁ : Evm} (hstack : s₁.stack = base) (hreach : (machine d).Reaches (FromAccounts d base) s₁ t) :
    t = s₁ := by
  refine hreach.invariant (I := fun t => t = s₁) rfl ?_
  intro s a t hs hok _
  obtain rfl : s = s₁ := hs
  exact absurd hok.1 (by rw [hstack]; exact Nat.lt_irrefl _)

theorem Ended.stack_eq (h : Ended d e base requestId recipients amounts t) : t.stack = base := by
  obtain ⟨hstack, -⟩ | ⟨hstack, -⟩ := h
  · exact hstack
  · exact hstack

/-- Until it is over a release is paying. -/
theorem paying_of_reaches {s₁ : Evm}
    (hcall : step d s (.call d.operator (.release requestId recipients amounts)) = .some s₁)
    (hreach : (machine d).Reaches (FromAccounts d s.stack) s₁ t) :
    Paying d s.escrow s.stack requestId recipients amounts t ∨
      Ended d s.escrow s.stack requestId recipients amounts t := by
  obtain hreverted | ⟨hlength, -, hentered⟩ := call_paying hcall
  · rw [eq_of_reaches hreverted.1 hreach]
    exact .inr (.inr hreverted)
  · refine hreach.invariant (I := fun t => Paying d s.escrow s.stack requestId recipients amounts t ∨
      Ended d s.escrow s.stack requestId recipients amounts t) hentered ?_
    intro s' a t hs' hok hstep
    obtain hpaying | hended := hs'
    · exact step_paying hlength hpaying hok hstep
    · exact absurd hok.1 (by rw [hended.stack_eq]; exact Nat.lt_irrefl _)

theorem Paying.length_stack (h : Paying d e base requestId recipients amounts t) :
    base.length + 2 ≤ t.stack.length := by
  obtain ⟨outs, before, rest, hstack, -, -⟩ := h
  have hlen := congrArg List.length hstack
  simp only [List.length_append, List.length_cons] at hlen
  omega

/-- A release that is back where it was called is over. -/
theorem ended_of_reaches {s₁ : Evm}
    (hcall : step d s (.call d.operator (.release requestId recipients amounts)) = .some s₁)
    (hreach : (machine d).Reaches (FromAccounts d s.stack) s₁ t) (hlen : t.stack.length ≤ s.stack.length) :
    Ended d s.escrow s.stack requestId recipients amounts t := by
  obtain hpaying | hended := paying_of_reaches hcall hreach
  · have := hpaying.length_stack
    omega
  · exact hended

/-- **A release pays exactly, or does nothing.** Where it returned, each
recipient was sent its amount, nothing else was sent, and nothing else changed
but by what the accounts paid in meanwhile; where it reverted, everything is as
before the call. It reverts with lists of two lengths, with a sum that
overflows, and where an account it pays fails. -/
theorem release_pays_exactly {s₁ : Evm}
    (hcall : step d s (.call d.operator (.release requestId recipients amounts)) = .some s₁) :
    (recipients.length ≠ amounts.length ∨ 2 ^ 256 ≤ amounts.sum → Reverted s.escrow s.stack s₁) ∧
      ∀ t, (machine d).Reaches (FromAccounts d s.stack) s₁ t →
        (t.stack = s.stack →
          (t.ending = .some .returned ∧ ∃ paidIn, Releases d requestId recipients amounts s.escrow t.escrow paidIn) ∨
            Reverted s.escrow s.stack t) ∧
          (t.stack.length = s.stack.length + 2 →
            step d t .fail = .some ⟨s.escrow, s.stack, .some (.reverted "transfer failed")⟩) := by
  constructor
  · intro hrefused
    obtain hreverted | ⟨hlength, hfits, -⟩ := call_paying hcall
    · exact hreverted
    · omega
  · intro t hreach
    constructor
    · intro hbase
      obtain ⟨-, hreleased⟩ | hreverted := ended_of_reaches hcall hreach (by rw [hbase])
      · exact .inl hreleased
      · exact .inr hreverted
    · intro hlen
      obtain ⟨outs, before, rest, hstack, -, -⟩ | hended := paying_of_reaches hcall hreach
      · rw [hstack] at hlen
        simp only [List.length_append, List.length_cons] at hlen
        obtain rfl : outs = [] := List.eq_nil_of_length_eq_zero (by omega)
        obtain ⟨now, stack, ending⟩ := t
        obtain rfl : stack = _ := hstack
        rfl
      · rw [hended.stack_eq] at hlen
        omega

instance (d : Deployment) (base : List (Escrow × Work)) (s : Evm) (a : EscrowAction) :
    Decidable (FromAccounts d base s a) :=
  match a with
  | .native _ => inferInstanceAs (Decidable (_ ∧ False))
  | .call sender _ => inferInstanceAs (Decidable (_ ∧ sender ≠ d.operator))
  | .begin | .ret | .fail => inferInstanceAs (Decidable (_ ∧ True))

/-- Request 1 is locked, and 50 are in the pool. -/
def lockedAndPooled : Escrow := { poolBalance := 50, locked := Dict.empty.set 1 100, balance := 150 }

/-- The operator's transaction. -/
def operating : List (Escrow × Work) := [(lockedAndPooled, .outside)]

/-- Paid 40, an account pays 5 in, tries to release and to refund, and returns;
paid 60, it locks 7 in a call of its own and another 8 in one that fails. -/
def reentering : List EscrowAction :=
  [.call 0xc (.receive 5), .call 0xc (.release 1 [0xc] [50]), .call 0xc (.refund 1 0xc), .ret,
    .begin, .call 0xc (.deposit 7 1), .ret, .begin, .call 0xc (.deposit 8 1), .fail, .ret]

theorem release_pays_exactly_reentered : ∃ s₁ t paidIn,
    step deployment ⟨lockedAndPooled, operating, .none⟩
        (.call deployment.operator (.release 1 [0xc, 0xe5c, 0xc] [40, 10, 60])) = .some s₁ ∧
      (machine deployment).Reaches (FromAccounts deployment operating) s₁ t ∧ t.ending = .some .returned ∧
        t.escrow.balance = 62 ∧ t.escrow.sent = [(0xc, 40), (0xe5c, 10), (0xc, 60)] ∧
          Releases deployment 1 [0xc, 0xe5c, 0xc] [40, 10, 60] lockedAndPooled t.escrow paidIn := by
  have hreach : (machine deployment).Reaches (FromAccounts deployment operating) (enter deployment lockedAndPooled
      operating deployment.operator (.release 1 [0xc, 0xe5c, 0xc] [40, 10, 60])) _ :=
    .of_runIf (fun a (_ : a ∈ reentering) s h => of_decide_eq_true (p := FromAccounts deployment operating s a) h) rfl
  obtain ⟨hreturned, paidIn, hreleases⟩ | ⟨-, hsame, -⟩ := ((release_pays_exactly
    (s := ⟨lockedAndPooled, operating, .none⟩) rfl).2 _ hreach).1 rfl
  · exact ⟨_, _, paidIn, rfl, hreach, hreturned, rfl, rfl, hreleases⟩
  · exact absurd (congrArg Escrow.balance hsame) (by decide)

end Evm

end Blitzwing
