/-
What backs the deposits of `BlitzwingEscrow`.

`release` compares its sum with the live balance alone, locks of other
requests included, so it can pay one request out of another's deposit
(`release_spends_a_lock`). Where every release leaves in the balance what is
locked for the other requests and what calls in progress have still to pay
(`Spares`), the pool and the locks stay backed whatever else is called, from
wherever, and every refund goes through (`backed_of_reaches`).
-/
import Blitzwing.Escrow
import Blitzwing.Lib.Raise

namespace Blitzwing

/-- What a call in progress has still to pay. -/
def Work.owed : Work → ℕ
  | .releasing _ _ _ rest => (rest.map (·.2)).sum
  | .outside | .refunding _ _ _ => 0

def owed (works : List Work) : ℕ := (works.map Work.owed).sum

/-- The balance covers the pool, the locks and what is still to pay. -/
def Escrow.Backs (works : List Work) (e : Escrow) : Prop := e.poolBalance + e.locked.total + owed works ≤ e.balance

/-- A release that passes its checks leaves in the balance what is locked for
other requests and what calls in progress have still to pay. -/
def Spares (d : Deployment) (s : Evm) : EscrowAction → Prop
  | .call sender (.release requestId recipients amounts) =>
    sender = d.operator → recipients.length = amounts.length → amounts.sum ≤ s.escrow.balance →
      amounts.sum + (s.escrow.locked.erase requestId).total + owed (Rollback.works s.stack) ≤ s.escrow.balance
  | _ => True

@[simp] theorem owed_outside (works : List Work) : owed (.outside :: works) = owed works := by
  simp [owed, Work.owed]

@[simp] theorem owed_refunding (requestId : Bytes32) (payer : Address) (amount : ℕ) (works : List Work) :
    owed (.refunding requestId payer amount :: works) = owed works := by
  simp [owed, Work.owed]

@[simp] theorem owed_releasing (requestId : Bytes32) (sum : ℕ) (recipients : List Address)
    (rest : List (Address × ℕ)) (works : List Work) :
    owed (.releasing requestId sum recipients rest :: works) = (rest.map (·.2)).sum + owed works := by
  simp [owed, Work.owed]

/-! ## The functions -/

namespace Escrow

variable {d : Deployment} {e e' : Escrow} {sender : Address} {requestId : Bytes32}

theorem checkedAdd_eq_ok {a b c : ℕ} : checkedAdd a b = .ok c ↔ a + b < 2 ^ 256 ∧ c = a + b := by
  unfold checkedAdd
  split
  · next h =>
    constructor
    · intro hc
      exact ⟨h, (Except.ok.inj hc).symm⟩
    · intro hc
      rw [hc.2]
  · next h =>
    constructor
    · intro hc
      simp at hc
    · intro hc
      exact absurd hc.1 h

theorem receive_eq_ok {value : ℕ} : e.receive sender value = .ok e' ↔ e.poolBalance + value < 2 ^ 256 ∧
    e' = { e with poolBalance := e.poolBalance + value, events := e.events ++ [.poolDeposit sender value] } := by
  unfold receive
  rw [bind_eq_ok]
  constructor
  · intro h
    obtain ⟨poolBalance, hadd, he'⟩ := h
    obtain ⟨hfits, rfl⟩ := checkedAdd_eq_ok.1 hadd
    exact ⟨hfits, (Except.ok.inj he').symm⟩
  · intro h
    obtain ⟨hfits, rfl⟩ := h
    exact ⟨_, checkedAdd_eq_ok.2 ⟨hfits, rfl⟩, rfl⟩

theorem deposit_eq_ok {value : ℕ} (h : e.deposit sender value requestId = .ok e') :
    e' = { e with
      locked := e.locked.set requestId (e.locked.amount requestId + value)
      events := e.events ++ [.deposited requestId sender value] } := by
  unfold deposit at h
  split at h
  · simp at h
  · obtain ⟨held, hadd, he'⟩ := bind_eq_ok.1 h
    obtain ⟨-, rfl⟩ := checkedAdd_eq_ok.1 hadd
    exact (Except.ok.inj he').symm

theorem sumAmounts_eq_ok {amounts : List ℕ} {sum : ℕ} :
    sumAmounts amounts = .ok sum ↔ amounts.sum < 2 ^ 256 ∧ sum = amounts.sum := by
  have hfold : ∀ (amounts : List ℕ) (start : ℕ), start < 2 ^ 256 → (amounts.foldlM checkedAdd start = .ok sum ↔
      start + amounts.sum < 2 ^ 256 ∧ sum = start + amounts.sum) := by
    intro amounts
    induction amounts with
    | nil =>
      intro start hstart
      constructor
      · intro h
        exact ⟨hstart, (Except.ok.inj h).symm⟩
      · intro h
        rw [h.2]
        rfl
    | cons amount amounts ih =>
      intro start hstart
      rw [List.foldlM_cons, bind_eq_ok, List.sum_cons]
      constructor
      · intro h
        obtain ⟨next, hadd, hrest⟩ := h
        obtain ⟨hfits, rfl⟩ := checkedAdd_eq_ok.1 hadd
        have hsum := (ih _ hfits).1 hrest
        omega
      · intro h
        have hfits : start + amount < 2 ^ 256 := by omega
        exact ⟨start + amount, checkedAdd_eq_ok.2 ⟨hfits, rfl⟩, (ih _ hfits).2 (by omega)⟩
  have hsum := hfold amounts 0 (by decide)
  rwa [Nat.zero_add] at hsum

/-- The contract paid itself: the amount is in the pool. -/
theorem send_eq_returned {recipient : Address} {amount : ℕ} (h : e.send d recipient amount = .returned e') :
    recipient = d.self ∧ amount ≤ e.balance ∧ e.poolBalance + amount < 2 ^ 256 ∧
      e' = { e with
        poolBalance := e.poolBalance + amount
        events := e.events ++ [.poolDeposit d.self amount]
        sent := e.sent ++ [(d.self, amount)] } := by
  unfold send at h
  split at h
  · simp at h
  · next hbalance =>
    dsimp only at h
    split at h
    · next hself =>
      split at h
      · next e'' hreceive =>
        obtain rfl := Sent.returned.inj h
        obtain ⟨hfits, he'⟩ := receive_eq_ok.1 hreceive
        subst hself
        exact ⟨rfl, by omega, hfits, he'⟩
      · simp at h
    · simp at h

/-- The account was paid. -/
theorem send_eq_calling {recipient : Address} {amount : ℕ} (h : e.send d recipient amount = .calling e') :
    recipient ≠ d.self ∧ amount ≤ e.balance ∧
      e' = { e with balance := e.balance - amount, sent := e.sent ++ [(recipient, amount)] } := by
  unfold send at h
  split at h
  · simp at h
  · next hbalance =>
    dsimp only at h
    split at h
    · split at h <;> simp at h
    · next hself => exact ⟨hself, by omega, (Sent.calling.inj h).symm⟩

@[simp] theorem debit_balance (sum : ℕ) : (e.debit requestId sum).balance = e.balance := by
  unfold debit
  simp only
  split_ifs <;> rfl

theorem debit_poolBalance (sum : ℕ) :
    (e.debit requestId sum).poolBalance = e.poolBalance - (sum - e.locked.amount requestId) := by
  simp only [debit, apply_ite Escrow.poolBalance]
  split_ifs <;> omega

theorem debit_total (sum : ℕ) : (e.debit requestId sum).locked.total =
    (e.locked.erase requestId).total + (e.locked.amount requestId - sum) := by
  have hsplit := e.locked.total_erase requestId
  have hset := e.locked.total_set requestId
  simp only [debit, apply_ite Escrow.locked, apply_ite Dict.total, hset]
  split_ifs <;> omega

/-- What `refund` does where it does not revert. -/
theorem startRefund_eq_ok {payer : Address} {outcome : Option (Escrow × ℕ)}
    (h : e.startRefund d sender requestId payer = .ok (e', outcome)) :
    let amount := e.locked.amount requestId
    let freed : Escrow := { e with locked := e.locked.set requestId 0 }
    (outcome = .none ∧ ∃ paid, freed.send d payer amount = .returned paid ∧
        e' = paid.finishRefund requestId payer amount) ∨
      outcome = .some (freed, amount) ∧ freed.send d payer amount = .calling e' := by
  unfold startRefund at h
  split at h
  · simp at h
  · simp only at h
    split at h
    · simp at h
    · cases hsend : ({ e with locked := e.locked.set requestId 0 } : Escrow).send d payer
          (e.locked.amount requestId) with
      | failed => simp [hsend] at h
      | returned paid =>
        simp only [hsend] at h
        obtain ⟨rfl, rfl⟩ := Prod.mk.inj (Except.ok.inj h)
        exact .inl ⟨rfl, paid, hsend, rfl⟩
      | calling paid =>
        simp only [hsend] at h
        obtain ⟨rfl, rfl⟩ := Prod.mk.inj (Except.ok.inj h)
        exact .inr ⟨rfl, hsend⟩

/-- After a release is debited its sum is covered exactly where it spares the
locks of the other requests and the debts of the calls in progress. -/
theorem debit_backs_iff {works : List Work} (h : e.Backs works) (sum : ℕ) :
    (e.debit requestId sum).poolBalance + (e.debit requestId sum).locked.total + (sum + owed works) ≤ e.balance ↔
      sum + (e.locked.erase requestId).total + owed works ≤ e.balance := by
  have hsplit := e.locked.total_erase requestId
  rw [debit_poolBalance, debit_total]
  unfold Backs at h
  omega

theorem payRest_backs {works : List Work} {sum : ℕ} {recipients : List Address} {rest : List (Address × ℕ)}
    (h : e.poolBalance + e.locked.total + ((rest.map (·.2)).sum + owed works) ≤ e.balance) :
    (e.payRest d requestId sum recipients rest = .ok (e', .none) → e'.Backs works) ∧
      ∀ before left, e.payRest d requestId sum recipients rest = .ok (e', .some (before, left)) →
        e'.Backs (.releasing requestId sum recipients left :: works) ∧
          before.Backs (.releasing requestId sum recipients left :: works) := by
  induction rest generalizing e with
  | nil =>
    simp only [List.map_nil, List.sum_nil] at h
    constructor
    · intro hpaid
      obtain ⟨rfl, -⟩ := Prod.mk.inj (Except.ok.inj hpaid)
      show e.poolBalance + e.locked.total + owed works ≤ e.balance
      omega
    · intro before left hpaid
      simp [payRest] at hpaid
  | cons p rest ih =>
    obtain ⟨recipient, amount⟩ := p
    simp only [List.map_cons, List.sum_cons] at h
    rw [payRest]
    cases hsend : e.send d recipient amount with
    | failed => simp
    | returned paid =>
      obtain ⟨-, -, -, rfl⟩ := send_eq_returned hsend
      apply ih
      show e.poolBalance + amount + e.locked.total + ((rest.map (·.2)).sum + owed works) ≤ e.balance
      omega
    | calling paid =>
      obtain ⟨-, hle, rfl⟩ := send_eq_calling hsend
      constructor
      · intro hpaid
        simp at hpaid
      · intro before left hpaid
        obtain ⟨rfl, hleft⟩ := Prod.mk.inj (Except.ok.inj hpaid)
        obtain ⟨rfl, rfl⟩ := Prod.mk.inj (Option.some.inj hleft)
        simp only [Backs, owed_releasing]
        omega

end Escrow

/-! ## A step -/

namespace Evm

variable {d : Deployment} {e saved : Escrow} {stack : List (Escrow × Work)} {ending : Option Ending} {s t : Evm}
  {a : EscrowAction}

/-- Every state that may come back is covered. -/
def Covered (s : Evm) : Prop := Rollback.Covered (fun works e => e.Backs works) s.escrow s.stack

theorem transfers_covered {requestId : Bytes32} {sum : ℕ} {recipients : List Address} {rest : List (Address × ℕ)}
    (hsaved : Covered ⟨saved, stack, .none⟩)
    (h : e.poolBalance + e.locked.total + ((rest.map (·.2)).sum + owed (Rollback.works stack)) ≤ e.balance) :
    Covered (transfers d saved requestId sum recipients rest e stack) := by
  unfold transfers
  split
  · exact hsaved
  · next e' hpaid => exact hsaved.update ((Escrow.payRest_backs h).1 hpaid)
  · next e' before left hpaid =>
    obtain ⟨hnow, hbefore⟩ := (Escrow.payRest_backs h).2 before left hpaid
    refine Rollback.Covered.push (Rollback.Covered.push hsaved hbefore) ?_
    simpa [Escrow.Backs] using hnow

/-- The account that was called returned. -/
theorem resume_covered (h : Covered ⟨e, stack, .none⟩) : Covered (resume d e stack) := by
  cases stack with
  | nil => exact h
  | cons top stack =>
    obtain ⟨saved, work⟩ := top
    cases work with
    | outside => exact h
    | releasing requestId sum recipients rest =>
      have hnow := Rollback.Covered.now h
      refine transfers_covered h.undo ?_
      simpa [Escrow.Backs] using hnow
    | refunding requestId payer amount =>
      have hnow := Rollback.Covered.now h
      have hfinished : (e.finishRefund requestId payer amount).Backs (Rollback.works stack) := by
        simpa [Escrow.Backs, Escrow.finishRefund] using hnow
      exact Rollback.Covered.pop h hfinished

theorem abort_covered (h : Covered ⟨saved, stack, .none⟩) : Covered (abort saved stack) := by
  cases stack with
  | nil => exact h
  | cons top stack =>
    obtain ⟨before, work⟩ := top
    cases work with
    | outside => exact h
    | releasing requestId sum recipients rest => exact h.undo
    | refunding requestId payer amount => exact h.undo

theorem release_covered {sender : Address} {requestId : Bytes32} {recipients : List Address} {amounts : List ℕ}
    (h : Covered ⟨e, stack, ending⟩)
    (hok : Spares d ⟨e, stack, ending⟩ (.call sender (.release requestId recipients amounts))) :
    Covered (enter d e stack sender (.release requestId recipients amounts)) := by
  simp only [enter]
  cases hstart : e.startRelease d sender requestId recipients amounts with
  | error message => exact h
  | ok started =>
    obtain ⟨debited, sum⟩ := started
    unfold Escrow.startRelease at hstart
    split at hstart
    · simp at hstart
    · next hsender =>
      split at hstart
      · simp at hstart
      · next hlength =>
        obtain ⟨total, hsum, hrest⟩ := bind_eq_ok.1 hstart
        split at hrest
        · simp at hrest
        · next hbalance =>
          obtain ⟨rfl, rfl⟩ := Prod.mk.inj (Except.ok.inj hrest)
          obtain ⟨-, rfl⟩ := Escrow.sumAmounts_eq_ok.1 hsum
          have hspares := hok (not_not.1 hsender) (not_not.1 hlength) (Nat.le_of_not_lt hbalance)
          have hcovered := (Escrow.debit_backs_iff (Rollback.Covered.now h) amounts.sum).2 hspares
          have hzip : (recipients.zip amounts).map (·.2) = amounts :=
            List.map_snd_zip (Nat.le_of_eq (not_not.1 hlength).symm)
          refine transfers_covered h ?_
          rw [hzip, Escrow.debit_balance]
          exact hcovered

theorem refund_covered {sender : Address} {requestId : Bytes32} {payer : Address} (h : Covered ⟨e, stack, ending⟩) :
    Covered (enter d e stack sender (.refund requestId payer)) := by
  have hnow : e.Backs (Rollback.works stack) := Rollback.Covered.now h
  have hsplit := e.locked.total_erase requestId
  have hset := e.locked.total_set requestId 0
  unfold Escrow.Backs at hnow
  simp only [enter]
  cases hstart : e.startRefund d sender requestId payer with
  | error message => exact h
  | ok started =>
    obtain ⟨e', outcome⟩ := started
    obtain ⟨rfl, paid, hsend, rfl⟩ | ⟨rfl, hsend⟩ := Escrow.startRefund_eq_ok hstart
    · obtain ⟨-, hle, -, rfl⟩ := Escrow.send_eq_returned hsend
      refine Rollback.Covered.update h ?_
      show e.poolBalance + e.locked.amount requestId + (e.locked.set requestId 0).total +
        owed (Rollback.works stack) ≤ e.balance
      omega
    · obtain ⟨-, hle, rfl⟩ := Escrow.send_eq_calling hsend
      have hfreed : ({ e with locked := e.locked.set requestId 0 } : Escrow).Backs
          (.refunding requestId payer (e.locked.amount requestId) :: Rollback.works stack) := by
        rw [Escrow.Backs, owed_refunding]
        show e.poolBalance + (e.locked.set requestId 0).total + owed (Rollback.works stack) ≤ e.balance
        omega
      refine Rollback.Covered.push (Rollback.Covered.push h hfreed) ?_
      rw [Escrow.Backs, owed_outside, Rollback.works_cons, owed_refunding]
      show e.poolBalance + (e.locked.set requestId 0).total + owed (Rollback.works stack) ≤
        e.balance - e.locked.amount requestId
      omega

/-- Money that comes in is in the pool, in a lock, or in neither. -/
theorem payIn_covered {sender : Address} (h : Covered ⟨e, stack, ending⟩) :
    (∀ value, Covered (enter d e stack sender (.receive value))) ∧
      ∀ value requestId, Covered (enter d e stack sender (.deposit value requestId)) := by
  have hnow : e.Backs (Rollback.works stack) := Rollback.Covered.now h
  unfold Escrow.Backs at hnow
  constructor
  · intro value
    simp only [enter]
    cases hreceive : ({ e with balance := e.balance + value } : Escrow).receive sender value with
    | error message => exact h
    | ok e' =>
      obtain ⟨-, rfl⟩ := Escrow.receive_eq_ok.1 hreceive
      refine Rollback.Covered.update h ?_
      show e.poolBalance + value + e.locked.total + owed (Rollback.works stack) ≤ e.balance + value
      omega
  · intro value requestId
    have hsplit := e.locked.total_erase requestId
    have hset := e.locked.total_set requestId (e.locked.amount requestId + value)
    simp only [enter]
    cases hdeposit : ({ e with balance := e.balance + value } : Escrow).deposit sender value requestId with
    | error message => exact h
    | ok e' =>
      obtain rfl := Escrow.deposit_eq_ok hdeposit
      refine Rollback.Covered.update h ?_
      show e.poolBalance + (e.locked.set requestId (e.locked.amount requestId + value)).total +
        owed (Rollback.works stack) ≤ e.balance + value
      omega

/-- **A step keeps everything covered**, a release where it `Spares`. -/
theorem step_covered (h : Covered s) (hok : Spares d s a) (hstep : step d s a = .some t) : Covered t := by
  obtain ⟨e, stack, ending⟩ := s
  have hnow : e.Backs (Rollback.works stack) := Rollback.Covered.now h
  cases a with
  | native value =>
    obtain rfl := Option.some.inj hstep
    refine Rollback.Covered.update h ?_
    show e.poolBalance + e.locked.total + owed (Rollback.works stack) ≤ e.balance + value
    unfold Escrow.Backs at hnow
    omega
  | begin =>
    have hpush : Covered ⟨e, (e, .outside) :: stack, .none⟩ :=
      Rollback.Covered.push h (by simpa [Escrow.Backs] using hnow)
    cases stack with
    | nil =>
      obtain rfl := Option.some.inj hstep
      exact hpush
    | cons top stack =>
      obtain ⟨saved, work⟩ := top
      cases work with
      | outside =>
        obtain rfl := Option.some.inj hstep
        exact hpush
      | releasing | refunding => simp [step] at hstep
  | call sender c =>
    cases stack with
    | nil => simp [step] at hstep
    | cons top stack =>
      obtain ⟨saved, work⟩ := top
      cases work with
      | releasing | refunding => simp [step] at hstep
      | outside =>
        obtain rfl := Option.some.inj hstep
        cases c with
        | receive value => exact (payIn_covered h).1 value
        | deposit value requestId => exact (payIn_covered h).2 value requestId
        | release requestId recipients amounts => exact release_covered h hok
        | refund requestId payer => exact refund_covered h
  | ret =>
    cases stack with
    | nil => simp [step] at hstep
    | cons top stack =>
      obtain ⟨saved, work⟩ := top
      cases work with
      | releasing | refunding => simp [step] at hstep
      | outside =>
        obtain rfl := Option.some.inj hstep
        exact resume_covered (Rollback.Covered.pop h (by simpa [Escrow.Backs] using hnow))
  | fail =>
    cases stack with
    | nil => simp [step] at hstep
    | cons top stack =>
      obtain ⟨saved, work⟩ := top
      cases work with
      | releasing | refunding => simp [step] at hstep
      | outside =>
        obtain rfl := Option.some.inj hstep
        exact abort_covered h.undo

/-- The contract, just deployed to an address with `balance` on it. -/
def deployed (balance : ℕ) : Evm := ⟨{ balance }, [], .none⟩

theorem covered_of_reaches {balance : ℕ} (h : (machine d).Reaches (Spares d) (deployed balance) s) : Covered s := by
  refine h.invariant ?_ fun hs hok hstep => step_covered hs hok hstep
  show 0 + 0 + 0 ≤ balance
  omega

/-! ## Refunds -/

/-- The operator's `refund` goes through between transactions: the payer gets
the locked amount, and the refund is done once the payer's code returns,
whatever it did. The contract itself accepts what its pool has room for. -/
def Refunds (d : Deployment) (s : Evm) (requestId : Bytes32) (payer : Address) : Prop :=
  let amount := s.escrow.locked.amount requestId
  let freed := s.escrow.locked.set requestId 0
  if payer = d.self then
    s.escrow.poolBalance + amount < 2 ^ 256 →
      (machine d).run s [.begin, .call d.operator (.refund requestId payer), .ret] = .some ⟨{ s.escrow with
        poolBalance := s.escrow.poolBalance + amount
        locked := freed
        events := s.escrow.events ++ [.poolDeposit d.self amount] ++ [.refunded requestId payer amount]
        sent := s.escrow.sent ++ [(payer, amount)] }, [], .none⟩
  else
    ∃ paid, (machine d).run s [.begin, .call d.operator (.refund requestId payer)] = .some paid ∧
      paid.escrow = { s.escrow with
          locked := freed, balance := s.escrow.balance - amount, sent := s.escrow.sent ++ [(payer, amount)] } ∧
        ∀ e, step d ⟨e, paid.stack, .none⟩ .ret =
          .some ⟨e.finishRefund requestId payer amount, [(s.escrow, .outside)], .some .returned⟩

theorem refunds_of_le {requestId : Bytes32} (hidle : s.stack = []) (hpos : 0 < s.escrow.locked.amount requestId)
    (hle : s.escrow.locked.amount requestId ≤ s.escrow.balance) (payer : Address) : Refunds d s requestId payer := by
  obtain ⟨e, stack, ending⟩ := s
  obtain rfl : stack = [] := hidle
  have hne : e.locked.amount requestId ≠ 0 := Nat.ne_of_gt hpos
  have hfunds : ¬ e.balance < e.locked.amount requestId := Nat.not_lt.2 hle
  have hcall : (machine d).run ⟨e, [], ending⟩ [.begin, .call d.operator (.refund requestId payer)] =
      .some (enter d e [(e, .outside)] d.operator (.refund requestId payer)) := rfl
  by_cases hself : payer = d.self
  · simp only [Refunds, if_pos hself]
    intro hroom
    subst hself
    have hreceive : ({ e with
          locked := e.locked.set requestId 0
          sent := e.sent ++ [(d.self, e.locked.amount requestId)] } : Escrow).receive d.self
        (e.locked.amount requestId) = .ok { e with
          poolBalance := e.poolBalance + e.locked.amount requestId
          locked := e.locked.set requestId 0
          events := e.events ++ [.poolDeposit d.self (e.locked.amount requestId)]
          sent := e.sent ++ [(d.self, e.locked.amount requestId)] } :=
      Escrow.receive_eq_ok.2 ⟨hroom, rfl⟩
    show ((machine d).step (enter d e [(e, .outside)] d.operator (.refund requestId d.self)) .ret).bind .some = _
    have henter : enter d e [(e, .outside)] d.operator (.refund requestId d.self) = ⟨{ e with
        poolBalance := e.poolBalance + e.locked.amount requestId
        locked := e.locked.set requestId 0
        events := e.events ++ [.poolDeposit d.self (e.locked.amount requestId)] ++
          [.refunded requestId d.self (e.locked.amount requestId)]
        sent := e.sent ++ [(d.self, e.locked.amount requestId)] }, [(e, .outside)], .some .returned⟩ := by
      simp [enter, Escrow.startRefund, Escrow.send, hne, hfunds, hreceive, Escrow.finishRefund]
    rw [henter]
    rfl
  · simp only [Refunds, if_neg hself]
    have hstart : e.startRefund d d.operator requestId payer = .ok
        ({ e with
            locked := e.locked.set requestId 0
            balance := e.balance - e.locked.amount requestId
            sent := e.sent ++ [(payer, e.locked.amount requestId)] },
          .some ({ e with locked := e.locked.set requestId 0 }, e.locked.amount requestId)) := by
      simp [Escrow.startRefund, Escrow.send, hne, hfunds, hself]
    refine ⟨_, hcall, ?_, ?_⟩
    · simp only [enter, hstart]
    · intro e'
      simp only [enter, hstart]
      rfl

/-- **What a run leaves backed.** Where every release spares what is locked for
others and still owed, the pool and the locks are in the balance between
transactions, and every lock can be refunded. -/
theorem backed_of_reaches {balance : ℕ} (h : (machine d).Reaches (Spares d) (deployed balance) s)
    (hidle : s.stack = []) : s.escrow.poolBalance + s.escrow.locked.total ≤ s.escrow.balance ∧
      ∀ requestId payer, 0 < s.escrow.locked.amount requestId → Refunds d s requestId payer := by
  have hnow := (covered_of_reaches h).now
  rw [hidle] at hnow
  have hbacked : s.escrow.poolBalance + s.escrow.locked.total + 0 ≤ s.escrow.balance := hnow
  refine ⟨hbacked, ?_⟩
  intro requestId payer hpos
  have hle := s.escrow.locked.amount_le_total requestId
  exact refunds_of_le hidle hpos (by omega) payer

def deployment : Deployment := ⟨0xe5c, 0x0b, by decide⟩

/-- Request 1 is locked, and a payment without an id is in the pool. -/
def payingIn : List EscrowAction := [.begin, .call 0xa (.deposit 100 1), .call 0xa (.receive 50)]

/-- The account that is paid pays some of it back before it returns. -/
def payingBack : List EscrowAction := [.call 0xb (.receive 5), .ret, .ret]

theorem backed_of_reaches_paid_back : ∃ s : Evm, s.escrow.locked.amount 1 = 100 ∧ s.escrow.balance = 105 ∧
    s.escrow.poolBalance + s.escrow.locked.total ≤ s.escrow.balance ∧ Refunds deployment s 1 0xa := by
  have hin : (machine deployment).Reaches (Spares deployment) (deployed 0) _ :=
    .of_run (by simp [payingIn, Spares] : ∀ a ∈ payingIn, ∀ s, Spares deployment s a) rfl
  have hrelease : (machine deployment).Reaches (Spares deployment) (deployed 0) _ :=
    .step hin (a := .call 0x0b (.release 2 [0xb] [50])) (fun _ _ _ => by decide) rfl
  have hback : (machine deployment).Reaches (Spares deployment) (deployed 0) _ :=
    hrelease.trans (.of_run (by simp [payingBack, Spares] : ∀ a ∈ payingBack, ∀ s, Spares deployment s a) rfl)
  obtain ⟨hbacked, hrefunds⟩ := backed_of_reaches hback rfl
  exact ⟨_, rfl, rfl, hbacked, hrefunds 1 0xa (by decide)⟩

/-! ## A release out of another request's lock -/

/-- Request 1 is locked, and request 2, which nobody paid for, is released. -/
def spending : List EscrowAction :=
  [.begin, .call 0xa (.deposit 100 1), .ret,
    .begin, .call 0x0b (.release 2 [0xb] [100]), .ret, .ret]

/-- Nothing is left for request 1, whose lock is as it was: its refund reverts. -/
theorem release_spends_a_lock : ∃ s, (machine deployment).run (deployed 0) spending = .some s ∧ s.stack = [] ∧
    ¬ s.escrow.poolBalance + s.escrow.locked.total ≤ s.escrow.balance ∧ s.escrow.locked.amount 1 = 100 ∧
      (machine deployment).run s [.begin, .call 0x0b (.refund 1 0xa)] = .some
        ⟨s.escrow, [(s.escrow, .outside)], .some (.reverted "refund failed")⟩ :=
  ⟨_, rfl, rfl, by decide, rfl, rfl⟩

end Evm

end Blitzwing
