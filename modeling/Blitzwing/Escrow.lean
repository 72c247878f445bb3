/-
`contracts/contracts/BlitzwingEscrow.sol`: the escrow of the payments.

A transaction is a stack of calls. Code outside the contract calls it, and it
calls the accounts it pays, which may call it again before they return; a call
that fails undoes all that was done in it (`Lib.Rollback`). `step` runs the
contract from where outside code gives control to it to where it gives control
away, so outside code may do anything at all: call, return, fail. What a call
costs is left out; a call that runs out of gas is one that fails.

Amounts are natural numbers, and an addition that leaves `uint256` reverts.
-/
import Blitzwing.Lib.Totals
import Blitzwing.Lib.Machine
import Blitzwing.Lib.Rollback

namespace Blitzwing

abbrev Address := BitVec 160

abbrev Bytes32 := BitVec 256

/-- `a + b` in `uint256`. -/
def checkedAdd (a b : ℕ) : Except String ℕ :=
  if a + b < 2 ^ 256 then .ok (a + b) else .error "arithmetic overflow"

inductive EscrowEvent
  | deposited (requestId : Bytes32) (payer : Address) (amount : ℕ)
  | poolDeposit (payer : Address) (amount : ℕ)
  | released (requestId : Bytes32) (total : ℕ) (recipients : List Address)
  | refunded (requestId : Bytes32) (payer : Address) (amount : ℕ)
deriving DecidableEq, Repr

/-- The contract's address and its operator, which nothing changes. -/
structure Deployment where
  self : Address
  operator : Address
  operator_ne_zero : operator ≠ 0

/-- The constructor. -/
def Deployment.construct (self operator : Address) : Except String Deployment :=
  if h : operator ≠ 0 then .ok ⟨self, operator, h⟩ else .error "operator required"

structure Escrow where
  poolBalance : ℕ := 0
  locked : Dict Bytes32 ℕ := .empty
  /-- `address(this).balance` -/
  balance : ℕ
  events : List EscrowEvent := []
  /-- What the contract sent, and to whom. -/
  sent : List (Address × ℕ) := []
deriving DecidableEq

/-! ## The functions -/

namespace Escrow

variable (d : Deployment)

/-- `receive()`, with `value` in the balance. -/
def receive (e : Escrow) (sender : Address) (value : ℕ) : Except String Escrow := do
  let poolBalance ← checkedAdd e.poolBalance value
  return { e with poolBalance, events := e.events ++ [.poolDeposit sender value] }

/-- `deposit(requestId)`, with `value` in the balance. -/
def deposit (e : Escrow) (sender : Address) (value : ℕ) (requestId : Bytes32) : Except String Escrow :=
  if value = 0 then .error "amount required"
  else do
    let held ← checkedAdd (e.locked.amount requestId) value
    return { e with
      locked := e.locked.set requestId held, events := e.events ++ [.deposited requestId sender value] }

/-- How `recipients[i].call{value: amounts[i]}("")` goes. -/
inductive Sent
  | failed
  /-- The contract paid itself. -/
  | returned (e : Escrow)
  /-- Control is with the account. -/
  | calling (e : Escrow)

def send (e : Escrow) (recipient : Address) (amount : ℕ) : Sent :=
  if e.balance < amount then .failed
  else
    let e := { e with sent := e.sent ++ [(recipient, amount)] }
    if recipient = d.self then
      match e.receive d.self amount with
      | .ok e => .returned e
      | .error _ => .failed
    else .calling { e with balance := e.balance - amount }

/-- `sum` over the amounts. -/
def sumAmounts (amounts : List ℕ) : Except String ℕ := amounts.foldlM checkedAdd 0

/-- Prefer depleting the request's lock first, then the pool, then the
remainder of the balance. -/
def debit (e : Escrow) (requestId : Bytes32) (sum : ℕ) : Escrow :=
  let held := e.locked.amount requestId
  let fromLocked := if held > sum then sum else held
  let e := if fromLocked > 0 then { e with locked := e.locked.set requestId (held - fromLocked) } else e
  let remaining := sum - fromLocked
  if remaining > 0 then
    if e.poolBalance ≥ remaining then { e with poolBalance := e.poolBalance - remaining }
    else { e with poolBalance := 0 }
  else e

/-- What `release` does before the first transfer. -/
def startRelease (e : Escrow) (sender : Address) (requestId : Bytes32) (recipients : List Address)
    (amounts : List ℕ) : Except String (Escrow × ℕ) :=
  if sender ≠ d.operator then .error "only operator"
  else if recipients.length ≠ amounts.length then .error "length mismatch"
  else do
    let sum ← sumAmounts amounts
    if e.balance < sum then .error "insufficient escrow"
    else return (e.debit requestId sum, sum)

/-- The transfers of `release` that are left: done, or waiting for the account
that was paid, with the state before that transfer. -/
def payRest (requestId : Bytes32) (sum : ℕ) (recipients : List Address) :
    List (Address × ℕ) → Escrow → Except String (Escrow × Option (Escrow × List (Address × ℕ)))
  | [], e => .ok ({ e with events := e.events ++ [.released requestId sum recipients] }, .none)
  | (recipient, amount) :: rest, e =>
    match e.send d recipient amount with
    | .failed => .error "transfer failed"
    | .returned e => payRest requestId sum recipients rest e
    | .calling e' => .ok (e', .some (e, rest))

def finishRefund (e : Escrow) (requestId : Bytes32) (payer : Address) (amount : ℕ) : Escrow :=
  { e with events := e.events ++ [.refunded requestId payer amount] }

/-- `refund`: done, or waiting for the payer, with the state before the transfer. -/
def startRefund (e : Escrow) (sender : Address) (requestId : Bytes32) (payer : Address) :
    Except String (Escrow × Option (Escrow × ℕ)) :=
  if sender ≠ d.operator then .error "only operator"
  else
    let amount := e.locked.amount requestId
    if amount = 0 then .error "no escrow"
    else
      let e := { e with locked := e.locked.set requestId 0 }
      match e.send d payer amount with
      | .failed => .error "refund failed"
      | .returned e => .ok (e.finishRefund requestId payer amount, .none)
      | .calling e' => .ok (e', .some (e, amount))

end Escrow

/-! ## Transactions -/

/-- A call of the contract, with what is paid in. -/
inductive EscrowCall
  | receive (value : ℕ)
  | deposit (value : ℕ) (requestId : Bytes32)
  | release (requestId : Bytes32) (recipients : List Address) (amounts : List ℕ)
  | refund (requestId : Bytes32) (payer : Address)

/-- What is left to do of a call. -/
inductive Work
  /-- A transaction, or a call of other code in it. -/
  | outside
  /-- `release`, at a transfer, with the transfers after it. -/
  | releasing (requestId : Bytes32) (sum : ℕ) (recipients : List Address) (rest : List (Address × ℕ))
  /-- `refund`, at its transfer. -/
  | refunding (requestId : Bytes32) (payer : Address) (amount : ℕ)

/-- How a call of the contract ended. -/
inductive Ending
  | returned
  | reverted (reason : String)
deriving DecidableEq, Repr

structure Evm where
  escrow : Escrow
  /-- The calls in progress, each with the state its failure brings back. -/
  stack : List (Escrow × Work) := []
  /-- How the call of the contract ended that the last step ended, if it ended one. -/
  ending : Option Ending := .none

inductive EscrowAction
  /-- A native transfer to the contract that does not call it. -/
  | native (value : ℕ)
  /-- A transaction begins, or in it a call between other contracts. -/
  | begin
  | call (sender : Address) (c : EscrowCall)
  /-- The outside code in control returns. -/
  | ret
  /-- The outside code in control fails. -/
  | fail

namespace Evm

variable (d : Deployment)

/-- The transfers of a `release` that began in `saved`; a failure undoes it. -/
def transfers (saved : Escrow) (requestId : Bytes32) (sum : ℕ) (recipients : List Address)
    (rest : List (Address × ℕ)) (e : Escrow) (stack : List (Escrow × Work)) : Evm :=
  match e.payRest d requestId sum recipients rest with
  | .error reason => ⟨saved, stack, .some (.reverted reason)⟩
  | .ok (e, .none) => ⟨e, stack, .some .returned⟩
  | .ok (e, .some (before, rest)) =>
    ⟨e, (before, .outside) :: (saved, .releasing requestId sum recipients rest) :: stack, .none⟩

/-- A call of the contract from outside code; one that reverts changes nothing. -/
def enter (e : Escrow) (stack : List (Escrow × Work)) (sender : Address) : EscrowCall → Evm
  | .receive value =>
    match ({ e with balance := e.balance + value }).receive sender value with
    | .error reason => ⟨e, stack, .some (.reverted reason)⟩
    | .ok e => ⟨e, stack, .some .returned⟩
  | .deposit value requestId =>
    match ({ e with balance := e.balance + value }).deposit sender value requestId with
    | .error reason => ⟨e, stack, .some (.reverted reason)⟩
    | .ok e => ⟨e, stack, .some .returned⟩
  | .release requestId recipients amounts =>
    match e.startRelease d sender requestId recipients amounts with
    | .error reason => ⟨e, stack, .some (.reverted reason)⟩
    | .ok (debited, sum) => transfers d e requestId sum recipients (recipients.zip amounts) debited stack
  | .refund requestId payer =>
    match e.startRefund d sender requestId payer with
    | .error reason => ⟨e, stack, .some (.reverted reason)⟩
    | .ok (e, .none) => ⟨e, stack, .some .returned⟩
    | .ok (e', .some (before, amount)) =>
      ⟨e', (before, .outside) :: (e, .refunding requestId payer amount) :: stack, .none⟩

/-- The account that was called returned. -/
def resume (e : Escrow) : List (Escrow × Work) → Evm
  | (saved, .releasing requestId sum recipients rest) :: stack =>
    transfers d saved requestId sum recipients rest e stack
  | (_, .refunding requestId payer amount) :: stack =>
    ⟨e.finishRefund requestId payer amount, stack, .some .returned⟩
  | stack => ⟨e, stack, .none⟩

/-- The account that was called failed, and so does the transfer to it. -/
def abort (saved : Escrow) : List (Escrow × Work) → Evm
  | (saved, .releasing _ _ _ _) :: stack => ⟨saved, stack, .some (.reverted "transfer failed")⟩
  | (saved, .refunding _ _ _) :: stack => ⟨saved, stack, .some (.reverted "refund failed")⟩
  | stack => ⟨saved, stack, .none⟩

/-- Other code is in control where no call of the contract's own waits on top. -/
def step (s : Evm) (a : EscrowAction) : Option Evm :=
  match a, s.stack with
  | .native value, _ => .some ⟨{ s.escrow with balance := s.escrow.balance + value }, s.stack, .none⟩
  | .begin, [] => .some ⟨s.escrow, [(s.escrow, .outside)], .none⟩
  | .begin, (saved, .outside) :: stack => .some ⟨s.escrow, (s.escrow, .outside) :: (saved, .outside) :: stack, .none⟩
  | .call sender c, (saved, .outside) :: stack => .some (enter d s.escrow ((saved, .outside) :: stack) sender c)
  | .ret, (_, .outside) :: stack => .some (resume d s.escrow stack)
  | .fail, (saved, .outside) :: stack => .some (abort saved stack)
  | _, _ => .none

def machine : Machine Evm EscrowAction := ⟨step d⟩

end Evm

end Blitzwing
