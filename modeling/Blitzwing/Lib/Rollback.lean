/-
Nested calls that are undone when they fail.

A frame is a call that has not returned: what is left to do of it, and the
state to go back to if it fails. `Covered P` says of a stack that `P` holds of
the state now, and would hold of every state that the failure of a call brings
back, each beside the calls that are then left. A call, a return and a failure
keep it (`Covered.push`, `Covered.pop`, `Covered.undo`).
-/
import Mathlib.Data.List.Basic

namespace Blitzwing

namespace Rollback

variable {σ φ : Type} {P : List φ → σ → Prop} {s s' saved : σ} {frame : φ} {stack : List (σ × φ)}

/-- What is left to do, innermost call first. -/
def works (stack : List (σ × φ)) : List φ := stack.map (·.2)

@[simp] theorem works_nil : works ([] : List (σ × φ)) = [] := rfl

@[simp] theorem works_cons (saved : σ) (frame : φ) (stack : List (σ × φ)) :
    works ((saved, frame) :: stack) = frame :: works stack := rfl

def Covered (P : List φ → σ → Prop) : σ → List (σ × φ) → Prop
  | s, [] => P [] s
  | s, (saved, frame) :: stack => P (frame :: works stack) s ∧ Covered P saved stack

theorem Covered.now (h : Covered P s stack) : P (works stack) s := by
  cases stack with
  | nil => exact h
  | cons top stack => exact h.1

/-- The innermost call failed. -/
theorem Covered.undo (h : Covered P s ((saved, frame) :: stack)) : Covered P saved stack := h.2

/-- What the state is does not matter for the calls in progress. -/
theorem Covered.update (h : Covered P s stack) (hP : P (works stack) s') : Covered P s' stack := by
  cases stack with
  | nil => exact hP
  | cons top stack => exact ⟨hP, h.2⟩

theorem Covered.push (h : Covered P s stack) (hP : P (frame :: works stack) s') : Covered P s' ((s, frame) :: stack) :=
  ⟨hP, h⟩

/-- The innermost call returned. -/
theorem Covered.pop (h : Covered P s ((saved, frame) :: stack)) (hP : P (works stack) s') : Covered P s' stack :=
  h.undo.update hP

end Rollback

end Blitzwing
