/-
Threads in a list, of which one at a time takes a step.

When thread `i` goes from `c` to `c'`, the list goes from `l` to `l.set i c'`
and the other threads, `l.eraseIdx i`, stay as they are. `mem_iff_others` and
`mem_set_iff_others` split "some thread" and "every thread" at that step.
-/
import Mathlib.Data.List.Basic

namespace Blitzwing

universe u

variable {α : Type u} {l : List α} {i : Nat} {a c c' : α}

theorem mem_iff_others (h : l[i]? = .some c) : a ∈ l ↔ a = c ∨ a ∈ l.eraseIdx i := by
  induction l generalizing i with
  | nil => simp at h
  | cons b l ih =>
    cases i with
    | zero =>
      obtain rfl : b = c := by simpa using h
      simp
    | succ i =>
      have := ih (i := i) (by simpa using h)
      simp only [List.mem_cons, List.eraseIdx_cons_succ, this]
      tauto

theorem mem_set_iff_others (h : l[i]? = .some c) : a ∈ l.set i c' ↔ a = c' ∨ a ∈ l.eraseIdx i := by
  induction l generalizing i with
  | nil => simp at h
  | cons b l ih =>
    cases i with
    | zero => simp
    | succ i =>
      have := ih (i := i) (by simpa using h)
      simp only [List.set_cons_succ, List.mem_cons, List.eraseIdx_cons_succ, this]
      tauto

/-- Two threads at different places: each is another to the other. -/
theorem mem_others_of_ne {j : Nat} (h : l[j]? = .some a) (hne : j ≠ i) : a ∈ l.eraseIdx i := by
  induction l generalizing i j with
  | nil => simp at h
  | cons b l ih =>
    cases i with
    | zero =>
      cases j with
      | zero => exact absurd rfl hne
      | succ j => simpa using List.mem_of_getElem? (by simpa using h)
    | succ i =>
      cases j with
      | zero =>
        obtain rfl : b = a := by simpa using h
        simp
      | succ j =>
        have := ih (i := i) (j := j) (by simpa using h) (by omega)
        simp [this]

theorem mem_of_others (h : a ∈ l.eraseIdx i) : a ∈ l := List.mem_of_mem_eraseIdx h

/-- What the stepped thread and every other keep, all keep. -/
theorem forall_mem_set {P : α → Prop} (h : ∀ a ∈ l, P a) (hc' : P c') : ∀ a ∈ l.set i c', P a := by
  intro a ha
  rcases List.mem_or_eq_of_mem_set ha with ha | rfl
  · exact h a ha
  · exact hc'

end Blitzwing
