/-
Labelled transition systems whose step is a partial function: a state and
an action give the next state, or the action is not enabled there.

`Reaches ok s t`: some run from `s` ends in `t`, every action of it
satisfying `ok` in the state it is taken in. `Reaches.invariant` is the
induction every safety result goes through; `Reaches.of_run` and
`Reaches.of_runIf` turn an evaluated run into a derivation.
-/
import Mathlib.Data.List.Basic

namespace Blitzwing

universe u v

structure Machine (σ : Type u) (α : Type v) where
  step : σ → α → Option σ

namespace Machine

variable {σ : Type u} {α : Type v} {m : Machine σ α} {ok ok' : σ → α → Prop}

/-- The states a run from `s₀` reaches, each of its actions allowed by `ok`. -/
inductive Reaches (m : Machine σ α) (ok : σ → α → Prop) (s₀ : σ) : σ → Prop
  | refl : Reaches m ok s₀ s₀
  | step {s s' a} : Reaches m ok s₀ s → ok s a → m.step s a = .some s' → Reaches m ok s₀ s'

/-- Take a list of actions, each of which must be enabled. -/
def run (m : Machine σ α) (s : σ) (as : List α) : Option σ := as.foldlM m.step s

@[simp] theorem run_nil (s : σ) : m.run s [] = .some s := rfl

@[simp] theorem run_cons (s : σ) (a : α) (as : List α) :
    m.run s (a :: as) = (m.step s a).bind fun s' => m.run s' as := by
  simp [run, List.foldlM_cons]

/-- What holds at the start and is kept by every allowed step holds in every
state reached. -/
theorem Reaches.invariant {I : σ → Prop} {s₀ s : σ} (h : m.Reaches ok s₀ s) (h₀ : I s₀)
    (hstep : ∀ {s a s'}, I s → ok s a → m.step s a = .some s' → I s') : I s := by
  induction h with
  | refl => exact h₀
  | step _ hok hs ih => exact hstep ih hok hs

theorem Reaches.mono {s₀ s : σ} (h : m.Reaches ok s₀ s) (himp : ∀ s a, ok s a → ok' s a) :
    m.Reaches ok' s₀ s := by
  induction h with
  | refl => exact .refl
  | step _ hok hs ih => exact .step ih (himp _ _ hok) hs

theorem Reaches.trans {s₀ s t : σ} (h₁ : m.Reaches ok s₀ s) (h₂ : m.Reaches ok s t) : m.Reaches ok s₀ t := by
  induction h₂ with
  | refl => exact h₁
  | step _ hok hs ih => exact .step ih hok hs

/-- A run whose actions are allowed in every state is a derivation. -/
theorem Reaches.of_run {as : List α} {s t : σ} (hok : ∀ a ∈ as, ∀ s, ok s a) (h : m.run s as = .some t) :
    m.Reaches ok s t := by
  induction as generalizing s with
  | nil =>
    obtain rfl : s = t := by simpa using h
    exact .refl
  | cons a as ih =>
    rw [run_cons, Option.bind_eq_some_iff] at h
    obtain ⟨s', hs, h⟩ := h
    have hrest := ih (fun b hb => hok b (List.mem_cons_of_mem _ hb)) h
    exact Reaches.trans (.step .refl (hok a (by simp) s) hs) hrest

/-- Take a list of actions as long as each passes a check in its state. -/
def runIf (m : Machine σ α) (check : σ → α → Bool) (s : σ) : List α → Option σ
  | [] => .some s
  | a :: as => if check s a then (m.step s a).bind fun s' => m.runIf check s' as else .none

theorem Reaches.of_runIf {check : σ → α → Bool} {as : List α} {s t : σ}
    (hok : ∀ a ∈ as, ∀ s, check s a = true → ok s a) (h : m.runIf check s as = .some t) : m.Reaches ok s t := by
  induction as generalizing s with
  | nil =>
    obtain rfl : s = t := by simpa [runIf] using h
    exact .refl
  | cons a as ih =>
    simp only [runIf] at h
    split at h
    · next hc =>
      obtain ⟨s', hs, h⟩ := Option.bind_eq_some_iff.1 h
      have hrest := ih (fun b hb => hok b (List.mem_cons_of_mem _ hb)) h
      exact Reaches.trans (.step .refl (hok a (by simp) s hc) hs) hrest
    · simp at h

end Machine

end Blitzwing
