/-
What a computation leaves, whether it returns or raises.

`Ensures I R J x`: from every state with `I`, `x` ends in a state that `R`
relates to it, and where it returns `a`, in a state with `J a`. `R` is for what
has to hold of every part of a computation, so it is to be reflexive and
transitive; `I` and `J` say what the parts may count on.
-/
import Mathlib.Data.List.Basic

namespace Blitzwing

variable {ε σ α β : Type} {I I' : σ → Prop} {R : σ → σ → Prop} {J J' : α → σ → Prop} {K : β → σ → Prop}

def Ensures (I : σ → Prop) (R : σ → σ → Prop) (J : α → σ → Prop) (x : EStateM ε σ α) : Prop :=
  ∀ s, I s → match x s with
    | .ok a s' => R s s' ∧ J a s'
    | .error _ s' => R s s'

namespace Ensures

theorem ok {x : EStateM ε σ α} (h : Ensures I R J x) {s s' : σ} {a : α} (hs : I s) (hx : x s = .ok a s') :
    R s s' ∧ J a s' := by
  have := h s hs
  rw [hx] at this
  exact this

theorem error {x : EStateM ε σ α} (h : Ensures I R J x) {s s' : σ} {e : ε} (hs : I s) (hx : x s = .error e s') :
    R s s' := by
  have := h s hs
  rw [hx] at this
  exact this

theorem ret (hR : ∀ s, R s s) {a : α} (h : ∀ s, I s → J a s) : Ensures I R J (pure a : EStateM ε σ α) :=
  fun s hs => ⟨hR s, h s hs⟩

theorem throw (hR : ∀ s, R s s) (e : ε) : Ensures I R J (throw e : EStateM ε σ α) := fun s _ => hR s

theorem get {J : σ → σ → Prop} (hR : ∀ s, R s s) (h : ∀ s, I s → J s s) :
    Ensures I R J (get : EStateM ε σ σ) := fun s hs => ⟨hR s, h s hs⟩

theorem modify {f : σ → σ} {J : PUnit → σ → Prop} (h : ∀ s, I s → R s (f s) ∧ J ⟨⟩ (f s)) :
    Ensures I R J (modify f : EStateM ε σ PUnit) := h

theorem bind (hR : ∀ {s t u}, R s t → R t u → R s u) {x : EStateM ε σ α} {f : α → EStateM ε σ β}
    (hx : Ensures I R J x) (hf : ∀ a, Ensures (J a) R K (f a)) : Ensures I R K (x >>= f) := by
  intro s hs
  have hfirst := hx s hs
  show match EStateM.bind x f s with
    | .ok a s' => R s s' ∧ K a s'
    | .error _ s' => R s s'
  unfold EStateM.bind
  cases h : x s with
  | error e s' =>
    rw [h] at hfirst
    exact hfirst
  | ok a s' =>
    rw [h] at hfirst
    have hrest := hf a s' hfirst.2
    simp only
    cases h' : f a s' with
    | error e t =>
      rw [h'] at hrest
      exact hR hfirst.1 hrest
    | ok b t =>
      rw [h'] at hrest
      exact ⟨hR hfirst.1 hrest.1, hrest.2⟩

theorem imp {x : EStateM ε σ α} (h : Ensures I R J x) (hI : ∀ s, I' s → I s) (hJ : ∀ a s, J a s → J' a s) :
    Ensures I' R J' x := by
  intro s hs
  have hx := h s (hI s hs)
  cases hr : x s with
  | error e s' =>
    rw [hr] at hx
    exact hx
  | ok a s' =>
    rw [hr] at hx
    exact ⟨hx.1, hJ a s' hx.2⟩

/-- What is known whatever the state. -/
theorem of_pure {p : Prop} {x : EStateM ε σ α} (h : p → Ensures I R J x) : Ensures (fun s => p ∧ I s) R J x :=
  fun s hs => h hs.1 s hs.2

end Ensures

end Blitzwing
