/-
Directed graphs with a cost on each edge, and what a shortest-path search
finds in one.

A graph is made edge by edge; an edge added twice has the cost it was given
last. `Walk g a l b c`: from `a`, the nodes of `l` in turn lead to `b` at the
total cost `c`. `FindsShortest` says of a search's result that it is a
cheapest walk, or that there is none.
-/
import Blitzwing.Lib.Dict
import Mathlib.Algebra.Order.Monoid.Defs

namespace Blitzwing

universe u v

namespace Dict

variable {κ : Type u} {α : Type v} [DecidableEq κ]

/-- A dict written entry by entry has the entries written, no key having been
written with two values. -/
theorem get?_foldl_set {entries : List (κ × α)} (hu : ∀ e ∈ entries, ∀ e' ∈ entries, e.1 = e'.1 → e.2 = e'.2)
    (d : Dict κ α) (k : κ) (v : α) : (entries.foldl (fun d e => d.set e.1 e.2) d).get? k = .some v ↔
      (k, v) ∈ entries ∨ (k ∉ entries.map Prod.fst ∧ d.get? k = .some v) := by
  induction entries generalizing d with
  | nil => simp
  | cons e entries ih =>
    rw [List.foldl_cons, ih (fun a ha b hb => hu a (List.mem_cons_of_mem _ ha) b (List.mem_cons_of_mem _ hb)),
      Dict.get?_set]
    by_cases hk : k = e.1
    · subst hk
      have hex : e.1 ∈ entries.map Prod.fst → (e.1, e.2) ∈ entries := by
        intro h
        obtain ⟨a, ha, he⟩ := List.mem_map.1 h
        rw [hu e (by simp) a (List.mem_cons_of_mem _ ha) he.symm, ← he]
        exact ha
      simp only [if_true, Option.some.injEq, List.mem_cons, List.map_cons, true_or, not_true_eq_false, false_and,
        or_false]
      constructor
      · rintro (h | ⟨-, rfl⟩)
        · exact .inr h
        · exact .inl rfl
      · rintro (h | h)
        · obtain rfl : v = e.2 := congrArg Prod.snd h
          by_cases hin : e.1 ∈ entries.map Prod.fst
          · exact .inl (hex hin)
          · exact .inr ⟨hin, rfl⟩
        · exact .inl h
    · have hne : (k, v) ≠ e := by
        rintro rfl
        exact hk rfl
      simp [hk, hne]

end Dict

/-- The cost of each edge, in the order the edges were added. -/
abbrev Graph (ν : Type u) (γ : Type v) := Dict (ν × ν) γ

namespace Graph

variable {ν : Type u} {γ : Type v} [DecidableEq ν]

def addEdges (edges : List ((ν × ν) × γ)) : Graph ν γ := edges.foldl (fun g e => g.set e.1 e.2) .empty

theorem get?_addEdges {edges : List ((ν × ν) × γ)} (hu : ∀ e ∈ edges, ∀ e' ∈ edges, e.1 = e'.1 → e.2 = e'.2)
    (k : ν × ν) (w : γ) : (addEdges edges).get? k = .some w ↔ (k, w) ∈ edges := by
  simp [addEdges, Dict.get?_foldl_set hu]

/-- From `a` along the nodes of the list to `b`. -/
inductive Walk [AddMonoid γ] (g : Graph ν γ) : ν → List ν → ν → γ → Prop
  | nil (a : ν) : Walk g a [] a 0
  | cons {a b c : ν} {l : List ν} {w d : γ} : g.get? (a, b) = .some w → Walk g b l c d → Walk g a (b :: l) c (w + d)

theorem Walk.append [AddMonoid γ] {g : Graph ν γ} {a b c : ν} {l l' : List ν} {d d' : γ} (h : g.Walk a l b d)
    (h' : g.Walk b l' c d') : g.Walk a (l ++ l') c (d + d') := by
  induction h with
  | nil => simpa using h'
  | cons he _ ih =>
    rw [add_assoc]
    exact .cons he (ih h')

/-- What a search from `a` to `b` gives: the nodes of a cheapest walk, both
ends included, or nothing where there is no walk. -/
def FindsShortest [AddMonoid γ] [LE γ] (g : Graph ν γ) (a b : ν) (found : Option (List ν)) : Prop :=
  (∀ nodes, found = .some nodes → ∃ l c, nodes = a :: l ∧ g.Walk a l b c ∧
    ∀ l' c', g.Walk a l' b c' → c ≤ c') ∧
  (found = .none → ∀ l c, ¬ g.Walk a l b c)

end Graph

end Blitzwing
