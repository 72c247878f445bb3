/-
Dicts of amounts, an absent key counting as zero.

The total splits into what one key has and what the others have
(`total_erase`), and storing an amount changes the first part only
(`total_set`).
-/
import Mathlib.Algebra.Ring.Nat
import Blitzwing.Lib.Dict

namespace Blitzwing

namespace Dict

variable {κ : Type}

/-- The sum of all amounts. -/
def total (d : Dict κ ℕ) : ℕ := d.values.sum

variable [DecidableEq κ]

/-- What `d` has under `k`, zero where it has nothing. -/
def amount (d : Dict κ ℕ) (k : κ) : ℕ := (d.get? k).getD 0

@[simp] theorem amount_empty (k : κ) : (empty : Dict κ ℕ).amount k = 0 := rfl

omit [DecidableEq κ] in
@[simp] theorem total_empty : (empty : Dict κ ℕ).total = 0 := rfl

theorem amount_set (d : Dict κ ℕ) (k k' : κ) (v : ℕ) :
    (d.set k v).amount k' = if k' = k then v else d.amount k' := by
  unfold amount
  rw [get?_set]
  split <;> rfl

theorem sum_filter_ne (l : List (κ × ℕ)) (hn : (l.map Prod.fst).Nodup) (k : κ) :
    ((l.find? (·.1 = k)).map Prod.snd).getD 0 + ((l.filter (·.1 ≠ k)).map Prod.snd).sum = (l.map Prod.snd).sum := by
  induction l with
  | nil => simp
  | cons p l ih =>
    simp only [List.map_cons, List.nodup_cons] at hn
    have hrest := ih hn.2
    by_cases hk : p.1 = k
    · -- No other item has the key.
      have hkeep : l.filter (·.1 ≠ k) = l := by
        rw [List.filter_eq_self]
        intro q hq
        have hne : q.1 ≠ p.1 := fun h => hn.1 (List.mem_map.2 ⟨q, hq, h⟩)
        simpa [hk] using hne
      rw [List.filter_cons_of_neg (by simp [hk]), hkeep]
      simp [hk]
    · simp only [List.find?_cons, hk, decide_false, List.filter_cons, List.map_cons, List.sum_cons, ne_eq,
        not_false_eq_true, decide_true, if_true]
      simp only [ne_eq] at hrest
      omega

/-- What one key has, and what the others have. -/
theorem total_erase (d : Dict κ ℕ) (k : κ) : d.amount k + (d.erase k).total = d.total :=
  sum_filter_ne d.items d.nodup k

theorem amount_le_total (d : Dict κ ℕ) (k : κ) : d.amount k ≤ d.total := by
  have := d.total_erase k
  omega

theorem filter_set (d : Dict κ ℕ) (k : κ) (v : ℕ) :
    (d.set k v).items.filter (·.1 ≠ k) = d.items.filter (·.1 ≠ k) := by
  unfold set
  split
  · simp only [modify, List.filter_map, Function.comp_def]
    have hsame : ∀ p ∈ d.items.filter (·.1 ≠ k), (p.1, if p.1 = k then v else p.2) = p := by
      intro p hp
      have hne : p.1 ≠ k := by simpa using (List.mem_filter.1 hp).2
      simp [hne]
    rw [List.map_congr_left hsame, List.map_id']
  · simp

theorem total_set (d : Dict κ ℕ) (k : κ) (v : ℕ) : (d.set k v).total = v + (d.erase k).total := by
  have hsplit := (d.set k v).total_erase k
  have hrest : ((d.set k v).erase k).total = (d.erase k).total := by
    simp only [total, values, erase, filter_set]
  rw [amount_set, if_pos rfl, hrest] at hsplit
  omega

end Dict

end Blitzwing
