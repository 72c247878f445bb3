/-
Lists of weights, cut where their running sum passes a bound.

The cut of a list that passes the bound at all is its shortest nonempty
beginning that does (`Cut`). For weights that are not negative the running sums
pass the bound from there on (`Cut.map_runningSums`), so a comparison place by
place finds it. What a cut keeps can be scaled to sum to one
(`sum_map_div_self`).
-/
import Mathlib.Algebra.Order.BigOperators.Group.List
import Mathlib.Algebra.BigOperators.Ring.List
import Mathlib.Algebra.Order.Field.Basic
import Mathlib.Data.Nat.Find

namespace Blitzwing

section

variable {K : Type} [AddMonoid K]

/-- The sums of the nonempty beginnings of a list. -/
def runningSums (l : List K) : List K := (List.range l.length).map fun i => (l.take (i + 1)).sum

@[simp] theorem length_runningSums (l : List K) : (runningSums l).length = l.length := by simp [runningSums]

end

variable {K : Type}

/-- `k` is where the running sum of `l` first passes `p`. -/
structure Cut [AddMonoid K] [LE K] [LT K] (p : K) (l : List K) (k : Nat) : Prop where
  pos : 0 < k
  le : k ≤ l.length
  passes : p < (l.take k).sum
  before : ∀ j, 0 < j → j < k → (l.take j).sum ≤ p

section

variable [AddMonoid K] [LinearOrder K] {p : K} {l : List K} {k : Nat}

/-- A list that passes the bound has a cut. -/
theorem exists_cut (hne : l ≠ []) (h : p < l.sum) : ∃ k, Cut p l k := by
  have hpasses : ∃ j, 0 < j ∧ p < (l.take j).sum := ⟨l.length, List.length_pos_iff.2 hne, by rwa [List.take_length]⟩
  obtain ⟨hpos, hfound⟩ := Nat.find_spec hpasses
  refine ⟨Nat.find hpasses, hpos, ?_, hfound, ?_⟩
  · refine Nat.find_min' hpasses ⟨List.length_pos_iff.2 hne, ?_⟩
    rwa [List.take_length]
  · intro j hj hlt
    exact not_lt.1 fun hp => Nat.find_min hpasses hlt ⟨hj, hp⟩

/-- A list without negative numbers has no greater sum at its beginning. -/
theorem sum_take_mono [AddLeftMono K] (hnonneg : ∀ x ∈ l, 0 ≤ x) {i j : Nat} (hij : i ≤ j) :
    (l.take i).sum ≤ (l.take j).sum := by
  have hsplit : l.take j = l.take i ++ (l.drop i).take (j - i) := by
    rw [← List.take_add, Nat.add_sub_cancel' hij]
  rw [hsplit, List.sum_append]
  refine le_add_of_nonneg_right (List.sum_nonneg ?_)
  intro x hx
  exact hnonneg x (List.mem_of_mem_drop (List.mem_of_mem_take hx))

/-- The first number of a descending list with a positive sum is positive. -/
theorem head_pos [AddLeftMono K] [AddRightMono K] {x : K} (hdesc : (x :: l).Pairwise (· ≥ ·)) (h : 0 < (x :: l).sum) :
    0 < x := by
  by_contra hx
  have hle : ∀ y ∈ x :: l, y ≤ 0 := by
    intro y hy
    obtain rfl | hmem := List.mem_cons.1 hy
    · exact not_lt.1 hx
    · exact ((List.pairwise_cons.1 hdesc).1 y hmem).trans (not_lt.1 hx)
  have hsum := List.sum_le_card_nsmul _ 0 hle
  rw [nsmul_zero] at hsum
  exact absurd h (not_lt.2 hsum)

/-- And so is the sum of its beginnings. -/
theorem sum_take_pos [AddLeftMono K] [AddRightMono K] (hnonneg : ∀ x ∈ l, 0 ≤ x) (hdesc : l.Pairwise (· ≥ ·))
    (h : 0 < l.sum) (hk : 0 < k) : 0 < (l.take k).sum := by
  cases l with
  | nil => simp at h
  | cons x rest =>
    have hfirst : ((x :: rest).take 1).sum = x := by simp
    have hmono := sum_take_mono hnonneg (Nat.succ_le_of_lt hk)
    rw [show Nat.succ 0 = 1 from rfl, hfirst] at hmono
    exact (head_pos hdesc h).trans_le hmono

/-- **From its cut on a list passes the bound**, and nowhere before. -/
theorem Cut.passes_iff [AddLeftMono K] (h : Cut p l k) (hnonneg : ∀ x ∈ l, 0 ≤ x) (i : Nat) :
    p < (l.take (i + 1)).sum ↔ k ≤ i + 1 := by
  constructor
  · intro hp
    by_contra hlt
    exact absurd hp (not_lt.2 (h.before (i + 1) i.succ_pos (not_le.1 hlt)))
  · intro hle
    exact h.passes.trans_le (sum_take_mono hnonneg hle)

theorem map_range_le (k n : Nat) (hk : k ≤ n) : ((List.range n).map fun i => decide (k ≤ i)) =
    List.replicate k false ++ List.replicate (n - k) true := by
  refine List.ext_getElem (by simp [hk]) ?_
  intro i hi hi'
  simp only [List.getElem_map, List.getElem_range, List.getElem_append, List.length_replicate, List.getElem_replicate]
  split
  · next hlt => simpa using hlt
  · next hge => simpa using hge

/-- Where the running sums pass the bound, place by place. -/
theorem Cut.map_runningSums [AddLeftMono K] (h : Cut p l k) (hnonneg : ∀ x ∈ l, 0 ≤ x) :
    ((runningSums l).map fun s => decide (p < s)) =
      List.replicate (k - 1) false ++ List.replicate (l.length - (k - 1)) true := by
  rw [← map_range_le (k - 1) l.length ((Nat.sub_le k 1).trans h.le), runningSums, List.map_map]
  refine List.map_congr_left ?_
  intro i _
  simp only [Function.comp_apply, decide_eq_decide]
  rw [h.passes_iff hnonneg]
  omega

end

/-! ## Scaled -/

theorem sum_map_div [DivisionSemiring K] (l : List K) (s : K) : (l.map (· / s)).sum = l.sum / s := by
  simp only [div_eq_mul_inv, List.sum_map_mul_right, List.map_id']

theorem sum_map_div_self [DivisionSemiring K] {l : List K} (h : l.sum ≠ 0) : (l.map (· / l.sum)).sum = 1 := by
  rw [sum_map_div, div_self h]

end Blitzwing
