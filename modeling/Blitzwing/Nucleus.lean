/-
Which tokens the top-p branch of `generate` keeps.

The mask compares the running sums with `top_p`, shifted by one place and with
the first place cleared, so it keeps the tokens up to the cut of the sorted
probabilities, the one that passes `top_p` included (`maskOf_eq`). Their mass is
positive, the rest of the row is zero, and the division brings it to one
(`nucleus_kept`).

The numbers are those of an ordered field: rounding is left out. Of torch it is
used that `sort` gives a descending permutation and that `cumsum` and `sum` are
what they are called.
-/
import Blitzwing.Lib.Cut
import Blitzwing.HttpChain

namespace Blitzwing

/-! ## What torch is relied on for -/

namespace Torch

variable {K G : Type}

/-- A permutation of the places of a row, in whose order its numbers descend. -/
structure Descending [Zero K] [LE K] (l : List K) (sorted : List K × List Nat) : Prop where
  perm : sorted.2.Perm (List.range l.length)
  values : sorted.1 = sorted.2.map (l.getD · 0)
  descending : sorted.1.Pairwise (· ≥ ·)

structure Exact [AddMonoid K] [LE K] (torch : Torch K G) : Prop where
  sortDesc : ∀ l, Descending l (torch.sortDesc l)
  cumsum : ∀ l, torch.cumsum l = runningSums l
  sum : ∀ l, torch.sum l = l.sum

end Torch

namespace HttpChain

/-! ## The branch, part by part -/

section

variable {S G : Type} [Zero S] [One S] [Mul S] [Div S] [LT S] [LE S] [DecidableLT S] [DecidableLE S]
  (torch : Torch S G) (topP : S) (probs : List S)

/-- The tokens in descending order. -/
def orderOf : List Nat := (torch.sortDesc probs).2

/-- `mask`, as it is when it is used. -/
def maskOf : List Bool := nucleusMask topP (torch.cumsum (torch.sortDesc probs).1)

/-- `sorted_probs`, with the mask's places set to zero. -/
def maskedOf : List S := (torch.sortDesc probs).1.zipWith (fun p m => if m then 0 else p) (maskOf torch topP probs)

/-- What `multinomial` is given. -/
def weightsOf : List S := (maskedOf torch topP probs).map (· / torch.sum (maskedOf torch topP probs))

/-- The token at the place drawn. -/
def drawFrom (weights : List S) (order : List Nat) (gen : G) : Except ChainError (Nat × G) :=
  match order[(torch.multinomial weights gen).1]? with
  | .some nextId => .ok (nextId, (torch.multinomial weights gen).2)
  | .none => .error (.indexError
      s!"index {(torch.multinomial weights gen).1} is out of bounds for dimension 0 with size {order.length}")

variable {torch topP probs}

omit [Mul S] in
/-- The branch draws from these weights. -/
theorem nextToken_nucleus {temperature : S} (ht : ¬ temperature ≤ 0) (hp : topP < 1) {logits : List S}
    (hprobs : torch.softmax (logits.map (· / temperature)) = probs) (gen : G) :
    nextToken torch temperature topP logits gen =
      drawFrom torch (weightsOf torch topP probs) (orderOf torch probs) gen := by
  simp only [nextToken, if_neg ht, if_pos hp, hprobs]
  rfl

end

/-- The tokens that are not masked. -/
def keptTokens (order : List Nat) (mask : List Bool) : List Nat :=
  ((order.zip mask).filter fun t => !t.2).map (·.1)

variable {K G : Type} [Field K] [LinearOrder K] {torch : Torch K G} {topP : K} {probs : List K} {k : Nat}

/-- What a row gives tokens together. -/
def massOf (probs : List K) (tokens : List Nat) : K := (tokens.map (probs.getD · 0)).sum

/-- **The nucleus.** The first `k` tokens in descending order are kept, and
sampled in their old proportions. -/
structure Nucleus (torch : Torch K G) (topP : K) (probs : List K) (k : Nat) : Prop where
  pos : 0 < k
  le : k ≤ probs.length
  kept : keptTokens (orderOf torch probs) (maskOf torch topP probs) = (orderOf torch probs).take k
  passes : k < probs.length → topP < massOf probs ((orderOf torch probs).take k)
  tight : 1 < k → massOf probs ((orderOf torch probs).take (k - 1)) ≤ topP
  divisor : torch.sum (maskedOf torch topP probs) ≠ 0
  total : (weightsOf torch topP probs).sum = 1
  weights : weightsOf torch topP probs =
    ((orderOf torch probs).take k).map (fun token => probs.getD token 0 / massOf probs ((orderOf torch probs).take k)) ++
      List.replicate (probs.length - k) 0

/-! ## The mask -/

/-- The mask of a cut: shifted by one, and the first place cleared. -/
theorem nucleusMask_of_cut [IsOrderedAddMonoid K] {l : List K} (h : Cut topP l k) (hnonneg : ∀ x ∈ l, 0 ≤ x) :
    nucleusMask topP (runningSums l) = List.replicate k false ++ List.replicate (l.length - k) true := by
  have hne : runningSums l ≠ [] := List.length_pos_iff.1 (by rw [length_runningSums]; exact h.pos.trans_le h.le)
  have hmask : nucleusMask topP (runningSums l) =
      false :: ((runningSums l).map fun s => decide (topP < s)).dropLast := by
    cases hl : runningSums l with
    | nil => exact absurd hl hne
    | cons x rest => rfl
  obtain ⟨j, rfl⟩ := Nat.exists_eq_add_of_lt h.pos
  obtain ⟨m, hm⟩ := Nat.exists_eq_add_of_le h.le
  have hrest : l.length - (0 + j + 1 - 1) = m + 1 := by omega
  have hm' : l.length - (0 + j + 1) = m := by omega
  rw [hmask, h.map_runningSums hnonneg, hrest, hm', List.dropLast_append_of_ne_nil (by simp), List.dropLast_replicate]
  simp [List.replicate_succ]

omit [LinearOrder K] in
theorem zipWith_mask {l : List K} (hk : k ≤ l.length) :
    l.zipWith (fun p m => if m then 0 else p) (List.replicate k false ++ List.replicate (l.length - k) true) =
      l.take k ++ List.replicate (l.length - k) 0 := by
  refine List.ext_getElem (by simp [hk]) ?_
  intro i hi hi'
  simp only [List.getElem_zipWith, List.getElem_append, List.length_replicate, List.getElem_replicate, List.length_take,
    Nat.min_eq_left hk, List.getElem_take]
  split <;> simp

theorem keptTokens_mask {order : List Nat} (hk : k ≤ order.length) :
    keptTokens order (List.replicate k false ++ List.replicate (order.length - k) true) = order.take k := by
  have hsplit : order.zip (List.replicate k false ++ List.replicate (order.length - k) true) =
      (order.take k).map (·, false) ++ (order.drop k).map (·, true) := by
    refine List.ext_getElem (by simp [hk]) ?_
    intro i hi hi'
    simp only [List.getElem_zip, List.getElem_append, List.length_replicate, List.getElem_replicate, List.length_map,
      List.length_take, Nat.min_eq_left hk, List.getElem_map, List.getElem_take, List.getElem_drop]
    split
    · rfl
    · next hge => congr 2; omega
  have hkeep : ∀ l : List Nat, (l.map (·, false)).filter (fun t => !t.2) = l.map (·, false) := fun l => by simp
  have hdrop : ∀ l : List Nat, (l.map (·, true)).filter (fun t => !t.2) = [] := fun l => by simp
  rw [keptTokens, hsplit, List.filter_append, hkeep, hdrop, List.append_nil, List.map_map]
  exact List.map_id _

/-! ## The row -/

theorem length_orderOf (h : torch.Exact) : (orderOf torch probs).length = probs.length := by
  rw [orderOf, (h.sortDesc probs).perm.length_eq, List.length_range]

/-- The mass of the first tokens is a sum of the sorted row. -/
theorem massOf_take (h : torch.Exact) (k : Nat) :
    massOf probs ((orderOf torch probs).take k) = ((torch.sortDesc probs).1.take k).sum := by
  rw [(h.sortDesc probs).values, ← List.map_take]
  rfl

omit [LinearOrder K] in
theorem map_getD_range (probs : List K) : (List.range probs.length).map (probs.getD · 0) = probs := by
  refine List.ext_getElem (by simp) ?_
  intro i hi hi'
  rw [List.getElem_map, List.getElem_range, List.getD_eq_getElem?_getD, List.getElem?_eq_getElem hi', Option.getD_some]

/-- The sorted row is the row in another order. -/
theorem sorted_perm (h : torch.Exact) : (torch.sortDesc probs).1.Perm probs := by
  rw [(h.sortDesc probs).values]
  have hperm := (h.sortDesc probs).perm.map (probs.getD · 0)
  rwa [map_getD_range] at hperm

/-- **The tokens that top-p sampling keeps.** They are the first ones in
descending order; if any is dropped their mass is over `top_p`, and without the
last of them it is not. The division is by their mass, which is not zero. -/
theorem nucleus_kept [IsStrictOrderedRing K] (htorch : torch.Exact) (hnonneg : ∀ p ∈ probs, 0 ≤ p)
    (hsum : probs.sum = 1) (htop : topP < 1) :
    (∃ k, Nucleus torch topP probs k) ∧
      ∀ {temperature : K} {logits : List K} (gen : G), 0 < temperature →
        torch.softmax (logits.map (· / temperature)) = probs →
        nextToken torch temperature topP logits gen =
          drawFrom torch (weightsOf torch topP probs) (orderOf torch probs) gen := by
  refine ⟨?_, fun gen htemp hprobs => nextToken_nucleus (not_le.2 htemp) htop hprobs gen⟩
  have hperm : (torch.sortDesc probs).1.Perm probs := sorted_perm htorch
  have hlength : (torch.sortDesc probs).1.length = probs.length := hperm.length_eq
  have hsorted : ∀ p ∈ (torch.sortDesc probs).1, 0 ≤ p := fun p hp => hnonneg p (hperm.mem_iff.1 hp)
  have hne : (torch.sortDesc probs).1 ≠ [] := by
    intro hnil
    rw [hnil] at hperm
    rw [← hperm.sum_eq] at hsum
    exact zero_ne_one hsum
  obtain ⟨k, hcut⟩ := exists_cut hne (hperm.sum_eq.trans hsum ▸ htop)
  have hle : k ≤ probs.length := hlength ▸ hcut.le
  have hmask : maskOf torch topP probs = List.replicate k false ++ List.replicate (probs.length - k) true := by
    rw [maskOf, htorch.cumsum, nucleusMask_of_cut hcut hsorted, hlength]
  have hmasked : maskedOf torch topP probs =
      (torch.sortDesc probs).1.take k ++ List.replicate (probs.length - k) 0 := by
    rw [maskedOf, hmask, ← hlength, zipWith_mask hcut.le]
  have hmass : torch.sum (maskedOf torch topP probs) = massOf probs ((orderOf torch probs).take k) := by
    rw [htorch.sum, hmasked, massOf_take htorch, List.sum_append, List.sum_replicate, nsmul_zero, add_zero]
  -- The first token alone has a positive share: the whole row would be zero otherwise.
  have hpos : 0 < massOf probs ((orderOf torch probs).take k) := by
    rw [massOf_take htorch]
    exact sum_take_pos hsorted (htorch.sortDesc probs).descending (hperm.sum_eq.trans hsum ▸ one_pos) hcut.pos
  refine ⟨k, hcut.pos, hle, ?_, ?_, ?_, hmass ▸ hpos.ne', ?_, ?_⟩
  · rw [hmask, ← length_orderOf htorch, keptTokens_mask ((length_orderOf htorch).symm ▸ hle)]
  · intro _
    rw [massOf_take htorch]
    exact hcut.passes
  · intro hk
    rw [massOf_take htorch]
    exact hcut.before (k - 1) (by omega) (by omega)
  · rw [weightsOf, htorch.sum]
    exact sum_map_div_self (htorch.sum _ ▸ hmass ▸ hpos.ne')
  · rw [weightsOf, hmass, hmasked, List.map_append, (htorch.sortDesc probs).values, ← List.map_take, List.map_map]
    simp [orderOf, Function.comp_def]

/-- Exact sums and a merge sort; equal logits are equally likely, and the
generator is the place it draws next. -/
def exactTorch : Torch ℚ Nat where
  argmax _ := 0
  softmax row := row.map fun _ => 1 / row.length
  sortDesc row :=
    let order := (List.range row.length).mergeSort fun i j => row.getD j 0 ≤ row.getD i 0
    (order.map (row.getD · 0), order)
  cumsum := runningSums
  sum := List.sum
  multinomial _ place := (place, place)

theorem exact_exactTorch : exactTorch.Exact where
  sortDesc row :=
    { perm := List.mergeSort_perm _ _
      values := rfl
      descending := by
        refine List.pairwise_map.2 ((List.pairwise_mergeSort ?_ ?_ _).imp of_decide_eq_true)
        · intro i j l hij hjl
          exact decide_eq_true ((of_decide_eq_true hjl).trans (of_decide_eq_true hij))
        · intro i j
          simpa using le_total (row.getD j 0) (row.getD i 0) }
  cumsum _ := rfl
  sum _ := rfl

theorem nucleus_kept_thirds :
    (∃ k, Nucleus exactTorch (1 / 2) [1 / 3, 1 / 3, 1 / 3] k) ∧
      nextToken exactTorch 1 (1 / 2) [0, 0, 0] 1 =
        drawFrom exactTorch (weightsOf exactTorch (1 / 2) [1 / 3, 1 / 3, 1 / 3]) (orderOf exactTorch [1 / 3, 1 / 3, 1 / 3]) 1 := by
  have hnonneg : ∀ p ∈ ([1 / 3, 1 / 3, 1 / 3] : List ℚ), 0 ≤ p := by simp
  have htop : (1 / 2 : ℚ) < 1 := by norm_num
  obtain ⟨hnucleus, hdraw⟩ := nucleus_kept exact_exactTorch hnonneg (by norm_num) htop
  exact ⟨hnucleus, hdraw 1 (by norm_num) (by simp [exactTorch])⟩

end HttpChain

end Blitzwing
