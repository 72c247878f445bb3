/-
What the repetition penalty does to tokens that occur more than once.

The loop of `_apply_repetition_penalty` rereads what it has written, so a token
that occurs `n` times is penalized `n` times, by the `n`-th power of the penalty
(`applyRepetitionPenalty_eq`). It is the rule it is named after, each token that
occurs once over, exactly if no token with a logit other than zero is repeated
(`applyRepetitionPenalty_once_iff`).
-/
import Mathlib.Algebra.Order.Field.Basic
import Mathlib.Logic.Function.Iterate
import Blitzwing.HttpChain

namespace Blitzwing

namespace HttpChain

variable {K : Type} [Field K] [LinearOrder K] {penalty x : K} {logits : List K} {generated : List Nat}

/-- A logit moved once. -/
def penalized (penalty x : K) : K := if x < 0 then x * penalty else x / penalty

/-- The HF-style rule: the logit of each token that occurs is moved once. -/
def penalizedOnce (penalty : K) (generated : List Nat) (logits : List K) : List K :=
  logits.mapIdx fun token x => if token ∈ generated then penalized penalty x else x

/-! ## The loop -/

theorem penalize_eq {token : Nat} (h : token < logits.length) :
    penalize penalty logits token = .ok (logits.set token (penalized penalty logits[token])) := by
  simp only [penalize, List.getElem?_eq_getElem h]
  rfl

/-- The logit at each place, moved as often as its token occurs. -/
theorem foldlM_penalize (hrange : ∀ token ∈ generated, token < logits.length) :
    generated.foldlM (penalize penalty) logits =
      .ok (logits.mapIdx fun token x => (penalized penalty)^[generated.count token] x) := by
  induction generated generalizing logits with
  | nil =>
    show Except.ok logits = _
    congr 1
    refine List.ext_getElem (by simp) ?_
    intro i hi hi'
    simp
  | cons token rest ih =>
    have htoken := hrange token List.mem_cons_self
    rw [List.foldlM_cons, penalize_eq htoken]
    show List.foldlM _ _ rest = _
    rw [ih fun t ht => (List.length_set).symm ▸ hrange t (List.mem_cons_of_mem _ ht)]
    congr 1
    refine List.ext_getElem (by simp) ?_
    intro i hi hi'
    simp only [List.getElem_mapIdx, List.getElem_set, List.count_cons]
    by_cases h : token = i
    · subst h
      simp only [if_true, beq_self_eq_true, Function.iterate_succ_apply]
    · simp only [if_neg h, beq_iff_eq, Nat.add_zero]

/-- **Every occurrence counts.** -/
theorem applyRepetitionPenalty_eq (hpenalty : 1 < penalty) (hrange : ∀ token ∈ generated, token < logits.length) :
    applyRepetitionPenalty logits generated penalty =
      .ok (logits.mapIdx fun token x => (penalized penalty)^[generated.count token] x) := by
  rw [← foldlM_penalize hrange, applyRepetitionPenalty]
  split
  · next h =>
    obtain rfl := h.resolve_left (not_le.2 hpenalty)
    rfl
  · rfl

/-! ## Moved more than once -/

variable [IsStrictOrderedRing K]

/-- A logit keeps its sign, so it is moved the same way each time. -/
theorem iterate_penalized (hpenalty : 1 < penalty) (x : K) (n : Nat) :
    (penalized penalty)^[n] x = if x < 0 then x * penalty ^ n else x / penalty ^ n := by
  have hpos : 0 < penalty := one_pos.trans hpenalty
  induction n with
  | zero => simp
  | succ n ih =>
    rw [Function.iterate_succ_apply', ih, penalized]
    split
    · next hneg => rw [if_pos (mul_neg_of_neg_of_pos hneg (pow_pos hpos n)), mul_assoc, ← pow_succ]
    · next hnonneg =>
      rw [if_neg (not_lt.2 (div_nonneg (not_lt.1 hnonneg) (pow_pos hpos n).le)), div_div, ← pow_succ]

/-- Only zero is where it was after it has been moved. -/
theorem iterate_penalized_eq_iff (hpenalty : 1 < penalty) {n : Nat} (hn : n ≠ 0) :
    (penalized penalty)^[n] x = x ↔ x = 0 := by
  have hpow : 1 < penalty ^ n := one_lt_pow₀ hpenalty hn
  rw [iterate_penalized hpenalty]
  split
  · next hneg => rw [mul_eq_left₀ hneg.ne]; simp [hneg.ne, hpow.ne']
  · next hnonneg =>
    rw [div_eq_iff (one_pos.trans hpow).ne']
    constructor
    · intro h
      by_contra hx
      exact hpow.ne ((mul_eq_left₀ hx).1 h.symm).symm
    · intro h
      rw [h, zero_mul]

theorem penalized_eq_zero_iff (hpenalty : 1 < penalty) : penalized penalty x = 0 ↔ x = 0 := by
  have hne : penalty ≠ 0 := (one_pos.trans hpenalty).ne'
  unfold penalized
  split <;> simp [hne]

/-- Moved as often as it occurs is moved once if it occurs at all, but for
repeated tokens, whose logit must be zero. -/
theorem iterate_count_eq_iff (hpenalty : 1 < penalty) (token : Nat) :
    (penalized penalty)^[generated.count token] x = (if token ∈ generated then penalized penalty x else x) ↔
      (2 ≤ generated.count token → x = 0) := by
  cases hcount : generated.count token with
  | zero => simp [List.count_eq_zero.1 hcount]
  | succ n =>
    have hmem : token ∈ generated := List.count_pos_iff.1 (by omega)
    rw [if_pos hmem, Function.iterate_succ_apply]
    cases n with
    | zero => simp
    | succ n =>
      rw [iterate_penalized_eq_iff hpenalty n.succ_ne_zero, penalized_eq_zero_iff hpenalty]
      simp

/-- **The penalty is the HF-style one exactly if every repeated token has the
logit zero**, for which there is nothing to move. -/
theorem applyRepetitionPenalty_once_iff (hpenalty : 1 < penalty)
    (hrange : ∀ token ∈ generated, token < logits.length) :
    applyRepetitionPenalty logits generated penalty = .ok (penalizedOnce penalty generated logits) ↔
      ∀ token, 2 ≤ generated.count token → logits[token]? = .some 0 := by
  rw [applyRepetitionPenalty_eq hpenalty hrange, Except.ok.injEq]
  constructor
  · intro h token hcount
    have hlt : token < logits.length := hrange token (List.count_pos_iff.1 (by omega))
    have hplace := congrArg (·[token]?) h
    simp only [penalizedOnce, List.getElem?_mapIdx, List.getElem?_eq_getElem hlt, Option.map_some, Option.some.injEq]
      at hplace
    rw [List.getElem?_eq_getElem hlt, (iterate_count_eq_iff hpenalty token).1 hplace hcount]
  · intro h
    refine List.ext_getElem (by simp [penalizedOnce]) ?_
    intro token hi hi'
    have hlt : token < logits.length := by simpa using hi
    simp only [penalizedOnce, List.getElem_mapIdx]
    refine (iterate_count_eq_iff hpenalty token).2 fun hcount => ?_
    exact Option.some.inj ((List.getElem?_eq_getElem hlt).symm.trans (h token hcount))

/-- Token 2 comes twice, and its logit is zero. -/
theorem applyRepetitionPenalty_once_iff_zero :
    applyRepetitionPenalty [(5 : ℚ), -1, 0] [0, 2, 1, 2] (11 / 10) =
        .ok (penalizedOnce (11 / 10) [0, 2, 1, 2] [5, -1, 0]) ↔
      ∀ token, 2 ≤ [0, 2, 1, 2].count token → [(5 : ℚ), -1, 0][token]? = .some 0 :=
  applyRepetitionPenalty_once_iff (by norm_num) (by decide)

/-- **A repeated token is penalized twice**, at the default penalty; without the
repetition it is penalized once. -/
theorem repeated_token_penalized_twice :
    applyRepetitionPenalty [(121 / 100 : ℚ), -1] [0, 1, 0] (11 / 10) = .ok [1, -11 / 10] ∧
      penalizedOnce (11 / 10) [0, 1, 0] [(121 / 100 : ℚ), -1] = [11 / 10, -11 / 10] ∧
      applyRepetitionPenalty [(121 / 100 : ℚ), -1] [0, 1] (11 / 10) = .ok [11 / 10, -11 / 10] ∧
      applyRepetitionPenalty [(121 / 100 : ℚ), -1] [0, 1, 0] (11 / 10) ≠
        .ok (penalizedOnce (11 / 10) [0, 1, 0] [121 / 100, -1]) := by
  decide +kernel

end HttpChain

end Blitzwing
