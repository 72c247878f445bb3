/-
Sequences that go on one element at a time, and guesses of how they do.

`extend` appends `n` elements, each determined by all before it. A guess is
right as far as every element of it is the one that comes next (`agreed`); so
far it may be appended as it is, and where not even its first element is right
the true one is (`accepted`). However good the guesses are, what comes out is
the sequence itself (`append_accepted`).
-/
import Mathlib.Data.List.Basic

namespace Blitzwing

universe u

variable {τ : Type u} (next : List τ → τ)

/-- The sequence with `n` more elements. -/
def extend : Nat → List τ → List τ
  | 0, xs => xs
  | n + 1, xs => extend n (xs ++ [next xs])

theorem extend_add (m n : Nat) (xs : List τ) : extend next (m + n) xs = extend next n (extend next m xs) := by
  induction m generalizing xs with
  | zero => simp [extend]
  | succ m ih => rw [Nat.add_right_comm, extend, extend, ih]

@[simp] theorem length_extend (n : Nat) (xs : List τ) : (extend next n xs).length = xs.length + n := by
  induction n generalizing xs with
  | zero => rfl
  | succ n ih =>
    rw [extend, ih, List.length_append, List.length_singleton]
    omega

theorem prefix_extend (n : Nat) (xs : List τ) : xs <+: extend next n xs := by
  induction n generalizing xs with
  | zero => exact List.prefix_rfl
  | succ n ih => exact (List.prefix_append xs [next xs]).trans (ih _)

theorem extend_prefix {m n : Nat} (h : m ≤ n) (xs : List τ) : extend next m xs <+: extend next n xs := by
  obtain ⟨k, rfl⟩ := Nat.exists_eq_add_of_le h
  rw [extend_add]
  exact prefix_extend next k _

theorem dropLast_prefix_dropLast {l l' : List τ} (h : l <+: l') : l.dropLast <+: l'.dropLast := by
  obtain ⟨t, rfl⟩ := h
  by_cases hnil : t = []
  · subst hnil
    exact (List.append_nil l).symm ▸ List.prefix_rfl
  · rw [List.dropLast_append_of_ne_nil hnil]
    exact (List.dropLast_prefix l).trans (List.prefix_append l _)

section guesses

variable [DecidableEq τ]

/-- The elements of a guess up to the first wrong one. -/
def agreed : List τ → List τ → List τ
  | _, [] => []
  | xs, g :: gs => if next xs = g then g :: agreed (xs ++ [g]) gs else []

/-- What a guess gives: at least one element. -/
def accepted (xs guess : List τ) : List τ := if agreed next xs guess = [] then [next xs] else agreed next xs guess

theorem append_agreed (xs guess : List τ) :
    xs ++ agreed next xs guess = extend next (agreed next xs guess).length xs := by
  induction guess generalizing xs with
  | nil => simp [agreed, extend]
  | cons g gs ih =>
    rw [agreed]
    split
    · next hg =>
      have hrest := ih (xs ++ [g])
      rw [List.append_assoc, List.singleton_append] at hrest
      rw [hrest, List.length_cons, extend, hg]
    · simp [extend]

theorem append_accepted (xs guess : List τ) :
    xs ++ accepted next xs guess = extend next (accepted next xs guess).length xs := by
  rw [accepted]
  split
  · rfl
  · exact append_agreed next xs guess

theorem prefix_agreed (xs guess : List τ) : agreed next xs guess <+: guess := by
  induction guess generalizing xs with
  | nil => exact List.prefix_rfl
  | cons g gs ih =>
    rw [agreed]
    split
    · exact List.cons_prefix_cons.2 ⟨rfl, ih _⟩
    · exact List.nil_prefix

theorem accepted_length {xs guess : List τ} (hguess : guess ≠ []) :
    0 < (accepted next xs guess).length ∧ (accepted next xs guess).length ≤ guess.length := by
  rw [accepted]
  split
  · exact ⟨Nat.one_pos, List.length_pos_iff.2 hguess⟩
  · next h => exact ⟨List.length_pos_iff.2 h, (prefix_agreed next xs guess).length_le⟩

/-- But for its last element, what a guess gives is of the guess. -/
theorem dropLast_accepted_prefix (xs guess : List τ) : (accepted next xs guess).dropLast <+: guess.dropLast := by
  rw [accepted]
  split
  · exact List.nil_prefix
  · exact dropLast_prefix_dropLast (prefix_agreed next xs guess)

/-- The guess against what comes next at each point of it. -/
theorem takeWhile_zip_eq_agreed (xs guess : List τ) :
    ((((List.range guess.length).map fun i => next (xs ++ guess.take i)).zip guess).takeWhile
      fun e => e.1 = e.2).map Prod.fst = agreed next xs guess := by
  induction guess generalizing xs with
  | nil => rfl
  | cons g gs ih =>
    rw [List.length_cons, List.range_succ_eq_map, List.map_cons, List.map_map, List.zip_cons_cons, agreed]
    have hrest := ih (xs ++ [g])
    by_cases hg : next xs = g
    · rw [if_pos hg, List.takeWhile_cons_of_pos (by simpa using hg), List.map_cons, ← hrest]
      simp [hg, Function.comp_def, List.append_assoc]
    · rw [if_neg hg, List.takeWhile_cons_of_neg (by simpa using hg)]
      rfl

end guesses

end Blitzwing
