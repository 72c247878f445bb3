/-
Functions of sequences in which a position depends on no later one, and the
caches that save computing them again.

A `CausalBlock` leaves an entry for each position, made from that position's
input, and makes its output there from the entries so far. `run` goes on from
the entries of what came before; `full` starts from none. What a run goes on
with is what the whole sequence would have had there (`run_entries`), so a
sequence may be computed in any pieces, cut back, or computed anew.

A stack of blocks feeds each one's outputs to the next. `recompute` keeps only
what each block was given and computes everything anew at each step. Without
additions between the blocks what it keeps is set by the first block's inputs
alone (`Stacked`).
-/
import Mathlib.Data.List.Basic

namespace Blitzwing

universe u v w

structure CausalBlock (α : Type u) (κ : Type v) where
  entry : Nat → α → κ
  attend : List κ → α → α

namespace CausalBlock

variable {α : Type u} {κ : Type v} (f : CausalBlock α κ)

/-- The outputs for a run of inputs, after what left the entries `past`. -/
def run (past : List κ) : List α → List α
  | [] => []
  | x :: xs => f.attend (past ++ [f.entry past.length x]) x :: run (past ++ [f.entry past.length x]) xs

/-- The entries of inputs from the position `start` on. -/
def entries (start : Nat) : List α → List κ
  | [] => []
  | x :: xs => f.entry start x :: entries (start + 1) xs

/-- The outputs for a whole sequence. -/
def full (xs : List α) : List α := f.run [] xs

variable {f}

@[simp] theorem length_run (past : List κ) (xs : List α) : (f.run past xs).length = xs.length := by
  induction xs generalizing past with
  | nil => rfl
  | cons x xs ih => simp [run, ih]

@[simp] theorem length_entries (start : Nat) (xs : List α) : (f.entries start xs).length = xs.length := by
  induction xs generalizing start with
  | nil => rfl
  | cons x xs ih => simp [entries, ih]

@[simp] theorem length_full (xs : List α) : (f.full xs).length = xs.length := length_run [] xs

theorem entries_append (start : Nat) (xs ys : List α) :
    f.entries start (xs ++ ys) = f.entries start xs ++ f.entries (start + xs.length) ys := by
  induction xs generalizing start with
  | nil => simp [entries]
  | cons x xs ih =>
    simp only [List.cons_append, entries, ih, List.length_cons]
    rw [Nat.add_right_comm, Nat.add_assoc]

theorem run_append (past : List κ) (xs ys : List α) :
    f.run past (xs ++ ys) = f.run past xs ++ f.run (past ++ f.entries past.length xs) ys := by
  induction xs generalizing past with
  | nil => simp [run, entries]
  | cons x xs ih => simp [run, entries, ih]

/-- **Going on from the entries** of what came before gives what the whole
sequence has there. -/
theorem run_entries (xs ys : List α) : f.run (f.entries 0 xs) ys = (f.full (xs ++ ys)).drop xs.length := by
  have happend := run_append (f := f) [] xs ys
  simp only [List.nil_append, List.length_nil] at happend
  rw [full, happend, List.drop_append_of_le_length (by simp), List.drop_of_length_le (by simp), List.nil_append]

theorem full_append (xs ys : List α) : f.full (xs ++ ys) = f.full xs ++ f.run (f.entries 0 xs) ys := by
  simpa [full] using run_append (f := f) [] xs ys

theorem entries_take (start p : Nat) (xs : List α) : f.entries start (xs.take p) = (f.entries start xs).take p := by
  induction xs generalizing start p with
  | nil => simp [entries]
  | cons x xs ih =>
    cases p with
    | zero => simp [entries]
    | succ p => simp [entries, ih]

theorem full_take (p : Nat) (xs : List α) : f.full (xs.take p) = (f.full xs).take p := by
  have hsplit := full_append (f := f) (xs.take p) (xs.drop p)
  rw [List.take_append_drop] at hsplit
  rw [hsplit]
  by_cases hp : p ≤ xs.length
  · have hlen : (f.full (xs.take p)).length = p := by simp [hp]
    rw [List.take_append_of_le_length (by omega)]
    exact (List.take_of_length_le (by omega)).symm
  · have hlen : (f.full (xs.take p)).length ≤ p := by
      simp only [length_full, List.length_take]
      omega
    rw [List.drop_of_length_le (by omega), run, List.append_nil]
    exact (List.take_of_length_le hlen).symm

/-! ## Several rows at once -/

section rows

variable {ι : Type w}

/-- The block on columns, each row on its own. -/
def rows (f : CausalBlock α κ) : CausalBlock (ι → α) (ι → κ) where
  entry k x := fun i => f.entry k (x i)
  attend past x := fun i => f.attend (past.map (· i)) (x i)

/-- Pick the rows of a column, in the order `σ` says. -/
def pick (σ : ι → ι) {β : Type*} (x : ι → β) : ι → β := fun i => x (σ i)

theorem entries_rows_pick (σ : ι → ι) (start : Nat) (xs : List (ι → α)) :
    f.rows.entries start (xs.map (pick σ)) = (f.rows.entries start xs).map (pick σ) := by
  induction xs generalizing start with
  | nil => rfl
  | cons x xs ih =>
    simp only [List.map_cons, entries, ih]
    rfl

theorem run_rows_pick (σ : ι → ι) (past : List (ι → κ)) (xs : List (ι → α)) :
    f.rows.run (past.map (pick σ)) (xs.map (pick σ)) = (f.rows.run past xs).map (pick σ) := by
  induction xs generalizing past with
  | nil => rfl
  | cons x xs ih =>
    have hpast : past.map (pick σ) ++ [f.rows.entry (past.map (pick σ)).length (pick σ x)] =
        (past ++ [f.rows.entry past.length x]).map (pick σ) := by
      rw [List.map_append, List.length_map]
      rfl
    simp only [List.map_cons, run, hpast, ih]
    congr 1
    funext i
    simp only [rows, List.map_map, pick]
    rfl

/-- Picking rows before or after makes no difference. -/
theorem full_rows_pick (σ : ι → ι) (xs : List (ι → α)) :
    f.rows.full (xs.map (pick σ)) = (f.rows.full xs).map (pick σ) := run_rows_pick σ [] xs

end rows

/-! ## Stacks of blocks -/

/-- One step of a stack that keeps, for each block, what that block was given,
and computes everything anew. `adds` is what is added before each block. -/
def recompute : List (CausalBlock α κ) → List (List α → List α) → List (List α) → List α → List (List α) × List α
  | f :: fs, add :: adds, kept :: rest, xs =>
    let given := kept ++ add xs
    let after := recompute fs adds rest ((f.full given).drop kept.length)
    (given :: after.1, after.2)
  | _, _, _, xs => ([], xs)

theorem length_recompute {fs : List (CausalBlock α κ)} {adds : List (List α → List α)} {kept : List (List α)}
    (ha : adds.length = fs.length) (hk : kept.length = fs.length) (xs : List α) :
    (recompute fs adds kept xs).1.length = fs.length := by
  induction fs generalizing adds kept xs with
  | nil => rfl
  | cons f fs ih =>
    cases adds with
    | nil => simp at ha
    | cons add adds =>
      cases kept with
      | nil => simp at hk
      | cons ks kept => simp [recompute, ih (by simpa using ha) (by simpa using hk)]

/-- The first blocks, and then the others on their outputs. -/
theorem recompute_append {fs : List (CausalBlock α κ)} {adds : List (List α → List α)} {kept : List (List α)}
    (ha : adds.length = fs.length) (hk : kept.length = fs.length) (fs' : List (CausalBlock α κ))
    (adds' : List (List α → List α)) (kept' : List (List α)) (xs : List α) :
    recompute (fs ++ fs') (adds ++ adds') (kept ++ kept') xs =
      ((recompute fs adds kept xs).1 ++ (recompute fs' adds' kept' (recompute fs adds kept xs).2).1,
        (recompute fs' adds' kept' (recompute fs adds kept xs).2).2) := by
  induction fs generalizing adds kept xs with
  | nil =>
    obtain rfl := List.length_eq_zero_iff.1 ha
    obtain rfl := List.length_eq_zero_iff.1 hk
    rfl
  | cons f fs ih =>
    cases adds with
    | nil => simp at ha
    | cons add adds =>
      cases kept with
      | nil => simp at hk
      | cons ks kept =>
        simp only [List.cons_append, recompute, ih (by simpa using ha) (by simpa using hk)]

/-- The outputs of a stack for a whole sequence. -/
def fullStack (fs : List (CausalBlock α κ)) (xs : List α) : List α := fs.foldl (fun xs f => f.full xs) xs

@[simp] theorem length_fullStack (fs : List (CausalBlock α κ)) (xs : List α) :
    (fullStack fs xs).length = xs.length := by
  induction fs generalizing xs with
  | nil => rfl
  | cons f fs ih =>
    rw [fullStack, List.foldl_cons]
    exact (ih _).trans (length_full xs)

/-- The outputs at the first positions are those of the inputs there. -/
theorem fullStack_take (fs : List (CausalBlock α κ)) (p : Nat) (xs : List α) :
    fullStack fs (xs.take p) = (fullStack fs xs).take p := by
  induction fs generalizing xs with
  | nil => rfl
  | cons f fs ih =>
    rw [fullStack, fullStack, List.foldl_cons, List.foldl_cons, full_take]
    exact ih _

/-- Each block was given what the one before it gave out. -/
def Stacked : List (CausalBlock α κ) → List (List α) → List α → Prop
  | [], kept, _ => kept = []
  | f :: fs, kept, xs => ∃ rest, kept = xs :: rest ∧ Stacked fs rest (f.full xs)

theorem Stacked.take {fs : List (CausalBlock α κ)} {kept : List (List α)} {xs : List α} (h : Stacked fs kept xs)
    (p : Nat) : Stacked fs (kept.map (·.take p)) (xs.take p) := by
  induction fs generalizing kept xs with
  | nil =>
    obtain rfl : kept = [] := h
    exact rfl
  | cons f fs ih =>
    obtain ⟨rest, rfl, hrest⟩ := h
    refine ⟨rest.map (·.take p), rfl, ?_⟩
    rw [full_take]
    exact ih hrest

theorem Stacked.pick {ι : Type w} {fs : List (CausalBlock α κ)} {kept : List (List (ι → α))} {xs : List (ι → α)}
    (h : Stacked (fs.map rows) kept xs) (σ : ι → ι) :
    Stacked (fs.map rows) (kept.map (·.map (CausalBlock.pick σ))) (xs.map (CausalBlock.pick σ)) := by
  induction fs generalizing kept xs with
  | nil =>
    obtain rfl : kept = [] := h
    exact rfl
  | cons f fs ih =>
    obtain ⟨rest, rfl, hrest⟩ := h
    refine ⟨rest.map (·.map (CausalBlock.pick σ)), rfl, ?_⟩
    rw [full_rows_pick]
    exact ih hrest

/-- With nothing added, a step's outputs are the last ones of the whole
sequence, and what is kept stays stacked. -/
theorem Stacked.recompute {fs : List (CausalBlock α κ)} {kept : List (List α)} {xs : List α}
    (h : Stacked fs kept xs) (ys : List α) : Stacked fs (recompute fs (fs.map fun _ => id) kept ys).1 (xs ++ ys) ∧
      (CausalBlock.recompute fs (fs.map fun _ => id) kept ys).2 = (fullStack fs (xs ++ ys)).drop xs.length := by
  induction fs generalizing kept xs ys with
  | nil =>
    obtain rfl : kept = [] := h
    refine ⟨rfl, ?_⟩
    simp [CausalBlock.recompute, fullStack]
  | cons f fs ih =>
    obtain ⟨rest, rfl, hrest⟩ := h
    have hnext := ih hrest ((f.full (xs ++ ys)).drop xs.length)
    have hwhole : f.full xs ++ (f.full (xs ++ ys)).drop xs.length = f.full (xs ++ ys) := by
      rw [← run_entries, ← full_append]
    rw [hwhole, length_full] at hnext
    exact ⟨⟨_, rfl, hnext.1⟩, hnext.2⟩

end CausalBlock

end Blitzwing
