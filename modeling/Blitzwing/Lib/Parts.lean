/-
Texts in parts, with a separator between them.

A pattern whose parts are whole is a beginning of such a text part by part
(`prefix_sep_iff`), and one that begins with the separator is found nowhere
inside a part (`infix_skip`). Printed numbers are parts, and equal parts are
equal numbers (`toDigits_inj`).
-/
import Mathlib.Data.List.Infix

namespace Blitzwing.Parts

variable {α : Type} {sep : α} {x y t rest pat : List α}

/-- **A whole part** of a pattern is the part of the text. -/
theorem prefix_sep_iff (hx : sep ∉ x) (hy : sep ∉ y) : (x ++ sep :: t) <+: (y ++ sep :: rest) ↔ x = y ∧ t <+: rest := by
  induction x generalizing y with
  | nil =>
    cases y with
    | nil => simp [List.cons_prefix_cons]
    | cons b y =>
      have hb : sep ≠ b := fun h => hy (h ▸ List.mem_cons_self)
      simp [List.cons_prefix_cons, hb]
  | cons a x ih =>
    have hx' : sep ∉ x := fun h => hx (List.mem_cons_of_mem _ h)
    cases y with
    | nil =>
      have ha : a ≠ sep := fun h => hx (h ▸ List.mem_cons_self)
      simp [List.cons_prefix_cons, ha]
    | cons b y =>
      have hy' : sep ∉ y := fun h => hy (List.mem_cons_of_mem _ h)
      simp [List.cons_prefix_cons, ih hx' hy', and_assoc]

/-- A pattern that begins with the separator is not found inside a part. -/
theorem infix_skip (hx : sep ∉ x) : (sep :: pat) <:+: (x ++ rest) ↔ (sep :: pat) <:+: rest := by
  induction x with
  | nil => rfl
  | cons a x ih =>
    have ha : sep ≠ a := fun h => hx (h ▸ List.mem_cons_self)
    rw [List.cons_append, List.infix_cons_iff, ih fun h => hx (List.mem_cons_of_mem _ h)]
    simp [List.cons_prefix_cons, ha]

/-- It is found at a separator, or further on. -/
theorem infix_part (hx : sep ∉ x) :
    (sep :: pat) <:+: (sep :: x ++ rest) ↔ pat <+: (x ++ rest) ∨ (sep :: pat) <:+: rest := by
  rw [List.cons_append, List.infix_cons_iff, List.cons_prefix_cons, infix_skip hx]
  simp

/-- A pattern with a separator is no beginning of a part. -/
theorem not_prefix_part (hpat : sep ∈ pat) (hx : sep ∉ x) : ¬ pat <+: x := fun h => hx (h.subset hpat)

/-! ## Printed numbers -/

theorem toDigits_inj {m n : Nat} : Nat.toDigits 10 m = Nat.toDigits 10 n ↔ m = n := by
  constructor
  · intro h
    rw [← Nat.ofDigitChars_ten_toDigits (n := m), h, Nat.ofDigitChars_ten_toDigits]
  · exact congrArg _

theorem isDigit_of_mem {n : Nat} {c : Char} (h : c ∈ Nat.toDigits 10 n) : c.isDigit = true :=
  Nat.isDigit_of_mem_toDigits (by decide) (by decide) h

theorem not_mem_toDigits {n : Nat} {c : Char} (hc : c.isDigit = false) : c ∉ Nat.toDigits 10 n := by
  intro h
  rw [isDigit_of_mem h] at hc
  cases hc

/-- What is no digit begins no number. -/
theorem not_prefix_toDigits {n : Nat} {c : Char} {pat rest : List Char} (hc : c.isDigit = false) :
    ¬ (c :: pat) <+: (Nat.toDigits 10 n ++ rest) := by
  intro h
  obtain ⟨digit, digits, hn⟩ := List.exists_cons_of_ne_nil (Nat.toDigits_ne_nil (b := 10) (n := n))
  rw [hn, List.cons_append, List.cons_prefix_cons] at h
  have hdigit := isDigit_of_mem (n := n) (c := digit) (hn ▸ List.mem_cons_self)
  rw [← h.1, hc] at hdigit
  cases hdigit

theorem toList_toString (n : Nat) : (toString n).toList = Nat.toDigits 10 n := by
  rw [Nat.toString_eq_ofList_toDigits, String.toList_ofList]

end Blitzwing.Parts
