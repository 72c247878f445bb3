/-
The part of Python's `str` and `int` that text protocols lean on: `strip`,
`split` on one character, `isdigit`, decimal `int(s)` and `str(n)`.

`int` takes more than ASCII digits: white space around the number, a sign,
single underscores between digits, and the decimal digits of every script
(Unicode category Nd, tabulated by the code point of each script's zero).
The interpreter's cap on the number of digits it converts is left out.
`int?_toString` is the round trip a printed number makes.
-/
import Mathlib.Data.List.Infix

namespace Blitzwing.PyText

/-! ## Characters -/

/-- The zeros of the decimal digits (Nd): each script's ten digits follow. -/
def decimalZeros : List Nat :=
  [0x30, 0x660, 0x6f0, 0x7c0, 0x966, 0x9e6, 0xa66, 0xae6, 0xb66, 0xbe6, 0xc66, 0xce6, 0xd66, 0xde6,
   0xe50, 0xed0, 0xf20, 0x1040, 0x1090, 0x17e0, 0x1810, 0x1946, 0x19d0, 0x1a80, 0x1a90, 0x1b50,
   0x1bb0, 0x1c40, 0x1c50, 0xa620, 0xa8d0, 0xa900, 0xa9d0, 0xa9f0, 0xaa50, 0xabf0, 0xff10, 0x104a0,
   0x10d30, 0x11066, 0x110f0, 0x11136, 0x111d0, 0x112f0, 0x11450, 0x114d0, 0x11650, 0x116c0, 0x11730,
   0x118e0, 0x11950, 0x11c50, 0x11d50, 0x11da0, 0x16a60, 0x16ac0, 0x16b50, 0x1d7ce, 0x1d7d8, 0x1d7e2,
   0x1d7ec, 0x1d7f6, 0x1e140, 0x1e2f0, 0x1e950, 0x1fbf0]

/-- The characters that are digits without being decimal: superscripts,
subscripts, circled and other digits, as code point intervals. -/
def otherDigits : List (Nat × Nat) :=
  [(0xb2, 0xb3), (0xb9, 0xb9), (0x1369, 0x1371), (0x19da, 0x19da), (0x2070, 0x2070), (0x2074, 0x2079),
   (0x2080, 0x2089), (0x2460, 0x2468), (0x2474, 0x247c), (0x2488, 0x2490), (0x24ea, 0x24ea),
   (0x24f5, 0x24fd), (0x24ff, 0x24ff), (0x2776, 0x277e), (0x2780, 0x2788), (0x278a, 0x2792),
   (0x10a40, 0x10a43), (0x10e60, 0x10e68), (0x11052, 0x1105a), (0x1f100, 0x1f10a)]

/-- The white space `int` allows around a number. -/
def isNumberSpace (c : Char) : Bool :=
  (0x9 ≤ c.toNat && c.toNat ≤ 0xd) || c.toNat == 0x20 || c.toNat == 0x85 || c.toNat == 0xa0 ||
    c.toNat == 0x1680 || (0x2000 ≤ c.toNat && c.toNat ≤ 0x200a) || c.toNat == 0x2028 ||
    c.toNat == 0x2029 || c.toNat == 0x202f || c.toNat == 0x205f || c.toNat == 0x3000

/-- `c.isspace()`: the file, group, record and unit separators count too. -/
def isSpace (c : Char) : Bool := isNumberSpace c || (0x1c ≤ c.toNat && c.toNat ≤ 0x1f)

/-- The value of a decimal digit of any script. -/
def decimal? (c : Char) : Option Nat :=
  (decimalZeros.find? fun z => z ≤ c.toNat && c.toNat < z + 10).map (c.toNat - ·)

/-- `c.isdigit()` -/
def isDigit (c : Char) : Bool :=
  (decimal? c).isSome || otherDigits.any fun r => r.1 ≤ c.toNat && c.toNat ≤ r.2

/-! ## Strings -/

def stripBy (p : Char → Bool) (cs : List Char) : List Char :=
  ((cs.dropWhile p).reverse.dropWhile p).reverse

/-- `s.strip()` -/
def strip (s : String) : String := .ofList (stripBy isSpace s.toList)

/-- `s.rstrip(c)` for one character -/
def rstrip (s : String) (c : Char) : String := .ofList (s.toList.reverse.dropWhile (· == c)).reverse

/-- `s.split(c)` for a separator of one character -/
def split (s : String) (c : Char) : List String := (s.toList.splitOn c).map .ofList

/-- `s.isdigit()`: every character is a digit, and there is one. -/
def allDigits (s : String) : Bool := !s.toList.isEmpty && s.toList.all isDigit

/-- `sub in s` -/
def isIn (sub s : String) : Bool := decide (sub.toList <:+: s.toList)

/-- `s.startswith(pre)` -/
def startsWith (s pre : String) : Bool := pre.toList.isPrefixOf s.toList

/-- The digits of a number, single underscores between them allowed. -/
def digits? (cs : List Char) : Option Nat :=
  let groups := cs.splitOn '_'
  if groups.any (·.isEmpty) then .none
  else (groups.flatten.mapM decimal?).map (·.foldl (fun n d => 10 * n + d) 0)

/-- `int(s)`, `none` where it raises `ValueError` -/
def int? (s : String) : Option Int :=
  match stripBy isNumberSpace s.toList with
  | '-' :: cs => (digits? cs).map fun n => -(n : Int)
  | '+' :: cs => (digits? cs).map Int.ofNat
  | cs => (digits? cs).map Int.ofNat

/-! ## Printed numbers -/

theorem isDigit_range {c : Char} (h : c.isDigit = true) : 48 ≤ c.toNat ∧ c.toNat ≤ 57 := by
  simp only [Char.isDigit, Bool.and_eq_true, decide_eq_true_eq] at h
  exact ⟨by simpa using UInt32.le_iff_toNat_le.1 h.1, by simpa using UInt32.le_iff_toNat_le.1 h.2⟩

theorem decimal?_ascii {c : Char} (h : c.isDigit = true) : decimal? c = .some (c.toNat - '0'.toNat) := by
  obtain ⟨h₁, h₂⟩ := isDigit_range h
  have hz : (decimalZeros.find? fun z => z ≤ c.toNat && c.toNat < z + 10) = .some 0x30 := by
    unfold decimalZeros
    exact List.find?_cons_of_pos (by simp; omega)
  simp [decimal?, hz]

theorem isNumberSpace_ascii {c : Char} (h : c.isDigit = true) : isNumberSpace c = false := by
  obtain ⟨h₁, h₂⟩ := isDigit_range h
  simp [isNumberSpace]
  omega

theorem mapM_decimal? {cs : List Char} (h : ∀ c ∈ cs, c.isDigit = true) :
    cs.mapM decimal? = .some (cs.map fun c => c.toNat - '0'.toNat) := by
  induction cs with
  | nil => rfl
  | cons c cs ih =>
    simp only [List.mem_cons, forall_eq_or_imp] at h
    simp [decimal?_ascii h.1, ih h.2]

theorem digits?_ascii {cs : List Char} (hne : cs ≠ []) (h : ∀ c ∈ cs, c.isDigit = true) :
    digits? cs = .some (Nat.ofDigitChars 10 cs 0) := by
  have hund : ∀ c ∈ cs, (c == '_') = false := by
    intro c hc
    have := isDigit_range (h c hc)
    simp only [beq_eq_false_iff_ne]
    rintro rfl
    simp at this
  have hsplit : cs.splitOn '_' = [cs] := List.splitOnP_eq_singleton hund
  simp [digits?, hsplit, hne, mapM_decimal? h, Nat.ofDigitChars_eq_foldl, List.foldl_map]

theorem toDigits_isDigit {n : Nat} : ∀ c ∈ Nat.toDigits 10 n, c.isDigit = true :=
  fun _ hc => Nat.isDigit_of_mem_toDigits (by decide) (by decide) hc

theorem stripBy_of_ends {p : Char → Bool} {cs : List Char} (hfst : ∀ c ∈ cs.head?, p c = false)
    (hlst : ∀ c ∈ cs.getLast?, p c = false) : stripBy p cs = cs := by
  have h₁ : cs.dropWhile p = cs := by
    cases cs with
    | nil => rfl
    | cons c cs => simp [hfst c rfl]
  have h₂ : cs.reverse.dropWhile p = cs.reverse := by
    cases hr : cs.reverse with
    | nil => rfl
    | cons c rs =>
      have hl : cs.getLast? = .some c := by rw [← List.head?_reverse, hr]; rfl
      simp [hlst c hl]
  rw [stripBy, h₁, h₂, List.reverse_reverse]

/-- The characters `str(n)` prints. -/
theorem toList_toString_int (n : Int) : (toString n).toList =
    if 0 ≤ n then Nat.toDigits 10 n.toNat else '-' :: Nat.toDigits 10 (-n).toNat := by
  simp only [Int.toString_eq_repr, Int.repr_eq_if]
  split <;> simp

/-- No printed number holds a character that is neither a digit nor a minus. -/
theorem not_mem_toString_int {n : Int} {c : Char} (hd : c.isDigit = false) (hm : c ≠ '-') :
    c ∉ (toString n).toList := by
  rw [toList_toString_int]
  have hno : ∀ k, c ∉ Nat.toDigits 10 k := fun k hc => by simp [toDigits_isDigit c hc] at hd
  split
  · exact hno _
  · simp [hm, hno]

/-- ASCII digits are read as the number they print. -/
theorem int?_ascii {cs : List Char} (hne : cs ≠ []) (h : ∀ c ∈ cs, c.isDigit = true) :
    int? (.ofList cs) = .some (Nat.ofDigitChars 10 cs 0) := by
  have hsp : ∀ c ∈ cs, isNumberSpace c = false := fun c hc => isNumberSpace_ascii (h c hc)
  have hstrip : stripBy isNumberSpace (String.ofList cs).toList = cs := by
    rw [String.toList_ofList]
    exact stripBy_of_ends (fun c hc => hsp c (List.mem_of_mem_head? hc)) fun c hc => hsp c (List.mem_of_mem_getLast? hc)
  rw [int?, hstrip]
  split
  · next cs' => exact absurd (h '-' List.mem_cons_self) (by decide)
  · next cs' => exact absurd (h '+' List.mem_cons_self) (by decide)
  · rw [digits?_ascii hne h]
    rfl

/-- **Printing and reading back.** `int(str(n))` is `n`. -/
@[simp] theorem int?_toString (n : Int) : int? (toString n) = .some n := by
  by_cases hn : 0 ≤ n
  · have hlist : toString n = .ofList (Nat.toDigits 10 n.toNat) := by
      rw [← String.ofList_toList (s := toString n), toList_toString_int, if_pos hn]
    rw [hlist, int?_ascii Nat.toDigits_ne_nil toDigits_isDigit, Nat.ofDigitChars_ten_toDigits, Int.toNat_of_nonneg hn]
  · have hval : digits? (Nat.toDigits 10 (-n).toNat) = .some (-n).toNat := by
      rw [digits?_ascii Nat.toDigits_ne_nil toDigits_isDigit, Nat.ofDigitChars_ten_toDigits]
    unfold int?
    rw [toList_toString_int, if_neg hn, stripBy_of_ends (p := isNumberSpace) (by simp [isNumberSpace])]
    · have hneg : -((-n).toNat : Int) = n := by omega
      simp only [hval]
      exact congrArg Option.some hneg
    · intro c hc
      rw [List.getLast?_cons_of_ne_nil Nat.toDigits_ne_nil] at hc
      exact isNumberSpace_ascii (toDigits_isDigit c (List.mem_of_mem_getLast? hc))

/-- Splitting at a separator that neither part holds gives the parts. -/
theorem split_append {a b : String} {c : Char} (ha : c ∉ a.toList) (hb : c ∉ b.toList) :
    split (a ++ .singleton c ++ b) c = [a, b] := by
  have h : ([c].intercalate [a.toList, b.toList]).splitOn c = [a.toList, b.toList] :=
    List.splitOn_intercalate c (by simp [ha, hb]) (by simp)
  have hl : (a ++ .singleton c ++ b).toList = [c].intercalate [a.toList, b.toList] := by
    simp [List.intercalate]
  rw [split, hl, h]
  simp

end Blitzwing.PyText
