/-
Base64, as Python's `base64.b64encode` and `base64.b64decode` have it.

Three bytes are four characters; one or two that are left over are two or
three characters and as many `=` as complete the four. The decoder reads a
character at a time and passes over any that are not of the alphabet. It ends
at the `=` that completes four, and it is an error for the text to end in
between.

What is encoded is decoded (`b64decode_b64encode`), whatever other characters
are put into it (`scan_filter`).
-/
import Mathlib.Data.List.Basic
import Mathlib.Data.Fin.Basic

namespace Blitzwing.Base64

abbrev Byte := Fin 256

/-! ## The alphabet -/

/-- `A` to `Z`, `a` to `z`, `0` to `9`, `+` and `/`. -/
def character (v : Fin 64) : Char :=
  if v.val < 26 then Char.ofNat (v.val + 65)
  else if v.val < 52 then Char.ofNat (v.val - 26 + 97)
  else if v.val < 62 then Char.ofNat (v.val - 52 + 48)
  else if v.val = 62 then '+' else '/'

/-- `table_a2b_base64`. -/
def value (c : Char) : Option Nat :=
  if 65 ≤ c.toNat ∧ c.toNat ≤ 90 then .some (c.toNat - 65)
  else if 97 ≤ c.toNat ∧ c.toNat ≤ 122 then .some (c.toNat - 97 + 26)
  else if 48 ≤ c.toNat ∧ c.toNat ≤ 57 then .some (c.toNat - 48 + 52)
  else if c = '+' then .some 62 else if c = '/' then .some 63 else .none

theorem value_character (v : Fin 64) : value (character v) = .some v.val := by
  revert v
  decide

theorem character_ne_pad (v : Fin 64) : character v ≠ '=' := by
  revert v
  decide

theorem character_ascii (v : Fin 64) : (character v).toNat < 128 := by
  revert v
  decide

/-! ## Encoding -/

def six (n : Nat) : Char := character ⟨n % 64, Nat.mod_lt n (by decide)⟩

/-- `b64encode` -/
def b64encode : List Byte → List Char
  | [] => []
  | [a] => [six (a.val / 4), six (a.val % 4 * 16), '=', '=']
  | [a, b] => [six (a.val / 4), six (a.val % 4 * 16 + b.val / 16), six (b.val % 16 * 4), '=']
  | a :: b :: c :: rest =>
    six (a.val / 4) :: six (a.val % 4 * 16 + b.val / 16) :: six (b.val % 16 * 4 + c.val / 64) :: six (c.val % 64) ::
      b64encode rest

/-! ## Decoding -/

inductive DecodeError
  | notAscii
  | oneMore (dataCharacters : Nat)
  | incorrectPadding
deriving DecidableEq

/-- The text of the exception. -/
def DecodeError.text : DecodeError → String
  | .notAscii => "string argument should contain only ASCII characters"
  | .oneMore n => s!"Invalid base64-encoded string: number of data characters ({n}) cannot be 1 more than a multiple of 4"
  | .incorrectPadding => "Incorrect padding"

/-- `(unsigned char) n` -/
def byte (n : Nat) : Byte := ⟨n % 256, Nat.mod_lt n (by decide)⟩

/-- `a2b_base64`, not strict: the place among four characters, the bits left of
the last one, the `=` seen in a row and the bytes written so far. -/
def scan : List Char → Nat → Nat → Nat → Nat → Except DecodeError (List Byte)
  | [], quadPos, _, _, written =>
    if quadPos = 0 then .ok []
    else if quadPos = 1 then .error (.oneMore (written / 3 * 4 + 1)) else .error .incorrectPadding
  | c :: cs, quadPos, leftchar, pads, written =>
    if c = '=' then
      if 2 ≤ quadPos then
        if 4 ≤ quadPos + (pads + 1) then .ok [] else scan cs quadPos leftchar (pads + 1) written
      else scan cs quadPos leftchar pads written
    else
      match value c with
      | .none => scan cs quadPos leftchar pads written
      | .some this =>
        match quadPos with
        | 0 => scan cs 1 this 0 written
        | 1 => (scan cs 2 (this % 16) 0 (written + 1)).map (byte (leftchar * 4 + this / 16) :: ·)
        | 2 => (scan cs 3 (this % 4) 0 (written + 1)).map (byte (leftchar * 16 + this / 4) :: ·)
        | _ => (scan cs 0 0 0 (written + 1)).map (byte (leftchar * 64 + this) :: ·)

/-- `b64decode` -/
def b64decode (text : List Char) : Except DecodeError (List Byte) :=
  if text.all fun c => c.toNat < 128 then scan text 0 0 0 0 else .error .notAscii

/-! ## What the decoder does -/

theorem scan_pad {quadPos : Nat} (h : 2 ≤ quadPos) (cs : List Char) (leftchar pads written : Nat) :
    scan ('=' :: cs) quadPos leftchar pads written =
      if 4 ≤ quadPos + (pads + 1) then .ok [] else scan cs quadPos leftchar (pads + 1) written := by
  rw [scan, if_pos rfl, if_pos h]

/-- One character of the alphabet. -/
theorem scan_six (n : Nat) (cs : List Char) (leftchar pads written : Nat) :
    scan (six n :: cs) 0 leftchar pads written = scan cs 1 (n % 64) 0 written ∧
      scan (six n :: cs) 1 leftchar pads written =
        (scan cs 2 (n % 64 % 16) 0 (written + 1)).map (byte (leftchar * 4 + n % 64 / 16) :: ·) ∧
      scan (six n :: cs) 2 leftchar pads written =
        (scan cs 3 (n % 64 % 4) 0 (written + 1)).map (byte (leftchar * 16 + n % 64 / 4) :: ·) ∧
      scan (six n :: cs) 3 leftchar pads written =
        (scan cs 0 0 0 (written + 1)).map (byte (leftchar * 64 + n % 64) :: ·) := by
  have hpad : six n ≠ '=' := character_ne_pad _
  have hvalue : value (six n) = .some (n % 64) := value_character _
  refine ⟨?_, ?_, ?_, ?_⟩ <;> rw [scan, if_neg hpad, hvalue] <;> rfl

theorem byte_eq {a : Byte} {n : Nat} (h : n = a.val) : byte n = a := by
  subst h
  exact Fin.ext (Nat.mod_eq_of_lt a.isLt)

/-- **Round trip.** -/
theorem scan_b64encode (bs : List Byte) (leftchar pads written : Nat) :
    scan (b64encode bs) 0 leftchar pads written = .ok bs := by
  induction bs using b64encode.induct generalizing leftchar pads written with
  | case1 => rfl
  | case2 a =>
    have hfirst := byte_eq (a := a) (n := a.val / 4 % 64 * 4 + a.val % 4 * 16 % 64 / 16) (by omega)
    rw [b64encode, (scan_six _ _ _ _ _).1, (scan_six _ _ _ _ _).2.1, scan_pad (by decide), if_neg (by decide),
      scan_pad (by decide), if_pos (by decide), Except.map, hfirst]
  | case3 a b =>
    have hfirst := byte_eq (a := a) (n := a.val / 4 % 64 * 4 + (a.val % 4 * 16 + b.val / 16) % 64 / 16) (by omega)
    have hsecond := byte_eq (a := b) (n := (a.val % 4 * 16 + b.val / 16) % 64 % 16 * 16 + b.val % 16 * 4 % 64 / 4)
      (by omega)
    rw [b64encode, (scan_six _ _ _ _ _).1, (scan_six _ _ _ _ _).2.1, (scan_six _ _ _ _ _).2.2.1, scan_pad (by decide),
      if_pos (by decide), Except.map, Except.map, hfirst, hsecond]
  | case4 a b c rest ih =>
    have hfirst := byte_eq (a := a) (n := a.val / 4 % 64 * 4 + (a.val % 4 * 16 + b.val / 16) % 64 / 16) (by omega)
    have hsecond := byte_eq (a := b)
      (n := (a.val % 4 * 16 + b.val / 16) % 64 % 16 * 16 + (b.val % 16 * 4 + c.val / 64) % 64 / 4) (by omega)
    have hthird := byte_eq (a := c) (n := (b.val % 16 * 4 + c.val / 64) % 64 % 4 * 64 + c.val % 64 % 64) (by omega)
    rw [b64encode, (scan_six _ _ _ _ _).1, (scan_six _ _ _ _ _).2.1, (scan_six _ _ _ _ _).2.2.1,
      (scan_six _ _ _ _ _).2.2.2, ih, Except.map, Except.map, Except.map, hfirst, hsecond, hthird]

theorem ascii_b64encode (bs : List Byte) : (b64encode bs).all (fun c => c.toNat < 128) = true := by
  have hsix : ∀ n, (six n).toNat < 128 := fun n => character_ascii _
  induction bs using b64encode.induct with
  | case1 => rfl
  | case2 a => simp [b64encode, hsix]
  | case3 a b => simp [b64encode, hsix]
  | case4 a b c rest ih => simpa [b64encode, hsix] using ih

theorem b64decode_b64encode (bs : List Byte) : b64decode (b64encode bs) = .ok bs := by
  rw [b64decode, if_pos (ascii_b64encode bs), scan_b64encode]

/-- A character the decoder looks at. -/
def counts (c : Char) : Bool := c = '=' || (value c).isSome

/-- Other characters are passed over. -/
theorem scan_filter (cs : List Char) (quadPos leftchar pads written : Nat) :
    scan (cs.filter counts) quadPos leftchar pads written = scan cs quadPos leftchar pads written := by
  induction cs generalizing quadPos leftchar pads written with
  | nil => rfl
  | cons c cs ih =>
    by_cases hc : counts c = true
    · rw [List.filter_cons_of_pos hc, scan, scan]
      simp only [ih]
    · have hno : c ≠ '=' ∧ value c = .none := by simpa [counts] using hc
      rw [List.filter_cons_of_neg hc, ih, scan, if_neg hno.1, hno.2]

end Blitzwing.Base64
