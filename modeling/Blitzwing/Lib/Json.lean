/-
JSON text: what `json.dumps`, a Pydantic model and `JSON.stringify` write
without indentation, and what `JSON.parse` and `json.loads` read.

Objects keep their fields in the order written; `get?` is the last of equal
names. A number is the text it is written as, so nothing is rounded. In a
string, a surrogate that an escape leaves without its partner is read as
U+FFFD. The parser recurses on a bound for the text left to read: every call
has read a character since the last, so the text's length is enough.

**Round trip**: `parse_render`. A text that starts no value is refused
(`parse_of_head`).
-/
import Blitzwing.Lib.PyText
import Mathlib.Data.List.TakeWhile

namespace Blitzwing

namespace Json

/-! ## Numbers -/

def isExponent : List Char → Bool
  | [] => true
  | e :: cs =>
    let digits := match cs with
      | '+' :: cs => cs
      | '-' :: cs => cs
      | cs => cs
    (e == 'e' || e == 'E') && !digits.isEmpty && digits.all Char.isDigit

def isFraction : List Char → Bool
  | '.' :: cs => !(cs.takeWhile Char.isDigit).isEmpty && isExponent (cs.dropWhile Char.isDigit)
  | cs => isExponent cs

/-- No digit follows a leading zero. -/
def isUnsigned (cs : List Char) : Bool :=
  match cs.takeWhile Char.isDigit with
  | [] => false
  | d :: ds => (d != '0' || ds.isEmpty) && isFraction (cs.dropWhile Char.isDigit)

def isNumeral : List Char → Bool
  | '-' :: cs => isUnsigned cs
  | cs => isUnsigned cs

/-- A printed number other than zero starts with no zero. -/
theorem toDigits_cons {n : Nat} (hn : 0 < n) : ∃ d ds, Nat.toDigits 10 n = d :: ds ∧ d ≠ '0' := by
  induction n using Nat.strongRecOn with
  | ind n ih =>
    by_cases h : n < 10
    · refine ⟨n.digitChar, [], Nat.toDigits_of_lt_base h, ?_⟩
      exact (by decide : ∀ m < 10, 0 < m → m.digitChar ≠ '0') n h hn
    · obtain ⟨d, ds, hds, hd⟩ := ih (n / 10) (by omega) (by omega)
      exact ⟨d, ds ++ [(n % 10).digitChar], by rw [Nat.toDigits_of_base_le (by decide) (by omega), hds]; rfl, hd⟩

theorem isUnsigned_toDigits (n : Nat) : isUnsigned (Nat.toDigits 10 n) = true := by
  have hall : ∀ c ∈ Nat.toDigits 10 n, c.isDigit = true := PyText.toDigits_isDigit
  have htake : (Nat.toDigits 10 n).takeWhile Char.isDigit = Nat.toDigits 10 n := by simpa using hall
  have hdrop : (Nat.toDigits 10 n).dropWhile Char.isDigit = [] := by simpa using hall
  unfold isUnsigned
  rw [htake, hdrop]
  rcases Nat.eq_zero_or_pos n with rfl | hn
  · decide
  · obtain ⟨d, ds, hds, hd⟩ := toDigits_cons hn
    simp [hds, hd, isFraction, isExponent]

theorem isNumeral_toString (n : Int) : isNumeral (toString n).toList = true := by
  rw [PyText.toList_toString_int]
  split
  · unfold isNumeral
    split
    · next cs he =>
      have := PyText.toDigits_isDigit '-' (he ▸ List.mem_cons_self)
      simp at this
    · exact isUnsigned_toDigits _
  · exact isUnsigned_toDigits _

end Json

/-- A number as it is written. -/
structure Numeral where
  text : List Char
  valid : Json.isNumeral text = true
deriving DecidableEq, Repr

def Numeral.ofInt (n : Int) : Numeral := ⟨(toString n).toList, Json.isNumeral_toString n⟩

inductive Json
  | null
  | bool (b : Bool)
  | num (n : Numeral)
  | str (s : String)
  | arr (items : List Json)
  | obj (fields : List (String × Json))

namespace Json

/-- The value of a field, `none` where there is none or no object. -/
def get? : Json → String → Option Json
  | .obj fields, name => (fields.reverse.find? (·.1 = name)).map (·.2)
  | _, _ => .none

def str? : Json → Option String
  | .str s => .some s
  | _ => .none

/-! ## Writing -/

def escapeChar (c : Char) : List Char :=
  if c = '"' then ['\\', '"']
  else if c = '\\' then ['\\', '\\']
  else if c = '\n' then ['\\', 'n']
  else if c = '\r' then ['\\', 'r']
  else if c = '\t' then ['\\', 't']
  else if c = '\x08' then ['\\', 'b']
  else if c = '\x0c' then ['\\', 'f']
  else if c.toNat < 0x20 then ['\\', 'u', '0', '0', (c.toNat / 16).digitChar, (c.toNat % 16).digitChar]
  else [c]

def renderString (s : String) : List Char := '"' :: (s.toList.flatMap escapeChar ++ ['"'])

mutual

def renderChars : Json → List Char
  | .null => ['n', 'u', 'l', 'l']
  | .bool true => ['t', 'r', 'u', 'e']
  | .bool false => ['f', 'a', 'l', 's', 'e']
  | .num n => n.text
  | .str s => renderString s
  | .arr [] => ['[', ']']
  | .arr (v :: vs) => '[' :: (renderChars v ++ renderItems vs)
  | .obj [] => ['{', '}']
  | .obj ((name, v) :: fields) => '{' :: (renderString name ++ ':' :: (renderChars v ++ renderFields fields))

def renderItems : List Json → List Char
  | [] => [']']
  | v :: vs => ',' :: (renderChars v ++ renderItems vs)

def renderFields : List (String × Json) → List Char
  | [] => ['}']
  | (name, v) :: fields => ',' :: (renderString name ++ ':' :: (renderChars v ++ renderFields fields))

end

def render (v : Json) : String := .ofList v.renderChars

/-! ## Reading -/

def isBlank (c : Char) : Bool := c == ' ' || c == '\t' || c == '\n' || c == '\r'

def skipBlanks (cs : List Char) : List Char := cs.dropWhile isBlank

def hex? (c : Char) : Option Nat :=
  if '0' ≤ c ∧ c ≤ '9' then .some (c.toNat - '0'.toNat)
  else if 'a' ≤ c ∧ c ≤ 'f' then .some (c.toNat - 'a'.toNat + 10)
  else if 'A' ≤ c ∧ c ≤ 'F' then .some (c.toNat - 'A'.toNat + 10)
  else .none

def unescape? (c : Char) : Option Nat :=
  if c = '"' ∨ c = '\\' ∨ c = '/' then .some c.toNat
  else if c = 'n' then .some 0xa
  else if c = 'r' then .some 0xd
  else if c = 't' then .some 0x9
  else if c = 'b' then .some 0x8
  else if c = 'f' then .some 0xc
  else .none

/-- The code units of a string up to its closing quote, and what follows. -/
def stringUnits : List Char → Option (List Nat × List Char)
  | [] => .none
  | '"' :: rest => .some ([], rest)
  | '\\' :: 'u' :: a :: b :: c :: d :: rest => do
    let unit := ((((← hex? a) * 16 + (← hex? b)) * 16) + (← hex? c)) * 16 + (← hex? d)
    let (units, rest) ← stringUnits rest
    return (unit :: units, rest)
  | '\\' :: c :: rest => do
    let unit ← unescape? c
    let (units, rest) ← stringUnits rest
    return (unit :: units, rest)
  | c :: rest =>
    if c.toNat < 0x20 ∨ c = '\\' then .none
    else do
      let (units, rest) ← stringUnits rest
      return (c.toNat :: units, rest)

def scalar (unit : Nat) : Char := if 0xd800 ≤ unit ∧ unit < 0xe000 then '\ufffd' else .ofNat unit

/-- A high surrogate and the low one after it are one character. -/
def ofUnits : List Nat → List Char
  | hi :: lo :: units =>
    if (0xd800 ≤ hi ∧ hi < 0xdc00) ∧ (0xdc00 ≤ lo ∧ lo < 0xe000) then
      .ofNat (0x10000 + (hi - 0xd800) * 0x400 + (lo - 0xdc00)) :: ofUnits units
    else scalar hi :: ofUnits (lo :: units)
  | [unit] => [scalar unit]
  | [] => []

/-- A string, its opening quote read. -/
def string (cs : List Char) : Option (String × List Char) := do
  let (units, rest) ← stringUnits cs
  return (.ofList (ofUnits units), rest)

/-- A field's name and its colon. -/
def name (cs : List Char) : Option (String × List Char) :=
  match skipBlanks cs with
  | '"' :: rest => do
    let (s, rest) ← string rest
    match skipBlanks rest with
    | ':' :: rest => return (s, rest)
    | _ => .none
  | _ => .none

def isNumberChar (c : Char) : Bool := c.isDigit || c == '-' || c == '+' || c == '.' || c == 'e' || c == 'E'

def number (cs : List Char) : Option (Json × List Char) :=
  if h : isNumeral (cs.takeWhile isNumberChar) = true then
    .some (.num ⟨cs.takeWhile isNumberChar, h⟩, cs.dropWhile isNumberChar)
  else .none

/-- A literal or a number. -/
def word : List Char → Option (Json × List Char)
  | 'n' :: 'u' :: 'l' :: 'l' :: rest => .some (.null, rest)
  | 't' :: 'r' :: 'u' :: 'e' :: rest => .some (.bool true, rest)
  | 'f' :: 'a' :: 'l' :: 's' :: 'e' :: rest => .some (.bool false, rest)
  | cs => number cs

mutual

def value : Nat → List Char → Option (Json × List Char)
  | 0, _ => .none
  | fuel + 1, cs =>
    match skipBlanks cs with
    | '"' :: rest => do
      let (s, rest) ← string rest
      return (.str s, rest)
    | '[' :: rest =>
      match skipBlanks rest with
      | ']' :: rest => .some (.arr [], rest)
      | rest => do
        let (v, rest) ← value fuel rest
        let (vs, rest) ← items fuel rest
        return (.arr (v :: vs), rest)
    | '{' :: rest =>
      match skipBlanks rest with
      | '}' :: rest => .some (.obj [], rest)
      | rest => do
        let (key, rest) ← name rest
        let (v, rest) ← value fuel rest
        let (fs, rest) ← fields fuel rest
        return (.obj ((key, v) :: fs), rest)
    | cs => word cs

/-- The items behind the first, and the bracket. -/
def items : Nat → List Char → Option (List Json × List Char)
  | 0, _ => .none
  | fuel + 1, cs =>
    match skipBlanks cs with
    | ']' :: rest => .some ([], rest)
    | ',' :: rest => do
      let (v, rest) ← value fuel rest
      let (vs, rest) ← items fuel rest
      return (v :: vs, rest)
    | _ => .none

/-- The fields behind the first, and the brace. -/
def fields : Nat → List Char → Option (List (String × Json) × List Char)
  | 0, _ => .none
  | fuel + 1, cs =>
    match skipBlanks cs with
    | '}' :: rest => .some ([], rest)
    | ',' :: rest => do
      let (key, rest) ← name rest
      let (v, rest) ← value fuel rest
      let (fs, rest) ← fields fuel rest
      return ((key, v) :: fs, rest)
    | _ => .none

end

/-- `JSON.parse(text)`, `none` where it throws. -/
def parse (text : String) : Option Json := do
  let (v, rest) ← value text.toList.length text.toList
  if (skipBlanks rest).isEmpty then return v else .none

/-! ## Strings read back -/

theorem hex?_digitChar : ∀ n < 16, hex? n.digitChar = .some n := by decide

theorem stringUnits_escapeChar (c : Char) (rest : List Char) :
    stringUnits (escapeChar c ++ rest) = (stringUnits rest).map fun p => (c.toNat :: p.1, p.2) := by
  unfold escapeChar
  split_ifs with h₁ h₂ h₃ h₄ h₅ h₆ h₇ h₈
  iterate 7
    · subst c
      cases hr : stringUnits rest <;> simp [stringUnits, unescape?, hr]
  · have hunit : (c.toNat / 16) * 16 + c.toNat % 16 = c.toNat := by omega
    have hhi := hex?_digitChar (c.toNat / 16) (by omega)
    have hlo := hex?_digitChar (c.toNat % 16) (by omega)
    have hz : hex? '0' = .some 0 := by decide
    cases hr : stringUnits rest <;> simp [stringUnits, hz, hhi, hlo, hunit, hr]
  · cases hr : stringUnits rest <;> simp [stringUnits, hr, h₂, h₈]

theorem stringUnits_escaped (cs rest : List Char) :
    stringUnits (cs.flatMap escapeChar ++ '"' :: rest) = .some (cs.map Char.toNat, rest) := by
  induction cs with
  | nil => rfl
  | cons c cs ih => simp [stringUnits_escapeChar, ih]

theorem scalar_toNat (c : Char) : scalar c.toNat = c := by
  have hv := c.valid
  simp only [UInt32.isValidChar, Nat.isValidChar] at hv
  have hn : ¬ (0xd800 ≤ c.toNat ∧ c.toNat < 0xe000) := by
    have : c.toNat = c.val.toNat := rfl
    omega
  rw [scalar, if_neg hn, Char.ofNat_toNat]

/-- No character is a surrogate, so none is taken for half of one. -/
theorem ofUnits_map (cs : List Char) : ofUnits (cs.map Char.toNat) = cs := by
  induction cs with
  | nil => rfl
  | cons c cs ih =>
    cases cs with
    | nil => simp [ofUnits, scalar_toNat]
    | cons d cs =>
      have hn : ¬ ((0xd800 ≤ c.toNat ∧ c.toNat < 0xdc00) ∧ (0xdc00 ≤ d.toNat ∧ d.toNat < 0xe000)) := by
        have hv := c.valid
        simp only [UInt32.isValidChar, Nat.isValidChar] at hv
        have : c.toNat = c.val.toNat := rfl
        omega
      simp only [List.map_cons, ofUnits, if_neg hn, scalar_toNat] at ih ⊢
      rw [ih]

theorem string_render (s : String) (rest : List Char) :
    string (s.toList.flatMap escapeChar ++ '"' :: rest) = .some (s, rest) := by
  simp [string, stringUnits_escaped, ofUnits_map]

/-! ## Numbers read back -/

theorem isNumberChar_digit {c : Char} (h : c.isDigit = true) : isNumberChar c = true := by simp [isNumberChar, h]

theorem all_isNumberChar_of_dropWhile {cs : List Char} (h : ∀ c ∈ cs.dropWhile Char.isDigit, isNumberChar c = true) :
    ∀ c ∈ cs, isNumberChar c = true := by
  intro c hc
  rw [← List.takeWhile_append_dropWhile (p := Char.isDigit) (l := cs), List.mem_append] at hc
  rcases hc with hc | hc
  · exact isNumberChar_digit (List.mem_takeWhile_imp hc)
  · exact h c hc

theorem all_isNumberChar_of_digits {cs : List Char} (h : cs.all Char.isDigit = true) :
    ∀ c ∈ cs, isNumberChar c = true :=
  fun c hc => isNumberChar_digit (List.all_eq_true.1 h c hc)

theorem all_isNumberChar_of_isExponent {cs : List Char} (h : isExponent cs = true) :
    ∀ c ∈ cs, isNumberChar c = true := by
  unfold isExponent at h
  split at h
  · simp
  · next e cs =>
    simp only [Bool.and_eq_true, Bool.or_eq_true, beq_iff_eq] at h
    obtain ⟨⟨he, -⟩, hds⟩ := h
    have he' : isNumberChar e = true := by rcases he with rfl | rfl <;> decide
    have hcs : ∀ c ∈ cs, isNumberChar c = true := by
      split at hds
      · simpa [show isNumberChar '+' = true by decide] using all_isNumberChar_of_digits hds
      · simpa [show isNumberChar '-' = true by decide] using all_isNumberChar_of_digits hds
      · exact all_isNumberChar_of_digits hds
    simpa [he'] using hcs

theorem all_isNumberChar_of_isFraction {cs : List Char} (h : isFraction cs = true) :
    ∀ c ∈ cs, isNumberChar c = true := by
  unfold isFraction at h
  split at h
  · next cs =>
    simp only [Bool.and_eq_true] at h
    simpa [show isNumberChar '.' = true by decide] using
      all_isNumberChar_of_dropWhile (all_isNumberChar_of_isExponent h.2)
  · exact all_isNumberChar_of_isExponent h

/-- A number starts with a digit or a minus. -/
theorem isUnsigned_cons {cs : List Char} (h : isUnsigned cs = true) :
    (∃ d ds, cs = d :: ds ∧ d.isDigit = true) ∧ ∀ c ∈ cs, isNumberChar c = true := by
  unfold isUnsigned at h
  split at h
  · simp at h
  · next d ds hd =>
    simp only [Bool.and_eq_true] at h
    refine ⟨?_, all_isNumberChar_of_dropWhile (all_isNumberChar_of_isFraction h.2)⟩
    cases cs with
    | nil => simp at hd
    | cons c cs =>
      by_cases hc : c.isDigit = true
      · exact ⟨c, cs, rfl, hc⟩
      · simp [hc] at hd

theorem numeral_cons (n : Numeral) : (∃ c cs, n.text = c :: cs ∧ (c.isDigit = true ∨ c = '-')) ∧
    ∀ c ∈ n.text, isNumberChar c = true := by
  obtain ⟨text, valid⟩ := n
  simp only
  unfold isNumeral at valid
  split at valid
  · next cs =>
    refine ⟨⟨'-', cs, rfl, .inr rfl⟩, ?_⟩
    simpa [show isNumberChar '-' = true by decide] using (isUnsigned_cons valid).2
  · obtain ⟨⟨d, ds, rfl, hd⟩, hall⟩ := isUnsigned_cons valid
    exact ⟨⟨d, ds, rfl, .inl hd⟩, hall⟩

/-- What follows a value goes on with no number. -/
def Ends (rest : List Char) : Prop := ∀ c ∈ rest.head?, isNumberChar c = false

theorem number_render (n : Numeral) {rest : List Char} (h : Ends rest) :
    number (n.text ++ rest) = .some (.num n, rest) := by
  have hall := (numeral_cons n).2
  have htake : (n.text ++ rest).takeWhile isNumberChar = n.text := by
    rw [List.takeWhile_append_of_pos hall]
    cases rest with
    | nil => simp
    | cons c rest => simp [h c rfl]
  have hdrop : (n.text ++ rest).dropWhile isNumberChar = rest := by
    rw [List.dropWhile_append_of_pos hall]
    cases rest with
    | nil => rfl
    | cons c rest => simp [h c rfl]
  simp [number, htake, hdrop, n.valid]

/-! ## Values read back -/

/-- What no number starts with. -/
theorem numeral_head {c : Char} (h : c.isDigit = true ∨ c = '-') :
    isBlank c = false ∧ c ≠ ']' ∧ c ∉ ['"', '[', '{', 'n', 't', 'f'] := by
  refine ⟨?_, ?_, ?_⟩
  · cases hb : isBlank c with
    | false => rfl
    | true =>
      simp only [isBlank, Bool.or_eq_true, beq_iff_eq] at hb
      rcases hb with ((rfl | rfl) | rfl) | rfl <;> simp at h
  · rintro rfl
    simp at h
  · intro hc
    simp only [List.mem_cons, List.not_mem_nil, or_false] at hc
    rcases hc with rfl | rfl | rfl | rfl | rfl | rfl <;> simp at h

/-- The first character of a value is no blank and closes nothing. -/
theorem renderChars_head (v : Json) : ∃ c cs, v.renderChars = c :: cs ∧ isBlank c = false ∧ c ≠ ']' := by
  match v with
  | .null | .bool true | .bool false | .str s | .arr [] | .arr (v :: vs) | .obj [] | .obj ((k, v) :: fs) =>
    exact ⟨_, _, by simp only [renderChars, renderString]; rfl, by decide, by decide⟩
  | .num n =>
    obtain ⟨⟨c, cs, hcs, hc⟩, -⟩ := numeral_cons n
    obtain ⟨hb, hne, -⟩ := numeral_head hc
    exact ⟨c, cs, hcs, hb, hne⟩

theorem skipBlanks_cons {c : Char} {cs : List Char} (h : isBlank c = false) : skipBlanks (c :: cs) = c :: cs := by
  simp [skipBlanks, h]

theorem name_render (s : String) (rest : List Char) : name (renderString s ++ ':' :: rest) = .some (s, rest) := by
  simp [name, renderString, skipBlanks_cons (show isBlank '"' = false by decide), string_render,
    skipBlanks_cons (show isBlank ':' = false by decide)]

/-- What starts neither a string, nor a list, nor an object, nor a literal is read as a number. -/
theorem value_eq_number {c : Char} {cs : List Char} (fuel : Nat) (hb : isBlank c = false)
    (hne : c ∉ ['"', '[', '{', 'n', 't', 'f']) : value (fuel + 1) (c :: cs) = number (c :: cs) := by
  simp only [List.mem_cons, List.not_mem_nil, or_false, not_or] at hne
  obtain ⟨hquote, hbracket, hbrace, hn, ht, hf⟩ := hne
  simp only [value, skipBlanks_cons hb]
  split
  · next he => exact absurd (List.cons.inj he).1 hquote
  · next he => exact absurd (List.cons.inj he).1 hbracket
  · next he => exact absurd (List.cons.inj he).1 hbrace
  · unfold word
    split
    · next he => exact absurd (List.cons.inj he).1 hn
    · next he => exact absurd (List.cons.inj he).1 ht
    · next he => exact absurd (List.cons.inj he).1 hf
    · rfl

theorem value_num (n : Numeral) (fuel : Nat) {rest : List Char} (h : Ends rest) :
    value (fuel + 1) (n.text ++ rest) = .some (.num n, rest) := by
  obtain ⟨⟨c, cs, hcs, hc⟩, -⟩ := numeral_cons n
  obtain ⟨hb, -, hne⟩ := numeral_head hc
  have hnum := number_render n h
  rw [hcs, List.cons_append] at hnum ⊢
  rw [value_eq_number fuel hb hne, hnum]

theorem ends_items (vs : List Json) (rest : List Char) : Ends (renderItems vs ++ rest) := by
  cases vs <;> simp [renderItems, Ends, isNumberChar]

theorem ends_fields (fs : List (String × Json)) (rest : List Char) : Ends (renderFields fs ++ rest) := by
  cases fs <;> simp [renderFields, Ends, isNumberChar]

mutual

theorem value_render : ∀ (v : Json) (fuel : Nat) (rest : List Char), v.renderChars.length ≤ fuel → Ends rest →
    value fuel (v.renderChars ++ rest) = .some (v, rest)
  | v, 0, _, hf, _ => by
    obtain ⟨c, cs, hcs, -⟩ := renderChars_head v
    simp [hcs] at hf
  | .null, fuel + 1, rest, _, _ => by simp [renderChars, value, skipBlanks, isBlank, word]
  | .bool true, fuel + 1, rest, _, _ => by simp [renderChars, value, skipBlanks, isBlank, word]
  | .bool false, fuel + 1, rest, _, _ => by simp [renderChars, value, skipBlanks, isBlank, word]
  | .num n, fuel + 1, rest, _, hr => value_num n fuel hr
  | .str s, fuel + 1, rest, _, _ => by
    simp [renderChars, renderString, value, skipBlanks, isBlank, string_render]
  | .arr [], fuel + 1, rest, _, _ => by simp [renderChars, value, skipBlanks, isBlank]
  | .arr (v :: vs), fuel + 1, rest, hf, _ => by
    simp only [renderChars, List.length_cons, List.length_append] at hf
    have hv := value_render v fuel (renderItems vs ++ rest) (by omega) (ends_items vs rest)
    have hvs := items_render vs fuel rest (by omega)
    obtain ⟨c, cs, hcs, hb, hne⟩ := renderChars_head v
    rw [hcs, List.cons_append] at hv
    have hopen : skipBlanks ('[' :: (c :: (cs ++ (renderItems vs ++ rest)))) = _ := skipBlanks_cons (by decide)
    simp only [renderChars, hcs, List.cons_append, List.append_assoc, value, hopen, skipBlanks_cons hb]
    split
    · next he => exact absurd (List.cons.inj he).1 hne
    · simp [hv, hvs]
  | .obj [], fuel + 1, rest, _, _ => by simp [renderChars, value, skipBlanks, isBlank]
  | .obj ((k, v) :: fs), fuel + 1, rest, hf, _ => by
    simp only [renderChars, List.length_cons, List.length_append] at hf
    have hv := value_render v fuel (renderFields fs ++ rest) (by omega) (ends_fields fs rest)
    have hfs := fields_render fs fuel rest (by omega)
    have hname := name_render k (v.renderChars ++ (renderFields fs ++ rest))
    simp only [renderString, List.cons_append, List.append_assoc, List.nil_append] at hname
    simp [renderChars, renderString, value, skipBlanks, isBlank, hname, hv, hfs]

theorem items_render : ∀ (vs : List Json) (fuel : Nat) (rest : List Char), (renderItems vs).length ≤ fuel →
    items fuel (renderItems vs ++ rest) = .some (vs, rest)
  | [], 0, _, hf | _ :: _, 0, _, hf => by simp [renderItems] at hf
  | [], fuel + 1, rest, _ => by simp [renderItems, items, skipBlanks, isBlank]
  | v :: vs, fuel + 1, rest, hf => by
    simp only [renderItems, List.length_cons, List.length_append] at hf
    have hv := value_render v fuel (renderItems vs ++ rest) (by omega) (ends_items vs rest)
    have hvs := items_render vs fuel rest (by omega)
    simp [renderItems, items, skipBlanks, isBlank, hv, hvs]

theorem fields_render : ∀ (fs : List (String × Json)) (fuel : Nat) (rest : List Char),
    (renderFields fs).length ≤ fuel → fields fuel (renderFields fs ++ rest) = .some (fs, rest)
  | [], 0, _, hf | _ :: _, 0, _, hf => by simp [renderFields] at hf
  | [], fuel + 1, rest, _ => by simp [renderFields, fields, skipBlanks, isBlank]
  | (k, v) :: fs, fuel + 1, rest, hf => by
    simp only [renderFields, List.length_cons, List.length_append] at hf
    have hv := value_render v fuel (renderFields fs ++ rest) (by omega) (ends_fields fs rest)
    have hfs := fields_render fs fuel rest (by omega)
    simp [renderFields, fields, skipBlanks, isBlank, name_render, hv, hfs]

end

/-- **Round trip.** What is written is read back. -/
theorem parse_render (v : Json) : parse v.render = .some v := by
  have h := value_render v v.renderChars.length [] (Nat.le_refl _) (by simp [Ends])
  rw [List.append_nil] at h
  unfold parse render
  rw [String.toList_ofList, h]
  rfl

/-- **Refusal.** What starts with none of a value's first characters is no value. -/
theorem parse_of_head {c : Char} {text : String} (ht : text.toList.head? = .some c) (hb : isBlank c = false)
    (hn : isNumberChar c = false) (hne : c ∉ ['"', '[', '{', 'n', 't', 'f']) : parse text = .none := by
  obtain ⟨cs, hcs⟩ : ∃ cs, text.toList = c :: cs := by
    cases h : text.toList with
    | nil => simp [h] at ht
    | cons d cs =>
      obtain rfl : d = c := by simpa [h] using ht
      exact ⟨cs, rfl⟩
  have hnumber : number (c :: cs) = .none := by simp [number, hn, isNumeral, isUnsigned]
  have hvalue : value (cs.length + 1) (c :: cs) = .none := (value_eq_number _ hb hne).trans hnumber
  simp [parse, hcs, hvalue]

end Json

end Blitzwing
