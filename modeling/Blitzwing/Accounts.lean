/-
The two validators of a Hedera account id, over all texts.

`validate_hedera_account_id` of the orchestrator strips what Python calls white
space and asks for `isdigit`, which digits of every script are; the ENS service
trims what JavaScript calls white space and asks for `\d`, which only ASCII
digits are. Both accept an account between white space of their own, so they
agree on a text exactly if, whenever it is an account to either, it is an ASCII
one between white space of both (`validators_agree_iff`).
-/
import Blitzwing.Lib.Trim
import Blitzwing.Registry
import Blitzwing.EnsService

namespace Blitzwing

open PyText

/-! ## Accounts -/

/-- `0.0.` and then `num`. -/
def accountText (num : List Char) : List Char := '0' :: '.' :: '0' :: '.' :: num

/-- `0.0.N`, with digits of this kind. -/
def IsAccount (digit : Char → Bool) (core : List Char) : Prop :=
  ∃ num, core = accountText num ∧ num ≠ [] ∧ ∀ c ∈ num, digit c = true

/-- An account, between white space of this kind. -/
def Accountlike (space digit : Char → Bool) (s : String) : Prop :=
  ∃ core, IsAccount digit core ∧ Framed space core s.toList

/-- White space of both. -/
def bothSpace (c : Char) : Bool := isSpace c && Ens.isTrimmed c

/-! ## White space and digits -/

/-- The code points of white space, of either kind. -/
def spaceCodes : List Nat :=
  [0x9, 0xa, 0xb, 0xc, 0xd, 0x1c, 0x1d, 0x1e, 0x1f, 0x20, 0x85, 0xa0, 0x1680, 0x2000, 0x2001, 0x2002, 0x2003, 0x2004,
    0x2005, 0x2006, 0x2007, 0x2008, 0x2009, 0x200a, 0x2028, 0x2029, 0x202f, 0x205f, 0x3000, 0xfeff]

theorem mem_spaceCodes {c : Char} (h : isSpace c = true ∨ Ens.isTrimmed c = true) : c.toNat ∈ spaceCodes := by
  simp only [isSpace, isNumberSpace, Ens.isTrimmed, spaceCodes, Bool.or_eq_true, Bool.and_eq_true, decide_eq_true_eq,
    beq_iff_eq, List.contains_eq_mem, List.mem_cons, List.not_mem_nil, or_false] at *
  omega

/-- **Where the two differ**: Python strips the separators and the next-line
character too, JavaScript the byte order mark. -/
theorem isTrimmed_iff (c : Char) : Ens.isTrimmed c = true ↔
    isSpace c = true ∧ c.toNat ∉ [0x1c, 0x1d, 0x1e, 0x1f, 0x85] ∨ c.toNat = 0xfeff := by
  simp only [isSpace, isNumberSpace, Ens.isTrimmed, Bool.or_eq_true, Bool.and_eq_true, decide_eq_true_eq,
    beq_iff_eq, List.contains_eq_mem, List.mem_cons, List.not_mem_nil, or_false]
  omega

/-- A digit is no white space. -/
theorem not_space_of_isDigit {c : Char} (h : isDigit c = true) : isSpace c = false ∧ Ens.isTrimmed c = false := by
  have hcodes : ∀ n ∈ spaceCodes, (decimalZeros.find? fun z => z ≤ n && n < z + 10) = .none ∧
      (otherDigits.any fun r => r.1 ≤ n && n ≤ r.2) = false := by decide
  by_contra hspace
  have hmem : c.toNat ∈ spaceCodes := by
    refine mem_spaceCodes ?_
    by_contra hno
    simp only [not_or, Bool.not_eq_true] at hno
    exact hspace hno
  obtain ⟨hzeros, hothers⟩ := hcodes c.toNat hmem
  simp [isDigit, decimal?, hzeros, hothers] at h

theorem isDigit_of_ascii {c : Char} (h : c.isDigit = true) : isDigit c = true := by
  simp [isDigit, decimal?_ascii h]

theorem not_mem_dot {num : List Char} (h : ∀ c ∈ num, isDigit c = true) : '.' ∉ num :=
  fun hmem => absurd (h '.' hmem) (by decide)

theorem IsAccount.mono {digit digit' : Char → Bool} {core : List Char} (h : IsAccount digit core)
    (himp : ∀ c, digit c = true → digit' c = true) : IsAccount digit' core := by
  obtain ⟨num, hcore, hne, hdigits⟩ := h
  exact ⟨num, hcore, hne, fun c hc => himp c (hdigits c hc)⟩

/-- An account neither begins nor ends with white space. -/
theorem IsAccount.bare {core : List Char} (h : IsAccount isDigit core) {space : Char → Bool} (hzero : space '0' = false)
    (hdigit : ∀ c, isDigit c = true → space c = false) : Bare space core := by
  obtain ⟨num, rfl, hne, hdigits⟩ := h
  refine ⟨by simp [accountText], ?_, ?_⟩
  · intro c hc
    obtain rfl := Option.some.inj hc
    exact hzero
  · intro c hc
    have hlast : c ∈ num.getLast? := by
      obtain ⟨d, rest, rfl⟩ := List.exists_cons_of_ne_nil hne
      simpa [accountText, List.getLast?_cons_cons] using hc
    exact hdigit c (hdigits c (List.mem_of_mem_getLast? hlast))

theorem IsAccount.bareSpace {core : List Char} (h : IsAccount isDigit core) : Bare isSpace core :=
  h.bare (by decide) fun _ hc => (not_space_of_isDigit hc).1

theorem IsAccount.bareTrimmed {core : List Char} (h : IsAccount isDigit core) : Bare Ens.isTrimmed core :=
  h.bare (by decide) fun _ hc => (not_space_of_isDigit hc).2

/-! ## What each accepts -/

theorem intercalate_account (num : List Char) : ['.'].intercalate [['0'], ['0'], num] = accountText num := by
  simp [List.intercalate, accountText]

/-- The three parts of an account. -/
theorem split_accountText {num : List Char} (h : '.' ∉ num) :
    split (.ofList (accountText num)) '.' = ["0", "0", .ofList num] := by
  have hparts : (accountText num).splitOn '.' = [['0'], ['0'], num] :=
    intercalate_account num ▸ List.splitOn_intercalate '.' (by simp [h]) (by simp)
  rw [split, String.toList_ofList, hparts]
  rfl

theorem eq_accountText_of_split {value : String} {num : String} (h : split value '.' = ["0", "0", num]) :
    value.toList = accountText num.toList := by
  have hparts : value.toList.splitOn '.' = [['0'], ['0'], num.toList] := by
    have hlists := congrArg (List.map String.toList) h
    simpa [split, List.map_map, Function.comp_def] using hlists
  have hwhole : ['.'].intercalate (value.toList.splitOn '.') = value.toList := List.intercalate_splitOn '.'
  rw [hparts, intercalate_account] at hwhole
  exact hwhole.symm

/-- **The orchestrator** accepts an account between Python's white space. -/
theorem validateHederaAccountId_eq_ok {s v : String} : validateHederaAccountId s = .ok v ↔
    v = strip s ∧ IsAccount isDigit (strip s).toList := by
  constructor
  · intro h
    simp only [validateHederaAccountId] at h
    split at h
    · next shard realm num hsplit =>
      split at h
      · cases h
      · next hparts =>
        obtain rfl := Except.ok.inj h
        simp only [not_or, not_not, Bool.not_eq_false] at hparts
        obtain ⟨rfl, rfl, hdigits⟩ := hparts
        simp only [allDigits, Bool.and_eq_true, Bool.not_eq_true', List.isEmpty_eq_false_iff, List.all_eq_true] at hdigits
        exact ⟨rfl, num.toList, eq_accountText_of_split hsplit, hdigits⟩
    · cases h
  · intro h
    obtain ⟨rfl, num, hcore, hne, hdigits⟩ := h
    have hstrip : strip s = .ofList (accountText num) := by rw [← hcore, String.ofList_toList]
    have hall : allDigits (.ofList num) = true := by
      simpa [allDigits, String.toList_ofList, hne] using hdigits
    simp [validateHederaAccountId, hstrip, split_accountText (not_mem_dot hdigits), hall]

/-- **The ENS service** accepts an account between JavaScript's. -/
theorem ensValidate_eq_ok {s v : String} : Ens.validateHederaAccountId s = .ok v ↔
    v = .ofList (Ens.trim s) ∧ IsAccount Char.isDigit (Ens.trim s) := by
  unfold Ens.validateHederaAccountId
  split
  · next num hcore =>
    have haccount : IsAccount Char.isDigit (Ens.trim s) ↔ Ens.isDecimal num = true := by
      simp only [Ens.isDecimal, Bool.and_eq_true, Bool.not_eq_true', List.isEmpty_eq_false_iff, List.all_eq_true]
      constructor
      · intro h
        obtain ⟨num', hcore', hdigits⟩ := h
        have heq : accountText num = accountText num' := hcore.symm.trans hcore'
        simp only [accountText, List.cons.injEq, true_and] at heq
        rwa [heq]
      · intro h
        exact ⟨num, hcore, h⟩
    rw [haccount]
    cases Ens.isDecimal num <;> simp [eq_comm]
  · next hcore =>
    constructor
    · intro h
      cases h
    · intro h
      obtain ⟨-, num, hnum, -⟩ := h
      exact absurd hnum (hcore num)

/-- The texts that each accepts. -/
theorem accepts_iff (s : String) : (∃ v, validateHederaAccountId s = .ok v) ↔ Accountlike isSpace isDigit s := by
  simp only [validateHederaAccountId_eq_ok, exists_eq_left]
  constructor
  · intro h
    exact ⟨_, h, by rw [strip, String.toList_ofList]; exact framed_stripBy _ _⟩
  · intro h
    obtain ⟨core, haccount, hframed⟩ := h
    rwa [strip, String.toList_ofList, stripBy_of_framed haccount.bareSpace hframed]

theorem ensAccepts_iff (s : String) :
    (∃ v, Ens.validateHederaAccountId s = .ok v) ↔ Accountlike Ens.isTrimmed Char.isDigit s := by
  simp only [ensValidate_eq_ok, exists_eq_left]
  constructor
  · intro h
    exact ⟨_, h, framed_stripBy _ _⟩
  · intro h
    obtain ⟨core, haccount, hframed⟩ := h
    rwa [Ens.trim, stripBy_of_framed (haccount.mono fun _ => isDigit_of_ascii).bareTrimmed hframed]

/-! ## The two together -/

/-- Both accept the text or neither does, and what they return is `0.0.N` with ASCII digits. -/
structure ValidatorsAgree (s : String) : Prop where
  accepts : (∃ v, validateHederaAccountId s = .ok v) ↔ ∃ v, Ens.validateHederaAccountId s = .ok v
  orchestrator : ∀ v, validateHederaAccountId s = .ok v → IsAccount Char.isDigit v.toList
  ens : ∀ v, Ens.validateHederaAccountId s = .ok v → IsAccount Char.isDigit v.toList

/-- **The validators agree on a text** exactly if, whenever it is an account
between white space to one of them, it has ASCII digits and white space of both. -/
theorem validators_agree_iff (s : String) : ValidatorsAgree s ↔
    (Accountlike isSpace isDigit s ∨ Accountlike Ens.isTrimmed Char.isDigit s → Accountlike bothSpace Char.isDigit s) := by
  have hens : ∀ v, Ens.validateHederaAccountId s = .ok v → IsAccount Char.isDigit v.toList := by
    intro v hv
    obtain ⟨rfl, haccount⟩ := ensValidate_eq_ok.1 hv
    rwa [String.toList_ofList]
  constructor
  · intro hagree heither
    have hboth : (∃ v, validateHederaAccountId s = .ok v) ∧ ∃ v, Ens.validateHederaAccountId s = .ok v := by
      obtain h | h := heither
      · exact ⟨(accepts_iff s).2 h, hagree.accepts.1 ((accepts_iff s).2 h)⟩
      · exact ⟨hagree.accepts.2 ((ensAccepts_iff s).2 h), (ensAccepts_iff s).2 h⟩
    obtain ⟨⟨v, hv⟩, hother⟩ := hboth
    obtain ⟨rfl, -⟩ := validateHederaAccountId_eq_ok.1 hv
    have hascii := hagree.orchestrator _ hv
    obtain ⟨core, haccount, hframed⟩ := (ensAccepts_iff s).1 hother
    have hpy : Framed isSpace (strip s).toList s.toList := by
      rw [strip, String.toList_ofList]
      exact framed_stripBy _ _
    have hany := hascii.mono fun _ => isDigit_of_ascii
    have hany' := haccount.mono fun _ => isDigit_of_ascii
    exact ⟨_, hascii, (hpy.both hframed hany.bareSpace hany'.bareSpace hany.bareTrimmed hany'.bareTrimmed).2⟩
  · intro hplain
    have hpy : Accountlike bothSpace Char.isDigit s → Accountlike isSpace isDigit s := by
      intro h
      obtain ⟨core, haccount, hframed⟩ := h
      exact ⟨core, haccount.mono fun _ => isDigit_of_ascii, hframed.imp fun c hc => (Bool.and_eq_true _ _ ▸ hc).1⟩
    have hjs : Accountlike bothSpace Char.isDigit s → Accountlike Ens.isTrimmed Char.isDigit s := by
      intro h
      obtain ⟨core, haccount, hframed⟩ := h
      exact ⟨core, haccount, hframed.imp fun c hc => (Bool.and_eq_true _ _ ▸ hc).2⟩
    refine ⟨?_, ?_, hens⟩
    · rw [accepts_iff, ensAccepts_iff]
      exact ⟨fun h => hjs (hplain (.inl h)), fun h => hpy (hplain (.inr h))⟩
    · intro v hv
      obtain ⟨core, haccount, hframed⟩ := hplain (.inl ((accepts_iff s).1 ⟨v, hv⟩))
      obtain ⟨rfl, -⟩ := validateHederaAccountId_eq_ok.1 hv
      have hspace : Framed isSpace core s.toList := hframed.imp fun c hc => (Bool.and_eq_true _ _ ▸ hc).1
      rwa [strip, String.toList_ofList, stripBy_of_framed (haccount.mono fun _ => isDigit_of_ascii).bareSpace hspace]

/-- What the orchestrator stores of a text they agree on, the ENS service writes as it is. -/
theorem ValidatorsAgree.written {s v : String} (h : ValidatorsAgree s) (hv : validateHederaAccountId s = .ok v) :
    Ens.validateHederaAccountId v = .ok v := by
  have haccount := h.orchestrator v hv
  have htrim : Ens.trim v = v.toList := by
    have hbare := (haccount.mono fun _ => isDigit_of_ascii).bareTrimmed
    exact stripBy_of_ends hbare.head hbare.last
  refine ensValidate_eq_ok.2 ⟨?_, htrim ▸ haccount⟩
  rw [htrim, String.ofList_toList]

/-- **What the two disagree on**: digits of another script, a separator and a
byte order mark. -/
theorem validators_disagree :
    (validateHederaAccountId "0.0.١٢" = .ok "0.0.١٢" ∧
      Ens.validateHederaAccountId "0.0.١٢" = .error "Invalid hederaAccountId: 0.0.١٢" ∧ ¬ ValidatorsAgree "0.0.١٢") ∧
    (validateHederaAccountId "\x1c0.0.5" = .ok "0.0.5" ∧
      Ens.validateHederaAccountId "\x1c0.0.5" = .error "Invalid hederaAccountId: \x1c0.0.5" ∧
      ¬ ValidatorsAgree "\x1c0.0.5") ∧
    validateHederaAccountId "\ufeff0.0.5" = .error (.valueError "hedera_account_id must look like 0.0.123456") ∧
      Ens.validateHederaAccountId "\ufeff0.0.5" = .ok "0.0.5" ∧ ¬ ValidatorsAgree "\ufeff0.0.5" := by
  have hdigits : validateHederaAccountId "0.0.١٢" = .ok "0.0.١٢" ∧
      Ens.validateHederaAccountId "0.0.١٢" = .error "Invalid hederaAccountId: 0.0.١٢" := by decide +kernel
  have hseparator : validateHederaAccountId "\x1c0.0.5" = .ok "0.0.5" ∧
      Ens.validateHederaAccountId "\x1c0.0.5" = .error "Invalid hederaAccountId: \x1c0.0.5" := by decide +kernel
  have hmark : validateHederaAccountId "\ufeff0.0.5" = .error (.valueError "hedera_account_id must look like 0.0.123456") ∧
      Ens.validateHederaAccountId "\ufeff0.0.5" = .ok "0.0.5" := by decide +kernel
  refine ⟨⟨hdigits.1, hdigits.2, fun h => ?_⟩, ⟨hseparator.1, hseparator.2, fun h => ?_⟩, hmark.1, hmark.2, fun h => ?_⟩
  · obtain ⟨v, hv⟩ := h.accepts.1 ⟨_, hdigits.1⟩
    cases hdigits.2.symm.trans hv
  · obtain ⟨v, hv⟩ := h.accepts.1 ⟨_, hseparator.1⟩
    cases hseparator.2.symm.trans hv
  · obtain ⟨v, hv⟩ := h.accepts.2 ⟨_, hmark.2⟩
    cases hmark.1.symm.trans hv

end Blitzwing
