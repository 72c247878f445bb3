/-
Python's `urlparse(url).hostname`.

Leading control characters and blanks go, tabs and line breaks go anywhere,
then the scheme up to the first colon, if its characters allow one; what
stands between `//` and the next `/`, `?` or `#` is the network location. The
host is what its last `@` leaves, up to the port, or what brackets enclose.

`urlsplit` refuses more network locations than those with unmatched brackets:
brackets around what is no address, and characters that NFKC turns into
delimiters, so none in ASCII without brackets (`isUnchecked`). What it refuses
of the others depends on the interpreter and its Unicode tables, and is an
argument: the text of the `ValueError`, if there is one. Only ASCII letters are
lowered. Of a dotted address with a port the host is the address
(`hostname_http`).
-/
import Blitzwing.Lib.PyText
import Mathlib.Data.List.TakeWhile

namespace Blitzwing.UrlText

/-- `url.lstrip(...)` of C0 controls and space, then no tab, CR or LF. -/
def clean (url : List Char) : List Char :=
  (url.dropWhile fun c => c.toNat ≤ 0x20).filter fun c => c ≠ '\t' && c ≠ '\r' && c ≠ '\n'

def isSchemeChar (c : Char) : Bool := c.isAlphanum || c == '+' || c == '-' || c == '.'

/-- What follows the scheme and its colon, if the text starts with one. -/
def dropScheme (url : List Char) : List Char :=
  match url.span (· ≠ ':') with
  | (c :: cs, _ :: rest) => if c.isAlpha && (c :: cs).all isSchemeChar then rest else url
  | _ => url

def netloc (url : String) : List Char :=
  match dropScheme (clean url.toList) with
  | '/' :: '/' :: rest => rest.takeWhile fun c => c ≠ '/' && c ≠ '?' && c ≠ '#'
  | _ => []

/-- The host of a network location: user and port are cut off. -/
def hostOf (netloc : List Char) : List Char :=
  let hostinfo := (netloc.reverse.takeWhile (· ≠ '@')).reverse
  match hostinfo.dropWhile (· ≠ '[') with
  | _ :: bracketed => bracketed.takeWhile (· ≠ ']')
  | [] => hostinfo.takeWhile (· ≠ ':')

/-- The zone of a scoped address keeps its case. -/
def lowerHost (host : List Char) : List Char :=
  (host.takeWhile (· ≠ '%')).map Char.toLower ++ host.dropWhile (· ≠ '%')

/-- ASCII, and nothing in brackets. -/
def isUnchecked (loc : List Char) : Bool := loc.all fun c => decide (c.toNat < 128) && c ≠ '[' && c ≠ ']'

/-- `urlparse(url).hostname or ""`, or the text of the `ValueError`. -/
def hostname (refused : String → Option String) (url : String) : Except String String :=
  let loc := netloc url
  if loc.contains '[' ≠ loc.contains ']' then .error "Invalid IPv6 URL"
  else match if isUnchecked loc then .none else refused (.ofList loc) with
    | .some text => .error text
    | .none => .ok (.ofList (lowerHost (hostOf loc)))

example : hostname (fun _ => .none) " HTTP://me@Example.org:8001/status?x=1" = .ok "example.org" := by decide

/-! ## Numbers with dots -/

/-- A character of a dotted address and its port. -/
def isPlain (c : Char) : Bool := c.isDigit || c == '.' || c == ':'

theorem plain_range {c : Char} (h : isPlain c = true) : 46 ≤ c.toNat ∧ c.toNat ≤ 58 := by
  simp only [isPlain, Bool.or_eq_true, beq_iff_eq] at h
  obtain (h | rfl) | rfl := h
  · obtain ⟨h₁, h₂⟩ := PyText.isDigit_range h
    omega
  · decide
  · decide

theorem ne_of_plain {c d : Char} (h : isPlain c = true) (hd : isPlain d = false) : c ≠ d := by
  rintro rfl
  rw [h] at hd
  cases hd

theorem toLower_of_plain {c : Char} (h : isPlain c = true) : c.toLower = c := by
  have hrange := plain_range h
  unfold Char.toLower
  split
  · next hupper =>
    have hge : 65 ≤ c.toNat := hupper.1
    omega
  · rfl

section

variable {loc host port : List Char}

/-- The network location of `http://` and a plain text is that text. -/
theorem netloc_http (hloc : ∀ c ∈ loc, isPlain c = true) : netloc (.ofList ("http://".toList ++ loc)) = loc := by
  have hclean : clean ("http://".toList ++ loc) = "http://".toList ++ loc := by
    have hkeep : ∀ c ∈ "http://".toList ++ loc, (c ≠ '\t' && c ≠ '\r' && c ≠ '\n') = true := by
      intro c hc
      have hscheme : "http://".toList.all (fun c => c ≠ '\t' && c ≠ '\r' && c ≠ '\n') = true := by decide
      obtain hc | hc := List.mem_append.1 hc
      · exact List.all_eq_true.1 hscheme c hc
      · simp [ne_of_plain (hloc c hc) (d := '\t') (by decide), ne_of_plain (hloc c hc) (d := '\r') (by decide),
          ne_of_plain (hloc c hc) (d := '\n') (by decide)]
    exact List.filter_eq_self.2 hkeep
  have htake : loc.takeWhile (fun c => c ≠ '/' && c ≠ '?' && c ≠ '#') = loc := by
    refine List.takeWhile_eq_self_iff.2 ?_
    intro c hc
    simp [ne_of_plain (hloc c hc) (d := '/') (by decide), ne_of_plain (hloc c hc) (d := '?') (by decide),
      ne_of_plain (hloc c hc) (d := '#') (by decide)]
  rw [netloc, String.toList_ofList, hclean]
  exact htake

theorem plain_append (hhost : ∀ c ∈ host, isPlain c = true) (hport : ∀ c ∈ port, isPlain c = true) :
    ∀ c ∈ host ++ ':' :: port, isPlain c = true := by
  intro c hc
  rw [List.mem_append, List.mem_cons] at hc
  obtain hc | rfl | hc := hc
  · exact hhost c hc
  · decide
  · exact hport c hc

theorem hostOf_plain (hhost : ∀ c ∈ host, isPlain c = true) (hport : ∀ c ∈ port, isPlain c = true) (hcolon : ':' ∉ host) :
    hostOf (host ++ ':' :: port) = host := by
  have hloc : ∀ c ∈ host ++ ':' :: port, isPlain c = true := plain_append hhost hport
  have hat : (host ++ ':' :: port).reverse.takeWhile (· ≠ '@') = (host ++ ':' :: port).reverse := by
    refine List.takeWhile_eq_self_iff.2 ?_
    intro c hc
    simp [ne_of_plain (hloc c (List.mem_reverse.1 hc)) (d := '@') (by decide)]
  have hbracket : (host ++ ':' :: port).dropWhile (· ≠ '[') = [] := by
    refine List.dropWhile_eq_nil_iff.2 ?_
    intro c hc
    simp [ne_of_plain (hloc c hc) (d := '[') (by decide)]
  have hport : (host ++ ':' :: port).takeWhile (· ≠ ':') = host := by
    rw [List.takeWhile_append_of_pos]
    · simp
    · intro c hc
      have hne : c ≠ ':' := fun h => hcolon (h ▸ hc)
      simpa using hne
  simp only [hostOf, hat, List.reverse_reverse, hbracket, hport]

theorem lowerHost_plain (hhost : ∀ c ∈ host, isPlain c = true) : lowerHost host = host := by
  have hpercent : ∀ c ∈ host, (c ≠ '%' : Bool) = true := by
    intro c hc
    simpa using ne_of_plain (hhost c hc) (d := '%') (by decide)
  rw [lowerHost, List.takeWhile_eq_self_iff.2 hpercent, List.dropWhile_eq_nil_iff.2 hpercent, List.append_nil]
  exact (List.map_congr_left fun c hc => toLower_of_plain (hhost c hc)).trans (List.map_id _)

theorem isUnchecked_plain (hloc : ∀ c ∈ loc, isPlain c = true) : isUnchecked loc = true := by
  refine List.all_eq_true.2 fun c hc => ?_
  have hrange := plain_range (hloc c hc)
  simp only [ne_of_plain (hloc c hc) (d := '[') (by decide), ne_of_plain (hloc c hc) (d := ']') (by decide), ne_eq,
    not_false_eq_true, decide_true, Bool.and_true, decide_eq_true_eq]
  omega

/-- **The host of a dotted address** with a port is the address. -/
theorem hostname_http {refused : String → Option String} (hhost : ∀ c ∈ host, isPlain c = true)
    (hport : ∀ c ∈ port, isPlain c = true) (hcolon : ':' ∉ host) :
    hostname refused (.ofList ("http://".toList ++ (host ++ ':' :: port))) = .ok (.ofList host) := by
  have hloc : ∀ c ∈ host ++ ':' :: port, isPlain c = true := plain_append hhost hport
  have hopen : (host ++ ':' :: port).contains '[' = false := by
    simpa using fun h => ne_of_plain (hloc '[' h) (d := '[') (by decide) rfl
  have hclose : (host ++ ':' :: port).contains ']' = false := by
    simpa using fun h => ne_of_plain (hloc ']' h) (d := ']') (by decide) rfl
  simp only [hostname, netloc_http hloc, hopen, hclose, isUnchecked_plain hloc, hostOf_plain hhost hport hcolon,
    lowerHost_plain hhost, ne_eq, not_true_eq_false, if_false, if_true]

end

end Blitzwing.UrlText
