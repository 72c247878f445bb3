/-
The four tests of whether an address is public, over all IPv4 addresses.

Each compares a text with prefixes. Where a prefix ends at a dot it compares
octets (`prefix_octet_iff`, `prefix_octets_iff`), and the precheck's are exactly the
private ranges. The others leave out `10.`, take `172.` for private altogether or
`172.2` for an octet, so that the four agree on an address exactly if it is not in
10/8, and in 172/8 only between 172.16 and 172.31 (`addresses_agree_iff`).
-/
import Blitzwing.Lib.Parts
import Blitzwing.ChosenRoute

namespace Blitzwing

open PyText Parts UrlText

structure Ipv4 where
  a : Fin 256
  b : Fin 256
  c : Fin 256
  d : Fin 256
deriving DecidableEq, Repr

/-- The text of a peer id, a part of a multiaddr. -/
structure PeerText where
  text : String
  noSlash : '/' ∉ text.toList

namespace Ipv4

variable (ip : Ipv4)

def text : String := toString ip.a.val ++ "." ++ toString ip.b.val ++ "." ++ toString ip.c.val ++ "." ++ toString ip.d.val

def multiaddr (port : Nat) (peer : PeerText) : String :=
  "/ip4/" ++ ip.text ++ "/tcp/" ++ toString port ++ "/p2p/" ++ peer.text

def httpUrl (port : Nat) : String := "http://" ++ ip.text ++ ":" ++ toString port

/-- Loopback, or private by RFC 1918. -/
def Private : Prop :=
  ip.a.val = 127 ∨ ip.a.val = 10 ∨ ip.a.val = 172 ∧ 16 ≤ ip.b.val ∧ ip.b.val ≤ 31 ∨ ip.a.val = 192 ∧ ip.b.val = 168

instance : Decidable ip.Private := inferInstanceAs (Decidable (_ ∨ _ ∨ _ ∨ _))

/-! ## Octets -/

def octets : List Char :=
  Nat.toDigits 10 ip.a ++ '.' :: (Nat.toDigits 10 ip.b ++ '.' :: (Nat.toDigits 10 ip.c ++ '.' :: Nat.toDigits 10 ip.d))

theorem toList_text : ip.text.toList = ip.octets := by
  simp [text, octets]

variable {ip}

/-- **One octet** and its dot. -/
theorem prefix_octet_iff {rest : List Char} (n : Nat) : (Nat.toDigits 10 n ++ ['.']) <+: (ip.octets ++ rest) ↔ ip.a.val = n := by
  rw [octets, List.append_assoc, List.cons_append,
    prefix_sep_iff (not_mem_toDigits (by decide)) (not_mem_toDigits (by decide)), toDigits_inj]
  simp [eq_comm]

/-- **Two octets** and their dots. -/
theorem prefix_octets_iff {rest : List Char} (m n : Nat) :
    (Nat.toDigits 10 m ++ '.' :: (Nat.toDigits 10 n ++ ['.'])) <+: (ip.octets ++ rest) ↔ ip.a.val = m ∧ ip.b.val = n := by
  rw [octets, List.append_assoc, List.cons_append, List.append_assoc, List.cons_append,
    prefix_sep_iff (not_mem_toDigits (by decide)) (not_mem_toDigits (by decide)), toDigits_inj,
    prefix_sep_iff (not_mem_toDigits (by decide)) (not_mem_toDigits (by decide)), toDigits_inj]
  simp [eq_comm]

/-- An octet and the beginning of the next. -/
theorem prefix_octet_digit_iff {rest : List Char} (m : Nat) (c : Char) :
    (Nat.toDigits 10 m ++ ['.', c]) <+: (ip.octets ++ rest) ↔
      ip.a.val = m ∧ (Nat.toDigits 10 ip.b.val).head? = .some c := by
  rw [octets, List.append_assoc, List.cons_append,
    prefix_sep_iff (not_mem_toDigits (by decide)) (not_mem_toDigits (by decide)), toDigits_inj]
  obtain ⟨digit, digits, hb⟩ := List.exists_cons_of_ne_nil (Nat.toDigits_ne_nil (b := 10) (n := ip.b.val))
  rw [hb]
  simp [List.cons_prefix_cons, eq_comm]

/-- What is no digit begins no address. -/
theorem not_prefix_octets {rest pat : List Char} {c : Char} (hc : c.isDigit = false) :
    ¬ (c :: pat) <+: (ip.octets ++ rest) := by
  rw [octets, List.append_assoc]
  exact not_prefix_toDigits hc

theorem plain_octets : ∀ c ∈ ip.octets, isPlain c = true := by
  have hdigits : ∀ (n : Nat), ∀ c ∈ Nat.toDigits 10 n, isPlain c = true := fun n c hc => by
    simp [isPlain, isDigit_of_mem hc]
  intro c hc
  simp only [octets, List.mem_append, List.mem_cons] at hc
  obtain hc | rfl | hc | rfl | hc | rfl | hc := hc
  · exact hdigits _ c hc
  · decide
  · exact hdigits _ c hc
  · decide
  · exact hdigits _ c hc
  · decide
  · exact hdigits _ c hc

theorem not_mem_octets {c : Char} (hdigit : c.isDigit = false) (hdot : c ≠ '.') : c ∉ ip.octets := by
  simp only [octets, List.mem_append, List.mem_cons, not_or]
  exact ⟨not_mem_toDigits hdigit, hdot, not_mem_toDigits hdigit, hdot, not_mem_toDigits hdigit, hdot,
    not_mem_toDigits hdigit⟩

/-! ## The URL -/

variable {port : Nat}

theorem toList_httpUrl : (ip.httpUrl port).toList = "http://".toList ++ (ip.octets ++ ':' :: Nat.toDigits 10 port) := by
  simp [httpUrl, toList_text]

theorem plain_port : ∀ c ∈ Nat.toDigits 10 port, isPlain c = true := fun c hc => by
  simp [isPlain, isDigit_of_mem hc]

theorem toList_toLower (s : String) : s.toLower.toList = s.toList.map Char.toLower := String.toList_map

theorem toLower_httpUrl : (ip.httpUrl port).toLower = ip.httpUrl port := by
  have hscheme : "http://".toList.map Char.toLower = "http://".toList := by decide
  have hrest : (ip.octets ++ ':' :: Nat.toDigits 10 port).map Char.toLower = ip.octets ++ ':' :: Nat.toDigits 10 port := by
    refine (List.map_congr_left fun c hc => ?_).trans (List.map_id _)
    exact toLower_of_plain (plain_append plain_octets plain_port c hc)
  refine String.toList_inj.1 ?_
  rw [toList_toLower, toList_httpUrl, List.map_append, hscheme, hrest]

/-- What the URL begins with, after the scheme. -/
theorem startsWith_httpUrl {pre : String} (pat : List Char) (hpre : pre.toList = "http://".toList ++ pat) :
    startsWith (ip.httpUrl port) pre = true ↔ pat <+: (ip.octets ++ ':' :: Nat.toDigits 10 port) := by
  rw [startsWith, List.isPrefixOf_iff_prefix, toList_httpUrl, hpre, List.prefix_append_right_inj]

theorem httpUrl_ne_empty : ip.httpUrl port ≠ "" := by
  intro h
  have hlist := congrArg String.toList h
  rw [toList_httpUrl] at hlist
  simp at hlist

theorem startsWith_http : startsWith (ip.httpUrl port) "http://" = true :=
  (startsWith_httpUrl [] rfl).2 List.nil_prefix

/-- A prefix that ends after the first octet, and one that ends after the second. -/
theorem startsWith_octet (pre : String) (n : Nat) (hpre : pre.toList = "http://".toList ++ (Nat.toDigits 10 n ++ ['.'])) :
    startsWith (ip.httpUrl port) pre = true ↔ ip.a.val = n :=
  (startsWith_httpUrl _ hpre).trans (prefix_octet_iff n)

theorem startsWith_octets (pre : String) (m n : Nat)
    (hpre : pre.toList = "http://".toList ++ (Nat.toDigits 10 m ++ '.' :: (Nat.toDigits 10 n ++ ['.']))) :
    startsWith (ip.httpUrl port) pre = true ↔ ip.a.val = m ∧ ip.b.val = n :=
  (startsWith_httpUrl _ hpre).trans (prefix_octets_iff m n)

theorem not_startsWith_localhost : ¬ startsWith (ip.httpUrl port) "http://localhost" = true :=
  fun h => not_prefix_octets (by decide) ((startsWith_httpUrl ('l' :: "ocalhost".toList) rfl).1 h)

/-- `swarm_map._is_public_http_url`: nothing of 10/8 is private to it, and all of 172/8. -/
theorem routing_iff : SwarmMap.isPublicHttpUrl (ip.httpUrl port) = true ↔
    ip.a.val ≠ 127 ∧ ip.a.val ≠ 172 ∧ ¬ (ip.a.val = 192 ∧ ip.b.val = 168) := by
  simp only [SwarmMap.isPublicHttpUrl, httpUrl_ne_empty, if_false, toLower_httpUrl, Bool.or_eq_true, startsWith_http,
    not_startsWith_localhost, startsWith_octet "http://127." 127 rfl,
    startsWith_octet "http://172." 172 rfl,
    startsWith_octets "http://192.168." 192 168 rfl, Bool.false_eq_true, or_false]
  split
  · simp only [Bool.false_eq_true, false_iff]
    omega
  · split
    · simp only [Bool.false_eq_true, false_iff]
      omega
    · simp only [Bool.true_or, true_iff]
      omega

/-- `http_chain._is_public_http_url`: all of 172/8, too. -/
theorem conductor_iff : HttpChain.isPublicHttpUrl (ip.httpUrl port) = true ↔
    ip.a.val ≠ 127 ∧ ip.a.val ≠ 172 ∧ ip.a.val ≠ 10 ∧ ¬ (ip.a.val = 192 ∧ ip.b.val = 168) := by
  have h10 : startsWith (ip.httpUrl port) "http://10." = true ↔ ip.a.val = 10 := startsWith_octet _ _ rfl
  rw [HttpChain.isPublicHttpUrl_eq, Bool.and_eq_true, routing_iff, Bool.not_eq_true', ← Bool.not_eq_true, h10]
  omega

/-! ## The host -/

theorem toList_privatePrefix (n : Nat) : (s!"172.{n + 16}.").toList =
    Nat.toDigits 10 172 ++ '.' :: (Nat.toDigits 10 (n + 16) ++ ['.']) := by
  rw [String.toList_append, String.toList_append, show (toString (n + 16)).toList = _ from toList_toString (n + 16)]
  rfl

/-- The precheck's expression matches exactly the private addresses. -/
theorem any_privateHostPrefixes : privateHostPrefixes.any (startsWith (.ofList ip.octets)) = true ↔ ip.Private := by
  have hstarts : ∀ pre : String, startsWith (.ofList ip.octets) pre = true ↔ pre.toList <+: ip.octets ++ [] := by
    intro pre
    rw [startsWith, List.isPrefixOf_iff_prefix, String.toList_ofList, List.append_nil]
  have h127 : "127.".toList <+: ip.octets ++ [] ↔ ip.a.val = 127 := prefix_octet_iff 127
  have h10 : "10.".toList <+: ip.octets ++ [] ↔ ip.a.val = 10 := prefix_octet_iff 10
  have h192 : "192.168.".toList <+: ip.octets ++ [] ↔ ip.a.val = 192 ∧ ip.b.val = 168 := prefix_octets_iff 192 168
  simp only [privateHostPrefixes, List.any_append, List.any_cons, List.any_nil, List.any_map, Bool.or_eq_true, hstarts,
    h127, h10, h192, List.any_eq_true, List.mem_range, Function.comp_apply, toList_privatePrefix, prefix_octets_iff, Private,
    Bool.false_eq_true, or_false]
  constructor
  · intro h
    obtain (h | h | h) | ⟨n, hn, ha, hb⟩ := h <;> omega
  · intro h
    obtain h | h | ⟨ha, hlo, hhi⟩ | h := h
    · exact .inl (.inl h)
    · exact .inl (.inr (.inl h))
    · exact .inr ⟨ip.b.val - 16, by omega, ha, by omega⟩
    · exact .inl (.inr (.inr h))

/-- `peer_verify._is_public_http_url`: RFC 1918 and loopback. -/
theorem precheck_eq {out : Outside} : isPublicHttpHost out (ip.httpUrl port) = .ok (decide (¬ ip.Private)) := by
  have hurl : ip.httpUrl port = .ofList ("http://".toList ++ (ip.octets ++ ':' :: Nat.toDigits 10 port)) := by
    rw [← toList_httpUrl, String.ofList_toList]
  have hhost : hostname out.refused (.ofList ("http://".toList ++ (ip.octets ++ ':' :: Nat.toDigits 10 port))) = _ :=
    hostname_http plain_octets plain_port (not_mem_octets (c := ':') (by decide) (by decide))
  have hnot : ∀ name : String, (∃ c ∈ name.toList, c.isDigit = false ∧ c ≠ '.') → String.ofList ip.octets ≠ name := by
    rintro name ⟨c, hc, hdigit, hdot⟩ rfl
    exact not_mem_octets hdigit hdot (by simpa using hc)
  have hempty : String.ofList ip.octets ≠ "" := by
    simp [octets]
  have hlocalhost : String.ofList ip.octets ≠ "localhost" := hnot _ ⟨'l', by decide, by decide, by decide⟩
  have hloopback : String.ofList ip.octets = "127.0.0.1" → ip.Private := by
    intro h
    have hprefix : Nat.toDigits 10 127 ++ ['.'] <+: ip.octets ++ [] := by
      rw [List.append_nil, ← String.toList_ofList (l := ip.octets), h]
      decide
    exact .inl ((prefix_octet_iff 127).1 hprefix)
  simp only [isPublicHttpHost, hurl, hhost, hempty, hlocalhost, false_or]
  split
  · next h => simp [hloopback h]
  · by_cases hprivate : ip.Private
    · simp [any_privateHostPrefixes.2 hprivate, hprivate]
    · have hany : privateHostPrefixes.any (startsWith (.ofList ip.octets)) = false :=
        Bool.not_eq_true _ ▸ fun h => hprivate (any_privateHostPrefixes.1 h)
      simp [hany, hprivate]

/-! ## The multiaddr -/

variable {peer : PeerText}

/-- No letter's lower case is a slash. -/
theorem toLower_ne_slash {c : Char} (h : c ≠ '/') : c.toLower ≠ '/' := by
  unfold Char.toLower
  split
  · next hupper =>
    intro hslash
    have hval : (c.val + 32).toNat = 47 := congrArg (fun c : Char => c.val.toNat) hslash
    have hlo : 65 ≤ c.val.toNat := UInt32.le_iff_toNat_le.1 hupper.1
    have hhi : c.val.toNat ≤ 90 := UInt32.le_iff_toNat_le.1 hupper.2
    rw [UInt32.toNat_add, show (32 : UInt32).toNat = 32 from rfl] at hval
    omega
  · exact h

variable (ip port peer) in
/-- What follows the address, lowered. -/
def afterOctets : List Char :=
  '/' :: "tcp".toList ++ ('/' :: Nat.toDigits 10 port ++
    ('/' :: "p2p".toList ++ ('/' :: (peer.text.toList.map Char.toLower) ++ [])))

theorem toList_toLower_multiaddr : ((ip.multiaddr port peer).toLower).toList =
    '/' :: "ip4".toList ++ ('/' :: ip.octets ++ afterOctets port peer) := by
  have hlower : ∀ l : List Char, (∀ c ∈ l, isPlain c = true) → l.map Char.toLower = l := fun l hl =>
    (List.map_congr_left fun c hc => toLower_of_plain (hl c hc)).trans (List.map_id _)
  have hip : "/ip4/".toList.map Char.toLower = '/' :: "ip4".toList ++ ['/'] := by decide
  have htcp : "/tcp/".toList.map Char.toLower = '/' :: "tcp".toList ++ ['/'] := by decide
  have hp2p : "/p2p/".toList.map Char.toLower = '/' :: "p2p".toList ++ ['/'] := by decide
  rw [toList_toLower, multiaddr]
  simp only [String.toList_append, List.map_append, hip, htcp, hp2p, toList_text, toList_toString,
    hlower _ plain_octets, hlower _ plain_port, afterOctets]
  simp

/-- The pattern's first part is found as no other part of the multiaddr. -/
theorem not_infix_afterOctets {pat : List Char} :
    ¬ ('/' :: ("ip4".toList ++ '/' :: pat)) <:+: afterOctets port peer := by
  have hport : '/' ∉ Nat.toDigits 10 port := not_mem_toDigits (by decide)
  have hpeer : '/' ∉ peer.text.toList.map Char.toLower := by
    intro hmem
    obtain ⟨c, hc, hslash⟩ := List.mem_map.1 hmem
    exact toLower_ne_slash (fun h => peer.noSlash (h ▸ hc)) hslash
  rw [afterOctets, infix_part (by decide), infix_part hport, infix_part (by decide), infix_part hpeer]
  rintro (h | h | h | h | h)
  · simp [List.cons_prefix_cons] at h
  · exact not_prefix_toDigits (by decide) h
  · simp [List.cons_prefix_cons] at h
  · rw [List.append_nil] at h
    exact not_prefix_part (List.mem_append_right _ List.mem_cons_self) hpeer h
  · simp at h

/-- **A prefix after `/ip4/`** is looked for at the address, and found nowhere else. -/
theorem isIn_multiaddr {net : String} (pat : List Char) (hnet : net.toList = '/' :: ("ip4".toList ++ '/' :: pat)) :
    isIn net (ip.multiaddr port peer).toLower = true ↔ pat <+: ip.octets ++ afterOctets port peer := by
  have hfirst : ("ip4".toList ++ '/' :: pat) <+: ("ip4".toList ++ ('/' :: ip.octets ++ afterOctets port peer)) ↔
      pat <+: ip.octets ++ afterOctets port peer := by
    rw [List.cons_append, prefix_sep_iff (by decide) (by decide)]
    simp
  rw [isIn, decide_eq_true_iff, hnet, toList_toLower_multiaddr, infix_part (by decide), hfirst,
    infix_part (not_mem_octets (by decide) (by decide))]
  constructor
  · rintro (h | h | h)
    · exact h
    · exact absurd h (not_prefix_octets (by decide))
    · exact absurd h not_infix_afterOctets
  · exact .inl

theorem isIn_p2p : isIn "/p2p/" (ip.multiaddr port peer).toLower = true := by
  rw [isIn, decide_eq_true_iff, toList_toLower_multiaddr]
  refine ⟨'/' :: "ip4".toList ++ ('/' :: ip.octets ++ ('/' :: "tcp".toList ++ '/' :: Nat.toDigits 10 port)),
    peer.text.toList.map Char.toLower, ?_⟩
  simp [afterOctets]

theorem multiaddr_ne_empty : ip.multiaddr port peer ≠ "" := by
  intro h
  have hlist := congrArg String.toList h
  simp [multiaddr] at hlist

/-- The pattern of one octet, and of two. -/
theorem isIn_octet (net : String) (n : Nat)
    (hnet : net.toList = '/' :: ("ip4".toList ++ '/' :: (Nat.toDigits 10 n ++ ['.']))) :
    isIn net (ip.multiaddr port peer).toLower = true ↔ ip.a.val = n :=
  (isIn_multiaddr _ hnet).trans (prefix_octet_iff n)

theorem isIn_octets (net : String) (m n : Nat)
    (hnet : net.toList = '/' :: ("ip4".toList ++ '/' :: (Nat.toDigits 10 m ++ '.' :: (Nat.toDigits 10 n ++ ['.'])))) :
    isIn net (ip.multiaddr port peer).toLower = true ↔ ip.a.val = m ∧ ip.b.val = n :=
  (isIn_multiaddr _ hnet).trans (prefix_octets_iff m n)

/-- `registry.is_public_multiaddr`: `172.2` has no dot after it, and takes every octet that begins with a 2. -/
theorem multiaddr_iff : isPublicMultiaddr (ip.multiaddr port peer) = true ↔
    ip.a.val ≠ 127 ∧ ip.a.val ≠ 10 ∧ ¬ (ip.a.val = 192 ∧ ip.b.val = 168) ∧
      (ip.a.val = 172 → (ip.b.val < 16 ∨ 19 < ip.b.val) ∧ ip.b.val ≠ 30 ∧ ip.b.val ≠ 31 ∧
        (Nat.toDigits 10 ip.b.val).head? ≠ .some '2') := by
  have h172 : isIn "/ip4/172.2" (ip.multiaddr port peer).toLower = true ↔
      ip.a.val = 172 ∧ (Nat.toDigits 10 ip.b.val).head? = .some '2' :=
    (isIn_multiaddr (Nat.toDigits 10 172 ++ ['.', '2']) rfl).trans (prefix_octet_digit_iff 172 '2')
  simp only [isPublicMultiaddr, multiaddr_ne_empty, if_false, List.any_cons, List.any_nil, Bool.or_eq_true,
    isIn_octet "/ip4/127." 127 rfl, isIn_octet "/ip4/10." 10 rfl,
    isIn_octets "/ip4/192.168." 192 168 rfl,
    isIn_octets "/ip4/172.16." 172 16 rfl,
    isIn_octets "/ip4/172.17." 172 17 rfl,
    isIn_octets "/ip4/172.18." 172 18 rfl,
    isIn_octets "/ip4/172.19." 172 19 rfl, h172,
    isIn_octets "/ip4/172.30." 172 30 rfl,
    isIn_octets "/ip4/172.31." 172 31 rfl, Bool.false_eq_true, or_false]
  split
  · simp only [Bool.false_eq_true, false_iff]
    grind
  · simp only [isIn_p2p, true_iff]
    grind

/-! ## The four together -/

variable (ip) in
/-- All four say public, or not, and what they say is right. -/
structure ChecksAgree (out : Outside) (port : Nat) (peer : PeerText) : Prop where
  multiaddr : isPublicMultiaddr (ip.multiaddr port peer) = decide (¬ ip.Private)
  routing : SwarmMap.isPublicHttpUrl (ip.httpUrl port) = decide (¬ ip.Private)
  precheck : isPublicHttpHost out (ip.httpUrl port) = .ok (decide (¬ ip.Private))
  conductor : HttpChain.isPublicHttpUrl (ip.httpUrl port) = decide (¬ ip.Private)

theorem head_twenties : ∀ n < 10, (Nat.toDigits 10 (20 + n)).head? = .some '2' := by decide

/-- Outside 10/8, and inside 172/8 only where it is private, `172.2` is a prefix of private octets alone. -/
theorem multiaddr_eq (hb : ip.a.val = 172 → 16 ≤ ip.b.val ∧ ip.b.val ≤ 31) :
    isPublicMultiaddr (ip.multiaddr port peer) = decide (¬ ip.Private) := by
  have htwenties : 20 ≤ ip.b.val → ip.b.val ≤ 29 → (Nat.toDigits 10 ip.b.val).head? = .some '2' := by
    intro hlo hhi
    rw [← Nat.add_sub_cancel' hlo]
    exact head_twenties _ (by omega)
  rw [Bool.eq_iff_iff, multiaddr_iff, decide_eq_true_iff, Private]
  grind

end Ipv4

open Ipv4

/-- **The four checks agree** exactly on the addresses that are not in 10/8 and in 172/8 only where
that is private: the routing check does not know 10/8, and it and the conductor take all of 172/8. -/
theorem addresses_agree_iff {out : Outside} {ip : Ipv4} {port : Nat} {peer : PeerText} :
    ip.ChecksAgree out port peer ↔ ip.a.val ≠ 10 ∧ (ip.a.val = 172 → 16 ≤ ip.b.val ∧ ip.b.val ≤ 31) := by
  constructor
  · intro h
    have hrouting := h.routing
    rw [Bool.eq_iff_iff, Ipv4.routing_iff, decide_eq_true_iff, Private] at hrouting
    omega
  · rintro ⟨ha, hb⟩
    refine ⟨multiaddr_eq hb, ?_, precheck_eq, ?_⟩
    · rw [Bool.eq_iff_iff, Ipv4.routing_iff, decide_eq_true_iff, Private]
      omega
    · rw [Bool.eq_iff_iff, Ipv4.conductor_iff, decide_eq_true_iff, Private]
      omega

/-- No location is refused, and nothing answers. -/
def silent : Outside where
  refused := fun _ => .none
  status := fun _ => .error (.httpError "timed out")
  connect := fun _ _ => .error (.httpError "timed out")
  load := fun _ => .ok ()
  views := .none

def hostPeer : PeerText := ⟨"12D3KooWHostA", by decide⟩

theorem addresses_agree_iff_docs : ChecksAgree ⟨203, 0, 113, 7⟩ silent 8003 hostPeer :=
  addresses_agree_iff.2 (by decide)

/-- Routing takes `10.0.0.1` for public, alone among the four; the precheck alone
takes `172.200.0.1` for public, which is nobody's private address. -/
theorem addresses_disagree :
    let ten : Ipv4 := ⟨10, 0, 0, 1⟩
    let wide : Ipv4 := ⟨172, 200, 0, 1⟩
    (ten.Private ∧ SwarmMap.isPublicHttpUrl (ten.httpUrl 8003) = true ∧
      isPublicMultiaddr (ten.multiaddr 31337 hostPeer) = false ∧
      isPublicHttpHost silent (ten.httpUrl 8003) = .ok false ∧ HttpChain.isPublicHttpUrl (ten.httpUrl 8003) = false) ∧
    (¬ wide.Private ∧ SwarmMap.isPublicHttpUrl (wide.httpUrl 8003) = false ∧
      isPublicMultiaddr (wide.multiaddr 31337 hostPeer) = false ∧
      isPublicHttpHost silent (wide.httpUrl 8003) = .ok true ∧ HttpChain.isPublicHttpUrl (wide.httpUrl 8003) = false) ∧
    ¬ ∀ ip port peer, ChecksAgree ip silent port peer := by
  refine ⟨by decide +kernel, by decide +kernel, fun h => ?_⟩
  have hrouting := (h ⟨10, 0, 0, 1⟩ 8003 hostPeer).routing
  revert hrouting
  decide +kernel

end Blitzwing
