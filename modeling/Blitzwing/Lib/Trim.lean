/-
Texts with characters around them that are cut off.

`Framed p core cs`: the text `cs` is `core` between characters of `p`. If neither
end of the core is one of them, cutting them off leaves the core
(`stripBy_of_framed`). Two readers that cut off different characters and both
find a core have found the same one, between characters that both cut off
(`Framed.both`).
-/
import Blitzwing.Lib.PyText

namespace Blitzwing.PyText

variable {p q : Char → Bool} {core core' cs : List Char}

/-- `core`, between characters of `p`. -/
def Framed (p : Char → Bool) (core cs : List Char) : Prop :=
  ∃ before after, cs = before ++ core ++ after ∧ (∀ c ∈ before, p c = true) ∧ ∀ c ∈ after, p c = true

/-- A text that neither begins nor ends with a character of `p`. -/
structure Bare (p : Char → Bool) (core : List Char) : Prop where
  ne : core ≠ []
  head : ∀ c ∈ core.head?, p c = false
  last : ∀ c ∈ core.getLast?, p c = false

theorem Bare.reverse (h : Bare p core) : Bare p core.reverse where
  ne := by simpa using h.ne
  head := by simpa using h.last
  last := by simpa using h.head

theorem Bare.or (hp : Bare p core) (hq : Bare q core) : Bare (fun c => p c || q c) core where
  ne := hp.ne
  head := fun c hc => by rw [hp.head c hc, hq.head c hc]; rfl
  last := fun c hc => by rw [hp.last c hc, hq.last c hc]; rfl

/-! ## Cutting off -/

theorem takeWhile_frame {before after : List Char} (h : Bare p core) (hbefore : ∀ c ∈ before, p c = true) :
    (before ++ core ++ after).takeWhile p = before := by
  rw [List.append_assoc, List.takeWhile_append_of_pos hbefore]
  cases core with
  | nil => exact absurd rfl h.ne
  | cons c rest => simp [h.head c rfl]

theorem dropWhile_frame {before after : List Char} (h : Bare p core) (hbefore : ∀ c ∈ before, p c = true) :
    (before ++ core ++ after).dropWhile p = core ++ after := by
  rw [List.append_assoc, List.dropWhile_append_of_pos hbefore]
  cases core with
  | nil => exact absurd rfl h.ne
  | cons c rest => simp [h.head c rfl]

/-- **Cutting off what is around a core** leaves it. -/
theorem stripBy_of_framed (h : Bare p core) (hframed : Framed p core cs) : stripBy p cs = core := by
  obtain ⟨before, after, rfl, hbefore, hafter⟩ := hframed
  have hback : (core ++ after).reverse = after.reverse ++ core.reverse ++ [] := by simp
  rw [stripBy, dropWhile_frame h hbefore, hback, dropWhile_frame h.reverse (by simpa using hafter), List.append_nil,
    List.reverse_reverse]

/-- A text is what is left of it, between characters that were cut off. -/
theorem framed_stripBy (p : Char → Bool) (cs : List Char) : Framed p (stripBy p cs) cs := by
  refine ⟨cs.takeWhile p, ((cs.dropWhile p).reverse.takeWhile p).reverse, ?_, ?_, ?_⟩
  · have hback : stripBy p cs ++ ((cs.dropWhile p).reverse.takeWhile p).reverse = cs.dropWhile p := by
      rw [stripBy, ← List.reverse_append, List.takeWhile_append_dropWhile, List.reverse_reverse]
    rw [List.append_assoc, hback, List.takeWhile_append_dropWhile]
  · exact fun c hc => List.all_eq_true.1 List.all_takeWhile c hc
  · exact fun c hc => List.all_eq_true.1 List.all_takeWhile c (List.mem_reverse.1 hc)

theorem Framed.imp (h : Framed p core cs) (himp : ∀ c, p c = true → q c = true) : Framed q core cs := by
  obtain ⟨before, after, hcs, hbefore, hafter⟩ := h
  exact ⟨before, after, hcs, fun c hc => himp c (hbefore c hc), fun c hc => himp c (hafter c hc)⟩

/-! ## Two readers -/

/-- **Two readers of one text** that both find a core find the same one, and
what is around it is cut off by both. -/
theorem Framed.both (hp : Framed p core cs) (hq : Framed q core' cs) (hcore : Bare p core) (hcore' : Bare p core')
    (hcoreq : Bare q core) (hcoreq' : Bare q core') : core' = core ∧ Framed (fun c => p c && q c) core cs := by
  have heq : core' = core := by
    have hstrip := stripBy_of_framed (hcore.or hcoreq) (hp.imp (q := fun c => p c || q c) fun c hc => by simp [hc])
    have hstrip' := stripBy_of_framed (hcore'.or hcoreq') (hq.imp (q := fun c => p c || q c) fun c hc => by simp [hc])
    exact hstrip'.symm.trans hstrip
  subst heq
  refine ⟨rfl, ?_⟩
  obtain ⟨before, after, hcs, hbefore, hafter⟩ := hp
  obtain ⟨before', after', hcs', hbefore', hafter'⟩ := hq
  have hbefores : before' = before := by
    have hp : ∀ c ∈ before, (p c || q c) = true := fun c hc => by simp [hbefore c hc]
    have hq : ∀ c ∈ before', (p c || q c) = true := fun c hc => by simp [hbefore' c hc]
    have htake : (before ++ core' ++ after).takeWhile (fun c => p c || q c) = before :=
      takeWhile_frame (hcore.or hcoreq) hp
    have htake' : (before' ++ core' ++ after').takeWhile (fun c => p c || q c) = before' :=
      takeWhile_frame (hcore.or hcoreq) hq
    rw [← hcs] at htake
    rw [← hcs'] at htake'
    exact htake'.symm.trans htake
  subst hbefores
  have hafters : after' = after := by
    have hrest := hcs'.symm.trans hcs
    exact List.append_cancel_left hrest
  subst hafters
  refine ⟨before', after', hcs, ?_, ?_⟩
  · intro c hc
    simp only [hbefore c hc, hbefore' c hc, Bool.and_self]
  · intro c hc
    simp only [hafter c hc, hafter' c hc, Bool.and_self]

end Blitzwing.PyText
