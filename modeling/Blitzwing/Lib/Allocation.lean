/-
Half-open integer intervals, and who holds which of them.

A `Span` is `[lo, hi)`. An `Allocation` gives each owner the one span it
holds, if any; owners are of any type. It is `Exclusive` when no point has
two owners, and it `Tiles n` when every point of `[0, n)` has exactly one
owner and no point outside has any. The operations are giving an owner a
span (`assign`) and taking its span away (`release`).

The two results that use more than the definitions: in an allocation that
tiled before a span was released, some owner's span touches the hole
(`exists_touching`), and the lengths of spans without a common point sum to
at most the length of what they lie in (`length_sum_le`).
-/
import Mathlib.Data.Finset.Card
import Mathlib.Algebra.Order.BigOperators.Group.List
import Mathlib.Tactic.Linarith

namespace Blitzwing

universe u

/-- The points from `lo` up to, not including, `hi`. -/
structure Span where
  lo : Int
  hi : Int
deriving DecidableEq, Repr

namespace Span

instance : Membership Int Span := ⟨fun s x => s.lo ≤ x ∧ x < s.hi⟩

@[simp] theorem mem_iff {s : Span} {x : Int} : x ∈ s ↔ s.lo ≤ x ∧ x < s.hi := Iff.rfl

instance (s : Span) (x : Int) : Decidable (x ∈ s) := inferInstanceAs (Decidable (_ ∧ _))

instance (s : Span) (p : Int → Prop) [DecidablePred p] : Decidable (∀ x ∈ s, p x) :=
  decidable_of_iff (∀ k < (s.hi - s.lo).toNat, p (s.lo + (k : Nat))) <| by
    refine ⟨fun h x hx => ?_, fun h k hk => h _ ?_⟩
    · rw [mem_iff] at hx
      have hp := h (x - s.lo).toNat (by omega)
      have he : s.lo + ((x - s.lo).toNat : Int) = x := by omega
      rwa [he] at hp
    · rw [mem_iff]
      omega

def length (s : Span) : Int := s.hi - s.lo

/-- `t` lies inside `s`. -/
def Covers (s t : Span) : Prop := s.lo ≤ t.lo ∧ t.hi ≤ s.hi

/-- One ends before the other begins. -/
def Apart (s t : Span) : Prop := s.hi ≤ t.lo ∨ t.hi ≤ s.lo

instance (s t : Span) : Decidable (s.Covers t) := inferInstanceAs (Decidable (_ ∧ _))

instance (s t : Span) : Decidable (s.Apart t) := inferInstanceAs (Decidable (_ ∨ _))

/-- They have a point in common. -/
def Meets (s t : Span) : Prop := max s.lo t.lo < min s.hi t.hi

instance (s t : Span) : Decidable (s.Meets t) := inferInstanceAs (Decidable (_ < _))

/-- The smallest span around both. -/
def hull (s t : Span) : Span := ⟨min s.lo t.lo, max s.hi t.hi⟩

theorem meets_iff {s t : Span} : s.Meets t ↔ ∃ x, x ∈ s ∧ x ∈ t := by
  simp only [Meets, mem_iff]
  refine ⟨fun h => ⟨max s.lo t.lo, by omega⟩, ?_⟩
  rintro ⟨x, h⟩
  omega

/-- A span of `[0, n)`, perhaps empty. -/
def InLayers (s : Span) (n : Int) : Prop := s.lo ≤ s.hi ∧ 0 ≤ s.lo ∧ s.hi ≤ n

instance (s : Span) (n : Int) : Decidable (s.InLayers n) := inferInstanceAs (Decidable (_ ∧ _ ∧ _))

theorem Covers.mem {s t : Span} (h : s.Covers t) {x : Int} (hx : x ∈ t) : x ∈ s := by
  simp only [Covers, mem_iff] at *; omega

theorem Covers.refl (s : Span) : s.Covers s := ⟨le_refl _, le_refl _⟩

theorem Covers.trans {s t u : Span} (h₁ : s.Covers t) (h₂ : t.Covers u) : s.Covers u :=
  ⟨h₁.1.trans h₂.1, h₂.2.trans h₁.2⟩

theorem Apart.symm {s t : Span} (h : s.Apart t) : t.Apart s := h.elim .inr .inl

theorem Apart.not_mem {s t : Span} (h : s.Apart t) {x : Int} (hs : x ∈ s) : x ∉ t := by
  simp only [Apart, mem_iff] at *; omega

/-- Non-empty spans without a common point are apart. -/
theorem apart_of_disjoint {s t : Span} (hs : s.lo < s.hi) (ht : t.lo < t.hi) (h : ∀ x ∈ s, x ∉ t) :
    s.Apart t := by
  have h₁ := h (max s.lo t.lo)
  simp only [Apart, mem_iff] at *
  omega

theorem hull_covers_left (s t : Span) : (hull s t).Covers s := by simp only [hull, Covers]; omega

theorem hull_covers_right (s t : Span) : (hull s t).Covers t := by simp only [hull, Covers]; omega

/-- `s` does not cut `t`: it holds all of it or none of it. -/
def Whole (s t : Span) : Prop := s.Covers t ∨ ∀ x ∈ t, x ∉ s

/-- What neither of two non-empty spans cuts, their hull does not cut. -/
theorem Whole.hull {s r t : Span} (hs : s.Whole t) (hr : r.Whole t) (hse : s.lo < s.hi) (hre : r.lo < r.hi)
    (hte : t.lo < t.hi) : (hull s r).Whole t := by
  rcases hs with hs | hs
  · exact .inl ((hull_covers_left s r).trans hs)
  rcases hr with hr | hr
  · exact .inl ((hull_covers_right s r).trans hr)
  have hs' := apart_of_disjoint hte hse hs
  have hr' := apart_of_disjoint hte hre hr
  by_cases hc : (Span.hull s r).Covers t
  · exact .inl hc
  refine .inr fun x hx hxh => hc ?_
  simp only [Span.hull, Covers, Apart, mem_iff] at *
  omega

end Span

/-! ## Who holds what -/

/-- The span each owner holds. -/
abbrev Allocation (ι : Type u) := ι → Option Span

namespace Allocation

variable {ι : Type u}

def Holds (a : Allocation ι) (i : ι) (x : Int) : Prop := ∃ s, a i = .some s ∧ x ∈ s

/-- No point has two owners. -/
def Exclusive (a : Allocation ι) : Prop := ∀ i j x, a.Holds i x → a.Holds j x → i = j

/-- Every point held lies in `[0, n)`. -/
def Within (a : Allocation ι) (n : Int) : Prop := ∀ i x, a.Holds i x → 0 ≤ x ∧ x < n

/-- Every point of `[0, n)` is held. -/
def Full (a : Allocation ι) (n : Int) : Prop := ∀ x, 0 ≤ x → x < n → ∃ i, a.Holds i x

/-- Every point of `[0, n)` has exactly one owner, and no other point has any. -/
def Tiles (a : Allocation ι) (n : Int) : Prop :=
  a.Within n ∧ ∀ x, 0 ≤ x → x < n → ∃! i, a.Holds i x

theorem tiles_iff {a : Allocation ι} {n : Int} : a.Tiles n ↔ a.Exclusive ∧ a.Within n ∧ a.Full n := by
  constructor
  · rintro ⟨hw, hu⟩
    refine ⟨fun i j x hi hj => ?_, hw, fun x h₀ hn => (hu x h₀ hn).exists⟩
    obtain ⟨h₀, hn⟩ := hw i x hi
    exact (hu x h₀ hn).unique hi hj
  · rintro ⟨he, hw, hf⟩
    refine ⟨hw, fun x h₀ hn => ?_⟩
    obtain ⟨i, hi⟩ := hf x h₀ hn
    exact ⟨i, hi, fun j hj => he j i x hj hi⟩

theorem Exclusive.apart {a : Allocation ι} (h : a.Exclusive) {i j : ι} {s t : Span} (hi : a i = .some s)
    (hj : a j = .some t) (hne : i ≠ j) (hs : s.lo < s.hi) (ht : t.lo < t.hi) : s.Apart t :=
  Span.apart_of_disjoint hs ht fun x hxs hxt => hne (h i j x ⟨s, hi, hxs⟩ ⟨t, hj, hxt⟩)

/-- **A hole touches an owner.** Where everything below a span is held and
nothing of the span is, the owner of the last point below ends where the
span begins. -/
theorem exists_touching {a : Allocation ι} {n : Int} {r : Span} (hlo : 0 < r.lo) (hr : r.lo < r.hi)
    (hn : r.hi ≤ n) (hfull : ∀ x, 0 ≤ x → x < n → x ∉ r → ∃ i, a.Holds i x)
    (hfree : ∀ i, ∀ x ∈ r, ¬ a.Holds i x) : ∃ i s, a i = .some s ∧ s.lo < s.hi ∧ s.hi = r.lo := by
  obtain ⟨i, s, hs, hmem⟩ := hfull (r.lo - 1) (by omega) (by omega) (by simp)
  have hno : ¬ r.lo < s.hi := fun hlt => hfree i r.lo (by simp; omega) ⟨s, hs, by simp at hmem ⊢; omega⟩
  simp only [Span.mem_iff] at hmem
  exact ⟨i, s, hs, by omega, by omega⟩

variable [DecidableEq ι]

/-- Give `i` the span `s`, in place of what it held. -/
def assign (a : Allocation ι) (i : ι) (s : Span) : Allocation ι := Function.update a i (.some s)

/-- Take away what `i` holds. -/
def release (a : Allocation ι) (i : ι) : Allocation ι := Function.update a i .none

@[simp] theorem assign_self (a : Allocation ι) (i : ι) (s : Span) : a.assign i s i = .some s := by
  simp [assign]

theorem assign_ne (a : Allocation ι) {i j : ι} (s : Span) (h : j ≠ i) : a.assign i s j = a j := by
  simp [assign, h]

@[simp] theorem release_self (a : Allocation ι) (i : ι) : a.release i i = .none := by simp [release]

theorem release_ne (a : Allocation ι) {i j : ι} (h : j ≠ i) : a.release i j = a j := by simp [release, h]

theorem release_eq_some {a : Allocation ι} {i j : ι} {s : Span} :
    a.release i j = .some s ↔ j ≠ i ∧ a j = .some s := by
  by_cases h : j = i
  · simp [h]
  · simp [release_ne a h, h]

theorem assign_eq_some {a : Allocation ι} {i j : ι} {s t : Span} :
    a.assign i s j = .some t ↔ (j = i ∧ t = s) ∨ (j ≠ i ∧ a j = .some t) := by
  by_cases h : j = i
  · subst h
    simp [eq_comm]
  · simp [assign_ne a s h, h]

theorem holds_assign {a : Allocation ι} {i j : ι} {s : Span} {x : Int} :
    (a.assign i s).Holds j x ↔ (j = i ∧ x ∈ s) ∨ (j ≠ i ∧ a.Holds j x) := by
  by_cases h : j = i
  · subst h; simp [Holds]
  · simp [Holds, assign_ne a s h, h]

theorem holds_release {a : Allocation ι} {i j : ι} {x : Int} :
    (a.release i).Holds j x ↔ j ≠ i ∧ a.Holds j x := by
  by_cases h : j = i
  · subst h; simp [Holds]
  · simp [Holds, release_ne a h, h]

theorem Exclusive.release {a : Allocation ι} (h : a.Exclusive) (i : ι) : (a.release i).Exclusive :=
  fun j k x hj hk => h j k x (holds_release.1 hj).2 (holds_release.1 hk).2

theorem Within.release {a : Allocation ι} {n : Int} (h : a.Within n) (i : ι) : (a.release i).Within n :=
  fun j x hj => h j x (holds_release.1 hj).2

/-- Assigning a span of which nobody else holds a point keeps owners exclusive. -/
theorem Exclusive.assign {a : Allocation ι} (h : a.Exclusive) {i : ι} {s : Span}
    (hs : ∀ j ≠ i, ∀ x ∈ s, ¬ a.Holds j x) : (a.assign i s).Exclusive := by
  intro j k x hj hk
  rcases holds_assign.1 hj with ⟨rfl, hxj⟩ | ⟨hji, hxj⟩ <;> rcases holds_assign.1 hk with ⟨rfl, hxk⟩ | ⟨hki, hxk⟩
  · rfl
  · exact absurd hxk (hs k hki x hxj)
  · exact absurd hxj (hs j hji x hxk)
  · exact h j k x hxj hxk

theorem Within.assign {a : Allocation ι} {n : Int} (h : a.Within n) {i : ι} {s : Span}
    (hs : ∀ x ∈ s, 0 ≤ x ∧ x < n) : (a.assign i s).Within n := by
  intro j x hj
  rcases holds_assign.1 hj with ⟨rfl, hx⟩ | ⟨_, hx⟩
  · exact hs x hx
  · exact h j x hx

/-- The owners hold spans of `[0, n)`, no point of it twice. -/
structure Shares (a : Allocation ι) (n : Int) : Prop where
  span : ∀ i s, a i = .some s → s.InLayers n
  exclusive : a.Exclusive

namespace Shares

variable {a : Allocation ι} {n : Int}

omit [DecidableEq ι] in
theorem within (h : a.Shares n) : a.Within n := by
  rintro i x ⟨s, hs, hx⟩
  have := h.span i s hs
  simp only [Span.InLayers, Span.mem_iff] at this hx
  omega

theorem release (h : a.Shares n) (i : ι) : (a.release i).Shares n :=
  ⟨fun j s hs => h.span j s (release_eq_some.1 hs).2, h.exclusive.release i⟩

theorem assign (h : a.Shares n) {i : ι} {s : Span} (hs : s.InLayers n) (hfree : ∀ j ≠ i, ∀ x ∈ s, ¬ a.Holds j x) :
    (a.assign i s).Shares n := by
  refine ⟨fun j t ht => ?_, h.exclusive.assign hfree⟩
  rcases assign_eq_some.1 ht with ⟨-, rfl⟩ | ⟨-, ht⟩
  · exact hs
  · exact h.span j t ht

end Shares

end Allocation

/-! ## Lengths -/

/-- The points of a span, gathered. -/
def Span.points (s : Span) : Finset Int := (Finset.range s.length.toNat).image fun (k : Nat) => s.lo + k

@[simp] theorem Span.mem_points {s : Span} {x : Int} : x ∈ s.points ↔ x ∈ s := by
  simp only [points, length, Finset.mem_image, Finset.mem_range, mem_iff]
  constructor
  · intro h
    obtain ⟨k, hk, rfl⟩ := h
    omega
  · intro h
    exact ⟨(x - s.lo).toNat, by omega, by omega⟩

theorem Span.card_points (s : Span) : s.points.card = s.length.toNat := by
  rw [points, Finset.card_image_of_injective _ fun a b h => by simpa using h, Finset.card_range]

/-- The points of some spans. -/
def points (l : List Span) : Finset Int := l.foldr (fun s acc => s.points ∪ acc) ∅

theorem points_cons (s : Span) (l : List Span) : points (s :: l) = s.points ∪ points l := rfl

theorem mem_points {l : List Span} {x : Int} : x ∈ points l ↔ ∃ s ∈ l, x ∈ s := by
  induction l with
  | nil => simp [points]
  | cons s l ih => simp [points_cons, ih]

/-- Spans without a common point have as many points as their lengths sum to. -/
theorem card_points {l : List Span} (hlen : ∀ s ∈ l, 0 ≤ s.length)
    (hd : l.Pairwise fun s t => ∀ x ∈ s, x ∉ t) : ((points l).card : Int) = (l.map Span.length).sum := by
  induction l with
  | nil => simp [points]
  | cons s l ih =>
    simp only [List.pairwise_cons, List.mem_cons, forall_eq_or_imp] at hd hlen
    have hdisj : Disjoint s.points (points l) := by
      rw [Finset.disjoint_left]
      intro x hx hxl
      obtain ⟨t, ht, hxt⟩ := mem_points.1 hxl
      exact hd.1 t ht x (Span.mem_points.1 hx) hxt
    have hs := hlen.1
    rw [points_cons, Finset.card_union_of_disjoint hdisj, Nat.cast_add, ih hlen.2 hd.2, Span.card_points]
    rw [List.map_cons, List.sum_cons]
    omega

/-- **Lengths fit.** Spans inside `[0, n)` without a common point have a
total length of at most `n`. -/
theorem length_sum_le {l : List Span} {n : Int} (h₀ : 0 ≤ n) (hlen : ∀ s ∈ l, 0 ≤ s.length)
    (hd : l.Pairwise fun s t => ∀ x ∈ s, x ∉ t) (hw : ∀ s ∈ l, ∀ x ∈ s, 0 ≤ x ∧ x < n) :
    (l.map Span.length).sum ≤ n := by
  have hsub : points l ⊆ (Span.mk 0 n).points := by
    intro x hx
    obtain ⟨s, hs, hxs⟩ := mem_points.1 hx
    exact Span.mem_points.2 (hw s hs x hxs)
  have hcard := Finset.card_le_card hsub
  have hlength : (Span.mk 0 n).length = n := by simp [Span.length]
  rw [← card_points hlen hd]
  rw [Span.card_points, hlength] at hcard
  omega

end Blitzwing
