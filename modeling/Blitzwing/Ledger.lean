/-
What the registry is for, without its records: layers `[0, n)` held in
spans, one reservation at a time, and a root owner that never leaves.

A `Plan` reserves the top of its donor's span for a newcomer: `give` is to
go to the host, `keep` to stay with the donor. Meanwhile the donor may grow,
by absorbing what departed owners held, or depart itself; a handoff then
applies the plan as it was written. `Sound` is what survives every order of
the moves: spans exclusive and inside `[0, n)`, and the plan's `give` never
cut by anyone's span. Coverage needs more: `Full` is kept by a handoff only
while the donor still holds exactly `keep` and `give` (`Full.handoff`).
-/
import Blitzwing.Lib.Allocation
import Mathlib.Logic.Relation

namespace Blitzwing

universe u

structure Plan (ι : Type u) where
  host : ι
  donor : ι
  keep : Span
  give : Span

@[ext]
structure Ledger (ι : Type u) where
  held : Allocation ι
  plan : Option (Plan ι)

namespace Ledger

variable {ι : Type u} {root : ι} {n : Int}

/-- What the moves keep of a plan. -/
structure PlanSound (root : ι) (n : Int) (held : Allocation ι) (p : Plan ι) : Prop where
  keep : p.keep.lo < p.keep.hi
  adjacent : p.keep.hi = p.give.lo
  give : p.give.lo < p.give.hi
  within : 0 ≤ p.keep.lo ∧ p.give.hi ≤ n
  newcomer : held p.host = .none
  rooted : p.donor = root → p.keep.lo = 0
  donor : ∀ s, held p.donor = .some s → s.Covers ⟨p.keep.lo, p.give.hi⟩
  whole : ∀ i s, held i = .some s → s.Whole p.give

structure Sound (root : ι) (n : Int) (L : Ledger ι) : Prop where
  exclusive : L.held.Exclusive
  span : ∀ i s, L.held i = .some s → s.lo < s.hi ∧ 0 ≤ s.lo ∧ s.hi ≤ n
  origin : ∃ s, L.held root = .some s ∧ s.lo = 0
  plan : ∀ p, L.plan = .some p → PlanSound root n L.held p

theorem Sound.within {L : Ledger ι} (h : L.Sound root n) : L.held.Within n := by
  rintro i x ⟨s, hs, hx⟩
  have := h.span i s hs
  simp only [Span.mem_iff] at hx
  omega

/-- Owners of a sound ledger hold spans that are apart. -/
theorem Sound.apart {L : Ledger ι} (h : L.Sound root n) {i j : ι} {s t : Span} (hi : L.held i = .some s)
    (hj : L.held j = .some t) (hne : i ≠ j) : s.Apart t :=
  h.exclusive.apart hi hj hne (h.span i s hi).1 (h.span j t hj).1

variable [DecidableEq ι]

/-- One move of the ledger. -/
inductive Step (root : ι) (n : Int) : Ledger ι → Ledger ι → Prop
  /-- Nothing the ledger records changed. -/
  | stay {L} : Step root n L L
  /-- Reserve the top of what the donor holds. -/
  | reserve {L : Ledger ι} {p : Plan ι} : L.plan = .none →
      L.held p.donor = .some ⟨p.keep.lo, p.give.hi⟩ → p.keep.lo < p.keep.hi → p.keep.hi = p.give.lo →
      p.give.lo < p.give.hi → L.held p.host = .none → Step root n L { L with plan := .some p }
  /-- Apply the plan, whatever its donor holds by now. -/
  | handoff {L : Ledger ι} {p : Plan ι} {s : Span} : L.plan = .some p → L.held p.donor = .some s →
      Step root n L { held := (L.held.assign p.donor p.keep).assign p.host p.give, plan := .none }
  | cancel {L : Ledger ι} : Step root n L { L with plan := .none }
  | drop {L : Ledger ι} {i : ι} : i ≠ root → Step root n L { L with held := L.held.release i }
  /-- Grow an owner over a span nobody holds, and over the gap between. -/
  | absorb {L : Ledger ι} {i : ι} {d r : Span} : L.held i = .some d → r.lo < r.hi → 0 ≤ r.lo → r.hi ≤ n →
      (∀ p, L.plan = .some p → r.Whole p.give) →
      (∀ j ≠ i, ∀ s, L.held j = .some s → (d.hull r).Apart s) →
      Step root n L { L with held := L.held.assign i (d.hull r) }

/-! ## Each move keeps the ledger sound -/

theorem Sound.reserve {L : Ledger ι} (h : L.Sound root n) {p : Plan ι}
    (hd : L.held p.donor = .some ⟨p.keep.lo, p.give.hi⟩) (hk : p.keep.lo < p.keep.hi)
    (ha : p.keep.hi = p.give.lo) (hg : p.give.lo < p.give.hi) (hh : L.held p.host = .none) :
    Sound root n { L with plan := .some p } := by
  refine ⟨h.exclusive, h.span, h.origin, ?_⟩
  rintro _ ⟨⟩
  have hb := h.span _ _ hd
  refine ⟨hk, ha, hg, ⟨hb.2.1, hb.2.2⟩, hh, ?_, ?_, ?_⟩
  · intro he
    obtain ⟨s, hs, h₀⟩ := h.origin
    rw [he, hs] at hd
    obtain rfl := Option.some.inj hd
    exact h₀
  · intro s hs
    rw [hd] at hs
    obtain rfl := Option.some.inj hs
    exact .refl _
  -- The donor holds all of `give`, so everybody else holds none of it.
  · intro i s hs
    by_cases hi : i = p.donor
    · subst hi
      rw [hd] at hs
      obtain rfl := Option.some.inj hs
      exact .inl ⟨by simp only; omega, le_refl _⟩
    · refine .inr fun x hx hxs => hi (h.exclusive i p.donor x ⟨s, hs, hxs⟩ ⟨_, hd, ?_⟩)
      simp only [Span.mem_iff] at hx ⊢
      omega

theorem Sound.handoff {L : Ledger ι} (h : L.Sound root n) {p : Plan ι} {s : Span} (hp : L.plan = .some p)
    (hd : L.held p.donor = .some s) :
    Sound root n { held := (L.held.assign p.donor p.keep).assign p.host p.give, plan := .none } := by
  have hps := h.plan p hp
  have hcov := hps.donor s hd
  have hdh : p.donor ≠ p.host := by
    rintro he
    simp [he, hps.newcomer] at hd
  have hk := hps.keep
  have ha := hps.adjacent
  have hg := hps.give
  have hw := hps.within
  -- Both parts lie inside what the donor holds, so nobody else holds a point of them.
  have hfree : ∀ j, j ≠ p.donor → ∀ x, p.keep.lo ≤ x → x < p.give.hi → ¬ L.held.Holds j x := by
    intro j hj x h₁ h₂ hx
    exact hj (h.exclusive j p.donor x hx ⟨s, hd, hcov.mem (by simp; omega)⟩)
  refine ⟨?_, ?_, ?_, by simp⟩
  · refine (h.exclusive.assign fun j hj x hx => ?_).assign fun j hj x hx => ?_
    · simp only [Span.mem_iff] at hx
      exact hfree j hj x (by omega) (by omega)
    · simp only [Span.mem_iff] at hx
      rw [Allocation.holds_assign]
      rintro (⟨rfl, hx'⟩ | ⟨hjd, hx'⟩)
      · simp only [Span.mem_iff] at hx'
        omega
      · exact hfree j hjd x (by omega) (by omega) hx'
  · intro i t ht
    by_cases hi : i = p.host
    · subst hi
      obtain rfl : p.give = t := by simpa using ht
      omega
    replace ht := (Allocation.assign_ne _ p.give hi).symm.trans ht
    by_cases hid : i = p.donor
    · subst hid
      obtain rfl : p.keep = t := by simpa using ht
      omega
    · exact h.span i t ((Allocation.assign_ne _ p.keep hid).symm.trans ht)
  · obtain ⟨t, ht, h₀⟩ := h.origin
    have hrh : root ≠ p.host := by
      rintro rfl
      simp [hps.newcomer] at ht
    by_cases hrd : root = p.donor
    · exact ⟨p.keep, (Allocation.assign_ne _ _ hrh).trans (hrd ▸ Allocation.assign_self _ _ _),
        hps.rooted hrd.symm⟩
    · exact ⟨t, (Allocation.assign_ne _ _ hrh).trans ((Allocation.assign_ne _ _ hrd).trans ht), h₀⟩

theorem Sound.drop {L : Ledger ι} (h : L.Sound root n) {i : ι} (hi : i ≠ root) :
    Sound root n { L with held := L.held.release i } := by
  have hold : ∀ j s, L.held.release i j = .some s → L.held j = .some s := by
    intro j s hs
    by_cases hj : j = i
    · simp [hj] at hs
    · rwa [Allocation.release_ne _ hj] at hs
  refine ⟨h.exclusive.release i, fun j s hs => h.span j s (hold j s hs), ?_, fun p hp => ?_⟩
  · obtain ⟨s, hs, h₀⟩ := h.origin
    exact ⟨s, (Allocation.release_ne _ (Ne.symm hi)).trans hs, h₀⟩
  · have hps := h.plan p hp
    refine { hps with
      newcomer := ?_
      donor := fun s hs => hps.donor s (hold _ s hs)
      whole := fun j s hs => hps.whole j s (hold j s hs) }
    by_cases hj : p.host = i
    · simp [hj]
    · exact (Allocation.release_ne _ hj).trans hps.newcomer

theorem Sound.absorb {L : Ledger ι} (h : L.Sound root n) {i : ι} {d r : Span} (hd : L.held i = .some d)
    (hr : r.lo < r.hi) (hr₀ : 0 ≤ r.lo) (hrn : r.hi ≤ n)
    (hwhole : ∀ p, L.plan = .some p → r.Whole p.give)
    (hapart : ∀ j ≠ i, ∀ s, L.held j = .some s → (d.hull r).Apart s) :
    Sound root n { L with held := L.held.assign i (d.hull r) } := by
  have hds := h.span i d hd
  have hpart : ∀ j s, L.held.assign i (d.hull r) j = .some s →
      (j = i ∧ s = d.hull r) ∨ (j ≠ i ∧ L.held j = .some s) := by
    intro j s hs
    by_cases hj : j = i
    · subst hj
      exact .inl ⟨rfl, by simpa [eq_comm] using hs⟩
    · exact .inr ⟨hj, by rwa [Allocation.assign_ne _ _ hj] at hs⟩
  refine ⟨?_, ?_, ?_, fun p hp => ?_⟩
  · refine h.exclusive.assign fun j hj x hx => ?_
    rintro ⟨s, hs, hxs⟩
    exact (hapart j hj s hs).not_mem hx hxs
  · intro j s hs
    rcases hpart j s hs with ⟨_, rfl⟩ | ⟨_, hs⟩
    · simp only [Span.hull]
      omega
    · exact h.span j s hs
  · obtain ⟨s, hs, h₀⟩ := h.origin
    by_cases hj : root = i
    · subst hj
      rw [hd] at hs
      obtain rfl := Option.some.inj hs
      refine ⟨_, Allocation.assign_self _ _ _, ?_⟩
      simp only [Span.hull]
      omega
    · exact ⟨s, (Allocation.assign_ne _ _ hj).trans hs, h₀⟩
  · have hps := h.plan p hp
    refine { hps with newcomer := ?_, donor := fun s hs => ?_, whole := fun j s hs => ?_ }
    · have hne : p.host ≠ i := by
        rintro rfl
        simp [hps.newcomer] at hd
      exact (Allocation.assign_ne _ _ hne).trans hps.newcomer
    · rcases hpart _ s hs with ⟨rfl, rfl⟩ | ⟨_, hs⟩
      · exact (Span.hull_covers_left d r).trans (hps.donor d hd)
      · exact hps.donor s hs
    · rcases hpart j s hs with ⟨rfl, rfl⟩ | ⟨_, hs⟩
      · exact (hps.whole j d hd).hull (hwhole p hp) hds.1 hr hps.give
      · exact hps.whole j s hs

/-- **Soundness is kept by every move.** -/
theorem Sound.step {L L' : Ledger ι} (h : L.Sound root n) (hs : Step root n L L') : L'.Sound root n := by
  cases hs with
  | stay => exact h
  | reserve _ hd hk ha hg hh => exact h.reserve hd hk ha hg hh
  | handoff hp hd => exact h.handoff hp hd
  | cancel => exact ⟨h.exclusive, h.span, h.origin, by simp⟩
  | drop hi => exact h.drop hi
  | absorb hd hr hr₀ hrn hwhole hapart => exact h.absorb hd hr hr₀ hrn hwhole hapart

theorem Sound.steps {L L' : Ledger ι} (h : L.Sound root n) (hs : Relation.ReflTransGen (Step root n) L L') :
    L'.Sound root n := by
  induction hs with
  | refl => exact h
  | tail _ hstep ih => exact ih.step hstep

/-! ## Coverage -/

/-- Every point of `[0, n)` outside `r` is held. -/
def FullBut (a : Allocation ι) (n : Int) (r : Span) : Prop :=
  ∀ x, 0 ≤ x → x < n → x ∉ r → ∃ i, a.Holds i x

theorem fullBut_release {a : Allocation ι} (hf : a.Full n) {i : ι} {s : Span} (hs : a i = .some s) :
    FullBut (a.release i) n s := by
  intro x h₀ hn hx
  obtain ⟨j, t, ht, hxt⟩ := hf x h₀ hn
  have hji : j ≠ i := by
    rintro rfl
    rw [hs] at ht
    obtain rfl := Option.some.inj ht
    exact hx hxt
  exact ⟨j, Allocation.holds_release.2 ⟨hji, t, ht, hxt⟩⟩

/-- Growing an owner over the one missing span restores coverage. -/
theorem FullBut.absorb {a : Allocation ι} {r s : Span} (hf : FullBut a n r) {i : ι} {d : Span}
    (hd : a i = .some d) (hsd : ∀ x ∈ d, x ∈ s) (hsr : ∀ x ∈ r, x ∈ s) : (a.assign i s).Full n := by
  intro x h₀ hn
  by_cases hxs : x ∈ s
  · exact ⟨i, Allocation.holds_assign.2 (.inl ⟨rfl, hxs⟩)⟩
  · obtain ⟨j, t, ht, hxt⟩ := hf x h₀ hn fun hx => hxs (hsr x hx)
    refine ⟨j, Allocation.holds_assign.2 (.inr ⟨?_, t, ht, hxt⟩)⟩
    rintro rfl
    rw [hd] at ht
    obtain rfl := Option.some.inj ht
    exact hxs (hsd x hxt)

/-- **A current plan hands off without a gap**: the donor holds exactly what
the plan divides. -/
theorem full_handoff {a : Allocation ι} (hf : a.Full n) {p : Plan ι} (hne : p.donor ≠ p.host)
    (hh : a p.host = .none) (ha : p.keep.hi = p.give.lo) (hd : a p.donor = .some ⟨p.keep.lo, p.give.hi⟩) :
    ((a.assign p.donor p.keep).assign p.host p.give).Full n := by
  intro x h₀ hn
  obtain ⟨j, t, ht, hxt⟩ := hf x h₀ hn
  have hjh : j ≠ p.host := by
    rintro rfl
    simp [hh] at ht
  by_cases hjd : j = p.donor
  · subst hjd
    rw [hd] at ht
    obtain rfl := Option.some.inj ht
    simp only [Span.mem_iff] at hxt
    by_cases hx : x < p.keep.hi
    · refine ⟨p.donor, Allocation.holds_assign.2 (.inr ⟨hne, Allocation.holds_assign.2 (.inl ⟨rfl, ?_⟩)⟩)⟩
      simp only [Span.mem_iff]
      omega
    · refine ⟨p.host, Allocation.holds_assign.2 (.inl ⟨rfl, ?_⟩)⟩
      simp only [Span.mem_iff]
      omega
  · exact ⟨j, Allocation.holds_assign.2 (.inr ⟨hjh, Allocation.holds_assign.2 (.inr ⟨hjd, t, ht, hxt⟩)⟩)⟩

end Ledger

end Blitzwing
