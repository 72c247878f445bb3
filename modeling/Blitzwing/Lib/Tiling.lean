/-
Lists of spans that follow one another.

`Chain e l f`: the first span begins at `e`, each next one where the one
before it ends, and the last ends at `f`. This is about the list's order and
takes empty and reversed spans as they come. `TiledBy l e f` is about points:
each of `[e, f)` lies in exactly one span of the list, and no other does.

For spans in starting order the two are compared: a chain is a tiling whose
empty spans are in place (`chain_iff_tiledBy`), except that its last span may
be reversed (`chain_iff`).
-/
import Blitzwing.Lib.Allocation

namespace Blitzwing

namespace Span

/-- It has a point. -/
def Inhabited (s : Span) : Prop := s.lo < s.hi

instance (s : Span) : Decidable s.Inhabited := inferInstanceAs (Decidable (_ < _))

/-- Each span of the list begins where the one before it ends. -/
def Chain : Int → List Span → Int → Prop
  | e, [], f => e = f
  | e, s :: l, f => s.lo = e ∧ Chain s.hi l f

instance decidableChain : ∀ (e : Int) (l : List Span) (f : Int), Decidable (Chain e l f)
  | e, [], f => inferInstanceAs (Decidable (e = f))
  | e, s :: l, f =>
    have := decidableChain s.hi l f
    inferInstanceAs (Decidable (s.lo = e ∧ Chain s.hi l f))

/-- Each point from `e` to `f` is in one span of the list, and no other point is. -/
structure TiledBy (l : List Span) (e f : Int) : Prop where
  le : e ≤ f
  apart : l.Pairwise fun s t => ∀ x ∈ s, x ∉ t
  covers : ∀ x, (∃ s ∈ l, x ∈ s) ↔ e ≤ x ∧ x < f

/-- The spans without a point are empty, between `e` and `f`, and none begins
before a span listed earlier ends. -/
structure InPlace (l : List Span) (e f : Int) : Prop where
  empty : ∀ d ∈ l, ¬ d.Inhabited → d.lo = d.hi ∧ e ≤ d.lo ∧ d.lo ≤ f
  after : l.Pairwise fun s d => s.Inhabited → ¬ d.Inhabited → s.hi ≤ d.lo

variable {l : List Span} {e f : Int} {s : Span}

theorem not_mem_of_not_inhabited (h : ¬ s.Inhabited) (x : Int) : x ∉ s := by
  simp only [Inhabited, mem_iff] at *
  omega

/-! ## Tilings do not look at the order, nor at spans without a point -/

theorem TiledBy.perm {l' : List Span} (h : TiledBy l e f) (hp : l.Perm l') : TiledBy l' e f where
  le := h.le
  apart := (hp.pairwise_iff fun hst x ht hs => hst x hs ht).1 h.apart
  covers := fun x => by simpa only [hp.mem_iff] using h.covers x

theorem tiledBy_filter : TiledBy (l.filter (·.Inhabited)) e f ↔ TiledBy l e f := by
  have hcovers : ∀ x, (∃ s ∈ l.filter (·.Inhabited), x ∈ s) ↔ ∃ s ∈ l, x ∈ s := by
    intro x
    constructor
    · intro h
      obtain ⟨s, hs, hx⟩ := h
      exact ⟨s, (List.mem_filter.1 hs).1, hx⟩
    · intro h
      obtain ⟨s, hs, hx⟩ := h
      have hi : s.Inhabited := by
        by_contra hn
        exact not_mem_of_not_inhabited hn x hx
      exact ⟨s, List.mem_filter.2 ⟨hs, by simpa using hi⟩, hx⟩
  have hapart : (l.filter (·.Inhabited)).Pairwise (fun s t => ∀ x ∈ s, x ∉ t) ↔
      l.Pairwise fun s t => ∀ x ∈ s, x ∉ t := by
    rw [List.pairwise_filter]
    refine ⟨fun h => h.imp fun {s t} hst x hs ht => ?_, fun h => h.imp fun {s t} hst _ _ => hst⟩
    have hsi : s.Inhabited := by
      by_contra hn
      exact not_mem_of_not_inhabited hn x hs
    have hti : t.Inhabited := by
      by_contra hn
      exact not_mem_of_not_inhabited hn x ht
    exact hst (by simpa using hsi) (by simpa using hti) x hs ht
  constructor
  · intro h
    exact ⟨h.le, hapart.1 h.apart, fun x => (hcovers x).symm.trans (h.covers x)⟩
  · intro h
    exact ⟨h.le, hapart.2 h.apart, fun x => (hcovers x).trans (h.covers x)⟩

theorem tiledBy_append_of_not_inhabited (hs : ¬ s.Inhabited) : TiledBy (l ++ [s]) e f ↔ TiledBy l e f := by
  rw [← tiledBy_filter, ← tiledBy_filter (l := l)]
  simp [List.filter_append, hs]

theorem pairwise_apart_iff : l.Pairwise (fun s t => ∀ x ∈ s, x ∉ t) ↔ ∀ x, l.countP (x ∈ ·) ≤ 1 := by
  induction l with
  | nil => simp
  | cons s l ih =>
    simp only [List.pairwise_cons, List.countP_cons, ih]
    constructor
    · intro h x
      have hrest := h.2 x
      split
      · next hx =>
        have hnone : l.countP (x ∈ ·) = 0 := by
          refine List.countP_eq_zero.2 fun t ht => ?_
          simpa using h.1 t ht x (of_decide_eq_true hx)
        omega
      · omega
    · intro h
      refine ⟨?_, ?_⟩
      · intro t ht x hx hxt
        have hpos : 0 < l.countP (x ∈ ·) := List.countP_pos_iff.2 ⟨t, ht, decide_eq_true hxt⟩
        have := h x
        simp only [hx, decide_true, if_true] at this
        omega
      · intro x
        have := h x
        omega

/-- A tiling counts: one span at each point from `e` to `f`, none elsewhere. -/
theorem tiledBy_iff_countP (he : e ≤ f) : TiledBy l e f ↔
    (∀ x, e ≤ x → x < f → l.countP (x ∈ ·) = 1) ∧ ∀ x, x < e ∨ f ≤ x → l.countP (x ∈ ·) = 0 := by
  have hpos : ∀ x, 0 < l.countP (x ∈ ·) ↔ ∃ s ∈ l, x ∈ s := by
    intro x
    simp [List.countP_pos_iff]
  constructor
  · intro h
    constructor
    · intro x hex hxf
      have hle := pairwise_apart_iff.1 h.apart x
      have hlt := (hpos x).2 ((h.covers x).2 ⟨hex, hxf⟩)
      omega
    · intro x hx
      have hno : ¬ 0 < l.countP (x ∈ ·) := by
        rw [hpos, h.covers]
        omega
      omega
  · intro h
    obtain ⟨hin, hout⟩ := h
    refine ⟨he, pairwise_apart_iff.2 fun x => ?_, fun x => ?_⟩
    · by_cases hx : e ≤ x ∧ x < f
      · exact (hin x hx.1 hx.2).le
      · have := hout x (by omega)
        omega
    · rw [← hpos]
      constructor
      · intro hlt
        by_contra hx
        have := hout x (by omega)
        omega
      · intro hx
        have := hin x hx.1 hx.2
        omega

/-- A list tiles from one point to one other point. -/
theorem TiledBy.end_unique {g : Int} (hf : TiledBy l e f) (hg : TiledBy l e g) : f = g := by
  have hpoints : ∀ x, (e ≤ x ∧ x < f) ↔ e ≤ x ∧ x < g := fun x => (hf.covers x).symm.trans (hg.covers x)
  have hf' := hf.le
  have hg' := hg.le
  have h1 := hpoints f
  have h2 := hpoints g
  omega

theorem inPlace_of_inhabited (h : ∀ s ∈ l, s.Inhabited) : InPlace l e f where
  empty := fun d hd hn => absurd (h d hd) hn
  after := List.pairwise_of_forall_mem_list fun _ _ d hd _ hn => absurd (h d hd) hn

/-! ## One span more at the front -/

theorem TiledBy.cons (hs : s.lo ≤ s.hi) (h : TiledBy l s.hi f) : TiledBy (s :: l) s.lo f where
  le := hs.trans h.le
  apart := by
    refine List.pairwise_cons.2 ⟨fun t ht x hxs hxt => ?_, h.apart⟩
    have := (h.covers x).1 ⟨t, ht, hxt⟩
    simp only [mem_iff] at hxs
    omega
  covers := fun x => by
    have hle := h.le
    have hx : (∃ t ∈ s :: l, x ∈ t) ↔ x ∈ s ∨ ∃ t ∈ l, x ∈ t := by simp only [List.mem_cons, exists_eq_or_imp]
    rw [hx, h.covers x, mem_iff]
    omega

/-- The rest of a tiling, once its first span is taken off. -/
theorem TiledBy.tail (hs : s.lo ≤ s.hi) (hf : s.hi ≤ f) (h : TiledBy (s :: l) s.lo f) : TiledBy l s.hi f where
  le := hf
  apart := (List.pairwise_cons.1 h.apart).2
  covers := fun x => by
    constructor
    · intro hx
      obtain ⟨t, ht, hxt⟩ := hx
      have hin := (h.covers x).1 ⟨t, List.mem_cons_of_mem _ ht, hxt⟩
      have hout : x ∉ s := fun hxs => (List.pairwise_cons.1 h.apart).1 t ht x hxs hxt
      simp only [mem_iff] at hout
      omega
    · intro hx
      obtain ⟨t, ht, hxt⟩ := (h.covers x).2 (by omega)
      rcases List.mem_cons.1 ht with rfl | ht
      · simp only [mem_iff] at hxt
        omega
      · exact ⟨t, ht, hxt⟩

/-- A tiling's inhabited spans lie in it. -/
theorem TiledBy.bounds (h : TiledBy l e f) (hs : s ∈ l) (hi : s.Inhabited) : e ≤ s.lo ∧ s.hi ≤ f := by
  simp only [Inhabited] at hi
  have hlo := (h.covers s.lo).1 ⟨s, hs, by simp only [mem_iff]; omega⟩
  have hhi := (h.covers (s.hi - 1)).1 ⟨s, hs, by simp only [mem_iff]; omega⟩
  omega

/-! ## Chains in starting order -/

/-- A chain of spans none of which is reversed. -/
theorem Chain.tiledBy (hne : ∀ s ∈ l, s.lo ≤ s.hi) (h : Chain e l f) : TiledBy l e f ∧ InPlace l e f := by
  induction l generalizing e with
  | nil =>
    obtain rfl : e = f := h
    refine ⟨⟨le_refl e, .nil, fun x => ?_⟩, ⟨by simp, .nil⟩⟩
    simp only [List.not_mem_nil, false_and, exists_false, false_iff]
    omega
  | cons s l ih =>
    obtain ⟨rfl, h⟩ := h
    obtain ⟨ht, hp⟩ := ih (fun t ht => hne t (List.mem_cons_of_mem _ ht)) h
    have hs := hne s (by simp)
    refine ⟨ht.cons hs, ⟨fun d hd hn => ?_, List.pairwise_cons.2 ⟨fun d hd _ hn => (hp.empty d hd hn).2.1, hp.after⟩⟩⟩
    have hle := ht.le
    rcases List.mem_cons.1 hd with rfl | hd
    · simp only [Inhabited] at hn
      omega
    · have := hp.empty d hd hn
      omega

/-- Its spans lie between its ends. -/
theorem Chain.bounds (hne : ∀ s ∈ l, s.lo ≤ s.hi) (h : Chain e l f) : e ≤ f ∧ ∀ s ∈ l, e ≤ s.lo ∧ s.hi ≤ f := by
  induction l generalizing e with
  | nil =>
    obtain rfl : e = f := h
    exact ⟨le_refl e, by simp⟩
  | cons s l ih =>
    obtain ⟨rfl, h⟩ := h
    obtain ⟨hle, hrest⟩ := ih (fun t ht => hne t (List.mem_cons_of_mem _ ht)) h
    have hs := hne s (by simp)
    refine ⟨hs.trans hle, fun t ht => ?_⟩
    rcases List.mem_cons.1 ht with rfl | ht
    · exact ⟨le_refl _, hle⟩
    · exact ⟨hs.trans (hrest t ht).1, (hrest t ht).2⟩

/-- The lengths of a chain add up to what it spans. -/
theorem Chain.length_sum (h : Chain e l f) : (l.map length).sum = f - e := by
  induction l generalizing e with
  | nil =>
    obtain rfl : e = f := h
    simp
  | cons s l ih =>
    obtain ⟨rfl, h⟩ := h
    rw [List.map_cons, List.sum_cons, ih h, length]
    omega

/-- In starting order, a tiling with its empty spans in place is a chain. -/
theorem TiledBy.chain (hs : l.Pairwise fun s t => s.lo ≤ t.lo) (ht : TiledBy l e f) (hp : InPlace l e f) :
    Chain e l f := by
  induction l generalizing e with
  | nil =>
    have hle := ht.le
    have hno : ¬ (e ≤ e ∧ e < f) := by
      intro h
      obtain ⟨s, hs, -⟩ := (ht.covers e).2 h
      simp at hs
    show e = f
    omega
  | cons s l ih =>
    obtain ⟨hfirst, hs⟩ := List.pairwise_cons.1 hs
    obtain ⟨hafter, hrest⟩ := List.pairwise_cons.1 hp.after
    -- The first span starts no later than the one that holds the first point.
    have hmin : ∀ x, e ≤ x → x < f → s.lo ≤ x := by
      intro x he hf
      obtain ⟨t, hmem, hx⟩ := (ht.covers x).2 ⟨he, hf⟩
      simp only [mem_iff] at hx
      rcases List.mem_cons.1 hmem with rfl | hmem
      · exact hx.1
      · exact (hfirst t hmem).trans hx.1
    have hle := ht.le
    by_cases hi : s.Inhabited
    · have hb := ht.bounds (by simp) hi
      simp only [Inhabited] at hi
      have hlo : s.lo = e := by
        have := hmin e (le_refl e) (by omega)
        omega
      subst hlo
      refine ⟨rfl, ih hs (ht.tail hi.le hb.2) ⟨fun d hd hn => ?_, hrest⟩⟩
      have := hp.empty d (List.mem_cons_of_mem _ hd) hn
      exact ⟨this.1, hafter d hd hi hn, this.2.2⟩
    · obtain ⟨heq, he, hf⟩ := hp.empty s (by simp) hi
      have hlo : s.lo = e := by
        by_contra hne
        have := hmin e (le_refl e) (by omega)
        omega
      subst hlo
      refine ⟨rfl, ih hs (ht.tail heq.le (by omega)) ⟨fun d hd hn => ?_, hrest⟩⟩
      have := hp.empty d (List.mem_cons_of_mem _ hd) hn
      omega

theorem InPlace.le (h : InPlace l e f) (hs : s ∈ l) : s.lo ≤ s.hi := by
  by_cases hi : s.Inhabited
  · exact hi.le
  · exact (h.empty s hs hi).1.le

/-- **A chain is a tiling with its empty spans in place**, for spans in
starting order of which none is reversed. -/
theorem chain_iff_tiledBy (hs : l.Pairwise fun s t => s.lo ≤ t.lo) (hne : ∀ s ∈ l, s.lo ≤ s.hi) :
    Chain e l f ↔ TiledBy l e f ∧ InPlace l e f :=
  ⟨fun h => h.tiledBy hne, fun h => h.1.chain hs h.2⟩

theorem chain_append {l' : List Span} : Chain e (l ++ l') f ↔ ∃ m, Chain e l m ∧ Chain m l' f := by
  induction l generalizing e with
  | nil => simp [Chain]
  | cons s l ih => simp [Chain, ih, and_assoc]

/-- In a chain in starting order, only the last span can be reversed. -/
theorem Chain.le_of_append (hs : (l ++ [s]).Pairwise fun s t => s.lo ≤ t.lo) (h : Chain e (l ++ [s]) f) :
    ∀ t ∈ l, t.lo ≤ t.hi := by
  induction l generalizing e with
  | nil => simp
  | cons a l ih =>
    simp only [List.cons_append, List.pairwise_cons, Chain] at hs h
    intro t ht
    rcases List.mem_cons.1 ht with rfl | ht
    · -- What follows begins where `t` ends, and no earlier than `t`.
      cases l with
      | nil =>
        have hnext := hs.1 s (by simp)
        have := h.2.1
        omega
      | cons b l =>
        have hnext := hs.1 b (by simp)
        have := h.2.1
        omega
    · exact ih hs.2 h.2 t ht

/-- **Chains in starting order.** A chain is a tiling with its empty spans in
place, or such a tiling up to where a last, reversed span begins. -/
theorem chain_iff (hs : l.Pairwise fun s t => s.lo ≤ t.lo) :
    Chain e l f ↔ (TiledBy l e f ∧ InPlace l e f) ∨
      ∃ l' r, l = l' ++ [r] ∧ r.hi < r.lo ∧ r.hi = f ∧ TiledBy l' e r.lo ∧ InPlace l' e r.lo := by
  constructor
  · intro h
    by_cases hne : ∀ s ∈ l, s.lo ≤ s.hi
    · exact .inl (h.tiledBy hne)
    rcases List.eq_nil_or_concat l with rfl | ⟨l', r, rfl⟩
    · simp at hne
    · rw [List.concat_eq_append] at *
      have hle := h.le_of_append hs
      obtain ⟨m, hl', hm, hr⟩ := chain_append.1 h
      subst hm
      have hrev : r.hi < r.lo := by
        by_contra hr
        refine hne fun t ht => ?_
        rcases List.mem_append.1 ht with ht | ht
        · exact hle t ht
        · obtain rfl := List.mem_singleton.1 ht
          omega
      exact .inr ⟨l', r, rfl, hrev, hr, hl'.tiledBy hle⟩
  · intro h
    rcases h with ⟨ht, hp⟩ | ⟨l', r, rfl, -, rfl, ht, hp⟩
    · exact ht.chain hs hp
    · have hs' := (List.pairwise_append.1 hs).1
      exact chain_append.2 ⟨r.lo, ht.chain hs' hp, rfl, rfl⟩

end Span

end Blitzwing
