/-
A value that several writers change, and the file they save it to.

A writer takes a snapshot of the value and writes it to the file at a later
moment. Snapshots are numbered as they are taken. From its change of the value
to its snapshot a writer owes a save. The newest snapshot is in the file or in
some writer's hands, and it follows the value unless a save is owed (`Sound`);
this is kept as long as no snapshot is written over a newer one and no debt is
dropped. When all writers are done, the file follows the value
(`Sound.follows_of_rest`).
-/
import Blitzwing.Lib.Pool

namespace Blitzwing

universe u v

/-- What a writer has to do about the file. -/
inductive Duty (φ : Type v)
  | free
  | owes
  | holds (n : Nat) (content : φ)

namespace Duty

variable {φ : Type v}

def Holding : Duty φ → Prop
  | .holds _ _ => True
  | _ => False

/-- No debt is dropped between the two. -/
def Pays (d d' : Duty φ) : Prop := d = .owes → d' = .owes

end Duty

/-- `landed` is the number of the snapshot that is in the file. -/
structure Snapshots (σ : Type u) (φ : Type v) where
  value : σ
  file : φ
  taken : Nat := 0
  landed : Nat := 0
  duties : List (Duty φ) := []

namespace Snapshots

variable {σ : Type u} {φ : Type v} {s : Snapshots σ φ} {follows : φ → σ → Prop} {i : Nat} {d d' : Duty φ} {f : φ}
  {value : σ}

/-- The content of the newest snapshot, wherever it is. -/
def Newest (s : Snapshots σ φ) (f : φ) : Prop :=
  (s.landed = s.taken ∧ s.file = f) ∨ .holds s.taken f ∈ s.duties

structure Sound (follows : φ → σ → Prop) (s : Snapshots σ φ) : Prop where
  landed : s.landed ≤ s.taken
  held : ∀ n f, .holds n f ∈ s.duties → n ≤ s.taken
  newest : ∃ f, s.Newest f
  current : .owes ∈ s.duties ∨ ∀ f, s.Newest f → follows f s.value

theorem Sound.start (hs : s.Sound follows) (hd : ¬ d.Holding) :
    Sound follows { s with duties := s.duties ++ [d] } := by
  have hmem : ∀ n f, .holds n f ∈ s.duties ++ [d] ↔ .holds n f ∈ s.duties := by
    intro n f
    have hne : Duty.holds n f ≠ d := fun he => hd (he ▸ trivial)
    simp [hne]
  refine ⟨hs.landed, ?_, ?_, ?_⟩
  · intro n f h
    exact hs.held n f ((hmem n f).1 h)
  · obtain ⟨f, hf⟩ := hs.newest
    exact ⟨f, hf.imp_right (hmem _ _).2⟩
  · refine hs.current.imp (fun h => List.mem_append_left _ h) ?_
    intro hall f hf
    exact hall f (hf.imp_right (hmem _ _).1)

/-- The held snapshots after a writer that holds none goes on. -/
theorem holds_mem_set (hi : s.duties[i]? = .some d) (hd : ¬ d.Holding) (hd' : ¬ d'.Holding) (n : Nat) (f : φ) :
    .holds n f ∈ s.duties.set i d' ↔ .holds n f ∈ s.duties := by
  have hne : Duty.holds n f ≠ d := fun he => hd (he ▸ trivial)
  have hne' : Duty.holds n f ≠ d' := fun he => hd' (he ▸ trivial)
  rw [mem_set_iff_others hi, mem_iff_others hi]
  simp [hne, hne']

/-- A change of the value that its writer is to save. -/
theorem Sound.change (hs : s.Sound follows) (hi : s.duties[i]? = .some d) (hd : ¬ d.Holding) :
    Sound follows { s with value, duties := s.duties.set i .owes } := by
  have hmem := holds_mem_set hi hd (show ¬ (Duty.owes : Duty φ).Holding from id)
  refine ⟨hs.landed, ?_, ?_, .inl ?_⟩
  · intro n f h
    exact hs.held n f ((hmem n f).1 h)
  · obtain ⟨f, hf⟩ := hs.newest
    exact ⟨f, hf.imp_right (hmem _ _).2⟩
  · exact (mem_set_iff_others hi).2 (.inl rfl)

/-- A change that what was saved follows, by a writer that drops no debt. -/
theorem Sound.quiet (hs : s.Sound follows) (hi : s.duties[i]? = .some d) (hd : ¬ d.Holding) (hd' : ¬ d'.Holding)
    (hpays : d.Pays d') (hsame : ∀ f, follows f s.value → follows f value) :
    Sound follows { s with value, duties := s.duties.set i d' } := by
  have hmem := holds_mem_set hi hd hd'
  refine ⟨hs.landed, ?_, ?_, ?_⟩
  · intro n f h
    exact hs.held n f ((hmem n f).1 h)
  · obtain ⟨f, hf⟩ := hs.newest
    exact ⟨f, hf.imp_right (hmem _ _).2⟩
  · obtain howes | hall := hs.current
    · refine .inl ((mem_set_iff_others hi).2 ?_)
      obtain howes | howes := (mem_iff_others hi).1 howes
      · exact .inl (hpays howes.symm).symm
      · exact .inr howes
    · refine .inr ?_
      intro f hf
      exact hsame f (hall f (hf.imp_right (hmem _ _).1))

/-- A snapshot of a value that its writer may have changed. -/
theorem Sound.snapshot (hs : s.Sound follows) (hi : s.duties[i]? = .some d) (hd : ¬ d.Holding) (hf : follows f value) :
    Sound follows { s with value, taken := s.taken + 1, duties := s.duties.set i (.holds (s.taken + 1) f) } := by
  have hmem : ∀ n g, .holds n g ∈ s.duties.set i (.holds (s.taken + 1) f) ↔
      (n = s.taken + 1 ∧ g = f) ∨ .holds n g ∈ s.duties := by
    intro n g
    have hne : Duty.holds n g ≠ d := fun he => hd (he ▸ trivial)
    rw [mem_set_iff_others hi, mem_iff_others hi]
    simp [hne]
  refine ⟨Nat.le_succ_of_le hs.landed, ?_, ⟨f, .inr ((hmem _ _).2 (.inl ⟨rfl, rfl⟩))⟩, .inr ?_⟩
  · intro n g h
    obtain ⟨rfl, -⟩ | h := (hmem n g).1 h
    · exact Nat.le_refl _
    · exact Nat.le_succ_of_le (hs.held n g h)
  · -- No other writer holds a snapshot of this number, nor does the file.
    intro g hg
    obtain ⟨hlanded, -⟩ | h := hg
    · have hle := hs.landed
      simp only at hlanded
      omega
    · obtain ⟨-, rfl⟩ | h := (hmem _ _).1 h
      · exact hf
      · have hle := hs.held _ _ h
        simp only at hle
        omega

/-- A write of a snapshot that is newer than the one in the file. -/
theorem Sound.write {n : Nat} (hs : s.Sound follows) (hi : s.duties[i]? = .some (.holds n f)) (hnew : s.landed < n)
    (hd' : ¬ d'.Holding) : Sound follows { s with file := f, landed := n, duties := s.duties.set i d' } := by
  have hn : n ≤ s.taken := hs.held n f (List.mem_of_getElem? hi)
  have hmem : ∀ m g, .holds m g ∈ s.duties.set i d' → .holds m g ∈ s.duties := by
    intro m g h
    have hne : Duty.holds m g ≠ d' := fun he => hd' (he ▸ trivial)
    obtain h | h := (mem_set_iff_others hi).1 h
    · exact absurd h hne
    · exact mem_of_others h
  have hsub : ∀ g, Newest { s with file := f, landed := n, duties := s.duties.set i d' } g → s.Newest g := by
    intro g hg
    obtain ⟨hlast, rfl⟩ | h := hg
    · obtain rfl : n = s.taken := hlast
      exact .inr (List.mem_of_getElem? hi)
    · exact .inr (hmem _ _ h)
  refine ⟨hn, ?_, ?_, ?_⟩
  · intro m g h
    exact hs.held m g (hmem m g h)
  · obtain rfl | hlt := Nat.eq_or_lt_of_le hn
    · exact ⟨f, .inl ⟨rfl, rfl⟩⟩
    · -- The newest one is in another writer's hands.
      obtain ⟨g, ⟨hlanded, -⟩ | h⟩ := hs.newest
      · omega
      · refine ⟨g, .inr ((mem_set_iff_others hi).2 (.inr ?_))⟩
        refine ((mem_iff_others hi).1 h).resolve_left ?_
        intro he
        have hnumber := (Duty.holds.inj he).1
        omega
  · refine hs.current.imp ?_ ?_
    · intro howes
      refine (mem_set_iff_others hi).2 (.inr (((mem_iff_others hi).1 howes).resolve_left ?_))
      intro he
      cases he
    · intro hall g hg
      exact hall g (hsub g hg)

/-- **The file follows the value** when nobody is at work. -/
theorem Sound.follows_of_rest (hs : s.Sound follows) (hrest : ∀ d ∈ s.duties, d = .free) : follows s.file s.value := by
  obtain howes | hall := hs.current
  · cases hrest _ howes
  · obtain ⟨f, hf⟩ := hs.newest
    have hfile : s.file = f := by
      obtain ⟨-, hfile⟩ | h := hf
      · exact hfile
      · cases hrest _ h
    exact hfile ▸ hall f hf

end Snapshots

end Blitzwing
