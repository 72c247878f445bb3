/-
Logs of processes that run side by side.

A log lists events with the process each is of. It `Interleaves` the processes'
traces when what it has of each process is a beginning of that process's trace.
What a trace says of the order of its events then holds in every such log
(`Interleaves.after`), and a log has no more events of a kind than the trace
(`Interleaves.countP_le`).
-/
import Mathlib.Data.List.Basic

namespace Blitzwing

namespace Log

variable {ι α : Type} [DecidableEq ι] {p q : α → Prop} {l l' : List α} {i : ι} {log : List (ι × α)}

/-- Each event of the first kind has one of the second before it. -/
def After (p q : α → Prop) (l : List α) : Prop := ∀ pre e post, l = pre ++ e :: post → p e → ∃ e' ∈ pre, q e'

theorem after_of_forall_not (h : ∀ e ∈ l, ¬ p e) : After p q l := by
  intro pre e post hl hp
  exact absurd hp (h e (by simp [hl]))

/-- A beginning without an event of the first kind, but with one of the second. -/
theorem after_append (hq : ∃ e ∈ l, q e) (hp : ∀ e ∈ l, ¬ p e) : After p q (l ++ l') := by
  intro pre e post hl he
  obtain ⟨x, hx, hqx⟩ := hq
  rcases List.append_eq_append_iff.1 hl with ⟨rest, rfl, -⟩ | ⟨rest, rfl, hrest⟩
  · exact ⟨x, by simp [hx], hqx⟩
  · -- The event cannot be in the beginning.
    cases rest with
    | nil => exact ⟨x, by simpa using hx, hqx⟩
    | cons y rest =>
      obtain ⟨rfl, -⟩ := List.cons.inj hrest
      exact absurd he (hp _ (by simp))

theorem After.beginning (h : After p q l) (hpre : l' <+: l) : After p q l' := by
  intro pre e post hl' he
  obtain ⟨rest, rfl⟩ := hpre
  exact h pre e (post ++ rest) (by simp [hl']) he

/-- What happens once at most, and after something else, happens at most as often. -/
theorem After.countP_le {p q : α → Bool} (h : After (p · = true) (q · = true) l) (hp : l.countP p ≤ 1) :
    l.countP p ≤ l.countP q := by
  by_cases hnone : l.countP p = 0
  · omega
  · obtain ⟨e, hmem, he⟩ := List.countP_pos_iff.1 (Nat.pos_of_ne_zero hnone)
    obtain ⟨pre, post, hl⟩ := List.append_of_mem hmem
    obtain ⟨e', hmem', he'⟩ := h pre e post hl he
    have hpos : 0 < l.countP q := List.countP_pos_iff.2 ⟨e', by simp [hl, hmem'], he'⟩
    omega

/-- The events of one process. -/
def ofProcess (i : ι) (log : List (ι × α)) : List α := (log.filter (·.1 = i)).map (·.2)

/-- The log has of each process the beginning of its trace. -/
def Interleaves (traces : ι → List α) (log : List (ι × α)) : Prop := ∀ i, ofProcess i log <+: traces i

theorem mem_ofProcess {e : α} : e ∈ ofProcess i log ↔ (i, e) ∈ log := by
  simp [ofProcess]

theorem ofProcess_append_cons (pre post : List (ι × α)) (i : ι) (e : α) :
    ofProcess i (pre ++ (i, e) :: post) = ofProcess i pre ++ e :: ofProcess i post := by
  simp [ofProcess]

theorem ofProcess_append (l l' : List (ι × α)) : ofProcess i (l ++ l') = ofProcess i l ++ ofProcess i l' := by
  simp [ofProcess]

/-- A process that runs alone. -/
theorem ofProcess_map (j : ι) (trace : List α) : ofProcess i (trace.map (j, ·)) = if j = i then trace else [] := by
  by_cases h : j = i
  · simp [ofProcess, List.filter_map, Function.comp_def, h]
  · simp [ofProcess, List.filter_map, Function.comp_def, h]

theorem Interleaves.after {traces : ι → List α} (h : Interleaves traces log) (ht : After p q (traces i))
    {pre post : List (ι × α)} {e : α} (hlog : log = pre ++ (i, e) :: post) (he : p e) : ∃ e', (i, e') ∈ pre ∧ q e' := by
  have hsplit : ofProcess i log = ofProcess i pre ++ e :: ofProcess i post := by
    rw [hlog, ofProcess_append_cons]
  obtain ⟨e', hmem, hq⟩ := ht.beginning (h i) _ _ _ hsplit he
  exact ⟨e', mem_ofProcess.1 hmem, hq⟩

theorem Interleaves.countP_le {traces : ι → List α} (h : Interleaves traces log) (i : ι) (p : α → Bool) :
    (ofProcess i log).countP p ≤ (traces i).countP p :=
  (h i).sublist.countP_le

end Log

end Blitzwing
