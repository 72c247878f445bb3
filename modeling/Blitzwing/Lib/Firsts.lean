/-
The first of each key in a list: what a loop keeps that passes over what it has
seen before.

The keys kept are distinct (`nodup_keys_firsts`), and they are all there are but
those seen at the start (`mem_keys_firsts`).
-/
import Mathlib.Data.List.Nodup

namespace Blitzwing

universe u v

variable {α : Type u} {κ : Type v} [DecidableEq κ] (key : α → Option κ)

/-- Those whose key is not seen yet, and all that have none. -/
def firsts (seen : List κ) : List α → List α
  | [] => []
  | a :: l =>
    match key a with
    | .none => a :: firsts seen l
    | .some k => if k ∈ seen then firsts seen l else a :: firsts (k :: seen) l

variable {key}

theorem firsts_cons_none {a : α} (h : key a = .none) (seen : List κ) (l : List α) :
    firsts key seen (a :: l) = a :: firsts key seen l := by
  simp [firsts, h]

theorem firsts_cons_seen {a : α} {k : κ} {seen : List κ} (h : key a = .some k) (hk : k ∈ seen) (l : List α) :
    firsts key seen (a :: l) = firsts key seen l := by
  simp [firsts, h, hk]

theorem firsts_cons_new {a : α} {k : κ} {seen : List κ} (h : key a = .some k) (hk : k ∉ seen) (l : List α) :
    firsts key seen (a :: l) = a :: firsts key (k :: seen) l := by
  simp [firsts, h, hk]

/-- In the order they came. -/
theorem firsts_sublist (seen : List κ) (l : List α) : (firsts key seen l).Sublist l := by
  induction l generalizing seen with
  | nil => exact .slnil
  | cons a l ih =>
    cases h : key a with
    | none =>
      rw [firsts_cons_none h]
      exact (ih seen).cons_cons a
    | some k =>
      by_cases hk : k ∈ seen
      · rw [firsts_cons_seen h hk]
        exact (ih seen).cons a
      · rw [firsts_cons_new h hk]
        exact (ih _).cons_cons a

/-- A key is kept once it comes, unless it was seen before. -/
theorem mem_keys_firsts {k : κ} {seen : List κ} {l : List α} :
    k ∈ (firsts key seen l).filterMap key ↔ k ∈ l.filterMap key ∧ k ∉ seen := by
  induction l generalizing seen with
  | nil => simp [firsts]
  | cons a l ih =>
    cases h : key a with
    | none => rw [firsts_cons_none h, List.filterMap_cons_none h, List.filterMap_cons_none h, ih]
    | some k' =>
      rw [List.filterMap_cons_some h, List.mem_cons]
      by_cases hk : k' ∈ seen
      · rw [firsts_cons_seen h hk, ih]
        constructor
        · rintro ⟨hl, hseen⟩
          exact ⟨.inr hl, hseen⟩
        · rintro ⟨rfl | hl, hseen⟩
          · exact absurd hk hseen
          · exact ⟨hl, hseen⟩
      · rw [firsts_cons_new h hk, List.filterMap_cons_some h, List.mem_cons, ih, List.mem_cons, not_or]
        by_cases heq : k = k'
        · simp [heq, hk]
        · simp [heq]

theorem nodup_keys_firsts (seen : List κ) (l : List α) : ((firsts key seen l).filterMap key).Nodup := by
  induction l generalizing seen with
  | nil => simp [firsts]
  | cons a l ih =>
    cases h : key a with
    | none =>
      rw [firsts_cons_none h, List.filterMap_cons_none h]
      exact ih seen
    | some k =>
      by_cases hk : k ∈ seen
      · rw [firsts_cons_seen h hk]
        exact ih seen
      · rw [firsts_cons_new h hk, List.filterMap_cons_some h, List.nodup_cons]
        refine ⟨fun hmem => ?_, ih _⟩
        exact (mem_keys_firsts.1 hmem).2 (by simp)

/-- What is kept of a key is what came first. -/
theorem find?_of_mem_firsts {a : α} {k : κ} {seen : List κ} {l : List α} (ha : a ∈ firsts key seen l)
    (hk : key a = .some k) : l.find? (key · = .some k) = .some a := by
  induction l generalizing seen with
  | nil => simp [firsts] at ha
  | cons b l ih =>
    cases h : key b with
    | none =>
      rw [firsts_cons_none h, List.mem_cons] at ha
      rw [List.find?_cons_of_neg (by simp [h])]
      rcases ha with rfl | ha
      · simp [h] at hk
      · exact ih ha
    | some k' =>
      by_cases hseen : k' ∈ seen
      · rw [firsts_cons_seen h hseen] at ha
        have hne : k' ≠ k := by
          rintro rfl
          exact (mem_keys_firsts.1 (List.mem_filterMap.2 ⟨a, ha, hk⟩)).2 hseen
        rw [List.find?_cons_of_neg (by simp [h, hne])]
        exact ih ha
      · rw [firsts_cons_new h hseen, List.mem_cons] at ha
        rcases ha with rfl | ha
        · exact List.find?_cons_of_pos (by simp [hk])
        · have hne : k' ≠ k := by
            rintro rfl
            exact (mem_keys_firsts.1 (List.mem_filterMap.2 ⟨a, ha, hk⟩)).2 (by simp)
          rw [List.find?_cons_of_neg (by simp [h, hne])]
          exact ih ha

end Blitzwing
