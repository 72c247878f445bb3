/-
Python's `dict`: a finite map that keeps the order its keys were inserted in.

`set` is `d[k] = v` (an existing key keeps its place, a new one goes last),
`erase` is `del d[k]`, `modify` changes the object stored under a key in
place. A loop over `d.values()` sees `values`, in that order. The keys are
distinct by construction, so a lookup and a membership say the same thing
(`mem_values`), and facts about a loop reduce to facts about `get?`.
-/
import Mathlib.Data.List.Nodup
import Mathlib.Data.List.Basic

namespace Blitzwing

universe u v

/-- A finite map with its keys in insertion order. -/
structure Dict (κ : Type u) (α : Type v) where
  items : List (κ × α)
  nodup : (items.map Prod.fst).Nodup
deriving DecidableEq, Repr

namespace Dict

variable {κ : Type u} {α : Type v} [DecidableEq κ]

def empty : Dict κ α := ⟨[], by simp⟩

def keys (d : Dict κ α) : List κ := d.items.map Prod.fst

def values (d : Dict κ α) : List α := d.items.map Prod.snd

def get? (d : Dict κ α) (k : κ) : Option α := (d.items.find? (·.1 = k)).map Prod.snd

/-- `k in d` -/
def contains (d : Dict κ α) (k : κ) : Bool := (d.get? k).isSome

/-- `del d[k]`, for a key that may be absent. -/
def erase (d : Dict κ α) (k : κ) : Dict κ α where
  items := d.items.filter (·.1 ≠ k)
  nodup := (List.filter_sublist.map _).nodup d.nodup

/-- `{k: v for k, v in d.items() if p(k)}` -/
def filter (d : Dict κ α) (p : κ → Bool) : Dict κ α where
  items := d.items.filter fun r => p r.1
  nodup := (List.filter_sublist.map _).nodup d.nodup

/-- Change the object stored under `k`, if there is one. -/
def modify (d : Dict κ α) (k : κ) (f : α → α) : Dict κ α where
  items := d.items.map fun p => (p.1, if p.1 = k then f p.2 else p.2)
  nodup := by simpa [List.map_map, Function.comp_def] using d.nodup

/-- `d[k] = v` -/
def set (d : Dict κ α) (k : κ) (v : α) : Dict κ α :=
  if h : k ∈ d.items.map Prod.fst then d.modify k fun _ => v
  else ⟨d.items ++ [(k, v)], by simpa [List.nodup_append] using ⟨d.nodup, fun a b hab e => h (by
    subst e; exact List.mem_map.2 ⟨_, hab, rfl⟩)⟩⟩

/-! ## Lookups -/

theorem find?_eq_some_of_mem {l : List (κ × α)} (hn : (l.map Prod.fst).Nodup) {k : κ} {v : α}
    (h : (k, v) ∈ l) : l.find? (·.1 = k) = .some (k, v) := by
  induction l with
  | nil => simp at h
  | cons p l ih =>
    simp only [List.map_cons, List.nodup_cons] at hn
    rcases List.mem_cons.1 h with rfl | h
    · simp
    · have hne : p.1 ≠ k := by
        rintro rfl
        exact hn.1 (List.mem_map.2 ⟨_, h, rfl⟩)
      simpa [List.find?_cons, hne] using ih hn.2 h

theorem get?_eq_some {d : Dict κ α} {k : κ} {v : α} : d.get? k = .some v ↔ (k, v) ∈ d.items := by
  constructor
  · intro h
    obtain ⟨p, hp, rfl⟩ := Option.map_eq_some_iff.1 h
    have hk := List.find?_some hp
    simp only [decide_eq_true_eq] at hk
    subst hk
    exact List.mem_of_find?_eq_some hp
  · intro h
    simp [get?, find?_eq_some_of_mem d.nodup h]

theorem mem_keys {d : Dict κ α} {k : κ} : k ∈ d.keys ↔ ∃ v, d.get? k = .some v := by
  simp [keys, get?_eq_some]

theorem get?_eq_none {d : Dict κ α} {k : κ} : d.get? k = .none ↔ k ∉ d.keys := by
  simp [mem_keys, Option.eq_none_iff_forall_ne_some]

theorem mem_values {d : Dict κ α} {v : α} : v ∈ d.values ↔ ∃ k, d.get? k = .some v := by
  simp [values, get?_eq_some]

@[simp] theorem get?_empty (k : κ) : (empty : Dict κ α).get? k = .none := rfl

theorem get?_erase (d : Dict κ α) (k k' : κ) :
    (d.erase k).get? k' = if k' = k then .none else d.get? k' := by
  ext v
  rw [get?_eq_some]
  split
  · next h => simp [erase, h]
  · next h => simp [erase, h, get?_eq_some]

theorem get?_filter (d : Dict κ α) (p : κ → Bool) (k : κ) : (d.filter p).get? k = if p k then d.get? k else .none := by
  ext v
  rw [get?_eq_some]
  split
  · next h => simp [filter, h, get?_eq_some]
  · next h => simp [filter, h]

theorem modify_congr {d : Dict κ α} {k : κ} {f g : α → α} (h : ∀ v, d.get? k = .some v → f v = g v) :
    d.modify k f = d.modify k g := by
  unfold modify
  congr 1
  refine List.map_congr_left ?_
  intro p hp
  split
  · next he => rw [h p.2 (get?_eq_some.2 (he ▸ hp))]
  · rfl

/-- Writing what is there changes nothing. -/
theorem modify_eq_self {d : Dict κ α} {k : κ} {f : α → α} (h : ∀ v, d.get? k = .some v → f v = v) :
    d.modify k f = d := by
  rw [modify_congr (g := id) h]
  simp [modify]

theorem modify_modify (d : Dict κ α) (k : κ) (f g : α → α) :
    (d.modify k f).modify k g = d.modify k fun v => g (f v) := by
  have hitem : ∀ p : κ × α, (if p.1 = k then g (if p.1 = k then f p.2 else p.2) else if p.1 = k then f p.2 else p.2) =
      if p.1 = k then g (f p.2) else p.2 := by
    intro p
    by_cases hp : p.1 = k
    · simp only [if_pos hp]
    · simp only [if_neg hp]
  simp [modify, Function.comp_def, hitem]

theorem get?_modify (d : Dict κ α) (k k' : κ) (f : α → α) :
    (d.modify k f).get? k' = if k' = k then (d.get? k').map f else d.get? k' := by
  have hfind : (d.modify k f).items.find? (·.1 = k') =
      (d.items.find? (·.1 = k')).map fun p => (p.1, if p.1 = k then f p.2 else p.2) := List.find?_map
  simp only [get?, hfind, Option.map_map]
  cases hp : d.items.find? (·.1 = k') with
  | none => simp
  | some p =>
    have hk := List.find?_some hp
    simp only [decide_eq_true_eq] at hk
    subst hk
    split <;> simp_all

theorem get?_set (d : Dict κ α) (k k' : κ) (v : α) :
    (d.set k v).get? k' = if k' = k then .some v else d.get? k' := by
  unfold set
  split
  · next h =>
    rw [get?_modify]
    split
    · next hk =>
      obtain ⟨w, hw⟩ := mem_keys.1 h
      simp [hk, hw]
    · rfl
  · next h =>
    ext w
    rw [get?_eq_some]
    split
    · next hk =>
      subst hk
      have hno : (k', w) ∉ d.items := fun hm => h (List.mem_map.2 ⟨_, hm, rfl⟩)
      simp [hno, eq_comm]
    · next hk => simp [hk, get?_eq_some]

@[simp] theorem get?_erase_self (d : Dict κ α) (k : κ) : (d.erase k).get? k = .none := by simp [get?_erase]

@[simp] theorem get?_set_self (d : Dict κ α) (k : κ) (v : α) : (d.set k v).get? k = .some v := by
  simp [get?_set]

theorem get?_erase_ne {d : Dict κ α} {k k' : κ} (h : k' ≠ k) : (d.erase k).get? k' = d.get? k' := by
  simp [get?_erase, h]

theorem get?_set_ne {d : Dict κ α} {k k' : κ} {v : α} (h : k' ≠ k) : (d.set k v).get? k' = d.get? k' := by
  simp [get?_set, h]

theorem erase_modify (d : Dict κ α) (k : κ) (f : α → α) : (d.modify k f).erase k = d.erase k := by
  have hitems : ∀ l : List (κ × α),
      (l.map fun p => (p.1, if p.1 = k then f p.2 else p.2)).filter (·.1 ≠ k) = l.filter (·.1 ≠ k) := by
    intro l
    induction l with
    | nil => rfl
    | cons p l ih =>
      rw [List.map_cons, List.filter_cons, List.filter_cons, ih]
      by_cases hp : p.1 = k
      · simp [hp]
      · simp [hp]
  simp only [erase, modify, hitems]

/-- Entries under keys that are new and all different are put at the end. -/
theorem items_foldl_set {entries : List (κ × α)} {d : Dict κ α} (hn : (entries.map Prod.fst).Nodup)
    (hd : ∀ k ∈ entries.map Prod.fst, k ∉ d.keys) :
    (entries.foldl (fun d e => d.set e.1 e.2) d).items = d.items ++ entries := by
  induction entries generalizing d with
  | nil => simp
  | cons e entries ih =>
    simp only [List.map_cons, List.nodup_cons, List.forall_mem_cons] at hn hd
    have hnew : e.1 ∉ d.items.map Prod.fst := hd.1
    have hset : (d.set e.1 e.2).items = d.items ++ [e] := by
      unfold set
      rw [dif_neg hnew]
    rw [List.foldl_cons, ih hn.2 fun k hk => ?_, hset, List.append_assoc, List.singleton_append]
    rw [keys, hset, List.map_append, List.mem_append, List.map_singleton, List.mem_singleton]
    rintro (hold | rfl)
    · exact hd.2 k hk hold
    · exact hn.1 hk

theorem items_foldl_erase (ks : List κ) (d : Dict κ α) :
    (ks.foldl erase d).items = d.items.filter fun e => e.1 ∉ ks := by
  induction ks generalizing d with
  | nil => simp
  | cons k ks ih =>
    rw [List.foldl_cons, ih, erase, List.filter_filter]
    refine List.filter_congr fun e _ => ?_
    simp [Bool.and_comm]

end Dict

end Blitzwing
