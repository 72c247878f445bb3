/-
Code that may raise, in `Except` and in `EStateM`.

`bind_eq_ok` takes a successful sequence of steps apart, `bind_apply` runs
one in a state monad that keeps what was changed before a raise. The loop
lemmas say that a loop none of whose turns raises is its pure counterpart.
-/
import Mathlib.Data.List.Basic

namespace Blitzwing

variable {ε σ α β : Type}

theorem bind_eq_ok {x : Except ε α} {f : α → Except ε β} {b : β} :
    (x >>= f) = .ok b ↔ ∃ a, x = .ok a ∧ f a = .ok b := by
  cases x with
  | error e => simp [bind, Except.bind]
  | ok a => simp [bind, Except.bind]

@[simp] theorem ok_bind (a : α) (f : α → Except ε β) : ((Except.ok a : Except ε α) >>= f) = f a := rfl

@[simp] theorem error_bind (e : ε) (f : α → Except ε β) : ((Except.error e : Except ε α) >>= f) = .error e := rfl

@[simp] theorem pure_eq_ok (a : α) : (pure a : Except ε α) = .ok a := rfl

@[simp] theorem throw_eq_error (e : ε) : (throw e : Except ε α) = .error e := rfl

theorem bind_apply (x : EStateM ε σ α) (f : α → EStateM ε σ β) (s : σ) :
    (x >>= f) s = match x s with
      | .ok a s' => f a s'
      | .error e s' => .error e s' := by
  simp only [bind, EStateM.bind]
  cases x s <;> rfl

@[simp] theorem pure_apply (a : α) (s : σ) : (pure a : EStateM ε σ α) s = .ok a s := rfl

@[simp] theorem throw_apply (e : ε) (s : σ) : (throw e : EStateM ε σ α) s = .error e s := rfl

@[simp] theorem get_apply (s : σ) : (get : EStateM ε σ σ) s = .ok s s := rfl

@[simp] theorem modify_apply (f : σ → σ) (s : σ) : (modify f : EStateM ε σ PUnit) s = .ok ⟨⟩ (f s) := rfl

@[simp] theorem ofExcept_apply (x : Except ε α) (s : σ) : (ofExcept x : EStateM ε σ α) s = match x with
    | .ok a => .ok a s
    | .error e => .error e s := by
  cases x <;> rfl

/-- A step that keeps the state came through if what follows it did. -/
theorem ofExcept_bind_ok {x : Except ε α} {f : α → EStateM ε σ β} {s s' : σ} {b : β}
    (h : (ofExcept x >>= f : EStateM ε σ β) s = .ok b s') : ∃ a, x = .ok a ∧ f a s = .ok b s' := by
  rw [bind_apply, ofExcept_apply] at h
  cases x with
  | error e => cases h
  | ok a => exact ⟨a, rfl, h⟩

theorem run'_of_ok {x : EStateM ε σ α} {s s' : σ} {a : α} (h : x s = .ok a s') : x.run' s = .some a := by
  delta EStateM.run' EStateM.run
  rw [h]

/-! ## Loops no turn of which raises -/

theorem findM?_ok {l : List α} {f : α → Except ε Bool} {p : α → Bool} (h : ∀ a ∈ l, f a = .ok (p a)) :
    l.findM? f = .ok (l.find? p) := by
  induction l with
  | nil => rfl
  | cons a l ih =>
    simp only [List.mem_cons, forall_eq_or_imp] at h
    cases hp : p a with
    | true => simp [List.findM?, List.find?, h.1, hp]
    | false => simp [List.findM?, List.find?, h.1, hp, ih h.2]

theorem anyM_ok {l : List α} {f : α → Except ε Bool} {p : α → Bool} (h : ∀ a ∈ l, f a = .ok (p a)) :
    l.anyM f = .ok (l.any p) := by
  induction l with
  | nil => rfl
  | cons a l ih =>
    simp only [List.mem_cons, forall_eq_or_imp] at h
    cases hp : p a with
    | true => simp [List.anyM, List.any, h.1, hp]
    | false => simp [List.anyM, List.any, h.1, hp, ih h.2]

theorem mapM_ok {l : List α} {f : α → Except ε β} {g : α → β} (h : ∀ a ∈ l, f a = .ok (g a)) :
    l.mapM f = .ok (l.map g) := by
  induction l with
  | nil => rfl
  | cons a l ih =>
    simp only [List.mem_cons, forall_eq_or_imp] at h
    simp [List.mapM_cons, h.1, ih h.2]

theorem filterM_ok {l : List α} {f : α → Except ε Bool} {p : α → Bool} (h : ∀ a ∈ l, f a = .ok (p a)) :
    l.filterM f = .ok (l.filter p) := by
  suffices haux : ∀ acc, l.filterAuxM f acc = .ok ((l.filter p).reverse ++ acc) by
    simp [List.filterM, haux]
  induction l with
  | nil => exact fun _ => rfl
  | cons a l ih =>
    intro acc
    simp only [List.mem_cons, forall_eq_or_imp] at h
    cases hp : p a with
    | true => simp [List.filterAuxM, h.1, hp, ih h.2]
    | false => simp [List.filterAuxM, h.1, hp, ih h.2]

theorem exists_mapM_ok {l : List α} {f : α → Except ε β} :
    (∃ l', l.mapM f = .ok l') ↔ ∀ a ∈ l, ∃ b, f a = .ok b := by
  induction l with
  | nil => simp
  | cons a l ih =>
    simp only [List.mapM_cons, bind_eq_ok, pure_eq_ok, List.mem_cons, forall_eq_or_imp, ← ih]
    constructor
    · intro hmap
      obtain ⟨_, b, hb, bs, hbs, -⟩ := hmap
      exact ⟨⟨b, hb⟩, bs, hbs⟩
    · intro hall
      obtain ⟨⟨b, hb⟩, bs, hbs⟩ := hall
      exact ⟨_, b, hb, bs, hbs, rfl⟩

theorem exists_of_mem_mapM {l : List α} {f : α → Except ε β} {l' : List β} (h : l.mapM f = .ok l') {b : β}
    (hb : b ∈ l') : ∃ a ∈ l, f a = .ok b := by
  induction l generalizing l' with
  | nil =>
    obtain rfl : [] = l' := Except.ok.inj h
    simp at hb
  | cons a l ih =>
    simp only [List.mapM_cons, bind_eq_ok, pure_eq_ok] at h
    obtain ⟨c, hc, bs, hbs, hl'⟩ := h
    obtain rfl : c :: bs = l' := Except.ok.inj hl'
    rcases List.mem_cons.1 hb with rfl | hb
    · exact ⟨a, by simp, hc⟩
    · obtain ⟨x, hx, hfx⟩ := ih hbs hb
      exact ⟨x, by simp [hx], hfx⟩

theorem length_of_mapM {l : List α} {f : α → Except ε β} {l' : List β} (h : l.mapM f = .ok l') :
    l'.length = l.length := by
  induction l generalizing l' with
  | nil =>
    obtain rfl : [] = l' := Except.ok.inj h
    rfl
  | cons a l ih =>
    simp only [List.mapM_cons, bind_eq_ok, pure_eq_ok] at h
    obtain ⟨b, -, bs, hbs, hl'⟩ := h
    obtain rfl : b :: bs = l' := Except.ok.inj hl'
    simp [ih hbs]

theorem foldlM_ok {l : List α} {f : β → α → Except ε β} {g : β → α → β} (h : ∀ b, ∀ a ∈ l, f b a = .ok (g b a))
    (b : β) : l.foldlM f b = .ok (l.foldl g b) := by
  induction l generalizing b with
  | nil => rfl
  | cons a l ih => simp [List.foldlM_cons, h, ih fun b a ha => h b a (by simp [ha])]

end Blitzwing
