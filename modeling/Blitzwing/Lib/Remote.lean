/-
Programs that call servers over a network.

A `Remote` program ends with a value or an error, calls a server and goes on
with its answer, or notes something down. What a server answers, and when, is
left open, so one program can be run in two ways: `Servers.run` lets it run
alone, each call served at once, and `Servers.machine` lets anything happen to
the servers between its calls, and lets calls be lost.

`Meets R P Q` is about the program only: whatever answers `R` allows, it notes
only what `P` allows and ends as `Q` says. Servers whose answers `R` allows
then give a run that ends so (`Servers.run_of_meets`), and sessions that keep
so at every step (`Servers.reaches_meets`).
-/
import Blitzwing.Lib.Machine

namespace Blitzwing

/-- A program that ends with an `α` or an `ε`, calls servers with a `ρ` and is
answered with a `σ`, and notes down `ν`s. -/
inductive Remote (ρ σ ν ε α : Type)
  | done (r : Except ε α)
  | call (req : ρ) (k : σ → Remote ρ σ ν ε α)
  | note (n : ν) (k : Remote ρ σ ν ε α)

namespace Remote

variable {ρ σ ν ε α β : Type}

def bind : Remote ρ σ ν ε α → (α → Remote ρ σ ν ε β) → Remote ρ σ ν ε β
  | .done (.ok a), f => f a
  | .done (.error e), _ => .done (.error e)
  | .call req k, f => .call req fun s => (k s).bind f
  | .note n k, f => .note n (k.bind f)

instance : Monad (Remote ρ σ ν ε) where
  pure a := .done (.ok a)
  bind := Remote.bind

instance : MonadLift (Except ε) (Remote ρ σ ν ε) where
  monadLift := .done

/-- Call a server. -/
def ask (req : ρ) : Remote ρ σ ν ε σ := .call req pure

/-- Note something down. -/
def jot (n : ν) : Remote ρ σ ν ε Unit := .note n (pure ())

@[simp] theorem done_ok_bind (a : α) (f : α → Remote ρ σ ν ε β) : (Remote.done (.ok a) >>= f) = f a := rfl

@[simp] theorem done_error_bind (e : ε) (f : α → Remote ρ σ ν ε β) :
    ((Remote.done (.error e) : Remote ρ σ ν ε α) >>= f) = .done (.error e) := rfl

@[simp] theorem call_bind (req : ρ) (k : σ → Remote ρ σ ν ε α) (f : α → Remote ρ σ ν ε β) :
    (Remote.call req k >>= f) = .call req fun s => k s >>= f := rfl

@[simp] theorem note_bind (n : ν) (k : Remote ρ σ ν ε α) (f : α → Remote ρ σ ν ε β) :
    (Remote.note n k >>= f) = .note n (k >>= f) := rfl

@[simp] theorem pure_bind (a : α) (f : α → Remote ρ σ ν ε β) : ((pure a : Remote ρ σ ν ε α) >>= f) = f a := rfl

@[simp] theorem liftM_ok_bind (a : α) (f : α → Remote ρ σ ν ε β) :
    ((liftM (Except.ok a : Except ε α) : Remote ρ σ ν ε α) >>= f) = f a := rfl

@[simp] theorem liftM_error_bind (e : ε) (f : α → Remote ρ σ ν ε β) :
    ((liftM (Except.error e : Except ε α) : Remote ρ σ ν ε α) >>= f) = .done (.error e) := rfl

@[simp] theorem jot_bind (n : ν) (f : Unit → Remote ρ σ ν ε β) :
    ((jot n : Remote ρ σ ν ε Unit) >>= f) = .note n (f ()) := rfl

/-! ## What a program does, whatever the answers -/

section

variable (R : ρ → σ → Prop) (P : ν → Prop)

/-- Whatever the answers, of those `R` allows, the program notes only what `P`
allows and ends as `Q` says. -/
def Meets (Q : Except ε α → Prop) : Remote ρ σ ν ε α → Prop
  | .done r => Q r
  | .call req k => ∀ s, R req s → (k s).Meets Q
  | .note n k => P n ∧ k.Meets Q

variable {R P} {Q : Except ε α → Prop} {Q' : Except ε β → Prop}

theorem Meets.bind {x : Remote ρ σ ν ε α} {f : α → Remote ρ σ ν ε β} (h : x.Meets R P Q)
    (hok : ∀ a, Q (.ok a) → (f a).Meets R P Q') (herror : ∀ e, Q (.error e) → Q' (.error e)) :
    (x >>= f).Meets R P Q' := by
  induction x with
  | done r =>
    cases r with
    | ok a => exact hok a h
    | error e => exact herror e h
  | call req k ih => exact fun s hs => ih s (h s hs)
  | note n k ih => exact ⟨h.1, ih h.2⟩

theorem Meets.imp {P' : ν → Prop} {Q' : Except ε α → Prop} {x : Remote ρ σ ν ε α} (h : x.Meets R P Q)
    (hnote : ∀ n, P n → P' n) (hdone : ∀ r, Q r → Q' r) : x.Meets R P' Q' := by
  induction x with
  | done r => exact hdone r h
  | call req k ih => exact fun s hs => ih s (h s hs)
  | note n k ih => exact ⟨hnote n h.1, ih h.2⟩

theorem Meets.foldlM {l : List β} {f : α → β → Remote ρ σ ν ε α} {I : α → Prop}
    (hstep : ∀ a, I a → ∀ b ∈ l, (f a b).Meets R P fun r => ∀ a, r = .ok a → I a) {a : α} (ha : I a) :
    (l.foldlM f a).Meets R P fun r => ∀ a, r = .ok a → I a := by
  induction l generalizing a with
  | nil =>
    intro a' ha'
    exact Except.ok.inj ha' ▸ ha
  | cons b l ih =>
    rw [List.foldlM_cons]
    refine (hstep a ha b List.mem_cons_self).bind (fun a' ha' => ?_) fun e _ a' ha' => nomatch ha'
    exact ih (fun a ha b hb => hstep a ha b (List.mem_cons_of_mem _ hb)) (ha' a' rfl)

/-- A step that calls no server, before the rest. -/
theorem Meets.done_bind {r : Except ε α} {f : α → Remote ρ σ ν ε β} (hok : ∀ a, r = .ok a → (f a).Meets R P Q')
    (herror : ∀ e, r = .error e → Q' (.error e)) : (Remote.done r >>= f).Meets R P Q' := by
  cases r with
  | ok a => exact hok a rfl
  | error e => exact herror e rfl

end

end Remote

/-! ## Servers -/

/-- Servers in a state `ω`: a call is refused at once or let in, and served later. -/
structure Servers (ω ρ σ : Type) where
  accept : ω → ρ → Option σ
  serve : ω → ρ → σ × ω

/-- How a run ended: the result, what it noted, and the servers it left. -/
structure Outcome (ω ν ε α : Type) where
  result : Except ε α
  notes : List ν
  world : ω

namespace Servers

variable {ω ρ σ ν ε α β : Type} (servers : Servers ω ρ σ)

/-- Run a program alone: each of its calls is served at once. -/
def run (w : ω) : Remote ρ σ ν ε α → Outcome ω ν ε α
  | .done r => ⟨r, [], w⟩
  | .call req k =>
    match servers.accept w req with
    | .some s => run w (k s)
    | .none =>
      let (s, w') := servers.serve w req
      run w' (k s)
  | .note n k =>
    let out := run w k
    { out with notes := n :: out.notes }

@[simp] theorem run_done (r : Except ε α) (w : ω) : servers.run w (.done r : Remote ρ σ ν ε α) = ⟨r, [], w⟩ := rfl

@[simp] theorem run_pure (a : α) (w : ω) : servers.run w (pure a : Remote ρ σ ν ε α) = ⟨.ok a, [], w⟩ := rfl

@[simp] theorem run_note (n : ν) (k : Remote ρ σ ν ε α) (w : ω) : servers.run w (.note n k) =
    ⟨(servers.run w k).result, n :: (servers.run w k).notes, (servers.run w k).world⟩ := rfl

/-- An invariant of the servers under which every answer is one `R` allows. -/
structure Keeps (servers : Servers ω ρ σ) (I : ω → Prop) (R : ρ → σ → Prop) : Prop where
  accept : ∀ {w req s}, I w → servers.accept w req = .some s → R req s
  serve : ∀ {w req}, I w → servers.accept w req = .none → R req (servers.serve w req).1 ∧ I (servers.serve w req).2

variable {servers} {I : ω → Prop} {R : ρ → σ → Prop} {P : ν → Prop} {Q : Except ε α → Prop}

theorem run_of_meets {x : Remote ρ σ ν ε α} (hx : x.Meets R P Q) (hk : servers.Keeps I R) {w : ω} (hw : I w) :
    Q (servers.run w x).result ∧ (∀ n ∈ (servers.run w x).notes, P n) ∧ I (servers.run w x).world := by
  induction x generalizing w with
  | done r => exact ⟨hx, by simp [run], hw⟩
  | call req k ih =>
    simp only [run]
    cases haccept : servers.accept w req with
    | some s => exact ih s (hx s (hk.accept hw haccept)) hw
    | none =>
      obtain ⟨hr, hw'⟩ := hk.serve hw haccept
      exact ih _ (hx _ hr) hw'
  | note n k ih =>
    obtain ⟨hq, hn, hw'⟩ := ih hx.2 hw
    refine ⟨hq, fun n' hn' => ?_, hw'⟩
    rcases List.mem_cons.1 hn' with rfl | hn'
    · exact hx.1
    · exact hn n' hn'

/-- The rest of a run, after its first part. -/
def Outcome.andThen (servers : Servers ω ρ σ) (out : Outcome ω ν ε α) (f : α → Remote ρ σ ν ε β) : Outcome ω ν ε β :=
  match out.result with
  | .ok a =>
    let rest := servers.run out.world (f a)
    { rest with notes := out.notes ++ rest.notes }
  | .error e => ⟨.error e, out.notes, out.world⟩

theorem run_bind (x : Remote ρ σ ν ε α) (f : α → Remote ρ σ ν ε β) (w : ω) :
    servers.run w (x >>= f) = Outcome.andThen servers (servers.run w x) f := by
  induction x generalizing w with
  | done r => cases r <;> simp [run, Outcome.andThen]
  | call req k ih =>
    simp only [Remote.call_bind, run]
    cases servers.accept w req with
    | some s => exact ih s w
    | none => exact ih _ _
  | note n k ih =>
    simp only [Remote.note_bind, run, ih, Outcome.andThen]
    cases (servers.run w k).result <;> rfl

/-- A run of two parts that ends with a value: the first part does, and the rest after it. -/
theorem run_bind_ok {x : Remote ρ σ ν ε α} {f : α → Remote ρ σ ν ε β} {w : ω} {b : β}
    (h : (servers.run w (x >>= f)).result = .ok b) : ∃ a, (servers.run w x).result = .ok a ∧
      (servers.run (servers.run w x).world (f a)).result = .ok b ∧
      (servers.run w (x >>= f)).notes = (servers.run w x).notes ++ (servers.run (servers.run w x).world (f a)).notes := by
  rw [run_bind] at h ⊢
  unfold Outcome.andThen at h ⊢
  cases hx : (servers.run w x).result with
  | ok a =>
    simp only [hx] at h
    exact ⟨a, rfl, h, rfl⟩
  | error e =>
    simp only [hx] at h
    cases h

/-- A program that notes nothing down, whatever it is answered. -/
theorem notes_of_silent {x : Remote ρ σ ν ε α} (h : x.Meets (fun _ _ => True) (fun _ => False) fun _ => True) (w : ω) :
    (servers.run w x).notes = [] := by
  have hkeeps : servers.Keeps (fun _ => True) fun _ _ => True :=
    { accept := fun _ _ => trivial, serve := fun _ _ => ⟨trivial, trivial⟩ }
  exact List.eq_nil_iff_forall_not_mem.2 (run_of_meets h hkeeps trivial).2.1

end Servers

/-! ## A program among other things that happen to the servers -/

/-- A program in progress; `accepted` while its call waits to be served. -/
structure Session (ω ρ σ ν ε α : Type) where
  world : ω
  program : Remote ρ σ ν ε α
  accepted : Bool := false
  notes : List ν := []

/-- What happens next: something to the servers, or a step of the program. A
call is let in or refused, then served, or it is lost. -/
inductive SessionAction (χ ι : Type)
  | outside (x : χ)
  | accept
  | serve
  | lose (i : ι)
  | note
deriving DecidableEq, Repr

namespace Servers

variable {ω ρ σ ν ε α χ ι : Type}

/-- `outside` is what else can happen to the servers, `lost` how a lost call is answered. -/
def sessionStep (servers : Servers ω ρ σ) (outside : ω → χ → Option ω) (lost : ι → σ) (s : Session ω ρ σ ν ε α) :
    SessionAction χ ι → Option (Session ω ρ σ ν ε α)
  | .outside x => (outside s.world x).map fun w => { s with world := w }
  | .accept =>
    match s.program, s.accepted with
    | .call req k, false =>
      match servers.accept s.world req with
      | .some a => .some { s with program := k a }
      | .none => .some { s with accepted := true }
    | _, _ => .none
  | .serve =>
    match s.program, s.accepted with
    | .call req k, true =>
      let (a, w) := servers.serve s.world req
      .some { s with world := w, program := k a, accepted := false }
    | _, _ => .none
  | .lose i =>
    match s.program with
    | .call _ k => .some { s with program := k (lost i), accepted := false }
    | _ => .none
  | .note =>
    match s.program with
    | .note n k => .some { s with program := k, notes := s.notes ++ [n] }
    | _ => .none

/-- A session of a program that may be interrupted at every step. -/
def machine (servers : Servers ω ρ σ) (outside : ω → χ → Option ω) (lost : ι → σ) :
    Machine (Session ω ρ σ ν ε α) (SessionAction χ ι) where
  step := sessionStep servers outside lost

variable {servers : Servers ω ρ σ} {outside : ω → χ → Option ω} {lost : ι → σ} {R : ρ → σ → Prop} {P : ν → Prop}
  {Q : Except ε α → Prop} {ok : Session ω ρ σ ν ε α → SessionAction χ ι → Prop}

section

variable {s s' : Session ω ρ σ ν ε α}

theorem accept_cases (h : sessionStep servers outside lost s .accept = .some s') : ∃ req k, s.program = .call req k ∧
    ((∃ a, servers.accept s.world req = .some a ∧ s' = { s with program := k a }) ∨
      s' = { s with accepted := true }) := by
  simp only [sessionStep] at h
  split at h
  · next req k hcall _ =>
    refine ⟨req, k, hcall, ?_⟩
    split at h
    · next a ha => exact .inl ⟨a, ha, (Option.some.inj h).symm⟩
    · exact .inr (Option.some.inj h).symm
  · simp at h

theorem serve_cases (h : sessionStep servers outside lost s .serve = .some s') : ∃ req k, s.program = .call req k ∧
    s' = { s with world := (servers.serve s.world req).2, program := k (servers.serve s.world req).1,
                  accepted := false } := by
  simp only [sessionStep] at h
  split at h
  · next req k hcall _ => exact ⟨req, k, hcall, (Option.some.inj h).symm⟩
  · simp at h

theorem lose_cases {i : ι} (h : sessionStep servers outside lost s (.lose i) = .some s') :
    ∃ req k, s.program = .call req k ∧ s' = { s with program := k (lost i), accepted := false } := by
  simp only [sessionStep] at h
  split at h
  · next req k hcall => exact ⟨req, k, hcall, (Option.some.inj h).symm⟩
  · simp at h

theorem note_cases (h : sessionStep servers outside lost s .note = .some s') :
    ∃ n k, s.program = .note n k ∧ s' = { s with program := k, notes := s.notes ++ [n] } := by
  simp only [sessionStep] at h
  split at h
  · next n k hnote => exact ⟨n, k, hnote, (Option.some.inj h).symm⟩
  · simp at h

end

/-- The call a session waits for. -/
def Session.waitsFor (s : Session ω ρ σ ν ε α) : Option ρ :=
  match s.program with
  | .call req _ => .some req
  | _ => .none

/-- **Sessions.** If refusals and losses are answers `R` allows, and so is each
answer served, then a session notes only what its program may note. -/
theorem reaches_meets {s t : Session ω ρ σ ν ε α} (h : (servers.machine outside lost).Reaches ok s t)
    (haccept : ∀ {w req a}, servers.accept w req = .some a → R req a) (hlost : ∀ req i, R req (lost i))
    (hserve : ∀ {s : Session ω ρ σ ν ε α} {req}, ok s .serve → Session.waitsFor s = .some req →
      R req (servers.serve s.world req).1)
    (hs : s.program.Meets R P Q) (hn : ∀ n ∈ s.notes, P n) :
    t.program.Meets R P Q ∧ ∀ n ∈ t.notes, P n := by
  refine h.invariant (I := fun t => t.program.Meets R P Q ∧ ∀ n ∈ t.notes, P n) ⟨hs, hn⟩ ?_
  intro s a s' hI hok hstep
  obtain ⟨hp, hnotes⟩ := hI
  replace hstep : sessionStep servers outside lost s a = .some s' := hstep
  cases a with
  | outside x =>
    obtain ⟨w, -, rfl⟩ := Option.map_eq_some_iff.1 hstep
    exact ⟨hp, hnotes⟩
  | accept =>
    obtain ⟨req, k, hcall, hs'⟩ := accept_cases hstep
    rw [hcall] at hp
    rcases hs' with ⟨a, ha, rfl⟩ | rfl
    · exact ⟨hp a (haccept ha), hnotes⟩
    · exact ⟨by rw [← hcall] at hp; exact hp, hnotes⟩
  | serve =>
    obtain ⟨req, k, hcall, rfl⟩ := serve_cases hstep
    have hr := hserve hok (show Session.waitsFor s = .some req by simp [Session.waitsFor, hcall])
    rw [hcall] at hp
    exact ⟨hp _ hr, hnotes⟩
  | lose i =>
    obtain ⟨req, k, hcall, rfl⟩ := lose_cases hstep
    rw [hcall] at hp
    exact ⟨hp _ (hlost req i), hnotes⟩
  | note =>
    obtain ⟨n, k, hnote, rfl⟩ := note_cases hstep
    rw [hnote] at hp
    refine ⟨hp.2, fun n' hn' => ?_⟩
    rcases List.mem_append.1 hn' with hn' | hn'
    · exact hnotes n' hn'
    · obtain rfl := List.mem_singleton.1 hn'
      exact hp.1

end Servers

end Blitzwing
