/-
Chains of layers, run forward and differentiated in reverse.

A layer takes its input in (which may fail), maps it forward, and pulls a
gradient at its output back to one at its input, given what it took in. The
gradient at its input also gives the one of its own parameters.

`reverse` differentiates a chain by recursion; `sweep` does it as programs do,
from a tape of what each layer took in, the last layer first. A chain may be
cut anywhere: `chain_append`, `reverse_append`.
-/
import Mathlib.Data.List.Basic

namespace Blitzwing

universe u v w

structure Layer (X : Type u) (G : Type v) (Q : Type w) where
  enter : X → Option X
  forward : X → X
  backward : X → G → G
  param : G → Q

namespace Layer

variable {X : Type u} {G : Type v} {Q : Type w}

/-- The output of a chain. -/
def chain : List (Layer X G Q) → X → Option X
  | [], x => .some x
  | l :: ls, x => (l.enter x).bind fun h => chain ls (l.forward h)

/-- The gradient at a chain's input, and those of its parameters. -/
def reverse : List (Layer X G Q) → X → G → Option (G × List Q)
  | [], _, g => .some (g, [])
  | l :: ls, x, g => (l.enter x).bind fun h =>
      (reverse ls (l.forward h) g).map fun after =>
        (l.backward h after.1, l.param (l.backward h after.1) :: after.2)

/-- What each layer took in. The last layer is not run. -/
def tape : List (Layer X G Q) → X → Option (List X)
  | [], _ => .some []
  | [l], x => (l.enter x).map fun h => [h]
  | l :: l' :: ls, x => (l.enter x).bind fun h => (tape (l' :: ls) (l.forward h)).map (h :: ·)

/-- The layers in reverse, each at what it took in. -/
def sweep (ls : List (Layer X G Q)) (inputs : List X) (g : G) : G × List Q :=
  (inputs.zip ls).reverse.foldl
    (fun done hl => (hl.2.backward hl.1 done.1, hl.2.param (hl.2.backward hl.1 done.1) :: done.2)) (g, [])

theorem chain_append (ls ls' : List (Layer X G Q)) (x : X) :
    chain (ls ++ ls') x = (chain ls x).bind (chain ls') := by
  induction ls generalizing x with
  | nil => rfl
  | cons l ls ih => simp only [List.cons_append, chain, ih, Option.bind_assoc]

/-- The last layers first, at the output of the first ones. -/
theorem reverse_append (ls ls' : List (Layer X G Q)) (x : X) (g : G) :
    reverse (ls ++ ls') x g = (chain ls x).bind fun y => (reverse ls' y g).bind fun after =>
      (reverse ls x after.1).map fun before => (before.1, before.2 ++ after.2) := by
  induction ls generalizing x with
  | nil =>
    simp only [List.nil_append, chain, reverse, Option.bind_some, Option.map_some]
    cases reverse ls' x g <;> rfl
  | cons l ls ih =>
    simp only [List.cons_append, chain, reverse]
    cases l.enter x with
    | none => rfl
    | some h =>
      simp only [Option.bind_some, ih]
      cases chain ls (l.forward h) with
      | none => rfl
      | some y =>
        simp only [Option.bind_some]
        cases reverse ls' y g with
        | none => rfl
        | some after =>
          simp only [Option.bind_some, Option.map_map]
          rfl

theorem sweep_cons (l : Layer X G Q) (ls : List (Layer X G Q)) (h : X) (inputs : List X) (g : G) :
    sweep (l :: ls) (h :: inputs) g =
      (l.backward h (sweep ls inputs g).1,
        l.param (l.backward h (sweep ls inputs g).1) :: (sweep ls inputs g).2) := by
  simp only [sweep, List.zip_cons_cons, List.reverse_cons, List.foldl_append, List.foldl_cons, List.foldl_nil]

/-- **The sweep over the tape** is the derivative. -/
theorem reverse_eq_sweep (ls : List (Layer X G Q)) (x : X) (g : G) :
    reverse ls x g = (tape ls x).map fun inputs => sweep ls inputs g := by
  induction ls generalizing x with
  | nil => rfl
  | cons l ls ih =>
    cases ls with
    | nil =>
      simp only [reverse, tape]
      cases l.enter x <;> rfl
    | cons l' ls =>
      rw [reverse, tape]
      cases l.enter x with
      | none => rfl
      | some h =>
        simp only [Option.bind_some, ih, Option.map_map]
        refine congrArg (fun f => Option.map f _) (funext fun inputs => ?_)
        exact (sweep_cons l (l' :: ls) h inputs g).symm

end Layer

end Blitzwing
