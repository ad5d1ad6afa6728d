/-
# Theory.Simulation -- two machines with the same outputs, under a clock

A machine answers each call with an output and a new state.  Calls carry the time
at which they are made, and times do not go back.

`TimedSimulation` relates an implementation to a reference.  The relation may hold
at a time only: what it says may become weaker as the clock goes on (`later`), so
that the implementation may still keep what the reference has already lost.  Each
call that meets the side condition gives the same output on both sides and keeps
the relation at its own time.  Then the outputs of whole sequences are the same.

`StrictSimulation` is for calls at different times, where the relation may speak of
what happened before.
-/
import ZetDb.Theory.Runs
import Mathlib.Order.Basic

namespace ZetDb.Theory.Simulation

set_option autoImplicit false

open ZetDb.Theory.Runs (Along)

section Machines

variable {σ ρ ℓ ο τ : Type}

/-- The outputs of a sequence of calls. -/
def outputs (step : σ → ℓ → ο × σ) : σ → List ℓ → List ο
  | _, [] => []
  | s, l :: ls => (step s l).1 :: outputs step (step s l).2 ls

/-- The states alone, as a system of `Theory.Runs`. -/
def moves (step : σ → ℓ → ο × σ) (s : σ) (l : ℓ) : Option σ := some (step s l).2

variable [Preorder τ] (time : ℓ → τ)

structure TimedSimulation (step : σ → ℓ → ο × σ) (reference : ρ → ℓ → ο × ρ) (P : ρ → ℓ → Prop)
    (R : τ → σ → ρ → Prop) : Prop where
  later : ∀ {now t s r}, now ≤ t → R now s r → R t s r
  call : ∀ {s r l}, R (time l) s r → P r l →
    (step s l).1 = (reference r l).1 ∧ R (time l) (step s l).2 (reference r l).2

variable {time}

theorem TimedSimulation.outputs_eq {step : σ → ℓ → ο × σ} {reference : ρ → ℓ → ο × ρ}
    {P : ρ → ℓ → Prop} {R : τ → σ → ρ → Prop} (sim : TimedSimulation time step reference P R)
    {now : τ} {s : σ} {r : ρ} {ls : List ℓ} (related : R now s r)
    (start : ∀ l ∈ ls, now ≤ time l) (ordered : ls.Pairwise fun a b => time a ≤ time b)
    (along : Along (moves reference) P r ls) : outputs step s ls = outputs reference r ls := by
  induction ls generalizing now s r with
  | nil => rfl
  | cons l ls ih =>
      obtain ⟨first, rest⟩ := List.pairwise_cons.1 ordered
      have here := sim.later (start l (by simp)) related
      obtain ⟨same, next⟩ := sim.call here along.1
      rw [outputs, outputs, same, ih next first rest (along.2 _ rfl)]

/-! ## A clock that moves at every call -/

/-- A relation that speaks of all that happened up to a time, and calls behind it. -/
structure StrictSimulation (time : ℓ → τ) (step : σ → ℓ → ο × σ) (reference : ρ → ℓ → ο × ρ)
    (P : ρ → ℓ → Prop) (R : τ → σ → ρ → Prop) : Prop where
  call : ∀ {now s r l}, R now s r → now < time l → P r l →
    (step s l).1 = (reference r l).1 ∧ R (time l) (step s l).2 (reference r l).2

theorem StrictSimulation.outputs_eq {step : σ → ℓ → ο × σ} {reference : ρ → ℓ → ο × ρ}
    {P : ρ → ℓ → Prop} {R : τ → σ → ρ → Prop} (sim : StrictSimulation time step reference P R)
    {now : τ} {s : σ} {r : ρ} {ls : List ℓ} (related : R now s r)
    (start : ∀ l ∈ ls, now < time l) (ordered : ls.Pairwise fun a b => time a < time b)
    (along : Along (moves reference) P r ls) : outputs step s ls = outputs reference r ls := by
  induction ls generalizing now s r with
  | nil => rfl
  | cons l ls ih =>
      obtain ⟨first, rest⟩ := List.pairwise_cons.1 ordered
      obtain ⟨same, next⟩ := sim.call related (start l List.mem_cons_self) along.1
      rw [outputs, outputs, same, ih next first rest (along.2 _ rfl)]

end Machines

end ZetDb.Theory.Simulation
