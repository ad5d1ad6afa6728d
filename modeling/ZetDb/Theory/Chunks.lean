/-
# Theory.Chunks -- a machine that is fed piece by piece

A machine takes steps on its own until it has to wait; then more input is pushed
into it.  If pushed input never undoes a step that was possible without it
(`Incremental.stable`), then how the input is cut does not matter: feeding it in
two pieces, and letting the machine settle in between, leaves it where feeding it
at once does (`settle_push_append`).

`settle_congr` is for machines that keep bookkeeping which the steps do not look
at: states that look the same settle in states that look the same.
-/
import Mathlib.Logic.Relation

namespace ZetDb.Theory.Chunks

set_option autoImplicit false

section Settling

variable {σ ι : Type} (step : σ → Option σ) (size : σ → Nat)

/-- At most so many steps. -/
def rounds : Nat → σ → σ
  | 0, s => s
  | n + 1, s =>
      match step s with
      | some t => rounds n t
      | none => s

/-- Steps until the machine waits; each of them has to shrink the state. -/
def settle (s : σ) : σ := rounds step (size s + 1) s

/-- The steps shrink the state, and input that arrives later does not disturb them. -/
structure Incremental (push : σ → List ι → σ) : Prop where
  shrinks : ∀ {s t}, step s = some t → size t < size s
  push_push : ∀ s front back, push (push s front) back = push s (front ++ back)
  stable : ∀ {s t}, step s = some t → ∀ more, step (push s more) = some (push t more)

variable {step size}

theorem rounds_step {s t : σ} (taken : step s = some t) (n : Nat) :
    rounds step (n + 1) s = rounds step n t := by
  rw [rounds, taken]

theorem rounds_wait {s : σ} (waits : step s = none) (n : Nat) : rounds step n s = s := by
  cases n with
  | zero => rfl
  | succ n => rw [rounds, waits]

/-- Fuel above the size makes no difference. -/
theorem rounds_enough (shrinks : ∀ {s t}, step s = some t → size t < size s) (n m : Nat) (s : σ)
    (first : size s < n) (second : size s < m) : rounds step n s = rounds step m s := by
  induction n generalizing m s with
  | zero => omega
  | succ n ih =>
      obtain ⟨m, rfl⟩ : ∃ k, m = k + 1 := ⟨m - 1, by omega⟩
      cases taken : step s with
      | none => rw [rounds_wait taken, rounds_wait taken]
      | some t =>
          have smaller := shrinks taken
          rw [rounds_step taken, rounds_step taken]
          exact ih m t (by omega) (by omega)

theorem settle_step (shrinks : ∀ {s t}, step s = some t → size t < size s) {s t : σ}
    (taken : step s = some t) : settle step size s = settle step size t := by
  have smaller := shrinks taken
  rw [settle, rounds_step taken]
  exact rounds_enough shrinks _ _ t smaller (Nat.lt_succ_self _)

/-- The steps of the machine, any number of them. -/
def Reaches (step : σ → Option σ) : σ → σ → Prop := Relation.ReflTransGen fun s t => step s = some t

theorem Reaches.settle_eq (shrinks : ∀ {s t}, step s = some t → size t < size s) {s t : σ}
    (reaches : Reaches step s t) : settle step size s = settle step size t := by
  induction reaches with
  | refl => rfl
  | tail _ taken ih => rw [ih, settle_step shrinks taken]

theorem reaches_rounds (n : Nat) (s : σ) : Reaches step s (rounds step n s) := by
  induction n generalizing s with
  | zero => exact .refl
  | succ n ih =>
      cases taken : step s with
      | none =>
          rw [rounds_wait taken]
          exact .refl
      | some t =>
          rw [rounds_step taken]
          exact .head taken (ih t)

variable {push : σ → List ι → σ}

theorem Incremental.reaches_push (machine : Incremental step size push) {s t : σ}
    (reaches : Reaches step s t) (more : List ι) : Reaches step (push s more) (push t more) := by
  induction reaches with
  | refl => exact .refl
  | tail _ taken ih => exact .tail ih (machine.stable taken more)

/-- The machine may settle between two pieces of its input. -/
theorem Incremental.settle_push_append (machine : Incremental step size push) (s : σ)
    (front back : List ι) :
    settle step size (push s (front ++ back)) =
      settle step size (push (settle step size (push s front)) back) := by
  rw [← machine.push_push]
  exact (machine.reaches_push (reaches_rounds _ _) back).settle_eq machine.shrinks

end Settling

/-- States that look the same to the steps settle in states that look the same. -/
theorem rounds_congr {σ α : Type} {step : σ → Option σ} {view : σ → α}
    (respects : ∀ s t, view s = view t → (step s).map view = (step t).map view) (n : Nat) (s t : σ)
    (same : view s = view t) : view (rounds step n s) = view (rounds step n t) := by
  induction n generalizing s t with
  | zero => exact same
  | succ n ih =>
      have next := respects s t same
      cases first : step s with
      | none =>
          rw [first, Option.map_none] at next
          rw [rounds_wait first, rounds_wait (Option.map_eq_none_iff.1 next.symm)]
          exact same
      | some u =>
          rw [first, Option.map_some] at next
          obtain ⟨v, second, alike⟩ := Option.map_eq_some_iff.1 next.symm
          rw [rounds_step first, rounds_step second]
          exact ih u v alike.symm

theorem settle_congr {σ α : Type} {step : σ → Option σ} {size : σ → Nat} {view : σ → α}
    (respects : ∀ s t, view s = view t → (step s).map view = (step t).map view)
    (sizes : ∀ s t, view s = view t → size s = size t) {s t : σ} (same : view s = view t) :
    view (settle step size s) = view (settle step size t) := by
  rw [settle, settle, sizes s t same]
  exact rounds_congr respects _ s t same

end ZetDb.Theory.Chunks
