/-
# Theory.Replay -- operations replayed on a state

A log is a list of operations and replaying it is a fold.  Two facts about such
folds carry the recovery arguments.

* Order: an operation that commutes with the ones before it may be replayed
  before them (`run_move_front`).  A log whose entries were written late agrees
  with the execution as long as only commuting operations overtook each other.
* Repetition, for states that are maps changed key by key: once an operation
  resets a key, what the key held before the log does not matter
  (`run_of_reset`); a key changed only by one function `f` is iterated on
  (`run_iterate`).
-/
import Mathlib.Logic.Function.Iterate
import Mathlib.Data.List.Basic

namespace ZetDb.Theory.Replay

set_option autoImplicit false

/-! ## Order -/

section Order

variable {σ α : Type} (step : σ → α → σ)

/-- The state after a list of operations. -/
def run (s : σ) (as : List α) : σ := as.foldl step s

@[simp] theorem run_nil (s : σ) : run step s [] = s := rfl

@[simp] theorem run_cons (s : σ) (a : α) (as : List α) :
    run step s (a :: as) = run step (step s a) as := rfl

theorem run_append (s : σ) (as bs : List α) :
    run step s (as ++ bs) = run step (run step s as) bs := List.foldl_append

/-- Either order of the two operations leaves the same state. -/
def Swaps (a b : α) : Prop := ∀ s, step (step s a) b = step (step s b) a

/-- An operation that commutes with the ones before it may go first. -/
theorem run_move_front {a : α} {before after : List α} (swaps : ∀ b ∈ before, Swaps step b a)
    (s : σ) : run step s (before ++ a :: after) = run step (step s a) (before ++ after) := by
  induction before generalizing s with
  | nil => rfl
  | cons b before ih =>
      rw [List.cons_append, run_cons, ih (fun c inside => swaps c (by simp [inside])),
        swaps b (by simp), List.cons_append, run_cons]

end Order

/-! ## Maps changed key by key -/

section Keyed

variable {κ α β : Type} (act : α → κ → β → β)

/-- The map after an operation: every cell is changed on its own. -/
def apply (s : κ → β) (a : α) : κ → β := fun k => act a k (s k)

theorem run_apply (s : κ → β) (as : List α) (k : κ) :
    run (apply act) s as k = as.foldl (fun x a => act a k x) (s k) := by
  induction as generalizing s with
  | nil => rfl
  | cons a as ih => rw [run_cons, ih, List.foldl_cons, apply]

/-- The outcome at a key depends on the start at that key only. -/
theorem run_congr_at {s t : κ → β} {k : κ} (same : s k = t k) (as : List α) :
    run (apply act) s as k = run (apply act) t as k := by
  rw [run_apply, run_apply, same]

/-- What the cell at `k` held before the operation does not matter. -/
def Resets (a : α) (k : κ) : Prop := ∀ x y, act a k x = act a k y

/-- A reset somewhere in the log makes the outcome independent of the start. -/
theorem run_of_reset {as : List α} {k : κ} (reset : ∃ a ∈ as, Resets act a k) (s t : κ → β) :
    run (apply act) s as k = run (apply act) t as k := by
  obtain ⟨a, inside, resets⟩ := reset
  obtain ⟨before, after, rfl⟩ := List.append_of_mem inside
  simp only [run_apply, List.foldl_append, List.foldl_cons]
  rw [resets]

/-- A key that is left alone, or changed by `f`, is iterated on. -/
theorem run_iterate {as : List α} {k : κ} {f : β → β} (hits : α → Bool)
    (hit : ∀ a ∈ as, hits a = true → act a k = f) (miss : ∀ a ∈ as, hits a = false → act a k = id)
    (s : κ → β) : run (apply act) s as k = f^[as.countP hits] (s k) := by
  induction as generalizing s with
  | nil => rfl
  | cons a as ih =>
      rw [run_cons, ih (fun b inside => hit b (by simp [inside])) (fun b inside => miss b (by simp [inside]))]
      cases here : hits a with
      | true =>
          rw [List.countP_cons_of_pos here, Function.iterate_succ_apply, apply, hit a (by simp) here]
      | false =>
          rw [List.countP_cons_of_neg (by simp [here]), apply, miss a (by simp) here, id]

end Keyed

end ZetDb.Theory.Replay
