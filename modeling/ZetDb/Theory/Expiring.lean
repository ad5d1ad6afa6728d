/-
# Theory.Expiring -- maps whose entries vanish at their expiry

A key is bound to a value and, possibly, an instant from which on the binding
counts as absent.  `present m now` is what the map holds at `now`; it is the only
thing a client can see.
-/
import Mathlib.Data.Set.Basic
import Mathlib.Logic.Function.Basic
import Mathlib.Order.Defs.LinearOrder

namespace ZetDb.Theory.Expiring

set_option autoImplicit false

variable {κ α τ : Type} [LinearOrder τ]

/-- Without an expiry for ever, otherwise before it. -/
def alive (now : τ) : Option τ → Bool
  | none => true
  | some expiry => decide (now < expiry)

/-- A value with an optional expiry for some of the keys. -/
structure ExpiringMap (κ α τ : Type) where
  items : κ → Option (α × Option τ)

namespace ExpiringMap

def empty : ExpiringMap κ α τ := ⟨fun _ => none⟩

/-- What the map holds at this time. -/
def present (m : ExpiringMap κ α τ) (now : τ) (key : κ) : Option (α × Option τ) :=
  (m.items key).filter fun item => alive now item.2

/-- The keys that are bound at this time. -/
def keysAt (m : ExpiringMap κ α τ) (now : τ) : Set κ := { key | (m.present now key).isSome = true }

/-- Bind or unbind one key. -/
def write [DecidableEq κ] (m : ExpiringMap κ α τ) (key : κ) (item : Option (α × Option τ)) :
    ExpiringMap κ α τ := ⟨Function.update m.items key item⟩

end ExpiringMap

open ExpiringMap

@[simp] theorem present_empty (now : τ) (key : κ) :
    (empty : ExpiringMap κ α τ).present now key = none := rfl

theorem present_write [DecidableEq κ] (m : ExpiringMap κ α τ) (key : κ) (item : Option (α × Option τ))
    (now : τ) (other : κ) :
    (m.write key item).present now other =
      if other = key then item.filter fun item => alive now item.2 else m.present now other := by
  simp only [present, write]
  by_cases same : other = key
  · rw [if_pos same, same, Function.update_self]
  · rw [if_neg same, Function.update_of_ne same]

/-- What has expired stays so. -/
theorem alive_later {now later : τ} (forward : now ≤ later) {expiry : Option τ}
    (still : alive later expiry = true) : alive now expiry = true := by
  cases expiry with
  | none => rfl
  | some e =>
      simp only [alive, decide_eq_true_eq] at still ⊢
      exact lt_of_le_of_lt forward still

/-- What a map holds later is decided by what it holds now. -/
theorem present_later (m : ExpiringMap κ α τ) {now later : τ} (forward : now ≤ later) (key : κ) :
    m.present later key = (m.present now key).filter fun item => alive later item.2 := by
  have both : ∀ item : α × Option τ, alive later item.2 = (alive now item.2 && alive later item.2) := by
    intro item
    cases still : alive later item.2 with
    | false => rw [Bool.and_false]
    | true => rw [alive_later forward still, Bool.true_and]
  rw [present, present, Option.filter_filter]
  exact congrArg (Option.filter · (m.items key)) (funext both)

end ZetDb.Theory.Expiring
