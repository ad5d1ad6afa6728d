/-
# Theory.Guards -- programs that hold read and write guards

A program here is a state transformer that also says which guards it takes and
drops, in order.  The locks are not reentrant: a program that takes a guard while
it holds a conflicting one of its own (`Blocks`) waits for itself.

`Passes before p s after` is the triple for guards: run at `s` with the guards
`before` held, `p` never waits for itself and leaves `after` held.  There is one rule
for each construct, and `blocks_bind` for the programs that do wait.
-/
import Mathlib.Data.List.Basic

namespace ZetDb.Theory.Guards

set_option autoImplicit false

inductive Mode where
  | read
  | write
  deriving DecidableEq, Repr

structure Guard (S : Type) where
  mode : Mode
  shard : S
  deriving DecidableEq, Repr

inductive Event (S : Type) where
  | take (g : Guard S)
  | drop (g : Guard S)

section Events

variable {S : Type} [DecidableEq S]

/-- Two guards of one lock that are not both for reading. -/
def Guard.conflicts (a b : Guard S) : Bool :=
  decide (a.shard = b.shard) && !(decide (a.mode = .read) && decide (b.mode = .read))

/-- The guards held after the events. -/
def held : List (Guard S) → List (Event S) → List (Guard S)
  | guards, [] => guards
  | guards, .take g :: events => held (g :: guards) events
  | guards, .drop g :: events => held (guards.erase g) events

/-- Some guard is taken while a conflicting one is held. -/
def Blocks : List (Guard S) → List (Event S) → Prop
  | _, [] => False
  | guards, .take g :: events => (∃ own ∈ guards, own.conflicts g = true) ∨ Blocks (g :: guards) events
  | guards, .drop g :: events => Blocks (guards.erase g) events

theorem held_append (guards : List (Guard S)) (first second : List (Event S)) :
    held guards (first ++ second) = held (held guards first) second := by
  induction first generalizing guards with
  | nil => rfl
  | cons event first ih =>
      cases event with
      | take g => exact ih _
      | drop g => exact ih _

theorem blocks_append (guards : List (Guard S)) (first second : List (Event S)) :
    Blocks guards (first ++ second) ↔ Blocks guards first ∨ Blocks (held guards first) second := by
  induction first generalizing guards with
  | nil => exact (or_iff_right id).symm
  | cons event first ih =>
      cases event with
      | take g =>
          show _ ∨ Blocks (g :: guards) (first ++ second) ↔ (_ ∨ _) ∨ _
          rw [ih, or_assoc]
          rfl
      | drop g => exact ih _

end Events

/-! ## Programs -/

/-- The events, the result and the new state. -/
def Guarded (S σ α : Type) : Type := σ → List (Event S) × α × σ

namespace Guarded

variable {S σ α β : Type}

def events (p : Guarded S σ α) (s : σ) : List (Event S) := (p s).1

/-- What the program computes. -/
def result (p : Guarded S σ α) (s : σ) : α × σ := (p s).2

instance : Monad (Guarded S σ) where
  pure a := fun s => ([], a, s)
  bind p f := fun s =>
    (events p s ++ events (f (result p s).1) (result p s).2, result (f (result p s).1) (result p s).2)

def take (g : Guard S) : Guarded S σ Unit := fun s => ([.take g], (), s)
def drop (g : Guard S) : Guarded S σ Unit := fun s => ([.drop g], (), s)
def look (f : σ → α) : Guarded S σ α := fun s => ([], f s, s)
def change (f : σ → σ) : Guarded S σ Unit := fun s => ([], (), f s)

/-- A guard for the time of one action. -/
def during (g : Guard S) (action : σ → α × σ) : Guarded S σ α :=
  fun s => ([.take g, .drop g], (action s).1, (action s).2)

/-- One lock after the other, each dropped before the next is taken. -/
def visit (mode : Mode) : List S → Guarded S σ Unit
  | [] => pure ()
  | shard :: shards => do
      take ⟨mode, shard⟩
      drop ⟨mode, shard⟩
      visit mode shards

/-- Read guards of all the locks, one on top of the other. -/
def takeAll : List S → Guarded S σ Unit
  | [] => pure ()
  | shard :: shards => do
      take ⟨.read, shard⟩
      takeAll shards

def dropAll : List S → Guarded S σ Unit
  | [] => pure ()
  | shard :: shards => do
      dropAll shards
      drop ⟨.read, shard⟩

variable (s : σ)

@[simp] theorem result_pure (a : α) : result (pure a : Guarded S σ α) s = (a, s) := rfl

@[simp] theorem result_bind (p : Guarded S σ α) (f : α → Guarded S σ β) :
    result (p >>= f) s = result (f (result p s).1) (result p s).2 := rfl

@[simp] theorem result_take (g : Guard S) : result (take g : Guarded S σ Unit) s = ((), s) := rfl
@[simp] theorem result_drop (g : Guard S) : result (drop g : Guarded S σ Unit) s = ((), s) := rfl
@[simp] theorem result_look (f : σ → α) : result (look f : Guarded S σ α) s = (f s, s) := rfl
@[simp] theorem result_change (f : σ → σ) : result (change f : Guarded S σ Unit) s = ((), f s) := rfl

@[simp] theorem result_during (g : Guard S) (action : σ → α × σ) :
    result (during g action) s = action s := rfl

@[simp] theorem result_visit (mode : Mode) (shards : List S) :
    result (visit mode shards : Guarded S σ Unit) s = ((), s) := by
  induction shards with
  | nil => rfl
  | cons shard shards ih => simp only [visit, result_bind, result_take, result_drop, ih]

@[simp] theorem result_takeAll (shards : List S) :
    result (takeAll shards : Guarded S σ Unit) s = ((), s) := by
  induction shards with
  | nil => rfl
  | cons shard shards ih => simp only [takeAll, result_bind, result_take, ih]

@[simp] theorem result_dropAll (shards : List S) :
    result (dropAll shards : Guarded S σ Unit) s = ((), s) := by
  induction shards with
  | nil => rfl
  | cons shard shards ih => simp only [dropAll, result_bind, result_drop, ih]

end Guarded

/-! ## The triple -/

open Guarded

section Passes

variable {S σ α β : Type} [DecidableEq S] {before mid after : List (Guard S)} {s : σ}

structure Passes (before : List (Guard S)) (p : Guarded S σ α) (s : σ) (after : List (Guard S)) : Prop where
  free : ¬Blocks before (events p s)
  holds : held before (events p s) = after

theorem Passes.pure (a : α) : Passes before (pure a : Guarded S σ α) s before := ⟨id, rfl⟩

theorem Passes.bind {p : Guarded S σ α} {f : α → Guarded S σ β} (first : Passes before p s mid)
    (second : Passes mid (f (result p s).1) (result p s).2 after) : Passes before (p >>= f) s after := by
  obtain ⟨free, rfl⟩ := first
  refine ⟨?_, ?_⟩
  · intro blocks
    rcases (blocks_append _ _ _).1 blocks with early | late
    · exact free early
    · exact second.free late
  · exact (held_append _ _ _).trans second.holds

theorem Passes.ite {c : Prop} [Decidable c] {p q : Guarded S σ α} (yes : c → Passes before p s after)
    (no : ¬c → Passes before q s after) : Passes before (if c then p else q) s after := by
  split
  · rename_i h
    exact yes h
  · rename_i h
    exact no h

/-- A program waits for itself in its first part or, if it gets there, in its second. -/
theorem blocks_bind (p : Guarded S σ α) (f : α → Guarded S σ β) :
    Blocks before (events (p >>= f) s) ↔
      Blocks before (events p s) ∨
        Blocks (held before (events p s)) (events (f (result p s).1) (result p s).2) :=
  blocks_append _ _ _

theorem Passes.take {g : Guard S} (compatible : ∀ own ∈ before, own.conflicts g = false) :
    Passes before (take g : Guarded S σ Unit) s (g :: before) := by
  refine ⟨?_, rfl⟩
  rintro (⟨own, member, conflict⟩ | none)
  · rw [compatible own member] at conflict
    cases conflict
  · exact none

theorem Passes.drop (g : Guard S) : Passes (g :: before) (drop g : Guarded S σ Unit) s before :=
  ⟨id, List.erase_cons_head ..⟩

theorem Passes.look (f : σ → α) : Passes before (look f : Guarded S σ α) s before := ⟨id, rfl⟩

theorem Passes.change (f : σ → σ) : Passes before (change f : Guarded S σ Unit) s before := ⟨id, rfl⟩

theorem Passes.during {g : Guard S} {action : σ → α × σ}
    (compatible : ∀ own ∈ before, own.conflicts g = false) :
    Passes before (during g action) s before := by
  have taken := (Passes.take (s := s) compatible).free
  refine ⟨?_, List.erase_cons_head ..⟩
  rintro (conflict | none)
  · exact taken (.inl conflict)
  · exact none

theorem Passes.visit {mode : Mode} {shards : List S}
    (compatible : ∀ shard ∈ shards, ∀ own ∈ before, own.conflicts ⟨mode, shard⟩ = false) :
    Passes before (visit mode shards : Guarded S σ Unit) s before := by
  induction shards with
  | nil => exact .pure ()
  | cons shard shards ih =>
      refine .bind (.take (compatible shard (by simp))) (.bind (.drop _) ?_)
      exact ih fun other member => compatible other (by simp [member])

/-- With a conflicting guard in hand a visit waits for it. -/
theorem blocks_visit {mode : Mode} {shards : List S} {own : Guard S} {shard : S} (mine : own ∈ before)
    (member : shard ∈ shards) (conflict : own.conflicts ⟨mode, shard⟩ = true) :
    Blocks before (events (visit mode shards : Guarded S σ Unit) s) := by
  induction shards with
  | nil => cases member
  | cons first shards ih =>
      rcases List.mem_cons.1 member with rfl | later
      · exact .inl ⟨own, mine, conflict⟩
      · refine .inr ?_
        show Blocks (List.erase (_ :: before) _) _
        rw [List.erase_cons_head]
        exact ih later

/-- The guards held once all read guards are taken, the last on top. -/
def stacked (shards : List S) (before : List (Guard S)) : List (Guard S) :=
  shards.foldl (fun guards shard => ⟨.read, shard⟩ :: guards) before

/-- Read guards do not conflict with one another. -/
theorem Passes.takeAll (shards : List S) (reads : ∀ own ∈ before, own.mode = .read) :
    Passes before (takeAll shards : Guarded S σ Unit) s (stacked shards before) := by
  induction shards generalizing before with
  | nil => exact .pure ()
  | cons shard shards ih =>
      refine .bind (.take ?_) (ih ?_)
      · intro own member
        simp [Guard.conflicts, reads own member]
      · intro own member
        rcases List.mem_cons.1 member with rfl | earlier
        · rfl
        · exact reads own earlier

theorem Passes.dropAll (shards : List S) :
    Passes (stacked shards before) (dropAll shards : Guarded S σ Unit) s before := by
  induction shards generalizing before with
  | nil => exact .pure ()
  | cons shard shards ih =>
      refine .bind ih ?_
      exact .drop _

end Passes

end ZetDb.Theory.Guards
