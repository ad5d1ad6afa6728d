/-
# Theory.Calls -- calls of one operation, interleaved

An operation is a few sections, each atomic on the shared state; `code` says what
the section at a point does, and whether the call goes on or returns.  Finitely many
calls of it run side by side: a turn gives one call its next section, with a choice
(the clock) of the environment.  The labels of `Theory.Runs` are the turns, so a list
of turns is an interleaving.
-/
import ZetDb.Theory.Runs

namespace ZetDb.Theory.Calls

set_option autoImplicit false

/-- Before the section at a point, or returned. -/
inductive Progress (γ ρ : Type) where
  | at (point : γ)
  | returned (result : ρ)
  deriving DecidableEq, Repr

structure State (σ γ ρ : Type) where
  shared : σ
  calls : List (Progress γ ρ)

structure Turn (χ : Type) where
  call : Nat
  choice : χ

section Calls

variable {σ γ ρ χ : Type} (code : γ → χ → σ → Progress γ ρ × σ)

/-- The next section of one call; a call that has returned takes no turn. -/
def step (s : State σ γ ρ) (t : Turn χ) : Option (State σ γ ρ) :=
  match s.calls[t.call]? with
  | some (.at point) =>
      some ⟨(code point t.choice s.shared).2, s.calls.set t.call (code point t.choice s.shared).1⟩
  | _ => none

def start (shared : σ) (point : γ) (n : Nat) : State σ γ ρ := ⟨shared, List.replicate n (.at point)⟩

/-- Every call has returned. -/
def Complete (s : State σ γ ρ) : Prop := ∀ p ∈ s.calls, ∃ result, p = .returned result

def Progress.result? : Progress γ ρ → Option ρ
  | .at _ => none
  | .returned result => some result

/-- What has been returned, in the order of the calls. -/
def results (calls : List (Progress γ ρ)) : List ρ := calls.filterMap Progress.result?

variable {code}

theorem step_cases {s s' : State σ γ ρ} {t : Turn χ} (taken : step code s t = some s') :
    ∃ point, s.calls[t.call]? = some (.at point) ∧
      s' = ⟨(code point t.choice s.shared).2, s.calls.set t.call (code point t.choice s.shared).1⟩ := by
  unfold step at taken
  split at taken
  · rename_i point here
    exact ⟨point, here, (Option.some.inj taken).symm⟩
  · cases taken

theorem step_length {s s' : State σ γ ρ} {t : Turn χ} (taken : step code s t = some s') :
    s'.calls.length = s.calls.length := by
  obtain ⟨point, -, rfl⟩ := step_cases taken
  exact List.length_set

/-- A call that returns leaves no new call at a point. -/
theorem at_not_mem_set {calls : List (Progress γ ρ)} {point : γ} (absent : .at point ∉ calls) (i : Nat)
    (result : ρ) : .at point ∉ calls.set i (.returned result) := by
  intro member
  rcases List.mem_or_eq_of_mem_set member with before | same
  · exact absent before
  · cases same

/-- A turn of one call leaves the others where they are. -/
theorem getElem?_set_other {calls : List (Progress γ ρ)} {i j : Nat} {p q : Progress γ ρ}
    (here : calls[i]? = some p) (there : calls[j]? = some q) (differ : p ≠ q) (next : Progress γ ρ) :
    (calls.set i next)[j]? = some q := by
  rw [List.getElem?_set_ne, there]
  rintro rfl
  exact differ (Option.some.inj (here.symm.trans there))

/-! ## The returned results -/

/-- A turn adds what the section returns. -/
theorem results_set {calls : List (Progress γ ρ)} {i : Nat} {point : γ}
    (here : calls[i]? = some (.at point)) (next : Progress γ ρ) :
    (results (calls.set i next)).Perm (next.result?.toList ++ results calls) := by
  induction calls generalizing i with
  | nil => cases here
  | cons p calls ih =>
      cases i with
      | zero =>
          cases here
          cases next with
          | «at» point => exact .refl _
          | returned result => exact .refl _
      | succ i =>
          have rest := ih here
          cases p with
          | «at» point => exact rest
          | returned result => exact (rest.cons result).trans List.perm_middle.symm

theorem results_length_le (calls : List (Progress γ ρ)) : (results calls).length ≤ calls.length :=
  List.length_filterMap_le _ _

theorem results_replicate (point : γ) (n : Nat) :
    results (List.replicate n (.at point : Progress γ ρ)) = [] := by
  rw [results, List.filterMap_replicate_of_none rfl]

/-- With a call still to take a turn, fewer have returned than there are. -/
theorem results_length_lt {calls : List (Progress γ ρ)} {i : Nat} {point : γ} (result : ρ)
    (here : calls[i]? = some (.at point)) : (results calls).length < calls.length := by
  have grown : (results (calls.set i (.returned result))).length = 1 + (results calls).length := by
    rw [(results_set here (.returned result)).length_eq, List.length_append]
    rfl
  have bound := results_length_le (calls.set i (.returned result))
  rw [grown, List.length_set] at bound
  exact Nat.lt_of_lt_of_le (Nat.lt_add_of_pos_left Nat.one_pos) bound

theorem Complete.results_length {s : State σ γ ρ} (complete : Complete s) :
    (results s.calls).length = s.calls.length := by
  refine List.filterMap_length_eq_length.2 ?_
  intro p member
  obtain ⟨result, rfl⟩ := complete p member
  rfl

end Calls

end ZetDb.Theory.Calls
