/-
# Theory.Runs -- runs of a labelled transition function

A system is a partial step function on labels: what the environment chooses (the
task, the call, the outcome of an I/O operation, the clock) is in the label, so an
interleaving is a list of labels.  A run is the fold of the steps; `Along P` says
that `P` holds of the state and the label at every step of it.

`run_simulates` carries a relation between two systems from their steps to their runs.
`run_invariant`: what holds at the start, and is kept by every step that meets
`P`, holds wherever a run along `P` arrives.  `along_of_unbroken` is the converse
rule: if every step against `P` does lasting damage, an undamaged run is along `P`.
-/
import Mathlib.Data.List.Basic

namespace ZetDb.Theory.Runs

set_option autoImplicit false

section Runs

variable {σ ℓ : Type} (step : σ → ℓ → Option σ)

/-- The state after the labels, if every step is enabled. -/
def run : σ → List ℓ → Option σ
  | s, [] => some s
  | s, l :: ls => (step s l).bind fun s => run s ls

/-- `P` holds of the state and the label at every step. -/
def Along (P : σ → ℓ → Prop) : σ → List ℓ → Prop
  | _, [] => True
  | s, l :: ls => P s l ∧ ∀ s', step s l = some s' → Along P s' ls

@[simp] theorem run_nil (s : σ) : run step s [] = some s := rfl

@[simp] theorem run_cons (s : σ) (l : ℓ) (ls : List ℓ) :
    run step s (l :: ls) = (step s l).bind fun s => run step s ls := rfl

variable {step}

theorem run_append (s : σ) (first second : List ℓ) :
    run step s (first ++ second) = (run step s first).bind fun s => run step s second := by
  induction first generalizing s with
  | nil => rfl
  | cons l first ih => simp only [List.cons_append, run_cons, Option.bind_assoc, ih]

theorem Along.cons {P : σ → ℓ → Prop} {s t : σ} {l : ℓ} {ls : List ℓ} (taken : step s l = some t)
    (here : P s l) (later : Along step P t ls) : Along step P s (l :: ls) := by
  refine ⟨here, fun s' next => ?_⟩
  cases taken.symm.trans next
  exact later

/-- Conditions that can be evaluated can be evaluated along a run. -/
instance Along.decidable {P : σ → ℓ → Prop} [∀ s l, Decidable (P s l)] :
    ∀ (s : σ) (ls : List ℓ), Decidable (Along step P s ls)
  | _, [] => isTrue trivial
  | s, l :: ls =>
      match taken : step s l with
      | none => decidable_of_iff (P s l)
          ⟨fun here => ⟨here, fun s' next => by cases taken.symm.trans next⟩, fun along => along.1⟩
      | some t =>
          have : Decidable (Along step P t ls) := Along.decidable t ls
          decidable_of_iff (P s l ∧ Along step P t ls)
            ⟨fun both => .cons taken both.1 both.2, fun along => ⟨along.1, along.2 t taken⟩⟩

theorem Along.of_forall {P : σ → ℓ → Prop} (always : ∀ s l, P s l) (s : σ) (ls : List ℓ) :
    Along step P s ls := by
  induction ls generalizing s with
  | nil => trivial
  | cons l ls ih => exact ⟨always s l, fun s' _ => ih s'⟩

theorem Along.mono {P Q : σ → ℓ → Prop} (weaker : ∀ s l, P s l → Q s l) {s : σ} {ls : List ℓ}
    (along : Along step P s ls) : Along step Q s ls := by
  induction ls generalizing s with
  | nil => trivial
  | cons l ls ih => exact ⟨weaker s l along.1, fun s' next => ih (along.2 s' next)⟩

/-- Along both parts of a run. -/
theorem Along.split {P : σ → ℓ → Prop} {s : σ} {first second : List ℓ} (along : Along step P s (first ++ second)) :
    Along step P s first ∧ ∀ mid, run step s first = some mid → Along step P mid second := by
  induction first generalizing s with
  | nil =>
      refine ⟨trivial, ?_⟩
      rintro mid ⟨⟩
      exact along
  | cons l first ih =>
      refine ⟨⟨along.1, fun s' next => (ih (along.2 s' next)).1⟩, ?_⟩
      intro mid reached
      obtain ⟨s', next, rest⟩ := Option.bind_eq_some_iff.1 reached
      exact (ih (along.2 s' next)).2 mid rest

theorem Along.append {P : σ → ℓ → Prop} {s mid : σ} {first second : List ℓ} (before : Along step P s first)
    (reached : run step s first = some mid) (behind : Along step P mid second) :
    Along step P s (first ++ second) := by
  induction first generalizing s with
  | nil =>
      cases reached
      exact behind
  | cons l first ih =>
      obtain ⟨t, next, rest⟩ := Option.bind_eq_some_iff.1 reached
      exact .cons next before.1 (ih (before.2 t next) rest)

/-- The moments of a run: a state it passes through, and the label of the next step. -/
def Moment (step : σ → ℓ → Option σ) (s : σ) (ls : List ℓ) (mid : σ) (l : ℓ) : Prop :=
  ∃ first rest, ls = first ++ l :: rest ∧ run step s first = some mid

theorem along_moments (s : σ) (ls : List ℓ) : Along step (Moment step s ls) s ls := by
  -- at every state the labels behind it are a last part of the run's
  suffices general : ∀ first rest mid, ls = first ++ rest → run step s first = some mid →
      Along step (Moment step s ls) mid rest from general [] ls s rfl rfl
  intro first rest
  induction rest generalizing first with
  | nil => exact fun _ _ _ => trivial
  | cons l rest ih =>
      intro mid shape reached
      refine ⟨⟨first, rest, shape, reached⟩, fun next taken => ?_⟩
      apply ih (first ++ [l]) next
      · rw [shape, List.append_assoc, List.singleton_append]
      · rw [run_append, reached, Option.bind_some, run_cons, taken]
        rfl

/-- What does not hold along a run fails at some moment of it. -/
theorem exists_of_not_along {P : σ → ℓ → Prop} {s s' : σ} {ls : List ℓ} (reached : run step s ls = some s')
    (broken : ¬Along step P s ls) :
    ∃ first l rest mid next, ls = first ++ l :: rest ∧ run step s first = some mid ∧ step mid l = some next ∧
      ¬P mid l := by
  induction ls generalizing s with
  | nil => exact absurd trivial broken
  | cons l ls ih =>
      obtain ⟨mid, taken, rest⟩ := Option.bind_eq_some_iff.1 reached
      by_cases here : P s l
      · have later : ¬Along step P mid ls := fun along => broken (.cons taken here along)
        obtain ⟨first, m, behind, t, next, rfl, there, onward, fails⟩ := ih rest later
        refine ⟨l :: first, m, behind, t, next, rfl, ?_, onward, fails⟩
        rw [run_cons, taken]
        exact there
      · exact ⟨[], l, ls, s, mid, rfl, rfl, taken, here⟩

/-- The invariant rule. -/
theorem run_invariant {I : σ → Prop} {P : σ → ℓ → Prop}
    (keep : ∀ s l s', I s → P s l → step s l = some s' → I s') {s s' : σ} {ls : List ℓ}
    (start : I s) (along : Along step P s ls) (reached : run step s ls = some s') : I s' := by
  induction ls generalizing s with
  | nil =>
      cases reached
      exact start
  | cons l ls ih =>
      obtain ⟨mid, first, rest⟩ := Option.bind_eq_some_iff.1 reached
      exact ih (keep s l mid start along.1 first) (along.2 mid first) rest

/-- The simulation rule: where every step along `P` is matched by steps of another system
along `Q`, so is every run. -/
theorem run_simulates {τ κ : Type} {target : τ → κ → Option τ} {R : σ → τ → Prop} {P : σ → ℓ → Prop}
    {Q : τ → κ → Prop}
    (matched : ∀ s l s' t, R s t → P s l → step s l = some s' →
      ∃ ks t', run target t ks = some t' ∧ Along target Q t ks ∧ R s' t')
    {s s' : σ} {t : τ} {ls : List ℓ} (start : R s t) (along : Along step P s ls)
    (reached : run step s ls = some s') : ∃ ks t', run target t ks = some t' ∧ Along target Q t ks ∧ R s' t' := by
  induction ls generalizing s t with
  | nil =>
      cases reached
      exact ⟨[], t, rfl, trivial, start⟩
  | cons l ls ih =>
      obtain ⟨mid, first, rest⟩ := Option.bind_eq_some_iff.1 reached
      obtain ⟨ks, u, there, good, related⟩ := matched s l mid t start along.1 first
      obtain ⟨more, t', onward, later, final⟩ := ih related (along.2 mid first) rest
      refine ⟨ks ++ more, t', ?_, good.append there later, final⟩
      rw [run_append, there]
      exact onward

theorem Along.and {P Q : σ → ℓ → Prop} {s : σ} {ls : List ℓ} (first : Along step P s ls)
    (second : Along step Q s ls) : Along step (fun s l => P s l ∧ Q s l) s ls := by
  induction ls generalizing s with
  | nil => trivial
  | cons l ls ih =>
      refine ⟨⟨first.1, second.1⟩, ?_⟩
      intro mid next
      exact ih (first.2 mid next) (second.2 mid next)

theorem Along.and_label {P : σ → ℓ → Prop} {Q : ℓ → Prop} {s : σ} {ls : List ℓ}
    (along : Along step P s ls) (each : ∀ l ∈ ls, Q l) : Along step (fun s l => P s l ∧ Q l) s ls := by
  induction ls generalizing s with
  | nil => trivial
  | cons l ls ih =>
      refine ⟨⟨along.1, each l (by simp)⟩, fun mid first => ?_⟩
      exact ih (along.2 mid first) fun l member => each l (by simp [member])

/-- A run that never breaks runs along `P`: `P` keeps `I`, a step against `P` breaks
it, and what is broken stays so.  Every label of the run meets `Q`. -/
theorem along_of_unbroken {I B : σ → Prop} {P : σ → ℓ → Prop} {Q : ℓ → Prop}
    (keep : ∀ s l s', I s → P s l → Q l → step s l = some s' → I s')
    (breaks : ∀ s l s', I s → ¬P s l → Q l → step s l = some s' → B s')
    (stays : ∀ s l s', B s → Q l → step s l = some s' → B s') {s s' : σ} {ls : List ℓ}
    (start : I s) (each : ∀ l ∈ ls, Q l) (reached : run step s ls = some s') (unbroken : ¬B s') :
    Along step P s ls := by
  induction ls generalizing s with
  | nil => trivial
  | cons l ls ih =>
      obtain ⟨mid, first, rest⟩ := Option.bind_eq_some_iff.1 reached
      by_cases here : P s l
      · have kept := keep s l mid start here (each l (by simp)) first
        exact .cons first here (ih kept (fun l member => each l (by simp [member])) rest)
      · refine absurd ?_ unbroken
        have labels : Along step (fun _ m => True ∧ Q m) mid ls :=
          (Along.of_forall (fun _ _ => trivial) mid ls).and_label fun m member => each m (by simp [member])
        exact run_invariant (fun s m s' broken good => stays s m s' broken good.2)
          (breaks s l mid start here (each l (by simp)) first) labels rest

end Runs

end ZetDb.Theory.Runs
