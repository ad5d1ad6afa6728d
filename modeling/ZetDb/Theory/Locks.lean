/-
# Theory.Locks -- tasks that take and drop mutexes

Any number of tasks run one program over shared data.  A program point either
takes a mutex, drops one, or does a piece of work on the data; one step of the
system is one such action of one task.  What a task finds outside the program
(the call it is asked for, the outcome of an I/O operation, the clock) is the
label's choice.

* `held_sound`: if the program points are annotated with the mutexes held there
  and the annotation follows the code, it is right in every run: a mutex is owned
  by a task exactly when the task's point says so.
* `local_invariant`: an invariant of the data, together with what each task knows at
  its program point.
* `Deadlocked`: a set of tasks each waiting for a mutex that another of them owns.
-/
import ZetDb.Theory.Runs
import Mathlib.Data.Set.Basic
import Mathlib.Logic.Function.Basic

namespace ZetDb.Theory.Locks

set_option autoImplicit false

/-- What a program point does. -/
inductive Action (L Pc D χ : Type) where
  | acquire (l : L) (next : Pc)
  | release (l : L) (next : Pc)
  | work (f : χ → D → D × Pc)

structure State (L Pc D : Type) where
  data : D
  owner : L → Option Nat
  pc : Nat → Pc

structure Label (χ : Type) where
  task : Nat
  choice : χ

section System

variable {L Pc D χ : Type} [DecidableEq L] (code : Pc → Action L Pc D χ)

/-- One action of one task; a taken mutex blocks. -/
def step (s : State L Pc D) (label : Label χ) : Option (State L Pc D) :=
  match code (s.pc label.task) with
  | .acquire l next =>
      if s.owner l = none then
        some { s with
          owner := Function.update s.owner l (some label.task)
          pc := Function.update s.pc label.task next }
      else none
  | .release l next =>
      some { s with
        owner := Function.update s.owner l none
        pc := Function.update s.pc label.task next }
  | .work f =>
      let (data, next) := f label.choice s.data
      some { s with data := data, pc := Function.update s.pc label.task next }

/-- No mutex is taken and every task stands at `idle`. -/
def start (data : D) (idle : Pc) : State L Pc D := ⟨data, fun _ => none, fun _ => idle⟩

/-- A set of tasks each waiting for a mutex owned by another task of the set. -/
def Deadlocked (s : State L Pc D) (tasks : Set Nat) : Prop :=
  tasks.Nonempty ∧ ∀ t ∈ tasks, ∃ l next u,
    code (s.pc t) = .acquire l next ∧ s.owner l = some u ∧ u ∈ tasks ∧ u ≠ t

/-- On the points `ok`, which the code does not leave, the annotation `held`
follows the code. -/
structure Annotated (ok : Pc → Prop) (held : Pc → L → Bool) : Prop where
  acquire : ∀ {p l next}, ok p → code p = .acquire l next →
    ok next ∧ held p l = false ∧ ∀ l', held next l' = if l' = l then true else held p l'
  release : ∀ {p l next}, ok p → code p = .release l next →
    ok next ∧ held p l = true ∧ ∀ l', held next l' = if l' = l then false else held p l'
  work : ∀ {p f}, ok p → code p = .work f → ∀ choice data,
    ok (f choice data).2 ∧ ∀ l, held (f choice data).2 l = held p l

variable {code} {ok : Pc → Prop} {held : Pc → L → Bool} {s s' : State L Pc D} {label : Label χ}

/-- What a step does: take a free mutex, drop one, or work. -/
theorem step_cases (next : step code s label = some s') :
    (∃ l p, code (s.pc label.task) = .acquire l p ∧ s.owner l = none ∧
      s' = ⟨s.data, Function.update s.owner l (some label.task),
        Function.update s.pc label.task p⟩) ∨
    (∃ l p, code (s.pc label.task) = .release l p ∧
      s' = ⟨s.data, Function.update s.owner l none, Function.update s.pc label.task p⟩) ∨
    (∃ f, code (s.pc label.task) = .work f ∧
      s' = ⟨(f label.choice s.data).1, s.owner,
        Function.update s.pc label.task (f label.choice s.data).2⟩) := by
  unfold step at next
  split at next
  · rename_i l p here
    split at next
    · cases next
      exact .inl ⟨l, p, here, ‹_›, rfl⟩
    · cases next
  · rename_i l p here
    cases next
    exact .inr (.inl ⟨l, p, here, rfl⟩)
  · rename_i f here
    cases next
    exact .inr (.inr ⟨f, here, rfl⟩)

/-- The points a task may stand at after an action at `p`. -/
def Leads (code : Pc → Action L Pc D χ) (p next : Pc) : Prop :=
  (∃ l, code p = .acquire l next) ∨ (∃ l, code p = .release l next) ∨
    ∃ f choice data, code p = .work f ∧ next = (f choice data).2

theorem step_leads (next : step code s label = some s') :
    ∃ p, Leads code (s.pc label.task) p ∧ s'.pc = Function.update s.pc label.task p := by
  rcases step_cases next with ⟨l, p, at_, -, rfl⟩ | ⟨l, p, at_, rfl⟩ | ⟨f, at_, rfl⟩
  · exact ⟨p, .inl ⟨l, at_⟩, rfl⟩
  · exact ⟨p, .inr (.inl ⟨l, at_⟩), rfl⟩
  · exact ⟨_, .inr (.inr ⟨f, _, _, at_, rfl⟩), rfl⟩

/-- Every task is at an `ok` point, and a mutex is owned by the task whose point
holds it. -/
structure HeldSound (ok : Pc → Prop) (held : Pc → L → Bool) (s : State L Pc D) : Prop where
  ok : ∀ t, ok (s.pc t)
  owner : ∀ l t, s.owner l = some t ↔ held (s.pc t) l = true

omit [DecidableEq L] in
theorem forall_update {Q : Pc → Prop} {f : Nat → Pc} {t : Nat} {p : Pc} (own : Q p)
    (others : ∀ u, Q (f u)) (u : Nat) : Q (Function.update f t p u) := by
  by_cases mine : u = t
  · subst mine
    simpa using own
  · simpa [Function.update_of_ne mine] using others u

/-- One step keeps the annotation right. -/
theorem held_step (annotated : Annotated code ok held) (sound : HeldSound ok held s)
    (next : step code s label = some s') : HeldSound ok held s' := by
  have here := sound.ok label.task
  rcases step_cases next with ⟨k, p, at_, free, rfl⟩ | ⟨k, p, at_, rfl⟩ | ⟨f, at_, rfl⟩
  · obtain ⟨okNext, -, after⟩ := annotated.acquire here at_
    refine ⟨forall_update okNext sound.ok, fun l t => ?_⟩
    by_cases mine : t = label.task
    · subst mine
      by_cases same : l = k
      · subst same
        simp [after]
      · simp [same, after, sound.owner l label.task]
    · by_cases same : l = k
      · -- the free mutex was held by nobody
        subst same
        have unheld : ¬ held (s.pc t) l = true := fun holds => by
          rw [← sound.owner l t, free] at holds
          cases holds
        simpa [Function.update_of_ne mine, unheld] using Ne.symm mine
      · simp [Function.update_of_ne mine, same, sound.owner l t]
  · obtain ⟨okNext, mineNow, after⟩ := annotated.release here at_
    refine ⟨forall_update okNext sound.ok, fun l t => ?_⟩
    by_cases mine : t = label.task
    · subst mine
      by_cases same : l = k
      · subst same
        simp [after]
      · simp [same, after, sound.owner l label.task]
    · by_cases same : l = k
      · -- the dropped mutex was held by the dropping task only
        subst same
        have owned := (sound.owner l label.task).2 mineNow
        have unheld : ¬ held (s.pc t) l = true := fun holds => by
          rw [← sound.owner l t, owned] at holds
          exact mine (Option.some.inj holds).symm
        simp [Function.update_of_ne mine, unheld]
      · simp [Function.update_of_ne mine, same, sound.owner l t]
  · obtain ⟨okNext, same⟩ := annotated.work here at_ label.choice s.data
    refine ⟨forall_update okNext sound.ok, fun l t => ?_⟩
    by_cases mine : t = label.task
    · subst mine
      simp [same, sound.owner l label.task]
    · simp [Function.update_of_ne mine, sound.owner l t]

omit [DecidableEq L] in
theorem held_start {idle : Pc} (okIdle : ok idle) (free : ∀ l, held idle l = false) (data : D) :
    HeldSound ok held (start (L := L) data idle) :=
  ⟨fun _ => okIdle, fun l t => by simp [start, free]⟩

/-- The annotation is right in every run. -/
theorem held_sound (annotated : Annotated code ok held) (idle : Pc) (okIdle : ok idle)
    (free : ∀ l, held idle l = false) {data : D} {labels : List (Label χ)}
    (reached : Runs.run (step code) (start data idle) labels = some s) : HeldSound ok held s :=
  Runs.run_invariant (fun _ _ _ sound _ next => held_step annotated sound next)
    (held_start okIdle free data) (Runs.Along.of_forall (fun _ _ => trivial) _ _) reached

/-- An invariant `I` of the data, with what every task knows at its own point
(`Q`): taking and dropping a mutex must keep the task's knowledge, a work step the
invariant, the knowledge of its task and the knowledge of the others. -/
theorem local_invariant {I : D → Prop} {Q : D → Pc → Prop} {P : State L Pc D → Label χ → Prop}
    (acquires : ∀ {d p l next}, code p = .acquire l next → Q d p → Q d next)
    (releases : ∀ {d p l next}, code p = .release l next → Q d p → Q d next)
    (works : ∀ {s label f}, code (s.pc label.task) = .work f → I s.data →
      Q s.data (s.pc label.task) → P s label →
      I (f label.choice s.data).1 ∧ Q (f label.choice s.data).1 (f label.choice s.data).2 ∧
        ∀ p, Q s.data p → Q (f label.choice s.data).1 p)
    {s₀ : State L Pc D} {labels : List (Label χ)} (first : I s₀.data ∧ ∀ t, Q s₀.data (s₀.pc t))
    (along : Runs.Along (step code) P s₀ labels)
    (reached : Runs.run (step code) s₀ labels = some s) : I s.data ∧ ∀ t, Q s.data (s.pc t) := by
  refine Runs.run_invariant (I := fun s => I s.data ∧ ∀ t, Q s.data (s.pc t))
    (fun s label s' good here next => ?_) first along reached
  rcases step_cases next with ⟨l, p, at_, -, rfl⟩ | ⟨l, p, at_, rfl⟩ | ⟨f, at_, rfl⟩
  · exact ⟨good.1, forall_update (acquires at_ (good.2 _)) good.2⟩
  · exact ⟨good.1, forall_update (releases at_ (good.2 _)) good.2⟩
  · obtain ⟨kept, own, others⟩ := works at_ good.1 (good.2 _) here
    exact ⟨kept, forall_update own fun t => others _ (good.2 t)⟩

end System

end ZetDb.Theory.Locks
