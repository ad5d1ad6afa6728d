/-
# Storage.AofWriterLocks -- the lock orders of the writer

`flush_batch`, `flush` and `finalize_rewrite` take the file first and the batch or the
time of the last fsync while they hold it.  `flush_if_needed` goes the other way: it
takes the time, then the batch, then the file.  It waits for the file with both in
hand, so a task that holds the file and still needs one of them closes a circle.

`no_deadlock`: no other circle exists.  In every run in which `flush_if_needed`, under
policy `Everysec`, does not take the batch from under a task that holds the file and
still needs more, and nobody takes the file from under a waiting `flush_if_needed`, no
set of tasks is deadlocked; under the other policies that is every run.
-/
import ZetDb.Storage.AofWriter

namespace ZetDb.Storage.AofWriter

set_option autoImplicit false

open ZetDb.Theory.Wire ZetDb.Theory.Locks ZetDb.Domain
open ZetDb.Theory.Runs (Along)

/-! ## The mutexes held at each point -/

/-- The guards alive at a program point. -/
def guards : Pc → List Mutex
  | .leave guards _ _ => guards
  | .appendExtend _ | .appendDropBatch _ _ => [.batch]
  | .batchLockBatch _ _ => [.file]
  | .batchWriteBatch _ _ | .batchDropBatch _ _ => [.batch, .file]
  | .batchWriteEntry _ _ | .batchFsync _ | .batchLockLast _ => [.file]
  | .batchElapsed _ => [.last, .file]
  | .flushLockBatch => [.file]
  | .flushWrite => [.batch, .file]
  | .neededElapsed | .neededLockBatch => [.last]
  | .neededIsEmpty | .neededLockFile _ => [.batch, .last]
  | .neededWrite _ | .neededDropFile => [.file, .batch, .last]
  | .neededDropBatch => [.batch, .last]
  | .neededStamp => [.last]
  | .finalLockBatch _ => [.file]
  | .finalWriteBatch _ | .finalDropBatch _ => [.batch, .file]
  | .finalRename _ => [.file]
  | .appendLockBatch _ | .batchLockFile _ _ | .flushLockFile | .neededLockLast
  | .finalLockFile _ => []

def held (p : Pc) (l : Mutex) : Bool := l ∈ guards p

/-- No guard is dropped twice. -/
def DropsOnce (p : Pc) : Prop := (guards p).Nodup

section Annotation

variable {policy : FsyncPolicy}

/-- Work neither takes nor drops a guard. -/
theorem guards_work {p next : Pc} (leads : WorkLeads policy p next) : guards next = guards p := by
  cases leads with
  | begins mine ok call =>
      cases call with
      | flushIfNeeded =>
          simp only [begin]
          split <;> rfl
      | _ => rfl
  | _ => rfl

theorem guards_acquire {p next : Pc} {l : Mutex} (here : code policy p = .acquire l next) :
    l ∉ guards p ∧ guards next = l :: guards p := by
  cases p with
  | leave gs => cases gs <;> cases here
  | _ => cases here <;> exact ⟨by simp [guards], rfl⟩

theorem guards_release {p next : Pc} {l : Mutex} (here : code policy p = .release l next) :
    guards p = l :: guards next := by
  cases p with
  | leave gs => cases gs <;> cases here; rfl
  | _ => cases here <;> rfl

/-- The guards follow the code. -/
theorem guards_annotated : Annotated (code policy) DropsOnce held where
  acquire := by
    intro p l next once here
    obtain ⟨free, shape⟩ := guards_acquire here
    refine ⟨?_, by simpa [held] using free, fun k => ?_⟩
    · unfold DropsOnce
      rw [shape]
      exact List.nodup_cons.2 ⟨free, once⟩
    · by_cases same : k = l <;> simp [held, shape, same]
  release := by
    intro p l next once here
    have shape := guards_release here
    unfold DropsOnce at once
    rw [shape, List.nodup_cons] at once
    refine ⟨once.2, by simp [held, shape], fun k => ?_⟩
    by_cases same : k = l
    · subst same
      simpa [held] using once.1
    · simp [held, shape, same]
  work := by
    intro p f once here o d
    have same := guards_work (work_leads here o d)
    exact ⟨by unfold DropsOnce; rw [same]; exact once, fun l => by unfold held; rw [same]⟩

end Annotation

/-! ## The two sides of the circle -/

/-- In `flush_if_needed`, with the batch and the time in hand, before the file is taken. -/
def awaitsFile : Pc → Bool
  | .neededIsEmpty | .neededLockFile _ => true
  | _ => false

/-- With the file in hand, before the batch or (in `flush_batch`) the time is taken. -/
def holdsFileNeedsMore : Pc → Bool
  | .batchLockBatch _ _ | .batchWriteBatch _ _ | .batchDropBatch _ _ | .batchWriteEntry _ _
  | .batchFsync _ | .batchLockLast _ | .flushLockBatch | .finalLockBatch _ => true
  | _ => false

/-- Under `Everysec`, a step does not bring a task to one side of the circle while
another task is on the other side. -/
def KeepsApart (policy : FsyncPolicy) (s : Writer) (ev : Event) : Prop :=
  policy = .everysec →
    match s.pc ev.task with
    | .neededLockBatch => ∀ t, holdsFileNeedsMore (s.pc t) = false
    | .batchLockFile _ _ | .flushLockFile | .finalLockFile _ => ∀ t, awaitsFile (s.pc t) = false
    | _ => True

def takesFile : Pc → Bool
  | .batchLockFile _ _ | .flushLockFile | .finalLockFile _ => true
  | _ => false

def inFlushIfNeeded : Pc → Bool
  | .neededLockLast | .neededElapsed | .neededLockBatch | .neededIsEmpty | .neededLockFile _
  | .neededWrite _ | .neededDropFile | .neededDropBatch | .neededStamp => true
  | _ => false

section Sides

variable {policy : FsyncPolicy} {p next : Pc}

/-- How a task comes to a side of the circle, and into `flush_if_needed` at all. -/
theorem leads_sides (leads : Leads (code policy) p next) :
    (awaitsFile next = true → awaitsFile p = true ∨ p = .neededLockBatch) ∧
    (holdsFileNeedsMore next = true → holdsFileNeedsMore p = true ∨ takesFile p = true) ∧
    (inFlushIfNeeded next = true → inFlushIfNeeded p = true ∨ policy = .everysec) := by
  rcases leads with ⟨l, here⟩ | ⟨l, here⟩ | ⟨f, o, d, here, rfl⟩
  · cases p with
    | leave gs => cases gs <;> cases here
    | _ => cases here <;> simp [awaitsFile, holdsFileNeedsMore, takesFile, inFlushIfNeeded]
  · cases p with
    | leave gs =>
        cases gs <;> cases here
        simp [awaitsFile, holdsFileNeedsMore, inFlushIfNeeded]
    | _ => cases here <;> simp [awaitsFile, holdsFileNeedsMore, inFlushIfNeeded]
  · have target := work_leads here o d
    generalize (f o d).2 = next at target
    cases target with
    | begins mine ok call =>
        cases call with
        | flushIfNeeded =>
            simp only [begin]
            split <;> simp_all [awaitsFile, holdsFileNeedsMore, inFlushIfNeeded]
        | _ => simp [begin, awaitsFile, holdsFileNeedsMore, inFlushIfNeeded]
    | _ => simp [awaitsFile, holdsFileNeedsMore, inFlushIfNeeded]

end Sides

/-- Nobody awaits the file with the batch and the time in hand while another task
holds the file and needs one of them. -/
structure Apart (policy : FsyncPolicy) (s : Writer) : Prop where
  apart : ∀ t u, awaitsFile (s.pc t) = true → holdsFileNeedsMore (s.pc u) = false
  needed : policy ≠ .everysec → ∀ t, inFlushIfNeeded (s.pc t) = false

theorem not_both_sides {p : Pc} (awaits : awaitsFile p = true) : holdsFileNeedsMore p = false := by
  cases p <;> first | rfl | cases awaits

theorem guards_of_awaits {p : Pc} (awaits : awaitsFile p = true) : guards p = [.batch, .last] := by
  cases p <;> first | rfl | cases awaits

theorem inFlushIfNeeded_of_awaits {p : Pc} (awaits : awaitsFile p = true) :
    inFlushIfNeeded p = true := by
  cases p <;> first | rfl | cases awaits

theorem Apart.keep {policy : FsyncPolicy} {s s' : Writer} {ev : Event} (good : Apart policy s)
    (apart : KeepsApart policy s ev) (next : step (code policy) s ev = some s') :
    Apart policy s' := by
  obtain ⟨p, leads, pcs⟩ := step_leads next
  obtain ⟨toAwait, toHold, toNeeded⟩ := leads_sides leads
  -- outside `Everysec` nobody is in `flush_if_needed`
  have everysec {t : Nat} (inside : inFlushIfNeeded (s.pc t) = true) : policy = .everysec := by
    by_contra other
    rw [good.needed other t] at inside
    cases inside
  have newWaiter (awaits : awaitsFile p = true) (u : Nat) : holdsFileNeedsMore (s.pc u) = false := by
    rcases toAwait awaits with already | from_
    · exact good.apart _ u already
    · have only := apart (everysec (t := ev.task) (by rw [from_]; rfl))
      rw [from_] at only
      exact only u
  have newHolder (t : Nat) (awaits : awaitsFile (s.pc t) = true) : holdsFileNeedsMore p = false := by
    by_contra holds
    rcases toHold (Bool.eq_true_of_not_eq_false holds) with already | takes
    · rw [good.apart t _ awaits] at already
      cases already
    · have only := apart (everysec (inFlushIfNeeded_of_awaits awaits))
      have nobody : awaitsFile (s.pc t) = false := by
        cases at_ : s.pc ev.task <;> rw [at_] at takes only <;> first | exact only t | cases takes
      rw [nobody] at awaits
      cases awaits
  refine ⟨fun t u => ?_, fun other => ?_⟩
  · rw [pcs]
    by_cases first : t = ev.task <;> by_cases second : u = ev.task
    · subst first
      subst second
      simpa using not_both_sides
    · subst first
      simpa [Function.update_of_ne second] using fun awaits => newWaiter awaits u
    · subst second
      simpa [Function.update_of_ne first] using newHolder t
    · simpa [Function.update_of_ne first, Function.update_of_ne second] using good.apart t u
  · rw [pcs]
    refine forall_update (Q := fun p => inFlushIfNeeded p = false) ?_ (good.needed other)
    by_contra inside
    rcases toNeeded (Bool.eq_true_of_not_eq_false inside) with already | policyIs
    · exact other (everysec already)
    · exact other policyIs

theorem apart_opened (policy : FsyncPolicy) (now : Instant) : Apart policy (opened now) :=
  ⟨fun _ _ awaits => (by cases awaits), fun _ _ => rfl⟩

/-! ## No other circle -/

/-- Where a task can wait, and what it then holds. -/
theorem acquire_points {policy : FsyncPolicy} {p next : Pc} {l : Mutex}
    (here : code policy p = .acquire l next) :
    guards p = [] ∨ (guards p = [.file] ∧ holdsFileNeedsMore p = true ∧ l ≠ .file) ∨
      (guards p = [.last] ∧ l = .batch) ∨
      (guards p = [.batch, .last] ∧ awaitsFile p = true ∧ l = .file) := by
  cases p with
  | leave gs => cases gs <;> cases here
  | _ => cases here <;> simp [guards, holdsFileNeedsMore, awaitsFile]

section Circle

variable {policy : FsyncPolicy} {s : Writer} {tasks : Set Nat}

/-- The owner of a mutex that a task of the set waits for is in the set and holds it. -/
theorem waits_for (sound : HeldSound DropsOnce held s) (stuck : Deadlocked (code policy) s tasks)
    {t : Nat} (member : t ∈ tasks) :
    ∃ l next u, code policy (s.pc t) = .acquire l next ∧ u ∈ tasks ∧ l ∈ guards (s.pc u) := by
  obtain ⟨l, next, u, waits, owned, inside, -⟩ := stuck.2 t member
  have holds := (sound.owner l u).1 owned
  exact ⟨l, next, u, waits, inside, by simpa [held] using holds⟩

theorem awaits_of_batch (sound : HeldSound DropsOnce held s)
    (stuck : Deadlocked (code policy) s tasks) {t : Nat} (member : t ∈ tasks)
    (holds : .batch ∈ guards (s.pc t)) : awaitsFile (s.pc t) = true := by
  obtain ⟨l, next, u, waits, -, -⟩ := waits_for sound stuck member
  rcases acquire_points waits with none_ | ⟨file, -, -⟩ | ⟨last, -⟩ | ⟨-, awaits, -⟩
  · simp [none_] at holds
  · simp [file] at holds
  · simp [last] at holds
  · exact awaits

/-- Holding the time leads to a task that awaits the file. -/
theorem awaits_of_last (sound : HeldSound DropsOnce held s)
    (stuck : Deadlocked (code policy) s tasks) {t : Nat} (member : t ∈ tasks)
    (holds : .last ∈ guards (s.pc t)) : ∃ v ∈ tasks, awaitsFile (s.pc v) = true := by
  obtain ⟨l, next, u, waits, inside, owns⟩ := waits_for sound stuck member
  rcases acquire_points waits with none_ | ⟨file, -, -⟩ | ⟨-, rfl⟩ | ⟨-, awaits, -⟩
  · simp [none_] at holds
  · simp [file] at holds
  · exact ⟨u, inside, awaits_of_batch sound stuck inside owns⟩
  · exact ⟨t, member, awaits⟩

theorem awaits_of_held (sound : HeldSound DropsOnce held s)
    (stuck : Deadlocked (code policy) s tasks) {t : Nat} (member : t ∈ tasks) {l : Mutex}
    (holds : l ∈ guards (s.pc t)) : ∃ v ∈ tasks, awaitsFile (s.pc v) = true := by
  cases l with
  | batch => exact ⟨t, member, awaits_of_batch sound stuck member holds⟩
  | last => exact awaits_of_last sound stuck member holds
  | file =>
      obtain ⟨l, next, u, waits, inside, owns⟩ := waits_for sound stuck member
      rcases acquire_points waits with none_ | ⟨-, -, more⟩ | ⟨last, -⟩ | ⟨-, awaits, -⟩
      · simp [none_] at holds
      · cases l with
        | file => exact absurd rfl more
        | batch => exact ⟨u, inside, awaits_of_batch sound stuck inside owns⟩
        | last => exact awaits_of_last sound stuck inside owns
      · simp [last] at holds
      · exact ⟨t, member, awaits⟩

/-- Every circle runs through a task that awaits the file and one that holds it. -/
theorem Apart.not_deadlocked (good : Apart policy s) (sound : HeldSound DropsOnce held s) :
    ¬ Deadlocked (code policy) s tasks := by
  intro stuck
  obtain ⟨t, member⟩ := stuck.1
  obtain ⟨l, next, u, -, inside, owns⟩ := waits_for sound stuck member
  obtain ⟨v, waiter, awaits⟩ := awaits_of_held sound stuck inside owns
  obtain ⟨k, after, w, waits, holder, holds⟩ := waits_for sound stuck waiter
  have kIsFile : k = .file := by
    have both := guards_of_awaits awaits
    rcases acquire_points waits with none_ | ⟨file, -⟩ | ⟨last, -⟩ | ⟨-, -, file⟩
    · simp [both] at none_
    · simp [both] at file
    · simp [both] at last
    · exact file
  subst kIsFile
  obtain ⟨k', after', x, waits', -, -⟩ := waits_for sound stuck holder
  rcases acquire_points waits' with none_ | ⟨-, more, -⟩ | ⟨last, -⟩ | ⟨both, -, -⟩
  · simp [none_] at holds
  · rw [good.apart v w awaits] at more
    cases more
  · simp [last] at holds
  · simp [both] at holds

end Circle

/-- In every run whose steps keep the two sides apart, no set of tasks is deadlocked. -/
theorem no_deadlock (policy : FsyncPolicy) (now : Instant) (events : List Event) (s : Writer)
    (along : Along (step (code policy)) (KeepsApart policy) (opened now) events)
    (reached : run policy (opened now) events = some s) (tasks : Set Nat) :
    ¬ Deadlocked (code policy) s tasks := by
  have sound : HeldSound DropsOnce held s :=
    held_sound guards_annotated idle List.nodup_nil (fun _ => rfl) reached
  have good : Apart policy s := Theory.Runs.run_invariant
    (fun _ _ _ good here next => good.keep here next) (apart_opened policy now) along reached
  exact good.not_deadlocked sound

/-- The ticker's `flush_if_needed`, two seconds after the log was opened, up to its wait
for the file. -/
def tick (task : Nat) : List Event := List.replicate 5 (calm task .flushIfNeeded 2000000000)

/-- The ticker takes all three mutexes while a `flush` has only started. -/
theorem no_deadlock_ticker_first :
    ∃ s, run .everysec (opened 0) (calm 0 .flush 0 :: (tick 1 ++ [calm 1 .flushIfNeeded 2000000000])) =
        some s ∧ ¬ Deadlocked (code .everysec) s {0, 1} := by
  refine ⟨_, rfl, no_deadlock .everysec 0
    (calm 0 .flush 0 :: (tick 1 ++ [calm 1 .flushIfNeeded 2000000000])) _ ?_ rfl _⟩
  refine .cons rfl (fun _ => trivial) (.cons rfl (fun _ => trivial) (.cons rfl (fun _ => trivial)
    (.cons rfl (fun _ => trivial) (.cons rfl (fun _ => ?_) (.cons rfl (fun _ => trivial)
      (.cons rfl (fun _ => trivial) trivial))))))
  have keep {f : Nat → Pc} {t : Nat} {p : Pc} := forall_update (f := f) (t := t) (p := p)
    (Q := fun p => holdsFileNeedsMore p = false)
  -- one update of the points for each step taken so far, none of them on the file's side
  exact keep rfl (keep rfl (keep rfl (keep rfl fun _ => rfl)))

/-- A `flush` takes the file and then wants the batch; the ticker has taken the batch
and wants the file. -/
theorem flush_and_ticker_deadlock :
    ∃ s, run .everysec (opened 0) (List.replicate 2 (calm 0 .flush 0) ++ tick 1) = some s ∧
      Deadlocked (code .everysec) s {0, 1} := by
  refine ⟨_, rfl, ⟨0, by simp⟩, ?_⟩
  rintro t (rfl | rfl)
  · exact ⟨.batch, .flushWrite, 1, rfl, rfl, by simp, by decide⟩
  · exact ⟨.file, .neededWrite true, 0, rfl, rfl, by simp, by decide⟩

end ZetDb.Storage.AofWriter
