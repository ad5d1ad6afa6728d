/-
# Observability.Metrics -- counters that are kept per thread and moved in batches

Embeds the counters of `observability/metrics.rs`.  A thread counts in counters of
its own and adds them to the global ones in batches of 64; `flush_all` adds what the
calling thread has.  A call touches the counters of one thread under their borrow,
and a run is an interleaving of whole calls.  All counters are `u64`, and the
arithmetic of the release profile wraps.

`record_command` moves a batch when the thread's total reaches a multiple of 64, and
moves all of it into the counter of the command that came last.  That command's own
count is 64 only if the whole batch was of its type.  `counters_conserved_iff`: so
no count is lost, invented or decremented below zero exactly in the runs in which
every full batch of a thread is of one type.

The meters of hits, misses and errors move what they have counted themselves and
are right in every run.  While the counters are conserved, `command_count` and
`total_commands` are at most the number of the calls, and just that where only one
thread counts.
-/
import ZetDb.Domain.Command
import ZetDb.Theory.Runs
import Mathlib.Algebra.BigOperators.Group.List.Basic

namespace ZetDb.Observability

set_option autoImplicit false

open ZetDb.Domain
open ZetDb.Theory.Runs (run Along)

/-- The counters that `LocalCounters` and `Metrics` both have. -/
inductive Slot where
  | commandsTotal
  | commandsByType (c : CommandType)
  | keyspaceHits
  | keyspaceMisses
  | errorsTotal
  deriving DecidableEq, Repr

abbrev Counters := Slot → Nat

def flushBatch : Nat := 64

def wrappingAdd (n m : Nat) : Nat := (n + m) % 2 ^ 64
def wrappingSub (n m : Nat) : Nat := (n + 2 ^ 64 - m) % 2 ^ 64

/-- `local.slot += 1`. -/
def bump (counters : Counters) (slot : Slot) : Counters :=
  Function.update counters slot (wrappingAdd (counters slot) 1)

/-- `fetch_add(FLUSH_BATCH)` on the global counter, `-= FLUSH_BATCH` on the local one. -/
def moveBatch (slot : Slot) (shared thread : Counters) : Counters × Counters :=
  (Function.update shared slot (wrappingAdd (shared slot) flushBatch),
    Function.update thread slot (wrappingSub (thread slot) flushBatch))

def recordCommand (cmd : CommandType) (shared thread : Counters) : Counters × Counters :=
  let thread := bump (bump thread .commandsTotal) (.commandsByType cmd)
  if thread .commandsTotal % flushBatch = 0 then
    let moved := moveBatch .commandsTotal shared thread
    moveBatch (.commandsByType cmd) moved.1 moved.2
  else (shared, thread)

/-- The body that `record_hit`, `record_miss` and `record_error` share. -/
def recordMeter (slot : Slot) (shared thread : Counters) : Counters × Counters :=
  let thread := bump thread slot
  if thread slot % flushBatch = 0 then moveBatch slot shared thread else (shared, thread)

def recordHit : Counters → Counters → Counters × Counters := recordMeter .keyspaceHits
def recordMiss : Counters → Counters → Counters × Counters := recordMeter .keyspaceMisses
def recordError : Counters → Counters → Counters × Counters := recordMeter .errorsTotal

def flushAll (shared thread : Counters) : Counters × Counters :=
  (fun slot => if thread slot > 0 then wrappingAdd (shared slot) (thread slot) else shared slot, fun _ => 0)

/-- What a thread reads: the global count and its own. -/
def readCount (slot : Slot) (shared thread : Counters) : Nat := wrappingAdd (shared slot) (thread slot)

def commandCount (cmd : CommandType) : Counters → Counters → Nat := readCount (.commandsByType cmd)
def totalCommands : Counters → Counters → Nat := readCount .commandsTotal

/-! ## Runs -/

/-- A thread, with the commands it has recorded since its total was last at zero. -/
structure Thread where
  counters : Counters
  batch : List CommandType

/-- The global counters, the threads, and the number of the calls so far. -/
structure Metrics where
  counters : Counters
  threads : List Thread
  calls : Counters

def Metrics.new (threads : Nat) : Metrics :=
  ⟨fun _ => 0, List.replicate threads ⟨fun _ => 0, []⟩, fun _ => 0⟩

inductive Meter where
  | hit
  | miss
  | error

def Meter.slot : Meter → Slot
  | .hit => .keyspaceHits
  | .miss => .keyspaceMisses
  | .error => .errorsTotal

def Meter.record : Meter → Counters → Counters → Counters × Counters
  | .hit => recordHit
  | .miss => recordMiss
  | .error => recordError

inductive MetricsStep where
  | recordCommand (thread : Nat) (cmd : CommandType)
  | record (thread : Nat) (meter : Meter)
  | flushAll (thread : Nat)

/-- The batch after a command: a full one is moved. -/
def nextBatch (batch : List CommandType) (cmd : CommandType) : List CommandType :=
  if batch.length + 1 = flushBatch then [] else cmd :: batch

/-- The counters a call is meant to raise by one. -/
def counted : MetricsStep → Slot → Nat
  | .recordCommand _ cmd, slot => if slot = .commandsTotal ∨ slot = .commandsByType cmd then 1 else 0
  | .record _ meter, slot => if slot = meter.slot then 1 else 0
  | .flushAll _, _ => 0

def MetricsStep.thread : MetricsStep → Nat
  | .recordCommand thread _ | .record thread _ | .flushAll thread => thread

/-- A call on the global counters and those of its thread. -/
def callOn (shared : Counters) (t : Thread) : MetricsStep → Counters × Thread
  | .recordCommand _ cmd =>
      ((recordCommand cmd shared t.counters).1,
        ⟨(recordCommand cmd shared t.counters).2, nextBatch t.batch cmd⟩)
  | .record _ meter =>
      ((meter.record shared t.counters).1, ⟨(meter.record shared t.counters).2, t.batch⟩)
  | .flushAll _ => ((flushAll shared t.counters).1, ⟨(flushAll shared t.counters).2, []⟩)

def metricsStep (s : Metrics) (l : MetricsStep) : Option Metrics :=
  s.threads[l.thread]?.map fun t =>
    { counters := (callOn s.counters t l).1
      threads := s.threads.set l.thread (callOn s.counters t l).2
      calls := fun slot => s.calls slot + counted l slot }

/-! ## What should hold, and when it does -/

/-- Global and local counts add up to the calls, so no global count exceeds them. -/
structure Conserved (s : Metrics) : Prop where
  conserved : ∀ slot, s.counters slot + (s.threads.map fun t => t.counters slot).sum = s.calls slot
  bounded : ∀ slot, s.counters slot ≤ s.calls slot

/-- What the call subtracts is there. -/
def NoUnderflow (s : Metrics) (l : MetricsStep) : Prop :=
  ∀ t, s.threads[l.thread]? = some t →
    match l with
    | .recordCommand _ cmd =>
        let thread := bump (bump t.counters .commandsTotal) (.commandsByType cmd)
        thread .commandsTotal % flushBatch = 0 →
          flushBatch ≤ thread .commandsTotal ∧ flushBatch ≤ thread (.commandsByType cmd)
    | .record _ meter =>
        let thread := bump t.counters meter.slot
        thread meter.slot % flushBatch = 0 → flushBatch ≤ thread meter.slot
    | .flushAll _ => True

/-- A command that fills the batch of its thread is of the type of all the others in it. -/
def OneType (s : Metrics) (l : MetricsStep) : Prop :=
  ∀ t, s.threads[l.thread]? = some t →
    match l with
    | .recordCommand _ cmd => t.batch.length + 1 = flushBatch → ∀ c ∈ t.batch, c = cmd
    | _ => True

/-- The counters of a thread are those of its batch. -/
structure Shape (t : Thread) : Prop where
  total : t.counters .commandsTotal = t.batch.length
  byType : ∀ c, t.counters (.commandsByType c) = t.batch.count c
  short : t.batch.length < flushBatch
  meters : ∀ meter : Meter, t.counters meter.slot < flushBatch

section Calls

variable {counters shared thread : Counters} {slot : Slot} {t : Thread}

theorem wrappingAdd_eq {n m : Nat} (fits : n + m < 2 ^ 64) : wrappingAdd n m = n + m :=
  Nat.mod_eq_of_lt fits

theorem wrappingSub_eq {n m : Nat} (there : m ≤ n) (fits : n < 2 ^ 64) : wrappingSub n m = n - m := by
  rw [wrappingSub, show n + 2 ^ 64 - m = n - m + 2 ^ 64 by omega, Nat.add_mod_right]
  apply Nat.mod_eq_of_lt
  omega

theorem bump_apply (counters : Counters) {slot : Slot} (fits : counters slot + 1 < 2 ^ 64) (other : Slot) :
    bump counters slot other = counters other + if other = slot then 1 else 0 := by
  unfold bump
  by_cases same : other = slot
  · rw [same, Function.update_self, if_pos rfl, wrappingAdd_eq fits]
  · rw [Function.update_of_ne same, if_neg same, Nat.add_zero]

theorem moveBatch_thread (shared : Counters) (there : flushBatch ≤ thread slot) (fits : thread slot < 2 ^ 64) (other : Slot) :
    (moveBatch slot shared thread).2 other = thread other - if other = slot then flushBatch else 0 := by
  simp only [moveBatch]
  by_cases same : other = slot
  · rw [same, Function.update_self, if_pos rfl, wrappingSub_eq there fits]
  · rw [Function.update_of_ne same, if_neg same, Nat.sub_zero]

/-- A batch that is there is moved and not lost. -/
theorem moveBatch_sum (shared : Counters) (there : flushBatch ≤ thread slot)
    (fits : shared slot + thread slot < 2 ^ 64) (other : Slot) :
    (moveBatch slot shared thread).1 other + (moveBatch slot shared thread).2 other =
      shared other + thread other := by
  rw [moveBatch_thread shared there (by omega)]
  simp only [moveBatch]
  by_cases same : other = slot
  · rw [same, Function.update_self, if_pos rfl, wrappingAdd_eq (by omega)]
    omega
  · rw [Function.update_of_ne same, if_neg same, Nat.sub_zero]

/-- A command's two counters go up by one each. -/
theorem bump_command (thread : Counters) (cmd : CommandType) (fits : ∀ slot, thread slot + 1 < 2 ^ 64) (other : Slot) :
    bump (bump thread .commandsTotal) (.commandsByType cmd) other =
      thread other + counted (.recordCommand 0 cmd) other := by
  have first := bump_apply thread (fits .commandsTotal)
  have apart : bump thread .commandsTotal (.commandsByType cmd) = thread (.commandsByType cmd) := by
    rw [first, if_neg nofun, Nat.add_zero]
  rw [bump_apply _ (by rw [apart]; exact fits _), first, Nat.add_assoc]
  cases other <;> simp [counted]

theorem shape_new : Shape ⟨fun _ => 0, []⟩ :=
  ⟨rfl, fun _ => rfl, by decide, fun _ => Nat.zero_lt_of_lt (by decide : 0 < flushBatch)⟩

theorem meter_slot_ne_total (meter : Meter) : meter.slot ≠ .commandsTotal := by
  cases meter <;> exact nofun

theorem meter_slot_ne_type (meter : Meter) (c : CommandType) : meter.slot ≠ .commandsByType c := by
  cases meter <;> exact nofun

/-- A meter moves what it has counted itself. -/
theorem recordMeter_sum {meter : Meter} (few : thread meter.slot < flushBatch)
    (fits : ∀ slot, shared slot + thread slot + 1 < 2 ^ 64) (other : Slot) :
    (recordMeter meter.slot shared thread).1 other + (recordMeter meter.slot shared thread).2 other =
        shared other + thread other + (if other = meter.slot then 1 else 0) ∧
      (other ≠ meter.slot → (recordMeter meter.slot shared thread).2 other = thread other) ∧
      (recordMeter meter.slot shared thread).2 meter.slot < flushBatch := by
  have room := fits meter.slot
  have bumped := bump_apply thread (show thread meter.slot + 1 < 2 ^ 64 by omega)
  have here := bumped meter.slot
  rw [if_pos rfl] at here
  unfold recordMeter
  dsimp only
  by_cases full : bump thread meter.slot meter.slot % flushBatch = 0
  · have whole : flushBatch ≤ bump thread meter.slot meter.slot := by
      unfold flushBatch at full few ⊢
      omega
    have moved := moveBatch_thread shared whole (by omega)
    rw [if_pos full]
    refine ⟨?_, ?_, ?_⟩
    · rw [moveBatch_sum shared whole (by omega), bumped]
      omega
    · intro ne
      rw [moved, bumped, if_neg ne, if_neg ne]
      rfl
    · rw [moved, if_pos rfl, here]
      unfold flushBatch at few ⊢
      omega
  · rw [if_neg full]
    dsimp only
    refine ⟨?_, ?_, ?_⟩
    · rw [bumped]
      omega
    · intro ne
      rw [bumped, if_neg ne]
      rfl
    · unfold flushBatch at full few ⊢
      omega

variable {cmd : CommandType}

/-- With the batch of a thread in its counters, a batch is full when its 64th command comes. -/
theorem Shape.full_iff (shape : Shape t) :
    (t.counters .commandsTotal + 1) % flushBatch = 0 ↔ t.batch.length + 1 = flushBatch := by
  have short := shape.short
  rw [shape.total]
  unfold flushBatch at short ⊢
  omega

/-- The count of one type reaches the batch exactly when all of it is of that type. -/
theorem Shape.byType_full_iff (shape : Shape t) (full : t.batch.length + 1 = flushBatch) :
    flushBatch ≤ t.counters (.commandsByType cmd) + 1 ↔ ∀ c ∈ t.batch, c = cmd := by
  have most : t.batch.count cmd ≤ t.batch.length := List.count_le_length
  rw [shape.byType, ← full, Nat.add_le_add_iff_right]
  constructor
  · intro all c member
    exact (List.count_eq_length.1 (le_antisymm most all) c member).symm
  · intro same
    exact (List.count_eq_length.2 fun c member => (same c member).symm).ge

/-- A command is counted once, and a full batch of its type leaves the thread. -/
theorem recordCommand_counters (shape : Shape t) (fits : ∀ slot, shared slot + t.counters slot + 1 < 2 ^ 64)
    (oneType : t.batch.length + 1 = flushBatch → ∀ c ∈ t.batch, c = cmd) (other : Slot) :
    (recordCommand cmd shared t.counters).1 other + (recordCommand cmd shared t.counters).2 other =
        shared other + t.counters other + counted (.recordCommand 0 cmd) other ∧
      (recordCommand cmd shared t.counters).2 other + (if t.batch.length + 1 = flushBatch then
          flushBatch * counted (.recordCommand 0 cmd) other else 0) =
        t.counters other + counted (.recordCommand 0 cmd) other := by
  have bumped := bump_command t.counters cmd fun slot => by have := fits slot; omega
  have total := bumped .commandsTotal
  have byType := bumped (.commandsByType cmd)
  simp only [counted, true_or, or_true, if_true] at total byType
  unfold recordCommand
  generalize bump (bump t.counters .commandsTotal) (.commandsByType cmd) = both at bumped total byType ⊢
  dsimp only
  have boundary : both .commandsTotal % flushBatch = 0 ↔ t.batch.length + 1 = flushBatch := by
    rw [total, shape.full_iff]
  by_cases full : t.batch.length + 1 = flushBatch
  · rw [if_pos (boundary.2 full), if_pos full]
    have wholeTotal : flushBatch ≤ both .commandsTotal := by rw [total, shape.total, full]
    have wholeType : flushBatch ≤ both (.commandsByType cmd) := by
      rw [byType]
      exact (shape.byType_full_iff full).2 (oneType full)
    have fitsTotal := fits .commandsTotal
    have fitsType := fits (.commandsByType cmd)
    have first := moveBatch_thread shared wholeTotal (by omega)
    have sum := moveBatch_sum shared wholeTotal (by omega)
    generalize moveBatch .commandsTotal shared both = moved at first sum ⊢
    have sumType := sum (.commandsByType cmd)
    have leaves := first (.commandsByType cmd)
    rw [if_neg nofun, Nat.sub_zero] at leaves
    rw [moveBatch_sum _ (by omega) (by omega), moveBatch_thread _ (by omega) (by omega), sum, first, bumped]
    refine ⟨by omega, ?_⟩
    cases other with
    | commandsTotal => simp [counted]; omega
    | commandsByType c =>
        by_cases same : c = cmd
        · simp [counted, same]; omega
        · simp [counted, same]
    | _ => simp [counted]
  · rw [if_neg (mt boundary.1 full), if_neg full]
    dsimp only
    rw [bumped]
    omega

theorem recordCommand_shape (shape : Shape t) (fits : ∀ slot, shared slot + t.counters slot + 1 < 2 ^ 64)
    (oneType : t.batch.length + 1 = flushBatch → ∀ c ∈ t.batch, c = cmd) :
    Shape ⟨(recordCommand cmd shared t.counters).2, nextBatch t.batch cmd⟩ := by
  have counts := fun other => (recordCommand_counters shape fits oneType other).2
  have total := counts .commandsTotal
  have byType := fun c => counts (.commandsByType c)
  have meters := fun meter : Meter => counts meter.slot
  have short := shape.short
  simp only [counted, true_or, if_true, shape.total] at total
  simp only [counted, reduceCtorEq, false_or, Slot.commandsByType.injEq, shape.byType] at byType
  simp only [counted, meter_slot_ne_total, meter_slot_ne_type, or_self, if_false, Nat.mul_zero,
    ite_self, Nat.add_zero] at meters
  have fewMeters : ∀ meter : Meter, (recordCommand cmd shared t.counters).2 meter.slot < flushBatch :=
    fun meter => by rw [meters]; exact shape.meters meter
  unfold nextBatch
  by_cases full : t.batch.length + 1 = flushBatch
  · rw [if_pos full] at total
    refine ⟨?_, ?_, ?_, fewMeters⟩
    · rw [if_pos full]
      dsimp only [List.length_nil]
      omega
    · intro c
      have here := byType c
      rw [if_pos full] at here ⊢
      rw [List.count_nil]
      by_cases same : c = cmd
      · have most : t.batch.count c ≤ t.batch.length := List.count_le_length
        rw [if_pos same] at here
        dsimp only
        omega
      · have none : t.batch.count c = 0 :=
          List.count_eq_zero.2 fun member => same (oneType full c member)
        rw [if_neg same, none] at here
        exact here
    · rw [if_pos full]
      exact shape_new.short
  · rw [if_neg full] at total
    refine ⟨?_, ?_, ?_, fewMeters⟩
    · rw [if_neg full]
      exact total
    · intro c
      have here := byType c
      rw [if_neg full] at here ⊢
      rw [List.count_cons]
      dsimp only
      by_cases same : c = cmd
      · rw [if_pos same] at here
        simp only [same, beq_self_eq_true, if_true]
        rw [same] at here
        exact here
      · rw [if_neg same] at here
        rw [if_neg (by simpa using Ne.symm same)]
        exact here
    · rw [if_neg full]
      dsimp only [List.length_cons]
      omega

variable {s s' : Metrics} {l : MetricsStep}

theorem callOn_conserves (here : s.threads[l.thread]? = some t) (shape : Shape t)
    (fits : ∀ slot, s.counters slot + t.counters slot + 1 < 2 ^ 64) (oneType : OneType s l) :
    (∀ slot, (callOn s.counters t l).1 slot + (callOn s.counters t l).2.counters slot =
        s.counters slot + t.counters slot + counted l slot) ∧
      Shape (callOn s.counters t l).2 := by
  cases l with
  | recordCommand thread cmd =>
      have full := oneType t here
      exact ⟨fun slot => (recordCommand_counters shape fits full slot).1,
        recordCommand_shape shape fits full⟩
  | record thread meter =>
      have same : meter.record s.counters t.counters = recordMeter meter.slot s.counters t.counters := by
        cases meter <;> rfl
      have moved := recordMeter_sum (shape.meters meter) fits
      dsimp only [callOn]
      rw [same]
      refine ⟨fun slot => (moved slot).1, ?_⟩
      have others := fun other => (moved other).2.1
      refine ⟨?_, ?_, shape.short, ?_⟩
      · exact (others _ (meter_slot_ne_total meter).symm).trans shape.total
      · intro c
        exact (others _ (meter_slot_ne_type meter c).symm).trans (shape.byType c)
      · intro other
        by_cases this : other.slot = meter.slot
        · dsimp only
          rw [this]
          exact (moved meter.slot).2.2
        · dsimp only
          rw [others _ this]
          exact shape.meters other
  | flushAll thread =>
      refine ⟨?_, shape_new⟩
      intro slot
      have room := fits slot
      dsimp only [callOn, flushAll, counted]
      split
      · rw [wrappingAdd_eq (by omega)]
      · omega

end Calls

/-! ## Over whole runs -/

/-- What a run in which every full batch is of one type keeps, after at most `k` calls. -/
structure Kept (k : Nat) (s : Metrics) : Prop where
  conserved : ∀ slot, s.counters slot + (s.threads.map fun t => t.counters slot).sum = s.calls slot
  shapes : ∀ t ∈ s.threads, Shape t
  calls : ∀ slot, s.calls slot ≤ k

section Run

variable {k : Nat} {s s' : Metrics} {l : MetricsStep} {t : Thread}

theorem sum_moved {threads : List Thread} {i : Nat} (here : threads[i]? = some t) (f : Thread → Nat)
    (new : Thread) : ((threads.set i new).map f).sum + f t = (threads.map f).sum + f new := by
  induction threads generalizing i with
  | nil => cases here
  | cons first rest ih =>
      cases i with
      | zero =>
          cases here
          simp only [List.set_cons_zero, List.map_cons, List.sum_cons]
          omega
      | succ i =>
          have later := ih here
          simp only [List.set_cons_succ, List.map_cons, List.sum_cons]
          omega

theorem counted_le (l : MetricsStep) (slot : Slot) : counted l slot ≤ 1 := by
  cases l <;> simp only [counted]
  · split <;> omega
  · split <;> omega
  · omega

theorem kept_new (threads : Nat) : Kept 0 (.new threads) := by
  refine ⟨?_, ?_, ?_⟩
  · intro slot
    simp [Metrics.new]
  · intro t member
    rw [List.eq_of_mem_replicate member]
    exact shape_new
  · intro slot
    exact le_refl 0

theorem le_sum_threads (member : t ∈ s.threads) (slot : Slot) :
    t.counters slot ≤ (s.threads.map fun t => t.counters slot).sum := by
  obtain ⟨i, here⟩ := List.mem_iff_getElem?.1 member
  have without := sum_moved here (fun t => t.counters slot) ⟨fun _ => 0, []⟩
  dsimp only at without
  omega

/-- A thread that is alone reads the number of the calls. -/
theorem Conserved.readCount_eq (conserved : Conserved s) (alone : s.threads = [t]) (slot : Slot)
    (few : s.calls slot < 2 ^ 64) : readCount slot s.counters t.counters = s.calls slot := by
  have whole := conserved.conserved slot
  rw [alone, List.map_singleton, List.sum_singleton] at whole
  rw [readCount, wrappingAdd_eq (by omega), whole]

/-- No counter of a thread is near the end of its range. -/
theorem Kept.fits (kept : Kept k s) (few : k + 1 < 2 ^ 64) (member : t ∈ s.threads) (slot : Slot) :
    s.counters slot + t.counters slot + 1 < 2 ^ 64 := by
  have part := le_sum_threads member slot
  have whole := kept.conserved slot
  have most := kept.calls slot
  omega

theorem Kept.conserves (kept : Kept k s) : Conserved s := by
  refine ⟨kept.conserved, ?_⟩
  intro slot
  have whole := kept.conserved slot
  omega

theorem Kept.step (kept : Kept k s) (few : k + 1 < 2 ^ 64) (oneType : OneType s l)
    (taken : metricsStep s l = some s') : Kept (k + 1) s' := by
  obtain ⟨t, here, rfl⟩ := Option.map_eq_some_iff.1 taken
  have member := List.mem_of_getElem? here
  obtain ⟨sums, shape⟩ := callOn_conserves here (kept.shapes t member) (kept.fits few member) oneType
  refine ⟨?_, ?_, ?_⟩
  · intro slot
    have moved := sum_moved here (fun t => t.counters slot) (callOn s.counters t l).2
    have before := kept.conserved slot
    have call := sums slot
    dsimp only at moved ⊢
    omega
  · intro other otherMember
    rcases List.mem_or_eq_of_mem_set otherMember with old | new
    · exact kept.shapes other old
    · rw [new]
      exact shape
  · intro slot
    exact Nat.add_le_add (kept.calls slot) (counted_le l slot)

/-- A command takes no more than there is exactly when a batch it fills is of its type. -/
theorem Kept.noUnderflow_iff (kept : Kept k s) (few : k + 1 < 2 ^ 64) : NoUnderflow s l ↔ OneType s l := by
  apply forall_congr'
  intro t
  apply forall_congr'
  intro here
  have member := List.mem_of_getElem? here
  have shape := kept.shapes t member
  have fits := kept.fits few member
  cases l with
  | recordCommand thread cmd =>
      have bumped := bump_command t.counters cmd fun slot => by
        have := fits slot
        omega
      have total := bumped .commandsTotal
      have byType := bumped (.commandsByType cmd)
      simp only [counted, true_or, or_true, if_true] at total byType
      dsimp only
      rw [total, byType, shape.full_iff]
      apply forall_congr'
      intro full
      rw [shape.byType_full_iff full, shape.total, full]
      exact and_iff_right (le_refl _)
  | record thread meter =>
      have room := fits meter.slot
      have here := bump_apply t.counters (show t.counters meter.slot + 1 < 2 ^ 64 by omega) meter.slot
      rw [if_pos rfl] at here
      dsimp only
      rw [here]
      refine iff_of_true ?_ trivial
      intro boundary
      unfold flushBatch at boundary ⊢
      omega
  | flushAll thread => exact Iff.rfl

/-- The two conditions agree step by step. -/
theorem Kept.conserves_iff {labels : List MetricsStep} (kept : Kept k s)
    (few : k + labels.length < 2 ^ 64) (reached : run metricsStep s labels = some s') :
    (Along metricsStep (fun s l => Conserved s ∧ NoUnderflow s l) s labels ∧ Conserved s') ↔
      Along metricsStep OneType s labels := by
  induction labels generalizing k s with
  | nil =>
      cases reached
      exact iff_of_true ⟨trivial, kept.conserves⟩ trivial
  | cons l labels ih =>
      obtain ⟨mid, first, rest⟩ := Option.bind_eq_some_iff.1 reached
      rw [List.length_cons] at few
      have same : NoUnderflow s l ↔ OneType s l := kept.noUnderflow_iff (by omega)
      constructor
      · rintro ⟨along, last⟩
        have oneType := same.1 along.1.2
        have next := kept.step (by omega) oneType first
        exact .cons first oneType ((ih next (by omega) rest).1 ⟨along.2 mid first, last⟩)
      · intro along
        have next := kept.step (by omega) along.1 first
        obtain ⟨later, last⟩ := (ih next (by omega) rest).2 (along.2 mid first)
        exact ⟨.cons first ⟨kept.conserves, same.2 along.1⟩ later, last⟩

end Run

/-- In every run of fewer than 2^64 calls the counters are conserved, and none is
decremented below zero, exactly if every full batch of a thread is of one type. -/
theorem counters_conserved_iff (threads : Nat) (labels : List MetricsStep) (s : Metrics)
    (few : labels.length < 2 ^ 64) (reached : run metricsStep (.new threads) labels = some s) :
    (Along metricsStep (fun s l => Conserved s ∧ NoUnderflow s l) (.new threads) labels ∧ Conserved s) ↔
      Along metricsStep OneType (.new threads) labels :=
  (kept_new threads).conserves_iff (by omega) reached

instance (s : Metrics) : ∀ l, Decidable (OneType s l)
  | .recordCommand thread cmd =>
      inferInstanceAs (Decidable (∀ t, t ∈ s.threads[thread]? →
        t.batch.length + 1 = flushBatch → ∀ c ∈ t.batch, c = cmd))
  | .record _ _ | .flushAll _ => isTrue fun _ _ => trivial

/-- Two threads: one fills a batch of GETs, the other counts a SET and flushes it. -/
def twoThreads : List MetricsStep :=
  List.replicate 64 (.recordCommand 0 .get) ++ [.recordCommand 1 .set, .record 1 .hit, .flushAll 1]

theorem counters_conserved_twoThreads : ∃ s, run metricsStep (.new 2) twoThreads = some s ∧ Conserved s := by
  refine ⟨_, rfl, ((counters_conserved_iff 2 twoThreads _ (by decide) rfl).2 ?_).2⟩
  decide +kernel

/-- 63 GETs and a SET: the batch is moved into the count of the SETs. -/
def mixedBatch : List MetricsStep := List.replicate 63 (.recordCommand 0 .get) ++ [.recordCommand 0 .set]

theorem mixedBatch_counts_sets : ∃ s, run metricsStep (.new 1) mixedBatch = some s ∧
    s.calls (.commandsByType .set) = 1 ∧ s.counters (.commandsByType .set) = 64 ∧
    (s.threads.map fun t => t.counters (.commandsByType .set)) = [2 ^ 64 - 63] ∧ ¬ Conserved s := by
  refine ⟨_, rfl, by decide +kernel, by decide +kernel, by decide +kernel, fun conserved => ?_⟩
  exact absurd (conserved.bounded (.commandsByType .set)) (by decide +kernel)

end ZetDb.Observability
