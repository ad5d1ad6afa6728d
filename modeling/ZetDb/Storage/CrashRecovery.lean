/-
# Storage.CrashRecovery -- what is recovered of the log after a crash

A crash keeps of the file what the last `sync_all` covers, and any part of what was
written since.  `flushed_survives_crash` joins the writer and the replay: in every run
without a failed write in which no entry fills the batch, after a crash at any later
moment, recovery executes the commands that had entered by a successful flush, in
their order, before anything else.

The flush under policy `Everysec` looks at the batch under its guard and writes it
under the guard of the file as well.  That nothing enters in between is the mutual
exclusion of the batch (`sees_empty`).
-/
import ZetDb.Storage.TornMset
import ZetDb.Storage.AofWriterLog
import ZetDb.Storage.AofWriterLocks

namespace ZetDb.Storage.AofWriter

set_option autoImplicit false

open ZetDb.Theory.Wire ZetDb.Theory.Text ZetDb.Theory.Locks ZetDb.Domain ZetDb.Application
open ZetDb.Theory.Runs (Along run_append run_cons run_invariant)

/-- The first `n` entries are in the part of the file that is synced. -/
def Flushed (d : Data) (n : Nat) : Prop :=
  n ≤ d.entered.length ∧ (d.entered.take n).flatten <+: d.file.take d.synced

/-- The step writes the batch and syncs the file. -/
def flushes (policy : FsyncPolicy) (s : Writer) (ev : Event) : Bool :=
  ev.choice.sync &&
    match s.pc ev.task with
    | .flushWrite => policy = .always
    | .neededWrite _ => true
    | _ => false

/-! ## The log only grows -/

section Grow

variable {policy : FsyncPolicy} {d d' : Data} {o : Outcome} {n : Nat}

theorem Flushed.grow (flushed : Flushed d n) (grows : Grows d d') : Flushed d' n := by
  refine ⟨grows.length_le flushed.1, ?_⟩
  rw [grows.take_entered flushed.1]
  exact flushed.2.trans grows.durable

theorem grows_writeBatch (o : Outcome) (d : Data) : Grows d (writeBatch o d).2 := by
  rcases writeBatch_cases o d with done | ⟨part, failed⟩
  · rw [done]
    exact ⟨List.prefix_append _ _, List.prefix_rfl, take_prefix_append _ _ _⟩
  · rw [failed]
    exact grows_write d part

theorem grows_syncAll (o : Outcome) (d : Data) : Grows d (syncAll o d).2 := by
  rcases syncAll_cases o d with done | failed
  · rw [done]
    refine ⟨List.prefix_rfl, List.prefix_rfl, ?_⟩
    show d.file.take d.synced <+: d.file.take d.file.length
    rw [List.take_length]
    exact List.take_prefix _ _
  · rw [failed]
    exact .refl d

/-- Without a rewrite every piece of work grows the log. -/
theorem work_grows {p : Pc} {f : Outcome → Data → Data × Pc} (here : code policy p = .work f)
    (know : CarriesNothing p) (o : Outcome) (d : Data) : Grows d (f o d).1 := by
  cases p with
  | leave guards mine ok =>
      cases guards with
      | cons l guards => cases here
      | nil =>
          cases here
          exact .refl d
  | appendExtend entry =>
      cases here
      exact ⟨List.prefix_rfl, List.prefix_append _ _, List.prefix_rfl⟩
  | batchWriteBatch entry mine =>
      cases here
      have grows := grows_writeBatch o d
      unfold batchWrite
      split
      · rename_i wrote
        rwa [wrote] at grows
      · rename_i failed
        rwa [failed] at grows
  | batchWriteEntry entry mine =>
      cases here
      unfold batchEntry writeAll
      cases o.write with
      | none => exact grows_write d entry
      | some k => exact grows_write d (entry.take k)
  | batchFsync mine =>
      cases here
      cases policy with
      | always => exact grows_syncAll o d
      | everysec => exact .refl d
      | no => exact .refl d
  | batchElapsed mine =>
      cases here
      have grows := grows_syncAll o d
      unfold batchStamp
      split
      · split
        · rename_i synced
          rw [synced] at grows
          exact ⟨grows.file, grows.entered, grows.durable⟩
        · rename_i failed
          rwa [failed] at grows
      · exact .refl d
  | flushWrite =>
      cases here
      have grows := grows_writeBatch o d
      unfold flushWork
      split
      · rename_i failed
        rwa [failed] at grows
      · rename_i d' wrote
        rw [wrote] at grows
        split
        · exact grows.trans (grows_syncAll o d')
        · exact grows
  | neededElapsed =>
      cases here
      exact .refl d
  | neededIsEmpty =>
      cases here
      exact .refl d
  | neededWrite empty =>
      cases here
      have grows : Grows d (if empty then (true, d) else writeBatch o d).2 := by
        cases empty with
        | true => exact .refl d
        | false => exact grows_writeBatch o d
      unfold neededWork
      split
      · rename_i failed
        rwa [failed] at grows
      · rename_i d' wrote
        rw [wrote] at grows
        have more := grows.trans (grows_syncAll o d')
        split
        · rename_i synced
          rwa [synced] at more
        · rename_i failed
          rwa [failed] at more
  | neededStamp =>
      cases here
      exact ⟨List.prefix_rfl, List.prefix_rfl, List.prefix_rfl⟩
  | finalWriteBatch tmp => exact know.elim
  | finalRename tmp => exact know.elim
  | _ => cases here

end Grow

/-! ## The batch under its guard -/

/-- What `flush_if_needed` has seen of the batch. -/
def SeesEmpty (d : Data) : Pc → Prop
  | .neededLockFile true | .neededWrite true => d.batch = []
  | _ => True

section Guarded

variable {policy : FsyncPolicy} {s s' : Writer} {ev : Event}

/-- Work that changes the batch is done under its guard. -/
theorem work_batch {p : Pc} {f : Outcome → Data → Data × Pc} (here : code policy p = .work f) (o : Outcome)
    (d : Data) : (f o d).1.batch = d.batch ∨ held p .batch = true := by
  cases p with
  | leave guards mine ok =>
      cases guards with
      | cons l guards => cases here
      | nil =>
          cases here
          exact .inl rfl
  | appendExtend entry => exact .inr rfl
  | batchWriteBatch entry mine => exact .inr rfl
  | batchWriteEntry entry mine =>
      cases here
      left
      unfold batchEntry writeAll
      cases o.write <;> rfl
  | batchFsync mine =>
      cases here
      left
      unfold batchSync
      cases policy with
      | always => rcases syncAll_cases o d with same | same <;> rw [same]
      | everysec => rfl
      | no => rfl
  | batchElapsed mine =>
      cases here
      left
      unfold batchStamp
      split
      · rcases syncAll_cases o d with same | same <;> rw [same]
      · rfl
  | flushWrite => exact .inr rfl
  | neededElapsed =>
      cases here
      exact .inl rfl
  | neededIsEmpty => exact .inr rfl
  | neededWrite empty => exact .inr rfl
  | neededStamp =>
      cases here
      exact .inl rfl
  | finalWriteBatch tmp => exact .inr rfl
  | finalRename tmp =>
      cases here
      left
      unfold finalSwap
      split
      · rfl
      · split <;> rfl
  | _ => cases here

theorem sees_acquire {d : Data} {p next : Pc} {l : Mutex} (here : code policy p = .acquire l next)
    (sees : SeesEmpty d p) : SeesEmpty d next := by
  cases p with
  | leave guards => cases guards <;> cases here
  | neededLockFile empty =>
      cases here
      cases empty with
      | true => exact sees
      | false => trivial
  | _ => cases here <;> trivial

theorem sees_release {d : Data} {p next : Pc} {l : Mutex} (here : code policy p = .release l next) :
    SeesEmpty d next := by
  cases p with
  | leave guards =>
      cases guards with
      | nil => cases here
      | cons l guards =>
          cases here
          trivial
  | _ => cases here <;> trivial

/-- Only the look at the batch leads to a point that relies on it. -/
theorem sees_leads {d : Data} {p next : Pc} (leads : WorkLeads policy p next) (other : p ≠ .neededIsEmpty) :
    SeesEmpty d next := by
  cases leads with
  | looked empty => exact absurd rfl other
  | begins mine ok call =>
      cases call with
      | flushIfNeeded =>
          simp only [begin]
          split <;> trivial
      | _ => trivial
  | _ => trivial

theorem sees_work {p : Pc} {f : Outcome → Data → Data × Pc} (here : code policy p = .work f) (o : Outcome)
    (d : Data) : SeesEmpty (f o d).1 (f o d).2 := by
  by_cases looks : p = .neededIsEmpty
  · subst looks
    cases here
    show SeesEmpty d (.neededLockFile d.batch.isEmpty)
    cases empty : d.batch.isEmpty with
    | true => exact List.isEmpty_iff.1 empty
    | false => trivial
  · exact sees_leads (work_leads here o d) looks

/-- A point that relies on the empty batch holds its guard. -/
theorem held_of_sees {d d' : Data} {p : Pc} (other : d'.batch = d.batch ∨ held p .batch = false)
    (sees : SeesEmpty d p) : SeesEmpty d' p := by
  cases p with
  | neededLockFile empty =>
      cases empty with
      | true =>
          rcases other with same | free
          · exact same.trans sees
          · cases free
      | false => trivial
  | neededWrite empty =>
      cases empty with
      | true =>
          rcases other with same | free
          · exact same.trans sees
          · cases free
      | false => trivial
  | _ => trivial

/-- Mutual exclusion: nobody else changes the batch between the look at it and the write. -/
theorem sees_step (sound : HeldSound DropsOnce held s) (sees : ∀ t, SeesEmpty s.data (s.pc t))
    (next : step (code policy) s ev = some s') (t : Nat) : SeesEmpty s'.data (s'.pc t) := by
  rcases step_cases next with ⟨l, p, here, -, rfl⟩ | ⟨l, p, here, rfl⟩ | ⟨f, here, rfl⟩
  · exact forall_update (sees_acquire here (sees ev.task)) sees t
  · exact forall_update (sees_release here) sees t
  · by_cases mine : t = ev.task
    · subst mine
      show SeesEmpty _ (Function.update s.pc ev.task _ ev.task)
      rw [Function.update_self]
      exact sees_work here ev.choice s.data
    · show SeesEmpty _ (Function.update s.pc ev.task _ t)
      rw [Function.update_of_ne mine]
      refine held_of_sees ?_ (sees t)
      rcases work_batch here ev.choice s.data with same | holds
      · exact .inl same
      · right
        by_contra also
        have first := (sound.owner .batch ev.task).2 holds
        have second := (sound.owner .batch t).2 (Bool.eq_true_of_not_eq_false also)
        exact mine (Option.some.inj (second.symm.trans first))

theorem sees_empty {now : Instant} {events : List Event} (reached : run policy (opened now) events = some s)
    (t : Nat) : SeesEmpty s.data (s.pc t) := by
  have kept : HeldSound DropsOnce held s ∧ ∀ t, SeesEmpty s.data (s.pc t) := by
    refine run_invariant (I := fun s => HeldSound DropsOnce held s ∧ ∀ t, SeesEmpty s.data (s.pc t)) ?_ ?_
      (Along.of_forall (fun _ _ => trivial) (opened now) events) reached
    · rintro s ev s' ⟨sound, sees⟩ - next
      exact ⟨held_step guards_annotated sound next, sees_step sound sees next⟩
    · refine ⟨held_start ?_ (fun l => rfl) _, fun t => trivial⟩
      exact List.nodup_nil
  exact kept.2 t

end Guarded

/-! ## The flush, the crash and the recovery -/

section Recovery

variable {policy : FsyncPolicy} {s s' : Writer} {ev : Event}

/-- A successful flush leaves every entry in the synced part of the file. -/
theorem flushed_by (good : Concatenated s.data) (sees : SeesEmpty s.data (s.pc ev.task))
    (once : EntersOnce s ev) (flush : flushes policy s ev = true) (next : step (code policy) s ev = some s') :
    Flushed s'.data s.data.entered.length := by
  obtain ⟨sync, here⟩ := (Bool.and_eq_true _ _).mp flush
  have synced : ∀ d : Data, syncAll ev.choice d = (true, { d with synced := d.file.length }) := by
    intro d
    rw [syncAll, if_pos sync]
  have whole : ∀ d : Data, d.entered = s.data.entered → d.synced = d.file.length → Concatenated d →
      d.batch = [] → Flushed d s.data.entered.length := by
    intro d entered all good empty
    unfold Concatenated at good
    rw [empty, List.append_nil] at good
    refine ⟨by rw [entered], ?_⟩
    rw [← entered, List.take_length, all, List.take_length, good]
  have moved := good.writeBatch (o := ev.choice) once.1
  rw [writeBatch_ok once.1] at moved
  split at here
  · rename_i at_
    cases policy with
    | everysec => cases here
    | no => cases here
    | always =>
        rcases step_cases next with ⟨l, p, code_, -, rfl⟩ | ⟨l, p, code_, rfl⟩ | ⟨f, code_, rfl⟩
        · rw [at_] at code_
          cases code_
        · rw [at_] at code_
          cases code_
        · rw [at_] at code_
          cases code_
          simp only [flushWork, writeBatch_ok once.1, synced, if_true]
          exact whole _ rfl rfl moved rfl
  · rename_i empty at_
    rcases step_cases next with ⟨l, p, code_, -, rfl⟩ | ⟨l, p, code_, rfl⟩ | ⟨f, code_, rfl⟩
    · rw [at_] at code_
      cases code_
    · rw [at_] at code_
      cases code_
    · rw [at_] at code_ sees
      cases code_
      cases empty with
      | true =>
          simp only [neededWork, if_true, synced]
          exact whole _ rfl rfl good sees
      | false =>
          simp only [neededWork, Bool.false_eq_true, if_false, writeBatch_ok once.1, synced]
          exact whole _ rfl rfl moved rfl
  · cases here

/-- The commands whose entries are wholly before the cut come first. -/
theorem recovered_front {cs : List Command} {cut n : Nat} (inside : (logBytes (cs.take n)).length ≤ cut) :
    cs.take n <+: (recovered cs cut).1 := by
  induction cs generalizing cut n with
  | nil => simp
  | cons c cs ih =>
      cases n with
      | zero => exact List.nil_prefix
      | succ n =>
          rw [List.take_succ_cons, logBytes_cons, List.length_append] at inside
          rw [List.take_succ_cons, recovered, if_pos (by omega)]
          exact List.cons_prefix_cons.2 ⟨rfl, ih (by omega)⟩

theorem flatten_aofBytes (cs : List Command) : (cs.map Command.aofBytes).flatten = logBytes cs := rfl

/-- Every entry once, from any state of which it holds. -/
theorem once_invariant {events : List Event} (start : Concatenated s.data ∧ ∀ t, CarriesNothing (s.pc t))
    (along : Along (step (code policy)) EntersOnce s events)
    (reached : run policy s events = some s') : Concatenated s'.data ∧ ∀ t, CarriesNothing (s'.pc t) :=
  local_invariant (I := Concatenated) (Q := fun _ => CarriesNothing) carriesNothing_acquire
    carriesNothing_release
    (fun here good know once =>
      have kept := concatenated_work here good know once
      ⟨kept.1, kept.2, fun _ other => other⟩)
    start along reached

/-- What is flushed stays so. -/
theorem flushed_run {n : Nat} {events : List Event} (flushed : Flushed s.data n)
    (start : Concatenated s.data ∧ ∀ t, CarriesNothing (s.pc t))
    (along : Along (step (code policy)) EntersOnce s events)
    (reached : run policy s events = some s') : Flushed s'.data n := by
  have kept := local_invariant (I := fun d => Concatenated d ∧ Flushed d n) (Q := fun _ => CarriesNothing)
    carriesNothing_acquire carriesNothing_release
    (fun here good know once =>
      have kept := concatenated_work here good.1 know once
      ⟨⟨kept.1, good.2.grow (work_grows here know _ _)⟩, kept.2, fun _ other => other⟩)
    ⟨⟨start.1, flushed⟩, start.2⟩ along reached
  exact kept.1.2

end Recovery

/-- After a crash at any moment behind a successful flush the disk holds some first part
of the file, the synced part at least.  Recovery executes the commands that had entered
by the flush, then those that reached the disk, and then whatever is unread of an MSET
that the crash has torn. -/
theorem flushed_survives_crash (policy : FsyncPolicy) (now : Instant) (earlier later : List Event) (ev : Event)
    (mid s : Writer) (cs : List Command)
    (along : Along (step (code policy)) EntersOnce (opened now) (earlier ++ ev :: later))
    (before : run policy (opened now) earlier = some mid) (flush : flushes policy mid ev = true)
    (reached : run policy (opened now) (earlier ++ ev :: later) = some s)
    (commands : s.data.entered = cs.map Command.aofBytes) (ok : ∀ c ∈ cs, Representable c) (cut : Nat)
    (durable : s.data.synced ≤ cut) (written : cut ≤ s.data.file.length) (iter : Iter) (m : MetricsSnapshot)
    (restart : Instant) (e : DashMapEngine) (unlimited : e.maxKeys = 0) :
    cs.take mid.data.entered.length <+: (recovered cs cut).1 ∧
      replayAof iter restart (some (s.data.file.take cut)) e =
        (replayAof iter restart (some (recovered cs cut).2)
          (execAll iter m restart e (recovered cs cut).1)).map fun r =>
            (r.1, (recovered cs cut).1.length + r.2) := by
  have begins : Concatenated (opened now).data ∧ ∀ t, CarriesNothing ((opened now).pc t) :=
    ⟨rfl, fun _ => trivial⟩
  have log : s.data.file ++ s.data.batch = logBytes cs := by
    rw [← flatten_aofBytes, ← commands]
    exact (once_invariant begins along reached).1
  have disk : s.data.file.take cut = (logBytes cs).take cut := by
    rw [← log, List.take_append_of_le_length written]
  obtain ⟨first, rest⟩ := along.split
  have still : Along (step (code policy)) EntersOnce mid (ev :: later) := rest mid before
  have good := once_invariant begins first before
  have flushed : Flushed s.data mid.data.entered.length := by
    unfold run at reached
    rw [run_append, show Theory.Runs.run (step (code policy)) (opened now) earlier = some mid from before,
      Option.bind_some, run_cons] at reached
    obtain ⟨after, next, rest⟩ := Option.bind_eq_some_iff.1 reached
    have one : run policy mid [ev] = some after := by
      unfold run
      rw [run_cons, next]
      rfl
    have alone : Along (step (code policy)) EntersOnce mid [ev] := ⟨still.1, fun _ _ => trivial⟩
    exact flushed_run (flushed_by good.1 (sees_empty before ev.task) still.1 flush next)
      (once_invariant good alone one) (still.2 after next) rest
  refine ⟨recovered_front ?_, ?_⟩
  · obtain ⟨-, inside⟩ := flushed
    have length := inside.length_le
    rw [commands, ← List.map_take, flatten_aofBytes, List.length_take] at length
    omega
  · rw [disk]
    exact replayAof_taken iter m restart e cs cut unlimited ok

/-- A client deletes, the ticker comes up to its write; behind it another client increments. -/
def beforeTick : List Event :=
  List.replicate 4 (calm 0 (.appendRaw (Command.del (ascii "k")).aofBytes) 5) ++
    List.replicate 6 (calm 2 .flushIfNeeded 2000000000)

def behindTick : List Event :=
  List.replicate 4 (calm 2 .flushIfNeeded 2000000000) ++
    List.replicate 4 (calm 1 (.appendRaw (Command.incr (ascii "n")).aofBytes) 2000000001)

/-- The crash comes before the second entry is written. -/
theorem flushed_survives_crash_tick :
    ∃ s, run .everysec (opened 0) (beforeTick ++ calm 2 .flushIfNeeded 2000000000 :: behindTick) = some s ∧
      s.data.entered = [Command.del (ascii "k"), .incr (ascii "n")].map Command.aofBytes ∧
      [Command.del (ascii "k")] <+: (recovered [.del (ascii "k"), .incr (ascii "n")] 4).1 ∧
      replayAof .some 0 (some (s.data.file.take 4)) .new =
        (replayAof .some 0 (some (recovered [.del (ascii "k"), .incr (ascii "n")] 4).2)
          (execAll .some .new 0 .new (recovered [.del (ascii "k"), .incr (ascii "n")] 4).1)).map fun r =>
            (r.1, (recovered [.del (ascii "k"), .incr (ascii "n")] 4).1.length + r.2) :=
  ⟨_, rfl, rfl, flushed_survives_crash .everysec 0 beforeTick behindTick (calm 2 .flushIfNeeded 2000000000) _ _
    [.del (ascii "k"), .incr (ascii "n")] (by decide +kernel) rfl rfl rfl rfl (by decide) 4 (by decide) (by decide)
    .some .new 0 .new rfl⟩

end ZetDb.Storage.AofWriter
