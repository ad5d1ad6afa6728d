/-
# Storage.FailedWrites -- a write that fails half way

When `write_all` fails, a part of the batch may already be in the file.  The flush
returns the error and keeps the whole batch, the session ignores the error, and the
next flush that succeeds writes the batch again from its start.  Nothing truncates
the file to the last whole entry in between.  And `flush_batch` writes the entry that
filled the batch once more behind it, or a part of it.

* `aofBytes_prefix_free`, `logBytes_entries`: whole entries can be told apart, so a
  file is a log of whole entries in one way at most.
* `step_writes`: what one step of the writer puts into the file, and how much of that
  is no part of the log.
* `logIntact_iff`: after any interleaving of the calls that leaves an empty batch, the
  log is intact exactly if no step of the run wrote a byte beside it.
* `retry_replays_twice`: a write that stops between two entries has the entries in
  front of it replayed twice.
-/
import ZetDb.Storage.AofReplay
import ZetDb.Storage.AofWriterLog

namespace ZetDb.Storage.AofWriter

set_option autoImplicit false

open ZetDb.Theory.Wire ZetDb.Theory.Text ZetDb.Theory.Locks ZetDb.Domain ZetDb.Application
open ZetDb.Theory.Runs (Along along_of_unbroken run_invariant)

/-! ## Whole entries can be told apart -/

/-- No entry is the beginning of another. -/
theorem aofBytes_prefix_free {c d : Command} (fits : FieldsFit c) (fits' : FieldsFit d) {rest rest' : Bytes}
    (same : c.aofBytes ++ rest = d.aofBytes ++ rest') : c.aofBytes = d.aofBytes ∧ rest = rest' := by
  -- the replay reads one entry there, and stands behind it
  have start := At.start (c.aofBytes ++ rest)
  obtain ⟨opcode, more, sees, read⟩ :=
    replayEntry_whole Iter.some .new 0 (e := .new) fits rfl start
  rw [same] at start
  obtain ⟨opcode', more', sees', read'⟩ :=
    replayEntry_whole Iter.some .new 0 (e := .new) fits' rfl start
  rw [same] at sees read
  cases sees.symm.trans sees'
  have ends := congrArg (Option.map Prod.snd) (read.symm.trans read')
  simp only [Option.map_some, Option.some.injEq, Nat.zero_add] at ends
  exact List.append_inj same ends

/-- A log of whole entries determines them. -/
theorem logBytes_entries {xs ys : List Command} (fits : ∀ x ∈ xs, FieldsFit x)
    (fits' : ∀ y ∈ ys, FieldsFit y) (same : logBytes xs = logBytes ys) :
    xs.map Command.aofBytes = ys.map Command.aofBytes := by
  induction xs generalizing ys with
  | nil =>
      cases ys with
      | nil => rfl
      | cons y ys =>
          have filled := aofBytes_ne_nil (fits' y (by simp))
          rw [logBytes_nil, logBytes_cons] at same
          exact absurd (List.append_eq_nil_iff.1 same.symm).1 filled
  | cons x xs ih =>
      cases ys with
      | nil =>
          have filled := aofBytes_ne_nil (fits x (by simp))
          rw [logBytes_nil, logBytes_cons] at same
          exact absurd (List.append_eq_nil_iff.1 same).1 filled
      | cons y ys =>
          rw [logBytes_cons, logBytes_cons] at same
          obtain ⟨first, rest⟩ := aofBytes_prefix_free (fits x (by simp)) (fits' y (by simp)) same
          have others := ih (fun z inside => fits z (by simp [inside]))
            (fun z inside => fits' z (by simp [inside])) rest
          rw [List.map_cons, List.map_cons, first, others]

/-! ## What is written beside the log -/

/-- What a `write_all` puts into the file. -/
def put (o : Outcome) (bytes : Bytes) : Bytes :=
  match o.write with
  | none => bytes
  | some n => bytes.take n

/-- What a write of the batch leaves in the file when it fails: the batch is kept, and
the next flush writes it from its start. -/
def leftover (o : Outcome) (batch : Bytes) : Bytes :=
  match o.write with
  | none => []
  | some n => batch.take n

/-- What the work at a program point puts into the file beside the log: a part of the
batch, or what `flush_batch` writes of its own entry, which is in the batch already. -/
def strayAt (p : Pc) (o : Outcome) (d : Data) : Bytes :=
  match p with
  | .batchWriteBatch _ _ | .flushWrite | .neededWrite false => leftover o d.batch
  | .batchWriteEntry entry _ => put o entry
  | _ => []

/-- The step writes nothing beside the log. -/
def Clean (s : Writer) (ev : Event) : Prop := strayAt (s.pc ev.task) ev.choice s.data = []

instance (s : Writer) (ev : Event) : Decidable (Clean s ev) := inferInstanceAs (Decidable (_ = _))

/-- Inside `finalize_rewrite`, which puts another file in the place of the log. -/
def inRewrite : Pc → Bool
  | .finalLockFile _ | .finalLockBatch _ | .finalWriteBatch _ | .finalDropBatch _ | .finalRename _ => true
  | _ => false

/-- The entries `new` have entered, and beside them the bytes `stray` have come into the
file; without these, the file and the batch together have grown by the entries. -/
structure Writes (d d' : Data) (new : List Bytes) (stray : Bytes) : Prop where
  entered : d'.entered = d.entered ++ new
  length : d'.file.length + d'.batch.length =
    d.file.length + d.batch.length + new.flatten.length + stray.length
  clean : stray = [] → d'.file ++ d'.batch = d.file ++ d.batch ++ new.flatten

/-- The file, the batch and what has entered are as before. -/
structure Untouched (d d' : Data) : Prop where
  file : d'.file = d.file
  batch : d'.batch = d.batch
  entered : d'.entered = d.entered

section Work

variable {d d' d'' : Data} {o : Outcome} {new : List Bytes} {stray : Bytes}

theorem Untouched.refl (d : Data) : Untouched d d := ⟨rfl, rfl, rfl⟩

theorem untouched_syncAll (o : Outcome) (d : Data) : Untouched d (syncAll o d).2 := by
  rcases syncAll_cases o d with synced | failed
  · rw [synced]
    exact ⟨rfl, rfl, rfl⟩
  · rw [failed]
    exact .refl d

theorem Writes.untouched (writes : Writes d d' new stray) (same : Untouched d' d'') : Writes d d'' new stray := by
  refine ⟨same.entered.trans writes.entered, ?_, fun nothing => ?_⟩
  · rw [same.file, same.batch]
    exact writes.length
  · rw [same.file, same.batch]
    exact writes.clean nothing

theorem Writes.nothing (d : Data) : Writes d d [] [] := ⟨by simp, by simp, by simp⟩

theorem Untouched.writes (same : Untouched d d') : Writes d d' [] [] := (Writes.nothing d).untouched same

theorem writes_writeBatch (o : Outcome) (d : Data) : Writes d (writeBatch o d).2 [] (leftover o d.batch) := by
  cases outcome : o.write with
  | none =>
      rw [writeBatch_ok outcome, leftover, outcome]
      exact ⟨by simp, by simp, by simp⟩
  | some n =>
      rw [leftover, outcome]
      cases empty : d.batch with
      | nil =>
          have same : writeBatch o d = (true, d) := by rw [writeBatch, empty]; rfl
          simp only [same, List.take_nil]
          exact .nothing d
      | cons b batch =>
          have part : writeBatch o d = (false, { d with file := d.file ++ d.batch.take n }) := by
            rw [writeBatch, writeAll, outcome, empty]
            rfl
          rw [part, ← empty]
          refine ⟨by simp, ?_, fun nothing => ?_⟩
          · simp only [List.length_append, List.flatten_nil, List.length_nil]
            omega
          · simp only [nothing, List.append_nil, List.flatten_nil]

theorem writes_writeAll (o : Outcome) (entry : Bytes) (d : Data) :
    Writes d (writeAll o entry d).2 [] (put o entry) := by
  have wrote : (writeAll o entry d).2 = { d with file := d.file ++ put o entry } := by
    unfold writeAll put
    cases o.write <;> rfl
  rw [wrote]
  refine ⟨by simp, ?_, fun nothing => ?_⟩
  · simp only [List.length_append, List.flatten_nil, List.length_nil]
    omega
  · simp only [nothing, List.append_nil, List.flatten_nil]

/-- Outside a rewrite every piece of work writes what it says. -/
theorem work_writes {policy : FsyncPolicy} {p : Pc} {f : Outcome → Data → Data × Pc}
    (here : code policy p = .work f) (outside : inRewrite p = false) (o : Outcome) (d : Data) :
    ∃ new, Writes d (f o d).1 new (strayAt p o d) := by
  cases p with
  | leave guards mine ok =>
      cases guards with
      | cons l guards => cases here
      | nil =>
          cases here
          exact ⟨[], .nothing d⟩
  | appendExtend entry =>
      cases here
      refine ⟨[entry], rfl, ?_, fun _ => ?_⟩
      · simp only [extend, strayAt, List.length_append, List.flatten_cons, List.flatten_nil, List.length_nil]
        omega
      · simp [extend]
  | batchWriteBatch entry mine =>
      cases here
      have writes := writes_writeBatch o d
      refine ⟨[], ?_⟩
      show Writes d (batchWrite entry mine o d).1 [] (leftover o d.batch)
      unfold batchWrite
      generalize writeBatch o d = r at writes ⊢
      obtain ⟨ok, d'⟩ := r
      cases ok <;> exact writes
  | batchWriteEntry entry mine =>
      cases here
      have writes := writes_writeAll o entry d
      refine ⟨[], ?_⟩
      show Writes d (batchEntry entry mine o d).1 [] (put o entry)
      unfold batchEntry
      generalize writeAll o entry d = r at writes ⊢
      obtain ⟨ok, d'⟩ := r
      cases ok <;> exact writes
  | batchFsync mine =>
      cases here
      refine ⟨[], Untouched.writes ?_⟩
      unfold batchSync
      cases policy with
      | always => exact untouched_syncAll o d
      | everysec => exact .refl d
      | no => exact .refl d
  | batchElapsed mine =>
      cases here
      refine ⟨[], Untouched.writes ?_⟩
      have same := untouched_syncAll o d
      unfold batchStamp
      split
      · generalize syncAll o d = r at same ⊢
        obtain ⟨ok, d'⟩ := r
        cases ok with
        | true => exact ⟨same.file, same.batch, same.entered⟩
        | false => exact same
      · exact .refl d
  | flushWrite =>
      cases here
      have writes := writes_writeBatch o d
      refine ⟨[], ?_⟩
      show Writes d (flushWork policy o d).1 [] (leftover o d.batch)
      unfold flushWork
      generalize writeBatch o d = r at writes ⊢
      obtain ⟨ok, d'⟩ := r
      cases ok with
      | false => exact writes
      | true =>
          simp only
          split
          · exact writes.untouched (untouched_syncAll o d')
          · exact writes
  | neededElapsed =>
      cases here
      exact ⟨[], .nothing d⟩
  | neededIsEmpty =>
      cases here
      exact ⟨[], .nothing d⟩
  | neededWrite empty =>
      cases here
      have writes : Writes d (if empty then (true, d) else writeBatch o d).2 []
          (strayAt (.neededWrite empty) o d) := by
        cases empty with
        | true => exact .nothing d
        | false => exact writes_writeBatch o d
      refine ⟨[], ?_⟩
      show Writes d (neededWork empty o d).1 [] _
      unfold neededWork
      generalize (if empty then (true, d) else writeBatch o d) = r at writes ⊢
      obtain ⟨ok, d'⟩ := r
      cases ok with
      | false => exact writes
      | true =>
          have same := untouched_syncAll o d'
          simp only
          generalize syncAll o d' = r at same ⊢
          obtain ⟨ok, d''⟩ := r
          cases ok <;> exact writes.untouched same
  | neededStamp =>
      cases here
      exact ⟨[], Untouched.writes ⟨rfl, rfl, rfl⟩⟩
  | finalWriteBatch tmp => cases outside
  | finalRename tmp => cases outside
  | _ => cases here

end Work

/-! ## Steps and runs -/

section Runs

variable {policy : FsyncPolicy} {s s' : Writer} {ev : Event}

/-- No task is in a rewrite. -/
def NoRewrite (s : Writer) : Prop := ∀ t, inRewrite (s.pc t) = false

theorem outside_begin {call : Call} (asked : call.isRewrite = false) : inRewrite (begin policy call) = false := by
  cases call with
  | appendRaw entry => rfl
  | flush => rfl
  | flushIfNeeded =>
      simp only [begin]
      split <;> rfl
  | finalizeRewrite tmp => cases asked

/-- Only a call that is asked for leads into a rewrite. -/
theorem outside_work {p : Pc} {f : Outcome → Data → Data × Pc} (here : code policy p = .work f)
    (outside : inRewrite p = false) {o : Outcome} (asked : o.call.isRewrite = false) (d : Data) :
    inRewrite (f o d).2 = false := by
  by_cases resting : ∃ mine ok, p = .leave [] mine ok
  · obtain ⟨mine, ok, rfl⟩ := resting
    cases here
    exact outside_begin asked
  · have leads := work_leads here o d
    generalize (f o d).2 = next at leads
    cases leads with
    | begins mine ok call => exact absurd ⟨mine, ok, rfl⟩ resting
    | finalWritten tmp => cases outside
    | _ => rfl

theorem outside_acquire {p next : Pc} {l : Mutex} (here : code policy p = .acquire l next)
    (outside : inRewrite p = false) : inRewrite next = false ∧ ∀ o d, strayAt p o d = [] := by
  cases p with
  | leave guards => cases guards <;> cases here
  | _ => cases here <;> first | exact ⟨rfl, fun _ _ => rfl⟩ | cases outside

theorem outside_release {p next : Pc} {l : Mutex} (here : code policy p = .release l next)
    (outside : inRewrite p = false) : inRewrite next = false ∧ ∀ o d, strayAt p o d = [] := by
  cases p with
  | leave guards =>
      cases guards with
      | nil => cases here
      | cons l guards =>
          cases here
          exact ⟨rfl, fun _ _ => rfl⟩
  | _ => cases here <;> first | exact ⟨rfl, fun _ _ => rfl⟩ | cases outside

/-- What one step does to the file, the batch and what has entered. -/
theorem step_writes (next : step (code policy) s ev = some s') (outside : NoRewrite s)
    (asked : ev.choice.call.isRewrite = false) :
    NoRewrite s' ∧ ∃ new, Writes s.data s'.data new (strayAt (s.pc ev.task) ev.choice s.data) := by
  have mine := outside ev.task
  have moves {p : Pc} (next : inRewrite p = false) (t u : Nat) : inRewrite (Function.update s.pc t p u) = false :=
    forall_update (Q := fun p => inRewrite p = false) next outside u
  rcases step_cases next with ⟨l, p, here, -, rfl⟩ | ⟨l, p, here, rfl⟩ | ⟨f, here, rfl⟩
  · obtain ⟨still, nothing⟩ := outside_acquire here mine
    rw [nothing]
    exact ⟨moves still _, [], .nothing _⟩
  · obtain ⟨still, nothing⟩ := outside_release here mine
    rw [nothing]
    exact ⟨moves still _, [], .nothing _⟩
  · exact ⟨moves (outside_work here mine asked _) _, work_writes here mine _ _⟩

/-- The file and the batch are a first part and what has entered. -/
def Together (base : Bytes) (s : Writer) : Prop :=
  s.data.file ++ s.data.batch = base ++ s.data.entered.flatten ∧ NoRewrite s

/-- They are longer than that. -/
def Excess (base : Bytes) (s : Writer) : Prop :=
  (base ++ s.data.entered.flatten).length < s.data.file.length + s.data.batch.length ∧ NoRewrite s

variable {base : Bytes}

theorem Together.step (together : Together base s) (clean : Clean s ev)
    (asked : ev.choice.call.isRewrite = false) (next : Theory.Locks.step (code policy) s ev = some s') :
    Together base s' := by
  obtain ⟨outside, new, writes⟩ := step_writes next together.2 asked
  refine ⟨?_, outside⟩
  rw [writes.clean clean, together.1, writes.entered, List.flatten_append, List.append_assoc]

/-- A byte beside the log is a byte too many, and stays so. -/
theorem Together.spoiled (together : Together base s) (stray : ¬ Clean s ev)
    (asked : ev.choice.call.isRewrite = false) (next : Theory.Locks.step (code policy) s ev = some s') :
    Excess base s' := by
  obtain ⟨outside, new, writes⟩ := step_writes next together.2 asked
  have more : 0 < (strayAt (s.pc ev.task) ev.choice s.data).length := List.length_pos_of_ne_nil stray
  have before := congrArg List.length together.1
  have after := writes.length
  refine ⟨?_, outside⟩
  rw [writes.entered, List.flatten_append]
  simp only [List.length_append] at before ⊢
  omega

theorem Excess.step (excess : Excess base s) (asked : ev.choice.call.isRewrite = false)
    (next : Theory.Locks.step (code policy) s ev = some s') : Excess base s' := by
  obtain ⟨outside, new, writes⟩ := step_writes next excess.2 asked
  have before := excess.1
  have after := writes.length
  refine ⟨?_, outside⟩
  rw [writes.entered, List.flatten_append]
  simp only [List.length_append] at before ⊢
  omega

end Runs

/-! ## The log after a retry -/

/-- The file holds the log, as a replay sees it: it has the same effect, it consists
of whole entries, and no entry stands there more often than it was appended. -/
structure LogIntact (log : List Command) (file : Bytes) : Prop where
  sameEffect (iter : Iter) (now : Instant) (e : DashMapEngine) :
    replayAof iter now (some file) e = replayAof iter now (some (logBytes log)) e
  whole : ∃ entries, (∀ c ∈ entries, FieldsFit c) ∧ file = logBytes entries
  once (entries : List Command) (fits : ∀ c ∈ entries, FieldsFit c) (same : file = logBytes entries) :
    (entries.map Command.aofBytes).Subperm (log.map Command.aofBytes)

/-- A log that holds every entry at most as often as another is not longer. -/
theorem logBytes_length_le {entries log : List Command}
    (once : (entries.map Command.aofBytes).Subperm (log.map Command.aofBytes)) :
    (logBytes entries).length ≤ (logBytes log).length := by
  obtain ⟨picked, perm, sub⟩ := once
  have same := perm.flatten.length_eq
  have short := sub.flatten.length_le
  simp only [logBytes, List.flatMap_def]
  omega

theorem logBytes_intact {log : List Command} (fits : ∀ c ∈ log, FieldsFit c) :
    LogIntact log (logBytes log) where
  sameEffect _ _ _ := rfl
  whole := ⟨log, fits, rfl⟩
  once entries fits' same := by
    rw [logBytes_entries fits fits' same]

/-- An intact log has no byte too many. -/
theorem LogIntact.length_le {log : List Command} {file : Bytes} (intact : LogIntact log file) :
    file.length ≤ (logBytes log).length := by
  obtain ⟨entries, fits, same⟩ := intact.whole
  rw [same]
  exact logBytes_length_le (intact.once entries fits same)

/-- The log is intact after a run that ends with an empty batch exactly if no step of
the run wrote a byte beside it. -/
theorem logIntact_iff (policy : FsyncPolicy) (events : List Event) (d : Data) (s : Writer)
    (cs ds ws : List Command) (fits : ∀ c ∈ cs ++ ds ++ ws, FieldsFit c) (file : d.file = logBytes cs)
    (batch : d.batch = logBytes ds) (fresh : d.entered = [])
    (noRewrite : ∀ ev ∈ events, ev.choice.call.isRewrite = false)
    (reached : run policy (start d idle) events = some s) (entered : s.data.entered = ws.map Command.aofBytes)
    (flushed : s.data.batch = []) :
    LogIntact (cs ++ ds ++ ws) s.data.file ↔ Along (step (code policy)) Clean (start d idle) events := by
  have log : logBytes (cs ++ ds ++ ws) = d.file ++ d.batch ++ s.data.entered.flatten := by
    rw [logBytes_append, logBytes_append, file, batch, entered]
    simp [logBytes, List.flatMap_def]
  have first : Together (d.file ++ d.batch) (start d idle) := by
    refine ⟨?_, fun _ => rfl⟩
    show d.file ++ d.batch = d.file ++ d.batch ++ d.entered.flatten
    rw [fresh, List.flatten_nil, List.append_nil]
  constructor
  · intro intact
    refine along_of_unbroken (B := Excess (d.file ++ d.batch))
      (fun _ _ _ together clean asked next => together.step clean asked next)
      (fun _ _ _ together stray asked next => together.spoiled stray asked next)
      (fun _ _ _ excess asked next => excess.step asked next) first noRewrite reached fun excess => ?_
    have short := intact.length_le
    have long := excess.1
    rw [log] at short
    rw [flushed, List.length_nil] at long
    omega
  · intro clean
    have together := run_invariant
      (fun _ _ _ together good next => together.step good.1 good.2 next) first (clean.and_label noRewrite) reached
    have same := together.1
    rw [flushed, List.append_nil, ← log] at same
    rw [same]
    exact logBytes_intact fits

/-- `write_all` puts `n` bytes into the file and fails. -/
def failsAfter (n : Nat) : Outcome := ⟨.flush, some n, true, true, true, 0⟩

/-- No I/O fails. -/
def nothingFails : Outcome := ⟨.flush, none, true, true, true, 0⟩

/-- One call of `flush`, from its first step to its last. -/
def flushSteps (t : Nat) (o : Outcome) : List Event := List.replicate 6 ⟨t, o⟩

/-- A batch of the given commands on an empty log. -/
def pending (ds : List Command) : Data := { Data.new 0 with batch := logBytes ds }

/-- A flush to which the disk takes nothing, an append, and a tick that writes all. -/
def nothingWritten : List Event :=
  flushSteps 0 (failsAfter 0) ++ List.replicate 4 (calm 1 (.appendRaw (Command.del (ascii "k")).aofBytes) 0) ++
    List.replicate 11 (calm 2 .flushIfNeeded (Duration.fromSecs 1))

theorem logIntact_iff_nothing_written :
    ∃ s, run .everysec (start (pending [.incr (ascii "k"), .flushDb]) idle) nothingWritten = some s ∧
      s.data.batch = [] ∧ LogIntact ([] ++ [.incr (ascii "k"), .flushDb] ++ [.del (ascii "k")]) s.data.file := by
  have ends : (run .everysec (start (pending [.incr (ascii "k"), .flushDb]) idle) nothingWritten).map
      (fun s => (s.data.entered, s.data.batch)) = some ([(Command.del (ascii "k")).aofBytes], []) := by
    decide +kernel
  obtain ⟨s, reached, same⟩ := Option.map_eq_some_iff.1 ends
  obtain ⟨entered, flushed⟩ := Prod.mk.inj same
  refine ⟨s, reached, flushed, ?_⟩
  exact (logIntact_iff .everysec nothingWritten (pending [.incr (ascii "k"), .flushDb]) s []
    [.incr (ascii "k"), .flushDb] [.del (ascii "k")] (by decide) rfl rfl rfl (by decide) reached entered
    flushed).2 (by decide +kernel)

/-- An INCR whose entry fills the batch alone. -/
def longIncr : Command := .incr (List.replicate 4093 107)

/-- The write of two INCRs stops behind the first and is retried: three are replayed.
The write of a DEL stops behind its opcode and is retried: none is.  An entry that fills
the batch is in the file twice, whatever fails or not. -/
theorem retry_corrupts_log :
    (∃ s, run .everysec (start (pending [.incr (ascii "k"), .incr (ascii "k")]) idle)
        (flushSteps 0 (failsAfter 4) ++ flushSteps 0 nothingFails) = some s ∧ s.data.batch = [] ∧
      ¬LogIntact [.incr (ascii "k"), .incr (ascii "k")] s.data.file ∧
      (replayAof Iter.some 0 (some s.data.file) .new).map Prod.snd = some 3) ∧
    (∃ s, run .everysec (start (pending [.del (ascii "k")]) idle)
        (flushSteps 0 (failsAfter 1) ++ flushSteps 0 nothingFails) = some s ∧ s.data.batch = [] ∧
      ¬LogIntact [.del (ascii "k")] s.data.file ∧
      (replayAof Iter.some 0 (some s.data.file) .new).map Prod.snd = some 0) ∧
    ∃ s, run .no (opened 0) (List.replicate 11 (calm 0 (.appendRaw longIncr.aofBytes) 0)) = some s ∧
      s.data.batch = [] ∧ ¬LogIntact [longIncr] s.data.file := by
  have counted {log : List Command} {file : Bytes} {n k : Nat}
      (right : (replayAof Iter.some 0 (some (logBytes log)) .new).map Prod.snd = some n)
      (counts : (replayAof Iter.some 0 (some file) .new).map Prod.snd = some k) (other : n ≠ k) :
      ¬LogIntact log file := by
    intro intact
    rw [intact.sameEffect, right] at counts
    exact other (Option.some.inj counts)
  refine ⟨?_, ?_, ?_⟩
  · have ends : (run .everysec (start (pending [.incr (ascii "k"), .incr (ascii "k")]) idle)
        (flushSteps 0 (failsAfter 4) ++ flushSteps 0 nothingFails)).map (fun s =>
          (s.data.batch, (replayAof Iter.some 0 (some s.data.file) .new).map Prod.snd)) = some ([], some 3) := by
      decide +kernel
    obtain ⟨s, reached, same⟩ := Option.map_eq_some_iff.1 ends
    obtain ⟨flushed, counts⟩ := Prod.mk.inj same
    exact ⟨s, reached, flushed, counted (n := 2) (by decide +kernel) counts (by decide), counts⟩
  · have ends : (run .everysec (start (pending [.del (ascii "k")]) idle)
        (flushSteps 0 (failsAfter 1) ++ flushSteps 0 nothingFails)).map (fun s =>
          (s.data.batch, (replayAof Iter.some 0 (some s.data.file) .new).map Prod.snd)) = some ([], some 0) := by
      decide +kernel
    obtain ⟨s, reached, same⟩ := Option.map_eq_some_iff.1 ends
    obtain ⟨flushed, counts⟩ := Prod.mk.inj same
    exact ⟨s, reached, flushed, counted (n := 1) (by decide +kernel) counts (by decide), counts⟩
  · have length : longIncr.aofBytes.length = 4096 := by
      rw [longIncr, aofBytes_incr, List.length_cons, encodeKey, List.length_append, toLe_length,
        List.length_replicate]
    obtain ⟨s, reached, -, -, file, batch⟩ := slow_path_writes_twice longIncr.aofBytes (by rw [length]; decide)
    refine ⟨s, reached, batch, fun intact => ?_⟩
    have short := intact.length_le
    rw [file, logBytes_cons, logBytes_nil, List.append_nil, List.length_append, length] at short
    omega

/-! ## A write that stops between two entries -/

theorem flushWork_leads (policy : FsyncPolicy) (o : Outcome) (d : Data) :
    ∃ ok, (flushWork policy o d).2 = .leave [.batch, .file] none ok := by
  have here : code policy .flushWrite = .work (flushWork policy) := rfl
  have leads := work_leads here o d
  generalize (flushWork policy o d).2 = next at leads
  cases leads with
  | flushed ok => exact ⟨ok, rfl⟩

theorem flushWork_untouched (policy : FsyncPolicy) (o : Outcome) (d : Data) :
    Untouched (writeBatch o d).2 (flushWork policy o d).1 := by
  unfold flushWork
  generalize writeBatch o d = r
  obtain ⟨ok, d'⟩ := r
  cases ok with
  | false => exact .refl d'
  | true =>
      simp only
      split
      · exact untouched_syncAll o d'
      · exact .refl d'

theorem writeBatch_stops {o : Outcome} {n : Nat} (stops : o.write = some n) (d : Data) :
    (writeBatch o d).2 = { d with file := d.file ++ d.batch.take n } := by
  cases d with
  | mk file synced batch lastFsync renamed entered =>
      cases batch with
      | nil => simp [writeBatch]
      | cons b batch => simp [writeBatch, writeAll, stops]

/-- What one call of `flush` does when no other task is in the way. -/
theorem run_flush (policy : FsyncPolicy) (s : Writer) (t : Nat) {o : Outcome} (asked : o.call = .flush)
    (rests : ∃ mine ok, s.pc t = .leave [] mine ok) (free : s.owner .file = none ∧ s.owner .batch = none) :
    ∃ s', run policy s (flushSteps t o) = some s' ∧ s'.data = (flushWork policy o s.data).1 ∧
      (∃ mine ok, s'.pc t = .leave [] mine ok) ∧ s'.owner .file = none ∧ s'.owner .batch = none := by
  obtain ⟨mine, ok, here⟩ := rests
  obtain ⟨done, leads⟩ := flushWork_leads policy o s.data
  cases done <;>
    simp [run, Theory.Runs.run, flushSteps, List.replicate, step, code, begin, here, free.1, free.2, asked, leads]

/-- A flush stops between two entries, and the next one succeeds: the entries in front
of the stop are in the file twice, and the replay applies them twice. -/
theorem retry_replays_twice (policy : FsyncPolicy) (t : Nat) {o o' : Outcome} {d : Data}
    {cs ws rest : List Command} (fits : ∀ c ∈ cs ++ ws ++ rest, FieldsFit c) (file : d.file = logBytes cs)
    (batch : d.batch = logBytes (ws ++ rest)) (asked : o.call = .flush ∧ o'.call = .flush)
    (stops : o.write = some (logBytes ws).length) (retried : o'.write = none) :
    ∃ s, run policy (start d idle) (flushSteps t o ++ flushSteps t o') = some s ∧
      ∀ (iter : Iter) (m : MetricsSnapshot) (now : Instant) (e : DashMapEngine), e.maxKeys = 0 →
        replayAof iter now (some s.data.file) e =
          some (replayAll iter m now e ((cs ++ ws ++ (ws ++ rest)).map lossyCommand),
            (cs ++ ws ++ (ws ++ rest)).length) := by
  obtain ⟨mid, first, stopped, rests, free⟩ :=
    run_flush policy (start d idle) t asked.1 ⟨none, true, rfl⟩ ⟨rfl, rfl⟩
  obtain ⟨s, second, written, -, -⟩ := run_flush policy mid t asked.2 rests free
  refine ⟨s, ?_, fun iter m now e unlimited => ?_⟩
  · rw [run, Theory.Runs.run_append]
    show ((run policy (start d idle) (flushSteps t o)).bind _) = _
    rw [first]
    exact second
  · have half : mid.data.file = logBytes (cs ++ ws) ∧ mid.data.batch = logBytes (ws ++ rest) := by
      have same := flushWork_untouched policy o d
      have part : (logBytes (ws ++ rest)).take (logBytes ws).length = logBytes ws := by
        rw [logBytes_append]
        exact List.take_left
      rw [writeBatch_stops stops, batch, part, file, ← logBytes_append] at same
      rw [stopped]
      exact ⟨same.file, same.batch⟩
    have whole : s.data.file = logBytes (cs ++ ws ++ (ws ++ rest)) := by
      have same := flushWork_untouched policy o' mid.data
      rw [writeBatch_ok retried, half.1, half.2, ← logBytes_append] at same
      rw [written]
      exact same.file
    rw [whole]
    apply replayAof_fits iter m now ?_ unlimited
    intro c inside
    apply fits
    simp only [List.mem_append] at inside ⊢
    tauto

end ZetDb.Storage.AofWriter
