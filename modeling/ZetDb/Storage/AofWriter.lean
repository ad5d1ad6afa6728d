/-
# Storage.AofWriter -- the log writer, its batch and its three mutexes

Embeds `AofWriter` of `storage/aof.rs` as a program over three mutexes: the file,
the batch buffer and the time of the last fsync.  Every lock, every drop of a
guard and every piece of work between them is a step of its own, in the order of
the source; guards are dropped in reverse order of their declaration, also on the
way out of a failed call.  A failed `write_all` may have written any prefix.

`entered` and the index a call carries (`mine`) are history: the entries in the
order in which they entered the batch, and the place of the call's own entry.
-/
import ZetDb.Theory.Locks
import ZetDb.Domain.Value

namespace ZetDb.Storage.AofWriter

set_option autoImplicit false

open ZetDb.Theory.Wire ZetDb.Theory.Locks ZetDb.Domain

def aofBatchSize : Nat := 4096

inductive FsyncPolicy where
  | always | everysec | no
  deriving DecidableEq, Repr

inductive Mutex where
  | file | batch | last
  deriving DecidableEq, Repr

structure Data where
  /-- The bytes behind the open handle. -/
  file : Bytes
  /-- How many of them the last successful `sync_all` covers. -/
  synced : Nat
  batch : Bytes
  lastFsync : Instant
  /-- The file at the path, once a rename succeeded and the reopen failed. -/
  renamed : Option Bytes
  entered : List Bytes
  deriving DecidableEq

/-- An empty log, opened at `now`. -/
def Data.new (now : Instant) : Data := ⟨[], 0, [], now, none, []⟩

inductive Call where
  | appendRaw (entry : Bytes)
  | flush
  | flushIfNeeded
  /-- The argument is the content of the tmp file. -/
  | finalizeRewrite (tmp : Bytes)
  deriving DecidableEq

def Call.isRewrite : Call → Bool
  | .finalizeRewrite _ => true
  | _ => false

/-- What a work step finds outside the program. -/
structure Outcome where
  /-- The call an idle task is asked for. -/
  call : Call
  /-- `none`: `write_all` succeeds; `some n`: it fails with `n` bytes written. -/
  write : Option Nat
  sync : Bool
  rename : Bool
  reopen : Bool
  now : Instant

inductive Pc where
  /-- On the way out: `guards` are still to be dropped; with none the call is over.
  `mine` is the index of an appended entry, `ok` the result. -/
  | leave (guards : List Mutex) (mine : Option Nat) (ok : Bool)
  | appendLockBatch (entry : Bytes)
  | appendExtend (entry : Bytes)
  | appendDropBatch (entry : Bytes) (mine : Nat)
  | batchLockFile (entry : Bytes) (mine : Nat)
  | batchLockBatch (entry : Bytes) (mine : Nat)
  | batchWriteBatch (entry : Bytes) (mine : Nat)
  | batchDropBatch (entry : Bytes) (mine : Nat)
  | batchWriteEntry (entry : Bytes) (mine : Nat)
  | batchFsync (mine : Nat)
  | batchLockLast (mine : Nat)
  | batchElapsed (mine : Nat)
  | flushLockFile
  | flushLockBatch
  | flushWrite
  | neededLockLast
  | neededElapsed
  | neededLockBatch
  | neededIsEmpty
  | neededLockFile (empty : Bool)
  | neededWrite (empty : Bool)
  | neededDropFile
  | neededDropBatch
  | neededStamp
  | finalLockFile (tmp : Bytes)
  | finalLockBatch (tmp : Bytes)
  | finalWriteBatch (tmp : Bytes)
  | finalDropBatch (tmp : Bytes)
  | finalRename (tmp : Bytes)
  deriving DecidableEq

/-- No call in progress, none made yet. -/
def idle : Pc := .leave [] none true

/-! ## Work on the data -/

/-- `file.write_all(bytes)`: whether it succeeded, and the file after it. -/
def writeAll (o : Outcome) (bytes : Bytes) (d : Data) : Bool × Data :=
  match o.write with
  | none => (true, { d with file := d.file ++ bytes })
  | some n => (false, { d with file := d.file ++ bytes.take n })

/-- `if !batch.is_empty() { file.write_all(&batch)?; batch.clear(); }`. -/
def writeBatch (o : Outcome) (d : Data) : Bool × Data :=
  if d.batch.isEmpty then (true, d)
  else
    match writeAll o d.batch d with
    | (true, d) => (true, { d with batch := [] })
    | (false, d) => (false, d)

def syncAll (o : Outcome) (d : Data) : Bool × Data :=
  if o.sync then (true, { d with synced := d.file.length }) else (false, d)

/-- `last.elapsed() >= Duration::from_secs(1)`. -/
def elapsed (o : Outcome) (d : Data) : Bool := o.now - d.lastFsync ≥ Duration.fromSecs 1

section Code

variable (policy : FsyncPolicy)

def begin (call : Call) : Pc :=
  match call with
  | .appendRaw entry => .appendLockBatch entry
  | .flush => .flushLockFile
  | .flushIfNeeded => if policy = .everysec then .neededLockLast else .leave [] none true
  | .finalizeRewrite tmp => .finalLockFile tmp

/-- The fast path returns; a full batch goes on to `flush_batch`. -/
def extend (entry : Bytes) (d : Data) : Data × Pc :=
  let d := { d with batch := d.batch ++ entry, entered := d.entered ++ [entry] }
  let mine := d.entered.length
  (d, if d.batch.length < aofBatchSize then .leave [.batch] (some mine) true
    else .appendDropBatch entry mine)

def batchWrite (entry : Bytes) (mine : Nat) (o : Outcome) (d : Data) : Data × Pc :=
  match writeBatch o d with
  | (true, d) => (d, .batchDropBatch entry mine)
  | (false, d) => (d, .leave [.batch, .file] (some mine) false)

def batchEntry (entry : Bytes) (mine : Nat) (o : Outcome) (d : Data) : Data × Pc :=
  match writeAll o entry d with
  | (true, d) => (d, .batchFsync mine)
  | (false, d) => (d, .leave [.file] (some mine) false)

def batchSync (mine : Nat) (o : Outcome) (d : Data) : Data × Pc :=
  match policy with
  | .always =>
      match syncAll o d with
      | (ok, d) => (d, .leave [.file] (some mine) ok)
  | .everysec => (d, .batchLockLast mine)
  | .no => (d, .leave [.file] (some mine) true)

def batchStamp (mine : Nat) (o : Outcome) (d : Data) : Data × Pc :=
  if elapsed o d then
    match syncAll o d with
    | (true, d) => ({ d with lastFsync := o.now }, .leave [.last, .file] (some mine) true)
    | (false, d) => (d, .leave [.last, .file] (some mine) false)
  else (d, .leave [.last, .file] (some mine) true)

def flushWork (o : Outcome) (d : Data) : Data × Pc :=
  match writeBatch o d with
  | (false, d) => (d, .leave [.batch, .file] none false)
  | (true, d) =>
      if policy = .always then
        match syncAll o d with
        | (ok, d) => (d, .leave [.batch, .file] none ok)
      else (d, .leave [.batch, .file] none true)

def neededWork (empty : Bool) (o : Outcome) (d : Data) : Data × Pc :=
  match (if empty then (true, d) else writeBatch o d) with
  | (false, d) => (d, .leave [.file, .batch, .last] none false)
  | (true, d) =>
      match syncAll o d with
      | (true, d) => (d, .neededDropFile)
      | (false, d) => (d, .leave [.file, .batch, .last] none false)

def finalBatch (tmp : Bytes) (o : Outcome) (d : Data) : Data × Pc :=
  match writeBatch o d with
  | (true, d) => (d, .finalDropBatch tmp)
  | (false, d) => (d, .leave [.batch, .file] none false)

/-- The tmp file was synced when it was written. -/
def finalSwap (tmp : Bytes) (o : Outcome) (d : Data) : Data × Pc :=
  if !o.rename then (d, .leave [.file] none false)
  else if !o.reopen then ({ d with renamed := some tmp }, .leave [.file] none false)
  else ({ d with file := tmp, synced := tmp.length, renamed := none }, .leave [.file] none true)

/-- The program, point by point. -/
def code : Pc → Action Mutex Pc Data Outcome
  | .leave [] _ _ => .work fun o d => (d, begin policy o.call)
  | .leave (l :: guards) mine ok => .release l (.leave guards mine ok)
  | .appendLockBatch entry => .acquire .batch (.appendExtend entry)
  | .appendExtend entry => .work fun _ d => extend entry d
  | .appendDropBatch entry mine => .release .batch (.batchLockFile entry mine)
  | .batchLockFile entry mine => .acquire .file (.batchLockBatch entry mine)
  | .batchLockBatch entry mine => .acquire .batch (.batchWriteBatch entry mine)
  | .batchWriteBatch entry mine => .work (batchWrite entry mine)
  | .batchDropBatch entry mine => .release .batch (.batchWriteEntry entry mine)
  | .batchWriteEntry entry mine => .work (batchEntry entry mine)
  | .batchFsync mine => .work (batchSync policy mine)
  | .batchLockLast mine => .acquire .last (.batchElapsed mine)
  | .batchElapsed mine => .work (batchStamp mine)
  | .flushLockFile => .acquire .file .flushLockBatch
  | .flushLockBatch => .acquire .batch .flushWrite
  | .flushWrite => .work (flushWork policy)
  | .neededLockLast => .acquire .last .neededElapsed
  | .neededElapsed => .work fun o d =>
      (d, if elapsed o d then .neededLockBatch else .leave [.last] none true)
  | .neededLockBatch => .acquire .batch .neededIsEmpty
  | .neededIsEmpty => .work fun _ d => (d, .neededLockFile d.batch.isEmpty)
  | .neededLockFile empty => .acquire .file (.neededWrite empty)
  | .neededWrite empty => .work (neededWork empty)
  | .neededDropFile => .release .file .neededDropBatch
  | .neededDropBatch => .release .batch .neededStamp
  | .neededStamp => .work fun o d => ({ d with lastFsync := o.now }, .leave [.last] none true)
  | .finalLockFile tmp => .acquire .file (.finalLockBatch tmp)
  | .finalLockBatch tmp => .acquire .batch (.finalWriteBatch tmp)
  | .finalWriteBatch tmp => .work (finalBatch tmp)
  | .finalDropBatch tmp => .release .batch (.finalRename tmp)
  | .finalRename tmp => .work (finalSwap tmp)

end Code

/-- The state of the writer: the data, the mutexes and every task. -/
abbrev Writer := State Mutex Pc Data

abbrev Event := Label Outcome

/-- A writer on an empty log, no task in a call. -/
def opened (now : Instant) : Writer := start (Data.new now) idle

/-- The writer after an interleaving of the tasks' steps. -/
def run (policy : FsyncPolicy) : Writer → List Event → Option Writer :=
  Theory.Runs.run (step (code policy))

/-- No call is in progress. -/
def Quiet (s : Writer) : Prop := ∀ t, ∃ mine ok, s.pc t = .leave [] mine ok

/-- A step of a task for which no I/O fails. -/
def calm (task : Nat) (call : Call) (now : Instant) : Event :=
  ⟨task, call, none, true, true, true, now⟩

/-! ## What the writes do -/

section Work

variable {o : Outcome} {d : Data}

theorem writeBatch_ok (succeeds : o.write = none) :
    writeBatch o d = (true, { d with file := d.file ++ d.batch, batch := [] }) := by
  cases d with
  | mk file synced batch lastFsync renamed entered =>
      cases batch with
      | nil => simp [writeBatch]
      | cons b batch => simp [writeBatch, writeAll, succeeds]

/-- The batch reaches the file whole and is cleared, or it stays and a part of it
reaches the file. -/
theorem writeBatch_cases (o : Outcome) (d : Data) :
    writeBatch o d = (true, { d with file := d.file ++ d.batch, batch := [] }) ∨
      ∃ part, writeBatch o d = (false, { d with file := d.file ++ part }) := by
  cases outcome : o.write with
  | none => exact .inl (writeBatch_ok outcome)
  | some n =>
      by_cases empty : d.batch = []
      · left
        cases d
        simp_all [writeBatch]
      · right
        exact ⟨d.batch.take n, by simp [writeBatch, writeAll, outcome, empty]⟩

theorem syncAll_cases (o : Outcome) (d : Data) :
    syncAll o d = (true, { d with synced := d.file.length }) ∨ syncAll o d = (false, d) := by
  cases outcome : o.sync <;> simp [syncAll, outcome]

end Work

/-! ## Where the work leads -/

/-- The points a work step can lead to, whatever the data and the outcome. -/
inductive WorkLeads (policy : FsyncPolicy) : Pc → Pc → Prop where
  | begins (mine : Option Nat) (ok : Bool) (call : Call) :
      WorkLeads policy (.leave [] mine ok) (begin policy call)
  | fastPath (entry : Bytes) (mine : Nat) :
      WorkLeads policy (.appendExtend entry) (.leave [.batch] (some mine) true)
  | slowPath (entry : Bytes) (mine : Nat) :
      WorkLeads policy (.appendExtend entry) (.appendDropBatch entry mine)
  | batchWritten (entry : Bytes) (mine : Nat) :
      WorkLeads policy (.batchWriteBatch entry mine) (.batchDropBatch entry mine)
  | batchFailed (entry : Bytes) (mine : Nat) :
      WorkLeads policy (.batchWriteBatch entry mine) (.leave [.batch, .file] (some mine) false)
  | entryWritten (entry : Bytes) (mine : Nat) :
      WorkLeads policy (.batchWriteEntry entry mine) (.batchFsync mine)
  | entryFailed (entry : Bytes) (mine : Nat) :
      WorkLeads policy (.batchWriteEntry entry mine) (.leave [.file] (some mine) false)
  | synced (mine : Nat) (ok : Bool) :
      WorkLeads policy (.batchFsync mine) (.leave [.file] (some mine) ok)
  | syncsLater (mine : Nat) : WorkLeads policy (.batchFsync mine) (.batchLockLast mine)
  | stamped (mine : Nat) (ok : Bool) :
      WorkLeads policy (.batchElapsed mine) (.leave [.last, .file] (some mine) ok)
  | flushed (ok : Bool) : WorkLeads policy .flushWrite (.leave [.batch, .file] none ok)
  | isDue : WorkLeads policy .neededElapsed .neededLockBatch
  | notDue : WorkLeads policy .neededElapsed (.leave [.last] none true)
  | looked (empty : Bool) : WorkLeads policy .neededIsEmpty (.neededLockFile empty)
  | neededWritten (empty : Bool) : WorkLeads policy (.neededWrite empty) .neededDropFile
  | neededFailed (empty : Bool) :
      WorkLeads policy (.neededWrite empty) (.leave [.file, .batch, .last] none false)
  | neededStamped : WorkLeads policy .neededStamp (.leave [.last] none true)
  | finalWritten (tmp : Bytes) : WorkLeads policy (.finalWriteBatch tmp) (.finalDropBatch tmp)
  | finalFailed (tmp : Bytes) :
      WorkLeads policy (.finalWriteBatch tmp) (.leave [.batch, .file] none false)
  | swapped (tmp : Bytes) (ok : Bool) : WorkLeads policy (.finalRename tmp) (.leave [.file] none ok)

theorem work_leads {policy : FsyncPolicy} {p : Pc} {f : Outcome → Data → Data × Pc}
    (here : code policy p = .work f) (o : Outcome) (d : Data) : WorkLeads policy p (f o d).2 := by
  cases p with
  | leave guards mine ok =>
      cases guards with
      | cons l guards => cases here
      | nil =>
          cases here
          exact .begins mine ok o.call
  | appendExtend entry =>
      cases here
      simp only [extend]
      split
      · exact .fastPath entry _
      · exact .slowPath entry _
  | batchWriteBatch entry mine =>
      cases here
      simp only [batchWrite]
      split
      · exact .batchWritten entry mine
      · exact .batchFailed entry mine
  | batchWriteEntry entry mine =>
      cases here
      simp only [batchEntry]
      split
      · exact .entryWritten entry mine
      · exact .entryFailed entry mine
  | batchFsync mine =>
      cases here
      unfold batchSync
      split
      · exact .synced mine _
      · exact .syncsLater mine
      · exact .synced mine true
  | batchElapsed mine =>
      cases here
      unfold batchStamp
      split
      · split <;> exact .stamped mine _
      · exact .stamped mine true
  | flushWrite =>
      cases here
      unfold flushWork
      split
      · exact .flushed false
      · split <;> exact .flushed _
  | neededElapsed =>
      cases here
      simp only
      split
      · exact .isDue
      · exact .notDue
  | neededIsEmpty =>
      cases here
      exact .looked _
  | neededWrite empty =>
      cases here
      unfold neededWork
      split
      · exact .neededFailed empty
      · split
        · exact .neededWritten empty
        · exact .neededFailed empty
  | neededStamp =>
      cases here
      exact .neededStamped
  | finalWriteBatch tmp =>
      cases here
      simp only [finalBatch]
      split
      · exact .finalWritten tmp
      · exact .finalFailed tmp
  | finalRename tmp =>
      cases here
      unfold finalSwap
      split
      · exact .swapped tmp false
      · split <;> exact .swapped tmp _
  | _ => cases here

end ZetDb.Storage.AofWriter
