/-
# Storage.AofWriterLog -- what the writer leaves in the file

`append_raw` puts the entry into the batch and, when that fills the batch, calls
`flush_batch(entry)`, which writes the batch -- the entry is in it -- and then the
entry again.

* `log_is_concatenation`: in every run without a failed write in which no entry fills
  the batch, file and batch together are the entries, each once, in the order in
  which they entered.
* `always_is_durable`: under policy `Always` an entry is durable when `append_raw`
  returns `Ok`, in every run in which every append takes the slow path; the fast
  path returns with the entry in memory only.
-/
import ZetDb.Storage.AofWriter

namespace ZetDb.Storage.AofWriter

set_option autoImplicit false

open ZetDb.Theory.Wire ZetDb.Theory.Locks ZetDb.Domain
open ZetDb.Theory.Runs (Along)

/-! ## Each entry once -/

/-- Every write succeeds, nothing is rewritten, and the entry that enters the
batch does not fill it (or is empty). -/
def EntersOnce (s : Writer) (ev : Event) : Prop :=
  ev.choice.write = none ∧ ev.choice.call.isRewrite = false ∧
    match s.pc ev.task with
    | .appendExtend entry => s.data.batch.length + entry.length < aofBatchSize ∨ entry = []
    | _ => True

instance (s : Writer) (ev : Event) : Decidable (EntersOnce s ev) := by
  unfold EntersOnce
  split <;> infer_instance

/-- A task on the slow path carries an empty entry; no task is in a rewrite. -/
def CarriesNothing : Pc → Prop
  | .appendDropBatch entry _ | .batchLockFile entry _ | .batchLockBatch entry _
  | .batchWriteBatch entry _ | .batchDropBatch entry _ | .batchWriteEntry entry _ => entry = []
  | .finalLockFile _ | .finalLockBatch _ | .finalWriteBatch _ | .finalDropBatch _
  | .finalRename _ => False
  | _ => True

/-- File and batch are the entries, in the order in which they entered. -/
def Concatenated (d : Data) : Prop := d.file ++ d.batch = d.entered.flatten

section Once

variable {policy : FsyncPolicy} {d : Data} {p next : Pc} {l : Mutex}

theorem carriesNothing_acquire (here : code policy p = .acquire l next) (know : CarriesNothing p) :
    CarriesNothing next := by
  cases p with
  | leave guards => cases guards <;> cases here
  | _ => cases here <;> exact know

theorem carriesNothing_release (here : code policy p = .release l next) (know : CarriesNothing p) :
    CarriesNothing next := by
  cases p with
  | leave guards =>
      cases guards with
      | nil => cases here
      | cons l guards => cases here; exact know
  | _ => cases here <;> exact know

/-- A batch that is written stays in place in the concatenation. -/
theorem Concatenated.writeBatch {o : Outcome} (good : Concatenated d) (succeeds : o.write = none) :
    Concatenated (writeBatch o d).2 := by
  rw [writeBatch_ok succeeds]
  simpa [Concatenated] using good

theorem Concatenated.syncAll {o : Outcome} (good : Concatenated d) :
    Concatenated (syncAll o d).2 := by
  rcases syncAll_cases o d with done | failed
  · rw [done]; exact good
  · rw [failed]; exact good

theorem concatenated_work {s : Writer} {ev : Event} {f : Outcome → Data → Data × Pc}
    (here : code policy (s.pc ev.task) = .work f) (good : Concatenated s.data)
    (know : CarriesNothing (s.pc ev.task)) (once : EntersOnce s ev) :
    Concatenated (f ev.choice s.data).1 ∧ CarriesNothing (f ev.choice s.data).2 := by
  obtain ⟨succeeds, noRewrite, small⟩ := once
  generalize at_ : s.pc ev.task = p at here know small
  cases p with
  | leave guards mine ok =>
      cases guards with
      | cons l guards => cases here
      | nil =>
          cases here
          refine ⟨good, ?_⟩
          show CarriesNothing (begin policy ev.choice.call)
          cases call : ev.choice.call with
          | finalizeRewrite tmp =>
              rw [call] at noRewrite
              cases noRewrite
          | flushIfNeeded =>
              simp only [begin]
              split <;> trivial
          | _ => trivial
  | appendExtend entry =>
      cases here
      refine ⟨?_, ?_⟩
      · simp only [Concatenated, extend] at good ⊢
        simp [← good]
      · simp only [extend, List.length_append]
        split
        · trivial
        · rename_i full
          rcases small with short | empty
          · exact absurd short full
          · exact empty
  | batchWriteBatch entry mine =>
      cases here
      simp only [batchWrite]
      rw [writeBatch_ok succeeds]
      exact ⟨by simpa [Concatenated] using good, know⟩
  | batchWriteEntry entry mine =>
      cases here
      cases (know : entry = [])
      simp only [batchEntry, writeAll, succeeds, List.append_nil]
      exact ⟨good, trivial⟩
  | batchFsync mine =>
      cases here
      unfold batchSync
      split
      · exact ⟨good.syncAll, trivial⟩
      · exact ⟨good, trivial⟩
      · exact ⟨good, trivial⟩
  | batchElapsed mine =>
      cases here
      unfold batchStamp
      split
      · rcases syncAll_cases ev.choice s.data with done | failed
        · rw [done]; exact ⟨good, trivial⟩
        · rw [failed]; exact ⟨good, trivial⟩
      · exact ⟨good, trivial⟩
  | flushWrite =>
      cases here
      unfold flushWork
      rw [writeBatch_ok succeeds]
      have moved := good.writeBatch (o := ev.choice) succeeds
      rw [writeBatch_ok succeeds] at moved
      simp only
      split
      · exact ⟨moved.syncAll, trivial⟩
      · exact ⟨moved, trivial⟩
  | neededElapsed =>
      cases here
      refine ⟨good, ?_⟩
      simp only
      split <;> trivial
  | neededIsEmpty => cases here; exact ⟨good, trivial⟩
  | neededWrite empty =>
      cases here
      have moved := good.writeBatch (o := ev.choice) succeeds
      rw [writeBatch_ok succeeds] at moved
      cases empty with
      | true =>
          simp only [neededWork, if_true]
          rcases syncAll_cases ev.choice s.data with done | failed
          · rw [done]; exact ⟨good, trivial⟩
          · rw [failed]; exact ⟨good, trivial⟩
      | false =>
          simp only [neededWork, Bool.false_eq_true, if_false, writeBatch_ok succeeds]
          rcases syncAll_cases ev.choice
              { s.data with file := s.data.file ++ s.data.batch, batch := [] } with done | failed
          · rw [done]; exact ⟨moved, trivial⟩
          · rw [failed]; exact ⟨moved, trivial⟩
  | neededStamp => cases here; exact ⟨good, trivial⟩
  | finalWriteBatch tmp => exact know.elim
  | finalRename tmp => exact know.elim
  | _ => cases here

/-- In every run without a failed write in which no entry fills the batch, file
and batch together are the entries, each once, in the order in which they entered. -/
theorem log_is_concatenation (policy : FsyncPolicy) (now : Instant) (events : List Event)
    (s : Writer) (along : Along (step (code policy)) EntersOnce (opened now) events)
    (reached : run policy (opened now) events = some s) :
    s.data.file ++ s.data.batch = s.data.entered.flatten := by
  have start : Concatenated (opened now).data ∧ ∀ t, CarriesNothing ((opened now).pc t) :=
    ⟨rfl, fun _ => trivial⟩
  exact (local_invariant (I := Concatenated) (Q := fun _ => CarriesNothing)
    carriesNothing_acquire carriesNothing_release
    (fun here good know once =>
      have kept := concatenated_work here good know once
      ⟨kept.1, kept.2, fun _ other => other⟩)
    start along reached).1

/-- Two clients and a flush between them. -/
def twoClients : List Event :=
  List.replicate 4 (calm 0 (.appendRaw [1, 2]) 5) ++ List.replicate 6 (calm 2 .flush 6) ++
    List.replicate 4 (calm 1 (.appendRaw [3]) 7)

theorem log_is_concatenation_two_clients :
    ∃ s, run .everysec (opened 0) twoClients = some s ∧
      s.data.file ++ s.data.batch = s.data.entered.flatten ∧ s.data.entered = [[1, 2], [3]] :=
  ⟨_, rfl, log_is_concatenation .everysec 0 twoClients _ (by decide) rfl, rfl⟩

/-- An entry that fills the batch is in the file twice when its `append_raw` returns. -/
theorem slow_path_writes_twice (entry : Bytes) (full : aofBatchSize ≤ entry.length) :
    ∃ s, run .no (opened 0) (List.replicate 11 (calm 0 (.appendRaw entry) 0)) = some s ∧ Quiet s ∧
      s.data.entered = [entry] ∧ s.data.file = entry ++ entry ∧ s.data.batch = [] := by
  have nonempty : entry.isEmpty = false := by
    cases entry with
    | nil => simp [aofBatchSize] at full
    | cons b entry => rfl
  have slow : ¬ entry.length < aofBatchSize := by omega
  have returned : run .no (opened 0) (List.replicate 11 (calm 0 (.appendRaw entry) 0)) =
      some ⟨⟨entry ++ entry, 0, [], 0, none, [entry]⟩, fun _ => none,
        Function.update (fun _ => idle) 0 (.leave [] (some 1) true)⟩ := by
    simp [run, Theory.Runs.run, List.replicate, step, code, opened, start, idle, calm, begin, extend,
      Data.new, batchWrite, writeBatch, writeAll, batchEntry, batchSync, slow, nonempty]
    funext l
    cases l <;> rfl
  refine ⟨_, returned, fun t => ?_, rfl, rfl, rfl⟩
  by_cases mine : t = 0
  · subst mine
    exact ⟨some 1, true, by simp⟩
  · exact ⟨none, true, by simp [mine, idle]⟩

/-- One client appends 4096 bytes, nothing fails: the file holds 8192 bytes. -/
theorem log_repeats_a_full_batch :
    ∃ s, run .no (opened 0) (List.replicate 11 (calm 0 (.appendRaw (List.replicate 4096 7)) 0)) =
        some s ∧ Quiet s ∧ s.data.file ++ s.data.batch ≠ s.data.entered.flatten := by
  obtain ⟨s, reached, quiet, entered, file, batch⟩ :=
    slow_path_writes_twice (List.replicate 4096 7) (by rw [List.length_replicate]; rfl)
  refine ⟨s, reached, quiet, fun same => ?_⟩
  rw [file, batch, entered] at same
  have lengths := congrArg List.length same
  simp only [List.flatten_cons, List.flatten_nil, List.length_append, List.length_replicate,
    List.append_nil] at lengths
  omega

end Once

/-! ## Durable when acknowledged -/

/-- The file is made of blocks, and the first `n` entries are among them, in order. -/
def InFile (d : Data) (n : Nat) : Prop :=
  ∃ blocks : List Bytes, d.file = blocks.flatten ∧ (d.entered.take n).Sublist blocks

/-- The same of the part of the file that a successful `sync_all` covers. -/
def Durable (d : Data) (n : Nat) : Prop :=
  ∃ blocks : List Bytes, d.file.take d.synced = blocks.flatten ∧ (d.entered.take n).Sublist blocks

/-- The entries are split between the file and the batch. -/
def Accounted (d : Data) : Prop :=
  ∃ w ≤ d.entered.length, d.batch = (d.entered.drop w).flatten ∧ InFile d w

/-- Nothing is rewritten, and the entry that enters the batch fills it: the slow
path is taken.  (Or there is nothing to make durable at all.) -/
def TakesSlowPath (s : Writer) (ev : Event) : Prop :=
  ev.choice.call.isRewrite = false ∧
    match s.pc ev.task with
    | .appendExtend entry => aofBatchSize ≤ s.data.batch.length + entry.length ∨
        (s.data.batch = [] ∧ entry = [] ∧ s.data.file.length ≤ s.data.synced)
    | _ => True

instance (s : Writer) (ev : Event) : Decidable (TakesSlowPath s ev) := by
  unfold TakesSlowPath
  split <;> infer_instance

/-- What a call of `append_raw` under policy `Always` knows at each point: its entry
has entered, then it is in the file, then it is durable. -/
def Knows (d : Data) : Pc → Prop
  | .leave _ (some n) true => n ≤ d.entered.length ∧ Durable d n
  | .appendDropBatch _ n | .batchLockFile _ n | .batchLockBatch _ n
  | .batchWriteBatch _ n => n ≤ d.entered.length
  | .batchDropBatch _ n | .batchWriteEntry _ n | .batchFsync n => n ≤ d.entered.length ∧ InFile d n
  | .batchLockLast _ | .batchElapsed _ => False
  | .finalLockFile _ | .finalLockBatch _ | .finalWriteBatch _ | .finalDropBatch _
  | .finalRename _ => False
  | _ => True

/-- Without a rewrite the log only grows, and so does its durable part. -/
structure Grows (d d' : Data) : Prop where
  file : d.file <+: d'.file
  entered : d.entered <+: d'.entered
  durable : d.file.take d.synced <+: d'.file.take d'.synced

section Grow

variable {d d' : Data} {n : Nat}

theorem Grows.refl (d : Data) : Grows d d := ⟨List.prefix_rfl, List.prefix_rfl, List.prefix_rfl⟩

theorem Grows.trans {d'' : Data} (first : Grows d d') (second : Grows d' d'') : Grows d d'' :=
  ⟨first.file.trans second.file, first.entered.trans second.entered,
    first.durable.trans second.durable⟩

theorem Grows.length_le (grows : Grows d d') (early : n ≤ d.entered.length) :
    n ≤ d'.entered.length := early.trans grows.entered.length_le

theorem Grows.take_entered (grows : Grows d d') (early : n ≤ d.entered.length) :
    d'.entered.take n = d.entered.take n := by
  obtain ⟨more, same⟩ := grows.entered
  rw [← same, List.take_append_of_le_length early]

/-- Bytes made of blocks stay so when more bytes follow. -/
theorem blocks_grow {bytes bytes' : Bytes} {entries : List Bytes}
    (here : ∃ blocks : List Bytes, bytes = blocks.flatten ∧ entries.Sublist blocks) (grows : bytes <+: bytes') :
    ∃ blocks : List Bytes, bytes' = blocks.flatten ∧ entries.Sublist blocks := by
  obtain ⟨blocks, content, inside⟩ := here
  obtain ⟨more, same⟩ := grows
  refine ⟨blocks ++ [more], ?_, ?_⟩
  · simp [← same, content]
  · exact inside.trans (List.sublist_append_left _ _)

theorem InFile.grow (here : InFile d n) (early : n ≤ d.entered.length) (grows : Grows d d') :
    InFile d' n := by
  unfold InFile
  rw [grows.take_entered early]
  exact blocks_grow here grows.file

theorem Durable.grow (here : Durable d n) (early : n ≤ d.entered.length) (grows : Grows d d') :
    Durable d' n := by
  unfold Durable
  rw [grows.take_entered early]
  exact blocks_grow here grows.durable

theorem Knows.grow {p : Pc} (know : Knows d p) (grows : Grows d d') : Knows d' p := by
  cases p with
  | leave guards mine ok =>
      cases mine with
      | none => trivial
      | some n =>
          cases ok with
          | false => trivial
          | true => exact ⟨grows.length_le know.1, know.2.grow know.1 grows⟩
  | appendDropBatch entry n => exact grows.length_le know
  | batchLockFile entry n => exact grows.length_le know
  | batchLockBatch entry n => exact grows.length_le know
  | batchWriteBatch entry n => exact grows.length_le know
  | batchDropBatch entry n => exact ⟨grows.length_le know.1, know.2.grow know.1 grows⟩
  | batchWriteEntry entry n => exact ⟨grows.length_le know.1, know.2.grow know.1 grows⟩
  | batchFsync n => exact ⟨grows.length_le know.1, know.2.grow know.1 grows⟩
  | _ => exact know

theorem InFile.mono {k : Nat} (here : InFile d n) (early : k ≤ n) : InFile d k := by
  obtain ⟨blocks, file, inside⟩ := here
  refine ⟨blocks, file, List.Sublist.trans ?_ inside⟩
  rw [← Nat.min_eq_left early, ← List.take_take]
  exact List.take_sublist _ _

theorem take_prefix_append (file more : Bytes) (n : Nat) : file.take n <+: (file ++ more).take n := by
  rw [List.take_append]
  exact List.prefix_append _ _

/-- Writing anything to the file keeps the account. -/
theorem grows_write (d : Data) (more : Bytes) : Grows d { d with file := d.file ++ more } :=
  ⟨List.prefix_append _ _, List.prefix_rfl, take_prefix_append _ _ _⟩

theorem Accounted.write (good : Accounted d) (more : Bytes) :
    Accounted { d with file := d.file ++ more } := by
  obtain ⟨w, low, batch, inFile⟩ := good
  exact ⟨w, low, batch, inFile.grow low (grows_write d more)⟩

/-- A successful write of the batch puts every entry into the file. -/
theorem Accounted.flushed (good : Accounted d) :
    InFile { d with file := d.file ++ d.batch, batch := [] } d.entered.length := by
  obtain ⟨w, low, batch, blocks, file, inside⟩ := good
  refine ⟨blocks ++ d.entered.drop w, by simp [file, batch], ?_⟩
  have all := inside.append (List.Sublist.refl (d.entered.drop w))
  rw [List.take_append_drop] at all
  rwa [List.take_length]

theorem accounted_writeBatch (good : Accounted d) (o : Outcome) :
    Accounted (writeBatch o d).2 ∧ Grows d (writeBatch o d).2 ∧
      ((writeBatch o d).1 = true → InFile (writeBatch o d).2 d.entered.length) := by
  rcases writeBatch_cases o d with done | ⟨part, failed⟩
  · rw [done]
    refine ⟨⟨d.entered.length, le_rfl, by simp, good.flushed⟩, ?_, fun _ => good.flushed⟩
    exact ⟨List.prefix_append _ _, List.prefix_rfl, take_prefix_append _ _ _⟩
  · rw [failed]
    exact ⟨good.write part, grows_write d part, fun done => by cases done⟩

theorem accounted_syncAll (good : Accounted d) (o : Outcome) :
    Accounted (syncAll o d).2 ∧ Grows d (syncAll o d).2 ∧
      ((syncAll o d).1 = true → ∀ n, InFile d n → Durable (syncAll o d).2 n) := by
  rcases syncAll_cases o d with done | failed
  · rw [done]
    refine ⟨good, ⟨List.prefix_rfl, List.prefix_rfl, ?_⟩, fun _ n inFile => ?_⟩
    · simpa using List.take_prefix _ _
    · simpa [Durable, InFile] using inFile
  · rw [failed]
    exact ⟨good, .refl d, fun done => by cases done⟩

end Grow

section Always

variable {d : Data} {p next : Pc} {l : Mutex}

theorem knows_acquire (here : code .always p = .acquire l next) (know : Knows d p) :
    Knows d next := by
  cases p with
  | leave guards => cases guards <;> cases here
  | _ => cases here <;> exact know

theorem knows_release (here : code .always p = .release l next) (know : Knows d p) :
    Knows d next := by
  cases p with
  | leave guards mine ok =>
      cases guards with
      | nil => cases here
      | cons l guards =>
          cases here
          cases mine with
          | none => trivial
          | some n => cases ok <;> exact know
  | _ => cases here <;> exact know

/-- An entry enters the batch: on the slow path it only counts as entered, on the
fast path there is nothing to make durable. -/
theorem knows_extend (good : Accounted d) {entry : Bytes}
    (slow : aofBatchSize ≤ d.batch.length + entry.length ∨
      (d.batch = [] ∧ entry = [] ∧ d.file.length ≤ d.synced)) :
    Accounted (extend entry d).1 ∧ Knows (extend entry d).1 (extend entry d).2 ∧
      Grows d (extend entry d).1 := by
  have grows : Grows d (extend entry d).1 :=
    ⟨List.prefix_rfl, List.prefix_append _ _, List.prefix_rfl⟩
  obtain ⟨w, low, batch, inFile⟩ := good
  have account : Accounted (extend entry d).1 := by
    refine ⟨w, grows.length_le low, ?_, inFile.grow low grows⟩
    simp [extend, List.drop_append_of_le_length low, batch]
  refine ⟨account, ?_, grows⟩
  simp only [extend, List.length_append]
  split
  · -- the fast path: no byte entered, and the file is durable as it is
    rename_i fast
    rcases slow with full | ⟨noBatch, rfl, synced⟩
    · exact absurd fast (by omega)
    · obtain ⟨blocks, file, inside⟩ := inFile
      have nothing : (d.entered.drop w).flatten = [] := by rw [← batch, noBatch]
      refine ⟨by simp, blocks ++ d.entered.drop w ++ [[]], ?_, ?_⟩
      · show d.file.take d.synced = _
        rw [List.take_of_length_le synced, file]
        simp [nothing]
      · have all := inside.append (List.Sublist.refl (d.entered.drop w))
        rw [List.take_append_drop] at all
        rw [List.take_of_length_le (by simp)]
        exact all.append (List.Sublist.refl _)
  · simp [Knows]

theorem knows_work {s : Writer} {ev : Event} {f : Outcome → Data → Data × Pc}
    (here : code .always (s.pc ev.task) = .work f) (good : Accounted s.data)
    (know : Knows s.data (s.pc ev.task)) (slow : TakesSlowPath s ev) :
    Accounted (f ev.choice s.data).1 ∧ Knows (f ev.choice s.data).1 (f ev.choice s.data).2 ∧
      Grows s.data (f ev.choice s.data).1 := by
  obtain ⟨noRewrite, slow⟩ := slow
  generalize at_ : s.pc ev.task = p at here know slow
  cases p with
  | leave guards mine ok =>
      cases guards with
      | cons l guards => cases here
      | nil =>
          cases here
          refine ⟨good, ?_, .refl _⟩
          show Knows s.data (begin .always ev.choice.call)
          cases call : ev.choice.call with
          | finalizeRewrite tmp =>
              rw [call] at noRewrite
              cases noRewrite
          | _ => trivial
  | appendExtend entry =>
      cases here
      exact knows_extend good slow
  | batchWriteBatch entry n =>
      cases here
      obtain ⟨account, grows, inFile⟩ := accounted_writeBatch good ev.choice
      simp only [batchWrite]
      generalize writeBatch ev.choice s.data = r at account grows inFile
      obtain ⟨ok, d⟩ := r
      cases ok with
      | true => exact ⟨account, ⟨grows.length_le know, (inFile rfl).mono know⟩, grows⟩
      | false => exact ⟨account, trivial, grows⟩
  | batchWriteEntry entry n =>
      cases here
      simp only [batchEntry, writeAll]
      split
      · rename_i outcome
        split at outcome <;> cases outcome
        exact ⟨good.write _, Knows.grow (p := .batchFsync n) know (grows_write _ _), grows_write _ _⟩
      · rename_i outcome
        split at outcome <;> cases outcome
        exact ⟨good.write _, trivial, grows_write _ _⟩
  | batchFsync n =>
      cases here
      obtain ⟨account, grows, durable⟩ := accounted_syncAll good ev.choice
      simp only [batchSync]
      generalize syncAll ev.choice s.data = r at account grows durable
      obtain ⟨ok, d⟩ := r
      cases ok with
      | true => exact ⟨account, ⟨grows.length_le know.1, durable rfl n know.2⟩, grows⟩
      | false => exact ⟨account, trivial, grows⟩
  | batchElapsed n => exact know.elim
  | flushWrite =>
      cases here
      obtain ⟨account, grows, -⟩ := accounted_writeBatch good ev.choice
      simp only [flushWork, if_true]
      generalize writeBatch ev.choice s.data = r at account grows
      obtain ⟨ok, d⟩ := r
      cases ok with
      | true =>
          obtain ⟨synced, more, -⟩ := accounted_syncAll account ev.choice
          exact ⟨synced, trivial, grows.trans more⟩
      | false => exact ⟨account, trivial, grows⟩
  | neededElapsed =>
      cases here
      refine ⟨good, ?_, .refl _⟩
      simp only
      split <;> trivial
  | neededIsEmpty => cases here; exact ⟨good, trivial, .refl _⟩
  | neededWrite empty =>
      cases here
      obtain ⟨account, grows, -⟩ := accounted_writeBatch good ev.choice
      have first : Accounted (if empty = true then (true, s.data) else writeBatch ev.choice s.data).2 ∧
          Grows s.data (if empty = true then (true, s.data) else writeBatch ev.choice s.data).2 := by
        cases empty
        · exact ⟨account, grows⟩
        · exact ⟨good, .refl _⟩
      simp only [neededWork]
      generalize (if empty = true then (true, s.data) else writeBatch ev.choice s.data) = r at first
      obtain ⟨ok, d⟩ := r
      cases ok with
      | false => exact ⟨first.1, trivial, first.2⟩
      | true =>
          obtain ⟨synced, more, -⟩ := accounted_syncAll first.1 ev.choice
          simp only
          generalize syncAll ev.choice d = q at synced more
          obtain ⟨done, d'⟩ := q
          cases done <;> exact ⟨synced, trivial, first.2.trans more⟩
  | neededStamp =>
      cases here
      exact ⟨good, trivial, ⟨List.prefix_rfl, List.prefix_rfl, List.prefix_rfl⟩⟩
  | finalWriteBatch tmp => exact know.elim
  | finalRename tmp => exact know.elim
  | _ => cases here

/-- Under policy `Always`, in every run in which every append takes the slow path,
whatever I/O fails: when `append_raw` has returned `Ok`, its entry and every entry
before it are in the part of the file that was synced. -/
theorem always_is_durable (now : Instant) (events : List Event) (s : Writer)
    (along : Along (step (code .always)) TakesSlowPath (opened now) events)
    (reached : run .always (opened now) events = some s) (t : Nat) (guards : List Mutex) (n : Nat)
    (acknowledged : s.pc t = .leave guards (some n) true) : Durable s.data n := by
  have start : Accounted (opened now).data ∧ ∀ t, Knows (opened now).data ((opened now).pc t) :=
    ⟨⟨0, le_rfl, rfl, [], rfl, List.Sublist.refl _⟩, fun _ => trivial⟩
  have know := (local_invariant (I := Accounted) (Q := Knows) knows_acquire knows_release
    (fun here good know slow =>
      have kept := knows_work here good know slow
      ⟨kept.1, kept.2.1, fun _ other => other.grow kept.2.2⟩)
    start along reached).2 t
  rw [acknowledged] at know
  exact know.2

/-- One client appends 4096 bytes: the slow path, down to the `sync_all`. -/
def fullAppend : List Event := List.replicate 11 (calm 0 (.appendRaw (List.replicate 4096 7)) 0)

theorem always_is_durable_full_entry :
    ∃ s, run .always (opened 0) fullAppend = some s ∧ s.pc 0 = .leave [] (some 1) true ∧
      Durable s.data 1 := by
  have outcome : (run .always (opened 0) fullAppend).map (·.pc 0) =
      some (.leave [] (some 1) true) := by decide +kernel
  obtain ⟨s, reached, acknowledged⟩ := Option.map_eq_some_iff.1 outcome
  exact ⟨s, reached, acknowledged,
    always_is_durable 0 fullAppend s (by decide +kernel) reached 0 [] 1 acknowledged⟩

/-- One client appends one byte: `Ok` with an empty file. -/
theorem fast_path_is_not_durable :
    ∃ s, run .always (opened 0) (List.replicate 4 (calm 0 (.appendRaw [5]) 0)) = some s ∧
      s.pc 0 = .leave [] (some 1) true ∧ ¬ Durable s.data 1 := by
  refine ⟨_, rfl, rfl, ?_⟩
  rintro ⟨blocks, file, inside⟩
  have member : [5] ∈ blocks := inside.subset (by decide)
  have empty := (List.flatten_eq_nil_iff.1 file.symm) [5] member
  cases empty

end Always

end ZetDb.Storage.AofWriter
