/-
# Storage.SnapshotFile -- the snapshot on the disk

`dump_snapshot` writes the bytes to `{path}.tmp`, syncs it and renames it to `path`: the
calls of `Theory.Files`.  The engines are what the dumps of `run_snapshotter` and the one
of the shutdown find.

`snapshot_survives_crashes`: as long as one dump is made at a time, and each fits the
format, `load_snapshot` finds no file or restores one of the dumps, entry by entry and with
the keys as text, however many dumps failed and the machine crashed in between.  The
shutdown does not wait for a dump that is being made: `overlapping_dumps_refused` is what
that can lead to.
-/
import ZetDb.Storage.Dump
import ZetDb.Theory.Files

namespace ZetDb.Storage

set_option autoImplicit false

open ZetDb.Theory.Wire ZetDb.Theory.Text ZetDb.Theory.Files ZetDb.Domain
open ZetDb.Theory.Runs (Along)

/-- What a call of `dump_snapshot` finds. -/
structure Dump where
  iter : Iter
  now : Instant
  timestamp : Nat
  engine : DashMapEngine

def Dump.entries (d : Dump) : List (Key × Bytes × Int) := d.engine.dumpEntries d.iter d.now

def Dump.bytes (hash : Bytes → UInt32) (d : Dump) : Bytes := dumpSnapshot hash d.iter d.now d.timestamp d.engine

def tmpPath (path : String) : String := path ++ ".tmp"

/-- The calls of `dump_snapshot` on the file system. -/
def dumpCalls (hash : Bytes → UInt32) (path : String) (d : Dump) : List (Theory.Files.Call String UInt8) :=
  replacing (tmpPath path) path (d.bytes hash)

/-- The dumps are made one at a time. -/
def OneDump (hash : Bytes → UInt32) (path : String) (Made : Dump → Prop) (s : System String UInt8) :
    Event String UInt8 → Prop
  | .start _ calls => (∀ j, (s.task j).calls = []) ∧ ∃ d, Made d ∧ calls = dumpCalls hash path d
  | _ => True

/-- The entries can be written in the format's fields. -/
def Dump.Fits (d : Dump) : Prop := (∀ r ∈ d.entries, RecordFits r) ∧ d.entries.length < 2 ^ 32

theorem tmpPath_ne (path : String) : tmpPath path ≠ path := by
  intro same
  have lengths := congrArg String.length same
  rw [tmpPath, String.length_append] at lengths
  have : ".tmp".length = 4 := rfl
  omega

/-- A dump that fits is read back entry by entry. -/
theorem Dump.load {hash : Bytes → UInt32} {d : Dump} (fits : d.Fits) (iter : Iter) (now : Instant)
    {e : DashMapEngine} (unlimited : e.maxKeys = 0) :
    loadSnapshot hash iter now (some (d.bytes hash)) e =
      (.ok d.entries.length, storeAll now (d.entries.map lossyRecord) e) := by
  obtain ⟨each, few⟩ := fits
  have read := loadSnapshot_dump hash iter now d.timestamp each unlimited
  unfold Dump.entries at few
  rw [Nat.mod_eq_of_lt few, List.take_length] at read
  exact read

theorem snapshot_survives_crashes (hash : Bytes → UInt32) (path : String) (Made : Dump → Prop)
    (fits : ∀ d, Made d → d.Fits) (events : List (Event String UInt8)) (s : System String UInt8)
    (along : Along step (OneDump hash path Made) .blank events) (reached : run .blank events = some s)
    (iter : Iter) (now : Instant) (e : DashMapEngine) (unlimited : e.maxKeys = 0) :
    s.disk.read path = none ∨ ∃ d, Made d ∧
      loadSnapshot hash iter now (s.disk.read path) e =
        (.ok d.entries.length, storeAll now (d.entries.map lossyRecord) e) := by
  have exclusive : Along step (Exclusive (tmpPath path) path fun data => ∃ d, Made d ∧ data = d.bytes hash)
      .blank events := by
    refine along.mono ?_
    intro s ev one
    cases ev with
    | start i calls =>
        obtain ⟨free, d, made, rfl⟩ := one
        exact ⟨free, _, ⟨d, made, rfl⟩, rfl⟩
    | _ => trivial
  have whole := target_whole (tmpPath_ne path) good_blank exclusive reached
  cases found : s.disk.read path with
  | none => exact .inl rfl
  | some data =>
      obtain ⟨d, made, rfl⟩ := whole data found
      exact .inr ⟨d, made, Dump.load (fits d made) iter now unlimited⟩

/-- A dump is cut off by a crash when its file is created; behind it another is made. -/
def interrupted (hash : Bytes → UInt32) (path : String) (d : Dump) : List (Event String UInt8) :=
  [.start 0 (dumpCalls hash path d), .call 0 0, .crash 0 fun _ => ascii "?",
   .start 0 (dumpCalls hash path d), .call 0 0, .call 0 (d.bytes hash).length, .call 0 0, .call 0 0]

noncomputable def oneKeyDump : Dump :=
  ⟨Iter.some, 0, 0, DashMapEngine.new.insert (ascii "k") ⟨ascii "v", none, none⟩⟩

theorem permanent_oneKeyDump : Permanent oneKeyDump.engine := permanent_new.insert rfl

theorem oneKeyDump_entries : oneKeyDump.entries = [(ascii "k", ascii "v", -1)] := by
  obtain ⟨r, only⟩ := List.length_eq_one_iff.1 (dumpEntries_length Iter.some 0 permanent_oneKeyDump)
  have listed : (ascii "k", ascii "v", (-1 : Int)) ∈ oneKeyDump.engine.dumpEntries Iter.some 0 :=
    (mem_dumpEntries permanent_oneKeyDump _).2 ⟨rfl, rfl⟩
  rw [only, List.mem_singleton] at listed
  rw [listed]
  exact only

theorem snapshot_survives_crashes_interrupted :
    ∃ s, run .blank (interrupted crc32 "dump.zdb" oneKeyDump) = some s ∧
      (s.disk.read "dump.zdb" = none ∨ ∃ d, d = oneKeyDump ∧
        loadSnapshot crc32 Iter.some 5 (s.disk.read "dump.zdb") .new =
          (.ok d.entries.length, storeAll 5 (d.entries.map lossyRecord) .new)) := by
  have fits : ∀ d, d = oneKeyDump → d.Fits := by
    rintro d rfl
    rw [Dump.Fits, oneKeyDump_entries]
    refine ⟨?_, by decide⟩
    rintro r inside
    cases List.mem_singleton.1 inside
    exact ⟨by decide, by decide, by unfold TtlOk; decide⟩
  have reached : (run .blank (interrupted crc32 "dump.zdb" oneKeyDump)).isSome = true := by
    simp [interrupted, dumpCalls, replacing, run, Theory.Runs.run, step, call, System.blank, System.put, Task.idle,
      Disk.create, Disk.write, Disk.sync, Disk.rename, Disk.crash, Disk.directories, tmpPath]
  obtain ⟨s, reached⟩ := Option.isSome_iff_exists.1 reached
  have free (s : System String UInt8) (idle : ∀ j, (s.task j).calls = []) :
      OneDump crc32 "dump.zdb" (· = oneKeyDump) s (.start 0 (dumpCalls crc32 "dump.zdb" oneKeyDump)) :=
    ⟨idle, oneKeyDump, rfl, rfl⟩
  refine ⟨s, reached, snapshot_survives_crashes crc32 "dump.zdb" (· = oneKeyDump) fits _ s ?_ reached Iter.some 5
    .new rfl⟩
  refine ⟨free _ fun _ => rfl, fun _ _ => ⟨trivial, fun _ _ => ⟨trivial, fun mid crashed => ⟨free mid ?_, ?_⟩⟩⟩⟩
  · rw [step] at crashed
    obtain ⟨d, -, rfl⟩ := Option.map_eq_some_iff.1 crashed
    exact fun _ => rfl
  · exact fun _ _ => ⟨trivial, fun _ _ => ⟨trivial, fun _ _ => ⟨trivial, fun _ _ => ⟨trivial, fun _ _ => trivial⟩⟩⟩⟩

/-- A dump that is begun while another is being made, and has written nothing when the
other is renamed: the next start refuses the file. -/
theorem overlapping_dumps_refused (hash : Bytes → UInt32) (path : String) (d d' : Dump) (iter : Iter)
    (now : Instant) (e : DashMapEngine) :
    ∃ s, run .blank (overlapping (tmpPath path) path (d.bytes hash) (d'.bytes hash) 0) = some s ∧
      loadSnapshot hash iter now (s.disk.read path) e = (.error "snapshot too short", e) := by
  obtain ⟨s, reached, found⟩ := target_torn (tmpPath path) path (d.bytes hash) (d'.bytes hash) 0
  refine ⟨s, reached, ?_⟩
  rw [found]
  rfl

end ZetDb.Storage
