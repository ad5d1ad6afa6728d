/-
# Server.Restart -- the keys a restart brings back

A key enters through an unchecked conversion, as whatever bytes the client sent,
and leaves the disk through a lossy one: the replay of the log and the load of a
snapshot both repair it to UTF-8.  A key that is not UTF-8 is not the repair of
anything, so it never comes back; several such keys may come back as one.

`keysKept_iff`: after one SET per key, both files bring every key back under its
own bytes and with its own value exactly when all keys are UTF-8 and the count
field of the snapshot holds their number.
-/
import ZetDb.Protocol.Parser
import ZetDb.Server.Recovery
import ZetDb.Storage.Reload

namespace ZetDb.Server

set_option autoImplicit false

open ZetDb.Theory.Wire ZetDb.Theory.Text ZetDb.Theory.Replay ZetDb.Domain ZetDb.Application
  ZetDb.Storage ZetDb.Protocol

/-- A key, its value, and when it was SET. -/
structure Setting where
  time : Instant
  key : Key
  value : Bytes

namespace Setting

def command (s : Setting) : Command := .set s.key s.value none

/-- What the files store for it. -/
def record (s : Setting) : Key × Bytes × Int := (s.key, s.value, -1)

end Setting

/-- The engine that executed the SETs. -/
def settled (iter : Iter) (m : MetricsSnapshot) (settings : List Setting) : DashMapEngine :=
  executed iter m (settings.map fun s => (s.time, s.command))

/-- The replay of the log holds every key under its bytes, with its value. -/
def LogKeepsKeys (iter : Iter) (startedAt : Instant) (settings : List Setting) : Prop :=
  ∃ e count, replayAof iter startedAt (some (logBytes (settings.map Setting.command))) .new =
      some (e, count) ∧ ∀ s ∈ settings, e.contents s.key = some s.value

/-- And so does the loaded snapshot. -/
def SnapshotKeepsKeys (hash : Bytes → UInt32) (iter loadIter : Iter) (m : MetricsSnapshot)
    (stoppedAt timestamp startedAt : Nat) (settings : List Setting) : Prop :=
  ∀ s ∈ settings, (loadSnapshot hash loadIter startedAt (some (dumpSnapshot hash iter stoppedAt timestamp
    (settled iter m settings))) .new).2.contents s.key = some s.value

/-! ## What the two files hold -/

section Files

variable {hash : Bytes → UInt32} {iter loadIter : Iter} {m : MetricsSnapshot}
  {stoppedAt timestamp startedAt : Nat} {settings : List Setting}

/-- SETs of distinct keys are all in force at the end, and nothing else changes. -/
theorem foldl_settings (distinct : (settings.map Setting.key).Nodup) {e : DashMapEngine}
    (good : Permanent e) :
    let final := (settings.map fun s => (s.time, s.command)).foldl (fun e h => exec iter m h.1 e h.2) e
    Permanent final ∧ (∀ s ∈ settings, final.contents s.key = some s.value) ∧
      ∀ k, k ∉ settings.map Setting.key → final.contents k = e.contents k := by
  induction settings generalizing e with
  | nil => exact ⟨good, by simp, fun _ _ => rfl⟩
  | cons s settings ih =>
      rw [List.map_cons, List.nodup_cons] at distinct
      have first : exec iter m s.time e s.command = e.insert s.key (ValueEntry.new s.time s.value) := by
        rw [Setting.command, exec_set, DashMapEngine.set_unlimited good.unlimited]
        rfl
      have kept : Permanent (e.insert s.key (ValueEntry.new s.time s.value)) := good.insert rfl
      obtain ⟨permanent, each, others⟩ := ih distinct.2 kept
      simp only [List.map_cons, List.foldl_cons, first]
      refine ⟨permanent, fun t inside => ?_, fun k missing => ?_⟩
      · rcases List.mem_cons.1 inside with rfl | later
        · rw [others _ distinct.1, contents_insert, if_pos rfl]
          rfl
        · exact each t later
      · obtain ⟨notFirst, notLater⟩ := not_or.1 (mt List.mem_cons.2 missing)
        rw [others k notLater, contents_insert, if_neg (Ne.symm notFirst)]

variable (iter m)

theorem settled_spec (distinct : (settings.map Setting.key).Nodup) :
    Permanent (settled iter m settings) ∧
      (∀ s ∈ settings, (settled iter m settings).contents s.key = some s.value) ∧
      ∀ k, k ∉ settings.map Setting.key → (settled iter m settings).contents k = none :=
  foldl_settings distinct permanent_new

/-- The records of the dump are those of the SETs. -/
theorem mem_dump_settled (distinct : (settings.map Setting.key).Nodup) (r : Key × Bytes × Int) :
    r ∈ (settled iter m settings).dumpEntries iter stoppedAt ↔ ∃ s ∈ settings, s.record = r := by
  obtain ⟨permanent, each, others⟩ := settled_spec iter m distinct
  rw [mem_dumpEntries permanent]
  constructor
  · rintro ⟨held, forever⟩
    by_cases named : r.1 ∈ settings.map Setting.key
    · obtain ⟨s, inside, same⟩ := List.mem_map.1 named
      rw [← same, each s inside] at held
      exact ⟨s, inside, Prod.ext same (Prod.ext (Option.some.inj held) forever.symm)⟩
    · rw [others _ named] at held
      cases held
  · rintro ⟨s, inside, rfl⟩
    exact ⟨each s inside, rfl⟩

theorem dump_settled_length (distinct : (settings.map Setting.key).Nodup) :
    ((settled iter m settings).dumpEntries iter stoppedAt).length = settings.length := by
  have perm : (((settled iter m settings).dumpEntries iter stoppedAt).map Prod.fst).Perm
      (settings.map Setting.key) := by
    rw [List.perm_ext_iff_of_nodup (dumpEntries_nodup _ _ _) distinct]
    intro k
    simp only [List.mem_map, mem_dump_settled iter m distinct]
    constructor
    · rintro ⟨-, ⟨s, inside, rfl⟩, rfl⟩
      exact ⟨s, inside, rfl⟩
    · rintro ⟨s, inside, rfl⟩
      exact ⟨s.record, ⟨s, inside, rfl⟩, rfl⟩
  simpa using perm.length_eq

variable {iter m}

/-- The replay of the log stores the records of the SETs, keys repaired. -/
theorem replayAof_settings (short : ∀ s ∈ settings, s.key.length ≤ 65535 ∧ ValueOk s.value) :
    replayAof iter startedAt (some (logBytes (settings.map Setting.command))) .new =
      some (storeAll startedAt ((settings.map Setting.record).map lossyRecord) .new, settings.length) := by
  have commands : settings.map Setting.command = (settings.map Setting.record).map recordCommand := by
    rw [List.map_map]
    rfl
  have fits : ∀ c ∈ settings.map Setting.command, FieldsFit c := by
    intro c inside
    obtain ⟨s, listed, rfl⟩ := List.mem_map.1 inside
    exact short s listed
  have shapes : ∀ r ∈ settings.map Setting.record, r.2.2 = -1 ∨ 0 < r.2.2 ∧ r.2.2 < 2 ^ 63 := by
    intro r inside
    obtain ⟨s, -, rfl⟩ := List.mem_map.1 inside
    exact .inl rfl
  rw [replayAof_fits iter .new startedAt fits rfl, commands, replayAll_records iter .new shapes rfl,
    List.length_map, List.length_map]

/-- The load stores as many of the dumped records as the count field says. -/
theorem loadSnapshot_settled (distinct : (settings.map Setting.key).Nodup)
    (short : ∀ s ∈ settings, s.key.length ≤ 65535 ∧ ValueOk s.value) :
    (loadSnapshot hash loadIter startedAt (some (dumpSnapshot hash iter stoppedAt timestamp
        (settled iter m settings))) .new).2 =
      storeAll startedAt ((((settled iter m settings).dumpEntries iter stoppedAt).take
        (settings.length % 2 ^ 32)).map lossyRecord) .new := by
  have fits : ∀ r ∈ (settled iter m settings).dumpEntries iter stoppedAt, RecordFits r := by
    intro r listed
    obtain ⟨s, inside, rfl⟩ := (mem_dump_settled iter m distinct r).1 listed
    exact ⟨(short s inside).1, (short s inside).2, (ttlMillis_ok none : TtlOk (-1))⟩
  rw [loadSnapshot_dump hash loadIter startedAt timestamp fits rfl, dump_settled_length iter m distinct]

theorem contents_of_lookup {e : DashMapEngine} {k : Key} {v : ValueEntry}
    (found : e.map.lookup k = some v) : e.contents k = some v.data := by
  rw [DashMapEngine.contents, found]
  rfl

/-- What is stored under a key was stored by a record of that key. -/
theorem stored_named {records : List (Key × Bytes × Int)} {k : Key} {data : Bytes}
    (held : (storeAll startedAt records .new).contents k = some data) : k ∈ records.map Prod.fst := by
  by_contra missing
  have none : (storeAll startedAt records .new).map.lookup k = (DashMapEngine.new).map.lookup k :=
    lookup_storeAll_missing fun r inside same => missing (List.mem_map.2 ⟨r, inside, same⟩)
  rw [DashMapEngine.contents, none] at held
  cases held

/-- Records of distinct UTF-8 keys are all found again. -/
theorem stored_each {records : List (Key × Bytes × Int)}
    (valid : ∀ r ∈ records, ValidUtf8 r.1)
    (unique : ∀ r ∈ records, ∀ q ∈ records, q.1 = r.1 → q = r) {r : Key × Bytes × Int}
    (inside : r ∈ records) :
    (storeAll startedAt (records.map lossyRecord) .new).contents r.1 = some r.2.1 := by
  rw [map_lossyRecord valid]
  exact contents_of_lookup (lookup_storeAll inside (unique r inside))

end Files

/-- The two files bring every key back under its own bytes, with its own value,
exactly when every key is UTF-8 and their number fits the snapshot's count. -/
theorem keysKept_iff (hash : Bytes → UInt32) (iter loadIter replayIter : Iter) (m : MetricsSnapshot)
    (stoppedAt timestamp startedAt : Nat) (settings : List Setting)
    (distinct : (settings.map Setting.key).Nodup)
    (short : ∀ s ∈ settings, s.key.length ≤ 65535 ∧ ValueOk s.value) :
    (LogKeepsKeys replayIter startedAt settings ∧
      SnapshotKeepsKeys hash iter loadIter m stoppedAt timestamp startedAt settings) ↔
        (∀ s ∈ settings, ValidUtf8 s.key) ∧ settings.length < 2 ^ 32 := by
  unfold SnapshotKeepsKeys
  rw [LogKeepsKeys, replayAof_settings short, loadSnapshot_settled distinct short]
  constructor
  · rintro ⟨⟨e, count, replayed, logged⟩, loaded⟩
    cases replayed
    constructor
    · intro s inside
      obtain ⟨r, listed, same⟩ := List.mem_map.1 (stored_named (logged s inside))
      obtain ⟨q, -, rfl⟩ := List.mem_map.1 listed
      rw [← same]
      exact fromUtf8Lossy_valid q.1
    · -- every key is named by one of the records that were loaded
      have named : settings.map Setting.key ⊆ ((((settled iter m settings).dumpEntries iter stoppedAt).take
          (settings.length % 2 ^ 32)).map lossyRecord).map Prod.fst := by
        intro k inside
        obtain ⟨s, listed, rfl⟩ := List.mem_map.1 inside
        exact stored_named (loaded s listed)
      have many := (List.subperm_of_subset distinct named).length_le
      simp only [List.length_map, List.length_take] at many
      omega
  · rintro ⟨valid, few⟩
    constructor
    · refine ⟨_, _, rfl, fun s inside => ?_⟩
      apply stored_each (r := s.record) ?_ ?_ (List.mem_map.2 ⟨s, inside, rfl⟩)
      · intro r listed
        obtain ⟨t, there, rfl⟩ := List.mem_map.1 listed
        exact valid t there
      · intro r first q second same
        obtain ⟨t, there, rfl⟩ := List.mem_map.1 first
        obtain ⟨u, elsewhere, rfl⟩ := List.mem_map.1 second
        rw [List.inj_on_of_nodup_map distinct elsewhere there same]
    · intro s inside
      rw [Nat.mod_eq_of_lt few, ← dump_settled_length iter m distinct, List.take_length]
      apply stored_each (r := s.record) ?_ ?_ ((mem_dump_settled iter m distinct _).2 ⟨s, inside, rfl⟩)
      · intro r listed
        obtain ⟨t, there, rfl⟩ := (mem_dump_settled iter m distinct r).1 listed
        exact valid t there
      · intro r first q second same
        exact dumpEntries_unique first second same

/-- Two UTF-8 keys, one of them not ASCII. -/
theorem keysKept_utf8 :
    LogKeepsKeys Iter.some 9 [⟨1, ascii "a", [0, 255]⟩, ⟨2, [0xC3, 0xA9], []⟩] ∧
      SnapshotKeepsKeys crc32 Iter.some Iter.some .new 5 7 9
        [⟨1, ascii "a", [0, 255]⟩, ⟨2, [0xC3, 0xA9], []⟩] :=
  (keysKept_iff crc32 Iter.some Iter.some Iter.some .new 5 7 9
    [⟨1, ascii "a", [0, 255]⟩, ⟨2, [0xC3, 0xA9], []⟩] (by decide) (by decide)).2
      ⟨by decide, by decide⟩

/-- The frame of a SET of a one-byte key to a one-byte value. -/
def oneByteSet (key value : UInt8) : Bytes :=
  ascii "*3\r\n$3\r\nSET\r\n$1\r\n" ++ [key] ++ ascii "\r\n$1\r\n" ++ [value] ++ ascii "\r\n"

/-- Two keys the parser admits are lost: the log brings both back as U+FFFD. -/
theorem keysKept_binary_false :
    tryParseFrame (oneByteSet 0xFE 97) = .ok (.complete 27 (Setting.command ⟨1, [0xFE], ascii "a"⟩)) ∧
      tryParseFrame (oneByteSet 0xFF 98) = .ok (.complete 27 (Setting.command ⟨2, [0xFF], ascii "b"⟩)) ∧
      ¬ LogKeepsKeys Iter.some 9 [⟨1, [0xFE], ascii "a"⟩, ⟨2, [0xFF], ascii "b"⟩] := by
  refine ⟨by decide +kernel, by decide +kernel, ?_⟩
  rw [LogKeepsKeys, replayAof_settings (by decide)]
  rintro ⟨e, count, replayed, kept⟩
  cases replayed
  obtain ⟨r, listed, same⟩ := List.mem_map.1 (stored_named (kept ⟨1, [0xFE], ascii "a"⟩ (by simp)))
  obtain ⟨q, -, rfl⟩ := List.mem_map.1 listed
  exact fromUtf8Lossy_ne (by decide) q.1 same

end ZetDb.Server
