/-
# Storage.Snapshot -- the binary snapshot file

Embeds `dump_snapshot` and `load_snapshot` of `storage/snapshot.rs`.  The file is
a header (magic, version, flags, a `u32` entry count, a timestamp), the records
and a CRC of everything before it.  The checksum comes from a crate outside the
repository, so it is a parameter `hash`; a snapshot that is read back unchanged
passes the check whatever the checksum is.

`loadSnapshot_dump`: a dump is read back record by record, as many records as the
count field holds.
-/
import ZetDb.Storage.Aof
import Mathlib.Logic.Function.Iterate

namespace ZetDb.Storage

set_option autoImplicit false

open ZetDb.Theory.Wire ZetDb.Theory.Text ZetDb.Domain

def magic : Bytes := ascii "ZDB1"
def version : UInt8 := 1
def headerSize : Nat := 4 + 1 + 1 + 4 + 8
def crcSize : Nat := 4

/-- The IEEE CRC-32 the checksum crate documents, bit by bit: the concrete `hash`. -/
def crc32 (data : Bytes) : UInt32 :=
  let shift (crc : UInt32) : UInt32 := if crc &&& 1 = 1 then (crc >>> 1) ^^^ 0xEDB88320 else crc >>> 1
  let byte (crc : UInt32) (b : UInt8) : UInt32 := shift^[8] (crc ^^^ b.toUInt32)
  data.foldl byte 0xFFFFFFFF ^^^ 0xFFFFFFFF

-- the check value of the algorithm
example : crc32 (ascii "123456789") = 0xCBF43926 := by decide +kernel

section Files

variable (hash : Bytes → UInt32) (iter : Iter) (now : Instant)

/-- The bytes a dump writes to the snapshot file; `timestamp` is the wall clock
in milliseconds. -/
def dumpSnapshot (timestamp : Nat) (e : DashMapEngine) : Bytes :=
  let entries := e.dumpEntries iter now
  let buf := magic ++ [version] ++ [0] ++ toLe 4 entries.length ++ toLe 8 timestamp ++
    entries.flatMap fun entry => encodeKey entry.1 ++ encodeValue entry.2.1 ++ encodeTtl entry.2.2
  buf ++ toLe 4 (hash buf).toNat

/-- The loop over the entries, bounded by the count of the header. -/
def loadEntries (data : Bytes) (payloadEnd : Nat) :
    Nat → Nat → DashMapEngine → Nat → Nat × DashMapEngine
  | 0, _, e, loaded => (loaded, e)
  | count + 1, pos, e, loaded =>
      match readRecord "snapshot" data payloadEnd pos with
      | none => (loaded, e)
      | some ((key, value, ttlMs), pos) =>
          match e.set iter now key ⟨value, expiryOf now ttlMs, some now⟩ with
          | (.error _, e) => loadEntries data payloadEnd count pos e loaded
          | (.ok (), e) => loadEntries data payloadEnd count pos e (loaded + 1)

/-- The number of entries loaded, or why the file was refused; a missing file
(`none`) loads nothing. -/
def loadSnapshot (file : Option Bytes) (e : DashMapEngine) : Except String Nat × DashMapEngine :=
  match file with
  | none => (.ok 0, e)
  | some data =>
      if data.length < headerSize + crcSize then (.error "snapshot too short", e)
      else if slice data 0 4 ≠ magic then (.error "invalid snapshot magic", e)
      else if slice data 4 1 ≠ [version] then
        (.error ("unsupported snapshot version: " ++ toString (ofLe (slice data 4 1))), e)
      else
        let payloadEnd := data.length - crcSize
        match readU32Le "snapshot" data payloadEnd with
        | .error text => (.error text, e)
        | .ok (storedCrc, _) =>
            if storedCrc ≠ (hash (data.take payloadEnd)).toNat then (.error "snapshot CRC mismatch", e)
            else
              match readU32Le "snapshot" data 6 with
              | .error text => (.error text, e)
              | .ok (count, _) =>
                  let (loaded, e) := loadEntries iter now data payloadEnd count headerSize e 0
                  (.ok loaded, e)

end Files

/-! ## A dump is read back -/

section Load

variable {hash : Bytes → UInt32} {iter : Iter} {now : Instant} {data : Bytes} {limit pos : Nat}
  {e : DashMapEngine} {rest : Bytes}

/-- The entry a loaded record becomes. -/
def loadedEntry (now : Instant) (r : Key × Bytes × Int) : ValueEntry :=
  ⟨r.2.1, expiryOf now r.2.2, some now⟩

/-- The engine after records are stored one by one. -/
def storeAll (now : Instant) (records : List (Key × Bytes × Int)) (e : DashMapEngine) : DashMapEngine :=
  records.foldl (fun e r => e.insert r.1 (loadedEntry now r)) e

theorem loadEntries_whole (iter : Iter) (now : Instant) {records : List (Key × Bytes × Int)}
    (fits : ∀ r ∈ records, RecordFits r) (unlimited : e.maxKeys = 0)
    (here : At data limit pos (records.flatMap encodeRecord ++ rest)) (loaded : Nat) :
    loadEntries iter now data limit records.length pos e loaded =
      (loaded + records.length, storeAll now (records.map lossyRecord) e) := by
  induction records generalizing pos e loaded with
  | nil => rfl
  | cons r records ih =>
      rw [List.flatMap_cons, List.append_assoc] at here
      have read := readRecord_lossy "snapshot" (fits r (by simp)) here
      have next := ih (e := e.insert (lossyRecord r).1 (loadedEntry now (lossyRecord r)))
        (fun q inside => fits q (by simp [inside])) unlimited here.advance (loaded + 1)
      rw [List.length_cons, loadEntries, read]
      simp only [DashMapEngine.set_unlimited unlimited]
      rw [Nat.add_comm records.length 1, ← Nat.add_assoc]
      exact next

/-- The payload of a snapshot file: everything before the checksum. -/
def snapshotPayload (timestamp : Nat) (records : List (Key × Bytes × Int)) : Bytes :=
  magic ++ [version] ++ [0] ++ toLe 4 records.length ++ toLe 8 timestamp ++
    records.flatMap encodeRecord

theorem dumpSnapshot_eq (timestamp : Nat) (e : DashMapEngine) :
    dumpSnapshot hash iter now timestamp e =
      snapshotPayload timestamp (e.dumpEntries iter now) ++
        toLe 4 (hash (snapshotPayload timestamp (e.dumpEntries iter now))).toNat := by
  have same : encodeRecord = fun entry =>
      encodeKey entry.1 ++ encodeValue entry.2.1 ++ encodeTtl entry.2.2 := by
    funext entry
    simp [encodeRecord]
  simp only [dumpSnapshot, snapshotPayload, same]

theorem slice_middle (front mid back : Bytes) :
    slice (front ++ mid ++ back) front.length mid.length = mid := by
  rw [slice, List.append_assoc, List.drop_left, List.take_left]

/-- A word that stands behind `front` is read there. -/
theorem readU32Le_behind (front back : Bytes) (n : Nat) (file : String) :
    readU32Le file (front ++ toLe 4 n ++ back) front.length = .ok (n % 2 ^ 32, front.length + 4) := by
  have seen := slice_middle front (toLe 4 n) back
  rw [toLe_length] at seen
  rw [readU32Le, readLe, if_pos (by simp), seen, ofLe_toLe]
  rfl

/-- A dump is accepted, and as many of its records as the count field holds are
read back, in the order of the dump. -/
theorem loadSnapshot_dump (hash : Bytes → UInt32) (iter : Iter) (now : Instant) (timestamp : Nat)
    {live : DashMapEngine} {dumpIter : Iter} {dumpedAt : Instant}
    (fits : ∀ r ∈ live.dumpEntries dumpIter dumpedAt, RecordFits r) (unlimited : e.maxKeys = 0) :
    loadSnapshot hash iter now (some (dumpSnapshot hash dumpIter dumpedAt timestamp live)) e =
      (.ok ((live.dumpEntries dumpIter dumpedAt).length % 2 ^ 32),
        storeAll now (((live.dumpEntries dumpIter dumpedAt).take
          ((live.dumpEntries dumpIter dumpedAt).length % 2 ^ 32)).map lossyRecord) e) := by
  rw [dumpSnapshot_eq]
  generalize live.dumpEntries dumpIter dumpedAt = records at fits
  generalize crcIs : (hash (snapshotPayload timestamp records)).toNat = crc
  generalize fileIs : snapshotPayload timestamp records ++ toLe 4 crc = data
  have payloadEnd : data.length - crcSize = (snapshotPayload timestamp records).length := by
    simp [← fileIs, crcSize]
  have long : ¬ data.length < headerSize + crcSize := by
    simp [← fileIs, snapshotPayload, headerSize, crcSize, magic, ascii]
    omega
  have magicRead : slice data 0 4 = magic := by
    rw [← fileIs]
    rfl
  have versionRead : slice data 4 1 = [version] := by
    rw [← fileIs]
    rfl
  have crcRead : readU32Le "snapshot" data (snapshotPayload timestamp records).length =
      .ok (crc, (snapshotPayload timestamp records).length + 4) := by
    have read := readU32Le_behind (snapshotPayload timestamp records) [] crc "snapshot"
    rw [List.append_nil, fileIs, Nat.mod_eq_of_lt (crcIs ▸ UInt32.toNat_lt _)] at read
    exact read
  have payload : data.take (snapshotPayload timestamp records).length =
      snapshotPayload timestamp records := by
    rw [← fileIs, List.take_left]
  have countRead : readU32Le "snapshot" data 6 = .ok (records.length % 2 ^ 32, 10) := by
    have read := readU32Le_behind (magic ++ [version] ++ [0])
      (toLe 8 timestamp ++ records.flatMap encodeRecord ++ toLe 4 crc) records.length "snapshot"
    rw [← fileIs]
    simpa [snapshotPayload, magic, ascii] using read
  have here : At data (snapshotPayload timestamp records).length headerSize
      (records.flatMap encodeRecord) := by
    refine ⟨by simp [← fileIs], by simp [snapshotPayload, headerSize, magic, ascii]; omega, ?_⟩
    rw [payload]
    exact List.drop_left' (by simp [headerSize, magic, ascii])
  rw [loadSnapshot]
  simp only [if_neg long, magicRead, versionRead, payloadEnd, crcRead, payload, crcIs, countRead,
    ne_eq, not_true_eq_false, if_false]
  have short : (records.take (records.length % 2 ^ 32)).length = records.length % 2 ^ 32 := by
    rw [List.length_take]
    have := Nat.mod_le records.length (2 ^ 32)
    omega
  have split : records.flatMap encodeRecord =
      (records.take (records.length % 2 ^ 32)).flatMap encodeRecord ++
        (records.drop (records.length % 2 ^ 32)).flatMap encodeRecord := by
    rw [← List.flatMap_append, List.take_append_drop]
  rw [split] at here
  have run := loadEntries_whole iter now
    (fun r inside => fits r (List.mem_of_mem_take inside)) unlimited here 0
  rw [short, Nat.zero_add] at run
  rw [run]

end Load

end ZetDb.Storage
