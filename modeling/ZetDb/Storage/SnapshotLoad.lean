/-
# Storage.SnapshotLoad -- all checks first, then whole entries

`load_snapshot` reads a file it did not necessarily write.  It checks the length, the
magic, the version and the checksum before it touches the engine, and then loads
entries until the count of the header is reached or the next entry is cut by the end
of the payload.  Its little-endian helpers check against the end of the file, not
the end of the payload, so the guard in front of each of them is what keeps the
footer out.

* `loadEntries_entries`: the loop loads the longest sequence of whole entries the
  payload starts with, at most as many as the header says.
* `tracedLoad_safe`, `tracedLoad_loads`: the loop as a cursor program keeps the rules
  of `Within` up to the end of the payload, and computes `loadEntries`.
* `loadSnapshot_whole_entries`: both together, for every file and every outcome.
-/
import ZetDb.Storage.TracedFields
import ZetDb.Storage.Snapshot

namespace ZetDb.Storage

set_option autoImplicit false

open ZetDb.Theory.Wire ZetDb.Theory.Text ZetDb.Theory.Cursor ZetDb.Theory.Cursor.Traced ZetDb.Domain

/-! ## The entries of a file -/

/-- The bytes between the header and the checksum. -/
def entryRegion (data : Bytes) : Bytes := (data.take (data.length - crcSize)).drop headerSize

/-- The number of entries the header announces. -/
def headerCount (data : Bytes) : Nat := ofLe (slice data 6 4)

/-- The records are the entries the region starts with: all the header announces, or
all in front of the first that is not whole. -/
structure FirstEntries (region : Bytes) (count : Nat) (records : List (Key × Bytes × Int)) : Prop where
  few : records.length ≤ count
  fit : ∀ r ∈ records, RecordFits r
  encoded : ∃ rest, region = records.flatMap encodeRecord ++ rest ∧
    (records.length < count → ∀ r more, RecordFits r → rest ≠ encodeRecord r ++ more)

theorem FirstEntries.cons {region : Bytes} {count : Nat} {records : List (Key × Bytes × Int)}
    {r : Key × Bytes × Int} (fits : RecordFits r) (first : FirstEntries region count records) :
    FirstEntries (encodeRecord r ++ region) (count + 1) (r :: records) := by
  obtain ⟨rest, shape, cut⟩ := first.encoded
  refine ⟨Nat.succ_le_succ first.few, List.forall_mem_cons.2 ⟨fits, first.fit⟩, rest, ?_, ?_⟩
  · rw [List.flatMap_cons, List.append_assoc, ← shape]
  · intro fewer
    exact cut (Nat.lt_of_succ_lt_succ fewer)

section Load

variable {iter : Iter} {now : Instant} {data : Bytes} {limit pos : Nat} {e : DashMapEngine}

/-- Without a key limit the loop stores one whole entry after the other, and stops at
the first that is not whole. -/
theorem loadEntries_entries (iter : Iter) (now : Instant) (inData : limit ≤ data.length)
    (unlimited : e.maxKeys = 0) {seen : Bytes} (here : At data limit pos seen) (count loaded : Nat) :
    ∃ records, FirstEntries seen count records ∧
      loadEntries iter now data limit count pos e loaded =
        (loaded + records.length, storeAll now (records.map lossyRecord) e) := by
  induction count generalizing pos e seen loaded with
  | zero =>
      refine ⟨[], ⟨Nat.le_refl 0, by simp, seen, rfl, ?_⟩, rfl⟩
      intro fewer
      exact absurd fewer (Nat.lt_irrefl 0)
  | succ count ih =>
      have lossy : readRecord "snapshot" data limit pos =
          (rawRecord "snapshot" data limit pos).bind fun r => some (lossyRecord r.1, r.2) := by
        rw [readRecord_eq_map]
        rfl
      cases raw : rawRecord "snapshot" data limit pos with
      | none =>
          rw [raw, Option.bind_none] at lossy
          refine ⟨[], ⟨Nat.zero_le _, by simp, seen, rfl, ?_⟩, ?_⟩
          · rintro - r more fits rfl
            rw [(rawRecord_decodes "snapshot").whole fits here] at raw
            cases raw
          · rw [loadEntries, lossy]
            rfl
      | some found =>
          obtain ⟨r, next⟩ := found
          obtain ⟨fits, rfl, rest, there⟩ := (rawRecord_sound "snapshot").holds inData raw
          have shape : seen = encodeRecord r ++ rest := here.sees.symm.trans there.sees
          rw [raw, Option.bind_some] at lossy
          obtain ⟨records, first, loads⟩ := ih
            (e := e.insert (lossyRecord r).1 (loadedEntry now (lossyRecord r))) unlimited there.advance (loaded + 1)
          refine ⟨r :: records, shape ▸ first.cons fits, ?_⟩
          rw [loadEntries, lossy]
          simp only [DashMapEngine.set_unlimited unlimited]
          rw [List.length_cons, Nat.add_comm records.length 1, ← Nat.add_assoc]
          exact loads

end Load

/-! ## The loop as a cursor program -/

section Program

variable (iter : Iter) (now : Instant)

def tracedLoad : Nat → DashMapEngine → Nat → Traced (Nat × DashMapEngine)
  | 0, e, loaded => pure (loaded, e)
  | count + 1, e, loaded => do
      match ← attempt (tracedRecord "snapshot") with
      | none => pure (loaded, e)
      | some (key, value, ttlMs) =>
          match e.set iter now key ⟨value, expiryOf now ttlMs, some now⟩ with
          | (.error _, e) => tracedLoad count e loaded
          | (.ok (), e) => tracedLoad count e (loaded + 1)

theorem tracedLoad_safe (count : Nat) (e : DashMapEngine) (loaded : Nat) :
    Safe lengthBound 0 (tracedLoad iter now count e loaded) := by
  induction count generalizing e loaded with
  | zero => exact .value _
  | succ count ih =>
      refine .bind (tracedRecord_safe "snapshot").caught ?_
      intro read
      cases read with
      | none => exact .value _
      | some r =>
          simp only
          split
          · exact ih _ _
          · exact ih _ _

theorem tracedLoad_loads (data : Bytes) (limit count pos : Nat) (e : DashMapEngine) (loaded : Nat) :
    ((tracedLoad iter now count e loaded).outcome data limit pos).1 =
      some (loadEntries iter now data limit count pos e loaded) := by
  induction count generalizing pos e loaded with
  | zero => rfl
  | succ count ih =>
      have record := congrFun (congrFun (congrFun (tracedRecord_reads "snapshot") data) limit) pos
      rw [tracedLoad, outcome_attempt, loadEntries]
      cases read : readRecord "snapshot" data limit pos with
      | none =>
          rw [read] at record
          rw [toReader_eq_none record]
          rfl
      | some r =>
          rw [read] at record
          rw [toReader_eq_some record]
          simp only
          cases e.set iter now r.1.1 ⟨r.1.2.1, expiryOf now r.1.2.2, some now⟩ with
          | mk result after =>
              cases result with
              | error err => exact ih _ _ _
              | ok done => exact ih _ _ _

end Program

/-! ## Every file -/

/-- The slices taken before the entries: the magic, the version, the stored checksum,
what it is computed over, and the count. -/
def headerSlices (data : Bytes) : List (Nat × Nat) :=
  [(0, 4), (4, 1), (data.length - crcSize, crcSize), (0, data.length - crcSize), (6, 4)]

theorem headerSlices_inside {data : Bytes} (long : headerSize + crcSize ≤ data.length) :
    ∀ s ∈ headerSlices data, s.1 + s.2 ≤ data.length := by
  simp only [headerSize, crcSize] at long
  intro s member
  simp only [headerSlices, crcSize, List.mem_cons, List.not_mem_nil, or_false] at member
  rcases member with rfl | rfl | rfl | rfl | rfl <;> simp only <;> omega

/-- A file of full length is refused, or its entries are loaded. -/
theorem loadSnapshot_cases (hash : Bytes → UInt32) (iter : Iter) (now : Instant) {data : Bytes}
    (e : DashMapEngine) (long : headerSize + crcSize ≤ data.length) :
    (∃ text, loadSnapshot hash iter now (some data) e = (.error text, e)) ∨
      loadSnapshot hash iter now (some data) e =
        (.ok (loadEntries iter now data (data.length - crcSize) (headerCount data) headerSize e 0).1,
          (loadEntries iter now data (data.length - crcSize) (headerCount data) headerSize e 0).2) := by
  have crcRead : readU32Le "snapshot" data (data.length - crcSize) =
      .ok (ofLe (slice data (data.length - crcSize) 4), data.length - crcSize + 4) := by
    simp only [headerSize, crcSize] at long ⊢
    exact if_pos (by omega)
  have countRead : readU32Le "snapshot" data 6 = .ok (headerCount data, 10) := by
    simp only [headerSize, crcSize] at long
    exact if_pos (by omega)
  rw [loadSnapshot]
  simp only [if_neg (Nat.not_lt.2 long), crcRead, countRead]
  split_ifs
  · exact .inl ⟨_, rfl⟩
  · exact .inl ⟨_, rfl⟩
  · exact .inl ⟨_, rfl⟩
  · exact .inr rfl

/-- What loading `data` leaves behind where it is accepted: the entries are the first
ones of the region, and on the way every slice lies between the header and the
checksum. -/
structure LoadsFirstEntries (iter : Iter) (now : Instant) (data : Bytes) (e : DashMapEngine)
    (records : List (Key × Bytes × Int)) : Prop where
  first : FirstEntries (entryRegion data) (headerCount data) records
  inside : ∃ events final,
    tracedLoad iter now (headerCount data) e 0 data (data.length - crcSize) headerSize =
      (events, some (records.length, storeAll now (records.map lossyRecord) e), final) ∧
    Theory.Cursor.Within (data.length - crcSize) lengthBound headerSize events final

/-- Every file of full length is refused without an effect, or a number of whole
entries is loaded, in order, at most as many as the header says; no slice leaves the
data, and none of an entry reaches into the checksum. -/
theorem loadSnapshot_whole_entries (hash : Bytes → UInt32) (iter : Iter) (now : Instant) (data : Bytes)
    (e : DashMapEngine) (long : headerSize + crcSize ≤ data.length) (unlimited : e.maxKeys = 0) :
    (∀ s ∈ headerSlices data, s.1 + s.2 ≤ data.length) ∧
      ((∃ text, loadSnapshot hash iter now (some data) e = (.error text, e)) ∨
        ∃ records, loadSnapshot hash iter now (some data) e =
            (.ok records.length, storeAll now (records.map lossyRecord) e) ∧
          LoadsFirstEntries iter now data e records) := by
  refine ⟨headerSlices_inside long, ?_⟩
  rcases loadSnapshot_cases hash iter now e long with refused | loaded
  · exact .inl refused
  · have inData : data.length - crcSize ≤ data.length := Nat.sub_le _ _
    have room : headerSize ≤ data.length - crcSize := by omega
    obtain ⟨records, first, loads⟩ := loadEntries_entries iter now inData unlimited
      (⟨inData, room, rfl⟩ : At data (data.length - crcSize) headerSize (entryRegion data)) (headerCount data) 0
    have computes := tracedLoad_loads iter now data (data.length - crcSize) (headerCount data) headerSize e 0
    rw [loads, Nat.zero_add] at loaded computes
    obtain ⟨events, final, runs, keeps, -⟩ :=
      (tracedLoad_safe iter now (headerCount data) e 0).returns inData room computes
    exact .inr ⟨records, loaded, first, events, final, runs, keeps⟩

/-- A file whose header announces two entries and whose payload ends in the second. -/
def cutFile : Bytes :=
  let payload := magic ++ [version] ++ [0] ++ toLe 4 2 ++ toLe 8 0 ++
    encodeRecord (ascii "a", ascii "1", -1) ++ toLe 2 1
  payload ++ toLe 4 (crc32 payload).toNat

theorem loadSnapshot_whole_entries_cut :
    (∀ s ∈ headerSlices cutFile, s.1 + s.2 ≤ cutFile.length) ∧
      ((∃ text, loadSnapshot crc32 Iter.some 5 (some cutFile) .new = (.error text, .new)) ∨
        ∃ records, loadSnapshot crc32 Iter.some 5 (some cutFile) .new =
            (.ok records.length, storeAll 5 (records.map lossyRecord) .new) ∧
          LoadsFirstEntries Iter.some 5 cutFile .new records) :=
  loadSnapshot_whole_entries crc32 Iter.some 5 cutFile .new (by decide +kernel) rfl

end ZetDb.Storage
