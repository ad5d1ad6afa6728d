/-
# Storage.Corruption -- an altered snapshot is refused

The checksum of a snapshot stands behind the bytes it protects.  Read as one
message, payload and checksum leave a fixed CRC register exactly when the
checksum is the payload's (`sealed_iff`), so the check of `load_snapshot` is a
property of the whole file and does not care where payload ends and checksum
begins.  `dump_snapshot` writes sealed files (`dumpSnapshot_sealed`),
`load_snapshot` refuses the others before it touches the engine
(`loadSnapshot_refuses`), and a burst of at most 32 bits breaks the seal.
-/
import ZetDb.Storage.Snapshot
import ZetDb.Theory.Crc

namespace ZetDb.Storage

set_option autoImplicit false

open ZetDb.Theory.Wire ZetDb.Theory.Text ZetDb.Theory ZetDb.Domain

/-- The IEEE polynomial, reflected. -/
def ieee : BitVec 32 := 0xEDB88320#32

theorem ieee_top : ieee.msb = true := by decide

/-! ## The checksum of the model is the register of the library -/

theorem lowBit_iff (c : UInt32) : c &&& 1 = 1 ↔ c.toBitVec.getLsbD 0 = true := by
  rw [← UInt32.toBitVec_inj, UInt32.toBitVec_and]
  show c.toBitVec &&& 1#32 = 1#32 ↔ _
  rw [BitVec.and_one_eq_setWidth_ofBool_getLsbD]
  cases c.toBitVec.getLsbD 0 <;> decide

/-- The two shifts, on a machine word and on its bits. -/
theorem shift_toBitVec (c : UInt32) :
    (if c &&& 1 = 1 then (c >>> 1) ^^^ 0xEDB88320 else c >>> 1).toBitVec =
      Crc.shift ieee c.toBitVec := by
  unfold Crc.shift
  by_cases low : c &&& 1 = 1
  · rw [if_pos low, if_pos ((lowBit_iff c).mp low)]
    rfl
  · rw [if_neg low, if_neg (fun set => low ((lowBit_iff c).mpr set))]
    rfl

theorem crc32_toBitVec (data : Bytes) :
    (crc32 data).toBitVec = Crc.register ieee (BitVec.allOnes 32) data ^^^ BitVec.allOnes 32 := by
  have byte (c : UInt32) (b : UInt8) : ((fun c : UInt32 =>
      if c &&& 1 = 1 then (c >>> 1) ^^^ 0xEDB88320 else c >>> 1)^[8] (c ^^^ b.toUInt32)).toBitVec =
        Crc.absorb ieee c.toBitVec b := by
    have wide : b.toUInt32.toBitVec = BitVec.ofNat 32 b.toNat := BitVec.eq_of_toNat_eq (by simp)
    have shifts := (Function.Semiconj.iterate_right (f := UInt32.toBitVec) shift_toBitVec 8).eq
      (c ^^^ b.toUInt32)
    rw [shifts, Crc.absorb, UInt32.toBitVec_xor, wide]
  have fold (c : UInt32) : (data.foldl (fun c b => (fun c : UInt32 =>
      if c &&& 1 = 1 then (c >>> 1) ^^^ 0xEDB88320 else c >>> 1)^[8] (c ^^^ b.toUInt32)) c).toBitVec =
        Crc.register ieee c.toBitVec data := by
    induction data generalizing c with
    | nil => rfl
    | cons b data ih =>
        rw [List.foldl_cons, ih, byte]
        rfl
  show (_ ^^^ _ : UInt32).toBitVec = _
  rw [UInt32.toBitVec_xor, fold]
  rfl

/-! ## Sealed files -/

/-- The file, checksum included, leaves the register every intact snapshot leaves. -/
def Sealed (file : Bytes) : Prop :=
  Crc.register ieee (BitVec.allOnes 32) file = (Crc.shift ieee)^[32] (BitVec.allOnes 32)

theorem sealed_iff (payload : Bytes) {word : Bytes} (four : word.length = 4) :
    Sealed (payload ++ word) ↔ ofLe word = (crc32 payload).toNat := by
  have fits : 8 * word.length ≤ 32 := by omega
  have sealing := Crc.register_sealed ieee_top (BitVec.allOnes 32) (BitVec.allOnes 32) payload fits
  rw [four, ← crc32_toBitVec] at sealing
  refine sealing.trans ?_
  have small : ofLe word < 2 ^ 32 := by
    have := ofLe_lt word
    rw [four] at this
    omega
  rw [← BitVec.toNat_inj, BitVec.toNat_ofNat, Nat.mod_eq_of_lt small]
  rfl

section Snapshots

variable {iter : Iter} {now : Instant}

theorem dumpSnapshot_sealed (timestamp : Nat) (live : DashMapEngine) :
    Sealed (dumpSnapshot crc32 iter now timestamp live) := by
  rw [dumpSnapshot_eq, sealed_iff _ (toLe_length 4 _)]
  exact ofLe_toLe_of_lt (UInt32.toNat_lt _)

/-- A file that is not sealed is refused, and the engine stays as it is. -/
theorem loadSnapshot_refuses {file : Bytes} (broken : ¬ Sealed file) (e : DashMapEngine) :
    ∃ text, loadSnapshot crc32 iter now (some file) e = (.error text, e) := by
  rw [loadSnapshot]
  by_cases short : file.length < headerSize + crcSize
  · exact ⟨_, if_pos short⟩
  rw [if_neg short]
  by_cases magicOk : slice file 0 4 ≠ magic
  · exact ⟨_, if_pos magicOk⟩
  rw [if_neg magicOk]
  by_cases versionOk : slice file 4 1 ≠ [version]
  · exact ⟨_, if_pos versionOk⟩
  rw [if_neg versionOk]
  have room : file.length - crcSize + 4 = file.length := by
    unfold headerSize crcSize at short
    unfold crcSize
    omega
  have stored : readU32Le "snapshot" file (file.length - crcSize) =
      .ok (ofLe (slice file (file.length - crcSize) 4), file.length - crcSize + 4) :=
    if_pos room.le
  have mismatch : ofLe (slice file (file.length - crcSize) 4) ≠
      (crc32 (file.take (file.length - crcSize))).toNat := by
    intro same
    have rest : slice file (file.length - crcSize) 4 = file.drop (file.length - crcSize) :=
      List.take_of_length_le (by rw [List.length_drop]; omega)
    have four : (file.drop (file.length - crcSize)).length = 4 := by
      rw [List.length_drop]
      omega
    rw [rest] at same
    have whole := (sealed_iff _ four).mpr same
    rw [List.take_append_drop] at whole
    exact broken whole
  simp only [stored, if_pos mismatch]
  exact ⟨_, rfl⟩

/-! ## A burst breaks the seal -/

/-- Two files that agree outside a window are the same around it. -/
theorem split_window {file original : Bytes} {start width : Nat}
    (outside : ∀ i, i < start ∨ start + width ≤ i → file[i]? = original[i]?) :
    file = original.take start ++ slice file start width ++ original.drop (start + width) := by
  have front : original.take start = file.take start := by
    apply List.ext_getElem?
    intro i
    by_cases inside : i < start
    · rw [List.getElem?_take_of_lt inside, List.getElem?_take_of_lt inside, outside i (.inl inside)]
    · rw [List.getElem?_take_eq_none (by omega), List.getElem?_take_eq_none (by omega)]
  have back : original.drop (start + width) = file.drop (start + width) := by
    apply List.ext_getElem?
    intro i
    rw [List.getElem?_drop, List.getElem?_drop, outside _ (.inr (by omega))]
  rw [front, back, slice, List.append_assoc, ← List.drop_drop, List.take_append_drop,
    List.take_append_drop]

theorem not_sealed_of_burst {file original : Bytes} (sealedFile : Sealed original)
    (long : file.length = original.length) (differ : file ≠ original) {start : Nat}
    (outside : ∀ i, i < start ∨ start + 4 ≤ i → file[i]? = original[i]?) : ¬ Sealed file := by
  have altered := split_window outside
  have intact : original = original.take start ++ slice original start 4 ++ original.drop (start + 4) :=
    split_window fun _ _ => rfl
  have windows : (slice original start 4).length = (slice file start 4).length := by
    simp only [slice, List.length_take, List.length_drop, long]
  have narrow : 8 * (slice original start 4).length ≤ 32 := by
    have : (slice original start 4).length ≤ 4 := List.length_take_le _ _
    omega
  have changed : slice original start 4 ≠ slice file start 4 := by
    intro same
    rw [← same, ← intact] at altered
    exact differ altered
  intro alsoSealed
  have burst := Crc.register_burst ieee_top (BitVec.allOnes 32) (original.take start)
    (original.drop (start + 4)) narrow windows changed
  rw [← altered, ← intact] at burst
  exact burst (sealedFile.trans alsoSealed.symm)

/-- **Localised corruption is detected.**  A file as long as a snapshot that was
dumped, different from it, and different only inside four consecutive bytes, is
refused and leaves the engine as it is. -/
theorem loadSnapshot_detects_burst (dumpIter loadIter : Iter) (dumpedAt now : Instant)
    (timestamp : Nat) (live e : DashMapEngine) {file : Bytes}
    (long : file.length = (dumpSnapshot crc32 dumpIter dumpedAt timestamp live).length)
    (differ : file ≠ dumpSnapshot crc32 dumpIter dumpedAt timestamp live) {start : Nat}
    (outside : ∀ i, i < start ∨ start + 4 ≤ i →
      file[i]? = (dumpSnapshot crc32 dumpIter dumpedAt timestamp live)[i]?) :
    ∃ text, loadSnapshot crc32 loadIter now (some file) e = (.error text, e) :=
  loadSnapshot_refuses (not_sealed_of_burst (dumpSnapshot_sealed timestamp live) long differ outside) e

/-- The snapshot of an engine that holds one entry, up to its last payload byte. -/
def oneEntryFile : Bytes :=
  ascii "ZDB1" ++ [1, 0, 1, 0, 0, 0, 0, 0, 0, 0, 0, 0, 0, 0, 1, 0, 107, 1, 0, 0, 0, 118,
    255, 255, 255, 255, 255, 255, 255]

theorem oneEntryFile_dumped :
    dumpSnapshot crc32 Iter.some 0 0 (DashMapEngine.new.insert (ascii "k") ⟨ascii "v", none, none⟩) =
      oneEntryFile ++ [255, 224, 232, 216, 174] := by
  rw [dumpSnapshot, DashMapEngine.dumpEntries, DashMapEngine.insert, DashMapEngine.new,
    Iter.list_singleton]
  decide +kernel

/-- The last byte of the payload and the first two of the checksum are altered. -/
theorem loadSnapshot_detects_burst_straddling :
    ∃ text, loadSnapshot crc32 Iter.some 0 (some (oneEntryFile ++ [127, 0, 0, 216, 174])) .new =
      (.error text, .new) := by
  apply loadSnapshot_detects_burst Iter.some Iter.some 0 0 0
    (DashMapEngine.new.insert (ascii "k") ⟨ascii "v", none, none⟩) .new
  · rw [oneEntryFile_dumped]
    rfl
  · rw [oneEntryFile_dumped]
    decide +kernel
  · intro i outside
    rw [oneEntryFile_dumped]
    have inside : ∀ i < 38, i < 33 ∨ 33 + 4 ≤ i →
        (oneEntryFile ++ [127, 0, 0, 216, 174])[i]? = (oneEntryFile ++ [255, 224, 232, 216, 174])[i]? := by
      decide +kernel
    by_cases short : i < 38
    · exact inside i short outside
    · rw [List.getElem?_eq_none (Nat.not_lt.mp short), List.getElem?_eq_none (Nat.not_lt.mp short)]

end Snapshots

end ZetDb.Storage
