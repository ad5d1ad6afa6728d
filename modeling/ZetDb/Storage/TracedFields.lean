/-
# Storage.TracedFields -- the fields of the log and the snapshot, traced

The readers of `Storage.Records` return values; these are the same pieces of
`replay_aof` and `load_snapshot` as cursor programs, with every check of the limit,
every slice and the error branch of every little-endian helper written out.

Each program computes the reader it stands for (`tracedKey_reads` and the others),
and each keeps the rules of `Within`: the check in front of a read is what the
helper behind it needs, so its error branch is never taken.  A length field has at
most four bytes, so no sum exceeds the limit by more than 2^32.
-/
import ZetDb.Theory.Cursor
import ZetDb.Storage.Records

namespace ZetDb.Storage

set_option autoImplicit false

open ZetDb.Theory.Wire ZetDb.Theory.Text ZetDb.Theory.Cursor ZetDb.Theory.Cursor.Traced ZetDb.Domain

/-- What a length field can add to the cursor. -/
def lengthBound : Nat := 2 ^ 32

section Fields

variable (file : String)

def tracedKey : Traced Key := do
  let key ← sizedBytes (file ++ " truncated u16") 2
  return fromUtf8Lossy key

def tracedValue : Traced Bytes := sizedBytes (file ++ " truncated u32") 4

def tracedTtl : Traced Int := do
  let ttlMs ← checkedWord (file ++ " truncated i64") 8
  return ofTwos 64 ttlMs

def tracedSeconds : Traced Nat := checkedWord (file ++ " truncated u64") 8

def tracedCount : Traced Nat := checkedWord (file ++ " truncated u16") 2

/-- A key, its value and its time to live. -/
def tracedRecord : Traced (Key × Bytes × Int) := do
  let key ← tracedKey file
  let value ← tracedValue file
  let ttlMs ← tracedTtl file
  return (key, value, ttlMs)

/-! ## They keep the rules -/

theorem tracedKey_safe : Safe lengthBound 0 (tracedKey file) :=
  .bind (.ofSizedBytes _ (by decide) (by decide)) fun _ => .value _

theorem tracedValue_safe : Safe lengthBound 0 (tracedValue file) :=
  .ofSizedBytes _ (by decide) (by decide)

theorem tracedTtl_safe : Safe lengthBound 0 (tracedTtl file) :=
  .bind (.ofCheckedWord _ (by decide)) fun _ => .value _

theorem tracedSeconds_safe : Safe lengthBound 0 (tracedSeconds file) := .ofCheckedWord _ (by decide)

theorem tracedCount_safe : Safe lengthBound 0 (tracedCount file) := .ofCheckedWord _ (by decide)

theorem tracedRecord_safe : Safe lengthBound 0 (tracedRecord file) :=
  .bind (tracedKey_safe file) fun _ => .bind (tracedValue_safe file) fun _ =>
    .bind (tracedTtl_safe file) fun _ => .value _

/-! ## They compute the readers -/

theorem tracedKey_reads : (tracedKey file).toReader = readKey file := by
  funext data limit pos
  rw [readKey_eq_map, tracedKey, toReader_bind, toReader_sizedBytes]
  rfl

theorem tracedValue_reads : (tracedValue file).toReader = readValue file := by
  rw [readValue_eq, tracedValue, toReader_sizedBytes]

theorem tracedTtl_reads : (tracedTtl file).toReader = readTtl file := by
  funext data limit pos
  rw [readTtl_eq, tracedTtl, toReader_bind, toReader_checkedWord]
  rfl

theorem tracedSeconds_reads : (tracedSeconds file).toReader = readSeconds file := by
  rw [readSeconds_eq, tracedSeconds, toReader_checkedWord]

theorem tracedCount_reads : (tracedCount file).toReader = readCount file := by
  rw [readCount_eq, tracedCount, toReader_checkedWord]

theorem tracedRecord_reads : (tracedRecord file).toReader = readRecord file := by
  funext data limit pos
  rw [tracedRecord, readRecord, Reader.pair, toReader_bind, tracedKey_reads]
  congr 1
  funext key
  rw [toReader_bind, tracedValue_reads, Reader.pair]
  cases readValue file data limit key.2 with
  | none => rfl
  | some value =>
      rw [Option.bind_some, toReader_value, tracedTtl_reads, Option.bind_some]
      cases readTtl file data limit value.2 <;> rfl

end Fields

end ZetDb.Storage
