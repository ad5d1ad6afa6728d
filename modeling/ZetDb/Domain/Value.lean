/-
# Domain.Value -- stored values, the clock and the error types

Embeds `domain/value.rs` and `domain/errors.rs`.  A key is a `Box<str>`; the
parsers build it from the client's bytes without a check, so a key here is any
byte string.  Instants and durations are nanosecond counts; the addition of a
duration to an instant is exact, and whether it leaves the range of the platform
clock is a property of the sum, not of this type.
-/
import ZetDb.Theory.Text

namespace ZetDb.Domain

set_option autoImplicit false

open ZetDb.Theory.Wire ZetDb.Theory.Text

abbrev Key := Bytes
abbrev Instant := Nat
abbrev Duration := Nat

def Duration.fromSecs (secs : Nat) : Duration := secs * 1000000000
def Duration.fromMillis (millis : Nat) : Duration := millis * 1000000
def Duration.asMillis (d : Duration) : Nat := d / 1000000
def Duration.asSecs (d : Duration) : Nat := d / 1000000000

/-- The cast `as i64` of an unsigned count. -/
def asI64 (n : Nat) : Int := Int.bmod n (2 ^ 64)

theorem asI64_of_lt {n : Nat} (small : n < 2 ^ 63) : asI64 n = (n : Int) := by
  unfold asI64
  exact Int.bmod_eq_of_le (by omega) (by omega)

/-- Wrapping into 64 signed bits leaves 64 signed bits. -/
theorem bmod_range (i : Int) : -(2 ^ 63 : Int) ≤ Int.bmod i (2 ^ 64) ∧ Int.bmod i (2 ^ 64) < 2 ^ 63 := by
  have low := Int.le_bmod (x := i) (m := 2 ^ 64) (by decide)
  have high := Int.bmod_lt (x := i) (m := 2 ^ 64) (by decide)
  omega

theorem asI64_range (n : Nat) : -(2 ^ 63 : Int) ≤ asI64 n ∧ asI64 n < 2 ^ 63 := bmod_range n

structure ValueEntry where
  data : Bytes
  expiresAt : Option Instant
  createdAt : Option Instant
  deriving DecidableEq, Repr

namespace ValueEntry

def new (now : Instant) (data : Bytes) : ValueEntry := ⟨data, none, some now⟩

def withTtl (now : Instant) (data : Bytes) (ttl : Duration) : ValueEntry :=
  ⟨data, some (now + ttl), some now⟩

def newFast (data : Bytes) : ValueEntry := ⟨data, none, none⟩

def isExpiredAt (entry : ValueEntry) (now : Instant) : Bool :=
  match entry.expiresAt with
  | some exp => now ≥ exp
  | none => false

@[simp] theorem new_data (now : Instant) (data : Bytes) : (new now data).data = data := rfl

@[simp] theorem new_expiresAt (now : Instant) (data : Bytes) : (new now data).expiresAt = none := rfl

theorem isExpiredAt_of_none {entry : ValueEntry} (forever : entry.expiresAt = none) (now : Instant) :
    entry.isExpiredAt now = false := by
  simp [isExpiredAt, forever]

end ValueEntry

inductive EngineError where
  | storageError (msg : Bytes)
  | notAnInteger (key : Key)
  | outOfMemory
  deriving DecidableEq, Repr

/-- The `Display` text of an engine error. -/
def EngineError.toText : EngineError → Bytes
  | .storageError msg => ascii "storage error: " ++ msg
  | .notAnInteger key => ascii "value is not an integer: " ++ key
  | .outOfMemory => ascii "out of memory: max keys limit reached"

end ZetDb.Domain
