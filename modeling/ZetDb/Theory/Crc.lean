/-
# Theory.Crc -- a reflected cyclic redundancy check detects every burst of its width

A reflected CRC keeps a register of `w` bits.  Each byte is added (exclusive or)
to the low end of the register, which is then shifted down eight times; a bit
that falls out adds the polynomial.

Two facts carry everything here.  A shift is linear (`shift_xor`) and, when the
polynomial has its top bit, loses nothing (`shift_injective`).  And as long as
the bytes fit in the register, absorbing them one by one is adding them all at
once and shifting afterwards (`register_word`).  Hence

* `register_burst`: two messages that differ only inside a window no wider than
  the register leave different registers;
* `register_sealed`: a message followed by a word leaves one fixed register,
  whatever the message, exactly when the word is the register the message left,
  masked -- so a checksum and the bytes it protects are one message,
  and a burst may straddle the two.
-/
import ZetDb.Theory.Wire
import Mathlib.Logic.Function.Iterate

namespace ZetDb.Theory.Crc

set_option autoImplicit false

open ZetDb.Theory.Wire

section Register

variable {w : Nat} (poly : BitVec w)

/-- One shift of the register. -/
def shift (r : BitVec w) : BitVec w :=
  if r.getLsbD 0 then (r >>> 1) ^^^ poly else r >>> 1

/-- One byte of the message. -/
def absorb (r : BitVec w) (b : UInt8) : BitVec w :=
  (shift poly)^[8] (r ^^^ BitVec.ofNat w b.toNat)

/-- The register a message leaves. -/
def register (r : BitVec w) (bytes : Bytes) : BitVec w := bytes.foldl (absorb poly) r

/-! ## A shift is linear and loses nothing -/

theorem shift_xor (a b : BitVec w) : shift poly (a ^^^ b) = shift poly a ^^^ shift poly b := by
  have cancel : ∀ x y : BitVec w, x ^^^ y = x ^^^ poly ^^^ (y ^^^ poly) := by
    intro x y
    rw [BitVec.xor_comm y poly, BitVec.xor_assoc, ← BitVec.xor_assoc poly poly y, BitVec.xor_self,
      BitVec.zero_xor]
  unfold shift
  rw [BitVec.getLsbD_xor, BitVec.ushiftRight_xor_distrib]
  cases a.getLsbD 0 <;> cases b.getLsbD 0
  · rfl
  · show a >>> 1 ^^^ b >>> 1 ^^^ poly = a >>> 1 ^^^ (b >>> 1 ^^^ poly)
    exact BitVec.xor_assoc _ _ _
  · show a >>> 1 ^^^ b >>> 1 ^^^ poly = a >>> 1 ^^^ poly ^^^ b >>> 1
    rw [BitVec.xor_assoc, BitVec.xor_comm (b >>> 1), BitVec.xor_assoc]
  · exact cancel _ _

theorem shifts_xor (n : Nat) (a b : BitVec w) :
    (shift poly)^[n] (a ^^^ b) = (shift poly)^[n] a ^^^ (shift poly)^[n] b := by
  induction n with
  | zero => rfl
  | succ n ih =>
      simp only [Function.iterate_succ_apply', ih]
      exact shift_xor poly _ _

variable {poly}

/-- Nothing but zero is shifted to zero: the bit that falls out marks the top of
the register, where a plain shift leaves a zero. -/
theorem shift_eq_zero (top : poly.msb = true) {r : BitVec w} (gone : shift poly r = 0#w) :
    r = 0#w := by
  unfold shift at gone
  cases low : r.getLsbD 0 with
  | true =>
      rw [if_pos low] at gone
      have same : r >>> 1 = poly := BitVec.xor_eq_zero_iff.mp gone
      have clear : (r >>> 1).msb = false := by simp [BitVec.msb_ushiftRight]
      rw [same, top] at clear
      exact absurd clear (by decide)
  | false =>
      rw [if_neg (by simp [low])] at gone
      apply BitVec.eq_of_getLsbD_eq
      intro i _
      cases i with
      | zero => simpa using low
      | succ i =>
          have bit := congrArg (fun x : BitVec w => x.getLsbD i) gone
          simpa [BitVec.getLsbD_ushiftRight, Nat.add_comm] using bit

theorem shift_injective (top : poly.msb = true) : Function.Injective (shift poly) := by
  intro a b same
  have gone : shift poly (a ^^^ b) = 0#w := by rw [shift_xor, same, BitVec.xor_self]
  exact BitVec.xor_eq_zero_iff.mp (shift_eq_zero top gone)

theorem register_injective (top : poly.msb = true) (bytes : Bytes) :
    Function.Injective fun r : BitVec w => register poly r bytes := by
  induction bytes with
  | nil => exact fun _ _ same => same
  | cons b bytes ih =>
      intro r s same
      have absorbed : absorb poly r b = absorb poly s b := ih same
      have added := (shift_injective top).iterate 8 absorbed
      exact (BitVec.xor_left_inj _).mp added

theorem register_append (r : BitVec w) (front back : Bytes) :
    register poly r (front ++ back) = register poly (register poly r front) back :=
  List.foldl_append

/-! ## As many bytes as the register holds -/

/-- A register whose low bit is clear only moves down. -/
theorem shift_double {m : Nat} (fits : 2 * m < 2 ^ w) :
    shift poly (BitVec.ofNat w (2 * m)) = BitVec.ofNat w m := by
  have low : (BitVec.ofNat w (2 * m)).getLsbD 0 = false := by simp [BitVec.getLsbD_ofNat]
  rw [shift, if_neg (by simp [low])]
  apply BitVec.eq_of_toNat_eq
  rw [BitVec.toNat_ushiftRight, BitVec.toNat_ofNat, BitVec.toNat_ofNat, Nat.mod_eq_of_lt fits,
    Nat.mod_eq_of_lt (by omega), Nat.shiftRight_eq_div_pow]
  omega

theorem shifts_high (n : Nat) {m : Nat} (fits : 2 ^ n * m < 2 ^ w) :
    (shift poly)^[n] (BitVec.ofNat w (2 ^ n * m)) = BitVec.ofNat w m := by
  induction n generalizing m with
  | zero => simp
  | succ n ih =>
      have double : 2 ^ (n + 1) * m = 2 * (2 ^ n * m) := by rw [Nat.pow_succ']; exact Nat.mul_assoc _ _ _
      rw [double] at fits ⊢
      rw [Function.iterate_succ_apply, shift_double fits]
      exact ih (by omega)

/-- A byte below a number it does not overlap. -/
theorem ofNat_byte_xor (b m : Nat) (small : b < 256) :
    BitVec.ofNat w (b + 256 * m) = BitVec.ofNat w b ^^^ BitVec.ofNat w (2 ^ 8 * m) := by
  apply BitVec.eq_of_getLsbD_eq
  intro i inside
  have sum : (b + 256 * m).testBit i = (2 ^ 8 * m + b).testBit i := by rw [Nat.add_comm]; rfl
  rw [BitVec.getLsbD_xor, BitVec.getLsbD_ofNat, BitVec.getLsbD_ofNat, BitVec.getLsbD_ofNat, sum,
    Nat.testBit_two_pow_mul_add m small, Nat.testBit_two_pow_mul]
  by_cases low : i < 8
  · simp [low, inside, Nat.not_le.mpr low]
  · have wide : 2 ^ 8 ≤ 2 ^ i := Nat.pow_le_pow_right (by decide) (Nat.not_lt.mp low)
    have high : b.testBit i = false := Nat.testBit_lt_two_pow (Nat.lt_of_lt_of_le small wide)
    simp [low, inside, high, Nat.not_lt.mp low]

/-- Bytes that fit in the register are absorbed as one word. -/
theorem register_word (r : BitVec w) {bytes : Bytes} (fits : 8 * bytes.length ≤ w) :
    register poly r bytes =
      (shift poly)^[8 * bytes.length] (r ^^^ BitVec.ofNat w (ofLe bytes)) := by
  induction bytes generalizing r with
  | nil => simp [register, ofLe]
  | cons b bytes ih =>
      rw [List.length_cons] at fits
      have room : 2 ^ 8 * ofLe bytes < 2 ^ w := by
        have := ofLe_lt bytes
        have wide : 2 ^ (8 * bytes.length + 8) ≤ 2 ^ w := Nat.pow_le_pow_right (by decide) (by omega)
        rw [Nat.pow_add, Nat.pow_mul, show 2 ^ 8 = 256 from rfl] at wide
        omega
      -- what is absorbed later could as well have been added eight shifts earlier
      have early : absorb poly r b ^^^ BitVec.ofNat w (ofLe bytes) =
          (shift poly)^[8] (r ^^^ BitVec.ofNat w (ofLe (b :: bytes))) := by
        rw [← shifts_high 8 room, absorb, ← shifts_xor, ofLe,
          ofNat_byte_xor _ _ b.toNat_lt, BitVec.xor_assoc]
      show register poly (absorb poly r b) bytes = _
      rw [ih _ (by omega), early, ← Function.iterate_add_apply]
      rfl

/-- Two words of one length that fit in the register and leave it equal are equal. -/
theorem ofNat_ofLe_injective {a b : Bytes} (fits : 8 * a.length ≤ w) (long : a.length = b.length)
    (same : BitVec.ofNat w (ofLe a) = BitVec.ofNat w (ofLe b)) : a = b := by
  have wide : 256 ^ a.length ≤ 2 ^ w := by
    rw [show (256 : Nat) = 2 ^ 8 from rfl, ← Nat.pow_mul]
    exact Nat.pow_le_pow_right (by decide) fits
  have numbers : ofLe a = ofLe b := by
    have := congrArg BitVec.toNat same
    rwa [BitVec.toNat_ofNat, BitVec.toNat_ofNat,
      Nat.mod_eq_of_lt (Nat.lt_of_lt_of_le (ofLe_lt a) wide),
      Nat.mod_eq_of_lt (Nat.lt_of_lt_of_le (ofLe_lt b) (long ▸ wide))] at this
  clear same wide fits
  induction a generalizing b with
  | nil => exact (List.length_eq_zero_iff.mp long.symm).symm
  | cons x a ih =>
      cases b with
      | nil => exact absurd long (by simp)
      | cons y b =>
          have := x.toNat_lt
          have := y.toNat_lt
          simp only [ofLe] at numbers
          have head : x = y := UInt8.toNat_inj.mp (by omega)
          have tail : ofLe a = ofLe b := by omega
          rw [head, ih (by simpa using long) tail]

/-- **Burst detection.**  Messages that differ, but only inside a window no wider
than the register, leave different registers. -/
theorem register_burst (top : poly.msb = true) (r : BitVec w) (front back : Bytes) {old new : Bytes}
    (fits : 8 * old.length ≤ w) (long : old.length = new.length) (differ : old ≠ new) :
    register poly r (front ++ old ++ back) ≠ register poly r (front ++ new ++ back) := by
  intro same
  rw [register_append, register_append _ (front ++ new), register_append, register_append] at same
  have window := register_injective top back same
  have newFits : 8 * new.length ≤ w := by rwa [← long]
  simp only [register_word _ fits, register_word _ newFits, ← long] at window
  have words := (BitVec.xor_right_inj _).mp ((shift_injective top).iterate _ window)
  exact differ (ofNat_ofLe_injective fits long words)

/-- A message sealed with a word leaves the shifted mask, whatever the message,
exactly when the word is the masked register of the message. -/
theorem register_sealed (top : poly.msb = true) (r mask : BitVec w) (message : Bytes) {word : Bytes}
    (fits : 8 * word.length ≤ w) :
    register poly r (message ++ word) = (shift poly)^[8 * word.length] mask ↔
      BitVec.ofNat w (ofLe word) = register poly r message ^^^ mask := by
  rw [register_append, register_word _ fits]
  constructor
  · intro same
    rw [← (shift_injective top).iterate _ same, ← BitVec.xor_assoc, BitVec.xor_self,
      BitVec.zero_xor]
  · intro sealed
    rw [sealed, ← BitVec.xor_assoc, BitVec.xor_self, BitVec.zero_xor]

end Register

end ZetDb.Theory.Crc
