/-
# Theory.Text -- byte text: ASCII literals, decimal numerals, lossy UTF-8

Text is a list of bytes.  Three things are needed of it.

* Numerals: `decimal` prints a natural in base ten, `decimalInt` a signed value;
  `parseUnsigned` and `parseSigned` read a numeral into a machine word and refuse
  anything else (empty text, a bare sign, a non-digit, an overflow).  Reading
  back what was printed is exact on the word's range.
* Lossy UTF-8: `fromUtf8Lossy` replaces each maximal ill-formed prefix by
  U+FFFD.  It is the identity exactly where it has nothing to replace
  (`fromUtf8Lossy_of_valid`), in particular on ASCII.
* Case: `eqIgnoreAsciiCase` compares byte by byte after ASCII lowering.
-/
import ZetDb.Theory.Wire
import Mathlib.Data.List.Basic
import Mathlib.Data.Nat.Digits.Defs
import Mathlib.Tactic.IntervalCases

namespace ZetDb.Theory.Text

set_option autoImplicit false

open ZetDb.Theory.Wire (Bytes)

/-- The bytes of an ASCII literal. -/
def ascii (s : String) : Bytes := s.toList.map fun c => UInt8.ofNat c.toNat

/-! ## ASCII case -/

def toAsciiLowercase (b : UInt8) : UInt8 := if 65 ≤ b ∧ b ≤ 90 then b + 32 else b

def eqIgnoreAsciiCase (a b : Bytes) : Bool :=
  a.length == b.length && (a.zip b).all fun p => toAsciiLowercase p.1 == toAsciiLowercase p.2

theorem eqIgnoreAsciiCase_iff (a b : Bytes) :
    eqIgnoreAsciiCase a b = true ↔ a.map toAsciiLowercase = b.map toAsciiLowercase := by
  induction a generalizing b with
  | nil => cases b <;> simp [eqIgnoreAsciiCase]
  | cons x a ih =>
      cases b with
      | nil => simp [eqIgnoreAsciiCase]
      | cons y b =>
          have rest := ih b
          simp only [eqIgnoreAsciiCase, Bool.and_eq_true, beq_iff_eq] at rest
          simp only [eqIgnoreAsciiCase, List.length_cons, List.zip_cons_cons, List.all_cons,
            Bool.and_eq_true, beq_iff_eq, List.map_cons, List.cons.injEq, Nat.add_right_cancel_iff,
            ← rest]
          exact and_left_comm

/-- A text compares with any other as each of its spellings does. -/
theorem eqIgnoreAsciiCase_congr {a b : Bytes} (same : eqIgnoreAsciiCase a b = true) (c : Bytes) :
    eqIgnoreAsciiCase a c = eqIgnoreAsciiCase b c := by
  rw [Bool.eq_iff_iff, eqIgnoreAsciiCase_iff, eqIgnoreAsciiCase_iff,
    (eqIgnoreAsciiCase_iff a b).1 same]

theorem eqIgnoreAsciiCase_length {a b : Bytes} (same : eqIgnoreAsciiCase a b = true) :
    a.length = b.length := by
  simpa using congrArg List.length ((eqIgnoreAsciiCase_iff a b).1 same)

/-! ## Decimal numerals -/

def isAsciiDigit (b : UInt8) : Bool := 48 ≤ b && b ≤ 57

def digitValue (b : UInt8) : Nat := b.toNat - 48

/-- The value of a digit string read on top of `acc`. -/
def numeralValue (acc : Nat) (digits : Bytes) : Nat :=
  digits.foldl (fun n b => n * 10 + digitValue b) acc

/-- The canonical decimal numeral: no sign, no leading zero. -/
def decimal (n : Nat) : Bytes := (Nat.toDigits 10 n).map fun c => UInt8.ofNat c.toNat

def decimalInt (i : Int) : Bytes :=
  if i < 0 then 45 :: decimal i.natAbs else decimal i.natAbs

/-- A non-empty string of digits. -/
def parseDigits (digits : Bytes) : Option Nat :=
  if digits.isEmpty || !digits.all isAsciiDigit then none else some (numeralValue 0 digits)

/-- An unsigned `bits`-bit numeral, with an optional leading `+`. -/
def parseUnsigned (bits : Nat) (text : Bytes) : Option Nat :=
  let digits := match text with
    | 43 :: rest => rest
    | other => other
  (parseDigits digits).bind fun n => if n < 2 ^ bits then some n else none

/-- A signed `bits`-bit numeral, with an optional leading `+` or `-`. -/
def parseSigned (bits : Nat) (text : Bytes) : Option Int :=
  match text with
  | 43 :: rest => (parseDigits rest).bind fun n => if n < 2 ^ (bits - 1) then some (n : Int) else none
  | 45 :: rest => (parseDigits rest).bind fun n => if n ≤ 2 ^ (bits - 1) then some (-(n : Int)) else none
  | other => (parseDigits other).bind fun n => if n < 2 ^ (bits - 1) then some (n : Int) else none

theorem parseSigned_range {bits : Nat} {text : Bytes} {i : Int} (parsed : parseSigned bits text = some i) :
    -(2 ^ (bits - 1) : Nat) ≤ i ∧ i < (2 ^ (bits - 1) : Nat) := by
  have positive : 0 < 2 ^ (bits - 1) := Nat.two_pow_pos _
  have unsigned : ∀ digits : Bytes,
      ((parseDigits digits).bind fun n => if n < 2 ^ (bits - 1) then some (n : Int) else none) = some i →
        -(2 ^ (bits - 1) : Nat) ≤ i ∧ i < (2 ^ (bits - 1) : Nat) := by
    intro digits read
    obtain ⟨n, -, kept⟩ := Option.bind_eq_some_iff.1 read
    obtain ⟨small, same⟩ := Option.ite_none_right_eq_some.1 kept
    cases same
    omega
  unfold parseSigned at parsed
  split at parsed
  · exact unsigned _ parsed
  · obtain ⟨n, -, kept⟩ := Option.bind_eq_some_iff.1 parsed
    obtain ⟨small, same⟩ := Option.ite_none_right_eq_some.1 kept
    cases same
    omega
  · exact unsigned _ parsed

theorem digitChar_byte {d : Nat} (small : d < 10) :
    UInt8.ofNat (Nat.digitChar d).toNat = UInt8.ofNat (48 + d) := by
  interval_cases d <;> rfl

theorem decimal_eq_if (n : Nat) :
    decimal n = if n < 10 then [UInt8.ofNat (48 + n)]
      else decimal (n / 10) ++ [UInt8.ofNat (48 + n % 10)] := by
  rw [decimal, Nat.toDigits_eq_if (by decide)]
  split
  · rename_i small
    simp [digitChar_byte small]
  · simp [decimal, digitChar_byte (Nat.mod_lt n (by decide))]

theorem digitByte_toNat {d : Nat} (small : d < 10) : (UInt8.ofNat (48 + d)).toNat = 48 + d := by
  rw [UInt8.toNat_ofNat']
  exact Nat.mod_eq_of_lt (by omega)

theorem isAsciiDigit_digitByte {d : Nat} (small : d < 10) :
    isAsciiDigit (UInt8.ofNat (48 + d)) = true := by
  interval_cases d <;> rfl

theorem decimal_digits (n : Nat) : ∀ b ∈ decimal n, isAsciiDigit b = true := by
  induction n using Nat.strong_induction_on with
  | _ n ih =>
      intro b member
      rw [decimal_eq_if] at member
      split at member
      · rename_i small
        rw [List.mem_singleton.1 member]
        exact isAsciiDigit_digitByte small
      · rename_i large
        rcases List.mem_append.1 member with high | low
        · exact ih (n / 10) (by omega) b high
        · rw [List.mem_singleton.1 low]
          exact isAsciiDigit_digitByte (Nat.mod_lt n (by decide))

theorem decimal_ne_nil (n : Nat) : decimal n ≠ [] := by
  rw [decimal_eq_if]
  split <;> simp

theorem decimal_length_le {n e : Nat} (positive : 0 < e) (small : n < 10 ^ e) :
    (decimal n).length ≤ e := by
  rw [decimal, List.length_map]
  exact Nat.toDigits_length 10 n e positive small

theorem decimalInt_length_le {i : Int} {e : Nat} (positive : 0 < e) (small : i.natAbs < 10 ^ e) :
    (decimalInt i).length ≤ e + 1 := by
  have := decimal_length_le positive small
  unfold decimalInt
  split
  · rw [List.length_cons]
    omega
  · omega

theorem numeralValue_append (acc : Nat) (xs ys : Bytes) :
    numeralValue acc (xs ++ ys) = numeralValue (numeralValue acc xs) ys := by
  simp [numeralValue]

/-- Reading a printed natural gives it back. -/
@[simp] theorem numeralValue_decimal (n : Nat) : numeralValue 0 (decimal n) = n := by
  induction n using Nat.strong_induction_on with
  | _ n ih =>
      rw [decimal_eq_if]
      split
      · rename_i small
        simp only [numeralValue, List.foldl_cons, List.foldl_nil, digitValue, digitByte_toNat small]
        omega
      · rename_i large
        rw [numeralValue_append, ih (n / 10) (by omega)]
        have low : n % 10 < 10 := Nat.mod_lt n (by decide)
        simp only [numeralValue, List.foldl_cons, List.foldl_nil, digitValue, digitByte_toNat low]
        omega

theorem parseDigits_eq_some {digits : Bytes} {n : Nat} (parsed : parseDigits digits = some n) :
    digits ≠ [] ∧ (∀ b ∈ digits, isAsciiDigit b = true) ∧ numeralValue 0 digits = n := by
  unfold parseDigits at parsed
  split at parsed
  · cases parsed
  · rename_i good
    cases parsed
    simp only [Bool.or_eq_true, List.isEmpty_iff, Bool.not_eq_true', not_or, Bool.not_eq_false,
      List.all_eq_true] at good
    exact ⟨good.1, good.2, rfl⟩

theorem decimal_injective {m n : Nat} (same : decimal m = decimal n) : m = n := by
  rw [← numeralValue_decimal m, same, numeralValue_decimal]

/-- A numeral in front of a byte that is no digit can be told from what follows. -/
theorem decimal_append_inj {m n : Nat} {b : UInt8} (mark : isAsciiDigit b = false) {x y : Bytes}
    (same : decimal m ++ b :: x = decimal n ++ b :: y) : m = n ∧ x = y := by
  have digits (k : Nat) (z : Bytes) : (decimal k ++ b :: z).takeWhile isAsciiDigit = decimal k := by
    rw [List.takeWhile_append_of_pos (decimal_digits k), List.takeWhile_cons_of_neg (by rw [mark]; decide),
      List.append_nil]
  have front := congrArg (List.takeWhile isAsciiDigit) same
  rw [digits, digits] at front
  rw [front] at same
  exact ⟨decimal_injective front, (List.cons.inj (List.append_cancel_left same)).2⟩

theorem parseDigits_decimal (n : Nat) : parseDigits (decimal n) = some n := by
  have all : (decimal n).all isAsciiDigit = true := List.all_eq_true.2 (decimal_digits n)
  simp [parseDigits, all, decimal_ne_nil]

/-- A digit string never starts with a sign. -/
theorem decimal_head (n : Nat) : ∃ d rest, decimal n = d :: rest ∧ d ≠ 43 ∧ d ≠ 45 := by
  cases shape : decimal n with
  | nil => exact absurd shape (decimal_ne_nil n)
  | cons d rest =>
      have digit := decimal_digits n d (by simp [shape])
      refine ⟨d, rest, rfl, ?_, ?_⟩ <;> rintro rfl <;> exact absurd digit (by decide)

theorem parseUnsigned_lt {bits n : Nat} {text : Bytes} (parsed : parseUnsigned bits text = some n) :
    n < 2 ^ bits := by
  unfold parseUnsigned at parsed
  obtain ⟨m, -, fits⟩ := Option.bind_eq_some_iff.1 parsed
  split at fits
  · cases fits
    assumption
  · cases fits

theorem parseUnsigned_decimal {bits n : Nat} (fits : n < 2 ^ bits) :
    parseUnsigned bits (decimal n) = some n := by
  obtain ⟨d, rest, shape, plus, -⟩ := decimal_head n
  have unsigned : parseUnsigned bits (decimal n) =
      (parseDigits (decimal n)).bind fun n => if n < 2 ^ bits then some n else none := by
    rw [shape]
    unfold parseUnsigned
    split
    · rename_i h
      exact absurd (List.cons.inj h).1 plus
    · rfl
  rw [unsigned, parseDigits_decimal, Option.bind_some, if_pos fits]

theorem parseSigned_decimalInt {bits : Nat} {i : Int} (low : -(2 ^ (bits - 1) : Nat) ≤ i)
    (high : i < (2 ^ (bits - 1) : Nat)) : parseSigned bits (decimalInt i) = some i := by
  by_cases negative : i < 0
  · rw [decimalInt, if_pos negative]
    simp only [parseSigned, parseDigits_decimal, Option.bind_some]
    rw [if_pos (by omega)]
    congr 1
    omega
  · rw [decimalInt, if_neg negative]
    obtain ⟨d, rest, shape, plus, minus⟩ := decimal_head i.natAbs
    have unsigned : parseSigned bits (decimal i.natAbs) = (parseDigits (decimal i.natAbs)).bind
        fun n => if n < 2 ^ (bits - 1) then some (n : Int) else none := by
      rw [shape]
      unfold parseSigned
      split
      · rename_i h
        exact absurd (List.cons.inj h).1 plus
      · rename_i h
        exact absurd (List.cons.inj h).1 minus
      · rfl
    rw [unsigned, parseDigits_decimal, Option.bind_some, if_pos (by omega)]
    congr 1
    omega

/-! ## Lossy UTF-8 -/

def isTail (b : UInt8) : Bool := 0x80 ≤ b && b ≤ 0xBF

/-- The second byte a three-byte sequence admits after its first. -/
def second3 (a b : UInt8) : Bool :=
  if a = 0xE0 then 0xA0 ≤ b && b ≤ 0xBF
  else if a = 0xED then 0x80 ≤ b && b ≤ 0x9F
  else isTail b

/-- The second byte a four-byte sequence admits after its first. -/
def second4 (a b : UInt8) : Bool :=
  if a = 0xF0 then 0x90 ≤ b && b ≤ 0xBF
  else if a = 0xF4 then 0x80 ≤ b && b ≤ 0x8F
  else isTail b

/-- The first sequence of a text: whether it is well formed, and how many bytes
it takes (for an ill-formed one, the maximal prefix that could still have been
completed). -/
def firstSequence : Bytes → Bool × Nat
  | [] => (true, 0)
  | a :: rest =>
      if a < 0x80 then (true, 1)
      else if 0xC2 ≤ a && a ≤ 0xDF then
        match rest with
        | b :: _ => if isTail b then (true, 2) else (false, 1)
        | [] => (false, 1)
      else if 0xE0 ≤ a && a ≤ 0xEF then
        match rest with
        | b :: c :: _ => if second3 a b then (if isTail c then (true, 3) else (false, 2)) else (false, 1)
        | [b] => if second3 a b then (false, 2) else (false, 1)
        | [] => (false, 1)
      else if 0xF0 ≤ a && a ≤ 0xF4 then
        match rest with
        | b :: c :: d :: _ =>
            if second4 a b then
              (if isTail c then (if isTail d then (true, 4) else (false, 3)) else (false, 2))
            else (false, 1)
        | [b, c] => if second4 a b then (if isTail c then (false, 3) else (false, 2)) else (false, 1)
        | [b] => if second4 a b then (false, 2) else (false, 1)
        | [] => (false, 1)
      else (false, 1)

/-- U+FFFD, the replacement character. -/
def replacement : Bytes := [0xEF, 0xBF, 0xBD]

/-- The fuel is the number of sequences left; a text has at most as many as bytes. -/
def lossyFrom : Nat → Bytes → Bytes
  | 0, _ => []
  | _ + 1, [] => []
  | fuel + 1, b :: bs =>
      match firstSequence (b :: bs) with
      | (true, n) => (b :: bs).take n ++ lossyFrom fuel ((b :: bs).drop n)
      | (false, n) => replacement ++ lossyFrom fuel ((b :: bs).drop n)

def fromUtf8Lossy (text : Bytes) : Bytes := lossyFrom text.length text

def validFrom : Nat → Bytes → Bool
  | _, [] => true
  | 0, _ :: _ => false
  | fuel + 1, b :: bs =>
      (firstSequence (b :: bs)).1 && validFrom fuel ((b :: bs).drop (firstSequence (b :: bs)).2)

/-- Every sequence of the text is well formed. -/
def ValidUtf8 (text : Bytes) : Prop := validFrom text.length text = true

instance (text : Bytes) : Decidable (ValidUtf8 text) := inferInstanceAs (Decidable (_ = true))

theorem lossyFrom_of_valid (fuel : Nat) (text : Bytes) (valid : validFrom fuel text = true) :
    lossyFrom fuel text = text := by
  induction fuel generalizing text with
  | zero =>
      cases text with
      | nil => rfl
      | cons b bs => simp [validFrom] at valid
  | succ fuel ih =>
      cases text with
      | nil => rfl
      | cons b bs =>
          simp only [validFrom, Bool.and_eq_true] at valid
          simp only [lossyFrom]
          split
          · rename_i n shape
            rw [shape] at valid
            rw [ih _ valid.2, List.take_append_drop]
          · rename_i n shape
            rw [shape] at valid
            exact absurd valid.1 (by simp)

/-- On well-formed text nothing is replaced. -/
theorem fromUtf8Lossy_of_valid {text : Bytes} (valid : ValidUtf8 text) :
    fromUtf8Lossy text = text :=
  lossyFrom_of_valid _ _ valid

theorem validUtf8_of_ascii {text : Bytes} (plain : ∀ b ∈ text, b < 0x80) : ValidUtf8 text := by
  unfold ValidUtf8
  induction text with
  | nil => rfl
  | cons b bs ih =>
      have head : b < 0x80 := plain b (by simp)
      simp only [List.length_cons, validFrom, firstSequence, head, if_true, List.drop_succ_cons,
        List.drop_zero, Bool.true_and]
      exact ih fun c member => plain c (by simp [member])

/-- A well-formed first sequence is nonempty, lies inside the text, and is the first
sequence of whatever starts with it. -/
theorem firstSequence_take {b : UInt8} {bs : Bytes} {n : Nat}
    (shape : firstSequence (b :: bs) = (true, n)) (more : Bytes) :
    0 < n ∧ n ≤ (b :: bs).length ∧ firstSequence ((b :: bs).take n ++ more) = (true, n) := by
  rcases bs with _ | ⟨c, _ | ⟨d, _ | ⟨f, rest⟩⟩⟩ <;> simp only [firstSequence] at shape <;>
    split_ifs at shape <;> simp only [Prod.mk.injEq, Bool.false_eq_true, false_and, true_and] at shape <;>
    subst shape <;> simp [firstSequence, *]

theorem validFrom_append {b : UInt8} {bs rest : Bytes} {fuel : Nat}
    (first : firstSequence (b :: bs ++ rest) = (true, (b :: bs).length))
    (valid : validFrom fuel rest = true) : validFrom (fuel + 1) (b :: bs ++ rest) = true := by
  have behind : (b :: bs ++ rest).drop (b :: bs).length = rest := List.drop_left
  rw [List.cons_append] at first behind ⊢
  rw [validFrom, first, behind, valid]
  rfl

/-- What the repair of a text leaves is well formed. -/
theorem validFrom_lossyFrom (fuel : Nat) (text : Bytes) {enough : Nat}
    (room : (lossyFrom fuel text).length ≤ enough) : validFrom enough (lossyFrom fuel text) = true := by
  induction fuel generalizing text enough with
  | zero => cases enough <;> rfl
  | succ fuel ih =>
      cases text with
      | nil => cases enough <;> rfl
      | cons b bs =>
          rw [lossyFrom] at room ⊢
          split at room
          · rename_i n shape
            obtain ⟨positive, inside, first⟩ :=
              firstSequence_take shape (lossyFrom fuel ((b :: bs).drop n))
            have long : ((b :: bs).take n).length = n := List.length_take_of_le inside
            obtain ⟨m, rfl⟩ : ∃ m, n = m + 1 := ⟨n - 1, by omega⟩
            rw [List.length_append, long] at room
            obtain ⟨more, rfl⟩ : ∃ more, enough = more + 1 := ⟨enough - 1, by omega⟩
            have rest := ih ((b :: bs).drop (m + 1)) (by omega : _ ≤ more)
            exact validFrom_append (first.trans (by rewrite [← long]; rfl)) rest
          · rename_i n shape
            rw [List.length_append, show replacement.length = 3 from rfl] at room
            obtain ⟨more, rfl⟩ : ∃ more, enough = more + 1 := ⟨enough - 1, by omega⟩
            have rest := ih ((b :: bs).drop n) (by omega : _ ≤ more)
            exact validFrom_append (by simp [firstSequence, second3, isTail]) rest

theorem fromUtf8Lossy_valid (text : Bytes) : ValidUtf8 (fromUtf8Lossy text) :=
  validFrom_lossyFrom _ _ le_rfl

/-- A text that needs repair is not the repair of any text. -/
theorem fromUtf8Lossy_ne {key : Bytes} (invalid : ¬ ValidUtf8 key) (text : Bytes) :
    fromUtf8Lossy text ≠ key := by
  rintro rfl
  exact invalid (fromUtf8Lossy_valid text)

theorem isAsciiDigit_lt {b : UInt8} (digit : isAsciiDigit b = true) : b < 0x80 := by
  simp only [isAsciiDigit, Bool.and_eq_true, decide_eq_true_eq] at digit
  exact UInt8.lt_of_le_of_lt digit.2 (by decide)

theorem decimalInt_ascii (i : Int) : ∀ b ∈ decimalInt i, b < 0x80 := by
  intro b member
  unfold decimalInt at member
  split at member
  · rcases List.mem_cons.1 member with rfl | digit
    · decide
    · exact isAsciiDigit_lt (decimal_digits _ b digit)
  · exact isAsciiDigit_lt (decimal_digits _ b member)

/-- The decimal text of an integer is no text to repair. -/
theorem fromUtf8Lossy_decimalInt (i : Int) : fromUtf8Lossy (decimalInt i) = decimalInt i :=
  fromUtf8Lossy_of_valid (validUtf8_of_ascii (decimalInt_ascii i))

end ZetDb.Theory.Text
