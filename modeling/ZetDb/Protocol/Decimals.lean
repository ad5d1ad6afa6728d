/-
# Protocol.Decimals -- the hand-written decimal readers and their range

`parse_u64_ascii` and `read_resp_line_int` replace the library's checked parse by
a loop `n = n * 10 + digit`.  Neither loop looks at the size of `n`, so a numeral
beyond the type is read modulo 2^64, and the line reader has no error for it.

* `readRespLineInt_text`: an integer line is read as the value of its text, with
  an optional sign, wrapped into 64 bits.
* `noOverflow_iff`: the loops stay inside their type exactly as long as the value
  of the digits they have met does; a larger numeral only grows.
* `decimalReaders_exact_iff`: so both readers are exact, and no operation
  overflows, exactly for the values below 2^64 and the magnitudes below 2^63.
-/
import ZetDb.Protocol.InlineAgreement

namespace ZetDb.Protocol

set_option autoImplicit false

open ZetDb.Theory.Wire ZetDb.Theory.Text ZetDb.Theory.Stream ZetDb.Domain

/-! ## The text of an integer line -/

/-- A line ends with LF, or with CR LF. -/
def lineEnd (cr : Bool) : Bytes := if cr then crlf else [10]

/-- The text of a line that has ended: it has no LF, and a CR in front of the LF
belongs to the line end. -/
structure LineText (text : Bytes) (cr : Bool) : Prop where
  no_lf : (10 : UInt8) ∉ text
  no_cr : cr = false → text.getLast? ≠ some 13

/-- The value of a digit string with an optional minus sign. -/
def signedNumeral : Bytes → Option Int
  | 45 :: digits => (parseDigits digits).map fun n : Nat => -(n : Int)
  | digits => (parseDigits digits).map fun n : Nat => (n : Int)

theorem parseDigits_eq_none {digits : Bytes} (parsed : parseDigits digits = none) :
    digits = [] ∨ ∃ b ∈ digits, isAsciiDigit b = false := by
  unfold parseDigits at parsed
  split at parsed
  · rename_i bad
    rcases Bool.or_eq_true _ _ ▸ bad with empty | other
    · exact .inl (List.isEmpty_iff.1 empty)
    · refine .inr ?_
      simpa using other
  · cases parsed

/-- The digit loop refuses any other byte. -/
theorem foldDigits_other {digits : Bytes} (other : ∃ b ∈ digits, isAsciiDigit b = false) (n : Int) :
    foldDigits n digits = .error (.syntaxText "RESP: expected integer") := by
  induction digits generalizing n with
  | nil =>
      obtain ⟨b, member, -⟩ := other
      cases member
  | cons first digits ih =>
      rw [foldDigits]
      cases digit : isAsciiDigit first with
      | false => rfl
      | true =>
          rw [if_neg (by simp)]
          apply ih
          obtain ⟨b, member, bad⟩ := other
          rcases List.mem_cons.1 member with rfl | later
          · rw [digit] at bad
            cases bad
          · exact ⟨b, later, bad⟩

theorem wrapI64_neg (i : Int) : wrapI64 (-wrapI64 i) = wrapI64 (-i) := by
  unfold wrapI64
  rw [← Int.zero_sub, Int.sub_bmod_bmod, Int.zero_sub]

/-- The digit loop over the digits of a numeral. -/
theorem foldDigits_numeral {digits : Bytes} {n : Nat} (counts : parseDigits digits = some n) :
    foldDigits 0 digits = .ok (wrapI64 n) := by
  obtain ⟨-, all, value⟩ := parseDigits_eq_some counts
  have zero : (0 : Int) = wrapI64 ((0 : Nat) : Int) := (wrapI64_of_lt (by norm_num)).symm
  rw [zero, foldDigits_digits _ all, value]

/-- The text of a line without a sign goes to the digit loop. -/
theorem parseLineInt_unsigned {text : Bytes} (filled : text ≠ []) (unsigned : text.head? ≠ some 45) :
    parseLineInt text = foldDigits 0 text := by
  unfold parseLineInt
  split
  · exact absurd rfl filled
  · exact absurd rfl unsigned
  · rfl

theorem signedNumeral_unsigned {text : Bytes} (unsigned : text.head? ≠ some 45) :
    signedNumeral text = (parseDigits text).map fun n : Nat => (n : Int) := by
  unfold signedNumeral
  split
  · exact absurd rfl unsigned
  · rfl

/-- A numeral is read as its value, wrapped. -/
theorem parseLineInt_numeral {text : Bytes} {v : Int} (value : signedNumeral text = some v) :
    parseLineInt text = .ok (wrapI64 v) := by
  by_cases minus : text.head? = some 45
  · obtain ⟨digits, rfl⟩ := List.head?_eq_some_iff.1 minus
    obtain ⟨n, counts, rfl⟩ := Option.map_eq_some_iff.1 value
    have filled : digits.isEmpty = false := by
      simpa using (parseDigits_eq_some counts).1
    rw [parseLineInt, filled, if_neg (by simp), foldDigits_numeral counts]
    exact congrArg Except.ok (wrapI64_neg n)
  · rw [signedNumeral_unsigned minus] at value
    obtain ⟨n, counts, rfl⟩ := Option.map_eq_some_iff.1 value
    rw [parseLineInt_unsigned (parseDigits_eq_some counts).1 minus, foldDigits_numeral counts]

/-- Anything else is refused. -/
theorem parseLineInt_other {text : Bytes} (value : signedNumeral text = none) :
    ∃ e, parseLineInt text = .error e := by
  by_cases minus : text.head? = some 45
  · obtain ⟨digits, rfl⟩ := List.head?_eq_some_iff.1 minus
    have value : parseDigits digits = none := Option.map_eq_none_iff.1 value
    rcases parseDigits_eq_none value with rfl | other
    · exact ⟨_, rfl⟩
    · have filled : digits.isEmpty = false := by
        obtain ⟨b, member, -⟩ := other
        cases digits with
        | nil => cases member
        | cons first digits => rfl
      refine ⟨.syntaxText "RESP: expected integer", ?_⟩
      rw [parseLineInt, filled, if_neg (by simp), foldDigits_other other]
  · rw [signedNumeral_unsigned minus] at value
    rcases parseDigits_eq_none (Option.map_eq_none_iff.1 value) with rfl | other
    · exact ⟨_, rfl⟩
    · have filled : text ≠ [] := by
        rintro rfl
        obtain ⟨b, member, -⟩ := other
        cases member
      exact ⟨_, by rw [parseLineInt_unsigned filled minus, foldDigits_other other]⟩

/-! ## The line around it -/

/-- The two markers an integer line is read behind: `*` and `$`. -/
def IsMarker (marker : UInt8) : Prop := marker = 42 ∨ marker = 36

/-- An integer line with its line end. -/
def integerLine (marker : UInt8) (text : Bytes) (cr : Bool) : Bytes := marker :: (text ++ lineEnd cr)

/-- Behind its marker a line is read up to the first LF, less the CR before it. -/
theorem readRespLineInt_found {marker : UInt8} {tail : Bytes} {pos : Nat} (numEnd : Nat)
    (found : memchr 10 (marker :: tail) = some pos)
    (stop : (if 0 < pos ∧ (marker :: tail)[pos - 1]? = some 13 then pos - 1 else pos) = numEnd) :
    readRespLineInt marker (marker :: tail) =
      (parseLineInt (((marker :: tail).take numEnd).drop 1)).map fun n => some (n, pos + 1) := by
  simp only [readRespLineInt, ne_eq, not_true_eq_false, if_false, found, stop]
  cases parseLineInt (((marker :: tail).take numEnd).drop 1) with
  | ok n => rfl
  | error e => rfl

/-- What the line reader makes of a line, whatever follows. -/
theorem readRespLineInt_text {marker : UInt8} (mark : IsMarker marker) {text : Bytes} {cr : Bool}
    (line : LineText text cr) (rest : Bytes) :
    readRespLineInt marker (integerLine marker text cr ++ rest) =
      (parseLineInt text).map fun n => some (n, (integerLine marker text cr).length) := by
  have other : marker ≠ 10 ∧ marker ≠ 13 := by
    rcases mark with rfl | rfl <;> decide
  cases cr with
  | true =>
      have absent : (10 : UInt8) ∉ marker :: (text ++ [13]) := by
        simp [line.no_lf, other.1.symm]
      have split : integerLine marker text true ++ rest = marker :: (text ++ [13]) ++ 10 :: rest := by
        simp [integerLine, lineEnd, crlf]
      have found : memchr 10 (marker :: (text ++ [13] ++ 10 :: rest)) = some (text.length + 2) := by
        have first : memchr 10 (marker :: (text ++ [13]) ++ 10 :: rest) = some _ := memchr_append absent
        simpa using first
      rw [split, List.cons_append, readRespLineInt_found (text.length + 1) found]
      · simp [integerLine, lineEnd, crlf]
      · simp
  | false =>
      have absent : (10 : UInt8) ∉ marker :: text := by
        simp [line.no_lf, other.1.symm]
      have split : integerLine marker text false ++ rest = marker :: (text ++ 10 :: rest) := by
        simp [integerLine, lineEnd]
      have found : memchr 10 (marker :: (text ++ 10 :: rest)) = some (text.length + 1) := by
        have first : memchr 10 (marker :: text ++ 10 :: rest) = some _ := memchr_append absent
        simpa using first
      have noCr : (marker :: (text ++ 10 :: rest))[text.length]? ≠ some 13 := by
        cases text using List.reverseRecOn with
        | nil => simpa using other.2
        | append_singleton text b =>
            have last := line.no_cr rfl
            simpa using last
      rw [split, readRespLineInt_found (text.length + 1) found]
      · simp [integerLine, lineEnd]
      · rw [if_neg]
        rintro ⟨-, before⟩
        exact noCr before

/-- A line that has ended has a text. -/
theorem exists_lineText {marker : UInt8} (mark : IsMarker marker) {front rest : Bytes}
    (absent : (10 : UInt8) ∉ front) (marked : (front ++ 10 :: rest).head? = some marker) :
    ∃ text cr, LineText text cr ∧ front ++ 10 :: rest = integerLine marker text cr ++ rest := by
  have other : marker ≠ 10 := by
    rcases mark with rfl | rfl <;> decide
  cases front with
  | nil =>
      cases marked
      exact absurd rfl other
  | cons first front =>
      cases marked
      have noLf : (10 : UInt8) ∉ front := fun member => absent (List.mem_cons_of_mem _ member)
      by_cases last : front.getLast? = some 13
      · obtain ⟨text, rfl⟩ := List.getLast?_eq_some_iff.1 last
        refine ⟨text, true, ⟨fun member => noLf (by simp [member]), fun same => by cases same⟩, ?_⟩
        simp [integerLine, lineEnd, crlf]
      · refine ⟨front, false, ⟨noLf, fun _ => last⟩, ?_⟩
        simp [integerLine, lineEnd]

/-! ## Where the loops overflow -/

def FitsU64 (i : Int) : Prop := 0 ≤ i ∧ i < 2 ^ 64
def FitsI64 (i : Int) : Prop := -(2 ^ 63) ≤ i ∧ i < 2 ^ 63

def wrapU64 (i : Int) : Int := i % 2 ^ 64

/-- No multiplication and no addition of the loop `n = n * 10 + digit` overflows;
the loop ends at the first byte that is not a digit. -/
def NoOverflow (fits : Int → Prop) (wrap : Int → Int) : Int → Bytes → Prop
  | _, [] => True
  | n, b :: rest => isAsciiDigit b = true →
      fits (n * 10) ∧ fits (wrap (n * 10) + digitValue b) ∧
        NoOverflow fits wrap (wrap (wrap (n * 10) + digitValue b)) rest

/-- The digits the line reader meets, behind an optional minus sign. -/
def loopDigits : Bytes → Bytes
  | 45 :: digits => digits.takeWhile isAsciiDigit
  | digits => digits.takeWhile isAsciiDigit

/-- The loop of the line reader, and the negation behind it. -/
def LineNoOverflow : Bytes → Prop
  | 45 :: digits => NoOverflow FitsI64 wrapI64 0 digits ∧ ∀ n, foldDigits 0 digits = .ok n → FitsI64 (-n)
  | digits => NoOverflow FitsI64 wrapI64 0 digits

theorem le_numeralValue (n : Nat) (digits : Bytes) : n ≤ numeralValue n digits := by
  induction digits generalizing n with
  | nil => exact Nat.le_refl n
  | cons b digits ih =>
      have grown := ih (n * 10 + digitValue b)
      have step : numeralValue n (b :: digits) = numeralValue (n * 10 + digitValue b) digits := rfl
      omega

/-- The loop overflows exactly where the digits it meets have a value too large:
the accumulator is the value of the digits so far, and it never shrinks. -/
theorem noOverflow_iff {fits : Int → Prop} {wrap : Int → Int} {top : Nat}
    (range : ∀ n : Nat, fits n ↔ n < top) (same : ∀ n : Nat, n < top → wrap n = n)
    (text : Bytes) {n : Nat} (small : n < top) :
    NoOverflow fits wrap n text ↔ numeralValue n (text.takeWhile isAsciiDigit) < top := by
  induction text generalizing n with
  | nil => exact ⟨fun _ => small, fun _ => trivial⟩
  | cons b text ih =>
      cases digit : isAsciiDigit b with
      | false =>
          rw [List.takeWhile_cons_of_neg (by simp [digit])]
          constructor
          · intro _
            exact small
          · intro _ met
            rw [digit] at met
            cases met
      | true =>
          have step : numeralValue n ((b :: text).takeWhile isAsciiDigit) =
              numeralValue (n * 10 + digitValue b) (text.takeWhile isAsciiDigit) := by
            rw [List.takeWhile_cons_of_pos digit]
            rfl
          have grown := le_numeralValue (n * 10 + digitValue b) (text.takeWhile isAsciiDigit)
          have product : ((n : Int) * 10) = ((n * 10 : Nat) : Int) := by push_cast; rfl
          rw [step, NoOverflow, product]
          constructor
          · intro loop
            obtain ⟨times, plus, rest⟩ := loop digit
            have timesSmall := (range _).1 times
            rw [same _ timesSmall] at plus rest
            have sum : ((n * 10 : Nat) : Int) + digitValue b = ((n * 10 + digitValue b : Nat) : Int) := by
              push_cast
              rfl
            rw [sum] at plus rest
            have plusSmall := (range _).1 plus
            rw [same _ plusSmall] at rest
            exact (ih plusSmall).1 rest
          · intro value _
            have timesSmall : n * 10 < top := by omega
            have plusSmall : n * 10 + digitValue b < top := by omega
            have sum : ((n * 10 : Nat) : Int) + digitValue b = ((n * 10 + digitValue b : Nat) : Int) := by
              push_cast
              rfl
            rw [same _ timesSmall, sum, same _ plusSmall]
            exact ⟨(range _).2 timesSmall, (range _).2 plusSmall, (ih plusSmall).2 value⟩

theorem noOverflow_u64 (text : Bytes) :
    NoOverflow FitsU64 wrapU64 0 text ↔ numeralValue 0 (text.takeWhile isAsciiDigit) < 2 ^ 64 := by
  have range (n : Nat) : FitsU64 n ↔ n < 2 ^ 64 := by
    unfold FitsU64
    omega
  have same (n : Nat) (small : n < 2 ^ 64) : wrapU64 n = n := by
    unfold wrapU64
    omega
  exact noOverflow_iff range same text (by decide)

theorem noOverflow_i64 (text : Bytes) :
    NoOverflow FitsI64 wrapI64 0 text ↔ numeralValue 0 (text.takeWhile isAsciiDigit) < 2 ^ 63 := by
  have range (n : Nat) : FitsI64 n ↔ n < 2 ^ 63 := by
    unfold FitsI64
    omega
  exact noOverflow_iff range (fun n small => wrapI64_of_lt small) text (by decide)

theorem takeWhile_digits {digits : Bytes} {n : Nat} (counts : parseDigits digits = some n) :
    numeralValue 0 (digits.takeWhile isAsciiDigit) = n := by
  obtain ⟨-, all, value⟩ := parseDigits_eq_some counts
  rw [List.takeWhile_eq_self_iff.2 all, value]

/-- The negation overflows on the smallest integer only, which no loop within the
range leaves behind. -/
theorem lineNoOverflow_iff (text : Bytes) :
    LineNoOverflow text ↔ numeralValue 0 (loopDigits text) < 2 ^ 63 := by
  unfold LineNoOverflow loopDigits
  split
  · rename_i digits
    rw [noOverflow_i64]
    constructor
    · exact fun both => both.1
    · intro small
      refine ⟨small, ?_⟩
      intro n folded
      cases counts : parseDigits digits with
      | none =>
          rcases parseDigits_eq_none counts with rfl | other
          · cases folded
            unfold FitsI64
            omega
          · rw [foldDigits_other other] at folded
            cases folded
      | some m =>
          rw [takeWhile_digits counts] at small
          rw [foldDigits_numeral counts, wrapI64_of_lt small] at folded
          cases folded
          unfold FitsI64
          omega
  · exact noOverflow_i64 _

/-! ## Both readers -/

/-- `parse_u64_ascii` is exact on a text. -/
structure U64Exact (text : Bytes) : Prop where
  value : parseU64Ascii text = (parseDigits text).bind fun n => if n < 2 ^ 64 then some n else none
  noOverflow : NoOverflow FitsU64 wrapU64 0 text

/-- `read_resp_line_int` is exact on a line. -/
structure LineIntExact (marker : UInt8) (text : Bytes) (cr : Bool) (rest : Bytes) : Prop where
  value : ∀ v, signedNumeral text = some v → FitsI64 v →
    readRespLineInt marker (integerLine marker text cr ++ rest) =
      .ok (some (v, (integerLine marker text cr).length))
  refused : (∀ v, signedNumeral text = some v → ¬ FitsI64 v) →
    ∃ e, readRespLineInt marker (integerLine marker text cr ++ rest) = .error e
  noOverflow : LineNoOverflow text

theorem u64Exact_iff (text : Bytes) :
    U64Exact text ↔ numeralValue 0 (text.takeWhile isAsciiDigit) < 2 ^ 64 := by
  constructor
  · intro exactly
    exact (noOverflow_u64 text).1 exactly.noOverflow
  · intro small
    refine ⟨?_, (noOverflow_u64 text).2 small⟩
    rw [parseU64Ascii_eq]
    cases counts : parseDigits text with
    | none => rfl
    | some n =>
        rw [takeWhile_digits counts] at small
        rw [Option.map_some, Option.bind_some, if_pos small, Nat.mod_eq_of_lt small]

/-- The magnitude of a numeral is the value of its digits. -/
theorem signedNumeral_magnitude {text : Bytes} {v : Int} (value : signedNumeral text = some v) :
    v.natAbs = numeralValue 0 (loopDigits text) := by
  by_cases minus : text.head? = some 45
  · obtain ⟨digits, rfl⟩ := List.head?_eq_some_iff.1 minus
    obtain ⟨n, counts, rfl⟩ := Option.map_eq_some_iff.1 value
    rw [loopDigits, takeWhile_digits counts, Int.natAbs_neg, Int.natAbs_natCast]
  · rw [signedNumeral_unsigned minus] at value
    obtain ⟨n, counts, rfl⟩ := Option.map_eq_some_iff.1 value
    have whole : loopDigits text = text.takeWhile isAsciiDigit := by
      unfold loopDigits
      split
      · exact absurd rfl minus
      · rfl
    rw [whole, takeWhile_digits counts, Int.natAbs_natCast]

theorem wrapI64_of_fits {i : Int} (fits : FitsI64 i) : wrapI64 i = i := by
  obtain ⟨low, high⟩ := fits
  exact Int.bmod_eq_of_le (by omega) (by omega)

theorem lineIntExact_iff {marker : UInt8} (mark : IsMarker marker) {text : Bytes} {cr : Bool}
    (line : LineText text cr) (rest : Bytes) :
    LineIntExact marker text cr rest ↔ numeralValue 0 (loopDigits text) < 2 ^ 63 := by
  constructor
  · intro exactly
    exact (lineNoOverflow_iff text).1 exactly.noOverflow
  · intro small
    constructor
    · intro v value fits
      rw [readRespLineInt_text mark line, parseLineInt_numeral value, wrapI64_of_fits fits]
      rfl
    · intro beyond
      rw [readRespLineInt_text mark line]
      cases value : signedNumeral text with
      | none =>
          obtain ⟨e, refused⟩ := parseLineInt_other value
          exact ⟨e, by rw [refused]; rfl⟩
      | some v =>
          have magnitude := signedNumeral_magnitude value
          refine absurd ?_ (beyond v value)
          unfold FitsI64
          omega
    · exact (lineNoOverflow_iff text).2 small

/-- The readers are exact, and none of their operations overflows, exactly where
the digits they meet have a value below 2^64, and below 2^63 behind a marker. -/
theorem decimalReaders_exact_iff (number text rest : Bytes) (marker : UInt8) (cr : Bool)
    (mark : IsMarker marker) (line : LineText text cr) :
    (U64Exact number ↔ numeralValue 0 (number.takeWhile isAsciiDigit) < 2 ^ 64) ∧
      (LineIntExact marker text cr rest ↔ numeralValue 0 (loopDigits text) < 2 ^ 63) :=
  ⟨u64Exact_iff number, lineIntExact_iff mark line rest⟩

theorem decimalReaders_exact_largest :
    (U64Exact (ascii "18446744073709551615") ↔
        numeralValue 0 ((ascii "18446744073709551615").takeWhile isAsciiDigit) < 2 ^ 64) ∧
      (LineIntExact 36 (ascii "-9223372036854775807") true [] ↔
        numeralValue 0 (loopDigits (ascii "-9223372036854775807")) < 2 ^ 63) :=
  decimalReaders_exact_iff _ _ [] 36 true (.inr rfl) ⟨by decide, fun same => by cases same⟩

/-- A number of seconds just above 2^64 is a minute, and a bulk length just above
2^64 is five. -/
theorem decimalReaders_wrap :
    parseU64Ascii (ascii "18446744073709551676") = some 60 ∧
      ¬ U64Exact (ascii "18446744073709551676") ∧
      readRespLineInt 36 (integerLine 36 (ascii "18446744073709551621") true) = .ok (some (5, 23)) ∧
      ¬ LineIntExact 36 (ascii "18446744073709551621") true [] := by
  have five : readRespLineInt 36 (integerLine 36 (ascii "18446744073709551621") true) = .ok (some (5, 23)) := by
    decide +kernel
  refine ⟨by decide +kernel, ?_, five, ?_⟩
  · intro exactly
    have value := exactly.value
    revert value
    decide +kernel
  · intro exactly
    have beyond : ∀ v, signedNumeral (ascii "18446744073709551621") = some v → ¬ FitsI64 v := by
      intro v value
      have read : signedNumeral (ascii "18446744073709551621") = some 18446744073709551621 := by
        decide +kernel
      rw [read] at value
      cases value
      unfold FitsI64
      omega
    obtain ⟨e, refused⟩ := exactly.refused beyond
    rw [List.append_nil, five] at refused
    cases refused

end ZetDb.Protocol
