/-
# Protocol.Bulk -- where a bulk string ends

`read_resp_bulk` reads a length, takes that many bytes and steps over two more.
It does not look at those two, and the length has been wrapped into 64 bits, so
what it returns need not be what the client framed.

* `readRespBulk_header`: what the reader does behind a header, case by case.
* `readRespBulk_noHeader`: a line that is no header is refused.
* `bulkDelimited_iff`: what it returns is a delimited bulk string exactly if the
  header's numeral has not wrapped and the two bytes behind the data are CR LF.
-/
import ZetDb.Protocol.Decimals

namespace ZetDb.Protocol

set_option autoImplicit false

open ZetDb.Theory.Wire ZetDb.Theory.Text ZetDb.Theory.Stream ZetDb.Domain

/-! ## Headers are read in one way -/

section Lines

variable {marker : UInt8} {text text' : Bytes} {cr cr' : Bool} {rest rest' : Bytes}

/-- A numeral has neither CR nor LF. -/
theorem lineText_of_numeral {v : Int} (value : signedNumeral text = some v) (cr : Bool) :
    LineText text cr := by
  have plain : ∀ b ∈ text, b ≠ 10 ∧ b ≠ 13 := by
    have digits {ds : Bytes} {n : Nat} (counts : parseDigits ds = some n) (b : UInt8) (member : b ∈ ds) :
        b ≠ 10 ∧ b ≠ 13 := by
      have digit := (parseDigits_eq_some counts).2.1 b member
      constructor <;> rintro rfl <;> exact absurd digit (by decide)
    by_cases minus : text.head? = some 45
    · obtain ⟨ds, rfl⟩ := List.head?_eq_some_iff.1 minus
      obtain ⟨n, counts, -⟩ := Option.map_eq_some_iff.1 value
      intro b member
      rcases List.mem_cons.1 member with rfl | later
      · decide
      · exact digits counts b later
    · rw [signedNumeral_unsigned minus] at value
      obtain ⟨n, counts, -⟩ := Option.map_eq_some_iff.1 value
      exact digits counts
  constructor
  · intro member
    exact (plain 10 member).1 rfl
  · intro _ last
    exact (plain 13 (List.mem_of_getLast? last)).2 rfl

/-- The line up to its LF. -/
def lineFront (text : Bytes) (cr : Bool) : Bytes := if cr then text ++ [13] else text

theorem integerLine_eq (marker : UInt8) (text : Bytes) (cr : Bool) (rest : Bytes) :
    integerLine marker text cr ++ rest = marker :: (lineFront text cr ++ 10 :: rest) := by
  cases cr <;> simp [integerLine, lineEnd, lineFront, crlf]

theorem LineText.front_no_lf (line : LineText text cr) : (10 : UInt8) ∉ lineFront text cr := by
  cases cr <;> simp [lineFront, line.no_lf]

/-- The CR at the end belongs to the line end, so the text can be told from it. -/
theorem lineFront_inj (line : LineText text cr) (line' : LineText text' cr')
    (same : lineFront text cr = lineFront text' cr') : text = text' ∧ cr = cr' := by
  cases cr with
  | true =>
      cases cr' with
      | true => exact ⟨List.append_cancel_right same, rfl⟩
      | false =>
          have same : text ++ [13] = text' := same
          exact absurd (by rw [← same]; simp) (line'.no_cr rfl)
  | false =>
      cases cr' with
      | true =>
          have same : text = text' ++ [13] := same
          exact absurd (by rw [same]; simp) (line.no_cr rfl)
      | false => exact ⟨same, rfl⟩

/-- A buffer starts with one header at most. -/
theorem integerLine_inj (line : LineText text cr) (line' : LineText text' cr')
    (same : integerLine marker text cr ++ rest = integerLine marker text' cr' ++ rest') :
    text = text' ∧ cr = cr' ∧ rest = rest' := by
  rw [integerLine_eq, integerLine_eq] at same
  have fronts : lineFront text cr ++ 10 :: rest = lineFront text' cr' ++ 10 :: rest' :=
    (List.cons.inj same).2
  have first : memchr 10 (lineFront text cr ++ 10 :: rest) = some (lineFront text cr).length :=
    memchr_append line.front_no_lf
  have second : memchr 10 (lineFront text' cr' ++ 10 :: rest') = some (lineFront text' cr').length :=
    memchr_append line'.front_no_lf
  rw [fronts, second] at first
  obtain ⟨front, back⟩ := List.append_inj fronts (Option.some.inj first).symm
  obtain ⟨sameText, sameEnd⟩ := lineFront_inj line line' front
  exact ⟨sameText, sameEnd, (List.cons.inj back).2⟩

end Lines

/-! ## The reader -/

/-- What the bulk reader does behind a header of value `v`. -/
theorem readRespBulk_header {text : Bytes} {v : Int} (value : signedNumeral text = some v) (cr : Bool)
    (rest : Bytes) :
    readRespBulk (integerLine 36 text cr ++ rest) =
      if wrapI64 v < 0 then .ok (some ([], (integerLine 36 text cr).length))
      else if (wrapI64 v).toNat + 2 > rest.length then .ok none
      else .ok (some (rest.take (wrapI64 v).toNat,
        (integerLine 36 text cr).length + ((wrapI64 v).toNat + 2))) := by
  have header : readRespLineInt 36 (integerLine 36 text cr ++ rest) =
      .ok (some (wrapI64 v, (integerLine 36 text cr).length)) := by
    rw [readRespLineInt_text (.inr rfl) (lineText_of_numeral value cr), parseLineInt_numeral value]
    rfl
  show Scanner.bind _ _ _ = _
  rw [Scanner.bind, header]
  simp only [List.drop_left]
  by_cases negative : wrapI64 v < 0
  · rw [if_pos negative, if_pos negative]
    rfl
  · rw [if_neg negative, if_neg negative, takeBulk]
    by_cases short : (wrapI64 v).toNat + 2 > rest.length
    · rw [if_pos short, if_pos short]
    · rw [if_neg short, if_neg short]

/-- Without a header the reader waits for the end of the line, or refuses. -/
theorem readRespBulk_noHeader {b : Bytes}
    (noHeader : ∀ text cr rest v, b = integerLine 36 text cr ++ rest → signedNumeral text ≠ some v) :
    ((10 : UInt8) ∉ b ∧ readRespBulk b = .ok none) ∨ ∃ e, readRespBulk b = .error e := by
  have refuses {e : ParseError} (refused : readRespLineInt 36 b = .error e) : readRespBulk b = .error e := by
    show Scanner.bind _ _ _ = _
    rw [Scanner.bind, refused]
  cases b with
  | nil => exact .inl ⟨List.not_mem_nil, rfl⟩
  | cons first tail =>
      by_cases marked : first = 36
      · cases found : memchr 10 (first :: tail) with
        | none =>
            have absent := memchr_eq_none found
            have waits : readRespLineInt 36 (first :: tail) = .ok none := by
              apply readRespLineInt_unfinished absent
              intro head same
              cases same
              exact marked
            refine .inl ⟨absent, ?_⟩
            show Scanner.bind _ _ _ = _
            rw [Scanner.bind, waits]
        | some pos =>
            obtain ⟨front, rest, shape, absent, -⟩ := memchr_eq_some found
            have head : (front ++ 10 :: rest).head? = some 36 := by
              rw [← shape, marked]
              rfl
            obtain ⟨text, cr, line, split⟩ := exists_lineText (.inr rfl) absent head
            cases value : signedNumeral text with
            | some v => exact absurd value (noHeader text cr rest v (shape.trans split))
            | none =>
                obtain ⟨e, refused⟩ := parseLineInt_other value
                refine .inr ⟨e, refuses ?_⟩
                rw [shape, split, readRespLineInt_text (.inr rfl) line, refused]
                rfl
      · exact .inr ⟨_, refuses (if_pos marked)⟩

/-! ## Delimited bulk strings -/

/-- The first `n` bytes are a header whose numeral is the length of the data, the
data, and CR LF. -/
def Delimited (b data : Bytes) (n : Nat) : Prop :=
  ∃ text cr, signedNumeral text = some (data.length : Int) ∧
    b.take n = integerLine 36 text cr ++ data ++ crlf

/-- The first `n` bytes are a header with a negative length: the null bulk string. -/
def NullBulk (b data : Bytes) (n : Nat) : Prop :=
  ∃ text cr v, signedNumeral text = some v ∧ v < 0 ∧ data = [] ∧ b.take n = integerLine 36 text cr

/-- The buffer holds a whole line, and where that is the header of a bulk string, the
string and a line end as well. -/
def CompleteBulk (b : Bytes) : Prop :=
  (10 : UInt8) ∈ b ∧ ∀ text cr rest v, b = integerLine 36 text cr ++ rest → signedNumeral text = some v →
    v < 0 ∨ v.toNat + 2 ≤ rest.length

/-- Whatever the reader returns is delimited, or the null bulk string; for no complete
input does it wait, so any other is an error. -/
structure BulkDelimited (b : Bytes) : Prop where
  delimited (data : Bytes) (n : Nat) (read : readRespBulk b = .ok (some (data, n))) :
    Delimited b data n ∨ NullBulk b data n
  told (complete : CompleteBulk b) : readRespBulk b ≠ .ok none

/-- The bytes behind a header of value `v` are those of a bulk string: the length
is negative and has stayed so, or it is not negative and they are still too few for
the length as it was read, or it is a 64-bit one and CR LF stands behind the data. -/
def BehindHeader (v : Int) (rest : Bytes) : Prop :=
  (wrapI64 v < 0 ∧ v < 0) ∨ (0 ≤ wrapI64 v ∧ 0 ≤ v ∧ rest.length < (wrapI64 v).toNat + 2) ∨
    (0 ≤ v ∧ FitsI64 v ∧ (rest.drop v.toNat).take 2 = crlf)

/-- A length that is not negative is not wrapped to a larger one. -/
theorem wrapI64_le {v : Int} (nonneg : 0 ≤ v) : wrapI64 v ≤ v := by
  simp only [wrapI64, Int.bmod]
  split <;> omega

section Header

variable {text : Bytes} {v : Int} (value : signedNumeral text = some v) (cr : Bool) (rest : Bytes)

include value

/-- A length that reads as negative returns the header alone. -/
theorem bulkDelimited_negative (negative : wrapI64 v < 0) :
    BulkDelimited (integerLine 36 text cr ++ rest) ↔ v < 0 := by
  have line := lineText_of_numeral value cr
  have header := readRespBulk_header value cr rest
  rw [if_pos negative] at header
  have seen : (integerLine 36 text cr ++ rest).take (integerLine 36 text cr).length =
      integerLine 36 text cr := List.take_left
  constructor
  · intro good
    rcases good.delimited _ _ header with
      ⟨text', cr', value', shape⟩ | ⟨text', cr', v', value', below, -, shape⟩
    · -- a delimited string goes on behind its header
      rw [seen, ← List.append_nil (integerLine 36 text cr), List.append_assoc] at shape
      obtain ⟨-, -, nothing⟩ := integerLine_inj line (lineText_of_numeral value' cr') shape
      cases nothing
    · rw [seen, ← List.append_nil (integerLine 36 text cr), ← List.append_nil (integerLine 36 text' cr')]
        at shape
      obtain ⟨rfl, -, -⟩ := integerLine_inj line (lineText_of_numeral value' cr') shape
      cases value.symm.trans value'
      exact below
  · intro below
    constructor
    · intro data n read
      cases header.symm.trans read
      exact .inr ⟨text, cr, v, value, below, rfl, seen⟩
    · intro _ waits
      cases header.symm.trans waits

/-- The reader waits while the bytes are too few, which is right for a length that is
not negative. -/
theorem bulkDelimited_short (positive : 0 ≤ wrapI64 v) (short : rest.length < (wrapI64 v).toNat + 2) :
    BulkDelimited (integerLine 36 text cr ++ rest) ↔ 0 ≤ v := by
  have line := lineText_of_numeral value cr
  have header := readRespBulk_header value cr rest
  rw [if_neg (Int.not_lt.2 positive), if_pos short] at header
  constructor
  · intro good
    by_contra negative
    refine good.told ⟨by simp [integerLine_eq], ?_⟩ header
    intro text' cr' rest' v' shape value'
    obtain ⟨rfl, -, -⟩ := integerLine_inj line (lineText_of_numeral value' cr') shape
    cases value.symm.trans value'
    exact .inl (Int.not_le.1 negative)
  · intro nonneg
    have low := wrapI64_le nonneg
    constructor
    · intro data n read
      cases header.symm.trans read
    · intro complete
      rcases complete.2 text cr rest v rfl value with negative | enough
      · omega
      · omega

/-- With enough bytes behind the header, what is returned is delimited if the length
has not wrapped and CR LF stands behind the data. -/
theorem bulkDelimited_long (positive : 0 ≤ wrapI64 v) (long : (wrapI64 v).toNat + 2 ≤ rest.length) :
    BulkDelimited (integerLine 36 text cr ++ rest) ↔
      0 ≤ v ∧ FitsI64 v ∧ (rest.drop v.toNat).take 2 = crlf := by
  have line := lineText_of_numeral value cr
  have header := readRespBulk_header value cr rest
  rw [if_neg (Int.not_lt.2 positive), if_neg (Nat.not_lt.2 long)] at header
  generalize wrapped : (wrapI64 v).toNat = len at header long
  have seen : (integerLine 36 text cr ++ rest).take ((integerLine 36 text cr).length + (len + 2)) =
      integerLine 36 text cr ++ (rest.take len ++ (rest.drop len).take 2) := by
    rw [List.take_length_add_append, List.take_add]
  have size : (rest.take len).length = len := by
    rw [List.length_take]
    omega
  constructor
  · intro good
    rcases good.delimited _ _ header with ⟨text', cr', value', shape⟩ | ⟨text', cr', v', value', -, -, shape⟩
    · rw [seen, List.append_assoc] at shape
      obtain ⟨rfl, -, tail⟩ := integerLine_inj line (lineText_of_numeral value' cr') shape
      cases value.symm.trans value'
      have closed := List.append_cancel_left tail
      rw [size] at wrapped positive ⊢
      have same : wrapI64 (len : Int) = (len : Int) := by omega
      have range := bmod_range (len : Int)
      rw [wrapI64] at same
      rw [same] at range
      exact ⟨by omega, range, by simpa using closed⟩
    · -- the null bulk string ends with its header
      rw [seen, ← List.append_nil (integerLine 36 text' cr')] at shape
      obtain ⟨-, -, nothing⟩ := integerLine_inj line (lineText_of_numeral value' cr') shape
      have none := congrArg List.length nothing
      simp only [List.length_append, List.length_take, List.length_drop, List.length_nil] at none
      omega
  · rintro ⟨nonneg, fits, closed⟩
    constructor
    · intro data n read
      cases header.symm.trans read
      rw [wrapI64_of_fits fits] at wrapped
      subst wrapped
      refine .inl ⟨text, cr, ?_, ?_⟩
      · rw [value, size]
        exact congrArg some (Int.toNat_of_nonneg nonneg).symm
      · rw [seen, closed, List.append_assoc]
    · intro _ waits
      cases header.symm.trans waits

theorem bulkDelimited_header : BulkDelimited (integerLine 36 text cr ++ rest) ↔ BehindHeader v rest := by
  unfold BehindHeader
  by_cases negative : wrapI64 v < 0
  · rw [bulkDelimited_negative value cr rest negative]
    constructor
    · intro below
      exact .inl ⟨negative, below⟩
    · rintro (⟨-, below⟩ | ⟨positive, -⟩ | ⟨nonneg, fits, -⟩)
      · exact below
      · omega
      · rw [wrapI64_of_fits fits] at negative
        exact negative
  · have positive : 0 ≤ wrapI64 v := by omega
    by_cases short : rest.length < (wrapI64 v).toNat + 2
    · rw [bulkDelimited_short value cr rest positive short]
      constructor
      · intro nonneg
        exact .inr (.inl ⟨positive, nonneg, short⟩)
      · rintro (⟨below, -⟩ | ⟨-, nonneg, -⟩ | ⟨nonneg, -, -⟩)
        · exact absurd below negative
        · exact nonneg
        · exact nonneg
    · rw [bulkDelimited_long value cr rest positive (by omega)]
      constructor
      · intro closed
        exact .inr (.inr closed)
      · rintro (⟨below, -⟩ | ⟨-, -, few⟩ | closed)
        · exact absurd below negative
        · exact absurd few short
        · exact closed

end Header

/-- The bulk reader returns delimited bulk strings and null bulk strings only,
exactly if the bytes behind the header of the buffer are those of one. -/
theorem bulkDelimited_iff (b : Bytes) :
    BulkDelimited b ↔ ∀ text cr rest v, b = integerLine 36 text cr ++ rest →
      signedNumeral text = some v → BehindHeader v rest := by
  constructor
  · rintro delimited text cr rest v rfl value
    exact (bulkDelimited_header value cr rest).1 delimited
  · intro sound
    by_cases header : ∃ text cr rest v, b = integerLine 36 text cr ++ rest ∧ signedNumeral text = some v
    · obtain ⟨text, cr, rest, v, rfl, value⟩ := header
      exact (bulkDelimited_header value cr rest).2 (sound text cr rest v rfl value)
    · have refused := readRespBulk_noHeader fun text cr rest v shape value =>
        header ⟨text, cr, rest, v, shape, value⟩
      constructor
      · intro data n read
        rcases refused with ⟨-, waits⟩ | ⟨e, failed⟩
        · cases waits.symm.trans read
        · cases failed.symm.trans read
      · intro complete waits
        rcases refused with ⟨absent, -⟩ | ⟨e, failed⟩
        · exact absent complete.1
        · cases failed.symm.trans waits

/-- A length of three in front of five bytes: the reader returns the first three
and swallows the other two as the line end. -/
theorem bulkDelimited_wrong_length :
    readRespBulk (ascii "$3\r\nhello\r\n") = .ok (some (ascii "hel", 9)) ∧
      ¬ BulkDelimited (ascii "$3\r\nhello\r\n") := by
  refine ⟨by decide +kernel, ?_⟩
  have split : ascii "$3\r\nhello\r\n" = integerLine 36 (ascii "3") true ++ ascii "hello\r\n" := by
    decide
  have value : signedNumeral (ascii "3") = some 3 := by decide
  rw [split, bulkDelimited_header value]
  rintro (⟨-, below⟩ | ⟨-, -, few⟩ | ⟨-, -, closed⟩)
  · omega
  · revert few
    decide
  · revert closed
    decide

end ZetDb.Protocol
