/-
# Protocol.InlineLines -- where the zero-copy parser ends a line

The protocol's lines end in CR LF or in LF.  `parse_inline_borrowed` looks for the
first CR or LF and computes from it where the line stops and how much it takes, as
if the line ended in two bytes.  `framesLine_iff` says which lines it gets right:
those whose LF has a blank before it, as CR LF has, and no CR before that.
-/
import ZetDb.Protocol.Tokens
import ZetDb.Protocol.Verdicts

namespace ZetDb.Protocol

set_option autoImplicit false

open ZetDb.Theory.Wire ZetDb.Theory.Text ZetDb.Theory.Words ZetDb.Domain

/-! ## The end of a line -/

/-- The line the zero-copy parser looks at, trimmed; `none` while it waits. -/
def interpretedLine (b : Bytes) : Option Bytes := (lineStop b).map fun pos => trim (b.take pos)

/-- The verdict on a line that takes `consumed` bytes. -/
def lineVerdict (consumed : Nat) (input : Bytes) : Except ParseError FrameResultBorrowed :=
  if input.isEmpty then .ok (.skip consumed)
  else
    match parseLineBorrowed input with
    | .ok c => .ok (.complete consumed c)
    | .error e => .error e

theorem parseInlineBorrowed_eq (b : Bytes) :
    parseInlineBorrowed b =
      match lineStop b with
      | none => .ok .incomplete
      | some pos => lineVerdict (pos + 2) (trim (b.take pos)) := rfl

/-- A verb whose arguments are wrong is a fault of syntax. -/
theorem borrowedArguments_error {verb : Command} {args : List Bytes} {e : ParseError}
    (refused : borrowedArguments verb args = .error e) : ∃ msg, e = .syntaxError msg := by
  cases verb with
  | ping | info | dbSize => cases refused
  | get _ | del _ | incr _ | «exists» _ | ttl _ =>
      simp only [borrowedArguments, singleKeyArguments] at refused
      split at refused <;> cases refused
      exact ⟨_, rfl⟩
  | set _ _ _ =>
      simp only [borrowedArguments, setBorrowedArguments] at refused
      split at refused <;> cases refused <;> exact ⟨_, rfl⟩
  | expire _ _ =>
      simp only [borrowedArguments, expireBorrowedArguments] at refused
      split at refused
      · split at refused <;> cases refused
        exact ⟨_, rfl⟩
      · cases refused
        exact ⟨_, rfl⟩
      · cases refused
        exact ⟨_, rfl⟩
  | flushDb | keys =>
      simp only [borrowedArguments, noArguments] at refused
      split at refused <;> cases refused
      exact ⟨_, rfl⟩
  | mget _ =>
      simp only [borrowedArguments, mgetArguments] at refused
      split at refused <;> cases refused
      exact ⟨_, rfl⟩
  | mset _ =>
      simp only [borrowedArguments, msetArguments] at refused
      split at refused <;> cases refused <;> exact ⟨_, rfl⟩

/-- A line that is not blank is never an empty command. -/
theorem parseLineBorrowed_error {line : Bytes} {e : ParseError} (filled : (trim line).isEmpty = false)
    (refused : parseLineBorrowed (trim line) = .error e) : e ≠ .emptyCommand := by
  cases split : tokens line with
  | nil =>
      rw [trim_isEmpty, split] at filled
      cases filled
  | cons verb args =>
      rcases spelled_or_unknown verb with ⟨c, spelled⟩ | unknown
      · rw [parseLineBorrowed_spelled split spelled] at refused
        obtain ⟨msg, rfl⟩ := borrowedArguments_error refused
        exact fun same => by cases same
      · rw [parseLineBorrowed_unknown split unknown] at refused
        cases refused
        exact fun same => by cases same

theorem lineVerdict_ne_incomplete (consumed : Nat) (input : Bytes) :
    lineVerdict consumed input ≠ .ok .incomplete := by
  unfold lineVerdict
  intro waiting
  split at waiting
  · cases waiting
  · split at waiting <;> cases waiting

theorem lineVerdict_consumed {consumed n : Nat} {input : Bytes} {frame : FrameResultBorrowed}
    (parsed : lineVerdict consumed input = .ok frame) (takes : frame.consumed = some n) :
    n = consumed := by
  unfold lineVerdict at parsed
  split at parsed
  · cases parsed
    cases takes
    rfl
  · split at parsed <;> cases parsed
    cases takes
    rfl

/-- The parser frames the first line of the buffer: it waits for the LF, takes the
line and its LF, and interprets all of the line. -/
structure FramesLine (b : Bytes) : Prop where
  waits : (10 : UInt8) ∉ b → parseInlineBorrowed b = .ok .incomplete
  decides : ∀ q, memchr 10 b = some q → parseInlineBorrowed b ≠ .ok .incomplete
  takes : ∀ q, memchr 10 b = some q → ∀ frame n, parseInlineBorrowed b = .ok frame →
    frame.consumed = some n → n = q + 1
  interprets : ∀ q, memchr 10 b = some q → interpretedLine b = some (trim (b.take q))

/-- The first LF has a byte before it, this byte is a blank, and no earlier byte is
a CR. -/
def BlankBeforeLf (b : Bytes) : Prop :=
  ∀ q, memchr 10 b = some q →
    0 < q ∧ (13 : UInt8) ∉ b.take (q - 1) ∧ ∃ x, b[q - 1]? = some x ∧ isWhitespace x = true

/-- The search for CR or LF on a buffer whose first such byte is known. -/
theorem lineStop_append {front rest : Bytes} {x : UInt8} (plain : ∀ b ∈ front, b ≠ 13 ∧ b ≠ 10)
    (stop : x = 13 ∨ x = 10) :
    lineStop (front ++ x :: rest) =
      if x = 10 then some (front.length - 1)
      else if rest.head? = some 10 then some front.length
      else none := by
  have none : front.findIdx? (fun b => b == 13 || b == 10) = none := by
    rw [List.findIdx?_eq_none_iff]
    intro b member
    simpa using plain b member
  have found : (front ++ x :: rest).findIdx? (fun b => b == 13 || b == 10) = some front.length := by
    rw [List.findIdx?_append, none, List.findIdx?_cons]
    simp [stop]
  have here : (front ++ x :: rest)[front.length]? = some x := by simp
  have next : (front ++ x :: rest)[front.length + 1]? = rest.head? := by
    rw [List.getElem?_append_right (by omega), Nat.add_sub_cancel_left, List.getElem?_cons_succ,
      List.head?_eq_getElem?]
  have inside : front.length + 1 < (front ++ x :: rest).length ↔ rest ≠ [] := by
    rw [List.length_append, List.length_cons, ← List.length_pos_iff]
    omega
  simp only [lineStop, found, here, next, inside]
  rcases stop with rfl | rfl
  · cases rest with
    | nil => simp
    | cons y rest => simp
  · simp

theorem lineStop_plain {b : Bytes} (plain : ∀ x ∈ b, x ≠ 13 ∧ x ≠ 10) : lineStop b = none := by
  have none : b.findIdx? (fun x => x == 13 || x == 10) = none := by
    rw [List.findIdx?_eq_none_iff]
    intro x member
    simpa using plain x member
  rw [lineStop, none]

/-- A buffer is plain, or splits at its first CR or LF. -/
theorem stop_cases (b : Bytes) :
    (∀ x ∈ b, x ≠ 13 ∧ x ≠ 10) ∨
      ∃ front x rest, b = front ++ x :: rest ∧ (∀ y ∈ front, y ≠ 13 ∧ y ≠ 10) ∧ (x = 13 ∨ x = 10) := by
  induction b with
  | nil => exact .inl (by simp)
  | cons y b ih =>
      by_cases stop : y = 13 ∨ y = 10
      · exact .inr ⟨[], y, b, rfl, by simp, stop⟩
      · rcases ih with plain | ⟨front, x, rest, rfl, plain, isStop⟩
        · refine .inl ?_
          rw [List.forall_mem_cons]
          exact ⟨not_or.1 stop, plain⟩
        · refine .inr ⟨y :: front, x, rest, rfl, ?_, isStop⟩
          rw [List.forall_mem_cons]
          exact ⟨not_or.1 stop, plain⟩

/-- Dropping the byte before the LF keeps the trimmed line if that byte is a blank. -/
theorem trim_take_eq_iff {b : Bytes} {q : Nat} {x : UInt8} (filled : 0 < q) (last : b[q - 1]? = some x) :
    trim (b.take (q - 1)) = trim (b.take q) ↔ isWhitespace x = true := by
  obtain ⟨k, rfl⟩ := Nat.exists_eq_add_of_le' filled
  rw [Nat.add_sub_cancel] at last ⊢
  have split : b.take (k + 1) = b.take k ++ [x] := by
    rw [List.take_add_one, last]
    rfl
  rw [split]
  exact strip_concat_eq_iff (b.take k) x

/-- The first LF behind a stretch without CR and LF. -/
theorem memchr_lf {front rest : Bytes} (plain : ∀ y ∈ front, y ≠ 13 ∧ y ≠ 10) :
    memchr 10 (front ++ 10 :: rest) = some front.length :=
  memchr_append fun member => (plain 10 member).2 rfl

theorem memchr_crlf {front rest : Bytes} (absent : (10 : UInt8) ∉ front) :
    memchr 10 (front ++ 13 :: 10 :: rest) = some (front.length + 1) := by
  have clean : (10 : UInt8) ∉ front ++ [13] := by
    rw [List.mem_append, not_or]
    exact ⟨absent, by decide⟩
  have found : memchr 10 (front ++ [13] ++ 10 :: rest) = some (front ++ [13]).length :=
    memchr_append clean
  simpa using found

theorem memchr_getElem {b : UInt8} {buf : Bytes} {q : Nat} (found : memchr b buf = some q) :
    buf[q]? = some b := by
  obtain ⟨front, rest, rfl, -, rfl⟩ := memchr_eq_some found
  simp

/-- Without an LF the parser waits. -/
theorem lineStop_no_lf {b : Bytes} (absent : (10 : UInt8) ∉ b) : lineStop b = none := by
  rcases stop_cases b with plain | ⟨front, x, rest, rfl, plain, stop⟩
  · exact lineStop_plain plain
  · have other : x ≠ 10 := by
      rintro rfl
      exact absent (by simp)
    have behind : rest.head? ≠ some 10 := by
      intro first
      exact absent (by simp [List.mem_of_head? first])
    rw [lineStop_append plain stop, if_neg other, if_neg behind]

/-- With an LF it stops one byte before it, unless it waits at an earlier CR. -/
theorem lineStop_lf {b : Bytes} {q : Nat} (found : memchr 10 b = some q) :
    lineStop b = if (13 : UInt8) ∈ b.take (q - 1) then none else some (q - 1) := by
  rcases stop_cases b with plain | ⟨front, x, rest, rfl, plain, stop⟩
  · rw [memchr_none fun member => (plain 10 member).2 rfl] at found
    cases found
  · rw [lineStop_append plain stop]
    have clean : ∀ k ≤ front.length, (13 : UInt8) ∉ (front ++ x :: rest).take k := by
      intro k small member
      rw [List.take_append_of_le_length small] at member
      exact (plain 13 (List.mem_of_mem_take member)).1 rfl
    by_cases lf : x = 10
    · rw [lf, memchr_lf plain] at found
      cases found
      rw [if_pos lf, if_neg (clean _ (by omega))]
    · have cr : x = 13 := stop.resolve_right lf
      rw [if_neg lf]
      by_cases next : rest.head? = some 10
      · obtain ⟨behind, rfl⟩ : ∃ behind, rest = 10 :: behind := by
          cases rest with
          | nil => cases next
          | cons y behind =>
              cases next
              exact ⟨behind, rfl⟩
        rw [cr, memchr_crlf fun member => (plain 10 member).2 rfl] at found
        cases found
        rw [if_pos next, Nat.add_sub_cancel, if_neg (clean _ le_rfl)]
      · -- the LF is not next to the CR, so the CR is among the bytes before
        have later : front.length + 1 < q := by
          have here := memchr_getElem found
          rcases Nat.lt_trichotomy q front.length with before | same | behind
          · rw [List.getElem?_append_left before] at here
            exact absurd rfl (plain 10 (List.mem_of_getElem? here)).2
          · rw [same, List.getElem?_append_right le_rfl, Nat.sub_self, List.getElem?_cons_zero] at here
            exact absurd (Option.some.inj here) lf
          · by_contra close
            rw [List.getElem?_append_right (by omega), show q - front.length = 0 + 1 by omega,
              List.getElem?_cons_succ, ← List.head?_eq_getElem?] at here
            exact next here
        have member : (13 : UInt8) ∈ (front ++ x :: rest).take (q - 1) := by
          rw [List.take_append, List.mem_append]
          right
          obtain ⟨k, size⟩ : ∃ k, q - 1 - front.length = k + 1 := ⟨q - 2 - front.length, by omega⟩
          rw [size, List.take_succ_cons, cr]
          exact List.mem_cons_self
        rw [if_neg next, if_pos member]

/-- At a CR inside of a line it waits for ever. -/
theorem parseInlineBorrowed_cr {line : Bytes} (ended : (10 : UInt8) ∉ line) (early : (13 : UInt8) ∈ line)
    (rest : Bytes) : parseInlineBorrowed (line ++ 13 :: 10 :: rest) = .ok .incomplete := by
  have found : memchr 10 (line ++ 13 :: 10 :: rest) = some (line.length + 1) := memchr_crlf ended
  have stop := lineStop_lf found
  rw [Nat.add_sub_cancel, List.take_left, if_pos early] at stop
  rw [parseInlineBorrowed_eq, stop]

/-! ## More bytes behind a line -/

/-- Where the line stops is decided by the bytes up to its LF. -/
theorem lineStop_append_some {b : Bytes} {pos : Nat} (stops : lineStop b = some pos) (more : Bytes) :
    (10 : UInt8) ∈ b ∧ pos ≤ b.length ∧ lineStop (b ++ more) = some pos := by
  cases found : memchr 10 b with
  | none =>
      have absent : (10 : UInt8) ∉ b := memchr_eq_none found
      rw [lineStop_no_lf absent] at stops
      cases stops
  | some q =>
      obtain ⟨front, rest, rfl, absent, rfl⟩ := memchr_eq_some found
      have later : memchr 10 (front ++ 10 :: rest ++ more) = some front.length := by
        rw [List.append_assoc, List.cons_append]
        exact memchr_append absent
      have same : (front ++ 10 :: rest ++ more).take (front.length - 1) =
          (front ++ 10 :: rest).take (front.length - 1) := by
        refine List.take_append_of_le_length ?_
        rw [List.length_append]
        omega
      rw [lineStop_lf found] at stops
      refine ⟨by simp, ?_, by rw [lineStop_lf later, same, stops]⟩
      split at stops
      · cases stops
      · cases stops
        rw [List.length_append]
        omega

/-- What the zero-copy parser has decided stays decided when more arrives. -/
theorem parseInlineBorrowed_append {b : Bytes} (decided : parseInlineBorrowed b ≠ .ok .incomplete)
    (more : Bytes) : parseInlineBorrowed (b ++ more) = parseInlineBorrowed b := by
  rw [parseInlineBorrowed_eq, parseInlineBorrowed_eq]
  cases stops : lineStop b with
  | none =>
      rw [parseInlineBorrowed_eq, stops] at decided
      exact absurd rfl decided
  | some pos =>
      obtain ⟨-, inside, later⟩ := lineStop_append_some stops more
      rw [later]
      simp only [List.take_append_of_le_length inside]

theorem parseInlineBorrowed_error_lf {b : Bytes} {e : ParseError}
    (refused : parseInlineBorrowed b = .error e) : (10 : UInt8) ∈ b := by
  rw [parseInlineBorrowed_eq] at refused
  cases stops : lineStop b with
  | none =>
      rw [stops] at refused
      cases refused
  | some pos => exact (lineStop_append_some stops []).1

/-- It takes more than there is of a lone LF only. -/
theorem parseInlineBorrowed_within {b : Bytes} {frame : FrameResultBorrowed} {n : Nat}
    (parsed : parseInlineBorrowed b = .ok frame) (takes : frame.consumed = some n) (lone : b ≠ [10]) :
    n ≤ b.length := by
  rw [parseInlineBorrowed_eq] at parsed
  cases found : memchr 10 b with
  | none =>
      rw [lineStop_no_lf (memchr_eq_none found)] at parsed
      cases parsed
      cases takes
  | some q =>
      rw [lineStop_lf found] at parsed
      split at parsed
      · rename_i waits
        split at waits
        · cases parsed
          cases takes
        · cases waits
      · rename_i pos stops
        split at stops
        · cases stops
        · cases stops
          have size := lineVerdict_consumed parsed takes
          obtain ⟨front, rest, rfl, -, rfl⟩ := memchr_eq_some found
          rw [List.length_append, List.length_cons]
          cases front with
          | nil =>
              have filled : rest ≠ [] := by
                rintro rfl
                exact lone rfl
              have := List.length_pos_of_ne_nil filled
              simp only [List.length_nil] at size
              simp only [List.length_nil]
              omega
          | cons x front =>
              simp only [List.length_cons] at size
              simp only [List.length_cons]
              omega

/-! ## Which lines are framed -/

theorem framesLine_of_blank {b : Bytes} {q : Nat} (found : memchr 10 b = some q) (filled : 0 < q)
    (clean : (13 : UInt8) ∉ b.take (q - 1)) (same : trim (b.take (q - 1)) = trim (b.take q)) :
    FramesLine b := by
  have stop := lineStop_lf found
  rw [if_neg clean] at stop
  have parsed : parseInlineBorrowed b = lineVerdict (q + 1) (trim (b.take (q - 1))) := by
    rw [parseInlineBorrowed_eq, stop, show q + 1 = q - 1 + 2 by omega]
  constructor
  · intro absent
    rw [memchr_none absent] at found
    cases found
  · intro p foundAt
    rw [parsed]
    exact lineVerdict_ne_incomplete _ _
  · intro p foundAt frame n verdict takes
    rw [found] at foundAt
    cases foundAt
    rw [parsed] at verdict
    exact lineVerdict_consumed verdict takes
  · intro p foundAt
    rw [found] at foundAt
    cases foundAt
    rw [interpretedLine, stop, Option.map_some, same]

theorem blankBeforeLf_of_framesLine {b : Bytes} {q : Nat} (found : memchr 10 b = some q)
    (frames : FramesLine b) :
    0 < q ∧ (13 : UInt8) ∉ b.take (q - 1) ∧ ∃ x, b[q - 1]? = some x ∧ isWhitespace x = true := by
  have stop := lineStop_lf found
  have clean : (13 : UInt8) ∉ b.take (q - 1) := by
    intro member
    rw [if_pos member] at stop
    exact frames.decides q found (by rw [parseInlineBorrowed_eq, stop])
  rw [if_neg clean] at stop
  have filled : 0 < q := by
    -- at index 0 the parser skips two bytes for one
    by_contra empty
    have start : q = 0 := by omega
    have skipped : parseInlineBorrowed b = .ok (.skip 2) := by
      rw [parseInlineBorrowed_eq, stop, start]
      rfl
    have takes := frames.takes q found _ 2 skipped rfl
    omega
  have inside : q - 1 < b.length := by
    obtain ⟨front, rest, rfl, -, rfl⟩ := memchr_eq_some found
    rw [List.length_append, List.length_cons]
    omega
  have same : trim (b.take (q - 1)) = trim (b.take q) := by
    have line := frames.interprets q found
    rw [interpretedLine, stop, Option.map_some] at line
    exact Option.some.inj line
  have last : b[q - 1]? = some b[q - 1] := List.getElem?_eq_getElem inside
  exact ⟨filled, clean, b[q - 1], last, (trim_take_eq_iff filled last).1 same⟩

/-- The zero-copy parser frames the first line of a buffer exactly if the line has
not ended, or its LF follows a blank and no CR stands before that blank. -/
theorem framesLine_iff (b : Bytes) : FramesLine b ↔ BlankBeforeLf b := by
  cases found : memchr 10 b with
  | none =>
      have absent : (10 : UInt8) ∉ b := memchr_eq_none found
      constructor
      · intro _ q other
        rw [found] at other
        cases other
      · intro _
        refine ⟨?_, ?_, ?_, ?_⟩
        · intro _
          rw [parseInlineBorrowed_eq, lineStop_no_lf absent]
        all_goals
          intro q other
          rw [found] at other
          cases other
  | some q =>
      constructor
      · intro frames p foundAt
        rw [found] at foundAt
        cases foundAt
        exact blankBeforeLf_of_framesLine found frames
      · intro blank
        obtain ⟨filled, clean, x, last, isBlank⟩ := blank q found
        exact framesLine_of_blank found filled clean ((trim_take_eq_iff filled last).2 isBlank)

/-- A line that ends in a bare LF loses its last byte; of an empty one two bytes are
taken where there is one. -/
theorem framesLine_bare_lf_false : ¬ FramesLine (ascii "PING\n") ∧ ¬ FramesLine [10] := by
  constructor
  · intro frames
    have line := frames.interprets 4 (by decide)
    exact absurd line (by decide)
  · intro frames
    have takes := frames.takes 0 rfl (.skip 2) 2 (by decide) rfl
    cases takes

end ZetDb.Protocol
