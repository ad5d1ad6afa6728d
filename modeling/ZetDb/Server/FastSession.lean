/-
# Server.FastSession -- the cursor of the ultra-fast inline loop

Embeds the inline loop of `handle_session_fast`.  Requests that are executed are
not removed from the buffer: an offset moves over them, and the buffer is advanced
once behind the loop.  The recovery from a refused line, taken over from the full
session, removes the first line of the *buffer*, and leaves the offset.

So a refused line is stepped over only if nothing was executed before it, or if
the line that is removed in its place happens to be of its length.  The next
refusal then removes the next line, and so on: `cursorKept_iff` says that the
cursor stays on the line boundaries exactly when, from the first line on that is
not refused, the `k`-th refused line is as long as the `k`-th line, and no line
holds a CR.
-/
import ZetDb.Application.DispatcherFast
import ZetDb.Protocol.InlineAgreement
import ZetDb.Server.Session

namespace ZetDb.Server

set_option autoImplicit false

open ZetDb.Theory.Wire ZetDb.Theory.Text ZetDb.Domain ZetDb.Storage ZetDb.Application ZetDb.Protocol

/-! ## The loop -/

structure FastState where
  readBuf : Bytes
  offset : Nat
  writeBuf : Bytes
  engine : DashMapEngine

/-- One round: the reply it wrote and the state it goes on with. -/
inductive FastRound where
  | again (reply : Option Bytes) (s : FastState)
  | stop
  | panic

/-- The recovery does not know of the offset. -/
def fastRefuse (s : FastState) (reply : Bytes) : FastRound :=
  .again (some reply) { s with readBuf := skipToNewline s.readBuf, writeBuf := s.writeBuf ++ reply }

/-- `read_buf[offset..]` panics when the offset is past the end. -/
def fastRound (s : FastState) : FastRound :=
  if s.offset > s.readBuf.length then .panic
  else
    match parseInlineBorrowed (s.readBuf.drop s.offset) with
    | .ok (.complete consumed c) =>
        let result := dispatchFast s.engine c
        .again (some result.1)
          { s with
            offset := s.offset + consumed
            writeBuf := s.writeBuf ++ result.1
            engine := result.2 }
    | .ok (.skip consumed) => .again none { s with offset := s.offset + consumed }
    | .ok .incomplete => .stop
    | .error (.syntaxError _) => fastRefuse s syntaxReply.writeTo
    | .error (.unknownCommand _) => fastRefuse s unknownReply.writeTo
    | .error .emptyCommand => .stop

/-- What the parser was given in a round, and the reply that was written. -/
abbrev FastTurn := Bytes × Option Bytes

inductive FastOutcome where
  | left (turns : List FastTurn) (s : FastState)
  | panicked
  | unfinished

def FastOutcome.after (turn : FastTurn) : FastOutcome → FastOutcome
  | .left turns s => .left (turn :: turns) s
  | outcome => outcome

theorem FastOutcome.after_eq_left {turn : FastTurn} {outcome : FastOutcome} {turns : List FastTurn}
    {s : FastState} (left : outcome.after turn = .left turns s) :
    ∃ more, outcome = .left more s ∧ turns = turn :: more := by
  cases outcome with
  | left more u =>
      cases left
      exact ⟨more, rfl, rfl⟩
  | panicked => cases left
  | unfinished => cases left

theorem FastOutcome.after_unfinished {turn : FastTurn} {outcome : FastOutcome}
    (short : outcome.after turn = .unfinished) : outcome = .unfinished := by
  cases outcome with
  | left more u => cases short
  | panicked => cases short
  | unfinished => rfl

/-- The loop, and the advance of the buffer behind it. -/
def fastLoop : Nat → FastState → FastOutcome
  | 0, _ => .unfinished
  | fuel + 1, s =>
      match fastRound s with
      | .again reply t => (fastLoop fuel t).after (s.readBuf.drop s.offset, reply)
      | .stop =>
          match advance s.readBuf s.offset with
          | some rest => .left [(s.readBuf.drop s.offset, none)] { s with readBuf := rest, offset := 0 }
          | none => .panicked
      | .panic => .panicked

/-- A round that goes on shortens the buffer or what is left of it; this many are
enough. -/
def fastFuel (s : FastState) : Nat := s.readBuf.length - s.offset + s.readBuf.length + 1

/-- The inline part of a turn of the session. -/
def processFast (s : FastState) : FastOutcome := fastLoop (fastFuel s) s

/-! ## Rounds -/

section Rounds

variable {s t : FastState} {reply : Option Bytes}

theorem filled_of_decided {b : Bytes} (decided : parseInlineBorrowed b ≠ .ok .incomplete) : b ≠ [] := by
  rintro rfl
  exact decided rfl

/-- A round that goes on has written its reply, and leaves less to do. -/
theorem fastRound_again (again : fastRound s = .again reply t) :
    t.writeBuf = s.writeBuf ++ reply.getD [] ∧ fastFuel t < fastFuel s := by
  have moves (consumed : Nat) (forward : 0 < consumed) (filled : s.readBuf.drop s.offset ≠ []) :
      s.readBuf.length - (s.offset + consumed) + s.readBuf.length + 1 < fastFuel s := by
    have ahead := List.length_pos_of_ne_nil filled
    rw [List.length_drop] at ahead
    unfold fastFuel
    omega
  have refuses (text : Bytes) (filled : s.readBuf.drop s.offset ≠ [])
      (refused : fastRefuse s text = .again reply t) :
      t.writeBuf = s.writeBuf ++ reply.getD [] ∧ fastFuel t < fastFuel s := by
    have present : s.readBuf ≠ [] := fun empty => filled (by rw [empty, List.drop_nil])
    have shorter := skipToNewline_length present
    cases refused
    refine ⟨rfl, ?_⟩
    simp only [fastFuel]
    omega
  have input := parseInlineBorrowed_takesInput (s.readBuf.drop s.offset)
  unfold fastRound at again
  split at again
  · cases again
  · split at again
    · rename_i consumed c parsed
      have filled := filled_of_decided (by rw [parsed]; exact fun same => by cases same)
      cases again
      exact ⟨rfl, moves consumed (input.complete _ _ parsed) filled⟩
    · rename_i consumed parsed
      have filled := filled_of_decided (by rw [parsed]; exact fun same => by cases same)
      cases again
      exact ⟨(List.append_nil _).symm, moves consumed (input.skip _ parsed) filled⟩
    · cases again
    · rename_i parsed
      exact refuses _ (input.error _ parsed) again
    · rename_i parsed
      exact refuses _ (input.error _ parsed) again
    · cases again

/-- The loop ends by itself. -/
theorem fastLoop_finished (fuel : Nat) (s : FastState) (enough : fastFuel s ≤ fuel) :
    fastLoop fuel s ≠ .unfinished := by
  induction fuel generalizing s with
  | zero =>
      unfold fastFuel at enough
      omega
  | succ fuel ih =>
      rw [fastLoop]
      split
      · rename_i reply t again
        have less := (fastRound_again again).2
        exact fun short => ih t (by omega) (FastOutcome.after_unfinished short)
      · split <;> exact fun same => by cases same
      · exact fun same => by cases same

theorem processFast_finished (s : FastState) : processFast s ≠ .unfinished :=
  fastLoop_finished _ s le_rfl

/-- More fuel changes nothing. -/
theorem fastLoop_fuel {fuel more : Nat} (s : FastState) (enough : fastFuel s ≤ fuel)
    (also : fastFuel s ≤ more) : fastLoop fuel s = fastLoop more s := by
  induction fuel generalizing more s with
  | zero =>
      unfold fastFuel at enough
      omega
  | succ fuel ih =>
      cases more with
      | zero =>
          unfold fastFuel at also
          omega
      | succ more =>
          rw [fastLoop, fastLoop]
          split
          · rename_i reply t again
            have less := (fastRound_again again).2
            have same : fastLoop fuel t = fastLoop more t := ih t (by omega) (by omega)
            rw [same]
          · rfl
          · rfl

/-- What was written is the replies. -/
theorem fastLoop_writes {fuel : Nat} {turns : List FastTurn} {s u : FastState}
    (ends : fastLoop fuel s = .left turns u) :
    u.writeBuf = s.writeBuf ++ (turns.filterMap Prod.snd).flatten := by
  induction fuel generalizing s turns with
  | zero => cases ends
  | succ fuel ih =>
      rw [fastLoop] at ends
      split at ends
      · rename_i reply t again
        obtain ⟨more, rest, rfl⟩ := FastOutcome.after_eq_left ends
        rw [ih rest, (fastRound_again again).1]
        cases reply <;> simp
      · split at ends
        · cases ends
          simp
        · cases ends
      · cases ends

/-- One round of the whole loop. -/
theorem processFast_again (again : fastRound s = .again reply t) :
    processFast s = (processFast t).after (s.readBuf.drop s.offset, reply) := by
  have less := (fastRound_again again).2
  have positive : fastFuel s = (fastFuel s - 1) + 1 := by omega
  rw [processFast, positive, fastLoop, again]
  simp only
  rw [processFast, fastLoop_fuel t (by omega) le_rfl]

theorem processFast_stop (stop : fastRound s = .stop) (inside : s.offset ≤ s.readBuf.length) :
    processFast s = .left [(s.readBuf.drop s.offset, none)]
      { s with readBuf := s.readBuf.drop s.offset, offset := 0 } := by
  rw [processFast, fastFuel, fastLoop, stop]
  simp only [advance, if_pos inside]

theorem processFast_panic (outside : s.readBuf.length < s.offset) : processFast s = .panicked := by
  have dies : fastRound s = .panic := if_pos outside
  rw [processFast, fastFuel, fastLoop, dies]

/-- A loop that is left has given the parser what was behind the cursor. -/
theorem processFast_left {turns : List FastTurn} {u : FastState} (ends : processFast s = .left turns u) :
    s.offset ≤ s.readBuf.length ∧ (turns.map Prod.fst).head? = some (s.readBuf.drop s.offset) := by
  by_cases outside : s.readBuf.length < s.offset
  · rw [processFast_panic outside] at ends
    cases ends
  · have inside : s.offset ≤ s.readBuf.length := by omega
    refine ⟨inside, ?_⟩
    cases round : fastRound s with
    | again reply t =>
        rw [processFast_again round] at ends
        obtain ⟨more, -, rfl⟩ := FastOutcome.after_eq_left ends
        rfl
    | stop =>
        rw [processFast_stop round inside] at ends
        cases ends
        rfl
    | panic =>
        rw [processFast, fastFuel, fastLoop, round] at ends
        cases ends

end Rounds

/-! ## Lines -/

/-- The lines, each ended by CR LF. -/
def crlfLines (lines : List Bytes) : Bytes := lines.flatMap (· ++ crlf)

theorem crlfLines_cons (line : Bytes) (lines : List Bytes) (tail : Bytes) :
    crlfLines (line :: lines) ++ tail = line ++ crlf ++ (crlfLines lines ++ tail) := by
  simp [crlfLines]

theorem crlfLines_concat (lines : List Bytes) (line tail : Bytes) :
    crlfLines (lines ++ [line]) ++ tail = crlfLines lines ++ (line ++ crlf ++ tail) := by
  simp [crlfLines]

theorem crlfLines_cons_length (line : Bytes) (lines : List Bytes) :
    (crlfLines (line :: lines)).length = (crlfLines lines).length + (line.length + 2) := by
  simp only [crlfLines, crlf, List.flatMap_cons, List.length_append, List.length_cons, List.length_nil]
  omega

theorem crlfLines_concat_length (lines : List Bytes) (line : Bytes) :
    (crlfLines (lines ++ [line])).length = (crlfLines lines).length + (line.length + 2) := by
  simp [crlfLines, crlf]

/-- What is ahead at the start of each line, and at the unfinished one. -/
def ahead (tail : Bytes) : List Bytes → List Bytes
  | [] => [tail]
  | line :: lines => (crlfLines (line :: lines) ++ tail) :: ahead tail lines

/-- The line is not blank, and no command the parser accepts. -/
def refused (line : Bytes) : Bool := !(trim line).isEmpty && !(parseLineBorrowed (trim line)).toBool

/-- The parser was given every line once, in their order, and the unfinished one at
last; every line but the blank ones was answered; the unfinished line is left. -/
def Kept (lines : List Bytes) (tail : Bytes) (outcome : FastOutcome) : Prop :=
  ∃ turns s, outcome = .left turns s ∧ turns.map Prod.fst = ahead tail lines ∧
    turns.map (fun turn => turn.2.isSome) = lines.map (fun line => !(trim line).isEmpty) ++ [false] ∧
    s.readBuf = tail

section Lines

variable {s : FastState} {line rest tail : Bytes} {lines : List Bytes}

theorem isLine_of_clean (ended : (10 : UInt8) ∉ line) (clean : (13 : UInt8) ∉ line) : IsLine line := by
  intro b inside
  exact ⟨fun cr => clean (cr ▸ inside), fun lf => ended (lf ▸ inside)⟩

theorem skipToNewline_line (ended : (10 : UInt8) ∉ line) : skipToNewline (line ++ crlf ++ rest) = rest := by
  have shape : line ++ crlf ++ rest = line ++ 13 :: 10 :: rest := by simp [crlf]
  have size : (line ++ [13, 10]).length = line.length + 1 + 1 := by simp
  rw [shape, skipToNewline, memchr_crlf ended]
  simp only
  rw [← size, show line ++ 13 :: 10 :: rest = line ++ [13, 10] ++ rest by simp, List.drop_left]

/-- The cursor moves over a line that is blank or a command. -/
theorem fastRound_accepted (inside : s.offset ≤ s.readBuf.length)
    (here : s.readBuf.drop s.offset = line ++ crlf ++ rest) (plain : IsLine line)
    (accepted : refused line = false) :
    ∃ reply t, fastRound s = .again reply t ∧ reply.isSome = !(trim line).isEmpty ∧
      t.readBuf = s.readBuf ∧ t.offset = s.offset + (line.length + 2) := by
  have verdict := parseInlineBorrowed_crlf plain rest
  unfold fastRound
  rw [if_neg (by omega), here, verdict, lineVerdict]
  cases blank : (trim line).isEmpty with
  | true => exact ⟨none, _, rfl, rfl, rfl, rfl⟩
  | false =>
      cases parsed : parseLineBorrowed (trim line) with
      | ok c => exact ⟨_, _, rfl, rfl, rfl, rfl⟩
      | error e =>
          simp only [refused, blank, parsed] at accepted
          cases accepted

/-- At a refused line the first line of the buffer is removed. -/
theorem fastRound_refused (inside : s.offset ≤ s.readBuf.length)
    (here : s.readBuf.drop s.offset = line ++ crlf ++ rest) (plain : IsLine line)
    (denied : refused line = true) :
    ∃ reply t, fastRound s = .again (some reply) t ∧ t.readBuf = skipToNewline s.readBuf ∧
      t.offset = s.offset := by
  have verdict := parseInlineBorrowed_crlf plain rest
  simp only [refused, Bool.and_eq_true, Bool.not_eq_true'] at denied
  obtain ⟨filled, fails⟩ := denied
  unfold fastRound
  rw [if_neg (by omega), here, verdict, lineVerdict, filled]
  cases parsed : parseLineBorrowed (trim line) with
  | ok c =>
      rw [parsed] at fails
      cases fails
  | error e =>
      have filled' := parseLineBorrowed_error filled parsed
      cases e with
      | emptyCommand => exact absurd rfl filled'
      | syntaxError msg => exact ⟨_, _, rfl, rfl, rfl⟩
      | unknownCommand msg => exact ⟨_, _, rfl, rfl, rfl⟩

theorem fastRound_waits (inside : s.offset ≤ s.readBuf.length)
    (waits : parseInlineBorrowed (s.readBuf.drop s.offset) = .ok .incomplete) : fastRound s = .stop := by
  unfold fastRound
  rw [if_neg (by omega), waits]

/-! ## Turns -/

theorem kept_after (outcome : FastOutcome) (slice : Bytes) (reply : Option Bytes) :
    Kept (line :: lines) tail (outcome.after (slice, reply)) ↔
      slice = crlfLines (line :: lines) ++ tail ∧ reply.isSome = !(trim line).isEmpty ∧
        Kept lines tail outcome := by
  constructor
  · rintro ⟨turns, u, left, slices, replies, rest⟩
    obtain ⟨more, here, rfl⟩ := FastOutcome.after_eq_left left
    simp only [List.map_cons, ahead, List.cons.injEq, List.cons_append] at slices replies
    exact ⟨slices.1, replies.1, more, u, here, slices.2, replies.2, rest⟩
  · rintro ⟨slice_eq, answered, turns, u, rfl, slices, replies, rest⟩
    refine ⟨(slice, reply) :: turns, u, rfl, ?_, ?_, rest⟩
    · rw [List.map_cons, slices, slice_eq]
      rfl
    · rw [List.map_cons, replies, answered]
      rfl

theorem kept_cursor (kept : Kept lines tail (processFast s)) :
    s.offset ≤ s.readBuf.length ∧ s.readBuf.drop s.offset = crlfLines lines ++ tail := by
  obtain ⟨turns, u, left, slices, -, -⟩ := kept
  obtain ⟨inside, first⟩ := processFast_left left
  refine ⟨inside, ?_⟩
  rw [slices] at first
  cases lines with
  | nil => exact (Option.some.inj first).symm
  | cons line lines => exact (Option.some.inj first).symm

/-- With the cursor before the unfinished line the loop is left as it should be. -/
theorem kept_nil (inside : s.offset ≤ s.readBuf.length) (here : s.readBuf.drop s.offset = tail)
    (unfinished : (10 : UInt8) ∉ tail) : Kept [] tail (processFast s) := by
  have waits : parseInlineBorrowed (s.readBuf.drop s.offset) = .ok .incomplete := by
    rw [here, parseInlineBorrowed_eq, lineStop_no_lf unfinished]
  rw [processFast_stop (fastRound_waits inside waits) inside, here]
  exact ⟨_, _, rfl, rfl, rfl, rfl⟩

/-- At a CR inside of a line the loop is left too early. -/
theorem kept_cr_false (inside : s.offset ≤ s.readBuf.length)
    (here : s.readBuf.drop s.offset = line ++ crlf ++ rest) (ended : (10 : UInt8) ∉ line)
    (early : (13 : UInt8) ∈ line) : ¬ Kept (line :: lines) tail (processFast s) := by
  have waits : parseInlineBorrowed (s.readBuf.drop s.offset) = .ok .incomplete := by
    rw [here, List.append_assoc]
    exact parseInlineBorrowed_cr ended early rest
  rw [processFast_stop (fastRound_waits inside waits) inside]
  rintro ⟨turns, u, left, slices, -, -⟩
  cases left
  have sizes := congrArg List.length slices
  cases lines with
  | nil => cases sizes
  | cons next lines => cases sizes

end Lines

/-! ## The cursor among the lines -/

section Cursor

variable {s : FastState} {tail : Bytes}

/-- The lines `before` are still in the buffer, and the cursor is behind them. -/
structure Stands (before lines : List Bytes) (tail : Bytes) (s : FastState) : Prop where
  buffer : s.readBuf = crlfLines before ++ (crlfLines lines ++ tail)
  cursor : s.offset = (crlfLines before).length

theorem Stands.inside {before lines : List Bytes} (stands : Stands before lines tail s) :
    s.offset ≤ s.readBuf.length := by
  rw [stands.buffer, stands.cursor, List.length_append]
  omega

theorem Stands.here {before lines : List Bytes} (stands : Stands before lines tail s) :
    s.readBuf.drop s.offset = crlfLines lines ++ tail := by
  rw [stands.buffer, stands.cursor, List.drop_left]

/-- A line that is not refused joins the lines before the cursor. -/
theorem kept_accepted {before lines : List Bytes} {line : Bytes}
    (stands : Stands before (line :: lines) tail s) (plain : IsLine line) (accepted : refused line = false) :
    ∃ t, Stands (before ++ [line]) lines tail t ∧
      (Kept (line :: lines) tail (processFast s) ↔ Kept lines tail (processFast t)) := by
  have here := stands.here
  rw [crlfLines_cons] at here
  obtain ⟨reply, t, round, answered, buffer, cursor⟩ :=
    fastRound_accepted stands.inside here plain accepted
  refine ⟨t, ⟨?_, ?_⟩, ?_⟩
  · rw [buffer, stands.buffer, crlfLines_concat, crlfLines_cons]
  · rw [cursor, stands.cursor, crlfLines_concat_length]
  · rw [processFast_again round, kept_after]
    exact ⟨fun kept => kept.2.2, fun kept => ⟨stands.here, answered, kept⟩⟩

/-- A refused line is answered, and the first line of the buffer is removed. -/
theorem kept_refused {before lines : List Bytes} {line : Bytes}
    (stands : Stands before (line :: lines) tail s) (plain : IsLine line) (denied : refused line = true) :
    ∃ t, t.readBuf = skipToNewline s.readBuf ∧ t.offset = s.offset ∧
      (Kept (line :: lines) tail (processFast s) ↔ Kept lines tail (processFast t)) := by
  have here := stands.here
  rw [crlfLines_cons] at here
  obtain ⟨reply, t, round, buffer, cursor⟩ := fastRound_refused stands.inside here plain denied
  have filled : (!(trim line).isEmpty) = true := (Bool.and_eq_true_iff.1 denied).1
  refine ⟨t, buffer, cursor, ?_⟩
  rw [processFast_again round, kept_after]
  exact ⟨fun kept => kept.2.2, fun kept => ⟨stands.here, filled.symm, kept⟩⟩

theorem Stands.refused_first {lines : List Bytes} {line : Bytes} {t : FastState}
    (stands : Stands [] (line :: lines) tail s) (ended : (10 : UInt8) ∉ line)
    (buffer : t.readBuf = skipToNewline s.readBuf) (cursor : t.offset = s.offset) :
    Stands [] lines tail t := by
  constructor
  · rw [buffer, stands.buffer]
    show skipToNewline (crlfLines (line :: lines) ++ tail) = _
    rw [crlfLines_cons, skipToNewline_line ended]
    rfl
  · rw [cursor, stands.cursor]

/-- Behind other lines the line before the cursor that goes must be as long as the
refused one. -/
theorem Stands.refused_behind {before lines : List Bytes} {first line : Bytes} {t : FastState}
    (stands : Stands (first :: before) (line :: lines) tail s) (ended : (10 : UInt8) ∉ first)
    (buffer : t.readBuf = skipToNewline s.readBuf) (cursor : t.offset = s.offset) :
    (line.length = first.length → Stands (before ++ [line]) lines tail t) ∧
      (Kept lines tail (processFast t) → line.length = first.length) := by
  have buffer : t.readBuf = crlfLines (before ++ [line]) ++ (crlfLines lines ++ tail) := by
    rw [buffer, stands.buffer, crlfLines_cons, skipToNewline_line ended, crlfLines_concat, crlfLines_cons]
  have cursor : t.offset = (crlfLines before).length + (first.length + 2) := by
    rw [cursor, stands.cursor, crlfLines_cons_length]
  constructor
  · intro same
    refine ⟨buffer, ?_⟩
    rw [cursor, crlfLines_concat_length, same]
  · intro kept
    -- the slice is a suffix of the buffer, so its length tells where it starts
    obtain ⟨inside, here⟩ := kept_cursor kept
    have total : t.readBuf.length =
        (crlfLines before).length + (line.length + 2) + (crlfLines lines ++ tail).length := by
      rw [buffer, List.length_append, crlfLines_concat_length]
    have sizes : t.readBuf.length - t.offset = (crlfLines lines ++ tail).length := by
      rw [← List.length_drop, here]
    omega

/-- Once a line is before the cursor: the cursor stays on the boundaries exactly if
the refused lines are as long as the lines that are removed in their place. -/
theorem kept_behind_iff {lines before : List Bytes} (stands : Stands before lines tail s)
    (moved : before ≠ []) (unfinished : (10 : UInt8) ∉ tail)
    (ended : ∀ line ∈ before ++ lines, (10 : UInt8) ∉ line) :
    Kept lines tail (processFast s) ↔
      (∀ line ∈ lines, (13 : UInt8) ∉ line) ∧
        (lines.filter refused).map List.length <+: (before ++ lines).map List.length := by
  induction lines generalizing s before with
  | nil =>
      have kept := kept_nil stands.inside stands.here unfinished
      exact ⟨fun _ => ⟨by simp, List.nil_prefix⟩, fun _ => kept⟩
  | cons line lines ih =>
      have here := stands.here
      rw [crlfLines_cons] at here
      have lineEnded : (10 : UInt8) ∉ line := ended line (by simp)
      by_cases early : (13 : UInt8) ∈ line
      · exact ⟨fun kept => absurd kept (kept_cr_false stands.inside here lineEnded early),
          fun clean => absurd early (clean.1 line (by simp))⟩
      · have plain : IsLine line := isLine_of_clean lineEnded early
        rw [List.forall_mem_cons]
        cases verdict : refused line with
        | false =>
            obtain ⟨t, next, same⟩ := kept_accepted stands plain verdict
            have regroup : before ++ line :: lines = before ++ [line] ++ lines := by simp
            rw [regroup] at ended ⊢
            rw [same, ih next (by simp) ended, List.filter_cons_of_neg (by simp [verdict])]
            simp only [early, not_false_eq_true, true_and]
        | true =>
            obtain ⟨first, rest, rfl⟩ := List.exists_cons_of_ne_nil moved
            obtain ⟨t, buffer, cursor, same⟩ := kept_refused stands plain verdict
            obtain ⟨next, sizes⟩ := stands.refused_behind (ended first (by simp)) buffer cursor
            have regroup : first :: rest ++ line :: lines = first :: (rest ++ [line] ++ lines) := by simp
            rw [regroup] at ended ⊢
            rw [same, List.filter_cons_of_pos verdict, List.map_cons, List.map_cons, List.cons_prefix_cons]
            have step (equal : line.length = first.length) :=
              ih (next equal) (by simp) fun other inside => ended other (List.mem_cons_of_mem _ inside)
            constructor
            · intro kept
              have equal := sizes kept
              obtain ⟨clean, lengths⟩ := (step equal).1 kept
              exact ⟨⟨early, clean⟩, equal, lengths⟩
            · rintro ⟨⟨-, clean⟩, equal, lengths⟩
              exact (step equal).2 ⟨clean, lengths⟩

/-! ## Which buffers are worked through -/

/-- Counted from the first line on that is not refused, the `k`-th refused line is as
long as the `k`-th line. -/
def SameLengths (lines : List Bytes) : Prop :=
  ((lines.dropWhile refused).filter refused).map List.length <+: (lines.dropWhile refused).map List.length

theorem kept_start_iff {lines : List Bytes} (stands : Stands [] lines tail s)
    (unfinished : (10 : UInt8) ∉ tail) (ended : ∀ line ∈ lines, (10 : UInt8) ∉ line) :
    Kept lines tail (processFast s) ↔ (∀ line ∈ lines, (13 : UInt8) ∉ line) ∧ SameLengths lines := by
  induction lines generalizing s with
  | nil =>
      have kept := kept_nil stands.inside stands.here unfinished
      exact ⟨fun _ => ⟨by simp, List.nil_prefix⟩, fun _ => kept⟩
  | cons line lines ih =>
      have here := stands.here
      rw [crlfLines_cons] at here
      have lineEnded : (10 : UInt8) ∉ line := ended line (by simp)
      by_cases early : (13 : UInt8) ∈ line
      · exact ⟨fun kept => absurd kept (kept_cr_false stands.inside here lineEnded early),
          fun clean => absurd early (clean.1 line (by simp))⟩
      · have plain : IsLine line := isLine_of_clean lineEnded early
        rw [List.forall_mem_cons, SameLengths]
        cases verdict : refused line with
        | false =>
            obtain ⟨t, next, same⟩ := kept_accepted stands plain verdict
            rw [same, kept_behind_iff next (by simp) unfinished ended,
              List.dropWhile_cons_of_neg (by simp [verdict]), List.filter_cons_of_neg (by simp [verdict])]
            simp only [early, not_false_eq_true, true_and]
            rfl
        | true =>
            obtain ⟨t, buffer, cursor, same⟩ := kept_refused stands plain verdict
            rw [same, ih (stands.refused_first lineEnded buffer cursor) fun other inside =>
              ended other (by simp [inside]), List.dropWhile_cons_of_pos verdict]
            simp only [early, not_false_eq_true, true_and]
            rfl

end Cursor

/-- The loop on lines that have arrived and an unfinished one: the slice of the
buffer never panics, the parser is given the buffer from each line on, once and in
order, and at last the unfinished line; what is written is one reply to every line
that is not blank; the unfinished line is left. -/
def CursorKept (engine : DashMapEngine) (writeBuf : Bytes) (lines : List Bytes) (tail : Bytes) : Prop :=
  ∃ turns s, processFast ⟨crlfLines lines ++ tail, 0, writeBuf, engine⟩ = .left turns s ∧
    turns.map Prod.fst = ahead tail lines ∧
    turns.map (fun turn => turn.2.isSome) = lines.map (fun line => !(trim line).isEmpty) ++ [false] ∧
    s.writeBuf = writeBuf ++ (turns.filterMap Prod.snd).flatten ∧
    s.readBuf = tail

/-- The inline loop ends by itself, and keeps its cursor exactly if no line holds a CR
and the refused lines, from the first line on that is not refused, are as long as the
lines that are removed in their place. -/
theorem cursorKept_iff (engine : DashMapEngine) (writeBuf : Bytes) (lines : List Bytes) (tail : Bytes)
    (ended : ∀ line ∈ lines, (10 : UInt8) ∉ line) (unfinished : (10 : UInt8) ∉ tail) :
    processFast ⟨crlfLines lines ++ tail, 0, writeBuf, engine⟩ ≠ .unfinished ∧
      (CursorKept engine writeBuf lines tail ↔
        (∀ line ∈ lines, (13 : UInt8) ∉ line) ∧ SameLengths lines) := by
  have stands : Stands [] lines tail ⟨crlfLines lines ++ tail, 0, writeBuf, engine⟩ := ⟨rfl, rfl⟩
  refine ⟨processFast_finished _, ?_⟩
  rw [← kept_start_iff stands unfinished ended]
  constructor
  · rintro ⟨turns, s, left, slices, replies, -, rest⟩
    exact ⟨turns, s, left, slices, replies, rest⟩
  · rintro ⟨turns, s, left, slices, replies, rest⟩
    exact ⟨turns, s, left, slices, replies, fastLoop_writes left, rest⟩

/-- A refused line at the start, and one as long as the first line that is not. -/
theorem cursorKept_lengths_agree :
    (∀ line ∈ [ascii "BAD", ascii "GET k", [], ascii "HELLO"], (10 : UInt8) ∉ line) ∧
      (10 : UInt8) ∉ ascii "SET k" ∧
      CursorKept .new [] [ascii "BAD", ascii "GET k", [], ascii "HELLO"] (ascii "SET k") := by
  have ended : ∀ line ∈ [ascii "BAD", ascii "GET k", [], ascii "HELLO"], (10 : UInt8) ∉ line := by
    decide
  have unfinished : (10 : UInt8) ∉ ascii "SET k" := by decide
  have lengths : SameLengths [ascii "BAD", ascii "GET k", [], ascii "HELLO"] := by
    unfold SameLengths
    decide +kernel
  exact ⟨ended, unfinished, (cursorKept_iff _ _ _ _ ended unfinished).2.2 ⟨by decide, lengths⟩⟩

/-- A command and an unknown one behind it: the first line goes, the rest of the
second is taken for a line, and the slice after it is out of range. -/
theorem cursorKept_unknown_line_false :
    processFast ⟨ascii "GET k\r\nBADCOMMAND\r\n", 0, [], .new⟩ = .panicked ∧
      ¬ CursorKept .new [] [ascii "GET k", ascii "BADCOMMAND"] [] := by
  have dies : processFast ⟨ascii "GET k\r\nBADCOMMAND\r\n", 0, [], .new⟩ = .panicked := by rfl
  refine ⟨dies, ?_⟩
  rintro ⟨turns, s, left, -⟩
  have buffer : crlfLines [ascii "GET k", ascii "BADCOMMAND"] ++ [] = ascii "GET k\r\nBADCOMMAND\r\n" := by
    decide
  rw [buffer, dies] at left
  cases left

end ZetDb.Server
