/-
# Protocol.Verdicts -- what the frame parser says, it says for good

The session calls `tryParseFrame` on whatever has been received, again and again.
This only works if a verdict depends on the bytes it is about and on nothing that
arrives later: `FinalVerdict`.  For RESP frames the law is `Decisive` of
`Theory.Stream`, proved reader by reader along `parseRespFrame`; for inline lines
it is the search for the first LF.
-/
import ZetDb.Protocol.Frames

namespace ZetDb.Protocol

set_option autoImplicit false

open ZetDb.Theory.Wire ZetDb.Theory.Text ZetDb.Theory.Stream ZetDb.Domain

/-- The bytes a verdict takes from the buffer, if it takes any. -/
def Frame.consumed {γ : Type} : Frame γ → Option Nat
  | .complete n _ => some n
  | .incomplete => none
  | .skip n => some n

/-- The verdict on `b` is decided by the bytes it takes.  Nothing behind them
changes it, every shorter part of them is unfinished, and an error is an error
whatever follows. -/
structure FinalVerdict {γ : Type} (parse : Bytes → Except ParseError (Frame γ)) (b : Bytes) :
    Prop where
  positive : ∀ frame n, parse b = .ok frame → frame.consumed = some n → 1 ≤ n
  within : ∀ frame n, parse b = .ok frame → frame.consumed = some n → n ≤ b.length
  stable : ∀ frame n, parse b = .ok frame → frame.consumed = some n →
    ∀ s, parse (b.take n ++ s) = .ok frame
  minimal : ∀ frame n, parse b = .ok frame → frame.consumed = some n →
    ∀ seen, seen <+: b.take n → seen ≠ b.take n → parse seen = .ok .incomplete
  error : ∀ e, parse b = .error e → ∀ s, parse (b ++ s) = .error e

/-! ## The readers -/

/-- The integer line is read up to its LF. -/
theorem readRespLineInt_line {marker : UInt8} {front : Bytes} (absent : (10 : UInt8) ∉ front)
    (rest : Bytes) :
    readRespLineInt marker (front ++ 10 :: rest) = readRespLineInt marker (front ++ [10]) := by
  have found : memchr 10 (front ++ 10 :: rest) = some front.length := memchr_append absent
  have alone : memchr 10 (front ++ [10]) = some front.length := memchr_append absent
  have numeral : ∀ k, k ≤ front.length →
      ((front ++ 10 :: rest).take k).drop 1 = ((front ++ [10]).take k).drop 1 := by
    intro k small
    rw [List.take_append_of_le_length small, List.take_append_of_le_length small]
  have stripped : (0 < front.length ∧ (front ++ 10 :: rest)[front.length - 1]? = some 13) ↔
      (0 < front.length ∧ (front ++ [10])[front.length - 1]? = some 13) := by
    constructor <;> rintro ⟨filled, cr⟩ <;> refine ⟨filled, ?_⟩
    · rwa [List.getElem?_append_left (by omega)] at cr ⊢
    · rwa [List.getElem?_append_left (by omega)] at cr ⊢
  unfold readRespLineInt
  cases front with
  | nil =>
      simp only [List.nil_append] at found alone ⊢
      rw [found, alone]
      rfl
  | cons first front =>
      simp only [List.cons_append] at found alone numeral stripped ⊢
      rw [found, alone]
      simp only [stripped]
      rw [numeral _ (by split <;> omega)]

/-- Unfinished, refused by its first byte, or a line that has ended. -/
theorem readRespLineInt_cases (marker : UInt8) (buf : Bytes) :
    readRespLineInt marker buf = .ok none ∨
    (∃ e, ∀ more, readRespLineInt marker (buf ++ more) = .error e) ∨
    ∃ front rest, buf = front ++ 10 :: rest ∧ (10 : UInt8) ∉ front ∧ buf.head? = some marker := by
  cases buf with
  | nil => exact .inl rfl
  | cons first tail =>
      by_cases marked : first = marker
      · cases found : memchr 10 (first :: tail) with
        | none =>
            refine .inl (readRespLineInt_unfinished (memchr_eq_none found) ?_)
            intro head same
            cases same
            exact marked
        | some pos =>
            obtain ⟨front, rest, shape, absent, -⟩ := memchr_eq_some found
            exact .inr (.inr ⟨front, rest, shape, absent, congrArg some marked⟩)
      · exact .inr (.inl ⟨_, fun more => if_pos marked⟩)

theorem readRespLineInt_size {marker : UInt8} {front rest : Bytes} {n : Int} {k : Nat}
    (absent : (10 : UInt8) ∉ front)
    (read : readRespLineInt marker (front ++ 10 :: rest) = .ok (some (n, k))) : k = front.length + 1 := by
  unfold readRespLineInt at read
  split at read
  · cases read
  · rw [memchr_append absent] at read
    split at read
    · cases read
    · simp only at read
      split at read
      · cases read
        rfl
      · cases read

theorem readRespLineInt_decisive (marker : UInt8) : Decisive (readRespLineInt marker) where
  reads := by
    intro buf n k read
    obtain waits | ⟨e, refused⟩ | ⟨front, rest, rfl, absent, marked⟩ := readRespLineInt_cases marker buf
    · cases waits.symm.trans read
    · have failed := refused []
      rw [List.append_nil, read] at failed
      cases failed
    · cases readRespLineInt_size absent read
      have line : (front ++ 10 :: rest).take (front.length + 1) = front ++ [10] := by simp [List.take_append]
      rw [readRespLineInt_line absent] at read
      rw [line]
      refine ⟨by simp, ?_, ?_⟩
      · intro more
        rw [List.append_assoc, List.singleton_append, readRespLineInt_line absent, read, List.length_append]
        rfl
      · intro seen before strict
        refine readRespLineInt_unfinished (line_torn absent before strict) ?_
        intro first head
        obtain ⟨more, rfl⟩ := List.head?_eq_some_iff.1 head
        rw [← line] at before
        obtain ⟨back, shape⟩ := before.trans (List.take_prefix _ _)
        rw [← shape] at marked
        exact Option.some.inj marked
  refuses := by
    intro buf e refused more
    obtain waits | ⟨e', always⟩ | ⟨front, rest, rfl, absent, -⟩ := readRespLineInt_cases marker buf
    · cases waits.symm.trans refused
    · have same := always []
      rw [List.append_nil, refused] at same
      rw [always, ← same]
    · rw [readRespLineInt_line absent] at refused
      rw [List.append_assoc, List.cons_append, readRespLineInt_line absent, refused]

theorem takeBulk_decisive (len : Nat) : Decisive (takeBulk len) where
  reads := by
    intro buf data n read
    unfold takeBulk at read
    split at read
    · cases read
    · rename_i enough
      cases read
      have size : (buf.take (len + 2)).length = len + 2 := by
        rw [List.length_take]
        omega
      refine ⟨by omega, ?_, ?_⟩
      · intro rest
        have whole : ¬ len + 2 > (buf.take (len + 2) ++ rest).length := by
          rw [List.length_append]
          omega
        rw [takeBulk, if_neg whole, List.take_append_of_le_length (by omega), List.take_take,
          Nat.min_eq_left (by omega), size]
      · intro seen before strict
        have short := strictPrefix_length before strict
        exact if_pos (by omega)
  refuses := by
    intro buf e refused
    unfold takeBulk at refused
    split at refused <;> cases refused

theorem readRespBulk_decisive : Decisive readRespBulk := by
  refine (readRespLineInt_decisive 36).bind ?_
  intro len
  split
  · exact Decisive.pure []
  · exact takeBulk_decisive _

theorem respSingleKey_decisive (cmdName : String) (make : Key → Command) (argsRemaining : Nat) :
    Decisive (respSingleKey cmdName make argsRemaining) := by
  unfold respSingleKey
  split
  · exact Decisive.fail _
  · exact readRespBulk_decisive.bind fun key => Decisive.pure _

theorem respSet_decisive (argsRemaining : Nat) : Decisive (respSet argsRemaining) := by
  unfold respSet
  split
  · exact Decisive.fail _
  · refine readRespBulk_decisive.bind fun key => readRespBulk_decisive.bind fun value => ?_
    split
    · exact readRespBulk_decisive.bind fun opt => readRespBulk_decisive.bind fun number =>
        (Decisive.lift (respTtl opt number)).bind fun lifetime =>
          (readRespBulk_decisive.times _).bind fun _ => Decisive.pure _
    · exact (readRespBulk_decisive.times _).bind fun _ => Decisive.pure _

theorem respExpire_decisive (argsRemaining : Nat) : Decisive (respExpire argsRemaining) := by
  unfold respExpire
  split
  · exact Decisive.fail _
  · exact readRespBulk_decisive.bind fun key => readRespBulk_decisive.bind fun secs =>
      (Decisive.lift (respSeconds secs)).bind fun seconds => Decisive.pure _

theorem respMget_decisive (argsRemaining : Nat) : Decisive (respMget argsRemaining) := by
  unfold respMget
  split
  · exact Decisive.fail _
  · exact (readRespBulk_decisive.times _).bind fun keys => Decisive.pure _

theorem respMset_decisive (argsRemaining : Nat) : Decisive (respMset argsRemaining) := by
  have pair : Decisive respPair :=
    readRespBulk_decisive.bind fun key => readRespBulk_decisive.bind fun value =>
      Decisive.pure _
  unfold respMset
  split
  · exact Decisive.fail _
  · exact (pair.times _).bind fun pairs => Decisive.pure _

theorem argumentReader_decisive (c : Command) (argsRemaining : Nat) :
    Decisive (argumentReader c argsRemaining) := by
  cases c with
  | ping | info | dbSize | flushDb | keys => exact Decisive.pure _
  | get _ | del _ | incr _ | «exists» _ | ttl _ => exact respSingleKey_decisive _ _ _
  | set _ _ _ => exact respSet_decisive _
  | expire _ _ => exact respExpire_decisive _
  | mget _ => exact respMget_decisive _
  | mset _ => exact respMset_decisive _

theorem respCommand_decisive (verb : Bytes) (argsRemaining : Nat) :
    Decisive (respCommand verb argsRemaining) := by
  rcases spelled_or_unknown verb with ⟨c, spelled⟩ | unknown
  · rw [respCommand_spelled _ spelled]
    exact argumentReader_decisive c argsRemaining
  · rw [respCommand_unknown _ unknown]
    exact Decisive.fail _

theorem parseRespFrame_decisive : Decisive parseRespFrame :=
  (readRespLineInt_decisive 42).bind fun header => (Decisive.lift (respCount header)).bind fun count =>
    readRespBulk_decisive.bind fun verb => respCommand_decisive verb (count - 1)

/-! ## The verdict -/

theorem tryParseFrameInline_line {front : Bytes} (absent : (10 : UInt8) ∉ front) (rest : Bytes) :
    tryParseFrameInline (front ++ 10 :: rest) = tryParseFrameInline (front ++ [10]) := by
  have found : memchr 10 (front ++ 10 :: rest) = some front.length := memchr_append absent
  have alone : memchr 10 (front ++ [10]) = some front.length := memchr_append absent
  unfold tryParseFrameInline
  simp only [found, alone, List.take_left]

/-- What an inline verdict takes is the first line and its LF. -/
theorem tryParseFrameInline_consumed {b : Bytes} {frame : FrameResult} {n : Nat}
    (parsed : tryParseFrameInline b = .ok frame) (takes : frame.consumed = some n) :
    ∃ front rest, b = front ++ 10 :: rest ∧ (10 : UInt8) ∉ front ∧ n = front.length + 1 := by
  unfold tryParseFrameInline at parsed
  split at parsed
  · cases parsed
    cases takes
  · rename_i pos found
    obtain ⟨front, rest, shape, absent, rfl⟩ := memchr_eq_some found
    refine ⟨front, rest, shape, absent, ?_⟩
    split at parsed <;> cases parsed <;> cases takes <;> rfl

theorem tryParseFrameInline_final (b : Bytes) : FinalVerdict tryParseFrameInline b where
  positive := by
    intro frame n parsed takes
    obtain ⟨front, rest, -, -, rfl⟩ := tryParseFrameInline_consumed parsed takes
    omega
  within := by
    intro frame n parsed takes
    obtain ⟨front, rest, rfl, -, rfl⟩ := tryParseFrameInline_consumed parsed takes
    simp
  stable := by
    intro frame n parsed takes s
    obtain ⟨front, rest, rfl, absent, rfl⟩ := tryParseFrameInline_consumed parsed takes
    rw [tryParseFrameInline_line absent] at parsed
    rw [List.take_append, Nat.add_sub_cancel_left, List.take_of_length_le (by omega),
      List.take_succ_cons, List.take_zero, List.append_assoc, List.singleton_append,
      tryParseFrameInline_line absent, parsed]
  minimal := by
    intro frame n parsed takes seen before strict
    obtain ⟨front, rest, rfl, absent, rfl⟩ := tryParseFrameInline_consumed parsed takes
    rw [List.take_append, Nat.add_sub_cancel_left, List.take_of_length_le (by omega),
      List.take_succ_cons, List.take_zero] at before strict
    rw [tryParseFrameInline, memchr_none (line_torn absent before strict)]
  error := by
    intro e parsed s
    have original := parsed
    unfold tryParseFrameInline at parsed
    split at parsed
    · cases parsed
    · rename_i pos found
      obtain ⟨front, rest, rfl, absent, -⟩ := memchr_eq_some found
      rw [tryParseFrameInline_line absent] at original
      rw [List.append_assoc, List.cons_append, tryParseFrameInline_line absent, original]

/-- The verdict of a scanner. -/
def frameOf : Except ParseError (Option (Command × Nat)) → Except ParseError FrameResult
  | .ok (some (c, consumed)) => .ok (.complete consumed c)
  | .ok none => .ok .incomplete
  | .error e => .error e

theorem tryParseFrame_resp (rest : Bytes) :
    tryParseFrame (42 :: rest) = frameOf (parseRespFrame (42 :: rest)) := by
  simp only [tryParseFrame, if_true]
  rfl

theorem tryParseFrame_inline {b : Bytes} (other : b.head? ≠ some 42) :
    tryParseFrame b = tryParseFrameInline b := by
  cases b with
  | nil => rfl
  | cons first rest =>
      have plain : first ≠ 42 := fun same => other (by rw [same, List.head?_cons])
      simp only [tryParseFrame, if_neg plain]

/-- A frame that takes bytes was read by the scanner. -/
theorem frameOf_consumed {r : Except ParseError (Option (Command × Nat))} {frame : FrameResult}
    {n : Nat} (is : frameOf r = .ok frame) (takes : frame.consumed = some n) :
    ∃ c, frame = .complete n c ∧ r = .ok (some (c, n)) := by
  unfold frameOf at is
  split at is <;> cases is <;> cases takes
  exact ⟨_, rfl, rfl⟩

theorem tryParseFrame_final_resp (rest : Bytes) : FinalVerdict tryParseFrame (42 :: rest) := by
  have starred : ∀ {buf : Bytes}, buf <+: 42 :: rest → tryParseFrame buf = frameOf (parseRespFrame buf) := by
    intro buf before
    cases buf with
    | nil => rfl
    | cons first buf =>
        rw [(List.cons_prefix_cons.1 before).1]
        exact tryParseFrame_resp buf
  have read : ∀ frame n, tryParseFrame (42 :: rest) = .ok frame → frame.consumed = some n →
      ∃ c, frame = .complete n c ∧ n ≤ (42 :: rest).length ∧
        Reads parseRespFrame ((42 :: rest).take n) c := by
    intro frame n parsed takes
    rw [tryParseFrame_resp] at parsed
    obtain ⟨c, rfl, scanned⟩ := frameOf_consumed parsed takes
    exact ⟨c, rfl, parseRespFrame_decisive.reads scanned⟩
  have positive : ∀ frame n, tryParseFrame (42 :: rest) = .ok frame → frame.consumed = some n →
      1 ≤ n := by
    intro frame n parsed takes
    obtain ⟨c, rfl, -, -⟩ := read frame n parsed takes
    exact (tryParseFrame_takesInput _).complete n c parsed
  constructor
  · exact positive
  · intro frame n parsed takes
    obtain ⟨c, -, within, -⟩ := read frame n parsed takes
    exact within
  · intro frame n parsed takes s
    obtain ⟨m, rfl⟩ := Nat.exists_eq_add_of_le' (positive frame n parsed takes)
    obtain ⟨c, rfl, within, reads⟩ := read frame _ parsed takes
    have whole := reads.whole s
    rw [List.length_take, Nat.min_eq_left within] at whole
    rw [List.take_succ_cons, List.cons_append] at whole ⊢
    rw [tryParseFrame_resp, whole]
    rfl
  · intro frame n parsed takes seen before strict
    obtain ⟨c, rfl, within, reads⟩ := read frame n parsed takes
    rw [starred (before.trans (List.take_prefix _ _)), reads.torn seen before strict]
    rfl
  · intro e parsed s
    rw [tryParseFrame_resp] at parsed
    have failed : parseRespFrame (42 :: rest) = .error e := by
      unfold frameOf at parsed
      split at parsed <;> cases parsed
      assumption
    rw [List.cons_append, tryParseFrame_resp, ← List.cons_append,
      parseRespFrame_decisive.refuses failed s]
    rfl

theorem tryParseFrame_final_inline {b : Bytes} (other : b.head? ≠ some 42) :
    FinalVerdict tryParseFrame b := by
  have inline := tryParseFrameInline_final b
  have same := tryParseFrame_inline other
  constructor
  · intro frame n parsed takes
    exact inline.positive frame n (same ▸ parsed) takes
  · intro frame n parsed takes
    exact inline.within frame n (same ▸ parsed) takes
  · intro frame n parsed takes s
    rw [same] at parsed
    -- the bytes taken begin like the buffer
    have filled : (b.take n ++ s).head? = b.head? := by
      have positive := inline.positive frame n parsed takes
      have within := inline.within frame n parsed takes
      cases b with
      | nil => simp at within; omega
      | cons first rest =>
          obtain ⟨m, rfl⟩ := Nat.exists_eq_add_of_le' positive
          rfl
    rw [tryParseFrame_inline (filled ▸ other)]
    exact inline.stable frame n parsed takes s
  · intro frame n parsed takes seen before strict
    have plain : seen.head? ≠ some 42 := by
      cases seen with
      | nil => simp
      | cons first seen =>
          obtain ⟨back, rfl⟩ := before.trans (List.take_prefix n b)
          exact other
    rw [tryParseFrame_inline plain]
    exact inline.minimal frame n (same ▸ parsed) takes seen before strict
  · intro e parsed s
    rw [same] at parsed
    have filled : (b ++ s).head? = b.head? := by
      cases b with
      | nil => cases parsed
      | cons first rest => rfl
    rw [tryParseFrame_inline (filled ▸ other)]
    exact inline.error e parsed s

theorem tryParseFrame_final (b : Bytes) : FinalVerdict tryParseFrame b := by
  by_cases star : b.head? = some 42
  · obtain ⟨rest, rfl⟩ : ∃ rest, b = 42 :: rest := by
      cases b with
      | nil => cases star
      | cons first rest =>
          cases star
          exact ⟨rest, rfl⟩
    exact tryParseFrame_final_resp rest
  · exact tryParseFrame_final_inline star

/-- What takes bytes or is refused stays so when more arrives. -/
theorem tryParseFrame_append {b : Bytes} {frame : FrameResult} {n : Nat}
    (parsed : tryParseFrame b = .ok frame) (takes : frame.consumed = some n) (more : Bytes) :
    tryParseFrame (b ++ more) = .ok frame := by
  have whole := (tryParseFrame_final b).stable frame n parsed takes (b.drop n ++ more)
  rwa [← List.append_assoc, List.take_append_drop] at whole

/-- A request is refused once its first line has ended, not before. -/
theorem tryParseFrame_error_lf {b : Bytes} {e : ParseError} (refused : tryParseFrame b = .error e) :
    (10 : UInt8) ∈ b := by
  by_contra absent
  by_cases star : b.head? = some 42
  · cases b with
    | nil => cases star
    | cons first rest =>
        cases star
        have line : readRespLineInt 42 (42 :: rest) = .ok none :=
          readRespLineInt_unfinished absent (by rintro _ ⟨⟩; rfl)
        have waiting : parseRespFrame (42 :: rest) = .ok none := by
          show Scanner.bind (readRespLineInt 42) _ (42 :: rest) = _
          rw [Scanner.bind, line]
        rw [tryParseFrame_resp, waiting] at refused
        cases refused
  · rw [tryParseFrame_inline star, tryParseFrameInline, memchr_none absent] at refused
    cases refused

/-- The verdict of `try_parse_frame` is local, minimal and prefix-stable: what it
takes is in the buffer and decides the verdict, no part of it would have done, and
an error stays. -/
theorem tryParseFrame_prefix_stable (b : Bytes) :
    (∀ frame n, tryParseFrame b = .ok frame → frame.consumed = some n →
      (1 ≤ n ∧ n ≤ b.length) ∧
      (∀ s, tryParseFrame (b.take n ++ s) = tryParseFrame b) ∧
      (∀ seen, seen <+: b.take n → seen ≠ b.take n → tryParseFrame seen = .ok .incomplete)) ∧
    (∀ e, tryParseFrame b = .error e → ∀ s, tryParseFrame (b ++ s) = tryParseFrame b) := by
  have final := tryParseFrame_final b
  constructor
  · intro frame n parsed takes
    refine ⟨⟨final.positive frame n parsed takes, final.within frame n parsed takes⟩, ?_, ?_⟩
    · intro s
      rw [final.stable frame n parsed takes s, parsed]
    · exact final.minimal frame n parsed takes
  · intro e parsed s
    rw [final.error e parsed s, parsed]

end ZetDb.Protocol
