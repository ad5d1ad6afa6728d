/-
# Server.Chunking -- what the cut of the stream changes

The network may deliver a stream in any pieces.  The session decides the protocol
once per read, from the first byte of its buffer, and keeps to it for everything
else in the buffer; so a request of the other protocol is read differently when it
arrives together with an earlier one and when it arrives alone.

The reference is a session that looks at the first byte before every request
(`anyStep`).  It is `Incremental`: a verdict that has been reached stays, so the cut
does not matter.  A session whose buffers hold one protocol at a time
(`OneProtocol`) takes the same steps, and `chunking_invisible` follows.
-/
import ZetDb.Protocol.InlineLines
import ZetDb.Server.Session
import ZetDb.Theory.Chunks

namespace ZetDb.Server

set_option autoImplicit false

open ZetDb.Theory.Wire ZetDb.Theory.Text ZetDb.Theory.Chunks ZetDb.Domain ZetDb.Storage ZetDb.Protocol
open ZetDb.Theory.Runs (Along)

/-! ## Buffers of one protocol -/

/-- What a round leaves of the buffer, if it goes on. -/
def leftOver {γ : Type} (verdict : Except ParseError (Frame γ)) (b : Bytes) : Option Bytes :=
  match verdict with
  | .ok frame => frame.consumed.map fun n => b.drop n
  | .error .emptyCommand => none
  | .error _ => some (skipToNewline b)

/-- The buffer behind its first request, read by the parser of the protocol. -/
def remainder (isResp : Bool) (b : Bytes) : Option Bytes :=
  if isResp then leftOver (tryParseFrame b) b else leftOver (parseInlineBorrowed b) b

/-- Wherever a request begins in the buffer, it begins as the protocol's do; and no
line is a lone LF. -/
def oneProtocol (isResp : Bool) : Nat → Bytes → Bool
  | 0, _ => true
  | fuel + 1, b =>
      b.isEmpty ||
        ((b.head? == some 42) == isResp && b != [10] &&
          match remainder isResp b with
          | some rest => oneProtocol isResp fuel rest
          | none => true)

/-- The buffer holds requests of the protocol of its first byte only. -/
def OneProtocol (b : Bytes) : Prop := oneProtocol (b.head? == some 42) (b.length + 1) b = true

instance (b : Bytes) : Decidable (OneProtocol b) := inferInstanceAs (Decidable (_ = true))

section Rounds

variable {σ τ γ : Type} (d : Dispatchers σ τ) (env : Nat → τ) (opts : Options)

/-! ## One round -/

/-- More bytes at the end of the buffer. -/
def receive (s : Session σ) (chunk : Bytes) : Session σ := { s with readBuf := s.readBuf ++ chunk }

/-- The session once its replies are out. -/
def flushed (s : Session σ) : Session σ := { s with sent := s.sent ++ s.writeBuf, writeBuf := [] }

theorem flushed_flushed (s : Session σ) : flushed (flushed s) = flushed s := by
  simp only [flushed, List.append_nil]

/-- The state a round goes on with. -/
def Round.next : Round σ → Option (Session σ)
  | .again s => some s
  | .stop => none
  | .panic => none

theorem advance_append {buf rest : Bytes} {n : Nat} (advanced : advance buf n = some rest) (more : Bytes) :
    advance (buf ++ more) n = some (rest ++ more) := by
  unfold advance at advanced ⊢
  split at advanced
  · rename_i inside
    cases advanced
    have outer : n ≤ (buf ++ more).length := by
      rw [List.length_append]
      omega
    rw [if_pos outer, List.drop_append_of_le_length inside]
  · cases advanced

theorem skipToNewline_append {buf : Bytes} (ended : (10 : UInt8) ∈ buf) (more : Bytes) :
    skipToNewline (buf ++ more) = skipToNewline buf ++ more := by
  cases found : memchr 10 buf with
  | none => exact absurd ended (memchr_eq_none found)
  | some pos =>
      obtain ⟨front, rest, rfl, absent, rfl⟩ := memchr_eq_some found
      have later : memchr 10 (front ++ 10 :: rest ++ more) = some front.length := by
        rw [List.append_assoc, List.cons_append]
        exact memchr_append absent
      simp only [skipToNewline, found, later]
      refine List.drop_append_of_le_length ?_
      rw [List.length_append, List.length_cons]
      omega

/-- A round that goes on does the same with more bytes behind. -/
theorem round_receive {verdict : Except ParseError (Frame γ)} {execute : Session σ → γ → Session σ}
    {write : Response → Bytes} {s t : Session σ}
    (commutes : ∀ s c more, execute (receive s more) c = receive (execute s c) more)
    (ended : ∀ e, verdict = .error e → (10 : UInt8) ∈ s.readBuf)
    (again : round verdict execute write s = .again t) (more : Bytes) :
    round verdict execute write (receive s more) = .again (receive t more) := by
  unfold round at again ⊢
  split at again
  · rename_i consumed c
    split at again
    · rename_i rest advanced
      cases again
      have later : advance (receive s more).readBuf consumed = some (rest ++ more) :=
        advance_append advanced more
      simp only [later]
      rw [← commutes]
      rfl
    · cases again
  · rename_i consumed
    split at again
    · rename_i rest advanced
      cases again
      have later : advance (receive s more).readBuf consumed = some (rest ++ more) :=
        advance_append advanced more
      simp only [later]
      rfl
    · cases again
  · cases again
  · cases again
    simp only [refuse, receive, skipToNewline_append (ended _ rfl)]
  · cases again
    simp only [refuse, receive, skipToNewline_append (ended _ rfl)]
  · cases again

/-- What has been written but not sent makes no difference to a round. -/
theorem round_flushed {verdict : Except ParseError (Frame γ)} {execute : Session σ → γ → Session σ}
    {write : Response → Bytes}
    (absorbs : ∀ s c, flushed (execute s c) = flushed (execute (flushed s) c)) (s : Session σ) :
    (round verdict execute write s).next.map flushed =
      (round verdict execute write (flushed s)).next.map flushed := by
  have same : (flushed s).readBuf = s.readBuf := rfl
  unfold round
  rw [same]
  split
  · split
    · simp only [Round.next, Option.map_some]
      rw [absorbs]
      rfl
    · rfl
  · split
    · simp [Round.next, flushed]
    · rfl
  · rfl
  · simp [Round.next, refuse, flushed]
  · simp [Round.next, refuse, flushed]
  · rfl

/-- What a round leaves is the left-over of its verdict; it does not die if the
verdict stays within the buffer. -/
theorem round_leftOver {verdict : Except ParseError (Frame γ)} {execute : Session σ → γ → Session σ}
    {write : Response → Bytes} {s : Session σ}
    (keeps : ∀ s c, (execute s c).readBuf = s.readBuf ∧ (execute s c).status = s.status)
    (within : ∀ frame n, verdict = .ok frame → frame.consumed = some n → n ≤ s.readBuf.length) :
    match leftOver verdict s.readBuf with
    | some rest => ∃ t, round verdict execute write s = .again t ∧ t.readBuf = rest ∧ t.status = s.status
    | none => round verdict execute write s = .stop := by
  match verdict with
  | .ok (.complete n c) =>
      have advanced : advance s.readBuf n = some (s.readBuf.drop n) :=
        if_pos (within _ n rfl rfl)
      obtain ⟨kept, status⟩ := keeps { s with readBuf := s.readBuf.drop n } c
      refine ⟨execute { s with readBuf := s.readBuf.drop n } c, ?_, kept, status⟩
      simp only [round, advanced]
  | .ok (.skip n) =>
      have advanced : advance s.readBuf n = some (s.readBuf.drop n) :=
        if_pos (within _ n rfl rfl)
      refine ⟨{ s with readBuf := s.readBuf.drop n }, ?_, rfl, rfl⟩
      simp only [round, advanced]
  | .ok .incomplete => rfl
  | .error .emptyCommand => rfl
  | .error (.syntaxError _) => exact ⟨_, rfl, rfl, rfl⟩
  | .error (.unknownCommand _) => exact ⟨_, rfl, rfl, rfl⟩

/-! ## The reference session -/

/-- A round that looks at the first byte of the buffer. -/
def anyRound (s : Session σ) : Round σ :=
  if s.readBuf.head? = some 42 then respRound d env opts s else inlineRound d env opts s

def anyStep (s : Session σ) : Option (Session σ) := (anyRound d env opts s).next

/-- The bytes a session still has to read. -/
def pending (s : Session σ) : Nat := s.readBuf.length

theorem anyStep_again {s t : Session σ} (taken : anyStep d env opts s = some t) :
    anyRound d env opts s = .again t := by
  unfold anyStep at taken
  cases next : anyRound d env opts s with
  | again u =>
      rw [next] at taken
      cases taken
      rfl
  | stop =>
      rw [next] at taken
      cases taken
  | panic =>
      rw [next] at taken
      cases taken

theorem respRound_receive {s t : Session σ} (again : respRound d env opts s = .again t) (more : Bytes) :
    respRound d env opts (receive s more) = .again (receive t more) := by
  have verdict : tryParseFrame (s.readBuf ++ more) = tryParseFrame s.readBuf := by
    cases parsed : tryParseFrame s.readBuf with
    | error e => exact (tryParseFrame_final s.readBuf).error e parsed more
    | ok frame =>
        cases takes : frame.consumed with
        | some n => exact tryParseFrame_append parsed takes more
        | none =>
            -- the round would have stopped
            cases frame with
            | incomplete =>
                rw [respRound, parsed] at again
                cases again
            | complete n c => cases takes
            | skip n => cases takes
  have later := round_receive (fun _ _ _ => rfl) (fun e refused => tryParseFrame_error_lf refused) again more
  rw [respRound, ← later]
  show round (tryParseFrame (s.readBuf ++ more)) _ _ _ = _
  rw [verdict]

theorem inlineRound_receive {s t : Session σ} (again : inlineRound d env opts s = .again t)
    (more : Bytes) : inlineRound d env opts (receive s more) = .again (receive t more) := by
  have decided : parseInlineBorrowed s.readBuf ≠ .ok .incomplete := by
    intro waiting
    rw [inlineRound, waiting] at again
    cases again
  have later := round_receive (fun _ _ _ => rfl) (fun e refused => parseInlineBorrowed_error_lf refused)
    again more
  rw [inlineRound, ← later]
  show round (parseInlineBorrowed (s.readBuf ++ more)) _ _ _ = _
  rw [parseInlineBorrowed_append decided]

/-- The reference session does not look ahead: what it does with what it has, it
does with more behind. -/
theorem anyStep_incremental : Incremental (anyStep d env opts) pending receive where
  shrinks := by
    intro s t taken
    have again := anyStep_again d env opts taken
    unfold anyRound at again
    split at again
    · exact respRound_shrinks d env opts again
    · exact inlineRound_shrinks d env opts again
  push_push := by
    intro s front back
    simp only [receive, List.append_assoc]
  stable := by
    intro s t taken more
    have again := anyStep_again d env opts taken
    have filled : s.readBuf ≠ [] := by
      intro empty
      unfold anyRound at again
      rw [empty] at again
      simp only [List.head?_nil, reduceCtorEq, if_false] at again
      rw [inlineRound, empty] at again
      cases again
    have head : (receive s more).readBuf.head? = s.readBuf.head? := by
      cases shape : s.readBuf with
      | nil => exact absurd shape filled
      | cons b rest =>
          show (s.readBuf ++ more).head? = _
          rw [shape]
          rfl
    unfold anyStep anyRound
    unfold anyRound at again
    rw [head]
    split at again
    · rename_i star
      rw [if_pos star, respRound_receive d env opts again]
      rfl
    · rename_i other
      rw [if_neg other, inlineRound_receive d env opts again]
      rfl

/-- What has been written but not sent makes no difference to the reference. -/
theorem anyStep_flushed (s t : Session σ) (same : flushed s = flushed t) :
    (anyStep d env opts s).map flushed = (anyStep d env opts t).map flushed := by
  have absorbed : ∀ s : Session σ,
      (anyStep d env opts s).map flushed = (anyStep d env opts (flushed s)).map flushed := by
    intro s
    have head : (flushed s).readBuf = s.readBuf := rfl
    unfold anyStep anyRound
    rw [head]
    split
    · refine round_flushed ?_ s
      intro s c
      simp only [executeResp, flushed, List.append_assoc, List.nil_append]
      rfl
    · refine round_flushed ?_ s
      intro s c
      simp only [executeInline, flushed, List.append_assoc, List.nil_append]
  rw [absorbed s, absorbed t, same]

/-! ## A turn on one protocol -/

/-- The round of the protocol that was chosen for the buffer. -/
def protocolRound (isResp : Bool) (s : Session σ) : Round σ :=
  if isResp then respRound d env opts s else inlineRound d env opts s

theorem protocolRound_remainder (isResp : Bool) {s : Session σ}
    (first : (s.readBuf.head? == some 42) = isResp) (lone : s.readBuf ≠ [10]) :
    match remainder isResp s.readBuf with
    | some rest =>
        ∃ t, protocolRound d env opts isResp s = .again t ∧ t.readBuf = rest ∧ t.status = s.status
    | none => protocolRound d env opts isResp s = .stop := by
  cases isResp with
  | true =>
      refine round_leftOver (fun _ _ => ⟨rfl, rfl⟩) ?_
      intro frame n parsed takes
      exact (tryParseFrame_final s.readBuf).within frame n parsed takes
  | false =>
      refine round_leftOver (fun _ _ => ⟨rfl, rfl⟩) ?_
      intro frame n parsed takes
      exact parseInlineBorrowed_within parsed takes lone

theorem anyRound_eq_protocolRound {isResp : Bool} {s : Session σ}
    (first : (s.readBuf.head? == some 42) = isResp) :
    anyRound d env opts s = protocolRound d env opts isResp s := by
  unfold anyRound protocolRound
  rw [← first]
  simp only [beq_iff_eq]

/-- On an empty buffer either loop stops. -/
theorem protocolRound_empty (isResp : Bool) {s : Session σ} (empty : s.readBuf = []) :
    protocolRound d env opts isResp s = .stop := by
  cases isResp with
  | true =>
      show respRound d env opts s = .stop
      rw [respRound, empty]
      rfl
  | false =>
      show inlineRound d env opts s = .stop
      rw [inlineRound, empty]
      rfl

/-- The chosen loop is the reference, as long as the buffer holds its protocol. -/
theorem loop_oneProtocol (isResp : Bool) (fuel : Nat) (s : Session σ)
    (one : oneProtocol isResp fuel s.readBuf = true) :
    loop (protocolRound d env opts isResp) fuel s = rounds (anyStep d env opts) fuel s ∧
      (rounds (anyStep d env opts) fuel s).status = s.status := by
  induction fuel generalizing s with
  | zero => exact ⟨rfl, rfl⟩
  | succ fuel ih =>
      rw [oneProtocol, Bool.or_eq_true] at one
      rcases one with empty | one
      · have none : s.readBuf = [] := List.isEmpty_iff.1 empty
        have stopped := protocolRound_empty d env opts isResp none
        have waits : anyStep d env opts s = Option.none := by
          have inline : (s.readBuf.head? == some 42) = false := by rw [none]; rfl
          have other := protocolRound_empty d env opts false none
          rw [anyStep, anyRound_eq_protocolRound d env opts inline, other]
          rfl
        rw [loop, stopped, rounds_wait waits]
        exact ⟨rfl, rfl⟩
      · simp only [Bool.and_eq_true, beq_iff_eq, bne_iff_ne] at one
        obtain ⟨⟨first, lone⟩, later⟩ := one
        have next := protocolRound_remainder d env opts isResp first lone
        have same := anyRound_eq_protocolRound d env opts first
        cases rest : remainder isResp s.readBuf with
        | none =>
            rw [rest] at next
            have waits : anyStep d env opts s = none := by
              rw [anyStep, same, next]
              rfl
            rw [loop, next, rounds_wait waits]
            exact ⟨rfl, rfl⟩
        | some buf =>
            rw [rest] at next later
            obtain ⟨t, again, left, status⟩ := next
            have taken : anyStep d env opts s = some t := by
              rw [anyStep, same, again]
              rfl
            rw [loop, again, rounds_step taken, ← status]
            exact ih t (by rw [left]; exact later)

/-- A turn on one protocol leaves the session where the reference settles. -/
theorem process_oneProtocol (s : Session σ) (one : OneProtocol s.readBuf) :
    process d env opts s = settle (anyStep d env opts) pending s ∧
      (process d env opts s).status = s.status := by
  obtain ⟨same, status⟩ := loop_oneProtocol d env opts _ _ s one
  have chosen : process d env opts s =
      loop (protocolRound d env opts (s.readBuf.head? == some 42)) (s.readBuf.length + 1) s := by
    unfold process
    split
    · rename_i star
      rw [star]
      rfl
    · rename_i other
      have isInline : (s.readBuf.head? == some 42) = false := by simpa using other
      rw [isInline]
      rfl
  rw [chosen, same]
  exact ⟨rfl, status⟩

/-! ## The whole connection -/

/-- The session is where the reference settles on all it has received, and has sent
all it wrote. -/
structure CaughtUp (origin : Session σ) (received : Bytes) (s : Session σ) : Prop where
  running : s.status = .running
  empty : s.writeBuf = []
  settled : flushed s = flushed (settle (anyStep d env opts) pending (receive origin received))

/-- The turn stays within the limits, and its buffer holds one protocol. -/
def GoodTurn (s : Session σ) (t : Turn) : Prop :=
  WithinLimits d env opts s t ∧ OneProtocol (s.readBuf ++ t.read.getD [])

instance (s : Session σ) (t : Turn) : Decidable (GoodTurn d env opts s t) :=
  inferInstanceAs (Decidable (_ ∧ _))

theorem turn_caughtUp {origin s : Session σ} {received chunk : Bytes}
    (before : CaughtUp d env opts origin received s) (delivered : chunk ≠ [])
    (good : GoodTurn d env opts s (.delivers chunk)) :
    ∃ t, turn d env opts s (.delivers chunk) = some t ∧
      CaughtUp d env opts origin (received ++ chunk) t := by
  obtain ⟨⟨small, smallReplies⟩, one⟩ := good
  simp only [Turn.delivers, Option.getD_some] at small smallReplies one
  obtain ⟨processed, status⟩ := process_oneProtocol d env opts (receive s chunk) one
  have running : (process d env opts (receive s chunk)).status = .running := status.trans before.running
  have alive : (process d env opts (receive s chunk)).status ≠ .panicked := by
    rw [running]
    decide
  refine ⟨flushed (process d env opts (receive s chunk)), ?_, ?_⟩
  · rw [turn_delivers d env opts before.running delivered small]
    show (if (process d env opts (receive s chunk)).status = .panicked then _ else _) = _
    rw [if_neg alive]
    exact congrArg some (flushReplies_ok _ smallReplies)
  · refine ⟨running, rfl, ?_⟩
    have alike : flushed (receive s chunk) =
        flushed (receive (settle (anyStep d env opts) pending (receive origin received)) chunk) :=
      congrArg (receive · chunk) before.settled
    have sizes : ∀ s t : Session σ, flushed s = flushed t → pending s = pending t := by
      intro s t same
      have size : pending (flushed s) = pending (flushed t) := congrArg pending same
      exact size
    rw [(anyStep_incremental d env opts).settle_push_append, processed, flushed_flushed]
    exact settle_congr (anyStep_flushed d env opts) sizes alike

theorem reads_caughtUp {origin s : Session σ} {received : Bytes} (reads : List Bytes)
    (before : CaughtUp d env opts origin received s) (delivered : ∀ chunk ∈ reads, chunk ≠ [])
    (good : Along (turn d env opts) (GoodTurn d env opts) s (reads.map Turn.delivers)) :
    ∃ t, handleSessionFull d env opts s (reads.map Turn.delivers) = some t ∧
      CaughtUp d env opts origin (received ++ reads.flatten) t := by
  induction reads generalizing s received with
  | nil => exact ⟨s, rfl, by simpa using before⟩
  | cons chunk reads ih =>
      obtain ⟨t, taken, caughtUp⟩ :=
        turn_caughtUp d env opts before (delivered chunk (by simp)) good.1
      obtain ⟨u, reached, final⟩ :=
        ih caughtUp (fun c member => delivered c (by simp [member])) (good.2 t taken)
      refine ⟨u, ?_, ?_⟩
      · show Theory.Runs.run (turn d env opts) s (.delivers chunk :: reads.map Turn.delivers) = some u
        rw [Theory.Runs.run_cons, taken]
        exact reached
      · rwa [List.flatten_cons, ← List.append_assoc]

/-- A fresh session dispatches the same commands and sends the same bytes, whichever
of the two ways the stream arrives. -/
def SameOutcome (engine : σ) (reads reads' : List Bytes) : Prop :=
  ∃ t t', handleSessionFull d env opts (.start engine) (reads.map Turn.delivers) = some t ∧
    handleSessionFull d env opts (.start engine) (reads'.map Turn.delivers) = some t' ∧
    t.dispatched = t'.dispatched ∧ t.sent = t'.sent

/-- The cut of a stream is invisible, as long as in both ways of cutting it every
buffer holds one protocol. -/
theorem chunking_invisible (engine : σ) (reads reads' : List Bytes)
    (stream : reads.flatten = reads'.flatten)
    (delivered : ∀ chunk ∈ reads, chunk ≠ []) (delivered' : ∀ chunk ∈ reads', chunk ≠ [])
    (good : Along (turn d env opts) (GoodTurn d env opts) (.start engine) (reads.map Turn.delivers))
    (good' : Along (turn d env opts) (GoodTurn d env opts) (.start engine)
      (reads'.map Turn.delivers)) :
    SameOutcome d env opts engine reads reads' := by
  have start : CaughtUp d env opts (.start engine) [] (.start engine) := by
    refine ⟨rfl, rfl, ?_⟩
    have waits : anyStep d env opts (receive (.start engine) []) = none := rfl
    rw [settle, rounds_wait waits]
    rfl
  obtain ⟨t, reached, caughtUp⟩ := reads_caughtUp d env opts reads start delivered good
  obtain ⟨t', reached', caughtUp'⟩ := reads_caughtUp d env opts reads' start delivered' good'
  have same : flushed t = flushed t' := by
    rw [caughtUp.settled, caughtUp'.settled, stream]
  have dispatched : (flushed t).dispatched = (flushed t').dispatched := congrArg Session.dispatched same
  have sent : (flushed t).sent = (flushed t').sent := congrArg Session.sent same
  refine ⟨t, t', reached, reached', dispatched, ?_⟩
  simpa only [flushed, caughtUp.empty, caughtUp'.empty, List.append_nil] using sent

end Rounds

/-- A SET as an array, then a GET on a line. -/
def mixedStream : Bytes := respFrame [ascii "SET", ascii "k", ascii "v"] ++ ascii "GET k\r\n"

/-- The array alone, the line in two pieces. -/
def mixedReads : List Bytes := [mixedStream.take 27, (mixedStream.drop 27).take 3, mixedStream.drop 30]

/-- The array in two pieces, then the line. -/
def mixedReads' : List Bytes := [mixedStream.take 9, (mixedStream.drop 9).take 18, mixedStream.drop 27]

theorem chunking_invisible_mixed :
    SameOutcome dispatchers (fun k => ⟨Iter.some, .new, k⟩) ⟨true, true⟩ .new mixedReads mixedReads' :=
  chunking_invisible dispatchers (fun k => ⟨Iter.some, .new, k⟩) ⟨true, true⟩ .new mixedReads mixedReads'
    (by decide +kernel) (by decide +kernel) (by decide +kernel) (by decide +kernel) (by decide +kernel)

/-- Array and line in one read: the reply to the GET has another form than when the
line comes alone, though no buffer is near its limit. -/
theorem chunking_visible :
    [mixedStream].flatten = mixedReads.flatten ∧
    (∀ chunk ∈ [mixedStream], chunk ≠ []) ∧ (∀ chunk ∈ mixedReads, chunk ≠ []) ∧
    Along (turn dispatchers (fun k => ⟨Iter.some, .new, k⟩) ⟨true, true⟩)
      (WithinLimits dispatchers (fun k => ⟨Iter.some, .new, k⟩) ⟨true, true⟩) (.start .new)
      ([mixedStream].map Turn.delivers) ∧
    Along (turn dispatchers (fun k => ⟨Iter.some, .new, k⟩) ⟨true, true⟩)
      (WithinLimits dispatchers (fun k => ⟨Iter.some, .new, k⟩) ⟨true, true⟩) (.start .new)
      (mixedReads.map Turn.delivers) ∧
    ¬ SameOutcome dispatchers (fun k => ⟨Iter.some, .new, k⟩) ⟨true, true⟩ .new [mixedStream]
      mixedReads := by
  refine ⟨by decide +kernel, by decide +kernel, by decide +kernel, by decide +kernel, by decide +kernel, ?_⟩
  rintro ⟨t, t', reached, reached', -, sent⟩
  have together : (handleSessionFull dispatchers (fun k => ⟨Iter.some, .new, k⟩) ⟨true, true⟩
      (.start .new) ([mixedStream].map Turn.delivers)).map Session.sent =
      some (ascii "+OK\r\n$1\r\nv\r\n") := by decide +kernel
  have apart : (handleSessionFull dispatchers (fun k => ⟨Iter.some, .new, k⟩) ⟨true, true⟩
      (.start .new) (mixedReads.map Turn.delivers)).map Session.sent =
      some (ascii "+OK\r\n+v\r\n") := by decide +kernel
  rw [reached, Option.map_some] at together
  rw [reached', Option.map_some, ← sent] at apart
  rw [together] at apart
  exact absurd apart (by decide +kernel)

end ZetDb.Server
