/-
# Server.MixedStreams -- a connection that speaks both protocols

A client may send arrays and lines on one connection, good ones and bad ones, and
need not wait for the replies.  `transcript` says what is owed to it: a request is
executed and answered, a line that is a command is executed and answered, a line
that is none is answered by an error and does nothing else, a blank line is passed
over.

* `items_answered`: as long as every buffer holds one protocol, the session keeps
  this record exactly, however the network cuts the stream: commands, log entries,
  metrics and replies are those of the transcript, in its order.
* `lines_answered`: where all that is sent are lines, nothing is asked of the cut.
-/
import ZetDb.Server.Chunking
import ZetDb.Server.FastSession
import ZetDb.Server.RespSession

namespace ZetDb.Server

set_option autoImplicit false

open ZetDb.Theory.Wire ZetDb.Theory.Text ZetDb.Theory.Chunks ZetDb.Theory.Stream ZetDb.Domain ZetDb.Storage
  ZetDb.Protocol
open ZetDb.Theory.Runs (Along)

/-! ## What is sent, and what is owed for it -/

/-- A line that does not look like an array. -/
structure Line where
  text : Bytes
  plain : IsLine text
  inline : text.head? ≠ some 42

def Line.encode (l : Line) : Bytes := l.text ++ crlf

/-- A line of blanks is no request. -/
def Line.blank (l : Line) : Bool := (trim l.text).isEmpty

inductive Item where
  | request (r : Request)
  | line (l : Line)

def Item.encode : Item → Bytes
  | .request r => r.encode
  | .line l => l.encode

def Item.blank : Item → Bool
  | .request _ => false
  | .line l => l.blank

/-- What came of the items so far. -/
structure Transcript (σ : Type) where
  engine : σ
  dispatched : List Command
  appended : List Bytes
  recorded : List MetricsCall
  replies : List Bytes

def Transcript.start {σ : Type} (engine : σ) : Transcript σ := ⟨engine, [], [], [], []⟩

section Items

variable {σ τ : Type} (d : Dispatchers σ τ) (env : Nat → τ) (opts : Options)

/-- A request is dispatched, and logged if it succeeded. -/
def Transcript.request (t : Transcript σ) (c : Command) : Transcript σ :=
  let result := d.dispatch (env t.dispatched.length) t.engine c
  { engine := result.2
    dispatched := t.dispatched ++ [c]
    appended := t.appended ++
      (if result.1.isSuccess then (aofEntry opts c.isWrite c.toAofEntry).toList else [])
    recorded := t.recorded ++ respMetrics opts c result.1
    replies := t.replies ++ [result.1.writeToResp] }

/-- A command of a line is logged whatever came of it. -/
def Transcript.command (t : Transcript σ) (c : ParsedCommand) : Transcript σ :=
  let result := d.dispatchToBuffer (env t.dispatched.length) t.engine false c.toOwned
  { engine := result.2
    dispatched := t.dispatched ++ [c.toOwned]
    appended := t.appended ++ (aofEntry opts c.isWrite c.toAofEntry).toList
    recorded := t.recorded ++ inlineMetrics opts c.commandType
    replies := t.replies ++ [result.1] }

/-- An error is all that comes of a line that is no command. -/
def Transcript.refused (t : Transcript σ) (reply : Response) : Transcript σ :=
  { t with replies := t.replies ++ [reply.writeTo] }

def Transcript.line (t : Transcript σ) (l : Line) : Transcript σ :=
  if l.blank then t
  else
    match parseLineBorrowed (trim l.text) with
    | .ok c => t.command d env opts c
    | .error (.unknownCommand _) => t.refused unknownReply
    | .error _ => t.refused syntaxReply

def Transcript.item (t : Transcript σ) : Item → Transcript σ
  | .request r => t.request d env opts r.command
  | .line l => t.line d env opts l

/-- What is owed for the items, one after the other. -/
def transcript (engine : σ) (items : List Item) : Transcript σ :=
  items.foldl (Transcript.item d env opts) (.start engine)

/-! ## One item -/

/-- The session has done what the transcript says, and nothing else. -/
structure Keeps (t : Transcript σ) (s : Session σ) : Prop where
  engine : s.engine = t.engine
  dispatched : s.dispatched = t.dispatched
  appended : s.appended = t.appended
  recorded : s.recorded = t.recorded
  replies : s.sent ++ s.writeBuf = t.replies.flatten

theorem Keeps.request {t : Transcript σ} {s : Session σ} (keeps : Keeps t s) (rest : Bytes) (c : Command) :
    Keeps (t.request d env opts c) (executeResp d env opts { s with readBuf := rest } c) := by
  obtain ⟨engine, dispatched, appended, recorded, replies⟩ := keeps
  refine ⟨?_, ?_, ?_, ?_, ?_⟩
  all_goals simp only [executeResp, Transcript.request, engine, dispatched, appended, recorded]
  rw [List.flatten_concat, ← replies, List.append_assoc]

theorem Keeps.command {t : Transcript σ} {s : Session σ} (keeps : Keeps t s) (rest : Bytes) (c : ParsedCommand) :
    Keeps (t.command d env opts c) (executeInline d env opts { s with readBuf := rest } c) := by
  obtain ⟨engine, dispatched, appended, recorded, replies⟩ := keeps
  refine ⟨?_, ?_, ?_, ?_, ?_⟩
  all_goals simp only [executeInline, Transcript.command, engine, dispatched, appended, recorded]
  rw [List.flatten_concat, ← replies, List.append_assoc]

theorem Keeps.refused {t : Transcript σ} {s : Session σ} (keeps : Keeps t s) (reply : Response) :
    Keeps (t.refused reply) (refuse s (reply.writeTo)) := by
  obtain ⟨engine, dispatched, appended, recorded, replies⟩ := keeps
  refine ⟨engine, dispatched, appended, recorded, ?_⟩
  show s.sent ++ (s.writeBuf ++ reply.writeTo) = (t.replies ++ [reply.writeTo]).flatten
  rw [List.flatten_concat, ← replies, List.append_assoc]

variable {d env opts} {t : Transcript σ} {s : Session σ}

theorem Line.notLf (l : Line) : (10 : UInt8) ∉ l.text := fun inside => (l.plain 10 inside).2 rfl

/-- What has arrived of a line does not look like an array either. -/
theorem Line.head_ne (l : Line) {seen : Bytes} (more : Bytes) (before : seen <+: l.encode ++ more) :
    seen.head? ≠ some 42 := by
  intro star
  obtain ⟨behind, whole⟩ := before
  cases seen with
  | nil => cases star
  | cons b seen =>
      cases star
      cases text : l.text with
      | nil =>
          rw [Line.encode, text] at whole
          cases whole
      | cons c text' =>
          apply l.inline
          rw [Line.encode, text] at whole
          rw [text, List.head?_cons, ← (List.cons.inj whole).1]

/-- It does not start with an LF. -/
theorem Line.head_ne_lf (l : Line) {seen : Bytes} (more : Bytes) (before : seen <+: l.encode ++ more) :
    seen ≠ [10] := by
  rintro rfl
  cases text : l.text with
  | nil =>
      rw [Line.encode, text] at before
      cases (List.cons_prefix_cons.1 before).1
  | cons b text' =>
      rw [Line.encode, text] at before
      apply l.notLf
      rw [text, (List.cons_prefix_cons.1 before).1]
      exact List.mem_cons_self

/-- Nor does it hold one, as long as the line is not whole. -/
theorem Line.unended (l : Line) {seen : Bytes} (before : seen <+: l.encode) (strict : seen ≠ l.encode) :
    (10 : UInt8) ∉ seen := by
  have shape : l.encode = l.text ++ [13] ++ [10] := by
    rw [Line.encode, List.append_assoc]
    rfl
  rw [shape] at before strict
  rcases List.prefix_concat_iff.1 before with whole | inside
  · exact absurd whole strict
  · intro lf
    rcases List.mem_append.1 (inside.subset lf) with inText | inCr
    · exact l.notLf inText
    · cases List.mem_singleton.1 inCr

/-- The front line of the buffer is dealt with in one round. -/
theorem inlineRound_line (keeps : Keeps t s) (l : Line) (rest : Bytes) (front : s.readBuf = l.encode ++ rest) :
    ∃ s', inlineRound d env opts s = .again s' ∧ s'.readBuf = rest ∧ s'.status = s.status ∧
      Keeps (t.line d env opts l) s' := by
  have size : l.text.length + 2 = l.encode.length := by
    rw [Line.encode, List.length_append]
    rfl
  have taken : advance (l.encode ++ rest) l.encode.length = some rest := by
    rw [advance, if_pos (by simp), List.drop_left]
  have skipped : skipToNewline s.readBuf = rest := by
    rw [front]
    exact skipToNewline_line l.notLf
  have parsed : parseInlineBorrowed s.readBuf = lineVerdict l.encode.length (trim l.text) := by
    rw [front, ← size]
    exact parseInlineBorrowed_crlf l.plain rest
  rw [inlineRound, parsed, lineVerdict]
  unfold Transcript.line
  by_cases blank : l.blank = true
  · rw [if_pos blank, if_pos (show (trim l.text).isEmpty = true from blank), round]
    simp only [front, taken]
    exact ⟨_, rfl, rfl, rfl, ⟨keeps.engine, keeps.dispatched, keeps.appended, keeps.recorded, keeps.replies⟩⟩
  · rw [if_neg blank, if_neg (show ¬ (trim l.text).isEmpty = true from blank)]
    cases verdict : parseLineBorrowed (trim l.text) with
    | ok c =>
        simp only [round, front, taken]
        exact ⟨_, rfl, rfl, rfl, keeps.command d env opts rest c⟩
    | error e =>
        cases e with
        | unknownCommand msg => exact ⟨_, rfl, skipped, rfl, keeps.refused unknownReply⟩
        | syntaxError msg => exact ⟨_, rfl, skipped, rfl, keeps.refused syntaxReply⟩
        | emptyCommand => exact absurd rfl (parseLineBorrowed_error (Bool.eq_false_iff.2 blank) verdict)

theorem anyStep_item (keeps : Keeps t s) (i : Item) (rest : Bytes) (front : s.readBuf = i.encode ++ rest) :
    ∃ s', anyStep d env opts s = some s' ∧ s'.readBuf = rest ∧ s'.status = s.status ∧
      Keeps (t.item d env opts i) s' := by
  cases i with
  | request r =>
      have star : s.readBuf.head? = some 42 := by
        obtain ⟨behind, head⟩ := r.encode_head
        rw [front, Item.encode, head]
        rfl
      refine ⟨executeResp d env opts { s with readBuf := rest } r.command, ?_, rfl, rfl,
        keeps.request d env opts rest r.command⟩
      rw [anyStep, anyRound, if_pos star, respRound_request d env opts s r rest front]
      rfl
  | line l =>
      have other : s.readBuf.head? ≠ some 42 := by
        rw [front]
        exact l.head_ne rest List.prefix_rfl
      obtain ⟨s', again, left, status, kept⟩ := inlineRound_line keeps l rest front
      refine ⟨s', ?_, left, status, kept⟩
      rw [anyStep, anyRound, if_neg other, again]
      rfl

/-- A part of an item has to wait for the rest. -/
theorem anyStep_waits {todo : List Item} (waiting : Waiting Item.encode s.readBuf todo) :
    anyStep d env opts s = none := by
  cases todo with
  | nil =>
      have empty : s.readBuf = [] := waiting
      rw [anyStep, anyRound, if_neg (by simp [empty]), inlineRound, empty]
      rfl
  | cons i todo =>
      obtain ⟨before, strict⟩ := waiting
      have stops : anyRound d env opts s = .stop := by
        cases i with
        | request r =>
            have torn : tryParseFrame s.readBuf = .ok .incomplete := tryParseFrame_torn r before strict
            by_cases star : s.readBuf.head? = some 42
            · rw [anyRound, if_pos star, respRound, torn]
              rfl
            · have empty : s.readBuf = [] := by
                obtain ⟨behind, head⟩ := r.encode_head
                by_contra filled
                obtain ⟨b, seen, shape⟩ := List.exists_cons_of_ne_nil filled
                rw [shape, Item.encode, head, List.cons_prefix_cons] at before
                exact star (by rw [shape, before.1]; rfl)
              rw [anyRound, if_neg star, inlineRound, empty]
              rfl
        | line l =>
            have other : s.readBuf.head? ≠ some 42 := l.head_ne [] (by rw [List.append_nil]; exact before)
            have unended : (10 : UInt8) ∉ s.readBuf := l.unended before strict
            rw [anyRound, if_neg other, inlineRound, parseInlineBorrowed_eq, lineStop_no_lf unended]
            rfl
      rw [anyStep, stops]
      rfl

/-! ## All items -/

/-- What has arrived is dealt with, whatever part of an item comes last. -/
theorem settle_items (keeps : Keeps t s) (arrived todo : List Item) (tail : Bytes)
    (front : s.readBuf = arrived.flatMap Item.encode ++ tail) (waiting : Waiting Item.encode tail todo) :
    (settle (anyStep d env opts) pending s).readBuf = tail ∧
      (settle (anyStep d env opts) pending s).status = s.status ∧
      Keeps (arrived.foldl (Transcript.item d env opts) t) (settle (anyStep d env opts) pending s) := by
  induction arrived generalizing s t with
  | nil =>
      have whole : s.readBuf = tail := front
      have waits : anyStep d env opts s = none := anyStep_waits (by rwa [whole])
      rw [settle, rounds_wait waits]
      exact ⟨whole, rfl, keeps⟩
  | cons i arrived ih =>
      rw [List.flatMap_cons, List.append_assoc] at front
      obtain ⟨s', taken, left, status, kept⟩ := anyStep_item keeps i _ front
      rw [settle_step (anyStep_incremental d env opts).shrinks taken, ← status]
      exact ih kept left

theorem transcript_replies (t : Transcript σ) (items : List Item) :
    (items.foldl (Transcript.item d env opts) t).replies.length =
      t.replies.length + items.countP fun i => !i.blank := by
  induction items generalizing t with
  | nil => rfl
  | cons i items ih =>
      have one : (t.item d env opts i).replies.length = t.replies.length + if i.blank then 0 else 1 := by
        cases i with
        | request r => exact List.length_append
        | line l =>
            show (t.line d env opts l).replies.length = t.replies.length + if l.blank then 0 else 1
            unfold Transcript.line
            split
            · rfl
            · split <;> exact List.length_append
      rw [List.foldl_cons, ih, one, List.countP_cons]
      cases i.blank
      · exact (Nat.add_assoc _ _ _).trans (congrArg _ (Nat.add_comm _ _))
      · rfl

end Items

section Connection

variable {σ τ : Type} (d : Dispatchers σ τ) (env : Nat → τ) (opts : Options)

/-- The session has served all items: it is where the transcript says, has sent the
replies, one for each item that is not blank, and waits for more. -/
structure Served (engine : σ) (items : List Item) (s : Session σ) : Prop where
  keeps : Keeps (transcript d env opts engine items) s
  running : s.status = .running
  sent : s.sent = (transcript d env opts engine items).replies.flatten
  replies : (transcript d env opts engine items).replies.length = items.countP fun i => !i.blank
  readBuf : s.readBuf = []
  writeBuf : s.writeBuf = []

theorem caughtUp_start (engine : σ) : CaughtUp d env opts (.start engine) [] (.start engine) := by
  refine ⟨rfl, rfl, ?_⟩
  have waits : anyStep d env opts (receive (.start engine) []) = none := rfl
  rw [settle, rounds_wait waits]
  rfl

/-- Whether the replies are out makes no difference to the record. -/
theorem keeps_flushed {t : Transcript σ} {s u : Session σ} (same : flushed s = flushed u) (keeps : Keeps t u) :
    Keeps t s := by
  refine ⟨?_, ?_, ?_, ?_, ?_⟩
  · rw [← keeps.engine]
    exact (congrArg Session.engine same :)
  · rw [← keeps.dispatched]
    exact (congrArg Session.dispatched same :)
  · rw [← keeps.appended]
    exact (congrArg Session.appended same :)
  · rw [← keeps.recorded]
    exact (congrArg Session.recorded same :)
  · rw [← keeps.replies]
    exact (congrArg Session.sent same :)

variable {d env opts}

/-- A session that has caught up holds the part of the item that has arrived last. -/
theorem caughtUp_items {engine : σ} {s : Session σ} {received : Bytes} {arrived todo : List Item} {tail : Bytes}
    (caughtUp : CaughtUp d env opts (.start engine) received s)
    (front : received = arrived.flatMap Item.encode ++ tail) (waiting : Waiting Item.encode tail todo) :
    s.readBuf = tail ∧ Keeps (transcript d env opts engine arrived) s := by
  have start : Keeps (.start engine) (receive (Session.start engine) received) := ⟨rfl, rfl, rfl, rfl, rfl⟩
  obtain ⟨left, -, keeps⟩ := settle_items start arrived todo tail front waiting
  refine ⟨?_, keeps_flushed caughtUp.settled keeps⟩
  rw [← left]
  exact (congrArg Session.readBuf caughtUp.settled :)

theorem caughtUp_serves {engine : σ} {s : Session σ} {items : List Item}
    (caughtUp : CaughtUp d env opts (.start engine) (items.flatMap Item.encode) s) :
    Served d env opts engine items s := by
  obtain ⟨left, keeps⟩ := caughtUp_items caughtUp (List.append_nil _).symm (show Waiting Item.encode [] [] from rfl)
  refine ⟨keeps, caughtUp.running, ?_, ?_, left, caughtUp.empty⟩
  · rw [← keeps.replies, caughtUp.empty, List.append_nil]
  · rw [transcript, transcript_replies]
    exact Nat.zero_add _

variable (d env opts)

/-- Arrays and lines on one connection are answered in order. -/
theorem items_answered (engine : σ) (items : List Item) (reads : List Bytes)
    (cut : reads.flatten = items.flatMap Item.encode) (delivered : ∀ chunk ∈ reads, chunk ≠ [])
    (good : Along (turn d env opts) (GoodTurn d env opts) (.start engine) (reads.map Turn.delivers)) :
    ∃ s, handleSessionFull d env opts (.start engine) (reads.map Turn.delivers) = some s ∧
      Served d env opts engine items s := by
  have start := caughtUp_start d env opts engine
  obtain ⟨s, reached, caughtUp⟩ := reads_caughtUp d env opts reads start delivered good
  rw [List.nil_append, cut] at caughtUp
  exact ⟨s, reached, caughtUp_serves caughtUp⟩

/-! ## Lines only -/

theorem remainder_encode (l : Line) (rest : Bytes) : remainder false (l.encode ++ rest) = some rest := by
  have size : l.text.length + 2 = l.encode.length := by
    rw [Line.encode, List.length_append]
    rfl
  have parsed : parseInlineBorrowed (l.encode ++ rest) = lineVerdict l.encode.length (trim l.text) := by
    rw [← size]
    exact parseInlineBorrowed_crlf l.plain rest
  have taken : (l.encode ++ rest).drop l.encode.length = rest := List.drop_left
  rw [remainder, if_neg (by decide), parsed, lineVerdict]
  split
  · exact congrArg some taken
  · rename_i filled
    split
    · exact congrArg some taken
    · rename_i e refused
      have answered := parseLineBorrowed_error (Bool.eq_false_iff.2 filled) refused
      cases e with
      | emptyCommand => exact absurd rfl answered
      | _ => exact congrArg some (skipToNewline_line l.notLf)

/-- What has arrived of a line is left where it is. -/
theorem remainder_unended {seen : Bytes} (unended : (10 : UInt8) ∉ seen) : remainder false seen = none := by
  rw [remainder, if_neg (by decide), parseInlineBorrowed_eq, lineStop_no_lf unended]
  rfl

/-- A buffer that starts with a line starts with the inline protocol. -/
theorem oneProtocol_line (l : Line) {b : Bytes} (more : Bytes) (before : b <+: l.encode ++ more) {fuel : Nat}
    (later : ∀ rest, remainder false b = some rest → oneProtocol false fuel rest = true) :
    oneProtocol false (fuel + 1) b = true := by
  have inline : (b.head? == some 42) = false := beq_false_of_ne (l.head_ne more before)
  have lone : (b != [10]) = true := bne_iff_ne.2 (l.head_ne_lf more before)
  rw [oneProtocol, inline, lone]
  cases left : remainder false b with
  | none => exact Bool.or_true _
  | some rest =>
      simp only [later rest left]
      exact Bool.or_true _

/-- A buffer of lines holds one protocol. -/
theorem lines_oneProtocol (arrived todo : List Line) (tail : Bytes) (waiting : Waiting Line.encode tail todo)
    (fuel : Nat) : oneProtocol false fuel (arrived.flatMap Line.encode ++ tail) = true := by
  induction fuel generalizing arrived with
  | zero => rfl
  | succ fuel ih =>
      cases arrived with
      | nil =>
          cases todo with
          | nil =>
              have empty : tail = [] := waiting
              rw [empty]
              rfl
          | cons l todo =>
              obtain ⟨before, strict⟩ := waiting
              apply oneProtocol_line l [] (by rw [List.append_nil]; exact before)
              intro rest left
              cases (remainder_unended (l.unended before strict)).symm.trans left
      | cons l arrived =>
          rw [List.flatMap_cons, List.append_assoc]
          apply oneProtocol_line l _ List.prefix_rfl
          intro rest left
          rw [remainder_encode] at left
          cases left
          exact ih arrived

theorem oneProtocol_of_lines (lines : List Line) {b : Bytes} (before : b <+: lines.flatMap Line.encode) :
    OneProtocol b := by
  have inline : (b.head? == some 42) = false := by
    cases lines with
    | nil =>
        rw [List.prefix_nil.1 before]
        rfl
    | cons l lines =>
        rw [List.flatMap_cons] at before
        exact beq_false_of_ne (l.head_ne _ before)
  obtain ⟨arrived, todo, tail, rfl, rfl, waiting⟩ := cut_messages Line.encode lines b before
  rw [OneProtocol, inline]
  exact lines_oneProtocol arrived todo tail waiting _

theorem encode_lines (lines : List Line) : (lines.map Item.line).flatMap Item.encode = lines.flatMap Line.encode :=
  List.flatMap_map _ _ _

theorem waiting_lines {tail : Bytes} {todo : List Line} (waiting : Waiting Line.encode tail todo) :
    Waiting Item.encode tail (todo.map Item.line) := by
  cases todo with
  | nil => exact waiting
  | cons l todo => exact waiting

/-- So nothing is asked of how lines are cut. -/
theorem goodTurns_lines {engine : σ} (lines : List Line) (reads : List Bytes) {s : Session σ} {received : Bytes}
    (caughtUp : CaughtUp d env opts (.start engine) received s)
    (cut : received ++ reads.flatten = lines.flatMap Line.encode) (delivered : ∀ chunk ∈ reads, chunk ≠ [])
    (limits : Along (turn d env opts) (WithinLimits d env opts) s (reads.map Turn.delivers)) :
    Along (turn d env opts) (GoodTurn d env opts) s (reads.map Turn.delivers) := by
  induction reads generalizing s received with
  | nil => trivial
  | cons chunk reads ih =>
      have before : received <+: lines.flatMap Line.encode := ⟨_, cut⟩
      obtain ⟨arrived, todo, tail, rfl, front, waiting⟩ := cut_messages Line.encode lines received before
      -- the session keeps the part of the line that has arrived
      have left : s.readBuf = tail :=
        (caughtUp_items caughtUp (by rw [encode_lines]; exact front) (waiting_lines waiting)).1
      have one : OneProtocol (s.readBuf ++ chunk) := by
        apply oneProtocol_of_lines todo
        rw [front, List.flatMap_append, List.append_assoc, List.flatten_cons, ← List.append_assoc tail] at cut
        rw [left]
        exact ⟨_, List.append_cancel_left cut⟩
      have good : GoodTurn d env opts s (.delivers chunk) := ⟨limits.1, one⟩
      obtain ⟨t, taken, caughtUp'⟩ := turn_caughtUp d env opts caughtUp (delivered chunk List.mem_cons_self) good
      refine .cons taken good (ih caughtUp' ?_ (fun c inside => delivered c (List.mem_cons_of_mem _ inside))
        (limits.2 t taken))
      rw [List.append_assoc, ← List.flatten_cons]
      exact cut

/-- A client that sends lines, good ones and bad ones, gets one reply to each of them
that is not blank, in their order. -/
theorem lines_answered (engine : σ) (lines : List Line) (reads : List Bytes)
    (cut : reads.flatten = lines.flatMap Line.encode) (delivered : ∀ chunk ∈ reads, chunk ≠ [])
    (limits : Along (turn d env opts) (WithinLimits d env opts) (.start engine) (reads.map Turn.delivers)) :
    ∃ s, handleSessionFull d env opts (.start engine) (reads.map Turn.delivers) = some s ∧
      Served d env opts engine (lines.map Item.line) s := by
  have start := caughtUp_start d env opts engine
  have good := goodTurns_lines d env opts lines reads start cut delivered limits
  obtain ⟨s, reached, caughtUp⟩ := reads_caughtUp d env opts reads start delivered good
  rw [List.nil_append, cut, ← encode_lines] at caughtUp
  exact ⟨s, reached, caughtUp_serves caughtUp⟩

end Connection

/-- A SET as an array, a GET of it, a line of blanks and a verb there is none of. -/
def mixedItems : List Item :=
  [.request ⟨.set (ascii "k") (ascii "v") none, ascii "SET", [ascii "k", ascii "v"], by decide, .set _ _,
      by decide⟩,
    .line ⟨ascii "GET k", by decide +kernel, by decide⟩, .line ⟨ascii "  ", by decide +kernel, by decide⟩,
    .line ⟨ascii "LOOK", by decide +kernel, by decide⟩]

/-- The array in two pieces, then the lines, cut in the middle of one. -/
def itemReads : List Bytes :=
  let stream := mixedItems.flatMap Item.encode
  [stream.take 9, (stream.drop 9).take 18, (stream.drop 27).take 14, stream.drop 41]

theorem items_answered_mixed :
    ∃ s, handleSessionFull dispatchers (fun k => ⟨Iter.some, .new, k⟩) ⟨true, true⟩ (.start .new)
        (itemReads.map Turn.delivers) = some s ∧
      Served dispatchers (fun k => ⟨Iter.some, .new, k⟩) ⟨true, true⟩ .new mixedItems s :=
  items_answered dispatchers _ _ _ mixedItems itemReads (by decide +kernel) (by decide +kernel) (by decide +kernel)

/-- A good line, two bad ones and a blank one. -/
def someLines : List Line :=
  [⟨ascii "INCR n", by decide +kernel, by decide⟩, ⟨ascii "LOOK", by decide +kernel, by decide⟩,
    ⟨[], by decide +kernel, by decide⟩, ⟨ascii "GET", by decide +kernel, by decide⟩]

theorem lines_answered_some :
    ∃ s, handleSessionFull dispatchers (fun k => ⟨Iter.some, .new, k⟩) ⟨true, true⟩ (.start .new)
        ([ascii "INCR n\r\nLO", ascii "OK\r", ascii "\n\r\nGET\r\n"].map Turn.delivers) = some s ∧
      Served dispatchers (fun k => ⟨Iter.some, .new, k⟩) ⟨true, true⟩ .new (someLines.map Item.line) s :=
  lines_answered dispatchers _ _ _ someLines _ (by decide +kernel) (by decide +kernel) (by decide +kernel)

end ZetDb.Server
