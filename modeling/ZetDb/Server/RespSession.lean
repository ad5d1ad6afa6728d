/-
# Server.RespSession -- pipelined and rejected requests on a RESP connection

A client may send any number of requests without waiting, and the network may
cut the bytes anywhere.  `pipelined_requests_answered`: as long as the buffers
stay within their limits the session dispatches the requests in order, sends
their replies in order and is left with an empty buffer, whatever the cut.  One
turn executes the requests that have arrived whole and keeps the received part
of the next one (`turn_requests`); the induction over the reads carries that the
buffer holds a strict prefix of the next frame (`Waiting`).

A request that is refused is not skipped: `skip_to_newline` only drops the array
header, so the rest of the frame is read as further requests, and the first of
its lines is answered by an error of its own (`rejected_frame_answered_again`).
-/
import ZetDb.Protocol.Frames
import ZetDb.Server.Session

namespace ZetDb.Server

set_option autoImplicit false

open ZetDb.Theory.Wire ZetDb.Theory.Text ZetDb.Theory.Stream ZetDb.Domain ZetDb.Storage
  ZetDb.Protocol
open ZetDb.Theory.Runs (Along)

section Pipelining

variable {σ τ : Type} (d : Dispatchers σ τ) (env : Nat → τ) (opts : Options)

/-- The replies to a list of commands, from the `k`-th of the session on, and the
engine they leave. -/
def answers : Nat → σ → List Command → List Response × σ
  | _, engine, [] => ([], engine)
  | k, engine, c :: cs =>
      let result := d.dispatch (env k) engine c
      let rest := answers (k + 1) result.2 cs
      (result.1 :: rest.1, rest.2)

theorem answers_append (k : Nat) (engine : σ) (cs ds : List Command) :
    answers d env k engine (cs ++ ds) =
      ((answers d env k engine cs).1 ++
          (answers d env (k + cs.length) (answers d env k engine cs).2 ds).1,
        (answers d env (k + cs.length) (answers d env k engine cs).2 ds).2) := by
  induction cs generalizing k engine with
  | nil => rfl
  | cons c cs ih =>
      simp only [List.cons_append, answers, ih, List.length_cons]
      rw [Nat.add_right_comm k 1 cs.length, Nat.add_assoc]

/-! ## One pass over the buffer -/

/-- The state after the commands, with the buffer that is left. -/
def afterCommands (s : Session σ) (cs : List Command) (rest : Bytes) : Session σ :=
  cs.foldl (executeResp d env opts) { s with readBuf := rest }

theorem afterCommands_cons (s : Session σ) (c : Command) (cs : List Command) (rest : Bytes) :
    afterCommands d env opts s (c :: cs) rest =
      afterCommands d env opts (executeResp d env opts s c) cs rest := rfl

/-- What executing does to each part of the state. -/
theorem afterCommands_spec (s : Session σ) (cs : List Command) (rest : Bytes) :
    (afterCommands d env opts s cs rest).readBuf = rest ∧
    (afterCommands d env opts s cs rest).writeBuf =
      s.writeBuf ++ (answers d env s.dispatched.length s.engine cs).1.flatMap Response.writeToResp ∧
    (afterCommands d env opts s cs rest).engine = (answers d env s.dispatched.length s.engine cs).2 ∧
    (afterCommands d env opts s cs rest).dispatched = s.dispatched ++ cs ∧
    (afterCommands d env opts s cs rest).sent = s.sent ∧
    (afterCommands d env opts s cs rest).status = s.status := by
  induction cs generalizing s with
  | nil => simp [afterCommands, answers]
  | cons c cs ih =>
      rw [afterCommands_cons]
      obtain ⟨left, written, engine, dispatched, sent, status⟩ := ih (executeResp d env opts s c)
      refine ⟨left, ?_, ?_, ?_, sent, status⟩
      · rw [written]
        simp [executeResp, answers]
      · rw [engine]
        simp [executeResp, answers]
      · rw [dispatched]
        simp [executeResp]

theorem respRound_request (s : Session σ) (r : Request) (rest : Bytes)
    (front : s.readBuf = r.encode ++ rest) :
    respRound d env opts s = .again (executeResp d env opts { s with readBuf := rest } r.command) := by
  have skipped : advance (r.encode ++ rest) r.encode.length = some rest := by
    rw [advance, if_pos (by simp), List.drop_left]
  rw [respRound, front, tryParseFrame_request, round]
  simp only [front, skipped]

theorem respRound_waiting (s : Session σ) (todo : List Request)
    (waiting : Waiting Request.encode s.readBuf todo) : respRound d env opts s = .stop := by
  have more : tryParseFrame s.readBuf = .ok .incomplete := by
    cases todo with
    | nil =>
        rw [show s.readBuf = [] from waiting]
        rfl
    | cons r todo => exact tryParseFrame_torn r waiting.1 waiting.2
  rw [respRound, more]
  rfl

/-- The loop executes the requests that are there and keeps the part of the next. -/
theorem loop_requests (s : Session σ) (arrived todo : List Request) (tail : Bytes) (fuel : Nat)
    (front : s.readBuf = arrived.flatMap Request.encode ++ tail)
    (waiting : Waiting Request.encode tail todo) (enough : arrived.length < fuel) :
    loop (respRound d env opts) fuel s = afterCommands d env opts s (arrived.map (·.command)) tail := by
  induction arrived generalizing s fuel with
  | nil =>
      obtain ⟨fuel, rfl⟩ : ∃ n, fuel = n + 1 := ⟨fuel - 1, by omega⟩
      have whole : s.readBuf = tail := front
      have stopped : respRound d env opts s = .stop :=
        respRound_waiting d env opts s todo (by rwa [whole])
      rw [loop, stopped]
      show s = { s with readBuf := tail }
      rw [← whole]
  | cons r arrived ih =>
      obtain ⟨fuel, rfl⟩ : ∃ n, fuel = n + 1 := ⟨fuel - 1, by omega⟩
      rw [List.flatMap_cons, List.append_assoc] at front
      rw [loop, respRound_request d env opts s r _ front]
      exact ih (executeResp d env opts { s with readBuf := _ } r.command) fuel rfl
        (by simpa using enough)

/-! ## One turn -/

/-- The session has answered the commands and has sent all it wrote. -/
structure Answered (s : Session σ) (cs : List Command) (t : Session σ) : Prop where
  running : t.status = .running
  flushed : t.writeBuf = []
  dispatched : t.dispatched = s.dispatched ++ cs
  sent : t.sent = s.sent ++
    (answers d env s.dispatched.length s.engine cs).1.flatMap Response.writeToResp
  engine : t.engine = (answers d env s.dispatched.length s.engine cs).2

theorem Answered.refl {s : Session σ} (running : s.status = .running) (flushed : s.writeBuf = []) :
    Answered d env s [] s :=
  ⟨running, flushed, by simp, by simp [answers], rfl⟩

variable {d env} in
theorem Answered.trans {s t u : Session σ} {cs ds : List Command} (first : Answered d env s cs t)
    (second : Answered d env t ds u) : Answered d env s (cs ++ ds) u := by
  have count : t.dispatched.length = s.dispatched.length + cs.length := by
    rw [first.dispatched, List.length_append]
  refine ⟨second.running, second.flushed, ?_, ?_, ?_⟩
  · rw [second.dispatched, first.dispatched, List.append_assoc]
  · rw [second.sent, first.sent, count, first.engine, answers_append]
    simp only [List.flatMap_append, List.append_assoc]
  · rw [second.engine, count, first.engine, answers_append]

/-- Whatever has been received of a stream of frames starts with a star. -/
theorem received_head {received : Bytes} {requests : List Request} (arrives : received ≠ [])
    (before : received <+: requests.flatMap Request.encode) : received.head? = some 42 := by
  cases requests with
  | nil => exact absurd (List.prefix_nil.1 before) arrives
  | cons r requests =>
      obtain ⟨rest, head⟩ := r.encode_head
      rw [List.flatMap_cons, head] at before
      cases received with
      | nil => exact absurd rfl arrives
      | cons b received => rw [(List.cons_prefix_cons.1 before).1, List.head?_cons]

theorem requests_length_le (requests : List Request) :
    requests.length ≤ (requests.flatMap Request.encode).length := by
  induction requests with
  | nil => exact Nat.le_refl 0
  | cons r requests ih =>
      obtain ⟨rest, head⟩ := r.encode_head
      rw [List.flatMap_cons, head, List.length_append, List.length_cons, List.length_cons]
      omega

theorem process_requests (s : Session σ) (arrived todo : List Request) (tail : Bytes)
    (front : s.readBuf = arrived.flatMap Request.encode ++ tail)
    (waiting : Waiting Request.encode tail todo) (star : s.readBuf.head? = some 42) :
    process d env opts s = afterCommands d env opts s (arrived.map (·.command)) tail := by
  have enough : arrived.length < s.readBuf.length + 1 := by
    have := requests_length_le arrived
    rw [front, List.length_append]
    omega
  rw [process, if_pos star]
  exact loop_requests d env opts s arrived todo tail _ front waiting enough

/-- A turn answers the requests that are whole and keeps the part of the next. -/
theorem turn_requests (s : Session σ) (chunk : Bytes) (arrived todo : List Request) (tail : Bytes)
    (running : s.status = .running) (flushed : s.writeBuf = []) (delivered : chunk ≠ [])
    (front : s.readBuf ++ chunk = arrived.flatMap Request.encode ++ tail)
    (waiting : Waiting Request.encode tail todo) (star : (s.readBuf ++ chunk).head? = some 42)
    (limits : WithinLimits d env opts s (.delivers chunk)) :
    ∃ t, turn d env opts s (.delivers chunk) = some t ∧ t.readBuf = tail ∧
      Answered d env s (arrived.map (·.command)) t := by
  have processed := process_requests d env opts { s with readBuf := s.readBuf ++ chunk } arrived todo
    tail front waiting star
  obtain ⟨left, written, engine, dispatched, sent, status⟩ :=
    afterCommands_spec d env opts { s with readBuf := s.readBuf ++ chunk } (arrived.map (·.command)) tail
  obtain ⟨small, smallReplies⟩ := limits
  simp only [Turn.delivers, Option.getD_some] at small smallReplies
  rw [processed] at smallReplies
  generalize afterCommands d env opts { s with readBuf := s.readBuf ++ chunk } (arrived.map (·.command))
    tail = after at processed left written engine dispatched sent status smallReplies
  refine ⟨{ after with sent := after.sent ++ after.writeBuf, writeBuf := [] }, ?_, left, ?_⟩
  · have alive : after.status ≠ .panicked := by
      rw [status, running]
      decide
    rw [turn_delivers d env opts running delivered small, processed, if_neg alive,
      flushReplies_ok after smallReplies]
  · exact ⟨status.trans running, rfl, dispatched, by simp [written, sent, flushed], engine⟩

/-! ## The whole connection -/

/-- The reads one after the other, from a session that waits for the first request. -/
theorem requests_answered (s : Session σ) (requests : List Request) (reads : List Bytes)
    (running : s.status = .running) (flushed : s.writeBuf = [])
    (waiting : Waiting Request.encode s.readBuf requests)
    (cut : s.readBuf ++ reads.flatten = requests.flatMap Request.encode)
    (delivered : ∀ chunk ∈ reads, chunk ≠ [])
    (limits : Along (turn d env opts) (WithinLimits d env opts) s (reads.map Turn.delivers)) :
    ∃ t, handleSessionFull d env opts s (reads.map Turn.delivers) = some t ∧ t.readBuf = [] ∧
      Answered d env s (requests.map (·.command)) t := by
  induction reads generalizing s requests with
  | nil =>
      rw [List.flatten_nil, List.append_nil] at cut
      have none : requests = [] := waiting.eq_nil Request.encode cut
      subst none
      exact ⟨s, rfl, cut, Answered.refl d env running flushed⟩
  | cons chunk reads ih =>
      have arrives : chunk ≠ [] := delivered chunk (by simp)
      -- the buffer after the read is a prefix of what is still to be answered
      have before : s.readBuf ++ chunk <+: requests.flatMap Request.encode := by
        rw [← cut, List.flatten_cons, ← List.append_assoc]
        exact List.prefix_append _ _
      obtain ⟨arrived, todo, tail, rfl, front, wait⟩ :=
        cut_messages Request.encode requests _ before
      have star := received_head (by simp [arrives]) before
      obtain ⟨t, taken, left, first⟩ := turn_requests d env opts s chunk arrived todo tail running
        flushed arrives front wait star limits.1
      have rest : t.readBuf ++ reads.flatten = todo.flatMap Request.encode := by
        rw [List.flatten_cons, ← List.append_assoc, front, List.flatMap_append, List.append_assoc] at cut
        rw [left]
        exact List.append_cancel_left cut
      obtain ⟨u, reached, empty, second⟩ := ih t todo first.running first.flushed (by rwa [left]) rest
        (fun c member => delivered c (by simp [member])) (limits.2 t taken)
      refine ⟨u, ?_, empty, ?_⟩
      · show Theory.Runs.run (turn d env opts) s (.delivers chunk :: reads.map Turn.delivers) = some u
        rw [Theory.Runs.run_cons, taken]
        exact reached
      · rw [List.map_append]
        exact first.trans second

/-- A fresh session answers a pipeline of requests, however the network cuts it. -/
theorem pipelined_requests_answered (engine : σ) (requests : List Request) (reads : List Bytes)
    (cut : reads.flatten = requests.flatMap Request.encode)
    (delivered : ∀ chunk ∈ reads, chunk ≠ [])
    (limits : Along (turn d env opts) (WithinLimits d env opts) (.start engine)
      (reads.map Turn.delivers)) :
    ∃ t, handleSessionFull d env opts (.start engine) (reads.map Turn.delivers) = some t ∧
      t.status = .running ∧
      t.dispatched = requests.map (·.command) ∧
      t.sent = (answers d env 0 engine (requests.map (·.command))).1.flatMap Response.writeToResp ∧
      t.engine = (answers d env 0 engine (requests.map (·.command))).2 ∧
      t.readBuf = [] ∧ t.writeBuf = [] := by
  have waiting : Waiting Request.encode (Session.start engine).readBuf requests := by
    cases requests with
    | nil => rfl
    | cons r requests =>
        obtain ⟨rest, head⟩ := r.encode_head
        refine ⟨List.nil_prefix, ?_⟩
        rw [head]
        exact (List.cons_ne_nil _ _).symm
  obtain ⟨t, reached, empty, answered⟩ :=
    requests_answered d env opts (.start engine) requests reads rfl rfl waiting cut delivered limits
  exact ⟨t, reached, answered.running, answered.dispatched, answered.sent, answered.engine, empty,
    answered.flushed⟩

end Pipelining

/-- `set` with a value that looks like the start of a frame, and a GET of it. -/
def starRequests : List Request :=
  [⟨.set (ascii "k") (ascii "*1\r\n") (some (Duration.fromSecs 9)), ascii "set",
      [ascii "k", ascii "*1\r\n", ascii "Ex", decimal 9], by decide,
      .setEx _ _ _ 9 (by decide) (by decide), by decide⟩,
    ⟨.get (ascii "k"), ascii "GET", [ascii "k"], by decide, .get _, by decide⟩]

/-- The two requests, cut inside the value and in front of the last byte. -/
def starReads : List Bytes :=
  let stream := starRequests.flatMap Request.encode
  [stream.take 27, (stream.drop 27).take 37, stream.drop 64]

theorem pipelined_requests_answered_star :
    ∃ t, handleSessionFull dispatchers (fun k => ⟨Iter.some, .new, k⟩) ⟨true, true⟩ (.start .new)
        (starReads.map Turn.delivers) = some t ∧
      t.dispatched = starRequests.map (·.command) ∧
      t.sent = ascii "+OK\r\n$4\r\n*1\r\n\r\n" ∧ t.readBuf = [] := by
  obtain ⟨t, reached, -, dispatched, sent, -, empty, -⟩ := pipelined_requests_answered dispatchers
    (fun k => ⟨Iter.some, .new, k⟩) ⟨true, true⟩ .new starRequests starReads (by decide +kernel)
    (by decide +kernel) (by decide +kernel)
  refine ⟨t, reached, dispatched, ?_, empty⟩
  rw [sent]
  decide +kernel

/-! ## Rejected requests -/

section Rejection

variable {σ τ : Type} (d : Dispatchers σ τ) (env : Nat → τ) (opts : Options)

/-- The state after `k` rounds of the RESP loop, if it goes on that long. -/
def respRounds : Nat → Session σ → Option (Session σ)
  | 0, s => some s
  | k + 1, s =>
      match respRound d env opts s with
      | .again t => respRounds k t
      | _ => none

/-- After some rounds exactly one error reply has been written, and the loop is
about to parse what follows the frame. -/
def AnsweredByOneError (s : Session σ) (following : Bytes) : Prop :=
  ∃ k t, respRounds d env opts k s = some t ∧ t.readBuf = following ∧
    ∃ reply, (reply = syntaxReply ∨ reply = unknownReply) ∧
      t.writeBuf = s.writeBuf ++ reply.writeToResp

/-- A round never takes back what was written. -/
theorem respRound_writes {s t : Session σ} (again : respRound d env opts s = .again t) :
    s.writeBuf <+: t.writeBuf := by
  unfold respRound round at again
  split at again
  · split at again <;> cases again
    exact List.prefix_append _ _
  · split at again <;> cases again
    exact List.prefix_rfl
  · cases again
  · cases again
    exact List.prefix_append _ _
  · cases again
    exact List.prefix_append _ _
  · cases again

theorem respRounds_writes {k : Nat} {s t : Session σ} (reached : respRounds d env opts k s = some t) :
    s.writeBuf <+: t.writeBuf := by
  induction k generalizing s with
  | zero =>
      cases reached
      exact List.prefix_rfl
  | succ k ih =>
      rw [respRounds] at reached
      split at reached
      · rename_i u again
        exact (respRound_writes d env opts again).trans (ih reached)
      · cases reached

theorem respRound_rejected {s : Session σ} {e : ParseError}
    (rejected : tryParseFrame s.readBuf = .error e) (replied : e ≠ .emptyCommand) :
    ∃ reply, (reply = syntaxReply ∨ reply = unknownReply) ∧
      respRound d env opts s = .again (refuse s reply.writeToResp) := by
  rw [respRound, rejected]
  cases e with
  | emptyCommand => exact absurd rfl replied
  | unknownCommand verb => exact ⟨unknownReply, Or.inr rfl, rfl⟩
  | syntaxError msg => exact ⟨syntaxReply, Or.inl rfl, rfl⟩

/-- Only the array header is skipped. -/
theorem skipToNewline_respFrame (args : List Bytes) (following : Bytes) :
    skipToNewline (respFrame args ++ following) = args.flatMap bulkString ++ following := by
  have split : respFrame args ++ following =
      lineInt 42 args.length ++ (args.flatMap bulkString ++ following) := by
    simp [respFrame, lineInt, ascii]
  have size : (decimal args.length).length + 2 + 1 = (lineInt 42 args.length).length := by
    simp [lineInt, crlf]
  rw [split, skipToNewline, memchr_lineInt (by decide)]
  simp only [size, List.drop_left]

/-- A refused frame is answered once, and then its first length line is answered too. -/
theorem respRound_rejected_twice {s : Session σ} {args : List Bytes} {following : Bytes}
    {e : ParseError} (filled : args ≠ []) (buffered : s.readBuf = respFrame args ++ following)
    (rejected : tryParseFrame s.readBuf = .error e) (replied : e ≠ .emptyCommand) :
    ∃ t u reply, (reply = syntaxReply ∨ reply = unknownReply) ∧
      respRound d env opts s = .again t ∧ t.readBuf = args.flatMap bulkString ++ following ∧
      t.writeBuf = s.writeBuf ++ reply.writeToResp ∧
      respRound d env opts t = .again u ∧ u.writeBuf = t.writeBuf ++ unknownReply.writeToResp := by
  obtain ⟨reply, kind, first⟩ := respRound_rejected d env opts rejected replied
  obtain ⟨data, rest, rfl⟩ := List.exists_cons_of_ne_nil filled
  have left : (refuse s reply.writeToResp).readBuf = (data :: rest).flatMap bulkString ++ following := by
    rw [← skipToNewline_respFrame, ← buffered]
    rfl
  have unknown : respRound d env opts (refuse s reply.writeToResp) =
      .again (refuse (refuse s reply.writeToResp) unknownReply.writeToResp) := by
    rw [respRound, left, List.flatMap_cons, List.append_assoc, tryParseFrame_bulkString]
    rfl
  exact ⟨_, _, reply, kind, first, left, rfl, unknown, rfl⟩

theorem errorReply_length {reply : Response} (kind : reply = syntaxReply ∨ reply = unknownReply) :
    0 < reply.writeToResp.length ∧ reply.writeToResp.length ≤ unknownReply.writeToResp.length := by
  rcases kind with rfl | rfl <;> decide

/-- Two error replies in a row are not one. -/
theorem not_answered_of_two_replies {s t u : Session σ} {following : Bytes} {reply : Response}
    (kind : reply = syntaxReply ∨ reply = unknownReply) (first : respRound d env opts s = .again t)
    (ahead : following.length < s.readBuf.length) (still : following.length < t.readBuf.length)
    (one : t.writeBuf = s.writeBuf ++ reply.writeToResp) (second : respRound d env opts t = .again u)
    (two : u.writeBuf = t.writeBuf ++ unknownReply.writeToResp) :
    ¬ AnsweredByOneError d env opts s following := by
  rintro ⟨k, v, reached, position, answer, answerKind, written⟩
  match k with
  | 0 =>
      cases reached
      rw [position] at ahead
      exact absurd ahead (lt_irrefl _)
  | 1 =>
      simp only [respRounds, first] at reached
      cases reached
      rw [position] at still
      exact absurd still (lt_irrefl _)
  | k + 2 =>
      -- both replies are in the buffer by now, and no single one is that long
      simp only [respRounds, first, second] at reached
      have more := (respRounds_writes d env opts reached).length_le
      have positive := (errorReply_length kind).1
      have bound := (errorReply_length answerKind).2
      rw [written, two, one] at more
      simp only [List.length_append] at more
      omega

theorem respFrame_longer {args : List Bytes} (filled : args ≠ []) (following : Bytes) :
    following.length < (respFrame args ++ following).length ∧
      following.length < (args.flatMap bulkString ++ following).length := by
  obtain ⟨data, rest, rfl⟩ := List.exists_cons_of_ne_nil filled
  have frame : 0 < (respFrame (data :: rest)).length := Nat.succ_pos _
  have bulks : 0 < ((data :: rest).flatMap bulkString).length := Nat.succ_pos _
  rw [List.length_append, List.length_append]
  omega

/-- No refused frame is answered by one error reply. -/
theorem rejected_frame_answered_again {s : Session σ} {args : List Bytes} {following : Bytes}
    {e : ParseError} (filled : args ≠ []) (buffered : s.readBuf = respFrame args ++ following)
    (rejected : tryParseFrame s.readBuf = .error e) (replied : e ≠ .emptyCommand) :
    ¬ AnsweredByOneError d env opts s following := by
  obtain ⟨t, u, reply, kind, first, left, one, second, two⟩ :=
    respRound_rejected_twice d env opts filled buffered rejected replied
  have longer := respFrame_longer filled following
  exact not_answered_of_two_replies d env opts kind first (by rw [buffered]; exact longer.1)
    (by rw [left]; exact longer.2) one second two

end Rejection

/-- A connection whose buffer holds these bytes. -/
def holding (buf : Bytes) : Session DashMapEngine := { Session.start .new with readBuf := buf }

/-- GET without a key, and a PING behind it. -/
theorem rejected_frame_answered_again_get :
    tryParseFrame (respFrame [ascii "GET"] ++ respFrame [ascii "PING"]) =
        .error (.syntaxText "GET requires exactly 1 argument: GET <key>") ∧
      ¬ AnsweredByOneError dispatchers (fun k => ⟨Iter.some, .new, k⟩) ⟨true, true⟩
        (holding (respFrame [ascii "GET"] ++ respFrame [ascii "PING"])) (respFrame [ascii "PING"]) := by
  have rejected : tryParseFrame (respFrame [ascii "GET"] ++ respFrame [ascii "PING"]) =
      .error (.syntaxText "GET requires exactly 1 argument: GET <key>") := by decide +kernel
  exact ⟨rejected, rejected_frame_answered_again _ _ _ (by decide) rfl rejected (by decide)⟩

/-- The frame `*1 $3 FOO` alone is answered by three error replies. -/
theorem rejected_frame_answered_three_times :
    tryParseFrame (respFrame [ascii "FOO"]) = .error (.unknownCommand (ascii "FOO")) ∧
      (process dispatchers (fun k => ⟨Iter.some, .new, k⟩) ⟨true, true⟩
        (holding (respFrame [ascii "FOO"]))).writeBuf =
          unknownReply.writeToResp ++ unknownReply.writeToResp ++ unknownReply.writeToResp ∧
      ¬ AnsweredByOneError dispatchers (fun k => ⟨Iter.some, .new, k⟩) ⟨true, true⟩
        (holding (respFrame [ascii "FOO"])) [] := by
  have rejected : tryParseFrame (respFrame [ascii "FOO"]) = .error (.unknownCommand (ascii "FOO")) := by
    decide +kernel
  refine ⟨rejected, by decide +kernel, ?_⟩
  obtain ⟨t, u, reply, kind, first, left, one, second, two⟩ :=
    respRound_rejected_twice dispatchers (fun k => ⟨Iter.some, .new, k⟩) ⟨true, true⟩
      (show [ascii "FOO"] ≠ [] by decide)
      (show (holding (respFrame [ascii "FOO"])).readBuf = respFrame [ascii "FOO"] ++ [] by
        rw [List.append_nil]; rfl)
      rejected (by decide)
  refine not_answered_of_two_replies _ _ _ kind first (by decide) ?_ one second two
  rw [left]
  decide

end ZetDb.Server
