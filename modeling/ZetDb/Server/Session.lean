/-
# Server.Session -- the read loop of a connection

Embeds `handle_session_full` of `server/session.rs`.  One turn of the loop reads
from the socket, looks at the first byte of the buffer to choose the protocol,
processes every complete request in the buffer and writes the replies.  What the
socket does is the turn's label; the dispatchers, and what they find outside the
session (the clock, the counters, an iteration order), are parameters: the `k`-th
command of the session is dispatched with `env k`.

The state keeps the buffers, the engine, and what the session did so far: the
commands it dispatched, the entries it appended to the log, the calls on the
metrics, and the bytes it sent.
-/
import ZetDb.Application.Dispatcher
import ZetDb.Protocol.ParserBorrowed
import ZetDb.Theory.Runs

namespace ZetDb.Server

set_option autoImplicit false

open ZetDb.Theory.Wire ZetDb.Theory.Text ZetDb.Domain ZetDb.Storage ZetDb.Application ZetDb.Protocol

def maxReadBuf : Nat := 1024 * 1024
def maxWriteBuf : Nat := 1024 * 1024

/-- The two dispatchers, total functions of the environment, the engine and the command. -/
structure Dispatchers (σ τ : Type) where
  dispatch : τ → σ → Command → Response × σ
  dispatchToBuffer : τ → σ → Bool → Command → Bytes × σ

/-- What a command finds outside the program: an iteration order, the counters and
the clock. -/
structure Env where
  iter : Iter
  metrics : MetricsSnapshot
  now : Instant

/-- The dispatchers of the server. -/
def dispatchers : Dispatchers DashMapEngine Env where
  dispatch := fun env e c => Application.dispatch env.iter env.metrics env.now e c
  dispatchToBuffer := fun env e isResp c =>
    Application.dispatchToBuffer env.iter env.metrics env.now e isResp c

/-- What the session is started with. -/
structure Options where
  aof : Bool
  metricsEnabled : Bool

inductive MetricsCall where
  | recordCommand (ct : CommandType)
  | recordHit
  | recordMiss
  | recordError
  deriving DecidableEq, Repr

inductive Status where
  | running
  | ended
  | panicked
  deriving DecidableEq, Repr

structure Session (σ : Type) where
  readBuf : Bytes
  writeBuf : Bytes
  engine : σ
  dispatched : List Command
  appended : List Bytes
  recorded : List MetricsCall
  sent : Bytes
  status : Status

/-- A fresh connection. -/
def Session.start {σ : Type} (engine : σ) : Session σ := ⟨[], [], engine, [], [], [], [], .running⟩

/-- `BytesMut::advance` panics when it is asked to go past the end. -/
def advance (buf : Bytes) (n : Nat) : Option Bytes := if n ≤ buf.length then some (buf.drop n) else none

def skipToNewline (buf : Bytes) : Bytes :=
  match memchr 10 buf with
  | some pos => buf.drop (pos + 1)
  | none => []

def syntaxReply : Response := .error (.syntaxError (ascii "syntax error"))
def unknownReply : Response := .error (.unknownCommand (ascii "unknown command"))

/-- The metrics calls for a command of the RESP loop. -/
def respMetrics (opts : Options) (c : Command) (response : Response) : List MetricsCall :=
  if opts.metricsEnabled then
    [.recordCommand c.commandType] ++
    (if c.commandType = .get then
      match response with
      | .value (some _) => [.recordHit]
      | .value none => [.recordMiss]
      | _ => []
    else []) ++
    (if response.isSuccess then [] else [.recordError])
  else []

def inlineMetrics (opts : Options) (ct : CommandType) : List MetricsCall :=
  if opts.metricsEnabled then [.recordCommand ct] else []

/-- The entry of a write, computed before the dispatch and only if the log is on. -/
def aofEntry (opts : Options) (isWrite : Bool) (entry : Option Bytes) : Option Bytes :=
  if opts.aof && isWrite then entry else none

/-- One round of a processing loop: go on with a new state, leave the loop, or die. -/
inductive Round (σ : Type) where
  | again (s : Session σ)
  | stop
  | panic

/-- The socket during one turn: the outcome of the read (`none` for an error or a
timeout, no bytes at the end of the stream), and how many bytes of a failing write
went out (`none` for a write that succeeds). -/
structure Turn where
  read : Option Bytes
  writeFails : Option Nat

/-- A turn in which the read delivers these bytes and the write succeeds. -/
def Turn.delivers (chunk : Bytes) : Turn := ⟨some chunk, none⟩

section Loop

variable {σ τ γ : Type} (d : Dispatchers σ τ) (env : Nat → τ) (opts : Options)

/-! ## One round -/

/-- An error reply; the input is skipped up to the next line. -/
def refuse (s : Session σ) (reply : Bytes) : Session σ :=
  { s with readBuf := skipToNewline s.readBuf, writeBuf := s.writeBuf ++ reply }

/-- A round of either loop: what the parser says of the buffer, what is done with a
complete command, and how a reply is written. -/
def round (verdict : Except ParseError (Frame γ)) (execute : Session σ → γ → Session σ)
    (write : Response → Bytes) (s : Session σ) : Round σ :=
  match verdict with
  | .ok (.complete consumed c) =>
      match advance s.readBuf consumed with
      | some rest => .again (execute { s with readBuf := rest } c)
      | none => .panic
  | .ok (.skip consumed) =>
      match advance s.readBuf consumed with
      | some rest => .again { s with readBuf := rest }
      | none => .panic
  | .ok .incomplete => .stop
  | .error (.syntaxError _) => .again (refuse s (write syntaxReply))
  | .error (.unknownCommand _) => .again (refuse s (write unknownReply))
  | .error .emptyCommand => .stop

/-! ## The RESP loop -/

/-- A complete command: dispatch it, log it if it succeeded, append the reply. -/
def executeResp (s : Session σ) (c : Command) : Session σ :=
  let result := d.dispatch (env s.dispatched.length) s.engine c
  { s with
    engine := result.2
    dispatched := s.dispatched ++ [c]
    recorded := s.recorded ++ respMetrics opts c result.1
    appended := s.appended ++
      (if result.1.isSuccess then (aofEntry opts c.isWrite c.toAofEntry).toList else [])
    writeBuf := s.writeBuf ++ result.1.writeToResp }

def respRound (s : Session σ) : Round σ :=
  round (tryParseFrame s.readBuf) (executeResp d env opts) Response.writeToResp s

/-! ## The inline loop -/

/-- A complete command: dispatch it into the write buffer, log it whatever came of it. -/
def executeInline (s : Session σ) (c : ParsedCommand) : Session σ :=
  let result := d.dispatchToBuffer (env s.dispatched.length) s.engine false c.toOwned
  { s with
    engine := result.2
    dispatched := s.dispatched ++ [c.toOwned]
    recorded := s.recorded ++ inlineMetrics opts c.commandType
    appended := s.appended ++ (aofEntry opts c.isWrite c.toAofEntry).toList
    writeBuf := s.writeBuf ++ result.1 }

def inlineRound (s : Session σ) : Round σ :=
  round (parseInlineBorrowed s.readBuf) (executeInline d env opts) Response.writeTo s

/-! ## Turns -/

/-- Rounds until the loop is left.  A round that goes on has consumed at least one
byte, so a fuel above the length of the buffer does not run out. -/
def loop (round : Session σ → Round σ) : Nat → Session σ → Session σ
  | 0, s => s
  | fuel + 1, s =>
      match round s with
      | .again s => loop round fuel s
      | .stop => s
      | .panic => { s with status := .panicked }

/-- All complete requests in the buffer; the protocol is chosen once. -/
def process (s : Session σ) : Session σ :=
  if s.readBuf.head? = some 42 then loop (respRound d env opts) (s.readBuf.length + 1) s
  else loop (inlineRound d env opts) (s.readBuf.length + 1) s

/-- The write buffer goes out, unless it has grown too large or the write fails. -/
def flushReplies (writeFails : Option Nat) (s : Session σ) : Session σ :=
  if s.writeBuf.length > maxWriteBuf then { s with status := .ended }
  else if s.writeBuf.isEmpty then s
  else
    match writeFails with
    | none => { s with sent := s.sent ++ s.writeBuf, writeBuf := [] }
    | some n => { s with sent := s.sent ++ s.writeBuf.take n, status := .ended }

/-- One turn of the outer loop; a session that has ended takes no more turns. -/
def turn (s : Session σ) (t : Turn) : Option (Session σ) :=
  if s.status ≠ .running then none
  else
    match t.read with
    | none => some { s with status := .ended }
    | some [] => some { s with status := .ended }
    | some chunk =>
        let s := { s with readBuf := s.readBuf ++ chunk }
        if s.readBuf.length > maxReadBuf then some { s with status := .ended }
        else
          let s := process d env opts s
          if s.status = .panicked then some s else some (flushReplies t.writeFails s)

/-- The session over a sequence of turns. -/
def handleSessionFull : Session σ → List Turn → Option (Session σ) :=
  Theory.Runs.run (turn d env opts)

/-- The turn finds the read buffer, and leaves the write buffer, within its limit. -/
def WithinLimits (s : Session σ) (t : Turn) : Prop :=
  let s := { s with readBuf := s.readBuf ++ t.read.getD [] }
  s.readBuf.length ≤ maxReadBuf ∧ (process d env opts s).writeBuf.length ≤ maxWriteBuf

instance (s : Session σ) (t : Turn) : Decidable (WithinLimits d env opts s t) :=
  inferInstanceAs (Decidable (_ ∧ _))

/-! ## The loop is left -/

theorem skipToNewline_length {buf : Bytes} (filled : buf ≠ []) :
    (skipToNewline buf).length < buf.length := by
  have positive := List.length_pos_of_ne_nil filled
  unfold skipToNewline
  split
  · rw [List.length_drop]
    omega
  · exact positive

theorem advance_length {buf rest : Bytes} {n : Nat} (forward : 0 < n)
    (advanced : advance buf n = some rest) : rest.length < buf.length := by
  unfold advance at advanced
  split at advanced
  · cases advanced
    rw [List.length_drop]
    omega
  · cases advanced

/-- A round that goes on has shortened the buffer. -/
theorem round_shrinks {verdict : Except ParseError (Frame γ)} {execute : Session σ → γ → Session σ}
    {write : Response → Bytes} {s t : Session σ} (input : TakesInput s.readBuf verdict)
    (keeps : ∀ s c, (execute s c).readBuf = s.readBuf)
    (again : round verdict execute write s = .again t) : t.readBuf.length < s.readBuf.length := by
  unfold round at again
  split at again
  · rename_i consumed c
    split at again
    · rename_i rest advanced
      cases again
      rw [keeps]
      exact advance_length (input.complete _ _ rfl) advanced
    · cases again
  · rename_i consumed
    split at again
    · rename_i rest advanced
      cases again
      exact advance_length (input.skip _ rfl) advanced
    · cases again
  · cases again
  · cases again
    exact skipToNewline_length (input.error _ rfl)
  · cases again
    exact skipToNewline_length (input.error _ rfl)
  · cases again

theorem respRound_shrinks {s t : Session σ} (again : respRound d env opts s = .again t) :
    t.readBuf.length < s.readBuf.length := by
  have keeps (s : Session σ) (c : Command) : (executeResp d env opts s c).readBuf = s.readBuf := rfl
  exact round_shrinks (tryParseFrame_takesInput s.readBuf) keeps again

theorem inlineRound_shrinks {s t : Session σ} (again : inlineRound d env opts s = .again t) :
    t.readBuf.length < s.readBuf.length := by
  have keeps (s : Session σ) (c : ParsedCommand) :
      (executeInline d env opts s c).readBuf = s.readBuf := rfl
  exact round_shrinks (parseInlineBorrowed_takesInput s.readBuf) keeps again

/-! ## Turns that succeed -/

theorem flushReplies_ok (s : Session σ) (small : s.writeBuf.length ≤ maxWriteBuf) :
    flushReplies none s = { s with sent := s.sent ++ s.writeBuf, writeBuf := [] } := by
  rw [flushReplies, if_neg (by omega)]
  split
  · rename_i empty
    rw [List.isEmpty_iff.1 empty, List.append_nil]
    rw [List.isEmpty_iff] at empty
    rw [← empty]
  · rfl

/-- A read that delivers something within the limit is processed. -/
theorem turn_delivers {s : Session σ} {chunk : Bytes} (running : s.status = .running)
    (delivered : chunk ≠ []) (small : (s.readBuf ++ chunk).length ≤ maxReadBuf) :
    turn d env opts s (.delivers chunk) =
      let t := process d env opts { s with readBuf := s.readBuf ++ chunk }
      if t.status = .panicked then some t else some (flushReplies none t) := by
  obtain ⟨b, more, rfl⟩ := List.exists_cons_of_ne_nil delivered
  rw [turn, if_neg (not_not.2 running)]
  exact if_neg (Nat.not_lt.2 small)

end Loop

end ZetDb.Server
