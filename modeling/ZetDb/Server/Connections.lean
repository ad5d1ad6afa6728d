/-
# Server.Connections -- many connections on one engine and one log

Each connection is a task that runs `handle_session_full`; the tasks share the engine
and the log.  A task gives way where it awaits: at its read, inside `append_raw` and at
its write.  Between two of these a step is one round of its processing loop, in the
hands of which the engine is (`Session.holding`).  An append is one step here, as in
`Server.Logging`, and its entry enters the batch once, as it does where no entry fills
the writer's batch (`Storage.AofWriterLog`).

* `session_alone`: what a session does alone (`handleSessionFull`) the server does with
  one connection.
* `connections_log`: whatever the clients send and however the tasks are interleaved,
  the server does what `Server.Logging` says of the commands it dispatches.
* `clients_log_agrees`: where no two clients write what the other's writes do not commute
  with, the log agrees with the engine whenever no task is inside `append_raw`.
-/
import ZetDb.Server.Chunking
import ZetDb.Server.Logging

namespace ZetDb.Server

set_option autoImplicit false

open ZetDb.Theory.Wire ZetDb.Theory.Text ZetDb.Domain ZetDb.Storage ZetDb.Protocol ZetDb.Application
open ZetDb.Theory.Runs (Along)

/-- The session as it stands, with an engine in its hands. -/
def Session.holding {σ τ : Type} (s : Session σ) (engine : τ) : Session τ :=
  ⟨s.readBuf, s.writeBuf, engine, s.dispatched, s.appended, s.recorded, s.sent, s.status⟩

namespace Connections

/-- Where the task of a connection stands: at its read, in the loop that was chosen,
inside `append_raw`, or behind the loop. -/
inductive Stage where
  | reading
  | processing (isResp : Bool)
  | appending (isResp : Bool) (entry : Bytes)
  | writing
  deriving DecidableEq, Repr

structure Connection where
  session : Session Unit
  stage : Stage

/-- A connection that has received nothing. -/
def Connection.opened : Connection := ⟨.start (), .reading⟩

structure State where
  engine : DashMapEngine
  connections : Nat → Connection
  file : Bytes
  batch : Bytes

def State.start (engine : DashMapEngine) : State := ⟨engine, fun _ => .opened, [], []⟩

def State.put (s : State) (i : Nat) (c : Connection) : State :=
  { s with connections := Function.update s.connections i c }

inductive Event where
  /-- The read of a connection: an error or a timeout, the end of the stream, or bytes. -/
  | receive (i : Nat) (read : Option Bytes)
  /-- One round of its loop. -/
  | round (i : Nat) (env : Env)
  /-- Its `append_raw` is done. -/
  | append (i : Nat)
  /-- Its write; a failing one sends a part. -/
  | reply (i : Nat) (writeFails : Option Nat)
  /-- The batch is written to the file. -/
  | flush

/-- Behind a round: an entry goes to the log before the loop goes on. -/
def stageBehind (isResp : Bool) (before after : List Bytes) : Stage :=
  match (after.drop before.length).head? with
  | some entry => .appending isResp entry
  | none => .processing isResp

def step (opts : Options) (s : State) : Event → Option State
  | .receive i read =>
      let c := s.connections i
      if c.session.status ≠ .running ∨ c.stage ≠ .reading then none
      else
        match read with
        | none => some (s.put i { c with session := { c.session with status := .ended } })
        | some [] => some (s.put i { c with session := { c.session with status := .ended } })
        | some chunk =>
            let session := receive c.session chunk
            if session.readBuf.length > maxReadBuf then
              some (s.put i { c with session := { session with status := .ended } })
            else some (s.put i ⟨session, .processing (session.readBuf.head? == some 42)⟩)
  | .round i env =>
      let c := s.connections i
      match c.stage with
      | .processing isResp =>
          if c.session.status ≠ .running then none
          else
            match protocolRound dispatchers (fun _ => env) opts isResp (c.session.holding s.engine) with
            | .again t =>
                some { s.put i ⟨t.holding (), stageBehind isResp c.session.appended t.appended⟩ with
                  engine := t.engine }
            | .stop => some (s.put i { c with stage := .writing })
            | .panic => some (s.put i { c with session := { c.session with status := .panicked } })
      | _ => none
  | .append i =>
      let c := s.connections i
      match c.stage with
      | .appending isResp entry =>
          some { s.put i { c with stage := .processing isResp } with batch := s.batch ++ entry }
      | _ => none
  | .reply i writeFails =>
      let c := s.connections i
      if c.session.status ≠ .running ∨ c.stage ≠ .writing then none
      else some (s.put i ⟨flushReplies writeFails c.session, .reading⟩)
  | .flush => some { s with file := s.file ++ s.batch, batch := [] }

def run (opts : Options) : State → List Event → Option State := Theory.Runs.run (step opts)

/-- The commands the connection has dispatched. -/
def State.dispatched (s : State) (i : Nat) : List Command := (s.connections i).session.dispatched

/-! ## One round -/

section Round

variable {opts : Options} {isResp : Bool} {s t : Session DashMapEngine}

/-- A round that goes on executes one command, or touches the buffers only. -/
theorem round_again {γ : Type} {verdict : Except ParseError (Frame γ)}
    {execute : Session DashMapEngine → γ → Session DashMapEngine} {write : Response → Bytes}
    (again : Server.round verdict execute write s = .again t) :
    (∃ rest c, t = execute { s with readBuf := rest } c) ∨
      ∃ rest out, t = { s with readBuf := rest, writeBuf := out } := by
  unfold Server.round at again
  split at again
  · rename_i consumed c
    split at again
    · rename_i rest advanced
      cases again
      exact .inl ⟨rest, c, rfl⟩
    · cases again
  · split at again
    · cases again
      exact .inr ⟨_, _, rfl⟩
    · cases again
  · cases again
  · cases again
    exact .inr ⟨_, _, rfl⟩
  · cases again
    exact .inr ⟨_, _, rfl⟩
  · cases again

/-- The command is dispatched, and logged, as `dispatchLogged` says. -/
theorem protocolRound_again {env : Nat → Env} (logs : opts.aof = true)
    (again : protocolRound dispatchers env opts isResp s = .again t) :
    (∃ c, t.engine = (dispatchLogged (env s.dispatched.length) isResp s.engine c).2 ∧
        t.dispatched = s.dispatched ++ [c] ∧
        t.appended = s.appended ++
          if (dispatchLogged (env s.dispatched.length) isResp s.engine c).1 then [c.aofBytes] else []) ∨
      (t.engine = s.engine ∧ t.dispatched = s.dispatched ∧ t.appended = s.appended) := by
  cases isResp with
  | true =>
      obtain ⟨rest, c, rfl⟩ | ⟨rest, out, rfl⟩ := round_again again
      · obtain ⟨engine, appended⟩ := executeResp_dispatchLogged env opts logs { s with readBuf := rest } c
        exact .inl ⟨c, engine, rfl, appended⟩
      · exact .inr ⟨rfl, rfl, rfl⟩
  | false =>
      obtain ⟨rest, c, rfl⟩ | ⟨rest, out, rfl⟩ := round_again again
      · obtain ⟨engine, appended⟩ := executeInline_dispatchLogged env opts logs { s with readBuf := rest } c
        exact .inl ⟨c.toOwned, engine, rfl, appended⟩
      · exact .inr ⟨rfl, rfl, rfl⟩

/-- A round logs one entry at most, and the session goes on. -/
theorem protocolRound_entry {env : Nat → Env}
    (again : protocolRound dispatchers env opts isResp s = .again t) :
    (∃ entry : Option Bytes, t.appended = s.appended ++ entry.toList) ∧ t.status = s.status := by
  cases isResp with
  | true =>
      obtain ⟨rest, c, rfl⟩ | ⟨rest, out, rfl⟩ := round_again again
      · refine ⟨?_, rfl⟩
        simp only [executeResp]
        split
        · exact ⟨_, rfl⟩
        · exact ⟨none, rfl⟩
      · exact ⟨⟨none, (List.append_nil _).symm⟩, rfl⟩
  | false =>
      obtain ⟨rest, c, rfl⟩ | ⟨rest, out, rfl⟩ := round_again again
      · exact ⟨⟨_, rfl⟩, rfl⟩
      · exact ⟨⟨none, (List.append_nil _).symm⟩, rfl⟩

/-- Only the environment of the next command matters to a round. -/
theorem protocolRound_env (env : Nat → Env) (opts : Options) (isResp : Bool) (s : Session DashMapEngine) :
    protocolRound dispatchers (fun _ => env s.dispatched.length) opts isResp s =
      protocolRound dispatchers env opts isResp s := by
  cases isResp with
  | true => rfl
  | false => rfl

theorem stageBehind_some (isResp : Bool) (before : List Bytes) (entry : Bytes) :
    stageBehind isResp before (before ++ [entry]) = .appending isResp entry := by
  rw [stageBehind, List.drop_left]
  rfl

theorem stageBehind_none (isResp : Bool) (before : List Bytes) :
    stageBehind isResp before before = .processing isResp := by
  rw [stageBehind, List.drop_length]
  rfl

theorem stageBehind_if (isResp : Bool) (before : List Bytes) (entry : Bytes) (logged : Bool) :
    stageBehind isResp before (before ++ if logged then [entry] else []) =
      if logged then .appending isResp entry else .processing isResp := by
  cases logged with
  | true => exact stageBehind_some isResp before entry
  | false => exact (congrArg _ (List.append_nil before)).trans (stageBehind_none isResp before)

end Round

/-! ## A connection alone -/

section Alone

variable {opts : Options} {env : Nat → Env} {i : Nat} {isResp : Bool} {stage : Stage}
  {s t : Session DashMapEngine} {S S' : State}

/-- The connection an event is about. -/
def Event.connection : Event → Option Nat
  | .receive i _ => some i
  | .round i _ => some i
  | .append i => some i
  | .reply i _ => some i
  | .flush => none

/-- By events of one connection the server gets from one state to another. -/
def Gets (opts : Options) (i : Nat) (S S' : State) : Prop :=
  ∃ events, (∀ ev ∈ events, Event.connection ev = some i) ∧ run opts S events = some S'

theorem Gets.one (ev : Event) (mine : ev.connection = some i) (next : step opts S ev = some S') :
    Gets opts i S S' := by
  refine ⟨[ev], ?_, ?_⟩
  · intro other inside
    rw [List.mem_singleton.1 inside]
    exact mine
  · unfold run
    rw [Theory.Runs.run_cons, next]
    rfl

theorem Gets.trans {S'' : State} (first : Gets opts i S S') (second : Gets opts i S' S'') :
    Gets opts i S S'' := by
  obtain ⟨events, mine, there⟩ := first
  obtain ⟨more, mine', onward⟩ := second
  refine ⟨events ++ more, ?_, ?_⟩
  · intro ev inside
    rcases List.mem_append.1 inside with early | late
    · exact mine ev early
    · exact mine' ev late
  · unfold run at there onward ⊢
    rw [Theory.Runs.run_append, there]
    exact onward

/-- The server holds the session, its engine and its log. -/
structure Alone (i : Nat) (s : Session DashMapEngine) (stage : Stage) (S : State) : Prop where
  engine : S.engine = s.engine
  connection : S.connections i = ⟨s.holding (), stage⟩
  log : S.batch = s.appended.flatten

theorem put_connections (S : State) (i : Nat) (c : Connection) : (S.put i c).connections i = c := by
  show Function.update S.connections i c i = c
  rw [Function.update_self]

theorem Alone.round (alone : Alone i s (.processing isResp) S) (running : s.status = .running)
    (again : protocolRound dispatchers env opts isResp s = .again t) :
    ∃ S', Gets opts i S S' ∧ Alone i t (.processing isResp) S' := by
  obtain ⟨⟨entry, appended⟩, -⟩ := protocolRound_entry again
  have hands : (s.holding ()).holding S.engine = s := by
    rw [alone.engine]
    rfl
  have next : step opts S (.round i (env s.dispatched.length)) =
      some { S.put i ⟨t.holding (), stageBehind isResp s.appended t.appended⟩ with engine := t.engine } := by
    simp only [step, alone.connection, hands, protocolRound_env, again]
    exact if_neg (not_not.2 running)
  cases entry with
  | none =>
      rw [appended, Option.toList_none, List.append_nil, stageBehind_none] at next
      refine ⟨_, Gets.one _ rfl next, rfl, put_connections _ _ _, ?_⟩
      rw [appended, Option.toList_none, List.append_nil]
      exact alone.log
  | some entry =>
      rw [appended, Option.toList_some, stageBehind_some] at next
      have logged : step opts { S.put i ⟨t.holding (), .appending isResp entry⟩ with engine := t.engine }
          (.append i) = some { (S.put i ⟨t.holding (), .processing isResp⟩) with
            engine := t.engine, batch := S.batch ++ entry } := by
        simp only [step, put_connections]
        simp only [State.put, Function.update_idem]
      refine ⟨_, (Gets.one _ rfl next).trans (Gets.one _ rfl logged), rfl, put_connections _ _ _, ?_⟩
      show S.batch ++ entry = _
      rw [alone.log, appended, List.flatten_append]
      simp

theorem Alone.stopped (alone : Alone i s (.processing isResp) S) (running : s.status = .running)
    (stop : protocolRound dispatchers env opts isResp s = .stop) :
    ∃ S', Gets opts i S S' ∧ Alone i s .writing S' := by
  have hands : (s.holding ()).holding S.engine = s := by
    rw [alone.engine]
    rfl
  have next : step opts S (.round i (env s.dispatched.length)) = some (S.put i ⟨s.holding (), .writing⟩) := by
    simp only [step, alone.connection, hands, protocolRound_env, stop]
    exact if_neg (not_not.2 running)
  exact ⟨_, Gets.one _ rfl next, alone.engine, put_connections _ _ _, alone.log⟩

theorem Alone.panics (alone : Alone i s (.processing isResp) S) (running : s.status = .running)
    (panic : protocolRound dispatchers env opts isResp s = .panic) :
    ∃ S', Gets opts i S S' ∧ Alone i { s with status := .panicked } (.processing isResp) S' := by
  have hands : (s.holding ()).holding S.engine = s := by
    rw [alone.engine]
    rfl
  have next : step opts S (.round i (env s.dispatched.length)) =
      some (S.put i ⟨Session.holding { s with status := .panicked } (), .processing isResp⟩) := by
    simp only [step, alone.connection, hands, protocolRound_env, panic]
    exact if_neg (not_not.2 running)
  exact ⟨_, Gets.one _ rfl next, alone.engine, put_connections _ _ _, alone.log⟩

/-- By induction on the fuel: the rounds of the loop, until it stops or dies. -/
theorem Alone.loop (fuel : Nat) (enough : s.readBuf.length < fuel) (alone : Alone i s (.processing isResp) S)
    (running : s.status = .running) :
    ∃ S' stage, Gets opts i S S' ∧
      Alone i (Server.loop (protocolRound dispatchers env opts isResp) fuel s) stage S' ∧
      ((Server.loop (protocolRound dispatchers env opts isResp) fuel s).status = .panicked ∨
        (stage = .writing ∧
          (Server.loop (protocolRound dispatchers env opts isResp) fuel s).status = .running)) := by
  induction fuel generalizing s S with
  | zero => omega
  | succ fuel ih =>
      rw [Server.loop]
      cases next : protocolRound dispatchers env opts isResp s with
      | again t =>
          have shorter : t.readBuf.length < s.readBuf.length := by
            cases isResp with
            | true => exact respRound_shrinks dispatchers env opts next
            | false => exact inlineRound_shrinks dispatchers env opts next
          obtain ⟨-, status⟩ := protocolRound_entry next
          obtain ⟨mid, first, held⟩ := alone.round running next
          obtain ⟨S', stage, rest, final, ended⟩ := ih (by omega) held (status.trans running)
          exact ⟨S', stage, first.trans rest, final, ended⟩
      | stop =>
          obtain ⟨S', gets, held⟩ := alone.stopped running next
          exact ⟨S', .writing, gets, held, .inr ⟨rfl, running⟩⟩
      | panic =>
          obtain ⟨S', gets, held⟩ := alone.panics running next
          exact ⟨S', _, gets, held, .inl rfl⟩

theorem Alone.process (alone : Alone i s (.processing (s.readBuf.head? == some 42)) S)
    (running : s.status = .running) :
    ∃ S' stage, Gets opts i S S' ∧ Alone i (process dispatchers env opts s) stage S' ∧
      ((process dispatchers env opts s).status = .panicked ∨
        (stage = .writing ∧ (process dispatchers env opts s).status = .running)) := by
  have chosen : Server.process dispatchers env opts s =
      Server.loop (protocolRound dispatchers env opts (s.readBuf.head? == some 42)) (s.readBuf.length + 1) s := by
    unfold Server.process
    split
    · rename_i star
      rw [star]
      rfl
    · rename_i other
      have inline : (s.readBuf.head? == some 42) = false := by simpa using other
      rw [inline]
      rfl
  rw [chosen]
  exact alone.loop _ (Nat.lt_succ_self _) running

theorem flushReplies_holding (writeFails : Option Nat) (s : Session DashMapEngine) :
    flushReplies writeFails (s.holding ()) = (flushReplies writeFails s).holding () := by
  have same : (s.holding ()).writeBuf = s.writeBuf := rfl
  unfold flushReplies
  rw [same]
  split_ifs
  · rfl
  · rfl
  · cases writeFails with
    | none => rfl
    | some n => rfl

theorem flushReplies_keeps (writeFails : Option Nat) (s : Session DashMapEngine) :
    (flushReplies writeFails s).engine = s.engine ∧ (flushReplies writeFails s).appended = s.appended := by
  unfold flushReplies
  split_ifs
  · exact ⟨rfl, rfl⟩
  · exact ⟨rfl, rfl⟩
  · cases writeFails with
    | none => exact ⟨rfl, rfl⟩
    | some n => exact ⟨rfl, rfl⟩

theorem Alone.replies (alone : Alone i s .writing S) (running : s.status = .running) (writeFails : Option Nat) :
    ∃ S', Gets opts i S S' ∧ Alone i (flushReplies writeFails s) .reading S' := by
  obtain ⟨engine, appended⟩ := flushReplies_keeps writeFails s
  have next : step opts S (.reply i writeFails) =
      some (S.put i ⟨(flushReplies writeFails s).holding (), .reading⟩) := by
    simp only [step, alone.connection, flushReplies_holding]
    apply if_neg
    rintro (ended | elsewhere)
    · exact ended running
    · exact elsewhere rfl
  refine ⟨_, Gets.one _ rfl next, ?_, put_connections _ _ _, ?_⟩
  · exact alone.engine.trans engine.symm
  · rw [appended]
    exact alone.log

theorem Alone.turn {u : Turn} (alone : Alone i s .reading S) (taken : turn dispatchers env opts s u = some t) :
    ∃ S' stage, Gets opts i S S' ∧ Alone i t stage S' ∧ (t.status = .running → stage = .reading) := by
  have running : s.status = .running := by
    by_contra ended
    rw [Server.turn, if_pos ended] at taken
    cases taken
  have ready : ¬((s.holding ()).status ≠ .running ∨ Stage.reading ≠ .reading) := by
    rintro (ended | elsewhere)
    · exact ended running
    · exact elsewhere rfl
  have received (read : Option Bytes) : step opts S (.receive i read) = match read with
      | none => some (S.put i ⟨Session.holding { s with status := .ended } (), .reading⟩)
      | some [] => some (S.put i ⟨Session.holding { s with status := .ended } (), .reading⟩)
      | some chunk =>
          if (s.readBuf ++ chunk).length > maxReadBuf then
            some (S.put i ⟨Session.holding { receive s chunk with status := .ended } (), .reading⟩)
          else some (S.put i ⟨(receive s chunk).holding (), .processing ((s.readBuf ++ chunk).head? == some 42)⟩) := by
    simp only [step, alone.connection, if_neg ready]
    rfl
  have ends {t : Session DashMapEngine} (engine : t.engine = s.engine) (appended : t.appended = s.appended)
      (closed : t.status = .ended)
      (next : step opts S (.receive i u.read) = some (S.put i ⟨t.holding (), .reading⟩)) :
      ∃ S' stage, Gets opts i S S' ∧ Alone i t stage S' ∧ (t.status = .running → stage = .reading) := by
    refine ⟨_, .reading, Gets.one _ rfl next, ⟨?_, put_connections _ _ _, ?_⟩, fun _ => rfl⟩
    · exact alone.engine.trans engine.symm
    · rw [appended]
      exact alone.log
  have next := received u.read
  rw [Server.turn, if_neg (not_not.2 running)] at taken
  split at taken
  · rename_i failed
    cases taken
    rw [failed] at next
    exact ends rfl rfl rfl (by rw [failed]; exact next)
  · rename_i closed
    cases taken
    rw [closed] at next
    exact ends rfl rfl rfl (by rw [closed]; exact next)
  · rename_i chunk _ arrived
    rw [arrived] at next
    obtain ⟨b, more, rfl⟩ := List.exists_cons_of_ne_nil (show chunk ≠ [] from by simpa using ‹_›)
    dsimp only at taken next
    by_cases large : (s.readBuf ++ b :: more).length > maxReadBuf
    · rw [if_pos large] at taken next
      cases taken
      exact ends rfl rfl rfl (by rw [arrived]; exact next)
    · rw [if_neg large] at taken next
      have start := Gets.one (.receive i (some (b :: more))) rfl next
      have held : Alone i (receive s (b :: more)) (.processing ((receive s (b :: more)).readBuf.head? == some 42))
          (S.put i ⟨(receive s (b :: more)).holding (), .processing ((s.readBuf ++ b :: more).head? == some 42)⟩) :=
        ⟨alone.engine, put_connections _ _ _, alone.log⟩
      obtain ⟨S', stage, gets, processed, ended⟩ := held.process running
      rcases ended with dead | ⟨rfl, lives⟩
      · have died : (Server.process dispatchers env opts { s with readBuf := s.readBuf ++ b :: more }).status =
            .panicked := dead
        rw [if_pos died] at taken
        cases taken
        refine ⟨S', stage, start.trans gets, processed, ?_⟩
        intro alive
        rw [died] at alive
        cases alive
      · have lived : (Server.process dispatchers env opts { s with readBuf := s.readBuf ++ b :: more }).status ≠
            .panicked := by
          intro dead
          cases lives.symm.trans dead
        rw [if_neg lived] at taken
        cases taken
        obtain ⟨S'', more, final⟩ := processed.replies lives u.writeFails
        exact ⟨S'', .reading, (start.trans gets).trans more, final, fun _ => rfl⟩

end Alone

/-- What a session does alone the server does with one connection; its log is the
entries of the session. -/
theorem session_alone (opts : Options) (env : Nat → Env) (i : Nat) (engine : DashMapEngine)
    (turns : List Turn) (s : Session DashMapEngine)
    (reached : handleSessionFull dispatchers env opts (.start engine) turns = some s) :
    ∃ events S, (∀ ev ∈ events, Event.connection ev = some i) ∧ run opts (.start engine) events = some S ∧
      S.engine = s.engine ∧ (S.connections i).session = s.holding () ∧ S.batch = s.appended.flatten := by
  have start : Alone i (.start engine) .reading (State.start engine) := ⟨rfl, rfl, rfl⟩
  -- by induction on the turns, from any session that has come to its read
  suffices onward : ∀ (s' : Session DashMapEngine) (S : State) (stage : Stage), Alone i s' stage S →
      (s'.status = .running → stage = .reading) → handleSessionFull dispatchers env opts s' turns = some s →
      ∃ S' stage, Gets opts i S S' ∧ Alone i s stage S' by
    obtain ⟨S, stage, ⟨events, mine, there⟩, final⟩ := onward _ _ _ start (fun _ => rfl) reached
    refine ⟨events, S, mine, there, final.engine, ?_, final.log⟩
    rw [final.connection]
  clear start reached
  induction turns with
  | nil =>
      intro s' S stage alone _ reached
      cases reached
      exact ⟨S, stage, ⟨[], by simp, rfl⟩, alone⟩
  | cons u turns ih =>
      intro s' S stage alone ready reached
      obtain ⟨mid, taken, rest⟩ := Option.bind_eq_some_iff.1 reached
      have running : s'.status = .running := by
        by_contra ended
        rw [Server.turn, if_pos ended] at taken
        cases taken
      cases ready running
      obtain ⟨S', stage', first, held, ready'⟩ := alone.turn taken
      obtain ⟨S'', last, more, final⟩ := ih mid S' stage' held ready' rest
      exact ⟨S'', last, first.trans more, final⟩

theorem session_alone_mixed :
    ∃ s events S, handleSessionFull dispatchers (fun k => ⟨Iter.some, .new, k⟩) ⟨true, true⟩ (.start .new)
        (mixedReads.map Turn.delivers) = some s ∧
      (∀ ev ∈ events, Event.connection ev = some 3) ∧ run ⟨true, true⟩ (.start .new) events = some S ∧
      S.engine = s.engine := by
  obtain ⟨events, S, mine, there, engine, -⟩ := session_alone ⟨true, true⟩ (fun k => ⟨Iter.some, .new, k⟩) 3 .new
    (mixedReads.map Turn.delivers) _ rfl
  exact ⟨_, events, S, rfl, mine, there, engine⟩

/-! ## The commands that are dispatched, in the model of the log -/

section Log

variable {opts : Options} {s s' : State} {sh : Shared}

/-- The entries on their way to the log are the pending commands. -/
structure Logs (s : State) (sh : Shared) : Prop where
  engine : sh.engine = s.engine
  file : sh.file = s.file
  batch : sh.batch = s.batch
  whole : sh.rewrite = none
  once : (sh.pending.map (·.session)).Nodup
  waiting : ∀ p ∈ sh.pending, ∃ isResp,
    (s.connections p.session).stage = .appending isResp p.command.aofBytes
  carried : ∀ i isResp entry, (s.connections i).stage = .appending isResp entry →
    ∃ p ∈ sh.pending, p.session = i
  known : ∀ p ∈ sh.pending, p.command ∈ s.dispatched p.session

theorem logs_start (engine : DashMapEngine) : Logs (.start engine) { Shared.init with engine := engine } where
  engine := rfl
  file := rfl
  batch := rfl
  whole := rfl
  once := List.nodup_nil
  waiting := by simp [Shared.init]
  carried := by simp [State.start, Connection.opened]
  known := by simp [Shared.init]

/-- Every command that is dispatched can be logged, and commands of two clients commute. -/
structure Orderly (s : State) : Prop where
  loggable : ∀ i, ∀ c ∈ s.dispatched i, Loggable c
  commute : ∀ i j, i ≠ j → ∀ c ∈ s.dispatched i, ∀ d ∈ s.dispatched j, Commutes c d

theorem put_stage (s : State) (i : Nat) (c : Connection) (j : Nat) :
    ((s.put i c).connections j).stage = if j = i then c.stage else (s.connections j).stage := by
  show (Function.update s.connections i c j).stage = _
  by_cases mine : j = i
  · rw [if_pos mine, mine, Function.update_self]
  · rw [if_neg mine, Function.update_of_ne mine]

theorem put_dispatched (s : State) (i : Nat) (c : Connection) (j : Nat) :
    (s.put i c).dispatched j = if j = i then c.session.dispatched else s.dispatched j := by
  show (Function.update s.connections i c j).session.dispatched = _
  by_cases mine : j = i
  · rw [if_pos mine, mine, Function.update_self]
  · rw [if_neg mine, Function.update_of_ne mine]
    rfl

/-- No entry of a connection is pending that is not inside `append_raw`. -/
theorem Logs.others {i : Nat} (good : Logs s sh)
    (elsewhere : ∀ isResp entry, (s.connections i).stage ≠ .appending isResp entry) :
    ∀ p ∈ sh.pending, p.session ≠ i := by
  rintro p inside rfl
  obtain ⟨isResp, stage⟩ := good.waiting p inside
  exact elsewhere _ _ stage

/-- A step of one connection that has to do with neither the engine nor the log. -/
theorem Logs.quiet {i : Nat} {c : Connection} (good : Logs s sh)
    (before : ∀ isResp entry, (s.connections i).stage ≠ .appending isResp entry)
    (behind : ∀ isResp entry, c.stage ≠ .appending isResp entry) : Logs (s.put i c) sh := by
  have others := good.others before
  refine ⟨good.engine, good.file, good.batch, good.whole, good.once, ?_, ?_, ?_⟩
  · intro p inside
    obtain ⟨isResp, stage⟩ := good.waiting p inside
    refine ⟨isResp, ?_⟩
    rw [put_stage, if_neg (others p inside)]
    exact stage
  · intro j isResp entry stage
    rw [put_stage] at stage
    split at stage
    · exact absurd stage (behind _ _)
    · exact good.carried j isResp entry stage
  · intro p inside
    rw [put_dispatched, if_neg (others p inside)]
    exact good.known p inside

/-- What a round of the server does. -/
theorem round_cases {i : Nat} {env : Env} (logs : opts.aof = true)
    (next : step opts s (.round i env) = some s') :
    ∃ isResp, (s.connections i).stage = .processing isResp ∧
      ((∃ c session, s' = { s.put i ⟨session, if (dispatchLogged env isResp s.engine c).1
            then .appending isResp c.aofBytes else .processing isResp⟩ with
            engine := (dispatchLogged env isResp s.engine c).2 } ∧
          session.dispatched = s.dispatched i ++ [c]) ∨
        ∃ session stage, s' = s.put i ⟨session, stage⟩ ∧ session.dispatched = s.dispatched i ∧
          ∀ isResp entry, stage ≠ .appending isResp entry) := by
  simp only [step] at next
  split at next
  · rename_i isResp processing
    refine ⟨isResp, processing, ?_⟩
    split at next
    · cases next
    split at next
    · rename_i t again
      cases next
      obtain ⟨c, engine, dispatched, appended⟩ | ⟨engine, dispatched, appended⟩ := protocolRound_again logs again
      · refine .inl ⟨c, t.holding (), ?_, dispatched⟩
        have stage : stageBehind isResp (s.connections i).session.appended t.appended =
            if (dispatchLogged env isResp s.engine c).1 then .appending isResp c.aofBytes
            else .processing isResp := by
          rw [appended]
          exact stageBehind_if isResp _ _ _
        rw [stage, engine]
        rfl
      · refine .inr ⟨t.holding (), .processing isResp, ?_, dispatched, ?_⟩
        · have stage : stageBehind isResp (s.connections i).session.appended t.appended = .processing isResp := by
            rw [appended]
            exact stageBehind_none isResp _
          rw [stage, engine]
          rfl
        · intro _ _ impossible
          cases impossible
    · cases next
      exact .inr ⟨_, .writing, rfl, rfl, fun _ _ impossible => by cases impossible⟩
    · cases next
      refine .inr ⟨_, _, rfl, rfl, ?_⟩
      rw [processing]
      intro _ _ impossible
      cases impossible
  · cases next

/-- A read changes the buffer and the stage of its connection, no more. -/
theorem receive_cases {i : Nat} {read : Option Bytes} (next : step opts s (.receive i read) = some s') :
    (s.connections i).stage = .reading ∧ ∃ c, s' = s.put i c ∧ c.session.dispatched = s.dispatched i ∧
      ∀ isResp entry, c.stage ≠ .appending isResp entry := by
  simp only [step] at next
  split at next
  · cases next
  rename_i ready
  have reading : (s.connections i).stage = .reading := by
    by_contra elsewhere
    exact ready (.inr elsewhere)
  have calm : ∀ isResp entry, (s.connections i).stage ≠ .appending isResp entry := by
    rw [reading]
    intro _ _ impossible
    cases impossible
  refine ⟨reading, ?_⟩
  split at next
  · cases next
    exact ⟨_, rfl, rfl, calm⟩
  · cases next
    exact ⟨_, rfl, rfl, calm⟩
  · split at next
    · cases next
      exact ⟨_, rfl, rfl, calm⟩
    · cases next
      exact ⟨_, rfl, rfl, fun _ _ impossible => by cases impossible⟩

theorem reply_cases {i : Nat} {writeFails : Option Nat} (next : step opts s (.reply i writeFails) = some s') :
    (s.connections i).stage = .writing ∧
      s' = s.put i ⟨flushReplies writeFails (s.connections i).session, .reading⟩ := by
  simp only [step] at next
  split at next
  · cases next
  rename_i ready
  cases next
  refine ⟨?_, rfl⟩
  by_contra elsewhere
  exact ready (.inr elsewhere)

theorem append_event_cases {i : Nat} (next : step opts s (.append i) = some s') :
    ∃ isResp entry, (s.connections i).stage = .appending isResp entry ∧
      s' = { s.put i ⟨(s.connections i).session, .processing isResp⟩ with batch := s.batch ++ entry } := by
  simp only [step] at next
  split at next
  · rename_i isResp entry appending
    cases next
    exact ⟨isResp, entry, appending, rfl⟩
  · cases next

theorem flushReplies_dispatched {σ : Type} (writeFails : Option Nat) (s : Session σ) :
    (flushReplies writeFails s).dispatched = s.dispatched := by
  unfold flushReplies
  split_ifs
  · rfl
  · rfl
  · cases writeFails with
    | none => rfl
    | some n => rfl

/-- The commands a connection has dispatched stay dispatched. -/
theorem dispatched_step {ev : Event} (logs : opts.aof = true) (next : step opts s ev = some s') (j : Nat) :
    s.dispatched j ⊆ s'.dispatched j := by
  have grown {i : Nat} {c : Connection} (more : s.dispatched i ⊆ c.session.dispatched) :
      s.dispatched j ⊆ (s.put i c).dispatched j := by
    rw [put_dispatched]
    split
    · rename_i mine
      rw [mine]
      exact more
    · exact List.Subset.refl _
  cases ev with
  | receive i read =>
      obtain ⟨-, c, rfl, same, -⟩ := receive_cases next
      apply grown
      rw [same]
      exact List.Subset.refl _
  | round i env =>
      obtain ⟨isResp, -, ⟨c, session, rfl, more⟩ | ⟨session, stage, rfl, same, -⟩⟩ := round_cases logs next
      · apply grown
        rw [more]
        exact List.subset_append_left _ _
      · apply grown
        rw [same]
        exact List.Subset.refl _
  | append i =>
      obtain ⟨isResp, entry, -, rfl⟩ := append_event_cases next
      apply grown
      exact List.Subset.refl _
  | reply i writeFails =>
      obtain ⟨-, rfl⟩ := reply_cases next
      apply grown
      rw [flushReplies_dispatched]
      exact List.Subset.refl _
  | flush =>
      cases next
      exact List.Subset.refl _

/-- What was orderly in the end was so before. -/
theorem Orderly.earlier {ev : Event} (logs : opts.aof = true) (good : Orderly s')
    (next : step opts s ev = some s') : Orderly s where
  loggable i c inside := good.loggable i c (dispatched_step logs next i inside)
  commute i j apart c inside d inside' :=
    good.commute i j apart c (dispatched_step logs next i inside) d (dispatched_step logs next j inside')

/-- A command that is dispatched is executed in the model of the log. -/
theorem Logs.execute {i : Nat} (env : Env) {isResp : Bool} {c : Command} {session : Session Unit}
    (good : Logs s sh) (processing : (s.connections i).stage = .processing isResp)
    (dispatched : session.dispatched = s.dispatched i ++ [c]) :
    ∃ sh', Server.step sh (.execute env i isResp c) = some sh' ∧
      Logs { s.put i ⟨session, if (dispatchLogged env isResp s.engine c).1 then .appending isResp c.aofBytes
        else .processing isResp⟩ with engine := (dispatchLogged env isResp s.engine c).2 } sh' := by
  have elsewhere : ∀ isResp entry, (s.connections i).stage ≠ .appending isResp entry := by
    rw [processing]
    intro _ _ impossible
    cases impossible
  have others := good.others elsewhere
  have idle : ¬ (sh.pending.any (·.session == i) = true) := by
    rw [List.any_eq_true]
    rintro ⟨p, inside, mine⟩
    exact others p inside (beq_iff_eq.1 mine)
  have next : Server.step sh (.execute env i isResp c) = some { sh with
      engine := (dispatchLogged env isResp s.engine c).2
      pending := if (dispatchLogged env isResp s.engine c).1 then sh.pending ++ [⟨i, c, false⟩]
        else sh.pending } := by
    simp only [Server.step, good.engine]
    exact if_neg idle
  refine ⟨_, next, ?_⟩
  generalize (dispatchLogged env isResp s.engine c).2 = engine
  cases (dispatchLogged env isResp s.engine c).1 with
  | false =>
      have quiet := good.quiet (c := ⟨session, .processing isResp⟩) elsewhere
        fun _ _ impossible => by cases impossible
      exact ⟨rfl, quiet.file, quiet.batch, quiet.whole, quiet.once, quiet.waiting, quiet.carried, quiet.known⟩
  | true =>
      simp only [if_true]
      refine ⟨rfl, good.file, good.batch, good.whole, ?_, ?_, ?_, ?_⟩
      · rw [List.map_append, List.map_singleton]
        refine List.Nodup.append good.once (List.nodup_singleton i) ?_
        intro j inside mine
        obtain ⟨p, member, rfl⟩ := List.mem_map.1 inside
        exact others p member (List.mem_singleton.1 mine)
      · intro p inside
        rcases List.mem_append.1 inside with old | new
        · obtain ⟨isResp', stage⟩ := good.waiting p old
          refine ⟨isResp', ?_⟩
          show ((s.put i _).connections p.session).stage = _
          rw [put_stage, if_neg (others p old)]
          exact stage
        · cases List.mem_singleton.1 new
          refine ⟨isResp, ?_⟩
          show ((s.put i _).connections i).stage = _
          rw [put_stage, if_pos rfl]
      · intro j isResp' entry stage
        replace stage : ((s.put i _).connections j).stage = _ := stage
        rw [put_stage] at stage
        split at stage
        · rename_i mine
          exact ⟨⟨i, c, false⟩, List.mem_append_right _ (List.mem_singleton_self _), mine.symm⟩
        · obtain ⟨p, inside, its⟩ := good.carried j isResp' entry stage
          exact ⟨p, List.mem_append_left _ inside, its⟩
      · intro p inside
        show p.command ∈ (s.put i _).dispatched p.session
        rcases List.mem_append.1 inside with old | new
        · rw [put_dispatched, if_neg (others p old)]
          exact good.known p old
        · cases List.mem_singleton.1 new
          rw [put_dispatched, if_pos rfl, dispatched]
          exact List.mem_append_right _ (List.mem_singleton_self _)

/-- An entry that reaches the log is appended in the model of the log; it overtakes
entries of other connections only. -/
theorem Logs.appends {i : Nat} {isResp : Bool} {entry : Bytes} (good : Logs s sh) (orderly : Orderly s)
    (appending : (s.connections i).stage = .appending isResp entry) :
    ∃ sh', Server.step sh (.append i) = some sh' ∧ InOrder sh (.append i) ∧
      Logs { s.put i ⟨(s.connections i).session, .processing isResp⟩ with batch := s.batch ++ entry } sh' := by
  obtain ⟨p, member, mine⟩ := good.carried i isResp entry appending
  obtain ⟨sh', next⟩ : ∃ sh', Server.step sh (.append i) = some sh' := by
    cases found : sh.pending.find? (·.session == i) with
    | none => exact absurd (beq_iff_eq.2 mine) (List.find?_eq_none.1 found p member)
    | some q =>
        have taken : (Server.step sh (.append i)).isSome = true := by
          simp only [Server.step, found]
          rfl
        exact Option.isSome_iff_exists.1 taken
  have alone {before behind : List Pending} {q : Pending} (shape : sh.pending = before ++ q :: behind) :
      (∀ r ∈ before ++ behind, r.session ≠ q.session) ∧ ((before ++ behind).map (·.session)).Nodup := by
    have once := good.once
    rw [shape, List.map_append, List.map_cons, List.nodup_middle, List.nodup_cons, ← List.map_append] at once
    refine ⟨?_, once.2⟩
    intro r inside same
    exact once.1 (same ▸ List.mem_map_of_mem inside)
  refine ⟨sh', next, ?_, ?_⟩
  · intro before q behind shape its r early
    apply orderly.commute r.session q.session ((alone shape).1 r (List.mem_append_left _ early))
    · exact good.known r (by rw [shape]; exact List.mem_append_left _ early)
    · exact good.known q (by rw [shape]; simp)
  · obtain ⟨before, q, behind, shape, its, rfl⟩ := append_cases next
    obtain ⟨apart, once⟩ := alone shape
    have rest : ∀ r ∈ before ++ behind, r ∈ sh.pending ∧ r.session ≠ i := by
      intro r inside
      refine ⟨?_, fun mine => apart r inside (mine.trans its.symm)⟩
      rw [shape]
      rcases List.mem_append.1 inside with early | late
      · exact List.mem_append_left _ early
      · exact List.mem_append_right _ (List.mem_cons_of_mem _ late)
    obtain ⟨isResp', stage⟩ := good.waiting q (by rw [shape]; simp)
    rw [its, appending] at stage
    cases stage
    refine ⟨good.engine, good.file, ?_, good.whole, once, ?_, ?_, ?_⟩
    · rw [good.batch]
    · intro r inside
      obtain ⟨old, other⟩ := rest r inside
      obtain ⟨isResp', stage⟩ := good.waiting r old
      refine ⟨isResp', ?_⟩
      show ((s.put i _).connections r.session).stage = _
      rw [put_stage, if_neg other]
      exact stage
    · intro j isResp' entry stage
      replace stage : ((s.put i _).connections j).stage = _ := stage
      rw [put_stage] at stage
      split at stage
      · cases stage
      · rename_i other
        obtain ⟨r, inside, mine⟩ := good.carried j isResp' entry stage
        rw [shape] at inside
        refine ⟨r, ?_, mine⟩
        rcases List.mem_append.1 inside with early | late
        · exact List.mem_append_left _ early
        · rcases List.mem_cons.1 late with rfl | late
          · exact absurd (mine.symm.trans its) other
          · exact List.mem_append_right _ late
    · intro r inside
      obtain ⟨old, other⟩ := rest r inside
      show r.command ∈ (s.put i _).dispatched r.session
      rw [put_dispatched, if_neg other]
      exact good.known r old

/-- One step of the server is a step of the log's model, or none. -/
theorem logs_step {ev : Event} (logs : opts.aof = true) (good : Logs s sh) (orderly : Orderly s')
    (next : step opts s ev = some s') :
    ∃ steps sh', Server.run sh steps = some sh' ∧
      Along Server.step (fun sh st => st.ofSession = true ∧ InOrder sh st) sh steps ∧ Logs s' sh' := by
  have before := orderly.earlier logs next
  cases ev with
  | receive i read =>
      obtain ⟨reading, c, rfl, -, calm⟩ := receive_cases next
      refine ⟨[], sh, rfl, trivial, good.quiet ?_ calm⟩
      rw [reading]
      intro _ _ impossible
      cases impossible
  | round i env =>
      obtain ⟨isResp, processing, ⟨c, session, rfl, dispatched⟩ | ⟨session, stage, rfl, dispatched, other⟩⟩ :=
        round_cases logs next
      · obtain ⟨sh', executed, final⟩ := good.execute env processing dispatched
        refine ⟨[.execute env i isResp c], sh', ?_, ⟨⟨rfl, ?_⟩, fun _ _ => trivial⟩, final⟩
        · unfold Server.run
          rw [Theory.Runs.run_cons, executed]
          rfl
        · apply orderly.loggable i c
          show c ∈ (s.put i _).dispatched i
          rw [put_dispatched, if_pos rfl, dispatched]
          simp
      · refine ⟨[], sh, rfl, trivial, good.quiet ?_ other⟩
        rw [processing]
        intro _ _ impossible
        cases impossible
  | append i =>
      obtain ⟨isResp, entry, appending, rfl⟩ := append_event_cases next
      obtain ⟨sh', appended, inOrder, final⟩ := good.appends before appending
      refine ⟨[.append i], sh', ?_, ⟨⟨rfl, inOrder⟩, fun _ _ => trivial⟩, final⟩
      unfold Server.run
      rw [Theory.Runs.run_cons, appended]
      rfl
  | reply i writeFails =>
      obtain ⟨writing, rfl⟩ := reply_cases next
      refine ⟨[], sh, rfl, trivial, good.quiet ?_ ?_⟩
      · rw [writing]
        intro _ _ impossible
        cases impossible
      · intro _ _ impossible
        cases impossible
  | flush =>
      cases next
      refine ⟨[.flush], _, rfl, ⟨⟨rfl, trivial⟩, fun _ _ => trivial⟩, ?_⟩
      refine ⟨good.engine, ?_, rfl, good.whole, good.once, good.waiting, good.carried, good.known⟩
      show sh.file ++ sh.batch = _
      rw [good.file, good.batch]

end Log

/-- Whatever the clients send, and however their tasks are interleaved, the server's log
is written as the model of the log says of the commands that are dispatched. -/
theorem connections_log {opts : Options} (logs : opts.aof = true) {events : List Event} {s : State}
    (reached : run opts (.start .new) events = some s) (orderly : Orderly s) :
    ∃ steps sh, Server.run .init steps = some sh ∧
      Along Server.step (fun sh st => st.ofSession = true ∧ InOrder sh st) .init steps ∧ Logs s sh := by
  have along : Along (step opts) (fun s ev => ∀ s', step opts s ev = some s' → Orderly s') (.start .new) events := by
    refine Theory.Runs.along_of_unbroken (I := fun _ => True) (B := fun s => ¬Orderly s) (Q := fun _ => True)
      (fun _ _ _ _ _ _ _ => trivial) ?_ ?_ trivial (fun _ _ => trivial) reached (not_not.2 orderly)
    · intro s ev s' _ broken _ next good
      apply broken
      intro s'' again
      cases next.symm.trans again
      exact good
    · intro s ev s' broken _ next good
      exact broken (good.earlier logs next)
  exact Theory.Runs.run_simulates (fun s ev s' sh good orderly next => logs_step logs good (orderly s' next) next)
    (logs_start .new) along reached

/-- Clients whose writes commute with one another's: whatever they send and however
their tasks are interleaved, the log agrees with the engine whenever no task is inside
`append_raw`. -/
theorem clients_log_agrees (opts : Options) (logs : opts.aof = true) (events : List Event) (s : State)
    (reached : run opts (.start .new) events = some s)
    (loggable : ∀ i, ∀ c ∈ s.dispatched i, Loggable c)
    (commute : ∀ i j, i ≠ j → ∀ c ∈ s.dispatched i, ∀ d ∈ s.dispatched j, Commutes c d)
    (idle : ∀ i isResp entry, (s.connections i).stage ≠ .appending isResp entry) :
    LogAgrees (s.file ++ s.batch) s.engine := by
  obtain ⟨steps, sh, there, along, held⟩ := connections_log logs reached ⟨loggable, commute⟩
  have good : Logged sh := Theory.Runs.run_invariant
    (fun _ _ _ good here next => good.keep here.1 here.2 next) logged_init along there
  have none : sh.pending = [] := by
    rw [List.eq_nil_iff_forall_not_mem]
    intro p inside
    exact held.others (idle p.session) p inside rfl
  have agrees := good.agrees none
  rwa [held.engine, held.file, held.batch] at agrees

/-! ## Two clients -/

/-- One client sets `k` on a line, another sets `j` with an array; the entries reach the
log in the opposite order. -/
noncomputable def crossing : List Event :=
  [.receive 0 (some (ascii "SET k a\r\n")),
   .receive 1 (some (respFrame [ascii "SET", ascii "j", ascii "b"])), .round 0 someEnv, .round 1 someEnv,
   .append 1, .append 0]

theorem clients_log_agrees_crossing :
    ∃ s, run ⟨true, false⟩ (.start .new) crossing = some s ∧ LogAgrees (s.file ++ s.batch) s.engine := by
  have first : (run ⟨true, false⟩ (.start .new) crossing).map (fun s => (s.dispatched 0, (s.connections 0).stage)) =
      some ([.set (ascii "k") (ascii "a") none], .processing false) := by decide +kernel
  have second : (run ⟨true, false⟩ (.start .new) crossing).map (fun s => (s.dispatched 1, (s.connections 1).stage)) =
      some ([.set (ascii "j") (ascii "b") none], .processing true) := by decide +kernel
  have others (i : Nat) : (run ⟨true, false⟩ (.start .new) crossing).map
      (fun s => (s.dispatched (i + 2), (s.connections (i + 2)).stage)) = some ([], .reading) := by rfl
  obtain ⟨s, reached⟩ : ∃ s, run ⟨true, false⟩ (.start .new) crossing = some s := ⟨_, rfl⟩
  simp only [reached, Option.map_some, Option.some.injEq, Prod.mk.injEq] at first second others
  have commands : ∀ i, ∀ c ∈ s.dispatched i, (i = 0 ∧ c = .set (ascii "k") (ascii "a") none) ∨
      (i = 1 ∧ c = .set (ascii "j") (ascii "b") none) := by
    intro i c inside
    match i with
    | 0 =>
        rw [first.1] at inside
        exact .inl ⟨rfl, List.mem_singleton.1 inside⟩
    | 1 =>
        rw [second.1] at inside
        exact .inr ⟨rfl, List.mem_singleton.1 inside⟩
    | i + 2 =>
        rw [(others i).1] at inside
        cases inside
  refine ⟨s, reached, clients_log_agrees ⟨true, false⟩ rfl crossing s reached ?_ ?_ ?_⟩
  · intro i c inside
    rcases commands i c inside with ⟨-, rfl⟩ | ⟨-, rfl⟩
    · decide
    · decide
  · intro i j apart c inside d inside'
    rcases commands i c inside with ⟨rfl, rfl⟩ | ⟨rfl, rfl⟩
    · rcases commands j d inside' with ⟨rfl, rfl⟩ | ⟨rfl, rfl⟩
      · exact absurd rfl apart
      · exact commutes_of_ne (by decide) _ _
    · rcases commands j d inside' with ⟨rfl, rfl⟩ | ⟨rfl, rfl⟩
      · exact commutes_of_ne (by decide) _ _
      · exact absurd rfl apart
  · intro i isResp entry stage
    match i with
    | 0 => cases first.2.symm.trans stage
    | 1 => cases second.2.symm.trans stage
    | i + 2 => cases (others i).2.symm.trans stage

end Connections

end ZetDb.Server
