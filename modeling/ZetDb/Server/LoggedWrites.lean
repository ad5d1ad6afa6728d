/-
# Server.LoggedWrites -- does the log record exactly the successful writes

The plan of the log is "log only successful writes": the caller looks at the
response.  The RESP loop does.  The inline loop has no response to look at, since
its dispatcher writes the bytes itself, and appends every write, whatever came of
it: where the other loop has `response.is_success()` it has `true`.

`logsWrites_iff`: so an inline command that comes back (`Application.Returns`) is
logged rightly exactly when it does not fail (`Application.Failures`), and a RESP
command always, provided that an error leaves nothing new: an MSET that fails behind
pairs it has overwritten is not logged either, and its pairs are lost in a replay.  A
command that does not come back is neither answered nor logged.
-/
import ZetDb.Application.Agreement
import ZetDb.Application.Failures
import ZetDb.Application.Returns
import ZetDb.Server.Logging

namespace ZetDb.Server

set_option autoImplicit false

open ZetDb.Theory.Wire ZetDb.Theory.Text ZetDb.Domain ZetDb.Storage ZetDb.Application ZetDb.Protocol

/-- A complete command, as one of the two parsers delivers it. -/
inductive Arrival where
  | resp (c : Command)
  | inline (c : ParsedCommand)

def Arrival.command : Arrival → Command
  | .resp c => c
  | .inline c => c.toOwned

/-- What the loop of its protocol does with a complete command: `none` where the
dispatch does not come back. -/
def executeArrival (env : Nat → Env) (opts : Options) (s : Session DashMapEngine) (a : Arrival) :
    Option (Session DashMapEngine) :=
  let found := env s.dispatched.length
  match a with
  | .resp c => (dispatchReturning found.iter found.metrics found.now s.engine c).map fun _ =>
      executeResp dispatchers env opts s c
  | .inline c => (dispatchToBufferReturning found.iter found.metrics found.now s.engine false c.toOwned).map fun _ =>
      executeInline dispatchers env opts s c

/-- The bytes a command has added to the write buffer. -/
def replyOf (before after : Session DashMapEngine) : Bytes := after.writeBuf.drop before.writeBuf.length

/-- Error replies, and only they, begin with `-`. -/
def IsError (reply : Bytes) : Prop := reply.head? = some 45

/-- What a command that came back has left: it is logged if and only if it is a write
and its reply is no error, and an error leaves no entry that was not there before. -/
structure LoggedRightly (before after : Session DashMapEngine) (c : Command) : Prop where
  logged : (∃ entry, after.appended = before.appended ++ [entry]) ↔
    c.isWrite = true ∧ ¬ IsError (replyOf before after)
  unchanged : IsError (replyOf before after) → NothingNew before.engine after.engine

/-- The command comes back, and is logged rightly. -/
def LogsWrites (env : Nat → Env) (opts : Options) (s : Session DashMapEngine) (a : Arrival) : Prop :=
  ∃ after, executeArrival env opts s a = some after ∧ LoggedRightly s after a.command

section Replies

variable {iter : Iter} {m : MetricsSnapshot} {now : Instant} {e : DashMapEngine}

theorem writeToImpl_isError (r : Response) (respMode : Bool) :
    IsError (r.writeToImpl respMode) ↔ r.isSuccess = false := by
  unfold IsError
  cases r with
  | error err => cases err <;> exact iff_of_true rfl rfl
  | value data =>
      cases data with
      | none => exact iff_of_false (fun first => by cases first) Bool.noConfusion
      | some data =>
          cases respMode with
          | true => exact iff_of_false (fun first => by cases first) Bool.noConfusion
          | false => exact iff_of_false (fun first => by cases first) Bool.noConfusion
  | _ => exact iff_of_false (fun first => by cases first) Bool.noConfusion

theorem errorReply_isError {kind : ErrorKind} {reply : Bytes} (errors : ErrorReply kind reply) :
    IsError reply := by
  rcases errors with rfl | ⟨msg, rfl⟩ <;> rfl

/-- The bytes of the inline dispatcher are an error exactly when the response is. -/
theorem dispatchToBuffer_isError (iter : Iter) (m : MetricsSnapshot) (now : Instant) (e : DashMapEngine)
    (isResp : Bool) (c : Command) :
    IsError (dispatchToBuffer iter m now e isResp c).1 ↔ (dispatch iter m now e c).1.isSuccess = false := by
  obtain ⟨bytes, errors⟩ := dispatchToBuffer_sameReply iter m now e isResp c
  cases success : (dispatch iter m now e c).1.isSuccess with
  | true =>
      rw [bytes success, writeToImpl_isError, success]
  | false =>
      obtain ⟨kind, direct, -⟩ := errors success
      exact iff_of_true (errorReply_isError direct) rfl

end Replies

section Logged

variable {env : Nat → Env} {opts : Options} {s : Session DashMapEngine}

/-- The first command that the session dispatches now finds this clock. -/
def clockOf (env : Nat → Env) (s : Session DashMapEngine) : Instant := (env s.dispatched.length).now

theorem fails_isWrite {now : Instant} {e : DashMapEngine} {c : Command} (fails : Fails now e c) :
    c.isWrite = true := by
  cases c with
  | set key value lifetime => rfl
  | incr key => rfl
  | mset pairs => rfl
  | _ => exact absurd fails id

/-- A command comes back exactly if it does not wait for itself and its deadline is in
range, and then the loop has done what the model of the session says. -/
theorem executeArrival_resp_guards (env : Nat → Env) (opts : Options) (s : Session DashMapEngine) (c : Command) :
    Guards (Returns (clockOf env s) s.engine c) (executeArrival env opts s (.resp c))
      (executeResp dispatchers env opts s c) :=
  (dispatchReturning_guards _ _ _ s.engine c).map fun _ => executeResp dispatchers env opts s c

theorem executeArrival_inline_guards (env : Nat → Env) (opts : Options) (s : Session DashMapEngine)
    (c : ParsedCommand) :
    Guards (Returns (clockOf env s) s.engine c.toOwned) (executeArrival env opts s (.inline c))
      (executeInline dispatchers env opts s c) :=
  (dispatchToBufferReturning_guards _ _ _ s.engine false c.toOwned).map fun _ =>
    executeInline dispatchers env opts s c

theorem logsWrites_guarded {a : Arrival} {P : Prop} {after : Session DashMapEngine}
    (guards : Guards P (executeArrival env opts s a) after) :
    LogsWrites env opts s a ↔ P ∧ LoggedRightly s after a.command := by
  constructor
  · rintro ⟨t, returned, right⟩
    have comes : P := guards.returns_iff.1 (by rw [returned]; exact Option.some_ne_none t)
    cases returned.symm.trans (guards.fits comes)
    exact ⟨comes, right⟩
  · exact fun both => ⟨after, guards.fits both.1, both.2⟩

theorem replyOf_resp (c : Command) :
    IsError (replyOf s (executeResp dispatchers env opts s c)) ↔ Fails (clockOf env s) s.engine c := by
  have reply : replyOf s (executeResp dispatchers env opts s c) =
      (dispatchers.dispatch (env s.dispatched.length) s.engine c).1.writeToResp := List.drop_left
  rw [reply]
  exact (writeToImpl_isError _ true).trans (dispatch_fails_iff _ _ _ _ c)

theorem replyOf_inline (c : ParsedCommand) :
    IsError (replyOf s (executeInline dispatchers env opts s c)) ↔ Fails (clockOf env s) s.engine c.toOwned := by
  have reply : replyOf s (executeInline dispatchers env opts s c) =
      (dispatchers.dispatchToBuffer (env s.dispatched.length) s.engine false c.toOwned).1 := List.drop_left
  rw [reply]
  exact (dispatchToBuffer_isError _ _ _ _ false c.toOwned).trans (dispatch_fails_iff _ _ _ _ c.toOwned)

theorem appends_iff {log : List Bytes} {logged : Bool} {bytes : Bytes} :
    (∃ entry, (log ++ if logged then [bytes] else []) = log ++ [entry]) ↔ logged = true := by
  cases logged <;> simp

theorem resp_unchanged {c : Command} (failed : IsError (replyOf s (executeResp dispatchers env opts s c)))
    (whole : ¬ TearsMset s.engine c) : NothingNew s.engine (executeResp dispatchers env opts s c).engine := by
  have fails := (replyOf_resp c).1 failed
  exact dispatch_failure_leaves ((dispatch_fails_iff _ _ _ _ c).2 fails) whole

variable (logs : opts.aof = true)
include logs

theorem resp_logged_iff (c : Command) :
    (∃ entry, (executeResp dispatchers env opts s c).appended = s.appended ++ [entry]) ↔
      c.isWrite = true ∧ ¬ Fails (clockOf env s) s.engine c := by
  have appended := (executeResp_dispatchLogged env opts logs s c).2
  rw [show (executeResp dispatchers env opts s c).appended = _ from appended, appends_iff, ←
    dispatch_fails_iff (env s.dispatched.length).iter (env s.dispatched.length).metrics]
  simp [dispatchLogged, clockOf]

theorem inline_logged_iff (c : ParsedCommand) :
    (∃ entry, (executeInline dispatchers env opts s c).appended = s.appended ++ [entry]) ↔
      c.toOwned.isWrite = true := by
  have appended := (executeInline_dispatchLogged env opts logs s c).2
  rw [show (executeInline dispatchers env opts s c).appended = _ from appended, appends_iff]
  rfl

/-- An inline command is logged whatever came of it: rightly if it did not fail. -/
theorem inline_loggedRightly_iff (c : ParsedCommand) :
    LoggedRightly s (executeInline dispatchers env opts s c) c.toOwned ↔
      ¬ Fails (clockOf env s) s.engine c.toOwned := by
  constructor
  · intro right fails
    have written : ∃ entry, (executeInline dispatchers env opts s c).appended = s.appended ++ [entry] :=
      (inline_logged_iff logs c).2 (fails_isWrite fails)
    exact (right.logged.1 written).2 ((replyOf_inline c).2 fails)
  · intro succeeds
    have noError : ¬ IsError (replyOf s (executeInline dispatchers env opts s c)) := fun failed =>
      succeeds ((replyOf_inline c).1 failed)
    refine ⟨?_, fun failed => absurd failed noError⟩
    rw [inline_logged_iff logs c]
    exact ⟨fun write => ⟨write, noError⟩, fun both => both.1⟩

theorem resp_loggedRightly {c : Command} (whole : ¬ TearsMset s.engine c) :
    LoggedRightly s (executeResp dispatchers env opts s c) c := by
  refine ⟨?_, fun failed => resp_unchanged failed whole⟩
  rw [resp_logged_iff logs c, replyOf_resp c]

end Logged

/-- With the log on, an inline command is logged rightly exactly when it comes back and
does not fail, and a RESP command, if it comes back, when it is no MSET that fails
behind overwritten pairs. -/
theorem logsWrites_iff (env : Nat → Env) (opts : Options) (logs : opts.aof = true)
    (s : Session DashMapEngine) :
    (∀ c : ParsedCommand, LogsWrites env opts s (.inline c) ↔
      Returns (clockOf env s) s.engine c.toOwned ∧ ¬ Fails (clockOf env s) s.engine c.toOwned) ∧
      ∀ c : Command, (LogsWrites env opts s (.resp c) → Returns (clockOf env s) s.engine c) ∧
        (Returns (clockOf env s) s.engine c → ¬ TearsMset s.engine c → LogsWrites env opts s (.resp c)) := by
  refine ⟨fun c => ?_, fun c => ⟨fun right => ?_, fun comes whole => ?_⟩⟩
  · rw [logsWrites_guarded (executeArrival_inline_guards env opts s c)]
    exact and_congr_right fun _ => inline_loggedRightly_iff logs c
  · exact ((logsWrites_guarded (executeArrival_resp_guards env opts s c)).1 right).1
  · exact (logsWrites_guarded (executeArrival_resp_guards env opts s c)).2 ⟨comes, resp_loggedRightly logs whole⟩

/-- A key that holds text. -/
def textEngine : DashMapEngine := DashMapEngine.new.insert (ascii "k") (ValueEntry.new 0 (ascii "x"))

theorem textEngine_refuses : Fails 5 textEngine (.incr (ascii "k")) :=
  .inl ⟨_, Finmap.lookup_insert _, rfl, by decide⟩

/-- A clock at 5. -/
noncomputable def clockFive : Nat → Env := fun _ => ⟨Iter.some, .new, 5⟩

theorem logsWrites_text_key :
    (⟨true, false⟩ : Options).aof = true ∧
      LogsWrites clockFive ⟨true, false⟩ (.start textEngine) (.resp (.incr (ascii "k"))) ∧
      LogsWrites clockFive ⟨true, false⟩ (.start textEngine) (.inline (.del (ascii "k"))) := by
  obtain ⟨inlineCommands, respCommands⟩ := logsWrites_iff clockFive ⟨true, false⟩ rfl (.start textEngine)
  have unlimited : ¬ Waits textEngine (.incr (ascii "k")) := fun waits => absurd waits.1 (by decide)
  exact ⟨rfl, (respCommands _).2 ⟨unlimited, trivial⟩ id, (inlineCommands _).2 ⟨⟨id, trivial⟩, id⟩⟩

/-- Two entries under a limit of one. -/
def crowded : DashMapEngine :=
  ((DashMapEngine.withMaxKeys 1).insert (ascii "a") (ValueEntry.new 0 (ascii "1"))).insert (ascii "b")
    (ValueEntry.new 0 (ascii "1"))

/-- Both keys of `crowded` overwritten. -/
def overwritten : DashMapEngine :=
  (crowded.insert (ascii "a") (ValueEntry.new 5 (ascii "2"))).insert (ascii "b")
    (ValueEntry.new 5 (ascii "2"))

theorem lookup_two (e : DashMapEngine) (v : ValueEntry) (k : Key) :
    ((e.insert (ascii "a") v).insert (ascii "b") v).map.lookup k =
      if k = ascii "a" ∨ k = ascii "b" then some v else e.map.lookup k := by
  by_cases second : k = ascii "b"
  · rw [if_pos (.inr second), second]
    exact Finmap.lookup_insert _
  · rw [DashMapEngine.insert, Finmap.lookup_insert_of_ne _ second]
    by_cases first : k = ascii "a"
    · rw [if_pos (.inl first), first]
      exact Finmap.lookup_insert _
    · rw [if_neg (not_or.2 ⟨first, second⟩)]
      exact Finmap.lookup_insert_of_ne _ first

theorem crowded_overLimit : OverLimit crowded := by
  refine ⟨by decide, ?_⟩
  have second : (((DashMapEngine.withMaxKeys 1).insert (ascii "a") (ValueEntry.new 0 (ascii "1"))).map.lookup
      (ascii "b")) = none := Finmap.lookup_insert_of_ne _ (by decide)
  have two : crowded.len = 2 := by
    rw [crowded, len_insert_new second, len_insert_new rfl]
    rfl
  rw [two]
  decide

theorem overwritten_lookup {k : Key} (written : k = ascii "a" ∨ k = ascii "b") :
    overwritten.map.lookup k = some (ValueEntry.new 5 (ascii "2")) := by
  rw [overwritten, lookup_two, if_pos written]

/-- Whatever is evicted for the third key, one of the first two stays overwritten. -/
theorem crowded_mset (iter : Iter) :
    ∃ k, (k = ascii "a" ∨ k = ascii "b") ∧ (msetLoop iter 5 crowded
      [(ascii "a", ascii "2"), (ascii "b", ascii "2"), (ascii "c", ascii "2")]).2.map.lookup k =
        some (ValueEntry.new 5 (ascii "2")) := by
  have first : (crowded.map.lookup (ascii "a")).isSome = true := by
    rw [crowded, lookup_two, if_pos (.inl rfl)]
    rfl
  have second : ((crowded.insert (ascii "a") (ValueEntry.new 5 (ascii "2"))).map.lookup
      (ascii "b")).isSome = true := by
    rw [DashMapEngine.insert, Finmap.lookup_insert_of_ne _ (by decide), crowded, lookup_two, if_pos (.inr rfl)]
    rfl
  have third : overwritten.map.lookup (ascii "c") = none := by
    rw [overwritten, lookup_two, if_neg (by decide), crowded, lookup_two, if_neg (by decide)]
    rfl
  have excess : OverLimit overwritten := by
    refine ⟨by decide, ?_⟩
    rw [overwritten, len_insert_held second, len_insert_held first]
    exact crowded_overLimit.2
  have noRoom : NoRoom 5 overwritten (ascii "c") := ⟨third, .inl excess⟩
  have refused := set_noRoom iter noRoom (ValueEntry.new 5 (ascii "2"))
  have stores : (msetLoop iter 5 crowded
      [(ascii "a", ascii "2"), (ascii "b", ascii "2"), (ascii "c", ascii "2")]).2 =
        (overwritten.set iter 5 (ascii "c") (ValueEntry.new 5 (ascii "2"))).2 := by
    rcases called : overwritten.set iter 5 (ascii "c") (ValueEntry.new 5 (ascii "2")) with ⟨result, after⟩
    rw [called] at refused
    cases refused.1
    rw [overwritten] at called
    simp only [msetLoop, set_room (.inr (.inl first)), set_room (.inr (.inl second)), called]
  rw [stores]
  rcases set_full iter 5 excess.1 third (Nat.le_of_lt excess.2) (ValueEntry.new 5 (ascii "2")) with
    ⟨k, w, live, -, evicted⟩ | ⟨-, same⟩
  · have smaller : (overwritten.remove k).len + 1 = overwritten.len := len_remove_held (live_held live)
    rw [evicted, if_pos (by have := excess.2; omega)]
    have stays {x : Key} (written : x = ascii "a" ∨ x = ascii "b") (other : x ≠ k) :
        (overwritten.remove k).map.lookup x = some (ValueEntry.new 5 (ascii "2")) := by
      rw [DashMapEngine.remove, Finmap.lookup_erase_ne other]
      exact overwritten_lookup written
    by_cases gone : k = ascii "a"
    · exact ⟨ascii "b", .inr rfl, stays (.inr rfl) (by rw [gone]; decide)⟩
    · exact ⟨ascii "a", .inl rfl, stays (.inl rfl) (Ne.symm gone)⟩
  · rw [same]
    exact ⟨ascii "a", .inl rfl, overwritten_lookup (.inl rfl)⟩

/-- INCR of text arrives inline, is refused and is logged; an MSET over the limit
arrives in RESP, overwrites a key, and is refused and not logged; an INCR of a new key
under a limit is neither answered nor logged. -/
theorem log_differs_from_writes :
    ¬ LogsWrites clockFive ⟨true, false⟩ (.start textEngine) (.inline (.incr (ascii "k"))) ∧
      ¬ LogsWrites clockFive ⟨true, false⟩ (.start crowded)
        (.resp (.mset [(ascii "a", ascii "2"), (ascii "b", ascii "2"), (ascii "c", ascii "2")])) ∧
      executeArrival clockFive ⟨true, false⟩ (.start (.withMaxKeys 3)) (.resp (.incr (ascii "k"))) = none := by
  refine ⟨fun right => ?_, fun right => ?_, ?_⟩
  · have both :=
      (logsWrites_guarded (executeArrival_inline_guards clockFive ⟨true, false⟩ (.start textEngine) _)).1 right
    exact (inline_loggedRightly_iff rfl _).1 both.2 textEngine_refuses
  · have missing : crowded.map.lookup (ascii "c") = none := by
      rw [crowded, lookup_two, if_neg (by decide)]
      rfl
    have fails : Fails 5 crowded
        (.mset [(ascii "a", ascii "2"), (ascii "b", ascii "2"), (ascii "c", ascii "2")]) :=
      .inr ⟨crowded_overLimit, (ascii "c", ascii "2"), by simp, missing⟩
    have both :=
      (logsWrites_guarded (executeArrival_resp_guards clockFive ⟨true, false⟩ (.start crowded) _)).1 right
    have failed := both.2.unchanged ((replyOf_resp _).2 fails)
    obtain ⟨k, written, held⟩ := crowded_mset (clockFive 0).iter
    have before := failed k _ (by
      show (exec _ _ _ _ (.mset _)).map.lookup k = _
      rw [exec_mset]
      exact held)
    have old : crowded.map.lookup k = some (ValueEntry.new 0 (ascii "1")) := by
      rw [crowded, lookup_two, if_pos written]
    exact absurd (old.symm.trans before) (by decide)
  · have waits : Waits (DashMapEngine.withMaxKeys 3) (.incr (ascii "k")) := ⟨by decide, rfl⟩
    exact (executeArrival_resp_guards _ _ _ _).beyond fun comes => comes.1 waits

end ZetDb.Server
