/-
# Server.Logging -- sessions that execute and log, and the rewriter

Sessions share one engine and one log.  For every write command a session first
dispatches on the engine and later appends the entry: two atomic steps with no
common lock, so other sessions' steps may come between.  The rewriter dumps the
engine into a tmp file (`rewrite_aof`) and later renames it over the log
(`finalize_rewrite`), again with anything in between.

The state keeps the commands that are executed and not yet appended (`pending`),
in execution order.  The log agrees with the engine when nothing is pending
(`LogAgrees`) as long as no entry overtakes one it does not commute with, no
command executed after a dump is appended before the rename, and no command
executed before a dump is left to be appended after it:

* `log_agrees_without_rewrite`: sessions only;
* `log_agrees_with_rewrite`: sessions and the rewriter.

Appends are exactly-once here, which the writer keeps as long as no entry fills its
batch (`Storage.AofWriterLog`).
-/
import ZetDb.Storage.Dump
import ZetDb.Server.Session

namespace ZetDb.Server

set_option autoImplicit false

open ZetDb.Theory.Wire ZetDb.Theory.Text ZetDb.Theory.Replay ZetDb.Domain ZetDb.Application
  ZetDb.Storage
open ZetDb.Theory.Runs (Along)

/-- An executed write command whose entry is not appended yet. -/
structure Pending where
  session : Nat
  command : Command
  /-- It was executed before the outstanding dump. -/
  dumped : Bool

/-- The tmp file of a rewrite that is not finalized, and the engine it was dumped from. -/
structure Rewrite where
  bytes : Bytes
  source : DashMapEngine

structure Shared where
  engine : DashMapEngine
  file : Bytes
  batch : Bytes
  pending : List Pending
  rewrite : Option Rewrite

namespace Shared

def init : Shared := ⟨.new, [], [], [], none⟩

end Shared

inductive Step where
  /-- A session reads a command, from a RESP frame or from an inline line, and dispatches it. -/
  | execute (env : Env) (session : Nat) (isResp : Bool) (c : Command)
  /-- The session appends the entry of the write it executed. -/
  | append (session : Nat)
  /-- The batch is written to the file. -/
  | flush
  /-- `rewrite_aof`. -/
  | dump (env : Env)
  /-- `finalize_rewrite`: flush the batch to the old file, rename, reopen. -/
  | finalize

/-- Dispatch, and whether the session logs the command: the RESP loop logs
successful writes only, the inline loop every write. -/
def dispatchLogged (env : Env) (isResp : Bool) (e : DashMapEngine) (c : Command) :
    Bool × DashMapEngine :=
  if isResp then
    let (response, e) := dispatch env.iter env.metrics env.now e c
    (c.isWrite && response.isSuccess, e)
  else
    let (_, e) := dispatchToBuffer env.iter env.metrics env.now e false c
    (c.isWrite, e)

/-- A session with the log on does what `dispatchLogged` says, in either loop. -/
theorem executeResp_dispatchLogged (env : Nat → Env) (opts : Options) (logs : opts.aof = true)
    (s : Session DashMapEngine) (c : Command) :
    let logged := dispatchLogged (env s.dispatched.length) true s.engine c
    let t := executeResp dispatchers env opts s c
    t.engine = logged.2 ∧ t.appended = s.appended ++ if logged.1 then [c.aofBytes] else [] := by
  refine ⟨rfl, ?_⟩
  cases c <;>
    simp [executeResp, dispatchers, dispatchLogged, aofEntry, logs, Command.isWrite,
      Command.toAofEntry, Command.aofBytes]

theorem executeInline_dispatchLogged (env : Nat → Env) (opts : Options) (logs : opts.aof = true)
    (s : Session DashMapEngine) (c : ParsedCommand) :
    let logged := dispatchLogged (env s.dispatched.length) false s.engine c.toOwned
    let t := executeInline dispatchers env opts s c
    t.engine = logged.2 ∧
      t.appended = s.appended ++ if logged.1 then [c.toOwned.aofBytes] else [] := by
  refine ⟨rfl, ?_⟩
  cases c <;>
    simp [executeInline, dispatchers, dispatchLogged, aofEntry, logs, Command.isWrite,
      Command.toAofEntry, Command.aofBytes, ParsedCommand.toOwned, ParsedCommand.isWrite,
      ParsedCommand.toAofEntry]

def step (s : Shared) : Step → Option Shared
  | .execute env session isResp c =>
      if s.pending.any (·.session == session) then none
      else
        let (logged, engine) := dispatchLogged env isResp s.engine c
        some { s with
          engine := engine
          pending := if logged then s.pending ++ [⟨session, c, false⟩] else s.pending }
  | .append session =>
      match s.pending.find? (·.session == session) with
      | none => none
      | some p => some { s with
          batch := s.batch ++ p.command.aofBytes
          pending := s.pending.eraseP (·.session == session) }
  | .flush => some { s with file := s.file ++ s.batch, batch := [] }
  | .dump env =>
      match s.rewrite with
      | some _ => none
      | none => some { s with
          rewrite := some ⟨rewriteAof env.iter env.now s.engine, s.engine⟩
          pending := s.pending.map fun p => { p with dumped := true } }
  | .finalize =>
      match s.rewrite with
      | none => none
      | some tmp => some { s with file := tmp.bytes, batch := [], rewrite := none }

/-- The state after an interleaving of steps. -/
def run : Shared → List Step → Option Shared := Theory.Runs.run step

/-- Replaying the log into an empty engine gives the contents of the live engine. -/
def LogAgrees (log : Bytes) (live : DashMapEngine) : Prop :=
  ∀ iter now, ∃ e replayed, replayAof iter now (some log) .new = some (e, replayed) ∧
    e.contents = live.contents

/-! ## The conditions on a step -/

/-- The command sets no time to live and, if it is a write, fits the entry format. -/
def Loggable (c : Command) : Prop := Lasting c ∧ (c.isWrite = true → Representable c)

instance : DecidablePred Loggable := fun _ => inferInstanceAs (Decidable (_ ∧ _))

/-- Either order of the two commands leaves the same contents. -/
def Commutes (c d : Command) : Prop := Swaps (apply cell) c d

/-- Executed commands can be logged, and an entry that is appended commutes with
the commands executed before it that are not appended yet. -/
def InOrder (s : Shared) : Step → Prop
  | .execute _ _ _ c => Loggable c
  | .append session => ∀ before p after, s.pending = before ++ p :: after → p.session = session →
      ∀ q ∈ before, Commutes q.command p.command
  | _ => True

def Step.ofSession : Step → Bool
  | .execute .. | .append _ | .flush => true
  | .dump _ | .finalize => false

/-- While a dump is outstanding only commands that it contains are appended; and
when it replaces the log, those still pending would change nothing if they were
executed on the dumped engine again. -/
def RewriteOk (s : Shared) : Step → Prop
  | .append session => s.rewrite.isSome = true → ∀ p ∈ s.pending, p.session = session → p.dumped = true
  | .finalize => ∀ tmp, s.rewrite = some tmp → ∀ p ∈ s.pending, p.dumped = true →
      apply cell tmp.source.contents p.command = tmp.source.contents
  | _ => True

/-! ## The log and the pending commands make up the engine -/

/-- The invariant of the sessions: the engine holds what the logged commands and
then the pending ones make of an empty store. -/
structure Logged (s : Shared) : Prop where
  permanent : Permanent s.engine
  storable : Storable s.engine
  pendingOk : ∀ p ∈ s.pending, Representable p.command ∧ Lasting p.command
  log : ∃ cs, s.file ++ s.batch = logBytes cs ∧ (∀ c ∈ cs, Representable c ∧ Lasting c) ∧
    s.engine.contents = replay (replay (fun _ => none) cs) (s.pending.map (·.command))

theorem logged_init : Logged .init :=
  ⟨permanent_new, storable_new, by simp [Shared.init], [], rfl, by simp, rfl⟩

/-- With nothing pending the log agrees with the engine. -/
theorem Logged.agrees {s : Shared} (good : Logged s) (idle : s.pending = []) :
    LogAgrees (s.file ++ s.batch) s.engine := by
  intro iter now
  obtain ⟨cs, bytes, ok, same⟩ := good.log
  rw [idle] at same
  refine ⟨_, _, by rw [bytes]; exact replayAof_log iter .new now (fun c inside => (ok c inside).1) rfl, ?_⟩
  rw [execAll_contents iter .new now permanent_new fun c inside => (ok c inside).2, same]
  rfl

section Steps

variable {s s' : Shared}

/-- What a dispatch does: the contents change as `cell` says, and a command that is
not logged changed nothing. -/
theorem dispatchLogged_spec (env : Env) (isResp : Bool) {e : DashMapEngine} {c : Command}
    (good : Permanent e) (fits : Storable e) (ok : Loggable c) :
    Permanent (dispatchLogged env isResp e c).2 ∧ Storable (dispatchLogged env isResp e c).2 ∧
      (dispatchLogged env isResp e c).2.contents = apply cell e.contents c ∧
      ((dispatchLogged env isResp e c).1 = true → Representable c) ∧
      ((dispatchLogged env isResp e c).1 = false →
        (dispatchLogged env isResp e c).2.contents = e.contents) := by
  have engine : (dispatchLogged env isResp e c).2 = exec env.iter env.metrics env.now e c := by
    cases isResp
    · exact dispatchToBuffer_engine false c
    · rfl
  rw [engine]
  have stays : c.isWrite = false → exec env.iter env.metrics env.now e c = e := exec_of_read good
  refine ⟨exec_permanent good ok.1, ?_, exec_contents good ok.1, ?_, ?_⟩
  · cases write : c.isWrite with
    | true => exact exec_storable fits (ok.2 write)
    | false => rw [stays write]; exact fits
  · intro logged
    refine ok.2 ?_
    cases isResp
    · exact logged
    · exact (Bool.and_eq_true_iff.1 logged).1
  · intro unlogged
    cases write : c.isWrite with
    | false => rw [stays write]
    | true =>
        cases isResp
        · exact absurd (write.symm.trans unlogged) (by decide)
        · have failed : (dispatch env.iter env.metrics env.now e c).1.isSuccess = false := by
            simpa [dispatchLogged, write] using unlogged
          rw [exec_of_failure good ok.1 failed]

/-- Moving an entry from the pending commands to the log keeps what the two make
of the store, if it commutes with the ones it overtakes. -/
theorem replay_append_entry {start : Contents} {cs before after : List Command} {c : Command}
    (commutes : ∀ d ∈ before, Commutes d c) :
    replay (replay start (cs ++ [c])) (before ++ after) =
      replay (replay start cs) (before ++ c :: after) := by
  rw [replay_concat]
  exact (run_move_front (apply cell) commutes (replay start cs)).symm

theorem Logged.execute (good : Logged s) {env : Env} {session : Nat} {isResp : Bool} {c : Command}
    (ok : Loggable c) (next : step s (.execute env session isResp c) = some s') : Logged s' := by
  have spec := dispatchLogged_spec env isResp good.permanent good.storable ok
  obtain ⟨permanent, storable, contents, logs, drops⟩ := spec
  obtain ⟨cs, bytes, logOk, same⟩ := good.log
  simp only [step] at next
  split at next
  · cases next
  cases next
  cases logged : (dispatchLogged env isResp s.engine c).1 with
  | false =>
      refine ⟨permanent, storable, by simpa [logged] using good.pendingOk, cs, bytes, logOk, ?_⟩
      simp only [drops logged, same]
      rfl
  | true =>
      refine ⟨permanent, storable, ?_, cs, bytes, logOk, ?_⟩
      · intro p inside
        simp only [if_true, List.mem_append, List.mem_singleton] at inside
        rcases inside with old | rfl
        · exact good.pendingOk p old
        · exact ⟨logs logged, ok.1⟩
      · simp only [contents, same, if_true, List.map_append, List.map_singleton]
        rw [replay_concat]

/-- What an append does: it takes some pending command, whatever its place. -/
theorem append_cases {session : Nat} (next : step s (.append session) = some s') :
    ∃ before p after, s.pending = before ++ p :: after ∧ p.session = session ∧
      s' = { s with batch := s.batch ++ p.command.aofBytes, pending := before ++ after } := by
  simp only [step] at next
  split at next
  · cases next
  · rename_i p found
    cases next
    obtain ⟨mine, before, after, shape, others⟩ := List.find?_eq_some_iff_append.1 found
    refine ⟨before, p, after, shape, by simpa using mine, ?_⟩
    rw [shape, List.eraseP_append_right _ (fun q inside => by simpa using others q inside),
      List.eraseP_cons_of_pos (p := fun q : Pending => q.session == session) mine]

theorem Logged.append (good : Logged s) {session : Nat} (inOrder : InOrder s (.append session))
    (next : step s (.append session) = some s') : Logged s' := by
  obtain ⟨before, p, after, shape, mine, rfl⟩ := append_cases next
  obtain ⟨cs, bytes, logOk, same⟩ := good.log
  have own := good.pendingOk p (by simp [shape])
  refine ⟨good.permanent, good.storable, ?_, cs ++ [p.command], ?_, ?_, ?_⟩
  · intro q inside
    refine good.pendingOk q ?_
    rw [shape]
    rcases List.mem_append.1 inside with early | late
    · simp [early]
    · simp [late]
  · rw [logBytes_append, ← bytes]
    simp [logBytes]
  · intro c inside
    rcases List.mem_append.1 inside with old | new
    · exact logOk c old
    · rw [List.mem_singleton.1 new]
      exact own
  · rw [same, shape, List.map_append, List.map_cons, List.map_append]
    refine (replay_append_entry fun d inside => ?_).symm
    obtain ⟨q, early, rfl⟩ := List.mem_map.1 inside
    exact inOrder before p after shape mine q early

theorem Logged.flush (good : Logged s) (next : step s .flush = some s') : Logged s' := by
  cases next
  obtain ⟨cs, bytes, logOk, same⟩ := good.log
  exact ⟨good.permanent, good.storable, good.pendingOk, cs, by simpa using bytes, logOk, same⟩

/-- The sessions keep their invariant. -/
theorem Logged.keep {st : Step} (good : Logged s) (session : st.ofSession = true)
    (inOrder : InOrder s st) (next : step s st = some s') : Logged s' := by
  cases st with
  | execute env session isResp c => exact good.execute inOrder next
  | append session => exact good.append inOrder next
  | flush => exact good.flush next
  | dump env => cases session
  | finalize => cases session

/-! ## The rewriter -/

/-- The invariant with a rewriter: an outstanding dump and the commands executed
after it, all of them still pending, make up the engine. -/
structure Rewritable (s : Shared) : Prop extends Logged s where
  dump : ∀ tmp, s.rewrite = some tmp → Permanent tmp.source ∧ Storable tmp.source ∧
    (∃ env : Env, tmp.bytes = rewriteAof env.iter env.now tmp.source) ∧
    ∃ old fresh, s.pending = old ++ fresh ∧ (∀ p ∈ old, p.dumped = true) ∧
      (∀ p ∈ fresh, p.dumped = false) ∧
      s.engine.contents = replay tmp.source.contents (fresh.map (·.command))

theorem rewritable_init : Rewritable .init := ⟨logged_init, by simp [Shared.init]⟩

theorem Rewritable.execute (good : Rewritable s) {env : Env} {session : Nat} {isResp : Bool}
    {c : Command} (ok : Loggable c) (next : step s (.execute env session isResp c) = some s') :
    Rewritable s' := by
  refine ⟨good.toLogged.execute ok next, ?_⟩
  have spec := dispatchLogged_spec env isResp good.permanent good.storable ok
  obtain ⟨-, -, contents, -, drops⟩ := spec
  simp only [step] at next
  split at next
  · cases next
  cases next
  intro tmp outstanding
  obtain ⟨permanent, storable, bytes, old, fresh, shape, isOld, isFresh, same⟩ :=
    good.dump tmp outstanding
  cases logged : (dispatchLogged env isResp s.engine c).1 with
  | false =>
      exact ⟨permanent, storable, bytes, old, fresh, shape, isOld, isFresh,
        (drops logged).trans same⟩
  | true =>
      refine ⟨permanent, storable, bytes, old, fresh ++ [⟨session, c, false⟩], ?_, isOld, ?_, ?_⟩
      · simp [shape]
      · intro p inside
        rcases List.mem_append.1 inside with early | new
        · exact isFresh p early
        · rw [List.mem_singleton.1 new]
      · rw [List.map_append, List.map_singleton, replay_concat, ← same]
        exact contents

/-- A split of the pending commands into dumped and fresh ones loses a dumped one. -/
theorem erase_dumped {old fresh before after : List Pending} {p : Pending}
    (shape : old ++ fresh = before ++ p :: after) (isDumped : p.dumped = true)
    (isFresh : ∀ q ∈ fresh, q.dumped = false) :
    ∃ rest, old = before ++ p :: rest ∧ after = rest ++ fresh := by
  rcases List.append_eq_append_iff.1 shape with ⟨more, front, back⟩ | ⟨more, front, back⟩
  · -- the taken command would be a fresh one
    have inside : p ∈ fresh := by
      rw [back]
      simp
    rw [isFresh p inside] at isDumped
    cases isDumped
  · cases more with
    | nil =>
        have inside : p ∈ fresh := by
          rw [List.nil_append] at back
          rw [← back]
          simp
        rw [isFresh p inside] at isDumped
        cases isDumped
    | cons q rest =>
        obtain ⟨rfl, rfl⟩ := List.cons.inj back
        exact ⟨rest, front, rfl⟩

theorem Rewritable.append (good : Rewritable s) {session : Nat}
    (inOrder : InOrder s (.append session)) (ok : RewriteOk s (.append session))
    (next : step s (.append session) = some s') : Rewritable s' := by
  refine ⟨good.toLogged.append inOrder next, ?_⟩
  obtain ⟨before, p, after, taken, mine, rfl⟩ := append_cases next
  intro tmp outstanding
  obtain ⟨permanent, storable, bytes, old, fresh, shape, isOld, isFresh, same⟩ :=
    good.dump tmp outstanding
  have isDumped : p.dumped = true :=
    ok (by simp [show s.rewrite = some tmp from outstanding]) p (by simp [taken]) mine
  obtain ⟨rest, rfl, rfl⟩ := erase_dumped (shape.symm.trans taken) isDumped isFresh
  refine ⟨permanent, storable, bytes, before ++ rest, fresh, by simp, ?_, isFresh, same⟩
  intro q inside
  refine isOld q ?_
  rcases List.mem_append.1 inside with early | late
  · simp [early]
  · simp [late]

theorem Rewritable.flush (good : Rewritable s) (next : step s .flush = some s') : Rewritable s' :=
  ⟨good.toLogged.flush next, by cases next; exact good.dump⟩

theorem Rewritable.dumps (good : Rewritable s) {env : Env} (next : step s (.dump env) = some s') :
    Rewritable s' := by
  simp only [step] at next
  split at next
  · cases next
  cases next
  obtain ⟨cs, bytes, logOk, same⟩ := good.log
  refine ⟨⟨good.permanent, good.storable, ?_, cs, bytes, logOk, ?_⟩, ?_⟩
  · intro p inside
    obtain ⟨q, member, rfl⟩ := List.mem_map.1 inside
    exact good.pendingOk q member
  · simpa [Function.comp_def] using same
  · intro tmp outstanding
    cases outstanding
    refine ⟨good.permanent, good.storable, ⟨env, rfl⟩, _, [], (List.append_nil _).symm, ?_, by simp, rfl⟩
    intro p inside
    obtain ⟨q, -, rfl⟩ := List.mem_map.1 inside
    rfl

/-- Commands that change nothing one by one change nothing in a row. -/
theorem replay_of_fixed {contents : Contents} {cs : List Command}
    (fixed : ∀ c ∈ cs, apply cell contents c = contents) : replay contents cs = contents := by
  induction cs with
  | nil => rfl
  | cons c cs ih =>
      rw [replay, run_cons, fixed c (by simp)]
      exact ih fun d inside => fixed d (by simp [inside])

theorem Rewritable.finalizes (good : Rewritable s) (ok : RewriteOk s .finalize)
    (next : step s .finalize = some s') : Rewritable s' := by
  simp only [step] at next
  split at next
  · cases next
  rename_i tmp outstanding
  cases next
  obtain ⟨permanent, storable, ⟨env, bytes⟩, old, fresh, shape, isOld, -, same⟩ :=
    good.dump tmp outstanding
  refine ⟨⟨good.permanent, good.storable, good.pendingOk,
    (tmp.source.dumpEntries env.iter env.now).map restoring, ?_, restoring_ok permanent storable, ?_⟩, ?_⟩
  · simp [bytes, rewriteAof_eq permanent]
  · have again : replay tmp.source.contents (old.map (·.command)) = tmp.source.contents := by
      refine replay_of_fixed fun c inside => ?_
      obtain ⟨p, member, rfl⟩ := List.mem_map.1 inside
      exact ok tmp outstanding p (by simp [shape, member]) (isOld p member)
    rw [replay_dump permanent]
    simp only [same, shape, List.map_append]
    rw [replay, run_append, ← replay, again]
  · intro other impossible
    cases impossible

/-- Sessions and rewriter keep the invariant. -/
theorem Rewritable.keep {st : Step} (good : Rewritable s) (inOrder : InOrder s st)
    (ok : RewriteOk s st) (next : step s st = some s') : Rewritable s' := by
  cases st with
  | execute env session isResp c => exact good.execute inOrder next
  | append session => exact good.append inOrder ok next
  | flush => exact good.flush next
  | dump env => exact good.dumps next
  | finalize => exact good.finalizes ok next

end Steps

/-! ## Runs -/

/-- Sessions only: in every run whose entries overtake only entries they commute
with, the log agrees with the engine whenever every session is idle. -/
theorem log_agrees_without_rewrite (steps : List Step) (s : Shared)
    (along : Along step (fun s st => st.ofSession = true ∧ InOrder s st) .init steps)
    (reached : run .init steps = some s) (idle : s.pending = []) :
    LogAgrees (s.file ++ s.batch) s.engine :=
  Logged.agrees (Theory.Runs.run_invariant
    (fun _ _ _ good here next => good.keep here.1 here.2 next) logged_init along reached) idle

/-- Sessions and rewriter: in every run that also keeps the two rules of a
rewrite, the file agrees with the engine whenever every session is idle and the
batch is flushed. -/
theorem log_agrees_with_rewrite (steps : List Step) (s : Shared)
    (along : Along step (fun s st => InOrder s st ∧ RewriteOk s st) .init steps)
    (reached : run .init steps = some s) (idle : s.pending = []) (flushed : s.batch = []) :
    LogAgrees s.file s.engine := by
  have good : Rewritable s := Theory.Runs.run_invariant
    (fun _ _ _ good here next => good.keep here.1 here.2 next) rewritable_init along reached
  have agrees := good.toLogged.agrees idle
  rwa [flushed, List.append_nil] at agrees

/-! ## Two clients -/

noncomputable def someEnv : Env := ⟨Iter.some, .new, 0⟩

/-- One client sets `k` to `a`, another sets `other` to `b`, and the entries reach the log
in the opposite order. -/
noncomputable def overtaking (other : Key) : List Step :=
  [.execute someEnv 1 true (.set (ascii "k") (ascii "a") none),
   .execute someEnv 2 false (.set other (ascii "b") none), .append 2, .append 1]

theorem commutes_of_ne {key other : Key} (different : key ≠ other) (value value' : Bytes) :
    Commutes (.set key value none) (.set other value' none) := by
  intro contents
  funext k
  by_cases first : key = k
  · subst first
    simp [apply, cell, Ne.symm different]
  · simp [apply, cell, first]

/-- Pending commands that commute in pairs may be appended in any order. -/
theorem inOrder_of_pairwise {s : Shared}
    (commute : s.pending.Pairwise fun q p => Commutes q.command p.command) (session : Nat) :
    InOrder s (.append session) := by
  intro before p after shape _ q early
  rw [shape] at commute
  exact (List.pairwise_append.1 commute).2.2 q early p (by simp)

/-- Different keys: the overtaking is harmless. -/
theorem log_agrees_without_rewrite_two_keys :
    ∃ s, run .init (overtaking (ascii "j")) = some s ∧ s.pending = [] ∧
      LogAgrees (s.file ++ s.batch) s.engine := by
  refine ⟨_, rfl, rfl, log_agrees_without_rewrite (overtaking (ascii "j")) _ ?_ rfl rfl⟩
  have first : Loggable (.set (ascii "k") (ascii "a") none) := by decide
  have second : Loggable (.set (ascii "j") (ascii "b") none) := by decide
  refine .cons rfl ⟨rfl, first⟩ (.cons rfl ⟨rfl, second⟩ (.cons rfl ⟨rfl, ?_⟩
    (.cons rfl ⟨rfl, ?_⟩ trivial)))
  · refine inOrder_of_pairwise (List.Pairwise.cons ?_ (List.pairwise_singleton _ _)) 2
    intro q inside
    rw [List.mem_singleton.1 inside]
    exact commutes_of_ne (by decide) _ _
  · exact inOrder_of_pairwise (List.pairwise_singleton _ _) 1

/-- The same key: the engine holds `b`, the replayed log gives `a`. -/
theorem log_disagrees_when_overtaken :
    (∀ st ∈ overtaking (ascii "k"), st.ofSession = true) ∧
    ∃ s, run .init (overtaking (ascii "k")) = some s ∧ s.pending = [] ∧
      ¬ LogAgrees (s.file ++ s.batch) s.engine := by
  refine ⟨by simp [overtaking, Step.ofSession], _, rfl, rfl, fun agrees => ?_⟩
  obtain ⟨e, replayed, outcome, same⟩ := agrees Iter.some 0
  have replay := congrArg (Option.map fun r => r.1.contents (ascii "k")) outcome
  simp only [Option.map_some, same] at replay
  exact absurd replay (by decide)

/-! ## A write during a rewrite -/

/-- A client sets `k` around a rewrite: the SET is executed before or after the dump,
and its entry is appended before the rename. -/
noncomputable def rewriting (executedFirst : Bool) : List Step :=
  if executedFirst then
    [.execute someEnv 1 true (.set (ascii "k") (ascii "a") none), .dump someEnv, .append 1,
      .finalize]
  else
    [.dump someEnv, .execute someEnv 1 true (.set (ascii "k") (ascii "a") none), .append 1,
      .finalize]

/-- Executed before the dump: the dump holds the value. -/
theorem log_agrees_with_rewrite_executed_first :
    ∃ s, run .init (rewriting true) = some s ∧ s.pending = [] ∧ s.batch = [] ∧
      LogAgrees s.file s.engine := by
  refine ⟨_, rfl, rfl, rfl, log_agrees_with_rewrite (rewriting true) _ ?_ rfl rfl rfl⟩
  have loggable : Loggable (.set (ascii "k") (ascii "a") none) := by decide
  refine .cons rfl ⟨loggable, trivial⟩ (.cons rfl ⟨trivial, trivial⟩ (.cons rfl ⟨?_, ?_⟩
    (.cons rfl ⟨trivial, ?_⟩ trivial)))
  · exact inOrder_of_pairwise (List.pairwise_singleton _ _) 1
  · intro _ p inside _
    rw [List.mem_singleton.1 inside]
  · intro tmp _ p inside
    cases inside

/-- Executed after the dump: the rename discards the entry. -/
theorem rewrite_loses_a_write :
    ∃ s, run .init (rewriting false) = some s ∧ s.pending = [] ∧ s.batch = [] ∧
      ¬ LogAgrees s.file s.engine := by
  refine ⟨_, rfl, rfl, rfl, fun agrees => ?_⟩
  have empty : rewriteAof Iter.some 0 .new = [] := by
    rw [rewriteAof_eq permanent_new, List.eq_nil_of_length_eq_zero (dumpEntries_length Iter.some 0 permanent_new)]
    rfl
  obtain ⟨e, replayed, outcome, same⟩ := agrees Iter.some 0
  have replay := congrArg (Option.map fun r => r.1.contents (ascii "k")) outcome
  simp only [Option.map_some, same] at replay
  rw [show rewriteAof someEnv.iter someEnv.now Shared.init.engine = [] from empty] at replay
  exact absurd replay (by decide)

end ZetDb.Server
