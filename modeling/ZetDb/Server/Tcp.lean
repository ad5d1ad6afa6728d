/-
# Server.Tcp -- the accept loop and its count of connections

Embeds `run_server_with_listener` of `server/tcp.rs`.  The accept loop reads
`active_conns`, refuses or counts the connection, and spawns its session as a task;
the task decrements the count when `handle_session` has returned.  Tasks run on
their own, so what they do is interleaved with the loop: the labels of a run are
the loop's steps and the steps of the tasks.

A session that panics ends its task before the decrement, and `tokio::spawn` keeps
the panic to the task.  So the count is that of the live sessions and of the
panicked ones (`Counted`), and `limitsSessions_iff` holds: it is the number of live
sessions exactly in the runs in which no session panics.  Each panic takes a slot
for good.
-/
import ZetDb.Server.Progress
import ZetDb.Theory.Runs

namespace ZetDb.Server

set_option autoImplicit false

open ZetDb.Storage (Iter)

/-- A session task.  `returned`: `handle_session` is done, the decrement is still to come. -/
inductive Task where
  | serving
  | returned
  | ended
  | panicked
  deriving DecidableEq, Repr

/-- Where the accept loop stands.  `admitted`: the limit is checked; `counted`: the
count is incremented, and the task is not spawned yet. -/
inductive Phase where
  | accepting
  | refusing
  | admitted
  | counted
  | draining
  | stopped
  deriving DecidableEq, Repr

structure Listener where
  phase : Phase
  activeConns : Nat
  tasks : List Task
  deriving DecidableEq, Repr

def Listener.start : Listener := ⟨.accepting, 0, []⟩

inductive TcpStep where
  /-- A connection is accepted, and the limit is checked. -/
  | accept
  /-- `listener.accept()` fails, which ends the server. -/
  | acceptFails
  /-- The error line of a refused connection is written. -/
  | refused
  | fetchAdd
  | spawn
  | sessionReturns (task : Nat)
  | fetchSub (task : Nat)
  | sessionPanics (task : Nat)
  | shutdown
  /-- One look of the drain loop, after the timeout or before. -/
  | poll (timedOut : Bool)
  deriving DecidableEq, Repr

def TcpStep.isPanic : TcpStep → Bool
  | .sessionPanics _ => true
  | _ => false

/-- One task goes from one state to another. -/
def Listener.moveTask (s : Listener) (task : Nat) (old new : Task) : Option Listener :=
  if s.tasks[task]? = some old then some { s with tasks := s.tasks.set task new } else none

def tcpStep (maxConns : Nat) (s : Listener) : TcpStep → Option Listener
  | .accept =>
      if s.phase = .accepting then
        if maxConns > 0 ∧ s.activeConns ≥ maxConns then some { s with phase := .refusing }
        else some { s with phase := .admitted }
      else none
  | .acceptFails => if s.phase = .accepting then some { s with phase := .stopped } else none
  | .refused => if s.phase = .refusing then some { s with phase := .accepting } else none
  | .fetchAdd =>
      if s.phase = .admitted then some { s with phase := .counted, activeConns := s.activeConns + 1 }
      else none
  | .spawn =>
      if s.phase = .counted then some { s with phase := .accepting, tasks := s.tasks ++ [.serving] }
      else none
  | .sessionReturns task => s.moveTask task .serving .returned
  | .fetchSub task =>
      (s.moveTask task .returned .ended).map fun s => { s with activeConns := s.activeConns - 1 }
  | .sessionPanics task => s.moveTask task .serving .panicked
  | .shutdown => if s.phase = .accepting then some { s with phase := .draining } else none
  | .poll timedOut =>
      if s.phase = .draining then
        if s.activeConns = 0 ∨ timedOut then some { s with phase := .stopped } else some s
      else none

def Task.isLive : Task → Bool
  | .serving | .returned => true
  | _ => false

def Task.isPanicked : Task → Bool
  | .panicked => true
  | _ => false

namespace Listener

/-- The session tasks that are running. -/
def running (s : Listener) : Nat := s.tasks.countP Task.isLive

/-- A connection is counted and its task not yet spawned. -/
def pending (s : Listener) : Nat := if s.phase = .counted then 1 else 0

def panicked (s : Listener) : Nat := s.tasks.countP Task.isPanicked

end Listener

/-- The count is that of the sessions, they keep to the limit, and a connection is
refused only where they fill it. -/
structure LimitsSessions (maxConns : Nat) (s : Listener) : Prop where
  counts : s.activeConns = s.running + s.pending
  bounded : 0 < maxConns → s.running + s.pending ≤ maxConns
  refuses : ∀ s', tcpStep maxConns s .accept = some s' → s'.phase = .refusing → s.running = maxConns

/-- What holds in every run. -/
structure Counted (maxConns : Nat) (s : Listener) : Prop where
  counts : s.activeConns = s.running + s.pending + s.panicked
  bounded : 0 < maxConns → s.activeConns ≤ maxConns
  room : s.phase = .admitted → 0 < maxConns → s.activeConns < maxConns

section Run

variable {maxConns : Nat} {s s' : Listener}

theorem counted_start (maxConns : Nat) : Counted maxConns .start :=
  ⟨rfl, fun _ => Nat.zero_le _, nofun⟩

theorem moveTask_cases {task : Nat} {old new : Task} (moved : s.moveTask task old new = some s') :
    s.tasks[task]? = some old ∧ s' = { s with tasks := s.tasks.set task new } := by
  obtain ⟨here, same⟩ := Option.ite_none_right_eq_some.1 moved
  exact ⟨here, (Option.some.inj same).symm⟩

/-- A predicate on tasks is counted once less for the old state and once more for the new. -/
theorem countP_moved {tasks : List Task} {i : Nat} {old : Task} (here : tasks[i]? = some old)
    (p : Task → Bool) (new : Task) :
    (tasks.set i new).countP p + (p old).toNat = tasks.countP p + (p new).toNat := by
  obtain ⟨inside, same⟩ := List.getElem?_eq_some_iff.1 here
  have positive : p old = true → 0 < tasks.countP p := fun holds =>
    List.countP_pos_iff.2 ⟨old, List.mem_of_getElem? here, holds⟩
  rw [List.countP_set inside, same]
  cases before : p old with
  | false => cases p new <;> rfl
  | true =>
      have one := positive before
      cases p new <;>
        simp only [if_true, Bool.toNat_true, Bool.toNat_false, Bool.false_eq_true, if_false] <;> omega

/-- What a task's step does to the counts. -/
theorem moved_counts {task : Nat} {old new : Task} (moved : s.moveTask task old new = some s') :
    s'.phase = s.phase ∧ s'.activeConns = s.activeConns ∧ s'.pending = s.pending ∧
      s'.running + old.isLive.toNat = s.running + new.isLive.toNat ∧
      s'.panicked + old.isPanicked.toNat = s.panicked + new.isPanicked.toNat := by
  obtain ⟨here, rfl⟩ := moveTask_cases moved
  exact ⟨rfl, rfl, rfl, countP_moved here Task.isLive new, countP_moved here Task.isPanicked new⟩

/-- The loop goes on, and no connection is between the count and its task. -/
theorem Counted.enter (counted : Counted maxConns s) {phase : Phase} (here : s.phase ≠ .counted)
    (there : phase ≠ .counted)
    (room : phase = .admitted → 0 < maxConns → s.activeConns < maxConns) :
    Counted maxConns { s with phase := phase } := by
  have before : s.pending = 0 := if_neg here
  have after : ({ s with phase := phase } : Listener).pending = 0 := if_neg there
  refine ⟨?_, counted.bounded, room⟩
  have counts := counted.counts
  rw [before] at counts
  rw [after]
  exact counts

/-- A session that is served ends in some way, and keeps its part of the count. -/
theorem Counted.served (counted : Counted maxConns s) {task : Nat} {new : Task}
    (moved : s.moveTask task .serving new = some s')
    (keeps : new.isLive.toNat + new.isPanicked.toNat = 1) :
    Counted maxConns s' ∧ s'.panicked = s.panicked + new.isPanicked.toNat := by
  have counts := counted.counts
  obtain ⟨phase, active, pending, live, dead⟩ := moved_counts moved
  have serving : Task.serving.isLive.toNat = 1 := rfl
  have calm : Task.serving.isPanicked.toNat = 0 := rfl
  refine ⟨⟨by omega, ?_, ?_⟩, by omega⟩
  · intro limited
    rw [active]
    exact counted.bounded limited
  · intro admitted
    rw [active]
    exact counted.room (phase ▸ admitted)

/-- One step keeps the counts, and only a panic adds to the panicked. -/
theorem Counted.step (counted : Counted maxConns s) {l : TcpStep} (taken : tcpStep maxConns s l = some s') :
    Counted maxConns s' ∧ s'.panicked = s.panicked + l.isPanic.toNat := by
  have counts := counted.counts
  have bounded := counted.bounded
  cases l with
  | accept =>
      obtain ⟨accepting, checked⟩ := Option.ite_none_right_eq_some.1 taken
      have here : s.phase ≠ .counted := by rw [accepting]; decide
      split at checked
      · cases checked
        exact ⟨counted.enter here (by decide) nofun, rfl⟩
      · rename_i below
        cases checked
        refine ⟨counted.enter here (by decide) ?_, rfl⟩
        intro _ limited
        omega
  | acceptFails =>
      obtain ⟨accepting, ⟨⟩⟩ := Option.ite_none_right_eq_some.1 taken
      exact ⟨counted.enter (by rw [accepting]; decide) (by decide) nofun, rfl⟩
  | refused =>
      obtain ⟨refusing, ⟨⟩⟩ := Option.ite_none_right_eq_some.1 taken
      exact ⟨counted.enter (by rw [refusing]; decide) (by decide) nofun, rfl⟩
  | fetchAdd =>
      obtain ⟨admitted, ⟨⟩⟩ := Option.ite_none_right_eq_some.1 taken
      have before : s.pending = 0 := if_neg (by rw [admitted]; decide)
      refine ⟨⟨?_, ?_, nofun⟩, rfl⟩
      · show s.activeConns + 1 = s.running + 1 + s.panicked
        omega
      · intro limited
        have below := counted.room admitted limited
        show s.activeConns + 1 ≤ maxConns
        omega
  | spawn =>
      obtain ⟨waits, ⟨⟩⟩ := Option.ite_none_right_eq_some.1 taken
      have before : s.pending = 1 := if_pos waits
      have live : (s.tasks ++ [Task.serving]).countP Task.isLive = s.running + 1 := List.countP_append
      have dead : (s.tasks ++ [Task.serving]).countP Task.isPanicked = s.panicked := List.countP_append
      refine ⟨⟨?_, bounded, nofun⟩, dead⟩
      show s.activeConns = (s.tasks ++ [Task.serving]).countP Task.isLive + 0 +
        (s.tasks ++ [Task.serving]).countP Task.isPanicked
      omega
  | sessionReturns task => exact counted.served taken rfl
  | fetchSub task =>
      simp only [tcpStep] at taken
      obtain ⟨mid, moved, rfl⟩ := Option.map_eq_some_iff.1 taken
      obtain ⟨phase, active, pending, live, dead⟩ := moved_counts moved
      simp only [Task.isLive, Task.isPanicked, Bool.toNat_true, Bool.toNat_false] at live dead
      refine ⟨⟨?_, ?_, ?_⟩, dead⟩
      · show mid.activeConns - 1 = mid.running + mid.pending + mid.panicked
        omega
      · intro limited
        have before := bounded limited
        show mid.activeConns - 1 ≤ maxConns
        omega
      · intro admitted limited
        have before := counted.room (phase ▸ admitted) limited
        show mid.activeConns - 1 < maxConns
        omega
  | sessionPanics task => exact counted.served taken rfl
  | shutdown =>
      obtain ⟨accepting, ⟨⟩⟩ := Option.ite_none_right_eq_some.1 taken
      exact ⟨counted.enter (by rw [accepting]; decide) (by decide) nofun, rfl⟩
  | poll timedOut =>
      obtain ⟨draining, looked⟩ := Option.ite_none_right_eq_some.1 taken
      split at looked
      · cases looked
        exact ⟨counted.enter (by rw [draining]; decide) (by decide) nofun, rfl⟩
      · cases looked
        exact ⟨counted, rfl⟩

/-- Over a run the panicked tasks are the panics of its labels. -/
theorem Counted.run {labels : List TcpStep} (counted : Counted maxConns s)
    (reached : Theory.Runs.run (tcpStep maxConns) s labels = some s') :
    Counted maxConns s' ∧ s'.panicked = s.panicked + labels.countP TcpStep.isPanic := by
  induction labels generalizing s with
  | nil =>
      cases reached
      exact ⟨counted, rfl⟩
  | cons l labels ih =>
      obtain ⟨mid, first, rest⟩ := Option.bind_eq_some_iff.1 reached
      obtain ⟨next, grown⟩ := counted.step first
      obtain ⟨last, total⟩ := ih next rest
      refine ⟨last, ?_⟩
      rw [total, grown, List.countP_cons]
      cases l.isPanic with
      | true => simp only [Bool.toNat_true, if_true]; omega
      | false => rfl

/-- With the true count the limit is that of the sessions. -/
theorem Counted.limits_iff (counted : Counted maxConns s) :
    LimitsSessions maxConns s ↔ s.panicked = 0 := by
  obtain ⟨counts, bounded, room⟩ := counted
  constructor
  · intro limits
    have live := limits.counts
    omega
  · intro none
    refine ⟨by omega, ?_, ?_⟩
    · intro limited
      have most := bounded limited
      omega
    · intro s' taken refusing
      obtain ⟨accepting, checked⟩ := Option.ite_none_right_eq_some.1 taken
      have before : s.pending = 0 := if_neg (by rw [accepting]; decide)
      split at checked
      · rename_i full
        have most := bounded full.1
        omega
      · cases checked
        cases refusing

end Run

/-- In every run the limit counts the live sessions exactly as long as no session panics. -/
theorem limitsSessions_iff (maxConns : Nat) (labels : List TcpStep) (s : Listener)
    (reached : Theory.Runs.run (tcpStep maxConns) .start labels = some s) :
    LimitsSessions maxConns s ↔ ∀ l ∈ labels, l.isPanic = false := by
  obtain ⟨counted, total⟩ := (counted_start maxConns).run reached
  have none : Listener.start.panicked = 0 := rfl
  rw [counted.limits_iff, total, none, Nat.zero_add, List.countP_eq_zero]
  simp

/-- One session comes and goes. -/
def visit : List TcpStep := [.accept, .fetchAdd, .spawn, .sessionReturns 0, .fetchSub 0, .accept]

theorem limitsSessions_one_visit :
    Theory.Runs.run (tcpStep 1) .start visit = some ⟨.admitted, 0, [.ended]⟩ ∧
      LimitsSessions 1 ⟨.admitted, 0, [.ended]⟩ := by
  have reached : Theory.Runs.run (tcpStep 1) .start visit = some ⟨.admitted, 0, [.ended]⟩ := by decide
  exact ⟨reached, (limitsSessions_iff 1 visit _ reached).2 (by decide)⟩

/-- A client sends a line feed and its session panics; the next connection is
refused by a server in which no session runs. -/
theorem panic_takes_slot :
    (process dispatchers (fun k => ⟨Iter.some, .new, k⟩) ⟨true, true⟩ (received [10])).status = .panicked ∧
      Theory.Runs.run (tcpStep 1) .start [.accept, .fetchAdd, .spawn, .sessionPanics 0, .accept] =
        some ⟨.refusing, 1, [.panicked]⟩ ∧
      Listener.running ⟨.refusing, 1, [.panicked]⟩ = 0 ∧
      ¬ LimitsSessions 1 ⟨.refusing, 1, [.panicked]⟩ := by
  refine ⟨?_, by decide, by decide, fun limits => ?_⟩
  · rw [process_lone_lf dispatchers _ _ rfl]
  · exact absurd limits.counts (by decide)

end ZetDb.Server
