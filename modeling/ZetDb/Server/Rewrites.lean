/-
# Server.Rewrites -- the log is rewritten while clients go on writing

Embeds `run_aof_rewriter` beside the sessions.  `rewrite_aof` dumps the map into
`{path}.tmp`; `dump_entries` holds the lock of one shard at a time, so the shards are
copied one by one, with anything in between.  `finalize_rewrite` flushes the batch to the
old file and puts the new one in its place.  Whatever was appended to the log since a
shard was copied is gone with the old file.

`rewrite_keeps_key`: after any number of rewrites, finished and failed, the log gives a
key the value it has in the map, if from the copy of the key's shard to the rename none of
its entries was appended, and none was waiting when the shard was copied.  What is
executed in that time does no harm, and neither do the entries of other keys.  An entry is
appended once here, as it is where none fills the writer's batch.
-/
import ZetDb.Server.Lives

namespace ZetDb.Server.Rewrites

set_option autoImplicit false

open ZetDb.Theory.Wire ZetDb.Theory.Text ZetDb.Theory.Replay ZetDb.Domain ZetDb.Application ZetDb.Storage
open ZetDb.Server.Lives (Walk Holds holds_new)
open ZetDb.Theory.Runs (Along run_invariant)

structure Rewriter (S : Type) where
  shared : Shared
  /-- The dump of a rewrite. -/
  walk : Option (Walk S)
  /-- The tmp file, once it is written and synced. -/
  tmp : Option Bytes

def Rewriter.start {S : Type} : Rewriter S := ⟨.init, none, none⟩

inductive Event where
  /-- A step of the sessions. -/
  | work (st : Step)
  /-- The file has reached the threshold, and `dump_entries` reads the clock. -/
  | dump (now : Instant)
  /-- It passes over the next shard. -/
  | visit
  /-- The tmp file is written. -/
  | write (iter : Iter)
  /-- The file system refuses, at the latest the rename; the batch may be flushed then. -/
  | fail
  /-- `finalize_rewrite`: flush the batch to the old file, rename, reopen. -/
  | finalize

/-- The command may change what the key holds. -/
def touches (k : Key) (c : Command) : Bool := rewrites k c || increments k c

section Rewriter

variable {S : Type} [DecidableEq S] (d : Sharding S)

def step (s : Rewriter S) : Event → Option (Rewriter S)
  | .work st =>
      if st.ofSession then (Server.step s.shared st).map fun shared => { s with shared := shared } else none
  | .dump now =>
      match s.walk, s.tmp with
      | none, none => some { s with walk := some ⟨now, d.shards, ∅⟩ }
      | _, _ => none
  | .visit =>
      match s.walk with
      | some ⟨now, x :: left, copied⟩ =>
          some { s with walk := some ⟨now, left, copied ∪ onShard d x s.shared.engine.map⟩ }
      | _ => none
  | .write iter =>
      match s.walk with
      | some ⟨now, [], copied⟩ => some { s with walk := none, tmp := some (rewriteAof iter now ⟨copied, 0⟩) }
      | _ => none
  | .fail => some { s with walk := none, tmp := none }
  | .finalize =>
      match s.tmp with
      | some bytes => some { s with shared := { s.shared with file := bytes, batch := [] }, tmp := none }
      | none => none

def run : Rewriter S → List Event → Option (Rewriter S) := Theory.Runs.run (step d)

/-! ## The conditions on a step -/

/-- Either order of the two commands leaves the key with the same value. -/
def CommutesAt (k : Key) (c d : Command) : Prop := Swaps (fun x c => cell c k x) c d

/-- Executed commands can be logged, and at the key an entry that is appended commutes
with those of commands executed before it that are still to come. -/
def Orderly (k : Key) (s : Rewriter S) : Event → Prop
  | .work (.execute _ _ _ c) => Loggable c
  | .work (.append session) => ∀ before p after, s.shared.pending = before ++ p :: after → p.session = session →
      ∀ q ∈ before, CommutesAt k q.command p.command
  | _ => True

/-- The shard of the key is copied, and the log is not replaced yet. -/
def Copied (k : Key) (s : Rewriter S) : Prop :=
  s.tmp.isSome = true ∨ ∃ w, s.walk = some w ∧ d.shard k ∉ w.left

/-- No entry of the key waits when its shard is copied, and none is appended from then on
to the rename. -/
def Untouched (k : Key) (s : Rewriter S) : Event → Prop
  | .visit => ∀ w left, s.walk = some w → w.left = d.shard k :: left →
      ∀ p ∈ s.shared.pending, touches k p.command = false
  | .work (.append session) => Copied d k s →
      ∀ p ∈ s.shared.pending, p.session = session → touches k p.command = false
  | _ => True

/-! ## One key -/

/-- Before the commands that still wait for their entries, the key had this value. -/
def Leads (k : Key) (s : Shared) (start : Contents) : Prop :=
  s.engine.contents k = replay start (s.pending.map (·.command)) k

section Leads

variable {k : Key} {s s' : Shared} {start : Contents}

theorem cell_of_touches {c : Command} (apart : touches k c = false) (x : Option Bytes) : cell c k x = x := by
  obtain ⟨kept, uncounted⟩ := Bool.or_eq_false_iff.1 apart
  exact congrFun (cell_of_untouched kept uncounted) x

theorem commutesAt_of_touches {c e : Command} (apart : touches k e = false) : CommutesAt k c e := by
  intro x
  show cell e k (cell c k x) = cell c k (cell e k x)
  rw [cell_of_touches apart, cell_of_touches apart]

/-- Commands that touch other keys only. -/
theorem replay_of_touches {cs : List Command} (apart : ∀ c ∈ cs, touches k c = false) (start : Contents) :
    replay start cs k = start k := by
  rw [replay, run_apply]
  induction cs with
  | nil => rfl
  | cons c cs ih =>
      rw [List.foldl_cons, cell_of_touches (apart c List.mem_cons_self)]
      exact ih fun e inside => apart e (List.mem_cons_of_mem c inside)

theorem Leads.congr {other : Contents} (leads : Leads k s start) (same : start k = other k) : Leads k s other :=
  leads.trans (run_congr_at cell same _)

/-- What a dispatch leaves in the state. -/
theorem execute_cases {env : Env} {session : Nat} {isResp : Bool} {c : Command}
    (next : Server.step s (.execute env session isResp c) = some s') :
    s'.engine = (dispatchLogged env isResp s.engine c).2 ∧ s'.file = s.file ∧ s'.batch = s.batch ∧
      s'.pending =
        if (dispatchLogged env isResp s.engine c).1 then s.pending ++ [⟨session, c, false⟩] else s.pending := by
  simp only [Server.step] at next
  split at next
  · cases next
  · cases next
    exact ⟨rfl, rfl, rfl, rfl⟩

/-- Whether it is logged or not, a command that is executed moves on. -/
theorem Leads.execute (leads : Leads k s start) (engine : Holds (fun _ _ => True) s.engine) {env : Env}
    {session : Nat} {isResp : Bool} {c : Command} (ok : Loggable c)
    (next : Server.step s (.execute env session isResp c) = some s') : Leads k s' start := by
  obtain ⟨-, -, contents, -, drops⟩ := dispatchLogged_spec env isResp engine.permanent engine.storable ok
  obtain ⟨dispatched, -, -, waiting⟩ := execute_cases next
  unfold Leads at leads ⊢
  rw [dispatched, waiting]
  cases logged : (dispatchLogged env isResp s.engine c).1 with
  | false =>
      rw [drops logged]
      exact leads
  | true =>
      rw [if_pos rfl, contents, List.map_append, List.map_singleton, replay_concat, apply, apply, leads]

/-- An entry is appended, behind those it does not commute with. -/
theorem Leads.append (leads : Leads k s start) {before after : List Pending} {p : Pending}
    (shape : s.pending = before ++ p :: after) (commutes : ∀ q ∈ before, CommutesAt k q.command p.command)
    (batch : Bytes) :
    Leads k { s with batch := batch, pending := before ++ after } (apply cell start p.command) := by
  have swaps : ∀ c ∈ before.map (·.command), CommutesAt k c p.command := by
    intro c inside
    obtain ⟨q, early, rfl⟩ := List.mem_map.1 inside
    exact commutes q early
  unfold Leads at leads ⊢
  rw [leads, shape, replay, run_apply, run_apply, List.map_append, List.map_append, List.map_cons]
  exact run_move_front (fun x c => cell c k x) swaps (start k)

/-- So is one of another key, which changes nothing. -/
theorem Leads.skip (leads : Leads k s start) {before after : List Pending} {p : Pending}
    (shape : s.pending = before ++ p :: after) (apart : touches k p.command = false) (batch : Bytes) :
    Leads k { s with batch := batch, pending := before ++ after } start :=
  (leads.append shape (fun _ _ => commutesAt_of_touches apart) batch).congr (cell_of_touches apart _)

end Leads

/-! ## What is kept -/

variable (k : Key)

/-- The key's value is that of the log and the commands waiting for their entries, and from
the copy of its shard on, that of the copy and these commands. -/
structure Kept (s : Rewriter S) : Prop where
  engine : Holds (fun _ _ => True) s.shared.engine
  pending : ∀ p ∈ s.shared.pending, Representable p.command ∧ Lasting p.command
  log : ∃ cs, s.shared.file ++ s.shared.batch = logBytes cs ∧ (∀ c ∈ cs, Representable c ∧ Lasting c) ∧
    Leads k s.shared (replay (fun _ => none) cs)
  walk : ∀ w, s.walk = some w → Holds (fun _ _ => True) ⟨w.copied, 0⟩ ∧ w.left.Nodup ∧
    (d.shard k ∈ w.left → w.copied.lookup k = none) ∧
    (d.shard k ∉ w.left → Leads k s.shared (DashMapEngine.mk w.copied 0).contents)
  tmp : ∀ bytes, s.tmp = some bytes → ∃ iter now copied, bytes = rewriteAof iter now ⟨copied, 0⟩ ∧
    Holds (fun _ _ => True) ⟨copied, 0⟩ ∧ Leads k s.shared (DashMapEngine.mk copied 0).contents

set_option linter.unusedSectionVars false

variable {d k} {s s' : Rewriter S}

theorem kept_start : Kept d k (.start : Rewriter S) where
  engine := holds_new
  pending := List.forall_mem_nil _
  log := ⟨[], rfl, List.forall_mem_nil _, rfl⟩
  walk := fun w found => by cases found
  tmp := fun bytes found => by cases found

theorem Kept.execute (kept : Kept d k s) {env : Env} {session : Nat} {isResp : Bool} {c : Command}
    (ok : Loggable c) {shared : Shared} (next : Server.step s.shared (.execute env session isResp c) = some shared) :
    Kept d k { s with shared := shared } := by
  obtain ⟨engine, pending, ⟨cs, bytes, good, leads⟩, walk, tmp⟩ := kept
  have onward {start : Contents} (before : Leads k s.shared start) : Leads k shared start :=
    before.execute engine ok next
  obtain ⟨-, -, -, logs, -⟩ := dispatchLogged_spec env isResp engine.permanent engine.storable ok
  obtain ⟨dispatched, file, batch, waiting⟩ := execute_cases next
  refine ⟨?_, ?_, ⟨cs, ?_, good, onward leads⟩, ?_, ?_⟩
  · rw [dispatched]
    exact engine.dispatch env isResp ok fun _ _ _ => trivial
  · intro p inside
    rw [waiting] at inside
    split at inside
    · rename_i logged
      rcases List.mem_append.1 inside with old | new
      · exact pending p old
      · rw [List.mem_singleton.1 new]
        exact ⟨logs logged, ok.1⟩
    · exact pending p inside
  · rw [file, batch]
    exact bytes
  · intro w found
    obtain ⟨holds, distinct, absent, copied⟩ := walk w found
    exact ⟨holds, distinct, absent, fun visited => onward (copied visited)⟩
  · intro bytes found
    obtain ⟨iter, now, copied, shape, holds, leads⟩ := tmp bytes found
    exact ⟨iter, now, copied, shape, holds, onward leads⟩

theorem Kept.append (kept : Kept d k s) {session : Nat} (orderly : Orderly k s (.work (.append session)))
    (untouched : Untouched d k s (.work (.append session))) {shared : Shared}
    (next : Server.step s.shared (.append session) = some shared) : Kept d k { s with shared := shared } := by
  obtain ⟨before, p, after, shape, mine, rfl⟩ := append_cases next
  obtain ⟨engine, pending, ⟨cs, bytes, good, leads⟩, walk, tmp⟩ := kept
  have inside : p ∈ s.shared.pending := by
    rw [shape]
    exact List.mem_append_right _ List.mem_cons_self
  refine ⟨engine, ?_, ⟨cs ++ [p.command], ?_, ?_, ?_⟩, ?_, ?_⟩
  · intro q member
    apply pending q
    rw [shape]
    rcases List.mem_append.1 member with early | late
    · exact List.mem_append_left _ early
    · exact List.mem_append_right _ (List.mem_cons_of_mem p late)
  · rw [logBytes_append, ← bytes, ← List.append_assoc, logBytes_cons, logBytes_nil, List.append_nil]
  · intro c member
    rcases List.mem_append.1 member with old | new
    · exact good c old
    · rw [List.mem_singleton.1 new]
      exact pending p inside
  · rw [replay_concat]
    exact leads.append shape (orderly before p after shape mine) _
  · intro w found
    obtain ⟨holds, distinct, absent, copied⟩ := walk w found
    refine ⟨holds, distinct, absent, ?_⟩
    intro visited
    exact (copied visited).skip shape (untouched (.inr ⟨w, found, visited⟩) p inside mine) _
  · intro bytes found
    obtain ⟨iter, now, copied, written, holds, leads⟩ := tmp bytes found
    have here : s.tmp.isSome = true := by
      rw [show s.tmp = some bytes from found]
      rfl
    exact ⟨iter, now, copied, written, holds, leads.skip shape (untouched (.inl here) p inside mine) _⟩

/-- The copy of the key's shard has the value of the key. -/
theorem Kept.visit (kept : Kept d k s) (untouched : Untouched d k s .visit) (next : step d s .visit = some s') :
    Kept d k s' := by
  obtain ⟨engine, pending, log, walk, tmp⟩ := kept
  simp only [step] at next
  split at next
  · rename_i now x left copied here
    cases next
    obtain ⟨holds, distinct, absent, leads⟩ := walk _ here
    obtain ⟨once, rest⟩ := List.nodup_cons.1 distinct
    refine ⟨engine, pending, log, ?_, tmp⟩
    rintro w ⟨⟩
    refine ⟨holds.copied engine d x, rest, ?_, ?_⟩
    · intro later
      have other : d.shard k ≠ x := fun same => once (same ▸ later)
      have unseen := absent (List.mem_cons_of_mem x later)
      rw [Finmap.lookup_union_right (Finmap.lookup_eq_none.1 unseen), lookup_onShard, if_neg other]
    · intro visited
      by_cases mine : d.shard k = x
      · have unseen := absent (mine ▸ List.mem_cons_self)
        have waiting := untouched _ left here (by rw [mine])
        have value : (DashMapEngine.mk (copied ∪ onShard d x s.shared.engine.map) 0).contents k =
            s.shared.engine.contents k := by
          unfold DashMapEngine.contents
          rw [Finmap.lookup_union_right (Finmap.lookup_eq_none.1 unseen), lookup_onShard, if_pos mine]
        unfold Leads
        rw [replay_of_touches, value]
        intro c inside
        obtain ⟨p, member, rfl⟩ := List.mem_map.1 inside
        exact waiting p member
      · have before : d.shard k ∉ x :: left := by
          rintro (_ | ⟨_, later⟩)
          · exact mine rfl
          · exact visited later
        refine (leads before).congr ?_
        have outside : (onShard d x s.shared.engine.map).lookup k = none := by
          rw [lookup_onShard, if_neg mine]
        unfold DashMapEngine.contents
        cases old : copied.lookup k with
        | some v => rw [Finmap.lookup_union_left_of_not_in (Finmap.lookup_eq_none.1 outside), old]
        | none => rw [Finmap.lookup_union_right (Finmap.lookup_eq_none.1 old), outside]
  · cases next

/-- The new file is the copy, and the key's entries to come are behind it. -/
theorem Kept.finalize (kept : Kept d k s) (next : step d s .finalize = some s') : Kept d k s' := by
  obtain ⟨engine, pending, -, walk, tmp⟩ := kept
  simp only [step] at next
  split at next
  · rename_i bytes here
    cases next
    obtain ⟨iter, now, copied, rfl, holds, leads⟩ := tmp bytes here
    refine ⟨engine, pending, ⟨((DashMapEngine.mk copied 0).dumpEntries iter now).map restoring, ?_,
      restoring_ok holds.permanent holds.storable, ?_⟩, walk, fun bytes found => by cases found⟩
    · exact (List.append_nil _).trans (rewriteAof_eq holds.permanent)
    · rw [replay_dump holds.permanent]
      exact leads
  · cases next

/-- Every event keeps it. -/
theorem Kept.keep (distinct : d.shards.Nodup) (kept : Kept d k s) {ev : Event} (orderly : Orderly k s ev)
    (untouched : Untouched d k s ev) (next : step d s ev = some s') : Kept d k s' := by
  cases ev with
  | work st =>
      simp only [step] at next
      split at next
      · rename_i session
        obtain ⟨shared, taken, rfl⟩ := Option.map_eq_some_iff.1 next
        cases st with
        | execute env i isResp c => exact kept.execute orderly taken
        | append i => exact kept.append orderly untouched taken
        | flush =>
            cases taken
            obtain ⟨engine, pending, ⟨cs, bytes, good, leads⟩, walk, tmp⟩ := kept
            exact ⟨engine, pending, ⟨cs, by rw [List.append_nil, bytes], good, leads⟩, walk, tmp⟩
        | dump env => cases session
        | finalize => cases session
      · cases next
  | dump now =>
      simp only [step] at next
      split at next
      · cases next
        refine ⟨kept.engine, kept.pending, kept.log, ?_, kept.tmp⟩
        rintro w ⟨⟩
        exact ⟨holds_new, distinct, fun _ => rfl, fun outside => absurd (d.covers k) outside⟩
      · cases next
  | visit => exact kept.visit untouched next
  | write iter =>
      simp only [step] at next
      split at next
      · rename_i now copied here
        cases next
        obtain ⟨holds, -, -, leads⟩ := kept.walk _ here
        refine ⟨kept.engine, kept.pending, kept.log, (fun w found => by cases found), ?_⟩
        rintro bytes ⟨⟩
        exact ⟨iter, now, copied, rfl, holds, leads List.not_mem_nil⟩
      · cases next
  | fail =>
      cases next
      exact ⟨kept.engine, kept.pending, kept.log, (fun w found => by cases found),
        fun bytes found => by cases found⟩
  | finalize => exact kept.finalize next

variable (d)

end Rewriter

/-- A key is set before a rewrite and again behind its copy; the second entry comes when
the log is replaced. -/
noncomputable def twiceSet : List Event :=
  [.work (.execute someEnv 0 true (.set (ascii "k") (ascii "a") none)), .work (.append 0), .dump 1, .visit,
    .work (.execute someEnv 1 true (.set (ascii "k") (ascii "b") none)), .write Iter.some, .finalize,
    .work (.append 1)]

theorem along_twiceSet :
    Along (step oneShard) (fun s ev => Orderly (ascii "k") s ev ∧ Untouched oneShard (ascii "k") s ev) .start
      twiceSet := by
  have first : Loggable (.set (ascii "k") (ascii "a") none) := by decide
  have second : Loggable (.set (ascii "k") (ascii "b") none) := by decide
  have append (s : Rewriter Unit) (i : Nat) (p : Pending) (alone : s.shared.pending = [p]) (whole : s.tmp = none)
      (still : s.walk = none) :
      Orderly (ascii "k") s (.work (.append i)) ∧ Untouched oneShard (ascii "k") s (.work (.append i)) := by
    constructor
    · intro before q after shape _ r early
      have lengths := congrArg List.length (alone.symm.trans shape)
      cases before with
      | nil => cases early
      | cons _ _ => simp at lengths
    · rintro (written | ⟨w, walks, -⟩)
      · rw [whole] at written
        cases written
      · rw [still] at walks
        cases walks
  refine .cons rfl ⟨first, trivial⟩ (.cons rfl (append _ 0 _ rfl rfl rfl) (.cons rfl ⟨trivial, trivial⟩ ?_))
  refine .cons rfl ⟨trivial, fun _ _ _ _ => List.forall_mem_nil _⟩ (.cons rfl ⟨second, trivial⟩ ?_)
  exact .cons rfl ⟨trivial, trivial⟩ (.cons rfl ⟨trivial, trivial⟩ (.cons rfl (append _ 1 _ rfl rfl rfl) trivial))

end ZetDb.Server.Rewrites
