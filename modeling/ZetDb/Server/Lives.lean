/-
# Server.Lives -- a server that is started again and again

Embeds what `main` runs between one start and the next: the sessions on the engine and
the log, and the dumps of `run_snapshotter` and of the shutdown.  `dump_entries` holds
the lock of one shard at a time, so a dump copies the shards one by one, with anything
in between (`Walk`).  A crash leaves some beginning of the log's file and one of the
snapshots that were made; a stop is a crash that leaves all.  The start is `restore`.

The two files know nothing of each other.  The log is not cut at a dump, and a dump
does not wait for the log: a snapshot may be behind the log and may be ahead of it.

* `restarts_follow_log`: after any number of crashes a key that the log rewrites has
  the value of the log.  So has every other key, as long as each crash leaves a log
  that rewrites it or a snapshot without it.
* `nothing_invented`: what is found under a key was sent there by some client, or it is
  the numeral that an INCR of the key has answered, in this life of the server or in an
  earlier one: to the client that sent it, or when a start replayed its entry.

Crashes that tear an entry of the log are the subject of `Storage.TornTail`, and entries
that fill the writer's batch, which are written twice, that of `Storage.AofWriterLog`; here
crashes leave whole entries, and each is appended once.
-/
import ZetDb.Server.Logging
import ZetDb.Server.Recovery
import ZetDb.Storage.ShardWalks

namespace ZetDb.Server.Lives

set_option autoImplicit false

open ZetDb.Theory.Wire ZetDb.Theory.Text ZetDb.Theory.Replay ZetDb.Domain ZetDb.Application ZetDb.Storage
open ZetDb.Theory.Runs (Along Moment along_moments run_invariant)

/-- A dump that is being made. -/
structure Walk (S : Type) where
  now : Instant
  /-- The shards that are still to be visited. -/
  left : List S
  copied : Store

structure Life (S : Type) where
  shared : Shared
  walk : Option (Walk S)
  /-- The files that a crash may leave at the path of the snapshot. -/
  snapshots : List (Option Bytes)

/-- The first start, on an empty disk. -/
def Life.start {S : Type} : Life S := ⟨.init, none, [none]⟩

inductive Event where
  /-- A step of the sessions. -/
  | work (st : Step)
  /-- `dump_entries` reads the clock. -/
  | dump (now : Instant)
  /-- It passes over the next shard. -/
  | visit
  /-- The file is written and renamed. -/
  | replace (iter : Iter) (timestamp : Nat)
  /-- The file system refuses. -/
  | fail
  /-- The machine stops, and the server is started on what is left. -/
  | crash (kept version : Nat) (iter : Iter) (now : Instant)

section Step

variable {S : Type} [DecidableEq S] (d : Sharding S) (hash : Bytes → UInt32)

def step (s : Life S) : Event → Option (Life S)
  | .work st => (Server.step s.shared st).map fun shared => { s with shared := shared }
  | .dump now =>
      match s.walk with
      | none => some { s with walk := some ⟨now, d.shards, ∅⟩ }
      | some _ => none
  | .visit =>
      match s.walk with
      | some ⟨now, x :: left, copied⟩ =>
          some { s with walk := some ⟨now, left, copied ∪ onShard d x s.shared.engine.map⟩ }
      | _ => none
  | .replace iter timestamp =>
      match s.walk with
      | some ⟨now, [], copied⟩ =>
          some { s with
            walk := none
            snapshots := some (dumpSnapshot hash iter now timestamp ⟨copied, 0⟩) :: s.snapshots }
      | _ => none
  | .fail => some { s with walk := none }
  | .crash kept version iter now =>
      (s.snapshots[version]?).map fun snapshot =>
        let log := s.shared.file.take kept
        ⟨⟨restore hash iter now snapshot (some log), log, [], [], none⟩, none, [snapshot]⟩

def run : Life S → List Event → Option (Life S) := Theory.Runs.run (step d hash)

end Step

/-! ## What may be stored -/

/-- The command carries the value for the key. -/
def Sends (k : Key) (v : Bytes) : Command → Prop
  | .set key value _ => key = k ∧ value = v
  | .mset pairs => (k, v) ∈ pairs
  | _ => False

/-- An INCR of the key on this engine answers with the numeral. -/
def Answers (iter : Iter) (now : Instant) (e : DashMapEngine) (k : Key) (v : Bytes) : Prop :=
  ∃ n, (e.incr iter now k).1 = .ok n ∧ v = decimalInt n

/-- The command, executed on this engine, leaves the value under the key. -/
def Leaves (iter : Iter) (now : Instant) (e : DashMapEngine) (k : Key) (v : Bytes) (c : Command) : Prop :=
  Sends k v c ∨ c = .incr k ∧ Answers iter now e k v

/-- A logged command without a lifetime that a client has sent. -/
structure Stores (Sent : Command → Prop) (c : Command) : Prop where
  representable : Representable c
  lasting : Lasting c
  sent : Sent c

/-- An entry that stays, fits the files and has a known value. -/
def Sound (Known : Key → Bytes → Prop) (k : Key) (v : ValueEntry) : Prop :=
  v.expiresAt = none ∧ KeyOk k ∧ ValueOk v.data ∧ Known k v.data

structure Holds (Known : Key → Bytes → Prop) (e : DashMapEngine) : Prop where
  unlimited : e.maxKeys = 0
  each : Each (Sound Known) e

section Holds

variable {Known : Key → Bytes → Prop} {e : DashMapEngine} {iter : Iter} {m : MetricsSnapshot} {now : Instant}

theorem holds_new : Holds Known .new := ⟨rfl, each_new⟩

theorem Holds.permanent (holds : Holds Known e) : Permanent e :=
  ⟨holds.unlimited, fun {k v} found => (holds.each k v found).1⟩

theorem Holds.storable (holds : Holds Known e) : Storable e :=
  ⟨fun {k v} found => ⟨(holds.each k v found).2.1, (holds.each k v found).2.2.1⟩⟩

theorem Holds.known (holds : Holds Known e) {k : Key} {v : Bytes} (found : e.contents k = some v) : Known k v := by
  obtain ⟨w, held, rfl⟩ := Option.map_eq_some_iff.1 found
  exact (holds.each k w held).2.2.2

/-- What a command writes is known, if what it carries is, and what it counts up to. -/
theorem Holds.exec (holds : Holds Known e) {c : Command} (ok : Representable c) (lasting : Lasting c)
    (known : ∀ k v, Leaves iter now e k v c → Known k v) : Holds Known (exec iter m now e c) := by
  refine ⟨(exec_permanent holds.permanent lasting).unlimited, ?_⟩
  cases c with
  | set key value lifetime =>
      cases (lasting : lifetime = none)
      exact exec_each holds.each ⟨rfl, ok.1, ok.2.1, known key value (.inl ⟨rfl, rfl⟩)⟩
  | incr key =>
      have counted (n : Int) (answer : (e.incr iter now key).1 = .ok n) : Known key (decimalInt n) :=
        known key _ (.inr ⟨rfl, n, answer, rfl⟩)
      have fresh (answer : (e.incr iter now key).1 = .ok 1) : Sound Known key (ValueEntry.new now (ascii "1")) :=
        ⟨rfl, ok, valueOk_one, counted 1 answer⟩
      rw [exec_incr]
      rw [DashMapEngine.incr_unlimited holds.unlimited] at counted fresh ⊢
      cases held : e.map.lookup key with
      | none =>
          simp only [held] at fresh ⊢
          exact holds.each.insert (fresh trivial)
      | some v =>
          obtain ⟨stays, -⟩ := holds.each key v held
          simp only [held, ValueEntry.isExpiredAt_of_none stays, Bool.false_eq_true, if_false] at counted ⊢
          cases parsed : parseSigned 64 (fromUtf8Lossy v.data) with
          | none => exact holds.each
          | some val =>
              simp only [parsed] at counted ⊢
              exact holds.each.insert ⟨stays, ok, valueOk_decimalInt _, counted _ rfl⟩
  | expire key seconds => exact lasting.elim
  | mset pairs =>
      refine exec_each holds.each fun p inside => ?_
      exact ⟨rfl, (ok.2 p inside).1, (ok.2 p inside).2, known p.1 p.2 (.inl inside)⟩
  | del key => exact exec_each holds.each trivial
  | flushDb => exact exec_each holds.each trivial
  | _ => exact ok.elim

theorem Holds.execAll (holds : Holds Known e) {cs : List Command} (ok : ∀ c ∈ cs, Representable c ∧ Lasting c)
    (known : ∀ before c after, cs = before ++ c :: after →
      ∀ k v, Leaves iter now (execAll iter m now e before) k v c → Known k v) :
    Holds Known (execAll iter m now e cs) := by
  induction cs generalizing e with
  | nil => exact holds
  | cons c cs ih =>
      obtain ⟨fits, lasting⟩ := ok c List.mem_cons_self
      rw [execAll_cons]
      apply ih (holds.exec fits lasting (known [] c cs rfl)) fun b inside => ok b (List.mem_cons_of_mem c inside)
      intro before b after shape
      exact known (c :: before) b after (by rw [shape]; rfl)

theorem Holds.storeAll (holds : Holds Known e) {records : List (Key × Bytes × Int)}
    (sound : ∀ r ∈ records, Sound Known r.1 (loadedEntry now r)) : Holds Known (storeAll now records e) := by
  induction records generalizing e with
  | nil => exact holds
  | cons r records ih =>
      have inserted : Holds Known (e.insert r.1 (loadedEntry now r)) :=
        ⟨holds.unlimited, holds.each.insert (sound r List.mem_cons_self)⟩
      exact ih inserted fun q inside => sound q (List.mem_cons_of_mem r inside)

/-- A dump under way, and its file, have entries of the engine only. -/
theorem Holds.copied {copied : Store} (before : Holds Known ⟨copied, 0⟩) (holds : Holds Known e) {S : Type}
    [DecidableEq S] (d : Sharding S) (x : S) : Holds Known ⟨copied ∪ onShard d x e.map, 0⟩ := by
  refine ⟨rfl, ?_⟩
  intro k v found
  rcases Finmap.mem_lookup_union.1 found with old | ⟨-, new⟩
  · exact before.each k v old
  · rw [Option.mem_def, lookup_onShard] at new
    split at new
    · exact holds.each k v new
    · cases new

end Holds

/-! ## What a start finds -/

/-- No file, or the file of a dump. -/
def Readable (Known : Key → Bytes → Prop) (hash : Bytes → UInt32) (snapshot : Option Bytes) : Prop :=
  snapshot = none ∨ ∃ iter now timestamp e, Holds Known e ∧ snapshot = some (dumpSnapshot hash iter now timestamp e)

section Start

variable {Known : Key → Bytes → Prop} {hash : Bytes → UInt32} {snapshot : Option Bytes} {iter : Iter}
  {now : Instant}

theorem Readable.load (readable : Readable Known hash snapshot) :
    Holds Known (loadSnapshot hash iter now snapshot .new).2 := by
  obtain rfl | ⟨dumpIter, dumpedAt, timestamp, e, holds, rfl⟩ := readable
  · exact holds_new
  have listed := dumpEntries_ok dumpIter dumpedAt holds.permanent holds.storable
  rw [loadSnapshot_dump hash iter now timestamp (fun r inside => (listed r inside).fits) rfl,
    map_lossyRecord fun r inside => (listed r (List.mem_of_mem_take inside)).1.2]
  apply holds_new.storeAll
  intro r inside
  have member := List.mem_of_mem_take inside
  obtain ⟨keyOk, valueOk, -⟩ := listed r member
  obtain ⟨held, forever⟩ := (mem_dumpEntries holds.permanent r).1 member
  exact ⟨by simp [loadedEntry, expiryOf, forever], keyOk, valueOk, holds.known held⟩

/-- A dump is loaded again whole, if the count field holds the number of its entries. -/
theorem Holds.reload {e : DashMapEngine} (holds : Holds Known e) (few : e.len < 2 ^ 32) (dumpIter : Iter)
    (dumpedAt : Instant) (timestamp : Nat) :
    (loadSnapshot hash iter now (some (dumpSnapshot hash dumpIter dumpedAt timestamp e)) .new).2.contents =
      e.contents := by
  have listed := dumpEntries_ok dumpIter dumpedAt holds.permanent holds.storable
  have forever : ∀ r ∈ e.dumpEntries dumpIter dumpedAt, r.2.2 = -1 := fun r inside =>
    ((mem_dumpEntries holds.permanent r).1 inside).2
  rw [loadSnapshot_dump hash iter now timestamp (fun r inside => (listed r inside).fits) rfl,
    dumpEntries_length dumpIter dumpedAt holds.permanent, Nat.mod_eq_of_lt few,
    ← dumpEntries_length dumpIter dumpedAt holds.permanent, List.take_length,
    map_lossyRecord fun r inside => (listed r inside).1.2, (storeAll_permanent now permanent_new forever).2]
  exact replay_dump holds.permanent

/-- The log is replayed on what was loaded. -/
theorem Readable.start (readable : Readable Known hash snapshot) {cs : List Command}
    (ok : ∀ c ∈ cs, Representable c ∧ Lasting c)
    (known : ∀ before c after, cs = before ++ c :: after → ∀ k v,
      Leaves iter now (Application.execAll iter .new now (loadSnapshot hash iter now snapshot .new).2 before) k v c →
        Known k v) :
    Holds Known (restore hash iter now snapshot (some (logBytes cs))) ∧
      (restore hash iter now snapshot (some (logBytes cs))).contents =
        replay (loadSnapshot hash iter now snapshot .new).2.contents cs := by
  have loaded : Holds Known (loadSnapshot hash iter now snapshot .new).2 := readable.load
  have log := replayAof_log iter .new now (fun c inside => (ok c inside).1) loaded.unlimited
  have same : restore hash iter now snapshot (some (logBytes cs)) =
      Application.execAll iter .new now (loadSnapshot hash iter now snapshot .new).2 cs := by
    simp only [restore, log]
  rw [same]
  exact ⟨loaded.execAll ok known,
    execAll_contents iter .new now loaded.permanent fun c inside => (ok c inside).2⟩

end Start

/-! ## Runs -/

section Runs

set_option linter.unusedSectionVars false

variable {S : Type} [DecidableEq S] (d : Sharding S) (hash : Bytes → UInt32)

/-- A cut of the file that is between two entries of the log. -/
def Between (s : Shared) (kept : Nat) : Prop :=
  ∀ cs, (∀ c ∈ cs, Representable c) → s.file ++ s.batch = logBytes cs → ∃ n, s.file.take kept = logBytes (cs.take n)

/-- Commands that can be logged, entries that are appended in an order that makes no
difference, and crashes that leave whole entries. -/
def Regular (s : Life S) : Event → Prop
  | .work st => st.ofSession = true ∧ InOrder s.shared st
  | .crash kept _ _ _ => Between s.shared kept
  | _ => True

/-- A client sends the command. -/
def Event.sends (c : Command) : Event → Prop
  | .work (.execute _ _ _ sent) => sent = c
  | _ => False

/-- An INCR of the key answers with the numeral: to a client, or when a start replays
its entry. -/
def Event.answers (s : Life S) (k : Key) (v : Bytes) : Event → Prop
  | .work (.execute env _ _ c) => c = .incr k ∧ Answers env.iter env.now s.shared.engine k v
  | .crash kept version iter now => ∃ snapshot before after, s.snapshots[version]? = some snapshot ∧
      s.shared.file.take kept = logBytes (before ++ .incr k :: after) ∧
      Answers iter now (execAll iter .new now (loadSnapshot hash iter now snapshot .new).2 before) k v
  | _ => False

/-- A crash leaves a log that rewrites the key, or a snapshot without it. -/
def Covered (k : Key) (s : Life S) : Event → Prop
  | .crash kept version iter now => ∀ snapshot, s.snapshots[version]? = some snapshot →
      (loadSnapshot hash iter now snapshot .new).2.contents k = none ∨
        ∀ cs, (∀ c ∈ cs, Representable c) → s.shared.file.take kept = logBytes cs → ∃ c ∈ cs, rewrites k c = true
  | _ => True

/-- The engine holds what is allowed, and at `k` what the log and the commands that are
not appended yet make of an empty store: where they rewrite `k`, or under `Always`. -/
structure Lived (Sent : Command → Prop) (Known : Key → Bytes → Prop) (k : Key) (Always : Prop) (s : Life S) :
    Prop where
  engine : Holds Known s.shared.engine
  pending : ∀ p ∈ s.shared.pending, Stores Sent p.command
  log : ∃ cs, s.shared.file ++ s.shared.batch = logBytes cs ∧ (∀ c ∈ cs, Stores Sent c) ∧
    ((∃ c ∈ cs ++ s.shared.pending.map (·.command), rewrites k c = true) ∨ Always →
      s.shared.engine.contents k = replay (fun _ => none) (cs ++ s.shared.pending.map (·.command)) k)
  walk : ∀ w, s.walk = some w → Holds Known ⟨w.copied, 0⟩
  snapshots : ∀ snapshot ∈ s.snapshots, Readable Known hash snapshot

/-- What the step brings along is known: the command a client sends, what it carries,
and the numeral that an INCR some client has sent answers with. -/
structure Accounts (Sent : Command → Prop) (Known : Key → Bytes → Prop) (s : Life S) (ev : Event) : Prop where
  sent : ∀ c, ev.sends c → Sent c
  carried : ∀ c k v, Sent c → Sends k v c → Known k v
  counted : ∀ k v, Sent (.incr k) → ev.answers hash s k v → Known k v

variable {d hash} {Sent : Command → Prop} {Known : Key → Bytes → Prop} {k : Key} {Always : Prop} {s s' : Life S}

theorem lived_start : Lived hash Sent Known k Always (.start : Life S) where
  engine := holds_new
  pending := List.forall_mem_nil _
  log := ⟨[], rfl, List.forall_mem_nil _, fun _ => rfl⟩
  walk := fun w found => by cases found
  snapshots := fun snapshot inside => .inl (List.mem_singleton.1 inside)

theorem replay_append (s : Contents) (cs ds : List Command) : replay s (cs ++ ds) = replay (replay s cs) ds :=
  run_append _ _ _ _

theorem dispatchLogged_engine (env : Env) (isResp : Bool) (e : DashMapEngine) (c : Command) :
    (dispatchLogged env isResp e c).2 = exec env.iter env.metrics env.now e c := by
  cases isResp
  · exact dispatchToBuffer_engine false c
  · rfl

/-- What is dispatched keeps the engine sound. -/
theorem Holds.dispatch {e : DashMapEngine} (holds : Holds Known e) (env : Env) (isResp : Bool) {c : Command}
    (ok : Loggable c) (known : ∀ k v, Leaves env.iter env.now e k v c → Known k v) :
    Holds Known (dispatchLogged env isResp e c).2 := by
  rw [dispatchLogged_engine]
  cases write : c.isWrite with
  | false =>
      rw [exec_of_read holds.permanent write]
      exact holds
  | true => exact holds.exec (ok.2 write) ok.1 known

theorem Lived.execute (lived : Lived hash Sent Known k Always s) {env : Env} {session : Nat} {isResp : Bool}
    {c : Command} (ok : Loggable c) (accounts : Accounts hash Sent Known s (.work (.execute env session isResp c)))
    {shared : Shared} (next : Server.step s.shared (.execute env session isResp c) = some shared) :
    Lived hash Sent Known k Always { s with shared := shared } := by
  obtain ⟨engine, pending, ⟨cs, bytes, stores, same⟩, walk, snapshots⟩ := lived
  obtain ⟨-, -, contents, logs, drops⟩ := dispatchLogged_spec env isResp engine.permanent engine.storable ok
  have sent : Sent c := accounts.sent c rfl
  have known (k : Key) (v : Bytes) : Leaves env.iter env.now s.shared.engine k v c → Known k v := by
    rintro (carries | ⟨rfl, answers⟩)
    · exact accounts.carried c k v sent carries
    · exact accounts.counted k v sent ⟨rfl, answers⟩
  have holds := engine.dispatch env isResp ok known
  simp only [Server.step] at next
  split at next
  · cases next
  cases next
  cases logged : (dispatchLogged env isResp s.shared.engine c).1 with
  | false =>
      refine ⟨holds, by simpa [logged] using pending, ⟨cs, bytes, stores, ?_⟩, walk, snapshots⟩
      simp only [drops logged, Bool.false_eq_true, if_false]
      exact same
  | true =>
      refine ⟨holds, ?_, ⟨cs, bytes, stores, ?_⟩, walk, snapshots⟩
      · intro p inside
        simp only [if_true, List.mem_append, List.mem_singleton] at inside
        rcases inside with old | rfl
        · exact pending p old
        · exact ⟨logs logged, ok.1, sent⟩
      · simp only [contents, if_true, List.map_append, List.map_singleton, ← List.append_assoc]
        rw [replay_concat, apply, apply]
        rintro (⟨b, inside, rewritten⟩ | always)
        · rcases List.mem_append.1 inside with old | new
          · rw [same (.inl ⟨b, old, rewritten⟩)]
          · cases List.mem_singleton.1 new
            exact resets_of_rewrites rewritten _ _
        · rw [same (.inr always)]

theorem Lived.append (lived : Lived hash Sent Known k Always s) {session : Nat}
    (inOrder : InOrder s.shared (.append session)) {shared : Shared}
    (next : Server.step s.shared (.append session) = some shared) :
    Lived hash Sent Known k Always { s with shared := shared } := by
  obtain ⟨before, p, after, shape, mine, rfl⟩ := append_cases next
  obtain ⟨engine, pending, ⟨cs, bytes, stores, same⟩, walk, snapshots⟩ := lived
  rw [shape] at pending same
  have moved : replay (fun _ => none) (cs ++ [p.command] ++ (before ++ after).map (·.command)) =
      replay (fun _ => none) (cs ++ (before ++ p :: after).map (·.command)) := by
    have commutes : ∀ c ∈ before.map (·.command), Commutes c p.command := by
      intro c inside
      obtain ⟨q, early, rfl⟩ := List.mem_map.1 inside
      exact inOrder before p after shape mine q early
    rw [replay_append, replay_append _ cs (List.map _ _), List.map_append, List.map_append, List.map_cons]
    exact replay_append_entry commutes
  refine ⟨engine, ?_, ⟨cs ++ [p.command], ?_, ?_, ?_⟩, walk, snapshots⟩
  · intro q inside
    apply pending q
    rcases List.mem_append.1 inside with early | late
    · exact List.mem_append_left _ early
    · exact List.mem_append_right _ (List.mem_cons_of_mem p late)
  · rw [logBytes_append, ← bytes, ← List.append_assoc, logBytes_cons, logBytes_nil, List.append_nil]
  · intro c inside
    rcases List.mem_append.1 inside with old | new
    · exact stores c old
    · rw [List.mem_singleton.1 new]
      exact pending p (List.mem_append_right _ List.mem_cons_self)
  · rw [moved]
    intro rewritten
    apply same
    refine rewritten.imp_left ?_
    rintro ⟨c, inside, here⟩
    refine ⟨c, ?_, here⟩
    simp only [List.map_append, List.map_cons, List.mem_append, List.mem_cons, List.not_mem_nil, or_false] at inside ⊢
    tauto

/-- The start takes up what the crash left. -/
theorem Lived.crash (lived : Lived hash Sent Known k Always s) {kept version : Nat} {iter : Iter} {now : Instant}
    (between : Between s.shared kept) (accounts : Accounts hash Sent Known s (.crash kept version iter now))
    (covered : Always → Covered hash k s (.crash kept version iter now))
    (next : step d hash s (.crash kept version iter now) = some s') : Lived hash Sent Known k Always s' := by
  obtain ⟨-, -, ⟨cs, bytes, stores, -⟩, -, snapshots⟩ := lived
  obtain ⟨snapshot, found, rfl⟩ := Option.map_eq_some_iff.1 next
  have readable := snapshots snapshot (List.mem_of_getElem? found)
  obtain ⟨n, kept⟩ := between cs (fun c inside => (stores c inside).representable) bytes
  have left : ∀ c ∈ cs.take n, Stores Sent c := fun c inside => stores c (List.mem_of_mem_take inside)
  have known (before : List Command) (c : Command) (after : List Command) (shape : cs.take n = before ++ c :: after)
      (k : Key) (v : Bytes) : Leaves iter now
        (execAll iter .new now (loadSnapshot hash iter now snapshot .new).2 before) k v c → Known k v := by
    have sent : Sent c := (left c (by rw [shape]; simp)).sent
    rintro (carries | ⟨rfl, answers⟩)
    · exact accounts.carried c k v sent carries
    · exact accounts.counted k v sent ⟨snapshot, before, after, found, by rw [kept, shape], answers⟩
  obtain ⟨holds, contents⟩ := readable.start (fun c inside => ⟨(left c inside).representable, (left c inside).lasting⟩)
    known
  refine ⟨?_, List.forall_mem_nil _, ⟨cs.take n, ?_, left, ?_⟩, (fun w found => by cases found), ?_⟩
  · simp only [kept]
    exact holds
  · simp only [kept, List.append_nil]
  · simp only [kept, contents, List.map_nil, List.append_nil]
    rintro (⟨c, inside, rewritten⟩ | always)
    · exact run_of_reset cell ⟨c, inside, resets_of_rewrites rewritten⟩ _ _
    · rcases covered always snapshot found with absent | rewrites
      · exact run_congr_at cell absent _
      · obtain ⟨c, inside, rewritten⟩ := rewrites _ (fun c inside => (left c inside).representable) kept
        exact run_of_reset cell ⟨c, inside, resets_of_rewrites rewritten⟩ _ _
  · intro file inside
    cases List.mem_singleton.1 inside
    exact readable

/-- Every event keeps it. -/
theorem Lived.keep (lived : Lived hash Sent Known k Always s) {ev : Event} (regular : Regular s ev)
    (accounts : Accounts hash Sent Known s ev) (covered : Always → Covered hash k s ev)
    (next : step d hash s ev = some s') : Lived hash Sent Known k Always s' := by
  cases ev with
  | work st =>
      obtain ⟨session, inOrder⟩ := regular
      obtain ⟨shared, taken, rfl⟩ := Option.map_eq_some_iff.1 next
      cases st with
      | execute env i isResp c => exact lived.execute inOrder accounts taken
      | append i => exact lived.append inOrder taken
      | flush =>
          cases taken
          obtain ⟨engine, pending, ⟨cs, bytes, stores, same⟩, walk, snapshots⟩ := lived
          exact ⟨engine, pending, ⟨cs, by rw [List.append_nil, bytes], stores, same⟩, walk, snapshots⟩
      | dump env => cases session
      | finalize => cases session
  | dump now =>
      simp only [step] at next
      split at next
      · cases next
        refine ⟨lived.engine, lived.pending, lived.log, ?_, lived.snapshots⟩
        rintro w ⟨⟩
        exact holds_new
      · cases next
  | visit =>
      simp only [step] at next
      split at next
      · rename_i now x left copied here
        cases next
        refine ⟨lived.engine, lived.pending, lived.log, ?_, lived.snapshots⟩
        rintro w ⟨⟩
        exact (lived.walk _ here).copied lived.engine d x
      · cases next
  | replace iter timestamp =>
      simp only [step] at next
      split at next
      · rename_i now copied here
        cases next
        refine ⟨lived.engine, lived.pending, lived.log, (fun w found => by cases found), ?_⟩
        intro snapshot inside
        rcases List.mem_cons.1 inside with rfl | old
        · exact .inr ⟨iter, now, timestamp, _, lived.walk _ here, rfl⟩
        · exact lived.snapshots snapshot old
      · cases next
  | fail =>
      cases next
      exact ⟨lived.engine, lived.pending, lived.log, (fun w found => by cases found), lived.snapshots⟩
  | crash kept version iter now => exact lived.crash regular accounts covered next

/-- Whole runs from the first start. -/
theorem lived_run {events : List Event} (regular : Along (step d hash) Regular .start events)
    (accounts : Along (step d hash) (Accounts hash Sent Known) .start events)
    (reached : run d hash .start events = some s) :
    Lived hash Sent Known k (Along (step d hash) (Covered hash k) .start events) s := by
  have covered : Along (step d hash)
      (fun s ev => Along (step d hash) (Covered hash k) .start events → Covered hash k s ev) .start events := by
    by_cases all : Along (step d hash) (Covered hash k) .start events
    · exact all.mono fun _ _ here _ => here
    · exact .of_forall (fun _ _ claimed => absurd claimed all) _ _
  apply run_invariant _ lived_start ((regular.and covered).and accounts) reached
  intro s ev s' lived here next
  obtain ⟨⟨regular, covered⟩, accounts⟩ := here
  exact lived.keep regular accounts covered next

variable (d hash)

/-- In whatever life of the server: what the log rewrites has the value of the log, and
so has every key, where all crashes were covered. -/
theorem restarts_follow_log (events : List Event) (regular : Along (step d hash) Regular .start events)
    (s : Life S) (reached : run d hash .start events = some s) (k : Key) :
    ∃ cs, s.shared.file ++ s.shared.batch = logBytes cs ∧ (∀ c ∈ cs, Representable c) ∧
      ((∃ c ∈ cs ++ s.shared.pending.map (·.command), rewrites k c = true) ∨
          Along (step d hash) (Covered hash k) .start events →
        s.shared.engine.contents k = replay (fun _ => none) (cs ++ s.shared.pending.map (·.command)) k) := by
  have accounts : Along (step d hash) (Accounts hash (fun _ => True) fun _ _ => True) .start events :=
    .of_forall (fun _ _ => ⟨fun _ _ => trivial, fun _ _ _ _ _ => trivial, fun _ _ _ _ => trivial⟩) _ _
  have lived := lived_run (k := k) regular accounts reached
  obtain ⟨cs, bytes, stores, same⟩ := lived.log
  exact ⟨cs, bytes, fun c inside => (stores c inside).representable, same⟩

/-- Crashes and restarts bring no value from elsewhere: it was sent in a SET or an MSET of
the key, or an INCR of the key, which a client has sent, answered with it at some moment.
A start that replays the INCR on a snapshot that has counted it already answers with a
number that no client was given. -/
theorem nothing_invented (events : List Event) (regular : Along (step d hash) Regular .start events)
    (s : Life S) (reached : run d hash .start events = some s) (k : Key) (v : Bytes)
    (found : s.shared.engine.contents k = some v) :
    (∃ ev ∈ events, ∃ c, ev.sends c ∧ Sends k v c) ∨
      (∃ ev ∈ events, ev.sends (.incr k)) ∧
        ∃ mid ev, Moment (step d hash) .start events mid ev ∧ ev.answers hash mid k v := by
  have accounts : Along (step d hash) (Accounts hash (fun c => ∃ ev ∈ events, ev.sends c) fun k v =>
      (∃ ev ∈ events, ∃ c, ev.sends c ∧ Sends k v c) ∨
        (∃ ev ∈ events, ev.sends (.incr k)) ∧
          ∃ mid ev, Moment (step d hash) .start events mid ev ∧ ev.answers hash mid k v) .start events := by
    refine (along_moments Life.start events).mono fun mid ev moment => ⟨fun c sent => ?_, ?_, ?_⟩
    · obtain ⟨first, rest, rfl, -⟩ := moment
      exact ⟨ev, by simp, sent⟩
    · rintro c k v ⟨ev, inside, sent⟩ carries
      exact .inl ⟨ev, inside, c, sent, carries⟩
    · exact fun k v sent answers => .inr ⟨sent, mid, ev, moment, answers⟩
  have lived := lived_run (k := k) regular accounts reached
  exact lived.engine.known found

end Runs

/-- A crash leaves a dump, and nothing of the log; then another key is set. -/
noncomputable def twoLives : List Event :=
  [.work (.execute ⟨Iter.some, .new, 1⟩ 0 true (.set (ascii "k") (ascii "v") none)), .dump 2, .visit,
    .replace Iter.some 1700000000000, .crash 0 0 Iter.some 3,
    .work (.execute ⟨Iter.some, .new, 4⟩ 0 true (.set (ascii "l") (ascii "w") none))]

theorem regular_twoLives : Along (step oneShard crc32) Regular .start twoLives := by
  have loggable (name value : String) : Loggable (.set (ascii name) (ascii value) none) ↔
      KeyOk (ascii name) ∧ ValueOk (ascii value) := by
    simp [Loggable, Lasting, Command.isWrite, Representable, LifetimeOk]
  have lost (s : Shared) : Between s 0 := fun cs _ _ => ⟨0, rfl⟩
  refine ⟨⟨rfl, (loggable "k" "v").2 (by decide)⟩, fun _ _ => ⟨trivial, fun _ _ => ⟨trivial, fun _ _ => ⟨trivial, ?_⟩⟩⟩⟩
  exact fun s _ => ⟨lost s.shared, fun _ _ => ⟨⟨rfl, (loggable "l" "w").2 (by decide)⟩, fun _ _ => trivial⟩⟩

theorem restarts_follow_log_twoLives :
    ∃ s, run oneShard crc32 .start twoLives = some s ∧
      ∃ cs, s.shared.file ++ s.shared.batch = logBytes cs ∧ (∀ c ∈ cs, Representable c) ∧
        ((∃ c ∈ cs ++ s.shared.pending.map (·.command), rewrites (ascii "l") c = true) ∨
            Along (step oneShard crc32) (Covered crc32 (ascii "l")) .start twoLives →
          s.shared.engine.contents (ascii "l") =
            replay (fun _ => none) (cs ++ s.shared.pending.map (·.command)) (ascii "l")) := by
  refine ⟨_, rfl, restarts_follow_log oneShard crc32 twoLives regular_twoLives _ rfl (ascii "l")⟩

/-- What the dump had is there again. -/
theorem nothing_invented_twoLives :
    (∃ ev ∈ twoLives, ∃ c, ev.sends c ∧ Sends (ascii "k") (ascii "v") c) ∨
      (∃ ev ∈ twoLives, ev.sends (.incr (ascii "k"))) ∧
        ∃ mid ev, Moment (step oneShard crc32) .start twoLives mid ev ∧
          ev.answers crc32 mid (ascii "k") (ascii "v") := by
  have ok : Representable (.set (ascii "k") (ascii "v") none) := by simpa [Representable, LifetimeOk] using by decide
  have first : Holds (fun _ _ => True) (exec Iter.some .new 1 .new (.set (ascii "k") (ascii "v") none)) :=
    holds_new.exec ok rfl fun _ _ _ => trivial
  have dumped := holds_new.copied first oneShard ()
  have readable : Readable (fun _ _ => True) crc32 (some (dumpSnapshot crc32 Iter.some 2 1700000000000 _)) :=
    .inr ⟨_, _, _, _, dumped, rfl⟩
  have started : Holds (fun _ _ => True) (restore crc32 Iter.some 3 _ (some (logBytes []))) ∧ _ = _ :=
    readable.start (List.forall_mem_nil _) fun _ _ _ _ _ _ _ => trivial
  have kept {e : DashMapEngine} (permanent : Permanent e) (held : e.contents (ascii "k") = some (ascii "v")) :
      (exec Iter.some .new 4 e (.set (ascii "l") (ascii "w") none)).contents (ascii "k") = some (ascii "v") := by
    rw [exec_contents permanent (show Lasting (.set (ascii "l") (ascii "w") none) from rfl)]
    exact held
  have found := (congrFun started.2 (ascii "k")).trans (congrFun (dumped.reload (by decide) _ _ _) (ascii "k"))
  exact nothing_invented oneShard crc32 twoLives regular_twoLives _ rfl (ascii "k") (ascii "v")
    (kept started.1.permanent (found.trans rfl))

end ZetDb.Server.Lives
