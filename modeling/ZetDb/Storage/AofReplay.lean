/-
# Storage.AofReplay -- replaying a log is executing its commands

Encoder and decoder of the append-only file are written separately.  This module
joins them: at a whole entry the replay does its own version of the command
(`replayCommand`: keys read as text, a SET's expiry taken from the millisecond
field) and stands behind the entry (`replayEntry_whole`).  On the commands the
format represents that version is the dispatcher's, so the replay of such a log
is the execution of its commands (`replayAof_log`).
-/
import ZetDb.Storage.Aof
import ZetDb.Application.Dispatcher

namespace ZetDb.Storage

set_option autoImplicit false

open ZetDb.Theory.Wire ZetDb.Theory.Text ZetDb.Domain ZetDb.Application

/-- A time to live the signed millisecond field keeps: a whole number of
milliseconds, positive and below `2 ^ 63`. -/
def LifetimeOk : Option Duration → Prop
  | none => True
  | some d => 0 < d.asMillis ∧ d.asMillis < 2 ^ 63 ∧ d = Duration.fromMillis d.asMillis

instance : DecidablePred LifetimeOk
  | none => inferInstanceAs (Decidable True)
  | some _ => inferInstanceAs (Decidable (_ ∧ _))

/-- The write commands the documented entry format can hold. -/
def Representable : Command → Prop
  | .set key value lifetime => KeyOk key ∧ ValueOk value ∧ LifetimeOk lifetime
  | .del key => KeyOk key
  | .incr key => KeyOk key
  | .expire key seconds => KeyOk key ∧ seconds < 2 ^ 64
  | .flushDb => True
  | .mset pairs => pairs.length ≤ 65535 ∧ ∀ p ∈ pairs, KeyOk p.1 ∧ ValueOk p.2
  | _ => False

instance : DecidablePred Representable
  | .set .. => inferInstanceAs (Decidable (_ ∧ _))
  | .del _ => inferInstanceAs (Decidable (KeyOk _))
  | .incr _ => inferInstanceAs (Decidable (KeyOk _))
  | .expire .. => inferInstanceAs (Decidable (_ ∧ _))
  | .flushDb => inferInstanceAs (Decidable True)
  | .mset _ => inferInstanceAs (Decidable (_ ∧ _))
  | .ping | .get _ | .info | .dbSize | .exists _ | .ttl _ | .keys | .mget _ =>
      inferInstanceAs (Decidable False)

/-- The bytes a list of commands leaves in the log. -/
def logBytes (cs : List Command) : Bytes := cs.flatMap Command.aofBytes

@[simp] theorem logBytes_nil : logBytes [] = [] := rfl

@[simp] theorem logBytes_cons (c : Command) (cs : List Command) :
    logBytes (c :: cs) = c.aofBytes ++ logBytes cs := rfl

theorem logBytes_append (cs ds : List Command) : logBytes (cs ++ ds) = logBytes cs ++ logBytes ds := by
  simp [logBytes]

theorem logBytes_eq_flatten (cs : List Command) :
    logBytes cs = (cs.filterMap Command.toAofEntry).flatten := by
  induction cs with
  | nil => rfl
  | cons c cs ih =>
      rw [logBytes_cons, ih]
      cases entry : c.toAofEntry <;> simp [Command.aofBytes, entry]

/-! ## Entries as an opcode and a body -/

def encodePair (p : Key × Bytes) : Bytes := encodeKey p.1 ++ encodeValue p.2

theorem aofBytes_set (key : Key) (value : Bytes) (lifetime : Option Duration) :
    (Command.set key value lifetime).aofBytes =
      cmdSet :: encodeRecord (key, value, Command.ttlMillis lifetime) := by
  simp [Command.aofBytes, Command.toAofEntry, encodeRecord, encodeKey, encodeValue, encodeTtl, cmdSet]

theorem aofBytes_del (key : Key) : (Command.del key).aofBytes = cmdDel :: encodeKey key := by
  simp [Command.aofBytes, Command.toAofEntry, encodeKey, cmdDel]

theorem aofBytes_incr (key : Key) : (Command.incr key).aofBytes = cmdIncr :: encodeKey key := by
  simp [Command.aofBytes, Command.toAofEntry, encodeKey, cmdIncr]

theorem aofBytes_expire (key : Key) (seconds : Nat) :
    (Command.expire key seconds).aofBytes = cmdExpire :: (encodeKey key ++ toLe 8 seconds) := by
  simp [Command.aofBytes, Command.toAofEntry, encodeKey, cmdExpire]

theorem aofBytes_flushDb : Command.flushDb.aofBytes = [cmdFlushDb] := rfl

theorem aofBytes_mset (pairs : List (Key × Bytes)) :
    (Command.mset pairs).aofBytes = cmdMset :: (toLe 2 pairs.length ++ pairs.flatMap encodePair) := by
  have same : encodePair = fun p => toLe 2 p.1.length ++ p.1 ++ toLe 4 p.2.length ++ p.2 := by
    funext p
    simp [encodePair, encodeKey, encodeValue]
  simp [Command.aofBytes, Command.toAofEntry, cmdMset, same]

/-- The time to live written for a SET is in range: the cast to the signed field
wraps. -/
theorem ttlMillis_ok (lifetime : Option Duration) : TtlOk (Command.ttlMillis lifetime) := by
  cases lifetime with
  | none => exact ⟨by decide, by decide⟩
  | some d => exact asI64_range _

/-- The entry a replayed SET stores is the entry the dispatcher stores. -/
theorem expiryOf_ttlMillis (now : Instant) (value : Bytes) {lifetime : Option Duration}
    (ok : LifetimeOk lifetime) :
    (⟨value, expiryOf now (Command.ttlMillis lifetime), some now⟩ : ValueEntry) =
      setEntry now value lifetime := by
  cases lifetime with
  | none => rfl
  | some d =>
      obtain ⟨positive, small, whole⟩ := ok
      rw [Command.ttlMillis, asI64_of_lt small]
      simp [expiryOf, setEntry, ValueEntry.withTtl, positive, ← whole]

/-! ## What the replay makes of a command -/

/-- The write commands whose lengths and counts fit the entry format; the keys may
be any bytes and the lifetime any duration. -/
def FieldsFit : Command → Prop
  | .set key value _ => key.length ≤ 65535 ∧ ValueOk value
  | .del key => key.length ≤ 65535
  | .incr key => key.length ≤ 65535
  | .expire key seconds => key.length ≤ 65535 ∧ seconds < 2 ^ 64
  | .flushDb => True
  | .mset pairs => pairs.length ≤ 65535 ∧ ∀ p ∈ pairs, p.1.length ≤ 65535 ∧ ValueOk p.2
  | _ => False

instance : DecidablePred FieldsFit
  | .set .. => inferInstanceAs (Decidable (_ ∧ _))
  | .del _ => inferInstanceAs (Decidable (_ ≤ _))
  | .incr _ => inferInstanceAs (Decidable (_ ≤ _))
  | .expire .. => inferInstanceAs (Decidable (_ ∧ _))
  | .flushDb => inferInstanceAs (Decidable True)
  | .mset _ => inferInstanceAs (Decidable (_ ∧ _))
  | .ping | .get _ | .info | .dbSize | .exists _ | .ttl _ | .keys | .mget _ =>
      inferInstanceAs (Decidable False)

theorem Representable.fits {c : Command} (ok : Representable c) : FieldsFit c := by
  cases c with
  | set key value lifetime => exact ⟨ok.1.1, ok.2.1⟩
  | del key => exact ok.1
  | incr key => exact ok.1
  | expire key seconds => exact ⟨ok.1.1, ok.2⟩
  | flushDb => trivial
  | mset pairs => exact ⟨ok.1, fun p inside => ⟨(ok.2 p inside).1.1, (ok.2 p inside).2⟩⟩
  | _ => exact ok.elim

theorem FieldsFit.isWrite {c : Command} (fits : FieldsFit c) : c.isWrite = true := by
  cases c <;> first | rfl | exact fits.elim

def lossyPair (p : Key × Bytes) : Key × Bytes := (fromUtf8Lossy p.1, p.2)

/-- The command with its keys as the replay reads them. -/
def lossyCommand : Command → Command
  | .set key value lifetime => .set (fromUtf8Lossy key) value lifetime
  | .del key => .del (fromUtf8Lossy key)
  | .incr key => .incr (fromUtf8Lossy key)
  | .expire key seconds => .expire (fromUtf8Lossy key) seconds
  | .mset pairs => .mset (pairs.map lossyPair)
  | c => c

theorem lossyCommand_isWrite (c : Command) : (lossyCommand c).isWrite = c.isWrite := by
  cases c <;> rfl

/-- What the replay does with a command it has read: a SET gets the expiry its
millisecond field means at the time of the replay, the rest is executed. -/
def replayCommand (iter : Iter) (m : MetricsSnapshot) (now : Instant) (e : DashMapEngine) :
    Command → DashMapEngine
  | .set key value lifetime =>
      (e.set iter now key ⟨value, expiryOf now (Command.ttlMillis lifetime), some now⟩).2
  | c => exec iter m now e c

section Commands

variable (iter : Iter) (m : MetricsSnapshot) (now : Instant) (e : DashMapEngine) (key : Key)

theorem replayCommand_set (value : Bytes) (lifetime : Option Duration) :
    replayCommand iter m now e (.set key value lifetime) =
      (e.set iter now key ⟨value, expiryOf now (Command.ttlMillis lifetime), some now⟩).2 := rfl

theorem replayCommand_del : replayCommand iter m now e (.del key) = (e.del now key).2 :=
  exec_del key

theorem replayCommand_incr : replayCommand iter m now e (.incr key) = (e.incr iter now key).2 :=
  exec_incr key

theorem replayCommand_expire (seconds : Nat) :
    replayCommand iter m now e (.expire key seconds) = (e.expire now key seconds).2 :=
  exec_expire key seconds

theorem replayCommand_mset (pairs : List (Key × Bytes)) :
    replayCommand iter m now e (.mset pairs) = (msetLoop iter now e pairs).2 :=
  exec_mset pairs

end Commands

def replayAll (iter : Iter) (m : MetricsSnapshot) (now : Instant) (e : DashMapEngine)
    (cs : List Command) : DashMapEngine :=
  cs.foldl (replayCommand iter m now) e

/-- On a representable command the replay does what the dispatcher does. -/
theorem replayCommand_of_representable (iter : Iter) (m : MetricsSnapshot) (now : Instant)
    (e : DashMapEngine) {c : Command} (ok : Representable c) :
    replayCommand iter m now e (lossyCommand c) = exec iter m now e c := by
  cases c with
  | set key value lifetime =>
      rw [lossyCommand, fromUtf8Lossy_of_valid ok.1.2, replayCommand, exec_set,
        expiryOf_ttlMillis now value ok.2.2]
  | del key => rw [lossyCommand, fromUtf8Lossy_of_valid ok.2]; rfl
  | incr key => rw [lossyCommand, fromUtf8Lossy_of_valid ok.2]; rfl
  | expire key seconds => rw [lossyCommand, fromUtf8Lossy_of_valid ok.1.2]; rfl
  | flushDb => rfl
  | mset pairs =>
      have same : pairs.map lossyPair = pairs := by
        rw [List.map_congr_left fun p inside =>
          show lossyPair p = id p by rw [lossyPair, fromUtf8Lossy_of_valid (ok.2 p inside).1.2]; rfl]
        exact List.map_id pairs
      rw [lossyCommand, same]
      rfl
  | _ => exact ok.elim

theorem replayAll_of_representable (iter : Iter) (m : MetricsSnapshot) (now : Instant)
    {cs : List Command} (ok : ∀ c ∈ cs, Representable c) (e : DashMapEngine) :
    replayAll iter m now e (cs.map lossyCommand) = execAll iter m now e cs := by
  induction cs generalizing e with
  | nil => rfl
  | cons c cs ih =>
      show replayAll iter m now (replayCommand iter m now e (lossyCommand c)) (cs.map lossyCommand) = _
      rw [replayCommand_of_representable iter m now e (ok c (by simp)),
        ih (fun d inside => ok d (by simp [inside])), execAll_cons]

/-! ## One whole entry -/

section Whole

variable {iter : Iter} {m : MetricsSnapshot} {now : Instant} {data : Bytes} {pos : Nat}
  {e : DashMapEngine} {rest : Bytes}

theorem replaySet_eq (iter : Iter) (now : Instant) (data : Bytes) (pos : Nat) (e : DashMapEngine) :
    replaySet iter now data pos e =
      (readRecord "aof" data data.length pos).map fun r =>
        ((e.set iter now r.1.1 ⟨r.1.2.1, expiryOf now r.1.2.2, some now⟩).2, r.2) := by
  simp only [replaySet, readRecord, Reader.pair, Option.bind_eq_bind, Option.pure_def]
  cases readKey "aof" data data.length pos with
  | none => rfl
  | some k =>
      simp only [Option.bind_some]
      cases readValue "aof" data data.length k.2 with
      | none => rfl
      | some v =>
          simp only [Option.bind_some]
          cases readTtl "aof" data data.length v.2 <;> rfl

theorem replayExpire_eq (now : Instant) (data : Bytes) (pos : Nat) (e : DashMapEngine) :
    replayExpire now data pos e =
      (((readKey "aof").pair (readSeconds "aof")) data data.length pos).map fun r =>
        ((e.expire now r.1.1 r.1.2).2, r.2) := by
  simp only [replayExpire, Reader.pair, Option.bind_eq_bind, Option.pure_def]
  cases readKey "aof" data data.length pos with
  | none => rfl
  | some k =>
      simp only [Option.bind_some]
      cases readSeconds "aof" data data.length k.2 <;> rfl

theorem replayDel_eq (now : Instant) (data : Bytes) (pos : Nat) (e : DashMapEngine) :
    replayDel now data pos e =
      (readKey "aof" data data.length pos).map fun r => ((e.del now r.1).2, r.2) := by
  simp only [replayDel, Option.bind_eq_bind, Option.pure_def]
  cases readKey "aof" data data.length pos <;> rfl

theorem replayIncr_eq (iter : Iter) (now : Instant) (data : Bytes) (pos : Nat) (e : DashMapEngine) :
    replayIncr iter now data pos e =
      (readKey "aof" data data.length pos).map fun r => ((e.incr iter now r.1).2, r.2) := by
  simp only [replayIncr, Option.bind_eq_bind, Option.pure_def]
  cases readKey "aof" data data.length pos <;> rfl

theorem replayMset_eq (iter : Iter) (now : Instant) (data : Bytes) (pos : Nat) (e : DashMapEngine) :
    replayMset iter now data pos e =
      (readCount "aof" data data.length pos).map fun r => replayPairs iter now data r.1 r.2 e := by
  simp only [replayMset, Option.bind_eq_bind, Option.pure_def]
  cases readCount "aof" data data.length pos <;> rfl

/-- What the loop sees at `pos` is the rest of the file. -/
theorem drop_of_at {seen : Bytes} (here : At data data.length pos seen) : data.drop pos = seen := by
  simpa using here.sees

theorem readPair_whole {p : Key × Bytes} (short : p.1.length ≤ 65535) (valueOk : ValueOk p.2)
    (here : At data data.length pos (encodePair p ++ rest)) :
    readPair data pos = .pair (fromUtf8Lossy p.1) p.2 (pos + (encodePair p).length) := by
  rw [encodePair, List.append_assoc] at here
  have key := readKey_lossy "aof" short here
  have value := (readValue_decodes "aof").whole valueOk here.advance
  rcases readPair_spec data pos with
    ⟨k, mid, v, next, keyRead, valueRead, shape⟩ | ⟨stopped, -, -, noKey | ⟨k, mid, keyRead, noValue⟩⟩
  · cases key.symm.trans keyRead
    cases value.symm.trans valueRead
    rw [shape, encodePair, List.length_append, Nat.add_assoc]
  · cases key.symm.trans noKey
  · cases key.symm.trans keyRead
    cases value.symm.trans noValue

theorem replayPairs_whole (iter : Iter) (now : Instant) {pairs : List (Key × Bytes)}
    (fits : ∀ p ∈ pairs, p.1.length ≤ 65535 ∧ ValueOk p.2) (unlimited : e.maxKeys = 0)
    (here : At data data.length pos (pairs.flatMap encodePair ++ rest)) :
    replayPairs iter now data pairs.length pos e =
      ((msetLoop iter now e (pairs.map lossyPair)).2, pos + (pairs.flatMap encodePair).length) := by
  induction pairs generalizing pos e with
  | nil => rfl
  | cons p ps ih =>
      obtain ⟨short, valueOk⟩ := fits p (by simp)
      rw [List.flatMap_cons, List.append_assoc] at here
      have next := ih (e := e.insert (fromUtf8Lossy p.1) (ValueEntry.new now p.2))
        (fun q inside => fits q (by simp [inside])) unlimited here.advance
      simp only [List.length_cons, replayPairs, readPair_whole short valueOk here, List.map_cons,
        lossyPair, msetLoop, DashMapEngine.set_unlimited unlimited]
      rw [next, List.flatMap_cons, List.length_append, Nat.add_assoc]

/-- At a whole entry the replay does its version of the command and stands behind
the entry. -/
theorem replayEntry_whole (iter : Iter) (m : MetricsSnapshot) (now : Instant) {c : Command}
    (fits : FieldsFit c) (unlimited : e.maxKeys = 0)
    (here : At data data.length pos (c.aofBytes ++ rest)) :
    ∃ cmdType more, data.drop pos = cmdType :: more ∧
      replayEntry iter now data cmdType (pos + 1) e =
        some (replayCommand iter m now e (lossyCommand c), pos + c.aofBytes.length) := by
  have sees := drop_of_at here
  cases c with
  | set key value lifetime =>
      rw [aofBytes_set, List.cons_append] at here
      rw [aofBytes_set] at sees ⊢
      have read := readRecord_lossy "aof" (r := (key, value, Command.ttlMillis lifetime))
        ⟨fits.1, fits.2, ttlMillis_ok lifetime⟩ here.step
      refine ⟨_, _, sees, ?_⟩
      rw [replayEntry, if_pos rfl, replaySet_eq, read]
      simp [lossyRecord, lossyCommand, replayCommand, Nat.add_assoc, Nat.add_comm]
  | del key =>
      rw [aofBytes_del, List.cons_append] at here
      rw [aofBytes_del] at sees ⊢
      have read := readKey_lossy "aof" fits here.step
      refine ⟨_, _, sees, ?_⟩
      rw [replayEntry, if_neg (by decide), if_pos rfl, replayDel_eq, read, lossyCommand,
        replayCommand_del]
      simp [Nat.add_assoc, Nat.add_comm]
  | incr key =>
      rw [aofBytes_incr, List.cons_append] at here
      rw [aofBytes_incr] at sees ⊢
      have read := readKey_lossy "aof" fits here.step
      refine ⟨_, _, sees, ?_⟩
      rw [replayEntry, if_neg (by decide), if_neg (by decide), if_pos rfl, replayIncr_eq, read,
        lossyCommand, replayCommand_incr]
      simp [Nat.add_assoc, Nat.add_comm]
  | expire key seconds =>
      rw [aofBytes_expire, List.cons_append] at here
      rw [aofBytes_expire] at sees ⊢
      have body := here.step
      rw [List.append_assoc] at body
      have keyRead := readKey_lossy "aof" fits.1 body
      have secondsRead := (readSeconds_decodes "aof").whole fits.2 body.advance
      refine ⟨_, _, sees, ?_⟩
      rw [replayEntry, if_neg (by decide), if_neg (by decide), if_neg (by decide), if_pos rfl,
        replayExpire_eq, Reader.pair, keyRead, Option.bind_some, secondsRead, lossyCommand,
        replayCommand_expire]
      simp only [Option.bind_some, Option.map_some, List.length_cons, List.length_append,
        Option.some.injEq, Prod.mk.injEq, true_and]
      omega
  | flushDb =>
      rw [aofBytes_flushDb] at sees ⊢
      refine ⟨_, _, sees, ?_⟩
      rw [replayEntry, if_neg (by decide), if_neg (by decide), if_neg (by decide),
        if_neg (by decide), if_pos rfl]
      rfl
  | mset pairs =>
      rw [aofBytes_mset, List.cons_append] at here
      rw [aofBytes_mset] at sees ⊢
      have body := here.step
      rw [List.append_assoc] at body
      have count := (readCount_decodes "aof").whole fits.1 body
      have pairsRead := replayPairs_whole iter now fits.2 unlimited body.advance
      refine ⟨_, _, sees, ?_⟩
      rw [replayEntry, if_neg (by decide), if_neg (by decide), if_neg (by decide),
        if_neg (by decide), if_neg (by decide), if_pos rfl, replayMset_eq, lossyCommand,
        replayCommand_mset]
      rw [count, Option.map_some, pairsRead]
      simp only [List.length_cons, List.length_append, Option.some.injEq, Prod.mk.injEq, true_and]
      omega
  | _ => exact fits.elim

end Whole

/-! ## A whole log -/

section Log

variable {iter : Iter} {m : MetricsSnapshot} {now : Instant} {data : Bytes} {pos : Nat}
  {e : DashMapEngine} {rest : Bytes}

theorem aofBytes_ne_nil {c : Command} (fits : FieldsFit c) : c.aofBytes ≠ [] := by
  cases c <;> first | exact fits.elim | simp [Command.aofBytes, Command.toAofEntry]

/-- Every entry has at least its opcode. -/
theorem length_le_logBytes {cs : List Command} (fits : ∀ c ∈ cs, FieldsFit c) :
    cs.length ≤ (logBytes cs).length := by
  induction cs with
  | nil => simp
  | cons c cs ih =>
      have := ih fun d inside => fits d (by simp [inside])
      have := List.length_pos_iff.2 (aofBytes_ne_nil (fits c (by simp)))
      simp only [logBytes_cons, List.length_append, List.length_cons]
      omega

/-- No write command changes the key limit. -/
theorem exec_maxKeys (unlimited : e.maxKeys = 0) {c : Command} (write : c.isWrite = true) :
    (exec iter m now e c).maxKeys = 0 := by
  cases c with
  | set key value lifetime => rw [exec_set, DashMapEngine.set_unlimited unlimited]; exact unlimited
  | del key =>
      rw [exec_del]
      unfold DashMapEngine.del
      split
      · split <;> exact unlimited
      · exact unlimited
  | incr key =>
      rw [exec_incr, DashMapEngine.incr_unlimited unlimited]
      split
      · exact unlimited
      · split
        · exact unlimited
        · split <;> exact unlimited
  | expire key seconds =>
      rw [exec_expire]
      unfold DashMapEngine.expire
      split
      · exact unlimited
      · split
        · rw [DashMapEngine.removeIfExpired_maxKeys, unlimited]
        · exact unlimited
  | flushDb => exact unlimited
  | mset pairs =>
      rw [exec_mset]
      clear write
      induction pairs generalizing e with
      | nil => exact unlimited
      | cons p ps ih =>
          rw [msetLoop, DashMapEngine.set_unlimited unlimited]
          exact ih unlimited
  | _ => cases write

theorem replayCommand_maxKeys (unlimited : e.maxKeys = 0) {c : Command} (write : c.isWrite = true) :
    (replayCommand iter m now e c).maxKeys = 0 := by
  cases c with
  | set key value lifetime =>
      rw [replayCommand, DashMapEngine.set_unlimited unlimited]
      exact unlimited
  | _ => exact exec_maxKeys unlimited write

/-- The loop over whole entries replays their commands, one turn each, and stands
behind them. -/
theorem replayLoop_whole (iter : Iter) (m : MetricsSnapshot) (now : Instant) {cs : List Command}
    (fits : ∀ c ∈ cs, FieldsFit c)
    (unlimited : e.maxKeys = 0) (here : At data data.length pos (logBytes cs ++ rest))
    (fuel replayed : Nat) :
    replayLoop iter now data (cs.length + fuel) pos e replayed =
      replayLoop iter now data fuel (pos + (logBytes cs).length)
        (replayAll iter m now e (cs.map lossyCommand)) (replayed + cs.length) := by
  induction cs generalizing pos e replayed with
  | nil => simp [replayAll]
  | cons c cs ih =>
      rw [logBytes_cons, List.append_assoc] at here
      have fitsHead := fits c (by simp)
      obtain ⟨cmdType, more, sees, entry⟩ := replayEntry_whole iter m now fitsHead unlimited here
      have write : (lossyCommand c).isWrite = true := (lossyCommand_isWrite c).trans fitsHead.isWrite
      have next := ih (e := replayCommand iter m now e (lossyCommand c))
        (fun d inside => fits d (by simp [inside])) (replayCommand_maxKeys unlimited write)
        here.advance (replayed + 1)
      rw [List.length_cons, Nat.add_right_comm, replayLoop, sees]
      simp only [entry, next, logBytes_cons, List.length_append, Nat.add_assoc, Nat.add_comm 1]
      rfl

/-- The replay of a file that starts with whole entries reaches the rest of the
file with fuel for every byte of it. -/
theorem replayAof_front (iter : Iter) (m : MetricsSnapshot) (now : Instant) {cs : List Command}
    (fits : ∀ c ∈ cs, FieldsFit c) (unlimited : e.maxKeys = 0) (rest : Bytes) :
    ∃ fuel, rest.length ≤ fuel ∧
      At (logBytes cs ++ rest) (logBytes cs ++ rest).length (logBytes cs).length rest ∧
      replayAof iter now (some (logBytes cs ++ rest)) e =
        replayLoop iter now (logBytes cs ++ rest) fuel (logBytes cs).length
          (replayAll iter m now e (cs.map lossyCommand)) cs.length := by
  have here := At.start (logBytes cs ++ rest)
  have entries := length_le_logBytes fits
  refine ⟨(logBytes cs ++ rest).length - cs.length, ?_, ?_, ?_⟩
  · simp only [List.length_append]
    omega
  · simpa using here.advance
  · have run := replayLoop_whole iter m now fits unlimited here
      ((logBytes cs ++ rest).length - cs.length) 0
    rw [Nat.add_sub_cancel' (by simp only [List.length_append]; omega)] at run
    rw [replayAof, run, Nat.zero_add, Nat.zero_add]

/-- At the end of the file the loop stops. -/
theorem replayLoop_end (here : At data data.length pos []) (fuel replayed : Nat) :
    replayLoop iter now data fuel pos e replayed = some (e, replayed) := by
  unfold replayLoop
  rw [drop_of_at here]

/-- Replaying a log of fitting commands replays each of them once. -/
theorem replayAof_fits (iter : Iter) (m : MetricsSnapshot) (now : Instant) {cs : List Command}
    (fits : ∀ c ∈ cs, FieldsFit c) (unlimited : e.maxKeys = 0) :
    replayAof iter now (some (logBytes cs)) e =
      some (replayAll iter m now e (cs.map lossyCommand), cs.length) := by
  obtain ⟨fuel, -, behind, run⟩ := replayAof_front iter m now fits unlimited []
  rw [List.append_nil] at behind run
  rw [run, replayLoop_end behind]

/-- Replaying a log is executing its commands, each of them once. -/
theorem replayAof_log (iter : Iter) (m : MetricsSnapshot) (now : Instant) {cs : List Command}
    (ok : ∀ c ∈ cs, Representable c) (unlimited : e.maxKeys = 0) :
    replayAof iter now (some (logBytes cs)) e = some (execAll iter m now e cs, cs.length) := by
  rw [replayAof_fits iter m now (fun c inside => (ok c inside).fits) unlimited,
    replayAll_of_representable iter m now ok]

end Log

end ZetDb.Storage
