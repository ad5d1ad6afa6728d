/-
# Storage.ReplaySafety -- the replay is safe on arbitrary bytes

`replay_aof` runs over whatever the file holds.  `tracedReplay` is its loop as a
cursor program: the same checks, slices, helper calls and breaks, the inner loop of
MSET included, with the engine calls between them.

* `tracedReplay_safe`: on every file the program keeps the rules of `Within`, so no
  slice leaves the data, the cursor never moves back or past the end, and no
  little-endian helper is called where its bytes are missing.
* `tracedReplay_replays`: what it computes is `replayLoop`.
* `replayAof_safe`: so the replay of any byte string ends, with as many entries as
  there are bytes at most.

This is about the reading of the file.  Apart from it an entry may carry a deadline
beyond the clock, at which the engine panics (`Application.Deadlines`), and under a key
limit an INCR of a key that is not stored waits for itself (`Storage.ShardLocks`); the
engine that `main` replays into has no limit.
-/
import ZetDb.Storage.TracedFields
import ZetDb.Storage.AofReplay

namespace ZetDb.Storage

set_option autoImplicit false

open ZetDb.Theory.Wire ZetDb.Theory.Text ZetDb.Theory.Cursor ZetDb.Theory.Cursor.Traced ZetDb.Domain

/-! ## The replay as a cursor program -/

section Program

variable (iter : Iter) (now : Instant)

def tracedSet (e : DashMapEngine) : Traced DashMapEngine := do
  let r ← tracedRecord "aof"
  return (e.set iter now r.1 ⟨r.2.1, expiryOf now r.2.2, some now⟩).2

def tracedDel (e : DashMapEngine) : Traced DashMapEngine := do
  let key ← tracedKey "aof"
  return (e.del now key).2

def tracedIncr (e : DashMapEngine) : Traced DashMapEngine := do
  let key ← tracedKey "aof"
  return (e.incr iter now key).2

def tracedExpire (e : DashMapEngine) : Traced DashMapEngine := do
  let key ← tracedKey "aof"
  let seconds ← tracedSeconds "aof"
  return (e.expire now key seconds).2

def tracedPair : Traced (Key × Bytes) := do
  let key ← tracedKey "aof"
  let value ← tracedValue "aof"
  return (key, value)

/-- The inner loop of MSET; its `break` keeps the engine and the cursor. -/
def tracedPairs : Nat → DashMapEngine → Traced DashMapEngine
  | 0, e => pure e
  | count + 1, e => do
      match ← attempt tracedPair with
      | none => pure e
      | some (key, value) => tracedPairs count (e.set iter now key (ValueEntry.new now value)).2

def tracedMset (e : DashMapEngine) : Traced DashMapEngine := do
  let count ← tracedCount "aof"
  tracedPairs iter now count e

/-- The match on the opcode; an unknown one stops. -/
def tracedEntry (cmdType : UInt8) (e : DashMapEngine) : Traced DashMapEngine :=
  if cmdType = cmdSet then tracedSet iter now e
  else if cmdType = cmdDel then tracedDel now e
  else if cmdType = cmdIncr then tracedIncr iter now e
  else if cmdType = cmdExpire then tracedExpire now e
  else if cmdType = cmdFlushDb then pure e.clear
  else if cmdType = cmdMset then tracedMset iter now e
  else stop

/-- The outer loop; `none` only out of fuel. -/
def tracedReplay : Nat → DashMapEngine → Nat → Traced (Option (DashMapEngine × Nat))
  | fuel, e, replayed => do
      if ← atLimit then return some (e, replayed)
      match fuel with
      | 0 => return none
      | fuel + 1 =>
          match ← attempt (check 1 >>= fun _ => byte >>= fun cmdType => tracedEntry iter now cmdType e) with
          | none => return some (e, replayed)
          | some e => tracedReplay fuel e (replayed + 1)

/-! ## It keeps the rules -/

theorem tracedPairs_safe (count : Nat) (e : DashMapEngine) :
    Safe lengthBound 0 (tracedPairs iter now count e) := by
  induction count generalizing e with
  | zero => exact .value e
  | succ count ih =>
      have pair : Safe lengthBound 0 tracedPair :=
        .bind (tracedKey_safe "aof") fun _ => .bind (tracedValue_safe "aof") fun _ => .value _
      refine .bind pair.caught ?_
      intro read
      cases read with
      | none => exact .value e
      | some r => exact ih _

theorem tracedEntry_safe (cmdType : UInt8) (e : DashMapEngine) :
    Safe lengthBound 0 (tracedEntry iter now cmdType e) := by
  have key := tracedKey_safe "aof"
  unfold tracedEntry
  refine .ite (fun _ => ?set) fun _ => .ite (fun _ => ?del) fun _ => .ite (fun _ => ?incr) fun _ =>
    .ite (fun _ => ?expire) fun _ => .ite (fun _ => ?flush) fun _ => .ite (fun _ => ?mset) fun _ => ?unknown
  case set => exact .bind (tracedRecord_safe "aof") fun _ => .value _
  case del => exact .bind key fun _ => .value _
  case incr => exact .bind key fun _ => .value _
  case expire => exact .bind key fun _ => .bind (tracedSeconds_safe "aof") fun _ => .value _
  case flush => exact .value _
  case mset => exact .bind (tracedCount_safe "aof") fun count => tracedPairs_safe iter now count e
  case unknown => exact .ofStop

theorem tracedReplay_safe (fuel : Nat) (e : DashMapEngine) (replayed : Nat) :
    Safe lengthBound 0 (tracedReplay iter now fuel e replayed) := by
  induction fuel generalizing e replayed with
  | zero =>
      unfold tracedReplay
      refine .afterLook ?_
      intro done
      exact .ite (fun _ => .value _) fun _ => .value _
  | succ fuel ih =>
      unfold tracedReplay
      refine .afterLook ?_
      intro done
      refine .ite (fun _ => .value _) fun _ => ?_
      have entry : Safe lengthBound 0
          (check 1 >>= fun _ => byte >>= fun cmdType => tracedEntry iter now cmdType e) :=
        .afterCheck (by decide) (.afterByte fun cmdType => tracedEntry_safe iter now cmdType e)
      refine .bind entry.caught ?_
      intro next
      cases next with
      | none => exact .value _
      | some e => exact ih e (replayed + 1)

end Program

/-! ## It computes the replay -/

section Computes

variable {iter : Iter} {now : Instant} {data : Bytes} {e : DashMapEngine}

/-- What a turn of the inner loop makes of a pair that was read, or not. -/
def pairStep : Option (Key × Bytes) × Nat → PairStep
  | (none, pos) => .stop pos
  | (some (key, value), pos) => .pair key value pos

/-- The inner loop's turn is written out in the source; it stops where the fields
stop. -/
theorem readPair_eq (data : Bytes) (pos : Nat) :
    readPair data pos = pairStep (tracedPair.outcome data data.length pos) := by
  unfold tracedPair tracedKey tracedValue
  rw [outcome_bind, outcome_bind, outcome_sizedBytes, outcome_checkedWord]
  by_cases noLen : pos + 2 > data.length
  · simp [readPair, noLen, pairStep]
  have len : pos + 2 ≤ data.length := Nat.le_of_not_lt noLen
  simp only [readPair, readU16Le, readLe, if_neg noLen, if_pos len]
  by_cases noKey : pos + 2 + ofLe (slice data pos 2) > data.length
  · simp only [if_pos noKey]
    rfl
  generalize pos + 2 + ofLe (slice data pos 2) = mid at noKey
  simp only [if_neg noKey]
  show _ = pairStep (outcome (sizedBytes _ 4 >>= _) data data.length mid)
  rw [outcome_bind, outcome_sizedBytes, outcome_checkedWord]
  by_cases noValLen : mid + 4 > data.length
  · simp only [if_pos noValLen]
    rfl
  have valLen : mid + 4 ≤ data.length := Nat.le_of_not_lt noValLen
  simp only [readU32Le, readLe, if_neg noValLen, if_pos valLen]
  by_cases noValue : mid + 4 + ofLe (slice data mid 4) > data.length
  · simp only [if_pos noValue]
    rfl
  · simp only [if_neg noValue]
    rfl

theorem tracedPairs_replays (count pos : Nat) (e : DashMapEngine) :
    (tracedPairs iter now count e).toReader data data.length pos =
      some (replayPairs iter now data count pos e) := by
  induction count generalizing pos e with
  | zero => rfl
  | succ count ih =>
      have turn := readPair_eq data pos
      rw [tracedPairs, toReader_attempt, replayPairs, turn]
      cases tracedPair.outcome data data.length pos with
      | mk read next =>
          cases read with
          | none => rfl
          | some r => exact ih _ _

theorem tracedEntry_replays (cmdType : UInt8) (pos : Nat) :
    (tracedEntry iter now cmdType e).toReader data data.length pos =
      replayEntry iter now data cmdType pos e := by
  unfold tracedEntry replayEntry
  split_ifs with isSet isDel isIncr isExpire isFlush isMset
  · rw [tracedSet, toReader_value, tracedRecord_reads, replaySet_eq]
  · rw [tracedDel, toReader_value, tracedKey_reads, replayDel_eq]
  · rw [tracedIncr, toReader_value, tracedKey_reads, replayIncr_eq]
  · rw [tracedExpire, toReader_bind, tracedKey_reads, replayExpire_eq, Reader.pair]
    cases readKey "aof" data data.length pos with
    | none => rfl
    | some key =>
        rw [Option.bind_some, toReader_value, tracedSeconds_reads, Option.bind_some]
        cases readSeconds "aof" data data.length key.2 <;> rfl
  · rfl
  · rw [tracedMset, toReader_bind, tracedCount_reads, replayMset_eq]
    cases readCount "aof" data data.length pos with
    | none => rfl
    | some count => exact tracedPairs_replays count.1 count.2 e
  · rfl

theorem length_of_drop {cmdType : UInt8} {pos : Nat} {rest : Bytes}
    (here : data.drop pos = cmdType :: rest) : pos < data.length := by
  have size := congrArg List.length here
  simp only [List.length_drop, List.length_cons] at size
  omega

/-- One turn of the outer loop, its opcode included. -/
theorem tracedTurn_replays (iter : Iter) (now : Instant) (e : DashMapEngine) {cmdType : UInt8} {pos : Nat}
    {rest : Bytes} (here : data.drop pos = cmdType :: rest) :
    (check 1 >>= fun _ => byte >>= fun cmdType => tracedEntry iter now cmdType e).toReader data
        data.length pos =
      replayEntry iter now data cmdType (pos + 1) e := by
  have inside := length_of_drop here
  rw [toReader_check, if_neg (by omega), toReader_bind]
  have opcode : byte.toReader data data.length pos = some (cmdType, pos + 1) := by
    simp [toReader, result, final, byte, here]
  rw [opcode, Option.bind_some, tracedEntry_replays]

theorem tracedReplay_end (iter : Iter) (now : Instant) (fuel : Nat) {pos : Nat} (e : DashMapEngine)
    (replayed : Nat) (done : data.drop pos = []) :
    ((tracedReplay iter now fuel e replayed).outcome data data.length pos).1 =
      some (replayLoop iter now data fuel pos e replayed) := by
  have passed : data.length ≤ pos := List.drop_eq_nil_iff.1 done
  unfold tracedReplay replayLoop
  rw [outcome_look, if_pos (decide_eq_true passed), done]
  rfl

theorem tracedReplay_replays (iter : Iter) (now : Instant) (data : Bytes) (fuel pos : Nat)
    (e : DashMapEngine) (replayed : Nat) :
    ((tracedReplay iter now fuel e replayed).outcome data data.length pos).1 =
      some (replayLoop iter now data fuel pos e replayed) := by
  induction fuel generalizing pos e replayed with
  | zero =>
      cases here : data.drop pos with
      | nil => exact tracedReplay_end iter now 0 e replayed here
      | cons cmdType rest =>
          have left := length_of_drop here
          unfold tracedReplay replayLoop
          rw [outcome_look, if_neg (by simpa using left), here]
          rfl
  | succ fuel ih =>
      cases here : data.drop pos with
      | nil => exact tracedReplay_end iter now (fuel + 1) e replayed here
      | cons cmdType rest =>
          have left := length_of_drop here
          have turn := tracedTurn_replays iter now e here
          unfold tracedReplay replayLoop
          rw [outcome_look, if_neg (by simpa using left), outcome_attempt]
          simp only [here]
          cases entry : replayEntry iter now data cmdType (pos + 1) e with
          | none =>
              rw [entry] at turn
              rw [toReader_eq_none turn]
              rfl
          | some r =>
              rw [entry] at turn
              rw [toReader_eq_some turn]
              exact ih r.2 r.1 (replayed + 1)

/-- Every entry takes its opcode, so there are no more entries than bytes. -/
theorem replayLoop_count {fuel pos replayed n : Nat} {e' : DashMapEngine}
    (ends : replayLoop iter now data fuel pos e replayed = some (e', n)) :
    n ≤ replayed + (data.length - pos) := by
  induction fuel generalizing pos e replayed with
  | zero =>
      unfold replayLoop at ends
      cases here : data.drop pos with
      | nil =>
          rw [here] at ends
          cases ends
          omega
      | cons cmdType rest =>
          rw [here] at ends
          cases ends
  | succ fuel ih =>
      unfold replayLoop at ends
      cases here : data.drop pos with
      | nil =>
          rw [here] at ends
          cases ends
          omega
      | cons cmdType rest =>
          have inside := length_of_drop here
          simp only [here] at ends
          cases entry : replayEntry iter now data cmdType (pos + 1) e with
          | none =>
              rw [entry] at ends
              cases ends
              omega
          | some r =>
              rw [entry] at ends
              have forward := replayEntry_forward entry
              have rest := ih ends
              omega

end Computes

/-- The replay of any byte string, the calls of the engine taken to come back: it ends,
and on the way every slice lies in the data, the cursor only moves forward and never past
the end, and no helper reports an error; it counts no more entries than there are bytes. -/
theorem replayAof_safe (iter : Iter) (now : Instant) (data : Bytes) (e : DashMapEngine) :
    ∃ events e' n final,
      tracedReplay iter now data.length e 0 data data.length 0 = (events, some (some (e', n)), final) ∧
      Theory.Cursor.Within data.length lengthBound 0 events final ∧ final ≤ data.length ∧
      replayAof iter now (some data) e = some (e', n) ∧ n ≤ data.length := by
  obtain ⟨⟨e', n⟩, ends⟩ := Option.isSome_iff_exists.1 (replayAof_isSome iter now (some data) e)
  have loop : replayLoop iter now data data.length 0 e 0 = some (e', n) := ends
  have computes := tracedReplay_replays iter now data data.length 0 e 0
  have count := replayLoop_count loop
  rw [loop] at computes
  obtain ⟨events, final, runs, keeps, inside⟩ := (tracedReplay_safe iter now data.length e 0).returns
    (Nat.le_refl data.length) (Nat.zero_le _) computes
  exact ⟨events, e', n, final, runs, keeps, inside, ends, by omega⟩

end ZetDb.Storage
