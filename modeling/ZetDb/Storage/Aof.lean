/-
# Storage.Aof -- replaying and rewriting the append-only file

Embeds `replay_aof` and `rewrite_aof` of `storage/aof.rs`.  The replay is a
cursor over the whole file: one opcode byte, then the fields of that entry.  A
truncated field stops the replay -- except inside an MSET entry, whose inner loop
has its own `break`: there the pairs already read stay applied, the entry is
counted, and the outer loop goes on at the position where the inner one stopped.

`replayLoop` returns `none` only out of fuel; the file's length is enough
(`replayAof_isSome`).
-/
import ZetDb.Storage.Records
import ZetDb.Storage.Engine

namespace ZetDb.Storage

set_option autoImplicit false

open ZetDb.Theory.Wire ZetDb.Theory.Text ZetDb.Domain

def cmdSet : UInt8 := 0x01
def cmdDel : UInt8 := 0x02
def cmdIncr : UInt8 := 0x03
def cmdExpire : UInt8 := 0x04
def cmdFlushDb : UInt8 := 0x05
def cmdMset : UInt8 := 0x06

/-- The expiry a stored time to live means at `now`; nothing for `ttl_ms <= 0`. -/
def expiryOf (now : Instant) (ttlMs : Int) : Option Instant :=
  if ttlMs > 0 then some (now + Duration.fromMillis ttlMs.toNat) else none

/-! ## One entry

Each branch returns the engine and the position behind the entry, or `none` where
the source breaks out of the loop.  A failed `set` or `incr` is only logged. -/

section Entry

variable (iter : Iter) (now : Instant) (data : Bytes)

def replaySet (pos : Nat) (e : DashMapEngine) : Option (DashMapEngine × Nat) := do
  let (key, pos) ← readKey "aof" data data.length pos
  let (value, pos) ← readValue "aof" data data.length pos
  let (ttlMs, pos) ← readTtl "aof" data data.length pos
  return ((e.set iter now key ⟨value, expiryOf now ttlMs, some now⟩).2, pos)

def replayDel (pos : Nat) (e : DashMapEngine) : Option (DashMapEngine × Nat) := do
  let (key, pos) ← readKey "aof" data data.length pos
  return ((e.del now key).2, pos)

def replayIncr (pos : Nat) (e : DashMapEngine) : Option (DashMapEngine × Nat) := do
  let (key, pos) ← readKey "aof" data data.length pos
  return ((e.incr iter now key).2, pos)

def replayExpire (pos : Nat) (e : DashMapEngine) : Option (DashMapEngine × Nat) := do
  let (key, pos) ← readKey "aof" data data.length pos
  let (seconds, pos) ← readSeconds "aof" data data.length pos
  return ((e.expire now key seconds).2, pos)

/-- One turn of MSET's inner loop. -/
inductive PairStep where
  | stop (pos : Nat)
  | pair (key : Key) (value : Bytes) (pos : Nat)

/-- Unlike the other branches, a truncated pair leaves the cursor in mid-pair. -/
def readPair (pos : Nat) : PairStep :=
  if pos + 2 > data.length then .stop pos
  else
    match readU16Le "aof" data pos with
    | .error _ => .stop pos
    | .ok (keyLen, pos) =>
        if pos + keyLen > data.length then .stop pos
        else
          let key := fromUtf8Lossy (slice data pos keyLen)
          let pos := pos + keyLen
          if pos + 4 > data.length then .stop pos
          else
            match readU32Le "aof" data pos with
            | .error _ => .stop pos
            | .ok (valLen, pos) =>
                if pos + valLen > data.length then .stop pos
                else .pair key (slice data pos valLen) (pos + valLen)

def replayPairs : Nat → Nat → DashMapEngine → DashMapEngine × Nat
  | 0, pos, e => (e, pos)
  | count + 1, pos, e =>
      match readPair data pos with
      | .stop pos => (e, pos)
      | .pair key value pos =>
          replayPairs count pos (e.set iter now key (ValueEntry.new now value)).2

def replayMset (pos : Nat) (e : DashMapEngine) : Option (DashMapEngine × Nat) := do
  let (count, pos) ← readCount "aof" data data.length pos
  return replayPairs iter now data count pos e

/-- The match on the opcode; `pos` is already behind it. -/
def replayEntry (cmdType : UInt8) (pos : Nat) (e : DashMapEngine) : Option (DashMapEngine × Nat) :=
  if cmdType = cmdSet then replaySet iter now data pos e
  else if cmdType = cmdDel then replayDel now data pos e
  else if cmdType = cmdIncr then replayIncr iter now data pos e
  else if cmdType = cmdExpire then replayExpire now data pos e
  else if cmdType = cmdFlushDb then some (e.clear, pos)
  else if cmdType = cmdMset then replayMset iter now data pos e
  else none

/-! ## The loop -/

def replayLoop : Nat → Nat → DashMapEngine → Nat → Option (DashMapEngine × Nat)
  | fuel, pos, e, replayed =>
      match data.drop pos with
      | [] => some (e, replayed)
      | cmdType :: _ =>
          match fuel with
          | 0 => none
          | fuel + 1 =>
              match replayEntry iter now data cmdType (pos + 1) e with
              | none => some (e, replayed)
              | some (e, pos) => replayLoop fuel pos e (replayed + 1)

end Entry

/-- The engine after the replay and the number of entries replayed.  A missing
file (`none`) replays nothing. -/
def replayAof (iter : Iter) (now : Instant) (file : Option Bytes) (e : DashMapEngine) :
    Option (DashMapEngine × Nat) :=
  match file with
  | none => some (e, 0)
  | some data => replayLoop iter now data data.length 0 e 0

/-! ## The loop ends -/

section Progress

variable {iter : Iter} {now : Instant} {data : Bytes} {pos next : Nat} {e e' : DashMapEngine}

/-- A turn of the inner loop reads a key and a value, or stops at or behind the
cursor where one of the two is torn. -/
theorem readPair_spec (data : Bytes) (pos : Nat) :
    (∃ key mid value next, readKey "aof" data data.length pos = some (key, mid) ∧
      readValue "aof" data data.length mid = some (value, next) ∧
      readPair data pos = .pair key value next) ∨
    (∃ stopped, pos ≤ stopped ∧ readPair data pos = .stop stopped ∧
      (readKey "aof" data data.length pos = none ∨
        ∃ key mid, readKey "aof" data data.length pos = some (key, mid) ∧
          readValue "aof" data data.length mid = none)) := by
  by_cases noLen : pos + 2 > data.length
  · exact .inr ⟨pos, le_rfl, by simp [readPair, noLen], .inl (by simp [readKey, noLen])⟩
  have keyLen : readU16Le "aof" data pos = .ok (ofLe (slice data pos 2), pos + 2) := by
    simp only [readU16Le, readLe]
    rw [if_pos (by omega)]
  generalize ofLe (slice data pos 2) = n at keyLen
  by_cases noKey : pos + 2 + n > data.length
  · exact .inr ⟨pos + 2, by omega, by simp [readPair, noLen, keyLen, noKey],
      .inl (by simp [readKey, noLen, keyLen, noKey])⟩
  have key : readKey "aof" data data.length pos =
      some (fromUtf8Lossy (slice data (pos + 2) n), pos + 2 + n) := by
    simp [readKey, noLen, keyLen, noKey]
  by_cases noValLen : pos + 2 + n + 4 > data.length
  · exact .inr ⟨pos + 2 + n, by omega, by simp [readPair, noLen, keyLen, noKey, noValLen],
      .inr ⟨_, _, key, by simp [readValue, noValLen]⟩⟩
  have valLen : readU32Le "aof" data (pos + 2 + n) =
      .ok (ofLe (slice data (pos + 2 + n) 4), pos + 2 + n + 4) := by
    simp only [readU32Le, readLe]
    rw [if_pos (by omega)]
  generalize ofLe (slice data (pos + 2 + n) 4) = v at valLen
  by_cases noValue : pos + 2 + n + 4 + v > data.length
  · exact .inr ⟨pos + 2 + n + 4, by omega,
      by simp [readPair, noLen, keyLen, noKey, noValLen, valLen, noValue],
      .inr ⟨_, _, key, by simp [readValue, noValLen, valLen, noValue]⟩⟩
  · exact .inl ⟨_, _, _, _, key, by simp [readValue, noValLen, valLen, noValue]; exact ⟨rfl, rfl⟩,
      by simp [readPair, noLen, keyLen, noKey, noValLen, valLen, noValue]⟩

theorem replayPairs_forward (iter : Iter) (now : Instant) (data : Bytes) (count pos : Nat)
    (e : DashMapEngine) : pos ≤ (replayPairs iter now data count pos e).2 := by
  induction count generalizing pos e with
  | zero => exact le_rfl
  | succ count ih =>
      rcases readPair_spec data pos with
        ⟨key, mid, value, next, keyRead, valueRead, shape⟩ | ⟨stopped, behind, shape, -⟩
      · have first := (readKey_forward "aof" keyRead).1
        have second := (readValue_forward "aof" valueRead).1
        have rest := ih next (e.set iter now key (ValueEntry.new now value)).2
        simp only [replayPairs, shape]
        omega
      · simpa [replayPairs, shape] using behind

theorem replayEntry_forward {cmdType : UInt8}
    (replayed : replayEntry iter now data cmdType pos e = some (e', next)) : pos ≤ next := by
  unfold replayEntry replaySet replayDel replayIncr replayExpire replayMset at replayed
  simp only [Option.bind_eq_bind, Option.pure_def] at replayed
  split_ifs at replayed
  · simp only [Option.bind_eq_some_iff, Option.some.injEq, Prod.mk.injEq] at replayed
    obtain ⟨⟨key, p⟩, keyRead, ⟨value, q⟩, valueRead, ⟨ttl, r⟩, ttlRead, -, rfl⟩ := replayed
    have := (readKey_forward "aof" keyRead).1
    have := (readValue_forward "aof" valueRead).1
    have := (readTtl_forward "aof" ttlRead).1
    omega
  · simp only [Option.bind_eq_some_iff, Option.some.injEq, Prod.mk.injEq] at replayed
    obtain ⟨⟨key, p⟩, keyRead, -, rfl⟩ := replayed
    exact (readKey_forward "aof" keyRead).1
  · simp only [Option.bind_eq_some_iff, Option.some.injEq, Prod.mk.injEq] at replayed
    obtain ⟨⟨key, p⟩, keyRead, -, rfl⟩ := replayed
    exact (readKey_forward "aof" keyRead).1
  · simp only [Option.bind_eq_some_iff, Option.some.injEq, Prod.mk.injEq] at replayed
    obtain ⟨⟨key, p⟩, keyRead, ⟨secs, q⟩, secsRead, -, rfl⟩ := replayed
    have := (readKey_forward "aof" keyRead).1
    have := (readSeconds_forward "aof" secsRead).1
    omega
  · simp only [Option.some.injEq, Prod.mk.injEq] at replayed
    exact replayed.2.le
  · simp only [Option.bind_eq_some_iff, Option.some.injEq] at replayed
    obtain ⟨⟨count, p⟩, countRead, pairs⟩ := replayed
    have first := (readCount_forward "aof" countRead).1
    have second := replayPairs_forward iter now data count p e
    rw [pairs] at second
    exact le_trans first second

/-- Every turn of the loop passes its opcode, so the bytes left are enough fuel. -/
theorem replayLoop_isSome {fuel : Nat} (enough : data.length - pos ≤ fuel) (replayed : Nat) :
    (replayLoop iter now data fuel pos e replayed).isSome = true := by
  induction fuel generalizing pos e replayed with
  | zero =>
      have done : data.drop pos = [] := List.drop_eq_nil_of_le (by omega)
      simp [replayLoop, done]
  | succ fuel ih =>
      unfold replayLoop
      cases here : data.drop pos with
      | nil => rfl
      | cons cmdType rest =>
          cases entry : replayEntry iter now data cmdType (pos + 1) e with
          | none => simp [entry]
          | some r =>
              obtain ⟨e', next⟩ := r
              have behind := replayEntry_forward entry
              have rest : (replayLoop iter now data fuel next e' (replayed + 1)).isSome = true :=
                ih (by omega) (replayed + 1)
              simpa [entry] using rest

theorem replayAof_isSome (iter : Iter) (now : Instant) (file : Option Bytes) (e : DashMapEngine) :
    (replayAof iter now file e).isSome = true := by
  cases file with
  | none => rfl
  | some data => exact replayLoop_isSome (by omega) 0

end Progress

/-- The tmp file of a rewrite: every live entry as a SET. -/
def rewriteAof (iter : Iter) (now : Instant) (e : DashMapEngine) : Bytes :=
  (e.dumpEntries iter now).flatMap fun entry =>
    [cmdSet] ++ encodeKey entry.1 ++ encodeValue entry.2.1 ++ encodeTtl entry.2.2

end ZetDb.Storage
