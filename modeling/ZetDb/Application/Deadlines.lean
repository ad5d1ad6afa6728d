/-
# Application.Deadlines -- which durations the clock can hold

An `Instant` counts its seconds in a signed 64-bit word, and `Instant + Duration`
panics where the sum does not fit.  A SET with EX or PX and an EXPIRE take any
`u64`, and nothing between the parser and the addition looks at it.  The model
elsewhere adds without a limit; here the additions are checked, and `none` is the
panic that ends the task.

* `dispatchChecked`, `dispatchToBufferChecked`, `replayAofChecked`: the two
  dispatchers and the replay with checked additions.  Where they do not panic they
  are the functions of the model.
* `deadlines_iff`: a SET panics exactly when its lifetime leads beyond the clock, an
  EXPIRE exactly when its key is live and the seconds do; a replay when one of the
  entries it meets does, each read from its own field at the instant of the replay.
* `replayAof_refines_dispatch`: replaying a log is executing its commands, as far as
  the deadlines are in range; where one is not, both panic.
-/
import ZetDb.Protocol.ParserBorrowed
import ZetDb.Storage.AofReplay
import ZetDb.Storage.Expiry
import ZetDb.Storage.Reload

namespace ZetDb.Application

set_option autoImplicit false

open ZetDb.Theory.Wire ZetDb.Theory.Text ZetDb.Domain ZetDb.Storage ZetDb.Protocol

/-- `Instant + Duration`. -/
def checkedAdd (now : Instant) (d : Duration) : Option Instant :=
  if now + d < clockLimit then some (now + d) else none

/-- The checked value is the plain one where `P` holds, and the panic elsewhere. -/
structure Guards {α : Type} (P : Prop) (checked : Option α) (plain : α) : Prop where
  fits : P → checked = some plain
  beyond : ¬ P → checked = none

section Guards

variable {α β : Type} {P Q : Prop} {checked : Option α} {plain : α}

theorem Guards.always (plain : α) : Guards True (some plain) plain :=
  ⟨fun _ => rfl, fun never => absurd trivial never⟩

theorem Guards.map (guards : Guards P checked plain) (f : α → β) : Guards P (checked.map f) (f plain) :=
  ⟨fun fits => by rw [guards.fits fits]; rfl, fun beyond => by rw [guards.beyond beyond]; rfl⟩

theorem Guards.returns_iff (guards : Guards P checked plain) : checked ≠ none ↔ P := by
  constructor
  · intro returned
    by_contra beyond
    exact returned (guards.beyond beyond)
  · intro fits
    rw [guards.fits fits]
    exact Option.some_ne_none plain

theorem Guards.congr (guards : Guards P checked plain) (same : P ↔ Q) : Guards Q checked plain :=
  ⟨fun fits => guards.fits (same.2 fits), fun beyond => guards.beyond fun fits => beyond (same.1 fits)⟩

/-- A check in front, which takes the panic where `W` holds. -/
theorem Guards.unless {W : Prop} [Decidable W] (guards : Guards P checked plain) :
    Guards (¬ W ∧ P) (if W then none else checked) plain := by
  by_cases stopped : W
  · rw [if_pos stopped]
    exact ⟨fun both => absurd stopped both.1, fun _ => rfl⟩
  · rw [if_neg stopped]
    exact guards.congr ⟨fun fits => ⟨stopped, fits⟩, fun both => both.2⟩

end Guards

theorem checkedAdd_guards (now : Instant) (d : Duration) :
    Guards (now + d < clockLimit) (checkedAdd now d) (now + d) :=
  ⟨fun fits => if_pos fits, fun beyond => if_neg beyond⟩

/-! ## Dispatch -/

def withTtlChecked (now : Instant) (data : Bytes) (ttl : Duration) : Option ValueEntry :=
  (checkedAdd now ttl).map fun expiry => ⟨data, some expiry, some now⟩

def setEntryChecked (now : Instant) (value : Bytes) : Option Duration → Option ValueEntry
  | some dur => withTtlChecked now value dur
  | none => some (ValueEntry.new now value)

def expireChecked (now : Instant) (e : DashMapEngine) (key : Key) (seconds : Nat) :
    Option (Bool × DashMapEngine) :=
  match e.map.lookup key with
  | none => some (false, e)
  | some v =>
      if v.isExpiredAt now then some (false, e.removeIfExpired now key)
      else (checkedAdd now (Duration.fromSecs seconds)).map fun expiry =>
        (true, e.insert key { v with expiresAt := some expiry })

section Dispatch

variable (iter : Iter) (m : MetricsSnapshot) (now : Instant)

/-- `dispatch`; the commands that add no duration are those of the model. -/
def dispatchChecked (e : DashMapEngine) : Command → Option (Response × DashMapEngine)
  | .set key value ttl =>
      (setEntryChecked now value ttl).map fun entry =>
        match e.set iter now key entry with
        | (.ok (), e) => (.ok, e)
        | (.error err, e) => (.error (.internalError err.toText), e)
  | .expire key seconds =>
      (expireChecked now e key seconds).map fun
        | (found, e) => (.integer (boolInteger found), e)
  | c => some (dispatch iter m now e c)

/-- `dispatch_to_buffer`. -/
def dispatchToBufferChecked (e : DashMapEngine) (isResp : Bool) : Command → Option (Bytes × DashMapEngine)
  | .set key value ttl =>
      (setEntryChecked now value ttl).map fun entry =>
        match e.set iter now key entry with
        | (.ok (), e) => (ascii "+OK\r\n", e)
        | (.error _, e) => (ascii "-ERR internal\r\n", e)
  | .expire key seconds =>
      (expireChecked now e key seconds).map fun
        | (found, e) => (integerLine (boolInteger found), e)
  | c => some (dispatchToBuffer iter m now e isResp c)

end Dispatch

/-! ## Replay -/

section Replay

variable (iter : Iter) (now : Instant) (data : Bytes)

def expiryOfChecked (ttlMs : Int) : Option (Option Instant) :=
  if ttlMs > 0 then (checkedAdd now (Duration.fromMillis ttlMs.toNat)).map some else some none

/-- One SET entry: `none` is the panic, `some none` leaves the loop. -/
def replaySetChecked (pos : Nat) (e : DashMapEngine) : Option (Option (DashMapEngine × Nat)) :=
  match readRecord "aof" data data.length pos with
  | none => some none
  | some ((key, value, ttlMs), pos) =>
      (expiryOfChecked now ttlMs).map fun expiry =>
        some ((e.set iter now key ⟨value, expiry, some now⟩).2, pos)

def replayExpireChecked (pos : Nat) (e : DashMapEngine) : Option (Option (DashMapEngine × Nat)) :=
  match (readKey "aof").pair (readSeconds "aof") data data.length pos with
  | none => some none
  | some ((key, seconds), pos) =>
      (expireChecked now e key seconds).map fun result => some (result.2, pos)

def replayEntryChecked (cmdType : UInt8) (pos : Nat) (e : DashMapEngine) :
    Option (Option (DashMapEngine × Nat)) :=
  if cmdType = cmdSet then replaySetChecked iter now data pos e
  else if cmdType = cmdExpire then replayExpireChecked now data pos e
  else some (replayEntry iter now data cmdType pos e)

def replayLoopChecked : Nat → Nat → DashMapEngine → Nat → Option (Option (DashMapEngine × Nat))
  | fuel, pos, e, replayed =>
      match data.drop pos with
      | [] => some (some (e, replayed))
      | cmdType :: _ =>
          match fuel with
          | 0 => some none
          | fuel + 1 =>
              match replayEntryChecked iter now data cmdType (pos + 1) e with
              | none => none
              | some none => some (some (e, replayed))
              | some (some (e, pos)) => replayLoopChecked fuel pos e (replayed + 1)

end Replay

/-- `replay_aof`. -/
def replayAofChecked (iter : Iter) (now : Instant) (file : Option Bytes) (e : DashMapEngine) :
    Option (Option (DashMapEngine × Nat)) :=
  match file with
  | none => some (some (e, 0))
  | some data => replayLoopChecked iter now data data.length 0 e 0

/-! ## Deadlines in range -/

/-- An expiry of an entry that is live is within the range of the clock. -/
def ExpireInRange (now : Instant) (e : DashMapEngine) (key : Key) (seconds : Nat) : Prop :=
  (e.live now key).isSome = true → now + Duration.fromSecs seconds < clockLimit

/-- A lifetime that starts now. -/
def LifetimeInRange (now : Instant) : Option Duration → Prop
  | some dur => now + dur < clockLimit
  | none => True

/-- The deadline a command sets when it is dispatched. -/
def DispatchInRange (now : Instant) (e : DashMapEngine) : Command → Prop
  | .set _ _ ttl => LifetimeInRange now ttl
  | .expire key seconds => ExpireInRange now e key seconds
  | _ => True

/-- The expiry a time to live of the log means when it is read. -/
def TtlInRange (now : Instant) (ttlMs : Int) : Prop :=
  0 < ttlMs → now + Duration.fromMillis ttlMs.toNat < clockLimit

/-- The deadline that the entry at the cursor sets. -/
def EntryInRange (now : Instant) (data : Bytes) (cmdType : UInt8) (pos : Nat) (e : DashMapEngine) : Prop :=
  (cmdType = cmdSet → ∀ key value ttlMs next,
      readRecord "aof" data data.length pos = some ((key, value, ttlMs), next) → TtlInRange now ttlMs) ∧
    (cmdType = cmdExpire → ∀ key seconds next,
      (readKey "aof").pair (readSeconds "aof") data data.length pos = some ((key, seconds), next) →
        ExpireInRange now e key seconds)

/-- Every entry the replay meets from the cursor on. -/
def ReplayInRange (iter : Iter) (now : Instant) (data : Bytes) : Nat → Nat → DashMapEngine → Prop
  | fuel, pos, e =>
      match data.drop pos with
      | [] => True
      | cmdType :: _ =>
          match fuel with
          | 0 => True
          | fuel + 1 => EntryInRange now data cmdType (pos + 1) e ∧
              ∀ e' next, replayEntry iter now data cmdType (pos + 1) e = some (e', next) →
                ReplayInRange iter now data fuel next e'

/-- The deadline the entry of a command sets when it is replayed alone. -/
def AloneInRange (now : Instant) (e : DashMapEngine) : Command → Prop
  | .set _ _ ttl => TtlInRange now (Command.ttlMillis ttl)
  | .expire key seconds => ExpireInRange now e (fromUtf8Lossy key) seconds
  | _ => True

section Range

theorem setEntryChecked_guards (now : Instant) (value : Bytes) (ttl : Option Duration) :
    Guards (LifetimeInRange now ttl) (setEntryChecked now value ttl) (setEntry now value ttl) := by
  cases ttl with
  | none => exact .always _
  | some dur => exact (checkedAdd_guards now dur).map _

theorem expireChecked_guards (now : Instant) (e : DashMapEngine) (key : Key) (seconds : Nat) :
    Guards (ExpireInRange now e key seconds) (expireChecked now e key seconds) (e.expire now key seconds) := by
  have vacuous (absent : e.live now key = none) : True ↔ ExpireInRange now e key seconds :=
    iff_of_true trivial fun live => by rw [absent] at live; cases live
  unfold expireChecked DashMapEngine.expire
  cases held : e.map.lookup key with
  | none => exact (Guards.always _).congr (vacuous (by rw [DashMapEngine.live, held]; rfl))
  | some v =>
      cases expired : v.isExpiredAt now with
      | true =>
          have absent : e.live now key = none := by simp [DashMapEngine.live, held, expired]
          simp only [expired, if_true]
          exact (Guards.always _).congr (vacuous absent)
      | false =>
          have live : (e.live now key).isSome = true := by rw [live_eq_some.2 ⟨held, expired⟩]; rfl
          have same : now + Duration.fromSecs seconds < clockLimit ↔ ExpireInRange now e key seconds :=
            ⟨fun fits _ => fits, fun fits => fits live⟩
          simp only [expired, Bool.false_eq_true, if_false]
          exact ((checkedAdd_guards now (Duration.fromSecs seconds)).map _).congr same

theorem expiryOfChecked_guards (now : Instant) (ttlMs : Int) :
    Guards (TtlInRange now ttlMs) (expiryOfChecked now ttlMs) (expiryOf now ttlMs) := by
  unfold expiryOfChecked expiryOf
  by_cases positive : ttlMs > 0
  · have same : now + Duration.fromMillis ttlMs.toNat < clockLimit ↔ TtlInRange now ttlMs :=
      ⟨fun fits _ => fits, fun fits => fits positive⟩
    rw [if_pos positive, if_pos positive]
    exact ((checkedAdd_guards now _).map some).congr same
  · rw [if_neg positive, if_neg positive]
    exact (Guards.always none).congr (iff_of_true trivial fun millis => absurd millis positive)

/-! ## The dispatchers -/

/-- A dispatcher that returns is the one of the model. -/
theorem dispatchChecked_guards (iter : Iter) (m : MetricsSnapshot) (now : Instant) (e : DashMapEngine)
    (c : Command) :
    Guards (DispatchInRange now e c) (dispatchChecked iter m now e c) (dispatch iter m now e c) := by
  cases c with
  | set key value ttl => exact (setEntryChecked_guards now value ttl).map _
  | expire key seconds => exact (expireChecked_guards now e key seconds).map _
  | _ => exact .always _

theorem dispatchToBufferChecked_guards (iter : Iter) (m : MetricsSnapshot) (now : Instant)
    (e : DashMapEngine) (isResp : Bool) (c : Command) :
    Guards (DispatchInRange now e c) (dispatchToBufferChecked iter m now e isResp c)
      (dispatchToBuffer iter m now e isResp c) := by
  cases c with
  | set key value ttl => exact (setEntryChecked_guards now value ttl).map _
  | expire key seconds => exact (expireChecked_guards now e key seconds).map _
  | _ => exact .always _

/-! ## The replay -/

theorem replaySetChecked_guards (iter : Iter) (now : Instant) (data : Bytes) (pos : Nat) (e : DashMapEngine) :
    Guards
      (∀ key value ttlMs next,
        readRecord "aof" data data.length pos = some ((key, value, ttlMs), next) → TtlInRange now ttlMs)
      (replaySetChecked iter now data pos e) (replaySet iter now data pos e) := by
  rw [replaySet_eq, replaySetChecked]
  cases read : readRecord "aof" data data.length pos with
  | none => exact (Guards.always none).congr (by simp)
  | some r =>
      obtain ⟨⟨key, value, ttlMs⟩, next⟩ := r
      have same : TtlInRange now ttlMs ↔ ∀ key' value' ttlMs' next',
          some ((key, value, ttlMs), next) = some ((key', value', ttlMs'), next') → TtlInRange now ttlMs' :=
        ⟨fun fits _ _ _ _ this => by cases this; exact fits, fun all => all _ _ _ _ rfl⟩
      exact ((expiryOfChecked_guards now ttlMs).map _).congr same

theorem replayExpireChecked_guards (now : Instant) (data : Bytes) (pos : Nat) (e : DashMapEngine) :
    Guards
      (∀ key seconds next, (readKey "aof").pair (readSeconds "aof") data data.length pos =
        some ((key, seconds), next) → ExpireInRange now e key seconds)
      (replayExpireChecked now data pos e) (replayExpire now data pos e) := by
  rw [replayExpire_eq, replayExpireChecked]
  cases read : (readKey "aof").pair (readSeconds "aof") data data.length pos with
  | none => exact (Guards.always none).congr (by simp)
  | some r =>
      obtain ⟨⟨key, seconds⟩, next⟩ := r
      have same : ExpireInRange now e key seconds ↔ ∀ key' seconds' next',
          some ((key, seconds), next) = some ((key', seconds'), next') →
            ExpireInRange now e key' seconds' :=
        ⟨fun fits _ _ _ this => by cases this; exact fits, fun all => all _ _ _ rfl⟩
      exact ((expireChecked_guards now e key seconds).map _).congr same

theorem replayEntryChecked_guards (iter : Iter) (now : Instant) (data : Bytes) (cmdType : UInt8) (pos : Nat)
    (e : DashMapEngine) :
    Guards (EntryInRange now data cmdType pos e) (replayEntryChecked iter now data cmdType pos e)
      (replayEntry iter now data cmdType pos e) := by
  unfold replayEntryChecked replayEntry EntryInRange
  by_cases isSet : cmdType = cmdSet
  · have notExpire : cmdType ≠ cmdExpire := by rw [isSet]; decide
    rw [if_pos isSet, if_pos isSet]
    exact (replaySetChecked_guards iter now data pos e).congr
      ⟨fun all => ⟨fun _ => all, fun same => absurd same notExpire⟩, fun both => both.1 isSet⟩
  · rw [if_neg isSet, if_neg isSet]
    by_cases isExpire : cmdType = cmdExpire
    · rw [if_pos isExpire, if_neg (by rw [isExpire]; decide), if_neg (by rw [isExpire]; decide),
        if_pos isExpire]
      exact (replayExpireChecked_guards now data pos e).congr
        ⟨fun all => ⟨fun same => absurd same isSet, fun _ => all⟩, fun both => both.2 isExpire⟩
    · rw [if_neg isExpire]
      exact (Guards.always _).congr (by simp [isSet, isExpire])

theorem replayLoopChecked_guards (iter : Iter) (now : Instant) (data : Bytes) (fuel pos : Nat)
    (e : DashMapEngine) (replayed : Nat) :
    Guards (ReplayInRange iter now data fuel pos e) (replayLoopChecked iter now data fuel pos e replayed)
      (replayLoop iter now data fuel pos e replayed) := by
  induction fuel generalizing pos e replayed with
  | zero =>
      unfold ReplayInRange replayLoopChecked replayLoop
      cases data.drop pos with
      | nil => exact .always _
      | cons cmdType more => exact .always _
  | succ fuel ih =>
      unfold ReplayInRange replayLoopChecked replayLoop
      cases data.drop pos with
      | nil => exact .always _
      | cons cmdType more =>
          have entry := replayEntryChecked_guards iter now data cmdType (pos + 1) e
          by_cases fits : EntryInRange now data cmdType (pos + 1) e
          · simp only [entry.fits fits, fits, true_and]
            cases taken : replayEntry iter now data cmdType (pos + 1) e with
            | none => exact (Guards.always _).congr (by simp)
            | some r =>
                obtain ⟨after, next⟩ := r
                have same : ReplayInRange iter now data fuel next after ↔
                    ∀ e' next', some (after, next) = some (e', next') →
                      ReplayInRange iter now data fuel next' e' :=
                  ⟨fun rest _ _ this => by cases this; exact rest, fun all => all _ _ rfl⟩
                exact (ih next after (replayed + 1)).congr same
          · simp only [entry.beyond fits]
            exact ⟨fun both => absurd both.1 fits, fun _ => rfl⟩

/-- The deadlines of a log file, from its first entry on. -/
def FileInRange (iter : Iter) (now : Instant) (data : Bytes) (e : DashMapEngine) : Prop :=
  ReplayInRange iter now data data.length 0 e

theorem replayAofChecked_guards (iter : Iter) (now : Instant) (data : Bytes) (e : DashMapEngine) :
    Guards (FileInRange iter now data e) (replayAofChecked iter now (some data) e)
      (replayAof iter now (some data) e) :=
  replayLoopChecked_guards iter now data data.length 0 e 0

/-! ## The entry of one command -/

theorem replayPairs_next (iter : Iter) (now : Instant) (data : Bytes) (count pos : Nat)
    (e e' : DashMapEngine) :
    (replayPairs iter now data count pos e).2 = (replayPairs iter now data count pos e').2 := by
  induction count generalizing pos e e' with
  | zero => rfl
  | succ count ih =>
      rw [replayPairs, replayPairs]
      split
      · rfl
      · exact ih _ _ _

/-- Where an entry ends does not depend on the engine. -/
theorem replayEntry_next (iter : Iter) (now : Instant) (data : Bytes) (cmdType : UInt8) (pos : Nat)
    (e e' : DashMapEngine) :
    (replayEntry iter now data cmdType pos e).map Prod.snd =
      (replayEntry iter now data cmdType pos e').map Prod.snd := by
  unfold replayEntry
  split
  · simp only [replaySet_eq, Option.map_map]
    rfl
  split
  · simp only [replayDel_eq, Option.map_map]
    rfl
  split
  · simp only [replayIncr_eq, Option.map_map]
    rfl
  split
  · simp only [replayExpire_eq, Option.map_map]
    rfl
  split
  · rfl
  split
  · simp only [replayMset_eq, Option.map_map]
    congr 1
    funext r
    exact replayPairs_next iter now data _ _ e e'
  · rfl

section Alone

variable {now : Instant} {data rest : Bytes} {pos : Nat} {e : DashMapEngine}

theorem entryInRange_other {cmdType : UInt8} (notSet : cmdType ≠ cmdSet) (notExpire : cmdType ≠ cmdExpire) :
    EntryInRange now data cmdType pos e :=
  ⟨fun same => absurd same notSet, fun same => absurd same notExpire⟩

/-- At the entry of a command whose fields fit stands the deadline of the command. -/
theorem entryInRange_whole {c : Command} (fits : FieldsFit c)
    (here : At data data.length pos (c.aofBytes ++ rest)) {cmdType : UInt8} {more : Bytes}
    (sees : data.drop pos = cmdType :: more) :
    EntryInRange now data cmdType (pos + 1) e ↔ AloneInRange now e c := by
  have stands := (drop_of_at here).symm.trans sees
  cases c with
  | set key value ttl =>
      rw [aofBytes_set, List.cons_append] at here stands
      cases (List.cons.inj stands).1
      have read := readRecord_lossy "aof" (r := (key, value, Command.ttlMillis ttl))
        ⟨fits.1, fits.2, ttlMillis_ok ttl⟩ here.step
      constructor
      · exact fun entry => entry.1 rfl _ _ _ _ read
      · refine fun alone => ⟨fun _ key' value' ttlMs' next' also => ?_, fun same => absurd same (by decide)⟩
        cases read.symm.trans also
        exact alone
  | expire key seconds =>
      rw [aofBytes_expire, List.cons_append] at here stands
      cases (List.cons.inj stands).1
      have body := here.step
      rw [List.append_assoc] at body
      have keyRead := readKey_lossy "aof" fits.1 body
      have secondsRead := (readSeconds_decodes "aof").whole fits.2 body.advance
      have read : (readKey "aof").pair (readSeconds "aof") data data.length (pos + 1) =
          some ((fromUtf8Lossy key, seconds), pos + 1 + (encodeKey key).length + (toLe 8 seconds).length) := by
        rw [Reader.pair, keyRead, Option.bind_some, secondsRead]
        rfl
      constructor
      · exact fun entry => entry.2 rfl _ _ _ read
      · refine fun alone => ⟨fun same => absurd same (by decide), fun _ key' seconds' next' also => ?_⟩
        cases read.symm.trans also
        exact alone
  | del key =>
      rw [aofBytes_del, List.cons_append] at stands
      cases (List.cons.inj stands).1
      exact iff_of_true (entryInRange_other (by decide) (by decide)) trivial
  | incr key =>
      rw [aofBytes_incr, List.cons_append] at stands
      cases (List.cons.inj stands).1
      exact iff_of_true (entryInRange_other (by decide) (by decide)) trivial
  | flushDb =>
      rw [aofBytes_flushDb] at stands
      cases (List.cons.inj stands).1
      exact iff_of_true (entryInRange_other (by decide) (by decide)) trivial
  | mset pairs =>
      rw [aofBytes_mset, List.cons_append] at stands
      cases (List.cons.inj stands).1
      exact iff_of_true (entryInRange_other (by decide) (by decide)) trivial
  | _ => exact fits.elim

end Alone

/-- Replaying the entry of a command whose fields fit meets its deadline, and no other. -/
theorem fileInRange_iff (iter : Iter) (now : Instant) (e : DashMapEngine) {c : Command} (fits : FieldsFit c) :
    FileInRange iter now c.aofBytes e ↔ AloneInRange now e c := by
  have here : At c.aofBytes c.aofBytes.length 0 (c.aofBytes ++ []) := by
    rw [List.append_nil]
    exact At.start _
  have unlimited : DashMapEngine.new.maxKeys = 0 := rfl
  obtain ⟨cmdType, more, sees, entry⟩ := replayEntry_whole iter .new now fits unlimited here
  have ends := replayEntry_next iter now c.aofBytes cmdType 1 .new e
  have range : EntryInRange now c.aofBytes cmdType (0 + 1) e ↔ AloneInRange now e c :=
    entryInRange_whole fits here sees
  obtain ⟨fuel, long⟩ : ∃ fuel, c.aofBytes.length = fuel + 1 :=
    Nat.exists_eq_succ_of_ne_zero fun empty => aofBytes_ne_nil fits (List.eq_nil_of_length_eq_zero empty)
  rw [← range]
  unfold FileInRange ReplayInRange
  rw [sees, long]
  refine ⟨fun all => all.1, fun first => ⟨first, fun e' next taken => ?_⟩⟩
  -- behind the entry the file is at its end
  have stops : next = c.aofBytes.length := by
    rw [taken, entry, Option.map_some, Option.map_some, Option.some.injEq] at ends
    simpa using ends.symm
  unfold ReplayInRange
  rw [stops, List.drop_length]
  trivial

end Range

/-- A command is dispatched, and its entry replayed at another time into another
engine, without a panic exactly when the deadlines that are set are in range; those
of an entry are the command's own when the fields of the entry fit. -/
theorem deadlines_iff (iter : Iter) (m : MetricsSnapshot) (now : Instant) (e : DashMapEngine) (isResp : Bool)
    (replayIter : Iter) (replayNow : Instant) (replayEngine : DashMapEngine) (c : Command) :
    (dispatchChecked iter m now e c ≠ none ∧ dispatchToBufferChecked iter m now e isResp c ≠ none ∧
        replayAofChecked replayIter replayNow (some c.aofBytes) replayEngine ≠ none ↔
      DispatchInRange now e c ∧ FileInRange replayIter replayNow c.aofBytes replayEngine) ∧
      (FieldsFit c → (FileInRange replayIter replayNow c.aofBytes replayEngine ↔
        AloneInRange replayNow replayEngine c)) := by
  refine ⟨?_, fileInRange_iff replayIter replayNow replayEngine⟩
  rw [(dispatchChecked_guards iter m now e c).returns_iff,
    (dispatchToBufferChecked_guards iter m now e isResp c).returns_iff,
    (replayAofChecked_guards replayIter replayNow c.aofBytes replayEngine).returns_iff, and_self_left]

/-- `SET k v EX 60`. -/
def setOneMinute : Command := .set (ascii "k") (ascii "v") (some (Duration.fromSecs 60))

theorem deadlines_one_minute :
    FieldsFit setOneMinute ∧ dispatchChecked Iter.some .new 5 .new setOneMinute ≠ none ∧
      dispatchToBufferChecked Iter.some .new 5 .new false setOneMinute ≠ none ∧
      replayAofChecked Iter.some 7 (some setOneMinute.aofBytes) .new ≠ none := by
  have fits : FieldsFit setOneMinute := by decide
  obtain ⟨returns, alone⟩ := deadlines_iff Iter.some .new 5 .new false Iter.some 7 .new setOneMinute
  have inRange : AloneInRange 7 .new setOneMinute := fun _ => by decide
  have dispatches : DispatchInRange 5 .new setOneMinute := by
    show 5 + Duration.fromSecs 60 < clockLimit
    decide
  exact ⟨fits, returns.2 ⟨dispatches, (alone fits).2 inRange⟩⟩

/-- `SET k v EX 18446744073709551615` and `EXPIRE k 18446744073709551615`. -/
def setForAges : Command := .set (ascii "k") (ascii "v") (some (Duration.fromSecs 18446744073709551615))
def expireInAges : Command := .expire (ascii "k") 18446744073709551615

/-- A key without an expiry. -/
def oneKey : DashMapEngine := DashMapEngine.new.insert (ascii "k") (ValueEntry.new 0 (ascii "v"))

/-- Both parsers accept the largest `u64` as a lifetime, and the SET panics.
An EXPIRE with as many seconds is dispatched while its key is missing; the replay of
its entry panics where the key is live. -/
theorem dispatch_overflows :
    tryParseFrame
        (ascii "*5\r\n$3\r\nSET\r\n$1\r\nk\r\n$1\r\nv\r\n$2\r\nEX\r\n$20\r\n18446744073709551615\r\n") =
          .ok (.complete 62 setForAges) ∧
      parseInlineBorrowed (ascii "SET k v 18446744073709551615\r\n") =
        .ok (.complete 30 (.set (ascii "k") (ascii "v") (some (Duration.fromSecs 18446744073709551615)))) ∧
      dispatchChecked Iter.some .new 5 .new setForAges = none ∧
      dispatchToBufferChecked Iter.some .new 5 .new false setForAges = none ∧
      dispatchChecked Iter.some .new 5 .new expireInAges ≠ none ∧
      replayAofChecked Iter.some 5 (some expireInAges.aofBytes) oneKey = none := by
  have beyond : ¬ DispatchInRange 5 .new setForAges := by
    show ¬ 5 + Duration.fromSecs 18446744073709551615 < clockLimit
    decide
  have live : oneKey.live 5 (ascii "k") = some (ValueEntry.new 0 (ascii "v")) :=
    live_eq_some.2 ⟨Finmap.lookup_insert _, rfl⟩
  have late : ¬ FileInRange Iter.some 5 expireInAges.aofBytes oneKey := by
    rw [fileInRange_iff Iter.some 5 oneKey (by decide)]
    intro inRange
    have fits : 5 + Duration.fromSecs 18446744073709551615 < clockLimit := inRange (by
      show (oneKey.live 5 (fromUtf8Lossy (ascii "k"))).isSome = true
      rw [show fromUtf8Lossy (ascii "k") = ascii "k" by decide, live]
      rfl)
    exact absurd fits (by decide)
  have missing : DispatchInRange 5 .new expireInAges := fun impossible => by cases impossible
  exact ⟨by decide +kernel, by decide +kernel, (dispatchChecked_guards _ _ _ _ _).beyond beyond,
    (dispatchToBufferChecked_guards _ _ _ _ _ _).beyond beyond,
    (dispatchChecked_guards _ _ _ _ _).returns_iff.2 missing, (replayAofChecked_guards _ _ _ _).beyond late⟩

/-! ## A whole log -/

section Log

variable (iter : Iter) (m : MetricsSnapshot) (now : Instant)

/-- The engine after a list of commands is dispatched, one after the other. -/
def execAllChecked : DashMapEngine → List Command → Option DashMapEngine
  | e, [] => some e
  | e, c :: cs => (dispatchChecked iter m now e c).bind fun r => execAllChecked r.2 cs

/-- The deadline of every command, at the engine it is dispatched to. -/
def AllInRange : DashMapEngine → List Command → Prop
  | _, [] => True
  | e, c :: cs => DispatchInRange now e c ∧ AllInRange (exec iter m now e c) cs

theorem execAllChecked_guards (e : DashMapEngine) (cs : List Command) :
    Guards (AllInRange iter m now e cs) (execAllChecked iter m now e cs) (execAll iter m now e cs) := by
  induction cs generalizing e with
  | nil => exact .always e
  | cons c cs ih =>
      have first := dispatchChecked_guards iter m now e c
      rw [execAllChecked, AllInRange]
      by_cases fits : DispatchInRange now e c
      · rw [first.fits fits, Option.bind_some]
        exact (ih _).congr (by simp only [fits, true_and]; rfl)
      · rw [first.beyond fits, Option.bind_none]
        exact ⟨fun both => absurd both.1 fits, fun _ => rfl⟩

variable {now} {e : DashMapEngine}

/-- A representable command has one deadline, whether it is dispatched or its entry is read. -/
theorem aloneInRange_iff {c : Command} (ok : Representable c) : AloneInRange now e c ↔ DispatchInRange now e c := by
  cases c with
  | set key value ttl =>
      cases ttl with
      | none => exact iff_of_true (fun positive => absurd positive (by decide)) trivial
      | some dur =>
          obtain ⟨positive, small, whole⟩ := ok.2.2
          show (0 < Command.ttlMillis (some dur) → _) ↔ now + dur < clockLimit
          rw [Command.ttlMillis, asI64_of_lt small, Int.toNat_natCast, ← whole]
          exact ⟨fun fits => fits (by exact_mod_cast positive), fun fits _ => fits⟩
  | expire key seconds =>
      show ExpireInRange now e (fromUtf8Lossy key) seconds ↔ _
      rw [fromUtf8Lossy_of_valid ok.1.2]
      rfl
  | _ => exact iff_of_true trivial trivial

/-- The loop over whole entries meets the deadlines of their commands. -/
theorem replayInRange_iff {data : Bytes} {pos : Nat} {cs : List Command} (ok : ∀ c ∈ cs, Representable c)
    (unlimited : e.maxKeys = 0) (here : At data data.length pos (logBytes cs)) {fuel : Nat}
    (enough : cs.length ≤ fuel) : ReplayInRange iter now data fuel pos e ↔ AllInRange iter m now e cs := by
  induction cs generalizing pos e fuel with
  | nil =>
      have ends : data.drop pos = [] := drop_of_at here
      unfold ReplayInRange
      rw [ends]
      exact iff_of_true trivial trivial
  | cons c cs ih =>
      have okHead := ok c (by simp)
      obtain ⟨fuel, rfl⟩ : ∃ n, fuel = n + 1 := ⟨fuel - 1, by rw [List.length_cons] at enough; omega⟩
      rw [logBytes_cons] at here
      obtain ⟨cmdType, more, sees, entry⟩ := replayEntry_whole iter m now okHead.fits unlimited here
      rw [replayCommand_of_representable iter m now e okHead] at entry
      have still : (exec iter m now e c).maxKeys = 0 := exec_maxKeys unlimited okHead.fits.isWrite
      have left : cs.length ≤ fuel := by
        rw [List.length_cons] at enough
        omega
      have rest := ih (e := exec iter m now e c) (fun d inside => ok d (by simp [inside])) still here.advance left
      have first : EntryInRange now data cmdType (pos + 1) e ↔ DispatchInRange now e c :=
        (entryInRange_whole okHead.fits here sees).trans (aloneInRange_iff okHead)
      unfold ReplayInRange
      rw [sees]
      simp only [entry, Option.some.injEq, Prod.mk.injEq]
      rw [AllInRange, first, ← rest]
      constructor
      · exact fun both => ⟨both.1, both.2 _ _ ⟨rfl, rfl⟩⟩
      · rintro ⟨inRange, later⟩
        refine ⟨inRange, ?_⟩
        rintro e' next ⟨rfl, rfl⟩
        exact later

/-- Replaying a log is executing its commands: as long as every deadline is in range,
the replay of the concatenated entries leaves the engine as the dispatcher leaves it,
failed commands included, and counts every command; where one is not, the replay
panics, and so does the dispatcher. -/
theorem replayAof_refines_dispatch (iter : Iter) (m : MetricsSnapshot) (now : Instant) (e : DashMapEngine)
    (cs : List Command) (unlimited : e.maxKeys = 0) (ok : ∀ c ∈ cs, Representable c) :
    (AllInRange iter m now e cs → ∃ after, execAllChecked iter m now e cs = some after ∧
      replayAofChecked iter now (some (cs.filterMap Command.toAofEntry).flatten) e =
        some (some (after, cs.length))) ∧
      (¬ AllInRange iter m now e cs → execAllChecked iter m now e cs = none ∧
        replayAofChecked iter now (some (cs.filterMap Command.toAofEntry).flatten) e = none) := by
  rw [← logBytes_eq_flatten]
  have fits (c : Command) (inside : c ∈ cs) : FieldsFit c := (ok c inside).fits
  have dispatched := execAllChecked_guards iter m now e cs
  have here : At (logBytes cs) (logBytes cs).length 0 (logBytes cs) := At.start _
  have replayed := (replayAofChecked_guards iter now (logBytes cs) e).congr
    (replayInRange_iff iter m ok unlimited here (length_le_logBytes fits))
  refine ⟨fun inRange => ⟨_, dispatched.fits inRange, ?_⟩, fun beyond => ?_⟩
  · rw [replayed.fits inRange, replayAof_log iter m now ok unlimited]
  · exact ⟨dispatched.beyond beyond, replayed.beyond beyond⟩

/-- A SET with a lifetime, an INCR of its text that fails, an MSET. -/
def failingIncr : List Command :=
  [.set (ascii "k") (ascii "x") (some (Duration.fromMillis 5)), .incr (ascii "k"),
    .mset [(ascii "a", []), (ascii "b", ascii "1")]]

theorem replayAof_refines_dispatch_failing_incr :
    ∃ after, execAllChecked Iter.some .new 7 .new failingIncr = some after ∧
      replayAofChecked Iter.some 7 (some (failingIncr.filterMap Command.toAofEntry).flatten) .new =
        some (some (after, 3)) := by
  have inRange : AllInRange Iter.some .new 7 .new failingIncr := by
    refine ⟨?_, trivial, trivial, trivial⟩
    show 7 + Duration.fromMillis 5 < clockLimit
    decide
  exact (replayAof_refines_dispatch Iter.some .new 7 .new failingIncr rfl (by decide)).1 inRange

/-- `SET k v`, `EXPIRE k 18446744073709551615`: every field fits its entry, and both the
dispatcher and the replay of the two entries panic. -/
theorem replay_panics_beyond_clock :
    (∀ c ∈ [Command.set (ascii "k") (ascii "v") none, expireInAges], Representable c) ∧
      execAllChecked Iter.some .new 5 .new [.set (ascii "k") (ascii "v") none, expireInAges] = none ∧
      replayAofChecked Iter.some 5
        (some (([.set (ascii "k") (ascii "v") none, expireInAges] : List Command).filterMap
          Command.toAofEntry).flatten) .new = none := by
  decide +kernel

end Log

end ZetDb.Application
