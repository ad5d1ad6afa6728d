/-
# Storage.ShardLocks -- the guards the engine's operations hold

A second reading of `storage/dashmap_engine.rs`: the operations of `Storage.Engine`
with the shard locks their map calls take.  A `Ref`, a `RefMut`, an `Entry` and an
iterator hold the lock of their shards until they are dropped or consumed; every other
call holds it for its own time.  Each operation computes what `Storage.Engine` says
(the `_computes` theorems), so the guards are all this reading adds.

`operation_free_iff`: an operation never waits for a guard of its own, except `incr` on
a missing key under a key limit.  There the vacant entry holds the write lock of its
shard while `len` asks for a read lock of every shard.
-/
import ZetDb.Storage.Engine
import ZetDb.Theory.Guards

namespace ZetDb.Storage

set_option autoImplicit false

open ZetDb.Theory.Wire ZetDb.Theory.Text ZetDb.Theory.Guards ZetDb.Theory.Guards.Guarded ZetDb.Domain

/-- The shards of a map, and the shard of each key. -/
structure Sharding (S : Type) where
  shards : List S
  shard : Key → S
  covers : ∀ key, shard key ∈ shards

namespace Sharding

variable {S : Type} (d : Sharding S)

def readOf (key : Key) : Guard S := ⟨.read, d.shard key⟩
def writeOf (key : Key) : Guard S := ⟨.write, d.shard key⟩

end Sharding

/-! ## The calls of the map -/

abbrev MapM (S : Type) := Guarded S DashMapEngine

namespace DashMap

variable {S : Type} (d : Sharding S)

/-- What is found is returned with its guard. -/
def find (guard : Guard S) (key : Key) : MapM S (Option ValueEntry) := do
  take guard
  match ← look fun e => e.map.lookup key with
  | some v => return some v
  | none => do
      drop guard
      return none

/-- A `Ref` of a found entry. -/
def get (key : Key) : MapM S (Option ValueEntry) := find (d.readOf key) key

/-- A `RefMut` of a found entry. -/
def getMut (key : Key) : MapM S (Option ValueEntry) := find (d.writeOf key) key

/-- An `Entry`: occupied or vacant, it holds the write lock. -/
def entry (key : Key) : MapM S (Option ValueEntry) := do
  take (d.writeOf key)
  look fun e => e.map.lookup key

def containsKey (key : Key) : MapM S Bool :=
  during (d.readOf key) fun e => ((e.map.lookup key).isSome, e)

def insert (key : Key) (value : ValueEntry) : MapM S Unit :=
  during (d.writeOf key) fun e => ((), e.insert key value)

def remove (key : Key) : MapM S Unit := during (d.writeOf key) fun e => ((), e.remove key)

/-- Whether an entry was removed. -/
def removeIf (key : Key) (condition : ValueEntry → Bool) : MapM S Bool :=
  during (d.writeOf key) fun e =>
    match e.map.lookup key with
    | some v => if condition v then (true, e.remove key) else (false, e)
    | none => (false, e)

def len : MapM S Nat := do
  visit .read d.shards
  look DashMapEngine.len

/-- The iterator and its items hold read locks, here of all shards at once. -/
def iter (iter : Iter) : MapM S (List Entry) := do
  takeAll d.shards
  look fun e => iter.list e.map

def dropIter : MapM S Unit := dropAll d.shards

def retain (keep : Entry → Bool) : MapM S Unit := do
  visit .write d.shards
  change fun e => { e with map := e.map.retain keep }

def clear : MapM S Unit := do
  visit .write d.shards
  change fun e => { e with map := ∅ }

end DashMap

/-! ## The operations of the engine -/

namespace Locked

variable {S : Type} (d : Sharding S) (iter : Iter) (now : Instant) (key : Key)

def maxKeys : MapM S Nat := look fun e => e.maxKeys

def sweepExpired : MapM S Unit := DashMap.retain d fun entry => !entry.2.isExpiredAt now

def evictOneIfNeeded : MapM S Unit := do
  let limit ← maxKeys
  if limit = 0 then return ()
  else
    if (← DashMap.len d) < limit then return ()
    else
      let entries ← DashMap.iter d iter
      -- the loop over the entries makes no call of the map
      let oldest := DashMapEngine.sampleOldest now entries none none 0
      DashMap.dropIter d
      match oldest with
      | some key => DashMap.remove d key
      | none => return ()

/-- `drop(entry)`, then `remove_if` of the expired entry. -/
def evictExpired (guard : Guard S) : MapM S Unit := do
  drop guard
  let _ ← DashMap.removeIf d key fun v => v.isExpiredAt now
  return ()

def get : MapM S (Except EngineError (Option ValueEntry)) := do
  match ← DashMap.get d key with
  | none => return .ok none
  | some entry =>
      if entry.isExpiredAt now then
        evictExpired d now key (d.readOf key)
        return .ok none
      else
        drop (d.readOf key)
        return .ok (some entry)

def set (value : ValueEntry) : MapM S (Except EngineError Unit) := do
  let limit ← maxKeys
  if limit > 0 then
    if ← DashMap.containsKey d key then
      DashMap.insert d key value
      return .ok ()
    else
      evictOneIfNeeded d iter now
      if (← DashMap.len d) ≥ limit then return .error .outOfMemory
      else
        DashMap.insert d key value
        return .ok ()
  else
    DashMap.insert d key value
    return .ok ()

def del : MapM S (Except EngineError Bool) := do
  return .ok (← DashMap.removeIf d key fun v => !v.isExpiredAt now)

/-- `vac.insert(..)`, and the drop of the `RefMut` it returns. -/
def fillVacant : MapM S (Except EngineError Int) := do
  change fun e => e.insert key (ValueEntry.new now (ascii "1"))
  drop (d.writeOf key)
  return .ok 1

/-- The arm of the occupied entry. -/
def incrOccupied (v : ValueEntry) : MapM S (Except EngineError Int) := do
  if v.isExpiredAt now then
    -- `occ.remove()` consumes the guard
    change fun e => e.remove key
    drop (d.writeOf key)
    let limit ← maxKeys
    if limit > 0 then
      if (← DashMap.len d) ≥ limit then return .error .outOfMemory
      else
        DashMap.insert d key (ValueEntry.new now (ascii "1"))
        return .ok 1
    else
      DashMap.insert d key (ValueEntry.new now (ascii "1"))
      return .ok 1
  else
    match parseSigned 64 (fromUtf8Lossy v.data) with
    | none => do
        drop (d.writeOf key)
        return .error (.notAnInteger key)
    | some val => do
        let newVal := Int.bmod (val + 1) (2 ^ 64)
        change fun e => e.insert key { v with data := decimalInt newVal }
        drop (d.writeOf key)
        return .ok newVal

/-- The arm of the vacant entry, whose guard lives to the end of it. -/
def incrVacant : MapM S (Except EngineError Int) := do
  let limit ← maxKeys
  if limit > 0 then
    if (← DashMap.len d) ≥ limit then
      evictOneIfNeeded d iter now
      if (← DashMap.len d) ≥ limit then
        drop (d.writeOf key)
        return .error .outOfMemory
      else fillVacant d now key
    else fillVacant d now key
  else fillVacant d now key

def incr : MapM S (Except EngineError Int) := do
  match ← DashMap.entry d key with
  | some v => incrOccupied d now key v
  | none => incrVacant d iter now key

def len : MapM S Nat := DashMap.len d

def exists? : MapM S Bool := do
  match ← DashMap.get d key with
  | none => return false
  | some entry =>
      if entry.isExpiredAt now then
        evictExpired d now key (d.readOf key)
        return false
      else
        drop (d.readOf key)
        return true

def ttlSecs : MapM S Int := do
  match ← DashMap.get d key with
  | none => return -2
  | some entry =>
      if entry.isExpiredAt now then
        evictExpired d now key (d.readOf key)
        return -2
      else
        let left : Int := match entry.expiresAt with
          | some exp => if exp ≤ now then -2 else asI64 (Duration.asSecs (exp - now))
          | none => -1
        drop (d.readOf key)
        return left

def expire (seconds : Nat) : MapM S Bool := do
  match ← DashMap.getMut d key with
  | none => return false
  | some entry =>
      if entry.isExpiredAt now then
        evictExpired d now key (d.writeOf key)
        return false
      else
        change fun e => e.insert key { entry with expiresAt := some (now + Duration.fromSecs seconds) }
        drop (d.writeOf key)
        return true

def clear : MapM S Unit := DashMap.clear d

def keys : MapM S (List Key) := do
  let entries ← DashMap.iter d iter
  let names := (entries.filter fun entry => !entry.2.isExpiredAt now).map fun entry => entry.1
  DashMap.dropIter d
  return names

/-- One key of `mget`. -/
def mgetOne : MapM S (Option ValueEntry) := do
  match ← DashMap.get d key with
  | none => return none
  | some entry => do
      drop (d.readOf key)
      return if entry.isExpiredAt now then none else some entry

def mget : List Key → MapM S (List (Option ValueEntry))
  | [] => return []
  | key :: keys => do
      let value ← mgetOne d now key
      return value :: (← mget keys)

/-- The callback writes a file and makes no call of the map. -/
def dumpEntries : MapM S (List (Key × Bytes × Int)) := do
  let entries ← DashMap.iter d iter
  let dumped := (entries.filter fun entry => !entry.2.isExpiredAt now).map fun entry =>
    (entry.1, entry.2.data, DashMapEngine.remainingMillis now entry.2)
  DashMap.dropIter d
  return dumped

def getFast : MapM S (Option Bytes) := do
  match ← DashMap.get d key with
  | none => return none
  | some entry => do
      drop (d.readOf key)
      return some entry.data

def setFastStr (value : Bytes) : MapM S Unit := DashMap.insert d key (ValueEntry.newFast value)

end Locked

/-! ## What the operations compute -/

namespace DashMap

variable {S : Type} (d : Sharding S) (key : Key) (e : DashMapEngine)

@[simp] theorem result_find (guard : Guard S) : result (find guard key) e = (e.map.lookup key, e) := by
  unfold find
  simp only [result_bind, result_take, result_look]
  cases e.map.lookup key with
  | none => rfl
  | some v => rfl

@[simp] theorem result_get : result (get d key) e = (e.map.lookup key, e) := result_find _ _ _
@[simp] theorem result_getMut : result (getMut d key) e = (e.map.lookup key, e) := result_find _ _ _
@[simp] theorem result_entry : result (entry d key) e = (e.map.lookup key, e) := rfl

@[simp] theorem result_containsKey : result (containsKey d key) e = ((e.map.lookup key).isSome, e) := rfl

@[simp] theorem result_insert (value : ValueEntry) :
    result (insert d key value) e = ((), e.insert key value) := rfl

@[simp] theorem result_remove : result (remove d key) e = ((), e.remove key) := rfl

@[simp] theorem result_removeIf (condition : ValueEntry → Bool) :
    result (removeIf d key condition) e =
      match e.map.lookup key with
      | some v => if condition v then (true, e.remove key) else (false, e)
      | none => (false, e) := rfl

@[simp] theorem result_len : result (len d) e = (e.len, e) := by
  simp only [len, result_bind, result_visit, result_look]

@[simp] theorem result_iter (it : Iter) : result (iter d it) e = (it.list e.map, e) := by
  simp only [iter, result_bind, result_takeAll, result_look]

@[simp] theorem result_dropIter : result (dropIter d) e = ((), e) := result_dropAll _ _

@[simp] theorem result_retain (keep : Entry → Bool) :
    result (retain d keep) e = ((), { e with map := e.map.retain keep }) := by
  simp only [retain, result_bind, result_visit, result_change]

@[simp] theorem result_clear : result (clear d) e = ((), { e with map := ∅ }) := by
  simp only [clear, result_bind, result_visit, result_change]

end DashMap

namespace Locked

variable {S : Type} (d : Sharding S) (iter : Iter) (now : Instant) (key : Key) (e : DashMapEngine)

@[simp] theorem result_maxKeys : result (maxKeys : MapM S Nat) e = (e.maxKeys, e) := rfl

theorem sweepExpired_computes : result (sweepExpired d now) e = ((), e.sweepExpired now) :=
  DashMap.result_retain _ _ _

theorem evictOneIfNeeded_computes :
    result (evictOneIfNeeded d iter now) e = ((), e.evictOneIfNeeded iter now) := by
  unfold evictOneIfNeeded DashMapEngine.evictOneIfNeeded
  simp only [result_bind, result_maxKeys]
  by_cases unlimited : e.maxKeys = 0
  · simp [unlimited]
  · by_cases room : e.len < e.maxKeys
    · simp [unlimited, room]
    · simp only [unlimited, room, or_self, if_false, result_bind, DashMap.result_len, DashMap.result_iter,
        DashMap.result_dropIter]
      cases DashMapEngine.sampleOldest now (iter.list e.map) none none 0 with
      | none => rfl
      | some oldest => rfl

theorem evictExpired_computes (guard : Guard S) :
    result (evictExpired d now key guard) e = ((), e.removeIfExpired now key) := by
  unfold evictExpired DashMapEngine.removeIfExpired
  simp only [result_bind, result_drop, DashMap.result_removeIf]
  cases e.map.lookup key with
  | none => rfl
  | some v =>
      cases expired : v.isExpiredAt now with
      | true => simp [expired]
      | false => simp [expired]

theorem get_computes : result (get d now key) e = e.get now key := by
  unfold get DashMapEngine.get
  simp only [result_bind, DashMap.result_get]
  cases e.map.lookup key with
  | none => rfl
  | some v =>
      cases expired : v.isExpiredAt now with
      | true => simp [expired, evictExpired_computes]
      | false => simp [expired]

theorem set_computes (value : ValueEntry) : result (set d iter now key value) e = e.set iter now key value := by
  unfold set DashMapEngine.set
  simp only [result_bind, result_maxKeys]
  by_cases limited : e.maxKeys > 0
  · cases found : e.map.lookup key with
    | none =>
        by_cases full : (e.evictOneIfNeeded iter now).len ≥ e.maxKeys
        · simp [limited, found, evictOneIfNeeded_computes, full]
        · simp [limited, found, evictOneIfNeeded_computes, full]
    | some v => simp [limited, found]
  · simp [limited]

theorem del_computes : result (del d now key) e = e.del now key := by
  unfold del DashMapEngine.del
  simp only [result_bind, DashMap.result_removeIf]
  cases e.map.lookup key with
  | none => rfl
  | some v =>
      cases expired : v.isExpiredAt now with
      | true => simp [expired]
      | false => simp [expired]

theorem incrOccupied_computes {v : ValueEntry} (found : e.map.lookup key = some v) :
    result (incrOccupied d now key v) e = e.incr iter now key := by
  unfold incrOccupied DashMapEngine.incr
  cases expired : v.isExpiredAt now with
  | true =>
      by_cases limited : e.maxKeys > 0
      · by_cases full : (e.remove key).len ≥ e.maxKeys
        · simp [found, expired, limited, full]
        · simp [found, expired, limited, full]
      · simp [found, expired, limited]
  | false =>
      cases parsed : parseSigned 64 (fromUtf8Lossy v.data) with
      | none => simp [found, expired, parsed]
      | some val => simp [found, expired, parsed]

theorem incrVacant_computes (found : e.map.lookup key = none) :
    result (incrVacant d iter now key) e = e.incr iter now key := by
  unfold incrVacant fillVacant DashMapEngine.incr
  by_cases limited : e.maxKeys > 0
  · by_cases full : e.len ≥ e.maxKeys
    · by_cases still : (e.evictOneIfNeeded iter now).len ≥ e.maxKeys
      · simp [found, limited, full, evictOneIfNeeded_computes, still]
      · simp [found, limited, full, evictOneIfNeeded_computes, still]
    · simp [found, limited, full]
  · simp [found, limited]

theorem incr_computes : result (incr d iter now key) e = e.incr iter now key := by
  unfold incr
  simp only [result_bind, DashMap.result_entry]
  cases found : e.map.lookup key with
  | none => exact incrVacant_computes d iter now key e found
  | some v => exact incrOccupied_computes d iter now key e found

theorem exists_computes : result (exists? d now key) e = e.exists? now key := by
  unfold exists? DashMapEngine.exists?
  simp only [result_bind, DashMap.result_get]
  cases e.map.lookup key with
  | none => rfl
  | some v =>
      cases expired : v.isExpiredAt now with
      | true => simp [expired, evictExpired_computes]
      | false => simp [expired]

theorem ttlSecs_computes : result (ttlSecs d now key) e = e.ttlSecs now key := by
  unfold ttlSecs DashMapEngine.ttlSecs
  simp only [result_bind, DashMap.result_get]
  cases e.map.lookup key with
  | none => rfl
  | some v =>
      cases expired : v.isExpiredAt now with
      | true => simp [expired, evictExpired_computes]
      | false =>
          simp only [expired, Bool.false_eq_true, if_false, result_bind, result_drop]
          cases v.expiresAt with
          | none => rfl
          | some expiry =>
              by_cases passed : expiry ≤ now
              · simp [passed]
              · simp [passed]

theorem expire_computes (seconds : Nat) : result (expire d now key seconds) e = e.expire now key seconds := by
  unfold expire DashMapEngine.expire
  simp only [result_bind, DashMap.result_getMut]
  cases e.map.lookup key with
  | none => rfl
  | some v =>
      cases expired : v.isExpiredAt now with
      | true => simp [expired, evictExpired_computes]
      | false => simp [expired]

theorem clear_computes : result (clear d) e = ((), e.clear) := DashMap.result_clear _ _

theorem keys_computes : result (keys d iter now) e = (e.keys iter now, e) := by
  simp [keys, DashMapEngine.keys]

theorem mgetOne_computes :
    result (mgetOne d now key) e =
      ((e.map.lookup key).bind fun v => if v.isExpiredAt now then none else some v, e) := by
  unfold mgetOne
  simp only [result_bind, DashMap.result_get]
  cases e.map.lookup key with
  | none => rfl
  | some v => rfl

theorem mget_computes (names : List Key) : result (mget d now names) e = (e.mget now names, e) := by
  induction names with
  | nil => rfl
  | cons name names ih =>
      simp only [mget, result_bind, mgetOne_computes, ih, result_pure]
      rfl

theorem dumpEntries_computes : result (dumpEntries d iter now) e = (e.dumpEntries iter now, e) := by
  simp [dumpEntries, DashMapEngine.dumpEntries]

theorem getFast_computes : result (getFast d key) e = (e.getFast key, e) := by
  unfold getFast DashMapEngine.getFast
  simp only [result_bind, DashMap.result_get]
  cases e.map.lookup key with
  | none => rfl
  | some v => rfl

theorem setFastStr_computes (value : Bytes) : result (setFastStr d key value) e = ((), e.setFastStr key value) :=
  rfl

end Locked

/-! ## The guards along the way -/

section Guards

variable {S : Type} [DecidableEq S] (d : Sharding S) (iter : Iter) (now : Instant) (key : Key)
  (e : DashMapEngine)

/-- A program that looks a key up, takes it from there with the guard if the key is
found, and ends without guards. -/
theorem find_then_passes {α : Type} {guard : Guard S} {f : Option ValueEntry → MapM S α}
    (absent : Passes [] (f none) e []) (present : ∀ v, Passes [guard] (f (some v)) e []) :
    Passes [] (DashMap.find guard key >>= f) e [] := by
  have taken : Passes [] (take guard : MapM S Unit) e [guard] := .take (by simp)
  cases found : e.map.lookup key with
  | none =>
      have dropped : Passes [] (DashMap.find guard key) e [] := by
        refine .bind taken (.bind (.look _) ?_)
        simp only [result_take, result_look, found]
        exact .bind (.drop _) (.pure _)
      refine .bind dropped ?_
      rw [DashMap.result_find, found]
      exact absent
  | some v =>
      have kept : Passes [] (DashMap.find guard key) e [guard] := by
        refine .bind taken (.bind (.look _) ?_)
        simp only [result_take, result_look, found]
        exact .pure _
      refine .bind kept ?_
      rw [DashMap.result_find, found]
      exact present v

theorem len_passes : Passes [] (DashMap.len d) e [] := by
  refine .bind (.visit ?_) (.look _)
  simp

theorem insert_passes (value : ValueEntry) : Passes [] (DashMap.insert d key value) e [] :=
  .during (by simp)

/-- What holds the guards of an iterator while the map is not called. -/
theorem iter_then_passes {α : Type} {f : List Entry → MapM S α}
    (rest : Passes (stacked d.shards []) (f (iter.list e.map)) e []) :
    Passes [] (DashMap.iter d iter >>= f) e [] := by
  have all : Passes [] (DashMap.iter d iter) e (stacked d.shards []) :=
    .bind (.takeAll _ (by simp)) (.look _)
  refine .bind all ?_
  rw [DashMap.result_iter]
  exact rest

namespace Locked

theorem evictExpired_passes (guard : Guard S) : Passes [guard] (evictExpired d now key guard) e [] :=
  .bind (.drop _) (.bind (.during (by simp)) (.pure _))

theorem evictOneIfNeeded_passes : Passes [] (evictOneIfNeeded d iter now) e [] := by
  refine .bind (.look _) (.ite (fun _ => .pure _) fun _ => ?_)
  refine .bind (len_passes d e) (.ite (fun _ => .pure _) fun _ => ?_)
  rw [DashMap.result_len]
  refine iter_then_passes d iter e (.bind (.dropAll _) ?_)
  cases DashMapEngine.sampleOldest now (iter.list e.map) none none 0 with
  | none => exact .pure _
  | some oldest => exact .during (by simp)

theorem get_passes : Passes [] (get d now key) e [] := by
  refine find_then_passes key e (.pure _) fun v => .ite (fun _ => ?_) (fun _ => ?_)
  · exact .bind (evictExpired_passes d now key e _) (.pure _)
  · exact .bind (.drop _) (.pure _)

theorem exists_passes : Passes [] (exists? d now key) e [] := by
  refine find_then_passes key e (.pure _) fun v => .ite (fun _ => ?_) (fun _ => ?_)
  · exact .bind (evictExpired_passes d now key e _) (.pure _)
  · exact .bind (.drop _) (.pure _)

theorem ttlSecs_passes : Passes [] (ttlSecs d now key) e [] := by
  refine find_then_passes key e (.pure _) fun v => .ite (fun _ => ?_) (fun _ => ?_)
  · exact .bind (evictExpired_passes d now key e _) (.pure _)
  · refine .bind (.drop _) ?_
    exact .pure _

theorem expire_passes (seconds : Nat) : Passes [] (expire d now key seconds) e [] := by
  refine find_then_passes key e (.pure _) fun v => .ite (fun _ => ?_) (fun _ => ?_)
  · exact .bind (evictExpired_passes d now key e _) (.pure _)
  · exact .bind (.change _) (.bind (.drop _) (.pure _))

theorem set_passes (value : ValueEntry) : Passes [] (set d iter now key value) e [] := by
  have inserts (e : DashMapEngine) : Passes [] (do
      DashMap.insert d key value
      return (.ok () : Except EngineError Unit)) e [] :=
    .bind (insert_passes d key e value) (.pure _)
  refine .bind (.look _) (.ite (fun _ => ?_) fun _ => inserts _)
  refine .bind (.during (by simp)) (.ite (fun _ => inserts _) fun _ => ?_)
  refine .bind (evictOneIfNeeded_passes d iter now _) (.bind (len_passes d _) ?_)
  exact .ite (fun _ => .pure _) fun _ => inserts _

theorem mgetOne_passes : Passes [] (mgetOne d now key) e [] :=
  find_then_passes key e (.pure _) fun _ => .bind (.drop _) (.pure _)

theorem mget_passes (names : List Key) : Passes [] (mget d now names) e [] := by
  induction names generalizing e with
  | nil => exact .pure _
  | cons name names ih => exact .bind (mgetOne_passes d now name e) (.bind (ih _) (.pure _))

theorem keys_passes : Passes [] (keys d iter now) e [] := by
  refine iter_then_passes d iter e (.bind (.dropAll _) ?_)
  exact .pure _

theorem dumpEntries_passes : Passes [] (dumpEntries d iter now) e [] := by
  refine iter_then_passes d iter e (.bind (.dropAll _) ?_)
  exact .pure _

theorem getFast_passes : Passes [] (getFast d key) e [] :=
  find_then_passes key e (.pure _) fun _ => .bind (.drop _) (.pure _)

/-- The expired arm drops its guard before it asks for the number of keys. -/
theorem incrOccupied_passes (v : ValueEntry) : Passes [d.writeOf key] (incrOccupied d now key v) e [] := by
  have inserts (e : DashMapEngine) : Passes [] (do
      DashMap.insert d key (ValueEntry.new now (ascii "1"))
      return (.ok 1 : Except EngineError Int)) e [] :=
    .bind (insert_passes d key e _) (.pure _)
  refine .ite (fun _ => ?_) (fun _ => ?_)
  · refine .bind (.change _) (.bind (.drop _) (.bind (.look _) (.ite (fun _ => ?_) fun _ => inserts _)))
    exact .bind (len_passes d _) (.ite (fun _ => .pure _) fun _ => inserts _)
  · cases parseSigned 64 (fromUtf8Lossy v.data) with
    | none => exact .bind (.drop _) (.pure _)
    | some val => exact .bind (.change _) (.bind (.drop _) (.pure _))

theorem incrVacant_passes (unlimited : e.maxKeys = 0) :
    Passes [d.writeOf key] (incrVacant d iter now key) e [] := by
  unfold incrVacant
  refine .bind (.look _) ?_
  simp only [result_maxKeys, unlimited, gt_iff_lt, lt_irrefl, if_false]
  exact .bind (.change _) (.bind (.drop _) (.pure _))

/-- The vacant arm asks for it with its guard in hand. -/
theorem incrVacant_blocks (limited : 0 < e.maxKeys) :
    Blocks [d.writeOf key] (events (incrVacant d iter now key) e) := by
  unfold incrVacant
  refine (blocks_bind _ _).2 (.inr ?_)
  simp only [result_maxKeys, gt_iff_lt, limited, if_true]
  refine (blocks_bind _ _).2 (.inl ((blocks_bind _ _).2 (.inl ?_)))
  exact blocks_visit (List.mem_singleton_self _) (d.covers key) (by simp [Guard.conflicts, Sharding.writeOf])

theorem entry_passes : Passes [] (DashMap.entry d key) e [d.writeOf key] :=
  .bind (.take (by simp)) (.look _)

end Locked

end Guards

/-! ## Every operation -/

inductive Operation where
  | sweepExpired (now : Instant)
  | evictOneIfNeeded (iter : Iter) (now : Instant)
  | dumpEntries (iter : Iter) (now : Instant)
  | getFast (key : Key)
  | setFastStr (key : Key) (value : Bytes)
  | get (now : Instant) (key : Key)
  | set (iter : Iter) (now : Instant) (key : Key) (value : ValueEntry)
  | del (now : Instant) (key : Key)
  | incr (iter : Iter) (now : Instant) (key : Key)
  | len
  | exists (now : Instant) (key : Key)
  | ttlSecs (now : Instant) (key : Key)
  | expire (now : Instant) (key : Key) (seconds : Nat)
  | clear
  | keys (iter : Iter) (now : Instant)
  | mget (now : Instant) (names : List Key)

section Operations

variable {S : Type} [DecidableEq S] (d : Sharding S)

/-- The guards an operation takes and drops. -/
def Operation.events (e : DashMapEngine) : Operation → List (Event S)
  | .sweepExpired now => Guarded.events (Locked.sweepExpired d now) e
  | .evictOneIfNeeded iter now => Guarded.events (Locked.evictOneIfNeeded d iter now) e
  | .dumpEntries iter now => Guarded.events (Locked.dumpEntries d iter now) e
  | .getFast key => Guarded.events (Locked.getFast d key) e
  | .setFastStr key value => Guarded.events (Locked.setFastStr d key value) e
  | .get now key => Guarded.events (Locked.get d now key) e
  | .set iter now key value => Guarded.events (Locked.set d iter now key value) e
  | .del now key => Guarded.events (Locked.del d now key) e
  | .incr iter now key => Guarded.events (Locked.incr d iter now key) e
  | .len => Guarded.events (Locked.len d) e
  | .exists now key => Guarded.events (Locked.exists? d now key) e
  | .ttlSecs now key => Guarded.events (Locked.ttlSecs d now key) e
  | .expire now key seconds => Guarded.events (Locked.expire d now key seconds) e
  | .clear => Guarded.events (Locked.clear d) e
  | .keys iter now => Guarded.events (Locked.keys d iter now) e
  | .mget now names => Guarded.events (Locked.mget d now names) e

/-- The operation asks for a lock while it holds a guard that conflicts. -/
def BlocksOnItself (op : Operation) (e : DashMapEngine) : Prop := Blocks [] (op.events d e)

theorem incr_free_iff (iter : Iter) (now : Instant) (key : Key) (e : DashMapEngine) :
    ¬BlocksOnItself d (.incr iter now key) e ↔ e.maxKeys = 0 ∨ (e.map.lookup key).isSome = true := by
  have entered := Locked.entry_passes d key e
  have split : BlocksOnItself d (.incr iter now key) e ↔ Blocks [d.writeOf key]
      (Guarded.events (match e.map.lookup key with
        | some v => Locked.incrOccupied d now key v
        | none => Locked.incrVacant d iter now key) e) := by
    refine (blocks_bind _ _).trans ?_
    rw [entered.holds, DashMap.result_entry]
    exact or_iff_right entered.free
  rw [split]
  cases e.map.lookup key with
  | some v => exact iff_of_true (Locked.incrOccupied_passes d now key e v).free (.inr rfl)
  | none =>
      by_cases unlimited : e.maxKeys = 0
      · exact iff_of_true (Locked.incrVacant_passes d iter now key e unlimited).free (.inl unlimited)
      · have blocks := Locked.incrVacant_blocks d iter now key e (Nat.pos_of_ne_zero unlimited)
        refine iff_of_false (fun free => free blocks) ?_
        rintro (zero | found)
        · exact unlimited zero
        · cases found

/-- No other operation waits for itself. -/
theorem operation_free (op : Operation) (e : DashMapEngine) (other : ∀ iter now key, op ≠ .incr iter now key) :
    ¬BlocksOnItself d op e := by
  cases op with
  | incr iter now key => exact absurd rfl (other iter now key)
  | sweepExpired now => exact (Passes.bind (.visit (by simp)) (.change _)).free
  | evictOneIfNeeded iter now => exact (Locked.evictOneIfNeeded_passes d iter now e).free
  | dumpEntries iter now => exact (Locked.dumpEntries_passes d iter now e).free
  | getFast key => exact (Locked.getFast_passes d key e).free
  | setFastStr key value => exact (insert_passes d key e _).free
  | get now key => exact (Locked.get_passes d now key e).free
  | set iter now key value => exact (Locked.set_passes d iter now key e value).free
  | del now key => exact (Passes.bind (.during (by simp)) (.pure _)).free
  | len => exact (len_passes d e).free
  | «exists» now key => exact (Locked.exists_passes d now key e).free
  | ttlSecs now key => exact (Locked.ttlSecs_passes d now key e).free
  | expire now key seconds => exact (Locked.expire_passes d now key e seconds).free
  | clear => exact (Passes.bind (.visit (by simp)) (.change _)).free
  | keys iter now => exact (Locked.keys_passes d iter now e).free
  | mget now names => exact (Locked.mget_passes d now e names).free

/-- Only `incr` on a missing key under a key limit waits for itself. -/
theorem operation_free_iff (op : Operation) (e : DashMapEngine) :
    ¬BlocksOnItself d op e ↔
      ∀ iter now key, op = .incr iter now key → e.maxKeys = 0 ∨ (e.map.lookup key).isSome = true := by
  by_cases other : ∀ iter now key, op ≠ .incr iter now key
  · exact iff_of_true (operation_free d op e other) fun iter now key same => absurd same (other iter now key)
  · simp only [not_forall, not_not] at other
    obtain ⟨iter, now, key, rfl⟩ := other
    rw [incr_free_iff]
    constructor
    · intro fine _ _ _ same
      cases same
      exact fine
    · intro fine
      exact fine iter now key rfl

end Operations

/-- A map with a single shard. -/
def oneShard : Sharding Unit := ⟨[()], fun _ => (), fun _ => List.mem_singleton_self _⟩

/-- `INCR` of a new key on an empty store that may hold three keys. -/
theorem incr_new_key_blocks :
    BlocksOnItself oneShard (.incr Iter.some 0 (ascii "k")) (DashMapEngine.withMaxKeys 3) :=
  .inr (.inl ⟨⟨.write, ()⟩, List.mem_singleton_self _, rfl⟩)

end ZetDb.Storage
