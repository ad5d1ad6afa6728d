/-
# Storage.Engine -- the DashMap engine, one atomic map operation at a time

Embeds `storage/dashmap_engine.rs`.  The sharded map is a finite map; every
operation reads the clock once (`now`).  DashMap iterates in an order the program
does not control, so what iterates takes an `Iter`: some listing of every map,
carried with the proof that it lists exactly the entries.

With `max_keys = 0` no operation iterates for eviction and `set` never fails
(`set_unlimited`); the results about recovery and logging live there.

The operations are total here.  Which of them wait for themselves in the source is the
subject of `Storage.ShardLocks`, and which deadlines the clock cannot hold is that of
`Application.Deadlines`.
-/
import ZetDb.Domain.Command
import Mathlib.Data.Finmap

namespace ZetDb.Storage

set_option autoImplicit false

open ZetDb.Theory.Wire ZetDb.Theory.Text ZetDb.Domain

abbrev Entry := (_ : Key) × ValueEntry
abbrev Store := Finmap fun _ : Key => ValueEntry

/-- An iteration order: a listing of the entries of every map. -/
structure Iter where
  list : Store → List Entry
  lists : ∀ m, (list m : Multiset Entry) = m.entries

/-- Some iteration order exists. -/
noncomputable def Iter.some : Iter := ⟨fun m => m.entries.toList, fun m => m.entries.coe_toList⟩

theorem Iter.list_singleton (iter : Iter) (key : Key) (value : ValueEntry) :
    iter.list ((∅ : Store).insert key value) = [⟨key, value⟩] := by
  have lists := iter.lists ((∅ : Store).insert key value)
  exact Multiset.coe_eq_singleton.1 (lists.trans rfl)

/-- `DashMap::retain`: keep the entries that satisfy `keep`. -/
def Store.retain (keep : Entry → Bool) (m : Store) : Store where
  entries := m.entries.filter fun e => keep e
  nodupKeys := by
    have sub : Multiset.keys (m.entries.filter fun e => keep e) ≤ Multiset.keys m.entries :=
      Multiset.map_le_map (Multiset.filter_le _ _)
    exact Multiset.nodup_keys.1 (Multiset.nodup_of_le sub (Multiset.nodup_keys.2 m.nodupKeys))

structure DashMapEngine where
  map : Store
  maxKeys : Nat

namespace DashMapEngine

def new : DashMapEngine := ⟨∅, 0⟩
def withMaxKeys (maxKeys : Nat) : DashMapEngine := ⟨∅, maxKeys⟩

def len (e : DashMapEngine) : Nat := e.map.entries.card

def insert (e : DashMapEngine) (key : Key) (value : ValueEntry) : DashMapEngine :=
  { e with map := e.map.insert key value }

def remove (e : DashMapEngine) (key : Key) : DashMapEngine :=
  { e with map := e.map.erase key }

/-- `remove_if(key, |_, v| v.is_expired())`. -/
def removeIfExpired (now : Instant) (e : DashMapEngine) (key : Key) : DashMapEngine :=
  match e.map.lookup key with
  | some v => if v.isExpiredAt now then e.remove key else e
  | none => e

def sweepExpired (now : Instant) (e : DashMapEngine) : DashMapEngine :=
  { e with map := e.map.retain fun entry => !entry.2.isExpiredAt now }

/-! ## Eviction -/

/-- The derived order of `Option<Instant>`: `None` is before every instant. -/
def createdBefore : Option Instant → Option Instant → Bool
  | none, some _ => true
  | some a, some b => a < b
  | _, none => false

/-- The sampling loop: up to five live entries, keeping the oldest. -/
def sampleOldest (now : Instant) : List Entry → Option Key → Option Instant → Nat → Option Key
  | [], oldestKey, _, _ => oldestKey
  | entry :: rest, oldestKey, oldestTime, sampled =>
      if entry.2.isExpiredAt now then sampleOldest now rest oldestKey oldestTime sampled
      else
        let older := oldestKey.isNone || createdBefore entry.2.createdAt oldestTime
        let oldestKey := if older then some entry.1 else oldestKey
        let oldestTime := if older then entry.2.createdAt else oldestTime
        if sampled + 1 ≥ 5 then oldestKey
        else sampleOldest now rest oldestKey oldestTime (sampled + 1)

def evictOneIfNeeded (iter : Iter) (now : Instant) (e : DashMapEngine) : DashMapEngine :=
  if e.maxKeys = 0 ∨ e.len < e.maxKeys then e
  else
    match sampleOldest now (iter.list e.map) none none 0 with
    | some key => e.remove key
    | none => e

/-! ## The operations of `KvEngine` -/

def get (now : Instant) (e : DashMapEngine) (key : Key) :
    Except EngineError (Option ValueEntry) × DashMapEngine :=
  match e.map.lookup key with
  | none => (.ok none, e)
  | some v => if v.isExpiredAt now then (.ok none, e.removeIfExpired now key) else (.ok (some v), e)

def set (iter : Iter) (now : Instant) (e : DashMapEngine) (key : Key) (value : ValueEntry) :
    Except EngineError Unit × DashMapEngine :=
  if e.maxKeys > 0 ∧ (e.map.lookup key).isNone then
    let e := e.evictOneIfNeeded iter now
    if e.len ≥ e.maxKeys then (.error .outOfMemory, e) else (.ok (), e.insert key value)
  else (.ok (), e.insert key value)

def del (now : Instant) (e : DashMapEngine) (key : Key) : Except EngineError Bool × DashMapEngine :=
  match e.map.lookup key with
  | some v => if !v.isExpiredAt now then (.ok true, e.remove key) else (.ok false, e)
  | none => (.ok false, e)

/-- `val + 1` wraps, as the release profile computes it. -/
def incr (iter : Iter) (now : Instant) (e : DashMapEngine) (key : Key) :
    Except EngineError Int × DashMapEngine :=
  match e.map.lookup key with
  | some v =>
      if v.isExpiredAt now then
        let e := e.remove key
        if e.maxKeys > 0 ∧ e.len ≥ e.maxKeys then (.error .outOfMemory, e)
        else (.ok 1, e.insert key (ValueEntry.new now (ascii "1")))
      else
        match parseSigned 64 (fromUtf8Lossy v.data) with
        | none => (.error (.notAnInteger key), e)
        | some val =>
            let newVal := Int.bmod (val + 1) (2 ^ 64)
            (.ok newVal, e.insert key { v with data := decimalInt newVal })
  -- where there is a limit the source holds the vacant entry's lock over `len`, and waits
  | none =>
      if e.maxKeys > 0 ∧ e.len ≥ e.maxKeys then
        let e := e.evictOneIfNeeded iter now
        if e.len ≥ e.maxKeys then (.error .outOfMemory, e)
        else (.ok 1, e.insert key (ValueEntry.new now (ascii "1")))
      else (.ok 1, e.insert key (ValueEntry.new now (ascii "1")))

def exists? (now : Instant) (e : DashMapEngine) (key : Key) : Bool × DashMapEngine :=
  match e.map.lookup key with
  | none => (false, e)
  | some v => if v.isExpiredAt now then (false, e.removeIfExpired now key) else (true, e)

def ttlSecs (now : Instant) (e : DashMapEngine) (key : Key) : Int × DashMapEngine :=
  match e.map.lookup key with
  | none => (-2, e)
  | some v =>
      if v.isExpiredAt now then (-2, e.removeIfExpired now key)
      else
        match v.expiresAt with
        | some exp => if exp ≤ now then (-2, e) else (asI64 (Duration.asSecs (exp - now)), e)
        | none => (-1, e)

/-- The addition to the clock is not checked here. -/
def expire (now : Instant) (e : DashMapEngine) (key : Key) (seconds : Nat) : Bool × DashMapEngine :=
  match e.map.lookup key with
  | none => (false, e)
  | some v =>
      if v.isExpiredAt now then (false, e.removeIfExpired now key)
      else (true, e.insert key { v with expiresAt := some (now + Duration.fromSecs seconds) })

def clear (e : DashMapEngine) : DashMapEngine := { e with map := ∅ }

def keys (iter : Iter) (now : Instant) (e : DashMapEngine) : List Key :=
  ((iter.list e.map).filter fun entry => !entry.2.isExpiredAt now).map fun entry => entry.1

def mget (now : Instant) (e : DashMapEngine) (keys : List Key) : List (Option ValueEntry) :=
  keys.map fun key =>
    (e.map.lookup key).bind fun v => if v.isExpiredAt now then none else some v

/-! ## Dump and fast path -/

/-- The remaining time to live a dump records: `-1` without one, and also when
less than a millisecond is left. -/
def remainingMillis (now : Instant) (v : ValueEntry) : Int :=
  match v.expiresAt with
  | some exp =>
      let ms := asI64 (Duration.asMillis (exp - now))
      if ms > 0 then ms else -1
  | none => -1

/-- The arguments of the successive calls of the dump's callback. -/
def dumpEntries (iter : Iter) (now : Instant) (e : DashMapEngine) : List (Key × Bytes × Int) :=
  ((iter.list e.map).filter fun entry => !entry.2.isExpiredAt now).map fun entry =>
    (entry.1, entry.2.data, remainingMillis now entry.2)

def getFast (e : DashMapEngine) (key : Key) : Option Bytes := (e.map.lookup key).map (·.data)

def setFastStr (e : DashMapEngine) (key : Key) (value : Bytes) : DashMapEngine :=
  e.insert key (ValueEntry.newFast value)

/-! ## What is stored -/

theorem ext_lookup {e e' : DashMapEngine} (limit : e.maxKeys = e'.maxKeys)
    (same : ∀ key, e.map.lookup key = e'.map.lookup key) : e = e' := by
  obtain ⟨map, maxKeys⟩ := e
  cases limit
  congr 1
  exact Finmap.ext_lookup same

/-- An entry behind an insert is the inserted one, or it was there. -/
theorem lookup_of_insert {e : DashMapEngine} {key k : Key} {v w : ValueEntry}
    (found : (e.insert key v).map.lookup k = some w) : (k = key ∧ v = w) ∨ e.map.lookup k = some w := by
  by_cases same : k = key
  · subst same
    rw [insert, Finmap.lookup_insert] at found
    exact .inl ⟨rfl, Option.some.inj found⟩
  · rw [insert, Finmap.lookup_insert_of_ne _ same] at found
    exact .inr found

/-- An entry behind a removal was there. -/
theorem lookup_of_remove {e : DashMapEngine} {key k : Key} {w : ValueEntry}
    (found : (e.remove key).map.lookup k = some w) : e.map.lookup k = some w := by
  by_cases same : k = key
  · subst same
    rw [remove, Finmap.lookup_erase] at found
    cases found
  · rwa [remove, Finmap.lookup_erase_ne same] at found

/-- `remove_if` takes an entry that is expired under its key, and no other. -/
theorem lookup_removeIfExpired (now : Instant) (e : DashMapEngine) (key other : Key) :
    (e.removeIfExpired now key).map.lookup other =
      (e.map.lookup other).filter fun v => !(decide (other = key) && v.isExpiredAt now) := by
  unfold removeIfExpired
  by_cases same : other = key
  · subst same
    cases found : e.map.lookup other with
    | none => simp [found]
    | some v =>
        cases old : v.isExpiredAt now with
        | true => simp [old, remove, Option.filter_some]
        | false => simp [old, found, Option.filter_some]
  · have stays : (e.remove key).map.lookup other = e.map.lookup other := Finmap.lookup_erase_ne same
    have all : (e.map.lookup other).filter (fun _ => true) = e.map.lookup other := by
      cases e.map.lookup other <;> rfl
    simp only [same, decide_false, Bool.false_and, Bool.not_false, all]
    split
    · split
      · exact stays
      · rfl
    · rfl

theorem removeIfExpired_absent {now : Instant} {e : DashMapEngine} {key : Key}
    (absent : e.map.lookup key = none) : e.removeIfExpired now key = e := by
  simp only [removeIfExpired, absent]

theorem removeIfExpired_live {now : Instant} {e : DashMapEngine} {key : Key} {v : ValueEntry}
    (found : e.map.lookup key = some v) (live : v.isExpiredAt now = false) :
    e.removeIfExpired now key = e := by
  simp only [removeIfExpired, found, live, Bool.false_eq_true, if_false]

/-! A read leaves the store without its key, if that has expired, and as it is otherwise. -/

theorem get_leaves (now : Instant) (e : DashMapEngine) (key : Key) :
    (e.get now key).2 = e.removeIfExpired now key := by
  unfold get
  split
  · rename_i absent
    exact (removeIfExpired_absent absent).symm
  · rename_i v found
    split
    · rfl
    · rename_i live
      exact (removeIfExpired_live found (Bool.eq_false_of_not_eq_true live)).symm

theorem exists_leaves (now : Instant) (e : DashMapEngine) (key : Key) :
    (e.exists? now key).2 = e.removeIfExpired now key := by
  unfold exists?
  split
  · rename_i absent
    exact (removeIfExpired_absent absent).symm
  · rename_i v found
    split
    · rfl
    · rename_i live
      exact (removeIfExpired_live found (Bool.eq_false_of_not_eq_true live)).symm

theorem ttlSecs_leaves (now : Instant) (e : DashMapEngine) (key : Key) :
    (e.ttlSecs now key).2 = e.removeIfExpired now key := by
  unfold ttlSecs
  split
  · rename_i absent
    exact (removeIfExpired_absent absent).symm
  · rename_i v found
    split
    · rfl
    · rename_i live
      rw [removeIfExpired_live found (Bool.eq_false_of_not_eq_true live)]
      split
      · split <;> rfl
      · rfl

/-! ## Without a key limit -/

variable {iter : Iter} {now : Instant} {e : DashMapEngine} {key : Key}

@[simp] theorem insert_maxKeys (value : ValueEntry) : (e.insert key value).maxKeys = e.maxKeys := rfl
@[simp] theorem remove_maxKeys : (e.remove key).maxKeys = e.maxKeys := rfl
@[simp] theorem clear_maxKeys : e.clear.maxKeys = e.maxKeys := rfl

@[simp] theorem removeIfExpired_maxKeys : (e.removeIfExpired now key).maxKeys = e.maxKeys := by
  unfold removeIfExpired
  split
  · split <;> rfl
  · rfl

@[simp] theorem evictOneIfNeeded_maxKeys : (e.evictOneIfNeeded iter now).maxKeys = e.maxKeys := by
  unfold evictOneIfNeeded
  split
  · rfl
  · split <;> rfl

/-- Without a limit `set` inserts. -/
theorem set_unlimited (unlimited : e.maxKeys = 0) (value : ValueEntry) :
    set iter now e key value = (.ok (), e.insert key value) := by
  simp [set, unlimited]

/-- Without a limit `incr` creates a missing or expired key at `1`, adds one to a
live integer in place, and leaves everything else alone. -/
theorem incr_unlimited (unlimited : e.maxKeys = 0) :
    incr iter now e key =
      match e.map.lookup key with
      | none => (.ok 1, e.insert key (ValueEntry.new now (ascii "1")))
      | some v =>
          if v.isExpiredAt now then (.ok 1, e.insert key (ValueEntry.new now (ascii "1")))
          else
            match parseSigned 64 (fromUtf8Lossy v.data) with
            | none => (.error (.notAnInteger key), e)
            | some val => (.ok (Int.bmod (val + 1) (2 ^ 64)),
                e.insert key { v with data := decimalInt (Int.bmod (val + 1) (2 ^ 64)) }) := by
  have overwrite (v : ValueEntry) : (e.remove key).insert key v = e.insert key v := by
    refine ext_lookup rfl ?_
    intro k
    unfold remove insert
    by_cases same : k = key
    · subst same
      rw [Finmap.lookup_insert, Finmap.lookup_insert]
    · rw [Finmap.lookup_insert_of_ne _ same, Finmap.lookup_insert_of_ne _ same,
        Finmap.lookup_erase_ne same]
  unfold incr
  cases e.map.lookup key with
  | none => simp [unlimited]
  | some v => simp [unlimited, overwrite]

end DashMapEngine

/-! ## What never fails -/

theorem get_answer (now : Instant) (e : DashMapEngine) (key : Key) : ∃ found, (e.get now key).1 = .ok found := by
  unfold DashMapEngine.get
  split
  · exact ⟨_, rfl⟩
  · split <;> exact ⟨_, rfl⟩

theorem del_answer (now : Instant) (e : DashMapEngine) (key : Key) : ∃ found, (e.del now key).1 = .ok found := by
  unfold DashMapEngine.del
  split
  · split <;> exact ⟨_, rfl⟩
  · exact ⟨_, rfl⟩

end ZetDb.Storage
