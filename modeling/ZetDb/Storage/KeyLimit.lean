/-
# Storage.KeyLimit -- the limit on stored keys, and what counts against it

With `max_keys > 0` two operations make room before they insert: SET, and INCR of
a key that is not stored.  Both evict the oldest of up to five live entries, look
at the number of entries again, and refuse with `OutOfMemory` when there is still
no room.

* `set_cases`, `incr_cases`: under the limit a call stores where there is room,
  evicts one live key where there is none, and refuses, without a change, where
  every stored entry has expired.
* `keyLimit_invariant`: so the limit holds after every sequence of calls, with the
  snapshots and logs loaded in between, and a refusal never changes the map.
* `set_ignoresExpired_iff`: expired entries do count against the limit.  The
  eviction passes over them, so they take room until the sweep has come: a SET then
  throws a live key away, or is refused by a store of nothing but dead entries.
-/
import ZetDb.Storage.Expiry
import ZetDb.Storage.Reload

namespace ZetDb.Storage

set_option autoImplicit false

open ZetDb.Theory.Wire ZetDb.Theory.Text ZetDb.Domain

/-! ## The number of entries -/

section Len

variable {e : DashMapEngine} {key : Key}

theorem len_eq_card (e : DashMapEngine) : e.len = e.map.keys.card :=
  (Multiset.card_map Sigma.fst e.map.entries).symm

theorem keys_insert (e : DashMapEngine) (key : Key) (v : ValueEntry) :
    (e.insert key v).map.keys = Insert.insert key e.map.keys := by
  ext k
  rw [Finmap.mem_keys, Finset.mem_insert, Finmap.mem_keys]
  exact Finmap.mem_insert

theorem mem_keys_iff (e : DashMapEngine) (key : Key) :
    key ∈ e.map.keys ↔ (e.map.lookup key).isSome = true := by
  rw [Finmap.mem_keys, ← Finmap.lookup_isSome]

theorem len_insert_held (held : (e.map.lookup key).isSome = true) (v : ValueEntry) :
    (e.insert key v).len = e.len := by
  rw [len_eq_card, keys_insert, Finset.insert_eq_self.2 ((mem_keys_iff e key).2 held), len_eq_card]

theorem len_insert_new (missing : e.map.lookup key = none) (v : ValueEntry) :
    (e.insert key v).len = e.len + 1 := by
  have absent : key ∉ e.map.keys := by
    rw [mem_keys_iff, missing]
    exact Bool.false_ne_true
  rw [len_eq_card, keys_insert, Finset.card_insert_of_notMem absent, len_eq_card]

theorem len_insert_le (v : ValueEntry) : (e.insert key v).len ≤ e.len + 1 := by
  rw [len_eq_card, keys_insert, len_eq_card]
  exact Finset.card_insert_le _ _

theorem len_remove_le (e : DashMapEngine) (key : Key) : (e.remove key).len ≤ e.len := by
  rw [len_eq_card, DashMapEngine.remove, Finmap.keys_erase, len_eq_card]
  exact Finset.card_erase_le

theorem len_remove_held (held : (e.map.lookup key).isSome = true) : (e.remove key).len + 1 = e.len := by
  rw [len_eq_card, DashMapEngine.remove, Finmap.keys_erase, len_eq_card]
  exact Finset.card_erase_add_one ((mem_keys_iff e key).2 held)

theorem len_removeIfExpired_le (now : Instant) (e : DashMapEngine) (key : Key) :
    (e.removeIfExpired now key).len ≤ e.len := by
  unfold DashMapEngine.removeIfExpired
  split
  · split
    · exact len_remove_le e key
    · exact Nat.le_refl _
  · exact Nat.le_refl _

theorem len_sweepExpired_le (now : Instant) (e : DashMapEngine) : (e.sweepExpired now).len ≤ e.len :=
  Multiset.card_le_card (Multiset.filter_le _ _)

end Len

/-! ## The sample -/

/-- Every stored entry has expired. -/
def AllExpired (now : Instant) (e : DashMapEngine) : Prop :=
  ∀ k w, e.map.lookup k = some w → w.isExpiredAt now = true

section Sample

variable {now : Instant} {e : DashMapEngine}

/-- The sample is an entry that has not expired. -/
theorem sampleOldest_live {entries : List Entry} {oldestKey : Option Key} {oldestTime : Option Instant}
    {sampled : Nat} {k : Key}
    (found : DashMapEngine.sampleOldest now entries oldestKey oldestTime sampled = some k) :
    oldestKey = some k ∨ ∃ entry ∈ entries, entry.1 = k ∧ entry.2.isExpiredAt now = false := by
  induction entries generalizing oldestKey oldestTime sampled with
  | nil => exact .inl found
  | cons entry entries ih =>
      have later (old : Option Key) (time : Option Instant) (n : Nat)
          (rest : DashMapEngine.sampleOldest now entries old time n = some k) :
          old = some k ∨ ∃ entry' ∈ entry :: entries, entry'.1 = k ∧ entry'.2.isExpiredAt now = false := by
        rcases ih rest with kept | ⟨entry', inside, same, live⟩
        · exact .inl kept
        · exact .inr ⟨entry', by simp [inside], same, live⟩
      rw [DashMapEngine.sampleOldest] at found
      split at found
      · exact later _ _ _ found
      · rename_i live
        have live : entry.2.isExpiredAt now = false := Bool.not_eq_true _ ▸ live
        have chosen (older : Bool) (picked : (if older then some entry.1 else oldestKey) = some k) :
            oldestKey = some k ∨
              ∃ entry' ∈ entry :: entries, entry'.1 = k ∧ entry'.2.isExpiredAt now = false := by
          cases older with
          | false => exact .inl picked
          | true =>
              cases picked
              exact .inr ⟨entry, by simp, rfl, live⟩
        simp only at found
        split at found
        · exact chosen _ found
        · rcases later _ _ _ found with kept | inside
          · exact chosen _ kept
          · exact .inr inside

/-- A key once chosen is only replaced by another. -/
theorem sampleOldest_isSome (now : Instant) (entries : List Entry) {oldestKey : Option Key}
    (chosen : oldestKey.isSome = true) (oldestTime : Option Instant) (sampled : Nat) :
    (DashMapEngine.sampleOldest now entries oldestKey oldestTime sampled).isSome = true := by
  induction entries generalizing oldestKey oldestTime sampled with
  | nil => exact chosen
  | cons entry entries ih =>
      have still (older : Bool) : (if older then some entry.1 else oldestKey).isSome = true := by
        cases older with
        | false => exact chosen
        | true => rfl
      rw [DashMapEngine.sampleOldest]
      split
      · exact ih chosen _ _
      · simp only
        split
        · exact still _
        · exact ih (still _) _ _

/-- Nothing is sampled only where everything has expired. -/
theorem sampleOldest_none {entries : List Entry} {sampled : Nat}
    (nothing : DashMapEngine.sampleOldest now entries none none sampled = none) :
    ∀ entry ∈ entries, entry.2.isExpiredAt now = true := by
  induction entries with
  | nil => simp
  | cons entry entries ih =>
      rw [DashMapEngine.sampleOldest] at nothing
      split at nothing
      · rename_i expired
        exact List.forall_mem_cons.2 ⟨expired, ih nothing⟩
      · simp only [Option.isNone_none, Bool.true_or, if_true] at nothing
        split at nothing
        · cases nothing
        · have chosen : (some entry.1).isSome = true := rfl
          have found := sampleOldest_isSome now entries chosen entry.2.createdAt (sampled + 1)
          rw [nothing] at found
          cases found

/-- At the limit a live key goes, or every entry has expired and all of them stay. -/
theorem evict_cases (iter : Iter) (now : Instant) (full : ¬ (e.maxKeys = 0 ∨ e.len < e.maxKeys)) :
    (∃ k w, e.live now k = some w ∧ e.evictOneIfNeeded iter now = e.remove k) ∨
      AllExpired now e ∧ e.evictOneIfNeeded iter now = e := by
  unfold DashMapEngine.evictOneIfNeeded
  rw [if_neg full]
  cases sampled : DashMapEngine.sampleOldest now (iter.list e.map) none none 0 with
  | none =>
      refine .inr ⟨fun k w held => ?_, rfl⟩
      exact sampleOldest_none sampled ⟨k, w⟩ ((mem_iter_list iter e ⟨k, w⟩).2 held)
  | some k =>
      obtain impossible | ⟨entry, listed, rfl, live⟩ := sampleOldest_live sampled
      · cases impossible
      · exact .inl ⟨entry.1, entry.2, live_eq_some.2 ⟨(mem_iter_list iter e entry).1 listed, live⟩, rfl⟩

end Sample

/-! ## SET and INCR under the limit -/

section Limited

variable {iter : Iter} {now : Instant} {e : DashMapEngine} {key : Key}

theorem live_held {k : Key} {w : ValueEntry} (live : e.live now k = some w) :
    (e.map.lookup k).isSome = true := by
  rw [(live_eq_some.1 live).1]
  rfl

/-- Where the key needs no room of another, SET inserts. -/
theorem set_room (room : e.maxKeys = 0 ∨ (e.map.lookup key).isSome = true ∨ e.len < e.maxKeys)
    (v : ValueEntry) : e.set iter now key v = (.ok (), e.insert key v) := by
  unfold DashMapEngine.set
  split
  · rename_i limited
    have below : e.len < e.maxKeys := by
      rcases room with unlimited | held | below
      · omega
      · rw [Option.isNone_iff_eq_none.1 limited.2] at held
        cases held
      · exact below
    have kept : e.evictOneIfNeeded iter now = e := if_pos (.inr below)
    simp only [kept]
    rw [if_neg (by omega)]
  · rfl

/-- Where it needs room, a live key is evicted for it, or the store is all expired. -/
theorem set_full (iter : Iter) (now : Instant) (limited : 0 < e.maxKeys) (missing : e.map.lookup key = none)
    (full : e.maxKeys ≤ e.len) (v : ValueEntry) :
    (∃ k w, e.live now k = some w ∧ k ≠ key ∧ e.set iter now key v =
        if e.maxKeys ≤ (e.remove k).len then (.error .outOfMemory, e.remove k)
        else (.ok (), (e.remove k).insert key v)) ∨
      AllExpired now e ∧ e.set iter now key v = (.error .outOfMemory, e) := by
  have evicts : ¬ (e.maxKeys = 0 ∨ e.len < e.maxKeys) := by omega
  unfold DashMapEngine.set
  rw [if_pos ⟨limited, by rw [missing]; rfl⟩]
  rcases evict_cases iter now evicts with ⟨k, w, live, evicted⟩ | ⟨expired, kept⟩
  · refine .inl ⟨k, w, live, ?_, by rw [evicted]; rfl⟩
    rintro rfl
    rw [(live_eq_some.1 live).1] at missing
    cases missing
  · refine .inr ⟨expired, ?_⟩
    rw [kept]
    exact if_pos full

/-- SET on a store within its limit. -/
theorem set_cases (iter : Iter) (now : Instant) (limited : 0 < e.maxKeys) (within : e.len ≤ e.maxKeys)
    (key : Key) (v : ValueEntry) :
    (((e.map.lookup key).isSome = true ∨ e.len < e.maxKeys) ∧
        e.set iter now key v = (.ok (), e.insert key v)) ∨
      e.map.lookup key = none ∧ e.len = e.maxKeys ∧
        ((∃ k w, e.live now k = some w ∧ k ≠ key ∧
            e.set iter now key v = (.ok (), (e.remove k).insert key v)) ∨
          AllExpired now e ∧ e.set iter now key v = (.error .outOfMemory, e)) := by
  by_cases room : (e.map.lookup key).isSome = true ∨ e.len < e.maxKeys
  · exact .inl ⟨room, set_room (.inr room) v⟩
  · obtain ⟨absent, full⟩ := not_or.1 room
    have missing : e.map.lookup key = none := by simpa using absent
    have atLimit : e.len = e.maxKeys := by omega
    refine .inr ⟨missing, atLimit, ?_⟩
    rcases set_full iter now limited missing (by omega) v with ⟨k, w, live, other, evicted⟩ | refused
    · have smaller : (e.remove k).len + 1 = e.len := len_remove_held (live_held live)
      rw [if_neg (by omega)] at evicted
      exact .inl ⟨k, w, live, other, evicted⟩
    · exact .inr refused

/-- INCR of a key that is not stored is a SET to `1`. -/
theorem incr_missing (iter : Iter) (now : Instant) (missing : e.map.lookup key = none) :
    e.incr iter now key =
      ((e.set iter now key (ValueEntry.new now (ascii "1"))).1.map fun _ => 1,
        (e.set iter now key (ValueEntry.new now (ascii "1"))).2) := by
  have isNone : (none : Option ValueEntry).isNone = true := rfl
  unfold DashMapEngine.incr DashMapEngine.set
  simp only [missing]
  by_cases full : e.maxKeys > 0 ∧ e.len ≥ e.maxKeys
  · have limited : e.maxKeys > 0 ∧ (none : Option ValueEntry).isNone = true := ⟨full.1, isNone⟩
    rw [if_pos full, if_pos limited]
    split <;> rfl
  · rw [if_neg full]
    by_cases limited : e.maxKeys > 0
    · -- below the limit the eviction does nothing
      have below : e.len < e.maxKeys := by omega
      have kept : e.evictOneIfNeeded iter now = e := if_pos (.inr below)
      rw [if_pos ⟨limited, isNone⟩]
      simp only [kept]
      rw [if_neg (by omega)]
      rfl
    · have unlimited : ¬ (e.maxKeys > 0 ∧ (none : Option ValueEntry).isNone = true) := fun both =>
        limited both.1
      rw [if_neg unlimited]
      rfl

/-- INCR of an expired key removes it first. -/
theorem incr_expired {v : ValueEntry} (iter : Iter) (held : e.map.lookup key = some v)
    (expired : v.isExpiredAt now = true) :
    e.incr iter now key =
      if e.maxKeys > 0 ∧ (e.remove key).len ≥ e.maxKeys then (.error .outOfMemory, e.remove key)
      else (.ok 1, (e.remove key).insert key (ValueEntry.new now (ascii "1"))) := by
  unfold DashMapEngine.incr
  rw [held]
  exact if_pos expired

/-- INCR on a store within its limit: it leaves the map alone and fails, or stores
the key, in place of another live one where there was no room. -/
theorem incr_cases (iter : Iter) (now : Instant) (limited : 0 < e.maxKeys) (within : e.len ≤ e.maxKeys)
    (key : Key) :
    ((∃ err, (e.incr iter now key).1 = .error err) ∧ (e.incr iter now key).2 = e) ∨
      ∃ n v, (e.incr iter now key).1 = .ok n ∧
        ((((e.map.lookup key).isSome = true ∨ e.len < e.maxKeys) ∧
            (e.incr iter now key).2 = e.insert key v) ∨
          ∃ k, (e.map.lookup k).isSome = true ∧ (e.incr iter now key).2 = (e.remove k).insert key v) := by
  cases held : e.map.lookup key with
  | none =>
      rw [incr_missing iter now held]
      rcases set_cases iter now limited within key (ValueEntry.new now (ascii "1")) with
        ⟨room, stored⟩ | ⟨-, -, ⟨k, w, live, -, evicted⟩ | ⟨-, refused⟩⟩
      · rw [held] at room
        rw [stored]
        exact .inr ⟨_, _, rfl, .inl ⟨room, rfl⟩⟩
      · rw [evicted]
        exact .inr ⟨_, _, rfl, .inr ⟨k, live_held live, rfl⟩⟩
      · rw [refused]
        exact .inl ⟨⟨_, rfl⟩, rfl⟩
  | some v =>
      have isSome : (e.map.lookup key).isSome = true := by rw [held]; rfl
      cases expired : v.isExpiredAt now with
      | true =>
          -- the expired entry goes first, so there is room
          have smaller : (e.remove key).len + 1 = e.len := len_remove_held isSome
          rw [incr_expired iter held expired, if_neg (by omega)]
          exact .inr ⟨_, _, rfl, .inr ⟨key, isSome, rfl⟩⟩
      | false =>
          unfold DashMapEngine.incr
          simp only [held, expired, Bool.false_eq_true, if_false]
          split
          · exact .inl ⟨⟨_, rfl⟩, rfl⟩
          · exact .inr ⟨_, _, rfl, .inl ⟨.inl rfl, rfl⟩⟩

end Limited

/-! ## What the loaders keep -/

section Keeps

variable {P : DashMapEngine → Prop}

/-- What a snapshot or a log does to the engine, it does through these operations. -/
structure KeptByWrites (P : DashMapEngine → Prop) : Prop where
  set : ∀ iter now e key v, P e → P (DashMapEngine.set iter now e key v).2
  del : ∀ now e key, P e → P (DashMapEngine.del now e key).2
  incr : ∀ iter now e key, P e → P (DashMapEngine.incr iter now e key).2
  expire : ∀ now e key seconds, P e → P (DashMapEngine.expire now e key seconds).2
  clear : ∀ e, P e → P e.clear

variable {iter : Iter} {now : Instant} {data : Bytes} {e e' : DashMapEngine}

theorem KeptByWrites.loadEntries (kept : KeptByWrites P) (limit count pos loaded : Nat) (start : P e) :
    P (loadEntries iter now data limit count pos e loaded).2 := by
  induction count generalizing pos e loaded with
  | zero => exact start
  | succ count ih =>
      rw [Storage.loadEntries]
      split
      · exact start
      · rename_i key value ttlMs next read
        have stored := kept.set iter now e key ⟨value, expiryOf now ttlMs, some now⟩ start
        split
        · rename_i failed
          rw [failed] at stored
          exact ih _ _ stored
        · rename_i written
          rw [written] at stored
          exact ih _ _ stored

theorem KeptByWrites.loadSnapshot (kept : KeptByWrites P) (hash : Bytes → UInt32) (file : Option Bytes)
    (start : P e) : P (loadSnapshot hash iter now file e).2 := by
  unfold Storage.loadSnapshot
  split
  · exact start
  -- every refusal stands before the first entry is stored
  split
  · exact start
  split
  · exact start
  split
  · exact start
  simp only
  split
  · exact start
  split
  · exact start
  split
  · exact start
  · exact kept.loadEntries _ _ _ _ start

theorem KeptByWrites.replayPairs (kept : KeptByWrites P) (iter : Iter) (now : Instant) (data : Bytes)
    (count pos : Nat) (start : P e) :
    P (replayPairs iter now data count pos e).1 := by
  induction count generalizing pos e with
  | zero => exact start
  | succ count ih =>
      rw [Storage.replayPairs]
      split
      · exact start
      · exact ih _ (kept.set _ _ _ _ _ start)

theorem KeptByWrites.replayEntry (kept : KeptByWrites P) {cmdType : UInt8} {pos next : Nat} (start : P e)
    (replayed : replayEntry iter now data cmdType pos e = some (e', next)) : P e' := by
  unfold Storage.replayEntry at replayed
  split at replayed
  · simp only [replaySet, Option.bind_eq_bind, Option.bind_eq_some_iff] at replayed
    obtain ⟨_, -, _, -, _, -, rfl, rfl⟩ := replayed
    exact kept.set _ _ _ _ _ start
  split at replayed
  · simp only [replayDel, Option.bind_eq_bind, Option.bind_eq_some_iff] at replayed
    obtain ⟨_, -, rfl, rfl⟩ := replayed
    exact kept.del _ _ _ start
  split at replayed
  · simp only [replayIncr, Option.bind_eq_bind, Option.bind_eq_some_iff] at replayed
    obtain ⟨_, -, rfl, rfl⟩ := replayed
    exact kept.incr _ _ _ _ start
  split at replayed
  · simp only [replayExpire, Option.bind_eq_bind, Option.bind_eq_some_iff] at replayed
    obtain ⟨_, -, _, -, rfl, rfl⟩ := replayed
    exact kept.expire _ _ _ _ start
  split at replayed
  · cases replayed
    exact kept.clear _ start
  split at replayed
  · simp only [replayMset, Option.bind_eq_bind, Option.bind_eq_some_iff] at replayed
    obtain ⟨⟨count, behind⟩, -, done⟩ := replayed
    have last := kept.replayPairs iter now data count behind start
    rw [Option.some.inj done] at last
    exact last
  · cases replayed

theorem KeptByWrites.replayLoop (kept : KeptByWrites P) {fuel pos replayed n : Nat} (start : P e)
    (done : replayLoop iter now data fuel pos e replayed = some (e', n)) : P e' := by
  induction fuel generalizing pos e replayed with
  | zero =>
      unfold Storage.replayLoop at done
      split at done
      · cases done
        exact start
      · cases done
  | succ fuel ih =>
      unfold Storage.replayLoop at done
      split at done
      · cases done
        exact start
      · simp only at done
        split at done
        · cases done
          exact start
        · rename_i entered
          exact ih (kept.replayEntry start entered) done

theorem KeptByWrites.replayAof (kept : KeptByWrites P) {file : Option Bytes} {n : Nat} (start : P e)
    (done : replayAof iter now file e = some (e', n)) : P e' := by
  cases file with
  | none =>
      cases done
      exact start
  | some data => exact kept.replayLoop start done

end Keeps

/-! ## The limit as an invariant -/

/-- An operation of the engine, or a file loaded into it. -/
inductive StoreOp where
  | engine (op : Op)
  | loadSnapshot (file : Option Bytes)
  | replayAof (file : Option Bytes)

/-- An operation, the clock it reads, and the order in which the map iterates then. -/
structure StoreCall where
  iter : Iter
  now : Instant
  op : StoreOp

/-- The error a call returns, if it returns one. -/
def Outcome.failure : Outcome → Option EngineError
  | .written (.error err) => some err
  | .found (.error err) => some err
  | .deleted (.error err) => some err
  | .counted (.error err) => some err
  | _ => none

theorem failure_written {result : Except EngineError Unit} {err : EngineError}
    (failed : (Outcome.written result).failure = some err) : result = .error err := by
  cases result with
  | error text => exact congrArg Except.error (Option.some.inj failed)
  | ok done => cases failed

theorem failure_counted {result : Except EngineError Int} {err : EngineError}
    (failed : (Outcome.counted result).failure = some err) : result = .error err := by
  cases result with
  | error text => exact congrArg Except.error (Option.some.inj failed)
  | ok n => cases failed

/-- A call on the engine.  The loaders drop the errors of the single writes; a
replay always ends (`replayAof_isSome`). -/
def storeStep (e : DashMapEngine) (c : StoreCall) : Option EngineError × DashMapEngine :=
  match c.op with
  | .engine op => ((engineStep e ⟨c.iter, c.now, op⟩).1.failure, (engineStep e ⟨c.iter, c.now, op⟩).2)
  | .loadSnapshot file => (none, (loadSnapshot crc32 c.iter c.now file e).2)
  | .replayAof file => (none, ((replayAof c.iter c.now file e).map Prod.fst).getD e)

/-- The engine after a sequence of calls. -/
def storeRun (e : DashMapEngine) (calls : List StoreCall) : DashMapEngine :=
  calls.foldl (fun e c => (storeStep e c).2) e

/-- The limit is `m`, and is kept. -/
structure Within (m : Nat) (e : DashMapEngine) : Prop where
  limit : e.maxKeys = m
  len : e.len ≤ m

section Within

variable {m : Nat} {now : Instant} {e : DashMapEngine}

theorem Within.shrink (within : Within m e) {smaller : DashMapEngine} (limit : smaller.maxKeys = e.maxKeys)
    (len : smaller.len ≤ e.len) : Within m smaller :=
  ⟨limit.trans within.limit, len.trans within.len⟩

theorem Within.removeIfExpired (within : Within m e) (now : Instant) (key : Key) :
    Within m (e.removeIfExpired now key) :=
  within.shrink DashMapEngine.removeIfExpired_maxKeys (len_removeIfExpired_le now e key)

theorem Within.replace (within : Within m e) {key : Key} (held : (e.map.lookup key).isSome = true)
    (v : ValueEntry) : Within m (e.insert key v) :=
  within.shrink rfl (Nat.le_of_eq (len_insert_held held v))

theorem Within.insert (within : Within m e) {key : Key} (v : ValueEntry)
    (room : (e.map.lookup key).isSome = true ∨ e.len < e.maxKeys) : Within m (e.insert key v) := by
  rcases room with held | below
  · exact within.replace held v
  · have grown : (e.insert key v).len ≤ e.len + 1 := len_insert_le v
    exact ⟨within.limit, by have limit := within.limit; omega⟩

/-- One key in the place of another. -/
theorem Within.exchange (within : Within m e) {k key : Key} (held : (e.map.lookup k).isSome = true)
    (v : ValueEntry) : Within m ((e.remove k).insert key v) := by
  have smaller : (e.remove k).len + 1 = e.len := len_remove_held held
  have grown : ((e.remove k).insert key v).len ≤ (e.remove k).len + 1 := len_insert_le v
  exact within.shrink rfl (by omega)

theorem Within.del (within : Within m e) (now : Instant) (key : Key) : Within m (e.del now key).2 := by
  unfold DashMapEngine.del
  split
  · split
    · exact within.shrink rfl (len_remove_le e key)
    · exact within
  · exact within

theorem Within.get (within : Within m e) (now : Instant) (key : Key) : Within m (e.get now key).2 := by
  rw [DashMapEngine.get_leaves]
  exact within.removeIfExpired now key

theorem Within.exists (within : Within m e) (now : Instant) (key : Key) : Within m (e.exists? now key).2 := by
  rw [DashMapEngine.exists_leaves]
  exact within.removeIfExpired now key

theorem Within.ttlSecs (within : Within m e) (now : Instant) (key : Key) : Within m (e.ttlSecs now key).2 := by
  rw [DashMapEngine.ttlSecs_leaves]
  exact within.removeIfExpired now key

theorem Within.expire (within : Within m e) (now : Instant) (key : Key) (seconds : Nat) :
    Within m (e.expire now key seconds).2 := by
  unfold DashMapEngine.expire
  split
  · exact within
  · rename_i v held
    split
    · exact within.removeIfExpired now key
    · exact within.replace (by rw [held]; rfl) _

theorem Within.clear (within : Within m e) : Within m e.clear :=
  within.shrink rfl (Nat.zero_le _)

variable (positive : 0 < m)
include positive

/-- SET keeps the limit, and refuses without a change. -/
theorem Within.set (within : Within m e) (iter : Iter) (now : Instant) (key : Key) (v : ValueEntry) :
    Within m (e.set iter now key v).2 ∧
      ((e.set iter now key v).1 = .error .outOfMemory → (e.set iter now key v).2 = e) := by
  have limited : 0 < e.maxKeys := by rw [within.limit]; exact positive
  have bounded : e.len ≤ e.maxKeys := by rw [within.limit]; exact within.len
  rcases set_cases iter now limited bounded key v with
    ⟨room, stored⟩ | ⟨-, -, ⟨k, w, live, -, evicted⟩ | ⟨-, refused⟩⟩
  · rw [stored]
    exact ⟨within.insert v room, fun failed => by cases failed⟩
  · rw [evicted]
    exact ⟨within.exchange (live_held live) v, fun failed => by cases failed⟩
  · rw [refused]
    exact ⟨within, fun _ => rfl⟩

/-- INCR as well. -/
theorem Within.incr (within : Within m e) (iter : Iter) (now : Instant) (key : Key) :
    Within m (e.incr iter now key).2 ∧
      ((e.incr iter now key).1 = .error .outOfMemory → (e.incr iter now key).2 = e) := by
  have limited : 0 < e.maxKeys := by rw [within.limit]; exact positive
  have bounded : e.len ≤ e.maxKeys := by rw [within.limit]; exact within.len
  rcases incr_cases iter now limited bounded key with ⟨-, same⟩ | ⟨n, v, counted, stored⟩
  · rw [same]
    exact ⟨within, fun _ => rfl⟩
  · refine ⟨?_, fun failed => by rw [counted] at failed; cases failed⟩
    rcases stored with ⟨room, after⟩ | ⟨k, held, after⟩
    · rw [after]
      exact within.insert v room
    · rw [after]
      exact within.exchange held v

theorem within_keptByWrites : KeptByWrites (Within m) where
  set iter now _ key v within := (Within.set positive within iter now key v).1
  del now _ key within := within.del now key
  incr iter now _ key within := (Within.incr positive within iter now key).1
  expire now _ key seconds within := within.expire now key seconds
  clear _ within := within.clear

/-- One call keeps the limit, and a refusal changes nothing. -/
theorem Within.step (within : Within m e) (c : StoreCall) :
    Within m (storeStep e c).2 ∧ ((storeStep e c).1 = some .outOfMemory → (storeStep e c).2 = e) := by
  obtain ⟨iter, now, op⟩ := c
  cases op with
  | loadSnapshot file =>
      exact ⟨(within_keptByWrites positive).loadSnapshot crc32 file within, fun failed => by cases failed⟩
  | replayAof file =>
      refine ⟨?_, fun failed => by cases failed⟩
      obtain ⟨⟨after, n⟩, done⟩ := Option.isSome_iff_exists.1 (replayAof_isSome iter now file e)
      simp only [storeStep, done]
      exact (within_keptByWrites positive).replayAof within done
  | engine op =>
      cases op with
      | set key v =>
          obtain ⟨kept, refusal⟩ := Within.set positive within iter now key v
          exact ⟨kept, fun failed => refusal (failure_written failed)⟩
      | incr key =>
          obtain ⟨kept, refusal⟩ := Within.incr positive within iter now key
          exact ⟨kept, fun failed => refusal (failure_counted failed)⟩
      | get key =>
          obtain ⟨found, answer⟩ := get_answer now e key
          refine ⟨within.get now key, fun failed => ?_⟩
          simp only [storeStep, engineStep, answer] at failed
          cases failed
      | del key =>
          obtain ⟨found, answer⟩ := del_answer now e key
          refine ⟨within.del now key, fun failed => ?_⟩
          simp only [storeStep, engineStep, answer] at failed
          cases failed
      | «exists» key => exact ⟨within.exists now key, fun failed => by cases failed⟩
      | ttlSecs key => exact ⟨within.ttlSecs now key, fun failed => by cases failed⟩
      | expire key seconds => exact ⟨within.expire now key seconds, fun failed => by cases failed⟩
      | clear => exact ⟨within.clear, fun failed => by cases failed⟩
      | keys => exact ⟨within, fun failed => by cases failed⟩
      | mget names => exact ⟨within, fun failed => by cases failed⟩
      | sweepExpired =>
          exact ⟨within.shrink rfl (len_sweepExpired_le now e), fun failed => by cases failed⟩

theorem Within.run (within : Within m e) (calls : List StoreCall) : Within m (storeRun e calls) := by
  induction calls generalizing e with
  | nil => exact within
  | cons c calls ih => exact ih (Within.step positive within c).1

end Within

/-- After every sequence of calls the entries are within the limit, and a call that
is then refused leaves the map as it is. -/
theorem keyLimit_invariant (m : Nat) (positive : 0 < m) (calls : List StoreCall) :
    (storeRun (.withMaxKeys m) calls).len ≤ m ∧
      ∀ c, (storeStep (storeRun (.withMaxKeys m) calls) c).1 = some .outOfMemory →
        (storeStep (storeRun (.withMaxKeys m) calls) c).2 = storeRun (.withMaxKeys m) calls := by
  have start : Within m (DashMapEngine.withMaxKeys m) := ⟨rfl, Nat.zero_le m⟩
  have within := Within.run positive start calls
  exact ⟨within.len, fun c => (Within.step positive within c).2⟩

/-- Room for one key, taken by an entry that expired at 1. -/
def deadEntry : DashMapEngine := (DashMapEngine.withMaxKeys 1).insert (ascii "a") ⟨ascii "1", some 1, some 0⟩

theorem deadEntry_len : deadEntry.len = 1 := len_insert_new rfl _

theorem deadEntry_refuses (iter : Iter) (v : ValueEntry) :
    deadEntry.set iter 5 (ascii "b") v = (.error .outOfMemory, deadEntry) := by
  have other : ascii "b" ≠ ascii "a" := by decide
  have missing : deadEntry.map.lookup (ascii "b") = none := Finmap.lookup_insert_of_ne _ other
  have dead : AllExpired 5 deadEntry := by
    intro k w held
    by_cases same : k = ascii "a"
    · rw [same, deadEntry, DashMapEngine.insert, Finmap.lookup_insert] at held
      cases held
      rfl
    · rw [deadEntry, DashMapEngine.insert, Finmap.lookup_insert_of_ne _ same] at held
      cases held
  rcases set_full iter 5 (by decide) missing (Nat.le_of_eq deadEntry_len.symm) v with
    ⟨k, w, live, -⟩ | ⟨-, refused⟩
  · obtain ⟨held, alive⟩ := live_eq_some.1 live
    rw [dead k w held] at alive
    cases alive
  · exact refused

/-- The call that stores the entry, and one that comes when it has expired. -/
def storeDead (iter : Iter) : StoreCall := ⟨iter, 0, .engine (.set (ascii "a") ⟨ascii "1", some 1, some 0⟩)⟩
def storeBehind (iter : Iter) : StoreCall := ⟨iter, 5, .engine (.set (ascii "b") (ValueEntry.new 5 (ascii "2")))⟩

theorem storeRun_storeDead (iter : Iter) : storeRun (.withMaxKeys 1) [storeDead iter] = deadEntry := by
  have room : (DashMapEngine.withMaxKeys 1).len < 1 := by decide
  exact congrArg Prod.snd (set_room (.inr (.inr room)) _)

theorem keyLimit_invariant_refusal :
    0 < 1 ∧ (storeRun (.withMaxKeys 1) [storeDead .some]).len ≤ 1 ∧
      (storeStep (storeRun (.withMaxKeys 1) [storeDead .some]) (storeBehind .some)).1 = some .outOfMemory ∧
      (storeStep (storeRun (.withMaxKeys 1) [storeDead .some]) (storeBehind .some)).2 =
        storeRun (.withMaxKeys 1) [storeDead .some] := by
  have refused : (storeStep (storeRun (.withMaxKeys 1) [storeDead .some]) (storeBehind .some)).1 =
      some .outOfMemory := by
    simp only [storeRun_storeDead, storeStep, storeBehind, engineStep, deadEntry_refuses]
    rfl
  obtain ⟨bounded, unchanged⟩ := keyLimit_invariant 1 (by decide) [storeDead .some]
  exact ⟨by decide, bounded, refused, unchanged (storeBehind .some) refused⟩

/-! ## Expired entries and the limit -/

/-- The live keys other than `key`. -/
def liveOthers (now : Instant) (e : DashMapEngine) (key : Key) : Nat :=
  e.map.entries.countP fun entry => entry.1 ≠ key ∧ entry.2.isExpiredAt now = false

/-- A live key of the first engine is not stored in the second. -/
def Evicts (now : Instant) (before after : DashMapEngine) : Prop :=
  ∃ k w, before.live now k = some w ∧ after.map.lookup k = none

/-- What SET would do if expired entries did not count: it does the same after a
sweep, it succeeds, and it evicts only where the other live keys fill the store. -/
structure IgnoresExpired (iter : Iter) (now : Instant) (e : DashMapEngine) (key : Key) (v : ValueEntry) :
    Prop where
  same : (e.set iter now key v).1 = ((e.sweepExpired now).set iter now key v).1
  stored : (e.set iter now key v).1 = .ok ()
  storedSwept : ((e.sweepExpired now).set iter now key v).1 = .ok ()
  needed : Evicts now e (e.set iter now key v).2 → e.maxKeys ≤ liveOthers now e key
  neededSwept : Evicts now (e.sweepExpired now) ((e.sweepExpired now).set iter now key v).2 →
    e.maxKeys ≤ liveOthers now (e.sweepExpired now) key

section Expired

variable {iter : Iter} {now : Instant} {e : DashMapEngine} {key : Key}

theorem not_evicts_insert (v : ValueEntry) : ¬ Evicts now e (e.insert key v) := by
  rintro ⟨k, w, live, gone⟩
  by_cases same : k = key
  · subst same
    rw [DashMapEngine.insert, Finmap.lookup_insert] at gone
    cases gone
  · rw [DashMapEngine.insert, Finmap.lookup_insert_of_ne _ same, (live_eq_some.1 live).1] at gone
    cases gone

theorem evicts_exchange {k : Key} {w : ValueEntry} (live : e.live now k = some w) (other : k ≠ key)
    (v : ValueEntry) : Evicts now e ((e.remove k).insert key v) := by
  refine ⟨k, w, live, ?_⟩
  rw [DashMapEngine.insert, Finmap.lookup_insert_of_ne _ other]
  exact Finmap.lookup_erase _ _

theorem len_sweepExpired_lt {k : Key} {w : ValueEntry} (held : e.map.lookup k = some w)
    (expired : w.isExpiredAt now = true) : (e.sweepExpired now).len < e.len := by
  refine Nat.lt_of_le_of_ne (len_sweepExpired_le now e) fun same => ?_
  have all : (e.map.entries.countP fun entry => !entry.2.isExpiredAt now) = e.map.entries.card := by
    rw [Multiset.countP_eq_card_filter]
    exact same
  have live := Multiset.countP_eq_card.1 all ⟨k, w⟩ ((mem_entries_iff _ _ _).2 held)
  rw [expired] at live
  cases live

/-- A sweep leaves room where there was room. -/
theorem sweepExpired_room (within : e.len ≤ e.maxKeys)
    (room : (e.map.lookup key).isSome = true ∨ e.len < e.maxKeys) :
    ((e.sweepExpired now).map.lookup key).isSome = true ∨ (e.sweepExpired now).len < e.maxKeys := by
  rcases room with held | below
  · obtain ⟨w, found⟩ := Option.isSome_iff_exists.1 held
    cases expired : w.isExpiredAt now with
    | true =>
        have fewer := len_sweepExpired_lt found expired
        exact .inr (by omega)
    | false =>
        refine .inl ?_
        rw [DashMapEngine.sweepExpired, lookup_retain, found, Option.filter_some, expired]
        rfl
  · have fewer := len_sweepExpired_le now e
    exact .inr (by omega)

theorem sweepExpired_fresh (fresh : ∀ k w, e.map.lookup k = some w → w.isExpiredAt now = false) :
    e.sweepExpired now = e := by
  refine DashMapEngine.ext_lookup rfl ?_
  intro k
  rw [DashMapEngine.sweepExpired, lookup_retain]
  cases found : e.map.lookup k with
  | none => rfl
  | some w =>
      rw [Option.filter_some, fresh k w found]
      rfl

theorem liveOthers_fresh (fresh : ∀ k w, e.map.lookup k = some w → w.isExpiredAt now = false)
    (missing : e.map.lookup key = none) : liveOthers now e key = e.len := by
  refine Multiset.countP_eq_card.2 fun entry inside => ?_
  have held := (mem_entries_iff e.map entry.1 entry.2).1 inside
  refine ⟨?_, fresh _ _ held⟩
  intro same
  rw [same, missing] at held
  cases held

theorem liveOthers_lt {k : Key} {w : ValueEntry} (held : e.map.lookup k = some w)
    (expired : w.isExpiredAt now = true) : liveOthers now e key < e.len := by
  refine Nat.lt_of_le_of_ne (Multiset.countP_le_card _ _) fun all => ?_
  have live := (Multiset.countP_eq_card.1 all ⟨k, w⟩ ((mem_entries_iff _ _ _).2 held)).2
  rw [expired] at live
  cases live

/-- SET passes over expired entries exactly when the key is stored, or there is
room left, or nothing stored has expired. -/
theorem set_ignoresExpired_iff (iter : Iter) (now : Instant) (e : DashMapEngine) (key : Key) (v : ValueEntry)
    (limited : 0 < e.maxKeys) (within : e.len ≤ e.maxKeys) :
    IgnoresExpired iter now e key v ↔
      (e.map.lookup key).isSome = true ∨ e.len < e.maxKeys ∨
        ∀ k w, e.map.lookup k = some w → w.isExpiredAt now = false := by
  constructor
  · intro ignores
    by_contra against
    simp only [not_or] at against
    obtain ⟨absent, full, someExpired⟩ := against
    push Not at someExpired
    obtain ⟨k₀, w₀, held, expired⟩ := someExpired
    have fewer : liveOthers now e key < e.len := liveOthers_lt held (by simpa using expired)
    rcases set_cases iter now limited within key v with
      ⟨room, -⟩ | ⟨-, atLimit, ⟨k, w, live, other, evicted⟩ | ⟨-, refused⟩⟩
    · exact room.elim absent full
    · -- a live key goes although a dead one could
      have many := ignores.needed (by rw [evicted]; exact evicts_exchange live other v)
      omega
    · have stored := ignores.stored
      rw [refused] at stored
      cases stored
  · intro condition
    by_cases room : (e.map.lookup key).isSome = true ∨ e.len < e.maxKeys
    · have here : e.set iter now key v = (.ok (), e.insert key v) := set_room (.inr room) v
      have there : (e.sweepExpired now).set iter now key v = (.ok (), (e.sweepExpired now).insert key v) :=
        set_room (.inr (sweepExpired_room within room)) v
      constructor
      · rw [here, there]
      · rw [here]
      · rw [there]
      · rw [here]
        exact fun evicts => absurd evicts (not_evicts_insert v)
      · rw [there]
        exact fun evicts => absurd evicts (not_evicts_insert v)
    · obtain ⟨absent, full⟩ := not_or.1 room
      have fresh := (condition.resolve_left absent).resolve_left full
      have missing : e.map.lookup key = none := by simpa using absent
      have swept := sweepExpired_fresh fresh
      have many : e.maxKeys ≤ liveOthers now e key := by
        rw [liveOthers_fresh fresh missing]
        omega
      have stored : (e.set iter now key v).1 = .ok () := by
        rcases set_cases iter now limited within key v with
          ⟨here, -⟩ | ⟨-, atLimit, ⟨k, w, -, -, evicted⟩ | ⟨dead, -⟩⟩
        · exact absurd here room
        · rw [evicted]
        · -- a store that is fresh and all expired is empty
          obtain ⟨entry, inside⟩ := Multiset.card_pos_iff_exists_mem.1 (atLimit ▸ limited : 0 < e.len)
          have held := (mem_entries_iff e.map entry.1 entry.2).1 inside
          have alive := fresh _ _ held
          rw [dead _ _ held] at alive
          cases alive
      constructor
      · rw [swept]
      · exact stored
      · rw [swept]
        exact stored
      · exact fun _ => many
      · rw [swept]
        exact fun _ => many

end Expired

theorem set_ignoresExpired_overwrite :
    0 < deadEntry.maxKeys ∧ deadEntry.len ≤ deadEntry.maxKeys ∧
      IgnoresExpired Iter.some 5 deadEntry (ascii "a") (ValueEntry.new 5 (ascii "2")) := by
  have within : deadEntry.len ≤ deadEntry.maxKeys := Nat.le_of_eq deadEntry_len
  have held : (deadEntry.map.lookup (ascii "a")).isSome = true := by
    rw [deadEntry, DashMapEngine.insert, Finmap.lookup_insert]
    rfl
  exact ⟨by decide, within,
    (set_ignoresExpired_iff Iter.some 5 deadEntry (ascii "a") _ (by decide) within).2 (.inl held)⟩

/-- With room for one key and a dead entry in it, a SET of another key is refused;
after a sweep it is not. -/
theorem set_counts_expired :
    0 < deadEntry.maxKeys ∧ deadEntry.len ≤ deadEntry.maxKeys ∧
      (deadEntry.set Iter.some 5 (ascii "b") (ValueEntry.new 5 (ascii "2"))).1 = .error .outOfMemory ∧
      ((deadEntry.sweepExpired 5).set Iter.some 5 (ascii "b") (ValueEntry.new 5 (ascii "2"))).1 = .ok () ∧
      ¬ IgnoresExpired Iter.some 5 deadEntry (ascii "b") (ValueEntry.new 5 (ascii "2")) := by
  have refused := deadEntry_refuses Iter.some (ValueEntry.new 5 (ascii "2"))
  have held : deadEntry.map.lookup (ascii "a") = some ⟨ascii "1", some 1, some 0⟩ := Finmap.lookup_insert _
  have swept : (deadEntry.sweepExpired 5).len < 1 := by
    have expired : (⟨ascii "1", some 1, some 0⟩ : ValueEntry).isExpiredAt 5 = true := rfl
    have fewer := len_sweepExpired_lt held expired
    rwa [deadEntry_len] at fewer
  refine ⟨by decide, Nat.le_of_eq deadEntry_len, by rw [refused], ?_, fun ignores => ?_⟩
  · rw [set_room (.inr (.inr swept))]
  · have stored := ignores.stored
    rw [refused] at stored
    cases stored

end ZetDb.Storage
