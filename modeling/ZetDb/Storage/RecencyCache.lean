/-
# Storage.RecencyCache -- a small limit makes the engine a cache

At the limit a write of a new key takes the place of the oldest among the first five
live entries of the iteration.  Up to a limit of five the sample is the whole store, so
it is the oldest entry that goes, whatever the iteration order: the engine holds the
keys that were written last, and the iteration cannot be seen.

`engine_is_cache` says so against `Theory.Recency`: over every sequence of calls at
different times that give no key a lifetime and count up stored keys only, the results
are those of a list with the key that was set last in front, cut to the limit.  A SET of
a key renews it; INCR changes the value in place and leaves the age alone, so a counter
that is busy all the time is forgotten like any other key.  INCR of a key that is not
stored is left out: under a limit it never returns (`Storage.ShardLocks`).

`sixth_key_displaced`: from six on the iteration order can keep the oldest key and
take another one.
-/
import ZetDb.Storage.Eviction
import ZetDb.Storage.Expiry
import ZetDb.Storage.ShardLocks
import ZetDb.Theory.Recency

namespace ZetDb.Storage

set_option autoImplicit false

open ZetDb.Theory.Wire ZetDb.Theory.Text ZetDb.Theory.Recency ZetDb.Theory.Simulation ZetDb.Domain
open ZetDb.Theory.Runs (Along)

/-! ## The reference -/

abbrev Cache := Recency Key Bytes

def cacheIncr (m : Nat) (l : Cache) (key : Key) : Except EngineError Int × Cache :=
  match l.lookup key with
  | none => (.ok 1, write m l key (ascii "1"))
  | some data =>
      match parseSigned 64 (fromUtf8Lossy data) with
      | none => (.error (.notAnInteger key), l)
      | some n =>
          let next := Int.bmod (n + 1) (2 ^ 64)
          (.ok next, l.replace key (decimalInt next))

/-- A call on the cache; nothing in it expires. -/
def cacheStep (m : Nat) (l : Cache) (c : Call) : Outcome × Cache :=
  match c.op with
  | .set key value => (.written (.ok ()), write m l key value.data)
  | .get key => (.found (.ok ((l.lookup key).map fun data => (data, none))), l)
  | .del key => (.deleted (.ok (l.lookup key).isSome), l.erase key)
  | .incr key => (.counted (cacheIncr m l key).1, (cacheIncr m l key).2)
  | .exists key => (.flag (l.lookup key).isSome, l)
  | .ttlSecs key => (.seconds (if (l.lookup key).isSome then -1 else -2), l)
  | .expire _ _ => (.flag false, l)
  | .clear => (.done, ∅)
  | .keys => (.keys { key | key ∈ l }, l)
  | .mget names => (.items (names.map fun key => (l.lookup key).map fun data => (data, none)), l)
  | .sweepExpired => (.done, l)

/-- The call gives no key a lifetime (SET stores a fresh value, EXPIRE finds nothing),
and INCR finds its key. -/
def Plain (l : Cache) (c : Call) : Prop :=
  match c.op with
  | .set _ value => value = ValueEntry.new c.now value.data
  | .incr key => (l.lookup key).isSome = true
  | .expire key _ => l.lookup key = none
  | _ => True

/-! ## What the engine holds -/

/-- When the entry was made; an unknown time is below every known one. -/
def made (e : DashMapEngine) (key : Key) : WithBot Instant :=
  createdTime ((e.map.lookup key).bind (·.createdAt))

/-- The engine holds what the list says, for ever, and the list is by age. -/
structure Caches (m : Nat) (now : WithBot Instant) (e : DashMapEngine) (l : Cache) : Prop where
  limit : e.maxKeys = m
  holds : ∀ key, (e.map.lookup key).map itemOf = (l.lookup key).map fun data => (data, none)
  order : l.keys.Pairwise fun young old => made e old < made e young
  past : ∀ key ∈ l, made e key ≤ now
  room : l.keys.length ≤ m

section Caches

variable {m : Nat} {now : WithBot Instant} {e : DashMapEngine} {l : Cache} {key : Key}

/-- A key is in neither, or in both with the same value and no lifetime. -/
theorem Caches.view (caches : Caches m now e l) (key : Key) :
    (e.map.lookup key = none ∧ l.lookup key = none) ∨
      ∃ v, e.map.lookup key = some v ∧ v.expiresAt = none ∧ l.lookup key = some v.data := by
  have holds := caches.holds key
  cases found : e.map.lookup key with
  | none =>
      rw [found] at holds
      exact .inl ⟨rfl, Option.map_eq_none_iff.1 holds.symm⟩
  | some v =>
      rw [found] at holds
      obtain ⟨data, held, same⟩ := Option.map_eq_some_iff.1 holds.symm
      obtain ⟨sameData, never⟩ := Prod.mk.inj same
      exact .inr ⟨v, rfl, never.symm, held.trans (congrArg some sameData)⟩

theorem Caches.held_iff (caches : Caches m now e l) (key : Key) : (e.map.lookup key).isSome = true ↔ key ∈ l := by
  rw [← AList.lookup_isSome]
  obtain ⟨found, held⟩ | ⟨v, found, -, held⟩ := caches.view key
  · rw [found, held]
    exact Iff.rfl
  · rw [found, held]
    exact iff_of_true rfl rfl

theorem Caches.missing (caches : Caches m now e l) (new : key ∉ l) : e.map.lookup key = none := by
  rw [← caches.held_iff] at new
  exact Option.not_isSome_iff_eq_none.1 new

theorem Caches.len (caches : Caches m now e l) : e.len = l.keys.length := by
  have same : e.map.keys = l.keys.toFinset := by
    apply Finset.ext
    intro key
    rw [mem_keys_iff, caches.held_iff, List.mem_toFinset]
    exact AList.mem_keys
  rw [len_eq_card, same, List.toFinset_card_of_nodup l.keys_nodup]

/-- Nothing expires. -/
theorem Caches.fresh (caches : Caches m now e l) {v : ValueEntry} (found : e.map.lookup key = some v)
    (t : Instant) : v.isExpiredAt t = false := by
  obtain ⟨missing, -⟩ | ⟨w, held, never, -⟩ := caches.view key
  · rw [found] at missing
    cases missing
  · rw [found] at held
    cases held
    exact ValueEntry.isExpiredAt_of_none never t

theorem Caches.later (caches : Caches m now e l) {t : WithBot Instant} (forward : now ≤ t) : Caches m t e l :=
  { caches with past := fun key inside => (caches.past key inside).trans forward }

theorem made_insert_self (v : ValueEntry) : made (e.insert key v) key = createdTime v.createdAt := by
  rw [made, DashMapEngine.insert, Finmap.lookup_insert]
  rfl

theorem made_insert_ne (v : ValueEntry) {other : Key} (apart : other ≠ key) :
    made (e.insert key v) other = made e other := by
  rw [made, DashMapEngine.insert, Finmap.lookup_insert_of_ne _ apart]
  rfl

theorem made_remove_ne {other : Key} (apart : other ≠ key) : made (e.remove key) other = made e other := by
  rw [made, DashMapEngine.remove, Finmap.lookup_erase_ne apart]
  rfl

/-- A new binding is the youngest. -/
theorem Caches.insert (caches : Caches m now e l) {t : Instant} (later : now < t) (data : Bytes)
    (room : key ∈ l ∨ l.keys.length < m) :
    Caches m t (e.insert key (ValueEntry.new t data)) (l.insert key data) where
  limit := caches.limit
  holds := by
    intro other
    by_cases same : other = key
    · rw [same, DashMapEngine.insert, Finmap.lookup_insert, AList.lookup_insert]
      rfl
    · rw [DashMapEngine.insert, Finmap.lookup_insert_of_ne _ same, AList.lookup_insert_ne same]
      exact caches.holds other
  order := by
    rw [keys_insert_erase, List.pairwise_cons]
    have others : ∀ other ∈ (l.erase key).keys, other ≠ key ∧ other ∈ l := fun other inside =>
      AList.mem_erase.1 (AList.mem_keys.2 inside)
    refine ⟨?_, ?_⟩
    · intro other inside
      obtain ⟨apart, held⟩ := others other inside
      rw [made_insert_ne _ apart, made_insert_self]
      exact lt_of_le_of_lt (caches.past other held) later
    · apply (caches.order.sublist (keys_erase_sublist l key)).imp_of_mem
      intro young old insideYoung insideOld before
      rw [made_insert_ne _ (others young insideYoung).1, made_insert_ne _ (others old insideOld).1]
      exact before
  past := by
    intro other inside
    by_cases same : other = key
    · rw [same, made_insert_self]
      exact le_rfl
    · rw [made_insert_ne _ same]
      obtain impossible | held := (AList.mem_insert l).1 inside
      · exact absurd impossible same
      · exact (caches.past other held).trans later.le
  room := by
    by_cases held : key ∈ l
    · rw [length_insert_of_mem held]
      exact caches.room
    · rw [length_insert_of_notMem held]
      rcases room with inside | below
      · exact absurd inside held
      · exact below

theorem Caches.remove (caches : Caches m now e l) (key : Key) : Caches m now (e.remove key) (l.erase key) where
  limit := caches.limit
  holds := by
    intro other
    by_cases same : other = key
    · rw [same, DashMapEngine.remove, Finmap.lookup_erase, AList.lookup_erase]
      rfl
    · rw [DashMapEngine.remove, Finmap.lookup_erase_ne same, AList.lookup_erase_ne same]
      exact caches.holds other
  order := by
    apply (caches.order.sublist (keys_erase_sublist l key)).imp_of_mem
    intro young old insideYoung insideOld before
    rw [made_remove_ne (AList.mem_erase.1 (AList.mem_keys.2 insideYoung)).1,
      made_remove_ne (AList.mem_erase.1 (AList.mem_keys.2 insideOld)).1]
    exact before
  past := by
    intro other inside
    obtain ⟨apart, held⟩ := AList.mem_erase.1 inside
    rw [made_remove_ne apart]
    exact caches.past other held
  room := (keys_erase_sublist l key).length_le.trans caches.room

/-- A change in place leaves the age alone. -/
theorem Caches.replace (caches : Caches m now e l) {v : ValueEntry} (found : e.map.lookup key = some v)
    (never : v.expiresAt = none) (data : Bytes) :
    Caches m now (e.insert key { v with data := data }) (l.replace key data) := by
  have ages : ∀ other, made (e.insert key { v with data := data }) other = made e other := by
    intro other
    by_cases same : other = key
    · rw [same, made_insert_self, made, found]
      rfl
    · exact made_insert_ne _ same
  have held : key ∈ l := (caches.held_iff key).1 (by rw [found]; rfl)
  refine ⟨caches.limit, ?_, ?_, ?_, ?_⟩
  · intro other
    by_cases same : other = key
    · obtain ⟨b, bound⟩ := Option.isSome_iff_exists.1 (AList.lookup_isSome.2 held)
      rw [same, DashMapEngine.insert, Finmap.lookup_insert, lookup_replace, if_pos rfl, bound]
      show some (data, v.expiresAt) = some (data, none)
      rw [never]
    · rw [DashMapEngine.insert, Finmap.lookup_insert_of_ne _ same, lookup_replace, if_neg same]
      exact caches.holds other
  · rw [AList.keys_replace]
    apply caches.order.imp
    intro young old before
    rw [ages, ages]
    exact before
  · intro other inside
    rw [ages]
    exact caches.past other (AList.mem_replace.1 inside)
  · rw [AList.keys_replace]
    exact caches.room

/-! ## The eviction -/

theorem iter_length (iter : Iter) (e : DashMapEngine) : (iter.list e.map).length = e.len := by
  rw [DashMapEngine.len, ← iter.lists, Multiset.coe_card]

/-- Up to five entries the sample is the whole store. -/
theorem Caches.sampled (caches : Caches m now e l) (few : m ≤ 5) (iter : Iter) (t : Instant) {v : ValueEntry}
    (found : e.map.lookup key = some v) : (⟨key, v⟩ : Entry) ∈ sample iter t e := by
  have short : ((iter.list e.map).filter fun entry => !entry.2.isExpiredAt t).length ≤ 5 := by
    apply (List.length_filter_le _ _).trans
    rw [iter_length, caches.len]
    exact caches.room.trans few
  rw [sample, List.take_of_length_le short]
  apply List.mem_filter.2
  refine ⟨(mem_iter_list iter e ⟨key, v⟩).2 found, ?_⟩
  rw [caches.fresh found t]
  rfl

/-- The eviction takes the last key of the list, whatever the iteration order. -/
theorem Caches.evicts (caches : Caches m now e l) (positive : 0 < m) (few : m ≤ 5) (iter : Iter) (t : Instant)
    {front : List Key} {oldest : Key} (order : l.keys = front ++ [oldest]) (full : l.keys.length = m) :
    e.evictOneIfNeeded iter t = e.remove oldest := by
  have last : oldest ∈ l := by
    rw [AList.mem_keys, order]
    exact List.mem_append_right _ List.mem_cons_self
  obtain ⟨v, found⟩ := Option.isSome_iff_exists.1 ((caches.held_iff oldest).2 last)
  obtain ⟨chosen, sampled, least, evicted⟩ := evict_oldest iter t (by rw [caches.limit]; exact positive)
    (by rw [caches.limit, caches.len, full]) ⟨oldest, v, live_eq_some.2 ⟨found, caches.fresh found t⟩⟩
  have held : e.map.lookup chosen.1 = some chosen.2 := (live_eq_some.1 (mem_sample sampled)).1
  have inside : chosen.1 ∈ front ++ [oldest] := by
    rw [← order, ← AList.mem_keys, ← caches.held_iff, held]
    rfl
  have same : chosen.1 = oldest := by
    rcases List.mem_append.1 inside with younger | here
    · -- a younger key than the last one is not least
      have pairs := caches.order
      rw [order, List.pairwise_append] at pairs
      have before := pairs.2.2 chosen.1 younger oldest List.mem_cons_self
      rw [made, made, found, held] at before
      exact absurd before (least ⟨oldest, v⟩ (caches.sampled few iter t found))
    · exact List.mem_singleton.1 here
  rw [evicted, same]

/-- SET succeeds, and the list says what is kept. -/
theorem Caches.set (caches : Caches m now e l) (positive : 0 < m) (few : m ≤ 5) (iter : Iter) {t : Instant}
    (later : now < t) (key : Key) (data : Bytes) :
    ∃ e', e.set iter t key (ValueEntry.new t data) = (.ok (), e') ∧ Caches m t e' (write m l key data) := by
  by_cases room : key ∈ l ∨ l.keys.length < m
  · refine ⟨e.insert key (ValueEntry.new t data), ?_, ?_⟩
    · apply set_room
      rw [caches.held_iff, caches.len, caches.limit]
      exact .inr room
    · rw [write_room caches.room room]
      exact caches.insert later data room
  · obtain ⟨new, many⟩ := not_or.1 room
    have full : l.keys.length = m := by
      have := caches.room
      omega
    obtain ⟨front, oldest, order⟩ : ∃ front oldest, l.keys = front ++ [oldest] := by
      refine ⟨l.keys.dropLast, l.keys.getLast ?_, (List.dropLast_concat_getLast _).symm⟩
      intro empty
      rw [empty] at full
      exact absurd full positive.ne
    have evicted := caches.evicts positive few iter t order full
    have shorter : (l.erase oldest).keys.length + 1 = m := by
      rw [← full]
      apply length_erase_of_mem
      rw [AList.mem_keys, order]
      exact List.mem_append_right _ List.mem_cons_self
    have smaller := caches.remove oldest
    refine ⟨(e.remove oldest).insert key (ValueEntry.new t data), ?_, ?_⟩
    · rw [DashMapEngine.set, if_pos ⟨by rw [caches.limit]; exact positive, by rw [caches.missing new]; rfl⟩, evicted]
      apply if_neg
      rw [smaller.len, smaller.limit]
      omega
    · rw [← full, write_full order new, full]
      exact smaller.insert later data (.inr (by omega))

/-! ## One lemma for each call -/

/-- The same outcome, and the list still says what is held. -/
def Agrees (m : Nat) (t : Instant) (engine : Outcome × DashMapEngine) (cache : Outcome × Cache) : Prop :=
  engine.1 = cache.1 ∧ Caches m t engine.2 cache.2

variable (caches : Caches m now e l) {t : Instant} (later : now < t) (iter : Iter)
include caches later

theorem set_agrees (positive : 0 < m) (few : m ≤ 5) (key : Key) (data : Bytes) :
    Agrees m t (engineStep e ⟨iter, t, .set key (.new t data)⟩) (cacheStep m l ⟨iter, t, .set key (.new t data)⟩) := by
  obtain ⟨e', stored, next⟩ := caches.set positive few iter later key data
  simp only [engineStep, cacheStep, stored]
  exact ⟨rfl, next⟩

theorem get_agrees (key : Key) :
    Agrees m t (engineStep e ⟨iter, t, .get key⟩) (cacheStep m l ⟨iter, t, .get key⟩) := by
  have stays := caches.later later.le
  obtain ⟨found, held⟩ | ⟨v, found, never, held⟩ := caches.view key
  · simp only [engineStep, cacheStep, DashMapEngine.get, found, held]
    exact ⟨rfl, stays⟩
  · simp only [engineStep, cacheStep, DashMapEngine.get, found, held, caches.fresh found t]
    refine ⟨?_, stays⟩
    show Outcome.found (.ok (some (v.data, v.expiresAt))) = _
    rw [never]
    rfl

theorem del_agrees (key : Key) :
    Agrees m t (engineStep e ⟨iter, t, .del key⟩) (cacheStep m l ⟨iter, t, .del key⟩) := by
  obtain ⟨found, held⟩ | ⟨v, found, -, held⟩ := caches.view key
  · have same : l.erase key = l :=
      AList.ext (List.kerase_of_notMem_keys fun inside => AList.lookup_eq_none.1 held (AList.mem_keys.2 inside))
    simp only [engineStep, cacheStep, DashMapEngine.del, found, held, same]
    exact ⟨rfl, caches.later later.le⟩
  · simp only [engineStep, cacheStep, DashMapEngine.del, found, held, caches.fresh found t]
    exact ⟨rfl, (caches.remove key).later later.le⟩

theorem incr_agrees {key : Key} (plain : Plain l ⟨iter, t, .incr key⟩) :
    Agrees m t (engineStep e ⟨iter, t, .incr key⟩) (cacheStep m l ⟨iter, t, .incr key⟩) := by
  have stays := caches.later later.le
  obtain ⟨-, missing⟩ | ⟨v, found, never, held⟩ := caches.view key
  · have stored : (l.lookup key).isSome = true := plain
    rw [missing] at stored
    cases stored
  · simp only [engineStep, cacheStep, cacheIncr, DashMapEngine.incr, found, held, caches.fresh found t]
    cases parseSigned 64 (fromUtf8Lossy v.data) with
    | none => exact ⟨rfl, stays⟩
    | some n => exact ⟨rfl, stays.replace found never _⟩

omit later in
/-- A counter that is stored does not wait for itself. -/
theorem plain_incr_free {S : Type} [DecidableEq S] (d : Sharding S) {key : Key} (plain : Plain l ⟨iter, t, .incr key⟩) :
    ¬ BlocksOnItself d (.incr iter t key) e := by
  have held : key ∈ l := AList.lookup_isSome.1 plain
  exact (incr_free_iff d iter t key e).2 (.inr ((caches.held_iff key).2 held))

theorem exists_agrees (key : Key) :
    Agrees m t (engineStep e ⟨iter, t, .exists key⟩) (cacheStep m l ⟨iter, t, .exists key⟩) := by
  have stays := caches.later later.le
  obtain ⟨found, held⟩ | ⟨v, found, -, held⟩ := caches.view key
  · simp only [engineStep, cacheStep, DashMapEngine.exists?, found, held]
    exact ⟨rfl, stays⟩
  · simp only [engineStep, cacheStep, DashMapEngine.exists?, found, held, caches.fresh found t]
    exact ⟨rfl, stays⟩

theorem ttlSecs_agrees (key : Key) :
    Agrees m t (engineStep e ⟨iter, t, .ttlSecs key⟩) (cacheStep m l ⟨iter, t, .ttlSecs key⟩) := by
  have stays := caches.later later.le
  obtain ⟨found, held⟩ | ⟨v, found, never, held⟩ := caches.view key
  · simp only [engineStep, cacheStep, DashMapEngine.ttlSecs, found, held]
    exact ⟨rfl, stays⟩
  · simp only [engineStep, cacheStep, DashMapEngine.ttlSecs, found, held, caches.fresh found t, never]
    exact ⟨rfl, stays⟩

theorem keys_agrees : Agrees m t (engineStep e ⟨iter, t, .keys⟩) (cacheStep m l ⟨iter, t, .keys⟩) := by
  refine ⟨congrArg Outcome.keys (Set.ext fun key => ?_), caches.later later.le⟩
  rw [Set.mem_ofPred_eq, Set.mem_ofPred_eq, ← caches.held_iff, DashMapEngine.keys, List.mem_map]
  constructor
  · rintro ⟨⟨other, v⟩, kept, rfl⟩
    have listed := (mem_iter_list iter e ⟨other, v⟩).1 (List.mem_filter.1 kept).1
    rw [listed]
    rfl
  · intro held
    obtain ⟨v, found⟩ := Option.isSome_iff_exists.1 held
    refine ⟨⟨key, v⟩, List.mem_filter.2 ⟨(mem_iter_list iter e ⟨key, v⟩).2 found, ?_⟩, rfl⟩
    rw [caches.fresh found t]
    rfl

theorem mget_agrees (names : List Key) :
    Agrees m t (engineStep e ⟨iter, t, .mget names⟩) (cacheStep m l ⟨iter, t, .mget names⟩) := by
  refine ⟨congrArg Outcome.items ?_, caches.later later.le⟩
  rw [DashMapEngine.mget, List.map_map]
  refine List.map_congr_left fun key _ => ?_
  obtain ⟨found, held⟩ | ⟨v, found, never, held⟩ := caches.view key
  · simp [found, held]
  · simp [found, held, caches.fresh found t, itemOf, never]

theorem sweepExpired_agrees :
    Agrees m t (engineStep e ⟨iter, t, .sweepExpired⟩) (cacheStep m l ⟨iter, t, .sweepExpired⟩) := by
  have same : e.sweepExpired t = e := sweepExpired_fresh fun k w found => caches.fresh found t
  refine ⟨rfl, ?_⟩
  show Caches m t (e.sweepExpired t) l
  rw [same]
  exact caches.later later.le

end Caches

/-- One call, whatever it is. -/
theorem call_agrees {m : Nat} (positive : 0 < m) (few : m ≤ 5) {now : WithBot Instant} {e : DashMapEngine}
    {l : Cache} {c : Call} (caches : Caches m now e l) (later : now < c.now) (plain : Plain l c) :
    Agrees m c.now (engineStep e c) (cacheStep m l c) := by
  obtain ⟨iter, t, op⟩ := c
  cases op with
  | set key value =>
      have fresh : value = ValueEntry.new t value.data := plain
      rw [fresh]
      exact set_agrees caches later iter positive few key value.data
  | get key => exact get_agrees caches later iter key
  | del key => exact del_agrees caches later iter key
  | incr key => exact incr_agrees caches later iter plain
  | «exists» key => exact exists_agrees caches later iter key
  | ttlSecs key => exact ttlSecs_agrees caches later iter key
  | expire key seconds =>
      have missing : e.map.lookup key = none := caches.missing (AList.lookup_eq_none.1 plain)
      have nothing : e.expire t key seconds = (false, e) := by
        simp only [DashMapEngine.expire, missing]
      refine ⟨?_, ?_⟩
      · exact congrArg (fun result => Outcome.flag result.1) nothing
      · show Caches m t (e.expire t key seconds).2 l
        rw [nothing]
        exact caches.later later.le
  | clear =>
      refine ⟨rfl, caches.limit, fun _ => rfl, .nil, ?_, Nat.zero_le m⟩
      intro key inside
      exact absurd inside (AList.notMem_empty key)
  | keys => exact keys_agrees caches later iter
  | mget names => exact mget_agrees caches later iter names
  | sweepExpired => exact sweepExpired_agrees caches later iter

theorem engine_simulates_cache {m : Nat} (positive : 0 < m) (few : m ≤ 5) :
    StrictSimulation (fun c : Call => (c.now : WithBot Instant)) engineStep (cacheStep m) Plain (Caches m) :=
  ⟨call_agrees positive few⟩

/-- Up to a limit of five the engine is a cache of the keys that were set last. -/
theorem engine_is_cache (m : Nat) (positive : 0 < m) (few : m ≤ 5) (calls : List Call)
    (ordered : calls.Pairwise fun a b => a.now < b.now) (plain : Along (moves (cacheStep m)) Plain ∅ calls) :
    outputs engineStep (.withMaxKeys m) calls = outputs (cacheStep m) ∅ calls := by
  have start : Caches m ⊥ (.withMaxKeys m) ∅ := by
    refine ⟨rfl, fun _ => rfl, .nil, ?_, Nat.zero_le m⟩
    intro key inside
    exact absurd inside (AList.notMem_empty key)
  apply (engine_simulates_cache positive few).outputs_eq start
  · intro c _
    exact WithBot.bot_lt_coe c.now
  · exact ordered.imp WithBot.coe_lt_coe.2
  · exact plain

/-- Three keys in a cache of two; the counter was set first, and goes first. -/
noncomputable def busyCounter : List Call :=
  [⟨.some, 0, .set (ascii "n") (.new 0 (ascii "1"))⟩, ⟨.some, 1, .set (ascii "a") (.new 1 (ascii "x"))⟩,
    ⟨.some, 2, .incr (ascii "n")⟩, ⟨.some, 3, .set (ascii "b") (.new 3 (ascii "y"))⟩,
    ⟨.some, 4, .get (ascii "n")⟩, ⟨.some, 5, .get (ascii "a")⟩]

theorem cacheIncr_integer {m : Nat} {l : Cache} {key : Key} {data : Bytes} {n : Int}
    (held : l.lookup key = some data) (integer : parseSigned 64 (fromUtf8Lossy data) = some n) :
    cacheIncr m l key =
      (.ok (Int.bmod (n + 1) (2 ^ 64)), l.replace key (decimalInt (Int.bmod (n + 1) (2 ^ 64)))) := by
  simp only [cacheIncr, held, integer]

theorem engine_is_cache_counter :
    outputs engineStep (.withMaxKeys 2) busyCounter =
      [.written (.ok ()), .written (.ok ()), .counted (.ok 2), .written (.ok ()), .found (.ok none),
        .found (.ok (some (ascii "x", none)))] := by
  refine (engine_is_cache 2 (by decide) (by decide) busyCounter ?_ ?_).trans ?_
  · simp [busyCounter]
  · exact .cons rfl rfl (.cons rfl rfl (.cons rfl rfl (.cons rfl rfl (.cons rfl trivial (.cons rfl trivial trivial)))))
  · have one : parseSigned 64 (fromUtf8Lossy (ascii "1")) = some 1 := by rfl
    simp only [busyCounter, outputs, cacheStep]
    rw [cacheIncr_integer rfl one]
    rfl

/-! ## A larger limit -/

section Larger

variable {m : Nat} {now : WithBot Instant} {e : DashMapEngine} {l : Cache}

/-- The entries of the engine in the order of the list. -/
def byAge (e : DashMapEngine) (l : Cache) : List Entry :=
  l.keys.map fun key => ⟨key, (e.map.lookup key).getD (ValueEntry.newFast [])⟩

theorem byAge_keys (e : DashMapEngine) (l : Cache) : (byAge e l).map Sigma.fst = l.keys := by
  rw [byAge, List.map_map]
  exact List.map_id _

theorem mem_byAge (caches : Caches m now e l) (entry : Entry) :
    entry ∈ byAge e l ↔ e.map.lookup entry.1 = some entry.2 := by
  rw [byAge, List.mem_map]
  constructor
  · rintro ⟨key, inside, rfl⟩
    obtain ⟨v, found⟩ := Option.isSome_iff_exists.1 ((caches.held_iff key).2 (AList.mem_keys.2 inside))
    show e.map.lookup key = some ((e.map.lookup key).getD _)
    rw [found]
    rfl
  · intro found
    have held : entry.1 ∈ l := (caches.held_iff entry.1).1 (by rw [found]; rfl)
    exact ⟨entry.1, AList.mem_keys.1 held, by rw [found]; rfl⟩

/-- DashMap may list the youngest entries first. -/
theorem exists_byAge (caches : Caches m now e l) : ∃ iter : Iter, iter.list e.map = byAge e l := by
  have nodup : (byAge e l).Nodup := by
    apply List.Nodup.of_map Sigma.fst
    rw [byAge_keys]
    exact l.keys_nodup
  have whole : (byAge e l : Multiset Entry) = e.map.entries := by
    apply (Multiset.Nodup.ext (Multiset.coe_nodup.2 nodup) e.map.nodupKeys.nodup).2
    intro entry
    rw [Multiset.mem_coe, mem_byAge caches, ← Finmap.mem_lookup_iff, Option.mem_def]
  classical
  refine ⟨⟨fun s => if s = e.map then byAge e l else s.entries.toList, ?_⟩, if_pos rfl⟩
  intro s
  by_cases same : s = e.map
  · rw [if_pos same, whole, same]
  · rw [if_neg same, Multiset.coe_toList]

/-- From six on the limit does not say which key goes: the oldest may stay, and a
younger one make room. -/
theorem sixth_key_displaced (many : 5 < m) (caches : Caches m now e l) (full : l.keys.length = m)
    {front : List Key} {oldest : Key} (order : l.keys = front ++ [oldest]) {key : Key} (new : key ∉ l)
    (t : Instant) (v : ValueEntry) :
    ∃ iter, ∃ gone ∈ front, e.set iter t key v = (.ok (), (e.remove gone).insert key v) := by
  obtain ⟨iter, lists⟩ := exists_byAge caches
  have last : oldest ∈ l := by
    rw [AList.mem_keys, order]
    exact List.mem_append_right _ List.mem_cons_self
  obtain ⟨w, found⟩ := Option.isSome_iff_exists.1 ((caches.held_iff oldest).2 last)
  have limited : 0 < e.maxKeys := by
    rw [caches.limit]
    omega
  obtain ⟨chosen, sampled, -, evicted⟩ := evict_oldest iter t limited
    (by rw [caches.limit, caches.len, full]) ⟨oldest, w, live_eq_some.2 ⟨found, caches.fresh found t⟩⟩
  have held : e.map.lookup chosen.1 = some chosen.2 := (live_eq_some.1 (mem_sample sampled)).1
  -- the sample are the five youngest
  have young : chosen.1 ∈ front := by
    have every : (byAge e l).filter (fun entry => !entry.2.isExpiredAt t) = byAge e l := by
      apply List.filter_eq_self.2
      intro entry inside
      rw [caches.fresh ((mem_byAge caches entry).1 inside) t]
      rfl
    rw [sample, lists, every] at sampled
    have first : chosen.1 ∈ ((byAge e l).take 5).map Sigma.fst := List.mem_map_of_mem sampled
    rw [List.map_take, byAge_keys, order, List.take_append_of_le_length] at first
    · exact List.mem_of_mem_take first
    · rw [order, List.length_append, List.length_singleton] at full
      omega
  have smaller : (e.remove chosen.1).len + 1 = e.len := len_remove_held (by rw [held]; rfl)
  refine ⟨iter, chosen.1, young, ?_⟩
  rw [DashMapEngine.set, if_pos ⟨limited, by rw [caches.missing new]; rfl⟩, evicted]
  apply if_neg
  rw [DashMapEngine.remove_maxKeys, caches.limit]
  have count := caches.len
  omega

end Larger

end ZetDb.Storage
