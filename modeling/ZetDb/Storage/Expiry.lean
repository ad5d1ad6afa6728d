/-
# Storage.Expiry -- the engine is a map whose entries vanish at their expiry

The engine keeps expired entries until something removes them: some operations
evict lazily, some look away, a sweep clears the rest.  `engine_refines_reference`:
without a key limit none of this can be seen.  Over every sequence of operations at
times that do not go back, the results are those of `ExpiringMap`, in which an
entry is absent from its expiry on and which never evicts anything.

The relation of the simulation (`Tracks`) compares what is present at the current
time; both sides may hold any expired entries besides.
-/
import ZetDb.Storage.Engine
import ZetDb.Theory.Expiring
import ZetDb.Theory.Simulation

namespace ZetDb.Storage

set_option autoImplicit false

open ZetDb.Theory.Wire ZetDb.Theory.Text ZetDb.Theory.Expiring ZetDb.Theory.Simulation ZetDb.Domain
open ZetDb.Theory.Runs (Along)

/-! ## Calls and outcomes -/

inductive Op where
  | set (key : Key) (value : ValueEntry)
  | get (key : Key)
  | del (key : Key)
  | incr (key : Key)
  | exists (key : Key)
  | ttlSecs (key : Key)
  | expire (key : Key) (seconds : Nat)
  | clear
  | keys
  | mget (keys : List Key)
  | sweepExpired

/-- An operation, the clock it reads, and the order in which the map iterates then. -/
structure Call where
  iter : Iter
  now : Instant
  op : Op

/-- The data and the expiry of an entry. -/
abbrev Item := Bytes × Option Instant

/-- What a call returns; the creation time of an entry is not part of it. -/
inductive Outcome where
  | done
  | written (result : Except EngineError Unit)
  | found (result : Except EngineError (Option Item))
  | deleted (result : Except EngineError Bool)
  | counted (result : Except EngineError Int)
  | flag (b : Bool)
  | seconds (n : Int)
  | keys (names : Set Key)
  | items (found : List (Option Item))

def itemOf (v : ValueEntry) : Item := (v.data, v.expiresAt)

def engineStep (e : DashMapEngine) (c : Call) : Outcome × DashMapEngine :=
  match c.op with
  | .set key value => ((e.set c.iter c.now key value).1 |> .written, (e.set c.iter c.now key value).2)
  | .get key => (.found ((e.get c.now key).1.map (Option.map itemOf)), (e.get c.now key).2)
  | .del key => (.deleted (e.del c.now key).1, (e.del c.now key).2)
  | .incr key => (.counted (e.incr c.iter c.now key).1, (e.incr c.iter c.now key).2)
  | .exists key => (.flag (e.exists? c.now key).1, (e.exists? c.now key).2)
  | .ttlSecs key => (.seconds (e.ttlSecs c.now key).1, (e.ttlSecs c.now key).2)
  | .expire key seconds => (.flag (e.expire c.now key seconds).1, (e.expire c.now key seconds).2)
  | .clear => (.done, e.clear)
  | .keys => (.keys { key | key ∈ e.keys c.iter c.now }, e)
  | .mget names => (.items ((e.mget c.now names).map (Option.map itemOf)), e)
  | .sweepExpired => (.done, e.sweepExpired c.now)

/-! ## The reference -/

abbrev Reference := ExpiringMap Key Bytes Instant

def referenceTtl (now : Instant) : Option Item → Int
  | none => -2
  | some (_, none) => -1
  | some (_, some expiry) => (Duration.asSecs (expiry - now) : Nat)

def referenceIncr (now : Instant) (m : Reference) (key : Key) : Except EngineError Int × Reference :=
  match m.present now key with
  | none => (.ok 1, m.write key (some (ascii "1", none)))
  | some (data, expiry) =>
      match parseSigned 64 (fromUtf8Lossy data) with
      | none => (.error (.notAnInteger key), m)
      | some n => (.ok (n + 1), m.write key (some (decimalInt (n + 1), expiry)))

def referenceStep (m : Reference) (c : Call) : Outcome × Reference :=
  match c.op with
  | .set key value => (.written (.ok ()), m.write key (some (itemOf value)))
  | .get key => (.found (.ok (m.present c.now key)), m)
  | .del key => (.deleted (.ok (m.present c.now key).isSome), m.write key none)
  | .incr key => (.counted (referenceIncr c.now m key).1, (referenceIncr c.now m key).2)
  | .exists key => (.flag (m.present c.now key).isSome, m)
  | .ttlSecs key => (.seconds (referenceTtl c.now (m.present c.now key)), m)
  | .expire key seconds =>
      match m.present c.now key with
      | none => (.flag false, m)
      | some (data, _) => (.flag true, m.write key (some (data, some (c.now + Duration.fromSecs seconds))))
  | .clear => (.done, ExpiringMap.empty)
  | .keys => (.keys (m.keysAt c.now), m)
  | .mget names => (.items (names.map (m.present c.now)), m)
  | .sweepExpired => (.done, m)

/-- The seconds of an instant are a signed 64-bit number. -/
def clockLimit : Instant := Duration.fromSecs (2 ^ 63)

/-- The cases left out: an instant beyond the clock, and INCR on the largest integer. -/
def InRange (m : Reference) (c : Call) : Prop :=
  match c.op with
  | .set _ value => ∀ expiry, value.expiresAt = some expiry → expiry < clockLimit
  | .expire _ seconds => c.now + Duration.fromSecs seconds < clockLimit
  | .incr key => ∀ item, m.present c.now key = some item →
      parseSigned 64 (fromUtf8Lossy item.1) ≠ some (2 ^ 63 - 1)
  | _ => True

/-! ## What the engine holds -/

/-- All entries of the engine, expired or not. -/
def stored (e : DashMapEngine) : Reference := ⟨fun key => (e.map.lookup key).map itemOf⟩

theorem alive_itemOf (v : ValueEntry) (now : Instant) :
    alive now (itemOf v).2 = !v.isExpiredAt now := by
  unfold alive itemOf ValueEntry.isExpiredAt
  cases v.expiresAt with
  | none => rfl
  | some expiry =>
      simp only [← decide_not]
      exact decide_eq_decide.2 Nat.not_le.symm

theorem present_stored (e : DashMapEngine) (now : Instant) (key : Key) :
    (stored e).present now key =
      match e.map.lookup key with
      | none => none
      | some v => if v.isExpiredAt now then none else some (itemOf v) := by
  simp only [ExpiringMap.present, stored]
  cases e.map.lookup key with
  | none => rfl
  | some v =>
      show (if alive now (itemOf v).2 = true then some (itemOf v) else none) =
        if v.isExpiredAt now then none else some (itemOf v)
      rw [alive_itemOf]
      cases v.isExpiredAt now with
      | true => rfl
      | false => rfl

theorem stored_insert (e : DashMapEngine) (key : Key) (v : ValueEntry) :
    stored (e.insert key v) = (stored e).write key (some (itemOf v)) := by
  unfold stored ExpiringMap.write
  congr 1
  funext other
  by_cases same : other = key
  · subst same
    rw [Function.update_self, DashMapEngine.insert, Finmap.lookup_insert, Option.map_some]
  · rw [Function.update_of_ne same, DashMapEngine.insert, Finmap.lookup_insert_of_ne _ same]

theorem stored_remove (e : DashMapEngine) (key : Key) :
    stored (e.remove key) = (stored e).write key none := by
  unfold stored ExpiringMap.write
  congr 1
  funext other
  by_cases same : other = key
  · subst same
    rw [Function.update_self, DashMapEngine.remove, Finmap.lookup_erase, Option.map_none]
  · rw [Function.update_of_ne same, DashMapEngine.remove, Finmap.lookup_erase_ne same]

/-- Lazy eviction changes nothing that is present. -/
theorem present_removeIfExpired (e : DashMapEngine) (now : Instant) (key other : Key) :
    (stored (e.removeIfExpired now key)).present now other = (stored e).present now other := by
  rw [present_stored, present_stored, DashMapEngine.lookup_removeIfExpired]
  cases e.map.lookup other with
  | none => rfl
  | some v =>
      cases expired : v.isExpiredAt now with
      | true => by_cases same : other = key <;> simp [Option.filter_some, expired, same]
      | false => simp [Option.filter_some, expired]

theorem lookup_retain (m : Store) (keep : Entry → Bool) (key : Key) :
    (m.retain keep).lookup key = (m.lookup key).filter fun v => keep ⟨key, v⟩ := by
  refine Option.ext fun v => ?_
  rw [← Option.mem_def, Finmap.mem_lookup_iff, Option.filter_eq_some_iff, ← Option.mem_def,
    Finmap.mem_lookup_iff]
  simp [Store.retain, Multiset.mem_filter]

/-- A sweep changes nothing that is present. -/
theorem present_sweepExpired (e : DashMapEngine) (now : Instant) (other : Key) :
    (stored (e.sweepExpired now)).present now other = (stored e).present now other := by
  rw [present_stored, present_stored, DashMapEngine.sweepExpired, lookup_retain]
  cases e.map.lookup other with
  | none => rfl
  | some v =>
      rw [Option.filter_some]
      cases expired : v.isExpiredAt now with
      | true => simp [expired]
      | false => simp [expired]

/-! ## The simulation -/

/-- The engine and the reference agree on what is present now. -/
structure Tracks (now : Instant) (e : DashMapEngine) (m : Reference) : Prop where
  unlimited : e.maxKeys = 0
  same : ∀ key, (stored e).present now key = m.present now key
  bounded : ∀ key data expiry, m.present now key = some (data, some expiry) → expiry < clockLimit

theorem tracks_new : Tracks 0 DashMapEngine.new ExpiringMap.empty := by
  refine ⟨rfl, fun key => rfl, ?_⟩
  intro key data expiry held
  cases held

section Tracks

variable {now : Instant} {e : DashMapEngine} {m : Reference}

theorem Tracks.later {t : Instant} (forward : now ≤ t) (tracks : Tracks now e m) : Tracks t e m := by
  refine ⟨tracks.unlimited, ?_, ?_⟩
  · intro key
    rw [present_later _ forward, present_later _ forward, tracks.same]
  · intro key data expiry held
    rw [present_later _ forward] at held
    exact tracks.bounded key data expiry (Option.filter_eq_some_iff.1 held).1

/-- The three states of a key: not stored, stored and expired, live on both sides. -/
theorem Tracks.view (tracks : Tracks now e m) (key : Key) :
    (e.map.lookup key = none ∧ m.present now key = none) ∨
    (∃ v, e.map.lookup key = some v ∧ v.isExpiredAt now = true ∧ m.present now key = none) ∨
    ∃ v, e.map.lookup key = some v ∧ v.isExpiredAt now = false ∧ m.present now key = some (itemOf v) := by
  rw [← tracks.same key, present_stored]
  cases e.map.lookup key with
  | none => exact .inl ⟨rfl, rfl⟩
  | some v =>
      cases expired : v.isExpiredAt now with
      | true => exact .inr (.inl ⟨v, rfl, expired, by simp [expired]⟩)
      | false => exact .inr (.inr ⟨v, rfl, expired, by simp [expired]⟩)

/-! Writing on both sides, and on one side where nothing is present -/

theorem Tracks.insert (tracks : Tracks now e m) (key : Key) (v : ValueEntry)
    (within : ∀ expiry, v.expiresAt = some expiry → expiry < clockLimit) :
    Tracks now (e.insert key v) (m.write key (some (itemOf v))) := by
  refine ⟨tracks.unlimited, ?_, ?_⟩
  · intro other
    rw [stored_insert, present_write, present_write, tracks.same]
  · intro other data expiry held
    rw [present_write] at held
    split at held
    · obtain ⟨item, -⟩ := Option.filter_eq_some_iff.1 held
      exact within expiry (congrArg Prod.snd (Option.some.inj item))
    · exact tracks.bounded other data expiry held

theorem Tracks.remove (tracks : Tracks now e m) (key : Key) :
    Tracks now (e.remove key) (m.write key none) := by
  refine ⟨tracks.unlimited, ?_, ?_⟩
  · intro other
    rw [stored_remove, present_write, present_write, tracks.same]
  · intro other data expiry held
    rw [present_write] at held
    split at held
    · cases held
    · exact tracks.bounded other data expiry held

theorem Tracks.unbind (tracks : Tracks now e m) {key : Key} (absent : m.present now key = none) :
    Tracks now e (m.write key none) := by
  have unchanged : ∀ other, (m.write key none).present now other = m.present now other := by
    intro other
    rw [present_write]
    split
    · rename_i same
      rw [same, absent, Option.filter_none]
    · rfl
  refine ⟨tracks.unlimited, ?_, ?_⟩
  · intro other
    rw [unchanged, tracks.same]
  · intro other data expiry held
    rw [unchanged] at held
    exact tracks.bounded other data expiry held

theorem Tracks.removeIfExpired (tracks : Tracks now e m) (key : Key) :
    Tracks now (e.removeIfExpired now key) m := by
  refine ⟨?_, ?_, tracks.bounded⟩
  · rw [DashMapEngine.removeIfExpired_maxKeys, tracks.unlimited]
  · intro other
    rw [present_removeIfExpired, tracks.same]

theorem Tracks.sweepExpired (tracks : Tracks now e m) : Tracks now (e.sweepExpired now) m := by
  refine ⟨tracks.unlimited, ?_, tracks.bounded⟩
  intro other
  rw [present_sweepExpired, tracks.same]

theorem Tracks.clear (tracks : Tracks now e m) : Tracks now e.clear ExpiringMap.empty := by
  refine ⟨tracks.unlimited, fun key => rfl, ?_⟩
  intro key data expiry held
  cases held

/-! ## One lemma for each operation -/

/-- The same outcome, and states that track each other. -/
def Matches (now : Instant) (engine : Outcome × DashMapEngine) (reference : Outcome × Reference) : Prop :=
  engine.1 = reference.1 ∧ Tracks now engine.2 reference.2

variable (iter : Iter) (tracks : Tracks now e m)
include tracks

theorem set_matches (key : Key) (value : ValueEntry)
    (within : ∀ expiry, value.expiresAt = some expiry → expiry < clockLimit) :
    Matches now (engineStep e ⟨iter, now, .set key value⟩) (referenceStep m ⟨iter, now, .set key value⟩) := by
  simp only [engineStep, referenceStep, DashMapEngine.set_unlimited tracks.unlimited]
  exact ⟨rfl, tracks.insert key value within⟩

theorem get_matches (key : Key) :
    Matches now (engineStep e ⟨iter, now, .get key⟩) (referenceStep m ⟨iter, now, .get key⟩) := by
  obtain ⟨found, held⟩ | ⟨v, found, expired, held⟩ | ⟨v, found, live, held⟩ := tracks.view key
  · simp only [engineStep, referenceStep, DashMapEngine.get, found, held]
    exact ⟨rfl, tracks⟩
  · simp only [engineStep, referenceStep, DashMapEngine.get, found, held, expired, if_true]
    exact ⟨rfl, tracks.removeIfExpired key⟩
  · simp only [engineStep, referenceStep, DashMapEngine.get, found, held, live, Bool.false_eq_true,
      if_false]
    exact ⟨rfl, tracks⟩

theorem del_matches (key : Key) :
    Matches now (engineStep e ⟨iter, now, .del key⟩) (referenceStep m ⟨iter, now, .del key⟩) := by
  obtain ⟨found, held⟩ | ⟨v, found, expired, held⟩ | ⟨v, found, live, held⟩ := tracks.view key
  · simp only [engineStep, referenceStep, DashMapEngine.del, found, held]
    exact ⟨rfl, tracks.unbind held⟩
  · simp only [engineStep, referenceStep, DashMapEngine.del, found, held, expired, Bool.not_true,
      Bool.false_eq_true, if_false]
    exact ⟨rfl, tracks.unbind held⟩
  · simp only [engineStep, referenceStep, DashMapEngine.del, found, held, live, Bool.not_false, if_true]
    exact ⟨rfl, tracks.remove key⟩

theorem exists_matches (key : Key) :
    Matches now (engineStep e ⟨iter, now, .exists key⟩) (referenceStep m ⟨iter, now, .exists key⟩) := by
  obtain ⟨found, held⟩ | ⟨v, found, expired, held⟩ | ⟨v, found, live, held⟩ := tracks.view key
  · simp only [engineStep, referenceStep, DashMapEngine.exists?, found, held]
    exact ⟨rfl, tracks⟩
  · simp only [engineStep, referenceStep, DashMapEngine.exists?, found, held, expired, if_true]
    exact ⟨rfl, tracks.removeIfExpired key⟩
  · simp only [engineStep, referenceStep, DashMapEngine.exists?, found, held, live, Bool.false_eq_true,
      if_false]
    exact ⟨rfl, tracks⟩

/-- The second look at the clock is the first one again, so its `-2` is never taken. -/
theorem ttlSecs_matches (key : Key) :
    Matches now (engineStep e ⟨iter, now, .ttlSecs key⟩) (referenceStep m ⟨iter, now, .ttlSecs key⟩) := by
  obtain ⟨found, held⟩ | ⟨v, found, expired, held⟩ | ⟨v, found, live, held⟩ := tracks.view key
  · simp only [engineStep, referenceStep, DashMapEngine.ttlSecs, found, held]
    exact ⟨rfl, tracks⟩
  · simp only [engineStep, referenceStep, DashMapEngine.ttlSecs, found, held, expired, if_true]
    exact ⟨rfl, tracks.removeIfExpired key⟩
  · simp only [engineStep, referenceStep, DashMapEngine.ttlSecs, found, held, live, Bool.false_eq_true,
      if_false]
    refine ⟨?_, ?_⟩
    · unfold itemOf at held ⊢
      unfold ValueEntry.isExpiredAt at live
      cases expires : v.expiresAt with
      | none => rfl
      | some expiry =>
          rw [expires] at held live
          have ahead : ¬expiry ≤ now := of_decide_eq_false live
          have within : expiry < clockLimit := tracks.bounded key _ expiry held
          have small : Duration.asSecs (expiry - now) < 2 ^ 63 :=
            (Nat.div_lt_iff_lt_mul (by decide)).2 (lt_of_le_of_lt (Nat.sub_le _ _) within)
          simp only [ahead, if_false, referenceTtl, asI64_of_lt small]
    · split
      · split
        · exact tracks
        · exact tracks
      · exact tracks

theorem expire_matches (key : Key) (seconds : Nat) (within : now + Duration.fromSecs seconds < clockLimit) :
    Matches now (engineStep e ⟨iter, now, .expire key seconds⟩)
      (referenceStep m ⟨iter, now, .expire key seconds⟩) := by
  obtain ⟨found, held⟩ | ⟨v, found, expired, held⟩ | ⟨v, found, live, held⟩ := tracks.view key
  · simp only [engineStep, referenceStep, DashMapEngine.expire, found, held]
    exact ⟨rfl, tracks⟩
  · simp only [engineStep, referenceStep, DashMapEngine.expire, found, held, expired, if_true]
    exact ⟨rfl, tracks.removeIfExpired key⟩
  · simp only [engineStep, referenceStep, DashMapEngine.expire, found, held, live, Bool.false_eq_true,
      if_false]
    refine ⟨rfl, tracks.insert key _ ?_⟩
    intro expiry same
    cases same
    exact within

theorem incr_matches (key : Key)
    (small : ∀ item, m.present now key = some item →
      parseSigned 64 (fromUtf8Lossy item.1) ≠ some (2 ^ 63 - 1)) :
    Matches now (engineStep e ⟨iter, now, .incr key⟩) (referenceStep m ⟨iter, now, .incr key⟩) := by
  have fresh : Tracks now (e.insert key (ValueEntry.new now (ascii "1")))
      (m.write key (some (ascii "1", none))) := by
    refine tracks.insert key _ ?_
    intro expiry same
    cases same
  obtain ⟨found, held⟩ | ⟨v, found, expired, held⟩ | ⟨v, found, live, held⟩ := tracks.view key
  · simp only [engineStep, referenceStep, referenceIncr, DashMapEngine.incr_unlimited tracks.unlimited,
      found, held]
    exact ⟨rfl, fresh⟩
  · simp only [engineStep, referenceStep, referenceIncr, DashMapEngine.incr_unlimited tracks.unlimited,
      found, held, expired, if_true]
    exact ⟨rfl, fresh⟩
  · simp only [engineStep, referenceStep, referenceIncr, DashMapEngine.incr_unlimited tracks.unlimited,
      found, held, live, Bool.false_eq_true, if_false, itemOf]
    cases parsed : parseSigned 64 (fromUtf8Lossy v.data) with
    | none => exact ⟨rfl, tracks⟩
    | some n =>
        have range := parseSigned_range parsed
        have below : n ≠ 2 ^ 63 - 1 := by
          intro same
          exact small _ held (by rw [itemOf, parsed, same])
        have exact : Int.bmod (n + 1) (2 ^ 64) = n + 1 := Int.bmod_eq_of_le (by omega) (by omega)
        simp only [exact]
        refine ⟨rfl, tracks.insert key { v with data := decimalInt (n + 1) } ?_⟩
        intro expiry same
        have same : v.expiresAt = some expiry := same
        rw [itemOf, same] at held
        exact tracks.bounded key _ expiry held

theorem keys_matches :
    Matches now (engineStep e ⟨iter, now, .keys⟩) (referenceStep m ⟨iter, now, .keys⟩) := by
  refine ⟨congrArg Outcome.keys (Set.ext fun key => ?_), tracks⟩
  have listed : ∀ v, (⟨key, v⟩ : Entry) ∈ iter.list e.map ↔ e.map.lookup key = some v := by
    intro v
    rw [← Multiset.mem_coe, iter.lists, ← Finmap.mem_lookup_iff, Option.mem_def]
  have bound : key ∈ m.keysAt now ↔ ∃ v, e.map.lookup key = some v ∧ v.isExpiredAt now = false := by
    unfold ExpiringMap.keysAt
    rw [Set.mem_ofPred_eq]
    obtain ⟨found, held⟩ | ⟨v, found, expired, held⟩ | ⟨v, found, live, held⟩ := tracks.view key
    · simp [found, held]
    · simp [found, held, expired]
    · simp [found, held, live]
  rw [bound, Set.mem_ofPred_eq, DashMapEngine.keys, List.mem_map]
  constructor
  · rintro ⟨⟨other, v⟩, kept, rfl⟩
    obtain ⟨member, live⟩ := List.mem_filter.1 kept
    exact ⟨v, (listed v).1 member, by simpa using live⟩
  · rintro ⟨v, found, live⟩
    refine ⟨⟨key, v⟩, List.mem_filter.2 ⟨(listed v).2 found, ?_⟩, rfl⟩
    simp [live]

theorem mget_matches (names : List Key) :
    Matches now (engineStep e ⟨iter, now, .mget names⟩) (referenceStep m ⟨iter, now, .mget names⟩) := by
  refine ⟨congrArg Outcome.items ?_, tracks⟩
  rw [DashMapEngine.mget, List.map_map]
  refine List.map_congr_left fun key _ => ?_
  obtain ⟨found, held⟩ | ⟨v, found, expired, held⟩ | ⟨v, found, live, held⟩ := tracks.view key
  · simp [found, held]
  · simp [found, held, expired]
  · simp [found, held, live]

end Tracks

/-- One call, whatever it is. -/
theorem call_matches {e : DashMapEngine} {m : Reference} {c : Call} (tracks : Tracks c.now e m)
    (inRange : InRange m c) : Matches c.now (engineStep e c) (referenceStep m c) := by
  obtain ⟨iter, now, op⟩ := c
  cases op with
  | set key value => exact set_matches iter tracks key value inRange
  | get key => exact get_matches iter tracks key
  | del key => exact del_matches iter tracks key
  | incr key => exact incr_matches iter tracks key inRange
  | «exists» key => exact exists_matches iter tracks key
  | ttlSecs key => exact ttlSecs_matches iter tracks key
  | expire key seconds => exact expire_matches iter tracks key seconds inRange
  | clear => exact ⟨rfl, tracks.clear⟩
  | keys => exact keys_matches iter tracks
  | mget names => exact mget_matches iter tracks names
  | sweepExpired => exact ⟨rfl, tracks.sweepExpired⟩

theorem engine_simulates :
    TimedSimulation Call.now engineStep referenceStep InRange Tracks :=
  ⟨Tracks.later, call_matches⟩

/-- Lazy eviction and sweeping change no result. -/
theorem engine_refines_reference (calls : List Call)
    (ordered : calls.Pairwise fun a b => a.now ≤ b.now)
    (inRange : Along (moves referenceStep) InRange ExpiringMap.empty calls) :
    outputs engineStep DashMapEngine.new calls = outputs referenceStep ExpiringMap.empty calls :=
  engine_simulates.outputs_eq tracks_new (fun _ _ => Nat.zero_le _) ordered inRange

/-- A counter that expires at `10`: one INCR before, one read and one INCR at that instant. -/
noncomputable def expiringCounter : List Call :=
  let k := ascii "k"
  [⟨.some, 0, .set k ⟨ascii "5", some 10, some 0⟩⟩, ⟨.some, 9, .incr k⟩, ⟨.some, 10, .get k⟩,
    ⟨.some, 10, .incr k⟩, ⟨.some, 11, .ttlSecs k⟩]

theorem engine_refines_reference_counter :
    outputs engineStep DashMapEngine.new expiringCounter =
      [.written (.ok ()), .counted (.ok 6), .found (.ok none), .counted (.ok 1), .seconds (-1)] := by
  refine (engine_refines_reference expiringCounter ?_ ?_).trans ?_
  · simp [expiringCounter]
  · refine ⟨?_, fun m first => ⟨?_, fun m second => ⟨trivial, fun m third => ⟨?_, fun m fourth => ?_⟩⟩⟩⟩
    · intro expiry same
      cases same
      decide
    · cases first
      intro item held
      cases held
      decide
    · cases first
      cases second
      cases third
      intro item held
      cases held
    · exact ⟨trivial, fun _ _ => trivial⟩
  · rfl

end ZetDb.Storage
