/-
# Storage.LazyEviction -- expired entries are tested under one guard and removed under another

`get`, `exists`, `ttl_secs` and `expire` test the expiry under a guard, drop the
guard, and remove the entry with a `remove_if` that tests it again.  Between the two
another client may have stored a fresh value under the key.  The calls of the engine
are here what they are to each other: sections that are atomic on the map, in any
order, each with the clock it reads.

* `lazy_keeps_live`: no section of the four, nor of the sweep, removes an entry that
  is not expired then.
* `lazyEviction_keeps_live`: so a stored value stays until it expires or a `del`, a
  `clear` or a write of its key ends it; or, under a key limit, a write that needs the
  room evicts it, be it a write of another key or of the same (whose check found the
  key missing before the value came).  `evicted_while_live` is a run of that kind.
* `call_alone`: a call that nothing interrupts is the operation of the engine.

What is no single map operation is left to the environment: the sum that `len`
returns, the key with which the sampling ends, the order in which `retain` and
`clear` visit the entries.  `INCR` on a new key keeps the guard of its shard to its
end; here it lets the others go on.
-/
import ZetDb.Storage.Expiry
import ZetDb.Theory.Calls

namespace ZetDb.Storage

set_option autoImplicit false

open ZetDb.Theory.Wire ZetDb.Theory.Text ZetDb.Theory.Runs ZetDb.Theory.Calls ZetDb.Domain

/-! ## The sections of the calls -/

/-- A write that waits for room. -/
inductive Pending where
  | set (key : Key) (value : ValueEntry)
  | incr (key : Key)
  deriving DecidableEq, Repr

namespace Pending

def key : Pending → Key
  | .set key _ | .incr key => key

def entry (now : Instant) : Pending → ValueEntry
  | .set _ value => value
  | .incr _ => ValueEntry.new now (ascii "1")

def stored : Pending → Outcome
  | .set _ _ => .written (.ok ())
  | .incr _ => .counted (.ok 1)

def refused : Pending → Outcome
  | .set _ _ => .written (.error .outOfMemory)
  | .incr _ => .counted (.error .outOfMemory)

end Pending

/-- Where a call stands: before its first section, or at a later one. -/
inductive Point where
  | get (key : Key)
  | exists (key : Key)
  | ttlSecs (key : Key)
  | expire (key : Key) (seconds : Nat)
  | sweepExpired
  | set (key : Key) (value : ValueEntry)
  | del (key : Key)
  | incr (key : Key)
  | clear
  /-- The guard is dropped; the answer is known. -/
  | removeIf (key : Key) (answer : Outcome)
  | evictOne (write : Pending)
  | evict (victim : Key) (write : Pending)
  | room (write : Pending)
  | insert (write : Pending)

/-- What the environment decides in a section. -/
structure Moment where
  now : Instant
  /-- The clock, where it is read again under the same guard. -/
  later : Instant
  len : Nat
  sampled : Option Key
  visited : Option Key

/-- The test of an entry under its guard: absent, expired or live. -/
def guarded (key : Key) (gone : Outcome) (live : ValueEntry → Outcome × DashMapEngine) (m : Moment)
    (e : DashMapEngine) : Progress Point Outcome × DashMapEngine :=
  match e.map.lookup key with
  | none => (.returned gone, e)
  | some v => if v.isExpiredAt m.now then (.at (.removeIf key gone), e) else (.returned (live v).1, (live v).2)

def ttlAt (later : Instant) (v : ValueEntry) : Int :=
  match v.expiresAt with
  | some exp => if exp ≤ later then -2 else asI64 (Duration.asSecs (exp - later))
  | none => -1

def callSection : Point → Moment → DashMapEngine → Progress Point Outcome × DashMapEngine
  | .get key, m, e => guarded key (.found (.ok none)) (fun v => (.found (.ok (some (itemOf v))), e)) m e
  | .exists key, m, e => guarded key (.flag false) (fun _ => (.flag true, e)) m e
  | .ttlSecs key, m, e => guarded key (.seconds (-2)) (fun v => (.seconds (ttlAt m.later v), e)) m e
  | .expire key seconds, m, e =>
      guarded key (.flag false) (fun v => (.flag true,
        e.insert key { v with expiresAt := some (m.later + Duration.fromSecs seconds) })) m e
  | .removeIf key answer, m, e => (.returned answer, e.removeIfExpired m.now key)
  | .sweepExpired, m, e =>
      match m.visited with
      | some key => (.at .sweepExpired, e.removeIfExpired m.now key)
      | none => (.returned .done, e)
  | .set key value, _, e =>
      if e.maxKeys > 0 ∧ (e.map.lookup key).isNone then (.at (.evictOne (.set key value)), e)
      else (.at (.insert (.set key value)), e)
  | .evictOne write, m, e =>
      if e.maxKeys = 0 ∨ m.len < e.maxKeys then (.at (.room write), e)
      else
        match m.sampled with
        | some victim => (.at (.evict victim write), e)
        | none => (.at (.room write), e)
  | .evict victim write, _, e => (.at (.room write), e.remove victim)
  | .room write, m, e =>
      if e.maxKeys > 0 ∧ m.len ≥ e.maxKeys then (.returned write.refused, e) else (.at (.insert write), e)
  | .insert write, m, e => (.returned write.stored, e.insert write.key (write.entry m.now))
  | .del key, m, e => (.returned (.deleted (e.del m.now key).1), (e.del m.now key).2)
  | .incr key, m, e =>
      match e.map.lookup key with
      | some v =>
          if v.isExpiredAt m.now then (.at (.room (.incr key)), e.remove key)
          else
            match parseSigned 64 (fromUtf8Lossy v.data) with
            | none => (.returned (.counted (.error (.notAnInteger key))), e)
            | some val =>
                let newVal := Int.bmod (val + 1) (2 ^ 64)
                (.returned (.counted (.ok newVal)), e.insert key { v with data := decimalInt newVal })
      | none =>
          if e.maxKeys > 0 ∧ m.len ≥ e.maxKeys then (.at (.evictOne (.incr key)), e)
          else (.returned (.counted (.ok 1)), e.insert key (ValueEntry.new m.now (ascii "1")))
  | .clear, m, e =>
      match m.visited with
      | some key => (.at .clear, e.remove key)
      | none => (.returned .done, e)

abbrev CallsState := State DashMapEngine Point Outcome

abbrev callStep : CallsState → Turn Moment → Option CallsState := step callSection

/-- Calls of the engine, none of which has begun. -/
def Point.isFirst : Point → Bool
  | .removeIf _ _ | .evictOne _ | .evict _ _ | .room _ | .insert _ => false
  | _ => true

def opening (e : DashMapEngine) (calls : List Point) : CallsState := ⟨e, calls.map .at⟩

/-! ## A call alone -/

/-- The operations whose calls are modelled here; the others remove and write nothing. -/
def Point.ofOp : Op → Option Point
  | .set key value => some (.set key value)
  | .get key => some (.get key)
  | .del key => some (.del key)
  | .incr key => some (.incr key)
  | .exists key => some (.exists key)
  | .ttlSecs key => some (.ttlSecs key)
  | .expire key seconds => some (.expire key seconds)
  | .clear => some .clear
  | .sweepExpired => some .sweepExpired
  | .keys | .mget _ => none

/-- A call that is alone can come to this end at one reading of the clock. -/
def EndsAlone (e : DashMapEngine) (p : Point) (now : Instant) (answer : Outcome) (e' : DashMapEngine) : Prop :=
  ∃ turns, (∀ t ∈ turns, t.choice.now = now) ∧
    run callStep ⟨e, [.at p]⟩ turns = some ⟨e', [.returned answer]⟩

/-- What the engine reads when nothing interrupts it. -/
def ownReading (iter : Iter) (now : Instant) (e : DashMapEngine) (visited : Option Key) : Moment :=
  ⟨now, now, e.len, DashMapEngine.sampleOldest now (iter.list e.map) none none 0, visited⟩

section Alone

variable {e mid e' : DashMapEngine} {iter : Iter} {now : Instant} {key : Key} {p q : Point} {answer : Outcome}

theorem endsAlone_now (iter : Iter) (visited : Option Key)
    (last : callSection p (ownReading iter now e visited) e = (.returned answer, e')) :
    EndsAlone e p now answer e' := by
  refine ⟨[⟨0, ownReading iter now e visited⟩], by simp [ownReading], ?_⟩
  show some (State.mk (callSection p (ownReading iter now e visited) e).2
    [(callSection p (ownReading iter now e visited) e).1]) = _
  rw [last]

theorem EndsAlone.before (iter : Iter) (visited : Option Key) (rest : EndsAlone mid q now answer e')
    (next : callSection p (ownReading iter now e visited) e = (.at q, mid)) : EndsAlone e p now answer e' := by
  obtain ⟨turns, clock, reached⟩ := rest
  refine ⟨⟨0, ownReading iter now e visited⟩ :: turns, ?_, ?_⟩
  · intro t member
    rcases List.mem_cons.1 member with rfl | later
    · rfl
    · exact clock t later
  · show run callStep (State.mk (callSection p (ownReading iter now e visited) e).2
      [(callSection p (ownReading iter now e visited) e).1]) turns = _
    rw [next]
    exact reached

/-- A call that tests its key under a guard, from what the operation does in the three cases. -/
theorem endsAlone_guarded (iter : Iter) {gone : Outcome} {onLive : ValueEntry → Outcome × DashMapEngine}
    {result : Outcome × DashMapEngine}
    (test : callSection p (ownReading iter now e none) e = guarded key gone onLive (ownReading iter now e none) e)
    (absent : e.map.lookup key = none → result = (gone, e))
    (old : ∀ v, e.map.lookup key = some v → v.isExpiredAt now = true →
      result = (gone, e.removeIfExpired now key))
    (live : ∀ v, e.map.lookup key = some v → v.isExpiredAt now = false → result = onLive v) :
    EndsAlone e p now result.1 result.2 := by
  unfold guarded at test
  have clock : (ownReading iter now e none).now = now := rfl
  cases found : e.map.lookup key with
  | none =>
      rw [found] at test
      rw [absent found]
      exact endsAlone_now iter none test
  | some v =>
      cases expired : v.isExpiredAt now with
      | true =>
          simp only [found, clock, expired, if_true] at test
          rw [old v found expired]
          exact (endsAlone_now iter none rfl).before iter none test
      | false =>
          simp only [found, clock, expired, Bool.false_eq_true, if_false] at test
          rw [live v found expired]
          exact endsAlone_now iter none test

/-- The visits of `retain` and of `clear`, one key after the other. -/
theorem endsAlone_visits (iter : Iter) (now : Instant) {d : DashMapEngine → Key → DashMapEngine}
    (visit : ∀ e key, callSection p (ownReading iter now e (some key)) e = (.at p, d e key))
    (last : ∀ e, callSection p (ownReading iter now e none) e = (.returned answer, e)) (keys : List Key) :
    EndsAlone e p now answer (keys.foldl d e) := by
  induction keys generalizing e with
  | nil => exact endsAlone_now iter none (last e)
  | cons key keys ih => exact ih.before iter (some key) (visit e key)

/-- A write that waits for room, when it may evict first. -/
theorem endsAlone_room (e : DashMapEngine) (iter : Iter) (now : Instant) (write : Pending) :
    EndsAlone e (.room write) now
      (if e.maxKeys > 0 ∧ e.len ≥ e.maxKeys then write.refused else write.stored)
      (if e.maxKeys > 0 ∧ e.len ≥ e.maxKeys then e else e.insert write.key (write.entry now)) := by
  by_cases full : e.maxKeys > 0 ∧ e.len ≥ e.maxKeys
  · rw [if_pos full, if_pos full]
    refine endsAlone_now iter none ?_
    exact if_pos full
  · rw [if_neg full, if_neg full]
    refine (endsAlone_now (p := .insert write) iter none rfl).before iter none ?_
    exact if_neg full

theorem endsAlone_evictOne (iter : Iter) (now : Instant) (write : Pending) (limited : 0 < e.maxKeys) :
    EndsAlone e (.evictOne write) now
      (if (e.evictOneIfNeeded iter now).len ≥ e.maxKeys then write.refused else write.stored)
      (if (e.evictOneIfNeeded iter now).len ≥ e.maxKeys then e.evictOneIfNeeded iter now
        else (e.evictOneIfNeeded iter now).insert write.key (write.entry now)) := by
  have room := endsAlone_room (e.evictOneIfNeeded iter now) iter now write
  simp only [DashMapEngine.evictOneIfNeeded_maxKeys, limited, true_and] at room
  by_cases below : e.maxKeys = 0 ∨ e.len < e.maxKeys
  · have same : e.evictOneIfNeeded iter now = e := if_pos below
    rw [same] at room ⊢
    exact room.before iter none (if_pos below)
  · have sampled : e.evictOneIfNeeded iter now =
        match DashMapEngine.sampleOldest now (iter.list e.map) none none 0 with
        | some key => e.remove key
        | none => e := if_neg below
    have next : callSection (.evictOne write) (ownReading iter now e none) e =
        match DashMapEngine.sampleOldest now (iter.list e.map) none none 0 with
        | some victim => (.at (.evict victim write), e)
        | none => (.at (.room write), e) := if_neg below
    cases victim : DashMapEngine.sampleOldest now (iter.list e.map) none none 0 with
    | none =>
        rw [victim] at sampled next
        rw [sampled] at room ⊢
        exact room.before iter none next
    | some key =>
        rw [victim] at sampled next
        rw [sampled] at room ⊢
        exact (EndsAlone.before iter none room rfl).before iter none next

theorem foldl_removeIfExpired (now : Instant) (keys : List Key) (e : DashMapEngine) :
    (keys.foldl (fun e key => e.removeIfExpired now key) e).maxKeys = e.maxKeys ∧
      ∀ other, (keys.foldl (fun e key => e.removeIfExpired now key) e).map.lookup other =
        (e.map.lookup other).filter fun v => !(decide (other ∈ keys) && v.isExpiredAt now) := by
  induction keys generalizing e with
  | nil =>
      refine ⟨rfl, ?_⟩
      intro other
      simp only [List.foldl_nil, List.not_mem_nil, decide_false, Bool.false_and, Bool.not_false]
      cases e.map.lookup other <;> rfl
  | cons key keys ih =>
      obtain ⟨limit, lookups⟩ := ih (e.removeIfExpired now key)
      refine ⟨limit.trans DashMapEngine.removeIfExpired_maxKeys, ?_⟩
      intro other
      rw [List.foldl_cons, lookups, DashMapEngine.lookup_removeIfExpired, Option.filter_filter]
      congr 1
      funext v
      cases v.isExpiredAt now <;> simp [List.mem_cons]

theorem foldl_remove (keys : List Key) (e : DashMapEngine) :
    (keys.foldl DashMapEngine.remove e).maxKeys = e.maxKeys ∧
      ∀ other, (keys.foldl DashMapEngine.remove e).map.lookup other =
        if other ∈ keys then none else e.map.lookup other := by
  induction keys generalizing e with
  | nil => simp
  | cons key keys ih =>
      obtain ⟨limit, lookups⟩ := ih (e.remove key)
      refine ⟨limit, ?_⟩
      intro other
      rw [List.foldl_cons, lookups]
      by_cases same : other = key
      · subst same
        simp [DashMapEngine.remove]
      · simp [same, DashMapEngine.remove]

/-- The keys that are visited are those of the map. -/
theorem mem_visited (iter : Iter) (e : DashMapEngine) (key : Key) :
    key ∈ (iter.list e.map).map Sigma.fst ↔ key ∈ e.map := by
  rw [← Multiset.mem_coe, ← Multiset.map_coe, iter.lists]
  rfl

theorem sweepExpired_visits (iter : Iter) (now : Instant) (e : DashMapEngine) :
    ((iter.list e.map).map Sigma.fst).foldl (fun e key => e.removeIfExpired now key) e =
      e.sweepExpired now := by
  obtain ⟨limit, lookups⟩ := foldl_removeIfExpired now ((iter.list e.map).map Sigma.fst) e
  refine DashMapEngine.ext_lookup limit ?_
  intro key
  rw [lookups, DashMapEngine.sweepExpired, lookup_retain]
  simp only [mem_visited]
  cases found : e.map.lookup key with
  | none => rfl
  | some v =>
      have there : key ∈ e.map := Finmap.mem_of_lookup_eq_some found
      simp only [there, decide_true, Bool.true_and]

theorem clear_visits (iter : Iter) (e : DashMapEngine) :
    ((iter.list e.map).map Sigma.fst).foldl DashMapEngine.remove e = e.clear := by
  obtain ⟨limit, lookups⟩ := foldl_remove ((iter.list e.map).map Sigma.fst) e
  refine DashMapEngine.ext_lookup limit ?_
  intro key
  rw [lookups]
  split
  · rfl
  · rename_i absent
    exact Finmap.lookup_eq_none.2 fun there => absent ((mem_visited iter e key).2 there)

theorem set_call_alone (e : DashMapEngine) (iter : Iter) (now : Instant) (key : Key) (value : ValueEntry) :
    EndsAlone e (.set key value) now (engineStep e ⟨iter, now, .set key value⟩).1
      (engineStep e ⟨iter, now, .set key value⟩).2 := by
  simp only [engineStep, DashMapEngine.set]
  by_cases fresh : e.maxKeys > 0 ∧ (e.map.lookup key).isNone
  · rw [if_pos fresh]
    have ends := (endsAlone_evictOne iter now (.set key value) fresh.1).before
      (p := .set key value) iter none (if_pos fresh)
    simp only [DashMapEngine.evictOneIfNeeded_maxKeys]
    split at ends
    · rename_i full
      rw [if_pos full]
      exact ends
    · rename_i room
      rw [if_neg room]
      exact ends
  · rw [if_neg fresh]
    exact EndsAlone.before iter none (endsAlone_now (p := .insert (.set key value)) iter none rfl)
      (if_neg fresh)

theorem incr_call_alone (e : DashMapEngine) (iter : Iter) (now : Instant) (key : Key) :
    EndsAlone e (.incr key) now (engineStep e ⟨iter, now, .incr key⟩).1
      (engineStep e ⟨iter, now, .incr key⟩).2 := by
  have clock : (ownReading iter now e none).now = now := rfl
  simp only [engineStep, DashMapEngine.incr]
  cases found : e.map.lookup key with
  | none =>
      dsimp only
      by_cases full : e.maxKeys > 0 ∧ e.len ≥ e.maxKeys
      · rw [if_pos full]
        have next : callSection (.incr key) (ownReading iter now e none) e =
            (.at (.evictOne (.incr key)), e) := by
          simp only [callSection, found]
          exact if_pos full
        have ends := (endsAlone_evictOne iter now (.incr key) full.1).before iter none next
        simp only [DashMapEngine.evictOneIfNeeded_maxKeys]
        split at ends
        · rename_i none
          rw [if_pos none]
          exact ends
        · rename_i room
          rw [if_neg room]
          exact ends
      · rw [if_neg full]
        apply endsAlone_now iter none
        simp only [callSection, found]
        exact if_neg full
  | some v =>
      cases expired : v.isExpiredAt now with
      | true =>
          have next : callSection (.incr key) (ownReading iter now e none) e =
              (.at (.room (.incr key)), e.remove key) := by
            simp only [callSection, found, clock, expired, if_true]
          have ends := (endsAlone_room _ iter now (.incr key)).before iter none next
          simp only [expired, if_true]
          split at ends
          · rename_i full
            rw [if_pos full]
            exact ends
          · rename_i room
            rw [if_neg room]
            exact ends
      | false =>
          simp only [expired, Bool.false_eq_true, if_false]
          cases parsed : parseSigned 64 (fromUtf8Lossy v.data) with
          | none =>
              apply endsAlone_now iter none
              simp only [callSection, found, clock, expired, parsed, Bool.false_eq_true, if_false]
          | some val =>
              apply endsAlone_now iter none
              simp only [callSection, found, clock, expired, parsed, Bool.false_eq_true, if_false]

/-- A call that nothing interrupts is the operation of the engine. -/
theorem call_alone (e : DashMapEngine) (c : Call) (p : Point) (same : Point.ofOp c.op = some p) :
    EndsAlone e p c.now (engineStep e c).1 (engineStep e c).2 := by
  obtain ⟨iter, now, op⟩ := c
  cases op with
  | keys => cases same
  | mget keys => cases same
  | get key =>
      cases same
      refine endsAlone_guarded iter rfl (fun absent => ?_) (fun v found old => ?_) fun v found live => ?_
      · simp only [engineStep, DashMapEngine.get, absent]
        rfl
      · simp only [engineStep, DashMapEngine.get, found, old, if_true]
        rfl
      · simp only [engineStep, DashMapEngine.get, found, live, Bool.false_eq_true, if_false]
        rfl
  | «exists» key =>
      cases same
      refine endsAlone_guarded iter rfl (fun absent => ?_) (fun v found old => ?_) fun v found live => ?_
      · simp only [engineStep, DashMapEngine.exists?, absent]
      · simp only [engineStep, DashMapEngine.exists?, found, old, if_true]
      · simp only [engineStep, DashMapEngine.exists?, found, live, Bool.false_eq_true, if_false]
  | ttlSecs key =>
      cases same
      refine endsAlone_guarded iter rfl (fun absent => ?_) (fun v found old => ?_) fun v found live => ?_
      · simp only [engineStep, DashMapEngine.ttlSecs, absent]
      · simp only [engineStep, DashMapEngine.ttlSecs, found, old, if_true]
      · simp only [engineStep, DashMapEngine.ttlSecs, found, live, Bool.false_eq_true, if_false, ttlAt]
        cases v.expiresAt with
        | none => rfl
        | some exp =>
            by_cases past : exp ≤ now
            · simp only [ownReading, past, if_true]
            · simp only [ownReading, past, if_false]
  | expire key seconds =>
      cases same
      refine endsAlone_guarded iter rfl (fun absent => ?_) (fun v found old => ?_) fun v found live => ?_
      · simp only [engineStep, DashMapEngine.expire, absent]
      · simp only [engineStep, DashMapEngine.expire, found, old, if_true]
      · simp only [engineStep, DashMapEngine.expire, found, live, Bool.false_eq_true, if_false]
        rfl
  | sweepExpired =>
      cases same
      have ends := endsAlone_visits (p := .sweepExpired) (e := e) iter now
        (d := fun e key => e.removeIfExpired now key) (fun _ _ => rfl) (fun _ => rfl)
        ((iter.list e.map).map Sigma.fst)
      rw [sweepExpired_visits] at ends
      exact ends
  | clear =>
      cases same
      have ends := endsAlone_visits (p := .clear) (e := e) iter now (fun _ _ => rfl) (fun _ => rfl)
        ((iter.list e.map).map Sigma.fst)
      rw [clear_visits] at ends
      exact ends
  | del key =>
      cases same
      exact endsAlone_now iter none rfl
  | set key value =>
      cases same
      exact set_call_alone e iter now key value
  | incr key =>
      cases same
      exact incr_call_alone e iter now key

end Alone

/-! ## What a section takes -/

/-- The sections of the calls that evict lazily, and of the sweep. -/
def Point.isLazy : Point → Bool
  | .get _ | .exists _ | .ttlSecs _ | .expire _ _ | .removeIf _ _ | .sweepExpired => true
  | _ => false

/-- The section deletes the key or writes over it. -/
def Point.takes (key : Key) (m : Moment) (e : DashMapEngine) : Point → Bool
  | .del other => other = key
  | .incr other =>
      decide (other = key) &&
        (e.map.lookup key).all fun v => (parseSigned 64 (fromUtf8Lossy v.data)).isSome
  | .insert write => write.key = key
  | .clear => m.visited = some key
  | _ => false

def Point.evicts (key : Key) : Point → Bool
  | .evict victim _ => victim = key
  | _ => false

/-- The value is there; its expiry may have been moved. -/
def Holds (e : DashMapEngine) (key : Key) (v : ValueEntry) : Prop :=
  ∃ w, e.map.lookup key = some w ∧ w.data = v.data ∧ w.createdAt = v.createdAt

section Sections

variable {e : DashMapEngine} {key other : Key} {v w : ValueEntry} {m : Moment}

theorem holds_stored (found : e.map.lookup key = some v) : Holds e key v := ⟨v, found, rfl, rfl⟩

theorem Holds.trans {u : ValueEntry} (holds : Holds e key u) (data : u.data = v.data)
    (created : u.createdAt = v.createdAt) : Holds e key v := by
  obtain ⟨w, found, sameData, sameCreated⟩ := holds
  exact ⟨w, found, sameData.trans data, sameCreated.trans created⟩

theorem holds_insert_other (found : e.map.lookup key = some v) (apart : other ≠ key) :
    Holds (e.insert other w) key v := by
  apply holds_stored
  show (e.map.insert other w).lookup key = some v
  rw [Finmap.lookup_insert_of_ne _ apart.symm, found]

theorem holds_remove_other (found : e.map.lookup key = some v) (apart : other ≠ key) :
    Holds (e.remove other) key v := by
  apply holds_stored
  show (e.map.erase other).lookup key = some v
  rw [Finmap.lookup_erase_ne apart.symm, found]

/-- The removal tests the expiry itself. -/
theorem holds_removeIfExpired (found : e.map.lookup key = some v) (live : v.isExpiredAt m.now = false) :
    Holds (e.removeIfExpired m.now other) key v := by
  apply holds_stored
  rw [DashMapEngine.lookup_removeIfExpired, found, Option.filter_some, live, Bool.and_false]
  rfl

/-- A test under the guard leaves the store to what the call does with a live entry. -/
theorem holds_guarded {gone : Outcome} {onLive : ValueEntry → Outcome × DashMapEngine}
    (found : e.map.lookup key = some v)
    (kept : ∀ u, e.map.lookup other = some u → Holds (onLive u).2 key v) :
    Holds (guarded other gone onLive m e).2 key v := by
  unfold guarded
  split
  · exact holds_stored found
  · rename_i u there
    split
    · exact holds_stored found
    · exact kept u there

/-- A section that neither takes nor evicts the key leaves its live value. -/
theorem holds_section (p : Point) (found : e.map.lookup key = some v)
    (live : v.isExpiredAt m.now = false) (untaken : p.takes key m e = false)
    (unevicted : p.evicts key = false) : Holds (callSection p m e).2 key v := by
  have same := holds_stored found
  cases p with
  | get other => exact holds_guarded found fun _ _ => same
  | «exists» other => exact holds_guarded found fun _ _ => same
  | ttlSecs other => exact holds_guarded found fun _ _ => same
  | expire other seconds =>
      refine holds_guarded found fun u there => ?_
      by_cases this : other = key
      · subst this
        cases found.symm.trans there
        exact ⟨_, Finmap.lookup_insert _, rfl, rfl⟩
      · exact holds_insert_other found this
  | removeIf other answer => exact holds_removeIfExpired found live
  | sweepExpired =>
      simp only [callSection]
      split
      · exact holds_removeIfExpired found live
      · exact same
  | set other value =>
      simp only [callSection]
      split <;> exact same
  | evictOne write =>
      simp only [callSection]
      split
      · exact same
      · split <;> exact same
  | evict victim write => exact holds_remove_other found (of_decide_eq_false unevicted)
  | room write =>
      simp only [callSection]
      split <;> exact same
  | insert write => exact holds_insert_other found (of_decide_eq_false untaken)
  | del other =>
      have apart : other ≠ key := of_decide_eq_false untaken
      simp only [callSection, DashMapEngine.del]
      split
      · split
        · exact holds_remove_other found apart
        · exact same
      · exact same
  | incr other =>
      simp only [Point.takes, found, Option.all_some, Bool.and_eq_false_iff] at untaken
      by_cases this : other = key
      · subst this
        have noInteger : parseSigned 64 (fromUtf8Lossy v.data) = none := by simpa using untaken
        simp only [callSection, found, live, Bool.false_eq_true, if_false, noInteger]
        exact same
      · simp only [callSection]
        split
        · split
          · exact holds_remove_other found this
          · split
            · exact same
            · exact holds_insert_other found this
        · split
          · exact same
          · exact holds_insert_other found this
  | clear =>
      simp only [callSection]
      split
      · rename_i victim visited
        apply holds_remove_other found
        rintro rfl
        exact of_decide_eq_false untaken visited
      · exact same

/-- Lazy eviction and the sweep never remove an entry that is not expired at the removal. -/
theorem lazy_keeps_live (p : Point) (lazy : p.isLazy = true) (found : e.map.lookup key = some v)
    (live : v.isExpiredAt m.now = false) : Holds (callSection p m e).2 key v := by
  apply holds_section p found live
  · cases p <;> first | rfl | cases lazy
  · cases p <;> first | rfl | cases lazy

/-- What a section leaves of the limit, and how a call comes to evict. -/
structure KeepsLimit (e : DashMapEngine) (next : Progress Point Outcome × DashMapEngine) : Prop where
  maxKeys : next.2.maxKeys = e.maxKeys
  evicts : ∀ victim write, next.1 = .at (.evict victim write) → 0 < e.maxKeys

theorem keepsLimit_guarded {gone : Outcome} {onLive : ValueEntry → Outcome × DashMapEngine}
    (kept : ∀ u, (onLive u).2.maxKeys = e.maxKeys) : KeepsLimit e (guarded key gone onLive m e) := by
  unfold guarded
  split
  · exact ⟨rfl, by rintro _ _ ⟨⟩⟩
  · rename_i u there
    split
    · exact ⟨rfl, by rintro _ _ ⟨⟩⟩
    · exact ⟨kept u, by rintro _ _ ⟨⟩⟩

theorem keepsLimit_section (p : Point) : KeepsLimit e (callSection p m e) := by
  cases p with
  | get other => exact keepsLimit_guarded fun _ => rfl
  | «exists» other => exact keepsLimit_guarded fun _ => rfl
  | ttlSecs other => exact keepsLimit_guarded fun _ => rfl
  | expire other seconds => exact keepsLimit_guarded fun _ => rfl
  | removeIf other answer => exact ⟨DashMapEngine.removeIfExpired_maxKeys, by rintro _ _ ⟨⟩⟩
  | sweepExpired =>
      simp only [callSection]
      split
      · exact ⟨DashMapEngine.removeIfExpired_maxKeys, by rintro _ _ ⟨⟩⟩
      · exact ⟨rfl, by rintro _ _ ⟨⟩⟩
  | evictOne write =>
      simp only [callSection]
      split
      · exact ⟨rfl, by rintro _ _ ⟨⟩⟩
      · rename_i full
        have limited : 0 < e.maxKeys := Nat.pos_of_ne_zero fun none => full (.inl none)
        split
        · exact ⟨rfl, fun _ _ _ => limited⟩
        · exact ⟨rfl, by rintro _ _ ⟨⟩⟩
  | evict victim write => exact ⟨rfl, by rintro _ _ ⟨⟩⟩
  | insert write => exact ⟨rfl, by rintro _ _ ⟨⟩⟩
  | del other =>
      simp only [callSection, DashMapEngine.del]
      split
      · split <;> exact ⟨rfl, by rintro _ _ ⟨⟩⟩
      · exact ⟨rfl, by rintro _ _ ⟨⟩⟩
  | incr other =>
      simp only [callSection]
      split
      · split
        · exact ⟨rfl, by rintro _ _ ⟨⟩⟩
        · split <;> exact ⟨rfl, by rintro _ _ ⟨⟩⟩
      · split <;> exact ⟨rfl, by rintro _ _ ⟨⟩⟩
  | set other value =>
      simp only [callSection]
      split <;> exact ⟨rfl, by rintro _ _ ⟨⟩⟩
  | room write =>
      simp only [callSection]
      split <;> exact ⟨rfl, by rintro _ _ ⟨⟩⟩
  | clear =>
      simp only [callSection]
      split <;> exact ⟨rfl, by rintro _ _ ⟨⟩⟩

end Sections

/-! ## Runs -/

/-- The turn deletes the key or writes over it. -/
def taken (key : Key) (s : CallsState) (t : Turn Moment) : Bool :=
  match s.calls[t.call]? with
  | some (.at p) => p.takes key t.choice s.shared
  | _ => false

def evicted (key : Key) (s : CallsState) (t : Turn Moment) : Bool :=
  match s.calls[t.call]? with
  | some (.at p) => p.evicts key
  | _ => false

/-- The value of the key is expired by the clock of the turn. -/
def expired (key : Key) (s : CallsState) (t : Turn Moment) : Bool :=
  (s.shared.map.lookup key).any fun v => v.isExpiredAt t.choice.now

/-- A turn of lazy eviction or the sweep leaves every entry that is not expired. -/
def KeepsLive (s : CallsState) (t : Turn Moment) : Prop :=
  ∀ p, s.calls[t.call]? = some (.at p) → p.isLazy = true → ∀ s', callStep s t = some s' →
    ∀ key v, s.shared.map.lookup key = some v → v.isExpiredAt t.choice.now = false → Holds s'.shared key v

/-- In the run of the turns a `set` completes; then come the turns `later`. -/
def Completed (s : CallsState) (turns : List (Turn Moment)) (key : Key) (value : ValueEntry)
    (after : CallsState) (later : List (Turn Moment)) : Prop :=
  ∃ earlier t mid, turns = earlier ++ t :: later ∧ run callStep s earlier = some mid ∧
    mid.calls[t.call]? = some (.at (.insert (.set key value))) ∧ callStep mid t = some after

section Run

variable {s s' : CallsState} {t : Turn Moment} {key : Key} {v : ValueEntry} {turns : List (Turn Moment)}

theorem keepsLive (s : CallsState) (t : Turn Moment) : KeepsLive s t := by
  intro p here lazy s' next key v found live
  obtain ⟨p', there, rfl⟩ := step_cases next
  cases here.symm.trans there
  exact lazy_keeps_live p lazy found live

theorem holds_turn (holds : Holds s.shared key v) (untaken : taken key s t = false)
    (unexpired : expired key s t = false) (unevicted : evicted key s t = false)
    (next : callStep s t = some s') : Holds s'.shared key v := by
  obtain ⟨p, here, rfl⟩ := step_cases next
  obtain ⟨w, found, data, created⟩ := holds
  rw [taken, here] at untaken
  rw [evicted, here] at unevicted
  rw [expired, found] at unexpired
  exact (holds_section p found unexpired untaken unevicted).trans data created

/-- Without a limit no call evicts. -/
structure Unlimited (s : CallsState) : Prop where
  unlimited : s.shared.maxKeys = 0
  noVictim : ∀ victim write, .at (.evict victim write) ∉ s.calls

theorem Unlimited.step (free : Unlimited s) (next : callStep s t = some s') : Unlimited s' := by
  obtain ⟨p, here, rfl⟩ := step_cases next
  have limit := keepsLimit_section (e := s.shared) (m := t.choice) p
  refine ⟨limit.maxKeys.trans free.unlimited, fun victim write member => ?_⟩
  rcases List.mem_or_eq_of_mem_set member with before | same
  · exact free.noVictim victim write before
  · have positive := limit.evicts victim write same.symm
    rw [free.unlimited] at positive
    cases positive

theorem Unlimited.evicted (free : Unlimited s) : evicted key s t = false := by
  unfold Storage.evicted
  split
  · rename_i p here
    cases p with
    | evict victim write => exact absurd (List.mem_of_getElem? here) (free.noVictim victim write)
    | _ => rfl
  · rfl

theorem unlimited_opening {e : DashMapEngine} {calls : List Point} (first : ∀ p ∈ calls, p.isFirst = true)
    (none : e.maxKeys = 0) : Unlimited (opening e calls) := by
  refine ⟨none, fun victim write member => ?_⟩
  obtain ⟨p, there, same⟩ := List.mem_map.1 member
  cases same
  cases first _ there

/-- What no turn takes, finds expired or evicts is still held in the end. -/
theorem holds_run {limit : Nat} (holds : Holds s.shared key v) (free : limit = 0 → Unlimited s)
    (along : Along callStep (fun s t => (taken key s t = false ∧ expired key s t = false) ∧
      (0 < limit → evicted key s t = false)) s turns)
    (reached : run callStep s turns = some s') : Holds s'.shared key v := by
  have kept : Holds s'.shared key v ∧ (limit = 0 → Unlimited s') := by
    refine run_invariant (I := fun s => Holds s.shared key v ∧ (limit = 0 → Unlimited s)) ?_ ⟨holds, free⟩
      along reached
    rintro s t s' ⟨holds, free⟩ ⟨⟨untaken, unexpired⟩, unevicted⟩ next
    refine ⟨holds_turn holds untaken unexpired ?_ next, fun none => (free none).step next⟩
    rcases Nat.eq_zero_or_pos limit with none | some
    · exact (free none).evicted
    · exact unevicted some
  exact kept.1

end Run

/-- In every run of calls the lazy removals leave every entry that is not expired; and
the value of a `set` that has completed is held until a turn deletes it or writes over
it, finds it expired, or, under a key limit, evicts it. -/
theorem lazyEviction_keeps_live (e : DashMapEngine) (calls : List Point) (turns : List (Turn Moment))
    (s : CallsState) (first : ∀ p ∈ calls, p.isFirst = true)
    (reached : run callStep (opening e calls) turns = some s) :
    Along callStep KeepsLive (opening e calls) turns ∧
      ∀ key value after later, Completed (opening e calls) turns key value after later →
        Along callStep (fun s t => (taken key s t = false ∧ expired key s t = false) ∧
          (0 < e.maxKeys → evicted key s t = false)) after later →
        Holds s.shared key value := by
  refine ⟨Along.of_forall keepsLive _ _, ?_⟩
  rintro key value after later ⟨earlier, t, mid, rfl, before, inserts, next⟩ along
  have free : e.maxKeys = 0 → Unlimited after := fun none =>
    Unlimited.step (run_invariant (P := fun _ _ => True) (fun _ _ _ free _ taken => free.step taken)
      (unlimited_opening first none) (Along.of_forall (fun _ _ => trivial) _ _) before) next
  have rest : run callStep after later = some s := by
    rw [run_append, before, Option.bind_some, run_cons, next] at reached
    exact reached
  have stored : Holds after.shared key value := by
    obtain ⟨p, here, rfl⟩ := step_cases next
    cases inserts.symm.trans here
    exact holds_stored (Finmap.lookup_insert _)
  exact holds_run stored free along rest

/-- A `get` finds its key expired; before it removes the entry, a `set` stores a fresh one. -/
def refreshed : List (Turn Moment) :=
  [⟨0, ⟨10, 10, 0, none, none⟩⟩, ⟨1, ⟨11, 11, 0, none, none⟩⟩, ⟨1, ⟨11, 11, 0, none, none⟩⟩,
    ⟨0, ⟨12, 12, 0, none, none⟩⟩]

def freshEntry : ValueEntry := ⟨ascii "new", some 99, some 11⟩
def staleStore : DashMapEngine := DashMapEngine.new.insert (ascii "k") ⟨ascii "old", some 10, some 0⟩
def getAndSet : List Point := [.get (ascii "k"), .set (ascii "k") freshEntry]

theorem lazyEviction_keeps_refreshed : ∃ s, run callStep (opening staleStore getAndSet) refreshed = some s ∧
    Holds s.shared (ascii "k") freshEntry := by
  have keeps := (lazyEviction_keeps_live staleStore getAndSet refreshed _ (by decide) rfl).2
  have completed : ∃ after, Completed (opening staleStore getAndSet) refreshed (ascii "k") freshEntry after
      (refreshed.drop 3) ∧ Along callStep (fun s t =>
        (taken (ascii "k") s t = false ∧ expired (ascii "k") s t = false) ∧
          (0 < staleStore.maxKeys → evicted (ascii "k") s t = false)) after (refreshed.drop 3) :=
    ⟨_, ⟨refreshed.take 2, ⟨1, ⟨11, 11, 0, none, none⟩⟩, _, rfl, rfl, rfl, rfl⟩, by decide +kernel⟩
  obtain ⟨after, set, along⟩ := completed
  exact ⟨_, rfl, keeps (ascii "k") freshEntry after (refreshed.drop 3) set along⟩

/-- With `max_keys = 1` a `set` of another key takes a live value: it samples and evicts it. -/
def evictingTurns : List (Turn Moment) :=
  [⟨0, ⟨1, 1, 0, none, none⟩⟩, ⟨0, ⟨1, 1, 0, none, none⟩⟩, ⟨0, ⟨1, 1, 0, none, none⟩⟩,
    ⟨0, ⟨1, 1, 0, none, none⟩⟩, ⟨1, ⟨2, 2, 1, none, none⟩⟩, ⟨1, ⟨2, 2, 1, some (ascii "a"), none⟩⟩,
    ⟨1, ⟨2, 2, 1, none, none⟩⟩, ⟨1, ⟨2, 2, 0, none, none⟩⟩, ⟨1, ⟨2, 2, 0, none, none⟩⟩]

theorem evicted_while_live : ∃ s after,
    run callStep (opening (.withMaxKeys 1) [.set (ascii "a") (.new 1 []), .set (ascii "b") (.new 2 [])])
      evictingTurns = some s ∧
    Completed (opening (.withMaxKeys 1) [.set (ascii "a") (.new 1 []), .set (ascii "b") (.new 2 [])])
      evictingTurns (ascii "a") (.new 1 []) after (evictingTurns.drop 4) ∧
    Along callStep (fun s t => taken (ascii "a") s t = false ∧ expired (ascii "a") s t = false) after
      (evictingTurns.drop 4) ∧
    ¬ Holds s.shared (ascii "a") (.new 1 []) := by
  refine ⟨_, _, rfl, ⟨evictingTurns.take 3, _, _, rfl, rfl, rfl, rfl⟩, by decide +kernel, ?_⟩
  rintro ⟨w, found, -⟩
  have gone : ((DashMapEngine.withMaxKeys 1).insert (ascii "b") (.new 2 [])).map.lookup (ascii "a") = none := by
    decide +kernel
  exact absurd (gone.symm.trans found) nofun

end ZetDb.Storage
