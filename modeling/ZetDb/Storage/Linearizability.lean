/-
# Storage.Linearizability -- the calls of the engine, interleaved, have the effects of a sequence

The sections of `Storage.LazyEviction` are atomic on the map, the calls are not: a
read tests an entry and removes it later, `set` and `incr` look for room before they
insert.  `engine_calls_linearizable`: without a key limit the answers of every
interleaving are those of the engine's own operations, one after the other, each at
one of the call's own turns; and the store that is left holds the same values.

Two steps are left out by name (`undisturbed`).  `incr` on an expired key drops its
guard before it inserts, and would write over what another call has stored since.
`expire` reads the clock twice, and would revive an entry that expires in between.
FLUSHDB is left out as a whole: it removes entry by entry, and two reads between its
visits can see one key gone and the other one there.
-/
import ZetDb.Storage.LazyEviction
import ZetDb.Theory.Linearizable

namespace ZetDb.Storage

set_option autoImplicit false

open ZetDb.Theory.Text ZetDb.Theory.Expiring ZetDb.Theory.Runs ZetDb.Theory.Calls ZetDb.Theory.Linearizable
  ZetDb.Domain

/-! ## The sequential engine -/

/-- The operation a call is for. -/
def Point.op : Point → Option Op
  | .set key value => some (.set key value)
  | .get key => some (.get key)
  | .del key => some (.del key)
  | .incr key => some (.incr key)
  | .exists key => some (.exists key)
  | .ttlSecs key => some (.ttlSecs key)
  | .expire key seconds => some (.expire key seconds)
  | .clear => some .clear
  | .sweepExpired => some .sweepExpired
  | _ => none

/-- The operation of a call, with nothing beside it. -/
def alone (iter : Iter) (p : Point) (now : Instant) (e : DashMapEngine) : Outcome × DashMapEngine :=
  match p.op with
  | some op => engineStep e ⟨iter, now, op⟩
  | none => (.done, e)

section Alone

variable (iter : Iter) (now : Instant) (e : DashMapEngine) (key : Key)

theorem alone_get : alone iter (.get key) now e =
    (.found ((e.get now key).1.map (Option.map itemOf)), (e.get now key).2) := rfl

theorem alone_exists : alone iter (.exists key) now e = (.flag (e.exists? now key).1, (e.exists? now key).2) := rfl

theorem alone_ttlSecs : alone iter (.ttlSecs key) now e =
    (.seconds (e.ttlSecs now key).1, (e.ttlSecs now key).2) := rfl

theorem alone_expire (seconds : Nat) : alone iter (.expire key seconds) now e =
    (.flag (e.expire now key seconds).1, (e.expire now key seconds).2) := rfl

theorem alone_del : alone iter (.del key) now e = (.deleted (e.del now key).1, (e.del now key).2) := rfl

theorem alone_set (value : ValueEntry) : alone iter (.set key value) now e =
    (.written (e.set iter now key value).1, (e.set iter now key value).2) := rfl

theorem alone_incr : alone iter (.incr key) now e =
    (.counted (e.incr iter now key).1, (e.incr iter now key).2) := rfl

end Alone

/-- A call before its first section, of any operation but `clear`. -/
def Point.isOperation : Point → Bool
  | .clear => false
  | p => p.isFirst

/-- No other call's value is written over, and no entry is revived. -/
def Point.undisturbed (m : Moment) (e : DashMapEngine) : Point → Bool
  | .expire key _ => (e.map.lookup key).all fun v => v.isExpiredAt m.now || !v.isExpiredAt m.later
  | .insert (.incr key) => (e.map.lookup key).all fun v => v.isExpiredAt m.now
  | _ => true

def undisturbed (s : CallsState) (t : Turn Moment) : Bool :=
  match s.calls[t.call]? with
  | some (.at p) => p.undisturbed t.choice s.shared
  | _ => true

/-- The key has been set since the INCR found nothing. -/
example : (Point.insert (.incr (ascii "k"))).undisturbed ⟨5, 5, 0, none, none⟩
    (DashMapEngine.new.insert (ascii "k") ⟨ascii "v", none, some 0⟩) = false := by decide +kernel

/-! ## Two stores that hold the same -/

/-- Nothing live under the key. -/
def Gone (now : Instant) (e : DashMapEngine) (key : Key) : Prop :=
  ∀ v, e.map.lookup key = some v → v.isExpiredAt now = true

/-- Without a key limit, and with the same live values. -/
structure Alike (now : Instant) (e w : DashMapEngine) : Prop where
  unlimited : e.maxKeys = 0
  sequential : w.maxKeys = 0
  same : ∀ key, (stored e).present now key = (stored w).present now key

section Alike

variable {now : Instant} {e w : DashMapEngine} {key : Key} {v u : ValueEntry}

theorem present_gone : (stored e).present now key = none ↔ Gone now e key := by
  rw [present_stored, Gone]
  cases e.map.lookup key with
  | none => simp
  | some v => cases old : v.isExpiredAt now <;> simp [old]

theorem Alike.lasts {later : Instant} (forward : now ≤ later) (alike : Alike now e w) : Alike later e w := by
  refine ⟨alike.unlimited, alike.sequential, fun key => ?_⟩
  rw [present_later _ forward, present_later _ forward, alike.same]

/-- A key is live on both sides, with the same value, or on neither. -/
theorem Alike.view (alike : Alike now e w) (key : Key) :
    (Gone now e key ∧ Gone now w key) ∨
    ∃ v u, e.map.lookup key = some v ∧ v.isExpiredAt now = false ∧ w.map.lookup key = some u ∧
      u.isExpiredAt now = false ∧ itemOf v = itemOf u := by
  have same := alike.same key
  cases held : (stored e).present now key with
  | none => exact .inl ⟨present_gone.1 held, present_gone.1 (same.symm.trans held)⟩
  | some item =>
      have there := same.symm.trans held
      rw [present_stored] at held there
      split at held
      · cases held
      · rename_i v found
        split at held
        · cases held
        · rename_i live
          split at there
          · cases there
          · rename_i u found'
            split at there
            · cases there
            · rename_i live'
              refine .inr ⟨v, u, found, Bool.eq_false_of_not_eq_true live, found',
                Bool.eq_false_of_not_eq_true live', ?_⟩
              exact (Option.some.inj held).trans (Option.some.inj there).symm

theorem Alike.gone (alike : Alike now e w) (gone : Gone now e key) : Gone now w key :=
  present_gone.1 ((alike.same key).symm.trans (present_gone.2 gone))

theorem Alike.insert (alike : Alike now e w) (item : itemOf v = itemOf u) :
    Alike now (e.insert key v) (w.insert key u) := by
  refine ⟨alike.unlimited, alike.sequential, fun other => ?_⟩
  rw [stored_insert, stored_insert, present_write, present_write, alike.same, item]

theorem Alike.remove (alike : Alike now e w) : Alike now (e.remove key) (w.remove key) := by
  refine ⟨alike.unlimited, alike.sequential, fun other => ?_⟩
  rw [stored_remove, stored_remove, present_write, present_write, alike.same]

/-- Lazy eviction on the side of the calls. -/
theorem Alike.evicted (alike : Alike now e w) : Alike now (e.removeIfExpired now key) w := by
  refine ⟨?_, alike.sequential, fun other => ?_⟩
  · rw [DashMapEngine.removeIfExpired_maxKeys, alike.unlimited]
  · rw [present_removeIfExpired, alike.same]

/-- Lazy eviction on the side of the sequence. -/
theorem Alike.evicts (alike : Alike now e w) : Alike now e (w.removeIfExpired now key) := by
  refine ⟨alike.unlimited, ?_, fun other => ?_⟩
  · rw [DashMapEngine.removeIfExpired_maxKeys, alike.sequential]
  · rw [present_removeIfExpired, alike.same]

theorem Alike.sweeps (alike : Alike now e w) : Alike now e (w.sweepExpired now) := by
  refine ⟨alike.unlimited, alike.sequential, fun other => ?_⟩
  rw [present_sweepExpired, alike.same]

/-- An expired entry may be taken away. -/
theorem Alike.dropped (alike : Alike now e w) (gone : Gone now e key) : Alike now (e.remove key) w := by
  refine ⟨alike.unlimited, alike.sequential, fun other => ?_⟩
  rw [stored_remove, present_write, ← alike.same]
  split
  · rename_i same
    rw [same, present_gone.2 gone, Option.filter_none]
  · rfl

end Alike

/-! ## The operations where nothing is live -/

section Gone

variable {iter : Iter} {now : Instant} {w : DashMapEngine} {key : Key}

theorem get_gone (gone : Gone now w key) : w.get now key = (.ok none, w.removeIfExpired now key) := by
  unfold DashMapEngine.get
  split
  · rename_i absent
    rw [DashMapEngine.removeIfExpired_absent absent]
  · rename_i v found
    rw [if_pos (gone v found)]

theorem exists_gone (gone : Gone now w key) : w.exists? now key = (false, w.removeIfExpired now key) := by
  unfold DashMapEngine.exists?
  split
  · rename_i absent
    rw [DashMapEngine.removeIfExpired_absent absent]
  · rename_i v found
    rw [if_pos (gone v found)]

theorem ttlSecs_gone (gone : Gone now w key) : w.ttlSecs now key = (-2, w.removeIfExpired now key) := by
  unfold DashMapEngine.ttlSecs
  split
  · rename_i absent
    rw [DashMapEngine.removeIfExpired_absent absent]
  · rename_i v found
    rw [if_pos (gone v found)]

theorem expire_gone (gone : Gone now w key) (seconds : Nat) :
    w.expire now key seconds = (false, w.removeIfExpired now key) := by
  unfold DashMapEngine.expire
  split
  · rename_i absent
    rw [DashMapEngine.removeIfExpired_absent absent]
  · rename_i v found
    rw [if_pos (gone v found)]

theorem del_gone (gone : Gone now w key) : w.del now key = (.ok false, w) := by
  unfold DashMapEngine.del
  split
  · rename_i v found
    rw [gone v found]
    rfl
  · rfl

theorem incr_gone (unlimited : w.maxKeys = 0) (gone : Gone now w key) :
    w.incr iter now key = (.ok 1, w.insert key (ValueEntry.new now (ascii "1"))) := by
  rw [DashMapEngine.incr_unlimited unlimited]
  split
  · rfl
  · rename_i v found
    rw [if_pos (gone v found)]

end Gone

/-! ## Where the effects are -/

/-- A call stands before its effect. -/
inductive Opens : Point → Point → Prop
  | first {p : Point} (operation : p.isOperation = true) : Opens p p
  | insertSet (key : Key) (value : ValueEntry) : Opens (.set key value) (.insert (.set key value))
  | roomIncr (key : Key) : Opens (.incr key) (.room (.incr key))
  | insertIncr (key : Key) : Opens (.incr key) (.insert (.incr key))

/-- Behind its effect a call can only have an expired entry to remove. -/
def Closing : Point → Outcome → Prop
  | .removeIf _ answer, known => answer = known
  | _, _ => False

/-- The section moves the call on in silence, or has its effect. -/
def Moves (iter : Iter) (m : Moment) (e w : DashMapEngine) (p q : Point) : Prop :=
  (∃ q', (callSection q m e).1 = .at q' ∧ Opens p q' ∧ Alike m.later (callSection q m e).2 w) ∨
    ∃ time, (m.now ≤ time ∧ time ≤ m.later) ∧
      Settled Closing (alone iter p time w).1 (callSection q m e).1 ∧
      Alike m.later (callSection q m e).2 (alone iter p time w).2

section Moves

variable {iter : Iter} {m : Moment} {e w : DashMapEngine} {p q : Point} {key : Key}

/-- The test of an entry under its guard, where nothing is live. -/
theorem guarded_gone (answer : Outcome) (onLive : ValueEntry → Outcome × DashMapEngine)
    (gone : Gone m.now e key) : Settled Closing answer (guarded key answer onLive m e).1 ∧
      (guarded key answer onLive m e).2 = e := by
  unfold guarded
  split
  · exact ⟨rfl, rfl⟩
  · rename_i v found
    rw [if_pos (gone v found)]
    exact ⟨rfl, rfl⟩

theorem guarded_live {answer : Outcome} {onLive : ValueEntry → Outcome × DashMapEngine} {v : ValueEntry}
    (found : e.map.lookup key = some v) (live : v.isExpiredAt m.now = false) :
    guarded key answer onLive m e = (.returned (onLive v).1, (onLive v).2) := by
  simp only [guarded, found, live, Bool.false_eq_true, if_false]

/-- A call that tests its key under a guard, from what the operation does in the two cases. -/
theorem moves_guarded {answer : Outcome} {onLive : ValueEntry → Outcome × DashMapEngine} {time : Instant}
    (test : callSection p m e = guarded key answer onLive m e) (between : m.now ≤ time ∧ time ≤ m.later)
    (alike : Alike m.now e w)
    (absent : Gone m.now e key → (alone iter p time w).1 = answer ∧ Alike m.later e (alone iter p time w).2)
    (live : ∀ v u, e.map.lookup key = some v → v.isExpiredAt m.now = false → w.map.lookup key = some u →
      u.isExpiredAt m.now = false → itemOf v = itemOf u →
      (alone iter p time w).1 = (onLive v).1 ∧ Alike m.later (onLive v).2 (alone iter p time w).2) :
    Moves iter m e w p p := by
  refine .inr ⟨time, between, ?_⟩
  rw [test]
  obtain ⟨gone, -⟩ | ⟨v, u, found, here, there, here', item⟩ := alike.view key
  · obtain ⟨outcome, left⟩ := absent gone
    obtain ⟨settled, same⟩ := guarded_gone answer onLive gone
    rw [outcome, same]
    exact ⟨settled, left⟩
  · obtain ⟨outcome, left⟩ := live v u found here there here' item
    rw [guarded_live found here, outcome]
    exact ⟨rfl, left⟩

variable (alike : Alike m.now e w) (forward : m.now ≤ m.later)
include alike forward

theorem get_moves (key : Key) : Moves iter m e w (.get key) (.get key) := by
  refine moves_guarded rfl ⟨Nat.le_refl _, forward⟩ alike ?_ ?_
  · intro gone
    simp only [alone_get, get_gone (alike.gone gone)]
    exact ⟨rfl, (alike.evicts).lasts forward⟩
  · intro v u found live there live' item
    simp only [alone_get, DashMapEngine.get, there, live', Bool.false_eq_true, if_false]
    refine ⟨?_, alike.lasts forward⟩
    rw [item]
    rfl

theorem exists_moves (key : Key) : Moves iter m e w (.exists key) (.exists key) := by
  refine moves_guarded rfl ⟨Nat.le_refl _, forward⟩ alike ?_ ?_
  · intro gone
    simp only [alone_exists, exists_gone (alike.gone gone)]
    exact ⟨trivial, (alike.evicts).lasts forward⟩
  · intro v u found live there live' item
    simp only [alone_exists, DashMapEngine.exists?, there, live', Bool.false_eq_true, if_false]
    exact ⟨trivial, alike.lasts forward⟩

/-- The effect of TTL is placed at its second look at the clock. -/
theorem ttlSecs_moves (key : Key) : Moves iter m e w (.ttlSecs key) (.ttlSecs key) := by
  have behind := alike.lasts forward
  refine moves_guarded rfl ⟨forward, Nat.le_refl _⟩ alike ?_ ?_
  · intro gone
    have gone' : Gone m.later w key := by
      apply present_gone.1
      rw [present_later _ forward, present_gone.2 (alike.gone gone), Option.filter_none]
    simp only [alone_ttlSecs, ttlSecs_gone gone']
    exact ⟨trivial, behind.evicts⟩
  · intro v u found live there live' item
    have expiry : v.expiresAt = u.expiresAt := congrArg Prod.snd item
    cases expires : u.expiresAt with
    | none =>
        have lasts := ValueEntry.isExpiredAt_of_none expires m.later
        simp only [alone_ttlSecs, DashMapEngine.ttlSecs, there, lasts, expires, ttlAt, expiry,
          Bool.false_eq_true, if_false]
        exact ⟨trivial, behind⟩
    | some instant =>
        by_cases past : instant ≤ m.later
        · have gone' : Gone m.later w key := by
            intro other same
            cases there.symm.trans same
            rw [ValueEntry.isExpiredAt, expires]
            exact decide_eq_true past
          simp only [alone_ttlSecs, ttlSecs_gone gone', ttlAt, expiry, expires, past, if_true]
          exact ⟨trivial, behind.evicts⟩
        · have lasts : u.isExpiredAt m.later = false := by
            rw [ValueEntry.isExpiredAt, expires]
            exact decide_eq_false past
          simp only [alone_ttlSecs, DashMapEngine.ttlSecs, there, lasts, expires, ttlAt, expiry,
            past, Bool.false_eq_true, if_false]
          exact ⟨trivial, behind⟩

/-- The effect of EXPIRE is placed at its second look at the clock, when the entry is still live. -/
theorem expire_moves (key : Key) (seconds : Nat) (calm : (Point.expire key seconds).undisturbed m e = true) :
    Moves iter m e w (.expire key seconds) (.expire key seconds) := by
  have behind := alike.lasts forward
  refine moves_guarded rfl ⟨forward, Nat.le_refl _⟩ alike ?_ ?_
  · intro gone
    have gone' : Gone m.later w key := by
      apply present_gone.1
      rw [present_later _ forward, present_gone.2 (alike.gone gone), Option.filter_none]
    simp only [alone_expire, expire_gone gone']
    exact ⟨trivial, behind.evicts⟩
  · intro v u found live there live' item
    have still : v.isExpiredAt m.later = false := by
      rw [Point.undisturbed, found, Option.all_some, live, Bool.false_or] at calm
      simpa using calm
    have still' : u.isExpiredAt m.later = false := by
      have expiry : v.expiresAt = u.expiresAt := congrArg Prod.snd item
      rw [ValueEntry.isExpiredAt, ← expiry]
      exact still
    simp only [alone_expire, DashMapEngine.expire, there, still', Bool.false_eq_true, if_false]
    refine ⟨trivial, behind.insert ?_⟩
    have data : v.data = u.data := congrArg Prod.fst item
    rw [itemOf, itemOf, data]

theorem del_moves (key : Key) : Moves iter m e w (.del key) (.del key) := by
  refine .inr ⟨m.now, ⟨Nat.le_refl _, forward⟩, ?_⟩
  obtain ⟨gone, gone'⟩ | ⟨v, u, found, live, there, live', item⟩ := alike.view key
  · simp only [alone_del, callSection, del_gone gone, del_gone gone']
    exact ⟨rfl, alike.lasts forward⟩
  · simp only [alone_del, callSection, DashMapEngine.del, found, live, there, live',
      Bool.not_false, if_true]
    exact ⟨rfl, alike.remove.lasts forward⟩

/-- The sweep has its effect when it returns; each visit is silent. -/
theorem sweepExpired_moves : Moves iter m e w .sweepExpired .sweepExpired := by
  cases visited : m.visited with
  | some key =>
      refine .inl ⟨.sweepExpired, ?_, .first rfl, ?_⟩
      · simp only [callSection, visited]
      · simp only [callSection, visited]
        exact alike.evicted.lasts forward
  | none =>
      refine .inr ⟨m.now, ⟨Nat.le_refl _, forward⟩, ?_⟩
      simp only [callSection, visited]
      exact ⟨rfl, alike.sweeps.lasts forward⟩

/-- Without a limit a `set` goes on to its insert. -/
theorem set_moves (key : Key) (value : ValueEntry) : Moves iter m e w (.set key value) (.set key value) := by
  have none : ¬(e.maxKeys > 0 ∧ (e.map.lookup key).isNone) := by
    rw [alike.unlimited]
    exact fun limited => absurd limited.1 (Nat.lt_irrefl 0)
  refine .inl ⟨_, ?_, .insertSet key value, ?_⟩
  · simp only [callSection, none, if_false]
  · simp only [callSection, none, if_false]
    exact alike.lasts forward

theorem insertSet_moves (key : Key) (value : ValueEntry) :
    Moves iter m e w (.set key value) (.insert (.set key value)) := by
  refine .inr ⟨m.now, ⟨Nat.le_refl _, forward⟩, ?_⟩
  simp only [alone_set, DashMapEngine.set_unlimited alike.sequential, callSection]
  exact ⟨rfl, (alike.insert rfl).lasts forward⟩

/-- INCR on an expired key takes the entry and goes on; elsewhere it has its effect at once. -/
theorem incr_moves (key : Key) : Moves iter m e w (.incr key) (.incr key) := by
  obtain ⟨gone, gone'⟩ | ⟨v, u, found, live, there, live', item⟩ := alike.view key
  · cases found : e.map.lookup key with
    | none =>
        have unlimited : ¬(e.maxKeys > 0 ∧ m.len ≥ e.maxKeys) := by
          rw [alike.unlimited]
          exact fun limited => absurd limited.1 (Nat.lt_irrefl 0)
        refine .inr ⟨m.now, ⟨Nat.le_refl _, forward⟩, ?_⟩
        simp only [alone_incr, incr_gone alike.sequential gone', callSection, found, unlimited,
          if_false]
        exact ⟨rfl, (alike.insert rfl).lasts forward⟩
    | some v =>
        have old := gone v found
        refine .inl ⟨.room (.incr key), ?_, .roomIncr key, ?_⟩
        · simp only [callSection, found, old, if_true]
        · simp only [callSection, found, old, if_true]
          exact (alike.dropped gone).lasts forward
  · have data : v.data = u.data := congrArg Prod.fst item
    have expiry : v.expiresAt = u.expiresAt := congrArg Prod.snd item
    refine .inr ⟨m.now, ⟨Nat.le_refl _, forward⟩, ?_⟩
    simp only [alone_incr, DashMapEngine.incr_unlimited alike.sequential, callSection, found,
      live, there, live', data, Bool.false_eq_true, if_false]
    cases parsed : parseSigned 64 (fromUtf8Lossy u.data) with
    | none => exact ⟨rfl, alike.lasts forward⟩
    | some val =>
        refine ⟨rfl, (alike.insert ?_).lasts forward⟩
        rw [itemOf, itemOf, expiry]

theorem roomIncr_moves (key : Key) : Moves iter m e w (.incr key) (.room (.incr key)) := by
  have unlimited : ¬(e.maxKeys > 0 ∧ m.len ≥ e.maxKeys) := by
    rw [alike.unlimited]
    exact fun limited => absurd limited.1 (Nat.lt_irrefl 0)
  refine .inl ⟨.insert (.incr key), ?_, .insertIncr key, ?_⟩
  · simp only [callSection, unlimited, if_false]
  · simp only [callSection, unlimited, if_false]
    exact alike.lasts forward

/-- The `1` is the answer of the sequence, where no other call has stored a value since. -/
theorem insertIncr_moves (key : Key) (calm : (Point.insert (.incr key)).undisturbed m e = true) :
    Moves iter m e w (.incr key) (.insert (.incr key)) := by
  have gone : Gone m.now e key := by
    intro v found
    rw [Point.undisturbed, found, Option.all_some] at calm
    exact calm
  refine .inr ⟨m.now, ⟨Nat.le_refl _, forward⟩, ?_⟩
  simp only [alone_incr, incr_gone alike.sequential (alike.gone gone), callSection]
  exact ⟨rfl, (alike.insert rfl).lasts forward⟩

/-- One lemma for each point before the effect. -/
theorem opens_moves (opens : Opens p q) (calm : q.undisturbed m e = true) : Moves iter m e w p q := by
  cases opens with
  | insertSet key value => exact insertSet_moves alike forward key value
  | roomIncr key => exact roomIncr_moves alike forward key
  | insertIncr key => exact insertIncr_moves alike forward key calm
  | first operation =>
      cases p with
      | get key => exact get_moves alike forward key
      | «exists» key => exact exists_moves alike forward key
      | ttlSecs key => exact ttlSecs_moves alike forward key
      | expire key seconds => exact expire_moves alike forward key seconds calm
      | sweepExpired => exact sweepExpired_moves alike forward
      | set key value => exact set_moves alike forward key value
      | del key => exact del_moves alike forward key
      | incr key => exact incr_moves alike forward key
      | clear => cases operation
      | removeIf key answer => cases operation
      | evictOne write => cases operation
      | evict victim write => cases operation
      | room write => cases operation
      | insert write => cases operation

end Moves

theorem engine_effectPoints (iter : Iter) : EffectPoints Moment.now Moment.later callSection (alone iter)
    (fun s t => undisturbed s t = true) Opens Closing Alike where
  lasts := Alike.lasts
  opened := by
    intro s t p q w here calm opens alike forward
    rw [undisturbed, here] at calm
    exact opens_moves alike forward opens calm
  done := by
    intro t q answer e w closing alike forward
    cases q with
    | removeIf key known =>
        cases (closing : known = answer)
        exact ⟨rfl, alike.evicted.lasts forward⟩
    | _ => cases closing

/-- Without a key limit, every interleaving of the calls has the answers of a sequence of
the engine's operations that respects their order in time, and leaves what it leaves. -/
theorem engine_calls_linearizable (iter : Iter) (e : DashMapEngine) (calls : List Point)
    (turns : List (Turn Moment)) (s : CallsState) (unlimited : e.maxKeys = 0)
    (operations : ∀ p ∈ calls, p.isOperation = true) (clocked : Clocked Moment.now Moment.later turns)
    (calm : Along callStep (fun s t => undisturbed s t = true) (opening e calls) turns)
    (reached : run callStep (opening e calls) turns = some s) :
    ∃ effects final, Linearization Moment.now Moment.later (alone iter) e calls turns s.calls effects final ∧
      ∀ now, (∀ t ∈ turns, t.choice.later ≤ now) → ∀ key,
        (stored s.shared).present now key = (stored final).present now key := by
  obtain ⟨effects, final, linear, alike⟩ := (engine_effectPoints iter).linearizable
    (fun p member => Opens.first (operations p member)) (fun _ => ⟨unlimited, unlimited, fun _ => rfl⟩)
    clocked calm reached
  exact ⟨effects, final, linear, fun now behind => (alike now behind).same⟩

/-- The stale read between whose two sections a `set` completes: the read comes first. -/
theorem engine_calls_linearizable_refreshed :
    ∃ s, run callStep (opening staleStore getAndSet) refreshed = some s ∧ ∃ effects final,
      Linearization Moment.now Moment.later (alone .some) staleStore getAndSet refreshed s.calls effects final := by
  have clocked : Clocked Moment.now Moment.later refreshed := ⟨by decide, by decide⟩
  obtain ⟨effects, final, linear, -⟩ := engine_calls_linearizable .some staleStore getAndSet refreshed _ rfl
    (by decide) clocked (by decide +kernel) rfl
  exact ⟨_, rfl, effects, final, linear⟩

/-- FLUSHDB in two visits: in between, `a` is gone and `b`, which was there before it, is not. -/
example :
    (run callStep (opening ((DashMapEngine.new.insert (ascii "a") (.new 0 [])).insert (ascii "b") (.new 0 []))
      [.clear, .exists (ascii "a"), .exists (ascii "b")])
      [⟨0, ⟨1, 1, 0, none, some (ascii "a")⟩⟩, ⟨1, ⟨2, 2, 0, none, none⟩⟩, ⟨2, ⟨3, 3, 0, none, none⟩⟩,
        ⟨0, ⟨4, 4, 0, none, some (ascii "b")⟩⟩, ⟨0, ⟨5, 5, 0, none, none⟩⟩]).map State.calls =
      some [.returned .done, .returned (.flag false), .returned (.flag true)] := by
  rfl

end ZetDb.Storage
