/-
# Storage.ShardWalks -- KEYS, MGET, DBSIZE, FLUSHDB and the sweep among other calls

`keys`, `len`, `clear` and `sweep_expired` pass over the whole map.  DashMap holds the
lock of one shard at a time, so each shard is taken at one moment, and between two
shards any section of any other call may go on (`Storage.LazyEviction`).  There is no
moment at which such an operation sees the map as a whole.  A walk that nothing
interrupts is the operation of the engine (`keys_alone`, `mget_alone`, `len_alone`,
`clear_alone`, `sweep_alone`).

What it sees among other calls:

* `keys_lists`: KEYS lists no key twice, every key was there when its shard was
  visited, and a key that is there all the time is listed.
* `mget_reads`: MGET looks its keys up one by one; its answers are the values the keys
  have at moments that follow each other.
* `dbsize_between`: DBSIZE is at least the number of keys that are stored all the time
  and at most the number of keys that are stored at some time.
* `flush_leaves`: a key that is stored when FLUSHDB is over was brought back by another
  call behind the visit of its shard.
* `sweep_leaves`: so was an entry that was out of date when the sweep began.
-/
import ZetDb.Storage.LazyEviction
import ZetDb.Storage.ShardLocks
import ZetDb.Storage.KeyLimit
import ZetDb.Theory.Walks

namespace ZetDb.Storage

set_option autoImplicit false

open ZetDb.Theory.Wire ZetDb.Theory.Text ZetDb.Theory.Runs ZetDb.Theory.Calls ZetDb.Domain
open ZetDb.Theory.Walks (Walk)

section Shards

variable {S : Type} [DecidableEq S] (d : Sharding S)

/-- The entries of one shard. -/
def onShard (x : S) (m : Store) : Store := m.retain fun entry => d.shard entry.1 = x

theorem lookup_onShard (x : S) (m : Store) (key : Key) :
    (onShard d x m).lookup key = if d.shard key = x then m.lookup key else none := by
  rw [onShard, lookup_retain]
  by_cases here : d.shard key = x <;> cases m.lookup key <;> simp [here, Option.filter_some]

/-! ## The visits of a shard -/

/-- The clock was read when the call began; the order of a shard is the map's. -/
def keysVisit (now : Instant) (iter : Iter) (x : S) (s : CallsState) (keys : List Key) : CallsState × List Key :=
  (s, keys ++ ((iter.list (onShard d x s.shared.map)).filter fun entry => !entry.2.isExpiredAt now).map Sigma.fst)

def lenVisit (_ : Unit) (x : S) (s : CallsState) (n : Nat) : CallsState × Nat :=
  (s, n + (onShard d x s.shared.map).entries.card)

/-- `retain` on one shard. -/
def retainVisit (keep : Entry → Bool) (x : S) (s : CallsState) : CallsState :=
  { s with shared :=
      { s.shared with map := s.shared.map.retain fun entry => !decide (d.shard entry.1 = x) || keep entry } }

def clearVisit (_ : Unit) (x : S) (s : CallsState) (_ : Unit) : CallsState × Unit :=
  (retainVisit d (fun _ => false) x s, ())

/-- Every entry is tested at a reading of the clock of its own. -/
def sweepVisit (clock : Key → Instant) (x : S) (s : CallsState) (_ : Unit) : CallsState × Unit :=
  (retainVisit d (fun entry => !entry.2.isExpiredAt (clock entry.1)) x s, ())

theorem lookup_retainVisit (keep : Entry → Bool) (x : S) (s : CallsState) (key : Key) :
    (retainVisit d keep x s).shared.map.lookup key =
      (s.shared.map.lookup key).filter fun v => !decide (d.shard key = x) || keep ⟨key, v⟩ :=
  lookup_retain _ _ _

/-- `retain`, shard by shard. -/
theorem retain_alone (keep : Entry → Bool) (s : CallsState) (shards : List S) (key : Key) :
    ((shards.foldl (fun (p : CallsState × Unit) x => (retainVisit d keep x p.1, ())) (s, ())).1.shared.map.lookup
      key) = (s.shared.map.lookup key).filter fun v => !decide (d.shard key ∈ shards) || keep ⟨key, v⟩ := by
  induction shards generalizing s with
  | nil =>
      rw [List.foldl_nil]
      cases s.shared.map.lookup key <;> simp [Option.filter_some]
  | cons x shards ih =>
      rw [List.foldl_cons, ih, lookup_retainVisit, Option.filter_filter]
      congr 1
      funext v
      cases keep ⟨key, v⟩ <;> simp

theorem retain_alone_maxKeys (keep : Entry → Bool) (s : CallsState) (shards : List S) :
    (shards.foldl (fun (p : CallsState × Unit) x => (retainVisit d keep x p.1, ())) (s, ())).1.shared.maxKeys =
      s.shared.maxKeys := by
  induction shards generalizing s with
  | nil => rfl
  | cons x shards ih => exact ih (retainVisit d keep x s)

/-! ## KEYS -/

section Keys

variable (now : Instant)

abbrev keysStep := Theory.Walks.step callStep (keysVisit d now)

/-- The call has read the clock. -/
def keysCall (s : CallsState) : Walk CallsState S (List Key) := ⟨s, d.shards, []⟩

/-- The key is stored, and not expired at the call's reading of the clock. -/
def There (s : CallsState) (key : Key) : Prop := (s.shared.live now key).isSome = true

variable {now} in
theorem mem_keys {iter : Iter} {e : DashMapEngine} {key : Key} :
    key ∈ e.keys iter now ↔ (e.live now key).isSome = true := by
  rw [Option.isSome_iff_exists]
  constructor
  · intro inside
    obtain ⟨⟨k, v⟩, member, rfl⟩ := List.mem_map.1 inside
    obtain ⟨held, alive⟩ := List.mem_filter.1 member
    exact ⟨v, live_eq_some.2 ⟨(mem_iter_list iter e ⟨k, v⟩).1 held, by simpa using alive⟩⟩
  · rintro ⟨v, live⟩
    obtain ⟨found, alive⟩ := live_eq_some.1 live
    refine List.mem_map.2 ⟨⟨key, v⟩, List.mem_filter.2 ⟨?_, by simpa using alive⟩, rfl⟩
    exact (mem_iter_list iter e ⟨key, v⟩).2 found

/-- The engine lists a key once. -/
theorem nodup_keys (iter : Iter) (e : DashMapEngine) : (e.keys iter now).Nodup := by
  have nodup := e.map.nodupKeys
  rw [← iter.lists] at nodup
  exact List.Nodup.sublist (List.filter_sublist.map Sigma.fst) nodup

/-- The engine of one shard. -/
def shardEngine (x : S) (s : CallsState) : DashMapEngine := { s.shared with map := onShard d x s.shared.map }

theorem keysVisit_eq (iter : Iter) (x : S) (s : CallsState) (keys : List Key) :
    keysVisit d now iter x s keys = (s, keys ++ (shardEngine d x s).keys iter now) := rfl

theorem mem_keysVisit (iter : Iter) (x : S) (s : CallsState) (keys : List Key) (key : Key) :
    key ∈ (keysVisit d now iter x s keys).2 ↔ key ∈ keys ∨ d.shard key = x ∧ There now s key := by
  have part : (shardEngine d x s).live now key = if d.shard key = x then s.shared.live now key else none := by
    unfold DashMapEngine.live
    show ((onShard d x s.shared.map).lookup key).filter _ = _
    rw [lookup_onShard]
    split <;> rfl
  rw [keysVisit_eq, List.mem_append, mem_keys, part, There]
  by_cases here : d.shard key = x <;> simp [here]

/-- The keys of a shard are listed once. -/
theorem nodup_keysVisit (iter : Iter) (x : S) {s : CallsState} {keys : List Key} (once : keys.Nodup)
    (elsewhere : ∀ key ∈ keys, d.shard key ≠ x) : (keysVisit d now iter x s keys).2.Nodup := by
  rw [keysVisit_eq]
  refine once.append (nodup_keys now iter _) ?_
  intro key early late
  have both := (mem_keysVisit d now iter x s [] key).1 late
  rcases both with none | ⟨here, -⟩
  · cases none
  · exact elsewhere key early here

/-- The visits of some shards, one after the other: the keys that are there are added. -/
theorem keysVisits (iter : Iter) (s : CallsState) (shards : List S) (keys : List Key) (parts : shards.Nodup)
    (once : keys.Nodup) (behind : ∀ key ∈ keys, d.shard key ∉ shards) :
    ∃ listed, shards.foldl (fun p x => keysVisit d now iter x p.1 p.2) (s, keys) = (s, listed) ∧ listed.Nodup ∧
      ∀ key, key ∈ listed ↔ key ∈ keys ∨ d.shard key ∈ shards ∧ There now s key := by
  induction shards generalizing keys with
  | nil => exact ⟨keys, rfl, once, by simp⟩
  | cons x shards ih =>
      obtain ⟨new, parts⟩ := List.nodup_cons.1 parts
      have elsewhere : ∀ key ∈ keys, d.shard key ≠ x := fun key inside same =>
        behind key inside (same ▸ List.mem_cons_self)
      have later : ∀ key ∈ (keysVisit d now iter x s keys).2, d.shard key ∉ shards := by
        intro key inside
        rcases (mem_keysVisit d now iter x s keys key).1 inside with old | ⟨rfl, -⟩
        · exact fun ahead => behind key old (List.mem_cons_of_mem x ahead)
        · exact new
      obtain ⟨listed, all, nodup, mem⟩ := ih (keysVisit d now iter x s keys).2 parts
        (nodup_keysVisit d now iter x once elsewhere) later
      refine ⟨listed, all, nodup, fun key => ?_⟩
      rw [mem, mem_keysVisit, List.mem_cons]
      tauto

/-- Alone, KEYS lists the keys of the engine. -/
theorem keys_alone (distinct : d.shards.Nodup) (iter : Iter) (s : CallsState) :
    ∃ w, run (keysStep d now) (keysCall d s) (d.shards.map fun _ => .visit iter) = some w ∧ w.left = [] ∧
      w.state = s ∧ w.seen.Perm (s.shared.keys iter now) := by
  obtain ⟨listed, all, nodup, mem⟩ :=
    keysVisits d now iter s d.shards [] distinct List.nodup_nil (List.forall_mem_nil _)
  refine ⟨_, Theory.Walks.run_visits iter s d.shards [], rfl, congrArg Prod.fst all, ?_⟩
  rw [all]
  refine (List.perm_ext_iff_of_nodup nodup (nodup_keys now iter s.shared)).2 fun key => ?_
  rw [mem, mem_keys]
  simp [d.covers key, There]

/-- What KEYS returns, in any interleaving. -/
theorem keys_lists (d : Sharding S) (distinct : d.shards.Nodup) (now : Instant) (s : CallsState)
    (events : List (Theory.Walks.Event (Turn Moment) Iter)) (w : Walk CallsState S (List Key))
    (reached : run (keysStep d now) (keysCall d s) events = some w) (done : w.left = []) :
    w.seen.Nodup ∧
      (∀ key ∈ w.seen, ∃ first iter rest mid, events = first ++ .visit iter :: rest ∧
        run (keysStep d now) (keysCall d s) first = some mid ∧ There now mid.state key) ∧
      ∀ key, Along (keysStep d now) (fun w _ => There now w.state key) (keysCall d s) events → key ∈ w.seen := by
  refine ⟨?_, ?_, ?_⟩
  · have once : w.seen.Nodup ∧ w.left.Nodup ∧ ∀ key ∈ w.seen, d.shard key ∉ w.left := by
      refine run_invariant (P := fun _ _ => True)
        (I := fun w => w.seen.Nodup ∧ w.left.Nodup ∧ ∀ key ∈ w.seen, d.shard key ∉ w.left) ?_
        ⟨List.nodup_nil, distinct, List.forall_mem_nil _⟩ (.of_forall (fun _ _ => trivial) _ _) reached
      intro w ev next good _ taken
      obtain ⟨once, parts, behind⟩ := good
      cases ev with
      | move t =>
          obtain ⟨s, -, rfl⟩ := Theory.Walks.step_move taken
          exact ⟨once, parts, behind⟩
      | visit iter =>
          obtain ⟨x, left, split, rfl⟩ := Theory.Walks.step_visit taken
          rw [split] at parts behind
          refine ⟨?_, parts.of_cons, ?_⟩
          · apply nodup_keysVisit d now iter x once
            intro key inside same
            exact behind key inside (same ▸ List.mem_cons_self)
          · intro key inside
            rcases (mem_keysVisit d now iter x w.state w.seen key).1 inside with old | ⟨here, -⟩
            · exact fun later => behind key old (List.mem_cons_of_mem x later)
            · rw [here]
              exact (List.nodup_cons.1 parts).1
    exact once.1
  · intro key inside
    obtain ⟨first, iter, rest, mid, x, left, split, there, -, before, after⟩ :=
      Theory.Walks.seen_at (fun keys => key ∈ keys) List.not_mem_nil reached inside
    rcases (mem_keysVisit d now iter x mid.state mid.seen key).1 after with old | ⟨-, held⟩
    · exact absurd old before
    · exact ⟨first, iter, rest, mid, split, there, held⟩
  · intro key always
    refine Theory.Walks.passed_all (I := fun w => key ∈ w.seen) ?_ ?_ ?_ (d.covers key) always reached done
    · intro w iter left _ held
      exact (mem_keysVisit d now iter _ w.state w.seen key).2 (.inr ⟨rfl, held⟩)
    · intro w iter y left inside _ _
      exact (mem_keysVisit d now iter y w.state w.seen key).2 (.inl inside)
    · intro w t s inside _ _ _
      exact inside

end Keys

/-! ## MGET -/

section Mget

variable (now : Instant)

/-- The parts of MGET are its keys; the clock was read when the call began. -/
def mgetVisit (_ : Unit) (key : Key) (s : CallsState) (seen : List (Option ValueEntry)) :
    CallsState × List (Option ValueEntry) :=
  (s, seen ++ [s.shared.live now key])

abbrev mgetStep := Theory.Walks.step callStep (mgetVisit now)

def mgetCall (keys : List Key) (s : CallsState) : Walk CallsState Key (List (Option ValueEntry)) := ⟨s, keys, []⟩

/-- Alone, MGET answers as the engine does. -/
theorem mget_alone (keys : List Key) (s : CallsState) :
    ∃ w, run (mgetStep now) (mgetCall keys s) (keys.map fun _ => .visit ()) = some w ∧ w.left = [] ∧
      w.state = s ∧ w.seen = s.shared.mget now keys := by
  have one (key : Key) : (s.shared.map.lookup key).bind (fun v => if v.isExpiredAt now then none else some v) =
      s.shared.live now key := by
    unfold DashMapEngine.live
    cases s.shared.map.lookup key with
    | none => rfl
    | some v => cases old : v.isExpiredAt now <;> simp [old, Option.filter_some]
  have passes (seen : List (Option ValueEntry)) :
      keys.foldl (fun p key => mgetVisit now () key p.1 p.2) (s, seen) = (s, seen ++ s.shared.mget now keys) := by
    induction keys generalizing seen with
    | nil => exact Prod.ext rfl (List.append_nil seen).symm
    | cons key keys ih =>
        rw [List.foldl_cons]
        refine (ih (seen ++ [s.shared.live now key])).trans ?_
        rw [List.append_assoc, DashMapEngine.mget, DashMapEngine.mget, List.map_cons, one]
        rfl
  exact ⟨_, Theory.Walks.run_visits () s keys [], rfl, congrArg Prod.fst (passes []), congrArg Prod.snd (passes [])⟩

/-- What MGET returns, in any interleaving. -/
theorem mget_reads (keys : List Key) (s : CallsState) (events : List (Theory.Walks.Event (Turn Moment) Unit))
    (w : Walk CallsState Key (List (Option ValueEntry)))
    (reached : run (mgetStep now) (mgetCall keys s) events = some w) (done : w.left = []) :
    ∃ moments : List CallsState,
      moments.Sublist (Theory.Walks.states callStep (mgetVisit now) (mgetCall keys s) events) ∧
        moments.length = keys.length ∧ w.seen = List.zipWith (fun key s => s.shared.live now key) keys moments := by
  obtain ⟨parts, moments, split, during, lengths, seen⟩ :=
    Theory.Walks.looked (fun key (s : CallsState) => s.shared.live now key) (fun _ _ _ _ => rfl) reached
  rw [done, List.append_nil] at split
  cases split
  exact ⟨moments, during, lengths, seen⟩

end Mget

/-! ## FLUSHDB and the sweep -/

section Retain

abbrev clearStep := Theory.Walks.step callStep (clearVisit d)
abbrev sweepStep := Theory.Walks.step callStep (sweepVisit d)

/-- A call that gathers nothing. -/
def retainCall (s : CallsState) : Walk CallsState S Unit := ⟨s, d.shards, ()⟩

/-- Alone, FLUSHDB clears the engine. -/
theorem clear_alone (s : CallsState) :
    ∃ w, run (clearStep d) (retainCall d s) (d.shards.map fun _ => .visit ()) = some w ∧ w.left = [] ∧
      w.state.shared = s.shared.clear := by
  refine ⟨_, Theory.Walks.run_visits () s d.shards (), rfl, ?_⟩
  refine DashMapEngine.ext_lookup (retain_alone_maxKeys d _ s d.shards) fun key => ?_
  refine (retain_alone d _ s d.shards key).trans ?_
  rw [decide_eq_true (d.covers key)]
  cases s.shared.map.lookup key <;> rfl

/-- Alone, and with one reading of the clock, the sweep is the engine's. -/
theorem sweep_alone (now : Instant) (s : CallsState) :
    ∃ w, run (sweepStep d) (retainCall d s) (d.shards.map fun _ => .visit fun _ => now) = some w ∧ w.left = [] ∧
      w.state.shared = s.shared.sweepExpired now := by
  refine ⟨_, Theory.Walks.run_visits (fun _ => now) s d.shards (), rfl, ?_⟩
  refine DashMapEngine.ext_lookup (retain_alone_maxKeys d _ s d.shards) fun key => ?_
  refine (retain_alone d _ s d.shards key).trans ?_
  rw [decide_eq_true (d.covers key), DashMapEngine.sweepExpired, lookup_retain]
  rfl

def IsStored (key : Key) (s : CallsState) : Prop := (s.shared.map.lookup key).isSome = true

/-- Stored, and out of date at an instant. -/
def Outdated (at₀ : Instant) (key : Key) (s : CallsState) : Prop :=
  ∃ v, s.shared.map.lookup key = some v ∧ v.isExpiredAt at₀ = true

theorem isExpiredAt_mono {v : ValueEntry} {a b : Instant} (le : a ≤ b) (old : v.isExpiredAt a = true) :
    v.isExpiredAt b = true := by
  unfold ValueEntry.isExpiredAt at old ⊢
  cases expires : v.expiresAt with
  | none =>
      rw [expires] at old
      cases old
  | some expiry =>
      simp only [expires, decide_eq_true_eq] at old ⊢
      exact Nat.le_trans old le

/-- What is left behind FLUSHDB, in any interleaving. -/
theorem flush_leaves (s : CallsState) (events : List (Theory.Walks.Event (Turn Moment) Unit))
    (w : Walk CallsState S Unit) (reached : run (clearStep d) (retainCall d s) events = some w) (done : w.left = [])
    (key : Key) (stored : IsStored key w.state) :
    ∃ first t rest mid s', events = first ++ .move t :: rest ∧
      run (clearStep d) (retainCall d s) first = some mid ∧ d.shard key ∉ mid.left ∧
      callStep mid.state t = some s' ∧ ¬IsStored key mid.state ∧ IsStored key s' := by
  refine Theory.Walks.moved_since (IsStored key) (fun _ => True) ?_ ?_ (fun _ _ => trivial)
    (d.covers key) reached done stored
  · intro c s b _
    simp [IsStored, clearVisit, lookup_retainVisit]
  · intro c y s b gone
    unfold IsStored clearVisit
    rw [lookup_retainVisit, Option.not_isSome_iff_eq_none.1 gone]
    exact Bool.false_ne_true

/-- What is left behind a sweep, in any interleaving. -/
theorem sweep_leaves (s : CallsState) (events : List (Theory.Walks.Event (Turn Moment) (Key → Instant)))
    (w : Walk CallsState S Unit) (reached : run (sweepStep d) (retainCall d s) events = some w) (done : w.left = [])
    (began : Instant) (clock : ∀ c, .visit c ∈ events → ∀ key, began ≤ c key) (key : Key)
    (outdated : Outdated began key w.state) :
    ∃ first t rest mid s', events = first ++ .move t :: rest ∧
      run (sweepStep d) (retainCall d s) first = some mid ∧ d.shard key ∉ mid.left ∧
      callStep mid.state t = some s' ∧ ¬Outdated began key mid.state ∧ Outdated began key s' := by
  refine Theory.Walks.moved_since (Outdated began key) (fun c => ∀ key, began ≤ c key) ?_ ?_ clock
    (d.covers key) reached done outdated
  · rintro c s b forward ⟨v, found, old⟩
    rw [sweepVisit, lookup_retainVisit] at found
    have kept := (Option.filter_eq_some_iff.1 found).2
    simp [isExpiredAt_mono (forward key) old] at kept
  · rintro c y s b fresh ⟨v, found, old⟩
    rw [sweepVisit, lookup_retainVisit] at found
    exact fresh ⟨v, (Option.filter_eq_some_iff.1 found).1, old⟩

end Retain

/-! ## DBSIZE -/

section Len

abbrev lenStep := Theory.Walks.step callStep (lenVisit d)

def lenCall (s : CallsState) : Walk CallsState S Nat := ⟨s, d.shards, 0⟩

/-- The keys of the shards that are passed. -/
def passedKeys (left : List S) (keys : Finset Key) : Finset Key := keys.filter fun key => d.shard key ∉ left

theorem card_onShard (x : S) (m : Store) :
    (onShard d x m).entries.card = (m.keys.filter fun key => d.shard key = x).card := by
  have keys : (onShard d x m).keys = m.keys.filter fun key => d.shard key = x := by
    apply Finset.ext
    intro key
    rw [Finset.mem_filter, mem_keys_iff ⟨onShard d x m, 0⟩, mem_keys_iff ⟨m, 0⟩, lookup_onShard]
    by_cases here : d.shard key = x <;> simp [here]
  rw [← keys]
  exact len_eq_card ⟨onShard d x m, 0⟩

/-- One shard more is passed. -/
theorem card_passedKeys {x : S} {left : List S} (new : x ∉ left) (keys : Finset Key) :
    (passedKeys d left keys).card = (passedKeys d (x :: left) keys).card +
      (keys.filter fun key => d.shard key = x).card := by
  have split : passedKeys d left keys = passedKeys d (x :: left) keys ∪ keys.filter fun key => d.shard key = x := by
    apply Finset.ext
    intro key
    simp only [passedKeys, Finset.mem_union, Finset.mem_filter, List.mem_cons, not_or]
    by_cases here : d.shard key = x
    · simp [here, new]
    · simp [here]
  rw [split]
  apply Finset.card_union_of_disjoint
  rw [Finset.disjoint_left]
  intro key early late
  have behind := (Finset.mem_filter.1 early).2
  rw [(Finset.mem_filter.1 late).2] at behind
  exact behind List.mem_cons_self

theorem passedKeys_start (keys : Finset Key) : passedKeys d d.shards keys = ∅ := by
  apply Finset.filter_eq_empty_iff.2
  intro key _
  exact not_not.2 (d.covers key)

theorem passedKeys_done (keys : Finset Key) : passedKeys d [] keys = keys :=
  Finset.filter_true_of_mem fun _ _ => List.not_mem_nil

/-- Alone, DBSIZE counts the entries of the engine. -/
theorem len_alone (distinct : d.shards.Nodup) (s : CallsState) :
    ∃ w, run (lenStep d) (lenCall d s) (d.shards.map fun _ => .visit ()) = some w ∧ w.left = [] ∧
      w.state = s ∧ w.seen = s.shared.len := by
  have passes (shards : List S) (parts : shards.Nodup) :
      shards.foldl (fun p x => lenVisit d () x p.1 p.2) (s, (passedKeys d shards s.shared.map.keys).card) =
        (s, s.shared.len) := by
    induction shards with
    | nil => rw [List.foldl_nil, passedKeys_done, len_eq_card]
    | cons x shards ih =>
        obtain ⟨new, parts⟩ := List.nodup_cons.1 parts
        rw [List.foldl_cons, ← ih parts, card_passedKeys d new, ← card_onShard]
        rfl
  have all := passes d.shards distinct
  rw [passedKeys_start, Finset.card_empty] at all
  exact ⟨_, Theory.Walks.run_visits () s d.shards 0, rfl, congrArg Prod.fst all, congrArg Prod.snd all⟩

/-- What DBSIZE returns, in any interleaving. -/
theorem dbsize_between (d : Sharding S) (distinct : d.shards.Nodup) (s : CallsState)
    (events : List (Theory.Walks.Event (Turn Moment) Unit)) (w : Walk CallsState S Nat)
    (reached : run (lenStep d) (lenCall d s) events = some w) (done : w.left = []) (always ever : Finset Key)
    (stay : Along (lenStep d) (fun w _ => ∀ key ∈ always, IsStored key w.state) (lenCall d s) events)
    (come : Along (lenStep d) (fun w _ => ∀ key, IsStored key w.state → key ∈ ever) (lenCall d s) events) :
    always.card ≤ w.seen ∧ w.seen ≤ ever.card := by
  have between : w.left.Nodup ∧ (passedKeys d w.left always).card ≤ w.seen ∧
      w.seen ≤ (passedKeys d w.left ever).card := by
    refine run_invariant (I := fun w : Walk CallsState S Nat => w.left.Nodup ∧
      (passedKeys d w.left always).card ≤ w.seen ∧ w.seen ≤ (passedKeys d w.left ever).card) ?_ ?_
      (stay.and come) reached
    · intro w ev next good here taken
      obtain ⟨parts, least, most⟩ := good
      obtain ⟨stored, among⟩ := here
      cases ev with
      | move t =>
          obtain ⟨s, -, rfl⟩ := Theory.Walks.step_move taken
          exact ⟨parts, least, most⟩
      | visit c =>
          obtain ⟨x, left, split, rfl⟩ := Theory.Walks.step_visit taken
          rw [split] at parts least most
          have new := (List.nodup_cons.1 parts).1
          have fewer : (always.filter fun key => d.shard key = x).card ≤
              (onShard d x w.state.shared.map).entries.card := by
            rw [card_onShard]
            apply Finset.card_le_card
            apply Finset.filter_subset_filter
            intro key inside
            exact (mem_keys_iff w.state.shared key).2 (stored key inside)
          have more : (onShard d x w.state.shared.map).entries.card ≤
              (ever.filter fun key => d.shard key = x).card := by
            rw [card_onShard]
            apply Finset.card_le_card
            apply Finset.filter_subset_filter
            intro key inside
            exact among key ((mem_keys_iff w.state.shared key).1 inside)
          refine ⟨parts.of_cons, ?_, ?_⟩
          · show (passedKeys d left always).card ≤ w.seen + _
            rw [card_passedKeys d new]
            exact Nat.add_le_add least fewer
          · show w.seen + _ ≤ (passedKeys d left ever).card
            rw [card_passedKeys d new]
            exact Nat.add_le_add most more
    · refine ⟨distinct, ?_, Nat.zero_le _⟩
      show (passedKeys d d.shards always).card ≤ 0
      rw [passedKeys_start]
      exact Nat.le_refl 0
  rw [done, passedKeys_done, passedKeys_done] at between
  exact between.2

end Len

end Shards

/-! ## Runs -/

def anyMoment : Moment := ⟨5, 5, 0, none, none⟩

/-- `k` is stored, and a SET of a key is called. -/
def besideSet (key : Key) (value : ValueEntry) : CallsState :=
  ⟨DashMapEngine.new.insert (ascii "k") ⟨ascii "v", none, some 0⟩, [.at (.set key value)]⟩

/-- The SET tests the key, the shard is visited, and the SET inserts. -/
def around {χ : Type} (c : χ) : List (Theory.Walks.Event (Turn Moment) χ) :=
  [.move ⟨0, anyMoment⟩, .visit c, .move ⟨0, anyMoment⟩]

theorem keys_lists_around :
    ∃ w, run (keysStep oneShard 5) (keysCall oneShard (besideSet (ascii "l") (.new 5 (ascii "w")))) (around Iter.some) =
      some w ∧ ascii "k" ∈ w.seen := by
  have reached : run (keysStep oneShard 5) (keysCall oneShard (besideSet (ascii "l") (.new 5 (ascii "w"))))
      (around Iter.some) = some _ := rfl
  refine ⟨_, reached, (keys_lists oneShard (by decide) 5 _ _ _ reached rfl).2.2 (ascii "k") ?_⟩
  exact .cons rfl rfl (.cons rfl rfl (.cons rfl rfl trivial))

/-- The same key twice, before the SET of it is over and behind it. -/
theorem mget_reads_around :
    ∃ w, run (mgetStep 5) (mgetCall [ascii "l", ascii "l"] (besideSet (ascii "l") (.new 5 (ascii "w"))))
        (around () ++ [.visit ()]) = some w ∧
      ∃ moments : List CallsState,
        moments.Sublist (Theory.Walks.states callStep (mgetVisit 5)
          (mgetCall [ascii "l", ascii "l"] (besideSet (ascii "l") (.new 5 (ascii "w")))) (around () ++ [.visit ()])) ∧
        moments.length = 2 ∧
        w.seen = List.zipWith (fun key s => s.shared.live 5 key) [ascii "l", ascii "l"] moments := by
  have reached : run (mgetStep 5) (mgetCall [ascii "l", ascii "l"] (besideSet (ascii "l") (.new 5 (ascii "w"))))
      (around () ++ [.visit ()]) = some _ := rfl
  exact ⟨_, reached, mget_reads 5 _ _ _ _ reached rfl⟩

/-- The SET inserts its key behind the visit. -/
theorem dbsize_between_around :
    ∃ w, run (lenStep oneShard) (lenCall oneShard (besideSet (ascii "l") (.new 5 (ascii "w")))) (around ()) = some w ∧
      1 ≤ w.seen ∧ w.seen ≤ 1 := by
  let e : DashMapEngine := DashMapEngine.new.insert (ascii "k") ⟨ascii "v", none, some 0⟩
  have reached :
      run (lenStep oneShard) (lenCall oneShard (besideSet (ascii "l") (.new 5 (ascii "w")))) (around ()) = some _ := rfl
  have held (key : Key) (inside : key ∈ e.map.keys) : (e.map.lookup key).isSome = true :=
    (mem_keys_iff e key).1 inside
  have listed (key : Key) (stored : (e.map.lookup key).isSome = true) : key ∈ e.map.keys :=
    (mem_keys_iff e key).2 stored
  refine ⟨_, reached, dbsize_between oneShard (by decide) _ _ _ reached rfl e.map.keys e.map.keys ?_ ?_⟩
  · exact .cons rfl held (.cons rfl held (.cons rfl held trivial))
  · exact .cons rfl listed (.cons rfl listed (.cons rfl listed trivial))

/-- FLUSHDB passes while the SET is on its way. -/
theorem flush_leaves_around :
    ∃ w, run (clearStep oneShard) (retainCall oneShard (besideSet (ascii "l") (.new 5 (ascii "w")))) (around ()) =
      some w ∧ ∃ first t rest mid s', around () = first ++ .move t :: rest ∧
        run (clearStep oneShard) (retainCall oneShard (besideSet (ascii "l") (.new 5 (ascii "w")))) first = some mid ∧
        oneShard.shard (ascii "l") ∉ mid.left ∧ callStep mid.state t = some s' ∧
        ¬IsStored (ascii "l") mid.state ∧ IsStored (ascii "l") s' := by
  have reached : run (clearStep oneShard) (retainCall oneShard (besideSet (ascii "l") (.new 5 (ascii "w")))) (around ()) =
      some _ := rfl
  exact ⟨_, reached, flush_leaves oneShard _ _ _ reached rfl (ascii "l") rfl⟩

/-- The value of the SET was made long ago. -/
theorem sweep_leaves_around :
    ∃ w, run (sweepStep oneShard) (retainCall oneShard (besideSet (ascii "l") (.withTtl 1 (ascii "w") 2)))
        (around fun _ => 5) = some w ∧
      ∃ first t rest mid s', (around fun _ => 5) = first ++ .move t :: rest ∧
        run (sweepStep oneShard) (retainCall oneShard (besideSet (ascii "l") (.withTtl 1 (ascii "w") 2))) first =
          some mid ∧
        oneShard.shard (ascii "l") ∉ mid.left ∧ callStep mid.state t = some s' ∧
        ¬Outdated 5 (ascii "l") mid.state ∧ Outdated 5 (ascii "l") s' := by
  have reached : run (sweepStep oneShard) (retainCall oneShard (besideSet (ascii "l") (.withTtl 1 (ascii "w") 2)))
      (around fun _ => 5) = some _ := rfl
  refine ⟨_, reached, sweep_leaves oneShard _ _ _ reached rfl 5 ?_ (ascii "l") ⟨_, rfl, by decide⟩⟩
  intro c inside key
  have same : c = fun _ => 5 := by simpa [around] using inside
  rw [same]

end ZetDb.Storage
