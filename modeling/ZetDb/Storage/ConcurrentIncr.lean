/-
# Storage.ConcurrentIncr -- INCR calls on one key, interleaved

`incr` holds the entry's guard while it adds to a live integer or fills a vacant
entry.  On an expired entry it does not: `occ.remove()` ends the guard, and the
`insert` of `"1"` that follows is a second map operation.  A call that takes the
entry in between finds it vacant, stores `"1"` and returns `1`, and the first call
then stores `"1"` over it and returns `1` as well.

`incr_counts_calls_iff`: nothing else goes wrong.  In a run of calls on one key in
which every call returns, the counter ends at the number of the calls and the
returned values are distinct exactly when no call takes the entry between the two
operations of another.

The key limit is off here: the checks of `max_keys` are then no map operations.
-/
import ZetDb.Storage.Engine
import ZetDb.Theory.Calls

namespace ZetDb.Storage

set_option autoImplicit false

open ZetDb.Theory.Wire ZetDb.Theory.Text ZetDb.Theory.Runs ZetDb.Theory.Calls ZetDb.Domain

/-! ## The sections of a call -/

/-- `entry`: before the entry is taken.  `insert`: an expired entry has been removed
and its guard is gone. -/
inductive IncrPoint where
  | entry
  | insert
  deriving DecidableEq, Repr

abbrev IncrProgress := Progress IncrPoint (Except EngineError Int)

def incrSection (key : Key) : IncrPoint → Instant → DashMapEngine → IncrProgress × DashMapEngine
  | .entry, now, e =>
      match e.map.lookup key with
      | some v =>
          if v.isExpiredAt now then (.at .insert, e.remove key)
          else
            match parseSigned 64 (fromUtf8Lossy v.data) with
            | none => (.returned (.error (.notAnInteger key)), e)
            | some val =>
                let newVal := Int.bmod (val + 1) (2 ^ 64)
                (.returned (.ok newVal), e.insert key { v with data := decimalInt newVal })
      | none => (.returned (.ok 1), e.insert key (ValueEntry.new now (ascii "1")))
  | .insert, now, e => (.returned (.ok 1), e.insert key (ValueEntry.new now (ascii "1")))

abbrev IncrState := State DashMapEngine IncrPoint (Except EngineError Int)

abbrev incrStep (key : Key) : IncrState → Turn Instant → Option IncrState := step (incrSection key)

/-- A call that nothing interrupts is `incr`. -/
theorem incr_alone {e : DashMapEngine} (unlimited : e.maxKeys = 0) (iter : Iter) (now : Instant)
    (key : Key) :
    ∃ turns : List (Turn Instant), (∀ t ∈ turns, t.choice = now) ∧
      run (incrStep key) (start e .entry 1) turns =
        some ⟨(e.incr iter now key).2, [.returned (e.incr iter now key).1]⟩ := by
  cases found : e.map.lookup key with
  | none =>
      refine ⟨[⟨0, now⟩], by simp, ?_⟩
      simp [incrStep, step, start, incrSection, DashMapEngine.incr, found, unlimited]
  | some v =>
      cases expired : v.isExpiredAt now with
      | true =>
          refine ⟨[⟨0, now⟩, ⟨0, now⟩], by simp, ?_⟩
          simp [incrStep, step, start, incrSection, DashMapEngine.incr, found, expired, unlimited]
      | false =>
          refine ⟨[⟨0, now⟩], by simp, ?_⟩
          cases parsed : parseSigned 64 (fromUtf8Lossy v.data) with
          | none => simp [incrStep, step, start, incrSection, DashMapEngine.incr, found, expired, parsed]
          | some val => simp [incrStep, step, start, incrSection, DashMapEngine.incr, found, expired, parsed]

/-! ## Starts, conditions, results -/

/-- The counter before the calls, as the clock readings of the run find it. -/
inductive CountsFrom (key : Key) (e : DashMapEngine) (turns : List (Turn Instant)) : Int → Prop where
  | absent : e.map.lookup key = none → CountsFrom key e turns 0
  | expired {v : ValueEntry} : e.map.lookup key = some v →
      (∀ t ∈ turns, v.isExpiredAt t.choice = true) → CountsFrom key e turns 0
  | live {v : ValueEntry} {n : Int} : e.map.lookup key = some v →
      (∀ t ∈ turns, v.isExpiredAt t.choice = false) →
      parseSigned 64 (fromUtf8Lossy v.data) = some n → CountsFrom key e turns n

/-- `k` calls on the counter do not overflow it. -/
structure CanCount (key : Key) (e : DashMapEngine) (turns : List (Turn Instant)) (base : Int) (k : Nat) :
    Prop where
  unlimited : e.maxKeys = 0
  counter : CountsFrom key e turns base
  fits : base + k < 2 ^ 63

/-- No call takes the entry while another is between its `remove` and its `insert`. -/
def Uninterrupted (s : IncrState) (t : Turn Instant) : Prop :=
  s.calls[t.call]? = some (.at .entry) → .at .insert ∉ s.calls

instance (s : IncrState) (t : Turn Instant) : Decidable (Uninterrupted s t) :=
  inferInstanceAs (Decidable (_ → _))

/-- Every call counts once.  Without calls nothing need be stored. -/
structure CountsCalls (key : Key) (base : Int) (k : Nat) (s : IncrState) : Prop where
  stored : 0 < k → ∃ v, s.shared.map.lookup key = some v ∧
    parseSigned 64 (fromUtf8Lossy v.data) = some (base + k)
  answered : ∀ r ∈ results s.calls, ∃ val, r = .ok val
  distinct : (results s.calls).Nodup

/-! ## An undisturbed count -/

/-- `v` holds what has been counted, and the calls have returned the values up to it. -/
structure Counted (base : Int) (v : ValueEntry) (returned : List (Except EngineError Int)) : Prop where
  value : parseSigned 64 (fromUtf8Lossy v.data) = some (base + returned.length)
  passed : ∀ r ∈ returned, ∃ val, r = .ok val ∧ val ≤ base + returned.length
  distinct : returned.Nodup

/-- Nothing is counted yet; or one call is between its two operations and no other
has returned; or the entry holds the count. -/
inductive Counting (key : Key) (turns : List (Turn Instant)) (base : Int) (s : IncrState) : Prop where
  | untouched : base = 0 → results s.calls = [] → .at .insert ∉ s.calls →
      (∀ v, s.shared.map.lookup key = some v → ∀ t ∈ turns, v.isExpiredAt t.choice = true) →
      Counting key turns base s
  | between (i : Nat) : base = 0 → results s.calls = [] → s.calls[i]? = some (.at .insert) →
      (∀ j, s.calls[j]? = some (.at .insert) → j = i) → s.shared.map.lookup key = none →
      Counting key turns base s
  | counted (v : ValueEntry) : .at .insert ∉ s.calls → s.shared.map.lookup key = some v →
      (∀ t ∈ turns, v.isExpiredAt t.choice = false) → Counted base v (results s.calls) →
      Counting key turns base s

section Counting

variable {key : Key} {turns : List (Turn Instant)} {base : Int} {s s' : IncrState} {t : Turn Instant}

theorem counted_first (now : Instant) : Counted 0 (ValueEntry.new now (ascii "1")) [.ok 1] := by
  refine ⟨?_, ?_, List.nodup_singleton _⟩
  · show parseSigned 64 (fromUtf8Lossy (ascii "1")) = some 1
    decide +kernel
  · intro r member
    cases List.mem_singleton.1 member
    exact ⟨1, rfl, by decide⟩

/-- The next value is above all that have been returned. -/
theorem Counted.next {v : ValueEntry} {returned grown : List (Except EngineError Int)}
    (counted : Counted base v returned) (fits : base + (returned.length + 1 : Nat) < 2 ^ 63)
    (added : grown.Perm (.ok (base + returned.length + 1) :: returned)) :
    Counted base { v with data := decimalInt (base + returned.length + 1) } grown := by
  obtain ⟨value, passed, distinct⟩ := counted
  have range := parseSigned_range value
  have length : grown.length = returned.length + 1 := by
    rw [added.length_eq, List.length_cons]
  refine ⟨?_, ?_, ?_⟩
  · rw [fromUtf8Lossy_decimalInt, parseSigned_decimalInt (by omega) (by omega), length]
    congr 1
    omega
  · intro r member
    rcases List.mem_cons.1 (added.mem_iff.1 member) with rfl | earlier
    · exact ⟨_, rfl, by omega⟩
    · obtain ⟨val, rfl, below⟩ := passed r earlier
      exact ⟨val, rfl, by omega⟩
  · refine added.nodup_iff.2 (List.nodup_cons.2 ⟨?_, distinct⟩)
    intro earlier
    obtain ⟨val, same, below⟩ := passed _ earlier
    cases same
    omega

theorem countsFrom_counting {e : DashMapEngine} (initial : CountsFrom key e turns base) (k : Nat) :
    Counting key turns base (start e .entry k) := by
  have quiet : (.at .insert : IncrProgress) ∉ List.replicate k (.at .entry) := by
    intro member
    cases List.eq_of_mem_replicate member
  have empty : results (List.replicate k (.at .entry : IncrProgress)) = [] := results_replicate _ _
  cases initial with
  | absent found =>
      refine .untouched rfl empty quiet ?_
      intro v other
      cases found.symm.trans other
  | @expired v found expired =>
      refine .untouched rfl empty quiet ?_
      intro w other
      cases found.symm.trans other
      exact expired
  | @live v n found live value =>
      refine .counted v quiet found live ?_
      rw [start, empty]
      refine ⟨by simpa using value, ?_, List.nodup_nil⟩
      intro r member
      cases member

/-- The first call to return has stored `"1"`. -/
theorem counting_first {calls : List IncrProgress} {i : Nat} {point : IncrPoint} (zero : base = 0)
    (none : results calls = []) (here : calls[i]? = some (.at point))
    (noGap : .at .insert ∉ calls.set i (.returned (.ok 1))) (now : Instant) (e : DashMapEngine) :
    Counting key turns base
      ⟨e.insert key (ValueEntry.new now (ascii "1")), calls.set i (.returned (.ok 1))⟩ := by
  have added := results_set here (.returned (.ok 1))
  rw [none] at added
  refine .counted (ValueEntry.new now (ascii "1")) noGap (Finmap.lookup_insert _) (fun _ _ => rfl) ?_
  rw [zero, List.perm_singleton.1 added]
  exact counted_first now

/-- A call takes an entry that is missing or expired. -/
theorem counting_untouched (zero : base = 0) (none : results s.calls = []) (noGap : .at .insert ∉ s.calls)
    (stale : ∀ v, s.shared.map.lookup key = some v → ∀ t ∈ turns, v.isExpiredAt t.choice = true)
    (here : s.calls[t.call]? = some (.at .entry)) (read : t ∈ turns) :
    Counting key turns base ⟨(incrSection key .entry t.choice s.shared).2,
      s.calls.set t.call (incrSection key .entry t.choice s.shared).1⟩ := by
  cases found : s.shared.map.lookup key with
  | none =>
      simp only [incrSection, found]
      exact counting_first zero none here (at_not_mem_set noGap _ _) _ _
  | some v =>
      simp only [incrSection, found, stale v found t read, if_true]
      have same := results_set here (.at .insert)
      rw [none] at same
      refine .between t.call zero (List.perm_nil.1 same) ?_ ?_ (Finmap.lookup_erase _ _)
      · exact List.getElem?_set_self (List.getElem?_eq_some_iff.1 here).1
      · intro j there
        by_contra other
        rw [List.getElem?_set_ne (Ne.symm other)] at there
        exact noGap (List.mem_of_getElem? there)

/-- The call that removed the expired entry stores `"1"`. -/
theorem counting_between (zero : base = 0) (none : results s.calls = [])
    (here : s.calls[t.call]? = some (.at .insert))
    (only : ∀ j, s.calls[j]? = some (.at .insert) → j = t.call) :
    Counting key turns base ⟨(incrSection key .insert t.choice s.shared).2,
      s.calls.set t.call (incrSection key .insert t.choice s.shared).1⟩ := by
  refine counting_first zero none here ?_ _ _
  intro member
  obtain ⟨j, there⟩ := List.mem_iff_getElem?.1 member
  by_cases same : t.call = j
  · rw [← same, List.getElem?_set_self (List.getElem?_eq_some_iff.1 here).1] at there
    cases there
  · rw [List.getElem?_set_ne same] at there
    exact same (only j there).symm

/-- A call adds one to a live entry. -/
theorem counting_counted {v : ValueEntry} (fits : base + s.calls.length < 2 ^ 63)
    (noGap : .at .insert ∉ s.calls) (found : s.shared.map.lookup key = some v)
    (live : ∀ t ∈ turns, v.isExpiredAt t.choice = false) (counted : Counted base v (results s.calls))
    (here : s.calls[t.call]? = some (.at .entry)) (read : t ∈ turns) :
    Counting key turns base ⟨(incrSection key .entry t.choice s.shared).2,
      s.calls.set t.call (incrSection key .entry t.choice s.shared).1⟩ := by
  have fewer := results_length_lt (.ok 0) here
  have range := parseSigned_range counted.value
  have exact : Int.bmod (base + (results s.calls).length + 1) (2 ^ 64) =
      base + (results s.calls).length + 1 := Int.bmod_eq_of_le (by omega) (by omega)
  simp only [incrSection, found, live t read, Bool.false_eq_true, if_false, counted.value, exact]
  refine .counted _ (at_not_mem_set noGap _ _) (Finmap.lookup_insert _) ?_ ?_
  · exact live
  · exact counted.next (by omega) (results_set here _)

/-- A turn that interrupts no call keeps the count. -/
theorem counting_step (counting : Counting key turns base s) (fits : base + s.calls.length < 2 ^ 63)
    (quiet : Uninterrupted s t) (read : t ∈ turns) (taken : incrStep key s t = some s') :
    Counting key turns base s' := by
  obtain ⟨point, here, rfl⟩ := step_cases taken
  cases counting with
  | untouched zero none noGap stale =>
      cases point with
      | insert => exact absurd (List.mem_of_getElem? here) noGap
      | entry => exact counting_untouched zero none noGap stale here read
  | between i zero none gap only found =>
      cases point with
      | entry => exact absurd (List.mem_of_getElem? gap) (quiet here)
      | insert =>
          cases only t.call here
          exact counting_between zero none here only
  | counted v noGap found live counted =>
      cases point with
      | insert => exact absurd (List.mem_of_getElem? here) noGap
      | entry => exact counting_counted fits noGap found live counted here read

/-! ## A disturbed count -/

/-- Two calls have returned the same value, or are about to return `1` both. -/
def Miscounted (s : IncrState) : Prop :=
  ¬(results s.calls).Nodup ∨ .ok 1 ∈ results s.calls ∧ .at .insert ∈ s.calls

/-- Interrupting a call spoils the count: the entry is vacant. -/
theorem miscounted_of_interrupted (counting : Counting key turns base s) (loud : ¬Uninterrupted s t)
    (taken : incrStep key s t = some s') : Miscounted s' := by
  obtain ⟨here, gap⟩ := Classical.not_imp.1 loud
  have gap := Classical.not_not.1 gap
  cases counting with
  | untouched _ _ noGap _ => exact absurd gap noGap
  | counted _ noGap _ _ _ => exact absurd gap noGap
  | between i _ _ waits _ found =>
      obtain ⟨point, standing, rfl⟩ := step_cases taken
      cases here.symm.trans standing
      simp only [incrSection, found]
      refine .inr ⟨?_, ?_⟩
      · exact (results_set here (.returned (.ok 1))).mem_iff.2 (by simp [Progress.result?])
      · exact List.mem_of_getElem? (getElem?_set_other here waits (by decide) _)

theorem miscounted_step (spoiled : Miscounted s) (taken : incrStep key s t = some s') : Miscounted s' := by
  obtain ⟨point, here, rfl⟩ := step_cases taken
  have grown := results_set here (incrSection key point t.choice s.shared).1
  rcases spoiled with twice | ⟨one, gap⟩
  · refine .inl fun distinct => twice ?_
    exact (List.nodup_append.1 (grown.nodup_iff.1 distinct)).2.1
  · cases point with
    | insert =>
        refine .inl fun distinct => ?_
        exact (List.nodup_cons.1 (grown.nodup_iff.1 distinct)).1 one
    | entry =>
        obtain ⟨j, waits⟩ := List.mem_iff_getElem?.1 gap
        refine .inr ⟨grown.mem_iff.2 (List.mem_append_right _ one), ?_⟩
        exact List.mem_of_getElem? (getElem?_set_other here waits (by decide) _)

end Counting

/-! ## Runs in which every call returns -/

section Runs

variable {key : Key} {e : DashMapEngine} {base : Int} {k : Nat} {turns : List (Turn Instant)}

/-- The invariant of the runs that interrupt no call. -/
def Keeps (key : Key) (turns : List (Turn Instant)) (base : Int) (k : Nat) (s : IncrState) : Prop :=
  Counting key turns base s ∧ s.calls.length = k

theorem keeps_start (initial : CanCount key e turns base k) : Keeps key turns base k (start e .entry k) :=
  ⟨countsFrom_counting initial.counter k, List.length_replicate⟩

theorem keeps_step (fits : base + k < 2 ^ 63) (s : IncrState) (t : Turn Instant) (s' : IncrState)
    (keeps : Keeps key turns base k s) (quiet : Uninterrupted s t) (read : t ∈ turns)
    (taken : incrStep key s t = some s') : Keeps key turns base k s' := by
  obtain ⟨counting, length⟩ := keeps
  exact ⟨counting_step counting (length ▸ fits) quiet read taken, (step_length taken).trans length⟩

theorem Keeps.countsCalls {s : IncrState} (keeps : Keeps key turns base k s) (complete : Complete s) :
    CountsCalls key base k s := by
  obtain ⟨counting, length⟩ := keeps
  have all : (results s.calls).length = k := complete.results_length.trans length
  cases counting with
  | untouched _ none _ _ =>
      rw [none] at all
      refine ⟨fun some => ?_, ?_, ?_⟩
      · rw [← all] at some
        cases some
      · simp [none]
      · simp [none]
  | between i _ _ gap _ _ =>
      obtain ⟨result, returned⟩ := complete _ (List.mem_of_getElem? gap)
      cases returned
  | counted v _ found _ counted =>
      refine ⟨fun _ => ⟨v, found, ?_⟩, ?_, counted.distinct⟩
      · rw [← all]
        exact counted.value
      · intro r member
        obtain ⟨val, same, -⟩ := counted.passed r member
        exact ⟨val, same⟩

/-- The calls are counted exactly when none takes the entry between the `remove` and the
`insert` of another. -/
theorem incr_counts_calls_iff {s : IncrState} (initial : CanCount key e turns base k)
    (reached : run (incrStep key) (start e .entry k) turns = some s) (complete : Complete s) :
    CountsCalls key base k s ↔ Along (incrStep key) Uninterrupted (start e .entry k) turns := by
  constructor
  · intro counts
    refine along_of_unbroken (keeps_step initial.fits)
      (fun _ _ _ keeps loud _ taken => miscounted_of_interrupted keeps.1 loud taken)
      (fun _ _ _ spoiled _ taken => miscounted_step spoiled taken) (keeps_start initial)
      (fun t member => member) reached ?_
    rintro (twice | ⟨-, gap⟩)
    · exact twice counts.distinct
    · obtain ⟨result, returned⟩ := complete _ gap
      cases returned
  · intro quiet
    have kept : Keeps key turns base k s :=
      run_invariant (fun s t s' keeps turn => keeps_step initial.fits s t s' keeps turn.1 turn.2)
        (keeps_start initial) (quiet.and_label fun t member => member) reached
    exact kept.countsCalls complete

end Runs

/-! An expired counter and two calls: one after the other they count to two, but the
second may also come between the two operations of the first. -/

def expiredCounter : DashMapEngine := DashMapEngine.new.insert (ascii "k") ⟨ascii "5", some 10, some 0⟩

def inTurn : List (Turn Instant) := [⟨0, 10⟩, ⟨0, 11⟩, ⟨1, 12⟩]
def crossed : List (Turn Instant) := [⟨0, 10⟩, ⟨1, 11⟩, ⟨0, 12⟩]

theorem expiredCounter_canCount (turns : List (Turn Instant)) (after : ∀ t ∈ turns, 10 ≤ t.choice) :
    CanCount (ascii "k") expiredCounter turns 0 2 := by
  refine ⟨rfl, .expired (Finmap.lookup_insert _) ?_, by decide⟩
  intro t member
  exact decide_eq_true (after t member)

/-- A run whose calls all return, from what they return. -/
theorem complete_of_calls (key : Key) (e : DashMapEngine) (turns : List (Turn Instant))
    (returned : List (Except EngineError Int))
    (calls : (run (incrStep key) (start e .entry 2) turns).map (·.calls) = some (returned.map .returned)) :
    ∃ s, run (incrStep key) (start e .entry 2) turns = some s ∧ Complete s ∧ results s.calls = returned := by
  obtain ⟨s, reached, same⟩ := Option.map_eq_some_iff.1 calls
  refine ⟨s, reached, ?_, ?_⟩
  · intro p member
    rw [same] at member
    obtain ⟨result, -, rfl⟩ := List.mem_map.1 member
    exact ⟨result, rfl⟩
  · rw [same, results, List.filterMap_map]
    exact List.filterMap_some

theorem incr_counts_calls_inTurn :
    ∃ s, run (incrStep (ascii "k")) (start expiredCounter .entry 2) inTurn = some s ∧
      CountsCalls (ascii "k") 0 2 s := by
  obtain ⟨s, reached, complete, -⟩ :=
    complete_of_calls (ascii "k") expiredCounter inTurn [.ok 1, .ok 2] (by decide +kernel)
  refine ⟨s, reached, (incr_counts_calls_iff ?_ reached complete).2 (by decide +kernel)⟩
  exact expiredCounter_canCount inTurn (by decide)

theorem incr_crossed_loses_update :
    CanCount (ascii "k") expiredCounter crossed 0 2 ∧
      ∃ s, run (incrStep (ascii "k")) (start expiredCounter .entry 2) crossed = some s ∧ Complete s ∧
        ¬CountsCalls (ascii "k") 0 2 s := by
  obtain ⟨s, reached, complete, both⟩ :=
    complete_of_calls (ascii "k") expiredCounter crossed [.ok 1, .ok 1] (by decide +kernel)
  refine ⟨expiredCounter_canCount crossed (by decide), s, reached, complete, ?_⟩
  intro counts
  have distinct := counts.distinct
  rw [both] at distinct
  exact absurd distinct (by decide)

end ZetDb.Storage
