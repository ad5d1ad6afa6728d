/-
# Storage.KeyOverrun -- the key limit under concurrent writes

A write of a new key looks at the number of entries and inserts later, in another
section.  Between the two the other calls in flight may insert as well, each on a
reading of its own: the limit is overrun, by one entry for each of them at most.

What bounds it are the keys that are `occupied`: those that are stored and those whose
insert is under way.  A section makes them more only where it has read that there is
room (`keysOf_section`), and then what was stored and what the others are about to
insert is all there is.

* `keyLimit_overrun`: with at most `k` other calls in flight at any time, and with `len`
  as the number of the entries at one moment, no more than `max_keys + k` entries are ever
  stored.
* `keyLimit_overrun_attained`: `k + 1` SETs on an empty store of limit 1 store them all.
-/
import ZetDb.Storage.KeyLimit
import ZetDb.Storage.LazyEviction

namespace ZetDb.Storage

set_option autoImplicit false

open ZetDb.Theory.Wire ZetDb.Theory.Text ZetDb.Theory.Runs ZetDb.Theory.Calls ZetDb.Domain

/-- The call has begun and has not returned. -/
def inFlight : Progress Point Outcome → Bool
  | .at p => !p.isFirst
  | .returned _ => false

/-- The key that the call is about to insert. -/
def inserts : Progress Point Outcome → Option Key
  | .at (.insert write) => some write.key
  | _ => none

/-- The calls that are in flight beside the one that takes the turn. -/
def othersInFlight (s : CallsState) (t : Turn Moment) : Nat := (s.calls.eraseIdx t.call).countP inFlight

/-- `len` is read as it is, with at most `k` other calls in flight. -/
def FewInFlight (k : Nat) (s : CallsState) (t : Turn Moment) : Prop :=
  t.choice.len = s.shared.len ∧ othersInFlight s t ≤ k

instance (k : Nat) (s : CallsState) (t : Turn Moment) : Decidable (FewInFlight k s t) :=
  inferInstanceAs (Decidable (_ ∧ _))

/-- The keys that are stored, and those whose insert is under way. -/
def occupied (s : CallsState) : Finset Key := s.shared.map.keys ∪ (s.calls.filterMap inserts).toFinset

section Calls

variable {calls : List (Progress Point Outcome)} {i : Nat} {p q : Progress Point Outcome}

theorem inserts_inFlight (some : (inserts p).isSome = true) : inFlight p = true := by
  cases p with
  | returned _ => cases some
  | «at» point =>
      cases point with
      | insert write => rfl
      | _ => cases some

/-- The keys of the other calls, at most as many as there are calls. -/
theorem card_others (calls : List (Progress Point Outcome)) :
    (calls.filterMap inserts).toFinset.card ≤ calls.countP inFlight := by
  calc (calls.filterMap inserts).toFinset.card
      ≤ (calls.filterMap inserts).length := List.toFinset_card_le _
    _ = calls.countP fun p => (inserts p).isSome := List.length_filterMap_eq_countP
    _ ≤ calls.countP inFlight := List.countP_mono_left fun _ _ => inserts_inFlight

theorem keys_cons (p : Progress Point Outcome) (rest : List (Progress Point Outcome)) :
    ((p :: rest).filterMap inserts).toFinset = (inserts p).toFinset ∪ (rest.filterMap inserts).toFinset := by
  cases found : inserts p with
  | none => rw [List.filterMap_cons_none found, Option.toFinset_none, Finset.empty_union]
  | some key => rw [List.filterMap_cons_some found, List.toFinset_cons, Option.toFinset_some, Finset.insert_eq]

/-- The keys before a turn of a call, and behind it. -/
theorem keys_before (here : calls[i]? = some p) :
    (calls.filterMap inserts).toFinset = (inserts p).toFinset ∪ ((calls.eraseIdx i).filterMap inserts).toFinset := by
  obtain ⟨inside, rfl⟩ := List.getElem?_eq_some_iff.1 here
  rw [← keys_cons]
  exact List.toFinset_eq_of_perm _ _ ((List.getElem_cons_eraseIdx_perm inside).symm.filterMap _)

theorem keys_behind (here : calls[i]? = some p) (q : Progress Point Outcome) :
    ((calls.set i q).filterMap inserts).toFinset =
      (inserts q).toFinset ∪ ((calls.eraseIdx i).filterMap inserts).toFinset := by
  obtain ⟨inside, rfl⟩ := List.getElem?_eq_some_iff.1 here
  rw [← keys_cons]
  exact List.toFinset_eq_of_perm _ _ ((List.set_perm_cons_eraseIdx inside q).filterMap _)

end Calls

/-! ## One section -/

section Section

variable {m : Moment} {e : DashMapEngine} {key : Key} {p : Point}

theorem keys_remove (e : DashMapEngine) (key : Key) : (e.remove key).map.keys ⊆ e.map.keys := by
  rw [DashMapEngine.remove, Finmap.keys_erase]
  exact Finset.erase_subset _ _

theorem keys_removeIfExpired (now : Instant) (e : DashMapEngine) (key : Key) :
    (e.removeIfExpired now key).map.keys ⊆ e.map.keys := by
  unfold DashMapEngine.removeIfExpired
  split
  · split
    · exact keys_remove e key
    · exact Finset.Subset.refl _
  · exact Finset.Subset.refl _

theorem keys_insert_held {v : ValueEntry} (found : e.map.lookup key = some v) (w : ValueEntry) :
    (e.insert key w).map.keys = e.map.keys := by
  rw [keys_insert, Finset.insert_eq_self, mem_keys_iff, found]
  rfl

/-- The keys that are stored behind a section, and the one its call is about to insert. -/
def keysOf (next : Progress Point Outcome × DashMapEngine) : Finset Key :=
  (inserts next.1).toFinset ∪ next.2.map.keys

theorem keysOf_calm {next : Progress Point Outcome} (calm : inserts next = none) (e' : DashMapEngine) :
    keysOf (next, e') = e'.map.keys := by
  rw [keysOf, calm, Option.toFinset_none, Finset.empty_union]

theorem keysOf_guarded {gone : Outcome} {onLive : ValueEntry → Outcome × DashMapEngine}
    (live : ∀ v, e.map.lookup key = some v → (onLive v).2.map.keys = e.map.keys) :
    keysOf (guarded key gone onLive m e) = e.map.keys := by
  unfold guarded
  split
  · exact keysOf_calm rfl e
  · rename_i v found
    split
    · exact keysOf_calm rfl e
    · exact (keysOf_calm rfl _).trans (live v found)

/-- A section takes no key that is neither stored nor about to be, unless it has read that
there is room. -/
theorem keysOf_section (limited : 0 < e.maxKeys) (p : Point) :
    keysOf (callSection p m e) ⊆ (inserts (.at p)).toFinset ∪ e.map.keys ∨
      m.len < e.maxKeys ∧ ∃ key, keysOf (callSection p m e) ⊆ insert key e.map.keys := by
  have stays (within : keysOf (callSection p m e) ⊆ e.map.keys) :
      keysOf (callSection p m e) ⊆ (inserts (.at p)).toFinset ∪ e.map.keys ∨
        m.len < e.maxKeys ∧ ∃ key, keysOf (callSection p m e) ⊆ insert key e.map.keys :=
    .inl (Finset.Subset.trans within Finset.subset_union_right)
  cases p with
  | get key => exact stays (Eq.subset (keysOf_guarded fun _ _ => rfl))
  | «exists» key => exact stays (Eq.subset (keysOf_guarded fun _ _ => rfl))
  | ttlSecs key => exact stays (Eq.subset (keysOf_guarded fun _ _ => rfl))
  | expire key seconds => exact stays (Eq.subset (keysOf_guarded fun v found => keys_insert_held found _))
  | removeIf key answer =>
      apply stays
      show keysOf (.returned answer, e.removeIfExpired m.now key) ⊆ _
      rw [keysOf_calm rfl]
      exact keys_removeIfExpired m.now e key
  | sweepExpired =>
      apply stays
      rw [callSection]
      cases m.visited with
      | none => exact Eq.subset (keysOf_calm rfl e)
      | some key =>
          dsimp only
          rw [keysOf_calm rfl]
          exact keys_removeIfExpired m.now e key
  | clear =>
      apply stays
      rw [callSection]
      cases m.visited with
      | none => exact Eq.subset (keysOf_calm rfl e)
      | some key =>
          dsimp only
          rw [keysOf_calm rfl]
          exact keys_remove e key
  | evictOne write =>
      apply stays
      rw [callSection]
      split
      · exact Eq.subset (keysOf_calm rfl e)
      · cases m.sampled with
        | none => exact Eq.subset (keysOf_calm rfl e)
        | some victim => exact Eq.subset (keysOf_calm rfl e)
  | evict victim write =>
      apply stays
      show keysOf (.at (.room write), e.remove victim) ⊆ _
      rw [keysOf_calm rfl]
      exact keys_remove e victim
  | del key =>
      apply stays
      show keysOf (.returned (.deleted (e.del m.now key).1), (e.del m.now key).2) ⊆ _
      rw [keysOf_calm rfl, DashMapEngine.del]
      split
      · split
        · exact keys_remove e key
        · exact Finset.Subset.refl _
      · exact Finset.Subset.refl _
  | set key value =>
      apply stays
      rw [callSection]
      split
      · exact Eq.subset (keysOf_calm rfl e)
      · -- a key that was found stored is inserted without a look for room
        rename_i held
        have stored : key ∈ e.map.keys := by
          rw [mem_keys_iff]
          by_contra missing
          exact held ⟨limited, by simpa using missing⟩
        apply Finset.union_subset
        · simpa [inserts, Pending.key] using stored
        · exact Finset.Subset.refl _
  | room write =>
      rw [callSection] at stays ⊢
      split
      · rename_i full
        rw [if_pos full] at stays
        exact stays (Eq.subset (keysOf_calm rfl e))
      · rename_i room
        refine .inr ⟨by omega, write.key, ?_⟩
        rw [keysOf, Finset.insert_eq]
        exact Finset.Subset.refl _
  | insert write =>
      refine .inl ?_
      show keysOf (.returned write.stored, e.insert write.key (write.entry m.now)) ⊆ _
      rw [keysOf_calm rfl, keys_insert, Finset.insert_eq]
      exact Finset.Subset.refl _
  | incr key =>
      cases found : e.map.lookup key with
      | some v =>
          apply stays
          simp only [callSection, found]
          split
          · rw [keysOf_calm rfl]
            exact keys_remove e key
          · cases parseSigned 64 (fromUtf8Lossy v.data) with
            | none => exact Eq.subset (keysOf_calm rfl e)
            | some val => exact Eq.subset ((keysOf_calm rfl _).trans (keys_insert_held found _))
      | none =>
          simp only [callSection, found] at stays ⊢
          split
          · rename_i full
            rw [if_pos full] at stays
            exact stays (Eq.subset (keysOf_calm rfl e))
          · rename_i room
            refine .inr ⟨by omega, key, ?_⟩
            rw [keysOf_calm rfl, keys_insert]

end Section

/-! ## Runs -/

section Runs

variable {k : Nat} {s s' : CallsState} {t : Turn Moment}

/-- A turn keeps the number of occupied keys below the limit and `k`. -/
theorem occupied_step (limited : 0 < s.shared.maxKeys) (few : FewInFlight k s t)
    (within : (occupied s).card ≤ s.shared.maxKeys + k) (next : callStep s t = some s') :
    s'.shared.maxKeys = s.shared.maxKeys ∧ (occupied s').card ≤ s.shared.maxKeys + k := by
  obtain ⟨asItIs, others⟩ := few
  obtain ⟨p, here, rfl⟩ := step_cases next
  refine ⟨(keepsLimit_section p).maxKeys, ?_⟩
  have behind : occupied ⟨(callSection p t.choice s.shared).2,
      s.calls.set t.call (callSection p t.choice s.shared).1⟩ =
      keysOf (callSection p t.choice s.shared) ∪ ((s.calls.eraseIdx t.call).filterMap inserts).toFinset := by
    rw [occupied, keys_behind here, Finset.union_left_comm, ← Finset.union_assoc]
    rfl
  have before : occupied s = ((inserts (.at p)).toFinset ∪ s.shared.map.keys) ∪
      ((s.calls.eraseIdx t.call).filterMap inserts).toFinset := by
    rw [occupied, keys_before here, Finset.union_left_comm, ← Finset.union_assoc]
  rw [behind]
  rcases keysOf_section limited p with same | ⟨room, key, taken⟩
  · rw [before] at within
    exact Nat.le_trans (Finset.card_le_card (Finset.union_subset_union_left same)) within
  · rw [asItIs, len_eq_card] at room
    calc (keysOf (callSection p t.choice s.shared) ∪ ((s.calls.eraseIdx t.call).filterMap inserts).toFinset).card
        ≤ (keysOf (callSection p t.choice s.shared)).card +
            ((s.calls.eraseIdx t.call).filterMap inserts).toFinset.card := Finset.card_union_le _ _
      _ ≤ (insert key s.shared.map.keys).card + othersInFlight s t :=
            Nat.add_le_add (Finset.card_le_card taken) (card_others _)
      _ ≤ (s.shared.map.keys.card + 1) + k := Nat.add_le_add (Finset.card_insert_le _ _) others
      _ ≤ s.shared.maxKeys + k := by omega

theorem occupied_opening {e : DashMapEngine} {calls : List Point} (first : ∀ p ∈ calls, p.isFirst = true) :
    occupied (opening e calls) = e.map.keys := by
  have none : (calls.map Progress.at).filterMap inserts = ([] : List Key) := by
    rw [List.filterMap_eq_nil_iff]
    intro q inside
    obtain ⟨p, member, rfl⟩ := List.mem_map.1 inside
    have begun := first p member
    cases p with
    | insert write => cases begun
    | _ => rfl
  rw [occupied, opening, none, List.toFinset_nil, Finset.union_empty]

end Runs

/-- With at most `k` other calls in flight at any time, and `len` read as it is, the limit
is overrun by `k` entries at most. -/
theorem keyLimit_overrun (e : DashMapEngine) (calls : List Point) (turns : List (Turn Moment)) (s : CallsState)
    (k : Nat) (limited : 0 < e.maxKeys) (start : e.len ≤ e.maxKeys) (first : ∀ p ∈ calls, p.isFirst = true)
    (along : Along callStep (FewInFlight k) (opening e calls) turns)
    (reached : run callStep (opening e calls) turns = some s) : s.shared.len ≤ e.maxKeys + k := by
  have kept : s.shared.maxKeys = e.maxKeys ∧ (occupied s).card ≤ e.maxKeys + k := by
    refine run_invariant (I := fun s => s.shared.maxKeys = e.maxKeys ∧ (occupied s).card ≤ e.maxKeys + k)
      ?_ ⟨rfl, ?_⟩ along reached
    · intro s t s' good few next
      obtain ⟨same, within⟩ := good
      rw [← same] at within ⊢
      exact occupied_step (by rw [same]; exact limited) few within next
    · rw [occupied_opening first, ← len_eq_card]
      exact Nat.le_add_right_of_le start
  rw [len_eq_card]
  exact Nat.le_trans (Finset.card_le_card Finset.subset_union_left) kept.2

/-- A turn that reads this number of entries. -/
def reading (i len : Nat) : Turn Moment := ⟨i, ⟨0, 0, len, none, none⟩⟩

/-- A SET looks whether its key is stored, and twice whether there is room. -/
def looking (i : Nat) : List (Turn Moment) := [reading i 0, reading i 0, reading i 0]

/-- `n` SETs look for room one after another; then they insert. -/
def crowding (n : Nat) : List (Turn Moment) :=
  (List.range' 0 n).flatMap looking ++ (List.range' 0 n).map fun i => reading i i

/-- Two SETs that both find room in a store of limit 1. -/
theorem keyLimit_overrun_pair : ∃ s,
    run callStep (opening (.withMaxKeys 1) [.set (ascii "a") (.new 1 []), .set (ascii "b") (.new 2 [])])
      (crowding 2) = some s ∧ s.shared.len ≤ 1 + 1 :=
  ⟨_, rfl, keyLimit_overrun (.withMaxKeys 1) [.set (ascii "a") (.new 1 []), .set (ascii "b") (.new 2 [])]
    (crowding 2) _ 1 (by decide) (by decide) (by decide) (by decide +kernel) rfl⟩

/-! ## The bound is reached -/

section Crowd

variable {done : List (Progress Point Outcome)} {todo : List Key} {e : DashMapEngine} {k : Nat}

def setting (value : ValueEntry) (key : Key) : Progress Point Outcome := .at (.set key value)
def inserting (value : ValueEntry) (key : Key) : Progress Point Outcome := .at (.insert (.set key value))

theorem fewInFlight_of_length {s : CallsState} {t : Turn Moment} (asItIs : t.choice.len = s.shared.len)
    (here : t.call < s.calls.length) (few : s.calls.length ≤ k + 1) : FewInFlight k s t := by
  refine ⟨asItIs, ?_⟩
  have others : (s.calls.eraseIdx t.call).length + 1 = s.calls.length := List.length_eraseIdx_add_one here
  have counted := List.countP_le_length (p := inFlight) (l := s.calls.eraseIdx t.call)
  unfold othersInFlight
  omega

theorem turn_here (e : DashMapEngine) (done : List (Progress Point Outcome)) (p : Point)
    (rest : List (Progress Point Outcome)) (m : Moment) :
    callStep ⟨e, done ++ .at p :: rest⟩ ⟨done.length, m⟩ =
      some ⟨(callSection p m e).2, done ++ (callSection p m e).1 :: rest⟩ := by
  simp [step]

/-- A call that takes its turn while there are `k + 1` calls at most. -/
theorem fewInFlight_here {p : Progress Point Outcome} {rest : List (Progress Point Outcome)} {len : Nat}
    (asItIs : len = e.len) (few : done.length + rest.length ≤ k) :
    FewInFlight k ⟨e, done ++ p :: rest⟩ (reading done.length len) := by
  apply fewInFlight_of_length asItIs
  · show done.length < (done ++ p :: rest).length
    simp
  · show (done ++ p :: rest).length ≤ k + 1
    simp only [List.length_append, List.length_cons]
    omega

/-- On an empty store of limit 1 every SET finds room. -/
theorem crowd_looks (value : ValueEntry) (limit : e.maxKeys = 1) (empty : e.map = ∅)
    (few : done.length + todo.length ≤ k + 1) :
    run callStep ⟨e, done ++ todo.map (setting value)⟩ ((List.range' done.length todo.length).flatMap looking) =
        some ⟨e, done ++ todo.map (inserting value)⟩ ∧
      Along callStep (FewInFlight k) ⟨e, done ++ todo.map (setting value)⟩
        ((List.range' done.length todo.length).flatMap looking) := by
  induction todo generalizing done with
  | nil => exact ⟨rfl, trivial⟩
  | cons key todo ih =>
      have none : e.len = 0 := by
        rw [len_eq_card, empty]
        rfl
      have missing : e.map.lookup key = Option.none := by
        rw [empty]
        rfl
      rw [List.length_cons] at few
      have short : done.length + (todo.map (setting value)).length ≤ k := by
        rw [List.length_map]
        omega
      have begins : callSection (.set key value) (reading done.length 0).choice e =
          (.at (.evictOne (.set key value)), e) := by
        simp [callSection, limit, missing]
      have passes : callSection (.evictOne (.set key value)) (reading done.length 0).choice e =
          (.at (.room (.set key value)), e) := by
        simp [callSection, limit, reading]
      have finds : callSection (.room (.set key value)) (reading done.length 0).choice e =
          (.at (.insert (.set key value)), e) := by
        simp [callSection, limit, reading]
      have first := turn_here e done (.set key value) (todo.map (setting value))
        (reading done.length 0).choice
      have second := turn_here e done (.evictOne (.set key value)) (todo.map (setting value))
        (reading done.length 0).choice
      have third := turn_here e done (.room (.set key value)) (todo.map (setting value))
        (reading done.length 0).choice
      rw [begins] at first
      rw [passes] at second
      rw [finds] at third
      have further : (done ++ [inserting value key]).length + todo.length ≤ k + 1 := by
        rw [List.length_append, List.length_singleton]
        omega
      obtain ⟨reached, along⟩ := ih further
      rw [List.length_append, List.length_singleton, List.append_assoc, List.append_assoc] at reached
      rw [List.length_append, List.length_singleton, List.append_assoc] at along
      rw [List.length_cons, List.range'_succ, List.flatMap_cons]
      have few (p : Progress Point Outcome) :
          FewInFlight k ⟨e, done ++ p :: todo.map (setting value)⟩ (reading done.length 0) :=
        fewInFlight_here none.symm short
      refine ⟨?_, ?_⟩
      · exact Option.bind_eq_some_iff.2 ⟨_, first, Option.bind_eq_some_iff.2 ⟨_, second,
          Option.bind_eq_some_iff.2 ⟨_, third, reached⟩⟩⟩
      · exact .cons first (few _) (.cons second (few _) (.cons third (few _) along))

/-- They insert whatever the others have inserted since. -/
theorem crowd_inserts (value : ValueEntry) (apart : todo.Nodup) (fresh : ∀ key ∈ todo, e.map.lookup key = none)
    (count : e.len = done.length) (few : done.length + todo.length ≤ k + 1) :
    ∃ s, run callStep ⟨e, done ++ todo.map (inserting value)⟩
        ((List.range' done.length todo.length).map fun i => reading i i) = some s ∧
      Along callStep (FewInFlight k) ⟨e, done ++ todo.map (inserting value)⟩
        ((List.range' done.length todo.length).map fun i => reading i i) ∧
      s.shared.len = done.length + todo.length := by
  induction todo generalizing done e with
  | nil => exact ⟨_, rfl, trivial, count⟩
  | cons key todo ih =>
      obtain ⟨absent, apart⟩ := List.nodup_cons.1 apart
      rw [List.length_cons] at few
      have short : done.length + (todo.map (inserting value)).length ≤ k := by
        rw [List.length_map]
        omega
      have added : (e.insert key value).len = done.length + 1 := by
        rw [len_insert_new (fresh key List.mem_cons_self), count]
      have turn := turn_here e done (.insert (.set key value)) (todo.map (inserting value))
        (reading done.length done.length).choice
      have longer : (done ++ [Progress.returned (Outcome.written (.ok ()))]).length = done.length + 1 := by
        rw [List.length_append, List.length_singleton]
      have fresh : ∀ other ∈ todo, (e.insert key value).map.lookup other = none := by
        intro other inside
        have apart : other ≠ key := by
          rintro rfl
          exact absent inside
        rw [DashMapEngine.insert, Finmap.lookup_insert_of_ne _ apart]
        exact fresh other (List.mem_cons_of_mem _ inside)
      obtain ⟨s, reached, along, final⟩ := ih apart fresh (by rw [added, longer]) (by rw [longer]; omega)
      rw [longer, List.append_assoc] at reached along
      rw [longer] at final
      refine ⟨s, ?_, ?_, ?_⟩
      · rw [List.length_cons, List.range'_succ, List.map_cons, List.map_cons, run_cons]
        exact Option.bind_eq_some_iff.2 ⟨_, turn, reached⟩
      · exact .cons turn (fewInFlight_here count.symm short) along
      · rw [final, List.length_cons]
        omega

end Crowd

/-- The bound is exact: on a store of limit 1, as many SETs as one likes all insert. -/
theorem keyLimit_overrun_attained (keys : List Key) (value : ValueEntry) (k : Nat) (apart : keys.Nodup)
    (count : keys.length = k + 1) :
    let start := opening (.withMaxKeys 1) (keys.map fun key => .set key value)
    ∃ s, run callStep start (crowding keys.length) = some s ∧
      Along callStep (FewInFlight k) start (crowding keys.length) ∧ s.shared.len = 1 + k := by
  intro start
  have begins : start = ⟨.withMaxKeys 1, [] ++ keys.map (setting value)⟩ := by
    show opening _ _ = _
    rw [opening, List.map_map]
    rfl
  have few : ([] : List (Progress Point Outcome)).length + keys.length ≤ k + 1 := by
    rw [count]
    exact (Nat.zero_add _).le
  obtain ⟨looked, alongLooking⟩ := crowd_looks (e := .withMaxKeys 1) value rfl rfl few
  obtain ⟨s, reached, alongInserting, final⟩ :=
    crowd_inserts (e := .withMaxKeys 1) value apart (fun _ _ => rfl) rfl few
  rw [begins]
  refine ⟨s, ?_, ?_, ?_⟩
  · rw [crowding, run_append, ← List.length_nil, looked]
    exact reached
  · exact alongLooking.append looked alongInserting
  · rw [final, count, List.length_nil]
    omega

end ZetDb.Storage
