/-
# Storage.Eviction -- which key goes when the store is full

A SET that finds the store full samples up to five live entries and removes the
one with the smallest `created_at`.  The loop of the source skips what has
expired, stops behind the fifth live entry and carries the best key and its time
in two optional variables.

* `sampleOldest_eq`: whatever the order of the iteration, the loop returns the
  key of the first least entry among the first five live ones, with an unknown
  `created_at` below every known one (`List.argmin` over `WithBot Instant`).
* `set_evicts_oldest`: so a SET of a new key in a full store with a live entry
  exchanges that key for its own, and nothing else.
-/
import ZetDb.Storage.KeyLimit
import Mathlib.Data.List.MinMax

namespace ZetDb.Storage

set_option autoImplicit false

open ZetDb.Theory.Wire ZetDb.Theory.Text ZetDb.Domain

/-! ## The loop is a minimum -/

/-- The entries the eviction looks at. -/
def sample (iter : Iter) (now : Instant) (e : DashMapEngine) : List Entry :=
  ((iter.list e.map).filter fun entry => !entry.2.isExpiredAt now).take 5

/-- A time of creation; an unknown one is below every known one. -/
def createdTime : Option Instant → WithBot Instant
  | none => ⊥
  | some t => t

def created (entry : Entry) : WithBot Instant := createdTime entry.2.createdAt

theorem createdBefore_iff (a b : Option Instant) :
    DashMapEngine.createdBefore a b = true ↔ createdTime a < createdTime b := by
  cases b with
  | none =>
      have never : DashMapEngine.createdBefore a none = false := by
        cases a <;> rfl
      rw [never]
      exact iff_of_false Bool.false_ne_true not_lt_bot
  | some b =>
      cases a with
      | none => exact iff_of_true rfl (WithBot.bot_lt_coe b)
      | some a => exact decide_eq_true_iff.trans WithBot.coe_lt_coe.symm

section Loop

variable {now : Instant}

/-- The two variables of the loop hold the key and the time of the best entry so
far: `sampled` live entries are behind it, and what is left of the five decides. -/
theorem sampleOldest_eq_foldl (entries : List Entry) (best : Option Entry) {sampled : Nat}
    (few : sampled < 5) :
    DashMapEngine.sampleOldest now entries (best.map (·.1)) (best.bind (·.2.createdAt)) sampled =
      (((entries.filter fun entry => !entry.2.isExpiredAt now).take (5 - sampled)).foldl
        (List.argAux fun b c => created b < created c) best).map (·.1) := by
  induction entries generalizing best sampled with
  | nil => simp [DashMapEngine.sampleOldest]
  | cons entry entries ih =>
      rw [DashMapEngine.sampleOldest]
      cases expired : entry.2.isExpiredAt now with
      | true =>
          rw [if_pos rfl, ih best few]
          simp [expired]
      | false =>
          -- the two variables after this entry
          have next : ∃ better, List.argAux (fun b c => created b < created c) best entry = better ∧
              (if (best.map (·.1)).isNone ||
                  DashMapEngine.createdBefore entry.2.createdAt (best.bind (·.2.createdAt))
                then some entry.1 else best.map (·.1)) = better.map (·.1) ∧
              (if (best.map (·.1)).isNone ||
                  DashMapEngine.createdBefore entry.2.createdAt (best.bind (·.2.createdAt))
                then entry.2.createdAt else best.bind (·.2.createdAt)) = better.bind (·.2.createdAt) := by
            refine ⟨_, rfl, ?_⟩
            cases best with
            | none => exact ⟨rfl, rfl⟩
            | some b =>
                have older := createdBefore_iff entry.2.createdAt b.2.createdAt
                by_cases below : created entry < created b
                · simp [List.argAux, below, older.2 below]
                · have kept : DashMapEngine.createdBefore entry.2.createdAt b.2.createdAt = false :=
                    Bool.eq_false_of_not_eq_true fun before => below (older.1 before)
                  simp [List.argAux, below, kept]
          obtain ⟨better, chosen, key, time⟩ := next
          have live : (entry :: entries).filter (fun entry => !entry.2.isExpiredAt now) =
              entry :: entries.filter fun entry => !entry.2.isExpiredAt now := by
            simp [expired]
          have left : 5 - sampled = (5 - (sampled + 1)) + 1 := by omega
          rw [live, left, List.take_succ_cons, List.foldl_cons, chosen]
          simp only [Bool.false_eq_true, if_false, key, time]
          by_cases fifth : sampled + 1 ≥ 5
          · have none_left : 5 - (sampled + 1) = 0 := by omega
            rw [if_pos fifth, none_left, List.take_zero, List.foldl_nil]
          · rw [if_neg fifth, ih better (by omega)]

/-- The loop returns the key of the first least entry of the sample. -/
theorem sampleOldest_eq (iter : Iter) (now : Instant) (e : DashMapEngine) :
    DashMapEngine.sampleOldest now (iter.list e.map) none none 0 =
      ((sample iter now e).argmin created).map (·.1) :=
  sampleOldest_eq_foldl (iter.list e.map) none (by decide)

end Loop

/-! ## A full store -/

section Full

variable {iter : Iter} {now : Instant} {e : DashMapEngine} {key : Key}

theorem mem_sample {entry : Entry} (sampled : entry ∈ sample iter now e) :
    e.live now entry.1 = some entry.2 := by
  obtain ⟨listed, fresh⟩ := List.mem_filter.1 (List.mem_of_mem_take sampled)
  apply live_eq_some.2
  exact ⟨(mem_iter_list iter e entry).1 listed, by simpa using fresh⟩

/-- A store with a live entry has a sample. -/
theorem sample_ne_nil (iter : Iter) {k : Key} {w : ValueEntry} (live : e.live now k = some w) :
    sample iter now e ≠ [] := by
  obtain ⟨held, fresh⟩ := live_eq_some.1 live
  have listed : (⟨k, w⟩ : Entry) ∈ (iter.list e.map).filter fun entry => !entry.2.isExpiredAt now := by
    apply List.mem_filter.2
    exact ⟨(mem_iter_list iter e ⟨k, w⟩).2 held, by simp [fresh]⟩
  intro nothing
  rcases List.take_eq_nil_iff.1 nothing with zero | empty
  · cases zero
  · rw [empty] at listed
    cases listed

/-- At the limit the eviction removes a least entry of the sample. -/
theorem evict_oldest (iter : Iter) (now : Instant) (limited : 0 < e.maxKeys) (full : e.maxKeys ≤ e.len)
    (someLive : ∃ k w, e.live now k = some w) :
    ∃ oldest ∈ sample iter now e,
      (∀ entry ∈ sample iter now e, ¬ created entry < created oldest) ∧
      e.evictOneIfNeeded iter now = e.remove oldest.1 := by
  obtain ⟨k, w, live⟩ := someLive
  cases least : (sample iter now e).argmin created with
  | none => exact absurd (List.argmin_eq_none.1 least) (sample_ne_nil iter live)
  | some oldest =>
      refine ⟨oldest, List.argmin_mem least, ?_, ?_⟩
      · intro entry sampled
        exact List.not_lt_of_mem_argmin sampled least
      · rw [DashMapEngine.evictOneIfNeeded, if_neg (by omega), sampleOldest_eq, least]
        rfl

/-- What a SET of a new key leaves behind when it takes the place of `gone`. -/
structure Exchanged (before after : DashMapEngine) (gone key : Key) (v : ValueEntry) : Prop where
  limit : after.maxKeys = before.maxKeys
  stored : after.map.lookup key = some v
  removed : after.map.lookup gone = none
  frame : ∀ k, k ≠ gone → k ≠ key → after.map.lookup k = before.map.lookup k

theorem exchanged_insert_remove {gone : Key} (other : gone ≠ key) (v : ValueEntry) :
    Exchanged e ((e.remove gone).insert key v) gone key v where
  limit := rfl
  stored := Finmap.lookup_insert _
  removed := by
    rw [DashMapEngine.insert, Finmap.lookup_insert_of_ne _ other]
    exact Finmap.lookup_erase _ _
  frame := by
    intro k kept different
    rw [DashMapEngine.insert, Finmap.lookup_insert_of_ne _ different]
    exact Finmap.lookup_erase_ne kept

/-- A SET of a new key in a full store that holds a live entry succeeds; it takes
the place of one live key, and that key is among the first five live ones of the
iteration, none of which was created before it. -/
theorem set_evicts_oldest (iter : Iter) (now : Instant) (e : DashMapEngine) (key : Key) (v : ValueEntry)
    (limited : 0 < e.maxKeys) (full : e.len = e.maxKeys)
    (someLive : ∃ k w, e.live now k = some w) (new : e.map.lookup key = none) :
    ∃ oldest ∈ sample iter now e,
      e.live now oldest.1 = some oldest.2 ∧
      (∀ entry ∈ sample iter now e,
        DashMapEngine.createdBefore entry.2.createdAt oldest.2.createdAt = false) ∧
      e.set iter now key v = (.ok (), (e.remove oldest.1).insert key v) ∧
      Exchanged e (e.set iter now key v).2 oldest.1 key v := by
  obtain ⟨oldest, sampled, least, evicted⟩ := evict_oldest iter now limited (Nat.le_of_eq full.symm) someLive
  have live := mem_sample sampled
  have other : oldest.1 ≠ key := by
    intro same
    rw [same] at live
    rw [(live_eq_some.1 live).1] at new
    cases new
  have smaller : (e.remove oldest.1).len + 1 = e.len := len_remove_held (live_held live)
  have stored : e.set iter now key v = (.ok (), (e.remove oldest.1).insert key v) := by
    rw [DashMapEngine.set, if_pos ⟨limited, by rw [new]; rfl⟩, evicted]
    exact if_neg (by rw [DashMapEngine.remove_maxKeys]; omega)
  refine ⟨oldest, sampled, live, ?_, stored, ?_⟩
  · intro entry inside
    apply Bool.eq_false_of_not_eq_true
    intro before
    exact least entry inside ((createdBefore_iff _ _).1 before)
  · rw [stored]
    exact exchanged_insert_remove other v

end Full

/-- A full store of two keys, one of them written without a time of creation. -/
def untimed : DashMapEngine :=
  ((DashMapEngine.withMaxKeys 2).insert (ascii "a") ⟨ascii "1", none, some 1⟩).insert (ascii "b")
    (ValueEntry.newFast (ascii "2"))

theorem set_evicts_oldest_untimed :
    ∃ oldest ∈ sample Iter.some 5 untimed,
      untimed.live 5 oldest.1 = some oldest.2 ∧
      (∀ entry ∈ sample Iter.some 5 untimed,
        DashMapEngine.createdBefore entry.2.createdAt oldest.2.createdAt = false) ∧
      untimed.set Iter.some 5 (ascii "c") (ValueEntry.new 5 (ascii "3")) =
        (.ok (), (untimed.remove oldest.1).insert (ascii "c") (ValueEntry.new 5 (ascii "3"))) ∧
      Exchanged untimed (untimed.set Iter.some 5 (ascii "c") (ValueEntry.new 5 (ascii "3"))).2 oldest.1
        (ascii "c") (ValueEntry.new 5 (ascii "3")) := by
  have first : ((DashMapEngine.withMaxKeys 2).insert (ascii "a") ⟨ascii "1", none, some 1⟩).len = 1 :=
    len_insert_new rfl _
  have second : untimed.len = 2 := by
    rw [untimed, len_insert_new _ _, first]
    exact Finmap.lookup_insert_of_ne _ (by decide)
  have held : untimed.map.lookup (ascii "b") = some (ValueEntry.newFast (ascii "2")) :=
    Finmap.lookup_insert _
  have new : untimed.map.lookup (ascii "c") = none := by
    rw [untimed, DashMapEngine.insert, Finmap.lookup_insert_of_ne _ (by decide)]
    exact Finmap.lookup_insert_of_ne _ (by decide)
  exact set_evicts_oldest Iter.some 5 untimed (ascii "c") _ (by decide) second
    ⟨ascii "b", _, live_eq_some.2 ⟨held, rfl⟩⟩ new

end ZetDb.Storage
