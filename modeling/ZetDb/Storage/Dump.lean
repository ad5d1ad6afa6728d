/-
# Storage.Dump -- dumping an engine and storing it again

A dump lists the live entries, in the order of the map.  The snapshot stores the
list as records, the rewrite as SET entries; either way, storing it back is
replaying one SET per entry, and that rebuilds the contents (`replay_dump`).

Dumps fit their length fields on every engine reached by representable commands:
keys and values come from them, and the numerals INCR writes are short
(`exec_storable`).
-/
import ZetDb.Storage.AofReplay
import ZetDb.Storage.Contents
import ZetDb.Storage.Entries
import ZetDb.Storage.Snapshot

namespace ZetDb.Storage

set_option autoImplicit false

open ZetDb.Theory.Wire ZetDb.Theory.Text ZetDb.Theory.Replay ZetDb.Domain ZetDb.Application

/-- Every key and value fits its length field. -/
structure Storable (e : DashMapEngine) : Prop where
  fits : ∀ {k v}, e.map.lookup k = some v → KeyOk k ∧ ValueOk v.data

section Storable

variable {iter : Iter} {m : MetricsSnapshot} {now : Instant} {e : DashMapEngine} {key : Key}

theorem storable_new : Storable .new := ⟨fun found => by cases found⟩

theorem storable_iff : Storable e ↔ Each (fun k v => KeyOk k ∧ ValueOk v.data) e :=
  ⟨fun good _ _ found => good.fits found, fun each => ⟨fun {k v} found => each k v found⟩⟩

theorem Storable.insert (good : Storable e) {v : ValueEntry} (keyOk : KeyOk key)
    (valueOk : ValueOk v.data) : Storable (e.insert key v) :=
  storable_iff.2 ((storable_iff.1 good).insert ⟨keyOk, valueOk⟩)

theorem valueOk_one : ValueOk (ascii "1") := by decide

/-- A machine integer prints into the value field. -/
theorem valueOk_decimalInt (i : Int) : ValueOk (decimalInt (Int.bmod i (2 ^ 64))) := by
  have range := bmod_range i
  have short : (decimalInt (Int.bmod i (2 ^ 64))).length ≤ 20 + 1 :=
    decimalInt_length_le (by decide) (by omega)
  unfold ValueOk
  omega

theorem exec_storable (good : Storable e) {c : Command} (ok : Representable c) :
    Storable (exec iter m now e c) := by
  refine storable_iff.2 (exec_each (storable_iff.1 good) ?_)
  cases c with
  | set key value lifetime => cases lifetime <;> exact ⟨ok.1, ok.2.1⟩
  | incr key => exact ⟨⟨ok, valueOk_one⟩, fun v i held => ⟨ok, valueOk_decimalInt _⟩⟩
  | expire key seconds => exact fun v held => held
  | mset pairs => exact fun p inside => ok.2 p inside
  | _ => trivial

end Storable

/-! ## What a dump lists -/

section Dump

variable {iter : Iter} {now : Instant} {e : DashMapEngine}

theorem mem_entries_iff (s : Store) (k : Key) (v : ValueEntry) :
    (⟨k, v⟩ : Entry) ∈ s.entries ↔ s.lookup k = some v := by
  induction s using Finmap.induction_on with
  | H s => exact AList.mem_lookup_iff.symm

theorem mem_iter_list (iter : Iter) (e : DashMapEngine) (entry : Entry) :
    entry ∈ iter.list e.map ↔ e.map.lookup entry.1 = some entry.2 := by
  rw [← Multiset.mem_coe, iter.lists]
  exact mem_entries_iff _ _ _

/-- The dump of a permanent engine lists every entry, without a time to live. -/
theorem mem_dumpEntries (good : Permanent e) (r : Key × Bytes × Int) :
    r ∈ e.dumpEntries iter now ↔ e.contents r.1 = some r.2.1 ∧ r.2.2 = -1 := by
  simp only [DashMapEngine.dumpEntries, List.mem_map, List.mem_filter, mem_iter_list,
    DashMapEngine.contents, Option.map_eq_some_iff]
  constructor
  · rintro ⟨entry, ⟨found, -⟩, rfl⟩
    refine ⟨⟨entry.2, found, rfl⟩, ?_⟩
    simp [DashMapEngine.remainingMillis, good.forever found]
  · rintro ⟨⟨v, found, data⟩, ttl⟩
    refine ⟨⟨r.1, v⟩, ⟨found, by simp [good.live found now]⟩, ?_⟩
    simp [DashMapEngine.remainingMillis, good.forever found, data, ← ttl]

theorem dumpEntries_length (iter : Iter) (now : Instant) (good : Permanent e) : (e.dumpEntries iter now).length = e.len := by
  have all : (iter.list e.map).filter (fun entry => !entry.2.isExpiredAt now) = iter.list e.map := by
    refine List.filter_eq_self.2 fun entry inside => ?_
    have found := (mem_iter_list iter e entry).1 inside
    simp [good.live found now]
  rw [DashMapEngine.dumpEntries, all, List.length_map, DashMapEngine.len, ← iter.lists,
    Multiset.coe_card]

theorem dumpEntries_ok (iter : Iter) (now : Instant) (good : Permanent e) (fits : Storable e) :
    ∀ r ∈ e.dumpEntries iter now, RecordOk r := by
  intro r inside
  obtain ⟨held, ttl⟩ := (mem_dumpEntries good r).1 inside
  obtain ⟨v, found, data⟩ := Option.map_eq_some_iff.1 held
  have ok := fits.fits found
  rw [data] at ok
  exact ⟨ok.1, ok.2, by rw [ttl]; exact ⟨by decide, by decide⟩⟩

/-- The SET that stores a dumped entry again. -/
def restoring (r : Key × Bytes × Int) : Command := .set r.1 r.2.1 none

/-- SETs of values taken from `b` rebuild `b` at the keys they name. -/
theorem replay_restoring {b : Contents} (records : List (Key × Bytes × Int))
    (taken : ∀ r ∈ records, b r.1 = some r.2.1) (s : Contents) (k : Key) :
    replay s (records.map restoring) k = if k ∈ records.map Prod.fst then b k else s k := by
  induction records generalizing s with
  | nil => rfl
  | cons r records ih =>
      have head := taken r (by simp)
      have next := ih (fun q inside => taken q (by simp [inside])) (apply cell s (restoring r))
      rw [List.map_cons, replay, run_cons, ← replay, next]
      by_cases later : k ∈ records.map Prod.fst
      · simp [later]
      · by_cases same : r.1 = k
        · subst same
          simp [later, apply, cell, restoring, head]
        · simp [later, apply, cell, restoring, same, Ne.symm same]

/-- The SETs of a dump rebuild the contents of the engine. -/
theorem replay_dump (good : Permanent e) :
    replay (fun _ => none) ((e.dumpEntries iter now).map restoring) = e.contents := by
  funext k
  rw [replay_restoring (b := e.contents) _ fun r inside => ((mem_dumpEntries good r).1 inside).1]
  split
  · rfl
  · rename_i missing
    cases held : e.contents k with
    | none => rfl
    | some data =>
        refine absurd ?_ missing
        exact List.mem_map.2 ⟨(k, data, -1), (mem_dumpEntries good _).2 ⟨held, rfl⟩, rfl⟩

/-- The tmp file of a rewrite is the log of the SETs of the dump. -/
theorem rewriteAof_eq (good : Permanent e) :
    rewriteAof iter now e = logBytes ((e.dumpEntries iter now).map restoring) := by
  rw [rewriteAof, logBytes, List.flatMap_map]
  refine List.flatMap_congr fun r inside => ?_
  have ttl := ((mem_dumpEntries good r).1 inside).2
  simp [restoring, aofBytes_set, encodeRecord, Command.ttlMillis, ttl]

theorem restoring_ok (good : Permanent e) (fits : Storable e) :
    ∀ c ∈ (e.dumpEntries iter now).map restoring, Representable c ∧ Lasting c := by
  intro c inside
  obtain ⟨r, listed, rfl⟩ := List.mem_map.1 inside
  obtain ⟨keyOk, valueOk, -⟩ := dumpEntries_ok iter now good fits r listed
  exact ⟨⟨keyOk, valueOk, trivial⟩, rfl⟩

/-! ## Storing records again -/

/-- Records without a time to live keep an engine permanent and act on its
contents as SETs. -/
theorem storeAll_permanent (now : Instant) {records : List (Key × Bytes × Int)} (good : Permanent e)
    (lasting : ∀ r ∈ records, r.2.2 = -1) :
    Permanent (storeAll now records e) ∧
      (storeAll now records e).contents = replay e.contents (records.map restoring) := by
  induction records generalizing e with
  | nil => exact ⟨good, rfl⟩
  | cons r records ih =>
      have forever : (loadedEntry now r).expiresAt = none := by
        simp [loadedEntry, expiryOf, lasting r (by simp)]
      have inserted : Permanent (e.insert r.1 (loadedEntry now r)) := good.insert forever
      obtain ⟨kept, same⟩ := ih inserted fun q inside => lasting q (by simp [inside])
      refine ⟨kept, ?_⟩
      have set : (e.insert r.1 (loadedEntry now r)).contents = apply cell e.contents (restoring r) := by
        funext k
        rw [contents_insert]
        rfl
      show (storeAll now records (e.insert r.1 (loadedEntry now r))).contents = _
      rw [same, set]
      rfl

end Dump

end ZetDb.Storage
