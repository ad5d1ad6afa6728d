/-
# Storage.Reload -- what a dump keeps of a live engine

`Storage.Dump` follows engines without lifetimes.  Here entries may expire: a
dump lists what is live at its instant (`mem_dumpEntries_live`), each entry with
the milliseconds it has left, and storing the list rebuilds those entries
(`lookup_storeAll`).  The rewrite of the log and the snapshot list the same
records, so one lemma about the records serves both.

* `loadSnapshot_restores`: a snapshot loaded at the instant of its dump holds the
  live keys with their data, and nothing else.
* `reload_keepsExpiry_iff`: the expiry comes back to the millisecond exactly when
  at least one millisecond is left and the count of milliseconds fits its signed
  field.  Below a millisecond the count is zero, which the dump writes as "no
  time to live": the key becomes permanent.
-/
import ZetDb.Storage.Dump

namespace ZetDb.Storage

set_option autoImplicit false

open ZetDb.Theory.Wire ZetDb.Theory.Text ZetDb.Domain ZetDb.Application

/-- The entry of a key that has not expired. -/
def DashMapEngine.live (now : Instant) (e : DashMapEngine) (key : Key) : Option ValueEntry :=
  (e.map.lookup key).filter fun v => !v.isExpiredAt now

section Live

variable {iter : Iter} {now : Instant} {e : DashMapEngine}

theorem live_eq_some {key : Key} {v : ValueEntry} :
    e.live now key = some v ↔ e.map.lookup key = some v ∧ v.isExpiredAt now = false := by
  simp [DashMapEngine.live, Option.filter_eq_some_iff]

/-- A dump lists the live entries, each with the time it has left. -/
theorem mem_dumpEntries_live (r : Key × Bytes × Int) :
    r ∈ e.dumpEntries iter now ↔
      ∃ v, e.live now r.1 = some v ∧ r.2 = (v.data, DashMapEngine.remainingMillis now v) := by
  simp only [DashMapEngine.dumpEntries, List.mem_map, List.mem_filter, mem_iter_list, live_eq_some,
    Bool.not_eq_true']
  constructor
  · rintro ⟨entry, held, rfl⟩
    exact ⟨entry.2, held, rfl⟩
  · rintro ⟨v, held, fields⟩
    exact ⟨⟨r.1, v⟩, held, by rw [← fields]⟩

theorem dumpEntries_nodup (iter : Iter) (now : Instant) (e : DashMapEngine) :
    ((e.dumpEntries iter now).map Prod.fst).Nodup := by
  have keys : (iter.list e.map).NodupKeys := by
    have nodup := e.map.nodupKeys
    rwa [← iter.lists] at nodup
  rw [DashMapEngine.dumpEntries, List.map_map]
  exact List.Nodup.sublist (List.filter_sublist.map Sigma.fst) keys

/-- No key is dumped twice. -/
theorem dumpEntries_unique {r q : Key × Bytes × Int} (first : r ∈ e.dumpEntries iter now)
    (second : q ∈ e.dumpEntries iter now) (same : q.1 = r.1) : q = r := by
  obtain ⟨v, held, fields⟩ := (mem_dumpEntries_live r).1 first
  obtain ⟨w, heldToo, fieldsToo⟩ := (mem_dumpEntries_live q).1 second
  rw [same, held] at heldToo
  cases heldToo
  exact Prod.ext same (fieldsToo.trans fields.symm)

theorem dumpEntries_length_le : (e.dumpEntries iter now).length ≤ e.len := by
  have all : (iter.list e.map).length = e.len := by
    rw [← Multiset.coe_card, iter.lists]
    rfl
  rw [DashMapEngine.dumpEntries, List.length_map, ← all]
  exact List.length_filter_le _ _

theorem remainingMillis_ok (v : ValueEntry) : TtlOk (DashMapEngine.remainingMillis now v) := by
  have absent : TtlOk (-1) := ⟨by decide, by decide⟩
  unfold DashMapEngine.remainingMillis
  cases v.expiresAt with
  | none => exact absent
  | some expiry =>
      show TtlOk (if asI64 (Duration.asMillis (expiry - now)) > 0 then _ else _)
      split
      · exact asI64_range _
      · exact absent

theorem dumpEntries_fits (iter : Iter)
    (fits : ∀ k v, e.live now k = some v → k.length ≤ 65535 ∧ ValueOk v.data) :
    ∀ r ∈ e.dumpEntries iter now, RecordFits r := by
  intro r listed
  obtain ⟨v, held, fields⟩ := (mem_dumpEntries_live r).1 listed
  obtain ⟨short, valueOk⟩ := fits _ _ held
  refine ⟨short, ?_⟩
  rw [fields]
  exact ⟨valueOk, remainingMillis_ok v⟩

end Live

/-! ## Storing records -/

section Store

variable {now : Instant} {e : DashMapEngine} {records : List (Key × Bytes × Int)}

theorem lookup_storeAll_missing {key : Key} (missing : ∀ r ∈ records, r.1 ≠ key) :
    (storeAll now records e).map.lookup key = e.map.lookup key := by
  induction records generalizing e with
  | nil => rfl
  | cons r records ih =>
      have other : key ≠ r.1 := (missing r (by simp)).symm
      have rest := ih (e := e.insert r.1 (loadedEntry now r)) fun q inside => missing q (by simp [inside])
      exact rest.trans (Finmap.lookup_insert_of_ne _ other)

/-- A key that one record names, and no other, holds that record. -/
theorem lookup_storeAll {r : Key × Bytes × Int} (inside : r ∈ records)
    (alone : ∀ q ∈ records, q.1 = r.1 → q = r) :
    (storeAll now records e).map.lookup r.1 = some (loadedEntry now r) := by
  induction records generalizing e with
  | nil => cases inside
  | cons q records ih =>
      show (storeAll now records (e.insert q.1 (loadedEntry now q))).map.lookup r.1 = _
      by_cases later : ∃ p ∈ records, p.1 = r.1
      · obtain ⟨p, listed, same⟩ := later
        have isRecord : p = r := alone p (by simp [listed]) same
        exact ih (isRecord ▸ listed) fun p listed => alone p (by simp [listed])
      · have missing : ∀ p ∈ records, p.1 ≠ r.1 := fun p listed same => later ⟨p, listed, same⟩
        have isHead : r = q := by
          rcases List.mem_cons.1 inside with head | tail
          · exact head
          · exact absurd rfl (missing r tail)
        rw [lookup_storeAll_missing missing, ← isHead]
        exact Finmap.lookup_insert _

/-- Where a key reads back as itself, and no other live key reads back as it, its
record is found again if it was among those stored. -/
theorem lookup_reloaded {iter : Iter} {live : DashMapEngine} {key : Key} {v : ValueEntry}
    (sub : ∀ r ∈ records, r ∈ live.dumpEntries iter now) (held : live.live now key = some v)
    (alone : ∀ k w, live.live now k = some w → (fromUtf8Lossy k = key ↔ k = key)) :
    (storeAll now (records.map lossyRecord) e).map.lookup key =
      if (key, v.data, DashMapEngine.remainingMillis now v) ∈ records then
        some ⟨v.data, expiryOf now (DashMapEngine.remainingMillis now v), some now⟩
      else e.map.lookup key := by
  have itself : fromUtf8Lossy key = key := (alone key v held).2 rfl
  have only : ∀ p ∈ records, (lossyRecord p).1 = key →
      p = (key, v.data, DashMapEngine.remainingMillis now v) := by
    intro p inside same
    obtain ⟨w, pHeld, -⟩ := (mem_dumpEntries_live p).1 (sub p inside)
    have isKey : p.1 = key := (alone p.1 w pHeld).1 same
    have listed : (key, v.data, DashMapEngine.remainingMillis now v) ∈ live.dumpEntries iter now :=
      (mem_dumpEntries_live _).2 ⟨v, held, rfl⟩
    exact dumpEntries_unique listed (sub p inside) isKey
  by_cases stored : (key, v.data, DashMapEngine.remainingMillis now v) ∈ records
  · rw [if_pos stored]
    have inside : (key, v.data, DashMapEngine.remainingMillis now v) ∈ records.map lossyRecord :=
      List.mem_map.2 ⟨_, stored, Prod.ext itself rfl⟩
    apply lookup_storeAll inside
    intro q inside same
    obtain ⟨p, pInside, rfl⟩ := List.mem_map.1 inside
    rw [only p pInside same]
    exact Prod.ext itself rfl
  · rw [if_neg stored]
    apply lookup_storeAll_missing
    intro q inside same
    obtain ⟨p, pInside, rfl⟩ := List.mem_map.1 inside
    exact stored (only p pInside same ▸ pInside)

end Store

/-! ## Dump and load -/

section Snapshot

variable {now : Instant} {e : DashMapEngine}

/-- Every live key is read back as itself. -/
theorem alone_of_valid (valid : ∀ k v, e.live now k = some v → ValidUtf8 k) (key : Key) :
    ∀ k v, e.live now k = some v → (fromUtf8Lossy k = key ↔ k = key) := by
  intro k v held
  rw [fromUtf8Lossy_of_valid (valid k v held)]

/-- A snapshot loaded into an empty engine at the instant of its dump is accepted,
every record is counted, and the engine holds the live keys with their data and
nothing else. -/
theorem loadSnapshot_restores (hash : Bytes → UInt32) (dumpIter loadIter : Iter) (now : Instant)
    (timestamp : Nat) (e : DashMapEngine) (few : e.len < 2 ^ 32)
    (fits : ∀ k v, e.live now k = some v → KeyOk k ∧ ValueOk v.data) :
    ∃ loaded, loadSnapshot hash loadIter now
        (some (dumpSnapshot hash dumpIter now timestamp e)) .new =
          (.ok (e.dumpEntries dumpIter now).length, loaded) ∧
      ∀ k, (loaded.map.lookup k).map (·.data) = (e.live now k).map (·.data) := by
  have lengths : ∀ k v, e.live now k = some v → k.length ≤ 65535 ∧ ValueOk v.data :=
    fun k v held => ⟨(fits k v held).1.1, (fits k v held).2⟩
  have counted : (e.dumpEntries dumpIter now).length % 2 ^ 32 = (e.dumpEntries dumpIter now).length :=
    Nat.mod_eq_of_lt (Nat.lt_of_le_of_lt dumpEntries_length_le few)
  have load := loadSnapshot_dump hash loadIter now timestamp (e := .new)
    (dumpEntries_fits dumpIter lengths) rfl
  rw [counted, List.take_length] at load
  refine ⟨_, load, fun k => ?_⟩
  cases held : e.live now k with
  | some v =>
      have listed : (k, v.data, DashMapEngine.remainingMillis now v) ∈ e.dumpEntries dumpIter now :=
        (mem_dumpEntries_live _).2 ⟨v, held, rfl⟩
      rw [lookup_reloaded (fun _ inside => inside) held
        (alone_of_valid (fun k v held => (fits k v held).1.2) k), if_pos listed]
      rfl
  | none =>
      have missing : ∀ r ∈ (e.dumpEntries dumpIter now).map lossyRecord, r.1 ≠ k := by
        intro r inside same
        obtain ⟨q, listed, rfl⟩ := List.mem_map.1 inside
        obtain ⟨v, qHeld, -⟩ := (mem_dumpEntries_live q).1 listed
        rw [lossyRecord_of_valid (fits _ _ qHeld).1.2] at same
        rw [same, held] at qHeld
        cases qHeld
      rw [lookup_storeAll_missing missing]
      rfl

/-- A permanent key, one that expires at 51 and one that expires at 50. -/
def threeKeys : DashMapEngine :=
  ((DashMapEngine.new.insert (ascii "a") ⟨[0, 255], none, some 1⟩).insert (ascii "b")
    ⟨ascii "x", some 51, some 1⟩).insert (ascii "c") ⟨[], some 50, some 1⟩

theorem threeKeys_storable : Storable threeKeys :=
  ((storable_new.insert (by decide) (by decide)).insert (by decide) (by decide)).insert
    (by decide) (by decide)

theorem loadSnapshot_restores_three_keys :
    ∃ loaded, loadSnapshot crc32 Iter.some 50 (some (dumpSnapshot crc32 Iter.some 50 7 threeKeys)) .new =
        (.ok (threeKeys.dumpEntries Iter.some 50).length, loaded) ∧
      ∀ k, (loaded.map.lookup k).map (·.data) = (threeKeys.live 50 k).map (·.data) :=
  loadSnapshot_restores crc32 Iter.some Iter.some 50 7 threeKeys (by decide)
    fun _ _ held => threeKeys_storable.fits (live_eq_some.1 held).1

end Snapshot

/-! ## The expiry -/

section Lifetimes

variable {now : Instant} {v : ValueEntry}

/-- A reloaded entry has the expiry of the original, less than a millisecond
early; without one it has none. -/
def KeepsExpiry (original : ValueEntry) (reloaded : Option ValueEntry) : Prop :=
  ∀ w, reloaded = some w →
    match original.expiresAt with
    | none => w.expiresAt = none
    | some expiry => ∃ kept, w.expiresAt = some kept ∧
        expiry < kept + Duration.fromMillis 1 ∧ kept ≤ expiry

/-- At least a millisecond is left, and the count of milliseconds fits its field. -/
def CountsDown (now : Instant) (v : ValueEntry) : Prop :=
  ∀ expiry, v.expiresAt = some expiry →
    Duration.fromMillis 1 ≤ expiry - now ∧ Duration.asMillis (expiry - now) < 2 ^ 63

/-- A dumped time to live is absent, or a count below `2 ^ 63`. -/
theorem remainingMillis_cases (now : Instant) (v : ValueEntry) :
    DashMapEngine.remainingMillis now v = -1 ∨
      0 < DashMapEngine.remainingMillis now v ∧ DashMapEngine.remainingMillis now v < 2 ^ 63 := by
  unfold DashMapEngine.remainingMillis
  cases v.expiresAt with
  | none => exact .inl rfl
  | some expiry =>
      show (if asI64 (Duration.asMillis (expiry - now)) > 0 then _ else _) = _ ∨ _
      by_cases positive : asI64 (Duration.asMillis (expiry - now)) > 0
      · simp only [if_pos positive]
        exact .inr ⟨positive, (asI64_range _).2⟩
      · exact .inl (if_neg positive)

/-- The cast wraps from `2 ^ 63` on: what it leaves is smaller by a multiple of `2 ^ 64`. -/
theorem asI64_of_le {n : Nat} (big : 2 ^ 63 ≤ n) : asI64 n + 2 ^ 64 ≤ n := by
  have range := asI64_range n
  have multiple : (asI64 n - n) % (2 ^ 64 : Int) = 0 := by
    unfold asI64
    rw [Int.sub_emod, show (2 ^ 64 : Int) = ((2 ^ 64 : Nat) : Int) from rfl, Int.bmod_emod, Int.sub_self,
      Int.zero_emod]
  omega

/-- The milliseconds left, as the cast leaves them, and the time they are taken
from: positive and within the last millisecond exactly when they were counted in
full. -/
theorem counted_iff (left : Nat) :
    (0 < asI64 (left / 1000000) ∧ left < (asI64 (left / 1000000)).toNat * 1000000 + 1000000 ∧
      (asI64 (left / 1000000)).toNat * 1000000 ≤ left) ↔
      1000000 ≤ left ∧ left / 1000000 < 2 ^ 63 := by
  by_cases small : left / 1000000 < 2 ^ 63
  · rw [asI64_of_lt small]
    omega
  · have wrapped := asI64_of_le (Nat.not_lt.mp small)
    omega

theorem expiryOf_remaining {left : Nat} (expires : v.expiresAt = some (now + left)) :
    expiryOf now (DashMapEngine.remainingMillis now v) =
      if 0 < asI64 (left / 1000000) then some (now + (asI64 (left / 1000000)).toNat * 1000000)
      else none := by
  have rest : now + left - now = left := Nat.add_sub_cancel_left _ _
  unfold DashMapEngine.remainingMillis
  simp only [expires, rest, Duration.asMillis]
  by_cases positive : 0 < asI64 (left / 1000000)
  · rw [if_pos positive, if_pos positive, expiryOf, if_pos positive]
    rfl
  · rw [if_neg positive, if_neg positive]
    rfl

theorem keepsExpiry_iff (alive : v.isExpiredAt now = false) (data : Bytes) (created : Option Instant) :
    KeepsExpiry v (some ⟨data, expiryOf now (DashMapEngine.remainingMillis now v), created⟩) ↔
      CountsDown now v := by
  unfold KeepsExpiry CountsDown
  cases expires : v.expiresAt with
  | none => simp [DashMapEngine.remainingMillis, expires, expiryOf]
  | some expiry =>
      have ahead : now < expiry := by simpa [ValueEntry.isExpiredAt, expires] using alive
      obtain ⟨left, rfl⟩ : ∃ left : Nat, expiry = now + left :=
        ⟨expiry - now, (Nat.add_sub_of_le ahead.le).symm⟩
      have rest : now + left - now = left := Nat.add_sub_cancel_left _ _
      simp only [expiryOf_remaining expires, Option.some.injEq, forall_eq', rest, Duration.asMillis,
        Duration.fromMillis, one_mul]
      rw [← counted_iff left]
      by_cases positive : 0 < asI64 (left / 1000000)
      · rw [if_pos positive]
        simp only [positive, true_and, Option.some.injEq, exists_eq_left', Nat.add_assoc,
          Nat.add_lt_add_iff_left, Nat.add_le_add_iff_left]
      · simp [positive]

/-- The SET that a rewrite logs for a record. -/
def recordCommand (r : Key × Bytes × Int) : Command :=
  .set r.1 r.2.1 (if r.2.2 > 0 then some (Duration.fromMillis r.2.2.toNat) else none)

theorem ttlMillis_recordCommand {ttlMs : Int} (shape : ttlMs = -1 ∨ 0 < ttlMs ∧ ttlMs < 2 ^ 63) :
    Command.ttlMillis (if ttlMs > 0 then some (Duration.fromMillis ttlMs.toNat) else none) = ttlMs := by
  rcases shape with rfl | ⟨positive, small⟩
  · rfl
  · have whole : (Duration.fromMillis ttlMs.toNat).asMillis = ttlMs.toNat :=
      Nat.mul_div_cancel _ (by decide)
    rw [if_pos positive, Command.ttlMillis, whole, asI64_of_lt (by omega)]
    omega

theorem replayAll_records (iter : Iter) (m : MetricsSnapshot) {records : List (Key × Bytes × Int)}
    (shapes : ∀ r ∈ records, r.2.2 = -1 ∨ 0 < r.2.2 ∧ r.2.2 < 2 ^ 63) {e : DashMapEngine}
    (unlimited : e.maxKeys = 0) :
    replayAll iter m now e ((records.map recordCommand).map lossyCommand) =
      storeAll now (records.map lossyRecord) e := by
  induction records generalizing e with
  | nil => rfl
  | cons r records ih =>
      have stored : replayCommand iter m now e (lossyCommand (recordCommand r)) =
          e.insert (lossyRecord r).1 (loadedEntry now (lossyRecord r)) := by
        rw [recordCommand, lossyCommand, replayCommand_set, DashMapEngine.set_unlimited unlimited,
          ttlMillis_recordCommand (shapes r (by simp))]
        rfl
      show replayAll iter m now (replayCommand iter m now e (lossyCommand (recordCommand r))) _ = _
      rw [stored]
      exact ih (fun q inside => shapes q (by simp [inside]))
        (show (e.insert _ _).maxKeys = 0 from unlimited)

/-- The rewritten log holds the records of the dump, and its replay stores them. -/
theorem replayAof_rewrite (rewriteIter replayIter : Iter) (now : Instant) (e : DashMapEngine)
    (fits : ∀ k v, e.live now k = some v → k.length ≤ 65535 ∧ ValueOk v.data) :
    replayAof replayIter now (some (rewriteAof rewriteIter now e)) .new =
      some (storeAll now ((e.dumpEntries rewriteIter now).map lossyRecord) .new,
        (e.dumpEntries rewriteIter now).length) := by
  have shapes : ∀ r ∈ e.dumpEntries rewriteIter now, r.2.2 = -1 ∨ 0 < r.2.2 ∧ r.2.2 < 2 ^ 63 := by
    intro r listed
    obtain ⟨v, -, fields⟩ := (mem_dumpEntries_live r).1 listed
    rw [fields]
    exact remainingMillis_cases now v
  have allFit := dumpEntries_fits rewriteIter fits
  generalize recordsAre : e.dumpEntries rewriteIter now = records at shapes allFit
  have log : rewriteAof rewriteIter now e = logBytes (records.map recordCommand) := by
    rw [rewriteAof, recordsAre, logBytes, List.flatMap_map]
    refine List.flatMap_congr fun r inside => ?_
    rw [recordCommand, aofBytes_set, ttlMillis_recordCommand (shapes r inside)]
    simp [encodeRecord]
  have commandsFit : ∀ c ∈ records.map recordCommand, FieldsFit c := by
    intro c inside
    obtain ⟨r, listed, rfl⟩ := List.mem_map.1 inside
    exact ⟨(allFit r listed).1, (allFit r listed).2.1⟩
  rw [log, replayAof_fits replayIter .new now commandsFit rfl, List.length_map,
    replayAll_records replayIter .new shapes rfl]

section Reloaded

variable {e : DashMapEngine} {key : Key}
  (fits : ∀ k v, e.live now k = some v → k.length ≤ 65535 ∧ ValueOk v.data)
  (held : e.live now key = some v)
  (alone : ∀ k w, e.live now k = some w → (fromUtf8Lossy k = key ↔ k = key))

include fits held alone

/-- The snapshot holds the entry, unless the count field no longer reaches it. -/
theorem lookup_loadSnapshot (hash : Bytes → UInt32) (dumpIter loadIter : Iter) (timestamp : Nat) :
    (loadSnapshot hash loadIter now (some (dumpSnapshot hash dumpIter now timestamp e)) .new).2.map.lookup
        key = some ⟨v.data, expiryOf now (DashMapEngine.remainingMillis now v), some now⟩ ∨
      (loadSnapshot hash loadIter now
        (some (dumpSnapshot hash dumpIter now timestamp e)) .new).2.map.lookup key = none := by
  rw [loadSnapshot_dump hash loadIter now timestamp (dumpEntries_fits dumpIter fits) rfl,
    lookup_reloaded (fun _ inside => List.mem_of_mem_take inside) held alone]
  split
  · exact .inl rfl
  · exact .inr rfl

theorem lookup_replayAof (rewriteIter replayIter : Iter) :
    ∃ replayed count, replayAof replayIter now (some (rewriteAof rewriteIter now e)) .new =
        some (replayed, count) ∧
      replayed.map.lookup key =
        some ⟨v.data, expiryOf now (DashMapEngine.remainingMillis now v), some now⟩ := by
  refine ⟨_, _, replayAof_rewrite rewriteIter replayIter now e fits, ?_⟩
  rw [lookup_reloaded (fun _ inside => inside) held alone, if_pos]
  exact (mem_dumpEntries_live _).2 ⟨v, held, rfl⟩

end Reloaded

/-- Dump and reload at one instant, through the snapshot and through the rewritten
log: the entry of a key keeps its expiry exactly when at least one millisecond is
left and the milliseconds fit the signed field.  The lengths fit their fields, and
the key is the only one that reads back as it. -/
theorem reload_keepsExpiry_iff (hash : Bytes → UInt32) (dumpIter loadIter rewriteIter replayIter : Iter)
    (now : Instant) (timestamp : Nat) (e : DashMapEngine)
    (fits : ∀ k v, e.live now k = some v → k.length ≤ 65535 ∧ ValueOk v.data)
    {key : Key} {v : ValueEntry} (held : e.live now key = some v)
    (alone : ∀ k w, e.live now k = some w → (fromUtf8Lossy k = key ↔ k = key)) :
    (KeepsExpiry v ((loadSnapshot hash loadIter now
        (some (dumpSnapshot hash dumpIter now timestamp e)) .new).2.map.lookup key) ∧
      ∃ replayed count, replayAof replayIter now (some (rewriteAof rewriteIter now e)) .new =
          some (replayed, count) ∧ KeepsExpiry v (replayed.map.lookup key)) ↔
      CountsDown now v := by
  have same := keepsExpiry_iff (live_eq_some.1 held).2 v.data (some now)
  constructor
  · rintro ⟨-, replayed, count, replay, kept⟩
    obtain ⟨replayed', count', replay', found⟩ := lookup_replayAof fits held alone rewriteIter replayIter
    cases replay.symm.trans replay'
    rw [found] at kept
    exact same.1 kept
  · intro counted
    have kept := same.2 counted
    obtain ⟨replayed, count, replay, found⟩ := lookup_replayAof fits held alone rewriteIter replayIter
    refine ⟨?_, replayed, count, replay, found ▸ kept⟩
    rcases lookup_loadSnapshot fits held alone hash dumpIter loadIter timestamp with loaded | missing
    · rw [loaded]
      exact kept
    · rw [missing]
      exact fun w impossible => by cases impossible

/-- What `SET k v EX 1` leaves at the instant 0. -/
def oneSecond : DashMapEngine :=
  DashMapEngine.new.insert (ascii "k") ⟨ascii "v", some 1000000000, some 0⟩

theorem oneSecond_storable : Storable oneSecond := storable_new.insert (by decide) (by decide)

theorem oneSecond_fits (now : Instant) (k : Key) (v : ValueEntry) (held : oneSecond.live now k = some v) :
    k.length ≤ 65535 ∧ ValueOk v.data :=
  have ok := oneSecond_storable.fits (live_eq_some.1 held).1
  ⟨ok.1.1, ok.2⟩

theorem oneSecond_alone (now : Instant) : ∀ k w, oneSecond.live now k = some w →
    (fromUtf8Lossy k = ascii "k" ↔ k = ascii "k") :=
  alone_of_valid (fun _ _ held => (oneSecond_storable.fits (live_eq_some.1 held).1).1.2) _

theorem oneSecond_live {now : Instant} (early : now < 1000000000) :
    oneSecond.live now (ascii "k") = some ⟨ascii "v", some 1000000000, some 0⟩ := by
  refine live_eq_some.2 ⟨Finmap.lookup_insert _, ?_⟩
  simpa [ValueEntry.isExpiredAt] using early

/-- Dumped in the middle of its second, the key expires when it would have. -/
theorem reload_keepsExpiry_half_a_second :
    KeepsExpiry ⟨ascii "v", some 1000000000, some 0⟩ ((loadSnapshot crc32 Iter.some 500000000
        (some (dumpSnapshot crc32 Iter.some 500000000 7 oneSecond)) .new).2.map.lookup (ascii "k")) ∧
      ∃ replayed count, replayAof Iter.some 500000000 (some (rewriteAof Iter.some 500000000 oneSecond)) .new =
          some (replayed, count) ∧
        KeepsExpiry ⟨ascii "v", some 1000000000, some 0⟩ (replayed.map.lookup (ascii "k")) := by
  apply (reload_keepsExpiry_iff crc32 Iter.some Iter.some Iter.some Iter.some 500000000 7 oneSecond
    (oneSecond_fits 500000000) (oneSecond_live (by decide)) (oneSecond_alone 500000000)).2
  intro expiry isExpiry
  cases isExpiry
  decide

/-- Dumped half a millisecond before it expires, the key becomes permanent. -/
theorem reload_loses_expiry :
    oneSecond.live 999500000 (ascii "k") = some ⟨ascii "v", some 1000000000, some 0⟩ ∧
      ∃ replayed count, replayAof Iter.some 999500000 (some (rewriteAof Iter.some 999500000 oneSecond)) .new =
          some (replayed, count) ∧
        replayed.map.lookup (ascii "k") = some ⟨ascii "v", none, some 999500000⟩ ∧
        ¬ KeepsExpiry ⟨ascii "v", some 1000000000, some 0⟩ (replayed.map.lookup (ascii "k")) := by
  have held : oneSecond.live 999500000 (ascii "k") = _ := oneSecond_live (by decide)
  obtain ⟨replayed, count, replay, found⟩ :=
    lookup_replayAof (oneSecond_fits 999500000) held (oneSecond_alone 999500000) Iter.some Iter.some
  refine ⟨held, replayed, count, replay, found, ?_⟩
  rw [found]
  intro kept
  obtain ⟨expiry, impossible, -⟩ := kept _ rfl
  cases impossible

end Lifetimes

end ZetDb.Storage
