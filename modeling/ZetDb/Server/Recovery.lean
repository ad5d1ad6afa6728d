/-
# Server.Recovery -- the restart of a cleanly stopped server

Embeds the restore sequence of `main.rs`: load the snapshot into a fresh engine,
then replay the whole append-only file on top of it.  The log is not cut when a
snapshot is taken, so every logged command is applied to a state that already
contains its effect.

For a key that the log rewrites (SET, MSET, DEL, FLUSHDB) this is harmless: the
replay passes the rewrite and goes on from there.  A key that is only counted up
is counted twice.  `restart_restores`: the restart restores the contents exactly
when every key is rebuilt by the log (`Rebuilt`).
-/
import ZetDb.Storage.Dump

namespace ZetDb.Server

set_option autoImplicit false

open ZetDb.Theory.Wire ZetDb.Theory.Text ZetDb.Theory.Replay ZetDb.Domain ZetDb.Application
  ZetDb.Storage

/-- The restore sequence of the start-up; a refused snapshot or log is only
reported. -/
def restore (hash : Bytes → UInt32) (iter : Iter) (now : Instant) (snapshot aof : Option Bytes) :
    DashMapEngine :=
  let engine := (loadSnapshot hash iter now snapshot .new).2
  match replayAof iter now aof engine with
  | some (engine, _) => engine
  | none => engine

/-- The engine of a server that started empty and executed `history`. -/
def executed (iter : Iter) (m : MetricsSnapshot) (history : List (Instant × Command)) :
    DashMapEngine :=
  history.foldl (fun e h => exec iter m h.1 e h.2) .new

/-- The files a clean stop leaves behind: the flushed log of every command, in
order, and the final snapshot. -/
structure Stopped where
  snapshot : Bytes
  aof : Bytes

def stop (hash : Bytes → UInt32) (iter : Iter) (m : MetricsSnapshot) (now timestamp : Nat)
    (history : List (Instant × Command)) : Stopped where
  snapshot := dumpSnapshot hash iter now timestamp (executed iter m history)
  aof := logBytes (history.map Prod.snd)

/-- The next start ends with the contents the engine had when it stopped. -/
def RestartRestores (hash : Bytes → UInt32) (iter : Iter) (m : MetricsSnapshot)
    (stoppedAt timestamp startedAt : Nat) (history : List (Instant × Command)) : Prop :=
  let files := stop hash iter m stoppedAt timestamp history
  (restore hash iter startedAt (some files.snapshot) (some files.aof)).contents =
    (executed iter m history).contents

/-! ## Keys the log rebuilds -/

/-- The command leaves the key in a state that does not depend on what it held. -/
def rewrites (k : Key) : Command → Bool
  | .set key _ _ => key == k
  | .del key => key == k
  | .flushDb => true
  | .mset pairs => pairs.any fun p => p.1 == k
  | _ => false

def increments (k : Key) : Command → Bool
  | .incr key => key == k
  | _ => false

/-- Replaying `cs` a second time gives the key the same value: something in the
list rewrites it, or the increments come to a whole turn of the 64-bit counter
(no increments at all, in practice). -/
def Rebuilt (cs : List Command) (k : Key) : Prop :=
  (∃ c ∈ cs, rewrites k c = true) ∨ 2 ^ 64 ∣ cs.countP (increments k)

theorem foldl_pairs_of_mem {pairs : List (Key × Bytes)} {k : Key}
    (named : pairs.any (fun p => p.1 == k) = true) (x y : Option Bytes) :
    pairs.foldl (fun x p => if p.1 = k then some p.2 else x) x =
      pairs.foldl (fun x p => if p.1 = k then some p.2 else x) y := by
  obtain ⟨p, inside, same⟩ := List.any_eq_true.1 named
  obtain ⟨before, after, rfl⟩ := List.append_of_mem inside
  simp [eq_of_beq same]

theorem foldl_pairs_of_not_mem {pairs : List (Key × Bytes)} {k : Key}
    (unnamed : pairs.any (fun p => p.1 == k) = false) (x : Option Bytes) :
    pairs.foldl (fun x p => if p.1 = k then some p.2 else x) x = x := by
  induction pairs generalizing x with
  | nil => rfl
  | cons p pairs ih =>
      simp only [List.any_cons, Bool.or_eq_false_iff, beq_eq_false_iff_ne] at unnamed
      rw [List.foldl_cons, if_neg unnamed.1, ih unnamed.2]

theorem resets_of_rewrites {c : Command} {k : Key} (rewritten : rewrites k c = true) :
    Resets cell c k := by
  intro x y
  cases c with
  | set key value lifetime => simp [cell, eq_of_beq (rewritten : (key == k) = true)]
  | del key => simp [cell, eq_of_beq (rewritten : (key == k) = true)]
  | flushDb => rfl
  | mset pairs => exact foldl_pairs_of_mem rewritten x y
  | _ => cases rewritten

theorem cell_of_increments {c : Command} {k : Key} (counted : increments k c = true) :
    cell c k = incrCell := by
  funext x
  cases c with
  | incr key => simp [cell, eq_of_beq (counted : (key == k) = true)]
  | _ => cases counted

theorem cell_of_untouched {c : Command} {k : Key} (kept : rewrites k c = false)
    (uncounted : increments k c = false) : cell c k = id := by
  funext x
  cases c with
  | set key value lifetime => simp [cell, beq_eq_false_iff_ne.1 (kept : (key == k) = false)]
  | del key => simp [cell, beq_eq_false_iff_ne.1 (kept : (key == k) = false)]
  | incr key => simp [cell, beq_eq_false_iff_ne.1 (uncounted : (key == k) = false)]
  | flushDb => cases kept
  | mset pairs => exact foldl_pairs_of_not_mem kept x
  | _ => rfl

/-! ## Counting twice -/

/-- A printed counter is read back. -/
theorem parseSigned_counter (i : Int) :
    parseSigned 64 (decimalInt (Int.bmod i (2 ^ 64))) = some (Int.bmod i (2 ^ 64)) := by
  have low := Int.le_bmod (x := i) (m := 2 ^ 64) (by norm_num)
  have high := Int.bmod_lt (x := i) (m := 2 ^ 64) (by norm_num)
  exact parseSigned_decimalInt (by norm_num at low ⊢; omega) (by norm_num at high ⊢; omega)

theorem incrCell_counter (i : Int) :
    incrCell (some (decimalInt (Int.bmod i (2 ^ 64)))) =
      some (decimalInt (Int.bmod (i + 1) (2 ^ 64))) := by
  simp only [incrCell, fromUtf8Lossy_decimalInt, parseSigned_counter, Int.bmod_add_bmod]

/-- A missing key counted up `n + 1` times holds `n + 1`, wrapped. -/
theorem incrCell_iterate (n : Nat) :
    incrCell^[n + 1] none = some (decimalInt (Int.bmod (n + 1 : Nat) (2 ^ 64))) := by
  induction n with
  | zero => rfl
  | succ n ih =>
      rw [Function.iterate_succ_apply', ih, incrCell_counter]
      rfl

theorem decimalInt_bmod_inj {i j : Int}
    (same : decimalInt (Int.bmod i (2 ^ 64)) = decimalInt (Int.bmod j (2 ^ 64))) :
    Int.bmod i (2 ^ 64) = Int.bmod j (2 ^ 64) := by
  have parsed := parseSigned_counter i
  rw [same, parseSigned_counter] at parsed
  exact (Option.some.inj parsed).symm

theorem bmod_double_iff (n : Nat) :
    Int.bmod (n + n : Nat) (2 ^ 64) = Int.bmod n (2 ^ 64) ↔ 2 ^ 64 ∣ n := by
  have difference : ((n + n : Nat) : Int) - n = n := by
    push_cast
    ring
  rw [Int.bmod_eq_bmod_iff_bmod_sub_eq_zero, difference, ← Int.dvd_iff_bmod_eq_zero]
  exact Int.natCast_dvd_natCast

/-- Counting twice is counting once exactly for whole turns of the counter. -/
theorem incrCell_twice (n : Nat) :
    incrCell^[n] (incrCell^[n] none) = incrCell^[n] none ↔ 2 ^ 64 ∣ n := by
  rw [← Function.iterate_add_apply]
  cases n with
  | zero => simp
  | succ n =>
      rw [← bmod_double_iff, incrCell_iterate, ← Nat.add_assoc, incrCell_iterate]
      constructor
      · exact fun same => decimalInt_bmod_inj (Option.some.inj same)
      · intro same
        rw [same]

/-- A list replayed on its own outcome changes nothing exactly at the keys it
rebuilds. -/
theorem replay_twice_iff (cs : List Command) (k : Key) :
    replay (replay (fun _ => none) cs) cs k = replay (fun _ => none) cs k ↔ Rebuilt cs k := by
  by_cases rewritten : ∃ c ∈ cs, rewrites k c = true
  · obtain ⟨c, inside, here⟩ := rewritten
    exact iff_of_true (run_of_reset cell ⟨c, inside, resets_of_rewrites here⟩ _ _)
      (.inl ⟨c, inside, here⟩)
  · have kept : ∀ c ∈ cs, rewrites k c = false := fun c inside =>
      Bool.eq_false_iff.2 fun here => rewritten ⟨c, inside, here⟩
    have iterated (s : Contents) : replay s cs k = incrCell^[cs.countP (increments k)] (s k) :=
      run_iterate cell (increments k) (fun c _ counted => cell_of_increments counted)
        (fun c inside uncounted => cell_of_untouched (kept c inside) uncounted) s
    rw [iterated, iterated, incrCell_twice]
    exact ⟨.inr, fun rebuilt => rebuilt.resolve_left rewritten⟩

/-! ## The restart -/

section Restart

variable {hash : Bytes → UInt32} {iter : Iter} {m : MetricsSnapshot}
  {stoppedAt timestamp startedAt : Nat} {history : List (Instant × Command)}

/-- What holds of the engine after a history of representable commands without
a time to live. -/
theorem executed_spec (iter : Iter) (m : MetricsSnapshot)
    (ok : ∀ h ∈ history, Representable h.2 ∧ Lasting h.2) :
    Permanent (executed iter m history) ∧ Storable (executed iter m history) ∧
      (executed iter m history).contents = replay (fun _ => none) (history.map Prod.snd) := by
  -- by induction from any permanent engine the history starts from
  suffices from_ : ∀ e : DashMapEngine, Permanent e → Storable e →
      Permanent (history.foldl (fun e h => exec iter m h.1 e h.2) e) ∧
      Storable (history.foldl (fun e h => exec iter m h.1 e h.2) e) ∧
      (history.foldl (fun e h => exec iter m h.1 e h.2) e).contents =
        replay e.contents (history.map Prod.snd) from
    from_ .new permanent_new storable_new
  induction history with
  | nil => exact fun e good fits => ⟨good, fits, rfl⟩
  | cons h history ih =>
      intro e good fits
      obtain ⟨representable, lasting⟩ := ok h (by simp)
      have next := ih (fun h' inside => ok h' (by simp [inside])) (exec iter m h.1 e h.2)
        (exec_permanent good lasting) (exec_storable fits representable)
      rw [exec_contents good lasting] at next
      exact next

/-- The records of the final snapshot that the count field covers. -/
def loadedRecords (iter : Iter) (m : MetricsSnapshot) (stoppedAt : Instant)
    (history : List (Instant × Command)) : List (Key × Bytes × Int) :=
  ((executed iter m history).dumpEntries iter stoppedAt).take
    (((executed iter m history).dumpEntries iter stoppedAt).length % 2 ^ 32)

/-- The restart replays the SETs of the snapshot, then the whole log. -/
theorem restore_contents (ok : ∀ h ∈ history, Representable h.2 ∧ Lasting h.2) :
    (restore hash iter startedAt (some (stop hash iter m stoppedAt timestamp history).snapshot)
        (some (stop hash iter m stoppedAt timestamp history).aof)).contents =
      replay (replay (fun _ => none) ((loadedRecords iter m stoppedAt history).map restoring))
        (history.map Prod.snd) := by
  obtain ⟨good, fits, -⟩ := executed_spec iter m ok
  have lasting : ∀ r ∈ loadedRecords iter m stoppedAt history, r.2.2 = -1 := fun r inside =>
    ((mem_dumpEntries good r).1 (List.mem_of_mem_take inside)).2
  obtain ⟨kept, loaded⟩ := storeAll_permanent startedAt permanent_new lasting
  have commands : ∀ c ∈ history.map Prod.snd, Representable c ∧ Lasting c := by
    intro c inside
    obtain ⟨h, member, rfl⟩ := List.mem_map.1 inside
    exact ok h member
  have listed := dumpEntries_ok iter stoppedAt good fits
  have snapshot := loadSnapshot_dump (e := .new) hash iter startedAt timestamp
    (fun r inside => (listed r inside).fits) rfl
  rw [map_lossyRecord fun r inside => (listed r (List.mem_of_mem_take inside)).1.2] at snapshot
  have log := replayAof_log iter m startedAt
    (fun c inside => (commands c inside).1) kept.unlimited
  have replayed := execAll_contents iter m startedAt kept
    fun c inside => (commands c inside).2
  rw [← loadedRecords] at snapshot
  simp only [restore, stop, snapshot, log, replayed, loaded]
  rfl

theorem restores_of_rebuilt (ok : ∀ h ∈ history, Representable h.2 ∧ Lasting h.2)
    (rebuilt : ∀ k, Rebuilt (history.map Prod.snd) k) :
    RestartRestores hash iter m stoppedAt timestamp startedAt history := by
  obtain ⟨good, -, final⟩ := executed_spec iter m ok
  simp only [RestartRestores, restore_contents ok]
  funext k
  have base := replay_restoring (loadedRecords iter m stoppedAt history)
    (fun r inside => ((mem_dumpEntries good r).1 (List.mem_of_mem_take inside)).1)
    (fun _ => none) k
  rw [final] at base ⊢
  -- a key missing from the loaded records starts from nothing, as it did the first time
  by_cases listed : k ∈ (loadedRecords iter m stoppedAt history).map Prod.fst
  · rw [if_pos listed] at base
    exact (run_congr_at cell base _).trans ((replay_twice_iff _ k).2 (rebuilt k))
  · rw [if_neg listed] at base
    exact run_congr_at cell base _

theorem rebuilt_of_restores (ok : ∀ h ∈ history, Representable h.2 ∧ Lasting h.2)
    (small : (executed iter m history).len < 2 ^ 32)
    (restored : RestartRestores hash iter m stoppedAt timestamp startedAt history) (k : Key) :
    Rebuilt (history.map Prod.snd) k := by
  obtain ⟨good, -, final⟩ := executed_spec iter m ok
  simp only [RestartRestores, restore_contents ok] at restored
  have all : loadedRecords iter m stoppedAt history =
      (executed iter m history).dumpEntries iter stoppedAt := by
    rw [loadedRecords, dumpEntries_length iter stoppedAt good, Nat.mod_eq_of_lt small,
      ← dumpEntries_length iter stoppedAt good, List.take_length]
  rw [all, replay_dump good, final] at restored
  exact (replay_twice_iff _ k).1 (congrFun restored k)

/-- The restart of a cleanly stopped server restores the contents if the log
rebuilds every key; and only then, as long as the snapshot's count field holds
the number of keys. -/
theorem restart_restores (hash : Bytes → UInt32) (iter : Iter) (m : MetricsSnapshot)
    (stoppedAt timestamp startedAt : Nat) (history : List (Instant × Command))
    (ok : ∀ h ∈ history, Representable h.2 ∧ Lasting h.2) :
    ((∀ k, Rebuilt (history.map Prod.snd) k) →
      RestartRestores hash iter m stoppedAt timestamp startedAt history) ∧
    ((executed iter m history).len < 2 ^ 32 →
      RestartRestores hash iter m stoppedAt timestamp startedAt history →
      ∀ k, Rebuilt (history.map Prod.snd) k) :=
  ⟨restores_of_rebuilt ok, rebuilt_of_restores ok⟩

/-- A counter that was SET first survives the restart. -/
theorem restart_restores_set_counter :
    RestartRestores crc32 Iter.some .new 30 1700000000000 40
      [(10, .set (ascii "c") (ascii "5") none), (20, .incr (ascii "c"))] := by
  refine (restart_restores crc32 Iter.some .new 30 1700000000000 40 _ (by decide)).1 fun k => ?_
  by_cases same : ascii "c" = k
  · subst same
    exact .inl ⟨_, List.mem_cons_self, by decide⟩
  · refine .inr ⟨0, ?_⟩
    simp [increments, same]

/-- `INCR c` on an empty server: the restart finds `2`. -/
theorem restart_counts_twice :
    (∀ h ∈ [((10 : Instant), Command.incr (ascii "c"))], Representable h.2 ∧ Lasting h.2) ∧
      ¬ RestartRestores crc32 Iter.some .new 30 1700000000000 40 [(10, .incr (ascii "c"))] := by
  refine ⟨by decide, fun restored => ?_⟩
  have rebuilt := rebuilt_of_restores (by decide) (by decide) restored (ascii "c")
  rcases rebuilt with ⟨c, inside, rewritten⟩ | whole
  · cases List.mem_singleton.1 inside
    cases rewritten
  · have one : [Command.incr (ascii "c")].countP (increments (ascii "c")) = 1 := by decide
    rw [List.map_singleton, one] at whole
    exact absurd (Nat.le_of_dvd Nat.one_pos whole) (by norm_num)

end Restart

end ZetDb.Server
