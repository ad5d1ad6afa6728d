/-
# Application.Failures -- which commands fail, and what they leave behind

A command fails for two reasons: INCR meets text that is no integer, or the key
limit leaves no room.  Both can be read off the engine before the command
(`Fails`, `dispatch_fails_iff`).

MSET is a loop of SETs that stops at the first failure.  On a store within its
limit only the first pair can fail: a pair that is stored is a live entry, which
every later pair may evict.  A store that has come over its limit, as two racing
SETs can bring it, takes no new key at all, and there an MSET may fail behind pairs
it has already overwritten (`TearsMset`).  Every other failure leaves nothing new
(`dispatch_failure_leaves`).
-/
import ZetDb.Application.DispatcherFast
import ZetDb.Application.Replies
import ZetDb.Storage.Entries

namespace ZetDb.Application

set_option autoImplicit false

open ZetDb.Theory.Wire ZetDb.Theory.Text ZetDb.Domain ZetDb.Storage ZetDb.Protocol

/-- There are more entries than the limit allows. -/
def OverLimit (e : DashMapEngine) : Prop := 0 < e.maxKeys ∧ e.maxKeys < e.len

/-- The key is new, and no eviction makes room for it. -/
def NoRoom (now : Instant) (e : DashMapEngine) (key : Key) : Prop :=
  e.map.lookup key = none ∧
    (OverLimit e ∨ 0 < e.maxKeys ∧ e.len = e.maxKeys ∧ AllExpired now e)

/-- The commands that fail. -/
def Fails (now : Instant) (e : DashMapEngine) : Command → Prop
  | .set key _ _ => NoRoom now e key
  | .incr key => Refused now e key ∨ NoRoom now e key ∨ Stale now e key ∧ OverLimit e
  | .mset pairs =>
      (∃ p, pairs.head? = some p ∧ NoRoom now e p.1) ∨
        OverLimit e ∧ ∃ p ∈ pairs, e.map.lookup p.1 = none
  | _ => False

/-- An MSET that overwrites its first key and then fails. -/
def TearsMset (e : DashMapEngine) : Command → Prop
  | .mset (p :: rest) =>
      OverLimit e ∧ (e.map.lookup p.1).isSome = true ∧ ∃ q ∈ rest, e.map.lookup q.1 = none
  | _ => False

/-- Every entry of the second engine is an entry of the first. -/
def NothingNew (before after : DashMapEngine) : Prop :=
  Each (fun k v => before.map.lookup k = some v) after

section Engine

variable {iter : Iter} {now : Instant} {e : DashMapEngine} {key : Key}

theorem nothingNew_refl (e : DashMapEngine) : NothingNew e e := fun _ _ found => found

/-! ## SET -/

theorem set_noRoom (iter : Iter) (noRoom : NoRoom now e key) (v : ValueEntry) :
    (e.set iter now key v).1 = .error .outOfMemory ∧ NothingNew e (e.set iter now key v).2 := by
  obtain ⟨missing, full⟩ := noRoom
  have limited : 0 < e.maxKeys := full.elim (fun excess => excess.1) fun exactly => exactly.1
  have many : e.maxKeys ≤ e.len :=
    full.elim (fun excess => Nat.le_of_lt excess.2) fun exactly => Nat.le_of_eq exactly.2.1.symm
  rcases set_full iter now limited missing many v with ⟨k, w, live, -, evicted⟩ | ⟨-, refused⟩
  · have smaller : (e.remove k).len + 1 = e.len := len_remove_held (live_held live)
    rcases full with excess | ⟨-, -, expired⟩
    · -- the eviction does not bring the store below its limit
      rw [evicted, if_pos (by have := excess.2; omega)]
      exact ⟨rfl, (nothingNew_refl e).remove k⟩
    · obtain ⟨held, alive⟩ := live_eq_some.1 live
      rw [expired k w held] at alive
      cases alive
  · rw [refused]
    exact ⟨rfl, nothingNew_refl e⟩

theorem set_stores (iter : Iter) (room : ¬ NoRoom now e key) (v : ValueEntry) :
    (e.set iter now key v).1 = .ok () ∧ (e.set iter now key v).2.map.lookup key = some v := by
  have inserted (e : DashMapEngine) : (e.insert key v).map.lookup key = some v := Finmap.lookup_insert _
  by_cases direct : e.maxKeys = 0 ∨ (e.map.lookup key).isSome = true ∨ e.len < e.maxKeys
  · rw [set_room direct]
    exact ⟨rfl, inserted e⟩
  · simp only [not_or] at direct
    obtain ⟨limited, absent, many⟩ := direct
    have missing : e.map.lookup key = none := by simpa using absent
    rcases set_full iter now (Nat.pos_of_ne_zero limited) missing (by omega) v with
      ⟨k, w, live, -, evicted⟩ | ⟨expired, -⟩
    · have smaller : (e.remove k).len + 1 = e.len := len_remove_held (live_held live)
      have within : ¬ e.maxKeys < e.len := fun excess =>
        room ⟨missing, .inl ⟨Nat.pos_of_ne_zero limited, excess⟩⟩
      rw [evicted, if_neg (by omega)]
      exact ⟨rfl, inserted _⟩
    · refine absurd ⟨missing, ?_⟩ room
      by_cases excess : e.maxKeys < e.len
      · exact .inl ⟨Nat.pos_of_ne_zero limited, excess⟩
      · exact .inr ⟨Nat.pos_of_ne_zero limited, by omega, expired⟩

theorem set_fails_iff (iter : Iter) (now : Instant) (e : DashMapEngine) (key : Key) (v : ValueEntry) :
    (∃ err, (e.set iter now key v).1 = .error err) ↔ NoRoom now e key := by
  constructor
  · rintro ⟨err, failed⟩
    by_contra room
    rw [(set_stores iter room v).1] at failed
    cases failed
  · intro full
    exact ⟨_, (set_noRoom iter full v).1⟩

/-! ## INCR -/

theorem incr_fails_iff (iter : Iter) (now : Instant) (e : DashMapEngine) (key : Key) :
    (∃ err, (e.incr iter now key).1 = .error err) ↔
      Refused now e key ∨ NoRoom now e key ∨ Stale now e key ∧ OverLimit e := by
  cases held : e.map.lookup key with
  | none =>
      have noRefusal : ¬ Refused now e key := by
        rintro ⟨v, found, -⟩
        rw [held] at found
        cases found
      have fresh : ¬ Stale now e key := by
        rintro ⟨v, found, -⟩
        rw [held] at found
        cases found
      have answers := set_fails_iff iter now e key (ValueEntry.new now (ascii "1"))
      rw [incr_missing iter now held]
      simp only [noRefusal, fresh, false_or, false_and, or_false, ← answers]
      rcases (e.set iter now key (ValueEntry.new now (ascii "1"))).1 with err | ⟨⟩ <;> simp [Except.map]
  | some v =>
      have stored : ¬ NoRoom now e key := by
        rintro ⟨missing, -⟩
        rw [held] at missing
        cases missing
      cases expired : v.isExpiredAt now with
      | true =>
          have noRefusal : ¬ Refused now e key := by
            rintro ⟨w, found, alive, -⟩
            cases held.symm.trans found
            rw [expired] at alive
            cases alive
          have stale : Stale now e key := ⟨v, held, expired⟩
          have smaller : (e.remove key).len + 1 = e.len := len_remove_held (by rw [held]; rfl)
          rw [incr_expired iter held expired]
          simp only [noRefusal, stored, stale, false_or, true_and, OverLimit]
          split
          · exact iff_of_true ⟨_, rfl⟩ (by omega)
          · exact iff_of_false (by simp) (by omega)
      | false =>
          have fresh : ¬ Stale now e key := by
            rintro ⟨w, found, dead⟩
            cases held.symm.trans found
            rw [expired] at dead
            cases dead
          simp only [stored, fresh, false_and, or_false]
          by_cases refused : Refused now e key
          · rw [incr_refused refused]
            exact iff_of_true ⟨_, rfl⟩ refused
          · refine iff_of_false ?_ refused
            rintro ⟨err, failed⟩
            have parsed : ∃ n, parseSigned 64 (fromUtf8Lossy v.data) = some n := by
              refine Option.isSome_iff_exists.1 (Option.isSome_iff_ne_none.2 fun nothing => ?_)
              exact refused ⟨v, held, expired, nothing⟩
            obtain ⟨n, parsed⟩ := parsed
            simp [DashMapEngine.incr, held, expired, parsed] at failed

theorem incr_failure_leaves {err : EngineError} (failed : (e.incr iter now key).1 = .error err) :
    NothingNew e (e.incr iter now key).2 := by
  cases held : e.map.lookup key with
  | none =>
      have noRoom : NoRoom now e key := by
        refine (set_fails_iff iter now e key (ValueEntry.new now (ascii "1"))).1 ?_
        rw [incr_missing iter now held] at failed
        rcases called : (e.set iter now key (ValueEntry.new now (ascii "1"))).1 with err | ⟨⟩
        · exact ⟨err, rfl⟩
        · rw [called] at failed
          cases failed
      rw [incr_missing iter now held]
      exact (set_noRoom iter noRoom _).2
  | some v =>
      cases expired : v.isExpiredAt now with
      | true =>
          rw [incr_expired iter held expired] at failed ⊢
          split at failed
          · rename_i full
            rw [if_pos full]
            exact (nothingNew_refl e).remove key
          · cases failed
      | false =>
          unfold DashMapEngine.incr at failed ⊢
          simp only [held, expired, Bool.false_eq_true, if_false] at failed ⊢
          split at failed
          · exact nothingNew_refl e
          · cases failed

/-! ## MSET -/

/-- Within the limit, with a live entry to evict. -/
structure Roomy (now : Instant) (e : DashMapEngine) : Prop where
  within : e.maxKeys = 0 ∨ e.len ≤ e.maxKeys
  live : ∃ k w, e.map.lookup k = some w ∧ w.isExpiredAt now = false

theorem Roomy.room (roomy : Roomy now e) (key : Key) : ¬ NoRoom now e key := by
  obtain ⟨k, w, held, alive⟩ := roomy.live
  rintro ⟨-, ⟨limited, excess⟩ | ⟨limited, -, expired⟩⟩
  · have within := roomy.within
    omega
  · rw [expired k w held] at alive
    cases alive

/-- A pair that is stored leaves room for the next. -/
theorem set_roomy (iter : Iter) (within : e.maxKeys = 0 ∨ e.len ≤ e.maxKeys) (room : ¬ NoRoom now e key)
    (value : Bytes) : Roomy now (e.set iter now key (ValueEntry.new now value)).2 := by
  refine ⟨?_, key, _, (set_stores iter room _).2, ValueEntry.isExpiredAt_of_none rfl now⟩
  by_cases unlimited : e.maxKeys = 0
  · rw [DashMapEngine.set_unlimited unlimited]
    exact .inl unlimited
  · have bounded : Within e.maxKeys e := ⟨rfl, within.resolve_left unlimited⟩
    have after := (Within.set (Nat.pos_of_ne_zero unlimited) bounded iter now key
      (ValueEntry.new now value)).1
    exact .inr (after.limit ▸ after.len)

theorem msetLoop_roomy (iter : Iter) (roomy : Roomy now e) (pairs : List (Key × Bytes)) :
    (msetLoop iter now e pairs).1 = .ok () := by
  induction pairs generalizing e with
  | nil => rfl
  | cons p pairs ih =>
      have stored := (set_stores iter (roomy.room p.1) (ValueEntry.new now p.2)).1
      have next := set_roomy iter roomy.within (roomy.room p.1) p.2
      rcases called : e.set iter now p.1 (ValueEntry.new now p.2) with ⟨result, after⟩
      rw [called] at stored next
      cases stored
      simp only [msetLoop, called]
      exact ih next

/-- Over the limit the pairs of stored keys pass, and the first new key stops. -/
theorem msetLoop_overLimit (iter : Iter) (excess : OverLimit e) (pairs : List (Key × Bytes)) :
    (∃ err, (msetLoop iter now e pairs).1 = .error err) ↔ ∃ p ∈ pairs, e.map.lookup p.1 = none := by
  induction pairs generalizing e with
  | nil => exact iff_of_false (by rintro ⟨err, failed⟩; cases failed) (by simp)
  | cons p pairs ih =>
      cases held : e.map.lookup p.1 with
      | none =>
          have noRoom : NoRoom now e p.1 := ⟨held, .inl excess⟩
          have failed := (set_noRoom iter noRoom (ValueEntry.new now p.2)).1
          rcases called : e.set iter now p.1 (ValueEntry.new now p.2) with ⟨result, after⟩
          rw [called] at failed
          cases failed
          simp only [msetLoop, called]
          exact iff_of_true ⟨_, rfl⟩ ⟨p, by simp, held⟩
      | some v =>
          have isSome : (e.map.lookup p.1).isSome = true := by rw [held]; rfl
          have overStill : OverLimit (e.insert p.1 (ValueEntry.new now p.2)) :=
            ⟨excess.1, by rw [len_insert_held isSome]; exact excess.2⟩
          have same (k : Key) : (e.insert p.1 (ValueEntry.new now p.2)).map.lookup k = none ↔
              e.map.lookup k = none := by
            by_cases this : k = p.1
            · rw [this, held, DashMapEngine.insert, Finmap.lookup_insert]
              simp
            · rw [DashMapEngine.insert, Finmap.lookup_insert_of_ne _ this]
          simp only [msetLoop, set_room (.inr (.inl isSome)), ih overStill, same, List.mem_cons,
            exists_eq_or_imp, held, reduceCtorEq, false_or]

theorem msetLoop_fails_iff (iter : Iter) (now : Instant) (e : DashMapEngine) (pairs : List (Key × Bytes)) :
    (∃ err, (msetLoop iter now e pairs).1 = .error err) ↔
      (∃ p, pairs.head? = some p ∧ NoRoom now e p.1) ∨
        OverLimit e ∧ ∃ p ∈ pairs, e.map.lookup p.1 = none := by
  by_cases excess : OverLimit e
  · rw [msetLoop_overLimit iter excess]
    constructor
    · exact fun missing => .inr ⟨excess, missing⟩
    · rintro (⟨p, first, missing, -⟩ | ⟨-, missing⟩)
      · exact ⟨p, List.mem_of_mem_head? first, missing⟩
      · exact missing
  · simp only [excess, false_and, or_false]
    cases pairs with
    | nil => exact iff_of_false (by rintro ⟨err, failed⟩; cases failed) (by simp)
    | cons p pairs =>
        simp only [List.head?_cons, Option.some.injEq, exists_eq_left']
        by_cases noRoom : NoRoom now e p.1
        · have failed := (set_noRoom iter noRoom (ValueEntry.new now p.2)).1
          rcases called : e.set iter now p.1 (ValueEntry.new now p.2) with ⟨result, after⟩
          rw [called] at failed
          cases failed
          simp only [msetLoop, called]
          exact iff_of_true ⟨_, rfl⟩ noRoom
        · -- behind a pair that is stored no pair fails
          have within : e.maxKeys = 0 ∨ e.len ≤ e.maxKeys := by
            by_contra neither
            exact excess ⟨by omega, by omega⟩
          have stored := (set_stores iter noRoom (ValueEntry.new now p.2)).1
          have next := set_roomy iter within noRoom p.2
          rcases called : e.set iter now p.1 (ValueEntry.new now p.2) with ⟨result, after⟩
          rw [called] at stored next
          cases stored
          simp only [msetLoop, called]
          refine iff_of_false ?_ noRoom
          rintro ⟨err, failed⟩
          rw [msetLoop_roomy iter next] at failed
          cases failed

theorem msetLoop_failure_leaves {pairs : List (Key × Bytes)} {err : EngineError}
    (failed : (msetLoop iter now e pairs).1 = .error err) (whole : ¬ TearsMset e (.mset pairs)) :
    NothingNew e (msetLoop iter now e pairs).2 := by
  have first : ∃ p, pairs.head? = some p ∧ NoRoom now e p.1 := by
    rcases (msetLoop_fails_iff iter now e pairs).1 ⟨err, failed⟩ with first | ⟨excess, q, inside, missing⟩
    · exact first
    · cases pairs with
      | nil => cases inside
      | cons p rest =>
          refine ⟨p, rfl, ?_, .inl excess⟩
          by_contra present
          -- the first key is stored, so it is overwritten and a later one fails
          have isSome : (e.map.lookup p.1).isSome = true := Option.isSome_iff_ne_none.2 present
          rcases List.mem_cons.1 inside with rfl | later
          · exact present missing
          · exact whole ⟨excess, isSome, q, later, missing⟩
  obtain ⟨p, head, noRoom⟩ := first
  obtain ⟨refused, leaves⟩ := set_noRoom iter noRoom (ValueEntry.new now p.2)
  cases pairs with
  | nil => cases head
  | cons p' rest =>
      cases head
      rcases called : e.set iter now p.1 (ValueEntry.new now p.2) with ⟨result, after⟩
      rw [called] at refused leaves
      cases refused
      simp only [msetLoop, called]
      exact leaves

end Engine

/-! ## Commands -/

section Commands

variable {iter : Iter} {m : MetricsSnapshot} {now : Instant} {e : DashMapEngine}

/-- A command is answered by an error exactly when `Fails` says so. -/
theorem dispatch_fails_iff (iter : Iter) (m : MetricsSnapshot) (now : Instant) (e : DashMapEngine)
    (c : Command) : (dispatch iter m now e c).1.isSuccess = false ↔ Fails now e c := by
  cases c with
  | get key =>
      obtain ⟨found, answer⟩ := get_answer now e key
      rcases called : e.get now key with ⟨result, after⟩
      rw [called] at answer
      cases answer
      cases found <;> simp [dispatch, called, Response.isSuccess, Fails]
  | del key =>
      obtain ⟨found, answer⟩ := del_answer now e key
      rcases called : e.del now key with ⟨result, after⟩
      rw [called] at answer
      cases answer
      simp [dispatch, called, Response.isSuccess, Fails]
  | set key value lifetime =>
      rw [Fails, ← set_fails_iff iter now e key (setEntry now value lifetime)]
      rcases called : e.set iter now key (setEntry now value lifetime) with ⟨err | ⟨⟩, after⟩ <;>
        simp [dispatch, called, Response.isSuccess]
  | incr key =>
      rw [Fails, ← incr_fails_iff iter now e key]
      rcases called : e.incr iter now key with ⟨err | n, after⟩ <;>
        simp [dispatch, called, Response.isSuccess]
  | mset pairs =>
      rw [Fails, ← msetLoop_fails_iff iter now e pairs]
      rcases called : msetLoop iter now e pairs with ⟨err | ⟨⟩, after⟩ <;>
        simp [dispatch, called, Response.isSuccess]
  | _ => exact iff_of_false Bool.noConfusion id

/-- A failing command leaves no entry that was not there, but for an MSET that has
overwritten its first keys. -/
theorem dispatch_failure_leaves {c : Command} (failed : (dispatch iter m now e c).1.isSuccess = false)
    (whole : ¬ TearsMset e c) : NothingNew e (dispatch iter m now e c).2 := by
  have fails := (dispatch_fails_iff iter m now e c).1 failed
  cases c with
  | set key value lifetime =>
      show NothingNew e (exec iter m now e (.set key value lifetime))
      rw [exec_set]
      exact (set_noRoom iter fails _).2
  | incr key =>
      obtain ⟨err, refused⟩ := (incr_fails_iff iter now e key).2 fails
      show NothingNew e (exec iter m now e (.incr key))
      rw [exec_incr]
      exact incr_failure_leaves refused
  | mset pairs =>
      obtain ⟨err, refused⟩ := (msetLoop_fails_iff iter now e pairs).2 fails
      show NothingNew e (exec iter m now e (.mset pairs))
      rw [exec_mset]
      exact msetLoop_failure_leaves refused whole
  | _ => exact absurd fails id

end Commands

end ZetDb.Application
