/-
# Storage.Contents -- what the engine holds: a map changed key by key

The abstract view of the engine: the map from keys to value bytes.  Each command
changes every cell on its own (`cell`), without a look at other keys, the clock,
the key limit or the iteration order.

On a permanent engine (no key limit, nothing expires) the dispatcher refines this
view: a command without a time to live keeps the engine permanent and acts on the
contents as `cell` says (`exec_contents`).
-/
import ZetDb.Application.Dispatcher
import ZetDb.Theory.Replay

namespace ZetDb.Storage

set_option autoImplicit false

open ZetDb.Theory.Wire ZetDb.Theory.Text ZetDb.Theory.Replay ZetDb.Domain ZetDb.Application
  ZetDb.Protocol

abbrev Contents := Key → Option Bytes

def DashMapEngine.contents (e : DashMapEngine) : Contents := fun k => (e.map.lookup k).map (·.data)

/-! ## The abstract commands -/

/-- INCR on one cell: a missing key counts from zero, a non-integer stays. -/
def incrCell : Option Bytes → Option Bytes
  | none => some (ascii "1")
  | some data =>
      match parseSigned 64 (fromUtf8Lossy data) with
      | none => some data
      | some val => some (decimalInt (Int.bmod (val + 1) (2 ^ 64)))

/-- What a command does to the cell at `k`. -/
def cell (c : Command) (k : Key) (x : Option Bytes) : Option Bytes :=
  match c with
  | .set key value _ => if key = k then some value else x
  | .del key => if key = k then none else x
  | .incr key => if key = k then incrCell x else x
  | .flushDb => none
  | .mset pairs => pairs.foldl (fun x p => if p.1 = k then some p.2 else x) x
  | _ => x

/-- The contents after a list of commands. -/
def replay : Contents → List Command → Contents := run (apply cell)

theorem replay_concat (s : Contents) (cs : List Command) (c : Command) :
    replay s (cs ++ [c]) = apply cell (replay s cs) c := run_append _ _ _ _

/-- A command that sets no time to live. -/
def Lasting : Command → Prop
  | .set _ _ lifetime => lifetime = none
  | .expire .. => False
  | _ => True

instance : DecidablePred Lasting := fun c => by
  cases c <;> unfold Lasting <;> infer_instance

/-! ## Permanent engines -/

/-- No key limit, and nothing ever expires. -/
structure Permanent (e : DashMapEngine) : Prop where
  unlimited : e.maxKeys = 0
  forever : ∀ {k v}, e.map.lookup k = some v → v.expiresAt = none

section Permanent

variable {iter : Iter} {m : MetricsSnapshot} {now : Instant} {e : DashMapEngine} {key : Key}

theorem permanent_new : Permanent .new := ⟨rfl, fun found => by cases found⟩

theorem contents_insert (e : DashMapEngine) (key : Key) (v : ValueEntry) (k : Key) :
    (e.insert key v).contents k = if key = k then some v.data else e.contents k := by
  unfold DashMapEngine.contents DashMapEngine.insert
  by_cases same : key = k
  · subst same
    simp
  · rw [Finmap.lookup_insert_of_ne _ (Ne.symm same), if_neg same]

theorem contents_remove (e : DashMapEngine) (key : Key) (k : Key) :
    (e.remove key).contents k = if key = k then none else e.contents k := by
  unfold DashMapEngine.contents DashMapEngine.remove
  by_cases same : key = k
  · subst same
    simp
  · rw [Finmap.lookup_erase_ne (Ne.symm same), if_neg same]

theorem Permanent.insert (good : Permanent e) {v : ValueEntry} (lasts : v.expiresAt = none) :
    Permanent (e.insert key v) where
  unlimited := good.unlimited
  forever := by
    intro k w found
    rcases DashMapEngine.lookup_of_insert found with ⟨-, rfl⟩ | held
    · exact lasts
    · exact good.forever held

theorem Permanent.remove (good : Permanent e) : Permanent (e.remove key) where
  unlimited := good.unlimited
  forever := by
    intro k w found
    exact good.forever (DashMapEngine.lookup_of_remove found)

theorem Permanent.clear (good : Permanent e) : Permanent e.clear :=
  ⟨good.unlimited, fun found => by cases found⟩

/-- On a permanent engine an entry that is found is live. -/
theorem Permanent.live (good : Permanent e) {v : ValueEntry} (found : e.map.lookup key = some v)
    (now : Instant) : v.isExpiredAt now = false :=
  ValueEntry.isExpiredAt_of_none (good.forever found) now

/-! ## Each operation on the contents -/

theorem incr_contents (good : Permanent e) (k : Key) :
    (e.incr iter now key).2.contents k = cell (.incr key) k (e.contents k) := by
  rw [DashMapEngine.incr_unlimited good.unlimited, cell]
  cases found : e.map.lookup key with
  | none =>
      rw [contents_insert]
      by_cases same : key = k
      · subst same
        simp [DashMapEngine.contents, found, incrCell]
      · simp [same]
  | some v =>
      simp only [good.live found now]
      cases parsed : parseSigned 64 (fromUtf8Lossy v.data) with
      | none =>
          by_cases same : key = k
          · subst same
            simp [DashMapEngine.contents, found, incrCell, parsed]
          · simp [same]
      | some val =>
          simp only [Bool.false_eq_true, if_false, contents_insert]
          by_cases same : key = k
          · subst same
            simp [DashMapEngine.contents, found, incrCell, parsed]
          · simp [same]

theorem incr_permanent (good : Permanent e) : Permanent (e.incr iter now key).2 := by
  rw [DashMapEngine.incr_unlimited good.unlimited]
  cases found : e.map.lookup key with
  | none => exact good.insert rfl
  | some v =>
      have lasts : v.expiresAt = none := good.forever found
      simp only [good.live found now]
      cases parseSigned 64 (fromUtf8Lossy v.data) with
      | none => exact good
      | some val => exact good.insert lasts

theorem del_contents (good : Permanent e) (k : Key) :
    (e.del now key).2.contents k = cell (.del key) k (e.contents k) := by
  unfold DashMapEngine.del cell
  cases found : e.map.lookup key with
  | none =>
      by_cases same : key = k
      · subst same
        simp [DashMapEngine.contents, found]
      · simp [same]
  | some v => simp [good.live found now, contents_remove]

theorem del_permanent (good : Permanent e) : Permanent (e.del now key).2 := by
  unfold DashMapEngine.del
  cases found : e.map.lookup key with
  | none => exact good
  | some v =>
      simp only [good.live found now, Bool.not_false, if_true]
      exact good.remove

theorem msetLoop_ok (iter : Iter) (now : Instant) (good : Permanent e) (pairs : List (Key × Bytes)) :
    (msetLoop iter now e pairs).1 = .ok () ∧ Permanent (msetLoop iter now e pairs).2 ∧
      ∀ k, (msetLoop iter now e pairs).2.contents k = cell (.mset pairs) k (e.contents k) := by
  induction pairs generalizing e with
  | nil => exact ⟨rfl, good, fun _ => rfl⟩
  | cons p pairs ih =>
      have inserted : Permanent (e.insert p.1 (ValueEntry.new now p.2)) := good.insert rfl
      have next := ih inserted
      rw [msetLoop, DashMapEngine.set_unlimited good.unlimited]
      refine ⟨next.1, next.2.1, fun k => ?_⟩
      rw [next.2.2 k, contents_insert]
      rfl

theorem removeIfExpired_permanent (good : Permanent e) : e.removeIfExpired now key = e := by
  cases found : e.map.lookup key with
  | none => exact DashMapEngine.removeIfExpired_absent found
  | some v => exact DashMapEngine.removeIfExpired_live found (good.live found now)

theorem get_permanent (good : Permanent e) : (e.get now key).2 = e := by
  rw [DashMapEngine.get_leaves, removeIfExpired_permanent good]

theorem exists_permanent (good : Permanent e) : (e.exists? now key).2 = e := by
  rw [DashMapEngine.exists_leaves, removeIfExpired_permanent good]

theorem ttlSecs_permanent (good : Permanent e) : (e.ttlSecs now key).2 = e := by
  rw [DashMapEngine.ttlSecs_leaves, removeIfExpired_permanent good]

/-! ## The dispatcher refines the abstract commands -/

theorem exec_permanent (good : Permanent e) {c : Command} (lasting : Lasting c) :
    Permanent (exec iter m now e c) := by
  cases c with
  | get key =>
      rw [exec_get, get_permanent good]
      exact good
  | set key value lifetime =>
      cases (lasting : lifetime = none)
      rw [exec_set, DashMapEngine.set_unlimited good.unlimited]
      exact good.insert rfl
  | del key => rw [exec_del]; exact del_permanent good
  | incr key => rw [exec_incr]; exact incr_permanent good
  | «exists» key =>
      rw [exec_exists, exists_permanent good]
      exact good
  | ttl key =>
      rw [exec_ttl, ttlSecs_permanent good]
      exact good
  | expire key seconds => exact lasting.elim
  | flushDb => exact good.clear
  | mset pairs => rw [exec_mset]; exact (msetLoop_ok iter now good pairs).2.1
  | _ => exact good

/-- A command without a time to live acts on every cell as `cell` says. -/
theorem exec_contents (good : Permanent e) {c : Command} (lasting : Lasting c) :
    (exec iter m now e c).contents = apply cell e.contents c := by
  funext k
  rw [apply]
  cases c with
  | get key =>
      rw [exec_get, get_permanent good]
      rfl
  | set key value lifetime =>
      cases (lasting : lifetime = none)
      rw [exec_set, DashMapEngine.set_unlimited good.unlimited, contents_insert]
      rfl
  | del key => rw [exec_del, del_contents good]
  | incr key => rw [exec_incr, incr_contents good]
  | «exists» key =>
      rw [exec_exists, exists_permanent good]
      rfl
  | ttl key =>
      rw [exec_ttl, ttlSecs_permanent good]
      rfl
  | expire key seconds => exact lasting.elim
  | mset pairs => rw [exec_mset, (msetLoop_ok iter now good pairs).2.2]
  | _ => rfl

/-- Executing a list of commands replays it on the contents. -/
theorem execAll_contents (iter : Iter) (m : MetricsSnapshot) (now : Instant) {cs : List Command}
    (good : Permanent e) (lasting : ∀ c ∈ cs, Lasting c) :
    (execAll iter m now e cs).contents = replay e.contents cs := by
  induction cs generalizing e with
  | nil => rfl
  | cons c cs ih =>
      have here := lasting c (by simp)
      rw [execAll_cons, ih (exec_permanent good here) (fun d inside => lasting d (by simp [inside])),
        exec_contents good here]
      rfl

/-- A read changes nothing. -/
theorem exec_of_read (good : Permanent e) {c : Command} (read : c.isWrite = false) :
    exec iter m now e c = e := by
  cases c with
  | get key => rw [exec_get, get_permanent good]
  | «exists» key => rw [exec_exists, exists_permanent good]
  | ttl key => rw [exec_ttl, ttlSecs_permanent good]
  | ping | info | dbSize | keys | mget _ => rfl
  | _ => cases read

/-- A write that is answered with an error changed nothing. -/
theorem exec_of_failure (good : Permanent e) {c : Command} (lasting : Lasting c)
    (failed : (dispatch iter m now e c).1.isSuccess = false) : exec iter m now e c = e := by
  cases c with
  | get key =>
      rw [exec_get, get_permanent good]
  | set key value lifetime =>
      simp [dispatch, DashMapEngine.set_unlimited good.unlimited, Response.isSuccess] at failed
  | del key =>
      unfold exec
      simp only [dispatch, DashMapEngine.del] at failed ⊢
      cases found : e.map.lookup key with
      | none => simp [found, Response.isSuccess] at failed
      | some v => simp [found, good.live found now, Response.isSuccess] at failed
  | incr key =>
      rw [exec_incr]
      simp only [dispatch] at failed
      rw [DashMapEngine.incr_unlimited good.unlimited] at failed ⊢
      cases found : e.map.lookup key with
      | none => simp [found, Response.isSuccess] at failed
      | some v =>
          simp only [found, good.live found now, Bool.false_eq_true, if_false] at failed ⊢
          cases parsed : parseSigned 64 (fromUtf8Lossy v.data) with
          | none => rfl
          | some val => simp [parsed, Response.isSuccess] at failed
  | expire key seconds => exact lasting.elim
  | mset pairs =>
      have loop := msetLoop_ok iter now good pairs
      generalize done : msetLoop iter now e pairs = r at loop
      obtain ⟨r1, r2⟩ := r
      cases (loop.1 : r1 = .ok ())
      simp [dispatch, done, Response.isSuccess] at failed
  | _ => simp [dispatch, Response.isSuccess] at failed

end Permanent

end ZetDb.Storage
