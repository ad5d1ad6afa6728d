/-
# Storage.Entries -- what holds of every stored entry

A property of single entries is kept by a command when the entries the command
writes have it (`exec_each`).  Everything else an operation does to the map is to
remove entries: a read that meets an expired one, DEL, FLUSHDB, the eviction.  So
the rule holds under any key limit.
-/
import ZetDb.Application.Dispatcher

namespace ZetDb.Storage

set_option autoImplicit false

open ZetDb.Theory.Wire ZetDb.Theory.Text ZetDb.Domain ZetDb.Application

/-- Every stored entry, expired ones included, satisfies `P`. -/
def Each (P : Key → ValueEntry → Prop) (e : DashMapEngine) : Prop :=
  ∀ k v, e.map.lookup k = some v → P k v

/-- The entries a command may write satisfy `P`, given that the entry it changes does. -/
def Writes (now : Instant) (P : Key → ValueEntry → Prop) : Command → Prop
  | .set key value lifetime => P key (setEntry now value lifetime)
  | .incr key => P key (ValueEntry.new now (ascii "1")) ∧
      ∀ v i, P key v → P key { v with data := decimalInt (Int.bmod i (2 ^ 64)) }
  | .expire key seconds =>
      ∀ v, P key v → P key { v with expiresAt := some (now + Duration.fromSecs seconds) }
  | .mset pairs => ∀ p ∈ pairs, P p.1 (ValueEntry.new now p.2)
  | _ => True

section Each

variable {P : Key → ValueEntry → Prop} {iter : Iter} {m : MetricsSnapshot} {now : Instant}
  {e : DashMapEngine} {key : Key}

theorem each_new : Each P .new := fun _ _ found => by cases found

theorem Each.insert (each : Each P e) {v : ValueEntry} (ok : P key v) : Each P (e.insert key v) := by
  intro k w found
  rcases DashMapEngine.lookup_of_insert found with ⟨rfl, rfl⟩ | held
  · exact ok
  · exact each k w held

theorem Each.remove (each : Each P e) (key : Key) : Each P (e.remove key) := by
  intro k w found
  exact each k w (DashMapEngine.lookup_of_remove found)

theorem Each.removeIfExpired (each : Each P e) (key : Key) : Each P (e.removeIfExpired now key) := by
  unfold DashMapEngine.removeIfExpired
  split
  · split
    · exact each.remove key
    · exact each
  · exact each

theorem Each.evict (each : Each P e) : Each P (e.evictOneIfNeeded iter now) := by
  unfold DashMapEngine.evictOneIfNeeded
  split
  · exact each
  · split
    · exact each.remove _
    · exact each

/-! ## The operations -/

theorem Each.get (each : Each P e) (key : Key) : Each P (e.get now key).2 := by
  rw [DashMapEngine.get_leaves]
  exact each.removeIfExpired key

theorem Each.exists (each : Each P e) (key : Key) : Each P (e.exists? now key).2 := by
  rw [DashMapEngine.exists_leaves]
  exact each.removeIfExpired key

theorem Each.ttlSecs (each : Each P e) (key : Key) : Each P (e.ttlSecs now key).2 := by
  rw [DashMapEngine.ttlSecs_leaves]
  exact each.removeIfExpired key

theorem Each.set (each : Each P e) {v : ValueEntry} (ok : P key v) :
    Each P (e.set iter now key v).2 := by
  unfold DashMapEngine.set
  split
  · simp only
    split
    · exact each.evict
    · exact each.evict.insert ok
  · exact each.insert ok

theorem Each.del (each : Each P e) (key : Key) : Each P (e.del now key).2 := by
  unfold DashMapEngine.del
  split
  · split
    · exact each.remove key
    · exact each
  · exact each

theorem Each.incr (each : Each P e) (fresh : P key (ValueEntry.new now (ascii "1")))
    (counted : ∀ v i, P key v → P key { v with data := decimalInt (Int.bmod i (2 ^ 64)) }) :
    Each P (e.incr iter now key).2 := by
  unfold DashMapEngine.incr
  split
  · rename_i v found
    split
    · simp only
      split
      · exact each.remove key
      · exact (each.remove key).insert fresh
    · split
      · exact each
      · exact each.insert (counted v _ (each key v found))
  · split
    · simp only
      split
      · exact each.evict
      · exact each.evict.insert fresh
    · exact each.insert fresh

theorem Each.expire (each : Each P e) {seconds : Nat}
    (renewed : ∀ v, P key v → P key { v with expiresAt := some (now + Duration.fromSecs seconds) }) :
    Each P (e.expire now key seconds).2 := by
  unfold DashMapEngine.expire
  split
  · exact each
  · rename_i v found
    split
    · exact each.removeIfExpired key
    · exact each.insert (renewed v (each key v found))

theorem Each.mset (each : Each P e) {pairs : List (Key × Bytes)}
    (ok : ∀ p ∈ pairs, P p.1 (ValueEntry.new now p.2)) : Each P (msetLoop iter now e pairs).2 := by
  induction pairs generalizing e with
  | nil => exact each
  | cons p pairs ih =>
      have stored : Each P (e.set iter now p.1 (ValueEntry.new now p.2)).2 := each.set (ok p (by simp))
      rw [msetLoop]
      split
      · rename_i failed
        rw [failed] at stored
        exact stored
      · rename_i stores
        rw [stores] at stored
        exact ih stored fun q inside => ok q (by simp [inside])

/-- A command keeps what holds of every entry, if the entries it writes have it. -/
theorem exec_each (each : Each P e) {c : Command} (writes : Writes now P c) :
    Each P (exec iter m now e c) := by
  cases c with
  | get key => rw [exec_get]; exact each.get key
  | set key value lifetime => rw [exec_set]; exact each.set writes
  | del key => rw [exec_del]; exact each.del key
  | incr key => rw [exec_incr]; exact each.incr writes.1 writes.2
  | «exists» key => rw [exec_exists]; exact each.exists key
  | ttl key => rw [exec_ttl]; exact each.ttlSecs key
  | expire key seconds => rw [exec_expire]; exact each.expire writes
  | flushDb => exact fun _ _ found => by cases found
  | mset pairs => rw [exec_mset]; exact each.mset writes
  | _ => exact each

end Each

end ZetDb.Storage
