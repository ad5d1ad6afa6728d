/-
# Application.Returns -- which commands come back

The dispatchers of the model are total functions.  Two things of the source keep a
dispatch from returning: the engine may ask for a shard lock while it holds a guard
of the same shard (`Storage.ShardLocks`), and an addition to the clock may panic
(`Application.Deadlines`).

* `waits_iff`: of all commands only an INCR of a key that is not stored, under a key
  limit, makes a call of the engine that waits for itself.
* `dispatchReturning_guards`, `dispatchToBufferReturning_guards`: a dispatch comes back
  exactly if it does not wait and its deadline is in range, and then it does what the
  model says.
-/
import ZetDb.Application.Deadlines
import ZetDb.Storage.ShardLocks

namespace ZetDb.Application

set_option autoImplicit false

open ZetDb.Theory.Wire ZetDb.Theory.Text ZetDb.Domain ZetDb.Storage ZetDb.Protocol

section Calls

variable (iter : Iter) (now : Instant)

/-- The calls of the loop over the pairs of an MSET: it ends at the first error. -/
def msetCalls : DashMapEngine → List (Key × Bytes) → List (Operation × DashMapEngine)
  | _, [] => []
  | e, (key, value) :: rest =>
      (.set iter now key (ValueEntry.new now value), e) ::
        match e.set iter now key (ValueEntry.new now value) with
        | (.error _, _) => []
        | (.ok (), e) => msetCalls e rest

/-- The calls a command makes, each with the engine it finds. -/
def engineCalls (e : DashMapEngine) : Command → List (Operation × DashMapEngine)
  | .get key => [(.get now key, e)]
  | .set key value ttl => [(.set iter now key (setEntry now value ttl), e)]
  | .ping => []
  | .del key => [(.del now key, e)]
  | .incr key => [(.incr iter now key, e)]
  | .info | .dbSize => [(.len, e)]
  | .exists key => [(.exists now key, e)]
  | .ttl key => [(.ttlSecs now key, e)]
  | .expire key seconds => [(.expire now key seconds, e)]
  | .flushDb => [(.clear, e)]
  | .keys => [(.keys iter now, e)]
  | .mget keys => [(.mget now keys, e)]
  | .mset pairs => msetCalls iter now e pairs

end Calls

/-- An INCR of a key that is not stored, under a key limit. -/
def Waits (e : DashMapEngine) : Command → Prop
  | .incr key => 0 < e.maxKeys ∧ e.map.lookup key = none
  | _ => False

instance (e : DashMapEngine) : DecidablePred (Waits e)
  | .incr _ => inferInstanceAs (Decidable (_ ∧ _))
  | .get _ | .set .. | .ping | .del _ | .info | .dbSize | .exists _ | .ttl _ | .expire .. | .flushDb | .keys
  | .mget _ | .mset _ => inferInstanceAs (Decidable False)

section Waiting

variable {S : Type} [DecidableEq S] (d : Sharding S)

theorem msetCalls_free (iter : Iter) (now : Instant) (e : DashMapEngine) (pairs : List (Key × Bytes)) :
    ∀ call ∈ msetCalls iter now e pairs, ¬ BlocksOnItself d call.1 call.2 := by
  induction pairs generalizing e with
  | nil => simp [msetCalls]
  | cons p pairs ih =>
      have first : ¬ BlocksOnItself d (.set iter now p.1 (ValueEntry.new now p.2)) e :=
        operation_free d _ e nofun
      rw [msetCalls]
      rcases e.set iter now p.1 (ValueEntry.new now p.2) with ⟨err | ⟨⟩, after⟩
      · exact List.forall_mem_cons.2 ⟨first, by simp⟩
      · exact List.forall_mem_cons.2 ⟨first, ih after⟩

/-- Only an INCR of a missing key, under a limit, makes a call that waits for itself. -/
theorem waits_iff (iter : Iter) (now : Instant) (e : DashMapEngine) (c : Command) :
    (∃ call ∈ engineCalls iter now e c, BlocksOnItself d call.1 call.2) ↔ Waits e c := by
  have single {op : Operation} (free : ∀ iter now key, op ≠ .incr iter now key) :
      ¬ ∃ call ∈ [(op, e)], BlocksOnItself d call.1 call.2 := by
    rintro ⟨call, inside, blocks⟩
    cases List.mem_singleton.1 inside
    exact operation_free d op e free blocks
  cases c with
  | incr key =>
      have free := incr_free_iff d iter now key e
      simp only [engineCalls, List.mem_singleton, exists_eq_left, Waits]
      rw [← not_iff_not, free, not_and_or, Nat.pos_iff_ne_zero, not_not, Option.isSome_iff_ne_none]
  | mset pairs =>
      refine iff_of_false ?_ id
      rintro ⟨call, inside, blocks⟩
      exact msetCalls_free d iter now e pairs call inside blocks
  | ping => exact iff_of_false (by simp [engineCalls]) id
  | _ => exact iff_of_false (single nofun) id

end Waiting

/-! ## Dispatches that return -/

/-- The engine does not wait for itself, and the deadline is in range. -/
def Returns (now : Instant) (e : DashMapEngine) (c : Command) : Prop := ¬ Waits e c ∧ DispatchInRange now e c

section Returning

variable (iter : Iter) (m : MetricsSnapshot) (now : Instant) (e : DashMapEngine)

/-- `dispatch`: `none` where it never comes back. -/
def dispatchReturning (c : Command) : Option (Response × DashMapEngine) :=
  if Waits e c then none else dispatchChecked iter m now e c

/-- `dispatch_to_buffer`. -/
def dispatchToBufferReturning (isResp : Bool) (c : Command) : Option (Bytes × DashMapEngine) :=
  if Waits e c then none else dispatchToBufferChecked iter m now e isResp c

theorem dispatchReturning_guards (c : Command) :
    Guards (Returns now e c) (dispatchReturning iter m now e c) (dispatch iter m now e c) :=
  (dispatchChecked_guards iter m now e c).unless

theorem dispatchToBufferReturning_guards (isResp : Bool) (c : Command) :
    Guards (Returns now e c) (dispatchToBufferReturning iter m now e isResp c)
      (dispatchToBuffer iter m now e isResp c) :=
  (dispatchToBufferChecked_guards iter m now e isResp c).unless

end Returning

end ZetDb.Application
