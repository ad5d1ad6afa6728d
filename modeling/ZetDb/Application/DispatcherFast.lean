/-
# Application.DispatcherFast -- the benchmark dispatcher, against the full one

Embeds `application/dispatcher_fast.rs` and the choice of the path in
`handle_session`: without a log, metrics and a write timeout, inline commands go
to a dispatcher that knows GET and SET only and leaves out, as it says itself, the
expiry, the lifetime and the key limit.

`dispatchInline_same_iff`: two settings treat a GET alike, in its reply and in the
entries that are live behind it, exactly when they choose the same path or the key
is not an expired one; and a SET exactly when they choose the same path or no
lifetime is asked for and the key needs no room of another.
-/
import ZetDb.Storage.KeyLimit

namespace ZetDb.Application

set_option autoImplicit false

open ZetDb.Theory.Wire ZetDb.Theory.Text ZetDb.Domain ZetDb.Storage ZetDb.Protocol

/-- GET and SET without expiry, limit or errors; no other command. -/
def dispatchFast (e : DashMapEngine) : ParsedCommand → Bytes × DashMapEngine
  | .get key =>
      match e.getFast key with
      | some data => (ascii "+" ++ data ++ crlf, e)
      | none => (nullBulk, e)
  | .set key value _ => (ascii "+OK\r\n", e.setFastStr key value)
  | _ => (ascii "-ERR unsupported\r\n", e)

/-- What a session is started with. -/
structure Settings where
  hasAof : Bool
  metricsEnabled : Bool
  writeTimeout : Duration

def Settings.useWriteTimeout (s : Settings) : Bool := s.writeTimeout.asSecs > 0

/-- The condition of `handle_session` for the fast path. -/
def Settings.fast (s : Settings) : Bool := !s.hasAof && !s.metricsEnabled && !s.useWriteTimeout

/-- An inline command on the path of the settings. -/
def dispatchInline (s : Settings) (iter : Iter) (m : MetricsSnapshot) (now : Instant)
    (e : DashMapEngine) (c : ParsedCommand) : Bytes × DashMapEngine :=
  if s.fast then dispatchFast e c else dispatchToBuffer iter m now e false c.toOwned

/-- The data and the expiry of a key that is live. -/
def liveItem (now : Instant) (e : DashMapEngine) (key : Key) : Option (Bytes × Option Instant) :=
  (e.live now key).map fun v => (v.data, v.expiresAt)

/-- The same reply, and the same live entries. -/
structure SameEffect (now : Instant) (first second : Bytes × DashMapEngine) : Prop where
  reply : first.1 = second.1
  live : ∀ k, liveItem now first.2 k = liveItem now second.2 k

/-- The key is stored and has expired. -/
def Stale (now : Instant) (e : DashMapEngine) (key : Key) : Prop :=
  ∃ v, e.map.lookup key = some v ∧ v.isExpiredAt now = true

/-- The key can be stored without the eviction of another. -/
def HasRoom (e : DashMapEngine) (key : Key) : Prop :=
  e.maxKeys = 0 ∨ (e.map.lookup key).isSome = true ∨ e.len < e.maxKeys

section Same

variable {iter : Iter} {m : MetricsSnapshot} {now : Instant} {e : DashMapEngine} {key : Key}

theorem SameEffect.symm {first second : Bytes × DashMapEngine} (same : SameEffect now first second) :
    SameEffect now second first :=
  ⟨same.reply.symm, fun k => (same.live k).symm⟩

theorem SameEffect.refl (first : Bytes × DashMapEngine) : SameEffect now first first :=
  ⟨rfl, fun _ => rfl⟩

theorem liveItem_insert (v : ValueEntry) (k : Key) :
    liveItem now (e.insert key v) k =
      if k = key then (if v.isExpiredAt now then none else some (v.data, v.expiresAt))
      else liveItem now e k := by
  unfold liveItem DashMapEngine.live DashMapEngine.insert
  by_cases same : k = key
  · subst same
    rw [Finmap.lookup_insert]
    cases expired : v.isExpiredAt now <;> simp [Option.filter, expired]
  · rw [Finmap.lookup_insert_of_ne _ same, if_neg same]

/-! ## GET -/

theorem get_same_iff : SameEffect now (dispatchFast e (.get key))
    (dispatchToBuffer iter m now e false (.get key)) ↔ ¬ Stale now e key := by
  cases found : e.map.lookup key with
  | none =>
      have missing : dispatchToBuffer iter m now e false (.get key) = (nullBulk, e) := by
        simp [dispatchToBuffer, DashMapEngine.get, found]
      have fast : dispatchFast e (.get key) = (nullBulk, e) := by
        simp [dispatchFast, DashMapEngine.getFast, found]
      rw [missing, fast]
      refine ⟨fun _ => ?_, fun _ => SameEffect.refl _⟩
      rintro ⟨v, held, -⟩
      rw [found] at held
      cases held
  | some v =>
      have fast : dispatchFast e (.get key) = (ascii "+" ++ v.data ++ crlf, e) := by
        simp [dispatchFast, DashMapEngine.getFast, found]
      rw [fast]
      cases expired : v.isExpiredAt now with
      | false =>
          have full : dispatchToBuffer iter m now e false (.get key) =
              (ascii "+" ++ v.data ++ crlf, e) := by
            simp [dispatchToBuffer, DashMapEngine.get, found, expired]
          rw [full]
          refine ⟨fun _ => ?_, fun _ => SameEffect.refl _⟩
          rintro ⟨w, held, stale⟩
          rw [found] at held
          cases held
          rw [expired] at stale
          cases stale
      | true =>
          -- the full path answers that there is no such key
          have full : (dispatchToBuffer iter m now e false (.get key)).1 = nullBulk := by
            simp [dispatchToBuffer, DashMapEngine.get, found, expired]
          refine ⟨fun same => ?_, fun fresh => absurd ⟨v, found, expired⟩ fresh⟩
          have heads := congrArg List.head? (same.reply.trans full)
          cases heads

/-! ## SET -/

/-- Without room the limit refuses the key, or another key that is live goes. -/
theorem set_without_room (iter : Iter) (now : Instant) (full : ¬ HasRoom e key) (v : ValueEntry) :
    (e.set iter now key v).1 = .error .outOfMemory ∨
      ∃ k w, e.live now k = some w ∧ k ≠ key ∧ (e.set iter now key v).2.live now k = none := by
  simp only [HasRoom, not_or, Bool.not_eq_true, Option.isSome_eq_false_iff, Option.isNone_iff_eq_none] at full
  obtain ⟨limited, missing, many⟩ := full
  rcases set_full iter now (Nat.pos_of_ne_zero limited) missing (Nat.not_lt.1 many) v with
    ⟨k, w, live, other, evicted⟩ | ⟨-, refused⟩
  · rw [evicted]
    split
    · exact .inl rfl
    · refine .inr ⟨k, w, live, other, ?_⟩
      have gone : ((e.remove k).insert key v).map.lookup k = none := by
        rw [DashMapEngine.insert, Finmap.lookup_insert_of_ne _ other]
        exact Finmap.lookup_erase _ _
      rw [DashMapEngine.live, gone]
      rfl
  · exact .inl (by rw [refused])

theorem set_same_iff (value : Bytes) (lifetime : Option Duration) :
    SameEffect now (dispatchFast e (.set key value lifetime))
      (dispatchToBuffer iter m now e false (.set key value lifetime)) ↔
        lifetime = none ∧ HasRoom e key := by
  have fast : dispatchFast e (.set key value lifetime) =
      (ascii "+OK\r\n", e.insert key (ValueEntry.newFast value)) := rfl
  rw [fast]
  by_cases room : HasRoom e key
  · have full : dispatchToBuffer iter m now e false (.set key value lifetime) =
        (ascii "+OK\r\n", e.insert key (setEntry now value lifetime)) := by
      simp [dispatchToBuffer, set_room room]
    rw [full]
    cases lifetime with
    | none =>
        refine ⟨fun _ => ⟨rfl, room⟩, fun _ => ⟨rfl, fun k => ?_⟩⟩
        rw [liveItem_insert, liveItem_insert]
        rfl
    | some d =>
        refine ⟨fun same => ?_, fun both => by cases both.1⟩
        have entries := same.live key
        rw [liveItem_insert, liveItem_insert, if_pos rfl, if_pos rfl] at entries
        -- the fast entry stays for ever, the other one has expired or will
        by_cases expired : (setEntry now value (some d)).isExpiredAt now = true
        · rw [if_pos expired] at entries
          cases entries
        · rw [if_neg expired] at entries
          cases entries
  · refine ⟨fun same => ?_, fun both => absurd both.2 room⟩
    rcases set_without_room iter now room (setEntry now value lifetime) with
      refused | ⟨k, w, held, other, gone⟩
    · have reply : (dispatchToBuffer iter m now e false (.set key value lifetime)).1 =
          ascii "-ERR internal\r\n" := by
        rcases called : e.set iter now key (setEntry now value lifetime) with ⟨result, after⟩
        rw [called] at refused
        cases refused
        simp [dispatchToBuffer, called]
      have replies : ascii "+OK\r\n" = ascii "-ERR internal\r\n" := same.reply.trans reply
      exact absurd replies (by decide)
    · have evicted := same.live k
      rw [liveItem_insert, if_neg other, dispatchToBuffer_engine, exec_set, liveItem, liveItem, held,
        gone] at evicted
      cases evicted

/-- Two settings, one GET or SET. -/
theorem dispatchInline_same_iff (a b : Settings) (iter : Iter) (m : MetricsSnapshot) (now : Instant)
    (e : DashMapEngine) :
    (∀ key, SameEffect now (dispatchInline a iter m now e (.get key))
        (dispatchInline b iter m now e (.get key)) ↔ a.fast = b.fast ∨ ¬ Stale now e key) ∧
      ∀ key value lifetime, SameEffect now (dispatchInline a iter m now e (.set key value lifetime))
        (dispatchInline b iter m now e (.set key value lifetime)) ↔
          a.fast = b.fast ∨ lifetime = none ∧ HasRoom e key := by
  have paths (c : ParsedCommand) (P : Prop)
      (differ : SameEffect now (dispatchFast e c) (dispatchToBuffer iter m now e false c.toOwned) ↔ P) :
      SameEffect now (dispatchInline a iter m now e c) (dispatchInline b iter m now e c) ↔
        a.fast = b.fast ∨ P := by
    unfold dispatchInline
    cases a.fast <;> cases b.fast
    · simp [SameEffect.refl]
    · simpa using ⟨fun same => differ.1 same.symm, fun p => (differ.2 p).symm⟩
    · simpa using differ
    · simp [SameEffect.refl]
  exact ⟨fun key => paths (.get key) _ get_same_iff,
    fun key value lifetime => paths (.set key value lifetime) _ (set_same_iff value lifetime)⟩

end Same

/-- An entry that expires at 1. -/
def expiring : DashMapEngine := DashMapEngine.new.insert (ascii "k") ⟨ascii "v", some 1, some 0⟩

/-- Without log, metrics and write timeout an expired key is returned, and a SET
keeps no lifetime; with the log on neither is so. -/
theorem dispatchInline_differs :
    ¬ SameEffect 2 (dispatchInline ⟨false, false, 0⟩ Iter.some .new 2 expiring (.get (ascii "k")))
        (dispatchInline ⟨true, false, 0⟩ Iter.some .new 2 expiring (.get (ascii "k"))) ∧
      ¬ SameEffect 0
        (dispatchInline ⟨false, false, 0⟩ Iter.some .new 0 .new (.set (ascii "k") (ascii "v") (some 1)))
        (dispatchInline ⟨true, false, 0⟩ Iter.some .new 0 .new (.set (ascii "k") (ascii "v") (some 1))) := by
  constructor
  · intro same
    have stale : Stale 2 expiring (ascii "k") :=
      ⟨⟨ascii "v", some 1, some 0⟩, Finmap.lookup_insert _, by decide⟩
    have paths : SameEffect 2 (dispatchFast expiring (.get (ascii "k")))
        (dispatchToBuffer Iter.some .new 2 expiring false (.get (ascii "k"))) := same
    exact get_same_iff.1 paths stale
  · intro same
    have paths : SameEffect 0 (dispatchFast .new (.set (ascii "k") (ascii "v") (some 1)))
        (dispatchToBuffer Iter.some .new 0 .new false (.set (ascii "k") (ascii "v") (some 1))) := same
    cases ((set_same_iff (ascii "v") (some 1)).1 paths).1

end ZetDb.Application
