/-
# Server.Lifetimes -- keys that expired and come back with the log

The log stores durations.  The replay runs the whole history at the instant of the
restart, so every lifetime starts again there, and a SET whose milliseconds round
to zero is read back without one.  A key that had run out is back.

What matters for this is, per key, whether an entry is stored and when it expires
(`Expiry`), and each command acts on that alone (`touch`).  The same function
describes the original run, each command at its own time, and the replay, all of
them at once; they differ in the expiry a SET grants.

`expired_stays_expired`: keys that are visible after the replay are visible in the
original, in every run in which no lifetime runs out unless the key is written
again, removed, or given a new lifetime in time.
-/
import ZetDb.Server.Recovery
import ZetDb.Storage.Reload

namespace ZetDb.Server

set_option autoImplicit false

open ZetDb.Theory.Wire ZetDb.Theory.Text ZetDb.Domain ZetDb.Application ZetDb.Storage

/-! ## Entries by their expiry -/

/-- Nothing stored, or an entry with its expiry. -/
abbrev Expiry := Option (Option Instant)

def Alive (now : Instant) : Expiry → Prop
  | none => False
  | some none => True
  | some (some expiry) => now < expiry

instance (now : Instant) : DecidablePred (Alive now)
  | none => inferInstanceAs (Decidable False)
  | some none => inferInstanceAs (Decidable True)
  | some (some _) => inferInstanceAs (Decidable (_ < _))

def expiryAt (e : DashMapEngine) (k : Key) : Expiry := (e.map.lookup k).map (·.expiresAt)

/-- What a write command does to the entry of `k`, if a SET grants the expiry
`granted lifetime`. -/
def touch (now : Instant) (granted : Option Duration → Option Instant) (k : Key) (c : Command)
    (x : Expiry) : Expiry :=
  match c with
  | .set key _ lifetime => if key = k then some (granted lifetime) else x
  | .del key => if key = k ∧ Alive now x then none else x
  | .incr key => if key = k ∧ ¬ Alive now x then some none else x
  | .expire key seconds =>
      if key = k then (if Alive now x then some (some (now + Duration.fromSecs seconds)) else none)
      else x
  | .flushDb => none
  | .mset pairs => if pairs.any (fun p => p.1 == k) then some none else x
  | _ => x

/-- The expiry the dispatcher grants. -/
def grantedBy (now : Instant) (lifetime : Option Duration) : Option Instant :=
  lifetime.map fun d => now + d

/-- The expiry the replay grants. -/
def regranted (now : Instant) (lifetime : Option Duration) : Option Instant :=
  expiryOf now (Command.ttlMillis lifetime)

section Engine

variable {iter : Iter} {m : MetricsSnapshot} {now : Instant} {e : DashMapEngine} {k : Key}

theorem alive_of_lookup {v : ValueEntry} (found : e.map.lookup k = some v) :
    Alive now (expiryAt e k) ↔ v.isExpiredAt now = false := by
  unfold expiryAt
  rw [found]
  cases expires : v.expiresAt <;> simp [Alive, ValueEntry.isExpiredAt, expires]

theorem alive_expiryAt : Alive now (expiryAt e k) ↔ (e.live now k).isSome = true := by
  cases found : e.map.lookup k with
  | none => simp [expiryAt, DashMapEngine.live, found, Alive]
  | some v =>
      rw [alive_of_lookup found, DashMapEngine.live, found]
      cases expired : v.isExpiredAt now <;> simp [Option.filter, expired]

theorem expiryAt_insert (key : Key) (v : ValueEntry) :
    expiryAt (e.insert key v) k = if key = k then some v.expiresAt else expiryAt e k := by
  unfold expiryAt DashMapEngine.insert
  by_cases same : key = k
  · subst same
    rw [if_pos rfl, Finmap.lookup_insert]
    rfl
  · rw [if_neg same, Finmap.lookup_insert_of_ne _ (Ne.symm same)]

theorem expiryAt_remove (key : Key) :
    expiryAt (e.remove key) k = if key = k then none else expiryAt e k := by
  unfold expiryAt DashMapEngine.remove
  by_cases same : key = k
  · subst same
    rw [if_pos rfl, Finmap.lookup_erase]
    rfl
  · rw [if_neg same, Finmap.lookup_erase_ne (Ne.symm same)]

/-! Without a key limit every operation acts on the entry of its own key. -/

theorem expiryAt_del (key : Key) :
    expiryAt (e.del now key).2 k = if key = k ∧ Alive now (expiryAt e k) then none else expiryAt e k := by
  unfold DashMapEngine.del
  cases found : e.map.lookup key with
  | none =>
      by_cases same : key = k
      · subst same
        simp [expiryAt, found, Alive]
      · simp [same]
  | some v =>
      have alive : Alive now (expiryAt e key) ↔ _ := alive_of_lookup found
      by_cases same : key = k
      · subst same
        cases expired : v.isExpiredAt now <;> simp [alive, expired, expiryAt_remove]
      · cases expired : v.isExpiredAt now <;> simp [same, expired, expiryAt_remove]

/-- INCR stores a fresh entry where none is alive, and keeps the expiry of a live
one, whether or not it is an integer. -/
theorem incr_engine (iter : Iter) (now : Instant) (unlimited : e.maxKeys = 0) (key : Key) :
    (¬ Alive now (expiryAt e key) ∧
      (e.incr iter now key).2 = e.insert key (ValueEntry.new now (ascii "1"))) ∨
    (Alive now (expiryAt e key) ∧ ((e.incr iter now key).2 = e ∨
      ∃ v, expiryAt e key = some v.expiresAt ∧ (e.incr iter now key).2 = e.insert key v)) := by
  rw [DashMapEngine.incr_unlimited unlimited]
  cases found : e.map.lookup key with
  | none => exact .inl ⟨by simp [expiryAt, found, Alive], rfl⟩
  | some v =>
      have alive : Alive now (expiryAt e key) ↔ _ := alive_of_lookup found
      have held : expiryAt e key = some v.expiresAt := by rw [expiryAt, found]; rfl
      cases expired : v.isExpiredAt now with
      | true => exact .inl ⟨by simp [alive, expired], by simp [expired]⟩
      | false =>
          refine .inr ⟨alive.2 expired, ?_⟩
          simp only [expired, Bool.false_eq_true, if_false]
          split
          · exact .inl rfl
          · refine .inr ⟨⟨_, v.expiresAt, v.createdAt⟩, ?_, rfl⟩
            exact held

theorem expiryAt_incr (unlimited : e.maxKeys = 0) (key : Key) :
    expiryAt (e.incr iter now key).2 k =
      if key = k ∧ ¬ Alive now (expiryAt e k) then some none else expiryAt e k := by
  rcases incr_engine iter now unlimited key with
    ⟨gone, fresh⟩ | ⟨alive, same | ⟨v, held, kept⟩⟩
  · rw [fresh, expiryAt_insert]
    by_cases same : key = k
    · subst same
      simp [gone]
    · simp [same]
  · rw [same]
    by_cases isKey : key = k
    · subst isKey
      simp [alive]
    · simp [isKey]
  · rw [kept, expiryAt_insert]
    by_cases isKey : key = k
    · subst isKey
      rw [if_pos rfl, if_neg fun both => both.2 alive, held]
    · simp [isKey]

theorem expiryAt_expire (key : Key) (seconds : Nat) :
    expiryAt (e.expire now key seconds).2 k =
      if key = k then
        (if Alive now (expiryAt e k) then some (some (now + Duration.fromSecs seconds)) else none)
      else expiryAt e k := by
  unfold DashMapEngine.expire DashMapEngine.removeIfExpired
  cases found : e.map.lookup key with
  | none =>
      by_cases same : key = k
      · subst same
        simp [expiryAt, found, Alive]
      · simp [same]
  | some v =>
      have alive : Alive now (expiryAt e key) ↔ _ := alive_of_lookup found
      by_cases same : key = k
      · subst same
        cases expired : v.isExpiredAt now <;> simp [alive, expired, expiryAt_remove, expiryAt_insert]
      · cases expired : v.isExpiredAt now <;> simp [same, expired, expiryAt_remove, expiryAt_insert]

theorem expiryAt_mset (unlimited : e.maxKeys = 0) (pairs : List (Key × Bytes)) :
    expiryAt (msetLoop iter now e pairs).2 k =
      if pairs.any (fun p => p.1 == k) then some none else expiryAt e k := by
  induction pairs generalizing e with
  | nil => rfl
  | cons p pairs ih =>
      have next := ih (e := e.insert p.1 (ValueEntry.new now p.2)) unlimited
      rw [msetLoop, DashMapEngine.set_unlimited unlimited]
      show expiryAt (msetLoop iter now (e.insert p.1 (ValueEntry.new now p.2)) pairs).2 k = _
      rw [next, expiryAt_insert, List.any_cons]
      by_cases same : p.1 = k
      · cases pairs.any (fun p => p.1 == k) <;> simp [same]
      · have other : (p.1 == k) = false := beq_eq_false_iff_ne.2 same
        rw [other, Bool.false_or, if_neg same]

/-- The dispatcher on the entry of `k`. -/
theorem expiryAt_exec (iter : Iter) (m : MetricsSnapshot) (unlimited : e.maxKeys = 0)
    {c : Command} (write : c.isWrite = true) :
    expiryAt (exec iter m now e c) k = touch now (grantedBy now) k c (expiryAt e k) := by
  cases c with
  | set key value lifetime =>
      rw [exec_set, DashMapEngine.set_unlimited unlimited, expiryAt_insert]
      cases lifetime <;> rfl
  | del key => rw [exec_del, expiryAt_del]; rfl
  | incr key => rw [exec_incr, expiryAt_incr unlimited]; rfl
  | expire key seconds => rw [exec_expire, expiryAt_expire]; rfl
  | flushDb => rfl
  | mset pairs => rw [exec_mset, expiryAt_mset unlimited]; rfl
  | _ => cases write

/-- The replay on the entry of `k`. -/
theorem expiryAt_replayCommand (iter : Iter) (m : MetricsSnapshot) (unlimited : e.maxKeys = 0)
    {c : Command} (write : c.isWrite = true) :
    expiryAt (replayCommand iter m now e c) k = touch now (regranted now) k c (expiryAt e k) := by
  cases c with
  | set key value lifetime =>
      rw [replayCommand_set, DashMapEngine.set_unlimited unlimited, expiryAt_insert]
      rfl
  | del key => rw [replayCommand_del, expiryAt_del]; rfl
  | incr key => rw [replayCommand_incr, expiryAt_incr unlimited]; rfl
  | expire key seconds => rw [replayCommand_expire, expiryAt_expire]; rfl
  | flushDb => rfl
  | mset pairs => rw [replayCommand_mset, expiryAt_mset unlimited]; rfl
  | _ => cases write

end Engine

/-! ## Runs -/

/-- The lifetime a command grants, and to which key. -/
def grants : Command → Option (Key × Duration)
  | .set key _ (some lifetime) => some (key, lifetime)
  | .expire key seconds => some (key, Duration.fromSecs seconds)
  | _ => none

/-- A lifetime of `k` that ends at `expiry` is not the last word on `k`: it goes on
beyond `end_`, or a later command writes or removes the key, or gives it a new
lifetime before this one is over. -/
def Renewed (end_ : Instant) (k : Key) (expiry : Instant) (later : List (Instant × Command)) : Prop :=
  end_ < expiry ∨ (∃ h ∈ later, rewrites k h.2 = true) ∨
    ∃ h ∈ later, ∃ seconds, h.2 = .expire k seconds ∧ h.1 < expiry

/-- No lifetime granted in the run is left to run out by `end_`. -/
def NoneRunsOut (end_ : Instant) : List (Instant × Command) → Prop
  | [] => True
  | h :: later =>
      (∀ k d, grants h.2 = some (k, d) → Renewed end_ k (h.1 + d) later) ∧ NoneRunsOut end_ later

section Step

variable {end_ now : Instant} {k : Key} {h : Instant × Command} {later : List (Instant × Command)}
  {x y : Expiry}

/-- What holds of the entry of `k` in the original (`x`) and in the replay (`y`)
when the commands `later` are still to come: an entry of the original has expired
already or is renewed, and what the replay shows is either written again or stands
in the original and is renewed. -/
structure Agree (end_ now : Instant) (k : Key) (later : List (Instant × Command)) (x y : Expiry) : Prop where
  renewed : ∀ expiry, x = some (some expiry) → expiry ≤ now ∨ Renewed end_ k expiry later
  shown : Alive end_ y → (∃ h ∈ later, rewrites k h.2 = true) ∨
    ∃ held, x = some held ∧ ∀ expiry, held = some expiry → Renewed end_ k expiry later

/-- A command that neither writes the key nor gives it a lifetime does not renew it. -/
theorem Renewed.tail {expiry : Instant} (renewed : Renewed end_ k expiry (h :: later))
    (kept : rewrites k h.2 = false) (noLifetime : ∀ seconds, h.2 ≠ .expire k seconds) :
    Renewed end_ k expiry later := by
  rcases renewed with beyond | ⟨g, inside, rewritten⟩ | ⟨g, inside, seconds, isExpire, early⟩
  · exact .inl beyond
  · rcases List.mem_cons.1 inside with rfl | tail
    · rw [kept] at rewritten
      cases rewritten
    · exact .inr (.inl ⟨g, tail, rewritten⟩)
  · rcases List.mem_cons.1 inside with rfl | tail
    · exact absurd isExpire (noLifetime seconds)
    · exact .inr (.inr ⟨g, tail, seconds, isExpire, early⟩)

/-- Whatever is renewed by commands from `h` on is alive when `h` is executed,
unless it is written again. -/
theorem Renewed.alive {expiry : Instant} (renewed : Renewed end_ k expiry (h :: later))
    (before : h.1 ≤ end_) (inOrder : ∀ g ∈ later, h.1 ≤ g.1) :
    h.1 < expiry ∨ ∃ g ∈ h :: later, rewrites k g.2 = true := by
  rcases renewed with beyond | rewritten | ⟨g, inside, seconds, -, early⟩
  · exact .inl (Nat.lt_of_le_of_lt before beyond)
  · exact .inr rewritten
  · rcases List.mem_cons.1 inside with rfl | tail
    · exact .inl early
    · exact .inl (Nat.lt_of_le_of_lt (inOrder g tail) early)

theorem rewritten_tail (kept : rewrites k h.2 = false) (written : ∃ g ∈ h :: later, rewrites k g.2 = true) :
    ∃ g ∈ later, rewrites k g.2 = true := by
  obtain ⟨g, inside, rewritten⟩ := written
  rcases List.mem_cons.1 inside with rfl | tail
  · rw [kept] at rewritten
    cases rewritten
  · exact ⟨g, tail, rewritten⟩

/-! The three ways a command leaves the key. -/

/-- The original holds an entry that is permanent or renewed. -/
theorem Agree.of_held {held : Option Instant}
    (renewed : ∀ expiry, held = some expiry → Renewed end_ k expiry later) :
    Agree end_ now k later (some held) y :=
  ⟨fun expiry isHeld => .inr (renewed expiry (Option.some.inj isHeld)), fun _ => .inr ⟨held, rfl, renewed⟩⟩

/-- The replay shows nothing, and the original holds at most an expired entry. -/
theorem Agree.of_gone (gone : ¬ Alive now x) (hidden : ¬ Alive end_ y) : Agree end_ now k later x y := by
  refine ⟨fun expiry isHeld => .inl ?_, fun shown => absurd shown hidden⟩
  subst isHeld
  exact Nat.not_lt.1 gone

/-- The command is about other keys. -/
theorem Agree.untouched (agree : Agree end_ now k (h :: later) x y) (forward : now ≤ h.1)
    (kept : rewrites k h.2 = false) (noLifetime : ∀ seconds, h.2 ≠ .expire k seconds) :
    Agree end_ h.1 k later x y := by
  refine ⟨fun expiry isHeld => ?_, fun shown => ?_⟩
  · rcases agree.renewed expiry isHeld with expired | renewed
    · exact .inl (Nat.le_trans expired forward)
    · exact .inr (renewed.tail kept noLifetime)
  · rcases agree.shown shown with written | ⟨held, isHeld, renewed⟩
    · exact .inl (rewritten_tail kept written)
    · exact .inr ⟨held, isHeld, fun expiry at_ => (renewed expiry at_).tail kept noLifetime⟩

/-- What the replay shows, the original holds alive, unless the key is written
again. -/
theorem Agree.alive (agree : Agree end_ now k (h :: later) x y) (before : h.1 ≤ end_)
    (inOrder : ∀ g ∈ later, h.1 ≤ g.1) (kept : rewrites k h.2 = false) (shown : Alive end_ y) :
    Alive h.1 x ∨ ∃ g ∈ later, rewrites k g.2 = true := by
  rcases agree.shown shown with written | ⟨held, rfl, renewed⟩
  · exact .inr (rewritten_tail kept written)
  · cases held with
    | none => exact .inl trivial
    | some expiry =>
        rcases (renewed expiry rfl).alive before inOrder with alive | written
        · exact .inl alive
        · exact .inr (rewritten_tail kept written)

theorem Agree.incr (agree : Agree end_ now k (h :: later) x y) (forward : now ≤ h.1)
    (isIncr : h.2 = .incr k) :
    Agree end_ h.1 k later (if ¬ Alive h.1 x then some none else x)
      (if ¬ Alive end_ y then some none else y) := by
  have kept : rewrites k h.2 = false := by rw [isIncr]; rfl
  have noLifetime : ∀ seconds, h.2 ≠ .expire k seconds := by rw [isIncr]; simp
  by_cases alive : Alive h.1 x
  · -- a live entry keeps its expiry, and that is renewed
    rw [if_neg (not_not.2 alive)]
    cases x with
    | none => exact alive.elim
    | some held =>
        apply Agree.of_held
        intro expiry isHeld
        subst isHeld
        rcases agree.renewed expiry rfl with expired | renewed
        · exact absurd alive (Nat.not_lt.2 (Nat.le_trans expired forward))
        · exact renewed.tail kept noLifetime
  · rw [if_pos alive]
    exact Agree.of_held fun expiry impossible => by cases impossible

theorem Agree.expire (agree : Agree end_ now k (h :: later) x y)
    (before : h.1 ≤ end_) (inOrder : ∀ g ∈ later, h.1 ≤ g.1) {seconds : Nat}
    (isExpire : h.2 = .expire k seconds)
    (granted : Renewed end_ k (h.1 + Duration.fromSecs seconds) later) :
    Agree end_ h.1 k later
      (if Alive h.1 x then some (some (h.1 + Duration.fromSecs seconds)) else none)
      (if Alive end_ y then some (some (end_ + Duration.fromSecs seconds)) else none) := by
  have kept : rewrites k h.2 = false := by rw [isExpire]; rfl
  by_cases alive : Alive h.1 x
  · rw [if_pos alive]
    apply Agree.of_held
    intro expiry isHeld
    cases isHeld
    exact granted
  · rw [if_neg alive]
    refine ⟨fun expiry impossible => (by cases impossible), fun shown => ?_⟩
    by_cases visible : Alive end_ y
    · rcases agree.alive before inOrder kept visible with held | written
      · exact absurd held alive
      · exact .inl written
    · rw [if_neg visible] at shown
      exact shown.elim

/-- One command, executed by the original at its time and by the replay at the end. -/
theorem Agree.step (agree : Agree end_ now k (h :: later) x y) (forward : now ≤ h.1)
    (before : h.1 ≤ end_) (inOrder : ∀ g ∈ later, h.1 ≤ g.1)
    (granted : ∀ k d, grants h.2 = some (k, d) → Renewed end_ k (h.1 + d) later)
    (write : h.2.isWrite = true) :
    Agree end_ h.1 k later (touch h.1 (grantedBy h.1) k h.2 x) (touch end_ (regranted end_) k h.2 y) := by
  obtain ⟨time, c⟩ := h
  cases c with
  | set key value lifetime =>
      by_cases same : key = k
      · subst same
        simp only [touch, if_true]
        apply Agree.of_held
        intro expiry isHeld
        cases lifetime with
        | none => cases isHeld
        | some d =>
            cases isHeld
            exact granted key d rfl
      · simp only [touch, if_neg same]
        exact agree.untouched forward (beq_eq_false_iff_ne.2 same) (by simp)
  | del key =>
      by_cases same : key = k
      · subst same
        apply Agree.of_gone
        · simp only [touch, true_and]
          split <;> simp_all [Alive]
        · simp only [touch, true_and]
          split <;> simp_all [Alive]
      · simp only [touch, same, false_and, if_false]
        exact agree.untouched forward (beq_eq_false_iff_ne.2 same) (by simp)
  | incr key =>
      by_cases same : key = k
      · subst same
        simp only [touch, true_and]
        exact agree.incr forward rfl
      · simp only [touch, same, false_and, if_false]
        exact agree.untouched forward rfl (by simp)
  | expire key seconds =>
      by_cases same : key = k
      · subst same
        simp only [touch, if_true]
        exact agree.expire before inOrder rfl (granted key _ rfl)
      · simp only [touch, if_neg same]
        exact agree.untouched forward rfl (by simp [same])
  | flushDb => exact Agree.of_gone id id
  | mset pairs =>
      by_cases named : pairs.any (fun p => p.1 == k) = true
      · simp only [touch, if_pos named]
        exact Agree.of_held fun expiry impossible => by cases impossible
      · simp only [touch, if_neg named]
        exact agree.untouched forward (Bool.not_eq_true _ ▸ named) (by simp)
  | _ => cases write

/-- Once no command is left, what the replay shows is alive in the original. -/
theorem Agree.done (agree : Agree end_ now k [] x y) (shown : Alive end_ y) : Alive end_ x := by
  rcases agree.shown shown with ⟨g, inside, -⟩ | ⟨held, rfl, renewed⟩
  · cases inside
  · cases held with
    | none => trivial
    | some expiry =>
        rcases renewed expiry rfl with beyond | ⟨g, inside, -⟩ | ⟨g, inside, -⟩
        · exact beyond
        · cases inside
        · cases inside

end Step

section Restart

variable {iter replayIter : Iter} {m : MetricsSnapshot} {startedAt now : Instant}
  {history : List (Instant × Command)}

/-- The whole run, from two engines that agree on every key. -/
theorem agree_run {original replayed : DashMapEngine} (unlimited : original.maxKeys = 0)
    (unlimitedToo : replayed.maxKeys = 0)
    (inOrder : history.Pairwise fun g h => g.1 ≤ h.1)
    (between : ∀ h ∈ history, now ≤ h.1 ∧ h.1 ≤ startedAt)
    (writes : ∀ h ∈ history, h.2.isWrite = true) (lasting : NoneRunsOut startedAt history) {k : Key}
    (agree : Agree startedAt now k history (expiryAt original k) (expiryAt replayed k))
    (shown : Alive startedAt
      (expiryAt (replayAll replayIter m startedAt replayed (history.map Prod.snd)) k)) :
    Alive startedAt (expiryAt (history.foldl (fun e h => exec iter m h.1 e h.2) original) k) := by
  induction history generalizing original replayed now with
  | nil => exact agree.done shown
  | cons h later ih =>
      obtain ⟨first, rest⟩ := List.pairwise_cons.1 inOrder
      obtain ⟨forward, before⟩ := between h (by simp)
      have write := writes h (by simp)
      have next := agree.step forward before first lasting.1 write
      rw [← expiryAt_exec iter m unlimited write,
        ← expiryAt_replayCommand replayIter m unlimitedToo write] at next
      exact ih (exec_maxKeys unlimited write) (replayCommand_maxKeys unlimitedToo write) rest
        (fun g inside => ⟨first g inside, (between g (by simp [inside])).2⟩)
        (fun g inside => writes g (by simp [inside])) lasting.2 next shown

end Restart

/-- An expired key stays expired.  In every run of write commands at times that do
not go back, logged in order, whose entries can be read back and in which no
lifetime is left to run out, every key visible after the replay is visible in the
original at the time of the restart. -/
theorem expired_stays_expired (iter replayIter : Iter) (m : MetricsSnapshot) (startedAt : Instant)
    (history : List (Instant × Command)) (inOrder : history.Pairwise fun g h => g.1 ≤ h.1)
    (before : ∀ h ∈ history, h.1 ≤ startedAt)
    (readable : ∀ h ∈ history, FieldsFit h.2 ∧ lossyCommand h.2 = h.2)
    (lasting : NoneRunsOut startedAt history) :
    ∃ replayed count, replayAof replayIter startedAt (some (logBytes (history.map Prod.snd))) .new =
        some (replayed, count) ∧
      ∀ k, (replayed.live startedAt k).isSome = true →
        ((executed iter m history).live startedAt k).isSome = true := by
  have fits : ∀ c ∈ history.map Prod.snd, FieldsFit c := by
    intro c inside
    obtain ⟨h, listed, rfl⟩ := List.mem_map.1 inside
    exact (readable h listed).1
  have same : (history.map Prod.snd).map lossyCommand = history.map Prod.snd := by
    rw [List.map_map]
    exact List.map_congr_left fun h inside => (readable h inside).2
  refine ⟨_, _, replayAof_fits replayIter m startedAt fits rfl, fun k shown => ?_⟩
  rw [same, ← alive_expiryAt] at shown
  rw [← alive_expiryAt]
  refine agree_run rfl rfl inOrder (fun h inside => ⟨Nat.zero_le _, before h inside⟩)
    (fun h inside => (readable h inside).1.isWrite) lasting ?_ shown
  exact Agree.of_gone id id

/-- A second that is prolonged in time, and a second that is cut short by DEL. -/
def renewedHistory : List (Instant × Command) :=
  [(0, .set (ascii "a") (ascii "v") (some 1000000000)), (500000000, .expire (ascii "a") 100),
    (600000000, .set (ascii "b") [] (some 1000000000)), (700000000, .del (ascii "b"))]

theorem expired_stays_expired_renewed :
    ∃ replayed count, replayAof Iter.some 10000000000
        (some (logBytes (renewedHistory.map Prod.snd))) .new = some (replayed, count) ∧
      ∀ k, (replayed.live 10000000000 k).isSome = true →
        ((executed Iter.some .new renewedHistory).live 10000000000 k).isSome = true := by
  apply expired_stays_expired Iter.some Iter.some .new 10000000000 renewedHistory
  · decide
  · decide
  · decide
  · refine ⟨fun k d granted => ?_, fun k d granted => ?_, fun k d granted => ?_, fun k d granted => ?_,
      trivial⟩
    · cases granted
      exact .inr (.inr ⟨(500000000, .expire (ascii "a") 100), by simp, 100, rfl, by decide⟩)
    · cases granted
      exact .inl (by decide)
    · cases granted
      exact .inr (.inl ⟨_, List.mem_singleton_self _, rfl⟩)
    · cases granted

/-- A SET with a second to live, and one with none. -/
def expiringHistory : List (Instant × Command) :=
  [(0, .set (ascii "k") (ascii "v") (some 1000000000)), (0, .set (ascii "z") (ascii "v") (some 0))]

/-- Two seconds later the original shows neither key, the replay both. -/
theorem expired_comes_back :
    ((executed Iter.some .new expiringHistory).live 2000000000 (ascii "k")).isSome = false ∧
      ((executed Iter.some .new expiringHistory).live 2000000000 (ascii "z")).isSome = false ∧
      ∃ replayed count, replayAof Iter.some 2000000000
          (some (logBytes (expiringHistory.map Prod.snd))) .new = some (replayed, count) ∧
        (replayed.live 2000000000 (ascii "k")).isSome = true ∧
        (replayed.live 2000000000 (ascii "z")).isSome = true := by
  refine ⟨by decide, by decide, _, _, replayAof_fits Iter.some .new 2000000000 (by decide) rfl, ?_, ?_⟩
  · decide
  · decide

end ZetDb.Server
