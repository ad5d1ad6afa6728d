/-
# Storage.Counter -- INCR is exact below the top of its range

INCR reads the stored bytes as a signed 64-bit numeral, adds one and writes the
numeral back.  The addition is `val + 1` on an `i64`: the release profile does not
check it, so the largest integer becomes the smallest, and the call succeeds.

* `incr_exact_iff`, first part: one INCR does what it should exactly when the key
  is not a live one that holds `2^63 - 1`.
* Second part: the calls on a live integer `n` count up by one each exactly as long
  as `n` plus their number stays below `2^63`.  There is no error that would stop
  them before.

The key limit is off here.
-/
import ZetDb.Storage.Reload

namespace ZetDb.Storage

set_option autoImplicit false

open ZetDb.Theory.Wire ZetDb.Theory.Text ZetDb.Domain

/-- The largest `i64`. -/
def topInteger : Int := 2 ^ 63 - 1

/-- The integer the bytes of an entry stand for. -/
def numberOf (v : ValueEntry) : Option Int := parseSigned 64 (fromUtf8Lossy v.data)

/-- Exact, or without effect. -/
structure IncrExact (iter : Iter) (now : Instant) (e : DashMapEngine) (key : Key) : Prop where
  counts : ∀ v n, e.live now key = some v → numberOf v = some n → n < topInteger →
    e.incr iter now key = (.ok (n + 1), e.insert key { v with data := decimalInt (n + 1) })
  refuses : ∀ v, e.live now key = some v →
    numberOf v = none ∨ numberOf v = some topInteger →
      (∃ err, (e.incr iter now key).1 = .error err) ∧ (e.incr iter now key).2 = e
  starts : e.live now key = none →
    e.incr iter now key = (.ok 1, e.insert key (ValueEntry.new now (ascii "1")))

/-- The key is live and holds the largest integer. -/
def AtTop (now : Instant) (e : DashMapEngine) (key : Key) : Prop :=
  ∃ v, e.live now key = some v ∧ numberOf v = some topInteger

/-- The results of INCR calls on one key, up to the first error. -/
def incrRun (key : Key) : DashMapEngine → List (Iter × Instant) → List (Except EngineError Int)
  | _, [] => []
  | e, (iter, now) :: rest =>
      match e.incr iter now key with
      | (.ok n, e) => .ok n :: incrRun key e rest
      | (.error err, _) => [.error err]

/-- Every result is one more than the one before, until an error ends the list. -/
def CountsUp : Int → List (Except EngineError Int) → Prop
  | _, [] => True
  | n, .ok m :: rest => m = n + 1 ∧ CountsUp m rest
  | _, .error _ :: rest => rest = []

section Counter

variable {iter : Iter} {now : Instant} {e : DashMapEngine} {key : Key} {v : ValueEntry} {n : Int}

theorem number_range (reads : numberOf v = some n) : -(2 ^ 63) ≤ n ∧ n ≤ topInteger := by
  have range := parseSigned_range reads
  unfold topInteger
  omega

theorem number_decimalInt (low : -(2 ^ 63) ≤ n) (high : n ≤ topInteger) :
    numberOf { v with data := decimalInt n } = some n := by
  unfold topInteger at high
  unfold numberOf
  rw [fromUtf8Lossy_decimalInt]
  exact parseSigned_decimalInt (by omega) (by omega)

/-! ## One call -/

theorem incr_live (iter : Iter) (live : e.live now key = some v) :
    e.incr iter now key =
      match numberOf v with
      | none => (.error (.notAnInteger key), e)
      | some n => (.ok (Int.bmod (n + 1) (2 ^ 64)),
          e.insert key { v with data := decimalInt (Int.bmod (n + 1) (2 ^ 64)) }) := by
  obtain ⟨held, alive⟩ := live_eq_some.1 live
  simp only [DashMapEngine.incr, held, alive, Bool.false_eq_true, if_false]
  rfl

theorem incr_below (iter : Iter) (live : e.live now key = some v) (reads : numberOf v = some n)
    (below : n < topInteger) :
    e.incr iter now key = (.ok (n + 1), e.insert key { v with data := decimalInt (n + 1) }) := by
  have range := number_range reads
  have exactly : Int.bmod (n + 1) (2 ^ 64) = n + 1 := by
    unfold topInteger at below
    exact Int.bmod_eq_of_le (by omega) (by omega)
  rw [incr_live iter live, reads]
  simp only [exactly]

/-- At the top the sum wraps, and the call succeeds. -/
theorem incr_top (iter : Iter) (live : e.live now key = some v)
    (reads : numberOf v = some topInteger) :
    e.incr iter now key = (.ok (-(2 ^ 63)), e.insert key { v with data := decimalInt (-(2 ^ 63)) }) := by
  have wraps : Int.bmod (topInteger + 1) (2 ^ 64) = -(2 ^ 63) := by decide
  rw [incr_live iter live, reads]
  simp only [wraps]

theorem incr_absent (unlimited : e.maxKeys = 0) (absent : e.live now key = none) :
    e.incr iter now key = (.ok 1, e.insert key (ValueEntry.new now (ascii "1"))) := by
  rw [DashMapEngine.incr_unlimited unlimited]
  cases held : e.map.lookup key with
  | none => rfl
  | some v =>
      have expired : v.isExpiredAt now = true := by
        by_contra alive
        have live : e.live now key = some v := live_eq_some.2 ⟨held, by simpa using alive⟩
        rw [absent] at live
        cases live
      simp only [expired, if_true]

theorem incrExact_iff (iter : Iter) (unlimited : e.maxKeys = 0) :
    IncrExact iter now e key ↔ ¬ AtTop now e key := by
  constructor
  · rintro exactly ⟨v, live, reads⟩
    obtain ⟨err, failed⟩ := (exactly.refuses v live (.inr reads)).1
    rw [incr_top iter live reads] at failed
    cases failed
  · intro below
    refine ⟨fun v n live reads small => incr_below iter live reads small, fun v live bad => ?_,
      incr_absent unlimited⟩
    rcases bad with noInteger | top
    · rw [incr_live iter live, noInteger]
      exact ⟨⟨_, rfl⟩, rfl⟩
    · exact absurd ⟨v, live, top⟩ below

/-! ## Successive calls -/

theorem countsUp_iff (live : e.map.lookup key = some v) (reads : numberOf v = some n)
    (calls : List (Iter × Instant)) (early : ∀ c ∈ calls, v.isExpiredAt c.2 = false) :
    CountsUp n (incrRun key e calls) ↔ n + calls.length ≤ topInteger := by
  -- the entry keeps its expiry, so it stays live; its number is what the last call returned
  induction calls generalizing e v n with
  | nil =>
      have range := number_range reads
      exact iff_of_true trivial (by simpa using range.2)
  | cons c calls ih =>
      obtain ⟨iter, now⟩ := c
      have alive : e.live now key = some v := live_eq_some.2 ⟨live, early (iter, now) (by simp)⟩
      have range := number_range reads
      by_cases below : n < topInteger
      · have held : (e.insert key { v with data := decimalInt (n + 1) }).map.lookup key =
            some { v with data := decimalInt (n + 1) } := Finmap.lookup_insert _
        have next := ih held (number_decimalInt (by omega) (by omega)) fun c inside =>
          early c (by simp [inside])
        simp only [incrRun, incr_below iter alive reads below, CountsUp, next, true_and, List.length_cons]
        push_cast
        omega
      · have top : n = topInteger := by omega
        subst top
        simp only [incrRun, incr_top iter alive reads, CountsUp, List.length_cons]
        refine iff_of_false (fun both => ?_) (by push_cast; omega)
        exact absurd both.1 (by decide)

end Counter

/-- Without a key limit: one INCR is exact, or without effect, exactly when the key
does not hold the largest integer; and the INCRs of a live integer, made before it
expires, add one each or stop exactly when they do not pass the largest integer. -/
theorem incr_exact_iff (e : DashMapEngine) (unlimited : e.maxKeys = 0) (key : Key) :
    (∀ iter now, IncrExact iter now e key ↔ ¬ AtTop now e key) ∧
      ∀ v n, e.map.lookup key = some v → numberOf v = some n → ∀ calls : List (Iter × Instant),
        (∀ c ∈ calls, v.isExpiredAt c.2 = false) →
          (CountsUp n (incrRun key e calls) ↔ n + calls.length < 2 ^ 63) := by
  refine ⟨fun iter now => incrExact_iff iter unlimited, fun v n live reads calls early => ?_⟩
  rw [countsUp_iff live reads calls early, topInteger]
  omega

/-- One key that holds a numeral. -/
def counterAt (text : Bytes) : DashMapEngine := DashMapEngine.new.insert (ascii "c") (ValueEntry.new 0 text)

theorem counterAt_held (text : Bytes) :
    (counterAt text).map.lookup (ascii "c") = some (ValueEntry.new 0 text) := Finmap.lookup_insert _

theorem incr_exact_forty_one :
    (counterAt (ascii "41")).maxKeys = 0 ∧
      IncrExact Iter.some 5 (counterAt (ascii "41")) (ascii "c") ∧
      CountsUp 41 (incrRun (ascii "c") (counterAt (ascii "41")) [(Iter.some, 5), (Iter.some, 6)]) := by
  have reads : numberOf (ValueEntry.new 0 (ascii "41")) = some 41 := by decide +kernel
  obtain ⟨single, several⟩ := incr_exact_iff (counterAt (ascii "41")) rfl (ascii "c")
  refine ⟨rfl, (single Iter.some 5).2 ?_,
    (several _ 41 (counterAt_held _) reads _ (by simp; decide)).2 (by decide)⟩
  rintro ⟨v, live, top⟩
  cases (counterAt_held _).symm.trans (live_eq_some.1 live).1
  rw [reads] at top
  exact absurd top (by decide)

/-- INCR of the largest integer succeeds and returns the smallest. -/
theorem incr_wraps :
    (counterAt (ascii "9223372036854775807")).maxKeys = 0 ∧
      ((counterAt (ascii "9223372036854775807")).incr Iter.some 5 (ascii "c")).1 = .ok (-(2 ^ 63)) ∧
      ¬ IncrExact Iter.some 5 (counterAt (ascii "9223372036854775807")) (ascii "c") ∧
      ¬ CountsUp topInteger
        (incrRun (ascii "c") (counterAt (ascii "9223372036854775807")) [(Iter.some, 5)]) := by
  have reads : numberOf (ValueEntry.new 0 (ascii "9223372036854775807")) = some topInteger := by
    decide +kernel
  have held := counterAt_held (ascii "9223372036854775807")
  have live : (counterAt (ascii "9223372036854775807")).live 5 (ascii "c") =
      some (ValueEntry.new 0 (ascii "9223372036854775807")) := live_eq_some.2 ⟨held, rfl⟩
  refine ⟨rfl, by rw [incr_top Iter.some live reads], fun exactly => ?_, fun counts => ?_⟩
  · exact (incrExact_iff Iter.some rfl).1 exactly ⟨_, live, reads⟩
  · have few := (countsUp_iff held reads [(Iter.some, 5)] (by simp; decide)).1 counts
    exact absurd few (by decide)

end ZetDb.Storage
