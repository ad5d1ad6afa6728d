/-
# Theory.Cursor -- cursor programs that say what they touch

A reader of a binary file is a program over a byte string, a limit and a cursor.
Such a program can go wrong in ways a function from bytes to values does not show:
it can slice past the end, move the cursor back, add a length to the cursor that
does not fit a machine word, or fall into the error branch of a helper.  A `Traced`
records these as events, beside its result and the cursor it leaves.

* `Within limit slack p events q`: from `p` to `q` the events keep the rules: the
  cursor only moves forward and never past the limit, every slice lies between the
  cursor and the limit, no sum exceeds the limit by more than `slack`, and no helper
  reports a fault.
* `Safe slack need c`: `c` keeps the rules wherever `need` bytes are left.  There is
  one rule for each construct; a check of the limit is what provides the bytes the
  next step needs.
* `toReader`: the reader a program computes, without its events.
-/
import ZetDb.Theory.Wire

namespace ZetDb.Theory.Cursor

set_option autoImplicit false

open ZetDb.Theory.Wire

inductive Event where
  /-- A sum that is compared with the limit. -/
  | reach (sum : Nat)
  | slice (pos len : Nat)
  | move (pos : Nat)
  /-- A helper reports an error. -/
  | fault (text : String)
  deriving DecidableEq, Repr

/-- The events, the result (`none` where the program stops) and the cursor. -/
def Traced (α : Type) : Type := Bytes → Nat → Nat → List Event × Option α × Nat

namespace Traced

variable {α β : Type}

def events (c : Traced α) (data : Bytes) (limit pos : Nat) : List Event := (c data limit pos).1

def result (c : Traced α) (data : Bytes) (limit pos : Nat) : Option α := (c data limit pos).2.1

/-- The cursor the program leaves, also where it stops. -/
def final (c : Traced α) (data : Bytes) (limit pos : Nat) : Nat := (c data limit pos).2.2

/-- The result and the cursor, without the events. -/
def outcome (c : Traced α) (data : Bytes) (limit pos : Nat) : Option α × Nat := (c data limit pos).2

protected def pure (a : α) : Traced α := fun _ _ pos => ([], some a, pos)

protected def bind (c : Traced α) (f : α → Traced β) : Traced β := fun data limit pos =>
  match c data limit pos with
  | (events, none, pos) => (events, none, pos)
  | (events, some a, pos) =>
      match f a data limit pos with
      | (more, b, pos) => (events ++ more, b, pos)

instance : Monad Traced where
  pure := Traced.pure
  bind := Traced.bind

/-- Stop, unless `n` more bytes are below the limit. -/
def check (n : Nat) : Traced Unit := fun _ limit pos =>
  if pos + n > limit then ([.reach (pos + n)], none, pos) else ([.reach (pos + n)], some (), pos)

/-- A `w`-byte word; past the end of the data the helper reports `text`. -/
def word (text : String) (w : Nat) : Traced Nat := fun data _ pos =>
  if pos + w ≤ data.length then
    ([.slice pos w, .move (pos + w)], some (ofLe (Wire.slice data pos w)), pos + w)
  else ([.fault text], none, pos)

/-- The next `n` bytes. -/
def take (n : Nat) : Traced Bytes := fun data _ pos =>
  ([.slice pos n, .move (pos + n)], some (Wire.slice data pos n), pos + n)

/-- A word, once its bytes have been checked for. -/
def checkedWord (text : String) (w : Nat) : Traced Nat := do
  check w
  word text w

/-- A length, then that many bytes, each checked for. -/
def sizedBytes (text : String) (w : Nat) : Traced Bytes := do
  let len ← checkedWord text w
  check len
  take len

/-- The byte at the cursor. -/
def byte : Traced UInt8 := fun data _ pos =>
  ([.slice pos 1, .move (pos + 1)], (data.drop pos).head?, pos + 1)

def stop : Traced α := fun _ _ pos => ([], none, pos)

def atLimit : Traced Bool := fun _ limit pos => ([], some (decide (limit ≤ pos)), pos)

/-- Go on behind a program that stops, where it stopped. -/
def attempt (c : Traced α) : Traced (Option α) := fun data limit pos =>
  match c data limit pos with
  | (events, a, pos) => (events, some a, pos)

end Traced

open Traced

/-! ## The rules -/

def Within (limit slack : Nat) : Nat → List Event → Nat → Prop
  | p, [], q => p = q
  | p, .reach sum :: events, q => sum ≤ limit + slack ∧ Within limit slack p events q
  | p, .slice pos len :: events, q => (p ≤ pos ∧ pos + len ≤ limit) ∧ Within limit slack p events q
  | p, .move pos :: events, q => (p ≤ pos ∧ pos ≤ limit) ∧ Within limit slack pos events q
  | _, .fault _ :: _, _ => False

section Rules

variable {limit slack p q : Nat}

theorem within_append {first second : List Event} {mid : Nat} (before : Within limit slack p first mid)
    (after : Within limit slack mid second q) : Within limit slack p (first ++ second) q := by
  induction first generalizing p with
  | nil =>
      cases before
      exact after
  | cons event first ih =>
      cases event with
      | reach sum => exact ⟨before.1, ih before.2⟩
      | slice pos len => exact ⟨before.1, ih before.2⟩
      | move pos => exact ⟨before.1, ih before.2⟩
      | fault text => exact before.elim

/-- The cursor ends at or behind its start, and not past the limit. -/
theorem within_forward {events : List Event} (keeps : Within limit slack p events q) (start : p ≤ limit) :
    p ≤ q ∧ q ≤ limit := by
  induction events generalizing p with
  | nil =>
      cases keeps
      exact ⟨Nat.le_refl _, start⟩
  | cons event events ih =>
      cases event with
      | reach sum => exact ih keeps.2 start
      | slice pos len => exact ih keeps.2 start
      | move pos =>
          obtain ⟨⟨forward, inside⟩, rest⟩ := keeps
          obtain ⟨behind, below⟩ := ih rest inside
          exact ⟨Nat.le_trans forward behind, below⟩
      | fault text => exact keeps.elim

end Rules

/-! ## Safe programs -/

/-- Where `need` bytes are left, the program keeps the rules. -/
structure Safe {α : Type} (slack need : Nat) (c : Traced α) : Prop where
  keeps : ∀ {data : Bytes} {limit pos : Nat}, limit ≤ data.length → pos + need ≤ limit →
    Within limit slack pos (c.events data limit pos) (c.final data limit pos)

section Safe

variable {α β : Type} {slack need : Nat}

theorem Safe.value (a : α) : Safe slack need (Pure.pure a : Traced α) := ⟨fun _ _ => rfl⟩

/-- What follows has to be safe for the values the first program returns. -/
theorem Safe.bindResult {c : Traced α} {f : α → Traced β} (first : Safe slack need c)
    (second : ∀ {data : Bytes} {limit pos : Nat} (a : α), limit ≤ data.length →
      c.result data limit pos = some a → Safe slack 0 (f a)) : Safe slack need (c >>= f) := by
  constructor
  intro data limit pos inData room
  have keeps := first.keeps inData room
  have inside := (within_forward keeps (by omega)).2
  show Within limit slack pos (Traced.bind c f data limit pos).1 (Traced.bind c f data limit pos).2.2
  unfold Traced.events Traced.final at keeps inside
  unfold Traced.bind
  cases shape : c data limit pos with
  | mk events rest =>
      obtain ⟨value, next⟩ := rest
      have returned : c.result data limit pos = value := by
        rw [Traced.result, shape]
      rw [shape] at keeps inside
      cases value with
      | none => exact keeps
      | some a => exact within_append keeps ((second a inData returned).keeps inData inside)

theorem Safe.bind {c : Traced α} {f : α → Traced β} (first : Safe slack need c)
    (second : ∀ a, Safe slack 0 (f a)) : Safe slack need (c >>= f) :=
  first.bindResult fun a _ _ => second a

/-- A check provides the bytes it has checked for; the sum it computes is bounded by
the length it adds. -/
theorem Safe.afterCheck {n : Nat} {f : Unit → Traced β} (small : n ≤ slack) (rest : Safe slack n (f ())) :
    Safe slack 0 (check n >>= f) := by
  constructor
  intro data limit pos inData room
  show Within limit slack pos (Traced.bind (check n) f data limit pos).1
    (Traced.bind (check n) f data limit pos).2.2
  unfold Traced.bind Traced.check
  by_cases past : pos + n > limit
  · rw [if_pos past]
    exact ⟨by omega, rfl⟩
  · rw [if_neg past]
    exact ⟨by omega, rest.keeps inData (by omega)⟩

/-- A word needs its bytes. -/
theorem Safe.ofWord (text : String) (w : Nat) : Safe slack w (word text w) := by
  constructor
  intro data limit pos inData room
  have present : pos + w ≤ data.length := by omega
  unfold Traced.events Traced.final Traced.word
  rw [if_pos present]
  exact ⟨⟨Nat.le_refl pos, room⟩, ⟨by omega, room⟩, rfl⟩

theorem Safe.ofTake (n : Nat) : Safe slack n (take n) := by
  constructor
  intro data limit pos inData room
  exact ⟨⟨Nat.le_refl pos, room⟩, ⟨by omega, room⟩, rfl⟩

theorem Safe.ofCheckedWord (text : String) {w : Nat} (small : w ≤ slack) :
    Safe slack 0 (checkedWord text w) :=
  .afterCheck small (.ofWord text w)

/-- The value of a word is one of that many bytes. -/
theorem checkedWord_lt {text : String} {w : Nat} {data : Bytes} {limit pos n : Nat}
    (inData : limit ≤ data.length) (read : (checkedWord text w).result data limit pos = some n) :
    n < 256 ^ w := by
  change (Traced.bind (check w) (fun _ => word text w) data limit pos).2.1 = some n at read
  unfold Traced.bind Traced.check Traced.word at read
  by_cases past : pos + w > limit
  · rw [if_pos past] at read
    cases read
  · have present : pos + w ≤ data.length := by omega
    rw [if_neg past] at read
    simp only [if_pos present, Option.some.injEq] at read
    subst read
    have width : (Wire.slice data pos w).length = w := slice_length present
    have small := ofLe_lt (Wire.slice data pos w)
    rwa [width] at small

/-- What the length field can hold bounds the sum that is compared with the limit. -/
theorem Safe.ofSizedBytes (text : String) {w : Nat} (small : w ≤ slack) (fits : 256 ^ w ≤ slack) :
    Safe slack 0 (sizedBytes text w) := by
  refine .bindResult (.ofCheckedWord text small) ?_
  intro data limit pos len inData read
  have short := checkedWord_lt inData read
  exact .afterCheck (by omega) (.ofTake len)

theorem Safe.afterByte {f : UInt8 → Traced β} (rest : ∀ b, Safe slack 0 (f b)) :
    Safe slack 1 (byte >>= f) := by
  have one : Safe slack 1 byte := by
    constructor
    intro data limit pos inData room
    exact ⟨⟨Nat.le_refl pos, room⟩, ⟨by omega, room⟩, rfl⟩
  exact one.bind rest

theorem Safe.afterLook {f : Bool → Traced β} (rest : ∀ done, Safe slack 0 (f done)) :
    Safe slack 0 (atLimit >>= f) :=
  ⟨fun inData room => (rest _).keeps inData room⟩

theorem Safe.ofStop : Safe slack need (stop : Traced α) := ⟨fun _ _ => rfl⟩

theorem Safe.caught {c : Traced α} (safe : Safe slack need c) : Safe slack need (attempt c) :=
  ⟨fun inData room => safe.keeps inData room⟩

/-- A safe program that returns a value does so within the rules. -/
theorem Safe.returns {c : Traced α} (safe : Safe slack 0 c) {data : Bytes} {limit pos : Nat} {a : α}
    (inData : limit ≤ data.length) (room : pos ≤ limit) (value : (c.outcome data limit pos).1 = some a) :
    ∃ events final, c data limit pos = (events, some a, final) ∧ Within limit slack pos events final ∧
      final ≤ limit := by
  have keeps := safe.keeps inData room
  have inside := (within_forward keeps room).2
  unfold events final at keeps
  unfold final at inside
  unfold outcome at value
  cases shape : c data limit pos with
  | mk events rest =>
      obtain ⟨returned, final⟩ := rest
      rw [shape] at keeps inside value
      cases value
      exact ⟨events, final, rfl, keeps, inside⟩

theorem Safe.ite {cond : Prop} [Decidable cond] {c d : Traced α} (yes : cond → Safe slack need c)
    (no : ¬cond → Safe slack need d) : Safe slack need (if cond then c else d) := by
  split
  · rename_i h
    exact yes h
  · rename_i h
    exact no h

end Safe

/-! ## The reader a program computes -/

namespace Traced

variable {α β : Type}

def toReader (c : Traced α) : Reader α := fun data limit pos =>
  (c.result data limit pos).map fun a => (a, c.final data limit pos)

theorem outcome_bind (c : Traced α) (f : α → Traced β) (data : Bytes) (limit pos : Nat) :
    outcome (c >>= f) data limit pos =
      match c.outcome data limit pos with
      | (none, pos) => (none, pos)
      | (some a, pos) => (f a).outcome data limit pos := by
  show (Traced.bind c f data limit pos).2 = _
  unfold Traced.bind outcome
  cases c data limit pos with
  | mk events rest =>
      obtain ⟨value, next⟩ := rest
      cases value with
      | none => rfl
      | some a => rfl

theorem outcome_look (f : Bool → Traced β) (data : Bytes) (limit pos : Nat) :
    outcome (atLimit >>= f) data limit pos = (f (decide (limit ≤ pos))).outcome data limit pos := rfl

theorem outcome_attempt (c : Traced α) (f : Option α → Traced β) (data : Bytes) (limit pos : Nat) :
    outcome (attempt c >>= f) data limit pos =
      (f (c.outcome data limit pos).1).outcome data limit (c.outcome data limit pos).2 := rfl

theorem outcome_checkedWord (text : String) (w : Nat) (data : Bytes) (limit pos : Nat) :
    (checkedWord text w).outcome data limit pos =
      if pos + w > limit then (none, pos)
      else if pos + w ≤ data.length then (some (ofLe (Wire.slice data pos w)), pos + w)
      else (none, pos) := by
  rw [checkedWord, outcome_bind]
  by_cases past : pos + w > limit
  · simp [outcome, check, past]
  · by_cases present : pos + w ≤ data.length
    · simp [outcome, check, word, past, present]
    · simp [outcome, check, word, past, present]

/-- Bytes behind their length stop in front of the length, or behind it. -/
theorem outcome_sizedBytes (text : String) (w : Nat) (data : Bytes) (limit pos : Nat) :
    (sizedBytes text w).outcome data limit pos =
      match (checkedWord text w).outcome data limit pos with
      | (none, pos) => (none, pos)
      | (some len, pos) =>
          if pos + len > limit then (none, pos) else (some (Wire.slice data pos len), pos + len) := by
  rw [sizedBytes, outcome_bind]
  cases (checkedWord text w).outcome data limit pos with
  | mk value next =>
      cases value with
      | none => rfl
      | some len =>
          simp only
          rw [outcome_bind]
          by_cases past : next + len > limit
          · simp [outcome, check, past]
          · simp [outcome, check, take, past]

theorem toReader_bind (c : Traced α) (f : α → Traced β) (data : Bytes) (limit pos : Nat) :
    toReader (c >>= f) data limit pos =
      (c.toReader data limit pos).bind fun r => (f r.1).toReader data limit r.2 := by
  show ((Traced.bind c f data limit pos).2.1).map (fun b => (b, (Traced.bind c f data limit pos).2.2)) = _
  unfold Traced.bind toReader result final
  cases c data limit pos with
  | mk events rest =>
      obtain ⟨value, next⟩ := rest
      cases value with
      | none => rfl
      | some a => rfl

/-- A check and what follows it. -/
theorem toReader_check (n : Nat) (f : Unit → Traced β) (data : Bytes) (limit pos : Nat) :
    toReader (check n >>= f) data limit pos =
      if pos + n > limit then none else (f ()).toReader data limit pos := by
  rw [toReader_bind]
  by_cases past : pos + n > limit
  · simp [toReader, result, check, past]
  · simp [toReader, result, final, check, past]

theorem toReader_checkedWord (text : String) (w : Nat) :
    (checkedWord text w).toReader = Reader.word w := by
  funext data limit pos
  rw [checkedWord, toReader_check, Reader.word]
  by_cases past : pos + w > limit
  · rw [if_pos past, if_pos past]
  · rw [if_neg past, if_neg past]
    by_cases present : pos + w ≤ data.length
    · simp [toReader, result, final, word, present]
    · simp [toReader, result, word, present]

theorem toReader_sizedBytes (text : String) (w : Nat) :
    (sizedBytes text w).toReader = Reader.sized (Reader.word w) id := by
  funext data limit pos
  rw [sizedBytes, toReader_bind, toReader_checkedWord, Reader.sized]
  congr 1
  funext r
  exact toReader_check r.1 _ data limit r.2

theorem toReader_eq_none {c : Traced α} {data : Bytes} {limit pos : Nat}
    (stops : c.toReader data limit pos = none) : (c.outcome data limit pos).1 = none :=
  Option.map_eq_none_iff.1 stops

theorem toReader_eq_some {c : Traced α} {data : Bytes} {limit pos next : Nat} {a : α}
    (reads : c.toReader data limit pos = some (a, next)) : c.outcome data limit pos = (some a, next) := by
  obtain ⟨b, returned, same⟩ := Option.map_eq_some_iff.1 reads
  cases same
  exact Prod.ext returned rfl

/-- Behind an attempt the program goes on where the attempt stopped. -/
theorem toReader_attempt (c : Traced α) (f : Option α → Traced β) (data : Bytes) (limit pos : Nat) :
    toReader (attempt c >>= f) data limit pos =
      (f (c.outcome data limit pos).1).toReader data limit (c.outcome data limit pos).2 := rfl

/-- A value computed from what a program returns. -/
theorem toReader_value (c : Traced α) (f : α → β) (data : Bytes) (limit pos : Nat) :
    toReader (c >>= fun a => Pure.pure (f a)) data limit pos =
      (c.toReader data limit pos).map fun r => (f r.1, r.2) := by
  rw [toReader_bind]
  cases c.toReader data limit pos <;> rfl

end Traced

end ZetDb.Theory.Cursor
