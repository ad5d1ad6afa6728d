/-
# Theory.Wire -- little-endian words and cursor readers over a byte window

A binary log is read by a cursor: a position in a byte string, a limit it must
not pass, and readers that either return a value with the position behind it or
stop.  This module gives fixed-width little-endian words (`toLe`, `ofLe`), and
the two laws a reader owes its encoder (`Decodes`):

* `whole`: where the window holds an encoding, the reader returns the value and
  stands right behind the encoding, whatever follows;
* `torn`: where the window holds a strict prefix of an encoding, the reader
  stops.

Both laws compose (`Decodes.pair`, `Decodes.sized`), so a record format
is decoded, and its torn tail refused, field by field.
-/
import Mathlib.Algebra.Order.Ring.Int
import Mathlib.Data.List.Basic
import Mathlib.Data.List.Infix
import Mathlib.Tactic.Common

namespace ZetDb.Theory.Wire

set_option autoImplicit false

abbrev Bytes := List UInt8

/-! ## Little-endian words -/

/-- The `w` least significant bytes of `n`, least significant first. -/
def toLe : Nat → Nat → Bytes
  | 0, _ => []
  | w + 1, n => UInt8.ofNat (n % 256) :: toLe w (n / 256)

def ofLe : Bytes → Nat
  | [] => 0
  | b :: bs => b.toNat + 256 * ofLe bs

@[simp] theorem toLe_length (w n : Nat) : (toLe w n).length = w := by
  induction w generalizing n with
  | zero => rfl
  | succ w ih => simp [toLe, ih]

theorem ofLe_toLe (w n : Nat) : ofLe (toLe w n) = n % 256 ^ w := by
  induction w generalizing n with
  | zero => simp [toLe, ofLe, Nat.mod_one]
  | succ w ih =>
      have low : (UInt8.ofNat (n % 256)).toNat = n % 256 := by
        rw [UInt8.toNat_ofNat']
        exact Nat.mod_eq_of_lt (Nat.mod_lt n (by decide))
      rw [toLe, ofLe, ih, low, Nat.pow_succ', Nat.mod_mul]

theorem ofLe_toLe_of_lt {w n : Nat} (fits : n < 256 ^ w) : ofLe (toLe w n) = n := by
  rw [ofLe_toLe, Nat.mod_eq_of_lt fits]

/-- A word is the encoding of its value. -/
theorem toLe_ofLe {w : Nat} {bytes : Bytes} (width : bytes.length = w) : toLe w (ofLe bytes) = bytes := by
  induction bytes generalizing w with
  | nil =>
      cases width
      rfl
  | cons b bytes ih =>
      cases width
      have small := b.toNat_lt
      have low : (b.toNat + 256 * ofLe bytes) % 256 = b.toNat := by omega
      have high : (b.toNat + 256 * ofLe bytes) / 256 = ofLe bytes := by omega
      rw [ofLe, List.length_cons, toLe, low, high, ih rfl, UInt8.ofNat_toNat]

theorem ofLe_lt (bytes : Bytes) : ofLe bytes < 256 ^ bytes.length := by
  induction bytes with
  | nil => exact Nat.one_pos
  | cons b bytes ih =>
      have small := b.toNat_lt
      rw [ofLe, List.length_cons, Nat.pow_succ]
      omega

/-! ## Two's complement words -/

/-- The unsigned image of a signed value in `b` bits. -/
def toTwos (b : Nat) (i : Int) : Nat := (i % (2 ^ b : Nat)).toNat

/-- The signed value of `b` bits. -/
def ofTwos (b : Nat) (n : Nat) : Int := Int.bmod n (2 ^ b)

theorem toTwos_lt (b : Nat) (i : Int) : toTwos b i < 2 ^ b := by
  have positive : (0 : Int) < ((2 ^ b : Nat) : Int) := by exact_mod_cast Nat.two_pow_pos b
  have := Int.emod_lt_of_pos i positive
  have := Int.emod_nonneg i positive.ne'
  unfold toTwos
  omega

theorem ofTwos_toTwos {b : Nat} {i : Int} : ofTwos b (toTwos b i) = Int.bmod i (2 ^ b) := by
  have positive : (0 : Int) < ((2 ^ b : Nat) : Int) := by exact_mod_cast Nat.two_pow_pos b
  have image : ((toTwos b i : Nat) : Int) = i % (2 ^ b : Nat) :=
    Int.toNat_of_nonneg (Int.emod_nonneg i positive.ne')
  rw [ofTwos, image, Int.emod_bmod]

theorem toTwos_ofTwos {b n : Nat} (small : n < 2 ^ b) : toTwos b (ofTwos b n) = n := by
  rw [toTwos, ofTwos, Int.bmod_emod, ← Int.natCast_emod, Int.toNat_natCast, Nat.mod_eq_of_lt small]

/-! ## Cursor readers -/

/-- The bytes `data[pos..pos + len]`. -/
def slice (data : Bytes) (pos len : Nat) : Bytes := (data.drop pos).take len

/-- A reader takes the data, the limit and the position; it stops (`none`) or
returns a value and the position behind it. -/
abbrev Reader (α : Type) := Bytes → Nat → Nat → Option (α × Nat)

/-- The cursor stands at `pos`, below the limit, and sees exactly `seen`. -/
structure At (data : Bytes) (limit pos : Nat) (seen : Bytes) : Prop where
  limit_le : limit ≤ data.length
  pos_le : pos ≤ limit
  sees : (data.take limit).drop pos = seen

namespace At

variable {data front rest seen : Bytes} {limit pos : Nat}

theorem start (data : Bytes) : At data data.length 0 data :=
  ⟨le_rfl, Nat.zero_le _, by simp⟩

theorem length_eq (here : At data limit pos seen) : seen.length = limit - pos := by
  have := here.limit_le
  rw [← here.sees, List.length_drop, List.length_take]
  omega

theorem fits (here : At data limit pos (front ++ rest)) : pos + front.length ≤ limit := by
  have := here.length_eq
  have := here.pos_le
  simp only [List.length_append] at *
  omega

theorem advance (here : At data limit pos (front ++ rest)) :
    At data limit (pos + front.length) rest where
  limit_le := here.limit_le
  pos_le := here.fits
  sees := by
    rw [← List.drop_drop, here.sees]
    simp

theorem step {b : UInt8} (here : At data limit pos (b :: rest)) : At data limit (pos + 1) rest :=
  advance (show At data limit pos ([b] ++ rest) from here)

theorem slice_eq (here : At data limit pos (front ++ rest)) :
    slice data pos front.length = front := by
  have := here.fits
  have taken := congrArg (List.take front.length) here.sees
  rw [List.drop_take, List.take_take, List.take_left] at taken
  rwa [Nat.min_eq_left (by omega)] at taken

end At

/-- The laws a reader owes the encoder `enc` on the values `ok`. -/
structure Decodes {α : Type} (read : Reader α) (enc : α → Bytes) (ok : α → Prop) : Prop where
  whole : ∀ {data : Bytes} {limit pos : Nat} {a : α} {rest : Bytes}, ok a →
    At data limit pos (enc a ++ rest) → read data limit pos = some (a, pos + (enc a).length)
  torn : ∀ {data : Bytes} {limit pos : Nat} {a : α} {seen : Bytes}, ok a →
    At data limit pos seen → seen <+: enc a → seen ≠ enc a → read data limit pos = none

theorem Decodes.weaken {α : Type} {read : Reader α} {enc : α → Bytes} {ok narrow : α → Prop}
    (laws : Decodes read enc ok) (sub : ∀ a, narrow a → ok a) : Decodes read enc narrow :=
  ⟨fun good => laws.whole (sub _ good), fun good => laws.torn (sub _ good)⟩

/-- A prefix of a concatenation is torn in its first part, or has the first part
whole and goes on in the second. -/
theorem prefix_append_cases {ι : Type} {seen front back : List ι} (before : seen <+: front ++ back) :
    (seen <+: front ∧ seen ≠ front) ∨ ∃ rest, seen = front ++ rest ∧ rest <+: back := by
  by_cases inFront : seen <+: front ∧ seen ≠ front
  · exact Or.inl inFront
  right
  have covers : front <+: seen := by
    rcases List.prefix_or_prefix_of_prefix before (List.prefix_append front back) with short | long
    · have full : seen = front := by
        by_contra cut
        exact inFront ⟨short, cut⟩
      rw [full]
    · exact long
  obtain ⟨rest, rfl⟩ := covers
  exact ⟨rest, rfl, (List.prefix_append_right_inj front).1 before⟩

/-- A strict prefix is torn in one of the two parts. -/
theorem strictPrefix_append {ι : Type} {seen front back : List ι} (before : seen <+: front ++ back)
    (strict : seen ≠ front ++ back) :
    (seen <+: front ∧ seen ≠ front) ∨ ∃ rest, seen = front ++ rest ∧ rest <+: back ∧ rest ≠ back := by
  rcases prefix_append_cases before with inFront | ⟨rest, rfl, inBack⟩
  · exact Or.inl inFront
  · exact Or.inr ⟨rest, rfl, inBack, fun all => strict (by rw [all])⟩

theorem strictPrefix_length {ι : Type} {seen whole : List ι} (before : seen <+: whole)
    (strict : seen ≠ whole) :
    seen.length < whole.length :=
  lt_of_le_of_ne before.length_le fun same => strict (before.eq_of_length same)

/-! ## Combinators -/

section Combinators

variable {α β : Type}

/-- A `w`-byte word: refused past the limit, and past the end of the data. -/
def Reader.word (w : Nat) : Reader Nat := fun data limit pos =>
  if pos + w > limit then none
  else if pos + w ≤ data.length then some (ofLe (slice data pos w), pos + w)
  else none

/-- A length, then that many bytes, passed through `conv`. -/
def Reader.sized (len : Reader Nat) (conv : Bytes → Bytes) : Reader Bytes := fun data limit pos =>
  (len data limit pos).bind fun r =>
    if r.2 + r.1 > limit then none
    else some (conv (slice data r.2 r.1), r.2 + r.1)

/-- One field, then another. -/
def Reader.pair (first : Reader α) (second : Reader β) : Reader (α × β) := fun data limit pos =>
  (first data limit pos).bind fun r =>
    (second data limit r.2).bind fun q => some ((r.1, q.1), q.2)

def Reader.map (f : α → β) (read : Reader α) : Reader β := fun data limit pos =>
  (read data limit pos).bind fun r => some (f r.1, r.2)

/-- Bytes that are converted are first read as they stand. -/
theorem Reader.sized_eq_map (len : Reader Nat) (conv : Bytes → Bytes) :
    Reader.sized len conv = (Reader.sized len id).map conv := by
  funext data limit pos
  unfold Reader.map Reader.sized
  cases len data limit pos with
  | none => rfl
  | some r =>
      by_cases past : r.2 + r.1 > limit <;> simp [past]

/-- The same field as often as given. -/
def Reader.times (read : Reader α) : Nat → Reader (List α)
  | 0 => fun _ _ pos => some ([], pos)
  | n + 1 => (read.pair (Reader.times read n)).map fun r => r.1 :: r.2

theorem Decodes.word (w : Nat) : Decodes (Reader.word w) (toLe w) (fun n => n < 256 ^ w) where
  whole := by
    intro data limit pos n rest small here
    have bound := here.fits
    have inData := here.limit_le
    have seen := here.slice_eq
    rw [toLe_length] at bound seen
    rw [Reader.word, if_neg (by omega), if_pos (by omega), seen, ofLe_toLe_of_lt small, toLe_length]
  torn := by
    intro data limit pos n seen _ here before strict
    have short := strictPrefix_length before strict
    rw [toLe_length, here.length_eq] at short
    rw [Reader.word, if_pos (by omega)]

theorem Decodes.sized {len : Reader Nat} {encLen : Nat → Bytes} {okLen : Nat → Prop}
    (field : Decodes len encLen okLen) (conv : Bytes → Bytes) :
    Decodes (Reader.sized len conv) (fun bytes => encLen bytes.length ++ bytes)
      (fun bytes => okLen bytes.length ∧ conv bytes = bytes) where
  whole := by
    intro data limit pos bytes rest good here
    rw [List.append_assoc] at here
    have behind := here.advance
    have inside := behind.fits
    rw [Reader.sized, field.whole good.1 here, Option.bind_some, if_neg (by omega),
      behind.slice_eq, good.2, List.length_append, Nat.add_assoc]
  torn := by
    intro data limit pos bytes seen good here before strict
    rcases strictPrefix_append before strict with ⟨inLen, cut⟩ | ⟨body, rfl, inBytes, cut⟩
    · rw [Reader.sized, field.torn good.1 here inLen cut, Option.bind_none]
    · have short := strictPrefix_length inBytes cut
      have behind := here.advance
      rw [behind.length_eq] at short
      rw [Reader.sized, field.whole good.1 here, Option.bind_some, if_pos (by omega)]

theorem Decodes.pair {first : Reader α} {second : Reader β} {encFirst : α → Bytes}
    {encSecond : β → Bytes} {okFirst : α → Prop} {okSecond : β → Prop}
    (left : Decodes first encFirst okFirst) (right : Decodes second encSecond okSecond) :
    Decodes (first.pair second) (fun ab => encFirst ab.1 ++ encSecond ab.2)
      (fun ab => okFirst ab.1 ∧ okSecond ab.2) where
  whole := by
    intro data limit pos ab rest good here
    rw [List.append_assoc] at here
    rw [Reader.pair, left.whole good.1 here, Option.bind_some, right.whole good.2 here.advance,
      Option.bind_some, List.length_append, Nat.add_assoc]
  torn := by
    intro data limit pos ab seen good here before strict
    rcases strictPrefix_append before strict with ⟨inFirst, cut⟩ | ⟨back, rfl, inSecond, cut⟩
    · rw [Reader.pair, left.torn good.1 here inFirst cut, Option.bind_none]
    · rw [Reader.pair, left.whole good.1 here, Option.bind_some,
        right.torn good.2 here.advance inSecond cut, Option.bind_none]

/-- A list of fields is read back by as many turns. -/
theorem Decodes.times_whole {read : Reader α} {enc : α → Bytes} {ok : α → Prop}
    (field : Decodes read enc ok) {data rest : Bytes} {limit pos : Nat} {as : List α}
    (good : ∀ a ∈ as, ok a) (here : At data limit pos (as.flatMap enc ++ rest)) :
    read.times as.length data limit pos = some (as, pos + (as.flatMap enc).length) := by
  induction as generalizing pos with
  | nil => rfl
  | cons a as ih =>
      rw [List.flatMap_cons, List.append_assoc] at here
      have tail := ih (fun b inside => good b (by simp [inside])) here.advance
      rw [List.length_cons, Reader.times, Reader.map, Reader.pair, field.whole (good a (by simp)) here,
        Option.bind_some, tail, Option.bind_some, Option.bind_some, List.flatMap_cons,
        List.length_append, Nat.add_assoc]

/-- A reader never moves the cursor back, and never past the limit. -/
def Reader.Forward (read : Reader α) : Prop :=
  ∀ {data : Bytes} {limit pos : Nat} {a : α} {next : Nat},
    read data limit pos = some (a, next) → pos ≤ next ∧ next ≤ limit

theorem Reader.word_forward (w : Nat) : (Reader.word w).Forward := by
  intro data limit pos n next read
  unfold Reader.word at read
  split at read
  · cases read
  · split at read
    · simp only [Option.some.injEq, Prod.mk.injEq] at read
      omega
    · cases read

theorem Reader.sized_forward {len : Reader Nat} (forward : len.Forward) (conv : Bytes → Bytes) :
    (Reader.sized len conv).Forward := by
  intro data limit pos bytes next read
  simp only [Reader.sized, Option.bind_eq_some_iff] at read
  obtain ⟨⟨n, mid⟩, first, second⟩ := read
  have := forward first
  split at second
  · cases second
  · simp only [Option.some.injEq, Prod.mk.injEq] at second
    omega

theorem Reader.map_forward {read : Reader α} (forward : read.Forward) (f : α → β) :
    (read.map f).Forward := by
  intro data limit pos b next mapped
  simp only [Reader.map, Option.bind_eq_some_iff] at mapped
  obtain ⟨⟨a, mid⟩, first, second⟩ := mapped
  simp only [Option.some.injEq, Prod.mk.injEq] at second
  exact second.2 ▸ forward first

/-- A reader followed by an inverse of the encoder's first stage. -/
theorem Decodes.map {read : Reader α} {enc : α → Bytes} {okCode : α → Prop} {ok : β → Prop}
    (field : Decodes read enc okCode) (f : α → β) (code : β → α)
    (inverse : ∀ b, ok b → okCode (code b) ∧ f (code b) = b) :
    Decodes (read.map f) (fun b => enc (code b)) ok where
  whole := by
    intro data limit pos b rest good here
    obtain ⟨codeOk, back⟩ := inverse b good
    rw [Reader.map, field.whole codeOk here, Option.bind_some, back]
  torn := by
    intro data limit pos b seen good here before strict
    rw [Reader.map, field.torn (inverse b good).1 here before strict, Option.bind_none]

/-! ## What a reader returns is there

The converse of `whole`: a value a reader returns is one the encoder takes, and its
encoding is what the window holds at the cursor. -/

structure Sound (read : Reader α) (enc : α → Bytes) (ok : α → Prop) : Prop where
  holds : ∀ {data : Bytes} {limit pos : Nat} {a : α} {next : Nat}, limit ≤ data.length →
    read data limit pos = some (a, next) →
      ok a ∧ next = pos + (enc a).length ∧ ∃ rest, At data limit pos (enc a ++ rest)

/-- The window at the cursor starts with the bytes sliced there. -/
theorem At.slice_append {data : Bytes} {limit pos n : Nat} (inData : limit ≤ data.length)
    (room : pos + n ≤ limit) : At data limit pos (slice data pos n ++ (data.take limit).drop (pos + n)) where
  limit_le := inData
  pos_le := by omega
  sees := by
    have front : slice data pos n = ((data.take limit).drop pos).take n := by
      rw [slice, List.drop_take, List.take_take, Nat.min_eq_left (by omega)]
    rw [front, ← List.drop_drop, List.take_append_drop]

theorem slice_length {data : Bytes} {pos n : Nat} (room : pos + n ≤ data.length) :
    (slice data pos n).length = n := by
  rw [slice, List.length_take, List.length_drop]
  omega

theorem Sound.word (w : Nat) : Sound (Reader.word w) (toLe w) (fun n => n < 256 ^ w) where
  holds := by
    intro data limit pos n next inData read
    unfold Reader.word at read
    split at read
    · cases read
    · rename_i room
      rw [if_pos (by omega)] at read
      cases read
      have width : (slice data pos w).length = w := slice_length (by omega)
      have small := ofLe_lt (slice data pos w)
      have here := At.slice_append (n := w) inData (Nat.le_of_not_lt room)
      rw [width] at small
      rw [toLe_ofLe width, width]
      exact ⟨small, rfl, _, here⟩

theorem Sound.sized {len : Reader Nat} {encLen : Nat → Bytes} {okLen : Nat → Prop}
    (field : Sound len encLen okLen) :
    Sound (Reader.sized len id) (fun bytes => encLen bytes.length ++ bytes)
      (fun bytes => okLen bytes.length) where
  holds := by
    intro data limit pos bytes next inData read
    simp only [Reader.sized, Option.bind_eq_some_iff] at read
    obtain ⟨⟨n, mid⟩, first, second⟩ := read
    obtain ⟨small, rfl, rest, here⟩ := field.holds inData first
    split at second
    · cases second
    · rename_i room
      have width : (slice data (pos + (encLen n).length) n).length = n := slice_length (by omega)
      have body : At data limit (pos + (encLen n).length) _ :=
        At.slice_append (n := n) inData (Nat.le_of_not_lt room)
      simp only [id, Option.some.injEq, Prod.mk.injEq] at second
      obtain ⟨rfl, rfl⟩ := second
      rw [width]
      refine ⟨small, by rw [List.length_append, width, Nat.add_assoc],
        (data.take limit).drop (pos + (encLen n).length + n), ?_⟩
      rw [List.append_assoc, ← here.advance.sees.symm.trans body.sees]
      exact here

theorem Sound.pair {first : Reader α} {second : Reader β} {encFirst : α → Bytes}
    {encSecond : β → Bytes} {okFirst : α → Prop} {okSecond : β → Prop}
    (left : Sound first encFirst okFirst) (right : Sound second encSecond okSecond) :
    Sound (first.pair second) (fun ab => encFirst ab.1 ++ encSecond ab.2)
      (fun ab => okFirst ab.1 ∧ okSecond ab.2) where
  holds := by
    intro data limit pos ab next inData read
    simp only [Reader.pair, Option.bind_eq_some_iff] at read
    obtain ⟨⟨a, mid⟩, firstRead, ⟨b, last⟩, secondRead, same⟩ := read
    cases same
    obtain ⟨goodFirst, rfl, rest, here⟩ := left.holds inData firstRead
    obtain ⟨goodSecond, rfl, more, there⟩ := right.holds inData secondRead
    refine ⟨⟨goodFirst, goodSecond⟩, by rw [List.length_append, Nat.add_assoc], more, ?_⟩
    rw [List.append_assoc, ← here.advance.sees.symm.trans there.sees]
    exact here

/-- A reader followed by a conversion the encoder undoes. -/
theorem Sound.map {read : Reader α} {enc : α → Bytes} {okCode : α → Prop} {ok : β → Prop}
    (field : Sound read enc okCode) (f : α → β) (code : β → α)
    (inverse : ∀ a, okCode a → ok (f a) ∧ code (f a) = a) :
    Sound (read.map f) (fun b => enc (code b)) ok where
  holds := by
    intro data limit pos b next inData mapped
    simp only [Reader.map, Option.bind_eq_some_iff] at mapped
    obtain ⟨⟨a, mid⟩, first, same⟩ := mapped
    cases same
    obtain ⟨codeOk, rfl, rest, here⟩ := field.holds inData first
    obtain ⟨good, back⟩ := inverse a codeOk
    rw [back]
    exact ⟨good, rfl, rest, here⟩

/-! ## A reader sees what is before it

Two cursors, in two files, that see the same bytes: a local reader stops on both, or
returns the same value and consumes the same bytes. -/

def SameReading (seen : Bytes) (pos pos' : Nat) (r r' : Option (α × Nat)) : Prop :=
  (r = none ∧ r' = none) ∨ ∃ a front rest, seen = front ++ rest ∧ r = some (a, pos + front.length) ∧
    r' = some (a, pos' + front.length)

structure Reader.Local (read : Reader α) : Prop where
  same : ∀ {data data' : Bytes} {limit limit' pos pos' : Nat} {seen : Bytes}, At data limit pos seen →
    At data' limit' pos' seen → SameReading seen pos pos' (read data limit pos) (read data' limit' pos')

/-- What the cursor sees splits where that many bytes end, or is shorter. -/
theorem word_at {data seen : Bytes} {limit pos : Nat} (here : At data limit pos seen) (w : Nat) :
    Reader.word w data limit pos = if w ≤ seen.length then some (ofLe (seen.take w), pos + w) else none := by
  have inData := here.limit_le
  have below := here.pos_le
  have length := here.length_eq
  by_cases room : w ≤ seen.length
  · have split : At data limit pos (seen.take w ++ seen.drop w) := by
      rw [List.take_append_drop]
      exact here
    have taken := split.slice_eq
    rw [List.length_take, Nat.min_eq_left room] at taken
    rw [Reader.word, if_neg (by omega), if_pos (by omega), if_pos room, taken]
  · rw [Reader.word, if_pos (by omega), if_neg room]

theorem Reader.word_local (w : Nat) : (Reader.word w).Local where
  same := by
    intro data data' limit limit' pos pos' seen here there
    rw [word_at here, word_at there]
    by_cases room : w ≤ seen.length
    · rw [if_pos room, if_pos room]
      refine .inr ⟨ofLe (seen.take w), seen.take w, seen.drop w, (List.take_append_drop w seen).symm, ?_⟩
      rw [List.length_take, Nat.min_eq_left room]
      exact ⟨rfl, rfl⟩
    · rw [if_neg room, if_neg room]
      exact .inl ⟨rfl, rfl⟩

/-- The next `n` bytes are there for both cursors, or for none. -/
theorem slice_local {data data' seen : Bytes} {limit limit' pos pos' : Nat} (here : At data limit pos seen)
    (there : At data' limit' pos' seen) (n : Nat) :
    (pos + n > limit ∧ pos' + n > limit') ∨
      (¬pos + n > limit ∧ ¬pos' + n > limit' ∧ seen = slice data pos n ++ seen.drop n ∧
        slice data' pos' n = slice data pos n ∧ (slice data pos n).length = n) := by
  have length := here.length_eq
  have length' := there.length_eq
  have below := here.pos_le
  have below' := there.pos_le
  by_cases room : n ≤ seen.length
  · right
    have width : (seen.take n).length = n := by rw [List.length_take, Nat.min_eq_left room]
    rw [← List.take_append_drop n seen] at here there
    have first := here.slice_eq
    have second := there.slice_eq
    rw [width] at first second
    refine ⟨by omega, by omega, ?_, second.trans first.symm, by rw [first, width]⟩
    rw [first, List.take_append_drop]
  · left
    omega

theorem Reader.sized_local {len : Reader Nat} (field : len.Local) (conv : Bytes → Bytes) :
    (Reader.sized len conv).Local where
  same := by
    intro data data' limit limit' pos pos' seen here there
    unfold Reader.sized
    obtain ⟨none, none'⟩ | ⟨n, front, rest, rfl, read, read'⟩ := field.same here there
    · rw [none, none']
      exact .inl ⟨rfl, rfl⟩
    · rw [read, read', Option.bind_some, Option.bind_some]
      obtain ⟨past, past'⟩ | ⟨room, room', split, same, width⟩ := slice_local here.advance there.advance n
      · rw [if_pos past, if_pos past']
        exact .inl ⟨rfl, rfl⟩
      · rw [if_neg room, if_neg room', same]
        refine .inr ⟨conv (slice data (pos + front.length) n), front ++ slice data (pos + front.length) n,
          rest.drop n, ?_, ?_, ?_⟩
        · rw [List.append_assoc, ← split]
        · rw [List.length_append, width, ← Nat.add_assoc]
        · rw [List.length_append, width, ← Nat.add_assoc]

theorem Reader.pair_local {first : Reader α} {second : Reader β} (left : first.Local) (right : second.Local) :
    (first.pair second).Local where
  same := by
    intro data data' limit limit' pos pos' seen here there
    unfold Reader.pair
    obtain ⟨none, none'⟩ | ⟨a, front, rest, rfl, read, read'⟩ := left.same here there
    · rw [none, none']
      exact .inl ⟨rfl, rfl⟩
    · rw [read, read', Option.bind_some, Option.bind_some]
      obtain ⟨none, none'⟩ | ⟨b, mid, last, rfl, more, more'⟩ := right.same here.advance there.advance
      · rw [none, none']
        exact .inl ⟨rfl, rfl⟩
      · rw [more, more']
        refine .inr ⟨(a, b), front ++ mid, last, (List.append_assoc _ _ _).symm, ?_, ?_⟩
        · rw [List.length_append, ← Nat.add_assoc]
          rfl
        · rw [List.length_append, ← Nat.add_assoc]
          rfl

theorem SameReading.map {seen : Bytes} {pos pos' : Nat} {r r' : Option (α × Nat)}
    (same : SameReading seen pos pos' r r') (f : α → β) :
    SameReading seen pos pos' (r.map fun q => (f q.1, q.2)) (r'.map fun q => (f q.1, q.2)) := by
  obtain ⟨none, none'⟩ | ⟨a, front, rest, split, read, read'⟩ := same
  · rw [none, none']
    exact .inl ⟨rfl, rfl⟩
  · rw [read, read']
    exact .inr ⟨f a, front, rest, split, rfl, rfl⟩

theorem Reader.map_local {read : Reader α} (field : read.Local) (f : α → β) : (read.map f).Local where
  same := by
    intro data data' limit limit' pos pos' seen here there
    have mapped : ∀ r : Option (α × Nat), (r.bind fun q => some (f q.1, q.2)) = r.map fun q => (f q.1, q.2) := by
      intro r
      cases r <;> rfl
    rw [Reader.map, Reader.map, mapped, mapped]
    exact (field.same here there).map f

end Combinators

end ZetDb.Theory.Wire
