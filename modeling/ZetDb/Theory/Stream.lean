/-
# Theory.Stream -- scanners over the received part of a stream

A connection delivers a stream in pieces.  A scanner looks at what has been
received and not yet consumed; it fails, asks for more (`none`), or returns a
value and the number of items it consumed.  Scanners compose with `bind`: the
second one starts behind the first, and an error or a request for more of either
is the answer of the whole.

`Reads p code a` says that `p` reads `a` from the code: on the code followed by
anything it returns `a` and consumes the code, on a strict prefix of the code it
asks for more.  The laws compose along `bind` and `times`.

`Decisive p` says the same of every input at once: whatever `p` reads, it reads
from the items it consumed, and an error stays an error when more arrives.

`Ensures n p P` is a postcondition: whatever `p` returns on at most `n` items
satisfies `P`.  `Finishes item E k p` says when `p` is done waiting: once `k` codes
of the kind `item` have arrived it has a value, or an error of the kind `E`.

`cut_messages` is about the other side: a prefix of a stream of codes is a number
of whole codes and then a strict prefix of the next one.
-/
import ZetDb.Theory.Wire

namespace ZetDb.Theory.Stream

set_option autoImplicit false

open ZetDb.Theory.Wire (prefix_append_cases strictPrefix_append strictPrefix_length)

/-- What a scanner answers for the received items. -/
def Scanner (ι ε α : Type) : Type := List ι → Except ε (Option (α × Nat))

section Scanners

variable {ι ε α β : Type}

namespace Scanner

def pure (a : α) : Scanner ι ε α := fun _ => .ok (some (a, 0))

def fail (e : ε) : Scanner ι ε α := fun _ => .error e

/-- A result that needs nothing from the stream. -/
def lift : Except ε α → Scanner ι ε α
  | .ok a => pure a
  | .error e => fail e

/-- The second scanner starts behind what the first consumed. -/
def bind (p : Scanner ι ε α) (f : α → Scanner ι ε β) : Scanner ι ε β := fun buf =>
  match p buf with
  | .error e => .error e
  | .ok none => .ok none
  | .ok (some (a, n)) =>
      match f a (buf.drop n) with
      | .error e => .error e
      | .ok none => .ok none
      | .ok (some (b, m)) => .ok (some (b, n + m))

instance : Monad (Scanner ι ε) where
  pure := Scanner.pure
  bind := Scanner.bind

/-- `p` as often as given, one after the other. -/
def times (p : Scanner ι ε α) : Nat → Scanner ι ε (List α)
  | 0 => pure []
  | n + 1 => p.bind fun a => (times p n).bind fun rest => pure (a :: rest)

end Scanner

open Scanner

/-- A sequence succeeds where both parts do, and consumes what both consume. -/
theorem bind_eq_some {p : Scanner ι ε α} {f : α → Scanner ι ε β} {buf : List ι} {b : β} {k : Nat}
    (both : (p >>= f) buf = .ok (some (b, k))) :
    ∃ a n m, p buf = .ok (some (a, n)) ∧ f a (buf.drop n) = .ok (some (b, m)) ∧ k = n + m := by
  change p.bind f buf = _ at both
  unfold Scanner.bind at both
  split at both
  · cases both
  · cases both
  · rename_i a n first
    split at both
    · cases both
    · cases both
    · rename_i c m second
      cases both
      exact ⟨a, n, m, first, second, rfl⟩

/-- The scanner reads `a` from the code, and waits for the whole of it. -/
structure Reads (p : Scanner ι ε α) (code : List ι) (a : α) : Prop where
  whole : ∀ rest, p (code ++ rest) = .ok (some (a, code.length))
  torn : ∀ seen, seen <+: code → seen ≠ code → p seen = .ok none

theorem Reads.pure (a : α) : Reads (Scanner.pure a : Scanner ι ε α) [] a where
  whole := fun _ => rfl
  torn := fun _ before strict => absurd (List.prefix_nil.1 before) strict

theorem Reads.bind {p : Scanner ι ε α} {f : α → Scanner ι ε β} {code back : List ι} {a : α} {b : β}
    (first : Reads p code a) (second : Reads (f a) back b) :
    Reads (p >>= f) (code ++ back) b where
  whole := by
    intro rest
    show p.bind f (code ++ back ++ rest) = _
    rw [List.append_assoc, Scanner.bind, first.whole]
    simp only [List.drop_left, second.whole, List.length_append]
  torn := by
    intro seen before strict
    show p.bind f seen = _
    rcases strictPrefix_append before strict with ⟨inCode, cut⟩ | ⟨rest, rfl, inBack, cut⟩
    · rw [Scanner.bind, first.torn seen inCode cut]
    · rw [Scanner.bind, first.whole]
      simp only [List.drop_left, second.torn rest inBack cut]

/-- Behind what the first scanner reads, the sequence is the second one. -/
theorem Reads.bind_apply {p : Scanner ι ε α} {f : α → Scanner ι ε β} {code : List ι} {a : α}
    (first : Reads p code a) (rest : List ι) :
    (p >>= f) (code ++ rest) =
      match f a rest with
      | .error e => .error e
      | .ok none => .ok none
      | .ok (some (b, n)) => .ok (some (b, code.length + n)) := by
  show p.bind f (code ++ rest) = _
  rw [Scanner.bind, first.whole]
  simp only [List.drop_left]

/-- A scanner that ends in a constant changes the value only. -/
theorem Reads.map {p : Scanner ι ε α} {code : List ι} {a : α} (first : Reads p code a) (f : α → β) :
    Reads (p >>= fun a => Pure.pure (f a)) code (f a) := by
  have both := first.bind (f := fun a => (Pure.pure (f a) : Scanner ι ε β)) (Reads.pure (f a))
  rwa [List.append_nil] at both

theorem Reads.times {p : Scanner ι ε α} {enc : α → List ι} {as : List α}
    (each : ∀ a ∈ as, Reads p (enc a) a) : Reads (p.times as.length) (as.flatMap enc) as := by
  induction as with
  | nil => exact Reads.pure []
  | cons a as ih =>
      have rest := (ih fun b member => each b (by simp [member])).map (List.cons a)
      exact (each a (by simp)).bind rest

/-! ## Postconditions -/

/-- Whatever the scanner returns on at most `n` items satisfies `P`. -/
def Ensures (n : Nat) (p : Scanner ι ε α) (P : α → Prop) : Prop :=
  ∀ buf a k, buf.length ≤ n → p buf = .ok (some (a, k)) → P a

namespace Ensures

variable {n : Nat} {p : Scanner ι ε α} {P : α → Prop} {R : β → Prop}

theorem anything (n : Nat) (p : Scanner ι ε α) : Ensures n p fun _ => True :=
  fun _ _ _ _ _ => trivial

theorem pure {a : α} (holds : P a) : Ensures n (Pure.pure a : Scanner ι ε α) P := by
  intro buf b k _ read
  cases read
  exact holds

theorem fail (e : ε) : Ensures n (Scanner.fail e : Scanner ι ε α) P := by
  intro buf b k _ read
  cases read

theorem lift {r : Except ε α} (holds : ∀ a, r = .ok a → P a) :
    Ensures n (Scanner.lift r : Scanner ι ε α) P := by
  cases r with
  | ok a => exact pure (holds a rfl)
  | error e => exact fail e

theorem bind {f : α → Scanner ι ε β} (first : Ensures n p P)
    (second : ∀ a, P a → Ensures n (f a) R) : Ensures n (p >>= f) R := by
  intro buf b k short read
  obtain ⟨a, i, j, firstRead, secondRead, -⟩ := bind_eq_some read
  have shorter : (buf.drop i).length ≤ n := by
    rw [List.length_drop]
    omega
  exact second a (first buf a i short firstRead) (buf.drop i) b j shorter secondRead

theorem times (each : Ensures n p P) (m : Nat) : Ensures n (p.times m) fun as => ∀ a ∈ as, P a := by
  induction m with
  | zero => exact pure (by simp)
  | succ m ih =>
      show Ensures n (p >>= fun a => p.times m >>= fun rest => Pure.pure (a :: rest)) _
      refine each.bind fun a head => ih.bind fun as tail => ?_
      exact pure (List.forall_mem_cons.2 ⟨head, tail⟩)

end Ensures

/-- A sequence fails where the first part does, or the second behind the first. -/
theorem bind_eq_error {p : Scanner ι ε α} {f : α → Scanner ι ε β} {buf : List ι} {e : ε}
    (failed : (p >>= f) buf = .error e) :
    p buf = .error e ∨ ∃ a n, p buf = .ok (some (a, n)) ∧ f a (buf.drop n) = .error e := by
  change p.bind f buf = _ at failed
  unfold Scanner.bind at failed
  split at failed
  · rename_i first
    cases failed
    exact .inl first
  · cases failed
  · rename_i a n first
    split at failed
    · rename_i second
      cases failed
      exact .inr ⟨a, n, first, second⟩
    · cases failed
    · cases failed

/-- The scanner refuses what starts with the code. -/
def Refuses (p : Scanner ι ε α) (code : List ι) (e : ε) : Prop := ∀ rest, p (code ++ rest) = .error e

theorem Refuses.fail (code : List ι) (e : ε) : Refuses (Scanner.fail e : Scanner ι ε α) code e :=
  fun _ => rfl

theorem Reads.bind_refuses {p : Scanner ι ε α} {f : α → Scanner ι ε β} {code back : List ι} {a : α}
    {e : ε} (first : Reads p code a) (second : Refuses (f a) back e) :
    Refuses (p >>= f) (code ++ back) e := by
  intro rest
  rw [List.append_assoc, first.bind_apply, second rest]

/-! ## Items that have arrived -/

/-- The scanner takes the first `j` items, whatever they are. -/
def Takes (item : List ι → Prop) (j : Nat) (p : Scanner ι ε α) : Prop :=
  ∀ (codes : List (List ι)) (rest : List ι), j ≤ codes.length → (∀ code ∈ codes, item code) →
    ∃ a, p (codes.flatten ++ rest) = .ok (some (a, (codes.take j).flatten.length))

/-- Once `k` items have arrived the scanner has its answer: a value, or an error of
the kind `E`. -/
def Finishes (item : List ι → Prop) (E : ε → Prop) (k : Nat) (p : Scanner ι ε α) : Prop :=
  ∀ (codes : List (List ι)) (rest : List ι), k ≤ codes.length → (∀ code ∈ codes, item code) →
    (∃ a n, p (codes.flatten ++ rest) = .ok (some (a, n))) ∨
      ∃ e, p (codes.flatten ++ rest) = .error e ∧ E e

section Arrived

variable {item : List ι → Prop} {E : ε → Prop} {p : Scanner ι ε α} {j k : Nat}

theorem drop_flatten (codes : List (List ι)) (rest : List ι) (j : Nat) :
    (codes.flatten ++ rest).drop (codes.take j).flatten.length = (codes.drop j).flatten ++ rest := by
  have split : codes.flatten = (codes.take j).flatten ++ (codes.drop j).flatten := by
    rw [← List.flatten_append, List.take_append_drop]
  rw [split, List.append_assoc, List.drop_left]

theorem Takes.one (reads : ∀ code, item code → ∃ a, Reads p code a) : Takes item 1 p := by
  intro codes rest enough each
  cases codes with
  | nil => simp at enough
  | cons code codes =>
      obtain ⟨a, read⟩ := reads code (each code (by simp))
      refine ⟨a, ?_⟩
      rw [List.flatten_cons, List.append_assoc, read.whole]
      simp

theorem Takes.pure (a : α) : Takes item 0 (Pure.pure a : Scanner ι ε α) :=
  fun _ _ _ _ => ⟨a, rfl⟩

theorem Takes.bind {f : α → Scanner ι ε β} (first : Takes item j p) (second : ∀ a, Takes item k (f a)) :
    Takes item (j + k) (p >>= f) := by
  intro codes rest enough each
  obtain ⟨a, front⟩ := first codes rest (by omega) each
  obtain ⟨b, back⟩ := second a (codes.drop j) rest (by rw [List.length_drop]; omega)
    fun code inside => each code (List.mem_of_mem_drop inside)
  refine ⟨b, ?_⟩
  show p.bind f _ = _
  rw [Scanner.bind, front]
  simp only [drop_flatten, back, List.take_add, List.flatten_append, List.length_append]

theorem Takes.times (each : Takes item j p) (n : Nat) : Takes item (n * j) (p.times n) := by
  induction n with
  | zero =>
      rw [Nat.zero_mul]
      exact Takes.pure []
  | succ n ih =>
      rw [Nat.succ_mul, Nat.add_comm]
      exact each.bind fun a => ih.bind fun rest => Takes.pure (a :: rest)

namespace Finishes

theorem pure (a : α) : Finishes item E k (Pure.pure a : Scanner ι ε α) :=
  fun _ _ _ _ => .inl ⟨a, 0, rfl⟩

theorem fail {e : ε} (kind : E e) : Finishes item E k (Scanner.fail e : Scanner ι ε α) :=
  fun _ _ _ _ => .inr ⟨e, rfl, kind⟩

theorem mono (finishes : Finishes item E j p) (le : j ≤ k) : Finishes item E k p :=
  fun codes rest enough => finishes codes rest (le.trans enough)

theorem bind {f : α → Scanner ι ε β} (first : Takes item j p) (second : ∀ a, Finishes item E k (f a)) :
    Finishes item E (j + k) (p >>= f) := by
  intro codes rest enough each
  obtain ⟨a, front⟩ := first codes rest (by omega) each
  have back := second a (codes.drop j) rest (by rw [List.length_drop]; omega)
    fun code inside => each code (List.mem_of_mem_drop inside)
  have both : (p >>= f) (codes.flatten ++ rest) = p.bind f (codes.flatten ++ rest) := rfl
  rw [both, Scanner.bind, front]
  simp only [drop_flatten]
  rcases back with ⟨b, n, read⟩ | ⟨e, failed, kind⟩
  · exact .inl ⟨b, _, by rw [read]⟩
  · exact .inr ⟨e, by rw [failed], kind⟩

theorem lift_bind {r : Except ε α} {f : α → Scanner ι ε β} (errors : ∀ e, r = .error e → E e)
    (second : ∀ a, r = .ok a → Finishes item E k (f a)) : Finishes item E k (Scanner.lift r >>= f) := by
  cases r with
  | ok a =>
      intro codes rest enough each
      have both : (Scanner.lift (.ok a) >>= f) ([] ++ (codes.flatten ++ rest)) = _ :=
        (Reads.pure a).bind_apply (codes.flatten ++ rest)
      rw [List.nil_append] at both
      rw [both]
      rcases second a rfl codes rest enough each with ⟨b, n, read⟩ | ⟨e, failed, kind⟩
      · exact .inl ⟨b, _, by rw [read]⟩
      · exact .inr ⟨e, by rw [failed], kind⟩
  | error e => exact fail (errors e rfl)

end Finishes

end Arrived

/-! ## Scanners that decide -/

/-- The scanner decides from what it consumes: what it reads it reads from those
items, and what it refuses it refuses whatever follows. -/
structure Decisive (p : Scanner ι ε α) : Prop where
  reads : ∀ {buf a n}, p buf = .ok (some (a, n)) → n ≤ buf.length ∧ Reads p (buf.take n) a
  refuses : ∀ {buf e}, p buf = .error e → Refuses p buf e

theorem Decisive.pure (a : α) : Decisive (Scanner.pure a : Scanner ι ε α) where
  reads := by
    intro buf b n read
    cases read
    exact ⟨Nat.zero_le _, Reads.pure a⟩
  refuses := by
    intro buf e refused
    cases refused

theorem Decisive.fail (e : ε) : Decisive (Scanner.fail e : Scanner ι ε α) where
  reads := by
    intro buf b n read
    cases read
  refuses := by
    intro buf e refused
    cases refused
    exact Refuses.fail buf _

theorem Decisive.lift (r : Except ε α) : Decisive (Scanner.lift r : Scanner ι ε α) := by
  cases r with
  | ok a => exact Decisive.pure a
  | error e => exact Decisive.fail e

theorem Decisive.bind {p : Scanner ι ε α} {f : α → Scanner ι ε β} (first : Decisive p)
    (second : ∀ a, Decisive (f a)) : Decisive (p >>= f) where
  reads := by
    intro buf b k both
    obtain ⟨a, n, m, front, back, rfl⟩ := bind_eq_some both
    obtain ⟨inBuf, readsFront⟩ := first.reads front
    obtain ⟨inRest, readsBack⟩ := (second a).reads back
    rw [List.length_drop] at inRest
    constructor
    · omega
    · rw [List.take_add]
      exact readsFront.bind readsBack
  refuses := by
    intro buf e failed
    rcases bind_eq_error failed with front | ⟨a, n, front, back⟩
    · intro rest
      show p.bind f (buf ++ rest) = _
      rw [Scanner.bind, first.refuses front rest]
    · -- the refusal of the second part is behind the code the first part reads
      have both := (first.reads front).2.bind_refuses ((second a).refuses back)
      rwa [List.take_append_drop] at both

theorem Decisive.times {p : Scanner ι ε α} (each : Decisive p) (n : Nat) : Decisive (p.times n) := by
  induction n with
  | zero => exact Decisive.pure []
  | succ n ih => exact each.bind fun a => ih.bind fun rest => Decisive.pure (a :: rest)

end Scanners

/-! ## Cutting a stream of messages -/

section Cutting

variable {ι μ : Type} (enc : μ → List ι)

/-- What is left over when the next messages are still to come. -/
def Waiting (tail : List ι) : List μ → Prop
  | [] => tail = []
  | m :: _ => tail <+: enc m ∧ tail ≠ enc m

/-- A received prefix is some whole messages and a part of the next. -/
theorem cut_messages (ms : List μ) (received : List ι) (before : received <+: ms.flatMap enc) :
    ∃ arrived todo tail, ms = arrived ++ todo ∧ received = arrived.flatMap enc ++ tail ∧
      Waiting enc tail todo := by
  induction ms generalizing received with
  | nil => exact ⟨[], [], received, rfl, rfl, List.prefix_nil.1 before⟩
  | cons m ms ih =>
      rw [List.flatMap_cons] at before
      rcases prefix_append_cases before with inside | ⟨behind, rfl, later⟩
      · exact ⟨[], m :: ms, received, rfl, rfl, inside⟩
      · obtain ⟨arrived, todo, tail, rfl, rfl, waiting⟩ := ih behind later
        exact ⟨m :: arrived, todo, tail, rfl, by simp, waiting⟩

/-- Nothing is left over only if the whole stream has been consumed. -/
theorem Waiting.eq_nil {tail : List ι} {ms : List μ} (waiting : Waiting enc tail ms)
    (all : tail = ms.flatMap enc) : ms = [] := by
  cases ms with
  | nil => rfl
  | cons m ms =>
      have short := strictPrefix_length waiting.1 waiting.2
      rw [all, List.flatMap_cons, List.length_append] at short
      omega

end Cutting

end ZetDb.Theory.Stream
