/-
# Application.Replies -- every command is answered by one reply, but for one

`dispatch` answers with a response, `write_to_resp` writes it, and a client reads
it back (`Protocol.Reply`).  Values and keys travel as bulk strings with their
length in front, so they may hold anything.  The texts of errors are fixed, with
one exception: the refusal of INCR repeats the key, as the client chose it, in a
line of its own.  A key with a CR or LF breaks that line, and what follows the
break is read as the next reply.

The inline dispatcher answers the same refusal with a fixed `-ERR type`.

A command that does not come back, as it waits for itself or panics at a deadline beyond
the clock (`Application.Returns`), has no reply; it is set aside here.
-/
import ZetDb.Application.Dispatcher
import ZetDb.Protocol.Frames
import ZetDb.Protocol.Reply

namespace ZetDb.Application

set_option autoImplicit false

open ZetDb.Theory.Wire ZetDb.Theory.Text ZetDb.Theory.Stream ZetDb.Domain ZetDb.Storage ZetDb.Protocol

/-- The key is live and holds no integer. -/
def Refused (now : Instant) (e : DashMapEngine) (key : Key) : Prop :=
  ∃ v, e.map.lookup key = some v ∧ v.isExpiredAt now = false ∧ parseSigned 64 (fromUtf8Lossy v.data) = none

/-- An INCR that is refused and has a line break in its key. -/
def BreaksLine (now : Instant) (e : DashMapEngine) : Command → Prop
  | .incr key => (∃ b ∈ key, isBreak b = true) ∧ Refused now e key
  | _ => False

/-- The range of a reply's integer. -/
def Word (n : Int) : Prop := -(2 ^ 63 : Int) ≤ n ∧ n < 2 ^ 63

section Replies

variable {iter : Iter} {m : MetricsSnapshot} {now : Instant} {e : DashMapEngine} {key : Key}

theorem boolInteger_word (b : Bool) : Word (boolInteger b) := by
  cases b <;> exact ⟨by decide, by decide⟩

theorem asI64_word (n : Nat) : Word (asI64 n) := asI64_range n

theorem ttlSecs_word : Word (e.ttlSecs now key).1 := by
  have missing : Word (-2) := ⟨by decide, by decide⟩
  have forever : Word (-1) := ⟨by decide, by decide⟩
  unfold DashMapEngine.ttlSecs
  split
  · exact missing
  · split
    · exact missing
    · split
      · split
        · exact missing
        · simp only
          exact asI64_word _
      · exact forever

theorem incr_refused (refused : Refused now e key) :
    e.incr iter now key = (.error (.notAnInteger key), e) := by
  obtain ⟨v, found, live, noInteger⟩ := refused
  simp [DashMapEngine.incr, found, live, noInteger]

/-- What is not refused is counted, in 64 bits, or finds no room. -/
theorem incr_accepted (iter : Iter) (accepted : ¬ Refused now e key) :
    (∃ n, (e.incr iter now key).1 = .ok n ∧ Word n) ∨ (e.incr iter now key).1 = .error .outOfMemory := by
  have fresh : Word 1 := ⟨by decide, by decide⟩
  unfold DashMapEngine.incr
  split
  · rename_i v found
    split
    · simp only
      split
      · exact .inr rfl
      · exact .inl ⟨1, rfl, fresh⟩
    · rename_i live
      split
      · rename_i noInteger
        exact absurd ⟨v, found, Bool.not_eq_true _ ▸ live, noInteger⟩ accepted
      · rename_i val parsed
        exact .inl ⟨_, rfl, bmod_range _⟩
  · split
    · simp only
      split
      · exact .inr rfl
      · exact .inl ⟨1, rfl, fresh⟩
    · exact .inl ⟨1, rfl, fresh⟩

theorem set_answer (iter : Iter) (now : Instant) (e : DashMapEngine) (key : Key) (v : ValueEntry) :
    (e.set iter now key v).1 = .ok () ∨ (e.set iter now key v).1 = .error .outOfMemory := by
  unfold DashMapEngine.set
  split
  · simp only
    split
    · exact .inr rfl
    · exact .inl rfl
  · exact .inl rfl

theorem msetLoop_answer (iter : Iter) (now : Instant) (e : DashMapEngine) (pairs : List (Key × Bytes)) :
    (msetLoop iter now e pairs).1 = .ok () ∨ (msetLoop iter now e pairs).1 = .error .outOfMemory := by
  induction pairs generalizing e with
  | nil => exact .inl rfl
  | cons p pairs ih =>
      have answer := set_answer iter now e p.1 (ValueEntry.new now p.2)
      rw [msetLoop]
      split
      · rename_i failed
        rw [failed] at answer
        exact answer
      · exact ih _

theorem typeError_line (key : Key) :
    (ResponseError.typeError (EngineError.notAnInteger key).toText).line =
      ascii "ERR type: value is not an integer: " ++ key := rfl

/-- The refusal repeats the key and has no break of its own. -/
theorem typeError_unbroken_iff (key : Key) :
    Unbroken (.error (.typeError (EngineError.notAnInteger key).toText)) ↔ ∀ b ∈ key, isBreak b = false := by
  have fixed : ∀ b ∈ ascii "ERR type: value is not an integer: ", isBreak b = false := by decide +kernel
  simp only [Unbroken, typeError_line, List.forall_mem_append]
  exact ⟨fun both => both.2, fun plain => ⟨fixed, plain⟩⟩

theorem typeError_outOfMemory : Unbroken (.error (.typeError EngineError.outOfMemory.toText)) := by
  show ∀ b ∈ ascii "ERR type: out of memory: max keys limit reached", isBreak b = false
  decide +kernel

theorem internalError_outOfMemory : Unbroken (.error (.internalError EngineError.outOfMemory.toText)) := by
  show ∀ b ∈ ascii "ERR internal: out of memory: max keys limit reached", isBreak b = false
  decide +kernel

/-- The only broken replies are those of `BreaksLine`. -/
theorem dispatch_unbroken {c : Command} (whole : ¬ BreaksLine now e c) :
    Unbroken (dispatch iter m now e c).1 := by
  cases c with
  | get key =>
      obtain ⟨found, answer⟩ := get_answer now e key
      rcases called : e.get now key with ⟨result, after⟩
      rw [called] at answer
      cases answer
      cases found <;> simp [dispatch, called, Unbroken]
  | set key value lifetime =>
      have answer := set_answer iter now e key (setEntry now value lifetime)
      rcases called : e.set iter now key (setEntry now value lifetime) with ⟨result, after⟩
      rw [called] at answer
      rcases answer with rfl | rfl
      · simp [dispatch, called, Unbroken]
      · simp only [dispatch, called]
        exact internalError_outOfMemory
  | del key =>
      obtain ⟨found, answer⟩ := del_answer now e key
      rcases called : e.del now key with ⟨result, after⟩
      rw [called] at answer
      cases answer
      simp only [dispatch, called]
      exact boolInteger_word found
  | incr key =>
      by_cases refused : Refused now e key
      · -- the key is repeated, and has no line break
        simp only [dispatch, incr_refused refused]
        apply (typeError_unbroken_iff key).2
        simpa using fun broken => whole ⟨broken, refused⟩
      · have answer := incr_accepted iter refused
        rcases called : e.incr iter now key with ⟨result, after⟩
        rw [called] at answer
        rcases answer with ⟨n, rfl, word⟩ | rfl
        · simp only [dispatch, called]
          exact word
        · simp only [dispatch, called]
          exact typeError_outOfMemory
  | dbSize => exact asI64_word _
  | «exists» key => exact boolInteger_word _
  | ttl key => exact ttlSecs_word
  | expire key seconds => exact boolInteger_word _
  | mset pairs =>
      have answer := msetLoop_answer iter now e pairs
      rcases called : msetLoop iter now e pairs with ⟨result, after⟩
      rw [called] at answer
      rcases answer with rfl | rfl
      · simp [dispatch, called, Unbroken]
      · simp only [dispatch, called]
        exact internalError_outOfMemory
  | _ => trivial

/-- The reply of a command that comes back is one reply that decodes to its response,
exactly when it is not the refusal of an INCR with a line break in the key. -/
theorem dispatch_oneReply_iff (iter : Iter) (m : MetricsSnapshot) (now : Instant) (e : DashMapEngine)
    (c : Command) :
    OneReply (dispatch iter m now e c).1.writeToResp (dispatch iter m now e c).1 ↔ ¬ BreaksLine now e c := by
  constructor
  · intro one breaks
    cases c with
    | incr key =>
        obtain ⟨broken, refused⟩ := breaks
        simp only [dispatch, incr_refused refused] at one
        have plain := (typeError_unbroken_iff key).1 one.unbroken
        obtain ⟨b, inside, isB⟩ := broken
        rw [plain b inside] at isB
        cases isB
    | _ => exact breaks.elim
  · intro whole
    exact oneReply_of_unbroken (dispatch_unbroken whole)

end Replies

/-- A key with a reply of its own in it. -/
def forgingKey : Key := ascii "a\r\n:1"

/-- The engine after `SET` of that key to `x`. -/
def forgingEngine (iter : Iter) : DashMapEngine :=
  exec iter .new 0 .new (.set forgingKey (ascii "x") none)

/-- Both requests are read from RESP frames; the INCR is answered by an error and
then, to the client, by the integer 1. -/
theorem dispatch_two_replies :
    tryParseFrame (ascii "*3\r\n$3\r\nSET\r\n$5\r\na\r\n:1\r\n$1\r\nx\r\n") =
        .ok (.complete 31 (.set forgingKey (ascii "x") none)) ∧
      tryParseFrame (ascii "*2\r\n$4\r\nINCR\r\n$5\r\na\r\n:1\r\n") =
        .ok (.complete 25 (.incr forgingKey)) ∧
      ∀ (iter : Iter) (m : MetricsSnapshot),
        (dispatch iter m 0 (forgingEngine iter) (.incr forgingKey)).1.writeToResp =
            ascii "-ERR type: value is not an integer: a\r\n:1\r\n" ∧
          readReply (ascii "-ERR type: value is not an integer: a\r\n:1\r\n") =
            .ok (some (.error (ascii "ERR type: value is not an integer: a"), 39)) ∧
          readReply (ascii ":1\r\n") = .ok (some (.integer 1, 4)) ∧
          ¬ OneReply (dispatch iter m 0 (forgingEngine iter) (.incr forgingKey)).1.writeToResp
            (dispatch iter m 0 (forgingEngine iter) (.incr forgingKey)).1 := by
  refine ⟨by decide +kernel, by decide +kernel, fun iter m => ?_⟩
  have refused : Refused 0 (forgingEngine iter) forgingKey := by
    refine ⟨ValueEntry.new 0 (ascii "x"), ?_, rfl, by decide⟩
    rw [forgingEngine, exec_set, DashMapEngine.set_unlimited rfl]
    exact Finmap.lookup_insert _
  have written : (dispatch iter m 0 (forgingEngine iter) (.incr forgingKey)).1.writeToResp =
      ascii "-ERR type: value is not an integer: a\r\n:1\r\n" := by
    simp only [dispatch, incr_refused refused]
    rfl
  have first : readReply (ascii "-ERR type: value is not an integer: a\r\n:1\r\n") =
      .ok (some (.error (ascii "ERR type: value is not an integer: a"), 39)) := by decide +kernel
  refine ⟨written, first, by decide +kernel, ?_⟩
  rintro ⟨reply, read, -⟩
  rw [written, first] at read
  have consumed : 39 = (ascii "-ERR type: value is not an integer: a\r\n:1\r\n").length :=
    congrArg Prod.snd (Option.some.inj (Except.ok.inj read))
  exact absurd consumed (by decide)

end ZetDb.Application
