/-
# Protocol.InlineAgreement -- the zero-copy parser beside the owned one

The inline loop of the session uses `parse_inline_borrowed`; `try_parse_frame_inline`
and `parse_bytes` are the reference.  On lines that end in CR LF:

* for the verbs with plain arguments there is no difference but in the texts of
  errors (`parseInlineBorrowed_agrees`);
* the options of SET and the numbers of EXPIRE are read differently, and
  `sameMeaning_iff` says on which lines.
-/
import ZetDb.Protocol.InlineLines

namespace ZetDb.Protocol

set_option autoImplicit false

open ZetDb.Theory.Wire ZetDb.Theory.Text ZetDb.Theory.Words ZetDb.Domain

/-! ## The verbs with plain arguments -/

/-- The three kinds of a parse error, without their texts. -/
inductive ErrorKind where
  | emptyCommand
  | unknownCommand
  | syntaxError
  deriving DecidableEq, Repr

def ParseError.kind : ParseError → ErrorKind
  | .emptyCommand => .emptyCommand
  | .unknownCommand _ => .unknownCommand
  | .syntaxError _ => .syntaxError

/-- The two parsers say the same of a line, the texts of errors apart. -/
inductive SameVerdict : Except ParseError FrameResultBorrowed → Except ParseError FrameResult → Prop where
  | skip (consumed : Nat) : SameVerdict (.ok (.skip consumed)) (.ok (.skip consumed))
  | complete (consumed : Nat) (c : ParsedCommand) :
      SameVerdict (.ok (.complete consumed c)) (.ok (.complete consumed c.toOwned))
  | error (e f : ParseError) (same : e.kind = f.kind) : SameVerdict (.error e) (.error f)

/-- The same for the arguments of a verb, whose faults are faults of syntax. -/
inductive SameCommand : Except ParseError ParsedCommand → Except ParseError Command → Prop where
  | accepted (c : ParsedCommand) : SameCommand (.ok c) (.ok c.toOwned)
  | refused (msg msg' : Bytes) : SameCommand (.error (.syntaxError msg)) (.error (.syntaxError msg'))

theorem singleKeyArguments_same (wrong wrong' : String) {make : Key → ParsedCommand}
    {make' : Key → Command} (owned : ∀ key, (make key).toOwned = make' key) (args : List Bytes) :
    SameCommand (singleKeyArguments wrong make args) (singleKeyArguments wrong' make' args) := by
  match args with
  | [] => exact .refused _ _
  | [key] =>
      show SameCommand (.ok (make key)) (.ok (make' key))
      rw [← owned]
      exact .accepted (make key)
  | _ :: _ :: _ => exact .refused _ _

theorem noArguments_same (cmdName : String) (c : ParsedCommand) (args : List Bytes) :
    SameCommand (noArguments cmdName c args) (noArguments cmdName c.toOwned args) := by
  match args with
  | [] => exact .accepted c
  | _ :: _ => exact .refused _ _

theorem mgetArguments_same (few few' : String) (args : List Bytes) :
    SameCommand (mgetArguments few .mget args) (mgetArguments few' .mget args) := by
  match args with
  | [] => exact .refused _ _
  | key :: keys => exact .accepted (.mget (key :: keys))

theorem msetArguments_same (few odd few' odd' : String) (args : List Bytes) :
    SameCommand (msetArguments few odd .mset args) (msetArguments few' odd' .mset args) := by
  unfold msetArguments
  split
  · exact .refused _ _
  · rename_i pairs _ _
    exact .accepted (.mset pairs)
  · exact .refused _ _

/-- Both parsers make the same of the arguments of every verb but SET and EXPIRE. -/
theorem borrowedArguments_same (c : Command) (args : List Bytes) (notSet : verbOf c ≠ "SET")
    (notExpire : verbOf c ≠ "EXPIRE") :
    SameCommand (borrowedArguments c args) (inlineArguments c args) := by
  cases c with
  | ping => exact .accepted .ping
  | info => exact .accepted .info
  | dbSize => exact .accepted .dbSize
  | get _ | del _ | incr _ | «exists» _ | ttl _ => exact singleKeyArguments_same _ _ (fun _ => rfl) args
  | set _ _ _ => exact absurd rfl notSet
  | expire _ _ => exact absurd rfl notExpire
  | flushDb => exact noArguments_same _ .flushDb args
  | keys => exact noArguments_same _ .keys args
  | mget _ => exact mgetArguments_same _ _ args
  | mset _ => exact msetArguments_same _ _ _ _ args

/-- A line without CR and LF. -/
def IsLine (line : Bytes) : Prop := ∀ b ∈ line, b ≠ 13 ∧ b ≠ 10

instance (line : Bytes) : Decidable (IsLine line) :=
  inferInstanceAs (Decidable (∀ b ∈ line, b ≠ 13 ∧ b ≠ 10))

theorem parseInlineBorrowed_crlf {line : Bytes} (plain : IsLine line) (tail : Bytes) :
    parseInlineBorrowed (line ++ crlf ++ tail) = lineVerdict (line.length + 2) (trim line) := by
  have shape : line ++ crlf ++ tail = line ++ 13 :: (10 :: tail) := by simp [crlf]
  have stop : lineStop (line ++ 13 :: (10 :: tail)) = some line.length :=
    lineStop_append plain (.inl rfl)
  rw [shape, parseInlineBorrowed_eq, stop]
  simp only [List.take_left]

theorem tryParseFrameInline_crlf {line : Bytes} (plain : IsLine line) (tail : Bytes) :
    tryParseFrameInline (line ++ crlf ++ tail) =
      match parseBytes (line ++ [13]) with
      | .ok c => .ok (.complete (line.length + 2) c)
      | .error .emptyCommand => .ok (.skip (line.length + 2))
      | .error e => .error e := by
  have shape : line ++ crlf ++ tail = line ++ 13 :: 10 :: tail := by simp [crlf]
  have text : (line ++ 13 :: 10 :: tail).take (line.length + 1) = line ++ [13] := by
    rewrite [List.take_append, Nat.add_sub_cancel_left, List.take_of_length_le (by omega)]
    rfl
  rewrite [shape, tryParseFrameInline, memchr_crlf (fun member => (plain 10 member).2 rfl), ← text]
  rfl

/-- The CR at the end of a line is no part of its tokens. -/
theorem tokens_cr (line : Bytes) : tokens (line ++ [13]) = tokens line :=
  words_append_blanks (by decide +kernel) line

/-- On a line that ends in CR LF and whose verb is neither SET nor EXPIRE the two
inline parsers agree, whatever follows. -/
theorem parseInlineBorrowed_agrees (line tail : Bytes) (plain : IsLine line)
    (other : ∀ verb, (tokens line).head? = some verb →
      eqIgnoreAsciiCase verb (ascii "SET") = false ∧ eqIgnoreAsciiCase verb (ascii "EXPIRE") = false) :
    SameVerdict (parseInlineBorrowed (line ++ crlf ++ tail))
      (tryParseFrameInline (line ++ crlf ++ tail)) := by
  rw [parseInlineBorrowed_crlf plain, tryParseFrameInline_crlf plain]
  unfold lineVerdict
  rw [trim_isEmpty]
  cases split : tokens line with
  | nil =>
      rw [parseBytes_blank (by rw [tokens_cr, split])]
      exact .skip _
  | cons verb args =>
      have splitCr : tokens (line ++ [13]) = verb :: args := by rw [tokens_cr, split]
      obtain ⟨notSet, notExpire⟩ := other verb (by rw [split, List.head?_cons])
      rcases spelled_or_unknown verb with ⟨c, spelled⟩ | unknown
      · have same : SameCommand (borrowedArguments c args) (inlineArguments c args) := by
          refine borrowedArguments_same c args ?_ ?_
          · intro isSet
            rw [isSet, notSet] at spelled
            cases spelled
          · intro isExpire
            rw [isExpire, notExpire] at spelled
            cases spelled
        rw [parseLineBorrowed_spelled split spelled, parseBytes_spelled splitCr spelled]
        generalize borrowedArguments c args = fast at same ⊢
        generalize inlineArguments c args = reference at same ⊢
        cases same with
        | accepted c => exact .complete _ c
        | refused msg msg' => exact .error _ _ rfl
      · rw [parseLineBorrowed_unknown split unknown, parseBytes_unknown splitCr unknown]
        exact .error _ _ rfl

theorem parseInlineBorrowed_agrees_mget :
    IsLine (ascii " mget a  b") ∧ SameVerdict (parseInlineBorrowed (ascii " mget a  b" ++ crlf ++ ascii "GET"))
      (tryParseFrameInline (ascii " mget a  b" ++ crlf ++ ascii "GET")) := by
  have plain : IsLine (ascii " mget a  b") := by decide +kernel
  refine ⟨plain, parseInlineBorrowed_agrees _ _ plain ?_⟩
  intro verb first
  have head : (tokens (ascii " mget a  b")).head? = some (ascii "mget") := by decide +kernel
  rw [head] at first
  cases first
  decide

/-! ## SET and EXPIRE -/

/-- Both parsers refuse, or both accept the same command. -/
def Agrees : Except ParseError FrameResultBorrowed → Except ParseError Command → Prop
  | .ok (.complete _ c), .ok d => c.toOwned = d
  | .error _, .error _ => True
  | _, _ => False

instance (fast : Except ParseError FrameResultBorrowed) (reference : Except ParseError Command) :
    Decidable (Agrees fast reference) :=
  match fast, reference with
  | .ok (.complete _ c), .ok d => inferInstanceAs (Decidable (c.toOwned = d))
  | .error _, .error _ => isTrue trivial
  | .ok (.complete _ _), .error _ => isFalse id
  | .ok .incomplete, _ => isFalse (by cases reference <;> exact id)
  | .ok (.skip _), _ => isFalse (by cases reference <;> exact id)
  | .error _, .ok _ => isFalse id

/-- The command the zero-copy parser accepts. -/
def fastCommand : Except ParseError FrameResultBorrowed → Option Command
  | .ok (.complete _ c) => some c.toOwned
  | _ => none

/-- The time to live that the tokens behind key and value name: `EX` and a number of
seconds, or `PX` and a number of milliseconds, and nothing else. -/
def ttlOf : List Bytes → Option Duration
  | [opt, number] =>
      if eqIgnoreAsciiCase opt (ascii "EX") then (parseUnsigned 64 number).map Duration.fromSecs
      else if eqIgnoreAsciiCase opt (ascii "PX") then (parseUnsigned 64 number).map Duration.fromMillis
      else none
  | _ => none

/-- The fast parser reads the line as the reference parser does; in particular the
tokens behind SET, key and value are a time to live, or the line is refused. -/
structure SameMeaning (line : Bytes) : Prop where
  agree : Agrees (parseInlineBorrowed (line ++ crlf)) (parseBytes line)
  options : ∀ verb key value trailing, tokens line = verb :: key :: value :: trailing →
    eqIgnoreAsciiCase verb (ascii "SET") = true → trailing ≠ [] →
    fastCommand (parseInlineBorrowed (line ++ crlf)) =
      (ttlOf trailing).map fun lifetime => .set key value (some lifetime)

/-- The lines of SET and EXPIRE that the two parsers read differently. -/
inductive InlineDivergence : List Bytes → Prop where
  /-- A single token behind key and value: the fast parser takes it for a number of
  seconds, or drops it. -/
  | lone (verb key value opt : Bytes) (isSet : eqIgnoreAsciiCase verb (ascii "SET") = true) :
      InlineDivergence [verb, key, value, opt]
  /-- `EX` or `PX` and a 64-bit number, which the fast parser refuses. -/
  | option (verb key value opt number : Bytes) (isSet : eqIgnoreAsciiCase verb (ascii "SET") = true)
      (known : eqIgnoreAsciiCase opt (ascii "EX") = true ∨ eqIgnoreAsciiCase opt (ascii "PX") = true)
      (numeral : (parseUnsigned 64 number).isSome = true) :
      InlineDivergence [verb, key, value, opt, number]
  /-- Seconds beyond 64 bits, which the fast parser wraps. -/
  | wrapped (verb key digits : Bytes) (n : Nat)
      (isExpire : eqIgnoreAsciiCase verb (ascii "EXPIRE") = true) (numeral : parseDigits digits = some n)
      (large : 2 ^ 64 ≤ n) : InlineDivergence [verb, key, digits]
  /-- Seconds with a plus sign, which the fast parser refuses. -/
  | signed (verb key digits : Bytes) (n : Nat)
      (isExpire : eqIgnoreAsciiCase verb (ascii "EXPIRE") = true) (numeral : parseDigits digits = some n)
      (small : n < 2 ^ 64) : InlineDivergence [verb, key, 43 :: digits]

theorem foldU64_eq (n : Nat) (buf : Bytes) :
    foldU64 (n % 2 ^ 64) buf =
      if buf.all isAsciiDigit then some (numeralValue n buf % 2 ^ 64) else none := by
  induction buf generalizing n with
  | nil => rfl
  | cons b buf ih =>
      rw [foldU64, List.all_cons]
      cases digit : isAsciiDigit b with
      | false => rfl
      | true =>
          have step : (n % 2 ^ 64 * 10 + digitValue b) % 2 ^ 64 = (n * 10 + digitValue b) % 2 ^ 64 := by
            omega
          rw [if_neg (by simp), step, ih, Bool.true_and]
          rfl

/-- The fast parser's numbers are digit strings modulo 2^64. -/
theorem parseU64Ascii_eq (buf : Bytes) : parseU64Ascii buf = (parseDigits buf).map (· % 2 ^ 64) := by
  have fold := foldU64_eq 0 buf
  rw [Nat.zero_mod] at fold
  unfold parseU64Ascii parseDigits
  cases buf with
  | nil => rfl
  | cons b buf =>
      rw [fold]
      cases (b :: buf).all isAsciiDigit with
      | false => rfl
      | true => rfl

theorem parseUnsigned_plus (digits : Bytes) :
    parseUnsigned 64 (43 :: digits) =
      (parseDigits digits).bind fun n => if n < 2 ^ 64 then some n else none := rfl

theorem parseUnsigned_plain {digits : Bytes} (plain : digits.head? ≠ some 43) :
    parseUnsigned 64 digits =
      (parseDigits digits).bind fun n => if n < 2 ^ 64 then some n else none := by
  unfold parseUnsigned
  split
  · exact absurd rfl plain
  · rfl

/-- The numbers of EXPIRE are read differently if they are too large or signed. -/
theorem parseU64Ascii_ne_iff (secs : Bytes) :
    parseU64Ascii secs ≠ parseUnsigned 64 secs ↔
      (∃ n, parseDigits secs = some n ∧ 2 ^ 64 ≤ n) ∨
        ∃ digits n, secs = 43 :: digits ∧ parseDigits digits = some n ∧ n < 2 ^ 64 := by
  rw [parseU64Ascii_eq]
  by_cases plus : secs.head? = some 43
  · obtain ⟨digits, rfl⟩ : ∃ digits, secs = 43 :: digits := by
      cases secs with
      | nil => cases plus
      | cons b digits =>
          cases plus
          exact ⟨digits, rfl⟩
    have signed : parseDigits (43 :: digits) = none := rfl
    rw [parseUnsigned_plus, signed, Option.map_none]
    cases numeral : parseDigits digits with
    | none => simp [numeral]
    | some n => simp [numeral]
  · rw [parseUnsigned_plain plus]
    have unsigned : ∀ digits, secs ≠ 43 :: digits := by
      rintro digits rfl
      exact plus rfl
    cases numeral : parseDigits secs with
    | none => simp [unsigned]
    | some n => simp [unsigned]

/-- The line's command, as a parser of arguments gives it, if it accepts them. -/
def accepted {γ : Type} : Except ParseError γ → Option γ
  | .ok c => some c
  | .error _ => none

@[simp] theorem accepted_ok {γ : Type} (c : γ) : accepted (.ok c) = some c := rfl

@[simp] theorem accepted_error {γ : Type} (e : ParseError) : accepted (.error e : Except ParseError γ) = none :=
  rfl

/-- On a line with a verb, agreement is about the arguments. -/
theorem agrees_line_iff {line verb : Bytes} {args : List Bytes} {c : Command} (plain : IsLine line)
    (split : tokens line = verb :: args) (spelled : eqIgnoreAsciiCase verb (ascii (verbOf c)) = true) :
    fastCommand (parseInlineBorrowed (line ++ crlf)) =
        (accepted (borrowedArguments c args)).map ParsedCommand.toOwned ∧
      (Agrees (parseInlineBorrowed (line ++ crlf)) (parseBytes line) ↔
        (accepted (borrowedArguments c args)).map ParsedCommand.toOwned =
          accepted (inlineArguments c args)) := by
  have filled : (trim line).isEmpty = false := by rw [trim_isEmpty, split, List.isEmpty_cons]
  have fast := parseInlineBorrowed_crlf plain []
  rw [List.append_nil, lineVerdict, filled, parseLineBorrowed_spelled split spelled] at fast
  rw [fast, parseBytes_spelled split spelled]
  cases borrowedArguments c args with
  | error e =>
      cases inlineArguments c args with
      | error f => simp [Agrees, fastCommand, accepted]
      | ok d => simp [Agrees, fastCommand, accepted]
  | ok d =>
      cases inlineArguments c args with
      | error f => simp [Agrees, fastCommand, accepted]
      | ok e => simp [Agrees, fastCommand, accepted]

theorem accepted_ttlArguments (opt : Bytes) (args : List Bytes) :
    accepted (ttlArguments opt args) = (ttlOf (opt :: args)).map some := by
  have number : ∀ unit extra wrong val, accepted (ttlNumber unit extra wrong [val]) =
      ((parseUnsigned 64 val).map unit).map some := by
    intro unit extra wrong val
    rw [ttlNumber]
    cases parseUnsigned 64 val with
    | none => rfl
    | some n => rfl
  unfold ttlArguments
  match args with
  | [] =>
      rw [ttlNumber, ttlNumber]
      split
      · rfl
      · split <;> rfl
  | [val] =>
      rw [ttlOf]
      split
      · exact number _ _ _ val
      · split
        · exact number _ _ _ val
        · rfl
  | _ :: _ :: _ =>
      rw [ttlNumber, ttlNumber]
      split
      · rfl
      · split <;> rfl

/-- The reference parser: the trailing tokens of SET are a time to live. -/
theorem accepted_setArguments {key value : Bytes} {trailing : List Bytes} (some : trailing ≠ []) :
    accepted (setArguments (key :: value :: trailing)) =
      (ttlOf trailing).map fun lifetime => .set key value (.some lifetime) := by
  cases trailing with
  | nil => exact absurd rfl some
  | cons opt args =>
      have lifetime := accepted_ttlArguments opt args
      rw [setArguments]
      cases parsed : ttlArguments opt args with
      | error e =>
          rw [parsed] at lifetime
          have none : ttlOf (opt :: args) = none := by simpa [accepted] using lifetime.symm
          rw [none]
          rfl
      | ok d =>
          rw [parsed] at lifetime
          cases known : ttlOf (opt :: args) with
          | none =>
              rw [known] at lifetime
              cases lifetime
          | some e =>
              rw [known] at lifetime
              cases lifetime
              rfl

theorem ttlOf_isSome (opt number : Bytes) :
    (ttlOf [opt, number]).isSome = true ↔
      (eqIgnoreAsciiCase opt (ascii "EX") = true ∨ eqIgnoreAsciiCase opt (ascii "PX") = true) ∧
        (parseUnsigned 64 number).isSome = true := by
  rw [ttlOf]
  split
  · rename_i isEx
    simp [isEx]
  · rename_i notEx
    split
    · rename_i isPx
      simp [isPx]
    · rename_i notPx
      simp [notEx, notPx]

/-- A time to live is refused unless it is an option and a number. -/
theorem map_ttlOf_eq_none {α : Type} (f : Duration → α) (opt number : Bytes) :
    (ttlOf [opt, number]).map f = none ↔
      ¬((eqIgnoreAsciiCase opt (ascii "EX") = true ∨ eqIgnoreAsciiCase opt (ascii "PX") = true) ∧
        (parseUnsigned 64 number).isSome = true) := by
  rw [← ttlOf_isSome, Option.map_eq_none_iff, Bool.not_eq_true, Option.isSome_eq_false_iff,
    Option.isNone_iff_eq_none]

/-- SET: the arguments on which the parsers differ. -/
theorem setArguments_same_iff (verb : Bytes) (args : List Bytes)
    (isSet : eqIgnoreAsciiCase verb (ascii "SET") = true) :
    (accepted (setBorrowedArguments args)).map ParsedCommand.toOwned = accepted (setArguments args) ↔
      ¬ InlineDivergence (verb :: args) := by
  have notExpire : eqIgnoreAsciiCase verb (ascii "EXPIRE") = false := by
    rw [eqIgnoreAsciiCase_congr isSet]
    decide
  match args with
  | [] =>
      refine iff_of_true rfl ?_
      rintro ⟨⟩
  | [_] =>
      refine iff_of_true rfl ?_
      rintro ⟨⟩
  | [key, value] =>
      refine iff_of_true rfl ?_
      intro diverges
      cases diverges with
      | wrapped _ _ _ _ isExpire _ _ =>
          rw [notExpire] at isExpire
          cases isExpire
      | signed _ _ _ _ isExpire _ _ =>
          rw [notExpire] at isExpire
          cases isExpire
  | [key, value, opt] =>
      refine iff_of_false ?_ (not_not.2 (.lone verb key value opt isSet))
      rw [accepted_setArguments (by simp)]
      simp [setBorrowedArguments, accepted, ttlOf]
  | [key, value, opt, number] =>
      rw [accepted_setArguments (by simp)]
      have refused : setBorrowedArguments [key, value, opt, number] =
        .error (.syntaxText "SET requires at most 4 arguments: SET <key> <value> [EX <seconds>]") := rfl
      rw [refused, accepted_error, Option.map_none, eq_comm, map_ttlOf_eq_none, not_iff_not]
      constructor
      · rintro ⟨known, numeral⟩
        exact .option verb key value opt number isSet known numeral
      · intro diverges
        cases diverges with
        | option _ _ _ _ _ _ known numeral => exact ⟨known, numeral⟩
  | key :: value :: opt :: number :: extra :: more =>
      rw [accepted_setArguments (by simp)]
      refine iff_of_true rfl ?_
      rintro ⟨⟩

/-- EXPIRE: the arguments on which the parsers differ. -/
theorem expireArguments_same_iff (verb : Bytes) (args : List Bytes)
    (isExpire : eqIgnoreAsciiCase verb (ascii "EXPIRE") = true) :
    (accepted (expireBorrowedArguments args)).map ParsedCommand.toOwned =
        accepted (expireArguments args) ↔ ¬ InlineDivergence (verb :: args) := by
  have notSet : eqIgnoreAsciiCase verb (ascii "SET") = false := by
    rw [eqIgnoreAsciiCase_congr isExpire]
    decide
  match args with
  | [] =>
      refine iff_of_true rfl ?_
      rintro ⟨⟩
  | [_] =>
      refine iff_of_true rfl ?_
      rintro ⟨⟩
  | [key, secs] =>
      have numbers : (accepted (expireBorrowedArguments [key, secs])).map ParsedCommand.toOwned =
          accepted (expireArguments [key, secs]) ↔ parseU64Ascii secs = parseUnsigned 64 secs := by
        rw [expireBorrowedArguments, expireArguments]
        cases parseU64Ascii secs with
        | none => cases parseUnsigned 64 secs <;> simp [accepted]
        | some n => cases parseUnsigned 64 secs <;> simp [accepted, ParsedCommand.toOwned]
      rw [numbers, ← not_iff_not, not_not, ← ne_eq, parseU64Ascii_ne_iff]
      constructor
      · rintro (⟨n, numeral, large⟩ | ⟨digits, n, rfl, numeral, small⟩)
        · exact .wrapped verb key secs n isExpire numeral large
        · exact .signed verb key digits n isExpire numeral small
      · intro diverges
        cases diverges with
        | wrapped _ _ _ n _ numeral large => exact .inl ⟨n, numeral, large⟩
        | signed _ _ digits n _ numeral small => exact .inr ⟨digits, n, rfl, numeral, small⟩
  | key :: secs :: extra :: more =>
      refine iff_of_true rfl ?_
      intro diverges
      cases diverges with
      | lone _ _ _ _ isSet =>
          rw [notSet] at isSet
          cases isSet
      | option _ _ _ _ _ isSet _ _ =>
          rw [notSet] at isSet
          cases isSet

/-- The two parsers read a line of SET or EXPIRE alike exactly if it is none of the
four kinds of `InlineDivergence`. -/
theorem sameMeaning_iff (line verb : Bytes) (plain : IsLine line)
    (first : (tokens line).head? = some verb)
    (known : eqIgnoreAsciiCase verb (ascii "SET") = true ∨
      eqIgnoreAsciiCase verb (ascii "EXPIRE") = true) :
    SameMeaning line ↔ ¬ InlineDivergence (tokens line) := by
  obtain ⟨args, split⟩ : ∃ args, tokens line = verb :: args := by
    cases split : tokens line with
    | nil =>
        rw [split] at first
        cases first
    | cons token args =>
        rw [split] at first
        cases first
        exact ⟨args, rfl⟩
  rw [split]
  rcases known with isSet | isExpire
  · have spelled : eqIgnoreAsciiCase verb (ascii (verbOf (.set [] [] none))) = true := isSet
    obtain ⟨fast, agrees⟩ := agrees_line_iff plain split spelled
    rw [← setArguments_same_iff verb args isSet]
    constructor
    · intro same
      exact agrees.1 same.agree
    · intro same
      refine ⟨agrees.2 same, ?_⟩
      intro v key value trailing shape _ some
      rw [split] at shape
      cases shape
      rw [fast, ← accepted_setArguments some]
      exact same
  · have spelled : eqIgnoreAsciiCase verb (ascii (verbOf (.expire [] 0))) = true := isExpire
    obtain ⟨-, agrees⟩ := agrees_line_iff plain split spelled
    rw [← expireArguments_same_iff verb args isExpire]
    constructor
    · intro same
      exact agrees.1 same.agree
    · intro same
      refine ⟨agrees.2 same, ?_⟩
      intro v key value trailing shape isSet _
      rw [split] at shape
      cases shape
      rw [eqIgnoreAsciiCase_congr isExpire] at isSet
      exact absurd isSet (by decide)

/-- `SET k v` is read alike. -/
theorem sameMeaning_set : SameMeaning (ascii "SET k v") := by
  have split : tokens (ascii "SET k v") = [ascii "SET", ascii "k", ascii "v"] := by decide +kernel
  refine (sameMeaning_iff (ascii "SET k v") (ascii "SET") (by decide +kernel) (by rw [split]; rfl)
    (.inl (by decide))).2 ?_
  rw [split]
  intro diverges
  cases diverges with
  | wrapped _ _ _ _ isExpire _ _ => exact absurd isExpire (by decide)

theorem not_sameMeaning {line : Bytes}
    (differ : ¬ Agrees (parseInlineBorrowed (line ++ crlf)) (parseBytes line)) : ¬ SameMeaning line :=
  fun same => differ same.agree

/-- The fast parser refuses `SET k v EX 10` and accepts `SET k v NX`. -/
theorem sameMeaning_options_false :
    ¬ SameMeaning (ascii "SET k v EX 10") ∧ ¬ SameMeaning (ascii "SET k v NX") :=
  ⟨not_sameMeaning (by decide +kernel), not_sameMeaning (by decide +kernel)⟩

end ZetDb.Protocol
