/-
# Protocol.Grammar -- what the owned inline parser accepts

`parse_bytes` is a dozen chains of `trim` and `split_first_word`.  `Protocol.Tokens`
reduces them to functions of the tokens; this module says what those functions
accept, as a grammar: which token lists are which command (`InlineForm`), and that
nothing else is.  The texts of the syntax errors are not part of it.

`parseBytes_grammar`: for every line, the outcome is the one the grammar gives to
its tokens.
-/
import ZetDb.Protocol.Language

namespace ZetDb.Protocol

set_option autoImplicit false

open ZetDb.Theory.Wire ZetDb.Theory.Text ZetDb.Theory.Words ZetDb.Domain

/-! ## The grammar -/

/-- The arguments with which a command is written on a line. -/
inductive InlineForm : Command → List Bytes → Prop where
  | ping (args : List Bytes) : InlineForm .ping args
  | info (args : List Bytes) : InlineForm .info args
  | dbSize (args : List Bytes) : InlineForm .dbSize args
  | get (key : Bytes) : InlineForm (.get key) [key]
  | del (key : Bytes) : InlineForm (.del key) [key]
  | incr (key : Bytes) : InlineForm (.incr key) [key]
  | exists (key : Bytes) : InlineForm (.exists key) [key]
  | ttl (key : Bytes) : InlineForm (.ttl key) [key]
  | set (key value : Bytes) : InlineForm (.set key value none) [key, value]
  | setEx (key value opt numeral : Bytes) (n : Nat) (isEx : eqIgnoreAsciiCase opt (ascii "EX") = true)
      (isNumeral : parseUnsigned 64 numeral = some n) :
      InlineForm (.set key value (some (Duration.fromSecs n))) [key, value, opt, numeral]
  | setPx (key value opt numeral : Bytes) (n : Nat) (isPx : eqIgnoreAsciiCase opt (ascii "PX") = true)
      (isNumeral : parseUnsigned 64 numeral = some n) :
      InlineForm (.set key value (some (Duration.fromMillis n))) [key, value, opt, numeral]
  | expire (key numeral : Bytes) (n : Nat) (isNumeral : parseUnsigned 64 numeral = some n) :
      InlineForm (.expire key n) [key, numeral]
  | flushDb : InlineForm .flushDb []
  | keys : InlineForm .keys []
  | mget (keys : List Bytes) (present : keys ≠ []) : InlineForm (.mget keys) keys
  | mset (pairs : List (Bytes × Bytes)) (present : pairs ≠ []) :
      InlineForm (.mset pairs) (pairs.flatMap fun p => [p.1, p.2])

/-- The tokens are a verb, in any letter case, and arguments of its command. -/
def Written (tokens : List Bytes) (c : Command) : Prop :=
  ∃ verb args, tokens = verb :: args ∧ eqIgnoreAsciiCase verb (ascii (verbOf c)) = true ∧ InlineForm c args

/-- The first token is one of the verbs. -/
def StartsWithVerb (tokens : List Bytes) : Prop :=
  ∃ verb args, tokens = verb :: args ∧ ∃ name ∈ verbs, eqIgnoreAsciiCase verb (ascii name) = true

/-- There is a first token, and it is none of the verbs. -/
def StartsUnknown (tokens : List Bytes) : Prop := ∃ verb args, tokens = verb :: args ∧ UnknownVerb verb

/-! ## Arguments -/

section Arguments

variable {c made : Command} {args : List Bytes} {e : ParseError}

theorem singleKeyArguments_form {wrong : String} {make : Bytes → Command}
    (accepted : singleKeyArguments wrong make args = .ok made) : ∃ key, args = [key] ∧ made = make key := by
  match args with
  | [] => cases accepted
  | [key] =>
      cases accepted
      exact ⟨key, rfl, rfl⟩
  | _ :: _ :: _ => cases accepted

theorem noArguments_form {cmdName : String} (accepted : noArguments cmdName c args = .ok made) :
    args = [] ∧ made = c := by
  match args with
  | [] =>
      cases accepted
      exact ⟨rfl, rfl⟩
  | _ :: _ => cases accepted

theorem ttlNumber_form {unit : Nat → Duration} {extra wrong : String} {lifetime : Option Duration}
    (accepted : ttlNumber unit extra wrong args = .ok lifetime) :
    ∃ numeral n, args = [numeral] ∧ parseUnsigned 64 numeral = some n ∧ lifetime = some (unit n) := by
  match args with
  | [] => cases accepted
  | [numeral] =>
      rw [ttlNumber] at accepted
      split at accepted
      · rename_i n isNumeral
        cases accepted
        exact ⟨numeral, n, rfl, isNumeral, rfl⟩
      · cases accepted
  | _ :: _ :: _ => cases accepted

theorem setArguments_form (accepted : setArguments args = .ok made) :
    verbOf made = "SET" ∧ InlineForm made args := by
  match args with
  | [] => cases accepted
  | [_] => cases accepted
  | [key, value] =>
      cases accepted
      exact ⟨rfl, .set key value⟩
  | key :: value :: opt :: rest =>
      rw [setArguments] at accepted
      split at accepted
      · rename_i lifetime option
        cases accepted
        rw [ttlArguments] at option
        split at option
        · rename_i isEx
          obtain ⟨numeral, n, rfl, isNumeral, rfl⟩ := ttlNumber_form option
          exact ⟨rfl, .setEx key value opt numeral n isEx isNumeral⟩
        · split at option
          · rename_i isPx
            obtain ⟨numeral, n, rfl, isNumeral, rfl⟩ := ttlNumber_form option
            exact ⟨rfl, .setPx key value opt numeral n isPx isNumeral⟩
          · cases option
      · cases accepted

theorem expireArguments_form (accepted : expireArguments args = .ok made) :
    verbOf made = "EXPIRE" ∧ InlineForm made args := by
  match args with
  | [] => cases accepted
  | [_] => cases accepted
  | [key, numeral] =>
      rw [expireArguments] at accepted
      split at accepted
      · rename_i n isNumeral
        cases accepted
        exact ⟨rfl, .expire key numeral n isNumeral⟩
      · cases accepted
  | _ :: _ :: _ :: _ => cases accepted

theorem msetArguments_form {few odd : String}
    (accepted : msetArguments few odd Command.mset args = .ok made) :
    verbOf made = "MSET" ∧ InlineForm made args := by
  unfold msetArguments at accepted
  split at accepted
  · cases accepted
  · rename_i pairs filled paired
    cases accepted
    have written := pairsOf_eq_some paired
    rw [written]
    refine ⟨rfl, .mset pairs ?_⟩
    rintro rfl
    exact filled written
  · cases accepted

/-- What the owned parser accepts is in the grammar. -/
theorem inlineArguments_form (accepted : inlineArguments c args = .ok made) :
    verbOf made = verbOf c ∧ InlineForm made args := by
  cases c with
  | ping =>
      cases accepted
      exact ⟨rfl, .ping args⟩
  | info =>
      cases accepted
      exact ⟨rfl, .info args⟩
  | dbSize =>
      cases accepted
      exact ⟨rfl, .dbSize args⟩
  | get _ =>
      obtain ⟨key, rfl, rfl⟩ := singleKeyArguments_form accepted
      exact ⟨rfl, .get key⟩
  | del _ =>
      obtain ⟨key, rfl, rfl⟩ := singleKeyArguments_form accepted
      exact ⟨rfl, .del key⟩
  | incr _ =>
      obtain ⟨key, rfl, rfl⟩ := singleKeyArguments_form accepted
      exact ⟨rfl, .incr key⟩
  | «exists» _ =>
      obtain ⟨key, rfl, rfl⟩ := singleKeyArguments_form accepted
      exact ⟨rfl, .exists key⟩
  | ttl _ =>
      obtain ⟨key, rfl, rfl⟩ := singleKeyArguments_form accepted
      exact ⟨rfl, .ttl key⟩
  | set _ _ _ => exact setArguments_form accepted
  | expire _ _ => exact expireArguments_form accepted
  | flushDb =>
      obtain ⟨rfl, rfl⟩ := noArguments_form accepted
      exact ⟨rfl, .flushDb⟩
  | keys =>
      obtain ⟨rfl, rfl⟩ := noArguments_form accepted
      exact ⟨rfl, .keys⟩
  | mget _ =>
      match args with
      | [] => cases accepted
      | key :: keys =>
          cases accepted
          exact ⟨rfl, .mget (key :: keys) (by simp)⟩
  | mset _ => exact msetArguments_form accepted

theorem pairsOf_flatMap (pairs : List (Bytes × Bytes)) :
    pairsOf (pairs.flatMap fun p => [p.1, p.2]) = some pairs := by
  induction pairs with
  | nil => rfl
  | cons p pairs ih =>
      show (pairsOf (pairs.flatMap fun p => [p.1, p.2])).map ((p.1, p.2) :: ·) = some (p :: pairs)
      rw [ih]
      rfl

/-- What is in the grammar is accepted. -/
theorem InlineForm.accepted (form : InlineForm c args) : inlineArguments c args = .ok c := by
  cases form with
  | setEx key value opt numeral n isEx isNumeral =>
      simp only [inlineArguments, setArguments, ttlArguments, if_pos isEx, ttlNumber, isNumeral]
  | setPx key value opt numeral n isPx isNumeral =>
      have notEx : ¬ eqIgnoreAsciiCase opt (ascii "EX") = true := by
        rw [eqIgnoreAsciiCase_congr isPx]
        decide
      simp only [inlineArguments, setArguments, ttlArguments, if_neg notEx, if_pos isPx, ttlNumber, isNumeral]
  | expire key numeral n isNumeral => simp only [inlineArguments, expireArguments, isNumeral]
  | mget keys present =>
      obtain ⟨key, rest, rfl⟩ := List.exists_cons_of_ne_nil present
      rfl
  | mset pairs present =>
      obtain ⟨p, rest, rfl⟩ := List.exists_cons_of_ne_nil present
      simp only [inlineArguments, msetArguments, pairsOf_flatMap]
      rfl
  | _ => rfl

/-- Everything else is a fault of syntax. -/
theorem inlineArguments_error (refused : inlineArguments c args = .error e) : ∃ msg, e = .syntaxError msg := by
  have option (opt : Bytes) (rest : List Bytes) (fault : ttlArguments opt rest = .error e) :
      ∃ msg, e = .syntaxError msg := by
    unfold ttlArguments ttlNumber at fault
    split at fault
    · split at fault
      · exact ⟨_, (Except.error.inj fault).symm⟩
      · split at fault
        · cases fault
        · exact ⟨_, (Except.error.inj fault).symm⟩
      · exact ⟨_, (Except.error.inj fault).symm⟩
    · split at fault
      · split at fault
        · exact ⟨_, (Except.error.inj fault).symm⟩
        · split at fault
          · cases fault
          · exact ⟨_, (Except.error.inj fault).symm⟩
        · exact ⟨_, (Except.error.inj fault).symm⟩
      · exact ⟨_, (Except.error.inj fault).symm⟩
  cases c with
  | ping | info | dbSize => cases refused
  | get _ | del _ | incr _ | «exists» _ | ttl _ =>
      simp only [inlineArguments, singleKeyArguments] at refused
      split at refused <;> cases refused
      exact ⟨_, rfl⟩
  | set _ _ _ =>
      simp only [inlineArguments, setArguments] at refused
      split at refused
      · cases refused
      · split at refused
        · cases refused
        · rename_i fault
          cases refused
          exact option _ _ fault
      · exact ⟨_, (Except.error.inj refused).symm⟩
  | expire _ _ =>
      simp only [inlineArguments, expireArguments] at refused
      split at refused
      · split at refused <;> cases refused
        exact ⟨_, rfl⟩
      · exact ⟨_, (Except.error.inj refused).symm⟩
      · exact ⟨_, (Except.error.inj refused).symm⟩
  | flushDb | keys =>
      simp only [inlineArguments, noArguments] at refused
      split at refused <;> cases refused
      exact ⟨_, rfl⟩
  | mget _ =>
      simp only [inlineArguments, mgetArguments] at refused
      split at refused <;> cases refused
      exact ⟨_, rfl⟩
  | mset _ =>
      simp only [inlineArguments, msetArguments] at refused
      split at refused <;> cases refused <;> exact ⟨_, rfl⟩

end Arguments

/-! ## Lines -/

theorem verbOf_mem (c : Command) : verbOf c ∈ verbs := by
  cases c <;> simp [verbOf, verbs]

/-- The three kinds of lines. -/
theorem parseBytes_cases (line : Bytes) :
    (tokens line = [] ∧ parseBytes line = .error .emptyCommand) ∨
      (∃ verb args c, tokens line = verb :: args ∧ eqIgnoreAsciiCase verb (ascii (verbOf c)) = true ∧
        parseBytes line = inlineArguments c args) ∨
      ∃ verb args, tokens line = verb :: args ∧ UnknownVerb verb ∧
        parseBytes line = .error (.unknownCommand (fromUtf8Lossy verb)) := by
  cases split : tokens line with
  | nil => exact .inl ⟨rfl, parseBytes_blank split⟩
  | cons verb args =>
      rcases spelled_or_unknown verb with ⟨c, spelled⟩ | unknown
      · exact .inr (.inl ⟨verb, args, c, rfl, spelled, parseBytes_spelled split spelled⟩)
      · exact .inr (.inr ⟨verb, args, rfl, unknown, parseBytes_unknown split unknown⟩)

theorem parseBytes_depends {line other : Bytes} (same : tokens other = tokens line) :
    parseBytes other = parseBytes line := by
  rcases parseBytes_cases line with ⟨none, empty⟩ | ⟨verb, args, c, split, spelled, parsed⟩ |
    ⟨verb, args, split, unknown, parsed⟩
  · rw [empty, parseBytes_blank (same.trans none)]
  · rw [parsed, parseBytes_spelled (same.trans split) spelled]
  · rw [parsed, parseBytes_unknown (same.trans split) unknown]

theorem parseBytes_ok_iff (line : Bytes) (c : Command) : parseBytes line = .ok c ↔ Written (tokens line) c := by
  constructor
  · intro accepted
    rcases parseBytes_cases line with ⟨-, parsed⟩ | ⟨verb, args, made, split, spelled, parsed⟩ |
      ⟨verb, args, split, unknown, parsed⟩
    · rw [parsed] at accepted
      cases accepted
    · rw [parsed] at accepted
      obtain ⟨sameVerb, form⟩ := inlineArguments_form accepted
      exact ⟨verb, args, split, sameVerb ▸ spelled, form⟩
    · rw [parsed] at accepted
      cases accepted
  · rintro ⟨verb, args, split, spelled, form⟩
    rw [parseBytes_spelled split spelled, form.accepted]

/-- `parse_bytes` on any bytes.  The outcome depends on the tokens; it is an empty
command exactly without tokens, the command that the tokens spell, a fault of
syntax if they start with a verb and spell no command, and an unknown command if
they start with anything else. -/
theorem parseBytes_grammar (line : Bytes) :
    (parseBytes line = .error .emptyCommand ↔ tokens line = []) ∧
      (∀ other, tokens other = tokens line → parseBytes other = parseBytes line) ∧
      (∀ c, parseBytes line = .ok c ↔ Written (tokens line) c) ∧
      ((∃ msg, parseBytes line = .error (.syntaxError msg)) ↔
        StartsWithVerb (tokens line) ∧ ∀ c, ¬ Written (tokens line) c) ∧
      ((∃ msg, parseBytes line = .error (.unknownCommand msg)) ↔ StartsUnknown (tokens line)) := by
  refine ⟨?_, fun other => parseBytes_depends, parseBytes_ok_iff line, ?_, ?_⟩
  · refine ⟨fun empty => ?_, parseBytes_blank⟩
    rcases parseBytes_cases line with ⟨none, -⟩ | ⟨verb, args, c, split, spelled, parsed⟩ |
      ⟨verb, args, split, unknown, parsed⟩
    · exact none
    · rw [parsed] at empty
      obtain ⟨msg, impossible⟩ := inlineArguments_error empty
      cases impossible
    · rw [parsed] at empty
      cases empty
  · constructor
    · rintro ⟨msg, refused⟩
      refine ⟨?_, fun c written => ?_⟩
      · rcases parseBytes_cases line with ⟨-, parsed⟩ | ⟨verb, args, c, split, spelled, -⟩ |
          ⟨verb, args, split, unknown, parsed⟩
        · rw [parsed] at refused
          cases refused
        · exact ⟨verb, args, split, verbOf c, verbOf_mem c, spelled⟩
        · rw [parsed] at refused
          cases refused
      · rw [(parseBytes_ok_iff line c).2 written] at refused
        cases refused
    · rintro ⟨⟨verb, args, split, name, known, spelled⟩, none⟩
      obtain ⟨c, rfl⟩ := exists_verbOf known
      have parsed := parseBytes_spelled split spelled
      cases outcome : inlineArguments c args with
      | ok made => exact absurd ((parseBytes_ok_iff line made).1 (parsed.trans outcome)) (none made)
      | error e =>
          obtain ⟨msg, rfl⟩ := inlineArguments_error outcome
          exact ⟨msg, parsed.trans outcome⟩
  · constructor
    · rintro ⟨msg, refused⟩
      rcases parseBytes_cases line with ⟨-, parsed⟩ | ⟨verb, args, c, split, spelled, parsed⟩ |
        ⟨verb, args, split, unknown, -⟩
      · rw [parsed] at refused
        cases refused
      · rw [parsed] at refused
        obtain ⟨text, impossible⟩ := inlineArguments_error refused
        cases impossible
      · exact ⟨verb, args, split, unknown⟩
    · rintro ⟨verb, args, split, unknown⟩
      exact ⟨_, parseBytes_unknown split unknown⟩

end ZetDb.Protocol
