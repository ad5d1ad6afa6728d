/-
# Protocol.Tokens -- the inline parsers read a list of tokens

Both inline parsers alternate `trim` and `split_first_word` over the bytes of a
line.  What they compute depends on the tokens of the line only: `inlineArguments`
and `borrowedArguments` say what, verb by verb, on the list of arguments.  A verb
is named by a command that has it, as in `argumentReader`.

`parseBytes_spelled` and `parseLineBorrowed_spelled` connect them with the parsers;
later results compare lists of tokens and never look at a blank.
-/
import ZetDb.Protocol.Frames
import ZetDb.Protocol.ParserBorrowed
import ZetDb.Theory.Words

namespace ZetDb.Protocol

set_option autoImplicit false

open ZetDb.Theory.Wire ZetDb.Theory.Text ZetDb.Theory.Words ZetDb.Domain

/-- The maximal runs of a line without a blank. -/
def tokens (line : Bytes) : List Bytes := words isWhitespace line

/-- The line starts with this token, and `split_first_word` finds it. -/
structure Token (line token rest : Bytes) : Prop where
  split : splitFirstWord (trim line) = (token, rest)
  filled : (trim line).isEmpty = false
  token_filled : token.isEmpty = false
  tokens_eq : tokens line = token :: tokens rest
  /-- The blanks around the only token are trimmed away. -/
  alone : tokens rest = [] → trim line = token
  /-- What follows the token starts with a blank. -/
  ends : ∀ b, rest.head? = some b → isWhitespace b = true
  whole : trim line = token ++ rest

/-- A line is blank, or has a first token. -/
theorem token_cases (line : Bytes) :
    (tokens line = [] ∧ trim line = []) ∨ ∃ token rest, Token line token rest := by
  rcases strip_cases isWhitespace line with blank | ⟨w, rest, first⟩
  · exact .inl blank
  · have whole : trim line = w ++ rest := first.whole
    have some : w.isEmpty = false := by simpa using first.word.1
    refine .inr ⟨w, rest, first.cut, ?_, some, first.words_eq, first.strip_eq_word, first.ends, whole⟩
    rw [whole, List.isEmpty_eq_false_iff]
    exact List.append_ne_nil_of_left_ne_nil first.word.1 rest

theorem trim_isEmpty (line : Bytes) : (trim line).isEmpty = (tokens line).isEmpty := by
  rcases token_cases line with ⟨none, empty⟩ | ⟨token, rest, first⟩
  · rw [none, empty]
    rfl
  · rw [first.filled, first.tokens_eq, List.isEmpty_cons]

theorem tokens_trim (line : Bytes) : tokens (trim line) = tokens line := words_strip line

/-! ## The owned parser -/

/-- One key. -/
def singleKeyArguments (wrong : String) {γ : Type} (make : Key → γ) : List Bytes → Except ParseError γ
  | [key] => .ok (make key)
  | _ => .error (.syntaxText wrong)

/-- The number behind EX or PX. -/
def ttlNumber (unit : Nat → Duration) (extra wrong : String) :
    List Bytes → Except ParseError (Option Duration)
  | [] => .error (.syntaxText wrong)
  | [val] =>
      match parseUnsigned 64 val with
      | some n => .ok (some (unit n))
      | none => .error (.syntaxText wrong)
  | _ :: _ :: _ => .error (.syntaxText extra)

def ttlArguments (opt : Bytes) (args : List Bytes) : Except ParseError (Option Duration) :=
  if eqIgnoreAsciiCase opt (ascii "EX") then
    ttlNumber Duration.fromSecs "SET EX: unexpected extra arguments" "SET EX: expected integer seconds"
      args
  else if eqIgnoreAsciiCase opt (ascii "PX") then
    ttlNumber Duration.fromMillis "SET PX: unexpected extra arguments"
      "SET PX: expected integer milliseconds" args
  else .error (.syntaxError (ascii "SET: unknown option '" ++ fromUtf8Lossy opt ++ ascii "'"))

def setArguments : List Bytes → Except ParseError Command
  | key :: value :: [] => .ok (.set key value none)
  | key :: value :: opt :: args =>
      match ttlArguments opt args with
      | .ok lifetime => .ok (.set key value lifetime)
      | .error e => .error e
  | _ => .error (.syntaxText
      "SET requires at least 2 arguments: SET <key> <value> [EX seconds | PX millis]")

def expireArguments : List Bytes → Except ParseError Command
  | [key, secs] =>
      match parseUnsigned 64 secs with
      | some seconds => .ok (.expire key seconds)
      | none => .error (.syntaxText "EXPIRE: seconds must be a positive integer")
  | _ :: _ :: _ :: _ =>
      .error (.syntaxText "EXPIRE requires exactly 2 arguments: EXPIRE <key> <seconds>")
  | _ => .error (.syntaxText "EXPIRE requires 2 arguments: EXPIRE <key> <seconds>")

def mgetArguments (few : String) {γ : Type} (make : List Key → γ) : List Bytes → Except ParseError γ
  | [] => .error (.syntaxText few)
  | keys => .ok (make keys)

/-- Tokens taken two by two. -/
def pairsOf : List Bytes → Option (List (Key × Bytes))
  | [] => some []
  | [_] => none
  | key :: value :: args => (pairsOf args).map ((key, value) :: ·)

def msetArguments (few odd : String) {γ : Type} (make : List (Key × Bytes) → γ) (args : List Bytes) :
    Except ParseError γ :=
  match args, pairsOf args with
  | [], _ => .error (.syntaxText few)
  | _, some pairs => .ok (make pairs)
  | _, none => .error (.syntaxText odd)

def noArguments (cmdName : String) {γ : Type} (c : γ) : List Bytes → Except ParseError γ
  | [] => .ok c
  | _ => .error (.syntaxText (cmdName ++ " takes no arguments"))

theorem parseSingleKeyBytes_tokens (rest : Bytes) (cmdName : String) (make : Key → Command) :
    parseSingleKeyBytes rest cmdName make =
      singleKeyArguments (cmdName ++ " requires exactly 1 argument: " ++ cmdName ++ " <key>") make
        (tokens rest) := by
  unfold parseSingleKeyBytes
  rcases token_cases rest with ⟨none, empty⟩ | ⟨key, trailing, first⟩
  · rw [none, empty]
    rfl
  · simp only [first.filled, first.split, first.tokens_eq, trim_isEmpty, Bool.false_eq_true, if_false]
    cases tokens trailing with
    | nil => rfl
    | cons extra more => rfl

theorem parseTtlOption_tokens {line opt rest : Bytes} (first : Token line opt rest) :
    parseTtlOption (trim line) = ttlArguments opt (tokens rest) := by
  unfold parseTtlOption ttlArguments
  simp only [first.split]
  rcases token_cases rest with ⟨none, empty⟩ | ⟨val, trailing, second⟩
  · rewrite [none, empty]
    rfl
  · simp only [second.split, second.tokens_eq, trim_isEmpty]
    cases tokens trailing with
    | nil => rfl
    | cons extra more => rfl

theorem parseSetBytes_tokens (rest : Bytes) : parseSetBytes rest = setArguments (tokens rest) := by
  unfold parseSetBytes
  rcases token_cases rest with ⟨none, empty⟩ | ⟨key, rest, first⟩
  · rw [none, empty]
    rfl
  · simp only [first.filled, first.split, first.token_filled, first.tokens_eq, Bool.false_eq_true,
      if_false]
    rcases token_cases rest with ⟨none, empty⟩ | ⟨value, rest, second⟩
    · rw [none, empty]
      rfl
    · simp only [second.filled, second.split, second.tokens_eq, Bool.false_eq_true, if_false]
      rcases token_cases rest with ⟨none, empty⟩ | ⟨opt, rest, third⟩
      · rw [none, empty]
        rfl
      · rw [third.filled, parseTtlOption_tokens third, third.tokens_eq]
        rfl

theorem parseExpireBytes_tokens (rest : Bytes) :
    parseExpireBytes rest = expireArguments (tokens rest) := by
  unfold parseExpireBytes
  rcases token_cases rest with ⟨none, empty⟩ | ⟨key, rest, first⟩
  · rw [none, empty]
    rfl
  · simp only [first.filled, first.split, first.token_filled, first.tokens_eq, Bool.false_eq_true,
      if_false]
    rcases token_cases rest with ⟨none, empty⟩ | ⟨secs, trailing, second⟩
    · rw [none, empty]
      rfl
    · simp only [second.filled, second.split, second.tokens_eq, trim_isEmpty, Bool.false_eq_true,
        if_false]
      cases tokens trailing with
      | nil => rfl
      | cons extra more => rfl

/-- The loop of MGET collects the tokens. -/
theorem mgetLoop_tokens (fuel : Nat) (remaining : Bytes) (enough : (tokens remaining).length ≤ fuel) :
    mgetLoop fuel remaining = tokens remaining := by
  induction fuel generalizing remaining with
  | zero => exact (List.eq_nil_of_length_eq_zero (Nat.le_zero.1 enough)).symm
  | succ fuel ih =>
      rw [mgetLoop]
      rcases token_cases remaining with ⟨none, empty⟩ | ⟨key, rest, first⟩
      · rw [none, empty]
        rfl
      · rw [first.tokens_eq, List.length_cons] at enough
        simp only [first.filled, first.split, first.tokens_eq, Bool.false_eq_true, if_false]
        rw [ih rest (by omega)]

theorem parseMgetBytes_tokens (rest : Bytes) :
    parseMgetBytes rest =
      mgetArguments "MGET requires at least 1 argument: MGET <key> [key ...]" .mget (tokens rest) := by
  have loop := mgetLoop_tokens (trim rest).length (trim rest) (words_length_le _)
  simp only [parseMgetBytes, trim_isEmpty, loop, tokens_trim]
  cases tokens rest with
  | nil => rfl
  | cons key keys => rfl

/-- The loop of MSET pairs the tokens; a key without a value is an error. -/
theorem msetPairs_tokens (fuel : Nat) (remaining : Bytes) (enough : (tokens remaining).length ≤ fuel) :
    msetPairs fuel remaining =
      match pairsOf (tokens remaining) with
      | some pairs => .ok pairs
      | none => .error (.syntaxText "MSET requires matching key-value pairs") := by
  induction fuel generalizing remaining with
  | zero =>
      rw [List.eq_nil_of_length_eq_zero (Nat.le_zero.1 enough)]
      rfl
  | succ fuel ih =>
      rw [msetPairs]
      rcases token_cases remaining with ⟨none, empty⟩ | ⟨key, rest, first⟩
      · rw [none, empty]
        rfl
      · rw [first.tokens_eq, List.length_cons] at enough
        simp only [first.filled, first.split, first.tokens_eq, first.token_filled, Bool.false_eq_true,
          if_false]
        rcases token_cases rest with ⟨none, empty⟩ | ⟨value, rest, second⟩
        · rw [none, empty]
          rfl
        · rw [second.tokens_eq, List.length_cons] at enough
          simp only [second.filled, second.split, second.tokens_eq, Bool.false_eq_true, if_false, pairsOf]
          rw [ih rest (by omega)]
          cases pairsOf (tokens rest) with
          | none => rfl
          | some pairs => rfl

theorem parseMsetBytes_tokens (rest : Bytes) :
    parseMsetBytes rest =
      msetArguments "MSET requires at least 2 arguments: MSET <key> <value> [key value ...]"
        "MSET requires matching key-value pairs" .mset (tokens rest) := by
  have loop := msetPairs_tokens (trim rest).length (trim rest) (words_length_le _)
  simp only [parseMsetBytes, trim_isEmpty, loop, tokens_trim, msetArguments]
  match tokens rest with
  | [] => rfl
  | [_] => rfl
  | key :: value :: args =>
      simp only [pairsOf]
      cases pairsOf args with
      | none => rfl
      | some pairs => rfl

theorem parseNoArguments_tokens (rest : Bytes) (cmdName : String) (c : Command) :
    parseNoArguments rest cmdName c = noArguments cmdName c (tokens rest) := by
  unfold parseNoArguments
  rw [trim_isEmpty]
  cases tokens rest with
  | nil => rfl
  | cons extra more => rfl

/-- What the owned parser makes of a verb's arguments. -/
def inlineArguments : Command → List Bytes → Except ParseError Command
  | .ping, _ => .ok .ping
  | .get _, args => singleKeyArguments "GET requires exactly 1 argument: GET <key>" .get args
  | .set .., args => setArguments args
  | .del _, args => singleKeyArguments "DEL requires exactly 1 argument: DEL <key>" .del args
  | .incr _, args => singleKeyArguments "INCR requires exactly 1 argument: INCR <key>" .incr args
  | .info, _ => .ok .info
  | .dbSize, _ => .ok .dbSize
  | .exists _, args => singleKeyArguments "EXISTS requires exactly 1 argument: EXISTS <key>" .exists args
  | .ttl _, args => singleKeyArguments "TTL requires exactly 1 argument: TTL <key>" .ttl args
  | .expire .., args => expireArguments args
  | .flushDb, args => noArguments "FLUSHDB" .flushDb args
  | .keys, args => noArguments "KEYS" .keys args
  | .mget _, args => mgetArguments "MGET requires at least 1 argument: MGET <key> [key ...]" .mget args
  | .mset _, args =>
      msetArguments "MSET requires at least 2 arguments: MSET <key> <value> [key value ...]"
        "MSET requires matching key-value pairs" .mset args

theorem parseBytes_blank {line : Bytes} (blank : tokens line = []) :
    parseBytes line = .error .emptyCommand := by
  have empty := trim_isEmpty line
  rw [blank] at empty
  simp only [parseBytes, empty, List.isEmpty_nil, if_true]

/-- The parser of a verb's arguments. -/
def argumentParser : Command → Bytes → Except ParseError Command
  | .ping, _ => .ok .ping
  | .get _, rest => parseGetBytes rest
  | .set .., rest => parseSetBytes rest
  | .del _, rest => parseDelBytes rest
  | .incr _, rest => parseIncrBytes rest
  | .info, _ => .ok .info
  | .dbSize, _ => .ok .dbSize
  | .exists _, rest => parseSingleKeyBytes rest "EXISTS" .exists
  | .ttl _, rest => parseSingleKeyBytes rest "TTL" .ttl
  | .expire .., rest => parseExpireBytes rest
  | .flushDb, rest => parseNoArguments rest "FLUSHDB" .flushDb
  | .keys, rest => parseNoArguments rest "KEYS" .keys
  | .mget _, rest => parseMgetBytes rest
  | .mset _, rest => parseMsetBytes rest

theorem parseBytes_token {line verb rest : Bytes} {c : Command} (first : Token line verb rest)
    (spelled : eqIgnoreAsciiCase verb (ascii (verbOf c)) = true) :
    parseBytes line = argumentParser c rest := by
  simp only [parseBytes, first.filled, first.split, eqIgnoreAsciiCase_congr spelled]
  cases c <;> simp +decide only [verbOf, argumentParser, if_true, if_false]

theorem argumentParser_tokens (c : Command) (rest : Bytes) :
    argumentParser c rest = inlineArguments c (tokens rest) := by
  cases c with
  | ping | info | dbSize => rfl
  | get _ => exact parseSingleKeyBytes_tokens rest "GET" .get
  | del _ => exact parseSingleKeyBytes_tokens rest "DEL" .del
  | incr _ => exact parseSingleKeyBytes_tokens rest "INCR" .incr
  | «exists» _ => exact parseSingleKeyBytes_tokens rest "EXISTS" .exists
  | ttl _ => exact parseSingleKeyBytes_tokens rest "TTL" .ttl
  | set _ _ _ => exact parseSetBytes_tokens rest
  | expire _ _ => exact parseExpireBytes_tokens rest
  | flushDb | keys => exact parseNoArguments_tokens rest _ _
  | mget _ => exact parseMgetBytes_tokens rest
  | mset _ => exact parseMsetBytes_tokens rest

/-- The first token of a line that has tokens. -/
theorem token_of_tokens {line verb : Bytes} {args : List Bytes} (split : tokens line = verb :: args) :
    ∃ rest, Token line verb rest ∧ tokens rest = args := by
  rcases token_cases line with ⟨none, -⟩ | ⟨token, rest, first⟩
  · rw [none] at split
    cases split
  · rw [first.tokens_eq] at split
    cases split
    exact ⟨rest, first, rfl⟩

/-- The owned parser on a line whose verb is known. -/
theorem parseBytes_spelled {line verb : Bytes} {args : List Bytes} {c : Command}
    (split : tokens line = verb :: args) (spelled : eqIgnoreAsciiCase verb (ascii (verbOf c)) = true) :
    parseBytes line = inlineArguments c args := by
  obtain ⟨rest, first, rfl⟩ := token_of_tokens split
  rw [parseBytes_token first spelled, argumentParser_tokens]

theorem parseBytes_unknown {line verb : Bytes} {args : List Bytes} (split : tokens line = verb :: args)
    (unknown : UnknownVerb verb) : parseBytes line = .error (.unknownCommand (fromUtf8Lossy verb)) := by
  obtain ⟨rest, first, rfl⟩ := token_of_tokens split
  simp only [UnknownVerb, verbs, List.forall_mem_cons] at unknown
  simp only [parseBytes, first.filled, first.split, unknown, Bool.false_eq_true, if_false]

/-! ## The borrowed parser -/

theorem singleKeyBorrowed_tokens (rest : Bytes) (wrong : String) (make : Bytes → ParsedCommand) :
    singleKeyBorrowed rest wrong make = singleKeyArguments wrong make (tokens rest) := by
  unfold singleKeyBorrowed
  rcases token_cases rest with ⟨none, empty⟩ | ⟨key, trailing, first⟩
  · rw [none, empty]
    rfl
  · simp only [first.filled, first.split, first.tokens_eq, trim_isEmpty, Bool.false_eq_true, if_false]
    cases tokens trailing with
    | nil => rfl
    | cons extra more => rfl

/-- The third argument, if it is the last, is the number of seconds. -/
def setBorrowedArguments : List Bytes → Except ParseError ParsedCommand
  | [key, value] => .ok (.set key value none)
  | [key, value, ttlStr] => .ok (.set key value ((parseU64Ascii ttlStr).map Duration.fromSecs))
  | _ :: _ :: _ :: _ :: _ =>
      .error (.syntaxText "SET requires at most 4 arguments: SET <key> <value> [EX <seconds>]")
  | _ => .error (.syntaxText "SET requires at least 2 arguments: SET <key> <value>")

theorem parseSetBorrowed_tokens (rest : Bytes) :
    parseSetBorrowed rest = setBorrowedArguments (tokens rest) := by
  unfold parseSetBorrowed
  rcases token_cases rest with ⟨none, empty⟩ | ⟨key, rest, first⟩
  · rw [none, empty]
    rfl
  · simp only [first.filled, first.split, first.token_filled, first.tokens_eq, Bool.false_eq_true,
      if_false]
    rcases token_cases rest with ⟨none, empty⟩ | ⟨value, rest, second⟩
    · rw [none, empty]
      rfl
    · simp only [second.filled, second.split, second.tokens_eq, Bool.false_eq_true, if_false]
      rcases token_cases rest with ⟨none, empty⟩ | ⟨ttlStr, rest, third⟩
      · rw [none, empty]
        rfl
      · simp only [third.filled, third.split, third.tokens_eq, trim_isEmpty]
        cases tokens rest with
        | nil => rfl
        | cons extra more => rfl

/-- More than one token behind the key is no number. -/
def expireBorrowedArguments : List Bytes → Except ParseError ParsedCommand
  | [key, secs] =>
      match parseU64Ascii secs with
      | some seconds => .ok (.expire key seconds)
      | none => .error (.syntaxText "EXPIRE: seconds must be a positive integer")
  | _ :: _ :: _ :: _ => .error (.syntaxText "EXPIRE: seconds must be a positive integer")
  | _ => .error (.syntaxText "EXPIRE requires exactly 2 arguments: EXPIRE <key> <seconds>")

theorem foldU64_blank {n : Nat} {buf : Bytes} {b : UInt8} (member : b ∈ buf)
    (blank : isWhitespace b = true) : foldU64 n buf = none := by
  induction buf generalizing n with
  | nil => cases member
  | cons x buf ih =>
      rw [foldU64]
      split
      · rfl
      · rename_i digit
        rcases List.mem_cons.1 member with rfl | later
        · rw [not_isWhitespace_digit (by simpa using digit)] at blank
          cases blank
        · exact ih later

theorem parseExpireBorrowed_tokens (rest : Bytes) :
    parseExpireBorrowed rest = expireBorrowedArguments (tokens rest) := by
  unfold parseExpireBorrowed
  rcases token_cases rest with ⟨none, empty⟩ | ⟨key, rest, first⟩
  · rw [none, empty]
    rfl
  · simp only [first.filled, first.split, first.tokens_eq, Bool.false_eq_true, if_false]
    rcases token_cases rest with ⟨none, empty⟩ | ⟨secs, trailing, second⟩
    · rw [none, empty]
      rfl
    · simp only [second.filled, second.tokens_eq, Bool.false_eq_true, if_false]
      cases more : tokens trailing with
      | nil =>
          rw [second.alone more]
          rfl
      | cons extra others =>
          -- the blank between the tokens is part of what is read as a number
          have refused : parseU64Ascii (trim rest) = none := by
            cases shape : trailing with
            | nil =>
                rw [shape] at more
                cases more
            | cons b bytes =>
                have blank := second.ends b (by rw [shape, List.head?_cons])
                have member : b ∈ trim rest := by simp [second.whole, shape]
                rw [parseU64Ascii, second.filled, foldU64_blank member blank]
                rfl
          rw [refused]
          rfl

/-- The loop runs over a text that is trimmed already. -/
theorem mgetBorrowedLoop_tokens (fuel : Nat) (remaining : Bytes)
    (enough : (tokens remaining).length ≤ fuel) :
    mgetBorrowedLoop fuel (trim remaining) = tokens remaining := by
  induction fuel generalizing remaining with
  | zero => exact (List.eq_nil_of_length_eq_zero (Nat.le_zero.1 enough)).symm
  | succ fuel ih =>
      rw [mgetBorrowedLoop]
      rcases token_cases remaining with ⟨none, empty⟩ | ⟨key, rest, first⟩
      · rw [none, empty]
        rfl
      · rw [first.tokens_eq, List.length_cons] at enough
        simp only [first.filled, first.split, first.tokens_eq, first.token_filled, Bool.false_eq_true,
          Bool.not_false, if_true, if_false]
        rw [ih rest (by omega)]

theorem parseMgetBorrowed_tokens (rest : Bytes) :
    parseMgetBorrowed rest = mgetArguments "MGET requires at least 1 key" .mget (tokens rest) := by
  have count : (tokens rest).length ≤ (trim rest).length := by
    rw [← tokens_trim]
    exact words_length_le _
  simp only [parseMgetBorrowed, trim_isEmpty, mgetBorrowedLoop_tokens _ _ count]
  cases tokens rest with
  | nil => rfl
  | cons key keys => rfl

theorem msetBorrowedPairs_tokens (fuel : Nat) (remaining : Bytes)
    (enough : (tokens remaining).length ≤ fuel) :
    msetBorrowedPairs fuel (trim remaining) =
      match pairsOf (tokens remaining) with
      | some pairs => .ok pairs
      | none => .error (.syntaxText "MSET requires even number of arguments") := by
  induction fuel generalizing remaining with
  | zero =>
      rw [List.eq_nil_of_length_eq_zero (Nat.le_zero.1 enough)]
      rfl
  | succ fuel ih =>
      rw [msetBorrowedPairs]
      rcases token_cases remaining with ⟨none, empty⟩ | ⟨key, rest, first⟩
      · rw [none, empty]
        rfl
      · rw [first.tokens_eq, List.length_cons] at enough
        simp only [first.filled, first.split, first.tokens_eq, first.token_filled, Bool.false_eq_true,
          if_false]
        rcases token_cases rest with ⟨none, empty⟩ | ⟨value, rest, second⟩
        · rw [none, empty]
          rfl
        · rw [second.tokens_eq, List.length_cons] at enough
          simp only [second.filled, second.split, second.tokens_eq, Bool.false_eq_true, if_false, pairsOf]
          rw [ih rest (by omega)]
          cases pairsOf (tokens rest) with
          | none => rfl
          | some pairs => rfl

theorem parseMsetBorrowed_tokens (rest : Bytes) :
    parseMsetBorrowed rest =
      msetArguments "MSET requires at least 2 arguments: MSET <key> <value>"
        "MSET requires even number of arguments" .mset (tokens rest) := by
  have count : (tokens rest).length ≤ (trim rest).length := by
    rw [← tokens_trim]
    exact words_length_le _
  simp only [parseMsetBorrowed, trim_isEmpty, msetBorrowedPairs_tokens _ _ count, msetArguments]
  match tokens rest with
  | [] => rfl
  | [_] => rfl
  | key :: value :: args =>
      simp only [pairsOf]
      cases pairsOf args with
      | none => rfl
      | some pairs => rfl

theorem parseNoArgumentsBorrowed_tokens (rest : Bytes) (cmdName : String) (c : ParsedCommand) :
    parseNoArgumentsBorrowed rest cmdName c = noArguments cmdName c (tokens rest) := by
  unfold parseNoArgumentsBorrowed
  rw [trim_isEmpty]
  cases tokens rest with
  | nil => rfl
  | cons extra more => rfl

/-- What the zero-copy parser makes of a verb's arguments. -/
def borrowedArguments : Command → List Bytes → Except ParseError ParsedCommand
  | .ping, _ => .ok .ping
  | .get _, args => singleKeyArguments "GET requires exactly 1 argument: GET <key>" .get args
  | .set .., args => setBorrowedArguments args
  | .del _, args => singleKeyArguments "DEL requires exactly 1 argument: DEL <key>" .del args
  | .incr _, args => singleKeyArguments "INCR requires exactly 1 argument: INCR <key>" .incr args
  | .info, _ => .ok .info
  | .dbSize, _ => .ok .dbSize
  | .exists _, args => singleKeyArguments "Command requires exactly 1 argument" .exists args
  | .ttl _, args => singleKeyArguments "Command requires exactly 1 argument" .ttl args
  | .expire .., args => expireBorrowedArguments args
  | .flushDb, args => noArguments "FLUSHDB" .flushDb args
  | .keys, args => noArguments "KEYS" .keys args
  | .mget _, args => mgetArguments "MGET requires at least 1 key" .mget args
  | .mset _, args =>
      msetArguments "MSET requires at least 2 arguments: MSET <key> <value>"
        "MSET requires even number of arguments" .mset args

/-- The parser of a verb's arguments. -/
def argumentParserBorrowed : Command → Bytes → Except ParseError ParsedCommand
  | .ping, _ => .ok .ping
  | .get _, rest => parseGetBorrowed rest
  | .set .., rest => parseSetBorrowed rest
  | .del _, rest => parseDelBorrowed rest
  | .incr _, rest => parseIncrBorrowed rest
  | .info, _ => .ok .info
  | .dbSize, _ => .ok .dbSize
  | .exists _, rest => parseSingleKeyBorrowed rest .exists
  | .ttl _, rest => parseSingleKeyBorrowed rest .ttl
  | .expire .., rest => parseExpireBorrowed rest
  | .flushDb, rest => parseNoArgumentsBorrowed rest "FLUSHDB" .flushDb
  | .keys, rest => parseNoArgumentsBorrowed rest "KEYS" .keys
  | .mget _, rest => parseMgetBorrowed rest
  | .mset _, rest => parseMsetBorrowed rest

theorem parseLineBorrowed_token {line verb rest : Bytes} {c : Command} (first : Token line verb rest)
    (spelled : eqIgnoreAsciiCase verb (ascii (verbOf c)) = true) :
    parseLineBorrowed (trim line) = argumentParserBorrowed c rest := by
  simp only [parseLineBorrowed, first.split, eqIgnoreAsciiCase_congr spelled]
  cases c <;> simp +decide only [verbOf, argumentParserBorrowed, if_true, if_false]

theorem argumentParserBorrowed_tokens (c : Command) (rest : Bytes) :
    argumentParserBorrowed c rest = borrowedArguments c (tokens rest) := by
  cases c with
  | ping | info | dbSize => rfl
  | get _ | del _ | incr _ | «exists» _ | ttl _ => exact singleKeyBorrowed_tokens rest _ _
  | set _ _ _ => exact parseSetBorrowed_tokens rest
  | expire _ _ => exact parseExpireBorrowed_tokens rest
  | flushDb | keys => exact parseNoArgumentsBorrowed_tokens rest _ _
  | mget _ => exact parseMgetBorrowed_tokens rest
  | mset _ => exact parseMsetBorrowed_tokens rest

/-- The zero-copy parser on a line whose verb is known. -/
theorem parseLineBorrowed_spelled {line verb : Bytes} {args : List Bytes} {c : Command}
    (split : tokens line = verb :: args) (spelled : eqIgnoreAsciiCase verb (ascii (verbOf c)) = true) :
    parseLineBorrowed (trim line) = borrowedArguments c args := by
  obtain ⟨rest, first, rfl⟩ := token_of_tokens split
  rw [parseLineBorrowed_token first spelled, argumentParserBorrowed_tokens]

theorem parseLineBorrowed_unknown {line verb : Bytes} {args : List Bytes}
    (split : tokens line = verb :: args) (unknown : UnknownVerb verb) :
    parseLineBorrowed (trim line) = .error (.unknownCommand (fromUtf8Lossy verb)) := by
  obtain ⟨rest, first, rfl⟩ := token_of_tokens split
  simp only [UnknownVerb, verbs, List.forall_mem_cons] at unknown
  simp only [parseLineBorrowed, first.split, unknown, Bool.false_eq_true, if_false]

end ZetDb.Protocol
