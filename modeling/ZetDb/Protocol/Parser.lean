/-
# Protocol.Parser -- the owned parser of inline lines and RESP frames

Embeds `protocol/parser.rs`.  Strings of the source are byte strings here:
`bytes_to_string` copies the client's bytes unchecked, so a key is whatever was
sent.  The RESP readers are scanners: `Ok(None)` and `FrameResult::Incomplete`
are a request for more, and `pos += n` is the scanner's own advance.

Integer arithmetic wraps, as in the release build.
-/
import ZetDb.Theory.Stream
import ZetDb.Protocol.Response
import Mathlib.Data.List.DropRight

namespace ZetDb.Protocol

set_option autoImplicit false

open ZetDb.Theory.Wire ZetDb.Theory.Text ZetDb.Theory.Stream ZetDb.Domain

inductive ParseError where
  | emptyCommand
  | unknownCommand (verb : Bytes)
  | syntaxError (msg : Bytes)
  deriving DecidableEq, Repr

/-- What a frame parser says about the front of the buffer; the two parsers of the
source have a type of this shape each. -/
inductive Frame (γ : Type) where
  | complete (consumed : Nat) (command : γ)
  | incomplete
  | skip (consumed : Nat)
  deriving DecidableEq, Repr

abbrev FrameResult := Frame Command

/-- A syntax error with a fixed text. -/
def ParseError.syntaxText (msg : String) : ParseError := .syntaxError (ascii msg)

instance {γ : Type} [DecidableEq γ] : DecidableEq (Except ParseError (Frame γ))
  | .ok a, .ok b => decidable_of_iff (a = b) (by simp)
  | .error a, .error b => decidable_of_iff (a = b) (by simp)
  | .ok _, .error _ => isFalse (by simp)
  | .error _, .ok _ => isFalse (by simp)

/-! ## Byte helpers -/

def isWhitespace (b : UInt8) : Bool := b == 32 || b == 9 || b == 13 || b == 10

def trim (buf : Bytes) : Bytes := (buf.dropWhile isWhitespace).rdropWhile isWhitespace

def splitFirstWord (buf : Bytes) : Bytes × Bytes :=
  match buf.findIdx? isWhitespace with
  | some i => (buf.take i, buf.drop i)
  | none => (buf, [])

/-- The index of the first occurrence of a byte. -/
def memchr (b : UInt8) (buf : Bytes) : Option Nat := buf.findIdx? (· == b)

/-- A byte as a character, in UTF-8. -/
def charBytes (b : UInt8) : Bytes :=
  if b < 0x80 then [b] else [(0xC0 : UInt8) ||| (b >>> 6), (0x80 : UInt8) ||| (b &&& 0x3F)]

/-! ## Inline lines -/

/-- The shape shared by the commands with one key. -/
def parseSingleKeyBytes (rest : Bytes) (cmdName : String) (make : Key → Command) :
    Except ParseError Command :=
  let wrong := ParseError.syntaxText (cmdName ++ " requires exactly 1 argument: " ++ cmdName ++ " <key>")
  let rest := trim rest
  if rest.isEmpty then .error wrong
  else
    let (key, trailing) := splitFirstWord rest
    if !(trim trailing).isEmpty then .error wrong
    else .ok (make key)

def parseGetBytes (rest : Bytes) : Except ParseError Command := parseSingleKeyBytes rest "GET" .get
def parseDelBytes (rest : Bytes) : Except ParseError Command := parseSingleKeyBytes rest "DEL" .del
def parseIncrBytes (rest : Bytes) : Except ParseError Command := parseSingleKeyBytes rest "INCR" .incr

/-- `EX <seconds>` or `PX <millis>`. -/
def parseTtlOption (input : Bytes) : Except ParseError (Option Duration) :=
  let (opt, rest) := splitFirstWord input
  let rest := trim rest
  if eqIgnoreAsciiCase opt (ascii "EX") then
    let (val, trailing) := splitFirstWord rest
    if !(trim trailing).isEmpty then .error (.syntaxText "SET EX: unexpected extra arguments")
    else
      match parseUnsigned 64 val with
      | some secs => .ok (some (Duration.fromSecs secs))
      | none => .error (.syntaxText "SET EX: expected integer seconds")
  else if eqIgnoreAsciiCase opt (ascii "PX") then
    let (val, trailing) := splitFirstWord rest
    if !(trim trailing).isEmpty then .error (.syntaxText "SET PX: unexpected extra arguments")
    else
      match parseUnsigned 64 val with
      | some millis => .ok (some (Duration.fromMillis millis))
      | none => .error (.syntaxText "SET PX: expected integer milliseconds")
  else .error (.syntaxError (ascii "SET: unknown option '" ++ fromUtf8Lossy opt ++ ascii "'"))

def parseSetBytes (rest : Bytes) : Except ParseError Command :=
  let few := ParseError.syntaxText
    "SET requires at least 2 arguments: SET <key> <value> [EX seconds | PX millis]"
  let rest := trim rest
  if rest.isEmpty then .error few
  else
    let (key, rest) := splitFirstWord rest
    if key.isEmpty then .error few
    else
      let rest := trim rest
      if rest.isEmpty then .error few
      else
        let (value, rest) := splitFirstWord rest
        let trailing := trim rest
        if !trailing.isEmpty then
          match parseTtlOption trailing with
          | .ok lifetime => .ok (.set key value lifetime)
          | .error e => .error e
        else .ok (.set key value none)

def parseExpireBytes (rest : Bytes) : Except ParseError Command :=
  let few := ParseError.syntaxText "EXPIRE requires 2 arguments: EXPIRE <key> <seconds>"
  let rest := trim rest
  if rest.isEmpty then .error few
  else
    let (key, rest) := splitFirstWord rest
    if key.isEmpty then .error few
    else
      let rest := trim rest
      if rest.isEmpty then .error few
      else
        let (secs, trailing) := splitFirstWord rest
        if !(trim trailing).isEmpty then
          .error (.syntaxText "EXPIRE requires exactly 2 arguments: EXPIRE <key> <seconds>")
        else
          match parseUnsigned 64 secs with
          | some seconds => .ok (.expire key seconds)
          | none => .error (.syntaxText "EXPIRE: seconds must be a positive integer")

/-- The loop of MGET; every round takes at least one byte of `remaining`. -/
def mgetLoop : Nat → Bytes → List Key
  | 0, _ => []
  | fuel + 1, remaining =>
      let remaining := trim remaining
      if remaining.isEmpty then []
      else
        let (key, rest) := splitFirstWord remaining
        key :: mgetLoop fuel rest

def parseMgetBytes (rest : Bytes) : Except ParseError Command :=
  let few := ParseError.syntaxText "MGET requires at least 1 argument: MGET <key> [key ...]"
  let rest := trim rest
  if rest.isEmpty then .error few
  else
    let keys := mgetLoop rest.length rest
    if keys.isEmpty then .error few else .ok (.mget keys)

/-- The loop of MSET; every round takes at least two bytes of `remaining`. -/
def msetPairs : Nat → Bytes → Except ParseError (List (Key × Bytes))
  | 0, _ => .ok []
  | fuel + 1, remaining =>
      let remaining := trim remaining
      if remaining.isEmpty then .ok []
      else
        let (key, rest) := splitFirstWord remaining
        if key.isEmpty then .ok []
        else
          let remaining := trim rest
          if remaining.isEmpty then .error (.syntaxText "MSET requires matching key-value pairs")
          else
            let (value, rest) := splitFirstWord remaining
            match msetPairs fuel rest with
            | .ok pairs => .ok ((key, value) :: pairs)
            | .error e => .error e

def parseMsetBytes (rest : Bytes) : Except ParseError Command :=
  let few := ParseError.syntaxText
    "MSET requires at least 2 arguments: MSET <key> <value> [key value ...]"
  let rest := trim rest
  if rest.isEmpty then .error few
  else
    match msetPairs rest.length rest with
    | .error e => .error e
    | .ok pairs => if pairs.isEmpty then .error few else .ok (.mset pairs)

/-- A verb that takes no arguments and refuses any. -/
def parseNoArguments (rest : Bytes) (cmdName : String) (c : Command) : Except ParseError Command :=
  if !(trim rest).isEmpty then .error (.syntaxText (cmdName ++ " takes no arguments")) else .ok c

def parseBytes (input : Bytes) : Except ParseError Command :=
  let input := trim input
  if input.isEmpty then .error .emptyCommand
  else
    let (verb, rest) := splitFirstWord input
    if eqIgnoreAsciiCase verb (ascii "GET") then parseGetBytes rest
    else if eqIgnoreAsciiCase verb (ascii "SET") then parseSetBytes rest
    else if eqIgnoreAsciiCase verb (ascii "PING") then .ok .ping
    else if eqIgnoreAsciiCase verb (ascii "DEL") then parseDelBytes rest
    else if eqIgnoreAsciiCase verb (ascii "INCR") then parseIncrBytes rest
    else if eqIgnoreAsciiCase verb (ascii "INFO") then .ok .info
    else if eqIgnoreAsciiCase verb (ascii "DBSIZE") then .ok .dbSize
    else if eqIgnoreAsciiCase verb (ascii "EXISTS") then parseSingleKeyBytes rest "EXISTS" .exists
    else if eqIgnoreAsciiCase verb (ascii "TTL") then parseSingleKeyBytes rest "TTL" .ttl
    else if eqIgnoreAsciiCase verb (ascii "EXPIRE") then parseExpireBytes rest
    else if eqIgnoreAsciiCase verb (ascii "FLUSHDB") then parseNoArguments rest "FLUSHDB" .flushDb
    else if eqIgnoreAsciiCase verb (ascii "KEYS") then parseNoArguments rest "KEYS" .keys
    else if eqIgnoreAsciiCase verb (ascii "MGET") then parseMgetBytes rest
    else if eqIgnoreAsciiCase verb (ascii "MSET") then parseMsetBytes rest
    else .error (.unknownCommand (fromUtf8Lossy verb))

def tryParseFrameInline (buf : Bytes) : Except ParseError FrameResult :=
  match memchr 10 buf with
  | none => .ok .incomplete
  | some pos =>
      match parseBytes (buf.take pos) with
      | .ok c => .ok (.complete (pos + 1) c)
      | .error .emptyCommand => .ok (.skip (pos + 1))
      | .error e => .error e

/-! ## RESP frames -/

/-- A RESP reader: an error, a request for more, or a value and its size. -/
abbrev RespReader := Scanner UInt8 ParseError

/-- An `i64` after a wrapping operation. -/
def wrapI64 (n : Int) : Int := Int.bmod n (2 ^ 64)

/-- The loop over the digits of an integer line. -/
def foldDigits : Int → Bytes → Except ParseError Int
  | n, [] => .ok n
  | n, b :: rest =>
      if !isAsciiDigit b then .error (.syntaxText "RESP: expected integer")
      else foldDigits (wrapI64 (n * 10 + digitValue b)) rest

/-- The text between the marker and the line end. -/
def parseLineInt : Bytes → Except ParseError Int
  | [] => .error (.syntaxText "RESP: empty integer")
  | 45 :: digits =>
      if digits.isEmpty then .error (.syntaxText "RESP: invalid negative integer")
      else
        match foldDigits 0 digits with
        | .ok n => .ok (wrapI64 (-n))
        | .error e => .error e
  | digits => foldDigits 0 digits

/-- A line such as `*3\r\n` or `$5\r\n`. -/
def readRespLineInt (marker : UInt8) : RespReader Int := fun buf =>
  match buf with
  | [] => .ok none
  | first :: _ =>
      if first ≠ marker then
        .error (.syntaxError (ascii "RESP: expected '" ++ charBytes marker ++ ascii "', got '" ++
          charBytes first ++ ascii "'"))
      else
        match memchr 10 buf with
        | none => .ok none
        | some pos =>
            let numEnd := if 0 < pos ∧ buf[pos - 1]? = some 13 then pos - 1 else pos
            match parseLineInt ((buf.take numEnd).drop 1) with
            | .ok n => .ok (some (n, pos + 1))
            | .error e => .error e

/-- The data of a bulk string and the two bytes behind it, which are not looked at. -/
def takeBulk (len : Nat) : RespReader Bytes := fun buf =>
  if len + 2 > buf.length then .ok none else .ok (some (buf.take len, len + 2))

/-- `$<len>\r\n<data>\r\n`; a negative length is the null bulk string. -/
def readRespBulk : RespReader Bytes := do
  let len ← readRespLineInt 36
  if len < 0 then pure [] else takeBulk len.toNat

/-- The commands with one key. -/
def respSingleKey (cmdName : String) (make : Key → Command) (argsRemaining : Nat) :
    RespReader Command :=
  if argsRemaining ≠ 1 then
    .fail (.syntaxText (cmdName ++ " requires exactly 1 argument: " ++ cmdName ++ " <key>"))
  else do
    let keyData ← readRespBulk
    pure (make keyData)

def respTtl (optData intData : Bytes) : Except ParseError (Option Duration) :=
  if eqIgnoreAsciiCase optData (ascii "EX") then
    match parseUnsigned 64 intData with
    | some secs => .ok (some (Duration.fromSecs secs))
    | none => .error (.syntaxText "SET EX: expected integer")
  else if eqIgnoreAsciiCase optData (ascii "PX") then
    match parseUnsigned 64 intData with
    | some ms => .ok (some (Duration.fromMillis ms))
    | none => .error (.syntaxText "SET PX: expected integer")
  else .error (.syntaxError (ascii "SET: unknown option '" ++ fromUtf8Lossy optData ++ ascii "'"))

def respSet (argsRemaining : Nat) : RespReader Command :=
  if argsRemaining < 2 then
    .fail (.syntaxText "SET requires at least 2 arguments: SET <key> <value> [EX sec | PX ms]")
  else do
    let keyData ← readRespBulk
    let valData ← readRespBulk
    if argsRemaining - 2 ≥ 2 then do
      let optData ← readRespBulk
      let intData ← readRespBulk
      let lifetime ← Scanner.lift (respTtl optData intData)
      -- skip any remaining args
      let _ ← readRespBulk.times (argsRemaining - 4)
      pure (.set keyData valData lifetime)
    else do
      let _ ← readRespBulk.times (argsRemaining - 2)
      pure (.set keyData valData none)

def respSeconds (secsData : Bytes) : Except ParseError Nat :=
  match parseUnsigned 64 secsData with
  | some seconds => .ok seconds
  | none => .error (.syntaxText "EXPIRE: seconds must be a positive integer")

def respExpire (argsRemaining : Nat) : RespReader Command :=
  if argsRemaining ≠ 2 then
    .fail (.syntaxText "EXPIRE requires 2 arguments: EXPIRE <key> <seconds>")
  else do
    let keyData ← readRespBulk
    let secsData ← readRespBulk
    let seconds ← Scanner.lift (respSeconds secsData)
    pure (.expire keyData seconds)

def respMget (argsRemaining : Nat) : RespReader Command :=
  if argsRemaining < 1 then
    .fail (.syntaxText "MGET requires at least 1 argument: MGET <key> [key ...]")
  else do
    let keys ← readRespBulk.times argsRemaining
    pure (.mget keys)

def respPair : RespReader (Key × Bytes) := do
  let keyData ← readRespBulk
  let valData ← readRespBulk
  pure (keyData, valData)

def respMset (argsRemaining : Nat) : RespReader Command :=
  if argsRemaining < 2 ∨ argsRemaining % 2 ≠ 0 then
    .fail (.syntaxText "MSET requires matching key-value pairs: MSET <key> <value> [key value ...]")
  else do
    let pairs ← respPair.times (argsRemaining / 2)
    pure (.mset pairs)

/-- The switch on the verb. -/
def respCommand (verb : Bytes) (argsRemaining : Nat) : RespReader Command :=
  if eqIgnoreAsciiCase verb (ascii "PING") then pure .ping
  else if eqIgnoreAsciiCase verb (ascii "INFO") then pure .info
  else if eqIgnoreAsciiCase verb (ascii "DBSIZE") then pure .dbSize
  else if eqIgnoreAsciiCase verb (ascii "GET") then respSingleKey "GET" .get argsRemaining
  else if eqIgnoreAsciiCase verb (ascii "SET") then respSet argsRemaining
  else if eqIgnoreAsciiCase verb (ascii "DEL") then respSingleKey "DEL" .del argsRemaining
  else if eqIgnoreAsciiCase verb (ascii "INCR") then respSingleKey "INCR" .incr argsRemaining
  else if eqIgnoreAsciiCase verb (ascii "EXISTS") then respSingleKey "EXISTS" .exists argsRemaining
  else if eqIgnoreAsciiCase verb (ascii "TTL") then respSingleKey "TTL" .ttl argsRemaining
  else if eqIgnoreAsciiCase verb (ascii "EXPIRE") then respExpire argsRemaining
  else if eqIgnoreAsciiCase verb (ascii "FLUSHDB") then pure .flushDb
  else if eqIgnoreAsciiCase verb (ascii "KEYS") then pure .keys
  else if eqIgnoreAsciiCase verb (ascii "MGET") then respMget argsRemaining
  else if eqIgnoreAsciiCase verb (ascii "MSET") then respMset argsRemaining
  else .fail (.unknownCommand verb)

/-- The checks on the array header. -/
def respCount (count : Int) : Except ParseError Nat :=
  if count < 0 then .error (.syntaxText "RESP: null array")
  else if count.toNat > 1024 then .error (.syntaxText "RESP: array too large")
  else if count.toNat = 0 then .error .emptyCommand
  else .ok count.toNat

def parseRespFrame : RespReader Command := do
  let header ← readRespLineInt 42
  let count ← Scanner.lift (respCount header)
  let verb ← readRespBulk
  respCommand verb (count - 1)

def tryParseFrame (buf : Bytes) : Except ParseError FrameResult :=
  match buf with
  | [] => .ok .incomplete
  | first :: _ =>
      if first = 42 then
        match parseRespFrame buf with
        | .ok (some (c, consumed)) => .ok (.complete consumed c)
        | .ok none => .ok .incomplete
        | .error e => .error e
      else tryParseFrameInline buf

/-! ## A frame takes input -/

theorem readRespLineInt_consumes {marker : UInt8} {buf : Bytes} {n : Int} {k : Nat}
    (read : readRespLineInt marker buf = .ok (some (n, k))) : 0 < k := by
  unfold readRespLineInt at read
  split at read
  · cases read
  · split at read
    · cases read
    · split at read
      · cases read
      · simp only at read
        split at read
        · cases read
          omega
        · cases read

/-- The parser's verdict is about input: what it takes is not empty, and it finds
no fault with the empty buffer. -/
structure TakesInput {γ : Type} (buf : Bytes) (verdict : Except ParseError (Frame γ)) : Prop where
  complete : ∀ consumed c, verdict = .ok (.complete consumed c) → 0 < consumed
  skip : ∀ consumed, verdict = .ok (.skip consumed) → 0 < consumed
  error : ∀ e, verdict = .error e → buf ≠ []

theorem tryParseFrameInline_takesInput (buf : Bytes) : TakesInput buf (tryParseFrameInline buf) := by
  unfold tryParseFrameInline
  constructor
  · intro consumed c parsed
    split at parsed
    · cases parsed
    · split at parsed <;> cases parsed
      omega
  · intro consumed parsed
    split at parsed
    · cases parsed
    · split at parsed <;> cases parsed
      omega
  · rintro e parsed rfl
    cases parsed

theorem tryParseFrame_takesInput (buf : Bytes) : TakesInput buf (tryParseFrame buf) := by
  cases buf with
  | nil =>
      constructor
      · intro consumed c parsed
        cases parsed
      · intro consumed parsed
        cases parsed
      · intro e parsed
        cases parsed
  | cons first rest =>
      unfold tryParseFrame
      simp only
      split
      · constructor
        · intro consumed c parsed
          split at parsed
          · rename_i frame
            cases parsed
            obtain ⟨header, n, m, line, -, rfl⟩ := bind_eq_some frame
            have := readRespLineInt_consumes line
            omega
          · cases parsed
          · cases parsed
        · intro consumed parsed
          split at parsed <;> cases parsed
        · exact fun _ _ => List.cons_ne_nil _ _
      · exact tryParseFrameInline_takesInput _

end ZetDb.Protocol
