/-
# Protocol.ParserBorrowed -- the zero-copy parser of inline lines

Embeds `protocol/parser_borrowed.rs`, the parser of the inline loop.  It finds
the line end and splits the tokens on its own, with texts and an option syntax
that differ from `Protocol.Parser`.
-/
import ZetDb.Protocol.Parser

namespace ZetDb.Protocol

set_option autoImplicit false

open ZetDb.Theory.Wire ZetDb.Theory.Text ZetDb.Domain

abbrev FrameResultBorrowed := Frame ParsedCommand

/-- A `u64` accumulated over digits, wrapping. -/
def foldU64 : Nat → Bytes → Option Nat
  | n, [] => some n
  | n, b :: rest => if !isAsciiDigit b then none else foldU64 ((n * 10 + digitValue b) % 2 ^ 64) rest

def parseU64Ascii (buf : Bytes) : Option Nat := if buf.isEmpty then none else foldU64 0 buf

/-- The shape shared by the commands with one key; the text is the only difference. -/
def singleKeyBorrowed (rest : Bytes) (wrong : String) (make : Bytes → ParsedCommand) :
    Except ParseError ParsedCommand :=
  let rest := trim rest
  if rest.isEmpty then .error (.syntaxText wrong)
  else
    let (key, trailing) := splitFirstWord rest
    if !(trim trailing).isEmpty then .error (.syntaxText wrong)
    else .ok (make key)

def parseGetBorrowed (rest : Bytes) : Except ParseError ParsedCommand :=
  singleKeyBorrowed rest "GET requires exactly 1 argument: GET <key>" .get

def parseDelBorrowed (rest : Bytes) : Except ParseError ParsedCommand :=
  singleKeyBorrowed rest "DEL requires exactly 1 argument: DEL <key>" .del

def parseIncrBorrowed (rest : Bytes) : Except ParseError ParsedCommand :=
  singleKeyBorrowed rest "INCR requires exactly 1 argument: INCR <key>" .incr

def parseSingleKeyBorrowed (rest : Bytes) (make : Bytes → ParsedCommand) :
    Except ParseError ParsedCommand :=
  singleKeyBorrowed rest "Command requires exactly 1 argument" make

/-- The fourth token is read as a number of seconds; what is no number is dropped. -/
def parseSetBorrowed (rest : Bytes) : Except ParseError ParsedCommand :=
  let few := ParseError.syntaxText "SET requires at least 2 arguments: SET <key> <value>"
  let rest := trim rest
  if rest.isEmpty then .error few
  else
    let (key, valuePart) := splitFirstWord rest
    if key.isEmpty then .error few
    else
      let valuePart := trim valuePart
      if valuePart.isEmpty then .error few
      else
        let (value, trailing) := splitFirstWord valuePart
        let trailing := trim trailing
        if !trailing.isEmpty then
          let (ttlStr, afterTtl) := splitFirstWord trailing
          if !(trim afterTtl).isEmpty then
            .error (.syntaxText "SET requires at most 4 arguments: SET <key> <value> [EX <seconds>]")
          else .ok (.set key value ((parseU64Ascii ttlStr).map Duration.fromSecs))
        else .ok (.set key value none)

def parseExpireBorrowed (rest : Bytes) : Except ParseError ParsedCommand :=
  let few := ParseError.syntaxText "EXPIRE requires exactly 2 arguments: EXPIRE <key> <seconds>"
  let rest := trim rest
  if rest.isEmpty then .error few
  else
    let (key, secondsPart) := splitFirstWord rest
    let secondsPart := trim secondsPart
    if secondsPart.isEmpty then .error few
    else
      match parseU64Ascii secondsPart with
      | some seconds => .ok (.expire key seconds)
      | none => .error (.syntaxText "EXPIRE: seconds must be a positive integer")

/-- The loop of MGET; every round takes at least one byte of `remaining`. -/
def mgetBorrowedLoop : Nat → Bytes → List Bytes
  | 0, _ => []
  | fuel + 1, remaining =>
      if remaining.isEmpty then []
      else
        let (key, trailing) := splitFirstWord remaining
        let keys := mgetBorrowedLoop fuel (trim trailing)
        if !key.isEmpty then key :: keys else keys

def parseMgetBorrowed (rest : Bytes) : Except ParseError ParsedCommand :=
  let few := ParseError.syntaxText "MGET requires at least 1 key"
  let rest := trim rest
  if rest.isEmpty then .error few
  else
    let keys := mgetBorrowedLoop rest.length rest
    if keys.isEmpty then .error few else .ok (.mget keys)

/-- The loop of MSET; every round takes at least two bytes of `remaining`. -/
def msetBorrowedPairs : Nat → Bytes → Except ParseError (List (Bytes × Bytes))
  | 0, _ => .ok []
  | fuel + 1, remaining =>
      if remaining.isEmpty then .ok []
      else
        let (key, trailing) := splitFirstWord remaining
        if key.isEmpty then .ok []
        else
          let remaining := trim trailing
          if remaining.isEmpty then .error (.syntaxText "MSET requires even number of arguments")
          else
            let (value, trailing) := splitFirstWord remaining
            match msetBorrowedPairs fuel (trim trailing) with
            | .ok pairs => .ok ((key, value) :: pairs)
            | .error e => .error e

def parseMsetBorrowed (rest : Bytes) : Except ParseError ParsedCommand :=
  let few := ParseError.syntaxText "MSET requires at least 2 arguments: MSET <key> <value>"
  let rest := trim rest
  if rest.isEmpty then .error few
  else
    match msetBorrowedPairs rest.length rest with
    | .error e => .error e
    | .ok pairs => if pairs.isEmpty then .error few else .ok (.mset pairs)

def parseNoArgumentsBorrowed (rest : Bytes) (cmdName : String) (c : ParsedCommand) :
    Except ParseError ParsedCommand :=
  if !(trim rest).isEmpty then .error (.syntaxText (cmdName ++ " takes no arguments")) else .ok c

/-- The switch on the verb of a non-empty trimmed line. -/
def parseLineBorrowed (input : Bytes) : Except ParseError ParsedCommand :=
  let (verb, rest) := splitFirstWord input
  if eqIgnoreAsciiCase verb (ascii "GET") then parseGetBorrowed rest
  else if eqIgnoreAsciiCase verb (ascii "SET") then parseSetBorrowed rest
  else if eqIgnoreAsciiCase verb (ascii "PING") then .ok .ping
  else if eqIgnoreAsciiCase verb (ascii "DEL") then parseDelBorrowed rest
  else if eqIgnoreAsciiCase verb (ascii "INCR") then parseIncrBorrowed rest
  else if eqIgnoreAsciiCase verb (ascii "INFO") then .ok .info
  else if eqIgnoreAsciiCase verb (ascii "DBSIZE") then .ok .dbSize
  else if eqIgnoreAsciiCase verb (ascii "EXISTS") then parseSingleKeyBorrowed rest .exists
  else if eqIgnoreAsciiCase verb (ascii "TTL") then parseSingleKeyBorrowed rest .ttl
  else if eqIgnoreAsciiCase verb (ascii "EXPIRE") then parseExpireBorrowed rest
  else if eqIgnoreAsciiCase verb (ascii "FLUSHDB") then parseNoArgumentsBorrowed rest "FLUSHDB" .flushDb
  else if eqIgnoreAsciiCase verb (ascii "KEYS") then parseNoArgumentsBorrowed rest "KEYS" .keys
  else if eqIgnoreAsciiCase verb (ascii "MGET") then parseMgetBorrowed rest
  else if eqIgnoreAsciiCase verb (ascii "MSET") then parseMsetBorrowed rest
  else .error (.unknownCommand (fromUtf8Lossy verb))

/-- Where the line stops: before its CR LF or, for a bare LF, one byte before it
(`saturating_sub`).  A CR that is not followed by LF is an unfinished line. -/
def lineStop (input : Bytes) : Option Nat :=
  match input.findIdx? fun b => b == 13 || b == 10 with
  | none => none
  | some p =>
      if p + 1 < input.length ∧ input[p]? = some 13 ∧ input[p + 1]? = some 10 then some p
      else if input[p]? = some 10 then some (p - 1)
      else none

def parseInlineBorrowed (originalInput : Bytes) : Except ParseError FrameResultBorrowed :=
  match lineStop originalInput with
  | none => .ok .incomplete
  | some pos =>
      let commandEnd := pos + 2
      let input := trim (originalInput.take pos)
      if input.isEmpty then .ok (.skip commandEnd)
      else
        match parseLineBorrowed input with
        | .ok c => .ok (.complete commandEnd c)
        | .error e => .error e

/-! ## A line takes input -/

theorem parseInlineBorrowed_takesInput (buf : Bytes) : TakesInput buf (parseInlineBorrowed buf) := by
  unfold parseInlineBorrowed
  constructor
  · intro consumed c parsed
    split at parsed
    · cases parsed
    · simp only at parsed
      split at parsed
      · cases parsed
      · split at parsed <;> cases parsed
        omega
  · intro consumed parsed
    split at parsed
    · cases parsed
    · simp only at parsed
      split at parsed
      · cases parsed
        omega
      · split at parsed <;> cases parsed
  · rintro e parsed rfl
    cases parsed

end ZetDb.Protocol
