/-
# Protocol.Response -- replies and their bytes

Embeds `protocol/response.rs`: the reply values and `write_to_impl`, which
appends a reply in inline mode (values as simple strings) or in RESP mode
(values as bulk strings).
-/
import ZetDb.Domain.Command

namespace ZetDb.Protocol

set_option autoImplicit false

open ZetDb.Theory.Wire ZetDb.Theory.Text ZetDb.Domain

def crlf : Bytes := [13, 10]

inductive ResponseError where
  | unknownCommand (cmd : Bytes)
  | syntaxError (msg : Bytes)
  | typeError (msg : Bytes)
  | notFound (key : Bytes)
  | internalError (msg : Bytes)
  deriving DecidableEq, Repr

inductive Response where
  | pong
  | ok
  | value (data : Option Bytes)
  | integer (n : Int)
  | error (e : ResponseError)
  | array (items : List (Option Bytes))
  deriving DecidableEq, Repr

/-- `$<len>\r\n<data>\r\n`. -/
def bulkString (data : Bytes) : Bytes := ascii "$" ++ decimal data.length ++ crlf ++ data ++ crlf

def nullBulk : Bytes := ascii "$-1\r\n"

/-- `*<n>\r\n` and one bulk string per item. -/
def bulkArray (items : List (Option Bytes)) : Bytes :=
  ascii "*" ++ decimal items.length ++ crlf ++
    items.flatMap fun
      | some data => bulkString data
      | none => nullBulk

/-- One item of an array. -/
def itemBytes : Option Bytes → Bytes
  | some data => bulkString data
  | none => nullBulk

def ResponseError.bytes : ResponseError → Bytes
  | .unknownCommand cmd => ascii "-ERR unknown command '" ++ cmd ++ ascii "'\r\n"
  | .syntaxError msg => ascii "-ERR syntax: " ++ msg ++ crlf
  | .typeError msg => ascii "-ERR type: " ++ msg ++ crlf
  | .notFound key => ascii "-ERR not found: " ++ key ++ crlf
  | .internalError msg => ascii "-ERR internal: " ++ msg ++ crlf

namespace Response

def isSuccess : Response → Bool
  | .error _ => false
  | _ => true

def writeToImpl (r : Response) (respMode : Bool) : Bytes :=
  match r with
  | .pong => ascii "+PONG\r\n"
  | .ok => ascii "+OK\r\n"
  | .value (some data) => if respMode then bulkString data else ascii "+" ++ data ++ crlf
  | .value none => nullBulk
  | .integer n => ascii ":" ++ decimalInt n ++ crlf
  | .error e => e.bytes
  | .array items => bulkArray items

def writeTo (r : Response) : Bytes := r.writeToImpl false
def writeToResp (r : Response) : Bytes := r.writeToImpl true

end Response

end ZetDb.Protocol
