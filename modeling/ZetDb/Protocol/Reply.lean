/-
# Protocol.Reply -- the replies as a client reads them

A strict reader of RESP replies: `+line`, `-line`, `:integer`, `$len data` or
`$-1`, and `*n` of bulk strings.  Numbers are canonical decimals, and a line has
no CR or LF before its CRLF.  Every part is a scanner, so the laws of
`Theory.Stream` put the reader together.

What `write_to_resp` writes for a response is one reply that decodes to it
(`oneReply_of_unbroken`), unless the text of an error breaks its line
(`OneReply.unbroken`).
-/
import ZetDb.Protocol.Response
import ZetDb.Theory.Stream

namespace ZetDb.Protocol

set_option autoImplicit false

open ZetDb.Theory.Wire ZetDb.Theory.Text ZetDb.Theory.Stream ZetDb.Domain

inductive Reply where
  | simple (line : Bytes)
  | error (line : Bytes)
  | integer (n : Int)
  | bulk (data : Option Bytes)
  | array (items : List (Option Bytes))
  deriving DecidableEq, Repr

abbrev ReplyReader (α : Type) := Scanner UInt8 Unit α

/-! ## The grammar -/

def isBreak (b : UInt8) : Bool := b == 13 || b == 10

/-- The bytes before a CRLF.  A CR or LF of their own is an error. -/
def readLine : ReplyReader Bytes := fun buf =>
  let line := buf.takeWhile fun b => !isBreak b
  match buf.drop line.length with
  | 13 :: 10 :: _ => .ok (some (line, line.length + 2))
  | [] => .ok none
  | [13] => .ok none
  | _ => .error ()

def readByte : ReplyReader UInt8
  | [] => .ok none
  | b :: _ => .ok (some (b, 1))

/-- The numeral that prints as the text. -/
def canonicalNat (text : Bytes) : Except Unit Nat :=
  match parseDigits text with
  | some n => if decimal n = text then .ok n else .error ()
  | none => .error ()

def canonicalInt (text : Bytes) : Except Unit Int :=
  match parseSigned 64 text with
  | some n => if decimalInt n = text then .ok n else .error ()
  | none => .error ()

/-- As many bytes as announced, and a CRLF. -/
def readData (n : Nat) : ReplyReader Bytes := fun buf =>
  if buf.length < n + 2 then .ok none
  else if (buf.drop n).take 2 = crlf then .ok (some (buf.take n, n + 2))
  else .error ()

/-- A bulk string behind its `$`. -/
def readBulk : ReplyReader (Option Bytes) :=
  readLine >>= fun line =>
    if line = ascii "-1" then pure none
    else Scanner.lift (canonicalNat line) >>= fun n => readData n >>= fun data => pure (some data)

def readItem : ReplyReader (Option Bytes) :=
  readByte >>= fun marker => if marker = 36 then readBulk else Scanner.fail ()

def readReply : ReplyReader Reply :=
  readByte >>= fun marker =>
    if marker = 43 then readLine >>= fun line => pure (.simple line)
    else if marker = 45 then readLine >>= fun line => pure (.error line)
    else if marker = 58 then
      readLine >>= fun line => Scanner.lift (canonicalInt line) >>= fun n => pure (.integer n)
    else if marker = 36 then readBulk >>= fun data => pure (.bulk data)
    else if marker = 42 then
      readLine >>= fun line => Scanner.lift (canonicalNat line) >>= fun n =>
        readItem.times n >>= fun items => pure (.array items)
    else Scanner.fail ()

/-! ## Kind and payload -/

/-- The text behind a known front. -/
def behind (front text : Bytes) : Option Bytes :=
  if front.isPrefixOf text then some (text.drop front.length) else none

def decodeError (line : Bytes) : Option ResponseError :=
  ((behind (ascii "ERR unknown command '") line).bind fun quoted =>
      if quoted.getLast? = some 39 then some (.unknownCommand quoted.dropLast) else none) <|>
    (behind (ascii "ERR syntax: ") line).map .syntaxError <|>
    (behind (ascii "ERR type: ") line).map .typeError <|>
    (behind (ascii "ERR not found: ") line).map .notFound <|>
    (behind (ascii "ERR internal: ") line).map .internalError

def Reply.decode : Reply → Option Response
  | .simple line =>
      if line = ascii "PONG" then some .pong else if line = ascii "OK" then some .ok else none
  | .error line => (decodeError line).map .error
  | .integer n => some (.integer n)
  | .bulk data => some (.value data)
  | .array items => some (.array items)

/-- The bytes are one reply with nothing left over, and it is the response. -/
def OneReply (bytes : Bytes) (r : Response) : Prop :=
  ∃ reply, readReply bytes = .ok (some (reply, bytes.length)) ∧ reply.decode = some r

/-! ## What the reader reads -/

section Reads

theorem readByte_reads (b : UInt8) : Reads readByte [b] b where
  whole := fun _ => rfl
  torn := by
    intro seen before strict
    rcases List.prefix_cons_iff.1 before with rfl | ⟨rest, rfl, nil⟩
    · rfl
    · exact absurd (congrArg _ (List.prefix_nil.1 nil)) strict

/-- A marker byte decides how to go on. -/
theorem Reads.marked {α : Type} {f : UInt8 → ReplyReader α} {b : UInt8} {code : Bytes} {a : α}
    (rest : Reads (f b) code a) : Reads (readByte >>= f) (b :: code) a :=
  (readByte_reads b).bind rest

theorem takeWhile_line {line : Bytes} (plain : ∀ b ∈ line, isBreak b = false) (rest : Bytes)
    (stops : ∀ b ∈ rest.head?, isBreak b = true) :
    (line ++ rest).takeWhile (fun b => !isBreak b) = line := by
  induction line with
  | nil =>
      cases rest with
      | nil => rfl
      | cons b rest => simp [stops b rfl]
  | cons b line ih =>
      have first : isBreak b = false := plain b (by simp)
      simp [first, ih fun c inside => plain c (by simp [inside])]

theorem readLine_reads {line : Bytes} (plain : ∀ b ∈ line, isBreak b = false) :
    Reads readLine (line ++ crlf) line where
  whole := by
    intro rest
    have taken := takeWhile_line plain (crlf ++ rest) (by simp [crlf, isBreak])
    rw [List.append_assoc]
    unfold readLine
    simp only [taken, List.drop_left]
    simp [crlf]
  torn := by
    intro seen before strict
    obtain ⟨line', rest, rfl, plain', short⟩ : ∃ line' rest, seen = line' ++ rest ∧
        (∀ b ∈ line', isBreak b = false) ∧ (rest = [] ∨ rest = [13]) := by
      rcases strictPrefix_append before strict with ⟨inLine, -⟩ | ⟨rest, rfl, inEnd, cut⟩
      · exact ⟨seen, [], by simp, fun b inside => plain b (inLine.subset inside), .inl rfl⟩
      · refine ⟨line, rest, rfl, plain, ?_⟩
        match rest, inEnd, cut with
        | [], _, _ => exact .inl rfl
        | [b], inEnd, _ =>
            rw [(List.cons_prefix_cons.1 inEnd).1]
            exact .inr rfl
        | b :: c :: more, inEnd, cut =>
            exact absurd (inEnd.eq_of_length (Nat.le_antisymm inEnd.length_le (by simp [crlf]))) cut
    have taken := takeWhile_line plain' rest (by rcases short with rfl | rfl <;> decide +kernel)
    unfold readLine
    simp only [taken, List.drop_left]
    rcases short with rfl | rfl <;> rfl

theorem decimal_plain (n : Nat) : ∀ b ∈ decimal n, isBreak b = false := by
  intro b inside
  have digit := decimal_digits n b inside
  by_contra broken
  simp only [isBreak, Bool.or_eq_false_iff, beq_eq_false_iff_ne, not_and_or, not_not] at broken
  rcases broken with rfl | rfl <;> exact absurd digit (by decide)

theorem decimalInt_plain (n : Int) : ∀ b ∈ decimalInt n, isBreak b = false := by
  unfold decimalInt
  split
  · exact List.forall_mem_cons.2 ⟨rfl, decimal_plain _⟩
  · exact decimal_plain _

theorem canonicalNat_decimal (n : Nat) : canonicalNat (decimal n) = .ok n := by
  simp [canonicalNat, parseDigits_decimal]

theorem canonicalInt_decimalInt {n : Int} (low : -(2 ^ 63 : Int) ≤ n) (high : n < 2 ^ 63) :
    canonicalInt (decimalInt n) = .ok n := by
  have printed : parseSigned 64 (decimalInt n) = some n := parseSigned_decimalInt low high
  simp [canonicalInt, printed]

theorem readData_reads (data : Bytes) : Reads (readData data.length) (data ++ crlf) data where
  whole := by
    intro rest
    have enough : ¬ (data ++ crlf ++ rest).length < data.length + 2 := by simp [crlf]
    rw [readData, if_neg enough, List.append_assoc, List.drop_left, List.take_left]
    simp [crlf]
  torn := by
    intro seen before strict
    have short := strictPrefix_length before strict
    rw [List.length_append] at short
    exact if_pos short

theorem decimal_ne_null (n : Nat) : decimal n ≠ ascii "-1" := by
  intro same
  have digit := decimal_digits n 45 (by rw [same]; decide)
  exact absurd digit (by decide)

theorem itemBytes_eq (item : Option Bytes) : ∃ code, itemBytes item = 36 :: code ∧
    Reads readBulk code item := by
  cases item with
  | none =>
      refine ⟨ascii "-1" ++ crlf, by decide, ?_⟩
      rw [← List.append_nil (ascii "-1" ++ crlf)]
      refine (readLine_reads (by decide +kernel)).bind ?_
      rw [if_pos rfl]
      exact Reads.pure none
  | some data =>
      refine ⟨decimal data.length ++ crlf ++ (data ++ crlf), by simp [itemBytes, bulkString, ascii], ?_⟩
      refine (readLine_reads (decimal_plain _)).bind ?_
      rw [if_neg (decimal_ne_null _), canonicalNat_decimal]
      exact (Reads.pure data.length).bind ((readData_reads data).map some)

theorem readItem_reads (item : Option Bytes) : Reads readItem (itemBytes item) item := by
  obtain ⟨code, same, reads⟩ := itemBytes_eq item
  rw [same]
  exact Reads.marked reads

end Reads

/-! ## Responses -/

/-- The line of an error, without its marker and its CRLF. -/
def ResponseError.line : ResponseError → Bytes
  | .unknownCommand cmd => ascii "ERR unknown command '" ++ cmd ++ ascii "'"
  | .syntaxError msg => ascii "ERR syntax: " ++ msg
  | .typeError msg => ascii "ERR type: " ++ msg
  | .notFound key => ascii "ERR not found: " ++ key
  | .internalError msg => ascii "ERR internal: " ++ msg

theorem ResponseError.bytes_eq (e : ResponseError) : e.bytes = 45 :: (e.line ++ crlf) := by
  cases e with
  | unknownCommand cmd => simp [ResponseError.bytes, ResponseError.line, ascii, crlf]
  | _ => rfl

theorem decodeError_line (e : ResponseError) : decodeError e.line = some e := by
  cases e with
  | unknownCommand cmd =>
      have rest : behind (ascii "ERR unknown command '") (ResponseError.unknownCommand cmd).line =
          some (cmd ++ ascii "'") := by
        simp [behind, ResponseError.line, ascii]
      have quote : ascii "'" = [39] := rfl
      simp [decodeError, rest, quote]
  | _ => rfl

/-- An integer of 64 bits, an error whose line is not broken, or anything else. -/
def Unbroken : Response → Prop
  | .integer n => -(2 ^ 63 : Int) ≤ n ∧ n < 2 ^ 63
  | .error e => ∀ b ∈ e.line, isBreak b = false
  | _ => True

/-- The reply a response is written as. -/
def Response.reply : Response → Reply
  | .pong => .simple (ascii "PONG")
  | .ok => .simple (ascii "OK")
  | .value data => .bulk data
  | .integer n => .integer n
  | .error e => .error e.line
  | .array items => .array items

theorem Response.decode_reply (r : Response) : r.reply.decode = some r := by
  cases r with
  | error e => simp [Response.reply, Reply.decode, decodeError_line]
  | _ => rfl

theorem readReply_reads {r : Response} (unbroken : Unbroken r) :
    Reads readReply r.writeToResp r.reply := by
  cases r with
  | pong =>
      have line : Reads readLine (ascii "PONG" ++ crlf) (ascii "PONG") := readLine_reads (by decide +kernel)
      exact Reads.marked (line.map Reply.simple)
  | ok =>
      have line : Reads readLine (ascii "OK" ++ crlf) (ascii "OK") := readLine_reads (by decide +kernel)
      exact Reads.marked (line.map Reply.simple)
  | value data =>
      have same : (Response.value data).writeToResp = itemBytes data := by cases data <;> rfl
      obtain ⟨code, split, reads⟩ := itemBytes_eq data
      rw [same, split]
      exact Reads.marked (reads.map Reply.bulk)
  | integer n =>
      have same : (Response.integer n).writeToResp = 58 :: (decimalInt n ++ crlf ++ []) := by
        simp [Response.writeToResp, Response.writeToImpl, ascii]
      rw [same]
      refine Reads.marked ((readLine_reads (decimalInt_plain n)).bind ?_)
      rw [canonicalInt_decimalInt unbroken.1 unbroken.2]
      exact (Reads.pure n).map Reply.integer
  | error e =>
      rw [Response.writeToResp, Response.writeToImpl, e.bytes_eq]
      exact Reads.marked ((readLine_reads unbroken).map Reply.error)
  | array items =>
      have same : (Response.array items).writeToResp =
          42 :: (decimal items.length ++ crlf ++ ([] ++ items.flatMap itemBytes)) := by
        simp only [Response.writeToResp, Response.writeToImpl, bulkArray]
        simp [ascii]
        rfl
      rw [same]
      refine Reads.marked ((readLine_reads (decimal_plain _)).bind ?_)
      rw [canonicalNat_decimal]
      refine (Reads.pure items.length).bind ?_
      exact (Reads.times fun item _ => readItem_reads item).map Reply.array

theorem takeWhile_broken {line : Bytes} (broken : ∃ b ∈ line, isBreak b = true) (rest : Bytes) :
    ((line ++ rest).takeWhile fun b => !isBreak b).length < line.length := by
  induction line with
  | nil => simp at broken
  | cons c line ih =>
      by_cases first : isBreak c = true
      · simp [first]
      · have later : ∃ b ∈ line, isBreak b = true := by simpa [first] using broken
        simpa [first] using ih later

/-- A broken line is read to its break at most. -/
theorem readLine_broken {line : Bytes} (broken : ∃ b ∈ line, isBreak b = true) {rest read : Bytes} {n : Nat}
    (answer : readLine (line ++ rest) = .ok (some (read, n))) : n < line.length + 2 := by
  have short := takeWhile_broken broken rest
  unfold readLine at answer
  simp only at answer
  split at answer
  · cases answer
    omega
  all_goals cases answer

/-- An unbroken response is written as one reply that decodes to it. -/
theorem oneReply_of_unbroken {r : Response} (unbroken : Unbroken r) : OneReply r.writeToResp r := by
  have read := (readReply_reads unbroken).whole []
  rw [List.append_nil] at read
  exact ⟨r.reply, read, r.decode_reply⟩

/-- Only unbroken errors are: the reply ends at the first break. -/
theorem OneReply.unbroken {e : ResponseError} (one : OneReply (Response.error e).writeToResp (.error e)) :
    ∀ b ∈ e.line, isBreak b = false := by
  by_contra broken
  have broken : ∃ b ∈ e.line, isBreak b = true := by simpa using broken
  obtain ⟨reply, read, -⟩ := one
  rw [Response.writeToResp, Response.writeToImpl, e.bytes_eq] at read
  obtain ⟨marker, one, n, first, second, total⟩ := bind_eq_some read
  cases first
  obtain ⟨line, k, none, lineRead, last, rfl⟩ := bind_eq_some second
  cases last
  have ends := readLine_broken broken lineRead
  simp only [crlf, List.length_cons, List.length_append, List.length_nil] at total
  omega

end ZetDb.Protocol
