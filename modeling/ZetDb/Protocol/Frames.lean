/-
# Protocol.Frames -- the client's RESP frames, and that they are read back

A client sends a request as an array of bulk strings (`respFrame`, the
`resp_frame` of `bin/redis_compare.rs` and the `resp_command` of the tests).  A
`Request` is a command together with the arguments that spell it; it carries the
limits of the protocol: at most 1023 keys, at most 511 pairs, 64-bit times.

`parseRespFrame_reads`: the parser reads the command from every request's frame,
consumes the frame and nothing else, and asks for more on every strict prefix.
The proof follows the parser: the integer line, the bulk string, the arguments
of each verb, the frame.
-/
import ZetDb.Protocol.Parser

namespace ZetDb.Protocol

set_option autoImplicit false

open ZetDb.Theory.Wire ZetDb.Theory.Text ZetDb.Theory.Stream ZetDb.Domain

/-! ## Requests -/

/-- `*<n>\r\n` and the arguments as bulk strings. -/
def respFrame (args : List Bytes) : Bytes :=
  ascii "*" ++ decimal args.length ++ crlf ++ args.flatMap bulkString

def verbOf : Command → String
  | .ping => "PING"
  | .get _ => "GET"
  | .set .. => "SET"
  | .del _ => "DEL"
  | .incr _ => "INCR"
  | .info => "INFO"
  | .dbSize => "DBSIZE"
  | .exists _ => "EXISTS"
  | .ttl _ => "TTL"
  | .expire .. => "EXPIRE"
  | .flushDb => "FLUSHDB"
  | .keys => "KEYS"
  | .mget _ => "MGET"
  | .mset _ => "MSET"

/-- The arguments behind the verb, in the number the command takes. -/
inductive Arguments : Command → List Bytes → Prop where
  | ping : Arguments .ping []
  | get (key : Key) : Arguments (.get key) [key]
  | set (key : Key) (value : Bytes) : Arguments (.set key value none) [key, value]
  | setEx (key : Key) (value opt : Bytes) (secs : Nat)
      (isEx : eqIgnoreAsciiCase opt (ascii "EX") = true) (fits : secs < 2 ^ 64) :
      Arguments (.set key value (some (Duration.fromSecs secs))) [key, value, opt, decimal secs]
  | setPx (key : Key) (value opt : Bytes) (millis : Nat)
      (isPx : eqIgnoreAsciiCase opt (ascii "PX") = true) (fits : millis < 2 ^ 64) :
      Arguments (.set key value (some (Duration.fromMillis millis))) [key, value, opt, decimal millis]
  | del (key : Key) : Arguments (.del key) [key]
  | incr (key : Key) : Arguments (.incr key) [key]
  | info : Arguments .info []
  | dbSize : Arguments .dbSize []
  | exists (key : Key) : Arguments (.exists key) [key]
  | ttl (key : Key) : Arguments (.ttl key) [key]
  | expire (key : Key) (secs : Nat) (fits : secs < 2 ^ 64) :
      Arguments (.expire key secs) [key, decimal secs]
  | flushDb : Arguments .flushDb []
  | keys : Arguments .keys []
  | mget (keys : List Key) (present : 1 ≤ keys.length) (few : keys.length ≤ 1023) :
      Arguments (.mget keys) keys
  | mset (pairs : List (Key × Bytes)) (present : 1 ≤ pairs.length) (few : pairs.length ≤ 511) :
      Arguments (.mset pairs) (pairs.flatMap fun p => [p.1, p.2])

/-- A command as a client sends it, the verb in any letter case. -/
structure Request where
  command : Command
  verb : Bytes
  args : List Bytes
  spelled : eqIgnoreAsciiCase verb (ascii (verbOf command)) = true
  arguments : Arguments command args
  /-- No byte string of the client is longer than `isize::MAX`. -/
  addressable : ∀ arg ∈ args, arg.length < 2 ^ 63

def Request.encode (r : Request) : Bytes := respFrame (r.verb :: r.args)

/-! ## The integer line -/

/-- `<marker><n>\r\n`. -/
def lineInt (marker : UInt8) (n : Nat) : Bytes := marker :: (decimal n ++ crlf)

theorem memchr_append {b : UInt8} {front rest : Bytes} (absent : b ∉ front) :
    memchr b (front ++ b :: rest) = some front.length := by
  have none : front.findIdx? (· == b) = none := by
    rw [List.findIdx?_eq_none_iff]
    intro x member
    simpa using fun same : x = b => absent (same ▸ member)
  simp [memchr, List.findIdx?_append, none, List.findIdx?_cons]

theorem memchr_none {b : UInt8} {buf : Bytes} (absent : b ∉ buf) : memchr b buf = none := by
  unfold memchr
  rw [List.findIdx?_eq_none_iff]
  intro x member
  simpa using fun same : x = b => absent (same ▸ member)

theorem memchr_eq_none {b : UInt8} {buf : Bytes} (none : memchr b buf = none) : b ∉ buf := by
  intro member
  have other := List.findIdx?_eq_none_iff.1 none b member
  simp at other

/-- The first occurrence of the byte splits the buffer. -/
theorem memchr_eq_some {b : UInt8} {buf : Bytes} {pos : Nat} (found : memchr b buf = some pos) :
    ∃ front rest, buf = front ++ b :: rest ∧ b ∉ front ∧ pos = front.length := by
  obtain ⟨inside, here, before⟩ := List.findIdx?_eq_some_iff_getElem.1 found
  have same : buf[pos] = b := by simpa using here
  refine ⟨buf.take pos, buf.drop (pos + 1), ?_, ?_, ?_⟩
  · rw [← same, ← List.drop_eq_getElem_cons inside, List.take_append_drop]
  · intro member
    obtain ⟨i, small, at_i⟩ := List.mem_take_iff_getElem.1 member
    have early : i < pos := by omega
    exact before i early (by simp [at_i])
  · simp only [List.length_take]
    omega

/-- A strict part of a line and its LF holds no LF. -/
theorem line_torn {front seen : Bytes} (absent : (10 : UInt8) ∉ front)
    (before : seen <+: front ++ [10]) (strict : seen ≠ front ++ [10]) : (10 : UInt8) ∉ seen := by
  rcases strictPrefix_append before strict with ⟨inFront, -⟩ | ⟨rest, rfl, inBack, cut⟩
  · exact fun member => absent (inFront.subset member)
  · have short := strictPrefix_length inBack cut
    have empty : rest = [] := List.eq_nil_of_length_eq_zero (by simpa using short)
    rwa [empty, List.append_nil]

theorem wrapI64_of_lt {n : Nat} (small : n < 2 ^ 63) : wrapI64 n = n := asI64_of_lt small

/-- The digit loop computes the value of the numeral, wrapped. -/
theorem foldDigits_digits (digits : Bytes) (all : ∀ b ∈ digits, isAsciiDigit b = true) (n : Nat) :
    foldDigits (wrapI64 n) digits = .ok (wrapI64 (numeralValue n digits)) := by
  induction digits generalizing n with
  | nil => rfl
  | cons b rest ih =>
      have digit : isAsciiDigit b = true := all b (by simp)
      have wrapped : wrapI64 (wrapI64 n * 10 + digitValue b) =
          wrapI64 ((n * 10 + digitValue b : Nat) : Int) := by
        unfold wrapI64
        rw [← Int.bmod_add_bmod, Int.bmod_mul_bmod, Int.bmod_add_bmod]
        push_cast
        rfl
      rw [foldDigits, digit, wrapped, if_neg (by simp)]
      exact ih (fun c member => all c (by simp [member])) _

/-- Any numeral is read, with leading zeros or without. -/
theorem parseLineInt_digits {digits : Bytes} {n : Nat} (counts : parseDigits digits = some n)
    (small : n < 2 ^ 63) : parseLineInt digits = .ok (n : Int) := by
  obtain ⟨filled, all, value⟩ := parseDigits_eq_some counts
  have unsigned : parseLineInt digits = foldDigits 0 digits := by
    unfold parseLineInt
    split
    · exact absurd rfl filled
    · exact absurd (all 45 (by simp)) (by decide)
    · rfl
  have zero : (0 : Int) = wrapI64 ((0 : Nat) : Int) := (wrapI64_of_lt (by norm_num)).symm
  rw [unsigned, zero, foldDigits_digits _ all, value, wrapI64_of_lt small]

/-- The only LF of an integer line is its last byte. -/
theorem numeral_split {marker : UInt8} (mark : marker ≠ 10) {digits : Bytes}
    (all : ∀ b ∈ digits, isAsciiDigit b = true) :
    ∃ front, marker :: (digits ++ crlf) = front ++ [10] ∧ (10 : UInt8) ∉ front ∧
      front.length = digits.length + 2 := by
  have absent : (10 : UInt8) ∉ digits := fun member => absurd (all 10 member) (by decide)
  exact ⟨marker :: digits ++ [13], by simp [crlf], by simp [absent, mark.symm], by simp⟩

theorem lineInt_split {marker : UInt8} (mark : marker ≠ 10) (n : Nat) :
    ∃ front, lineInt marker n = front ++ [10] ∧ (10 : UInt8) ∉ front ∧
      front.length = (decimal n).length + 2 :=
  numeral_split mark (decimal_digits n)

theorem memchr_lineInt {marker : UInt8} (mark : marker ≠ 10) (n : Nat) (rest : Bytes) :
    memchr 10 (lineInt marker n ++ rest) = some ((decimal n).length + 2) := by
  obtain ⟨front, split, absent, size⟩ := lineInt_split mark n
  rw [split, List.append_assoc, List.singleton_append, memchr_append absent, size]

/-- Without its LF an integer line is unfinished, if it starts with the marker. -/
theorem readRespLineInt_unfinished {marker : UInt8} {seen : Bytes} (absent : (10 : UInt8) ∉ seen)
    (marked : ∀ first, seen.head? = some first → first = marker) :
    readRespLineInt marker seen = .ok none := by
  cases seen with
  | nil => rfl
  | cons first rest =>
      have same := marked first rfl
      simp only [readRespLineInt, same, ne_eq, not_true, if_false]
      rw [← same, memchr_none absent]

theorem readRespLineInt_numeral {marker : UInt8} (mark : marker ≠ 10) {digits : Bytes} {n : Nat}
    (counts : parseDigits digits = some n) (small : n < 2 ^ 63) :
    Reads (readRespLineInt marker) (marker :: (digits ++ crlf)) (n : Int) where
  whole := by
    intro rest
    obtain ⟨front, split, absent, size⟩ := numeral_split mark (parseDigits_eq_some counts).2.1
    have found : memchr 10 (marker :: (digits ++ crlf ++ rest)) = some (digits.length + 2) := by
      rw [← List.cons_append, split, List.append_assoc, List.singleton_append, memchr_append absent, size]
    have stripped : 0 < digits.length + 2 ∧
        (marker :: (digits ++ crlf ++ rest))[digits.length + 2 - 1]? = some 13 := by
      simp [crlf]
    have numeral : ((marker :: (digits ++ crlf ++ rest)).take (digits.length + 2 - 1)).drop 1 = digits := by
      simp
    rw [List.cons_append]
    simp only [readRespLineInt, found, ne_eq, not_true, if_false, if_pos stripped]
    rw [numeral, parseLineInt_digits counts small]
    simp [crlf]
  torn := by
    intro seen before strict
    obtain ⟨front, split, absent, -⟩ := numeral_split mark (parseDigits_eq_some counts).2.1
    refine readRespLineInt_unfinished (line_torn absent (split ▸ before) (split ▸ strict)) ?_
    intro first head
    obtain ⟨rest, rfl⟩ := List.head?_eq_some_iff.1 head
    exact (List.cons_prefix_cons.1 before).1

theorem readRespLineInt_reads {marker : UInt8} (mark : marker ≠ 10) {n : Nat} (small : n < 2 ^ 63) :
    Reads (readRespLineInt marker) (lineInt marker n) (n : Int) :=
  readRespLineInt_numeral mark (parseDigits_decimal n) small

/-! ## The bulk string -/

theorem takeBulk_reads (data : Bytes) : Reads (takeBulk data.length) (data ++ crlf) data where
  whole := by
    intro rest
    have enough : ¬ data.length + 2 > (data ++ crlf ++ rest).length := by simp [crlf]
    rw [takeBulk, if_neg enough, List.append_assoc, List.take_left]
    simp [crlf]
  torn := by
    intro seen before strict
    have short := strictPrefix_length before strict
    rw [List.length_append] at short
    exact if_pos short

theorem bulkString_eq (data : Bytes) :
    bulkString data = lineInt 36 data.length ++ (data ++ crlf) := by
  simp [bulkString, lineInt, ascii]

theorem readRespBulk_reads {data : Bytes} (small : data.length < 2 ^ 63) :
    Reads readRespBulk (bulkString data) data := by
  rw [bulkString_eq]
  refine (readRespLineInt_reads (by decide) small).bind ?_
  rw [if_neg (by omega), Int.toNat_natCast]
  exact takeBulk_reads data

theorem readBulks_reads {args : List Bytes} (small : ∀ arg ∈ args, arg.length < 2 ^ 63) :
    Reads (readRespBulk.times args.length) (args.flatMap bulkString) args :=
  Reads.times fun arg member => readRespBulk_reads (small arg member)

theorem respPair_reads {p : Key × Bytes} (key : p.1.length < 2 ^ 63) (value : p.2.length < 2 ^ 63) :
    Reads respPair (bulkString p.1 ++ bulkString p.2) p :=
  (readRespBulk_reads key).bind ((readRespBulk_reads value).map fun data => (p.1, data))

/-! ## The arguments of each verb -/

theorem respSingleKey_reads (cmdName : String) (make : Key → Command) {key : Key}
    (small : key.length < 2 ^ 63) :
    Reads (respSingleKey cmdName make 1) (bulkString key) (make key) := by
  rw [respSingleKey, if_neg (by simp)]
  exact (readRespBulk_reads small).map make

/-- Skipping no arguments reads nothing. -/
theorem skip_reads (c : Command) :
    Reads (readRespBulk.times 0 >>= fun _ => pure c) [] c :=
  (Reads.pure []).bind (Reads.pure c)

theorem respSet_reads {key value : Bytes} (smallKey : key.length < 2 ^ 63)
    (smallValue : value.length < 2 ^ 63) :
    Reads (respSet 2) (bulkString key ++ (bulkString value ++ [])) (.set key value none) :=
  (readRespBulk_reads smallKey).bind ((readRespBulk_reads smallValue).bind (skip_reads _))

/-- SET with an option that names a time to live. -/
theorem respSet_ttl_reads {key value opt number : Bytes} {lifetime : Option Duration}
    (smallKey : key.length < 2 ^ 63) (smallValue : value.length < 2 ^ 63)
    (smallOpt : opt.length < 2 ^ 63) (smallNumber : number.length < 2 ^ 63)
    (known : respTtl opt number = .ok lifetime) :
    Reads (respSet 4) (bulkString key ++ (bulkString value ++ (bulkString opt ++ (bulkString number ++ []))))
      (.set key value lifetime) := by
  refine (readRespBulk_reads smallKey).bind ((readRespBulk_reads smallValue).bind
    ((readRespBulk_reads smallOpt).bind ((readRespBulk_reads smallNumber).bind ?_)))
  rw [known]
  exact (Reads.pure lifetime).bind (skip_reads _)

theorem respExpire_reads {key : Bytes} {secs : Nat} (smallKey : key.length < 2 ^ 63)
    (smallSecs : (decimal secs).length < 2 ^ 63) (fits : secs < 2 ^ 64) :
    Reads (respExpire 2) (bulkString key ++ (bulkString (decimal secs) ++ [])) (.expire key secs) := by
  refine (readRespBulk_reads smallKey).bind ((readRespBulk_reads smallSecs).bind ?_)
  rw [respSeconds, parseUnsigned_decimal fits]
  exact (Reads.pure secs).bind (Reads.pure _)

theorem respMget_reads {keys : List Key} (present : 1 ≤ keys.length)
    (small : ∀ key ∈ keys, key.length < 2 ^ 63) :
    Reads (respMget keys.length) (keys.flatMap bulkString) (.mget keys) := by
  rw [respMget, if_neg (by omega)]
  exact (readBulks_reads small).map Command.mget

theorem respMset_reads {pairs : List (Key × Bytes)} (present : 1 ≤ pairs.length)
    (small : ∀ p ∈ pairs, p.1.length < 2 ^ 63 ∧ p.2.length < 2 ^ 63) :
    Reads (respMset (2 * pairs.length)) (pairs.flatMap fun p => bulkString p.1 ++ bulkString p.2)
      (.mset pairs) := by
  have even : ¬ (2 * pairs.length < 2 ∨ 2 * pairs.length % 2 ≠ 0) := by omega
  have half : 2 * pairs.length / 2 = pairs.length := by omega
  rw [respMset, if_neg even, half]
  have each : ∀ p ∈ pairs, Reads respPair (bulkString p.1 ++ bulkString p.2) p :=
    fun p member => respPair_reads (small p member).1 (small p member).2
  exact (Reads.times each).map Command.mset

theorem respTtl_ex {opt : Bytes} {secs : Nat} (isEx : eqIgnoreAsciiCase opt (ascii "EX") = true)
    (fits : secs < 2 ^ 64) :
    respTtl opt (decimal secs) = .ok (some (Duration.fromSecs secs)) := by
  rw [respTtl, if_pos isEx, parseUnsigned_decimal fits]

theorem respTtl_px {opt : Bytes} {millis : Nat} (isPx : eqIgnoreAsciiCase opt (ascii "PX") = true)
    (fits : millis < 2 ^ 64) :
    respTtl opt (decimal millis) = .ok (some (Duration.fromMillis millis)) := by
  have notEx : ¬ eqIgnoreAsciiCase opt (ascii "EX") = true := by
    rw [eqIgnoreAsciiCase_congr isPx]
    decide
  rw [respTtl, if_neg notEx, if_pos isPx, parseUnsigned_decimal fits]

/-! ## The frame -/

/-- The reader of a command's arguments. -/
def argumentReader : Command → Nat → RespReader Command
  | .ping, _ => pure .ping
  | .get _, k => respSingleKey "GET" .get k
  | .set .., k => respSet k
  | .del _, k => respSingleKey "DEL" .del k
  | .incr _, k => respSingleKey "INCR" .incr k
  | .info, _ => pure .info
  | .dbSize, _ => pure .dbSize
  | .exists _, k => respSingleKey "EXISTS" .exists k
  | .ttl _, k => respSingleKey "TTL" .ttl k
  | .expire .., k => respExpire k
  | .flushDb, _ => pure .flushDb
  | .keys, _ => pure .keys
  | .mget _, k => respMget k
  | .mset _, k => respMset k

/-- The switch takes the branch of the verb, in any letter case. -/
theorem respCommand_spelled {verb : Bytes} {c : Command} (k : Nat)
    (spelled : eqIgnoreAsciiCase verb (ascii (verbOf c)) = true) :
    respCommand verb k = argumentReader c k := by
  simp only [respCommand, eqIgnoreAsciiCase_congr spelled]
  cases c <;> simp +decide only [verbOf, argumentReader, if_true, if_false]

/-- The verbs of the switch. -/
def verbs : List String :=
  ["PING", "INFO", "DBSIZE", "GET", "SET", "DEL", "INCR", "EXISTS", "TTL", "EXPIRE", "FLUSHDB", "KEYS",
    "MGET", "MSET"]

/-- A verb the switch does not know. -/
def UnknownVerb (verb : Bytes) : Prop := ∀ name ∈ verbs, eqIgnoreAsciiCase verb (ascii name) = false

theorem exists_verbOf {name : String} (known : name ∈ verbs) : ∃ c, verbOf c = name := by
  simp only [verbs, List.mem_cons, List.not_mem_nil, or_false] at known
  rcases known with rfl | rfl | rfl | rfl | rfl | rfl | rfl | rfl | rfl | rfl | rfl | rfl | rfl | rfl
  exacts [⟨.ping, rfl⟩, ⟨.info, rfl⟩, ⟨.dbSize, rfl⟩, ⟨.get [], rfl⟩, ⟨.set [] [] none, rfl⟩,
    ⟨.del [], rfl⟩, ⟨.incr [], rfl⟩, ⟨.exists [], rfl⟩, ⟨.ttl [], rfl⟩, ⟨.expire [] 0, rfl⟩,
    ⟨.flushDb, rfl⟩, ⟨.keys, rfl⟩, ⟨.mget [], rfl⟩, ⟨.mset [], rfl⟩]

/-- Every verb is one of the switch, in some letter case, or unknown to it. -/
theorem spelled_or_unknown (verb : Bytes) :
    (∃ c, eqIgnoreAsciiCase verb (ascii (verbOf c)) = true) ∨ UnknownVerb verb := by
  by_cases known : ∃ c, eqIgnoreAsciiCase verb (ascii (verbOf c)) = true
  · exact .inl known
  · refine .inr fun name member => Bool.eq_false_iff.2 fun spelled => known ?_
    obtain ⟨c, rfl⟩ := exists_verbOf member
    exact ⟨c, spelled⟩

theorem respCommand_unknown {verb : Bytes} (k : Nat) (unknown : UnknownVerb verb) :
    respCommand verb k = .fail (.unknownCommand verb) := by
  simp only [UnknownVerb, verbs, List.forall_mem_cons] at unknown
  simp only [respCommand, unknown, Bool.false_eq_true, if_false]

theorem mset_arguments (pairs : List (Key × Bytes)) :
    (pairs.flatMap fun p => [p.1, p.2]).length = 2 * pairs.length ∧
      (pairs.flatMap fun p => [p.1, p.2]).flatMap bulkString =
        pairs.flatMap fun p => bulkString p.1 ++ bulkString p.2 := by
  induction pairs with
  | nil => exact ⟨rfl, rfl⟩
  | cons p pairs ih =>
      constructor
      · simp only [List.flatMap_cons, List.length_append, List.length_cons, List.length_nil, ih.1]
        omega
      · simp [ih.2]

theorem argumentReader_reads {c : Command} {args : List Bytes} (arguments : Arguments c args)
    (small : ∀ arg ∈ args, arg.length < 2 ^ 63) :
    Reads (argumentReader c args.length) (args.flatMap bulkString) c := by
  cases arguments with
  | ping | info | dbSize | flushDb | keys => exact Reads.pure _
  | get key | del key | incr key | «exists» key | ttl key =>
      rw [List.flatMap_singleton]
      exact respSingleKey_reads _ _ (small key (by simp))
  | set key value => exact respSet_reads (small key (by simp)) (small value (by simp))
  | setEx key value opt secs isEx fits =>
      exact respSet_ttl_reads (small key (by simp)) (small value (by simp)) (small opt (by simp))
        (small _ (by simp)) (respTtl_ex isEx fits)
  | setPx key value opt millis isPx fits =>
      exact respSet_ttl_reads (small key (by simp)) (small value (by simp)) (small opt (by simp))
        (small _ (by simp)) (respTtl_px isPx fits)
  | expire key secs fits =>
      exact respExpire_reads (small key (by simp)) (small _ (by simp)) fits
  | mget keys present _ => exact respMget_reads present small
  | mset pairs present _ =>
      obtain ⟨count, codes⟩ := mset_arguments pairs
      rw [count, codes]
      refine respMset_reads present fun p member => ?_
      have both : p.1 ∈ pairs.flatMap (fun p => [p.1, p.2]) ∧
          p.2 ∈ pairs.flatMap (fun p => [p.1, p.2]) :=
        ⟨List.mem_flatMap.2 ⟨p, member, by simp⟩, List.mem_flatMap.2 ⟨p, member, by simp⟩⟩
      exact ⟨small _ both.1, small _ both.2⟩

/-- The verb and the arguments of a request fit the array header. -/
theorem Arguments.length_le {c : Command} {args : List Bytes} (arguments : Arguments c args) :
    args.length + 1 ≤ 1024 := by
  cases arguments with
  | mget keys _ few => omega
  | mset pairs _ few =>
      rw [(mset_arguments pairs).1]
      omega
  | _ => simp

theorem verbOf_length (c : Command) : (ascii (verbOf c)).length ≤ 7 := by
  cases c <;> (rw [verbOf]; decide)

theorem respCount_ok {n : Nat} (few : n + 1 ≤ 1024) : respCount ((n + 1 : Nat) : Int) = .ok (n + 1) := by
  simp only [respCount, Int.toNat_natCast]
  rw [if_neg (by omega), if_neg (by omega), if_neg (by omega)]

/-- The parser reads a request's command from its frame. -/
theorem parseRespFrame_reads (r : Request) : Reads parseRespFrame r.encode r.command := by
  have few := r.arguments.length_le
  have short : r.verb.length < 2 ^ 63 := by
    have := verbOf_length r.command
    rw [eqIgnoreAsciiCase_length r.spelled]
    omega
  have frame : r.encode =
      lineInt 42 (r.args.length + 1) ++ ([] ++ (bulkString r.verb ++ r.args.flatMap bulkString)) := by
    simp [Request.encode, respFrame, lineInt, ascii]
  rw [frame]
  refine (readRespLineInt_reads (by decide) (by omega)).bind ?_
  rw [respCount_ok (by omega)]
  refine (Reads.pure (r.args.length + 1)).bind ((readRespBulk_reads short).bind ?_)
  rw [Nat.add_sub_cancel, respCommand_spelled _ r.spelled]
  exact argumentReader_reads r.arguments r.addressable

/-! ## The session's view of a frame -/

theorem Request.encode_head (r : Request) : ∃ rest, r.encode = 42 :: rest := ⟨_, rfl⟩

theorem tryParseFrame_request (r : Request) (rest : Bytes) :
    tryParseFrame (r.encode ++ rest) = .ok (.complete r.encode.length r.command) := by
  obtain ⟨back, head⟩ := r.encode_head
  have read := (parseRespFrame_reads r).whole rest
  rw [head] at read ⊢
  simp only [List.cons_append] at read ⊢
  simp only [tryParseFrame, if_true, read]

/-- On a part of a frame, and on the empty buffer, the parser asks for more. -/
theorem tryParseFrame_torn (r : Request) {seen : Bytes} (before : seen <+: r.encode)
    (strict : seen ≠ r.encode) : tryParseFrame seen = .ok .incomplete := by
  cases seen with
  | nil => rfl
  | cons first rest =>
      obtain ⟨back, head⟩ := r.encode_head
      have star : first = 42 := by
        rw [head] at before
        exact (List.cons_prefix_cons.1 before).1
      have read := (parseRespFrame_reads r).torn _ before strict
      simp only [tryParseFrame, star, if_true]
      rw [star] at read
      rw [read]

/-! ## The length line of a bulk string, taken for a request -/

theorem not_isWhitespace_digit {b : UInt8} (digit : isAsciiDigit b = true) : isWhitespace b = false := by
  by_contra white
  simp only [isWhitespace, Bool.not_eq_false, Bool.or_eq_true, beq_iff_eq] at white
  rcases white with ((rfl | rfl) | rfl) | rfl <;> exact absurd digit (by decide)

/-- The text of a length line has no blank. -/
theorem dollar_not_isWhitespace (n : Nat) : ∀ b ∈ 36 :: decimal n, isWhitespace b = false := by
  intro b member
  rcases List.mem_cons.1 member with rfl | digit
  · decide
  · exact not_isWhitespace_digit (decimal_digits n b digit)

theorem trim_dollar (n : Nat) : trim (36 :: decimal n ++ [13]) = 36 :: decimal n := by
  have front : (36 :: decimal n ++ [13]).dropWhile isWhitespace = 36 :: decimal n ++ [13] := rfl
  rw [trim, front, List.rdropWhile_concat_pos _ _ _ (by decide), List.rdropWhile_eq_self_iff]
  intro filled
  rw [dollar_not_isWhitespace n _ (List.getLast_mem filled)]
  decide

theorem splitFirstWord_of_no_blank {word : Bytes} (plain : ∀ b ∈ word, isWhitespace b = false) :
    splitFirstWord word = (word, []) := by
  rw [splitFirstWord, List.findIdx?_eq_none_iff.2 plain]

/-- No verb starts with a dollar sign. -/
theorem dollar_ne_verb {rest word : Bytes} (other : (word.map toAsciiLowercase).head? ≠ some 36) :
    eqIgnoreAsciiCase (36 :: rest) word = false := by
  by_contra same
  rw [Bool.not_eq_false, eqIgnoreAsciiCase_iff] at same
  exact other (by rw [← same]; rfl)

theorem parseBytes_dollar (n : Nat) :
    parseBytes (36 :: decimal n ++ [13]) = .error (.unknownCommand (fromUtf8Lossy (36 :: decimal n))) := by
  simp only [parseBytes, trim_dollar, splitFirstWord_of_no_blank (dollar_not_isWhitespace n)]
  simp (disch := decide) only [dollar_ne_verb, List.isEmpty_cons, Bool.false_eq_true, if_false]

/-- Outside its frame a bulk string is an inline line with an unknown verb. -/
theorem tryParseFrame_bulkString (data rest : Bytes) :
    tryParseFrame (bulkString data ++ rest) =
      .error (.unknownCommand (fromUtf8Lossy (36 :: decimal data.length))) := by
  have split : bulkString data ++ rest =
      (36 :: decimal data.length ++ [13]) ++ 10 :: (data ++ crlf ++ rest) := by
    simp [bulkString_eq, lineInt, crlf]
  have line : (bulkString data ++ rest).take ((decimal data.length).length + 2) =
      36 :: decimal data.length ++ [13] := by
    rw [split]
    exact List.take_left' (by simp)
  have found : memchr 10 (bulkString data ++ rest) = some ((decimal data.length).length + 2) := by
    rw [bulkString_eq, List.append_assoc, memchr_lineInt (by decide)]
  have inline : tryParseFrame (bulkString data ++ rest) = tryParseFrameInline (bulkString data ++ rest) :=
    rfl
  rw [inline, tryParseFrameInline, found]
  simp only [line, parseBytes_dollar]

end ZetDb.Protocol
