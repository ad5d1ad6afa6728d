/-
# Protocol.Language -- the command language of RESP arrays

What `parse_resp_frame` makes of an array of bulk strings, verb by verb, on the list
of its arguments (`respArguments`), and how many of them it reads
(`argumentsRead`).  Two consequences:

* an accepted array is consumed whole, unless a verb without arguments is sent some
  (`consumedWhole_iff`);
* arrays and inline lines speak the same language, up to the arrays listed in
  `LanguageDivergence` (`sameLanguage_iff`).
-/
import ZetDb.Protocol.InlineAgreement

namespace ZetDb.Protocol

set_option autoImplicit false

open ZetDb.Theory.Wire ZetDb.Theory.Text ZetDb.Theory.Words ZetDb.Theory.Stream ZetDb.Domain

/-! ## The arguments of an array -/

/-- What follows the option and its number is skipped, and so is a lone option. -/
def respSetArguments : List Bytes → Except ParseError Command
  | key :: value :: opt :: number :: _ =>
      match respTtl opt number with
      | .ok lifetime => .ok (.set key value lifetime)
      | .error e => .error e
  | key :: value :: _ => .ok (.set key value none)
  | _ => .error (.syntaxText "SET requires at least 2 arguments: SET <key> <value> [EX sec | PX ms]")

def respExpireArguments : List Bytes → Except ParseError Command
  | [key, secs] =>
      match respSeconds secs with
      | .ok seconds => .ok (.expire key seconds)
      | .error e => .error e
  | _ => .error (.syntaxText "EXPIRE requires 2 arguments: EXPIRE <key> <seconds>")

def respMsetArguments (args : List Bytes) : Except ParseError Command :=
  msetArguments "MSET requires matching key-value pairs: MSET <key> <value> [key value ...]"
    "MSET requires matching key-value pairs: MSET <key> <value> [key value ...]" .mset args

/-- What the array parser makes of a verb's arguments. -/
def respArguments : Command → List Bytes → Except ParseError Command
  | .ping, _ => .ok .ping
  | .get _, args => singleKeyArguments "GET requires exactly 1 argument: GET <key>" .get args
  | .set .., args => respSetArguments args
  | .del _, args => singleKeyArguments "DEL requires exactly 1 argument: DEL <key>" .del args
  | .incr _, args => singleKeyArguments "INCR requires exactly 1 argument: INCR <key>" .incr args
  | .info, _ => .ok .info
  | .dbSize, _ => .ok .dbSize
  | .exists _, args => singleKeyArguments "EXISTS requires exactly 1 argument: EXISTS <key>" .exists args
  | .ttl _, args => singleKeyArguments "TTL requires exactly 1 argument: TTL <key>" .ttl args
  | .expire .., args => respExpireArguments args
  | .flushDb, _ => .ok .flushDb
  | .keys, _ => .ok .keys
  | .mget _, args => mgetArguments "MGET requires at least 1 argument: MGET <key> [key ...]" .mget args
  | .mset _, args => respMsetArguments args

/-- The verbs that are accepted at once, whatever their arguments. -/
def ignoresArguments : Command → Bool
  | .ping | .info | .dbSize | .flushDb | .keys => true
  | _ => false

/-- The arguments the parser reads before it accepts. -/
def argumentsRead (c : Command) (args : List Bytes) : List Bytes := if ignoresArguments c then [] else args

/-- The reader gives this answer on these arguments, whatever follows them. -/
def Answers (reader : RespReader Command) (read args : List Bytes) : Except ParseError Command → Prop
  | .ok c => Reads reader (read.flatMap bulkString) c
  | .error e => Refuses reader (args.flatMap bulkString) e

theorem respSingleKey_answers (cmdName : String) (make : Key → Command) {args : List Bytes}
    (small : ∀ arg ∈ args, arg.length < 2 ^ 63) :
    Answers (respSingleKey cmdName make args.length) args args
      (singleKeyArguments (cmdName ++ " requires exactly 1 argument: " ++ cmdName ++ " <key>") make
        args) := by
  match args with
  | [] => exact fun _ => rfl
  | [key] =>
      show Reads _ ([key].flatMap bulkString) _
      rw [List.flatMap_singleton]
      exact respSingleKey_reads cmdName make (small key (by simp))
  | key :: extra :: more =>
      show Refuses _ _ _
      rw [respSingleKey, if_pos (by simp)]
      exact Refuses.fail _ _

/-- Reading arguments only to skip them. -/
theorem skip_reads_all {args : List Bytes} (small : ∀ arg ∈ args, arg.length < 2 ^ 63) (c : Command) :
    Reads (readRespBulk.times args.length >>= fun _ => pure c) (args.flatMap bulkString) c :=
  (readBulks_reads small).map fun _ => c

theorem respSet_answers {args : List Bytes} (small : ∀ arg ∈ args, arg.length < 2 ^ 63) :
    Answers (respSet args.length) args args (respSetArguments args) := by
  match args with
  | [] => exact fun _ => rfl
  | [_] => exact fun _ => rfl
  | [key, value] =>
      exact (readRespBulk_reads (small key (by simp))).bind
        ((readRespBulk_reads (small value (by simp))).bind (skip_reads _))
  | [key, value, lone] =>
      exact (readRespBulk_reads (small key (by simp))).bind
        ((readRespBulk_reads (small value (by simp))).bind
          (skip_reads_all (fun arg member => small arg (by simp [List.mem_singleton.1 member])) _))
  | key :: value :: opt :: number :: more =>
      have first := readRespBulk_reads (small key (by simp))
      have second := readRespBulk_reads (small value (by simp))
      have third := readRespBulk_reads (small opt (by simp))
      have fourth := readRespBulk_reads (small number (by simp))
      have others : ∀ arg ∈ more, arg.length < 2 ^ 63 := fun arg member => small arg (by simp [member])
      have enough : ¬ (key :: value :: opt :: number :: more).length < 2 := by simp
      have options : (key :: value :: opt :: number :: more).length - 2 ≥ 2 := by simp
      have skipped : (key :: value :: opt :: number :: more).length - 4 = more.length := by simp
      rw [respSetArguments, respSet, if_neg enough]
      simp only [if_pos options, skipped]
      cases known : respTtl opt number with
      | error e =>
          refine first.bind_refuses (second.bind_refuses (third.bind_refuses (fourth.bind_refuses ?_)))
          rw [known]
          exact fun _ => rfl
      | ok lifetime =>
          refine first.bind (second.bind (third.bind (fourth.bind ?_)))
          rw [known]
          exact (Reads.pure lifetime).bind (skip_reads_all others _)

theorem respExpire_answers {args : List Bytes} (small : ∀ arg ∈ args, arg.length < 2 ^ 63) :
    Answers (respExpire args.length) args args (respExpireArguments args) := by
  match args with
  | [] => exact fun _ => rfl
  | [_] => exact fun _ => rfl
  | [key, secs] =>
      have first := readRespBulk_reads (small key (by simp))
      have second := readRespBulk_reads (small secs (by simp))
      have shape : [key, secs].flatMap bulkString = bulkString key ++ (bulkString secs ++ []) := by simp
      rw [respExpireArguments]
      cases known : respSeconds secs with
      | error e =>
          show Refuses _ _ _
          rw [shape]
          refine first.bind_refuses (second.bind_refuses ?_)
          rw [known]
          exact fun _ => rfl
      | ok seconds =>
          show Reads _ _ _
          rw [shape]
          refine first.bind (second.bind ?_)
          rw [known]
          exact (Reads.pure seconds).bind (Reads.pure _)
  | key :: secs :: extra :: more =>
      show Refuses _ _ _
      rw [respExpire, if_pos (by simp)]
      exact Refuses.fail _ _

theorem respMget_answers {args : List Bytes} (small : ∀ arg ∈ args, arg.length < 2 ^ 63) :
    Answers (respMget args.length) args args
      (mgetArguments "MGET requires at least 1 argument: MGET <key> [key ...]" .mget args) := by
  match args with
  | [] => exact fun _ => rfl
  | key :: keys => exact respMget_reads (by simp) small

/-- Arguments that pair up are the pairs, written out. -/
theorem pairsOf_eq_some {args : List Bytes} {pairs : List (Key × Bytes)}
    (paired : pairsOf args = some pairs) : args = pairs.flatMap fun p => [p.1, p.2] := by
  match args, pairs with
  | [], pairs =>
      cases paired
      rfl
  | [_], _ => cases paired
  | key :: value :: args, pairs =>
      rw [pairsOf, Option.map_eq_some_iff] at paired
      obtain ⟨others, rest, rfl⟩ := paired
      rw [List.flatMap_cons, ← pairsOf_eq_some rest]
      rfl

theorem pairsOf_eq_none {args : List Bytes} (odd : pairsOf args = none) : args.length % 2 = 1 := by
  match args with
  | [] => cases odd
  | [_] => rfl
  | key :: value :: args =>
      rw [pairsOf, Option.map_eq_none_iff] at odd
      have rest := pairsOf_eq_none odd
      simp only [List.length_cons]
      omega

theorem respMset_answers {args : List Bytes} (small : ∀ arg ∈ args, arg.length < 2 ^ 63) :
    Answers (respMset args.length) args args (respMsetArguments args) := by
  cases args with
  | nil => exact fun _ => rfl
  | cons arg args =>
      cases paired : pairsOf (arg :: args) with
      | none =>
          have odd := pairsOf_eq_none paired
          simp only [respMsetArguments, msetArguments, paired]
          show Refuses _ _ _
          rw [respMset, if_pos (.inr (by omega))]
          exact Refuses.fail _ _
      | some pairs =>
          have written := pairsOf_eq_some paired
          obtain ⟨count, codes⟩ := mset_arguments pairs
          simp only [respMsetArguments, msetArguments, paired]
          show Reads _ _ _
          rw [written] at small ⊢
          rw [count, codes]
          refine respMset_reads ?_ fun p member => ?_
          · rw [← written, List.length_cons] at count
            omega
          · have both : p.1 ∈ pairs.flatMap (fun p => [p.1, p.2]) ∧
                p.2 ∈ pairs.flatMap (fun p => [p.1, p.2]) :=
              ⟨List.mem_flatMap.2 ⟨p, member, by simp⟩, List.mem_flatMap.2 ⟨p, member, by simp⟩⟩
            exact ⟨small _ both.1, small _ both.2⟩

/-- The readers answer as `respArguments` says. -/
theorem argumentReader_answers (c : Command) {args : List Bytes}
    (small : ∀ arg ∈ args, arg.length < 2 ^ 63) :
    Answers (argumentReader c args.length) (argumentsRead c args) args (respArguments c args) := by
  cases c with
  | ping | info | dbSize | flushDb | keys => exact Reads.pure _
  | get _ => exact respSingleKey_answers "GET" .get small
  | del _ => exact respSingleKey_answers "DEL" .del small
  | incr _ => exact respSingleKey_answers "INCR" .incr small
  | «exists» _ => exact respSingleKey_answers "EXISTS" .exists small
  | ttl _ => exact respSingleKey_answers "TTL" .ttl small
  | set _ _ _ => exact respSet_answers small
  | expire _ _ => exact respExpire_answers small
  | mget _ => exact respMget_answers small
  | mset _ => exact respMset_answers small

/-! ## The frame of an array -/

/-- The header of an array, its verb, and the first of its arguments. -/
def arrayFront (verb : Bytes) (args read : List Bytes) : Bytes :=
  lineInt 42 (args.length + 1) ++ ([] ++ (bulkString verb ++ read.flatMap bulkString))

theorem respFrame_eq (verb : Bytes) (args : List Bytes) :
    respFrame (verb :: args) = arrayFront verb args args := by
  simp [respFrame, arrayFront, lineInt, ascii]

/-- A verb's arguments are read behind the header and the verb. -/
theorem parseRespFrame_read {verb : Bytes} {args read : List Bytes} {c : Command}
    (few : args.length + 1 ≤ 1024) (short : verb.length < 2 ^ 63)
    (reads : Reads (respCommand verb args.length) (read.flatMap bulkString) c) :
    Reads parseRespFrame (arrayFront verb args read) c := by
  refine (readRespLineInt_reads (by decide) (by omega)).bind ?_
  rw [respCount_ok few]
  exact (Reads.pure (args.length + 1)).bind ((readRespBulk_reads short).bind reads)

theorem parseRespFrame_refused {verb : Bytes} {args : List Bytes} {e : ParseError}
    (few : args.length + 1 ≤ 1024) (short : verb.length < 2 ^ 63)
    (refuses : Refuses (respCommand verb args.length) (args.flatMap bulkString) e) :
    Refuses parseRespFrame (respFrame (verb :: args)) e := by
  rw [respFrame_eq]
  refine (readRespLineInt_reads (by decide) (by omega)).bind_refuses ?_
  rw [respCount_ok few]
  exact (Reads.pure (args.length + 1)).bind_refuses ((readRespBulk_reads short).bind_refuses refuses)

/-- The verbs whose arguments the parser never looks at, as they are sent. -/
def takesNoArguments (verb : Bytes) : Bool :=
  ["PING", "INFO", "DBSIZE", "FLUSHDB", "KEYS"].any fun name => eqIgnoreAsciiCase verb (ascii name)

theorem takesNoArguments_spelled {verb : Bytes} {c : Command}
    (spelled : eqIgnoreAsciiCase verb (ascii (verbOf c)) = true) :
    takesNoArguments verb = ignoresArguments c := by
  simp only [takesNoArguments, List.any_cons, List.any_nil, eqIgnoreAsciiCase_congr spelled]
  cases c <;> simp +decide only [verbOf, ignoresArguments]

theorem takesNoArguments_unknown {verb : Bytes} (unknown : UnknownVerb verb) :
    takesNoArguments verb = false := by
  simp only [UnknownVerb, verbs, List.forall_mem_cons] at unknown
  simp only [takesNoArguments, List.any_cons, List.any_nil, unknown, Bool.or_false]

theorem respArguments_ignored {c : Command} (ignores : ignoresArguments c = true) (args : List Bytes) :
    ∃ d, respArguments c args = .ok d := by
  cases c with
  | ping | info | dbSize | flushDb | keys => exact ⟨_, rfl⟩
  | _ => cases ignores

theorem tryParseFrame_respFrame (verb : Bytes) (args : List Bytes) (rest : Bytes) :
    tryParseFrame (respFrame (verb :: args) ++ rest) =
      frameOf (parseRespFrame (respFrame (verb :: args) ++ rest)) :=
  tryParseFrame_resp _

/-- What the parser says of an array whose verb it knows. -/
theorem tryParseFrame_array {verb : Bytes} {args : List Bytes} {c : Command} (rest : Bytes)
    (few : args.length + 1 ≤ 1024) (small : ∀ arg ∈ verb :: args, arg.length < 2 ^ 63)
    (spelled : eqIgnoreAsciiCase verb (ascii (verbOf c)) = true) :
    tryParseFrame (respFrame (verb :: args) ++ rest) =
      match respArguments c args with
      | .ok d => .ok (.complete (arrayFront verb args (argumentsRead c args)).length d)
      | .error e => .error e := by
  rw [List.forall_mem_cons] at small
  have answers := argumentReader_answers c small.2
  rw [← respCommand_spelled _ spelled] at answers
  rw [tryParseFrame_respFrame]
  cases answer : respArguments c args with
  | error e =>
      rw [answer] at answers
      rw [parseRespFrame_refused few small.1 answers rest]
      rfl
  | ok d =>
      -- what is not read follows, with the rest of the buffer
      obtain ⟨unread, split⟩ : ∃ unread, respFrame (verb :: args) =
          arrayFront verb args (argumentsRead c args) ++ unread := by
        rw [respFrame_eq, argumentsRead]
        split
        · exact ⟨args.flatMap bulkString, by simp [arrayFront]⟩
        · exact ⟨[], by simp⟩
      rw [answer] at answers
      rw [split, List.append_assoc, (parseRespFrame_read few small.1 answers).whole]
      rfl

theorem tryParseFrame_array_unknown {verb : Bytes} {args : List Bytes} (rest : Bytes)
    (few : args.length + 1 ≤ 1024) (short : verb.length < 2 ^ 63) (unknown : UnknownVerb verb) :
    tryParseFrame (respFrame (verb :: args) ++ rest) = .error (.unknownCommand verb) := by
  have refuses : Refuses (respCommand verb args.length) (args.flatMap bulkString)
      (.unknownCommand verb) := by
    rw [respCommand_unknown _ unknown]
    exact Refuses.fail _ _
  rw [tryParseFrame_respFrame, parseRespFrame_refused few short refuses rest]
  rfl

/-! ## Arrays are consumed whole -/

/-- If the parser accepts the array, it takes all of its bytes. -/
def ConsumedWhole (array : List Bytes) (rest : Bytes) : Prop :=
  ∀ consumed c, tryParseFrame (respFrame array ++ rest) = .ok (.complete consumed c) →
    consumed = (respFrame array).length

/-- An array that sends arguments to a verb without any. -/
def ArgumentsIgnored : List Bytes → Prop
  | verb :: _ :: _ => takesNoArguments verb = true
  | _ => False

theorem arrayFront_length (verb : Bytes) (args read : List Bytes) :
    (arrayFront verb args read).length =
      (lineInt 42 (args.length + 1)).length + (bulkString verb).length +
        (read.flatMap bulkString).length := by
  simp only [arrayFront, List.length_append, List.length_nil]
  omega

theorem bulkString_length_pos (data : Bytes) : 0 < (bulkString data).length := by
  rw [bulkString_eq, lineInt, List.length_append, List.length_cons]
  omega

theorem argumentsIgnored_cons (verb : Bytes) (args : List Bytes) :
    ArgumentsIgnored (verb :: args) ↔ takesNoArguments verb = true ∧ args ≠ [] := by
  cases args with
  | nil => exact iff_of_false id fun both => both.2 rfl
  | cons arg args => exact (and_iff_left (List.cons_ne_nil arg args)).symm

theorem argumentsRead_all {c : Command} {args : List Bytes}
    (used : ¬(ignoresArguments c = true ∧ args ≠ [])) : argumentsRead c args = args := by
  rw [argumentsRead]
  split
  · rename_i ignores
    by_contra other
    exact used ⟨ignores, Ne.symm other⟩
  · rfl

/-- An array is consumed whole if it is accepted, exactly if it does not send
arguments to PING, INFO, DBSIZE, FLUSHDB or KEYS. -/
theorem consumedWhole_iff (array : List Bytes) (rest : Bytes) (present : 1 ≤ array.length)
    (few : array.length ≤ 1024) (addressable : ∀ arg ∈ array, arg.length < 2 ^ 63) :
    ConsumedWhole array rest ↔ ¬ ArgumentsIgnored array := by
  obtain ⟨verb, args, rfl⟩ := List.exists_cons_of_length_pos present
  rw [argumentsIgnored_cons]
  rw [List.length_cons] at few
  rcases spelled_or_unknown verb with ⟨c, spelled⟩ | unknown
  · have verdict := tryParseFrame_array rest few addressable spelled
    rw [takesNoArguments_spelled spelled]
    constructor
    · rintro whole ⟨ignores, some⟩
      obtain ⟨arg, args, rfl⟩ := List.exists_cons_of_ne_nil some
      obtain ⟨d, answer⟩ := respArguments_ignored ignores (arg :: args)
      rw [answer] at verdict
      have size := whole _ d verdict
      have positive := bulkString_length_pos arg
      rw [argumentsRead, if_pos ignores, respFrame_eq, arrayFront_length, arrayFront_length,
        List.flatMap_cons, List.length_append, List.flatMap_nil, List.length_nil] at size
      omega
    · intro used consumed d accepted
      rw [verdict, argumentsRead_all used] at accepted
      split at accepted
      · cases accepted
        rw [respFrame_eq]
      · cases accepted
  · have refused := tryParseFrame_array_unknown rest few (addressable verb (by simp)) unknown
    rw [takesNoArguments_unknown unknown]
    refine iff_of_true ?_ (by simp)
    intro consumed c accepted
    rw [refused] at accepted
    cases accepted

/-- `SET k v` is consumed whole. -/
theorem consumedWhole_set : ConsumedWhole [ascii "SET", ascii "k", ascii "v"] (ascii "*1") :=
  (consumedWhole_iff [ascii "SET", ascii "k", ascii "v"] (ascii "*1") (by decide) (by decide)
    (by decide)).2 (show ¬ takesNoArguments (ascii "SET") = true by decide)

/-- `PING x` is accepted, and its argument is left in the buffer. -/
theorem consumedWhole_ping_false : ¬ ConsumedWhole [ascii "PING", ascii "x"] [] := by
  intro whole
  have accepted : tryParseFrame (respFrame [ascii "PING", ascii "x"] ++ []) =
      .ok (.complete 14 .ping) := by decide +kernel
  have size := whole 14 .ping accepted
  exact absurd size (by decide +kernel)

/-! ## Lines and arrays -/

/-- The tokens as an inline line. -/
def joined (array : List Bytes) : Bytes := [32].intercalate array

/-- Both parsers refuse, or both find the same command. -/
def SameAnswer : Except ParseError Command → Except ParseError FrameResult → Prop
  | .ok c, .ok (.complete _ d) => c = d
  | .error _, .error _ => True
  | _, _ => False

instance (line : Except ParseError Command) (frame : Except ParseError FrameResult) :
    Decidable (SameAnswer line frame) :=
  match line, frame with
  | .ok c, .ok (.complete _ d) => inferInstanceAs (Decidable (c = d))
  | .error _, .error _ => isTrue trivial
  | .ok _, .ok .incomplete => isFalse id
  | .ok _, .ok (.skip _) => isFalse id
  | .ok _, .error _ => isFalse id
  | .error _, .ok _ => isFalse id

/-- The line and the array of the same tokens get the same answer. -/
def SameLanguage (array : List Bytes) : Prop :=
  SameAnswer (parseBytes (joined array)) (tryParseFrame (respFrame array))

instance (array : List Bytes) : Decidable (SameLanguage array) :=
  inferInstanceAs (Decidable (SameAnswer _ _))

/-- The arrays that are accepted while the line of the same tokens is refused. -/
inductive LanguageDivergence : List Bytes → Prop where
  /-- FLUSHDB and KEYS take no arguments on a line. -/
  | ignored (verb arg : Bytes) (args : List Bytes)
      (known : eqIgnoreAsciiCase verb (ascii "FLUSHDB") = true ∨
        eqIgnoreAsciiCase verb (ascii "KEYS") = true) : LanguageDivergence (verb :: arg :: args)
  /-- A lone token behind key and value is skipped in an array. -/
  | lone (verb key value opt : Bytes) (isSet : eqIgnoreAsciiCase verb (ascii "SET") = true) :
      LanguageDivergence [verb, key, value, opt]
  /-- And so is what follows the option and its number. -/
  | excess (verb key value opt number extra : Bytes) (more : List Bytes)
      (isSet : eqIgnoreAsciiCase verb (ascii "SET") = true)
      (known : eqIgnoreAsciiCase opt (ascii "EX") = true ∨ eqIgnoreAsciiCase opt (ascii "PX") = true)
      (numeral : (parseUnsigned 64 number).isSome = true) :
      LanguageDivergence (verb :: key :: value :: opt :: number :: extra :: more)

/-- A divergence of SET, of FLUSHDB or of KEYS. -/
theorem LanguageDivergence.verb {verb : Bytes} {args : List Bytes}
    (diverges : LanguageDivergence (verb :: args)) :
    eqIgnoreAsciiCase verb (ascii "SET") = true ∨ eqIgnoreAsciiCase verb (ascii "FLUSHDB") = true ∨
      eqIgnoreAsciiCase verb (ascii "KEYS") = true := by
  cases diverges with
  | ignored _ _ _ known => exact .inr known
  | lone _ _ _ _ isSet => exact .inl isSet
  | excess _ _ _ _ _ _ _ isSet _ _ => exact .inl isSet

theorem accepted_respTtl (opt number : Bytes) :
    accepted (respTtl opt number) = (ttlOf [opt, number]).map some := by
  rw [respTtl, ttlOf]
  split
  · cases parseUnsigned 64 number <;> rfl
  · split
    · cases parseUnsigned 64 number <;> rfl
    · rfl

/-- An array of SET with an option and a number behind key and value. -/
theorem accepted_respSetArguments (key value opt number : Bytes) (more : List Bytes) :
    accepted (respSetArguments (key :: value :: opt :: number :: more)) =
      (ttlOf [opt, number]).map fun lifetime => .set key value (some lifetime) := by
  have lifetime := accepted_respTtl opt number
  rw [respSetArguments]
  cases parsed : respTtl opt number with
  | error e =>
      rw [parsed] at lifetime
      have none : ttlOf [opt, number] = none := by simpa [accepted] using lifetime.symm
      rw [none]
      rfl
  | ok d =>
      rw [parsed] at lifetime
      cases known : ttlOf [opt, number] with
      | none =>
          rw [known] at lifetime
          cases lifetime
      | some e =>
          rw [known] at lifetime
          cases lifetime
          rfl

/-- SET: the arguments on which line and array differ. -/
theorem respSetArguments_same_iff (verb : Bytes) (args : List Bytes)
    (isSet : eqIgnoreAsciiCase verb (ascii "SET") = true) :
    accepted (setArguments args) = accepted (respSetArguments args) ↔
      ¬ LanguageDivergence (verb :: args) := by
  have other : ¬ (eqIgnoreAsciiCase verb (ascii "FLUSHDB") = true ∨
      eqIgnoreAsciiCase verb (ascii "KEYS") = true) := by
    rw [eqIgnoreAsciiCase_congr isSet, eqIgnoreAsciiCase_congr isSet]
    decide
  match args with
  | [] =>
      refine iff_of_true (by simp only [setArguments, respSetArguments, accepted_error]) ?_
      rintro ⟨⟩
  | [key] =>
      refine iff_of_true (by simp only [setArguments, respSetArguments, accepted_error]) ?_
      intro diverges
      cases diverges with
      | ignored _ _ _ known => exact other known
  | [key, value] =>
      refine iff_of_true (by simp only [setArguments, respSetArguments]) ?_
      intro diverges
      cases diverges with
      | ignored _ _ _ known => exact other known
  | [key, value, opt] =>
      refine iff_of_false ?_ (not_not.2 (.lone verb key value opt isSet))
      rw [accepted_setArguments (by simp)]
      simp [respSetArguments, accepted, ttlOf]
  | [key, value, opt, number] =>
      refine iff_of_true ?_ ?_
      · rw [accepted_setArguments (by simp), accepted_respSetArguments]
      · intro diverges
        cases diverges with
        | ignored _ _ _ known => exact other known
  | key :: value :: opt :: number :: extra :: more =>
      have refused : ttlOf (opt :: number :: extra :: more) = none := rfl
      rw [accepted_setArguments (by simp), accepted_respSetArguments, refused, Option.map_none, eq_comm,
        map_ttlOf_eq_none, not_iff_not]
      constructor
      · rintro ⟨known, numeral⟩
        exact .excess verb key value opt number extra more isSet known numeral
      · intro diverges
        cases diverges with
        | ignored _ _ _ known => exact absurd known other
        | excess _ _ _ _ _ _ _ _ known numeral => exact ⟨known, numeral⟩

theorem noArguments_same_iff (cmdName : String) (c : Command) (verb : Bytes) (args : List Bytes)
    (known : eqIgnoreAsciiCase verb (ascii "FLUSHDB") = true ∨
      eqIgnoreAsciiCase verb (ascii "KEYS") = true) :
    accepted (noArguments cmdName c args) = some c ↔ ¬ LanguageDivergence (verb :: args) := by
  match args with
  | [] =>
      refine iff_of_true rfl ?_
      rintro ⟨⟩
  | arg :: args =>
      refine iff_of_false ?_ (not_not.2 (.ignored verb arg args known))
      simp [noArguments, accepted]

theorem expireArguments_same (args : List Bytes) :
    accepted (expireArguments args) = accepted (respExpireArguments args) := by
  match args with
  | [] | [_] | _ :: _ :: _ :: _ =>
      simp only [expireArguments, respExpireArguments, accepted_error]
  | [key, secs] =>
      rw [expireArguments, respExpireArguments, respSeconds]
      cases parseUnsigned 64 secs with
      | none => rw [accepted_error]
      | some seconds => rfl

theorem msetArguments_accepted (few odd few' odd' : String) (args : List Bytes) :
    accepted (msetArguments few odd Command.mset args) =
      accepted (msetArguments few' odd' Command.mset args) := by
  unfold msetArguments
  split
  · rw [accepted_error, accepted_error]
  · rfl
  · rw [accepted_error, accepted_error]

/-- The verbs of both languages, argument by argument. -/
theorem arguments_same_iff (verb : Bytes) (c : Command) (args : List Bytes)
    (spelled : eqIgnoreAsciiCase verb (ascii (verbOf c)) = true) :
    accepted (inlineArguments c args) = accepted (respArguments c args) ↔
      ¬ LanguageDivergence (verb :: args) := by
  -- the other verbs have no divergence
  have never : eqIgnoreAsciiCase (ascii (verbOf c)) (ascii "SET") = false ∧
      eqIgnoreAsciiCase (ascii (verbOf c)) (ascii "FLUSHDB") = false ∧
      eqIgnoreAsciiCase (ascii (verbOf c)) (ascii "KEYS") = false →
      ¬ LanguageDivergence (verb :: args) := by
    rintro ⟨notSet, notFlush, notKeys⟩ diverges
    have known := diverges.verb
    rw [eqIgnoreAsciiCase_congr spelled, eqIgnoreAsciiCase_congr spelled,
      eqIgnoreAsciiCase_congr spelled, notSet, notFlush, notKeys] at known
    simp at known
  cases c with
  | set _ _ _ => exact respSetArguments_same_iff verb args spelled
  | flushDb => exact noArguments_same_iff _ _ verb args (.inl spelled)
  | keys => exact noArguments_same_iff _ _ verb args (.inr spelled)
  | expire _ _ => exact iff_of_true (expireArguments_same args) (never (by rw [verbOf]; decide))
  | mset _ => exact iff_of_true (msetArguments_accepted _ _ _ _ args) (never (by rw [verbOf]; decide))
  | ping | info | dbSize | get _ | del _ | incr _ | «exists» _ | ttl _ | mget _ =>
      exact iff_of_true rfl (never (by rw [verbOf]; decide))

/-- An inline line and an array of the same tokens are the same command, or both
refused, exactly if the array is none of `LanguageDivergence`. -/
theorem sameLanguage_iff (array : List Bytes) (present : 1 ≤ array.length) (few : array.length ≤ 1024)
    (tokens : ∀ token ∈ array, token ≠ [] ∧ ∀ b ∈ token, isWhitespace b = false)
    (addressable : ∀ token ∈ array, token.length < 2 ^ 63) :
    SameLanguage array ↔ ¬ LanguageDivergence array := by
  match array with
  | [] => exact absurd present (by simp)
  | verb :: args =>
      have split : Protocol.tokens (joined (verb :: args)) = verb :: args :=
        words_intercalate (by decide) tokens
      rw [List.length_cons] at few
      unfold SameLanguage
      rcases spelled_or_unknown verb with ⟨c, spelled⟩ | unknown
      · have verdict := tryParseFrame_array [] few addressable spelled
        rw [List.append_nil] at verdict
        rw [← arguments_same_iff verb c args spelled, verdict, parseBytes_spelled split spelled]
        cases inlineArguments c args with
        | error e => cases respArguments c args <;> simp [SameAnswer]
        | ok d => cases respArguments c args <;> simp [SameAnswer]
      · have verdict := tryParseFrame_array_unknown [] few (addressable verb (by simp)) unknown
        rw [List.append_nil] at verdict
        rw [verdict, parseBytes_unknown split unknown]
        refine iff_of_true trivial ?_
        intro diverges
        simp only [UnknownVerb, verbs, List.forall_mem_cons] at unknown
        have known := diverges.verb
        simp only [unknown, Bool.false_eq_true, or_false] at known

theorem sameLanguage_mget : SameLanguage [ascii "mget", ascii "a", ascii "b"] := by
  refine (sameLanguage_iff [ascii "mget", ascii "a", ascii "b"] (by decide) (by decide +kernel)
    (by decide +kernel) (by decide +kernel)).2 ?_
  intro diverges
  exact absurd diverges.verb (by decide)

/-- `SET k v NX` is refused on a line; the array is accepted, and sets the key. -/
theorem sameLanguage_nx_false : ¬ SameLanguage [ascii "SET", ascii "k", ascii "v", ascii "NX"] := by
  decide +kernel

end ZetDb.Protocol
