/-
# Server.Progress -- a complete request leaves the buffer

A buffer whose front request is complete should get shorter in one pass of the
processing loop: the request is executed, or refused and skipped.  It does not on
three kinds of input:

* an array of zero elements is an `EmptyCommand` to the parser, and that arm leaves
  the loop without consuming the header;
* a CR that is not followed by LF makes the inline parser wait, though the line has
  its LF;
* the buffer `\n` is skipped by two bytes and has one: the session dies.

`progress_iff` says that these are all.  The first two wedge the connection: every
later pass finds the same front.
-/
import ZetDb.Server.Chunking

namespace ZetDb.Server

set_option autoImplicit false

open ZetDb.Theory.Wire ZetDb.Theory.Text ZetDb.Theory.Stream ZetDb.Domain ZetDb.Storage ZetDb.Protocol

/-! ## Requests that have arrived -/

/-- A bulk string: its length, with leading zeros or without, and its data; or the
null string. -/
inductive BulkCode : Bytes → Prop where
  | data (digits data : Bytes) (counts : parseDigits digits = some data.length) :
      BulkCode (36 :: (digits ++ crlf) ++ (data ++ crlf))
  | null : BulkCode (ascii "$-1\r\n")

/-- An array of `n` bulk strings. -/
inductive ArrayCode : Nat → Bytes → Prop where
  | array (digits : Bytes) (bulks : List Bytes) (counts : parseDigits digits = some bulks.length)
      (each : ∀ code ∈ bulks, BulkCode code) :
      ArrayCode bulks.length (42 :: (digits ++ crlf) ++ bulks.flatten)

/-- The front request of the buffer is complete: an array with all its bulk strings,
or a line with its LF. -/
inductive CompleteFront : Bytes → Prop where
  | array (n : Nat) (code rest : Bytes) (whole : ArrayCode n code) : CompleteFront (code ++ rest)
  | line (buf : Bytes) (inline : buf.head? ≠ some 42) (ended : (10 : UInt8) ∈ buf) : CompleteFront buf

/-- The buffers on which the loop makes no progress. -/
inductive Wedges : Bytes → Prop where
  | zeroElements (code rest : Bytes) (empty : ArrayCode 0 code) : Wedges (code ++ rest)
  | strayCr (buf : Bytes) (inline : buf.head? ≠ some 42) (q : Nat) (found : memchr 10 buf = some q)
      (stray : (13 : UInt8) ∈ buf.take (q - 1)) : Wedges buf
  | loneLf : Wedges [10]

/-! ## RESP -/

section Resp

variable {limit : Nat}

/-- A bulk string of a buffer of at most `limit` bytes. -/
def ShortBulk (limit : Nat) (code : Bytes) : Prop := BulkCode code ∧ code.length ≤ limit

theorem nullLine_reads : Reads (readRespLineInt 36) (ascii "$-1\r\n") (-1) where
  whole := by
    intro rest
    show readRespLineInt 36 (ascii "$-1\r" ++ 10 :: rest) = .ok (some (-1, 5))
    rw [readRespLineInt_line (by decide)]
    decide +kernel
  torn := by
    intro seen before strict
    have ended : ascii "$-1\r\n" = ascii "$-1\r" ++ [10] := rfl
    rw [ended] at before strict
    refine readRespLineInt_unfinished (line_torn (by decide) before strict) ?_
    intro first head
    obtain ⟨rest, rfl⟩ := List.head?_eq_some_iff.1 head
    exact (List.cons_prefix_cons.1 before).1

theorem bulkCode_reads {code : Bytes} (bulk : BulkCode code) (small : code.length < 2 ^ 63) :
    ∃ data, Reads readRespBulk code data := by
  cases bulk with
  | data digits data counts =>
      have fits : data.length < 2 ^ 63 := by
        simp only [List.length_append] at small
        omega
      refine ⟨data, (readRespLineInt_numeral (by decide) counts fits).bind ?_⟩
      rw [if_neg (by omega), Int.toNat_natCast]
      exact takeBulk_reads data
  | null =>
      refine ⟨[], ?_⟩
      rw [← List.append_nil (ascii "$-1\r\n")]
      refine nullLine_reads.bind ?_
      rw [if_pos (by decide)]
      exact Reads.pure []

theorem readRespBulk_takes (small : limit < 2 ^ 63) : Takes (ShortBulk limit) 1 readRespBulk :=
  Takes.one fun _ bulk => bulkCode_reads bulk.1 (lt_of_le_of_lt bulk.2 small)

/-- The errors that the session reports to the client. -/
def Reported (e : ParseError) : Prop := e ≠ .emptyCommand

theorem reported_syntaxText (text : String) : Reported (.syntaxText text) := by
  intro same
  cases same

theorem respTtl_reported (opt number : Bytes) : ∀ e, respTtl opt number = .error e → Reported e := by
  intro e refused
  unfold respTtl at refused
  split at refused
  · split at refused <;> cases refused
    exact reported_syntaxText _
  · split at refused
    · split at refused <;> cases refused
      exact reported_syntaxText _
    · cases refused
      exact fun same => by cases same

theorem respSeconds_reported (secs : Bytes) : ∀ e, respSeconds secs = .error e → Reported e := by
  intro e refused
  unfold respSeconds at refused
  split at refused <;> cases refused
  exact reported_syntaxText _

variable (small : limit < 2 ^ 63)

include small

theorem respSingleKey_finishes (cmdName : String) (make : Key → Command) (k : Nat) :
    Finishes (ShortBulk limit) Reported k (respSingleKey cmdName make k) := by
  unfold respSingleKey
  split
  · exact Finishes.fail (reported_syntaxText _)
  · rename_i one
    have read : Finishes (ShortBulk limit) Reported (1 + 0) (readRespBulk >>= fun key => pure (make key)) :=
      Finishes.bind (readRespBulk_takes small) fun key => Finishes.pure _
    exact read.mono (by omega)

theorem respSet_finishes (k : Nat) : Finishes (ShortBulk limit) Reported k (respSet k) := by
  have bulk := readRespBulk_takes small
  have skip (m : Nat) (c : Command) :
      Finishes (ShortBulk limit) Reported (m * 1 + 0) (readRespBulk.times m >>= fun _ => pure c) :=
    Finishes.bind (bulk.times m) fun _ => Finishes.pure c
  unfold respSet
  split
  · exact Finishes.fail (reported_syntaxText _)
  · split
    · refine (Finishes.bind bulk fun key => Finishes.bind bulk fun value => Finishes.bind bulk fun opt =>
        Finishes.bind bulk fun number => Finishes.lift_bind (respTtl_reported opt number) fun lifetime _ =>
          skip (k - 4) (.set key value lifetime)).mono ?_
      omega
    · refine (Finishes.bind bulk fun key => Finishes.bind bulk fun value =>
        skip (k - 2) (.set key value none)).mono ?_
      omega

theorem respExpire_finishes (k : Nat) : Finishes (ShortBulk limit) Reported k (respExpire k) := by
  have bulk := readRespBulk_takes small
  unfold respExpire
  split
  · exact Finishes.fail (reported_syntaxText _)
  · refine (Finishes.bind bulk fun key => Finishes.bind bulk fun secs =>
      Finishes.lift_bind (respSeconds_reported secs) fun seconds _ =>
        (Finishes.pure (k := 0) (Command.expire key seconds))).mono ?_
    omega

theorem respMget_finishes (k : Nat) : Finishes (ShortBulk limit) Reported k (respMget k) := by
  unfold respMget
  split
  · exact Finishes.fail (reported_syntaxText _)
  · refine (Finishes.bind ((readRespBulk_takes small).times k) fun keys =>
      Finishes.pure (k := 0) (Command.mget keys)).mono ?_
    omega

theorem respMset_finishes (k : Nat) : Finishes (ShortBulk limit) Reported k (respMset k) := by
  have bulk := readRespBulk_takes small
  have pair : Takes (ShortBulk limit) 2 respPair :=
    bulk.bind fun key => bulk.bind fun value => Takes.pure (key, value)
  unfold respMset
  split
  · exact Finishes.fail (reported_syntaxText _)
  · refine (Finishes.bind (pair.times (k / 2)) fun pairs =>
      Finishes.pure (k := 0) (Command.mset pairs)).mono ?_
    omega

theorem respCommand_finishes (verb : Bytes) (k : Nat) :
    Finishes (ShortBulk limit) Reported k (respCommand verb k) := by
  rcases spelled_or_unknown verb with ⟨c, spelled⟩ | unknown
  · rw [respCommand_spelled k spelled]
    cases c with
    | ping | info | dbSize | flushDb | keys => exact Finishes.pure _
    | get _ | del _ | incr _ | «exists» _ | ttl _ => exact respSingleKey_finishes small _ _ k
    | set _ _ _ => exact respSet_finishes small k
    | expire _ _ => exact respExpire_finishes small k
    | mget _ => exact respMget_finishes small k
    | mset _ => exact respMset_finishes small k
  · rw [respCommand_unknown k unknown]
    exact Finishes.fail fun same => by cases same

/-- What is read behind the header of an array. -/
def arrayBody (header : Int) : RespReader Command :=
  Scanner.lift (respCount header) >>= fun count =>
    readRespBulk >>= fun verb => respCommand verb (count - 1)

theorem arrayBody_finishes {n : Nat} (filled : n ≠ 0) :
    Finishes (ShortBulk limit) Reported n (arrayBody n) := by
  have counted : respCount n = if n > 1024 then .error (.syntaxText "RESP: array too large") else .ok n := by
    have positive : ¬ (n : Int) < 0 := by omega
    simp [respCount, positive, filled]
  refine Finishes.lift_bind ?_ ?_
  · intro e refused
    rw [counted] at refused
    split at refused <;> cases refused
    exact reported_syntaxText _
  · intro count isCount
    rw [counted] at isCount
    split at isCount <;> cases isCount
    refine (Finishes.bind (readRespBulk_takes small) fun verb =>
      respCommand_finishes small verb (n - 1)).mono ?_
    omega

end Resp

theorem BulkCode.length_pos {code : Bytes} (bulk : BulkCode code) : 0 < code.length := by
  cases bulk with
  | data digits data counts => simp
  | null => decide

theorem length_le_flatten {bulks : List Bytes} (each : ∀ code ∈ bulks, BulkCode code) :
    bulks.length ≤ bulks.flatten.length := by
  induction bulks with
  | nil => simp
  | cons code bulks ih =>
      have first := (each code (by simp)).length_pos
      have later := ih fun c inside => each c (by simp [inside])
      simp only [List.length_cons, List.flatten_cons, List.length_append]
      omega

/-- A complete array leaves the buffer, unless it has no elements. -/
theorem remainder_array {n : Nat} {code rest : Bytes} (whole : ArrayCode n code)
    (small : (code ++ rest).length ≤ maxReadBuf) : remainder true (code ++ rest) = none ↔ n = 0 := by
  cases whole with
  | array digits bulks counts each =>
      have limit : maxReadBuf < 2 ^ 63 := by decide
      simp only [List.length_append, List.length_cons] at small
      have few := length_le_flatten each
      have header : Reads (readRespLineInt 42) (42 :: (digits ++ crlf)) (bulks.length : Int) :=
        readRespLineInt_numeral (by decide) counts (by omega)
      have items : ∀ code ∈ bulks, ShortBulk maxReadBuf code := by
        intro code inside
        have inFlatten := (List.sublist_flatten_of_mem inside).length_le
        exact ⟨each code inside, by omega⟩
      have verdict : tryParseFrame (42 :: (digits ++ crlf) ++ bulks.flatten ++ rest) =
          frameOf (parseRespFrame (42 :: (digits ++ crlf) ++ (bulks.flatten ++ rest))) := by
        rw [List.append_assoc]
        exact tryParseFrame_resp _
      have body : parseRespFrame = (readRespLineInt 42 >>= arrayBody) := rfl
      rw [remainder, if_pos rfl, verdict, body, header.bind_apply]
      by_cases empty : bulks.length = 0
      · have refused : arrayBody bulks.length (bulks.flatten ++ rest) = .error .emptyCommand := by
          rw [empty]
          rfl
        rw [refused]
        exact ⟨fun _ => empty, fun _ => rfl⟩
      · refine ⟨fun kept => ?_, fun none => absurd none empty⟩
        rcases arrayBody_finishes limit empty bulks rest le_rfl items with
          ⟨c, k, read⟩ | ⟨e, refused, answered⟩
        · rw [read] at kept
          cases kept
        · rw [refused] at kept
          cases e with
          | emptyCommand => exact absurd rfl answered
          | _ => cases kept

/-! ## Lines -/

/-- A line that has its LF leaves the buffer, unless the parser meets a CR of its own. -/
theorem remainder_line {buf : Bytes} {q : Nat} (found : memchr 10 buf = some q) :
    remainder false buf = none ↔ (13 : UInt8) ∈ buf.take (q - 1) := by
  rw [remainder, if_neg (by decide), parseInlineBorrowed_eq, lineStop_lf found]
  by_cases stray : (13 : UInt8) ∈ buf.take (q - 1)
  · rw [if_pos stray]
    exact ⟨fun _ => stray, fun _ => rfl⟩
  · rw [if_neg stray]
    refine ⟨?_, fun inside => absurd inside stray⟩
    simp only [lineVerdict]
    split
    · exact fun kept => by cases kept
    · rename_i filled
      split
      · exact fun kept => by cases kept
      · rename_i e refused
        have answered := parseLineBorrowed_error (Bool.not_eq_true _ ▸ filled) refused
        cases e with
        | emptyCommand => exact absurd rfl answered
        | _ => exact fun kept => by cases kept

/-! ## A pass of the loop -/

section Pass

variable {σ τ : Type} (d : Dispatchers σ τ) (env : Nat → τ) (opts : Options)

theorem loop_shorter {round : Session σ → Round σ}
    (shrinks : ∀ s t, round s = .again t → t.readBuf.length < s.readBuf.length) (fuel : Nat)
    (s : Session σ) : (loop round fuel s).readBuf.length ≤ s.readBuf.length := by
  induction fuel generalizing s with
  | zero => exact le_rfl
  | succ fuel ih =>
      rw [loop]
      split
      · rename_i t again
        exact (ih t).trans (shrinks s t again).le
      · exact le_rfl
      · exact le_rfl

theorem protocolRound_shrinks (isResp : Bool) (s t : Session σ)
    (again : protocolRound d env opts isResp s = .again t) : t.readBuf.length < s.readBuf.length := by
  cases isResp with
  | true => exact respRound_shrinks d env opts again
  | false => exact inlineRound_shrinks d env opts again

theorem process_eq_loop (s : Session σ) :
    process d env opts s =
      loop (protocolRound d env opts (s.readBuf.head? == some 42)) (s.readBuf.length + 1) s := by
  unfold process
  by_cases resp : s.readBuf.head? = some 42
  · rw [if_pos resp, beq_iff_eq.2 resp]
    rfl
  · rw [if_neg resp, beq_eq_false_iff_ne.2 resp]
    rfl

/-- Unless the buffer is a lone LF, a pass makes progress exactly when the first
round does. -/
theorem process_shorter_iff {s : Session σ} (lone : s.readBuf ≠ [10]) :
    (process d env opts s).readBuf.length < s.readBuf.length ↔
      remainder (s.readBuf.head? == some 42) s.readBuf ≠ none := by
  have first := protocolRound_remainder d env opts (s.readBuf.head? == some 42) rfl lone
  rw [process_eq_loop, loop]
  cases left : remainder (s.readBuf.head? == some 42) s.readBuf with
  | none =>
      rw [left] at first
      simp only at first
      simp [first]
  | some rest =>
      rw [left] at first
      obtain ⟨t, again, -, -⟩ := first
      have shorter := protocolRound_shrinks d env opts _ s t again
      have later := loop_shorter (protocolRound_shrinks d env opts (s.readBuf.head? == some 42))
        s.readBuf.length t
      simp only [again, ne_eq, reduceCtorEq, not_false_eq_true, iff_true]
      omega

/-- A lone LF is skipped by two bytes, which ends the session in a panic. -/
theorem process_lone_lf {s : Session σ} (lone : s.readBuf = [10]) :
    process d env opts s = { s with status := .panicked } := by
  have verdict : parseInlineBorrowed s.readBuf = .ok (.skip 2) := by
    rw [lone]
    rfl
  have dies : inlineRound d env opts s = .panic := by
    rw [inlineRound, verdict]
    simp [round, advance, lone]
  rw [process, if_neg (by rw [lone]; decide), loop, dies]

theorem arrayCode_head {n : Nat} {code rest : Bytes} (whole : ArrayCode n code) :
    (code ++ rest).head? = some 42 := by
  cases whole
  rfl

/-- The kinds of buffers whose first round stops. -/
theorem wedges_iff {buf : Bytes} (small : buf.length ≤ maxReadBuf) (complete : CompleteFront buf)
    (lone : buf ≠ [10]) : Wedges buf ↔ remainder (buf.head? == some 42) buf = none := by
  constructor
  · intro wedges
    cases wedges with
    | zeroElements code rest empty =>
        rw [arrayCode_head empty, beq_self_eq_true]
        exact (remainder_array empty small).2 rfl
    | strayCr _ inline q found stray =>
        rw [beq_eq_false_iff_ne.2 inline]
        exact (remainder_line found).2 stray
    | loneLf => exact absurd rfl lone
  · intro kept
    cases complete with
    | array n code rest whole =>
        rw [arrayCode_head whole, beq_self_eq_true] at kept
        obtain rfl : n = 0 := (remainder_array whole small).1 kept
        exact .zeroElements code rest whole
    | line _ inline ended =>
        rw [beq_eq_false_iff_ne.2 inline] at kept
        cases found : memchr 10 buf with
        | none => exact absurd ended (memchr_eq_none found)
        | some q => exact .strayCr buf inline q found ((remainder_line found).1 kept)

/-- On a complete front request a pass of the loop removes something, exactly when
the buffer is not of one of the three kinds. -/
theorem progress_iff (s : Session σ) (small : s.readBuf.length ≤ maxReadBuf)
    (complete : CompleteFront s.readBuf) :
    (process d env opts s).readBuf.length < s.readBuf.length ↔ ¬ Wedges s.readBuf := by
  by_cases lone : s.readBuf = [10]
  · rw [process_lone_lf d env opts lone, lone]
    exact ⟨fun shorter => absurd shorter (lt_irrefl _), fun free => absurd .loneLf free⟩
  · rw [process_shorter_iff d env opts lone, ← not_iff_not, not_not, not_not]
    exact (wedges_iff small complete lone).symm

end Pass

/-- A connection that has received these bytes. -/
def received (buf : Bytes) : Session DashMapEngine := { Session.start .new with readBuf := buf }

/-- The server's processing of such a connection. -/
noncomputable def processed (buf : Bytes) : Session DashMapEngine :=
  process dispatchers (fun k => ⟨Iter.some, .new, k⟩) ⟨true, true⟩ (received buf)

/-- An unknown verb is answered and removed. -/
theorem progress_unknown_line :
    (processed (ascii "FOO\r\nPING\r\n")).readBuf.length < (ascii "FOO\r\nPING\r\n").length := by
  have complete : CompleteFront (ascii "FOO\r\nPING\r\n") := .line _ (by decide) (by decide)
  refine (progress_iff dispatchers _ _ (received (ascii "FOO\r\nPING\r\n")) (by decide) complete).2 ?_
  show ¬ Wedges (ascii "FOO\r\nPING\r\n")
  rw [wedges_iff (by decide) complete (by decide)]
  decide +kernel

/-- An array of zero elements stays in front of a PING. -/
theorem progress_empty_array_false :
    CompleteFront (ascii "*0\r\n*1\r\n$4\r\nPING\r\n") ∧
      (processed (ascii "*0\r\n*1\r\n$4\r\nPING\r\n")).readBuf =
        ascii "*0\r\n*1\r\n$4\r\nPING\r\n" := by
  refine ⟨.array 0 (ascii "*0\r\n") (ascii "*1\r\n$4\r\nPING\r\n") ?_, by decide +kernel⟩
  exact .array (ascii "0") [] (by decide) (by simp)

end ZetDb.Server
