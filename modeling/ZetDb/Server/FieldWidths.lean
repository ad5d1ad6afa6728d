/-
# Server.FieldWidths -- what a client can send, against the fields it is stored in

The log writes a key behind 16 bits, a value behind 32, the pairs of an MSET
behind 16, and a lifetime as signed milliseconds; the rewrite and the snapshot
write the entries a command leaves with the same fields.  All of them cast, none
checks.  The only bound on a request is the read buffer of one megabyte:

* values are pieces of the buffer, so their lengths always fit;
* keys and the number of pairs may exceed 16 bits;
* seconds are any 64-bit number, so their milliseconds may exceed 63.

`fieldsExact_iff` is the exact condition.  An EXPIRE past the range of the clock
is no exception to it: the sum is refused before anything is stored.
-/
import ZetDb.Protocol.Sizes
import ZetDb.Server.Session
import ZetDb.Storage.Expiry
import ZetDb.Storage.Reload

namespace ZetDb.Server

set_option autoImplicit false

open ZetDb.Theory.Wire ZetDb.Theory.Text ZetDb.Domain ZetDb.Application ZetDb.Storage ZetDb.Protocol

/-- A write command that one of the two parsers reads from a buffer the session
keeps. -/
def Admitted (c : Command) : Prop :=
  c.isWrite = true ∧ ∃ buf : Bytes, buf.length ≤ maxReadBuf ∧
    ((∃ consumed, tryParseFrame buf = .ok (.complete consumed c)) ∨
      ∃ consumed p, parseInlineBorrowed buf = .ok (.complete consumed p) ∧ p.toOwned = c)

theorem Admitted.within {c : Command} (admitted : Admitted c) : Within maxReadBuf c := by
  obtain ⟨-, buf, small, ⟨consumed, parsed⟩ | ⟨consumed, p, parsed, rfl⟩⟩ := admitted
  · exact (tryParseFrame_within parsed).mono small
  · exact (parseInlineBorrowed_bound parsed).mono small

/-! ## The fields of a log entry -/

/-- The bytes of a field of width `w` say `n`. -/
def Exact (w n : Nat) : Prop := ofLe (toLe w n) = n

theorem exact_iff {w n : Nat} : Exact w n ↔ n < 256 ^ w := by
  refine ⟨fun exactly => ?_, ofLe_toLe_of_lt⟩
  have fits : n % 256 ^ w < 256 ^ w := Nat.mod_lt n (Nat.pow_pos (by decide))
  rwa [← ofLe_toLe, exactly] at fits

theorem exact_key {key : Key} : Exact 2 key.length ↔ key.length ≤ 65535 := by
  rw [exact_iff]
  omega

theorem exact_value {value : Bytes} : Exact 4 value.length ↔ ValueOk value := by
  rw [exact_iff, ValueOk]
  norm_num

/-- The milliseconds of a lifetime; `-1` without one. -/
def trueMillis : Option Duration → Int
  | some d => d.asMillis
  | none => -1

/-- Every length, count and number of the entry is what it stands for. -/
def FieldsExact : Command → Prop
  | .set key value lifetime =>
      Exact 2 key.length ∧ Exact 4 value.length ∧ Command.ttlMillis lifetime = trueMillis lifetime
  | .del key => Exact 2 key.length
  | .incr key => Exact 2 key.length
  | .expire key seconds => Exact 2 key.length ∧ Exact 8 seconds
  | .mset pairs => Exact 2 pairs.length ∧ ∀ p ∈ pairs, Exact 2 p.1.length ∧ Exact 4 p.2.length
  | _ => True

/-- A log entry, read. -/
inductive EntryFields where
  | set (key : Key) (value : Bytes) (ttlMs : Int)
  | del (key : Key)
  | incr (key : Key)
  | expire (key : Key) (seconds : Nat)
  | flushDb
  | mset (pairs : List (Key × Bytes))

def rawPair : Reader (Key × Bytes) := rawKey.pair (readValue "aof")

/-- The body of an entry, by its opcode.  The readers are those of the replay, up to
the repair of keys. -/
def readBody (cmdType : UInt8) : Reader EntryFields := fun data limit pos =>
  if cmdType = cmdSet then
    (rawRecord "aof").map (fun r => EntryFields.set r.1 r.2.1 r.2.2) data limit pos
  else if cmdType = cmdDel then rawKey.map EntryFields.del data limit pos
  else if cmdType = cmdIncr then rawKey.map EntryFields.incr data limit pos
  else if cmdType = cmdExpire then
    (rawKey.pair (readSeconds "aof")).map (fun r => EntryFields.expire r.1 r.2) data limit pos
  else if cmdType = cmdFlushDb then some (.flushDb, pos)
  else if cmdType = cmdMset then
    (readCount "aof" data limit pos).bind fun r => (rawPair.times r.1).map EntryFields.mset data limit r.2
  else none

def readEntry : Reader EntryFields := fun data limit pos =>
  (Reader.word 1 data limit pos).bind fun r => readBody (UInt8.ofNat r.1) data limit r.2

/-- What an entry of the command should say. -/
def fieldsOf : Command → Option EntryFields
  | .set key value lifetime => some (.set key value (trueMillis lifetime))
  | .del key => some (.del key)
  | .incr key => some (.incr key)
  | .expire key seconds => some (.expire key seconds)
  | .flushDb => some .flushDb
  | .mset pairs => some (.mset pairs)
  | _ => none

/-- The entry of the command is exact: its fields are, a reader at its start gets
them back and ends at its end, and so does the replay. -/
structure LogExact (c : Command) : Prop where
  fields : FieldsExact c
  readBack : ∀ {data rest : Bytes} {limit pos : Nat}, At data limit pos (c.aofBytes ++ rest) →
    ∃ said, fieldsOf c = some said ∧
      readEntry data limit pos = some (said, pos + c.aofBytes.length)
  replays : ∀ {data rest : Bytes} {pos : Nat} (iter : Iter) (m : MetricsSnapshot) (now : Instant)
    {e : DashMapEngine}, e.maxKeys = 0 → At data data.length pos (c.aofBytes ++ rest) →
    ∃ cmdType more, data.drop pos = cmdType :: more ∧
      replayEntry iter now data cmdType (pos + 1) e =
        some (replayCommand iter m now e (lossyCommand c), pos + c.aofBytes.length)

section Entries

variable {data rest : Bytes} {limit pos : Nat}

theorem readEntry_opcode {cmdType : UInt8} {body : Bytes} {said : EntryFields}
    (here : At data limit pos (cmdType :: body ++ rest))
    (read : readBody cmdType data limit (pos + 1) = some (said, pos + 1 + body.length)) :
    readEntry data limit pos = some (said, pos + (cmdType :: body).length) := by
  have small : cmdType.toNat < 256 := cmdType.toNat_lt
  have byte : toLe 1 cmdType.toNat = [cmdType] := by
    simp [toLe]
  have first : At data limit pos (toLe 1 cmdType.toNat ++ (body ++ rest)) := by
    rw [byte]
    exact here
  rw [readEntry, (Decodes.word 1).whole small first, byte, Option.bind_some, List.length_singleton,
    UInt8.ofNat_toNat, read, List.length_cons, Nat.add_assoc, Nat.add_comm 1]

theorem rawPair_decodes : Decodes rawPair encodePair fun p => p.1.length ≤ 65535 ∧ ValueOk p.2 :=
  rawKey_decodes.pair (readValue_decodes "aof")

theorem readEntry_record {r : Key × Bytes × Int} (fits : RecordFits r)
    (here : At data limit pos (cmdSet :: encodeRecord r ++ rest)) :
    readEntry data limit pos =
      some (.set r.1 r.2.1 r.2.2, pos + (cmdSet :: encodeRecord r).length) := by
  refine readEntry_opcode here ?_
  rw [readBody, if_pos rfl, Reader.map, (rawRecord_decodes "aof").whole fits here.step,
    Option.bind_some]

theorem readEntry_whole {c : Command} (fits : FieldsFit c)
    (millis : ∀ key value lifetime, c = .set key value lifetime →
      Command.ttlMillis lifetime = trueMillis lifetime)
    (here : At data limit pos (c.aofBytes ++ rest)) :
    ∃ said, fieldsOf c = some said ∧ readEntry data limit pos = some (said, pos + c.aofBytes.length) := by
  cases c with
  | set key value lifetime =>
      rw [aofBytes_set] at here ⊢
      refine ⟨_, rfl, ?_⟩
      rw [← millis key value lifetime rfl]
      exact readEntry_record ⟨fits.1, fits.2, ttlMillis_ok lifetime⟩ here
  | del key =>
      rw [aofBytes_del] at here ⊢
      refine ⟨_, rfl, readEntry_opcode here ?_⟩
      rw [readBody, if_neg (by decide), if_pos rfl, Reader.map, rawKey_decodes.whole fits here.step,
        Option.bind_some]
  | incr key =>
      rw [aofBytes_incr] at here ⊢
      refine ⟨_, rfl, readEntry_opcode here ?_⟩
      rw [readBody, if_neg (by decide), if_neg (by decide), if_pos rfl, Reader.map,
        rawKey_decodes.whole fits here.step, Option.bind_some]
  | expire key seconds =>
      rw [aofBytes_expire] at here ⊢
      have body := (rawKey_decodes.pair (readSeconds_decodes "aof")).whole (a := (key, seconds)) fits here.step
      refine ⟨_, rfl, readEntry_opcode here ?_⟩
      rw [readBody, if_neg (by decide), if_neg (by decide), if_neg (by decide), if_pos rfl, Reader.map,
        body, Option.bind_some]
  | flushDb =>
      rw [aofBytes_flushDb] at here ⊢
      exact ⟨_, rfl, readEntry_opcode here rfl⟩
  | mset pairs =>
      rw [aofBytes_mset] at here ⊢
      have body : At data limit (pos + 1) (toLe 2 pairs.length ++ (pairs.flatMap encodePair ++ rest)) := by
        rw [← List.append_assoc]
        exact here.step
      have count := (readCount_decodes "aof").whole fits.1 body
      have listed := rawPair_decodes.times_whole fits.2 body.advance
      refine ⟨_, rfl, readEntry_opcode here ?_⟩
      rw [readBody, if_neg (by decide), if_neg (by decide), if_neg (by decide), if_neg (by decide),
        if_neg (by decide), if_pos rfl, count, Option.bind_some, Reader.map, listed, Option.bind_some,
        List.length_append, Nat.add_assoc]
  | _ => exact fits.elim

end Entries

/-! ## The records of a dump -/

/-- What the snapshot and the rewrite write of an entry at `later` is exact: the
lengths, the milliseconds it has left, and what readers of the two records get
back. -/
structure DumpsExactly (later : Instant) (k : Key) (v : ValueEntry) : Prop where
  key : Exact 2 k.length
  value : Exact 4 v.data.length
  millis : ∀ expiry, v.expiresAt = some expiry → expiry < clockLimit →
    asI64 (Duration.asMillis (expiry - later)) = Duration.asMillis (expiry - later)
  snapshot : ∀ {data rest : Bytes} {limit pos : Nat} {record : Key × Bytes × Int},
    record = (k, v.data, DashMapEngine.remainingMillis later v) →
    At data limit pos (encodeRecord record ++ rest) →
    rawRecord "snapshot" data limit pos = some (record, pos + (encodeRecord record).length)
  rewrite : ∀ {data rest : Bytes} {limit pos : Nat} {record : Key × Bytes × Int},
    record = (k, v.data, DashMapEngine.remainingMillis later v) →
    At data limit pos (cmdSet :: encodeRecord record ++ rest) →
    readEntry data limit pos =
      some (.set record.1 record.2.1 record.2.2, pos + (cmdSet :: encodeRecord record).length)

/-- Whatever is dumped after the command is exact, if what was dumped before it was:
the entries the command creates or changes are. -/
def DumpExact (c : Command) : Prop :=
  ∀ (iter : Iter) (m : MetricsSnapshot) (now later : Instant) (e : DashMapEngine), now ≤ later →
    Each (DumpsExactly later) e → Each (DumpsExactly later) (exec iter m now e c)

section Dumps

variable {now later : Instant} {k : Key} {v : ValueEntry}

/-- The lengths and the milliseconds decide. -/
theorem dumpsExactly_iff : DumpsExactly later k v ↔
    k.length ≤ 65535 ∧ ValueOk v.data ∧ ∀ expiry, v.expiresAt = some expiry → expiry < clockLimit →
      Duration.asMillis (expiry - later) < 2 ^ 63 := by
  constructor
  · intro exactly
    refine ⟨exact_key.1 exactly.key, exact_value.1 exactly.value, fun expiry expires within => ?_⟩
    have below := (asI64_range (Duration.asMillis (expiry - later))).2
    rw [exactly.millis expiry expires within] at below
    exact_mod_cast below
  · rintro ⟨short, small, soon⟩
    have fits : RecordFits (k, v.data, DashMapEngine.remainingMillis later v) := by
      refine ⟨short, small, ?_⟩
      show TtlOk (DashMapEngine.remainingMillis later v)
      rcases remainingMillis_cases later v with none | ⟨positive, below⟩
      · rw [none]
        exact ⟨by decide, by decide⟩
      · exact ⟨by omega, below⟩
    refine ⟨exact_key.2 short, exact_value.2 small, fun expiry expires within => ?_, ?_, ?_⟩
    · exact asI64_of_lt (soon expiry expires within)
    · rintro data rest limit pos record rfl here
      exact (rawRecord_decodes "snapshot").whole fits here
    · rintro data rest limit pos record rfl here
      exact readEntry_record fits here

/-- Less time is left later on. -/
theorem asMillis_left {d : Duration} (forward : now ≤ later) (small : d.asMillis < 2 ^ 63) :
    Duration.asMillis (now + d - later) < 2 ^ 63 :=
  lt_of_le_of_lt (Nat.div_le_div_right (Nat.sub_le_iff_le_add'.2 (Nat.add_le_add_right forward d))) small

theorem asMillis_fromSecs (seconds : Nat) : (Duration.fromSecs seconds).asMillis = seconds * 1000 := by
  unfold Duration.asMillis Duration.fromSecs
  omega

theorem fromSecs_on_clock {seconds : Nat} : Duration.fromSecs seconds < clockLimit ↔ seconds < 2 ^ 63 :=
  Nat.mul_lt_mul_right (by decide)

end Dumps

/-! ## The condition -/

/-- The keys and the number of pairs fit 16 bits and the milliseconds of a lifetime
63; an EXPIRE may also lie past the range of the clock. -/
def FitsFormats : Command → Prop
  | .set key _ lifetime => key.length ≤ 65535 ∧ ∀ d, lifetime = some d → d.asMillis < 2 ^ 63
  | .del key => key.length ≤ 65535
  | .incr key => key.length ≤ 65535
  | .expire key seconds => key.length ≤ 65535 ∧ (seconds * 1000 < 2 ^ 63 ∨ 2 ^ 63 ≤ seconds)
  | .mset pairs => pairs.length ≤ 65535 ∧ ∀ p ∈ pairs, p.1.length ≤ 65535
  | _ => True

theorem valueOk_of_within {value : Bytes} (within : value.length ≤ maxReadBuf) : ValueOk value :=
  lt_of_le_of_lt within (by decide)

theorem ttlMillis_exact {lifetime : Option Duration} :
    Command.ttlMillis lifetime = trueMillis lifetime ↔ ∀ d, lifetime = some d → d.asMillis < 2 ^ 63 := by
  cases lifetime with
  | none => simp [Command.ttlMillis, trueMillis]
  | some d =>
      simp only [Command.ttlMillis, trueMillis, Option.some.injEq, forall_eq']
      constructor
      · intro exactly
        have below := (asI64_range d.asMillis).2
        rw [exactly] at below
        exact_mod_cast below
      · exact asI64_of_lt

section Condition

variable {c : Command}

theorem FitsFormats.fieldsFit (fits : FitsFormats c) (write : c.isWrite = true)
    (within : Within maxReadBuf c) : FieldsFit c := by
  cases c with
  | set key value lifetime => exact ⟨fits.1, valueOk_of_within within⟩
  | del key => exact fits
  | incr key => exact fits
  | expire key seconds => exact ⟨fits.1, within⟩
  | flushDb => trivial
  | mset pairs => exact ⟨fits.1, fun p inside => ⟨fits.2 p inside, valueOk_of_within (within p inside)⟩⟩
  | _ => cases write

theorem FitsFormats.logExact (fits : FitsFormats c) (write : c.isWrite = true)
    (within : Within maxReadBuf c) : LogExact c where
  fields := by
    cases c with
    | set key value lifetime =>
        exact ⟨exact_key.2 fits.1, exact_value.2 (valueOk_of_within within), ttlMillis_exact.2 fits.2⟩
    | del key => exact exact_key.2 fits
    | incr key => exact exact_key.2 fits
    | expire key seconds => exact ⟨exact_key.2 fits.1, exact_iff.2 within⟩
    | mset pairs =>
        refine ⟨exact_iff.2 (Nat.lt_succ_of_le fits.1), fun p inside => ⟨exact_key.2 (fits.2 p inside), ?_⟩⟩
        exact exact_value.2 (valueOk_of_within (within p inside))
    | _ => trivial
  readBack here := by
    refine readEntry_whole (fits.fieldsFit write within) ?_ here
    rintro key value lifetime rfl
    exact ttlMillis_exact.2 fits.2
  replays iter m now e unlimited here :=
    replayEntry_whole iter m now (fits.fieldsFit write within) unlimited here

theorem FitsFormats.dumpExact (fits : FitsFormats c) (within : Within maxReadBuf c) : DumpExact c := by
  intro iter m now later e forward each
  apply exec_each each
  cases c with
  | set key value lifetime =>
      refine dumpsExactly_iff.2 ⟨fits.1, ?_, ?_⟩
      · cases lifetime <;> exact valueOk_of_within within
      · cases lifetime with
        | none => exact fun expiry impossible => by cases impossible
        | some d =>
            intro expiry isExpiry _
            cases isExpiry
            exact asMillis_left forward (fits.2 d rfl)
  | incr key =>
      constructor
      · exact dumpsExactly_iff.2 ⟨fits, valueOk_one, fun expiry impossible => by cases impossible⟩
      · intro v i exactly
        exact dumpsExactly_iff.2 ⟨fits, valueOk_decimalInt i, (dumpsExactly_iff.1 exactly).2.2⟩
  | expire key seconds =>
      intro v exactly
      refine dumpsExactly_iff.2 ⟨fits.1, (dumpsExactly_iff.1 exactly).2.1, ?_⟩
      intro expiry isExpiry onClock
      cases isExpiry
      have within : seconds < 2 ^ 63 :=
        fromSecs_on_clock.1 (lt_of_le_of_lt (Nat.le_add_left _ now) onClock)
      apply asMillis_left forward
      rw [asMillis_fromSecs]
      exact fits.2.resolve_right (Nat.not_le.2 within)
  | mset pairs =>
      intro p inside
      exact dumpsExactly_iff.2 ⟨fits.2 p inside, valueOk_of_within (within p inside),
        fun expiry impossible => by cases impossible⟩
  | _ => trivial

/-- An EXPIRE of an entry that lasts. -/
theorem DumpExact.expire {key : Key} {seconds : Nat} (exactly : DumpExact (.expire key seconds))
    (short : key.length ≤ 65535) (onClock : seconds < 2 ^ 63) : seconds * 1000 < 2 ^ 63 := by
  let stored : DashMapEngine := DashMapEngine.new.insert key ⟨[], none, none⟩
  have before : Each (DumpsExactly 0) stored := each_new.insert
    (dumpsExactly_iff.2 ⟨short, by decide, fun expiry impossible => by cases impossible⟩)
  have found : (exec Iter.some .new 0 stored (.expire key seconds)).map.lookup key =
      some ⟨[], some (0 + Duration.fromSecs seconds), none⟩ := by
    have held : stored.map.lookup key = some ⟨[], none, none⟩ := Finmap.lookup_insert _
    rw [exec_expire, DashMapEngine.expire, held]
    exact Finmap.lookup_insert _
  have dumped := (dumpsExactly_iff.1 (exactly Iter.some .new 0 0 stored le_rfl before key _ found)).2.2
  have soon := dumped _ rfl (by rw [Nat.zero_add]; exact fromSecs_on_clock.2 onClock)
  rwa [Nat.zero_add, Nat.sub_zero, asMillis_fromSecs] at soon

/-- Among the write commands that fit a read buffer, those that keep every field of
the log, the rewrite and the snapshot exact. -/
theorem fieldsExact_iff (admitted : Admitted c) : (LogExact c ∧ DumpExact c) ↔ FitsFormats c := by
  constructor
  · rintro ⟨log, dump⟩
    have fields := log.fields
    cases c with
    | set key value lifetime => exact ⟨exact_key.1 fields.1, ttlMillis_exact.1 fields.2.2⟩
    | del key => exact exact_key.1 fields
    | incr key => exact exact_key.1 fields
    | expire key seconds =>
        have short := exact_key.1 fields.1
        refine ⟨short, ?_⟩
        by_cases onClock : seconds < 2 ^ 63
        · exact .inl (dump.expire short onClock)
        · exact .inr (Nat.not_lt.1 onClock)
    | mset pairs =>
        exact ⟨Nat.le_of_lt_succ (exact_iff.1 fields.1), fun p inside => exact_key.1 (fields.2 p inside).1⟩
    | _ => trivial
  · intro fits
    exact ⟨fits.logExact admitted.1 admitted.within, fits.dumpExact admitted.within⟩

end Condition

/-- `SET k v PX 9223372036854775807` fits, with the largest lifetime. -/
theorem fieldsExact_longest : LogExact (.set (ascii "k") (ascii "v")
      (some (Duration.fromMillis (2 ^ 63 - 1)))) ∧
    DumpExact (.set (ascii "k") (ascii "v") (some (Duration.fromMillis (2 ^ 63 - 1)))) := by
  apply (fieldsExact_iff ⟨rfl, ascii "SET k v PX 9223372036854775807\n", by decide, .inl ⟨31, ?_⟩⟩).2
  · exact ⟨by decide, fun d isLifetime => by cases isLifetime; decide⟩
  · decide +kernel

/-- `SET` with the key `aa…a` of 65536 bytes. -/
def longKeyRequest : Request where
  command := .set (List.replicate 65536 97) (ascii "v") none
  verb := ascii "SET"
  args := [List.replicate 65536 97, ascii "v"]
  spelled := by decide
  arguments := .set _ _
  addressable := by
    intro arg inside
    simp only [List.mem_cons, List.not_mem_nil, or_false] at inside
    rcases inside with rfl | rfl
    · rw [List.length_replicate]
      decide
    · decide

theorem longKeyRequest_admitted : Admitted longKeyRequest.command := by
  refine ⟨rfl, longKeyRequest.encode, ?_, .inl ⟨longKeyRequest.encode.length, ?_⟩⟩
  · have number : (decimal 65536).length = 5 := by decide +kernel
    simp only [Request.encode, longKeyRequest, respFrame, bulkString, List.flatMap_cons, List.flatMap_nil,
      List.length_append, List.length_replicate, List.length_cons, List.length_nil, number]
    decide +kernel
  · have parsed := tryParseFrame_request longKeyRequest []
    rwa [List.append_nil] at parsed

/-- Its length field says zero, so the replay would take the key's bytes for a
value and for further entries. -/
theorem fieldsExact_long_key_false :
    Admitted longKeyRequest.command ∧ longKeyRequest.command.aofBytes.take 3 = [cmdSet, 0, 0] ∧
      ¬ (LogExact longKeyRequest.command ∧ DumpExact longKeyRequest.command) := by
  refine ⟨longKeyRequest_admitted, ?_, fun exactly => ?_⟩
  · rw [longKeyRequest, aofBytes_set, encodeRecord, encodeKey, List.length_replicate]
    rfl
  · have short := exact_key.1 exactly.1.fields.1
    rw [List.length_replicate] at short
    exact absurd short (by decide)

end ZetDb.Server
