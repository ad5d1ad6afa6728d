/-
# Storage.Records -- the length-prefixed fields of the log and the snapshot

`storage/aof.rs` and `storage/snapshot.rs` read the same three fields with the
same code: a key behind a `u16` length, a value behind a `u32` length and a
signed time to live.  Each file guards every read by a limit of its own (the end
of the file, the end of the payload) and has its own copy of the little-endian
helpers, which differ in the error text only.

Every field reader satisfies the two laws of `Decodes` on the values its length
field can hold, so whole fields are read back and torn ones are refused.
-/
import ZetDb.Domain.Command

namespace ZetDb.Storage

set_option autoImplicit false

open ZetDb.Theory.Wire ZetDb.Theory.Text ZetDb.Domain

/-! ## The little-endian helpers -/

/-- Read `w` bytes at `pos` and step over them. -/
def readLe (file kind : String) (w : Nat) (data : Bytes) (pos : Nat) : Except String (Nat × Nat) :=
  if pos + w ≤ data.length then .ok (ofLe (slice data pos w), pos + w)
  else .error (file ++ " truncated " ++ kind)

def readU16Le (file : String) : Bytes → Nat → Except String (Nat × Nat) := readLe file "u16" 2
def readU32Le (file : String) : Bytes → Nat → Except String (Nat × Nat) := readLe file "u32" 4
def readU64Le (file : String) : Bytes → Nat → Except String (Nat × Nat) := readLe file "u64" 8

def readI64Le (file : String) (data : Bytes) (pos : Nat) : Except String (Int × Nat) :=
  match readLe file "i64" 8 data pos with
  | .ok (n, pos) => .ok (ofTwos 64 n, pos)
  | .error text => .error text

/-! ## The fields -/

def readKey (file : String) : Reader Key := fun data limit pos =>
  if pos + 2 > limit then none
  else
    match readU16Le file data pos with
    | .error _ => none
    | .ok (keyLen, pos) =>
        if pos + keyLen > limit then none
        else some (fromUtf8Lossy (slice data pos keyLen), pos + keyLen)

def readValue (file : String) : Reader Bytes := fun data limit pos =>
  if pos + 4 > limit then none
  else
    match readU32Le file data pos with
    | .error _ => none
    | .ok (valLen, pos) =>
        if pos + valLen > limit then none
        else some (slice data pos valLen, pos + valLen)

def readTtl (file : String) : Reader Int := fun data limit pos =>
  if pos + 8 > limit then none
  else
    match readI64Le file data pos with
    | .error _ => none
    | .ok r => some r

def readSeconds (file : String) : Reader Nat := fun data limit pos =>
  if pos + 8 > limit then none
  else
    match readU64Le file data pos with
    | .error _ => none
    | .ok r => some r

def readCount (file : String) : Reader Nat := fun data limit pos =>
  if pos + 2 > limit then none
  else
    match readU16Le file data pos with
    | .error _ => none
    | .ok r => some r

/-! ## Their encoders (`encode_key`, `encode_value`, `encode_ttl`) -/

def encodeKey (key : Key) : Bytes := toLe 2 key.length ++ key
def encodeValue (value : Bytes) : Bytes := toLe 4 value.length ++ value
def encodeTtl (ttlMs : Int) : Bytes := toLe 8 (toTwos 64 ttlMs)

/-- A key the two-byte length field and the lossy decoding keep as it is. -/
def KeyOk (key : Key) : Prop := key.length ≤ 65535 ∧ ValidUtf8 key

def ValueOk (value : Bytes) : Prop := value.length < 2 ^ 32

def TtlOk (ttlMs : Int) : Prop := -(2 ^ 63 : Int) ≤ ttlMs ∧ ttlMs < 2 ^ 63

instance (key : Key) : Decidable (KeyOk key) := inferInstanceAs (Decidable (_ ∧ _))
instance (value : Bytes) : Decidable (ValueOk value) := inferInstanceAs (Decidable (_ < _))

/-- A key, its value and its time to live, as SET entries and snapshot entries
store them. -/
def readRecord (file : String) : Reader (Key × Bytes × Int) :=
  (readKey file).pair ((readValue file).pair (readTtl file))

def encodeRecord (r : Key × Bytes × Int) : Bytes :=
  encodeKey r.1 ++ (encodeValue r.2.1 ++ encodeTtl r.2.2)

def RecordOk (r : Key × Bytes × Int) : Prop := KeyOk r.1 ∧ ValueOk r.2.1 ∧ TtlOk r.2.2

section Laws

variable (file : String)

theorem readCount_eq : readCount file = Reader.word 2 := by
  funext data limit pos
  by_cases past : pos + 2 > limit
  · simp [readCount, Reader.word, past]
  · by_cases inside : pos + 2 ≤ data.length <;>
      simp [readCount, Reader.word, readU16Le, readLe, past, inside]

theorem readSeconds_eq : readSeconds file = Reader.word 8 := by
  funext data limit pos
  by_cases past : pos + 8 > limit
  · simp [readSeconds, Reader.word, past]
  · by_cases inside : pos + 8 ≤ data.length <;>
      simp [readSeconds, Reader.word, readU64Le, readLe, past, inside]

theorem readTtl_eq : readTtl file = Reader.map (ofTwos 64) (Reader.word 8) := by
  funext data limit pos
  by_cases past : pos + 8 > limit
  · simp [readTtl, Reader.map, Reader.word, past]
  · by_cases inside : pos + 8 ≤ data.length <;>
      simp [readTtl, Reader.map, Reader.word, readI64Le, readLe, past, inside]

theorem readKey_eq : readKey file = Reader.sized (Reader.word 2) fromUtf8Lossy := by
  funext data limit pos
  by_cases past : pos + 2 > limit
  · simp [readKey, Reader.sized, Reader.word, past]
  · by_cases inside : pos + 2 ≤ data.length <;>
      simp [readKey, Reader.sized, Reader.word, readU16Le, readLe, past, inside]

theorem readValue_eq : readValue file = Reader.sized (Reader.word 4) id := by
  funext data limit pos
  by_cases past : pos + 4 > limit
  · simp [readValue, Reader.sized, Reader.word, past]
  · by_cases inside : pos + 4 ≤ data.length <;>
      simp [readValue, Reader.sized, Reader.word, readU32Le, readLe, past, inside]

theorem readCount_decodes : Decodes (readCount file) (toLe 2) (fun n => n ≤ 65535) := by
  rw [readCount_eq]
  exact (Decodes.word 2).weaken fun n small => by omega

theorem readSeconds_decodes : Decodes (readSeconds file) (toLe 8) (fun n => n < 2 ^ 64) := by
  rw [readSeconds_eq]
  exact (Decodes.word 8).weaken fun n small => by omega

theorem readTtl_decodes : Decodes (readTtl file) encodeTtl TtlOk := by
  rw [readTtl_eq]
  refine (Decodes.word 8).map (ofTwos 64) (toTwos 64) fun ttlMs ok => ⟨?_, ?_⟩
  · have := toTwos_lt 64 ttlMs
    omega
  · rw [ofTwos_toTwos]
    exact Int.bmod_eq_of_le (by have := ok.1; omega) (by have := ok.2; omega)

theorem readKey_decodes : Decodes (readKey file) encodeKey KeyOk := by
  rw [readKey_eq]
  exact ((Decodes.word 2).sized fromUtf8Lossy).weaken fun key ok =>
    ⟨by have := ok.1; omega, fromUtf8Lossy_of_valid ok.2⟩

theorem readValue_decodes : Decodes (readValue file) encodeValue ValueOk := by
  rw [readValue_eq]
  exact ((Decodes.word 4).sized id).weaken fun value ok =>
    ⟨by have : value.length < 2 ^ 32 := ok; omega, rfl⟩

theorem readRecord_decodes : Decodes (readRecord file) encodeRecord RecordOk :=
  (readKey_decodes file).pair ((readValue_decodes file).pair (readTtl_decodes file))

/-! Length and count fields say nothing about the text of a key: a reader that
takes the key's bytes as they stand gets every record back whose fields fit, and
`readKey` repairs the key afterwards. -/

def rawKey : Reader Key := Reader.sized (Reader.word 2) id

def rawRecord : Reader (Key × Bytes × Int) := rawKey.pair ((readValue file).pair (readTtl file))

/-- A record whose fields fit; its key may be any bytes. -/
def RecordFits (r : Key × Bytes × Int) : Prop :=
  r.1.length ≤ 65535 ∧ ValueOk r.2.1 ∧ TtlOk r.2.2

/-- A record as it is read back: its key as text. -/
def lossyRecord (r : Key × Bytes × Int) : Key × Bytes × Int := (fromUtf8Lossy r.1, r.2)

theorem RecordOk.fits {r : Key × Bytes × Int} (ok : RecordOk r) : RecordFits r :=
  ⟨ok.1.1, ok.2⟩

theorem lossyRecord_of_valid {r : Key × Bytes × Int} (valid : ValidUtf8 r.1) : lossyRecord r = r := by
  rw [lossyRecord, fromUtf8Lossy_of_valid valid]

theorem map_lossyRecord {records : List (Key × Bytes × Int)} (valid : ∀ r ∈ records, ValidUtf8 r.1) :
    records.map lossyRecord = records := by
  rw [List.map_congr_left fun r inside => lossyRecord_of_valid (valid r inside)]
  exact List.map_id records

theorem rawKey_decodes : Decodes rawKey encodeKey fun key => key.length ≤ 65535 :=
  ((Decodes.word 2).sized id).weaken fun _ short => ⟨by omega, rfl⟩

theorem rawRecord_decodes : Decodes (rawRecord file) encodeRecord RecordFits :=
  rawKey_decodes.pair ((readValue_decodes file).pair (readTtl_decodes file))

theorem readKey_eq_map : readKey file = rawKey.map fromUtf8Lossy := by
  rw [readKey_eq, Reader.sized_eq_map]
  rfl

theorem readKey_lossy {key : Key} {data rest : Bytes} {limit pos : Nat} (short : key.length ≤ 65535)
    (here : At data limit pos (encodeKey key ++ rest)) :
    readKey file data limit pos = some (fromUtf8Lossy key, pos + (encodeKey key).length) := by
  rw [readKey_eq_map, Reader.map, rawKey_decodes.whole short here, Option.bind_some]

theorem readRecord_lossy {r : Key × Bytes × Int} {data rest : Bytes} {limit pos : Nat}
    (fits : RecordFits r) (here : At data limit pos (encodeRecord r ++ rest)) :
    readRecord file data limit pos = some (lossyRecord r, pos + (encodeRecord r).length) := by
  have key : At data limit pos (encodeKey r.1 ++ (encodeValue r.2.1 ++ encodeTtl r.2.2 ++ rest)) := by
    rw [← List.append_assoc]
    exact here
  have fields := ((readValue_decodes file).pair (readTtl_decodes file)).whole fits.2 key.advance
  rw [readRecord, Reader.pair, readKey_lossy file fits.1 key, Option.bind_some, fields,
    Option.bind_some]
  have long : (encodeRecord r).length =
      (encodeKey r.1).length + (encodeValue r.2.1 ++ encodeTtl r.2.2).length := List.length_append
  rw [long, ← Nat.add_assoc]
  rfl

theorem readRecord_eq_map : readRecord file = (rawRecord file).map lossyRecord := by
  funext data limit pos
  rw [readRecord, rawRecord, readKey_eq_map, Reader.pair, Reader.map, Reader.map, Reader.pair]
  cases rawKey data limit pos with
  | none => rfl
  | some key =>
      simp only [Option.bind_some]
      cases (readValue file).pair (readTtl file) data limit key.2 <;> rfl

/-! What a reader of raw fields returns stands encoded where it was read. -/

theorem rawKey_sound : Sound rawKey encodeKey fun key => key.length < 256 ^ 2 := (Sound.word 2).sized

theorem readValue_sound : Sound (readValue file) encodeValue fun value => value.length < 256 ^ 4 := by
  rw [readValue_eq]
  exact (Sound.word 4).sized

theorem readTtl_sound : Sound (readTtl file) encodeTtl TtlOk := by
  rw [readTtl_eq]
  refine (Sound.word 8).map (ofTwos 64) (toTwos 64) ?_
  intro n small
  have small : n < 2 ^ 64 := by omega
  exact ⟨bmod_range n, toTwos_ofTwos small⟩

theorem rawRecord_sound : Sound (rawRecord file) encodeRecord RecordFits := by
  have fields := rawKey_sound.pair ((readValue_sound file).pair (readTtl_sound file))
  constructor
  intro data limit pos r next inData read
  obtain ⟨⟨short, value, ttl⟩, rest⟩ := fields.holds inData read
  refine ⟨⟨by omega, ?_, ttl⟩, rest⟩
  show r.2.1.length < 2 ^ 32
  omega

theorem readKey_forward : (readKey file).Forward := by
  rw [readKey_eq]
  exact Reader.sized_forward (Reader.word_forward 2) _

theorem readValue_forward : (readValue file).Forward := by
  rw [readValue_eq]
  exact Reader.sized_forward (Reader.word_forward 4) _

theorem readTtl_forward : (readTtl file).Forward := by
  rw [readTtl_eq]
  exact Reader.map_forward (Reader.word_forward 8) _

theorem readSeconds_forward : (readSeconds file).Forward := by
  rw [readSeconds_eq]
  exact Reader.word_forward 8

theorem readCount_forward : (readCount file).Forward := by
  rw [readCount_eq]
  exact Reader.word_forward 2

end Laws

end ZetDb.Storage
