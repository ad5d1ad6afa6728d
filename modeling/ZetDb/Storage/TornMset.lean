/-
# Storage.TornMset -- what recovery makes of a log that is cut anywhere

A torn entry is dropped, unless it is an MSET cut behind its count.  The inner loop of
the replay then keeps the pairs it got, and stops in the middle of the next one: behind
the last field it read.  The outer loop goes on from there, so the bytes of the torn
pair that no field has consumed (`unread`) are read as entries of the log.

* `replayAof_taken`: the replay of every cut of a log is the execution of the commands
  that are whole, with an MSET of the whole pairs behind them, and then the replay of
  the unread bytes as a log of their own; `replayAof_torn` says what these three are.
* `torn_mset_flushes`: where the next key is five bytes long and the cut leaves one byte
  of its length field, this byte is the opcode of FLUSHDB, and recovery ends with an empty
  store.  From two bytes on the field is read, and nothing is flushed.
-/
import ZetDb.Storage.TornTail

namespace ZetDb.Storage

set_option autoImplicit false

open ZetDb.Theory.Wire ZetDb.Theory.Text ZetDb.Domain ZetDb.Application

/-! ## The replay sees what is before it -/

section Local

theorem readKey_local (file : String) : (readKey file).Local := by
  rw [readKey_eq]
  exact Reader.sized_local (Reader.word_local 2) _

theorem readValue_local (file : String) : (readValue file).Local := by
  rw [readValue_eq]
  exact Reader.sized_local (Reader.word_local 4) _

theorem readTtl_local (file : String) : (readTtl file).Local := by
  rw [readTtl_eq]
  exact Reader.map_local (Reader.word_local 8) _

theorem readSeconds_local (file : String) : (readSeconds file).Local := by
  rw [readSeconds_eq]
  exact Reader.word_local 8

theorem readCount_local (file : String) : (readCount file).Local := by
  rw [readCount_eq]
  exact Reader.word_local 2

theorem readRecord_local (file : String) : (readRecord file).Local :=
  Reader.pair_local (readKey_local file) (Reader.pair_local (readValue_local file) (readTtl_local file))

/-- A turn of MSET's inner loop in terms of its words. -/
theorem readPair_words (data : Bytes) (pos : Nat) :
    readPair data pos =
      match Reader.word 2 data data.length pos with
      | none => .stop pos
      | some (keyLen, pos) =>
          if pos + keyLen > data.length then .stop pos
          else
            match Reader.word 4 data data.length (pos + keyLen) with
            | none => .stop (pos + keyLen)
            | some (valLen, next) =>
                if next + valLen > data.length then .stop next
                else .pair (fromUtf8Lossy (slice data pos keyLen)) (slice data next valLen) (next + valLen) := by
  unfold readPair Reader.word
  by_cases noLen : pos + 2 > data.length
  · simp only [noLen, if_true]
  · have inLen : pos + 2 ≤ data.length := Nat.le_of_not_lt noLen
    simp only [noLen, inLen, readU16Le, readLe, if_true, if_false]
    by_cases noKey : pos + 2 + ofLe (slice data pos 2) > data.length
    · simp only [noKey, if_true]
    · simp only [noKey, if_false]
      by_cases noValLen : pos + 2 + ofLe (slice data pos 2) + 4 > data.length
      · simp only [noValLen, if_true]
      · have inValLen : pos + 2 + ofLe (slice data pos 2) + 4 ≤ data.length := Nat.le_of_not_lt noValLen
        simp only [noValLen, inValLen, readU32Le, readLe, if_true, if_false]

variable {data data' seen : Bytes} {pos pos' : Nat}

/-- The same bytes are consumed, by a pair or by a stop. -/
def SamePair (seen : Bytes) (pos pos' : Nat) (p p' : PairStep) : Prop :=
  ∃ front rest, seen = front ++ rest ∧
    ((p = .stop (pos + front.length) ∧ p' = .stop (pos' + front.length)) ∨
      ∃ key value, p = .pair key value (pos + front.length) ∧ p' = .pair key value (pos' + front.length))

theorem readPair_local (here : At data data.length pos seen) (there : At data' data'.length pos' seen) :
    SamePair seen pos pos' (readPair data pos) (readPair data' pos') := by
  rw [readPair_words, readPair_words]
  obtain ⟨none, none'⟩ | ⟨n, front, rest, rfl, read, read'⟩ := (Reader.word_local 2).same here there
  · rw [none, none']
    exact ⟨[], seen, rfl, .inl ⟨rfl, rfl⟩⟩
  rw [read, read']
  obtain ⟨past, past'⟩ | ⟨room, room', split, sameKey, width⟩ := slice_local here.advance there.advance n
  · dsimp only
    rw [if_pos past, if_pos past']
    exact ⟨front, rest, rfl, .inl ⟨rfl, rfl⟩⟩
  dsimp only
  rw [if_neg room, if_neg room', sameKey]
  generalize slice data (pos + front.length) n = key at split width
  rw [split] at here there ⊢
  have behind := here.advance.advance
  have behind' := there.advance.advance
  rw [width] at behind behind'
  obtain ⟨none, none'⟩ | ⟨v, mid, last, shape, read, read'⟩ := (Reader.word_local 4).same behind behind'
  · rw [none, none']
    refine ⟨front ++ key, rest.drop n, (List.append_assoc _ _ _).symm, .inl ?_⟩
    rw [List.length_append, width, ← Nat.add_assoc, ← Nat.add_assoc]
    exact ⟨rfl, rfl⟩
  rw [read, read']
  rw [shape] at behind behind' ⊢
  obtain ⟨past, past'⟩ | ⟨room, room', split', sameValue, width'⟩ := slice_local behind.advance behind'.advance v
  · dsimp only
    rw [if_pos past, if_pos past']
    refine ⟨front ++ (key ++ mid), last, by simp only [List.append_assoc], .inl ?_⟩
    simp only [List.length_append, width, Nat.add_assoc, and_self]
  · dsimp only
    rw [if_neg room, if_neg room', sameValue]
    generalize slice data (pos + front.length + n + mid.length) v = value at split' width'
    refine ⟨front ++ (key ++ (mid ++ value)), last.drop v, ?_, .inr ⟨fromUtf8Lossy key, value, ?_⟩⟩
    · simp only [List.append_assoc]
      rw [← split']
    · simp only [List.length_append, width, width', Nat.add_assoc, and_self]

variable {iter : Iter} {now : Instant}

theorem replayPairs_local (iter : Iter) (now : Instant) (count : Nat) (e : DashMapEngine) (here : At data data.length pos seen)
    (there : At data' data'.length pos' seen) :
    ∃ e' front rest, seen = front ++ rest ∧ replayPairs iter now data count pos e = (e', pos + front.length) ∧
      replayPairs iter now data' count pos' e = (e', pos' + front.length) := by
  induction count generalizing pos pos' seen e with
  | zero => exact ⟨e, [], seen, rfl, rfl, rfl⟩
  | succ count ih =>
      obtain ⟨front, rest, rfl, ⟨stop, stop'⟩ | ⟨key, value, pair, pair'⟩⟩ := readPair_local here there
      · rw [replayPairs, replayPairs, stop, stop']
        exact ⟨e, front, rest, rfl, rfl, rfl⟩
      · rw [replayPairs, replayPairs, pair, pair']
        obtain ⟨e', more, last, rfl, done, done'⟩ :=
          ih (e.set iter now key (ValueEntry.new now value)).2 here.advance there.advance
        refine ⟨e', front ++ more, last, (List.append_assoc _ _ _).symm, ?_, ?_⟩
        · rw [List.length_append, ← Nat.add_assoc]
          exact done
        · rw [List.length_append, ← Nat.add_assoc]
          exact done'

theorem replayEntry_local (iter : Iter) (now : Instant) (op : UInt8) (e : DashMapEngine) (here : At data data.length pos seen)
    (there : At data' data'.length pos' seen) :
    SameReading seen pos pos' (replayEntry iter now data op pos e) (replayEntry iter now data' op pos' e) := by
  unfold replayEntry
  split_ifs
  · rw [replaySet_eq, replaySet_eq]
    exact ((readRecord_local "aof").same here there).map fun r =>
      (e.set iter now r.1 ⟨r.2.1, expiryOf now r.2.2, some now⟩).2
  · rw [replayDel_eq, replayDel_eq]
    exact ((readKey_local "aof").same here there).map fun key => (e.del now key).2
  · rw [replayIncr_eq, replayIncr_eq]
    exact ((readKey_local "aof").same here there).map fun key => (e.incr iter now key).2
  · rw [replayExpire_eq, replayExpire_eq]
    exact ((Reader.pair_local (readKey_local "aof") (readSeconds_local "aof")).same here there).map fun r =>
      (e.expire now r.1 r.2).2
  · exact .inr ⟨e.clear, [], seen, rfl, rfl, rfl⟩
  · rw [replayMset_eq, replayMset_eq]
    obtain ⟨none, none'⟩ | ⟨n, front, rest, rfl, read, read'⟩ := (readCount_local "aof").same here there
    · rw [none, none']
      exact .inl ⟨rfl, rfl⟩
    · rw [read, read', Option.map_some, Option.map_some]
      obtain ⟨e', more, last, rfl, done, done'⟩ :=
        replayPairs_local iter now n e here.advance there.advance
      refine .inr ⟨e', front ++ more, last, (List.append_assoc _ _ _).symm, ?_, ?_⟩
      · rw [List.length_append, ← Nat.add_assoc]
        exact congrArg some done
      · rw [List.length_append, ← Nat.add_assoc]
        exact congrArg some done'
  · exact .inl ⟨rfl, rfl⟩

/-- The rest of a file is replayed as a file of its own. -/
theorem replayLoop_local {fuel fuel' : Nat} (e : DashMapEngine) (here : At data data.length pos seen)
    (there : At data' data'.length pos' seen) (enough : seen.length ≤ fuel) (enough' : seen.length ≤ fuel')
    (k j : Nat) : replayLoop iter now data fuel pos e (j + k) =
      (replayLoop iter now data' fuel' pos' e k).map fun r => (r.1, j + r.2) := by
  induction fuel generalizing seen pos pos' fuel' e k with
  | zero =>
      cases List.length_eq_zero_iff.1 (Nat.le_zero.1 enough)
      rw [replayLoop_end here, replayLoop_end there]
      rfl
  | succ fuel ih =>
      cases seen with
      | nil =>
          rw [replayLoop_end here, replayLoop_end there]
          rfl
      | cons op more =>
          obtain ⟨fuel', rfl⟩ : ∃ left, fuel' = left + 1 :=
            ⟨fuel' - 1, by simp only [List.length_cons] at enough'; omega⟩
          unfold replayLoop
          rw [drop_of_at here, drop_of_at there]
          obtain ⟨none, none'⟩ | ⟨e', front, rest, rfl, entry, entry'⟩ :=
            replayEntry_local iter now op e here.step there.step
          · simp only [none, none', Option.map_some]
          · simp only [List.length_cons, List.length_append] at enough enough'
            simp only [entry, entry']
            exact ih e' here.step.advance there.step.advance (by omega) (by omega) (k + 1)

end Local

/-! ## What is recovered -/

/-- What the inner loop leaves unread of a pair of which `k` bytes are there: the bytes
behind the last field that is whole. -/
def unread (p : Key × Bytes) (k : Nat) : Bytes :=
  if k < 2 then (toLe 2 p.1.length).take k
  else if k < 2 + p.1.length then p.1.take (k - 2)
  else if k < 2 + p.1.length + 4 then (toLe 4 p.2.length).take (k - (2 + p.1.length))
  else p.2.take (k - (2 + p.1.length + 4))

/-- The pairs that are whole, and what is left unread of the next. -/
def tornPairs : List (Key × Bytes) → Nat → List (Key × Bytes) × Bytes
  | [], _ => ([], [])
  | p :: pairs, k =>
      if (encodePair p).length ≤ k then
        (p :: (tornPairs pairs (k - (encodePair p).length)).1, (tornPairs pairs (k - (encodePair p).length)).2)
      else ([], unread p k)

/-- What the replay makes of the first bytes of an entry: a command or none, and unread bytes. -/
def tornEntry : Command → Nat → List Command × Bytes
  | .mset pairs, cut =>
      if cut < 3 then ([], []) else ([.mset (tornPairs pairs (cut - 3)).1], (tornPairs pairs (cut - 3)).2)
  | _, _ => ([], [])

/-- The commands that a cut of the log is replayed as, and the bytes that are read as a
log behind them. -/
def recovered : List Command → Nat → List Command × Bytes
  | [], _ => ([], [])
  | c :: cs, cut =>
      if c.aofBytes.length ≤ cut then
        (c :: (recovered cs (cut - c.aofBytes.length)).1, (recovered cs (cut - c.aofBytes.length)).2)
      else tornEntry c cut

section Recovered

theorem recovered_all {cs : List Command} {cut : Nat} (all : (logBytes cs).length ≤ cut) :
    recovered cs cut = (cs, []) := by
  induction cs generalizing cut with
  | nil => rfl
  | cons c cs ih =>
      rw [logBytes_cons, List.length_append] at all
      rw [recovered, if_pos (by omega), ih (by omega)]

theorem recovered_cut {before after : List Command} {c : Command} {k : Nat} (short : k < c.aofBytes.length) :
    recovered (before ++ c :: after) ((logBytes before).length + k) =
      (before ++ (tornEntry c k).1, (tornEntry c k).2) := by
  induction before with
  | nil =>
      rw [List.nil_append, recovered, logBytes_nil, List.length_nil, Nat.zero_add, if_neg (by omega)]
      rfl
  | cons d before ih =>
      have same : (logBytes (d :: before)).length + k - d.aofBytes.length = (logBytes before).length + k := by
        rw [logBytes_cons, List.length_append]
        omega
      rw [List.cons_append, recovered, if_pos (by rw [logBytes_cons, List.length_append]; omega), same, ih]
      rfl

theorem tornPairs_cut {whole rest : List (Key × Bytes)} {p : Key × Bytes} {k : Nat}
    (short : k < (encodePair p).length) :
    tornPairs (whole ++ p :: rest) ((whole.flatMap encodePair).length + k) = (whole, unread p k) := by
  induction whole with
  | nil =>
      rw [List.nil_append, List.flatMap_nil, List.length_nil, Nat.zero_add, tornPairs, if_neg (by omega)]
  | cons q whole ih =>
      have same : ((q :: whole).flatMap encodePair).length + k - (encodePair q).length =
          (whole.flatMap encodePair).length + k := by
        rw [List.flatMap_cons, List.length_append]
        omega
      rw [List.cons_append, tornPairs, if_pos (by rw [List.flatMap_cons, List.length_append]; omega), same, ih]

/-- Where a cut falls among the pairs. -/
theorem pairs_cut (pairs : List (Key × Bytes)) {k : Nat} (short : k < (pairs.flatMap encodePair).length) :
    ∃ whole p rest j, pairs = whole ++ p :: rest ∧ k = (whole.flatMap encodePair).length + j ∧
      j < (encodePair p).length := by
  induction pairs generalizing k with
  | nil => cases short
  | cons q pairs ih =>
      rw [List.flatMap_cons, List.length_append] at short
      by_cases inside : k < (encodePair q).length
      · exact ⟨[], q, pairs, k, rfl, by simp, inside⟩
      · obtain ⟨whole, p, rest, j, rfl, same, low⟩ := ih (k := k - (encodePair q).length) (by omega)
        refine ⟨q :: whole, p, rest, j, rfl, ?_, low⟩
        rw [List.flatMap_cons, List.length_append]
        omega

end Recovered

/-! ## The torn pair -/

section Pair

variable {data seen : Bytes} {pos k : Nat} {p : Key × Bytes}

/-- The inner loop stops in front of the bytes that are unread. -/
theorem readPair_torn (short : p.1.length ≤ 65535) (valueOk : ValueOk p.2) (torn : k < (encodePair p).length)
    (here : At data data.length pos ((encodePair p).take k)) :
    ∃ front, (encodePair p).take k = front ++ unread p k ∧ readPair data pos = .stop (pos + front.length) := by
  have width : (toLe 2 p.1.length).length = 2 := toLe_length 2 _
  have width' : (toLe 4 p.2.length).length = 4 := toLe_length 4 _
  have shape : encodePair p = toLe 2 p.1.length ++ (p.1 ++ (toLe 4 p.2.length ++ p.2)) := by
    simp only [encodePair, encodeKey, encodeValue, List.append_assoc]
  have total : (encodePair p).length = 2 + (p.1.length + (4 + p.2.length)) := by
    rw [shape, List.length_append, List.length_append, List.length_append, width, width']
  rw [readPair_words]
  by_cases inLen : k < 2
  · -- in the length of the key: no byte is consumed
    have taken : (encodePair p).take k = (toLe 2 p.1.length).take k := by
      rw [shape, List.take_append_of_le_length (by omega)]
    refine ⟨[], ?_, ?_⟩
    · rw [unread, if_pos inLen, taken, List.nil_append]
    · rw [word_at here, if_neg (by rw [List.length_take]; omega)]
      rfl
  have second : (encodePair p).take k =
      toLe 2 p.1.length ++ (p.1 ++ (toLe 4 p.2.length ++ p.2)).take (k - 2) := by
    rw [shape, List.take_append, width, List.take_of_length_le (by omega)]
  rw [second] at here ⊢
  rw [(Decodes.word 2).whole (by omega) here, width]
  have behind := here.advance
  rw [width] at behind
  by_cases inKey : k < 2 + p.1.length
  · -- in the key: its length is consumed
    have taken : (p.1 ++ (toLe 4 p.2.length ++ p.2)).take (k - 2) = p.1.take (k - 2) :=
      List.take_append_of_le_length (by omega)
    refine ⟨toLe 2 p.1.length, ?_, ?_⟩
    · rw [unread, if_neg inLen, if_pos inKey, taken]
    · have past := behind.length_eq
      have below := behind.pos_le
      rw [taken, List.length_take] at past
      rw [width]
      exact if_pos (by omega)
  have third : (p.1 ++ (toLe 4 p.2.length ++ p.2)).take (k - 2) =
      p.1 ++ (toLe 4 p.2.length ++ p.2).take (k - (2 + p.1.length)) := by
    rw [List.take_append, List.take_of_length_le (by omega), Nat.sub_sub]
  rw [third] at behind ⊢
  have room := behind.fits
  dsimp only
  rw [if_neg (by omega)]
  have beyond := behind.advance
  by_cases inValLen : k < 2 + p.1.length + 4
  · -- in the length of the value: the key is consumed
    have taken : (toLe 4 p.2.length ++ p.2).take (k - (2 + p.1.length)) =
        (toLe 4 p.2.length).take (k - (2 + p.1.length)) := List.take_append_of_le_length (by omega)
    refine ⟨toLe 2 p.1.length ++ p.1, ?_, ?_⟩
    · rw [unread, if_neg inLen, if_neg inKey, if_pos inValLen, taken, List.append_assoc]
    · rw [word_at beyond, if_neg (by rw [taken, List.length_take]; omega), List.length_append, width,
        Nat.add_assoc]
  · -- in the value: its length is consumed
    have fourth : (toLe 4 p.2.length ++ p.2).take (k - (2 + p.1.length)) =
        toLe 4 p.2.length ++ p.2.take (k - (2 + p.1.length + 4)) := by
      rw [List.take_append, List.take_of_length_le (by omega), width', Nat.sub_sub]
    have small : p.2.length < 256 ^ 4 := by
      have : p.2.length < 2 ^ 32 := valueOk
      omega
    rw [fourth] at beyond ⊢
    rw [(Decodes.word 4).whole small beyond, width']
    have last := beyond.advance
    have past := last.length_eq
    have below := last.pos_le
    rw [List.length_take, width'] at past
    rw [width'] at below
    refine ⟨toLe 2 p.1.length ++ (p.1 ++ toLe 4 p.2.length), ?_, ?_⟩
    · rw [unread, if_neg inLen, if_neg inKey, if_neg inValLen]
      simp only [List.append_assoc]
    · dsimp only
      rw [if_pos (by omega)]
      simp only [List.length_append, width, width', Nat.add_assoc]

/-- The inner loop over whole pairs stores them, one turn each. -/
theorem replayPairs_front (iter : Iter) (now : Instant) {e : DashMapEngine} {pairs : List (Key × Bytes)}
    (fits : ∀ p ∈ pairs, p.1.length ≤ 65535 ∧ ValueOk p.2) (unlimited : e.maxKeys = 0)
    (here : At data data.length pos (pairs.flatMap encodePair ++ seen)) (n : Nat) :
    replayPairs iter now data (pairs.length + n) pos e =
      replayPairs iter now data n (pos + (pairs.flatMap encodePair).length)
        (msetLoop iter now e (pairs.map lossyPair)).2 := by
  induction pairs generalizing pos e with
  | nil => simp [msetLoop]
  | cons p pairs ih =>
      obtain ⟨short, valueOk⟩ := fits p (by simp)
      rw [List.flatMap_cons, List.append_assoc] at here
      have next := ih (e := e.insert (fromUtf8Lossy p.1) (ValueEntry.new now p.2))
        (fun q inside => fits q (by simp [inside])) unlimited here.advance
      rw [List.length_cons, Nat.add_right_comm, replayPairs, readPair_whole short valueOk here]
      simp only [List.map_cons, lossyPair, msetLoop, DashMapEngine.set_unlimited unlimited]
      rw [next, List.flatMap_cons, List.length_append, Nat.add_assoc]

end Pair

/-! ## The torn entry and the whole log -/

section Torn

variable {iter : Iter} {m : MetricsSnapshot} {now : Instant} {data : Bytes} {pos fuel k : Nat}
  {e : DashMapEngine}

theorem replayAof_nil (iter : Iter) (now : Instant) (e : DashMapEngine) :
    replayAof iter now (some []) e = some (e, 0) := rfl

theorem execAll_append (iter : Iter) (m : MetricsSnapshot) (now : Instant) (e : DashMapEngine)
    (cs ds : List Command) : execAll iter m now e (cs ++ ds) = execAll iter m now (execAll iter m now e cs) ds :=
  List.foldl_append

theorem execAll_maxKeys (iter : Iter) (m : MetricsSnapshot) (now : Instant) {cs : List Command}
    (unlimited : e.maxKeys = 0) (writes : ∀ c ∈ cs, c.isWrite = true) :
    (execAll iter m now e cs).maxKeys = 0 := by
  induction cs generalizing e with
  | nil => exact unlimited
  | cons c cs ih =>
      refine ih (exec_maxKeys unlimited (writes c (by simp))) ?_
      intro d inside
      exact writes d (by simp [inside])

/-- Anything but an MSET cut behind its count is dropped as a whole. -/
theorem tornEntry_dropped {c : Command} (early : ∀ pairs, c = .mset pairs → k < 3) : tornEntry c k = ([], []) := by
  cases c with
  | mset pairs =>
      rw [tornEntry, if_pos (early pairs rfl)]
  | _ => rfl

/-- The MSET that is torn becomes an MSET of its whole pairs. -/
theorem replayLoop_torn_pairs {whole rest : List (Key × Bytes)} {p : Key × Bytes}
    (ok : Representable (.mset (whole ++ p :: rest))) (unlimited : e.maxKeys = 0)
    (torn : k < (encodePair p).length) (replayed : Nat)
    (here : At data data.length pos (cmdMset :: (toLe 2 (whole ++ p :: rest).length ++
      (whole.flatMap encodePair ++ (encodePair p).take k))))
    (enough : 3 + ((whole.flatMap encodePair).length + k) ≤ fuel) :
    replayLoop iter now data fuel pos e replayed =
      (replayAof iter now (some (unread p k)) (execAll iter m now e [.mset whole])).map fun r =>
        (r.1, replayed + 1 + r.2) := by
  have each : ∀ q ∈ whole ++ p :: rest, q.1.length ≤ 65535 ∧ ValueOk q.2 :=
    fun q inside => ⟨(ok.2 q inside).1.1, (ok.2 q inside).2⟩
  have count := (readCount_decodes "aof").whole ok.1 here.step
  have body := here.step.advance
  have stored := replayPairs_front iter now (fun q inside => each q (List.mem_append_left _ inside)) unlimited
    body (rest.length + 1)
  obtain ⟨short, valueOk⟩ := each p (by simp)
  obtain ⟨front, shape, stops⟩ := readPair_torn short valueOk torn body.advance
  have texts : whole.map lossyPair = whole := by
    have same : ∀ q ∈ whole, lossyPair q = q := by
      intro q inside
      rw [lossyPair, fromUtf8Lossy_of_valid (ok.2 q (List.mem_append_left _ inside)).1.2]
    rw [List.map_congr_left same, List.map_id']
  have pairs : replayPairs iter now data (whole ++ p :: rest).length
      (pos + 1 + (toLe 2 (whole ++ p :: rest).length).length) e =
      (execAll iter m now e [.mset whole],
        pos + 1 + (toLe 2 (whole ++ p :: rest).length).length + (whole.flatMap encodePair).length +
          front.length) := by
    have total : replayPairs iter now data (whole ++ p :: rest).length =
        replayPairs iter now data (whole.length + (rest.length + 1)) := by
      rw [List.length_append, List.length_cons]
    rw [total, stored, replayPairs, stops, texts, execAll_cons, exec_mset]
    rfl
  obtain ⟨fuel, rfl⟩ : ∃ left, fuel = left + 1 := ⟨fuel - 1, by omega⟩
  unfold replayLoop
  rw [drop_of_at here]
  simp only [replayEntry, replayMset_eq, count, Option.map_some, pairs, if_true,
    if_neg (show ¬ cmdMset = cmdSet by decide), if_neg (show ¬ cmdMset = cmdDel by decide),
    if_neg (show ¬ cmdMset = cmdIncr by decide), if_neg (show ¬ cmdMset = cmdExpire by decide),
    if_neg (show ¬ cmdMset = cmdFlushDb by decide)]
  have left := body.advance
  rw [shape] at left
  have fewer : (unread p k).length ≤ fuel := by
    have lengths := congrArg List.length shape
    rw [List.length_append, List.length_take] at lengths
    omega
  exact replayLoop_local _ left.advance (At.start _) fewer (Nat.le_refl _) 0 (replayed + 1)

/-- The first bytes of an entry are replayed as `tornEntry` says. -/
theorem replayLoop_tornEntry {c : Command} (ok : Representable c) (unlimited : e.maxKeys = 0)
    (torn : k < c.aofBytes.length) (replayed : Nat) (here : At data data.length pos (c.aofBytes.take k))
    (enough : k ≤ fuel) :
    replayLoop iter now data fuel pos e replayed =
      (replayAof iter now (some (tornEntry c k).2) (execAll iter m now e (tornEntry c k).1)).map fun r =>
        (r.1, replayed + (tornEntry c k).1.length + r.2) := by
  have width : (c.aofBytes.take k).length = k := by rw [List.length_take, Nat.min_eq_left torn.le]
  by_cases early : ∀ pairs, c = .mset pairs → k < 3
  · have strict : c.aofBytes.take k ≠ c.aofBytes := by
      intro full
      rw [full] at width
      omega
    have dropped : replayLoop iter now data fuel pos e replayed = some (e, replayed) := by
      apply replayLoop_torn ok here (List.take_prefix _ _) strict
      · intro pairs same
        rw [width]
        exact early pairs same
      · omega
    rw [dropped, tornEntry_dropped early, replayAof_nil]
    rfl
  · obtain ⟨pairs, deep⟩ := not_forall.1 early
    obtain ⟨rfl, late⟩ := Classical.not_imp.1 deep
    have width' : (toLe 2 pairs.length).length = 2 := toLe_length 2 _
    rw [aofBytes_mset, List.length_cons, List.length_append, width'] at torn
    obtain ⟨whole, p, rest, j, rfl, place, low⟩ := pairs_cut pairs (k := k - 3) (by omega)
    have file : (Command.mset (whole ++ p :: rest)).aofBytes.take k =
        cmdMset :: (toLe 2 (whole ++ p :: rest).length ++
          (whole.flatMap encodePair ++ (encodePair p).take j)) := by
      obtain ⟨n, rfl⟩ : ∃ n, k = n + 1 := ⟨k - 1, by omega⟩
      have behind : n - 2 - (whole.flatMap encodePair).length = j := by omega
      rw [aofBytes_mset, List.take_succ_cons, List.take_append, width', List.take_of_length_le (by omega),
        List.flatMap_append, List.flatMap_cons, List.take_append, List.take_of_length_le (by omega), behind,
        List.take_append_of_le_length low.le]
    rw [file] at here
    have recoveredPairs : tornEntry (.mset (whole ++ p :: rest)) k = ([.mset whole], unread p j) := by
      rw [tornEntry, if_neg late, place, tornPairs_cut low]
    rw [recoveredPairs]
    exact replayLoop_torn_pairs ok unlimited low replayed here (by omega)

end Torn

/-- Recovery from a log that is cut anywhere: the commands that are whole and the whole
pairs of a torn MSET are executed, and what is left unread of the torn pair is replayed
as if it were a log. -/
theorem replayAof_taken (iter : Iter) (m : MetricsSnapshot) (now : Instant) (e : DashMapEngine)
    (cs : List Command) (cut : Nat) (unlimited : e.maxKeys = 0) (ok : ∀ c ∈ cs, Representable c) :
    replayAof iter now (some ((logBytes cs).take cut)) e =
      (replayAof iter now (some (recovered cs cut).2) (execAll iter m now e (recovered cs cut).1)).map fun r =>
        (r.1, (recovered cs cut).1.length + r.2) := by
  rcases cut_cases cs cut with ⟨all, past⟩ | ⟨c, after, split, low, high⟩
  · rw [recovered_all past, List.take_of_length_le past, replayAof_log iter m now ok unlimited, replayAof_nil]
    rfl
  · generalize wholeEntries cs cut = front at split low high
    subst split
    obtain ⟨k, rfl⟩ := Nat.exists_eq_add_of_le low
    have torn : k < c.aofBytes.length := by omega
    have okFront : ∀ d ∈ front, Representable d := fun d inside => ok d (by simp [inside])
    have file := take_cut after low high
    rw [Nat.add_sub_cancel_left] at file
    obtain ⟨fuel, enough, here, run⟩ := replayAof_front iter m now
      (fun d inside => (okFront d inside).fits) unlimited (c.aofBytes.take k)
    rw [replayAll_of_representable iter m now okFront] at run
    rw [List.length_take, Nat.min_eq_left torn.le] at enough
    have still : (execAll iter m now e front).maxKeys = 0 :=
      execAll_maxKeys iter m now unlimited fun d inside => (okFront d inside).fits.isWrite
    rw [file, run, recovered_cut torn,
      replayLoop_tornEntry (m := m) (ok c (by simp)) still torn front.length here enough, execAll_append]
    simp only [List.length_append]

/-- The bytes that are unread are the last of those that are there. -/
theorem unread_suffix {p : Key × Bytes} {k : Nat} (torn : k < (encodePair p).length) (short : p.1.length ≤ 65535)
    (valueOk : ValueOk p.2) : unread p k <:+ (encodePair p).take k := by
  obtain ⟨front, shape, -⟩ := readPair_torn short valueOk torn (At.start _)
  exact ⟨front, shape.symm⟩

/-- So a crash costs whole commands off the end of the log, and at most one command is
replayed in part: an MSET.  Only then are bytes read that are no command, fewer than the
torn pair has. -/
theorem replayAof_torn (iter : Iter) (m : MetricsSnapshot) (now : Instant) (e : DashMapEngine)
    (cs : List Command) (cut : Nat) (unlimited : e.maxKeys = 0) (ok : ∀ c ∈ cs, Representable c) :
    ∃ before torn left, replayAof iter now (some ((logBytes cs).take cut)) e =
        ((replayAof iter now (some left) (execAll iter m now e (before ++ torn))).map fun r =>
          (r.1, (before ++ torn).length + r.2)) ∧
      before <+: cs ∧ (∀ c after, cs = before ++ c :: after → cut < (logBytes before).length + c.aofBytes.length) ∧
      ((torn = [] ∧ left = []) ∨
        ∃ whole p rest after k, cs = before ++ .mset (whole ++ p :: rest) :: after ∧ torn = [.mset whole] ∧
          cut = (logBytes before).length + (3 + ((whole.flatMap encodePair).length + k)) ∧
          k < (encodePair p).length ∧ left <:+ (encodePair p).take k) := by
  rcases cut_cases cs cut with ⟨all, past⟩ | ⟨c, after, split, low, high⟩
  · refine ⟨cs, [], [], ?_, List.prefix_rfl, ?_, .inl ⟨rfl, rfl⟩⟩
    · rw [replayAof_taken iter m now e cs cut unlimited ok, recovered_all past, List.append_nil]
    · intro c after more
      cases List.append_right_eq_self.1 more.symm
  · generalize wholeEntries cs cut = before at split low high
    subst split
    obtain ⟨k, rfl⟩ := Nat.exists_eq_add_of_le low
    have short : k < c.aofBytes.length := by omega
    have played := replayAof_taken iter m now e _ ((logBytes before).length + k) unlimited ok
    rw [recovered_cut short] at played
    refine ⟨before, (tornEntry c k).1, (tornEntry c k).2, played, List.prefix_append _ _, ?_, ?_⟩
    · intro d rest same
      cases List.append_cancel_left same
      omega
    · by_cases early : ∀ pairs, c = .mset pairs → k < 3
      · rw [tornEntry_dropped early]
        exact .inl ⟨rfl, rfl⟩
      · obtain ⟨pairs, deep⟩ := not_forall.1 early
        obtain ⟨rfl, late⟩ := Classical.not_imp.1 deep
        have width : (toLe 2 pairs.length).length = 2 := toLe_length 2 _
        rw [aofBytes_mset, List.length_cons, List.length_append, width] at short
        obtain ⟨whole, p, rest, j, rfl, place, torn⟩ := pairs_cut pairs (k := k - 3) (by omega)
        obtain ⟨-, each⟩ := ok (.mset (whole ++ p :: rest)) (by simp)
        obtain ⟨⟨shortKey, -⟩, valueOk⟩ := each p (by simp)
        rw [tornEntry, if_neg late, place, tornPairs_cut torn]
        exact .inr ⟨whole, p, rest, after, j, rfl, rfl, by omega, torn, unread_suffix torn shortKey valueOk⟩

/-- A SET and an MSET whose second key has five bytes. -/
def greetings : List Command :=
  [.set (ascii "n") (ascii "1") none, .mset [(ascii "a", ascii "1"), (ascii "hello", ascii "world")]]

/-- Cut in the second key: of `hello` the first two bytes are there, and read as an opcode. -/
example : recovered greetings 32 =
    ([.set (ascii "n") (ascii "1") none, .mset [(ascii "a", ascii "1")]], ascii "he") := by
  decide +kernel

theorem replayAof_torn_greetings :
    ∃ before torn left, replayAof .some 0 (some ((logBytes greetings).take 32)) .new =
        ((replayAof .some 0 (some left) (execAll .some .new 0 .new (before ++ torn))).map fun r =>
          (r.1, (before ++ torn).length + r.2)) ∧
      before <+: greetings := by
  obtain ⟨before, torn, left, played, begins, -⟩ := replayAof_torn .some .new 0 .new greetings 32 rfl (by decide)
  exact ⟨before, torn, left, played, begins⟩

/-! ## What the unread bytes can do -/

section Unread

variable (iter : Iter) (m : MetricsSnapshot) (now : Instant) (e : DashMapEngine)

/-- A cut inside a pair, by the number of its bytes that are there. -/
theorem recovered_pair (before after : List Command) (whole rest : List (Key × Bytes)) {p : Key × Bytes} {k : Nat}
    (torn : k < (encodePair p).length) :
    recovered (before ++ .mset (whole ++ p :: rest) :: after)
        ((logBytes before).length + (3 + ((whole.flatMap encodePair).length + k))) =
      (before ++ [.mset whole], unread p k) := by
  have inside : 3 + ((whole.flatMap encodePair).length + k) <
      (Command.mset (whole ++ p :: rest)).aofBytes.length := by
    simp only [aofBytes_mset, List.length_cons, List.length_append, toLe_length, List.flatMap_append,
      List.flatMap_cons]
    omega
  rw [recovered_cut inside, tornEntry, if_neg (by omega), Nat.add_sub_cancel_left, tornPairs_cut torn]

/-- Where the cut leaves the log entries of some commands of a value, they are executed. -/
theorem torn_value_is_executed (before after ds : List Command) (whole rest : List (Key × Bytes))
    (key : Key) (value : Bytes) (unlimited : e.maxKeys = 0)
    (ok : ∀ c ∈ before ++ Command.mset (whole ++ (key, value) :: rest) :: after, Representable c)
    (commands : ∀ d ∈ ds, Representable d) (begins : logBytes ds <+: value) (more : logBytes ds ≠ value) :
    replayAof iter now (some ((logBytes (before ++ .mset (whole ++ (key, value) :: rest) :: after)).take
        ((logBytes before).length +
          (3 + ((whole.flatMap encodePair).length + (6 + key.length + (logBytes ds).length)))))) e =
      some (execAll iter m now e (before ++ .mset whole :: ds), before.length + 1 + ds.length) := by
  have short := strictPrefix_length begins more
  have torn : 6 + key.length + (logBytes ds).length < (encodePair (key, value)).length := by
    simp only [encodePair, encodeKey, encodeValue, List.length_append, toLe_length]
    omega
  have left : unread (key, value) (6 + key.length + (logBytes ds).length) = logBytes ds := by
    have place : 6 + key.length + (logBytes ds).length - (2 + key.length + 4) = (logBytes ds).length := by omega
    rw [unread, if_neg (by omega), if_neg (by dsimp only; omega), if_neg (by dsimp only; omega)]
    dsimp only
    rw [place]
    exact (List.prefix_iff_eq_take.1 begins).symm
  have okFront : ∀ d ∈ before, Representable d := fun d inside => ok d (by simp [inside])
  have writes : ∀ d ∈ before ++ [Command.mset whole], d.isWrite = true := by
    intro d member
    rcases List.mem_append.1 member with inside | last
    · exact (okFront d inside).fits.isWrite
    · cases List.mem_singleton.1 last
      rfl
  have still := execAll_maxKeys iter m now unlimited writes
  rw [replayAof_taken iter m now e _ _ unlimited ok, recovered_pair before after whole rest torn, left,
    replayAof_log iter m now commands still, ← execAll_append, Option.map_some, List.length_append,
    List.length_singleton, List.append_assoc]
  rfl

/-- A value that begins with the log entry of DEL, cut behind it: the key is gone. -/
theorem torn_value_is_executed_del :
    replayAof .some 0 (some ((logBytes [.set (ascii "n") (ascii "1") none,
        .mset [(ascii "k", logBytes [.del (ascii "n")] ++ ascii "!")]]).take 31)) .new =
      some (execAll .some .new 0 .new
        [.set (ascii "n") (ascii "1") none, .mset [], .del (ascii "n")], 3) :=
  torn_value_is_executed .some .new 0 .new [.set (ascii "n") (ascii "1") none] [] [.del (ascii "n")] [] []
    (ascii "k") (logBytes [.del (ascii "n")] ++ ascii "!") rfl (by decide) (by decide)
    (List.prefix_append _ _) (by decide)

end Unread

end ZetDb.Storage
