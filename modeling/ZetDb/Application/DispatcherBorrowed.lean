/-
# Application.DispatcherBorrowed -- the dispatcher of borrowed commands

Embeds `application/dispatcher_borrowed.rs`: commands whose keys and values are slices
of the read buffer, executed without an owned copy.  It repeats `dispatch_to_buffer`
command by command, with five differences: a key that is no UTF-8 is taken for the
empty key, MGET reads key by key with `get`, MSET passes over a pair that is refused,
KEYS and MGET answer an inline client with one line, and INFO first adds the counters of
its thread to the global ones (`flush_all`), which `dispatch_to_buffer` does not.

`dispatchBorrowed_same_iff`: with the keys as it takes them (`strictKeys`) it has the
effect of `dispatch_to_buffer` exactly where none of the last three shows: the lists
are asked for over RESP, no pair of an MSET is refused, and at an INFO the thread holds
no commands, hits, misses or errors back.
-/
import ZetDb.Application.DispatcherFast
import ZetDb.Observability.Metrics

namespace ZetDb.Application

set_option autoImplicit false

open ZetDb.Theory.Wire ZetDb.Theory.Text ZetDb.Domain ZetDb.Storage ZetDb.Protocol ZetDb.Observability

/-- The counters as a thread finds them: the global ones, which are words, and its own. -/
structure ThreadMetrics where
  uptimeSecs : Nat
  connectionsActive : Nat
  connectionsTotal : Nat
  shared : Counters
  thread : Counters
  words : ∀ slot, shared slot < 2 ^ 64 ∧ thread slot < 2 ^ 64

namespace ThreadMetrics

/-- What INFO loads: `command_count` adds what the thread holds, the other counters are
the global ones. -/
def load (m : ThreadMetrics) : MetricsSnapshot where
  uptimeSecs := m.uptimeSecs
  connectionsActive := m.connectionsActive
  connectionsTotal := m.connectionsTotal
  commandsTotal := m.shared .commandsTotal
  commandCount := fun cmd => commandCount cmd m.shared m.thread
  keyspaceHits := m.shared .keyspaceHits
  keyspaceMisses := m.shared .keyspaceMisses
  errorsTotal := m.shared .errorsTotal

theorem flushAll_words {shared thread : Counters} (words : ∀ slot, shared slot < 2 ^ 64 ∧ thread slot < 2 ^ 64)
    (slot : Slot) : (flushAll shared thread).1 slot < 2 ^ 64 ∧ (flushAll shared thread).2 slot < 2 ^ 64 := by
  refine ⟨?_, by show 0 < 2 ^ 64; decide⟩
  show (if thread slot > 0 then wrappingAdd (shared slot) (thread slot) else shared slot) < 2 ^ 64
  split
  · exact Nat.mod_lt _ (by decide)
  · exact (words slot).1

/-- `flush_all`. -/
def flushAll (m : ThreadMetrics) : ThreadMetrics :=
  { m with
    shared := (Observability.flushAll m.shared m.thread).1
    thread := (Observability.flushAll m.shared m.thread).2
    words := flushAll_words m.words }

/-- A thread that has counted nothing, on a fresh server. -/
def fresh : ThreadMetrics := ⟨0, 0, 0, fun _ => 0, fun _ => 0, fun _ => by decide⟩

/-- The thread holds nothing back that `load` reads of the global counters alone. -/
def Settled (m : ThreadMetrics) : Prop :=
  m.thread .commandsTotal = 0 ∧ m.thread .keyspaceHits = 0 ∧ m.thread .keyspaceMisses = 0 ∧
    m.thread .errorsTotal = 0

end ThreadMetrics

/-- `str::from_utf8(key).unwrap_or("")`. -/
def utf8OrEmpty (key : Bytes) : Key := if ValidUtf8 key then key else []

/-- The items of an inline reply, with blanks between them. -/
def spaced : List Bytes → Bytes
  | [] => crlf
  | first :: rest => first ++ rest.flatMap (fun item => ascii " " ++ item) ++ crlf

/-- An item of an inline MGET. -/
def inlineItem (item : Option Bytes) : Bytes := item.getD (ascii "(nil)")

/-- The loop of MGET: one `get` for each key. -/
def getEach (now : Instant) : DashMapEngine → List Key → List (Option Bytes) × DashMapEngine
  | e, [] => ([], e)
  | e, key :: rest =>
      let found := e.get now key
      let others := getEach now found.2 rest
      match found.1 with
      | .ok (some entry) => (some entry.data :: others.1, others.2)
      | _ => (none :: others.1, others.2)

/-- The loop of MSET: what becomes of a pair is not looked at. -/
def setEach (iter : Iter) (now : Instant) (e : DashMapEngine) (pairs : List (Key × Bytes)) : DashMapEngine :=
  pairs.foldl (fun e p => (e.set iter now p.1 (ValueEntry.new now p.2)).2) e

def strictPair (p : Bytes × Bytes) : Key × Bytes := (utf8OrEmpty p.1, p.2)

/-- The bytes appended and the engine left behind. -/
def dispatchBorrowedToBuffer (iter : Iter) (m : ThreadMetrics) (now : Instant) (e : DashMapEngine) (isResp : Bool) :
    ParsedCommand → Bytes × DashMapEngine
  | .get key =>
      match e.get now (utf8OrEmpty key) with
      | (.ok (some entry), e) =>
          (if isResp then bulkString entry.data else ascii "+" ++ entry.data ++ crlf, e)
      | (.ok none, e) => (nullBulk, e)
      | (.error _, e) => (ascii "-ERR internal\r\n", e)
  | .set key value ttl =>
      match e.set iter now (utf8OrEmpty key) (setEntry now value ttl) with
      | (.ok (), e) => (ascii "+OK\r\n", e)
      | (.error _, e) => (ascii "-ERR internal\r\n", e)
  | .ping => (ascii "+PONG\r\n", e)
  | .del key =>
      match e.del now (utf8OrEmpty key) with
      | (.ok existed, e) => (integerLine (boolInteger existed), e)
      | (.error _, e) => (ascii "-ERR internal\r\n", e)
  | .incr key =>
      match e.incr iter now (utf8OrEmpty key) with
      | (.ok n, e) => (integerLine n, e)
      | (.error _, e) => (ascii "-ERR type\r\n", e)
  | .info =>
      let info := infoText m.flushAll.load e.len
      (if isResp then bulkString info else ascii "+" ++ info ++ crlf, e)
  | .dbSize => (integerLine e.len, e)
  | .exists key =>
      match e.exists? now (utf8OrEmpty key) with
      | (true, e) => (integerLine 1, e)
      | (false, e) => (integerLine 0, e)
  | .ttl key =>
      match e.ttlSecs now (utf8OrEmpty key) with
      | (-2, e) => (ascii ":-2\r\n", e)
      | (-1, e) => (ascii ":-1\r\n", e)
      | (secs, e) => (integerLine secs, e)
  | .expire key seconds =>
      match e.expire now (utf8OrEmpty key) seconds with
      | (true, e) => (ascii ":1\r\n", e)
      | (false, e) => (ascii ":0\r\n", e)
  | .flushDb => (ascii "+OK\r\n", e.clear)
  | .keys =>
      let keys := e.keys iter now
      (if isResp then bulkArray (keys.map some) else spaced keys, e)
  | .mget keys =>
      let found := getEach now e (keys.map utf8OrEmpty)
      (if isResp then bulkArray found.1 else spaced (found.1.map inlineItem), found.2)
  | .mset pairs => (ascii "+OK\r\n", setEach iter now e (pairs.map strictPair))

/-- The command with the keys as they are taken. -/
def strictKeys : ParsedCommand → Command
  | .get key => .get (utf8OrEmpty key)
  | .set key value ttl => .set (utf8OrEmpty key) value ttl
  | .ping => .ping
  | .del key => .del (utf8OrEmpty key)
  | .incr key => .incr (utf8OrEmpty key)
  | .info => .info
  | .dbSize => .dbSize
  | .exists key => .exists (utf8OrEmpty key)
  | .ttl key => .ttl (utf8OrEmpty key)
  | .expire key seconds => .expire (utf8OrEmpty key) seconds
  | .flushDb => .flushDb
  | .keys => .keys
  | .mget keys => .mget (keys.map utf8OrEmpty)
  | .mset pairs => .mset (pairs.map strictPair)

/-! ## The loops -/

section Loops

variable {iter : Iter} {now : Instant} {e : DashMapEngine}

theorem live_removeIfExpired (e : DashMapEngine) (key other : Key) :
    (e.removeIfExpired now key).live now other = e.live now other := by
  unfold DashMapEngine.live
  rw [DashMapEngine.lookup_removeIfExpired]
  cases e.map.lookup other with
  | none => rfl
  | some v =>
      cases expired : v.isExpiredAt now with
      | true => by_cases same : other = key <;> simp [Option.filter_some, expired, same]
      | false => simp [Option.filter_some, expired]

/-- A `get` answers what is live, and keeps it. -/
theorem get_live (now : Instant) (e : DashMapEngine) (key : Key) :
    (e.get now key).1 = .ok (e.live now key) ∧ ∀ other, (e.get now key).2.live now other = e.live now other := by
  refine ⟨?_, ?_⟩
  · unfold DashMapEngine.get DashMapEngine.live
    cases e.map.lookup key with
    | none => rfl
    | some v => cases expired : v.isExpiredAt now <;> simp [Option.filter_some, expired]
  · intro other
    rw [DashMapEngine.get_leaves, live_removeIfExpired]

theorem mget_live (e : DashMapEngine) (keys : List Key) : e.mget now keys = keys.map (e.live now) := by
  apply List.map_congr_left
  intro key _
  unfold DashMapEngine.live
  cases e.map.lookup key with
  | none => rfl
  | some v => cases expired : v.isExpiredAt now <;> simp [Option.filter_some, expired]

theorem getEach_live (now : Instant) (e : DashMapEngine) (keys : List Key) :
    (getEach now e keys).1 = (e.mget now keys).map (fun opt => opt.map (·.data)) ∧
      ∀ other, (getEach now e keys).2.live now other = e.live now other := by
  induction keys generalizing e with
  | nil => exact ⟨rfl, fun _ => rfl⟩
  | cons key keys ih =>
      obtain ⟨answer, kept⟩ := get_live now e key
      obtain ⟨values, later⟩ := ih (e.get now key).2
      have same : keys.map ((e.get now key).2.live now) = keys.map (e.live now) :=
        List.map_congr_left fun other _ => kept other
      rw [mget_live, same] at values
      have step : getEach now e (key :: keys) =
          ((e.live now key).map (·.data) :: (getEach now (e.get now key).2 keys).1,
            (getEach now (e.get now key).2 keys).2) := by
        rw [getEach, answer]
        cases e.live now key <;> rfl
      rw [mget_live, step]
      exact ⟨congrArg (_ :: ·) values, fun other => (later other).trans (kept other)⟩

/-- Where no pair is refused the loops of MSET are one. -/
theorem setEach_of_ok (iter : Iter) (now : Instant) (e : DashMapEngine) {pairs : List (Key × Bytes)}
    (stored : (msetLoop iter now e pairs).1 = .ok ()) :
    setEach iter now e pairs = (msetLoop iter now e pairs).2 := by
  induction pairs generalizing e with
  | nil => rfl
  | cons p pairs ih =>
      rw [msetLoop] at stored ⊢
      rw [setEach, List.foldl_cons]
      rcases called : e.set iter now p.1 (ValueEntry.new now p.2) with ⟨result, after⟩
      rw [called] at stored
      cases result with
      | error err => cases stored
      | ok done => exact ih after stored

theorem bulkArray_concat (front : List (Option Bytes)) (last : Option Bytes) :
    ∃ array, bulkArray (front ++ [last]) = array ++ last.elim nullBulk bulkString := by
  simp only [bulkArray, List.flatMap_append, List.flatMap_cons, List.flatMap_nil, List.append_nil]
  rw [← List.append_assoc]
  cases last with
  | none => exact ⟨_, rfl⟩
  | some data => exact ⟨_, rfl⟩

theorem spaced_concat (first : Bytes) (rest : List Bytes) (last : Bytes) :
    ∃ line, spaced (first :: rest ++ [last]) = line ++ ascii " " ++ last ++ crlf := by
  rw [List.cons_append, spaced, List.flatMap_append, List.flatMap_cons, List.flatMap_nil, List.append_nil,
    ← List.append_assoc, ← List.append_assoc]
  exact ⟨_, rfl⟩

/-- No inline list is an array: they differ around the last item. -/
theorem spaced_ne_bulkArray (items : List (Option Bytes)) : spaced (items.map inlineItem) ≠ bulkArray items := by
  intro same
  rcases List.eq_nil_or_concat items with rfl | ⟨front, last, rfl⟩
  · exact absurd same (by decide)
  rw [List.concat_eq_append] at same
  obtain ⟨array, written⟩ := bulkArray_concat front last
  cases front with
  | nil =>
      -- a single item is behind the header of the array
      have lengths := congrArg List.length same
      cases last with
      | none => exact absurd lengths (by decide)
      | some data =>
          simp [spaced, bulkArray, bulkString, inlineItem, ascii] at lengths
          omega
  | cons first rest =>
      rw [List.map_append, List.map_cons, List.map_cons, List.map_nil] at same
      obtain ⟨line, shown⟩ := spaced_concat (inlineItem first) (rest.map inlineItem) (inlineItem last)
      rw [shown, written] at same
      cases last with
      | none =>
          -- the line ends in `)`, the array in `1`
          have ends : (line ++ ascii " (nil") ++ ascii ")\r\n" = (array ++ ascii "$-") ++ ascii "1\r\n" := by
            simpa [inlineItem, nullBulk, ascii, crlf] using same
          exact absurd (List.append_inj' ends rfl).2 (by decide)
      | some data =>
          -- the item is behind a blank in the line, and behind a line end in the array
          have ends : line ++ (ascii " " ++ data ++ crlf) =
              (array ++ ascii "$" ++ decimal data.length ++ [13]) ++ ([10] ++ data ++ crlf) := by
            simpa [inlineItem, bulkString, ascii, crlf] using same
          have heads := congrArg List.head? (List.append_inj' ends (by simp [ascii])).2
          cases heads

end Loops

/-! ## The commands -/

section Same

variable {iter : Iter} {m : ThreadMetrics} {now : Instant} {e : DashMapEngine} {isResp : Bool}

theorem sameEffect_of_live {first second : Bytes × DashMapEngine} (reply : first.1 = second.1)
    (live : ∀ key, first.2.live now key = second.2.live now key) : SameEffect now first second :=
  ⟨reply, fun key => by rw [liveItem, liveItem, live key]⟩

/-- The commands that both dispatchers write out alike. -/
theorem dispatchBorrowed_plain (few : e.len < 2 ^ 63) {c : ParsedCommand} (short : ∀ keys, c ≠ .mget keys)
    (single : ∀ pairs, c ≠ .mset pairs) (unlisted : c ≠ .keys) (noInfo : c ≠ .info) :
    dispatchBorrowedToBuffer iter m now e isResp c = dispatchToBuffer iter m.load now e isResp (strictKeys c) := by
  cases c with
  | dbSize =>
      rw [strictKeys, dispatchBorrowedToBuffer, dispatchToBuffer, asI64_of_lt few]
  | «exists» key =>
      rw [strictKeys, dispatchBorrowedToBuffer, dispatchToBuffer]
      rcases e.exists? now (utf8OrEmpty key) with ⟨_ | _, after⟩ <;> rfl
  | ttl key =>
      rw [strictKeys, dispatchBorrowedToBuffer, dispatchToBuffer]
      split
      · rename_i called
        rw [called]
        rfl
      · rename_i called
        rw [called]
        rfl
      · rename_i called
        rw [called]
  | expire key seconds =>
      rw [strictKeys, dispatchBorrowedToBuffer, dispatchToBuffer]
      rcases e.expire now (utf8OrEmpty key) seconds with ⟨_ | _, after⟩ <;> rfl
  | keys => exact absurd rfl unlisted
  | info => exact absurd rfl noInfo
  | mget keys => exact absurd rfl (short keys)
  | mset pairs => exact absurd rfl (single pairs)
  | _ => rfl

/-- KEYS and MGET, whose inline replies differ. -/
def isList : ParsedCommand → Bool
  | .keys | .mget _ => true
  | _ => false

/-- The text up to the number of commands, and from there to the hits: what a flush of
the counters leaves as it is. -/
def infoFront (uptime active total : Nat) : Bytes :=
  ascii "# Server\r\nzetdb_version:0.1.0\r\nuptime_in_seconds:" ++ decimal uptime ++
  ascii "\r\n\r\n# Clients\r\nconnected_clients:" ++ decimal active ++
  ascii "\r\ntotal_connections:" ++ decimal total ++
  ascii "\r\n\r\n# Stats\r\ntotal_commands:"

def infoCounts (counts : CommandType → Nat) : Bytes :=
  decimal (counts .ping) ++
  ascii "\r\ncmd_get:" ++ decimal (counts .get) ++
  ascii "\r\ncmd_set:" ++ decimal (counts .set) ++
  ascii "\r\ncmd_del:" ++ decimal (counts .del) ++
  ascii "\r\ncmd_incr:" ++ decimal (counts .incr) ++
  ascii "\r\ncmd_info:" ++ decimal (counts .info) ++
  ascii "\r\ncmd_dbsize:" ++ decimal (counts .dbSize) ++
  ascii "\r\nkeyspace_hits:"

theorem infoText_parts (m : MetricsSnapshot) (keys : Nat) :
    infoText m keys = infoFront m.uptimeSecs m.connectionsActive m.connectionsTotal ++ (decimal m.commandsTotal ++
      (ascii "\r\ncmd_ping:" ++ (infoCounts m.commandCount ++ (decimal m.keyspaceHits ++
        (ascii "\r\nkeyspace_misses:" ++ (decimal m.keyspaceMisses ++ (ascii "\r\nerrors_total:" ++
          (decimal m.errorsTotal ++ (ascii "\r\n\r\n# Keyspace\r\ndb0:keys=" ++
            (decimal keys ++ ascii "\r\n")))))))))) := by
  unfold infoText infoFront infoCounts
  simp only [List.append_assoc]

/-- A numeral in front of a label that starts with no digit. -/
theorem decimal_label_inj {m n : Nat} {label x y : Bytes}
    (mark : ∃ b rest, label = b :: rest ∧ isAsciiDigit b = false)
    (same : decimal m ++ (label ++ x) = decimal n ++ (label ++ y)) : m = n ∧ x = y := by
  obtain ⟨b, rest, rfl, noDigit⟩ := mark
  obtain ⟨number, behind⟩ := decimal_append_inj noDigit same
  exact ⟨number, List.append_cancel_left behind⟩

/-- Two texts of one moment that agree in the counts by type differ where the other
counters do. -/
theorem infoText_same_iff {m m' : MetricsSnapshot} (uptime : m.uptimeSecs = m'.uptimeSecs)
    (active : m.connectionsActive = m'.connectionsActive) (total : m.connectionsTotal = m'.connectionsTotal)
    (counts : m.commandCount = m'.commandCount) (keys : Nat) :
    infoText m keys = infoText m' keys ↔ m.commandsTotal = m'.commandsTotal ∧ m.keyspaceHits = m'.keyspaceHits ∧
      m.keyspaceMisses = m'.keyspaceMisses ∧ m.errorsTotal = m'.errorsTotal := by
  rw [infoText_parts, infoText_parts, uptime, active, total, counts]
  constructor
  · intro same
    obtain ⟨commands, same⟩ := decimal_label_inj ⟨13, _, rfl, rfl⟩ (List.append_cancel_left same)
    obtain ⟨hits, same⟩ := decimal_label_inj ⟨13, _, rfl, rfl⟩ (List.append_cancel_left same)
    obtain ⟨misses, same⟩ := decimal_label_inj ⟨13, _, rfl, rfl⟩ same
    exact ⟨commands, hits, misses, (decimal_label_inj ⟨13, _, rfl, rfl⟩ same).1⟩
  · rintro ⟨commands, hits, misses, errors⟩
    rw [commands, hits, misses, errors]

/-- What a flush adds shows unless it is nothing. -/
theorem flushAll_slot_iff (m : ThreadMetrics) (slot : Slot) :
    m.flushAll.shared slot = m.shared slot ↔ m.thread slot = 0 := by
  obtain ⟨total, own⟩ := m.words slot
  show (if m.thread slot > 0 then wrappingAdd (m.shared slot) (m.thread slot) else m.shared slot) = _ ↔ _
  unfold wrappingAdd
  split <;> omega

theorem flushAll_counts (m : ThreadMetrics) : m.flushAll.load.commandCount = m.load.commandCount := by
  funext cmd
  obtain ⟨total, own⟩ := m.words (.commandsByType cmd)
  show wrappingAdd (if m.thread (.commandsByType cmd) > 0 then
    wrappingAdd (m.shared (.commandsByType cmd)) (m.thread (.commandsByType cmd))
      else m.shared (.commandsByType cmd)) 0 =
    wrappingAdd (m.shared (.commandsByType cmd)) (m.thread (.commandsByType cmd))
  unfold wrappingAdd
  split <;> omega

theorem bulkString_injective {a b : Bytes} (same : bulkString a = bulkString b) : a = b := by
  simp only [bulkString, List.append_assoc] at same
  have behind := (decimal_label_inj ⟨13, _, rfl, rfl⟩ (List.append_cancel_left same)).2
  exact List.append_cancel_right behind

/-- The reply that carries a text. -/
def infoReply (isResp : Bool) (text : Bytes) : Bytes :=
  if isResp then bulkString text else ascii "+" ++ text ++ crlf

theorem infoReply_injective {a b : Bytes} (same : infoReply isResp a = infoReply isResp b) : a = b := by
  cases isResp with
  | true => exact bulkString_injective same
  | false => exact List.append_cancel_left (List.append_cancel_right same)

theorem info_same_iff : SameEffect now (dispatchBorrowedToBuffer iter m now e isResp .info)
    (dispatchToBuffer iter m.load now e isResp .info) ↔ m.Settled := by
  have uptime : m.flushAll.load.uptimeSecs = m.load.uptimeSecs := rfl
  have active : m.flushAll.load.connectionsActive = m.load.connectionsActive := rfl
  have total : m.flushAll.load.connectionsTotal = m.load.connectionsTotal := rfl
  have text : infoText m.flushAll.load e.len = infoText m.load e.len ↔ m.Settled :=
    (infoText_same_iff uptime active total (flushAll_counts m) e.len).trans
      (and_congr (flushAll_slot_iff m .commandsTotal) (and_congr (flushAll_slot_iff m .keyspaceHits)
        (and_congr (flushAll_slot_iff m .keyspaceMisses) (flushAll_slot_iff m .errorsTotal))))
  show SameEffect now (infoReply isResp (infoText m.flushAll.load e.len), e)
    (infoReply isResp (infoText m.load e.len), e) ↔ _
  rw [← text]
  generalize infoText m.flushAll.load e.len = flushed
  generalize infoText m.load e.len = loaded
  constructor
  · exact fun same => infoReply_injective same.reply
  · rintro rfl
    exact SameEffect.refl _

theorem keys_same_iff : SameEffect now (dispatchBorrowedToBuffer iter m now e isResp .keys)
    (dispatchToBuffer iter m.load now e isResp .keys) ↔ isResp = true := by
  cases isResp with
  | true => exact iff_of_true (SameEffect.refl _) rfl
  | false =>
      refine iff_of_false ?_ (by decide)
      intro same
      have line : spaced (((e.keys iter now).map some).map inlineItem) = bulkArray ((e.keys iter now).map some) := by
        rw [List.map_map]
        exact (congrArg spaced (List.map_id _)).trans same.reply
      exact spaced_ne_bulkArray _ line

theorem mget_same_iff (keys : List Bytes) : SameEffect now (dispatchBorrowedToBuffer iter m now e isResp (.mget keys))
    (dispatchToBuffer iter m.load now e isResp (.mget (keys.map utf8OrEmpty))) ↔ isResp = true := by
  obtain ⟨values, kept⟩ := getEach_live now e (keys.map utf8OrEmpty)
  cases isResp with
  | true => exact iff_of_true (sameEffect_of_live (congrArg bulkArray values) kept) rfl
  | false =>
      refine iff_of_false ?_ (by decide)
      intro same
      have line := same.reply
      rw [dispatchToBuffer, ← values] at line
      exact spaced_ne_bulkArray _ line

theorem mset_same_iff (pairs : List (Bytes × Bytes)) :
    SameEffect now (dispatchBorrowedToBuffer iter m now e isResp (.mset pairs))
      (dispatchToBuffer iter m.load now e isResp (.mset (pairs.map strictPair))) ↔
        (msetLoop iter now e (pairs.map strictPair)).1 = .ok () := by
  rcases called : msetLoop iter now e (pairs.map strictPair) with ⟨_ | _, after⟩
  · refine iff_of_false ?_ (fun stored => by cases stored)
    intro same
    have replies := same.reply
    simp only [dispatchBorrowedToBuffer, dispatchToBuffer, called] at replies
    cases replies
  · refine iff_of_true ?_ rfl
    have stored := setEach_of_ok iter now e
      (show (msetLoop iter now e (pairs.map strictPair)).1 = .ok () by rw [called])
    rw [dispatchBorrowedToBuffer, dispatchToBuffer, stored, called]
    exact SameEffect.refl _

/-- Any command, in either mode, on any engine. -/
theorem dispatchBorrowed_same_iff (iter : Iter) (m : ThreadMetrics) (now : Instant) (e : DashMapEngine)
    (few : e.len < 2 ^ 63) (isResp : Bool) (c : ParsedCommand) :
    SameEffect now (dispatchBorrowedToBuffer iter m now e isResp c)
        (dispatchToBuffer iter m.load now e isResp (strictKeys c)) ↔
      (isList c = true → isResp = true) ∧ (c = .info → m.Settled) ∧
        ∀ pairs, strictKeys c = .mset pairs → (msetLoop iter now e pairs).1 = .ok () := by
  cases c with
  | keys =>
      rw [strictKeys, keys_same_iff]
      exact ⟨fun resp => ⟨fun _ => resp, nofun, nofun⟩, fun all => all.1 rfl⟩
  | mget keys =>
      rw [strictKeys, mget_same_iff]
      exact ⟨fun resp => ⟨fun _ => resp, nofun, nofun⟩, fun all => all.1 rfl⟩
  | info =>
      rw [strictKeys, info_same_iff]
      exact ⟨fun settled => ⟨nofun, fun _ => settled, nofun⟩, fun all => all.2.1 rfl⟩
  | mset pairs =>
      rw [strictKeys, mset_same_iff]
      refine ⟨fun stored => ⟨nofun, nofun, ?_⟩, fun all => all.2.2 _ rfl⟩
      rintro _ ⟨⟩
      exact stored
  | _ =>
      refine iff_of_true ?_ ⟨nofun, nofun, nofun⟩
      rw [dispatchBorrowed_plain few (by simp) (by simp) (by simp) (by simp)]
      exact SameEffect.refl _

end Same

/-- A key that is no UTF-8 is stored as the empty key. -/
theorem dispatchBorrowed_same_iff_broken :
    SameEffect 5 (dispatchBorrowedToBuffer Iter.some .fresh 5 .new true (.set [0xFF] (ascii "v") none))
      (dispatchToBuffer Iter.some ThreadMetrics.fresh.load 5 .new true (.set [] (ascii "v") none)) :=
  (dispatchBorrowed_same_iff Iter.some .fresh 5 .new (by decide) true (.set [0xFF] (ascii "v") none)).2
    ⟨fun _ => rfl, nofun, nofun⟩

end ZetDb.Application
