/-
# Application.Dispatcher -- commands executed on the engine

Embeds `application/dispatcher.rs`: `dispatch` returns a reply value (the RESP
loop), `dispatchToBuffer` appends the reply bytes itself (the inline loop).  The
metrics read by INFO are a snapshot argument; the clock is read once per command.
-/
import ZetDb.Storage.Engine
import ZetDb.Protocol.Response

namespace ZetDb.Application

set_option autoImplicit false

open ZetDb.Theory.Wire ZetDb.Theory.Text ZetDb.Domain ZetDb.Storage ZetDb.Protocol

/-- The counters INFO prints. -/
structure MetricsSnapshot where
  uptimeSecs : Nat
  connectionsActive : Nat
  connectionsTotal : Nat
  commandsTotal : Nat
  commandCount : CommandType → Nat
  keyspaceHits : Nat
  keyspaceMisses : Nat
  errorsTotal : Nat

/-- The counters of a fresh server (`Metrics::new`). -/
def MetricsSnapshot.new : MetricsSnapshot := ⟨0, 0, 0, 0, fun _ => 0, 0, 0, 0⟩

def infoText (m : MetricsSnapshot) (keys : Nat) : Bytes :=
  ascii "# Server\r\nzetdb_version:0.1.0\r\nuptime_in_seconds:" ++ decimal m.uptimeSecs ++
  ascii "\r\n\r\n# Clients\r\nconnected_clients:" ++ decimal m.connectionsActive ++
  ascii "\r\ntotal_connections:" ++ decimal m.connectionsTotal ++
  ascii "\r\n\r\n# Stats\r\ntotal_commands:" ++ decimal m.commandsTotal ++
  ascii "\r\ncmd_ping:" ++ decimal (m.commandCount .ping) ++
  ascii "\r\ncmd_get:" ++ decimal (m.commandCount .get) ++
  ascii "\r\ncmd_set:" ++ decimal (m.commandCount .set) ++
  ascii "\r\ncmd_del:" ++ decimal (m.commandCount .del) ++
  ascii "\r\ncmd_incr:" ++ decimal (m.commandCount .incr) ++
  ascii "\r\ncmd_info:" ++ decimal (m.commandCount .info) ++
  ascii "\r\ncmd_dbsize:" ++ decimal (m.commandCount .dbSize) ++
  ascii "\r\nkeyspace_hits:" ++ decimal m.keyspaceHits ++
  ascii "\r\nkeyspace_misses:" ++ decimal m.keyspaceMisses ++
  ascii "\r\nerrors_total:" ++ decimal m.errorsTotal ++
  ascii "\r\n\r\n# Keyspace\r\ndb0:keys=" ++ decimal keys ++ ascii "\r\n"

/-- The entry a SET stores. -/
def setEntry (now : Instant) (value : Bytes) : Option Duration → ValueEntry
  | some dur => ValueEntry.withTtl now value dur
  | none => ValueEntry.new now value

/-- The loop of MSET: the first failing pair stops it, the earlier ones stay. -/
def msetLoop (iter : Iter) (now : Instant) :
    DashMapEngine → List (Key × Bytes) → Except EngineError Unit × DashMapEngine
  | e, [] => (.ok (), e)
  | e, (key, value) :: rest =>
      match e.set iter now key (ValueEntry.new now value) with
      | (.error err, e) => (.error err, e)
      | (.ok (), e) => msetLoop iter now e rest

def boolInteger (b : Bool) : Int := if b then 1 else 0

section Dispatch

variable (iter : Iter) (m : MetricsSnapshot) (now : Instant)

def dispatch (e : DashMapEngine) : Command → Response × DashMapEngine
  | .get key =>
      match e.get now key with
      | (.ok (some entry), e) => (.value (some entry.data), e)
      | (.ok none, e) => (.value none, e)
      | (.error err, e) => (.error (.internalError err.toText), e)
  | .set key value ttl =>
      match e.set iter now key (setEntry now value ttl) with
      | (.ok (), e) => (.ok, e)
      | (.error err, e) => (.error (.internalError err.toText), e)
  | .ping => (.pong, e)
  | .del key =>
      match e.del now key with
      | (.ok existed, e) => (.integer (boolInteger existed), e)
      | (.error err, e) => (.error (.internalError err.toText), e)
  | .incr key =>
      match e.incr iter now key with
      | (.ok n, e) => (.integer n, e)
      | (.error err, e) => (.error (.typeError err.toText), e)
  | .info => (.value (some (infoText m e.len)), e)
  | .dbSize => (.integer (asI64 e.len), e)
  | .exists key =>
      match e.exists? now key with
      | (found, e) => (.integer (boolInteger found), e)
  | .ttl key =>
      match e.ttlSecs now key with
      | (secs, e) => (.integer secs, e)
  | .expire key seconds =>
      match e.expire now key seconds with
      | (found, e) => (.integer (boolInteger found), e)
  | .flushDb => (.ok, e.clear)
  | .keys => (.array ((e.keys iter now).map some), e)
  | .mget keys => (.array ((e.mget now keys).map fun opt => opt.map (·.data)), e)
  | .mset pairs =>
      match msetLoop iter now e pairs with
      | (.ok (), e) => (.ok, e)
      | (.error err, e) => (.error (.internalError err.toText), e)

def integerLine (n : Int) : Bytes := ascii ":" ++ decimalInt n ++ crlf

/-- The bytes appended and the engine left behind. -/
def dispatchToBuffer (e : DashMapEngine) (isResp : Bool) : Command → Bytes × DashMapEngine
  | .get key =>
      match e.get now key with
      | (.ok (some entry), e) =>
          (if isResp then bulkString entry.data else ascii "+" ++ entry.data ++ crlf, e)
      | (.ok none, e) => (nullBulk, e)
      | (.error _, e) => (ascii "-ERR internal\r\n", e)
  | .set key value ttl =>
      match e.set iter now key (setEntry now value ttl) with
      | (.ok (), e) => (ascii "+OK\r\n", e)
      | (.error _, e) => (ascii "-ERR internal\r\n", e)
  | .ping => (ascii "+PONG\r\n", e)
  | .del key =>
      match e.del now key with
      | (.ok existed, e) => (integerLine (boolInteger existed), e)
      | (.error _, e) => (ascii "-ERR internal\r\n", e)
  | .incr key =>
      match e.incr iter now key with
      | (.ok n, e) => (integerLine n, e)
      | (.error _, e) => (ascii "-ERR type\r\n", e)
  | .info =>
      let info := infoText m e.len
      (if isResp then bulkString info else ascii "+" ++ info ++ crlf, e)
  | .dbSize => (integerLine (asI64 e.len), e)
  | .exists key =>
      match e.exists? now key with
      | (found, e) => (integerLine (boolInteger found), e)
  | .ttl key =>
      match e.ttlSecs now key with
      | (secs, e) => (integerLine secs, e)
  | .expire key seconds =>
      match e.expire now key seconds with
      | (found, e) => (integerLine (boolInteger found), e)
  | .flushDb => (ascii "+OK\r\n", e.clear)
  | .keys => (bulkArray ((e.keys iter now).map some), e)
  | .mget keys => (bulkArray ((e.mget now keys).map fun opt => opt.map (·.data)), e)
  | .mset pairs =>
      match msetLoop iter now e pairs with
      | (.ok (), e) => (ascii "+OK\r\n", e)
      | (.error err, e) => (ascii "-ERR internal: " ++ err.toText ++ crlf, e)

/-- The engine after a command, its reply dropped. -/
def exec (e : DashMapEngine) (c : Command) : DashMapEngine := (dispatch iter m now e c).2

/-- The engine after a list of commands. -/
def execAll (e : DashMapEngine) (cs : List Command) : DashMapEngine :=
  cs.foldl (exec iter m now) e

@[simp] theorem execAll_nil (e : DashMapEngine) : execAll iter m now e [] = e := rfl

@[simp] theorem execAll_cons (e : DashMapEngine) (c : Command) (cs : List Command) :
    execAll iter m now e (c :: cs) = execAll iter m now (exec iter m now e c) cs := rfl

end Dispatch

/-- A key that is not there counts from zero. -/
example : (dispatch Iter.some .new 5 (execAll Iter.some .new 5 .new [.incr (ascii "n"), .incr (ascii "n")])
    (.get (ascii "n"))).1 = .value (some (ascii "2")) := by decide +kernel

section Exec

variable {iter : Iter} {m : MetricsSnapshot} {now : Instant} {e : DashMapEngine}

theorem exec_get (key : Key) : exec iter m now e (.get key) = (e.get now key).2 := by
  simp only [exec, dispatch]
  rcases e.get now key with ⟨⟨⟩ | ⟨⟨⟩ | ⟨⟩⟩, e'⟩ <;> rfl

theorem exec_exists (key : Key) : exec iter m now e (.exists key) = (e.exists? now key).2 := rfl

theorem exec_ttl (key : Key) : exec iter m now e (.ttl key) = (e.ttlSecs now key).2 := rfl

theorem exec_set (key : Key) (value : Bytes) (lifetime : Option Duration) :
    exec iter m now e (.set key value lifetime) =
      (e.set iter now key (setEntry now value lifetime)).2 := by
  simp only [exec, dispatch]
  rcases e.set iter now key (setEntry now value lifetime) with ⟨⟨⟩ | ⟨⟩, e'⟩ <;> rfl

theorem exec_del (key : Key) : exec iter m now e (.del key) = (e.del now key).2 := by
  simp only [exec, dispatch]
  rcases e.del now key with ⟨⟨⟩ | ⟨⟩, e'⟩ <;> rfl

theorem exec_incr (key : Key) : exec iter m now e (.incr key) = (e.incr iter now key).2 := by
  simp only [exec, dispatch]
  rcases e.incr iter now key with ⟨⟨⟩ | ⟨⟩, e'⟩ <;> rfl

theorem exec_mset (pairs : List (Key × Bytes)) :
    exec iter m now e (.mset pairs) = (msetLoop iter now e pairs).2 := by
  simp only [exec, dispatch]
  rcases msetLoop iter now e pairs with ⟨⟨⟩ | ⟨⟩, e'⟩ <;> rfl

theorem exec_expire (key : Key) (seconds : Nat) :
    exec iter m now e (.expire key seconds) = (e.expire now key seconds).2 := rfl

/-- Both dispatchers leave the same engine behind. -/
theorem dispatchToBuffer_engine (isResp : Bool) (c : Command) :
    (dispatchToBuffer iter m now e isResp c).2 = exec iter m now e c := by
  cases c with
  | get key =>
      rw [exec_get, dispatchToBuffer]
      rcases e.get now key with ⟨⟨⟩ | ⟨⟨⟩ | ⟨⟩⟩, e'⟩ <;> rfl
  | set key value lifetime =>
      rw [exec_set, dispatchToBuffer]
      rcases e.set iter now key (setEntry now value lifetime) with ⟨⟨⟩ | ⟨⟩, e'⟩ <;> rfl
  | del key =>
      rw [exec_del, dispatchToBuffer]
      rcases e.del now key with ⟨⟨⟩ | ⟨⟩, e'⟩ <;> rfl
  | incr key =>
      rw [exec_incr, dispatchToBuffer]
      rcases e.incr iter now key with ⟨⟨⟩ | ⟨⟩, e'⟩ <;> rfl
  | mset pairs =>
      rw [exec_mset, dispatchToBuffer]
      rcases msetLoop iter now e pairs with ⟨⟨⟩ | ⟨⟩, e'⟩ <;> rfl
  | _ => rfl

end Exec

end ZetDb.Application
