/-
# Domain.Command -- the fourteen commands and their log entries

Embeds `domain/command.rs` and `domain/parsed_command.rs`.  `Command.toAofEntry`
is the binary entry a write command leaves in the append-only file; the length
and count casts truncate exactly as the source's `as u16` and `as u32` do.
-/
import ZetDb.Domain.Value

namespace ZetDb.Domain

set_option autoImplicit false

open ZetDb.Theory.Wire ZetDb.Theory.Text

/-- Index of the per-command counters (`observability/metrics.rs`). -/
inductive CommandType where
  | ping | get | set | del | incr | info | dbSize | exists | ttl | expire | flushDb | keys | mget | mset
  deriving DecidableEq, Repr

inductive Command where
  | ping
  | get (key : Key)
  | set (key : Key) (value : Bytes) (ttl : Option Duration)
  | del (key : Key)
  | incr (key : Key)
  | info
  | dbSize
  | exists (key : Key)
  | ttl (key : Key)
  | expire (key : Key) (seconds : Nat)
  | flushDb
  | keys
  | mget (keys : List Key)
  | mset (pairs : List (Key × Bytes))
  deriving DecidableEq, Repr

namespace Command

def isWrite : Command → Bool
  | .set .. | .del _ | .incr _ | .expire .. | .flushDb | .mset _ => true
  | _ => false

def commandType : Command → CommandType
  | .ping => .ping
  | .get _ => .get
  | .set .. => .set
  | .del _ => .del
  | .incr _ => .incr
  | .info => .info
  | .dbSize => .dbSize
  | .exists _ => .exists
  | .ttl _ => .ttl
  | .expire .. => .expire
  | .flushDb => .flushDb
  | .keys => .keys
  | .mget _ => .mget
  | .mset _ => .mset

/-- The signed eight-byte field of a time to live; `-1` is "no ttl". -/
def ttlMillis : Option Duration → Int
  | some d => asI64 d.asMillis
  | none => -1

/-- The binary log entry; `none` for the read-only commands. -/
def toAofEntry : Command → Option Bytes
  | .set key value lifetime =>
      some ([0x01] ++ toLe 2 key.length ++ key ++ toLe 4 value.length ++ value ++
        toLe 8 (toTwos 64 (ttlMillis lifetime)))
  | .del key => some ([0x02] ++ toLe 2 key.length ++ key)
  | .incr key => some ([0x03] ++ toLe 2 key.length ++ key)
  | .expire key seconds => some ([0x04] ++ toLe 2 key.length ++ key ++ toLe 8 seconds)
  | .flushDb => some [0x05]
  | .mset pairs =>
      some ([0x06] ++ toLe 2 pairs.length ++
        pairs.flatMap fun p => toLe 2 p.1.length ++ p.1 ++ toLe 4 p.2.length ++ p.2)
  | _ => none

/-- What the session appends for a command: nothing for a read. -/
def aofBytes (c : Command) : Bytes := c.toAofEntry.getD []

end Command

/-- The borrowed command of the zero-copy parser. -/
inductive ParsedCommand where
  | ping
  | get (key : Bytes)
  | set (key value : Bytes) (ttl : Option Duration)
  | del (key : Bytes)
  | incr (key : Bytes)
  | info
  | dbSize
  | exists (key : Bytes)
  | ttl (key : Bytes)
  | expire (key : Bytes) (seconds : Nat)
  | flushDb
  | keys
  | mget (keys : List Bytes)
  | mset (pairs : List (Bytes × Bytes))
  deriving DecidableEq, Repr

namespace ParsedCommand

def isWrite : ParsedCommand → Bool
  | .set .. | .del _ | .incr _ | .expire .. | .flushDb | .mset _ => true
  | _ => false

/-- `bytes_to_string` copies the bytes unchecked, so ownership changes nothing. -/
def toOwned : ParsedCommand → Command
  | .ping => .ping
  | .get key => .get key
  | .set key value lifetime => .set key value lifetime
  | .del key => .del key
  | .incr key => .incr key
  | .info => .info
  | .dbSize => .dbSize
  | .exists key => .exists key
  | .ttl key => .ttl key
  | .expire key seconds => .expire key seconds
  | .flushDb => .flushDb
  | .keys => .keys
  | .mget names => .mget names
  | .mset pairs => .mset pairs

def toAofEntry (c : ParsedCommand) : Option Bytes := c.toOwned.toAofEntry

def commandType (c : ParsedCommand) : CommandType := c.toOwned.commandType

end ParsedCommand

end ZetDb.Domain
