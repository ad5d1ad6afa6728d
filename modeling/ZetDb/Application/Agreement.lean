/-
# Application.Agreement -- the two dispatchers are one command semantics

Every command is written twice in `application/dispatcher.rs`: `dispatch` returns
a `Response` that `write_to_impl` serialises for the RESP clients, and
`dispatch_to_buffer` writes the bytes itself for the inline clients.

* Both leave the same engine (`dispatchToBuffer_engine`).
* A reply that is no error has the same bytes.
* An error has the same kind.  The texts differ: the serialised error carries the
  message of the engine, the direct one only in MSET.

`Application.Dispatcher` gives the bytes a command appends.  Here the buffer is
explicit, and the loops that push an array item by item and that return from the
middle of an MSET are the loops of the source.
-/
import ZetDb.Application.Dispatcher

namespace ZetDb.Application

set_option autoImplicit false

open ZetDb.Theory.Wire ZetDb.Theory.Text ZetDb.Domain ZetDb.Storage ZetDb.Protocol

/-! ## Writing into a buffer -/

/-- The item loop of `write_to_impl`, and of KEYS in `dispatch_to_buffer`. -/
def writeItems : Bytes → List (Option Bytes) → Bytes
  | buf, [] => buf
  | buf, some data :: rest =>
      writeItems (buf ++ ascii "$" ++ decimal data.length ++ crlf ++ data ++ crlf) rest
  | buf, none :: rest => writeItems (buf ++ ascii "$-1\r\n") rest

/-- The loop of MGET in `dispatch_to_buffer`, over the entries themselves. -/
def writeEntries : Bytes → List (Option ValueEntry) → Bytes
  | buf, [] => buf
  | buf, some entry :: rest =>
      writeEntries (buf ++ ascii "$" ++ decimal entry.data.length ++ crlf ++ entry.data ++ crlf) rest
  | buf, none :: rest => writeEntries (buf ++ ascii "$-1\r\n") rest

/-- The loop of MSET in `dispatch_to_buffer`: a failing pair is answered and returns. -/
def msetInto (iter : Iter) (now : Instant) (buf : Bytes) :
    DashMapEngine → List (Key × Bytes) → Bytes × DashMapEngine
  | e, [] => (buf ++ ascii "+OK\r\n", e)
  | e, (key, value) :: rest =>
      match e.set iter now key (ValueEntry.new now value) with
      | (.error err, e) => (buf ++ ascii "-ERR internal: " ++ err.toText ++ crlf, e)
      | (.ok (), e) => msetInto iter now buf e rest

def writeInto (buf : Bytes) (respMode : Bool) : Response → Bytes
  | .array items => writeItems (buf ++ ascii "*" ++ decimal items.length ++ crlf) items
  | r => buf ++ r.writeToImpl respMode

/-- `dispatch_to_buffer` with its buffer. -/
def dispatchInto (iter : Iter) (m : MetricsSnapshot) (now : Instant) (buf : Bytes) (e : DashMapEngine)
    (isResp : Bool) : Command → Bytes × DashMapEngine
  | .keys =>
      let keys := (e.keys iter now).map some
      (writeItems (buf ++ ascii "*" ++ decimal keys.length ++ crlf) keys, e)
  | .mget keys =>
      let results := e.mget now keys
      (writeEntries (buf ++ ascii "*" ++ decimal results.length ++ crlf) results, e)
  | .mset pairs => msetInto iter now buf e pairs
  | c => (buf ++ (dispatchToBuffer iter m now e isResp c).1, (dispatchToBuffer iter m now e isResp c).2)

theorem writeItems_eq (buf : Bytes) (items : List (Option Bytes)) :
    writeItems buf items = buf ++ items.flatMap itemBytes := by
  induction items generalizing buf with
  | nil => exact (List.append_nil buf).symm
  | cons item items ih =>
      rw [List.flatMap_cons, ← List.append_assoc]
      cases item with
      | none => exact ih (buf ++ nullBulk)
      | some data =>
          rw [writeItems, ih, itemBytes, bulkString]
          simp only [List.append_assoc]

/-- Over the entries or over their data, the loop writes the same. -/
theorem writeEntries_eq (buf : Bytes) (results : List (Option ValueEntry)) :
    writeEntries buf results = writeItems buf (results.map fun opt => opt.map (·.data)) := by
  induction results generalizing buf with
  | nil => rfl
  | cons opt results ih =>
      cases opt with
      | none => exact ih _
      | some entry => exact ih _

theorem writeInto_array (buf : Bytes) (items : List (Option Bytes)) :
    writeItems (buf ++ ascii "*" ++ decimal items.length ++ crlf) items = buf ++ bulkArray items := by
  calc writeItems (buf ++ ascii "*" ++ decimal items.length ++ crlf) items
      = buf ++ (ascii "*" ++ decimal items.length ++ crlf ++ items.flatMap itemBytes) := by
        simp only [writeItems_eq, List.append_assoc]
    _ = buf ++ bulkArray items := rfl

theorem writeInto_eq (buf : Bytes) (respMode : Bool) (r : Response) :
    writeInto buf respMode r = buf ++ r.writeToImpl respMode := by
  cases r with
  | array items => exact writeInto_array buf items
  | _ => rfl

theorem msetInto_eq (iter : Iter) (m : MetricsSnapshot) (now : Instant) (buf : Bytes) (e : DashMapEngine)
    (isResp : Bool) (pairs : List (Key × Bytes)) :
    msetInto iter now buf e pairs =
      (buf ++ (dispatchToBuffer iter m now e isResp (.mset pairs)).1,
        (dispatchToBuffer iter m now e isResp (.mset pairs)).2) := by
  induction pairs generalizing e with
  | nil => rfl
  | cons pair pairs ih =>
      rcases called : e.set iter now pair.1 (ValueEntry.new now pair.2) with ⟨err | ⟨⟩, after⟩
      · simp only [msetInto, dispatchToBuffer, msetLoop, called, List.append_assoc]
      · -- the pair is stored and both go on with the rest
        have rest := ih after
        simp only [dispatchToBuffer] at rest
        simp only [msetInto, dispatchToBuffer, msetLoop, called, rest]

/-- What `dispatchToBuffer` returns is what the buffer gets. -/
theorem dispatchInto_eq (iter : Iter) (m : MetricsSnapshot) (now : Instant) (buf : Bytes) (e : DashMapEngine)
    (isResp : Bool) (c : Command) :
    dispatchInto iter m now buf e isResp c =
      (buf ++ (dispatchToBuffer iter m now e isResp c).1, (dispatchToBuffer iter m now e isResp c).2) := by
  cases c with
  | keys => exact Prod.ext (writeInto_array buf _) rfl
  | mget keys =>
      refine Prod.ext ?_ rfl
      have counted : ((e.mget now keys).map fun opt => opt.map (·.data)).length = (e.mget now keys).length :=
        List.length_map _
      simp only [dispatchInto, dispatchToBuffer]
      rw [writeEntries_eq, ← counted]
      exact writeInto_array buf _
  | mset pairs => exact msetInto_eq iter m now buf e isResp pairs
  | _ => rfl

/-! ## Agreement -/

/-- The kinds of error a dispatcher answers with. -/
inductive ErrorKind where
  | internal
  | type

def ErrorKind.text : ErrorKind → Bytes
  | .internal => ascii "internal"
  | .type => ascii "type"

/-- The line `-ERR <kind>`, with or without a message behind the kind. -/
def ErrorReply (kind : ErrorKind) (reply : Bytes) : Prop :=
  reply = ascii "-ERR " ++ kind.text ++ crlf ∨
    ∃ msg, reply = ascii "-ERR " ++ kind.text ++ ascii ": " ++ msg ++ crlf

/-- A response and the bytes written in its place say the same. -/
def SameReply (isResp : Bool) (response : Response) (written : Bytes) : Prop :=
  (response.isSuccess = true → written = response.writeToImpl isResp) ∧
    (response.isSuccess = false →
      ∃ kind, ErrorReply kind written ∧ ErrorReply kind (response.writeToImpl isResp))

section Replies

variable {isResp : Bool} {written msg : Bytes}

theorem SameReply.of_success {response : Response} (success : response.isSuccess = true)
    (same : written = response.writeToImpl isResp) : SameReply isResp response written :=
  ⟨fun _ => same, fun failure => absurd success (Bool.eq_false_iff.1 failure)⟩

theorem SameReply.of_internalError (same : ErrorReply .internal written) :
    SameReply isResp (.error (.internalError msg)) written :=
  ⟨fun success => Bool.noConfusion success, fun _ => ⟨.internal, same, .inr ⟨msg, rfl⟩⟩⟩

theorem SameReply.of_typeError (same : ErrorReply .type written) :
    SameReply isResp (.error (.typeError msg)) written :=
  ⟨fun success => Bool.noConfusion success, fun _ => ⟨.type, same, .inr ⟨msg, rfl⟩⟩⟩

end Replies

/-- The replies of the two dispatchers, command by command. -/
theorem dispatchToBuffer_sameReply (iter : Iter) (m : MetricsSnapshot) (now : Instant) (e : DashMapEngine)
    (isResp : Bool) (c : Command) :
    SameReply isResp (dispatch iter m now e c).1 (dispatchToBuffer iter m now e isResp c).1 := by
  cases c with
  | get key =>
      simp only [dispatch, dispatchToBuffer]
      rcases e.get now key with ⟨err | found, after⟩
      · apply SameReply.of_internalError
        exact .inl rfl
      · cases found with
        | none => exact .of_success rfl rfl
        | some entry => exact .of_success rfl rfl
  | set key value lifetime =>
      simp only [dispatch, dispatchToBuffer]
      rcases e.set iter now key (setEntry now value lifetime) with ⟨err | ⟨⟩, after⟩
      · apply SameReply.of_internalError
        exact .inl rfl
      · exact .of_success rfl rfl
  | del key =>
      simp only [dispatch, dispatchToBuffer]
      rcases e.del now key with ⟨err | existed, after⟩
      · apply SameReply.of_internalError
        exact .inl rfl
      · exact .of_success rfl rfl
  | incr key =>
      simp only [dispatch, dispatchToBuffer]
      rcases e.incr iter now key with ⟨err | n, after⟩
      · apply SameReply.of_typeError
        exact .inl rfl
      · exact .of_success rfl rfl
  | mset pairs =>
      -- the one error that carries the message of the engine on both sides
      simp only [dispatch, dispatchToBuffer]
      rcases msetLoop iter now e pairs with ⟨err | ⟨⟩, after⟩
      · apply SameReply.of_internalError
        exact .inr ⟨err.toText, rfl⟩
      · exact .of_success rfl rfl
  | ping => exact .of_success rfl rfl
  | info => exact .of_success rfl rfl
  | dbSize => exact .of_success rfl rfl
  | «exists» key => exact .of_success rfl rfl
  | ttl key => exact .of_success rfl rfl
  | expire key seconds => exact .of_success rfl rfl
  | flushDb => exact .of_success rfl rfl
  | keys => exact .of_success rfl rfl
  | mget keys => exact .of_success rfl rfl

/-- For every engine, clock reading, metrics, command, reply mode and buffer, both
dispatchers leave the same engine; they append the same bytes when the response is
no error, and an error line of the same kind when it is one. -/
theorem dispatchers_agree (iter : Iter) (m : MetricsSnapshot) (now : Instant) (e : DashMapEngine)
    (buf : Bytes) (isResp : Bool) (c : Command) :
    (dispatchInto iter m now buf e isResp c).2 = (dispatch iter m now e c).2 ∧
      ((dispatch iter m now e c).1.isSuccess = true →
        (dispatchInto iter m now buf e isResp c).1 = writeInto buf isResp (dispatch iter m now e c).1) ∧
      ((dispatch iter m now e c).1.isSuccess = false →
        ∃ kind direct serialised, ErrorReply kind direct ∧ ErrorReply kind serialised ∧
          (dispatchInto iter m now buf e isResp c).1 = buf ++ direct ∧
          writeInto buf isResp (dispatch iter m now e c).1 = buf ++ serialised) := by
  obtain ⟨bytes, errors⟩ := dispatchToBuffer_sameReply iter m now e isResp c
  rw [dispatchInto_eq, writeInto_eq]
  refine ⟨dispatchToBuffer_engine isResp c, fun success => ?_, fun failure => ?_⟩
  · show buf ++ _ = buf ++ _
    rw [bytes success]
  · obtain ⟨kind, direct, serialised⟩ := errors failure
    exact ⟨kind, _, _, direct, serialised, rfl, rfl⟩

end ZetDb.Application
