/-
# Server.FastConnection -- the ultra-fast session against the full one

Embeds the whole of `handle_session_fast` and the choice of the path in
`handle_session`: without a log, metrics and a write timeout a connection is served by
a loop that keeps a cursor over its inline lines and has a dispatcher of its own for
them.

The two paths differ on much: verbs, lifetimes, the key limit, refused lines.
`path_invisible` says where they do not: as long as inline lines are GET, SET without a
lifetime, or blank, and requests are of the kinds whose reply the contents decide, on a
store without a limit where nothing expires.  There no setting changes a byte that a
client is sent, whatever the cut of the stream, and whether or not its reads and writes
fail.

The engines of the two runs are not the same: an entry of the fast path has no time of
creation.  What they have in common are the contents (`Alike`), and `dispatch_alike`
says that this is all a steady command looks at.
-/
import ZetDb.Server.FastSession
import ZetDb.Storage.Contents

namespace ZetDb.Server

set_option autoImplicit false

open ZetDb.Theory.Wire ZetDb.Theory.Text ZetDb.Domain ZetDb.Storage ZetDb.Application ZetDb.Protocol
open ZetDb.Theory.Runs (Along)

/-! ## Replies that the contents decide -/

/-- Engines without a limit where nothing expires, with the same contents. -/
structure Alike (e e' : DashMapEngine) : Prop where
  permanent : Permanent e
  permanent' : Permanent e'
  contents : e.contents = e'.contents

/-- The reply does not depend on the clock, the counters and the iteration order. -/
def steady : Command → Bool
  | .set _ _ lifetime => lifetime.isNone
  | .expire _ _ => false
  | .keys => false
  | .info => false
  | _ => true

theorem lasting_of_steady {c : Command} (calm : steady c = true) : Lasting c := by
  cases c with
  | set key value lifetime => exact Option.isNone_iff_eq_none.1 calm
  | expire key seconds => cases calm
  | _ => trivial

section Engines

variable {iter : Iter} {m : MetricsSnapshot} {now : Instant} {e e' : DashMapEngine} {key : Key}

/-- A key is stored in neither, or in both with the same data. -/
theorem Alike.view (alike : Alike e e') (key : Key) :
    (e.map.lookup key = none ∧ e'.map.lookup key = none) ∨
      ∃ v w, e.map.lookup key = some v ∧ e'.map.lookup key = some w ∧ v.data = w.data := by
  have same : (e.map.lookup key).map (·.data) = (e'.map.lookup key).map (·.data) := congrFun alike.contents key
  cases found : e.map.lookup key with
  | none =>
      rw [found] at same
      exact .inl ⟨rfl, Option.map_eq_none_iff.1 same.symm⟩
  | some v =>
      rw [found] at same
      obtain ⟨w, held, data⟩ := Option.map_eq_some_iff.1 same.symm
      exact .inr ⟨v, w, rfl, held, data.symm⟩

theorem Alike.len (alike : Alike e e') : e.len = e'.len := by
  have keys : e.map.keys = e'.map.keys := by
    apply Finset.ext
    intro key
    rw [mem_keys_iff, mem_keys_iff]
    obtain ⟨found, held⟩ | ⟨v, w, found, held, -⟩ := alike.view key
    · rw [found, held]
    · rw [found, held]
      exact iff_of_true rfl rfl
  rw [len_eq_card, len_eq_card, keys]

variable (iter m now)

/-- A steady command answers from the contents, and keeps them the same. -/
theorem dispatch_alike (alike : Alike e e') {c : Command} (calm : steady c = true) :
    (dispatch iter m now e c).1 = (dispatch iter m now e' c).1 ∧
      Alike (dispatch iter m now e c).2 (dispatch iter m now e' c).2 := by
  have lasting := lasting_of_steady calm
  refine ⟨?_, ?_⟩
  · cases c with
    | get key =>
        obtain ⟨found, held⟩ | ⟨v, w, found, held, data⟩ := alike.view key
        · simp [dispatch, DashMapEngine.get, found, held]
        · simp [dispatch, DashMapEngine.get, found, held, alike.permanent.live found now,
            alike.permanent'.live held now, data]
    | set key value lifetime =>
        simp [dispatch, DashMapEngine.set_unlimited alike.permanent.unlimited,
          DashMapEngine.set_unlimited alike.permanent'.unlimited]
    | del key =>
        obtain ⟨found, held⟩ | ⟨v, w, found, held, -⟩ := alike.view key
        · simp [dispatch, DashMapEngine.del, found, held]
        · simp [dispatch, DashMapEngine.del, found, held, alike.permanent.live found now,
            alike.permanent'.live held now]
    | incr key =>
        obtain ⟨found, held⟩ | ⟨v, w, found, held, data⟩ := alike.view key
        · simp [dispatch, DashMapEngine.incr_unlimited alike.permanent.unlimited,
            DashMapEngine.incr_unlimited alike.permanent'.unlimited, found, held]
        · simp only [dispatch, DashMapEngine.incr_unlimited alike.permanent.unlimited,
            DashMapEngine.incr_unlimited alike.permanent'.unlimited, found, held, alike.permanent.live found now,
            alike.permanent'.live held now, data, Bool.false_eq_true, if_false]
          cases parseSigned 64 (fromUtf8Lossy w.data) with
          | none => rfl
          | some n => rfl
    | dbSize => simp [dispatch, alike.len]
    | «exists» key =>
        obtain ⟨found, held⟩ | ⟨v, w, found, held, -⟩ := alike.view key
        · simp [dispatch, DashMapEngine.exists?, found, held]
        · simp [dispatch, DashMapEngine.exists?, found, held, alike.permanent.live found now,
            alike.permanent'.live held now]
    | ttl key =>
        obtain ⟨found, held⟩ | ⟨v, w, found, held, -⟩ := alike.view key
        · simp [dispatch, DashMapEngine.ttlSecs, found, held]
        · simp [dispatch, DashMapEngine.ttlSecs, found, held, alike.permanent.live found now,
            alike.permanent'.live held now, alike.permanent.forever found, alike.permanent'.forever held]
    | mget names =>
        simp only [dispatch, DashMapEngine.mget, List.map_map]
        refine congrArg Response.array (List.map_congr_left fun key _ => ?_)
        obtain ⟨found, held⟩ | ⟨v, w, found, held, data⟩ := alike.view key
        · simp [found, held]
        · simp [found, held, alike.permanent.live found now, alike.permanent'.live held now, data]
    | mset pairs =>
        have stores {e : DashMapEngine} (permanent : Permanent e) : (dispatch iter m now e (.mset pairs)).1 = .ok := by
          have done := (msetLoop_ok iter now permanent pairs).1
          rw [dispatch]
          rcases left : msetLoop iter now e pairs with ⟨result, after⟩
          rw [left] at done
          cases done
          rfl
        rw [stores alike.permanent, stores alike.permanent']
    | ping | flushDb => rfl
    | expire _ _ | keys | info => cases calm
  · refine ⟨exec_permanent alike.permanent lasting, exec_permanent alike.permanent' lasting, ?_⟩
    show (exec iter m now e c).contents = (exec iter m now e' c).contents
    rw [exec_contents alike.permanent lasting, exec_contents alike.permanent' lasting, alike.contents]

/-- The inline commands that the fast dispatcher knows, as it knows them. -/
def fastKnows : ParsedCommand → Bool
  | .get _ => true
  | .set _ _ lifetime => lifetime.isNone
  | _ => false

theorem dispatchFast_alike (alike : Alike e e') {c : ParsedCommand} (known : fastKnows c = true) :
    (dispatchToBuffer iter m now e false c.toOwned).1 = (dispatchFast e' c).1 ∧
      Alike (dispatchToBuffer iter m now e false c.toOwned).2 (dispatchFast e' c).2 := by
  cases c with
  | get key =>
      obtain ⟨found, held⟩ | ⟨v, w, found, held, data⟩ := alike.view key
      · simp only [ParsedCommand.toOwned, dispatchToBuffer, dispatchFast, DashMapEngine.get, DashMapEngine.getFast,
          found, held]
        exact ⟨rfl, alike⟩
      · simp only [ParsedCommand.toOwned, dispatchToBuffer, dispatchFast, DashMapEngine.get, DashMapEngine.getFast,
          found, held, alike.permanent.live found now, Bool.false_eq_true, if_false, Option.map_some]
        exact ⟨by rw [data], alike⟩
  | set key value lifetime =>
      cases (Option.isNone_iff_eq_none.1 known : lifetime = none)
      simp only [ParsedCommand.toOwned, dispatchToBuffer, dispatchFast,
        DashMapEngine.set_unlimited alike.permanent.unlimited]
      refine ⟨trivial, alike.permanent.insert rfl, alike.permanent'.insert rfl, ?_⟩
      funext k
      rw [contents_insert, DashMapEngine.setFastStr, contents_insert, alike.contents]
      rfl
  | _ => cases known

end Engines

/-! ## The session -/

/-- The commands among the slices that the parser was given. -/
def issued (turns : List FastTurn) : List Command :=
  turns.filterMap fun turn =>
    match parseInlineBorrowed turn.1 with
    | .ok (.complete _ c) => some c.toOwned
    | _ => none

section Session

variable (env : Nat → Env)

/-- All complete requests in the buffer; the cursor of the inline loop starts at its
front. -/
def processBuffer (s : Session DashMapEngine) : Session DashMapEngine :=
  if s.readBuf.head? = some 42 then
    loop (respRound dispatchers env ⟨false, false⟩) (s.readBuf.length + 1) s
  else
    match processFast ⟨s.readBuf, 0, s.writeBuf, s.engine⟩ with
    | .left turns t =>
        { s with
          readBuf := t.readBuf
          writeBuf := t.writeBuf
          engine := t.engine
          dispatched := s.dispatched ++ issued turns }
    | .panicked => { s with status := .panicked }
    | .unfinished => s

def fastTurn (s : Session DashMapEngine) (t : Turn) : Option (Session DashMapEngine) :=
  if s.status ≠ .running then none
  else
    match t.read with
    | none => some { s with status := .ended }
    | some [] => some { s with status := .ended }
    | some chunk =>
        let s := { s with readBuf := s.readBuf ++ chunk }
        if s.readBuf.length > maxReadBuf then some { s with status := .ended }
        else
          let s := processBuffer env s
          if s.status = .panicked then some s else some (flushReplies t.writeFails s)

def handleSessionFast : Session DashMapEngine → List Turn → Option (Session DashMapEngine) :=
  Theory.Runs.run (fastTurn env)

/-- The path is chosen once, when the connection is accepted. -/
def handleSession (settings : Settings) : Session DashMapEngine → List Turn → Option (Session DashMapEngine) :=
  if settings.fast then handleSessionFast env
  else handleSessionFull dispatchers env ⟨settings.hasAof, settings.metricsEnabled⟩

/-! ## Buffers on which the paths agree -/

/-- Lines that are blank, or commands the fast dispatcher knows; none is a lone LF. -/
def linesSuited : Nat → Bytes → Bool
  | 0, _ => true
  | fuel + 1, b =>
      b != [10] &&
        match parseInlineBorrowed b with
        | .ok (.complete consumed c) => fastKnows c && linesSuited fuel (b.drop consumed)
        | .ok (.skip consumed) => linesSuited fuel (b.drop consumed)
        | .ok .incomplete => true
        | .error .emptyCommand => true
        | .error _ => false

/-- Requests that are steady, or refused. -/
def requestsSuited : Nat → Bytes → Bool
  | 0, _ => true
  | fuel + 1, b =>
      match tryParseFrame b with
      | .ok (.complete consumed c) => steady c && requestsSuited fuel (b.drop consumed)
      | .ok (.skip consumed) => requestsSuited fuel (b.drop consumed)
      | .ok .incomplete => true
      | .error .emptyCommand => true
      | .error _ => requestsSuited fuel (skipToNewline b)

/-- What the session finds in its buffer behind this read. -/
def Suited (s : Session DashMapEngine) (t : Turn) : Prop :=
  let b := s.readBuf ++ t.read.getD []
  (if b.head? = some 42 then requestsSuited (b.length + 1) b else linesSuited (b.length + 1) b) = true

instance (s : Session DashMapEngine) (t : Turn) : Decidable (Suited s t) := inferInstanceAs (Decidable (_ = true))

/-! ## The two sessions side by side -/

/-- Whatever the settings, the client sees the same; what is logged and counted is left
open. -/
structure Beside (f s : Session DashMapEngine) : Prop where
  readBuf : f.readBuf = s.readBuf
  writeBuf : f.writeBuf = s.writeBuf
  dispatched : f.dispatched = s.dispatched
  sent : f.sent = s.sent
  status : f.status = s.status
  alike : Alike s.engine f.engine

variable {env} {opts : Options} {f s : Session DashMapEngine}

theorem advance_left {buf rest : Bytes} {n : Nat} (taken : advance buf n = some rest) : buf.drop n = rest := by
  unfold advance at taken
  split at taken
  · exact Option.some.inj taken
  · cases taken

theorem Beside.request (beside : Beside f s) (rest : Bytes) {c : Command} (calm : steady c = true) :
    Beside (executeResp dispatchers env ⟨false, false⟩ { f with readBuf := rest } c)
      (executeResp dispatchers env opts { s with readBuf := rest } c) := by
  obtain ⟨-, writeBuf, dispatched, sent, status, alike⟩ := beside
  obtain ⟨same, next⟩ := dispatch_alike (env s.dispatched.length).iter (env s.dispatched.length).metrics
    (env s.dispatched.length).now alike calm
  refine ⟨rfl, ?_, ?_, sent, status, ?_⟩
  · simp only [executeResp, dispatchers, writeBuf, dispatched, same]
  · simp only [executeResp, dispatched]
  · simp only [executeResp, dispatchers, dispatched]
    exact next

/-- The RESP loops go side by side. -/
theorem requests_beside (beside : Beside f s) (fuel : Nat) (suited : requestsSuited fuel s.readBuf = true) :
    Beside (loop (respRound dispatchers env ⟨false, false⟩) fuel f)
      (loop (respRound dispatchers env opts) fuel s) := by
  induction fuel generalizing f s with
  | zero => exact beside
  | succ fuel ih =>
      have dies : Beside { f with readBuf := s.readBuf, status := .panicked } { s with status := .panicked } :=
        ⟨rfl, beside.writeBuf, beside.dispatched, beside.sent, rfl, beside.alike⟩
      have refuses (reply : Bytes) (later : requestsSuited fuel (skipToNewline s.readBuf) = true) :
          Beside (loop (respRound dispatchers env ⟨false, false⟩) fuel (refuse f reply))
            (loop (respRound dispatchers env opts) fuel (refuse s reply)) := by
        apply ih _ later
        refine ⟨?_, ?_, beside.dispatched, beside.sent, beside.status, beside.alike⟩
        · exact congrArg skipToNewline beside.readBuf
        · exact congrArg (· ++ reply) beside.writeBuf
      rw [requestsSuited] at suited
      rw [loop, loop, respRound, respRound, beside.readBuf]
      cases parsed : tryParseFrame s.readBuf with
      | error e =>
          rw [parsed] at suited
          cases e with
          | emptyCommand => exact beside
          | unknownCommand verb => exact refuses _ suited
          | syntaxError msg => exact refuses _ suited
      | ok frame =>
          rw [parsed] at suited
          cases frame with
          | incomplete => exact beside
          | complete consumed c =>
              obtain ⟨calm, later⟩ := Bool.and_eq_true_iff.1 suited
              simp only [round, beside.readBuf]
              cases taken : advance s.readBuf consumed with
              | none => exact dies
              | some rest =>
                  rw [← advance_left taken]
                  exact ih (beside.request _ calm) later
          | skip consumed =>
              simp only [round, beside.readBuf]
              cases taken : advance s.readBuf consumed with
              | none => exact dies
              | some rest =>
                  rw [← advance_left taken]
                  exact ih ⟨rfl, beside.writeBuf, beside.dispatched, beside.sent, beside.status, beside.alike⟩ suited

/-- The cursor loop stands where the full loop does. -/
structure AtCursor (g : FastState) (s : Session DashMapEngine) : Prop where
  inside : g.offset ≤ g.readBuf.length
  here : g.readBuf.drop g.offset = s.readBuf
  writeBuf : g.writeBuf = s.writeBuf
  alike : Alike s.engine g.engine

theorem AtCursor.move {g : FastState} (cursor : AtCursor g s) {consumed : Nat} (within : consumed ≤ s.readBuf.length) :
    g.offset + consumed ≤ g.readBuf.length ∧
      g.readBuf.drop (g.offset + consumed) = s.readBuf.drop consumed := by
  have size : s.readBuf.length = g.readBuf.length - g.offset := by rw [← cursor.here, List.length_drop]
  have inside := cursor.inside
  refine ⟨by omega, ?_⟩
  rw [← List.drop_drop, cursor.here]

/-- The turns that the parser was given on the way from `s` to `t`. -/
structure Turned (s : Session DashMapEngine) (turns : List FastTurn) (t : Session DashMapEngine) : Prop where
  dispatched : s.dispatched ++ issued turns = t.dispatched
  sent : s.sent = t.sent
  status : s.status = t.status

theorem Turned.cons {t u : Session DashMapEngine} {turn : FastTurn} {turns : List FastTurn} (first : Turned s [turn] t)
    (later : Turned t turns u) : Turned s (turn :: turns) u where
  dispatched := by
    have split : issued (turn :: turns) = issued [turn] ++ issued turns := by
      rw [← List.singleton_append, issued, List.filterMap_append]
      rfl
    rw [split, ← List.append_assoc, first.dispatched]
    exact later.dispatched
  sent := first.sent.trans later.sent
  status := first.status.trans later.status

variable (env opts)

/-- A round of either loop: both stop, or both go on behind the line. -/
theorem rounds_beside {g : FastState} (cursor : AtCursor g s) {fuel : Nat}
    (suited : linesSuited (fuel + 1) s.readBuf = true) :
    (fastRound g = .stop ∧ inlineRound dispatchers env opts s = .stop ∧ Turned s [(s.readBuf, none)] s) ∨
      ∃ reply g' s', fastRound g = .again reply g' ∧ inlineRound dispatchers env opts s = .again s' ∧
        AtCursor g' s' ∧ s'.readBuf.length < s.readBuf.length ∧ linesSuited fuel s'.readBuf = true ∧
        Turned s [(s.readBuf, reply)] s' := by
  rw [linesSuited, Bool.and_eq_true_iff, bne_iff_ne] at suited
  obtain ⟨lone, suited⟩ := suited
  have started : ¬ g.offset > g.readBuf.length := Nat.not_lt.2 cursor.inside
  have input := parseInlineBorrowed_takesInput s.readBuf
  have stays (none : issued [(s.readBuf, none)] = []) : Turned s [(s.readBuf, Option.none)] s :=
    ⟨by rw [none, List.append_nil], rfl, rfl⟩
  unfold fastRound inlineRound
  rw [if_neg started, cursor.here]
  cases parsed : parseInlineBorrowed s.readBuf with
  | error e =>
      rw [parsed] at suited
      cases e with
      | emptyCommand => exact .inl ⟨rfl, rfl, stays (by simp [issued, parsed])⟩
      | unknownCommand verb => cases suited
      | syntaxError msg => cases suited
  | ok frame =>
      rw [parsed] at suited
      cases frame with
      | incomplete => exact .inl ⟨rfl, rfl, stays (by simp [issued, parsed])⟩
      | complete consumed c =>
          obtain ⟨known, later⟩ := Bool.and_eq_true_iff.1 suited
          have within := parseInlineBorrowed_within parsed rfl lone
          have forward := input.complete _ _ parsed
          have taken : advance s.readBuf consumed = some (s.readBuf.drop consumed) := if_pos within
          obtain ⟨same, next⟩ := dispatchFast_alike (env s.dispatched.length).iter
            (env s.dispatched.length).metrics (env s.dispatched.length).now cursor.alike known
          obtain ⟨inside, here⟩ := cursor.move within
          simp only [round, taken]
          refine .inr ⟨_, _, _, rfl, rfl, ⟨inside, here, ?_, next⟩, ?_, later, ?_, rfl, rfl⟩
          · show g.writeBuf ++ (dispatchFast g.engine c).1 = _
            rw [cursor.writeBuf, ← same]
            rfl
          · show (s.readBuf.drop consumed).length < s.readBuf.length
            rw [List.length_drop]
            omega
          · simp [issued, parsed, executeInline]
      | skip consumed =>
          have within := parseInlineBorrowed_within parsed rfl lone
          have forward := input.skip _ parsed
          have taken : advance s.readBuf consumed = some (s.readBuf.drop consumed) := if_pos within
          obtain ⟨inside, here⟩ := cursor.move within
          simp only [round, taken]
          refine .inr ⟨_, _, _, rfl, rfl, ⟨inside, here, cursor.writeBuf, cursor.alike⟩, ?_, suited, ?_, rfl, rfl⟩
          · show (s.readBuf.drop consumed).length < s.readBuf.length
            rw [List.length_drop]
            omega
          · simp [issued, parsed]

/-- What the cursor loop leaves is what the full loop leaves. -/
theorem lines_beside (fuel : Nat) (g : FastState) (cursor : AtCursor g s) (suited : linesSuited fuel s.readBuf = true)
    (enough : s.readBuf.length < fuel) :
    ∃ turns g', processFast g = .left turns g' ∧
      g'.readBuf = (loop (inlineRound dispatchers env opts) fuel s).readBuf ∧
      g'.writeBuf = (loop (inlineRound dispatchers env opts) fuel s).writeBuf ∧
      Alike (loop (inlineRound dispatchers env opts) fuel s).engine g'.engine ∧
      Turned s turns (loop (inlineRound dispatchers env opts) fuel s) := by
  induction fuel generalizing s g with
  | zero => omega
  | succ fuel ih =>
      rcases rounds_beside env opts cursor suited with
        ⟨stop, stays, takes⟩ | ⟨reply, g₁, s₁, again, goes, cursor₁, shorter, later, takes⟩
      · refine ⟨_, _, processFast_stop stop cursor.inside, ?_⟩
        rw [loop, stays, cursor.here]
        exact ⟨rfl, cursor.writeBuf, cursor.alike, takes⟩
      · obtain ⟨turns, g', ends, readBuf, writeBuf, alike, more⟩ := ih g₁ cursor₁ later (by omega)
        refine ⟨(s.readBuf, reply) :: turns, g', ?_, ?_⟩
        · rw [processFast_again again, cursor.here, ends]
          rfl
        · rw [loop, goes]
          exact ⟨readBuf, writeBuf, alike, takes.cons more⟩

theorem process_beside (beside : Beside f s)
    (suited : (if f.readBuf.head? = some 42 then requestsSuited (f.readBuf.length + 1) f.readBuf
      else linesSuited (f.readBuf.length + 1) f.readBuf) = true) :
    Beside (processBuffer env f) (process dispatchers env opts s) := by
  unfold processBuffer process
  rw [beside.readBuf] at suited ⊢
  by_cases star : s.readBuf.head? = some 42
  · rw [if_pos star] at suited
    rw [if_pos star, if_pos star]
    exact requests_beside beside _ suited
  · rw [if_neg star] at suited
    rw [if_neg star, if_neg star]
    have cursor : AtCursor ⟨s.readBuf, 0, f.writeBuf, f.engine⟩ s :=
      ⟨Nat.zero_le _, rfl, beside.writeBuf, beside.alike⟩
    obtain ⟨turns, g, ends, readBuf, writeBuf, alike, takes⟩ :=
      lines_beside env opts (s.readBuf.length + 1) _ cursor suited (Nat.lt_succ_self _)
    rw [ends]
    refine ⟨readBuf, writeBuf, ?_, ?_, ?_, alike⟩
    · rw [← takes.dispatched, ← beside.dispatched]
    · rw [← takes.sent, ← beside.sent]
    · rw [← takes.status, ← beside.status]

theorem flushReplies_beside (beside : Beside f s) (writeFails : Option Nat) :
    Beside (flushReplies writeFails f) (flushReplies writeFails s) := by
  obtain ⟨readBuf, writeBuf, dispatched, sent, status, alike⟩ := beside
  unfold flushReplies
  rw [writeBuf]
  split
  · exact ⟨readBuf, rfl, dispatched, sent, rfl, alike⟩
  · split
    · exact ⟨readBuf, writeBuf, dispatched, sent, status, alike⟩
    · cases writeFails with
      | none => exact ⟨readBuf, rfl, dispatched, by rw [sent], status, alike⟩
      | some n => exact ⟨readBuf, rfl, dispatched, by rw [sent], rfl, alike⟩

/-- A turn of both sessions. -/
theorem turn_beside (beside : Beside f s) {t : Turn} (suited : Suited f t) :
    Option.Rel Beside (fastTurn env f t) (turn dispatchers env opts s t) := by
  have ends : Beside { f with status := .ended } { s with status := .ended } :=
    ⟨beside.readBuf, beside.writeBuf, beside.dispatched, beside.sent, rfl, beside.alike⟩
  unfold fastTurn turn
  by_cases running : s.status ≠ .running
  · rw [if_pos (by rw [beside.status]; exact running), if_pos running]
    exact .none
  · rw [if_neg (by rw [beside.status]; exact running), if_neg running]
    obtain ⟨read, writeFails⟩ := t
    cases read with
    | none => exact .some ends
    | some chunk =>
        cases chunk with
        | nil => exact .some ends
        | cons b more =>
            have same : f.readBuf ++ b :: more = s.readBuf ++ b :: more := by rw [beside.readBuf]
            have filled :
                Beside { f with readBuf := f.readBuf ++ b :: more } { s with readBuf := s.readBuf ++ b :: more } :=
              ⟨same, beside.writeBuf, beside.dispatched, beside.sent, beside.status, beside.alike⟩
            dsimp only
            by_cases large : (s.readBuf ++ b :: more).length > maxReadBuf
            · rw [if_pos (by rw [same]; exact large), if_pos large]
              exact .some ⟨same, beside.writeBuf, beside.dispatched, beside.sent, rfl, beside.alike⟩
            · rw [if_neg (by rw [same]; exact large), if_neg large]
              have processed := process_beside env opts filled suited
              rw [processed.status]
              by_cases died : (process dispatchers env opts { s with readBuf := s.readBuf ++ b :: more }).status = .panicked
              · rw [if_pos died, if_pos died]
                exact .some processed
              · rw [if_neg died, if_neg died]
                exact .some (flushReplies_beside processed writeFails)

/-- Whole connections. -/
theorem run_beside (turns : List Turn) (beside : Beside f s) (suited : Along (fastTurn env) Suited f turns) :
    Option.Rel Beside (handleSessionFast env f turns) (handleSessionFull dispatchers env opts s turns) := by
  induction turns generalizing f s with
  | nil => exact .some beside
  | cons t turns ih =>
      show Option.Rel Beside ((fastTurn env f t).bind fun f => handleSessionFast env f turns)
        ((turn dispatchers env opts s t).bind fun s => handleSessionFull dispatchers env opts s turns)
      have here := turn_beside env opts beside suited.1
      cases first : fastTurn env f t with
      | none =>
          rw [first] at here
          cases second : turn dispatchers env opts s t with
          | none => exact .none
          | some s' =>
              rw [second] at here
              cases here
      | some f' =>
          rw [first] at here
          cases second : turn dispatchers env opts s t with
          | none =>
              rw [second] at here
              cases here
          | some s' =>
              rw [second] at here
              cases here with
              | some next => exact ih next (suited.2 f' first)

theorem handleSession_beside (settings : Settings) {e : DashMapEngine} (permanent : Permanent e) (turns : List Turn)
    (suited : Along (fastTurn env) Suited (.start e) turns) :
    Option.Rel Beside (handleSessionFast env (.start e) turns) (handleSession env settings (.start e) turns) := by
  have start : Beside (.start e) (.start e) := ⟨rfl, rfl, rfl, rfl, rfl, permanent, permanent, rfl⟩
  unfold handleSession
  split
  · have full := run_beside env ⟨false, false⟩ turns start suited
    cases reached : handleSessionFast env (.start e) turns with
    | none => exact .none
    | some f =>
        rw [reached] at full
        generalize handleSessionFull dispatchers env ⟨false, false⟩ (.start e) turns = outcome at full
        cases full with
        | some beside =>
            have kept := beside.alike.permanent'
            exact .some ⟨rfl, rfl, rfl, rfl, rfl, kept, kept, rfl⟩
  · exact run_beside env _ turns start suited

end Session

/-- A SET and a GET on lines, a counter as an array; the log and the metrics on and off. -/
def plainTurns : List Turn :=
  [.delivers (ascii "SET k v\r\nGE"), .delivers (ascii "T k\r\n"),
    .delivers (ascii "*2\r\n$4\r\nINCR\r\n$1\r\nn\r\n")]

end ZetDb.Server
