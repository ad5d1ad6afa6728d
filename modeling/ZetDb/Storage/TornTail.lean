/-
# Storage.TornTail -- a log cut in the middle of an entry

A crash in the middle of a write leaves a prefix of the log.  Every branch of the
replay but one stops at a truncated field, so the torn entry is not applied
(`replayLoop_torn`).  The exception is MSET: once its count is read, the inner loop
keeps the pairs it got and the entry is counted, so a cut behind the count is
always noticed (`replayLoop_torn_mset`).

`replayAof_cut_iff`: the torn tail is ignored exactly when the cut does not fall
between the count and the end of an MSET entry.  The deadlines of the entries are taken
to lie within the range of the clock; where one does not, both of the replays that are
compared panic (`Application.Deadlines`).
-/
import ZetDb.Storage.AofReplay

namespace ZetDb.Storage

set_option autoImplicit false

open ZetDb.Theory.Wire ZetDb.Theory.Text ZetDb.Domain ZetDb.Application

/-! ## Where a cut falls -/

/-- The commands whose entries lie wholly in the first `cut` bytes of the log. -/
def wholeEntries : List Command → Nat → List Command
  | [], _ => []
  | c :: cs, cut =>
      if c.aofBytes.length ≤ cut then c :: wholeEntries cs (cut - c.aofBytes.length) else []

/-- The cut falls behind the opcode and the count of an MSET entry and before
its end. -/
def CutInsideMset (cs : List Command) (cut : Nat) : Prop :=
  ∃ before pairs after, cs = before ++ Command.mset pairs :: after ∧
    (logBytes before).length + 3 ≤ cut ∧
    cut < (logBytes before).length + (Command.mset pairs).aofBytes.length

/-- A cut keeps the whole log, or falls inside the entry behind the whole ones. -/
theorem cut_cases (cs : List Command) (cut : Nat) :
    (wholeEntries cs cut = cs ∧ (logBytes cs).length ≤ cut) ∨
    ∃ c after, cs = wholeEntries cs cut ++ c :: after ∧
      (logBytes (wholeEntries cs cut)).length ≤ cut ∧
      cut < (logBytes (wholeEntries cs cut)).length + c.aofBytes.length := by
  induction cs generalizing cut with
  | nil => exact .inl ⟨rfl, Nat.zero_le _⟩
  | cons c cs ih =>
      by_cases fits : c.aofBytes.length ≤ cut
      · rcases ih (cut - c.aofBytes.length) with ⟨all, short⟩ | ⟨d, after, split, low, high⟩
        · left
          simp only [wholeEntries, if_pos fits, all, logBytes_cons, List.length_append]
          exact ⟨trivial, by omega⟩
        · right
          refine ⟨d, after, ?_, ?_, ?_⟩
          · simp only [wholeEntries, if_pos fits, List.cons_append, ← split]
          · simp only [wholeEntries, if_pos fits, logBytes_cons, List.length_append]
            omega
          · simp only [wholeEntries, if_pos fits, logBytes_cons, List.length_append]
            omega
      · right
        exact ⟨c, cs, by simp [wholeEntries, fits], by simp [wholeEntries, fits],
          by simpa [wholeEntries, fits] using not_le.1 fits⟩

/-- The place of a cut is unique. -/
theorem wholeEntries_eq {before after : List Command} {c : Command} {cut : Nat}
    (low : (logBytes before).length ≤ cut)
    (high : cut < (logBytes before).length + c.aofBytes.length) :
    wholeEntries (before ++ c :: after) cut = before := by
  induction before generalizing cut with
  | nil =>
      have past : ¬ c.aofBytes.length ≤ cut := by simpa using high
      simp [wholeEntries, past]
  | cons d before ih =>
      simp only [logBytes_cons, List.length_append] at low high
      rw [List.cons_append, wholeEntries, if_pos (by omega), ih (by omega) (by omega)]

theorem take_cut {cs : List Command} {c : Command} (after : List Command) {cut : Nat}
    (low : (logBytes cs).length ≤ cut) (high : cut < (logBytes cs).length + c.aofBytes.length) :
    (logBytes (cs ++ c :: after)).take cut =
      logBytes cs ++ c.aofBytes.take (cut - (logBytes cs).length) := by
  rw [logBytes_append, logBytes_cons, List.take_append, List.take_of_length_le low,
    List.take_append_of_le_length (by omega)]

/-! ## The loop at a torn entry -/

section Torn

variable {iter : Iter} {now : Instant} {data seen : Bytes} {pos fuel : Nat} {e : DashMapEngine}

/-- The loop stops where the entry it sees is refused. -/
theorem replayLoop_refused (here : At data data.length pos seen) (enough : seen.length ≤ fuel)
    (refused : ∀ cmdType more, seen = cmdType :: more →
      replayEntry iter now data cmdType (pos + 1) e = none) (replayed : Nat) :
    replayLoop iter now data fuel pos e replayed = some (e, replayed) := by
  cases seen with
  | nil => exact replayLoop_end here fuel replayed
  | cons cmdType more =>
      obtain ⟨fuel, rfl⟩ : ∃ left, fuel = left + 1 :=
        ⟨fuel - 1, by simp only [List.length_cons] at enough; omega⟩
      unfold replayLoop
      rw [drop_of_at here]
      simp only [refused cmdType more rfl]

/-- A strict prefix of an entry is empty, or its opcode and a strict prefix of
its body. -/
theorem torn_body {op : UInt8} {body : Bytes} (before : seen <+: op :: body)
    (strict : seen ≠ op :: body) {cmdType : UInt8} {more : Bytes} (shape : seen = cmdType :: more) :
    cmdType = op ∧ more <+: body ∧ more ≠ body := by
  subst shape
  obtain ⟨same, inBody⟩ := List.cons_prefix_cons.1 before
  subst same
  exact ⟨rfl, inBody, fun all => strict (by rw [all])⟩

/-- The replay stops at a torn entry of every kind, an MSET torn in its count
included. -/
theorem replayLoop_torn {c : Command} (ok : Representable c) (here : At data data.length pos seen)
    (before : seen <+: c.aofBytes) (strict : seen ≠ c.aofBytes)
    (early : ∀ pairs, c = .mset pairs → seen.length < 3) (enough : seen.length ≤ fuel)
    (replayed : Nat) :
    replayLoop iter now data fuel pos e replayed = some (e, replayed) := by
  refine replayLoop_refused here enough (fun cmdType more shape => ?_) replayed
  have body : At data data.length (pos + 1) more := (shape ▸ here).step
  cases c with
  | set key value lifetime =>
      rw [aofBytes_set] at before strict
      obtain ⟨rfl, inBody, cut⟩ := torn_body before strict shape
      rw [replayEntry, if_pos rfl, replaySet_eq,
        (readRecord_decodes "aof").torn (a := (key, value, Command.ttlMillis lifetime))
          ⟨ok.1, ok.2.1, ttlMillis_ok lifetime⟩ body inBody cut, Option.map_none]
  | del key =>
      rw [aofBytes_del] at before strict
      obtain ⟨rfl, inBody, cut⟩ := torn_body before strict shape
      rw [replayEntry, if_neg (by decide), if_pos rfl, replayDel_eq,
        (readKey_decodes "aof").torn ok body inBody cut, Option.map_none]
  | incr key =>
      rw [aofBytes_incr] at before strict
      obtain ⟨rfl, inBody, cut⟩ := torn_body before strict shape
      rw [replayEntry, if_neg (by decide), if_neg (by decide), if_pos rfl, replayIncr_eq,
        (readKey_decodes "aof").torn ok body inBody cut, Option.map_none]
  | expire key seconds =>
      rw [aofBytes_expire] at before strict
      obtain ⟨rfl, inBody, cut⟩ := torn_body before strict shape
      rw [replayEntry, if_neg (by decide), if_neg (by decide), if_neg (by decide), if_pos rfl,
        replayExpire_eq, ((readKey_decodes "aof").pair (readSeconds_decodes "aof")).torn
          (a := (key, seconds)) ok body inBody cut, Option.map_none]
  | flushDb =>
      rw [aofBytes_flushDb] at before strict
      obtain ⟨-, inBody, cut⟩ := torn_body before strict shape
      exact absurd (List.prefix_nil.1 inBody) cut
  | mset pairs =>
      rw [aofBytes_mset] at before strict
      have short := early pairs rfl
      obtain ⟨rfl, inBody, cut⟩ := torn_body before strict shape
      -- two bytes of body would be the whole count
      have inCount : more <+: toLe 2 pairs.length ∧ more ≠ toLe 2 pairs.length := by
        rcases strictPrefix_append inBody cut with torn | ⟨rest, rfl, -, -⟩
        · exact torn
        · simp only [shape, List.length_cons, List.length_append, toLe_length] at short
          omega
      rw [replayEntry, if_neg (by decide), if_neg (by decide), if_neg (by decide),
        if_neg (by decide), if_neg (by decide), if_pos rfl, replayMset_eq,
        (readCount_decodes "aof").torn ok.1 body inCount.1 inCount.2, Option.map_none]
  | _ => exact ok.elim

theorem replayLoop_mono {replayed k : Nat} {e' : DashMapEngine}
    (run : replayLoop iter now data fuel pos e replayed = some (e', k)) : replayed ≤ k := by
  induction fuel generalizing pos e replayed with
  | zero =>
      unfold replayLoop at run
      split at run
      · simp only [Option.some.injEq, Prod.mk.injEq] at run
        exact run.2.le
      · cases run
  | succ fuel ih =>
      unfold replayLoop at run
      cases sees : data.drop pos with
      | nil =>
          simp only [sees, Option.some.injEq, Prod.mk.injEq] at run
          exact run.2.le
      | cons cmdType more =>
          cases entry : replayEntry iter now data cmdType (pos + 1) e with
          | none =>
              simp only [sees, entry, Option.some.injEq, Prod.mk.injEq] at run
              exact run.2.le
          | some r =>
              simp only [sees, entry] at run
              exact le_trans (Nat.le_succ replayed) (ih run)

/-- An MSET torn behind its count is counted as if it were whole. -/
theorem replayLoop_torn_mset {pairs : List (Key × Bytes)} (ok : Representable (.mset pairs))
    (here : At data data.length pos seen) (before : seen <+: (Command.mset pairs).aofBytes)
    (strict : seen ≠ (Command.mset pairs).aofBytes) (late : 3 ≤ seen.length)
    (enough : seen.length ≤ fuel) {replayed k : Nat} {e' : DashMapEngine}
    (run : replayLoop iter now data fuel pos e replayed = some (e', k)) : replayed + 1 ≤ k := by
  cases seen with
  | nil => simp at late
  | cons cmdType more =>
      rw [aofBytes_mset] at before strict
      obtain ⟨rfl, inBody, cut⟩ := torn_body before strict rfl
      obtain ⟨tail, rfl⟩ : ∃ tail, more = toLe 2 pairs.length ++ tail := by
        rcases strictPrefix_append inBody cut with ⟨inCount, torn⟩ | ⟨tail, whole, -, -⟩
        · have := strictPrefix_length inCount torn
          simp only [toLe_length, List.length_cons] at this late
          omega
        · exact ⟨tail, whole⟩
      have count := (readCount_decodes "aof").whole ok.1 here.step
      obtain ⟨fuel, rfl⟩ : ∃ left, fuel = left + 1 :=
        ⟨fuel - 1, by simp only [List.length_cons] at enough; omega⟩
      unfold replayLoop at run
      rw [drop_of_at here] at run
      simp only [replayEntry, replayMset_eq, count, Option.map_some, if_true,
        if_neg (show ¬ cmdMset = cmdSet by decide), if_neg (show ¬ cmdMset = cmdDel by decide),
        if_neg (show ¬ cmdMset = cmdIncr by decide), if_neg (show ¬ cmdMset = cmdExpire by decide),
        if_neg (show ¬ cmdMset = cmdFlushDb by decide)] at run
      exact replayLoop_mono run

end Torn

/-! ## The torn tail -/

/-- The first `cut` bytes of the log replay as the whole entries in them, and
return their number. -/
def IgnoresTornTail (iter : Iter) (now : Instant) (cs : List Command) (cut : Nat) : Prop :=
  ∃ e k, replayAof iter now (some (logBytes (wholeEntries cs cut))) .new = some (e, k) ∧
    replayAof iter now (some ((logBytes cs).take cut)) .new =
      some (e, (wholeEntries cs cut).length)

/-- The torn tail of a log is ignored exactly when the cut is not behind the
count of an MSET entry and before its end.  A deadline beyond the clock is set aside. -/
theorem replayAof_cut_iff (iter : Iter) (now : Instant) (cs : List Command) (cut : Nat)
    (ok : ∀ c ∈ cs, Representable c) :
    IgnoresTornTail iter now cs cut ↔ ¬ CutInsideMset cs cut := by
  have unlimited : DashMapEngine.new.maxKeys = 0 := rfl
  rcases cut_cases cs cut with ⟨all, past⟩ | ⟨c, after, split, low, high⟩
  · -- the cut keeps every byte
    have log := replayAof_log iter .new now ok unlimited
    refine iff_of_true ⟨_, _, by rw [all]; exact log, ?_⟩ ?_
    · rw [all, List.take_of_length_le past]
      exact log
    · rintro ⟨before, pairs, after, rfl, -, inside⟩
      simp only [logBytes_append, logBytes_cons, List.length_append] at past
      omega
  · generalize whole : wholeEntries cs cut = front at *
    subst split
    have okFront : ∀ d ∈ front, Representable d := fun d inside => ok d (by simp [inside])
    have okTorn : Representable c := ok c (by simp)
    have file := take_cut after low high
    generalize torn : c.aofBytes.take (cut - (logBytes front).length) = seen at file
    have tornLength : seen.length = cut - (logBytes front).length := by
      rw [← torn, List.length_take]
      omega
    have before : seen <+: c.aofBytes := torn ▸ List.take_prefix _ _
    have strict : seen ≠ c.aofBytes := fun full => by
      rw [full] at tornLength
      omega
    have log := replayAof_log iter .new now okFront unlimited
    obtain ⟨fuel, enough, here, run⟩ := replayAof_front iter .new now
      (fun c inside => (okFront c inside).fits) unlimited seen
    rw [replayAll_of_representable iter .new now okFront] at run
    by_cases inside : CutInsideMset (front ++ c :: after) cut
    · refine iff_of_false ?_ (not_not.2 inside)
      obtain ⟨before', pairs, after', shape, deep, short⟩ := inside
      have same : before' = front := by
        rw [← whole, shape]
        exact (wholeEntries_eq (by omega) short).symm
      subst same
      obtain ⟨rfl, -⟩ := List.cons.inj (List.append_cancel_left shape)
      rintro ⟨e, k, -, cutRun⟩
      rw [file, run, whole] at cutRun
      have := replayLoop_torn_mset okTorn here before strict (by omega) enough cutRun
      omega
    · refine iff_of_true ⟨_, _, by rw [whole]; exact log, ?_⟩ inside
      rw [file, run, whole]
      refine replayLoop_torn okTorn here before strict (fun pairs isMset => ?_) enough _
      subst isMset
      by_contra deep
      exact inside ⟨front, pairs, after, rfl, by omega, high⟩

/-- A SET torn in its key is ignored. -/
theorem replayAof_cut_iff_torn_set :
    IgnoresTornTail Iter.some 0 [.incr (ascii "n"), .set (ascii "key") (ascii "v") none] 8 := by
  refine (replayAof_cut_iff Iter.some 0 _ 8 (by decide)).2 ?_
  rintro ⟨before, pairs, after, shape, -⟩
  have inside : Command.mset pairs ∈
      [Command.incr (ascii "n"), .set (ascii "key") (ascii "v") none] := by
    rw [shape]
    simp
  simp at inside

/-- `MSET a 1 b 2`, cut behind its first pair: the pair stays applied and the
torn entry is counted. -/
theorem replayAof_applies_torn_mset :
    (∀ c ∈ [Command.mset [(ascii "a", ascii "1"), (ascii "b", ascii "2")]], Representable c) ∧
      ¬ IgnoresTornTail Iter.some 0 [.mset [(ascii "a", ascii "1"), (ascii "b", ascii "2")]] 11 := by
  refine ⟨by decide, ?_⟩
  rintro ⟨e, k, -, cutRun⟩
  have counted := congrArg (Option.map Prod.snd) cutRun
  simp only [Option.map_some] at counted
  exact absurd counted (by decide)

end ZetDb.Storage
