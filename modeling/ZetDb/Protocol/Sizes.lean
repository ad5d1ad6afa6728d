/-
# Protocol.Sizes -- what a buffer of bounded size can ask for

The values of a parsed command are pieces of the buffer, and a number of seconds
was read into 64 bits.  Nothing bounds a key, a count of pairs or a lifetime by
less than that.

The RESP readers are followed with the postcondition rules of `Theory.Stream`; the
inline parsers through their tokens.
-/
import ZetDb.Protocol.Language

namespace ZetDb.Protocol

set_option autoImplicit false

open ZetDb.Theory.Wire ZetDb.Theory.Text ZetDb.Theory.Stream ZetDb.Theory.Words ZetDb.Domain

/-- Values have at most `n` bytes, seconds are a 64-bit number. -/
def Within (n : Nat) : Command → Prop
  | .set _ value _ => value.length ≤ n
  | .expire _ seconds => seconds < 2 ^ 64
  | .mset pairs => ∀ p ∈ pairs, p.2.length ≤ n
  | _ => True

theorem Within.mono {n m : Nat} {c : Command} (within : Within n c) (le : n ≤ m) : Within m c := by
  cases c with
  | set key value lifetime => exact Nat.le_trans within le
  | expire key seconds => exact within
  | mset pairs => exact fun p inside => Nat.le_trans (within p inside) le
  | _ => trivial

/-! ## RESP frames -/

section Resp

variable {n : Nat}

theorem readRespBulk_within : Ensures n readRespBulk fun data => data.length ≤ n := by
  refine (Ensures.anything n (readRespLineInt 36)).bind fun len _ => ?_
  by_cases negative : len < 0
  · rw [if_pos negative]
    exact Ensures.pure (Nat.zero_le n)
  · rw [if_neg negative]
    intro buf data k short read
    unfold takeBulk at read
    split at read
    · cases read
    · cases read
      exact (List.length_take_le' _ _).trans short

theorem respSingleKey_within (cmdName : String) {make : Key → Command} (always : ∀ key, Within n (make key))
    (k : Nat) : Ensures n (respSingleKey cmdName make k) (Within n) := by
  unfold respSingleKey
  split
  · exact Ensures.fail _
  · exact readRespBulk_within.bind fun key _ => Ensures.pure (always key)

theorem respSet_within (k : Nat) : Ensures n (respSet k) (Within n) := by
  have skip (m : Nat) (key value : Bytes) (lifetime : Option Duration) (fits : value.length ≤ n) :
      Ensures n (readRespBulk.times m >>= fun _ => Pure.pure (Command.set key value lifetime)) (Within n) :=
    (readRespBulk_within.times m).bind fun _ _ => Ensures.pure fits
  unfold respSet
  split
  · exact Ensures.fail _
  · refine readRespBulk_within.bind fun key _ => readRespBulk_within.bind fun value fits => ?_
    split
    · refine readRespBulk_within.bind fun opt _ => readRespBulk_within.bind fun number _ => ?_
      refine (Ensures.anything n (Scanner.lift (respTtl opt number))).bind fun lifetime _ => ?_
      exact skip _ key value lifetime fits
    · exact skip _ key value none fits

theorem respExpire_within (k : Nat) : Ensures n (respExpire k) (Within n) := by
  unfold respExpire
  split
  · exact Ensures.fail _
  · refine readRespBulk_within.bind fun key _ => readRespBulk_within.bind fun secs _ => ?_
    have seconds : Ensures n (Scanner.lift (respSeconds secs) : RespReader Nat) fun s => s < 2 ^ 64 := by
      apply Ensures.lift
      intro s parsed
      unfold respSeconds at parsed
      split at parsed
      · rename_i read
        cases parsed
        exact parseUnsigned_lt read
      · cases parsed
    exact seconds.bind fun s small => Ensures.pure small

theorem respMget_within (k : Nat) : Ensures n (respMget k) (Within n) := by
  unfold respMget
  split
  · exact Ensures.fail _
  · exact (readRespBulk_within.times k).bind fun _ _ => Ensures.pure trivial

theorem respMset_within (k : Nat) : Ensures n (respMset k) (Within n) := by
  have pair : Ensures n respPair fun p => p.2.length ≤ n :=
    readRespBulk_within.bind fun key _ => readRespBulk_within.bind fun value fits => Ensures.pure fits
  unfold respMset
  split
  · exact Ensures.fail _
  · exact (pair.times _).bind fun pairs each => Ensures.pure each

theorem respCommand_within (verb : Bytes) (k : Nat) : Ensures n (respCommand verb k) (Within n) := by
  rcases spelled_or_unknown verb with ⟨c, spelled⟩ | unknown
  · rw [respCommand_spelled k spelled]
    cases c with
    | ping | info | dbSize | flushDb | keys => exact Ensures.pure trivial
    | get _ | del _ | incr _ | «exists» _ | ttl _ =>
        apply respSingleKey_within
        intro key
        trivial
    | set _ _ _ => exact respSet_within k
    | expire _ _ => exact respExpire_within k
    | mget _ => exact respMget_within k
    | mset _ => exact respMset_within k
  · rw [respCommand_unknown k unknown]
    exact Ensures.fail _

theorem parseRespFrame_within : Ensures n parseRespFrame (Within n) := by
  refine (Ensures.anything n (readRespLineInt 42)).bind fun header _ => ?_
  refine (Ensures.anything n (Scanner.lift (respCount header))).bind fun count _ => ?_
  exact readRespBulk_within.bind fun verb _ => respCommand_within verb _

end Resp

/-! ## Inline lines -/

section Inline

variable {n : Nat} {args : List Bytes}

theorem token_length_le {line token : Bytes} (member : token ∈ tokens line) : token.length ≤ line.length :=
  word_length_le member

theorem pairsOf_within (short : ∀ arg ∈ args, arg.length ≤ n) {pairs : List (Key × Bytes)}
    (paired : pairsOf args = some pairs) : ∀ p ∈ pairs, p.2.length ≤ n := by
  intro p inside
  apply short
  rw [pairsOf_eq_some paired]
  exact List.mem_flatMap.2 ⟨p, inside, by simp⟩

theorem msetArguments_within (few odd : String) (short : ∀ arg ∈ args, arg.length ≤ n) {γ : Type}
    {make : List (Key × Bytes) → γ} {c : γ} (parsed : msetArguments few odd make args = .ok c) :
    ∃ pairs, c = make pairs ∧ ∀ p ∈ pairs, p.2.length ≤ n := by
  unfold msetArguments at parsed
  split at parsed
  · cases parsed
  · rename_i pairs _ paired
    cases parsed
    exact ⟨pairs, rfl, pairsOf_within short paired⟩
  · cases parsed

theorem setArguments_within (short : ∀ arg ∈ args, arg.length ≤ n) {c : Command}
    (parsed : setArguments args = .ok c) : Within n c := by
  unfold setArguments at parsed
  split at parsed
  · cases parsed
    exact short _ (by simp)
  · split at parsed
    · cases parsed
      exact short _ (by simp)
    · cases parsed
  · cases parsed

theorem expireArguments_within {c : Command} (parsed : expireArguments args = .ok c) : Within n c := by
  unfold expireArguments at parsed
  split at parsed
  · split at parsed
    · rename_i read
      cases parsed
      exact parseUnsigned_lt read
    · cases parsed
  · cases parsed
  · cases parsed

theorem setBorrowedArguments_within (short : ∀ arg ∈ args, arg.length ≤ n) {c : ParsedCommand}
    (parsed : setBorrowedArguments args = .ok c) : Within n c.toOwned := by
  unfold setBorrowedArguments at parsed
  split at parsed
  · cases parsed
    exact short _ (by simp)
  · cases parsed
    exact short _ (by simp)
  · cases parsed
  · cases parsed

theorem parseU64Ascii_lt {text : Bytes} {m : Nat} (read : parseU64Ascii text = some m) : m < 2 ^ 64 := by
  rw [parseU64Ascii_eq] at read
  obtain ⟨k, -, rfl⟩ := Option.map_eq_some_iff.1 read
  exact Nat.mod_lt k (by decide)

theorem expireBorrowedArguments_within {c : ParsedCommand}
    (parsed : expireBorrowedArguments args = .ok c) : Within n c.toOwned := by
  unfold expireBorrowedArguments at parsed
  split at parsed
  · split at parsed
    · rename_i read
      cases parsed
      exact parseU64Ascii_lt read
    · cases parsed
  · cases parsed
  · cases parsed

/-- A parser of arguments that only makes commands without values or seconds. -/
theorem singleKeyArguments_ok {wrong : String} {γ : Type} {make : Key → γ} {c : γ}
    (parsed : singleKeyArguments wrong make args = .ok c) : ∃ key, c = make key := by
  unfold singleKeyArguments at parsed
  split at parsed
  · cases parsed
    exact ⟨_, rfl⟩
  · cases parsed

theorem noArguments_ok {cmdName : String} {γ : Type} {made c : γ}
    (parsed : noArguments cmdName made args = .ok c) : c = made := by
  unfold noArguments at parsed
  split at parsed
  · cases parsed
    rfl
  · cases parsed

theorem mgetArguments_ok {few : String} {γ : Type} {make : List Key → γ} {c : γ}
    (parsed : mgetArguments few make args = .ok c) : c = make args := by
  unfold mgetArguments at parsed
  split at parsed
  · cases parsed
  · cases parsed
    rfl

theorem inlineArguments_within (verb : Command) (short : ∀ arg ∈ args, arg.length ≤ n) {c : Command}
    (parsed : inlineArguments verb args = .ok c) : Within n c := by
  cases verb with
  | ping | info | dbSize => cases parsed; trivial
  | get _ | del _ | incr _ | «exists» _ | ttl _ =>
      obtain ⟨key, rfl⟩ := singleKeyArguments_ok parsed
      trivial
  | flushDb | keys =>
      rw [noArguments_ok parsed]
      trivial
  | set _ _ _ => exact setArguments_within short parsed
  | expire _ _ => exact expireArguments_within parsed
  | mget _ =>
      rw [mgetArguments_ok parsed]
      trivial
  | mset _ =>
      obtain ⟨pairs, rfl, each⟩ := msetArguments_within _ _ short parsed
      exact each

theorem borrowedArguments_within (verb : Command) (short : ∀ arg ∈ args, arg.length ≤ n)
    {c : ParsedCommand} (parsed : borrowedArguments verb args = .ok c) : Within n c.toOwned := by
  cases verb with
  | ping | info | dbSize => cases parsed; trivial
  | get _ | del _ | incr _ | «exists» _ | ttl _ =>
      obtain ⟨key, rfl⟩ := singleKeyArguments_ok parsed
      trivial
  | flushDb | keys =>
      rw [noArguments_ok parsed]
      trivial
  | set _ _ _ => exact setBorrowedArguments_within short parsed
  | expire _ _ => exact expireBorrowedArguments_within parsed
  | mget _ =>
      rw [mgetArguments_ok parsed]
      trivial
  | mset _ =>
      obtain ⟨pairs, rfl, each⟩ := msetArguments_within _ _ short parsed
      exact each

theorem parseBytes_within {line : Bytes} {c : Command} (parsed : parseBytes line = .ok c) :
    Within line.length c := by
  cases split : tokens line with
  | nil =>
      rw [parseBytes_blank split] at parsed
      cases parsed
  | cons verb args =>
      have short : ∀ arg ∈ args, arg.length ≤ line.length := fun arg inside =>
        token_length_le (by rw [split]; simp [inside])
      rcases spelled_or_unknown verb with ⟨d, spelled⟩ | unknown
      · rw [parseBytes_spelled split spelled] at parsed
        exact inlineArguments_within d short parsed
      · rw [parseBytes_unknown split unknown] at parsed
        cases parsed

theorem parseLineBorrowed_within {line : Bytes} {c : ParsedCommand}
    (filled : (trim line).isEmpty = false) (parsed : parseLineBorrowed (trim line) = .ok c) :
    Within line.length c.toOwned := by
  cases split : tokens line with
  | nil =>
      rw [trim_isEmpty, split] at filled
      cases filled
  | cons verb args =>
      have short : ∀ arg ∈ args, arg.length ≤ line.length := fun arg inside =>
        token_length_le (by rw [split]; simp [inside])
      rcases spelled_or_unknown verb with ⟨d, spelled⟩ | unknown
      · rw [parseLineBorrowed_spelled split spelled] at parsed
        exact borrowedArguments_within d short parsed
      · rw [parseLineBorrowed_unknown split unknown] at parsed
        cases parsed

end Inline

/-! ## The two parsers -/

theorem tryParseFrame_within {buf : Bytes} {consumed : Nat} {c : Command}
    (parsed : tryParseFrame buf = .ok (.complete consumed c)) : Within buf.length c := by
  by_cases resp : buf.head? = some 42
  · obtain ⟨rest, rfl⟩ : ∃ rest, buf = 42 :: rest := ⟨buf.tail, (List.cons_head?_tail resp).symm⟩
    rw [tryParseFrame_resp] at parsed
    cases read : parseRespFrame (42 :: rest) with
    | error e => rw [read] at parsed; cases parsed
    | ok answer =>
        rw [read] at parsed
        cases answer with
        | none => cases parsed
        | some answer =>
            cases parsed
            exact parseRespFrame_within _ _ _ le_rfl read
  · rw [tryParseFrame_inline resp] at parsed
    unfold tryParseFrameInline at parsed
    split at parsed
    · cases parsed
    · split at parsed
      · rename_i read
        cases parsed
        exact (parseBytes_within read).mono (List.length_take_le' _ _)
      · cases parsed
      · cases parsed

theorem parseInlineBorrowed_bound {buf : Bytes} {consumed : Nat} {c : ParsedCommand}
    (parsed : parseInlineBorrowed buf = .ok (.complete consumed c)) : Within buf.length c.toOwned := by
  rw [parseInlineBorrowed_eq] at parsed
  split at parsed
  · cases parsed
  · unfold lineVerdict at parsed
    split at parsed
    · cases parsed
    · rename_i filled
      split at parsed
      · rename_i read
        cases parsed
        exact (parseLineBorrowed_within (Bool.not_eq_true _ ▸ filled) read).mono (List.length_take_le' _ _)
      · cases parsed

end ZetDb.Protocol
