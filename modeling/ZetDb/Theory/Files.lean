/-
# Theory.Files -- replacing a file by a rename, across crashes

A disk is a directory of names and the contents of inodes.  Nothing syncs the directory,
so a crash leaves it as it is or as it was at some moment since the mount; of an inode
it leaves what has been synced, and anything at all where something was written since.

Tasks issue calls one by one.  A write may take several of them, any call may fail, and
a task whose call fails gives up.  `replacing` creates a temporary file, writes it, syncs
it and renames it to its target.  If no two tasks replace the file at a time
(`Exclusive`) the target holds whole data only, at any moment and after any number of
crashes: `target_whole`.  Two tasks at a time can leave any beginning of the data there:
`target_torn`.
-/
import ZetDb.Theory.Runs
import Mathlib.Logic.Function.Basic

namespace ZetDb.Theory.Files

set_option autoImplicit false

open ZetDb.Theory.Runs (Along)

structure Disk (ν α : Type) where
  names : ν → Option Nat
  /-- The directories since the mount. -/
  older : List (ν → Option Nat)
  content : Nat → List α
  /-- Written since it was synced. -/
  dirty : Nat → Bool
  /-- The inodes from here on have not been used. -/
  next : Nat

inductive Call (ν α : Type) where
  | create (name : ν)
  | write (data : List α)
  | sync
  | rename (source target : ν)

/-- A task with the file it has open and the calls it has still to issue. -/
structure Task (ν α : Type) where
  handle : Option Nat
  offset : Nat
  calls : List (Call ν α)

structure System (ν α : Type) where
  disk : Disk ν α
  task : Nat → Task ν α

inductive Event (ν α : Type) where
  | start (i : Nat) (calls : List (Call ν α))
  /-- The next call of a task; of a write as many items as are given. -/
  | call (i written : Nat)
  /-- The next call of a task fails. -/
  | fail (i : Nat)
  /-- The directory that is left, and what is found in files that were not synced. -/
  | crash (k : Nat) (lost : Nat → List α)

section Disk

variable {ν α : Type}

/-- The directories that a crash may leave. -/
def Disk.directories (d : Disk ν α) : List (ν → Option Nat) := d.names :: d.older

def Disk.read (d : Disk ν α) (name : ν) : Option (List α) := (d.names name).map d.content

variable [DecidableEq ν]

/-- Open for writing: a file that exists is truncated. -/
def Disk.create (d : Disk ν α) (name : ν) : Disk ν α :=
  match d.names name with
  | some i => { d with content := Function.update d.content i [], dirty := Function.update d.dirty i true }
  | none =>
      { names := Function.update d.names name (some d.next)
        older := d.directories
        content := Function.update d.content d.next []
        dirty := Function.update d.dirty d.next true
        next := d.next + 1 }

/-- Data put over a file at an offset; a gap is filled up. -/
def splice [Inhabited α] (old : List α) (offset : Nat) (data : List α) : List α :=
  old.take offset ++ (List.replicate (offset - old.length) default ++ (data ++ old.drop (offset + data.length)))

def Disk.write [Inhabited α] (d : Disk ν α) (i offset : Nat) (data : List α) : Disk ν α :=
  { d with
    content := Function.update d.content i (splice (d.content i) offset data)
    dirty := Function.update d.dirty i true }

def Disk.sync (d : Disk ν α) (i : Nat) : Disk ν α := { d with dirty := Function.update d.dirty i false }

def Disk.rename (d : Disk ν α) (source target : ν) : Option (Disk ν α) :=
  (d.names source).map fun i =>
    { d with
      names := Function.update (Function.update d.names source none) target (some i)
      older := d.directories }

def Disk.crash (d : Disk ν α) (k : Nat) (lost : Nat → List α) : Option (Disk ν α) :=
  (d.directories[k]?).map fun names =>
    { names := names
      older := []
      content := fun i => if d.dirty i then lost i else d.content i
      dirty := fun _ => false
      next := d.next }

/-! ## Tasks -/

def Task.idle : Task ν α := ⟨none, 0, []⟩

def System.put (s : System ν α) (disk : Disk ν α) (i : Nat) (t : Task ν α) : System ν α :=
  ⟨disk, Function.update s.task i t⟩

/-- A task's next call. -/
def call [Inhabited α] (d : Disk ν α) (t : Task ν α) (written : Nat) : Option (Disk ν α × Task ν α) :=
  match t.calls with
  | [] => none
  | .create name :: rest => some (d.create name, ⟨(d.create name).names name, 0, rest⟩)
  | .write data :: rest =>
      t.handle.map fun i =>
        (d.write i t.offset (data.take written),
          { t with
            offset := t.offset + (data.take written).length
            calls := if (data.drop written).isEmpty then rest else .write (data.drop written) :: rest })
  | .sync :: rest => t.handle.map fun i => (d.sync i, { t with calls := rest })
  | .rename source target :: rest => (d.rename source target).map fun d => (d, { t with calls := rest })

def step [Inhabited α] (s : System ν α) : Event ν α → Option (System ν α)
  | .start i calls => if (s.task i).calls.isEmpty then some (s.put s.disk i ⟨none, 0, calls⟩) else none
  | .call i written => (call s.disk (s.task i) written).map fun r => s.put r.1 i r.2
  | .fail i => if (s.task i).calls.isEmpty then none else some (s.put s.disk i .idle)
  | .crash k lost => (s.disk.crash k lost).map fun d => ⟨d, fun _ => .idle⟩

def run [Inhabited α] : System ν α → List (Event ν α) → Option (System ν α) := Theory.Runs.run step

/-- A disk without files, and tasks without calls. -/
def System.blank : System ν α := ⟨⟨fun _ => none, [], fun _ => [], fun _ => false, 0⟩, fun _ => .idle⟩

/-- The calls that replace a file. -/
def replacing (temporary target : ν) (data : List α) : List (Call ν α) :=
  [.create temporary, .write data, .sync, .rename temporary target]

/-- A file is replaced by one task at a time, by data of a kind. -/
def Exclusive (temporary target : ν) (Whole : List α → Prop) (s : System ν α) : Event ν α → Prop
  | .start _ calls => (∀ j, (s.task j).calls = []) ∧ ∃ data, Whole data ∧ calls = replacing temporary target data
  | _ => True

end Disk

/-! ## One task at a time -/

section Replacing

variable {ν α : Type} [DecidableEq ν] [Inhabited α] {temporary target : ν} {Whole : List α → Prop}
  {d d' : Disk ν α} {t t' : Task ν α} {s s' : System ν α}

/-- How far a task has come. -/
inductive Stage (temporary target : ν) (Whole : List α → Prop) (d : Disk ν α) (t : Task ν α) : Prop where
  | idle (none : t.calls = [])
  | opening (data : List α) (whole : Whole data) (calls : t.calls = replacing temporary target data)
  | writing (i : Nat) (rest : List α) (whole : Whole (d.content i ++ rest)) (held : t.handle = some i)
      (here : t.offset = (d.content i).length) (named : d.names temporary = some i)
      (calls : t.calls = [.write rest, .sync, .rename temporary target])
  | syncing (i : Nat) (whole : Whole (d.content i)) (held : t.handle = some i)
      (named : d.names temporary = some i) (calls : t.calls = [.sync, .rename temporary target])
  | moving (i : Nat) (whole : Whole (d.content i)) (clean : d.dirty i = false)
      (named : d.names temporary = some i) (calls : t.calls = [.rename temporary target])

/-- In every directory a crash may leave, the target is a whole file that is synced and
is not the temporary one. -/
structure Sound (temporary target : ν) (Whole : List α → Prop) (d : Disk ν α) : Prop where
  used : ∀ names ∈ d.directories, ∀ name i, names name = some i → i < d.next
  apart : ∀ names ∈ d.directories, ∀ i, names target = some i → names temporary ≠ some i
  kept : ∀ names ∈ d.directories, ∀ i, names target = some i → d.names temporary ≠ some i
  whole : ∀ names ∈ d.directories, ∀ i, names target = some i → d.dirty i = false ∧ Whole (d.content i)

set_option linter.unusedSectionVars false

theorem splice_end (old data : List α) : splice old old.length data = old ++ data := by
  rw [splice, List.take_length, Nat.sub_self, List.drop_of_length_le (by omega)]
  simp

/-- The target's inodes are not touched. -/
theorem Sound.change {i : Nat} {content : List α} {dirty : Bool} (good : Sound temporary target Whole d)
    (named : d.names temporary = some i) :
    Sound temporary target Whole
      { d with content := Function.update d.content i content, dirty := Function.update d.dirty i dirty } where
  used := good.used
  apart := good.apart
  kept := good.kept
  whole := by
    intro names possible j found
    have other : j ≠ i := by
      rintro rfl
      exact good.kept names possible j found named
    simp only [Function.update_of_ne other]
    exact good.whole names possible j found

/-- A file that is created is not the target's. -/
theorem Sound.create (different : temporary ≠ target) (good : Sound temporary target Whole d) :
    Sound temporary target Whole (d.create temporary) := by
  unfold Disk.create
  split
  · rename_i i named
    exact good.change named
  · rename_i absent
    have fresh : ∀ names ∈ d.directories, ∀ name, names name ≠ some d.next := by
      intro names possible name found
      exact Nat.lt_irrefl _ (good.used names possible name _ found)
    have same : (Function.update d.names temporary (some d.next)) target = d.names target :=
      Function.update_of_ne different.symm _ _
    have inside : d.names ∈ d.directories := List.mem_cons_self
    refine ⟨?_, ?_, ?_, ?_⟩
    · intro names possible name i found
      rcases List.mem_cons.1 possible with rfl | old
      · dsimp only at found
        by_cases mine : name = temporary
        · rw [mine, Function.update_self] at found
          cases found
          exact Nat.lt_succ_self _
        · rw [Function.update_of_ne mine] at found
          exact Nat.lt_succ_of_lt (good.used _ inside name i found)
      · exact Nat.lt_succ_of_lt (good.used names old name i found)
    · intro names possible i found
      rcases List.mem_cons.1 possible with rfl | old
      · dsimp only at found
        rw [same] at found
        dsimp only
        rw [Function.update_self]
        rintro ⟨⟩
        exact fresh _ inside _ found
      · exact good.apart names old i found
    · intro names possible i found
      show Function.update d.names temporary (some d.next) temporary ≠ some i
      rw [Function.update_self]
      rintro ⟨⟩
      rcases List.mem_cons.1 possible with rfl | old
      · dsimp only at found
        rw [same] at found
        exact fresh _ inside _ found
      · exact fresh names old _ found
    · intro names possible i found
      have older : ∃ names ∈ d.directories, names target = some i := by
        rcases List.mem_cons.1 possible with rfl | old
        · dsimp only at found
          rw [same] at found
          exact ⟨_, inside, found⟩
        · exact ⟨names, old, found⟩
      obtain ⟨names', possible', found'⟩ := older
      have other : i ≠ d.next := by
        rintro rfl
        exact fresh names' possible' _ found'
      simp only [Function.update_of_ne other]
      exact good.whole names' possible' i found'

/-- The rename puts a file in the target's place that is whole and synced. -/
theorem Sound.rename {i : Nat} (good : Sound temporary target Whole d) (different : temporary ≠ target)
    (named : d.names temporary = some i) (whole : Whole (d.content i)) (clean : d.dirty i = false)
    (renamed : d.rename temporary target = some d') :
    Sound temporary target Whole d' ∧ d'.names target = some i ∧ d'.names temporary = none ∧
      d'.content = d.content := by
  rw [Disk.rename, named, Option.map_some] at renamed
  cases renamed
  have gone : Function.update (Function.update d.names temporary none) target (some i) temporary = none := by
    rw [Function.update_of_ne different, Function.update_self]
  have there : Function.update (Function.update d.names temporary none) target (some i) target = some i :=
    Function.update_self _ _ _
  refine ⟨⟨?_, ?_, ?_, ?_⟩, there, gone, rfl⟩
  · intro names possible name j found
    rcases List.mem_cons.1 possible with rfl | old
    · dsimp only at found
      by_cases its : name = target
      · rw [its, there] at found
        cases found
        exact good.used _ List.mem_cons_self _ _ named
      · rw [Function.update_of_ne its] at found
        by_cases mine : name = temporary
        · rw [mine, Function.update_self] at found
          cases found
        · rw [Function.update_of_ne mine] at found
          exact good.used _ List.mem_cons_self name j found
    · exact good.used names old name j found
  · intro names possible j found
    rcases List.mem_cons.1 possible with rfl | old
    · dsimp only
      rw [gone]
      rintro ⟨⟩
    · exact good.apart names old j found
  · intro names possible j found
    dsimp only
    rw [gone]
    rintro ⟨⟩
  · intro names possible j found
    rcases List.mem_cons.1 possible with rfl | old
    · dsimp only at found
      rw [there] at found
      cases found
      exact ⟨clean, whole⟩
    · exact good.whole names old j found

theorem Sound.crash {k : Nat} {lost : Nat → List α} (good : Sound temporary target Whole d)
    (crashed : d.crash k lost = some d') : Sound temporary target Whole d' := by
  obtain ⟨names, found, rfl⟩ := Option.map_eq_some_iff.1 crashed
  have possible : names ∈ d.directories := List.mem_of_getElem? found
  refine ⟨?_, ?_, ?_, ?_⟩
  · intro names' inside
    cases List.mem_singleton.1 inside
    exact good.used names possible
  · intro names' inside
    cases List.mem_singleton.1 inside
    exact good.apart names possible
  · intro names' inside
    cases List.mem_singleton.1 inside
    exact good.apart names possible
  · intro names' inside i held
    cases List.mem_singleton.1 inside
    obtain ⟨clean, whole⟩ := good.whole names possible i held
    refine ⟨rfl, ?_⟩
    show Whole (if d.dirty i then lost i else d.content i)
    rw [clean]
    exact whole

theorem create_named (d : Disk ν α) (name : ν) :
    ∃ i, (d.create name).names name = some i ∧ (d.create name).content i = [] := by
  unfold Disk.create
  split
  · rename_i i named
    exact ⟨i, named, Function.update_self _ _ _⟩
  · exact ⟨d.next, Function.update_self _ _ _, Function.update_self _ _ _⟩

/-- A call of a task that replaces the file brings it one stage on. -/
theorem Stage.call (different : temporary ≠ target) (good : Sound temporary target Whole d) {written : Nat}
    (stage : Stage temporary target Whole d t) (next : call d t written = some (d', t')) :
    Sound temporary target Whole d' ∧ Stage temporary target Whole d' t' := by
  unfold Files.call at next
  cases stage with
  | idle none =>
      rw [none] at next
      cases next
  | opening data whole calls =>
      rw [calls, replacing] at next
      cases next
      obtain ⟨i, named, empty⟩ := create_named d temporary
      refine ⟨good.create different, .writing i data ?_ named ?_ named rfl⟩
      · rw [empty]
        exact whole
      · rw [empty]
        rfl
  | writing i rest whole held here named calls =>
      rw [calls, held] at next
      cases next
      have content : (d.write i t.offset (rest.take written)).content i = d.content i ++ rest.take written := by
        rw [here]
        show Function.update d.content i _ i = _
        rw [Function.update_self, splice_end]
      refine ⟨good.change named, ?_⟩
      by_cases ended : (rest.drop written).isEmpty = true
      · have all : rest.take written = rest :=
          List.take_of_length_le (List.drop_eq_nil_iff.1 (List.isEmpty_iff.1 ended))
        refine .syncing i ?_ rfl named (if_pos ended)
        rw [content, all]
        exact whole
      · refine .writing i (rest.drop written) ?_ rfl ?_ named (if_neg ended)
        · rw [content, List.append_assoc, List.take_append_drop]
          exact whole
        · rw [content, List.length_append, ← here]
  | syncing i whole held named calls =>
      rw [calls, held] at next
      cases next
      have same : d.sync i = { d with
          content := Function.update d.content i (d.content i), dirty := Function.update d.dirty i false } := by
        rw [Function.update_eq_self]
        rfl
      refine ⟨?_, .moving i whole (Function.update_self _ _ _) named rfl⟩
      rw [same]
      exact good.change named
  | moving i whole clean named calls =>
      rw [calls] at next
      obtain ⟨after, renamed, same⟩ := Option.map_eq_some_iff.1 next
      cases same
      exact ⟨(good.rename different named whole clean renamed).1, .idle rfl⟩

/-- The disk is sound, and one task at most replaces the file. -/
structure Good (temporary target : ν) (Whole : List α → Prop) (s : System ν α) : Prop where
  disk : Sound temporary target Whole s.disk
  stage : ∀ i, Stage temporary target Whole s.disk (s.task i)
  alone : ∀ i j, (s.task i).calls ≠ [] → (s.task j).calls ≠ [] → i = j

theorem good_blank : Good temporary target Whole (.blank : System ν α) where
  disk := by
    refine ⟨?_, ?_, ?_, ?_⟩
    all_goals
      intro names possible
      cases List.mem_singleton.1 possible
      intro _
      simp [System.blank]
  stage _ := .idle rfl
  alone _ _ busy := absurd rfl busy

/-- The other tasks have no calls left. -/
theorem good_put {i : Nat} (others : ∀ j, j ≠ i → (s.task j).calls = [])
    (disk : Sound temporary target Whole d) (stage : Stage temporary target Whole d t) :
    Good temporary target Whole (s.put d i t) := by
  have calls : ∀ j, (Function.update s.task i t j).calls ≠ [] → j = i := by
    intro j busy
    by_contra other
    rw [Function.update_of_ne other] at busy
    exact busy (others j other)
  refine ⟨disk, ?_, ?_⟩
  · intro j
    show Stage temporary target Whole d (Function.update s.task i t j)
    by_cases mine : j = i
    · rw [mine, Function.update_self]
      exact stage
    · rw [Function.update_of_ne mine]
      exact .idle (others j mine)
  · intro j k busy busy'
    rw [calls j busy, calls k busy']

theorem Good.step (different : temporary ≠ target) (good : Good temporary target Whole s) {ev : Event ν α}
    (exclusive : Exclusive temporary target Whole s ev) (next : step s ev = some s') :
    Good temporary target Whole s' := by
  cases ev with
  | start i calls =>
      obtain ⟨free, data, whole, rfl⟩ := exclusive
      rw [Files.step] at next
      split at next
      · cases next
        exact good_put (fun j _ => free j) good.disk (.opening data whole rfl)
      · cases next
  | call i written =>
      obtain ⟨⟨after, t⟩, called, rfl⟩ := Option.map_eq_some_iff.1 next
      have busy : (s.task i).calls ≠ [] := by
        intro none
        rw [Files.call, none] at called
        cases called
      obtain ⟨disk, stage⟩ := (good.stage i).call different good.disk called
      refine good_put ?_ disk stage
      intro j other
      by_contra calls
      exact other (good.alone j i calls busy)
  | fail i =>
      rw [Files.step] at next
      split at next
      · cases next
      rename_i busy
      cases next
      refine good_put ?_ good.disk (.idle rfl)
      intro j other
      by_contra calls
      exact other (good.alone j i calls (mt List.isEmpty_iff.2 busy))
  | crash k lost =>
      obtain ⟨after, crashed, rfl⟩ := Option.map_eq_some_iff.1 next
      exact ⟨good.disk.crash crashed, fun _ => .idle rfl, fun _ _ busy => absurd rfl busy⟩

/-- A file that is replaced by one task at a time holds whole data, whatever calls have
failed and however often the machine has crashed. -/
theorem target_whole (different : temporary ≠ target) {events : List (Event ν α)}
    (start : Good temporary target Whole s)
    (along : Along step (Exclusive temporary target Whole) s events) (reached : run s events = some s') :
    ∀ data, s'.disk.read target = some data → Whole data := by
  have good : Good temporary target Whole s' :=
    Theory.Runs.run_invariant (fun _ _ _ good here next => good.step different here next) start along reached
  intro data found
  obtain ⟨i, named, rfl⟩ := Option.map_eq_some_iff.1 found
  exact (good.disk.whole _ List.mem_cons_self i named).2

/-- A second task creates the temporary file while the first has it open, and has written
`k` items when the first syncs and renames it. -/
def overlapping (temporary target : ν) (data data' : List α) (k : Nat) : List (Event ν α) :=
  [.start 0 (replacing temporary target data), .call 0 0, .call 0 data.length,
   .start 1 (replacing temporary target data'), .call 1 0, .call 1 k, .call 0 0, .call 0 0]

/-- Two tasks at a time: any beginning of the data can come to stand at the target, and no
call has failed. -/
theorem target_torn (temporary target : ν) (data data' : List α) (k : Nat) :
    ∃ s, run .blank (overlapping temporary target data data' k) = some s ∧
      s.disk.read target = some (data'.take k) := by
  have torn : splice ([] : List α) 0 (data'.take k) = data'.take k := splice_end [] (data'.take k)
  have outcome : (run .blank (overlapping temporary target data data' k)).map (fun s => s.disk.read target) =
      some (some (data'.take k)) := by
    simp [overlapping, run, Theory.Runs.run, step, Files.call, System.blank, System.put, replacing, Task.idle,
      Disk.create, Disk.write, Disk.sync, Disk.rename, Disk.read, torn]
  exact Option.map_eq_some_iff.1 outcome

end Replacing

end ZetDb.Theory.Files
