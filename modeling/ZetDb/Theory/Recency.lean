/-
# Theory.Recency -- a bounded store that forgets what was written longest ago

The bindings of a store are listed with the one written last in front.  A write puts
its binding in front and takes a binding of the same key away; if there are more than
fit, the ones at the end go (`write`).  A change of a value in place (`AList.replace`)
leaves the order, and so the age, alone.

There are two cases: the write finds room (`write_room`), or it takes the place of the
last binding (`write_full`).
-/
import Mathlib.Data.List.AList

namespace ZetDb.Theory.Recency

set_option autoImplicit false
set_option linter.dupNamespace false
set_option linter.unusedSectionVars false

variable {κ α : Type} [DecidableEq κ]

/-- Bindings of different keys, the one written last in front. -/
abbrev Recency (κ α : Type) := AList fun _ : κ => α

/-- The bindings that were written last. -/
def youngest (n : Nat) (l : Recency κ α) : Recency κ α :=
  ⟨l.entries.take n, l.nodupKeys.sublist (List.take_sublist n l.entries)⟩

/-- A binding is written, and at most `n` are kept. -/
def write (n : Nat) (l : Recency κ α) (k : κ) (a : α) : Recency κ α := youngest n (l.insert k a)

variable {n : Nat} {l : Recency κ α} {k : κ} {a : α}

theorem length_keys (l : Recency κ α) : l.keys.length = l.entries.length := List.length_map _

theorem keys_insert_erase (l : Recency κ α) (k : κ) (a : α) : (l.insert k a).keys = k :: (l.erase k).keys := by
  rw [AList.keys_insert, AList.keys_erase]

theorem keys_erase_sublist (l : Recency κ α) (k : κ) : (l.erase k).keys.Sublist l.keys := by
  rw [AList.keys_erase]
  exact List.erase_sublist

theorem youngest_of_length_le (few : l.keys.length ≤ n) : youngest n l = l := by
  apply AList.ext
  rw [length_keys] at few
  exact List.take_of_length_le few

theorem length_erase_of_mem (held : k ∈ l) : (l.erase k).keys.length + 1 = l.keys.length := by
  have filled : 0 < l.keys.length := List.length_pos_of_mem (AList.mem_keys.1 held)
  rw [AList.keys_erase, List.length_erase_of_mem (AList.mem_keys.1 held)]
  omega

theorem length_insert_of_mem (held : k ∈ l) : (l.insert k a).keys.length = l.keys.length := by
  rw [keys_insert_erase, List.length_cons, length_erase_of_mem held]

theorem length_insert_of_notMem (new : k ∉ l) : (l.insert k a).keys.length = l.keys.length + 1 := by
  rw [AList.keys_insert, List.length_cons, List.erase_of_not_mem (fun held => new (AList.mem_keys.2 held))]

/-- Where there is room, or the key has a binding, nothing is forgotten. -/
theorem write_room (few : l.keys.length ≤ n) (room : k ∈ l ∨ l.keys.length < n) :
    write n l k a = l.insert k a := by
  apply youngest_of_length_le
  by_cases held : k ∈ l
  · rw [length_insert_of_mem held]
    exact few
  · rw [length_insert_of_notMem held]
    rcases room with inside | below
    · exact absurd inside held
    · exact below

/-- Otherwise the oldest binding is. -/
theorem write_full {front : List κ} {oldest : κ} (order : l.keys = front ++ [oldest]) (new : k ∉ l) :
    write l.keys.length l k a = (l.erase oldest).insert k a := by
  have apart : k ∉ l.erase oldest := fun inside => new (AList.mem_erase.1 inside).2
  obtain ⟨before, last, split⟩ : ∃ before last, l.entries = before ++ [last] := by
    refine ⟨l.entries.dropLast, l.entries.getLast ?_, (List.dropLast_concat_getLast _).symm⟩
    intro empty
    have none : l.keys = [] := by rw [AList.keys, empty]; rfl
    rw [none] at order
    cases front <;> cases order
  have keys : before.keys = front ∧ last.1 = oldest := by
    rw [AList.keys, split, List.keys, List.map_append] at order
    exact List.append_inj' order rfl |>.imp id (fun same => (List.cons.inj same).1)
  have outside : oldest ∉ before.keys := by
    have nodup := l.keys_nodup
    rw [order, List.nodup_append] at nodup
    rw [keys.1]
    intro inside
    exact nodup.2.2 oldest inside oldest List.mem_cons_self rfl
  apply AList.ext
  rw [AList.entries_insert_of_notMem apart]
  show (l.insert k a).entries.take l.keys.length = _
  have erased : (l.erase oldest).entries = before := by
    show l.entries.kerase oldest = before
    rw [split, List.kerase_append_right outside, List.kerase_cons_eq keys.2.symm, List.append_nil]
  rw [AList.entries_insert_of_notMem new, erased, length_keys, split, List.length_append, List.length_singleton,
    List.take_succ_cons, List.take_left]

/-! ## A change in place -/

theorem dlookup_kreplace (k : κ) (a : α) (entries : List ((_ : κ) × α)) (other : κ) :
    (entries.kreplace k a).dlookup other =
      if other = k then (entries.dlookup k).map fun _ => a else entries.dlookup other := by
  induction entries with
  | nil => simp [List.kreplace, List.lookmap_nil]
  | cons entry entries ih =>
      obtain ⟨key, b⟩ := entry
      by_cases first : k = key
      · have head : List.kreplace k a (⟨key, b⟩ :: entries) = ⟨k, a⟩ :: entries :=
          List.lookmap_cons_some _ _ (if_pos first)
        rw [head]
        subst first
        by_cases same : other = k
        · rw [if_pos same, same, List.dlookup_cons_eq, List.dlookup_cons_eq]
          rfl
        · rw [if_neg same, List.dlookup_cons_ne _ _ same, List.dlookup_cons_ne _ _ same]
      · have tail : List.kreplace k a (⟨key, b⟩ :: entries) = ⟨key, b⟩ :: List.kreplace k a entries :=
          List.lookmap_cons_none _ _ (if_neg first)
        rw [tail]
        by_cases same : other = key
        · rw [if_neg (fun here => first (here.symm.trans same)), same, List.dlookup_cons_eq, List.dlookup_cons_eq]
        · rw [List.dlookup_cons_ne _ _ same, ih, List.dlookup_cons_ne _ _ first, List.dlookup_cons_ne _ _ same]

theorem lookup_replace (l : Recency κ α) (k : κ) (a : α) (other : κ) :
    (l.replace k a).lookup other = if other = k then (l.lookup k).map fun _ => a else l.lookup other :=
  dlookup_kreplace k a l.entries other

end ZetDb.Theory.Recency
