/-
# Theory.Words -- the words of a text

A text is a list, some of its items are blank.  Its words are the maximal runs of
items that are not.  `strip` drops the blanks at both ends and `firstWord` cuts a
text behind its first run; a scanner that alternates the two sees the words one by
one (`strip_cases`), however many blanks stand between them.
-/
import Mathlib.Data.List.DropRight

namespace ZetDb.Theory.Words

set_option autoImplicit false

variable {ι : Type} (blank : ι → Bool)

def words (text : List ι) : List (List ι) := (text.splitOnP blank).filter fun w => !w.isEmpty

def strip (text : List ι) : List ι := (text.dropWhile blank).rdropWhile blank

/-- The text up to its first blank, and the rest. -/
def firstWord (text : List ι) : List ι × List ι :=
  match text.findIdx? blank with
  | some i => (text.take i, text.drop i)
  | none => (text, [])

/-- A word: not empty, and no blank in it. -/
def IsWord (w : List ι) : Prop := w ≠ [] ∧ ∀ x ∈ w, blank x = false

variable {blank}

@[simp] theorem words_nil : words blank [] = [] := by simp [words]

theorem words_append_cons {sep : ι} (isBlank : blank sep = true) (front back : List ι) :
    words blank (front ++ sep :: back) = words blank front ++ words blank back := by
  rw [words, List.splitOnP_append_cons _ _ isBlank, List.filter_append]
  rfl

theorem words_word {w : List ι} (word : IsWord blank w) : words blank w = [w] := by
  have filled : w.isEmpty = false := by simpa using word.1
  rw [words, List.splitOnP_eq_singleton word.2, List.filter_singleton, filled]
  rfl

theorem words_blanks_append {gap : List ι} (blanks : ∀ x ∈ gap, blank x = true) (text : List ι) :
    words blank (gap ++ text) = words blank text := by
  induction gap with
  | nil => rfl
  | cons x gap ih =>
      have first : blank x = true := blanks x (by simp)
      have rest := ih fun y member => blanks y (by simp [member])
      have split := words_append_cons first [] (gap ++ text)
      rwa [List.nil_append, words_nil, List.nil_append, rest] at split

theorem words_append_blanks {gap : List ι} (blanks : ∀ x ∈ gap, blank x = true) (text : List ι) :
    words blank (text ++ gap) = words blank text := by
  cases gap with
  | nil => rw [List.append_nil]
  | cons x gap =>
      have behind : ∀ y ∈ gap, blank y = true := fun y member => blanks y (by simp [member])
      have rest := words_blanks_append behind []
      rw [List.append_nil, words_nil] at rest
      rw [words_append_cons (blanks x (by simp)), rest, List.append_nil]

/-- Blanks at the ends are no words. -/
theorem words_strip (text : List ι) : words blank (strip blank text) = words blank text := by
  have front : words blank (text.dropWhile blank) = words blank text := by
    have all : text.takeWhile blank ++ text.dropWhile blank = text := List.takeWhile_append_dropWhile
    have gap : ∀ x ∈ text.takeWhile blank, blank x = true := fun x member => List.mem_takeWhile_imp member
    rw [← words_blanks_append gap, all]
  have back : words blank (strip blank text) = words blank (text.dropWhile blank) := by
    have all : (text.dropWhile blank).rdropWhile blank ++ (text.dropWhile blank).rtakeWhile blank =
        text.dropWhile blank := List.rdropWhile_append_rtakeWhile
    have gap : ∀ x ∈ (text.dropWhile blank).rtakeWhile blank, blank x = true :=
      fun x member => List.mem_rtakeWhile_imp member
    rw [strip, ← words_append_blanks gap, all]
  rw [back, front]

/-- The first word of a text that starts with one. -/
theorem words_word_append {w rest : List ι} (word : IsWord blank w)
    (ends : ∀ x, rest.head? = some x → blank x = true) :
    words blank (w ++ rest) = w :: words blank rest := by
  cases rest with
  | nil => rw [List.append_nil, words_word word, words_nil]
  | cons x rest =>
      have first : blank x = true := ends x rfl
      have behind := words_append_cons first [] rest
      rw [List.nil_append, words_nil, List.nil_append] at behind
      rw [words_append_cons first, words_word word, behind, List.singleton_append]

/-- The words of words joined by single blanks are these words. -/
theorem words_intercalate {sep : ι} (isBlank : blank sep = true) {ws : List (List ι)}
    (all : ∀ w ∈ ws, IsWord blank w) : words blank ([sep].intercalate ws) = ws := by
  induction ws with
  | nil => simp
  | cons w ws ih =>
      have rest := ih fun v member => all v (by simp [member])
      cases ws with
      | nil => simpa using words_word (all w (by simp))
      | cons v ws =>
          rw [List.intercalate_cons_cons, List.append_assoc, List.singleton_append,
            words_append_cons isBlank, words_word (all w (by simp)), rest, List.singleton_append]

/-! ## Word by word -/

theorem strip_isPrefix (blank : ι → Bool) (text : List ι) : strip blank text <+: text.dropWhile blank :=
  List.rdropWhile_prefix blank _

/-- A stripped text starts with an item that is not blank. -/
theorem strip_head {text : List ι} {x : ι} (first : (strip blank text).head? = some x) :
    blank x = false := by
  obtain ⟨back, all⟩ := strip_isPrefix blank text
  have front : (text.dropWhile blank).head? = some x := by
    rw [← all, List.head?_append, first]
    rfl
  have stop := List.head?_dropWhile_not blank text
  rw [front] at stop
  simpa using stop

/-- A stripped text ends with an item that is not blank. -/
theorem strip_last {text front : List ι} {x : ι} (all : strip blank text = front ++ [x]) :
    blank x = false := by
  have filled : strip blank text ≠ [] := by simp [all]
  have stop := List.rdropWhile_last_not blank (text.dropWhile blank) filled
  have last : (strip blank text).getLast filled = x := by simp [all]
  have same : ¬ blank ((strip blank text).getLast filled) = true := stop
  rw [last] at same
  simpa using same

/-- A blank at the end changes nothing, and anything else there is kept. -/
theorem strip_concat_eq_iff (text : List ι) (x : ι) :
    strip blank text = strip blank (text ++ [x]) ↔ blank x = true := by
  have split : (text ++ [x]).dropWhile blank =
      if (text.dropWhile blank).isEmpty then [x].dropWhile blank else text.dropWhile blank ++ [x] :=
    List.dropWhile_append
  constructor
  · intro same
    by_contra kept
    have size := congrArg List.length same
    have bound := (strip_isPrefix blank text).length_le
    simp only [strip] at size bound
    rw [split] at size
    split at size
    · rename_i empty
      rw [List.isEmpty_iff.1 empty, List.dropWhile_cons_of_neg kept, List.rdropWhile_nil,
        List.rdropWhile_singleton, if_neg kept] at size
      simp at size
    · rw [List.rdropWhile_concat_neg _ _ _ kept, List.length_append, List.length_singleton] at size
      omega
  · intro isBlank
    simp only [strip]
    rw [split]
    split
    · rename_i empty
      rw [List.isEmpty_iff.1 empty, List.dropWhile_cons_of_pos isBlank, List.dropWhile_nil]
    · rw [List.rdropWhile_concat_pos _ _ _ isBlank]

theorem mem_of_strip_nil {text : List ι} (empty : strip blank text = []) {x : ι} (member : x ∈ text) :
    blank x = true := by
  have inDropped := List.rdropWhile_eq_nil_iff.1 empty
  have all : text.takeWhile blank ++ text.dropWhile blank = text := List.takeWhile_append_dropWhile
  rw [← all] at member
  rcases List.mem_append.1 member with front | back
  · exact List.mem_takeWhile_imp front
  · exact inDropped x back

/-- The first cut into a stripped text that is not empty. -/
structure FirstWord (blank : ι → Bool) (text w rest : List ι) : Prop where
  cut : firstWord blank (strip blank text) = (w, rest)
  whole : strip blank text = w ++ rest
  word : IsWord blank w
  ends : ∀ x, rest.head? = some x → blank x = true
  words_eq : words blank text = w :: words blank rest

theorem firstWord_cut (blank : ι → Bool) (text : List ι) :
    ∃ w rest, firstWord blank text = (w, rest) ∧ text = w ++ rest ∧ (∀ x ∈ w, blank x = false) ∧
      ∀ x, rest.head? = some x → blank x = true := by
  unfold firstWord
  split
  · rename_i i found
    obtain ⟨inside, here, before⟩ := List.findIdx?_eq_some_iff_getElem.1 found
    refine ⟨text.take i, text.drop i, rfl, (List.take_append_drop i text).symm, ?_, ?_⟩
    · intro x member
      obtain ⟨j, small, rfl⟩ := List.mem_take_iff_getElem.1 member
      exact Bool.eq_false_iff.2 (before j (by omega))
    · intro x first
      rw [List.head?_drop, List.getElem?_eq_getElem inside] at first
      cases first
      exact here
  · rename_i none
    refine ⟨text, [], rfl, (List.append_nil text).symm, List.findIdx?_eq_none_iff.1 none, ?_⟩
    intro x first
    cases first

/-- A text has no words, or stripping and cutting gives its first word and a rest
with the others. -/
theorem strip_cases (blank : ι → Bool) (text : List ι) :
    (words blank text = [] ∧ strip blank text = []) ∨ ∃ w rest, FirstWord blank text w rest := by
  obtain ⟨w, rest, cut, whole, plain, ends⟩ := firstWord_cut blank (strip blank text)
  cases shape : strip blank text with
  | nil =>
      left
      rw [← words_strip, shape]
      exact ⟨words_nil, rfl⟩
  | cons x xs =>
      right
      have first : blank x = false := strip_head (by rw [shape, List.head?_cons])
      have filled : w ≠ [] := by
        rintro rfl
        rw [List.nil_append] at whole
        rw [ends x (by rw [← whole, shape, List.head?_cons])] at first
        cases first
      have word : IsWord blank w := ⟨filled, plain⟩
      refine ⟨w, rest, cut, whole, word, ends, ?_⟩
      rw [← words_strip, whole, words_word_append word ends]

/-- A text with one word is that word and blanks around it. -/
theorem FirstWord.strip_eq_word {text w rest : List ι} (first : FirstWord blank text w rest)
    (only : words blank rest = []) : strip blank text = w := by
  rcases List.eq_nil_or_concat' rest with rfl | ⟨front, x, rfl⟩
  · rw [first.whole, List.append_nil]
  · have last : blank x = false := strip_last (by rw [first.whole, List.append_assoc])
    -- the rest would end in a word
    rcases strip_cases blank (front ++ [x]) with ⟨-, empty⟩ | ⟨v, behind, second⟩
    · have member : x ∈ front ++ [x] := by simp
      have kept := mem_of_strip_nil empty member
      rw [last] at kept
      cases kept
    · rw [second.words_eq] at only
      cases only

/-- The rest behind the first word is shorter. -/
theorem FirstWord.rest_lt {text w rest : List ι} (first : FirstWord blank text w rest) :
    rest.length < text.length := by
  have stripped : (strip blank text).length ≤ text.length :=
    (strip_isPrefix blank text).length_le.trans (List.length_dropWhile_le blank text)
  have filled : 0 < w.length := List.length_pos_iff.2 first.word.1
  rw [first.whole, List.length_append] at stripped
  omega

/-- A word is no longer than the text. -/
theorem word_length_le {text w : List ι} (member : w ∈ words blank text) : w.length ≤ text.length := by
  rcases strip_cases blank text with ⟨none, -⟩ | ⟨v, rest, first⟩
  · rw [none] at member
    cases member
  · have shorter := first.rest_lt
    rw [first.words_eq] at member
    rcases List.mem_cons.1 member with rfl | later
    · have stripped : (strip blank text).length ≤ text.length :=
        (strip_isPrefix blank text).length_le.trans (List.length_dropWhile_le blank text)
      rw [first.whole, List.length_append] at stripped
      omega
    · have inRest := word_length_le later
      omega
termination_by text.length

/-- There are at most as many words as items. -/
theorem words_length_le (text : List ι) : (words blank text).length ≤ text.length := by
  rcases strip_cases blank text with ⟨none, -⟩ | ⟨w, rest, first⟩
  · rw [none]
    exact Nat.zero_le _
  · have shorter := first.rest_lt
    have others := words_length_le rest
    rw [first.words_eq, List.length_cons]
    omega
termination_by text.length

end ZetDb.Theory.Words
