/-
# Theory.Walks -- passing over the parts of a state that others change

An operation that passes over a whole state takes it part by part.  A visit of one part
is atomic; between two visits the others move.  `seen` is what the operation has
gathered of the parts that it has passed.

The rule of these operations is `passed`: what a visit of a part brings about, and what
the other visits and the moves keep, holds when the operation is over.  Where the moves
need not keep it, there are two readings of a failure: what holds at the end although
a visit put an end to it was brought back by a move behind that visit
(`moved_since`); and what has been gathered was gathered at some visit (`seen_at`).  An
operation that only looks has its answers from moments in the order of the parts
(`looked`).
-/
import ZetDb.Theory.Runs

namespace ZetDb.Theory.Walks

set_option autoImplicit false
set_option linter.dupNamespace false

open ZetDb.Theory.Runs

structure Walk (σ S β : Type) where
  state : σ
  /-- The parts that are still to be visited. -/
  left : List S
  seen : β

inductive Event (ℓ χ : Type) where
  | move (l : ℓ)
  | visit (c : χ)

section Walks

variable {σ ℓ χ S β : Type} (move : σ → ℓ → Option σ) (visit : χ → S → σ → β → σ × β)

/-- The walk behind a visit. -/
def Walk.visited (w : Walk σ S β) (c : χ) (x : S) (left : List S) : Walk σ S β :=
  ⟨(visit c x w.state w.seen).1, left, (visit c x w.state w.seen).2⟩

def step (w : Walk σ S β) : Event ℓ χ → Option (Walk σ S β)
  | .move l => (move w.state l).map fun s => { w with state := s }
  | .visit c =>
      match w.left with
      | [] => none
      | x :: left => some (w.visited visit c x left)

variable {move visit} {w w' : Walk σ S β} {events : List (Event ℓ χ)}

theorem step_move {l : ℓ} (taken : step move visit w (.move l) = some w') :
    ∃ s, move w.state l = some s ∧ w' = { w with state := s } := by
  obtain ⟨s, next, rfl⟩ := Option.map_eq_some_iff.1 taken
  exact ⟨s, next, rfl⟩

theorem step_visit {c : χ} (taken : step move visit w (.visit c) = some w') :
    ∃ x left, w.left = x :: left ∧ w' = w.visited visit c x left := by
  unfold step at taken
  dsimp only at taken
  split at taken
  · cases taken
  · rename_i x left here
    exact ⟨x, left, here, (Option.some.inj taken).symm⟩

/-- The states that a walk passes through, from the first on. -/
def states (move : σ → ℓ → Option σ) (visit : χ → S → σ → β → σ × β) : Walk σ S β → List (Event ℓ χ) → List σ
  | w, [] => [w.state]
  | w, ev :: events =>
      w.state :: match step move visit w ev with
        | some next => states move visit next events
        | none => []

/-- A walk that nothing interrupts. -/
theorem run_visits (c : χ) (s : σ) (left : List S) (b : β) :
    run (step move visit) ⟨s, left, b⟩ (left.map fun _ => .visit c) =
      some ⟨(left.foldl (fun p x => visit c x p.1 p.2) (s, b)).1, [],
        (left.foldl (fun p x => visit c x p.1 p.2) (s, b)).2⟩ := by
  induction left generalizing s b with
  | nil => rfl
  | cons x left ih => exact ih (visit c x s b).1 (visit c x s b).2

/-- The rule of a walk: `I` holds of the part `x` from its visit on. -/
theorem passed {x : S} {I : Walk σ S β → Prop} {P : Walk σ S β → Event ℓ χ → Prop}
    (arrives : ∀ w c left, w.left = x :: left → P w (.visit c) → I (w.visited visit c x left))
    (visits : ∀ w c y left, I w → w.left = y :: left → P w (.visit c) → I (w.visited visit c y left))
    (moves : ∀ w l s, I w → P w (.move l) → x ∉ w.left → move w.state l = some s → I { w with state := s })
    (start : x ∈ w.left) (along : Along (step move visit) P w events)
    (reached : run (step move visit) w events = some w') : x ∈ w'.left ∨ x ∉ w'.left ∧ I w' := by
  refine run_invariant (I := fun w => x ∈ w.left ∨ x ∉ w.left ∧ I w) ?_ (.inl start) along reached
  intro w ev next good here taken
  cases ev with
  | move l =>
      obtain ⟨s, moved, rfl⟩ := step_move taken
      exact good.imp_right fun held => ⟨held.1, moves w l s held.2 here held.1 moved⟩
  | visit c =>
      obtain ⟨y, left, parts, rfl⟩ := step_visit taken
      by_cases later : x ∈ left
      · exact .inl later
      · refine .inr ⟨later, ?_⟩
        rcases good with waiting | ⟨-, held⟩
        · rw [parts] at waiting
          rcases List.mem_cons.1 waiting with rfl | other
          · exact arrives w c left parts here
          · exact absurd other later
        · exact visits w c y left held parts here

/-- When all parts are passed. -/
theorem passed_all {x : S} {I : Walk σ S β → Prop} {P : Walk σ S β → Event ℓ χ → Prop}
    (arrives : ∀ w c left, w.left = x :: left → P w (.visit c) → I (w.visited visit c x left))
    (visits : ∀ w c y left, I w → w.left = y :: left → P w (.visit c) → I (w.visited visit c y left))
    (moves : ∀ w l s, I w → P w (.move l) → x ∉ w.left → move w.state l = some s → I { w with state := s })
    (start : x ∈ w.left) (along : Along (step move visit) P w events)
    (reached : run (step move visit) w events = some w') (done : w'.left = []) : I w' := by
  rcases passed arrives visits moves start along reached with waiting | ⟨-, held⟩
  · rw [done] at waiting
    cases waiting
  · exact held

/-- What a visit ends, and no visit brings about, was brought about by a move behind it. -/
theorem moved_since {x : S} (Bad : σ → Prop) (C : χ → Prop) (ends : ∀ c s b, C c → ¬Bad (visit c x s b).1)
    (keeps : ∀ c y s b, ¬Bad s → ¬Bad (visit c y s b).1) (each : ∀ c, .visit c ∈ events → C c) (start : x ∈ w.left)
    (reached : run (step move visit) w events = some w') (done : w'.left = []) (bad : Bad w'.state) :
    ∃ first l rest mid s, events = first ++ .move l :: rest ∧ run (step move visit) w first = some mid ∧
      x ∉ mid.left ∧ move mid.state l = some s ∧ ¬Bad mid.state ∧ Bad s := by
  let P : Walk σ S β → Event ℓ χ → Prop := fun w ev =>
    ∀ l s, ev = .move l → x ∉ w.left → move w.state l = some s → ¬Bad w.state → ¬Bad s
  by_cases along : Along (step move visit) P w events
  · have both := along.and_label (Q := fun ev => ∀ c, ev = .visit c → C c) (by
      rintro ev inside c rfl
      exact each c inside)
    refine absurd bad (passed_all (I := fun w => ¬Bad w.state) ?_ ?_ ?_ start both reached done)
    · intro w c left _ here
      exact ends c w.state w.seen (here.2 c rfl)
    · intro w c y left good _ _
      exact keeps c y w.state w.seen good
    · intro w l s good here behind moved
      exact here.1 l s rfl behind moved good
  · obtain ⟨first, ev, rest, mid, next, split, there, -, fails⟩ := exists_of_not_along reached along
    simp only [P, not_forall] at fails
    obtain ⟨l, s, rfl, behind, moved, fine, broken⟩ := fails
    exact ⟨first, l, rest, mid, s, split, there, behind, moved, fine, not_not.1 broken⟩

/-- What has been gathered was gathered at a visit. -/
theorem seen_at (Listed : β → Prop) (none : ¬Listed w.seen) (reached : run (step move visit) w events = some w')
    (listed : Listed w'.seen) :
    ∃ first c rest mid x left, events = first ++ .visit c :: rest ∧ run (step move visit) w first = some mid ∧
      mid.left = x :: left ∧ ¬Listed mid.seen ∧ Listed (visit c x mid.state mid.seen).2 := by
  let P : Walk σ S β → Event ℓ χ → Prop := fun w ev =>
    ∀ c x left, ev = .visit c → w.left = x :: left → ¬Listed w.seen → ¬Listed (visit c x w.state w.seen).2
  by_cases along : Along (step move visit) P w events
  · refine absurd listed (run_invariant (I := fun w => ¬Listed w.seen) ?_ none along reached)
    intro w ev next good here taken
    cases ev with
    | move l =>
        obtain ⟨s, -, rfl⟩ := step_move taken
        exact good
    | visit c =>
        obtain ⟨x, left, parts, rfl⟩ := step_visit taken
        exact here c x left rfl parts good
  · obtain ⟨first, ev, rest, mid, next, split, there, -, fails⟩ := exists_of_not_along reached along
    simp only [P, not_forall] at fails
    obtain ⟨c, x, left, rfl, parts, before, after⟩ := fails
    exact ⟨first, c, rest, mid, x, left, split, there, parts, before, not_not.1 after⟩

/-- A walk whose visits look and change nothing: one state for each part that it passes, in
the order of the parts. -/
theorem looked {α : Type} {visit : χ → S → σ → List α → σ × List α} {w w' : Walk σ S (List α)} (look : S → σ → α)
    (looks : ∀ c x s b, visit c x s b = (s, b ++ [look x s])) (reached : run (step move visit) w events = some w') :
    ∃ parts moments, w.left = parts ++ w'.left ∧ moments.Sublist (states move visit w events) ∧
      moments.length = parts.length ∧ w'.seen = w.seen ++ List.zipWith look parts moments := by
  induction events generalizing w with
  | nil =>
      cases reached
      exact ⟨[], [], rfl, List.nil_sublist _, rfl, (List.append_nil _).symm⟩
  | cons ev events ih =>
      obtain ⟨next, taken, rest⟩ := Option.bind_eq_some_iff.1 reached
      obtain ⟨parts, moments, left, during, lengths, seen⟩ := ih rest
      have onward : states move visit w (ev :: events) = w.state :: states move visit next events := by
        rw [states, taken]
      cases ev with
      | move l =>
          obtain ⟨s, -, rfl⟩ := step_move taken
          refine ⟨parts, moments, left, ?_, lengths, seen⟩
          rw [onward]
          exact during.cons _
      | visit c =>
          obtain ⟨x, behind, split, rfl⟩ := step_visit taken
          refine ⟨x :: parts, w.state :: moments, ?_, ?_, congrArg (· + 1) lengths, ?_⟩
          · rw [split, List.cons_append]
            exact congrArg _ left
          · rw [onward]
            exact during.cons_cons _
          · rw [seen, Walk.visited, looks, List.zipWith_cons_cons, List.append_assoc]
            rfl

end Walks

end ZetDb.Theory.Walks
