/-
# Theory.Linearizable -- interleaved calls with the effects of a sequential object

A run of `Theory.Calls` is linearizable when its calls can be put in a sequence in
which a sequential object gives each of them the answer that it got.  The sequence
respects real time: the effect of a call is placed at one of the call's own turns,
and the effects stand in the order of their places.  So a call that has returned
comes before every call that has taken no turn yet.

The proof rule is a simulation with three kinds of turns (`EffectPoints`): a call
whose effect is still to come may move on in silence, or its effect is taken now and
its answer settled; and a call whose effect is taken only brings its answer home.
-/
import ZetDb.Theory.Calls
import Mathlib.Data.List.Induction
import Mathlib.Data.List.Nodup
import Mathlib.Order.Basic

namespace ZetDb.Theory.Linearizable

set_option autoImplicit false

open ZetDb.Theory.Runs ZetDb.Theory.Calls

/-- A call in the sequence: the turn at which its effect is placed, the time and the answer. -/
structure Effect (γ τ ρ : Type) where
  call : Nat
  op : γ
  place : Nat
  time : τ
  answer : ρ

section Linearizable

variable {σ ω γ ρ χ τ : Type}

/-- The sequential object gives the answers in turn, from one state to the other. -/
def Legal (spec : γ → τ → ω → ρ × ω) : ω → List (Effect γ τ ρ) → ω → Prop
  | w, [], w' => w = w'
  | w, f :: fs, w' => (spec f.op f.time w).1 = f.answer ∧ Legal spec (spec f.op f.time w).2 fs w'

theorem Legal.append {spec : γ → τ → ω → ρ × ω} {w w' w'' : ω} {fs gs : List (Effect γ τ ρ)}
    (first : Legal spec w fs w') (second : Legal spec w' gs w'') : Legal spec w (fs ++ gs) w'' := by
  induction fs generalizing w with
  | nil =>
      cases first
      exact second
  | cons f fs ih => exact ⟨first.1, ih first.2⟩

/-- What has been settled is the answer: returned, or on its way. -/
def Settled (Done : γ → ρ → Prop) (answer : ρ) : Progress γ ρ → Prop
  | .at q => Done q answer
  | .returned result => result = answer

/-- Before its effect, or settled by it. -/
def Stands (Open : γ → γ → Prop) (Done : γ → ρ → Prop) (effects : List (Effect γ τ ρ)) (i : Nat) (p : γ)
    (progress : Progress γ ρ) : Prop :=
  (∃ q, progress = .at q ∧ Open p q ∧ ∀ f ∈ effects, f.call ≠ i) ∨
    ∃ f ∈ effects, f.call = i ∧ Settled Done f.answer progress

variable {spec : γ → τ → ω → ρ × ω} {Open : γ → γ → Prop} {Done : γ → ρ → Prop} {initial final : ω}
  {ops : List γ} {s s' : State σ γ ρ} {effects : List (Effect γ τ ρ)}

/-- What another call's turn adds leaves a call where it stands. -/
theorem Stands.add {i : Nat} {p : γ} {progress : Progress γ ρ} {f : Effect γ τ ρ}
    (stands : Stands Open Done effects i p progress) (other : f.call ≠ i) :
    Stands Open Done (effects ++ [f]) i p progress := by
  obtain ⟨q, still, here, none⟩ | ⟨g, member, same, settled⟩ := stands
  · refine .inl ⟨q, still, here, ?_⟩
    intro g member
    rcases List.mem_append.1 member with before | new
    · exact none g before
    · cases List.mem_singleton.1 new
      exact other
  · exact .inr ⟨g, List.mem_append_left _ member, same, settled⟩

/-- The calls stand as before where the turn is not theirs. -/
theorem known_set {effects' : List (Effect γ τ ρ)} {j : Nat} {next : Progress γ ρ}
    (known : ∀ i progress, s.calls[i]? = some progress → ∃ p, ops[i]? = some p ∧
      Stands Open Done effects i p progress)
    (others : ∀ i p progress, i ≠ j → Stands Open Done effects i p progress →
      Stands Open Done effects' i p progress)
    {p : γ} (own : ops[j]? = some p) (moved : Stands Open Done effects' j p next) (i : Nat)
    (progress : Progress γ ρ) (there : (s.calls.set j next)[i]? = some progress) :
    ∃ p, ops[i]? = some p ∧ Stands Open Done effects' i p progress := by
  by_cases same : i = j
  · subst same
    have inside : i < s.calls.length := by
      by_contra beyond
      rw [List.getElem?_eq_none (by rw [List.length_set]; omega)] at there
      cases there
    rw [List.getElem?_set_self inside] at there
    cases there
    exact ⟨p, own, moved⟩
  · rw [List.getElem?_set_ne (Ne.symm same)] at there
    obtain ⟨q, op, stands⟩ := known i progress there
    exact ⟨q, op, others i q progress same stands⟩

section Clock

variable [Preorder τ] (now later : χ → τ)

/-- The effects of a run in their order: legal, at most one a call, each at a turn of its
call and at a time between the readings of the clock there. -/
structure Sequence (spec : γ → τ → ω → ρ × ω) (initial : ω) (ops : List γ) (turns : List (Turn χ))
    (effects : List (Effect γ τ ρ)) (final : ω) : Prop where
  legal : Legal spec initial effects final
  once : (effects.map Effect.call).Nodup
  ordered : effects.Pairwise fun f g => f.place < g.place
  named : ∀ f ∈ effects, ops[f.call]? = some f.op
  placed : ∀ f ∈ effects, ∃ t, turns[f.place]? = some t ∧ t.call = f.call ∧ now t.choice ≤ f.time ∧
    f.time ≤ later t.choice

/-- Every call that has returned has its effect among them, with the answer it got. -/
structure Linearization (spec : γ → τ → ω → ρ × ω) (initial : ω) (ops : List γ) (turns : List (Turn χ))
    (calls : List (Progress γ ρ)) (effects : List (Effect γ τ ρ)) (final : ω) : Prop extends
    Sequence now later spec initial ops turns effects final where
  answered : ∀ i answer, calls[i]? = some (.returned answer) → ∃ f ∈ effects, f.call = i ∧ f.answer = answer

/-- The clock goes forward, within the turns and from one to the next. -/
def Clocked (turns : List (Turn χ)) : Prop :=
  (∀ t ∈ turns, now t.choice ≤ later t.choice) ∧ turns.Pairwise fun t u => later t.choice ≤ now u.choice

/-- The simulation: `Open p q` at a point before the effect of the call `p`, `Done q a`
at one behind it. -/
structure EffectPoints (code : γ → χ → σ → Progress γ ρ × σ) (spec : γ → τ → ω → ρ × ω)
    (P : State σ γ ρ → Turn χ → Prop) (Open : γ → γ → Prop) (Done : γ → ρ → Prop)
    (R : τ → σ → ω → Prop) : Prop where
  lasts : ∀ {t u s w}, t ≤ u → R t s w → R u s w
  opened : ∀ {s : State σ γ ρ} {t : Turn χ} {p q w}, s.calls[t.call]? = some (.at q) → P s t → Open p q →
    R (now t.choice) s.shared w → now t.choice ≤ later t.choice →
    (∃ q', (code q t.choice s.shared).1 = .at q' ∧ Open p q' ∧
      R (later t.choice) (code q t.choice s.shared).2 w) ∨
    ∃ time, (now t.choice ≤ time ∧ time ≤ later t.choice) ∧
      Settled Done (spec p time w).1 (code q t.choice s.shared).1 ∧
      R (later t.choice) (code q t.choice s.shared).2 (spec p time w).2
  done : ∀ {t : Turn χ} {q answer s w}, Done q answer → R (now t.choice) s w → now t.choice ≤ later t.choice →
    Settled Done answer (code q t.choice s).1 ∧ R (later t.choice) (code q t.choice s).2 w

/-- The invariant: the calls stand as the sequence says, and the two states are related from now on. -/
structure Tracked (spec : γ → τ → ω → ρ × ω) (Open : γ → γ → Prop) (Done : γ → ρ → Prop)
    (R : τ → σ → ω → Prop) (initial : ω) (ops : List γ) (turns : List (Turn χ)) (s : State σ γ ρ)
    (effects : List (Effect γ τ ρ)) (final : ω) : Prop extends
    Sequence now later spec initial ops turns effects final where
  known : ∀ i progress, s.calls[i]? = some progress → ∃ p, ops[i]? = some p ∧
    Stands Open Done effects i p progress
  related : ∀ u, (∀ t ∈ turns, later t.choice ≤ u) → R u s.shared final

variable {now later} {code : γ → χ → σ → Progress γ ρ × σ} {P : State σ γ ρ → Turn χ → Prop}
  {R : τ → σ → ω → Prop} {turns : List (Turn χ)} {t : Turn χ}

theorem Tracked.linearization
    (tracked : Tracked now later spec Open Done R initial ops turns s effects final) :
    Linearization now later spec initial ops turns s.calls effects final where
  toSequence := tracked.toSequence
  answered := by
    intro i answer returned
    obtain ⟨p, -, ⟨q, still, -⟩ | ⟨f, member, same, settled⟩⟩ := tracked.known i _ returned
    · cases still
    · exact ⟨f, member, same, Eq.symm settled⟩

theorem tracked_start {e : σ} (first : ∀ p ∈ ops, Open p p) (related : ∀ u, R u e initial) :
    Tracked now later spec Open Done R initial ops [] ⟨e, ops.map .at⟩ [] initial where
  legal := rfl
  once := List.nodup_nil
  ordered := .nil
  named := by
    intro f member
    cases member
  placed := by
    intro f member
    cases member
  known := by
    intro i progress there
    obtain ⟨p, here, rfl⟩ := Option.map_eq_some_iff.1 ((List.getElem?_map).symm.trans there)
    refine ⟨p, here, .inl ⟨p, rfl, first p (List.mem_of_getElem? here), ?_⟩⟩
    intro f member
    cases member
  related := fun u _ => related u

/-- Behind another turn the places are those of before. -/
theorem placed_append {fs : List (Effect γ τ ρ)}
    (placed : ∀ f ∈ fs, ∃ t, turns[f.place]? = some t ∧ t.call = f.call ∧ now t.choice ≤ f.time ∧
      f.time ≤ later t.choice) :
    ∀ f ∈ fs, ∃ u, (turns ++ [t])[f.place]? = some u ∧ u.call = f.call ∧ now u.choice ≤ f.time ∧
      f.time ≤ later u.choice := by
  intro f member
  obtain ⟨u, there, rest⟩ := placed f member
  refine ⟨u, ?_, rest⟩
  rw [List.getElem?_append_left (List.getElem?_eq_some_iff.1 there).1, there]

/-- A turn without an effect. -/
theorem Tracked.silent {p : γ} {next : Progress γ ρ} {shared : σ}
    (tracked : Tracked now later spec Open Done R initial ops turns s effects final)
    (own : ops[t.call]? = some p) (moved : Stands Open Done effects t.call p next)
    (related : ∀ u, later t.choice ≤ u → R u shared final) :
    Tracked now later spec Open Done R initial ops (turns ++ [t]) ⟨shared, s.calls.set t.call next⟩ effects
      final where
  legal := tracked.legal
  once := tracked.once
  ordered := tracked.ordered
  named := tracked.named
  placed := placed_append tracked.placed
  known := known_set tracked.known (fun _ _ _ _ stands => stands) own moved
  related := fun u behind => related u (behind t (by simp))

/-- A turn with the effect of its call. -/
theorem Tracked.effect {p : γ} {next : Progress γ ρ} {shared : σ} {time : τ}
    (tracked : Tracked now later spec Open Done R initial ops turns s effects final)
    (own : ops[t.call]? = some p) (fresh : ∀ f ∈ effects, f.call ≠ t.call)
    (between : now t.choice ≤ time ∧ time ≤ later t.choice)
    (settled : Settled Done (spec p time final).1 next)
    (related : ∀ u, later t.choice ≤ u → R u shared (spec p time final).2) :
    Tracked now later spec Open Done R initial ops (turns ++ [t]) ⟨shared, s.calls.set t.call next⟩
      (effects ++ [⟨t.call, p, turns.length, time, (spec p time final).1⟩]) (spec p time final).2 where
  legal := tracked.legal.append ⟨rfl, rfl⟩
  once := by
    rw [List.map_append, List.nodup_append]
    refine ⟨tracked.once, List.nodup_singleton _, ?_⟩
    intro i inside j new
    obtain ⟨f, member, rfl⟩ := List.mem_map.1 inside
    cases List.mem_singleton.1 new
    exact fresh f member
  ordered := by
    rw [List.pairwise_append]
    refine ⟨tracked.ordered, List.pairwise_singleton _ _, ?_⟩
    intro f member g new
    cases List.mem_singleton.1 new
    obtain ⟨u, there, -⟩ := tracked.placed f member
    exact (List.getElem?_eq_some_iff.1 there).1
  named := by
    intro f member
    rcases List.mem_append.1 member with before | new
    · exact tracked.named f before
    · cases List.mem_singleton.1 new
      exact own
  placed := by
    intro f member
    rcases List.mem_append.1 member with before | new
    · exact placed_append tracked.placed f before
    · cases List.mem_singleton.1 new
      exact ⟨t, by simp, rfl, between⟩
  known := by
    refine known_set tracked.known ?_ own ?_
    · intro i q progress other stands
      exact stands.add (Ne.symm other)
    · exact .inr ⟨_, List.mem_append_right _ (List.mem_singleton.2 rfl), rfl, settled⟩
  related := fun u behind => related u (behind t (by simp))

/-- One turn keeps the invariant, with at most one effect more. -/
theorem Tracked.step (points : EffectPoints now later code spec P Open Done R)
    (tracked : Tracked now later spec Open Done R initial ops turns s effects final)
    (clocked : Clocked now later (turns ++ [t])) (here : P s t) (taken : step code s t = some s') :
    ∃ effects' final', Tracked now later spec Open Done R initial ops (turns ++ [t]) s' effects' final' := by
  obtain ⟨q, standing, rfl⟩ := step_cases taken
  obtain ⟨p, own, stands⟩ := tracked.known t.call _ standing
  have forward : now t.choice ≤ later t.choice := clocked.1 t (by simp)
  have before : ∀ u ∈ turns, later u.choice ≤ now t.choice := by
    intro u member
    exact (List.pairwise_append.1 clocked.2).2.2 u member t (List.mem_singleton.2 rfl)
  have related := tracked.related (now t.choice) before
  obtain ⟨q', same, opened, fresh⟩ | ⟨f, member, same, settled⟩ := stands
  · cases same
    obtain ⟨q', next, opened', related'⟩ | ⟨time, between, settled, related'⟩ :=
      points.opened standing here opened related forward
    · refine ⟨effects, final, tracked.silent own (.inl ⟨q', next, opened', fresh⟩) ?_⟩
      exact fun u behind => points.lasts behind related'
    · refine ⟨_, _, tracked.effect own fresh between settled ?_⟩
      exact fun u behind => points.lasts behind related'
  · obtain ⟨settled', related'⟩ := points.done settled related forward
    refine ⟨effects, final, tracked.silent own (.inr ⟨f, member, same, settled'⟩) ?_⟩
    exact fun u behind => points.lasts behind related'

theorem Clocked.init (clocked : Clocked now later (turns ++ [t])) : Clocked now later turns :=
  ⟨fun u member => clocked.1 u (List.mem_append_left _ member), (List.pairwise_append.1 clocked.2).1⟩

/-- The rule: with effect points, every run is linearizable, and the states stay related. -/
theorem EffectPoints.linearizable (points : EffectPoints now later code spec P Open Done R) {e : σ}
    (first : ∀ p ∈ ops, Open p p) (related : ∀ u, R u e initial) (clocked : Clocked now later turns)
    (along : Along (Calls.step code) P ⟨e, ops.map .at⟩ turns)
    (reached : run (Calls.step code) ⟨e, ops.map .at⟩ turns = some s) :
    ∃ effects final, Linearization now later spec initial ops turns s.calls effects final ∧
      ∀ u, (∀ t ∈ turns, later t.choice ≤ u) → R u s.shared final := by
  have tracked : ∃ effects final, Tracked now later spec Open Done R initial ops turns s effects final := by
    -- turn by turn from the front: the last turn is split off
    induction turns using List.reverseRecOn generalizing s with
    | nil =>
        cases reached
        exact ⟨[], initial, tracked_start first related⟩
    | append_singleton turns t ih =>
        rw [run_append] at reached
        obtain ⟨mid, before, last⟩ := Option.bind_eq_some_iff.1 reached
        obtain ⟨alongBefore, alongLast⟩ := along.split
        obtain ⟨effects, final, tracked⟩ := ih clocked.init alongBefore before
        obtain ⟨s', taken, same⟩ := Option.bind_eq_some_iff.1 last
        cases same
        exact tracked.step points clocked (alongLast mid before).1 taken
  obtain ⟨effects, final, tracked⟩ := tracked
  exact ⟨effects, final, tracked.linearization, tracked.related⟩

end Clock

end Linearizable

end ZetDb.Theory.Linearizable
