import Mathlib.Logic.Relation

/-!
# Runs of a guarded, fallible step function

A system is given by a step function that either fails or returns the next state.
A guard restricts which actions a scheduler may choose in which state.  Invariants
are proved of one guarded step and transported to whole runs by the rule below.
-/

namespace Transition

variable {σ α φ : Type}

/-- One successful step under an action the guard admits. -/
def Step (step : σ → α → Except φ σ) (guard : σ → α → Prop) (s t : σ) : Prop :=
  ∃ action, guard s action ∧ step s action = .ok t

/-- Finitely many successful guarded steps. -/
def Runs (step : σ → α → Except φ σ) (guard : σ → α → Prop) : σ → σ → Prop :=
  Relation.ReflTransGen (Step step guard)

variable {step : σ → α → Except φ σ} {guard strict : σ → α → Prop} {s t u : σ}

namespace Runs

theorem refl (s : σ) : Runs step guard s s := Relation.ReflTransGen.refl

theorem trans (first : Runs step guard s t) (second : Runs step guard t u) :
    Runs step guard s u :=
  Relation.ReflTransGen.trans first second

theorem tail {action : α} (run : Runs step guard s t) (admitted : guard t action)
    (moved : step t action = .ok u) : Runs step guard s u :=
  Relation.ReflTransGen.tail run ⟨action, admitted, moved⟩

theorem single {action : α} (admitted : guard s action)
    (moved : step s action = .ok t) : Runs step guard s t :=
  tail (refl s) admitted moved

/-- A property that one guarded step preserves holds at the end of every run. -/
theorem invariant (Inv : σ → Prop)
    (keep : ∀ s action t, Inv s → guard s action → step s action = .ok t → Inv t)
    (run : Runs step guard s t) (start : Inv s) : Inv t := by
  induction run with
  | refl => exact start
  | tail _ last ih =>
      obtain ⟨action, admitted, moved⟩ := last
      exact keep _ action _ ih admitted moved

/-- Two-state form: a relation to the start that survives appending one step. -/
theorem induction (Rel : σ → σ → Prop) (run : Runs step guard s t)
    (start : Rel s s)
    (extend : ∀ t action u, Runs step guard s t → Rel s t → guard t action →
      step t action = .ok u → Rel s u) : Rel s t := by
  induction run with
  | refl => exact start
  | tail before last ih =>
      obtain ⟨action, admitted, moved⟩ := last
      exact extend _ action _ before ih admitted moved

/-- Runs under a stronger guard are runs under the weaker one. -/
theorem weaken (weaker : ∀ s action, strict s action → guard s action)
    (run : Runs step strict s t) : Runs step guard s t := by
  induction run with
  | refl => exact refl s
  | tail _ last ih =>
      obtain ⟨action, admitted, moved⟩ := last
      exact ih.tail (weaker _ action admitted) moved

/-- Where admitted steps can decrease a measure as long as a goal is not reached, some
run reaches it. -/
theorem drain (step : σ → α → Except φ σ) (guard : σ → α → Prop) {s : σ}
    (Inv goal : σ → Prop) (measure : σ → Nat) (start : Inv s)
    (progress : ∀ s, Inv s → ¬goal s → ∃ action t, guard s action ∧
      step s action = .ok t ∧ Inv t ∧ measure t < measure s) :
    ∃ t, Runs step guard s t ∧ Inv t ∧ goal t := by
  induction size : measure s using Nat.strongRecOn generalizing s with
  | ind n ih =>
      by_cases done : goal s
      · exact ⟨s, refl s, start, done⟩
      · obtain ⟨action, t, admitted, moved, kept, less⟩ := progress s start done
        obtain ⟨u, run, holds, reached⟩ := ih (measure t) (size ▸ less) kept rfl
        exact ⟨u, (single admitted moved).trans run, holds, reached⟩

/-- A run that ends in `P` and does not start in it has a step that establishes `P`. -/
theorem crossing (P : σ → Prop) (run : Runs step guard s t) (start : ¬P s) (finish : P t) :
    ∃ u action v, Runs step guard s u ∧ guard u action ∧ step u action = .ok v ∧
      ¬P u ∧ P v ∧ Runs step guard v t := by
  induction run with
  | refl => exact absurd finish start
  | @tail middle last before moved ih =>
      by_cases already : P middle
      · obtain ⟨u, action, v, first, admitted, crossed, without, established, rest⟩ := ih already
        exact ⟨u, action, v, first, admitted, crossed, without, established,
          Relation.ReflTransGen.tail rest moved⟩
      · obtain ⟨action, admitted, crossed⟩ := moved
        exact ⟨middle, action, last, before, admitted, crossed, already, finish, refl last⟩

end Runs

/-- Execute a list of actions, checking the guard before each one. -/
def exec (step : σ → α → Except φ σ) (guard : σ → α → Prop)
    [∀ s action, Decidable (guard s action)] (s : σ) : List α → Option σ
  | [] => some s
  | action :: rest =>
      if guard s action then
        match step s action with
        | .ok t => exec step guard t rest
        | .error _ => none
      else
        none

/-- What the executor returns is reached by a guarded run. -/
theorem Runs.of_exec [∀ s action, Decidable (guard s action)] {actions : List α}
    (executed : exec step guard s actions = some t) : Runs step guard s t := by
  induction actions generalizing s with
  | nil =>
      cases executed
      exact Runs.refl _
  | cons action rest ih =>
      simp only [exec] at executed
      split at executed
      next admitted =>
        split at executed
        next next moved => exact (Runs.single admitted moved).trans (ih executed)
        next => cases executed
      next => cases executed

/-- A Boolean question about the state an execution ends in is answered by
evaluating the execution. -/
theorem Runs.exists_of_exec (step : σ → α → Except φ σ) (guard : σ → α → Prop)
    [∀ s action, Decidable (guard s action)] (s : σ) (actions : List α) (post : σ → Bool)
    (executed : (exec step guard s actions).any post = true) :
    ∃ t, Runs step guard s t ∧ post t = true := by
  obtain ⟨t, reached, holds⟩ := (Option.any_eq_true post _).mp executed
  exact ⟨t, Runs.of_exec reached, holds⟩

/-- The same for an execution with one action singled out. -/
theorem Runs.exists_around (step : σ → α → Except φ σ) (guard : σ → α → Prop)
    [∀ s action, Decidable (guard s action)] (s : σ) (first : List α) (action : α)
    (rest : List α) (post : σ → σ → Bool)
    (executed : (exec step guard s first).any (fun before =>
      (exec step guard before (action :: rest)).any (post before)) = true) :
    ∃ before next after, Runs step guard s before ∧ guard before action ∧
      step before action = .ok next ∧ Runs step guard next after ∧
      post before after = true := by
  obtain ⟨before, reached, later⟩ := (Option.any_eq_true _ _).mp executed
  obtain ⟨after, finished, holds⟩ := (Option.any_eq_true _ _).mp later
  simp only [exec] at finished
  split at finished
  next admitted =>
    split at finished
    next next moved =>
      exact ⟨before, next, after, Runs.of_exec reached, admitted, moved, Runs.of_exec finished,
        holds⟩
    · cases finished
  · cases finished

end Transition
