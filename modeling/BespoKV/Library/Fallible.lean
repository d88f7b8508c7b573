import Mathlib.Data.List.Basic

/-!
# Computations that can fail

A computation in `Except` that has succeeded can be taken apart, and an invariant of one round
of a loop over a list holds after the loop.  Two computations agree where they fail alike or
return related results.
-/

namespace Fallible

variable {φ α β σ : Type}

/-- Both computations fail alike, or both return and the results are related. -/
inductive Agree (Rel : α → β → Prop) : Except φ α → Except φ β → Prop where
  | error (fault : φ) : Agree Rel (.error fault) (.error fault)
  | ok {left : α} {right : β} (related : Rel left right) : Agree Rel (.ok left) (.ok right)

theorem Agree.of_ok {Rel : α → β → Prop} {left : Except φ α} {result : β}
    (agree : Agree Rel left (.ok result)) : ∃ other, left = .ok other ∧ Rel other result := by
  cases agree with
  | ok related => exact ⟨_, rfl, related⟩

theorem Agree.of_ok_left {Rel : α → β → Prop} {right : Except φ β} {result : α}
    (agree : Agree Rel (.ok result) right) : ∃ other, right = .ok other ∧ Rel result other := by
  cases agree with
  | ok related => exact ⟨_, rfl, related⟩

@[simp] theorem ok_bind (result : α) (next : α → Except φ β) :
    (Except.ok result >>= next) = next result := rfl

@[simp] theorem error_bind (fault : φ) (next : α → Except φ β) :
    (Except.error fault >>= next) = .error fault := rfl

/-- What a sequence of two computations has returned. -/
theorem exists_of_bind {first : Except φ α} {next : α → Except φ β} {result : β}
    (succeeded : first >>= next = .ok result) :
    ∃ middle, first = .ok middle ∧ next middle = .ok result := by
  cases first with
  | error fault => cases succeeded
  | ok middle => exact ⟨middle, rfl, succeeded⟩

theorem mapM_of_forall_ok {f : α → Except φ β} {g : α → β} {list : List α}
    (each : ∀ entry ∈ list, f entry = .ok (g entry)) : list.mapM f = .ok (list.map g) := by
  induction list with
  | nil => rfl
  | cons entry list ih =>
      have rest := ih fun other member => each other (List.mem_cons_of_mem _ member)
      rw [List.mapM_cons, each entry List.mem_cons_self, ok_bind, rest, ok_bind]
      rfl

theorem exists_ok_of_mapM {f : α → Except φ β} {list : List α} {results : List β}
    (succeeded : list.mapM f = .ok results) : ∀ entry ∈ list, ∃ result, f entry = .ok result := by
  induction list generalizing results with
  | nil => simp
  | cons first list ih =>
      rw [List.mapM_cons] at succeeded
      obtain ⟨result, here, succeeded⟩ := exists_of_bind succeeded
      obtain ⟨_, rest, -⟩ := exists_of_bind succeeded
      exact List.forall_mem_cons.mpr ⟨⟨result, here⟩, ih rest⟩

/-- A property of the rounds so far and of the state, kept by one round of a loop. -/
theorem foldlM_invariant {step : σ → α → Except φ σ} (Inv : List α → σ → Prop)
    (keep : ∀ done state item next, Inv done state → step state item = .ok next →
      Inv (done ++ [item]) next)
    {done items : List α} {state last : σ} (start : Inv done state)
    (succeeded : items.foldlM step state = .ok last) : Inv (done ++ items) last := by
  induction items generalizing done state with
  | nil =>
      cases succeeded
      rwa [List.append_nil]
  | cons item items ih =>
      rw [List.foldlM_cons] at succeeded
      obtain ⟨next, moved, rest⟩ := exists_of_bind succeeded
      have kept := ih (keep done state item next start moved) rest
      rwa [List.append_assoc] at kept

/-- A loop none of whose rounds fails, where a property of the rounds so far and of the state is
kept. -/
theorem exists_foldlM {step : σ → α → Except φ σ} (Inv : List α → σ → Prop) {items : List α}
    (succeeds : ∀ before item later state, items = before ++ item :: later → Inv before state →
      ∃ next, step state item = .ok next ∧ Inv (before ++ [item]) next)
    {state : σ} (start : Inv [] state) : ∃ last, items.foldlM step state = .ok last := by
  suffices rest : ∀ done left state, items = done ++ left → Inv done state →
      ∃ last, left.foldlM step state = .ok last from rest [] items state rfl start
  intro done left
  induction left generalizing done with
  | nil => exact fun state _ _ => ⟨state, rfl⟩
  | cons item left ih =>
      intro state whole inv
      obtain ⟨next, moved, kept⟩ := succeeds done item left state whole inv
      obtain ⟨last, rest⟩ := ih (done ++ [item]) next (by simpa using whole) kept
      exact ⟨last, by rw [List.foldlM_cons, moved, ok_bind, rest]⟩

end Fallible
