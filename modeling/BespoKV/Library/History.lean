import Mathlib.Logic.Function.Basic
import Mathlib.Data.List.Induction

/-!
# Maps written by a history

A history is a list of operations, some of which write a value to a key.  Replaying
it gives a map, and what that map holds for a key is what the last write to the key
wrote.
-/

namespace History

variable {κ ν α : Type} [DecidableEq κ]

/-- The effect of one operation on a map. -/
def apply (write? : α → Option (κ × ν)) (store : κ → Option ν) (operation : α) :
    κ → Option ν :=
  match write? operation with
  | some (key, value) => Function.update store key (some value)
  | none => store

/-- The map a history leaves behind. -/
def replay (write? : α → Option (κ × ν)) (history : List α) : κ → Option ν :=
  history.foldl (apply write?) fun _ => none

variable {write? : α → Option (κ × ν)} {store : κ → Option ν} {operation : α}
variable {key : κ} {value : ν} {history : List α}

theorem apply_write (writes : write? operation = some (key, value)) :
    apply write? store operation key = some value := by
  simp [apply, writes]

theorem apply_other (other : ∀ value, write? operation ≠ some (key, value)) :
    apply write? store operation key = store key := by
  cases writes : write? operation with
  | none => simp [apply, writes]
  | some pair =>
      have different : key ≠ pair.1 := by
        rintro rfl
        exact other pair.2 writes
      simp [apply, writes, different]

theorem replay_append (history : List α) (operation : α) :
    replay write? (history ++ [operation]) = apply write? (replay write? history) operation := by
  simp [replay]

theorem replay_map {β : Type} (f : β → α) (history : List β) :
    replay write? (history.map f) = replay (write? ∘ f) history :=
  List.foldl_map

/-- A history played on a map overrides what the map held. -/
theorem foldl_apply (store : κ → Option ν) (history : List α) (key : κ) :
    history.foldl (apply write?) store key = (replay write? history key).or (store key) := by
  induction history using List.reverseRecOn with
  | nil => rfl
  | append_singleton history last ih =>
      rw [replay_append, List.foldl_append, List.foldl_cons, List.foldl_nil]
      by_cases writes : ∃ value, write? last = some (key, value)
      · obtain ⟨value, writes⟩ := writes
        simp only [apply_write writes, Option.some_or]
      · push Not at writes
        rw [apply_other writes, apply_other writes, ih]

/-- The oldest operation matters where no later one writes. -/
theorem replay_cons (operation : α) (history : List α) (key : κ) :
    replay write? (operation :: history) key =
      (replay write? history key).or (apply write? (fun _ => none) operation key) := by
  rw [replay, List.foldl_cons, foldl_apply]

/-- Operations that do not write to a key may be left out. -/
theorem replay_filter {keep : α → Bool} (silent : ∀ operation ∈ history,
    keep operation = false → ∀ value, write? operation ≠ some (key, value)) :
    replay write? (history.filter keep) key = replay write? history key := by
  induction history using List.reverseRecOn with
  | nil => rfl
  | append_singleton history last ih =>
      have before := ih fun operation member =>
        silent operation (List.mem_append_left _ member)
      rw [List.filter_append, replay_append]
      cases kept : keep last with
      | false =>
          rw [List.filter_cons_of_neg (by simp [kept]), List.filter_nil, List.append_nil, before,
            apply_other (silent last (by simp) kept)]
      | true =>
          rw [List.filter_cons_of_pos kept, List.filter_nil, replay_append]
          by_cases writes : ∃ value, write? last = some (key, value)
          · obtain ⟨value, writes⟩ := writes
            rw [apply_write writes, apply_write writes]
          · push Not at writes
            rw [apply_other writes, apply_other writes, before]

/-- What a history leaves behind was written by one of its operations. -/
theorem exists_of_replay (held : replay write? history key = some value) :
    ∃ operation ∈ history, write? operation = some (key, value) := by
  induction history using List.reverseRecOn with
  | nil => cases held
  | append_singleton history last ih =>
      rw [replay_append] at held
      by_cases writes : ∃ newest, write? last = some (key, newest)
      · obtain ⟨newest, writes⟩ := writes
        rw [apply_write writes] at held
        cases held
        exact ⟨last, by simp, writes⟩
      · push Not at writes
        rw [apply_other writes] at held
        obtain ⟨operation, member, written⟩ := ih held
        exact ⟨operation, List.mem_append_left _ member, written⟩

/-- The value `held` for a key is that of a write with no write to the key after it, and
this write is `operation` or a later one. -/
def Reflects (write? : α → Option (κ × ν)) (history : List α) (key : κ) (held : Option ν)
    (operation : α) : Prop :=
  ∃ earlier write later value, history = earlier ++ write :: later ∧
    write? write = some (key, value) ∧ held = some value ∧
    (∀ other ∈ later, ∀ value, write? other ≠ some (key, value)) ∧
    operation ∈ earlier ++ [write]

/-- A replayed history reflects every write in it. -/
theorem replay_reflects (member : operation ∈ history)
    (writes : write? operation = some (key, value)) :
    Reflects write? history key (replay write? history key) operation := by
  induction history using List.reverseRecOn with
  | nil => cases member
  | append_singleton history last ih =>
      by_cases overwrites : ∃ value, write? last = some (key, value)
      · obtain ⟨newest, written⟩ := overwrites
        refine ⟨history, last, [], newest, rfl, written, ?_, by simp, member⟩
        rw [replay_append, apply_write written]
      · push Not at overwrites
        have inside : operation ∈ history := by
          rcases List.mem_append.mp member with inside | isLast
          · exact inside
          · rw [List.mem_singleton.mp isLast] at writes
            exact absurd writes (overwrites value)
        obtain ⟨earlier, write, later, held, rfl, written, holds, silent, before⟩ := ih inside
        refine ⟨earlier, write, later ++ [last], held, by simp, written, ?_, ?_, before⟩
        · rw [replay_append, apply_other overwrites, holds]
        · intro other position
          rcases List.mem_append.mp position with old | new
          · exact silent other old
          · rw [List.mem_singleton.mp new]
            exact overwrites

end History
