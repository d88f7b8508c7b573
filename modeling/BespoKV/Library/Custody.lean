import Mathlib.Logic.Basic

/-!
# Custody

Items that lie in places: a list, a local variable of a thread, memory that is not allocated yet.
Every item is in exactly one place at a time, and a step moves some items to one place.
-/

namespace Custody

variable {π ι : Type}

/-- `Lies place item` for exactly one place of every item. -/
def Exact (Lies : π → ι → Prop) : Prop :=
  ∃ place : ι → π, ∀ there item, Lies there item ↔ place item = there

variable {Lies After : π → ι → Prop} {here there : π} {item : ι}

theorem Exact.unique (exact : Exact Lies) (first : Lies here item) (second : Lies there item) :
    here = there := by
  obtain ⟨place, lies⟩ := exact
  rw [← (lies here item).mp first, (lies there item).mp second]

theorem Exact.exists_place (exact : Exact Lies) (item : ι) : ∃ there, Lies there item := by
  obtain ⟨place, lies⟩ := exact
  exact ⟨place item, (lies _ _).mpr rfl⟩

theorem Exact.congr (exact : Exact Lies) (same : ∀ there item, After there item ↔ Lies there item) :
    Exact After := by
  obtain ⟨place, lies⟩ := exact
  exact ⟨place, fun there item => (same there item).trans (lies there item)⟩

/-- Some items move from one place to another. -/
theorem Exact.transfer (exact : Exact Lies) (source target : π) (moved : ι → Prop)
    (different : source ≠ target) (origin : ∀ item, moved item → Lies source item)
    (leave : ∀ item, After source item ↔ Lies source item ∧ ¬moved item)
    (arrive : ∀ item, After target item ↔ Lies target item ∨ moved item)
    (stay : ∀ there ≠ source, there ≠ target → ∀ item, After there item ↔ Lies there item) :
    Exact After := by
  classical
  obtain ⟨place, lies⟩ := exact
  refine ⟨fun item => if moved item then target else place item, fun there item => ?_⟩
  dsimp only
  by_cases isMoved : moved item
  · have here := (lies source item).mp (origin item isMoved)
    rw [if_pos isMoved]
    by_cases isSource : there = source
    · subst isSource
      rw [leave]
      exact ⟨fun both => absurd isMoved both.2, fun same => absurd same.symm different⟩
    · by_cases isTarget : there = target
      · subst isTarget
        rw [arrive]
        exact ⟨fun _ => rfl, fun _ => .inr isMoved⟩
      · rw [stay there isSource isTarget, lies, here]
        exact ⟨fun same => absurd same.symm isSource, fun same => absurd same.symm isTarget⟩
  · rw [if_neg isMoved, ← lies]
    by_cases isSource : there = source
    · subst isSource
      rw [leave]
      exact and_iff_left isMoved
    · by_cases isTarget : there = target
      · subst isTarget
        rw [arrive]
        exact or_iff_left isMoved
      · exact stay there isSource isTarget item

end Custody
