import Mathlib.Data.List.Sort
import Mathlib.Order.Basic

/-!
# Points on a ring

A target on a ring belongs to the first point at or after it, or to the first point of all
where none follows.  The point is found by binary search in a sorted list.  A set of points
can grow: a target then keeps its point or gets a new one.
-/

namespace PointRing

variable {ι α : Type} [LinearOrder ι] {place : α → ι} {target : ι}
variable {points more : List α} {point other : α}

/-- The point is the first one at or after the target, with wrapping. -/
def IsSuccessor (place : α → ι) (points : List α) (target : ι) (point : α) : Prop :=
  point ∈ points ∧
    (target ≤ place point ∧ (∀ other ∈ points, target ≤ place other → place point ≤ place other) ∨
      (∀ other ∈ points, place other < target) ∧ ∀ other ∈ points, place point ≤ place other)

namespace IsSuccessor

theorem place_eq (first : IsSuccessor place points target point)
    (second : IsSuccessor place points target other) : place point = place other := by
  obtain ⟨member, ⟨after, least⟩ | ⟨before, least⟩⟩ := first
  · obtain ⟨otherMember, ⟨otherAfter, otherLeast⟩ | ⟨otherBefore, -⟩⟩ := second
    · exact le_antisymm (least other otherMember otherAfter) (otherLeast point member after)
    · exact absurd (otherBefore point member) (not_lt.mpr after)
  · obtain ⟨otherMember, ⟨otherAfter, -⟩ | ⟨-, otherLeast⟩⟩ := second
    · exact absurd (before other otherMember) (not_lt.mpr otherAfter)
    · exact le_antisymm (least other otherMember) (otherLeast point member)

/-- A point that is still there after others have been removed is still the one. -/
theorem of_subset (first : IsSuccessor place more target point) (subset : points ⊆ more)
    (member : point ∈ points) : IsSuccessor place points target point := by
  obtain ⟨-, ⟨after, least⟩ | ⟨before, least⟩⟩ := first
  · exact ⟨member, .inl ⟨after, fun other mem => least other (subset mem)⟩⟩
  · exact ⟨member, .inr ⟨fun other mem => before other (subset mem),
      fun other mem => least other (subset mem)⟩⟩

theorem map {β : Type} {image : β → α} {points : List β} {point : β}
    (first : IsSuccessor (fun point => place (image point)) points target point) :
    IsSuccessor place (points.map image) target (image point) := by
  refine ⟨List.mem_map_of_mem first.1, ?_⟩
  simpa only [List.forall_mem_map] using first.2

end IsSuccessor

/-! ## Binary search -/

/-- `std::lower_bound` on `count` elements from `first` on: the first one that is not below
the target.  Each round more than halves `count`, which bounds the number of rounds. -/
def search (below : α → Bool) (points : List α) : Nat → Nat → Nat → Nat
  | 0, first, _ => first
  | fuel + 1, first, count =>
      if count = 0 then first
      else
        let step := count / 2
        if (points[first + step]?).any below then
          search below points fuel (first + step + 1) (count - (step + 1))
        else search below points fuel first step

/-- `std::lower_bound` on a whole list. -/
def lowerBound (below : α → Bool) (points : List α) : Nat :=
  search below points points.length 0 points.length

/-- The elements before an index are below the target, those from another one on are not. -/
def Split (below : α → Bool) (points : List α) (low high : Nat) : Prop :=
  (∀ index point, index < low → points[index]? = some point → below point = true) ∧
    ∀ index point, high ≤ index → points[index]? = some point → below point = false

theorem search_split {below : α → Bool}
    (sorted : points.Pairwise fun left right => below right = true → below left = true)
    {fuel first count : Nat} (enough : count ≤ fuel) (inside : first + count ≤ points.length)
    (split : Split below points first (first + count)) :
    Split below points (search below points fuel first count)
      (search below points fuel first count) := by
  induction fuel generalizing first count with
  | zero =>
      obtain rfl : count = 0 := Nat.le_zero.mp enough
      exact split
  | succ fuel ih =>
      rw [search]
      by_cases empty : count = 0
      · subst empty
        exact split
      · rw [if_neg empty]
        dsimp only
        have middle : first + count / 2 < points.length := by omega
        have found := List.getElem?_eq_getElem middle
        rw [found, Option.any_some]
        cases compared : below points[first + count / 2] with
        | true =>
            rw [if_pos rfl]
            refine ih (by omega) (by omega) ⟨fun index point before at? => ?_, ?_⟩
            · -- All up to the middle are below the target because the middle is.
              obtain ⟨bound, rfl⟩ := List.getElem?_eq_some_iff.mp at?
              rcases Nat.lt_succ_iff_lt_or_eq.mp before with earlier | rfl
              · exact List.pairwise_iff_getElem.mp sorted index _ bound middle earlier compared
              · exact compared
            · have upper : first + count / 2 + 1 + (count - (count / 2 + 1)) = first + count := by
                omega
              rw [upper]
              exact split.2
        | false =>
            rw [if_neg Bool.false_ne_true]
            refine ih (by omega) (by omega) ⟨split.1, fun index point after at? => ?_⟩
            obtain ⟨bound, rfl⟩ := List.getElem?_eq_some_iff.mp at?
            rcases Nat.eq_or_lt_of_le after with rfl | later
            · exact compared
            · by_contra isBelow
              have earlier := List.pairwise_iff_getElem.mp sorted _ index middle bound later
                (Bool.not_eq_false _ ▸ isBelow)
              rw [compared] at earlier
              cases earlier

theorem lowerBound_split {below : α → Bool}
    (sorted : points.Pairwise fun left right => below right = true → below left = true) :
    Split below points (lowerBound below points) (lowerBound below points) := by
  refine search_split sorted le_rfl (by omega)
    ⟨fun index _ before => ?_, fun index _ after at? => ?_⟩
  · omega
  · have := (List.getElem?_eq_some_iff.mp at?).1
    omega

theorem search_le (below : α → Bool) (points : List α) (fuel first count : Nat) :
    search below points fuel first count ≤ first + count := by
  induction fuel generalizing first count with
  | zero => exact Nat.le_add_right first count
  | succ fuel ih =>
      rw [search]
      split
      · exact Nat.le_add_right first count
      · dsimp only
        split
        · refine (ih _ _).trans ?_
          omega
        · refine (ih _ _).trans ?_
          omega

/-- The index of the point of a target in a sorted list: `lower_bound`, or the beginning where
that is the end. -/
def successor (place : α → ι) (points : List α) (target : ι) : Nat :=
  let bound := lowerBound (fun point => decide (place point < target)) points
  if bound = points.length then 0 else bound

theorem search_map {β : Type} (below : α → Bool) (image : β → α) (points : List β)
    (fuel first count : Nat) :
    search below (points.map image) fuel first count =
      search (fun point => below (image point)) points fuel first count := by
  induction fuel generalizing first count with
  | zero => rfl
  | succ fuel ih => simp only [search, List.getElem?_map, Option.any_map, ih]

theorem successor_map {β : Type} (image : β → α) (points : List β) :
    successor place (points.map image) target =
      successor (fun point => place (image point)) points target := by
  simp only [successor, lowerBound, List.length_map, search_map]
  rfl

theorem lowerBound_le (below : α → Bool) (points : List α) :
    lowerBound below points ≤ points.length := by
  simpa [lowerBound] using search_le below points points.length 0 points.length

theorem isSuccessor_of_successor
    (sorted : points.Pairwise fun left right => place left ≤ place right)
    (found : points[successor place points target]? = some point) :
    IsSuccessor place points target point := by
  set bound := lowerBound (fun point => decide (place point < target)) points with hbound
  have split : Split (fun point => decide (place point < target)) points bound bound := by
    refine lowerBound_split (sorted.imp fun ordered => ?_)
    simpa using fun below => lt_of_le_of_lt ordered below
  rw [successor, ← hbound] at found
  split_ifs at found with past
  · obtain ⟨rest, rfl⟩ := List.head?_eq_some_iff.mp (List.head?_eq_getElem?.trans found)
    refine ⟨List.mem_cons_self, .inr ⟨fun other member => ?_, fun other member => ?_⟩⟩
    · obtain ⟨index, valid, rfl⟩ := List.getElem_of_mem member
      exact of_decide_eq_true
        (split.1 index _ (past.symm ▸ valid) (List.getElem?_eq_getElem valid))
    · rcases List.mem_cons.mp member with rfl | later
      · exact le_rfl
      · exact List.rel_of_pairwise_cons sorted later
  · obtain ⟨inside, atBound⟩ := List.getElem?_eq_some_iff.mp found
    have after : target ≤ place point := by simpa using split.2 bound point le_rfl found
    refine ⟨List.mem_of_getElem? found, .inl ⟨after, fun other member follows => ?_⟩⟩
    obtain ⟨index, valid, rfl⟩ := List.getElem_of_mem member
    have later : bound ≤ index := by
      by_contra before
      have below := split.1 index _ (by omega) (List.getElem?_eq_getElem valid)
      exact absurd (of_decide_eq_true below) (not_lt.mpr follows)
    rw [← atBound]
    rcases Nat.eq_or_lt_of_le later with same | strictly
    · simp only [same, le_refl]
    · exact List.pairwise_iff_getElem.mp sorted _ _ inside valid strictly

theorem successor_lt (nonempty : points ≠ []) :
    successor place points target < points.length := by
  have positive := List.length_pos_of_ne_nil nonempty
  have bounded := lowerBound_le (fun point => decide (place point < target)) points
  rw [successor]
  split <;> omega

end PointRing
