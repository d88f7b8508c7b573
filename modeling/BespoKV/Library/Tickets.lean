import Mathlib.Order.Defs.LinearOrder
import Mathlib.Data.List.Basic
import Mathlib.Data.Prod.Lex

/-!
# Locks granted in ticket order

Whoever wants the lock takes a ticket, and tickets are given out in increasing order.  A
ticket is granted when no ticket it conflicts with and that was given out before it is
still there.  Then tickets that conflict are never held together, and they are granted
in the order in which they were given out.
-/

namespace Tickets

variable {τ ρ : Type} [LinearOrder ρ]

/-- The tickets that are there and, in order, those that were granted. -/
structure Hall (τ : Type) where
  live : List τ := []
  granted : List τ := []

variable (rank : τ → ρ) (conflict : τ → τ → Prop)

/-- What can happen. -/
inductive Move (hall : Hall τ) : Hall τ → Prop where
  /-- a new ticket is given out -/
  | enter (ticket : τ) (isNew : ∀ other ∈ hall.live ++ hall.granted, rank other < rank ticket) :
      Move hall { hall with live := hall.live ++ [ticket] }
  /-- a ticket is granted that nothing it conflicts with is ahead of -/
  | grant (ticket : τ) (present : ticket ∈ hall.live) (once : ticket ∉ hall.granted)
      (clear : ∀ other ∈ hall.live, conflict ticket other → ¬rank other < rank ticket) :
      Move hall { hall with granted := hall.granted ++ [ticket] }
  /-- tickets are given back -/
  | leave {live : List τ} (fewer : ∀ ticket ∈ live, ticket ∈ hall.live) :
      Move hall { hall with live }

/-- Granted tickets are ahead of everything they conflict with. -/
structure Orderly (hall : Hall τ) : Prop where
  distinct : ∀ first ∈ hall.live, ∀ second ∈ hall.live, rank first = rank second → first = second
  ahead : ∀ ticket ∈ hall.granted, ∀ other ∈ hall.live, conflict ticket other → other ≠ ticket →
    rank ticket < rank other
  ordered : hall.granted.Pairwise fun first second =>
    conflict first second → rank first < rank second

variable {rank conflict} {hall after : Hall τ}

theorem Orderly.empty (granted : hall.granted = []) (live : hall.live = []) :
    Orderly rank conflict hall := by
  constructor <;> simp [granted, live]

/-- Every move keeps the order. -/
theorem Orderly.move (orderly : Orderly rank conflict hall) (move : Move rank conflict hall after) :
    Orderly rank conflict after := by
  cases move with
  | enter ticket isNew =>
      refine ⟨?_, ?_, orderly.ordered⟩
      · intro first isFirst second isSecond same
        rw [List.mem_append, List.mem_singleton] at isFirst isSecond
        rcases isFirst with old | rfl <;> rcases isSecond with other | rfl
        · exact orderly.distinct first old second other same
        · exact absurd same (isNew first (List.mem_append_left _ old)).ne
        · exact absurd same (isNew second (List.mem_append_left _ other)).ne'
        · rfl
      · intro granted member other isOther conflicts different
        rw [List.mem_append, List.mem_singleton] at isOther
        rcases isOther with old | rfl
        · exact orderly.ahead granted member other old conflicts different
        · exact isNew granted (List.mem_append_right _ member)
  | grant ticket present once clear =>
      refine ⟨orderly.distinct, ?_, ?_⟩
      · intro granted member other isOther conflicts different
        rw [List.mem_append, List.mem_singleton] at member
        rcases member with old | rfl
        · exact orderly.ahead granted old other isOther conflicts different
        · refine lt_of_le_of_ne (not_lt.mp (clear other isOther conflicts)) fun same => ?_
          exact different (orderly.distinct other isOther granted present same.symm)
      · rw [List.pairwise_append]
        refine ⟨orderly.ordered, List.pairwise_singleton _ _, ?_⟩
        intro granted member last isLast conflicts
        rw [List.mem_singleton] at isLast
        subst isLast
        refine orderly.ahead granted member last present conflicts ?_
        rintro rfl
        exact once member
  | leave fewer =>
      refine ⟨?_, ?_, orderly.ordered⟩
      · intro first isFirst second isSecond
        exact orderly.distinct first (fewer first isFirst) second (fewer second isSecond)
      · intro granted member other isOther
        exact orderly.ahead granted member other (fewer other isOther)

/-- Tickets that conflict are not held together. -/
theorem Orderly.exclusive (orderly : Orderly rank conflict hall) {first second : τ}
    (symmetric : conflict first second → conflict second first) (different : first ≠ second)
    (isFirst : first ∈ hall.granted) (firstLive : first ∈ hall.live)
    (isSecond : second ∈ hall.granted) (secondLive : second ∈ hall.live) :
    ¬conflict first second := by
  intro conflicts
  have one := orderly.ahead first isFirst second secondLive conflicts different.symm
  have two := orderly.ahead second isSecond first firstLive (symmetric conflicts) different
  exact lt_asymm one two

end Tickets
