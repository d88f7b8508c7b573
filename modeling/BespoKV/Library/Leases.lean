import Mathlib.Data.Finset.Card
import Mathlib.Logic.Function.Basic

/-!
# Leases

A store whose entries expire, with the two conditional operations that locks are built from:
set a key that is free, and delete a key that has a given value.  An entry survives both until
it expires, unless it is deleted by its own value.

A lease spread over many stores is held by whoever has a majority of them: two majorities
meet.
-/

namespace Leases

variable {κ υ : Type} [DecidableEq κ] [DecidableEq υ]

/-- A value and the time at which it disappears. -/
structure Entry (υ : Type) where
  val : υ
  expires : Int
  deriving DecidableEq, Repr

/-- The entries of a server.  An entry that has expired may still be there. -/
abbrev Store (κ υ : Type) := κ → Option (Entry υ)

namespace Store

/-- The value of a key at a given time. -/
def get (store : Store κ υ) (now : Int) (key : κ) : Option υ :=
  match store key with
  | some entry => if now < entry.expires then some entry.val else none
  | none => none

def del (store : Store κ υ) (key : κ) : Store κ υ := Function.update store key none

/-- Set a key for `ttl` if it has no value, and tell whether it was set. -/
def setNx (store : Store κ υ) (now : Int) (key : κ) (val : υ) (ttl : Int) : Bool × Store κ υ :=
  if 0 < ttl ∧ store.get now key = none then
    (true, Function.update store key (some ⟨val, now + ttl⟩))
  else
    (false, store)

/-- Delete a key if it has the given value. -/
def delIf (store : Store κ υ) (now : Int) (key : κ) (val : υ) : Store κ υ :=
  if store.get now key = some val then store.del key else store

/-- The key has the value, and does not lose it by itself before the deadline. -/
def Keeps (store : Store κ υ) (key : κ) (val : υ) (deadline : Int) : Prop :=
  ∃ expires, store key = some ⟨val, expires⟩ ∧ deadline ≤ expires

variable {store : Store κ υ} {now deadline ttl : Int} {key other : κ} {val new : υ}

omit [DecidableEq κ] [DecidableEq υ] in
theorem Keeps.get_eq (keeps : store.Keeps key val deadline) (early : now < deadline) :
    store.get now key = some val := by
  obtain ⟨expires, stored, late⟩ := keeps
  simp only [get, stored]
  exact if_pos (lt_of_lt_of_le early late)

omit [DecidableEq κ] [DecidableEq υ] in
/-- Before both deadlines a key has one value. -/
theorem Keeps.val_eq (first : store.Keeps key val deadline) (second : store.Keeps key new ttl) :
    val = new := by
  obtain ⟨_, stored, _⟩ := first
  obtain ⟨_, same, _⟩ := second
  rw [stored] at same
  exact congrArg Entry.val (Option.some.inj same)

omit [DecidableEq υ] in
/-- A key that has a value is not set again. -/
theorem Keeps.setNx (keeps : store.Keeps key val deadline) (early : now < deadline) :
    (store.setNx now other new ttl).2.Keeps key val deadline := by
  unfold Store.setNx
  split
  next free =>
    have different : key ≠ other := by
      rintro rfl
      rw [keeps.get_eq early] at free
      cases free.2
    simpa only [Store.Keeps, Function.update_of_ne different] using keeps
  · exact keeps

/-- A key is deleted by its own value only. -/
theorem Keeps.delIf (keeps : store.Keeps key val deadline) (early : now < deadline)
    (foreign : ¬(other = key ∧ new = val)) :
    (store.delIf now other new).Keeps key val deadline := by
  unfold Store.delIf
  split
  next found =>
    have different : key ≠ other := by
      rintro rfl
      rw [keeps.get_eq early] at found
      exact foreign ⟨rfl, (Option.some.inj found).symm⟩
    simpa only [Store.Keeps, del, Function.update_of_ne different] using keeps
  · exact keeps

omit [DecidableEq υ] in
/-- A key that was set has the value for `ttl`. -/
theorem keeps_of_setNx (set : (store.setNx now key val ttl).1 = true) :
    (store.setNx now key val ttl).2.Keeps key val (now + ttl) := by
  unfold setNx at set ⊢
  split at set
  next free =>
    rw [if_pos free]
    exact ⟨now + ttl, Function.update_self .., le_refl _⟩
  · cases set

end Store

/-- Two majorities of the same servers have one in common. -/
theorem exists_mem_of_majorities {servers : Nat} {first second : Finset Nat}
    (among : first ⊆ Finset.range servers) (amongToo : second ⊆ Finset.range servers)
    (most : servers / 2 + 1 ≤ first.card) (mostToo : servers / 2 + 1 ≤ second.card) :
    ∃ server, server ∈ first ∧ server ∈ second := by
  have crowded : (Finset.range servers).card < first.card + second.card := by
    rw [Finset.card_range]
    omega
  obtain ⟨server, common⟩ :=
    Finset.inter_nonempty_of_card_lt_card_add_card among amongToo crowded
  exact ⟨server, Finset.mem_inter.mp common⟩

end Leases
