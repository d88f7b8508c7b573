import Mathlib.Logic.Function.Basic
import Mathlib.Data.List.Basic

/-!
# Locks that carry no owner

A lock server grants a lock on a key when the key is free and frees it for anybody who
asks.  The trace records what the server and the protected resource see; `Sound` ties
it to who acquired each lock, which the server itself does not know.
-/

namespace Locks

variable {τ κ : Type}

/-- What a lock server and the resource it protects see of the requests `τ` on the keys
`κ`. -/
inductive Obs (τ κ : Type) where
  /-- `req`, a write or not, asks for the lock of `key` -/
  | lock (req : τ) (isSet : Bool) (key : κ) (granted : Bool)
  /-- `req` goes to the resource -/
  | forward (req : τ) (key : κ)
  /-- the lock of `key` is deleted on behalf of `req` -/
  | unlock (req : Option τ) (key : κ)
  deriving DecidableEq, Repr

/-- `req`, a write or not, was granted the lock of `key` and has not released it. -/
def Holds (trace : List (Obs τ κ)) (req : τ) (isSet : Bool) (key : κ) : Prop :=
  ∃ before between, trace = before ++ .lock req isSet key true :: between ∧
    Obs.unlock (some req) key ∉ between

/-- A request other than `req`, which holds the lock of `key`, deletes this lock or, if
`req` is a write, is granted it or goes to the resource. -/
def Obs.Intrudes (req : τ) (isSet : Bool) (key : κ) : Obs τ κ → Prop
  | .lock other _ there granted =>
      isSet = true ∧ there = key ∧ granted = true ∧ other ≠ req
  | .forward other there => isSet = true ∧ there = key ∧ other ≠ req
  | .unlock other there => there = key ∧ other ≠ some req

/-- While a write holds the lock of a key, no other request intrudes, and every lock is
deleted by the request that acquired it. -/
def MutualExclusion (trace : List (Obs τ κ)) : Prop :=
  ∀ before obs after, trace = before ++ obs :: after →
    ∀ req isSet key, Holds before req isSet key → ¬obs.Intrudes req isSet key

/-- The trace is exclusive, and `holder` knows the requests that hold locks. -/
structure Sound (holder : κ → Option τ) (trace : List (Obs τ κ)) : Prop where
  exclusive : MutualExclusion trace
  held : ∀ req isSet key, Holds trace req isSet key → holder key = some req

variable {holder : κ → Option τ} {trace : List (Obs τ κ)} {obs : Obs τ κ} {req : τ} {key : κ}
variable {isSet : Bool}

theorem not_holds_nil : ¬Holds ([] : List (Obs τ κ)) req isSet key := by
  rintro ⟨before, between, whole, _⟩
  simp at whole

theorem Sound.init (holder : κ → Option τ) : Sound holder ([] : List (Obs τ κ)) where
  exclusive := by
    intro before obs after whole
    simp at whole
  held := fun req isSet key holds => absurd holds not_holds_nil

/-- How one more observation changes who holds a lock. -/
theorem holds_concat (holds : Holds (trace ++ [obs]) req isSet key) :
    (Holds trace req isSet key ∧ obs ≠ .unlock (some req) key) ∨
      obs = .lock req isSet key true := by
  obtain ⟨before, between, whole, kept⟩ := holds
  rcases List.eq_nil_or_concat' between with rfl | ⟨earlier, last, rfl⟩
  · have parts := List.append_inj' whole rfl
    exact .inr (by simpa using parts.2)
  · rw [← List.cons_append, ← List.append_assoc] at whole
    obtain ⟨same, isLast⟩ := List.append_inj' whole rfl
    have isObs : obs = last := by simpa using isLast
    subst isObs
    simp only [List.mem_append, List.mem_singleton, not_or] at kept
    exact .inl ⟨⟨before, earlier, same, kept.1⟩, fun isUnlock => kept.2 isUnlock.symm⟩

theorem MutualExclusion.concat (exclusive : MutualExclusion trace)
    (allowed : ∀ req isSet key, Holds trace req isSet key → ¬obs.Intrudes req isSet key) :
    MutualExclusion (trace ++ [obs]) := by
  intro before other after whole req isSet key holds
  rcases List.eq_nil_or_concat' after with rfl | ⟨earlier, last, rfl⟩
  · obtain ⟨same, isLast⟩ := List.append_inj' whole rfl
    have isObs : obs = other := by simpa using isLast
    subst same
    subst isObs
    exact allowed req isSet key holds
  · rw [← List.cons_append, ← List.append_assoc] at whole
    obtain ⟨same, _⟩ := List.append_inj' whole rfl
    exact exclusive before other earlier same req isSet key holds

/-- A request that asks for a lock is granted it when nobody holds it. -/
theorem Sound.lock [DecidableEq κ] (sound : Sound holder trace) (req : τ) (isSet : Bool)
    (key : κ) :
    Sound
      (if (holder key).isNone then Function.update holder key (some req) else holder)
      (trace ++ [.lock req isSet key (holder key).isNone]) := by
  constructor
  · refine sound.exclusive.concat ?_
    rintro other wrote there holds ⟨_, rfl, granted, _⟩
    rw [sound.held other wrote key holds] at granted
    cases granted
  · intro other wrote there holds
    rcases holds_concat holds with ⟨old, _⟩ | new
    · have taken := sound.held other wrote there old
      split
      next free =>
        have different : there ≠ key := by
          rintro rfl
          rw [taken] at free
          cases free
        rw [Function.update_of_ne different, taken]
      · exact taken
    · simp only [Obs.lock.injEq] at new
      obtain ⟨rfl, _, rfl, free⟩ := new
      rw [if_pos free, Function.update_self]

/-- The request that acquired the lock goes to the resource. -/
theorem Sound.forward (sound : Sound holder trace) (mine : holder key = some req) :
    Sound holder (trace ++ [.forward req key]) := by
  constructor
  · refine sound.exclusive.concat ?_
    rintro other wrote there holds ⟨_, rfl, different⟩
    rw [sound.held other wrote key holds] at mine
    exact different (Option.some.inj mine).symm
  · intro other wrote there holds
    rcases holds_concat holds with ⟨old, _⟩ | new
    · exact sound.held other wrote there old
    · cases new

/-- The request that acquired the lock deletes it. -/
theorem Sound.unlock [DecidableEq κ] (sound : Sound holder trace)
    (mine : holder key = some req) :
    Sound (Function.update holder key none) (trace ++ [.unlock (some req) key]) := by
  constructor
  · refine sound.exclusive.concat ?_
    rintro other wrote there holds ⟨rfl, different⟩
    rw [sound.held other wrote key holds] at mine
    exact different mine.symm
  · intro other wrote there holds
    rcases holds_concat holds with ⟨old, notReleased⟩ | new
    · have taken := sound.held other wrote there old
      have different : there ≠ key := by
        rintro rfl
        rw [mine] at taken
        exact notReleased (by rw [Option.some.inj taken])
      rw [Function.update_of_ne different, taken]
    · cases new

end Locks
