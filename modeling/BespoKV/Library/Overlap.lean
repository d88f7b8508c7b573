import BespoKV.Library.History

/-!
# Replicas that apply writes in different orders

Writes are received, applied by every replica in some order, and last of all by one
distinguished replica.  A write is pending until then.  If writes to one key are
pending together only when they write the same value, replicas disagree about a key
only while a write to it is pending.
-/

namespace Overlap

variable {ι ω κ ν : Type}

/-- What has been received, what every replica has applied and what it holds. -/
structure Replicas (ι ω κ ν : Type) where
  received : ω → Prop
  applied : ι → ω → Prop
  store : ι → κ → Option ν

variable (write? : ω → Option (κ × ν)) (last : ι)

/-- A write that the last replica has not applied. -/
structure Pending (replicas : Replicas ι ω κ ν) (key : κ) (value : ν) (write : ω) : Prop where
  received : replicas.received write
  unapplied : ¬replicas.applied last write
  writes : write? write = some (key, value)

/-- Replicas agree up to pending writes. -/
structure Agreeing (replicas : Replicas ι ω κ ν) : Prop where
  /-- pending writes to one key write one value -/
  same : ∀ key x y v w, Pending write? last replicas key v x →
    Pending write? last replicas key w y → v = w
  /-- a replica that has applied a pending write holds its value -/
  wrote : ∀ i key value write, Pending write? last replicas key value write →
    replicas.applied i write → replicas.store i key = some value
  /-- a replica that has applied no pending write to a key agrees with the last one -/
  agree : ∀ i key, (∀ value write, Pending write? last replicas key value write →
    ¬replicas.applied i write) → replicas.store i key = replicas.store last key

variable {write? last} {replicas later : Replicas ι ω κ ν}

/-- A new write that is compatible with the pending ones. -/
private theorem Agreeing.receive {write : ω} (agreeing : Agreeing write? last replicas)
    (fresh : ∀ i, ¬replicas.applied i write)
    (compatible : ∀ key v w other, write? write = some (key, v) →
      Pending write? last replicas key w other → w = v)
    (received : ∀ x, later.received x ↔ replicas.received x ∨ x = write)
    (applied : later.applied = replicas.applied) (store : later.store = replicas.store) :
    Agreeing write? last later := by
  have cases : ∀ {key value x}, Pending write? last later key value x →
      Pending write? last replicas key value x ∨ x = write := by
    rintro key value x ⟨known, unapplied, writes⟩
    rw [applied] at unapplied
    exact ((received x).mp known).imp_left fun old => ⟨old, unapplied, writes⟩
  have keep : ∀ {key value x}, Pending write? last replicas key value x →
      Pending write? last later key value x := by
    rintro key value x ⟨known, unapplied, writes⟩
    exact ⟨(received x).mpr (.inl known), by rwa [applied], writes⟩
  constructor
  · intro key x y v w first second
    rcases cases first with firstOld | rfl
    · rcases cases second with secondOld | rfl
      · exact agreeing.same key x y v w firstOld secondOld
      · exact compatible key w v x second.writes firstOld
    · rcases cases second with secondOld | rfl
      · exact (compatible key v w y first.writes secondOld).symm
      · exact congrArg Prod.snd (Option.some.inj (first.writes.symm.trans second.writes))
  · intro i key value x pending done
    rw [applied] at done
    rw [store]
    rcases cases pending with old | rfl
    · exact agreeing.wrote i key value x old done
    · exact absurd done (fresh i)
  · intro i key none
    rw [store]
    rw [applied] at none
    exact agreeing.agree i key fun value x old => none value x (keep old)

/-- Replicas agree when no write is pending. -/
theorem Agreeing.store_eq (agreeing : Agreeing write? last replicas)
    (settled : ∀ x, replicas.received x → replicas.applied last x) (i : ι) (key : κ) :
    replicas.store i key = replicas.store last key :=
  agreeing.agree i key fun _ x pending _ => pending.unapplied (settled x pending.received)

/-- Replicas that have received nothing and hold the same. -/
theorem Agreeing.of_empty (nothing : ∀ x, ¬replicas.received x)
    (store : ∀ i key, replicas.store i key = replicas.store last key) :
    Agreeing write? last replicas :=
  ⟨fun _ x _ _ _ first _ => absurd first.received (nothing x),
    fun _ _ _ x pending _ => absurd pending.received (nothing x), fun i key _ => store i key⟩

variable [DecidableEq ι] [DecidableEq κ]

variable (write? last) in
/-- The moves of the replicas. -/
inductive Move (replicas later : Replicas ι ω κ ν) : Prop where
  | receive (write : ω) (fresh : ∀ i, ¬replicas.applied i write)
      (compatible : ∀ key v w other, write? write = some (key, v) →
        Pending write? last replicas key w other → w = v)
      (received : ∀ x, later.received x ↔ replicas.received x ∨ x = write)
      (applied : later.applied = replicas.applied) (store : later.store = replicas.store)
  | apply (i : ι) (write : ω) (known : replicas.received write)
      (unapplied : ¬replicas.applied i write)
      (early : i ≠ last → ¬replicas.applied last write)
      (late : i = last → ∀ pair, write? write = some pair → ∀ j, j ≠ last →
        replicas.applied j write)
      (received : later.received = replicas.received)
      (applied : ∀ j x, later.applied j x ↔ replicas.applied j x ∨ j = i ∧ x = write)
      (store : later.store = Function.update replicas.store i
        (History.apply write? (replicas.store i) write))

section Apply

variable {i : ι} {write : ω} (agreeing : Agreeing write? last replicas)
variable (known : replicas.received write)
variable (received : later.received = replicas.received)
variable (applied : ∀ j x, later.applied j x ↔ replicas.applied j x ∨ j = i ∧ x = write)
variable (store : later.store = Function.update replicas.store i
  (History.apply write? (replicas.store i) write))
include agreeing known received applied store

omit agreeing known received applied in
private theorem store_other {j : ι} (other : j ≠ i) (key : κ) :
    later.store j key = replicas.store j key := by
  rw [store, Function.update_of_ne other]

omit agreeing known received applied in
private theorem store_here {key : κ} (silent : ∀ value, write? write ≠ some (key, value)) :
    later.store i key = replicas.store i key := by
  rw [store, Function.update_self]
  exact History.apply_other silent

/-- A replica before the last one applies a write, which stays pending. -/
private theorem Agreeing.applyEarly (inner : i ≠ last)
    (early : ¬replicas.applied last write) : Agreeing write? last later := by
  have pendingIff : ∀ {key value x}, Pending write? last later key value x ↔
      Pending write? last replicas key value x := by
    intro key value x
    have same : later.applied last x ↔ replicas.applied last x := by
      simp [applied, inner.symm]
    constructor
    · rintro ⟨got, unapplied, writes⟩
      exact ⟨received ▸ got, fun done => unapplied (same.mpr done), writes⟩
    · rintro ⟨got, unapplied, writes⟩
      exact ⟨received ▸ got, fun done => unapplied (same.mp done), writes⟩
  have lastStore : ∀ key, later.store last key = replicas.store last key :=
    store_other store inner.symm
  constructor
  · intro key x y v w first second
    exact agreeing.same key x y v w (pendingIff.mp first) (pendingIff.mp second)
  · intro j key value x pending done
    have old := pendingIff.mp pending
    by_cases here : j = i
    · subst here
      by_cases writes : ∃ newest, write? write = some (key, newest)
      · obtain ⟨newest, writes⟩ := writes
        have value_eq := agreeing.same key x write value newest old ⟨known, early, writes⟩
        rw [store, Function.update_self, History.apply_write writes, value_eq]
      · push Not at writes
        rw [store_here store writes]
        rcases (applied j x).mp done with before | ⟨_, rfl⟩
        · exact agreeing.wrote j key value x old before
        · exact absurd old.writes (writes value)
    · rw [store_other store here]
      refine agreeing.wrote j key value x old ?_
      simpa [applied, here] using done
  · intro j key none
    rw [lastStore]
    have before : replicas.store j key = replicas.store last key :=
      agreeing.agree j key fun value x old done =>
        none value x (pendingIff.mpr old) ((applied j x).mpr (.inl done))
    by_cases here : j = i
    · subst here
      have silent : ∀ value, write? write ≠ some (key, value) := by
        intro value writes
        exact none value write (pendingIff.mpr ⟨known, early, writes⟩)
          ((applied j write).mpr (.inr ⟨rfl, rfl⟩))
      rw [store_here store silent, before]
    · rw [store_other store here, before]

/-- The last replica applies a write that all others have applied. -/
private theorem Agreeing.applyLast (isLast : i = last)
    (unapplied : ¬replicas.applied last write)
    (late : ∀ pair, write? write = some pair → ∀ j, j ≠ last → replicas.applied j write) :
    Agreeing write? last later := by
  subst isLast
  have old : ∀ {key value x}, Pending write? i later key value x →
      Pending write? i replicas key value x := by
    rintro key value x ⟨got, missing, writes⟩
    exact ⟨received ▸ got, fun done => missing ((applied i x).mpr (.inl done)), writes⟩
  have new : ∀ {key value x}, Pending write? i replicas key value x → x ≠ write →
      Pending write? i later key value x := by
    rintro key value x ⟨got, missing, writes⟩ different
    refine ⟨received ▸ got, fun done => ?_, writes⟩
    rcases (applied i x).mp done with before | ⟨_, isWrite⟩
    · exact missing before
    · exact different isWrite
  constructor
  · intro key x y v w first second
    exact agreeing.same key x y v w (old first) (old second)
  · intro j key value x pending done
    by_cases here : j = i
    · exact absurd (here ▸ done) pending.unapplied
    · rw [store_other store here]
      exact agreeing.wrote j key value x (old pending) (by simpa [applied, here] using done)
  · intro j key none
    by_cases here : j = i
    · rw [here]
    · rw [store_other store here]
      by_cases writes : ∃ value, write? write = some (key, value)
      · obtain ⟨value, writes⟩ := writes
        rw [store, Function.update_self, History.apply_write writes]
        exact agreeing.wrote j key value write ⟨known, unapplied, writes⟩
          (late _ writes j here)
      · push Not at writes
        rw [store_here store writes]
        refine agreeing.agree j key fun value x pending done => ?_
        have different : x ≠ write := by
          rintro rfl
          exact writes value pending.writes
        exact none value x (new pending different) ((applied j x).mpr (.inl done))

end Apply

/-- Every move keeps replicas in agreement up to pending writes. -/
theorem Agreeing.move (agreeing : Agreeing write? last replicas)
    (move : Move write? last replicas later) : Agreeing write? last later := by
  cases move with
  | receive write fresh compatible received applied store =>
      exact agreeing.receive fresh compatible received applied store
  | apply i write known unapplied early late received applied store =>
      by_cases isLast : i = last
      · exact agreeing.applyLast known received applied store isLast (isLast ▸ unapplied)
          (late isLast)
      · exact agreeing.applyEarly known received applied store isLast (early isLast)

end Overlap
