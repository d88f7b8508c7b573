import BespoKV.Library.History

/-!
# Replicas fed by a log and by direct streams

Requests reach replicas through streams, each of which delivers in order; writes are also
recorded in a log.  A stream may break and then deliver anything.  If, for every key, the
newest pending write of every stream writes what the newest write in the log wrote, then
a replica differs from the log only while something is pending for it.
-/

namespace Streams

open History

variable {ι σ ω κ ν : Type} [DecidableEq κ]

/-- The log, the streams with the replicas they lead to, and what replicas hold. -/
structure Flow (ι σ ω κ ν : Type) where
  log : List ω
  place : σ → Option ι
  pending : σ → List ω
  broken : σ → Prop
  store : ι → κ → Option ν

variable (write? : ω → Option (κ × ν)) (fed : ι → Prop)

/-- Something that may change a key is still on its way. -/
def Flow.Unsettled (flow : Flow ι σ ω κ ν) (key : κ) (s : σ) : Prop :=
  flow.broken s ∨ replay write? (flow.pending s) key ≠ none

/-- Replicas agree with the log up to what is pending. -/
structure Agreeing (flow : Flow ι σ ω κ ν) : Prop where
  newest : ∀ s key value, ¬flow.broken s → replay write? (flow.pending s) key = some value →
    replay write? flow.log key = some value
  settled : ∀ i, fed i → ∀ key, flow.store i key = replay write? flow.log key ∨
    ∃ s, flow.place s = some i ∧ flow.Unsettled write? key s

variable {write? fed} {flow later : Flow ι σ ω κ ν}

/-- Replicas that nothing is pending for agree with the log. -/
theorem Agreeing.store_eq (agreeing : Agreeing write? fed flow) {i : ι} (isFed : fed i)
    (healthy : ∀ s, flow.place s = some i → ¬flow.broken s)
    (empty : ∀ s, flow.place s = some i → flow.pending s = []) (key : κ) :
    flow.store i key = replay write? flow.log key := by
  refine (agreeing.settled i isFed key).resolve_right ?_
  rintro ⟨s, here, broken | pending⟩
  · exact healthy s here broken
  · rw [empty s here] at pending
    exact pending rfl

theorem Agreeing.of_empty (log : flow.log = []) (pending : ∀ s, flow.pending s = [])
    (store : ∀ i key, flow.store i key = none) : Agreeing write? fed flow := by
  constructor
  · intro s key value _ writes
    rw [pending s] at writes
    cases writes
  · intro i _ key
    rw [store, log]
    exact .inl rfl

/-- What is common to all moves: streams stay broken and, as long as they matter, keep
their place. -/
structure Keeps (flow later : Flow ι σ ω κ ν) : Prop where
  broken : ∀ s, flow.broken s → later.broken s
  place : ∀ s i, flow.place s = some i → flow.broken s ∨ flow.pending s ≠ [] →
    later.place s = some i

/-- A stream that is unsettled keeps its place. -/
theorem Keeps.place_eq (keeps : Keeps flow later) {s : σ} {i : ι} {key : κ}
    (here : flow.place s = some i) (unsettled : flow.Unsettled write? key s) :
    later.place s = some i := by
  refine keeps.place s i here (unsettled.imp_right fun pending empty => ?_)
  rw [empty] at pending
  exact pending rfl

/-- Nothing is written. -/
theorem Agreeing.quiet (agreeing : Agreeing write? fed flow) (keeps : Keeps flow later)
    (log : later.log = flow.log) (store : later.store = flow.store)
    (pending : ∀ s, ¬later.broken s → ∀ key,
      replay write? (later.pending s) key = replay write? (flow.pending s) key) :
    Agreeing write? fed later := by
  constructor
  · intro s key value healthy writes
    rw [pending s healthy] at writes
    rw [log]
    exact agreeing.newest s key value (fun broken => healthy (keeps.broken s broken)) writes
  · intro i isFed key
    rw [store, log]
    refine (agreeing.settled i isFed key).imp_right ?_
    rintro ⟨s, here, unsettled⟩
    refine ⟨s, keeps.place_eq here unsettled, ?_⟩
    by_cases broken : later.broken s
    · exact .inl broken
    · rcases unsettled with old | waiting
      · exact .inl (keeps.broken s old)
      · exact .inr (by rwa [pending s broken])

/-- A copy of a write joins what is pending on a stream. -/
def Flow.Joins (write? : ω → Option (κ × ν)) (flow later : Flow ι σ ω κ ν) (write : ω) (s : σ) :
    Prop :=
  ∃ copy, write? copy = write? write ∧ later.pending s = flow.pending s ++ [copy]

theorem Flow.Joins.replay {write : ω} {s : σ} {key : κ} {value : ν}
    (joins : flow.Joins write? later write s) (writes : write? write = some (key, value)) :
    History.replay write? (later.pending s) =
      Function.update (History.replay write? (flow.pending s)) key (some value) := by
  obtain ⟨copy, same, pending⟩ := joins
  rw [pending, replay_append, apply, same, writes]

/-- A write enters the log and the streams, at least one for every replica.  The other
streams have nothing different pending for its key. -/
theorem Agreeing.write {write : ω} {key : κ} {value : ν}
    (agreeing : Agreeing write? fed flow) (keeps : Keeps flow later)
    (writes : write? write = some (key, value)) (log : later.log = flow.log ++ [write])
    (store : later.store = flow.store)
    (joins : ∀ s, ¬later.broken s → flow.Joins write? later write s ∨
      later.pending s = flow.pending s ∧
        ∀ other, replay write? (flow.pending s) key = some other → other = value)
    (reaches : ∀ i, fed i → ∃ s, later.place s = some i ∧
      (later.broken s ∨ flow.Joins write? later write s)) :
    Agreeing write? fed later := by
  have newLog : replay write? later.log =
      Function.update (replay write? flow.log) key (some value) := by
    rw [log, replay_append, apply, writes]
  constructor
  · intro s there newest healthy found
    have old : ¬flow.broken s := fun broken => healthy (keeps.broken s broken)
    rw [newLog]
    rcases joins s healthy with joined | ⟨same, compatible⟩
    · rw [joined.replay writes] at found
      by_cases here : there = key
      · subst here
        simpa using found
      · rw [Function.update_of_ne here] at found ⊢
        exact agreeing.newest s there newest old found
    · rw [same] at found
      by_cases here : there = key
      · subst here
        rw [Function.update_self, compatible newest found]
      · rw [Function.update_of_ne here]
        exact agreeing.newest s there newest old found
  · intro i isFed there
    by_cases here : there = key
    · subst here
      obtain ⟨s, place, reached⟩ := reaches i isFed
      refine .inr ⟨s, place, reached.imp_right fun joined => ?_⟩
      rw [joined.replay writes, Function.update_self]
      exact Option.some_ne_none value
    · rw [store, newLog, Function.update_of_ne here]
      refine (agreeing.settled i isFed there).imp_right ?_
      rintro ⟨s, place, unsettled⟩
      refine ⟨s, keeps.place_eq place unsettled, ?_⟩
      by_cases broken : later.broken s
      · exact .inl broken
      · rcases unsettled with old | waiting
        · exact .inl (keeps.broken s old)
        · refine .inr ?_
          rcases joins s broken with joined | ⟨same, _⟩
          · rwa [joined.replay writes, Function.update_of_ne here]
          · rwa [same]

/-- A replica takes the oldest request of a stream. -/
theorem Agreeing.serve [DecidableEq ι] {s : σ} {i : ι} {request : ω}
    (agreeing : Agreeing write? fed flow) (keeps : Keeps flow later)
    (here : flow.place s = some i) (log : later.log = flow.log)
    (taken : flow.pending s = request :: later.pending s)
    (others : ∀ other, other ≠ s → later.pending other = flow.pending other)
    (store : later.store = Function.update flow.store i
      (apply write? (flow.store i) request)) : Agreeing write? fed later := by
  have still : ∀ key other, flow.Unsettled write? key other → other ≠ s →
      later.Unsettled write? key other := by
    rintro key other (old | waiting) different
    · exact .inl (keeps.broken other old)
    · exact .inr (by rwa [others other different])
  have cons : ∀ key, replay write? (flow.pending s) key =
      (replay write? (later.pending s) key).or (apply write? (fun _ => none) request key) := by
    intro key
    rw [taken, replay_cons]
  constructor
  · intro other key value healthy found
    have old : ¬flow.broken other := fun broken => healthy (keeps.broken other broken)
    rw [log]
    refine agreeing.newest other key value old ?_
    by_cases same : other = s
    · subst same
      rw [cons, found, Option.some_or]
    · rwa [← others other same]
  · intro j isFed key
    rw [log]
    have place : later.place s = some i :=
      keeps.place s i here (.inr (by rw [taken]; exact List.cons_ne_nil _ _))
    -- what is unsettled afterwards on this stream, if anything
    by_cases unsettled : j = i ∧ later.Unsettled write? key s
    · obtain ⟨rfl, unsettled⟩ := unsettled
      exact .inr ⟨s, place, unsettled⟩
    by_cases writes : j = i ∧ ∃ value, write? request = some (key, value)
    · obtain ⟨rfl, value, writes⟩ := writes
      obtain ⟨healthy, last⟩ := not_or.mp fun some => unsettled ⟨rfl, some⟩
      rw [not_not] at last
      have newest : replay write? (flow.pending s) key = some value := by
        rw [cons, last, Option.none_or, apply_write writes]
      rw [store, Function.update_self, apply_write writes]
      exact .inl (agreeing.newest s key value (fun old => healthy (keeps.broken s old))
        newest).symm
    · have same : later.store j key = flow.store j key := by
        by_cases atI : j = i
        · subst atI
          rw [store, Function.update_self]
          exact apply_other fun value isWrite => writes ⟨rfl, value, isWrite⟩
        · rw [store, Function.update_of_ne atI]
      rw [same]
      refine (agreeing.settled j isFed key).imp_right ?_
      rintro ⟨other, there, pending⟩
      by_cases isS : other = s
      · subst isS
        obtain rfl : j = i := Option.some.inj (there.symm.trans here)
        refine absurd ⟨rfl, ?_⟩ unsettled
        refine pending.imp (keeps.broken other) fun waiting none => waiting ?_
        rw [cons, none, Option.none_or]
        exact apply_other fun value isWrite => writes ⟨rfl, value, isWrite⟩
      · exact ⟨other, keeps.place_eq there pending, still key other pending isS⟩

end Streams
