import BespoKV.ZooKeeper.Nodes

/-!
# Exceptions of the ZooKeeper lock

`Unlock` deletes the path node when it has seen no other lock node.  A client that has
just found or created the path then has nowhere to put its node, or has put it there in
time for the deletion to fail.  Nothing else can make a call fail.
-/

namespace BespoKV.ZooKeeper

/-- A client that has no lock node and is not about to create one: it has not started
`Lock`, or its `Unlock` has deleted the node. -/
def Client.outside : Client → Bool
  | .idle _ | .createPath _ | .existsKey _ | .deleteKey _ | .threw _ => true
  | .createChild _ | .list _ | .spin _ _ | .held _ | .unlockList _ | .existsChild _ _
  | .deleteChild _ _ => false

/-- The client an event belongs to. -/
def Event.client : Event → Nat
  | .lock c _ | .unlock c | .call c _ => c

/-- The path node is deleted only when all other clients are outside. -/
def Event.Alone (count : Nat) (system : System) : Event → Prop
  | .call c _ =>
      match system.clients c with
      | .deleteKey _ => ∀ d ∈ List.range count, d ≠ c → (system.clients d).outside = true
      | _ => True
  | _ => True

instance (count : Nat) (system : System) : DecidablePred (Event.Alone count system) := fun event =>
  match event with
  | .call c order =>
      match client : system.clients c with
      | .deleteKey _ => decidable_of_iff
          (∀ d ∈ List.range count, d ≠ c → (system.clients d).outside = true)
          (by simp only [Event.Alone, client])
      | .idle _ | .createPath _ | .createChild _ | .list _ | .spin _ _ | .held _ | .unlockList _
      | .existsChild _ _ | .deleteChild _ _ | .existsKey _ | .threw _ =>
          isTrue (by simp only [Event.Alone, client])
  | .lock _ _ => isTrue trivial
  | .unlock _ => isTrue trivial

theorem Client.own?_of_outside {client : Client} (outside : client.outside = true) :
    client.own? = none := by
  cases client <;> first | rfl | cases outside

namespace System

variable {base : List Char} {count limit : Nat} {system after : System} {event : Event}

/-- No call has thrown, and what was unlocked is gone. -/
structure Unfailing (system : System) : Prop where
  quiet : ∀ c code, system.clients c ≠ .threw code
  removed : ∀ c own, (system.clients c).removed? = some own → own ∉ system.zoo.children

/-- The path is there for everybody who relies on it. -/
structure Safe (limit count : Nat) (system : System) : Prop where
  consistent : system.Consistent limit
  quiet : ∀ c code, system.clients c ≠ .threw code
  rooted : ∀ c write, system.clients c = .createChild write → system.zoo.next ≠ none
  beyond : ∀ c, count ≤ c → system.clients c = .idle none

/-- What a call of one client leaves to show, once the others are safe. -/
private theorem Safe.setClient {c : Nat} {zoo : Zoo} {client : Client} (inside : c < count)
    (safe : system.Safe limit count)
    (consistent : ({ system with zoo }.setClient c client).Consistent limit)
    (quiet : ∀ code, client ≠ .threw code)
    (rooted : ∀ write, client = .createChild write → zoo.next ≠ none)
    (others : ∀ d write, d ≠ c → system.clients d = .createChild write → zoo.next ≠ none) :
    ({ system with zoo }.setClient c client).Safe limit count := by
  refine ⟨consistent, fun d code => ?_, fun d write isCreate => ?_, fun d large => ?_⟩
  · by_cases here : d = c
    · subst here
      simpa [System.setClient] using quiet code
    · simpa [System.setClient, here] using safe.quiet d code
  · by_cases here : d = c
    · subst here
      exact rooted write (by simpa [System.setClient] using isCreate)
    · exact others d write here (by simpa [System.setClient, here] using isCreate)
  · have different : d ≠ c := by omega
    simpa [System.setClient, different] using safe.beyond d large

/-- Clients that never come are outside. -/
private theorem Safe.outside {c : Nat} (safe : system.Safe limit count)
    (alone : ∀ d ∈ List.range count, d ≠ c → (system.clients d).outside = true) {d : Nat}
    (different : d ≠ c) : (system.clients d).outside = true := by
  by_cases small : d < count
  · exact alone d (List.mem_range.mpr small) different
  · rw [safe.beyond d (Nat.not_lt.mp small)]
    rfl

/-- One call. -/
theorem Safe.call {c : Nat} {zoo : Zoo} {client : Client} {order : List Child}
    (fits : limit ≤ 10 ^ 10) (safe : system.Safe limit count) (inside : c < count)
    (bounded : system.Bounded limit) (alone : (Event.call c order).Alone count system)
    (called : Called base system.zoo (system.clients c) zoo client) :
    ({ system with zoo }.setClient c client).Safe limit count := by
  have consistent := safe.consistent.call fits bounded called
  have present : ∀ own, (system.clients c).own? = some own → system.zoo.next ≠ none := by
    intro own mine absent
    have there := (safe.consistent.clients c).owned own mine
    rw [safe.consistent.tidy.rooted absent] at there
    cases there
  have others : ∀ d write, d ≠ c → system.clients d = .createChild write →
      system.zoo.next ≠ none := fun d write _ => safe.rooted d write
  simp only [Event.Alone] at alone
  generalize isClient : system.clients c = before at called present alone
  cases called with
  | created write absent =>
      exact safe.setClient inside consistent (by simp) (by simp) (by simp)
  | found write there =>
      exact safe.setClient inside consistent (by simp) (fun _ _ => there) others
  | ticket write seq next => exact safe.setClient inside consistent (by simp) (by simp) (by simp)
  | orphan write absent => exact absurd absent (safe.rooted c write isClient)
  | vanished own absent | unlisted own absent => exact absurd absent (present own rfl)
  | granted | waits | spins | retries | listed | present | keyFound | keyGone | keyMissed =>
      exact safe.setClient inside consistent (by simp) (by simp) others
  | gone own others' | missed own others' | deleted own others' =>
      exact safe.setClient inside consistent (by cases others' <;> simp [afterDelete])
        (by cases others' <;> simp [afterDelete]) others
  | keyDeleted own empty =>
      refine safe.setClient inside consistent (by simp) (by simp)
        fun d write different isCreate => ?_
      have outside := safe.outside alone different
      rw [isCreate] at outside
      cases outside
  | keyBusy own busy =>
      obtain ⟨child, present⟩ := List.exists_mem_of_ne_nil _ busy
      obtain ⟨d, mine⟩ := safe.consistent.owner child present
      have different : d ≠ c := by
        rintro rfl
        rw [isClient] at mine
        cases mine
      rw [Client.own?_of_outside (safe.outside alone different)] at mine
      cases mine

theorem Safe.step (fits : limit ≤ 10 ^ 10) (safe : system.Safe limit count)
    (inside : event.client < count) (bounded : system.Bounded limit)
    (alone : event.Alone count system) (moved : system.step base event = .ok after) :
    after.Safe limit count := by
  have consistent := safe.consistent.step fits bounded moved
  cases event with
  | lock c rw =>
      simp only [System.step] at moved
      split at moved
      · cases moved
        exact safe.setClient inside consistent (by simp) (by simp) fun d write _ =>
          safe.rooted d write
      · cases moved
  | unlock c =>
      simp only [System.step] at moved
      split at moved
      · cases moved
        exact safe.setClient inside consistent (by simp) (by simp) fun d write _ =>
          safe.rooted d write
      · cases moved
  | call c order =>
      simp only [System.step] at moved
      split at moved
      next zoo client called =>
        cases moved
        exact safe.call fits inside bounded alone (call_cases called)
      · cases moved

theorem Safe.init (limit count : Nat) (next : Option Nat) :
    (System.init next).Safe limit count :=
  ⟨.init next, by simp [System.init], by simp [System.init], fun _ _ => rfl⟩

theorem Safe.unfailing (safe : system.Safe limit count) : system.Unfailing :=
  ⟨safe.quiet, fun c own removed => ((safe.consistent.clients c).removed own removed).1⟩

end System

end BespoKV.ZooKeeper
