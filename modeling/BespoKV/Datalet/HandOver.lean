import BespoKV.Datalet.Dispatch

/-!
# Connections and items are not lost

What the dispatcher puts into the queue of a worker is served by this worker, once and in order,
as long as the bytes reach the pipe; and every item comes back to the free list.
-/

namespace BespoKV.Dispatch

open Custody Transition

/-! ## Where the connections are -/

/-- The connection that the worker is about to register. -/
def Worker.inHand (memory : Nat → CqItem) : Worker → List CqItem
  | .registering item => [memory item]
  | .waiting | .popping | .freeing _ => []

/-- Whether the worker has read a byte and not yet taken an item for it. -/
def Worker.pops : Worker → Nat
  | .popping => 1
  | .waiting | .registering _ | .freeing _ => 0

/-- Whether the byte for the last item in the queue of the thread is still to be written. -/
def Dispatcher.owes (t : Nat) : Dispatcher → Nat
  | .checking tid | .notifying tid => if tid = t then 1 else 0
  | .idle | .taking _ | .allocating _ | .stocking _ _ | .filling _ _ | .pushing _ _ => 0

/-- Whether a thread is chosen for a connection that is not yet in the queue. -/
def Dispatcher.chosen : Dispatcher → Nat
  | .pushing _ _ => 1
  | .idle | .taking _ | .allocating _ | .stocking _ _ | .filling _ _ | .checking _
  | .notifying _ => 0

namespace Server

/-- The connections put into the queue of a thread. -/
def sentTo (server : Server) (t : Nat) : List CqItem :=
  (server.dispatched.filter (·.1 = t)).map Prod.snd

structure Accounted (numThreads : Nat) (server : Server) : Prop where
  /-- what went to a worker is served, in its hand or in its queue, in this order -/
  conserved : ∀ t, server.sentTo t = server.served t ++
    (server.workers t).inHand server.memory ++ (server.newConnQ t).map server.memory
  /-- there is a byte for every item in the queue, unless it could not be written -/
  counted : ∀ t, (server.newConnQ t).length = server.pipe t + (server.workers t).pops +
    server.unnotified t + server.dispatcher.owes t
  started : 0 ≤ server.lastThread + 1
  turn : (server.lastThread + 1) % numThreads =
    ((server.dispatched.length + server.dispatcher.chosen : Nat) : Int) % numThreads
  chosen : ∀ item tid, server.dispatcher = .pushing item tid →
    tid = server.dispatched.length % numThreads
  order : ∀ (k : Nat) entry, server.dispatched[k]? = some entry → entry.1 = k % numThreads

section Accounts

variable {server after : Server} {numThreads t : Nat}

theorem Accounted.init (memory : Nat → CqItem) : Accounted numThreads { memory } where
  conserved := fun _ => rfl
  counted := fun _ => rfl
  started := by
    show (0 : Int) ≤ -1 + 1
    decide
  turn := rfl
  chosen := fun _ _ stands => by cases stands
  order := fun k entry found => by simp at found

/-- The main thread has gone on with `cqi_new`, or to the end. -/
theorem Accounted.stays (accounted : server.Accounted numThreads) (freelist : List Nat)
    (allocated : Nat) (dispatcher : Dispatcher)
    (owes : ∀ t, dispatcher.owes t = server.dispatcher.owes t)
    (chosen : dispatcher.chosen = 0) (before : server.dispatcher.chosen = 0) :
    Accounted numThreads { server with freelist, allocated, dispatcher } where
  conserved := accounted.conserved
  counted := fun t => (accounted.counted t).trans (by rw [owes t])
  started := accounted.started
  turn := by
    rw [chosen, ← before]
    exact accounted.turn
  chosen := by
    rintro item tid rfl
    cases chosen
  order := accounted.order

/-- A worker has gone on: what it was sent is still served, in its hand or in its queue. -/
theorem Accounted.works (accounted : server.Accounted numThreads) (t : Nat) (worker : Worker)
    (freelist : List Nat) (bytes : Nat) (queue : List Nat) (registered : List CqItem)
    (here : registered ++ worker.inHand server.memory ++ queue.map server.memory =
      server.served t ++ (server.workers t).inHand server.memory ++
        (server.newConnQ t).map server.memory)
    (count : queue.length + server.pipe t + (server.workers t).pops =
      (server.newConnQ t).length + bytes + worker.pops) :
    Accounted numThreads { server.setWorker t worker with
      freelist := freelist
      pipe := Function.update server.pipe t bytes
      newConnQ := Function.update server.newConnQ t queue
      served := Function.update server.served t registered } where
  conserved := by
    intro other
    refine (accounted.conserved other).trans ?_
    by_cases same : other = t
    · subst same
      simp [setWorker, ← here]
    · simp [setWorker, same]
  counted := by
    intro other
    have before := accounted.counted other
    by_cases same : other = t
    · subst same
      simp only [setWorker, Function.update_self]
      omega
    · simpa [setWorker, same] using before
  started := accounted.started
  turn := accounted.turn
  chosen := accounted.chosen
  order := accounted.order

theorem sentTo_push (server : Server) (tid : Nat) (conn : CqItem) (t : Nat) :
    sentTo { server with dispatched := server.dispatched ++ [(tid, conn)] } t =
      server.sentTo t ++ if tid = t then [conn] else [] := by
  simp only [sentTo, List.filter_append, List.map_append]
  split
  next same => simp [same]
  next different => simp [different]

/-- A thread is chosen, in turn. -/
theorem Accounted.fill {conn : CqItem} {item : Nat}
    (accounted : server.Accounted numThreads) (tidy : server.Tidy)
    (stands : server.dispatcher = .filling conn item) :
    Accounted numThreads { server with
      lastThread := (server.lastThread + 1).tmod numThreads
      memory := Function.update server.memory item conn
      dispatcher := .pushing item ((server.lastThread + 1).tmod numThreads).toNat } := by
  have untouched : ∀ other, other ≠ item →
      Function.update server.memory item conn other = server.memory other :=
    fun other different => Function.update_of_ne different ..
  have mine : server.Lies .dispatcher item := by simp [Lies, stands, Dispatcher.Holds]
  have turn : (server.lastThread + 1).tmod numThreads =
      ((server.dispatched.length % numThreads : Nat) : Int) := by
    rw [Int.tmod_eq_emod_of_nonneg accounted.started, accounted.turn, stands]
    simp [Dispatcher.chosen]
  constructor
  · intro t
    have queue : (server.newConnQ t).map (Function.update server.memory item conn) =
        (server.newConnQ t).map server.memory := by
      apply List.map_congr_left
      intro other member
      apply untouched
      rintro rfl
      have queued : server.Lies (.queue t) other := member
      exact absurd (tidy.exact.unique queued mine) (by simp)
    have hand : (server.workers t).inHand (Function.update server.memory item conn) =
        (server.workers t).inHand server.memory := by
      cases working : server.workers t with
      | registering other =>
          have held : server.Lies (.worker t) other := by simp [Lies, working, Worker.Holds]
          have different : other ≠ item := by
            rintro rfl
            exact absurd (tidy.exact.unique held mine) (by simp)
          simp only [Worker.inHand, untouched other different]
      | _ => rfl
    have before := accounted.conserved t
    dsimp only [sentTo] at before ⊢
    rw [queue, hand, before]
  · simpa [stands, Dispatcher.owes] using accounted.counted
  · dsimp only
    rw [turn]
    omega
  · dsimp only
    rw [turn]
    simp only [Dispatcher.chosen, Int.natCast_emod, Int.natCast_add, Int.natCast_one]
    exact Int.emod_add_emod ..
  · intro other tid pushing
    cases pushing
    rw [turn, Int.toNat_natCast]
  · exact accounted.order

/-- The connection is in the queue of its thread. -/
theorem Accounted.push {item tid : Nat} (accounted : server.Accounted numThreads)
    (stands : server.dispatcher = .pushing item tid) :
    Accounted numThreads { server with
      newConnQ := Function.update server.newConnQ tid (server.newConnQ tid ++ [item])
      dispatched := server.dispatched ++ [(tid, server.memory item)]
      dispatcher := .checking tid } := by
  constructor
  · intro t
    refine (sentTo_push server tid (server.memory item) t).trans ?_
    rw [accounted.conserved t]
    by_cases same : tid = t
    · subst same
      simp
    · simp [same, Ne.symm same]
  · intro t
    have before := accounted.counted t
    simp only [stands, Dispatcher.owes] at before ⊢
    by_cases same : t = tid
    · subst same
      simp [before]
    · simp [Function.update_of_ne same, Ne.symm same, before]
  · exact accounted.started
  · have before := accounted.turn
    simpa [stands, Dispatcher.chosen] using before
  · intro other tid pushing
    cases pushing
  · intro k entry found
    rw [List.getElem?_append] at found
    split at found
    · exact accounted.order k entry found
    next beyond =>
      have last : k = server.dispatched.length := by
        have := List.getElem?_eq_some_iff.mp found
        simp at this
        omega
      subst last
      simp only [Nat.sub_self, List.getElem?_cons_zero, Option.some.injEq] at found
      subst found
      exact accounted.chosen item tid stands

/-- The byte for the connection is in the pipe, or could not be written. -/
theorem Accounted.notified {tid : Nat} (accounted : server.Accounted numThreads)
    (stands : server.dispatcher = .notifying tid) (pipe unnotified : Nat → Nat)
    (more : ∀ t, pipe t + unnotified t =
      server.pipe t + server.unnotified t + if tid = t then 1 else 0) :
    Accounted numThreads
      { server with pipe := pipe, unnotified := unnotified, dispatcher := .idle } := by
  refine ⟨accounted.conserved, ?_, accounted.started, ?_, by simp, accounted.order⟩
  · intro t
    have before := accounted.counted t
    have counted := more t
    simp only [stands, Dispatcher.owes] at before ⊢
    omega
  · simpa [stands, Dispatcher.chosen] using accounted.turn

theorem Accounted.moves (accounted : server.Accounted numThreads)
    (tidy : server.Tidy) (moves : server.Moves numThreads after) : after.Accounted numThreads := by
  cases moves with
  | accept conn stands =>
      exact accounted.stays _ _ (.taking conn) (by simp [stands, Dispatcher.owes]) rfl
        (by rw [stands]; rfl)
  | take conn item rest stands freelist =>
      exact accounted.stays rest _ (.filling conn item) (by simp [stands, Dispatcher.owes]) rfl
        (by rw [stands]; rfl)
  | runDry conn stands =>
      exact accounted.stays _ _ (.allocating conn) (by simp [stands, Dispatcher.owes]) rfl
        (by rw [stands]; rfl)
  | allocate conn stands =>
      exact accounted.stays _ _ (.stocking conn _) (by simp [stands, Dispatcher.owes]) rfl
        (by rw [stands]; rfl)
  | giveUp conn stands =>
      exact accounted.stays _ _ .idle (by simp [stands, Dispatcher.owes]) rfl (by rw [stands]; rfl)
  | stock conn items stands =>
      exact accounted.stays _ _ (.filling conn items) (by simp [stands, Dispatcher.owes]) rfl
        (by rw [stands]; rfl)
  | fill conn item stands => exact accounted.fill tidy stands
  | push item tid stands => exact accounted.push stands
  | check tid stands =>
      exact accounted.stays _ _ (.notifying tid) (by simp [stands, Dispatcher.owes]) rfl
        (by rw [stands]; rfl)
  | notify tid stands =>
      exact accounted.notified stands _ server.unnotified fun t => by
        by_cases same : t = tid
        · subst same
          simp
          omega
        · simp [same, Ne.symm same]
  | lose tid stands =>
      exact accounted.notified stands server.pipe _ fun t => by
        by_cases same : t = tid
        · subst same
          simp
          omega
        · simp [same, Ne.symm same]
  | wake t bytes stands pipe =>
      simpa only [setWorker, Function.update_eq_self] using
        accounted.works t .popping server.freelist bytes (server.newConnQ t) (server.served t)
          (by simp [stands, Worker.inHand]) (by simp [stands, Worker.pops, pipe, Nat.add_assoc])
  | pop t item rest stands queue =>
      simpa only [setWorker, Function.update_eq_self] using
        accounted.works t (.registering item) server.freelist (server.pipe t) rest
          (server.served t) (by simp [stands, queue, Worker.inHand])
          (by simp [stands, queue, Worker.pops]; omega)
  | register t item stands =>
      simpa only [setWorker, Function.update_eq_self] using
        accounted.works t (.freeing item) server.freelist (server.pipe t) (server.newConnQ t)
          (server.served t ++ [server.memory item]) (by simp [stands, Worker.inHand])
          (by simp [stands, Worker.pops])
  | free t item stands =>
      simpa only [setWorker, Function.update_eq_self] using
        accounted.works t .waiting (server.freelist ++ [item]) (server.pipe t) (server.newConnQ t)
          (server.served t) (by simp [stands, Worker.inHand]) (by simp [stands, Worker.pops])

/-- There are no other threads. -/
structure Confined (numThreads : Nat) (server : Server) : Prop where
  owes : ∀ t, 0 < server.dispatcher.owes t → t < numThreads
  rest : ∀ t, numThreads ≤ t → server.newConnQ t = [] ∧ server.pipe t = 0 ∧
    server.workers t = .waiting ∧ server.unnotified t = 0

theorem Confined.init (memory : Nat → CqItem) : Confined numThreads { memory } where
  owes := fun _ due => absurd due (Nat.lt_irrefl 0)
  rest := fun _ _ => ⟨rfl, rfl, rfl, rfl⟩

/-- A step that changes the state of existing threads only. -/
theorem Confined.update (confined : server.Confined numThreads) (running : t < numThreads)
    (owes : ∀ other, 0 < after.dispatcher.owes other → other < numThreads)
    (same : ∀ other ≠ t, after.newConnQ other = server.newConnQ other ∧
      after.pipe other = server.pipe other ∧ after.workers other = server.workers other ∧
      after.unnotified other = server.unnotified other) : after.Confined numThreads where
  owes := owes
  rest := by
    intro other beyond
    have different : other ≠ t := by omega
    obtain ⟨queue, pipe, worker, lost⟩ := same other different
    rw [queue, pipe, worker, lost]
    exact confined.rest other beyond

theorem Confined.worker (confined : server.Confined numThreads)
    (busy : server.workers t ≠ .waiting ∨ server.pipe t ≠ 0) : t < numThreads := by
  by_contra beyond
  obtain ⟨_, pipe, waiting, _⟩ := confined.rest t (Nat.not_lt.mp beyond)
  rcases busy with busy | busy
  · exact busy waiting
  · exact busy pipe

theorem Confined.stays {dispatcher : Dispatcher} (confined : server.Confined numThreads)
    (freelist : List Nat) (allocated : Nat) (owes : ∀ t, dispatcher.owes t = 0) :
    Confined numThreads { server with freelist, allocated, dispatcher } where
  owes := fun t due => by
    have nothing := owes t
    dsimp only at due
    omega
  rest := confined.rest

theorem Confined.moves (positive : 0 < numThreads) (confined : server.Confined numThreads)
    (accounted : server.Accounted numThreads) (moves : server.Moves numThreads after) :
    after.Confined numThreads := by
  cases moves with
  | accept conn stands => exact confined.stays _ _ fun _ => rfl
  | take conn item rest stands freelist => exact confined.stays _ _ fun _ => rfl
  | runDry conn stands => exact confined.stays _ _ fun _ => rfl
  | allocate conn stands => exact confined.stays _ _ fun _ => rfl
  | giveUp conn stands => exact confined.stays _ _ fun _ => rfl
  | stock conn items stands => exact confined.stays _ _ fun _ => rfl
  | fill conn item stands => exact ⟨fun t due => absurd due (Nat.lt_irrefl 0), confined.rest⟩
  | push item tid stands =>
      have inside : tid < numThreads := by
        rw [accounted.chosen item tid stands]
        exact Nat.mod_lt _ positive
      refine confined.update inside ?_ fun other different => ?_
      · intro other due
        simp only [Dispatcher.owes] at due
        split at due
        next same => exact same ▸ inside
        next => omega
      · exact ⟨Function.update_of_ne different .., rfl, rfl, rfl⟩
  | check tid stands =>
      refine ⟨fun t due => confined.owes t ?_, confined.rest⟩
      rw [stands]
      exact due
  | notify tid stands =>
      have inside := confined.owes tid (by simp [stands, Dispatcher.owes])
      refine confined.update inside (fun t due => absurd due (Nat.lt_irrefl 0)) ?_
      exact fun other different => ⟨rfl, Function.update_of_ne different .., rfl, rfl⟩
  | lose tid stands =>
      have inside := confined.owes tid (by simp [stands, Dispatcher.owes])
      refine confined.update inside (fun t due => absurd due (Nat.lt_irrefl 0)) ?_
      exact fun other different => ⟨rfl, rfl, rfl, Function.update_of_ne different ..⟩
  | wake t bytes stands pipe =>
      refine confined.update (confined.worker (t := t) (.inr (by omega))) confined.owes ?_
      exact fun other different =>
        ⟨rfl, Function.update_of_ne different .., Function.update_of_ne different .., rfl⟩
  | pop t item rest stands queue =>
      refine confined.update (confined.worker (t := t) (.inl (by simp [stands]))) confined.owes ?_
      exact fun other different =>
        ⟨Function.update_of_ne different .., rfl, Function.update_of_ne different .., rfl⟩
  | register t item stands =>
      refine confined.update (confined.worker (t := t) (.inl (by simp [stands]))) confined.owes ?_
      exact fun other different => ⟨rfl, rfl, Function.update_of_ne different .., rfl⟩
  | free t item stands =>
      refine confined.update (confined.worker (t := t) (.inl (by simp [stands]))) confined.owes ?_
      exact fun other different => ⟨rfl, rfl, Function.update_of_ne different .., rfl⟩

theorem Reachable.invariant (reachable : Reachable numThreads server) :
    server.Tidy ∧ server.Accounted numThreads := by
  obtain ⟨memory, runs⟩ := reachable
  refine Runs.invariant (fun server => server.Tidy ∧ server.Accounted numThreads) ?_ runs
    ⟨.init memory, .init memory⟩
  intro server event after inv _ moved
  have moves := moves_of_step moved
  exact ⟨inv.1.moves moves, inv.2.moves inv.1 moves⟩

theorem Reachable.confined (positive : 0 < numThreads) (reachable : Reachable numThreads server) :
    server.Confined numThreads := by
  obtain ⟨memory, runs⟩ := reachable
  refine (Runs.invariant (fun server => (server.Tidy ∧ server.Accounted numThreads) ∧
    server.Confined numThreads) ?_ runs ⟨⟨.init memory, .init memory⟩, .init memory⟩).2
  intro server event after inv _ moved
  have moves := moves_of_step moved
  exact ⟨⟨inv.1.1.moves moves, inv.1.2.moves inv.1.1 moves⟩, inv.2.moves positive inv.1.2 moves⟩

theorem Accounted.queue_ne_nil (accounted : server.Accounted numThreads)
    (due : 0 < (server.workers t).pops + server.dispatcher.owes t) : server.newConnQ t ≠ [] := by
  intro empty
  have count := accounted.counted t
  rw [empty, List.length_nil] at count
  omega

theorem Accounted.dispatch_fault {ok : Bool} {fault : Fault}
    (accounted : server.Accounted numThreads)
    (failed : server.dispatch numThreads ok = .error fault) : fault = .disabled := by
  unfold Server.dispatch at failed
  split at failed
  next =>
    cases failed
    rfl
  next => split at failed <;> cases failed
  next => split at failed <;> cases failed
  next => cases failed
  next => cases failed
  next => cases failed
  next tid stands =>
    split at failed
    next empty =>
      refine absurd empty (accounted.queue_ne_nil ?_)
      simp only [stands, Dispatcher.owes, if_true]
      omega
    next => cases failed
  next => split at failed <;> cases failed

theorem Accounted.work_fault {fault : Fault} (accounted : server.Accounted numThreads)
    (failed : server.work t = .error fault) : fault = .disabled := by
  unfold Server.work at failed
  split at failed
  next =>
    split at failed
    next =>
      cases failed
      rfl
    next => cases failed
  next stands =>
    split at failed
    next empty =>
      refine absurd empty (accounted.queue_ne_nil ?_)
      simp only [stands, Worker.pops]
      omega
    next => cases failed
  next => cases failed
  next => cases failed

/-- The connections that the dispatcher hands to the threads in turn reach them: what it has put
into the queue of a worker is, in this order, what the worker has served, what it is about to
register and what waits in its queue, with the data it was filled in with; the `CHECK` of `cq_push`
does not fail, and `cq_pop` never finds its queue empty. -/
theorem connections_are_handed_over (reachable : Reachable numThreads server) :
    (∀ t, server.sentTo t = server.served t ++ (server.workers t).inHand server.memory ++
      (server.newConnQ t).map server.memory) ∧
    (∀ (k : Nat) entry, server.dispatched[k]? = some entry → entry.1 = k % numThreads) ∧
    ∀ event fault, server.step numThreads event = .error fault → fault = .disabled := by
  obtain ⟨_, accounted⟩ := reachable.invariant
  refine ⟨accounted.conserved, accounted.order, ?_⟩
  intro event fault failed
  cases event with
  | accept conn =>
      simp only [Server.step] at failed
      split at failed
      next => cases failed
      next =>
        cases failed
        rfl
  | dispatch ok => exact accounted.dispatch_fault failed
  | work t => exact accounted.work_fault failed

/-- Once all threads are at rest and no byte could not be written, every connection is served and
every item is back on the free list, once. -/
theorem items_come_back (positive : 0 < numThreads) (reachable : Reachable numThreads server)
    (idle : server.dispatcher = .idle)
    (rest : ∀ t < numThreads, server.workers t = .waiting ∧ server.pipe t = 0 ∧
      server.unnotified t = 0) :
    (∀ t, server.served t = server.sentTo t) ∧
      server.freelist.Perm (List.range server.allocated) := by
  obtain ⟨tidy, accounted⟩ := reachable.invariant
  have everywhere : ∀ t, server.workers t = .waiting ∧ server.pipe t = 0 ∧
      server.unnotified t = 0 := by
    intro t
    by_cases running : t < numThreads
    · exact rest t running
    · obtain ⟨_, pipe, waiting, lost⟩ :=
        (reachable.confined positive).rest t (Nat.not_lt.mp running)
      exact ⟨waiting, pipe, lost⟩
  have waiting : ∀ t, server.workers t = .waiting := fun t => (everywhere t).1
  have empty : ∀ t, server.newConnQ t = [] := by
    intro t
    apply List.eq_nil_of_length_eq_zero
    obtain ⟨waiting, pipe, lost⟩ := everywhere t
    rw [accounted.counted t, pipe, waiting, lost, idle]
    rfl
  constructor
  · intro t
    rw [accounted.conserved t, waiting t, empty t]
    simp [Worker.inHand]
  · rw [List.perm_ext_iff_of_nodup tidy.freelist List.nodup_range]
    intro item
    rw [List.mem_range]
    constructor
    · intro member
      by_contra beyond
      have free : server.Lies .free item := member
      have unallocated : server.Lies .unallocated item := Nat.not_lt.mp beyond
      exact absurd (tidy.exact.unique free unallocated) (by simp)
    · intro below
      obtain ⟨there, lies⟩ := tidy.exact.exists_place item
      cases there with
      | unallocated => exact absurd below (Nat.not_lt.mpr lies)
      | free => exact lies
      | dispatcher =>
          rw [Lies, idle] at lies
          exact lies.elim
      | queue t =>
          rw [Lies, empty t] at lies
          exact absurd lies List.not_mem_nil
      | worker t =>
          rw [Lies, waiting t] at lies
          exact lies.elim

end Accounts

/-! ## A sample -/

def sampleConn (sfd : Int) : CqItem := ⟨sfd, .slave, 18⟩

def sampleStart : Server := { memory := fun _ => ⟨0, .listening, 0⟩ }

/-- Two threads: the first has served its connection, the second is about to. -/
def sampleEvents : List Event :=
  .accept (sampleConn 5) :: List.replicate 7 (.dispatch true) ++ List.replicate 4 (.work 0) ++
    .accept (sampleConn 6) :: List.replicate 5 (.dispatch true) ++ List.replicate 2 (.work 1)

theorem connections_are_handed_over_sample : ∃ server, Reachable 2 server ∧
    server.served 0 = [sampleConn 5] ∧ server.sentTo 1 = [sampleConn 6] ∧
    ∀ event fault, server.step 2 event = .error fault → fault = .disabled := by
  obtain ⟨server, runs, post⟩ := Runs.exists_of_exec (step 2) (fun _ _ => True) sampleStart
    sampleEvents (fun server => decide (server.served 0 = [sampleConn 5] ∧
      server.sentTo 1 = [sampleConn 6])) (by decide +kernel)
  have reachable : Reachable 2 server := ⟨_, runs⟩
  obtain ⟨first, second⟩ := of_decide_eq_true post
  exact ⟨server, reachable, first, second, (connections_are_handed_over reachable).2.2⟩

theorem items_come_back_sample : ∃ server, Reachable 2 server ∧ server.served 1 = [sampleConn 6] ∧
    server.freelist.Perm (List.range server.allocated) := by
  obtain ⟨server, runs, post⟩ := Runs.exists_of_exec (step 2) (fun _ _ => True) sampleStart
    (sampleEvents ++ List.replicate 2 (.work 1)) (fun server => decide
      (server.served 1 = [sampleConn 6] ∧ server.dispatcher = .idle ∧
        ∀ t ∈ List.range 2, server.workers t = .waiting ∧ server.pipe t = 0 ∧
          server.unnotified t = 0))
    (by decide +kernel)
  have reachable : Reachable 2 server := ⟨_, runs⟩
  obtain ⟨served, idle, rest⟩ := of_decide_eq_true post
  exact ⟨server, reachable, served, (items_come_back (by decide) reachable idle
    fun t below => rest t (List.mem_range.mpr below)).2⟩

end Server

end BespoKV.Dispatch
