import BespoKV.Library.Custody
import BespoKV.Library.Transition
import BespoKV.Proxy.Types
import Mathlib.Data.List.Basic

/-!
# From the dispatcher to the workers

The main thread of a datalet accepts connections and hands each one to a worker thread: it takes
a `CQ_ITEM` from a free list, fills it in, appends it to the queue of the worker and writes one
byte to the pipe on which the worker waits.  The worker reads the byte, takes an item from its
queue, registers the connection and returns the item.  The critical sections of the threads
interleave in any way; memory may run out, and writing to the pipe may fail.

The three datalets have the same code here.
-/

namespace BespoKV.Dispatch

open Custody Transition

/-- `conn_t` -/
inductive ConnType where
  | listening
  | slave
  deriving DecidableEq, Repr

/-- `CQ_ITEM`: a connection for a worker -/
structure CqItem where
  sfd : Int
  type : ConnType
  eventFlags : Int
  deriving DecidableEq, Repr

/-- `ITEMS_PER_ALLOC` -/
def itemsPerAlloc : Nat := 64

/-- Where the main thread stands in `dispatch_conn_new`; items are given by their addresses. -/
inductive Dispatcher where
  | idle
  /-- `cqi_new`: look at the free list -/
  | taking (conn : CqItem)
  /-- `cqi_new`: the free list was empty -/
  | allocating (conn : CqItem)
  /-- `cqi_new`: put all new items but the first on the free list -/
  | stocking (conn : CqItem) (items : Nat)
  /-- choose the thread and fill in the item -/
  | filling (conn : CqItem) (item : Nat)
  /-- `cq_push` -/
  | pushing (item tid : Nat)
  /-- the `CHECK` at the end of `cq_push`, outside the critical section -/
  | checking (tid : Nat)
  /-- write to the pipe -/
  | notifying (tid : Nat)
  deriving DecidableEq, Repr

/-- Where a worker stands in `thread_ev_proc`. -/
inductive Worker where
  /-- in the event loop -/
  | waiting
  /-- a byte was read: `cq_pop` -/
  | popping
  /-- `register_conn` -/
  | registering (item : Nat)
  /-- `cqi_free` -/
  | freeing (item : Nat)
  deriving DecidableEq, Repr

/-- The threads and what they share.  Of a thread, `newConnQ` is its queue and `pipe` the number of
bytes in its pipe.  History variables: the connections put into the queues, with the threads;
the connections each worker has registered or closed; and how often writing to its pipe failed. -/
structure Server where
  lastThread : Int := -1
  allocated : Nat := 0
  memory : Nat → CqItem
  freelist : List Nat := []
  dispatcher : Dispatcher := .idle
  newConnQ : Nat → List Nat := fun _ => []
  pipe : Nat → Nat := fun _ => 0
  workers : Nat → Worker := fun _ => .waiting
  dispatched : List (Nat × CqItem) := []
  served : Nat → List CqItem := fun _ => []
  unnotified : Nat → Nat := fun _ => 0

/-- What the scheduler can choose. -/
inductive Event where
  /-- `process` has accepted a connection -/
  | accept (conn : CqItem)
  /-- the next action of the main thread; `ok` says whether `malloc` or `write` succeeds -/
  | dispatch (ok : Bool)
  /-- the next action of a worker -/
  | work (t : Nat)
  deriving DecidableEq, Repr

namespace Server

/-- `dispatch_conn_new` with `cqi_new` and `cq_push`, one action. -/
def dispatch (numThreads : Nat) (server : Server) (ok : Bool) : Except Fault Server :=
  match server.dispatcher with
  | .idle => .error .disabled
  | .taking conn =>
      match server.freelist with
      | item :: rest => .ok { server with freelist := rest, dispatcher := .filling conn item }
      | [] => .ok { server with dispatcher := .allocating conn }
  | .allocating conn =>
      if ok then
        .ok { server with
          allocated := server.allocated + itemsPerAlloc
          dispatcher := .stocking conn server.allocated }
      else
        -- the connection is closed
        .ok { server with dispatcher := .idle }
  | .stocking conn items =>
      .ok { server with
        freelist := server.freelist ++ List.range' (items + 1) (itemsPerAlloc - 1)
        dispatcher := .filling conn items }
  | .filling conn item =>
      let tid := (server.lastThread + 1).tmod numThreads
      .ok { server with
        lastThread := tid
        memory := Function.update server.memory item conn
        dispatcher := .pushing item tid.toNat }
  | .pushing item tid =>
      .ok { server with
        newConnQ := Function.update server.newConnQ tid (server.newConnQ tid ++ [item])
        dispatched := server.dispatched ++ [(tid, server.memory item)]
        dispatcher := .checking tid }
  | .checking tid =>
      if server.newConnQ tid = [] then .error .check
      else .ok { server with dispatcher := .notifying tid }
  | .notifying tid =>
      if ok then
        .ok { server with
          pipe := Function.update server.pipe tid (server.pipe tid + 1)
          dispatcher := .idle }
      else
        .ok { server with
          unnotified := Function.update server.unnotified tid (server.unnotified tid + 1)
          dispatcher := .idle }

def setWorker (server : Server) (t : Nat) (worker : Worker) : Server :=
  { server with workers := Function.update server.workers t worker }

/-- `thread_ev_proc` with `cq_pop` and `cqi_free`, one action. -/
def work (server : Server) (t : Nat) : Except Fault Server :=
  match server.workers t with
  | .waiting =>
      match server.pipe t with
      | 0 => .error .disabled
      | bytes + 1 =>
          .ok { server.setWorker t .popping with pipe := Function.update server.pipe t bytes }
  | .popping =>
      match server.newConnQ t with
      -- `cq_pop` returns a pointer that was never set
      | [] => .error .undefined
      | item :: rest =>
          .ok { server.setWorker t (.registering item) with
            newConnQ := Function.update server.newConnQ t rest }
  | .registering item =>
      -- if the event cannot be added, the connection is closed
      .ok { server.setWorker t (.freeing item) with
        served := Function.update server.served t (server.served t ++ [server.memory item]) }
  | .freeing item => .ok { server.setWorker t .waiting with freelist := server.freelist ++ [item] }

def step (numThreads : Nat) (server : Server) : Event → Except Fault Server
  | .accept conn =>
      if server.dispatcher = .idle then .ok { server with dispatcher := .taking conn }
      else .error .disabled
  | .dispatch ok => server.dispatch numThreads ok
  | .work t => server.work t

/-- The states of a datalet whose memory holds anything before it is written. -/
def Reachable (numThreads : Nat) (server : Server) : Prop :=
  ∃ memory, Runs (step numThreads) (fun _ _ => True) { memory } server

/-! ## Where the items are -/

/-- The places of items. -/
inductive Place where
  /-- memory that is not allocated -/
  | unallocated
  | free
  | dispatcher
  | queue (t : Nat)
  | worker (t : Nat)

end Server

/-- The main thread alone has a pointer to the item. -/
def Dispatcher.Holds (item : Nat) : Dispatcher → Prop
  | .stocking _ items => items ≤ item ∧ item < items + itemsPerAlloc
  | .filling _ own | .pushing own _ => item = own
  | .idle | .taking _ | .allocating _ | .checking _ | .notifying _ => False

/-- The worker alone has a pointer to the item. -/
def Worker.Holds (item : Nat) : Worker → Prop
  | .registering own | .freeing own => item = own
  | .waiting | .popping => False

namespace Server

def Lies (server : Server) : Place → Nat → Prop
  | .unallocated, item => server.allocated ≤ item
  | .free, item => item ∈ server.freelist
  | .dispatcher, item => server.dispatcher.Holds item
  | .queue t, item => item ∈ server.newConnQ t
  | .worker t, item => (server.workers t).Holds item

/-- Every item is in one place, and once. -/
structure Tidy (server : Server) : Prop where
  exact : Exact server.Lies
  freelist : server.freelist.Nodup
  queues : ∀ t, (server.newConnQ t).Nodup

/-! ## What a step does -/

/-- The steps, one constructor for each. -/
inductive Moves (numThreads : Nat) (server : Server) : Server → Prop where
  | accept (conn : CqItem) (stands : server.dispatcher = .idle) :
      Moves numThreads server { server with dispatcher := .taking conn }
  | take (conn : CqItem) (item : Nat) (rest : List Nat) (stands : server.dispatcher = .taking conn)
      (freelist : server.freelist = item :: rest) :
      Moves numThreads server { server with freelist := rest, dispatcher := .filling conn item }
  | runDry (conn : CqItem) (stands : server.dispatcher = .taking conn) :
      Moves numThreads server { server with dispatcher := .allocating conn }
  | allocate (conn : CqItem) (stands : server.dispatcher = .allocating conn) :
      Moves numThreads server { server with
        allocated := server.allocated + itemsPerAlloc
        dispatcher := .stocking conn server.allocated }
  | giveUp (conn : CqItem) (stands : server.dispatcher = .allocating conn) :
      Moves numThreads server { server with dispatcher := .idle }
  | stock (conn : CqItem) (items : Nat) (stands : server.dispatcher = .stocking conn items) :
      Moves numThreads server { server with
        freelist := server.freelist ++ List.range' (items + 1) (itemsPerAlloc - 1)
        dispatcher := .filling conn items }
  | fill (conn : CqItem) (item : Nat) (stands : server.dispatcher = .filling conn item) :
      Moves numThreads server { server with
        lastThread := (server.lastThread + 1).tmod numThreads
        memory := Function.update server.memory item conn
        dispatcher := .pushing item ((server.lastThread + 1).tmod numThreads).toNat }
  | push (item tid : Nat) (stands : server.dispatcher = .pushing item tid) :
      Moves numThreads server { server with
        newConnQ := Function.update server.newConnQ tid (server.newConnQ tid ++ [item])
        dispatched := server.dispatched ++ [(tid, server.memory item)]
        dispatcher := .checking tid }
  | check (tid : Nat) (stands : server.dispatcher = .checking tid) :
      Moves numThreads server { server with dispatcher := .notifying tid }
  | notify (tid : Nat) (stands : server.dispatcher = .notifying tid) :
      Moves numThreads server { server with
        pipe := Function.update server.pipe tid (server.pipe tid + 1)
        dispatcher := .idle }
  | lose (tid : Nat) (stands : server.dispatcher = .notifying tid) :
      Moves numThreads server { server with
        unnotified := Function.update server.unnotified tid (server.unnotified tid + 1)
        dispatcher := .idle }
  | wake (t bytes : Nat) (stands : server.workers t = .waiting) (pipe : server.pipe t = bytes + 1) :
      Moves numThreads server { server.setWorker t .popping with
        pipe := Function.update server.pipe t bytes }
  | pop (t item : Nat) (rest : List Nat) (stands : server.workers t = .popping)
      (queue : server.newConnQ t = item :: rest) :
      Moves numThreads server { server.setWorker t (.registering item) with
        newConnQ := Function.update server.newConnQ t rest }
  | register (t item : Nat) (stands : server.workers t = .registering item) :
      Moves numThreads server { server.setWorker t (.freeing item) with
        served := Function.update server.served t (server.served t ++ [server.memory item]) }
  | free (t item : Nat) (stands : server.workers t = .freeing item) :
      Moves numThreads server { server.setWorker t .waiting with
        freelist := server.freelist ++ [item] }

section Steps

variable {server after : Server} {numThreads : Nat}

theorem moves_of_dispatch {ok : Bool} (moved : server.dispatch numThreads ok = .ok after) :
    server.Moves numThreads after := by
  unfold Server.dispatch at moved
  split at moved
  next => cases moved
  next conn stands =>
    split at moved
    next item rest freelist =>
      cases moved
      exact .take conn item rest stands freelist
    next =>
      cases moved
      exact .runDry conn stands
  next conn stands =>
    split at moved
    next =>
      cases moved
      exact .allocate conn stands
    next =>
      cases moved
      exact .giveUp conn stands
  next conn items stands =>
    cases moved
    exact .stock conn items stands
  next conn item stands =>
    cases moved
    exact .fill conn item stands
  next item tid stands =>
    cases moved
    exact .push item tid stands
  next tid stands =>
    split at moved
    next => cases moved
    next =>
      cases moved
      exact .check tid stands
  next tid stands =>
    split at moved
    next =>
      cases moved
      exact .notify tid stands
    next =>
      cases moved
      exact .lose tid stands

theorem moves_of_work {t : Nat} (moved : server.work t = .ok after) :
    server.Moves numThreads after := by
  unfold Server.work at moved
  split at moved
  next stands =>
    split at moved
    next => cases moved
    next bytes pipe =>
      cases moved
      exact .wake t bytes stands pipe
  next stands =>
    split at moved
    next => cases moved
    next item rest queue =>
      cases moved
      exact .pop t item rest stands queue
  next item stands =>
    cases moved
    exact .register t item stands
  next item stands =>
    cases moved
    exact .free t item stands

theorem moves_of_step {event : Event} (moved : server.step numThreads event = .ok after) :
    server.Moves numThreads after := by
  cases event with
  | accept conn =>
      simp only [Server.step] at moved
      split at moved
      next stands =>
        cases moved
        exact .accept conn stands
      next => cases moved
  | dispatch ok => exact moves_of_dispatch moved
  | work t => exact moves_of_work moved

theorem Tidy.init (memory : Nat → CqItem) : Tidy { memory } where
  exact := by
    refine ⟨fun _ => .unallocated, fun there item => ?_⟩
    cases there <;> simp [Lies, Dispatcher.Holds, Worker.Holds]
  freelist := List.nodup_nil
  queues := fun _ => List.nodup_nil

/-- The threads have gone on, and the items are where they were. -/
theorem Tidy.stays {dispatcher : Dispatcher} (tidy : server.Tidy)
    (same : ∀ item, dispatcher.Holds item ↔ server.dispatcher.Holds item)
    (allocated : after.allocated = server.allocated) (freelist : after.freelist = server.freelist)
    (stands : after.dispatcher = dispatcher) (queues : after.newConnQ = server.newConnQ)
    (workers : ∀ t item, (after.workers t).Holds item ↔ (server.workers t).Holds item) :
    after.Tidy := by
  subst stands
  refine ⟨tidy.exact.congr fun there item => ?_, freelist ▸ tidy.freelist, queues ▸ tidy.queues⟩
  cases there with
  | unallocated => simp only [Lies, allocated]
  | free => simp only [Lies, freelist]
  | dispatcher => exact same item
  | queue t => simp only [Lies, queues]
  | worker t => exact workers t item

theorem holds_setWorker {t : Nat} {worker : Worker}
    (same : ∀ item, worker.Holds item ↔ (server.workers t).Holds item) (other item : Nat) :
    ((server.setWorker t worker).workers other).Holds item ↔
      (server.workers other).Holds item := by
  by_cases isThis : other = t
  · subst isThis
    simpa [setWorker] using same item
  · simp [setWorker, isThis]

/-- What is left of a list without repetitions when its head is taken. -/
theorem mem_rest_iff {item other : Nat} {rest : List Nat} (once : (item :: rest).Nodup) :
    other ∈ rest ↔ other ∈ item :: rest ∧ ¬other = item := by
  rw [List.nodup_cons] at once
  constructor
  · intro member
    exact ⟨List.mem_cons_of_mem _ member, fun same => once.1 (same ▸ member)⟩
  · rintro ⟨member, different⟩
    exact (List.mem_cons.mp member).resolve_left different

/-- An item that lies elsewhere joins a list. -/
theorem Tidy.nodup_concat {here : Place} {list : List Nat} {item : Nat} (tidy : server.Tidy)
    (there : Place) (once : list.Nodup) (listed : ∀ other ∈ list, server.Lies there other)
    (held : server.Lies here item) (different : there ≠ here) : (list ++ [item]).Nodup := by
  refine List.nodup_append.mpr ⟨once, by simp, fun other member last isItem same => ?_⟩
  rw [List.mem_singleton.mp isItem] at same
  exact different (tidy.exact.unique (listed item (same ▸ member)) held)

theorem Tidy.moves (tidy : server.Tidy) (moves : server.Moves numThreads after) : after.Tidy := by
  cases moves with
  | accept conn stands =>
      exact tidy.stays (by simp [stands, Dispatcher.Holds]) rfl rfl rfl rfl fun _ _ => Iff.rfl
  | take conn item rest stands freelist =>
      have once := tidy.freelist
      rw [freelist] at once
      refine ⟨tidy.exact.transfer .free .dispatcher (· = item) (by simp) ?_ ?_ ?_ ?_, once.of_cons,
        tidy.queues⟩
      · rintro item rfl
        simp [Lies, freelist]
      · intro other
        simp only [Lies, freelist]
        exact mem_rest_iff once
      · simp [Lies, Dispatcher.Holds, stands]
      · intro there notFree notHere item
        cases there <;> simp_all [Lies]
  | runDry conn stands =>
      exact tidy.stays (by simp [stands, Dispatcher.Holds]) rfl rfl rfl rfl fun _ _ => Iff.rfl
  | allocate conn stands =>
      refine ⟨tidy.exact.transfer .unallocated .dispatcher
        (fun item => server.allocated ≤ item ∧ item < server.allocated + itemsPerAlloc)
        (by simp) ?_ ?_ ?_ ?_, tidy.freelist, tidy.queues⟩
      · exact fun item range => range.1
      · intro item
        simp only [Lies]
        omega
      · simp [Lies, Dispatcher.Holds, stands]
      · intro there notSource notHere item
        cases there <;> simp_all [Lies]
  | giveUp conn stands =>
      exact tidy.stays (by simp [stands, Dispatcher.Holds]) rfl rfl rfl rfl fun _ _ => Iff.rfl
  | stock conn items stands =>
      refine ⟨tidy.exact.transfer .dispatcher .free
        (fun item => items < item ∧ item < items + itemsPerAlloc) (by simp) ?_ ?_ ?_ ?_, ?_,
        tidy.queues⟩
      · intro item range
        simp only [Lies, stands, Dispatcher.Holds]
        omega
      · intro item
        simp only [Lies, stands, Dispatcher.Holds, itemsPerAlloc]
        omega
      · intro item
        simp only [Lies, List.mem_append, List.mem_range'_1, itemsPerAlloc]
        constructor
        · rintro (old | new)
          · exact .inl old
          · exact .inr (by omega)
        · rintro (old | new)
          · exact .inl old
          · exact .inr (by omega)
      · intro there notSource notTarget item
        cases there <;> simp_all [Lies]
      · rw [List.nodup_append]
        refine ⟨tidy.freelist, List.nodup_range', ?_⟩
        rintro item old other new rfl
        have held : server.Lies .dispatcher item := by
          simp only [Lies, stands, Dispatcher.Holds, itemsPerAlloc]
          simp only [List.mem_range'_1, itemsPerAlloc] at new
          omega
        have free : server.Lies .free item := old
        exact absurd (tidy.exact.unique free held) (by simp)
  | fill conn item stands =>
      exact tidy.stays (by simp [stands, Dispatcher.Holds]) rfl rfl rfl rfl fun _ _ => Iff.rfl
  | push item tid stands =>
      have held : server.Lies .dispatcher item := by simp [Lies, stands, Dispatcher.Holds]
      refine ⟨tidy.exact.transfer .dispatcher (.queue tid) (· = item) (by simp) ?_ ?_ ?_ ?_,
        tidy.freelist, ?_⟩
      · rintro item rfl
        exact held
      · simp [Lies, stands, Dispatcher.Holds]
      · simp [Lies]
      · intro there notSource notTarget other
        cases there with
        | queue t =>
            have different : t ≠ tid := fun same => notTarget (same ▸ rfl)
            simp [Lies, different]
        | _ => simp_all [Lies]
      · intro t
        by_cases same : t = tid
        · subst same
          simp only [Function.update_self]
          exact tidy.nodup_concat (.queue t) (tidy.queues t) (fun _ queued => queued) held (by simp)
        · simp only [Function.update_of_ne same]
          exact tidy.queues t
  | check tid stands =>
      exact tidy.stays (by simp [stands, Dispatcher.Holds]) rfl rfl rfl rfl fun _ _ => Iff.rfl
  | notify tid stands =>
      exact tidy.stays (by simp [stands, Dispatcher.Holds]) rfl rfl rfl rfl fun _ _ => Iff.rfl
  | lose tid stands =>
      exact tidy.stays (by simp [stands, Dispatcher.Holds]) rfl rfl rfl rfl fun _ _ => Iff.rfl
  | wake t bytes stands pipe =>
      exact tidy.stays (fun _ => Iff.rfl) rfl rfl rfl rfl
        (holds_setWorker (by simp [stands, Worker.Holds]))
  | pop t item rest stands queue =>
      have once := tidy.queues t
      rw [queue] at once
      refine ⟨tidy.exact.transfer (.queue t) (.worker t) (· = item) (by simp) ?_ ?_ ?_ ?_,
        tidy.freelist, ?_⟩
      · rintro item rfl
        simp [Lies, queue]
      · intro other
        simp only [Lies, queue, Function.update_self]
        exact mem_rest_iff once
      · simp [Lies, setWorker, stands, Worker.Holds]
      · intro there notSource notTarget other
        cases there with
        | queue t' =>
            have different : t' ≠ t := fun same => notSource (same ▸ rfl)
            simp [Lies, different]
        | worker t' =>
            have different : t' ≠ t := fun same => notTarget (same ▸ rfl)
            simp [Lies, setWorker, different]
        | _ => simp [Lies, setWorker]
      · intro t'
        by_cases same : t' = t
        · subst same
          simp only [Function.update_self]
          exact once.of_cons
        · simp only [Function.update_of_ne same]
          exact tidy.queues t'
  | register t item stands =>
      exact tidy.stays (fun _ => Iff.rfl) rfl rfl rfl rfl
        (holds_setWorker (by simp [stands, Worker.Holds]))
  | free t item stands =>
      have held : server.Lies (.worker t) item := by simp [Lies, stands, Worker.Holds]
      refine ⟨tidy.exact.transfer (.worker t) .free (· = item) (by simp) ?_ ?_ ?_ ?_, ?_,
        tidy.queues⟩
      · rintro item rfl
        exact held
      · simp [Lies, setWorker, stands, Worker.Holds]
      · simp [Lies]
      · intro there notSource notTarget other
        cases there with
        | worker t' =>
            have different : t' ≠ t := fun same => notSource (same ▸ rfl)
            simp [Lies, setWorker, different]
        | free => exact absurd rfl notTarget
        | _ => simp [Lies, setWorker]
      · exact tidy.nodup_concat .free tidy.freelist (fun _ free => free) held (by simp)

end Steps

end Server

end BespoKV.Dispatch
