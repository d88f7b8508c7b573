import BespoKV.Library.History
import BespoKV.Library.Transition
import BespoKV.Proxy.System
import BespoKV.Wire.RoundTrip

/-!
# Three datalets

`handle_request` of `iHT`, which keeps values in a hash map, of `iLog`, which keeps them in a
file and their places in an index, and of `iMT`, which keeps pointers to C strings in a
masstree.  All three are compared with one map.  The file of `iLog` is written through one
stream and read through another, so what a GET reads depends on what has been flushed.
-/

namespace BespoKV.Datalet

open Wire

/-! ## A map -/

/-- What a request writes. -/
def write? : Request → Option (Key × Value)
  | .put key value => some (key, value)
  | .get _ | .del _ => none

/-- The reply of a map to a request after others: a GET returns the value of the last PUT of
its key. -/
def expected (earlier : List Request) : Request → Reply
  | .get key => .ofLookup (History.replay write? earlier key)
  | .put _ _ | .del _ => ⟨0, none⟩

/-- The replies of a map to a sequence of requests. -/
def expectedAll (earlier : List Request) : List Request → List Reply
  | [] => []
  | request :: later => expected earlier request :: expectedAll (earlier ++ [request]) later

theorem expectedAll_append (earlier requests : List Request) (request : Request) :
    expectedAll earlier (requests ++ [request]) =
      expectedAll earlier requests ++ [expected (earlier ++ requests) request] := by
  induction requests generalizing earlier with
  | nil => simp [expectedAll]
  | cons first requests ih => simp [expectedAll, ih]

/-! ## `iHT` -/

/-- `handle_request` of `iHT` -/
def IHT.handleRequest (hashmap : Key → Option Value) :
    Request → (Key → Option Value) × Reply
  | .get key =>
      match hashmap key with
      | some value => (hashmap, ⟨0, some value⟩)
      | none => (hashmap, ⟨-1, none⟩)
  | .put key value => (Function.update hashmap key (some value), ⟨0, none⟩)
  | .del _ => (hashmap, ⟨0, none⟩)

/-! ## `iLog` -/

/-- `struct stored` -/
structure Stored where
  pos : Nat
  len : Nat
  deriving DecidableEq, Repr

/-- The index and `struct iLog`: what the stream `wlog` has written to the file and what it
still buffers, and the position of `rlog` once it is open. -/
structure ILog where
  hashmap : Key → Option Stored := fun _ => none
  file : Bytes := []
  buffer : Bytes := []
  rlog : Option Nat := none

namespace ILog

/-- All that was given to `fwrite`. -/
def written (log : ILog) : Bytes := log.file ++ log.buffer

/-- stdio writes some bytes of the buffer to the file. -/
def flush (log : ILog) (count : Nat) : ILog :=
  { log with file := log.file ++ log.buffer.take count, buffer := log.buffer.drop count }

/-- The length of the array `val`. -/
def valSize : Nat := 256

/-- `fread(val, len, 1, rlog)` after `fseek(rlog, pos, SEEK_SET)`: the first `len` bytes of
`val`, of which those past the end of the file are what was there before. -/
def fread (file : Bytes) (stored : Stored) (val : Bytes) : Bytes :=
  let got := (file.drop stored.pos).take stored.len
  got ++ (val.take stored.len).drop got.length

/-- `handle_request` of `iLog`, with the contents of the uninitialised array `val`. -/
def handleRequest (log : ILog) (val : Bytes) : Request → Except BespoKV.Fault (ILog × Reply)
  | .get key =>
      match log.hashmap key with
      | some stored =>
          if valSize < stored.len then .error .undefined
          else .ok ({ log with rlog := some log.file.length },
            ⟨0, some (fread log.file stored val)⟩)
      | none => .ok (log, ⟨-1, none⟩)
  | .put key value =>
      -- `ftell(wlog)` counts what is buffered.
      let stored : Stored := ⟨log.written.length, value.length⟩
      .ok ({ log with
        hashmap := Function.update log.hashmap key (some stored)
        buffer := log.buffer ++ value }, ⟨0, none⟩)
  | .del _ => .ok (log, ⟨0, none⟩)

end ILog

/-! ## `iMT` -/

/-- The characters of a C string. -/
def cString (memory : Bytes) : Bytes := memory.takeWhile (· ≠ 0)

/-- `handle_request` of `iMT`: the masstree gives the bytes at the pointer it holds. -/
def IMT.handleRequest (mtree : Key → Option Bytes) : Request → (Key → Option Bytes) × Reply
  | .get key =>
      match mtree key with
      | none => (mtree, ⟨-1, none⟩)
      | some memory => (mtree, ⟨0, some (cString memory)⟩)
  | .put key value => (Function.update mtree key (some (value ++ [0])), ⟨0, none⟩)
  | .del _ => (mtree, ⟨0, none⟩)

/-! ## The same requests -/

/-- The three datalets after the same requests, and their replies. -/
structure Datalets where
  hashTable : Key → Option Value := fun _ => none
  log : ILog := {}
  tree : Key → Option Bytes := fun _ => none
  requests : List Request := []
  hashReplies : List Reply := []
  logReplies : List Reply := []
  treeReplies : List Reply := []

/-- A GET or PUT, with what the stack of `iLog` holds, or a flush of its stream. -/
inductive Event where
  | request (request : Request) (val : Bytes)
  | flush (count : Nat)
  deriving DecidableEq, Repr

/-- One step: all three datalets handle a GET or PUT, or the stream is flushed. -/
def Datalets.step (datalets : Datalets) : Event → Except BespoKV.Fault Datalets
  | .flush count => .ok { datalets with log := datalets.log.flush count }
  | .request request val =>
      if request.Supported ∧ val.length = ILog.valSize then
        let (hashTable, hashReply) := IHT.handleRequest datalets.hashTable request
        let (tree, treeReply) := IMT.handleRequest datalets.tree request
        match datalets.log.handleRequest val request with
        | .error fault => .error fault
        | .ok (log, logReply) => .ok {
            hashTable, log, tree
            requests := datalets.requests ++ [request]
            hashReplies := datalets.hashReplies ++ [hashReply]
            logReplies := datalets.logReplies ++ [logReply]
            treeReplies := datalets.treeReplies ++ [treeReply] }
      else .error .disabled

/-! ## One map for all -/

variable {store : Key → Option Value} {request : Request} {key : Key} {value : Value}

theorem expected_eq (earlier : List Request) (store : Key → Option Value)
    (replayed : History.replay write? earlier = store) :
    expected earlier request = (IHT.handleRequest store request).2 := by
  cases request with
  | get key =>
      simp only [expected, IHT.handleRequest, replayed]
      cases store key <;> rfl
  | put key value | del key => rfl

theorem IHT.handleRequest_store :
    (IHT.handleRequest store request).1 = History.apply write? store request := by
  cases request with
  | get key =>
      simp only [IHT.handleRequest]
      cases store key <;> rfl
  | put key value | del key => rfl

/-- The hash table is the map that the proxies' datalets were modelled by. -/
theorem IHT.handleRequest_serve (key : Key) (value : Value) :
    IHT.handleRequest store (.get key) = mapEngine.serve store (.get key) ∧
      IHT.handleRequest store (.put key value) = mapEngine.serve store (.set key value) := by
  refine ⟨?_, rfl⟩
  simp only [IHT.handleRequest, mapEngine, Frame.get]
  cases store key <;> rfl

/-- Every key's place in the log holds its value. -/
structure ILog.Holds (log : ILog) (store : Key → Option Value) : Prop where
  inside : ∀ key stored, log.hashmap key = some stored →
    stored.pos + stored.len ≤ log.written.length
  content : ∀ key, (log.hashmap key).map (fun stored =>
    (log.written.drop stored.pos).take stored.len) = store key

namespace ILog

variable {log : ILog}

@[simp] theorem written_flush (count : Nat) : (log.flush count).written = log.written := by
  simp [written, flush]

theorem Holds.flush (holds : log.Holds store) (count : Nat) : (log.flush count).Holds store where
  inside := by rw [written_flush]; exact holds.inside
  content := by rw [written_flush]; exact holds.content

/-- A region of the log reads the same after the log has grown. -/
private theorem region_append {bytes more : Bytes} {stored : Stored}
    (inside : stored.pos + stored.len ≤ bytes.length) :
    ((bytes ++ more).drop stored.pos).take stored.len =
      (bytes.drop stored.pos).take stored.len := by
  rw [List.drop_append_of_le_length (by omega), List.take_append_of_le_length]
  rw [List.length_drop]
  omega

theorem Holds.put (holds : log.Holds store) (key : Key) (value : Value) :
    Holds { log with
      hashmap := Function.update log.hashmap key (some ⟨log.written.length, value.length⟩)
      buffer := log.buffer ++ value } (Function.update store key (some value)) := by
  have grown : log.file ++ (log.buffer ++ value) = log.written ++ value :=
    (List.append_assoc ..).symm
  refine ⟨fun other stored found => ?_, fun other => ?_⟩
  · change stored.pos + stored.len ≤ (log.file ++ (log.buffer ++ value)).length
    rw [grown, List.length_append]
    change Function.update log.hashmap key _ other = some stored at found
    by_cases same : other = key
    · subst same
      rw [Function.update_self, Option.some.injEq] at found
      subst found
      rfl
    · rw [Function.update_of_ne same] at found
      have := holds.inside other stored found
      omega
  · change (Function.update log.hashmap key _ other).map (fun stored =>
      ((log.file ++ (log.buffer ++ value)).drop stored.pos).take stored.len) = _
    rw [grown]
    by_cases same : other = key
    · subst same
      simp [written]
    · rw [Function.update_of_ne same, Function.update_of_ne same, ← holds.content other]
      cases found : log.hashmap other with
      | none => rfl
      | some stored =>
          exact congrArg some (region_append (holds.inside other stored found))

/-- What has been flushed is read back. -/
theorem fread_of_flushed {stored : Stored} {val : Bytes}
    (flushed : 0 < stored.len → stored.pos + stored.len ≤ log.file.length) :
    fread log.file stored val = (log.written.drop stored.pos).take stored.len := by
  obtain empty | some := Nat.eq_zero_or_pos stored.len
  · simp [fread, empty]
  have flushed := flushed some
  have length : ((log.file.drop stored.pos).take stored.len).length = stored.len := by
    rw [List.length_take, List.length_drop]
    omega
  rw [written, region_append flushed, fread, length,
    List.drop_eq_nil_of_le (List.length_take_le ..), List.append_nil]

end ILog

/-- A C string without zero bytes is all that was stored. -/
theorem cString_append_zero (nonzero : 0 ∉ value) : cString (value ++ [0]) = value := by
  have all : ∀ byte ∈ value, decide (byte ≠ 0) = true := by
    intro byte mem
    refine decide_eq_true ?_
    rintro rfl
    exact nonzero mem
  rw [cString, List.takeWhile_append_of_pos all]
  simp

/-- A GET can be answered alike by all: the value fits into `val` and has been flushed, and it
has no zero byte. -/
def Datalets.Readable (datalets : Datalets) : Event → Prop
  | .request (.get key) _ =>
      (∀ stored ∈ datalets.log.hashmap key,
        stored.len ≤ ILog.valSize ∧
          (0 < stored.len → stored.pos + stored.len ≤ datalets.log.file.length)) ∧
      ∀ value ∈ datalets.hashTable key, 0 ∉ value
  | _ => True

instance (datalets : Datalets) : (event : Event) → Decidable (datalets.Readable event)
  | .request (.get key) _ => inferInstanceAs (Decidable
      ((∀ stored ∈ datalets.log.hashmap key,
        stored.len ≤ ILog.valSize ∧
          (0 < stored.len → stored.pos + stored.len ≤ datalets.log.file.length)) ∧
      ∀ value ∈ datalets.hashTable key, 0 ∉ value))
  | .request (.put _ _) _ | .request (.del _) _ | .flush _ => .isTrue trivial

/-- The log answers as the hash table does. -/
theorem ILog.Holds.handleRequest {log : ILog} (holds : log.Holds store) {val : Bytes}
    (readable : ∀ key, request = .get key → ∀ stored ∈ log.hashmap key,
      stored.len ≤ ILog.valSize ∧ (0 < stored.len → stored.pos + stored.len ≤ log.file.length)) :
    ∃ after, log.handleRequest val request = .ok (after, (IHT.handleRequest store request).2) ∧
      after.Holds (IHT.handleRequest store request).1 := by
  cases request with
  | get key =>
      have content := holds.content key
      cases found : log.hashmap key with
      | none =>
          rw [found, Option.map_none] at content
          exact ⟨log, by simp [ILog.handleRequest, IHT.handleRequest, found, ← content],
            by simpa [IHT.handleRequest, ← content] using holds⟩
      | some stored =>
          obtain ⟨fits, flushed⟩ := readable key rfl stored found
          have read : ILog.fread log.file stored val = _ := ILog.fread_of_flushed flushed
          rw [found, Option.map_some, ← read] at content
          refine ⟨{ log with rlog := some log.file.length }, ?_, ?_⟩
          · simp [ILog.handleRequest, IHT.handleRequest, found, ← content, not_lt.mpr fits]
          · simp only [IHT.handleRequest, ← content]
            exact ⟨holds.inside, holds.content⟩
  | put key value => exact ⟨_, rfl, holds.put key value⟩
  | del key => exact ⟨log, rfl, holds⟩

/-- What the masstree holds for the values of a map. -/
def IMT.stored (store : Key → Option Value) : Key → Option Bytes :=
  fun key => (store key).map (· ++ [0])

/-- The masstree answers as the hash table does. -/
theorem IMT.handleRequest_stored
    (readable : ∀ key, request = .get key → ∀ value ∈ store key, 0 ∉ value) :
    IMT.handleRequest (IMT.stored store) request =
      (IMT.stored (IHT.handleRequest store request).1, (IHT.handleRequest store request).2) := by
  cases request with
  | get key =>
      cases held : store key with
      | none => simp [IMT.handleRequest, IHT.handleRequest, IMT.stored, held]
      | some value =>
          simp [IMT.handleRequest, IHT.handleRequest, IMT.stored, held,
            cString_append_zero (readable key rfl value held)]
  | put key value =>
      have written : IMT.stored (Function.update store key (some value)) =
          Function.update (IMT.stored store) key (some (value ++ [0])) := by
        funext other
        by_cases same : other = key
        · subst same
          simp [IMT.stored]
        · simp [IMT.stored, same]
      simp only [IMT.handleRequest, IHT.handleRequest, written]
  | del key => rfl

/-- The three datalets hold one map, the one the requests so far have written, and have
answered as it does. -/
structure Datalets.Agree (datalets : Datalets) : Prop where
  store : datalets.hashTable = History.replay write? datalets.requests
  log : datalets.log.Holds datalets.hashTable
  tree : datalets.tree = IMT.stored datalets.hashTable
  hashReplies : datalets.hashReplies = expectedAll [] datalets.requests
  logReplies : datalets.logReplies = expectedAll [] datalets.requests
  treeReplies : datalets.treeReplies = expectedAll [] datalets.requests

theorem Datalets.agree_init : Agree {} where
  store := rfl
  log := ⟨fun _ _ found => (nomatch found), fun _ => rfl⟩
  tree := rfl
  hashReplies := rfl
  logReplies := rfl
  treeReplies := rfl

namespace Datalets.Agree

variable {datalets next : Datalets} {val : Bytes}

/-- A request that can be read is answered, and alike. -/
theorem handled (agree : datalets.Agree) (supported : request.Supported)
    (sized : val.length = ILog.valSize) (readable : datalets.Readable (.request request val)) :
    ∃ next, datalets.step (.request request val) = .ok next ∧ next.Agree := by
  obtain ⟨log, logged, holds⟩ : ∃ after, datalets.log.handleRequest val request =
        .ok (after, (IHT.handleRequest datalets.hashTable request).2) ∧
      after.Holds (IHT.handleRequest datalets.hashTable request).1 := by
    refine agree.log.handleRequest ?_
    rintro key rfl
    exact readable.1
  have stored : IMT.handleRequest (IMT.stored datalets.hashTable) request =
      (IMT.stored (IHT.handleRequest datalets.hashTable request).1,
        (IHT.handleRequest datalets.hashTable request).2) := by
    refine IMT.handleRequest_stored ?_
    rintro key rfl
    exact readable.2
  have reply : expected datalets.requests request =
      (IHT.handleRequest datalets.hashTable request).2 := expected_eq _ _ agree.store.symm
  have stepped : datalets.step (.request request val) = .ok {
      hashTable := (IHT.handleRequest datalets.hashTable request).1
      log
      tree := IMT.stored (IHT.handleRequest datalets.hashTable request).1
      requests := datalets.requests ++ [request]
      hashReplies := datalets.hashReplies ++ [(IHT.handleRequest datalets.hashTable request).2]
      logReplies := datalets.logReplies ++ [(IHT.handleRequest datalets.hashTable request).2]
      treeReplies :=
        datalets.treeReplies ++ [(IHT.handleRequest datalets.hashTable request).2] } := by
    simp only [step, supported, sized, and_self, if_true, agree.tree, stored, logged]
  refine ⟨_, stepped, ?_⟩
  have replies : ∀ earlier, earlier = expectedAll [] datalets.requests →
      earlier ++ [(IHT.handleRequest datalets.hashTable request).2] =
        expectedAll [] (datalets.requests ++ [request]) := by
    rintro earlier rfl
    rw [expectedAll_append, List.nil_append, reply]
  exact {
    store := by
      rw [History.replay_append, ← agree.store]
      exact IHT.handleRequest_store
    log := holds
    tree := rfl
    hashReplies := replies _ agree.hashReplies
    logReplies := replies _ agree.logReplies
    treeReplies := replies _ agree.treeReplies }

theorem step {event : Event} (agree : datalets.Agree) (readable : datalets.Readable event)
    (moved : datalets.step event = .ok next) : next.Agree := by
  cases event with
  | flush count =>
      obtain rfl := Except.ok.inj moved
      exact { agree with log := agree.log.flush count }
  | request request val =>
      by_cases allowed : request.Supported ∧ val.length = ILog.valSize
      · obtain ⟨after, stepped, agreed⟩ := agree.handled allowed.1 allowed.2 readable
        rw [stepped] at moved
        obtain rfl := Except.ok.inj moved
        exact agreed
      · simp [Datalets.step, allowed] at moved

end Datalets.Agree

/-- In a run in which every GET meets the condition, the three datalets give the replies of a
map, and they answer every further request that meets it. -/
theorem datalets_interchangeable {datalets : Datalets}
    (run : Transition.Runs Datalets.step Datalets.Readable {} datalets) :
    datalets.hashReplies = expectedAll [] datalets.requests ∧
      datalets.logReplies = expectedAll [] datalets.requests ∧
      datalets.treeReplies = expectedAll [] datalets.requests ∧
      ∀ (request : Request) (val : Bytes), request.Supported → val.length = ILog.valSize →
        datalets.Readable (.request request val) →
        ∃ next, datalets.step (.request request val) = .ok next := by
  have agree : datalets.Agree :=
    run.invariant Datalets.Agree (fun _ _ _ before readable moved => before.step readable moved)
      Datalets.agree_init
  refine ⟨agree.hashReplies, agree.logReplies, agree.treeReplies, ?_⟩
  intro request val supported sized readable
  obtain ⟨next, moved, -⟩ := agree.handled supported sized readable
  exact ⟨next, moved⟩

/-- A stack of zeros. -/
def zeros : Bytes := List.replicate ILog.valSize 0

theorem datalets_interchangeable_sample :
    ∃ datalets, Transition.Runs Datalets.step Datalets.Readable {} datalets ∧
      datalets.requests = [.put [1] [7, 8], .put [1] [9], .get [1], .get [2]] ∧
      datalets.logReplies = expectedAll [] datalets.requests ∧
      datalets.treeReplies = expectedAll [] datalets.requests ∧
      datalets.hashReplies = [⟨0, none⟩, ⟨0, none⟩, ⟨0, some [9]⟩, ⟨-1, none⟩] := by
  obtain ⟨datalets, run, post⟩ := Transition.Runs.exists_of_exec Datalets.step Datalets.Readable {}
    [.request (.put [1] [7, 8]) zeros, .flush 1, .request (.put [1] [9]) zeros, .flush 2,
      .request (.get [1]) zeros, .request (.get [2]) zeros]
    (fun datalets => decide
      (datalets.requests = [.put [1] [7, 8], .put [1] [9], .get [1], .get [2]] ∧
        datalets.hashReplies = [⟨0, none⟩, ⟨0, none⟩, ⟨0, some [9]⟩, ⟨-1, none⟩]))
    (by decide +kernel)
  obtain ⟨requests, replies⟩ := of_decide_eq_true post
  obtain ⟨-, logReplies, treeReplies, -⟩ := datalets_interchangeable run
  exact ⟨datalets, run, requests, logReplies, treeReplies, replies⟩

/-- A value that has not been flushed, a value with a zero byte, and a value that is longer
than the array it is read into. -/
theorem datalets_differ :
    (∃ datalets, Transition.Runs Datalets.step (fun _ _ => True) {} datalets ∧
      datalets.requests = [.put [1] [7], .get [1]] ∧
      datalets.hashReplies = [⟨0, none⟩, ⟨0, some [7]⟩] ∧
      datalets.logReplies = [⟨0, none⟩, ⟨0, some [0]⟩]) ∧
    (∃ datalets, Transition.Runs Datalets.step (fun _ _ => True) {} datalets ∧
      datalets.requests = [.put [1] [7, 0, 8], .get [1]] ∧
      datalets.hashReplies = [⟨0, none⟩, ⟨0, some [7, 0, 8]⟩] ∧
      datalets.treeReplies = [⟨0, none⟩, ⟨0, some [7]⟩]) ∧
    ∃ datalets, Transition.Runs Datalets.step (fun _ _ => True) {} datalets ∧
      datalets.requests = [.put [1] (List.replicate 257 7)] ∧
      datalets.log.buffer = [] ∧
      (IHT.handleRequest datalets.hashTable (.get [1])).2 =
        ⟨0, some (List.replicate 257 7)⟩ ∧
      (datalets.log.handleRequest zeros (.get [1]) matches .error .undefined) := by
  refine ⟨?_, ?_, ?_⟩
  · obtain ⟨datalets, run, post⟩ := Transition.Runs.exists_of_exec Datalets.step (fun _ _ => True)
      {} [.request (.put [1] [7]) zeros, .request (.get [1]) zeros]
      (fun datalets => decide (datalets.requests = [.put [1] [7], .get [1]] ∧
        datalets.hashReplies = [⟨0, none⟩, ⟨0, some [7]⟩] ∧
        datalets.logReplies = [⟨0, none⟩, ⟨0, some [0]⟩])) (by decide +kernel)
    exact ⟨datalets, run, of_decide_eq_true post⟩
  · obtain ⟨datalets, run, post⟩ := Transition.Runs.exists_of_exec Datalets.step (fun _ _ => True)
      {} [.request (.put [1] [7, 0, 8]) zeros, .flush 3, .request (.get [1]) zeros]
      (fun datalets => decide (datalets.requests = [.put [1] [7, 0, 8], .get [1]] ∧
        datalets.hashReplies = [⟨0, none⟩, ⟨0, some [7, 0, 8]⟩] ∧
        datalets.treeReplies = [⟨0, none⟩, ⟨0, some [7]⟩])) (by decide +kernel)
    exact ⟨datalets, run, of_decide_eq_true post⟩
  · obtain ⟨datalets, run, post⟩ := Transition.Runs.exists_of_exec Datalets.step (fun _ _ => True)
      {} [.request (.put [1] (List.replicate 257 7)) zeros, .flush 257]
      (fun datalets => decide (datalets.requests = [.put [1] (List.replicate 257 7)] ∧
        datalets.log.buffer = [] ∧
        (IHT.handleRequest datalets.hashTable (.get [1])).2 =
          ⟨0, some (List.replicate 257 7)⟩ ∧
        datalets.log.handleRequest zeros (.get [1]) matches .error .undefined))
      (by decide +kernel)
    exact ⟨datalets, run, of_decide_eq_true post⟩

end BespoKV.Datalet
