import BespoKV.Library.Transition
import BespoKV.Proxy.Types

/-!
# Recovery from the log

`recover_kafka` writes the log to a datalet.  It takes every readable event for the
answer to a request, reads one more message then, and stops at the first empty result of
`consume`, whatever is queued and whatever made the result empty.
-/

namespace BespoKV

/-- `rstatus_t` -/
inductive Status where
  | ok
  | err
  deriving DecidableEq, Repr

/-- The thread of `recover_kafka` with its connection: the offset of the next message, the
queue of the link and its events, what was written and how many of these requests were
answered, the bytes of answers that were not read, and the result. -/
structure Recovery where
  started : Bool := false
  offset : Nat := 0
  imsgQ : List Bytes := []
  fdes : FdFlags := {}
  sent : List Bytes := []
  answered : Nat := 0
  unread : Nat := 0
  result : Option Status := none

namespace Recovery

/-- What happens next. -/
inductive Event where
  /-- the first `consume` returns -/
  | start (payload : Bytes)
  /-- the datalet answers a request -/
  | answer (size : Nat)
  /-- `FDEVENT_IN`: `msg_read` takes that many bytes, none on `EWOULDBLOCK`; it fails then, or
  `consume` returns -/
  | readable (size : Nat) (fails : Bool) (payload : Bytes)
  /-- `FDEVENT_OUT`: `msg_send` succeeds or not -/
  | writable (sends : Bool)

/-- `COnKafka_Consumer::consume` returns an empty message on a timeout and at the end of
the partition, or the next message. -/
def consume (log : List Bytes) (offset : Nat) (payload : Bytes) : Option Nat :=
  if payload = [] then some offset
  else if log[offset]? = some payload then some (offset + 1)
  else none

/-- A message joins the queue; the link is armed if it was empty. -/
def enqueue (recovery : Recovery) (payload : Bytes) (offset : Nat) : Recovery :=
  { recovery with
    offset
    fdes := if recovery.imsgQ = [] then { recovery.fdes with out := true } else recovery.fdes
    imsgQ := recovery.imsgQ ++ [payload] }

def step (log : List Bytes) (recovery : Recovery) : Event → Except Fault Recovery
  | .start payload =>
      if recovery.started then
        .error .disabled
      else
        let armed := { recovery with started := true, fdes := { recovery.fdes with out := true } }
        match consume log recovery.offset payload with
        | none => .error .disabled
        | some offset =>
            if payload.length = 0 then
              .ok { armed with result := some .ok }
            else
              .ok (armed.enqueue payload offset)
  | .answer size =>
      if recovery.result = none ∧ recovery.answered < recovery.sent.length ∧ 0 < size then
        .ok { recovery with answered := recovery.answered + 1, unread := recovery.unread + size }
      else
        .error .disabled
  | .readable size fails payload =>
      if recovery.result = none ∧ recovery.started ∧ recovery.fdes.inn ∧
          size ≤ min recovery.unread 8192 then
        let read := { recovery with unread := recovery.unread - size }
        -- the link is marked and stays in the loop
        if fails then
          .ok read
        else
          -- an empty buffer is not `NULL`: nothing need have been read
          match consume log recovery.offset payload with
          | none => .error .disabled
          | some offset =>
              if payload.length = 0 then
                .ok { read with result := some .ok }
              else
                .ok (read.enqueue payload offset)
      else
        .error .disabled
  | .writable sends =>
      -- an event with both flags is handled as a readable one
      if recovery.result = none ∧ recovery.started ∧ recovery.fdes.out ∧
          ¬(recovery.fdes.inn ∧ 0 < recovery.unread) then
        match recovery.imsgQ with
        | [] => .ok { recovery with fdes := { recovery.fdes with out := false } }
        | smsg :: rest =>
            if sends then
              .ok { recovery with
                imsgQ := rest
                sent := recovery.sent ++ [smsg]
                fdes := { recovery.fdes with inn := true } }
            else
              .ok { recovery with imsgQ := rest, result := some .err }
      else
        .error .disabled

/-- `consume` is empty only when the log has been read, and a read that does not fail, also
one of nothing, finds nothing queued. -/
def Event.Prompt (log : List Bytes) (recovery : Recovery) : Event → Prop
  | .start payload => payload = [] → log.length ≤ recovery.offset
  | .readable _ fails payload => fails = false →
      recovery.imsgQ = [] ∧ (payload = [] → log.length ≤ recovery.offset)
  | .answer _ | .writable _ => True

instance (log : List Bytes) (recovery : Recovery) : DecidablePred (Event.Prompt log recovery) :=
  fun event =>
    match event with
    | .start _ => inferInstanceAs (Decidable (_ → _))
    | .readable _ _ _ => inferInstanceAs (Decidable (_ → _ ∧ (_ → _)))
    | .answer _ => isTrue trivial
    | .writable _ => isTrue trivial

variable {log : List Bytes} {recovery after : Recovery} {event : Event}

/-- Messages were written or are queued in the order of the log; nothing is left when the
thread is done. -/
structure InOrder (log : List Bytes) (recovery : Recovery) : Prop where
  order : recovery.result ≠ some .err → recovery.sent ++ recovery.imsgQ = log.take recovery.offset
  fresh : recovery.started = false → recovery.imsgQ = [] ∧ recovery.result = none
  done : recovery.result = some .ok → recovery.imsgQ = [] ∧ log.length ≤ recovery.offset

theorem consume_cases {offset next : Nat} {payload : Bytes}
    (consumed : consume log offset payload = some next) :
    payload = [] ∧ next = offset ∨
      payload ≠ [] ∧ next = offset + 1 ∧ log.take next = log.take offset ++ [payload] := by
  unfold consume at consumed
  split at consumed
  next empty =>
    cases consumed
    exact .inl ⟨empty, rfl⟩
  next content =>
    split at consumed
    next found =>
      cases consumed
      obtain ⟨bound, isNext⟩ := List.getElem?_eq_some_iff.mp found
      exact .inr ⟨content, rfl, by rw [List.take_add_one, found]; rfl⟩
    · cases consumed

/-- A message that is taken from the log joins the queue. -/
theorem InOrder.enqueue {payload : Bytes} {next : Nat} (inOrder : recovery.InOrder log)
    (running : recovery.result = none) (started : recovery.started = true)
    (grown : log.take next = log.take recovery.offset ++ [payload]) :
    (recovery.enqueue payload next).InOrder log where
  order := fun _ => by
    have order := inOrder.order (by simp [running])
    simp only [Recovery.enqueue]
    rw [grown, ← order, List.append_assoc]
  fresh := fun notStarted => by
    simp [Recovery.enqueue, started] at notStarted
  done := fun isDone => by
    simp [Recovery.enqueue, running] at isDone

theorem InOrder.step (inOrder : recovery.InOrder log) (prompt : event.Prompt log recovery)
    (moved : recovery.step log event = .ok after) : after.InOrder log := by
  cases event with
  | start payload =>
      simp only [Recovery.step] at moved
      split at moved
      · cases moved
      next notStarted =>
        obtain ⟨empty, running⟩ := inOrder.fresh (by simpa using notStarted)
        have order := inOrder.order (by simp [running])
        split at moved
        · cases moved
        next next consumed =>
          have armed : ({ recovery with
              started := true, fdes := { recovery.fdes with out := true } } : Recovery).InOrder
              log :=
            ⟨fun _ => order, by simp, by simp [running]⟩
          rcases consume_cases consumed with ⟨rfl, rfl⟩ | ⟨content, rfl, grown⟩
          · cases moved
            exact ⟨fun _ => order, by simp, fun _ => ⟨empty, prompt rfl⟩⟩
          · rw [if_neg (by simpa using content)] at moved
            cases moved
            exact armed.enqueue running rfl grown
  | answer size =>
      simp only [Recovery.step] at moved
      split at moved
      · cases moved
        exact ⟨inOrder.order, inOrder.fresh, inOrder.done⟩
      · cases moved
  | readable size fails payload =>
      simp only [Recovery.step] at moved
      split at moved
      next enabled =>
        obtain ⟨running, started, _, _⟩ := enabled
        have order := inOrder.order (by simp [running])
        have read : ({ recovery with unread := recovery.unread - size } : Recovery).InOrder
            log := ⟨inOrder.order, inOrder.fresh, inOrder.done⟩
        split at moved
        · cases moved
          exact read
        next succeeds =>
          obtain ⟨empty, exhausted⟩ := prompt (by simpa using succeeds)
          split at moved
          · cases moved
          next next consumed =>
            rcases consume_cases consumed with ⟨rfl, rfl⟩ | ⟨content, rfl, grown⟩
            · cases moved
              exact ⟨fun _ => order, by simp [started], fun _ => ⟨empty, exhausted rfl⟩⟩
            · rw [if_neg (by simpa using content)] at moved
              cases moved
              exact read.enqueue running started grown
      · cases moved
  | writable sends =>
      simp only [Recovery.step] at moved
      split at moved
      next enabled =>
        obtain ⟨running, started, _, _⟩ := enabled
        have order := inOrder.order (by simp [running])
        split at moved
        · cases moved
          exact ⟨inOrder.order, inOrder.fresh, inOrder.done⟩
        next smsg rest queued =>
          rw [queued] at order
          split at moved
          · cases moved
            refine ⟨fun _ => ?_, by simp [started], by simp [running]⟩
            rw [← order, List.append_assoc]
            rfl
          · cases moved
            exact ⟨by simp, by simp [started], by simp⟩
      · cases moved

/-- **Recovery is complete** when `consume` is empty only at the end of the log and
reads find everything that was consumed written. -/
theorem recovery_complete
    (run : Transition.Runs (Recovery.step log) (fun recovery event => event.Prompt log recovery)
      {} recovery) (returned : recovery.result = some .ok) : recovery.sent = log := by
  have inOrder := run.invariant (InOrder log)
    (fun _ _ _ inOrder prompt moved => inOrder.step prompt moved)
    ⟨fun _ => by simp, fun _ => ⟨rfl, rfl⟩, by simp⟩
  obtain ⟨empty, exhausted⟩ := inOrder.done returned
  have order := inOrder.order (by simp [returned])
  rwa [empty, List.append_nil, List.take_of_length_le exhausted] at order

/-- Two messages, with one read for the answer to the first and two reads for the answer
to the second, of which the first finds the end of the log. -/
theorem recovery_complete_sample : ∃ recovery : Recovery,
    recovery.result = some .ok ∧ recovery.sent = [[1], [2, 3]] := by
  obtain ⟨recovery, run, post⟩ := Transition.Runs.exists_of_exec
    (Recovery.step [[1], [2, 3]]) (fun recovery event => event.Prompt [[1], [2, 3]] recovery) {}
    [.start [1], .writable true, .answer 20, .readable 20 false [2, 3], .writable true, .answer 20,
      .readable 8 false []]
    (fun recovery => recovery.result = some .ok) (by decide)
  have returned : recovery.result = some .ok := by simpa using post
  exact ⟨recovery, returned, recovery_complete run returned⟩

/-- An empty result at the first `consume` ends the recovery of a log with a message in
it; an answer that comes in two reads ends it with a message in the queue. -/
theorem recovery_incomplete :
    (∃ recovery : Recovery, Transition.Runs (Recovery.step [[1]]) (fun _ _ => True) {} recovery ∧
      recovery.result = some .ok ∧ recovery.sent = []) ∧
    ∃ recovery : Recovery,
      Transition.Runs (Recovery.step [[1], [2]]) (fun _ _ => True) {} recovery ∧
      recovery.result = some .ok ∧ recovery.offset = 2 ∧ recovery.sent = [[1]] ∧
      recovery.imsgQ = [[2]] := by
  constructor
  · obtain ⟨recovery, run, post⟩ := Transition.Runs.exists_of_exec
      (Recovery.step [[1]]) (fun _ _ => True) {} [.start []]
      (fun recovery => recovery.result = some .ok ∧ recovery.sent = []) (by decide)
    simp only [decide_eq_true_eq] at post
    exact ⟨recovery, run, post⟩
  · obtain ⟨recovery, run, post⟩ := Transition.Runs.exists_of_exec
      (Recovery.step [[1], [2]]) (fun _ _ => True) {}
      [.start [1], .writable true, .answer 20, .readable 8 false [2], .readable 12 false []]
      (fun recovery => recovery.result = some .ok ∧ recovery.offset = 2 ∧
        recovery.sent = [[1]] ∧ recovery.imsgQ = [[2]]) (by decide)
    simp only [decide_eq_true_eq] at post
    exact ⟨recovery, run, post⟩

end Recovery

end BespoKV
