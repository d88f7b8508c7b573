import BespoKV.Library.Transition
import BespoKV.Proxy.Types

/-!
# The two backends of `Fdevents`

`Fdevents` remembers which events are subscribed for which descriptor.  On Linux it keeps the
interest list of an epoll instance next to its own table; elsewhere it keeps the two sets it
hands to `select`.  Both are modelled here with the part of the kernel they talk to: which
descriptors are open, what `epoll_ctl` refuses, what a wait may report.
-/

namespace BespoKV.Fde

/-- The `int` of event bits. -/
abbrev Flags := BitVec 32

def fdeventNone : Flags := 0
def fdeventIn : Flags := 1 <<< 0
def fdeventOut : Flags := 1 <<< 2
def fdeventErr : Flags := 1 <<< 4

/-- `Fdevent::data` -/
structure Data where
  num : Int := 0
  ptr : Option LinkPtr := none
  deriving DecidableEq, Repr

structure Fdevent where
  fd : Nat
  sFlags : Flags := fdeventNone
  events : Flags := fdeventNone
  data : Data := {}
  deriving DecidableEq, Repr

/-! ## The table of descriptors -/

/-- The loop of `get_fde`, run a given number of times. -/
def grow (events : List Fdevent) : Nat → List Fdevent
  | 0 => events
  | rounds + 1 => grow (events ++ [{ fd := events.length }]) rounds

/-- `Fdevents::get_fde`: the table is long enough for `fd` afterwards. -/
def getFde (events : List Fdevent) (fd : Nat) : List Fdevent :=
  grow events (fd + 1 - events.length)

/-- What the table holds for a descriptor; a fresh entry beyond its end. -/
def entry (events : List Fdevent) (fd : Nat) : Fdevent :=
  events[fd]?.getD { fd := fd }

/-- Assign to the entry that `get_fde` returned. -/
def assign (events : List Fdevent) (fd : Nat) (change : Fdevent → Fdevent) : List Fdevent :=
  events.set fd (change (entry events fd))

theorem length_grow (events : List Fdevent) (rounds : Nat) :
    (grow events rounds).length = events.length + rounds := by
  induction rounds generalizing events with
  | zero => rfl
  | succ rounds ih =>
      rw [grow, ih, List.length_append, List.length_singleton]
      omega

theorem lt_length_getFde (events : List Fdevent) (fd : Nat) :
    fd < (getFde events fd).length := by
  rw [getFde, length_grow]
  omega

theorem length_le_length_getFde (events : List Fdevent) (fd : Nat) :
    events.length ≤ (getFde events fd).length := by
  rw [getFde, length_grow]
  omega

theorem entry_push (events : List Fdevent) (fd : Nat) :
    entry (events ++ [{ fd := events.length }]) fd = entry events fd := by
  unfold entry
  rcases Nat.lt_trichotomy fd events.length with inside | rfl | beyond
  · rw [List.getElem?_append_left inside]
  · simp
  · rw [List.getElem?_eq_none (by simp; omega), List.getElem?_eq_none (by omega)]

@[simp] theorem entry_getFde (events : List Fdevent) (fd other : Nat) :
    entry (getFde events fd) other = entry events other := by
  unfold getFde
  generalize fd + 1 - events.length = rounds
  induction rounds generalizing events with
  | zero => rfl
  | succ rounds ih => rw [grow, ih, entry_push]

@[simp] theorem length_assign (events : List Fdevent) (fd : Nat) (change : Fdevent → Fdevent) :
    (assign events fd change).length = events.length := by
  simp [assign]

theorem entry_assign {events : List Fdevent} {fd : Nat} (inside : fd < events.length)
    (change : Fdevent → Fdevent) (other : Nat) :
    entry (assign events fd change) other =
      if other = fd then change (entry events fd) else entry events other := by
  by_cases same : other = fd
  · subst other
    simp [entry, assign, inside]
  · rw [if_neg same, entry, assign, List.getElem?_set_ne (Ne.symm same), entry]

theorem entry_assign_getFde_of_ne {fd other : Nat} (events : List Fdevent)
    (change : Fdevent → Fdevent) (different : fd ≠ other) :
    entry (assign (getFde events other) other change) fd = entry events fd := by
  rw [entry_assign (lt_length_getFde events other), if_neg different, entry_getFde]

/-! ## The epoll backend -/

def epollIn : BitVec 32 := 1
def epollPri : BitVec 32 := 2
def epollOut : BitVec 32 := 4
def epollErr : BitVec 32 := 8
def epollHup : BitVec 32 := 16

/-- `struct epoll_event`; its pointer is the entry of a descriptor. -/
structure EpollEvent where
  events : BitVec 32
  ptr : Nat
  deriving DecidableEq, Repr

inductive CtlOp where
  | add
  | mod
  | del
  deriving DecidableEq, Repr

/-- The interest list of an epoll instance. -/
abbrev Interest := Nat → Option EpollEvent

/-- `epoll_ctl`, `none` where it returns -1: the descriptor is not open (`EBADF`), already
registered (`EEXIST`), or not registered (`ENOENT`). -/
def epollCtl (opened : Nat → Bool) (interest : Interest) (op : CtlOp) (fd : Nat)
    (epe : EpollEvent) : Option Interest :=
  if opened fd then
    match op, interest fd with
    | .add, none => some (Function.update interest fd (some epe))
    | .mod, some _ => some (Function.update interest fd (some epe))
    | .del, some _ => some (Function.update interest fd none)
    | _, _ => none
  else none

/-- The epoll instance, with the descriptors that are open, and the table. -/
structure Epoll where
  opened : Nat → Bool := fun _ => false
  interest : Interest := fun _ => none
  events : List Fdevent := []

/-- The mask that `set` and `clr` hand to the kernel. -/
def interestMask (sFlags : Flags) : BitVec 32 :=
  (if sFlags &&& fdeventIn ≠ 0 then epollIn else 0) |||
    (if sFlags &&& fdeventOut ≠ 0 then epollOut else 0)

namespace Epoll

/-- The call of `epoll_ctl` at the end of `set` and `clr`, with what they return. -/
def ctl (epoll : Epoll) (op : CtlOp) (fd : Nat) : Epoll × Int :=
  match epollCtl epoll.opened epoll.interest op fd
      { events := interestMask (entry epoll.events fd).sFlags, ptr := fd } with
  | some interest => ({ epoll with interest := interest }, 0)
  | none => (epoll, -1)

/-- `Fdevents::set` -/
def set (epoll : Epoll) (fd : Nat) (flags : Flags) (data : Data) : Epoll × Int :=
  let events := getFde epoll.events fd
  let fde := entry events fd
  if fde.sFlags &&& flags ≠ 0 then
    ({ epoll with events := events }, 0)
  else
    let op := if fde.sFlags ≠ 0 then CtlOp.mod else CtlOp.add
    ctl { epoll with
      events := assign events fd fun fde =>
        { fde with sFlags := fde.sFlags ||| flags, data := data } } op fd

/-- `Fdevents::del`: the table is left alone when the kernel refuses. -/
def del (epoll : Epoll) (fd : Nat) : Epoll × Int :=
  match epollCtl epoll.opened epoll.interest .del fd { events := 0, ptr := 0 } with
  | none => (epoll, -1)
  | some interest =>
      ({ epoll with
         interest := interest
         events := assign (getFde epoll.events fd) fd fun fde =>
          { fde with sFlags := fdeventNone } }, 0)

/-- `Fdevents::clr` -/
def clr (epoll : Epoll) (fd : Nat) (flags : Flags) : Epoll × Int :=
  let events := getFde epoll.events fd
  let fde := entry events fd
  if fde.sFlags &&& flags = 0 then
    ({ epoll with events := events }, 0)
  else
    let op := if fde.sFlags &&& ~~~flags ≠ 0 then CtlOp.mod else CtlOp.del
    ctl { epoll with
      events := assign events fd fun fde => { fde with sFlags := fde.sFlags &&& ~~~flags } } op fd

/-- The ready events of `wait`, from the bits the kernel reports. -/
def readyBits (events : BitVec 32) : Flags :=
  (if events &&& epollIn ≠ 0 then fdeventIn else 0) |||
    (if events &&& epollPri ≠ 0 then fdeventIn else 0) |||
    (if events &&& epollOut ≠ 0 then fdeventOut else 0) |||
    (if events &&& epollHup ≠ 0 then fdeventErr else 0) |||
    (if events &&& epollErr ≠ 0 then fdeventErr else 0)

/-- `Fdevents::wait` once `epoll_wait` has filled `ep_events`: the table and `ready_events`. -/
def wait (events : List Fdevent) (ready : List Nat) : List EpollEvent → List Fdevent × List Nat
  | [] => (events, ready)
  | epe :: rest =>
      wait (assign events epe.ptr fun fde => { fde with events := readyBits epe.events })
        (ready ++ [epe.ptr]) rest

/-- `Fdevents::event_wait` once `epoll_wait` has filled `ep_events`: its loop returns in the first
round, so that one entry is handed to `event_process` per call. -/
def eventWait (events : List Fdevent) : List EpollEvent → List Fdevent × List Nat
  | [] => (events, [])
  | epe :: _ =>
      (assign events epe.ptr fun fde => { fde with events := readyBits epe.events }, [epe.ptr])

end Epoll

/-! ## The select backend -/

def fdSetsize : Nat := 1024

/-- The sets handed to `select` and the table.  `nfds` is `maxfd + 1`. -/
structure Select where
  nfds : Nat := 0
  readset : Nat → Bool := fun _ => false
  writeset : Nat → Bool := fun _ => false
  events : List Fdevent := []

namespace Select

/-- `while(events[maxfd]->s_flags == 0) maxfd--`, which reads before the table once `maxfd` is
negative; `atEnd` is what happens there. -/
def lower (events : List Fdevent) (atEnd : Except Fault Nat) : Nat → Except Fault Nat
  | 0 => atEnd
  | maxfd + 1 =>
      match events[maxfd]? with
      | none => .error .undefined
      | some fde => if fde.sFlags = 0 then lower events atEnd maxfd else .ok (maxfd + 1)

/-- `Fdevents::set` -/
def set (select : Select) (fd : Nat) (flags : Flags) (data : Data) : Select × Int :=
  if fd > fdSetsize - 1 then
    (select, -1)
  else
    let events := getFde select.events fd
    if (entry events fd).sFlags &&& flags ≠ 0 then
      ({ select with events := events }, 0)
    else
      ({ readset := if flags &&& fdeventIn ≠ 0 then Function.update select.readset fd true
           else select.readset
         writeset := if flags &&& fdeventOut ≠ 0 then Function.update select.writeset fd true
           else select.writeset
         events := assign events fd fun fde =>
           { fde with sFlags := fde.sFlags ||| flags, data := data }
         nfds := if fd + 1 > select.nfds then fd + 1 else select.nfds }, 0)

/-- `Fdevents::del` -/
def del (select : Select) (fd : Nat) : Except Fault (Select × Int) :=
  let events := assign (getFde select.events fd) fd fun fde => { fde with sFlags := fdeventNone }
  match lower events (.ok 0) select.nfds with
  | .error fault => .error fault
  | .ok nfds =>
      .ok ({ nfds := nfds
             readset := Function.update select.readset fd false
             writeset := Function.update select.writeset fd false
             events := events }, 0)

/-- `Fdevents::clr` -/
def clr (select : Select) (fd : Nat) (flags : Flags) : Except Fault (Select × Int) :=
  let events := getFde select.events fd
  if (entry events fd).sFlags &&& flags = 0 then
    .ok ({ select with events := events }, 0)
  else
    let events := assign events fd fun fde => { fde with sFlags := fde.sFlags &&& ~~~flags }
    match lower events (.error .undefined) select.nfds with
    | .error fault => .error fault
    | .ok nfds =>
        .ok ({ nfds := nfds
               readset := if flags &&& fdeventIn ≠ 0 then Function.update select.readset fd false
                 else select.readset
               writeset := if flags &&& fdeventOut ≠ 0 then
                   Function.update select.writeset fd false
                 else select.writeset
               events := events }, 0)

/-- The loop of `wait` over the table: it stops after `maxfd`, or as soon as it has found as
many entries as `select` reported bits. -/
def scan (tRead tWrite : Nat → Bool) (ret : Nat) (events : List Fdevent) (ready : List Nat)
    (i : Nat) : Nat → List Fdevent × List Nat
  | 0 => (events, ready)
  | left + 1 =>
      if ready.length < ret then
        let bits := (if tRead i then fdeventIn else 0) ||| (if tWrite i then fdeventOut else 0)
        let events := assign events i fun fde => { fde with events := bits }
        scan tRead tWrite ret events (if bits ≠ 0 then ready ++ [i] else ready) (i + 1) left
      else (events, ready)

/-- What a call of `select` leaves in a set: the members below `nfds` that are ready. -/
def kept (select : Select) (members ready : Nat → Bool) (fd : Nat) : Bool :=
  decide (fd < select.nfds) && (members fd && ready fd)

/-- The return value of `select`: the bits left in both sets. -/
def bitsLeft (select : Select) (readable writable : Nat → Bool) : Nat :=
  (List.range select.nfds).countP (select.kept select.readset readable) +
    (List.range select.nfds).countP (select.kept select.writeset writable)

/-- `Fdevents::wait` where `select` succeeds: the table and `ready_events`. -/
def wait (select : Select) (readable writable : Nat → Bool) : List Fdevent × List Nat :=
  let ret := select.bitsLeft readable writable
  if ret > 0 then
    scan (select.kept select.readset readable) (select.kept select.writeset writable) ret
      select.events [] 0 select.nfds
  else (select.events, [])

end Select

/-! ## Both backends under the same calls -/

/-- The calls of the proxy, and what it does to its descriptors. -/
inductive Call where
  | opens (fd : Nat)
  | closes (fd : Nat)
  | set (fd : Nat) (flags : Flags) (data : Data)
  | clr (fd : Nat) (flags : Flags)
  | del (fd : Nat)

/-- One call on the epoll backend.  Closing the last reference to a descriptor takes it off the
interest list. -/
def Epoll.step (epoll : Epoll) : Call → Epoll
  | .opens fd => { epoll with opened := Function.update epoll.opened fd true }
  | .closes fd =>
      { epoll with
        opened := Function.update epoll.opened fd false
        interest := Function.update epoll.interest fd none }
  | .set fd flags data => (epoll.set fd flags data).1
  | .clr fd flags => (epoll.clr fd flags).1
  | .del fd => (epoll.del fd).1

/-- One call on the select backend. -/
def Select.step (select : Select) : Call → Except Fault Select
  | .opens _ => .ok select
  | .closes _ => .ok select
  | .set fd flags data => .ok (select.set fd flags data).1
  | .clr fd flags => (select.clr fd flags).map Prod.fst
  | .del fd => (select.del fd).map Prod.fst

/-- How the proxy uses its event loop: one event bit at a time, on open descriptors, and a
descriptor is closed only after it has been unsubscribed. -/
def Epoll.Orderly (epoll : Epoll) : Call → Prop
  | .opens fd => epoll.opened fd = false
  | .closes fd => (entry epoll.events fd).sFlags = 0
  | .set fd flags _ => epoll.opened fd = true ∧ (flags = fdeventIn ∨ flags = fdeventOut)
  | .clr fd flags => epoll.opened fd = true ∧ (flags = fdeventIn ∨ flags = fdeventOut)
  | .del fd => epoll.opened fd = true

instance Epoll.decidableOrderly : ∀ (epoll : Epoll) (call : Call), Decidable (epoll.Orderly call)
  | epoll, .opens fd => inferInstanceAs (Decidable (epoll.opened fd = false))
  | epoll, .closes fd => inferInstanceAs (Decidable ((entry epoll.events fd).sFlags = 0))
  | epoll, .set fd flags _ => inferInstanceAs (Decidable (epoll.opened fd = true ∧
      (flags = fdeventIn ∨ flags = fdeventOut)))
  | epoll, .clr fd flags => inferInstanceAs (Decidable (epoll.opened fd = true ∧
      (flags = fdeventIn ∨ flags = fdeventOut)))
  | epoll, .del fd => inferInstanceAs (Decidable (epoll.opened fd = true))

/-- What orderly calls lead to, from an instance without subscriptions.  No call fails. -/
def Epoll.Reachable (epoll : Epoll) : Prop :=
  Transition.Runs (fun epoll call => (.ok (epoll.step call) : Except Fault Epoll)) Orderly {} epoll

/-- The descriptor fits a `fd_set`. -/
def Call.Fits : Call → Prop
  | .set fd _ _ | .clr fd _ | .del fd => fd < fdSetsize
  | .opens _ | .closes _ => True

instance : ∀ call : Call, Decidable call.Fits
  | .set fd _ _ | .clr fd _ | .del fd => inferInstanceAs (Decidable (fd < fdSetsize))
  | .opens _ | .closes _ => .isTrue trivial

structure Backends where
  epoll : Epoll := {}
  select : Select := {}

namespace Backends

def step (both : Backends) (call : Call) : Except Fault Backends :=
  (both.select.step call).map fun select => { epoll := both.epoll.step call, select := select }

/-- Orderly calls for descriptors that both backends can watch. -/
def Orderly (both : Backends) (call : Call) : Prop := both.epoll.Orderly call ∧ call.Fits

instance decidableOrderly (both : Backends) (call : Call) : Decidable (both.Orderly call) :=
  inferInstanceAs (Decidable (_ ∧ _))

/-- What orderly calls lead to, from two backends without subscriptions, as long as all of them
are defined for both. -/
def Reachable (both : Backends) : Prop :=
  Transition.Runs step Orderly {} both

end Backends

end BespoKV.Fde
