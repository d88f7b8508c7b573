import Mathlib.Data.List.Nodup
import BespoKV.Loop.Backends

/-!
# The two backends agree

A wait reports the same entries whichever backend is built in, over all runs of orderly calls,
unless an error or a hang-up is pending, which only epoll reports.  Two ways to leave the
agreement are made exact: clearing the last subscription under `select`, and closing a
subscribed descriptor under epoll.
-/

namespace BespoKV.Fde

/-! ## What a wait reports -/

/-- What is pending on a descriptor. -/
structure Polled where
  inn : Bool := false
  out : Bool := false
  err : Bool := false
  hup : Bool := false
  deriving DecidableEq, Repr

namespace Polled

/-- The bits of `epoll_wait`. -/
def mask (polled : Polled) : BitVec 32 :=
  (if polled.inn then epollIn else 0) ||| (if polled.out then epollOut else 0) |||
    (if polled.err then epollErr else 0) ||| (if polled.hup then epollHup else 0)

/-- `select` has no bit for an error or a hang-up: it finds the descriptor ready. -/
def readable (polled : Polled) : Bool := polled.inn || polled.err || polled.hup

def writable (polled : Polled) : Bool := polled.out || polled.err

/-- Neither an error nor a hang-up is pending. -/
def calm (polled : Polled) : Bool := !(polled.err || polled.hup)

/-- The events a wait under epoll reports where these are subscribed: what has occurred of them,
and errors and hang-ups whatever is subscribed. -/
def events (polled : Polled) (flags : FdFlags) : Flags :=
  bits { inn := flags.inn && polled.inn, out := flags.out && polled.out } |||
    if polled.calm then 0 else fdeventErr

/-- The bits that `epoll_wait` reports. -/
def masked (polled : Polled) (flags : FdFlags) : BitVec 32 :=
  (interestMask (bits flags) ||| epollErr ||| epollHup) &&& polled.mask

theorem readyBits_masked (polled : Polled) (flags : FdFlags) :
    Epoll.readyBits (polled.masked flags) = polled.events flags := by
  rcases flags with ⟨inn, out⟩
  rcases polled with ⟨pendingIn, pendingOut, err, hup⟩
  cases inn <;> cases out <;> cases pendingIn <;> cases pendingOut <;> cases err <;>
    cases hup <;> decide

theorem masked_ne_zero_iff (polled : Polled) (flags : FdFlags) :
    polled.masked flags ≠ 0 ↔ polled.events flags ≠ 0 := by
  rcases flags with ⟨inn, out⟩
  rcases polled with ⟨pendingIn, pendingOut, err, hup⟩
  cases inn <;> cases out <;> cases pendingIn <;> cases pendingOut <;> cases err <;>
    cases hup <;> decide

/-- Where nothing but data is pending, the events are those that `select` finds. -/
theorem events_of_calm {polled : Polled} (calm : polled.calm = true) (flags : FdFlags) :
    polled.events flags =
      bits { inn := flags.inn && polled.readable, out := flags.out && polled.writable } := by
  obtain ⟨err, hup⟩ : polled.err = false ∧ polled.hup = false := by
    simpa [Polled.calm] using calm
  rw [events, if_pos calm]
  simp [readable, writable, err, hup]

/-- The bit of an error is there where an error or a hang-up is pending. -/
theorem events_err_iff (polled : Polled) (flags : FdFlags) :
    polled.events flags &&& fdeventErr = 0 ↔ polled.calm = true := by
  unfold events
  rcases flags with ⟨inn, out⟩
  rcases polled with ⟨pendingIn, pendingOut, err, hup⟩
  cases inn <;> cases out <;> cases pendingIn <;> cases pendingOut <;> cases err <;>
    cases hup <;> decide

end Polled

/-- The events of a descriptor that are subscribed and have occurred. -/
def Table.live (table : Table) (readable writable : Nat → Bool) (fd : Nat) : FdFlags :=
  { inn := (table fd).flags.inn && readable fd, out := (table fd).flags.out && writable fd }

/-- The entry a wait under `select` reports for a descriptor. -/
def Table.report (table : Table) (readable writable : Nat → Bool) (fd : Nat) : Fdevent :=
  { fd := fd, sFlags := bits (table fd).flags, events := bits (table.live readable writable fd)
    data := (table fd).data }

/-- The entry a wait under epoll reports for a descriptor. -/
def Table.polledReport (table : Table) (polled : Nat → Polled) (fd : Nat) : Fdevent :=
  { fd := fd, sFlags := bits (table fd).flags, events := (polled fd).events (table fd).flags
    data := (table fd).data }

/-- An entry with the events of a wait. -/
theorem Shows.report {events : List Fdevent} {table : Table} (shows : Shows events table)
    (fd : Nat) (ready : Flags) :
    { entry events fd with events := ready } =
      { fd := fd, sFlags := bits (table fd).flags, events := ready, data := (table fd).data } := by
  obtain ⟨number, flags, data⟩ := shows fd
  dsimp only
  rw [number, flags, data]

namespace Epoll

variable {epoll : Epoll} {table : Table} {polled : Nat → Polled} {reports : List EpollEvent}

/-- What `epoll_wait` may leave in `ep_events`: every registered descriptor with something to
report, once and in any order.  Errors and hang-ups are reported without being asked for. -/
def Reports (epoll : Epoll) (polled : Nat → Polled) (reports : List EpollEvent) : Prop :=
  (reports.map EpollEvent.ptr).Nodup ∧ ∀ epe, epe ∈ reports ↔ ∃ fd registered,
    epoll.interest fd = some registered ∧
      epe = { registered with
        events := (registered.events ||| epollErr ||| epollHup) &&& (polled fd).mask } ∧
      epe.events ≠ 0

theorem wait_spec (events : List Fdevent) (ready : List Nat)
    (inside : ∀ epe ∈ reports, epe.ptr < events.length)
    (distinct : (reports.map EpollEvent.ptr).Nodup) :
    (wait events ready reports).2 = ready ++ reports.map EpollEvent.ptr ∧
      (∀ fd, fd ∉ reports.map EpollEvent.ptr →
        entry (wait events ready reports).1 fd = entry events fd) ∧
      ∀ epe ∈ reports, entry (wait events ready reports).1 epe.ptr =
        { entry events epe.ptr with events := readyBits epe.events } := by
  induction reports generalizing events ready with
  | nil => simp [wait]
  | cons epe rest ih =>
      rw [List.map_cons, List.nodup_cons] at distinct
      obtain ⟨fresh, distinct⟩ := distinct
      have first : epe.ptr < events.length := inside epe List.mem_cons_self
      obtain ⟨listed, frame, reported⟩ :=
        ih (assign events epe.ptr fun fde => { fde with events := readyBits epe.events })
          (ready ++ [epe.ptr])
          (by
            intro other member
            rw [length_assign]
            exact inside other (List.mem_cons_of_mem _ member)) distinct
      rw [wait]
      refine ⟨by rw [listed]; simp, ?_, ?_⟩
      · intro fd absent
        rw [List.map_cons, List.mem_cons, not_or] at absent
        rw [frame fd absent.2, entry_assign first, if_neg absent.1]
      · intro other member
        rcases List.mem_cons.mp member with rfl | member
        · rw [frame _ fresh, entry_assign first, if_pos rfl]
        · have different : other.ptr ≠ epe.ptr := by
            intro same
            exact fresh (same ▸ List.mem_map_of_mem member)
          rw [reported other member, entry_assign first, if_neg different]

/-- What the kernel reports, in terms of the table. -/
theorem Mirrors.mem_reports (mirrors : epoll.Mirrors table)
    (reported : epoll.Reports polled reports) (epe : EpollEvent) :
    epe ∈ reports ↔ (table epe.ptr).flags ≠ {} ∧ (polled epe.ptr).events (table epe.ptr).flags ≠ 0 ∧
      epe.events = (polled epe.ptr).masked (table epe.ptr).flags := by
  rw [reported.2]
  constructor
  · rintro ⟨fd, registered, present, rfl, some⟩
    rw [mirrors.interest, registration] at present
    split at present
    · cases present
    next watched =>
      cases present
      exact ⟨watched, (Polled.masked_ne_zero_iff _ _).mp some, rfl⟩
  · rintro ⟨watched, pending, same⟩
    refine ⟨epe.ptr, { events := interestMask (bits (table epe.ptr).flags), ptr := epe.ptr }, ?_,
      ?_, ?_⟩
    · rw [mirrors.interest, registration, if_neg watched]
    · exact congrArg (EpollEvent.mk · epe.ptr) same
    · rw [same]
      exact (Polled.masked_ne_zero_iff _ _).mpr pending

theorem Mirrors.inside_of_reports (mirrors : epoll.Mirrors table)
    (reported : epoll.Reports polled reports) (epe : EpollEvent)
    (member : epe ∈ reports) : epe.ptr < epoll.events.length :=
  mirrors.inside _ ((mirrors.mem_reports reported epe).mp member).1

/-- A wait returns the subscribed descriptors with something pending, with their entries. -/
theorem Mirrors.wait (mirrors : epoll.Mirrors table)
    (reported : epoll.Reports polled reports) :
    (∀ fd, fd ∈ reports.map EpollEvent.ptr ↔
        (table fd).flags ≠ {} ∧ (polled fd).events (table fd).flags ≠ 0) ∧
      (Epoll.wait epoll.events [] reports).2.map
          (entry (Epoll.wait epoll.events [] reports).1) =
        (reports.map EpollEvent.ptr).map (table.polledReport polled) := by
  obtain ⟨listed, _, entries⟩ :=
    wait_spec epoll.events [] (mirrors.inside_of_reports reported) reported.1
  constructor
  · intro fd
    rw [List.mem_map]
    constructor
    · rintro ⟨epe, member, rfl⟩
      obtain ⟨watched, pending, -⟩ := (mirrors.mem_reports reported epe).mp member
      exact ⟨watched, pending⟩
    · rintro ⟨watched, pending⟩
      exact ⟨{ events := (polled fd).masked (table fd).flags, ptr := fd },
        (mirrors.mem_reports reported _).mpr ⟨watched, pending, rfl⟩, rfl⟩
  · rw [listed, List.nil_append, List.map_map, List.map_map]
    apply List.map_congr_left
    intro epe member
    obtain ⟨_, _, same⟩ := (mirrors.mem_reports reported epe).mp member
    rw [Function.comp_apply, Function.comp_apply, entries epe member, same,
      Polled.readyBits_masked]
    exact mirrors.shows.report epe.ptr _

end Epoll

namespace Select

variable {select : Select} {table : Table} {readable writable : Nat → Bool}

theorem bits_ne_zero_iff (read write : Bool) :
    bits { inn := read, out := write } ≠ 0 ↔ (read || write) = true := by
  cases read <;> cases write <;> decide

/-- The scan finds every entry with a bit left, if `ret` counts at least one bit for each. -/
theorem scan_spec (tRead tWrite : Nat → Bool) (ret : Nat) (events : List Fdevent)
    (ready : List Nat) (i left : Nat) (inside : i + left ≤ events.length)
    (enough : ready.length + (List.range' i left).countP (fun fd => tRead fd || tWrite fd) ≤ ret) :
    (scan tRead tWrite ret events ready i left).2 =
        ready ++ (List.range' i left).filter (fun fd => tRead fd || tWrite fd) ∧
      (∀ fd < i, entry (scan tRead tWrite ret events ready i left).1 fd = entry events fd) ∧
      ∀ fd ∈ (List.range' i left).filter (fun fd => tRead fd || tWrite fd),
        entry (scan tRead tWrite ret events ready i left).1 fd =
          { entry events fd with events := bits { inn := tRead fd, out := tWrite fd } } := by
  induction left generalizing events ready i with
  | zero => simp [scan]
  | succ left ih =>
      by_cases more : ready.length < ret
      · have here : i < events.length := by omega
        rw [List.range'_succ, List.countP_cons] at enough
        have rest := ih
          (assign events i fun fde =>
            { fde with events := bits { inn := tRead i, out := tWrite i } })
          (if bits { inn := tRead i, out := tWrite i } ≠ 0 then ready ++ [i] else ready) (i + 1)
          (by rw [length_assign]; omega)
          (by
            by_cases live : (tRead i || tWrite i) = true
            · rw [if_pos ((bits_ne_zero_iff _ _).mpr live)]
              simp [live] at enough ⊢
              omega
            · rw [if_neg (mt (bits_ne_zero_iff _ _).mp live)]
              simpa [live] using enough)
        have unfolded : scan tRead tWrite ret events ready i (left + 1) =
            scan tRead tWrite ret
              (assign events i fun fde =>
                { fde with events := bits { inn := tRead i, out := tWrite i } })
              (if bits { inn := tRead i, out := tWrite i } ≠ 0 then ready ++ [i] else ready)
              (i + 1) left := by
          rw [scan, if_pos more]
          rfl
        rw [unfolded]
        obtain ⟨listed, frame, entries⟩ := rest
        refine ⟨?_, ?_, ?_⟩
        · rw [listed, List.range'_succ, List.filter_cons]
          by_cases live : (tRead i || tWrite i) = true
          · rw [if_pos ((bits_ne_zero_iff _ _).mpr live), if_pos live, List.append_assoc]
            rfl
          · rw [if_neg (mt (bits_ne_zero_iff _ _).mp live), if_neg live]
        · intro fd below
          rw [frame fd (by omega), entry_assign here, if_neg (by omega)]
        · intro fd member
          rw [List.range'_succ, List.filter_cons] at member
          -- the scan does not come back to an entry it has passed
          have split : fd = i ∨
              fd ∈ (List.range' (i + 1) left).filter fun fd => tRead fd || tWrite fd := by
            split at member
            · exact List.mem_cons.mp member
            · exact .inr member
          rcases split with rfl | later
          · rw [frame fd (by omega), entry_assign here, if_pos rfl]
          · have beyond : i + 1 ≤ fd :=
              (List.mem_range'_1.mp (List.mem_filter.mp later).1).1
            rw [entries fd later, entry_assign here, if_neg (by omega)]
      · -- all of `ret` is found: no entry is left
        have none : (List.range' i (left + 1)).filter (fun fd => tRead fd || tWrite fd) = [] := by
          rw [← List.length_eq_zero_iff, ← List.countP_eq_length_filter]
          omega
        rw [none, scan, if_neg more]
        simp

theorem countP_or_le (tRead tWrite : Nat → Bool) (fds : List Nat) :
    fds.countP (fun fd => tRead fd || tWrite fd) ≤ fds.countP tRead + fds.countP tWrite := by
  induction fds with
  | nil => simp
  | cons fd rest ih =>
      simp only [List.countP_cons]
      cases tRead fd <;> cases tWrite fd <;> simp <;> omega

/-- The members `select` keeps are the live descriptors. -/
theorem Mirrors.kept (mirrors : select.Mirrors table) (fd : Nat) :
    ({ inn := select.kept select.readset readable fd
       out := select.kept select.writeset writable fd } : FdFlags) =
      table.live readable writable fd := by
  unfold Select.kept Table.live
  rw [mirrors.readset, mirrors.writeset]
  by_cases below : fd < select.nfds
  · simp [below]
  · have idle : (table fd).flags = {} := by
      by_contra watched
      exact below (mirrors.bounded fd watched)
    simp [below, idle]

/-- A wait returns the live descriptors, with their entries. -/
theorem Mirrors.wait (mirrors : select.Mirrors table) (readable writable : Nat → Bool) :
    ∃ fds : List Nat, fds.Nodup ∧ (∀ fd, fd ∈ fds ↔ table.live readable writable fd ≠ {}) ∧
      (select.wait readable writable).2.map (entry (select.wait readable writable).1) =
        fds.map (table.report readable writable) := by
  set tRead := select.kept select.readset readable with readDef
  set tWrite := select.kept select.writeset writable with writeDef
  have live : ∀ fd, (tRead fd || tWrite fd) = true ↔ table.live readable writable fd ≠ {} := by
    intro fd
    rw [← mirrors.kept fd, ← bits_ne_zero_iff, Ne, bits_eq_zero]
  have enough : ([] : List Nat).length +
      (List.range' 0 select.nfds).countP (fun fd => tRead fd || tWrite fd) ≤
        select.bitsLeft readable writable := by
    rw [List.length_nil, Nat.zero_add, ← List.range_eq_range']
    exact countP_or_le tRead tWrite _
  obtain ⟨listed, _, entries⟩ := scan_spec tRead tWrite (select.bitsLeft readable writable)
    select.events [] 0 select.nfds (by have := mirrors.inside; omega) enough
  refine ⟨(List.range' 0 select.nfds).filter (fun fd => tRead fd || tWrite fd), ?_, ?_, ?_⟩
  · apply List.Nodup.filter
    exact List.nodup_range'
  · intro fd
    rw [List.mem_filter, live fd, List.mem_range'_1]
    constructor
    · exact fun member => member.2
    · intro alive
      refine ⟨⟨Nat.zero_le _, ?_⟩, alive⟩
      rw [Nat.zero_add]
      apply mirrors.bounded
      intro idle
      simp [Table.live, idle] at alive
  · unfold Select.wait
    dsimp only
    by_cases some : select.bitsLeft readable writable > 0
    · rw [if_pos some, listed, List.nil_append]
      apply List.map_congr_left
      intro fd member
      rw [entries fd member, mirrors.kept fd]
      exact mirrors.shows.report fd _
    · rw [if_neg some]
      have none : (List.range' 0 select.nfds).filter (fun fd => tRead fd || tWrite fd) = [] := by
        rw [← List.length_eq_zero_iff, ← List.countP_eq_length_filter]
        simp only [List.length_nil] at enough
        omega
      rw [none]
      rfl

end Select

/-! ## Runs of orderly calls -/

namespace Backends

/-- Both backends keep one table. -/
def Agree (both : Backends) (table : Table) : Prop :=
  both.epoll.Mirrors table ∧ both.select.Mirrors table

theorem Agree.step {both after : Backends} {call : Call} {table : Table}
    (agree : both.Agree table) (orderly : both.Orderly call)
    (moved : both.step call = .ok after) : after.Agree (table.step call) := by
  obtain ⟨mirrored, selected⟩ := agree
  obtain ⟨orderly, fits⟩ := orderly
  unfold Backends.step at moved
  cases chosen : both.select.step call with
  | error fault =>
      rw [chosen] at moved
      cases moved
  | ok select =>
      rw [chosen] at moved
      cases moved
      exact ⟨mirrored.step orderly, selected.step orderly fits chosen⟩

variable {both : Backends}

theorem Reachable.agree (reached : both.Reachable) : ∃ table, both.Agree table := by
  refine Transition.Runs.invariant (fun both : Backends => ∃ table, both.Agree table) ?_ reached
    ⟨_, Epoll.mirrors_init, Select.mirrors_init⟩
  rintro before call after ⟨table, agree⟩ orderly moved
  exact ⟨table.step call, agree.step orderly moved⟩

/-- Where nothing but data is pending, both backends report the same. -/
theorem report_eq {table : Table} {polled : Nat → Polled} {fd : Nat} (calm : (polled fd).calm) :
    table.polledReport polled fd =
      table.report (fun fd => (polled fd).readable) (fun fd => (polled fd).writable) fd := by
  rw [Table.polledReport, Polled.events_of_calm calm]
  rfl

theorem pending_iff {table : Table} {polled : Nat → Polled} {fd : Nat} (calm : (polled fd).calm) :
    (table fd).flags ≠ {} ∧ (polled fd).events (table fd).flags ≠ 0 ↔
      table.live (fun fd => (polled fd).readable) (fun fd => (polled fd).writable) fd ≠ {} := by
  rw [Polled.events_of_calm calm, Ne, Ne, bits_eq_zero]
  refine ⟨fun both => both.2, fun alive => ⟨fun idle => alive ?_, alive⟩⟩
  simp [Table.live, idle]

theorem filter_reports {report : Nat → Fdevent} (number : ∀ fd, (report fd).fd = fd)
    (chosen : Nat → Bool) (fds : List Nat) :
    (fds.map report).filter (fun fde => chosen fde.fd) = (fds.filter chosen).map report := by
  rw [List.filter_map]
  simp only [Function.comp_def, number]

/-- Whichever backend is built in, a wait returns the same entries with the same events and data
for the descriptors without errors and hang-ups, up to the order in which the kernel reports
them; errors and hang-ups are reported by epoll alone.  The one entry `event_wait` hands on is
among those of the wait. -/
theorem waits_agree (reached : both.Reachable) {polled : Nat → Polled}
    {reports : List EpollEvent} (reported : both.epoll.Reports polled reports) :
    let epolled := (Epoll.wait both.epoll.events [] reports).2.map
      (entry (Epoll.wait both.epoll.events [] reports).1)
    let wait := both.select.wait (fun fd => (polled fd).readable) fun fd => (polled fd).writable
    let selected := wait.2.map (entry wait.1)
    (epolled.filter fun fde => (polled fde.fd).calm).Perm
        (selected.filter fun fde => (polled fde.fd).calm) ∧
      (∀ fde ∈ epolled, fde.events &&& fdeventErr = 0 ↔ (polled fde.fd).calm = true) ∧
      (∀ fde ∈ selected, fde.events &&& fdeventErr = 0) ∧
      ∀ fd ∈ (Epoll.eventWait both.epoll.events reports).2,
        entry (Epoll.eventWait both.epoll.events reports).1 fd ∈ epolled := by
  obtain ⟨table, mirrored, selected⟩ := reached.agree
  obtain ⟨members, waited⟩ := mirrored.wait reported
  obtain ⟨fds, distinct, live, scanned⟩ :=
    selected.wait (fun fd => (polled fd).readable) fun fd => (polled fd).writable
  dsimp only
  rw [waited, scanned]
  refine ⟨?_, ?_, ?_, ?_⟩
  · have calmly : ∀ fd ∈ fds.filter fun fd => (polled fd).calm,
        table.polledReport polled fd =
          table.report (fun fd => (polled fd).readable) (fun fd => (polled fd).writable) fd :=
      fun fd member => report_eq (List.mem_filter.mp member).2
    rw [filter_reports (fun _ => rfl) fun fd => (polled fd).calm,
      filter_reports (fun _ => rfl) fun fd => (polled fd).calm, ← List.map_congr_left calmly]
    refine List.Perm.map _ ((List.perm_ext_iff_of_nodup ?_ ?_).mpr fun fd => ?_)
    · exact reported.1.filter _
    · exact distinct.filter _
    · rw [List.mem_filter, List.mem_filter, members fd, live fd]
      refine and_congr_left fun calm => ?_
      exact pending_iff calm
  · intro fde member
    obtain ⟨fd, -, rfl⟩ := List.mem_map.mp member
    exact Polled.events_err_iff (polled fd) (table fd).flags
  · intro fde member
    obtain ⟨fd, -, rfl⟩ := List.mem_map.mp member
    dsimp only [Table.report]
    generalize table.live _ _ fd = flags
    rcases flags with ⟨inn, out⟩
    cases inn <;> cases out <;> decide
  · cases reports with
    | nil => simp [Epoll.eventWait]
    | cons epe rest =>
        intro fd handed
        obtain rfl : fd = epe.ptr := by
          simpa [Epoll.eventWait] using handed
        have first : epe ∈ epe :: rest := List.mem_cons_self
        obtain ⟨watched, pending, same⟩ := (mirrored.mem_reports reported epe).mp first
        refine List.mem_map.mpr ⟨epe.ptr, (members epe.ptr).mpr ⟨watched, pending⟩, ?_⟩
        rw [Epoll.eventWait]
        dsimp only
        rw [entry_assign (mirrored.inside_of_reports reported epe first), if_pos rfl, same,
          Polled.readyBits_masked]
        exact (mirrored.shows.report epe.ptr _).symm

/-- A listening descriptor, subscribed for reading. -/
theorem exists_listening : ∃ both : Backends, both.Reachable ∧
    both.epoll.interest = Function.update (fun _ => none) 3 (some { events := epollIn, ptr := 3 }) ∧
    both.epoll.opened 3 = true ∧ (entry both.select.events 3).sFlags = fdeventIn ∧
    ∀ other, other ≠ 3 → (entry both.select.events other).sFlags = 0 := by
  have opened : Reachable _ := (Transition.Runs.refl ({} : Backends)).tail
    (show Orderly {} (.opens 3) from ⟨rfl, trivial⟩) rfl
  have listening : Reachable _ := Transition.Runs.tail opened
    (show Orderly _ (.set 3 fdeventIn { num := 0, ptr := some 0 }) by decide) rfl
  refine ⟨_, listening, rfl, rfl, by decide, ?_⟩
  intro other different
  have same := entry_assign_getFde_of_ne [] (fun fde => { fde with
    sFlags := fde.sFlags ||| fdeventIn, data := { num := 0, ptr := some 0 } }) different
  exact congrArg Fdevent.sFlags same

/-- The peer has reset the connection: both backends report the descriptor, and epoll reports the
error. -/
theorem waits_agree_listening : ∃ both : Backends, both.Reachable ∧
    ∀ fde ∈ (Epoll.wait both.epoll.events [] [{ events := epollIn ||| epollErr, ptr := 3 }]).2.map
        (entry (Epoll.wait both.epoll.events []
          [{ events := epollIn ||| epollErr, ptr := 3 }]).1),
      fde.events &&& fdeventErr = 0 ↔ fde.fd ≠ 3 := by
  obtain ⟨both, reached, registered, _⟩ := exists_listening
  have reported : both.epoll.Reports
      (fun fd => { inn := true, out := true, err := fd = 3, hup := false })
      [{ events := epollIn ||| epollErr, ptr := 3 }] := by
    refine ⟨by simp, fun epe => ?_⟩
    rw [registered, List.mem_singleton]
    constructor
    · rintro rfl
      exact ⟨3, _, Function.update_self .., by decide, by decide⟩
    · rintro ⟨fd, epe, present, rfl, _⟩
      by_cases same : fd = 3
      · subst fd
        rw [Function.update_self] at present
        cases present
        decide
      · rw [Function.update_of_ne same] at present
        cases present
  obtain ⟨-, errors, -, -⟩ := waits_agree reached reported
  refine ⟨both, reached, fun fde member => (errors fde member).trans ?_⟩
  simp [Polled.calm]

/-- The only orderly call that goes wrong is a `clr` of the last subscription under `select`: its
search for the new `maxfd` runs off the table. -/
theorem only_the_last_clr_is_undefined (reached : both.Reachable) {call : Call}
    (orderly : both.Orderly call) (fault : Fault) :
    both.step call = .error fault ↔ fault = .undefined ∧ ∃ fd flags, call = .clr fd flags ∧
      (entry both.select.events fd).sFlags = flags ∧
        ∀ other, other ≠ fd → (entry both.select.events other).sFlags = 0 := by
  obtain ⟨table, mirrored, selected⟩ := reached.agree
  cases call with
  | opens fd => simp [step, Select.step, Except.map]
  | closes fd => simp [step, Select.step, Except.map]
  | set fd flags data => simp [step, Select.step, Except.map]
  | del fd =>
      obtain ⟨select, chosen, _⟩ := selected.del fd
      simp [step, Select.step, chosen, Except.map]
  | clr fd flags =>
      obtain ⟨⟨_, one⟩, _⟩ := orderly
      obtain ⟨direction, rfl⟩ : ∃ direction : Direction, flags = direction.bits :=
        ⟨.ofBits flags, (Direction.bits_ofBits one).symm⟩
      have last : (has (table fd).flags direction = true ∧
          ∀ other, (table.clr fd direction other).flags = {}) ↔
          (entry both.select.events fd).sFlags = direction.bits ∧
            ∀ other, other ≠ fd → (entry both.select.events other).sFlags = 0 := by
        simp only [selected.shows.flags_eq, bits_eq_zero]
        exact table.clr_empties_iff fd direction
      rcases selected.clr fd direction with ⟨subscribed, nothing, failed⟩ |
        ⟨kept, select, chosen, _⟩
      · have alone := last.mp ⟨subscribed, nothing⟩
        simp only [step, Select.step, failed, Except.map, Except.error.injEq]
        constructor
        · rintro rfl
          exact ⟨rfl, fd, direction.bits, rfl, alone⟩
        · rintro ⟨rfl, _⟩
          rfl
      · simp only [step, Select.step, chosen, Except.map]
        constructor
        · intro impossible
          cases impossible
        · rintro ⟨_, other, flags, same, alone⟩
          cases same
          exact absurd (last.mpr alone) kept

theorem only_the_last_clr_is_undefined_listening : ∃ both : Backends, both.Reachable ∧
    both.Orderly (.clr 3 fdeventIn) ∧ both.step (.clr 3 fdeventIn) = .error .undefined := by
  obtain ⟨both, reached, _, opened, flags, alone⟩ := exists_listening
  have orderly : both.Orderly (.clr 3 fdeventIn) := ⟨⟨opened, .inl rfl⟩, by decide⟩
  exact ⟨both, reached, orderly, (only_the_last_clr_is_undefined reached orderly _).mpr
    ⟨rfl, 3, fdeventIn, rfl, flags, alone⟩⟩

end Backends

/-! ## The kernel's interest list -/

namespace Epoll

/-- No `epoll_ctl` that `set` or `clr` makes is refused, `del` is refused only for a descriptor
without subscriptions, and the kernel's interest list is the table of `s_flags`. -/
theorem subscriptions_reach_the_kernel {epoll : Epoll} (reached : epoll.Reachable) :
    (∀ fd flags data, epoll.Orderly (.set fd flags data) → (epoll.set fd flags data).2 = 0) ∧
      (∀ fd flags, epoll.Orderly (.clr fd flags) → (epoll.clr fd flags).2 = 0) ∧
      (∀ fd, epoll.Orderly (.del fd) →
        ((epoll.del fd).2 = -1 ↔ (entry epoll.events fd).sFlags = 0)) ∧
      ∀ fd, epoll.interest fd =
        if (entry epoll.events fd).sFlags = 0 then none
        else some { events := interestMask (entry epoll.events fd).sFlags, ptr := fd } := by
  obtain ⟨table, mirrored⟩ := reached.mirrors
  refine ⟨?_, ?_, ?_, ?_⟩
  · rintro fd flags data ⟨opened, one⟩
    obtain ⟨_, called, _⟩ := mirrored.set (.ofBits flags) data opened
    rw [Direction.bits_ofBits one] at called
    rw [called]
  · rintro fd flags ⟨opened, one⟩
    obtain ⟨_, called, _⟩ := mirrored.clr (.ofBits flags) opened
    rw [Direction.bits_ofBits one] at called
    rw [called]
  · intro fd opened
    obtain ⟨_, called, _⟩ := mirrored.del opened
    rw [called, mirrored.shows.flags_eq fd, bits_eq_zero]
    split <;> simp_all
  · intro fd
    rw [mirrored.interest, registration, mirrored.shows.flags_eq fd]
    simp only [bits_eq_zero]

/-- After its only subscription has been cleared, a descriptor can be subscribed again. -/
theorem subscriptions_reach_the_kernel_cleared :
    ∃ epoll : Epoll, epoll.Reachable ∧ epoll.interest 3 = none ∧
      (epoll.set 3 fdeventOut {}).2 = 0 := by
  obtain ⟨epoll, reached, cleared⟩ := Transition.Runs.exists_of_exec
    (fun epoll call => (.ok (epoll.step call) : Except Fault Epoll)) Orderly {}
    [.opens 3, .set 3 fdeventIn {}, .clr 3 fdeventIn]
    (fun epoll => epoll.opened 3 = true ∧ (entry epoll.events 3).sFlags = 0) (by decide)
  obtain ⟨opened, idle⟩ := of_decide_eq_true cleared
  obtain ⟨setting, -, -, known⟩ := subscriptions_reach_the_kernel reached
  refine ⟨epoll, reached, ?_, setting 3 fdeventOut {} ⟨opened, .inr rfl⟩⟩
  rw [known 3, if_pos idle]

/-! ## Closing a subscribed descriptor -/

/-- The table says subscribed, the kernel does not know of it. -/
def Deaf (epoll : Epoll) (fd : Nat) : Prop :=
  (entry epoll.events fd).sFlags ≠ 0 ∧ epoll.interest fd = none

variable {epoll : Epoll} {fd other : Nat}

/-- `epoll_ctl` changes the registration of one descriptor. -/
theorem epollCtl_frame {opened : Nat → Bool} {interest after : Interest} {op : CtlOp}
    {epe : EpollEvent} (different : fd ≠ other)
    (called : epollCtl opened interest op other epe = some after) : after fd = interest fd := by
  unfold epollCtl at called
  split at called
  · split at called <;> cases called <;> exact Function.update_of_ne different _ _
  · cases called

/-- A call for another descriptor changes its entry and its registration. -/
theorem Deaf.ctl (deaf : epoll.Deaf fd) (different : fd ≠ other) (change : Fdevent → Fdevent)
    (op : CtlOp) : (Epoll.ctl { epoll with
      events := assign (getFde epoll.events other) other change } op other).1.Deaf fd := by
  have subscribed : (entry (assign (getFde epoll.events other) other change) fd).sFlags ≠ 0 := by
    rw [entry_assign_getFde_of_ne _ _ different]
    exact deaf.1
  unfold Epoll.ctl
  split
  next called => exact ⟨subscribed, (epollCtl_frame different called).trans deaf.2⟩
  · exact ⟨subscribed, deaf.2⟩

/-- Only an addition registers a descriptor the kernel does not know. -/
theorem epollCtl_unknown {opened : Nat → Bool} {interest : Interest} {op : CtlOp}
    (epe : EpollEvent) (unknown : interest fd = none) (change : op ≠ .add) :
    epollCtl opened interest op fd epe = none := by
  unfold epollCtl
  rw [unknown]
  cases op with
  | add => exact absurd rfl change
  | mod => simp
  | del => simp

theorem Deaf.set (deaf : epoll.Deaf fd) (other : Nat) (flags : Flags) (data : Data) :
    (epoll.set other flags data).1.Deaf fd := by
  obtain ⟨subscribed, unknown⟩ := deaf
  unfold Epoll.set
  dsimp only
  rw [entry_getFde]
  split
  · exact ⟨by rwa [entry_getFde], unknown⟩
  · by_cases same : fd = other
    · subst other
      rw [if_pos subscribed, Epoll.ctl, epollCtl_unknown _ unknown (by simp)]
      refine ⟨?_, unknown⟩
      rw [entry_assign (lt_length_getFde _ _), if_pos rfl, entry_getFde]
      exact fun zero => subscribed (BitVec.or_eq_zero_iff.mp zero).1
    · exact Deaf.ctl ⟨subscribed, unknown⟩ same _ _

theorem Deaf.clr (deaf : epoll.Deaf fd) (different : fd ≠ other) (flags : Flags) :
    (epoll.clr other flags).1.Deaf fd := by
  unfold Epoll.clr
  dsimp only
  rw [entry_getFde]
  split
  · exact ⟨by rw [entry_getFde]; exact deaf.1, deaf.2⟩
  · exact deaf.ctl different _ _

/-- `del` does not help: the kernel refuses it, and the table is left as it is. -/
theorem Deaf.del (deaf : epoll.Deaf fd) (other : Nat) : (epoll.del other).1.Deaf fd := by
  obtain ⟨subscribed, unknown⟩ := deaf
  unfold Epoll.del
  by_cases same : fd = other
  · subst other
    rw [epollCtl_unknown _ unknown (by simp)]
    exact ⟨subscribed, unknown⟩
  · split
    · exact ⟨subscribed, unknown⟩
    next interest called =>
      refine ⟨?_, (epollCtl_frame same called).trans unknown⟩
      rw [entry_assign_getFde_of_ne _ _ same]
      exact subscribed

theorem Deaf.step (deaf : epoll.Deaf fd) {call : Call} (kept : ∀ flags, call ≠ .clr fd flags) :
    (epoll.step call).Deaf fd := by
  cases call with
  | opens other => exact deaf
  | closes other =>
      refine ⟨deaf.1, ?_⟩
      by_cases same : fd = other
      · subst other
        exact Function.update_self ..
      · exact (Function.update_of_ne same _ _).trans deaf.2
  | set other flags data => exact deaf.set other flags data
  | clr other flags =>
      apply deaf.clr
      rintro rfl
      exact kept flags rfl
  | del other => exact deaf.del other

/-- A descriptor number that is closed while it is subscribed is lost to the event loop: whatever
is called afterwards, and however often the number is opened again, the kernel does not watch
it unless a `clr` on it comes first. -/
theorem closed_while_subscribed_stays_deaf (epoll : Epoll) (fd : Nat)
    (subscribed : (entry epoll.events fd).sFlags ≠ 0) (calls : List Call)
    (kept : ∀ flags, Call.clr fd flags ∉ calls) :
    (calls.foldl step (epoll.step (.closes fd))).interest fd = none := by
  have closed : (epoll.step (.closes fd)).Deaf fd := ⟨subscribed, Function.update_self ..⟩
  generalize epoll.step (.closes fd) = start at closed
  suffices deaf : (calls.foldl step start).Deaf fd from deaf.2
  induction calls generalizing start with
  | nil => exact closed
  | cons call rest ih =>
      rw [List.foldl_cons]
      apply ih (fun flags member => kept flags (List.mem_cons_of_mem _ member))
      apply closed.step
      rintro flags rfl
      exact kept flags List.mem_cons_self

theorem closed_while_subscribed_stays_deaf_reopened :
    ([Call.opens 3, .del 3, .set 3 fdeventIn {}, .set 3 fdeventOut {}].foldl step
      (([Call.opens 3, .set 3 fdeventIn {}].foldl step {}).step (.closes 3))).interest 3 = none :=
  closed_while_subscribed_stays_deaf _ 3 (by decide) _ (by simp)

end Epoll

end BespoKV.Fde
