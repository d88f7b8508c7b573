import BespoKV.Loop.Fdevents

/-!
# One table behind both backends

Both backends keep one table: which directions are subscribed for a descriptor, and the data
that goes with it.  Each operation is shown to keep the interest list of the kernel, and the
sets handed to `select`, equal to this table, with the one exception of a `clr` that leaves
nothing subscribed.
-/

namespace BespoKV.Fde

/-! ## The table -/

/-- An event the proxy subscribes to. -/
inductive Direction where
  | inn
  | out
  deriving DecidableEq, Repr

def Direction.bits : Direction → Flags
  | .inn => fdeventIn
  | .out => fdeventOut

/-- Whether a direction is subscribed. -/
def has (flags : FdFlags) : Direction → Bool
  | .inn => flags.inn
  | .out => flags.out

/-- Subscribe a direction, or drop it. -/
def put (flags : FdFlags) (value : Bool) : Direction → FdFlags
  | .inn => { flags with inn := value }
  | .out => { flags with out := value }

/-- The subscriptions as bits of `s_flags`. -/
def bits (flags : FdFlags) : Flags :=
  (if flags.inn then fdeventIn else 0) ||| (if flags.out then fdeventOut else 0)

theorem bits_and (flags : FdFlags) (direction : Direction) :
    bits flags &&& direction.bits ≠ 0 ↔ has flags direction = true := by
  rcases flags with ⟨inn, out⟩
  cases inn <;> cases out <;> cases direction <;> decide

theorem bits_or (flags : FdFlags) (direction : Direction) :
    bits flags ||| direction.bits = bits (put flags true direction) := by
  rcases flags with ⟨inn, out⟩
  cases inn <;> cases out <;> cases direction <;> decide

theorem bits_andNot (flags : FdFlags) (direction : Direction) :
    bits flags &&& ~~~direction.bits = bits (put flags false direction) := by
  rcases flags with ⟨inn, out⟩
  cases inn <;> cases out <;> cases direction <;> decide

theorem bits_none : bits {} = fdeventNone := by decide

theorem bits_eq_zero (flags : FdFlags) : bits flags = 0 ↔ flags = {} := by
  rcases flags with ⟨inn, out⟩
  cases inn <;> cases out <;> decide

/-- The choice of the `epoll_ctl` operation, read off the table. -/
theorem ite_bits (flags : FdFlags) (some none : CtlOp) :
    (if bits flags ≠ 0 then some else none) = if flags = {} then none else some := by
  by_cases idle : flags = {}
  · rw [if_neg (Decidable.not_not.mpr ((bits_eq_zero flags).mpr idle)), if_pos idle]
  · rw [if_pos (mt (bits_eq_zero flags).mp idle), if_neg idle]

/-- The direction of an event bit. -/
def Direction.ofBits (flags : Flags) : Direction := if flags = fdeventIn then .inn else .out

theorem Direction.bits_ofBits {flags : Flags} (one : flags = fdeventIn ∨ flags = fdeventOut) :
    (Direction.ofBits flags).bits = flags := by
  rcases one with rfl | rfl
  · rfl
  · rfl

/-- What is subscribed for a descriptor, and the data a wait returns with it. -/
structure Watch where
  flags : FdFlags := {}
  data : Data := {}

abbrev Table := Nat → Watch

namespace Table

/-- A new subscription brings its data; one that is there already keeps the old. -/
def set (table : Table) (fd : Nat) (direction : Direction) (data : Data) : Table :=
  if has (table fd).flags direction then table
  else Function.update table fd { flags := put (table fd).flags true direction, data := data }

def clr (table : Table) (fd : Nat) (direction : Direction) : Table :=
  Function.update table fd { table fd with flags := put (table fd).flags false direction }

def del (table : Table) (fd : Nat) : Table :=
  Function.update table fd { table fd with flags := {} }

/-- What a call does to the table. -/
def step (table : Table) : Call → Table
  | .opens _ | .closes _ => table
  | .set fd flags data => table.set fd (.ofBits flags) data
  | .clr fd flags => table.clr fd (.ofBits flags)
  | .del fd => table.del fd

end Table

theorem put_of_has {flags : FdFlags} {direction : Direction} {value : Bool}
    (same : has flags direction = value) : put flags value direction = flags := by
  subst same
  cases direction <;> rfl

theorem Table.set_flags (table : Table) (fd : Nat) (direction : Direction) (data : Data)
    (other : Nat) : (table.set fd direction data other).flags =
      Function.update (fun fd => (table fd).flags) fd (put (table fd).flags true direction)
        other := by
  unfold Table.set
  by_cases same : other = fd
  · subst other
    split
    next subscribed => simp [put_of_has subscribed]
    · simp
  · split <;> simp [same]

/-- The table is what the model of the proxy keeps in `fdes`: the calls of the handlers have the
same effect on both. -/
theorem Table.tracks_proxy {table : Table} {proxy : Proxy}
    (same : ∀ link, (table link).flags = proxy.fdes link) (link : LinkPtr) (data : Data) :
    (∀ other, (table.set link .inn data other).flags = (proxy.setIn link).fdes other) ∧
      (∀ other, (table.set link .out data other).flags = (proxy.setOut link).fdes other) ∧
      (∀ other, (table.clr link .out other).flags = (proxy.clrOut link).fdes other) ∧
      ∀ other, (table.del link other).flags = (proxy.fdDel link).fdes other := by
  have tracked : (fun link => (table link).flags) = proxy.fdes := funext same
  refine ⟨?_, ?_, ?_, ?_⟩
  · intro other
    rw [Table.set_flags, tracked, same]
    rfl
  · intro other
    rw [Table.set_flags, tracked, same]
    rfl
  · intro other
    by_cases here : other = link
    · subst other
      simp [Table.clr, Proxy.clrOut, put, same]
    · simp [Table.clr, Proxy.clrOut, here, same]
  · intro other
    by_cases here : other = link
    · subst other
      simp [Table.del, Proxy.fdDel]
    · simp [Table.del, Proxy.fdDel, here, same]

/-- Clearing a subscribed direction leaves nothing if it was all there was. -/
theorem Table.clr_empties_iff (table : Table) (fd : Nat) (direction : Direction) :
    (has (table fd).flags direction = true ∧ ∀ other, (table.clr fd direction other).flags = {}) ↔
      bits (table fd).flags = direction.bits ∧ ∀ other, other ≠ fd → (table other).flags = {} := by
  have here : (has (table fd).flags direction = true ∧ put (table fd).flags false direction = {}) ↔
      bits (table fd).flags = direction.bits := by
    rcases (table fd).flags with ⟨inn, out⟩
    cases inn <;> cases out <;> cases direction <;> decide
  unfold Table.clr
  constructor
  · rintro ⟨subscribed, nothing⟩
    have self := nothing fd
    rw [Function.update_self] at self
    refine ⟨here.mp ⟨subscribed, self⟩, ?_⟩
    intro other different
    have idle := nothing other
    rwa [Function.update_of_ne different] at idle
  · rintro ⟨alone, nothing⟩
    obtain ⟨subscribed, self⟩ := here.mpr alone
    refine ⟨subscribed, ?_⟩
    intro other
    by_cases same : other = fd
    · subst other
      rw [Function.update_self]
      exact self
    · rw [Function.update_of_ne same]
      exact nothing other same

theorem put_true_ne (flags : FdFlags) (direction : Direction) :
    put flags true direction ≠ {} := by
  cases direction <;> simp [put]

theorem ne_of_has {flags : FdFlags} {direction : Direction}
    (subscribed : has flags direction = true) : flags ≠ {} := by
  rintro rfl
  cases direction <;> simp [has] at subscribed

/-- An entry of a backend's table shows what the abstract table holds. -/
def Shows (events : List Fdevent) (table : Table) : Prop :=
  ∀ fd, (entry events fd).fd = fd ∧ (entry events fd).sFlags = bits (table fd).flags ∧
    (entry events fd).data = (table fd).data

namespace Shows

variable {events : List Fdevent} {table : Table} {fd : Nat}

theorem flags_eq (shows : Shows events table) (fd : Nat) :
    (entry events fd).sFlags = bits (table fd).flags :=
  (shows fd).2.1

theorem getFde (shows : Shows events table) (fd : Nat) : Shows (getFde events fd) table := by
  intro other
  rw [entry_getFde]
  exact shows other

/-- Assigning the entry that `get_fde` returned. -/
theorem assign (shows : Shows events table) {change : Fdevent → Fdevent} {watch : Watch}
    (keeps : (change (entry events fd)).fd = fd)
    (flags : (change (entry events fd)).sFlags = bits watch.flags)
    (data : (change (entry events fd)).data = watch.data) :
    Shows (assign (Fde.getFde events fd) fd change) (Function.update table fd watch) := by
  intro other
  rw [entry_assign (lt_length_getFde events fd), entry_getFde, entry_getFde]
  by_cases same : other = fd
  · subst other
    rw [if_pos rfl, Function.update_self]
    exact ⟨keeps, flags, data⟩
  · rw [if_neg same, Function.update_of_ne same]
    exact shows other

end Shows

/-! ## The interest list is the table -/

/-- What the kernel holds for a watched descriptor. -/
def registration (flags : FdFlags) (fd : Nat) : Option EpollEvent :=
  if flags = {} then none else some { events := interestMask (bits flags), ptr := fd }

namespace Epoll

/-- The interest list of the kernel is the table, and only open descriptors are in it. -/
structure Mirrors (epoll : Epoll) (table : Table) : Prop where
  shows : Shows epoll.events table
  interest : ∀ fd, epoll.interest fd = registration (table fd).flags fd
  opened : ∀ fd, (table fd).flags ≠ {} → epoll.opened fd = true
  inside : ∀ fd, (table fd).flags ≠ {} → fd < epoll.events.length

variable {epoll : Epoll} {table : Table} {fd : Nat}

/-- An `epoll_ctl` that adds, changes or drops as the kernel expects is not refused. -/
theorem epollCtl_some {op : CtlOp} (epe : EpollEvent) (opened : epoll.opened fd = true)
    (expected : op = .add ↔ epoll.interest fd = none) :
    epollCtl epoll.opened epoll.interest op fd epe =
      some (Function.update epoll.interest fd (if op = .del then none else some epe)) := by
  unfold epollCtl
  rw [if_pos opened]
  cases op with
  | add =>
      rw [expected.mp rfl]
      rfl
  | mod =>
      cases present : epoll.interest fd with
      | none => simp [present] at expected
      | some _ => rfl
  | del =>
      cases present : epoll.interest fd with
      | none => simp [present] at expected
      | some _ => rfl

namespace Mirrors

theorem interest_none_iff (mirrors : epoll.Mirrors table) (fd : Nat) :
    epoll.interest fd = none ↔ (table fd).flags = {} := by
  rw [mirrors.interest, registration]
  split <;> simp_all

/-- Assign the entry of a descriptor and change its registration to match. -/
theorem replace (mirrors : epoll.Mirrors table) (opened : epoll.opened fd = true)
    (change : Fdevent → Fdevent) (watch : Watch)
    (keeps : (change (entry epoll.events fd)).fd = fd)
    (flags : (change (entry epoll.events fd)).sFlags = bits watch.flags)
    (carried : (change (entry epoll.events fd)).data = watch.data) :
    Mirrors { epoll with
        interest := Function.update epoll.interest fd (registration watch.flags fd)
        events := assign (Fde.getFde epoll.events fd) fd change }
      (Function.update table fd watch) where
  shows := mirrors.shows.assign keeps flags carried
  interest other := by
    by_cases same : other = fd
    · subst other
      simp
    · rw [Function.update_of_ne same]
      exact (Function.update_of_ne same _ _).trans (mirrors.interest other)
  opened other watched := by
    by_cases same : other = fd
    · subst other
      exact opened
    · rw [Function.update_of_ne same] at watched
      exact mirrors.opened other watched
  inside other watched := by
    rw [length_assign]
    by_cases same : other = fd
    · subst other
      exact lt_length_getFde _ _
    · rw [Function.update_of_ne same] at watched
      exact Nat.lt_of_lt_of_le (mirrors.inside other watched) (length_le_length_getFde _ _)

/-- Assign the entry of a descriptor and tell the kernel. -/
theorem ctl (mirrors : epoll.Mirrors table) (opened : epoll.opened fd = true)
    {op : CtlOp} {change : Fdevent → Fdevent} {watch : Watch}
    (expected : op = .add ↔ (table fd).flags = {})
    (dropped : op = .del ↔ watch.flags = {})
    (keeps : (change (entry epoll.events fd)).fd = fd)
    (flags : (change (entry epoll.events fd)).sFlags = bits watch.flags)
    (carried : (change (entry epoll.events fd)).data = watch.data) :
    ∃ after : Epoll,
      Epoll.ctl { epoll with events := assign (Fde.getFde epoll.events fd) fd change } op fd =
        (after, 0) ∧ after.Mirrors (Function.update table fd watch) := by
  refine ⟨_, ?_, mirrors.replace opened change watch keeps flags carried⟩
  have shown := (mirrors.shows.assign keeps flags carried).flags_eq fd
  have told := epollCtl_some { events := interestMask (bits watch.flags), ptr := fd } opened
    (expected.trans (mirrors.interest_none_iff fd).symm)
  unfold Epoll.ctl
  dsimp only
  rw [shown, Function.update_self, told]
  simp only [registration, dropped]

/-- Looking an entry up changes nothing. -/
theorem getFde (mirrors : epoll.Mirrors table) (fd : Nat) :
    Mirrors { epoll with events := getFde epoll.events fd } table where
  shows := mirrors.shows.getFde fd
  interest := mirrors.interest
  opened := mirrors.opened
  inside other watched :=
    Nat.lt_of_lt_of_le (mirrors.inside other watched) (length_le_length_getFde _ _)

theorem set (mirrors : epoll.Mirrors table) (direction : Direction) (data : Data)
    (opened : epoll.opened fd = true) :
    ∃ after : Epoll, epoll.set fd direction.bits data = (after, 0) ∧
      after.Mirrors (table.set fd direction data) := by
  unfold Epoll.set Table.set
  dsimp only
  rw [entry_getFde, mirrors.shows.flags_eq fd]
  by_cases subscribed : has (table fd).flags direction = true
  · rw [if_pos ((bits_and _ _).mpr subscribed), if_pos subscribed]
    exact ⟨_, rfl, mirrors.getFde fd⟩
  · rw [if_neg (mt (bits_and _ _).mp subscribed), if_neg subscribed]
    apply mirrors.ctl opened
    · rw [ite_bits]
      split <;> simp_all
    · have kept := put_true_ne (table fd).flags direction
      split <;> simp [kept]
    · exact (mirrors.shows fd).1
    · dsimp only
      rw [mirrors.shows.flags_eq fd, bits_or]
    · rfl

theorem clr (mirrors : epoll.Mirrors table) (direction : Direction)
    (opened : epoll.opened fd = true) :
    ∃ after : Epoll, epoll.clr fd direction.bits = (after, 0) ∧
      after.Mirrors (table.clr fd direction) := by
  unfold Epoll.clr Table.clr
  dsimp only
  rw [entry_getFde, mirrors.shows.flags_eq fd, bits_andNot]
  by_cases subscribed : has (table fd).flags direction = true
  · rw [if_neg ((bits_and _ _).mpr subscribed)]
    have watched := ne_of_has subscribed
    apply mirrors.ctl opened
    · split <;> simp [watched]
    · rw [ite_bits]
      split <;> simp_all
    · exact (mirrors.shows fd).1
    · dsimp only
      rw [mirrors.shows.flags_eq fd, bits_andNot]
    · exact (mirrors.shows fd).2.2
  · rw [if_pos (Decidable.not_not.mp (mt (bits_and _ _).mp subscribed)),
      put_of_has (Bool.eq_false_iff.mpr subscribed), Function.update_eq_self]
    exact ⟨_, rfl, mirrors.getFde fd⟩

theorem del (mirrors : epoll.Mirrors table) (opened : epoll.opened fd = true) :
    ∃ after : Epoll,
      epoll.del fd = (after, if (table fd).flags = {} then -1 else 0) ∧
        after.Mirrors (table.del fd) := by
  unfold Epoll.del Table.del
  by_cases idle : (table fd).flags = {}
  · have absent := (mirrors.interest_none_iff fd).mpr idle
    have refused : epollCtl epoll.opened epoll.interest .del fd { events := 0, ptr := 0 } =
        none := by
      simp [epollCtl, absent]
    rw [refused, if_pos idle, ← idle, Function.update_eq_self]
    exact ⟨_, rfl, mirrors⟩
  · have expected : CtlOp.del = .add ↔ epoll.interest fd = none := by
      simp [mirrors.interest_none_iff fd, idle]
    rw [epollCtl_some { events := 0, ptr := 0 } opened expected, if_neg idle]
    exact ⟨_, rfl, mirrors.replace opened (fun fde => { fde with sFlags := fdeventNone })
      { table fd with flags := {} } (mirrors.shows fd).1 bits_none.symm (mirrors.shows fd).2.2⟩

/-- A descriptor that is not watched may be opened and closed. -/
theorem reopen (mirrors : epoll.Mirrors table) (idle : (table fd).flags = {}) (value : Bool) :
    Mirrors { epoll with opened := Function.update epoll.opened fd value } table where
  shows := mirrors.shows
  interest := mirrors.interest
  opened other watched := by
    have different : other ≠ fd := by
      rintro rfl
      exact watched idle
    exact (Function.update_of_ne different _ _).trans (mirrors.opened other watched)
  inside := mirrors.inside

theorem idle_of_closed (mirrors : epoll.Mirrors table) (closed : epoll.opened fd = false) :
    (table fd).flags = {} := by
  by_contra watched
  have opened := mirrors.opened fd watched
  rw [closed] at opened
  cases opened

/-- An orderly call keeps the interest list equal to the table. -/
theorem step (mirrors : epoll.Mirrors table) {call : Call} (orderly : epoll.Orderly call) :
    (epoll.step call).Mirrors (table.step call) := by
  cases call with
  | opens fd => exact mirrors.reopen (mirrors.idle_of_closed orderly) true
  | closes fd =>
      have idle : (table fd).flags = {} := by
        rw [← bits_eq_zero, ← mirrors.shows.flags_eq fd]
        exact orderly
      have absent := (mirrors.interest_none_iff fd).mpr idle
      have kept := mirrors.reopen idle false
      unfold Epoll.step
      dsimp only
      rw [← absent, Function.update_eq_self]
      exact kept
  | set fd flags data =>
      obtain ⟨after, called, mirrored⟩ := mirrors.set (.ofBits flags) data orderly.1
      rw [Direction.bits_ofBits orderly.2] at called
      rwa [Epoll.step, called]
  | clr fd flags =>
      obtain ⟨after, called, mirrored⟩ := mirrors.clr (.ofBits flags) orderly.1
      rw [Direction.bits_ofBits orderly.2] at called
      rwa [Epoll.step, called]
  | del fd =>
      obtain ⟨after, called, mirrored⟩ := mirrors.del orderly
      rwa [Epoll.step, called]

end Mirrors

theorem mirrors_init : ({} : Epoll).Mirrors fun _ => {} where
  shows := fun _ => ⟨rfl, bits_none.symm, rfl⟩
  interest := fun _ => rfl
  opened := by simp
  inside := by simp

theorem Reachable.mirrors (reached : epoll.Reachable) : ∃ table, epoll.Mirrors table := by
  refine Transition.Runs.invariant (fun epoll : Epoll => ∃ table, epoll.Mirrors table) ?_ reached
    ⟨_, mirrors_init⟩
  rintro before call after ⟨table, mirrors⟩ orderly moved
  cases moved
  exact ⟨table.step call, mirrors.step orderly⟩

end Epoll

/-! ## The sets handed to `select` are the table -/

namespace Select

/-- Where the search for the highest watched descriptor ends. -/
theorem lower_spec {events : List Fdevent} (atEnd : Except Fault Nat) {nfds : Nat}
    (inside : nfds ≤ events.length) :
    (lower events atEnd nfds = atEnd ∧ ∀ fd < nfds, (entry events fd).sFlags = 0) ∨
      ∃ top, lower events atEnd nfds = .ok top ∧ top ≤ nfds ∧
        (∃ fd < nfds, (entry events fd).sFlags ≠ 0) ∧
        ∀ fd < nfds, (entry events fd).sFlags ≠ 0 → fd < top := by
  induction nfds with
  | zero => exact .inl ⟨rfl, by simp⟩
  | succ maxfd ih =>
      have present : events[maxfd]? = some (entry events maxfd) := by
        simp [entry, List.getElem?_eq_getElem (show maxfd < events.length by omega)]
      rw [lower, present]
      dsimp only
      by_cases idle : (entry events maxfd).sFlags = 0
      · rw [if_pos idle]
        rcases ih (by omega) with ⟨reached, below⟩ | ⟨top, reached, bound, ⟨fd, less, watched⟩, all⟩
        · refine .inl ⟨reached, ?_⟩
          intro fd less
          rcases Nat.lt_succ_iff_lt_or_eq.mp less with less | rfl
          · exact below fd less
          · exact idle
        · refine .inr ⟨top, reached, by omega, ⟨fd, by omega, watched⟩, ?_⟩
          intro other less watched
          rcases Nat.lt_succ_iff_lt_or_eq.mp less with less | rfl
          · exact all other less watched
          · exact absurd idle watched
      · rw [if_neg idle]
        exact .inr ⟨maxfd + 1, rfl, Nat.le_refl _, ⟨maxfd, by omega, idle⟩, fun _ less _ => less⟩

/-- The two sets are the table, and no watched descriptor is above `maxfd`. -/
structure Mirrors (select : Select) (table : Table) : Prop where
  shows : Shows select.events table
  readset : ∀ fd, select.readset fd = (table fd).flags.inn
  writeset : ∀ fd, select.writeset fd = (table fd).flags.out
  bounded : ∀ fd, (table fd).flags ≠ {} → fd < select.nfds
  inside : select.nfds ≤ select.events.length

variable {select : Select} {table : Table} {fd : Nat} {direction : Direction} {data : Data}

section Sets

variable {fdset : Nat → Bool} (kind : Direction)
  (marked : ∀ fd, fdset fd = has (table fd).flags kind)
include marked

/-- `FD_SET` or `FD_CLR` on one of the sets, as the event bits ask for it. -/
theorem fdset_update (value : Bool) (other : Nat) :
    (if direction.bits &&& kind.bits ≠ 0 then Function.update fdset fd value
      else fdset) other =
    has (Function.update table fd
      { flags := put (table fd).flags value direction, data := data } other).flags kind := by
  by_cases same : other = fd
  · subst other
    cases direction <;> cases kind <;>
      simp [Direction.bits, fdeventIn, fdeventOut, put, has, marked]
  · cases direction <;> cases kind <;>
      simp [Direction.bits, fdeventIn, fdeventOut, marked, same]

theorem fdset_del (fd other : Nat) :
    Function.update fdset fd false other = has (table.del fd other).flags kind := by
  unfold Table.del
  by_cases same : other = fd
  · subst other
    cases kind <;> simp [has]
  · simp [same, marked]

end Sets

namespace Mirrors

theorem getFde (mirrors : select.Mirrors table) (fd : Nat) :
    Mirrors { select with events := getFde select.events fd } table where
  shows := mirrors.shows.getFde fd
  readset := mirrors.readset
  writeset := mirrors.writeset
  bounded := mirrors.bounded
  inside := Nat.le_trans mirrors.inside (length_le_length_getFde _ _)

theorem set (mirrors : select.Mirrors table) (direction : Direction) (data : Data)
    (small : fd < fdSetsize) :
    ∃ after : Select, select.set fd direction.bits data = (after, 0) ∧
      after.Mirrors (table.set fd direction data) := by
  unfold Select.set Table.set
  rw [if_neg (by unfold fdSetsize at *; omega)]
  dsimp only
  rw [entry_getFde, mirrors.shows.flags_eq fd]
  by_cases subscribed : has (table fd).flags direction = true
  · rw [if_pos ((bits_and _ _).mpr subscribed), if_pos subscribed]
    exact ⟨_, rfl, mirrors.getFde fd⟩
  · rw [if_neg (mt (bits_and _ _).mp subscribed), if_neg subscribed]
    have shows : Shows (assign (Fde.getFde select.events fd) fd fun fde =>
        { fde with sFlags := fde.sFlags ||| direction.bits, data := data })
        (Function.update table fd
          { flags := put (table fd).flags true direction, data := data }) := by
      apply mirrors.shows.assign (mirrors.shows fd).1
      · dsimp only
        rw [mirrors.shows.flags_eq fd, bits_or]
      · rfl
    refine ⟨_, rfl, shows, fdset_update .inn mirrors.readset true,
      fdset_update .out mirrors.writeset true, ?_, ?_⟩
    · intro other watched
      dsimp only
      by_cases same : other = fd
      · subst other
        split <;> omega
      · rw [Function.update_of_ne same] at watched
        have below := mirrors.bounded other watched
        split <;> omega
    · have room := lt_length_getFde select.events fd
      have longer := length_le_length_getFde select.events fd
      have inside := mirrors.inside
      dsimp only
      rw [length_assign]
      split <;> omega

/-- `clr` and `del` once they have found the new `maxfd`. -/
theorem lowered (mirrors : select.Mirrors table) {change : Fdevent → Fdevent} {watch : Watch}
    (shows : Shows (assign (Fde.getFde select.events fd) fd change)
      (Function.update table fd watch))
    (fewer : watch.flags ≠ {} → (table fd).flags ≠ {})
    {readset writeset : Nat → Bool} {top : Nat}
    (reads : ∀ other, readset other = (Function.update table fd watch other).flags.inn)
    (writes : ∀ other, writeset other = (Function.update table fd watch other).flags.out)
    (bound : top ≤ select.nfds)
    (all : ∀ other < select.nfds,
      (entry (assign (Fde.getFde select.events fd) fd change) other).sFlags ≠ 0 → other < top) :
    Mirrors
      { nfds := top, readset := readset, writeset := writeset
        events := assign (Fde.getFde select.events fd) fd change }
      (Function.update table fd watch) where
  shows := shows
  readset := reads
  writeset := writes
  bounded other watched := by
    have below : other < select.nfds := by
      apply mirrors.bounded
      by_cases same : other = fd
      · subst other
        rw [Function.update_self] at watched
        exact fewer watched
      · rwa [Function.update_of_ne same] at watched
    apply all other below
    rw [shows.flags_eq other]
    exact mt (bits_eq_zero _).mp watched
  inside := by
    have longer := length_le_length_getFde select.events fd
    have inside := mirrors.inside
    rw [length_assign]
    dsimp only
    omega

theorem del (mirrors : select.Mirrors table) (fd : Nat) :
    ∃ after : Select, select.del fd = .ok (after, 0) ∧ after.Mirrors (table.del fd) := by
  have shows : Shows (assign (Fde.getFde select.events fd) fd fun fde =>
      { fde with sFlags := fdeventNone }) (table.del fd) :=
    mirrors.shows.assign (mirrors.shows fd).1 bits_none.symm (mirrors.shows fd).2.2
  have inside : select.nfds ≤ (assign (Fde.getFde select.events fd) fd fun fde =>
      { fde with sFlags := fdeventNone }).length := by
    rw [length_assign]
    exact Nat.le_trans mirrors.inside (length_le_length_getFde _ _)
  have reads := fdset_del .inn mirrors.readset fd
  have writes := fdset_del .out mirrors.writeset fd
  unfold Select.del
  dsimp only
  rcases lower_spec (.ok 0) inside with ⟨reached, idle⟩ | ⟨top, reached, bound, _, all⟩
  · rw [reached]
    refine ⟨_, rfl, mirrors.lowered shows (by simp) reads writes (Nat.zero_le _) ?_⟩
    intro other below watched
    exact absurd (idle other below) watched
  · rw [reached]
    exact ⟨_, rfl, mirrors.lowered shows (by simp) reads writes bound all⟩

/-- Clearing a direction reads before the table when nothing is watched afterwards, and keeps to
the table otherwise. -/
theorem clr (mirrors : select.Mirrors table) (fd : Nat) (direction : Direction) :
    (has (table fd).flags direction = true ∧ (∀ other, (table.clr fd direction other).flags = {}) ∧
        select.clr fd direction.bits = .error .undefined) ∨
      (¬(has (table fd).flags direction = true ∧
          ∀ other, (table.clr fd direction other).flags = {}) ∧
        ∃ after : Select, select.clr fd direction.bits = .ok (after, 0) ∧
          after.Mirrors (table.clr fd direction)) := by
  have shows : Shows (assign (Fde.getFde select.events fd) fd fun fde =>
      { fde with sFlags := fde.sFlags &&& ~~~direction.bits }) (table.clr fd direction) := by
    apply mirrors.shows.assign (mirrors.shows fd).1
    · dsimp only
      rw [mirrors.shows.flags_eq fd, bits_andNot]
    · exact (mirrors.shows fd).2.2
  have inside : select.nfds ≤ (assign (Fde.getFde select.events fd) fd fun fde =>
      { fde with sFlags := fde.sFlags &&& ~~~direction.bits }).length := by
    rw [length_assign]
    exact Nat.le_trans mirrors.inside (length_le_length_getFde _ _)
  unfold Select.clr
  dsimp only
  rw [entry_getFde, mirrors.shows.flags_eq fd]
  by_cases subscribed : has (table fd).flags direction = true
  · rw [if_neg ((bits_and _ _).mpr subscribed)]
    have fewer : put (table fd).flags false direction ≠ {} → (table fd).flags ≠ {} :=
      fun _ => ne_of_has subscribed
    rcases lower_spec (.error .undefined) inside with ⟨reached, idle⟩ |
      ⟨top, reached, bound, ⟨other, _, watched⟩, all⟩
    · left
      rw [reached]
      refine ⟨subscribed, ?_, rfl⟩
      intro other
      by_cases below : other < select.nfds
      · exact (bits_eq_zero _).mp ((shows.flags_eq other).symm.trans (idle other below))
      · by_contra watched
        apply below
        apply mirrors.bounded
        unfold Table.clr at watched
        by_cases same : other = fd
        · subst other
          rw [Function.update_self] at watched
          exact fewer watched
        · rwa [Function.update_of_ne same] at watched
    · right
      rw [reached]
      constructor
      · rintro ⟨_, nothing⟩
        apply watched
        rw [shows.flags_eq other, nothing other]
        exact bits_none
      · exact ⟨_, rfl, mirrors.lowered shows fewer (fdset_update .inn mirrors.readset false)
          (fdset_update .out mirrors.writeset false) bound all⟩
  · right
    rw [if_pos (Decidable.not_not.mp (mt (bits_and _ _).mp subscribed))]
    refine ⟨fun both => subscribed both.1, _, rfl, ?_⟩
    rw [Table.clr, put_of_has (Bool.eq_false_iff.mpr subscribed), Function.update_eq_self]
    exact mirrors.getFde fd

/-- A call that is defined keeps the sets equal to the table. -/
theorem step (mirrors : select.Mirrors table) {after : Select} {call : Call} {epoll : Epoll}
    (orderly : epoll.Orderly call) (fits : call.Fits) (moved : select.step call = .ok after) :
    after.Mirrors (table.step call) := by
  cases call with
  | opens fd | closes fd =>
      cases moved
      exact mirrors
  | set fd flags data =>
      obtain ⟨select, chosen, mirrored⟩ := mirrors.set (.ofBits flags) data fits
      rw [Direction.bits_ofBits orderly.2] at chosen
      rw [Select.step, chosen] at moved
      cases moved
      exact mirrored
  | clr fd flags =>
      rcases mirrors.clr fd (.ofBits flags) with ⟨_, _, fault⟩ | ⟨_, select, chosen, mirrored⟩
      · rw [Direction.bits_ofBits orderly.2] at fault
        rw [Select.step, fault] at moved
        cases moved
      · rw [Direction.bits_ofBits orderly.2] at chosen
        rw [Select.step, chosen] at moved
        cases moved
        exact mirrored
  | del fd =>
      obtain ⟨select, chosen, mirrored⟩ := mirrors.del fd
      rw [Select.step, chosen] at moved
      cases moved
      exact mirrored

end Mirrors

theorem mirrors_init : ({} : Select).Mirrors fun _ => {} where
  shows := fun _ => ⟨rfl, bits_none.symm, rfl⟩
  readset := fun _ => rfl
  writeset := fun _ => rfl
  bounded := by simp
  inside := Nat.le_refl _

end Select

end BespoKV.Fde
