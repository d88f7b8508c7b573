import BespoKV.Library.Decimal
import BespoKV.Library.Fallible
import BespoKV.Library.Transition
import Mathlib.Data.Fintype.Basic

/-!
# The failure detector

A proxy registers with the heartbeat `0` and then counts its beats, from one on after every
start, in the data of its ZooKeeper node.  The controller remembers the data it has seen
(`set_state`) and, at every poll (`verify_hb`), reports a crash of a proxy whose data has not
changed.  Calls of ZooKeeper interleave in any way.

The data says whether there was a beat unless a restarted proxy has come back to the same
count; and a proxy that was not there for `set_state` cannot be compared at all.
-/

namespace BespoKV.Heartbeats

open Fallible Transition

/-- The next ZooKeeper call of a proxy in `RegisterHeartBeat` or `SetHeartBeat`. -/
inductive Phase where
  | idle
  /-- `CreateIfNotExists("/hb")` -/
  | createRoot
  /-- `CreateIfNotExists("/hb/" + map.first)` -/
  | createNode
  /-- `Set("/hb/" + map.first, counter)` -/
  | set
  deriving DecidableEq, Repr

/-- A heartbeat, by the start of the process that wrote it and its count. -/
structure Beat where
  life : Nat
  count : Nat
  deriving DecidableEq, Repr

/-- A proxy: the process, the data of its node and `previous_state` of the controller.  History
variables: how often the process was started, the heartbeat last written, the one that the
controller has seen last, and whether one was written since. -/
structure Member where
  up : Bool := false
  countNum : Nat := 0
  phase : Phase := .idle
  node : Option String := none
  previousState : Option String := none
  life : Nat := 0
  last : Option Beat := none
  seen : Option Beat := none
  written : Bool := false
  deriving DecidableEq, Repr

/-- What the controller prints. -/
inductive Verdict where
  | crash
  | noCrash
  deriving DecidableEq, Repr

inductive Fault where
  /-- the action is not possible in this state -/
  | disabled
  /-- `NoNodeError` -/
  | noNode
  /-- `KeyError` -/
  | keyError
  deriving DecidableEq, Repr

namespace Member

/-- The controller can tell the heartbeats of two starts of the process apart by their
counts. -/
def Distinct (member : Member) : Prop :=
  ∀ last ∈ member.last, ∀ seen ∈ member.seen, last.life ≠ seen.life → last.count ≠ seen.count

instance (member : Member) : Decidable member.Distinct :=
  inferInstanceAs (Decidable (∀ last ∈ member.last, ∀ seen ∈ member.seen, _ → _))

/-- A start of the process, which registers. -/
def start (member : Member) : Except Fault Member :=
  if member.up then .error .disabled
  else .ok { member with
    up := true
    countNum := 0
    phase := .createRoot
    life := member.life + 1 }

/-- The timer of `batch_loop`. -/
def tick (member : Member) : Except Fault Member :=
  if member.up ∧ member.phase = .idle then
    .ok { member with countNum := member.countNum + 1, phase := .createRoot }
  else
    .error .disabled

/-- The process ends, wherever it is. -/
def stop (member : Member) : Member := { member with up := false, phase := .idle }

/-- The next call of the heartbeat in progress. -/
def call (member : Member) : Except Fault Member :=
  match member.phase with
  | .idle => .error .disabled
  | .createRoot => .ok { member with phase := .createNode }
  | .createNode => .ok { member with phase := .set, node := some (member.node.getD "") }
  | .set =>
      .ok { member with
        phase := .idle
        node := some (toString member.countNum)
        last := some ⟨member.life, member.countNum⟩
        written := true }

/-- The controller has seen the data of the node. -/
def observe (member : Member) (data : String) : Member :=
  { member with previousState := some data, seen := member.last, written := false }

/-- A round of `set_state`. -/
def setState (member : Member) : Except Fault Member :=
  match member.node with
  | none => .error .noNode
  | some data => .ok (member.observe data)

/-- A round of `verify_hb`, with `compare_state`. -/
def verifyHb (member : Member) : Except Fault (Verdict × Member) :=
  match member.node, member.previousState with
  | none, _ => .error .noNode
  | some _, none => .error .keyError
  | some data, some previous =>
      -- where nothing has changed `previous_state` is not assigned
      if previous = data then .ok (.crash, member.observe previous)
      else .ok (.noCrash, member.observe data)

end Member

/-- Where the controller is, with the children still to come. -/
inductive Controller (ι : Type) where
  | starting
  | setting (left : List ι)
  | sleeping
  | polling (left : List ι)
  deriving DecidableEq, Repr

/-- The proxies by their names, whether `/hb` exists, and the controller. -/
structure System (ι : Type) where
  member : ι → Member
  root : Bool
  controller : Controller ι

inductive Action (ι : Type) where
  | start (proxy : ι)
  | tick (proxy : ι)
  | call (proxy : ι)
  | stop (proxy : ι)
  /-- `get_children` returns these -/
  | list (children : List ι)
  /-- the next round of the loop of `set_state` or `verify_hb`, or its end -/
  | visit

namespace System

variable {ι : Type} [DecidableEq ι]

def initial : System ι := ⟨fun _ => {}, false, .starting⟩

def update (system : System ι) (proxy : ι) (member : Member) : System ι :=
  { system with member := Function.update system.member proxy member }

def step (system : System ι) : Action ι → Except Fault (System ι)
  | .start proxy => do
      let member ← (system.member proxy).start
      return system.update proxy member
  | .tick proxy => do
      let member ← (system.member proxy).tick
      return system.update proxy member
  | .call proxy => do
      let member ← (system.member proxy).call
      let created := (system.member proxy).phase = .createRoot
      return { system.update proxy member with root := system.root || created }
  | .stop proxy => return system.update proxy (system.member proxy).stop
  | .list children =>
      match system.controller with
      | .starting =>
          if system.root then .ok { system with controller := .setting children }
          else .error .noNode
      | .sleeping =>
          if system.root then .ok { system with controller := .polling children }
          else .error .noNode
      | _ => .error .disabled
  | .visit =>
      match system.controller with
      | .setting (proxy :: rest) => do
          let member ← (system.member proxy).setState
          return { system.update proxy member with controller := .setting rest }
      | .polling (proxy :: rest) => do
          let (_, member) ← (system.member proxy).verifyHb
          return { system.update proxy member with controller := .polling rest }
      | .setting [] => return { system with controller := .sleeping }
      | .polling [] => return { system with controller := .sleeping }
      | _ => .error .disabled

/-- What ZooKeeper answers: the children are the nodes that exist, in some order. -/
def Possible (system : System ι) : Action ι → Prop
  | .list children =>
      children.Nodup ∧ ∀ proxy, proxy ∈ children ↔ (system.member proxy).node ≠ none
  | _ => True

/-- When the controller lists the proxies for a poll, it knows all of them from `set_state`. -/
def Known (system : System ι) : Action ι → Prop
  | .list children => system.controller = .sleeping →
      ∀ proxy ∈ children, (system.member proxy).previousState ≠ none
  | _ => True

/-- When the controller looks at a proxy that was restarted after it had last looked, the
count last written is not the count that it saw then. -/
def Fresh (system : System ι) : Action ι → Prop
  | .visit =>
      match system.controller with
      | .polling (proxy :: _) => (system.member proxy).Distinct
      | _ => True
  | _ => True

/-- What the detector needs in every step. -/
def Guard (system : System ι) (action : Action ι) : Prop :=
  system.Possible action ∧ system.Known action ∧ system.Fresh action

instance [Fintype ι] (system : System ι) : (action : Action ι) → Decidable (system.Possible action)
  | .list children => inferInstanceAs (Decidable (children.Nodup ∧ ∀ _, _ ↔ _))
  | .start _ | .tick _ | .call _ | .stop _ | .visit => .isTrue trivial

instance (system : System ι) : (action : Action ι) → Decidable (system.Known action)
  | .list children => inferInstanceAs (Decidable (_ = _ → ∀ proxy ∈ children, _))
  | .start _ | .tick _ | .call _ | .stop _ | .visit => .isTrue trivial

instance (system : System ι) : (action : Action ι) → Decidable (system.Fresh action)
  | .visit =>
      match system with
      | ⟨_, _, .polling (_ :: _)⟩ => inferInstanceAs (Decidable (Member.Distinct _))
      | ⟨_, _, .polling []⟩ | ⟨_, _, .starting⟩ | ⟨_, _, .setting _⟩ | ⟨_, _, .sleeping⟩ =>
          .isTrue trivial
  | .start _ | .tick _ | .call _ | .stop _ | .list _ => .isTrue trivial

instance [Fintype ι] (system : System ι) (action : Action ι) : Decidable (system.Guard action) :=
  inferInstanceAs (Decidable (_ ∧ _ ∧ _))

end System

/-! ## One proxy -/

/-- The data of a node. -/
def render : Option Beat → String
  | none => ""
  | some beat => toString beat.count

namespace Member

/-- What the data and the history variables say about each other. -/
structure Sound (member : Member) : Prop where
  absent : member.node = none → member.last = none
  node : ∀ data ∈ member.node, data = render member.last
  unseen : member.previousState = none → member.seen = none
  previous : ∀ data ∈ member.previousState, data = render member.seen
  same : member.written = false → member.previousState ≠ none → member.last = member.seen
  newer : member.written = true → ∃ last ∈ member.last, ∀ seen ∈ member.seen,
    seen.life < last.life ∨ seen.life = last.life ∧ seen.count < last.count
  bound : ∀ last ∈ member.last, last.life < member.life ∨
    last.life = member.life ∧ last.count ≤ member.countNum
  pending : member.phase ≠ .idle → ∀ last ∈ member.last, last.life < member.life ∨
    last.life = member.life ∧ last.count < member.countNum

/-- What the controller relies on stays there. -/
structure Extends (member after : Member) : Prop where
  node : member.node ≠ none → after.node ≠ none
  previous : member.previousState ≠ none → after.previousState ≠ none

variable {member after : Member}

theorem Sound.start (sound : member.Sound) (started : member.start = .ok after) :
    after.Sound ∧ member.Extends after := by
  unfold Member.start at started
  split at started
  · cases started
  · cases started
    have older : ∀ last ∈ member.last, last.life < member.life + 1 := fun last written => by
      have bound := sound.bound last written
      omega
    exact ⟨{ sound with
      bound := fun last written => .inl (older last written)
      pending := fun _ last written => .inl (older last written) }, id, id⟩

theorem Sound.tick (sound : member.Sound) (ticked : member.tick = .ok after) :
    after.Sound ∧ member.Extends after := by
  unfold Member.tick at ticked
  split at ticked
  · cases ticked
    have smaller : ∀ last ∈ member.last, last.life < member.life ∨
        last.life = member.life ∧ last.count < member.countNum + 1 := fun last written => by
      have bound := sound.bound last written
      omega
    exact ⟨{ sound with
      bound := fun last written => (smaller last written).imp id fun ⟨life, count⟩ =>
        ⟨life, Nat.le_of_lt count⟩
      pending := fun _ => smaller }, id, id⟩
  · cases ticked

theorem Sound.stop (sound : member.Sound) : member.stop.Sound ∧ member.Extends member.stop :=
  ⟨{ sound with pending := fun busy => absurd rfl busy }, id, id⟩

/-- The heartbeat that is about to be written is newer than the one the controller has seen. -/
theorem Sound.seen_before (sound : member.Sound) (busy : member.phase ≠ .idle) :
    ∀ seen ∈ member.seen, seen.life < member.life ∨
      seen.life = member.life ∧ seen.count < member.countNum := by
  intro seen known
  have looked : member.previousState ≠ none := fun never => by
    rw [sound.unseen never] at known
    cases known
  cases written : member.written with
  | false =>
      rw [← sound.same written looked] at known
      exact sound.pending busy seen known
  | true =>
      obtain ⟨last, wrote, newer⟩ := sound.newer written
      have before := newer seen known
      have pending := sound.pending busy last wrote
      omega

theorem Sound.call (sound : member.Sound) (called : member.call = .ok after) :
    after.Sound ∧ member.Extends after := by
  have busy : member.phase ≠ .idle := fun idle => by
    rw [Member.call, idle] at called
    cases called
  unfold Member.call at called
  split at called
  · cases called
  · cases called
    exact ⟨{ sound with pending := fun _ => sound.pending busy }, id, id⟩
  · cases called
    refine ⟨{ sound with
      absent := nofun
      node := ?_
      pending := fun _ => sound.pending busy }, nofun, id⟩
    rintro data ⟨⟩
    cases there : member.node with
    | none =>
        rw [sound.absent there]
        rfl
    | some data => exact sound.node data there
  · cases called
    refine ⟨{ sound with
      absent := nofun
      node := ?_
      same := nofun
      newer := fun _ => ⟨_, rfl, sound.seen_before busy⟩
      bound := ?_
      pending := fun idle => absurd rfl idle }, nofun, id⟩
    · rintro data ⟨⟩
      rfl
    · rintro last ⟨⟩
      exact .inr ⟨rfl, Nat.le_refl _⟩

/-- The controller sees what was written last. -/
theorem Sound.observe (sound : member.Sound) {data : String} (here : member.node = some data) :
    (member.observe data).Sound ∧ member.Extends (member.observe data) := by
  refine ⟨{ sound with
    unseen := nofun
    previous := ?_
    same := fun _ _ => rfl
    newer := nofun }, id, nofun⟩
  rintro data ⟨⟩
  exact sound.node data here

theorem Sound.setState (sound : member.Sound) (set : member.setState = .ok after) :
    after.Sound ∧ member.Extends after := by
  unfold Member.setState at set
  split at set
  · cases set
  next data here =>
    cases set
    exact sound.observe here

/-- A known proxy is compared without an exception, and a crash is reported when nothing was
written. -/
theorem Sound.exists_verifyHb (sound : member.Sound) (there : member.node ≠ none)
    (known : member.previousState ≠ none) :
    ∃ verdict after, member.verifyHb = .ok (verdict, after) ∧ after.Sound ∧
      member.Extends after ∧ (verdict = .crash ↔ render member.seen = render member.last) := by
  obtain ⟨data, here⟩ := Option.ne_none_iff_exists'.mp there
  obtain ⟨previous, remembered⟩ := Option.ne_none_iff_exists'.mp known
  have read := sound.node data here
  have before := sound.previous previous remembered
  unfold verifyHb
  rw [here, remembered]
  by_cases equal : previous = data
  · refine ⟨.crash, member.observe previous, if_pos equal, ?_⟩
    obtain ⟨kept, grown⟩ := sound.observe (equal ▸ here)
    exact ⟨kept, grown, fun _ => by rw [← before, ← read, equal], fun _ => rfl⟩
  · refine ⟨.noCrash, member.observe data, if_neg equal, ?_⟩
    obtain ⟨kept, grown⟩ := sound.observe here
    exact ⟨kept, grown, nofun, fun same => absurd (before.trans (same.trans read.symm)) equal⟩

/-- The data has changed exactly when there was a heartbeat. -/
theorem Sound.render_eq_iff (sound : member.Sound) (known : member.previousState ≠ none)
    (distinct : member.Distinct) :
    render member.seen = render member.last ↔ member.written = false := by
  cases written : member.written with
  | false => simp [sound.same written known]
  | true =>
      obtain ⟨last, wrote, newer⟩ := sound.newer written
      simp only [Bool.true_eq_false, iff_false]
      intro same
      rw [Option.mem_def.mp wrote] at same
      cases looked : member.seen with
      | none =>
          rw [looked] at same
          exact Nat.repr_ne_empty same.symm
      | some seen =>
          rw [looked] at same
          have counts : seen.count = last.count := Decimal.toString_injective same
          obtain restarted | ⟨_, fewer⟩ := newer seen looked
          · exact distinct last wrote seen looked (by omega) counts.symm
          · omega

end Member

/-! ## Runs -/

namespace System

section Watching

variable {ι : Type} {system after : System ι}

/-- What the controller has found out stays true. -/
def Watching (system : System ι) : Controller ι → Prop
  | .starting => True
  | .setting left => system.root = true ∧ ∀ proxy ∈ left, (system.member proxy).node ≠ none
  | .sleeping => system.root = true
  | .polling left => system.root = true ∧ ∀ proxy ∈ left, (system.member proxy).node ≠ none ∧
      (system.member proxy).previousState ≠ none

structure Sound (system : System ι) : Prop where
  member : ∀ proxy, (system.member proxy).Sound
  watching : system.Watching system.controller

/-- A proxy that moves does not disturb the controller. -/
theorem Watching.mono {controller : Controller ι} (watching : system.Watching controller)
    (root : system.root = true → after.root = true)
    (grown : ∀ proxy, (system.member proxy).Extends (after.member proxy)) :
    after.Watching controller := by
  cases controller with
  | starting => trivial
  | setting left => exact ⟨root watching.1, fun p member => (grown p).node (watching.2 p member)⟩
  | sleeping => exact root watching
  | polling left =>
      exact ⟨root watching.1, fun p member =>
        (watching.2 p member).imp (grown p).node (grown p).previous⟩

theorem Sound.initial : (System.initial : System ι).Sound where
  member := fun _ =>
    ⟨fun _ => rfl, nofun, fun _ => rfl, nofun, nofun, nofun, nofun, nofun⟩
  watching := trivial

end Watching

variable {ι : Type} [DecidableEq ι] {system after : System ι}

/-- One proxy is replaced by a sound one. -/
theorem Sound.update (sound : system.Sound) {proxy : ι} {member : Member}
    (moved : member.Sound ∧ (system.member proxy).Extends member) :
    (∀ other, ((system.update proxy member).member other).Sound) ∧
      ∀ other, (system.member other).Extends ((system.update proxy member).member other) := by
  constructor <;> intro other
  · by_cases same : other = proxy
    · subst same
      simpa [System.update] using moved.1
    · simpa [System.update, same] using sound.member other
  · by_cases same : other = proxy
    · subst same
      simpa [System.update] using moved.2
    · simpa [System.update, same] using (⟨id, id⟩ : Member.Extends _ _)

/-- A step of a proxy. -/
theorem Sound.moved (sound : system.Sound) {proxy : ι} {member : Member} {root : Bool}
    (moved : member.Sound ∧ (system.member proxy).Extends member)
    (kept : system.root = true → root = true) :
    ({ system.update proxy member with root } : System ι).Sound := by
  obtain ⟨members, grown⟩ := sound.update moved
  exact ⟨members, sound.watching.mono kept grown⟩

/-- The children that were listed have nodes, and in a poll they are known. -/
theorem Sound.list {children : List ι} (sound : system.Sound)
    (possible : system.Possible (.list children)) (known : system.Known (.list children))
    (stepped : system.step (.list children) = .ok after) : after.Sound := by
  have there : ∀ proxy ∈ children, (system.member proxy).node ≠ none := fun proxy listed =>
    (possible.2 proxy).mp listed
  simp only [System.step] at stepped
  split at stepped
  · split at stepped
    next root =>
      cases stepped
      exact ⟨sound.member, root, there⟩
    · cases stepped
  next sleeping =>
    split at stepped
    next root =>
      cases stepped
      exact ⟨sound.member, root, fun proxy listed =>
        ⟨there proxy listed, known sleeping proxy listed⟩⟩
    · cases stepped
  · cases stepped

/-- A round of one of the two loops, or its end. -/
theorem Sound.visit (sound : system.Sound) (stepped : system.step .visit = .ok after) :
    after.Sound := by
  have watching := sound.watching
  simp only [System.step] at stepped
  split at stepped
  next proxy rest setting =>
    rw [setting] at watching
    obtain ⟨member, set, result⟩ := exists_of_bind stepped
    cases result
    obtain ⟨members, grown⟩ := sound.update ((sound.member proxy).setState set)
    refine ⟨members, watching.1, fun other left => (grown other).node ?_⟩
    exact watching.2 other (List.mem_cons_of_mem _ left)
  next proxy rest polling =>
    rw [polling] at watching
    obtain ⟨⟨verdict, member⟩, verified, result⟩ := exists_of_bind stepped
    cases result
    obtain ⟨there, remembered⟩ := watching.2 proxy List.mem_cons_self
    obtain ⟨_, _, same, kept, grown, -⟩ :=
      (sound.member proxy).exists_verifyHb there remembered
    rw [verified] at same
    cases same
    obtain ⟨members, grown⟩ := sound.update ⟨kept, grown⟩
    refine ⟨members, watching.1, fun other left => ?_⟩
    exact (watching.2 other (List.mem_cons_of_mem _ left)).imp (grown other).node
      (grown other).previous
  next setting =>
    rw [setting] at watching
    cases stepped
    exact ⟨sound.member, watching.1⟩
  next polling =>
    rw [polling] at watching
    cases stepped
    exact ⟨sound.member, watching.1⟩
  · cases stepped

theorem Sound.step {action : Action ι} (sound : system.Sound) (guard : system.Guard action)
    (stepped : system.step action = .ok after) : after.Sound := by
  obtain ⟨possible, known, -⟩ := guard
  cases action with
  | start proxy =>
      obtain ⟨member, started, result⟩ := exists_of_bind stepped
      cases result
      exact sound.moved ((sound.member proxy).start started) id
  | tick proxy =>
      obtain ⟨member, ticked, result⟩ := exists_of_bind stepped
      cases result
      exact sound.moved ((sound.member proxy).tick ticked) id
  | call proxy =>
      obtain ⟨member, called, result⟩ := exists_of_bind stepped
      cases result
      exact sound.moved ((sound.member proxy).call called) fun root => by simp [root]
  | stop proxy =>
      cases stepped
      exact sound.moved (sound.member proxy).stop id
  | list children => exact sound.list possible known stepped
  | visit => exact sound.visit stepped

/-- The detector is accurate: no exception ends a poll, and a crash of a proxy is reported
exactly when no heartbeat of it was written since the controller has looked last. -/
structure Accurate (system : System ι) : Prop where
  lists : ∀ children, system.controller = .sleeping →
    system.step (.list children) = .ok { system with controller := .polling children }
  visits : ∀ proxy rest, system.controller = .polling (proxy :: rest) →
    (system.member proxy).Distinct →
      ∃ verdict member, (system.member proxy).verifyHb = .ok (verdict, member) ∧
        (verdict = .crash ↔ (system.member proxy).written = false)

theorem detector_accurate (run : Runs step Guard (initial : System ι) system) :
    system.Accurate := by
  have sound := run.invariant Sound
    (fun _ _ _ sound guard stepped => sound.step guard stepped) .initial
  have watching := sound.watching
  refine ⟨fun children sleeping => ?_, fun proxy rest polling distinct => ?_⟩
  · rw [sleeping] at watching
    simp only [step, sleeping]
    exact if_pos watching
  · rw [polling] at watching
    obtain ⟨there, known⟩ := watching.2 proxy List.mem_cons_self
    obtain ⟨verdict, member, verified, -, -, crash⟩ :=
      (sound.member proxy).exists_verifyHb there known
    exact ⟨verdict, member, verified,
      crash.trans ((sound.member proxy).render_eq_iff known distinct)⟩

/-- A proxy that is known to the controller and beats is about to be polled. -/
theorem detector_accurate_sample :
    ∃ system : System Bool, (system.controller = .polling [false] ∧
      (system.member false).written = true) ∧ system.Accurate := by
  obtain ⟨system, run, holds⟩ := Runs.exists_of_exec step Guard (initial : System Bool)
    [.start false, .call false, .call false, .call false, .list [false], .visit, .visit,
      .list [false], .visit, .visit, .tick false, .call false, .call false, .call false,
      .list [false]]
    (fun system => system.controller == .polling [false] && (system.member false).written)
    (by decide +kernel)
  rw [Bool.and_eq_true, beq_iff_eq] at holds
  exact ⟨system, holds, detector_accurate run⟩

/-- A proxy joins after `set_state`, and the next poll ends with a `KeyError`; and a restarted
proxy has beaten, but is at the count seen before and reported as crashed. -/
theorem detector_inaccurate :
    (∃ system : System Bool, Runs step Possible initial system ∧
      (system.controller = .polling [true] ∧
        (system.member true).verifyHb = .error .keyError)) ∧
    ∃ system : System Bool, Runs step Possible initial system ∧
      (system.controller = .polling [false] ∧ (system.member false).written = true ∧
        (system.member false).verifyHb.map Prod.fst = .ok .crash) := by
  constructor
  · obtain ⟨system, run, holds⟩ := Runs.exists_of_exec step Possible (initial : System Bool)
      [.start false, .call false, .call false, .call false, .list [false], .visit, .visit,
        .start true, .call true, .call true, .call true, .list [false, true], .visit]
      (fun system => system.controller = .polling [true] ∧
        (system.member true).verifyHb = .error .keyError) (by decide +kernel)
    exact ⟨system, run, of_decide_eq_true holds⟩
  · obtain ⟨system, run, holds⟩ := Runs.exists_of_exec step Possible (initial : System Bool)
      [.start false, .call false, .call false, .call false, .tick false, .call false, .call false,
        .call false, .list [false], .visit, .visit, .stop false, .start false, .call false,
        .call false, .call false, .tick false, .call false, .call false, .call false,
        .list [false]]
      (fun system => system.controller = .polling [false] ∧
        (system.member false).written = true ∧
        (system.member false).verifyHb.map Prod.fst = .ok .crash) (by decide +kernel)
    exact ⟨system, run, of_decide_eq_true holds⟩

end System

end BespoKV.Heartbeats
