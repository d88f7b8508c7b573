import Mathlib.Order.Nat
import BespoKV.Library.Pipe

/-!
# Store-and-forward lines of pipes

A line hands every request it *carries* through the pipes `0, 1, …, last` in turn
and reports the answer of the last pipe.  A request that is not carried enters at
the last pipe only, and may do so only while the line holds nothing.

`Sound` ties all queues, connections and server histories of a line together; it
survives every move of the line, in any order.
-/

namespace Pipes

variable {α β : Type}

/-- The requests held by the pipes below `n`, oldest first. -/
def below (stage : Nat → Pipe α β) : Nat → List α
  | 0 => []
  | n + 1 => (stage n).held ++ below stage n

theorem below_congr {stage later : Nat → Pipe α β} {n : Nat}
    (same : ∀ i < n, (later i).held = (stage i).held) :
    below later n = below stage n := by
  induction n with
  | zero => rfl
  | succ n ih =>
      simp only [below]
      rw [same n (Nat.lt_succ_self n), ih fun i small => same i (Nat.lt_succ_of_lt small)]

/-- A request appended to the first pipe is the youngest one below any `n`. -/
theorem below_enter {stage later : Nat → Pipe α β} {x : α}
    (first : (later 0).held = (stage 0).held ++ [x])
    (same : ∀ i, i ≠ 0 → (later i).held = (stage i).held) (n : Nat) :
    below later (n + 1) = below stage (n + 1) ++ [x] := by
  induction n with
  | zero => simp [below, first]
  | succ n ih =>
      rw [below, ih, same (n + 1) (Nat.succ_ne_zero n), ← List.append_assoc]
      rfl

/-- Handing the oldest request of pipe `j` to pipe `j + 1` leaves the requests
below every later pipe unchanged. -/
theorem below_hand {stage later : Nat → Pipe α β} {j : Nat} {x : α}
    (given : (stage j).held = x :: (later j).held)
    (received : (later (j + 1)).held = (stage (j + 1)).held ++ [x])
    (same : ∀ i, i ≠ j → i ≠ j + 1 → (later i).held = (stage i).held) (n : Nat) :
    below later (j + 2 + n) = below stage (j + 2 + n) := by
  have under : below later j = below stage j :=
    below_congr fun i small => same i (by omega) (by omega)
  induction n with
  | zero => simp [below, received, given, under]
  | succ n ih =>
      change (later (j + 2 + n)).held ++ below later (j + 2 + n) =
        (stage (j + 2 + n)).held ++ below stage (j + 2 + n)
      rw [ih, same (j + 2 + n) (by omega) (by omega)]

/-- A line of pipes with the requests it received and the answers it reported. -/
structure Line (α β : Type) where
  stage : Nat → Pipe α β
  last : Nat
  input : List α
  output : List β

namespace Line

/-- Requests that were received and not reported yet, oldest first. -/
def flow (line : Line α β) : List α := below line.stage (line.last + 1)

/-- The invariant of a line that carries the requests selected by `carried`. -/
structure Sound (carried : α → Bool) (line : Line α β) : Prop where
  ordered : ∀ j ≤ line.last, (line.stage j).Ordered
  input : line.input = (line.stage line.last).answered.map Prod.fst ++ line.flow
  output : line.output = (line.stage line.last).answered.map Prod.snd
  upstream : ∀ j < line.last, ∀ x ∈ (line.stage j).held, carried x = true
  prior : ∀ j < line.last,
    (line.stage j).answered.map Prod.fst ++ below line.stage (j + 1) =
      line.input.filter carried

/-- All pipes but `j` are as before. -/
def Elsewhere (line later : Line α β) (j : Nat) : Prop :=
  later.last = line.last ∧ ∀ i, i ≠ j → later.stage i = line.stage i

/-- The moves of a line. -/
inductive Move (carried : α → Bool) (line later : Line α β) : Prop where
  | enter (x : α) (isCarried : carried x = true)
      (others : line.Elsewhere later 0)
      (pushed : later.stage 0 = (line.stage 0).push x)
      (input : later.input = line.input ++ [x]) (output : later.output = line.output)
  | enterLast (x : α) (idle : line.flow = [])
      (others : line.Elsewhere later line.last)
      (pushed : later.stage line.last = (line.stage line.last).push x)
      (notCarried : 0 < line.last → carried x = false)
      (input : later.input = line.input ++ [x]) (output : later.output = line.output)
  | send (j : Nat) (x : α) (inside : j ≤ line.last) (others : line.Elsewhere later j)
      (moved : (line.stage j).Send x (later.stage j))
      (input : later.input = line.input) (output : later.output = line.output)
  | serve (j : Nat) (x : α) (y : β) (inside : j ≤ line.last)
      (others : line.Elsewhere later j)
      (moved : (line.stage j).Serve x y (later.stage j))
      (input : later.input = line.input) (output : later.output = line.output)
  | hand (j : Nat) (x : α) (y : β) (inside : j < line.last)
      (last : later.last = line.last)
      (others : ∀ i, i ≠ j → i ≠ j + 1 → later.stage i = line.stage i)
      (moved : (line.stage j).Take x y (later.stage j))
      (pushed : later.stage (j + 1) = (line.stage (j + 1)).push x)
      (input : later.input = line.input) (output : later.output = line.output)
  | finish (x : α) (y : β) (others : line.Elsewhere later line.last)
      (moved : (line.stage line.last).Take x y (later.stage line.last))
      (input : later.input = line.input) (output : later.output = line.output ++ [y])

variable {carried : α → Bool} {line later : Line α β}

/-- A pipe move that keeps what pipe `j` holds and has answered keeps the line
sound. -/
private theorem Sound.inPlace {j : Nat} (sound : line.Sound carried)
    (others : line.Elsewhere later j) (ordered : (later.stage j).Ordered)
    (held : (later.stage j).held = (line.stage j).held)
    (answered : (later.stage j).answered = (line.stage j).answered)
    (input : later.input = line.input) (output : later.output = line.output) :
    later.Sound carried := by
  obtain ⟨last, same⟩ := others
  have heldEq : ∀ i, (later.stage i).held = (line.stage i).held := by
    intro i
    by_cases at_j : i = j
    · rw [at_j, held]
    · rw [same i at_j]
  have answeredEq : ∀ i, (later.stage i).answered = (line.stage i).answered := by
    intro i
    by_cases at_j : i = j
    · rw [at_j, answered]
    · rw [same i at_j]
  have belowEq : ∀ n, below later.stage n = below line.stage n :=
    fun n => below_congr fun i _ => heldEq i
  constructor
  · intro i small
    rw [last] at small
    by_cases at_j : i = j
    · rw [at_j]
      exact ordered
    · rw [same i at_j]
      exact sound.ordered i small
  · rw [flow, last, input, answeredEq line.last, belowEq]
    exact sound.input
  · rw [last, output, answeredEq line.last]
    exact sound.output
  · intro i small x member
    rw [last] at small
    rw [heldEq i] at member
    exact sound.upstream i small x member
  · intro i small
    rw [last] at small
    rw [answeredEq i, belowEq, input]
    exact sound.prior i small

theorem Sound.enter {x : α} (sound : line.Sound carried) (isCarried : carried x = true)
    (others : line.Elsewhere later 0)
    (pushed : later.stage 0 = (line.stage 0).push x)
    (input : later.input = line.input ++ [x]) (output : later.output = line.output) :
    later.Sound carried := by
  obtain ⟨last, same⟩ := others
  have answeredEq : ∀ i, (later.stage i).answered = (line.stage i).answered := by
    intro i
    by_cases first : i = 0
    · rw [first, pushed, Pipe.push_answered]
    · rw [same i first]
  have belowEq : ∀ n, below later.stage (n + 1) = below line.stage (n + 1) ++ [x] :=
    below_enter (by rw [pushed, Pipe.push_held]) fun i later => by rw [same i later]
  constructor
  · intro i small
    by_cases first : i = 0
    · rw [first, pushed]
      exact (sound.ordered 0 (Nat.zero_le _)).push x
    · rw [same i first]
      exact sound.ordered i (last ▸ small)
  · rw [flow, last, input, answeredEq, belowEq, sound.input, flow, List.append_assoc]
  · rw [last, output, answeredEq]
    exact sound.output
  · intro i small z member
    by_cases first : i = 0
    · subst first
      rw [pushed, Pipe.push_held, List.mem_append, List.mem_singleton] at member
      rcases member with old | rfl
      · exact sound.upstream 0 (last ▸ small) z old
      · exact isCarried
    · rw [same i first] at member
      exact sound.upstream i (last ▸ small) z member
  · intro i small
    rw [answeredEq, belowEq, ← List.append_assoc, sound.prior i (last ▸ small), input,
      List.filter_append, List.filter_cons_of_pos isCarried, List.filter_nil]

/-- While a line holds nothing, each of its pipes is empty-handed. -/
theorem held_of_flow_nil (idle : line.flow = []) {j : Nat} (small : j ≤ line.last) :
    (line.stage j).held = [] := by
  have general : ∀ n, below line.stage n = [] → ∀ i < n, (line.stage i).held = [] := by
    intro n
    induction n with
    | zero => intro _ i small; omega
    | succ n ih =>
        intro none i small
        simp only [below, List.append_eq_nil_iff] at none
        by_cases top : i = n
        · exact top ▸ none.1
        · exact ih none.2 i (by omega)
  exact general _ idle j (by omega)

theorem Sound.enterLast {x : α} (sound : line.Sound carried) (idle : line.flow = [])
    (others : line.Elsewhere later line.last)
    (pushed : later.stage line.last = (line.stage line.last).push x)
    (notCarried : 0 < line.last → carried x = false)
    (input : later.input = line.input ++ [x]) (output : later.output = line.output) :
    later.Sound carried := by
  obtain ⟨last, same⟩ := others
  have heldLast := held_of_flow_nil idle le_rfl
  have answeredEq : ∀ i, (later.stage i).answered = (line.stage i).answered := by
    intro i
    by_cases top : i = line.last
    · rw [top, pushed, Pipe.push_answered]
    · rw [same i top]
  have under : ∀ n ≤ line.last, below later.stage n = below line.stage n :=
    fun n small => below_congr fun i smaller => by rw [same i (by omega)]
  constructor
  · intro i small
    by_cases top : i = line.last
    · rw [top, pushed]
      exact (sound.ordered _ le_rfl).push x
    · rw [same i top]
      exact sound.ordered i (last ▸ small)
  · have rest : below line.stage line.last = [] := by
      have parts := idle
      simp only [flow, below, List.append_eq_nil_iff] at parts
      exact parts.2
    rw [flow, last, input, answeredEq, below, pushed, Pipe.push_held, heldLast,
      under _ le_rfl, rest, sound.input, idle]
    simp
  · rw [last, output, answeredEq]
    exact sound.output
  · intro i small z member
    rw [last] at small
    rw [same i (by omega)] at member
    exact sound.upstream i small z member
  · intro i small
    rw [last] at small
    have skipped : ¬carried x = true := by simp [notCarried (by omega)]
    rw [answeredEq, under _ (by omega), sound.prior i small, input, List.filter_append,
      List.filter_cons_of_neg skipped, List.filter_nil, List.append_nil]

theorem Sound.hand {j : Nat} {x : α} {y : β} (sound : line.Sound carried)
    (inside : j < line.last) (last : later.last = line.last)
    (others : ∀ i, i ≠ j → i ≠ j + 1 → later.stage i = line.stage i)
    (moved : (line.stage j).Take x y (later.stage j))
    (pushed : later.stage (j + 1) = (line.stage (j + 1)).push x)
    (input : later.input = line.input) (output : later.output = line.output) :
    later.Sound carried := by
  have given := moved.held_eq
  have received : (later.stage (j + 1)).held = (line.stage (j + 1)).held ++ [x] := by
    rw [pushed, Pipe.push_held]
  have beyond : ∀ n, j + 2 ≤ n → below later.stage n = below line.stage n := by
    intro n large
    obtain ⟨extra, rfl⟩ := Nat.exists_eq_add_of_le large
    exact below_hand given received (fun i a b => by rw [others i a b]) extra
  have under : ∀ n ≤ j, below later.stage n = below line.stage n :=
    fun n small => below_congr fun i smaller => by
      rw [others i (by omega) (by omega)]
  have answeredOther : ∀ i, i ≠ j → (later.stage i).answered = (line.stage i).answered := by
    intro i other
    by_cases following : i = j + 1
    · rw [following, pushed, Pipe.push_answered]
    · rw [others i other following]
  have answeredHere := moved.answered_eq (sound.ordered j (Nat.le_of_lt inside))
  have isCarried : carried x = true :=
    sound.upstream j inside x (by rw [given]; exact List.mem_cons_self)
  constructor
  · intro i small
    rw [last] at small
    by_cases here : i = j
    · rw [here]
      exact moved.ordered (sound.ordered j (Nat.le_of_lt inside))
    · by_cases following : i = j + 1
      · rw [following, pushed]
        exact (sound.ordered (j + 1) inside).push x
      · rw [others i here following]
        exact sound.ordered i small
  · rw [flow, last, input, answeredOther _ (by omega), beyond _ (by omega)]
    exact sound.input
  · rw [last, output, answeredOther _ (by omega)]
    exact sound.output
  · intro i small z member
    rw [last] at small
    by_cases here : i = j
    · subst here
      exact sound.upstream i inside z (by rw [given]; exact List.mem_cons_of_mem x member)
    · by_cases following : i = j + 1
      · subst following
        rw [received, List.mem_append, List.mem_singleton] at member
        rcases member with old | rfl
        · exact sound.upstream _ small z old
        · exact isCarried
      · rw [others i here following] at member
        exact sound.upstream i small z member
  · intro i small
    rw [last] at small
    rw [input]
    rcases Nat.lt_trichotomy i j with lower | here | upper
    · rw [answeredOther i (by omega), under _ (by omega)]
      exact sound.prior i small
    · -- the handed request moves from the held ones to the answered ones of pipe `j`
      subst here
      rw [← sound.prior i small, answeredHere, below, below, under _ le_rfl, given]
      simp
    · rw [answeredOther i (by omega), beyond _ (by omega)]
      exact sound.prior i small

theorem Sound.finish {x : α} {y : β} (sound : line.Sound carried)
    (others : line.Elsewhere later line.last)
    (moved : (line.stage line.last).Take x y (later.stage line.last))
    (input : later.input = line.input) (output : later.output = line.output ++ [y]) :
    later.Sound carried := by
  obtain ⟨last, same⟩ := others
  have given := moved.held_eq
  have answered := moved.answered_eq (sound.ordered _ le_rfl)
  have under : ∀ n ≤ line.last, below later.stage n = below line.stage n :=
    fun n small => below_congr fun i smaller => by rw [same i (by omega)]
  constructor
  · intro i small
    rw [last] at small
    by_cases top : i = line.last
    · rw [top]
      exact moved.ordered (sound.ordered _ le_rfl)
    · rw [same i top]
      exact sound.ordered i small
  · rw [flow, last, input, answered, below, under _ le_rfl, sound.input, flow, below, given]
    simp
  · rw [last, output, answered, sound.output]
    simp
  · intro i small z member
    rw [last] at small
    rw [same i (by omega)] at member
    exact sound.upstream i small z member
  · intro i small
    rw [last] at small
    rw [same i (by omega), under _ (by omega), input]
    exact sound.prior i small

/-- A line nothing has entered is sound. -/
theorem Sound.of_empty (stages : ∀ j, line.stage j = Pipe.empty) (input : line.input = [])
    (output : line.output = []) : line.Sound carried := by
  have none : ∀ n, below line.stage n = [] := by
    intro n
    induction n with
    | zero => rfl
    | succ n ih => rw [below, ih, stages n, Pipe.empty_held, List.append_nil]
  constructor
  · intro j _
    rw [stages j]
    exact Pipe.empty_ordered
  · simp [flow, none, stages, input]
  · simp [stages, output]
  · intro j _ x held
    rw [stages j] at held
    simp at held
  · intro j _
    simp [stages, none, input]

/-- Every move of a line preserves its invariant. -/
theorem Sound.move (sound : line.Sound carried) (move : line.Move carried later) :
    later.Sound carried := by
  cases move with
  | enter x isCarried others pushed input output =>
      exact sound.enter isCarried others pushed input output
  | enterLast x idle others pushed notCarried input output =>
      exact sound.enterLast idle others pushed notCarried input output
  | send j x inside others moved input output =>
      exact sound.inPlace others (moved.ordered (sound.ordered j inside)) moved.held_eq
        moved.answered_eq input output
  | serve j x y inside others moved input output =>
      have ordered := sound.ordered j inside
      exact sound.inPlace others (moved.ordered ordered) moved.held_eq
        (moved.answered_eq ordered) input output
  | hand j x y inside last others moved pushed input output =>
      exact sound.hand inside last others moved pushed input output
  | finish x y others moved input output =>
      exact sound.finish others moved input output

/-! ## What a sound line holds -/

theorem mem_flow {j : Nat} {x : α} (small : j ≤ line.last)
    (held : x ∈ (line.stage j).held) : x ∈ line.flow := by
  have general : ∀ n, j < n → x ∈ below line.stage n := by
    intro n
    induction n with
    | zero => intro impossible; omega
    | succ n ih =>
        intro bound
        rw [below, List.mem_append]
        by_cases top : j = n
        · exact .inl (top ▸ held)
        · exact .inr (ih (by omega))
  exact general _ (by omega)

/-- Whatever is held was received. -/
theorem Sound.mem_input (sound : line.Sound carried) {j : Nat} {x : α}
    (small : j ≤ line.last) (held : x ∈ (line.stage j).held) : x ∈ line.input := by
  rw [sound.input]
  exact List.mem_append_right _ (mem_flow small held)

private theorem flow_congr (last : later.last = line.last)
    (held : ∀ i, (later.stage i).held = (line.stage i).held) : later.flow = line.flow := by
  rw [flow, flow, last]
  exact below_congr fun i _ => held i

private theorem held_elsewhere {j : Nat} (others : line.Elsewhere later j)
    (held : (later.stage j).held = (line.stage j).held) (i : Nat) :
    (later.stage i).held = (line.stage i).held := by
  by_cases here : i = j
  · rw [here, held]
  · rw [others.2 i here]

/-- A move that takes in no request and reports no answer keeps the flow. -/
theorem Move.flow_same (move : line.Move carried later) (input : later.input = line.input)
    (output : later.output = line.output) : later.flow = line.flow := by
  cases move with
  | enter x isCarried others pushed entered reported =>
      rw [entered] at input
      exact absurd input (by simp)
  | enterLast x idle others pushed notCarried entered reported =>
      rw [entered] at input
      exact absurd input (by simp)
  | send j x inside others moved =>
      exact flow_congr others.1 (held_elsewhere others moved.held_eq)
  | serve j x y inside others moved =>
      exact flow_congr others.1 (held_elsewhere others moved.held_eq)
  | hand j x y inside last others moved pushed =>
      rw [flow, flow, last]
      obtain ⟨extra, whole⟩ : ∃ extra, line.last + 1 = j + 2 + extra :=
        Nat.exists_eq_add_of_le (by omega)
      rw [whole]
      exact below_hand moved.held_eq (by rw [pushed, Pipe.push_held])
        (fun i notHere notNext => by rw [others i notHere notNext]) extra
  | finish x y others moved entered reported =>
      rw [reported] at output
      exact absurd output (by simp)

/-- A line that is as before, or has moved without taking in a request or reporting an
answer. -/
inductive Advances (carried : α → Bool) (line later : Line α β) : Prop where
  | still (same : later = line)
  | moves (move : line.Move carried later) (input : later.input = line.input)
      (output : later.output = line.output)

theorem Advances.sound (advances : line.Advances carried later)
    (sound : line.Sound carried) : later.Sound carried := by
  cases advances with
  | still same => exact same ▸ sound
  | moves move input output => exact sound.move move

theorem Advances.flow_eq (advances : line.Advances carried later) :
    later.flow = line.flow := by
  cases advances with
  | still same => rw [same]
  | moves move input output => exact move.flow_same input output

theorem Advances.input_eq (advances : line.Advances carried later) :
    later.input = line.input := by
  cases advances with
  | still same => rw [same]
  | moves move input output => exact input

/-- A request that enters is the youngest in the flow. -/
theorem Move.flow_enter {x : α} (move : line.Move carried later)
    (input : later.input = line.input ++ [x]) : later.flow = line.flow ++ [x] := by
  cases move with
  | enter z isCarried others pushed entered =>
      rw [entered] at input
      cases List.append_cancel_left input
      rw [flow, flow, others.1]
      exact below_enter (by rw [pushed, Pipe.push_held]) (fun i different => by
        rw [others.2 i different]) _
  | enterLast z idle others pushed notCarried entered =>
      rw [entered] at input
      cases List.append_cancel_left input
      have rest : below line.stage line.last = [] := by
        have parts := idle
        simp only [flow, below, List.append_eq_nil_iff] at parts
        exact parts.2
      have under : below later.stage line.last = below line.stage line.last :=
        below_congr fun i small => by rw [others.2 i (by omega)]
      rw [idle, flow, others.1, below, pushed, Pipe.push_held, under, rest,
        held_of_flow_nil idle le_rfl]
      simp
  | send j z inside others moved same =>
      rw [same] at input
      exact absurd input (by simp)
  | serve j z y inside others moved same =>
      rw [same] at input
      exact absurd input (by simp)
  | hand j z y inside last others moved pushed same =>
      rw [same] at input
      exact absurd input (by simp)
  | finish z y others moved same =>
      rw [same] at input
      exact absurd input (by simp)

/-- The answer that is reported belongs to the oldest request of the flow. -/
theorem Move.flow_finish {y : β} (move : line.Move carried later)
    (output : later.output = line.output ++ [y]) : ∃ x, line.flow = x :: later.flow := by
  cases move with
  | enter z isCarried others pushed entered same =>
      rw [same] at output
      exact absurd output (by simp)
  | enterLast z idle others pushed notCarried entered same =>
      rw [same] at output
      exact absurd output (by simp)
  | send j z inside others moved entered same =>
      rw [same] at output
      exact absurd output (by simp)
  | serve j z answer inside others moved entered same =>
      rw [same] at output
      exact absurd output (by simp)
  | hand j z answer inside last others moved pushed entered same =>
      rw [same] at output
      exact absurd output (by simp)
  | finish x answer others moved =>
      have under : below later.stage line.last = below line.stage line.last :=
        below_congr fun i small => by rw [others.2 i (by omega)]
      refine ⟨x, ?_⟩
      rw [flow, flow, others.1, below, below, under, moved.held_eq]
      rfl

/-! ## What the servers of a sound line have served -/

/-- Carried requests split into those a pipe has answered, those it holds and those
still below it. -/
theorem Sound.carried_split (sound : line.Sound carried) {j : Nat} (small : j ≤ line.last) :
    ((line.stage j).answered.map Prod.fst ++ below line.stage (j + 1)).filter carried =
      line.input.filter carried := by
  by_cases top : j = line.last
  · rw [top, sound.input]
    rfl
  · rw [sound.prior j (by omega), List.filter_filter]
    simp

/-- A pipe has answered exactly what the next one has answered or holds. -/
theorem Sound.answered_succ (sound : line.Sound carried) {j : Nat} (inside : j < line.last) :
    ((line.stage j).answered.map Prod.fst).filter carried =
      ((line.stage (j + 1)).answered.map Prod.fst ++ (line.stage (j + 1)).held).filter
        carried := by
  have here := sound.carried_split (Nat.le_of_lt inside)
  have next := sound.carried_split (Nat.succ_le_of_lt inside)
  rw [below, ← List.append_assoc, List.filter_append] at next
  rw [List.filter_append] at here
  exact List.append_cancel_right (here.trans next.symm)

/-- The carried requests a server has served, as part of what its pipe has answered or
holds. -/
theorem Sound.served_held (sound : line.Sound carried) {j : Nat} (small : j ≤ line.last) :
    ((line.stage j).served.map Prod.fst).filter carried <+:
      ((line.stage j).answered.map Prod.fst ++ (line.stage j).held).filter carried := by
  rw [← (sound.ordered j small).served_append, List.filter_append]
  exact List.prefix_append _ _

theorem answered_served (pipe : Pipe α β) : pipe.answered <+: pipe.served :=
  List.take_prefix _ _

/-- The next server has served a prefix of what a server has served. -/
theorem Sound.served_succ (sound : line.Sound carried) {j : Nat} (inside : j < line.last) :
    ((line.stage (j + 1)).served.map Prod.fst).filter carried <+:
      ((line.stage j).served.map Prod.fst).filter carried := by
  refine (sound.served_held (Nat.succ_le_of_lt inside)).trans ?_
  rw [← sound.answered_succ inside]
  exact ((answered_served (line.stage j)).map Prod.fst).filter carried

/-- Every server has served a prefix of what was received. -/
theorem Sound.served_input (sound : line.Sound carried) {j : Nat} (small : j ≤ line.last) :
    ((line.stage j).served.map Prod.fst).filter carried <+: line.input.filter carried := by
  refine (sound.served_held small).trans ?_
  rw [← sound.carried_split small, below, ← List.append_assoc, List.filter_append _ (below _ _)]
  exact List.prefix_append _ _

/-- The last server has served a prefix of what every server has served. -/
theorem Sound.served_last (sound : line.Sound carried) {j : Nat} (small : j ≤ line.last) :
    ((line.stage line.last).served.map Prod.fst).filter carried <+:
      ((line.stage j).served.map Prod.fst).filter carried := by
  have general : ∀ n, j + n ≤ line.last →
      ((line.stage (j + n)).served.map Prod.fst).filter carried <+:
        ((line.stage j).served.map Prod.fst).filter carried := by
    intro n
    induction n with
    | zero => intro _; exact List.prefix_refl _
    | succ n ih =>
        intro bound
        have step := sound.served_succ (show j + n < line.last by omega)
        exact step.trans (ih (by omega))
  have whole := general (line.last - j) (by omega)
  rwa [Nat.add_sub_cancel' small] at whole

/-- Whatever a server has served was received. -/
theorem Sound.mem_served (sound : line.Sound carried) {j : Nat} {x : α}
    (small : j ≤ line.last) (served : x ∈ (line.stage j).served.map Prod.fst) :
    x ∈ line.input := by
  have inside : x ∈ (line.stage j).answered.map Prod.fst ++ (line.stage j).held := by
    rw [← (sound.ordered j small).served_append]
    exact List.mem_append_left _ served
  rcases List.mem_append.mp inside with answered | held
  · by_cases top : j = line.last
    · rw [sound.input]
      exact List.mem_append_left _ (top ▸ answered)
    · have part : x ∈ line.input.filter carried := by
        rw [← sound.prior j (by omega)]
        exact List.mem_append_left _ answered
      exact List.mem_of_mem_filter part
  · exact sound.mem_input small held

/-- A server meets every request once. -/
theorem Sound.served_nodup (sound : line.Sound carried) (nodup : line.input.Nodup) {j : Nat}
    (small : j ≤ line.last) :
    ((line.stage j).served.map Prod.fst ++
      ((line.stage j).req ++ (line.stage j).queue)).Nodup := by
  rw [(sound.ordered j small).served_append]
  by_cases top : j = line.last
  · rw [sound.input, flow, below, ← List.append_assoc] at nodup
    rw [top]
    exact (List.nodup_append.mp nodup).1
  · have part := nodup.filter carried
    rw [← sound.prior j (by omega), below, ← List.append_assoc] at part
    exact (List.nodup_append.mp part).1

private theorem below_mono {stage : Nat → Pipe α β} {x : α} {m n : Nat} (small : m ≤ n)
    (inside : x ∈ below stage m) : x ∈ below stage n := by
  induction n, small using Nat.le_induction with
  | base => exact inside
  | succ n _ ih => exact List.mem_append_right _ ih

/-- A carried request that has reached the last pipe has been served before it. -/
theorem Sound.served_before_last (sound : line.Sound carried) (nodup : line.input.Nodup)
    {x : α} (held : x ∈ (line.stage line.last).held) (isCarried : carried x = true) {j : Nat}
    (inside : j < line.last) : x ∈ (line.stage j).served.map Prod.fst := by
  have whole : x ∈ line.input.filter carried :=
    List.mem_filter.mpr ⟨sound.mem_input le_rfl held, isCarried⟩
  rw [← sound.prior j inside, List.mem_append] at whole
  rcases whole with answered | under
  · exact ((answered_served _).map Prod.fst).subset answered
  · rw [sound.input, flow, below] at nodup
    have separate := (List.nodup_append.mp (List.nodup_append.mp nodup).2.1).2.2
    exact absurd rfl (separate x held x (below_mono inside under))

/-- Where every request is carried, no server has served anything else. -/
theorem Sound.served_carried (sound : line.Sound carried)
    (all : ∀ x ∈ line.input, carried x = true) {j : Nat} (small : j ≤ line.last) :
    ((line.stage j).served.map Prod.fst).filter carried =
      (line.stage j).served.map Prod.fst :=
  List.filter_eq_self.mpr fun x served => all x (sound.mem_served small served)

/-- The requests whose answers were reported are the first ones received. -/
theorem Sound.answered_eq_take (sound : line.Sound carried) :
    (line.stage line.last).answered.map Prod.fst = line.input.take line.output.length := by
  rw [sound.output, List.length_map, sound.input]
  have size : (line.stage line.last).answered.length =
      ((line.stage line.last).answered.map Prod.fst).length := by simp
  rw [size, List.take_left']
  rfl

end Line

/-! ## Progress -/

/-- Steps still needed for the requests of one pipe, each of which has `beyond` steps
ahead of it once it has left the pipe. -/
def Pipe.work (pipe : Pipe α β) (beyond : Nat) : Nat :=
  pipe.queue.length * (beyond + 3) + pipe.req.length * (beyond + 2) +
    pipe.rsp.length * (beyond + 1)

theorem Pipe.Send.work {pipe after : Pipe α β} {x : α} (moved : pipe.Send x after)
    (beyond : Nat) : after.work beyond + 1 = pipe.work beyond := by
  obtain ⟨rest, queue, rfl⟩ := moved
  simp only [Pipe.work, queue, List.length_cons, List.length_append, List.length_nil,
    Nat.add_mul]
  omega

theorem Pipe.Serve.work {pipe after : Pipe α β} {x : α} {y : β}
    (moved : pipe.Serve x y after) (beyond : Nat) :
    after.work beyond + 1 = pipe.work beyond := by
  obtain ⟨rest, req, rfl⟩ := moved
  simp only [Pipe.work, req, List.length_cons, List.length_append, List.length_nil,
    Nat.add_mul]
  omega

theorem Pipe.Take.work {pipe after : Pipe α β} {x : α} {y : β}
    (moved : pipe.Take x y after) (beyond : Nat) :
    after.work beyond + (beyond + 1) = pipe.work beyond := by
  obtain ⟨sent, rsp, sentEq, rspEq, rfl⟩ := moved
  simp only [Pipe.work, rspEq, List.length_cons, Nat.add_mul]
  omega

theorem Pipe.work_push (pipe : Pipe α β) (x : α) (beyond : Nat) :
    (pipe.push x).work beyond = pipe.work beyond + (beyond + 3) := by
  simp only [Pipe.work, Pipe.push, List.length_append, List.length_cons, List.length_nil,
    Nat.add_mul]
  omega

/-- Steps still needed for the requests held below pipe `n`. -/
def workBelow (stage : Nat → Pipe α β) (last : Nat) : Nat → Nat
  | 0 => 0
  | n + 1 => (stage n).work (3 * (last - n)) + workBelow stage last n

theorem workBelow_congr {stage later : Nat → Pipe α β} {last n : Nat}
    (same : ∀ i < n, (later i).work = (stage i).work) :
    workBelow later last n = workBelow stage last n := by
  induction n with
  | zero => rfl
  | succ n ih =>
      rw [workBelow, workBelow, same n (Nat.lt_succ_self n),
        ih fun i small => same i (Nat.lt_succ_of_lt small)]

theorem workBelow_single {stage later : Nat → Pipe α β} {last j n : Nat} (inside : j < n)
    (same : ∀ i, i ≠ j → later i = stage i)
    (less : (later j).work (3 * (last - j)) < (stage j).work (3 * (last - j))) :
    workBelow later last n < workBelow stage last n := by
  induction n with
  | zero => omega
  | succ n ih =>
      simp only [workBelow]
      by_cases here : j = n
      · subst here
        rw [workBelow_congr fun i small => congrArg Pipe.work (same i (by omega))]
        omega
      · have fewer := ih (by omega)
        rw [same n (Ne.symm here)]
        omega

theorem workBelow_pair {stage later : Nat → Pipe α β} {last j n : Nat} (inside : j + 1 < n)
    (same : ∀ i, i ≠ j → i ≠ j + 1 → later i = stage i)
    (less : (later (j + 1)).work (3 * (last - (j + 1))) + (later j).work (3 * (last - j)) <
      (stage (j + 1)).work (3 * (last - (j + 1))) + (stage j).work (3 * (last - j))) :
    workBelow later last n < workBelow stage last n := by
  induction n with
  | zero => omega
  | succ n ih =>
      by_cases here : j + 1 = n
      · subst here
        simp only [workBelow]
        rw [workBelow_congr fun i small => congrArg Pipe.work (same i (by omega) (by omega))]
        omega
      · simp only [workBelow]
        have fewer := ih (by omega)
        rw [same n (by omega) (Ne.symm here)]
        omega

namespace Line

variable {carried : α → Bool} {line later : Line α β}

/-- Steps a line still needs to report all answers. -/
def work (line : Line α β) : Nat := workBelow line.stage line.last (line.last + 1)

/-- A move that takes in no request brings the line closer to having reported
everything. -/
theorem Move.work_lt (move : line.Move carried later) (input : later.input = line.input) :
    later.work < line.work := by
  cases move with
  | enter x isCarried others pushed entered =>
      rw [entered] at input
      exact absurd input (by simp)
  | enterLast x idle others pushed notCarried entered =>
      rw [entered] at input
      exact absurd input (by simp)
  | send j x inside others moved =>
      have less := moved.work (3 * (line.last - j))
      rw [work, work, others.1]
      exact workBelow_single (Nat.lt_succ_of_le inside) others.2 (by omega)
  | serve j x y inside others moved =>
      have less := moved.work (3 * (line.last - j))
      rw [work, work, others.1]
      exact workBelow_single (Nat.lt_succ_of_le inside) others.2 (by omega)
  | hand j x y inside last others moved pushed =>
      have less := moved.work (3 * (line.last - j))
      have more := (line.stage (j + 1)).work_push x (3 * (line.last - (j + 1)))
      rw [work, work, last]
      refine workBelow_pair (Nat.succ_lt_succ inside) others ?_
      rw [pushed, more]
      omega
  | finish x y others moved =>
      have less := moved.work (3 * (line.last - line.last))
      rw [work, work, others.1]
      exact workBelow_single (Nat.lt_succ_self _) others.2 (by omega)

/-- A move reports at most one answer. -/
theorem Move.output_le (move : line.Move carried later) :
    later.output.length ≤ line.output.length + 1 := by
  cases move with
  | enter x isCarried others pushed input output => simp [output]
  | enterLast x idle others pushed notCarried input output => simp [output]
  | send j x inside others moved input output => simp [output]
  | serve j x y inside others moved input output => simp [output]
  | hand j x y inside last others moved pushed input output => simp [output]
  | finish x y others moved input output => simp [output]

/-- A line that holds a request has a pipe that can move. -/
theorem Sound.busy (sound : line.Sound carried) (holds : line.flow ≠ []) :
    ∃ j ≤ line.last, (line.stage j).queue ≠ [] ∨ (line.stage j).req ≠ [] ∨
      ((line.stage j).rsp ≠ [] ∧ (line.stage j).sent ≠ []) := by
  by_contra none
  apply holds
  have general : ∀ n ≤ line.last + 1, below line.stage n = [] := by
    intro n
    induction n with
    | zero => intro _; rfl
    | succ n ih =>
        intro bound
        rw [below, ih (by omega), List.append_nil]
        by_contra held
        exact none ⟨n, by omega, (sound.ordered n (by omega)).busy held⟩
  exact general _ le_rfl

end Line

end Pipes
