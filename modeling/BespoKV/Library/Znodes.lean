import Mathlib.Logic.Function.Basic
import Mathlib.Tactic.SplitIfs
import BespoKV.Library.Transition

/-!
# Programs on a tree with versions

A service keeps a tree of nodes.  A node is created below its parent, once; its data is replaced
under the condition that its version is the one the caller has seen.  Clients run programs that
create nodes, where it does not matter who comes first, and replace data in two calls, one that
looks up the version and one that writes.  Calls of different clients interleave in any way, and
a client may start again at any time.
-/

namespace Znodes

open Transition

variable {α δ ι : Type}

structure Node (δ : Type) where
  data : δ
  version : Nat := 0
  deriving DecidableEq, Repr

/-- The nodes by their paths; the root is the empty path. -/
abbrev Tree (α δ : Type) := List α → Option (Node δ)

inductive Code where
  | noNode
  | nodeExists
  | badVersion
  | badArguments
  deriving DecidableEq, Repr

/-- What a client does to a node. -/
inductive Op (α δ : Type) where
  /-- create it, unless it is there -/
  | create (path : List α) (data : δ)
  /-- look up its version, then replace its data -/
  | set (path : List α) (data : δ)
  /-- a call for a path that has no node, because it is no path -/
  | invalid

/-- The paths that a program creates. -/
def created : List (Op α δ) → List (List α)
  | [] => []
  | .create path _ :: ops => path :: created ops
  | .set _ _ :: ops => created ops
  | .invalid :: ops => created ops

/-- The paths whose data it replaces. -/
def written : List (Op α δ) → List (List α)
  | [] => []
  | .create _ _ :: ops => written ops
  | .set path _ :: ops => path :: written ops
  | .invalid :: ops => written ops

theorem created_append (first second : List (Op α δ)) :
    created (first ++ second) = created first ++ created second := by
  induction first with
  | nil => rfl
  | cons op first ih => cases op <;> simp [created, ih]

theorem mem_created {path : List α} {ops : List (Op α δ)} :
    path ∈ created ops ↔ ∃ data, .create path data ∈ ops := by
  induction ops with
  | nil => simp [created]
  | cons op ops ih =>
      cases op with
      | create other data => simp [created, ih, exists_or]
      | set other data => simp [created, ih]
      | invalid => simp [created, ih]

theorem mem_written {path : List α} {ops : List (Op α δ)} :
    path ∈ written ops ↔ ∃ data, .set path data ∈ ops := by
  induction ops with
  | nil => simp [written]
  | cons op ops ih =>
      cases op with
      | create other data => simp [written, ih]
      | set other data => simp [written, ih, exists_or]
      | invalid => simp [written, ih]

/-- Nodes are created after their parents and written after they were created. -/
def Rooted (known : List (List α)) : List (Op α δ) → Prop
  | [] => True
  | .create path _ :: ops =>
      (path.dropLast = [] ∨ path.dropLast ∈ known) ∧ Rooted (path :: known) ops
  | .set path _ :: ops => path ∈ known ∧ Rooted known ops
  | .invalid :: ops => Rooted known ops

theorem Rooted.mono {known more : List (List α)} {ops : List (Op α δ)} (rooted : Rooted known ops)
    (subset : known ⊆ more) : Rooted more ops := by
  induction ops generalizing known more with
  | nil => trivial
  | cons op ops ih =>
      cases op with
      | create path data =>
          refine ⟨rooted.1.imp_right (@subset _), ih rooted.2 ?_⟩
          exact List.cons_subset_cons path subset
      | set path data => exact ⟨subset rooted.1, ih rooted.2 subset⟩
      | invalid =>
          change Rooted known ops at rooted
          exact ih rooted subset

theorem Rooted.append {known : List (List α)} {first second : List (Op α δ)}
    (rooted : Rooted known first) (next : Rooted (created first ++ known) second) :
    Rooted known (first ++ second) := by
  induction first generalizing known with
  | nil => exact next
  | cons op first ih =>
      cases op with
      | create path data =>
          refine ⟨rooted.1, ih rooted.2 (next.mono ?_)⟩
          intro other member
          simp only [created, List.cons_append, List.mem_cons, List.mem_append] at member ⊢
          rcases member with same | before | known
          · exact .inr (.inl same)
          · exact .inl before
          · exact .inr (.inr known)
      | set path data => exact ⟨rooted.1, ih rooted.2 next⟩
      | invalid =>
          change Rooted known first at rooted
          exact ih rooted next

theorem Rooted.rest {known : List (List α)} {first second : List (Op α δ)}
    (rooted : Rooted known (first ++ second)) : Rooted (created first ++ known) second := by
  induction first generalizing known with
  | nil => exact rooted
  | cons op first ih =>
      cases op with
      | create path data =>
          apply (ih rooted.2).mono
          intro other member
          simp only [created, List.cons_append, List.mem_cons, List.mem_append] at member ⊢
          rcases member with before | same | known
          · exact .inr (.inl before)
          · exact .inl same
          · exact .inr (.inr known)
      | set path data => exact ih rooted.2
      | invalid =>
          change Rooted known (first ++ second) at rooted
          exact ih rooted

/-- Programs that stand on their own, one after the other. -/
theorem Rooted.flatMap {κ : Type} {items : List κ} {program : κ → List (Op α δ)}
    (rooted : ∀ item ∈ items, Rooted [] (program item)) : Rooted [] (items.flatMap program) := by
  induction items with
  | nil => trivial
  | cons item items ih =>
      rw [List.flatMap_cons]
      apply (rooted item List.mem_cons_self).append
      apply (ih fun other member => rooted other (List.mem_cons_of_mem item member)).mono
      exact List.nil_subset _

theorem Rooted.children {known : List (List α)} {base : List α} (there : base ∈ known)
    (names : List α) (data : δ) :
    Rooted known (names.map fun name => Op.create (base ++ [name]) data) := by
  induction names generalizing known with
  | nil => trivial
  | cons name names ih =>
      refine ⟨.inr ?_, ih (List.mem_cons_of_mem _ there)⟩
      rw [List.dropLast_concat]
      exact there

/-- The last data that a program writes to a node. -/
def lastWritten [DecidableEq α] (path : List α) : List (Op α δ) → Option δ
  | [] => none
  | .create _ _ :: ops => lastWritten path ops
  | .set other data :: ops =>
      match lastWritten path ops with
      | some later => some later
      | none => if other = path then some data else none
  | .invalid :: ops => lastWritten path ops

theorem lastWritten_append [DecidableEq α] (path : List α) (first second : List (Op α δ)) :
    lastWritten path (first ++ second) =
      (lastWritten path second).or (lastWritten path first) := by
  induction first with
  | nil => simp [lastWritten]
  | cons op first ih =>
      cases op with
      | create other data => exact ih
      | invalid => exact ih
      | set other data =>
          simp only [List.cons_append, lastWritten, ih]
          cases lastWritten path second <;> rfl

theorem mem_of_lastWritten [DecidableEq α] {path : List α} {data : δ} {ops : List (Op α δ)}
    (last : lastWritten path ops = some data) : .set path data ∈ ops := by
  induction ops with
  | nil => cases last
  | cons op ops ih =>
      cases op with
      | create _ _ => exact List.mem_cons_of_mem _ (ih last)
      | invalid => exact List.mem_cons_of_mem _ (ih last)
      | set here value =>
          rw [lastWritten] at last
          cases later : lastWritten path ops with
          | some other =>
              rw [later] at last
              cases last
              exact List.mem_cons_of_mem _ (ih later)
          | none =>
              rw [later] at last
              dsimp only at last
              split at last
              next same =>
                cases last
                subst same
                exact List.mem_cons_self
              · cases last

theorem lastWritten_eq_none [DecidableEq α] {path : List α} {ops : List (Op α δ)}
    (silent : ∀ data, .set path data ∉ ops) : lastWritten path ops = none := by
  cases last : lastWritten path ops with
  | none => rfl
  | some data => exact absurd (mem_of_lastWritten last) (silent data)

section Growth

variable {programs : ι → List (Op α δ)}

/-- Another client writes to a node too. -/
def Contested (programs : ι → List (Op α δ)) (i : ι) (path : List α) : Prop :=
  ∃ j, j ≠ i ∧ path ∈ written (programs j)

/-- The tree after a call of a client: no node has vanished, new nodes are in its program, and
a node has changed only if its program writes to it. -/
structure Evolves (programs : ι → List (Op α δ)) (i : ι) (tree tree' : Tree α δ) : Prop where
  kept : ∀ path node, tree path = some node →
    tree' path = some node ∨ path ∈ written (programs i) ∧ (tree' path).isSome
  fresh : ∀ path node, tree path = none → tree' path = some node →
    .create path node.data ∈ programs i

theorem Evolves.refl (programs : ι → List (Op α δ)) (i : ι) (tree : Tree α δ) :
    Evolves programs i tree tree where
  kept _ _ present := .inl present
  fresh _ _ absent present := by
    rw [absent] at present
    cases present

theorem Evolves.isSome {i : ι} {tree tree' : Tree α δ} (evolves : Evolves programs i tree tree')
    {path : List α} (present : (tree path).isSome) : (tree' path).isSome := by
  obtain ⟨node, found⟩ := Option.isSome_iff_exists.mp present
  rcases evolves.kept path node found with same | ⟨_, there⟩
  · rw [same]
    rfl
  · exact there

/-- What is known of a node stays true, or another client writes to it. -/
theorem Evolves.known {i j : ι} {tree tree' : Tree α δ} {path : List α} {P : Node δ → Prop}
    (evolves : Evolves programs i tree tree') (differ : i ≠ j)
    (known : (∃ node, tree path = some node ∧ P node) ∨ Contested programs j path) :
    (∃ node, tree' path = some node ∧ P node) ∨ Contested programs j path := by
  rcases known with ⟨node, present, holds⟩ | contested
  · rcases evolves.kept path node present with kept | ⟨writes, _⟩
    · exact .inl ⟨node, kept, holds⟩
    · exact .inr ⟨i, differ, writes⟩
  · exact .inr contested

end Growth

/-! ## Calls -/

section Calls

variable [DecidableEq α]

namespace Tree

def put (tree : Tree α δ) (path : List α) (node : Node δ) : Tree α δ :=
  Function.update tree path (some node)

theorem put_self (tree : Tree α δ) (path : List α) (node : Node δ) :
    tree.put path node path = some node := Function.update_self ..

theorem put_of_ne (tree : Tree α δ) {path other : List α} (node : Node δ) (differ : other ≠ path) :
    tree.put path node other = tree other := Function.update_of_ne differ ..

def create (tree : Tree α δ) (path : List α) (data : δ) : Except Code (Tree α δ) :=
  if (tree path.dropLast).isNone then .error .noNode
  else if (tree path).isSome then .error .nodeExists
  else .ok (tree.put path { data := data })

def set (tree : Tree α δ) (path : List α) (data : δ) (version : Nat) :
    Except Code (Tree α δ) :=
  match tree path with
  | none => .error .noNode
  | some node =>
      if node.version = version then .ok (tree.put path { data := data, version := version + 1 })
      else .error .badVersion

end Tree

/-- A client: the part of its program that it has run, and the part that is left.  Between the two
calls of a write it knows a version. -/
structure Client (α δ : Type) where
  ran : List (Op α δ) := []
  todo : List (Op α δ)
  stat : Option Nat := none
  thrown : Option Code := none

namespace Client

def done (client : Client α δ) (op : Op α δ) (ops : List (Op α δ)) : Client α δ :=
  { ran := client.ran ++ [op], todo := ops }

def throw (client : Client α δ) (code : Code) : Client α δ := { client with thrown := some code }

/-- The next call of a client. -/
def call (client : Client α δ) (tree : Tree α δ) : Option (Tree α δ × Client α δ) :=
  match client.thrown, client.todo with
  | some _, _ => none
  | none, [] => none
  | none, .create path data :: ops =>
      match tree.create path data with
      | .ok tree => some (tree, client.done (.create path data) ops)
      | .error .nodeExists => some (tree, client.done (.create path data) ops)
      | .error code => some (tree, client.throw code)
  | none, .set path data :: ops =>
      match client.stat with
      | none =>
          match tree path with
          | none => some (tree, client.throw .noNode)
          | some node => some (tree, { client with stat := some node.version })
      | some version =>
          match tree.set path data version with
          | .ok tree => some (tree, client.done (.set path data) ops)
          | .error code => some (tree, client.throw code)
  | none, .invalid :: _ => some (tree, client.throw .badArguments)

/-- Nothing is left to do, or only what is refused. -/
def Finished (client : Client α δ) : Prop := ∀ op ∈ client.todo, op = .invalid

omit [DecidableEq α] in
theorem Finished.silent {client : Client α δ} (finished : client.Finished) :
    created client.todo = [] ∧ ∀ [DecidableEq α] (path : List α),
      lastWritten path client.todo = none := by
  constructor
  · refine List.eq_nil_iff_forall_not_mem.mpr fun path member => ?_
    obtain ⟨data, creates⟩ := mem_created.mp member
    cases finished _ creates
  · intro _ path
    refine lastWritten_eq_none fun data writes => ?_
    cases finished _ writes

end Client

/-! ## What a call does -/

section Cases

variable (client : Client α δ) (tree : Tree α δ)

/-- The calls by their effects. -/
inductive Called : Tree α δ → Client α δ → Prop
  | creates {path : List α} {data : δ} {ops : List (Op α δ)} :
      client.todo = .create path data :: ops → tree path = none →
      Called (tree.put path { data := data }) (client.done (.create path data) ops)
  | finds {path : List α} {data : δ} {ops : List (Op α δ)} :
      client.todo = .create path data :: ops → (tree path).isSome →
      Called tree (client.done (.create path data) ops)
  | orphan {path : List α} {data : δ} {ops : List (Op α δ)} :
      client.todo = .create path data :: ops → tree path.dropLast = none →
      Called tree (client.throw .noNode)
  | looks {path : List α} {data : δ} {ops : List (Op α δ)} {node : Node δ} :
      client.todo = .set path data :: ops → tree path = some node →
      Called tree { client with stat := some node.version }
  | gone {path : List α} {data : δ} {ops : List (Op α δ)} :
      client.todo = .set path data :: ops → tree path = none →
      Called tree (client.throw .noNode)
  | writes {path : List α} {data : δ} {ops : List (Op α δ)} {node : Node δ} :
      client.todo = .set path data :: ops → tree path = some node →
      client.stat = some node.version →
      Called (tree.put path { data := data, version := node.version + 1 })
        (client.done (.set path data) ops)
  | late {path : List α} {data : δ} {ops : List (Op α δ)} {node : Node δ} {version : Nat} :
      client.todo = .set path data :: ops → tree path = some node →
      client.stat = some version → node.version ≠ version →
      Called tree (client.throw .badVersion)
  | refused {ops : List (Op α δ)} :
      client.todo = .invalid :: ops → Called tree (client.throw .badArguments)

variable {client tree}

theorem called_of_call {tree' : Tree α δ} {client' : Client α δ}
    (called : client.call tree = some (tree', client')) :
    client.thrown = none ∧ Called client tree tree' client' := by
  unfold Client.call at called
  split at called
  · cases called
  · cases called
  next path data ops fine todo =>
    refine ⟨fine, ?_⟩
    unfold Tree.create at called
    split_ifs at called with orphan present
    · cases called
      exact .orphan todo (Option.isNone_iff_eq_none.mp orphan)
    · cases called
      exact .finds todo present
    · cases called
      exact .creates todo (Option.not_isSome_iff_eq_none.mp present)
  next path data ops fine todo =>
    refine ⟨fine, ?_⟩
    split at called
    · split at called
      next gone =>
        cases called
        exact .gone todo gone
      next node present =>
        cases called
        exact .looks todo present
    next version seen =>
      unfold Tree.set at called
      split at called
      next done =>
        cases called
        split at done
        · cases done
        next node present =>
          split_ifs at done with same
          cases done
          subst same
          exact .writes todo present seen
      next code failed =>
        cases called
        split at failed
        next gone =>
          cases failed
          exact .gone todo gone
        next node present =>
          split_ifs at failed with differ
          cases failed
          exact .late todo present seen differ
  next ops fine todo =>
    cases called
    exact ⟨fine, .refused todo⟩

end Cases

/-! ## The tree while programs run -/

section Runs

variable {programs : ι → List (Op α δ)}

/-- What the tree owes to a client. -/
structure Owned (programs : ι → List (Op α δ)) (tree : Tree α δ) (i : ι) (client : Client α δ) :
    Prop where
  split : client.ran ++ client.todo = programs i
  exist : ∀ path ∈ created client.ran, (tree path).isSome
  current : ∀ path data, lastWritten path client.ran = some data →
    (∃ node, tree path = some node ∧ node.data = data) ∨ Contested programs i path
  stat : ∀ version path data ops, client.stat = some version → client.todo = .set path data :: ops →
    (∃ node, tree path = some node ∧ node.version = version) ∨ Contested programs i path
  conflict : ∀ code, client.thrown = some code →
    (code = .badVersion ∧ ∃ path, path ∈ written (programs i) ∧ Contested programs i path) ∨
      code = .badArguments ∧ .invalid ∈ programs i

/-- What another client does keeps what the tree owes to a client. -/
theorem Owned.evolves {i j : ι} {tree tree' : Tree α δ} {client : Client α δ}
    (owned : Owned programs tree j client) (differ : i ≠ j)
    (evolves : Evolves programs i tree tree') : Owned programs tree' j client where
  split := owned.split
  exist path member := evolves.isSome (owned.exist path member)
  current path data last := evolves.known differ (owned.current path data last)
  stat version path data ops seen todo :=
    evolves.known differ (owned.stat version path data ops seen todo)
  conflict := owned.conflict

theorem Owned.start (programs : ι → List (Op α δ)) (tree : Tree α δ) (i : ι) :
    Owned programs tree i { todo := programs i } where
  split := rfl
  exist path member := by cases member
  current path data last := by cases last
  stat version path data ops seen := by cases seen
  conflict code thrown := by cases thrown

/-- An operation that is next in a program. -/
theorem Owned.mem {i : ι} {tree : Tree α δ} {client : Client α δ} {op : Op α δ}
    {ops : List (Op α δ)} (owned : Owned programs tree i client) (todo : client.todo = op :: ops) :
    op ∈ programs i := by
  rw [← owned.split, todo]
  simp

/-- A client has run an operation that left the tree as it should be. -/
theorem Owned.done {i : ι} {tree tree' : Tree α δ} {client : Client α δ} {op : Op α δ}
    {ops : List (Op α δ)} (owned : Owned programs tree i client) (todo : client.todo = op :: ops)
    (evolves : Evolves programs i tree tree')
    (exist : ∀ path ∈ created [op], (tree' path).isSome)
    (same : ∀ path node, tree path = some node → path ∉ written [op] → tree' path = some node)
    (current : ∀ path data, lastWritten path [op] = some data →
      ∃ node, tree' path = some node ∧ node.data = data) :
    Owned programs tree' i (client.done op ops) where
  split := by
    rw [← owned.split, todo]
    simp [Client.done]
  exist path member := by
    dsimp only [Client.done] at member
    rw [created_append] at member
    rcases List.mem_append.mp member with before | now
    · exact evolves.isSome (owned.exist path before)
    · exact exist path now
  current path data last := by
    dsimp only [Client.done] at last
    rw [lastWritten_append] at last
    cases now : lastWritten path [op] with
    | some other =>
        rw [now] at last
        cases last
        exact .inl (current path data now)
    | none =>
        rw [now] at last
        rcases owned.current path data last with ⟨node, present, equal⟩ | contested
        · refine .inl ⟨node, same path node present ?_, equal⟩
          intro member
          cases op with
          | create _ _ => cases member
          | invalid => cases member
          | set other _ =>
              obtain rfl := List.mem_singleton.mp member
              simp [lastWritten] at now
        · exact .inr contested
  stat version path data ops seen := by cases seen
  conflict code thrown := by cases thrown

/-- A node that a program creates where there was none. -/
theorem Evolves.create {i : ι} {tree : Tree α δ} {path : List α} {data : δ}
    (mine : .create path data ∈ programs i) (absent : tree path = none) :
    Evolves programs i tree (tree.put path { data := data }) where
  kept other node present := by
    refine .inl ?_
    rw [Tree.put_of_ne, present]
    rintro rfl
    rw [absent] at present
    cases present
  fresh other node none found := by
    by_cases same : other = path
    · subst other
      rw [Tree.put_self] at found
      cases found
      exact mine
    · rw [Tree.put_of_ne _ _ same, none] at found
      cases found

/-- A node that a program writes to. -/
theorem Evolves.write {i : ι} {tree : Tree α δ} {path : List α} {node : Node δ}
    (mine : path ∈ written (programs i)) (present : tree path = some node) (next : Node δ) :
    Evolves programs i tree (tree.put path next) where
  kept other node' found := by
    by_cases same : other = path
    · subst other
      exact .inr ⟨mine, by rw [Tree.put_self]; rfl⟩
    · rw [Tree.put_of_ne _ _ same]
      exact .inl found
  fresh other node' none found := by
    by_cases same : other = path
    · subst other
      rw [present] at none
      cases none
    · rw [Tree.put_of_ne _ _ same, none] at found
      cases found

/-- What a call does to the tree and to its client. -/
theorem Owned.call {i : ι} {tree tree' : Tree α δ} {client client' : Client α δ}
    (owned : Owned programs tree i client) (rooted : Rooted [] (programs i))
    (root : (tree []).isSome) (called : Called client tree tree' client') :
    Evolves programs i tree tree' ∧ Owned programs tree' i client' := by
  have next : Rooted (created client.ran) client.todo := by
    rw [← owned.split] at rooted
    simpa using rooted.rest
  cases called with
  | @creates path data ops todo absent =>
      have evolves := Evolves.create (owned.mem todo) absent
      refine ⟨evolves, owned.done todo evolves ?_ ?_ fun other data' last => by cases last⟩
      · intro other member
        obtain rfl := List.mem_singleton.mp member
        rw [Tree.put_self]
        rfl
      · intro other node present _
        rw [Tree.put_of_ne, present]
        rintro rfl
        rw [absent] at present
        cases present
  | @finds path data ops todo present =>
      refine ⟨.refl programs i tree, owned.done todo (.refl programs i tree) ?_
        (fun other node found _ => found) fun other data' last => by cases last⟩
      intro other member
      obtain rfl := List.mem_singleton.mp member
      exact present
  | @orphan path data ops todo absent =>
      rw [todo] at next
      have present : (tree path.dropLast).isSome := by
        rcases next.1 with top | known
        · rw [top]
          exact root
        · exact owned.exist _ known
      rw [absent] at present
      cases present
  | @looks path data ops node todo present =>
      refine ⟨.refl programs i tree, ?_⟩
      refine ⟨owned.split, owned.exist, owned.current, ?_, owned.conflict⟩
      intro version other data' ops' seen todo'
      cases seen
      dsimp only at todo'
      rw [todo] at todo'
      cases todo'
      exact .inl ⟨node, present, rfl⟩
  | @gone path data ops todo absent =>
      rw [todo] at next
      have present := owned.exist path next.1
      rw [absent] at present
      cases present
  | @writes path data ops node todo present seen =>
      have mine : path ∈ written (programs i) := mem_written.mpr ⟨data, owned.mem todo⟩
      have evolves := Evolves.write mine present { data := data, version := node.version + 1 }
      refine ⟨evolves, owned.done todo evolves ?_ ?_ ?_⟩
      · intro other member
        cases member
      · intro other node' found notWritten
        rw [Tree.put_of_ne, found]
        rintro rfl
        exact notWritten List.mem_cons_self
      · intro other data' last
        by_cases same : path = other
        · subst other
          simp only [lastWritten, if_true] at last
          cases last
          exact ⟨_, Tree.put_self .., rfl⟩
        · simp [lastWritten, same] at last
  | @late path data ops node version todo present seen differ =>
      refine ⟨.refl programs i tree, ?_⟩
      refine ⟨owned.split, owned.exist, owned.current, owned.stat, ?_⟩
      intro code thrown
      cases thrown
      refine .inl ⟨rfl, path, mem_written.mpr ⟨data, owned.mem todo⟩, ?_⟩
      rcases owned.stat version path data ops seen todo with ⟨node', found, same⟩ | contested
      · rw [present] at found
        cases found
        exact absurd same differ
      · exact contested
  | @refused ops todo =>
      refine ⟨.refl programs i tree, ?_⟩
      refine ⟨owned.split, owned.exist, owned.current, owned.stat, ?_⟩
      intro code thrown
      cases thrown
      exact .inr ⟨rfl, owned.mem todo⟩

end Runs

/-! ## Runs of many clients -/

/-- The service and its clients. -/
structure System (ι α δ : Type) where
  tree : Tree α δ
  clients : ι → Client α δ

inductive Event (ι : Type) where
  | call (i : ι)
  /-- a client is started again, wherever it stands -/
  | restart (i : ι)

def System.start (programs : ι → List (Op α δ)) (root : Node δ) : System ι α δ where
  tree path := if path = [] then some root else none
  clients i := { todo := programs i }

/-- All that a run keeps. -/
structure Sound (programs : ι → List (Op α δ)) (system : System ι α δ) : Prop where
  root : (system.tree []).isSome
  made : ∀ path, (system.tree path).isSome → path = [] ∨ ∃ i, path ∈ created (programs i)
  owned : ∀ i, Owned programs system.tree i (system.clients i)

theorem Sound.start (programs : ι → List (Op α δ)) (root : Node δ) :
    Sound programs (System.start programs root) where
  root := rfl
  made path present := by
    by_cases top : path = []
    · exact .inl top
    · simp [System.start, top] at present
  owned i := .start programs _ i

/-- What a client has run is there. -/
theorem Owned.isSome {programs : ι → List (Op α δ)} {tree : Tree α δ} {i : ι}
    {client : Client α δ} (owned : Owned programs tree i client) (finished : client.Finished)
    {path : List α} (creates : path ∈ created (programs i)) : (tree path).isSome := by
  apply owned.exist
  rwa [← owned.split, created_append, finished.silent.1, List.append_nil] at creates

/-- A node that only one client writes to holds what it wrote last. -/
theorem Owned.data {programs : ι → List (Op α δ)} {tree : Tree α δ} {i : ι}
    {client : Client α δ} (owned : Owned programs tree i client) (finished : client.Finished)
    {path : List α} (alone : ¬ Contested programs i path) {data : δ}
    (last : lastWritten path (programs i) = some data) :
    (tree path).map Node.data = some data := by
  rw [← owned.split, lastWritten_append, finished.silent.2 path, Option.none_or] at last
  rcases owned.current path data last with ⟨node, present, same⟩ | contested
  · rw [present, Option.map_some, same]
  · exact absurd contested alone

section Systems

variable [DecidableEq ι]

namespace System

def step (programs : ι → List (Op α δ)) (system : System ι α δ) :
    Event ι → Except Unit (System ι α δ)
  | .call i =>
      match (system.clients i).call system.tree with
      | none => .error ()
      | some (tree, client) =>
          .ok { tree := tree, clients := Function.update system.clients i client }
  | .restart i =>
      .ok { system with clients := Function.update system.clients i { todo := programs i } }

/-- Reachable from the state before any call. -/
def Reachable (programs : ι → List (Op α δ)) (root : Node δ) (system : System ι α δ) : Prop :=
  Runs (step programs) (fun _ _ => True) (start programs root) system

end System

variable {programs : ι → List (Op α δ)} {system : System ι α δ}

/-- A call of one client. -/
theorem Sound.evolves (sound : Sound programs system) {i : ι} {tree : Tree α δ}
    {client : Client α δ} (evolves : Evolves programs i system.tree tree)
    (owned : Owned programs tree i client) :
    Sound programs { tree := tree, clients := Function.update system.clients i client } where
  root := evolves.isSome sound.root
  made path present := by
    by_cases before : (system.tree path).isSome
    · exact sound.made path before
    · obtain ⟨node, found⟩ := Option.isSome_iff_exists.mp present
      have new := evolves.fresh path node (Option.not_isSome_iff_eq_none.mp before) found
      exact .inr ⟨i, mem_created.mpr ⟨_, new⟩⟩
  owned j := by
    by_cases same : i = j
    · subst j
      dsimp only
      rw [Function.update_self]
      exact owned
    · dsimp only
      rw [Function.update_of_ne (Ne.symm same)]
      exact (sound.owned j).evolves same evolves

theorem Sound.step (rooted : ∀ i, Rooted [] (programs i)) (sound : Sound programs system)
    {event : Event ι} {after : System ι α δ}
    (stepped : system.step programs event = .ok after) : Sound programs after := by
  cases event with
  | restart i =>
      cases stepped
      exact sound.evolves (.refl programs i system.tree) (.start programs _ i)
  | call i =>
      dsimp only [System.step] at stepped
      cases called : (system.clients i).call system.tree with
      | none =>
          rw [called] at stepped
          cases stepped
      | some result =>
          rw [called] at stepped
          cases stepped
          obtain ⟨evolves, owned⟩ :=
            (sound.owned i).call (rooted i) sound.root (called_of_call called).2
          exact sound.evolves evolves owned

theorem System.Reachable.sound {root : Node δ} (rooted : ∀ i, Rooted [] (programs i))
    (reachable : Reachable programs root system) : Sound programs system :=
  Runs.invariant (Sound programs) (fun _ _ _ sound _ stepped => sound.step rooted stepped)
    reachable (.start programs root)

end Systems

end Calls

end Znodes
