import BespoKV.ZooKeeper.Model

/-!
# Lock nodes and the clients that own them

What one ZooKeeper call does, and why lock nodes are always where the clients' programs
say they are: a node is there from the moment its client has created it until this client
deletes it, and it keeps the path node and its numbering alive.
-/

namespace BespoKV.ZooKeeper

variable {base : List Char} {zoo zoo' : Zoo} {order : List Child} {client client' : Client}
variable {own child : Child}

/-! ## Names and paths -/

@[simp] theorem Child.name_length (child : Child) : child.name.length = 11 := by
  simp [Child.name]

theorem Child.path_length (base : List Char) (child : Child) :
    (child.path base).length = base.length + 12 := by
  simp [Child.path]

theorem Child.path_ne (base : List Char) (child : Child) : child.path base ≠ base := by
  intro same
  have length := congrArg List.length same
  rw [child.path_length] at length
  omega

/-- `Unlock` finds the path of the lock from the path of the node. -/
@[simp] theorem unlockKey_path (base : List Char) (child : Child) :
    unlockKey (child.path base) = base := by
  rw [unlockKey, child.path_length, Nat.add_sub_cancel, Child.path, List.take_left]

/-- The number `Lock` reads from a listed name. -/
theorem Child.listed_seq (small : child.seq < 10 ^ 10) :
    childIdInt child.name = child.seq := by
  rw [childIdInt, child.name_length]
  exact Decimal.atoi_digits small

/-- The number `Lock` reads from the path of its own node: the last eight digits. -/
theorem Child.own_seq_mod (base : List Char) (child : Child) :
    reqIdInt (child.path base) = child.seq % 10 ^ 8 := by
  have split : child.path base = (base ++ '/' :: (if child.write then 'w' else 'r') ::
      Decimal.digits 2 (child.seq / 10 ^ 8)) ++ Decimal.digits 8 child.seq := by
    have digits : Decimal.digits 10 child.seq =
        Decimal.digits 2 (child.seq / 10 ^ 8) ++ Decimal.digits 8 child.seq :=
      Decimal.digits_add 2 8 child.seq
    simp [Child.path, Child.name, digits]
  rw [reqIdInt, split, List.length_append, Decimal.digits_length, Nat.add_sub_cancel,
    List.drop_left]
  exact Decimal.atoi_digits_mod 8 child.seq

/-- Nodes of the same kind of name have the same number. -/
theorem Child.seq_of_path (small : child.seq < 10 ^ 10) (smallOwn : own.seq < 10 ^ 10)
    (same : child.path base = own.path base) : child.seq = own.seq := by
  have names : child.name = own.name := by
    simpa [Child.path] using same
  rw [← child.listed_seq small, names, own.listed_seq smallOwn]

/-! ## The order test of `Lock` -/

/-- The test compares the last eight digits of the one number with all of the other. -/
theorem childIdInt_lt_reqIdInt (base : List Char) (own : Child) (small : child.seq < 10 ^ 10) :
    childIdInt child.name < reqIdInt (own.path base) ↔ child.seq < own.seq % 10 ^ 8 := by
  rw [child.listed_seq small, own.own_seq_mod]

/-- The test is right exactly if the node is not later than the other, or the last eight digits
of its number are still larger than the other number. -/
theorem lock_order_follows_numbering (base : List Char) (own child : Child)
    (childRange : child.seq ≤ 2 ^ 31 - 1) :
    ((reqIdInt (own.path base) > childIdInt child.name ↔ own.seq > child.seq) ∧
        unlockKey (own.path base) = base) ↔
      own.seq ≤ child.seq ∨ child.seq < own.seq % 10 ^ 8 := by
  have cut : own.seq % 10 ^ 8 ≤ own.seq := Nat.mod_le _ _
  rw [and_iff_left (unlockKey_path base own), gt_iff_lt,
    childIdInt_lt_reqIdInt base own (by omega)]
  constructor
  · intro right
    rcases Nat.lt_or_ge child.seq own.seq with later | earlier
    · exact .inr (right.mpr later)
    · exact .inl earlier
  · rintro (earlier | later)
    · exact ⟨fun less => less.trans_le cut, fun less => absurd less (Nat.not_lt.mpr earlier)⟩
    · exact ⟨fun _ => later.trans_le cut, fun _ => later⟩

/-- Numbers of eight digits, and one of nine digits whose last eight are still larger. -/
theorem lock_order_follows_numbering_sample :
    ((reqIdInt "/k/w0099999999".toList > childIdInt "r0099999998".toList ↔
        99999999 > 99999998) ∧ unlockKey "/k/w0099999999".toList = "/k".toList) ∧
      ((reqIdInt "/k/w0100000007".toList > childIdInt "w0000000005".toList ↔
        100000007 > 5) ∧ unlockKey "/k/w0100000007".toList = "/k".toList) :=
  ⟨(lock_order_follows_numbering "/k".toList ⟨true, 99999999, 0⟩ ⟨false, 99999998, 0⟩
      (by decide)).mpr (by decide),
    (lock_order_follows_numbering "/k".toList ⟨true, 100000007, 0⟩ ⟨true, 5, 0⟩
      (by decide)).mpr (by decide)⟩

/-- The node with the number 10^8 does not wait for the one with the number 5. -/
theorem lock_order_wraps :
    ¬(reqIdInt "/k/w0100000000".toList > childIdInt "w0000000005".toList ↔ 100000000 > 5) ∧
      blocker "/k".toList ⟨true, 100000000, 0⟩ ["w0000000005".toList, "w0100000000".toList] =
        none := by
  decide +kernel

/-! ## What a call does -/

/-- Effects of one call. -/
inductive Called (base : List Char) (zoo : Zoo) : Client → Zoo → Client → Prop
  | created (write : Bool) (absent : zoo.next = none) :
      Called base zoo (.createPath write)
        { zoo with life := zoo.life + 1, next := some 0, children := [] } (.createChild write)
  | found (write : Bool) (there : zoo.next ≠ none) :
      Called base zoo (.createPath write) zoo (.createChild write)
  | ticket (write : Bool) (seq : Nat) (next : zoo.next = some seq) :
      Called base zoo (.createChild write)
        { zoo with next := some (seq + 1), children := zoo.children ++ [⟨write, seq, zoo.life⟩] }
        (.list ⟨write, seq, zoo.life⟩)
  | orphan (write : Bool) (absent : zoo.next = none) :
      Called base zoo (.createChild write) zoo (.threw .noNode)
  | granted (own : Child) (order : List Child) (perm : order.Perm zoo.children)
      (free : blocker base own (order.map Child.name) = none) :
      Called base zoo (.list own) { zoo with granted := zoo.granted ++ [own] } (.held own)
  | waits (own : Child) (name : List Char) : Called base zoo (.list own) zoo (.spin own name)
  | vanished (own : Child) (absent : zoo.next = none) :
      Called base zoo (.list own) zoo (.threw .noNode)
  | spins (own : Child) (name : List Char) : Called base zoo (.spin own name) zoo (.spin own name)
  | retries (own : Child) (name : List Char) : Called base zoo (.spin own name) zoo (.list own)
  | listed (own : Child) (others : Bool) :
      Called base zoo (.unlockList own) zoo (.existsChild own others)
  | unlisted (own : Child) (absent : zoo.next = none) :
      Called base zoo (.unlockList own) zoo (.threw .noNode)
  | present (own : Child) (others : Bool) :
      Called base zoo (.existsChild own others) zoo (.deleteChild own others)
  | gone (own : Child) (others : Bool) (missing : zoo.hasChild base (own.path base) = false) :
      Called base zoo (.existsChild own others) zoo (afterDelete own others)
  | deleted (own : Child) (others : Bool) :
      Called base zoo (.deleteChild own others)
        { zoo with children := zoo.children.filter fun child => child.path base ≠ own.path base }
        (afterDelete own others)
  | missed (own : Child) (others : Bool) (missing : zoo.hasChild base (own.path base) = false) :
      Called base zoo (.deleteChild own others) zoo (afterDelete own others)
  | keyFound (own : Child) : Called base zoo (.existsKey own) zoo (.deleteKey own)
  | keyGone (own : Child) : Called base zoo (.existsKey own) zoo (.idle (some own))
  | keyDeleted (own : Child) (empty : zoo.children = []) :
      Called base zoo (.deleteKey own) { zoo with next := none } (.idle (some own))
  | keyMissed (own : Child) : Called base zoo (.deleteKey own) zoo (.idle (some own))
  | keyBusy (own : Child) (busy : zoo.children ≠ []) :
      Called base zoo (.deleteKey own) zoo (.threw .notEmpty)

theorem call_cases (called : client.call base zoo order = .ok (zoo', client')) :
    Called base zoo client zoo' client' := by
  -- `unfold`, since the equation lemmas of `call` are slow to derive
  unfold Client.call at called
  cases client with
  | idle _ | held _ | threw _ => cases called
  | createPath write =>
      cases next : zoo.next with
      | none =>
          simp only [Zoo.create, next] at called
          cases called
          exact .created write next
      | some seq =>
          simp only [Zoo.create, next] at called
          cases called
          exact .found write (by simp [next])
  | createChild write =>
      cases next : zoo.next with
      | none =>
          simp only [Zoo.createSequence, next] at called
          cases called
          exact .orphan write next
      | some seq =>
          simp only [Zoo.createSequence, next] at called
          cases called
          exact .ticket write seq next
  | list own =>
      cases next : zoo.next with
      | none =>
          simp only [Zoo.getChildren, if_true, next] at called
          cases called
          exact .vanished own next
      | some seq =>
          simp only [Zoo.getChildren, if_true, next] at called
          split at called
          next perm =>
            split at called
            · cases called
              exact .waits own _
            next free =>
              cases called
              have granted := Called.granted own order perm free
              rwa [next] at granted
          · cases called
  | spin own name =>
      simp only at called
      split at called
      · cases called
        exact .spins own name
      · cases called
        exact .retries own name
  | unlockList own =>
      cases next : zoo.next with
      | none =>
          simp only [Zoo.getChildren, unlockKey_path, if_true, next] at called
          cases called
          exact .unlisted own next
      | some seq =>
          simp only [Zoo.getChildren, unlockKey_path, if_true, next] at called
          cases called
          exact .listed own _
  | existsChild own others =>
      simp only [Zoo.exist, own.path_ne base, if_false] at called
      split at called
      · cases called
        exact .present own others
      next missing =>
        cases called
        exact .gone own others (by simpa using missing)
  | deleteChild own others =>
      simp only [Zoo.delete, own.path_ne base, if_false] at called
      cases there : zoo.hasChild base (own.path base) with
      | true =>
          simp only [there, if_true] at called
          cases called
          exact .deleted own others
      | false =>
          simp only [there] at called
          cases called
          exact .missed own others there
  | existsKey own =>
      simp only at called
      split at called
      · cases called
        exact .keyFound own
      · cases called
        exact .keyGone own
  | deleteKey own =>
      simp only [Zoo.delete, unlockKey_path, if_true] at called
      cases next : zoo.next with
      | none =>
          simp only [next] at called
          cases called
          exact .keyMissed own
      | some seq =>
          cases children : zoo.children with
          | nil =>
              simp only [next, children] at called
              cases called
              have deleted : Called base zoo (.deleteKey own) _ _ := .keyDeleted own children
              rwa [children] at deleted
          | cons first rest =>
              simp only [next, children] at called
              cases called
              exact .keyBusy own (by simp [children])

/-! ## The invariant -/

namespace Client

/-- The lock node a client has in place. -/
def own? : Client → Option Child
  | .list own | .spin own _ | .held own | .unlockList own | .existsChild own _
  | .deleteChild own _ => some own
  | .idle _ | .createPath _ | .createChild _ | .existsKey _ | .deleteKey _ | .threw _ => none

/-- The lock a client holds: `Lock` has returned it and its node has not been deleted. -/
def holds? : Client → Option Child
  | .held own | .unlockList own | .existsChild own _ | .deleteChild own _ => some own
  | .idle _ | .createPath _ | .createChild _ | .list _ | .spin _ _ | .existsKey _
  | .deleteKey _ | .threw _ => none

/-- The lock node a client has deleted. -/
def removed? : Client → Option Child
  | .idle last => last
  | .existsKey own | .deleteKey own => some own
  | .createPath _ | .createChild _ | .list _ | .spin _ _ | .held _ | .unlockList _
  | .existsChild _ _ | .deleteChild _ _ | .threw _ => none

end Client

@[simp] theorem own?_afterDelete (own : Child) (others : Bool) :
    (afterDelete own others).own? = none := by
  cases others <;> rfl

@[simp] theorem removed?_afterDelete (own : Child) (others : Bool) :
    (afterDelete own others).removed? = some own := by
  cases others <;> rfl

/-- A node that was created so far. -/
def Zoo.Issued (zoo : Zoo) (child : Child) : Prop :=
  child.life ≤ zoo.life ∧ (child.life = zoo.life → ∀ seq, zoo.next = some seq → child.seq < seq)

/-- Sequence numbers stay below a limit. -/
def System.Bounded (limit : Nat) (system : System) : Prop :=
  ∀ seq ∈ system.zoo.next, seq < limit

instance (limit : Nat) (system : System) : Decidable (system.Bounded limit) :=
  inferInstanceAs (Decidable (∀ seq ∈ system.zoo.next, seq < limit))

/-- The nodes of the service. -/
structure Zoo.Tidy (limit : Nat) (zoo : Zoo) : Prop where
  rooted : zoo.next = none → zoo.children = []
  life : ∀ child ∈ zoo.children, child.life = zoo.life
  issued : ∀ child ∈ zoo.children ++ zoo.granted, zoo.Issued child
  small : ∀ child ∈ zoo.children, child.seq < limit
  distinct : ∀ first ∈ zoo.children, ∀ second ∈ zoo.children, first.seq = second.seq →
    first = second

/-- A client and the service. -/
structure Client.Consistent (zoo : Zoo) (client : Client) : Prop where
  owned : ∀ own, client.own? = some own → own ∈ zoo.children
  granted : ∀ own, client.own? = some own → (own ∈ zoo.granted ↔ client.holds? = some own)
  removed : ∀ own, client.removed? = some own → own ∉ zoo.children ∧ zoo.Issued own

/-- Lock nodes are where the clients' programs say they are. -/
structure System.Consistent (limit : Nat) (system : System) : Prop where
  tidy : system.zoo.Tidy limit
  clients : ∀ c, (system.clients c).Consistent system.zoo
  separate : ∀ c d own, (system.clients c).own? = some own → (system.clients d).own? = some own →
    c = d
  owner : ∀ child ∈ system.zoo.children, ∃ c, (system.clients c).own? = some child

namespace Zoo.Issued

variable (issued : zoo.Issued child)
include issued

theorem create : ({ zoo with life := zoo.life + 1, next := some 0, children := [] } : Zoo).Issued
    child :=
  ⟨Nat.le_succ_of_le issued.1, fun same => absurd issued.1 (by simp [same])⟩

theorem ticket {seq : Nat} {children : List Child} (next : zoo.next = some seq) :
    ({ zoo with next := some (seq + 1), children } : Zoo).Issued child := by
  refine ⟨issued.1, fun same number isNext => ?_⟩
  cases isNext
  exact Nat.lt_succ_of_lt (issued.2 same seq next)

theorem close : ({ zoo with next := none } : Zoo).Issued child :=
  ⟨issued.1, fun _ _ none => by cases none⟩

end Zoo.Issued

variable {limit : Nat}

/-- Nodes in place are told apart by their paths. -/
theorem Zoo.Tidy.path_inj (tidy : zoo.Tidy limit) (fits : limit ≤ 10 ^ 10)
    (present : child ∈ zoo.children) (ownPresent : own ∈ zoo.children)
    (same : child.path base = own.path base) : child = own :=
  tidy.distinct child present own ownPresent (Child.seq_of_path
    ((tidy.small child present).trans_le fits) ((tidy.small own ownPresent).trans_le fits) same)

/-- Every call keeps the nodes tidy. -/
theorem Zoo.Tidy.called (tidy : zoo.Tidy limit) (consistent : client.Consistent zoo)
    (bounded : ∀ seq ∈ zoo.next, seq < limit) (called : Called base zoo client zoo' client') :
    zoo'.Tidy limit := by
  cases called with
  | found | orphan | waits | vanished | spins | retries | listed | unlisted | present | gone
  | missed | keyFound | keyGone | keyMissed | keyBusy => exact tidy
  | created write absent =>
      refine ⟨by simp, by simp, fun child member => ?_, by simp, by simp⟩
      exact (tidy.issued child (List.mem_append_right _ (by simpa using member))).create
  | ticket write seq next =>
      have before : ∀ child ∈ zoo.children, child.seq < seq := fun child old =>
        (tidy.issued child (List.mem_append_left _ old)).2 (tidy.life child old) seq next
      refine ⟨by simp, fun child member => ?_, fun child member => ?_, fun child member => ?_,
        fun first isFirst second isSecond same => ?_⟩
      · rcases List.mem_append.mp member with old | new
        · exact tidy.life child old
        · rw [List.mem_singleton.mp new]
      · by_cases new : child = ⟨write, seq, zoo.life⟩
        · subst new
          refine ⟨Nat.le_refl _, fun _ number isNext => ?_⟩
          cases isNext
          exact Nat.lt_succ_self seq
        · refine (tidy.issued child ?_).ticket next
          simpa [new] using member
      · rcases List.mem_append.mp member with old | new
        · exact tidy.small child old
        · rw [List.mem_singleton.mp new]
          exact bounded seq next
      · rw [List.mem_append, List.mem_singleton] at isFirst isSecond
        rcases isFirst with old | rfl <;> rcases isSecond with other | rfl
        · exact tidy.distinct first old second other same
        · exact absurd same (before first old).ne
        · exact absurd same (before second other).ne'
        · rfl
  | granted own order perm free =>
      refine ⟨tidy.rooted, tidy.life, fun child member => ?_, tidy.small, tidy.distinct⟩
      rcases List.mem_append.mp member with inPlace | granted
      · exact tidy.issued child (List.mem_append_left _ inPlace)
      · rcases List.mem_append.mp granted with old | new
        · exact tidy.issued child (List.mem_append_right _ old)
        · rw [List.mem_singleton.mp new]
          exact tidy.issued own (List.mem_append_left _ (consistent.owned own rfl))
  | deleted own others =>
      refine ⟨fun absent => ?_, fun child member => ?_, fun child member => ?_,
        fun child member => ?_, fun first isFirst second isSecond => ?_⟩
      · have nothing : zoo.children = [] := tidy.rooted absent
        simp [nothing]
      · exact tidy.life child (List.mem_of_mem_filter member)
      · rcases List.mem_append.mp member with inPlace | granted
        · exact tidy.issued child (List.mem_append_left _ (List.mem_of_mem_filter inPlace))
        · exact tidy.issued child (List.mem_append_right _ granted)
      · exact tidy.small child (List.mem_of_mem_filter member)
      · exact tidy.distinct first (List.mem_of_mem_filter isFirst) second
          (List.mem_of_mem_filter isSecond)
  | keyDeleted own empty =>
      exact ⟨fun _ => empty, tidy.life, fun child member => (tidy.issued child member).close,
        tidy.small, tidy.distinct⟩

/-- A client without a lock node. -/
theorem Client.Consistent.of_none (own : client.own? = none) (removed : client.removed? = none) :
    client.Consistent zoo := by
  constructor <;> simp [own, removed]

theorem Zoo.hasChild_of_mem (present : own ∈ zoo.children) :
    zoo.hasChild base (own.path base) = true :=
  List.any_eq_true.mpr ⟨own, present, by simp⟩

/-- A call keeps the caller consistent. -/
theorem Client.Consistent.called (tidy : zoo.Tidy limit) (consistent : client.Consistent zoo)
    (called : Called base zoo client zoo' client') : client'.Consistent zoo' := by
  cases called with
  | created | found | orphan | vanished | unlisted | keyBusy => exact .of_none rfl rfl
  | ticket write seq next =>
      have new : (⟨write, seq, zoo.life⟩ : Child) ∉ zoo.granted := fun granted =>
        Nat.lt_irrefl seq ((tidy.issued _ (List.mem_append_right _ granted)).2 rfl seq next)
      refine ⟨?_, ?_, by simp [removed?]⟩
      · rintro own ⟨⟩
        simp
      · rintro own ⟨⟩
        simpa [holds?] using new
  | granted own order perm free =>
      refine ⟨consistent.owned, ?_, by simp [removed?]⟩
      rintro own ⟨⟩
      simp [holds?]
  | waits | spins | retries | listed | present =>
      exact ⟨consistent.owned, consistent.granted, by simp [removed?]⟩
  | gone own others missing | missed own others missing =>
      rw [Zoo.hasChild_of_mem (consistent.owned own rfl)] at missing
      cases missing
  | deleted own others =>
      refine ⟨by simp, by simp, ?_⟩
      intro removed isRemoved
      rw [removed?_afterDelete] at isRemoved
      cases isRemoved
      exact ⟨by simp, tidy.issued own (List.mem_append_left _ (consistent.owned own rfl))⟩
  | keyFound | keyGone | keyMissed =>
      exact ⟨by simp [own?], by simp [own?], consistent.removed⟩
  | keyDeleted own empty =>
      refine ⟨by simp [own?], by simp [own?], fun removed isRemoved => ?_⟩
      obtain ⟨absent, issued⟩ := consistent.removed removed isRemoved
      exact ⟨absent, issued.close⟩

/-- A call keeps the other clients consistent. -/
theorem Client.Consistent.foreign {other : Client} (tidy : zoo.Tidy limit)
    (fits : limit ≤ 10 ^ 10) (consistent : client.Consistent zoo)
    (called : Called base zoo client zoo' client')
    (separate : ∀ own, client.own? = some own → other.own? ≠ some own)
    (otherConsistent : other.Consistent zoo) : other.Consistent zoo' := by
  cases called with
  | found | orphan | waits | vanished | spins | retries | listed | unlisted | present | gone
  | missed | keyFound | keyGone | keyMissed | keyBusy => exact otherConsistent
  | created write absent =>
      have nothing : ∀ own, other.own? ≠ some own := fun own isOwn => by
        have present := otherConsistent.owned own isOwn
        rw [tidy.rooted absent] at present
        cases present
      refine ⟨fun own isOwn => absurd isOwn (nothing own),
        fun own isOwn => absurd isOwn (nothing own), fun removed isRemoved => ?_⟩
      exact ⟨by simp, (otherConsistent.removed removed isRemoved).2.create⟩
  | ticket write seq next =>
      refine ⟨fun own isOwn => List.mem_append_left _ (otherConsistent.owned own isOwn),
        otherConsistent.granted, fun removed isRemoved => ?_⟩
      obtain ⟨absent, issued⟩ := otherConsistent.removed removed isRemoved
      refine ⟨fun member => ?_, issued.ticket next⟩
      rcases List.mem_append.mp member with old | new
      · exact absent old
      · rw [List.mem_singleton.mp new] at issued
        exact Nat.lt_irrefl seq (issued.2 rfl seq next)
  | granted own order perm free =>
      refine ⟨otherConsistent.owned, fun mine isMine => ?_, otherConsistent.removed⟩
      have different : mine ≠ own := by
        rintro rfl
        exact separate mine rfl isMine
      rw [← otherConsistent.granted mine isMine, List.mem_append, List.mem_singleton]
      simp [different]
  | deleted own others =>
      refine ⟨fun mine isMine => ?_, otherConsistent.granted, fun removed isRemoved => ?_⟩
      · have present := otherConsistent.owned mine isMine
        refine List.mem_filter.mpr ⟨present, decide_eq_true fun same => ?_⟩
        rw [tidy.path_inj fits present (consistent.owned own rfl) same] at isMine
        exact separate own rfl isMine
      · obtain ⟨absent, issued⟩ := otherConsistent.removed removed isRemoved
        exact ⟨fun member => absent (List.mem_of_mem_filter member), issued⟩
  | keyDeleted own empty =>
      refine ⟨otherConsistent.owned, otherConsistent.granted, fun removed isRemoved => ?_⟩
      obtain ⟨absent, issued⟩ := otherConsistent.removed removed isRemoved
      exact ⟨absent, issued.close⟩

/-- Nobody but the caller gets or loses a node. -/
theorem own?_called (tidy : zoo.Tidy limit) (consistent : client.Consistent zoo)
    (called : Called base zoo client zoo' client') (member : child ∈ zoo'.children) :
    client'.own? = some child ∨ child ∈ zoo.children ∧ client.own? ≠ some child := by
  by_cases mine : client.own? = some child
  · left
    have present := consistent.owned child mine
    cases called with
    | created | found | ticket | orphan | keyFound | keyGone | keyDeleted | keyMissed
    | keyBusy => cases mine
    | granted | waits | spins | retries | listed | present => exact mine
    | vanished own absent | unlisted own absent =>
        rw [tidy.rooted absent] at present
        cases present
    | gone own others missing | missed own others missing =>
        cases mine
        rw [Zoo.hasChild_of_mem present] at missing
        cases missing
    | deleted own others =>
        cases mine
        simp at member
  · cases called with
    | ticket write seq next =>
        rcases List.mem_append.mp member with old | new
        · exact .inr ⟨old, mine⟩
        · rw [List.mem_singleton.mp new]
          exact .inl rfl
    | deleted own others => exact .inr ⟨List.mem_of_mem_filter member, mine⟩
    | created => cases member
    | found | orphan | granted | waits | vanished | spins | retries | listed | unlisted
    | present | gone | missed | keyFound | keyGone | keyDeleted | keyMissed | keyBusy =>
        exact .inr ⟨member, mine⟩

theorem own?_called_new (tidy : zoo.Tidy limit) (called : Called base zoo client zoo' client')
    (mine : client'.own? = some own) : client.own? = some own ∨ own ∉ zoo.children := by
  cases called with
  | created | found | orphan | vanished | unlisted | keyFound | keyGone | keyDeleted
  | keyMissed | keyBusy => cases mine
  | gone own others | missed own others | deleted own others =>
      rw [own?_afterDelete] at mine
      cases mine
  | granted | waits | spins | retries | listed | present => exact .inl mine
  | ticket write seq next =>
      cases mine
      exact .inr fun present =>
        Nat.lt_irrefl seq ((tidy.issued _ (List.mem_append_left _ present)).2 rfl seq next)

/-! ## Runs -/

namespace System

variable {system after : System} {event : Event}

/-- A client that neither gets nor loses a lock node. -/
theorem Consistent.setClient {c : Nat} (consistent : system.Consistent limit)
    (own : client.own? = (system.clients c).own?) (after : client.Consistent system.zoo) :
    (system.setClient c client).Consistent limit := by
  have owns : ∀ d, ((system.setClient c client).clients d).own? = (system.clients d).own? := by
    intro d
    by_cases here : d = c
    · subst here
      simpa [System.setClient] using own
    · simp [System.setClient, here]
  refine ⟨consistent.tidy, fun d => ?_, fun d e mine => ?_, fun child present => ?_⟩
  · by_cases here : d = c
    · subst here
      simpa [System.setClient] using after
    · simpa [System.setClient, here] using consistent.clients d
  · rw [owns, owns]
    exact consistent.separate d e mine
  · obtain ⟨d, mine⟩ := consistent.owner child present
    exact ⟨d, (owns d).trans mine⟩

/-- One call. -/
theorem Consistent.call {c : Nat} (consistent : system.Consistent limit)
    (fits : limit ≤ 10 ^ 10) (bounded : system.Bounded limit)
    (called : Called base system.zoo (system.clients c) zoo' client') :
    ({ system with zoo := zoo' }.setClient c client').Consistent limit := by
  have tidy := consistent.tidy
  have mine := consistent.clients c
  refine ⟨tidy.called mine bounded called, fun d => ?_, fun d e own isD isE => ?_,
    fun child present => ?_⟩
  · by_cases here : d = c
    · subst here
      simpa [System.setClient] using mine.called tidy called
    · have separate : ∀ own, (system.clients c).own? = some own →
          (system.clients d).own? ≠ some own :=
        fun own isC isD => here (consistent.separate d c own isD isC)
      simpa [System.setClient, here] using
        mine.foreign tidy fits called separate (consistent.clients d)
  · -- a node that is new belongs to nobody yet
    have other : ∀ d, d ≠ c → client'.own? = some own → (system.clients d).own? ≠ some own := by
      intro d different isC isD
      rcases own?_called_new tidy called isC with old | new
      · exact different (consistent.separate d c own isD old)
      · exact new ((consistent.clients d).owned own isD)
    by_cases dHere : d = c <;> by_cases eHere : e = c
    · rw [dHere, eHere]
    · subst dHere
      simp only [System.setClient, Function.update_self, Function.update_of_ne eHere] at isD isE
      exact absurd isE (other e eHere isD)
    · subst eHere
      simp only [System.setClient, Function.update_self, Function.update_of_ne dHere] at isD isE
      exact absurd isD (other d dHere isE)
    · simp only [System.setClient, Function.update_of_ne dHere,
        Function.update_of_ne eHere] at isD isE
      exact consistent.separate d e own isD isE
  · rcases own?_called tidy mine called present with isC | ⟨old, notC⟩
    · exact ⟨c, by simpa [System.setClient] using isC⟩
    · obtain ⟨d, isD⟩ := consistent.owner child old
      have different : d ≠ c := fun same => notC (same ▸ isD)
      exact ⟨d, by simpa [System.setClient, different] using isD⟩

theorem Consistent.step (consistent : system.Consistent limit) (fits : limit ≤ 10 ^ 10)
    (bounded : system.Bounded limit) (moved : system.step base event = .ok after) :
    after.Consistent limit := by
  cases event with
  | lock c rw =>
      simp only [System.step] at moved
      split at moved
      next last isIdle =>
        cases moved
        exact consistent.setClient (by rw [isIdle]; rfl) (.of_none rfl rfl)
      · cases moved
  | unlock c =>
      simp only [System.step] at moved
      split at moved
      next own isHeld =>
        cases moved
        have mine := consistent.clients c
        rw [isHeld] at mine
        exact consistent.setClient (by rw [isHeld]; rfl)
          ⟨mine.owned, mine.granted, by simp [Client.removed?]⟩
      · cases moved
  | call c order =>
      simp only [System.step] at moved
      split at moved
      next zoo client called =>
        cases moved
        exact consistent.call fits bounded (call_cases called)
      · cases moved

theorem Consistent.init (next : Option Nat) : (System.init next).Consistent limit where
  tidy := ⟨fun _ => rfl, by simp [System.init], by simp [System.init], by simp [System.init],
    by simp [System.init]⟩
  clients := fun _ => .of_none rfl rfl
  separate := by simp [System.init, Client.own?]
  owner := by simp [System.init]

end System

end BespoKV.ZooKeeper
