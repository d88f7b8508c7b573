import BespoKV.LibCkv.Ketama
import Mathlib.Algebra.BigOperators.Ring.List
import Mathlib.Algebra.Order.BigOperators.Group.List

/-!
# The ring of the proxy

`Continuum` puts points on a ring for every datalet connection, in proportion to its weight,
and looks a key up by a binary search with signed bounds.  The text that is hashed for a point
is printed into 30 bytes, whatever the length of the address, and the bounds of the search are
added as 32-bit numbers.

Shares of the weight are computed exactly here, where the source uses floating point.
-/

namespace BespoKV.Continuum

open Fallible
open LibCkv (HashValue ContinuumItem KetamaSelector decimal)

/-- What can go wrong. -/
inductive Fault where
  /-- a `CHECK` failed -/
  | check
  /-- a byte beyond `ss` was written -/
  | overwrite
  /-- a signed number left the range of `int32_t` -/
  | overflow
  /-- an index outside the array was used -/
  | outOfRange
  /-- the loop did not end in the rounds it was given -/
  | endless
  deriving DecidableEq, Repr

/-- `ContinuumItem_t` -/
structure Item (C : Type) where
  point : HashValue
  conn : C
  deriving DecidableEq, Repr

/-- An entry of `DumbConnTable_t`, with the weight of its connection. -/
structure DumbConn (C : Type) where
  addr : AddrType
  weight : Nat
  conn : C
  deriving DecidableEq, Repr

/-- `std::sort` with `continuumCompare`: a sorted permutation, in which the order of items with
one point is open. -/
structure Sorting (C : Type) where
  sort : List (Item C) → List (Item C)
  perm : ∀ items, (sort items).Perm items
  sorted : ∀ items, (sort items).Pairwise fun left right => left.point ≤ right.point

/-! ## The constructor -/

/-- The conversion of a `size_t` to an `int32_t`. -/
def toInt32 (n : Nat) : Int :=
  if n % 2 ^ 32 < 2 ^ 31 then (n % 2 ^ 32 : Nat) else (n % 2 ^ 32 : Nat) - 2 ^ 32

/-- The result of signed arithmetic. -/
def int32 (n : Int) : Except Fault Int :=
  if -2 ^ 31 ≤ n ∧ n < 2 ^ 31 then .ok n else .error .overflow

/-- `ks`: the share of a connection in 40 hashes for each one. -/
def share (weight totalWeight numDumbnodes : Nat) : Nat :=
  weight * 40 * numDumbnodes / totalWeight

/-- A `uint32_t` as `%d` prints it. -/
def printed (k : Nat) : Bytes :=
  if k < 2 ^ 31 then decimal k else Wire.text "-" ++ decimal (2 ^ 32 - k)

/-- `ss`: the text `%s-%d`. -/
def label (addr : AddrType) (k : Nat) : Bytes :=
  addr.takeWhile (· ≠ 0) ++ Wire.text "-" ++ printed k

/-- The point from the bytes `4 * h` to `4 * h + 3` of a digest. -/
def point (digest : Nat → UInt8) (h : Nat) : HashValue :=
  Fin.ofNat _ (Octets.value [digest (h * 4), digest (1 + h * 4), digest (2 + h * 4),
    digest (3 + h * 4)])

section Ring

variable {C : Type} (md5 : Bytes → Nat → UInt8)

/-- The four items of one text. -/
def labelItems (node : DumbConn C) (k : Nat) : List (Item C) :=
  (List.range 4).map fun h => ⟨point (md5 (label node.addr k)) h, node.conn⟩

/-- One round of the loop over `k`. -/
def hashItems (node : DumbConn C) (k : Nat) : Except Fault (List (Item C)) :=
  -- `sprintf` writes the text and a terminator into 30 bytes.
  if (label node.addr k).length + 1 ≤ 30 then .ok (labelItems md5 node k)
  else .error .overwrite

/-- The items of one connection. -/
def nodeItems (totalWeight numDumbnodes : Nat) (node : DumbConn C) :
    Except Fault (List (Item C)) := do
  let ks := share node.weight totalWeight numDumbnodes
  -- The conversion of the floor to `uint32_t`.
  if ks < 2 ^ 32 then
    let items ← (List.range ks).mapM (hashItems md5 node)
    return items.flatten
  else .error .overflow

/-- `Continuum::Continuum`, where the table is given in the order of its iteration. -/
def new (sorting : Sorting C) (dumbMap : List (DumbConn C)) (totalWeight : Nat) :
    Except Fault (List (Item C)) := do
  let numDumbnodes := toInt32 dumbMap.length
  if 0 < numDumbnodes then
    let array ← dumbMap.mapM (nodeItems md5 totalWeight numDumbnodes.toNat)
    return sorting.sort array.flatten
  else .error .check

/-! ## The lookup -/

/-- `this->array[index]->point` -/
def pointAt (array : List (Item C)) (index : Int) : Except Fault HashValue :=
  if 0 ≤ index then
    match array[index.toNat]? with
    | some item => .ok item.point
    | none => .error .outOfRange
  else .error .outOfRange

/-- `midv1`: the point before an index, and 0 before the first one. -/
def previous (array : List (Item C)) (mid : Int) : Except Fault HashValue :=
  if mid = 0 then .ok 0 else pointAt array (mid - 1)

/-- The loop of `ketama_get_conn`: the index of `item`. -/
def search (array : List (Item C)) (h : HashValue) (sz : Int) :
    Nat → Int → Int → Except Fault Int
  | 0, _, _ => .error .endless
  | rounds + 1, low, high => do
      let sum ← int32 (low + high)
      let mid := sum.tdiv 2
      if mid = sz then return 0
      else
        let midv ← pointAt array mid
        let midv1 ← previous array mid
        if h ≤ midv ∧ midv1 < h then return mid
        else if midv < h then
          let low ← int32 (mid + 1)
          if low > high then return 0 else search array h sz rounds low high
        else
          let high ← int32 (mid - 1)
          if low > high then return 0 else search array h sz rounds low high

/-- `ketama_hashi` -/
def ketamaHashi (key : Key) : HashValue := point (md5 (key.takeWhile (· ≠ 0))) 0

/-- `ketama_get_conn`.  Each round of the loop leaves a smaller interval. -/
def ketamaGetConn (array : List (Item C)) (key : Key) : Except Fault C := do
  let sz := toInt32 array.length
  let index ← search array (ketamaHashi md5 key) sz (array.length + 1) 0 sz
  match array[index.toNat]? with
  | some item => return item.conn
  | none => .error .outOfRange

end Ring

theorem toInt32_of_lt {n : Nat} (small : n < 2 ^ 31) : toInt32 n = n := by
  have same : n % 2 ^ 32 = n := Nat.mod_eq_of_lt (by omega)
  simp only [toInt32, same, small, if_true]

/-! ## The search ends at the first point at or after the hash value -/

section Search

variable {C : Type} {array : List (Item C)} {h : HashValue}

theorem int32_of_lt {n : Nat} (small : n < 2 ^ 31) : int32 n = .ok (n : Int) :=
  if_pos ⟨by omega, by omega⟩

theorem pointAt_natCast {index : Nat} (inside : index < array.length) :
    pointAt array index = .ok array[index].point := by
  simp [pointAt, inside]

/-- An entry before the hash value. -/
def below (h : HashValue) (item : Item C) : Bool := decide (item.point < h)

theorem lt_of_split {first index : Nat} (split : PointRing.Split (below h) array first first)
    (before : index < first) (inside : index < array.length) : array[index].point < h :=
  of_decide_eq_true (split.1 index _ before (List.getElem?_eq_getElem inside))

theorem le_of_split {first index : Nat} (split : PointRing.Split (below h) array first first)
    (after : first ≤ index) (inside : index < array.length) : h ≤ array[index].point :=
  not_lt.mp (of_decide_eq_false (split.2 index _ after (List.getElem?_eq_getElem inside)))

/-- The point before an index is below the hash value if the index is the answer, unless there
is no such point, and is not if the answer is smaller. -/
theorem exists_previous {first mid : Nat}
    (split : PointRing.Split (below h) array first first) (within : mid < array.length) :
    ∃ midv1, previous array mid = .ok midv1 ∧ (first = mid → midv1 < h ∨ mid = 0) ∧
      (first < mid → h ≤ midv1) := by
  cases mid with
  | zero => exact ⟨0, rfl, fun _ => .inr rfl, fun less => absurd less (Nat.not_lt_zero _)⟩
  | succ mid =>
      have previousAt : previous array ((mid + 1 : Nat) : Int) = .ok array[mid].point := by
        have back : ((mid + 1 : Nat) : Int) - 1 = mid := by omega
        rw [previous, if_neg (by omega), back]
        exact pointAt_natCast (by omega)
      refine ⟨_, previousAt, fun found => .inl ?_, fun less => ?_⟩
      · exact lt_of_split split (by omega) (by omega)
      · exact le_of_split split (by omega) (by omega)

/-- One round of the loop, where the first entry that is not below the hash value is between
the bounds: it stays there, or the loop ends. -/
theorem search_round {first : Nat} (fits : array.length < 2 ^ 31)
    (split : PointRing.Split (below h) array first first) {low high : Nat}
    (lower : low ≤ first) (upper : first ≤ high) (inside : high ≤ array.length) (rounds : Nat) :
    search array h array.length (rounds + 1) low high =
      if low + high < 2 ^ 31 then
        if (low + high) / 2 < first then
          search array h array.length rounds ((low + high) / 2 + 1 : Nat) high
        else if first < (low + high) / 2 then
          search array h array.length rounds low ((low + high) / 2 - 1 : Nat)
        else .ok (if first = array.length then 0 else (first : Int))
      else .error .overflow := by
  rw [search, ← Int.natCast_add]
  by_cases addable : low + high < 2 ^ 31
  case neg =>
    have sum : int32 ((low + high : Nat) : Int) = .error .overflow := if_neg (by omega)
    rw [if_neg addable, sum]
    rfl
  have middle : ((low + high : Nat) : Int).tdiv 2 = ((low + high) / 2 : Nat) := by
    rw [Int.tdiv_eq_ediv_of_nonneg (Int.natCast_nonneg _)]
    exact (Int.natCast_ediv _ _).symm
  rw [if_pos addable, int32_of_lt addable, ok_bind, middle]
  dsimp only
  generalize hmid : (low + high) / 2 = mid
  by_cases past : mid = array.length
  · -- the bounds have met at the end
    have ended : first = array.length := by omega
    rw [if_pos (congrArg Nat.cast past), if_neg (by omega), if_neg (by omega), if_pos ended]
    rfl
  rw [if_neg (mt Int.natCast_inj.mp past)]
  have within : mid < array.length := by omega
  rw [pointAt_natCast within, ok_bind]
  obtain ⟨midv1, atPrevious, here, beyond⟩ := exists_previous split within
  rw [atPrevious, ok_bind]
  by_cases smaller : mid < first
  · -- the answer is to the right of the middle
    have isBelow := lt_of_split split smaller within
    have next : int32 ((mid : Int) + 1) = .ok ((mid + 1 : Nat) : Int) := by
      rw [← Int.natCast_succ]
      exact int32_of_lt (by omega)
    rw [if_neg (fun both => absurd both.1 (not_le.mpr isBelow)), if_pos isBelow, next, ok_bind,
      if_neg (by omega), if_pos smaller]
  have atLeast := le_of_split split (Nat.not_lt.mp smaller) within
  rw [if_neg smaller]
  by_cases found : midv1 < h
  · have same : first = mid := by
      by_contra different
      exact absurd found (not_lt.mpr (beyond (by omega)))
    rw [if_pos ⟨atLeast, found⟩, if_neg (by omega), if_neg (by omega), same]
    rfl
  rw [if_neg (fun both => found both.2), if_neg (not_lt.mpr atLeast)]
  cases mid with
  | zero =>
      -- the hash value is 0, and no point is before the first one
      have same : first = 0 := by omega
      have previous : int32 (((0 : Nat) : Int) - 1) = .ok (-1) := rfl
      rw [previous, ok_bind, if_pos (by omega), if_neg (by omega), if_neg (by omega), same]
      rfl
  | succ mid =>
      -- the answer is to the left of the middle
      have left : first < mid + 1 := by
        by_contra right
        rcases here (by omega) with isBelow | isZero
        · exact found isBelow
        · omega
      have previous : int32 (((mid + 1 : Nat) : Int) - 1) = .ok (mid : Int) := by
        rw [Int.natCast_succ, Int.add_sub_cancel]
        exact int32_of_lt (by omega)
      rw [previous, ok_bind, if_neg (by omega), if_pos left, Nat.add_sub_cancel]

/-- In every round of a binary search for `target`, the sum of the bounds is an `int32_t`. -/
def Addable (target : Nat) : Nat → Nat → Nat → Prop
  | 0, _, _ => True
  | rounds + 1, low, high =>
      low + high < 2 ^ 31 ∧
        ((low + high) / 2 < target → Addable target rounds ((low + high) / 2 + 1) high) ∧
        (target < (low + high) / 2 → Addable target rounds low ((low + high) / 2 - 1))

/-- Bounds in half the range can be added in every round. -/
theorem addable_of_lt {target low high : Nat} (lower : low ≤ target) (upper : target ≤ high)
    (small : high < 2 ^ 30) (rounds : Nat) : Addable target rounds low high := by
  induction rounds generalizing low high with
  | zero => exact trivial
  | succ rounds ih =>
      refine ⟨by omega, fun right => ih (by omega) upper small, fun left => ?_⟩
      exact ih lower (by omega) (by omega)

section Rounds

variable {first : Nat} (fits : array.length < 2 ^ 31)
  (split : PointRing.Split (below h) array first first) {rounds low high : Nat}
  (lower : low ≤ first) (upper : first ≤ high) (inside : high ≤ array.length)
  (enough : high - low < rounds)
include fits split lower upper inside enough

/-- The loop keeps the first entry that is not below the hash value between its bounds. -/
theorem search_eq (addable : Addable first rounds low high) :
    search array h array.length rounds low high =
      .ok (if first = array.length then 0 else (first : Int)) := by
  induction rounds generalizing low high with
  | zero => exact absurd enough (Nat.not_lt_zero _)
  | succ rounds ih =>
      obtain ⟨sum, right, left⟩ := addable
      rw [search_round fits split lower upper inside, if_pos sum]
      by_cases smaller : (low + high) / 2 < first
      · rw [if_pos smaller]
        exact ih (by omega) upper inside (by omega) (right smaller)
      rw [if_neg smaller]
      by_cases larger : first < (low + high) / 2
      · rw [if_pos larger]
        exact ih lower (by omega) (by omega) (by omega) (left larger)
      · rw [if_neg larger]

/-- The first round whose bounds cannot be added is reached. -/
theorem search_overflow (overflows : ¬Addable first rounds low high) :
    search array h array.length rounds low high = .error .overflow := by
  induction rounds generalizing low high with
  | zero => exact absurd enough (Nat.not_lt_zero _)
  | succ rounds ih =>
      rw [search_round fits split lower upper inside]
      by_cases sum : low + high < 2 ^ 31
      case neg => rw [if_neg sum]
      rw [if_pos sum]
      split_ifs with smaller larger
      · refine ih (by omega) upper inside (by omega) fun right => overflows ⟨sum, ?_, ?_⟩
        · exact fun _ => right
        · exact fun larger => absurd larger (by omega)
      · refine ih lower (by omega) (by omega) (by omega) fun left => overflows ⟨sum, ?_, ?_⟩
        · exact fun less => absurd less smaller
        · exact fun _ => left
      · refine absurd ⟨sum, ?_, ?_⟩ overflows
        · exact fun less => absurd less smaller
        · exact fun more => absurd more larger

end Rounds

/-- The index of the first entry at or after a hash value, or of the first one of all. -/
def IsOwner (array : List (Item C)) (h : HashValue) (index : Nat) : Prop :=
  (∃ item, array[index]? = some item ∧ h ≤ item.point ∧
    ∀ earlier < index, ∀ other, array[earlier]? = some other → other.point < h) ∨
  index = 0 ∧ ∀ other ∈ array, other.point < h

variable (sorted : array.Pairwise fun left right => left.point ≤ right.point)
include sorted

theorem below_split (h : HashValue) : PointRing.Split (below h) array
    (PointRing.lowerBound (below h) array) (PointRing.lowerBound (below h) array) := by
  refine PointRing.lowerBound_split (sorted.imp fun ordered less => ?_)
  exact decide_eq_true (lt_of_le_of_lt ordered (of_decide_eq_true less))

/-- The whole search, from the bounds it starts with. -/
theorem search_successor (fits : array.length < 2 ^ 31) {h : HashValue}
    (addable : Addable (PointRing.lowerBound (below h) array) (array.length + 1) 0 array.length) :
    search array h (toInt32 array.length) (array.length + 1) 0 (toInt32 array.length) =
      .ok (PointRing.successor Item.point array h : Int) := by
  rw [toInt32_of_lt fits]
  have found := search_eq fits (below_split sorted h) (Nat.zero_le _)
    (PointRing.lowerBound_le _ _) le_rfl (Nat.lt_succ_of_le (Nat.sub_le array.length 0)) addable
  rw [Nat.cast_zero] at found
  rw [found]
  exact congrArg Except.ok (apply_ite Nat.cast _ _ _).symm

theorem addable_of_search (fits : array.length < 2 ^ 31) {h : HashValue} {index : Int}
    (found : search array h (toInt32 array.length) (array.length + 1) 0 (toInt32 array.length) =
      .ok index) :
    Addable (PointRing.lowerBound (below h) array) (array.length + 1) 0 array.length := by
  by_contra overflows
  have failed := search_overflow fits (below_split sorted h) (Nat.zero_le _)
    (PointRing.lowerBound_le _ _) le_rfl (Nat.lt_succ_of_le (Nat.sub_le array.length 0)) overflows
  rw [Nat.cast_zero, ← toInt32_of_lt fits, found] at failed
  cases failed

theorem successor_isOwner (h : HashValue) :
    IsOwner array h (PointRing.successor Item.point array h) := by
  have split := below_split sorted h
  have bounded := PointRing.lowerBound_le (below h) array
  change IsOwner array h (if PointRing.lowerBound (below h) array = array.length then 0
    else PointRing.lowerBound (below h) array)
  split
  next past =>
    refine .inr ⟨rfl, fun other member => ?_⟩
    obtain ⟨index, inside, rfl⟩ := List.getElem_of_mem member
    exact lt_of_split split (past.symm ▸ inside) inside
  next within =>
    have inside : PointRing.lowerBound (below h) array < array.length := by omega
    refine .inl ⟨_, List.getElem?_eq_getElem inside, le_of_split split le_rfl inside, ?_⟩
    intro earlier before other at?
    obtain ⟨bound, rfl⟩ := List.getElem?_eq_some_iff.mp at?
    exact lt_of_split split before bound

end Search

/-! ## The array of a table -/

section Construction

variable {C : Type} {dumbMap : List (DumbConn C)} {totalWeight : Nat}

/-- An array that can be searched for the connections of a table. -/
structure Ring (dumbMap : List (DumbConn C)) (array : List (Item C)) : Prop where
  nonempty : array ≠ []
  sorted : array.Pairwise fun left right => left.point ≤ right.point
  conn : ∀ item ∈ array, ∃ node ∈ dumbMap, item.conn = node.conn

/-- The weights of a table add up to a positive total. -/
structure Weighted (dumbMap : List (DumbConn C)) (totalWeight : Nat) : Prop where
  sum : (dumbMap.map DumbConn.weight).sum = totalWeight
  positive : 0 < totalWeight

namespace Weighted

variable (weighted : Weighted dumbMap totalWeight)
include weighted

theorem nonempty : dumbMap ≠ [] := by
  rintro rfl
  exact absurd weighted.sum (Nat.ne_of_lt weighted.positive)

/-- Shares are floors, so together they are at most 40 for each connection. -/
theorem sum_share_le (numDumbnodes : Nat) :
    (dumbMap.map fun node => share node.weight totalWeight numDumbnodes).sum ≤
      40 * numDumbnodes := by
  have floors : ∀ nodes : List (DumbConn C),
      (nodes.map fun node => share node.weight totalWeight numDumbnodes).sum ≤
        (nodes.map DumbConn.weight).sum * (40 * numDumbnodes) / totalWeight := by
    intro nodes
    induction nodes with
    | nil => exact Nat.zero_le _
    | cons node nodes ih =>
        rw [List.map_cons, List.map_cons, List.sum_cons, List.sum_cons, Nat.add_mul]
        refine le_trans (Nat.add_le_add ?_ ih) Nat.div_add_div_le_add_div
        rw [share, Nat.mul_assoc]
  have whole := floors dumbMap
  rwa [weighted.sum, Nat.mul_div_cancel_left _ weighted.positive] at whole

theorem share_le {node : DumbConn C} (member : node ∈ dumbMap) (numDumbnodes : Nat) :
    share node.weight totalWeight numDumbnodes ≤ 40 * numDumbnodes := by
  refine le_trans (List.single_le_sum (fun _ _ => Nat.zero_le _) _ ?_)
    (weighted.sum_share_le numDumbnodes)
  exact List.mem_map.mpr ⟨node, member, rfl⟩

/-- Not every weight is below the average, so some connection has its 40 hashes. -/
theorem exists_share : ∃ node ∈ dumbMap, 40 ≤ share node.weight totalWeight dumbMap.length := by
  have average : (dumbMap.map fun _ => totalWeight).sum ≤
      (dumbMap.map fun node => node.weight * dumbMap.length).sum := by
    rw [List.map_const', List.sum_replicate, List.sum_map_mul_right, weighted.sum, Nat.nsmul_eq_mul,
      Nat.mul_comm]
  obtain ⟨node, member, heavy⟩ := List.exists_le_of_sum_le weighted.nonempty _ _ average
  refine ⟨node, member, (Nat.le_div_iff_mul_le weighted.positive).mpr ?_⟩
  calc 40 * totalWeight ≤ 40 * (node.weight * dumbMap.length) := Nat.mul_le_mul_left 40 heavy
    _ = node.weight * 40 * dumbMap.length := by ring

end Weighted

/-- `num_dumbnodes` -/
def numDumbnodes (dumbMap : List (DumbConn C)) : Nat := (toInt32 dumbMap.length).toNat

/-- What the constructor needs of a table: its size is positive as an `int32_t`, some connection
has a share, every share is a `uint32_t`, and every text fits into `ss` with its terminator. -/
structure Fits (dumbMap : List (DumbConn C)) (totalWeight : Nat) : Prop where
  count : 0 < toInt32 dumbMap.length
  some : ∃ node ∈ dumbMap, 0 < share node.weight totalWeight (numDumbnodes dumbMap)
  shares : ∀ node ∈ dumbMap, share node.weight totalWeight (numDumbnodes dumbMap) < 2 ^ 32
  short : ∀ node ∈ dumbMap, ∀ k < share node.weight totalWeight (numDumbnodes dumbMap),
    (label node.addr k).length + 1 ≤ 30

/-- In a table of a hundred million connections it is only the texts that count. -/
theorem Weighted.fits (weighted : Weighted dumbMap totalWeight)
    (few : 40 * dumbMap.length < 2 ^ 32)
    (short : ∀ node ∈ dumbMap, ∀ k < share node.weight totalWeight dumbMap.length,
      (label node.addr k).length + 1 ≤ 30) : Fits dumbMap totalWeight := by
  have positive := List.length_pos_of_ne_nil weighted.nonempty
  have same : toInt32 dumbMap.length = dumbMap.length := toInt32_of_lt (by omega)
  have count : numDumbnodes dumbMap = dumbMap.length := by
    rw [numDumbnodes, same, Int.toNat_natCast]
  refine ⟨by omega, ?_, fun node member => ?_, count ▸ short⟩
  · obtain ⟨node, member, large⟩ := weighted.exists_share
    exact ⟨node, member, by rw [count]; omega⟩
  · have bounded := weighted.share_le member dumbMap.length
    rw [count]
    omega

/-- The items of all connections, before they are sorted. -/
def ringItems (md5 : Bytes → Nat → UInt8) (dumbMap : List (DumbConn C)) (totalWeight : Nat) :
    List (Item C) :=
  (dumbMap.map fun node =>
    ((List.range (share node.weight totalWeight (numDumbnodes dumbMap))).map
      (labelItems md5 node)).flatten).flatten

variable {md5 : Bytes → Nat → UInt8}

theorem mem_ringItems {item : Item C} :
    item ∈ ringItems md5 dumbMap totalWeight ↔
      ∃ node ∈ dumbMap, ∃ k < share node.weight totalWeight (numDumbnodes dumbMap),
        item ∈ labelItems md5 node k := by
  simp [ringItems]

theorem length_ringItems_le (weighted : Weighted dumbMap totalWeight) :
    (ringItems md5 dumbMap totalWeight).length ≤ 160 * numDumbnodes dumbMap := by
  have bounded := weighted.sum_share_le (numDumbnodes dumbMap)
  have each : ∀ node : DumbConn C, (((List.range (share node.weight totalWeight
      (numDumbnodes dumbMap))).map (labelItems md5 node)).flatten).length =
        share node.weight totalWeight (numDumbnodes dumbMap) * 4 := by
    intro node
    simp [List.length_flatten, labelItems, Function.comp_def]
  rw [ringItems, List.length_flatten, List.map_map]
  simp only [Function.comp_def, each, List.sum_map_mul_right]
  omega

theorem nodeItems_eq {node : DumbConn C} {count : Nat}
    (bounded : share node.weight totalWeight count < 2 ^ 32)
    (short : ∀ k < share node.weight totalWeight count, (label node.addr k).length + 1 ≤ 30) :
    nodeItems md5 totalWeight count node = .ok
      ((List.range (share node.weight totalWeight count)).map (labelItems md5 node)).flatten := by
  have hashes : (List.range (share node.weight totalWeight count)).mapM (hashItems md5 node) =
      .ok ((List.range (share node.weight totalWeight count)).map (labelItems md5 node)) :=
    mapM_of_forall_ok fun k inside => if_pos (short k (List.mem_range.mp inside))
  simp only [nodeItems]
  rw [if_pos bounded, hashes]
  rfl

theorem bounds_of_nodeItems {node : DumbConn C} {count : Nat} {items : List (Item C)}
    (built : nodeItems md5 totalWeight count node = .ok items) :
    share node.weight totalWeight count < 2 ^ 32 ∧
      ∀ k < share node.weight totalWeight count, (label node.addr k).length + 1 ≤ 30 := by
  simp only [nodeItems] at built
  split_ifs at built with bounded
  obtain ⟨_, hashes, -⟩ := exists_of_bind built
  refine ⟨bounded, fun k inside => ?_⟩
  obtain ⟨_, printed⟩ := exists_ok_of_mapM hashes k (List.mem_range.mpr inside)
  by_contra long
  rw [hashItems, if_neg long] at printed
  cases printed

theorem new_eq (sorting : Sorting C) (count : 0 < toInt32 dumbMap.length)
    (shares : ∀ node ∈ dumbMap, share node.weight totalWeight (numDumbnodes dumbMap) < 2 ^ 32)
    (short : ∀ node ∈ dumbMap, ∀ k < share node.weight totalWeight (numDumbnodes dumbMap),
      (label node.addr k).length + 1 ≤ 30) :
    new md5 sorting dumbMap totalWeight =
      .ok (sorting.sort (ringItems md5 dumbMap totalWeight)) := by
  have each : dumbMap.mapM (nodeItems md5 totalWeight (numDumbnodes dumbMap)) = .ok _ :=
    mapM_of_forall_ok fun node member => nodeItems_eq (shares node member) (short node member)
  rw [numDumbnodes] at each
  simp only [new]
  rw [if_pos count, each]
  rfl

/-- The constructor leaves a ring of the table exactly where the table fits. -/
theorem new_ring_iff (sorting : Sorting C) (weighted : Weighted dumbMap totalWeight) :
    (∃ array, new md5 sorting dumbMap totalWeight = .ok array ∧ Ring dumbMap array ∧
      array.length ≤ 160 * numDumbnodes dumbMap) ↔ Fits dumbMap totalWeight := by
  constructor
  · rintro ⟨array, built, ring, -⟩
    have whole := built
    simp only [new] at built
    split_ifs at built with count
    obtain ⟨_, each, -⟩ := exists_of_bind built
    have bounds := fun node member =>
      bounds_of_nodeItems (exists_ok_of_mapM each node member).choose_spec
    have shares := fun node member => (bounds node member).1
    have short := fun node member => (bounds node member).2
    -- the array is not empty, so some connection has an item
    rw [new_eq sorting count shares short] at whole
    cases whole
    obtain ⟨item, member⟩ := List.exists_mem_of_ne_nil _ ring.nonempty
    obtain ⟨node, inside, k, less, -⟩ := mem_ringItems.mp ((sorting.perm _).mem_iff.mp member)
    exact ⟨count, ⟨node, inside, Nat.zero_lt_of_lt less⟩, shares, short⟩
  · intro fits
    refine ⟨_, new_eq sorting fits.count fits.shares fits.short, ⟨?_, sorting.sorted _, ?_⟩, ?_⟩
    · obtain ⟨node, inside, positive⟩ := fits.some
      have first : (⟨point (md5 (label node.addr 0)) 0, node.conn⟩ : Item C) ∈
          ringItems md5 dumbMap totalWeight :=
        mem_ringItems.mpr ⟨node, inside, 0, positive,
          List.mem_map_of_mem (List.mem_range.mpr (by decide))⟩
      exact List.ne_nil_of_mem ((sorting.perm _).mem_iff.mpr first)
    · intro item member
      obtain ⟨node, inside, k, -, member⟩ := mem_ringItems.mp ((sorting.perm _).mem_iff.mp member)
      obtain ⟨h, -, rfl⟩ := List.mem_map.mp member
      exact ⟨node, inside, rfl⟩
    · rw [(sorting.perm _).length_eq]
      exact length_ringItems_le weighted

end Construction

/-! ## The lookup in a ring -/

section Lookup

variable {C : Type} {array : List (Item C)} {h : HashValue}

theorem ketamaGetConn_eq {md5 : Bytes → Nat → UInt8} {key : Key} {index : Nat} {item : Item C}
    (found : search array (ketamaHashi md5 key) (toInt32 array.length) (array.length + 1) 0
      (toInt32 array.length) = .ok (index : Int))
    (at? : array[index]? = some item) : ketamaGetConn md5 array key = .ok item.conn := by
  simp only [ketamaGetConn, found, ok_bind, Int.toNat_natCast, at?]
  rfl

/-- libckv finds the same index wherever its items have the same hash values. -/
theorem getServerIt_eq {K : Type} [DecidableEq K] {hashMd5 : Bytes → HashValue}
    {live : LibCkv.Liveness K} {selector : KetamaSelector K} {key : Key}
    (nonempty : array ≠ []) (sorted : selector.sorted = true) (several : 1 < selector.nServers)
    (points : selector.continuum.map ContinuumItem.hashValue = array.map Item.point)
    (hash : selector.hash hashMd5 key = h) :
    selector.getServerIt hashMd5 live key false =
      .ok (some (PointRing.successor Item.point array h)) := by
  have same : PointRing.successor ContinuumItem.hashValue selector.continuum h =
      PointRing.successor Item.point array h := by
    have mapped := congrArg (PointRing.successor id · h) points
    rwa [PointRing.successor_map, PointRing.successor_map] at mapped
  have length : selector.continuum.length = array.length := by
    simpa using congrArg List.length points
  have located : selector.locate hashMd5 key = PointRing.successor Item.point array h := by
    rw [KetamaSelector.locate, if_neg (by omega), hash, same]
  have inside : PointRing.successor Item.point array h < selector.continuum.length :=
    length ▸ PointRing.successor_lt nonempty
  simp only [KetamaSelector.getServerIt, sorted, located, List.getElem?_eq_getElem inside]
  rw [if_neg (by simp; omega)]
  rfl

end Lookup

/-- The constructor leaves a ring exactly where the table fits, and in a ring every hash value
has its entry exactly where the bounds can be added in every round of the search for it. -/
theorem ring_lookup_total {C : Type} (md5 : Bytes → Nat → UInt8) (sorting : Sorting C)
    {dumbMap : List (DumbConn C)} {totalWeight : Nat} (weighted : Weighted dumbMap totalWeight) :
    ((∃ array, new md5 sorting dumbMap totalWeight = .ok array ∧ Ring dumbMap array ∧
      array.length ≤ 160 * numDumbnodes dumbMap) ↔ Fits dumbMap totalWeight) ∧
    ∀ array, Ring dumbMap array → array.length < 2 ^ 31 → ∀ h,
      (∃ (index : Nat) (item : Item C),
        search array h (toInt32 array.length) (array.length + 1) 0 (toInt32 array.length) =
          .ok (index : Int) ∧
        array[index]? = some item ∧ IsOwner array h index ∧
        (∀ key, ketamaHashi md5 key = h → ketamaGetConn md5 array key = .ok item.conn) ∧
        ∀ (K : Type) [DecidableEq K] (hashMd5 : Bytes → HashValue) (live : LibCkv.Liveness K)
          (selector : KetamaSelector K) (key : Key),
          selector.sorted = true → 1 < selector.nServers →
          selector.continuum.map ContinuumItem.hashValue = array.map Item.point →
          selector.hash hashMd5 key = h →
          selector.getServerIt hashMd5 live key false = .ok (some index)) ↔
      Addable (PointRing.lowerBound (below h) array) (array.length + 1) 0 array.length := by
  refine ⟨new_ring_iff sorting weighted, fun array ring fits h => ⟨?_, fun addable => ?_⟩⟩
  · rintro ⟨index, item, found, -⟩
    exact addable_of_search ring.sorted fits found
  · have inside : PointRing.successor Item.point array h < array.length :=
      PointRing.successor_lt ring.nonempty
    have at? := List.getElem?_eq_getElem inside
    have found := search_successor ring.sorted fits addable
    refine ⟨_, _, found, at?, successor_isOwner ring.sorted h, ?_, ?_⟩
    · rintro key rfl
      exact ketamaGetConn_eq found at?
    · intro K _ hashMd5 live selector key sorted several points hash
      exact getServerIt_eq ring.nonempty sorted several points hash

/-- A sorting that keeps the order of equal points. -/
def Sorting.insertion (C : Type) : Sorting C where
  sort items := items.insertionSort fun left right => left.point ≤ right.point
  perm items := List.perm_insertionSort _ items
  sorted items := by
    have : Std.Total fun left right : Item C => left.point ≤ right.point :=
      ⟨fun left right => le_total left.point right.point⟩
    have : IsTrans (Item C) fun left right => left.point ≤ right.point :=
      ⟨fun _ _ _ => le_trans⟩
    exact List.pairwise_insertionSort _ items

/-- Two datalets, the second with twice the weight of the first. -/
def sampleMap : List (DumbConn Nat) :=
  [⟨Wire.text "10.0.0.1:9000", 1, 0⟩, ⟨Wire.text "10.0.0.2:9000", 2, 1⟩]

/-- Digests that repeat the text. -/
def sampleMd5 (text : Bytes) (index : Nat) : UInt8 := text.getD index 0

theorem ring_lookup_total_sample :
    ∃ array, new sampleMd5 (Sorting.insertion Nat) sampleMap 3 = .ok array ∧
      ∀ h, ∃ index : Nat,
        search array h (toInt32 array.length) (array.length + 1) 0 (toInt32 array.length) =
          .ok (index : Int) ∧ IsOwner array h index := by
  have weighted : Weighted sampleMap 3 := ⟨rfl, by decide⟩
  have short : ∀ node ∈ sampleMap, ∀ k < share node.weight 3 sampleMap.length,
      (label node.addr k).length + 1 ≤ 30 := by decide +kernel
  obtain ⟨built, lookup⟩ := ring_lookup_total sampleMd5 (Sorting.insertion Nat) weighted
  obtain ⟨array, built, ring, length⟩ := built.mpr (weighted.fits (by decide) short)
  have count : 160 * numDumbnodes sampleMap = 320 := rfl
  refine ⟨array, built, fun h => ?_⟩
  obtain ⟨index, item, found, -, owner, -⟩ := (lookup array ring (by omega) h).mpr
    (addable_of_lt (Nat.zero_le _) (PointRing.lowerBound_le _ _) (by omega) _)
  exact ⟨index, found, owner⟩

/-- A host name that is longer than `ss` is written all the same; and in a long array the
bounds of the search have a sum that is no `int32_t`. -/
theorem long_address_overwrites :
    (∀ md5 sorting, Weighted [⟨List.replicate 30 97, 1, ()⟩] 1 ∧
      new md5 sorting [⟨List.replicate 30 97, 1, ()⟩] 1 = .error .overwrite) ∧
    ∃ (array : List (Item Unit)) (h : HashValue), Ring [⟨[97], 1, ()⟩] array ∧
      search array h (toInt32 array.length) (array.length + 1) 0 (toInt32 array.length) =
        .error .overflow := by
  constructor
  · intro md5 sorting
    exact ⟨⟨rfl, by decide⟩, rfl⟩
  · obtain ⟨count, large, fits⟩ :
        ∃ count : Nat, 2 ^ 31 ≤ count + (count / 2 + 1) ∧ count < 2 ^ 31 :=
      ⟨2 ^ 31 - 4, by decide, by decide⟩
    obtain ⟨array, hash, length, less, ring⟩ : ∃ (array : List (Item Unit)) (h : HashValue),
        array.length = count ∧ (∀ item ∈ array, item.point < h) ∧
          Ring [⟨[97], 1, ()⟩] array := by
      refine ⟨List.replicate count ⟨0, ()⟩, 1, List.length_replicate, fun item member => ?_, ?_⟩
      · rw [List.eq_of_mem_replicate member]
        decide
      refine ⟨?_, List.pairwise_replicate.mpr (.inr le_rfl), fun item member => ?_⟩
      · exact List.ne_nil_of_length_pos (by rw [List.length_replicate]; omega)
      · exact ⟨_, List.mem_singleton_self _, rfl⟩
    subst length
    have split : PointRing.Split (below hash) array array.length array.length := by
      refine ⟨fun index item before at? => ?_, fun index item after at? => ?_⟩
      · exact decide_eq_true (less item (List.mem_of_getElem? at?))
      · rw [List.getElem?_eq_none after] at at?
        cases at?
    have overflows : ¬Addable array.length (array.length + 1) 0 array.length := by
      obtain ⟨rounds, again⟩ : ∃ rounds, array.length + 1 = rounds + 2 :=
        ⟨array.length - 1, by omega⟩
      rw [again]
      -- the second round starts behind the middle
      rintro ⟨-, right, -⟩
      have sum := (right (by omega)).1
      omega
    have failed := search_overflow fits split (Nat.zero_le _) le_rfl le_rfl
      (Nat.lt_succ_of_le (Nat.sub_le _ 0)) overflows
    rw [Nat.cast_zero, ← toInt32_of_lt fits] at failed
    exact ⟨array, hash, ring, failed⟩

end BespoKV.Continuum
