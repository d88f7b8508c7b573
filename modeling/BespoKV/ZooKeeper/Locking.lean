import BespoKV.Library.Tickets
import BespoKV.ZooKeeper.Nodes

/-!
# Safety of the ZooKeeper lock

Lock nodes are tickets: ZooKeeper numbers them in the order of their creation.  `Lock`
returns only when the listing it has seen has no earlier node that conflicts with its own.
-/

namespace BespoKV.ZooKeeper

open Tickets

variable {base : List Char} {zoo zoo' : Zoo} {order : List Child} {client client' : Client}
variable {own child : Child} {limit : Nat}

/-- The nodes a writer waits for are all earlier ones, those a reader waits for the
earlier ones of writers. -/
def Conflicts (first second : Child) : Prop := first.write = true ∨ second.write = true

instance (first second : Child) : Decidable (Conflicts first second) :=
  inferInstanceAs (Decidable (_ ∨ _))

theorem Conflicts.symm {first second : Child} (conflicts : Conflicts first second) :
    Conflicts second first := Or.symm conflicts

/-- Nodes are ordered by the life of the path node and the sequence number. -/
def Child.rank (child : Child) : ℕ ×ₗ ℕ := toLex (child.life, child.seq)

/-- The hall the lock nodes are tickets of. -/
def Zoo.hall (zoo : Zoo) : Hall Child := ⟨zoo.children, zoo.granted⟩

namespace System

variable {system after : System} {event : Event}

end System

end BespoKV.ZooKeeper
