import MaterialPoint.Transfer.Words

/-! The scatter as a race: tasks add to shared nodes by compare and exchange, without waiting. -/
namespace MaterialPoint
variable {R : Type}

namespace Node

def get (n : Node R) : Slot → R
  | .mass => n.mass
  | .x => n.velocity.x
  | .y => n.velocity.y
  | .z => n.velocity.z

def set (n : Node R) : Slot → R → Node R
  | .mass, x => { n with mass := x }
  | .x, x => { n with velocity := { n.velocity with x } }
  | .y, y => { n with velocity := { n.velocity with y } }
  | .z, z => { n with velocity := { n.velocity with z } }

end Node

/-- An addition to one number of the node with a number. -/
structure Addition (R : Type) where
  index : Nat
  slot : Node.Slot
  amount : R
  deriving DecidableEq

namespace Grid

def held? (g : Grid R) (a : Addition R) : Option R := g.nodes[a.index]?.map (·.get a.slot)

/-- The lattice with another number in the place of the one that an addition is made to. -/
def store (g : Grid R) (a : Addition R) (x : R) : Grid R := g.modifyAt a.index (·.set a.slot x)

/-- The additions that make up a deposit on the node with a number, in their order. -/
def additionsAt (d : Deposit R) (index : Nat) : List (Addition R) :=
  [⟨index, .mass, d.mass⟩, ⟨index, .x, d.momentum.x⟩, ⟨index, .y, d.momentum.y⟩,
    ⟨index, .z, d.momentum.z⟩]

/-- The additions of a deposit whose node's number can be computed. Off the lattice there are
none. -/
def additions? (g : Grid R) (d : Deposit R) : Option (List (Addition R)) :=
  (indexInWords? g.resolution d.coord).map fun index => index.elim [] (additionsAt d)

end Grid

/-- How far the task of a particle has come. -/
inductive Task (R : Type) where
  | waiting (p : Particle R)
  /-- The particle is deformed, and some additions are still to be made. -/
  | ready (p : Particle R) (todo : List (Addition R))
  /-- The first of the additions is attempted on a number that the task believes to be held. -/
  | attempting (p : Particle R) (a : Addition R) (todo : List (Addition R)) (seen : R)

variable [Scalar R] [Exponential R] [SingularValues R]

/-- A step of one task, with the lattice before and after it. -/
inductive Task.Step (params : Params R) : Grid R → Task R → Grid R → Task R → Prop
  | deform {g : Grid R} {p : Particle R} {share : Scattered R} {todo : List (List (Addition R))}
      (hshare : p.scatter? params g = some share)
      (htodo : share.deposits.mapM g.additions? = some todo) :
      Step params g (.waiting p) g (.ready share.particle todo.flatten)
  /-- What a task sees may be out of date, and nothing is assumed of it. -/
  | look (g : Grid R) (p : Particle R) (a : Addition R) (todo : List (Addition R)) (seen : R) :
      Step params g (.ready p (a :: todo)) g (.attempting p a todo seen)
  /-- An attempt may fail even where nothing was in its way. -/
  | retry (g : Grid R) (p : Particle R) (a : Addition R) (todo : List (Addition R))
      (seen found : R) :
      Step params g (.attempting p a todo seen) g (.attempting p a todo found)
  /-- The number is exchanged in the same moment in which it is compared with what was seen. -/
  | exchange {g : Grid R} {a : Addition R} {seen : R} (h : g.held? a = some seen)
      (p : Particle R) (todo : List (Addition R)) :
      Step params g (.attempting p a todo seen) (g.store a (fetchAdd seen a.amount).2)
        (.ready p todo)

structure Race (R : Type) where
  grid : Grid R
  tasks : List (Task R)

namespace Race

def start (g : Grid R) (ps : Population R) : Race R := ⟨g, ps.map .waiting⟩

/-- Any task may take the next step. -/
inductive Step (params : Params R) : Race R → Race R → Prop
  | task {g h : Grid R} {t u : Task R} (ht : t.Step params g h u)
      (before after : List (Task R)) :
      Step params ⟨g, before ++ t :: after⟩ ⟨h, before ++ u :: after⟩

end Race
end MaterialPoint
