import MaterialPoint.Grid.Node
import MaterialPoint.Scalar.Sum
import MaterialPoint.Stencil

/-! The lattice of nodes over the unit cube. Nodes are numbered with the first axis fastest. -/
namespace MaterialPoint

@[ext] structure Grid (R : Type) where
  resolution : Nat
  nodes : Array (Node R)
  size_nodes : nodes.size = resolution * resolution * resolution

namespace Grid
variable {R : Type}

/-- The number of the node at a coordinate on the lattice, among the integers. -/
@[inline] def index? (g : Grid R) (c : Coord) : Option Nat :=
  let n : Int := g.resolution
  if c.all fun i => 0 ≤ i && i < n then some (c.x + n * (c.y + n * c.z)).toNat else none

theorem isSome_index?_iff (g : Grid R) (c : Coord) :
    (g.index? c).isSome ↔ (0 ≤ c.x ∧ c.x < g.resolution) ∧ (0 ≤ c.y ∧ c.y < g.resolution) ∧
      0 ≤ c.z ∧ c.z < g.resolution := by
  simp only [index?, Vec3.all, Bool.and_eq_true, decide_eq_true_eq]
  split <;> simp_all [and_assoc]

/-- The number in signed words, which every sum and every product has to fit in. Off the lattice
nothing is computed. -/
@[inline] def indexInWords? (resolution : Nat) (c : Coord) : Option (Option Nat) :=
  let n := Word.signed resolution
  if c.all fun i => 0 ≤ i && i < n then do
    let layers ← Word.signed? (n * c.z)
    let rows ← Word.signed? (c.y + layers)
    let row ← Word.signed? (n * rows)
    let i ← Word.signed? (c.x + row)
    return some i.toNat
  else return none

/-- The coordinate of the node with a number, in words. -/
def coordAt (resolution index : Nat) : Coord :=
  ⟨Word.signed (index % resolution : Nat), Word.signed (index / resolution % resolution : Nat),
    Word.signed (index / (resolution * resolution) : Nat)⟩

/-- The coordinate of the node with a number. A lattice without nodes has none. -/
def coord? (g : Grid R) (index : Nat) : Option Coord :=
  if g.resolution = 0 then none else some (coordAt g.resolution index)

def node? (g : Grid R) (c : Coord) : Option (Node R) := (g.index? c).bind (g.nodes[·]?)

/-- The node at a coordinate, if there is one, when its number can be computed. -/
@[inline] def lookup? (g : Grid R) (c : Coord) : Option (Option (Node R)) :=
  (indexInWords? g.resolution c).map (·.bind (g.nodes[·]?))

/-- All nodes with their coordinates, in the order of their numbers. -/
def toList (g : Grid R) : List (Coord × Node R) :=
  g.nodes.toList.mapIdx fun i node => (coordAt g.resolution i, node)

@[inline] def modifyAt (g : Grid R) (index : Nat) (f : Node R → Node R) : Grid R where
  resolution := g.resolution
  nodes := g.nodes.modify index f
  size_nodes := by rw [Array.size_modify, g.size_nodes]

/-- Changes the node at a coordinate, and tells whether there is one. Off the lattice nothing is
changed. -/
@[inline] def modify (g : Grid R) (c : Coord) (f : Node R → Node R) : Grid R × Bool :=
  match g.index? c with
  | some index => (g.modifyAt index f, true)
  | none => (g, false)

/-- The change at a coordinate whose node's number can be computed. -/
@[inline] def modify? (g : Grid R) (c : Coord) (f : Node R → Node R) : Option (Grid R × Bool) :=
  match indexInWords? g.resolution c with
  | some (some index) => some (g.modifyAt index f, true)
  | some none => some (g, false)
  | none => none

@[simp] theorem resolution_modify (g : Grid R) (c : Coord) (f : Node R → Node R) :
    (g.modify c f).1.resolution = g.resolution := by
  unfold modify
  split <;> rfl

theorem modify_snd (g : Grid R) (c : Coord) (f : Node R → Node R) :
    (g.modify c f).2 = (g.index? c).isSome := by
  unfold modify
  split <;> simp_all

@[inline] def mapNodes (g : Grid R) (f : Nat → Node R → Node R) : Grid R where
  resolution := g.resolution
  nodes := g.nodes.mapIdx f
  size_nodes := by rw [Array.size_mapIdx, g.size_nodes]

/-- The lattice with every node changed, when each of them can be. -/
def mapNodes? (g : Grid R) (f : Nat → Node R → Option (Node R)) : Option (Grid R) :=
  if (g.nodes.mapIdx f).all (·.isSome) then some (g.mapNodes fun i node => (f i node).getD node)
  else none

variable [Scalar R]

def empty (resolution : Nat) : Grid R where
  resolution
  nodes := Array.replicate (resolution * resolution * resolution) 0
  size_nodes := Array.size_replicate

/-- Whether nodes of sixteen bytes take fewer than two to the 63 of them. -/
def fits (resolution : Nat) : Bool :=
  16 * (resolution * resolution * resolution) < 0x8000000000000000

def empty? (resolution : Nat) : Option (Grid R) :=
  if fits resolution then some (empty resolution) else none

def reset (g : Grid R) : Grid R := empty g.resolution

@[simp] theorem resolution_reset (g : Grid R) : g.reset.resolution = g.resolution := rfl

@[inline] def cellSize (g : Grid R) : R := 1 / (g.resolution : R)

/-- Whether a position is finite and inside the domain, whose high faces do not belong to it. -/
@[inline] def contains (g : Grid R) (p : Vec3 R) : Bool :=
  let extent := (g.resolution : R) * g.cellSize
  p.isFinite && p.all (0 ≤ ·) && p.all (· < extent)

@[inline] def accumulate (g : Grid R) (c : Coord) (mass : R) (momentum : Vec3 R) :
    Grid R × Bool :=
  g.modify c (·.accumulate mass momentum)

@[inline] def accumulate? (g : Grid R) (c : Coord) (mass : R) (momentum : Vec3 R) :
    Option (Grid R × Bool) :=
  g.modify? c (·.accumulate mass momentum)

@[simp] theorem resolution_accumulate (g : Grid R) (c : Coord) (mass : R) (momentum : Vec3 R) :
    (g.accumulate c mass momentum).1.resolution = g.resolution := resolution_modify ..

def totalMass (g : Grid R) : R := sumByEighths (g.nodes.toList.map (·.mass))

/-- The momentum of the nodes when they hold velocities. -/
def totalMomentum (g : Grid R) : Vec3 R := sumByEighths (g.nodes.toList.map (·.momentum))

end Grid
end MaterialPoint
