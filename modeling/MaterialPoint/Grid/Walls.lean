import MaterialPoint.Grid.Basic

/-! From momenta to velocities: division by mass, gravity, and the walls of the domain. -/
namespace MaterialPoint
variable {R : Type} [Scalar R]

namespace Grid

/-- Stops motion outwards in the bands of `width` nodes along both ends of an axis. -/
@[inline] def stopAtWall (width resolution i : Int) (v : R) : R :=
  if (i < width ∧ v < 0) ∨ (i > resolution - width ∧ v > 0) then 0 else v

/-- The coordinate of the node with a number, by division that drops what is left over. -/
def wallCoord (resolution index : Int) : Coord :=
  ⟨index.tmod resolution, (index.tdiv resolution).tmod resolution,
    index.tdiv (resolution * resolution)⟩

/-- The velocity of a node at a coordinate, from its momentum. A node that has no mass is left as
it is. -/
def settleNode (gravity timeStep : R) (width resolution : Int) (c : Coord) (node : Node R) :
    Node R :=
  if node.mass ≤ 0 then node
  else
    let v := Scalar.reciprocal node.mass • node.velocity
    let v := { v with y := v.y - gravity * timeStep }
    { node with velocity := c.zipWith (stopAtWall width resolution) v }

def settle (g : Grid R) (gravity timeStep : R) (wallWidth : Nat) : Grid R :=
  let width := Word.signed wallWidth
  let resolution : Int := g.resolution
  g.mapNodes fun i node =>
    settleNode gravity timeStep width resolution (wallCoord resolution i) node

/-- The coordinate of the node with a number by division of signed words. -/
def wallCoordInWords? (resolution index : Nat) : Option Coord := do
  let n := Word.signed resolution
  let i := Word.signed index
  let x ← Word.tmod? i n
  let rows ← Word.tdiv? i n
  let y ← Word.tmod? rows n
  let layer ← Word.signed? (n * n)
  let z ← Word.tdiv? i layer
  return ⟨x, y, z⟩

/-- The node with a number once it is settled. With mass, it needs the walls to begin at words. -/
def settleNode? (gravity timeStep : R) (wallWidth resolution index : Nat) (node : Node R) :
    Option (Node R) :=
  if node.mass ≤ 0 then some node
  else do
    let n := Word.signed resolution
    let width := Word.signed wallWidth
    let c ← wallCoordInWords? resolution index
    let _ ← Word.signed? (n - width)
    return settleNode gravity timeStep width n c node

def settle? (g : Grid R) (gravity timeStep : R) (wallWidth : Nat) : Option (Grid R) :=
  g.mapNodes? (settleNode? gravity timeStep wallWidth g.resolution)

@[simp] theorem resolution_settle (g : Grid R) (gravity timeStep : R) (wallWidth : Nat) :
    (g.settle gravity timeStep wallWidth).resolution = g.resolution := rfl

end Grid
end MaterialPoint
