import MaterialPoint.Mesh.Basic
import MaterialPoint.Word

/-! Closed boxes as meshes. Each side has vertices of its own, in rows. -/
namespace MaterialPoint

inductive Axis where
  | x
  | y
  | z
  deriving DecidableEq, Repr

namespace Axis

def all : List Axis := [x, y, z]

def next : Axis → Axis
  | x => y
  | y => z
  | z => x

end Axis

namespace Vec3
variable {R : Type}

def get (v : Vec3 R) : Axis → R
  | .x => v.x
  | .y => v.y
  | .z => v.z

/-- The vector with a component along an axis and components along the next two. -/
def along (axis : Axis) (a b c : R) : Vec3 R :=
  match axis with
  | .x => ⟨a, b, c⟩
  | .y => ⟨c, a, b⟩
  | .z => ⟨b, c, a⟩

end Vec3

namespace Cuboid

structure Side where
  axis : Axis
  isHigh : Bool
  deriving DecidableEq, Repr

def sides : List Side := Axis.all.flatMap fun axis => [⟨axis, false⟩, ⟨axis, true⟩]

variable {R : Type} [Scalar R]

/-- The vertex in column `i` and row `j` of a side cut into `steps` along both edges. -/
def vertex (b : Bounds R) (steps : Nat) (side : Side) (i j : Nat) : Vec3 R :=
  let u := side.axis.next
  let v := u.next
  Vec3.along side.axis (if side.isHigh then b.hi.get side.axis else b.lo.get side.axis)
    (Scalar.lerp (b.lo.get u) (b.hi.get u) ((i : R) / (steps : R)))
    (Scalar.lerp (b.lo.get v) (b.hi.get v) ((j : R) / (steps : R)))

def cells (n : Nat) : List (Nat × Nat) :=
  (List.range n).flatMap fun j => (List.range n).map fun i => (i, j)

def sideVertices (b : Bounds R) (steps : Nat) (side : Side) : List (Vec3 R) :=
  (cells (steps + 1)).map fun (i, j) => vertex b steps side i j

/-- The two triangles of a square of a side whose first vertex has number `base`. -/
def squareFaces (base steps : Nat) (side : Side) (i j : Nat) : List Face :=
  let p := base + j * (steps + 1) + i
  let q := p + (steps + 1)
  if side.isHigh then [⟨p, p + 1, q + 1⟩, ⟨p, q + 1, q⟩] else [⟨p, q, q + 1⟩, ⟨p, q + 1, p + 1⟩]

def sideFaces (steps k : Nat) (side : Side) : List Face :=
  (cells steps).flatMap fun (i, j) =>
    squareFaces (k * ((steps + 1) * (steps + 1))) steps side i j

end Cuboid

namespace Mesh
variable {R : Type} [Scalar R]

/-- A closed box whose sides are cut into as many squares along each edge. Uncut sides are one
square. -/
def cuboid (b : Bounds R) (subdivisions : Nat) : Mesh R :=
  let steps := max subdivisions 1
  { vertices := (Cuboid.sides.flatMap (Cuboid.sideVertices b steps)).toArray
    normals := none
    faces := (Cuboid.sides.mapIdx (Cuboid.sideFaces steps)).flatten }

/-- A closed box whose vertices have numbers that are words. -/
def cuboid? (b : Bounds R) (subdivisions : Nat) : Option (Mesh R) :=
  if Word.fits32 (6 * ((subdivisions + 1) * (subdivisions + 1))) then some (cuboid b subdivisions)
  else none

end Mesh
end MaterialPoint
