import MaterialPoint.Material
import MaterialPoint.Voxels

/-! Volumes to fill with one material. -/
namespace MaterialPoint

/-- A box with edges along the axes. A size may be negative, and then the box has no volume. -/
structure Block (R : Type) where
  lo : Vec3 R
  size : Vec3 R
  material : Material

namespace Block
variable {R : Type} [Scalar R]

def hi (b : Block R) : Vec3 R := b.lo + b.size

def volume (b : Block R) : R := (b.size.map fun a => if 0 < a then a else 0).product

/-- Whether a point is in the box, whose faces belong to it. -/
def contains (b : Block R) (p : Vec3 R) : Bool :=
  b.lo.x ≤ p.x && b.lo.y ≤ p.y && b.lo.z ≤ p.z &&
    p.x ≤ b.hi.x && p.y ≤ b.hi.y && p.z ≤ b.hi.z

end Block

/-- A closed mesh with the cells of the block at the origin that are inside it. -/
structure Solid (R : Type) where
  mesh : Mesh R
  material : Material
  voxels : Voxels R

namespace Solid
variable {R : Type} [Scalar R]

def ofMesh (mesh : Mesh R) (material : Material) (resolution : Nat) (cellSize : R) : Solid R :=
  ⟨mesh, material, Voxels.ofMesh mesh resolution cellSize 0⟩

def ofMesh? (mesh : Mesh R) (material : Material) (resolution : Nat) (cellSize : R) :
    Option (Solid R) :=
  if Voxels.fits resolution then some (ofMesh mesh material resolution cellSize) else none

/-- The volume of the cells, not of the mesh. -/
def volume (s : Solid R) : R := s.voxels.volume

end Solid

inductive Region (R : Type) where
  | block (b : Block R)
  | solid (s : Solid R)

namespace Region
variable {R : Type} [Scalar R]

def volume : Region R → R
  | block b => b.volume
  | solid s => s.volume

def material : Region R → Material
  | block b => b.material
  | solid s => s.material

end Region
end MaterialPoint
