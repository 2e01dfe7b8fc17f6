import MaterialPoint.Material

/-! Particles: where they are, how they move, and what they remember of their deformation. -/
namespace MaterialPoint

@[ext] structure Particle (R : Type) where
  position : Vec3 R
  velocity : Vec3 R
  affine : Mat3 R
  /-- The elastic deformation from the shape at rest. -/
  deformation : Mat3 R
  plasticity : R
  material : Material
  color : Vec3 R
  deriving BEq, DecidableEq, Repr

namespace Particle
variable {R : Type} [Scalar R]

def atRest (position : Vec3 R) (material : Material) : Particle R where
  position
  velocity := 0
  affine := 0
  deformation := 1
  plasticity := 1
  material
  color := Vec3.splat 1

def volumeRatio (p : Particle R) : R := p.deformation.det

end Particle
end MaterialPoint
