import MaterialPoint.Linear.Mat3

/-! Singular value decompositions as data, and number types that can find one. -/
namespace MaterialPoint

/-- The factors of a matrix `u * diagonal sigma * transpose v`. -/
@[ext] structure Svd (R : Type) where
  u : Mat3 R
  sigma : Vec3 R
  v : Mat3 R

namespace Svd
variable {R : Type} [Zero R] [Add R] [Mul R]

@[inline] def rotation (d : Svd R) : Mat3 R := d.u * d.v.transpose

/-- The matrix with the same singular vectors and other singular values. -/
@[inline] def recompose (d : Svd R) (sigma : Vec3 R) : Mat3 R :=
  d.u * Mat3.diagonal sigma * d.v.transpose

end Svd

/-- A method that decomposes matrices, with singular values that fall and are not negative. It may
refuse one. -/
class SingularValues (R : Type) where
  decompose? : Mat3 R → Option (Svd R)

end MaterialPoint
