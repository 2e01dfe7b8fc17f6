import MaterialPoint.Proofs.Linear
import MaterialPoint.Material.Response

/-! The stress of every material is symmetric when deformations are decomposed exactly. -/
namespace MaterialPoint
open scoped Exact

variable {K : Type} [Field K] [LinearOrder K] [IsStrictOrderedRing K] [FloorRing K]

/-- A decomposition that multiplies back to the matrix, with orthogonal factors and no singular
value below zero. -/
structure Svd.IsExact (d : Svd K) (f : Mat3 K) : Prop where
  orthogonal_u : d.u.IsOrthogonal
  orthogonal_v : d.v.IsOrthogonal
  sigma_nonneg : 0 ≤ d.sigma.x ∧ 0 ≤ d.sigma.y ∧ 0 ≤ d.sigma.z
  recompose_sigma : d.recompose d.sigma = f

def SingularValues.IsExact (K : Type) [Field K] [LinearOrder K] [IsStrictOrderedRing K]
    [FloorRing K] [SingularValues K] : Prop :=
  ∀ (f : Mat3 K) (d : Svd K), decompose? f = some d → d.IsExact f

theorem Svd.recompose_sub_rotation_mul {d : Svd K} (hv : d.v.IsOrthogonal) (sigma : Vec3 K) :
    (d.recompose sigma - d.rotation) * (d.recompose sigma).transpose =
      d.u * (Mat3.diagonal sigma * Mat3.diagonal sigma - Mat3.diagonal sigma) * d.u.transpose := by
  have h : d.v.transpose * (d.recompose sigma).transpose =
      Mat3.diagonal sigma * d.u.transpose := by
    rw [recompose, Mat3.transpose_mul, Mat3.transpose_mul, Mat3.transpose_transpose,
      Mat3.transpose_diagonal, ← mul_assoc, hv, one_mul]
  calc (d.recompose sigma - d.rotation) * (d.recompose sigma).transpose
      = d.u * (Mat3.diagonal sigma - 1) * (d.v.transpose * (d.recompose sigma).transpose) := by
        rw [recompose, rotation]
        noncomm_ring
    _ = d.u * (Mat3.diagonal sigma * Mat3.diagonal sigma - Mat3.diagonal sigma) *
          d.u.transpose := by
        rw [h]
        noncomm_ring

theorem transpose_corotatedStress {f r : Mat3 K} {j mu lambda : K}
    (h : mu = 0 ∨ ((f - r) * f.transpose).transpose = (f - r) * f.transpose) :
    (corotatedStress f r j mu lambda).transpose = corotatedStress f r j mu lambda := by
  rw [corotatedStress, Mat3.transpose_add, Mat3.transpose_smul, Mat3.transpose_smul,
    Mat3.transpose_one]
  rcases h with rfl | h
  · rw [mul_zero, zero_smul, zero_smul]
  · rw [h]

namespace Material
variable [Exponential K]

theorem transpose_stress_respondTo (m : Material) {d : Svd K} {f : Mat3 K} (hd : d.IsExact f)
    (p mu lambda : K) :
    (m.respondTo d f p mu lambda).stress.transpose = (m.respondTo d f p mu lambda).stress := by
  have hsymm (sigma : Vec3 K) :
      ((d.recompose sigma - d.rotation) * (d.recompose sigma).transpose).transpose =
        (d.recompose sigma - d.rotation) * (d.recompose sigma).transpose := by
    rw [Svd.recompose_sub_rotation_mul hd.orthogonal_v, Mat3.transpose_mul, Mat3.transpose_mul,
      Mat3.transpose_transpose, Mat3.transpose_sub, Mat3.transpose_mul, Mat3.transpose_diagonal,
      mul_assoc]
  cases m with
  | water => exact transpose_corotatedStress (.inl rfl)
  | jelly =>
    refine transpose_corotatedStress (.inr ?_)
    have h := hsymm d.sigma
    rwa [hd.recompose_sigma] at h
  | snow => exact transpose_corotatedStress (.inr (hsymm _))

theorem transpose_stress_respond [SingularValues K] (hsvd : SingularValues.IsExact K)
    (m : Material) (f : Mat3 K) (p mu lambda : K) :
    (m.respond f p mu lambda).stress.transpose = (m.respond f p mu lambda).stress := by
  unfold respond
  split
  next d hd => exact m.transpose_stress_respondTo (hsvd f d hd) p mu lambda
  next => rfl

end Material
end MaterialPoint
