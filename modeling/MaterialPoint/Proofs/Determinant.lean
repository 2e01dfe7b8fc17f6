import MaterialPoint.Proofs.Linear

/-! Determinants of matrices, by way of the library's matrices, and orthogonal matrices. -/
namespace MaterialPoint
open scoped Exact

variable {K : Type} [Field K] [LinearOrder K] [IsStrictOrderedRing K] [FloorRing K]

namespace Mat3

def toMatrix {R : Type} (m : Mat3 R) : Matrix (Fin 3) (Fin 3) R :=
  !![m.x.x, m.y.x, m.z.x; m.x.y, m.y.y, m.z.y; m.x.z, m.y.z, m.z.z]

theorem eq_of_toMatrix_eq {R : Type} {m n : Mat3 R} (h : m.toMatrix = n.toMatrix) : m = n := by
  have h (i j : Fin 3) := congrFun (congrFun h i) j
  exact Mat3.ext (Vec3.ext (h 0 0) (h 1 0) (h 2 0)) (Vec3.ext (h 0 1) (h 1 1) (h 2 1))
    (Vec3.ext (h 0 2) (h 1 2) (h 2 2))

theorem toMatrix_one : (1 : Mat3 K).toMatrix = 1 := by
  ext i j
  fin_cases i <;> fin_cases j <;> rfl

theorem toMatrix_mul (m n : Mat3 K) : (m * n).toMatrix = m.toMatrix * n.toMatrix := by
  ext i j
  rw [Matrix.mul_apply, Fin.sum_univ_three]
  fin_cases i <;> fin_cases j <;> rfl

theorem det_toMatrix (m : Mat3 K) : m.toMatrix.det = m.det := by
  rw [Matrix.det_fin_three]
  simp only [toMatrix, det, Vec3.dot, Vec3.cross, Matrix.of_apply, Matrix.cons_val]
  ring

theorem det_one : (1 : Mat3 K).det = 1 := by
  rw [← det_toMatrix, toMatrix_one, Matrix.det_one]

theorem det_mul (m n : Mat3 K) : (m * n).det = m.det * n.det := by
  simp only [← det_toMatrix, toMatrix_mul, Matrix.det_mul]

theorem det_transpose (m : Mat3 K) : m.transpose.det = m.det := by
  simp only [det, transpose, Vec3.dot, Vec3.cross]
  ring

theorem det_diagonal (v : Vec3 K) : (diagonal v).det = v.product := by
  simp only [det, diagonal, Vec3.dot, Vec3.cross, Vec3.product]
  ring

namespace IsOrthogonal
variable {m n : Mat3 K}

theorem mul_transpose (h : m.IsOrthogonal) : m * m.transpose = 1 := by
  apply eq_of_toMatrix_eq
  rw [toMatrix_mul, toMatrix_one, mul_eq_one_comm, ← toMatrix_mul, ← toMatrix_one]
  exact congrArg toMatrix h

theorem transpose (h : m.IsOrthogonal) : m.transpose.IsOrthogonal := h.mul_transpose

theorem mul (hm : m.IsOrthogonal) (hn : n.IsOrthogonal) : (m * n).IsOrthogonal := by
  calc (m * n).transpose * (m * n)
      = n.transpose * (m.transpose * m) * n := by rw [transpose_mul]; noncomm_ring
    _ = 1 := by rw [hm, mul_one, hn]

theorem mul_right_cancel {a b : Mat3 K} (h : m.IsOrthogonal) (hab : a * m = b * m) : a = b := by
  calc a = a * m * m.transpose := by rw [mul_assoc, h.mul_transpose, mul_one]
    _ = b := by rw [hab, mul_assoc, h.mul_transpose, mul_one]

theorem conjugate_inj {a b : Mat3 K} (h : m.IsOrthogonal) :
    m * a * m.transpose = m * b * m.transpose ↔ a = b := by
  refine ⟨fun hab => ?_, fun hab => by rw [hab]⟩
  have hself (c : Mat3 K) : c = m.transpose * (m * c * m.transpose) * m := by
    have hm : m.transpose * m = 1 := h
    calc c = m.transpose * m * c * (m.transpose * m) := by rw [hm, one_mul, mul_one]
      _ = m.transpose * (m * c * m.transpose) * m := by noncomm_ring
  rw [hself a, hab, ← hself b]

theorem det_mul_self (h : m.IsOrthogonal) : m.det * m.det = 1 := by
  calc m.det * m.det = (m.transpose * m).det := by rw [det_mul, det_transpose]
    _ = 1 := by rw [h, det_one]

end IsOrthogonal
end Mat3
end MaterialPoint
