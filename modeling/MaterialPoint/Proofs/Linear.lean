import MaterialPoint.Proofs.Exact
import MaterialPoint.Linear.Svd

/-! Vectors and matrices over exact numbers form modules, and their products are linear. -/
namespace MaterialPoint
open scoped Exact

variable {K : Type} [Field K] [LinearOrder K] [IsStrictOrderedRing K] [FloorRing K]

namespace Vec3

theorem zero_def : (0 : Vec3 K) = ⟨0, 0, 0⟩ := rfl

theorem add_def (v w : Vec3 K) : v + w = ⟨v.x + w.x, v.y + w.y, v.z + w.z⟩ := rfl

theorem sub_def (v w : Vec3 K) : v - w = ⟨v.x - w.x, v.y - w.y, v.z - w.z⟩ := rfl

theorem neg_def (v : Vec3 K) : -v = ⟨-v.x, -v.y, -v.z⟩ := rfl

theorem smul_def (a : K) (v : Vec3 K) : a • v = ⟨v.x * a, v.y * a, v.z * a⟩ := rfl

instance : AddCommGroup (Vec3 K) where
  add_assoc u v w := by simp only [add_def, add_assoc]
  zero_add v := by simp only [add_def, zero_def, zero_add]
  add_zero v := by simp only [add_def, zero_def, add_zero]
  add_comm v w := by simp only [add_def, add_comm]
  sub_eq_add_neg v w := by simp only [add_def, sub_def, neg_def, sub_eq_add_neg]
  neg_add_cancel v := by simp only [add_def, neg_def, zero_def, neg_add_cancel]
  nsmul := nsmulRec
  zsmul := zsmulRec

instance : Module K (Vec3 K) where
  one_smul v := by simp only [smul_def, mul_one]
  mul_smul a b v := by simp only [smul_def, mul_comm a b, mul_assoc]
  smul_zero a := by simp only [smul_def, zero_def, zero_mul]
  smul_add a v w := by simp only [smul_def, add_def, add_mul]
  add_smul a b v := by simp only [smul_def, add_def, mul_add]
  zero_smul v := by simp only [smul_def, zero_def, mul_zero]

def crossHom (v : Vec3 K) : Vec3 K →ₗ[K] Vec3 K where
  toFun w := v.cross w
  map_add' w₁ w₂ := by
    simp only [cross, add_def, mk.injEq]
    refine ⟨?_, ?_, ?_⟩ <;> ring
  map_smul' a w := by
    simp only [cross, smul_def, RingHom.id_apply, mk.injEq]
    refine ⟨?_, ?_, ?_⟩ <;> ring

theorem cross_add (u v w : Vec3 K) : u.cross (v + w) = u.cross v + u.cross w :=
  u.crossHom.map_add v w

theorem cross_smul (a : K) (v w : Vec3 K) : v.cross (a • w) = a • v.cross w :=
  v.crossHom.map_smul a w

@[simp] theorem cross_zero (v : Vec3 K) : v.cross 0 = 0 := v.crossHom.map_zero

theorem add_cross (u v w : Vec3 K) : (u + v).cross w = u.cross w + v.cross w := by
  simp only [cross, add_def, mk.injEq]
  refine ⟨?_, ?_, ?_⟩ <;> ring

theorem smul_cross (a : K) (v w : Vec3 K) : (a • v).cross w = a • v.cross w := by
  simp only [cross, smul_def, mk.injEq]
  refine ⟨?_, ?_, ?_⟩ <;> ring

@[simp] theorem zero_cross (v : Vec3 K) : (0 : Vec3 K).cross v = 0 := by
  simp only [cross, zero_def, zero_mul, mul_zero, sub_self]

@[simp] theorem cross_self (v : Vec3 K) : v.cross v = 0 := by
  simp only [cross, zero_def, sub_self]

end Vec3

namespace Mat3

theorem zero_def : (0 : Mat3 K) = ⟨0, 0, 0⟩ := rfl

theorem one_def : (1 : Mat3 K) = ⟨⟨1, 0, 0⟩, ⟨0, 1, 0⟩, ⟨0, 0, 1⟩⟩ := rfl

theorem add_def (m n : Mat3 K) : m + n = ⟨m.x + n.x, m.y + n.y, m.z + n.z⟩ := rfl

theorem sub_def (m n : Mat3 K) : m - n = ⟨m.x - n.x, m.y - n.y, m.z - n.z⟩ := rfl

theorem smul_def (a : K) (m : Mat3 K) : a • m = ⟨a • m.x, a • m.y, a • m.z⟩ := rfl

theorem mul_def (m n : Mat3 K) : m * n = ⟨m.apply n.x, m.apply n.y, m.apply n.z⟩ := rfl

theorem apply_def (m : Mat3 K) (v : Vec3 K) : m.apply v = v.x • m.x + v.y • m.y + v.z • m.z := rfl

instance : Neg (Mat3 K) := ⟨map (- ·)⟩

theorem neg_def (m : Mat3 K) : -m = ⟨-m.x, -m.y, -m.z⟩ := rfl

def applyHom (m : Mat3 K) : Vec3 K →ₗ[K] Vec3 K where
  toFun v := m.apply v
  map_add' v w := by
    simp only [apply, Vec3.add_def, Vec3.smul_def, Vec3.mk.injEq]
    refine ⟨?_, ?_, ?_⟩ <;> ring
  map_smul' a v := by
    simp only [apply, Vec3.add_def, Vec3.smul_def, RingHom.id_apply, Vec3.mk.injEq]
    refine ⟨?_, ?_, ?_⟩ <;> ring

theorem apply_add (m : Mat3 K) (v w : Vec3 K) : m.apply (v + w) = m.apply v + m.apply w :=
  m.applyHom.map_add v w

theorem apply_smul (m : Mat3 K) (a : K) (v : Vec3 K) : m.apply (a • v) = a • m.apply v :=
  m.applyHom.map_smul a v

@[simp] theorem apply_zero (m : Mat3 K) : m.apply 0 = 0 := m.applyHom.map_zero

theorem add_apply (m n : Mat3 K) (v : Vec3 K) : (m + n).apply v = m.apply v + n.apply v := by
  simp only [apply_def, add_def, smul_add]
  abel

theorem smul_apply (a : K) (m : Mat3 K) (v : Vec3 K) : (a • m).apply v = a • m.apply v := by
  simp only [apply_def, smul_def, smul_add, smul_smul, mul_comm a]

theorem mul_apply (m n : Mat3 K) (v : Vec3 K) : (m * n).apply v = m.apply (n.apply v) := by
  simp only [apply_def n, apply_add, apply_smul]
  rfl

@[simp] theorem one_apply (v : Vec3 K) : (1 : Mat3 K).apply v = v := by
  simp [apply, one_def, Vec3.add_def, Vec3.smul_def]

@[simp] theorem zero_apply (v : Vec3 K) : (0 : Mat3 K).apply v = 0 := by
  simp [apply, zero_def]

instance : Ring (Mat3 K) where
  add_assoc m n o := by simp only [add_def, add_assoc]
  zero_add m := by simp only [add_def, zero_def, zero_add]
  add_zero m := by simp only [add_def, zero_def, add_zero]
  add_comm m n := by simp only [add_def, add_comm]
  neg_add_cancel m := by simp only [add_def, neg_def, zero_def, neg_add_cancel]
  sub_eq_add_neg m n := by simp only [add_def, sub_def, neg_def, sub_eq_add_neg]
  mul_assoc m n o := by
    simp only [mul_def _ o, mul_apply]
    rfl
  one_mul m := by simp only [mul_def, one_apply]
  mul_one m := by ext <;> simp [mul_def, one_def, apply]
  left_distrib m n o := by
    simp only [mul_def, add_def n, apply_add]
    rfl
  right_distrib m n o := by
    simp only [mul_def, add_apply]
    rfl
  zero_mul m := by
    rw [mul_def, zero_apply, zero_apply, zero_apply]
    rfl
  mul_zero m := by simp only [mul_def, zero_def, apply_zero]
  nsmul := nsmulRec
  zsmul := zsmulRec

instance : Module K (Mat3 K) where
  one_smul m := by simp only [smul_def, one_smul]
  mul_smul a b m := by simp only [smul_def, mul_smul]
  smul_zero a := by simp only [smul_def, zero_def, smul_zero]
  smul_add a m n := by simp only [smul_def, add_def, smul_add]
  add_smul a b m := by simp only [smul_def, add_def, add_smul]
  zero_smul m := by simp only [smul_def, zero_def, zero_smul]

instance : IsScalarTower K (Mat3 K) (Mat3 K) where
  smul_assoc a m n := by
    ext <;> simp only [smul_eq_mul, mul_def, smul_def, apply, Vec3.add_def, Vec3.smul_def] <;> ring

instance : SMulCommClass K (Mat3 K) (Mat3 K) where
  smul_comm a m n := by simp only [smul_eq_mul, mul_def, smul_def, apply_smul]

@[simp] theorem transpose_transpose {R : Type} (m : Mat3 R) : m.transpose.transpose = m := rfl

@[simp] theorem transpose_one : (1 : Mat3 K).transpose = 1 := rfl

theorem diagonal_zero : diagonal (0 : Vec3 K) = 0 := rfl

theorem diagonal_splat_one : diagonal (Vec3.splat (1 : K)) = 1 := rfl

theorem diagonal_injective {R : Type} [Zero R] :
    Function.Injective (diagonal : Vec3 R → Mat3 R) := fun _ _ h =>
  Vec3.ext (congrArg (·.x.x) h) (congrArg (·.y.y) h) (congrArg (·.z.z) h)

theorem diagonal_mul_diagonal (v w : Vec3 K) :
    diagonal v * diagonal w = diagonal (v.zipWith (· * ·) w) := by
  simp [mul_def, apply_def, diagonal, Vec3.smul_def, Vec3.zipWith, mul_comm]

@[simp] theorem transpose_diagonal (d : Vec3 K) : (diagonal d).transpose = diagonal d := rfl

@[simp] theorem transpose_add (m n : Mat3 K) : (m + n).transpose = m.transpose + n.transpose := rfl

@[simp] theorem transpose_sub (m n : Mat3 K) : (m - n).transpose = m.transpose - n.transpose := rfl

@[simp] theorem transpose_smul (a : K) (m : Mat3 K) : (a • m).transpose = a • m.transpose := rfl

@[simp] theorem transpose_mul (m n : Mat3 K) : (m * n).transpose = n.transpose * m.transpose := by
  ext <;> simp only [transpose, mul_def, apply, Vec3.add_def, Vec3.smul_def] <;> ring

/-- A matrix whose columns are orthogonal unit vectors. -/
def IsOrthogonal (m : Mat3 K) : Prop := m.transpose * m = 1

theorem isOrthogonal_one : (1 : Mat3 K).IsOrthogonal := by
  rw [IsOrthogonal, transpose_one, one_mul]

/-- The vector of the antisymmetric part: twice the axis of the rotation in a velocity gradient. -/
def axial (m : Mat3 K) : Vec3 K := ⟨m.y.z - m.z.y, m.z.x - m.x.z, m.x.y - m.y.x⟩

@[simp] theorem axial_zero : (0 : Mat3 K).axial = 0 := by
  simp only [axial, zero_def, Vec3.zero_def, sub_self]

theorem axial_add (m n : Mat3 K) : (m + n).axial = m.axial + n.axial := by
  simp only [axial, add_def, Vec3.add_def, Vec3.mk.injEq]
  refine ⟨?_, ?_, ?_⟩ <;> ring

theorem axial_smul (a : K) (m : Mat3 K) : (a • m).axial = a • m.axial := by
  simp only [axial, smul_def, Vec3.smul_def, Vec3.mk.injEq]
  refine ⟨?_, ?_, ?_⟩ <;> ring

theorem axial_eq_zero {m : Mat3 K} (h : m.transpose = m) : m.axial = 0 := by
  simp only [transpose, Mat3.ext_iff, Vec3.ext_iff] at h
  obtain ⟨⟨-, hyx, hzx⟩, ⟨-, -, hzy⟩, -⟩ := h
  simp only [axial, Vec3.zero_def, hyx, hzx, hzy, sub_self]

@[simp] theorem zero_outer (v : Vec3 K) : outer 0 v = 0 := by
  simp only [outer, smul_zero, zero_def]

def outerHom (v : Vec3 K) : Vec3 K →ₗ[K] Mat3 K where
  toFun w := outer v w
  map_add' w₁ w₂ := by simp only [outer, add_def, Vec3.add_def, add_smul]
  map_smul' a w := by
    simp only [outer, smul_def, Vec3.smul_def, RingHom.id_apply, mul_assoc]

theorem outer_add (v w₁ w₂ : Vec3 K) : outer v (w₁ + w₂) = outer v w₁ + outer v w₂ :=
  (outerHom v).map_add w₁ w₂

theorem outer_smul (a : K) (v w : Vec3 K) : outer v (a • w) = a • outer v w :=
  (outerHom v).map_smul a w

@[simp] theorem outer_zero (v : Vec3 K) : outer v 0 = 0 := (outerHom v).map_zero

theorem smul_outer (a : K) (v w : Vec3 K) : outer (a • v) w = outer v (a • w) := by
  simp only [outer, smul_smul, Vec3.smul_def a w]

theorem add_outer (v₁ v₂ w : Vec3 K) : outer (v₁ + v₂) w = outer v₁ w + outer v₂ w := by
  simp only [outer, add_def, smul_add]

theorem outer_apply (m : Mat3 K) (v w : Vec3 K) : outer (m.apply v) w = m * outer v w := by
  simp only [outer, mul_def, apply_smul]

theorem axial_outer (v w : Vec3 K) : (outer v w).axial = w.cross v := by
  simp only [axial, outer, Vec3.cross, Vec3.smul_def, Vec3.mk.injEq]
  refine ⟨?_, ?_, ?_⟩ <;> ring

/-- The moment of a linear field about its center. -/
theorem cross_apply_self (m : Mat3 K) (v : Vec3 K) :
    v.cross (m.apply v) = (m * outer v v).axial := by
  simp only [axial, outer, mul_def, apply, Vec3.cross, Vec3.add_def, Vec3.smul_def, Vec3.mk.injEq]
  refine ⟨?_, ?_, ?_⟩ <;> ring

end Mat3
end MaterialPoint
