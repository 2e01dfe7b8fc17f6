import MaterialPoint.Proofs.Isotropy

/-! The two horizontal axes swapped, in vectors, matrices and what materials make of a
deformation. -/
namespace MaterialPoint
open scoped Exact

namespace Vec3
variable {R : Type}

/-- The first component for the third, and the third for the first. -/
def swap (v : Vec3 R) : Vec3 R := ⟨v.z, v.y, v.x⟩

theorem swap_inj {v w : Vec3 R} : v.swap = w.swap ↔ v = w :=
  ⟨fun h => congrArg swap h, fun h => congrArg swap h⟩

end Vec3

/-- The matrix between swapped vectors: rows and columns change places alike. -/
def Mat3.swap {R : Type} (m : Mat3 R) : Mat3 R := ⟨m.z.swap, m.y.swap, m.x.swap⟩

variable {K : Type} [Field K] [LinearOrder K] [IsStrictOrderedRing K] [FloorRing K]

namespace Vec3

@[simp] theorem swap_zero : (0 : Vec3 K).swap = 0 := rfl

theorem swap_add (v w : Vec3 K) : (v + w).swap = v.swap + w.swap := rfl

theorem swap_smul (a : K) (v : Vec3 K) : (a • v).swap = a • v.swap := rfl

end Vec3

namespace Mat3

@[simp] theorem swap_zero : (0 : Mat3 K).swap = 0 := rfl

@[simp] theorem swap_one : (1 : Mat3 K).swap = 1 := rfl

theorem swap_add (m n : Mat3 K) : (m + n).swap = m.swap + n.swap := rfl

theorem swap_smul (a : K) (m : Mat3 K) : (a • m).swap = a • m.swap := rfl

theorem swap_outer (v w : Vec3 K) : (outer v w).swap = outer v.swap w.swap := rfl

theorem swap_apply (m : Mat3 K) (v : Vec3 K) : m.swap.apply v.swap = (m.apply v).swap := by
  ext <;> simp only [apply, swap, Vec3.swap, Vec3.add_def, Vec3.smul_def] <;> ring

theorem swap_mul (m n : Mat3 K) : (m * n).swap = m.swap * n.swap := by
  simp only [mul_def, swap, ← swap_apply]

def exchanger : Mat3 K := ⟨⟨0, 0, 1⟩, ⟨0, 1, 0⟩, ⟨1, 0, 0⟩⟩

theorem isOrthogonal_exchanger : (exchanger : Mat3 K).IsOrthogonal := by
  simp [IsOrthogonal, exchanger, transpose, mul_def, apply_def, one_def]

theorem swap_eq (m : Mat3 K) : m.swap = exchanger * m * exchanger := by
  simp [swap, Vec3.swap, exchanger, mul_def, apply_def, Vec3.smul_def, Vec3.add_def]

theorem det_swap (m : Mat3 K) : m.swap.det = m.det := by
  simp only [det, swap, Vec3.swap, Vec3.dot, Vec3.cross]
  ring

end Mat3

namespace Svd.IsExact
variable {d e : Svd K} {f : Mat3 K}

theorem transpose (hd : d.IsExact f) : (⟨d.v, d.sigma, d.u⟩ : Svd K).IsExact f.transpose where
  orthogonal_u := hd.orthogonal_v
  orthogonal_v := hd.orthogonal_u
  sigma_nonneg := hd.sigma_nonneg
  recompose_sigma := by
    rw [← hd.recompose_sigma, recompose, recompose, Mat3.transpose_mul, Mat3.transpose_mul,
      Mat3.transpose_transpose, Mat3.transpose_diagonal, mul_assoc]

/-- A deformation is a stretch and then a rotation, and the stretch is made of the left singular
vectors. -/
theorem rotation_mul_transpose (hd : d.IsExact f) :
    d.rotation * f.transpose = d.u * Mat3.diagonal d.sigma * d.u.transpose := by
  calc d.rotation * f.transpose
      = d.u * (f * d.v).transpose := by rw [rotation, Mat3.transpose_mul, mul_assoc]
    _ = d.u * Mat3.diagonal d.sigma * d.u.transpose := by
        rw [hd.mul_v, Mat3.transpose_mul, Mat3.transpose_diagonal, mul_assoc]

theorem rotation_mul_transpose_eq (hd : d.IsExact f) (he : e.IsExact f) :
    e.rotation * f.transpose = d.rotation * f.transpose := by
  have hmap : e.u.transpose * d.u * Mat3.diagonal d.sigma =
      Mat3.diagonal e.sigma * (e.u.transpose * d.u) := hd.transpose.mul_diagonal_map he.transpose id
  have hdu : d.u * d.u.transpose = 1 := hd.orthogonal_u.mul_transpose
  have heu : e.u * e.u.transpose = 1 := he.orthogonal_u.mul_transpose
  calc e.rotation * f.transpose
      = e.u * (Mat3.diagonal e.sigma * (e.u.transpose * d.u)) * d.u.transpose := by
        simp only [he.rotation_mul_transpose, mul_assoc, hdu, mul_one]
    _ = e.u * e.u.transpose * (d.u * Mat3.diagonal d.sigma * d.u.transpose) := by
        rw [← hmap]
        noncomm_ring
    _ = d.rotation * f.transpose := by rw [heu, one_mul, hd.rotation_mul_transpose]

end Svd.IsExact

namespace Material

/-- What stands for a deformation where the axes are swapped. In water only the ratio of volume
counts. -/
def IsSwapped (f g : Mat3 K) : Material → Prop
  | water => g.det = f.det
  | jelly | snow => g = f.swap

theorem isSwapped_swap (m : Material) (f : Mat3 K) : m.IsSwapped f f.swap := by
  cases m with
  | water => exact f.det_swap
  | jelly => rfl
  | snow => rfl

theorem IsSwapped.det_eq {m : Material} {f g : Mat3 K} (h : m.IsSwapped f g) : g.det = f.det := by
  cases m with
  | water => exact h
  | jelly => exact (congrArg Mat3.det h).trans f.det_swap
  | snow => exact (congrArg Mat3.det h).trans f.det_swap

/-- The axes may be swapped before or after a deformation goes on. -/
theorem IsSwapped.mul {m : Material} {f g : Mat3 K} (h : m.IsSwapped f g) (a : Mat3 K) :
    m.IsSwapped (a * f) (a.swap * g) := by
  cases m with
  | water =>
    change (a.swap * g).det = (a * f).det
    rw [Mat3.det_mul, Mat3.det_mul, a.det_swap, h.det_eq]
  | jelly => exact (congrArg (a.swap * ·) h).trans (Mat3.swap_mul a f).symm
  | snow => exact (congrArg (a.swap * ·) h).trans (Mat3.swap_mul a f).symm

variable [Exponential K]

theorem respondTo_water_eq {d e : Svd K} {f g : Mat3 K} (hd : d.IsExact f) (he : e.IsExact g)
    (h : g.det = f.det) (p mu lambda : K) :
    water.respondTo e g p mu lambda = water.respondTo d f p mu lambda := by
  have hproduct : e.sigma.product = d.sigma.product := by rw [he.product_sigma, hd.product_sigma, h]
  simp only [respondTo, isFluid, if_true, corotatedStress_zero, hproduct]

theorem respondTo_jelly_eq {d e : Svd K} {f : Mat3 K} (hd : d.IsExact f) (he : e.IsExact f)
    (p mu lambda : K) : jelly.respondTo e f p mu lambda = jelly.respondTo d f p mu lambda := by
  have hproduct : e.sigma.product = d.sigma.product := by rw [he.product_sigma, hd.product_sigma]
  have hshear : (f - e.rotation) * f.transpose = (f - d.rotation) * f.transpose := by
    rw [sub_mul, sub_mul, hd.rotation_mul_transpose_eq he]
  simp only [respondTo, corotatedStress, hproduct, hshear]

/-- Jelly and snow respond to a swapped deformation with all that they respond with, swapped. -/
theorem respondTo_swap {m : Material} (hm : m.isFluid = false) {d e : Svd K} {f : Mat3 K}
    (hsnow : m = snow → f.det ≠ 0) (hd : d.IsExact f) (he : e.IsExact f.swap) (p mu lambda : K) :
    let r := m.respondTo d f p mu lambda
    m.respondTo e f.swap p mu lambda = ⟨r.stress.swap, r.deformation.swap, r.plasticity⟩ := by
  intro r
  have hq : (Mat3.exchanger : Mat3 K).IsOrthogonal := Mat3.isOrthogonal_exchanger
  have hturned : m.respondTo (d.rotate Mat3.exchanger Mat3.exchanger) f.swap p mu lambda =
      ⟨r.stress.swap, r.deformation.swap, r.plasticity⟩ := by
    have h := m.respondTo_rotate hq hq d f p mu lambda
    simp only [hm, Bool.false_eq_true, if_false] at h
    rw [← f.swap_eq] at h
    rw [h, r.stress.swap_eq, r.deformation.swap_eq]
    rfl
  have hexact : (d.rotate Mat3.exchanger Mat3.exchanger).IsExact f.swap := by
    rw [f.swap_eq]
    exact hd.rotate hq hq
  rw [← hturned]
  cases m with
  | water => cases hm
  | jelly => exact respondTo_jelly_eq hexact he p mu lambda
  | snow => exact snow.respondTo_eq (f.det_swap.trans_ne (hsnow rfl)) hexact he p mu lambda

/-- A material makes of a swapped deformation what it makes of the deformation, swapped. Snow needs
a deformation with an inverse. -/
theorem respond_swap [SingularValues K] (hsvd : SingularValues.IsExact K) {m : Material}
    {f g : Mat3 K} (hf : (SingularValues.decompose? f).isSome)
    (hg : (SingularValues.decompose? g).isSome) (hsnow : m = snow → f.det ≠ 0)
    (h : m.IsSwapped f g) (p mu lambda : K) :
    let r := m.respond f p mu lambda
    let s := m.respond g p mu lambda
    s.stress = r.stress.swap ∧ s.plasticity = r.plasticity ∧
      m.IsSwapped r.deformation s.deformation := by
  obtain ⟨d, hd⟩ := Option.isSome_iff_exists.mp hf
  obtain ⟨e, he⟩ := Option.isSome_iff_exists.mp hg
  have hexact := hsvd f d hd
  have hexact' := hsvd g e he
  simp only [respond, hd, he]
  cases m with
  | water =>
    rw [respondTo_water_eq hexact hexact' h]
    simp only [respondTo, isFluid, if_true, corotatedStress_zero, Mat3.swap_smul, Mat3.swap_one,
      true_and]
    rfl
  | jelly =>
    obtain rfl : g = f.swap := h
    rw [respondTo_swap rfl hsnow hexact hexact']
    exact ⟨rfl, rfl, rfl⟩
  | snow =>
    obtain rfl : g = f.swap := h
    rw [respondTo_swap rfl hsnow hexact hexact']
    exact ⟨rfl, rfl, rfl⟩

end Material
end MaterialPoint
