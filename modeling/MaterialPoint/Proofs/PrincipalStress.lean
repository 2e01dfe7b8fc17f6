import MaterialPoint.Proofs.Inversion

/-! Principal stresses. Without stress there is no stretch, as shear and pressure never balance
along all axes. -/
namespace MaterialPoint
open scoped Exact

variable {K : Type} [Field K] [LinearOrder K] [IsStrictOrderedRing K] [FloorRing K]

/-- The stress along a singular vector at singular value `s`: shear against the stretch, and
pressure. -/
def principalStress (shear pressure s : K) : K := shear * (s - 1) * s + pressure

theorem diagonal_principalStress (shear pressure : K) (sigma : Vec3 K) :
    Mat3.diagonal (sigma.map (principalStress shear pressure)) =
      shear • (Mat3.diagonal sigma * Mat3.diagonal sigma - Mat3.diagonal sigma) +
        pressure • (1 : Mat3 K) := by
  rw [Mat3.diagonal_mul_diagonal]
  ext <;> simp only [Mat3.add_def, Mat3.sub_def, Mat3.smul_def, Mat3.one_def, Mat3.diagonal,
    Vec3.add_def, Vec3.sub_def, Vec3.smul_def, Vec3.zipWith, Vec3.map, principalStress] <;> ring

theorem corotatedStress_recompose {d : Svd K} (hu : d.u.IsOrthogonal) (hv : d.v.IsOrthogonal)
    (sigma : Vec3 K) (j mu lambda : K) :
    corotatedStress (d.recompose sigma) d.rotation j mu lambda =
      d.u * Mat3.diagonal (sigma.map (principalStress (2 * mu) (lambda * j * (j - 1)))) *
        d.u.transpose := by
  have htwo : (2.0 : K) = 2 := by norm_num
  change (2.0 * mu) • _ + _ = _
  rw [htwo, Svd.recompose_sub_rotation_mul hv, diagonal_principalStress, mul_add, add_mul,
    mul_smul_comm, mul_smul_comm, smul_mul_assoc, smul_mul_assoc, mul_one, hu.mul_transpose]

section Balance
variable {shear lambda : K} (hshear : 0 < shear) (hlambda : 0 ≤ lambda)
include hshear hlambda

/-- Where shear balances pressure, a singular value is on the other side of one than the ratio of
volume. -/
theorem nonneg_of_principalStress_eq_zero {j s : K} (hj : 0 < j) (hs : 0 < s)
    (h : principalStress shear (lambda * j * (j - 1)) s = 0) : 0 ≤ (s - 1) * (1 - j) := by
  have hbalance : shear * s * ((s - 1) * (1 - j)) = lambda * j * ((1 - j) * (1 - j)) := by
    rw [principalStress] at h
    linear_combination (1 - j) * h
  have hnonneg : 0 ≤ shear * s * ((s - 1) * (1 - j)) := by
    rw [hbalance]
    exact mul_nonneg (mul_nonneg hlambda hj.le) (mul_self_nonneg _)
  exact nonneg_of_mul_nonneg_right hnonneg (mul_pos hshear hs)

/-- Not all singular values can be on the other side of one than their product. -/
theorem eq_splat_one_of_principalStress {sigma : Vec3 K}
    (hpos : 0 < sigma.x ∧ 0 < sigma.y ∧ 0 < sigma.z)
    (h : sigma.map (principalStress shear (lambda * sigma.product * (sigma.product - 1))) = 0) :
    sigma = Vec3.splat 1 := by
  obtain ⟨hx, hy, hz⟩ := hpos
  have hj : 0 < sigma.product := mul_pos (mul_pos hx hy) hz
  have hside {s : K} (hs : 0 < s)
      (h0 : principalStress shear (lambda * sigma.product * (sigma.product - 1)) s = 0) :=
    nonneg_of_principalStress_eq_zero hshear hlambda hj hs h0
  have hx' := hside hx (congrArg (·.x) h)
  have hy' := hside hy (congrArg (·.y) h)
  have hz' := hside hz (congrArg (·.z) h)
  -- Below one the pressure pulls, so that every stretch has to push, and above one the other way.
  rcases lt_trichotomy sigma.product 1 with hlt | heq | hgt
  · have hge {s : K} (hs : 0 ≤ (s - 1) * (1 - sigma.product)) : 1 ≤ s :=
      sub_nonneg.mp (nonneg_of_mul_nonneg_left hs (sub_pos.mpr hlt))
    have hproduct : 1 ≤ sigma.product :=
      one_le_mul_of_one_le_of_one_le (one_le_mul_of_one_le_of_one_le (hge hx') (hge hy')) (hge hz')
    exact absurd hlt hproduct.not_gt
  · have hone {s : K} (hs : 0 < s)
        (h0 : shear * (s - 1) * s + lambda * 1 * (1 - 1) = 0) : s = 1 := by
      rw [sub_self, mul_zero, add_zero] at h0
      have hstretch := (mul_eq_zero.mp h0).resolve_right hs.ne'
      exact sub_eq_zero.mp ((mul_eq_zero.mp hstretch).resolve_left hshear.ne')
    rw [heq] at h
    exact Vec3.ext (hone hx (congrArg (·.x) h)) (hone hy (congrArg (·.y) h))
      (hone hz (congrArg (·.z) h))
  · have hle {s : K} (hs : 0 ≤ (s - 1) * (1 - sigma.product)) : s ≤ 1 :=
      sub_nonpos.mp (nonpos_of_mul_nonneg_left hs (sub_neg.mpr hgt))
    have hproduct : sigma.product ≤ 1 :=
      mul_le_one₀ (mul_le_one₀ (hle hx') hy.le (hle hy')) hz.le (hle hz')
    exact absurd hgt hproduct.not_gt

end Balance

theorem map_principalStress_one (shear lambda : K) :
    let one : Vec3 K := Vec3.splat 1
    one.map (principalStress shear (lambda * one.product * (one.product - 1))) = 0 := by
  have hone : principalStress shear (lambda * (1 * 1 * 1) * (1 * 1 * 1 - 1)) 1 = 0 := by
    rw [principalStress]
    ring
  exact Vec3.ext hone hone hone

namespace Material

def held (m : Material) (sigma : Vec3 K) : Vec3 K :=
  match m with
  | snow => Snow.yield sigma
  | water | jelly => sigma

variable {d : Svd K} {f : Mat3 K}

theorem held_pos (m : Material) (hd : d.IsExact f) (hf : f.det ≠ 0) :
    0 < (m.held d.sigma).x ∧ 0 < (m.held d.sigma).y ∧ 0 < (m.held d.sigma).z := by
  have hsigma : 0 < d.sigma.x ∧ 0 < d.sigma.y ∧ 0 < d.sigma.z := by
    obtain ⟨hx, hy, hz⟩ := hd.sigma_nonneg
    obtain ⟨hx0, hy0, hz0⟩ := hd.sigma_ne_zero hf
    exact ⟨hx.lt_of_ne' hx0, hy.lt_of_ne' hy0, hz.lt_of_ne' hz0⟩
  cases m with
  | water => exact hsigma
  | jelly => exact hsigma
  | snow => exact ⟨Snow.yieldValue_pos _, Snow.yieldValue_pos _, Snow.yieldValue_pos _⟩

/-- A material at rest holds its singular values, and holds no others as if it were. -/
theorem held_eq_one_iff (m : Material) (sigma : Vec3 K) :
    m.held sigma = Vec3.splat 1 ↔ sigma = Vec3.splat 1 := by
  cases m with
  | water => rfl
  | jelly => rfl
  | snow =>
    change sigma.map Snow.yieldValue = Vec3.splat 1 ↔ sigma = Vec3.splat 1
    simp only [Vec3.ext_iff, Vec3.map, Vec3.splat, Snow.yieldValue_eq_one_iff]

variable [Exponential K]

theorem hardening_pos (hexp : ∀ x : K, 0 < Exponential.exp x) (m : Material) (p : K) :
    0 < m.hardening p := by
  cases m with
  | water => exact hexp _
  | jelly =>
    change (0 : K) < 0.3
    norm_num
  | snow => exact hexp _

theorem stress_respondTo_of_solid {m : Material} (hm : m.isFluid = false) (hd : d.IsExact f)
    (p mu lambda : K) :
    let s := m.held d.sigma
    let j := s.product
    (m.respondTo d f p mu lambda).stress =
      d.u * Mat3.diagonal (s.map (principalStress (2 * (mu * m.hardening p))
        (lambda * m.hardening p * j * (j - 1)))) * d.u.transpose := by
  intro s j
  rw [← corotatedStress_recompose hd.orthogonal_u hd.orthogonal_v]
  cases m with
  | water => cases hm
  | jelly =>
    have hf : d.recompose s = f := hd.recompose_sigma
    rw [hf]
    rfl
  | snow => rfl

theorem stress_respondTo_eq_zero_iff (hexp : ∀ x : K, 0 < Exponential.exp x) {m : Material}
    (hm : m.isFluid = false) (hd : d.IsExact f) (hf : f.det ≠ 0) (p : K) {mu lambda : K}
    (hmu : 0 < mu) (hlambda : 0 ≤ lambda) :
    (m.respondTo d f p mu lambda).stress = 0 ↔ f.IsOrthogonal := by
  have hh : 0 < m.hardening p := m.hardening_pos hexp p
  have hzero : (0 : Mat3 K) = d.u * Mat3.diagonal 0 * d.u.transpose := by
    rw [Mat3.diagonal_zero, mul_zero, zero_mul]
  rw [stress_respondTo_of_solid hm hd, hzero, hd.orthogonal_u.conjugate_inj,
    Mat3.diagonal_injective.eq_iff, hd.isOrthogonal_iff, ← m.held_eq_one_iff]
  constructor
  · exact eq_splat_one_of_principalStress (mul_pos two_pos (mul_pos hmu hh))
      (mul_nonneg hlambda hh.le) (m.held_pos hd hf)
  · intro hrest
    rw [hrest]
    exact map_principalStress_one _ _

/-- The stress is symmetric, acts along the left singular vectors, and vanishes in solids only at
rest. -/
theorem stress_respondTo (m : Material) (hd : d.IsExact f) (p mu lambda : K) :
    let r := m.respondTo d f p mu lambda
    let s := m.held d.sigma
    let j := s.product
    let mu' := mu * m.hardening p
    let lambda' := lambda * m.hardening p
    r.stress = (if m.isFluid then (lambda' * j * (j - 1)) • (1 : Mat3 K)
      else d.u * Mat3.diagonal (s.map (principalStress (2 * mu') (lambda' * j * (j - 1)))) *
        d.u.transpose) ∧
    r.stress.transpose = r.stress ∧
    ((∀ x : K, 0 < Exponential.exp x) → m.isFluid = false → 0 < mu → 0 ≤ lambda → f.det ≠ 0 →
      (r.stress = 0 ↔ f.IsOrthogonal)) := by
  intro r s j mu' lambda'
  refine ⟨?_, m.transpose_stress_respondTo hd p mu lambda, fun hexp hm hmu hlambda hf =>
    stress_respondTo_eq_zero_iff hexp hm hd hf p hmu hlambda⟩
  cases hm : m.isFluid with
  | true =>
    cases m with
    | water => exact corotatedStress_zero ..
    | jelly => cases hm
    | snow => cases hm
  | false => exact stress_respondTo_of_solid hm hd p mu lambda

end Material

open scoped Mirror

/-- Snow that is stretched, compressed and turned, and jelly that is only turned. -/
theorem Material.stress_respondTo_turned :
    let w : Mat3 ℚ := ⟨⟨3 / 5, 4 / 5, 0⟩, ⟨-4 / 5, 3 / 5, 0⟩, ⟨0, 0, 1⟩⟩
    let f := w * Mat3.diagonal ⟨11 / 10, 1, 9 / 10⟩
    let r := snow.respondTo ⟨w, ⟨11 / 10, 1, 9 / 10⟩, 1⟩ f 1 2 3
    let j : ℚ := 1.0045 * 0.975
    let pressure := 3 * j * (j - 1)
    r.stress = w * Mat3.diagonal ⟨4 * 0.0045 * 1.0045 + pressure, pressure,
      4 * -0.025 * 0.975 + pressure⟩ * w.transpose ∧
    r.stress.transpose = r.stress ∧ r.stress ≠ 0 ∧
    (jelly.respondTo ⟨w, Vec3.splat 1, 1⟩ w 1 2 3).stress = 0 := by
  intro w f r j pressure
  have hw : w.transpose * w = 1 := by decide +kernel
  have hsnow : (⟨w, ⟨11 / 10, 1, 9 / 10⟩, 1⟩ : Svd ℚ).IsExact f :=
    ⟨hw, Mat3.isOrthogonal_one, by decide +kernel, by decide +kernel⟩
  have hjelly : (⟨w, Vec3.splat 1, 1⟩ : Svd ℚ).IsExact w :=
    ⟨hw, Mat3.isOrthogonal_one, by decide +kernel, by decide +kernel⟩
  have hexp (x : ℚ) : 0 < Exponential.exp x := one_pos
  obtain ⟨hstress, hsymm, hzero⟩ := stress_respondTo snow hsnow 1 2 3
  refine ⟨hstress.trans (by decide +kernel), hsymm, fun h0 => ?_, ?_⟩
  · have hf : f.IsOrthogonal :=
      (hzero hexp rfl (by norm_num) (by norm_num) (by decide +kernel)).mp h0
    exact absurd hf (by rw [Mat3.IsOrthogonal]; decide +kernel)
  · exact ((stress_respondTo jelly hjelly 1 2 3).2.2 hexp rfl (by norm_num) (by norm_num)
      (by decide +kernel)).mpr hw

end MaterialPoint
