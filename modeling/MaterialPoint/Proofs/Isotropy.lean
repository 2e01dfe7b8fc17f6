import MaterialPoint.Proofs.Determinant
import MaterialPoint.Proofs.Drift

/-! Isotropy and frame indifference. Exact decompositions agree in all that a material makes of
them. -/
namespace MaterialPoint
open scoped Exact Drift

variable {K : Type} [Field K] [LinearOrder K] [IsStrictOrderedRing K] [FloorRing K]

namespace Mat3

/-- Diagonals whose squares are related have all their functions related alike. -/
theorem mul_diagonal_map {w : Mat3 K} {a b : Vec3 K} (ha : 0 ≤ a.x ∧ 0 ≤ a.y ∧ 0 ≤ a.z)
    (hb : 0 ≤ b.x ∧ 0 ≤ b.y ∧ 0 ≤ b.z)
    (h : w * (diagonal a * diagonal a) = diagonal b * diagonal b * w) (g : K → K) :
    w * diagonal (a.map g) = diagonal (b.map g) * w := by
  have key {e s t : K} (hs : 0 ≤ s) (ht : 0 ≤ t) (he : e * (s * s) = t * t * e) :
      e * g s = g t * e := by
    rcases eq_or_ne e 0 with rfl | h0
    · rw [mul_zero, zero_mul]
    · have hst : s * s = t * t := mul_right_cancel₀ h0 ((mul_comm _ _).trans he)
      rw [(mul_self_inj hs ht).mp hst, mul_comm]
  obtain ⟨hax, hay, haz⟩ := ha
  obtain ⟨hbx, hby, hbz⟩ := hb
  simp only [mul_def, apply_def, diagonal, Vec3.smul_def, Vec3.add_def, Vec3.map, Mat3.mk.injEq,
    Vec3.mk.injEq, mul_zero, zero_mul, add_zero, zero_add] at h ⊢
  obtain ⟨⟨hxx, hxy, hxz⟩, ⟨hyx, hyy, hyz⟩, hzx, hzy, hzz⟩ := h
  exact ⟨⟨key hax hbx hxx, key hax hby hxy, key hax hbz hxz⟩,
    ⟨key hay hbx hyx, key hay hby hyy, key hay hbz hyz⟩, key haz hbx hzx, key haz hby hzy,
    key haz hbz hzz⟩

end Mat3

namespace Svd

/-- The decomposition of a matrix that is turned before and after. -/
def rotate (q r : Mat3 K) (d : Svd K) : Svd K := ⟨q * d.u, d.sigma, r.transpose * d.v⟩

theorem recompose_rotate (q r : Mat3 K) (d : Svd K) (sigma : Vec3 K) :
    (d.rotate q r).recompose sigma = q * d.recompose sigma * r := by
  simp only [recompose, rotate, Mat3.transpose_mul, Mat3.transpose_transpose, mul_assoc]

/-- The rotation is what is made when every singular value is replaced by one. -/
theorem recompose_one (d : Svd K) : d.recompose (d.sigma.map fun _ => 1) = d.rotation := by
  have h1 : Mat3.diagonal (d.sigma.map fun _ => (1 : K)) = 1 := rfl
  rw [recompose, h1, mul_one, rotation]

theorem det_recompose (d : Svd K) (sigma : Vec3 K) :
    (d.recompose sigma).det = d.rotation.det * sigma.product := by
  rw [recompose, rotation, Mat3.det_mul, Mat3.det_mul, Mat3.det_mul, Mat3.det_diagonal]
  ring

namespace IsExact
variable {d e : Svd K} {f q r : Mat3 K}

theorem isOrthogonal_rotation (hd : d.IsExact f) : d.rotation.IsOrthogonal :=
  hd.orthogonal_u.mul hd.orthogonal_v.transpose

theorem replace_sigma (hd : d.IsExact f) {sigma : Vec3 K}
    (h : 0 ≤ sigma.x ∧ 0 ≤ sigma.y ∧ 0 ≤ sigma.z) :
    (⟨d.u, sigma, d.v⟩ : Svd K).IsExact (d.recompose sigma) :=
  ⟨hd.orthogonal_u, hd.orthogonal_v, h, rfl⟩

theorem rotate (hq : q.IsOrthogonal) (hr : r.IsOrthogonal) (hd : d.IsExact f) :
    (d.rotate q r).IsExact (q * f * r) where
  orthogonal_u := hq.mul hd.orthogonal_u
  orthogonal_v := hr.transpose.mul hd.orthogonal_v
  sigma_nonneg := hd.sigma_nonneg
  recompose_sigma := by
    have h := recompose_rotate q r d d.sigma
    rwa [hd.recompose_sigma] at h

theorem mul_v (hd : d.IsExact f) : f * d.v = d.u * Mat3.diagonal d.sigma := by
  rw [← hd.recompose_sigma, recompose, mul_assoc, hd.orthogonal_v, mul_one]

theorem transpose_mul_self (hd : d.IsExact f) :
    f.transpose * f = d.v * (Mat3.diagonal d.sigma * Mat3.diagonal d.sigma) * d.v.transpose := by
  have hu : d.u.transpose * d.u = 1 := hd.orthogonal_u
  calc f.transpose * f
      = d.v * Mat3.diagonal d.sigma * (d.u.transpose * d.u) * Mat3.diagonal d.sigma *
          d.v.transpose := by
        rw [← hd.recompose_sigma, recompose, Mat3.transpose_mul, Mat3.transpose_mul,
          Mat3.transpose_transpose, Mat3.transpose_diagonal]
        noncomm_ring
    _ = d.v * (Mat3.diagonal d.sigma * Mat3.diagonal d.sigma) * d.v.transpose := by
        rw [hu, mul_one, mul_assoc d.v]

theorem det_eq (hd : d.IsExact f) : f.det = d.rotation.det * d.sigma.product := by
  rw [← det_recompose, hd.recompose_sigma]

theorem product_sigma_nonneg (hd : d.IsExact f) : 0 ≤ d.sigma.product := by
  obtain ⟨hx, hy, hz⟩ := hd.sigma_nonneg
  exact mul_nonneg (mul_nonneg hx hy) hz

theorem product_sigma (hd : d.IsExact f) : d.sigma.product = |f.det| := by
  have hrotation : |d.rotation.det| = 1 :=
    (abs_eq zero_le_one).mpr (mul_self_eq_one_iff.mp hd.isOrthogonal_rotation.det_mul_self)
  rw [hd.det_eq, abs_mul, hrotation, one_mul, abs_of_nonneg hd.product_sigma_nonneg]

theorem isOrthogonal_iff (hd : d.IsExact f) : f.IsOrthogonal ↔ d.sigma = Vec3.splat 1 := by
  constructor
  · intro hf
    have hsquare : d.v * (Mat3.diagonal d.sigma * Mat3.diagonal d.sigma) * d.v.transpose =
        d.v * 1 * d.v.transpose := by
      rw [← hd.transpose_mul_self, hf, mul_one, hd.orthogonal_v.mul_transpose]
    rw [hd.orthogonal_v.conjugate_inj, Mat3.diagonal_mul_diagonal,
      ← Mat3.diagonal_splat_one] at hsquare
    have hsquare := Mat3.diagonal_injective hsquare
    have hroot {a : K} (ha : 0 ≤ a) (h : a * a = 1) : a = 1 :=
      (mul_self_eq_one_iff.mp h).resolve_right fun hneg => by linarith
    obtain ⟨hx, hy, hz⟩ := hd.sigma_nonneg
    exact Vec3.ext (hroot hx (congrArg (·.x) hsquare)) (hroot hy (congrArg (·.y) hsquare))
      (hroot hz (congrArg (·.z) hsquare))
  · intro h
    have hf : d.rotation = f := by
      rw [← hd.recompose_sigma, h, recompose, Mat3.diagonal_splat_one, mul_one, rotation]
    exact hf ▸ hd.isOrthogonal_rotation

/-- The right singular vectors of two decompositions turn all functions of the singular values into
each other. -/
theorem mul_diagonal_map (hd : d.IsExact f) (he : e.IsExact f) (g : K → K) :
    e.v.transpose * d.v * Mat3.diagonal (d.sigma.map g) =
      Mat3.diagonal (e.sigma.map g) * (e.v.transpose * d.v) := by
  refine Mat3.mul_diagonal_map hd.sigma_nonneg he.sigma_nonneg ?_ g
  have hdv : d.v.transpose * d.v = 1 := hd.orthogonal_v
  have hev : e.v.transpose * e.v = 1 := he.orthogonal_v
  calc e.v.transpose * d.v * (Mat3.diagonal d.sigma * Mat3.diagonal d.sigma)
      = e.v.transpose * (d.v * (Mat3.diagonal d.sigma * Mat3.diagonal d.sigma) *
          d.v.transpose) * d.v := by
        simp only [mul_assoc, hdv, mul_one]
    _ = e.v.transpose * (f.transpose * f) * d.v := by rw [hd.transpose_mul_self]
    _ = (e.v.transpose * e.v) * (Mat3.diagonal e.sigma * Mat3.diagonal e.sigma) *
          (e.v.transpose * d.v) := by
        rw [he.transpose_mul_self]
        noncomm_ring
    _ = Mat3.diagonal e.sigma * Mat3.diagonal e.sigma * (e.v.transpose * d.v) := by
        rw [hev, one_mul]

theorem map_sigma_eq_self (hd : d.IsExact f) (he : e.IsExact f) {g : K → K}
    (h : d.sigma.map g = d.sigma) : e.sigma.map g = e.sigma := by
  have hw : (e.v.transpose * d.v).IsOrthogonal := he.orthogonal_v.transpose.mul hd.orthogonal_v
  have hid (v : Vec3 K) : v.map id = v := rfl
  have hdiagonal : Mat3.diagonal (e.sigma.map g) = Mat3.diagonal e.sigma := by
    refine hw.mul_right_cancel ?_
    calc Mat3.diagonal (e.sigma.map g) * (e.v.transpose * d.v)
        = e.v.transpose * d.v * Mat3.diagonal (d.sigma.map id) := by
          rw [← hd.mul_diagonal_map he, h, hid]
      _ = Mat3.diagonal e.sigma * (e.v.transpose * d.v) := by rw [hd.mul_diagonal_map he, hid]
  exact Mat3.diagonal_injective hdiagonal

theorem sigma_ne_zero (hd : d.IsExact f) (hf : f.det ≠ 0) :
    d.sigma.x ≠ 0 ∧ d.sigma.y ≠ 0 ∧ d.sigma.z ≠ 0 := by
  rw [hd.det_eq, Vec3.product] at hf
  simpa [mul_ne_zero_iff, and_assoc] using (mul_ne_zero_iff.mp hf).2

/-- The left singular vectors of two decompositions turn into each other as the right ones do. -/
theorem u_mul (hd : d.IsExact f) (he : e.IsExact f) (hf : f.det ≠ 0) :
    e.u * (e.v.transpose * d.v) = d.u := by
  obtain ⟨hx, hy, hz⟩ := hd.sigma_ne_zero hf
  have hinv : Mat3.diagonal d.sigma * Mat3.diagonal (d.sigma.map (·⁻¹)) = 1 := by
    simp [Mat3.mul_def, Mat3.apply_def, Mat3.diagonal, Vec3.smul_def, Vec3.map, Mat3.one_def,
      hx, hy, hz]
  have hswap := hd.mul_diagonal_map he id
  have hv : e.v * e.v.transpose = 1 := he.orthogonal_v.mul_transpose
  have hid (v : Vec3 K) : v.map id = v := rfl
  rw [hid, hid] at hswap
  have h : e.u * (e.v.transpose * d.v) * Mat3.diagonal d.sigma = d.u * Mat3.diagonal d.sigma := by
    calc e.u * (e.v.transpose * d.v) * Mat3.diagonal d.sigma
        = e.u * Mat3.diagonal e.sigma * (e.v.transpose * d.v) := by
          rw [mul_assoc, hswap, mul_assoc]
      _ = f * (e.v * e.v.transpose) * d.v := by
          rw [← he.mul_v]
          noncomm_ring
      _ = d.u * Mat3.diagonal d.sigma := by rw [hv, mul_one, hd.mul_v]
  calc e.u * (e.v.transpose * d.v)
      = e.u * (e.v.transpose * d.v) * Mat3.diagonal d.sigma *
          Mat3.diagonal (d.sigma.map (·⁻¹)) := by
        rw [mul_assoc _ _ (Mat3.diagonal _), hinv, mul_one]
    _ = d.u := by rw [h, mul_assoc, hinv, mul_one]

/-- Exact decompositions of an invertible matrix make the same matrix from a function of the
singular values. -/
theorem recompose_map_eq (hd : d.IsExact f) (he : e.IsExact f) (hf : f.det ≠ 0) (g : K → K) :
    e.recompose (e.sigma.map g) = d.recompose (d.sigma.map g) := by
  have hv : d.v * d.v.transpose = 1 := hd.orthogonal_v.mul_transpose
  calc e.recompose (e.sigma.map g)
      = e.u * (Mat3.diagonal (e.sigma.map g) * (e.v.transpose * d.v)) * d.v.transpose := by
        simp only [recompose, mul_assoc, hv, mul_one]
    _ = e.u * (e.v.transpose * d.v) * Mat3.diagonal (d.sigma.map g) * d.v.transpose := by
        rw [← hd.mul_diagonal_map he, ← mul_assoc e.u]
    _ = d.recompose (d.sigma.map g) := by rw [hd.u_mul he hf, recompose]

theorem rotation_eq (hd : d.IsExact f) (he : e.IsExact f) (hf : f.det ≠ 0) :
    e.rotation = d.rotation := by
  rw [← recompose_one, ← recompose_one, hd.recompose_map_eq he hf]

theorem product_eq (hd : d.IsExact f) (sigma : Vec3 K) :
    sigma.product = d.rotation.det * (d.recompose sigma).det := by
  rw [det_recompose, ← mul_assoc, hd.isOrthogonal_rotation.det_mul_self, one_mul]

theorem product_map_eq (hd : d.IsExact f) (he : e.IsExact f) (hf : f.det ≠ 0) (g : K → K) :
    (e.sigma.map g).product = (d.sigma.map g).product := by
  rw [he.product_eq, hd.product_eq, hd.rotation_eq he hf, hd.recompose_map_eq he hf]

end IsExact
end Svd

/-- The nearest elastic singular value of snow to one that it has. -/
def Snow.yieldValue (s : K) : K := Scalar.least (Scalar.greatest s leastStretch) greatestStretch

theorem Snow.yield_eq_map (sigma : Vec3 K) : yield sigma = sigma.map yieldValue := rfl

theorem Snow.leastStretch_eq : (leastStretch : K) = 0.975 := by
  change (1 : K) - 2.5e-2 = 0.975
  norm_num

theorem Snow.greatestStretch_eq : (greatestStretch : K) = 1.0045 := by
  change (1 : K) + 4.5e-3 = 1.0045
  norm_num

theorem Snow.leastStretch_pos : (0 : K) < leastStretch := by
  rw [leastStretch_eq]
  norm_num

theorem Snow.leastStretch_le_greatestStretch : (leastStretch : K) ≤ greatestStretch := by
  rw [leastStretch_eq, greatestStretch_eq]
  norm_num

theorem Snow.yieldValue_eq (s : K) : yieldValue s = min (max s leastStretch) greatestStretch := by
  rw [yieldValue, Exact.greatest_eq_max, Exact.least_eq_min]

theorem Snow.yieldValue_mem (s : K) : yieldValue s ∈ Set.Icc leastStretch greatestStretch := by
  rw [yieldValue_eq]
  exact ⟨le_min (le_max_right _ _) leastStretch_le_greatestStretch, min_le_right _ _⟩

theorem Snow.yieldValue_pos (s : K) : 0 < yieldValue s :=
  leastStretch_pos.trans_le (yieldValue_mem s).1

/-- Snow holds a singular value as it is when it lies in the elastic band. -/
theorem Snow.yieldValue_eq_self_iff {s : K} :
    yieldValue s = s ↔ s ∈ Set.Icc leastStretch greatestStretch := by
  refine ⟨fun h => h ▸ yieldValue_mem s, fun ⟨hlo, hhi⟩ => ?_⟩
  rw [yieldValue_eq, max_eq_left hlo, min_eq_left hhi]

theorem Snow.yieldValue_eq_one_iff {s : K} : yieldValue s = 1 ↔ s = 1 := by
  have hlo : (leastStretch : K) < 1 := by
    rw [leastStretch_eq]
    norm_num
  have hhi : (1 : K) < greatestStretch := by
    rw [greatestStretch_eq]
    norm_num
  constructor
  · intro h
    rw [yieldValue_eq, min_eq_iff] at h
    have hmax := (h.resolve_right fun h => hhi.ne' h.1).1
    exact ((max_eq_iff.mp hmax).resolve_right fun h => hlo.ne h.1).1
  · rintro rfl
    exact yieldValue_eq_self_iff.mpr ⟨hlo.le, hhi.le⟩

theorem Snow.plasticRatio_map (sigma : Vec3 K) : plasticRatio sigma (sigma.map yieldValue) =
    (sigma.map fun s => s / yieldValue s).product := rfl

theorem Water.det_deformation (ratio : K) : (deformation ratio).det = ratio := by
  rw [deformation, Mat3.det_diagonal, Vec3.product, mul_one, mul_one]

/-- Without resistance to shear there is only pressure. -/
theorem corotatedStress_zero (f r : Mat3 K) (j lambda : K) :
    corotatedStress f r j 0 lambda = (lambda * j * (j - 1)) • (1 : Mat3 K) := by
  rw [corotatedStress, mul_zero, zero_smul, zero_add]

theorem corotatedStress_rotate {q r : Mat3 K} (hq : q.IsOrthogonal) (hr : r.IsOrthogonal)
    (f s : Mat3 K) (j mu lambda : K) :
    corotatedStress (q * f * r) (q * s * r) j mu lambda =
      q * corotatedStress f s j mu lambda * q.transpose := by
  have hqq : q * q.transpose = 1 := hq.mul_transpose
  have hrr : r * r.transpose = 1 := hr.mul_transpose
  have hshear : (q * f * r - q * s * r) * (q * f * r).transpose =
      q * ((f - s) * f.transpose) * q.transpose := by
    calc (q * f * r - q * s * r) * (q * f * r).transpose
        = q * (f - s) * (r * r.transpose) * f.transpose * q.transpose := by
          rw [Mat3.transpose_mul, Mat3.transpose_mul]
          noncomm_ring
      _ = q * ((f - s) * f.transpose) * q.transpose := by
          rw [hrr, mul_one, mul_assoc q]
  rw [corotatedStress, corotatedStress, hshear, mul_add, add_mul, mul_smul_comm, mul_smul_comm,
    smul_mul_assoc, smul_mul_assoc, mul_one, hqq]

namespace Material
variable [Exponential K]

theorem respondTo_eq (m : Material) {d e : Svd K} {f : Mat3 K} (hf : f.det ≠ 0) (hd : d.IsExact f)
    (he : e.IsExact f) (p mu lambda : K) :
    m.respondTo e f p mu lambda = m.respondTo d f p mu lambda := by
  have hsigma : e.sigma.product = d.sigma.product := hd.product_map_eq he hf id
  have hrotation := hd.rotation_eq he hf
  cases m with
  | water => simp only [respondTo, hsigma, hrotation]
  | jelly => simp only [respondTo, hsigma, hrotation]
  | snow =>
    simp only [respondTo, Snow.yield_eq_map, Snow.plasticRatio_map, hrotation,
      hd.product_map_eq he hf, hd.recompose_map_eq he hf]

/-- A material makes of a turned deformation what it makes of the deformation, turned. Water keeps
no shape. -/
theorem respondTo_rotate (m : Material) {q r : Mat3 K} (hq : q.IsOrthogonal) (hr : r.IsOrthogonal)
    (d : Svd K) (f : Mat3 K) (p mu lambda : K) :
    let s := m.respondTo d f p mu lambda
    m.respondTo (d.rotate q r) (q * f * r) p mu lambda =
      ⟨q * s.stress * q.transpose, if m.isFluid then s.deformation else q * s.deformation * r,
        s.plasticity⟩ := by
  have hsigma : (d.rotate q r).sigma = d.sigma := rfl
  have hrotation : (d.rotate q r).rotation = q * d.rotation * r := by
    rw [← Svd.recompose_one, Svd.recompose_rotate, hsigma, Svd.recompose_one]
  have hpressure (a : K) : q * (a • (1 : Mat3 K)) * q.transpose = a • 1 := by
    rw [mul_smul_comm, smul_mul_assoc, mul_one, hq.mul_transpose]
  cases m with
  | water =>
    simp only [respondTo, isFluid, if_true, hsigma, corotatedStress_zero, hpressure]
  | jelly =>
    simp only [respondTo, isFluid, Bool.false_eq_true, if_false, hsigma, hrotation,
      corotatedStress_rotate hq hr]
  | snow =>
    simp only [respondTo, isFluid, Bool.false_eq_true, if_false, hsigma, hrotation,
      Svd.recompose_rotate, corotatedStress_rotate hq hr]

/-- The stress and the deformation that is kept turn with the deformation, whichever exact
decompositions are taken. -/
theorem respondTo_of_isExact (m : Material) {d : Svd K} {f q r : Mat3 K} (hf : f.det ≠ 0)
    (hd : d.IsExact f) (hq : q.IsOrthogonal) (hr : r.IsOrthogonal) (p mu lambda : K) :
    let s := m.respondTo d f p mu lambda
    (∀ e : Svd K, e.IsExact f → m.respondTo e f p mu lambda = s) ∧
      ∀ e : Svd K, e.IsExact (q * f * r) → m.respondTo e (q * f * r) p mu lambda =
        ⟨q * s.stress * q.transpose, if m.isFluid then s.deformation else q * s.deformation * r,
          s.plasticity⟩ := by
  intro s
  refine ⟨fun e he => m.respondTo_eq hf hd he p mu lambda, fun e he => ?_⟩
  have hturned : (q * f * r).det ≠ 0 := by
    have hq0 : q.det ≠ 0 := left_ne_zero_of_mul_eq_one hq.det_mul_self
    have hr0 : r.det ≠ 0 := left_ne_zero_of_mul_eq_one hr.det_mul_self
    rw [Mat3.det_mul, Mat3.det_mul]
    exact mul_ne_zero (mul_ne_zero hq0 hf) hr0
  rw [m.respondTo_eq hturned (hd.rotate hq hr) he, m.respondTo_rotate hq hr]

/-- Snow stretched along one axis, with a decomposition that names the axes in another order. -/
theorem respondTo_turned_stretch :
    let q : Mat3 ℚ := ⟨⟨3 / 5, 4 / 5, 0⟩, ⟨-4 / 5, 3 / 5, 0⟩, ⟨0, 0, 1⟩⟩
    let r : Mat3 ℚ := ⟨⟨0, 0, 1⟩, ⟨0, 1, 0⟩, ⟨1, 0, 0⟩⟩
    let f : Mat3 ℚ := Mat3.diagonal ⟨11 / 10, 1, 1⟩
    let e : Svd ℚ := ⟨⟨⟨0, 0, 1⟩, ⟨3 / 5, 4 / 5, 0⟩, ⟨4 / 5, -3 / 5, 0⟩⟩, ⟨1, 11 / 10, 1⟩,
      ⟨⟨1, 0, 0⟩, ⟨0, 0, 1⟩, ⟨0, -1, 0⟩⟩⟩
    let s := snow.respondTo ⟨1, ⟨11 / 10, 1, 1⟩, 1⟩ f 1 2 3
    snow.respondTo e (q * f * r) 1 2 3 =
      ⟨q * s.stress * q.transpose, q * s.deformation * r, s.plasticity⟩ := by
  intro q r f e s
  have hd : (⟨1, ⟨11 / 10, 1, 1⟩, 1⟩ : Svd ℚ).IsExact f :=
    Svd.isExact_ofStretch? (if_pos (by decide +kernel))
  have hq : q.transpose * q = 1 := by decide +kernel
  have hr : r.transpose * r = 1 := by decide +kernel
  have hu : e.u.transpose * e.u = 1 := by decide +kernel
  have hv : e.v.transpose * e.v = 1 := by decide +kernel
  exact (respondTo_of_isExact snow (by decide +kernel) hd hq hr 1 2 3).2 e
    ⟨hu, hv, by decide +kernel, by decide +kernel⟩

end Material
end MaterialPoint
