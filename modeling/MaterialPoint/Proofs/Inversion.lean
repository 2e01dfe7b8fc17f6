import MaterialPoint.Proofs.Health
import MaterialPoint.Proofs.Isotropy
import MaterialPoint.Proofs.Persistence

/-! Deformations that turn a particle inside out. A repair finds them in jelly and snow, not in
water. -/
namespace MaterialPoint
open scoped Exact

variable {K : Type} [Field K] [LinearOrder K] [IsStrictOrderedRing K] [FloorRing K]

namespace Svd.IsExact
variable {d : Svd K} {f : Mat3 K}

theorem product_sigma_of_det_neg (hd : d.IsExact f) (hf : f.det < 0) :
    d.rotation.det = -1 ∧ d.sigma.product = -f.det := by
  have hproduct : d.sigma.product = -f.det := by rw [hd.product_sigma, abs_of_neg hf]
  have hdet : (d.rotation.det + 1) * f.det = 0 := by
    linear_combination hd.det_eq + d.rotation.det * hproduct
  exact ⟨eq_neg_of_add_eq_zero_left ((mul_eq_zero.mp hdet).resolve_right hf.ne), hproduct⟩

end Svd.IsExact

theorem Snow.product_yield_pos (sigma : Vec3 K) : 0 < (yield sigma).product :=
  mul_pos (mul_pos (yieldValue_pos _) (yieldValue_pos _)) (yieldValue_pos _)

namespace Material
variable [Exponential K] [SingularValues K]

theorem respond_water_of_det_neg (hsvd : SingularValues.IsExact K) {f : Mat3 K} (hf : f.det < 0)
    (hsome : (SingularValues.decompose? f).isSome) (p mu lambda : K) :
    (water.respond f p mu lambda).deformation = Water.deformation (-f.det) ∧
      (water.respond f p mu lambda).plasticity = p := by
  obtain ⟨d, hd⟩ := Option.isSome_iff_exists.mp hsome
  rw [respond, hd, ← ((hsvd f d hd).product_sigma_of_det_neg hf).2]
  exact ⟨rfl, rfl⟩

/-- In any other material, and where no decomposition is found, the sign survives. -/
theorem det_respond_neg (hsvd : SingularValues.IsExact K) {m : Material} {f : Mat3 K}
    (hf : f.det < 0) (h : ¬(m = water ∧ (SingularValues.decompose? f).isSome)) (p mu lambda : K) :
    (m.respond f p mu lambda).deformation.det < 0 := by
  unfold respond
  split
  next d hd =>
    cases m with
    | water => exact absurd ⟨rfl, by rw [hd]; rfl⟩ h
    | jelly => exact hf
    | snow =>
      change (d.recompose (Snow.yield d.sigma)).det < 0
      rw [Svd.det_recompose, ((hsvd f d hd).product_sigma_of_det_neg hf).1, neg_one_mul,
        neg_lt_zero]
      exact Snow.product_yield_pos d.sigma
  next => exact hf

end Material

namespace Particle

/-- Exact numbers are all finite, so that only a ratio of volume can be broken. -/
theorem isHealthy_iff_volumeRatio_pos {p : Particle K} :
    p.isHealthy = true ↔ 0 < p.volumeRatio := by
  simp [isHealthy, Mat3.isFinite, Vec3.isFinite, Vec3.all, Admissible.volumeRatio]

theorem repair_of_volumeRatio_nonpos (b : Bounds K) {p : Particle K} (h : p.volumeRatio ≤ 0) :
    p.repair b = { p with deformation := 1, affine := 0, plasticity := 1 } := by
  have hbroken : ¬p.isHealthy = true := isHealthy_iff_volumeRatio_pos.not.mpr (not_lt.mpr h)
  rw [repair, if_neg hbroken]
  rfl

end Particle

namespace Simulation
variable [Exponential K] [SingularValues K]

theorem shape_gather_scatter {s : Simulation K} {p : Particle K}
    (h : s.grid.contains p.position = true) :
    let q := (p.scatter s.params s.grid).particle.gather s.params.timeStep s.transfer.grid
    q.deformation = (p.response s.params).deformation ∧
      q.plasticity = (p.response s.params).plasticity := by
  intro q
  have hq : q = _ := Particle.gather_eq ..
  rw [hq, Particle.scatter, if_pos h]
  exact ⟨rfl, rfl⟩

/-- A particle turned inside out is put back at rest, except one of water whose deformation is
decomposed. -/
theorem substep_of_det_neg (hsvd : SingularValues.IsExact K) {s : Simulation K}
    (hrepairs : s.params.repairs = true) {i : ℕ} {p : Particle K}
    (hp : s.particles[i]? = some p) (hin : s.grid.contains p.position = true)
    (hdet : (p.trialDeformation s.params.timeStep).det < 0) :
    let f := p.trialDeformation s.params.timeStep
    ∃ q, s.transfer.particles[i]? = some q ∧
      if p.material = .water ∧ (SingularValues.decompose? f).isSome then
        q.deformation = Water.deformation (-f.det) ∧ q.plasticity = p.plasticity ∧
          (∀ r ∈ s.transfer.instabilities, r.index ≠ i) ∧ s.substep.particles[i]? = some q
      else
        q.volumeRatio < 0 ∧ ⟨i, q.volumeRatio⟩ ∈ s.transfer.instabilities ∧
          s.substep.particles[i]? = some { q with deformation := 1, affine := 0, plasticity := 1 } := by
  intro f
  let q := (p.scatter s.params s.grid).particle.gather s.params.timeStep s.transfer.grid
  have hq : s.transfer.particles[i]? = some q := by
    rw [particles_transfer, List.getElem?_map, hp, Option.map_some]
  have hrepair : s.substep.particles[i]? = some (q.repair (interior s.params)) := by
    rw [particles_substep_of_repairs hrepairs, Population.repair, List.getElem?_map, hq,
      Option.map_some]
  obtain ⟨hshape, hplasticity⟩ := shape_gather_scatter hin
  refine ⟨q, hq, ?_⟩
  split_ifs with hwater
  · obtain ⟨hm, hsome⟩ := hwater
    obtain ⟨hkept, hp⟩ := Material.respond_water_of_det_neg hsvd hdet hsome p.plasticity
      s.params.mu s.params.lambda
    rw [← hm, ← Particle.response] at hkept hp
    rw [← hshape] at hkept
    have hhealthy : q.isHealthy = true := by
      rw [Particle.isHealthy_iff_volumeRatio_pos, Particle.volumeRatio, hkept, Water.deformation,
        Mat3.det_diagonal, Vec3.product, mul_one, mul_one]
      exact neg_pos.mpr hdet
    refine ⟨hkept, hplasticity.trans hp, fun r hr hri => ?_, ?_⟩
    · obtain ⟨t, ht, hbroken, -⟩ := Population.mem_instabilities_iff.mp hr
      rw [hri, hq, Option.some.injEq] at ht
      rw [← ht, hhealthy] at hbroken
      cases hbroken
    · rw [hrepair, Particle.repair_of_isHealthy hhealthy]
  · have hratio : q.volumeRatio < 0 := by
      rw [Particle.volumeRatio, hshape]
      exact Material.det_respond_neg hsvd hdet hwater ..
    refine ⟨hratio, Population.mem_instabilities_iff.mpr ⟨q, hq, ?_, rfl⟩, ?_⟩
    · rw [← Bool.not_eq_true, Particle.isHealthy_iff_volumeRatio_pos]
      exact not_lt.mpr hratio.le
    · rw [hrepair, Particle.repair_of_volumeRatio_nonpos _ hratio.le]

end Simulation

namespace Mirror

/-- The decomposition of a diagonal matrix whose entries do not rise in size. Any other matrix is
refused. -/
def decompose? (f : Mat3 K) : Option (Svd K) :=
  let entries : Vec3 K := ⟨f.x.x, f.y.y, f.z.z⟩
  if f = Mat3.diagonal entries ∧ |entries.z| ≤ |entries.y| ∧ |entries.y| ≤ |entries.x| then
    some ⟨Mat3.diagonal (entries.map fun x => if x < 0 then -1 else 1), entries.map (|·|), 1⟩
  else none

theorem isExact_decompose? {f : Mat3 K} {d : Svd K} (h : decompose? f = some d) : d.IsExact f := by
  unfold decompose? at h
  dsimp only at h
  split_ifs at h with hf
  obtain ⟨hf, -⟩ := hf
  cases Option.some.inj h
  let sign (x : K) : K := if x < 0 then -1 else 1
  have hsign (x : K) : sign x * sign x = 1 := by
    dsimp only [sign]
    split_ifs <;> norm_num
  have habs (x : K) : sign x * |x| = x := by
    dsimp only [sign]
    split_ifs with hx
    · rw [abs_of_neg hx, neg_one_mul, neg_neg]
    · rw [abs_of_nonneg (not_lt.mp hx), one_mul]
  refine ⟨?_, ?_, ⟨abs_nonneg _, abs_nonneg _, abs_nonneg _⟩, ?_⟩
  · rw [Mat3.IsOrthogonal, Mat3.transpose_diagonal, Mat3.diagonal_mul_diagonal]
    exact congrArg Mat3.diagonal (Vec3.ext (hsign _) (hsign _) (hsign _))
  · exact Mat3.isOrthogonal_one
  · rw [Svd.recompose, Mat3.transpose_one, mul_one, Mat3.diagonal_mul_diagonal]
    exact (congrArg Mat3.diagonal (Vec3.ext (habs _) (habs _) (habs _))).trans hf.symm

scoped instance : SingularValues ℚ := ⟨decompose?⟩

scoped instance : Exponential ℚ := ⟨fun _ => 1⟩

def particle (material : Material) : Particle ℚ :=
  { Particle.atRest (Vec3.splat (1 / 2)) material with
    deformation := Mat3.diagonal ⟨-6 / 5, 1, 1⟩ }

def simulation : Simulation ℚ where
  particles := Material.all.map particle
  grid := Grid.empty 4
  params := { Params.ofResolution 4 with wallWidth := 2, timeStep := 1 / 100 }
  substeps := 0

end Mirror

open scoped Mirror

namespace Simulation

/-- Of particles that are turned inside out, the one of snow is found and the one of water not. -/
theorem substep_of_mirrored :
    let s := Mirror.simulation
    (∃ q, s.transfer.particles[2]? = some q ∧ q.volumeRatio < 0 ∧
      ⟨2, q.volumeRatio⟩ ∈ s.transfer.instabilities ∧ s.substep.particles[2]? =
        some { q with deformation := 1, affine := 0, plasticity := 1 }) ∧
    ∃ q, s.transfer.particles[0]? = some q ∧ q.deformation = Water.deformation (6 / 5) ∧
      (∀ r ∈ s.transfer.instabilities, r.index ≠ 0) ∧ s.substep.particles[0]? = some q := by
  intro s
  have hsvd : SingularValues.IsExact ℚ := fun _ _ => Mirror.isExact_decompose?
  obtain ⟨q, hq, hsnow⟩ := substep_of_det_neg (s := s) (i := 2) (p := Mirror.particle .snow) hsvd
    rfl rfl (by decide +kernel) (by decide +kernel)
  obtain ⟨t, ht, hwater⟩ := substep_of_det_neg (s := s) (i := 0) (p := Mirror.particle .water) hsvd
    rfl rfl (by decide +kernel) (by decide +kernel)
  rw [if_neg (by decide)] at hsnow
  rw [if_pos (by decide +kernel)] at hwater
  obtain ⟨hkept, -, hunfound, hsame⟩ := hwater
  refine ⟨⟨q, hq, hsnow⟩, t, ht, hkept.trans ?_, hunfound, hsame⟩
  decide +kernel

/-- Water that is turned inside out is not found, and not put back to its shape at rest. -/
theorem mirrored_water_not_restored :
    let s := Mirror.simulation
    let p := Mirror.particle .water
    SingularValues.IsExact ℚ ∧ s.params.Valid ∧ s.params.repairs = true ∧
      s.particles[0]? = some p ∧ s.grid.contains p.position = true ∧
      (p.trialDeformation s.params.timeStep).det < 0 ∧
      (∀ r ∈ s.transfer.instabilities, r.index ≠ 0) ∧
      s.substep.particles[0]?.map (·.deformation) ≠ some 1 :=
  ⟨fun _ _ => Mirror.isExact_decompose?, by decide +kernel⟩

end Simulation
end MaterialPoint
