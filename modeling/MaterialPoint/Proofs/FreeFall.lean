import MaterialPoint.Proofs.Isotropy
import MaterialPoint.Proofs.Momentum

/-! Free fall: particles at rest in shape that move alike fall as points would, away from the
walls. -/
namespace MaterialPoint
open scoped Exact Drift

variable {K : Type} [Field K] [LinearOrder K] [IsStrictOrderedRing K] [FloorRing K]

namespace Svd

theorem IsExact.sigma_eq_one {d : Svd K} (h : d.IsExact 1) : d.sigma = Vec3.splat 1 :=
  h.isOrthogonal_iff.mp Mat3.isOrthogonal_one

theorem IsExact.rotation_eq_one {d : Svd K} (h : d.IsExact 1) : d.rotation = 1 := by
  have hr := h.recompose_sigma
  rw [recompose, h.sigma_eq_one, Mat3.diagonal_splat_one, mul_one] at hr
  exact hr

end Svd

theorem Snow.yield_one : Snow.yield (Vec3.splat (1 : K)) = Vec3.splat 1 := by
  have hone : yieldValue (1 : K) = 1 := yieldValue_eq_one_iff.mpr rfl
  rw [yield_eq_map, Vec3.map, Vec3.splat, hone]

namespace Material
variable [Exponential K]

theorem respondTo_one (m : Material) {d : Svd K} (hd : d.IsExact 1) (p mu lambda : K) :
    m.respondTo d 1 p mu lambda = ⟨0, 1, p⟩ := by
  have hs := hd.sigma_eq_one
  have hr := hd.rotation_eq_one
  have hstress (mu lambda : K) : corotatedStress (1 : Mat3 K) 1 1 mu lambda = 0 := by
    simp [corotatedStress]
  have hprod : (Vec3.splat (1 : K)).product = 1 := by simp [Vec3.product, Vec3.splat]
  have hkeep : d.recompose (Vec3.splat 1) = 1 := by rw [← hs, hd.recompose_sigma]
  have hratio : Snow.plasticRatio (Vec3.splat (1 : K)) (Vec3.splat 1) = 1 := by
    simp [Snow.plasticRatio, Vec3.zipWith, Vec3.product, Vec3.splat]
  cases m with
  | water =>
    have hw : Water.deformation (1 : K) = 1 := rfl
    simp only [respondTo, hs, hr, hprod, hw, hstress]
  | jelly => simp only [respondTo, hs, hr, hprod, hstress]
  | snow => simp only [respondTo, hs, hr, Snow.yield_one, hprod, hkeep, hratio, hstress, mul_one]

/-- No material resists its shape at rest, whatever decomposition is found for it, or none. -/
theorem respond_one [SingularValues K] (hsvd : SingularValues.IsExact K) (m : Material)
    (p mu lambda : K) : m.respond 1 p mu lambda = ⟨0, 1, p⟩ := by
  unfold respond
  split
  next d hd => exact m.respondTo_one (hsvd 1 d hd) p mu lambda
  next => rfl

end Material

theorem Particle.isHealthy_of_deformation_eq_one {p : Particle K} (h : p.deformation = 1) :
    p.isHealthy = true := by
  have hdet : p.volumeRatio = 1 := by rw [volumeRatio, h, Mat3.det_one]
  simp [isHealthy, Mat3.isFinite, Vec3.isFinite, Vec3.all, Admissible.volumeRatio, hdet]

def Population.MovesAlike (v : Vec3 K) (ps : Population K) : Prop :=
  ∀ p ∈ ps, p.velocity = v ∧ p.affine = 0 ∧ p.deformation = 1

theorem Simulation.pull_eq_smul (s : Simulation K) :
    s.pull = -(s.params.timeStep * s.params.gravity) • (⟨0, 1, 0⟩ : Vec3 K) := by
  rw [pull, Vec3.smul_def, Vec3.mk.injEq]
  refine ⟨?_, ?_, ?_⟩ <;> ring

variable [Exponential K] [SingularValues K]

namespace Particle

theorem response_of_rest (hsvd : SingularValues.IsExact K) (params : Params K) {p : Particle K}
    (ha : p.affine = 0) (hf : p.deformation = 1) : p.response params = ⟨0, 1, p.plasticity⟩ := by
  have ht : p.trialDeformation params.timeStep = 1 := by
    rw [trialDeformation, ha, hf, smul_zero, add_zero, one_mul]
  rw [response, ht, p.material.respond_one hsvd]

end Particle

namespace Simulation

variable {s : Simulation K} {v : Vec3 K}

theorem momentum_of_mem_deposits (hsvd : SingularValues.IsExact K)
    (hv : s.particles.MovesAlike v) {d : Deposit K} (hd : d ∈ s.deposits) :
    d.momentum = d.mass • v := by
  obtain ⟨p, hp, hd⟩ := List.mem_flatMap.mp hd
  obtain ⟨hpv, ha, hf⟩ := hv p hp
  unfold Particle.scatter at hd
  split_ifs at hd
  · have hslope : p.momentumSlope s.params s.grid.cellSize (p.response s.params).stress = 0 := by
      rw [p.response_of_rest hsvd s.params ha hf, Particle.momentumSlope, ha, smul_zero, smul_zero,
        add_zero]
    obtain ⟨n, -, rfl⟩ := List.mem_map.mp hd
    simp only [hslope, hpv, Mat3.zero_apply, add_zero, smul_smul]
  · cases hd

/-- A node that a particle sees moves as the particles do, after the pull of gravity. -/
theorem weight_smul_velocityAt (hsvd : SingularValues.IsExact K)
    (hm : 0 < s.params.particleMass) (hs : s.IsInterior) (hv : s.particles.MovesAlike v)
    {p : Particle K} (hp : p ∈ s.particles) {n : Neighbor K}
    (hn : n ∈ (Stencil.around p.position s.grid.cellSize).neighbors) :
    n.weight • s.transfer.grid.velocityAt n.coord = n.weight • (v + s.pull) := by
  have hw := Stencil.weight_nonneg p.position s.grid.cellSize hn
  rcases hw.eq_or_lt with h0 | hpos
  -- A node of no weight may have no mass either, and then it does not move with the particles.
  · rw [← h0, zero_smul, zero_smul]
  have hload : (Deposit.load s.deposits n.coord).mass • s.transfer.grid.velocityAt n.coord =
      (Deposit.load s.deposits n.coord).mass • (v + s.pull) := by
    have hbalance := sumAt_mass_smul_velocityAt hm hs n.coord
    have halike : sumAt Deposit.coord (fun d => d.momentum + d.mass • s.pull) s.deposits n.coord =
        sumAt Deposit.coord (fun d => d.mass • (v + s.pull)) s.deposits n.coord :=
      sumAt_congr (fun d hd => by rw [momentum_of_mem_deposits hsvd hv hd, smul_add]) n.coord
    rw [halike, sumAt_smul, sumAt_smul Deposit.coord Deposit.mass fun _ => v + s.pull] at hbalance
    exact hbalance
  have hmass : 0 < (Deposit.load s.deposits n.coord).mass :=
    (mul_pos hpos hm).trans_le (Particle.mul_mass_le_load hm hp (hs p hp).contains hn)
  rw [smul_right_injective (Vec3 K) hmass.ne' hload]

/-- Where all nodes move alike, a particle moves with them and is neither turned nor stretched. -/
theorem motionAt_of_movesAlike (hsvd : SingularValues.IsExact K)
    (hm : 0 < s.params.particleMass) (hs : s.IsInterior) (hv : s.particles.MovesAlike v)
    {p : Particle K} (hp : p ∈ s.particles) :
    s.transfer.grid.motionAt p.position = ⟨v + s.pull, 0⟩ := by
  have hdx : s.transfer.grid.cellSize ≠ 0 := by
    rw [cellSize_transfer]
    exact Grid.cellSize_ne_zero (hs p hp).contains
  refine Grid.motionAt_of_linear hdx fun n hn => ?_
  rw [cellSize_transfer] at hn
  rw [weight_smul_velocityAt hsvd hm hs hv hp hn, Mat3.zero_apply, add_zero]

theorem gather_scatter_of_rest (hsvd : SingularValues.IsExact K) {p : Particle K}
    (h : s.grid.contains p.position = true) (ha : p.affine = 0) (hf : p.deformation = 1) :
    (p.scatter s.params s.grid).particle.gather s.params.timeStep s.transfer.grid =
      { p with
        velocity := (s.transfer.grid.motionAt p.position).velocity
        affine := (s.transfer.grid.motionAt p.position).affine
        position := p.position +
          s.params.timeStep • (s.transfer.grid.motionAt p.position).velocity } := by
  have hp : (p.scatter s.params s.grid).particle = p := by
    rw [Particle.scatter, if_pos h, p.response_of_rest hsvd s.params ha hf]
    simp only [Particle.deform, ← hf]
  have hg : s.transfer.grid.contains p.position = true := by
    rw [Grid.contains, cellSize_transfer, resolution_transfer]
    exact h
  rw [hp, Particle.gather, if_pos hg, Particle.carry]

def fallOnce (s : Simulation K) (v : Vec3 K) (p : Particle K) : Particle K :=
  { p with
    velocity := v + s.pull
    position := p.position + s.params.timeStep • (v + s.pull) }

theorem particles_substep_of_movesAlike (hsvd : SingularValues.IsExact K)
    (hm : 0 < s.params.particleMass) (hs : s.IsInterior) (hv : s.particles.MovesAlike v) :
    s.substep.particles = s.particles.map (s.fallOnce v) := by
  have ht : s.transfer.particles = s.particles.map (s.fallOnce v) := by
    rw [particles_transfer]
    refine List.map_congr_left fun p hp => ?_
    obtain ⟨-, ha, hf⟩ := hv p hp
    rw [gather_scatter_of_rest hsvd (hs p hp).contains ha hf,
      motionAt_of_movesAlike hsvd hm hs hv hp, ← ha]
    rfl
  by_cases hr : s.params.repairs = true
  · rw [particles_substep_of_repairs hr, ht, Population.repair, List.map_map]
    refine List.map_congr_left fun p hp => ?_
    exact Particle.repair_of_isHealthy
      (Particle.isHealthy_of_deformation_eq_one (hv p hp).2.2)
  · rw [particles_substep (Bool.not_eq_true _ ▸ hr), ht]

/-- Particles in their shapes at rest that move alike fall freely until one of them comes near a
wall. -/
theorem particles_repeat_substep_of_movesAlike (hsvd : SingularValues.IsExact K)
    (hm : 0 < s.params.particleMass) (hv : s.particles.MovesAlike v) (k : ℕ)
    (hs : ∀ j < k, (Nat.repeat substep j s).IsInterior) :
    (Nat.repeat substep k s).particles = s.particles.map fun p =>
      { p with
        position := p.position + (k * s.params.timeStep) • v -
          (k * (k + 1) / 2 * s.params.timeStep ^ 2 * s.params.gravity) • (⟨0, 1, 0⟩ : Vec3 K)
        velocity := v - (k * s.params.timeStep * s.params.gravity) • (⟨0, 1, 0⟩ : Vec3 K)
        affine := 0
        deformation := 1 } := by
  induction k with
  | zero =>
    refine (List.map_id _).symm.trans (List.map_congr_left fun p hp => ?_)
    obtain ⟨hpv, ha, hf⟩ := hv p hp
    simp [← hpv, ← ha, ← hf]
  | succ k ih =>
    have hk := ih fun j hj => hs j (Nat.lt_succ_of_lt hj)
    have hparams := params_repeat_substep s k
    have hpull : (Nat.repeat substep k s).pull = s.pull := by rw [pull, hparams, pull]
    have hvk : (Nat.repeat substep k s).particles.MovesAlike
        (v - (k * s.params.timeStep * s.params.gravity) • (⟨0, 1, 0⟩ : Vec3 K)) := by
      intro q hq
      rw [hk] at hq
      obtain ⟨p, -, rfl⟩ := List.mem_map.mp hq
      exact ⟨rfl, rfl, rfl⟩
    have hstep := particles_substep_of_movesAlike hsvd (by rwa [hparams])
      (hs k (Nat.lt_succ_self k)) hvk
    rw [Nat.repeat, hstep, hk, List.map_map]
    refine List.map_congr_left fun p _ => ?_
    simp only [Function.comp_apply, fallOnce, hpull, hparams, pull_eq_smul, Particle.mk.injEq,
      and_true]
    constructor
    · push_cast
      module
    · push_cast
      module

/-- Where all nodes have numbers, such particles fall freely through any number of substeps. -/
theorem particles_substeps?_of_movesAlike (hsvd : SingularValues.IsExact K)
    (hfits : s.grid.resolution ^ 3 ≤ 2 ^ 31) (hm : 0 < s.params.particleMass)
    (hv : s.particles.MovesAlike v) (k : ℕ)
    (hs : ∀ j < k, ∀ t, s.substeps? j = some t → t.IsInterior) :
    ∃ t, s.substeps? k = some t ∧ t.particles = s.particles.map fun p =>
      { p with
        position := p.position + (k * s.params.timeStep) • v -
          (k * (k + 1) / 2 * s.params.timeStep ^ 2 * s.params.gravity) • (⟨0, 1, 0⟩ : Vec3 K)
        velocity := v - (k * s.params.timeStep * s.params.gravity) • (⟨0, 1, 0⟩ : Vec3 K)
        affine := 0
        deformation := 1 } := by
  obtain ⟨hrun, hinterior⟩ := substeps?_of_isInterior hfits hs
  exact ⟨_, hrun, particles_repeat_substep_of_movesAlike hsvd hm hv k hinterior⟩

/-- Snow that has yielded before, jelly and water, two of them in one place. -/
theorem particles_fall_together :
    let s : Simulation ℚ := { Drift.simulation 1 with particles :=
      [{ Drift.particle (7 / 16) (1 / 8) .snow with plasticity := 1 / 2 },
        Drift.particle (9 / 16) (1 / 8) .jelly, Drift.particle (9 / 16) (1 / 8) .water] }
    ∃ t, s.substeps? 2 = some t ∧ t.particles = s.particles.map fun p =>
      { p with
        position := p.position + ((2 : ℕ) * s.params.timeStep) • (⟨1 / 8, 0, 0⟩ : Vec3 ℚ) -
          ((2 : ℕ) * ((2 : ℕ) + 1) / 2 * s.params.timeStep ^ 2 * s.params.gravity) •
            (⟨0, 1, 0⟩ : Vec3 ℚ)
        velocity := (⟨1 / 8, 0, 0⟩ : Vec3 ℚ) -
          ((2 : ℕ) * s.params.timeStep * s.params.gravity) • (⟨0, 1, 0⟩ : Vec3 ℚ)
        affine := 0
        deformation := 1 } := by
  intro s
  have hfits : s.grid.resolution ^ 3 ≤ 2 ^ 31 := by decide
  have halike : s.particles.MovesAlike ⟨1 / 8, 0, 0⟩ := by
    simp [s, Population.MovesAlike, Drift.particle, Particle.atRest]
  have hsvd := Drift.isExact_singularValues
  have hm : 0 < s.params.particleMass := Drift.particleMass_pos 1
  have hstart : s.IsInterior := by decide +kernel
  -- Where the particles are after the first substep is known.
  have hfallen : ∀ p ∈ s.particles.map (s.fallOnce ⟨1 / 8, 0, 0⟩),
      s.grid.Surrounds s.params.wallWidth p.position := by decide +kernel
  have hnext : s.substep.IsInterior := by
    rw [IsInterior, particles_substep_of_movesAlike hsvd hm hstart halike, params_substep,
      Grid.surrounds_congr s.resolution_substep]
    exact hfallen
  refine particles_substeps?_of_movesAlike hsvd hfits hm halike 2 fun j hj t ht => ?_
  rw [eq_of_substeps? hfits ht]
  interval_cases j
  · exact hstart
  · exact hnext

/-- On a lattice with too many nodes a substep can stop instead of letting a particle fall. -/
theorem not_particles_fall_tall :
    let _ : Exponential ℚ := ⟨fun _ => 1⟩
    let s := Tall.simulation
    SingularValues.IsExact ℚ ∧ (∀ x : ℚ, 0 < Exponential.exp x) ∧ 0 < s.params.particleMass ∧
      s.params.resolution = s.grid.resolution ∧ s.particles.MovesAlike 0 ∧ s.IsInterior ∧
      ¬∃ t, s.substeps? 1 = some t ∧ t.particles = s.particles.map fun p =>
        { p with
          position := p.position + ((1 : ℕ) * s.params.timeStep) • (0 : Vec3 ℚ) -
            ((1 : ℕ) * ((1 : ℕ) + 1) / 2 * s.params.timeStep ^ 2 * s.params.gravity) •
              (⟨0, 1, 0⟩ : Vec3 ℚ)
          velocity := (0 : Vec3 ℚ) -
            ((1 : ℕ) * s.params.timeStep * s.params.gravity) • (⟨0, 1, 0⟩ : Vec3 ℚ) } := by
  intro _ s
  have halike : s.particles.MovesAlike 0 := by
    simp [s, Tall.simulation, Tall.particle, Population.MovesAlike, Particle.atRest]
  refine ⟨Drift.isExact_singularValues, fun _ => one_pos, Tall.particleMass_pos, rfl, halike,
    Tall.isInterior, ?_⟩
  rintro ⟨t, ht, -⟩
  rw [substeps?, substeps?, Option.bind_some, Tall.substep?_eq_none] at ht
  cases ht

end Simulation
end MaterialPoint
