import MaterialPoint.Proofs.Momentum
import MaterialPoint.Proofs.Stress

/-! Balance of angular momentum. Symmetric stresses turn nothing; away from the walls only gravity
does. -/
namespace MaterialPoint
open scoped Exact Drift

variable {K : Type} [Field K] [LinearOrder K] [IsStrictOrderedRing K] [FloorRing K]

namespace Stencil

/-- The moment of a linear field that is spread over the nodes around a position. -/
theorem sum_weight_smul_cross (p v : Vec3 K) (slope : Mat3 K) (dx : K) :
    ((around p dx).neighbors.map fun n =>
      n.weight • (p + n.offset).cross (v + slope.apply n.offset)).sum =
      p.cross v + (dx * dx / 4) • slope.axial := by
  have h (n : Neighbor K) : n.weight • (p + n.offset).cross (v + slope.apply n.offset) =
      n.weight • p.cross v + p.cross (slope.apply (n.weight • n.offset)) +
        (n.weight • n.offset).cross v +
        (slope * (n.weight • Mat3.outer n.offset n.offset)).axial := by
    rw [Vec3.add_cross, Vec3.cross_add, Vec3.cross_add, Mat3.cross_apply_self, mul_smul_comm,
      Mat3.axial_smul, Mat3.apply_smul, Vec3.cross_smul, Vec3.smul_cross]
    module
  simp only [h, List.sum_map_add]
  rw [sum_weight_smul, ← map_sum_map (fun d => p.cross (slope.apply d)) (by simp)
      (fun a b => by rw [Mat3.apply_add, Vec3.cross_add]),
    ← map_sum_map (fun d => Vec3.cross d v) (by simp) (fun a b => Vec3.add_cross a b v),
    ← map_sum_map (fun m => (slope * m).axial) (by simp)
      (fun a b => by rw [mul_add, Mat3.axial_add]),
    sum_weight_smul_offset, sum_weight_smul_outer, mul_smul_comm, mul_one, Mat3.axial_smul]
  simp

end Stencil

namespace Simulation

/-- The moments of the particles about the origin, and the spins that their gradients carry. -/
def angularMomentum (s : Simulation K) : Vec3 K :=
  (s.particles.map fun p => s.params.particleMass • p.position.cross p.velocity +
    (s.params.particleMass * (s.grid.cellSize * s.grid.cellSize / 4)) • p.affine.axial).sum

/-- The moment about the origin of a momentum at a node. -/
def nodeMoment (s : Simulation K) (c : Coord) : Vec3 K →ₗ[K] Vec3 K :=
  Vec3.crossHom (s.grid.cellSize • Vec3.ofInt c)

theorem nodeMoment_coord {s : Simulation K} (hdx : s.grid.cellSize ≠ 0) {p : Vec3 K}
    {n : Neighbor K} (hn : n ∈ (Stencil.around p s.grid.cellSize).neighbors) (v : Vec3 K) :
    s.nodeMoment n.coord v = (p + n.offset).cross v := by
  rw [← Stencil.cellSize_smul_coord p hdx hn]
  rfl

variable [Exponential K] [SingularValues K]

/-- A stress does not spin the momentum around a particle. -/
theorem axial_momentumSlope (hsvd : SingularValues.IsExact K) (s : Simulation K)
    (p : Particle K) :
    (p.momentumSlope s.params s.grid.cellSize (p.response s.params).stress).axial =
      s.params.particleMass • p.affine.axial := by
  have h : (p.response s.params).stress.axial = 0 :=
    Mat3.axial_eq_zero (p.material.transpose_stress_respond hsvd _ _ _ _)
  rw [Particle.momentumSlope, Mat3.axial_add, Mat3.axial_smul, Mat3.axial_smul, h, smul_zero,
    zero_add]

/-- A particle gives its nodes its angular momentum, and the moment of gravity. -/
theorem sum_nodeMoment_momentum (hsvd : SingularValues.IsExact K) {s : Simulation K}
    (hdx : s.grid.cellSize ≠ 0) {p : Particle K} (h : s.grid.contains p.position = true) :
    ((p.scatter s.params s.grid).deposits.map fun d =>
      s.nodeMoment d.coord (d.momentum + d.mass • s.pull)).sum =
    s.params.particleMass • p.position.cross p.velocity +
      (s.params.particleMass * (s.grid.cellSize * s.grid.cellSize / 4)) • p.affine.axial +
      p.position.cross (s.params.particleMass • s.pull) := by
  let slope := p.momentumSlope s.params s.grid.cellSize (p.response s.params).stress
  have hfield (n : Neighbor K) :
      n.weight • (s.params.particleMass • p.velocity + slope.apply n.offset) +
        (n.weight * s.params.particleMass) • s.pull =
      n.weight • (s.params.particleMass • (p.velocity + s.pull) + slope.apply n.offset) := by
    module
  rw [Particle.deposits_scatter h, Particle.deposits, List.map_map]
  calc _ = ((Stencil.around p.position s.grid.cellSize).neighbors.map fun n =>
          n.weight • (p.position + n.offset).cross
            (s.params.particleMass • (p.velocity + s.pull) + slope.apply n.offset)).sum := by
        congr 1
        refine List.map_congr_left fun n hn => ?_
        rw [Function.comp_apply, hfield, map_smul, nodeMoment_coord hdx hn]
    _ = _ := by
        rw [Stencil.sum_weight_smul_cross, axial_momentumSlope hsvd, Vec3.cross_smul,
          Vec3.cross_add, Vec3.cross_smul]
        module

/-- The angular momentum of a particle after a substep is what its nodes give it. -/
theorem sum_nodeMoment_velocityAt {s : Simulation K} (hdx : s.grid.cellSize ≠ 0)
    {p : Particle K} (h : s.grid.contains p.position = true) :
    ((p.scatter s.params s.grid).deposits.map fun d =>
      s.nodeMoment d.coord (d.mass • s.transfer.grid.velocityAt d.coord)).sum =
    s.params.particleMass •
        p.position.cross (s.transfer.grid.motionAt p.position).velocity +
      (s.params.particleMass * (s.grid.cellSize * s.grid.cellSize / 4)) •
        (s.transfer.grid.motionAt p.position).affine.axial := by
  have hinv :
      s.grid.cellSize * s.grid.cellSize / 4 * Stencil.inverseMoment s.grid.cellSize = 1 :=
    Stencil.mul_inverseMoment hdx
  have hnode (w : K) (d v : Vec3 K) :
      (p.position + d).cross ((w * s.params.particleMass) • v) =
        s.params.particleMass • p.position.cross (w • v) +
          (s.params.particleMass * (s.grid.cellSize * s.grid.cellSize / 4)) •
            (Stencil.inverseMoment s.grid.cellSize • Mat3.outer (w • v) d).axial := by
    rw [Mat3.axial_smul, Mat3.axial_outer, smul_smul, mul_assoc, hinv, Vec3.add_cross,
      Vec3.cross_smul, Vec3.cross_smul, Vec3.cross_smul, Vec3.cross_smul]
    module
  rw [Particle.deposits_scatter h, Particle.deposits, List.map_map, Grid.motionAt_eq, cellSize_transfer,
    map_sum_map p.position.cross (Vec3.cross_zero _) (Vec3.cross_add _),
    map_sum_map Mat3.axial Mat3.axial_zero Mat3.axial_add, List.smul_sum, List.smul_sum,
    List.map_map, List.map_map, ← List.sum_map_add]
  congr 1
  refine List.map_congr_left fun n hn => ?_
  rw [Function.comp_apply, nodeMoment_coord hdx hn]
  exact hnode n.weight n.offset (s.transfer.grid.velocityAt n.coord)

theorem angularMomentum_substep_eq_sum {s : Simulation K} (hr : s.params.repairs = false)
    (hs : ∀ p ∈ s.particles, s.grid.contains p.position = true) :
    s.substep.angularMomentum =
      (s.particles.map fun p => ((p.scatter s.params s.grid).deposits.map fun d =>
        s.nodeMoment d.coord (d.mass • s.transfer.grid.velocityAt d.coord)).sum).sum := by
  rw [angularMomentum, particles_substep hr, params_substep, particles_transfer, List.map_map,
    Grid.cellSize, resolution_substep, ← Grid.cellSize]
  congr 1
  refine List.map_congr_left fun p hp => ?_
  obtain ⟨hv, ha, hx⟩ := gather_scatter (hs p hp)
  rw [sum_nodeMoment_velocityAt (Grid.cellSize_ne_zero (hs p hp)) (hs p hp), Function.comp_apply,
    hv, ha, hx, Vec3.add_cross, Vec3.smul_cross, Vec3.cross_self, smul_zero, add_zero]

theorem sum_nodeMoment_eq_angularMomentum (hsvd : SingularValues.IsExact K) {s : Simulation K}
    (hs : ∀ p ∈ s.particles, s.grid.contains p.position = true) :
    (s.particles.map fun p => ((p.scatter s.params s.grid).deposits.map fun d =>
      s.nodeMoment d.coord (d.momentum + d.mass • s.pull)).sum).sum =
    s.angularMomentum +
      (s.particles.map fun p => p.position.cross (s.params.particleMass • s.pull)).sum := by
  rw [angularMomentum, ← List.sum_map_add]
  congr 1
  refine List.map_congr_left fun p hp => ?_
  rw [sum_nodeMoment_momentum hsvd (Grid.cellSize_ne_zero (hs p hp)) (hs p hp)]

/-- Away from the walls a substep changes the angular momentum by the moment of gravity alone. -/
theorem angularMomentum_substep (hsvd : SingularValues.IsExact K) {s : Simulation K}
    (hm : 0 < s.params.particleMass) (hr : s.params.repairs = false) (hs : s.IsInterior) :
    s.substep.angularMomentum =
        s.angularMomentum + (s.particles.map fun p => p.position.cross
          ⟨0, -(s.params.particleMass * s.params.gravity * s.params.timeStep), 0⟩).sum ∧
      (s.params.gravity = 0 → s.substep.angularMomentum = s.angularMomentum) := by
  have hp (p : Particle K) (h : p ∈ s.particles) : s.grid.contains p.position = true :=
    (hs p h).contains
  have hpull : s.params.particleMass • s.pull =
      ⟨0, -(s.params.particleMass * s.params.gravity * s.params.timeStep), 0⟩ := by
    simp only [pull, Vec3.smul_def, Vec3.mk.injEq]
    refine ⟨?_, ?_, ?_⟩ <;> ring
  have hbalance := sum_mass_smul_velocityAt hm hs fun c => (s.nodeMoment c).toAddMonoidHom
  have hstep := ((angularMomentum_substep_eq_sum hr hp).trans hbalance).trans
    (sum_nodeMoment_eq_angularMomentum hsvd hp)
  rw [← hpull]
  refine ⟨hstep, fun hg => ?_⟩
  have h0 : s.pull = 0 := by rw [pull, hg, zero_mul, neg_zero, Vec3.zero_def]
  rw [hstep, h0, smul_zero, List.sum_eq_zero, add_zero]
  simp

/-- Where all nodes have numbers, such a substep does not stop, and gravity alone turns the
particles. -/
theorem angularMomentum_substep? (hsvd : SingularValues.IsExact K) {s : Simulation K}
    (hfits : s.grid.resolution ^ 3 ≤ 2 ^ 31) (hm : 0 < s.params.particleMass)
    (hr : s.params.repairs = false) (hs : s.IsInterior) :
    ∃ t, s.substep? = some t ∧
      t.angularMomentum = s.angularMomentum + (s.particles.map fun p => p.position.cross
        ⟨0, -(s.params.particleMass * s.params.gravity * s.params.timeStep), 0⟩).sum ∧
      (s.params.gravity = 0 → t.angularMomentum = s.angularMomentum) :=
  ⟨_, (hs.fitsWords hfits).substep?_eq, angularMomentum_substep hsvd hm hr hs⟩

theorem angularMomentum_substep?_drift :
    let s := Drift.simulation 1
    ∃ t, s.substep? = some t ∧
      t.angularMomentum = s.angularMomentum + (s.particles.map fun p => p.position.cross
        ⟨0, -(s.params.particleMass * s.params.gravity * s.params.timeStep), 0⟩).sum ∧
      (s.params.gravity = 0 → t.angularMomentum = s.angularMomentum) :=
  angularMomentum_substep? Drift.isExact_singularValues (by decide) (Drift.particleMass_pos 1) rfl
    (Drift.isInterior 0 (by decide))

/-- On a lattice with too many nodes a substep can stop, as far from the walls as it may be. -/
theorem not_angularMomentum_substep?_tall :
    let s := Tall.simulation
    SingularValues.IsExact ℚ ∧ 0 < s.params.particleMass ∧ s.params.repairs = false ∧
      s.params.resolution = s.grid.resolution ∧ s.IsInterior ∧
      ¬∃ t, s.substep? = some t ∧ t.angularMomentum =
        s.angularMomentum + (s.particles.map fun p => p.position.cross
          ⟨0, -(s.params.particleMass * s.params.gravity * s.params.timeStep), 0⟩).sum := by
  refine ⟨Drift.isExact_singularValues, Tall.particleMass_pos, rfl, rfl, Tall.isInterior, ?_⟩
  rintro ⟨t, ht, -⟩
  rw [Tall.substep?_eq_none] at ht
  cases ht

end Simulation
end MaterialPoint
