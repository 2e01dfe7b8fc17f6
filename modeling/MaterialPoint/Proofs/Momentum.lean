import MaterialPoint.Proofs.Drift
import MaterialPoint.Proofs.Overflow

/-! Balance of momentum. Away from the walls only gravity changes it, whatever the stresses are. -/
namespace MaterialPoint
open scoped Exact Drift

variable {K : Type} [Field K] [LinearOrder K] [IsStrictOrderedRing K] [FloorRing K]
  [Exponential K] [SingularValues K]

namespace Simulation

/-- The nodes around every particle are on the lattice and clear of its walls. -/
def IsInterior (s : Simulation K) : Prop :=
  ∀ p ∈ s.particles, s.grid.Surrounds s.params.wallWidth p.position

instance (s : Simulation K) : Decidable s.IsInterior := List.decidableBAll _ _

/-- What gravity adds to a free velocity in a substep. -/
def pull (s : Simulation K) : Vec3 K := ⟨0, -(s.params.gravity * s.params.timeStep), 0⟩

theorem sumAt_mass_smul_velocityAt {s : Simulation K} (hm : 0 < s.params.particleMass)
    (hs : s.IsInterior) (c : Coord) :
    sumAt Deposit.coord (fun d => d.mass • s.transfer.grid.velocityAt d.coord) s.deposits c =
      sumAt Deposit.coord (fun d => d.momentum + d.mass • s.pull) s.deposits c := by
  have hmem {d : Deposit K} (hd : d ∈ s.deposits) : ∃ p ∈ s.particles,
      d ∈ p.deposits s.params.particleMass s.grid.cellSize (s.params.particleMass • p.velocity)
        (p.momentumSlope s.params s.grid.cellSize (p.response s.params).stress) := by
    obtain ⟨p, hp, hd⟩ := List.mem_flatMap.mp hd
    rw [Particle.deposits_scatter (hs p hp).contains] at hd
    exact ⟨p, hp, hd⟩
  have hcar : IsCarried (Deposit.load s.deposits c).mass (Deposit.load s.deposits c).velocity :=
    Deposit.isCarried_load (fun d hd => isCarried_of_mem_deposits hm hd) c
  have hnode (h : (Deposit.load s.deposits c).mass ≠ 0) :
      (s.grid.index? c).isSome ∧ c.IsClear s.params.wallWidth s.grid.resolution := by
    obtain ⟨d, hd, rfl⟩ := Deposit.exists_coord_of_mass_load h
    obtain ⟨p, hp, hd⟩ := hmem hd
    obtain ⟨n, hn, rfl⟩ := List.mem_map.mp hd
    exact hs p hp n hn
  rw [sumAt_smul, sumAt_add, sumAt_smul Deposit.coord Deposit.mass fun _ => s.pull]
  change (Deposit.load s.deposits c).mass • s.transfer.grid.velocityAt c =
    (Deposit.load s.deposits c).velocity + (Deposit.load s.deposits c).mass • s.pull
  by_cases h0 : (Deposit.load s.deposits c).mass = 0
  · rw [h0, hcar.2 h0, zero_smul, zero_smul, add_zero]
  · rw [Grid.velocityAt, s.node?_transfer (hnode h0).1]
    exact Grid.mass_smul_settleNode hcar fun h => (hnode h).2

/-- What the nodes give to the particles, in every linear measure of velocities. -/
theorem sum_mass_smul_velocityAt {N : Type} [AddCommMonoid N] {s : Simulation K}
    (hm : 0 < s.params.particleMass) (hs : s.IsInterior) (L : Coord → Vec3 K →+ N) :
    (s.particles.map fun p => ((p.scatter s.params s.grid).deposits.map fun d =>
      L d.coord (d.mass • s.transfer.grid.velocityAt d.coord)).sum).sum =
    (s.particles.map fun p => ((p.scatter s.params s.grid).deposits.map fun d =>
      L d.coord (d.momentum + d.mass • s.pull)).sum).sum := by
  have h := sum_map_congr_of_sumAt Deposit.coord _ _ L s.deposits
    (sumAt_mass_smul_velocityAt hm hs)
  simpa only [deposits, List.map_flatMap, sum_flatMap] using h

theorem smul_velocity_motionAt {s : Simulation K} {p : Particle K}
    (h : s.grid.contains p.position = true) :
    s.params.particleMass • (s.transfer.grid.motionAt p.position).velocity =
      ((p.scatter s.params s.grid).deposits.map fun d =>
        d.mass • s.transfer.grid.velocityAt d.coord).sum := by
  rw [Particle.deposits_scatter h, Grid.motionAt_eq, cellSize_transfer, List.smul_sum]
  simp only [Particle.deposits, List.map_map, Function.comp_def, smul_smul, mul_comm]

theorem sum_momentum_add_pull {s : Simulation K} {p : Particle K}
    (h : s.grid.contains p.position = true) :
    ((p.scatter s.params s.grid).deposits.map fun d => d.momentum + d.mass • s.pull).sum =
      s.params.particleMass • p.velocity + s.params.particleMass • s.pull := by
  rw [Particle.deposits_scatter h, List.sum_map_add, Particle.sum_momentum_deposits,
    ← map_sum_map (fun a : K => a • s.pull) (zero_smul K _) fun a b => add_smul a b _,
    Particle.sum_mass_deposits]

/-- One substep away from the walls changes the momentum by the pull on all particles. -/
theorem totalMomentum_substep {s : Simulation K} (hm : 0 < s.params.particleMass)
    (hr : s.params.repairs = false) (hs : s.IsInterior) :
    s.substep.totalMomentum =
      s.totalMomentum + ((s.particles.length : K) * s.params.particleMass) • s.pull := by
  have hp (p : Particle K) (h : p ∈ s.particles) : s.grid.contains p.position = true :=
    (hs p h).contains
  have hbalance := sum_mass_smul_velocityAt hm hs fun _ => AddMonoidHom.id (Vec3 K)
  calc s.substep.totalMomentum
      = (s.particles.map fun p =>
          s.params.particleMass • (s.transfer.grid.motionAt p.position).velocity).sum := by
        rw [totalMomentum, Population.totalMomentum, sumByEighths_eq_sum, params_substep,
          particles_substep hr, particles_transfer, List.map_map]
        congr 1
        refine List.map_congr_left fun p h => ?_
        rw [Function.comp_apply, (gather_scatter (hp p h)).1]
    _ = (s.particles.map fun p => ((p.scatter s.params s.grid).deposits.map fun d =>
          d.mass • s.transfer.grid.velocityAt d.coord).sum).sum := by
        congr 1
        exact List.map_congr_left fun p h => smul_velocity_motionAt (hp p h)
    _ = (s.particles.map fun p => ((p.scatter s.params s.grid).deposits.map fun d =>
          d.momentum + d.mass • s.pull).sum).sum := hbalance
    _ = (s.particles.map fun p =>
          s.params.particleMass • p.velocity + s.params.particleMass • s.pull).sum := by
        congr 1
        exact List.map_congr_left fun p h => sum_momentum_add_pull (hp p h)
    _ = s.totalMomentum + ((s.particles.length : K) * s.params.particleMass) • s.pull := by
        rw [List.sum_map_add, List.map_const', List.sum_replicate, ← Nat.cast_smul_eq_nsmul K,
          smul_smul, totalMomentum, Population.totalMomentum, sumByEighths_eq_sum]

@[simp] theorem length_particles_substep (s : Simulation K) :
    s.substep.particles.length = s.particles.length := by
  have ht : s.transfer.particles.length = s.particles.length := by
    rw [particles_transfer, List.length_map]
  unfold substep
  dsimp only
  split
  · simp [repair, modifyParticles, Population.repair, ht]
  · exact ht

theorem length_repeat_substep (s : Simulation K) (k : ℕ) :
    (Nat.repeat substep k s).particles.length = s.particles.length := by
  induction k with
  | zero => rfl
  | succ k ih => rw [Nat.repeat, length_particles_substep, ih]

/-- Any number of substeps away from the walls changes the momentum by the pull of gravity alone. -/
theorem totalMomentum_repeat_substep {s : Simulation K} (hm : 0 < s.params.particleMass)
    (hr : s.params.repairs = false) (k : ℕ)
    (hs : ∀ j < k, (Nat.repeat substep j s).IsInterior) :
    (Nat.repeat substep k s).totalMomentum =
      s.totalMomentum + ((k : K) * s.particles.length * s.params.particleMass) •
        (⟨0, -(s.params.gravity * s.params.timeStep), 0⟩ : Vec3 K) := by
  change _ = _ + _ • s.pull
  induction k with
  | zero => rw [Nat.repeat, Nat.cast_zero, zero_mul, zero_mul, zero_smul, add_zero]
  | succ k ih =>
    have hk := ih fun j hj => hs j (Nat.lt_succ_of_lt hj)
    have hp := params_repeat_substep s k
    have hstep := totalMomentum_substep (by rwa [hp]) (by rwa [hp]) (hs k (Nat.lt_succ_self k))
    have hpull : (Nat.repeat substep k s).pull = s.pull := by rw [pull, hp, pull]
    rw [Nat.repeat, hstep, hk, length_repeat_substep, hpull, hp, add_assoc, ← add_smul]
    congr 2
    push_cast
    ring

/-- Particles that keep clear of the walls leave room for them, and the walls begin at words. -/
theorem IsInterior.fitsWords {s : Simulation K} (hfits : s.grid.resolution ^ 3 ≤ 2 ^ 31)
    (hs : s.IsInterior) : s.FitsWords := by
  refine fitsWords_of_walls hfits ?_
  cases hp : s.particles with
  | nil => exact .inr (not_loads_of_isEmpty hp)
  | cons p ps =>
    obtain ⟨-, ⟨lo, hi⟩, -⟩ :=
      hs p (hp ▸ List.mem_cons_self) _ (List.mem_map_of_mem (Stencil.mem_steps 0 0 0))
    have hn := Grid.resolution_lt hfits
    exact .inl (Grid.areWallsInRange_of_le (by omega) (by omega))

/-- A run of substeps away from the walls does not stop. -/
theorem substeps?_of_isInterior {s : Simulation K} (hfits : s.grid.resolution ^ 3 ≤ 2 ^ 31)
    {k : ℕ} (hs : ∀ j < k, ∀ t, s.substeps? j = some t → t.IsInterior) :
    s.substeps? k = some (Nat.repeat substep k s) ∧
      ∀ j < k, (Nat.repeat substep j s).IsInterior := by
  have hrun (j : ℕ) (hj : j ≤ k) : s.substeps? j = some (Nat.repeat substep j s) := by
    refine substeps?_eq_some fun i hi t ht => (hs i (hi.trans_le hj) t ht).fitsWords ?_
    rwa [(frame_of_substeps? ht).2.1]
  exact ⟨hrun k le_rfl, fun j hj => hs j hj _ (hrun j hj.le)⟩

/-- Where all nodes have numbers, such substeps do not stop, and gravity alone changes the
momentum. -/
theorem totalMomentum_substeps? {s : Simulation K} (hfits : s.grid.resolution ^ 3 ≤ 2 ^ 31)
    (hm : 0 < s.params.particleMass) (hr : s.params.repairs = false) (k : ℕ)
    (hs : ∀ j < k, ∀ t, s.substeps? j = some t → t.IsInterior) :
    ∃ t, s.substeps? k = some t ∧ t.totalMomentum =
      s.totalMomentum + ((k : K) * s.particles.length * s.params.particleMass) •
        (⟨0, -(s.params.gravity * s.params.timeStep), 0⟩ : Vec3 K) := by
  obtain ⟨hrun, hinterior⟩ := substeps?_of_isInterior hfits hs
  exact ⟨_, hrun, totalMomentum_repeat_substep hm hr k hinterior⟩

end Simulation

theorem Drift.isInterior : ∀ j < 2, (Nat.repeat Simulation.substep j (simulation 1)).IsInterior := by
  decide +kernel

theorem Tall.isInterior : simulation.IsInterior := List.forall_mem_singleton.mpr surrounds_particle

namespace Simulation

theorem totalMomentum_substeps?_drift : ∃ t, (Drift.simulation 1).substeps? 2 = some t ∧
    t.totalMomentum = (Drift.simulation 1).totalMomentum +
      (((2 : ℕ) : ℚ) * (Drift.simulation 1).particles.length *
        (Drift.simulation 1).params.particleMass) •
      (⟨0, -((Drift.simulation 1).params.gravity * (Drift.simulation 1).params.timeStep), 0⟩ :
        Vec3 ℚ) := by
  have hfits : (Drift.simulation 1).grid.resolution ^ 3 ≤ 2 ^ 31 := by decide
  refine totalMomentum_substeps? hfits (Drift.particleMass_pos 1) rfl 2 fun j hj t ht => ?_
  rw [eq_of_substeps? hfits ht]
  exact Drift.isInterior j hj

/-- On a lattice with too many nodes a substep can stop, as far from the walls as it may be. -/
theorem not_totalMomentum_substeps?_tall :
    Tall.simulation.params.validate? = some (.ok ()) ∧ 0 < Tall.simulation.params.particleMass ∧
      Tall.simulation.params.repairs = false ∧ Tall.simulation.IsInterior ∧
      ¬∃ t, Tall.simulation.substeps? 1 = some t ∧ t.totalMomentum =
        Tall.simulation.totalMomentum +
          (((1 : ℕ) : ℚ) * Tall.simulation.particles.length * Tall.simulation.params.particleMass) •
          (⟨0, -(Tall.simulation.params.gravity * Tall.simulation.params.timeStep), 0⟩ :
            Vec3 ℚ) := by
  refine ⟨Tall.validate?_params, Tall.particleMass_pos, rfl, Tall.isInterior, ?_⟩
  rintro ⟨t, ht, -⟩
  rw [substeps?, substeps?, Option.bind_some, Tall.substep?_eq_none] at ht
  cases ht

end Simulation
end MaterialPoint
