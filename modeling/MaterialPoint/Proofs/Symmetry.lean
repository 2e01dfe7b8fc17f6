import MaterialPoint.Proofs.Drift
import MaterialPoint.Proofs.Inversion
import MaterialPoint.Proofs.Overflow
import MaterialPoint.Proofs.Swap

/-! The two horizontal axes are interchangeable: gravity acts along the third, and all else treats
them alike. -/
namespace MaterialPoint
open scoped Exact

variable {K : Type} [Field K] [LinearOrder K] [IsStrictOrderedRing K] [FloorRing K]

/-- A node as a swapped position sees it. -/
def Neighbor.swap (n : Neighbor K) : Neighbor K := ⟨n.coord.swap, n.weight, n.offset.swap⟩

def Deposit.swap (d : Deposit K) : Deposit K := ⟨d.coord.swap, d.mass, d.momentum.swap⟩

def Node.swap (n : Node K) : Node K := ⟨n.mass, n.velocity.swap⟩

namespace Stencil

theorem neighbor_swap (p : Vec3 K) (dx : K) (i j k : Fin 3) :
    (around p.swap dx).neighbor i j k = ((around p dx).neighbor k j i).swap := by
  have hweight : ((around p.swap dx).neighbor i j k).weight =
      ((around p dx).neighbor k j i).weight := by
    have hphase : (around p.swap dx).phase = (around p dx).phase.swap := rfl
    rw [weight_neighbor, weight_neighbor, hphase, Vec3.swap]
    ring
  exact Neighbor.ext rfl hweight rfl

theorem perm_neighbors_swap (p : Vec3 K) (dx : K) :
    (around p.swap dx).neighbors.Perm ((around p dx).neighbors.map Neighbor.swap) := by
  have hlist (s : Stencil K) : s.neighbors = steps.map fun t => s.neighbor t.1 t.2.1 t.2.2 := rfl
  have hsteps : (steps.map fun t => (t.2.2, t.2.1, t.1)).Perm steps := by decide
  have hswap : (around p.swap dx).neighbors = (steps.map fun t => (t.2.2, t.2.1, t.1)).map fun t =>
      ((around p dx).neighbor t.1 t.2.1 t.2.2).swap := by
    rw [hlist, List.map_map]
    exact List.map_congr_left fun t _ => neighbor_swap p dx t.1 t.2.1 t.2.2
  have hmap : (around p dx).neighbors.map Neighbor.swap =
      steps.map fun t => ((around p dx).neighbor t.1 t.2.1 t.2.2).swap := List.map_map
  rw [hswap, hmap]
  exact hsteps.map _

end Stencil

namespace Grid

theorem isSome_index?_swap {R : Type} (g : Grid R) (c : Coord) :
    (g.index? c.swap).isSome = (g.index? c).isSome := by
  rw [Bool.eq_iff_iff, isSome_index?_iff, isSome_index?_iff]
  simp only [Vec3.swap]
  tauto

theorem contains_swap (g : Grid K) (p : Vec3 K) : g.contains p.swap = g.contains p := by
  rw [Bool.eq_iff_iff, contains_iff, contains_iff]
  simp only [Vec3.swap]
  tauto

/-- Gravity acts along the axis between the two, and the walls are alike. -/
theorem settleNode_swap (gravity timeStep : K) (width resolution : ℤ) (c : Coord) (n : Node K) :
    settleNode gravity timeStep width resolution c.swap n.swap =
      (settleNode gravity timeStep width resolution c n).swap := by
  by_cases h : n.mass ≤ 0
  · have hswap : n.swap.mass ≤ 0 := h
    rw [settleNode, settleNode, if_pos h, if_pos hswap]
  · have hswap : ¬n.swap.mass ≤ 0 := h
    rw [settleNode, settleNode, if_neg h, if_neg hswap]
    rfl

/-- Where the velocities of the nodes are swapped, so is the motion around a swapped position. -/
theorem motionAt_swap {g h : Grid K} (hr : h.resolution = g.resolution)
    (hv : ∀ c : Coord, h.velocityAt c.swap = (g.velocityAt c).swap) (p : Vec3 K) :
    (h.motionAt p.swap).velocity = (g.motionAt p).velocity.swap ∧
      (h.motionAt p.swap).affine = (g.motionAt p).affine.swap := by
  have hperm := Stencil.perm_neighbors_swap p g.cellSize
  rw [motionAt_eq, motionAt_eq, cellSize_congr hr]
  dsimp only
  constructor
  · rw [(hperm.map _).sum_eq, List.map_map, map_sum_map Vec3.swap rfl Vec3.swap_add]
    simp only [Function.comp_def, Neighbor.swap, hv, Vec3.swap_smul]
  · rw [(hperm.map _).sum_eq, List.map_map, map_sum_map Mat3.swap rfl Mat3.swap_add]
    simp only [Function.comp_def, Neighbor.swap, hv, Mat3.swap_smul, Mat3.swap_outer,
      Vec3.swap_smul]

end Grid

namespace Deposit

theorem load_swap {ds es : List (Deposit K)} (h : es.Perm (ds.map swap)) (c : Coord) :
    load es c.swap = (load ds c).swap := by
  refine Node.ext ?_ ?_
  · refine (h.map _).sum_eq.trans ?_
    rw [List.map_map]
    simp only [Function.comp_def, swap, Vec3.swap_inj]
    rfl
  · refine (h.map _).sum_eq.trans ?_
    rw [List.map_map]
    have hsum := map_sum_map Vec3.swap rfl Vec3.swap_add ds fun d =>
      if d.coord = c then d.momentum else 0
    simp only [apply_ite Vec3.swap, Vec3.swap_zero] at hsum
    simp only [Function.comp_def, swap, Vec3.swap_inj]
    exact hsum.symm

theorem perm_flatMap_swap {R α β : Type} {xs : List α} {ys : List β} {f : α → List (Deposit R)}
    {g : β → List (Deposit R)}
    (h : List.Forall₂ (fun x y => (g y).Perm ((f x).map swap)) xs ys) :
    (ys.flatMap g).Perm ((xs.flatMap f).map swap) := by
  induction h with
  | nil => exact List.Perm.refl _
  | cons hxy _ ih =>
    rw [List.flatMap_cons, List.flatMap_cons, List.map_append]
    exact hxy.append ih

end Deposit

namespace Particle

/-- The particle where the horizontal axes are swapped. -/
def swap (p : Particle K) : Particle K :=
  { p with
    position := p.position.swap
    velocity := p.velocity.swap
    affine := p.affine.swap
    deformation := p.deformation.swap }

/-- What stands for a particle where the axes are swapped. Water shares only its ratio of volume. -/
structure IsSwapped (p q : Particle K) : Prop where
  position_eq : q.position = p.position.swap
  velocity_eq : q.velocity = p.velocity.swap
  affine_eq : q.affine = p.affine.swap
  deformation : p.material.IsSwapped p.deformation q.deformation
  plasticity_eq : q.plasticity = p.plasticity
  material_eq : q.material = p.material
  color_eq : q.color = p.color

theorem isSwapped_swap (p : Particle K) : p.IsSwapped p.swap :=
  ⟨rfl, rfl, rfl, p.material.isSwapped_swap p.deformation, rfl, rfl, rfl⟩

theorem perm_deposits_swap {p q : Particle K} (h : q.position = p.position.swap) (mass dx : K)
    (momentum : Vec3 K) (slope : Mat3 K) : (q.deposits mass dx momentum.swap slope.swap).Perm
      ((p.deposits mass dx momentum slope).map Deposit.swap) := by
  have hmap : (p.deposits mass dx momentum slope).map Deposit.swap =
      ((Stencil.around p.position dx).neighbors.map Neighbor.swap).map fun n =>
        ⟨n.coord, n.weight * mass, n.weight • (momentum.swap + slope.swap.apply n.offset)⟩ := by
    rw [deposits, List.map_map, List.map_map]
    refine List.map_congr_left fun n _ => ?_
    simp only [Function.comp_apply, Neighbor.swap, Mat3.swap_apply]
    rfl
  rw [hmap, deposits, h]
  exact (Stencil.perm_neighbors_swap p.position dx).map _

namespace IsSwapped
variable {p q : Particle K}

theorem trialDeformation (h : p.IsSwapped q) (timeStep : K) :
    p.material.IsSwapped (p.trialDeformation timeStep) (q.trialDeformation timeStep) := by
  rw [Particle.trialDeformation, Particle.trialDeformation, h.affine_eq]
  exact h.deformation.mul (1 + timeStep • p.affine)

/-- Only the ratio of volume tells whether a particle is broken, and a particle is repaired in its
place. -/
theorem repair (h : p.IsSwapped q) (b : Bounds K) : (p.repair b).IsSwapped (q.repair b) := by
  have hratio : q.volumeRatio = p.volumeRatio := h.deformation.det_eq
  by_cases hp : 0 < p.volumeRatio
  · have hq : 0 < q.volumeRatio := hratio.symm ▸ hp
    rwa [repair_of_isHealthy (isHealthy_iff_volumeRatio_pos.mpr hp),
      repair_of_isHealthy (isHealthy_iff_volumeRatio_pos.mpr hq)]
  · rw [repair_of_volumeRatio_nonpos b (not_lt.mp hp),
      repair_of_volumeRatio_nonpos b (hratio.trans_le (not_lt.mp hp))]
    exact ⟨h.position_eq, h.velocity_eq, rfl, p.material.isSwapped_swap 1, rfl, h.material_eq,
      h.color_eq⟩

theorem gather (h : p.IsSwapped q) (timeStep : K) {g g' : Grid K}
    (hr : g'.resolution = g.resolution)
    (hv : ∀ c : Coord, g'.velocityAt c.swap = (g.velocityAt c).swap) :
    (p.gather timeStep g).IsSwapped (q.gather timeStep g') := by
  have hcontains : g'.contains q.position = g.contains p.position := by
    rw [h.position_eq, Grid.contains_congr hr, g.contains_swap]
  rw [Particle.gather, Particle.gather, hcontains]
  split
  · obtain ⟨hvelocity, haffine⟩ := Grid.motionAt_swap hr hv p.position
    rw [← h.position_eq] at hvelocity haffine
    refine ⟨?_, hvelocity, haffine, h.deformation, h.plasticity_eq, h.material_eq, h.color_eq⟩
    simp only [carry]
    rw [hvelocity, h.position_eq, Vec3.swap_add, Vec3.swap_smul]
  · exact h

variable [Exponential K] [SingularValues K]

theorem response (h : p.IsSwapped q) (hsvd : SingularValues.IsExact K) {params : Params K}
    (hp : (SingularValues.decompose? (p.trialDeformation params.timeStep)).isSome)
    (hq : (SingularValues.decompose? (q.trialDeformation params.timeStep)).isSome)
    (hsnow : p.material = .snow → (p.trialDeformation params.timeStep).det ≠ 0) :
    (q.response params).stress = (p.response params).stress.swap ∧
      (q.response params).plasticity = (p.response params).plasticity ∧
      p.material.IsSwapped (p.response params).deformation (q.response params).deformation := by
  rw [Particle.response, Particle.response, h.material_eq, h.plasticity_eq]
  exact Material.respond_swap hsvd hp hq hsnow (h.trialDeformation params.timeStep) ..

theorem scatter (h : p.IsSwapped q) (hsvd : SingularValues.IsExact K) {params : Params K}
    {g : Grid K} (hp : g.contains p.position = true →
      (SingularValues.decompose? (p.trialDeformation params.timeStep)).isSome)
    (hq : g.contains q.position = true →
      (SingularValues.decompose? (q.trialDeformation params.timeStep)).isSome)
    (hsnow : g.contains p.position = true → p.material = .snow →
      (p.trialDeformation params.timeStep).det ≠ 0) :
    (p.scatter params g).particle.IsSwapped (q.scatter params g).particle ∧
      (q.scatter params g).deposits.Perm ((p.scatter params g).deposits.map Deposit.swap) := by
  have hcontains : g.contains q.position = g.contains p.position := by
    rw [h.position_eq, g.contains_swap]
  rw [Particle.scatter, Particle.scatter, hcontains]
  split
  next hin =>
    obtain ⟨hstress, hplasticity, hdeformation⟩ :=
      h.response hsvd (hp hin) (hq (hcontains.trans hin)) (hsnow hin)
    refine ⟨⟨h.position_eq, h.velocity_eq, h.affine_eq, hdeformation, hplasticity, h.material_eq,
      h.color_eq⟩, ?_⟩
    have hslope : q.momentumSlope params g.cellSize (q.response params).stress =
        (p.momentumSlope params g.cellSize (p.response params).stress).swap := by
      rw [momentumSlope, momentumSlope, hstress, h.affine_eq]
      rfl
    dsimp only
    rw [hslope, h.velocity_eq, ← Vec3.swap_smul]
    exact perm_deposits_swap h.position_eq ..
  next => exact ⟨h, List.Perm.refl _⟩

end IsSwapped
end Particle

namespace Simulation
variable [Exponential K] [SingularValues K]

/-- Particles in their order stand for each other where the axes are swapped. -/
structure IsSwapped (s t : Simulation K) : Prop where
  params_eq : t.params = s.params
  resolution_eq : t.grid.resolution = s.grid.resolution
  particles : List.Forall₂ Particle.IsSwapped s.particles t.particles

/-- The deformations of the next substep have decompositions. -/
def IsDecomposed (s : Simulation K) : Prop :=
  ∀ p ∈ s.particles, s.grid.contains p.position = true →
    (SingularValues.decompose? (p.trialDeformation s.params.timeStep)).isSome

instance (s : Simulation K) : Decidable s.IsDecomposed :=
  inferInstanceAs (Decidable (∀ p ∈ s.particles, s.grid.contains p.position = true → _))

/-- The deformations of snow in the next substep have inverses. -/
def KeepsSnow (s : Simulation K) : Prop :=
  ∀ p ∈ s.particles, s.grid.contains p.position = true → p.material = .snow →
    (p.trialDeformation s.params.timeStep).det ≠ 0

instance (s : Simulation K) : Decidable s.KeepsSnow :=
  inferInstanceAs (Decidable (∀ p ∈ s.particles, s.grid.contains p.position = true → _ → _))

theorem velocityAt_transfer (s : Simulation K) (c : Coord) :
    s.transfer.grid.velocityAt c = if (s.grid.index? c).isSome then
      (Grid.settleNode s.params.gravity s.params.timeStep (Word.signed s.params.wallWidth)
        s.grid.resolution c (Deposit.load s.deposits c)).velocity
    else 0 := by
  split
  next hc => rw [Grid.velocityAt, s.node?_transfer hc, Option.map_some, Option.getD_some]
  next hc =>
    have hn : s.transfer.grid.node? c = none := by
      rw [← Option.not_isSome_iff_eq_none, Grid.isSome_node?_iff,
        Grid.index?_congr s.resolution_transfer]
      exact hc
    rw [Grid.velocityAt, hn]
    rfl

theorem node?_loaded (s : Simulation K) {c : Coord} (hc : (s.grid.index? c).isSome) :
    s.loaded.node? c = some (Deposit.load s.deposits c) := node?_scatter_reset s.params _ hc

/-- Mass is left on a node exactly if some coordinate is loaded with it. -/
theorem loads_iff {s : Simulation K} (hfits : s.grid.resolution ^ 3 ≤ 2 ^ 31) :
    s.Loads ↔ ∃ c, (s.grid.index? c).isSome ∧ 0 < (Deposit.load s.deposits c).mass := by
  constructor
  · rintro ⟨i, node, hi, hmass⟩
    obtain ⟨hlt, -⟩ := Array.getElem?_eq_some_iff.mp hi
    rw [s.loaded.size_nodes, resolution_loaded, ← pow_three'] at hlt
    have hindex := Grid.index?_coordAt hfits hlt
    have hsome : (s.grid.index? (Grid.coordAt s.grid.resolution i)).isSome := by
      rw [hindex]
      rfl
    have hnode := s.node?_loaded hsome
    rw [Grid.node?, Grid.index?_congr s.resolution_loaded, hindex, Option.bind_some, hi] at hnode
    rw [Option.some.inj hnode] at hmass
    exact ⟨_, hsome, hmass⟩
  · rintro ⟨c, hc, hmass⟩
    obtain ⟨i, -, hi⟩ := Option.bind_eq_some_iff.mp (s.node?_loaded hc)
    exact ⟨i, _, hi, hmass⟩

namespace IsSwapped
variable {s t : Simulation K} (h : s.IsSwapped t) (hsvd : SingularValues.IsExact K)
  (hs : s.IsDecomposed) (ht : t.IsDecomposed) (hsnow : s.KeepsSnow)
include h hsvd hs ht hsnow

theorem scatter :
    List.Forall₂ (fun p q =>
      (p.scatter s.params s.grid).particle.IsSwapped (q.scatter t.params t.grid).particle ∧
        (q.scatter t.params t.grid).deposits.Perm
          ((p.scatter s.params s.grid).deposits.map Deposit.swap)) s.particles t.particles := by
  obtain ⟨hlength, hget⟩ := List.forall₂_iff_get.mp h.particles
  refine List.forall₂_iff_get.mpr ⟨hlength, fun i hi hi' => ?_⟩
  have hmem := ht _ (List.get_mem t.particles ⟨i, hi'⟩)
  rw [h.params_eq, Grid.contains_congr h.resolution_eq] at hmem
  rw [h.params_eq, Grid.scatter_congr h.resolution_eq]
  exact (hget i hi hi').scatter hsvd (hs _ (List.get_mem s.particles ⟨i, hi⟩)) hmem
    (hsnow _ (List.get_mem s.particles ⟨i, hi⟩))

theorem perm_deposits : t.deposits.Perm (s.deposits.map Deposit.swap) :=
  Deposit.perm_flatMap_swap ((h.scatter hsvd hs ht hsnow).imp fun _ _ hpq => hpq.2)

theorem velocityAt_transfer (c : Coord) :
    t.transfer.grid.velocityAt c.swap = (s.transfer.grid.velocityAt c).swap := by
  rw [t.velocityAt_transfer, s.velocityAt_transfer, h.params_eq, h.resolution_eq,
    Grid.index?_congr h.resolution_eq, s.grid.isSome_index?_swap,
    Deposit.load_swap (h.perm_deposits hsvd hs ht hsnow), Grid.settleNode_swap]
  split
  · rfl
  · rfl

theorem transfer : s.transfer.IsSwapped t.transfer where
  params_eq := h.params_eq
  resolution_eq := by rw [resolution_transfer, resolution_transfer, h.resolution_eq]
  particles := by
    rw [particles_transfer, particles_transfer, List.forall₂_map_left_iff,
      List.forall₂_map_right_iff, h.params_eq]
    have hshares := h.scatter hsvd hs ht hsnow
    rw [h.params_eq] at hshares
    refine hshares.imp fun p q hpq => hpq.1.gather _ ?_ (h.velocityAt_transfer hsvd hs ht hsnow)
    rw [resolution_transfer, resolution_transfer, h.resolution_eq]

theorem substep : s.substep.IsSwapped t.substep where
  params_eq := by rw [params_substep, params_substep, h.params_eq]
  resolution_eq := by rw [resolution_substep, resolution_substep, h.resolution_eq]
  particles := by
    have htransfer := (h.transfer hsvd hs ht hsnow).particles
    by_cases hr : s.params.repairs = true
    · rw [particles_substep_of_repairs hr, particles_substep_of_repairs (h.params_eq ▸ hr),
        h.params_eq, Population.repair, Population.repair, List.forall₂_map_left_iff,
        List.forall₂_map_right_iff]
      exact htransfer.imp fun p q hpq => hpq.repair _
    · have hr : s.params.repairs = false := Bool.not_eq_true _ ▸ hr
      rwa [particles_substep hr, particles_substep (h.params_eq ▸ hr)]

theorem loads_iff (hfits : s.grid.resolution ^ 3 ≤ 2 ^ 31) : t.Loads ↔ s.Loads := by
  have hfits' : t.grid.resolution ^ 3 ≤ 2 ^ 31 := by rwa [h.resolution_eq]
  have hmass (c : Coord) :
      (Deposit.load t.deposits c.swap).mass = (Deposit.load s.deposits c).mass := by
    rw [Deposit.load_swap (h.perm_deposits hsvd hs ht hsnow)]
    rfl
  have hindex (c : Coord) : (t.grid.index? c.swap).isSome = (s.grid.index? c).isSome := by
    rw [Grid.index?_congr h.resolution_eq, s.grid.isSome_index?_swap]
  rw [Simulation.loads_iff hfits', Simulation.loads_iff hfits]
  constructor
  · rintro ⟨c, hc, hpos⟩
    exact ⟨c.swap, (hindex c.swap).symm.trans hc, (hmass c.swap).symm ▸ hpos⟩
  · rintro ⟨c, hc, hpos⟩
    exact ⟨c.swap, (hindex c).trans hc, (hmass c).symm ▸ hpos⟩

/-- Either both substeps stop or neither does. -/
theorem substep? (hfits : s.grid.resolution ^ 3 ≤ 2 ^ 31) :
    Option.Rel IsSwapped s.substep? t.substep? := by
  have hfits' : t.grid.resolution ^ 3 ≤ 2 ^ 31 := by rwa [h.resolution_eq]
  have hloads := h.loads_iff hsvd hs ht hsnow hfits
  have hwalls : Grid.areWallsInRange t.grid.resolution t.params.wallWidth =
      Grid.areWallsInRange s.grid.resolution s.params.wallWidth := by
    rw [h.resolution_eq, h.params_eq]
  by_cases hok : Grid.areWallsInRange s.grid.resolution s.params.wallWidth = true ∨ ¬s.Loads
  · have hok' : Grid.areWallsInRange t.grid.resolution t.params.wallWidth = true ∨ ¬t.Loads := by
      rwa [hwalls, hloads]
    rw [(fitsWords_of_walls hfits hok).substep?_eq, (fitsWords_of_walls hfits' hok').substep?_eq]
    exact .some (h.substep hsvd hs ht hsnow)
  · obtain ⟨hw, hl⟩ := not_or.mp hok
    rw [Bool.not_eq_true] at hw
    rw [not_not] at hl
    rw [substep?_eq_none_of_walls hfits hw hl,
      substep?_eq_none_of_walls hfits' (hwalls.trans hw) (hloads.mpr hl)]
    exact .none

end IsSwapped

omit [Exponential K] [SingularValues K] in
theorem isSwapped_modifyParticles (s : Simulation K) :
    s.IsSwapped (s.modifyParticles (·.map Particle.swap)) where
  params_eq := rfl
  resolution_eq := rfl
  particles := by
    refine List.forall₂_map_right_iff.mpr ?_
    exact List.forall₂_same.mpr fun p _ => p.isSwapped_swap

/-- Either both runs stop or neither does. -/
theorem IsSwapped.substeps? {s t : Simulation K} (h : s.IsSwapped t)
    (hsvd : SingularValues.IsExact K) (hfits : s.grid.resolution ^ 3 ≤ 2 ^ 31) {k : ℕ}
    (hrun : ∀ j < k, (∀ u, s.substeps? j = some u → u.IsDecomposed ∧ u.KeepsSnow) ∧
      ∀ v, t.substeps? j = some v → v.IsDecomposed) :
    Option.Rel IsSwapped (s.substeps? k) (t.substeps? k) := by
  -- The relation also matches the lattices, so that one run stops only where the other does.
  induction k with
  | zero => exact .some h
  | succ k ih =>
    have hk := ih fun j hj => hrun j (by omega)
    obtain ⟨hs, ht⟩ := hrun k (Nat.lt_succ_self k)
    rw [Simulation.substeps?, Simulation.substeps?]
    cases hu : s.substeps? k with
    | none =>
      rw [hu] at hk
      cases hv : t.substeps? k with
      | none => exact .none
      | some v => exact absurd (hv ▸ hk) Option.not_rel_none_some
    | some u =>
      rw [hu] at hk
      cases hv : t.substeps? k with
      | none => exact absurd (hv ▸ hk) Option.not_rel_some_none
      | some v =>
        rw [hv, Option.rel_some_some] at hk
        obtain ⟨hdecomposed, hsnow⟩ := hs u hu
        refine hk.substep? hsvd hdecomposed (ht v hv) hsnow ?_
        rwa [(frame_of_substeps? hu).2.1]

/-- In a numbered lattice, a run with swapped axes stops when the run does, or comes to swapped
particles. -/
theorem particles_substeps?_swap (hsvd : SingularValues.IsExact K) {s : Simulation K}
    (hfits : s.grid.resolution ^ 3 ≤ 2 ^ 31) (k : ℕ) :
    let t := s.modifyParticles (·.map Particle.swap)
    (∀ j < k, (∀ u, s.substeps? j = some u → u.IsDecomposed ∧ u.KeepsSnow) ∧
      ∀ v, t.substeps? j = some v → v.IsDecomposed) →
    Option.Rel (fun u v => List.Forall₂ Particle.IsSwapped u.particles v.particles)
        (s.substeps? k) (t.substeps? k) ∧
      (s.params.wallWidth ≤ s.grid.resolution → (s.substeps? k).isSome) := by
  intro t hrun
  constructor
  · have hrel := s.isSwapped_modifyParticles.substeps? hsvd hfits hrun
    revert hrel
    generalize s.substeps? k = u, t.substeps? k = v
    rintro (h | -)
    · exact .some h.particles
    · exact .none
  · intro hw
    have hn := Grid.resolution_lt hfits
    rw [substeps?_of_walls hfits (Grid.areWallsInRange_of_le (by omega) hw)]
    rfl

end Simulation

namespace Crosswise

/-- The decomposition of a diagonal matrix whose entries rise or fall and are not negative. -/
def decompose? (f : Mat3 K) : Option (Svd K) :=
  (Svd.ofStretch? f).or
    ((Svd.ofStretch? f.swap).map (Svd.rotate Mat3.exchanger Mat3.exchanger))

theorem isExact_decompose? {f : Mat3 K} {d : Svd K} (h : decompose? f = some d) : d.IsExact f := by
  rcases Option.or_eq_some_iff.mp h with hd | ⟨-, hd⟩
  · exact Svd.isExact_ofStretch? hd
  · obtain ⟨e, he, rfl⟩ := Option.map_eq_some_iff.mp hd
    have hexact := (Svd.isExact_ofStretch? he).rotate Mat3.isOrthogonal_exchanger
      Mat3.isOrthogonal_exchanger
    rwa [← Mat3.swap_eq] at hexact

scoped instance : SingularValues ℚ := ⟨decompose?⟩

scoped instance : Exponential ℚ := ⟨fun x => 1 + x⟩

/-- Particles that drift apart along the first axis, and one beyond the lattice. -/
def simulation : Simulation ℚ :=
  { Drift.simulation 1 with
    particles := [Drift.particle (7 / 16) (-1 / 8) .snow, Drift.particle (9 / 16) (1 / 8) .water,
      Drift.particle (5 / 4) (1 / 8) .jelly]
    params := { (Drift.simulation 1).params with repairs := true } }

end Crosswise

open scoped Crosswise

namespace Simulation

theorem particles_substeps?_swap_drift :
    let s := Crosswise.simulation
    let t := s.modifyParticles (·.map Particle.swap)
    SingularValues.IsExact ℚ ∧ ∃ u v, s.substeps? 2 = some u ∧ t.substeps? 2 = some v ∧
      List.Forall₂ Particle.IsSwapped u.particles v.particles := by
  intro s t
  have hsvd : SingularValues.IsExact ℚ := fun _ _ => Crosswise.isExact_decompose?
  have hfits : s.grid.resolution ^ 3 ≤ 2 ^ 31 := by decide
  have hs : ∀ j < 2,
      (Nat.repeat substep j s).IsDecomposed ∧ (Nat.repeat substep j s).KeepsSnow := by
    decide +kernel
  have ht : ∀ j < 2, (Nat.repeat substep j t).IsDecomposed := by decide +kernel
  obtain ⟨hrel, hsome⟩ := particles_substeps?_swap hsvd hfits 2 fun j hj =>
    ⟨fun u hu => eq_of_substeps? hfits hu ▸ hs j hj,
      fun v hv => eq_of_substeps? (s := t) hfits hv ▸ ht j hj⟩
  obtain ⟨u, hu⟩ := Option.isSome_iff_exists.mp (hsome (by decide))
  rw [hu] at hrel
  cases hv : t.substeps? 2 with
  | none => exact absurd (hv ▸ hrel) Option.not_rel_some_none
  | some v =>
    rw [hv, Option.rel_some_some] at hrel
    exact ⟨hsvd, u, v, hu, rfl, hrel⟩

/-- On a lattice with too many nodes a particle can stop where the swapped one does not. -/
theorem not_particles_substeps?_swap_tall :
    let s := Tall.simulation
    let t := s.modifyParticles (·.map Particle.swap)
    SingularValues.IsExact ℚ ∧ s.params.validate? = some (.ok ()) ∧
      (s.IsDecomposed ∧ s.KeepsSnow) ∧ t.IsDecomposed ∧
      ¬Option.Rel (fun u v => List.Forall₂ Particle.IsSwapped u.particles v.particles)
        (s.substeps? 1) (t.substeps? 1) := by
  intro s t
  have hwords : t.FitsWords := fitsWords_of_neighbors (by decide) (by decide) (by decide +kernel)
  refine ⟨fun _ _ => Crosswise.isExact_decompose?, Tall.validate?_params, by decide +kernel,
    by decide +kernel, fun hrel => ?_⟩
  rw [substeps?, substeps?, substeps?, substeps?, Option.bind_some, Option.bind_some,
    Tall.substep?_eq_none, hwords.substep?_eq] at hrel
  exact Option.not_rel_none_some hrel

end Simulation
end MaterialPoint
