import MaterialPoint.Proofs.Checked

/-! A lattice too large for words, and a particle near its top that stops the program. -/
namespace MaterialPoint
open scoped Exact

/-- A substep needs no numbers but those of the nodes around its particles. -/
theorem Simulation.fitsWords_of_neighbors {K : Type} [Field K] [LinearOrder K]
    [IsStrictOrderedRing K] [FloorRing K] [Exponential K] [SingularValues K] {s : Simulation K}
    (hn : s.grid.resolution + 1 < 2 ^ 31)
    (hw : Grid.areWallsInRange s.grid.resolution s.params.wallWidth = true)
    (h : ∀ p ∈ s.particles, ∀ n ∈ (Stencil.around p.position s.grid.cellSize).neighbors,
      s.grid.IsNumbered n.coord ∧ ∀ i ∈ s.grid.index? n.coord,
        Grid.wallCoordInWords? s.grid.resolution i = some (Grid.wallCoord s.grid.resolution i)) :
    s.FitsWords where
  resolution_lt := hn
  numbered p hp _ n hn := (h p hp n hn).1
  walls i node hi := by
    by_cases hd : ∃ d ∈ s.deposits, s.grid.reset.index? d.coord = some i
    · obtain ⟨d, hd, hi⟩ := hd
      obtain ⟨p, hp, hd⟩ := List.mem_flatMap.mp hd
      obtain ⟨-, n, hn, hcoord⟩ := coord_of_mem_scatter hd
      refine .inr ⟨(h p hp n hn).2 i ?_, hw⟩
      rw [hcoord]
      exact hi
    -- No particle sees this node, and it is as it was on the empty lattice.
    · push Not at hd
      have hloaded : s.loaded = s.deposits.foldl Grid.deposit s.grid.reset := scatter_snd ..
      rw [hloaded, Grid.getElem?_foldl_deposit hd] at hi
      obtain ⟨hlt, rfl⟩ := Array.getElem?_eq_some_iff.mp hi
      exact .inl (congrArg Node.mass (Array.getElem_replicate hlt)).le

namespace Tall

/-- Between walls, three layers below the top. -/
def particle : Particle ℚ := Particle.atRest ⟨1 / 2, 1 / 2, 1287 / 1291⟩ .jelly

/-- The smallest resolution at which some nodes have no number. -/
def simulation : Simulation ℚ where
  particles := [particle]
  grid := Grid.empty 1291
  params := { Params.ofResolution 1291 with repairs := false }
  substeps := 0

theorem validate?_params : simulation.params.validate? = some (.ok ()) := by decide +kernel

theorem particleMass_pos : 0 < simulation.params.particleMass := by decide +kernel

theorem surrounds_particle :
    simulation.grid.Surrounds simulation.params.wallWidth particle.position := by decide +kernel

variable {g : Grid ℚ} (hr : g.resolution = 1291)
include hr

theorem contains_particle : g.contains particle.position = true := by
  rw [Grid.contains_congr (h := simulation.grid) hr]
  decide +kernel

theorem exists_neighbor : ∃ n ∈ (Stencil.around particle.position g.cellSize).neighbors,
    Grid.indexInWords? g.resolution n.coord = none := by
  rw [Grid.cellSize_congr (h := simulation.grid) hr, hr]
  decide +kernel

variable [Exponential ℚ] [SingularValues ℚ]

theorem scatter?_eq_none (params : Params ℚ) : scatter? params [particle] g = none := by
  obtain ⟨n, hn, h⟩ := exists_neighbor hr
  exact MaterialPoint.scatter?_eq_none List.mem_cons_self (contains_particle hr) hn h params

omit [Exponential ℚ] [SingularValues ℚ] in
theorem gather?_eq_none (params : Params ℚ) : gather? params g [particle] = none := by
  obtain ⟨n, hn, h⟩ := exists_neighbor hr
  exact MaterialPoint.gather?_eq_none List.mem_cons_self (contains_particle hr) hn h params

omit hr in
theorem substep?_eq_none : simulation.substep? = none := by
  have hscatter : scatter? simulation.params simulation.particles simulation.grid.reset = none :=
    scatter?_eq_none rfl simulation.params
  rw [Simulation.substep?, Simulation.transfer?, hscatter]
  rfl

end Tall
end MaterialPoint
