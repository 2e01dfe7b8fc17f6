import MaterialPoint.Grid.Walls
import MaterialPoint.Seeding.Sample
import MaterialPoint.Transfer.Gather
import MaterialPoint.Transfer.Scatter

/-! The state of a simulation and its steps. -/
namespace MaterialPoint

@[ext] structure Simulation (R : Type) where
  particles : Population R
  grid : Grid R
  params : Params R
  /-- Substeps since the particles were last put in. -/
  substeps : Nat

namespace Simulation
variable {R : Type} [Scalar R]

/-- A simulation without particles, when the parameters can drive it. -/
def start (params : Params R) : Except (Fault R) (Simulation R) := do
  params.validate
  return ⟨[], Grid.empty params.resolution, params, 0⟩

/-- Whether parameters can be validated, and those found valid have a lattice that fits. -/
def supports (params : Params R) : Bool :=
  params.areWallsCountable && (params.fault?.isSome || Grid.fits params.resolution)

def start? (params : Params R) : Option (Except (Fault R) (Simulation R)) :=
  if supports params then some (start params) else none

def setParticles (s : Simulation R) (particles : Population R) : Simulation R :=
  { s with particles, substeps := 0 }

def modifyParticles (s : Simulation R) (f : Population R → Population R) : Simulation R :=
  { s with particles := f s.particles }

/-- Fills the budget with particles from regions. -/
def seed [Generator R] (s : Simulation R) (schedule : Seeding.Schedule)
    (regions : List (Region R)) (seed : UInt64) : Except (Fault R) (Simulation R) := do
  return s.setParticles (← Seeding.sample schedule regions s.params.budget seed)

def seed? [Generator R] (s : Simulation R) (schedule : Seeding.Schedule)
    (regions : List (Region R)) (seed : UInt64) : Option (Except (Fault R) (Simulation R)) :=
  if Seeding.fits regions s.params.budget then some (s.seed schedule regions seed) else none

/-- Takes over other parameters, when these can drive the simulation. A lattice of another
resolution is a new one. -/
def setParams (s : Simulation R) (params : Params R) : Except (Fault R) (Simulation R) := do
  params.validate
  let grid := if params.resolution = s.grid.resolution then s.grid else Grid.empty params.resolution
  return { s with params, grid }

def setParams? (s : Simulation R) (params : Params R) : Option (Except (Fault R) (Simulation R)) :=
  if supports params then some (s.setParams params) else none

def setGravity (s : Simulation R) (gravity : R) : Simulation R :=
  { s with params := { s.params with gravity } }

/-- The domain without the bands along its faces, where lost particles are put back. -/
def interior (params : Params R) : Bounds R :=
  let wall := (params.wallWidth : R) * params.cellSize
  ⟨Vec3.splat wall, Vec3.splat (1 - wall)⟩

def repair (s : Simulation R) : Simulation R :=
  s.modifyParticles (Population.repair (interior s.params))

/-- What a repair finds broken. -/
def instabilities (s : Simulation R) : List (Instability R) := s.particles.instabilities

def totalMomentum (s : Simulation R) : Vec3 R := s.particles.totalMomentum s.params.particleMass

variable [Exponential R] [SingularValues R]

def transfer (s : Simulation R) : Simulation R :=
  let (particles, grid) := MaterialPoint.scatter s.params s.particles s.grid.reset
  let grid := grid.settle s.params.gravity s.params.timeStep s.params.wallWidth
  { s with particles := MaterialPoint.gather s.params grid particles, grid }

def substep (s : Simulation R) : Simulation R :=
  let s := s.transfer
  let s := if s.params.repairs then s.repair else s
  { s with substeps := s.substeps + 1 }

def frame (s : Simulation R) : Simulation R := Nat.repeat substep s.params.substepsPerFrame s

@[simp] theorem params_substep (s : Simulation R) : s.substep.params = s.params := by
  unfold substep
  dsimp only
  split <;> rfl

@[simp] theorem resolution_transfer (s : Simulation R) :
    s.transfer.grid.resolution = s.grid.resolution := by
  simp [transfer, Grid.reset, Grid.empty]

theorem grid_substep (s : Simulation R) : s.substep.grid = s.transfer.grid := by
  unfold substep
  dsimp only
  split <;> rfl

@[simp] theorem resolution_substep (s : Simulation R) :
    s.substep.grid.resolution = s.grid.resolution := by
  rw [grid_substep, resolution_transfer]

@[simp] theorem substeps_substep (s : Simulation R) : s.substep.substeps = s.substeps + 1 := by
  unfold substep
  dsimp only
  split <;> rfl

theorem particles_transfer (s : Simulation R) :
    s.transfer.particles = s.particles.map fun p =>
      (p.scatter s.params s.grid).particle.gather s.params.timeStep s.transfer.grid := by
  simp only [transfer, MaterialPoint.gather, MaterialPoint.scatter, List.map_map]
  rfl

theorem getElem?_transfer {s : Simulation R} {i : Nat} {p : Particle R}
    (hp : s.particles[i]? = some p) : s.transfer.particles[i]? =
      some ((p.scatter s.params s.grid).particle.gather s.params.timeStep s.transfer.grid) := by
  rw [particles_transfer, List.getElem?_map, hp, Option.map_some]

theorem particles_substep {s : Simulation R} (hr : s.params.repairs = false) :
    s.substep.particles = s.transfer.particles := by
  have h : s.transfer.params.repairs = false := hr
  simp [substep, h]

theorem particles_substep_of_repairs {s : Simulation R} (hr : s.params.repairs = true) :
    s.substep.particles = s.transfer.particles.repair (interior s.params) := by
  have h : s.transfer.params.repairs = true := hr
  simp only [substep, h, if_true]
  rfl

theorem getElem?_substep_of_isHealthy {s : Simulation R} {i : Nat} {p : Particle R}
    (hp : s.transfer.particles[i]? = some p)
    (hhealthy : s.params.repairs = true → p.isHealthy = true) :
    s.substep.particles[i]? = some p := by
  cases hr : s.params.repairs with
  | false => rw [particles_substep hr, hp]
  | true =>
    rw [particles_substep_of_repairs hr, Population.repair, List.getElem?_map, hp, Option.map_some,
      Particle.repair_of_isHealthy (hhealthy hr)]

theorem params_repeat_substep (s : Simulation R) (k : Nat) :
    (Nat.repeat substep k s).params = s.params := by
  induction k with
  | zero => rfl
  | succ k ih => rw [Nat.repeat, params_substep, ih]

@[simp] theorem params_frame (s : Simulation R) : s.frame.params = s.params :=
  params_repeat_substep ..

private theorem repeat_substep_substeps (n : Nat) (s : Simulation R) :
    (Nat.repeat substep n s).substeps = s.substeps + n := by
  induction n with
  | zero => rfl
  | succ n ih => rw [Nat.repeat, substeps_substep, ih, Nat.add_assoc]

theorem substeps_frame (s : Simulation R) :
    s.frame.substeps = s.substeps + s.params.substepsPerFrame := repeat_substep_substeps ..

end Simulation
end MaterialPoint
