import MaterialPoint.Grid.Basic
import MaterialPoint.Material.Response
import MaterialPoint.Particle.Population

/-! From particles to the lattice. Every particle deforms, finds its stress and deposits mass and
momentum on the nodes around it. -/
namespace MaterialPoint

@[ext] structure Deposit (R : Type) where
  coord : Coord
  mass : R
  momentum : Vec3 R

/-- A particle after its deformation with what it deposits. -/
structure Scattered (R : Type) where
  particle : Particle R
  deposits : List (Deposit R)

variable {R : Type} [Scalar R]

/-- The lattice after a deposit. Off the lattice a deposit is lost. -/
@[inline] def Grid.deposit (g : Grid R) (d : Deposit R) : Grid R :=
  (g.accumulate d.coord d.mass d.momentum).1

@[simp] theorem Grid.resolution_foldl_deposit (g : Grid R) (deposits : List (Deposit R)) :
    (deposits.foldl Grid.deposit g).resolution = g.resolution := by
  induction deposits generalizing g with
  | nil => rfl
  | cons d deposits ih => rw [List.foldl_cons, ih, Grid.deposit, Grid.resolution_accumulate]

namespace Particle

def trialDeformation (timeStep : R) (p : Particle R) : Mat3 R :=
  (1 + timeStep • p.affine) * p.deformation

/-- What a particle deposits when momentum at an offset `d` is `momentum + slope d` per unit of
weight. -/
def deposits (mass cellSize : R) (momentum : Vec3 R) (slope : Mat3 R) (p : Particle R) :
    List (Deposit R) :=
  (Stencil.around p.position cellSize).neighbors.map fun n =>
    ⟨n.coord, n.weight * mass, n.weight • (momentum + slope.apply n.offset)⟩

variable [Exponential R] [SingularValues R]

def response (params : Params R) (p : Particle R) : Response R :=
  p.material.respond (p.trialDeformation params.timeStep) p.plasticity params.mu params.lambda

def deform (r : Response R) (p : Particle R) : Particle R :=
  { p with deformation := r.deformation, plasticity := r.plasticity }

/-- The factor from a stress to the slope of the momentum that it drives during a substep. -/
def stressScale (params : Params R) (cellSize : R) : R :=
  -params.timeStep * params.particleVolume * Stencil.inverseMoment cellSize

/-- The slope of the momentum around a particle: what its stress drives and what it carries. -/
def momentumSlope (params : Params R) (cellSize : R) (stress : Mat3 R) (p : Particle R) : Mat3 R :=
  stressScale params cellSize • stress + params.particleMass • p.affine

/-- The share of one particle in the scatter. A particle outside the domain has none. -/
def scatter (params : Params R) (g : Grid R) (p : Particle R) : Scattered R :=
  if g.contains p.position then
    let r := p.response params
    { particle := p.deform r
      deposits := p.deposits params.particleMass g.cellSize (params.particleMass • p.velocity)
        (p.momentumSlope params g.cellSize r.stress) }
  else ⟨p, []⟩

end Particle

variable [Exponential R] [SingularValues R]

def scatter (params : Params R) (ps : Population R) (g : Grid R) : Population R × Grid R :=
  let shares := ps.map (Particle.scatter params g)
  (shares.map (·.particle), shares.foldl (fun g share => share.deposits.foldl Grid.deposit g) g)

@[simp] theorem resolution_scatter (params : Params R) (ps : Population R) (g : Grid R) :
    (scatter params ps g).2.resolution = g.resolution := by
  simp only [scatter]
  generalize ps.map (Particle.scatter params g) = shares
  induction shares generalizing g with
  | nil => rfl
  | cons share shares ih => rw [List.foldl_cons, ih, Grid.resolution_foldl_deposit]

theorem scatter_snd (params : Params R) (ps : Population R) (g : Grid R) :
    (scatter params ps g).2 =
      (ps.flatMap fun p => (p.scatter params g).deposits).foldl Grid.deposit g := by
  simp only [scatter, List.foldl_map, List.foldl_flatMap]

@[simp] theorem length_scatter (params : Params R) (ps : Population R) (g : Grid R) :
    (scatter params ps g).1.length = ps.length := by
  simp [scatter]

end MaterialPoint
