import MaterialPoint.Grid.Basic
import MaterialPoint.Particle.Population

/-! From the lattice back to the particles: the velocity around each particle and its gradient. -/
namespace MaterialPoint
variable {R : Type} [Scalar R]

@[ext] structure Motion (R : Type) where
  velocity : Vec3 R
  affine : Mat3 R

@[inline] def Motion.add (inverseMoment : R) (motion : Motion R) (neighbor : Neighbor R)
    (node : Node R) : Motion R :=
  let v := neighbor.weight • node.velocity
  { velocity := motion.velocity + v
    affine := motion.affine + inverseMoment • Mat3.outer v neighbor.offset }

/-- The motion of the lattice around a position. Nodes that are not on the lattice have no share. -/
def Grid.motionAt (g : Grid R) (position : Vec3 R) : Motion R :=
  let inverseMoment := Stencil.inverseMoment g.cellSize
  (Stencil.around position g.cellSize).neighbors.foldl
    (fun motion neighbor =>
      match g.node? neighbor.coord with
      | some node => motion.add inverseMoment neighbor node
      | none => motion)
    ⟨0, 0⟩

@[inline] def Particle.carry (timeStep : R) (p : Particle R) (motion : Motion R) : Particle R :=
  { p with
    velocity := motion.velocity
    affine := motion.affine
    position := p.position + timeStep • motion.velocity }

/-- A particle moved with the lattice for a substep. A particle outside the domain stays. -/
def Particle.gather (timeStep : R) (g : Grid R) (p : Particle R) : Particle R :=
  if g.contains p.position then p.carry timeStep (g.motionAt p.position) else p

def gather (params : Params R) (g : Grid R) (ps : Population R) : Population R :=
  ps.map (Particle.gather params.timeStep g)

@[simp] theorem length_gather (params : Params R) (g : Grid R) (ps : Population R) :
    (gather params g ps).length = ps.length := List.length_map _

end MaterialPoint
