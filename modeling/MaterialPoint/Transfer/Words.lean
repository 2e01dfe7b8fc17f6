import MaterialPoint.Transfer.Gather
import MaterialPoint.Transfer.Scatter

/-! The transfers in machine words. A transfer stops where the coordinate or the number of a node
leaves its word. -/
namespace MaterialPoint
variable {R : Type} [Scalar R]

namespace Grid

@[inline] def deposit? (g : Grid R) (d : Deposit R) : Option (Grid R) :=
  (g.accumulate? d.coord d.mass d.momentum).map (·.1)

/-- Whether the nodes around a position have coordinates that are words, if anything looks for
them. -/
def isInReach (g : Grid R) (p : Vec3 R) : Bool :=
  !g.contains p || (Stencil.around p g.cellSize).fits

def motionAt? (g : Grid R) (position : Vec3 R) : Option (Motion R) :=
  let inverseMoment := Stencil.inverseMoment g.cellSize
  (Stencil.around position g.cellSize).neighbors.foldlM
    (fun motion neighbor => (g.lookup? neighbor.coord).map fun
      | some node => motion.add inverseMoment neighbor node
      | none => motion)
    ⟨0, 0⟩

end Grid

namespace Particle

def gather? (timeStep : R) (g : Grid R) (p : Particle R) : Option (Particle R) :=
  if !g.isInReach p.position then none
  else if g.contains p.position then (g.motionAt? p.position).map (p.carry timeStep)
  else some p

variable [Exponential R] [SingularValues R]

def scatter? (params : Params R) (g : Grid R) (p : Particle R) : Option (Scattered R) :=
  if g.isInReach p.position then some (p.scatter params g) else none

end Particle

def gather? (params : Params R) (g : Grid R) (ps : Population R) : Option (Population R) :=
  ps.mapM (Particle.gather? params.timeStep g)

variable [Exponential R] [SingularValues R]

def scatter? (params : Params R) (ps : Population R) (g : Grid R) :
    Option (Population R × Grid R) := do
  let shares ← ps.mapM (Particle.scatter? params g)
  let g ← shares.foldlM (fun g share => share.deposits.foldlM Grid.deposit? g) g
  return (shares.map (·.particle), g)

end MaterialPoint
