import MaterialPoint.Simulation.Operation
import MaterialPoint.Transfer.Words

/-! The simulation as it runs, in machine words. Whatever leaves its word stops the program, and
then there is no result. -/
namespace MaterialPoint.Simulation
variable {R : Type} [Scalar R]

/-- The repair, which stops at a broken particle that cannot be brought inside the walls. -/
def repair? (s : Simulation R) : Option (Simulation R) :=
  (s.particles.repair? (interior s.params)).map fun (particles, _) => { s with particles }

def mend? (s : Simulation R) : Option (Simulation R) :=
  if s.params.repairs then s.repair? else some s

variable [Exponential R] [SingularValues R]

def transfer? (s : Simulation R) : Option (Simulation R) := do
  let (particles, grid) ← MaterialPoint.scatter? s.params s.particles s.grid.reset
  let grid ← grid.settle? s.params.gravity s.params.timeStep s.params.wallWidth
  let particles ← MaterialPoint.gather? s.params grid particles
  return { s with particles, grid }

def substep? (s : Simulation R) : Option (Simulation R) := do
  let s ← s.transfer?
  let s ← s.mend?
  return { s with substeps := s.substeps + 1 }

def substeps? (s : Simulation R) : (count : Nat) → Option (Simulation R)
  | 0 => some s
  | count + 1 => (s.substeps? count).bind substep?

def frame? (s : Simulation R) : Option (Simulation R) := s.substeps? s.params.substepsPerFrame

variable [Generator R]

/-- What comes of a command, unless it stops. -/
def perform? (s : Simulation R) (c : Command R) : Option (Outcome R) :=
  match c with
  | .seed _ regions _ =>
    if Seeding.fits regions s.params.budget then some (s.perform c) else none
  | .setParams params => if supports params then some (s.perform c) else none
  | .substep => s.substep?.map (.ok .done ·)
  | .frame => s.frame?.map (.ok .done ·)
  | .repair => s.repair?.map (.ok (.found s.instabilities) ·)
  | .setParticles _ | .modifyParticles _ | .setGravity _ => some (s.perform c)

/-- The simulation after commands of which none stops. -/
def run? (s : Simulation R) (commands : List (Command R)) : Option (Simulation R) :=
  commands.foldlM (fun t c => (t.perform? c).map Outcome.state) s

end MaterialPoint.Simulation
