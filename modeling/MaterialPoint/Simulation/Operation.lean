import MaterialPoint.Simulation

/-! Operations that assign in place. One that fails on the way keeps what it has assigned. -/
namespace MaterialPoint

/-- A program that changes a simulation in place and may fail on the way. -/
abbrev Operation (R : Type) := EStateM (Fault R) (Simulation R)

variable {R : Type} [Scalar R]

namespace Operation

/-- Fills the budget with particles from regions, and tells how many they are. -/
def seed [Generator R] (schedule : Seeding.Schedule) (regions : List (Region R))
    (number : UInt64) : Operation R Nat := do
  let budget := (← get).params.budget
  let particles ← MonadExcept.ofExcept (Seeding.sample schedule regions budget number)
  modify fun s => { s with particles }
  modify fun s => { s with substeps := 0 }
  return particles.length

def setParticles (particles : Population R) : Operation R Unit := do
  modify fun s => { s with particles }
  modify fun s => { s with substeps := 0 }

/-- The lattice is compared with the new parameters before these take their place. -/
def setParams (params : Params R) : Operation R Unit := do
  MonadExcept.ofExcept params.validate
  if params.resolution ≠ (← get).grid.resolution then
    modify fun s => { s with grid := Grid.empty params.resolution }
  modify fun s => { s with params }

def repair : Operation R (List (Instability R)) := do
  let found := (← get).particles.instabilities
  modify fun s => { s with particles := s.particles.repair (Simulation.interior s.params) }
  return found

variable [Exponential R] [SingularValues R]

/-- Every node is set to zero, the phases follow, and the substep is counted at its end. -/
def substep : Operation R Unit := do
  let params := (← get).params
  modify fun s => { s with grid := s.grid.mapNodes fun _ _ => 0 }
  modify fun s =>
    let (particles, grid) := scatter params s.particles s.grid
    { s with particles, grid }
  modify fun s => { s with grid := s.grid.settle params.gravity params.timeStep params.wallWidth }
  modify fun s => { s with particles := gather params s.grid s.particles }
  if params.repairs then discard repair
  modify fun s => { s with substeps := s.substeps + 1 }

def repeatedly (x : Operation R Unit) : (count : Nat) → Operation R Unit
  | 0 => return
  | count + 1 => do
    repeatedly x count
    x

def frame : Operation R Unit := do
  repeatedly substep (← get).params.substepsPerFrame

end Operation

inductive Command (R : Type) where
  | seed (schedule : Seeding.Schedule) (regions : List (Region R)) (number : UInt64)
  | setParticles (particles : Population R)
  | modifyParticles (f : Population R → Population R)
  | setParams (params : Params R)
  | setGravity (gravity : R)
  | substep
  | frame
  | repair

inductive Reply (R : Type) where
  | done
  | count (particles : Nat)
  | found (instabilities : List (Instability R))

variable [Generator R] [Exponential R] [SingularValues R]

def Command.operation : Command R → Operation R (Reply R)
  | .seed schedule regions number => .count <$> Operation.seed schedule regions number
  | .setParticles particles => Functor.mapConst .done (Operation.setParticles particles)
  | .modifyParticles f => Functor.mapConst .done (modify (Simulation.modifyParticles · f))
  | .setParams params => Functor.mapConst .done (Operation.setParams params)
  | .setGravity gravity => Functor.mapConst .done (modify (Simulation.setGravity · gravity))
  | .substep => Functor.mapConst .done Operation.substep
  | .frame => Functor.mapConst .done Operation.frame
  | .repair => .found <$> Operation.repair

namespace Simulation

abbrev Outcome (R : Type) := EStateM.Result (Fault R) (Simulation R) (Reply R)

def perform (s : Simulation R) (c : Command R) : Outcome R := c.operation.run s

namespace Outcome

def state : Outcome R → Simulation R
  | .ok _ s | .error _ s => s

def answer : Outcome R → Except (Fault R) (Reply R)
  | .ok reply _ => .ok reply
  | .error fault _ => .error fault

end Outcome

/-- The simulation after commands. A command that fails is followed by the next one. -/
def run (s : Simulation R) (commands : List (Command R)) : Simulation R :=
  commands.foldl (fun t c => (t.perform c).state) s

end Simulation

end MaterialPoint
