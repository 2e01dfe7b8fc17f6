import MaterialPoint.Scene
import MaterialPoint.Simulation.Words

/-! A simulation driven from outside. Edits wait for an update, which takes them over and runs a
frame. -/
namespace MaterialPoint

/-- Whether the simulation runs, and how it is shown. -/
structure Control where
  isPaused : Bool
  colorMode : ColorMode
  deriving DecidableEq, Repr, Inhabited

def Control.togglePause (c : Control) : Control := { c with isPaused := !c.isPaused }

/-- A value with the mark of an edit since the mark was last taken off. -/
structure Edited (α : Type) where
  value : α
  isTouched : Bool

namespace Edited
variable {α : Type}

def clean (value : α) : Edited α := ⟨value, false⟩

/-- An edit marks a value, also when it leaves it as it was. -/
def edit (e : Edited α) (f : α → α) : Edited α := ⟨f e.value, true⟩

@[simp] theorem isTouched_clean (value : α) : (clean value).isTouched = false := rfl

@[simp] theorem isTouched_edit (e : Edited α) (f : α → α) : (e.edit f).isTouched = true := rfl

@[simp] theorem value_edit (e : Edited α) (f : α → α) : (e.edit f).value = f e.value := rfl

end Edited

structure Session (R : Type) where
  params : Edited (Params R)
  scene : Edited (Scene R)
  control : Control
  simulation : Simulation R
  isStarted : Bool

namespace Session
variable {R : Type} [Scalar R]

/-- A session before its first update, when the parameters can drive a simulation. -/
def start (params : Params R) (scene : Scene R) : Except (Fault R) (Session R) := do
  let simulation ← Simulation.start params
  return ⟨.clean params, .clean scene, ⟨false, .byMaterial⟩, simulation, false⟩

def start? (params : Params R) (scene : Scene R) : Option (Except (Fault R) (Session R)) :=
  if Simulation.supports params then some (start params scene) else none

def editParams (s : Session R) (f : Params R → Params R) : Session R :=
  { s with params := s.params.edit f }

def editScene (s : Session R) (f : Scene R → Scene R) : Session R :=
  { s with scene := s.scene.edit f }

def editControl (s : Session R) (f : Control → Control) : Session R :=
  { s with control := f s.control }

def editSimulation (s : Session R) (f : Simulation R → Simulation R) : Session R :=
  { s with simulation := f s.simulation }

/-- Whether the next update is the first, to which parameters and scene are new. -/
def isNew (s : Session R) : Bool := !s.isStarted

/-- Whether the next update finds a value changed. What is new counts as changed. -/
def isChanged {α : Type} (s : Session R) (e : Edited α) : Bool := s.isNew || e.isTouched

/-- Whether the next update takes no notice of a value, which is not changed or is new. -/
def ignores {α : Type} (s : Session R) (e : Edited α) : Bool := !s.isChanged e || s.isNew

/-- Takes over parameters that were edited, unless they cannot drive the simulation. -/
def syncParams (s : Session R) : Session R :=
  if s.ignores s.params then s
  else
    match s.simulation.setParams s.params.value with
    | .ok simulation => { s with simulation }
    | .error _ => s

def syncParams? (s : Session R) : Option (Session R) :=
  if s.ignores s.params || Simulation.supports s.params.value then some s.syncParams else none

variable [Generator R]

/-- Seeds the simulation from the scene. A scene that cannot be seeded changes nothing. -/
def seedScene (s : Session R) (schedule : Seeding.Schedule) : Session R :=
  match s.simulation.seed schedule s.scene.value.regions s.scene.value.seed with
  | .ok simulation => { s with simulation }
  | .error _ => s

/-- Seeds the scene before anything else happens. -/
def opened (s : Session R) (schedule : Seeding.Schedule) : Session R :=
  if s.isNew then s.seedScene schedule else s

/-- Seeds a scene that was edited, and pauses if the scene asks for it. -/
def reseed (s : Session R) (schedule : Seeding.Schedule) : Session R :=
  if s.ignores s.scene then s
  else
    match s.simulation.seed schedule s.scene.value.regions s.scene.value.seed with
    | .ok simulation =>
      { s with
        simulation
        control := { s.control with
          isPaused := s.control.isPaused || s.scene.value.pausesAfterSeeding } }
    | .error _ => s

/-- Whether the simulation can hold the particles of the scene. -/
def holdsScene (s : Session R) : Bool :=
  Seeding.fits s.scene.value.regions s.simulation.params.budget

def seedScene? (s : Session R) (schedule : Seeding.Schedule) : Option (Session R) :=
  if s.holdsScene then some (s.seedScene schedule) else none

def opened? (s : Session R) (schedule : Seeding.Schedule) : Option (Session R) :=
  if s.isNew then s.seedScene? schedule else some s

def reseed? (s : Session R) (schedule : Seeding.Schedule) : Option (Session R) :=
  if s.ignores s.scene || s.holdsScene then some (s.reseed schedule) else none

/-- The session after an update, in which nothing is edited. -/
def settled (s : Session R) : Session R :=
  { s with params := .clean s.params.value, scene := .clean s.scene.value, isStarted := true }

variable [Exponential R] [SingularValues R]

def step (s : Session R) : Session R :=
  if s.control.isPaused then s else { s with simulation := s.simulation.frame }

def step? (s : Session R) : Option (Session R) :=
  if s.control.isPaused then some s
  else s.simulation.frame?.map fun simulation => { s with simulation }

/-- The first update seeds the scene. Then every update takes over what was edited and runs a
frame. -/
def update (s : Session R) (schedule : Seeding.Schedule) : Session R :=
  (((s.opened schedule).syncParams.reseed schedule).step).settled

def update? (s : Session R) (schedule : Seeding.Schedule) : Option (Session R) := do
  let s ← s.opened? schedule
  let s ← s.syncParams?
  let s ← s.reseed? schedule
  return (← s.step?).settled

end Session
end MaterialPoint
