import MaterialPoint.Fault
import MaterialPoint.Word

/-! Parameters of the solver: the lattice, the time step, gravity and the elastic constants. -/
namespace MaterialPoint

structure Params (R : Type) where
  /-- Lattice nodes along each axis. The domain is the unit cube. -/
  resolution : Nat
  /-- Particles of a scene. -/
  budget : Nat
  timeStep : R
  substepsPerFrame : Nat
  /-- Acceleration downwards along the second axis. -/
  gravity : R
  /-- Cells of the band along every face of the domain that stops motion outwards. -/
  wallWidth : Nat
  youngsModulus : R
  poissonRatio : R
  density : R
  /-- Whether broken particles are repaired after every substep. -/
  repairs : Bool
  deriving DecidableEq, Repr

variable {R : Type} [Scalar R]

namespace Elastic

/-- Resistance to shear under a modulus and a ratio. -/
def shearModulus (young poisson : R) : R := young / (2.0 * (1 + poisson))

/-- Resistance to a change of volume at fixed shape, less its share of shear. -/
def lambda (young poisson : R) : R :=
  young * poisson / ((1 + poisson) * (1 - 2.0 * poisson))

end Elastic

namespace Admissible

def density (x : R) : Bool := 0 < x && x < 50000.0 && Scalar.isFinite x

def youngsModulus (x : R) : Bool := 0 < x && x < 1e12 && Scalar.isFinite x

def poissonRatio (x : R) : Bool := -1 < x && x < 0.5 && Scalar.isFinite x

/-- Ratios of volume that a deformation can have. -/
def volumeRatio (x : R) : Bool := 0 < x && Scalar.isFinite x

def timeStep (x : R) : Bool := 0 < x && Scalar.isFinite x

end Admissible

namespace Params

def standardGravity : R := 9.8

def standardYoungsModulus : R := 400.0

def standardPoissonRatio : R := 0.2

def standardDensity : R := 1

/-- The standard scene on a lattice: a particle for every four nodes. -/
def ofResolution (resolution : Nat) : Params R where
  resolution
  budget := resolution * resolution * resolution / 4
  timeStep := 2e-4
  substepsPerFrame := 25
  gravity := standardGravity
  wallWidth := 3
  youngsModulus := standardYoungsModulus
  poissonRatio := standardPoissonRatio
  density := standardDensity
  repairs := true

def ofResolution? (resolution : Nat) : Option (Params R) :=
  if Word.fits64 (resolution * resolution * resolution) then some (ofResolution resolution)
  else none

instance : Inhabited (Params R) := ⟨ofResolution 64⟩

@[inline] def cellSize (p : Params R) : R := 1 / (p.resolution : R)

def particleVolume (p : Params R) : R := (p.cellSize * 0.5) * (p.cellSize * 0.5)

def particleMass (p : Params R) : R := p.particleVolume * p.density

def mu (p : Params R) : R := Elastic.shearModulus p.youngsModulus p.poissonRatio

def lambda (p : Params R) : R := Elastic.lambda p.youngsModulus p.poissonRatio

/-- The first thing wrong with the parameters. -/
def fault? (p : Params R) : Option (ParamFault R) :=
  if p.resolution < 3 then some (.gridTooSmall p.resolution)
  else if p.budget = 0 then some .emptyBudget
  else if !Admissible.timeStep p.timeStep then some (.badTimeStep p.timeStep)
  else if !Scalar.isFinite p.gravity then some .gravityNotFinite
  else if p.wallWidth * 2 > p.resolution then some (.wallsCoverGrid p.wallWidth p.resolution)
  else if !Admissible.youngsModulus p.youngsModulus then some (.badYoungsModulus p.youngsModulus)
  else if !Admissible.poissonRatio p.poissonRatio then some (.badPoissonRatio p.poissonRatio)
  else if !Admissible.density p.density then some (.badDensity p.density)
  else none

def Valid (p : Params R) : Prop := p.fault?.isNone

instance (p : Params R) : Decidable p.Valid := inferInstanceAs (Decidable (_ = true))

def validate (p : Params R) : Except (Fault R) Unit :=
  match p.fault? with
  | some fault => .error (.parameter fault)
  | none => .ok ()

/-- Whether the doubled width of the walls is a count, if it comes to comparing it. -/
def areWallsCountable (p : Params R) : Bool :=
  match p.fault? with
  | some (.wallsCoverGrid wallWidth _) => Word.fits64 (wallWidth * 2)
  | _ => true

/-- The validation of parameters whose walls can be compared with the lattice. -/
def validate? (p : Params R) : Option (Except (Fault R) Unit) :=
  if p.areWallsCountable then some p.validate else none

end Params
end MaterialPoint
