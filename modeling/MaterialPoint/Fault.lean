import MaterialPoint.Scalar

/-! What can be wrong with a scene or its parameters, and how it is reported. -/
namespace MaterialPoint

inductive ParamFault (R : Type) where
  | gridTooSmall (resolution : Nat)
  | emptyBudget
  | badTimeStep (timeStep : R)
  | gravityNotFinite
  | wallsCoverGrid (wallWidth resolution : Nat)
  | badYoungsModulus (youngsModulus : R)
  | badPoissonRatio (poissonRatio : R)
  | badDensity (density : R)
  deriving DecidableEq, Repr

/-- Why a scene cannot be set up. -/
inductive Fault (R : Type) where
  /-- The regions of the scene have no volume to fill, or none that is finite. -/
  | degenerateScene (totalVolume : R)
  /-- A face has neither three nor four corners. -/
  | unsupportedFace (face corners : Nat)
  /-- A face names a vertex that the mesh does not have. -/
  | meshIndex (index vertices : Nat)
  | parameter (fault : ParamFault R)
  deriving DecidableEq, Repr

variable {R : Type} [DecimalText R]

def ParamFault.message : ParamFault R → String
  | gridTooSmall resolution => s!"n_grid must be at least 3, got {resolution}"
  | emptyBudget => "particle budget must be positive"
  | badTimeStep timeStep => "dt must be positive and finite, got " ++ DecimalText.text timeStep
  | gravityNotFinite => "gravity must be finite"
  | wallsCoverGrid wallWidth resolution =>
    s!"boundary width {wallWidth} covers the whole {resolution}-cell grid"
  | badYoungsModulus modulus => "unreasonable Young's modulus " ++ DecimalText.text modulus
  | badPoissonRatio ratio => "Poisson ratio " ++ DecimalText.text ratio ++ " outside (-1, 0.5)"
  | badDensity density => "unreasonable particle density " ++ DecimalText.text density

def Fault.message : Fault R → String
  | degenerateScene totalVolume =>
    "degenerate scene: total seeding volume is " ++ DecimalText.text totalVolume
  | unsupportedFace face corners =>
    s!"unsupported face {face}: {corners} vertices (only triangles and quads)"
  | meshIndex index vertices => s!"mesh index {index} out of range for {vertices} vertices"
  | parameter fault => "invalid solver parameter: " ++ fault.message

end MaterialPoint
