import MaterialPoint.Particle.Health
import MaterialPoint.Scalar.Sum

/-! The particles of a scene together: their motion, their extent, their colors and their repair. -/
namespace MaterialPoint

abbrev Population (R : Type) := List (Particle R)

inductive ColorMode where
  | byMaterial
  | ownColor
  deriving DecidableEq, Repr, Inhabited

structure Palette (R : Type) where
  water : Vec3 R
  jelly : Vec3 R
  snow : Vec3 R
  deriving DecidableEq, Repr

namespace Palette
variable {R : Type}

def color (palette : Palette R) : Material → Vec3 R
  | .water => palette.water
  | .jelly => palette.jelly
  | .snow => palette.snow

def standard [Scalar R] : Palette R where
  water := ⟨0.1, 0.6, 0.9⟩
  jelly := ⟨0.93, 0.33, 0.23⟩
  snow := Vec3.splat 1

end Palette

namespace Population
variable {R : Type} [Scalar R]

def positions (ps : Population R) : List (Vec3 R) := ps.map (·.position)

def colors (ps : Population R) (mode : ColorMode) (palette : Palette R) : List (Vec3 R) :=
  ps.map fun p => match mode with
    | .byMaterial => palette.color p.material
    | .ownColor => p.color

def totalMomentum (ps : Population R) (mass : R) : Vec3 R :=
  sumByEighths (ps.map fun p => mass • p.velocity)

/-- The mean of the velocities, zero when there are none. -/
def meanVelocity (ps : Population R) : Vec3 R :=
  if ps.isEmpty then 0 else ps.totalMomentum 1 / (ps.length : R)

def bounds? (ps : Population R) : Option (Bounds R) := Bounds.of? ps.positions

def instabilities (ps : Population R) : List (Instability R) :=
  (ps.mapIdx fun i p => p.instability? i).filterMap id

def repair (b : Bounds R) (ps : Population R) : Population R := ps.map (Particle.repair b)

/-- The repaired particles and what was broken, when every broken particle can be brought inside
the box. -/
def repair? (b : Bounds R) (ps : Population R) : Option (Population R × List (Instability R)) :=
  if ps.all fun p => p.isHealthy || p.isRecoverable b then some (ps.repair b, ps.instabilities)
  else none

end Population
end MaterialPoint
