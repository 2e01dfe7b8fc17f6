import MaterialPoint.Linear.Mat3
import MaterialPoint.Params

/-! The materials and how each of them resists a deformation. -/
namespace MaterialPoint

inductive Material where
  | water
  | jelly
  | snow
  deriving DecidableEq, Repr

namespace Material

def all : List Material := [water, jelly, snow]

def name : Material → String
  | water => "water"
  | jelly => "jelly"
  | snow => "snow"

theorem mem_all (m : Material) : m ∈ all := by
  cases m <;> decide

def isFluid : Material → Bool
  | water => true
  | jelly | snow => false

variable {R : Type} [Scalar R]

def snowHardening : R := 10.0

def jellyHardening : R := 0.3

/-- The factor on both elastic constants at plasticity `p`. Jelly is soft throughout; the others
stiffen as `p` falls below one. -/
def hardening [Exponential R] (m : Material) (p : R) : R :=
  match m with
  | jelly => jellyHardening
  | water | snow => Exponential.exp (snowHardening * (1 - p))

end Material

namespace Snow
variable {R : Type} [Scalar R]

def criticalCompression : R := 2.5e-2

def criticalStretch : R := 4.5e-3

def leastStretch : R := 1 - criticalCompression

def greatestStretch : R := 1 + criticalStretch

/-- The singular values that snow holds elastically, each the nearest to the one it had. -/
def yield (sigma : Vec3 R) : Vec3 R :=
  (sigma.greatest (Vec3.splat leastStretch)).least (Vec3.splat greatestStretch)

/-- The ratio of volume that is lost from the elastic part when singular values yield. -/
def plasticRatio (sigma yielded : Vec3 R) : R := (sigma.zipWith (· / ·) yielded).product

end Snow

namespace Water
variable {R : Type} [Scalar R]

/-- The deformation that water keeps: a ratio of volume without a shape. -/
def deformation (ratio : R) : Mat3 R := Mat3.diagonal ⟨ratio, 1, 1⟩

/-- The ratio of volume held in a deformation that water keeps. -/
def volumeRatio (deformation : Mat3 R) : R := deformation.x.x

end Water
end MaterialPoint
