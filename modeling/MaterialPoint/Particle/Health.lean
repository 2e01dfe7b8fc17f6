import MaterialPoint.Particle.Basic

/-! Particles whose state has left the range where a stress has a meaning, and their repair. -/
namespace MaterialPoint

/-- A broken particle: its place among the particles and the ratio of volume it was found with. -/
structure Instability (R : Type) where
  index : Nat
  volumeRatio : R
  deriving DecidableEq, Repr

def Instability.message {R : Type} [DecimalText R] (i : Instability R) : String :=
  s!"numerical instability at particle {i.index}: det(F) = " ++ DecimalText.text i.volumeRatio

namespace Particle
variable {R : Type} [Scalar R]

/-- Whether all numbers of a particle are finite and its ratio of volume is positive. -/
def isHealthy (p : Particle R) : Bool :=
  p.deformation.isFinite && p.affine.isFinite && p.position.isFinite && p.velocity.isFinite &&
    Scalar.isFinite p.plasticity && Admissible.volumeRatio p.volumeRatio

def instability? (p : Particle R) (index : Nat) : Option (Instability R) :=
  if p.isHealthy then none else some ⟨index, p.volumeRatio⟩

/-- The particle in its shape at rest. A velocity that is not finite is dropped. -/
def resetShape (p : Particle R) : Particle R :=
  { p with
    deformation := 1
    affine := 0
    plasticity := 1
    velocity := if p.velocity.isFinite then p.velocity else 0 }

/-- A component of a position that is not finite, brought between two bounds: what is not a number
goes to the middle. -/
def recoverComponent (lo hi x : R) : R :=
  if Scalar.isNaN x then (lo + hi) * 0.5 else Scalar.clamp lo hi x

/-- The particle with a position inside a box, unless its position is finite. -/
def recoverPosition (b : Bounds R) (p : Particle R) : Particle R :=
  if p.position.isFinite then p
  else
    { p with
      position := ⟨recoverComponent b.lo.x b.hi.x p.position.x,
        recoverComponent b.lo.y b.hi.y p.position.y, recoverComponent b.lo.z b.hi.z p.position.z⟩ }

def componentRecoverable (lo hi x : R) : Bool := Scalar.isNaN x || lo ≤ hi

/-- Whether the bounds are in order wherever the position has to be brought between them. -/
def isRecoverable (b : Bounds R) (p : Particle R) : Bool :=
  p.position.isFinite ||
    (componentRecoverable b.lo.x b.hi.x p.position.x &&
      componentRecoverable b.lo.y b.hi.y p.position.y &&
      componentRecoverable b.lo.z b.hi.z p.position.z)

def recoverPosition? (b : Bounds R) (p : Particle R) : Option (Particle R) :=
  if p.isRecoverable b then some (p.recoverPosition b) else none

/-- The particle itself if it is healthy, otherwise at rest inside a box. -/
def repair (b : Bounds R) (p : Particle R) : Particle R :=
  if p.isHealthy then p else p.resetShape.recoverPosition b

theorem repair_of_isHealthy {b : Bounds R} {p : Particle R} (h : p.isHealthy) : p.repair b = p :=
  if_pos h

end Particle
end MaterialPoint
