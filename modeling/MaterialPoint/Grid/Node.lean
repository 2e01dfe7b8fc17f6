import MaterialPoint.Linear.Vec3

/-! A lattice node, which gathers contributions one number at a time. -/
namespace MaterialPoint
variable {R : Type}

/-- What a shared number held before an addition, and what it holds after. -/
@[inline] def fetchAdd [Add R] (held amount : R) : R × R := (held, held + amount)

/-- Mass and velocity of a node. While contributions are gathered, the momentum stands in the
place of the velocity. -/
@[ext] structure Node (R : Type) where
  mass : R
  velocity : Vec3 R
  deriving DecidableEq, Repr

namespace Node

inductive Slot where
  | mass
  | x
  | y
  | z
  deriving DecidableEq, Repr

variable [Scalar R]

instance : Zero (Node R) := ⟨⟨0, 0⟩⟩

@[inline] def add (n : Node R) : Slot → R → Node R
  | .mass, a => { n with mass := (fetchAdd n.mass a).2 }
  | .x, a => { n with velocity := { n.velocity with x := (fetchAdd n.velocity.x a).2 } }
  | .y, a => { n with velocity := { n.velocity with y := (fetchAdd n.velocity.y a).2 } }
  | .z, a => { n with velocity := { n.velocity with z := (fetchAdd n.velocity.z a).2 } }

/-- Adds mass and momentum, number after number. -/
@[inline] def accumulate (n : Node R) (mass : R) (momentum : Vec3 R) : Node R :=
  (((n.add .mass mass).add .x momentum.x).add .y momentum.y).add .z momentum.z

@[inline] def momentum (n : Node R) : Vec3 R := n.mass • n.velocity

end Node
end MaterialPoint
