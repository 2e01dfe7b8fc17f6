/-! Numbers of the solver. Rules use the operations below and no law of theirs. -/
namespace MaterialPoint

/-- Arithmetic of one kind of number. What is not a number may compare false with everything. -/
class Scalar (R : Type) extends Zero R, One R, Add R, Sub R, Mul R, Div R, Neg R,
    NatCast R, IntCast R, OfScientific R, LT R, LE R, BEq R where
  decidableLT : DecidableLT R
  decidableLE : DecidableLE R
  isFinite : R → Bool
  isNaN : R → Bool
  /-- The greatest integer not above a number. What is not finite has a floor of its own. -/
  floorInt : R → Int
  /-- The greatest natural number not above a number, zero below zero. -/
  floorNat : R → Nat

namespace Scalar

instance {R : Type} [Scalar R] : DecidableLT R := decidableLT

instance {R : Type} [Scalar R] : DecidableLE R := decidableLE

variable {R : Type} [Scalar R]

@[inline] def least (a b : R) : R := if a < b then a else b

@[inline] def greatest (a b : R) : R := if a > b then a else b

/-- The nearest number between two bounds. What compares with nothing is left as it is. -/
@[inline] def clamp (lo hi x : R) : R := if x < lo then lo else if x > hi then hi else x

@[inline] def reciprocal (a : R) : R := if a == 0 then 0 else 1 / a

/-- The point at fraction `t` of the way from `a` to `b`. -/
@[inline] def lerp (a b t : R) : R := a + (b - a) * t

/-- The size of a number and the sign to multiply it with. Every zero counts as positive. -/
@[inline] def polar (x : R) : R × R := if 0 ≤ x then (x, 1) else (-x, -1)

end Scalar

class Exponential (R : Type) where
  exp : R → R

/-- Signs, sizes and square roots of a number type, and how closely it tells numbers apart. -/
class Magnitude (R : Type) where
  abs : R → R
  /-- One or minus one. A zero has the sign that the number type gives it. -/
  sign : R → R
  sqrt : R → R
  /-- The gap between one and the next greater number. -/
  epsilon : R

class DecimalText (R : Type) where
  text : R → String

end MaterialPoint
