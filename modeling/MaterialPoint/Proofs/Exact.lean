import Mathlib
import MaterialPoint.Random.Seed

/-! Exact arithmetic: the operations of the solver in an ordered field with a floor. -/
namespace MaterialPoint.Exact

/-- The operations of an ordered field. Dividing by zero gives zero. -/
scoped instance scalar (K : Type) [Field K] [LinearOrder K] [IsStrictOrderedRing K]
    [FloorRing K] : Scalar K where
  zero := 0
  one := 1
  add := (· + ·)
  sub := (· - ·)
  mul := (· * ·)
  div := (· / ·)
  neg := (- ·)
  natCast n := n
  intCast i := i
  ofScientific := OfScientific.ofScientific
  lt := (· < ·)
  le := (· ≤ ·)
  beq a b := decide (a = b)
  decidableLT := inferInstance
  decidableLE := inferInstance
  isFinite _ := true
  isNaN _ := false
  floorInt := Int.floor
  floorNat := Nat.floor

scoped instance : Generator ℚ := Random.generator

variable {K : Type} [Field K] [LinearOrder K] [IsStrictOrderedRing K] [FloorRing K]

@[simp] theorem isFinite_eq (x : K) : Scalar.isFinite x = true := rfl

@[simp] theorem reciprocal_eq_inv (x : K) : Scalar.reciprocal x = x⁻¹ := by
  by_cases h : x = 0
  · subst h
    simp [Scalar.reciprocal, BEq.beq]
  · simp [Scalar.reciprocal, BEq.beq, h]

theorem least_eq_min (a b : K) : Scalar.least a b = min a b := by
  rcases lt_or_ge a b with h | h
  · exact (if_pos h).trans (min_eq_left h.le).symm
  · exact (if_neg h.not_gt).trans (min_eq_right h).symm

theorem greatest_eq_max (a b : K) : Scalar.greatest a b = max a b := by
  rcases lt_or_ge b a with h | h
  · exact (if_pos h).trans (max_eq_left h.le).symm
  · exact (if_neg h.not_gt).trans (max_eq_right h).symm

end MaterialPoint.Exact
