import Mathlib
import MaterialPoint.Scalar

/-! Numbers with infinities and a value that is not a number. Finite arithmetic is exact until it
overflows. -/
namespace MaterialPoint

/-- Which results of an operation are too large to be a finite number. -/
class Overflow (K : Type) [Field K] [LinearOrder K] where
  isTooLarge : K → Bool
  isTooLarge_of_abs_le_one : ∀ x, |x| ≤ 1 → isTooLarge x = false

inductive Extended (K : Type) where
  | finite (x : K)
  | infinite (isNegative : Bool)
  | nan
  deriving DecidableEq, Repr

namespace Extended
variable {K : Type} [Field K] [LinearOrder K]

/-- Comparisons with what is not a number are false. -/
def less : Extended K → Extended K → Bool
  | finite x, finite y => x < y
  | finite _, infinite isNegative => !isNegative
  | infinite isNegative, finite _ => isNegative
  | infinite a, infinite b => a && !b
  | nan, _ => false
  | _, nan => false

def equal : Extended K → Extended K → Bool
  | finite x, finite y => x = y
  | infinite a, infinite b => a == b
  | _, _ => false

def neg : Extended K → Extended K
  | finite x => finite (-x)
  | infinite isNegative => infinite (!isNegative)
  | nan => nan

variable [Overflow K]

def ofExact (x : K) : Extended K :=
  if Overflow.isTooLarge x then infinite (x < 0) else finite x

theorem ofExact_of_abs_le_one {x : K} (h : |x| ≤ 1) : ofExact x = finite x := by
  rw [ofExact, Overflow.isTooLarge_of_abs_le_one x h]
  rfl

def add : Extended K → Extended K → Extended K
  | finite x, finite y => ofExact (x + y)
  | finite _, infinite b => infinite b
  | infinite a, finite _ => infinite a
  | infinite a, infinite b => if a = b then infinite a else nan
  | nan, _ => nan
  | _, nan => nan

def mul : Extended K → Extended K → Extended K
  | finite x, finite y => ofExact (x * y)
  | finite x, infinite b => if x = 0 then nan else infinite (decide (x < 0) ^^ b)
  | infinite a, finite y => if y = 0 then nan else infinite (a ^^ decide (y < 0))
  | infinite a, infinite b => infinite (a ^^ b)
  | nan, _ => nan
  | _, nan => nan

def div : Extended K → Extended K → Extended K
  | finite x, finite y =>
    if y = 0 then if x = 0 then nan else infinite (x < 0) else ofExact (x / y)
  | finite _, infinite _ => finite 0
  | infinite a, finite y => infinite (a ^^ decide (y < 0))
  | infinite _, infinite _ => nan
  | nan, _ => nan
  | _, nan => nan

variable [FloorRing K]

/-- The greatest integer not above a number that has 32 bits. -/
def floorInt : Extended K → ℤ
  | finite x => max (-0x80000000) (min 0x7fffffff ⌊x⌋)
  | infinite isNegative => if isNegative then -0x80000000 else 0x7fffffff
  | nan => 0

def floorNat : Extended K → ℕ
  | finite x => min 0xffffffffffffffff ⌊x⌋₊
  | infinite isNegative => if isNegative then 0 else 0xffffffffffffffff
  | nan => 0

instance : Scalar (Extended K) where
  zero := finite 0
  one := finite 1
  add := add
  sub a b := add a (neg b)
  mul := mul
  div := div
  neg := neg
  natCast n := finite n
  intCast i := finite i
  ofScientific m s e := finite (OfScientific.ofScientific m s e)
  lt a b := less a b = true
  le a b := (less a b || equal a b) = true
  beq := equal
  decidableLT _ _ := instDecidableEqBool _ _
  decidableLE _ _ := instDecidableEqBool _ _
  isFinite
    | finite _ => true
    | _ => false
  isNaN
    | nan => true
    | _ => false
  floorInt := floorInt
  floorNat := floorNat

@[simp] theorem finite_lt_finite {x y : K} : finite x < finite y ↔ x < y := decide_eq_true_iff

@[simp] theorem finite_le_finite {x y : K} : finite x ≤ finite y ↔ x ≤ y := by
  change (decide (x < y) || decide (x = y)) = true ↔ x ≤ y
  rw [Bool.or_eq_true, decide_eq_true_iff, decide_eq_true_iff, le_iff_lt_or_eq]

theorem eq_nan_of_isNaN {x : Extended K} (h : Scalar.isNaN x = true) : x = nan := by
  cases x with
  | finite x => cases h
  | infinite isNegative => cases h
  | nan => rfl

theorem finite_add {x y : K} (h : |x + y| ≤ 1) : finite x + finite y = finite (x + y) :=
  ofExact_of_abs_le_one h

theorem finite_sub {x y : K} (h : |x - y| ≤ 1) : finite x - finite y = finite (x - y) := by
  change ofExact (x + -y) = _
  rw [← sub_eq_add_neg, ofExact_of_abs_le_one h]

theorem finite_mul {x y : K} (h : |x * y| ≤ 1) : finite x * finite y = finite (x * y) :=
  ofExact_of_abs_le_one h

theorem finite_div {x y : K} (hy : y ≠ 0) (h : |x / y| ≤ 1) :
    finite x / finite y = finite (x / y) := by
  change (if y = 0 then _ else ofExact (x / y)) = _
  rw [if_neg hy, ofExact_of_abs_le_one h]

end Extended
end MaterialPoint
