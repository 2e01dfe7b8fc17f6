import MaterialPoint.Scalar

/-! Vectors of three components, and plane vectors of two. Sums of three terms are taken from left
to right. -/
namespace MaterialPoint

@[ext] structure Vec3 (R : Type) where
  x : R
  y : R
  z : R
  deriving BEq, DecidableEq, Repr

namespace Vec3
variable {R : Type}

@[inline] def splat (a : R) : Vec3 R := ⟨a, a, a⟩

@[inline] def map {S : Type} (f : R → S) (v : Vec3 R) : Vec3 S := ⟨f v.x, f v.y, f v.z⟩

@[inline] def zipWith {S : Type} {T : Type} (f : R → S → T) (v : Vec3 R) (w : Vec3 S) : Vec3 T :=
  ⟨f v.x w.x, f v.y w.y, f v.z w.z⟩

@[inline] def all (p : R → Bool) (v : Vec3 R) : Bool := p v.x && p v.y && p v.z

@[inline] instance [Zero R] : Zero (Vec3 R) := ⟨splat 0⟩

@[inline] instance [Add R] : Add (Vec3 R) := ⟨zipWith (· + ·)⟩

@[inline] instance [Sub R] : Sub (Vec3 R) := ⟨zipWith (· - ·)⟩

@[inline] instance [Neg R] : Neg (Vec3 R) := ⟨map (- ·)⟩

@[inline] instance [Mul R] : SMul R (Vec3 R) := ⟨fun s v => ⟨v.x * s, v.y * s, v.z * s⟩⟩

@[inline] instance [Div R] : HDiv (Vec3 R) R (Vec3 R) := ⟨fun v s => ⟨v.x / s, v.y / s, v.z / s⟩⟩

@[inline] def dot [Add R] [Mul R] (v w : Vec3 R) : R := v.x * w.x + v.y * w.y + v.z * w.z

@[inline] def cross [Sub R] [Mul R] (v w : Vec3 R) : Vec3 R :=
  ⟨v.y * w.z - w.y * v.z, v.z * w.x - w.z * v.x, v.x * w.y - w.x * v.y⟩

@[inline] def product [Mul R] (v : Vec3 R) : R := v.x * v.y * v.z

def toList (v : Vec3 R) : List R := [v.x, v.y, v.z]

/-- The vector of three components, zero for any other number of them. -/
def ofList [Zero R] : List R → Vec3 R
  | [x, y, z] => ⟨x, y, z⟩
  | _ => 0

@[simp] theorem ofList_toList [Zero R] (v : Vec3 R) : ofList v.toList = v := rfl

variable [Scalar R]

@[inline] def isFinite (v : Vec3 R) : Bool := v.all Scalar.isFinite

@[inline] def least (v w : Vec3 R) : Vec3 R := zipWith Scalar.least v w

@[inline] def greatest (v w : Vec3 R) : Vec3 R := zipWith Scalar.greatest v w

@[inline] def greatestComponent (v : Vec3 R) : R :=
  Scalar.greatest v.x (Scalar.greatest v.y v.z)

@[inline] def ofInt (c : Vec3 Int) : Vec3 R := ⟨(c.x : R), (c.y : R), (c.z : R)⟩

end Vec3

@[ext] structure Bounds (R : Type) where
  lo : Vec3 R
  hi : Vec3 R
  deriving BEq, DecidableEq, Repr

namespace Bounds
variable {R : Type} [Scalar R]

@[inline] def insert (b : Bounds R) (p : Vec3 R) : Bounds R := ⟨b.lo.least p, b.hi.greatest p⟩

def of? : List (Vec3 R) → Option (Bounds R)
  | [] => none
  | p :: ps => some ((p :: ps).foldl insert ⟨p, p⟩)

end Bounds

@[ext] structure Vec2 (R : Type) where
  x : R
  y : R
  deriving BEq, DecidableEq, Repr

namespace Vec2
variable {R : Type}

@[inline] instance [Sub R] : Sub (Vec2 R) := ⟨fun v w => ⟨v.x - w.x, v.y - w.y⟩⟩

/-- Twice the signed area of the triangle from the origin over two plane vectors. -/
@[inline] def perpDot [Sub R] [Mul R] (v w : Vec2 R) : R := v.x * w.y - v.y * w.x

end Vec2

@[inline] def Vec3.shadow {R : Type} (v : Vec3 R) : Vec2 R := ⟨v.x, v.y⟩

end MaterialPoint
