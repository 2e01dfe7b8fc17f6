import MaterialPoint.Linear.Vec3

/-! Matrices of three rows and columns, held by columns. -/
namespace MaterialPoint

/-- The columns of a matrix: `m.y.x` is in the first row and the second column. -/
@[ext] structure Mat3 (R : Type) where
  x : Vec3 R
  y : Vec3 R
  z : Vec3 R
  deriving BEq, DecidableEq, Repr

namespace Mat3
variable {R : Type}

@[inline] def zipWith {S : Type} {T : Type} (f : R → S → T) (m : Mat3 R) (n : Mat3 S) : Mat3 T :=
  ⟨m.x.zipWith f n.x, m.y.zipWith f n.y, m.z.zipWith f n.z⟩

@[inline] def map {S : Type} (f : R → S) (m : Mat3 R) : Mat3 S :=
  ⟨m.x.map f, m.y.map f, m.z.map f⟩

@[inline] instance [Zero R] : Zero (Mat3 R) := ⟨⟨0, 0, 0⟩⟩

@[inline] instance [Add R] : Add (Mat3 R) := ⟨zipWith (· + ·)⟩

@[inline] instance [Sub R] : Sub (Mat3 R) := ⟨zipWith (· - ·)⟩

@[inline] instance [Mul R] : SMul R (Mat3 R) := ⟨fun s m => ⟨s • m.x, s • m.y, s • m.z⟩⟩

@[inline] def transpose (m : Mat3 R) : Mat3 R :=
  ⟨⟨m.x.x, m.y.x, m.z.x⟩, ⟨m.x.y, m.y.y, m.z.y⟩, ⟨m.x.z, m.y.z, m.z.z⟩⟩

@[inline] def diagonal [Zero R] (d : Vec3 R) : Mat3 R := ⟨⟨d.x, 0, 0⟩, ⟨0, d.y, 0⟩, ⟨0, 0, d.z⟩⟩

@[inline] instance [Zero R] [One R] : One (Mat3 R) := ⟨diagonal (Vec3.splat 1)⟩

/-- A matrix applied to a vector, as a combination of its columns. -/
@[inline] def apply [Add R] [Mul R] (m : Mat3 R) (v : Vec3 R) : Vec3 R :=
  v.x • m.x + v.y • m.y + v.z • m.z

@[inline] instance [Add R] [Mul R] : Mul (Mat3 R) :=
  ⟨fun m n => ⟨m.apply n.x, m.apply n.y, m.apply n.z⟩⟩

@[inline] def det [Add R] [Sub R] [Mul R] (m : Mat3 R) : R := m.z.dot (m.x.cross m.y)

/-- The matrix with entry `v i * w j` in row `i` and column `j`. -/
@[inline] def outer [Mul R] (v w : Vec3 R) : Mat3 R := ⟨w.x • v, w.y • v, w.z • v⟩

def toList (m : Mat3 R) : List (List R) := [m.x.toList, m.y.toList, m.z.toList]

/-- The matrix of three columns, zero for any other number of them. -/
def ofList [Zero R] : List (List R) → Mat3 R
  | [x, y, z] => ⟨Vec3.ofList x, Vec3.ofList y, Vec3.ofList z⟩
  | _ => 0

@[simp] theorem ofList_toList [Zero R] (m : Mat3 R) : ofList m.toList = m := rfl

@[inline] def isFinite [Scalar R] (m : Mat3 R) : Bool :=
  m.x.isFinite && m.y.isFinite && m.z.isFinite

end Mat3
end MaterialPoint
