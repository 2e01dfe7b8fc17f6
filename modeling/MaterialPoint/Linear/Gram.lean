import MaterialPoint.Linear.Svd
import MaterialPoint.Linear.Tridiagonal
import MaterialPoint.Scalar.Single

/-! Singular values by way of the eigenvectors of `transpose m * m`, the right singular vectors of
`m`. -/
namespace MaterialPoint
namespace Gram
variable {R : Type} [Scalar R] [Magnitude R]

def ofColumns (m : Mat3 R) : Mat3 R :=
  let row (v : Vec3 R) : Vec3 R := ⟨m.x.dot v, m.y.dot v, m.z.dot v⟩
  ⟨row m.x, row m.y, row m.z⟩

def greatestSize (m : Mat3 R) : R :=
  (m.toList.flatten.map Magnitude.abs).foldl Scalar.greatest (Magnitude.abs m.x.x)

/-- The tridiagonal form of a symmetric matrix, which is scaled so that its entries are at most
one. -/
def tridiagonal (m : Mat3 R) : Tridiagonal R :=
  let size := greatestSize m
  let m := if size == 0 then m else m.map (· / size)
  let (diagonal, reflectors) :=
    Symmetric.tridiagonalize 3 [[m.x.x, m.x.y, m.x.z], [m.y.y, m.y.z], [m.z.z]]
  let basis := Mat3.ofList (Symmetric.basis reflectors)
  match reflectors.map fun r => Magnitude.abs r.image with
  | [e, f] => ⟨Vec3.ofList diagonal, ⟨e, f⟩, basis⟩
  | _ => ⟨Vec3.ofList diagonal, ⟨0, 0⟩, basis⟩

def stepLimit : Nat := 63

/-- Columns `a` of a matrix times an orthogonal matrix `v`. -/
structure Columns (R : Type) where
  a : Mat3 R
  v : Mat3 R

def Columns.map (f : Mat3 R → Mat3 R) (k : Columns R) : Columns R := ⟨f k.a, f k.v⟩

def isShorter (p q : Vec3 R) : Bool := p.dot p < q.dot q

/-- The columns in order of their lengths, the longest first. An exchange reverses one, which
keeps the orientation. -/
def Columns.ordered (k : Columns R) : Columns R :=
  let k := if isShorter k.a.x k.a.y then k.map fun m => ⟨m.y, -m.x, m.z⟩ else k
  let k := if isShorter k.a.x k.a.z then k.map fun m => ⟨m.z, m.y, -m.x⟩ else k
  if isShorter k.a.y k.a.z then k.map fun m => ⟨m.x, m.z, -m.y⟩ else k

def decompose? (m : Mat3 R) : Option (Svd R) := do
  let v ← (tridiagonal (ofColumns m)).eigenvectors? stepLimit true
  let k := (Columns.mk (m * v) v).ordered
  let reflectors := Reflector.triangularize k.a.toList
  return {
    u := Mat3.ofList (Reflector.product reflectors)
    sigma := Vec3.ofList (reflectors.map fun r => Magnitude.abs r.image)
    v := k.v }

end Gram

/-- A matrix is refused when an entry is not finite. -/
instance : SingularValues Float32 :=
  ⟨fun m => if m.isFinite then Gram.decompose? m else none⟩

end MaterialPoint
