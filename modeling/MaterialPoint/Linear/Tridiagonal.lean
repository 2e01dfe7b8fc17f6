import MaterialPoint.Linear.Mat3
import MaterialPoint.Linear.Reflector

/-! Eigenvectors of symmetric matrices of three rows, by reflections and then shifted rotations. -/
namespace MaterialPoint

/-! Symmetric matrices of any size are held by their columns from the diagonal down. -/
namespace Symmetric
variable {R : Type} [Scalar R]

/-- The columns with `a * w j * v i` added in row `i` of column `j`. -/
def addOuter (a : R) : (v w : List R) → List (List R) → List (List R)
  | v, y :: w, column :: columns =>
    v.zipWith (fun x m => a * y * x + m) column :: addOuter a v.tail w columns
  | _, _, _ => []

/-- Twice the product with a vector, when the rows have sums so far of the columns before. -/
def doubleApplyFrom : List (List R) → List R → (sums : List R) → List R
  | (m :: below) :: columns, x :: v, s :: sums =>
    (s + 2.0 * innerProduct (m :: below) (x :: v)) ::
      doubleApplyFrom columns v (below.zipWith (fun m s => 2.0 * x * m + s) sums)
  | _, _, _ => []

def doubleApply : List (List R) → List R → List R
  | (m :: below) :: columns, x :: v =>
    (2.0 * x * m + 2.0 * innerProduct below v) ::
      doubleApplyFrom columns v (below.map (2.0 * x * ·))
  | _, _ => []

variable [Magnitude R]

def reflect (r : Reflector R) (columns : List (List R)) : List (List R) :=
  if r.isProper then
    let n := r.normal
    let p := doubleApply columns n
    addOuter (innerProduct n p * 2.0) n n (addOuter (-1) n p (addOuter (-1) p n columns))
  else columns

/-- The diagonal left of a matrix, and the reflectors that clear its columns below the
subdiagonal. -/
def tridiagonalize : (size : Nat) → List (List R) → List R × List (Reflector R)
  | size + 1, (d :: below) :: columns =>
    match below with
    | [] => ([d], [])
    | _ :: _ =>
      let r := Reflector.ofVector below
      let (ds, rs) := tridiagonalize size (reflect r columns)
      (d :: ds, r :: rs)
  | _, _ => ([], [])

/-- The columns of the orthogonal matrix that the reflectors make up, each of which acts below its
own row. -/
def basis : List (Reflector R) → List (List R)
  | [] => [[1]]
  | r :: rs =>
    (1 :: r.apply (r.normal.map fun _ => 0)) :: (basis rs).map fun column => 0 :: r.apply column

@[simp] theorem length_basis (rs : List (Reflector R)) : (basis rs).length = rs.length + 1 := by
  induction rs with
  | nil => rfl
  | cons r rs ih => rw [basis, List.length_cons, List.length_map, ih, List.length_cons]

end Symmetric

@[ext] structure Rotation (R : Type) where
  c : R
  s : R

namespace Vec2
variable {R : Type} [Scalar R] [Magnitude R]

def length (v : Vec2 R) : R := Magnitude.sqrt (v.x * v.x + v.y * v.y)

def signedLength (v : Vec2 R) : R := (Scalar.polar v.x).2 * v.length

/-- The rotation from a vector to the first axis, or against it, whichever is nearer. -/
def rotation (v : Vec2 R) : Rotation R := ⟨(Scalar.polar v.x).1 / v.length, v.y / v.signedLength⟩

end Vec2

namespace Rotation
variable {R : Type} [Scalar R]

def turn (r : Rotation R) (p q : Vec3 R) : Vec3 R × Vec3 R :=
  (r.c • p + r.s • q, -r.s • p + r.c • q)

def turnXY (r : Rotation R) (m : Mat3 R) : Mat3 R :=
  let (x, y) := r.turn m.x m.y
  ⟨x, y, m.z⟩

def turnYZ (r : Rotation R) (m : Mat3 R) : Mat3 R :=
  let (y, z) := r.turn m.y m.z
  ⟨m.x, y, z⟩

/-- A symmetric matrix of two rows turned from both sides: `a` and `b` on its diagonal, `e` beside
it. -/
def conjugate (r : Rotation R) (a b e : R) : R × R × R :=
  let cc := r.c * r.c
  let ss := r.s * r.s
  let cs := r.c * r.s
  let mixed := cs * 2.0 * e
  (cc * a + ss * b + mixed, ss * a + cc * b - mixed, e * (cc - ss) - cs * (a - b))

end Rotation

structure Tridiagonal (R : Type) where
  diagonal : Vec3 R
  beside : Vec2 R
  basis : Mat3 R

namespace Tridiagonal

/-- The rows of a tridiagonal matrix that are not separate yet. -/
inductive Part where
  | none
  | firstPair
  | lastPair
  | all
  deriving DecidableEq, Repr

variable {R : Type} [Scalar R] [Magnitude R]

/-- What an entry beside the diagonal may be, at most, between entries that it does not couple. -/
def threshold (a b : R) : R := Magnitude.epsilon * (Magnitude.abs a + Magnitude.abs b)

/-- What is left to do on the first two rows, or on all rows while the last one is `isOpen`. -/
def remaining (t : Tridiagonal R) (isOpen : Bool) : Part :=
  let ⟨a, b, c⟩ := t.diagonal
  let ⟨e, f⟩ := t.beside
  if isOpen && Magnitude.abs f > threshold b c then
    if e == 0 || Magnitude.abs e ≤ threshold a b then .lastPair else .all
  else if Magnitude.abs e > threshold a b then .firstPair
  else .none

/-- The eigenvalue nearer to `b` of a symmetric matrix of two rows: `a` and `b` on its diagonal,
`e` beside it. -/
def shift (a b e : R) : R :=
  let square := e * e
  if square == 0 then b
  else
    let half := (a - b) * 0.5
    b - square / (half + Magnitude.sign half * Magnitude.sqrt (half * half + square))

/-- The rotation that makes a symmetric matrix of two rows diagonal, none for a multiple of one. -/
def pairRotation (a b e : R) : Rotation R :=
  let half := (a - b) * 0.5
  let greater := (a + b) * 0.5 + Magnitude.sqrt (e * e + half * half)
  let v : Vec2 R := ⟨greater - b, e⟩
  if v.length > Magnitude.epsilon then v.rotation else ⟨1, 0⟩

/-- A rotation of the first two rows towards the shifted matrix, and one that restores the form. -/
def sweep (t : Tridiagonal R) : Tridiagonal R :=
  let ⟨a, b, c⟩ := t.diagonal
  let ⟨e, f⟩ := t.beside
  let v : Vec2 R := ⟨a - shift b c f, e⟩
  if v.y == 0 then t
  else
    let r := v.rotation
    let (a, b, e) := r.conjugate a b e
    let v : Vec2 R := ⟨e, r.s * f⟩
    let f := f * r.c
    let basis := r.turnXY t.basis
    if v.y == 0 then ⟨⟨a, b, c⟩, ⟨e, f⟩, basis⟩
    else
      let r := v.rotation
      let (b, c, f) := r.conjugate b c f
      ⟨⟨a, b, c⟩, ⟨v.signedLength, f⟩, r.turnYZ basis⟩

/-- The basis in which the matrix is diagonal, if it is found in a number of steps. -/
def eigenvectors? : (steps : Nat) → (isOpen : Bool) → Tridiagonal R → Option (Mat3 R)
  | 0, isOpen, t => if t.remaining isOpen = .none then some t.basis else none
  | steps + 1, isOpen, t =>
    let ⟨a, b, c⟩ := t.diagonal
    let ⟨e, f⟩ := t.beside
    match t.remaining isOpen with
    | .none => some t.basis
    | .firstPair => some ((pairRotation a b e).turnXY t.basis)
    | .lastPair => some ((pairRotation b c f).turnYZ t.basis)
    | .all =>
      let t := t.sweep
      let isOpen := !decide (Magnitude.abs t.beside.y ≤ threshold t.diagonal.y t.diagonal.z)
      eigenvectors? steps isOpen t

end Tridiagonal
end MaterialPoint
