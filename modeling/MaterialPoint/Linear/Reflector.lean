import MaterialPoint.Scalar.Sum
import MaterialPoint.Scalar

/-! Reflections that map vectors onto the first axis, and together make columns triangular. -/
namespace MaterialPoint
variable {R : Type} [Scalar R]

def innerProduct (v w : List R) : R := sumInOrder (v.zipWith (· * ·) w)

/-- A reflection made to map one vector onto the first axis. -/
structure Reflector (R : Type) where
  /-- The unit vector across the mirror. -/
  normal : List R
  /-- The first component of the image of the vector. The others are zero. -/
  image : R
  /-- Whether the vector is long enough for a unit vector to be found. -/
  isProper : Bool

namespace Reflector
variable [Magnitude R]

/-- The image has the sign opposite to the vector's first component, so that nothing cancels in
the normal. -/
def ofVector : List R → Reflector R
  | [] => ⟨[], 0, false⟩
  | x :: rest =>
    let square := innerProduct (x :: rest) (x :: rest)
    let length := Magnitude.sqrt square
    let (size, sign) := Scalar.polar x
    let image := sign * length
    let normal := (x + image) :: rest
    let normalSquare := (square + size * length) * 2.0
    if normalSquare == 0 then ⟨normal, image, false⟩
    else
      let normal := normal.map (· / Magnitude.sqrt normalSquare)
      -- Where the square is tiny its root is inexact, and a second division makes up for it.
      ⟨normal.map (· / Magnitude.sqrt (innerProduct normal normal)), -image, true⟩

/-- The reflected vector, with the sign that makes the image of the chosen vector positive. -/
def apply (r : Reflector R) (v : List R) : List R :=
  let sign := Magnitude.sign r.image
  let factor := innerProduct r.normal v * (sign * -2.0)
  r.normal.zipWith (fun n x => factor * n + sign * x) v

@[simp] theorem length_apply (r : Reflector R) (v : List R) :
    (r.apply v).length = min r.normal.length v.length := List.length_zipWith

/-- The reflected vector. A reflector that is not proper leaves it as it is. -/
def applyProper (r : Reflector R) (v : List R) : List R := if r.isProper then r.apply v else v

/-- The reflectors that make columns triangular, each from the diagonal down. -/
def triangularize : List (List R) → List (Reflector R)
  | [] => []
  | column :: columns =>
    let r := ofVector column
    r :: triangularize (columns.map fun c => (r.applyProper c).tail)
termination_by columns => columns.length

@[simp] theorem length_triangularize (columns : List (List R)) :
    (triangularize columns).length = columns.length := by
  generalize h : columns.length = n
  induction n generalizing columns with
  | zero => rw [List.eq_nil_of_length_eq_zero h, triangularize, List.length_nil]
  | succ n ih =>
    match columns with
    | column :: columns =>
      rw [triangularize, List.length_cons, ih _ (by simpa using h)]

/-- The columns of the orthogonal matrix that the reflectors make up, each of which acts from its
own row down. -/
def product : List (Reflector R) → List (List R)
  | [] => []
  | r :: rs => ((1 :: rs.map fun _ => 0) :: (product rs).map (0 :: ·)).map r.apply

@[simp] theorem length_product (rs : List (Reflector R)) : (product rs).length = rs.length := by
  induction rs with
  | nil => rfl
  | cons r rs ih => rw [product, List.length_map, List.length_cons, List.length_map, ih,
      List.length_cons]

end Reflector
end MaterialPoint
