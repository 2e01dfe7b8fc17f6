import MaterialPoint.Fault
import MaterialPoint.Linear.Vec3

/-! Triangle meshes: vertices, and triangles that name them by number. -/
namespace MaterialPoint

@[ext] structure Face where
  a : Nat
  b : Nat
  c : Nat
  deriving DecidableEq, Repr

def Face.corners (f : Face) : List Nat := [f.a, f.b, f.c]

@[ext] structure Triangle (R : Type) where
  a : Vec3 R
  b : Vec3 R
  c : Vec3 R
  deriving DecidableEq, Repr

@[ext] structure Mesh (R : Type) where
  vertices : Array (Vec3 R)
  /-- Directions for display, one for each vertex. -/
  normals : Option (Array (Vec3 R))
  faces : List Face
  deriving DecidableEq, Repr

namespace Mesh
variable {R : Type}

/-- The first of some numbers that no vertex has. -/
def checkIndices (vertices : Nat) (indices : List Nat) : Except (Fault R) Unit :=
  match indices.find? (vertices ≤ ·) with
  | some index => .error (.meshIndex index vertices)
  | none => .ok ()

theorem checkIndices_eq_ok_iff {vertices : Nat} {indices : List Nat} :
    checkIndices (R := R) vertices indices = .ok () ↔ ∀ i ∈ indices, i < vertices := by
  unfold checkIndices
  split
  next i h =>
    have hi := List.find?_some h
    have hm := List.mem_of_find?_eq_some h
    simp only [decide_eq_true_eq] at hi
    constructor
    · intro he
      cases he
    · intro hall
      exact absurd (hall i hm) (Nat.not_lt.mpr hi)
  next h =>
    simp only [List.find?_eq_none, decide_eq_true_eq, Nat.not_le] at h
    exact ⟨fun _ => h, fun _ => rfl⟩

theorem checkIndices_append (vertices : Nat) (l m : List Nat) :
    checkIndices (R := R) vertices (l ++ m) =
      (checkIndices vertices l).bind fun _ => checkIndices vertices m := by
  unfold checkIndices
  rw [List.find?_append]
  cases l.find? (vertices ≤ ·) <;> rfl

/-- The fault is the first number that no vertex has. -/
theorem checkIndices_eq_error_iff {vertices : Nat} {indices : List Nat} {fault : Fault R} :
    checkIndices vertices indices = .error fault ↔ ∃ before i after,
      indices = before ++ i :: after ∧ (∀ j ∈ before, j < vertices) ∧ vertices ≤ i ∧
        fault = .meshIndex i vertices := by
  unfold checkIndices
  constructor
  · intro h
    split at h
    next i hi =>
      obtain ⟨hle, before, after, hindices, hbefore⟩ := List.find?_eq_some_iff_append.mp hi
      refine ⟨before, i, after, hindices, fun j hj => ?_, of_decide_eq_true hle,
        (Except.error.inj h).symm⟩
      simpa using hbefore j hj
    next => cases h
  · rintro ⟨before, i, after, rfl, hbefore, hle, rfl⟩
    have hfind : (before ++ i :: after).find? (vertices ≤ ·) = some i :=
      List.find?_eq_some_iff_append.mpr
        ⟨decide_eq_true hle, before, after, rfl, fun j hj => by simpa using hbefore j hj⟩
    rw [hfind]

def ofFaces (vertices : Array (Vec3 R)) (faces : List Face) : Except (Fault R) (Mesh R) := do
  checkIndices vertices.size (faces.flatMap Face.corners)
  return ⟨vertices, none, faces⟩

/-- The triangles of a face with three or four corners, cut from its first corner. -/
def cut? : List Nat → Option (List Face)
  | [a, b, c] => some [⟨a, b, c⟩]
  | [a, b, c, d] => some [⟨a, b, c⟩, ⟨a, c, d⟩]
  | _ => none

/-- The triangles of faces, the first of which has number `face`. -/
def cutAll (vertices : Nat) : (face : Nat) → List (List Nat) → Except (Fault R) (List Face)
  | _, [] => return []
  | face, polygon :: polygons => do
    checkIndices vertices polygon
    match cut? polygon with
    | some cut => return cut ++ (← cutAll vertices (face + 1) polygons)
    | none => throw (.unsupportedFace face polygon.length)

/-- A mesh from faces with three or four corners. Normals that do not match the vertices are
dropped. -/
def ofPolygons (vertices : Array (Vec3 R)) (normals : Option (Array (Vec3 R)))
    (polygons : List (List Nat)) : Except (Fault R) (Mesh R) := do
  let faces ← cutAll vertices.size 0 polygons
  return ⟨vertices, normals.filter (·.size == vertices.size), faces⟩

def WellIndexed (m : Mesh R) : Prop := ∀ f ∈ m.faces, ∀ i ∈ f.corners, i < m.vertices.size

def triangle? (vertices : Array (Vec3 R)) (f : Face) : Option (Triangle R) := do
  return ⟨← vertices[f.a]?, ← vertices[f.b]?, ← vertices[f.c]?⟩

/-- The triangles in space. Of a well indexed mesh none is missing. -/
def triangles (m : Mesh R) : List (Triangle R) := m.faces.filterMap (triangle? m.vertices)

def bounds? [Scalar R] (m : Mesh R) : Option (Bounds R) := Bounds.of? m.vertices.toList

end Mesh
end MaterialPoint
