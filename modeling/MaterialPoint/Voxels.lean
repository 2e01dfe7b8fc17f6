import MaterialPoint.Mesh.Basic
import MaterialPoint.Word

/-! Cells inside a closed mesh: those with an odd number of triangles, at mean heights, below
their centers. -/
namespace MaterialPoint

/-- A triangle as seen along the third axis: its shadow and its mean height. -/
@[ext] structure Shadow (R : Type) where
  a : Vec2 R
  b : Vec2 R
  c : Vec2 R
  height : R

namespace Shadow
variable {R : Type} [Scalar R]

def ofTriangle (t : Triangle R) : Shadow R :=
  ⟨t.a.shadow, t.b.shadow, t.c.shadow, (t.a.z + t.b.z + t.c.z) / 3.0⟩

/-- Whether the triangle from a point to the ends of an edge has positive area. -/
@[inline] def sees (p a b : Vec2 R) : Bool := (a - p).perpDot (b - p) > 0

/-- Whether all three edges are seen alike from a point. -/
def covers (s : Shadow R) (p : Vec2 R) : Bool :=
  let ab := sees p s.a s.b
  let bc := sees p s.b s.c
  let ca := sees p s.c s.a
  (ab && bc && ca) || (!ab && !bc && !ca)

/-- The heights at which the ray through a point of the plane crosses triangles. -/
def crossings (shadows : List (Shadow R)) (p : Vec2 R) : List R :=
  (shadows.filter (·.covers p)).map (·.height)

def countBelow (heights : List R) (z : R) : Nat := heights.countP (z > ·)

end Shadow

structure Voxels (R : Type) where
  /-- Cells along each axis. -/
  resolution : Nat
  cellSize : R
  origin : Vec3 R
  occupied : Array Bool

namespace Voxels
variable {R : Type} [Scalar R]

@[inline] def centerAlong (cellSize origin : R) (i : Nat) : R :=
  ((i : R) + 0.5) * cellSize + origin

/-- Heights of the crossings in the column of cells with numbers `x` and `y`. -/
def columnCrossings (shadows : List (Shadow R)) (cellSize : R) (origin : Vec3 R) (x y : Nat) :
    List R :=
  Shadow.crossings shadows ⟨centerAlong cellSize origin.x x, centerAlong cellSize origin.y y⟩

/-- Writes which cells of a column are inside, from the lowest to the highest. -/
def writeColumn (resolution column : Nat) (inside : Nat → Bool) (occupied : Array Bool) :
    Array Bool :=
  (List.range resolution).foldl
    (fun occupied z =>
      occupied.setIfInBounds (column + resolution * resolution * z) (inside z)) occupied

/-- The cells inside triangles that are seen as shadows. A column's crossings are found once. -/
def ofShadows (shadows : List (Shadow R)) (resolution : Nat) (cellSize : R) (origin : Vec3 R) :
    Voxels R :=
  let occupied := (List.range (resolution * resolution)).foldl
    (fun occupied column =>
      let heights := columnCrossings shadows cellSize origin (column % resolution)
        (column / resolution)
      writeColumn resolution column
        (fun z => Shadow.countBelow heights (centerAlong cellSize origin.z z) % 2 == 1) occupied)
    (Array.replicate (resolution * resolution * resolution) false)
  { resolution, cellSize, origin, occupied }

def ofMesh (m : Mesh R) (resolution : Nat) (cellSize : R) (origin : Vec3 R) : Voxels R :=
  ofShadows (m.triangles.map Shadow.ofTriangle) resolution cellSize origin

/-- The shadow of a face, if the vertices it names exist. -/
def shadow (vertices : Array (Vec3 R)) (f : Face) : Except (Fault R) (Shadow R) := do
  let corner (i : Nat) : Except (Fault R) (Vec3 R) :=
    match vertices[i]? with
    | some v => .ok v
    | none => .error (.meshIndex i vertices.size)
  return Shadow.ofTriangle ⟨← corner f.a, ← corner f.b, ← corner f.c⟩

def ofFaces (vertices : Array (Vec3 R)) (faces : List Face) (resolution : Nat) (cellSize : R)
    (origin : Vec3 R) : Except (Fault R) (Voxels R) := do
  let shadows ← faces.mapM (shadow vertices)
  return ofShadows shadows resolution cellSize origin

/-- Whether the cells of a block can be counted. -/
def fits (resolution : Nat) : Bool := Word.fits64 (resolution * resolution * resolution)

def ofMesh? (m : Mesh R) (resolution : Nat) (cellSize : R) (origin : Vec3 R) :
    Option (Voxels R) :=
  if fits resolution then some (ofMesh m resolution cellSize origin) else none

/-- The cells inside the triangles of faces, in a block that fits. Wrong faces are found first. -/
def ofFaces? (vertices : Array (Vec3 R)) (faces : List Face) (resolution : Nat) (cellSize : R)
    (origin : Vec3 R) : Option (Except (Fault R) (Voxels R)) :=
  match faces.mapM (shadow vertices) with
  | .error fault => some (.error fault)
  | .ok _ =>
    if fits resolution then some (ofFaces vertices faces resolution cellSize origin) else none

def count (v : Voxels R) : Nat := v.occupied.count true

def volume (v : Voxels R) : R := (v.count : R) * (v.cellSize * v.cellSize * v.cellSize)

/-- A cell of a block by its numbers along the three axes. -/
@[ext] structure Cell where
  x : Nat
  y : Nat
  z : Nat
  deriving DecidableEq, Repr

def center (v : Voxels R) (c : Cell) : Vec3 R :=
  ⟨centerAlong v.cellSize v.origin.x c.x, centerAlong v.cellSize v.origin.y c.y,
    centerAlong v.cellSize v.origin.z c.z⟩

def isOccupied (v : Voxels R) (c : Cell) : Bool :=
  let n := v.resolution
  c.x < n && c.y < n && c.z < n && v.occupied[c.x + n * (c.y + n * c.z)]?.getD false

def cellAt (n i : Nat) : Cell := ⟨i % n, i / n % n, i / (n * n)⟩

/-- The cells inside in the order of their numbers. -/
def occupiedCells (v : Voxels R) : List Cell :=
  ((List.range v.occupied.size).filter fun i => v.occupied[i]?.getD false).map
    (cellAt v.resolution)

end Voxels
end MaterialPoint
