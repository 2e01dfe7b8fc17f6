import MaterialPoint.Linear.Vec3
import MaterialPoint.Word

/-! The quadratic B-spline between a particle and the 27 lattice nodes around it. -/
namespace MaterialPoint

/-- A place on the lattice, in nodes along each axis. -/
abbrev Coord := Vec3 Int

/-- Weights of three successive nodes, for each of the three axes. -/
@[ext] structure SplineWeights (R : Type) where
  first : Vec3 R
  second : Vec3 R
  third : Vec3 R

namespace SplineWeights
variable {R : Type}

@[inline] def get (w : SplineWeights R) : Fin 3 → Vec3 R
  | 0 => w.first
  | 1 => w.second
  | 2 => w.third

variable [Scalar R]

/-- Weight of the first of three nodes at distance `t` above it. -/
@[inline] def fall (t : R) : R := 0.5 * (1.5 - t) * (1.5 - t)

/-- Weight of the second of three nodes at distance `t` above the first. -/
@[inline] def bump (t : R) : R := 0.75 - (t - 1) * (t - 1)

/-- Weight of the third of three nodes at distance `t` above the first. -/
@[inline] def rise (t : R) : R := 0.5 * (t - 0.5) * (t - 0.5)

/-- The weights at a position given in cells from the first node. -/
@[inline] def ofPhase (t : Vec3 R) : SplineWeights R := ⟨t.map fall, t.map bump, t.map rise⟩

end SplineWeights

/-- The lowest node around a position, the position in cells from it, and the weights of the
planes. -/
@[ext] structure Stencil (R : Type) where
  base : Coord
  phase : Vec3 R
  weights : SplineWeights R
  cellSize : R

/-- A node as a position sees it. -/
@[ext] structure Neighbor (R : Type) where
  coord : Coord
  weight : R
  offset : Vec3 R

namespace Stencil
variable {R : Type} [Scalar R]

/-- The lowest node lies at least half a cell and less than one and a half below the position. -/
def around (position : Vec3 R) (cellSize : R) : Stencil R :=
  let cells := position / cellSize
  let base := cells.map fun t : R => Scalar.floorInt (t - 0.5)
  let phase := cells - Vec3.ofInt base
  ⟨base, phase, SplineWeights.ofPhase phase, cellSize⟩

/-- The node at a step of zero, one or two from the lowest along each axis. -/
@[inline] def neighbor (s : Stencil R) (i j k : Fin 3) : Neighbor R :=
  let step : Coord := ⟨i.val, j.val, k.val⟩
  { coord := s.base + step
    weight := (s.weights.get i).x * (s.weights.get j).y * (s.weights.get k).z
    offset := s.cellSize • (Vec3.ofInt step - s.phase) }

def steps : List (Fin 3 × Fin 3 × Fin 3) :=
  (List.finRange 3).flatMap fun k =>
    (List.finRange 3).flatMap fun j => (List.finRange 3).map fun i => (i, j, k)

theorem mem_steps (i j k : Fin 3) : (i, j, k) ∈ steps := by
  simp [steps, List.mem_finRange]

def neighbors (s : Stencil R) : List (Neighbor R) :=
  steps.map fun (i, j, k) => s.neighbor i j k

@[simp] theorem length_neighbors (s : Stencil R) : s.neighbors.length = 27 := by
  rw [neighbors, List.length_map]
  rfl

/-- Whether the coordinates of all nodes fit in words. -/
def fits (s : Stencil R) : Bool := s.base.all fun i => Word.fitsSigned i && Word.fitsSigned (i + 2)

def neighbors? (s : Stencil R) : Option (List (Neighbor R)) :=
  if s.fits then some s.neighbors else none

/-- Reciprocal of the second moment of the weights, on lattice cells of a size. -/
def inverseMoment (cellSize : R) : R := 4.0 / (cellSize * cellSize)

end Stencil
end MaterialPoint
