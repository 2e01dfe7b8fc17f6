import MaterialPoint.Particle.Population
import MaterialPoint.Random.Generator
import MaterialPoint.Region
import MaterialPoint.Seeding.Budget

/-! Particles at rest, placed at random. A block has one stream, a solid one for each cell. -/
namespace MaterialPoint.Seeding
variable {R : Type} [Scalar R] [Generator R]

/-- The stream of a block, which no cell of a solid has. -/
def blockStream : UInt64 := 0xffffffffffffffff

/-- A particle from six numbers of a stream, three for its place and three for its color. -/
@[inline] def drawParticle (stream : UInt64) (material : Material) (place : Vec3 R → Vec3 R)
    (i : Nat) : Particle R :=
  { Particle.atRest (place (Generator.vector stream (6 * i))) material with
    color := Generator.vector stream (6 * i + 3) }

def sampleBlock (seed region : UInt64) (b : Block R) (count : Nat) : Population R :=
  (List.range count).map
    (drawParticle (Random.mixSeed seed region blockStream) b.material fun t =>
      b.lo + t.zipWith (· * ·) b.size)

/-- Particles anywhere in the cube of a cell of a solid. -/
def sampleCell (seed region stream : UInt64) (s : Solid R) (c : Voxels.Cell) (count : Nat) :
    Population R :=
  let center := s.voxels.center c
  (List.range count).map
    (drawParticle (Random.mixSeed seed region stream) s.material fun t =>
      center + s.voxels.cellSize • (t - Vec3.splat 0.5))

/-- The part of `count` for a cell: equal parts, and one more for each of the first cells. -/
def share (count cells number : Nat) : Nat :=
  count / cells + if number < count % cells then 1 else 0

/-- Ranges of an array taken one after the other, each from where the ones before it end. -/
def claim (need : Nat → Nat) : (start : Nat) → (order : List Nat) → List (Nat × Nat)
  | _, [] => []
  | start, task :: order => (start, task) :: claim need (start + need task) order

@[simp] theorem map_snd_claim (need : Nat → Nat) (start : Nat) (order : List Nat) :
    (claim need start order).map Prod.snd = order := by
  induction order generalizing start with
  | nil => rfl
  | cons task order ih => rw [claim, List.map_cons, ih]

/-- No range starts before the place where the first task found the end. -/
theorem start_le_of_mem_claim {need : Nat → Nat} {start : Nat} {order : List Nat}
    {c : Nat × Nat} (h : c ∈ claim need start order) : start ≤ c.1 := by
  induction order generalizing start with
  | nil => cases h
  | cons task order ih =>
    rcases List.mem_cons.mp h with rfl | h
    · exact Nat.le_refl _
    · exact Nat.le_trans (Nat.le_add_right _ _) (ih h)

/-- The blocks of all tasks in the order of the ranges they took. -/
def arrange {α : Type} (block : Nat → List α) (claims : List (Nat × Nat)) : List α :=
  (claims.mergeSort fun a b => a.1 ≤ b.1).flatMap fun c => block c.2

/-- Particles in the cells of a solid, when the tasks of its cells take their ranges in an order. -/
def sampleSolidIn (order : List Nat) (seed region : UInt64) (s : Solid R) (count : Nat) :
    Population R :=
  let cells := s.voxels.occupiedCells.toArray
  arrange
    (fun i => match cells[i]? with
      | some c => sampleCell seed region (UInt64.ofNat i) s c (share count cells.size i)
      | none => [])
    (claim (share count cells.size) 0 order)

def sampleRegionIn (order : Nat → List Nat) (seed region : UInt64) (count : Nat) :
    Region R → Population R
  | .block b => sampleBlock seed region b count
  | .solid s => sampleSolidIn (order s.voxels.occupiedCells.length) seed region s count

/-- The orders in which the tasks of solids take their ranges, each with every task in it. -/
structure Schedule where
  order : (region cells : Nat) → List Nat
  perm : ∀ region cells, (order region cells).Perm (List.range cells)

/-- Every solid has its tasks in the order of its cells. -/
def Schedule.inOrder : Schedule := ⟨fun _ => List.range, fun _ _ => .refl _⟩

def sample (schedule : Schedule) (regions : List (Region R)) (budget : Nat) (seed : UInt64) :
    Except (Fault R) (Population R) := do
  let counts ← Budget.split (regions.map Region.volume) budget
  return ((regions.zip counts).mapIdx fun i (r, count) =>
    sampleRegionIn (schedule.order i) seed (UInt64.ofNat i) count r).flatten

/-- Whether the particles of a budget have numbers that are words, if it comes to seeding them. -/
def fits (regions : List (Region R)) (budget : Nat) : Bool :=
  match Budget.split (regions.map Region.volume) budget with
  | .error _ => true
  | .ok _ => Word.fits32 budget

def sample? (schedule : Schedule) (regions : List (Region R)) (budget : Nat) (seed : UInt64) :
    Option (Except (Fault R) (Population R)) :=
  if fits regions budget then some (sample schedule regions budget seed) else none

end MaterialPoint.Seeding
