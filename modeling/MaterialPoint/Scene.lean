import MaterialPoint.Mesh.Placement
import MaterialPoint.Region
import MaterialPoint.Text.Blank

/-! Scenes: the named ones, and those made of a mesh or of any regions. -/
namespace MaterialPoint

inductive Preset where
  | singleDamBreak
  | doubleDamBreak
  | waterSnowJelly
  deriving DecidableEq, Repr, Inhabited

namespace Preset

def all : List Preset := [singleDamBreak, doubleDamBreak, waterSnowJelly]

def name : Preset → String
  | singleDamBreak => "Single Dam Break"
  | doubleDamBreak => "Double Dam Break"
  | waterSnowJelly => "Water Snow Jelly"

/-- The preset of a name, with blanks around it and in letters of any case. -/
def ofName? (name : String) : Option Preset :=
  all.find? fun preset => Text.equalFolded preset.name.toList (Text.trim name.toList)

theorem ofName?_name (preset : Preset) : ofName? preset.name = some preset := by
  cases preset <;> decide +kernel

variable {R : Type} [Scalar R]

def regions : Preset → List (Region R)
  | singleDamBreak => [.block ⟨⟨0.55, 0.05, 0.55⟩, ⟨0.4, 0.4, 0.4⟩, .water⟩]
  | doubleDamBreak =>
    [.block ⟨⟨0.05, 0.05, 0.05⟩, ⟨0.3, 0.4, 0.3⟩, .water⟩,
      .block ⟨⟨0.65, 0.05, 0.65⟩, ⟨0.3, 0.4, 0.3⟩, .water⟩]
  | waterSnowJelly =>
    [.block ⟨⟨0.6, 0.05, 0.6⟩, ⟨0.25, 0.25, 0.25⟩, .water⟩,
      .block ⟨⟨0.35, 0.35, 0.35⟩, ⟨0.25, 0.25, 0.25⟩, .snow⟩,
      .block ⟨⟨0.05, 0.6, 0.05⟩, ⟨0.25, 0.25, 0.25⟩, .jelly⟩]

end Preset

structure Scene (R : Type) where
  name : String
  regions : List (Region R)
  seed : UInt64
  pausesAfterSeeding : Bool

namespace Scene
variable {R : Type} [Scalar R]

def custom (name : String) (regions : List (Region R)) : Scene R := ⟨name, regions, 0, false⟩

def ofPreset (preset : Preset) : Scene R := custom preset.name preset.regions

instance : Inhabited (Scene R) := ⟨ofPreset default⟩

def meshSceneName : String := "Water Mesh"

/-- A mesh on the floor of the tank, in cells of the lattice. -/
def meshRegions (mesh : Mesh R) (params : Params R) : List (Region R) :=
  let placed := mesh.fit ⟨0.3, 0.05, 0.3⟩ 0.4
  [.solid (Solid.ofMesh placed .water params.resolution params.cellSize)]

def ofMesh (mesh : Mesh R) (params : Params R) : Scene R :=
  custom meshSceneName (meshRegions mesh params)

def ofMesh? (mesh : Mesh R) (params : Params R) : Option (Scene R) :=
  if Voxels.fits params.resolution then some (ofMesh mesh params) else none

/-- The scene changed to a preset, with the seed it has. It pauses when it is seeded. -/
def select (s : Scene R) (preset : Preset) : Scene R :=
  { s with name := preset.name, regions := preset.regions, pausesAfterSeeding := true }

/-- The scene as it is, which does not pause when it is seeded again. -/
def restart (s : Scene R) : Scene R := { s with pausesAfterSeeding := false }

end Scene
end MaterialPoint
