import MaterialPoint.Decimal.Fixed
import MaterialPoint.Linear.Gram
import MaterialPoint.Mesh.Cuboid
import MaterialPoint.Random.Seed
import MaterialPoint.Session

/-! The program: `[scene] [frames]` seeds a scene, runs it for a number of frames and reports on
it now and then. -/
namespace MaterialPoint.Program

def defaultFrames : Nat := 120

def reportInterval : Nat := 20

def params : Params Float32 := Params.ofResolution 32

/-- A box in the place of a mesh that is read from a file. -/
def standInMesh? : Option (Mesh Float32) := Mesh.cuboid? ⟨⟨-1, -0.75, -1⟩, ⟨1, 0.75, 1⟩⟩ 1

def scene? (name : String) : Option (Scene Float32) :=
  if Text.equalFolded (Text.trim name.toList) Scene.meshSceneName.toList then
    standInMesh?.bind (Scene.ofMesh? · params)
  else (Preset.ofName? name).map Scene.ofPreset

/-- The number written in decimal digits, with a plus sign or without. -/
def frames? (text : String) : Option Nat :=
  let digits := match text.toList with
    | '+' :: digits => digits
    | digits => digits
  if digits.isEmpty || !digits.all Char.isDigit then none
  else
    let n := digits.foldl (fun n d => 10 * n + (d.toNat - '0'.toNat)) 0
    if n < 0x10000000000000000 then some n else none

def fixed (places : Nat) (x : Float32) : String := Decimal.fixedOfBits places x.toBits

def report (frame milliseconds : Nat) (s : Session Float32) : String :=
  let particles := s.simulation.particles
  let v := particles.meanVelocity
  let lowest := match particles.bounds? with
    | some b => b.lo.y
    | none => 0
  s!"frame {frame}: {milliseconds}ms, {particles.length} particles, mean v (" ++
    fixed 3 v.x ++ ", " ++ fixed 3 v.y ++ ", " ++ fixed 3 v.z ++ "), lowest y " ++ fixed 4 lowest

def stopped : IO.Error := IO.userError "a number does not fit its word"

def run (frames : Nat) : (left : Nat) → Session Float32 → IO Unit
  | 0, _ => pure ()
  | left + 1, s => do
    let start ← IO.monoMsNow
    let some s ← IO.lazyPure fun _ => s.update? .inOrder | throw stopped
    let stop ← IO.monoMsNow
    let frame := frames - left
    if frame % reportInterval = 0 || left = 0 then IO.println (report frame (stop - start) s)
    run frames left s

/-- The scene of the first argument. A name that no scene has is reported. -/
def chooseScene : Option String → IO (Scene Float32)
  | none => pure default
  | some name =>
    match scene? name with
    | some scene => pure scene
    | none => do
      IO.eprintln ("unknown preset '" ++ name ++ "', using " ++ (default : Preset).name)
      pure default

end MaterialPoint.Program

open MaterialPoint Program in
def main (args : List String) : IO Unit := do
  let scene ← chooseScene args.head?
  let frames := (args[1]?.bind frames?).getD defaultFrames
  match Session.start? params scene with
  | none => throw stopped
  | some (.error fault) => IO.eprintln fault.message
  | some (.ok session) =>
    let start ← IO.monoMsNow
    run frames frames session
    let stop ← IO.monoMsNow
    IO.println (toString frames ++ " frames in " ++
      Decimal.withPlaces 2 ((stop - start) / 10) ++ "s")
