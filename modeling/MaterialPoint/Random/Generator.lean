import MaterialPoint.Linear.Vec3

/-! Generators of random numbers, and one seed for each of the streams of a scene. -/
namespace MaterialPoint

/-- Every seed has an endless stream of random numbers. -/
class Generator (R : Type) where
  draw : (seed : UInt64) → (i : Nat) → R

/-- Three successive numbers of a stream. -/
def Generator.vector {R : Type} [Generator R] (seed : UInt64) (i : Nat) : Vec3 R :=
  ⟨draw seed i, draw seed (i + 1), draw seed (i + 2)⟩

namespace Random

def mixSeed (seed region stream : UInt64) : UInt64 :=
  let x := seed ^^^ (region * 0x9e3779b97f4a7c15)
  let x := x ^^^ (stream * 0xbf58476d1ce4e5b9)
  let x := x ^^^ (x >>> 31)
  x * 0x94d049bb133111eb

end Random
end MaterialPoint
