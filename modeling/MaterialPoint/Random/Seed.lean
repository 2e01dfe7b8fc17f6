import MaterialPoint.Random.Generator
import MaterialPoint.Random.Stream
import MaterialPoint.Scalar.Single

/-! The generator that runs: a seed is expanded to a key, and the words of the key's stream are read
as fractions. -/
namespace MaterialPoint.Random

/-- The successor of a seed in a linear congruence. -/
def advance (s : UInt64) : UInt64 := s * 6364136223846793005 + 11634580027462260723

/-- A word from a seed: its bits folded, then rotated by the five highest ones. -/
def output (s : UInt64) : UInt32 :=
  let folded := (((s >>> 18) ^^^ s) >>> 27).toUInt32
  let turn := (s >>> 59).toUInt32
  (folded >>> turn) ||| (folded <<< ((32 - turn) &&& 31))

/-- The key of a seed: one word from each of its next eight successors. -/
def keyOfSeed (seed : UInt64) : Key :=
  Vector.ofFn fun i => output (Nat.repeat advance (i.val + 1) seed)

@[reducible] def generator {R : Type} [Scalar R] : Generator R :=
  ⟨fun seed i => fraction (word (keyOfSeed seed) i)⟩

instance : Generator Float32 := generator

end MaterialPoint.Random
