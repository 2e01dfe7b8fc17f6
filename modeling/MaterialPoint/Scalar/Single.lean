import MaterialPoint.Scalar
import MaterialPoint.Decimal.Shortest

/-! Single precision as the arithmetic that runs: each operation rounds once, to nearest. -/
namespace MaterialPoint

/-- Floors are held to 32 bits, and a value that is not a number has floor zero. -/
instance : Scalar Float32 where
  zero := Float32.ofNat 0
  one := Float32.ofNat 1
  add := Float32.add
  sub := Float32.sub
  mul := Float32.mul
  div := Float32.div
  neg := Float32.neg
  natCast := Float32.ofNat
  intCast := Float32.ofInt
  ofScientific := Float32.ofScientific
  lt a b := a.lt b
  le a b := a.le b
  beq := Float32.beq
  decidableLT := Float32.decLt
  decidableLE := Float32.decLe
  isFinite := Float32.isFinite
  isNaN := Float32.isNaN
  floorInt x := x.floor.toInt32.toInt
  floorNat x := x.floor.toUInt64.toNat

instance : Exponential Float32 := ⟨Float32.exp⟩

/-- The sign of a number is its highest bit, also for zeros. -/
instance : Magnitude Float32 where
  abs := Float32.abs
  sign x := if x.isNaN then x else if x.toBits < 0x80000000 then 1 else -1
  sqrt := Float32.sqrt
  epsilon := 1 / 8388608

instance : DecimalText Float32 := ⟨fun x => Decimal.shortestOfBits x.toBits⟩

end MaterialPoint
