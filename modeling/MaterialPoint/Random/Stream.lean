import MaterialPoint.Scalar

/-! Random words: the endless stream of a key, in blocks mixed from the key and their number
alone. -/
namespace MaterialPoint.Random

abbrev Block := Vector UInt32 16

abbrev Key := Vector UInt32 8

@[inline] def rotateLeft (w : UInt32) (k : UInt32) : UInt32 := (w <<< k) ||| (w >>> (32 - k))

/-- Mixes four words of a block by additions, exclusive ors and rotations. -/
def Block.quarterRound (s : Block) (a b c d : Fin 16) : Block :=
  let s := s.set a (s[a] + s[b])
  let s := s.set d (rotateLeft (s[d] ^^^ s[a]) 16)
  let s := s.set c (s[c] + s[d])
  let s := s.set b (rotateLeft (s[b] ^^^ s[c]) 12)
  let s := s.set a (s[a] + s[b])
  let s := s.set d (rotateLeft (s[d] ^^^ s[a]) 8)
  let s := s.set c (s[c] + s[d])
  s.set b (rotateLeft (s[b] ^^^ s[c]) 7)

/-- A round over the columns of the block seen as a square, then one over its diagonals. -/
def Block.doubleRound (s : Block) : Block :=
  ((((((((s.quarterRound 0 4 8 12).quarterRound 1 5 9 13).quarterRound 2 6 10 14).quarterRound
    3 7 11 15).quarterRound 0 5 10 15).quarterRound 1 6 11 12).quarterRound 2 7 8 13).quarterRound
    3 4 9 14)

/-- The block before mixing: four fixed words, the key, the number of the block and two zeros. -/
def Block.start (key : Key) (number : UInt64) : Block :=
  #v[0x61707865, 0x3320646e, 0x79622d32, 0x6b206574,
    key[0], key[1], key[2], key[3], key[4], key[5], key[6], key[7],
    number.toUInt32, (number >>> 32).toUInt32, 0, 0]

/-- Twelve rounds of mixing, added to what was mixed. -/
def block (key : Key) (number : UInt64) : Block :=
  let start := Block.start key number
  start.zipWith (· + ·) (Nat.repeat Block.doubleRound 6 start)

/-- The word at a place of the stream of a key. -/
def word (key : Key) (i : Nat) : UInt32 :=
  (block key (UInt64.ofNat (i / 16))).get ⟨i % 16, Nat.mod_lt _ (by decide)⟩

/-- A word as a number from zero up to but not including one, on its upper 24 bits. -/
@[inline] def fraction {R : Type} [Scalar R] (w : UInt32) : R :=
  (((w >>> 8).toNat : Nat) : R) / ((0x1000000 : Nat) : R)

end MaterialPoint.Random
