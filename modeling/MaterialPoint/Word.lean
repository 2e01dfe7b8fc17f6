/-! Machine words: counts have 64 bits; vertices, particles and lattice coordinates have 32. -/
namespace MaterialPoint.Word

def fits32 (n : Nat) : Bool := n < 0x100000000

def fits64 (n : Nat) : Bool := n < 0x10000000000000000

/-- Whether a number is a signed one of 32 bits. -/
def fitsSigned (i : Int) : Bool := -0x80000000 ≤ i && i < 0x80000000

/-- The signed number that the lowest 32 bits of a number encode. -/
def signed (i : Int) : Int := Int.bmod i 0x100000000

theorem signed_eq_self {i : Int} (h : fitsSigned i) : signed i = i := by
  simp only [fitsSigned, Bool.and_eq_true, decide_eq_true_eq] at h
  exact Int.bmod_eq_of_le (by omega) (by omega)

@[inline] def signed? (i : Int) : Option Int := if fitsSigned i then some i else none

/-- A quotient of signed words. There is none by zero, nor of the least word by minus one. -/
def tdiv? (i n : Int) : Option Int := if n = 0 then none else signed? (i.tdiv n)

/-- A remainder of signed words, where there is a quotient. -/
def tmod? (i n : Int) : Option Int := (tdiv? i n).map fun _ => i.tmod n

end MaterialPoint.Word
