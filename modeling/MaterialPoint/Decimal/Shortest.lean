import MaterialPoint.Decimal.Digits

/-! Shortest decimal digits of a binary number: the coarsest decimal grid with a point that reads
back. -/
namespace MaterialPoint.Decimal

/-- A positive binary number `m * 2 ^ q` with the reals that round to it, in quarters of a unit. -/
structure Rounded where
  m : Nat
  q : Int
  /-- Two, or one where the spacing of the numbers halves below this one. -/
  below : Nat

namespace Rounded

/-- The size of a step of the grid `10 ^ p`, on the scale that `quarter` has too. -/
def step (r : Rounded) (p : Int) : Nat := tenTo p.toNat * twoTo (2 - r.q).toNat

def quarter (r : Rounded) (p : Int) : Nat := tenTo (-p).toNat * twoTo (r.q - 2).toNat

/-- Whether `c` steps of the grid `10 ^ p` read back as the number. -/
def readsBack (r : Rounded) (p : Int) (c : Nat) : Bool :=
  let point := c * r.step p
  let low := (4 * r.m - r.below) * r.quarter p
  let high := (4 * r.m + 2) * r.quarter p
  if r.m % 2 = 0 then low ≤ point && point ≤ high else low < point && point < high

/-- The nearer of the two neighbours on the grid `10 ^ p` that read back. Halfway goes up. -/
def onGrid? (r : Rounded) (p : Int) : Option Nat :=
  let step := r.step p
  let value := 4 * r.m * r.quarter p
  let floor := value / step
  let nearer := if 2 * (value - floor * step) < step then [floor, floor + 1] else [floor + 1, floor]
  nearer.find? (fun c => 0 < c && r.readsBack p c)

theorem readsBack_of_onGrid? {r : Rounded} {p : Int} {c : Nat} (h : r.onGrid? p = some c) :
    0 < c ∧ r.readsBack p c := by
  have hc := List.find?_some h
  simpa using hc

/-- Digits and exponent on the first grid from `10 ^ p` downwards that has a hit. -/
def search (r : Rounded) : (grids : Nat) → (p : Int) → Nat × Int
  | 0, p => (0, p)
  | grids + 1, p =>
    match r.onGrid? p with
    | some c => (c, p)
    | none => r.search grids (p - 1)

/-- The number that a 32-bit pattern without its sign encodes, for a finite pattern that is not
zero. -/
def ofBits (bits : UInt32) : Rounded :=
  let fraction := (bits &&& 0x7fffff).toNat
  let exponent := ((bits >>> 23) &&& 0xff).toNat
  if exponent = 0 then ⟨fraction, -149, 2⟩
  else
    ⟨fraction + 0x800000, (exponent : Int) - 150, if fraction = 0 && 1 < exponent then 1 else 2⟩

end Rounded

/-- The text of `c * 10 ^ p` in positional notation, without an exponent and without a fraction
that is zero. -/
def positional (c : Nat) (p : Int) : String :=
  if 0 ≤ p then toString (c * tenTo p.toNat) else withPlaces (-p).toNat c

/-- The shortest decimal text that reads back as the same 32-bit number. -/
def shortestOfBits (bits : UInt32) : String :=
  let sign := if bits >>> 31 = 1 then "-" else ""
  let magnitude := bits &&& 0x7fffffff
  if magnitude > 0x7f800000 then "NaN"
  else if magnitude = 0x7f800000 then sign ++ "inf"
  else if magnitude = 0 then sign ++ "0"
  else
    let (c, p) := (Rounded.ofBits magnitude).search 90 39
    sign ++ positional c p

end MaterialPoint.Decimal
