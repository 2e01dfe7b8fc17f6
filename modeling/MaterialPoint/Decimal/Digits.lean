/-! Positional digits of a whole number of decimal units. -/
namespace MaterialPoint.Decimal

def tenTo (n : Nat) : Nat := Nat.pow 10 n

def twoTo (n : Nat) : Nat := Nat.pow 2 n

/-- The text of `n` units of which a power of ten with as many zeros as there are `places` makes
one. -/
def withPlaces (places n : Nat) : String :=
  if places = 0 then toString n
  else
    let part := toString (n % tenTo places)
    toString (n / tenTo places) ++ "." ++
      String.ofList (List.replicate (places - part.length) '0') ++ part

end MaterialPoint.Decimal
