/-! Blanks around a text, and texts that differ only in the case of letters from a to z. -/
namespace MaterialPoint.Text

/-- The code points with the property White_Space: first and last of each range. -/
def blankRanges : List (Nat × Nat) :=
  [(0x9, 0xd), (0x20, 0x20), (0x85, 0x85), (0xa0, 0xa0), (0x1680, 0x1680), (0x2000, 0x200a),
    (0x2028, 0x2029), (0x202f, 0x202f), (0x205f, 0x205f), (0x3000, 0x3000)]

def isBlank (c : Char) : Bool := blankRanges.any fun (lo, hi) => lo ≤ c.toNat && c.toNat ≤ hi

def trim (s : List Char) : List Char :=
  ((s.dropWhile isBlank).reverse.dropWhile isBlank).reverse

/-- Whether two texts are equal when letters from `A` to `Z` count as small letters. -/
def equalFolded (s t : List Char) : Bool := s.map Char.toLower == t.map Char.toLower

end MaterialPoint.Text
