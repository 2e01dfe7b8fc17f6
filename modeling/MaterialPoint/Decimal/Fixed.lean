import MaterialPoint.Decimal.Shortest

/-! Decimal text with a fixed number of places. -/
namespace MaterialPoint.Decimal

/-- The whole number nearest to a quotient; of two it is the even one. -/
def nearest (num den : Nat) : Nat :=
  let floor := num / den
  let rest := 2 * (num % den)
  if rest < den then floor
  else if den < rest then floor + 1
  else floor + floor % 2

/-- The nearest whole number is at most half a unit away. -/
theorem nearest_error (num : Nat) {den : Nat} (h : 0 < den) :
    2 * (nearest num den * den) ≤ 2 * num + den ∧ 2 * num ≤ 2 * (nearest num den * den) + den := by
  have hd := Nat.div_add_mod num den
  have hm := Nat.mod_lt num h
  rw [Nat.mul_comm] at hd
  have hp : num / den % 2 = 0 ∨ num / den % 2 = 1 := Nat.mod_two_eq_zero_or_one _
  unfold nearest
  dsimp only
  split
  · omega
  · split
    · rw [Nat.add_mul]
      omega
    · rcases hp with hp | hp <;> rw [hp, Nat.add_mul] <;> omega

/-- The text of a 32-bit number with a number of places after the point. -/
def fixedOfBits (places : Nat) (bits : UInt32) : String :=
  let sign := if bits >>> 31 = 1 then "-" else ""
  let magnitude := bits &&& 0x7fffffff
  if magnitude > 0x7f800000 then "NaN"
  else if magnitude = 0x7f800000 then sign ++ "inf"
  else
    let r := Rounded.ofBits magnitude
    sign ++ withPlaces places (nearest (r.m * tenTo places * twoTo r.q.toNat) (twoTo (-r.q).toNat))

end MaterialPoint.Decimal
