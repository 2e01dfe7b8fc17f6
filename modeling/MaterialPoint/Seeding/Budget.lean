import MaterialPoint.Fault
import MaterialPoint.Scalar.Sum

/-! How a number of particles is divided among volumes. -/
namespace MaterialPoint.Budget
variable {R : Type} [Scalar R]

def total (volumes : List R) : R := sumInOrder (volumes.filter (0 < ·))

/-- The parts of `n` when `taken` is gone: proportional, rounded down, and the rest for the last
positive volume. -/
def parts (total : R) (n : Nat) : (taken : Nat) → List R → List Nat
  | _, [] => []
  | taken, v :: volumes =>
    let part :=
      if v ≤ 0 then 0
      else if 0 < v && !volumes.any (0 < ·) then n - taken
      else min (Scalar.floorNat (v / total * (n : R))) (n - taken)
    part :: parts total n (taken + part) volumes

@[simp] theorem length_parts (total : R) (n taken : Nat) (volumes : List R) :
    (parts total n taken volumes).length = volumes.length := by
  induction volumes generalizing taken with
  | nil => rfl
  | cons v volumes ih => rw [parts, List.length_cons, List.length_cons, ih]

/-- Divides `n` among volumes, when these have a sum that is positive and finite. -/
def split (volumes : List R) (n : Nat) : Except (Fault R) (List Nat) :=
  let total := total volumes
  if 0 < total && Scalar.isFinite total then .ok (parts total n 0 volumes)
  else .error (.degenerateScene total)

end MaterialPoint.Budget
