/-! Sums of many terms, by halves down to eighths, so that fewer rounding errors gather. -/
namespace MaterialPoint

/-- The sum of some terms, in order from zero. -/
def sumInOrder {α : Type} [Zero α] [Add α] (terms : List α) : α := terms.foldl (· + ·) 0

/-- The sum of some terms by halves of halves, the second of which is not the shorter. -/
def sumByHalves {α : Type} [Zero α] [Add α] : (depth : Nat) → List α → α
  | 0, terms => sumInOrder terms
  | depth + 1, terms =>
    let half := terms.length / 2
    if half = 0 then sumInOrder terms
    else sumByHalves depth (terms.take half) + sumByHalves depth (terms.drop half)

def sumByEighths {α : Type} [Zero α] [Add α] (terms : List α) : α := sumByHalves 3 terms

section Laws
variable {α : Type} [Zero α] [Add α]

/-- Terms that are added to a start add their sum to it. -/
theorem foldl_add_start (add_assoc : ∀ a b c : α, a + b + c = a + (b + c))
    (zero_add : ∀ a : α, 0 + a = a) (add_zero : ∀ a : α, a + 0 = a) (terms : List α) (start : α) :
    terms.foldl (· + ·) start = start + sumInOrder terms := by
  induction terms generalizing start with
  | nil => exact (add_zero start).symm
  | cons a terms ih =>
    have h0 : sumInOrder (a :: terms) = 0 + a + sumInOrder terms := ih (0 + a)
    rw [List.foldl_cons, ih, h0, zero_add, add_assoc]

/-- Where additions do not round, a sum by halves is the sum in order. -/
theorem sumByHalves_eq_sumInOrder (add_assoc : ∀ a b c : α, a + b + c = a + (b + c))
    (zero_add : ∀ a : α, 0 + a = a) (add_zero : ∀ a : α, a + 0 = a) (depth : Nat)
    (terms : List α) : sumByHalves depth terms = sumInOrder terms := by
  induction depth generalizing terms with
  | zero => rfl
  | succ depth ih =>
    simp only [sumByHalves]
    split
    · rfl
    · rw [ih, ih, ← foldl_add_start add_assoc zero_add add_zero, sumInOrder, ← List.foldl_append,
        List.take_append_drop, sumInOrder]

end Laws

end MaterialPoint
