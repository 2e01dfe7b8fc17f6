import MaterialPoint.Proofs.Coherence
import MaterialPoint.Proofs.Isotropy

/-! The divisors of a substep, none of them zero under valid parameters. -/
namespace MaterialPoint
open scoped Exact

variable {K : Type} [Field K] [LinearOrder K] [IsStrictOrderedRing K] [FloorRing K]

namespace Elastic
variable {poisson : K}

theorem shearModulus_eq (young poisson : K) :
    shearModulus young poisson = young / (2 * (1 + poisson)) := by
  change young / (2.0 * (1 + poisson)) = _
  norm_num

theorem lambda_eq (young poisson : K) :
    lambda young poisson = young * poisson / ((1 + poisson) * (1 - 2 * poisson)) := by
  change young * poisson / ((1 + poisson) * (1 - 2.0 * poisson)) = _
  norm_num

theorem lambda_add_shearModulus (young : K) (h : 0 < 1 + poisson) (h' : 0 < 1 - 2 * poisson) :
    lambda young poisson + 2 * shearModulus young poisson / 3 =
      young / (3 * (1 - 2 * poisson)) := by
  rw [lambda_eq, shearModulus_eq, ← mul_div_assoc, div_div,
    div_add_div _ _ (by positivity) (by positivity),
    div_eq_div_iff (by positivity) (by positivity)]
  ring

end Elastic

namespace Params
variable {p : Params K}

theorem Valid.resolution_pos (h : p.Valid) : 0 < p.resolution := by
  have hn := h.wallWidth_le.1
  omega

theorem Valid.one_add_poissonRatio_pos (h : p.Valid) : 0 < 1 + p.poissonRatio := by
  obtain ⟨-, -, -, -, -, ⟨hlo, -⟩, -⟩ := p.valid_iff.mp h
  linarith

theorem Valid.one_sub_poissonRatio_pos (h : p.Valid) : 0 < 1 - 2 * p.poissonRatio := by
  obtain ⟨-, -, -, -, -, ⟨-, hhi⟩, -⟩ := p.valid_iff.mp h
  norm_num at hhi
  linarith

theorem Valid.mu_pos (h : p.Valid) : 0 < p.mu := by
  have hpoisson := h.one_add_poissonRatio_pos
  have hyoung := (p.valid_iff.mp h).2.2.2.2.1.1
  rw [mu, Elastic.shearModulus_eq]
  positivity

theorem Valid.bulk_eq (h : p.Valid) : p.lambda + 2 * p.mu / 3 =
    p.youngsModulus / (3 * (1 - 2 * p.poissonRatio)) :=
  Elastic.lambda_add_shearModulus _ h.one_add_poissonRatio_pos h.one_sub_poissonRatio_pos

theorem Valid.bulk_pos (h : p.Valid) : 0 < p.lambda + 2 * p.mu / 3 := by
  have hpoisson := h.one_sub_poissonRatio_pos
  have hyoung := (p.valid_iff.mp h).2.2.2.2.1.1
  rw [h.bulk_eq]
  positivity

theorem Valid.particleVolume_pos (h : p.Valid) : 0 < p.particleVolume := by
  have hdx := cellSize_pos h
  unfold particleVolume
  positivity

end Params

theorem Grid.cellSize_pos {g : Grid K} (hg : 0 < g.resolution) : 0 < g.cellSize :=
  one_div_pos.mpr (Nat.cast_pos.mpr hg)

/-- What snow divides by is bounded away from zero, whatever the singular values are. -/
theorem Snow.leastStretch_le_yield (sigma : Vec3 K) : leastStretch ≤ (yield sigma).x ∧
    leastStretch ≤ (yield sigma).y ∧ leastStretch ≤ (yield sigma).z :=
  ⟨(yieldValue_mem _).1, (yieldValue_mem _).1, (yieldValue_mem _).1⟩

/-- Only the momentum of nodes with mass is divided. -/
theorem Grid.settleNode_eq (gravity timeStep : K) (width resolution : ℤ) (c : Coord) (n : Node K) :
    n.mass ≤ 0 ∧ settleNode gravity timeStep width resolution c n = n ∨
      0 < n.mass ∧ settleNode gravity timeStep width resolution c n = ⟨n.mass,
        c.zipWith (stopAtWall width resolution)
          ((1 / n.mass) • n.velocity - ⟨0, gravity * timeStep, 0⟩)⟩ := by
  unfold settleNode
  rcases le_or_gt n.mass 0 with h | h
  · exact .inl ⟨h, if_pos h⟩
  · refine .inr ⟨h, ?_⟩
    rw [if_neg h.not_ge, Exact.reciprocal_eq_inv, one_div]
    simp only [Vec3.sub_def, sub_zero]

end MaterialPoint
