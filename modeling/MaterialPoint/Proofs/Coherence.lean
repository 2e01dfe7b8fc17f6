import MaterialPoint.Proofs.Exact
import MaterialPoint.Simulation

/-! States that a simulation can be in: valid parameters, and a lattice that matches them. -/
namespace MaterialPoint
open scoped Exact

section Checks
variable {R : Type} [Scalar R]

namespace Params

private theorem isNone_ite {α : Type} {c : Prop} [Decidable c] (a : α) (o : Option α) :
    (if c then some a else o).isNone = true ↔ ¬c ∧ o.isNone = true := by
  by_cases h : c
  · simp [h]
  · simp [h]

theorem validate_eq_ok_iff (p : Params R) : p.validate = .ok () ↔ p.Valid := by
  unfold validate Valid
  cases p.fault? <;> simp

/-- The checks that valid parameters pass, in any arithmetic. -/
theorem valid_iff_checks (p : Params R) : p.Valid ↔
    3 ≤ p.resolution ∧ p.budget ≠ 0 ∧ Admissible.timeStep p.timeStep = true ∧
      Scalar.isFinite p.gravity = true ∧ p.wallWidth * 2 ≤ p.resolution ∧
      Admissible.youngsModulus p.youngsModulus = true ∧
      Admissible.poissonRatio p.poissonRatio = true ∧ Admissible.density p.density = true := by
  simp only [Valid, fault?, isNone_ite, not_lt, gt_iff_lt, Bool.not_eq_true', Bool.not_eq_false,
    Option.isNone_none, and_true, ne_eq]

/-- Walls of valid parameters can be compared with the lattice. -/
theorem validate?_eq_ok_iff (p : Params R) : p.validate? = some (.ok ()) ↔ p.Valid := by
  rw [validate?, ← validate_eq_ok_iff]
  constructor
  · intro h
    split_ifs at h
    exact Option.some.inj h
  · intro h
    rw [h, if_pos]
    rw [validate_eq_ok_iff, Valid, Option.isNone_iff_eq_none] at h
    rw [areWallsCountable, h]

/-- Valid walls leave room between them, in any arithmetic. -/
theorem Valid.wallWidth_le {p : Params R} (h : p.Valid) :
    3 ≤ p.resolution ∧ p.wallWidth * 2 ≤ p.resolution := by
  obtain ⟨hn, -, -, -, hw, -⟩ := p.valid_iff_checks.mp h
  exact ⟨hn, hw⟩

end Params

namespace Simulation

theorem start_eq_ok_iff {params : Params R} {s : Simulation R} :
    start params = .ok s ↔ params.Valid ∧ s = ⟨[], Grid.empty params.resolution, params, 0⟩ := by
  rw [← params.validate_eq_ok_iff, start]
  cases params.validate with
  | error e => simp [bind, Except.bind]
  | ok u => simp [bind, Except.bind, pure, Except.pure, eq_comm]

theorem setParams_eq_ok_iff {s t : Simulation R} {params : Params R} :
    s.setParams params = .ok t ↔ params.Valid ∧ t = { s with
      params
      grid := if params.resolution = s.grid.resolution then s.grid
        else Grid.empty params.resolution } := by
  rw [← params.validate_eq_ok_iff, setParams]
  cases params.validate with
  | error e => simp [bind, Except.bind]
  | ok u => simp [bind, Except.bind, pure, Except.pure, eq_comm]

theorem seed_eq_ok_iff [Generator R] {s t : Simulation R} {schedule : Seeding.Schedule}
    {regions : List (Region R)} {seed : UInt64} : s.seed schedule regions seed = .ok t ↔
      ∃ ps, Seeding.sample schedule regions s.params.budget seed = .ok ps ∧
        t = s.setParticles ps := by
  rw [Simulation.seed]
  cases Seeding.sample schedule regions s.params.budget seed with
  | error e => simp [bind, Except.bind]
  | ok ps => simp [bind, Except.bind, pure, Except.pure, eq_comm]

end Simulation
end Checks

variable {K : Type} [Field K] [LinearOrder K] [IsStrictOrderedRing K] [FloorRing K]

namespace Params

theorem valid_iff (p : Params K) :
    p.Valid ↔ 3 ≤ p.resolution ∧ p.budget ≠ 0 ∧ 0 < p.timeStep ∧ p.wallWidth * 2 ≤ p.resolution ∧
      (0 < p.youngsModulus ∧ p.youngsModulus < 1e12) ∧
      (-1 < p.poissonRatio ∧ p.poissonRatio < 0.5) ∧ 0 < p.density ∧ p.density < 50000.0 := by
  simp only [valid_iff_checks, Admissible.timeStep, Admissible.youngsModulus,
    Admissible.poissonRatio, Admissible.density, Exact.isFinite_eq, Bool.and_true,
    Bool.and_eq_true, decide_eq_true_eq, true_and]

theorem cellSize_pos {p : Params K} (h : p.Valid) : 0 < p.cellSize := by
  have hn := ((valid_iff p).mp h).1
  exact one_div_pos.mpr (Nat.cast_pos.mpr (by omega))

theorem particleMass_pos {p : Params K} (h : p.Valid) : 0 < p.particleMass := by
  have hdx := cellSize_pos h
  have hd := ((valid_iff p).mp h).2.2.2.2.2.2.1
  unfold particleMass particleVolume
  positivity

end Params

namespace Simulation

/-- The parameters are valid, and the lattice is one that they ask for and that fits. -/
structure IsCoherent (s : Simulation K) : Prop where
  valid : s.params.Valid
  resolution_eq : s.grid.resolution = s.params.resolution
  fits : Grid.fits s.params.resolution

theorem fits_of_supports {params : Params K} (hv : params.Valid) (h : supports params) :
    Grid.fits params.resolution := by
  have hn : params.fault?.isSome = false := by
    rw [Params.Valid, Option.isNone_iff_eq_none] at hv
    rw [hv]
    rfl
  simp only [supports, hn, Bool.false_or, Bool.and_eq_true] at h
  exact h.2

theorem IsCoherent.setParams? {s t : Simulation K} {params : Params K}
    (h : s.setParams? params = some (.ok t)) : t.IsCoherent := by
  unfold Simulation.setParams? at h
  split_ifs at h with hsup
  obtain ⟨hv, rfl⟩ := setParams_eq_ok_iff.mp (Option.some.inj h)
  refine ⟨hv, ?_, fits_of_supports hv hsup⟩
  dsimp only
  split_ifs with hr
  · exact hr.symm
  · rfl

theorem IsCoherent.setGravity {s : Simulation K} (hs : s.IsCoherent) (gravity : K) :
    (s.setGravity gravity).IsCoherent :=
  ⟨(Params.valid_iff _).mpr ((Params.valid_iff _).mp hs.valid), hs.resolution_eq, hs.fits⟩

theorem IsCoherent.modifyParticles {s : Simulation K} (hs : s.IsCoherent)
    (f : Population K → Population K) : (s.modifyParticles f).IsCoherent :=
  ⟨hs.valid, hs.resolution_eq, hs.fits⟩

theorem IsCoherent.substep [Exponential K] [SingularValues K] {s : Simulation K}
    (hs : s.IsCoherent) : s.substep.IsCoherent := by
  refine ⟨?_, ?_, ?_⟩
  · rw [params_substep]
    exact hs.valid
  · rw [resolution_substep, params_substep, hs.resolution_eq]
  · rw [params_substep]
    exact hs.fits

namespace IsCoherent

theorem cellSize_grid {s : Simulation K} (hs : s.IsCoherent) :
    s.grid.cellSize = s.params.cellSize := by
  rw [Grid.cellSize, hs.resolution_eq, Params.cellSize]

theorem resolution_mul_cellSize {s : Simulation K} (hs : s.IsCoherent) :
    (s.grid.resolution : K) * s.params.cellSize = 1 := by
  have hn := ((Params.valid_iff _).mp hs.valid).1
  have h0 : (s.params.resolution : K) ≠ 0 := Nat.cast_ne_zero.mpr (by omega)
  rw [hs.resolution_eq, Params.cellSize]
  exact mul_one_div_cancel h0

theorem signed_wallWidth {s : Simulation K} (hs : s.IsCoherent) :
    Word.signed s.params.wallWidth = s.params.wallWidth := by
  have hw := ((Params.valid_iff _).mp hs.valid).2.2.2.1
  have hfits := hs.fits
  have hn : s.params.resolution < 0x80000000 := by
    by_contra h
    simp only [Grid.fits, decide_eq_true_eq] at hfits
    nlinarith
  refine Word.signed_eq_self ?_
  simp only [Word.fitsSigned, Bool.and_eq_true, decide_eq_true_eq]
  omega

end IsCoherent

end Simulation
end MaterialPoint
