import MaterialPoint.Proofs.Stress
import MaterialPoint.Simulation

/-! Stretches along the axes decompose without roots, so particles that drift apart are followed
in rationals. -/
namespace MaterialPoint
open scoped Exact

section Decomposition
variable {K : Type} [Field K] [LinearOrder K] [IsStrictOrderedRing K] [FloorRing K]

theorem Svd.isExact_diagonal {sigma : Vec3 K} (h : 0 ≤ sigma.x ∧ 0 ≤ sigma.y ∧ 0 ≤ sigma.z) :
    (⟨1, sigma, 1⟩ : Svd K).IsExact (Mat3.diagonal sigma) := by
  refine ⟨Mat3.isOrthogonal_one, Mat3.isOrthogonal_one, h, ?_⟩
  rw [recompose, Mat3.transpose_one, one_mul, mul_one]

/-- The decomposition of a diagonal matrix whose entries do not rise and are not negative. Any
other matrix is refused. -/
def Svd.ofStretch? (f : Mat3 K) : Option (Svd K) :=
  let sigma : Vec3 K := ⟨f.x.x, f.y.y, f.z.z⟩
  if f = Mat3.diagonal sigma ∧ 0 ≤ sigma.z ∧ sigma.z ≤ sigma.y ∧ sigma.y ≤ sigma.x then
    some ⟨1, sigma, 1⟩
  else none

theorem Svd.isExact_ofStretch? {f : Mat3 K} {d : Svd K} (h : ofStretch? f = some d) :
    d.IsExact f := by
  unfold ofStretch? at h
  dsimp only at h
  split_ifs at h with hf
  obtain ⟨hd, hz, hzy, hyx⟩ := hf
  cases Option.some.inj h
  have hexact : (⟨1, ⟨f.x.x, f.y.y, f.z.z⟩, 1⟩ : Svd K).IsExact
      (Mat3.diagonal ⟨f.x.x, f.y.y, f.z.z⟩) :=
    isExact_diagonal ⟨(hz.trans hzy).trans hyx, hz.trans hzy, hz⟩
  rwa [← hd] at hexact

end Decomposition

namespace Drift

scoped instance : SingularValues ℚ := ⟨Svd.ofStretch?⟩

/-- The exponential by its tangent at zero, where it touches. -/
scoped instance : Exponential ℚ := ⟨fun x => 1 + x⟩

theorem isExact_singularValues : SingularValues.IsExact ℚ := fun _ _ => Svd.isExact_ofStretch?

def particle (x velocity : ℚ) (material : Material) : Particle ℚ :=
  { Particle.atRest ⟨x, 1 / 2, 1 / 2⟩ material with velocity := ⟨velocity, 0, 0⟩ }

/-- Two particles on a lattice of four nodes along each axis. -/
def simulation (wallWidth : ℕ) : Simulation ℚ where
  particles := [particle (7 / 16) (-1 / 8) .snow, particle (9 / 16) (1 / 8) .jelly]
  grid := Grid.empty 4
  params := { Params.ofResolution 4 with wallWidth, timeStep := 1 / 100, repairs := false }
  substeps := 0

theorem particleMass_pos (wallWidth : ℕ) : 0 < (simulation wallWidth).params.particleMass :=
  (by decide +kernel : 0 < (simulation 0).params.particleMass)

end Drift
end MaterialPoint
