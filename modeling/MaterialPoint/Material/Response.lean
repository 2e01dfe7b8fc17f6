import MaterialPoint.Material
import MaterialPoint.Linear.Svd

/-! The constitutive law: the stress of a deformed material, and the deformation and plasticity
that it is left with. -/
namespace MaterialPoint
variable {R : Type} [Scalar R]

/-- Stress of the corotated law at deformation `f` with rotation `r` and ratio of volume `j`. -/
def corotatedStress (f r : Mat3 R) (j mu lambda : R) : Mat3 R :=
  (2.0 * mu) • ((f - r) * f.transpose) + (lambda * j * (j - 1)) • (1 : Mat3 R)

/-- What a material makes of a deformation. -/
@[ext] structure Response (R : Type) where
  stress : Mat3 R
  deformation : Mat3 R
  plasticity : R

namespace Material
variable [Exponential R]

/-- The response to a deformation `f` that is decomposed. Snow yields; water forgets its shape. -/
def respondTo (m : Material) (d : Svd R) (f : Mat3 R) (p mu lambda : R) : Response R :=
  let h := m.hardening p
  let mu := if m.isFluid then 0 else mu * h
  let lambda := lambda * h
  let sigma := match m with
    | snow => Snow.yield d.sigma
    | water | jelly => d.sigma
  let j := sigma.product
  let kept := match m with
    | water => Water.deformation j
    | snow => d.recompose sigma
    | jelly => f
  { stress := corotatedStress kept d.rotation j mu lambda
    deformation := kept
    plasticity := match m with
      | snow => p * Snow.plasticRatio d.sigma sigma
      | water | jelly => p }

/-- The response to a deformation. One that cannot be decomposed stays and has no stress. -/
def respond [SingularValues R] (m : Material) (f : Mat3 R) (p mu lambda : R) : Response R :=
  match SingularValues.decompose? f with
  | some d => m.respondTo d f p mu lambda
  | none => ⟨0, f, p⟩

end Material
end MaterialPoint
