import MaterialPoint.Proofs.Inversion

/-! Volume is not lost between the elastic and the plastic part of a deformation. -/
namespace MaterialPoint
open scoped Exact Drift

variable {K : Type} [Field K] [LinearOrder K] [IsStrictOrderedRing K] [FloorRing K]

theorem Snow.plasticRatio_mul_product (sigma : Vec3 K) :
    plasticRatio sigma (yield sigma) * (yield sigma).product = sigma.product := by
  have h (s : K) : s / yieldValue s * yieldValue s = s := div_mul_cancel₀ s (yieldValue_pos s).ne'
  rw [yield_eq_map, plasticRatio_map]
  simp only [Vec3.product, Vec3.map]
  calc _ = sigma.x / yieldValue sigma.x * yieldValue sigma.x *
        (sigma.y / yieldValue sigma.y * yieldValue sigma.y) *
        (sigma.z / yieldValue sigma.z * yieldValue sigma.z) := by ring
    _ = sigma.x * sigma.y * sigma.z := by rw [h, h, h]

namespace Material
variable [Exponential K] {f : Mat3 K}

theorem det_respondTo (m : Material) {d : Svd K} (hd : d.IsExact f) (hf : m = water → 0 ≤ f.det)
    (p mu lambda : K) :
    let r := m.respondTo d f p mu lambda
    r.deformation.det * r.plasticity = f.det * p := by
  intro r
  cases m with
  | water =>
    change (Water.deformation d.sigma.product).det * p = f.det * p
    rw [Water.det_deformation, hd.product_sigma, abs_of_nonneg (hf rfl)]
  | jelly => rfl
  | snow =>
    let yielded := Snow.yield d.sigma
    calc (d.recompose yielded).det * (p * Snow.plasticRatio d.sigma yielded)
        = d.rotation.det * (Snow.plasticRatio d.sigma yielded * yielded.product) * p := by
          rw [Svd.det_recompose]
          ring
      _ = f.det * p := by rw [Snow.plasticRatio_mul_product, ← hd.det_eq]

variable [SingularValues K]

theorem det_respond (hsvd : SingularValues.IsExact K) (m : Material)
    (hf : m = water → 0 ≤ f.det) (p mu lambda : K) :
    let r := m.respond f p mu lambda
    r.deformation.det * r.plasticity = f.det * p := by
  unfold respond
  split
  next d hd => exact m.det_respondTo (hsvd f d hd) hf p mu lambda
  next => rfl

end Material

namespace Particle

/-- The ratio of volume with what plastic flow has taken from it. -/
def wholeVolume (p : Particle K) : K := p.volumeRatio * p.plasticity

/-- What the surroundings of a particle grow by in a substep. -/
def growth (timeStep : K) (p : Particle K) : K := (1 + timeStep • p.affine).det

theorem det_trialDeformation (timeStep : K) (p : Particle K) :
    (p.trialDeformation timeStep).det = p.growth timeStep * p.volumeRatio := Mat3.det_mul ..

variable [Exponential K] [SingularValues K]

/-- An update inside the domain that inverts nothing, and whatever keeps deformation and
plasticity after it. -/
structure Updates (params : Params K) (g : Grid K) (p q : Particle K) : Prop where
  contains : g.contains p.position = true
  det_pos : 0 < (p.trialDeformation params.timeStep).det
  deformation_eq : q.deformation = (p.scatter params g).particle.deformation
  plasticity_eq : q.plasticity = (p.scatter params g).particle.plasticity

variable {params : Params K} {g : Grid K} {p q : Particle K}

theorem wholeVolume_scatter (hsvd : SingularValues.IsExact K)
    (hin : g.contains p.position = true) (hdet : 0 < (p.trialDeformation params.timeStep).det) :
    (p.scatter params g).particle.wholeVolume = p.growth params.timeStep * p.wholeVolume := by
  have hlaw : (p.response params).deformation.det * (p.response params).plasticity =
      (p.trialDeformation params.timeStep).det * p.plasticity :=
    p.material.det_respond hsvd (fun _ => hdet.le) _ _ _
  rw [scatter, if_pos hin]
  calc (p.response params).deformation.det * (p.response params).plasticity
      = p.growth params.timeStep * p.volumeRatio * p.plasticity := by
        rw [hlaw, det_trialDeformation]
    _ = p.growth params.timeStep * p.wholeVolume := by rw [wholeVolume, mul_assoc]

theorem Updates.wholeVolume_eq (hsvd : SingularValues.IsExact K) (h : p.Updates params g q) :
    q.wholeVolume = p.growth params.timeStep * p.wholeVolume := by
  rw [← wholeVolume_scatter hsvd h.contains h.det_pos, wholeVolume, wholeVolume, volumeRatio,
    volumeRatio, h.deformation_eq, h.plasticity_eq]

theorem wholeVolume_updates (hsvd : SingularValues.IsExact K) {p : ℕ → Particle K}
    {params : ℕ → Params K} {g : ℕ → Grid K} {k : ℕ}
    (h : ∀ j < k, (p j).Updates (params j) (g j) (p (j + 1))) :
    (p k).wholeVolume =
      (∏ j ∈ Finset.range k, (p j).growth (params j).timeStep) * (p 0).wholeVolume := by
  induction k with
  | zero => rw [Finset.prod_range_zero, one_mul]
  | succ k ih =>
    have hk := (h k k.lt_succ_self).wholeVolume_eq hsvd
    rw [hk, ih fun j hj => h j (hj.trans k.lt_succ_self), Finset.prod_range_succ]
    ring

/-- The whole volume follows the flow around a particle, in one response and over a run of
updates. -/
theorem wholeVolume_follows_growth (hsvd : SingularValues.IsExact K) :
    (∀ (m : Material) (d : Svd K) (f : Mat3 K), d.IsExact f → 0 < f.det → ∀ p mu lambda : K,
      let r := m.respondTo d f p mu lambda
      r.deformation.det * r.plasticity = f.det * p) ∧
    (∀ (params : Params K) (g : Grid K) (p : Particle K), g.contains p.position = true →
      0 < (p.trialDeformation params.timeStep).det →
      (p.scatter params g).particle.wholeVolume =
        (1 + params.timeStep • p.affine).det * p.wholeVolume) ∧
    ∀ (p : ℕ → Particle K) (params : ℕ → Params K) (g : ℕ → Grid K) (k : ℕ),
      (∀ j < k, (p j).Updates (params j) (g j) (p (j + 1))) →
      (p k).wholeVolume =
        (∏ j ∈ Finset.range k, (1 + (params j).timeStep • (p j).affine).det) *
          (p 0).wholeVolume :=
  ⟨fun m _ _ hd hf => m.det_respondTo hd fun _ => hf.le,
    fun _ _ _ hin hdet => wholeVolume_scatter hsvd hin hdet,
    fun _ _ _ _ h => wholeVolume_updates hsvd h⟩

theorem wholeVolume_follows_growth_yielding :
    let params : Params ℚ := { Params.ofResolution 4 with timeStep := 1 / 100 }
    let g : Grid ℚ := Grid.empty 4
    let p : Particle ℚ :=
      { atRest (Vec3.splat (1 / 2)) .snow with affine := Mat3.diagonal ⟨10, 0, 0⟩ }
    let q : Particle ℚ :=
      { (p.scatter params g).particle with affine := Mat3.diagonal ⟨0, 0, -5⟩ }
    let r : Particle ℚ := (q.scatter params g).particle
    r.deformation = Mat3.diagonal ⟨1.0045, 1, 0.975⟩ ∧
      r.wholeVolume = 11 / 10 * (19 / 20) := by
  intro params g p q r
  have hstretched : p.Updates params g q := ⟨by decide +kernel, by decide +kernel, rfl, rfl⟩
  have hcompressed : q.Updates params g r := ⟨by decide +kernel, by decide +kernel, rfl, rfl⟩
  have hrun := (wholeVolume_follows_growth Drift.isExact_singularValues).2.2
    (fun j => match j with | 0 => p | 1 => q | _ => r) (fun _ => params) (fun _ => g) 2
    fun j hj => match j, hj with | 0, _ => hstretched | 1, _ => hcompressed
  refine ⟨by decide +kernel, hrun.trans ?_⟩
  decide +kernel

end Particle
end MaterialPoint
