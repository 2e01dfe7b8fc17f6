import MaterialPoint.Proofs.Isotropy

/-! Plastic flow is a projection: a material keeps what it has made of a deformation. -/
namespace MaterialPoint
open scoped Exact Drift

variable {K : Type} [Field K] [LinearOrder K] [IsStrictOrderedRing K] [FloorRing K]

namespace Snow
variable {sigma : Vec3 K}

/-- All singular values lie in the elastic band. -/
def IsElastic (sigma : Vec3 K) : Prop :=
  sigma.x ∈ Set.Icc leastStretch greatestStretch ∧
    sigma.y ∈ Set.Icc leastStretch greatestStretch ∧
    sigma.z ∈ Set.Icc leastStretch greatestStretch

theorem isElastic_iff : IsElastic sigma ↔ sigma.map yieldValue = sigma := by
  simp only [IsElastic, Vec3.ext_iff, Vec3.map, yieldValue_eq_self_iff]

theorem isElastic_yield (sigma : Vec3 K) : IsElastic (yield sigma) :=
  ⟨yieldValue_mem _, yieldValue_mem _, yieldValue_mem _⟩

namespace IsElastic

theorem nonneg (h : IsElastic sigma) : 0 ≤ sigma.x ∧ 0 ≤ sigma.y ∧ 0 ≤ sigma.z :=
  have hpos : (0 : K) ≤ leastStretch := leastStretch_pos.le
  ⟨hpos.trans h.1.1, hpos.trans h.2.1.1, hpos.trans h.2.2.1⟩

theorem plasticRatio_yield (h : IsElastic sigma) : plasticRatio sigma (yield sigma) = 1 := by
  have hone {s : K} (hs : s ∈ Set.Icc leastStretch greatestStretch) : s / yieldValue s = 1 := by
    rw [yieldValue_eq_self_iff.mpr hs]
    exact div_self (leastStretch_pos.trans_le hs.1).ne'
  rw [yield_eq_map, plasticRatio_map]
  simp only [Vec3.product, Vec3.map, hone h.1, hone h.2.1, hone h.2.2, mul_one]

theorem of_isExact {d e : Svd K} {f : Mat3 K} (h : IsElastic d.sigma) (hd : d.IsExact f)
    (he : e.IsExact f) : IsElastic e.sigma :=
  isElastic_iff.mpr (hd.map_sigma_eq_self he (isElastic_iff.mp h))

end IsElastic
end Snow

namespace Material
variable [Exponential K] {d : Svd K} {f : Mat3 K}

/-- A deformation that stays as it is, whichever decomposition of it is taken. -/
def Keeps (m : Material) (f : Mat3 K) : Prop :=
  ∀ d : Svd K, d.IsExact f → ∀ p mu lambda : K,
    (m.respondTo d f p mu lambda).deformation = f ∧ (m.respondTo d f p mu lambda).plasticity = p

theorem keeps_jelly (f : Mat3 K) : jelly.Keeps f := fun _ _ _ _ _ => ⟨rfl, rfl⟩

theorem keeps_snow (hd : d.IsExact f) (h : Snow.IsElastic d.sigma) : snow.Keeps f := by
  intro e he p mu lambda
  have helastic := h.of_isExact hd he
  have hyield : Snow.yield e.sigma = e.sigma := Snow.isElastic_iff.mp helastic
  constructor
  · change e.recompose (Snow.yield e.sigma) = f
    rw [hyield, he.recompose_sigma]
  · change p * Snow.plasticRatio e.sigma (Snow.yield e.sigma) = p
    rw [helastic.plasticRatio_yield, mul_one]

theorem deformation_respondTo_water (hd : d.IsExact f) (p mu lambda : K) :
    (water.respondTo d f p mu lambda).deformation = Water.deformation |f.det| := by
  rw [← hd.product_sigma]
  rfl

theorem keeps_water {ratio : K} (h : 0 ≤ ratio) : water.Keeps (Water.deformation ratio) := by
  intro e he p mu lambda
  refine ⟨?_, rfl⟩
  rw [deformation_respondTo_water he, Water.det_deformation, abs_of_nonneg h]

/-- What is left of a deformation is decomposed by the same singular vectors, except in water, which
has forgotten them. -/
theorem exists_isExact_deformation (m : Material) (hd : d.IsExact f) (p mu lambda : K) :
    ∃ e : Svd K, e.IsExact (m.respondTo d f p mu lambda).deformation := by
  cases m with
  | water =>
    have hj : 0 ≤ d.sigma.product := hd.product_sigma_nonneg
    exact ⟨_, Svd.isExact_diagonal ⟨hj, zero_le_one, zero_le_one⟩⟩
  | jelly => exact ⟨d, hd⟩
  | snow => exact ⟨_, hd.replace_sigma (Snow.isElastic_yield d.sigma).nonneg⟩

theorem keeps_deformation (m : Material) (hd : d.IsExact f) (p mu lambda : K) :
    m.Keeps (m.respondTo d f p mu lambda).deformation := by
  cases m with
  | water => exact keeps_water hd.product_sigma_nonneg
  | jelly => exact keeps_jelly f
  | snow =>
    have helastic := Snow.isElastic_yield d.sigma
    exact keeps_snow (hd.replace_sigma helastic.nonneg) helastic

/-- Responding twice is responding once, also for singular deformations and whatever
decompositions are taken. -/
theorem respondTo_respondTo (m : Material) (hd : d.IsExact f) (p mu lambda : K) :
    let r := m.respondTo d f p mu lambda
    (∃ e : Svd K, e.IsExact r.deformation) ∧
    (∀ e : Svd K, e.IsExact r.deformation → ∀ mu' lambda' : K,
      let t := m.respondTo e r.deformation r.plasticity mu' lambda'
      t.deformation = r.deformation ∧ t.plasticity = r.plasticity) ∧
    (m = snow →
      (∀ e : Svd K, e.IsExact r.deformation → Snow.IsElastic e.sigma) ∧
      ∀ e : Svd K, e.IsExact f → Snow.IsElastic e.sigma →
        r.deformation = f ∧ r.plasticity = p) ∧
    (m = water → r.deformation = Water.deformation |f.det|) := by
  intro r
  refine ⟨m.exists_isExact_deformation hd p mu lambda,
    fun e he => m.keeps_deformation hd p mu lambda e he r.plasticity, ?_, ?_⟩
  · rintro rfl
    have helastic := Snow.isElastic_yield d.sigma
    exact ⟨fun e he => helastic.of_isExact (hd.replace_sigma helastic.nonneg) he,
      fun e he h => keeps_snow he h d hd p mu lambda⟩
  · rintro rfl
    exact deformation_respondTo_water hd p mu lambda

/-- Snow stretched along one axis and pressed flat along another, with a second decomposition. -/
theorem respondTo_respondTo_flat :
    let f : Mat3 ℚ := Mat3.diagonal ⟨11 / 10, 1, 0⟩
    let r := snow.respondTo ⟨1, ⟨11 / 10, 1, 0⟩, 1⟩ f 1 2 3
    let w : Mat3 ℚ := ⟨⟨0, 0, 1⟩, ⟨-1, 0, 0⟩, ⟨0, 1, 0⟩⟩
    let e : Svd ℚ := ⟨w, ⟨0.975, 1.0045, 1⟩, w⟩
    let t := snow.respondTo e r.deformation r.plasticity 5 7
    r.deformation = Mat3.diagonal ⟨1.0045, 1, 0.975⟩ ∧ r.plasticity = 0 ∧ Snow.IsElastic e.sigma ∧
      t.deformation = r.deformation ∧ t.plasticity = r.plasticity := by
  intro f r w e t
  have hd : (⟨1, ⟨11 / 10, 1, 0⟩, 1⟩ : Svd ℚ).IsExact f := Svd.isExact_diagonal (by decide +kernel)
  have hw : w.transpose * w = 1 := by decide +kernel
  have he : e.IsExact r.deformation := ⟨hw, hw, by decide +kernel, by decide +kernel⟩
  obtain ⟨-, hagain, hsnow, -⟩ := respondTo_respondTo snow hd 1 2 3
  exact ⟨by decide +kernel, by decide +kernel, (hsnow rfl).1 e he, hagain e he 5 7⟩

end Material
end MaterialPoint
