import MaterialPoint.Proofs.Health

/-! What particles keep for as long as every substep is repaired, in any arithmetic. -/
namespace MaterialPoint

/-- Arithmetic in which sums with zero and products keep signs. Rounding, overflow and zeros with
signs are allowed. -/
class Scalar.KeepsSigns (R : Type) [Scalar R] : Prop where
  isFinite_zero : isFinite (0 : R) = true
  isFinite_one : isFinite (1 : R) = true
  zero_lt_one : (0 : R) < 1
  zero_add_zero : (0 : R) + 0 = 0
  zero_mul_zero : (0 : R) * 0 = 0
  one_mul_zero : (1 : R) * 0 = 0
  zero_sub_zero_mul {x : R} : isFinite x = true → 0 - 0 * x = 0
  pos_zero_add {x : R} : 0 < 0 + x ↔ 0 < x
  pos_sub_zero {x : R} : 0 < x - 0 ↔ 0 < x
  pos_one_mul {x : R} : 0 < 1 * x ↔ 0 < x
  pos_mul_one {x : R} : 0 < x * 1 ↔ 0 < x

namespace Exact
variable {K : Type} [Field K] [LinearOrder K] [IsStrictOrderedRing K] [FloorRing K]

scoped instance : Scalar.KeepsSigns K where
  isFinite_zero := rfl
  isFinite_one := rfl
  zero_lt_one := one_pos
  zero_add_zero := add_zero 0
  zero_mul_zero := mul_zero 0
  one_mul_zero := mul_zero 1
  zero_sub_zero_mul _ := by rw [zero_mul, sub_zero]
  pos_zero_add {x} := iff_of_eq (congrArg (0 < ·) (zero_add x))
  pos_sub_zero {x} := iff_of_eq (congrArg (0 < ·) (sub_zero x))
  pos_one_mul {x} := iff_of_eq (congrArg (0 < ·) (one_mul x))
  pos_mul_one {x} := iff_of_eq (congrArg (0 < ·) (mul_one x))

end Exact
namespace Extended
variable {K : Type} [Field K] [LinearOrder K] [IsStrictOrderedRing K] [FloorRing K] [Overflow K]

theorem zero_lt_ofExact {x : K} : 0 < ofExact x ↔ 0 < x := by
  unfold ofExact
  split_ifs with h
  · have h0 : x ≠ 0 := by
      rintro rfl
      rw [Overflow.isTooLarge_of_abs_le_one 0 (by rw [abs_zero]; exact zero_le_one)] at h
      cases h
    change (!decide (x < 0)) = true ↔ 0 < x
    rw [Bool.not_eq_true', decide_eq_false_iff_not, not_lt, le_iff_lt_or_eq, or_iff_left h0.symm]
  · exact finite_lt_finite

instance : Scalar.KeepsSigns (Extended K) where
  isFinite_zero := rfl
  isFinite_one := rfl
  zero_lt_one := finite_lt_finite.mpr one_pos
  zero_add_zero := (finite_add (by simp)).trans (by rw [add_zero]; rfl)
  zero_mul_zero := (finite_mul (by simp)).trans (by rw [mul_zero]; rfl)
  one_mul_zero := (finite_mul (by simp)).trans (by rw [mul_zero]; rfl)
  zero_sub_zero_mul {x} h := by
    cases x with
    | finite x =>
      have hmul : (0 : Extended K) * finite x = finite 0 :=
        (finite_mul (by simp)).trans (by rw [zero_mul])
      rw [hmul]
      exact (finite_sub (by simp)).trans (by rw [sub_zero]; rfl)
    | infinite => cases h
    | nan => cases h
  pos_zero_add {x} := by
    cases x with
    | finite x =>
      change 0 < ofExact (0 + x) ↔ _
      rw [zero_lt_ofExact, zero_add]
      exact finite_lt_finite.symm
    | infinite => exact Iff.rfl
    | nan => exact Iff.rfl
  pos_sub_zero {x} := by
    cases x with
    | finite x =>
      change 0 < ofExact (x + -0) ↔ _
      rw [zero_lt_ofExact, neg_zero, add_zero]
      exact finite_lt_finite.symm
    | infinite => exact Iff.rfl
    | nan => exact Iff.rfl
  pos_one_mul {x} := by
    cases x with
    | finite x =>
      change 0 < ofExact (1 * x) ↔ _
      rw [zero_lt_ofExact, one_mul]
      exact finite_lt_finite.symm
    | infinite b =>
      have h : (1 : Extended K) * infinite b = infinite b := by
        change (if (1 : K) = 0 then nan else infinite (decide ((1 : K) < 0) ^^ b)) = infinite b
        rw [if_neg one_ne_zero, decide_eq_false (not_lt.mpr zero_le_one), Bool.false_xor]
      rw [h]
    | nan => exact Iff.rfl
  pos_mul_one {x} := by
    cases x with
    | finite x =>
      change 0 < ofExact (x * 1) ↔ _
      rw [zero_lt_ofExact, mul_one]
      exact finite_lt_finite.symm
    | infinite b =>
      have h : infinite b * (1 : Extended K) = infinite b := by
        change (if (1 : K) = 0 then nan else infinite (b ^^ decide ((1 : K) < 0))) = infinite b
        rw [if_neg one_ne_zero, decide_eq_false (not_lt.mpr zero_le_one), Bool.xor_false]
      rw [h]
    | nan => exact Iff.rfl

end Extended

/-- The same piece of matter, whatever has become of its motion and its shape. -/
def Particle.IsSame {R : Type} (p q : Particle R) : Prop :=
  q.material = p.material ∧ q.color = p.color

theorem Particle.IsSame.trans {R : Type} {p q r : Particle R} (h : p.IsSame q)
    (h' : q.IsSame r) : p.IsSame r :=
  ⟨h'.1.trans h.1, h'.2.trans h.2⟩

section Laws
variable {R : Type} [Scalar R]

namespace Water

theorem isFinite_of_isFinite_deformation {j : R} (h : (deformation j).isFinite = true) :
    Scalar.isFinite j = true := by
  simp only [deformation, Mat3.diagonal, Mat3.isFinite, Vec3.isFinite, Vec3.all,
    Bool.and_eq_true] at h
  exact h.1.1.1.1

variable [Scalar.KeepsSigns R]

theorem det_deformation_pos_iff {j : R} (h : Scalar.isFinite j = true) :
    0 < (deformation j).det ↔ 0 < j := by
  have h0 : (0 : R) - 0 = 0 := by
    have h := Scalar.KeepsSigns.zero_sub_zero_mul (Scalar.KeepsSigns.isFinite_zero (R := R))
    rwa [Scalar.KeepsSigns.zero_mul_zero] at h
  have hdet : (deformation j).det = 0 + 1 * (j * 1 - 0) := by
    simp only [Mat3.det, deformation, Mat3.diagonal, Vec3.cross, Vec3.dot,
      Scalar.KeepsSigns.zero_mul_zero, Scalar.KeepsSigns.one_mul_zero, h0,
      Scalar.KeepsSigns.zero_sub_zero_mul h, Scalar.KeepsSigns.zero_add_zero]
  rw [hdet, Scalar.KeepsSigns.pos_zero_add, Scalar.KeepsSigns.pos_one_mul,
    Scalar.KeepsSigns.pos_sub_zero, Scalar.KeepsSigns.pos_mul_one]

end Water

namespace Seeding

theorem deformation_eq_one_of_mem_sample [Generator R] {schedule : Schedule}
    {regions : List (Region R)} {budget : ℕ} {seed : UInt64} {ps : Population R}
    (h : sample schedule regions budget seed = .ok ps) {p : Particle R} (hp : p ∈ ps) :
    p.deformation = 1 ∧ p.plasticity = 1 := by
  have hdraw {stream : UInt64} {material : Material} {place : Vec3 R → Vec3 R} {l : List ℕ}
      (h : p ∈ l.map (drawParticle stream material place)) :
      p.deformation = 1 ∧ p.plasticity = 1 := by
    obtain ⟨i, -, rfl⟩ := List.mem_map.mp h
    exact ⟨rfl, rfl⟩
  rw [sample] at h
  cases hs : Budget.split (regions.map Region.volume) budget with
  | error fault =>
    rw [hs] at h
    cases h
  | ok counts =>
    rw [hs] at h
    cases h
    obtain ⟨block, hblock, hp⟩ := List.mem_flatten.mp hp
    obtain ⟨i, hi, rfl⟩ := List.mem_mapIdx.mp hblock
    cases hr : (regions.zip counts)[i] with
    | mk r count =>
      rw [hr] at hp
      cases r with
      | block b => exact hdraw hp
      | solid s =>
        obtain ⟨c, -, hp⟩ := List.mem_flatMap.mp hp
        dsimp only at hp
        split at hp
        · exact hdraw hp
        · cases hp

end Seeding

namespace Particle

/-- Water has the shape that it keeps, unless its deformation is not finite, and only snow is
plastic. -/
structure IsShaped (p : Particle R) : Prop where
  water_shape : p.material = .water → p.deformation.isFinite = true →
    ∃ j, p.deformation = Water.deformation j
  plasticity_eq : p.material ≠ .snow → p.plasticity = 1

/-- Water has a positive ratio of volume and no other shape, only snow is plastic, and nothing is
inverted. -/
structure IsSound (p : Particle R) : Prop where
  water_shape : p.material = .water →
    ∃ j, p.deformation = Water.deformation j ∧ Scalar.isFinite j = true ∧ 0 < j
  plasticity_eq : p.material ≠ .snow → p.plasticity = 1
  det_pos : 0 < p.deformation.det

theorem IsSound.isShaped {p : Particle R} (h : p.IsSound) : p.IsShaped := by
  refine ⟨fun hm _ => ?_, h.plasticity_eq⟩
  obtain ⟨j, hj, -⟩ := h.water_shape hm
  exact ⟨j, hj⟩

section Repair
variable [Scalar.KeepsSigns R]

theorem isSound_of_deformation_eq_one {p : Particle R} (hf : p.deformation = 1)
    (hp : p.plasticity = 1) : p.IsSound := by
  have h1 : (1 : Mat3 R) = Water.deformation 1 := rfl
  refine ⟨fun _ => ⟨1, hf.trans h1, Scalar.KeepsSigns.isFinite_one,
    Scalar.KeepsSigns.zero_lt_one⟩, fun _ => hp, ?_⟩
  rw [hf, h1, Water.det_deformation_pos_iff Scalar.KeepsSigns.isFinite_one]
  exact Scalar.KeepsSigns.zero_lt_one

/-- A repair makes what is shaped sound: what passes as healthy is, and the rest is put at rest. -/
theorem IsShaped.isSound_repair {p : Particle R} (h : p.IsShaped) (b : Bounds R) :
    (p.repair b).IsSound := by
  by_cases hp : p.isHealthy = true
  · rw [repair_of_isHealthy hp]
    simp only [isHealthy, Admissible.volumeRatio, Bool.and_eq_true, decide_eq_true_eq] at hp
    obtain ⟨⟨⟨⟨⟨hf, -⟩, -⟩, -⟩, -⟩, hdet, -⟩ := hp
    refine ⟨fun hm => ?_, h.plasticity_eq, hdet⟩
    obtain ⟨j, hj⟩ := h.water_shape hm hf
    rw [volumeRatio, hj] at hdet
    rw [hj] at hf
    have hfinite := Water.isFinite_of_isFinite_deformation hf
    exact ⟨j, hj, hfinite, (Water.det_deformation_pos_iff hfinite).mp hdet⟩
  · rw [repair, if_neg hp, recoverPosition_eq]
    exact isSound_of_deformation_eq_one rfl rfl

end Repair

theorem isSame_repair (b : Bounds R) (p : Particle R) : p.IsSame (p.repair b) := by
  unfold repair
  split_ifs
  · exact ⟨rfl, rfl⟩
  · rw [recoverPosition_eq]
    exact ⟨rfl, rfl⟩

theorem gather_eq (timeStep : R) (g : Grid R) (p : Particle R) : p.gather timeStep g =
    { p with
      position := (p.gather timeStep g).position
      velocity := (p.gather timeStep g).velocity
      affine := (p.gather timeStep g).affine } := by
  unfold gather
  split <;> rfl

theorem isSame_gather (timeStep : R) (g : Grid R) (p : Particle R) :
    p.IsSame (p.gather timeStep g) := by
  rw [gather_eq]
  exact ⟨rfl, rfl⟩

theorem IsShaped.gather {p : Particle R} (h : p.IsShaped) (timeStep : R) (g : Grid R) :
    (p.gather timeStep g).IsShaped := by
  rw [gather_eq]
  exact ⟨h.water_shape, h.plasticity_eq⟩

end Particle

/-- Particles in their order are the same pieces of matter as others, and sound. -/
def Population.Keeps (ps qs : Population R) : Prop :=
  List.Forall₂ (fun p q => p.IsSame q ∧ q.IsSound) ps qs

theorem Population.Keeps.map {ps qs : Population R} (h : ps.Keeps qs)
    {f : Particle R → Particle R} (hf : ∀ q, q.IsSound → q.IsSame (f q) ∧ (f q).IsSound) :
    ps.Keeps (qs.map f) := by
  refine List.forall₂_map_right_iff.mpr (h.imp fun p q hpq => ?_)
  obtain ⟨hsame, hsound⟩ := hf q hpq.2
  exact ⟨hpq.1.trans hsame, hsound⟩

end Laws

variable {R : Type} [Scalar R] [Exponential R] [SingularValues R]

namespace Material

theorem exists_deformation_respond
    (hsvd : ∀ f : Mat3 R, SingularValues.decompose? f = none → f.isFinite = false) (f : Mat3 R)
    (p mu lambda : R) (h : (water.respond f p mu lambda).deformation.isFinite = true) :
    ∃ j, (water.respond f p mu lambda).deformation = Water.deformation j := by
  unfold respond at h ⊢
  split at h
  next d _ => exact ⟨d.sigma.product, rfl⟩
  next hnone =>
    rw [hsvd f hnone] at h
    cases h

theorem plasticity_respond {m : Material} (hm : m ≠ snow) (f : Mat3 R) (p mu lambda : R) :
    (m.respond f p mu lambda).plasticity = p := by
  unfold respond
  split
  · cases m with
    | water => rfl
    | jelly => rfl
    | snow => exact absurd rfl hm
  · rfl

end Material

namespace Particle

theorem isSame_scatter (params : Params R) (g : Grid R) (p : Particle R) :
    p.IsSame (p.scatter params g).particle := by
  unfold scatter
  split_ifs
  · exact ⟨rfl, rfl⟩
  · exact ⟨rfl, rfl⟩

/-- A particle that deforms stays shaped. Without a decomposition, water takes a shape that is not
finite. -/
theorem IsShaped.scatter
    (hsvd : ∀ f : Mat3 R, SingularValues.decompose? f = none → f.isFinite = false)
    {p : Particle R} (h : p.IsShaped) (params : Params R) (g : Grid R) :
    (p.scatter params g).particle.IsShaped := by
  unfold Particle.scatter
  split_ifs
  · refine ⟨fun hm hf => ?_, fun hm => ?_⟩
    · change p.material = .water at hm
      change (p.response params).deformation.isFinite = true at hf
      change ∃ j, (p.response params).deformation = Water.deformation j
      unfold response at hf ⊢
      rw [hm] at hf ⊢
      exact Material.exists_deformation_respond hsvd _ _ _ _ hf
    · exact (Material.plasticity_respond hm _ _ _ _).trans (h.plasticity_eq hm)
  · exact h

end Particle

variable [Scalar.KeepsSigns R]

namespace Simulation

theorem isSound_repair_gather_scatter
    (hsvd : ∀ f : Mat3 R, SingularValues.decompose? f = none → f.isFinite = false)
    {p : Particle R} (hp : p.IsSound) (params : Params R) (g h : Grid R) (b : Bounds R) :
    let q := ((p.scatter params g).particle.gather params.timeStep h).repair b
    p.IsSame q ∧ q.IsSound :=
  ⟨((p.isSame_scatter params g).trans (Particle.isSame_gather _ _ _)).trans
      (Particle.isSame_repair _ _),
    ((hp.isShaped.scatter hsvd params g).gather params.timeStep h).isSound_repair b⟩

/-- A substep with a repair, or a change of parameters, of gravity or by another repair. -/
inductive RepairedStep : Simulation R → Simulation R → Prop
  | substep {s : Simulation R} (h : s.params.repairs = true) : RepairedStep s s.substep
  | setParams {s t : Simulation R} {params : Params R}
      (h : s.setParams params = .ok t) : RepairedStep s t
  | setGravity {s : Simulation R} (gravity : R) : RepairedStep s (s.setGravity gravity)
  | repair {s : Simulation R} : RepairedStep s s.repair

theorem RepairedStep.keeps
    (hsvd : ∀ f : Mat3 R, SingularValues.decompose? f = none → f.isFinite = false)
    {s t : Simulation R} (h : RepairedStep s t) {ps : Population R} (hs : ps.Keeps s.particles) :
    ps.Keeps t.particles := by
  cases h with
  | substep hr =>
    rw [particles_substep_of_repairs hr, particles_transfer, Population.repair, List.map_map]
    exact hs.map fun q hq => isSound_repair_gather_scatter hsvd hq _ _ _ _
  | setParams h =>
    obtain ⟨-, rfl⟩ := setParams_eq_ok_iff.mp h
    exact hs
  | setGravity gravity => exact hs
  | repair => exact hs.map fun q hq => ⟨q.isSame_repair _, hq.isShaped.isSound_repair _⟩

/-- Seeded particles persist, each of its material and color, and after every step no deformation
is inverted. -/
theorem keeps_of_repairedSteps [Generator R]
    (hsvd : ∀ f : Mat3 R, SingularValues.decompose? f = none → f.isFinite = false)
    {s t u : Simulation R} {schedule : Seeding.Schedule} {regions : List (Region R)} {seed : UInt64}
    (hseed : s.seed schedule regions seed = .ok t) (h : Relation.ReflTransGen RepairedStep t u) :
    u.particles.length = t.particles.length ∧ t.particles.Keeps u.particles := by
  suffices hk : t.particles.Keeps u.particles from ⟨hk.length_eq.symm, hk⟩
  induction h with
  | refl =>
    obtain ⟨ps, hps, rfl⟩ := seed_eq_ok_iff.mp hseed
    refine List.forall₂_same.mpr fun p hp => ⟨⟨rfl, rfl⟩, ?_⟩
    obtain ⟨hf, hplastic⟩ := Seeding.deformation_eq_one_of_mem_sample hps hp
    exact Particle.isSound_of_deformation_eq_one hf hplastic
  | tail _ hstep ih => exact hstep.keeps hsvd ih

end Simulation

open scoped Wreck

namespace Drop

/-- Reads every finite matrix as a stretch along the axes, and no stretch as negative. -/
@[reducible] def singularValues : SingularValues (Extended ℚ) :=
  ⟨fun f => if f.isFinite then
    some ⟨1, ⟨Scalar.greatest 0 f.x.x, Scalar.greatest 0 f.y.y, Scalar.greatest 0 f.z.z⟩, 1⟩
  else none⟩

/-- A small block of each material, away from the walls. -/
def regions : List (Region (Extended ℚ)) :=
  Material.all.map fun m => .block ⟨Vec3.splat 0.5, Vec3.splat 0.0625, m⟩

def simulation : Simulation (Extended ℚ) where
  particles := []
  grid := Grid.empty 16
  params := { Params.ofResolution 16 with budget := 6 }
  substeps := 0

end Drop

/-- A block of each material that falls, and then floats. -/
theorem Simulation.keeps_of_repairedSteps_drop :
    letI := Drop.singularValues
    ∃ t, Drop.simulation.seed .inOrder Drop.regions 7 = .ok t ∧
      let u := (t.substep.setGravity 0).substep
      u.particles.length = t.particles.length ∧ t.particles.Keeps u.particles := by
  let := Drop.singularValues
  have hsvd : ∀ f : Mat3 (Extended ℚ), SingularValues.decompose? f = none → f.isFinite = false := by
    intro f h
    by_contra hf
    exact absurd ((if_pos (Bool.eq_true_of_not_eq_false hf)).symm.trans h) (by simp)
  obtain ⟨counts, hsplit⟩ :
      ∃ counts, Budget.split (Drop.regions.map Region.volume) 6 = .ok counts :=
    ⟨[2, 2, 2], by decide +kernel⟩
  obtain ⟨ps, hps⟩ : ∃ ps, Seeding.sample .inOrder Drop.regions 6 7 = .ok ps := by
    rw [Seeding.sample, hsplit]
    exact ⟨_, rfl⟩
  have hseed : Drop.simulation.seed .inOrder Drop.regions 7 = .ok (Drop.simulation.setParticles ps) :=
    seed_eq_ok_iff.mpr ⟨ps, hps, rfl⟩
  exact ⟨_, hseed, keeps_of_repairedSteps hsvd hseed
    (.tail (.tail (.single (.substep rfl)) (.setGravity 0)) (.substep rfl))⟩

end MaterialPoint
