import MaterialPoint.Proofs.Checked
import MaterialPoint.Proofs.Coherence
import MaterialPoint.Proofs.Extended

/-! Repairs find every broken particle and leave none, whatever numbers it is broken by. -/
namespace MaterialPoint

section Reports
variable {R : Type} [Scalar R]

theorem Particle.instability?_eq_some_iff {p : Particle R} {i : ℕ} {r : Instability R} :
    p.instability? i = some r ↔ p.isHealthy = false ∧ r = ⟨i, p.volumeRatio⟩ := by
  unfold instability?
  by_cases h : p.isHealthy = true
  · simp [h]
  · simp [h, eq_comm]

namespace Population
variable {ps : Population R}

theorem mem_instabilities_iff {r : Instability R} : r ∈ ps.instabilities ↔
    ∃ p, ps[r.index]? = some p ∧ p.isHealthy = false ∧ r.volumeRatio = p.volumeRatio := by
  simp only [instabilities, List.mem_filterMap, List.mem_mapIdx, id_eq, exists_eq_right,
    Particle.instability?_eq_some_iff]
  constructor
  · rintro ⟨i, hi, hp, rfl⟩
    exact ⟨ps[i], List.getElem?_eq_getElem hi, hp, rfl⟩
  · rintro ⟨p, hp, hh, hr⟩
    obtain ⟨hi, rfl⟩ := List.getElem?_eq_some_iff.mp hp
    exact ⟨r.index, hi, hh, by rw [← hr]⟩

theorem pairwise_instabilities (ps : Population R) :
    ps.instabilities.Pairwise fun r t => r.index < t.index := by
  rw [instabilities, List.pairwise_filterMap, List.pairwise_iff_getElem]
  intro i j hi hj hij r hr t ht
  rw [id_eq, List.getElem_mapIdx] at hr ht
  obtain ⟨-, rfl⟩ := Particle.instability?_eq_some_iff.mp hr
  obtain ⟨-, rfl⟩ := Particle.instability?_eq_some_iff.mp ht
  exact hij

theorem instabilities_eq_nil (h : ∀ p ∈ ps, p.isHealthy = true) : ps.instabilities = [] := by
  refine List.eq_nil_iff_forall_not_mem.mpr fun r hr => ?_
  obtain ⟨p, hp, hbroken, -⟩ := mem_instabilities_iff.mp hr
  rw [h p (List.mem_of_getElem? hp)] at hbroken
  cases hbroken

end Population

/-- A point is in a box, whose faces belong to it. -/
def Bounds.Contains (b : Bounds R) (p : Vec3 R) : Prop :=
  (b.lo.x ≤ p.x ∧ p.x ≤ b.hi.x) ∧ (b.lo.y ≤ p.y ∧ p.y ≤ b.hi.y) ∧ b.lo.z ≤ p.z ∧ p.z ≤ b.hi.z

/-- A broken particle back in its shape at rest, with what is finite of its place and motion. -/
structure Particle.IsRestored (b : Bounds R) (p q : Particle R) : Prop where
  deformation_eq : q.deformation = 1
  affine_eq : q.affine = 0
  plasticity_eq : q.plasticity = 1
  material_eq : q.material = p.material
  color_eq : q.color = p.color
  velocity_eq : q.velocity = if p.velocity.isFinite then p.velocity else 0
  position_eq : p.position.isFinite = true → q.position = p.position
  contains : p.position.isFinite = false → b.Contains q.position

/-- All numbers can be brought between two bounds, and are finite there. -/
def Recovers (lo hi : R) : Prop :=
  lo ≤ hi ∧ ∀ x, Scalar.isFinite (Particle.recoverComponent lo hi x) = true ∧
    lo ≤ Particle.recoverComponent lo hi x ∧ Particle.recoverComponent lo hi x ≤ hi

structure Bounds.IsRecovery (b : Bounds R) : Prop where
  x : Recovers b.lo.x b.hi.x
  y : Recovers b.lo.y b.hi.y
  z : Recovers b.lo.z b.hi.z

namespace Particle
variable {b : Bounds R}

theorem recoverPosition_eq (b : Bounds R) (p : Particle R) :
    p.recoverPosition b = { p with position := (p.recoverPosition b).position } := by
  unfold recoverPosition
  split <;> rfl

theorem position_recoverPosition (h : b.IsRecovery) (p : Particle R) :
    let q := p.recoverPosition b
    q.position.isFinite = true ∧ (p.position.isFinite = true → q.position = p.position) ∧
      (p.position.isFinite = false → b.Contains q.position) := by
  intro q
  by_cases hf : p.position.isFinite = true
  · have hq : q = p := if_pos hf
    rw [hq]
    exact ⟨hf, fun _ => rfl, fun hn => absurd hf (Bool.eq_false_iff.mp hn)⟩
  · have hq : q.position = ⟨recoverComponent b.lo.x b.hi.x p.position.x,
        recoverComponent b.lo.y b.hi.y p.position.y,
        recoverComponent b.lo.z b.hi.z p.position.z⟩ := by
      simp only [q, recoverPosition, if_neg hf]
    obtain ⟨⟨-, hx⟩, ⟨-, hy⟩, ⟨-, hz⟩⟩ := h
    rw [hq]
    refine ⟨?_, fun h => absurd h hf, fun _ => ⟨(hx _).2, (hy _).2, (hz _).2⟩⟩
    simp only [Vec3.isFinite, Vec3.all, (hx _).1, (hy _).1, (hz _).1, Bool.and_self]

theorem isRestored_repair (h : b.IsRecovery) {p : Particle R} (hp : p.isHealthy = false) :
    p.IsRestored b (p.repair b) := by
  obtain ⟨-, hkeep, hin⟩ := position_recoverPosition h p.resetShape
  rw [repair, if_neg (Bool.eq_false_iff.mp hp), recoverPosition_eq]
  exact ⟨rfl, rfl, rfl, rfl, rfl, rfl, hkeep, hin⟩

theorem isFinite_position_repair (h : b.IsRecovery) {p : Particle R} (hp : p.isHealthy = false) :
    (p.repair b).position.isFinite = true := by
  rw [repair, if_neg (Bool.eq_false_iff.mp hp)]
  exact (position_recoverPosition h p.resetShape).1

theorem isRecoverable_of_isRecovery (h : b.IsRecovery) (p : Particle R) :
    p.isRecoverable b = true := by
  have hc {lo hi : R} (hr : Recovers lo hi) (x : R) : componentRecoverable lo hi x = true := by
    rw [componentRecoverable, decide_eq_true hr.1, Bool.or_true]
  rw [isRecoverable, hc h.x, hc h.y, hc h.z, Bool.and_self, Bool.and_self, Bool.or_true]

end Particle

theorem Population.repair?_eq_some {b : Bounds R} (h : b.IsRecovery) (ps : Population R) :
    ps.repair? b = some (ps.repair b, ps.instabilities) := by
  refine if_pos (List.all_eq_true.mpr fun p _ => ?_)
  rw [p.isRecoverable_of_isRecovery h, Bool.or_true]

end Reports

namespace Extended
variable {K : Type} [Field K] [LinearOrder K] [IsStrictOrderedRing K] [FloorRing K] [Overflow K]

theorem det_one : (1 : Mat3 (Extended K)).det = 1 := by
  change finite 0 * (finite 0 * finite 0 - finite 1 * finite 0) +
      finite 0 * (finite 0 * finite 0 - finite 0 * finite 1) +
    finite 1 * (finite 1 * finite 1 - finite 0 * finite 0) = (finite 1 : Extended K)
  simp [finite_mul, finite_sub, finite_add]

/-- A wall of valid parameters is at most half as wide as the domain. -/
theorem exists_interior_eq {p : Params (Extended K)} (h : p.Valid) : ∃ a : K, a ≤ 1 / 2 ∧
    Simulation.interior p = ⟨Vec3.splat (finite a), Vec3.splat (finite (1 - a))⟩ := by
  obtain ⟨hn, hw⟩ := h.wallWidth_le
  have hn0 : (0 : K) < p.resolution := Nat.cast_pos.mpr (by omega)
  have hn1 : (1 : K) ≤ p.resolution := Nat.one_le_cast.mpr (by omega)
  have hw2 : (p.wallWidth : K) * 2 ≤ p.resolution := by exact_mod_cast hw
  have hcell : p.cellSize = finite (1 / (p.resolution : K)) := by
    refine finite_div hn0.ne' ?_
    rw [abs_of_pos (one_div_pos.mpr hn0)]
    exact (div_le_one hn0).mpr hn1
  have h0 : 0 ≤ (p.wallWidth : K) * (1 / p.resolution) := by positivity
  have h1 : (p.wallWidth : K) * (1 / p.resolution) ≤ 1 / 2 := by
    rw [mul_one_div, div_le_div_iff₀ hn0 two_pos]
    linarith
  have hwall : (p.wallWidth : Extended K) * p.cellSize =
      finite ((p.wallWidth : K) * (1 / p.resolution)) := by
    rw [hcell]
    refine finite_mul ?_
    rw [abs_of_nonneg h0]
    linarith
  refine ⟨_, h1, ?_⟩
  have hfar : 1 - (p.wallWidth : Extended K) * p.cellSize =
      finite (1 - (p.wallWidth : K) * (1 / p.resolution)) := by
    rw [hwall]
    refine finite_sub (abs_le.mpr ⟨?_, ?_⟩)
    · linarith
    · linarith
  rw [Simulation.interior, hfar, hwall]

theorem recovers_finite {a : K} (h : a ≤ 1 / 2) :
    Recovers (finite a) (finite (1 - a)) := by
  have hle : a ≤ 1 - a := by linarith
  have hmiddle : (finite a + finite (1 - a)) * (0.5 : Extended K) = finite (1 / 2) := by
    rw [finite_add (by rw [add_sub_cancel, abs_one])]
    refine (finite_mul ?_).trans ?_
    · rw [add_sub_cancel, one_mul, abs_of_pos (by norm_num)]
      norm_num
    · rw [add_sub_cancel, one_mul]
      norm_num
  refine ⟨finite_le_finite.mpr hle, fun x => ?_⟩
  suffices hx : ∃ y : K, Particle.recoverComponent (finite a) (finite (1 - a)) x = finite y ∧
      a ≤ y ∧ y ≤ 1 - a by
    obtain ⟨y, hy, hlo, hhi⟩ := hx
    rw [hy]
    exact ⟨rfl, finite_le_finite.mpr hlo, finite_le_finite.mpr hhi⟩
  cases x with
  | nan => exact ⟨1 / 2, hmiddle, h, by linarith⟩
  | infinite isNegative =>
    cases isNegative with
    | true => exact ⟨a, rfl, le_rfl, hle⟩
    | false => exact ⟨1 - a, rfl, hle, le_rfl⟩
  | finite x =>
    change ∃ y : K, Scalar.clamp (finite a) (finite (1 - a)) (finite x) = finite y ∧ _
    unfold Scalar.clamp
    split_ifs with hlo hhi
    · exact ⟨a, rfl, le_rfl, hle⟩
    · exact ⟨1 - a, rfl, hle, le_rfl⟩
    · rw [finite_lt_finite, not_lt] at hlo
      rw [gt_iff_lt, finite_lt_finite, not_lt] at hhi
      exact ⟨x, rfl, hlo, hhi⟩

end Extended

namespace Simulation
variable {K : Type} [Field K] [LinearOrder K] [IsStrictOrderedRing K] [FloorRing K] [Overflow K]
  {params : Params (Extended K)}

theorem isRecovery_interior (h : params.Valid) : (interior params).IsRecovery := by
  obtain ⟨a, ha, hb⟩ := Extended.exists_interior_eq h
  have hr := Extended.recovers_finite ha
  rw [hb]
  exact ⟨hr, hr, hr⟩

theorem isHealthy_repair (h : params.Valid) (p : Particle (Extended K)) :
    (p.repair (interior params)).isHealthy = true := by
  cases hp : p.isHealthy with
  | true => rw [Particle.repair_of_isHealthy hp, hp]
  | false =>
    have hr := isRecovery_interior h
    have hq := Particle.isRestored_repair hr hp
    have hvelocity : (p.repair (interior params)).velocity.isFinite = true := by
      rw [hq.velocity_eq]
      split_ifs with hv
      · exact hv
      · rfl
    have hdet : Admissible.volumeRatio (1 : Mat3 (Extended K)).det = true := by
      rw [Extended.det_one, Admissible.volumeRatio, Bool.and_eq_true]
      exact ⟨decide_eq_true (Extended.finite_lt_finite.mpr one_pos), rfl⟩
    rw [Particle.isHealthy, Particle.volumeRatio, hq.deformation_eq, hq.affine_eq,
      hq.plasticity_eq, Particle.isFinite_position_repair hr hp, hvelocity, hdet]
    rfl

theorem isHealthy_of_mem_repair (h : params.Valid) {ps : Population (Extended K)} :
    ∀ p ∈ ps.repair (interior params), p.isHealthy = true := by
  intro p hp
  obtain ⟨q, -, rfl⟩ := List.mem_map.mp hp
  exact isHealthy_repair h q

/-- Under valid parameters every repair runs through. Healthy particles are untouched, the others are
reported and restored. -/
theorem repair_restores [Exponential (Extended K)] [SingularValues (Extended K)]
    {s : Simulation (Extended K)} (h : s.params.validate? = some (.ok ())) :
    let b := interior s.params
    (b.lo.x ≤ b.hi.x ∧ b.lo.y ≤ b.hi.y ∧ b.lo.z ≤ b.hi.z) ∧
    s.particles.repair? b = some (s.repair.particles, s.instabilities) ∧
    (∀ p ∈ s.repair.particles, ∀ i, p.instability? i = none) ∧
    (∀ r, r ∈ s.instabilities ↔ ∃ p, s.particles[r.index]? = some p ∧
      (p.instability? r.index).isSome ∧ r.volumeRatio = p.deformation.det) ∧
    (s.instabilities.Pairwise fun r t => r.index < t.index) ∧
    List.Forall₂ (fun p q => if p.isHealthy then q = p else p.IsRestored b q)
      s.particles s.repair.particles ∧
    s.repair.instabilities = [] ∧
    (s.params.repairs = true → (∀ p ∈ s.substep.particles, p.isHealthy = true) ∧
      ∀ t, s.substep? = some t → ∀ p ∈ t.particles, p.isHealthy = true) := by
  intro b
  rw [Params.validate?_eq_ok_iff] at h
  have hr : b.IsRecovery := isRecovery_interior h
  refine ⟨⟨hr.x.1, hr.y.1, hr.z.1⟩, s.particles.repair?_eq_some hr, ?_, ?_,
    s.particles.pairwise_instabilities, ?_,
    Population.instabilities_eq_nil (isHealthy_of_mem_repair h), ?_⟩
  · intro p hp i
    exact if_pos (isHealthy_of_mem_repair h p hp)
  · intro r
    rw [instabilities, Population.mem_instabilities_iff]
    simp [Particle.instability?, Particle.volumeRatio]
  · refine List.forall₂_map_right_iff.mpr (List.forall₂_same.mpr fun p _ => ?_)
    split_ifs with hp
    · exact Particle.repair_of_isHealthy hp
    · exact Particle.isRestored_repair hr (Bool.not_eq_true _ ▸ hp)
  · intro hrepairs
    rw [particles_substep_of_repairs hrepairs]
    refine ⟨isHealthy_of_mem_repair h, fun t ht => ?_⟩
    obtain ⟨u, hu, ht⟩ := Option.bind_eq_some_iff.mp ht
    obtain ⟨v, hv, ht⟩ := Option.bind_eq_some_iff.mp ht
    obtain rfl := Option.some.inj ht
    have hparams := (frame_of_transfer? hu).1
    obtain rfl := eq_of_mend? hv
    rw [hparams, if_pos hrepairs]
    have hvalid : u.params.Valid := by rwa [hparams]
    exact isHealthy_of_mem_repair hvalid

end Simulation

namespace Wreck

/-- Numbers end where those of single precision do. -/
scoped instance : Overflow ℚ where
  isTooLarge x := 2 ^ 128 ≤ |x|
  isTooLarge_of_abs_le_one x hx := decide_eq_false (by linarith)

scoped instance : SingularValues (Extended ℚ) := ⟨fun _ => none⟩

scoped instance : Exponential (Extended ℚ) := ⟨fun _ => 1⟩

scoped instance : Generator (Extended ℚ) := Random.generator

def center : Vec3 (Extended ℚ) := Vec3.splat 0.5

def simulation : Simulation (Extended ℚ) where
  particles := [Particle.atRest center .water,
    { Particle.atRest ⟨.nan, .infinite true, 0.5⟩ .jelly with velocity := ⟨0, .infinite false, 0⟩ },
    { Particle.atRest center .snow with
      deformation := Mat3.diagonal (Vec3.splat (.finite (2 ^ 64))) },
    { Particle.atRest center .jelly with deformation := Mat3.diagonal ⟨1, -1, 1⟩ },
    { Particle.atRest center .snow with plasticity := .nan }]
  grid := Grid.empty 4
  params := { Params.ofResolution 4 with wallWidth := 2 }
  substeps := 0

end Wreck

open scoped Wreck

theorem Simulation.repair_restores_wreck :
    Wreck.simulation.repair.instabilities = [] ∧
      (∀ p ∈ Wreck.simulation.repair.particles, ∀ i, p.instability? i = none) ∧
      ∀ p ∈ Wreck.simulation.substep.particles, p.isHealthy = true := by
  obtain ⟨-, -, hhealthy, -, -, -, hagain, hsubstep⟩ :=
    Simulation.repair_restores (s := Wreck.simulation) (by decide +kernel)
  exact ⟨hagain, hhealthy, (hsubstep rfl).1⟩

/-- The ratio of volume of the third particle is too large to be finite. -/
example : Wreck.simulation.instabilities =
    [⟨1, 1⟩, ⟨2, .infinite false⟩, ⟨3, .finite (-1)⟩, ⟨4, 1⟩] := by
  decide +kernel

end MaterialPoint
