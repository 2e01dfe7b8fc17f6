import MaterialPoint.Proofs.Linear
import MaterialPoint.Proofs.Sums
import MaterialPoint.Stencil

/-! Moments of the quadratic B-spline: the weights sum to one and the offsets balance. -/
namespace MaterialPoint
open scoped Exact

variable {K : Type} [Field K] [LinearOrder K] [IsStrictOrderedRing K] [FloorRing K]

namespace SplineWeights

def along (t : K) : Fin 3 → K
  | 0 => fall t
  | 1 => bump t
  | 2 => rise t

theorem get_ofPhase (t : Vec3 K) (i : Fin 3) :
    (ofPhase t).get i = ⟨along t.x i, along t.y i, along t.z i⟩ := by
  fin_cases i <;> rfl

theorem sum_along (t : K) : ∑ i, along t i = 1 := by
  simp only [Fin.sum_univ_three, along, fall, bump, rise]
  ring

theorem sum_along_offset (t : K) : ∑ i : Fin 3, along t i * (i.val - t) = 0 := by
  simp only [Fin.sum_univ_three, along, fall, bump, rise, Fin.val_zero, Fin.val_one, Fin.val_two]
  push_cast
  ring

theorem sum_along_offset_sq (t : K) :
    ∑ i : Fin 3, along t i * ((i.val - t) * (i.val - t)) = 1 / 4 := by
  simp only [Fin.sum_univ_three, along, fall, bump, rise, Fin.val_zero, Fin.val_one, Fin.val_two]
  push_cast
  ring

theorem along_nonneg {t : K} (lo : 1 / 2 ≤ t) (hi : t < 3 / 2) (i : Fin 3) : 0 ≤ along t i := by
  fin_cases i
  · have h := mul_self_nonneg (1.5 - t)
    simp only [along, fall]
    linarith
  · have h : 0 ≤ (t - 1 / 2) * (3 / 2 - t) := mul_nonneg (by linarith) (by linarith)
    simp only [along, bump]
    linarith
  · have h := mul_self_nonneg (t - 0.5)
    simp only [along, rise]
    linarith

end SplineWeights

namespace Stencil

theorem sum_neighbors {M : Type} [AddCommMonoid M] (s : Stencil K) (f : Neighbor K → M) :
    (s.neighbors.map f).sum = ∑ k, ∑ j, ∑ i, f (s.neighbor i j k) := by
  simp only [neighbors, steps, List.map_map, List.map_flatMap, sum_flatMap, Fin.sum_univ_def,
    Function.comp_def]

variable (p : Vec3 K) (dx : K)

theorem weight_neighbor (i j k : Fin 3) :
    ((around p dx).neighbor i j k).weight =
      SplineWeights.along (around p dx).phase.x i * SplineWeights.along (around p dx).phase.y j *
        SplineWeights.along (around p dx).phase.z k := by
  simp only [neighbor, around, SplineWeights.get_ofPhase]

theorem offset_neighbor (i j k : Fin 3) :
    ((around p dx).neighbor i j k).offset =
      ⟨(i.val - (around p dx).phase.x) * dx, (j.val - (around p dx).phase.y) * dx,
        (k.val - (around p dx).phase.z) * dx⟩ := by
  simp only [neighbor, around, Vec3.smul_def, Vec3.sub_def, Vec3.ofInt, Int.cast_natCast]

theorem phase_bounds (t : K) :
    1 / 2 ≤ t - (⌊t - 0.5⌋ : ℤ) ∧ t - (⌊t - 0.5⌋ : ℤ) < 3 / 2 := by
  have lo := Int.floor_le (t - 0.5)
  have hi := Int.lt_floor_add_one (t - 0.5)
  constructor <;> linarith

/-- The lowest node lies at least half a cell and less than one and a half below a position. -/
theorem base_bounds (x : K) {dx : K} (hdx : 0 < dx) :
    ((⌊x / dx - 0.5⌋ : ℤ) + 1 / 2) * dx ≤ x ∧ x < ((⌊x / dx - 0.5⌋ : ℤ) + 3 / 2) * dx := by
  obtain ⟨lo, hi⟩ := phase_bounds (x / dx)
  constructor
  · exact (le_div_iff₀ hdx).mp (by linarith)
  · exact (div_lt_iff₀ hdx).mp (by linarith)

theorem coord_bounds {n : Neighbor K} (hn : n ∈ (around p dx).neighbors) :
    ((around p dx).base.x ≤ n.coord.x ∧ n.coord.x ≤ (around p dx).base.x + 2) ∧
      ((around p dx).base.y ≤ n.coord.y ∧ n.coord.y ≤ (around p dx).base.y + 2) ∧
      (around p dx).base.z ≤ n.coord.z ∧ n.coord.z ≤ (around p dx).base.z + 2 := by
  simp only [neighbors, List.mem_map] at hn
  obtain ⟨⟨i, j, k⟩, -, rfl⟩ := hn
  change ((_ : ℤ) ≤ _ + (i.val : ℤ) ∧ _ + (i.val : ℤ) ≤ _) ∧
    (_ ≤ _ + (j.val : ℤ) ∧ _ + (j.val : ℤ) ≤ _) ∧ _ ≤ _ + (k.val : ℤ) ∧ _ + (k.val : ℤ) ≤ _
  omega

theorem weight_nonneg {n : Neighbor K} (hn : n ∈ (around p dx).neighbors) : 0 ≤ n.weight := by
  simp only [neighbors, List.mem_map] at hn
  obtain ⟨⟨i, j, k⟩, -, rfl⟩ := hn
  rw [weight_neighbor]
  have hx := phase_bounds (p.x / dx)
  have hy := phase_bounds (p.y / dx)
  have hz := phase_bounds (p.z / dx)
  exact mul_nonneg (mul_nonneg (SplineWeights.along_nonneg hx.1 hx.2 i)
    (SplineWeights.along_nonneg hy.1 hy.2 j)) (SplineWeights.along_nonneg hz.1 hz.2 k)

/-- Along one axis, more than an eighth of the weight is on the last node that is not above. -/
private theorem exists_step_floor (t : K) : ∃ i : Fin 3, ⌊t - 0.5⌋ + (i.val : ℤ) = ⌊t⌋ ∧
    1 / 8 < SplineWeights.along (t - (⌊t - 0.5⌋ : ℤ)) i := by
  obtain ⟨lo, hi⟩ := phase_bounds t
  rcases lt_or_ge (t - (⌊t - 0.5⌋ : ℤ)) 1 with h | h
  · have hfloor : ⌊t⌋ = ⌊t - 0.5⌋ := Int.floor_eq_iff.mpr ⟨by linarith, by linarith⟩
    refine ⟨0, ?_, ?_⟩
    · rw [hfloor]
      exact add_zero _
    · have hsq : 0 < (1 - (t - (⌊t - 0.5⌋ : ℤ))) * (2 - (t - (⌊t - 0.5⌋ : ℤ))) :=
        mul_pos (by linarith) (by linarith)
      simp only [SplineWeights.along, SplineWeights.fall]
      linarith
  · have hfloor : ⌊t⌋ = ⌊t - 0.5⌋ + 1 := by
      refine Int.floor_eq_iff.mpr ⟨?_, ?_⟩ <;> push_cast <;> linarith
    refine ⟨1, hfloor.symm, ?_⟩
    have hsq : 0 ≤ (t - (⌊t - 0.5⌋ : ℤ) - 1) * (3 / 2 - (t - (⌊t - 0.5⌋ : ℤ))) :=
      mul_nonneg (by linarith) (by linarith)
    simp only [SplineWeights.along, SplineWeights.bump]
    linarith

/-- The last node not above the position along every axis has more than the 512th part of the
weight. -/
theorem exists_neighbor_floor : ∃ n ∈ (around p dx).neighbors,
    n.coord = ⟨⌊p.x / dx⌋, ⌊p.y / dx⌋, ⌊p.z / dx⌋⟩ ∧ 1 / 512 < n.weight := by
  obtain ⟨i, hi, hwi⟩ := exists_step_floor (p.x / dx)
  obtain ⟨j, hj, hwj⟩ := exists_step_floor (p.y / dx)
  obtain ⟨k, hk, hwk⟩ := exists_step_floor (p.z / dx)
  refine ⟨(around p dx).neighbor i j k, List.mem_map_of_mem (mem_steps i j k),
    Vec3.ext hi hj hk, ?_⟩
  rw [weight_neighbor]
  have hij : (1 / 8 : K) * (1 / 8) < _ * _ :=
    mul_lt_mul'' hwi hwj (by norm_num) (by norm_num)
  calc (1 / 512 : K) = 1 / 8 * (1 / 8) * (1 / 8) := by norm_num
    _ < _ := mul_lt_mul'' hij hwk (by norm_num) (by norm_num)

/-- A weighted sum of a product with one factor for each axis is a product of three sums. -/
private theorem sum_offset_mul_weight (F : Vec3 K → K) (f g h : K → K)
    (hF : ∀ d, F d = f d.x * g d.y * h d.z) :
    ((around p dx).neighbors.map fun n => F n.offset * n.weight).sum =
      (∑ i : Fin 3, SplineWeights.along (around p dx).phase.x i *
        f ((i.val - (around p dx).phase.x) * dx)) *
      (∑ i : Fin 3, SplineWeights.along (around p dx).phase.y i *
        g ((i.val - (around p dx).phase.y) * dx)) *
      ∑ i : Fin 3, SplineWeights.along (around p dx).phase.z i *
        h ((i.val - (around p dx).phase.z) * dx) := by
  simp only [sum_neighbors, hF, weight_neighbor, offset_neighbor, Fin.sum_univ_three]
  ring

private theorem sum_along_mul_offset (t : K) :
    ∑ i : Fin 3, SplineWeights.along t i * ((i.val - t) * dx) = 0 := by
  simp only [← mul_assoc, ← Finset.sum_mul, SplineWeights.sum_along_offset, zero_mul]

private theorem sum_along_mul_offset_sq (t : K) :
    ∑ i : Fin 3, SplineWeights.along t i * ((i.val - t) * dx * ((i.val - t) * dx)) =
      dx * dx / 4 := by
  have h (i : Fin 3) : SplineWeights.along t i * ((i.val - t) * dx * ((i.val - t) * dx)) =
      SplineWeights.along t i * ((i.val - t) * (i.val - t)) * (dx * dx) := by ring
  simp only [h, ← Finset.sum_mul, SplineWeights.sum_along_offset_sq]
  ring

theorem sum_weight : ((around p dx).neighbors.map (·.weight)).sum = 1 := by
  have h := sum_offset_mul_weight p dx (fun _ => 1) (fun _ => 1) (fun _ => 1) (fun _ => 1)
    (fun _ => by ring)
  simpa only [one_mul, mul_one, SplineWeights.sum_along] using h

theorem sum_weight_smul {M : Type} [AddCommMonoid M] [Module K M] (v : M) :
    ((around p dx).neighbors.map fun n => n.weight • v).sum = v := by
  rw [← map_sum_map (fun a : K => a • v) (zero_smul K v) fun a b => add_smul a b v, sum_weight,
    one_smul]

theorem sum_weight_smul_offset :
    ((around p dx).neighbors.map fun n => n.weight • n.offset).sum = 0 := by
  ext
  · rw [map_sum_map Vec3.x rfl fun _ _ => rfl]
    refine (sum_offset_mul_weight p dx (·.x) id 1 1 fun d => ?_).trans ?_
    · simp
    · simp [sum_along_mul_offset, Vec3.zero_def]
  · rw [map_sum_map Vec3.y rfl fun _ _ => rfl]
    refine (sum_offset_mul_weight p dx (·.y) 1 id 1 fun d => ?_).trans ?_
    · simp
    · simp [sum_along_mul_offset, Vec3.zero_def]
  · rw [map_sum_map Vec3.z rfl fun _ _ => rfl]
    refine (sum_offset_mul_weight p dx (·.z) 1 1 id fun d => ?_).trans ?_
    · simp
    · simp [sum_along_mul_offset, Vec3.zero_def]

private theorem entry_sum_outer (entry : Mat3 K → K) (f g h : K → K) (h0 : entry 0 = 0)
    (ha : ∀ m n, entry (m + n) = entry m + entry n) (hs : ∀ a m, entry (a • m) = entry m * a)
    (hF : ∀ d, entry (Mat3.outer d d) = f d.x * g d.y * h d.z) :
    entry ((around p dx).neighbors.map fun n => n.weight • Mat3.outer n.offset n.offset).sum =
      (∑ i : Fin 3, SplineWeights.along (around p dx).phase.x i *
        f ((i.val - (around p dx).phase.x) * dx)) *
      (∑ i : Fin 3, SplineWeights.along (around p dx).phase.y i *
        g ((i.val - (around p dx).phase.y) * dx)) *
      ∑ i : Fin 3, SplineWeights.along (around p dx).phase.z i *
        h ((i.val - (around p dx).phase.z) * dx) := by
  rw [map_sum_map entry h0 ha]
  simp only [hs]
  exact sum_offset_mul_weight p dx (fun d => entry (Mat3.outer d d)) f g h hF

/-- The second moment is a quarter of a squared cell in every direction. -/
theorem sum_weight_smul_outer :
    ((around p dx).neighbors.map fun n => n.weight • Mat3.outer n.offset n.offset).sum =
      (dx * dx / 4) • (1 : Mat3 K) := by
  have one := SplineWeights.sum_along (K := K)
  have off := sum_along_mul_offset dx
  have sq := sum_along_mul_offset_sq dx
  let sqr (a : K) : K := a * a
  ext
  · rw [entry_sum_outer p dx (fun m => m.x.x) sqr 1 1 rfl (fun _ _ => rfl) (fun _ _ => rfl)]
    · simp [sqr, sq, one, Mat3.smul_def, Mat3.one_def, Vec3.smul_def]
    · simp [sqr, Mat3.outer, Vec3.smul_def]
  · rw [entry_sum_outer p dx (fun m => m.x.y) id id 1 rfl (fun _ _ => rfl) (fun _ _ => rfl)]
    · simp [off, Mat3.smul_def, Mat3.one_def, Vec3.smul_def]
    · simp [Mat3.outer, Vec3.smul_def, mul_comm]
  · rw [entry_sum_outer p dx (fun m => m.x.z) id 1 id rfl (fun _ _ => rfl) (fun _ _ => rfl)]
    · simp [off, Mat3.smul_def, Mat3.one_def, Vec3.smul_def]
    · simp [Mat3.outer, Vec3.smul_def, mul_comm]
  · rw [entry_sum_outer p dx (fun m => m.y.x) id id 1 rfl (fun _ _ => rfl) (fun _ _ => rfl)]
    · simp [off, Mat3.smul_def, Mat3.one_def, Vec3.smul_def]
    · simp [Mat3.outer, Vec3.smul_def]
  · rw [entry_sum_outer p dx (fun m => m.y.y) 1 sqr 1 rfl (fun _ _ => rfl) (fun _ _ => rfl)]
    · simp [sqr, sq, one, Mat3.smul_def, Mat3.one_def, Vec3.smul_def]
    · simp [sqr, Mat3.outer, Vec3.smul_def]
  · rw [entry_sum_outer p dx (fun m => m.y.z) 1 id id rfl (fun _ _ => rfl) (fun _ _ => rfl)]
    · simp [off, Mat3.smul_def, Mat3.one_def, Vec3.smul_def]
    · simp [Mat3.outer, Vec3.smul_def, mul_comm]
  · rw [entry_sum_outer p dx (fun m => m.z.x) id 1 id rfl (fun _ _ => rfl) (fun _ _ => rfl)]
    · simp [off, Mat3.smul_def, Mat3.one_def, Vec3.smul_def]
    · simp [Mat3.outer, Vec3.smul_def]
  · rw [entry_sum_outer p dx (fun m => m.z.y) 1 id id rfl (fun _ _ => rfl) (fun _ _ => rfl)]
    · simp [off, Mat3.smul_def, Mat3.one_def, Vec3.smul_def]
    · simp [Mat3.outer, Vec3.smul_def]
  · rw [entry_sum_outer p dx (fun m => m.z.z) 1 1 sqr rfl (fun _ _ => rfl) (fun _ _ => rfl)]
    · simp [sqr, sq, one, Mat3.smul_def, Mat3.one_def, Vec3.smul_def]
    · simp [sqr, Mat3.outer, Vec3.smul_def]

theorem mul_inverseMoment {dx : K} (hdx : dx ≠ 0) : dx * dx / 4 * inverseMoment dx = 1 := by
  rw [inverseMoment]
  field_simp
  norm_num

theorem sum_weight_smul_linear (v : Vec3 K) (slope : Mat3 K) :
    ((around p dx).neighbors.map fun n => n.weight • (v + slope.apply n.offset)).sum = v := by
  have h (n : Neighbor K) : n.weight • (v + slope.apply n.offset) =
      n.weight • v + slope.apply (n.weight • n.offset) := by
    rw [smul_add, Mat3.apply_smul]
  simp only [h, List.sum_map_add]
  rw [sum_weight_smul, ← map_sum_map slope.apply slope.apply_zero slope.apply_add,
    sum_weight_smul_offset, Mat3.apply_zero, add_zero]

theorem sum_outer_linear {dx : K} (hdx : dx ≠ 0) (v : Vec3 K) (slope : Mat3 K) :
    ((around p dx).neighbors.map fun n => inverseMoment dx •
      Mat3.outer (n.weight • (v + slope.apply n.offset)) n.offset).sum = slope := by
  have h (n : Neighbor K) : inverseMoment dx •
        Mat3.outer (n.weight • (v + slope.apply n.offset)) n.offset =
      inverseMoment dx • Mat3.outer v (n.weight • n.offset) +
        inverseMoment dx • (slope * n.weight • Mat3.outer n.offset n.offset) := by
    rw [smul_add, Mat3.add_outer, ← Mat3.apply_smul, Mat3.outer_apply, smul_add, Mat3.smul_outer,
      Mat3.smul_outer, Mat3.outer_smul n.weight n.offset]
  simp only [h, List.sum_map_add]
  rw [← map_sum_map (fun d => inverseMoment dx • Mat3.outer v d) (by simp)
      (fun d e => by rw [Mat3.outer_add, smul_add]),
    ← map_sum_map (fun m => inverseMoment dx • (slope * m)) (by simp)
      (fun m n => by rw [mul_add, smul_add]),
    sum_weight_smul_offset, sum_weight_smul_outer, Mat3.outer_zero, smul_zero, zero_add,
    mul_smul_comm, mul_one, smul_smul, mul_comm, mul_inverseMoment hdx, one_smul]

private theorem cell_mul_node (x : K) {dx : K} (hdx : dx ≠ 0) (b i : ℤ) :
    ((b + i : ℤ) : K) * dx = x + (i - (x / dx - b)) * dx := by
  push_cast
  field_simp
  ring

theorem cellSize_smul_coord {dx : K} (hdx : dx ≠ 0) {n : Neighbor K}
    (hn : n ∈ (around p dx).neighbors) : dx • Vec3.ofInt n.coord = p + n.offset := by
  simp only [neighbors, List.mem_map] at hn
  obtain ⟨⟨i, j, k⟩, -, rfl⟩ := hn
  exact Vec3.ext (cell_mul_node p.x hdx _ _) (cell_mul_node p.y hdx _ _) (cell_mul_node p.z hdx _ _)

end Stencil
end MaterialPoint
