import MaterialPoint.Proofs.Kernel
import MaterialPoint.Mesh.Cuboid

/-! The 27 nodes around a position, and the moments of their weights. -/
namespace MaterialPoint
open scoped Exact

theorem Axis.forall_iff {P : Axis → Prop} : (∀ axis, P axis) ↔ P .x ∧ P .y ∧ P .z := by
  constructor
  · exact fun h => ⟨h .x, h .y, h .z⟩
  · rintro ⟨hx, hy, hz⟩ axis
    cases axis with
    | x => exact hx
    | y => exact hy
    | z => exact hz

namespace Stencil

section Coords
variable {R : Type} (s : Stencil R)

theorem fits_eq_true_iff : s.fits = true ↔ ∀ axis,
    Word.fitsSigned (s.base.get axis) = true ∧ Word.fitsSigned (s.base.get axis + 2) = true := by
  simp only [fits, Vec3.all, Axis.forall_iff, Vec3.get, Bool.and_eq_true, and_assoc]

variable [Scalar R]

theorem nodup_steps : steps.Nodup := by decide

theorem nodup_map_coord_neighbors : (s.neighbors.map (·.coord)).Nodup := by
  rw [neighbors, List.map_map]
  refine nodup_steps.map fun a b h => ?_
  have hx : s.base.x + (a.1.val : ℤ) = s.base.x + b.1.val := congrArg Vec3.x h
  have hy : s.base.y + (a.2.1.val : ℤ) = s.base.y + b.2.1.val := congrArg Vec3.y h
  have hz : s.base.z + (a.2.2.val : ℤ) = s.base.z + b.2.2.val := congrArg Vec3.z h
  refine Prod.ext (Fin.ext ?_) (Prod.ext (Fin.ext ?_) (Fin.ext ?_))
  · omega
  · omega
  · omega

theorem get_coord_neighbor (i j k : Fin 3) (axis : Axis) :
    s.base.get axis ≤ (s.neighbor i j k).coord.get axis ∧
      (s.neighbor i j k).coord.get axis ≤ s.base.get axis + 2 := by
  have hstep (b : ℤ) (i : Fin 3) : b ≤ b + (i.val : ℤ) ∧ b + (i.val : ℤ) ≤ b + 2 := by omega
  cases axis with
  | x => exact hstep s.base.x i
  | y => exact hstep s.base.y j
  | z => exact hstep s.base.z k

theorem mem_map_coord_neighbors_iff (c : Coord) : c ∈ s.neighbors.map (·.coord) ↔
    ∀ axis, s.base.get axis ≤ c.get axis ∧ c.get axis ≤ s.base.get axis + 2 := by
  constructor
  · intro h axis
    obtain ⟨n, hn, rfl⟩ := List.mem_map.mp h
    obtain ⟨⟨i, j, k⟩, -, rfl⟩ := List.mem_map.mp hn
    exact s.get_coord_neighbor i j k axis
  · intro h
    have hstep (axis : Axis) : ∃ i : Fin 3, s.base.get axis + (i.val : ℤ) = c.get axis := by
      obtain ⟨lo, hi⟩ := h axis
      exact ⟨⟨(c.get axis - s.base.get axis).toNat, by omega⟩, by dsimp only; omega⟩
    obtain ⟨i, hi⟩ := hstep .x
    obtain ⟨j, hj⟩ := hstep .y
    obtain ⟨k, hk⟩ := hstep .z
    exact List.mem_map.mpr ⟨s.neighbor i j k, List.mem_map_of_mem (mem_steps i j k),
      Vec3.ext hi hj hk⟩

end Coords

variable {K : Type} [Field K] [LinearOrder K] [IsStrictOrderedRing K] [FloorRing K]
variable (p : Vec3 K) (dx : K)

theorem get_base_around (axis : Axis) :
    (around p dx).base.get axis = ⌊p.get axis / dx - 0.5⌋ := by
  cases axis <;> rfl

theorem get_phase_around (axis : Axis) : (around p dx).phase.get axis =
    p.get axis / dx - ((around p dx).base.get axis : ℤ) := by
  cases axis <;> rfl

theorem get_phase_mem (axis : Axis) :
    1 / 2 ≤ (around p dx).phase.get axis ∧ (around p dx).phase.get axis < 3 / 2 := by
  rw [get_phase_around, get_base_around]
  exact phase_bounds _

theorem get_offset_neighbor (i j k : Fin 3) (axis : Axis) : ∃ step : Fin 3,
    ((around p dx).neighbor i j k).offset.get axis =
      (step.val - (around p dx).phase.get axis) * dx := by
  rw [offset_neighbor]
  cases axis with
  | x => exact ⟨i, rfl⟩
  | y => exact ⟨j, rfl⟩
  | z => exact ⟨k, rfl⟩

variable {dx}

theorem abs_get_offset_le (hdx : 0 < dx) {n : Neighbor K} (hn : n ∈ (around p dx).neighbors)
    (axis : Axis) : |n.offset.get axis| ≤ 3 / 2 * dx := by
  obtain ⟨⟨i, j, k⟩, -, rfl⟩ := List.mem_map.mp hn
  obtain ⟨step, hstep⟩ := get_offset_neighbor p dx i j k axis
  obtain ⟨lo, hi⟩ := get_phase_mem p dx axis
  have h0 : (0 : K) ≤ step.val := Nat.cast_nonneg _
  have h2 : (step.val : K) ≤ 2 := by exact_mod_cast (by omega : step.val ≤ 2)
  rw [hstep, abs_mul, abs_of_pos hdx]
  refine mul_le_mul_of_nonneg_right (abs_le.mpr ⟨?_, ?_⟩) hdx.le
  · linarith
  · linarith

/-- Around a position on a lattice, the lowest node is at most one before the lattice. -/
theorem get_base_mem (hdx : 0 < dx) {n : ℕ} {axis : Axis}
    (h : 0 ≤ p.get axis ∧ p.get axis < n * dx) :
    -1 ≤ (around p dx).base.get axis ∧ (around p dx).base.get axis ≤ n - 1 := by
  have hlo : 0 ≤ p.get axis / dx := div_nonneg h.1 hdx.le
  have hhi : p.get axis / dx < n := (div_lt_iff₀ hdx).mpr h.2
  rw [get_base_around]
  constructor
  · refine Int.le_floor.mpr ?_
    push_cast
    linarith
  · refine Int.le_sub_one_of_lt (Int.floor_lt.mpr ?_)
    push_cast
    linarith

/-- Where the nodes around a position have words for coordinates they can be listed, with the
moments of the spline. -/
theorem moments_neighbors (hdx : 0 < dx)
    (hbase : ∀ axis, Word.fitsSigned ((around p dx).base.get axis) = true) :
    let s := around p dx
    (∀ axis, 1 / 2 ≤ s.phase.get axis ∧ s.phase.get axis < 3 / 2) ∧
      ((∀ axis, Word.fitsSigned (s.base.get axis + 2) = true) →
        s.neighbors? = some s.neighbors) ∧
      ((∃ axis, Word.fitsSigned (s.base.get axis + 2) = false) → s.neighbors? = none) ∧
      s.neighbors.length = 27 ∧ (s.neighbors.map (·.coord)).Nodup ∧
      (∀ c, c ∈ s.neighbors.map (·.coord) ↔
        ∀ axis, s.base.get axis ≤ c.get axis ∧ c.get axis ≤ s.base.get axis + 2) ∧
      (∀ n ∈ s.neighbors, 0 ≤ n.weight ∧ n.offset = dx • Vec3.ofInt n.coord - p ∧
        ∀ axis, |n.offset.get axis| ≤ 3 / 2 * dx) ∧
      (s.neighbors.map (·.weight)).sum = 1 ∧
      (s.neighbors.map fun n => n.weight • n.offset).sum = 0 ∧
      (s.neighbors.map fun n => n.weight • Mat3.outer n.offset n.offset).sum =
        (dx * dx / 4) • (1 : Mat3 K) ∧
      dx * dx / 4 * inverseMoment dx = 1 ∧
      ∀ n : ℕ, (∀ axis, 0 ≤ p.get axis ∧ p.get axis < n * dx) →
        ∀ axis, -1 ≤ s.base.get axis ∧ s.base.get axis ≤ n - 1 := by
  intro s
  refine ⟨get_phase_mem p dx, fun hhigh => ?_, ?_, s.length_neighbors,
    s.nodup_map_coord_neighbors, s.mem_map_coord_neighbors_iff, fun n hn => ⟨?_, ?_, ?_⟩,
    sum_weight p dx, sum_weight_smul_offset p dx, sum_weight_smul_outer p dx,
    mul_inverseMoment hdx.ne', fun n hp axis => get_base_mem p hdx (hp axis)⟩
  · exact if_pos (s.fits_eq_true_iff.mpr fun axis => ⟨hbase axis, hhigh axis⟩)
  · rintro ⟨axis, hhigh⟩
    refine if_neg fun hfits => ?_
    exact Bool.false_ne_true (hhigh.symm.trans (s.fits_eq_true_iff.mp hfits axis).2)
  · exact weight_nonneg p dx hn
  · exact eq_sub_of_add_eq' (cellSize_smul_coord p hdx.ne' hn).symm
  · exact abs_get_offset_le p hdx hn

/-- The highest node has the greatest word for a coordinate, and the phase is at its lower end. -/
theorem moments_neighbors_at_last_word :
    let p : Vec3 ℚ := ⟨-1 / 16, 1 / 8, 1073741823 / 2⟩
    let s := around p (1 / 4)
    (0 : ℚ) < 1 / 4 ∧ (∀ axis, Word.fitsSigned (s.base.get axis) = true) ∧
      s.base = ⟨-1, 0, 2147483645⟩ ∧ s.neighbors? = some s.neighbors ∧
      (s.neighbors.map (·.coord)).Nodup ∧ ⟨1, 2, 2147483647⟩ ∈ s.neighbors.map (·.coord) ∧
      (s.neighbors.map (·.weight)).sum = 1 ∧
      (s.neighbors.map fun n => n.weight • n.offset).sum = 0 ∧
      (s.neighbors.map fun n => n.weight • Mat3.outer n.offset n.offset).sum =
        (1 / 4 * (1 / 4) / 4 : ℚ) • (1 : Mat3 ℚ) := by
  intro p s
  have hs : s.base = ⟨-1, 0, 2147483645⟩ := by decide +kernel
  have hbase : ∀ axis, Word.fitsSigned (s.base.get axis) = true := by
    rw [hs, Axis.forall_iff]
    decide
  obtain ⟨-, hlist, -, -, hnodup, hmem, -, hone, hzero, hsecond, -⟩ :=
    moments_neighbors p (by norm_num) hbase
  refine ⟨by norm_num, hbase, hs, hlist ?_, hnodup, (hmem _).mpr ?_, hone, hzero, hsecond⟩
  · rw [hs, Axis.forall_iff]
    decide
  · rw [hs, Axis.forall_iff]
    decide

theorem neighbors?_beyond_words :
    let s := around (⟨2147483648, 1 / 2, 1 / 2⟩ : Vec3 ℚ) 1
    (0 : ℚ) < 1 ∧ (∀ axis, Word.fitsSigned (s.base.get axis) = true) ∧
      s.base = ⟨2147483647, 0, 0⟩ ∧ s.neighbors? = none := by
  intro s
  have hs : s.base = ⟨2147483647, 0, 0⟩ := by decide +kernel
  refine ⟨one_pos, ?_, hs, if_neg ?_⟩
  · rw [hs, Axis.forall_iff]
    decide
  · rw [fits_eq_true_iff, hs, Axis.forall_iff]
    decide

end Stencil
end MaterialPoint
