import MaterialPoint.Proofs.Exact
import MaterialPoint.Region

/-! The cells of a block and their numbers. The listed cells are those found inside one by one. -/
namespace MaterialPoint
open scoped Exact

namespace Voxels

theorem mod_div_of_lt {n x : ℕ} (hx : x < n) (k : ℕ) :
    (x + n * k) % n = x ∧ (x + n * k) / n = k := by
  have hn : 0 < n := Nat.zero_lt_of_lt hx
  rw [Nat.add_mul_mod_self_left, Nat.mod_eq_of_lt hx, Nat.add_mul_div_left _ _ hn,
    Nat.div_eq_of_lt hx, zero_add]
  exact ⟨rfl, rfl⟩

/-- The number of a cell, with the first axis fastest. -/
def number (n : ℕ) (c : Cell) : ℕ := c.x + n * (c.y + n * c.z)

theorem number_cellAt (n i : ℕ) : number n (cellAt n i) = i := by
  rw [number, cellAt, ← Nat.div_div_eq_div_mul, Nat.mod_add_div, Nat.mod_add_div]

theorem cellAt_number {n : ℕ} {c : Cell} (hx : c.x < n) (hy : c.y < n) :
    cellAt n (number n c) = c := by
  obtain ⟨hxm, hxd⟩ := mod_div_of_lt hx (c.y + n * c.z)
  obtain ⟨hym, hyd⟩ := mod_div_of_lt hy c.z
  rw [cellAt, ← Nat.div_div_eq_div_mul, number, hxm, hxd, hym, hyd]

theorem cellAt_lt {n i : ℕ} (hi : i < n * n * n) :
    (cellAt n i).x < n ∧ (cellAt n i).y < n ∧ (cellAt n i).z < n := by
  have hn : 0 < n := Nat.pos_of_ne_zero fun h => by simp [h] at hi
  refine ⟨Nat.mod_lt _ hn, Nat.mod_lt _ hn, ?_⟩
  exact Nat.div_lt_of_lt_mul hi

variable {R : Type}

def IsComplete (v : Voxels R) : Prop :=
  v.occupied.size = v.resolution * v.resolution * v.resolution

theorem getElem?_setIfInBounds_eq_map {α : Type} (a : Array α) (i j : ℕ) (x : α) :
    (a.setIfInBounds i x)[j]? = a[j]?.map fun held => if j = i then x else held := by
  rw [Array.getElem?_setIfInBounds]
  by_cases hij : i = j
  · subst hij
    by_cases hi : i < a.size <;> simp [hi]
  · simp [hij, Ne.symm hij]

/-- The cells of a column hold what was written up to a height, and all others what they held. -/
theorem getElem?_writeUpTo {area column : ℕ} (hc : column < area) (inside : ℕ → Bool)
    (occupied : Array Bool) (height i : ℕ) :
    ((List.range height).foldl
      (fun a z => a.setIfInBounds (column + area * z) (inside z)) occupied)[i]? =
      occupied[i]?.map fun held =>
        if i % area = column ∧ i / area < height then inside (i / area) else held := by
  -- Only the last write is at this height, and what is below is left by the ones before it.
  induction height with
  | zero => simp
  | succ height ih =>
    rw [List.range_succ, List.foldl_append, List.foldl_cons, List.foldl_nil,
      getElem?_setIfInBounds_eq_map, ih, Option.map_map]
    refine congrArg (occupied[i]?.map ·) (funext fun held => ?_)
    have hi := Nat.mod_add_div i area
    obtain ⟨hmod, hdiv⟩ := mod_div_of_lt hc height
    by_cases hlast : i = column + area * height
    · simp [hlast, hmod, hdiv]
    · have hne : ¬(i % area = column ∧ i / area = height) := by
        rintro ⟨rfl, rfl⟩
        exact hlast hi.symm
      rw [Function.comp_apply, if_neg hlast]
      refine if_congr ?_ rfl rfl
      omega

theorem getElem?_writeColumn {n column : ℕ} (hc : column < n * n) (inside : ℕ → Bool)
    (occupied : Array Bool) (i : ℕ) :
    (writeColumn n column inside occupied)[i]? = occupied[i]?.map fun held =>
      if i % (n * n) = column ∧ i / (n * n) < n then inside (i / (n * n)) else held :=
  getElem?_writeUpTo hc inside occupied n i

/-- Column by column, every cell is written once. -/
theorem occupied_ofShadows_eq_ofFn [Scalar R] (shadows : List (Shadow R)) (n : ℕ) (dx : R)
    (origin : Vec3 R) : (ofShadows shadows n dx origin).occupied =
      Array.ofFn fun i : Fin (n * n * n) =>
        Shadow.countBelow
          (columnCrossings shadows dx origin (i % (n * n) % n) (i % (n * n) / n))
          (centerAlong dx origin.z (i / (n * n))) % 2 == 1 := by
  let inside (column z : ℕ) : Bool := Shadow.countBelow
    (columnCrossings shadows dx origin (column % n) (column / n)) (centerAlong dx origin.z z) % 2
      == 1
  have hcolumns (width : ℕ) (hwidth : width ≤ n * n) (occupied : Array Bool) (i : ℕ) :
      ((List.range width).foldl (fun a column => writeColumn n column (inside column) a)
        occupied)[i]? = occupied[i]?.map fun held =>
          if i % (n * n) < width ∧ i / (n * n) < n then inside (i % (n * n)) (i / (n * n))
          else held := by
    induction width with
    | zero => simp
    | succ width ih =>
      rw [List.range_succ, List.foldl_append, List.foldl_cons, List.foldl_nil,
        getElem?_writeColumn hwidth, ih (Nat.le_of_succ_le hwidth), Option.map_map]
      refine congrArg (occupied[i]?.map ·) (funext fun held => ?_)
      rw [Function.comp_apply]
      by_cases hlast : i % (n * n) = width
      · simp [hlast]
      · refine (if_neg fun h => hlast h.1).trans (if_congr ?_ rfl rfl)
        omega
  refine Array.ext_getElem? fun i => (hcolumns (n * n) le_rfl _ i).trans ?_
  rw [Array.getElem?_replicate, Array.getElem?_ofFn]
  by_cases hi : i < n * n * n
  · have harea : 0 < n * n := Nat.pos_of_ne_zero fun h => by simp [h] at hi
    rw [if_pos hi, dif_pos hi, Option.map_some,
      if_pos ⟨Nat.mod_lt i harea, Nat.div_lt_of_lt_mul hi⟩]
  · rw [if_neg hi, dif_neg hi, Option.map_none]

theorem isComplete_ofShadows [Scalar R] (shadows : List (Shadow R)) (resolution : ℕ) (cellSize : R)
    (origin : Vec3 R) : (ofShadows shadows resolution cellSize origin).IsComplete := by
  rw [IsComplete, occupied_ofShadows_eq_ofFn, Array.size_ofFn]
  rfl

variable {v : Voxels R}

theorem pairwise_occupiedCells (v : Voxels R) :
    v.occupiedCells.Pairwise fun c d => number v.resolution c < number v.resolution d := by
  rw [occupiedCells, List.pairwise_map]
  simp only [number_cellAt]
  exact List.pairwise_lt_range.filter _

theorem mem_occupiedCells_iff (h : v.IsComplete) (c : Cell) :
    c ∈ v.occupiedCells ↔ v.isOccupied c = true := by
  simp only [occupiedCells, List.mem_map, List.mem_filter, List.mem_range, isOccupied,
    Bool.and_eq_true, decide_eq_true_eq]
  constructor
  · rintro ⟨i, ⟨hi, ho⟩, rfl⟩
    rw [h] at hi
    obtain ⟨hx, hy, hz⟩ := cellAt_lt hi
    refine ⟨⟨⟨hx, hy⟩, hz⟩, ?_⟩
    rw [← number, number_cellAt]
    exact ho
  · rintro ⟨⟨⟨hx, hy⟩, -⟩, ho⟩
    refine ⟨number v.resolution c, ⟨?_, ho⟩, cellAt_number hx hy⟩
    by_contra hlt
    rw [← number, Array.getElem?_eq_none (Nat.le_of_not_lt hlt)] at ho
    cases ho

theorem getD_occupied (h : v.IsComplete) (i : ℕ) :
    v.occupied[i]?.getD false = v.isOccupied (cellAt v.resolution i) := by
  rw [Bool.eq_iff_iff]
  simp only [isOccupied, Bool.and_eq_true, decide_eq_true_eq]
  rw [← number, number_cellAt, iff_and_self]
  intro hi
  have hlt : i < v.occupied.size := by
    by_contra hge
    rw [Array.getElem?_eq_none (Nat.le_of_not_lt hge)] at hi
    cases hi
  obtain ⟨hx, hy, hz⟩ := cellAt_lt (hlt.trans_eq h)
  exact ⟨⟨hx, hy⟩, hz⟩

theorem eq_of_isOccupied {w : Voxels R} (hv : v.IsComplete) (hw : w.IsComplete)
    (hresolution : v.resolution = w.resolution) (hsize : v.cellSize = w.cellSize)
    (horigin : v.origin = w.origin) (h : ∀ c, v.isOccupied c = w.isOccupied c) : v = w := by
  have hoccupied : v.occupied = w.occupied := by
    refine Array.ext ((hv.trans (by rw [hresolution])).trans hw.symm) fun i hi hi' => ?_
    have hi₁ := getD_occupied hv i
    have hi₂ := getD_occupied hw i
    rw [Array.getElem?_eq_getElem hi, Option.getD_some] at hi₁
    rw [Array.getElem?_eq_getElem hi', Option.getD_some] at hi₂
    rw [hi₁, hi₂, hresolution, h]
  obtain ⟨resolution, cellSize, origin, occupied⟩ := v
  obtain rfl : resolution = w.resolution := hresolution
  obtain rfl : cellSize = w.cellSize := hsize
  obtain rfl : origin = w.origin := horigin
  obtain rfl : occupied = w.occupied := hoccupied
  rfl

theorem length_occupiedCells (v : Voxels R) : v.occupiedCells.length = v.count := by
  have hmap : (List.range v.occupied.size).map (fun i => v.occupied[i]?.getD false) =
      v.occupied.toList := by
    refine List.ext_getElem (by simp) fun i hi _ => ?_
    have hlt : i < v.occupied.size := by simpa using hi
    simp [hlt]
  rw [occupiedCells, List.length_map, ← List.countP_eq_length_filter, count, ← Array.count_toList,
    ← hmap, List.count, List.countP_map]
  exact List.countP_congr fun i _ => by simp

theorem occupiedCells_ne_nil (h : 0 < v.count) : v.occupiedCells ≠ [] :=
  List.ne_nil_of_length_pos (h.trans_eq v.length_occupiedCells.symm)

end Voxels

theorem Solid.isComplete_ofMesh {R : Type} [Scalar R] (mesh : Mesh R) (material : Material)
    (resolution : ℕ) (cellSize : R) :
    (Solid.ofMesh mesh material resolution cellSize).voxels.IsComplete :=
  Voxels.isComplete_ofShadows _ resolution cellSize 0

variable {K : Type} [Field K] [LinearOrder K] [IsStrictOrderedRing K] [FloorRing K]

/-- A solid with a volume has cells inside, and they have a size. -/
theorem Solid.occupiedCells_of_volume_pos {s : Solid K} (h : 0 < s.volume) :
    s.voxels.occupiedCells ≠ [] ∧ 0 < s.voxels.cellSize := by
  change (0 : K) < s.voxels.count * (s.voxels.cellSize * s.voxels.cellSize * s.voxels.cellSize) at h
  have hcount : 0 < s.voxels.count := by
    refine Nat.pos_of_ne_zero fun h0 => ?_
    rw [h0, Nat.cast_zero, zero_mul] at h
    exact lt_irrefl _ h
  refine ⟨Voxels.occupiedCells_ne_nil hcount, ?_⟩
  have hcube : 0 < s.voxels.cellSize * s.voxels.cellSize * s.voxels.cellSize :=
    pos_of_mul_pos_right h (Nat.cast_nonneg _)
  by_contra hle
  have hle := not_lt.mp hle
  exact absurd hcube (not_lt.mpr (mul_nonpos_of_nonneg_of_nonpos (mul_self_nonneg _) hle))

end MaterialPoint
