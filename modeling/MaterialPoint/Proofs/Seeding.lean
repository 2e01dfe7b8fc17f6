import MaterialPoint.Proofs.Apportionment
import MaterialPoint.Proofs.Occupancy
import MaterialPoint.Mesh.Cuboid

/-! Seeding fills a budget with particles at rest, however the tasks of solids are scheduled. -/
namespace MaterialPoint
open scoped Exact

variable {K : Type} [Field K] [LinearOrder K] [IsStrictOrderedRing K] [FloorRing K]

namespace Random

theorem fraction_nonneg (w : UInt32) : (0 : K) ≤ fraction w :=
  div_nonneg (Nat.cast_nonneg _) (Nat.cast_nonneg _)

theorem fraction_lt_one (w : UInt32) : (fraction w : K) < 1 := by
  have hw : (w >>> 8).toNat < 0x1000000 := by
    have hlt := w.toNat_lt
    rw [UInt32.toNat_shiftRight, Nat.shiftRight_eq_div_pow]
    exact Nat.div_lt_of_lt_mul hlt
  change ((w >>> 8).toNat : K) / ((0x1000000 : ℕ) : K) < 1
  rw [div_lt_one (by norm_num)]
  exact Nat.cast_lt.mpr hw

end Random

namespace Generator

/-- Every number of a stream is at least zero and less than one. -/
def DrawsFractions (K : Type) [Field K] [LinearOrder K] [Generator K] : Prop :=
  ∀ seed i, (0 : K) ≤ draw seed i ∧ draw seed i < (1 : K)

theorem drawsFractions_generator : @DrawsFractions K _ _ Random.generator :=
  fun _ _ => ⟨Random.fraction_nonneg _, Random.fraction_lt_one _⟩

end Generator

structure Particle.IsAtRest (p : Particle K) (material : Material) : Prop where
  material_eq : p.material = material
  velocity_eq : p.velocity = 0
  affine_eq : p.affine = 0
  deformation_eq : p.deformation = 1
  plasticity_eq : p.plasticity = 1

/-- A point is in the cube of a cell, whose lower faces belong to it. -/
def Voxels.IsIn (v : Voxels K) (c : Cell) (p : Vec3 K) : Prop :=
  ((v.center c).x - 0.5 * v.cellSize ≤ p.x ∧ p.x < (v.center c).x + 0.5 * v.cellSize) ∧
    ((v.center c).y - 0.5 * v.cellSize ≤ p.y ∧ p.y < (v.center c).y + 0.5 * v.cellSize) ∧
    ((v.center c).z - 0.5 * v.cellSize ≤ p.z ∧ p.z < (v.center c).z + 0.5 * v.cellSize)

/-- The cells inside are filled alike, one more particle in each of the first, and cell by cell. -/
def Solid.IsFilledBy (s : Solid K) (count : ℕ) (ps : Population K) : Prop :=
  ∃ (cells : List Voxels.Cell) (tasks : List ℕ) (part : ℕ → Population K),
    (∀ c, c ∈ cells ↔ s.voxels.isOccupied c = true) ∧
    (cells.Pairwise fun c d =>
      Voxels.number s.voxels.resolution c < Voxels.number s.voxels.resolution d) ∧
    tasks.Perm (List.range cells.length) ∧ ps = tasks.flatMap part ∧
    ∀ i (hi : i < cells.length),
      (part i).length = count / cells.length + (if i < count % cells.length then 1 else 0) ∧
      ∀ p ∈ part i, p.IsAtRest s.material ∧ s.voxels.IsIn cells[i] p.position

def Region.IsFilledBy (r : Region K) (count : ℕ) (ps : Population K) : Prop :=
  ps.length = count ∧
    match r with
    | .block b => ∀ p ∈ ps, p.IsAtRest b.material ∧ b.contains p.position = true
    | .solid s => s.IsFilledBy count ps

theorem Block.size_pos_of_volume_pos {b : Block K} (h : 0 < b.volume) :
    0 < b.size.x ∧ 0 < b.size.y ∧ 0 < b.size.z := by
  change 0 < (if 0 < b.size.x then b.size.x else 0) * (if 0 < b.size.y then b.size.y else 0) *
    (if 0 < b.size.z then b.size.z else 0) at h
  split_ifs at h with hx hy hz hz hy hz hz
  · exact ⟨hx, hy, hz⟩
  all_goals simp at h

namespace Seeding

section Draws
variable [Generator K]

theorem isAtRest_drawParticle (stream : UInt64) (material : Material)
    (place : Vec3 K → Vec3 K) (i : ℕ) : (drawParticle stream material place i).IsAtRest material :=
  ⟨rfl, rfl, rfl, rfl, rfl⟩

variable (hdraws : Generator.DrawsFractions K)
include hdraws

theorem contains_drawParticle (stream : UInt64) {b : Block K} (h : 0 < b.volume) (i : ℕ) :
    b.contains (drawParticle stream b.material
      (fun t => b.lo + t.zipWith (· * ·) b.size) i).position = true := by
  have hin (i : ℕ) {lo size : K} (hs : 0 < size) :
      lo ≤ lo + Generator.draw stream i * size ∧
        lo + Generator.draw stream i * size ≤ lo + size := by
    obtain ⟨h0, h1⟩ := hdraws stream i
    constructor <;> nlinarith
  obtain ⟨hx, hy, hz⟩ := b.size_pos_of_volume_pos h
  simp only [Block.contains, Bool.and_eq_true, decide_eq_true_eq]
  exact ⟨⟨⟨⟨⟨(hin _ hx).1, (hin _ hy).1⟩, (hin _ hz).1⟩, (hin _ hx).2⟩, (hin _ hy).2⟩,
    (hin _ hz).2⟩

theorem isIn_drawParticle (stream : UInt64) {s : Solid K} (h : 0 < s.voxels.cellSize)
    (c : Voxels.Cell) (i : ℕ) :
    s.voxels.IsIn c (drawParticle stream s.material
      (fun t => s.voxels.center c + s.voxels.cellSize • (t - Vec3.splat 0.5)) i).position := by
  have hin (i : ℕ) (m : K) :
      m - 0.5 * s.voxels.cellSize ≤ m + (Generator.draw stream i - 0.5) * s.voxels.cellSize ∧
        m + (Generator.draw stream i - 0.5) * s.voxels.cellSize <
          m + 0.5 * s.voxels.cellSize := by
    obtain ⟨h0, h1⟩ := hdraws stream i
    constructor <;> nlinarith
  exact ⟨hin _ _, hin _ _, hin _ _⟩

theorem isFilledBy_sampleBlock (seed region : UInt64) {b : Block K} {count : ℕ}
    (h : count = 0 ∨ 0 < b.volume) :
    (Region.block b).IsFilledBy count (sampleBlock seed region b count) := by
  refine ⟨by rw [sampleBlock, List.length_map, List.length_range], fun p hp => ?_⟩
  obtain ⟨i, hi, rfl⟩ := List.mem_map.mp hp
  have hpos : 0 < b.volume := h.resolve_left fun h0 => by simp [h0] at hi
  exact ⟨isAtRest_drawParticle .., contains_drawParticle hdraws _ hpos i⟩

end Draws

section Parts
variable {R : Type} [Scalar R] [Generator R]

def cellPart (seed region : UInt64) (s : Solid R) (count i : ℕ) : Population R :=
  match s.voxels.occupiedCells[i]? with
  | some c =>
    sampleCell seed region (UInt64.ofNat i) s c (share count s.voxels.occupiedCells.length i)
  | none => []

theorem sampleSolidIn_eq_arrange (order : List ℕ) (seed region : UInt64) (s : Solid R)
    (count : ℕ) : sampleSolidIn order seed region s count =
      arrange (cellPart seed region s count)
        (claim (share count s.voxels.occupiedCells.length) 0 order) := by
  simp only [sampleSolidIn, List.getElem?_toArray, List.size_toArray]
  rfl

theorem exists_perm_sampleSolidIn (order : List ℕ) (seed region : UInt64) (s : Solid R)
    (count : ℕ) : ∃ tasks : List ℕ, tasks.Perm order ∧
      sampleSolidIn order seed region s count = tasks.flatMap (cellPart seed region s count) := by
  rw [sampleSolidIn_eq_arrange]
  exact exists_perm_arrange ..

variable {seed region : UInt64} {s : Solid R} {count : ℕ}

theorem cellPart_of_lt {i : ℕ} (hi : i < s.voxels.occupiedCells.length) :
    cellPart seed region s count i = sampleCell seed region (UInt64.ofNat i) s
      s.voxels.occupiedCells[i] (share count s.voxels.occupiedCells.length i) := by
  simp only [cellPart, List.getElem?_eq_getElem hi]

theorem length_cellPart {i : ℕ} (hi : i < s.voxels.occupiedCells.length) :
    (cellPart seed region s count i).length = share count s.voxels.occupiedCells.length i := by
  rw [cellPart_of_lt hi, sampleCell, List.length_map, List.length_range]

end Parts

section Whole
variable {R : Type} [Scalar R] [Scalar.DividesFairly R]

theorem occupiedCells_ne_nil_of_volume_pos {s : Solid R} (h : 0 < s.volume) :
    s.voxels.occupiedCells ≠ [] := by
  refine Voxels.occupiedCells_ne_nil (Nat.pos_of_ne_zero fun h0 => ?_)
  rw [Solid.volume, Voxels.volume, h0] at h
  exact Scalar.DividesFairly.not_pos_none_mul _ h

variable [Generator R]

/-- Without a volume there may be no cell to put particles in, but then there are none. -/
theorem sum_length_cellPart {seed region : UInt64} {s : Solid R} {count : ℕ}
    (h : count = 0 ∨ 0 < s.volume) :
    ((List.range s.voxels.occupiedCells.length).map fun i =>
      (cellPart seed region s count i).length).sum = count := by
  rw [List.map_congr_left fun i hi => length_cellPart (List.mem_range.mp hi)]
  rcases Nat.eq_zero_or_pos s.voxels.occupiedCells.length with hnone | hsome
  · rcases h with h0 | hv
    · rw [hnone, h0]
      rfl
    · exact absurd (List.length_eq_zero_iff.mp hnone) (occupiedCells_ne_nil_of_volume_pos hv)
  · exact sum_share hsome

theorem length_sampleSolidIn {order : List ℕ} (seed region : UInt64) {s : Solid R} {count : ℕ}
    (horder : order.Perm (List.range s.voxels.occupiedCells.length))
    (h : count = 0 ∨ 0 < s.volume) : (sampleSolidIn order seed region s count).length = count := by
  obtain ⟨tasks, htasks, hps⟩ := exists_perm_sampleSolidIn order seed region s count
  rw [hps, ((htasks.trans horder).flatMap_right _).length_eq, List.length_flatMap,
    sum_length_cellPart h]

theorem length_sampleRegionIn {order : ℕ → List ℕ} (seed region : UInt64) {r : Region R}
    {count : ℕ} (horder : ∀ cells, (order cells).Perm (List.range cells))
    (h : count = 0 ∨ 0 < r.volume) :
    (sampleRegionIn order seed region count r).length = count := by
  cases r with
  | block b => rw [sampleRegionIn, sampleBlock, List.length_map, List.length_range]
  | solid s => exact length_sampleSolidIn seed region (horder _) h

/-- Seeding that succeeds fills the budget, in any arithmetic that divides fairly. -/
theorem length_of_sample {schedule : Schedule} {regions : List (Region R)} {budget : ℕ}
    {seed : UInt64} {ps : Population R} (h : sample schedule regions budget seed = .ok ps) :
    ps.length = budget := by
  rw [sample] at h
  cases hsplit : Budget.split (regions.map Region.volume) budget with
  | error fault =>
    rw [hsplit] at h
    cases h
  | ok counts =>
    rw [hsplit] at h
    obtain rfl := Except.ok.inj h
    have hlength : counts.length = regions.length := by
      obtain ⟨-, -, rfl⟩ := Budget.split_eq_ok_iff.mp hsplit
      rw [Budget.length_parts, List.length_map]
    -- Each region gives as many particles as its count.
    refine List.length_flatten.trans ((congrArg List.sum ?_).trans (Budget.sum_of_split hsplit))
    refine List.ext_getElem (by simp [hlength]) fun i _ hi => ?_
    have hzip : i < (regions.zip counts).length := by
      rw [List.length_zip]
      omega
    have hmem : (regions[i], counts[i]) ∈ regions.zip counts := by
      rw [← List.getElem_zip]
      exact List.getElem_mem hzip
    rw [List.getElem_map, List.getElem_mapIdx, List.getElem_zip]
    exact length_sampleRegionIn seed _ (schedule.perm i)
      (Budget.eq_zero_or_pos_of_split hsplit hmem)

end Whole

section Filling
variable [Generator K] (hdraws : Generator.DrawsFractions K)
include hdraws

theorem isIn_of_mem_cellPart {seed region : UInt64} {s : Solid K} {count : ℕ}
    (h : count = 0 ∨ 0 < s.volume) {i : ℕ} (hi : i < s.voxels.occupiedCells.length) {p : Particle K}
    (hp : p ∈ cellPart seed region s count i) :
    p.IsAtRest s.material ∧ s.voxels.IsIn s.voxels.occupiedCells[i] p.position := by
  rw [cellPart_of_lt hi] at hp
  obtain ⟨j, hj, rfl⟩ := List.mem_map.mp hp
  have hv : 0 < s.volume := h.resolve_left fun h0 => by simp [h0, share] at hj
  exact ⟨isAtRest_drawParticle .., isIn_drawParticle hdraws _
    (s.occupiedCells_of_volume_pos hv).2 _ _⟩

theorem isFilledBy_sampleSolidIn {order : List ℕ} (seed region : UInt64) {s : Solid K} {count : ℕ}
    (hs : s.voxels.IsComplete) (horder : order.Perm (List.range s.voxels.occupiedCells.length))
    (h : count = 0 ∨ 0 < s.volume) :
    (Region.solid s).IsFilledBy count (sampleSolidIn order seed region s count) := by
  obtain ⟨tasks, htasks, hps⟩ := exists_perm_sampleSolidIn order seed region s count
  have hperm := htasks.trans horder
  constructor
  · exact length_sampleSolidIn seed region horder h
  · exact ⟨s.voxels.occupiedCells, tasks, cellPart seed region s count,
      s.voxels.mem_occupiedCells_iff hs, s.voxels.pairwise_occupiedCells, hperm, hps,
      fun i hi => ⟨length_cellPart hi, fun p hp => isIn_of_mem_cellPart hdraws h hi hp⟩⟩

theorem isFilledBy_sampleRegionIn {order : ℕ → List ℕ} (seed region : UInt64) {r : Region K}
    {count : ℕ} (hr : ∀ s, r = .solid s → s.voxels.IsComplete)
    (horder : ∀ cells, (order cells).Perm (List.range cells)) (h : count = 0 ∨ 0 < r.volume) :
    r.IsFilledBy count (sampleRegionIn order seed region count r) := by
  cases r with
  | block b => exact isFilledBy_sampleBlock hdraws seed region h
  | solid s => exact isFilledBy_sampleSolidIn hdraws seed region (hr s rfl) (horder _) h

omit hdraws [Generator K] in
theorem map_length_of_isFilledBy {l : List (Region K × ℕ)} {blocks : List (Population K)}
    (h : List.Forall₂ (fun rc block => rc.1.IsFilledBy rc.2 block) l blocks) :
    blocks.map List.length = l.map Prod.snd := by
  induction h with
  | nil => rfl
  | cons hb _ ih => rw [List.map_cons, List.map_cons, hb.1, ih]

theorem forall₂_isFilledBy (schedule : Schedule) {regions : List (Region K)}
    (hr : ∀ s, .solid s ∈ regions → s.voxels.IsComplete) (total : K) (budget : ℕ)
    (seed : UInt64) :
    let l := regions.zip (Budget.parts total budget 0 (regions.map Region.volume))
    List.Forall₂ (fun rc block => rc.1.IsFilledBy rc.2 block) l
      (l.mapIdx fun i (r, count) =>
        sampleRegionIn (schedule.order i) seed (UInt64.ofNat i) count r) := by
  intro l
  refine List.forall₂_iff_get.mpr ⟨List.length_mapIdx.symm, fun i hi _ => ?_⟩
  have hmem : l[i] ∈ l := List.getElem_mem hi
  rw [List.get_eq_getElem, List.get_eq_getElem, List.getElem_mapIdx]
  refine isFilledBy_sampleRegionIn hdraws seed _ ?_ (schedule.perm i) ?_
  · intro s hs
    exact hr s (hs ▸ (List.of_mem_zip hmem).1)
  · rcases le_or_gt l[i].1.volume 0 with hv | hv
    · exact .inl (Budget.eq_zero_of_mem_zip_parts hmem hv.not_gt)
    · exact .inr hv

omit hdraws in
theorem sample_of_nonpos (schedule : Schedule) {regions : List (Region K)}
    (h : ∀ r ∈ regions, r.volume ≤ 0) (budget : ℕ) (seed : UInt64) :
    sample schedule regions budget seed = .error (.degenerateScene 0) := by
  have hsplit : Budget.split (regions.map Region.volume) budget = .error (.degenerateScene 0) := by
    refine Budget.split_of_nonpos (fun v hv => ?_) budget
    obtain ⟨r, hmem, rfl⟩ := List.mem_map.mp hv
    exact h r hmem
  rw [sample, hsplit]
  rfl

omit hdraws in
theorem exists_sample_of_volume_pos (schedule : Schedule) {regions : List (Region K)}
    (h : ∃ r ∈ regions, 0 < r.volume) (budget : ℕ) (seed : UInt64) :
    ∃ ps, sample schedule regions budget seed = .ok ps := by
  obtain ⟨r, hmem, hpos⟩ := h
  rw [sample, Budget.split_of_pos ⟨_, List.mem_map_of_mem hmem, hpos⟩]
  exact ⟨_, rfl⟩

/-- A scene without volume is refused. Any other gets the particles that were asked for, region by
region. -/
theorem sample_cases (schedule : Schedule) {regions : List (Region K)}
    (hr : ∀ s, .solid s ∈ regions → s.voxels.IsComplete) (budget : ℕ) (seed : UInt64) :
    ((∀ r ∈ regions, r.volume ≤ 0) ∧
      sample schedule regions budget seed = .error (.degenerateScene 0)) ∨
    ∃ counts blocks, Budget.split (regions.map Region.volume) budget = .ok counts ∧
      counts.length = regions.length ∧
      sample schedule regions budget seed = .ok blocks.flatten ∧
      blocks.flatten.length = budget ∧
      List.Forall₂ (fun rc block => rc.1.IsFilledBy rc.2 block) (regions.zip counts) blocks := by
  by_cases hvolume : ∃ r ∈ regions, 0 < r.volume
  · right
    let total := Budget.total (regions.map Region.volume)
    have hpos : ∃ v ∈ regions.map Region.volume, 0 < v := by
      obtain ⟨r, hmem, h0⟩ := hvolume
      exact ⟨_, List.mem_map_of_mem hmem, h0⟩
    have hsplit := Budget.split_of_pos hpos budget
    have hlength : (Budget.parts total budget 0 (regions.map Region.volume)).length =
        regions.length := by
      rw [Budget.length_parts, List.length_map]
    have hsum : (Budget.parts total budget 0 (regions.map Region.volume)).sum = budget := by
      rw [← Nat.zero_add (List.sum _)]
      exact Budget.add_sum_parts (Nat.zero_le budget) hpos
    have hfilled := forall₂_isFilledBy hdraws schedule hr total budget seed
    refine ⟨_, _, hsplit, hlength, ?_, ?_, hfilled⟩
    · rw [sample, hsplit]
      rfl
    · rw [List.length_flatten, map_length_of_isFilledBy hfilled, List.map_snd_zip hlength.le, hsum]
  · left
    have hnone : ∀ r ∈ regions, r.volume ≤ 0 := by simpa using hvolume
    exact ⟨hnone, sample_of_nonpos schedule hnone budget seed⟩

end Filling

/-- Every solid has its tasks in the opposite order. -/
def Schedule.backwards : Schedule :=
  ⟨fun _ cells => (List.range cells).reverse, fun _ _ => List.reverse_perm _⟩

theorem sample_backwards :
    let regions : List (Region ℚ) := [.block ⟨0, Vec3.splat (1 / 2), .water⟩,
      .block ⟨0, ⟨1, -1, 1⟩, .snow⟩,
      .solid (Solid.ofMesh (Mesh.cuboid ⟨0, ⟨1, 3 / 4, 1⟩⟩ 0) .jelly 2 (1 / 2))]
    ∃ counts blocks, Budget.split (regions.map Region.volume) 10 = .ok counts ∧
      counts.length = regions.length ∧
      sample .backwards regions 10 7 = .ok blocks.flatten ∧
      blocks.flatten.length = 10 ∧
      List.Forall₂ (fun rc block => rc.1.IsFilledBy rc.2 block) (regions.zip counts) blocks := by
  intro regions
  have hr : ∀ s, .solid s ∈ regions → s.voxels.IsComplete := by
    intro s hs
    simp only [regions, List.mem_cons, List.not_mem_nil, reduceCtorEq, Region.solid.injEq,
      false_or, or_false] at hs
    rw [hs]
    exact Solid.isComplete_ofMesh ..
  have hdraws : Generator.DrawsFractions ℚ := Generator.drawsFractions_generator
  refine (sample_cases hdraws .backwards hr 10 7).resolve_left ?_
  rintro ⟨hnone, -⟩
  exact absurd (hnone _ List.mem_cons_self) (by decide +kernel)

end Seeding
end MaterialPoint
