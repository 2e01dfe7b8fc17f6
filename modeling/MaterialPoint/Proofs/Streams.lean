import MaterialPoint.Proofs.Schedules

/-! Every generator of a scene has a seed of its own, as mixing loses nothing. -/
namespace MaterialPoint

namespace Random

theorem mul_word_injective {k : UInt64} (inverse : UInt64) (h : k * inverse = 1) :
    Function.Injective (· * k) :=
  (IsUnit.of_mul_eq_one inverse h).mul_left_injective

/-- A word is not moved upwards by a shift downwards, so folding it onto itself loses nothing. -/
theorem fold_injective : Function.Injective fun x : UInt64 => x ^^^ (x >>> 31) := by
  intro x y h
  -- The difference of the two words is its own shift.
  have hshift : x ^^^ y = (x ^^^ y) >>> 31 := by
    rw [UInt64.shiftRight_xor, ← UInt64.xor_eq_zero_iff]
    have hxy : (x ^^^ x >>> 31) ^^^ (y ^^^ y >>> 31) = 0 := UInt64.xor_eq_zero_iff.mpr h
    rw [← hxy]
    ac_rfl
  have hzero : x ^^^ y = 0 := by
    have hnat := congrArg UInt64.toNat hshift
    rw [UInt64.toNat_shiftRight, Nat.shiftRight_eq_div_pow] at hnat
    change _ = _ / 2 ^ 31 at hnat
    refine UInt64.toNat_inj.mp ?_
    change _ = 0
    omega
  exact UInt64.xor_eq_zero_iff.mp hzero

/-- What mixing does once its three numbers are brought together. -/
def scramble (x : UInt64) : UInt64 := (x ^^^ (x >>> 31)) * 0x94d049bb133111eb

theorem scramble_injective : Function.Injective scramble :=
  (mul_word_injective 0x319642b2d24d8ec3 (by decide)).comp fold_injective

theorem mixSeed_injective_stream (seed region : UInt64) :
    Function.Injective (mixSeed seed region) := by
  intro stream stream' h
  have hmixed := (UInt64.xor_right_inj _).mp (scramble_injective h)
  exact mul_word_injective 0x96de1b173f119089 (by decide) hmixed

theorem mixSeed_injective_region (seed stream : UInt64) :
    Function.Injective fun region => mixSeed seed region stream := by
  intro region region' h
  have hmixed := (UInt64.xor_right_inj _).mp ((UInt64.xor_left_inj _).mp (scramble_injective h))
  exact mul_word_injective 0xf1de83e19937733d (by decide) hmixed

theorem mixSeed_injective_seed (region stream : UInt64) :
    Function.Injective fun seed => mixSeed seed region stream := fun _ _ h =>
  (UInt64.xor_left_inj _).mp ((UInt64.xor_left_inj _).mp (scramble_injective h))

end Random

variable {R : Type} [Scalar R]

def Population.IsDrawnFrom [Generator R] (ps : Population R) (generator : UInt64) : Prop :=
  ∃ material place,
    ps = (List.range ps.length).map (Seeding.drawParticle generator material place)

/-- A solid that can be made has no more cells than there are words. -/
theorem Solid.length_occupiedCells_lt {mesh : Mesh R} {material : Material} {resolution : ℕ}
    {cellSize : R} {s : Solid R} (hs : ofMesh? mesh material resolution cellSize = some s) :
    s.voxels.occupiedCells.length < 2 ^ 64 := by
  rw [ofMesh?, Option.ite_none_right_eq_some] at hs
  obtain ⟨hfits, hs⟩ := hs
  obtain rfl := Option.some.inj hs
  simp only [Voxels.fits, Word.fits64, decide_eq_true_eq] at hfits
  rw [Voxels.length_occupiedCells]
  calc (ofMesh mesh material resolution cellSize).voxels.count
    _ ≤ (ofMesh mesh material resolution cellSize).voxels.occupied.size := Array.count_le_size
    _ = resolution * resolution * resolution := isComplete_ofMesh mesh material resolution cellSize
    _ < 2 ^ 64 := hfits

namespace Seeding

/-- The seed of the generator of a block. -/
def blockSeed (seed region : UInt64) : UInt64 := Random.mixSeed seed region blockStream

/-- The seed of the generator of the cell with a number. -/
def cellSeed (seed region : UInt64) (i : ℕ) : UInt64 :=
  Random.mixSeed seed region (UInt64.ofNat i)

theorem cellSeed_inj {seed region : UInt64} {i j : ℕ} (hi : i < 2 ^ 64) (hj : j < 2 ^ 64)
    (h : cellSeed seed region i = cellSeed seed region j) : i = j := by
  have hstream := congrArg UInt64.toNat (Random.mixSeed_injective_stream seed region h)
  rwa [UInt64.toNat_ofNat_of_lt' hi, UInt64.toNat_ofNat_of_lt' hj] at hstream

theorem cellSeed_ne_blockSeed (seed region : UInt64) {i : ℕ} (hi : i + 1 < 2 ^ 64) :
    cellSeed seed region i ≠ blockSeed seed region := by
  intro h
  have hlt : i < 2 ^ 64 := by omega
  have hstream := congrArg UInt64.toNat (Random.mixSeed_injective_stream seed region h)
  rw [UInt64.toNat_ofNat_of_lt' hlt] at hstream
  change i = 2 ^ 64 - 1 at hstream
  omega

variable [Generator R]

theorem isDrawnFrom_sampleBlock (seed region : UInt64) (b : Block R) (count : ℕ) :
    (sampleBlock seed region b count).IsDrawnFrom (blockSeed seed region) := by
  refine ⟨b.material, fun t => b.lo + t.zipWith (· * ·) b.size, ?_⟩
  rw [sampleBlock, List.length_map, List.length_range]
  rfl

theorem isDrawnFrom_cellPart (seed region : UInt64) (s : Solid R) (count : ℕ) {i : ℕ}
    (hi : i < s.voxels.occupiedCells.length) :
    (cellPart seed region s count i).IsDrawnFrom (cellSeed seed region i) := by
  refine ⟨s.material, fun t => s.voxels.center s.voxels.occupiedCells[i] +
    s.voxels.cellSize • (t - Vec3.splat 0.5), ?_⟩
  rw [length_cellPart hi, cellPart_of_lt hi]
  rfl

/-- Mixing is one to one in each of its numbers, so generators of one region have different
seeds. -/
theorem generators_differ {mesh : Mesh R} {material : Material} {resolution : ℕ} {cellSize : R}
    {s : Solid R} (hs : Solid.ofMesh? mesh material resolution cellSize = some s) :
    let cells := s.voxels.occupiedCells.length
    (∀ seed region, Function.Injective fun stream => Random.mixSeed seed region stream) ∧
      (∀ seed stream, Function.Injective fun region => Random.mixSeed seed region stream) ∧
      (∀ region stream, Function.Injective fun seed => Random.mixSeed seed region stream) ∧
      (∀ seed region (b : Block R) count,
        (sampleBlock seed region b count).IsDrawnFrom (blockSeed seed region)) ∧
      (∀ seed region count,
        (∀ order : List ℕ, order.Perm (List.range cells) →
          sampleSolidIn order seed region s count = order.flatMap (cellPart seed region s count)) ∧
        ∀ i < cells, (cellPart seed region s count i).IsDrawnFrom (cellSeed seed region i)) ∧
      (∀ seed region,
        (∀ i < cells, ∀ j < cells, i ≠ j → cellSeed seed region i ≠ cellSeed seed region j) ∧
        ∀ i < cells, cellSeed seed region i ≠ blockSeed seed region) ∧
      ∀ seed seed' region, seed ≠ seed' →
        blockSeed seed region ≠ blockSeed seed' region ∧
        ∀ i < cells, cellSeed seed region i ≠ cellSeed seed' region i := by
  intro cells
  have hcells : cells < 2 ^ 64 := Solid.length_occupiedCells_lt hs
  refine ⟨Random.mixSeed_injective_stream, Random.mixSeed_injective_region,
    Random.mixSeed_injective_seed, isDrawnFrom_sampleBlock, fun seed region count => ⟨?_, ?_⟩,
    fun seed region => ⟨?_, ?_⟩, fun seed seed' region hne => ⟨?_, ?_⟩⟩
  · intro order horder
    rw [sampleSolidIn_eq_arrange]
    exact arrange_claim fun i hi =>
      length_cellPart (List.mem_range.mp (horder.mem_iff.mp hi))
  · exact fun i hi => isDrawnFrom_cellPart seed region s count hi
  · exact fun i hi j hj hij h => hij (cellSeed_inj (hi.trans hcells) (hj.trans hcells) h)
  · exact fun i hi => cellSeed_ne_blockSeed seed region (by omega)
  · exact fun h => hne (Random.mixSeed_injective_seed region _ h)
  · exact fun i _ h => hne (Random.mixSeed_injective_seed region _ h)

open scoped Exact in
/-- A box that has eight cells, under the seeds seven and eight of a scene. -/
theorem generators_differ_in_box :
    let s : Solid ℚ := Solid.ofMesh (Mesh.cuboid ⟨0, ⟨1, 3 / 4, 1⟩⟩ 0) .jelly 2 (1 / 2)
    Solid.ofMesh? (Mesh.cuboid ⟨0, ⟨1, 3 / 4, 1⟩⟩ 0) .jelly 2 (1 / 2) = some s ∧
      s.voxels.occupiedCells.length = 8 ∧
      (cellPart 7 2 s 20 5).IsDrawnFrom (cellSeed 7 2 5) ∧
      cellSeed 7 2 5 = 0x5625d68e6f7ac232 ∧
      ((List.range 8).map (cellSeed 7 2)).Nodup ∧
      (∀ i < 8, cellSeed 7 2 i ≠ blockSeed 7 2) ∧
      blockSeed 7 2 ≠ blockSeed 8 2 ∧ ∀ i < 8, cellSeed 7 2 i ≠ cellSeed 8 2 i := by
  intro s
  have hs : Solid.ofMesh? (Mesh.cuboid ⟨0, ⟨1, 3 / 4, 1⟩⟩ 0) .jelly 2 (1 / 2) = some s := rfl
  have hcells : s.voxels.occupiedCells.length = 8 := by decide +kernel
  obtain ⟨-, -, -, -, hdrawn, hdiffer, hother⟩ := generators_differ hs
  simp only [hcells] at hdrawn hdiffer hother
  obtain ⟨hcell, hblock⟩ := hdiffer 7 2
  obtain ⟨hblock', hcell'⟩ := hother 7 8 2 (by decide)
  refine ⟨hs, hcells, (hdrawn 7 2 20).2 5 (by decide), by decide, ?_, hblock, hblock', hcell'⟩
  refine List.nodup_range.map_on fun i hi j hj h => ?_
  by_contra hij
  exact hcell i (List.mem_range.mp hi) j (List.mem_range.mp hj) hij h

end Seeding
end MaterialPoint
