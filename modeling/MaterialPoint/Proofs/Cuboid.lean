import MaterialPoint.Proofs.Exact
import MaterialPoint.Mesh.Cuboid

/-! The triangles of closed boxes, by side, row and column. -/
namespace MaterialPoint

theorem getElem?_flatMap_of_length {α β : Type} {f : α → List β} {n : ℕ}
    (hf : ∀ a, (f a).length = n) (l : List α) (i : ℕ) {j : ℕ} (hj : j < n) :
    (l.flatMap f)[i * n + j]? = l[i]?.bind fun a => (f a)[j]? := by
  induction l generalizing i with
  | nil => rfl
  | cons a l ih =>
    rw [List.flatMap_cons]
    cases i with
    | zero =>
      rw [Nat.zero_mul, Nat.zero_add, List.getElem?_append_left (hj.trans_eq (hf a).symm)]
      rfl
    | succ i =>
      have hle : (f a).length ≤ (i + 1) * n + j := by
        rw [hf a, Nat.succ_mul]
        omega
      have hsub : (i + 1) * n + j - (f a).length = i * n + j := by
        rw [hf a, Nat.succ_mul]
        omega
      rw [List.getElem?_append_right hle, hsub, ih i]
      rfl

namespace Cuboid

theorem getElem?_cells {n i j : ℕ} (hi : i < n) (hj : j < n) :
    (cells n)[j * n + i]? = some (i, j) := by
  rw [cells, getElem?_flatMap_of_length (by simp) _ _ hi, List.getElem?_range hj]
  simp [hi]

theorem mem_cells_iff {n i j : ℕ} : (i, j) ∈ cells n ↔ i < n ∧ j < n := by
  simp [cells, and_comm]

theorem length_cells (n : ℕ) : (cells n).length = n * n := by
  simp [cells, List.length_flatMap]

variable {R : Type} [Scalar R]

def squareTriangles (b : Bounds R) (steps : ℕ) (side : Side) (i j : ℕ) : List (Triangle R) :=
  let v := vertex b steps side
  if side.isHigh then
    [⟨v i j, v (i + 1) j, v (i + 1) (j + 1)⟩, ⟨v i j, v (i + 1) (j + 1), v i (j + 1)⟩]
  else [⟨v i j, v i (j + 1), v (i + 1) (j + 1)⟩, ⟨v i j, v (i + 1) (j + 1), v (i + 1) j⟩]

def sideTriangles (b : Bounds R) (steps : ℕ) (side : Side) : List (Triangle R) :=
  (cells steps).flatMap fun (i, j) => squareTriangles b steps side i j

theorem length_sideVertices (b : Bounds R) (steps : ℕ) (side : Side) :
    (sideVertices b steps side).length = (steps + 1) * (steps + 1) := by
  rw [sideVertices, List.length_map, length_cells]

/-- A vertex is found by the number of its side, its row and its column. -/
theorem getElem?_vertices (b : Bounds R) (steps : ℕ) {k : ℕ} {side : Side}
    (hk : sides[k]? = some side) {i j : ℕ} (hi : i ≤ steps) (hj : j ≤ steps) :
    (sides.flatMap (sideVertices b steps)).toArray[
        k * ((steps + 1) * (steps + 1)) + j * (steps + 1) + i]? =
      some (vertex b steps side i j) := by
  have hlt : j * (steps + 1) + i < (steps + 1) * (steps + 1) := by nlinarith
  rw [List.getElem?_toArray, Nat.add_assoc,
    getElem?_flatMap_of_length (length_sideVertices b steps) _ _ hlt, hk, Option.bind_some,
    sideVertices, List.getElem?_map,
    getElem?_cells (Nat.lt_succ_of_le hi) (Nat.lt_succ_of_le hj)]
  rfl

theorem filterMap_squareFaces (b : Bounds R) (steps : ℕ) {k : ℕ} {side : Side}
    (hk : sides[k]? = some side) {i j : ℕ} (hi : i < steps) (hj : j < steps) :
    (squareFaces (k * ((steps + 1) * (steps + 1))) steps side i j).filterMap
        (Mesh.triangle? (sides.flatMap (sideVertices b steps)).toArray) =
      squareTriangles b steps side i j := by
  have h00 := getElem?_vertices b steps hk hi.le hj.le
  have h10 := getElem?_vertices b steps hk (Nat.succ_le_of_lt hi) hj.le
  have h01 := getElem?_vertices b steps hk hi.le (Nat.succ_le_of_lt hj)
  have h11 := getElem?_vertices b steps hk (Nat.succ_le_of_lt hi) (Nat.succ_le_of_lt hj)
  have e01 : k * ((steps + 1) * (steps + 1)) + (j + 1) * (steps + 1) + i =
      k * ((steps + 1) * (steps + 1)) + j * (steps + 1) + i + (steps + 1) := by ring
  have e11 : k * ((steps + 1) * (steps + 1)) + (j + 1) * (steps + 1) + (i + 1) =
      k * ((steps + 1) * (steps + 1)) + j * (steps + 1) + i + (steps + 1) + 1 := by ring
  rw [Nat.succ_eq_add_one, e01] at h01
  rw [Nat.succ_eq_add_one, Nat.succ_eq_add_one, e11] at h11
  rw [Nat.succ_eq_add_one, ← Nat.add_assoc] at h10
  cases hside : side.isHigh <;>
    simp [squareFaces, squareTriangles, hside, Mesh.triangle?, h00, h10, h01, h11]

end Cuboid

open Cuboid

/-- The triangles of a box are those of the squares of its six sides. -/
theorem Mesh.triangles_cuboid {R : Type} [Scalar R] (b : Bounds R) (subdivisions : ℕ) :
    (cuboid b subdivisions).triangles = sides.flatMap (sideTriangles b (max subdivisions 1)) := by
  have hside : ∀ a ∈ sides.zipIdx,
      (sideFaces (max subdivisions 1) a.2 a.1).filterMap
          (triangle? (cuboid b subdivisions).vertices) =
        sideTriangles b (max subdivisions 1) a.1 := by
    intro a ha
    rw [sideFaces, List.filterMap_flatMap]
    refine List.flatMap_congr fun ⟨i, j⟩ hc => ?_
    obtain ⟨hi, hj⟩ := mem_cells_iff.mp hc
    exact filterMap_squareFaces b _ (List.mem_zipIdx_iff_getElem?.mp ha) hi hj
  calc (cuboid b subdivisions).triangles
      = (sides.zipIdx.flatMap fun a => sideFaces (max subdivisions 1) a.2 a.1).filterMap
          (triangle? (cuboid b subdivisions).vertices) := by
        rw [triangles, cuboid, List.mapIdx_eq_zipIdx_map]
        rfl
    _ = sides.zipIdx.flatMap fun a => sideTriangles b (max subdivisions 1) a.1 := by
        rw [List.filterMap_flatMap]
        exact List.flatMap_congr hside
    _ = sides.flatMap (sideTriangles b (max subdivisions 1)) := by
        rw [← List.flatMap_map, List.zipIdx_map_fst]

end MaterialPoint
