import MaterialPoint.Proofs.Cuboid
import MaterialPoint.Proofs.Watertight
import MaterialPoint.Mesh.Placement

/-! Faces name vertices that exist: every way to make a mesh checks or counts out their numbers. -/
namespace MaterialPoint

namespace Mesh
section Import
variable {R : Type}

theorem mem_of_cut? {polygon : List ℕ} {cut : List Face} (h : cut? polygon = some cut) {f : Face}
    (hf : f ∈ cut) {i : ℕ} (hi : i ∈ f.corners) : i ∈ polygon := by
  match polygon, h with
  | [a, b, c], h =>
    obtain rfl : [⟨a, b, c⟩] = cut := by simpa [cut?] using h
    obtain rfl := List.mem_singleton.mp hf
    exact hi
  | [a, b, c, d], h =>
    obtain rfl : [⟨a, b, c⟩, ⟨a, c, d⟩] = cut := by simpa [cut?] using h
    have hcorners : f.corners = [a, b, c] ∨ f.corners = [a, c, d] := by
      rcases List.mem_pair.mp hf with rfl | rfl
      · exact .inl rfl
      · exact .inr rfl
    rcases hcorners with h | h
    · rw [h] at hi
      exact List.mem_of_mem_take (i := 3) hi
    · rw [h] at hi
      simp only [List.mem_cons, List.not_mem_nil, or_false] at hi ⊢
      tauto

theorem lt_of_cutAll {vertices face : ℕ} {polygons : List (List ℕ)} {faces : List Face}
    (h : cutAll (R := R) vertices face polygons = .ok faces) {f : Face} (hf : f ∈ faces) {i : ℕ}
    (hi : i ∈ f.corners) : i < vertices := by
  induction polygons generalizing face faces with
  | nil =>
    obtain rfl : [] = faces := Except.ok.inj h
    cases hf
  | cons polygon polygons ih =>
    rw [cutAll] at h
    cases hcheck : checkIndices (R := R) vertices polygon with
    | error fault =>
      rw [hcheck] at h
      cases h
    | ok =>
      cases hcut : cut? polygon with
      | none =>
        rw [hcheck, hcut] at h
        cases h
      | some cut =>
        cases hrest : cutAll (R := R) vertices (face + 1) polygons with
        | error fault =>
          rw [hcheck, hcut, hrest] at h
          cases h
        | ok rest =>
          rw [hcheck, hcut, hrest] at h
          obtain rfl : cut ++ rest = faces := Except.ok.inj h
          rcases List.mem_append.mp hf with hf | hf
          · exact checkIndices_eq_ok_iff.mp hcheck i (mem_of_cut? hcut hf hi)
          · exact ih hrest hf

theorem ofFaces_eq_map (vertices : Array (Vec3 R)) (faces : List Face) :
    ofFaces vertices faces = (checkIndices vertices.size (faces.flatMap Face.corners)).map
      fun _ => ⟨vertices, none, faces⟩ := by
  rw [ofFaces]
  cases checkIndices (R := R) vertices.size (faces.flatMap Face.corners) <;> rfl

theorem wellIndexed_of_ofFaces {vertices : Array (Vec3 R)} {faces : List Face} {m : Mesh R}
    (h : ofFaces vertices faces = .ok m) : m.WellIndexed := by
  rw [ofFaces_eq_map] at h
  cases hcheck : checkIndices (R := R) vertices.size (faces.flatMap Face.corners) with
  | error fault =>
    rw [hcheck] at h
    cases h
  | ok =>
    rw [hcheck] at h
    obtain rfl : ⟨vertices, none, faces⟩ = m := Except.ok.inj h
    intro f hf i hi
    exact checkIndices_eq_ok_iff.mp hcheck i (List.mem_flatMap.mpr ⟨f, hf, hi⟩)

theorem wellIndexed_of_ofPolygons {vertices : Array (Vec3 R)} {normals : Option (Array (Vec3 R))}
    {polygons : List (List ℕ)} {m : Mesh R} (h : ofPolygons vertices normals polygons = .ok m) :
    m.WellIndexed := by
  cases hcut : cutAll (R := R) vertices.size 0 polygons with
  | error fault =>
    rw [ofPolygons, hcut] at h
    cases h
  | ok faces =>
    rw [ofPolygons, hcut] at h
    obtain rfl : ⟨vertices, normals.filter (·.size == vertices.size), faces⟩ = m :=
      Except.ok.inj h
    exact fun f hf i hi => lt_of_cutAll hcut hf hi

end Import
end Mesh

namespace Cuboid

/-- The corners of the squares of a side are vertices of that side. -/
theorem lt_of_mem_squareFaces {base steps i j : ℕ} {side : Side} (hi : i < steps) (hj : j < steps)
    {f : Face} (hf : f ∈ squareFaces base steps side i j) {v : ℕ} (hv : v ∈ f.corners) :
    v < base + (steps + 1) * (steps + 1) := by
  have hfar : j * (steps + 1) + i + (steps + 1) + 1 < (steps + 1) * (steps + 1) := by nlinarith
  -- Of the corners of a square, the last is the one that is in the next row and column.
  have hle : v ≤ base + j * (steps + 1) + i + (steps + 1) + 1 := by
    unfold squareFaces at hf
    split_ifs at hf
    · rcases List.mem_pair.mp hf with rfl | rfl
      · simp only [Face.corners, List.mem_cons, List.not_mem_nil, or_false] at hv
        omega
      · simp only [Face.corners, List.mem_cons, List.not_mem_nil, or_false] at hv
        omega
    · rcases List.mem_pair.mp hf with rfl | rfl
      · simp only [Face.corners, List.mem_cons, List.not_mem_nil, or_false] at hv
        omega
      · simp only [Face.corners, List.mem_cons, List.not_mem_nil, or_false] at hv
        omega
  omega

theorem length_vertices {R : Type} [Scalar R] (b : Bounds R) (steps : ℕ) :
    (sides.flatMap (sideVertices b steps)).length = 6 * ((steps + 1) * (steps + 1)) := by
  simp [length_sideVertices, sides, Axis.all]
  omega

end Cuboid

namespace Mesh
variable {R : Type} [Scalar R]

theorem size_vertices_cuboid (b : Bounds R) (subdivisions : ℕ) :
    (cuboid b subdivisions).vertices.size =
      6 * ((max subdivisions 1 + 1) * (max subdivisions 1 + 1)) := by
  rw [cuboid, List.size_toArray, Cuboid.length_vertices]

theorem wellIndexed_cuboid (b : Bounds R) (subdivisions : ℕ) :
    (cuboid b subdivisions).WellIndexed := by
  intro f hf v hv
  obtain ⟨l, hl, hf⟩ := List.mem_flatten.mp hf
  obtain ⟨k, hk, rfl⟩ := List.mem_mapIdx.mp hl
  obtain ⟨⟨i, j⟩, hc, hf⟩ := List.mem_flatMap.mp hf
  obtain ⟨hi, hj⟩ := Cuboid.mem_cells_iff.mp hc
  have hside : k < 6 := hk
  have hlt := Cuboid.lt_of_mem_squareFaces hi hj hf hv
  rw [size_vertices_cuboid]
  nlinarith

theorem cuboid?_eq_some (b : Bounds R) {subdivisions : ℕ}
    (h : 6 * (max subdivisions 1 + 1) ^ 2 ≤ 2 ^ 32) :
    cuboid? b subdivisions = some (cuboid b subdivisions) ∧
      ∀ f ∈ (cuboid b subdivisions).faces, ∀ i ∈ f.corners, Word.fits32 i = true := by
  constructor
  · have hle : (subdivisions + 1) ^ 2 ≤ (max subdivisions 1 + 1) ^ 2 :=
      Nat.pow_le_pow_left (Nat.succ_le_succ (Nat.le_max_left _ _)) 2
    refine if_pos (decide_eq_true ?_)
    rw [← Nat.pow_two]
    omega
  · intro f hf i hi
    have hlt := wellIndexed_cuboid b subdivisions f hf i hi
    rw [size_vertices_cuboid, ← Nat.pow_two] at hlt
    exact decide_eq_true (by omega)

variable {m : Mesh R}

theorem WellIndexed.transform (h : m.WellIndexed) (scale : R) (offset : Vec3 R) :
    (m.transform scale offset).WellIndexed := by
  intro f hf i hi
  rw [Mesh.transform, Array.size_map]
  exact h f hf i hi

theorem WellIndexed.fit (h : m.WellIndexed) (origin : Vec3 R) (size : R) :
    (m.fit origin size).WellIndexed := by
  unfold Mesh.fit
  split
  next => exact h
  next b _ =>
    dsimp only
    split_ifs
    · exact h.transform 1 (origin - b.lo)
    · exact h.transform _ _

theorem WellIndexed.map_triangle? (h : m.WellIndexed) :
    m.faces.map (triangle? m.vertices) = m.triangles.map some := by
  rw [triangles, List.map_filterMap_some_eq_filter_map_isSome]
  refine (List.filter_eq_self.mpr fun t? ht? => ?_).symm
  obtain ⟨f, hf, rfl⟩ := List.mem_map.mp ht?
  obtain ⟨t, ht, -⟩ := Voxels.exists_triangle?_of_corners (h f hf)
  exact Option.isSome_of_eq_some ht

/-- The meshes that can be made from faces, polygons or boxes, moved and scaled as often as one
likes. -/
inductive IsBuilt : Mesh R → Prop
  | ofFaces {vertices : Array (Vec3 R)} {faces : List Face} {m : Mesh R}
      (h : Mesh.ofFaces vertices faces = .ok m) : IsBuilt m
  | ofPolygons {vertices : Array (Vec3 R)} {normals : Option (Array (Vec3 R))}
      {polygons : List (List ℕ)} {m : Mesh R}
      (h : Mesh.ofPolygons vertices normals polygons = .ok m) :
      IsBuilt m
  | cuboid (b : Bounds R) {subdivisions : ℕ} (h : 6 * (max subdivisions 1 + 1) ^ 2 ≤ 2 ^ 32) :
      IsBuilt (Mesh.cuboid b subdivisions)
  | transform {m : Mesh R} (h : IsBuilt m) (scale : R) (offset : Vec3 R) :
      IsBuilt (m.transform scale offset)
  | fit {m : Mesh R} (h : IsBuilt m) (origin : Vec3 R) (size : R) : IsBuilt (m.fit origin size)

theorem IsBuilt.wellIndexed (h : m.IsBuilt) : m.WellIndexed := by
  induction h with
  | ofFaces h => exact wellIndexed_of_ofFaces h
  | ofPolygons h => exact wellIndexed_of_ofPolygons h
  | cuboid b _ => exact wellIndexed_cuboid b _
  | transform _ scale offset ih => exact ih.transform scale offset
  | fit _ origin size ih => exact ih.fit origin size

end Mesh

namespace Voxels
variable {R : Type} [Scalar R]

/-- To look for the cells inside faces is to make a mesh of the faces and to look for its cells. -/
theorem ofFaces_eq_map_ofMesh (vertices : Array (Vec3 R)) (faces : List Face) (n : ℕ) (dx : R)
    (origin : Vec3 R) : ofFaces vertices faces n dx origin =
      (Mesh.ofFaces vertices faces).map (ofMesh · n dx origin) := by
  rw [ofFaces, mapM_shadow, Mesh.ofFaces_eq_map]
  cases Mesh.checkIndices (R := R) vertices.size (faces.flatMap Face.corners) <;> rfl

theorem ofFaces?_eq_map_ofMesh? (vertices : Array (Vec3 R)) (faces : List Face) (n : ℕ) (dx : R)
    (origin : Vec3 R) : ofFaces? vertices faces n dx origin =
      match Mesh.ofFaces vertices faces with
      | .error fault => some (.error fault)
      | .ok m => (ofMesh? m n dx origin).map .ok := by
  rw [ofFaces?, ofFaces_eq_map_ofMesh, mapM_shadow, Mesh.ofFaces_eq_map]
  cases Mesh.checkIndices (R := R) vertices.size (faces.flatMap Face.corners) with
  | error fault => rfl
  | ok =>
    dsimp only [Except.map, ofMesh?]
    split_ifs <;> rfl

theorem ofFaces_eq_error_iff {vertices : Array (Vec3 R)} {faces : List Face} {n : ℕ} {dx : R}
    {origin : Vec3 R} {fault : Fault R} :
    ofFaces vertices faces n dx origin = .error fault ↔ ∃ before i after,
      faces.flatMap Face.corners = before ++ i :: after ∧ (∀ j ∈ before, j < vertices.size) ∧
        vertices.size ≤ i ∧ fault = .meshIndex i vertices.size := by
  rw [← Mesh.checkIndices_eq_error_iff, ofFaces, mapM_shadow]
  cases Mesh.checkIndices (R := R) vertices.size (faces.flatMap Face.corners) with
  | error first =>
    constructor
    · intro h
      cases h
      rfl
    · intro h
      cases h
      rfl
  | ok =>
    constructor
    · intro h
      cases h
    · intro h
      cases h

/-- Faces can be filled just when they make a mesh, and are refused for the same number
otherwise. -/
theorem ofFaces_agrees_with_meshes (n : ℕ) (dx : R) (origin : Vec3 R) :
    (∀ vertices faces,
      ofFaces vertices faces n dx origin =
        (Mesh.ofFaces vertices faces).map (ofMesh · n dx origin) ∧
      (ofFaces? vertices faces n dx origin = match Mesh.ofFaces vertices faces with
        | .error fault => some (.error fault)
        | .ok m => (ofMesh? m n dx origin).map .ok) ∧
      ∀ fault, ofFaces vertices faces n dx origin = .error fault ↔ ∃ before i after,
        faces.flatMap Face.corners = before ++ i :: after ∧ (∀ j ∈ before, j < vertices.size) ∧
          vertices.size ≤ i ∧ fault = .meshIndex i vertices.size) ∧
    (∀ (b : Bounds R) (subdivisions : ℕ), 6 * (max subdivisions 1 + 1) ^ 2 ≤ 2 ^ 32 →
      Mesh.cuboid? b subdivisions = some (Mesh.cuboid b subdivisions) ∧
      ∀ f ∈ (Mesh.cuboid b subdivisions).faces, ∀ i ∈ f.corners, Word.fits32 i = true) ∧
    ∀ m : Mesh R, m.IsBuilt →
      m.WellIndexed ∧
      m.faces.map (Mesh.triangle? m.vertices) = m.triangles.map some ∧
      ofFaces m.vertices m.faces n dx origin = .ok (ofMesh m n dx origin) := by
  refine ⟨fun vertices faces => ?_, fun b _ h => Mesh.cuboid?_eq_some b h, fun m hm => ?_⟩
  · exact ⟨ofFaces_eq_map_ofMesh vertices faces n dx origin,
      ofFaces?_eq_map_ofMesh? vertices faces n dx origin, fun _ => ofFaces_eq_error_iff⟩
  · have hwell := hm.wellIndexed
    exact ⟨hwell, hwell.map_triangle?, ofFaces_of_wellIndexed hwell n dx origin⟩

open scoped Exact

/-- A box that was moved and then fitted, and what one face too many does to it. -/
theorem ofFaces_fitted_box :
    let m : Mesh ℚ := ((Mesh.cuboid ⟨0, ⟨1, 2, 1⟩⟩ 2).transform 2 ⟨1, 0, 0⟩).fit 0 1
    m.IsBuilt ∧ m.triangles.length = 48 ∧
      ofFaces m.vertices m.faces 4 (1 / 4) 0 = .ok (ofMesh m 4 (1 / 4) 0) ∧
      ofFaces m.vertices (⟨0, 60, 54⟩ :: m.faces) 4 (1 / 4) 0 = .error (.meshIndex 60 54) := by
  intro m
  have hbuilt : m.IsBuilt :=
    ((Mesh.IsBuilt.cuboid ⟨0, ⟨1, 2, 1⟩⟩ (by decide)).transform 2 ⟨1, 0, 0⟩).fit 0 1
  obtain ⟨hentries, -, hmeshes⟩ := ofFaces_agrees_with_meshes 4 (1 / 4 : ℚ) 0
  obtain ⟨-, hall, hok⟩ := hmeshes m hbuilt
  have hsize : m.vertices.size = 54 := by decide +kernel
  refine ⟨hbuilt, ?_, hok, ?_⟩
  · have hlength := congrArg List.length hall
    rw [List.length_map, List.length_map] at hlength
    rw [← hlength]
    decide +kernel
  · refine ((hentries _ _).2.2 _).mpr
      ⟨[0], 60, 54 :: m.faces.flatMap Face.corners, rfl, ?_, ?_, by rw [hsize]⟩
    · decide +kernel
    · decide +kernel

end Voxels
end MaterialPoint
