import MaterialPoint.Proofs.Barycentric

/-! Cells beside a mesh count as inside only for triangles seen edge-on in line with them. -/
namespace MaterialPoint
open scoped Exact

variable {K : Type} [Field K] [LinearOrder K] [IsStrictOrderedRing K] [FloorRing K]

namespace Vec2

theorem onLine_left (p q : Vec2 K) : OnLine p q p := ⟨0, by simp⟩

theorem onLine_right (p q : Vec2 K) : OnLine p q q := ⟨1, by simp⟩

theorem onLine_of_perpDot {p a b : Vec2 K} (ha : a ≠ p) (h : (a - p).perpDot (b - p) = 0) :
    OnLine p a b := by
  rw [onLine_iff ha.symm]
  simp only [sub_perpDot_sub] at h ⊢
  linear_combination h

end Vec2

namespace Triangle
variable {t : Triangle K} {p : Vec2 K}

def IsEdgeOn (t : Triangle K) (p : Vec2 K) : Prop :=
  ∃ q, Vec2.OnLine p q t.a.shadow ∧ Vec2.OnLine p q t.b.shadow ∧ Vec2.OnLine p q t.c.shadow

/-- A triangle is edge-on in line with a point when none of its sides spans an area with it. -/
theorem isEdgeOn_iff (t : Triangle K) (p : Vec2 K) : t.IsEdgeOn p ↔ t.areas p = 0 := by
  rw [areas, Vec3.zero_def, Vec3.mk.injEq]
  constructor
  · rintro ⟨q, ⟨r, ha⟩, ⟨s, hb⟩, u, hc⟩
    simp only [Vec2.sub_perpDot_sub, ha, hb, hc]
    refine ⟨?_, ?_, ?_⟩ <;> ring
  · rintro ⟨hbc, hca, hab⟩
    by_cases ha : t.a.shadow = p
    · rw [IsEdgeOn, ha]
      by_cases hb : t.b.shadow = p
      · exact ⟨t.c.shadow, Vec2.onLine_left .., hb ▸ Vec2.onLine_left .., Vec2.onLine_right ..⟩
      · exact ⟨t.b.shadow, Vec2.onLine_left .., Vec2.onLine_right ..,
          Vec2.onLine_of_perpDot hb hbc⟩
    · refine ⟨t.a.shadow, Vec2.onLine_right .., Vec2.onLine_of_perpDot ha hab,
        Vec2.onLine_of_perpDot ha ?_⟩
      rw [Vec2.perpDot_swap, hca, neg_zero]

instance (t : Triangle K) (p : Vec2 K) : Decidable (t.IsEdgeOn p) :=
  decidable_of_iff (t.areas p = 0) (t.isEdgeOn_iff p).symm

theorem IsEdgeOn.isCrossed (h : t.IsEdgeOn p) : t.isCrossed p = true := by
  rw [isCrossed_iff_areas, (t.isEdgeOn_iff p).mp h]
  exact .inr ⟨le_rfl, le_rfl, le_rfl⟩

/-- A ray with all corners on one side of a line through it crosses only triangles edge-on. -/
theorem isEdgeOn_of_isCrossed {d : Vec2 K} (ha : 0 < d.perpDot (t.a.shadow - p))
    (hb : 0 < d.perpDot (t.b.shadow - p)) (hc : 0 < d.perpDot (t.c.shadow - p))
    (h : t.isCrossed p = true) : t.IsEdgeOn p := by
  have hbal : d.perpDot (t.a.shadow - p) * (t.areas p).x +
      d.perpDot (t.b.shadow - p) * (t.areas p).y +
      d.perpDot (t.c.shadow - p) * (t.areas p).z = 0 := Vec2.perpDot_balance ..
  rw [isEdgeOn_iff]
  rcases (isCrossed_iff_areas t p).mp h with ⟨hx, hy, hz⟩ | ⟨hx, hy, hz⟩
  · -- Areas of one sign do not balance.
    have hpos := add_pos (add_pos (mul_pos ha hx) (mul_pos hb hy)) (mul_pos hc hz)
    exact absurd hbal hpos.ne'
  · have hxd := mul_nonpos_of_nonneg_of_nonpos ha.le hx
    have hyd := mul_nonpos_of_nonneg_of_nonpos hb.le hy
    have hzd := mul_nonpos_of_nonneg_of_nonpos hc.le hz
    have hxd0 : d.perpDot (t.a.shadow - p) * (t.areas p).x = 0 := by linarith
    have hyd0 : d.perpDot (t.b.shadow - p) * (t.areas p).y = 0 := by linarith
    have hzd0 : d.perpDot (t.c.shadow - p) * (t.areas p).z = 0 := by linarith
    exact Vec3.ext ((mul_eq_zero.mp hxd0).resolve_left ha.ne')
      ((mul_eq_zero.mp hyd0).resolve_left hb.ne') ((mul_eq_zero.mp hzd0).resolve_left hc.ne')

end Triangle

namespace Mesh
variable {m : Mesh K} {p : Vec2 K}

/-- A point of the plane is outside the bounds of the vertices as they are seen along the third
axis. -/
def IsBeside (m : Mesh K) (p : Vec2 K) : Prop :=
  (∀ u ∈ m.vertices, p.x < u.x) ∨ (∀ u ∈ m.vertices, u.x < p.x) ∨
    (∀ u ∈ m.vertices, p.y < u.y) ∨ ∀ u ∈ m.vertices, u.y < p.y

instance (m : Mesh K) (p : Vec2 K) : Decidable (m.IsBeside p) :=
  inferInstanceAs (Decidable (_ ∨ _))

theorem IsBeside.exists_side (h : m.IsBeside p) :
    ∃ d : Vec2 K, ∀ u ∈ m.vertices, 0 < d.perpDot (u.shadow - p) := by
  rcases h with h | h | h | h
  · refine ⟨⟨0, -1⟩, fun u hu => ?_⟩
    simpa [Vec2.perpDot_sub, Vec3.shadow] using h u hu
  · refine ⟨⟨0, 1⟩, fun u hu => ?_⟩
    simpa [Vec2.perpDot_sub, Vec3.shadow] using h u hu
  · refine ⟨⟨1, 0⟩, fun u hu => ?_⟩
    simpa [Vec2.perpDot_sub, Vec3.shadow] using h u hu
  · refine ⟨⟨-1, 0⟩, fun u hu => ?_⟩
    simpa [Vec2.perpDot_sub, Vec3.shadow] using h u hu

theorem isCrossed_iff_of_isBeside (h : m.IsBeside p) {t : Triangle K} (ht : t ∈ m.triangles) :
    t.isCrossed p = true ↔ t.IsEdgeOn p := by
  obtain ⟨d, hd⟩ := h.exists_side
  obtain ⟨ha, hb, hc⟩ := corners_mem_vertices ht
  exact ⟨Triangle.isEdgeOn_of_isCrossed (hd _ ha) (hd _ hb) (hd _ hc), Triangle.IsEdgeOn.isCrossed⟩

end Mesh

namespace Voxels

/-- A cell beside all vertices is inside when its column is in line with an odd number of edge-on
triangles below. -/
theorem isOccupied_iff_of_isBeside {m : Mesh K} (hm : m.WellIndexed) (n : ℕ) (dx : K)
    (origin : Vec3 K) {c : Cell} (hc : c.x < n ∧ c.y < n ∧ c.z < n)
    (hp : m.IsBeside (columnCenter dx origin c.x c.y)) :
    let p := columnCenter dx origin c.x c.y
    ∃ v, ofFaces m.vertices m.faces n dx origin = .ok v ∧
      (v.isOccupied c = true ↔ Odd (m.triangles.countP fun t =>
        decide (t.IsEdgeOn p ∧ (t.a.z + t.b.z + t.c.z) / 3 < (v.center c).z))) ∧
      ((∀ t ∈ m.triangles, ¬t.IsEdgeOn p) → v.isOccupied c = false) := by
  intro p
  have hoccupied : (ofMesh m n dx origin).isOccupied c = true ↔ Odd (m.triangles.countP fun t =>
      decide (t.IsEdgeOn p ∧ (t.a.z + t.b.z + t.c.z) / 3 < centerAlong dx origin.z c.z)) := by
    refine isOccupied_ofMesh_iff hc fun t ht => ?_
    rw [decide_eq_true_eq, Mesh.isCrossed_iff_of_isBeside hp ht, Shadow.height_ofTriangle]
  refine ⟨ofMesh m n dx origin, ofFaces_of_wellIndexed hm n dx origin, hoccupied, fun hnone => ?_⟩
  rw [Bool.eq_false_iff, Ne, hoccupied, List.countP_eq_zero.mpr fun t ht h =>
    hnone t ht (of_decide_eq_true h).1]
  exact Nat.not_odd_zero

end Voxels

namespace Wedge

/-- A tetrahedron with one side in the plane that halves the angle between the first two axes. -/
def mesh : Mesh ℚ where
  vertices := #[⟨0, 0, 0⟩, ⟨1 / 8, 1 / 8, 0⟩, ⟨0, 0, 3 / 8⟩, ⟨1 / 8, 0, 0⟩]
  normals := none
  faces := [⟨0, 1, 3⟩, ⟨0, 2, 1⟩, ⟨0, 3, 2⟩, ⟨3, 1, 2⟩]

theorem not_isOccupied_beside : mesh.IsBeside (Voxels.columnCenter (1 / 2) 0 1 0) ∧
    ∃ v, Voxels.ofFaces mesh.vertices mesh.faces 2 (1 / 2) 0 = .ok v ∧
      v.isOccupied ⟨1, 0, 1⟩ = false := by
  have hbeside : mesh.IsBeside (Voxels.columnCenter (1 / 2) 0 1 0) := by decide +kernel
  obtain ⟨v, hv, -, hnone⟩ := Voxels.isOccupied_iff_of_isBeside (m := mesh) (by decide +kernel) 2
    (1 / 2) 0 (c := ⟨1, 0, 1⟩) (by decide) hbeside
  exact ⟨hbeside, v, hv, hnone (by decide +kernel)⟩

/-- Far beside it, but in line with its upright side, a cell is inside. -/
theorem isOccupied_in_line : IsWatertight mesh.triangles ∧ mesh.WellIndexed ∧ (0 : ℚ) < 1 / 2 ∧
    mesh.IsBeside (Voxels.columnCenter (1 / 2) 0 1 1) ∧
    ∃ v, Voxels.ofFaces mesh.vertices mesh.faces 2 (1 / 2) 0 = .ok v ∧
      v.isOccupied ⟨1, 1, 0⟩ = true := by
  have hwell : mesh.WellIndexed := by decide +kernel
  exact ⟨by decide +kernel, hwell, by norm_num, by decide +kernel, _,
    Voxels.ofFaces_of_wellIndexed hwell 2 (1 / 2) 0, by decide +kernel⟩

end Wedge
end MaterialPoint
