import MaterialPoint.Proofs.Convexity

/-! At heights between the corners of no triangle, mean heights do no harm. -/
namespace MaterialPoint
open scoped Exact

variable {K : Type} [Field K] [LinearOrder K] [IsStrictOrderedRing K] [FloorRing K]

namespace Triangle
variable {t : Triangle K} {p : Vec2 K} {x : Vec3 K}

/-- A triangle is above or below a point of the plane. -/
def Overlies (t : Triangle K) (p : Vec2 K) : Prop := ∃ h, t.Contains ⟨p.x, p.y, h⟩

def MeetsBelow (t : Triangle K) (x : Vec3 K) : Prop := ∃ h, h ≤ x.z ∧ t.Contains ⟨x.x, x.y, h⟩

theorem isCrossed_iff_overlies (ht : ¬t.IsPoint) (hp : ¬t.InLine p) :
    t.isCrossed p = true ↔ t.Overlies p := by
  refine (isCrossed_iff ht hp).trans ⟨fun ⟨h, hin⟩ => ⟨h, hin.contains⟩, fun ⟨h, hc⟩ => ?_⟩
  exact ⟨h, hasInside_of_contains ht hp hc⟩

/-- The ray meets a triangle that is above or below, when its plane is not above. -/
theorem meetsBelow_iff (ht : ¬t.IsPoint) (hp : ¬t.InLine x.shadow) :
    t.MeetsBelow x ↔ t.Overlies x.shadow ∧ t.heightAt x.shadow ≤ x.z := by
  constructor
  · rintro ⟨h, hle, hc⟩
    rw [eq_heightAt_of_contains (p := x.shadow) ht hp hc] at hle
    exact ⟨⟨h, hc⟩, hle⟩
  · rintro ⟨⟨h, hc⟩, hle⟩
    rw [← eq_heightAt_of_contains ht hp hc] at hle
    exact ⟨h, hle, hc⟩

/-- A triangle counts as crossed below a point when the ray down from the point meets it. -/
theorem isCrossed_below_iff (ht : ¬t.IsPoint) (hp : ¬t.InLine x.shadow)
    (hz : t.Overlies x.shadow → t.IsOneSided x.z) :
    t.isCrossed x.shadow = true ∧ (Shadow.ofTriangle t).height < x.z ↔ t.MeetsBelow x := by
  rw [meetsBelow_iff ht hp, isCrossed_iff_overlies ht hp]
  refine and_congr_right fun ho => ?_
  have hin := hasInside_of_isCrossed ht hp ((isCrossed_iff_overlies ht hp).mpr ho)
  rcases (hz ho).sides hin with ⟨hheight, hat⟩ | ⟨hheight, hat⟩
  · exact iff_of_true hheight hat.le
  · exact iff_of_false hheight.not_gt hat.not_ge

end Triangle

namespace Voxels

theorem center_ofMesh (m : Mesh K) (n : ℕ) (dx : K) (origin : Vec3 K) (c : Cell) :
    (ofMesh m n dx origin).center c = ⟨centerAlong dx origin.x c.x, centerAlong dx origin.y c.y,
      centerAlong dx origin.z c.z⟩ := rfl

open scoped Classical in
/-- At a height between the corners of no triangle, a cell is inside when its ray down meets an
odd number. -/
theorem isOccupied_iff_odd_meetsBelow {m : Mesh K} (hm : m.WellIndexed)
    (ht : ∀ t ∈ m.triangles, ¬t.IsPoint) (n : ℕ) (dx : K) (origin : Vec3 K) {c : Cell}
    (hc : c.x < n ∧ c.y < n ∧ c.z < n)
    (hp : ∀ t ∈ m.triangles, ¬t.InLine (columnCenter dx origin c.x c.y))
    (hz : ∀ t ∈ m.triangles, t.Overlies (columnCenter dx origin c.x c.y) →
      t.IsOneSided (centerAlong dx origin.z c.z)) :
    ∃ v, ofFaces m.vertices m.faces n dx origin = .ok v ∧
      (v.isOccupied c = true ↔
        Odd (m.triangles.countP fun t => decide (t.MeetsBelow (v.center c)))) := by
  refine ⟨ofMesh m n dx origin, ofFaces_of_wellIndexed hm n dx origin, ?_⟩
  refine isOccupied_ofMesh_iff hc fun t htm => ?_
  rw [decide_eq_true_eq, center_ofMesh]
  exact (Triangle.isCrossed_below_iff (x := ⟨_, _, _⟩) (ht t htm) (hp t htm) (hz t htm)).symm

end Voxels

namespace Prism

def mesh : Mesh ℚ where
  vertices := #[⟨0, 0, 0⟩, ⟨1, 0, 1 / 8⟩, ⟨0, 1, 1 / 8⟩, ⟨0, 0, 1⟩, ⟨1, 0, 7 / 8⟩, ⟨0, 1, 7 / 8⟩]
  normals := none
  faces := [⟨0, 2, 1⟩, ⟨3, 4, 5⟩, ⟨0, 1, 4⟩, ⟨0, 4, 3⟩, ⟨1, 2, 5⟩, ⟨1, 5, 4⟩, ⟨2, 0, 3⟩, ⟨2, 3, 5⟩]

open scoped Classical in
theorem odd_meetsBelow_first : ∃ v, Voxels.ofFaces mesh.vertices mesh.faces 2 (1 / 2) 0 = .ok v ∧
    v.isOccupied ⟨0, 0, 0⟩ = true ∧
    Odd (mesh.triangles.countP fun t => decide (t.MeetsBelow (v.center ⟨0, 0, 0⟩))) := by
  have hwell : mesh.WellIndexed := by decide +kernel
  have hpoint : ∀ t ∈ mesh.triangles, ¬t.IsPoint := by decide +kernel
  have hline : ∀ t ∈ mesh.triangles, ¬t.InLine (Voxels.columnCenter (1 / 2) 0 0 0) := by
    decide +kernel
  have hsided : ∀ t ∈ mesh.triangles, t.isCrossed (Voxels.columnCenter (1 / 2) 0 0 0) = true →
      t.IsOneSided (Voxels.centerAlong (1 / 2) 0 0) := by decide +kernel
  obtain ⟨v, hv, hiff⟩ := Voxels.isOccupied_iff_odd_meetsBelow hwell hpoint 2 (1 / 2) 0
    (c := ⟨0, 0, 0⟩) (by decide) hline fun t ht ho =>
      hsided t ht ((Triangle.isCrossed_iff_overlies (hpoint t ht) (hline t ht)).mpr ho)
  obtain rfl : Voxels.ofMesh mesh 2 (1 / 2) 0 = v :=
    Except.ok.inj ((Voxels.ofFaces_of_wellIndexed hwell 2 (1 / 2) 0).symm.trans hv)
  have hoccupied : (Voxels.ofMesh mesh 2 (1 / 2) 0).isOccupied ⟨0, 0, 0⟩ = true := by
    decide +kernel
  exact ⟨_, hv, hoccupied, hiff.mp hoccupied⟩

end Prism
end MaterialPoint
