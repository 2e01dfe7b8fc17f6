import MaterialPoint.Proofs.Linear
import MaterialPoint.Proofs.Watertight

/-! Triangles as the weighted means of their corners, and the rays that cross them. -/
namespace MaterialPoint
open scoped Exact

variable {K : Type} [Field K] [LinearOrder K] [IsStrictOrderedRing K] [FloorRing K]

/-- Weights of the corners of a triangle. -/
@[ext] structure Barycentric (K : Type) [Add K] [One K] where
  a : K
  b : K
  c : K
  sum_eq_one : a + b + c = 1

namespace Triangle

def pointAt (t : Triangle K) (w : Barycentric K) : Vec3 K := w.a • t.a + w.b • t.b + w.c • t.c

/-- A point of a triangle, whose sides belong to it. -/
def Contains (t : Triangle K) (x : Vec3 K) : Prop :=
  ∃ w : Barycentric K, 0 ≤ w.a ∧ 0 ≤ w.b ∧ 0 ≤ w.c ∧ t.pointAt w = x

/-- A point of a triangle that is on none of its sides. -/
def HasInside (t : Triangle K) (x : Vec3 K) : Prop :=
  ∃ w : Barycentric K, 0 < w.a ∧ 0 < w.b ∧ 0 < w.c ∧ t.pointAt w = x

theorem HasInside.contains {t : Triangle K} {x : Vec3 K} (h : t.HasInside x) : t.Contains x := by
  obtain ⟨w, ha, hb, hc, hx⟩ := h
  exact ⟨w, ha.le, hb.le, hc.le, hx⟩

theorem pointAt_def (t : Triangle K) (w : Barycentric K) : t.pointAt w =
    ⟨t.a.x * w.a + t.b.x * w.b + t.c.x * w.c, t.a.y * w.a + t.b.y * w.b + t.c.y * w.c,
      t.a.z * w.a + t.b.z * w.b + t.c.z * w.c⟩ := rfl

/-- Twice the signed area of a triangle as it is seen along the third axis. -/
def area (t : Triangle K) : K :=
  (t.b.x - t.a.x) * (t.c.y - t.a.y) - (t.b.y - t.a.y) * (t.c.x - t.a.x)

/-- Twice the signed areas that a point of the plane spans with the sides opposite the corners. -/
def areas (t : Triangle K) (p : Vec2 K) : Vec3 K :=
  ⟨(t.b.shadow - p).perpDot (t.c.shadow - p), (t.c.shadow - p).perpDot (t.a.shadow - p),
    (t.a.shadow - p).perpDot (t.b.shadow - p)⟩

theorem areas_def (t : Triangle K) (p : Vec2 K) : t.areas p =
    ⟨(t.b.x - p.x) * (t.c.y - p.y) - (t.b.y - p.y) * (t.c.x - p.x),
      (t.c.x - p.x) * (t.a.y - p.y) - (t.c.y - p.y) * (t.a.x - p.x),
      (t.a.x - p.x) * (t.b.y - p.y) - (t.a.y - p.y) * (t.b.x - p.x)⟩ := rfl

theorem sum_areas (t : Triangle K) (p : Vec2 K) :
    (t.areas p).x + (t.areas p).y + (t.areas p).z = t.area := by
  rw [areas_def, area]
  ring

/-- The weights of the point of the plane of a triangle that is above or below a point. -/
def weightsAt (t : Triangle K) (h : t.area ≠ 0) (p : Vec2 K) : Barycentric K where
  a := (t.areas p).x / t.area
  b := (t.areas p).y / t.area
  c := (t.areas p).z / t.area
  sum_eq_one := by rw [← add_div, ← add_div, sum_areas, div_self h]

theorem shadow_pointAt_weightsAt (t : Triangle K) (h : t.area ≠ 0) (p : Vec2 K) :
    (t.pointAt (t.weightsAt h p)).shadow = p := by
  ext
  · simp only [pointAt_def, Vec3.shadow, weightsAt, areas_def]
    field_simp
    rw [area]
    ring
  · simp only [pointAt_def, Vec3.shadow, weightsAt, areas_def]
    field_simp
    rw [area]
    ring

theorem areas_shadow_pointAt (t : Triangle K) (w : Barycentric K) :
    t.areas (t.pointAt w).shadow = ⟨w.a * t.area, w.b * t.area, w.c * t.area⟩ := by
  have hc : w.c = 1 - w.a - w.b := by linear_combination w.sum_eq_one
  rw [areas_def, pointAt_def, area, Vec3.shadow, hc]
  ext
  · dsimp only
    ring
  · dsimp only
    ring
  · dsimp only
    ring

theorem areas_of_pointAt {t : Triangle K} {w : Barycentric K} {p : Vec2 K} {z : K}
    (h : t.pointAt w = ⟨p.x, p.y, z⟩) :
    t.areas p = ⟨w.a * t.area, w.b * t.area, w.c * t.area⟩ := by
  rw [← areas_shadow_pointAt, h]
  rfl

theorem isCrossed_iff_areas (t : Triangle K) (p : Vec2 K) : t.isCrossed p = true ↔
    (0 < (t.areas p).x ∧ 0 < (t.areas p).y ∧ 0 < (t.areas p).z) ∨
      (t.areas p).x ≤ 0 ∧ (t.areas p).y ≤ 0 ∧ (t.areas p).z ≤ 0 := by
  simp only [isCrossed, Shadow.covers, Shadow.ofTriangle, Bool.or_eq_true, Bool.and_eq_true,
    Bool.not_eq_true', Bool.eq_false_iff, Ne, Shadow.sees_eq_true_iff, not_lt, areas]
  tauto

/-- Off the lines through the sides, only corners that are seen in one place span no area. -/
theorem corners_eq_of_not_inLine {t : Triangle K} {p : Vec2 K} (hp : ¬t.InLine p) :
    ((t.areas p).x = 0 → t.b.shadow = t.c.shadow) ∧
      ((t.areas p).y = 0 → t.c.shadow = t.a.shadow) ∧
      ((t.areas p).z = 0 → t.a.shadow = t.b.shadow) := by
  simp only [InLine, not_or, not_and] at hp
  obtain ⟨hab, hbc, hca⟩ := hp
  refine ⟨fun h => ?_, fun h => ?_, fun h => ?_⟩
  · by_contra hne
    exact hbc hne ((Vec2.onLine_iff hne p).mpr h)
  · by_contra hne
    exact hca hne ((Vec2.onLine_iff hne p).mpr h)
  · by_contra hne
    exact hab hne ((Vec2.onLine_iff hne p).mpr h)

theorem areas_ne_zero {t : Triangle K} {p : Vec2 K} (hp : ¬t.InLine p) (h : t.area ≠ 0) :
    (t.areas p).x ≠ 0 ∧ (t.areas p).y ≠ 0 ∧ (t.areas p).z ≠ 0 := by
  obtain ⟨hbc, hca, hab⟩ := corners_eq_of_not_inLine hp
  simp only [Vec3.shadow, Vec2.mk.injEq] at hbc hca hab
  refine ⟨fun h0 => h ?_, fun h0 => h ?_, fun h0 => h ?_⟩
  · rw [area, (hbc h0).1, (hbc h0).2]
    ring
  · rw [area, (hca h0).1, (hca h0).2]
    ring
  · rw [area, (hab h0).1, (hab h0).2]
    ring

theorem isPoint_of_areas_eq_zero {t : Triangle K} {p : Vec2 K} (hp : ¬t.InLine p)
    (hx : (t.areas p).x = 0) (hz : (t.areas p).z = 0) : t.IsPoint := by
  obtain ⟨hbc, -, hab⟩ := corners_eq_of_not_inLine hp
  exact ⟨hab hz, hbc hx⟩

section Generic
variable {t : Triangle K} {p : Vec2 K} {z : K}

theorem area_ne_zero_of_isCrossed (ht : ¬t.IsPoint) (hp : ¬t.InLine p)
    (h : t.isCrossed p = true) : t.area ≠ 0 := by
  intro h0
  have hsum := t.sum_areas p
  rcases (isCrossed_iff_areas t p).mp h with ⟨hx, hy, hz⟩ | ⟨hx, hy, hz⟩
  · linarith
  · have hx0 : (t.areas p).x = 0 := by linarith
    have hz0 : (t.areas p).z = 0 := by linarith
    exact ht (isPoint_of_areas_eq_zero hp hx0 hz0)

theorem area_ne_zero_of_contains (ht : ¬t.IsPoint) (hp : ¬t.InLine p)
    (h : t.Contains ⟨p.x, p.y, z⟩) : t.area ≠ 0 := by
  obtain ⟨w, -, -, -, hx⟩ := h
  intro h0
  have hw := areas_of_pointAt hx
  rw [h0, mul_zero, mul_zero, mul_zero] at hw
  exact ht (isPoint_of_areas_eq_zero hp (congrArg Vec3.x hw) (congrArg Vec3.z hw))

theorem hasInside_of_contains (ht : ¬t.IsPoint) (hp : ¬t.InLine p)
    (h : t.Contains ⟨p.x, p.y, z⟩) : t.HasInside ⟨p.x, p.y, z⟩ := by
  have hne := areas_ne_zero hp (area_ne_zero_of_contains ht hp h)
  obtain ⟨w, ha, hb, hc, hx⟩ := h
  rw [areas_of_pointAt hx] at hne
  exact ⟨w, lt_of_le_of_ne ha (left_ne_zero_of_mul hne.1).symm,
    lt_of_le_of_ne hb (left_ne_zero_of_mul hne.2.1).symm,
    lt_of_le_of_ne hc (left_ne_zero_of_mul hne.2.2).symm, hx⟩

theorem isCrossed_of_hasInside (h : t.HasInside ⟨p.x, p.y, z⟩) : t.isCrossed p = true := by
  obtain ⟨w, ha, hb, hc, hx⟩ := h
  rw [isCrossed_iff_areas, areas_of_pointAt hx]
  rcases lt_or_ge 0 t.area with hpos | hneg
  · exact .inl ⟨mul_pos ha hpos, mul_pos hb hpos, mul_pos hc hpos⟩
  · exact .inr ⟨mul_nonpos_of_nonneg_of_nonpos ha.le hneg,
      mul_nonpos_of_nonneg_of_nonpos hb.le hneg, mul_nonpos_of_nonneg_of_nonpos hc.le hneg⟩

/-- The height of the plane of a triangle over a point. -/
def heightAt (t : Triangle K) (p : Vec2 K) : K :=
  ((t.areas p).x * t.a.z + (t.areas p).y * t.b.z + (t.areas p).z * t.c.z) / t.area

theorem pointAt_weightsAt (h : t.area ≠ 0) (p : Vec2 K) :
    t.pointAt (t.weightsAt h p) = ⟨p.x, p.y, t.heightAt p⟩ := by
  have hp := shadow_pointAt_weightsAt t h p
  refine Vec3.ext (congrArg Vec2.x hp) (congrArg Vec2.y hp) ?_
  simp only [pointAt_def, weightsAt, heightAt]
  field_simp

theorem hasInside_of_isCrossed (ht : ¬t.IsPoint) (hp : ¬t.InLine p) (h : t.isCrossed p = true) :
    t.HasInside ⟨p.x, p.y, t.heightAt p⟩ := by
  have harea := area_ne_zero_of_isCrossed ht hp h
  obtain ⟨hx0, hy0, hz0⟩ := areas_ne_zero hp harea
  have hsum := t.sum_areas p
  refine ⟨t.weightsAt harea p, ?_⟩
  rcases (isCrossed_iff_areas t p).mp h with ⟨hx, hy, hz⟩ | ⟨hx, hy, hz⟩
  · have hpos : 0 < t.area := by linarith
    exact ⟨div_pos hx hpos, div_pos hy hpos, div_pos hz hpos, pointAt_weightsAt harea p⟩
  · have hneg : t.area < 0 := lt_of_le_of_ne (by linarith) harea
    exact ⟨div_pos_of_neg_of_neg (lt_of_le_of_ne hx hx0) hneg,
      div_pos_of_neg_of_neg (lt_of_le_of_ne hy hy0) hneg,
      div_pos_of_neg_of_neg (lt_of_le_of_ne hz hz0) hneg, pointAt_weightsAt harea p⟩

/-- A ray in line with no sides of a triangle crosses it exactly when it meets it. -/
theorem isCrossed_iff (ht : ¬t.IsPoint) (hp : ¬t.InLine p) :
    t.isCrossed p = true ↔ ∃ h, t.HasInside ⟨p.x, p.y, h⟩ :=
  ⟨fun h => ⟨_, hasInside_of_isCrossed ht hp h⟩, fun ⟨_, h⟩ => isCrossed_of_hasInside h⟩

theorem eq_heightAt_of_contains (ht : ¬t.IsPoint) (hp : ¬t.InLine p)
    (h : t.Contains ⟨p.x, p.y, z⟩) : z = t.heightAt p := by
  have harea := area_ne_zero_of_contains ht hp h
  obtain ⟨w, -, -, -, hx⟩ := h
  have hz : z = t.a.z * w.a + t.b.z * w.b + t.c.z * w.c := (congrArg Vec3.z hx).symm
  rw [heightAt, areas_of_pointAt hx, eq_div_iff harea, hz]
  ring

end Generic

end Triangle
end MaterialPoint
