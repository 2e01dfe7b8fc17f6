import MaterialPoint.Proofs.Barycentric

/-! Convex polyhedra and the triangles that bound them. -/
namespace MaterialPoint
open scoped Exact

variable {K : Type} [Field K] [LinearOrder K] [IsStrictOrderedRing K] [FloorRing K]

/-- The points on one side of a plane, those of the plane with them. -/
structure HalfSpace (K : Type) where
  normal : Vec3 K
  bound : K

/-- How far a point is beyond the plane of a half space, in units of its normal. -/
def HalfSpace.excess (f : HalfSpace K) (x : Vec3 K) : K := f.normal.dot x - f.bound

def Vec3.toward (x y : Vec3 K) (s : K) : Vec3 K := x + s • (y - x)

theorem HalfSpace.excess_toward (f : HalfSpace K) (x y : Vec3 K) (s : K) :
    f.excess (x.toward y s) = (1 - s) * f.excess x + s * f.excess y := by
  simp only [excess, Vec3.toward, Vec3.dot, Vec3.add_def, Vec3.sub_def, Vec3.smul_def]
  ring

/-- What is in all of some half spaces, when this is bounded and some point is on no plane. -/
structure Polyhedron (K : Type) [Field K] [LinearOrder K] [IsStrictOrderedRing K]
    [FloorRing K] where
  faces : List (HalfSpace K)
  core : Vec3 K
  /-- No component of a point is greater than this size. -/
  size : K
  excess_core : ∀ f ∈ faces, f.excess core < 0
  abs_le_size : ∀ x : Vec3 K, (∀ f ∈ faces, f.excess x ≤ 0) →
    |x.x| ≤ size ∧ |x.y| ≤ size ∧ |x.z| ≤ size

namespace Barycentric

/-- The weights beyond some weights as they are seen from others. -/
def beyond (v w : Barycentric K) (s : K) : Barycentric K where
  a := w.a + s * (w.a - v.a)
  b := w.b + s * (w.b - v.b)
  c := w.c + s * (w.c - v.c)
  sum_eq_one := by linear_combination (1 + s) * w.sum_eq_one - s * v.sum_eq_one

theorem exists_beyond (v : Barycentric K) {w : Barycentric K} (ha : 0 < w.a) (hb : 0 < w.b)
    (hc : 0 < w.c) :
    ∃ s, 0 < s ∧ 0 ≤ (beyond v w s).a ∧ 0 ≤ (beyond v w s).b ∧ 0 ≤ (beyond v w s).c := by
  have hstep {w d : K} (hw : 0 < w) : 0 < w / (1 + |d|) ∧
      ∀ s, 0 < s → s ≤ w / (1 + |d|) → 0 ≤ w + s * d := by
    have hd : 0 < 1 + |d| := by positivity
    refine ⟨div_pos hw hd, fun s hs hle => ?_⟩
    have hle := (le_div_iff₀ hd).mp hle
    have hneg := mul_le_mul_of_nonneg_left (neg_abs_le d) hs.le
    linarith
  obtain ⟨hpa, hsa⟩ := hstep (d := w.a - v.a) ha
  obtain ⟨hpb, hsb⟩ := hstep (d := w.b - v.b) hb
  obtain ⟨hpc, hsc⟩ := hstep (d := w.c - v.c) hc
  have hpos := lt_min hpa (lt_min hpb hpc)
  exact ⟨_, hpos, hsa _ hpos (min_le_left _ _),
    hsb _ hpos ((min_le_right _ _).trans (min_le_left _ _)),
    hsc _ hpos ((min_le_right _ _).trans (min_le_right _ _))⟩

theorem pointAt_beyond (t : Triangle K) (v w : Barycentric K) (s : K) :
    t.pointAt (beyond v w s) = t.pointAt w + s • (t.pointAt w - t.pointAt v) := by
  simp only [Triangle.pointAt_def, beyond, Vec3.add_def, Vec3.sub_def, Vec3.smul_def,
    Vec3.mk.injEq]
  refine ⟨?_, ?_, ?_⟩ <;> ring

end Barycentric

namespace Polyhedron
variable {P : Polyhedron K} {x y : Vec3 K}

/-- A point of a polyhedron, whose surface belongs to it. -/
def Contains (P : Polyhedron K) (x : Vec3 K) : Prop := ∀ f ∈ P.faces, f.excess x ≤ 0

/-- A point strictly inside a polyhedron. -/
def HasInside (P : Polyhedron K) (x : Vec3 K) : Prop := ∀ f ∈ P.faces, f.excess x < 0

instance (P : Polyhedron K) (x : Vec3 K) : Decidable (P.HasInside x) := List.decidableBAll _ _

theorem HasInside.contains (h : P.HasInside x) : P.Contains x := fun f hf => (h f hf).le

theorem hasInside_core (P : Polyhedron K) : P.HasInside P.core := P.excess_core

/-- On the way from a point inside to a point of the polyhedron, all points are inside. -/
theorem HasInside.toward (hx : P.HasInside x) (hy : P.Contains y) {s : K} (h0 : 0 ≤ s)
    (h1 : s < 1) : P.HasInside (x.toward y s) := by
  intro f hf
  rw [f.excess_toward]
  have hnear := mul_neg_of_pos_of_neg (sub_pos.mpr h1) (hx f hf)
  have hfar := mul_nonpos_of_nonneg_of_nonpos h0 (hy f hf)
  linarith

/-- The way from a point inside to a point outside passes the surface. -/
theorem HasInside.exists_toward (hx : P.HasInside x) (hy : ¬P.Contains y) :
    ∃ s, 0 < s ∧ s < 1 ∧ P.Contains (x.toward y s) ∧ ¬P.HasInside (x.toward y s) := by
  -- Of the planes on the way, the first one is met on the surface.
  let passed := {f | f ∈ P.faces ∧ 0 < f.excess y}
  let exit (f : HalfSpace K) : K := -f.excess x / (f.excess y - f.excess x)
  have hfinite : passed.Finite := (List.finite_toSet P.faces).subset fun f hf => hf.1
  have hne : passed.Nonempty := by
    simp only [Contains, not_forall, not_le] at hy
    obtain ⟨f, hf, hpos⟩ := hy
    exact ⟨f, hf, hpos⟩
  obtain ⟨f, ⟨hf, hpos⟩, hfirst⟩ := Set.exists_min_image passed exit hfinite hne
  have hneg := hx f hf
  have hway : 0 < f.excess y - f.excess x := by linarith
  have hs0 : 0 < exit f := div_pos (neg_pos.mpr hneg) hway
  have hs1 : exit f < 1 := (div_lt_one hway).mpr (by linarith)
  refine ⟨exit f, hs0, hs1, fun g hg => ?_, fun hall => ?_⟩
  · rw [g.excess_toward]
    have hgneg := hx g hg
    rcases lt_or_ge 0 (g.excess y) with hgpos | hgle
    · have hgway : 0 < g.excess y - g.excess x := by linarith
      have hle := (le_div_iff₀ hgway).mp (hfirst g ⟨hg, hgpos⟩)
      linarith
    · have hnear := mul_neg_of_pos_of_neg (sub_pos.mpr hs1) hgneg
      have hfar := mul_nonpos_of_nonneg_of_nonpos hs0.le hgle
      linarith
  · have hon := hall f hf
    rw [f.excess_toward] at hon
    have hexit : exit f * (f.excess y - f.excess x) = -f.excess x := div_mul_cancel₀ _ hway.ne'
    linarith

/-- A list of triangles that bounds a polyhedron: together they are its surface, and no two of them
overlap. -/
structure IsBoundedBy (P : Polyhedron K) (ts : List (Triangle K)) : Prop where
  surface : ∀ x, (∃ t ∈ ts, t.Contains x) ↔ P.Contains x ∧ ¬P.HasInside x
  disjoint : ts.Pairwise fun t u => ∀ x, ¬(t.HasInside x ∧ u.HasInside x)

section Column
variable {p : Vec2 K} {z h k : K}

theorem toward_column (s : K) :
    Vec3.toward ⟨p.x, p.y, z⟩ ⟨p.x, p.y, k⟩ s = (⟨p.x, p.y, z + (k - z) * s⟩ : Vec3 K) := by
  simp only [Vec3.toward, Vec3.add_def, Vec3.sub_def, Vec3.smul_def, sub_self, zero_mul, add_zero]

theorem hasInside_between (hz : P.HasInside ⟨p.x, p.y, z⟩) (hk : P.Contains ⟨p.x, p.y, k⟩)
    (hbetween : (z ≤ h ∧ h < k) ∨ (k < h ∧ h ≤ z)) : P.HasInside ⟨p.x, p.y, h⟩ := by
  have hway : k - z ≠ 0 := by
    rcases hbetween with ⟨hzh, hhk⟩ | ⟨hkh, hhz⟩
    · exact (sub_pos.mpr (hzh.trans_lt hhk)).ne'
    · exact (sub_neg.mpr (hkh.trans_le hhz)).ne
  have hpart : 0 ≤ (h - z) / (k - z) ∧ (h - z) / (k - z) < 1 := by
    rcases hbetween with ⟨hzh, hhk⟩ | ⟨hkh, hhz⟩
    · have hpos := sub_pos.mpr (hzh.trans_lt hhk)
      exact ⟨div_nonneg (sub_nonneg.mpr hzh) hpos.le, (div_lt_one hpos).mpr (by linarith)⟩
    · have hneg := sub_neg.mpr (hkh.trans_le hhz)
      exact ⟨div_nonneg_of_nonpos (sub_nonpos.mpr hhz) hneg.le,
        (div_lt_one_of_neg hneg).mpr (by linarith)⟩
  have hinside := hz.toward hk hpart.1 hpart.2
  rwa [toward_column, mul_div_cancel₀ _ hway, add_sub_cancel] at hinside

theorem exists_surface_between (hz : P.HasInside ⟨p.x, p.y, z⟩)
    (hk : ¬P.Contains ⟨p.x, p.y, k⟩) :
    ∃ h, ((z < h ∧ h < k) ∨ (k < h ∧ h < z)) ∧ P.Contains ⟨p.x, p.y, h⟩ ∧
      ¬P.HasInside ⟨p.x, p.y, h⟩ := by
  obtain ⟨s, h0, h1, hs⟩ := hz.exists_toward hk
  rw [toward_column] at hs
  refine ⟨z + (k - z) * s, ?_, hs⟩
  rcases lt_trichotomy z k with hlt | rfl | hgt
  · exact .inl ⟨by nlinarith, by nlinarith⟩
  · exact absurd hz.contains hk
  · exact .inr ⟨by nlinarith, by nlinarith⟩

theorem exists_surface_below (hz : P.HasInside ⟨p.x, p.y, z⟩) :
    ∃ h < z, P.Contains ⟨p.x, p.y, h⟩ ∧ ¬P.HasInside ⟨p.x, p.y, h⟩ := by
  have hsize := abs_le.mp (P.abs_le_size _ hz.contains).2.2
  have hfar : ¬P.Contains ⟨p.x, p.y, -P.size - 1⟩ := fun hfar => by
    have hle := (abs_le.mp (P.abs_le_size _ hfar).2.2).1
    dsimp only at hle
    linarith
  obtain ⟨h, hbetween, hh⟩ := exists_surface_between hz hfar
  refine ⟨h, ?_, hh⟩
  rcases hbetween with ⟨hzh, hhk⟩ | ⟨-, hhz⟩
  · linarith [hsize.1]
  · exact hhz

theorem exists_surface_above (hz : P.HasInside ⟨p.x, p.y, z⟩) :
    ∃ h > z, P.Contains ⟨p.x, p.y, h⟩ ∧ ¬P.HasInside ⟨p.x, p.y, h⟩ := by
  have hsize := abs_le.mp (P.abs_le_size _ hz.contains).2.2
  have hfar : ¬P.Contains ⟨p.x, p.y, P.size + 1⟩ := fun hfar => by
    have hle := (abs_le.mp (P.abs_le_size _ hfar).2.2).2
    dsimp only at hle
    linarith
  obtain ⟨h, hbetween, hh⟩ := exists_surface_between hz hfar
  refine ⟨h, ?_, hh⟩
  rcases hbetween with ⟨hzh, -⟩ | ⟨hkh, hhz⟩
  · exact hzh
  · linarith [hsize.2]

/-- Through an inner point of a triangle not seen as a line goes a column with a point inside. -/
theorem exists_hasInside_of_triangle {t : Triangle K} (ht : ∀ x, t.Contains x → P.Contains x)
    (harea : t.area ≠ 0) (hh : t.HasInside ⟨p.x, p.y, h⟩) : ∃ z, P.HasInside ⟨p.x, p.y, z⟩ := by
  obtain ⟨w, ha, hb, hc, hw⟩ := hh
  -- The way from the core to a point of the triangle a little beyond the column passes the column.
  let v := t.weightsAt harea P.core.shadow
  obtain ⟨s, hs, hsa, hsb, hsc⟩ := Barycentric.exists_beyond v ha hb hc
  have hfar := ht _ ⟨_, hsa, hsb, hsc, rfl⟩
  have hs1 : 0 < 1 + s := by linarith
  have hinside := P.hasInside_core.toward hfar (div_nonneg zero_le_one hs1.le)
    ((div_lt_one hs1).mpr (by linarith))
  have hv : t.pointAt v = _ := Triangle.pointAt_weightsAt harea P.core.shadow
  rw [Barycentric.pointAt_beyond, hw, hv] at hinside
  have hx : P.core.x + (p.x + (p.x - P.core.x) * s - P.core.x) * (1 / (1 + s)) = p.x := by
    field_simp
    ring
  have hy : P.core.y + (p.y + (p.y - P.core.y) * s - P.core.y) * (1 / (1 + s)) = p.y := by
    field_simp
    ring
  simp only [Vec3.toward, Vec3.add_def, Vec3.sub_def, Vec3.smul_def, Vec3.shadow, hx, hy]
    at hinside
  exact ⟨_, hinside⟩

end Column
end Polyhedron
end MaterialPoint
