import MaterialPoint.Proofs.Polyhedron

/-! Which cells a mesh around a convex polyhedron fills: a cell is wrong when a mean height
misjudges it. -/
namespace MaterialPoint
open scoped Exact

variable {K : Type} [Field K] [LinearOrder K] [IsStrictOrderedRing K] [FloorRing K]

theorem countP_eq_one {α : Type} {l : List α} {q : α → Bool}
    (hl : l.Pairwise fun a b => ¬(q a = true ∧ q b = true)) (h : ∃ a ∈ l, q a = true) :
    l.countP q = 1 := by
  induction l with
  | nil => exact absurd h (by simp)
  | cons a l ih =>
    obtain ⟨ha, hl⟩ := List.pairwise_cons.mp hl
    by_cases hq : q a = true
    · have hrest : l.countP q = 0 := List.countP_eq_zero.mpr fun b hb hqb => ha b hb ⟨hq, hqb⟩
      rw [List.countP_cons_of_pos hq, hrest]
    · have hrest : ∃ b ∈ l, q b = true := by
        obtain ⟨b, hb, hqb⟩ := h
        rcases List.mem_cons.mp hb with rfl | hb
        · exact absurd hqb hq
        · exact ⟨b, hb, hqb⟩
      rw [List.countP_cons_of_neg hq, ih hl hrest]

/-- What two tests tell differently is what an odd number of them tells. -/
theorem odd_countP_iff {α : Type} (l : List α) (q r : α → Bool) :
    Odd (l.countP q) ↔ (Odd (l.countP r) ↔ Even (l.countP fun a => q a ^^ r a)) := by
  induction l with
  | nil => simp
  | cons a l ih =>
    simp only [List.countP_cons, Nat.odd_iff, Nat.even_iff] at ih ⊢
    cases q a <;> cases r a <;> simp <;> omega

namespace Triangle

/-- Whether a height is above the mean height of a triangle but not above its plane, or the
reverse. -/
def isMisjudged (p : Vec2 K) (z : K) (t : Triangle K) : Bool :=
  decide ((Shadow.ofTriangle t).height < z) ^^ decide (t.heightAt p < z)

/-- How many of the triangles that a ray crosses are misjudged at a height. -/
def misjudged (ts : List (Triangle K)) (p : Vec2 K) (z : K) : ℕ :=
  ts.countP fun t => t.isCrossed p && t.isMisjudged p z

def IsOneSided (t : Triangle K) (z : K) : Prop :=
  (t.a.z < z ∧ t.b.z < z ∧ t.c.z < z) ∨ (z < t.a.z ∧ z < t.b.z ∧ z < t.c.z)

instance (t : Triangle K) (z : K) : Decidable (t.IsOneSided z) :=
  inferInstanceAs (Decidable (_ ∨ _))

theorem IsOneSided.sides {t : Triangle K} {z : K} (hz : t.IsOneSided z) {x : Vec3 K}
    (h : t.HasInside x) :
    ((Shadow.ofTriangle t).height < z ∧ x.z < z) ∨
      (z < (Shadow.ofTriangle t).height ∧ z < x.z) := by
  obtain ⟨w, ha, hb, hc, rfl⟩ := h
  have hz1 : z * w.a + z * w.b + z * w.c = z := by
    rw [← mul_add, ← mul_add, w.sum_eq_one, mul_one]
  rw [Shadow.height_ofTriangle, pointAt_def]
  rcases hz with ⟨hza, hzb, hzc⟩ | ⟨hza, hzb, hzc⟩
  · refine .inl ⟨by linarith, ?_⟩
    linarith [mul_lt_mul_of_pos_right hza ha, mul_lt_mul_of_pos_right hzb hb,
      mul_lt_mul_of_pos_right hzc hc]
  · refine .inr ⟨by linarith, ?_⟩
    linarith [mul_lt_mul_of_pos_right hza ha, mul_lt_mul_of_pos_right hzb hb,
      mul_lt_mul_of_pos_right hzc hc]

theorem isMisjudged_of_isOneSided {t : Triangle K} {p : Vec2 K} {z : K} (hz : t.IsOneSided z)
    (h : t.HasInside ⟨p.x, p.y, t.heightAt p⟩) : t.isMisjudged p z = false := by
  rw [isMisjudged]
  rcases hz.sides h with ⟨hheight, hat⟩ | ⟨hheight, hat⟩
  · rw [decide_eq_true hheight, decide_eq_true hat]
    rfl
  · rw [decide_eq_false hheight.not_gt, decide_eq_false hat.not_gt]
    rfl

end Triangle

namespace Polyhedron

section Ray
variable {P : Polyhedron K} {ts : List (Triangle K)} (hs : P.IsBoundedBy ts)
  (ht : ∀ t ∈ ts, ¬t.IsPoint) {p : Vec2 K} (hp : ∀ t ∈ ts, ¬t.InLine p)
include hs ht hp

theorem surface_of_isCrossed {t : Triangle K} (htm : t ∈ ts) (hc : t.isCrossed p = true) :
    P.Contains ⟨p.x, p.y, t.heightAt p⟩ ∧ ¬P.HasInside ⟨p.x, p.y, t.heightAt p⟩ :=
  (hs.surface _).mp
    ⟨t, htm, (Triangle.hasInside_of_isCrossed (ht t htm) (hp t htm) hc).contains⟩

theorem exists_isCrossed_of_surface {h : K} (hh : P.Contains ⟨p.x, p.y, h⟩)
    (hn : ¬P.HasInside ⟨p.x, p.y, h⟩) : ∃ t ∈ ts, t.isCrossed p = true ∧ t.heightAt p = h := by
  obtain ⟨t, htm, hc⟩ := (hs.surface _).mpr ⟨hh, hn⟩
  refine ⟨t, htm, ?_, (Triangle.eq_heightAt_of_contains (ht t htm) (hp t htm) hc).symm⟩
  exact Triangle.isCrossed_of_hasInside (Triangle.hasInside_of_contains (ht t htm) (hp t htm) hc)

theorem pairwise_heightAt_ne : ts.Pairwise fun t u =>
    ¬(t.isCrossed p = true ∧ u.isCrossed p = true ∧ t.heightAt p = u.heightAt p) := by
  refine hs.disjoint.imp_of_mem fun {t u} htm hum hdisjoint => ?_
  rintro ⟨htc, huc, heq⟩
  have hti := Triangle.hasInside_of_isCrossed (ht t htm) (hp t htm) htc
  have hui := Triangle.hasInside_of_isCrossed (ht u hum) (hp u hum) huc
  rw [← heq] at hui
  exact hdisjoint _ ⟨hti, hui⟩

theorem exists_hasInside_of_isCrossed {t : Triangle K} (htm : t ∈ ts)
    (hc : t.isCrossed p = true) : ∃ z, P.HasInside ⟨p.x, p.y, z⟩ :=
  exists_hasInside_of_triangle (fun x hx => ((hs.surface x).mp ⟨t, htm, hx⟩).1)
    (Triangle.area_ne_zero_of_isCrossed (ht t htm) (hp t htm) hc)
    (Triangle.hasInside_of_isCrossed (ht t htm) (hp t htm) hc)

section Inside
variable {z : K} (hz : P.HasInside ⟨p.x, p.y, z⟩)
include hz

/-- On either side of a height inside, a ray crosses triangles at one height. -/
theorem heightAt_eq_of_side {t u : Triangle K} (htm : t ∈ ts) (hum : u ∈ ts)
    (htc : t.isCrossed p = true) (huc : u.isCrossed p = true)
    (hside : (t.heightAt p ≤ z ∧ u.heightAt p ≤ z) ∨ (z ≤ t.heightAt p ∧ z ≤ u.heightAt p)) :
    t.heightAt p = u.heightAt p := by
  obtain ⟨htin, htout⟩ := surface_of_isCrossed hs ht hp htm htc
  obtain ⟨huin, huout⟩ := surface_of_isCrossed hs ht hp hum huc
  by_contra hne
  rcases lt_or_gt_of_ne hne with hlt | hgt <;> rcases hside with ⟨htz, huz⟩ | ⟨htz, huz⟩
  · exact huout (hasInside_between hz htin (.inr ⟨hlt, huz⟩))
  · exact htout (hasInside_between hz huin (.inl ⟨htz, hlt⟩))
  · exact htout (hasInside_between hz huin (.inr ⟨hgt, htz⟩))
  · exact huout (hasInside_between hz htin (.inl ⟨huz, hgt⟩))

theorem countP_isCrossed_side (side : K → Prop) [DecidablePred side]
    (hside : (∀ h, side h → h ≤ z) ∨ ∀ h, side h → z ≤ h)
    (h : ∃ h, side h ∧ P.Contains ⟨p.x, p.y, h⟩ ∧ ¬P.HasInside ⟨p.x, p.y, h⟩) :
    ts.countP (fun t => t.isCrossed p && decide (side (t.heightAt p))) = 1 := by
  refine countP_eq_one ?_ ?_
  · refine (pairwise_heightAt_ne hs ht hp).imp_of_mem fun {t u} htm hum hne => ?_
    simp only [Bool.and_eq_true, decide_eq_true_eq]
    rintro ⟨⟨htc, htz⟩, huc, huz⟩
    refine hne ⟨htc, huc, heightAt_eq_of_side hs ht hp hz htm hum htc huc ?_⟩
    exact hside.imp (fun hle => ⟨hle _ htz, hle _ huz⟩) fun hle => ⟨hle _ htz, hle _ huz⟩
  · obtain ⟨h, hh, hin, hout⟩ := h
    obtain ⟨t, htm, htc, rfl⟩ := exists_isCrossed_of_surface hs ht hp hin hout
    exact ⟨t, htm, by simp [htc, hh]⟩

theorem countP_isCrossed_below :
    ts.countP (fun t => t.isCrossed p && decide (t.heightAt p < z)) = 1 :=
  countP_isCrossed_side hs ht hp hz (· < z) (.inl fun _ h => h.le)
    (exists_surface_below hz)

theorem countP_isCrossed_above :
    ts.countP (fun t => t.isCrossed p && decide (z < t.heightAt p)) = 1 :=
  countP_isCrossed_side hs ht hp hz (z < ·) (.inr fun _ h => h.le)
    (exists_surface_above hz)

theorem countP_isCrossed_of_hasInside : ts.countP (·.isCrossed p) = 2 := by
  have hne : ∀ t ∈ ts, t.isCrossed p = true → t.heightAt p ≠ z := fun t htm htc heq =>
    (surface_of_isCrossed hs ht hp htm htc).2 (heq ▸ hz)
  have habove : ts.countP (fun t => t.isCrossed p && !decide (t.heightAt p < z)) = 1 := by
    rw [← countP_isCrossed_above hs ht hp hz]
    refine List.countP_congr fun t htm => ?_
    simp only [Bool.and_eq_true, Bool.not_eq_true', decide_eq_false_iff_not, not_lt,
      decide_eq_true_eq]
    exact and_congr_right fun htc => ⟨fun h => lt_of_le_of_ne h (hne t htm htc).symm, le_of_lt⟩
  rw [List.countP_eq_countP_filter_add _ _ fun t => decide (t.heightAt p < z), List.countP_filter,
    List.countP_filter, countP_isCrossed_below hs ht hp hz, habove]

theorem countP_isCrossed_below_of_lt {k : K} (hlt : z < k) (hk : ¬P.Contains ⟨p.x, p.y, k⟩) :
    ts.countP (fun t => t.isCrossed p && decide (t.heightAt p < k)) = 2 := by
  have hbelow : ∀ t ∈ ts, t.isCrossed p = true → t.heightAt p < k := fun t htm htc => by
    have hin := (surface_of_isCrossed hs ht hp htm htc).1
    rcases lt_trichotomy (t.heightAt p) k with h | rfl | h
    · exact h
    · exact absurd hin hk
    · exact absurd (hasInside_between hz hin (.inl ⟨hlt.le, h⟩)).contains hk
  rw [← countP_isCrossed_of_hasInside hs ht hp hz]
  refine List.countP_congr fun t htm => ?_
  simp only [Bool.and_eq_true, decide_eq_true_eq]
  exact and_iff_left_of_imp (hbelow t htm)

theorem countP_isCrossed_below_of_gt {k : K} (hgt : k < z) (hk : ¬P.Contains ⟨p.x, p.y, k⟩) :
    ts.countP (fun t => t.isCrossed p && decide (t.heightAt p < k)) = 0 := by
  refine List.countP_eq_zero.mpr fun t htm h => ?_
  simp only [Bool.and_eq_true, decide_eq_true_eq] at h
  have hin := (surface_of_isCrossed hs ht hp htm h.1).1
  exact hk (hasInside_between hz hin (.inr ⟨h.2, hgt.le⟩)).contains

end Inside

/-- A ray crosses no triangle of the surface of a convex polyhedron or two of them. -/
theorem countP_isCrossed_eq : ts.countP (·.isCrossed p) = 0 ∨ ts.countP (·.isCrossed p) = 2 := by
  by_cases h : ∃ t ∈ ts, t.isCrossed p = true
  · obtain ⟨t, htm, htc⟩ := h
    obtain ⟨z, hz⟩ := exists_hasInside_of_isCrossed hs ht hp htm htc
    exact .inr (countP_isCrossed_of_hasInside hs ht hp hz)
  · exact .inl (List.countP_eq_zero.mpr fun t htm htc => h ⟨t, htm, htc⟩)

/-- Off the surface, a point is inside when its ray crosses an odd number of triangles below it. -/
theorem odd_countP_isCrossed_iff {z : K} (hz : ∀ t ∈ ts, ¬t.Contains ⟨p.x, p.y, z⟩) :
    Odd (ts.countP fun t => t.isCrossed p && decide (t.heightAt p < z)) ↔
      P.HasInside ⟨p.x, p.y, z⟩ := by
  by_cases hin : P.HasInside ⟨p.x, p.y, z⟩
  · rw [countP_isCrossed_below hs ht hp hin]
    exact iff_of_true odd_one hin
  refine iff_of_false (Nat.not_odd_iff_even.mpr ?_) hin
  have hout : ¬P.Contains ⟨p.x, p.y, z⟩ := fun hc => by
    obtain ⟨t, htm, htc⟩ := (hs.surface _).mpr ⟨hc, hin⟩
    exact hz t htm htc
  by_cases hcross : ∃ t ∈ ts, t.isCrossed p = true
  · obtain ⟨t, htm, htc⟩ := hcross
    obtain ⟨k, hk⟩ := exists_hasInside_of_isCrossed hs ht hp htm htc
    rcases lt_trichotomy k z with hlt | rfl | hgt
    · rw [countP_isCrossed_below_of_lt hs ht hp hk hlt hout]
      exact even_two
    · exact absurd hk hin
    · rw [countP_isCrossed_below_of_gt hs ht hp hk hgt hout]
      exact Even.zero
  · rw [List.countP_eq_zero.mpr fun u hum h => hcross ⟨u, hum, (Bool.and_eq_true_iff.mp h).1⟩]
    exact Even.zero

theorem odd_countBelow_iff {z : K} (hz : ∀ t ∈ ts, ¬t.Contains ⟨p.x, p.y, z⟩) :
    Odd (Shadow.countBelow (Shadow.crossings (ts.map Shadow.ofTriangle) p) z) ↔
      (P.HasInside ⟨p.x, p.y, z⟩ ↔ Even (Triangle.misjudged ts p z)) := by
  rw [Shadow.countBelow_crossings_ofTriangle, odd_countP_iff _ _ fun t =>
    t.isCrossed p && decide (t.heightAt p < z), odd_countP_isCrossed_iff hs ht hp hz]
  simp only [Triangle.misjudged, Triangle.isMisjudged, Bool.and_xor_distrib_left]

omit hs in
theorem misjudged_eq_zero {z : K}
    (hsided : ∀ t ∈ ts, t.isCrossed p = true → t.IsOneSided z) : Triangle.misjudged ts p z = 0 := by
  refine List.countP_eq_zero.mpr fun t htm h => ?_
  obtain ⟨htc, hmis⟩ := Bool.and_eq_true_iff.mp h
  have hright := Triangle.isMisjudged_of_isOneSided (hsided t htm htc)
    (Triangle.hasInside_of_isCrossed (ht t htm) (hp t htm) htc)
  exact Bool.false_ne_true (hright.symm.trans hmis)

end Ray
end Polyhedron

namespace Voxels

/-- A cell is told right unless its center is between a crossed triangle and the triangle's mean
height. -/
theorem isOccupied_iff_of_isBoundedBy {m : Mesh K} (hm : m.WellIndexed) {P : Polyhedron K}
    (hs : P.IsBoundedBy m.triangles) (ht : ∀ t ∈ m.triangles, ¬t.IsPoint) (n : ℕ) (dx : K)
    (origin : Vec3 K) {c : Cell} (hc : c.x < n ∧ c.y < n ∧ c.z < n)
    (hp : ∀ t ∈ m.triangles, ¬t.InLine (columnCenter dx origin c.x c.y))
    (hsurface : ∀ t ∈ m.triangles, ¬t.Contains ((ofMesh m n dx origin).center c)) :
    let p := columnCenter dx origin c.x c.y
    ∃ v, ofFaces m.vertices m.faces n dx origin = .ok v ∧
      (m.triangles.countP (·.isCrossed p) = 0 ∨ m.triangles.countP (·.isCrossed p) = 2) ∧
      (v.isOccupied c = true ↔
        (P.HasInside (v.center c) ↔ Even (Triangle.misjudged m.triangles p (v.center c).z))) ∧
      ((∀ t ∈ m.triangles, t.isCrossed p = true → t.IsOneSided (v.center c).z) →
        (v.isOccupied c = true ↔ P.HasInside (v.center c))) := by
  intro p
  have hoccupied : (ofMesh m n dx origin).isOccupied c = true ↔
      (P.HasInside ((ofMesh m n dx origin).center c) ↔
        Even (Triangle.misjudged m.triangles p ((ofMesh m n dx origin).center c).z)) :=
    (isOccupied_ofShadows_iff _ n dx origin c).trans ((and_iff_right hc).trans
      (Polyhedron.odd_countBelow_iff hs ht hp hsurface))
  refine ⟨ofMesh m n dx origin, ofFaces_of_wellIndexed hm n dx origin,
    Polyhedron.countP_isCrossed_eq hs ht hp, hoccupied, fun hsided => ?_⟩
  rw [hoccupied, Polyhedron.misjudged_eq_zero ht hp hsided]
  exact iff_true_right Even.zero

end Voxels

namespace Corner

def mesh : Mesh ℚ where
  vertices := #[⟨0, 0, 0⟩, ⟨1, 0, 0⟩, ⟨0, 1, 0⟩, ⟨0, 0, 1⟩]
  normals := none
  faces := [⟨0, 2, 1⟩, ⟨0, 1, 3⟩, ⟨0, 3, 2⟩, ⟨1, 2, 3⟩]

def body : Polyhedron ℚ where
  faces := [⟨⟨-1, 0, 0⟩, 0⟩, ⟨⟨0, -1, 0⟩, 0⟩, ⟨⟨0, 0, -1⟩, 0⟩, ⟨⟨1, 1, 1⟩, 1⟩]
  core := ⟨1 / 8, 1 / 8, 1 / 8⟩
  size := 1
  excess_core := by decide +kernel
  abs_le_size x hx := by
    simp [HalfSpace.excess, Vec3.dot] at hx
    obtain ⟨h1, h2, h3, h4⟩ := hx
    refine ⟨abs_le.mpr ⟨?_, ?_⟩, abs_le.mpr ⟨?_, ?_⟩, abs_le.mpr ⟨?_, ?_⟩⟩ <;> linarith

theorem triangles_mesh : mesh.triangles = [⟨⟨0, 0, 0⟩, ⟨0, 1, 0⟩, ⟨1, 0, 0⟩⟩,
    ⟨⟨0, 0, 0⟩, ⟨1, 0, 0⟩, ⟨0, 0, 1⟩⟩, ⟨⟨0, 0, 0⟩, ⟨0, 0, 1⟩, ⟨0, 1, 0⟩⟩,
    ⟨⟨1, 0, 0⟩, ⟨0, 1, 0⟩, ⟨0, 0, 1⟩⟩] := by decide +kernel

theorem contains_iff (x : Vec3 ℚ) :
    body.Contains x ↔ 0 ≤ x.x ∧ 0 ≤ x.y ∧ 0 ≤ x.z ∧ x.x + x.y + x.z ≤ 1 := by
  simp [Polyhedron.Contains, body, HalfSpace.excess, Vec3.dot]

theorem hasInside_iff (x : Vec3 ℚ) :
    body.HasInside x ↔ 0 < x.x ∧ 0 < x.y ∧ 0 < x.z ∧ x.x + x.y + x.z < 1 := by
  simp [Polyhedron.HasInside, body, HalfSpace.excess, Vec3.dot]

theorem isBoundedBy : body.IsBoundedBy mesh.triangles where
  surface x := by
    rw [triangles_mesh, contains_iff, hasInside_iff]
    constructor
    · rintro ⟨t, ht, w, ha, hb, hc, rfl⟩
      have hsum := w.sum_eq_one
      simp only [List.mem_cons, List.not_mem_nil, or_false] at ht
      rcases ht with rfl | rfl | rfl | rfl <;>
        simp only [Triangle.pointAt_def, zero_mul, one_mul, add_zero, zero_add] <;>
        exact ⟨⟨by linarith, by linarith, by linarith, by linarith⟩, fun h => by linarith⟩
    · rintro ⟨⟨hx, hy, hz, hle⟩, hout⟩
      rcases hx.eq_or_lt with h0 | hx'
      · refine ⟨⟨⟨0, 0, 0⟩, ⟨0, 0, 1⟩, ⟨0, 1, 0⟩⟩, by simp, ⟨1 - x.z - x.y, x.z, x.y, by ring⟩,
          by linarith, hz, hy, ?_⟩
        ext <;> simp [Triangle.pointAt_def, ← h0]
      rcases hy.eq_or_lt with h0 | hy'
      · refine ⟨⟨⟨0, 0, 0⟩, ⟨1, 0, 0⟩, ⟨0, 0, 1⟩⟩, by simp, ⟨1 - x.x - x.z, x.x, x.z, by ring⟩,
          by linarith, hx, hz, ?_⟩
        ext <;> simp [Triangle.pointAt_def, ← h0]
      rcases hz.eq_or_lt with h0 | hz'
      · refine ⟨⟨⟨0, 0, 0⟩, ⟨0, 1, 0⟩, ⟨1, 0, 0⟩⟩, by simp, ⟨1 - x.y - x.x, x.y, x.x, by ring⟩,
          by linarith, hy, hx, ?_⟩
        ext <;> simp [Triangle.pointAt_def, ← h0]
      have hsum : x.x + x.y + x.z = 1 :=
        le_antisymm hle (not_lt.mp fun h => hout ⟨hx', hy', hz', h⟩)
      refine ⟨⟨⟨1, 0, 0⟩, ⟨0, 1, 0⟩, ⟨0, 0, 1⟩⟩, by simp, ⟨x.x, x.y, x.z, hsum⟩, hx, hy, hz, ?_⟩
      ext <;> simp [Triangle.pointAt_def]
  disjoint := by
    rw [triangles_mesh]
    simp only [List.pairwise_cons, List.mem_cons, List.not_mem_nil, or_false, forall_eq_or_imp,
      forall_eq, List.Pairwise.nil, false_imp_iff, implies_true, and_true, Triangle.HasInside,
      Triangle.pointAt_def]
    refine ⟨⟨?_, ?_, ?_⟩, ⟨?_, ?_⟩, ?_⟩ <;>
      rintro x ⟨⟨w, hwa, hwb, hwc, rfl⟩, v, hva, hvb, hvc, hv⟩ <;>
      obtain ⟨hx, hy, hz⟩ := Vec3.mk.inj hv <;>
      linarith

theorem not_inLine_mesh : ∀ t ∈ mesh.triangles,
    ¬t.InLine (Voxels.columnCenter (1 / 4) 0 0 0) := by decide +kernel

theorem not_contains_of_hasInside {x : Vec3 ℚ} (hx : body.HasInside x) :
    ∀ t ∈ mesh.triangles, ¬t.Contains x := fun t ht hc =>
  ((isBoundedBy.surface x).mp ⟨t, ht, hc⟩).2 hx

/-- The first cell is told right: no triangle that its ray crosses is misjudged. -/
theorem isOccupied_first : mesh.WellIndexed ∧ body.IsBoundedBy mesh.triangles ∧
    (∀ t ∈ mesh.triangles, ¬t.IsPoint) ∧
    (∀ t ∈ mesh.triangles, ¬t.InLine (Voxels.columnCenter (1 / 4) 0 0 0)) ∧
    (∀ t ∈ mesh.triangles, ¬t.Contains ((Voxels.ofMesh mesh 2 (1 / 4) 0).center ⟨0, 0, 0⟩)) ∧
    ∃ v, Voxels.ofFaces mesh.vertices mesh.faces 2 (1 / 4) 0 = .ok v ∧
      v.isOccupied ⟨0, 0, 0⟩ = true := by
  have hwell : mesh.WellIndexed := by decide +kernel
  have hpoint : ∀ t ∈ mesh.triangles, ¬t.IsPoint := by decide +kernel
  have hinside : body.HasInside ((Voxels.ofMesh mesh 2 (1 / 4) 0).center ⟨0, 0, 0⟩) := by
    decide +kernel
  have hsurface := not_contains_of_hasInside hinside
  obtain ⟨v, hv, -, hoccupied, -⟩ := Voxels.isOccupied_iff_of_isBoundedBy hwell isBoundedBy hpoint
    2 (1 / 4) 0 (c := ⟨0, 0, 0⟩) (by decide) not_inLine_mesh hsurface
  obtain rfl : Voxels.ofMesh mesh 2 (1 / 4) 0 = v :=
    Except.ok.inj ((Voxels.ofFaces_of_wellIndexed hwell 2 (1 / 4) 0).symm.trans hv)
  refine ⟨hwell, isBoundedBy, hpoint, not_inLine_mesh, hsurface, _, hv, hoccupied.mpr ?_⟩
  exact iff_of_true hinside (by decide +kernel)

/-- The cell above it is told wrong: it is inside, and not occupied. -/
theorem not_isOccupied_second : IsWatertight mesh.triangles ∧ mesh.WellIndexed ∧
    body.IsBoundedBy mesh.triangles ∧ (∀ t ∈ mesh.triangles, ¬t.IsPoint) ∧
    (∀ t ∈ mesh.triangles, ¬t.InLine (Voxels.columnCenter (1 / 4) 0 0 0)) ∧
    (∀ t ∈ mesh.triangles, ¬t.Contains ((Voxels.ofMesh mesh 2 (1 / 4) 0).center ⟨0, 0, 1⟩)) ∧
    body.HasInside ((Voxels.ofMesh mesh 2 (1 / 4) 0).center ⟨0, 0, 1⟩) ∧
    ∃ v, Voxels.ofFaces mesh.vertices mesh.faces 2 (1 / 4) 0 = .ok v ∧
      v.isOccupied ⟨0, 0, 1⟩ = false := by
  have hwell : mesh.WellIndexed := by decide +kernel
  have hinside : body.HasInside ((Voxels.ofMesh mesh 2 (1 / 4) 0).center ⟨0, 0, 1⟩) := by
    decide +kernel
  exact ⟨by decide +kernel, hwell, isBoundedBy, by decide +kernel, not_inLine_mesh,
    not_contains_of_hasInside hinside, hinside, _, Voxels.ofFaces_of_wellIndexed hwell 2 (1 / 4) 0,
    by decide +kernel⟩

end Corner
end MaterialPoint
