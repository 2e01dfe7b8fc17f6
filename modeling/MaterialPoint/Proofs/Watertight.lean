import MaterialPoint.Proofs.Crossing
import MaterialPoint.Proofs.Occupancy
import MaterialPoint.Mesh.Cuboid

/-! Closed meshes do not leak: a ray crosses an even number of their triangles. -/
namespace MaterialPoint
open scoped Exact

namespace Voxels
variable {R : Type} [Scalar R]

theorem occupied_ofShadows (shadows : List (Shadow R)) {n x y z : ℕ} (dx : R) (origin : Vec3 R)
    (hx : x < n) (hy : y < n) (hz : z < n) :
    (ofShadows shadows n dx origin).occupied[x + n * (y + n * z)]?.getD false = true ↔
      Odd (Shadow.countBelow (columnCrossings shadows dx origin x y)
        (centerAlong dx origin.z z)) := by
  have hcolumn : x + n * y < n * n := by nlinarith
  have hlt : x + n * y + n * n * z < n * n * n := by nlinarith
  have hnumber : x + n * (y + n * z) = x + n * y + n * n * z := by ring
  obtain ⟨hmod, hdiv⟩ := mod_div_of_lt hcolumn z
  obtain ⟨hcx, hcy⟩ := mod_div_of_lt hx y
  simp only [hnumber, occupied_ofShadows_eq_ofFn, Array.getElem?_ofFn, hlt, hmod, hdiv, hcx, hcy,
    dite_true, Option.getD_some, Nat.odd_iff, beq_iff_eq]

theorem isOccupied_ofShadows_iff (shadows : List (Shadow R)) (n : ℕ) (dx : R) (origin : Vec3 R)
    (c : Cell) :
    (ofShadows shadows n dx origin).isOccupied c = true ↔
      (c.x < n ∧ c.y < n ∧ c.z < n) ∧
        Odd (Shadow.countBelow (columnCrossings shadows dx origin c.x c.y)
          (centerAlong dx origin.z c.z)) := by
  simp only [isOccupied, Bool.and_eq_true, decide_eq_true_eq]
  constructor
  · rintro ⟨⟨⟨hx, hy⟩, hz⟩, h⟩
    exact ⟨⟨hx, hy, hz⟩, (occupied_ofShadows shadows dx origin hx hy hz).mp h⟩
  · rintro ⟨⟨hx, hy, hz⟩, h⟩
    exact ⟨⟨⟨hx, hy⟩, hz⟩, (occupied_ofShadows shadows dx origin hx hy hz).mpr h⟩

theorem exists_triangle?_of_corners {vertices : Array (Vec3 R)} {f : Face}
    (hf : ∀ i ∈ f.corners, i < vertices.size) :
    ∃ t, Mesh.triangle? vertices f = some t ∧
      shadow vertices f = .ok (Shadow.ofTriangle t) := by
  have ha := hf f.a (by simp [Face.corners])
  have hb := hf f.b (by simp [Face.corners])
  have hc := hf f.c (by simp [Face.corners])
  refine ⟨⟨vertices[f.a], vertices[f.b], vertices[f.c]⟩, ?_, ?_⟩
  · simp [Mesh.triangle?, ha, hb, hc]
  · simp only [shadow, Array.getElem?_eq_getElem ha, Array.getElem?_eq_getElem hb,
      Array.getElem?_eq_getElem hc]
    rfl

theorem shadow_eq_error {vertices : Array (Vec3 R)} {f : Face} {fault : Fault R}
    (h : Mesh.checkIndices vertices.size f.corners = .error fault) :
    shadow vertices f = .error fault := by
  rcases Nat.lt_or_ge f.a vertices.size with ha | ha
  · rcases Nat.lt_or_ge f.b vertices.size with hb | hb
    · rcases Nat.lt_or_ge f.c vertices.size with hc | hc
      · rw [Mesh.checkIndices_eq_ok_iff.mpr (by simp [Face.corners, ha, hb, hc])] at h
        cases h
      · obtain rfl : .meshIndex f.c vertices.size = fault := by
          simpa [Mesh.checkIndices, Face.corners, ha.not_ge, hb.not_ge, hc] using h
        simp [shadow, ha, hb, hc]
        rfl
    · obtain rfl : .meshIndex f.b vertices.size = fault := by
        simpa [Mesh.checkIndices, Face.corners, ha.not_ge, hb] using h
      simp [shadow, ha, hb]
      rfl
  · obtain rfl : .meshIndex f.a vertices.size = fault := by
      simpa [Mesh.checkIndices, Face.corners, ha] using h
    simp [shadow, ha]
    rfl

/-- The shadows of faces are looked up exactly when the vertices of all faces exist. -/
theorem mapM_shadow (vertices : Array (Vec3 R)) (faces : List Face) :
    faces.mapM (shadow vertices) =
      (Mesh.checkIndices vertices.size (faces.flatMap Face.corners)).map fun _ =>
        (faces.filterMap (Mesh.triangle? vertices)).map Shadow.ofTriangle := by
  induction faces with
  | nil => rfl
  | cons f faces ih =>
    rw [List.mapM_cons, List.flatMap_cons, Mesh.checkIndices_append, ih]
    cases h : Mesh.checkIndices (R := R) vertices.size f.corners with
    | error fault =>
      rw [shadow_eq_error h]
      rfl
    | ok =>
      obtain ⟨t, ht, hs⟩ := exists_triangle?_of_corners (Mesh.checkIndices_eq_ok_iff.mp h)
      rw [hs, List.filterMap_cons_some ht]
      cases Mesh.checkIndices (R := R) vertices.size (faces.flatMap Face.corners) <;> rfl

theorem mapM_shadow_eq_ok {vertices : Array (Vec3 R)} {faces : List Face}
    (hf : ∀ f ∈ faces, ∀ i ∈ f.corners, i < vertices.size) :
    faces.mapM (shadow vertices) =
      .ok ((faces.filterMap (Mesh.triangle? vertices)).map Shadow.ofTriangle) := by
  have hall : ∀ i ∈ faces.flatMap Face.corners, i < vertices.size := by
    simpa using fun i f hm hi => hf f hm i hi
  rw [mapM_shadow, Mesh.checkIndices_eq_ok_iff.mpr hall]
  rfl

theorem ofFaces_of_wellIndexed {m : Mesh R} (hm : m.WellIndexed) (n : ℕ) (dx : R)
    (origin : Vec3 R) : ofFaces m.vertices m.faces n dx origin = .ok (ofMesh m n dx origin) := by
  rw [ofFaces, mapM_shadow_eq_ok hm]
  rfl

end Voxels

instance {R : Type} (m : Mesh R) : Decidable m.WellIndexed := List.decidableBAll _ _

theorem Mesh.corners_mem_vertices {R : Type} {m : Mesh R} {t : Triangle R} (ht : t ∈ m.triangles) :
    t.a ∈ m.vertices ∧ t.b ∈ m.vertices ∧ t.c ∈ m.vertices := by
  obtain ⟨f, -, hf⟩ := List.mem_filterMap.mp ht
  simp only [triangle?, Option.bind_eq_bind, Option.bind_eq_some_iff, Option.pure_def,
    Option.some.injEq] at hf
  obtain ⟨a, ha, b, hb, c, hc, rfl⟩ := hf
  exact ⟨Array.mem_of_getElem? ha, Array.mem_of_getElem? hb, Array.mem_of_getElem? hc⟩

section Sides
variable {R : Type} [DecidableEq R]

def Triangle.sides (t : Triangle R) : List (Sym2 (Vec3 R)) :=
  [s(t.a, t.b), s(t.b, t.c), s(t.c, t.a)]

/-- Every edge between two places is a side of triangles an even number of times. -/
def IsWatertight (ts : List (Triangle R)) : Prop :=
  ∀ e : Sym2 (Vec3 R), ¬e.IsDiag → Even ((ts.flatMap Triangle.sides).count e)

theorem isWatertight_iff (ts : List (Triangle R)) :
    IsWatertight ts ↔ ∀ e ∈ ts.flatMap Triangle.sides, ¬e.IsDiag →
      Even ((ts.flatMap Triangle.sides).count e) := by
  refine ⟨fun h e _ => h e, fun h e he => ?_⟩
  by_cases hm : e ∈ ts.flatMap Triangle.sides
  · exact h e hm he
  · rw [List.count_eq_zero_of_not_mem hm]
    exact Even.zero

instance (ts : List (Triangle R)) : Decidable (IsWatertight ts) :=
  decidable_of_iff' _ (isWatertight_iff ts)

theorem even_countP_of_even_count {α : Type} [DecidableEq α] {l : List α} {q : α → Bool}
    (h : ∀ a, q a = true → Even (l.count a)) : Even (l.countP q) := by
  rw [List.countP_eq_length_filter, ← List.sum_toFinset_count_eq_length]
  refine Finset.even_sum _ fun a ha => ?_
  have hq := (List.mem_filter.mp (List.mem_toFinset.mp ha)).2
  rw [List.count_filter hq]
  exact h a hq

end Sides

variable {K : Type} [Field K] [LinearOrder K] [IsStrictOrderedRing K] [FloorRing K]

namespace Triangle

/-- All corners are in one place when seen along the third axis. -/
def IsPoint (t : Triangle K) : Prop := t.a.shadow = t.b.shadow ∧ t.b.shadow = t.c.shadow

/-- A point of the plane is on the line through two corners that are seen in two places. -/
def InLine (t : Triangle K) (p : Vec2 K) : Prop :=
  (t.a.shadow ≠ t.b.shadow ∧ Vec2.OnLine t.a.shadow t.b.shadow p) ∨
    (t.b.shadow ≠ t.c.shadow ∧ Vec2.OnLine t.b.shadow t.c.shadow p) ∨
    (t.c.shadow ≠ t.a.shadow ∧ Vec2.OnLine t.c.shadow t.a.shadow p)

instance (t : Triangle K) : Decidable t.IsPoint := inferInstanceAs (Decidable (_ ∧ _))

instance (t : Triangle K) (p : Vec2 K) : Decidable (t.InLine p) :=
  inferInstanceAs (Decidable (_ ∨ _))

/-- Whether a ray along the third axis crosses the triangle. -/
def isCrossed (p : Vec2 K) (t : Triangle K) : Bool := (Shadow.ofTriangle t).covers p

end Triangle

/-- Whether the ray from a point of the plane crosses an edge seen along the third axis. -/
def crossesEdge (p : Vec2 K) : Sym2 (Vec3 K) → Bool :=
  Sym2.lift ⟨fun a b => Shadow.crosses p a.shadow b.shadow,
    fun a b => Shadow.crosses_comm p a.shadow b.shadow⟩

theorem not_isDiag_of_crossesEdge {p : Vec2 K} {e : Sym2 (Vec3 K)} (h : crossesEdge p e = true) :
    ¬e.IsDiag := by
  induction e with
  | _ a b =>
    intro hab
    rw [Sym2.mk_isDiag_iff] at hab
    subst hab
    exact Bool.false_ne_true ((Shadow.crosses_self p a.shadow).symm.trans h)

theorem Triangle.isCrossed_eq_xor {t : Triangle K} {p : Vec2 K} (ht : ¬t.IsPoint)
    (hp : ¬t.InLine p) :
    t.isCrossed p = ((crossesEdge p s(t.a, t.b) ^^ crossesEdge p s(t.b, t.c)) ^^
      crossesEdge p s(t.c, t.a)) := by
  unfold InLine at hp
  push Not at hp
  exact Shadow.covers_eq_xor ht hp.1 hp.2.1 hp.2.2

/-- The triangles crossed along the third axis are as many, up to parity, as the sides crossed in
the plane. -/
theorem even_countP_isCrossed_iff {ts : List (Triangle K)} {p : Vec2 K}
    (ht : ∀ t ∈ ts, ¬t.IsPoint) (hp : ∀ t ∈ ts, ¬t.InLine p) :
    Even (ts.countP (·.isCrossed p)) ↔
      Even ((ts.flatMap Triangle.sides).countP (crossesEdge p)) := by
  induction ts with
  | nil => rfl
  | cons t ts ih =>
    have hrest := ih (fun u hu => ht u (List.mem_cons_of_mem t hu))
      fun u hu => hp u (List.mem_cons_of_mem t hu)
    have hxor := Triangle.isCrossed_eq_xor (ht t List.mem_cons_self) (hp t List.mem_cons_self)
    rw [List.flatMap_cons, List.countP_append, List.countP_cons, Nat.even_add, Nat.even_add, hrest,
      hxor]
    simp only [Triangle.sides, List.countP_cons, List.countP_nil]
    cases crossesEdge p s(t.a, t.b) <;> cases crossesEdge p s(t.b, t.c) <;>
      cases crossesEdge p s(t.c, t.a) <;> simp +decide [iff_comm]

theorem IsWatertight.even_countP_isCrossed {ts : List (Triangle K)} (hw : IsWatertight ts)
    (ht : ∀ t ∈ ts, ¬t.IsPoint) {p : Vec2 K} (hp : ∀ t ∈ ts, ¬t.InLine p) :
    Even (ts.countP (·.isCrossed p)) :=
  (even_countP_isCrossed_iff ht hp).mpr
    (even_countP_of_even_count fun e he => hw e (not_isDiag_of_crossesEdge he))

namespace Shadow

theorem length_crossings_ofTriangle (ts : List (Triangle K)) (p : Vec2 K) :
    (crossings (ts.map ofTriangle) p).length = ts.countP (·.isCrossed p) := by
  rw [crossings, List.length_map, ← List.countP_eq_length_filter, List.countP_map]
  rfl

theorem countBelow_crossings {R : Type} [Scalar R] (shadows : List (Shadow R)) (p : Vec2 R)
    (z : R) : countBelow (crossings shadows p) z =
      shadows.countP fun s => s.covers p && decide (s.height < z) := by
  rw [countBelow, crossings, List.countP_map, List.countP_filter]
  exact List.countP_congr fun s _ => by rw [Function.comp_apply, Bool.and_comm]

theorem countBelow_crossings_ofTriangle (ts : List (Triangle K)) (p : Vec2 K) (z : K) :
    countBelow (crossings (ts.map ofTriangle) p) z =
      ts.countP fun t => t.isCrossed p && decide ((ofTriangle t).height < z) := by
  rw [countBelow_crossings, List.countP_map]
  rfl

theorem mem_crossings_ofTriangle {ts : List (Triangle K)} {p : Vec2 K} {h : K} :
    h ∈ crossings (ts.map ofTriangle) p ↔
      ∃ t ∈ ts, t.isCrossed p = true ∧ (ofTriangle t).height = h := by
  simp only [crossings, List.mem_map, List.mem_filter, Triangle.isCrossed]
  constructor
  · rintro ⟨s, ⟨⟨t, ht, rfl⟩, hs⟩, rfl⟩
    exact ⟨t, ht, hs, rfl⟩
  · rintro ⟨t, ht, hs, rfl⟩
    exact ⟨ofTriangle t, ⟨⟨t, ht, rfl⟩, hs⟩, rfl⟩

theorem exists_of_odd_countBelow {heights : List K} {z : K} (heven : Even heights.length)
    (hodd : Odd (countBelow heights z)) : (∃ h ∈ heights, h < z) ∧ ∃ h ∈ heights, z ≤ h := by
  constructor
  · obtain ⟨h, hh, hz⟩ := List.countP_pos_iff.mp hodd.pos
    exact ⟨h, hh, of_decide_eq_true hz⟩
  · by_contra hall
    push Not at hall
    have hlen : countBelow heights z = heights.length :=
      List.countP_eq_length.mpr fun h hh => decide_eq_true (hall h hh)
    rw [hlen] at hodd
    exact Nat.not_even_iff_odd.mpr hodd heven

theorem height_ofTriangle (t : Triangle K) :
    (ofTriangle t).height = (t.a.z + t.b.z + t.c.z) / 3 := by
  change (t.a.z + t.b.z + t.c.z) / 3.0 = _
  norm_num

theorem exists_corner_of_height_lt {t : Triangle K} {z : K} (h : (ofTriangle t).height < z) :
    t.a.z < z ∨ t.b.z < z ∨ t.c.z < z := by
  by_contra hn
  push Not at hn
  obtain ⟨ha, hb, hc⟩ := hn
  have hmean : z ≤ (t.a.z + t.b.z + t.c.z) / 3.0 := by linarith
  exact absurd h (not_lt.mpr hmean)

theorem exists_corner_of_le_height {t : Triangle K} {z : K} (h : z ≤ (ofTriangle t).height) :
    z ≤ t.a.z ∨ z ≤ t.b.z ∨ z ≤ t.c.z := by
  by_contra hn
  push Not at hn
  obtain ⟨ha, hb, hc⟩ := hn
  have hmean : (t.a.z + t.b.z + t.c.z) / 3.0 < z := by linarith
  exact absurd hmean (not_lt.mpr h)

end Shadow

namespace Mesh

/-- A height between two triangles that the ray through a point of the plane crosses. -/
def Encloses (m : Mesh K) (p : Vec2 K) (z : K) : Prop :=
  (∃ t ∈ m.triangles, t.isCrossed p = true ∧ (Shadow.ofTriangle t).height < z) ∧
    ∃ t ∈ m.triangles, t.isCrossed p = true ∧ z ≤ (Shadow.ofTriangle t).height

theorem not_encloses_of_outside {m : Mesh K} {p : Vec2 K} {z : K}
    (h : (∀ u ∈ m.vertices, z ≤ u.z) ∨ ∀ u ∈ m.vertices, u.z < z) : ¬m.Encloses p z := by
  rintro ⟨⟨t, ht, -, hlt⟩, u, hu, -, hle⟩
  rcases h with hbelow | habove
  · obtain ⟨ha, hb, hc⟩ := corners_mem_vertices ht
    rcases Shadow.exists_corner_of_height_lt hlt with h | h | h
    · exact absurd (hbelow _ ha) (not_le.mpr h)
    · exact absurd (hbelow _ hb) (not_le.mpr h)
    · exact absurd (hbelow _ hc) (not_le.mpr h)
  · obtain ⟨ha, hb, hc⟩ := corners_mem_vertices hu
    rcases Shadow.exists_corner_of_le_height hle with h | h | h
    · exact absurd (habove _ ha) (not_lt.mpr h)
    · exact absurd (habove _ hb) (not_lt.mpr h)
    · exact absurd (habove _ hc) (not_lt.mpr h)

end Mesh

namespace Voxels

/-- What all cells of a column have in common: their centers as seen along the third axis. -/
def columnCenter (dx : K) (origin : Vec3 K) (x y : ℕ) : Vec2 K :=
  ⟨centerAlong dx origin.x x, centerAlong dx origin.y y⟩

/-- A cell is inside when an odd number of triangles is crossed with mean heights below its
center. -/
theorem isOccupied_ofMesh_iff {m : Mesh K} {n : ℕ} {dx : K} {origin : Vec3 K} {c : Cell}
    (hc : c.x < n ∧ c.y < n ∧ c.z < n) {q : Triangle K → Bool}
    (hq : ∀ t ∈ m.triangles, q t = true ↔ t.isCrossed (columnCenter dx origin c.x c.y) = true ∧
      (Shadow.ofTriangle t).height < centerAlong dx origin.z c.z) :
    (ofMesh m n dx origin).isOccupied c = true ↔ Odd (m.triangles.countP q) := by
  have hcount : m.triangles.countP q = Shadow.countBelow
      (columnCrossings (m.triangles.map Shadow.ofTriangle) dx origin c.x c.y)
      (centerAlong dx origin.z c.z) := by
    refine Eq.trans (List.countP_congr fun t ht => ?_)
      (Shadow.countBelow_crossings_ofTriangle _ _ _).symm
    rw [hq t ht, Bool.and_eq_true, decide_eq_true_eq]
    rfl
  rw [hcount]
  exact (isOccupied_ofShadows_iff _ n dx origin c).trans (and_iff_right hc)

theorem encloses_of_isOccupied {m : Mesh K} {n : ℕ} {dx : K} {origin : Vec3 K} {x y z : ℕ}
    (heven : Even (m.triangles.countP (·.isCrossed (columnCenter dx origin x y))))
    (h : (ofMesh m n dx origin).isOccupied ⟨x, y, z⟩ = true) :
    m.Encloses (columnCenter dx origin x y) (centerAlong dx origin.z z) := by
  obtain ⟨-, hodd⟩ := (isOccupied_ofShadows_iff _ n dx origin ⟨x, y, z⟩).mp h
  rw [← Shadow.length_crossings_ofTriangle] at heven
  obtain ⟨⟨lo, hlo, hlt⟩, hi, hhi, hle⟩ := Shadow.exists_of_odd_countBelow heven hodd
  obtain ⟨t, htm, htc, rfl⟩ := Shadow.mem_crossings_ofTriangle.mp hlo
  obtain ⟨u, hum, huc, rfl⟩ := Shadow.mem_crossings_ofTriangle.mp hhi
  exact ⟨⟨t, htm, htc, hlt⟩, u, hum, huc, hle⟩

/-- A watertight mesh leaks in no column: every cell inside is between two triangles that are
crossed. -/
theorem encloses_of_isWatertight {m : Mesh K} (hm : m.WellIndexed)
    (hw : IsWatertight m.triangles) (ht : ∀ t ∈ m.triangles, ¬t.IsPoint) (n : ℕ) (dx : K)
    (origin : Vec3 K) (x y : ℕ)
    (hp : ∀ t ∈ m.triangles, ¬t.InLine (columnCenter dx origin x y)) :
    Even (m.triangles.countP (·.isCrossed (columnCenter dx origin x y))) ∧
      ∃ v, ofFaces m.vertices m.faces n dx origin = .ok v ∧ ∀ z : ℕ,
        (v.isOccupied ⟨x, y, z⟩ = true →
          m.Encloses (columnCenter dx origin x y) (centerAlong dx origin.z z)) ∧
        ((∀ u ∈ m.vertices, centerAlong dx origin.z z ≤ u.z) ∨
          (∀ u ∈ m.vertices, u.z < centerAlong dx origin.z z) →
            v.isOccupied ⟨x, y, z⟩ = false) := by
  have heven := hw.even_countP_isCrossed ht hp
  refine ⟨heven, ofMesh m n dx origin, ofFaces_of_wellIndexed hm n dx origin, fun z => ?_⟩
  refine ⟨encloses_of_isOccupied heven, fun houtside => ?_⟩
  rw [Bool.eq_false_iff]
  exact fun h => Mesh.not_encloses_of_outside houtside (encloses_of_isOccupied heven h)

theorem encloses_cuboid :
    let m : Mesh ℚ := Mesh.cuboid ⟨0, ⟨1, 3 / 4, 1⟩⟩ 0
    Even (m.triangles.countP (·.isCrossed (columnCenter (1 / 2) 0 0 0))) ∧
      ∃ v, ofFaces m.vertices m.faces 2 (1 / 2) 0 = .ok v ∧ ∀ z : ℕ,
        (v.isOccupied ⟨0, 0, z⟩ = true →
          m.Encloses (columnCenter (1 / 2) 0 0 0) (centerAlong (1 / 2) 0 z)) ∧
        ((∀ u ∈ m.vertices, centerAlong (1 / 2) 0 z ≤ u.z) ∨
          (∀ u ∈ m.vertices, u.z < centerAlong (1 / 2) 0 z) →
            v.isOccupied ⟨0, 0, z⟩ = false) :=
  encloses_of_isWatertight (by decide +kernel) (by decide +kernel) (by decide +kernel) 2 (1 / 2)
    0 0 0 (by decide +kernel)

end Voxels
end MaterialPoint
