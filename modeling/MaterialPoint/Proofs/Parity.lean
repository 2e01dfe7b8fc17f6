import MaterialPoint.Proofs.Watertight

/-! Cells told one by one. Triangles with the same corners cancel in pairs. -/
namespace MaterialPoint
open scoped Exact

section Cells
variable {R : Type} [Scalar R]

/-- Whether the ray that comes up to a point has crossed a triangle, at its mean height. -/
def Triangle.isPassed (x : Vec3 R) (t : Triangle R) : Bool :=
  (Shadow.ofTriangle t).covers x.shadow && decide ((Shadow.ofTriangle t).height < x.z)

namespace Voxels

theorem countBelow_columnCrossings (ts : List (Triangle R)) (dx : R) (origin : Vec3 R) (c : Cell) :
    Shadow.countBelow (columnCrossings (ts.map Shadow.ofTriangle) dx origin c.x c.y)
        (centerAlong dx origin.z c.z) =
      ts.countP (·.isPassed ⟨centerAlong dx origin.x c.x, centerAlong dx origin.y c.y,
        centerAlong dx origin.z c.z⟩) := by
  rw [columnCrossings, Shadow.countBelow_crossings, List.countP_map]
  rfl

theorem isOccupied_ofMesh_iff_isPassed (m : Mesh R) (n : ℕ) (dx : R) (origin : Vec3 R) (c : Cell) :
    (ofMesh m n dx origin).isOccupied c = true ↔ (c.x < n ∧ c.y < n ∧ c.z < n) ∧
      Odd (m.triangles.countP (·.isPassed ⟨centerAlong dx origin.x c.x,
        centerAlong dx origin.y c.y, centerAlong dx origin.z c.z⟩)) := by
  rw [← countBelow_columnCrossings]
  exact isOccupied_ofShadows_iff _ n dx origin c

/-- A cell is inside when an odd number of triangles is crossed below its center, in any
arithmetic. -/
theorem ofFaces_cell_by_cell {m : Mesh R} (hm : m.WellIndexed) (n : ℕ) (dx : R)
    (origin : Vec3 R) :
    ∃ v, ofFaces m.vertices m.faces n dx origin = .ok v ∧
      (fits n = true → ofFaces? m.vertices m.faces n dx origin = some (.ok v)) ∧
      (v.resolution = n ∧ v.cellSize = dx ∧ v.origin = origin) ∧
      (∀ c, v.isOccupied c = true ↔ (c.x < n ∧ c.y < n ∧ c.z < n) ∧
        Odd (m.triangles.countP (·.isPassed (v.center c)))) ∧
      (∀ c, c ∈ v.occupiedCells ↔ v.isOccupied c = true) ∧
      (v.occupiedCells.Pairwise fun c d => number n c < number n d) ∧
      v.count = v.occupiedCells.length := by
  have hok := ofFaces_of_wellIndexed hm n dx origin
  have hcomplete : (ofMesh m n dx origin).IsComplete := isComplete_ofShadows _ n dx origin
  refine ⟨ofMesh m n dx origin, hok, fun hfits => ?_, ⟨rfl, rfl, rfl⟩,
    isOccupied_ofMesh_iff_isPassed m n dx origin, mem_occupiedCells_iff hcomplete,
    pairwise_occupiedCells (ofMesh m n dx origin), (length_occupiedCells _).symm⟩
  rw [ofFaces?, mapM_shadow_eq_ok hm]
  exact (if_pos hfits).trans (congrArg some hok)

end Voxels
end Cells

namespace Flake

/-- A flat tetrahedron that is longest along the first axis. -/
def mesh : Mesh ℚ where
  vertices := #[⟨0, 0, 0⟩, ⟨2, 0, 0⟩, ⟨0, 1 / 2, 0⟩, ⟨0, 0, 1⟩]
  normals := none
  faces := [⟨0, 2, 1⟩, ⟨0, 1, 3⟩, ⟨0, 3, 2⟩, ⟨1, 2, 3⟩]

/-- Two cells along the first axis are inside, and none along the others. -/
theorem occupiedCells_mesh : mesh.WellIndexed ∧
    ∃ v, Voxels.ofFaces mesh.vertices mesh.faces 2 (1 / 2) 0 = .ok v ∧
      v.isOccupied ⟨1, 0, 0⟩ = true ∧ v.isOccupied ⟨0, 1, 0⟩ = false ∧
      ⟨1, 0, 0⟩ ∈ v.occupiedCells ∧ v.count = 2 := by
  have hwell : mesh.WellIndexed := by decide +kernel
  obtain ⟨v, hv, -, -, hiff, hmem, -, hcount⟩ := Voxels.ofFaces_cell_by_cell hwell 2 (1 / 2) 0
  obtain rfl : Voxels.ofMesh mesh 2 (1 / 2) 0 = v :=
    Except.ok.inj ((Voxels.ofFaces_of_wellIndexed hwell 2 (1 / 2) 0).symm.trans hv)
  have hnear := (hiff ⟨1, 0, 0⟩).mpr (by decide +kernel)
  have hfar := mt (hiff ⟨0, 1, 0⟩).mp (by decide +kernel)
  refine ⟨hwell, _, hv, hnear, Bool.eq_false_iff.mpr hfar, (hmem _).mpr hnear, ?_⟩
  rw [hcount]
  decide +kernel

end Flake

namespace Triangle
section Corners
variable {R : Type}

/-- The corners of a triangle without their order. -/
def cornerSet (t : Triangle R) : Multiset (Vec3 R) := {t.a, t.b, t.c}

def rotate (t : Triangle R) : Triangle R := ⟨t.b, t.c, t.a⟩

def reverse (t : Triangle R) : Triangle R := ⟨t.a, t.c, t.b⟩

theorem cornerSet_rotate (t : Triangle R) : t.rotate.cornerSet = t.cornerSet :=
  Multiset.coe_eq_coe.mpr (List.perm_append_singleton t.a [t.b, t.c])

/-- What rotations and reversal keep is the same for all triangles with these corners. -/
theorem eq_of_cornerSet_eq {α : Type} {f : Triangle R → α} (hrotate : ∀ t, f t.rotate = f t)
    (hreverse : ∀ t, f t.reverse = f t) {t u : Triangle R} (h : t.cornerSet = u.cornerSet) :
    f t = f u := by
  have hfirst {u : Triangle R} (ha : t.a = u.a) (h : t.cornerSet = u.cornerSet) : f t = f u := by
    have hrest : [t.b, t.c].Perm [u.b, u.c] := by
      have hall : [t.a, t.b, t.c].Perm [u.a, u.b, u.c] := Multiset.coe_eq_coe.mp h
      rw [ha] at hall
      exact hall.cons_inv
    rcases List.perm_pair.mp hrest with hsame | hswap
    · obtain ⟨hb, hc⟩ : t.b = u.b ∧ t.c = u.c := by simpa using hsame
      rw [Triangle.ext ha hb hc]
    · obtain ⟨hb, hc⟩ : t.b = u.c ∧ t.c = u.b := by simpa using hswap
      rw [← hreverse u, Triangle.ext (y := u.reverse) ha hb hc]
  have hmem : t.a ∈ u.cornerSet := by
    rw [← h]
    exact Multiset.mem_cons_self t.a {t.b, t.c}
  simp only [cornerSet, Multiset.insert_eq_cons, Multiset.mem_cons, Multiset.mem_singleton] at hmem
  rcases hmem with ha | hb | hc
  · exact hfirst ha h
  · rw [← hrotate u]
    exact hfirst hb (h.trans (cornerSet_rotate u).symm)
  · rw [← hrotate u, ← hrotate u.rotate]
    exact hfirst hc (h.trans ((cornerSet_rotate u).symm.trans (cornerSet_rotate u.rotate).symm))

end Corners
end Triangle

section Agreement
variable {R : Type} [DecidableEq R]

/-- Every set of corners belongs to as many triangles of one list as of the other, up to an even
number. -/
def AgreeModTwo (ts us : List (Triangle R)) : Prop :=
  ∀ s, (ts.map Triangle.cornerSet).count s ≡ (us.map Triangle.cornerSet).count s [MOD 2]

theorem agreeModTwo_iff (ts us : List (Triangle R)) : AgreeModTwo ts us ↔
    ∀ t ∈ ts ++ us, (ts.map Triangle.cornerSet).count t.cornerSet ≡
      (us.map Triangle.cornerSet).count t.cornerSet [MOD 2] := by
  refine ⟨fun h t _ => h t.cornerSet, fun h s => ?_⟩
  by_cases hs : s ∈ (ts ++ us).map Triangle.cornerSet
  · obtain ⟨t, ht, rfl⟩ := List.mem_map.mp hs
    exact h t ht
  · rw [List.map_append, List.mem_append, not_or] at hs
    rw [List.count_eq_zero_of_not_mem hs.1, List.count_eq_zero_of_not_mem hs.2]

instance (ts us : List (Triangle R)) : Decidable (AgreeModTwo ts us) :=
  decidable_of_iff' _ (agreeModTwo_iff ts us)

end Agreement

theorem odd_countP_iff_of_modEq {α β : Type} [DecidableEq β] {key : α → β} {q : α → Bool}
    {l m : List α} (hq : ∀ a ∈ l ++ m, ∀ b ∈ l ++ m, key a = key b → q a = q b)
    (h : ∀ k, (l.map key).count k ≡ (m.map key).count k [MOD 2]) :
    Odd (l.countP q) ↔ Odd (m.countP q) := by
  let r (k : β) : Bool := (l ++ m).any fun a => decide (key a = k) && q a
  have hr : ∀ a ∈ l ++ m, r (key a) = q a := by
    intro a ha
    rw [Bool.eq_iff_iff]
    simp only [r, List.any_eq_true, Bool.and_eq_true, decide_eq_true_eq]
    constructor
    · rintro ⟨b, hb, hkey, hqb⟩
      rwa [← hq b hb a ha hkey]
    · exact fun hqa => ⟨a, ha, rfl, hqa⟩
  have hcount : ((l ++ m).map key).countP r = (l ++ m).countP q := by
    rw [List.countP_map]
    exact List.countP_congr fun a ha => by rw [Function.comp_apply, hr a ha]
  have heven : Even (((l ++ m).map key).countP r) := by
    refine even_countP_of_even_count fun k _ => ?_
    have hk := h k
    rw [List.map_append, List.count_append, Nat.even_add, Nat.even_iff, Nat.even_iff]
    rw [Nat.ModEq] at hk
    rw [hk]
  rw [hcount, List.countP_append, Nat.even_add'] at heven
  exact heven

variable {K : Type} [Field K] [LinearOrder K] [IsStrictOrderedRing K] [FloorRing K]

namespace Vec2

theorem OnLine.symm {a b p : Vec2 K} (h : OnLine a b p) : OnLine b a p := by
  obtain ⟨t, rfl⟩ := h
  refine ⟨1 - t, Vec2.ext ?_ ?_⟩
  · dsimp only
    ring
  · dsimp only
    ring

theorem ne_and_onLine_comm (a b p : Vec2 K) : a ≠ b ∧ OnLine a b p ↔ b ≠ a ∧ OnLine b a p :=
  and_congr ne_comm ⟨OnLine.symm, OnLine.symm⟩

end Vec2

namespace Triangle
variable {t u : Triangle K} {p : Vec2 K} {x : Vec3 K}

theorem inLine_rotate : t.rotate.InLine p ↔ t.InLine p := by
  unfold InLine rotate
  tauto

theorem inLine_reverse : t.reverse.InLine p ↔ t.InLine p := by
  unfold InLine reverse
  rw [Vec2.ne_and_onLine_comm t.a.shadow t.c.shadow, Vec2.ne_and_onLine_comm t.c.shadow t.b.shadow,
    Vec2.ne_and_onLine_comm t.b.shadow t.a.shadow]
  tauto

theorem isCrossed_rotate : t.rotate.isCrossed p = t.isCrossed p := by
  simp only [isCrossed, Shadow.covers, Shadow.ofTriangle, rotate]
  cases Shadow.sees p t.a.shadow t.b.shadow <;> cases Shadow.sees p t.b.shadow t.c.shadow <;>
    cases Shadow.sees p t.c.shadow t.a.shadow <;> rfl

theorem isCrossed_reverse (hp : ¬t.InLine p) : t.reverse.isCrossed p = t.isCrossed p := by
  by_cases ht : t.IsPoint
  · obtain ⟨hab, hbc⟩ := ht
    simp only [isCrossed, Shadow.ofTriangle, reverse, Shadow.covers, hab, hbc]
  · have ht' : ¬t.reverse.IsPoint := fun h => ht ⟨h.1.trans h.2, h.2.symm⟩
    rw [isCrossed_eq_xor ht' (inLine_reverse.not.mpr hp), isCrossed_eq_xor ht hp]
    simp only [reverse]
    -- The sides are the same without direction, in another order.
    rw [Sym2.eq_swap (a := t.a) (b := t.c), Sym2.eq_swap (a := t.c) (b := t.b),
      Sym2.eq_swap (a := t.b) (b := t.a), Bool.xor_comm, Bool.xor_comm (crossesEdge p s(t.c, t.a)),
      Bool.xor_assoc]

theorem height_rotate : (Shadow.ofTriangle t.rotate).height = (Shadow.ofTriangle t).height := by
  rw [Shadow.height_ofTriangle, Shadow.height_ofTriangle, rotate]
  ring

theorem height_reverse : (Shadow.ofTriangle t.reverse).height = (Shadow.ofTriangle t).height := by
  rw [Shadow.height_ofTriangle, Shadow.height_ofTriangle, reverse]
  ring

theorem isPassed_eq (x : Vec3 K) (t : Triangle K) : t.isPassed x =
    (t.isCrossed x.shadow && decide ((Shadow.ofTriangle t).height < x.z)) := rfl

theorem isPassed_eq_of_cornerSet_eq (h : t.cornerSet = u.cornerSet) (ht : ¬t.InLine x.shadow)
    (hu : ¬u.InLine x.shadow) : t.isPassed x = u.isPassed x := by
  let f (t : Triangle K) : Option Bool := if t.InLine x.shadow then none else some (t.isPassed x)
  have hrotate (t : Triangle K) : f t.rotate = f t := by
    simp only [f, inLine_rotate, isPassed_eq, isCrossed_rotate, height_rotate]
  have hreverse (t : Triangle K) : f t.reverse = f t := by
    simp only [f, inLine_reverse, isPassed_eq, height_reverse]
    split_ifs with hline
    · rfl
    · rw [isCrossed_reverse hline]
  have hf : f t = f u := eq_of_cornerSet_eq hrotate hreverse h
  simpa only [f, if_neg ht, if_neg hu, Option.some.injEq] using hf

end Triangle

namespace Voxels

/-- The cells inside depend on the triangles only without the order of their corners and up to
pairs. -/
theorem isOccupied_eq_of_agreeModTwo {m₁ m₂ : Mesh K} (h₁ : m₁.WellIndexed)
    (h₂ : m₂.WellIndexed) (h : AgreeModTwo m₁.triangles m₂.triangles) (n : ℕ) (dx : K)
    (origin : Vec3 K) {c : Cell}
    (hp : ∀ t ∈ m₁.triangles ++ m₂.triangles, ¬t.InLine (columnCenter dx origin c.x c.y)) :
    ∃ v w, ofFaces m₁.vertices m₁.faces n dx origin = .ok v ∧
      ofFaces m₂.vertices m₂.faces n dx origin = .ok w ∧ v.isOccupied c = w.isOccupied c := by
  refine ⟨ofMesh m₁ n dx origin, ofMesh m₂ n dx origin, ofFaces_of_wellIndexed h₁ n dx origin,
    ofFaces_of_wellIndexed h₂ n dx origin, ?_⟩
  rw [Bool.eq_iff_iff, isOccupied_ofMesh_iff_isPassed, isOccupied_ofMesh_iff_isPassed]
  refine and_congr_right fun _ => ?_
  exact odd_countP_iff_of_modEq (fun t ht u hu hcorners =>
    Triangle.isPassed_eq_of_cornerSet_eq hcorners (hp t ht) (hp u hu)) h

end Voxels

namespace Flake

/-- The tetrahedron reordered, with two triangles turned and one more that is there twice. -/
def folded : Mesh ℚ where
  vertices := mesh.vertices.push ⟨3 / 4, 1, 1 / 8⟩
  normals := none
  faces := [⟨3, 1, 2⟩, ⟨0, 1, 4⟩, ⟨0, 1, 2⟩, ⟨0, 3, 2⟩, ⟨1, 0, 4⟩, ⟨0, 1, 3⟩]

theorem isOccupied_folded : AgreeModTwo mesh.triangles folded.triangles ∧
    ∃ v w, Voxels.ofFaces mesh.vertices mesh.faces 2 (1 / 2) 0 = .ok v ∧
      Voxels.ofFaces folded.vertices folded.faces 2 (1 / 2) 0 = .ok w ∧
      v.isOccupied ⟨1, 0, 0⟩ = true ∧ w.isOccupied ⟨1, 0, 0⟩ = true := by
  have hwell : mesh.WellIndexed := by decide +kernel
  have hfolded : folded.WellIndexed := by decide +kernel
  have hagree : AgreeModTwo mesh.triangles folded.triangles := by decide +kernel
  obtain ⟨v, w, hv, hw, heq⟩ := Voxels.isOccupied_eq_of_agreeModTwo hwell hfolded hagree 2 (1 / 2) 0
    (c := ⟨1, 0, 0⟩) (by decide +kernel)
  obtain rfl : Voxels.ofMesh mesh 2 (1 / 2) 0 = v :=
    Except.ok.inj ((Voxels.ofFaces_of_wellIndexed hwell 2 (1 / 2) 0).symm.trans hv)
  have hmesh : (Voxels.ofMesh mesh 2 (1 / 2) 0).isOccupied ⟨1, 0, 0⟩ = true := by decide +kernel
  exact ⟨hagree, _, w, hv, hw, hmesh, heq.symm.trans hmesh⟩

end Flake
end MaterialPoint
