import MaterialPoint.Proofs.Barycentric
import MaterialPoint.Proofs.Indexing

/-! Closed boxes fill their own cells: a ray beside the lines crosses the bottom and the top
once. -/
namespace MaterialPoint
open scoped Exact

variable {K : Type} [Field K] [LinearOrder K] [IsStrictOrderedRing K] [FloorRing K]

theorem countP_gaps {mark : ℕ → K} (hmark : ∀ i, mark i < mark (i + 1)) {x : K} {n : ℕ}
    (hx : ∀ i ≤ n, x ≠ mark i) :
    (List.range n).countP (fun i => x ∈ Set.Ioo (mark i) (mark (i + 1))) =
      if x ∈ Set.Ioo (mark 0) (mark n) then 1 else 0 := by
  induction n with
  | zero => simp
  | succ n ih =>
    have hmono : mark 0 ≤ mark n := (strictMono_nat_of_lt_succ hmark).monotone (Nat.zero_le n)
    rw [List.range_succ, List.countP_append, List.countP_singleton,
      ih fun i hi => hx i (Nat.le_succ_of_le hi)]
    simp only [decide_eq_true_eq, Set.mem_Ioo]
    rcases lt_or_gt_of_ne (hx n (Nat.le_succ n)) with hlt | hgt
    · have hnext : x < mark (n + 1) := hlt.trans (hmark n)
      simp only [hlt, hnext, and_true, hlt.le.not_gt, if_false, Nat.add_zero]
    · have hstart : mark 0 < x := hmono.trans_lt hgt
      simp only [hgt, hstart, true_and, hgt.le.not_gt, if_false, Nat.zero_add]

theorem sum_map_ite_eq_countP {α : Type} (q : α → Prop) [DecidablePred q] (l : List α) :
    (l.map fun a => if q a then 1 else 0).sum = l.countP fun a => q a := by
  induction l with
  | nil => rfl
  | cons a l ih =>
    rw [List.map_cons, List.sum_cons, ih, List.countP_cons, Nat.add_comm]
    simp only [decide_eq_true_eq]

namespace Vec2

instance (a b p : Vec2 K) : Decidable (OnLine a b p) :=
  decidable_of_iff (if a = b then p = a else (a - p).perpDot (b - p) = 0) <| by
    split_ifs with h
    · subst h
      constructor
      · rintro rfl
        exact ⟨0, by simp⟩
      · rintro ⟨t, rfl⟩
        simp
    · exact (onLine_iff h p).symm

end Vec2
namespace Triangle

theorem isCrossed_iff_of_area_pos {t : Triangle K} (h : 0 < t.area) (p : Vec2 K) :
    t.isCrossed p = true ↔ 0 < (t.areas p).x ∧ 0 < (t.areas p).y ∧ 0 < (t.areas p).z := by
  rw [isCrossed_iff_areas, or_iff_left]
  rintro ⟨hx, hy, hz⟩
  have hsum := t.sum_areas p
  linarith

/-- Off the lines through its sides, a triangle is crossed whichever way it turns. -/
theorem isCrossed_turn {t : Triangle K} {p : Vec2 K}
    (h : (t.areas p).x ≠ 0 ∧ (t.areas p).y ≠ 0 ∧ (t.areas p).z ≠ 0) :
    isCrossed p ⟨t.a, t.c, t.b⟩ = isCrossed p t := by
  obtain ⟨hbc, hca, hab⟩ := h
  simp only [isCrossed, Shadow.covers, Shadow.ofTriangle]
  rw [Shadow.sees_swap hbc, Shadow.sees_swap hca, Shadow.sees_swap hab]
  cases Shadow.sees p t.a.shadow t.b.shadow <;> cases Shadow.sees p t.b.shadow t.c.shadow <;>
    cases Shadow.sees p t.c.shadow t.a.shadow <;> rfl

/-- A triangle that is seen as part of a line is crossed by no ray beside the line. -/
theorem not_isCrossed_of_line {t : Triangle K} {p : Vec2 K} {α β γ : K} (ht : ¬t.IsPoint)
    (ha : α * t.a.x + β * t.a.y = γ) (hb : α * t.b.x + β * t.b.y = γ)
    (hc : α * t.c.x + β * t.c.y = γ) (hp : α * p.x + β * p.y ≠ γ) : ¬t.isCrossed p = true := by
  intro hcross
  have hline : ¬t.InLine p := by
    rintro (⟨-, s, rfl⟩ | ⟨-, s, rfl⟩ | ⟨-, s, rfl⟩)
    · exact hp (by simp only [Vec3.shadow]; linear_combination (1 - s) * ha + s * hb)
    · exact hp (by simp only [Vec3.shadow]; linear_combination (1 - s) * hb + s * hc)
    · exact hp (by simp only [Vec3.shadow]; linear_combination (1 - s) * hc + s * ha)
  have hbalance : t.area * (α * p.x + β * p.y) = (t.areas p).x * (α * t.a.x + β * t.a.y) +
      (t.areas p).y * (α * t.b.x + β * t.b.y) + (t.areas p).z * (α * t.c.x + β * t.c.y) := by
    rw [areas_def, area]
    ring
  have hzero : t.area * (α * p.x + β * p.y - γ) = 0 := by
    rw [mul_sub, hbalance, ha, hb, hc, ← t.sum_areas p]
    ring
  exact area_ne_zero_of_isCrossed ht hline hcross
    ((mul_eq_zero.mp hzero).resolve_right (sub_ne_zero.mpr hp))

section Rectangle
variable {x₀ x₁ y₀ y₁ z : K} {p : Vec2 K}

/-- The half of a rectangle on the side of its diagonal where the first axis points. -/
def lower (x₀ x₁ y₀ y₁ z : K) : Triangle K := ⟨⟨x₀, y₀, z⟩, ⟨x₁, y₀, z⟩, ⟨x₁, y₁, z⟩⟩

/-- The half of a rectangle on the side of its diagonal where the second axis points. -/
def upper (x₀ x₁ y₀ y₁ z : K) : Triangle K := ⟨⟨x₀, y₀, z⟩, ⟨x₁, y₁, z⟩, ⟨x₀, y₁, z⟩⟩

theorem areas_lower : (lower x₀ x₁ y₀ y₁ z).areas p = ⟨(y₁ - y₀) * (x₁ - p.x),
    (y₁ - y₀) * (p.x - x₀) - (x₁ - x₀) * (p.y - y₀), (x₁ - x₀) * (p.y - y₀)⟩ := by
  rw [areas_def, lower, Vec3.mk.injEq]
  refine ⟨?_, ?_, ?_⟩ <;> ring

theorem areas_upper : (upper x₀ x₁ y₀ y₁ z).areas p = ⟨(x₁ - x₀) * (y₁ - p.y),
    (y₁ - y₀) * (p.x - x₀), (x₁ - x₀) * (p.y - y₀) - (y₁ - y₀) * (p.x - x₀)⟩ := by
  rw [areas_def, upper, Vec3.mk.injEq]
  refine ⟨?_, ?_, ?_⟩ <;> ring

theorem area_lower : (lower x₀ x₁ y₀ y₁ z).area = (x₁ - x₀) * (y₁ - y₀) := by
  rw [area, lower]
  ring

theorem area_upper : (upper x₀ x₁ y₀ y₁ z).area = (x₁ - x₀) * (y₁ - y₀) := by
  rw [area, upper]
  ring

theorem slope_ne_of_not_onLine (hx : x₀ < x₁) (hp : ¬Vec2.OnLine ⟨x₀, y₀⟩ ⟨x₁, y₁⟩ p) :
    (x₁ - x₀) * (p.y - y₀) ≠ (y₁ - y₀) * (p.x - x₀) := by
  have hne : (⟨x₀, y₀⟩ : Vec2 K) ≠ ⟨x₁, y₁⟩ := fun h => hx.ne (congrArg Vec2.x h)
  rw [Vec2.onLine_iff hne, Vec2.sub_perpDot_sub] at hp
  refine fun h => hp ?_
  dsimp only
  linear_combination h

variable (hx : x₀ < x₁) (hy : y₀ < y₁)
include hx hy

theorem isCrossed_lower_iff : (lower x₀ x₁ y₀ y₁ z).isCrossed p = true ↔
    p.x < x₁ ∧ (x₁ - x₀) * (p.y - y₀) < (y₁ - y₀) * (p.x - x₀) ∧ y₀ < p.y := by
  have hx' := sub_pos.mpr hx
  have hy' := sub_pos.mpr hy
  have harea : 0 < (lower x₀ x₁ y₀ y₁ z).area := by
    rw [area_lower]
    exact mul_pos hx' hy'
  rw [isCrossed_iff_of_area_pos harea, areas_lower]
  simp only [mul_pos_iff_of_pos_left hx', mul_pos_iff_of_pos_left hy', sub_pos]

theorem isCrossed_upper_iff : (upper x₀ x₁ y₀ y₁ z).isCrossed p = true ↔
    p.y < y₁ ∧ x₀ < p.x ∧ (y₁ - y₀) * (p.x - x₀) < (x₁ - x₀) * (p.y - y₀) := by
  have hx' := sub_pos.mpr hx
  have hy' := sub_pos.mpr hy
  have harea : 0 < (upper x₀ x₁ y₀ y₁ z).area := by
    rw [area_upper]
    exact mul_pos hx' hy'
  rw [isCrossed_iff_of_area_pos harea, areas_upper]
  simp only [mul_pos_iff_of_pos_left hx', mul_pos_iff_of_pos_left hy', sub_pos]

/-- Off its diagonal, a rectangle is crossed in one of its halves. -/
theorem countP_isCrossed_rectangle (hp : ¬Vec2.OnLine ⟨x₀, y₀⟩ ⟨x₁, y₁⟩ p) :
    [lower x₀ x₁ y₀ y₁ z, upper x₀ x₁ y₀ y₁ z].countP (·.isCrossed p) =
      if p.x ∈ Set.Ioo x₀ x₁ ∧ p.y ∈ Set.Ioo y₀ y₁ then 1 else 0 := by
  have hx' := sub_pos.mpr hx
  have hy' := sub_pos.mpr hy
  simp only [List.countP_cons, List.countP_nil, isCrossed_lower_iff hx hy,
    isCrossed_upper_iff hx hy]
  rcases lt_or_gt_of_ne (slope_ne_of_not_onLine hx hp) with hlow | hup
  · have hiff : (p.x < x₁ ∧ (x₁ - x₀) * (p.y - y₀) < (y₁ - y₀) * (p.x - x₀) ∧ y₀ < p.y) ↔
        p.x ∈ Set.Ioo x₀ x₁ ∧ p.y ∈ Set.Ioo y₀ y₁ := by
      constructor
      · rintro ⟨hpx, -, hpy⟩
        refine ⟨⟨?_, hpx⟩, hpy, ?_⟩
        · nlinarith
        · nlinarith
      · rintro ⟨⟨-, hpx⟩, hpy, -⟩
        exact ⟨hpx, hlow, hpy⟩
    simp only [hiff, hlow.not_gt, and_false, if_false, Nat.add_zero, Nat.zero_add]
  · have hiff : (p.y < y₁ ∧ x₀ < p.x ∧ (y₁ - y₀) * (p.x - x₀) < (x₁ - x₀) * (p.y - y₀)) ↔
        p.x ∈ Set.Ioo x₀ x₁ ∧ p.y ∈ Set.Ioo y₀ y₁ := by
      constructor
      · rintro ⟨hpy, hpx, -⟩
        refine ⟨⟨hpx, ?_⟩, ?_, hpy⟩
        · nlinarith
        · nlinarith
      · rintro ⟨⟨hpx, -⟩, -, hpy⟩
        exact ⟨hpy, hpx, hup⟩
    simp only [hiff, hup.not_gt, false_and, and_false, if_false, Nat.add_zero, Nat.zero_add]

theorem countP_isCrossed_turned_rectangle (hp : ¬Vec2.OnLine ⟨x₀, y₀⟩ ⟨x₁, y₁⟩ p)
    (hpx : p.x ≠ x₀ ∧ p.x ≠ x₁) (hpy : p.y ≠ y₀ ∧ p.y ≠ y₁) :
    [(⟨⟨x₀, y₀, z⟩, ⟨x₀, y₁, z⟩, ⟨x₁, y₁, z⟩⟩ : Triangle K),
        ⟨⟨x₀, y₀, z⟩, ⟨x₁, y₁, z⟩, ⟨x₁, y₀, z⟩⟩].countP (·.isCrossed p) =
      if p.x ∈ Set.Ioo x₀ x₁ ∧ p.y ∈ Set.Ioo y₀ y₁ then 1 else 0 := by
  have hdx := sub_ne_zero.mpr hx.ne'
  have hdy := sub_ne_zero.mpr hy.ne'
  have hslope := slope_ne_of_not_onLine hx hp
  have hlower : isCrossed p ⟨⟨x₀, y₀, z⟩, ⟨x₁, y₁, z⟩, ⟨x₁, y₀, z⟩⟩ =
      (lower x₀ x₁ y₀ y₁ z).isCrossed p := by
    refine isCrossed_turn (t := lower x₀ x₁ y₀ y₁ z) ?_
    rw [areas_lower]
    exact ⟨mul_ne_zero hdy (sub_ne_zero.mpr hpx.2.symm), sub_ne_zero.mpr hslope.symm,
      mul_ne_zero hdx (sub_ne_zero.mpr hpy.1)⟩
  have hupper : isCrossed p ⟨⟨x₀, y₀, z⟩, ⟨x₀, y₁, z⟩, ⟨x₁, y₁, z⟩⟩ =
      (upper x₀ x₁ y₀ y₁ z).isCrossed p := by
    refine isCrossed_turn (t := upper x₀ x₁ y₀ y₁ z) ?_
    rw [areas_upper]
    exact ⟨mul_ne_zero hdx (sub_ne_zero.mpr hpy.2.symm),
      mul_ne_zero hdy (sub_ne_zero.mpr hpx.1), sub_ne_zero.mpr hslope⟩
  rw [← countP_isCrossed_rectangle hx hy hp (z := z)]
  simp only [List.countP_cons, List.countP_nil, hlower, hupper]
  omega

end Rectangle
end Triangle
namespace Cuboid

/-- Where the rows of squares of a side meet along one axis. -/
def planeAt (lo hi : K) (steps i : ℕ) : K := Scalar.lerp lo hi ((i : K) / (steps : K))

theorem planeAt_def (lo hi : K) (steps i : ℕ) :
    planeAt lo hi steps i = lo + (hi - lo) * (i / steps) := rfl

theorem planeAt_zero (lo hi : K) (steps : ℕ) : planeAt lo hi steps 0 = lo := by
  rw [planeAt_def, Nat.cast_zero, zero_div, mul_zero, add_zero]

theorem planeAt_steps (lo hi : K) {steps : ℕ} (h : 0 < steps) :
    planeAt lo hi steps steps = hi := by
  have hne : (steps : K) ≠ 0 := Nat.cast_ne_zero.mpr h.ne'
  rw [planeAt_def, div_self hne, mul_one, add_sub_cancel]

theorem planeAt_lt_succ {lo hi : K} (hlo : lo < hi) {steps : ℕ} (h : 0 < steps) (i : ℕ) :
    planeAt lo hi steps i < planeAt lo hi steps (i + 1) := by
  have hpos : (0 : K) < steps := Nat.cast_pos.mpr h
  have hstep : (i : K) / steps < ((i + 1 : ℕ) : K) / steps :=
    div_lt_div_of_pos_right (Nat.cast_lt.mpr (Nat.lt_succ_self i)) hpos
  rw [planeAt_def, planeAt_def]
  exact add_lt_add_right (mul_lt_mul_of_pos_left hstep (sub_pos.mpr hlo)) lo

/-- Where a column and a row of squares of the bottom and the top meet, seen along the third
axis. -/
def knot (b : Bounds K) (steps i j : ℕ) : Vec2 K :=
  ⟨planeAt b.lo.x b.hi.x steps i, planeAt b.lo.y b.hi.y steps j⟩

/-- A point on no line between squares and on no diagonal of the bottom or the top. -/
structure IsClear (b : Bounds K) (steps : ℕ) (p : Vec2 K) : Prop where
  x_ne : ∀ i ≤ steps, p.x ≠ planeAt b.lo.x b.hi.x steps i
  y_ne : ∀ j ≤ steps, p.y ≠ planeAt b.lo.y b.hi.y steps j
  not_onLine : ∀ i < steps, ∀ j < steps,
    ¬Vec2.OnLine (knot b steps i j) (knot b steps (i + 1) (j + 1)) p

instance (b : Bounds K) (steps : ℕ) (p : Vec2 K) : Decidable (IsClear b steps p) :=
  decidable_of_iff ((∀ i ≤ steps, p.x ≠ planeAt b.lo.x b.hi.x steps i) ∧
      (∀ j ≤ steps, p.y ≠ planeAt b.lo.y b.hi.y steps j) ∧ ∀ i < steps, ∀ j < steps,
        ¬Vec2.OnLine (knot b steps i j) (knot b steps (i + 1) (j + 1)) p)
    ⟨fun ⟨hx, hy, h⟩ => ⟨hx, hy, h⟩, fun ⟨hx, hy, h⟩ => ⟨hx, hy, h⟩⟩

/-- Every extent of a box is positive. -/
def IsProper (b : Bounds K) : Prop := b.lo.x < b.hi.x ∧ b.lo.y < b.hi.y ∧ b.lo.z < b.hi.z

instance (b : Bounds K) : Decidable (IsProper b) := inferInstanceAs (Decidable (_ ∧ _))

theorem mem_sideTriangles_iff {b : Bounds K} {steps : ℕ} {side : Side} {t : Triangle K} :
    t ∈ sideTriangles b steps side ↔
      ∃ i < steps, ∃ j < steps, t ∈ squareTriangles b steps side i j := by
  simp only [sideTriangles, List.mem_flatMap, Prod.exists, mem_cells_iff]
  tauto

variable {b : Bounds K} {steps : ℕ} {p : Vec2 K}

theorem vertex_x (side : Bool) (i j : ℕ) : vertex b steps ⟨.x, side⟩ i j =
    ⟨if side then b.hi.x else b.lo.x, planeAt b.lo.y b.hi.y steps i,
      planeAt b.lo.z b.hi.z steps j⟩ := rfl

theorem vertex_y (side : Bool) (i j : ℕ) : vertex b steps ⟨.y, side⟩ i j =
    ⟨planeAt b.lo.x b.hi.x steps j, if side then b.hi.y else b.lo.y,
      planeAt b.lo.z b.hi.z steps i⟩ := rfl

theorem countP_cells (q r : ℕ → Prop) [DecidablePred q] [DecidablePred r] (n : ℕ) :
    (cells n).countP (fun c => q c.1 ∧ r c.2) =
      (List.range n).countP (fun i => q i) * (List.range n).countP (fun j => r j) := by
  have hrow : ∀ j, ((List.range n).map fun i => (i, j)).countP (fun c => q c.1 ∧ r c.2) =
      (List.range n).countP (fun i => q i) * if r j then 1 else 0 := by
    intro j
    rw [List.countP_map]
    by_cases hr : r j <;> simp [Function.comp_def, hr]
  rw [cells, List.countP_flatMap, ← sum_map_ite_eq_countP r, ← List.sum_map_mul_left]
  exact congrArg List.sum (List.map_congr_left fun j _ => hrow j)

theorem countP_isCrossed_squareTriangles (hb : IsProper b) (hp : IsClear b steps p) (side : Bool)
    {i j : ℕ} (hi : i < steps) (hj : j < steps) :
    (squareTriangles b steps ⟨.z, side⟩ i j).countP (·.isCrossed p) =
      if p.x ∈ Set.Ioo (planeAt b.lo.x b.hi.x steps i) (planeAt b.lo.x b.hi.x steps (i + 1)) ∧
        p.y ∈ Set.Ioo (planeAt b.lo.y b.hi.y steps j) (planeAt b.lo.y b.hi.y steps (j + 1))
      then 1 else 0 := by
  have hpos : 0 < steps := Nat.zero_lt_of_lt hi
  have hx := planeAt_lt_succ hb.1 hpos i
  have hy := planeAt_lt_succ hb.2.1 hpos j
  have hdiag := hp.not_onLine i hi j hj
  cases side with
  | true => exact Triangle.countP_isCrossed_rectangle hx hy hdiag
  | false =>
    exact Triangle.countP_isCrossed_turned_rectangle hx hy hdiag
      ⟨hp.x_ne i hi.le, hp.x_ne (i + 1) hi⟩ ⟨hp.y_ne j hj.le, hp.y_ne (j + 1) hj⟩

/-- The squares of the bottom tile it, and those of the top. -/
theorem countP_isCrossed_sideTriangles (hb : IsProper b) (hsteps : 0 < steps)
    (hp : IsClear b steps p) (side : Bool) :
    (sideTriangles b steps ⟨.z, side⟩).countP (·.isCrossed p) =
      if p.x ∈ Set.Ioo b.lo.x b.hi.x ∧ p.y ∈ Set.Ioo b.lo.y b.hi.y then 1 else 0 := by
  have hx := countP_gaps (planeAt_lt_succ hb.1 hsteps) hp.x_ne
  have hy := countP_gaps (planeAt_lt_succ hb.2.1 hsteps) hp.y_ne
  rw [planeAt_zero, planeAt_steps _ _ hsteps] at hx hy
  have hsquares : (cells steps).map (fun c =>
      (squareTriangles b steps ⟨.z, side⟩ c.1 c.2).countP (·.isCrossed p)) = _ :=
    List.map_congr_left fun c hc => countP_isCrossed_squareTriangles hb hp side
      (mem_cells_iff.mp hc).1 (mem_cells_iff.mp hc).2
  have hcells := countP_cells
    (fun i => p.x ∈ Set.Ioo (planeAt b.lo.x b.hi.x steps i) (planeAt b.lo.x b.hi.x steps (i + 1)))
    (fun j => p.y ∈ Set.Ioo (planeAt b.lo.y b.hi.y steps j) (planeAt b.lo.y b.hi.y steps (j + 1)))
    steps
  rw [hx, hy, ite_zero_mul_ite_zero] at hcells
  rw [sideTriangles, List.countP_flatMap]
  refine (congrArg List.sum hsquares).trans ?_
  rw [sum_map_ite_eq_countP]
  exact hcells

theorem not_isCrossed_of_mem_squareTriangles {side : Side} {i j : ℕ} {t : Triangle K} (α β γ : K)
    (ht : t ∈ squareTriangles b steps side i j)
    (hdiag : (vertex b steps side i j).shadow ≠ (vertex b steps side (i + 1) (j + 1)).shadow)
    (hline : ∀ i j, α * (vertex b steps side i j).x + β * (vertex b steps side i j).y = γ)
    (hp : α * p.x + β * p.y ≠ γ) : ¬t.isCrossed p = true := by
  rw [squareTriangles] at ht
  split at ht
  · rcases List.mem_pair.mp ht with rfl | rfl
    · exact Triangle.not_isCrossed_of_line (fun h => hdiag (h.1.trans h.2)) (hline _ _)
        (hline _ _) (hline _ _) hp
    · exact Triangle.not_isCrossed_of_line (fun h => hdiag h.1) (hline _ _) (hline _ _)
        (hline _ _) hp
  · rcases List.mem_pair.mp ht with rfl | rfl
    · exact Triangle.not_isCrossed_of_line (fun h => hdiag (h.1.trans h.2)) (hline _ _)
        (hline _ _) (hline _ _) hp
    · exact Triangle.not_isCrossed_of_line (fun h => hdiag h.1) (hline _ _) (hline _ _)
        (hline _ _) hp

theorem not_isCrossed_wall (hb : IsProper b) (hsteps : 0 < steps) (hp : IsClear b steps p)
    {side : Side} (hside : side.axis ≠ .z) {t : Triangle K}
    (ht : t ∈ sideTriangles b steps side) : ¬t.isCrossed p = true := by
  obtain ⟨i, -, j, -, ht⟩ := mem_sideTriangles_iff.mp ht
  have hxlo := hp.x_ne 0 (Nat.zero_le steps)
  have hxhi := hp.x_ne steps le_rfl
  have hylo := hp.y_ne 0 (Nat.zero_le steps)
  have hyhi := hp.y_ne steps le_rfl
  rw [planeAt_zero] at hxlo hylo
  rw [planeAt_steps _ _ hsteps] at hxhi hyhi
  obtain ⟨axis, isHigh⟩ := side
  cases axis with
  | x =>
    refine not_isCrossed_of_mem_squareTriangles 1 0 (if isHigh then b.hi.x else b.lo.x) ht
      (fun h => ?_) (fun i j => ?_) ?_
    · exact (planeAt_lt_succ hb.2.1 hsteps i).ne (congrArg Vec2.y h)
    · rw [vertex_x, one_mul, zero_mul, add_zero]
    · cases isHigh <;> simpa
  | y =>
    refine not_isCrossed_of_mem_squareTriangles 0 1 (if isHigh then b.hi.y else b.lo.y) ht
      (fun h => ?_) (fun i j => ?_) ?_
    · exact (planeAt_lt_succ hb.1 hsteps j).ne (congrArg Vec2.x h)
    · rw [vertex_y, one_mul, zero_mul, zero_add]
    · cases isHigh <;> simpa
  | z => exact absurd rfl hside

theorem height_of_mem_sideTriangles {side : Bool} {t : Triangle K}
    (ht : t ∈ sideTriangles b steps ⟨.z, side⟩) :
    (Shadow.ofTriangle t).height = if side then b.hi.z else b.lo.z := by
  obtain ⟨i, -, j, -, ht⟩ := mem_sideTriangles_iff.mp ht
  have hmean (z : K) : (z + z + z) / 3 = z := by ring
  rw [Shadow.height_ofTriangle]
  cases side <;> rcases List.mem_pair.mp ht with rfl | rfl <;> exact hmean _

/-- A ray that passes through the bottom or the top crosses it once, below the heights above it. -/
theorem countP_isCrossed_lt_sideTriangles (hb : IsProper b) (hsteps : 0 < steps)
    (hp : IsClear b steps p) (side : Bool) (z : K) :
    (sideTriangles b steps ⟨.z, side⟩).countP
        (fun t => t.isCrossed p && decide ((Shadow.ofTriangle t).height < z)) =
      if (p.x ∈ Set.Ioo b.lo.x b.hi.x ∧ p.y ∈ Set.Ioo b.lo.y b.hi.y) ∧
        (if side then b.hi.z else b.lo.z) < z then 1 else 0 := by
  by_cases hz : (if side then b.hi.z else b.lo.z) < z
  · simp only [hz, and_true]
    rw [← countP_isCrossed_sideTriangles hb hsteps hp side]
    refine List.countP_congr fun t ht => ?_
    rw [height_of_mem_sideTriangles ht, decide_eq_true hz, Bool.and_true]
  · rw [if_neg fun h => hz h.2]
    refine List.countP_eq_zero.mpr fun t ht => ?_
    rw [height_of_mem_sideTriangles ht, decide_eq_false hz, Bool.and_false]
    exact Bool.false_ne_true

theorem countP_isCrossed_lt_wall (hb : IsProper b) (hsteps : 0 < steps) (hp : IsClear b steps p)
    {side : Side} (hside : side.axis ≠ .z) (z : K) :
    (sideTriangles b steps side).countP
      (fun t => t.isCrossed p && decide ((Shadow.ofTriangle t).height < z)) = 0 := by
  refine List.countP_eq_zero.mpr fun t ht => ?_
  rw [Bool.and_eq_true]
  exact fun h => not_isCrossed_wall hb hsteps hp hside ht h.1

/-- A ray crosses an odd number of triangles below the heights between the bottom and the top. -/
theorem odd_countBelow_cuboid (hb : IsProper b) {subdivisions : ℕ}
    (hp : IsClear b (max subdivisions 1) p) (z : K) :
    Odd (Shadow.countBelow
        (Shadow.crossings ((Mesh.cuboid b subdivisions).triangles.map Shadow.ofTriangle) p) z) ↔
      (p.x ∈ Set.Ioo b.lo.x b.hi.x ∧ p.y ∈ Set.Ioo b.lo.y b.hi.y) ∧
        z ∈ Set.Ioc b.lo.z b.hi.z := by
  have hsteps : 0 < max subdivisions 1 := lt_of_lt_of_le Nat.zero_lt_one (le_max_right _ _)
  have hwall (side : Side) (hside : side.axis ≠ .z) :=
    countP_isCrossed_lt_wall hb hsteps hp hside z
  have hlevel (side : Bool) := countP_isCrossed_lt_sideTriangles hb hsteps hp side z
  rw [Shadow.countBelow_crossings_ofTriangle, Mesh.triangles_cuboid]
  simp only [sides, Axis.all, List.flatMap_cons, List.flatMap_nil, List.append_nil,
    List.cons_append, List.nil_append, List.countP_append]
  rw [hwall ⟨.x, false⟩ (by decide), hwall ⟨.x, true⟩ (by decide), hwall ⟨.y, false⟩ (by decide),
    hwall ⟨.y, true⟩ (by decide), hlevel false, hlevel true]
  have hz := hb.2.2
  by_cases hin : p.x ∈ Set.Ioo b.lo.x b.hi.x ∧ p.y ∈ Set.Ioo b.lo.y b.hi.y
  · simp only [hin, true_and, if_true, Bool.false_eq_true, if_false, Set.mem_Ioc]
    rcases lt_or_ge b.hi.z z with hhi | hhi
    · simp +decide [hhi, hz.trans hhi]
    · by_cases hlo : b.lo.z < z <;> simp [hhi, hhi.not_gt, hlo]
  · simp only [hin, false_and, if_false]
    simp

end Cuboid

namespace Voxels

/-- Off the lines between its squares, a box fills the cells with centers in it, however it is
cut. -/
theorem isOccupied_cuboid_iff {b : Bounds K} (hb : Cuboid.IsProper b) (n : ℕ) (dx : K)
    (origin : Vec3 K) :
    (∀ subdivisions c,
      Cuboid.IsClear b (max subdivisions 1) (columnCenter dx origin c.x c.y) →
        let v := ofMesh (Mesh.cuboid b subdivisions) n dx origin
        (v.isOccupied c = true ↔ (c.x < n ∧ c.y < n ∧ c.z < n) ∧
          (b.lo.x < (v.center c).x ∧ (v.center c).x < b.hi.x) ∧
          (b.lo.y < (v.center c).y ∧ (v.center c).y < b.hi.y) ∧
          b.lo.z < (v.center c).z ∧ (v.center c).z ≤ b.hi.z)) ∧
    ∀ subdivisions subdivisions',
      (∀ x < n, ∀ y < n, Cuboid.IsClear b (max subdivisions 1) (columnCenter dx origin x y) ∧
        Cuboid.IsClear b (max subdivisions' 1) (columnCenter dx origin x y)) →
      ofMesh (Mesh.cuboid b subdivisions) n dx origin =
        ofMesh (Mesh.cuboid b subdivisions') n dx origin := by
  have hcell : ∀ subdivisions c,
      Cuboid.IsClear b (max subdivisions 1) (columnCenter dx origin c.x c.y) →
        ((ofMesh (Mesh.cuboid b subdivisions) n dx origin).isOccupied c = true ↔
          (c.x < n ∧ c.y < n ∧ c.z < n) ∧
            ((columnCenter dx origin c.x c.y).x ∈ Set.Ioo b.lo.x b.hi.x ∧
              (columnCenter dx origin c.x c.y).y ∈ Set.Ioo b.lo.y b.hi.y) ∧
            centerAlong dx origin.z c.z ∈ Set.Ioc b.lo.z b.hi.z) := by
    intro subdivisions c hc
    rw [← Cuboid.odd_countBelow_cuboid hb hc]
    exact isOccupied_ofShadows_iff _ n dx origin c
  constructor
  · intro subdivisions c hc
    refine (hcell subdivisions c hc).trans (and_congr_right fun _ => ?_)
    exact and_assoc
  · intro subdivisions subdivisions' hclear
    refine eq_of_isOccupied (isComplete_ofShadows _ n dx origin)
      (isComplete_ofShadows _ n dx origin) rfl rfl rfl fun c => ?_
    by_cases hc : c.x < n ∧ c.y < n
    · obtain ⟨h₁, h₂⟩ := hclear c.x hc.1 c.y hc.2
      rw [Bool.eq_iff_iff, hcell subdivisions c h₁, hcell subdivisions' c h₂]
    · have hout : ∀ m : Mesh K, (ofMesh m n dx origin).isOccupied c = false := fun m => by
        rw [Bool.eq_false_iff]
        exact fun h => hc ⟨((isOccupied_ofShadows_iff _ n dx origin c).mp h).1.1,
          ((isOccupied_ofShadows_iff _ n dx origin c).mp h).1.2.1⟩
      rw [hout, hout]

/-- The same of boxes whose vertices have words for numbers, in blocks whose cells can be counted. -/
theorem isOccupied_cuboid?_iff {b : Bounds K} (hb : Cuboid.IsProper b) (n : ℕ) (dx : K)
    (origin : Vec3 K) :
    (∀ subdivisions, 6 * (max subdivisions 1 + 1) ^ 2 ≤ 2 ^ 32 →
      ∃ m, Mesh.cuboid? b subdivisions = some m ∧
        let v := ofMesh m n dx origin
        (fits n = true → ofMesh? m n dx origin = some v) ∧
        ∀ c, Cuboid.IsClear b (max subdivisions 1) (columnCenter dx origin c.x c.y) →
          (v.isOccupied c = true ↔ (c.x < n ∧ c.y < n ∧ c.z < n) ∧
            (b.lo.x < (v.center c).x ∧ (v.center c).x < b.hi.x) ∧
            (b.lo.y < (v.center c).y ∧ (v.center c).y < b.hi.y) ∧
            b.lo.z < (v.center c).z ∧ (v.center c).z ≤ b.hi.z)) ∧
    ∀ subdivisions subdivisions', 6 * (max subdivisions 1 + 1) ^ 2 ≤ 2 ^ 32 →
      6 * (max subdivisions' 1 + 1) ^ 2 ≤ 2 ^ 32 →
      (∀ x < n, ∀ y < n, Cuboid.IsClear b (max subdivisions 1) (columnCenter dx origin x y) ∧
        Cuboid.IsClear b (max subdivisions' 1) (columnCenter dx origin x y)) →
      ∃ m m', Mesh.cuboid? b subdivisions = some m ∧ Mesh.cuboid? b subdivisions' = some m' ∧
        ofMesh m n dx origin = ofMesh m' n dx origin := by
  obtain ⟨hcell, hsame⟩ := isOccupied_cuboid_iff hb n dx origin
  constructor
  · intro subdivisions hfits
    exact ⟨_, (Mesh.cuboid?_eq_some b hfits).1, fun hn => if_pos hn, hcell subdivisions⟩
  · intro subdivisions subdivisions' hfits hfits' hclear
    exact ⟨_, _, (Mesh.cuboid?_eq_some b hfits).1, (Mesh.cuboid?_eq_some b hfits').1,
      hsame subdivisions subdivisions' hclear⟩

/-- A box whose bottom and top are level with centers, uncut and in thirds. -/
theorem isOccupied_cuboid?_thirds :
    let b : Bounds ℚ := ⟨⟨1 / 8, 1 / 8, 1 / 4⟩, ⟨1, 5 / 8, 3 / 4⟩⟩
    Cuboid.IsProper b ∧ (∃ m v, Mesh.cuboid? b 3 = some m ∧ ofMesh? m 2 (1 / 2) 0 = some v ∧
      v.isOccupied ⟨0, 0, 1⟩ = true ∧ ¬v.isOccupied ⟨0, 0, 0⟩ = true) ∧
      ∃ m m', Mesh.cuboid? b 0 = some m ∧ Mesh.cuboid? b 3 = some m' ∧
        ofMesh m 2 (1 / 2) 0 = ofMesh m' 2 (1 / 2) 0 := by
  intro b
  have hb : Cuboid.IsProper b := by
    refine ⟨?_, ?_, ?_⟩ <;> norm_num [b]
  have hclear : ∀ x < 2, ∀ y < 2, Cuboid.IsClear b (max 0 1) (columnCenter (1 / 2) 0 x y) ∧
      Cuboid.IsClear b (max 3 1) (columnCenter (1 / 2) 0 x y) := by decide +kernel
  obtain ⟨hcell, hsame⟩ := isOccupied_cuboid?_iff hb 2 (1 / 2) 0
  obtain ⟨m, hm, hv, hcell⟩ := hcell 3 (by decide)
  have hcorner := (hclear 0 (by decide) 0 (by decide)).2
  have hcenter (z : ℕ) : (ofMesh m 2 (1 / 2) 0).center ⟨0, 0, z⟩ =
      ⟨1 / 4, 1 / 4, centerAlong (1 / 2) 0 z⟩ := by
    have hedge : centerAlong (1 / 2) (0 : ℚ) 0 = 1 / 4 := by decide +kernel
    rw [← hedge]
    rfl
  refine ⟨hb, ⟨m, _, hm, hv (by decide), (hcell ⟨0, 0, 1⟩ hcorner).mpr ?_, fun h => ?_⟩,
    hsame 0 3 (by decide) (by decide) hclear⟩
  · rw [hcenter]
    decide +kernel
  · have habove := ((hcell ⟨0, 0, 0⟩ hcorner).mp h).2.2.2.1
    rw [hcenter] at habove
    exact absurd habove (by decide +kernel)

/-- The planes of a unit box that is cut too finely for words pass beside the eighths. -/
theorem isClear_fine : Cuboid.IsClear (⟨0, ⟨1, 1, 1⟩⟩ : Bounds ℚ) 26754 ⟨1 / 4, 1 / 8⟩ := by
  have hplane (i : ℕ) : Cuboid.planeAt (0 : ℚ) 1 26754 i = i / 26754 := by
    rw [Cuboid.planeAt_def]
    norm_num
  -- No two planes are one, two or three eighths of the box apart.
  have hnot (k l m : ℕ) (h0 : 0 < m) (h4 : m < 4) : (k : ℚ) / 26754 ≠ l / 26754 + m / 8 := by
    intro h
    have hcleared : (k : ℚ) * 8 = l * 8 + 26754 * m := by
      field_simp at h
      linarith
    have hwhole : k * 8 = l * 8 + 26754 * m := by exact_mod_cast hcleared
    omega
  refine ⟨fun i _ h => hnot i 0 2 (by decide) (by decide) ?_,
    fun j _ h => hnot j 0 1 (by decide) (by decide) ?_, ?_⟩
  · have h : (1 / 4 : ℚ) = i / 26754 := h.trans (hplane i)
    rw [← h]
    norm_num
  · have h : (1 / 8 : ℚ) = j / 26754 := h.trans (hplane j)
    rw [← h]
    norm_num
  · rintro i - j - ⟨t, h⟩
    obtain ⟨hx, hy⟩ := Vec2.mk.inj h
    change (1 / 4 : ℚ) = Cuboid.planeAt 0 1 26754 i +
      t * (Cuboid.planeAt 0 1 26754 (i + 1) - Cuboid.planeAt 0 1 26754 i) at hx
    change (1 / 8 : ℚ) = Cuboid.planeAt 0 1 26754 j +
      t * (Cuboid.planeAt 0 1 26754 (j + 1) - Cuboid.planeAt 0 1 26754 j) at hy
    rw [hplane, hplane] at hx hy
    refine hnot i j 1 (by decide) (by decide) ?_
    push_cast at hx hy ⊢
    linarith

theorem not_isOccupied_cuboid?_fine :
    let b : Bounds ℚ := ⟨0, ⟨1, 1, 1⟩⟩
    let origin : Vec3 ℚ := ⟨1 / 8, 0, 0⟩
    Cuboid.IsProper b ∧ Cuboid.IsClear b 26754 (columnCenter (1 / 4) origin 0 0) ∧
      (¬∃ m v, Mesh.cuboid? b 26754 = some m ∧ ofMesh? m 1 (1 / 4) origin = some v ∧
        v.isOccupied ⟨0, 0, 0⟩ = true) ∧
      ∀ m : Mesh ℚ, ofMesh? m 2642246 (1 / 4) origin = none := by
  intro b origin
  have hcenter : columnCenter (1 / 4) origin 0 0 = ⟨1 / 4, 1 / 8⟩ := by decide +kernel
  refine ⟨by decide +kernel, ?_, ?_, fun m => if_neg (by decide)⟩
  · rw [hcenter]
    exact isClear_fine
  · rintro ⟨m, v, hm, -⟩
    have hnone : Mesh.cuboid? b 26754 = none := if_neg (by decide)
    rw [hnone] at hm
    cases hm

end Voxels
end MaterialPoint
