import Mathlib
import MaterialPoint.Grid.Walls
import MaterialPoint.Transfer.Words

/-! Nodes by their coordinates: a change of the lattice is seen where it is made. -/
namespace MaterialPoint
namespace Grid

section Numbers
variable {R : Type}

theorem index?_congr {g h : Grid R} (hr : g.resolution = h.resolution) (c : Coord) :
    g.index? c = h.index? c := by
  simp only [index?, hr]

theorem index?_eq_some {g : Grid R} {c : Coord} {i : ℕ} (h : g.index? c = some i) :
    ((0 ≤ c.x ∧ c.x < g.resolution) ∧ (0 ≤ c.y ∧ c.y < g.resolution) ∧
      0 ≤ c.z ∧ c.z < g.resolution) ∧
      (i : ℤ) = c.x + g.resolution * (c.y + g.resolution * c.z) := by
  have hs : (g.index? c).isSome := by rw [h]; rfl
  have hc := (g.isSome_index?_iff c).mp hs
  refine ⟨hc, ?_⟩
  obtain ⟨⟨hx, -⟩, ⟨hy, -⟩, hz, -⟩ := hc
  have hi : (c.x + g.resolution * (c.y + g.resolution * c.z)).toNat = i := by
    simp only [index?] at h
    split_ifs at h
    exact Option.some.inj h
  rw [← hi, Int.toNat_of_nonneg]
  positivity

theorem wallCoord_of_index? {g : Grid R} {c : Coord} {i : ℕ} (h : g.index? c = some i) :
    wallCoord g.resolution i = c := by
  obtain ⟨⟨⟨hx, hxn⟩, ⟨hy, hyn⟩, hz, hzn⟩, hi⟩ := index?_eq_some h
  have hn : (0 : ℤ) < g.resolution := lt_of_le_of_lt hx hxn
  have hxy : (i : ℤ) / g.resolution = c.y + g.resolution * c.z := by
    rw [hi, Int.add_mul_ediv_left _ _ hn.ne', Int.ediv_eq_zero_of_lt hx hxn, zero_add]
  have hyz : (c.y + g.resolution * c.z) / g.resolution = c.z := by
    rw [Int.add_mul_ediv_left _ _ hn.ne', Int.ediv_eq_zero_of_lt hy hyn, zero_add]
  have h0 : (0 : ℤ) ≤ i := Int.natCast_nonneg i
  ext
  · simp only [wallCoord]
    rw [Int.tmod_eq_emod_of_nonneg h0, hi, Int.add_mul_emod_self_left, Int.emod_eq_of_lt hx hxn]
  · simp only [wallCoord]
    rw [Int.tdiv_eq_ediv_of_nonneg h0, hxy, Int.tmod_eq_emod_of_nonneg (by positivity),
      Int.add_mul_emod_self_left, Int.emod_eq_of_lt hy hyn]
  · simp only [wallCoord]
    rw [Int.tdiv_eq_ediv_of_nonneg h0, ← Int.ediv_ediv_of_nonneg hn.le, hxy, hyz]

theorem index?_inj {g : Grid R} {c d : Coord} {i : ℕ} (hc : g.index? c = some i)
    (hd : g.index? d = some i) : c = d :=
  (wallCoord_of_index? hc).symm.trans (wallCoord_of_index? hd)

theorem index?_lt {g : Grid R} {c : Coord} {i : ℕ} (h : g.index? c = some i) :
    i < g.nodes.size := by
  obtain ⟨⟨⟨hx, hxn⟩, ⟨hy, hyn⟩, hz, hzn⟩, hi⟩ := index?_eq_some h
  rw [g.size_nodes]
  zify
  rw [hi]
  nlinarith

theorem isSome_node?_iff (g : Grid R) (c : Coord) : (g.node? c).isSome ↔ (g.index? c).isSome := by
  unfold node?
  cases h : g.index? c with
  | none => simp
  | some i => simp [index?_lt h]

theorem node?_modify (g : Grid R) (c d : Coord) (f : Node R → Node R) :
    (g.modify c f).1.node? d = (g.node? d).map fun n => if c = d then f n else n := by
  cases hc : g.index? c with
  | none =>
    have hn : g.node? c = none := by simp [node?, hc]
    by_cases hcd : c = d
    · subst hcd
      simp [modify, hc, hn]
    · simp [modify, hc, hcd]
  | some i =>
    have hd : (g.modifyAt i f).index? d = g.index? d := index?_congr rfl d
    simp only [modify, hc, node?, hd]
    cases hd' : g.index? d with
    | none => rfl
    | some j =>
      have hij : i = j ↔ c = d := by
        constructor
        · rintro rfl
          exact index?_inj hc hd'
        · rintro rfl
          exact Option.some.inj (hc.symm.trans hd')
      simp only [modifyAt, Option.bind_some, Array.getElem?_modify, hij]
      split_ifs <;> simp

theorem node?_mapNodes (g : Grid R) (f : ℕ → Node R → Node R) (c : Coord) :
    (g.mapNodes f).node? c = (g.index? c).bind fun i => g.nodes[i]?.map (f i) := by
  have hc : (g.mapNodes f).index? c = g.index? c := index?_congr rfl c
  rw [node?, hc]
  simp only [mapNodes, Array.getElem?_mapIdx]

theorem modifyAt_congr {g : Grid R} {i : ℕ} {f h : Node R → Node R}
    (hn : ∀ n, g.nodes[i]? = some n → f n = h n) : g.modifyAt i f = g.modifyAt i h := by
  refine Grid.ext rfl (Array.ext_getElem? fun k => ?_)
  simp only [modifyAt, Array.getElem?_modify]
  split_ifs with hk
  · subst hk
    exact Option.map_congr hn
  · rfl

theorem modify_of_none {g : Grid R} {c : Coord} (hc : g.index? c = none) (f : Node R → Node R) :
    (g.modify c f).1 = g := by
  rw [modify, hc]

/-- Changes that commute where they meet commute everywhere. -/
theorem modifyAt_comm (g : Grid R) {i j : ℕ} {f h : Node R → Node R}
    (hn : i = j → ∀ n, h (f n) = f (h n)) :
    (g.modifyAt i f).modifyAt j h = (g.modifyAt j h).modifyAt i f := by
  refine Grid.ext rfl (Array.ext_getElem? fun k => ?_)
  simp only [modifyAt, Array.getElem?_modify]
  by_cases hij : i = j
  · subst hij
    split_ifs <;> simp [Function.comp_def, hn]
  · split_ifs with h₁ h₂
    · exact absurd (h₂.trans h₁.symm) hij
    · rfl
    · rfl
    · rfl

end Numbers

section Steps
variable {R : Type} [Scalar R]

/-- An empty lattice has a node that is zero at every coordinate on it. -/
theorem node?_reset (g : Grid R) (c : Coord) (h : (g.index? c).isSome) :
    g.reset.node? c = some 0 := by
  obtain ⟨i, hi⟩ := Option.isSome_iff_exists.mp h
  have hr : g.reset.index? c = some i := by rw [index?_congr g.resolution_reset, hi]
  have hl := index?_lt hi
  rw [g.size_nodes] at hl
  rw [node?, hr]
  simp [reset, empty, hl]

theorem node?_settle (g : Grid R) (gravity timeStep : R) (wallWidth : ℕ) (c : Coord) :
    (g.settle gravity timeStep wallWidth).node? c =
      (g.node? c).map (settleNode gravity timeStep (Word.signed wallWidth) g.resolution c) := by
  rw [settle, node?_mapNodes, node?]
  cases h : g.index? c with
  | none => rfl
  | some i => simp only [Option.bind_some, wallCoord_of_index? h]

theorem node?_deposit (g : Grid R) (d : Deposit R) (c : Coord) :
    (g.deposit d).node? c =
      (g.node? c).map fun n => if d.coord = c then n.accumulate d.mass d.momentum else n :=
  node?_modify ..

theorem cellSize_congr {g h : Grid R} (hr : g.resolution = h.resolution) :
    g.cellSize = h.cellSize := by
  rw [cellSize, cellSize, hr]

theorem contains_congr {g h : Grid R} (hr : g.resolution = h.resolution) (p : Vec3 R) :
    g.contains p = h.contains p := by
  simp only [contains, cellSize_congr hr, hr]

/-- What a particle deposits does not depend on what the nodes hold. -/
theorem scatter_congr [Exponential R] [SingularValues R] {g h : Grid R}
    (hr : g.resolution = h.resolution) (params : Params R) (p : Particle R) :
    p.scatter params g = p.scatter params h := by
  simp only [Particle.scatter, contains_congr hr, cellSize_congr hr]

end Steps
end Grid

theorem Particle.position_scatter {R : Type} [Scalar R] [Exponential R] [SingularValues R]
    (params : Params R) (g : Grid R) (p : Particle R) :
    (p.scatter params g).particle.position = p.position := by
  unfold Particle.scatter
  split <;> rfl

end MaterialPoint
