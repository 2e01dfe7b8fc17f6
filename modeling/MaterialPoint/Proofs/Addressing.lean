import MaterialPoint.Proofs.Lattice
import MaterialPoint.Proofs.Occupancy

/-! Nodes and their numbers, one to one where the nodes of a lattice have signed words for
numbers. -/
namespace MaterialPoint

namespace Word

theorem fitsSigned_of_nonneg {i : ℤ} (h0 : 0 ≤ i) (h : i < 0x80000000) : fitsSigned i = true := by
  simp only [fitsSigned, Bool.and_eq_true, decide_eq_true_eq]
  omega

theorem signed_natCast {k : ℕ} (h : k < 2 ^ 31) : signed k = k :=
  signed_eq_self (fitsSigned_of_nonneg (Int.natCast_nonneg k) (by omega))

theorem signed?_of_nonneg {i : ℤ} (h0 : 0 ≤ i) (h : i < 0x80000000) : signed? i = some i :=
  if_pos (fitsSigned_of_nonneg h0 h)

theorem tdiv?_of_nonneg {i n : ℤ} (hn : 0 < n) (h0 : 0 ≤ i) (h : i < 0x80000000) :
    tdiv? i n = some (i.tdiv n) := by
  have hle : i / n ≤ i := Int.ediv_le_self n h0
  rw [tdiv?, if_neg hn.ne', Int.tdiv_eq_ediv_of_nonneg h0]
  exact signed?_of_nonneg (Int.ediv_nonneg h0 hn.le) (hle.trans_lt h)

theorem tmod?_of_nonneg {i n : ℤ} (hn : 0 < n) (h0 : 0 ≤ i) (h : i < 0x80000000) :
    tmod? i n = some (i.tmod n) := by
  rw [tmod?, tdiv?_of_nonneg hn h0 h, Option.map_some]

end Word

/-- A coordinate that has a node. -/
def Coord.IsOn (resolution : ℕ) (c : Coord) : Prop :=
  (0 ≤ c.x ∧ c.x < resolution) ∧ (0 ≤ c.y ∧ c.y < resolution) ∧ 0 ≤ c.z ∧ c.z < resolution

instance (resolution : ℕ) (c : Coord) : Decidable (c.IsOn resolution) :=
  inferInstanceAs (Decidable (_ ∧ _))

namespace Grid

theorem resolution_lt {n : ℕ} (hfits : n ^ 3 ≤ 2 ^ 31) : n < 2 ^ 11 := by
  by_contra hle
  have hcube := Nat.pow_le_pow_left (Nat.le_of_not_lt hle) 3
  omega

theorem mul_self_resolution_lt {n : ℕ} (hfits : n ^ 3 ≤ 2 ^ 31) : n * n < 2 ^ 31 := by
  have hn := resolution_lt hfits
  nlinarith

theorem signed_resolution {n : ℕ} (hfits : n ^ 3 ≤ 2 ^ 31) : Word.signed n = n :=
  Word.signed_natCast ((resolution_lt hfits).trans (by decide))

theorem coordAt_eq_cellAt {n i : ℕ} (hfits : n ^ 3 ≤ 2 ^ 31) (hi : i < n ^ 3) :
    coordAt n i = ⟨(Voxels.cellAt n i).x, (Voxels.cellAt n i).y, (Voxels.cellAt n i).z⟩ := by
  have hn : n < 2 ^ 31 := (resolution_lt hfits).trans (by decide)
  obtain ⟨hx, hy, hz⟩ := Voxels.cellAt_lt (n := n) (i := i) (by rwa [← pow_three'])
  simp only [Voxels.cellAt] at hx hy hz
  simp only [coordAt, Voxels.cellAt, Word.signed_natCast (hx.trans hn),
    Word.signed_natCast (hy.trans hn), Word.signed_natCast (hz.trans hn)]

section Numbers
variable {R : Type} {g : Grid R}

theorem exists_index?_iff (g : Grid R) (c : Coord) :
    (∃ i, g.index? c = some i) ↔ c.IsOn g.resolution := by
  rw [← Option.isSome_iff_exists]
  exact g.isSome_index?_iff c

theorem index?_eq_none_iff (g : Grid R) (c : Coord) :
    g.index? c = none ↔ ¬c.IsOn g.resolution := by
  rw [← exists_index?_iff, ← Option.isSome_iff_exists, Option.not_isSome_iff_eq_none]

theorem index?_lt_cube {c : Coord} {i : ℕ} (h : g.index? c = some i) : i < g.resolution ^ 3 := by
  have hlt := index?_lt h
  rwa [g.size_nodes, ← pow_three'] at hlt

theorem index?_coordAt (hfits : g.resolution ^ 3 ≤ 2 ^ 31) {i : ℕ} (hi : i < g.resolution ^ 3) :
    g.index? (coordAt g.resolution i) = some i := by
  have hcell := coordAt_eq_cellAt hfits hi
  have hon : (coordAt g.resolution i).IsOn g.resolution := by
    obtain ⟨hx, hy, hz⟩ := Voxels.cellAt_lt (n := g.resolution) (i := i) (by rwa [← pow_three'])
    rw [hcell]
    simp only [Coord.IsOn]
    omega
  obtain ⟨j, hj⟩ := (exists_index?_iff g _).mpr hon
  have hnumber := (index?_eq_some hj).2
  rw [hcell] at hnumber
  have hji : j = Voxels.number g.resolution (Voxels.cellAt g.resolution i) := by
    rw [Voxels.number]
    dsimp only at hnumber
    exact_mod_cast hnumber
  rw [hj, hji, Voxels.number_cellAt]

theorem coordAt_of_index? (hfits : g.resolution ^ 3 ≤ 2 ^ 31) {c : Coord} {i : ℕ}
    (h : g.index? c = some i) : coordAt g.resolution i = c :=
  index?_inj (index?_coordAt hfits (index?_lt_cube h)) h

theorem indexInWords?_eq (hfits : g.resolution ^ 3 ≤ 2 ^ 31) (c : Coord) :
    indexInWords? g.resolution c = some (g.index? c) := by
  simp only [indexInWords?, signed_resolution hfits]
  cases h : g.index? c with
  | none =>
    have hon := (index?_eq_none_iff g c).mp h
    rw [if_neg]
    · rfl
    · simpa [Vec3.all, Coord.IsOn, and_assoc] using hon
  | some i =>
    obtain ⟨hon, hi⟩ := index?_eq_some h
    have hlt := (index?_lt_cube h).trans_le hfits
    obtain ⟨⟨hx, hxn⟩, ⟨hy, -⟩, hz, -⟩ := id hon
    have hlayers : 0 ≤ (g.resolution : ℤ) * c.z := by positivity
    have hrow : c.y + g.resolution * c.z ≤ g.resolution * (c.y + g.resolution * c.z) :=
      le_mul_of_one_le_left (add_nonneg hy hlayers) (by omega)
    rw [if_pos (by simpa [Vec3.all, and_assoc] using hon)]
    refine Option.bind_eq_some_iff.mpr ⟨_, Word.signed?_of_nonneg hlayers (by omega), ?_⟩
    refine Option.bind_eq_some_iff.mpr ⟨_, Word.signed?_of_nonneg (by omega) (by omega), ?_⟩
    refine Option.bind_eq_some_iff.mpr ⟨_, Word.signed?_of_nonneg (by omega) (by omega), ?_⟩
    refine Option.bind_eq_some_iff.mpr ⟨_, Word.signed?_of_nonneg (by omega) (by omega), ?_⟩
    rw [← hi]
    rfl

theorem wallCoordInWords?_eq {n i : ℕ} (hfits : n ^ 3 ≤ 2 ^ 31) (hi : i < n ^ 3) :
    wallCoordInWords? n i = some (wallCoord n i) := by
  have hn : 0 < n := Nat.pos_of_ne_zero fun h => by simp [h] at hi
  have hn0 : (0 : ℤ) < n := by exact_mod_cast hn
  have hi0 : (0 : ℤ) ≤ i := Int.natCast_nonneg i
  have hnat := hi.trans_le hfits
  have hlt : (i : ℤ) < 0x80000000 := by omega
  have hlayer : (n : ℤ) * n < 0x80000000 := by
    rw [← Nat.cast_mul]
    have hsquare := mul_self_resolution_lt hfits
    omega
  have hlayer0 : (0 : ℤ) < n * n := mul_pos hn0 hn0
  -- Quotients are not greater than what is divided.
  have hrows0 : (0 : ℤ) ≤ (i : ℤ).tdiv n := Int.tdiv_nonneg hi0 hn0.le
  have hrows : (i : ℤ).tdiv n ≤ i := by
    rw [Int.tdiv_eq_ediv_of_nonneg hi0]
    exact Int.ediv_le_self _ hi0
  rw [wallCoordInWords?, signed_resolution hfits, Word.signed_natCast hnat]
  refine Option.bind_eq_some_iff.mpr ⟨_, Word.tmod?_of_nonneg hn0 hi0 hlt, ?_⟩
  refine Option.bind_eq_some_iff.mpr ⟨_, Word.tdiv?_of_nonneg hn0 hi0 hlt, ?_⟩
  refine Option.bind_eq_some_iff.mpr
    ⟨_, Word.tmod?_of_nonneg hn0 hrows0 (hrows.trans_lt hlt), ?_⟩
  refine Option.bind_eq_some_iff.mpr ⟨_, Word.signed?_of_nonneg hlayer0.le hlayer, ?_⟩
  exact Option.bind_eq_some_iff.mpr ⟨_, Word.tdiv?_of_nonneg hlayer0 hi0 hlt, rfl⟩

/-- The nodes are listed with the coordinates at which they are found. -/
theorem mem_toList_iff (hfits : g.resolution ^ 3 ≤ 2 ^ 31) (c : Coord) (node : Node R) :
    (c, node) ∈ g.toList ↔ g.node? c = some node := by
  rw [toList, List.mem_mapIdx]
  constructor
  · rintro ⟨i, hi, h⟩
    obtain ⟨rfl, rfl⟩ := Prod.mk.inj h
    have hlt : i < g.resolution ^ 3 := by
      rw [pow_three', ← g.size_nodes]
      exact hi
    rw [node?, index?_coordAt hfits hlt, Option.bind_some]
    exact Array.getElem?_eq_getElem hi
  · intro h
    obtain ⟨i, hi, hnode⟩ := Option.bind_eq_some_iff.mp h
    obtain ⟨hlt, rfl⟩ := Array.getElem?_eq_some_iff.mp hnode
    exact ⟨i, hlt, by rw [coordAt_of_index? hfits hi]; rfl⟩

end Numbers

section Nodes
variable {R : Type} [Scalar R] {g : Grid R} {c : Coord}

/-- A contribution on the lattice is added to the node at its coordinate and to no other. -/
theorem accumulate_of_isOn (hc : c.IsOn g.resolution) (mass : R) (momentum : Vec3 R) :
    (g.accumulate c mass momentum).2 = true ∧
      (∃ node, g.node? c = some node ∧
        (g.accumulate c mass momentum).1.node? c = some (node.accumulate mass momentum)) ∧
      ∀ d, d ≠ c → (g.accumulate c mass momentum).1.node? d = g.node? d := by
  have hsome : (g.index? c).isSome := (g.isSome_index?_iff c).mpr hc
  obtain ⟨node, hnode⟩ := Option.isSome_iff_exists.mp ((g.isSome_node?_iff c).mpr hsome)
  refine ⟨(g.modify_snd c _).trans hsome, ⟨node, hnode, ?_⟩, fun d hd => ?_⟩
  · rw [accumulate, node?_modify, hnode, Option.map_some, if_pos rfl]
  · rw [accumulate, node?_modify]
    simp only [if_neg hd.symm, Option.map_id']

theorem accumulate_of_not_isOn (hc : ¬c.IsOn g.resolution) (mass : R) (momentum : Vec3 R) :
    g.accumulate c mass momentum = (g, false) := by
  rw [accumulate, modify, (g.index?_eq_none_iff c).mpr hc]

/-- Numbers and coordinates of nodes are one to one in words, and every contribution reaches the
node at its coordinate. -/
theorem addresses_agree (g : Grid R) (hfits : g.resolution ^ 3 ≤ 2 ^ 31) :
    (∀ c, indexInWords? g.resolution c = some (g.index? c)) ∧
      (∀ c : Coord, (∃ i, g.index? c = some i) ↔ c.IsOn g.resolution) ∧
      (∀ c i, g.index? c = some i → i < g.resolution ^ 3 ∧ g.coord? i = some c) ∧
      (∀ i < g.resolution ^ 3, ∃ c, g.coord? i = some c ∧ g.index? c = some i ∧
        wallCoordInWords? g.resolution i = some c ∧ wallCoord g.resolution i = c) ∧
      (∀ c node, (c, node) ∈ g.toList ↔ g.node? c = some node) ∧
      ∀ (c : Coord) (mass : R) (momentum : Vec3 R),
        (c.IsOn g.resolution →
          (g.accumulate c mass momentum).2 = true ∧
          (∃ node, g.node? c = some node ∧
            (g.accumulate c mass momentum).1.node? c = some (node.accumulate mass momentum)) ∧
          ∀ d, d ≠ c → (g.accumulate c mass momentum).1.node? d = g.node? d) ∧
        (¬c.IsOn g.resolution → g.accumulate c mass momentum = (g, false)) := by
  have hcoord {i : ℕ} (hi : i < g.resolution ^ 3) :
      g.coord? i = some (coordAt g.resolution i) := by
    refine if_neg fun h0 => ?_
    simp [h0] at hi
  refine ⟨indexInWords?_eq hfits, exists_index?_iff g, fun c i h => ⟨index?_lt_cube h, ?_⟩,
    fun i hi => ?_, mem_toList_iff hfits,
    fun c mass momentum => ⟨fun hc => ?_, fun hc => ?_⟩⟩
  · rw [hcoord (index?_lt_cube h), coordAt_of_index? hfits h]
  · have hindex := index?_coordAt hfits hi
    have hwall := wallCoord_of_index? hindex
    refine ⟨_, hcoord hi, hindex, ?_, hwall⟩
    rw [wallCoordInWords?_eq hfits hi, hwall]
  · exact accumulate_of_isOn hc mass momentum
  · exact accumulate_of_not_isOn hc mass momentum

open scoped Exact in
/-- The widest lattice, at its last node and at a coordinate far off it. -/
theorem addresses_agree_widest :
    let g : Grid ℚ := Grid.empty 1290
    let last : Coord := ⟨1289, 1289, 1289⟩
    g.resolution ^ 3 ≤ 2 ^ 31 ∧ last.IsOn g.resolution ∧
      indexInWords? 1290 last = some (some 2146688999) ∧
      g.coord? 2146688999 = some last ∧ wallCoordInWords? 1290 2146688999 = some last ∧
      (g.accumulate last 1 0).2 = true ∧
      g.accumulate ⟨-2147483648, 0, 2147483647⟩ 1 0 = (g, false) := by
  intro g last
  have hfits : g.resolution ^ 3 ≤ 2 ^ 31 := by decide
  have hon : last.IsOn g.resolution := by decide
  have hindex : g.index? last = some 2146688999 := by decide
  obtain ⟨hwords, -, hnumber, hcoords, -, hadd⟩ := addresses_agree g hfits
  obtain ⟨hlt, hcoord⟩ := hnumber last _ hindex
  obtain ⟨c, hc, -, hwall, -⟩ := hcoords _ hlt
  obtain rfl : last = c := Option.some.inj (hcoord.symm.trans hc)
  exact ⟨hfits, hon, (hwords last).trans (congrArg some hindex), hcoord, hwall,
    ((hadd last 1 0).1 hon).1, (hadd _ 1 0).2 (by decide)⟩

end Nodes
end Grid
end MaterialPoint
