import MaterialPoint.Proofs.Linear
import MaterialPoint.Proofs.Polygons
import MaterialPoint.Proofs.Sums
import MaterialPoint.Proofs.Tiling

/-! The surface of a closed box: every directed edge has its reverse, on its side or on the next. -/
namespace MaterialPoint

theorem Axis.eq_or_next (a b : Axis) : b = a ∨ b = a.next ∨ a = b.next := by
  cases a <;> cases b <;> decide

theorem Vec3.along_next {R : Type} (axis : Axis) (a b c : R) :
    along axis.next a b c = along axis c a b := by
  cases axis <;> rfl

theorem Vec3.along_inj {R : Type} (axis : Axis) {a b c d e f : R} :
    along axis a b c = along axis d e f ↔ a = d ∧ b = e ∧ c = f := by
  cases axis with
  | x => simp [along]
  | y => simp [along, and_comm, and_assoc]
  | z =>
    simp only [along, mk.injEq]
    tauto

instance {R : Type} [BEq R] [LawfulBEq R] : LawfulBEq (Vec3 R) where
  eq_of_beq {v w} h := by
    change (v.x == w.x && (v.y == w.y && v.z == w.z)) = true at h
    simpa [Vec3.ext_iff] using h
  rfl {v} := by
    change (v.x == v.x && (v.y == v.y && v.z == v.z)) = true
    simp

namespace Cuboid

/-- From one step of an axis to the next, upwards or downwards. -/
def Climbs (up : Bool) (a b : ℕ) : Prop := if up then b = a + 1 else a = b + 1

theorem climbs_swap {up : Bool} {a b : ℕ} : Climbs up b a ↔ Climbs (!up) a b := by
  cases up <;> exact Iff.rfl

theorem not_climbs_not {up : Bool} {a b : ℕ} (h : Climbs up a b) : ¬Climbs (!up) a b := by
  cases up
  · change a = b + 1 at h
    change ¬b = a + 1
    omega
  · change b = a + 1 at h
    change ¬a = b + 1
    omega

def stop (steps : ℕ) (isHigh : Bool) : ℕ := if isHigh then steps else 0

theorem stop_inj {steps : ℕ} (h : 0 < steps) {g g' : Bool} (hg : stop steps g = stop steps g') :
    g = g' := by
  unfold stop at hg
  cases g <;> cases g' <;> simp_all

/-- The directed edges of the two triangles of a square, by column and row. -/
def squareArrows (isHigh : Bool) (i j : ℕ) : List ((ℕ × ℕ) × (ℕ × ℕ)) :=
  if isHigh then
    circuit [(i, j), (i + 1, j), (i + 1, j + 1)] ++ circuit [(i, j), (i + 1, j + 1), (i, j + 1)]
  else circuit [(i, j), (i, j + 1), (i + 1, j + 1)] ++ circuit [(i, j), (i + 1, j + 1), (i + 1, j)]

def planeArrows (steps : ℕ) (isHigh : Bool) : List ((ℕ × ℕ) × (ℕ × ℕ)) :=
  (cells steps).flatMap fun (i, j) => squareArrows isHigh i j

theorem mem_squareArrows_true {i j : ℕ} {p q : ℕ × ℕ} : (p, q) ∈ squareArrows true i j ↔
    (p.1 = i ∧ p.2 = j ∧ q.1 = i + 1 ∧ q.2 = j) ∨
    (p.1 = i + 1 ∧ p.2 = j ∧ q.1 = i + 1 ∧ q.2 = j + 1) ∨
    (p.1 = i + 1 ∧ p.2 = j + 1 ∧ q.1 = i ∧ q.2 = j) ∨
    (p.1 = i ∧ p.2 = j ∧ q.1 = i + 1 ∧ q.2 = j + 1) ∨
    (p.1 = i + 1 ∧ p.2 = j + 1 ∧ q.1 = i ∧ q.2 = j + 1) ∨
    p.1 = i ∧ p.2 = j + 1 ∧ q.1 = i ∧ q.2 = j := by
  simp only [squareArrows, if_true, circuit_triangle, List.cons_append, List.nil_append,
    List.mem_cons, List.not_mem_nil, or_false, Prod.ext_iff, and_assoc]

theorem perm_planeArrows_false (steps : ℕ) :
    (planeArrows steps false).Perm ((planeArrows steps true).map Prod.swap) := by
  rw [planeArrows, planeArrows, List.map_flatMap]
  refine List.Perm.flatMap_left _ fun (i, j) _ => ?_
  exact (List.reverse_perm ((squareArrows true i j).map Prod.swap))

/-- Which edges a high side has. Along a row or a column an edge has the side on its left. -/
def IsArrow (steps : ℕ) (p q : ℕ × ℕ) : Prop :=
  (p.1 ≤ steps ∧ p.2 ≤ steps ∧ q.1 ≤ steps ∧ q.2 ≤ steps) ∧
    ((q.1 = p.1 + 1 ∧ q.2 = p.2 + 1) ∨ (p.1 = q.1 + 1 ∧ p.2 = q.2 + 1) ∨
      (p.2 = q.2 ∧ (q.1 = p.1 + 1 ∧ p.2 < steps ∨ p.1 = q.1 + 1 ∧ 0 < p.2)) ∨
      p.1 = q.1 ∧ (q.2 = p.2 + 1 ∧ 0 < p.1 ∨ p.2 = q.2 + 1 ∧ p.1 < steps))

theorem mem_planeArrows_true_iff {steps : ℕ} {p q : ℕ × ℕ} :
    (p, q) ∈ planeArrows steps true ↔ IsArrow steps p q := by
  have hmem : (p, q) ∈ planeArrows steps true ↔
      ∃ i j, (i < steps ∧ j < steps) ∧ (p, q) ∈ squareArrows true i j := by
    simp only [planeArrows, List.mem_flatMap, Prod.exists, mem_cells_iff]
  rw [hmem]
  simp only [mem_squareArrows_true]
  constructor
  · rintro ⟨i, j, ⟨hi, hj⟩, hcell⟩
    unfold IsArrow
    omega
  · rintro ⟨hbounds, hcase⟩
    rcases hcase with hout | hback | ⟨hrow, ⟨hup, hlow⟩ | ⟨hdown, htop⟩⟩ |
      ⟨hcolumn, ⟨hup, hleft⟩ | ⟨hdown, hright⟩⟩
    · exact ⟨p.1, p.2, by omega, by omega⟩
    · exact ⟨q.1, q.2, by omega, by omega⟩
    · exact ⟨p.1, p.2, by omega, by omega⟩
    · exact ⟨q.1, q.2 - 1, by omega, by omega⟩
    · exact ⟨p.1 - 1, p.2, by omega, by omega⟩
    · exact ⟨p.1, q.2, by omega, by omega⟩

theorem mem_planeArrows_false_iff {steps : ℕ} {p q : ℕ × ℕ} :
    (p, q) ∈ planeArrows steps false ↔ IsArrow steps q p := by
  rw [(perm_planeArrows_false steps).mem_iff, ← mem_planeArrows_true_iff, List.mem_map]
  constructor
  · rintro ⟨e, he, hswap⟩
    obtain rfl : e = (q, p) := by rw [← Prod.swap_swap e, hswap, Prod.swap_prod_mk]
    exact he
  · intro he
    exact ⟨(q, p), he, rfl⟩

theorem nodup_cells (n : ℕ) : (cells n).Nodup := by
  rw [cells, List.nodup_flatMap]
  refine ⟨fun j _ => List.nodup_range.map fun i i' h => congrArg Prod.fst h,
    List.nodup_range.imp fun {j j'} hj => ?_⟩
  intro c hc hc'
  obtain ⟨i, -, rfl⟩ := List.mem_map.mp hc
  obtain ⟨i', -, h⟩ := List.mem_map.mp hc'
  exact hj (congrArg Prod.snd h).symm

theorem nodup_planeArrows_true (steps : ℕ) : (planeArrows steps true).Nodup := by
  rw [planeArrows, List.nodup_flatMap]
  refine ⟨fun (i, j) _ => ?_, (nodup_cells steps).imp fun {c d} hcd => ?_⟩
  · simp [squareArrows, circuit_triangle]
  · rintro ⟨p, q⟩ hc hd
    rw [mem_squareArrows_true] at hc hd
    refine hcd (Prod.ext ?_ ?_)
    · omega
    · omega

theorem nodup_planeArrows (steps : ℕ) (isHigh : Bool) : (planeArrows steps isHigh).Nodup := by
  cases isHigh with
  | true => exact nodup_planeArrows_true steps
  | false =>
    rw [(perm_planeArrows_false steps).nodup_iff]
    exact (nodup_planeArrows_true steps).map Prod.swap_injective

theorem IsArrow.ne {steps : ℕ} {p q : ℕ × ℕ} (h : IsArrow steps p q) : p ≠ q := by
  rintro rfl
  unfold IsArrow at h
  omega

/-- Along its last column the rim of a high side leads upwards, and along its first downwards. -/
theorem isArrow_column_iff {steps : ℕ} (hs : 0 < steps) {h : Bool} {v v' : ℕ} (hv : v ≤ steps)
    (hv' : v' ≤ steps) :
    IsArrow steps (stop steps h, v) (stop steps h, v') ↔ Climbs h v v' := by
  cases h
  · change IsArrow steps (0, v) (0, v') ↔ v = v' + 1
    unfold IsArrow
    dsimp only
    omega
  · change IsArrow steps (steps, v) (steps, v') ↔ v' = v + 1
    unfold IsArrow
    dsimp only
    omega

theorem isArrow_row_iff {steps : ℕ} (hs : 0 < steps) {h : Bool} {u u' : ℕ} (hu : u ≤ steps)
    (hu' : u' ≤ steps) :
    IsArrow steps (u, stop steps h) (u', stop steps h) ↔ Climbs (!h) u u' := by
  cases h
  · change IsArrow steps (u, 0) (u', 0) ↔ u' = u + 1
    unfold IsArrow
    dsimp only
    omega
  · change IsArrow steps (u, steps) (u', steps) ↔ u = u' + 1
    unfold IsArrow
    dsimp only
    omega

theorem IsArrow.swap_or {steps : ℕ} {p q : ℕ × ℕ} (h : IsArrow steps p q) :
    IsArrow steps q p ∨ (∃ g, p.1 = stop steps g ∧ q.1 = stop steps g) ∨
      ∃ g, p.2 = stop steps g ∧ q.2 = stop steps g := by
  obtain ⟨hbounds, hcase⟩ := h
  by_cases hcolumn : p.1 = q.1
  · by_cases hrim : p.1 = 0 ∨ p.1 = steps
    · rcases hrim with h0 | hn
      · exact .inr (.inl ⟨false, h0, hcolumn ▸ h0⟩)
      · exact .inr (.inl ⟨true, hn, hcolumn ▸ hn⟩)
    · refine .inl ⟨by omega, ?_⟩
      omega
  · by_cases hrow : p.2 = q.2
    · by_cases hrim : p.2 = 0 ∨ p.2 = steps
      · rcases hrim with h0 | hn
        · exact .inr (.inr ⟨false, h0, hrow ▸ h0⟩)
        · exact .inr (.inr ⟨true, hn, hrow ▸ hn⟩)
      · refine .inl ⟨by omega, ?_⟩
        omega
    · refine .inl ⟨by omega, ?_⟩
      omega

theorem mem_planeArrows_iff {steps : ℕ} {g : Bool} {p q : ℕ × ℕ} :
    (p, q) ∈ planeArrows steps g ↔ if g then IsArrow steps p q else IsArrow steps q p := by
  cases g with
  | true => exact mem_planeArrows_true_iff
  | false => exact mem_planeArrows_false_iff

theorem column_mem_planeArrows_iff {steps : ℕ} (hs : 0 < steps) {g h : Bool} {v v' : ℕ}
    (hv : v ≤ steps) (hv' : v' ≤ steps) :
    ((stop steps h, v), (stop steps h, v')) ∈ planeArrows steps g ↔ Climbs (h == g) v v' := by
  rw [mem_planeArrows_iff]
  cases g with
  | true => rw [if_pos rfl, isArrow_column_iff hs hv hv', beq_true]
  | false =>
    rw [if_neg Bool.false_ne_true, isArrow_column_iff hs hv' hv, climbs_swap, beq_false]

theorem row_mem_planeArrows_iff {steps : ℕ} (hs : 0 < steps) {g h : Bool} {u u' : ℕ}
    (hu : u ≤ steps) (hu' : u' ≤ steps) :
    ((u, stop steps h), (u', stop steps h)) ∈ planeArrows steps g ↔ Climbs (h != g) u u' := by
  rw [mem_planeArrows_iff]
  cases g with
  | true => rw [if_pos rfl, isArrow_row_iff hs hu hu', Bool.bne_true]
  | false =>
    rw [if_neg Bool.false_ne_true, isArrow_row_iff hs hu' hu, climbs_swap, Bool.not_not,
      Bool.bne_false]

theorem le_of_mem_planeArrows {steps : ℕ} {g : Bool} {p q : ℕ × ℕ}
    (h : (p, q) ∈ planeArrows steps g) :
    (p.1 ≤ steps ∧ p.2 ≤ steps) ∧ q.1 ≤ steps ∧ q.2 ≤ steps := by
  rw [mem_planeArrows_iff] at h
  cases g
  · obtain ⟨⟨hq1, hq2, hp1, hp2⟩, -⟩ : IsArrow steps q p := h
    exact ⟨⟨hp1, hp2⟩, hq1, hq2⟩
  · obtain ⟨⟨hp1, hp2, hq1, hq2⟩, -⟩ : IsArrow steps p q := h
    exact ⟨⟨hp1, hp2⟩, hq1, hq2⟩

theorem ne_of_mem_planeArrows {steps : ℕ} {g : Bool} {p q : ℕ × ℕ}
    (h : (p, q) ∈ planeArrows steps g) : p ≠ q := by
  rw [mem_planeArrows_iff] at h
  cases g
  · exact (IsArrow.ne h).symm
  · exact IsArrow.ne h

theorem swap_mem_planeArrows_or {steps : ℕ} {g : Bool} {p q : ℕ × ℕ}
    (h : (p, q) ∈ planeArrows steps g) :
    (q, p) ∈ planeArrows steps g ∨ (∃ h v v', p = (stop steps h, v) ∧ q = (stop steps h, v')) ∨
      ∃ h u u', p = (u, stop steps h) ∧ q = (u', stop steps h) := by
  have hrim : (∃ g, p.1 = stop steps g ∧ q.1 = stop steps g) →
      ∃ h v v', p = (stop steps h, v) ∧ q = (stop steps h, v') := by
    rintro ⟨g, hp, hq⟩
    exact ⟨g, p.2, q.2, Prod.ext hp rfl, Prod.ext hq rfl⟩
  have hrim' : (∃ g, p.2 = stop steps g ∧ q.2 = stop steps g) →
      ∃ h u u', p = (u, stop steps h) ∧ q = (u', stop steps h) := by
    rintro ⟨g, hp, hq⟩
    exact ⟨g, p.1, q.1, Prod.ext rfl hp, Prod.ext rfl hq⟩
  rw [mem_planeArrows_iff] at h
  rw [mem_planeArrows_iff]
  cases g
  · rcases IsArrow.swap_or h with h | ⟨g, hq, hp⟩ | ⟨g, hq, hp⟩
    · exact .inl h
    · exact .inr (.inl (hrim ⟨g, hp, hq⟩))
    · exact .inr (.inr (hrim' ⟨g, hp, hq⟩))
  · exact (IsArrow.swap_or h).imp_right (Or.imp hrim hrim')

/-- The place of a vertex of a side on the lattice of the box. -/
def site (steps : ℕ) (side : Side) (p : ℕ × ℕ) : Vec3 ℕ :=
  Vec3.along side.axis (stop steps side.isHigh) p.1 p.2

theorem site_injective (steps : ℕ) (side : Side) : Function.Injective (site steps side) := by
  intro p q h
  obtain ⟨-, h1, h2⟩ := (Vec3.along_inj side.axis).mp h
  exact Prod.ext h1 h2

/-- A column on the rim of a side is a row on the rim of the next side. -/
theorem site_column (steps : ℕ) (axis : Axis) (g h : Bool) (v : ℕ) :
    site steps ⟨axis, g⟩ (stop steps h, v) = site steps ⟨axis.next, h⟩ (v, stop steps g) :=
  (Vec3.along_next axis _ _ _).symm

def sideArrows (steps : ℕ) (side : Side) : List (Vec3 ℕ × Vec3 ℕ) :=
  (planeArrows steps side.isHigh).map (Prod.map (site steps side) (site steps side))

def arrows (steps : ℕ) : List (Vec3 ℕ × Vec3 ℕ) := sides.flatMap (sideArrows steps)

theorem mem_sides (side : Side) : side ∈ sides := by
  obtain ⟨axis, isHigh⟩ := side
  cases axis <;> cases isHigh <;> decide

theorem mem_arrows_iff {steps : ℕ} {e : Vec3 ℕ × Vec3 ℕ} : e ∈ arrows steps ↔
    ∃ side p q, (p, q) ∈ planeArrows steps side.isHigh ∧
      e = (site steps side p, site steps side q) := by
  constructor
  · intro he
    obtain ⟨side, -, hside⟩ := List.mem_flatMap.mp he
    obtain ⟨⟨p, q⟩, hpq, rfl⟩ := List.mem_map.mp hside
    exact ⟨side, p, q, hpq, rfl⟩
  · rintro ⟨side, p, q, hpq, rfl⟩
    exact List.mem_flatMap.mpr ⟨side, mem_sides side, List.mem_map_of_mem hpq⟩

/-- An edge on the rim of a side has its reverse on the side that meets it there. -/
theorem swap_mem_arrows {steps : ℕ} (hs : 0 < steps) {e : Vec3 ℕ × Vec3 ℕ}
    (he : e ∈ arrows steps) : e.swap ∈ arrows steps := by
  obtain ⟨⟨axis, g⟩, p, q, hpq, rfl⟩ := mem_arrows_iff.mp he
  obtain ⟨⟨hp1, hp2⟩, hq1, hq2⟩ := le_of_mem_planeArrows hpq
  refine mem_arrows_iff.mpr ?_
  rcases swap_mem_planeArrows_or hpq with h | ⟨h, v, v', rfl, rfl⟩ | ⟨h, u, u', rfl, rfl⟩
  · exact ⟨⟨axis, g⟩, q, p, h, rfl⟩
  · rw [column_mem_planeArrows_iff hs hp2 hq2] at hpq
    refine ⟨⟨axis.next, h⟩, (v', stop steps g), (v, stop steps g), ?_, ?_⟩
    · rw [row_mem_planeArrows_iff hs hq2 hp2, climbs_swap]
      cases g <;> cases h <;> exact hpq
    · rw [site_column, site_column, Prod.swap_prod_mk]
  · rw [row_mem_planeArrows_iff hs hp1 hq1] at hpq
    obtain ⟨last, rfl⟩ : ∃ last : Axis, axis = last.next := ⟨axis.next.next, by cases axis <;> rfl⟩
    refine ⟨⟨last, h⟩, (stop steps g, u'), (stop steps g, u), ?_, ?_⟩
    · rw [column_mem_planeArrows_iff hs hq1 hp1, climbs_swap]
      cases g <;> cases h <;> exact hpq
    · rw [site_column, site_column, Prod.swap_prod_mk]

/-- Sides that meet do not follow an edge of both of them in one direction. -/
theorem not_mem_planeArrows_next {steps : ℕ} (hs : 0 < steps) {axis : Axis} {g h : Bool}
    {p q p' q' : ℕ × ℕ} (hpq : (p, q) ∈ planeArrows steps g)
    (hpq' : (p', q') ∈ planeArrows steps h)
    (hp : site steps ⟨axis, g⟩ p = site steps ⟨axis.next, h⟩ p')
    (hq : site steps ⟨axis, g⟩ q = site steps ⟨axis.next, h⟩ q') : False := by
  obtain ⟨⟨-, hp2⟩, -, hq2⟩ := le_of_mem_planeArrows hpq
  obtain ⟨p1, p2⟩ := p
  obtain ⟨q1, q2⟩ := q
  obtain ⟨p1', p2'⟩ := p'
  obtain ⟨q1', q2'⟩ := q'
  have meet {u v u' v' : ℕ} (hsite : site steps ⟨axis, g⟩ (u, v) =
      site steps ⟨axis.next, h⟩ (u', v')) : v' = stop steps g ∧ u = stop steps h ∧ u' = v := by
    obtain ⟨h1, h2, h3⟩ := (Vec3.along_inj axis).mp (hsite.trans (Vec3.along_next axis _ _ _))
    exact ⟨h1.symm, h2, h3.symm⟩
  obtain ⟨rfl, rfl, rfl⟩ := meet hp
  obtain ⟨rfl, rfl, rfl⟩ := meet hq
  rw [column_mem_planeArrows_iff hs hp2 hq2] at hpq
  rw [row_mem_planeArrows_iff hs hp2 hq2] at hpq'
  refine not_climbs_not hpq ?_
  cases g <;> cases h <;> exact hpq'

theorem disjoint_sideArrows {steps : ℕ} (hs : 0 < steps) {s t : Side} (hst : s ≠ t) :
    List.Disjoint (sideArrows steps s) (sideArrows steps t) := by
  intro e hes het
  obtain ⟨⟨p, q⟩, hpq, rfl⟩ := List.mem_map.mp hes
  obtain ⟨⟨p', q'⟩, hpq', hsites⟩ := List.mem_map.mp het
  have hp : site steps t p' = site steps s p := congrArg Prod.fst hsites
  have hq : site steps t q' = site steps s q := congrArg Prod.snd hsites
  obtain ⟨a, g⟩ := s
  obtain ⟨b, h⟩ := t
  rcases Axis.eq_or_next a b with rfl | rfl | rfl
  · obtain ⟨hstop, -, -⟩ := (Vec3.along_inj b).mp hp
    exact hst (congrArg (Side.mk b) (stop_inj hs hstop).symm)
  · exact not_mem_planeArrows_next hs hpq hpq' hp.symm hq.symm
  · exact not_mem_planeArrows_next hs hpq' hpq hp hq

theorem nodup_arrows {steps : ℕ} (hs : 0 < steps) : (arrows steps).Nodup := by
  have hsides : sides.Nodup := by decide
  rw [arrows, List.nodup_flatMap]
  refine ⟨fun side _ => ?_, hsides.imp fun hst => disjoint_sideArrows hs hst⟩
  have hinj := (site_injective steps side).prodMap (site_injective steps side)
  exact (nodup_planeArrows steps side.isHigh).map hinj

end Cuboid

def Triangle.corners {R : Type} (t : Triangle R) : List (Vec3 R) := [t.a, t.b, t.c]

open scoped Exact

variable {K : Type} [Field K] [LinearOrder K] [IsStrictOrderedRing K] [FloorRing K]

/-- Six times the volume between a point and a triangle, positive where the triangle turns away from
the point. -/
def Triangle.volumeFrom (o : Vec3 K) (t : Triangle K) : K :=
  (t.a - o).dot ((t.b - o).cross (t.c - o))

theorem Vec3.along_sub (axis : Axis) (a b c : K) (o : Vec3 K) : along axis a b c - o =
    along axis (a - o.get axis) (b - o.get axis.next) (c - o.get axis.next.next) := by
  cases axis <;> rfl

theorem Vec3.dot_cross_along (axis : Axis) (a b c a' b' c' a'' b'' c'' : K) :
    (along axis a b c).dot ((along axis a' b' c').cross (along axis a'' b'' c'')) =
      a * (b' * c'' - b'' * c') + b * (c' * a'' - c'' * a') + c * (a' * b'' - a'' * b') := by
  cases axis with
  | x => rfl
  | y =>
    simp only [along, dot, cross]
    ring
  | z =>
    simp only [along, dot, cross]
    ring

namespace Cuboid
variable {b : Bounds K} {steps : ℕ}

def place (b : Bounds K) (steps : ℕ) (c : Vec3 ℕ) : Vec3 K :=
  ⟨planeAt b.lo.x b.hi.x steps c.x, planeAt b.lo.y b.hi.y steps c.y,
    planeAt b.lo.z b.hi.z steps c.z⟩

theorem planeAt_injective {lo hi : K} (h : lo < hi) (hs : 0 < steps) :
    Function.Injective (planeAt lo hi steps) :=
  (strictMono_nat_of_lt_succ (planeAt_lt_succ h hs)).injective

theorem place_injective (hb : IsProper b) (hs : 0 < steps) :
    Function.Injective (place b steps) := by
  intro c d h
  obtain ⟨hx, hy, hz⟩ := Vec3.ext_iff.mp h
  exact Vec3.ext (planeAt_injective hb.1 hs hx) (planeAt_injective hb.2.1 hs hy)
    (planeAt_injective hb.2.2 hs hz)

theorem planeAt_stop (lo hi : K) (hs : 0 < steps) (isHigh : Bool) :
    planeAt lo hi steps (stop steps isHigh) = if isHigh then hi else lo := by
  cases isHigh
  · exact planeAt_zero lo hi steps
  · exact planeAt_steps lo hi hs

theorem vertex_eq_place (b : Bounds K) (hs : 0 < steps) (side : Side) (i j : ℕ) :
    vertex b steps side i j = place b steps (site steps side (i, j)) := by
  obtain ⟨axis, isHigh⟩ := side
  cases axis with
  | x =>
    change _ = (⟨planeAt b.lo.x b.hi.x steps (stop steps isHigh), _, _⟩ : Vec3 K)
    rw [planeAt_stop _ _ hs]
    rfl
  | y =>
    change _ = (⟨_, planeAt b.lo.y b.hi.y steps (stop steps isHigh), _⟩ : Vec3 K)
    rw [planeAt_stop _ _ hs]
    rfl
  | z =>
    change _ = (⟨_, _, planeAt b.lo.z b.hi.z steps (stop steps isHigh)⟩ : Vec3 K)
    rw [planeAt_stop _ _ hs]
    rfl

theorem circuits_cuboid (b : Bounds K) (subdivisions : ℕ) :
    (Mesh.cuboid b subdivisions).triangles.flatMap (circuit ·.corners) =
      (arrows (max subdivisions 1)).map
        (Prod.map (place b (max subdivisions 1)) (place b (max subdivisions 1))) := by
  have hs : 0 < max subdivisions 1 := by omega
  rw [Mesh.triangles_cuboid, arrows, List.flatMap_assoc, List.map_flatMap]
  refine List.flatMap_congr fun side _ => ?_
  rw [sideTriangles, sideArrows, planeArrows, List.flatMap_assoc, List.map_map, List.map_flatMap]
  refine List.flatMap_congr fun square _ => ?_
  obtain ⟨i, j⟩ := square
  obtain ⟨axis, isHigh⟩ := side
  simp only [squareTriangles, squareArrows, vertex_eq_place b hs]
  cases isHigh <;> rfl

/-- How far a point is behind a side of a box. -/
def depth (b : Bounds K) (side : Side) (o : Vec3 K) : K :=
  if side.isHigh then b.hi.get side.axis - o.get side.axis
  else o.get side.axis - b.lo.get side.axis

def extent (b : Bounds K) (axis : Axis) : K := b.hi.get axis - b.lo.get axis

theorem planeAt_succ (lo hi : K) (steps i : ℕ) :
    planeAt lo hi steps (i + 1) = planeAt lo hi steps i + (hi - lo) / steps := by
  rw [planeAt_def, planeAt_def, Nat.cast_succ]
  ring

/-- All triangles of a side are as large, and a point is as far behind each of them. -/
theorem volumeFrom_of_mem_squareTriangles {side : Side} {i j : ℕ} {t : Triangle K}
    (ht : t ∈ squareTriangles b steps side i j) (o : Vec3 K) :
    t.volumeFrom o = depth b side o *
      (extent b side.axis.next / steps * (extent b side.axis.next.next / steps)) := by
  have hvertex (i j : ℕ) : vertex b steps side i j = Vec3.along side.axis
      (if side.isHigh then b.hi.get side.axis else b.lo.get side.axis)
      (planeAt (b.lo.get side.axis.next) (b.hi.get side.axis.next) steps i)
      (planeAt (b.lo.get side.axis.next.next) (b.hi.get side.axis.next.next) steps j) := rfl
  unfold squareTriangles at ht
  unfold Triangle.volumeFrom depth extent
  cases hside : side.isHigh with
  | true =>
    simp only [hside, if_true] at ht hvertex ⊢
    rcases List.mem_pair.mp ht with rfl | rfl
    · simp only [hvertex, Vec3.along_sub, Vec3.dot_cross_along, planeAt_succ]
      ring
    · simp only [hvertex, Vec3.along_sub, Vec3.dot_cross_along, planeAt_succ]
      ring
  | false =>
    simp only [hside, Bool.false_eq_true, if_false] at ht hvertex ⊢
    rcases List.mem_pair.mp ht with rfl | rfl
    · simp only [hvertex, Vec3.along_sub, Vec3.dot_cross_along, planeAt_succ]
      ring
    · simp only [hvertex, Vec3.along_sub, Vec3.dot_cross_along, planeAt_succ]
      ring

theorem length_sideTriangles (b : Bounds K) (steps : ℕ) (side : Side) :
    (sideTriangles b steps side).length = 2 * steps ^ 2 := by
  have hsquare : ∀ c ∈ cells steps, (squareTriangles b steps side c.1 c.2).length = 2 := by
    intro c _
    unfold squareTriangles
    cases side.isHigh <;> rfl
  rw [sideTriangles, List.length_flatMap, List.map_congr_left hsquare, List.map_const',
    List.sum_replicate, length_cells, smul_eq_mul]
  ring

theorem sum_volumeFrom_sideTriangles (b : Bounds K) (hs : 0 < steps) (side : Side) (o : Vec3 K) :
    ((sideTriangles b steps side).map (·.volumeFrom o)).sum =
      2 * depth b side o * extent b side.axis.next * extent b side.axis.next.next := by
  have hne : (steps : K) ≠ 0 := Nat.cast_ne_zero.mpr hs.ne'
  have hall : ∀ x ∈ (sideTriangles b steps side).map (·.volumeFrom o), x = depth b side o *
      (extent b side.axis.next / steps * (extent b side.axis.next.next / steps)) := by
    intro x hx
    obtain ⟨t, ht, rfl⟩ := List.mem_map.mp hx
    obtain ⟨i, -, j, -, ht⟩ := mem_sideTriangles_iff.mp ht
    exact volumeFrom_of_mem_squareTriangles ht o
  rw [List.sum_eq_card_nsmul _ _ hall, List.length_map, length_sideTriangles, nsmul_eq_mul]
  push_cast
  field_simp

theorem sum_volumeFrom_cuboid (b : Bounds K) (subdivisions : ℕ) (o : Vec3 K) :
    ((Mesh.cuboid b subdivisions).triangles.map (·.volumeFrom o)).sum =
      6 * (extent b .x * extent b .y * extent b .z) := by
  have hs : 0 < max subdivisions 1 := by omega
  rw [Mesh.triangles_cuboid, List.map_flatMap, sum_flatMap]
  simp only [sum_volumeFrom_sideTriangles b hs]
  simp only [sides, Axis.all, List.flatMap_cons, List.flatMap_nil, List.append_nil,
    List.cons_append, List.nil_append, List.map_cons, List.map_nil, List.sum_cons, List.sum_nil,
    depth, extent, Axis.next, if_true, Bool.false_eq_true, if_false]
  ring

theorem volumeFrom_pos (hs : 0 < steps) {o : Vec3 K}
    (ho : ∀ axis, b.lo.get axis < o.get axis ∧ o.get axis < b.hi.get axis) {side : Side}
    {t : Triangle K} (ht : t ∈ sideTriangles b steps side) : 0 < t.volumeFrom o := by
  obtain ⟨i, -, j, -, ht⟩ := mem_sideTriangles_iff.mp ht
  have hpos : (0 : K) < steps := Nat.cast_pos.mpr hs
  have hextent (axis : Axis) : 0 < extent b axis := sub_pos.mpr ((ho axis).1.trans (ho axis).2)
  have hdepth : 0 < depth b side o := by
    unfold depth
    split_ifs
    · exact sub_pos.mpr (ho side.axis).2
    · exact sub_pos.mpr (ho side.axis).1
  rw [volumeFrom_of_mem_squareTriangles ht]
  exact mul_pos hdepth (mul_pos (div_pos (hextent _) hpos) (div_pos (hextent _) hpos))

theorem length_triangles_cuboid (b : Bounds K) (subdivisions : ℕ) :
    (Mesh.cuboid b subdivisions).triangles.length = 12 * max subdivisions 1 ^ 2 := by
  rw [Mesh.triangles_cuboid, List.length_flatMap]
  simp only [length_sideTriangles]
  simp only [sides, Axis.all, List.flatMap_cons, List.flatMap_nil, List.append_nil,
    List.cons_append, List.nil_append, List.map_cons, List.map_nil, List.sum_cons, List.sum_nil]
  ring

end Cuboid

theorem count_undirected {α : Type} [DecidableEq α] [BEq (α × α)] [LawfulBEq (α × α)]
    (edges : List (α × α)) {a b : α} (h : a ≠ b) :
    (undirected id edges).count s(a, b) = edges.count (a, b) + edges.count (b, a) := by
  induction edges with
  | nil => rfl
  | cons e edges ih =>
    obtain ⟨c, d⟩ := e
    change (s(c, d) :: undirected id edges).count s(a, b) = _
    by_cases hab : (c, d) = (a, b)
    · obtain ⟨rfl, rfl⟩ := Prod.mk.inj hab
      have hne : (c, d) ≠ (d, c) := fun he => h (congrArg Prod.fst he)
      rw [List.count_cons_self, List.count_cons_self, List.count_cons_of_ne hne, ih]
      omega
    · by_cases hba : (c, d) = (b, a)
      · obtain ⟨rfl, rfl⟩ := Prod.mk.inj hba
        rw [Sym2.eq_swap, List.count_cons_self, List.count_cons_self, List.count_cons_of_ne hab,
          Sym2.eq_swap, ih]
        omega
      · have hne : s(c, d) ≠ s(a, b) := by
          intro he
          rcases Sym2.eq_iff.mp he with ⟨rfl, rfl⟩ | ⟨rfl, rfl⟩
          · exact hab rfl
          · exact hba rfl
        rw [List.count_cons_of_ne hne, List.count_cons_of_ne hab, List.count_cons_of_ne hba, ih]

theorem flatMap_sides {R : Type} (ts : List (Triangle R)) :
    ts.flatMap Triangle.sides = undirected id (ts.flatMap (circuit ·.corners)) := by
  rw [undirected, List.map_flatMap]
  rfl

namespace Mesh
open Cuboid

theorem count_circuits_cuboid {b : Bounds K} (hb : IsProper b) (subdivisions : ℕ)
    {e : Vec3 K × Vec3 K}
    (he : e ∈ (cuboid b subdivisions).triangles.flatMap (circuit ·.corners)) :
    e.1 ≠ e.2 ∧ ((cuboid b subdivisions).triangles.flatMap (circuit ·.corners)).count e = 1 ∧
      ((cuboid b subdivisions).triangles.flatMap (circuit ·.corners)).count e.swap = 1 := by
  have hs : 0 < max subdivisions 1 := by omega
  have hplace := place_injective hb hs
  have hnodup := (nodup_arrows hs).map (hplace.prodMap hplace)
  rw [circuits_cuboid] at he ⊢
  obtain ⟨a, ha, rfl⟩ := List.mem_map.mp he
  have hswap := List.mem_map_of_mem (f := Prod.map (place b (max subdivisions 1))
    (place b (max subdivisions 1))) (swap_mem_arrows hs ha)
  refine ⟨fun hab => ?_, List.count_eq_one_of_mem hnodup he,
    List.count_eq_one_of_mem hnodup hswap⟩
  obtain ⟨side, p, q, hpq, rfl⟩ := mem_arrows_iff.mp ha
  exact ne_of_mem_planeArrows hpq (site_injective _ side (hplace hab))

theorem count_sides_cuboid {b : Bounds K} (hb : IsProper b) (subdivisions : ℕ)
    {e : Sym2 (Vec3 K)} (he : e ∈ (cuboid b subdivisions).triangles.flatMap Triangle.sides) :
    ((cuboid b subdivisions).triangles.flatMap Triangle.sides).count e = 2 := by
  rw [flatMap_sides] at he ⊢
  obtain ⟨⟨u, v⟩, ha, rfl⟩ := List.mem_map.mp he
  obtain ⟨hne, hcount, hswap⟩ := count_circuits_cuboid hb subdivisions ha
  exact (count_undirected _ hne).trans (by rw [hcount, ← Prod.swap_prod_mk, hswap])

/-- A box is a closed surface that turns outwards, however finely its sides are cut. -/
theorem cuboid_isClosed {b : Bounds K} (hb : IsProper b) {subdivisions : ℕ}
    (h : 6 * (max subdivisions 1 + 1) ^ 2 ≤ 2 ^ 32) :
    let s := max subdivisions 1
    let m := cuboid b subdivisions
    let edges := m.triangles.flatMap (circuit ·.corners)
    cuboid? b subdivisions = some m ∧ m.vertices.size = 6 * (s + 1) ^ 2 ∧
    m.faces.length = 12 * s ^ 2 ∧ m.faces.map (triangle? m.vertices) = m.triangles.map some ∧
    (∀ e ∈ edges, e.1 ≠ e.2 ∧ edges.count e = 1 ∧ edges.count e.swap = 1) ∧
    (∀ e ∈ m.triangles.flatMap Triangle.sides, (m.triangles.flatMap Triangle.sides).count e = 2) ∧
    (m.triangles.map fun t => t.a.dot (t.b.cross t.c)).sum / 6 =
      (b.hi.x - b.lo.x) * (b.hi.y - b.lo.y) * (b.hi.z - b.lo.z) ∧
    ∀ t ∈ m.triangles, ∀ o : Vec3 K,
      (∀ axis, b.lo.get axis < o.get axis ∧ o.get axis < b.hi.get axis) → 0 < t.volumeFrom o := by
  intro s m edges
  have hs : 0 < s := by omega
  have hall : m.faces.map (triangle? m.vertices) = m.triangles.map some :=
    (wellIndexed_cuboid b subdivisions).map_triangle?
  refine ⟨(cuboid?_eq_some b h).1, ?_, ?_, hall, fun e => count_circuits_cuboid hb subdivisions,
    fun e => count_sides_cuboid hb subdivisions, ?_, fun t ht o ho => ?_⟩
  · rw [size_vertices_cuboid, ← Nat.pow_two]
  · have hlength := congrArg List.length hall
    rwa [List.length_map, List.length_map, length_triangles_cuboid] at hlength
  · have horigin : (fun t : Triangle K => t.a.dot (t.b.cross t.c)) = (·.volumeFrom 0) := by
      funext t
      rw [Triangle.volumeFrom, sub_zero, sub_zero, sub_zero]
    rw [horigin, sum_volumeFrom_cuboid, mul_div_cancel_left₀ _ (by norm_num)]
    rfl
  · have ht : t ∈ (cuboid b subdivisions).triangles := ht
    rw [triangles_cuboid] at ht
    obtain ⟨side, -, ht⟩ := List.mem_flatMap.mp ht
    exact volumeFrom_pos hs ho ht

theorem cuboid_isClosed_ninths :
    let b : Bounds ℚ := ⟨⟨-1, 0, 0⟩, ⟨1, 1 / 2, 3⟩⟩
    let m := cuboid b 3
    let edges := m.triangles.flatMap (circuit ·.corners)
    cuboid? b 3 = some m ∧ m.vertices.size = 96 ∧ m.faces.length = 108 ∧
    (∀ e ∈ edges, edges.count e = 1 ∧ edges.count e.swap = 1) ∧
    (m.triangles.map fun t => t.a.dot (t.b.cross t.c)).sum / 6 = 3 := by
  intro b m edges
  have hb : IsProper b := by
    unfold IsProper
    decide +kernel
  have hfits : 6 * (max 3 1 + 1) ^ 2 ≤ 2 ^ 32 := by decide
  obtain ⟨hsome, hsize, hfaces, -, hedges, -, hvolume, -⟩ := cuboid_isClosed hb hfits
  refine ⟨hsome, hsize, hfaces, fun e he => (hedges e he).2, hvolume.trans ?_⟩
  norm_num [b]

end Mesh
end MaterialPoint
