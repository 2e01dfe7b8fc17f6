import MaterialPoint.Proofs.Health
import MaterialPoint.Proofs.Linear
import MaterialPoint.Mesh.Cuboid
import MaterialPoint.Mesh.Placement

/-! Meshes fitted into place fill it exactly, and fitting them again changes nothing. -/
namespace MaterialPoint
open scoped Exact

variable {K : Type} [Field K] [LinearOrder K] [IsStrictOrderedRing K] [FloorRing K]

namespace Vec3

theorem ext_get {R : Type} {v w : Vec3 R} (h : ∀ axis, v.get axis = w.get axis) : v = w :=
  Vec3.ext (h .x) (h .y) (h .z)

theorem get_least (v w : Vec3 K) (axis : Axis) :
    (v.least w).get axis = min (v.get axis) (w.get axis) := by
  cases axis <;> exact Exact.least_eq_min _ _

theorem get_greatest (v w : Vec3 K) (axis : Axis) :
    (v.greatest w).get axis = max (v.get axis) (w.get axis) := by
  cases axis <;> exact Exact.greatest_eq_max _ _

theorem get_add (v w : Vec3 K) (axis : Axis) : (v + w).get axis = v.get axis + w.get axis := by
  cases axis <;> rfl

theorem get_sub (v w : Vec3 K) (axis : Axis) : (v - w).get axis = v.get axis - w.get axis := by
  cases axis <;> rfl

theorem get_smul (a : K) (v : Vec3 K) (axis : Axis) : (a • v).get axis = v.get axis * a := by
  cases axis <;> rfl

theorem greatestComponent_eq (v : Vec3 K) : v.greatestComponent = max v.x (max v.y v.z) := by
  rw [greatestComponent, Exact.greatest_eq_max, Exact.greatest_eq_max]

theorem isGreatest_greatestComponent (v : Vec3 K) :
    IsGreatest (Set.range v.get) v.greatestComponent := by
  rw [greatestComponent_eq]
  constructor
  · rcases max_choice v.x (max v.y v.z) with h | h
    · exact ⟨.x, h.symm⟩
    · rw [h]
      rcases max_choice v.y v.z with h | h
      · exact ⟨.y, h.symm⟩
      · exact ⟨.z, h.symm⟩
  · rintro a ⟨axis, rfl⟩
    cases axis with
    | x => exact le_max_left _ _
    | y => exact (le_max_left _ _).trans (le_max_right _ _)
    | z => exact (le_max_right _ _).trans (le_max_right _ _)

theorem greatestComponent_smul {a : K} (ha : 0 ≤ a) (v : Vec3 K) :
    (a • v).greatestComponent = v.greatestComponent * a := by
  simp only [greatestComponent_eq, smul_def, max_mul_of_nonneg _ _ ha]

end Vec3

namespace Bounds

/-- Along each axis the box reaches from the least coordinate of the points to the greatest. -/
def IsTight (b : Bounds K) (s : Set (Vec3 K)) : Prop :=
  ∀ axis, IsLeast ((Vec3.get · axis) '' s) (b.lo.get axis) ∧
    IsGreatest ((Vec3.get · axis) '' s) (b.hi.get axis)

namespace IsTight
variable {b c : Bounds K} {s : Set (Vec3 K)}

theorem unique (hb : b.IsTight s) (hc : c.IsTight s) : b = c :=
  Bounds.ext (Vec3.ext_get fun axis => (hb axis).1.unique (hc axis).1)
    (Vec3.ext_get fun axis => (hb axis).2.unique (hc axis).2)

theorem get_mem (hb : b.IsTight s) {v : Vec3 K} (hv : v ∈ s) (axis : Axis) :
    b.lo.get axis ≤ v.get axis ∧ v.get axis ≤ b.hi.get axis :=
  ⟨(hb axis).1.2 ⟨v, hv, rfl⟩, (hb axis).2.2 ⟨v, hv, rfl⟩⟩

theorem contains (hb : b.IsTight s) {v : Vec3 K} (hv : v ∈ s) : b.Contains v :=
  ⟨hb.get_mem hv .x, hb.get_mem hv .y, hb.get_mem hv .z⟩

theorem insert (hb : b.IsTight s) (p : Vec3 K) : (b.insert p).IsTight (Insert.insert p s) := by
  intro axis
  obtain ⟨hlo, hhi⟩ := hb axis
  rw [Bounds.insert, Vec3.get_least, Vec3.get_greatest, min_comm, max_comm, Set.image_insert_eq]
  exact ⟨hlo.insert _, hhi.insert _⟩

theorem foldl_insert (hb : b.IsTight s) (l : List (Vec3 K)) :
    (l.foldl Bounds.insert b).IsTight ({v | v ∈ l} ∪ s) := by
  induction l generalizing b s with
  | nil =>
    have hset : {v : Vec3 K | v ∈ []} ∪ s = s := by simp
    rwa [hset]
  | cons p l ih =>
    have hset : {v | v ∈ p :: l} ∪ s = {v | v ∈ l} ∪ Insert.insert p s := by
      ext v
      simp only [Set.mem_union, Set.mem_insert_iff, Set.mem_ofPred_eq, List.mem_cons]
      tauto
    rw [hset]
    exact ih (hb.insert p)

theorem image_affine (hb : b.IsTight s) {scale : K} (hscale : 0 < scale) (offset : Vec3 K) :
    IsTight ⟨scale • b.lo + offset, scale • b.hi + offset⟩ ((scale • · + offset) '' s) := by
  intro axis
  have hmono : Monotone fun a : K => a * scale + offset.get axis := fun _ _ h =>
    add_le_add_left (mul_le_mul_of_nonneg_right h hscale.le) _
  have himage : (Vec3.get · axis) '' ((scale • · + offset) '' s) =
      (fun a => a * scale + offset.get axis) '' ((Vec3.get · axis) '' s) := by
    simp only [Set.image_image, Vec3.get_add, Vec3.get_smul]
  rw [himage, Vec3.get_add, Vec3.get_smul, Vec3.get_add, Vec3.get_smul]
  exact ⟨hmono.map_isLeast (hb axis).1, hmono.map_isGreatest (hb axis).2⟩

theorem eq_lo (hb : b.IsTight s) (hall : ∀ v ∈ s, ∀ w ∈ s, v = w) {v : Vec3 K} (hv : v ∈ s) :
    v = b.lo := by
  refine Vec3.ext_get fun axis => ?_
  obtain ⟨w, hw, hlo⟩ := (hb axis).1.1
  rw [hall v hv w hw]
  exact hlo

/-- A box without extent is the least one only around a single point. -/
theorem greatestComponent_le_zero_iff (hb : b.IsTight s) :
    (b.hi - b.lo).greatestComponent ≤ 0 ↔ ∀ v ∈ s, ∀ w ∈ s, v = w := by
  constructor
  · intro hle v hv w hw
    refine Vec3.ext_get fun axis => ?_
    have haxis : b.hi.get axis - b.lo.get axis ≤ 0 := by
      rw [← Vec3.get_sub]
      exact ((b.hi - b.lo).isGreatest_greatestComponent.2 ⟨axis, rfl⟩).trans hle
    have hv := hb.get_mem hv axis
    have hw := hb.get_mem hw axis
    exact le_antisymm (by linarith) (by linarith)
  · intro hall
    obtain ⟨axis, haxis⟩ := (b.hi - b.lo).isGreatest_greatestComponent.1
    obtain ⟨v, hv, hlo⟩ := (hb axis).1.1
    obtain ⟨w, hw, hhi⟩ := (hb axis).2.1
    have hlo : v.get axis = b.lo.get axis := hlo
    have hhi : w.get axis = b.hi.get axis := hhi
    rw [← haxis, Vec3.get_sub, ← hlo, ← hhi, hall v hv w hw, sub_self]

end IsTight

/-- The box of a fold over some points is the least one around them. -/
theorem of?_eq_some_iff {b : Bounds K} {l : List (Vec3 K)} :
    of? l = some b ↔ b.IsTight {v | v ∈ l} := by
  cases l with
  | nil =>
    constructor
    · intro h
      cases h
    · intro h
      obtain ⟨v, hv, -⟩ := (h .x).1.1
      cases hv
  | cons p ps =>
    have hp : IsTight ⟨p, p⟩ {p} := fun axis => by
      rw [Set.image_singleton]
      exact ⟨isLeast_singleton, isGreatest_singleton⟩
    have hset : {v | v ∈ p :: ps} ∪ {p} = {v | v ∈ p :: ps} := by
      simp
    have htight := hp.foldl_insert (p :: ps)
    rw [hset] at htight
    constructor
    · intro h
      exact Option.some.inj h ▸ htight
    · intro h
      exact congrArg some (htight.unique h)

end Bounds

namespace Mesh
variable {m : Mesh K} {b : Bounds K} {scale size : K} {origin : Vec3 K}

theorem bounds?_eq_some_iff : m.bounds? = some b ↔ b.IsTight {v | v ∈ m.vertices} := by
  simp only [bounds?, Bounds.of?_eq_some_iff, Array.mem_toList_iff]

theorem exists_bounds (hm : m.vertices ≠ #[]) : ∃ b, m.bounds? = some b := by
  unfold bounds?
  cases h : m.vertices.toList with
  | nil => exact absurd (Array.toList_eq_nil_iff.mp h) hm
  | cons p ps => exact ⟨_, rfl⟩

theorem bounds?_transform (hb : m.bounds? = some b) (hscale : 0 < scale) (offset : Vec3 K) :
    (m.transform scale offset).bounds? = some ⟨scale • b.lo + offset, scale • b.hi + offset⟩ := by
  have himage : {v | v ∈ (m.transform scale offset).vertices} =
      (scale • · + offset) '' {v | v ∈ m.vertices} := by
    ext v
    simp only [transform, Array.mem_map, Set.mem_image, Set.mem_ofPred_eq]
  rw [bounds?_eq_some_iff, himage]
  exact (bounds?_eq_some_iff.mp hb).image_affine hscale offset

theorem transform_one_zero (m : Mesh K) : m.transform 1 0 = m := by
  unfold transform
  simp only [one_smul, add_zero, Array.map_id']

/-- The factor that a mesh is scaled by to be fitted. -/
def fitScale (b : Bounds K) (size : K) : K :=
  if (b.hi - b.lo).greatestComponent ≤ 0 then 1 else size / (b.hi - b.lo).greatestComponent

theorem fitScale_pos (b : Bounds K) (hsize : 0 < size) : 0 < fitScale b size := by
  unfold fitScale
  split
  next => exact one_pos
  next h => exact div_pos hsize (not_le.mp h)

theorem fit_eq_transform (hb : m.bounds? = some b) (origin : Vec3 K) (size : K) :
    m.fit origin size = m.transform (fitScale b size) (origin - fitScale b size • b.lo) := by
  unfold fit fitScale
  rw [hb]
  by_cases h : (b.hi - b.lo).greatestComponent ≤ 0
  · rw [if_pos h, one_smul]
    exact if_pos h
  · rw [if_neg h]
    exact if_neg h

theorem bounds?_fit (hb : m.bounds? = some b) (origin : Vec3 K) (hsize : 0 < size) :
    (m.fit origin size).bounds? =
      some ⟨origin, origin + fitScale b size • (b.hi - b.lo)⟩ := by
  rw [fit_eq_transform hb, bounds?_transform hb (fitScale_pos b hsize), add_sub_cancel, smul_sub]
  congr 2
  abel

theorem greatestComponent_fit (b : Bounds K) (hsize : 0 < size) :
    (fitScale b size • (b.hi - b.lo)).greatestComponent =
      if (b.hi - b.lo).greatestComponent ≤ 0 then (b.hi - b.lo).greatestComponent else size := by
  rw [Vec3.greatestComponent_smul (fitScale_pos b hsize).le, fitScale]
  split
  next => rw [mul_one]
  next h => rw [mul_div_cancel₀ _ (not_le.mp h).ne']

theorem fitScale_fit (b : Bounds K) (origin : Vec3 K) (hsize : 0 < size) :
    fitScale ⟨origin, origin + fitScale b size • (b.hi - b.lo)⟩ size = 1 := by
  rw [fitScale, add_sub_cancel_left, greatestComponent_fit b hsize]
  by_cases h : (b.hi - b.lo).greatestComponent ≤ 0
  · rw [if_pos h, if_pos h]
  · rw [if_neg h, if_neg hsize.not_ge, div_self hsize.ne']

theorem fit_fit (hb : m.bounds? = some b) (origin : Vec3 K) (hsize : 0 < size) :
    (m.fit origin size).fit origin size = m.fit origin size := by
  rw [fit_eq_transform (bounds?_fit hb origin hsize), fitScale_fit b origin hsize, one_smul,
    sub_self, transform_one_zero]

theorem contains_fit (hb : m.bounds? = some b) (origin : Vec3 K) (hsize : 0 < size) {v : Vec3 K}
    (hv : v ∈ (m.fit origin size).vertices) :
    Bounds.Contains ⟨origin, origin + Vec3.splat size⟩ v := by
  have htight := bounds?_eq_some_iff.mp (bounds?_fit hb origin hsize)
  have hside (axis : Axis) : (fitScale b size • (b.hi - b.lo)).get axis ≤ size := by
    refine ((Vec3.isGreatest_greatestComponent _).2 ⟨axis, rfl⟩).trans ?_
    rw [greatestComponent_fit b hsize]
    split
    next h => exact h.trans hsize.le
    next => exact le_rfl
  obtain ⟨⟨hx, hx'⟩, ⟨hy, hy'⟩, hz, hz'⟩ := htight.contains hv
  exact ⟨⟨hx, hx'.trans (add_le_add_right (hside .x) _)⟩,
    ⟨hy, hy'.trans (add_le_add_right (hside .y) _)⟩,
    hz, hz'.trans (add_le_add_right (hside .z) _)⟩

theorem vertices_fit (hb : m.bounds? = some b) (origin : Vec3 K) (size : K) :
    (m.fit origin size).vertices =
      m.vertices.map fun v => origin + fitScale b size • (v - b.lo) := by
  have hmap (v : Vec3 K) : fitScale b size • v + (origin - fitScale b size • b.lo) =
      origin + fitScale b size • (v - b.lo) := by
    rw [smul_sub]
    abel
  rw [fit_eq_transform hb, transform]
  simp only [hmap]

theorem isGreatest_fit (hb : b.IsTight {v | v ∈ m.vertices}) (hsize : 0 < size)
    (hne : ∃ v ∈ m.vertices, ∃ w ∈ m.vertices, v ≠ w) :
    IsGreatest (Set.range (fitScale b size • (b.hi - b.lo)).get) size := by
  obtain ⟨v, hv, w, hw, hne⟩ := hne
  have hlong : ¬(b.hi - b.lo).greatestComponent ≤ 0 := fun hle =>
    hne (hb.greatestComponent_le_zero_iff.mp hle v hv w hw)
  have hgreatest := (fitScale b size • (b.hi - b.lo)).isGreatest_greatestComponent
  rwa [greatestComponent_fit b hsize, if_neg hlong] at hgreatest

theorem eq_origin_of_mem_fit (hb : m.bounds? = some b)
    (hall : ∀ v ∈ m.vertices, ∀ w ∈ m.vertices, v = w) {v : Vec3 K}
    (hv : v ∈ (m.fit origin size).vertices) : v = origin := by
  have htight := bounds?_eq_some_iff.mp hb
  rw [vertices_fit hb] at hv
  obtain ⟨w, hw, rfl⟩ := Array.mem_map.mp hv
  rw [htight.eq_lo hall hw, sub_self, smul_zero, add_zero]

/-- A fitted mesh fills its place along its longest side. A single point goes to the corner. -/
theorem fit_fills_place (hm : m.vertices ≠ #[]) (origin : Vec3 K) (hsize : 0 < size) :
    let m' := m.fit origin size
    ∃ (b b' : Bounds K) (scale : K), m.bounds? = some b ∧ b.IsTight {v | v ∈ m.vertices} ∧
      m'.bounds? = some b' ∧ b'.IsTight {v | v ∈ m'.vertices} ∧ b'.lo = origin ∧
      0 < scale ∧ b'.hi - b'.lo = scale • (b.hi - b.lo) ∧
      m'.vertices = m.vertices.map (fun v => origin + scale • (v - b.lo)) ∧
      (∀ v ∈ m'.vertices, Bounds.Contains ⟨origin, origin + Vec3.splat size⟩ v) ∧
      ((∃ v ∈ m.vertices, ∃ w ∈ m.vertices, v ≠ w) →
        IsGreatest (Set.range (b'.hi - b'.lo).get) size) ∧
      ((∀ v ∈ m.vertices, ∀ w ∈ m.vertices, v = w) → ∀ v ∈ m'.vertices, v = origin) ∧
      m'.normals = m.normals ∧ m'.faces = m.faces ∧ m'.fit origin size = m' := by
  intro m'
  obtain ⟨b, hb⟩ := exists_bounds hm
  have htight := bounds?_eq_some_iff.mp hb
  have hb' := bounds?_fit hb origin hsize
  have hextent : origin + fitScale b size • (b.hi - b.lo) - origin =
      fitScale b size • (b.hi - b.lo) := add_sub_cancel_left _ _
  have hfit : m' = m.transform _ _ := fit_eq_transform hb origin size
  refine ⟨b, _, fitScale b size, hb, htight, hb', bounds?_eq_some_iff.mp hb', rfl,
    fitScale_pos b hsize, hextent, vertices_fit hb origin size,
    fun v => contains_fit hb origin hsize, fun hne => ?_,
    fun hall v hv => eq_origin_of_mem_fit hb hall hv, ?_, ?_, fit_fit hb origin hsize⟩
  · rw [hextent]
    exact isGreatest_fit htight hsize hne
  · rw [hfit, transform]
  · rw [hfit, transform]

/-- A flat triangle whose longest side is three times that of its place. -/
theorem fit_fills_place_flat :
    let m : Mesh ℚ := ⟨#[⟨1, 2, 3⟩, ⟨7, 2, 3⟩, ⟨4, 5, 3⟩], none, [⟨0, 1, 2⟩]⟩
    let m' := m.fit ⟨0, -1, 0⟩ 2
    m.vertices ≠ #[] ∧ (0 : ℚ) < 2 ∧ (∃ v ∈ m.vertices, ∃ w ∈ m.vertices, v ≠ w) ∧
      m'.vertices = #[⟨0, -1, 0⟩, ⟨2, -1, 0⟩, ⟨1, 0, 0⟩] ∧
      m'.bounds? = some ⟨⟨0, -1, 0⟩, ⟨2, 0, 0⟩⟩ ∧ m'.fit ⟨0, -1, 0⟩ 2 = m' := by
  intro m m'
  have hm : m.vertices ≠ #[] := by simp [m]
  have hsize : (0 : ℚ) < 2 := by norm_num
  have hne : ∃ v ∈ m.vertices, ∃ w ∈ m.vertices, v ≠ w :=
    ⟨⟨1, 2, 3⟩, by simp [m], ⟨7, 2, 3⟩, by simp [m], by decide⟩
  obtain ⟨-, -, -, -, -, -, -, -, -, -, -, -, -, -, -, -, hfit⟩ :=
    fit_fills_place hm ⟨0, -1, 0⟩ hsize
  refine ⟨hm, hsize, hne, ?_, ?_, hfit⟩
  · decide +kernel
  · decide +kernel

end Mesh
end MaterialPoint
