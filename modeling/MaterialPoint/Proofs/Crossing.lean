import MaterialPoint.Proofs.Exact
import MaterialPoint.Voxels

/-! A point is in a plane triangle when the ray from it crosses an odd number of sides. -/
namespace MaterialPoint
open scoped Exact

variable {K : Type} [Field K] [LinearOrder K] [IsStrictOrderedRing K] [FloorRing K]

namespace Vec2

/-- A point of the line through two points. -/
def OnLine (a b p : Vec2 K) : Prop :=
  ∃ t : K, p = ⟨a.x + t * (b.x - a.x), a.y + t * (b.y - a.y)⟩

theorem sub_perpDot_sub (a b p : Vec2 K) :
    (a - p).perpDot (b - p) = (a.x - p.x) * (b.y - p.y) - (a.y - p.y) * (b.x - p.x) := rfl

theorem perpDot_sub (d a p : Vec2 K) :
    d.perpDot (a - p) = d.x * (a.y - p.y) - d.y * (a.x - p.x) := rfl

theorem perpDot_swap (a b p : Vec2 K) :
    (b - p).perpDot (a - p) = -(a - p).perpDot (b - p) := by
  simp only [sub_perpDot_sub]
  ring

theorem perpDot_self (a p : Vec2 K) : (a - p).perpDot (a - p) = 0 := by
  simp only [sub_perpDot_sub]
  ring

theorem perpDot_balance (d a b c p : Vec2 K) :
    d.perpDot (a - p) * (b - p).perpDot (c - p) + d.perpDot (b - p) * (c - p).perpDot (a - p) +
      d.perpDot (c - p) * (a - p).perpDot (b - p) = 0 := by
  simp only [sub_perpDot_sub]
  simp only [perpDot_sub]
  ring

theorem perpDot_balance_heights (a b c p : Vec2 K) :
    (a.y - p.y) * (b - p).perpDot (c - p) + (b.y - p.y) * (c - p).perpDot (a - p) +
      (c.y - p.y) * (a - p).perpDot (b - p) = 0 := by
  have hbal := perpDot_balance ⟨1, 0⟩ a b c p
  simpa only [perpDot_sub, one_mul, zero_mul, sub_zero] using hbal

theorem onLine_iff {a b : Vec2 K} (h : a ≠ b) (p : Vec2 K) :
    OnLine a b p ↔ (a - p).perpDot (b - p) = 0 := by
  constructor
  · rintro ⟨t, rfl⟩
    simp only [sub_perpDot_sub]
    ring
  · intro h0
    rw [sub_perpDot_sub] at h0
    by_cases hx : b.x - a.x = 0
    · have hy : b.y - a.y ≠ 0 := by
        intro hy
        exact h (Vec2.ext (sub_eq_zero.mp hx).symm (sub_eq_zero.mp hy).symm)
      refine ⟨(p.y - a.y) / (b.y - a.y), Vec2.ext ?_ ?_⟩
      · have hpx : (a.x - p.x) * (b.y - a.y) = 0 := by linear_combination h0 - (p.y - a.y) * hx
        have hax := (mul_eq_zero.mp hpx).resolve_right hy
        dsimp only
        rw [hx, mul_zero, add_zero]
        exact (sub_eq_zero.mp hax).symm
      · dsimp only
        rw [div_mul_cancel₀ _ hy]
        ring
    · refine ⟨(p.x - a.x) / (b.x - a.x), Vec2.ext ?_ ?_⟩
      · dsimp only
        rw [div_mul_cancel₀ _ hx]
        ring
      · dsimp only
        rw [div_mul_eq_mul_div, ← sub_eq_iff_eq_add', eq_div_iff hx]
        linear_combination h0

instance (a b p : Vec2 K) : Decidable (a ≠ b ∧ OnLine a b p) :=
  decidable_of_iff (a ≠ b ∧ (a - p).perpDot (b - p) = 0)
    (and_congr_right fun h => (onLine_iff h p).symm)

end Vec2
namespace Shadow

/-- Whether a point is above the ray from another along the first axis. -/
def isAbove (p a : Vec2 K) : Bool := p.y < a.y

/-- Whether the ray from a point crosses an edge. An end on the line of the ray counts as below
it. -/
def crosses (p a b : Vec2 K) : Bool :=
  (!isAbove p a && isAbove p b && sees p a b) || (isAbove p a && !isAbove p b && sees p b a)

theorem crosses_comm (p a b : Vec2 K) : crosses p a b = crosses p b a := by
  unfold crosses
  rw [Bool.or_comm, Bool.and_comm (isAbove p a), Bool.and_comm (isAbove p b)]

theorem crosses_self (p a : Vec2 K) : crosses p a a = false := by
  unfold crosses
  cases isAbove p a <;> rfl

theorem sees_eq_true_iff (p a b : Vec2 K) :
    sees p a b = true ↔ 0 < (a - p).perpDot (b - p) := decide_eq_true_iff

theorem isAbove_eq_true_iff (p a : Vec2 K) : isAbove p a = true ↔ 0 < a.y - p.y :=
  decide_eq_true_iff.trans sub_pos.symm

theorem sees_self (p a : Vec2 K) : sees p a a = false := by
  rw [Bool.eq_false_iff, Ne, sees_eq_true_iff, Vec2.perpDot_self]
  exact lt_irrefl 0

theorem sees_swap {p a b : Vec2 K} (h : (a - p).perpDot (b - p) ≠ 0) :
    sees p b a = !sees p a b := by
  rw [Bool.eq_iff_iff, Bool.not_eq_true', Bool.eq_false_iff, Ne, sees_eq_true_iff,
    sees_eq_true_iff, Vec2.perpDot_swap]
  constructor
  · intro hn
    linarith
  · intro hn
    exact neg_pos.mpr (lt_of_le_of_ne (not_lt.mp hn) h)

section Balance
variable {u v w A B C : K}

/-- What balances with two numbers of one sign against an area of the other has their sign. -/
theorem pos_iff_of_balance (h : u * B + v * C + w * A = 0) (hA : 0 < A) (hB : B < 0) (hC : 0 < C)
    (hvw : 0 < v ↔ 0 < w) : 0 < u ↔ 0 < v := by
  constructor
  · intro hu
    by_contra hv
    have hw : ¬0 < w := fun hw => hv (hvw.mpr hw)
    have h1 := mul_neg_of_pos_of_neg hu hB
    have h2 := mul_nonpos_of_nonpos_of_nonneg (not_lt.mp hv) hC.le
    have h3 := mul_nonpos_of_nonpos_of_nonneg (not_lt.mp hw) hA.le
    linarith
  · intro hv
    by_contra hu
    have h1 := mul_nonneg_of_nonpos_of_nonpos (not_lt.mp hu) hB.le
    have h2 := mul_pos hv hC
    have h3 := mul_pos (hvw.mp hv) hA
    linarith

/-- Numbers that balance over areas of one sign do not all have one sign. -/
theorem eq_zero_of_balance (h : u * B + v * C + w * A = 0) (hA : 0 < A) (hB : 0 < B) (hC : 0 < C)
    (huv : 0 < u ↔ 0 < v) (hvw : 0 < v ↔ 0 < w) : u = 0 ∧ v = 0 := by
  by_cases hu : 0 < u
  · have h1 := mul_pos hu hB
    have h2 := mul_pos (huv.mp hu) hC
    have h3 := mul_pos (hvw.mp (huv.mp hu)) hA
    linarith
  · have hv : ¬0 < v := fun hv => hu (huv.mpr hv)
    have hw : ¬0 < w := fun hw => hv (hvw.mpr hw)
    have h1 := mul_nonpos_of_nonpos_of_nonneg (not_lt.mp hu) hB.le
    have h2 := mul_nonpos_of_nonpos_of_nonneg (not_lt.mp hv) hC.le
    have h3 := mul_nonpos_of_nonpos_of_nonneg (not_lt.mp hw) hA.le
    have hu0 : u * B = 0 := by linarith
    have hv0 : v * C = 0 := by linarith
    exact ⟨(mul_eq_zero.mp hu0).resolve_right hB.ne', (mul_eq_zero.mp hv0).resolve_right hC.ne'⟩

end Balance

/-- The corner between two sides that are seen alike is on the side of the ray where the others
are. -/
theorem isAbove_eq_of_sees {p a b c : Vec2 K} (hab : (a - p).perpDot (b - p) ≠ 0)
    (hbc : (b - p).perpDot (c - p) ≠ 0) (hca : (c - p).perpDot (a - p) ≠ 0)
    (h1 : sees p c a = sees p a b) (h2 : sees p b c ≠ sees p a b)
    (h : isAbove p b = isAbove p c) : isAbove p a = isAbove p b := by
  have hbal := Vec2.perpDot_balance_heights a b c p
  rw [Bool.eq_iff_iff, isAbove_eq_true_iff, isAbove_eq_true_iff] at h ⊢
  cases hs : sees p a b with
  | true =>
    rw [hs] at h1 h2
    have hA := (sees_eq_true_iff p a b).mp hs
    have hC := (sees_eq_true_iff p c a).mp h1
    have hB : ¬0 < (b - p).perpDot (c - p) := fun hB => h2 ((sees_eq_true_iff p b c).mpr hB)
    exact pos_iff_of_balance hbal hA (lt_of_le_of_ne (not_lt.mp hB) hbc) hC h
  | false =>
    rw [hs] at h1 h2
    have hA : ¬0 < (a - p).perpDot (b - p) := fun hA =>
      Bool.eq_false_iff.mp hs ((sees_eq_true_iff p a b).mpr hA)
    have hC : ¬0 < (c - p).perpDot (a - p) := fun hC =>
      Bool.eq_false_iff.mp h1 ((sees_eq_true_iff p c a).mpr hC)
    have hB : 0 < (b - p).perpDot (c - p) :=
      (sees_eq_true_iff p b c).mp (Bool.not_eq_false _ ▸ h2)
    have hA' := neg_pos.mpr (lt_of_le_of_ne (not_lt.mp hA) hab)
    have hC' := neg_pos.mpr (lt_of_le_of_ne (not_lt.mp hC) hca)
    exact pos_iff_of_balance (by linear_combination -hbal) hA' (neg_neg_of_pos hB) hC' h

theorem not_isAbove_eq_of_sees {p a b c : Vec2 K} (hab : (a - p).perpDot (b - p) ≠ 0)
    (hbc : (b - p).perpDot (c - p) ≠ 0) (hca : (c - p).perpDot (a - p) ≠ 0)
    (h1 : sees p b c = sees p a b) (h2 : sees p c a = sees p a b) :
    ¬(isAbove p a = isAbove p b ∧ isAbove p b = isAbove p c) := by
  rintro ⟨hu, hv⟩
  have hbal := Vec2.perpDot_balance_heights a b c p
  rw [Bool.eq_iff_iff, isAbove_eq_true_iff, isAbove_eq_true_iff] at hu hv
  have hflat : ¬(a.y - p.y = 0 ∧ b.y - p.y = 0) := by
    rintro ⟨ha, hb⟩
    rw [Vec2.sub_perpDot_sub, ha, hb, mul_zero, zero_mul, sub_zero] at hab
    exact hab rfl
  cases hs : sees p a b with
  | true =>
    rw [hs] at h1 h2
    exact hflat (eq_zero_of_balance hbal ((sees_eq_true_iff p a b).mp hs)
      ((sees_eq_true_iff p b c).mp h1) ((sees_eq_true_iff p c a).mp h2) hu hv)
  | false =>
    rw [hs] at h1 h2
    have hneg {a b : Vec2 K} (h0 : (a - p).perpDot (b - p) ≠ 0) (h : sees p a b = false) :
        0 < -(a - p).perpDot (b - p) := by
      have hn : ¬0 < (a - p).perpDot (b - p) := fun hn =>
        Bool.eq_false_iff.mp h ((sees_eq_true_iff p a b).mpr hn)
      exact neg_pos.mpr (lt_of_le_of_ne (not_lt.mp hn) h0)
    exact hflat (eq_zero_of_balance (by linear_combination -hbal) (hneg hab hs) (hneg hbc h1)
      (hneg hca h2) hu hv)

/-- How three sides are seen and where their corners are decides the parity of the crossings. -/
private theorem xor_of_sees : ∀ ha hb hc ab bc ca : Bool,
    (bc = ab → ca = ab → ¬(ha = hb ∧ hb = hc)) → (ca = ab → bc ≠ ab → hb = hc → ha = hb) →
    (ab = bc → ca ≠ bc → hc = ha → hb = hc) → (bc = ca → ab ≠ ca → ha = hb → hc = ha) →
    ((ab && bc && ca) || (!ab && !bc && !ca)) =
      ((((!ha && hb && ab) || (ha && !hb && !ab)) ^^ ((!hb && hc && bc) || (hb && !hc && !bc))) ^^
        ((!hc && ha && ca) || (hc && !ha && !ca))) := by
  intro ha hb hc ab bc ca
  cases ha <;> cases hb <;> cases hc <;> cases ab <;> cases bc <;> cases ca <;> simp

/-- A point in line with no side is in a triangle when the ray from it crosses an odd number of
sides. -/
theorem covers_eq_xor {s : Shadow K} {p : Vec2 K} (hs : ¬(s.a = s.b ∧ s.b = s.c))
    (hab : s.a ≠ s.b → ¬Vec2.OnLine s.a s.b p) (hbc : s.b ≠ s.c → ¬Vec2.OnLine s.b s.c p)
    (hca : s.c ≠ s.a → ¬Vec2.OnLine s.c s.a p) :
    s.covers p = ((crosses p s.a s.b ^^ crosses p s.b s.c) ^^ crosses p s.c s.a) := by
  have hline {a b : Vec2 K} (hab : a ≠ b → ¬Vec2.OnLine a b p) (h : a ≠ b) :
      (a - p).perpDot (b - p) ≠ 0 := fun h0 => hab h ((Vec2.onLine_iff h p).mpr h0)
  unfold covers
  dsimp only
  -- Two corners in one place have no side, and the other two sides are seen from both ends.
  by_cases eab : s.a = s.b
  · have ebc : s.b ≠ s.c := fun ebc => hs ⟨eab, ebc⟩
    rw [eab, sees_self, sees_swap (hline hbc ebc), crosses_self, crosses_comm p s.c]
    cases sees p s.b s.c <;> simp
  by_cases ebc : s.b = s.c
  · rw [ebc, sees_self, crosses_self, crosses_comm p s.c]
    rw [ebc] at eab
    rw [sees_swap (hline hca (Ne.symm eab))]
    cases sees p s.c s.a <;> simp
  by_cases eca : s.c = s.a
  · rw [eca, sees_self, crosses_self, crosses_comm p s.b, sees_swap (hline hab eab)]
    cases sees p s.a s.b <;> simp
  have nab := hline hab eab
  have nbc := hline hbc ebc
  have nca := hline hca eca
  unfold crosses
  rw [sees_swap nab, sees_swap nbc, sees_swap nca]
  exact xor_of_sees _ _ _ _ _ _ (not_isAbove_eq_of_sees nab nbc nca)
    (isAbove_eq_of_sees nab nbc nca) (isAbove_eq_of_sees nbc nca nab)
    (isAbove_eq_of_sees nca nab nbc)

end Shadow
end MaterialPoint
