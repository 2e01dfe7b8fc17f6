import Mathlib
import MaterialPoint.Scalar.Sum

/-! Sums over lists: the sums of the solver, sums of sums, and sums gathered by a key. -/
namespace MaterialPoint

theorem sumInOrder_eq_sum {M : Type} [AddCommMonoid M] (terms : List M) :
    sumInOrder terms = terms.sum :=
  List.sum_eq_foldl.symm

theorem sumByEighths_eq_sum {M : Type} [AddCommMonoid M] (terms : List M) :
    sumByEighths terms = terms.sum := by
  rw [sumByEighths, sumByHalves_eq_sumInOrder add_assoc zero_add add_zero, sumInOrder_eq_sum]

theorem sum_flatMap {ι M : Type} [AddCommMonoid M] (l : List ι) (f : ι → List M) :
    (l.flatMap f).sum = (l.map fun i => (f i).sum).sum := by
  rw [List.flatMap_def, List.sum_flatten, List.map_map]
  rfl

theorem flatMap_filter_of_nil {ι α : Type} {keep : ι → Bool} {f : ι → List α} {l : List ι}
    (h : ∀ i ∈ l, keep i = false → f i = []) : (l.filter keep).flatMap f = l.flatMap f := by
  induction l with
  | nil => rfl
  | cons i l ih =>
    have hl := ih fun j hj => h j (List.mem_cons_of_mem i hj)
    rw [List.filter_cons, List.flatMap_cons]
    split_ifs with hi
    · rw [List.flatMap_cons, hl]
    · rw [hl, h i List.mem_cons_self (Bool.eq_false_iff.mpr hi), List.nil_append]

theorem map_sum_map {ι M N : Type} [AddMonoid M] [AddMonoid N] (f : M → N) (h0 : f 0 = 0)
    (ha : ∀ a b, f (a + b) = f a + f b) (l : List ι) (g : ι → M) :
    f (l.map g).sum = (l.map fun i => f (g i)).sum := by
  induction l with
  | nil => exact h0
  | cons i l ih => rw [List.map_cons, List.sum_cons, ha, ih, List.map_cons, List.sum_cons]

theorem sum_map_modify {α M : Type} [AddCommMonoid M] {φ : α → M} {f : α → α} {δ : M}
    (hf : ∀ a, φ (f a) = φ a + δ) {l : List α} {i : ℕ} (hi : i < l.length) :
    ((l.modify i f).map φ).sum = (l.map φ).sum + δ := by
  induction l generalizing i with
  | nil => cases hi
  | cons a l ih =>
    cases i with
    | zero => rw [List.modify_zero_cons, List.map_cons, List.sum_cons, hf, List.map_cons,
        List.sum_cons, add_right_comm]
    | succ i =>
      have hl := ih (Nat.lt_of_succ_lt_succ hi)
      rw [List.modify_succ_cons, List.map_cons, List.sum_cons, hl, List.map_cons, List.sum_cons,
        add_assoc]

section Mean
variable {ι K : Type} [Field K] [LinearOrder K] [IsStrictOrderedRing K] {l : List ι} {w f : ι → K}

/-- A weighted mean is not above what bounds its terms. -/
theorem sum_mul_weight_le {r : K} (hw : ∀ i ∈ l, 0 ≤ w i) (h1 : (l.map w).sum = 1)
    (hf : ∀ i ∈ l, f i ≤ r) : (l.map fun i => f i * w i).sum ≤ r := by
  calc (l.map fun i => f i * w i).sum ≤ (l.map fun i => r * w i).sum :=
        List.sum_le_sum fun i hi => mul_le_mul_of_nonneg_right (hf i hi) (hw i hi)
    _ = r := by rw [List.sum_map_mul_left, h1, mul_one]

theorem le_sum_mul_weight {r : K} (hw : ∀ i ∈ l, 0 ≤ w i) (h1 : (l.map w).sum = 1)
    (hf : ∀ i ∈ l, r ≤ f i) : r ≤ (l.map fun i => f i * w i).sum := by
  calc r = (l.map fun i => r * w i).sum := by rw [List.sum_map_mul_left, h1, mul_one]
    _ ≤ (l.map fun i => f i * w i).sum :=
        List.sum_le_sum fun i hi => mul_le_mul_of_nonneg_right (hf i hi) (hw i hi)

end Mean

section Keyed
variable {ι κ M N : Type} [DecidableEq κ] [AddCommMonoid M] [AddCommMonoid N]

def sumAt (key : ι → κ) (f : ι → M) (l : List ι) (c : κ) : M :=
  (l.map fun i => if key i = c then f i else 0).sum

theorem sumAt_congr {key : ι → κ} {f g : ι → M} {l : List ι} (h : ∀ i ∈ l, f i = g i) (c : κ) :
    sumAt key f l c = sumAt key g l c := by
  unfold sumAt
  congr 1
  exact List.map_congr_left fun i hi => by rw [h i hi]

theorem sumAt_smul {K V : Type} [Semiring K] [AddCommMonoid V] [Module K V] (key : ι → κ)
    (f : ι → K) (v : κ → V) (l : List ι) (c : κ) :
    sumAt key (fun i => f i • v (key i)) l c = sumAt key f l c • v c := by
  rw [sumAt, sumAt, map_sum_map (fun a : K => a • v c) (zero_smul K _) fun a b => add_smul a b _]
  congr 1
  refine List.map_congr_left fun i _ => ?_
  split_ifs with h
  · rw [h]
  · rw [zero_smul]

theorem sumAt_add (key : ι → κ) (f g : ι → M) (l : List ι) (c : κ) :
    sumAt key (fun i => f i + g i) l c = sumAt key f l c + sumAt key g l c := by
  rw [sumAt, sumAt, sumAt, ← List.sum_map_add]
  congr 1
  refine List.map_congr_left fun i _ => ?_
  split_ifs
  · rfl
  · exact (add_zero 0).symm

/-- A sum of terms that depend linearly on what their keys hold is a sum over keys. -/
theorem sum_map_eq_sum_sumAt (key : ι → κ) (f : ι → M) (L : κ → M →+ N) (l : List ι)
    (keys : Finset κ) (h : ∀ i ∈ l, key i ∈ keys) :
    (l.map fun i => L (key i) (f i)).sum = ∑ c ∈ keys, L c (sumAt key f l c) := by
  induction l with
  | nil => simp [sumAt]
  | cons i l ih =>
    have hi : ∑ c ∈ keys, L c (if key i = c then f i else 0) = L (key i) (f i) := by
      rw [Finset.sum_eq_single (key i)]
      · rw [if_pos rfl]
      · intro c _ hc
        rw [if_neg (Ne.symm hc), map_zero]
      · intro hn
        exact absurd (h i List.mem_cons_self) hn
    have hl := ih fun j hj => h j (List.mem_cons_of_mem i hj)
    simp only [sumAt, List.map_cons, List.sum_cons, map_add, Finset.sum_add_distrib, hi] at hl ⊢
    rw [hl]

theorem sum_map_congr_of_sumAt (key : ι → κ) (f g : ι → M) (L : κ → M →+ N) (l : List ι)
    (h : ∀ c, sumAt key f l c = sumAt key g l c) :
    (l.map fun i => L (key i) (f i)).sum = (l.map fun i => L (key i) (g i)).sum := by
  have hk : ∀ i ∈ l, key i ∈ (l.map key).toFinset := fun i hi =>
    List.mem_toFinset.mpr (List.mem_map_of_mem hi)
  rw [sum_map_eq_sum_sumAt key f L l _ hk, sum_map_eq_sum_sumAt key g L l _ hk]
  exact Finset.sum_congr rfl fun c _ => by rw [h c]

end Keyed
end MaterialPoint
