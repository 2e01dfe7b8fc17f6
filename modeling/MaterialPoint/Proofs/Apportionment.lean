import MaterialPoint.Proofs.Exact
import MaterialPoint.Proofs.Extended
import MaterialPoint.Proofs.Sums
import MaterialPoint.Seeding.Sample

/-! Division without a rest: parts and shares add up to what is divided. -/
namespace MaterialPoint
open scoped Exact

/-- Arithmetic in which what compares neither way with zero has no share. Rounding and overflow
are allowed. -/
class Scalar.DividesFairly (R : Type) [Scalar R] : Prop where
  not_zero_lt_zero : ¬(0 : R) < 0
  not_le_zero_of_pos {x : R} : 0 < x → ¬x ≤ 0
  not_pos_none_mul (x : R) : ¬0 < ((0 : ℕ) : R) * x
  floorNat_share {x : R} : ¬x ≤ 0 → ¬0 < x →
    ∀ (whole : R) (n : ℕ), Scalar.floorNat (x / whole * (n : R)) = 0

/-- Comparisons with zero and values that are not a number, as in IEEE 754. -/
class Scalar.LawfulNaN (R : Type) [Scalar R] : Prop where
  not_zero_lt_zero : ¬(0 : R) < 0
  not_le_zero_of_pos {x : R} : 0 < x → ¬x ≤ 0
  le_zero_or_pos {x : R} : Scalar.isNaN x = false → x ≤ 0 ∨ 0 < x
  not_pos_none_mul (x : R) : ¬0 < ((0 : ℕ) : R) * x
  isNaN_mul {x : R} : Scalar.isNaN x = true → ∀ y, Scalar.isNaN (x * y) = true
  isNaN_div {x : R} : Scalar.isNaN x = true → ∀ y, Scalar.isNaN (x / y) = true
  floorNat_of_isNaN {x : R} : Scalar.isNaN x = true → Scalar.floorNat x = 0

section
open Scalar.LawfulNaN

/-- What compares neither way with zero is not a number, and neither is its share. -/
instance {R : Type} [Scalar R] [Scalar.LawfulNaN R] : Scalar.DividesFairly R where
  not_zero_lt_zero := not_zero_lt_zero
  not_le_zero_of_pos := not_le_zero_of_pos
  not_pos_none_mul := not_pos_none_mul
  floorNat_share {x} hle hlt whole n := by
    have hx : Scalar.isNaN x = true := by
      by_contra h
      exact (le_zero_or_pos (Bool.eq_false_iff.mpr h)).elim hle hlt
    exact floorNat_of_isNaN (isNaN_mul (isNaN_div hx whole) n)

end

namespace Extended
variable {K : Type} [Field K] [LinearOrder K] [IsStrictOrderedRing K] [FloorRing K] [Overflow K]

/-- Arithmetic that overflows divides fairly: only what is not a number compares with nothing. -/
instance : Scalar.LawfulNaN (Extended K) where
  not_zero_lt_zero h := lt_irrefl (0 : K) (finite_lt_finite.mp h)
  not_le_zero_of_pos {x} h := by
    cases x with
    | finite x => exact fun hle => not_le.mpr (finite_lt_finite.mp h) (finite_le_finite.mp hle)
    | infinite isNegative =>
      cases isNegative
      · exact Bool.false_ne_true
      · cases h
    | nan => cases h
  le_zero_or_pos {x} h := by
    cases x with
    | finite x => exact (le_or_gt x 0).imp finite_le_finite.mpr finite_lt_finite.mpr
    | infinite isNegative =>
      cases isNegative
      · exact .inr rfl
      · exact .inl rfl
    | nan => cases h
  not_pos_none_mul x := by
    have hzero : ((0 : ℕ) : Extended K) = finite 0 := congrArg finite Nat.cast_zero
    rw [hzero]
    cases x with
    | finite x =>
      rw [finite_mul (by simp), zero_mul]
      exact fun h => lt_irrefl (0 : K) (finite_lt_finite.mp h)
    | infinite isNegative =>
      change ¬less (finite 0) (if (0 : K) = 0 then nan else _) = true
      rw [if_pos rfl]
      exact Bool.false_ne_true
    | nan => exact Bool.false_ne_true
  isNaN_mul h _ := by
    rw [eq_nan_of_isNaN h]
    rfl
  isNaN_div h _ := by
    rw [eq_nan_of_isNaN h]
    rfl
  floorNat_of_isNaN h := by
    rw [eq_nan_of_isNaN h]
    rfl

end Extended

namespace Budget
variable {R : Type} [Scalar R]

theorem split_eq_ok_iff {volumes : List R} {n : ℕ} {counts : List ℕ} :
    split volumes n = .ok counts ↔ 0 < total volumes ∧ Scalar.isFinite (total volumes) = true ∧
      parts (total volumes) n 0 volumes = counts := by
  simp only [split, Bool.and_eq_true, decide_eq_true_eq]
  split_ifs with h
  · simp [h]
  · simp only [false_iff]
    exact fun hall => h ⟨hall.1, hall.2.1⟩

/-- The part of a volume when some of the number is left, before the volumes that come later. -/
def part (total : R) (n left : ℕ) (v : R) (later : List R) : ℕ :=
  if v ≤ 0 then 0
  else if 0 < v && !later.any (0 < ·) then left
  else min (Scalar.floorNat (v / total * (n : R))) left

theorem parts_cons (t v : R) (n taken : ℕ) (later : List R) :
    parts t n taken (v :: later) = part t n (n - taken) v later ::
      parts t n (taken + part t n (n - taken) v later) later := rfl

theorem part_le (t v : R) (n left : ℕ) (later : List R) : part t n left v later ≤ left := by
  unfold part
  split_ifs
  · exact Nat.zero_le left
  · exact Nat.le_refl left
  · exact Nat.min_le_right _ _

theorem filter_pos_eq_nil {volumes : List R} (h : ∀ v ∈ volumes, ¬0 < v) :
    volumes.filter (0 < ·) = [] :=
  List.filter_eq_nil_iff.mpr fun v hv h0 => h v hv (of_decide_eq_true h0)

theorem total_of_not_pos {volumes : List R} (h : ∀ v ∈ volumes, ¬0 < v) : total volumes = 0 :=
  congrArg sumInOrder (filter_pos_eq_nil h)

variable [Scalar.DividesFairly R]
open Scalar.DividesFairly

theorem exists_pos_of_total_pos {volumes : List R} (h : 0 < total volumes) :
    ∃ v ∈ volumes, 0 < v := by
  by_contra hnone
  rw [total_of_not_pos fun v hv h0 => hnone ⟨v, hv, h0⟩] at h
  exact not_zero_lt_zero h

theorem split_of_not_pos {volumes : List R} (h : ∀ v ∈ volumes, ¬0 < v) (n : ℕ) :
    split volumes n = .error (.degenerateScene 0) := by
  simp only [split, total_of_not_pos h]
  exact if_neg (by simp [not_zero_lt_zero])

section Part
variable {t v : R} {n left : ℕ} {later : List R}

theorem part_of_not_pos (hv : ¬0 < v) : part t n left v later = 0 := by
  unfold part
  split_ifs with hle hlast
  · rfl
  · simp [hv] at hlast
  · rw [floorNat_share hle hv, Nat.zero_min]

theorem part_of_last (hv : 0 < v) (h : ∀ w ∈ later, ¬0 < w) : part t n left v later = left := by
  have hlast : (decide (0 < v) && !later.any (0 < ·)) = true := by
    simpa [hv] using h
  rw [part, if_neg (not_le_zero_of_pos hv), if_pos hlast]

theorem part_of_more (hv : 0 < v) (h : ∃ w ∈ later, 0 < w) :
    part t n left v later = min (Scalar.floorNat (v / t * (n : R))) left := by
  have hmore : ¬(decide (0 < v) && !later.any (0 < ·)) = true := by
    simpa [hv] using h
  rw [part, if_neg (not_le_zero_of_pos hv), if_neg hmore]

end Part

theorem sum_parts_of_not_pos {t : R} {n taken : ℕ} {volumes : List R}
    (h : ∀ v ∈ volumes, ¬0 < v) : (parts t n taken volumes).sum = 0 := by
  induction volumes with
  | nil => rfl
  | cons v volumes ih =>
    rw [parts_cons, part_of_not_pos (h v List.mem_cons_self), List.sum_cons, zero_add]
    exact ih fun w hw => h w (List.mem_cons_of_mem v hw)

/-- All that is left is divided, whatever the sum of the volumes is taken for. -/
theorem add_sum_parts {t : R} {n taken : ℕ} {volumes : List R} (hn : taken ≤ n)
    (h : ∃ v ∈ volumes, 0 < v) : taken + (parts t n taken volumes).sum = n := by
  induction volumes generalizing taken with
  | nil => simp at h
  | cons v volumes ih =>
    rw [parts_cons, List.sum_cons, ← Nat.add_assoc]
    by_cases hmore : ∃ w ∈ volumes, 0 < w
    · have hle := part_le t v n (n - taken) volumes
      exact ih (by omega) hmore
    · have hnone : ∀ w ∈ volumes, ¬0 < w := fun w hw h0 => hmore ⟨w, hw, h0⟩
      have hv : 0 < v := by
        obtain ⟨w, hw, h0⟩ := h
        rcases List.mem_cons.mp hw with rfl | hw
        · exact h0
        · exact absurd h0 (hnone w hw)
      rw [part_of_last hv hnone, sum_parts_of_not_pos hnone]
      omega

theorem eq_zero_of_mem_zip_parts {α : Type} {volume : α → R} {t : R} {n taken : ℕ} {l : List α}
    {a : α} {count : ℕ} (h : (a, count) ∈ l.zip (parts t n taken (l.map volume)))
    (ha : ¬0 < volume a) : count = 0 := by
  induction l generalizing taken with
  | nil => simp at h
  | cons b l ih =>
    rw [List.map_cons, parts_cons, List.zip_cons_cons] at h
    rcases List.mem_cons.mp h with h | h
    · obtain ⟨rfl, rfl⟩ := Prod.mk.inj h
      exact part_of_not_pos ha
    · exact ih h

theorem sum_of_split {volumes : List R} {n : ℕ} {counts : List ℕ}
    (h : split volumes n = .ok counts) : counts.sum = n := by
  obtain ⟨hpos, -, rfl⟩ := split_eq_ok_iff.mp h
  rw [← Nat.zero_add (List.sum _)]
  exact add_sum_parts (Nat.zero_le n) (exists_pos_of_total_pos hpos)

theorem eq_zero_or_pos_of_split {α : Type} {volume : α → R} {l : List α} {n : ℕ}
    {counts : List ℕ} (h : split (l.map volume) n = .ok counts) {a : α} {count : ℕ}
    (hmem : (a, count) ∈ l.zip counts) : count = 0 ∨ 0 < volume a := by
  obtain ⟨-, -, rfl⟩ := split_eq_ok_iff.mp h
  by_cases ha : 0 < volume a
  · exact .inr ha
  · exact .inl (eq_zero_of_mem_zip_parts hmem ha)

end Budget

variable {K : Type} [Field K] [LinearOrder K] [IsStrictOrderedRing K] [FloorRing K]

namespace Exact

/-- Exact arithmetic divides fairly, as all its numbers compare with zero. -/
scoped instance : Scalar.LawfulNaN K where
  not_zero_lt_zero := lt_irrefl 0
  not_le_zero_of_pos := not_le.mpr
  le_zero_or_pos _ := le_or_gt _ _
  not_pos_none_mul x h := by
    rw [Nat.cast_zero, zero_mul] at h
    exact lt_irrefl 0 h
  isNaN_mul h := absurd h Bool.false_ne_true
  isNaN_div h := absurd h Bool.false_ne_true
  floorNat_of_isNaN h := absurd h Bool.false_ne_true

end Exact

namespace Budget

theorem total_pos {volumes : List K} (h : ∃ v ∈ volumes, 0 < v) : 0 < total volumes := by
  obtain ⟨v, hv, h0⟩ := h
  have hmem : v ∈ volumes.filter (0 < ·) := List.mem_filter.mpr ⟨hv, decide_eq_true h0⟩
  have hpos : ∀ w ∈ volumes.filter (0 < ·), 0 < w := fun w hw =>
    of_decide_eq_true (List.mem_filter.mp hw).2
  change (0 : K) < sumInOrder _
  rw [sumInOrder_eq_sum]
  exact List.sum_pos _ hpos (List.ne_nil_of_mem hmem)

theorem split_of_nonpos {volumes : List K} (h : ∀ v ∈ volumes, v ≤ 0) (n : ℕ) :
    split volumes n = .error (.degenerateScene 0) :=
  split_of_not_pos (fun v hv => (h v hv).not_gt) n

theorem split_of_pos {volumes : List K} (h : ∃ v ∈ volumes, 0 < v) (n : ℕ) :
    split volumes n = .ok (parts (total volumes) n 0 volumes) :=
  if_pos (by simp [total_pos h])

end Budget

namespace Seeding

theorem sum_share {count cells : ℕ} (h : 0 < cells) :
    ((List.range cells).map (share count cells)).sum = count := by
  have hsum (m : ℕ) : ((List.range m).map (share count cells)).sum =
      m * (count / cells) + min m (count % cells) := by
    induction m with
    | zero => simp
    | succ m ih =>
      rw [List.range_succ, List.map_append, List.sum_append, ih, List.map_singleton,
        List.sum_singleton, share, Nat.succ_mul]
      split_ifs
      · omega
      · omega
  rw [hsum, Nat.min_eq_right (Nat.mod_lt count h).le, Nat.div_add_mod]

variable {α : Type}

theorem exists_perm_arrange (block : ℕ → List α) (need : ℕ → ℕ) (order : List ℕ) :
    ∃ tasks : List ℕ, tasks.Perm order ∧
      arrange block (claim need 0 order) = tasks.flatMap block := by
  refine ⟨((claim need 0 order).mergeSort fun a b => a.1 ≤ b.1).map Prod.snd, ?_, ?_⟩
  · have hp := (List.mergeSort_perm (claim need 0 order) fun a b => a.1 ≤ b.1).map Prod.snd
    rwa [map_snd_claim] at hp
  · rw [arrange, List.flatMap_map]

end Seeding
end MaterialPoint
