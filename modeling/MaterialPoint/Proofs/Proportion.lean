import MaterialPoint.Proofs.Apportionment
import MaterialPoint.Proofs.Health

/-! How fairly a number is divided: shares rounded down, and what is left goes to the last. -/
namespace MaterialPoint
open scoped Exact

namespace Budget

section Parts
variable {R : Type} [Scalar R]

theorem getElem?_parts (t : R) (n taken : ℕ) {volumes : List R} {i : ℕ} {v : R}
    (h : volumes[i]? = some v) : (parts t n taken volumes)[i]? =
      some (part t n (n - (taken + ((parts t n taken volumes).take i).sum)) v
        (volumes.drop (i + 1))) := by
  induction volumes generalizing taken i with
  | nil => simp at h
  | cons w volumes ih =>
    cases i with
    | zero =>
      obtain rfl : w = v := by simpa using h
      rw [parts_cons]
      rfl
    | succ i =>
      rw [List.getElem?_cons_succ] at h
      rw [parts_cons, List.getElem?_cons_succ, ih _ h, List.take_succ_cons, List.sum_cons,
        Nat.add_assoc, List.drop_succ_cons]

/-- No volume takes more than is left. -/
theorem add_sum_take_parts_le (t : R) {n taken : ℕ} (h : taken ≤ n) (volumes : List R) (i : ℕ) :
    taken + ((parts t n taken volumes).take i).sum ≤ n := by
  induction volumes generalizing taken i with
  | nil => simpa [parts] using h
  | cons v volumes ih =>
    cases i with
    | zero => exact h
    | succ i =>
      have hle := part_le t v n (n - taken) volumes
      rw [parts_cons, List.take_succ_cons, List.sum_cons, ← Nat.add_assoc]
      exact ih (by omega) i

/-- One count for each volume, all of the number together, and nothing for what is not positive. -/
structure IsDivided (volumes : List R) (n : ℕ) (counts : List ℕ) : Prop where
  length_eq : counts.length = volumes.length
  sum_eq : counts.sum = n
  eq_zero : ∀ (i : ℕ) (v : R), volumes[i]? = some v → ¬0 < v → counts[i]? = some 0
  exists_left : ∀ (i : ℕ) (v : R), volumes[i]? = some v → ∃ left, (counts.take i).sum + left = n ∧
    counts[i]? = some (part (total volumes) n left v (volumes.drop (i + 1)))

variable [Scalar.DividesFairly R]

theorem isDivided_of_split {volumes : List R} {n : ℕ} {counts : List ℕ}
    (h : split volumes n = .ok counts) : IsDivided volumes n counts := by
  obtain ⟨-, -, rfl⟩ := split_eq_ok_iff.mp h
  have hpart {i : ℕ} {v : R} (hi : volumes[i]? = some v) :=
    getElem?_parts (total volumes) n 0 hi
  simp only [Nat.zero_add] at hpart
  refine ⟨length_parts .., sum_of_split h, fun i v hi hv => ?_, fun i v hi => ?_⟩
  · rw [hpart hi, part_of_not_pos hv]
  · have hle := add_sum_take_parts_le (total volumes) (Nat.zero_le n) volumes i
    rw [Nat.zero_add] at hle
    exact ⟨_, Nat.add_sub_of_le hle, hpart hi⟩

end Parts

variable {K : Type} [Field K] [LinearOrder K] [IsStrictOrderedRing K] [FloorRing K]

/-- The exact share of a volume. -/
def share (total : K) (n : ℕ) (v : K) : K := v / total * n

/-- The exact shares of the positive volumes together. -/
def due (total : K) (n : ℕ) (volumes : List K) : K :=
  ((volumes.filter (0 < ·)).map (share total n)).sum

section Course
variable {t v : K} {n taken done : ℕ} {volumes : List K}

theorem due_cons (t : K) (n : ℕ) (v : K) (volumes : List K) :
    due t n (v :: volumes) = (if 0 < v then share t n v else 0) + due t n volumes := by
  rw [due, List.filter_cons]
  simp only [decide_eq_true_eq]
  split_ifs
  · rw [List.map_cons, List.sum_cons, due]
  · rw [zero_add, due]

theorem share_nonneg (ht : 0 < t) (hv : 0 < v) : 0 ≤ share t n v :=
  mul_nonneg (div_pos hv ht).le (Nat.cast_nonneg n)

theorem due_nonneg (ht : 0 < t) (n : ℕ) (volumes : List K) : 0 ≤ due t n volumes := by
  refine List.sum_nonneg fun x hx => ?_
  obtain ⟨v, hv, rfl⟩ := List.mem_map.mp hx
  exact share_nonneg ht (of_decide_eq_true (List.mem_filter.mp hv).2)

theorem due_of_none (h : ∀ v ∈ volumes, ¬0 < v) : due t n volumes = 0 :=
  congrArg (fun l => (l.map (share t n)).sum) (filter_pos_eq_nil h)

/-- What is left covers the shares still due, and at most one more for each part that is taken. -/
structure IsOnCourse (t : K) (n taken done : ℕ) (volumes : List K) : Prop where
  due_le : (taken : K) + due t n volumes ≤ n
  le_due : (n : K) ≤ taken + due t n volumes + done

theorem isOnCourse_start (h : ∃ v ∈ volumes, 0 < v) (n : ℕ) :
    IsOnCourse (total volumes) n 0 0 volumes := by
  have hsum : total volumes = (volumes.filter (0 < ·)).sum := sumInOrder_eq_sum _
  have hshare : share (total volumes) n = fun v => v * ((total volumes)⁻¹ * n) := by
    funext v
    rw [share, div_eq_mul_inv, mul_assoc]
  have hdue : due (total volumes) n volumes = n := by
    rw [due, hshare, List.sum_map_mul_right, List.map_id', ← hsum, ← mul_assoc,
      mul_inv_cancel₀ (total_pos h).ne', one_mul]
  constructor
  · simp [hdue]
  · simp [hdue]

theorem IsOnCourse.part_eq_floor (h : IsOnCourse t n taken done (v :: volumes)) (ht : 0 < t)
    (hv : 0 < v) (hmore : ∃ w ∈ volumes, 0 < w) :
    part t n (n - taken) v volumes = ⌊share t n v⌋₊ := by
  have hdue := h.due_le
  rw [due_cons, if_pos hv] at hdue
  have hfloor := Nat.floor_le (share_nonneg (n := n) ht hv)
  have hle : taken + ⌊share t n v⌋₊ ≤ n := by
    have hcast : (taken : K) + ⌊share t n v⌋₊ ≤ n := by
      linarith [due_nonneg ht n volumes]
    exact_mod_cast hcast
  rw [part_of_more hv hmore]
  exact Nat.min_eq_left (Nat.le_sub_of_add_le' hle)

theorem IsOnCourse.step (h : IsOnCourse t n taken done (v :: volumes)) (ht : 0 < t)
    (hmore : ∃ w ∈ volumes, 0 < w) :
    IsOnCourse t n (taken + part t n (n - taken) v volumes) (done + if 0 < v then 1 else 0)
      volumes := by
  have hdue := h.due_le
  have hle := h.le_due
  rw [due_cons] at hdue hle
  by_cases hv : 0 < v
  · rw [if_pos hv] at hdue hle
    rw [h.part_eq_floor ht hv hmore, if_pos hv]
    have hfloor := Nat.floor_le (share_nonneg (n := n) ht hv)
    have hlt := Nat.lt_floor_add_one (share t n v)
    constructor
    · push_cast
      linarith
    · push_cast
      linarith
  · rw [if_neg hv, zero_add] at hdue hle
    rw [part_of_not_pos hv, if_neg hv]
    exact ⟨hdue, hle⟩

/-- The division stays on its course up to the last positive volume. -/
theorem IsOnCourse.run (h : IsOnCourse t n taken done volumes) (ht : 0 < t) {i : ℕ}
    (hmore : ∃ w ∈ volumes.drop i, 0 < w) :
    IsOnCourse t n (taken + ((parts t n taken volumes).take i).sum)
      (done + (volumes.take i).countP (0 < ·)) (volumes.drop i) := by
  induction volumes generalizing taken done i with
  | nil => simp at hmore
  | cons v volumes ih =>
    cases i with
    | zero => exact h
    | succ i =>
      rw [List.drop_succ_cons] at hmore
      have hnext : ∃ w ∈ volumes, 0 < w := by
        obtain ⟨w, hw, h0⟩ := hmore
        exact ⟨w, List.mem_of_mem_drop hw, h0⟩
      have hrun := ih (h.step ht hnext) hmore
      rw [parts_cons, List.take_succ_cons, List.take_succ_cons, List.sum_cons, List.countP_cons,
        List.drop_succ_cons, ← Nat.add_assoc, Nat.add_comm (List.countP _ _), ← Nat.add_assoc]
      simpa only [decide_eq_true_eq] using hrun

end Course

/-- Shares rounded down, and for the last positive volume less than one more for each other. -/
structure IsProportional (volumes : List K) (n : ℕ) (counts : List ℕ) : Prop where
  eq_floor : ∀ (i : ℕ) (v : K), volumes[i]? = some v → 0 < v →
    (∃ w ∈ volumes.drop (i + 1), 0 < w) →
    counts[i]? = some ⌊v / (volumes.filter (0 < ·)).sum * n⌋₊
  exists_rest : ∀ (i : ℕ) (v : K), volumes[i]? = some v → 0 < v →
    (∀ w ∈ volumes.drop (i + 1), ¬0 < w) →
    ∃ count : ℕ, counts[i]? = some count ∧ v / (volumes.filter (0 < ·)).sum * n ≤ count ∧
      (count : K) ≤ v / (volumes.filter (0 < ·)).sum * n + (volumes.countP (0 < ·) - 1)

theorem countP_of_last {volumes : List K} {i : ℕ} {v : K} (hi : volumes[i]? = some v) (hv : 0 < v)
    (h : ∀ w ∈ volumes.drop (i + 1), ¬0 < w) :
    volumes.countP (0 < ·) = (volumes.take i).countP (0 < ·) + 1 := by
  obtain ⟨hlt, rfl⟩ := List.getElem?_eq_some_iff.mp hi
  have hnone : (volumes.drop (i + 1)).countP (0 < ·) = 0 :=
    List.countP_eq_zero.mpr fun w hw h0 => h w hw (of_decide_eq_true h0)
  have hcons : (volumes.drop i).countP (0 < ·) = 1 := by
    rw [List.drop_eq_getElem_cons hlt, List.countP_cons, hnone, if_pos (decide_eq_true hv)]
  rw [← hcons, ← List.countP_append, List.take_append_drop]

theorem isProportional_of_split {volumes : List K} {n : ℕ} {counts : List ℕ}
    (h : split volumes n = .ok counts) : IsProportional volumes n counts := by
  obtain ⟨ht, -, hparts⟩ := split_eq_ok_iff.mp h
  have hsum : (volumes.filter (0 < ·)).sum = total volumes := (sumInOrder_eq_sum _).symm
  have hcourse (i : ℕ) (v : K) (hi : volumes[i]? = some v) (hv : 0 < v) :
      IsOnCourse (total volumes) n ((counts.take i).sum) ((volumes.take i).countP (0 < ·))
        (v :: volumes.drop (i + 1)) := by
    obtain ⟨hlt, rfl⟩ := List.getElem?_eq_some_iff.mp hi
    have hrun := (isOnCourse_start (exists_pos_of_total_pos ht) n).run ht
      (i := i) ⟨volumes[i], List.mem_drop_iff_getElem.mpr ⟨0, by simpa using hlt, rfl⟩, hv⟩
    rwa [hparts, Nat.zero_add, Nat.zero_add, List.drop_eq_getElem_cons hlt] at hrun
  have hdivided := isDivided_of_split h
  refine ⟨fun i v hi hv hmore => ?_, fun i v hi hv hlast => ?_⟩
  · obtain ⟨left, hleft, hcount⟩ := hdivided.exists_left i v hi
    obtain rfl : left = n - (counts.take i).sum := by omega
    rw [hcount, (hcourse i v hi hv).part_eq_floor ht hv hmore, hsum, share]
  · obtain ⟨left, hleft, hcount⟩ := hdivided.exists_left i v hi
    have hon := hcourse i v hi hv
    have hdue := hon.due_le
    have hle := hon.le_due
    rw [due_cons, if_pos hv, due_of_none hlast, add_zero, share, ← hsum] at hdue hle
    have hn : (n : K) = (counts.take i).sum + left := by
      rw [← hleft, Nat.cast_add]
    refine ⟨left, ?_, ?_, ?_⟩
    · rw [hcount, part_of_last hv hlast]
    · linarith
    · -- All positive volumes before the last one may have left nearly one over.
      rw [countP_of_last hi hv hlast]
      push_cast
      linarith

/-- In any arithmetic a division that succeeds divides all, and in exact arithmetic in
proportion. -/
theorem split_fairly {R : Type} [Scalar R] [Scalar.LawfulNaN R] (n : ℕ) :
    (∀ volumes : List R,
      (∀ counts, split volumes n = .ok counts → IsDivided volumes n counts) ∧
      ((∀ v ∈ volumes, ¬0 < v) → split volumes n = .error (.degenerateScene 0))) ∧
    ∀ volumes : List K,
      ((∃ counts, split volumes n = .ok counts) ↔ ∃ v ∈ volumes, 0 < v) ∧
      ∀ counts, split volumes n = .ok counts → IsProportional volumes n counts := by
  refine ⟨fun volumes => ⟨fun counts => isDivided_of_split, fun h => split_of_not_pos h n⟩,
    fun volumes => ⟨⟨?_, fun h => ⟨_, split_of_pos h n⟩⟩, fun counts => isProportional_of_split⟩⟩
  rintro ⟨counts, h⟩
  exact exists_pos_of_total_pos (split_eq_ok_iff.mp h).1

open scoped Wreck

theorem split_fairly_mixed :
    IsDivided [.nan, 1, 0, .infinite true, 2, -1, (.nan : Extended ℚ)] 10 [0, 3, 0, 0, 7, 0, 0] ∧
    split [.nan, .infinite true] 10 = .error (.degenerateScene (0 : Extended ℚ)) ∧
    IsProportional [1, 0, 2, -3, (3 : ℚ)] 10 [1, 0, 3, 0, 6] := by
  obtain ⟨hany, hexact⟩ := split_fairly (R := Extended ℚ) (K := ℚ) 10
  exact ⟨(hany _).1 _ (by decide +kernel), (hany _).2 (by decide +kernel),
    (hexact _).2 _ (by decide +kernel)⟩

end Budget
end MaterialPoint
