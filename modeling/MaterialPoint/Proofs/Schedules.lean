import MaterialPoint.Proofs.Seeding

/-! The schedule of a solid only moves whole blocks, whatever sort brings them into order. -/
namespace MaterialPoint.Seeding

section Ranges
variable {α : Type} {need : ℕ → ℕ} {block : ℕ → List α}

theorem pairwise_claim (start : ℕ) (order : List ℕ) :
    (claim need start order).Pairwise fun c d => c.1 + need c.2 ≤ d.1 := by
  induction order generalizing start with
  | nil => exact .nil
  | cons task order ih =>
    exact .cons (fun d hd => start_le_of_mem_claim hd) (ih (start + need task))

theorem exists_mem_claim_iff (start k : ℕ) (order : List ℕ) :
    (∃ c ∈ claim need start order, k ∈ Set.Ico c.1 (c.1 + need c.2)) ↔
      k ∈ Set.Ico start (start + (order.map need).sum) := by
  induction order generalizing start with
  | nil => simp [claim]
  | cons task order ih =>
    have hih := ih (start + need task)
    simp only [Set.mem_Ico] at hih ⊢
    rw [claim, List.map_cons, List.sum_cons]
    simp only [List.mem_cons, exists_eq_or_imp, hih]
    omega

theorem snd_mem_of_mem_claim {start : ℕ} {order : List ℕ} {c : ℕ × ℕ}
    (h : c ∈ claim need start order) : c.2 ∈ order := by
  rw [← map_snd_claim need start order]
  exact List.mem_map_of_mem h

theorem exists_append_of_mem_claim {start : ℕ} {order : List ℕ} {c : ℕ × ℕ}
    (h : c ∈ claim need start order) : ∃ before after : List ℕ,
      order = before ++ c.2 :: after ∧ c.1 = start + (before.map need).sum := by
  induction order generalizing start with
  | nil => cases h
  | cons task order ih =>
    rcases List.mem_cons.mp h with rfl | h
    · exact ⟨[], order, rfl, rfl⟩
    · obtain ⟨before, after, horder, hc⟩ := ih h
      refine ⟨task :: before, after, by rw [horder, List.cons_append], ?_⟩
      rw [hc, List.map_cons, List.sum_cons, Nat.add_assoc]

theorem length_flatMap_of_need {order : List ℕ} (h : ∀ i ∈ order, (block i).length = need i) :
    (order.flatMap block).length = (order.map need).sum := by
  rw [List.length_flatMap, List.map_congr_left h]

theorem take_drop_of_mem_claim {order : List ℕ} (h : ∀ i ∈ order, (block i).length = need i)
    {c : ℕ × ℕ} (hc : c ∈ claim need 0 order) :
    ((order.flatMap block).drop c.1).take (need c.2) = block c.2 := by
  obtain ⟨before, after, rfl, hstart⟩ := exists_append_of_mem_claim hc
  have hbefore : (before.flatMap block).length = c.1 := by
    rw [length_flatMap_of_need fun i hi => h i (List.mem_append_left _ hi), hstart, Nat.zero_add]
  have hblock : (block c.2).length = need c.2 :=
    h c.2 (List.mem_append_right _ List.mem_cons_self)
  rw [List.flatMap_append, List.drop_left' hbefore, List.flatMap_cons, List.take_left' hblock]

theorem eq_of_start_eq {order : List ℕ} {c d : ℕ × ℕ} (hc : c ∈ claim need 0 order)
    (hd : d ∈ claim need 0 order) (hneed : 0 < need c.2 ∧ 0 < need d.2) (h : c.1 = d.1) :
    c = d := by
  let Apart (c d : ℕ × ℕ) := c.1 + need c.2 ≤ d.1 ∨ d.1 + need d.2 ≤ c.1
  have hapart : (claim need 0 order).Pairwise Apart := (pairwise_claim 0 order).imp .inl
  have : Std.Symm Apart := ⟨fun _ _ => Or.symm⟩
  by_contra hne
  rcases hapart.forall hc hd hne with hcd | hdc
  · omega
  · omega

/-- Sorts by the starts of ranges may differ in where they put empty ranges, and in nothing else. -/
theorem flatMap_of_sorted {order : List ℕ} (h : ∀ i ∈ order, (block i).length = need i)
    {sorted : List (ℕ × ℕ)} (hperm : sorted.Perm (claim need 0 order))
    (hsorted : sorted.Pairwise fun c d => c.1 ≤ d.1) :
    (sorted.flatMap fun c => block c.2) = order.flatMap block := by
  let ranges := claim need 0 order
  let filled (l : List (ℕ × ℕ)) := l.filter fun c => !(block c.2).isEmpty
  have hranges : ranges.Pairwise fun c d => c.1 ≤ d.1 :=
    (pairwise_claim 0 order).imp fun hcd => (Nat.le_add_right _ _).trans hcd
  have hneed : ∀ c ∈ filled ranges, c ∈ ranges ∧ 0 < need c.2 := by
    intro c hc
    obtain ⟨hmem, hne⟩ := List.mem_filter.mp hc
    rw [← h c.2 (snd_mem_of_mem_claim hmem)]
    exact ⟨hmem, List.length_pos_iff.mpr (by simpa using hne)⟩
  have hfilled : (filled sorted).Perm (filled ranges) := hperm.filter _
  have heq : filled sorted = filled ranges := by
    refine hfilled.eq_of_pairwise (fun c d hc hd hcd hdc => ?_) (hsorted.filter _)
      (hranges.filter _)
    obtain ⟨hc, hcneed⟩ := hneed c (hfilled.mem_iff.mp hc)
    obtain ⟨hd, hdneed⟩ := hneed d hd
    exact eq_of_start_eq hc hd ⟨hcneed, hdneed⟩ (hcd.antisymm hdc)
  have hflat (l : List (ℕ × ℕ)) :
      ((filled l).flatMap fun c => block c.2) = l.flatMap fun c => block c.2 :=
    flatMap_filter_of_nil fun c _ hc => by simpa using hc
  calc (sorted.flatMap fun c => block c.2)
    _ = (filled sorted).flatMap fun c => block c.2 := (hflat sorted).symm
    _ = ranges.flatMap fun c => block c.2 := by rw [heq, hflat]
    _ = order.flatMap block := by rw [← List.flatMap_map, map_snd_claim]

theorem arrange_claim {order : List ℕ} (h : ∀ i ∈ order, (block i).length = need i) :
    arrange block (claim need 0 order) = order.flatMap block := by
  let le (c d : ℕ × ℕ) : Bool := c.1 ≤ d.1
  have htrans (a b c : ℕ × ℕ) : le a b → le b c → le a c := by
    simp only [le, decide_eq_true_eq]
    omega
  have htotal (a b : ℕ × ℕ) : le a b || le b a := by
    simp only [le, Bool.or_eq_true, decide_eq_true_eq]
    omega
  have hsorted := List.pairwise_mergeSort htrans htotal (claim need 0 order)
  exact flatMap_of_sorted h (List.mergeSort_perm _ _) (hsorted.imp of_decide_eq_true)

end Ranges

variable {R : Type} [Scalar R] [Generator R]

/-- Every task takes a range for itself, and a schedule changes the order of whole blocks only. -/
theorem sampleSolidIn_ranges (seed region : UInt64) (s : Solid R) (count : ℕ) {order : List ℕ}
    (horder : order.Perm (List.range s.voxels.occupiedCells.length)) :
    let cells := s.voxels.occupiedCells
    let need := share count cells.length
    let part := cellPart seed region s count
    let ranges := claim need 0 order
    let ps := sampleSolidIn order seed region s count
    (ranges.map Prod.snd).Perm (List.range cells.length) ∧
      (ranges.Pairwise fun c d =>
        Disjoint (Set.Ico c.1 (c.1 + need c.2)) (Set.Ico d.1 (d.1 + need d.2))) ∧
      (∀ k, (∃ c ∈ ranges, k ∈ Set.Ico c.1 (c.1 + need c.2)) ↔ k < ps.length) ∧
      ps.length = (if cells = [] then 0 else count) ∧
      (∀ c ∈ ranges, (part c.2).length = need c.2 ∧
        (ps.drop c.1).take (need c.2) = part c.2) ∧
      (∀ sorted : List (ℕ × ℕ), sorted.Perm ranges → (sorted.Pairwise fun c d => c.1 ≤ d.1) →
        (sorted.flatMap fun c => part c.2) = ps) ∧
      ps = order.flatMap part ∧
      ∀ other : List ℕ, other.Perm (List.range cells.length) →
        other.Perm order ∧ sampleSolidIn other seed region s count = other.flatMap part := by
  intro cells need part ranges ps
  have hpart (order : List ℕ) (horder : order.Perm (List.range cells.length)) :
      ∀ i ∈ order, (part i).length = need i := fun i hi =>
    length_cellPart (List.mem_range.mp (horder.mem_iff.mp hi))
  have hblocks (order : List ℕ) (horder : order.Perm (List.range cells.length)) :
      sampleSolidIn order seed region s count = order.flatMap part := by
    rw [sampleSolidIn_eq_arrange]
    exact arrange_claim (hpart order horder)
  have hps : ps = order.flatMap part := hblocks order horder
  have hlength : ps.length = (order.map need).sum := by
    rw [hps, length_flatMap_of_need (hpart order horder)]
  refine ⟨?_, ?_, fun k => ?_, ?_, fun c hc => ⟨?_, ?_⟩, fun sorted hperm hsorted => ?_, hps,
    fun other hother => ⟨hother.trans horder.symm, hblocks other hother⟩⟩
  · rw [map_snd_claim]
    exact horder
  · exact (pairwise_claim 0 order).imp fun hcd => Set.disjoint_left.mpr fun k hc hd =>
      (hc.2.trans_le hcd).not_ge hd.1
  · rw [exists_mem_claim_iff, hlength, Set.mem_Ico, Nat.zero_add]
    exact and_iff_right (Nat.zero_le k)
  · rw [hlength, (horder.map need).sum_eq]
    split_ifs with hcells
    · change ((List.range cells.length).map need).sum = 0
      rw [hcells]
      rfl
    · exact sum_share (List.length_pos_iff.mpr hcells)
  · exact hpart order horder c.2 (snd_mem_of_mem_claim hc)
  · rw [hps]
    exact take_drop_of_mem_claim (hpart order horder) hc
  · rw [hps]
    exact flatMap_of_sorted (hpart order horder) hperm hsorted

open scoped Exact in
/-- Three particles for eight cells, whose tasks run backwards, so that six ranges have the same
start. -/
theorem sampleSolidIn_ranges_of_few :
    let s : Solid ℚ := Solid.ofMesh (Mesh.cuboid ⟨0, ⟨1, 3 / 4, 1⟩⟩ 0) .jelly 2 (1 / 2)
    let part := cellPart 7 0 s 3
    let ps := sampleSolidIn (List.range 8).reverse 7 0 s 3
    let sorted := [(0, 2), (0, 3), (0, 4), (0, 5), (0, 6), (0, 7), (1, 1), (2, 0)]
    claim (share 3 8) 0 (List.range 8).reverse =
        [(0, 7), (0, 6), (0, 5), (0, 4), (0, 3), (0, 2), (1, 1), (2, 0)] ∧
      ps.length = 3 ∧ (sorted.flatMap fun c => part c.2) = ps ∧ (ps.drop 1).take 1 = part 1 ∧
      sampleSolidIn (List.range 8) 7 0 s 3 = (List.range 8).flatMap part := by
  intro s part ps sorted
  have hcells : s.voxels.occupiedCells.length = 8 := by decide +kernel
  have horder : (List.range 8).reverse.Perm (List.range s.voxels.occupiedCells.length) := by
    rw [hcells]
    exact List.reverse_perm _
  have hclaim : claim (share 3 8) 0 (List.range 8).reverse =
      [(0, 7), (0, 6), (0, 5), (0, 4), (0, 3), (0, 2), (1, 1), (2, 0)] := by decide
  have h := sampleSolidIn_ranges 7 0 s 3 horder
  simp only [hcells] at h
  obtain ⟨-, -, -, hlength, hparts, hsorted, -, hother⟩ := h
  refine ⟨hclaim, ?_, hsorted sorted ?_ (by decide), (hparts (1, 1) ?_).2, (hother _ (.refl _)).2⟩
  · rw [hlength, if_neg (List.ne_nil_of_length_pos (by omega))]
  · rw [hclaim]
    decide
  · rw [hclaim]
    decide

end MaterialPoint.Seeding
