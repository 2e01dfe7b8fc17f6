import MaterialPoint.Proofs.Addressing
import MaterialPoint.Proofs.Neighbors
import MaterialPoint.Proofs.Transfer

/-! Transfers in words come to what the transfers over the integers come to. -/
namespace MaterialPoint

section Lists
variable {α β : Type}

theorem mapM_eq_ite {p : α → Bool} {f : α → β} {f? : α → Option β} {l : List α}
    (h : ∀ a ∈ l, f? a = if p a then some (f a) else none) :
    l.mapM f? = if l.all p then some (l.map f) else none := by
  induction l with
  | nil => rfl
  | cons a l ih =>
    rw [List.mapM_cons, h a List.mem_cons_self, ih fun b hb => h b (List.mem_cons_of_mem a hb),
      List.all_cons]
    cases p a with
    | false => rfl
    | true => cases l.all p <;> rfl

theorem mapM_eq_none {f : α → Option β} {l : List α} {a : α} (ha : a ∈ l) (h : f a = none) :
    l.mapM f = none := by
  induction l with
  | nil => cases ha
  | cons b l ih =>
    rw [List.mapM_cons]
    rcases List.mem_cons.mp ha with rfl | ha
    · rw [h]
      rfl
    · rw [ih ha]
      cases f b <;> rfl

theorem foldlM_eq_some_foldl {f : β → α → Option β} {g : β → α → β} (P : β → Prop) {l : List α}
    (hf : ∀ a ∈ l, ∀ b, P b → f b a = some (g b a)) (hg : ∀ b a, P b → P (g b a)) {b : β}
    (hb : P b) : l.foldlM f b = some (l.foldl g b) := by
  induction l generalizing b with
  | nil => rfl
  | cons a l ih =>
    rw [List.foldlM_cons, hf a List.mem_cons_self b hb, List.foldl_cons]
    exact ih (fun a' ha' => hf a' (List.mem_cons_of_mem a ha')) (hg b a hb)

theorem foldlM_eq_none {f : β → α → Option β} (P : β → Prop)
    (hf : ∀ b a c, P b → f b a = some c → P c) {l : List α} {a : α} (ha : a ∈ l)
    (hbad : ∀ b, P b → f b a = none) {b : β} (hb : P b) : l.foldlM f b = none := by
  induction l generalizing b with
  | nil => cases ha
  | cons a' l ih =>
    rw [List.foldlM_cons]
    rcases List.mem_cons.mp ha with rfl | ha
    · rw [hbad b hb]
      rfl
    · cases hstep : f b a' with
      | none => rfl
      | some c => exact ih ha (hf b a' c hb hstep)

theorem foldlM_induction {f : β → α → Option β} (P : β → Prop)
    (hf : ∀ b a c, P b → f b a = some c → P c) {l : List α} {b c : β} (hb : P b)
    (h : l.foldlM f b = some c) : P c := by
  induction l generalizing b with
  | nil =>
    obtain rfl := Option.some.inj h
    exact hb
  | cons a l ih =>
    rw [List.foldlM_cons] at h
    obtain ⟨b', hb', h⟩ := Option.bind_eq_some_iff.mp h
    exact ih (hf b a b' hb hb') h

end Lists

namespace Grid
variable {R : Type} {g : Grid R}

def IsNumbered (g : Grid R) (c : Coord) : Prop :=
  indexInWords? g.resolution c = some (g.index? c)

instance (g : Grid R) (c : Coord) : Decidable (g.IsNumbered c) :=
  inferInstanceAs (Decidable (_ = _))

theorem isNumbered_of_fits (hfits : g.resolution ^ 3 ≤ 2 ^ 31) (c : Coord) : g.IsNumbered c :=
  indexInWords?_eq hfits c

theorem isNumbered_congr {g h : Grid R} (hr : g.resolution = h.resolution) :
    g.IsNumbered = h.IsNumbered := by
  funext c
  rw [IsNumbered, IsNumbered, hr, index?_congr hr]

theorem modify?_eq {c : Coord} (hc : g.IsNumbered c) (f : Node R → Node R) :
    g.modify? c f = some (g.modify c f) := by
  rw [modify?, hc, modify]
  cases g.index? c <;> rfl

theorem lookup?_eq {c : Coord} (hc : g.IsNumbered c) : g.lookup? c = some (g.node? c) := by
  rw [lookup?, hc]
  rfl

theorem mapNodes?_eq {f : ℕ → Node R → Option (Node R)} {h : ℕ → Node R → Node R}
    (hf : ∀ i node, g.nodes[i]? = some node → f i node = some (h i node)) :
    g.mapNodes? f = some (g.mapNodes h) := by
  have hall : (g.nodes.mapIdx f).all (·.isSome) = true := by
    refine Array.all_eq_true.mpr fun i hi => ?_
    have hi' : i < g.nodes.size := by simpa using hi
    rw [Array.getElem_mapIdx, hf i _ (Array.getElem?_eq_getElem hi')]
    rfl
  rw [mapNodes?, if_pos hall, Option.some.injEq]
  refine Grid.ext rfl (Array.ext_getElem? fun i => ?_)
  simp only [mapNodes, Array.getElem?_mapIdx]
  cases hi : g.nodes[i]? with
  | none => rfl
  | some node => rw [Option.map_some, Option.map_some, hf i node hi, Option.getD_some]

theorem mapNodes?_eq_none {f : ℕ → Node R → Option (Node R)} {i : ℕ} {node : Node R}
    (hi : g.nodes[i]? = some node) (hf : f i node = none) : g.mapNodes? f = none := by
  obtain ⟨hlt, rfl⟩ := Array.getElem?_eq_some_iff.mp hi
  refine if_neg fun hall => ?_
  have hsome := Array.all_eq_true.mp hall i (by simpa using hlt)
  rw [Array.getElem_mapIdx, hf] at hsome
  cases hsome

variable [Scalar R]

@[simp] theorem resolution_deposit (g : Grid R) (d : Deposit R) :
    (g.deposit d).resolution = g.resolution := resolution_accumulate ..

theorem deposit?_eq {d : Deposit R} (hd : g.IsNumbered d.coord) :
    g.deposit? d = some (g.deposit d) := by
  rw [deposit?, accumulate?, modify?_eq hd]
  rfl

theorem resolution_of_deposit? {h : Grid R} {d : Deposit R} (hd : g.deposit? d = some h) :
    h.resolution = g.resolution := by
  simp only [deposit?, accumulate?, modify?, Option.map_eq_some_iff] at hd
  obtain ⟨_, hmodify, rfl⟩ := hd
  split at hmodify
  · obtain rfl := Option.some.inj hmodify
    rfl
  · obtain rfl := Option.some.inj hmodify
    rfl
  · cases hmodify

theorem resolution_of_foldlM_deposit? {h : Grid R} {ds : List (Deposit R)}
    (hds : ds.foldlM deposit? g = some h) : h.resolution = g.resolution :=
  foldlM_induction (·.resolution = g.resolution)
    (fun _ _ _ hr hd => (resolution_of_deposit? hd).trans hr) rfl hds

theorem deposit?_eq_none {d : Deposit R} (hd : indexInWords? g.resolution d.coord = none) :
    g.deposit? d = none := by
  rw [deposit?, accumulate?, modify?, hd]
  rfl

theorem foldlM_deposit?_eq {ds : List (Deposit R)} (hds : ∀ d ∈ ds, g.IsNumbered d.coord) :
    ds.foldlM deposit? g = some (ds.foldl deposit g) :=
  foldlM_eq_some_foldl (·.resolution = g.resolution)
    (fun d hd h hr => deposit?_eq (by rw [isNumbered_congr hr]; exact hds d hd))
    (fun h d hr => (h.resolution_deposit d).trans hr) rfl

theorem motionAt?_eq {p : Vec3 R}
    (hp : ∀ n ∈ (Stencil.around p g.cellSize).neighbors, g.IsNumbered n.coord) :
    g.motionAt? p = some (g.motionAt p) := by
  rw [motionAt?, motionAt]
  refine foldlM_eq_some_foldl (fun _ => True) (fun n hn motion _ => ?_) (fun _ _ _ => trivial)
    trivial
  rw [lookup?_eq (hp n hn)]
  cases g.node? n.coord <;> rfl

theorem motionAt?_eq_none {p : Vec3 R} {n : Neighbor R}
    (hn : n ∈ (Stencil.around p g.cellSize).neighbors)
    (h : indexInWords? g.resolution n.coord = none) : g.motionAt? p = none := by
  rw [motionAt?]
  refine foldlM_eq_none (fun _ => True) (fun _ _ _ _ _ => trivial) hn (fun motion _ => ?_) trivial
  rw [lookup?, h]
  rfl

theorem getElem?_foldl_deposit {ds : List (Deposit R)} {i : ℕ}
    (h : ∀ d ∈ ds, g.index? d.coord ≠ some i) :
    (ds.foldl deposit g).nodes[i]? = g.nodes[i]? := by
  induction ds generalizing g with
  | nil => rfl
  | cons d ds ih =>
    rw [List.foldl_cons, ih fun e he => ?_]
    · have hd := h d List.mem_cons_self
      rw [deposit, accumulate, modify]
      cases hi : g.index? d.coord with
      | none => rfl
      | some j =>
        rw [hi] at hd
        exact Array.getElem?_modify.trans (if_neg fun hji => hd (congrArg some hji))
    · rw [index?_congr (g.resolution_deposit d)]
      exact h e (List.mem_cons_of_mem d he)

/-- Whether the place where the walls begin at the high ends is a word. -/
def areWallsInRange (resolution wallWidth : ℕ) : Bool :=
  Word.fitsSigned (Word.signed resolution - Word.signed wallWidth)

theorem areWallsInRange_of_le {n w : ℕ} (hn : n < 2 ^ 31) (hw : w ≤ n) :
    areWallsInRange n w = true := by
  rw [areWallsInRange, Word.signed_natCast hn, Word.signed_natCast (hw.trans_lt hn)]
  exact Word.fitsSigned_of_nonneg (by omega) (by omega)

theorem settleNode?_of_mass_nonpos {node : Node R} (hmass : node.mass ≤ 0) (gravity timeStep : R)
    (wallWidth n i : ℕ) : settleNode? gravity timeStep wallWidth n i node =
      some (settleNode gravity timeStep (Word.signed wallWidth) n (wallCoord n i) node) := by
  rw [settleNode?, if_pos hmass, settleNode, if_pos hmass]

theorem settleNode?_eq {n i : ℕ} (hn : n < 2 ^ 31)
    (hi : wallCoordInWords? n i = some (wallCoord n i)) {node : Node R} (hmass : ¬node.mass ≤ 0)
    (gravity timeStep : R) (wallWidth : ℕ) : settleNode? gravity timeStep wallWidth n i node =
      if areWallsInRange n wallWidth then
        some (settleNode gravity timeStep (Word.signed wallWidth) n (wallCoord n i) node)
      else none := by
  have hwall : Word.signed? (n - Word.signed wallWidth) =
      if areWallsInRange n wallWidth then some (n - Word.signed wallWidth) else none := by
    rw [areWallsInRange, Word.signed_natCast hn]
    rfl
  rw [settleNode?, if_neg hmass, hi, Word.signed_natCast hn]
  dsimp only
  rw [hwall]
  cases areWallsInRange n wallWidth <;> rfl

/-- Nodes that have no mass take no notice of the walls. -/
theorem settle?_eq (hn : g.resolution < 2 ^ 31) {wallWidth : ℕ}
    (h : ∀ i node, g.nodes[i]? = some node → node.mass ≤ 0 ∨
      wallCoordInWords? g.resolution i = some (wallCoord g.resolution i) ∧
        areWallsInRange g.resolution wallWidth = true) (gravity timeStep : R) :
    g.settle? gravity timeStep wallWidth = some (g.settle gravity timeStep wallWidth) := by
  refine mapNodes?_eq fun i node hi => ?_
  by_cases hmass : node.mass ≤ 0
  · exact settleNode?_of_mass_nonpos hmass ..
  · obtain ⟨hcoord, hw⟩ := (h i node hi).resolve_left hmass
    rw [settleNode?_eq hn hcoord hmass, if_pos hw]

section Fits
variable (hfits : g.resolution ^ 3 ≤ 2 ^ 31)
include hfits

omit [Scalar R] in
theorem wallCoordInWords?_of_getElem? {i : ℕ} {node : Node R} (hi : g.nodes[i]? = some node) :
    wallCoordInWords? g.resolution i = some (wallCoord g.resolution i) := by
  obtain ⟨hlt, -⟩ := Array.getElem?_eq_some_iff.mp hi
  exact wallCoordInWords?_eq hfits (by rwa [pow_three', ← g.size_nodes])

theorem settle?_eq_some {wallWidth : ℕ} (hw : areWallsInRange g.resolution wallWidth = true)
    (gravity timeStep : R) :
    g.settle? gravity timeStep wallWidth = some (g.settle gravity timeStep wallWidth) :=
  settle?_eq (by have := resolution_lt hfits; omega)
    (fun _ _ hi => .inr ⟨wallCoordInWords?_of_getElem? hfits hi, hw⟩) ..

theorem settle?_eq_none {wallWidth : ℕ} (hw : areWallsInRange g.resolution wallWidth = false)
    {i : ℕ} {node : Node R} (hi : g.nodes[i]? = some node) (hmass : ¬node.mass ≤ 0)
    (gravity timeStep : R) : g.settle? gravity timeStep wallWidth = none := by
  refine mapNodes?_eq_none hi ?_
  rw [settleNode?_eq (by have := resolution_lt hfits; omega)
    (wallCoordInWords?_of_getElem? hfits hi) hmass, hw]
  rfl

end Fits
end Grid

section Transfers
variable {R : Type} [Scalar R] {g : Grid R}

/-- All nodes around the positions that are in the domain have numbers. -/
def Population.IsNumbered (g : Grid R) (ps : Population R) : Prop :=
  ∀ p ∈ ps, g.contains p.position = true →
    ∀ n ∈ (Stencil.around p.position g.cellSize).neighbors, g.IsNumbered n.coord

theorem Population.isNumbered_congr {h : Grid R} (hr : g.resolution = h.resolution)
    (ps : Population R) : ps.IsNumbered g ↔ ps.IsNumbered h := by
  simp only [IsNumbered, Grid.contains_congr hr, Grid.cellSize_congr hr, Grid.isNumbered_congr hr]

theorem Population.isNumbered_of_fits (hfits : g.resolution ^ 3 ≤ 2 ^ 31) (ps : Population R) :
    ps.IsNumbered g :=
  fun _ _ _ n _ => Grid.isNumbered_of_fits hfits n.coord

theorem gather?_eq {ps : Population R} (hps : ps.IsNumbered g) (params : Params R) :
    gather? params g ps =
      if ps.all (g.isInReach ·.position) then some (gather params g ps) else none := by
  have hp : ∀ p ∈ ps, p.gather? params.timeStep g =
      if g.isInReach p.position then some (p.gather params.timeStep g) else none := by
    intro p hp
    unfold Particle.gather? Particle.gather
    cases g.isInReach p.position with
    | false => rfl
    | true =>
      cases hc : g.contains p.position with
      | false => rfl
      | true =>
        rw [Grid.motionAt?_eq (hps p hp hc)]
        rfl
  exact mapM_eq_ite hp

/-- A neighbor whose number is not a word stops the way back. -/
theorem gather?_eq_none {ps : Population R} {p : Particle R} (hp : p ∈ ps)
    (hc : g.contains p.position = true) {n : Neighbor R}
    (hn : n ∈ (Stencil.around p.position g.cellSize).neighbors)
    (h : Grid.indexInWords? g.resolution n.coord = none) (params : Params R) :
    gather? params g ps = none := by
  refine mapM_eq_none hp ?_
  rw [Particle.gather?, if_pos hc, Grid.motionAt?_eq_none hn h]
  split_ifs <;> rfl

variable [Exponential R] [SingularValues R]

theorem coord_of_mem_scatter {params : Params R} {p : Particle R} {d : Deposit R}
    (hd : d ∈ (p.scatter params g).deposits) : g.contains p.position = true ∧
      ∃ n ∈ (Stencil.around p.position g.cellSize).neighbors, n.coord = d.coord := by
  unfold Particle.scatter at hd
  split_ifs at hd with hc
  · obtain ⟨n, hn, rfl⟩ := List.mem_map.mp hd
    exact ⟨hc, n, hn, rfl⟩
  · cases hd

theorem Particle.scatter_of_scatter? {params : Params R} {p : Particle R} {share : Scattered R}
    (h : p.scatter? params g = some share) : p.scatter params g = share := by
  rw [scatter?] at h
  split_ifs at h
  exact Option.some.inj h

theorem exists_deposit_of_contains {p : Particle R} (hc : g.contains p.position = true)
    {n : Neighbor R} (hn : n ∈ (Stencil.around p.position g.cellSize).neighbors)
    (params : Params R) : ∃ d ∈ (p.scatter params g).deposits, d.coord = n.coord := by
  rw [Particle.scatter, if_pos hc]
  exact ⟨_, List.mem_map_of_mem hn, rfl⟩

theorem mapM_scatter? (params : Params R) (g : Grid R) (ps : Population R) :
    ps.mapM (Particle.scatter? params g) =
      if ps.all (g.isInReach ·.position) then some (ps.map (Particle.scatter params g)) else none :=
  mapM_eq_ite fun _ _ => rfl

theorem scatter?_eq {ps : Population R} (hps : ps.IsNumbered g) (params : Params R) :
    scatter? params ps g =
      if ps.all (g.isInReach ·.position) then some (scatter params ps g) else none := by
  rw [scatter?, mapM_scatter?]
  split_ifs with hreach
  · have hgrid : (ps.map (Particle.scatter params g)).foldlM
        (fun h share => share.deposits.foldlM Grid.deposit? h) g =
        some ((ps.map (Particle.scatter params g)).foldl
          (fun h share => share.deposits.foldl Grid.deposit h) g) := by
      refine foldlM_eq_some_foldl (·.resolution = g.resolution) (fun share hshare h hr => ?_)
        (fun h share hr => (h.resolution_foldl_deposit _).trans hr) rfl
      obtain ⟨p, hp, rfl⟩ := List.mem_map.mp hshare
      refine Grid.foldlM_deposit?_eq fun d hd => ?_
      obtain ⟨hc, n, hn, hcoord⟩ := coord_of_mem_scatter hd
      rw [Grid.isNumbered_congr hr, ← hcoord]
      exact hps p hp hc n hn
    refine Option.bind_eq_some_iff.mpr ⟨_, rfl, ?_⟩
    exact Option.bind_eq_some_iff.mpr ⟨_, hgrid, rfl⟩
  · rfl

theorem scatter?_eq_none {ps : Population R} {p : Particle R} (hp : p ∈ ps)
    (hc : g.contains p.position = true) {n : Neighbor R}
    (hn : n ∈ (Stencil.around p.position g.cellSize).neighbors)
    (h : Grid.indexInWords? g.resolution n.coord = none) (params : Params R) :
    scatter? params ps g = none := by
  rw [scatter?, mapM_scatter?]
  split_ifs
  · refine Option.bind_eq_none_iff.mpr fun shares hshares => ?_
    obtain rfl := Option.some.inj hshares
    refine Option.bind_eq_none_iff.mpr fun _ hgrid => ?_
    refine absurd hgrid ?_
    rw [foldlM_eq_none (·.resolution = g.resolution) (fun _ _ _ hr hds =>
      (Grid.resolution_of_foldlM_deposit? hds).trans hr) (List.mem_map_of_mem hp)
      (fun b hr => ?_) rfl]
    · simp
    obtain ⟨d, hd, hcoord⟩ := exists_deposit_of_contains hc hn params
    refine foldlM_eq_none (·.resolution = g.resolution)
      (fun _ _ _ hr hd => (Grid.resolution_of_deposit? hd).trans hr) hd (fun k hk => ?_) hr
    refine Grid.deposit?_eq_none ?_
    rw [hk, hcoord, h]
  · rfl

end Transfers

section Exact
open scoped Exact
variable {K : Type} [Field K] [LinearOrder K] [IsStrictOrderedRing K] [FloorRing K] {g : Grid K}

/-- Exact positions in the domain have no neighbors far off the lattice. -/
theorem Grid.isInReach_of_lt (hn : g.resolution + 1 < 2 ^ 31) (p : Vec3 K) :
    g.isInReach p = true := by
  rw [isInReach, Bool.or_eq_true, Bool.not_eq_true']
  cases h : g.contains p with
  | false => exact .inl rfl
  | true =>
    have hdx := cellSize_pos_of_contains h
    have haxis (axis : Axis) (hmem : 0 ≤ p.get axis ∧ p.get axis < g.resolution * g.cellSize) :
        Word.fitsSigned ((Stencil.around p g.cellSize).base.get axis) = true ∧
          Word.fitsSigned ((Stencil.around p g.cellSize).base.get axis + 2) = true := by
      have hbase := Stencil.get_base_mem p hdx hmem
      simp only [Word.fitsSigned, Bool.and_eq_true, decide_eq_true_eq]
      omega
    obtain ⟨hx, hy, hz⟩ := (g.contains_iff p).mp h
    refine .inr ?_
    simp only [Stencil.fits, Vec3.all, Bool.and_eq_true]
    exact ⟨⟨haxis .x hx, haxis .y hy⟩, haxis .z hz⟩

theorem gather?_eq_some (hn : g.resolution + 1 < 2 ^ 31) {ps : Population K}
    (hps : ps.IsNumbered g) (params : Params K) :
    gather? params g ps = some (gather params g ps) := by
  rw [gather?_eq hps, if_pos (List.all_eq_true.mpr fun p _ => Grid.isInReach_of_lt hn _)]

theorem gather?_of_fits (hfits : g.resolution ^ 3 ≤ 2 ^ 31) (params : Params K)
    (ps : Population K) : gather? params g ps = some (gather params g ps) := by
  have hn := Grid.resolution_lt hfits
  exact gather?_eq_some (by omega) (Population.isNumbered_of_fits hfits ps) params

variable [Exponential K] [SingularValues K]

theorem scatter?_eq_some (hn : g.resolution + 1 < 2 ^ 31) {ps : Population K}
    (hps : ps.IsNumbered g) (params : Params K) :
    scatter? params ps g = some (scatter params ps g) := by
  rw [scatter?_eq hps, if_pos (List.all_eq_true.mpr fun p _ => Grid.isInReach_of_lt hn _)]

theorem scatter?_of_fits (hfits : g.resolution ^ 3 ≤ 2 ^ 31) (params : Params K)
    (ps : Population K) : scatter? params ps g = some (scatter params ps g) := by
  have hn := Grid.resolution_lt hfits
  exact scatter?_eq_some (by omega) (Population.isNumbered_of_fits hfits ps) params

end Exact
end MaterialPoint
