import MaterialPoint.Proofs.Kernel
import MaterialPoint.Proofs.Lattice
import MaterialPoint.Simulation

/-! One transfer to the lattice and back, read as sums over deposits and over nodes. -/
namespace MaterialPoint
open scoped Exact

variable {K : Type} [Field K] [LinearOrder K] [IsStrictOrderedRing K] [FloorRing K]

def IsCarried (mass : K) (momentum : Vec3 K) : Prop := 0 ≤ mass ∧ (mass = 0 → momentum = 0)

theorem isCarried_zero : IsCarried (0 : K) 0 := ⟨le_rfl, fun _ => rfl⟩

theorem IsCarried.add {m n : K} {p q : Vec3 K} (hp : IsCarried m p) (hq : IsCarried n q) :
    IsCarried (m + n) (p + q) := by
  refine ⟨add_nonneg hp.1 hq.1, fun h => ?_⟩
  obtain ⟨hm, hn⟩ := (add_eq_zero_iff_of_nonneg hp.1 hq.1).mp h
  rw [hp.2 hm, hq.2 hn, add_zero]

namespace Deposit

/-- What deposits leave on a node that was empty. -/
def load (ds : List (Deposit K)) (c : Coord) : Node K :=
  ⟨sumAt coord mass ds c, sumAt coord momentum ds c⟩

theorem isCarried_load {ds : List (Deposit K)} (h : ∀ d ∈ ds, IsCarried d.mass d.momentum)
    (c : Coord) : IsCarried (load ds c).mass (load ds c).velocity := by
  induction ds with
  | nil => exact isCarried_zero
  | cons d ds ih =>
    have hd := h d List.mem_cons_self
    have hds := ih fun e he => h e (List.mem_cons_of_mem d he)
    simp only [load, sumAt, List.map_cons, List.sum_cons] at hds ⊢
    split_ifs
    · exact hd.add hds
    · exact isCarried_zero.add hds

theorem exists_coord_of_mass_load {ds : List (Deposit K)} {c : Coord} (h : (load ds c).mass ≠ 0) :
    ∃ d ∈ ds, d.coord = c := by
  by_contra hn
  push Not at hn
  refine h (List.sum_eq_zero fun a ha => ?_)
  obtain ⟨d, hd, rfl⟩ := List.mem_map.mp ha
  exact if_neg (hn d hd)

theorem le_mass_load {ds : List (Deposit K)} (h : ∀ d ∈ ds, 0 ≤ d.mass) {d : Deposit K}
    (hd : d ∈ ds) : d.mass ≤ (load ds d.coord).mass := by
  have hle : (if d.coord = d.coord then d.mass else 0) ≤ (load ds d.coord).mass := by
    refine List.single_le_sum ?_ _ (List.mem_map_of_mem (f := fun e : Deposit K =>
      if e.coord = d.coord then e.mass else 0) hd)
    intro m hm
    obtain ⟨e, he, rfl⟩ := List.mem_map.mp hm
    split_ifs
    · exact h e he
    · exact le_rfl
  rwa [if_pos rfl] at hle

end Deposit

/-- A lattice coordinate that is in none of the bands along the walls. -/
def Coord.IsClear (wallWidth resolution : ℕ) (c : Coord) : Prop :=
  ((wallWidth : ℤ) ≤ c.x ∧ c.x ≤ (resolution : ℤ) - wallWidth) ∧
    ((wallWidth : ℤ) ≤ c.y ∧ c.y ≤ (resolution : ℤ) - wallWidth) ∧
    (wallWidth : ℤ) ≤ c.z ∧ c.z ≤ (resolution : ℤ) - wallWidth

instance (wallWidth resolution : ℕ) (c : Coord) : Decidable (c.IsClear wallWidth resolution) :=
  inferInstanceAs (Decidable (_ ∧ _))

/-- Walls of no width are clear of all nodes. -/
theorem Grid.isClear_zero {R : Type} {g : Grid R} {c : Coord} (h : (g.index? c).isSome) :
    c.IsClear 0 g.resolution := by
  obtain ⟨⟨hx, hxn⟩, ⟨hy, hyn⟩, hz, hzn⟩ := (g.isSome_index?_iff c).mp h
  simp only [Coord.IsClear]
  omega

namespace Grid

theorem contains_iff (g : Grid K) (p : Vec3 K) :
    g.contains p = true ↔ (0 ≤ p.x ∧ p.x < g.resolution * g.cellSize) ∧
      (0 ≤ p.y ∧ p.y < g.resolution * g.cellSize) ∧ 0 ≤ p.z ∧ p.z < g.resolution * g.cellSize := by
  simp only [contains, Vec3.isFinite, Vec3.all, Exact.isFinite_eq, Bool.and_eq_true,
    decide_eq_true_eq, and_self, true_and]
  tauto

theorem cellSize_ne_zero {g : Grid K} {p : Vec3 K} (h : g.contains p = true) :
    g.cellSize ≠ 0 := by
  obtain ⟨⟨lo, hi⟩, -⟩ := (g.contains_iff p).mp h
  intro h0
  rw [h0, mul_zero] at hi
  exact absurd lo (not_le.mpr hi)

theorem cellSize_pos_of_contains {g : Grid K} {p : Vec3 K} (h : g.contains p = true) :
    0 < g.cellSize := by
  have h0 : 0 ≤ g.cellSize := one_div_nonneg.mpr (Nat.cast_nonneg g.resolution)
  exact lt_of_le_of_ne h0 (cellSize_ne_zero h).symm

def Holds (g : Grid K) (p : Vec3 K) : Prop :=
  ∀ n ∈ (Stencil.around p g.cellSize).neighbors, (g.index? n.coord).isSome

instance (g : Grid K) (p : Vec3 K) : Decidable (g.Holds p) := List.decidableBAll _ _

/-- All nodes around a position are on the lattice and clear of its walls. -/
def Surrounds (g : Grid K) (wallWidth : ℕ) (p : Vec3 K) : Prop :=
  ∀ n ∈ (Stencil.around p g.cellSize).neighbors,
    (g.index? n.coord).isSome ∧ n.coord.IsClear wallWidth g.resolution

instance (g : Grid K) (wallWidth : ℕ) (p : Vec3 K) : Decidable (g.Surrounds wallWidth p) :=
  List.decidableBAll _ _

theorem surrounds_congr {g h : Grid K} (hr : g.resolution = h.resolution) :
    g.Surrounds = h.Surrounds := by
  funext wallWidth p
  simp only [Surrounds, cellSize_congr hr, index?_congr hr, hr]

private theorem axis_mem_of_floor {x dx : K} (hdx : 0 < dx) {n : ℕ}
    (lo : 0 ≤ ⌊x / dx - 0.5⌋) (hi : ⌊x / dx - 0.5⌋ + 2 < n) : 0 ≤ x ∧ x < n * dx := by
  obtain ⟨hx, hx'⟩ := Stencil.base_bounds x hdx
  have h0 : (0 : K) ≤ (⌊x / dx - 0.5⌋ : ℤ) := by exact_mod_cast lo
  have h2 : ((⌊x / dx - 0.5⌋ : ℤ) : K) + 2 < n := by exact_mod_cast hi
  constructor
  · exact (mul_nonneg (by linarith) hdx.le).trans hx
  · exact hx'.trans_le (mul_le_mul_of_nonneg_right (by linarith) hdx.le)

theorem Holds.contains {g : Grid K} {p : Vec3 K} (h : g.Holds p) : g.contains p = true := by
  let s := Stencil.around p g.cellSize
  have hmem (i j k : Fin 3) : s.neighbor i j k ∈ s.neighbors :=
    List.mem_map_of_mem (Stencil.mem_steps i j k)
  obtain ⟨⟨lx, -⟩, ⟨ly, -⟩, lz, -⟩ := (g.isSome_index?_iff _).mp (h _ (hmem 0 0 0))
  obtain ⟨⟨-, hx⟩, ⟨-, hy⟩, -, hz⟩ := (g.isSome_index?_iff _).mp (h _ (hmem 2 2 2))
  change 0 ≤ ⌊p.x / g.cellSize - 0.5⌋ + 0 at lx
  change 0 ≤ ⌊p.y / g.cellSize - 0.5⌋ + 0 at ly
  change 0 ≤ ⌊p.z / g.cellSize - 0.5⌋ + 0 at lz
  change ⌊p.x / g.cellSize - 0.5⌋ + 2 < _ at hx
  change ⌊p.y / g.cellSize - 0.5⌋ + 2 < _ at hy
  change ⌊p.z / g.cellSize - 0.5⌋ + 2 < _ at hz
  rw [add_zero] at lx ly lz
  have hdx : 0 < g.cellSize := one_div_pos.mpr (Nat.cast_pos.mpr (by omega))
  exact (g.contains_iff p).mpr
    ⟨axis_mem_of_floor hdx lx hx, axis_mem_of_floor hdx ly hy, axis_mem_of_floor hdx lz hz⟩

theorem Surrounds.contains {g : Grid K} {wallWidth : ℕ} {p : Vec3 K}
    (h : g.Surrounds wallWidth p) : g.contains p = true :=
  Holds.contains fun n hn => (h n hn).1

theorem stopAtWall_eq_self {width resolution i : ℤ} (lo : width ≤ i)
    (hi : i ≤ resolution - width) (v : K) : stopAtWall width resolution i v = v := by
  refine if_neg ?_
  rintro (⟨h, -⟩ | ⟨h, -⟩) <;> omega

private theorem signed_natCast_le (n : ℕ) : Word.signed n ≤ n := by
  simp only [Word.signed, Int.bmod]
  split_ifs <;> omega

theorem mass_smul_settleNode {gravity timeStep : K} {wallWidth resolution : ℕ} {c : Coord}
    {node : Node K} (hn : IsCarried node.mass node.velocity)
    (hc : node.mass ≠ 0 → c.IsClear wallWidth resolution) :
    node.mass • (settleNode gravity timeStep (Word.signed wallWidth) resolution c node).velocity =
      node.velocity + node.mass • ⟨0, -(gravity * timeStep), 0⟩ := by
  by_cases h0 : node.mass = 0
  · rw [h0, hn.2 h0, zero_smul, zero_smul, add_zero]
  obtain ⟨⟨lx, hx⟩, ⟨ly, hy⟩, lz, hz⟩ := hc h0
  have hw := signed_natCast_le wallWidth
  have hm : ¬node.mass ≤ 0 := not_le.mpr (lt_of_le_of_ne hn.1 (Ne.symm h0))
  simp only [settleNode, if_neg hm, Vec3.zipWith, Exact.reciprocal_eq_inv]
  rw [stopAtWall_eq_self (by omega) (by omega), stopAtWall_eq_self (by omega) (by omega),
    stopAtWall_eq_self (by omega) (by omega)]
  ext <;> simp only [Vec3.smul_def, Vec3.add_def] <;> field_simp <;> ring

theorem node?_foldl_deposit (g : Grid K) (ds : List (Deposit K)) (c : Coord) :
    (ds.foldl deposit g).node? c = (g.node? c).map fun n =>
      ⟨n.mass + (Deposit.load ds c).mass, n.velocity + (Deposit.load ds c).velocity⟩ := by
  induction ds generalizing g with
  | nil => simp [Deposit.load, sumAt]
  | cons d ds ih =>
    rw [List.foldl_cons, ih, node?_deposit, Option.map_map]
    congr 1
    funext n
    simp only [Function.comp_apply, Deposit.load, sumAt, List.map_cons, List.sum_cons, ← add_assoc]
    split_ifs
    · rfl
    · simp only [add_zero]

/-- The velocity that a node holds, zero where there is none. -/
def velocityAt (g : Grid K) (c : Coord) : Vec3 K := ((g.node? c).map (·.velocity)).getD 0

private theorem foldl_motion_add (g : Grid K) (ns : List (Neighbor K)) (m : Motion K) :
    ns.foldl (fun m n => match g.node? n.coord with
      | some node => m.add (Stencil.inverseMoment g.cellSize) n node
      | none => m) m =
    ⟨m.velocity + (ns.map fun n => n.weight • g.velocityAt n.coord).sum,
      m.affine + (ns.map fun n => Stencil.inverseMoment g.cellSize •
        Mat3.outer (n.weight • g.velocityAt n.coord) n.offset).sum⟩ := by
  induction ns generalizing m with
  | nil => simp only [List.foldl_nil, List.map_nil, List.sum_nil, add_zero]
  | cons n ns ih =>
    rw [List.foldl_cons, ih]
    simp only [List.map_cons, List.sum_cons, ← add_assoc]
    cases hn : g.node? n.coord with
    | none =>
      have hv : g.velocityAt n.coord = 0 := by rw [velocityAt, hn]; rfl
      simp only [hv, smul_zero, Mat3.zero_outer, add_zero]
    | some node =>
      have hv : g.velocityAt n.coord = node.velocity := by rw [velocityAt, hn]; rfl
      simp only [hv, Motion.add]

/-- The motion is a weighted sum of velocities, and its gradient one of their products with
offsets. -/
theorem motionAt_eq (g : Grid K) (p : Vec3 K) :
    g.motionAt p =
      ⟨((Stencil.around p g.cellSize).neighbors.map fun n => n.weight • g.velocityAt n.coord).sum,
        ((Stencil.around p g.cellSize).neighbors.map fun n => Stencil.inverseMoment g.cellSize •
          Mat3.outer (n.weight • g.velocityAt n.coord) n.offset).sum⟩ := by
  refine (foldl_motion_add g _ ⟨0, 0⟩).trans ?_
  simp only [zero_add]

/-- Where the nodes that count move in a linear field, its value and its slope are the motion. -/
theorem motionAt_of_linear {g : Grid K} (hdx : g.cellSize ≠ 0) {p v : Vec3 K} {slope : Mat3 K}
    (h : ∀ n ∈ (Stencil.around p g.cellSize).neighbors,
      n.weight • g.velocityAt n.coord = n.weight • (v + slope.apply n.offset)) :
    g.motionAt p = ⟨v, slope⟩ := by
  have houter : ∀ n ∈ (Stencil.around p g.cellSize).neighbors,
      Stencil.inverseMoment g.cellSize • Mat3.outer (n.weight • g.velocityAt n.coord) n.offset =
        Stencil.inverseMoment g.cellSize •
          Mat3.outer (n.weight • (v + slope.apply n.offset)) n.offset :=
    fun n hn => by rw [h n hn]
  rw [motionAt_eq, List.map_congr_left h, List.map_congr_left houter,
    Stencil.sum_weight_smul_linear, Stencil.sum_outer_linear p hdx]

end Grid

namespace Particle

theorem isCarried_deposits {mass : K} (hm : 0 < mass) (dx : K) (momentum : Vec3 K)
    (slope : Mat3 K) (p : Particle K) {d : Deposit K}
    (hd : d ∈ p.deposits mass dx momentum slope) : IsCarried d.mass d.momentum := by
  obtain ⟨n, hn, rfl⟩ := List.mem_map.mp hd
  refine ⟨mul_nonneg (Stencil.weight_nonneg p.position dx hn) hm.le, fun h => ?_⟩
  have hw : n.weight = 0 := (mul_eq_zero.mp h).resolve_right hm.ne'
  simp only [hw, zero_smul]

theorem sum_mass_deposits (mass dx : K) (momentum : Vec3 K) (slope : Mat3 K) (p : Particle K) :
    ((p.deposits mass dx momentum slope).map (·.mass)).sum = mass := by
  simp only [deposits, List.map_map, Function.comp_def, List.sum_map_mul_right,
    Stencil.sum_weight, one_mul]

theorem sum_momentum_deposits (mass dx : K) (momentum : Vec3 K) (slope : Mat3 K)
    (p : Particle K) : ((p.deposits mass dx momentum slope).map (·.momentum)).sum = momentum := by
  rw [deposits, List.map_map]
  exact Stencil.sum_weight_smul_linear p.position dx momentum slope

variable [Exponential K] [SingularValues K] {params : Params K} {g : Grid K} {p : Particle K}

theorem deposits_scatter (h : g.contains p.position = true) :
    (p.scatter params g).deposits = p.deposits params.particleMass g.cellSize
      (params.particleMass • p.velocity)
      (p.momentumSlope params g.cellSize (p.response params).stress) := by
  rw [Particle.scatter, if_pos h]

theorem isCarried_of_mem_scatter (hm : 0 < params.particleMass) {d : Deposit K}
    (hd : d ∈ (p.scatter params g).deposits) : IsCarried d.mass d.momentum := by
  unfold Particle.scatter at hd
  split_ifs at hd
  · exact isCarried_deposits hm _ _ _ p hd
  · exact absurd hd List.not_mem_nil

/-- Every node around a particle in the domain is loaded with what the particle leaves there. -/
theorem mul_mass_le_load (hm : 0 < params.particleMass) {ps : Population K} (hp : p ∈ ps)
    (h : g.contains p.position = true) {n : Neighbor K}
    (hn : n ∈ (Stencil.around p.position g.cellSize).neighbors) :
    n.weight * params.particleMass ≤
      (Deposit.load (ps.flatMap fun q => (q.scatter params g).deposits) n.coord).mass := by
  have hshare : ∃ d ∈ (p.scatter params g).deposits,
      d.coord = n.coord ∧ d.mass = n.weight * params.particleMass := by
    rw [deposits_scatter h]
    exact ⟨_, List.mem_map_of_mem hn, rfl, rfl⟩
  obtain ⟨d, hd, hc, hmass⟩ := hshare
  rw [← hc, ← hmass]
  refine Deposit.le_mass_load (fun e he => ?_) (List.mem_flatMap.mpr ⟨p, hp, hd⟩)
  obtain ⟨q, -, he⟩ := List.mem_flatMap.mp he
  exact (isCarried_of_mem_scatter hm he).1

end Particle

variable [Exponential K] [SingularValues K]

/-- On an empty lattice a node holds what was deposited on it. -/
theorem node?_scatter_reset (params : Params K) (ps : Population K) {g : Grid K} {c : Coord}
    (h : (g.index? c).isSome) : (scatter params ps g.reset).2.node? c =
      some (Deposit.load (ps.flatMap fun p => (p.scatter params g).deposits) c) := by
  rw [scatter_snd, Grid.node?_foldl_deposit, Grid.node?_reset g c h, Option.map_some]
  exact congrArg some (Node.ext (zero_add _) (zero_add _))

namespace Simulation

/-- What all particles deposit in a substep. -/
def deposits (s : Simulation K) : List (Deposit K) :=
  s.particles.flatMap fun p => (p.scatter s.params s.grid).deposits

theorem isCarried_of_mem_deposits {s : Simulation K} (hm : 0 < s.params.particleMass)
    {d : Deposit K} (hd : d ∈ s.deposits) : IsCarried d.mass d.momentum := by
  obtain ⟨p, -, hd⟩ := List.mem_flatMap.mp hd
  exact Particle.isCarried_of_mem_scatter hm hd

theorem node?_transfer (s : Simulation K) {c : Coord} (h : (s.grid.index? c).isSome) :
    s.transfer.grid.node? c =
      some (Grid.settleNode s.params.gravity s.params.timeStep (Word.signed s.params.wallWidth)
        s.grid.resolution c (Deposit.load s.deposits c)) := by
  simp only [transfer]
  rw [Grid.node?_settle, node?_scatter_reset s.params s.particles h, resolution_scatter]
  rfl

@[simp] theorem cellSize_transfer (s : Simulation K) :
    s.transfer.grid.cellSize = s.grid.cellSize := by
  rw [Grid.cellSize, Grid.cellSize, resolution_transfer]

theorem gather_scatter {s : Simulation K} {p : Particle K}
    (h : s.grid.contains p.position = true) :
    let m := s.transfer.grid.motionAt p.position
    let q := (p.scatter s.params s.grid).particle.gather s.params.timeStep s.transfer.grid
    q.velocity = m.velocity ∧ q.affine = m.affine ∧
      q.position = p.position + s.params.timeStep • m.velocity := by
  have hg : s.transfer.grid.contains p.position = true := by
    rw [Grid.contains, cellSize_transfer, resolution_transfer]
    exact h
  have hp : (p.scatter s.params s.grid).particle.position = p.position := by
    rw [Particle.scatter, if_pos h]
    rfl
  simp only [Particle.gather, Particle.carry, hp, hg, if_true, and_self]

end Simulation
end MaterialPoint
