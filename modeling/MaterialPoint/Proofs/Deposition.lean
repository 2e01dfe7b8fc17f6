import MaterialPoint.Proofs.Drift
import MaterialPoint.Proofs.Escape
import MaterialPoint.Proofs.Overflow

/-! What particles leave on an empty lattice: some mass each, and nothing that they did not
bring. -/
namespace MaterialPoint
open scoped Exact Drift

variable {K : Type} [Field K] [LinearOrder K] [IsStrictOrderedRing K] [FloorRing K]

namespace Grid

/-- The part of the weight around a position that is on the lattice. -/
def weightOn (g : Grid K) (p : Vec3 K) : K :=
  (((Stencil.around p g.cellSize).neighbors.filter fun n => (g.index? n.coord).isSome).map
    (·.weight)).sum

/-- A position in the domain has a node of the lattice that is last not above it. -/
theorem isSome_index?_floor {g : Grid K} {p : Vec3 K} (h : g.contains p = true) :
    (g.index? ⟨⌊p.x / g.cellSize⌋, ⌊p.y / g.cellSize⌋, ⌊p.z / g.cellSize⌋⟩).isSome := by
  have hdx := cellSize_pos_of_contains h
  have axis {x : K} (hx : 0 ≤ x ∧ x < g.resolution * g.cellSize) :
      0 ≤ ⌊x / g.cellSize⌋ ∧ ⌊x / g.cellSize⌋ < g.resolution := by
    refine ⟨Int.floor_nonneg.mpr (div_nonneg hx.1 hdx.le), Int.floor_lt.mpr ?_⟩
    exact_mod_cast (div_lt_iff₀ hdx).mpr hx.2
  obtain ⟨hx, hy, hz⟩ := (g.contains_iff p).mp h
  exact (g.isSome_index?_iff _).mpr ⟨axis hx, axis hy, axis hz⟩

/-- A position in the domain has a node with more than the 512th part of the weight around it. -/
theorem exists_neighbor_of_contains {g : Grid K} {p : Vec3 K} (h : g.contains p = true) :
    ∃ n ∈ (Stencil.around p g.cellSize).neighbors,
      (g.index? n.coord).isSome ∧ 1 / 512 < n.weight := by
  obtain ⟨n, hn, hc, hw⟩ := Stencil.exists_neighbor_floor p g.cellSize
  refine ⟨n, hn, ?_, hw⟩
  rw [hc]
  exact isSome_index?_floor h

theorem lt_weightOn {g : Grid K} {p : Vec3 K} (h : g.contains p = true) :
    1 / 512 < g.weightOn p := by
  obtain ⟨n, hn, hon, hw⟩ := exists_neighbor_of_contains h
  refine hw.trans_le (List.single_le_sum ?_ _ ?_)
  · intro w hw
    obtain ⟨m, hm, rfl⟩ := List.mem_map.mp hw
    exact Stencil.weight_nonneg p g.cellSize (List.mem_filter.mp hm).1
  · exact List.mem_map_of_mem (List.mem_filter.mpr ⟨hn, hon⟩)

theorem weightOn_le_one (g : Grid K) (p : Vec3 K) : g.weightOn p ≤ 1 := by
  rw [← Stencil.sum_weight p g.cellSize]
  refine (List.filter_sublist.map _).sum_le_sum ?_
  intro w hw
  obtain ⟨n, hn, rfl⟩ := List.mem_map.mp hw
  exact Stencil.weight_nonneg p g.cellSize hn

theorem weightOn_eq_one {g : Grid K} {p : Vec3 K} (h : g.Holds p) : g.weightOn p = 1 := by
  rw [weightOn, List.filter_eq_self.mpr h, Stencil.sum_weight]

theorem sum_nodes_deposit {M : Type} [AddCommMonoid M] {φ : Node K → M} {δ : Deposit K → M}
    (hφ : ∀ n d, φ (n.accumulate d.mass d.momentum) = φ n + δ d) (g : Grid K) (d : Deposit K) :
    ((g.deposit d).nodes.toList.map φ).sum =
      (g.nodes.toList.map φ).sum + if (g.index? d.coord).isSome then δ d else 0 := by
  cases h : g.index? d.coord with
  | none =>
    have hg : g.deposit d = g := modify_of_none h _
    rw [hg, Option.isSome_none, if_neg Bool.false_ne_true, add_zero]
  | some i =>
    have hi : i < g.nodes.toList.length := index?_lt h
    have hg : (g.deposit d).nodes.toList =
        g.nodes.toList.modify i (·.accumulate d.mass d.momentum) := by
      simp [deposit, accumulate, modify, h, modifyAt]
    rw [hg, sum_map_modify (fun n => hφ n d) hi, Option.isSome_some, if_pos rfl]

theorem sum_nodes_foldl_deposit {M : Type} [AddCommMonoid M] {φ : Node K → M} {δ : Deposit K → M}
    (hφ : ∀ n d, φ (n.accumulate d.mass d.momentum) = φ n + δ d) (g : Grid K)
    (ds : List (Deposit K)) :
    ((ds.foldl deposit g).nodes.toList.map φ).sum = (g.nodes.toList.map φ).sum +
      ((ds.filter fun d => (g.index? d.coord).isSome).map δ).sum := by
  induction ds generalizing g with
  | nil => exact (add_zero _).symm
  | cons d ds ih =>
    have hr : (g.deposit d).resolution = g.resolution := resolution_accumulate ..
    simp only [List.foldl_cons, ih, sum_nodes_deposit hφ, index?_congr hr, List.filter_cons]
    split_ifs
    · rw [List.map_cons, List.sum_cons, add_assoc]
    · rw [add_zero]

theorem sum_nodes_reset {M : Type} [AddCommMonoid M] {φ : Node K → M} (h0 : φ 0 = 0)
    (g : Grid K) : (g.reset.nodes.toList.map φ).sum = 0 := by
  simp [reset, empty, h0]

theorem isCarried_deposit {g : Grid K} {d : Deposit K}
    (hg : ∀ n ∈ g.nodes, IsCarried n.mass n.velocity) (hd : IsCarried d.mass d.momentum) :
    ∀ n ∈ (g.deposit d).nodes, IsCarried n.mass n.velocity := by
  intro n hn
  cases h : g.index? d.coord with
  | none =>
    have heq : g.deposit d = g := modify_of_none h _
    rw [heq] at hn
    exact hg n hn
  | some i =>
    obtain ⟨j, hj⟩ := Array.mem_iff_getElem?.mp hn
    simp only [deposit, accumulate, modify, h, modifyAt, Array.getElem?_modify] at hj
    split_ifs at hj with hij
    · obtain ⟨m, hm, rfl⟩ := Option.map_eq_some_iff.mp hj
      exact (hg m (Array.mem_of_getElem? hm)).add hd
    · exact hg n (Array.mem_of_getElem? hj)

theorem isCarried_foldl_deposit {g : Grid K} {ds : List (Deposit K)}
    (hg : ∀ n ∈ g.nodes, IsCarried n.mass n.velocity)
    (hds : ∀ d ∈ ds, IsCarried d.mass d.momentum) :
    ∀ n ∈ (ds.foldl deposit g).nodes, IsCarried n.mass n.velocity := by
  induction ds generalizing g with
  | nil => exact hg
  | cons d ds ih =>
    exact ih (isCarried_deposit hg (hds d List.mem_cons_self))
      fun e he => hds e (List.mem_cons_of_mem d he)

theorem isCarried_reset (g : Grid K) : ∀ n ∈ g.reset.nodes, IsCarried n.mass n.velocity := by
  intro n hn
  obtain ⟨-, rfl⟩ := Array.mem_replicate.mp hn
  exact isCarried_zero

end Grid

namespace Particle

/-- What a particle leaves on a lattice of its mass is the weight around it that is on the
lattice. -/
theorem sum_mass_deposits_filter (g : Grid K) (mass : K) (momentum : Vec3 K) (slope : Mat3 K)
    (p : Particle K) :
    (((p.deposits mass g.cellSize momentum slope).filter fun d =>
      (g.index? d.coord).isSome).map (·.mass)).sum = mass * g.weightOn p.position := by
  rw [deposits, List.filter_map, List.map_map, Grid.weightOn, mul_comm,
    ← List.sum_map_mul_right]
  rfl

theorem filter_deposits_of_holds {g : Grid K} {p : Particle K} (h : g.Holds p.position) (mass : K)
    (momentum : Vec3 K) (slope : Mat3 K) :
    ((p.deposits mass g.cellSize momentum slope).filter fun d => (g.index? d.coord).isSome) =
      p.deposits mass g.cellSize momentum slope := by
  refine List.filter_eq_self.mpr fun d hd => ?_
  obtain ⟨n, hn, rfl⟩ := List.mem_map.mp hd
  exact h n hn

end Particle

variable [Exponential K] [SingularValues K] {params : Params K} {ps : Population K} {g : Grid K}

theorem sum_nodes_scatter {M : Type} [AddCommMonoid M] {φ : Node K → M} {δ : Deposit K → M}
    (h0 : φ 0 = 0) (hφ : ∀ n d, φ (n.accumulate d.mass d.momentum) = φ n + δ d)
    (params : Params K) (ps : Population K) (g : Grid K) :
    ((scatter params ps g.reset).2.nodes.toList.map φ).sum =
      (ps.map fun p => (((p.scatter params g).deposits.filter fun d =>
        (g.index? d.coord).isSome).map δ).sum).sum := by
  rw [scatter_snd, Grid.sum_nodes_foldl_deposit hφ, Grid.sum_nodes_reset h0, zero_add,
    List.filter_flatMap, List.map_flatMap, sum_flatMap]
  rfl

/-- The lattice does not tell particles outside the domain from none. -/
theorem scatter_snd_filter (params : Params K) (ps : Population K) (g : Grid K) :
    (scatter params (ps.filter (g.contains ·.position)) g).2 = (scatter params ps g).2 :=
  scatter_snd_congr (by simp)

theorem exists_node_of_contains (hm : 0 < params.particleMass) {p : Particle K} (hp : p ∈ ps)
    (h : g.contains p.position = true) :
    ∃ n ∈ (Stencil.around p.position g.cellSize).neighbors, 0 < n.weight ∧
      ∃ node, (scatter params ps g.reset).2.node? n.coord = some node ∧
        n.weight * params.particleMass ≤ node.mass := by
  obtain ⟨n, hn, hon, hw⟩ := Grid.exists_neighbor_of_contains h
  refine ⟨n, hn, lt_trans (by norm_num) hw, ?_⟩
  exact ⟨_, node?_scatter_reset params ps hon, Particle.mul_mass_le_load hm hp h hn⟩

/-- The mass and the momentum of the nodes are those of the particles, less what sticks out. -/
theorem scatter_reset_balance (hm : 0 < params.particleMass) (ps : Population K) (g : Grid K) :
    let loaded := (scatter params ps g.reset).2
    let inside := ps.filter (g.contains ·.position)
    (∀ node ∈ loaded.nodes, 0 ≤ node.mass ∧ (node.mass = 0 → node.velocity = 0)) ∧
    loaded.totalMass = (inside.map fun p => params.particleMass * g.weightOn p.position).sum ∧
    (∀ p ∈ inside, 1 / 512 < g.weightOn p.position ∧ g.weightOn p.position ≤ 1 ∧
      (g.Holds p.position → g.weightOn p.position = 1) ∧
      ∃ n ∈ (Stencil.around p.position g.cellSize).neighbors, 0 < n.weight ∧
        ∃ node, loaded.node? n.coord = some node ∧
          n.weight * params.particleMass ≤ node.mass) ∧
    (scatter params inside g.reset).2 = loaded ∧
    ((∀ p ∈ inside, g.Holds p.position) → (loaded.nodes.toList.map (·.velocity)).sum =
      (inside.map fun p => params.particleMass • p.velocity).sum) := by
  intro loaded inside
  have hinside : (scatter params inside g.reset).2 = loaded := scatter_snd_filter params ps g.reset
  have hmem (p : Particle K) (hp : p ∈ inside) : p ∈ ps ∧ g.contains p.position = true :=
    List.mem_filter.mp hp
  refine ⟨?_, ?_, fun p hp => ?_, hinside, fun hholds => ?_⟩
  · have hloaded : loaded = _ := scatter_snd params ps g.reset
    rw [hloaded]
    refine Grid.isCarried_foldl_deposit (Grid.isCarried_reset g) fun d hd => ?_
    obtain ⟨p, -, hd⟩ := List.mem_flatMap.mp hd
    exact Particle.isCarried_of_mem_scatter hm hd
  · rw [← hinside, Grid.totalMass, sumByEighths_eq_sum,
      sum_nodes_scatter (δ := Deposit.mass) rfl (fun _ _ => rfl)]
    congr 1
    refine List.map_congr_left fun p hp => ?_
    rw [Particle.deposits_scatter (hmem p hp).2, Particle.sum_mass_deposits_filter]
  · obtain ⟨hps, hcontains⟩ := hmem p hp
    exact ⟨Grid.lt_weightOn hcontains, g.weightOn_le_one p.position, Grid.weightOn_eq_one,
      exists_node_of_contains hm hps hcontains⟩
  · rw [← hinside, sum_nodes_scatter (δ := Deposit.momentum) rfl (fun _ _ => rfl)]
    congr 1
    refine List.map_congr_left fun p hp => ?_
    rw [Particle.deposits_scatter (hmem p hp).2, Particle.filter_deposits_of_holds (hholds p hp),
      Particle.sum_momentum_deposits]

/-- In words, the scatter onto an empty lattice does not stop, and loses only what sticks out. -/
theorem scatter?_reset_balance {g : Grid K} (hfits : g.resolution ^ 3 ≤ 2 ^ 31)
    (hm : 0 < params.particleMass) (ps : Population K) :
    let inside := ps.filter (g.contains ·.position)
    ∃ qs loaded, scatter? params ps g.reset = some (qs, loaded) ∧
    (∀ node ∈ loaded.nodes, 0 ≤ node.mass ∧ (node.mass = 0 → node.velocity = 0)) ∧
    loaded.totalMass = (inside.map fun p => params.particleMass * g.weightOn p.position).sum ∧
    (∀ p ∈ inside, 1 / 512 < g.weightOn p.position ∧ g.weightOn p.position ≤ 1 ∧
      (g.Holds p.position → g.weightOn p.position = 1) ∧
      ∃ n ∈ (Stencil.around p.position g.cellSize).neighbors, 0 < n.weight ∧
        ∃ node, loaded.node? n.coord = some node ∧
          n.weight * params.particleMass ≤ node.mass) ∧
    (∃ rs, scatter? params inside g.reset = some (rs, loaded)) ∧
    ((∀ p ∈ inside, g.Holds p.position) → (loaded.nodes.toList.map (·.velocity)).sum =
      (inside.map fun p => params.particleMass • p.velocity).sum) := by
  intro inside
  obtain ⟨hnodes, hmass, hfelt, hinside, hmomentum⟩ := scatter_reset_balance hm ps g
  have hscatter (rs : Population K) :
      scatter? params rs g.reset = some (scatter params rs g.reset) :=
    scatter?_of_fits (g := g.reset) hfits params rs
  have hkept : scatter? params inside g.reset =
      some ((scatter params inside g.reset).1, (scatter params ps g.reset).2) := by
    rw [hscatter inside, ← hinside]
  exact ⟨_, _, hscatter ps, hnodes, hmass, hfelt, ⟨_, hkept⟩, hmomentum⟩

theorem scatter?_reset_balance_corners :
    let params : Params ℚ := Params.ofResolution 4
    let ps := [Drift.particle (7 / 16) (1 / 8) .snow, Particle.atRest ⟨0, 0, 0⟩ .water,
      Particle.atRest ⟨31 / 32, 31 / 32, 31 / 32⟩ .jelly, Particle.atRest ⟨2, 0, 0⟩ .water]
    0 < params.particleMass ∧
      ∃ qs loaded, scatter? params ps (Grid.empty 4).reset = some (qs, loaded) ∧
        loaded.totalMass = params.particleMass * (1 + (7 / 8) ^ 3 + (25 / 128) ^ 3) := by
  intro params ps
  have hm : 0 < params.particleMass := by decide +kernel
  have hfits : (Grid.empty (R := ℚ) 4).resolution ^ 3 ≤ 2 ^ 31 := by decide
  obtain ⟨qs, loaded, hscatter, -, hmass, -⟩ := scatter?_reset_balance hfits hm ps
  refine ⟨hm, qs, loaded, hscatter, hmass.trans ?_⟩
  decide +kernel

/-- On a lattice with too many nodes the scatter can stop. -/
theorem not_scatter?_reset_balance_tall :
    let params := Tall.simulation.params
    let g := Tall.simulation.grid
    3 ≤ g.resolution ∧ 0 < params.particleMass ∧ g.Holds Tall.particle.position ∧
      ¬∃ qs loaded, scatter? params [Tall.particle] g.reset = some (qs, loaded) ∧
        loaded.totalMass = params.particleMass := by
  intro params g
  refine ⟨by decide, Tall.particleMass_pos, fun n hn => (Tall.surrounds_particle n hn).1, ?_⟩
  rintro ⟨qs, loaded, h, -⟩
  rw [Tall.scatter?_eq_none rfl] at h
  cases h

end MaterialPoint
