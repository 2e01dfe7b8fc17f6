import MaterialPoint.Proofs.Coherence
import MaterialPoint.Proofs.Drift
import MaterialPoint.Proofs.Overflow

/-! The walls hold the particles, which move with weighted means of nodes that move nothing
outwards. -/
namespace MaterialPoint
open scoped Exact Drift

variable {K : Type} [Field K] [LinearOrder K] [IsStrictOrderedRing K] [FloorRing K]

/-- A position in the unit cube without its high faces. -/
def Particle.IsInside (p : Particle K) : Prop :=
  (0 ≤ p.position.x ∧ p.position.x < 1) ∧ (0 ≤ p.position.y ∧ p.position.y < 1) ∧
    0 ≤ p.position.z ∧ p.position.z < 1

instance (p : Particle K) : Decidable p.IsInside := inferInstanceAs (Decidable (_ ∧ _))

@[simp] theorem Particle.position_repair (b : Bounds K) (p : Particle K) :
    (p.repair b).position = p.position := by
  have hf : p.resetShape.position.isFinite = true := rfl
  unfold repair
  split_ifs
  · rfl
  · rw [recoverPosition, if_pos hf]
    rfl

theorem Population.exists_getElem?_repair {b : Bounds K} {ps : Population K} {i : ℕ}
    {p : Particle K} (hp : ps[i]? = some p) (hin : p.IsInside) :
    ∃ q, (ps.repair b)[i]? = some q ∧ q.IsInside := by
  refine ⟨p.repair b, ?_, ?_⟩
  · rw [repair, List.getElem?_map, hp, Option.map_some]
  · rw [Particle.IsInside, Particle.position_repair]
    exact hin

/-- A velocity along an axis that does not lead out of the bands at its ends. -/
def IsStopped (width resolution i : ℤ) (v : K) : Prop :=
  (i < width → 0 ≤ v) ∧ (resolution - width < i → v ≤ 0)

theorem isStopped_zero (width resolution i : ℤ) : IsStopped width resolution i (0 : K) :=
  ⟨fun _ => le_rfl, fun _ => le_rfl⟩

theorem isStopped_stopAtWall (width resolution i : ℤ) (v : K) :
    IsStopped width resolution i (Grid.stopAtWall width resolution i v) := by
  unfold Grid.stopAtWall
  split_ifs with h
  · exact isStopped_zero width resolution i
  · push Not at h
    exact ⟨h.1, fun hi => h.2 hi⟩

/-- Along one axis, what moves with a weighted mean of stopped velocities stays between the ends. -/
theorem axis_mem_of_isStopped {ι : Type} {l : List ι} {w v : ι → K} {i : ι → ℤ}
    {width resolution : ℕ} {base : ℤ} {x dt dx : K} (hdt : 0 < dt) (hdx : 0 < dx)
    (hw : ∀ m ∈ l, 0 ≤ w m) (h1 : (l.map w).sum = 1)
    (hbase : ∀ m ∈ l, base ≤ i m ∧ i m ≤ base + 2)
    (hx : ((base : K) + 1 / 2) * dx ≤ x ∧ x < ((base : K) + 3 / 2) * dx)
    (hv : ∀ m ∈ l, IsStopped width resolution (i m) (v m))
    (hs : ∀ m ∈ l, dt * |v m| ≤ ((width : K) - 3 / 2) * dx)
    (hin : 0 ≤ x ∧ x < resolution * dx) :
    0 ≤ x + (l.map fun m => v m * w m).sum * dt ∧
      x + (l.map fun m => v m * w m).sum * dt < resolution * dx := by
  have hmean : (l.map fun m => v m * w m).sum * dt = (l.map fun m => v m * dt * w m).sum := by
    rw [← List.sum_map_mul_right]
    congr 1
    exact List.map_congr_left fun m _ => mul_right_comm (v m) (w m) dt
  rw [hmean]
  constructor
  · by_cases hneg : ∃ m ∈ l, v m < 0
    -- A node that moves down is above the low band, so the position has room below it.
    · obtain ⟨m, hm, hvm⟩ := hneg
      have hi : width ≤ base + 2 := by
        have hwi : ¬i m < width := fun h => absurd ((hv m hm).1 h) (not_le.mpr hvm)
        have := (hbase m hm).2
        omega
      have hi' : (width : K) ≤ base + 2 := by exact_mod_cast hi
      have hroom : ((width : K) - 3 / 2) * dx ≤ x :=
        (mul_le_mul_of_nonneg_right (by linarith) hdx.le).trans hx.1
      have hlow : -(((width : K) - 3 / 2) * dx) ≤ (l.map fun m => v m * dt * w m).sum := by
        refine le_sum_mul_weight hw h1 fun m hm => ?_
        have h := mul_le_mul_of_nonneg_right (neg_abs_le (v m)) hdt.le
        have := hs m hm
        linarith
      linarith
    · push Not at hneg
      have hlow := le_sum_mul_weight hw h1 fun m hm => mul_nonneg (hneg m hm) hdt.le
      linarith [hin.1]
  · by_cases hpos : ∃ m ∈ l, 0 < v m
    -- A node that moves up is below the high band, and the lowest node is not above it.
    · obtain ⟨m, hm, hvm⟩ := hpos
      have hi : base ≤ resolution - width := by
        have hwi : ¬resolution - width < i m := fun h => absurd ((hv m hm).2 h) (not_le.mpr hvm)
        have := (hbase m hm).1
        omega
      have hi' : (base : K) ≤ resolution - width := by exact_mod_cast hi
      have hroom : x < (resolution - width + 3 / 2) * dx :=
        hx.2.trans_le (mul_le_mul_of_nonneg_right (by linarith) hdx.le)
      have hhigh : (l.map fun m => v m * dt * w m).sum ≤ ((width : K) - 3 / 2) * dx := by
        refine sum_mul_weight_le hw h1 fun m hm => ?_
        have h := mul_le_mul_of_nonneg_right (le_abs_self (v m)) hdt.le
        have := hs m hm
        linarith
      linarith
    · push Not at hpos
      have hhigh := sum_mul_weight_le hw h1 fun m hm =>
        mul_nonpos_of_nonpos_of_nonneg (hpos m hm) hdt.le
      linarith [hin.2]

theorem Vec3.axis_add_smul_sum {ι : Type} (axis : Vec3 K → K) (h0 : axis 0 = 0)
    (ha : ∀ v w, axis (v + w) = axis v + axis w) (hm : ∀ a v, axis (a • v) = axis v * a)
    (x : Vec3 K) (dt : K) (l : List ι) (w : ι → K) (v : ι → Vec3 K) :
    axis (x + dt • (l.map fun i => w i • v i).sum) =
      axis x + (l.map fun i => axis (v i) * w i).sum * dt := by
  rw [ha, hm, map_sum_map axis h0 ha]
  simp only [hm]

/-- No component of a velocity carries farther in a substep than a distance. -/
def Vec3.IsSlow (timeStep room : K) (v : Vec3 K) : Prop :=
  timeStep * |v.x| < room ∧ timeStep * |v.y| < room ∧ timeStep * |v.z| < room

instance (timeStep room : K) (v : Vec3 K) : Decidable (v.IsSlow timeStep room) :=
  inferInstanceAs (Decidable (_ ∧ _))

/-- A velocity at a lattice coordinate that is stopped along each axis. -/
def Coord.IsStopped (width resolution : ℤ) (c : Coord) (v : Vec3 K) : Prop :=
  MaterialPoint.IsStopped width resolution c.x v.x ∧
    MaterialPoint.IsStopped width resolution c.y v.y ∧
    MaterialPoint.IsStopped width resolution c.z v.z

namespace Grid

theorem isStopped_settleNode (gravity timeStep : K) (width resolution : ℤ) (c : Coord)
    {node : Node K} (hn : IsCarried node.mass node.velocity) :
    c.IsStopped width resolution
      (settleNode gravity timeStep width resolution c node).velocity := by
  unfold settleNode
  split_ifs with h
  · have hv := hn.2 (le_antisymm h hn.1)
    rw [hv]
    exact ⟨isStopped_zero .., isStopped_zero .., isStopped_zero ..⟩
  · exact ⟨isStopped_stopAtWall .., isStopped_stopAtWall .., isStopped_stopAtWall ..⟩

theorem velocityAt_of_forall {g : Grid K} {P : Vec3 K → Prop} (h0 : P 0)
    (h : ∀ node ∈ g.nodes, P node.velocity) (c : Coord) : P (g.velocityAt c) := by
  unfold velocityAt node?
  cases hc : g.index? c with
  | none => exact h0
  | some i =>
    have hi := index?_lt hc
    rw [Option.bind_some, Array.getElem?_eq_getElem hi]
    exact h _ (Array.getElem_mem hi)

end Grid

theorem Simulation.IsCoherent.contains_iff {s : Simulation K} (hs : s.IsCoherent) (p : Particle K) :
    s.grid.contains p.position = true ↔ p.IsInside := by
  rw [Grid.contains_iff, hs.cellSize_grid, hs.resolution_mul_cellSize, Particle.IsInside]

variable [Exponential K] [SingularValues K]

namespace Simulation

theorem isStopped_velocityAt {s : Simulation K} (hm : 0 < s.params.particleMass) (c : Coord) :
    c.IsStopped (Word.signed s.params.wallWidth) s.grid.resolution
      (s.transfer.grid.velocityAt c) := by
  by_cases hc : (s.grid.index? c).isSome
  · rw [Grid.velocityAt, s.node?_transfer hc]
    exact Grid.isStopped_settleNode _ _ _ _ _
      (Deposit.isCarried_load (fun d hd => isCarried_of_mem_deposits hm hd) c)
  · have hn : s.transfer.grid.node? c = none := by
      rw [← Option.not_isSome_iff_eq_none, Grid.isSome_node?_iff,
        Grid.index?_congr s.resolution_transfer]
      exact hc
    rw [Grid.velocityAt, hn]
    exact ⟨isStopped_zero .., isStopped_zero .., isStopped_zero ..⟩

/-- No node crosses in a substep the walls' width less one cell and a half. -/
def IsSlow (s : Simulation K) : Prop :=
  ∀ node ∈ s.grid.nodes, node.velocity.IsSlow s.params.timeStep
    (((s.params.wallWidth : K) - 3 / 2) * s.params.cellSize)

instance (s : Simulation K) : Decidable s.IsSlow := inferInstanceAs (Decidable (∀ _ ∈ _, _))

omit [Exponential K] [SingularValues K] in
/-- Nodes can be slow only where the walls are at least two nodes wide. -/
theorem IsSlow.room_pos {s : Simulation K} (hs : s.IsCoherent) (hslow : s.IsSlow) :
    0 < ((s.params.wallWidth : K) - 3 / 2) * s.params.cellSize := by
  have hn := ((Params.valid_iff _).mp hs.valid).1
  have hdt : 0 < s.params.timeStep := ((Params.valid_iff _).mp hs.valid).2.2.1
  have hsize : 0 < s.grid.nodes.size := by
    rw [s.grid.size_nodes, hs.resolution_eq]
    positivity
  have h := (hslow _ (Array.getElem_mem hsize)).1
  exact (mul_nonneg hdt.le (abs_nonneg _)).trans_lt h

namespace IsCoherent

theorem isStopped_velocityAt {s : Simulation K} (hs : s.IsCoherent) (c : Coord) :
    c.IsStopped s.params.wallWidth s.grid.resolution (s.transfer.grid.velocityAt c) := by
  rw [← hs.signed_wallWidth]
  exact Simulation.isStopped_velocityAt (Params.particleMass_pos hs.valid) c

theorem isSlow_velocityAt {s : Simulation K} (hs : s.IsCoherent) (hslow : s.substep.IsSlow)
    (c : Coord) : (s.transfer.grid.velocityAt c).IsSlow s.params.timeStep
      ((s.params.wallWidth - 3 / 2) * s.params.cellSize) := by
  have h0 := mul_zero s.params.timeStep
  have hroom := hslow.room_pos hs.substep
  rw [params_substep] at hroom
  rw [IsSlow, params_substep, grid_substep] at hslow
  refine Grid.velocityAt_of_forall ⟨?_, ?_, ?_⟩ hslow c <;>
    simpa only [Vec3.zero_def, abs_zero, h0] using hroom

theorem isInside_gather {s : Simulation K} (hs : s.IsCoherent) (hslow : s.substep.IsSlow)
    {p : Particle K} (hp : p.IsInside) :
    ((p.scatter s.params s.grid).particle.gather s.params.timeStep
      s.transfer.grid).IsInside := by
  have hdt : 0 < s.params.timeStep := ((Params.valid_iff _).mp hs.valid).2.2.1
  have hdx := Params.cellSize_pos hs.valid
  have hw {n : Neighbor K} (hn : n ∈ (Stencil.around p.position s.params.cellSize).neighbors) :=
    Stencil.weight_nonneg p.position s.params.cellSize hn
  have h1 := Stencil.sum_weight p.position s.params.cellSize
  have hcoord {n : Neighbor K} (hn : n ∈ (Stencil.around p.position s.params.cellSize).neighbors) :=
    Stencil.coord_bounds p.position s.params.cellSize hn
  obtain ⟨-, -, hx⟩ := gather_scatter ((hs.contains_iff p).mpr hp)
  rw [Particle.IsInside, ← hs.resolution_mul_cellSize] at hp ⊢
  rw [hx, Grid.motionAt_eq, cellSize_transfer, hs.cellSize_grid]
  dsimp only
  rw [Vec3.axis_add_smul_sum Vec3.x rfl (fun _ _ => rfl) fun _ _ => rfl,
    Vec3.axis_add_smul_sum Vec3.y rfl (fun _ _ => rfl) fun _ _ => rfl,
    Vec3.axis_add_smul_sum Vec3.z rfl (fun _ _ => rfl) fun _ _ => rfl]
  refine ⟨?_, ?_, ?_⟩
  · exact axis_mem_of_isStopped hdt hdx (fun n hn => hw hn) h1 (fun n hn => (hcoord hn).1)
      (Stencil.base_bounds _ hdx) (fun n _ => (hs.isStopped_velocityAt n.coord).1)
      (fun n _ => (hs.isSlow_velocityAt hslow n.coord).1.le) hp.1
  · exact axis_mem_of_isStopped hdt hdx (fun n hn => hw hn) h1 (fun n hn => (hcoord hn).2.1)
      (Stencil.base_bounds _ hdx) (fun n _ => (hs.isStopped_velocityAt n.coord).2.1)
      (fun n _ => (hs.isSlow_velocityAt hslow n.coord).2.1.le) hp.2.1
  · exact axis_mem_of_isStopped hdt hdx (fun n hn => hw hn) h1 (fun n hn => (hcoord hn).2.2)
      (Stencil.base_bounds _ hdx) (fun n _ => (hs.isStopped_velocityAt n.coord).2.2)
      (fun n _ => (hs.isSlow_velocityAt hslow n.coord).2.2.le) hp.2.2

end IsCoherent

theorem exists_getElem?_substep {s : Simulation K} (hs : s.IsCoherent) (hslow : s.substep.IsSlow)
    {i : ℕ} {p : Particle K} (hp : s.particles[i]? = some p) (hin : p.IsInside) :
    ∃ q, s.substep.particles[i]? = some q ∧ q.IsInside := by
  have hq := getElem?_transfer hp
  have hqin := hs.isInside_gather hslow hin
  by_cases hr : s.params.repairs = true
  · rw [particles_substep_of_repairs hr]
    exact Population.exists_getElem?_repair hq hqin
  · rw [particles_substep (Bool.not_eq_true _ ▸ hr)]
    exact ⟨_, hq, hqin⟩

/-- A substep after which the nodes are slow, or a change of parameters, of gravity or by a
repair. -/
inductive SlowStep : Simulation K → Simulation K → Prop
  | substep {s t : Simulation K} (h : s.substep? = some t) (hslow : t.IsSlow) : SlowStep s t
  | setParams {s t : Simulation K} {params : Params K} (h : s.setParams? params = some (.ok t))
      (hfits : t.params.resolution ^ 3 ≤ 2 ^ 31) : SlowStep s t
  | setGravity {s : Simulation K} (gravity : K) : SlowStep s (s.setGravity gravity)
  | repair {s t : Simulation K} (h : s.repair? = some t) : SlowStep s t

/-- A coherent state whose nodes all have numbers. -/
structure IsCompact (s : Simulation K) : Prop extends s.IsCoherent where
  resolution_le : s.grid.resolution ^ 3 ≤ 2 ^ 31

omit [Exponential K] [SingularValues K] in
theorem isCompact_of_valid {s : Simulation K} (hv : s.params.Valid)
    (hr : s.grid.resolution = s.params.resolution) (hfits : s.params.resolution ^ 3 ≤ 2 ^ 31) :
    s.IsCompact where
  valid := hv
  resolution_eq := hr
  fits := by
    rw [pow_three'] at hfits
    rw [Grid.fits, decide_eq_true_eq]
    omega
  resolution_le := by rwa [hr]

/-- A substep of such a state does not stop: its walls leave room between them. -/
theorem IsCompact.substep?_eq {s : Simulation K} (hs : s.IsCompact) :
    s.substep? = some s.substep := by
  have hn := Grid.resolution_lt hs.resolution_le
  have hw := hs.valid.wallWidth_le.2
  have hr := hs.resolution_eq
  refine (fitsWords_of_walls hs.resolution_le (.inl ?_)).substep?_eq
  exact Grid.areWallsInRange_of_le (by omega) (by omega)

theorem SlowStep.isCompact {s t : Simulation K} (hs : s.IsCompact) (h : SlowStep s t) :
    t.IsCompact := by
  cases h with
  | substep h _ =>
    obtain rfl := eq_of_substep? hs.resolution_le h
    exact ⟨hs.toIsCoherent.substep, by simpa only [resolution_substep] using hs.resolution_le⟩
  | setParams h hfits =>
    have ht := IsCoherent.setParams? h
    exact ⟨ht, by rwa [ht.resolution_eq]⟩
  | setGravity gravity => exact ⟨hs.toIsCoherent.setGravity gravity, hs.resolution_le⟩
  | repair h =>
    obtain rfl := eq_of_repair? h
    exact ⟨hs.toIsCoherent.modifyParticles _, hs.resolution_le⟩

theorem SlowStep.isInside {s t : Simulation K} (hs : s.IsCompact) (h : SlowStep s t) {i : ℕ}
    {p : Particle K} (hp : s.particles[i]? = some p) (hin : p.IsInside) :
    ∃ q, t.particles[i]? = some q ∧ q.IsInside := by
  cases h with
  | substep h hslow =>
    obtain rfl := eq_of_substep? hs.resolution_le h
    exact exists_getElem?_substep hs.toIsCoherent hslow hp hin
  | setParams h _ =>
    unfold Simulation.setParams? at h
    split_ifs at h
    obtain ⟨-, rfl⟩ := setParams_eq_ok_iff.mp (Option.some.inj h)
    exact ⟨p, hp, hin⟩
  | setGravity gravity => exact ⟨p, hp, hin⟩
  | repair h =>
    obtain rfl := eq_of_repair? h
    exact Population.exists_getElem?_repair hp hin

/-- The tank holds its particles as long as the nodes are slow, and no substep stops. -/
theorem isInside_of_slowSteps {s t : Simulation K} (hv : s.params.validate? = some (.ok ()))
    (hr : s.grid.resolution = s.params.resolution) (hfits : s.params.resolution ^ 3 ≤ 2 ^ 31)
    (h : Relation.ReflTransGen SlowStep s t) :
    (∀ (i : ℕ) (p : Particle K), s.particles[i]? = some p → p.IsInside →
      ∃ q, t.particles[i]? = some q ∧ q.IsInside) ∧
    ∃ u, t.substep? = some u := by
  suffices ht : t.IsCompact ∧ ∀ (i : ℕ) (p : Particle K), s.particles[i]? = some p → p.IsInside →
      ∃ q, t.particles[i]? = some q ∧ q.IsInside from ⟨ht.2, _, ht.1.substep?_eq⟩
  -- A compact state has walls and nodes in words, and each step of the run keeps it so.
  induction h with
  | refl =>
    exact ⟨isCompact_of_valid (s.params.validate?_eq_ok_iff.mp hv) hr hfits,
      fun _ p hp hin => ⟨p, hp, hin⟩⟩
  | tail _ hstep ih =>
    refine ⟨hstep.isCompact ih.1, fun i p hp hin => ?_⟩
    obtain ⟨q, hq, hqin⟩ := ih.2 i p hp hin
    exact hstep.isInside ih.1 hq hqin

theorem isInside_drift :
    let s := (Drift.simulation 2).setGravity 0
    ∃ t u, s.substep? = some t ∧ t.repair? = some u ∧
      (∃ q, u.particles[0]? = some q ∧ q.IsInside) ∧ ∃ v, u.substep? = some v := by
  intro s
  have hv : s.params.validate? = some (.ok ()) := by decide +kernel
  have hs : s.IsCompact :=
    isCompact_of_valid (s.params.validate?_eq_ok_iff.mp hv) rfl (by decide)
  have hrepair := s.substep.repair?_eq_some
  obtain ⟨hinside, hsubstep⟩ := isInside_of_slowSteps hv rfl (by decide)
    (.tail (.single (.substep hs.substep?_eq (by decide +kernel))) (.repair hrepair))
  exact ⟨_, _, hs.substep?_eq, hrepair, hinside 0 _ rfl (by decide +kernel), hsubstep⟩

/-- On a lattice with too many nodes a substep can stop, and no particle comes out of it. -/
theorem not_isInside_tall :
    let s := Tall.simulation
    s.params.validate? = some (.ok ()) ∧ s.grid.resolution = s.params.resolution ∧
      2 ≤ s.params.wallWidth ∧ 0 < s.params.particleMass ∧ (∀ p ∈ s.particles, p.IsInside) ∧
      ¬∃ t, s.substep? = some t ∧ ∀ p ∈ t.particles, p.IsInside := by
  refine ⟨Tall.validate?_params, rfl, by decide, Tall.particleMass_pos, by decide +kernel, ?_⟩
  rintro ⟨t, ht, -⟩
  rw [Tall.substep?_eq_none] at ht
  cases ht

end Simulation
end MaterialPoint
