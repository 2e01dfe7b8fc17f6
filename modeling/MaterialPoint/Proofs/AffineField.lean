import MaterialPoint.Proofs.Drift
import MaterialPoint.Proofs.Overflow

/-! Both transfers keep velocities that change linearly with position. -/
namespace MaterialPoint
open scoped Exact Drift

variable {K : Type} [Field K] [LinearOrder K] [IsStrictOrderedRing K] [FloorRing K]

/-- A velocity that changes linearly with position. -/
@[ext] structure AffineField (K : Type) where
  /-- The velocity at the origin. -/
  start : Vec3 K
  gradient : Mat3 K

namespace AffineField

def velocity (f : AffineField K) (x : Vec3 K) : Vec3 K := f.start + f.gradient.apply x

theorem velocity_add (f : AffineField K) (x d : Vec3 K) :
    f.velocity (x + d) = f.velocity x + f.gradient.apply d := by
  rw [velocity, velocity, Mat3.apply_add, add_assoc]

end AffineField

namespace Grid

def Carries (g : Grid K) (f : AffineField K) (p : Vec3 K) : Prop :=
  ∀ n ∈ (Stencil.around p g.cellSize).neighbors,
    (g.node? n.coord).map (·.velocity) = some (f.velocity (g.cellSize • Vec3.ofInt n.coord))

instance (g : Grid K) (f : AffineField K) (p : Vec3 K) : Decidable (g.Carries f p) :=
  List.decidableBAll _ _

theorem Carries.holds {g : Grid K} {f : AffineField K} {p : Vec3 K} (h : g.Carries f p) :
    g.Holds p := by
  intro n hn
  obtain ⟨node, hnode, -⟩ := Option.map_eq_some_iff.mp (h n hn)
  exact (g.isSome_node?_iff n.coord).mp (by rw [hnode]; rfl)

theorem motionAt_of_carries {g : Grid K} {f : AffineField K} {p : Vec3 K} (h : g.Carries f p) :
    g.motionAt p = ⟨f.velocity p, f.gradient⟩ := by
  have hdx := cellSize_ne_zero h.holds.contains
  refine motionAt_of_linear hdx fun n hn => ?_
  rw [velocityAt, h n hn, Option.getD_some, Stencil.cellSize_smul_coord p hdx hn, f.velocity_add]

theorem mass_settleNode (gravity timeStep : K) (width resolution : ℤ) (c : Coord) (node : Node K) :
    (settleNode gravity timeStep width resolution c node).mass = node.mass := by
  unfold settleNode
  split_ifs <;> rfl

theorem velocity_settleNode {g : Grid K} {c : Coord} (h : (g.index? c).isSome) {node : Node K}
    {v : Vec3 K} (hmass : 0 < node.mass) (hv : node.velocity = node.mass • v) (timeStep : K) :
    (settleNode 0 timeStep (Word.signed (0 : ℕ)) g.resolution c node).velocity = v := by
  have hcarried : IsCarried node.mass node.velocity :=
    ⟨hmass.le, fun h0 => absurd h0 hmass.ne'⟩
  have hpull : (⟨0, -(0 * timeStep), 0⟩ : Vec3 K) = 0 := by
    rw [zero_mul, neg_zero, Vec3.zero_def]
  have hsettled : node.mass •
      (settleNode 0 timeStep (Word.signed (0 : ℕ)) g.resolution c node).velocity =
        node.mass • v := by
    rw [mass_smul_settleNode hcarried fun _ => isClear_zero h, hpull, smul_zero, add_zero, hv]
  exact smul_right_injective (Vec3 K) hmass.ne' hsettled

end Grid

theorem Particle.gather_of_carries {g : Grid K} {f : AffineField K} {p : Particle K}
    (h : g.Carries f p.position) (timeStep : K) :
    p.gather timeStep g = { p with
      velocity := f.velocity p.position
      affine := f.gradient
      position := p.position + timeStep • f.velocity p.position } := by
  rw [gather, if_pos h.holds.contains, Grid.motionAt_of_carries h, carry]

/-- Deposits that move with a velocity at every node load the node with that velocity. -/
theorem Deposit.velocity_load {ds : List (Deposit K)} {v : Coord → Vec3 K}
    (h : ∀ d ∈ ds, d.momentum = d.mass • v d.coord) (c : Coord) :
    (load ds c).velocity = (load ds c).mass • v c := by
  rw [load, sumAt_congr h, sumAt_smul]

def Particle.Follows (f : AffineField K) (p : Particle K) : Prop :=
  p.velocity = f.velocity p.position ∧ p.affine = f.gradient

instance (f : AffineField K) (p : Particle K) : Decidable (p.Follows f) :=
  inferInstanceAs (Decidable (_ ∧ _))

section Particles

variable [Exponential K] [SingularValues K] {f : AffineField K} {params : Params K}
  {ps : Population K} {g : Grid K}

theorem Particle.momentum_of_follows {p : Particle K} (hg : g.contains p.position = true)
    (hp : p.Follows f) (hstress : (p.response params).stress = 0) {d : Deposit K}
    (hd : d ∈ (p.scatter params g).deposits) :
    d.momentum = d.mass • f.velocity (g.cellSize • Vec3.ofInt d.coord) := by
  have hslope : p.momentumSlope params g.cellSize (p.response params).stress =
      params.particleMass • f.gradient := by
    rw [momentumSlope, hstress, hp.2, smul_zero, zero_add]
  rw [deposits_scatter hg, hslope, hp.1] at hd
  obtain ⟨n, hn, rfl⟩ := List.mem_map.mp hd
  dsimp only
  rw [Stencil.cellSize_smul_coord p.position (Grid.cellSize_ne_zero hg) hn, f.velocity_add,
    Mat3.smul_apply, ← smul_add, smul_smul]

/-- Unstressed particles that follow a field leave nodes that move with it. -/
theorem velocity_settle_scatter (hgravity : params.gravity = 0) (hwalls : params.wallWidth = 0)
    (hps : ∀ p ∈ ps, g.Holds p.position ∧ p.Follows f ∧ (p.response params).stress = 0)
    {c : Coord} {node : Node K}
    (hnode : ((scatter params ps g.reset).2.settle params.gravity params.timeStep
      params.wallWidth).node? c = some node) (hmass : 0 < node.mass) :
    node.velocity = f.velocity (g.cellSize • Vec3.ofInt c) := by
  have hc : (g.index? c).isSome := by
    have hsome := (Grid.isSome_node?_iff _ c).mp (by rw [hnode]; rfl)
    rwa [Grid.index?_congr ((Grid.resolution_settle ..).trans (resolution_scatter ..))] at hsome
  rw [hgravity, hwalls, Grid.node?_settle, node?_scatter_reset params ps hc, Option.map_some,
    Option.some.injEq] at hnode
  subst hnode
  have hload : ∀ d ∈ ps.flatMap fun p => (p.scatter params g).deposits,
      d.momentum = d.mass • f.velocity (g.cellSize • Vec3.ofInt d.coord) := fun d hd => by
    obtain ⟨p, hp, hd⟩ := List.mem_flatMap.mp hd
    obtain ⟨hholds, hfollows, hstress⟩ := hps p hp
    exact Particle.momentum_of_follows hholds.contains hfollows hstress hd
  rw [resolution_scatter] at hmass ⊢
  rw [Grid.mass_settleNode] at hmass
  have hvelocity := Deposit.velocity_load
    (v := fun c => f.velocity (g.cellSize • Vec3.ofInt c)) hload c
  exact Grid.velocity_settleNode hc hmass hvelocity params.timeStep

/-- Between nodes that move with a field, particles get its value and gradient, and particles give
it to nodes. -/
theorem transfers_keep_affineField (f : AffineField K) (params : Params K) (ps : Population K)
    (g : Grid K) :
    (∀ (i : ℕ) (p : Particle K), ps[i]? = some p → g.Carries f p.position →
      (gather params g ps)[i]? = some { p with
        velocity := f.velocity p.position
        affine := f.gradient
        position := p.position + params.timeStep • f.velocity p.position }) ∧
    (params.gravity = 0 → params.wallWidth = 0 →
      (∀ p ∈ ps, g.Holds p.position ∧ p.Follows f ∧ (p.response params).stress = 0) →
      ∀ (c : Coord) (node : Node K),
        ((scatter params ps g.reset).2.settle params.gravity params.timeStep
          params.wallWidth).node? c = some node → 0 < node.mass →
        node.velocity = f.velocity (g.cellSize • Vec3.ofInt c)) := by
  refine ⟨fun i p hi hcarries => ?_, fun hgravity hwalls hps c node hnode hmass => ?_⟩
  · rw [gather, List.getElem?_map, hi, Option.map_some, p.gather_of_carries hcarries]
  · exact velocity_settle_scatter hgravity hwalls hps hnode hmass

/-- Where all nodes have numbers, neither transfer stops, and both keep an affine field. -/
theorem transfers?_keep_affineField (hfits : g.resolution ^ 3 ≤ 2 ^ 31) (f : AffineField K)
    (params : Params K) (ps : Population K) :
    (∃ qs, gather? params g ps = some qs ∧
      ∀ (i : ℕ) (p : Particle K), ps[i]? = some p → g.Carries f p.position →
        qs[i]? = some { p with
          velocity := f.velocity p.position
          affine := f.gradient
          position := p.position + params.timeStep • f.velocity p.position }) ∧
    (params.gravity = 0 → params.wallWidth = 0 →
      (∀ p ∈ ps, g.Holds p.position ∧ p.Follows f ∧ (p.response params).stress = 0) →
      ∃ qs loaded settled, scatter? params ps g.reset = some (qs, loaded) ∧
        loaded.settle? params.gravity params.timeStep params.wallWidth = some settled ∧
        ∀ (c : Coord) (node : Node K), settled.node? c = some node → 0 < node.mass →
          node.velocity = f.velocity (g.cellSize • Vec3.ofInt c)) := by
  obtain ⟨hgather, hscatter⟩ := transfers_keep_affineField f params ps g
  refine ⟨⟨_, gather?_of_fits hfits params ps, hgather⟩, fun hgravity hwalls hps => ?_⟩
  have hn := Grid.resolution_lt hfits
  have hr : (scatter params ps g.reset).2.resolution = g.resolution := resolution_scatter ..
  have hrange : Grid.areWallsInRange (scatter params ps g.reset).2.resolution params.wallWidth =
      true := by
    rw [hr, hwalls]
    exact Grid.areWallsInRange_of_le (by omega) (Nat.zero_le _)
  exact ⟨_, _, _, scatter?_of_fits (g := g.reset) hfits params ps,
    Grid.settle?_eq_some (by rwa [hr]) hrange .., hscatter hgravity hwalls hps⟩

end Particles

namespace Shear

def field : AffineField ℚ := ⟨⟨1 / 8, 0, 0⟩, ⟨0, ⟨1, 0, 0⟩, 0⟩⟩

def setting : Params ℚ :=
  { Params.ofResolution 4 with timeStep := 1 / 100, gravity := 0, wallWidth := 0 }

/-- Its deformation is undone by the next substep, at the end of which it is not stressed. -/
def particle (position : Vec3 ℚ) : Particle ℚ :=
  { Particle.atRest position .jelly with
    velocity := field.velocity position
    affine := field.gradient
    deformation := 1 - (1 / 100 : ℚ) • field.gradient }

/-- Two particles between the same nodes. -/
def particles : Population ℚ :=
  [particle ⟨15 / 32, 15 / 32, 15 / 32⟩, particle ⟨17 / 32, 1 / 2, 15 / 32⟩]

def settled : Grid ℚ :=
  (scatter setting particles (Grid.empty 4).reset).2.settle setting.gravity setting.timeStep
    setting.wallWidth

theorem transfers?_keep_shear :
    (∃ qs loaded, scatter? setting particles (Grid.empty 4).reset = some (qs, loaded) ∧
      ∃ settled, loaded.settle? setting.gravity setting.timeStep setting.wallWidth = some settled ∧
        ∃ node, settled.node? ⟨2, 3, 1⟩ = some node ∧ 0 < node.mass ∧
          node.velocity = ⟨1 / 8 + 3 / 4, 0, 0⟩) ∧
    ∃ rs, gather? setting settled particles = some rs ∧ ∀ (i : ℕ) (p : Particle ℚ),
      particles[i]? = some p →
        rs[i]? = some { p with position := p.position + (1 / 100 : ℚ) • p.velocity } := by
  have hfits : (Grid.empty (R := ℚ) 4).resolution ^ 3 ≤ 2 ^ 31 := by decide
  have hps : ∀ p ∈ particles, (Grid.empty (R := ℚ) 4).Holds p.position ∧ p.Follows field ∧
      (p.response setting).stress = 0 := by decide +kernel
  obtain ⟨-, hnodes⟩ := transfers?_keep_affineField hfits field setting particles
  obtain ⟨qs, loaded, t, hscatter, hsettle, hnodes⟩ := hnodes rfl rfl hps
  have hloaded : loaded = (scatter setting particles (Grid.empty 4).reset).2 := by
    rw [scatter?_of_fits (g := (Grid.empty 4).reset) hfits] at hscatter
    exact (congrArg Prod.snd (Option.some.inj hscatter)).symm
  obtain rfl : t = settled := by
    rw [hloaded] at hsettle
    exact Grid.settle_of_settle? (by decide +kernel) hsettle
  obtain ⟨⟨rs, hgather, hrs⟩, -⟩ :=
    transfers?_keep_affineField (g := settled) (by decide +kernel) field setting particles
  have hcarries : ∀ p ∈ particles, settled.Carries field p.position := by decide +kernel
  have hfollows : ∀ p ∈ particles, p.Follows field := fun p hp => (hps p hp).2.1
  refine ⟨⟨qs, loaded, hscatter, settled, hsettle, ?_⟩, rs, hgather, fun i p hi => ?_⟩
  · have hsome : (settled.node? ⟨2, 3, 1⟩).isSome := by decide +kernel
    obtain ⟨node, hnode⟩ := Option.isSome_iff_exists.mp hsome
    have hmass : 0 < node.mass := by
      have hall : ∀ m ∈ settled.node? ⟨2, 3, 1⟩, 0 < m.mass := by decide +kernel
      exact hall node hnode
    refine ⟨node, hnode, hmass, ?_⟩
    rw [hnodes ⟨2, 3, 1⟩ node hnode hmass]
    decide +kernel
  · have hp := List.mem_of_getElem? hi
    obtain ⟨hv, ha⟩ := hfollows p hp
    rw [hrs i p hi (hcarries p hp), ← hv, ← ha]
    rfl

end Shear

/-- On a lattice with too many nodes the way back can stop, also when nothing moves. -/
theorem not_transfers?_keep_affineField_tall :
    let g := Tall.simulation.grid
    let f : AffineField ℚ := ⟨0, 0⟩
    g.Carries f Tall.particle.position ∧
      ¬∃ qs, gather? Tall.simulation.params g [Tall.particle] = some qs ∧
        qs[0]? = some { Tall.particle with
          velocity := f.velocity Tall.particle.position
          affine := f.gradient
          position := Tall.particle.position +
            Tall.simulation.params.timeStep • f.velocity Tall.particle.position } := by
  intro g f
  have hholds : g.Holds Tall.particle.position := fun n hn => (Tall.surrounds_particle n hn).1
  have hrest (x : Vec3 ℚ) : f.velocity x = 0 := by
    rw [AffineField.velocity, Mat3.zero_apply, add_zero]
  refine ⟨fun n hn => ?_, ?_⟩
  · have hnode : g.node? n.coord = some 0 := Grid.node?_reset g n.coord (hholds n hn)
    rw [hnode, hrest]
    rfl
  · rintro ⟨qs, h, -⟩
    rw [Tall.gather?_eq_none rfl] at h
    cases h

end MaterialPoint
