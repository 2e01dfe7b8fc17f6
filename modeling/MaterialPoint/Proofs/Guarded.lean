import MaterialPoint.Proofs.Commands
import MaterialPoint.Proofs.Divisors
import MaterialPoint.Proofs.Drift
import MaterialPoint.Proofs.Kernel
import MaterialPoint.Proofs.Lattice

/-! Arithmetic that never loses sight of a division by zero. Valid runs in it are the exact ones. -/
namespace MaterialPoint

section Maps
variable {R S : Type} (f : R → S)

def Bounds.map (b : Bounds R) : Bounds S := ⟨b.lo.map f, b.hi.map f⟩

def Svd.map (d : Svd R) : Svd S := ⟨d.u.map f, d.sigma.map f, d.v.map f⟩

def Neighbor.map (n : Neighbor R) : Neighbor S := ⟨n.coord, f n.weight, n.offset.map f⟩

def Stencil.map (s : Stencil R) : Stencil S where
  base := s.base
  phase := s.phase.map f
  weights := ⟨s.weights.first.map f, s.weights.second.map f, s.weights.third.map f⟩
  cellSize := f s.cellSize

def Response.map (r : Response R) : Response S :=
  ⟨r.stress.map f, r.deformation.map f, f r.plasticity⟩

def Deposit.map (d : Deposit R) : Deposit S := ⟨d.coord, f d.mass, d.momentum.map f⟩

def Motion.map (m : Motion R) : Motion S := ⟨m.velocity.map f, m.affine.map f⟩

def Node.map (n : Node R) : Node S := ⟨f n.mass, n.velocity.map f⟩

def Particle.map (p : Particle R) : Particle S where
  position := p.position.map f
  velocity := p.velocity.map f
  affine := p.affine.map f
  deformation := p.deformation.map f
  plasticity := f p.plasticity
  material := p.material
  color := p.color.map f

@[simp] theorem Particle.position_map (p : Particle R) :
    (p.map f).position = p.position.map f := rfl

def Grid.map (g : Grid R) : Grid S where
  resolution := g.resolution
  nodes := g.nodes.map (Node.map f)
  size_nodes := by rw [Array.size_map, g.size_nodes]

namespace Grid

theorem node?_map (g : Grid R) (c : Coord) : (g.map f).node? c = (g.node? c).map (Node.map f) := by
  have hindex : (g.map f).index? c = g.index? c := rfl
  unfold node?
  rw [hindex, Option.map_bind]
  simp only [map, Array.getElem?_map, Function.comp_def]

theorem modify_map (g : Grid R) (c : Coord) {h : Node R → Node R} {h' : Node S → Node S}
    (hh : ∀ n, h' (n.map f) = (h n).map f) :
    ((g.map f).modify c h').1 = (g.modify c h).1.map f := by
  have hindex : (g.map f).index? c = g.index? c := rfl
  unfold modify
  rw [hindex]
  cases g.index? c with
  | none => rfl
  | some i =>
    refine Grid.ext rfl (Array.ext_getElem? fun j => ?_)
    simp only [map, modifyAt, Array.getElem?_modify, Array.getElem?_map]
    split_ifs
    · simp only [Option.map_map, Function.comp_def, hh]
    · rfl

theorem mapNodes_map (g : Grid R) {h : ℕ → Node R → Node R} {h' : ℕ → Node S → Node S}
    (hh : ∀ i n, h' i (n.map f) = (h i n).map f) :
    (g.map f).mapNodes h' = (g.mapNodes h).map f := by
  refine Grid.ext rfl (Array.ext_getElem? fun i => ?_)
  simp only [mapNodes, map, Array.getElem?_mapIdx, Array.getElem?_map, Option.map_map,
    Function.comp_def, hh]

end Grid

def Params.map (p : Params R) : Params S where
  resolution := p.resolution
  budget := p.budget
  timeStep := f p.timeStep
  substepsPerFrame := p.substepsPerFrame
  gravity := f p.gravity
  wallWidth := p.wallWidth
  youngsModulus := f p.youngsModulus
  poissonRatio := f p.poissonRatio
  density := f p.density
  repairs := p.repairs

def Simulation.map (s : Simulation R) : Simulation S where
  particles := List.map (Particle.map f) s.particles
  grid := s.grid.map f
  params := s.params.map f
  substeps := s.substeps

end Maps

/-- Exact numbers, and what is left of them after a division by zero. -/
inductive Guarded (K : Type) where
  | number (x : K)
  | undefined
  deriving DecidableEq, Repr

namespace Guarded
open scoped Exact

variable {K : Type} [Field K] [LinearOrder K]

def lift (f : K → K) : Guarded K → Guarded K
  | number x => number (f x)
  | undefined => undefined

def lift₂ (f : K → K → K) : Guarded K → Guarded K → Guarded K
  | number x, number y => number (f x y)
  | _, _ => undefined

def div : Guarded K → Guarded K → Guarded K
  | number x, number y => if y = 0 then undefined else number (x / y)
  | _, _ => undefined

/-- What is undefined compares with nothing. -/
def Compares (r : K → K → Prop) : Guarded K → Guarded K → Prop
  | number x, number y => r x y
  | _, _ => False

instance (r : K → K → Prop) [DecidableRel r] : DecidableRel (Compares r)
  | number x, number y => inferInstanceAs (Decidable (r x y))
  | number _, undefined => .isFalse id
  | undefined, _ => .isFalse id

variable [FloorRing K]

instance : Scalar (Guarded K) where
  zero := number 0
  one := number 1
  add := lift₂ (· + ·)
  sub := lift₂ (· - ·)
  mul := lift₂ (· * ·)
  div := div
  neg := lift (- ·)
  natCast n := number n
  intCast i := number i
  ofScientific m s e := number (OfScientific.ofScientific m s e)
  lt := Compares (· < ·)
  le := Compares (· ≤ ·)
  beq a b := decide (Compares (· = ·) a b)
  decidableLT _ _ := inferInstanceAs (Decidable (Compares (· < ·) _ _))
  decidableLE _ _ := inferInstanceAs (Decidable (Compares (· ≤ ·) _ _))
  isFinite
    | number _ => true
    | undefined => false
  isNaN
    | number _ => false
    | undefined => true
  floorInt
    | number x => Int.floor x
    | undefined => 0
  floorNat
    | number x => Nat.floor x
    | undefined => 0

theorem number_div {x y : K} (hy : y ≠ 0) : number x / number y = number (x / y) := if_neg hy

example : number (1 : ℚ) / number 0 * number 0 = undefined := by decide

def value : Guarded K → K
  | number x => x
  | undefined => 0

instance [Exponential K] : Exponential (Guarded K) := ⟨lift Exponential.exp⟩

/-- A matrix with an entry that is not defined decomposes into nothing that is. -/
instance [SingularValues K] : SingularValues (Guarded K) where
  decompose? f :=
    if f.isFinite then (SingularValues.decompose? (f.map value)).map (Svd.map number)
    else
      let nothing : Vec3 (Guarded K) := Vec3.splat undefined
      some ⟨⟨nothing, nothing, nothing⟩, nothing, ⟨nothing, nothing, nothing⟩⟩

theorem decompose?_map_number [SingularValues K] (f : Mat3 K) :
    SingularValues.decompose? (f.map number) =
      (SingularValues.decompose? f).map (Svd.map number) := if_pos rfl

end Guarded

open scoped Exact
open Guarded (number undefined)

variable {K : Type} [Field K] [LinearOrder K] [IsStrictOrderedRing K] [FloorRing K]

theorem Guarded.reciprocal_number (x : K) :
    Scalar.reciprocal (number x) = number (Scalar.reciprocal x) := by
  have hzero : (number x == 0) = (x == 0) := rfl
  unfold Scalar.reciprocal
  rw [hzero]
  split
  next => rfl
  next h => exact number_div fun h0 => h (decide_eq_true h0)

theorem Vec3.map_number_div (v : Vec3 K) {a : K} (ha : a ≠ 0) :
    v.map number / number a = (v / a).map number :=
  Vec3.ext (Guarded.number_div ha) (Guarded.number_div ha) (Guarded.number_div ha)

namespace Params
variable {p : Params K}

theorem mu_map_number (hp : p.Valid) : (p.map number).mu = number p.mu := by
  refine Guarded.number_div ?_
  have h := hp.one_add_poissonRatio_pos
  positivity

theorem lambda_map_number (hp : p.Valid) : (p.map number).lambda = number p.lambda := by
  refine Guarded.number_div (mul_pos hp.one_add_poissonRatio_pos ?_).ne'
  have h := hp.one_sub_poissonRatio_pos
  norm_num
  linarith

theorem cellSize_map_number (hp : p.Valid) : (p.map number).cellSize = number p.cellSize :=
  Guarded.number_div (Nat.cast_ne_zero.mpr hp.resolution_pos.ne')

theorem particleVolume_map_number (hp : p.Valid) :
    (p.map number).particleVolume = number p.particleVolume := by
  unfold particleVolume
  rw [cellSize_map_number hp]
  rfl

theorem particleMass_map_number (hp : p.Valid) :
    (p.map number).particleMass = number p.particleMass := by
  unfold particleMass
  rw [particleVolume_map_number hp]
  rfl

end Params

namespace Stencil

theorem inverseMoment_map_number {dx : K} (h : dx ≠ 0) :
    inverseMoment (number dx) = number (inverseMoment dx) :=
  Guarded.number_div (mul_ne_zero h h)

theorem around_map_number (x : Vec3 K) {dx : K} (h : dx ≠ 0) :
    around (x.map number) (number dx) = (around x dx).map number := by
  unfold around
  rw [x.map_number_div h]
  rfl

theorem neighbor_map_number (s : Stencil K) (i j k : Fin 3) :
    (s.map number).neighbor i j k = (s.neighbor i j k).map number := by
  have hget (i : Fin 3) : (s.map number).weights.get i = (s.weights.get i).map number := by
    match i with
    | 0 => rfl
    | 1 => rfl
    | 2 => rfl
  unfold neighbor
  rw [hget, hget, hget]
  rfl

theorem neighbors_map_number (s : Stencil K) :
    (s.map number).neighbors = s.neighbors.map (Neighbor.map number) := by
  rw [neighbors, neighbors, List.map_map]
  exact List.map_congr_left fun ijk _ => s.neighbor_map_number ..

end Stencil

namespace Snow

theorem yield_map_number (sigma : Vec3 K) :
    yield (sigma.map number) = (yield sigma).map number := by
  have hleast (a b : K) : Scalar.least (number a) (number b) = number (Scalar.least a b) :=
    (apply_ite number _ _ _).symm
  have hgreatest (a b : K) :
      Scalar.greatest (number a) (number b) = number (Scalar.greatest a b) :=
    (apply_ite number _ _ _).symm
  have hvalue (s : K) : Scalar.least (Scalar.greatest (number s) leastStretch) greatestStretch =
      number (yieldValue s) := by
    rw [yieldValue, ← hleast, ← hgreatest]
    rfl
  exact Vec3.ext (hvalue _) (hvalue _) (hvalue _)

theorem plasticRatio_map_number (sigma : Vec3 K) :
    plasticRatio (sigma.map number) ((yield sigma).map number) =
      number (plasticRatio sigma (yield sigma)) := by
  have hdiv (s : K) : number s / number (yieldValue s) = number (s / yieldValue s) :=
    Guarded.number_div (yieldValue_pos s).ne'
  have hratios : (sigma.map number).zipWith (· / ·) ((yield sigma).map number) =
      (sigma.zipWith (· / ·) (yield sigma)).map number :=
    Vec3.ext (hdiv _) (hdiv _) (hdiv _)
  rw [plasticRatio, hratios]
  rfl

end Snow

namespace Material
variable [Exponential K]

theorem respondTo_map_number (m : Material) (d : Svd K) (f : Mat3 K) (p mu lambda : K) :
    m.respondTo (d.map number) (f.map number) (number p) (number mu) (number lambda) =
      (m.respondTo d f p mu lambda).map number := by
  cases m with
  | water => rfl
  | jelly => rfl
  | snow =>
    simp only [respondTo]
    rw [Svd.map, Snow.yield_map_number, Snow.plasticRatio_map_number]
    rfl

theorem respond_map_number [SingularValues K] (m : Material) (f : Mat3 K) (p mu lambda : K) :
    m.respond (f.map number) (number p) (number mu) (number lambda) =
      (m.respond f p mu lambda).map number := by
  unfold respond
  rw [Guarded.decompose?_map_number]
  cases SingularValues.decompose? f with
  | none => rfl
  | some d => exact m.respondTo_map_number ..

end Material

namespace Grid
variable {g : Grid K}

theorem cellSize_map_number (hg : 0 < g.resolution) : (g.map number).cellSize = number g.cellSize :=
  Guarded.number_div (Nat.cast_ne_zero.mpr hg.ne')

theorem contains_map_number (hg : 0 < g.resolution) (x : Vec3 K) :
    (g.map number).contains (x.map number) = g.contains x := by
  unfold contains
  rw [cellSize_map_number hg]
  rfl

theorem empty_map_number (resolution : ℕ) :
    (empty resolution : Grid K).map number = empty resolution :=
  Grid.ext rfl Array.map_replicate

theorem deposit_map_number (g : Grid K) (d : Deposit K) :
    (g.map number).deposit (d.map number) = (g.deposit d).map number :=
  modify_map number g d.coord fun _ => rfl

theorem foldl_deposit_map_number (g : Grid K) (ds : List (Deposit K)) :
    (ds.map (Deposit.map number)).foldl deposit (g.map number) =
      (ds.foldl deposit g).map number := by
  rw [List.foldl_map]
  exact List.foldl_hom _ fun g d => g.deposit_map_number d

theorem settleNode_map_number (gravity timeStep : K) (width resolution : ℤ) (c : Coord)
    (n : Node K) :
    settleNode (number gravity) (number timeStep) width resolution c (n.map number) =
      (settleNode gravity timeStep width resolution c n).map number := by
  have hstop (i : ℤ) (v : K) : stopAtWall width resolution i (number v) =
      number (stopAtWall width resolution i v) := (apply_ite number _ _ _).symm
  have hmass : (n.map number).mass ≤ 0 ↔ n.mass ≤ 0 := Iff.rfl
  unfold settleNode
  by_cases h : n.mass ≤ 0
  · rw [if_pos h, if_pos (hmass.mpr h)]
  · rw [if_neg h, if_neg (mt hmass.mp h)]
    have hvelocity : Scalar.reciprocal (n.map number).mass • (n.map number).velocity =
        (Scalar.reciprocal n.mass • n.velocity).map number := by
      rw [show (n.map number).mass = number n.mass from rfl, Guarded.reciprocal_number]
      rfl
    rw [hvelocity]
    exact Node.ext rfl (Vec3.ext (hstop _ _) (hstop _ _) (hstop _ _))

theorem settle_map_number (g : Grid K) (gravity timeStep : K) (wallWidth : ℕ) :
    (g.map number).settle (number gravity) (number timeStep) wallWidth =
      (g.settle gravity timeStep wallWidth).map number :=
  mapNodes_map number g fun _ _ => settleNode_map_number ..

theorem motionAt_map_number (hg : 0 < g.resolution) (x : Vec3 K) :
    (g.map number).motionAt (x.map number) = (g.motionAt x).map number := by
  have hdx := (Grid.cellSize_pos hg).ne'
  unfold motionAt
  rw [cellSize_map_number hg, Stencil.inverseMoment_map_number hdx,
    Stencil.around_map_number x hdx, Stencil.neighbors_map_number, List.foldl_map]
  have hstart : (⟨0, 0⟩ : Motion (Guarded K)) = (⟨0, 0⟩ : Motion K).map number := rfl
  rw [hstart]
  refine List.foldl_hom (Motion.map number) fun motion n => ?_
  rw [Neighbor.map, node?_map]
  cases g.node? n.coord with
  | none => rfl
  | some node => rfl

end Grid

namespace Particle

theorem gather_map_number (p : Particle K) {g : Grid K} (hg : 0 < g.resolution) (timeStep : K) :
    (p.map number).gather (number timeStep) (g.map number) = (p.gather timeStep g).map number := by
  unfold gather
  rw [position_map, Grid.contains_map_number hg, Grid.motionAt_map_number hg]
  split
  · rfl
  · rfl

theorem deposits_map_number (p : Particle K) {dx : K} (hdx : dx ≠ 0) (mass : K)
    (momentum : Vec3 K) (slope : Mat3 K) :
    (p.map number).deposits (number mass) (number dx) (momentum.map number) (slope.map number) =
      (p.deposits mass dx momentum slope).map (Deposit.map number) := by
  unfold deposits
  rw [position_map, Stencil.around_map_number p.position hdx, Stencil.neighbors_map_number,
    List.map_map, List.map_map]
  rfl

theorem repair_map_number (b : Bounds K) (p : Particle K) :
    (p.map number).repair (b.map number) = (p.repair b).map number := by
  have hhealthy : (p.map number).isHealthy = p.isHealthy := rfl
  unfold repair
  rw [hhealthy]
  split
  · rfl
  · rfl

theorem momentumSlope_map_number {params : Params K} (hp : params.Valid) {dx : K} (hdx : dx ≠ 0)
    (stress : Mat3 K) (p : Particle K) :
    (p.map number).momentumSlope (params.map number) (number dx) (stress.map number) =
      (p.momentumSlope params dx stress).map number := by
  unfold momentumSlope stressScale
  rw [Params.particleMass_map_number hp, Params.particleVolume_map_number hp,
    Stencil.inverseMoment_map_number hdx]
  rfl

variable [Exponential K] [SingularValues K]

theorem response_map_number {params : Params K} (hp : params.Valid) (p : Particle K) :
    (p.map number).response (params.map number) = (p.response params).map number := by
  unfold response
  rw [Params.mu_map_number hp, Params.lambda_map_number hp]
  exact p.material.respond_map_number (p.trialDeformation params.timeStep) p.plasticity params.mu
    params.lambda

theorem scatter_map_number {params : Params K} (hp : params.Valid) {g : Grid K}
    (hg : 0 < g.resolution) (p : Particle K) :
    (p.map number).scatter (params.map number) (g.map number) =
      ⟨(p.scatter params g).particle.map number,
        (p.scatter params g).deposits.map (Deposit.map number)⟩ := by
  have hdx := (Grid.cellSize_pos hg).ne'
  have hmomentum : (number params.particleMass • (p.map number).velocity : Vec3 (Guarded K)) =
      (params.particleMass • p.velocity : Vec3 K).map number := rfl
  have hstress : ((p.response params).map number).stress =
      (p.response params).stress.map number := rfl
  unfold scatter
  rw [position_map, Grid.contains_map_number hg]
  split
  · dsimp only
    rw [response_map_number hp, Params.particleMass_map_number hp, Grid.cellSize_map_number hg,
      hmomentum, hstress, momentumSlope_map_number hp hdx, deposits_map_number p hdx]
    rfl
  · rfl

end Particle

theorem scatter_map_number [Exponential K] [SingularValues K] {params : Params K}
    (hp : params.Valid) {g : Grid K} (hg : 0 < g.resolution) (ps : Population K) :
    scatter (params.map number) (List.map (Particle.map number) ps) (g.map number) =
      (List.map (Particle.map number) (scatter params ps g).1,
        (scatter params ps g).2.map number) := by
  have hshare (p : Particle K) := p.scatter_map_number hp hg
  refine Prod.ext ?_ ?_
  · simp only [scatter, List.map_map, Function.comp_def, hshare]
  · rw [scatter_snd, scatter_snd, List.flatMap_map]
    simp only [hshare]
    rw [← List.map_flatMap, Grid.foldl_deposit_map_number]

theorem gather_map_number {params : Params K} {g : Grid K} (hg : 0 < g.resolution)
    (ps : Population K) :
    gather (params.map number) (g.map number) (List.map (Particle.map number) ps) =
      List.map (Particle.map number) (gather params g ps) := by
  unfold gather
  rw [List.map_map, List.map_map]
  exact List.map_congr_left fun p _ => p.gather_map_number hg _

namespace Simulation
variable {s : Simulation K}

theorem repair_map_number (hp : s.params.Valid) : (s.map number).repair = s.repair.map number := by
  have hinterior : interior (s.map number).params = (interior s.params).map number := by
    have hdx : (s.map number).params.cellSize = number s.params.cellSize :=
      Params.cellSize_map_number hp
    unfold interior
    rw [hdx]
    rfl
  have hparticles : Population.repair ((interior s.params).map number)
      (List.map (Particle.map number) s.particles) =
        List.map (Particle.map number) (Population.repair (interior s.params) s.particles) := by
    unfold Population.repair
    rw [List.map_map, List.map_map]
    exact List.map_congr_left fun p _ => p.repair_map_number _
  unfold repair modifyParticles
  rw [hinterior]
  exact Simulation.ext hparticles rfl rfl rfl

variable [Exponential K] [SingularValues K]

theorem transfer_map_number (hp : s.params.Valid) (hg : 0 < s.grid.resolution) :
    (s.map number).transfer = s.transfer.map number := by
  have hreset : (s.map number).grid.reset = s.grid.reset.map number :=
    (Grid.empty_map_number s.grid.resolution).symm
  have hscatter := scatter_map_number hp (g := s.grid.reset) hg s.particles
  rw [← hreset] at hscatter
  have hgrid : (s.map number).transfer.grid = s.transfer.grid.map number := by
    change (scatter (s.params.map number) (List.map (Particle.map number) s.particles)
      (s.map number).grid.reset).2.settle (number s.params.gravity) (number s.params.timeStep)
        s.params.wallWidth = _
    rw [hscatter]
    exact Grid.settle_map_number ..
  have hparticles :
      (s.map number).transfer.particles = List.map (Particle.map number) s.transfer.particles := by
    change gather (s.params.map number) (s.map number).transfer.grid (scatter (s.params.map number)
      (List.map (Particle.map number) s.particles) (s.map number).grid.reset).1 = _
    rw [hgrid, hscatter]
    refine gather_map_number ?_ _
    rwa [resolution_transfer]
  exact Simulation.ext hparticles hgrid rfl rfl

theorem substep_map_number (hp : s.params.Valid) (hg : 0 < s.grid.resolution) :
    (s.map number).substep = s.substep.map number := by
  have hrepairs : (s.transfer.map number).params.repairs = s.transfer.params.repairs := rfl
  unfold substep
  rw [transfer_map_number hp hg]
  dsimp only
  rw [hrepairs]
  split
  · rw [repair_map_number (s := s.transfer) hp]
    rfl
  · rfl

theorem repeat_substep_map_number (hp : s.params.Valid) (hs : s.IsMatched) (count : ℕ) :
    Nat.repeat substep count (s.map number) = (Nat.repeat substep count s).map number := by
  induction count with
  | zero => rfl
  | succ count ih =>
    have hparams : (Nat.repeat substep count s).params = s.params := params_repeat_substep s count
    have hresolution : 0 < (Nat.repeat substep count s).grid.resolution := by
      rw [hs.repeat_substep count, hparams]
      exact hp.resolution_pos
    rw [Nat.repeat, Nat.repeat, ih, substep_map_number (by rwa [hparams]) hresolution]

/-- The nodes with mass have their momentum divided by it, and the others stay. -/
theorem node?_transfer_of_scatter (s : Simulation K) {c : Coord} {n : Node K}
    (hn : (scatter s.params s.particles s.grid.reset).2.node? c = some n) :
    n.mass ≤ 0 ∧ s.transfer.grid.node? c = some n ∨
      0 < n.mass ∧ s.transfer.grid.node? c = some ⟨n.mass,
        c.zipWith (Grid.stopAtWall (Word.signed s.params.wallWidth) s.grid.resolution)
          ((1 / n.mass) • n.velocity - ⟨0, s.params.gravity * s.params.timeStep, 0⟩)⟩ := by
  have hresolution : (scatter s.params s.particles s.grid.reset).2.resolution = s.grid.resolution :=
    resolution_scatter ..
  have hsettled : s.transfer.grid.node? c = some (Grid.settleNode s.params.gravity
      s.params.timeStep (Word.signed s.params.wallWidth) s.grid.resolution c n) := by
    change ((scatter s.params s.particles s.grid.reset).2.settle _ _ _).node? c = _
    rw [Grid.node?_settle, hn, hresolution]
    rfl
  rw [hsettled]
  obtain ⟨hmass, hnode⟩ | ⟨hmass, hnode⟩ := Grid.settleNode_eq s.params.gravity s.params.timeStep
    (Word.signed s.params.wallWidth) s.grid.resolution c n
  · exact .inl ⟨hmass, congrArg some hnode⟩
  · exact .inr ⟨hmass, congrArg some hnode⟩

/-- Under valid parameters no substep divides by zero, whatever the particles are and however
deformations decompose. -/
theorem no_division_by_zero (s : Simulation K) (hv : s.params.validate = .ok ())
    (hs : s.IsMatched) :
    let p := s.params
    let dx := s.grid.cellSize
    let scattered := (scatter p s.particles s.grid.reset).2
    (0 < 2 * (1 + p.poissonRatio) ∧ p.mu = p.youngsModulus / (2 * (1 + p.poissonRatio)) ∧
      0 < (1 + p.poissonRatio) * (1 - 2 * p.poissonRatio) ∧
      p.lambda = p.youngsModulus * p.poissonRatio /
        ((1 + p.poissonRatio) * (1 - 2 * p.poissonRatio)) ∧ 0 < p.mu ∧
      p.lambda + 2 * p.mu / 3 = p.youngsModulus / (3 * (1 - 2 * p.poissonRatio)) ∧
      0 < p.lambda + 2 * p.mu / 3) ∧
    (0 < s.grid.resolution ∧ dx = p.cellSize ∧ 0 < dx ∧ 0 < p.particleVolume ∧
      0 < p.particleMass ∧ 0 < dx * dx ∧ dx * dx / 4 * Stencil.inverseMoment dx = 1) ∧
    (∀ c n, scattered.node? c = some n →
      n.mass ≤ 0 ∧ s.transfer.grid.node? c = some n ∨
      0 < n.mass ∧ s.transfer.grid.node? c = some ⟨n.mass,
        c.zipWith (Grid.stopAtWall (Word.signed p.wallWidth) s.grid.resolution)
          ((1 / n.mass) • n.velocity - ⟨0, p.gravity * p.timeStep, 0⟩)⟩) ∧
    (0 < (Snow.leastStretch : K) ∧ ∀ sigma : Vec3 K, Snow.leastStretch ≤ (Snow.yield sigma).x ∧
      Snow.leastStretch ≤ (Snow.yield sigma).y ∧ Snow.leastStretch ≤ (Snow.yield sigma).z) ∧
    ∀ count, Nat.repeat substep count (s.map number) = (Nat.repeat substep count s).map number := by
  intro p dx scattered
  have hp : p.Valid := p.validate_eq_ok_iff.mp hv
  have hshear := hp.one_add_poissonRatio_pos
  have hvolume := hp.one_sub_poissonRatio_pos
  have hresolution : 0 < s.grid.resolution := by
    rw [hs]
    exact hp.resolution_pos
  have hdx : dx = p.cellSize := by rw [Params.cellSize, ← hs, ← Grid.cellSize]
  have hdx_pos : 0 < dx := Grid.cellSize_pos hresolution
  refine ⟨⟨by positivity, Elastic.shearModulus_eq _ _, by positivity, Elastic.lambda_eq _ _,
    hp.mu_pos, hp.bulk_eq, hp.bulk_pos⟩, ⟨hresolution, hdx, hdx_pos, hp.particleVolume_pos,
    Params.particleMass_pos hp, by positivity, Stencil.mul_inverseMoment hdx_pos.ne'⟩,
    fun c n hn => s.node?_transfer_of_scatter hn,
    ⟨Snow.leastStretch_pos, Snow.leastStretch_le_yield⟩, repeat_substep_map_number hp hs⟩

open scoped Drift in
/-- Snow that is crushed to a line and has no plasticity left. -/
theorem no_division_by_zero_crushed :
    let p : Particle ℚ := { Drift.particle (7 / 16) (-1 / 8) .snow with
      deformation := Mat3.diagonal ⟨1, 0, 0⟩, plasticity := 0 }
    let s : Simulation ℚ := { Drift.simulation 1 with particles := [p] }
    p.deformation.det = 0 ∧ s.params.validate = .ok () ∧ s.IsMatched ∧ 0 < s.params.mu ∧
      Nat.repeat substep 2 (s.map number) = (Nat.repeat substep 2 s).map number ∧
      (s.substep.particles.map fun p => (p.deformation, p.plasticity)) =
        [(Mat3.diagonal ⟨1, 0.975, 0.975⟩, 0)] := by
  intro p s
  have hv : s.params.validate = .ok () := (Params.validate_eq_ok_iff _).mpr (by decide +kernel)
  have hs : s.IsMatched := rfl
  obtain ⟨⟨-, -, -, -, hmu, -⟩, -, -, -, hrun⟩ := no_division_by_zero s hv hs
  refine ⟨by decide +kernel, hv, hs, hmu, hrun 2, ?_⟩
  decide +kernel

end Simulation
end MaterialPoint
