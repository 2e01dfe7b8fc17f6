import MaterialPoint.Proofs.Words
import MaterialPoint.Simulation.Words

/-! A substep that does not stop is the substep over the integers. In numbered lattices none
stops. -/
namespace MaterialPoint

section Arithmetic
variable {R : Type} [Scalar R]

namespace Grid
variable {g h : Grid R} {gravity timeStep : R} {wallWidth : ℕ}

theorem resolution_of_settle? (hs : g.settle? gravity timeStep wallWidth = some h) :
    h.resolution = g.resolution := by
  rw [settle?, mapNodes?] at hs
  split_ifs at hs
  obtain rfl := Option.some.inj hs
  rfl

theorem settle_of_settle? (hfits : g.resolution ^ 3 ≤ 2 ^ 31)
    (hs : g.settle? gravity timeStep wallWidth = some h) :
    h = g.settle gravity timeStep wallWidth := by
  refine Option.some.inj (hs.symm.trans ?_)
  by_cases hmass : ∀ (i : ℕ) (node : Node R), g.nodes[i]? = some node → node.mass ≤ 0
  · have hn := resolution_lt hfits
    exact settle?_eq (by omega) (fun i node hi => .inl (hmass i node hi)) ..
  · obtain ⟨i, hmass⟩ := not_forall.mp hmass
    obtain ⟨node, hmass⟩ := not_forall.mp hmass
    obtain ⟨hi, hmass⟩ := Classical.not_imp.mp hmass
    cases hw : areWallsInRange g.resolution wallWidth with
    | true => exact settle?_eq_some hfits hw ..
    | false =>
      rw [settle?_eq_none hfits hw hi hmass] at hs
      cases hs

end Grid

namespace Simulation

theorem eq_of_repair? {s t : Simulation R} (h : s.repair? = some t) : t = s.repair := by
  obtain ⟨⟨ps, found⟩, hps, rfl⟩ := Option.map_eq_some_iff.mp h
  rw [Population.repair?, Option.ite_none_right_eq_some] at hps
  obtain ⟨rfl, -⟩ := Prod.mk.inj (Option.some.inj hps.2)
  rfl

theorem eq_of_mend? {s t : Simulation R} (h : s.mend? = some t) :
    t = if s.params.repairs then s.repair else s := by
  rw [mend?] at h
  split_ifs at h ⊢
  · exact eq_of_repair? h
  · exact (Option.some.inj h).symm

variable [Exponential R] [SingularValues R] {s t : Simulation R}

theorem resolution_of_scatter? {params : Params R} {ps qs : Population R} {g h : Grid R}
    (hs : MaterialPoint.scatter? params ps g = some (qs, h)) : h.resolution = g.resolution := by
  obtain ⟨shares, -, hs⟩ := Option.bind_eq_some_iff.mp hs
  obtain ⟨k, hk, hs⟩ := Option.bind_eq_some_iff.mp hs
  obtain ⟨-, rfl⟩ := Prod.mk.inj (Option.some.inj hs)
  exact foldlM_induction (·.resolution = g.resolution)
    (fun _ _ _ hr hds => (Grid.resolution_of_foldlM_deposit? hds).trans hr) rfl hk

theorem frame_of_transfer? (h : s.transfer? = some t) : t.params = s.params ∧
    t.grid.resolution = s.grid.resolution ∧ t.substeps = s.substeps := by
  obtain ⟨⟨ps, g⟩, hscatter, h⟩ := Option.bind_eq_some_iff.mp h
  obtain ⟨g', hsettle, h⟩ := Option.bind_eq_some_iff.mp h
  obtain ⟨qs, -, h⟩ := Option.bind_eq_some_iff.mp h
  obtain rfl := Option.some.inj h
  refine ⟨rfl, ?_, rfl⟩
  exact (Grid.resolution_of_settle? hsettle).trans
    ((resolution_of_scatter? hscatter).trans s.grid.resolution_reset)

/-- A substep takes place on the same lattice, under the same parameters, and is counted. -/
theorem frame_of_substep? (h : s.substep? = some t) : t.params = s.params ∧
    t.grid.resolution = s.grid.resolution ∧ t.substeps = s.substeps + 1 := by
  obtain ⟨u, htransfer, h⟩ := Option.bind_eq_some_iff.mp h
  obtain ⟨v, hrepair, h⟩ := Option.bind_eq_some_iff.mp h
  obtain rfl := Option.some.inj h
  obtain ⟨hparams, hresolution, hsubsteps⟩ := frame_of_transfer? htransfer
  have hv : v.params = u.params ∧ v.grid = u.grid ∧ v.substeps = u.substeps := by
    obtain rfl := eq_of_mend? hrepair
    split_ifs
    · exact ⟨rfl, rfl, rfl⟩
    · exact ⟨rfl, rfl, rfl⟩
  exact ⟨hv.1.trans hparams, by rw [hv.2.1, hresolution], by rw [hv.2.2, hsubsteps]⟩

theorem frame_of_substeps? {k : ℕ} (h : s.substeps? k = some t) : t.params = s.params ∧
    t.grid.resolution = s.grid.resolution ∧ t.substeps = s.substeps + k := by
  induction k generalizing t with
  | zero =>
    obtain rfl := Option.some.inj h
    exact ⟨rfl, rfl, rfl⟩
  | succ k ih =>
    obtain ⟨u, hu, ht⟩ := Option.bind_eq_some_iff.mp h
    obtain ⟨hparams, hresolution, hsubsteps⟩ := ih hu
    obtain ⟨hparams', hresolution', hsubsteps'⟩ := frame_of_substep? ht
    exact ⟨hparams'.trans hparams, hresolution'.trans hresolution, by omega⟩

section Fits
variable (hfits : s.grid.resolution ^ 3 ≤ 2 ^ 31)
include hfits

theorem eq_of_transfer? (h : s.transfer? = some t) : t = s.transfer := by
  obtain ⟨⟨ps, g⟩, hscatter, h⟩ := Option.bind_eq_some_iff.mp h
  obtain ⟨g', hsettle, h⟩ := Option.bind_eq_some_iff.mp h
  obtain ⟨qs, hgather, h⟩ := Option.bind_eq_some_iff.mp h
  obtain rfl := Option.some.inj h
  have hg := resolution_of_scatter? hscatter
  have hg' := Grid.resolution_of_settle? hsettle
  rw [Grid.resolution_reset] at hg
  rw [scatter?_eq (g := s.grid.reset) (Population.isNumbered_of_fits hfits _)] at hscatter
  rw [gather?_eq (Population.isNumbered_of_fits (by rwa [hg', hg]) _)] at hgather
  split_ifs at hscatter hgather
  obtain rfl := Grid.settle_of_settle? (by rwa [hg]) hsettle
  obtain rfl := Option.some.inj hgather
  rw [transfer, Option.some.inj hscatter]

theorem eq_of_substep? (h : s.substep? = some t) : t = s.substep := by
  obtain ⟨u, htransfer, h⟩ := Option.bind_eq_some_iff.mp h
  obtain ⟨v, hrepair, h⟩ := Option.bind_eq_some_iff.mp h
  obtain rfl := Option.some.inj h
  obtain rfl := eq_of_transfer? hfits htransfer
  obtain rfl := eq_of_mend? hrepair
  rfl

theorem eq_of_substeps? {k : ℕ} (h : s.substeps? k = some t) : t = Nat.repeat substep k s := by
  induction k generalizing t with
  | zero => exact (Option.some.inj h).symm
  | succ k ih =>
    obtain ⟨u, hu, ht⟩ := Option.bind_eq_some_iff.mp h
    have hresolution := (frame_of_substeps? hu).2.1
    rw [eq_of_substep? (by rwa [hresolution]) ht, ih hu]
    rfl

end Fits
end Simulation
end Arithmetic

section Exact
open scoped Exact
variable {K : Type} [Field K] [LinearOrder K] [IsStrictOrderedRing K] [FloorRing K]

namespace Simulation

theorem repair?_eq_some (s : Simulation K) : s.repair? = some s.repair := by
  rw [repair?, Population.repair?, if_pos]
  · rfl
  · refine List.all_eq_true.mpr fun p _ => ?_
    rw [Bool.or_eq_true]
    exact .inr rfl

theorem mend?_eq_some (s : Simulation K) :
    s.mend? = some (if s.params.repairs then s.repair else s) := by
  rw [mend?, repair?_eq_some]
  cases s.params.repairs <;> rfl

variable [Exponential K] [SingularValues K] {s : Simulation K}

theorem substep?_of_transfer? (h : s.transfer? = some s.transfer) :
    s.substep? = some s.substep := by
  rw [substep?, h]
  refine Option.bind_eq_some_iff.mpr ⟨_, rfl, ?_⟩
  exact Option.bind_eq_some_iff.mpr ⟨_, s.transfer.mend?_eq_some, rfl⟩

/-- The lattice after the scatter of a substep. -/
def loaded (s : Simulation K) : Grid K := (scatter s.params s.particles s.grid.reset).2

@[simp] theorem resolution_loaded (s : Simulation K) :
    s.loaded.resolution = s.grid.resolution := resolution_scatter ..

/-- A substep meets only nodes that have numbers, and finds the walls where it looks for them. -/
structure FitsWords (s : Simulation K) : Prop where
  resolution_lt : s.grid.resolution + 1 < 2 ^ 31
  numbered : s.particles.IsNumbered s.grid
  walls (i : ℕ) (node : Node K) : s.loaded.nodes[i]? = some node → node.mass ≤ 0 ∨
    Grid.wallCoordInWords? s.grid.resolution i = some (Grid.wallCoord s.grid.resolution i) ∧
      Grid.areWallsInRange s.grid.resolution s.params.wallWidth = true

theorem FitsWords.transfer?_eq (h : s.FitsWords) : s.transfer? = some s.transfer := by
  have hn := h.resolution_lt
  have hscatter := scatter?_eq_some (g := s.grid.reset) hn h.numbered s.params
  have hsettle : s.loaded.settle? s.params.gravity s.params.timeStep s.params.wallWidth =
      some s.transfer.grid :=
    Grid.settle?_eq (by rw [resolution_loaded]; omega) (by rw [resolution_loaded]; exact h.walls) ..
  have hpositions : (scatter s.params s.particles s.grid.reset).1.IsNumbered s.transfer.grid := by
    intro q hq
    obtain ⟨share, hshare, rfl⟩ := List.mem_map.mp hq
    obtain ⟨p, hp, rfl⟩ := List.mem_map.mp hshare
    rw [Particle.position_scatter]
    exact (Population.isNumbered_congr s.resolution_transfer s.particles).mpr h.numbered p hp
  have hgather := gather?_eq_some (by rwa [resolution_transfer]) hpositions s.params
  refine Option.bind_eq_some_iff.mpr ⟨_, hscatter, ?_⟩
  refine Option.bind_eq_some_iff.mpr ⟨_, hsettle, ?_⟩
  exact Option.bind_eq_some_iff.mpr ⟨_, hgather, rfl⟩

theorem FitsWords.substep?_eq (h : s.FitsWords) : s.substep? = some s.substep :=
  substep?_of_transfer? h.transfer?_eq

/-- Particles leave mass on a node. -/
def Loads (s : Simulation K) : Prop :=
  ∃ (i : ℕ) (node : Node K), s.loaded.nodes[i]? = some node ∧ 0 < node.mass

theorem not_loads_of_isEmpty (h : s.particles = []) : ¬s.Loads := by
  rintro ⟨i, node, hi, hmass⟩
  rw [loaded, h] at hi
  obtain ⟨hlt, rfl⟩ := Array.getElem?_eq_some_iff.mp hi
  exact hmass.ne (congrArg Node.mass (Array.getElem_replicate hlt)).symm

section Fits
variable (hfits : s.grid.resolution ^ 3 ≤ 2 ^ 31)
include hfits

theorem fitsWords_of_walls
    (hw : Grid.areWallsInRange s.grid.resolution s.params.wallWidth = true ∨ ¬s.Loads) :
    s.FitsWords where
  resolution_lt := by
    have hn := Grid.resolution_lt hfits
    omega
  numbered := Population.isNumbered_of_fits hfits _
  walls i node hi := by
    have hcoord := Grid.wallCoordInWords?_of_getElem? (by rwa [resolution_loaded]) hi
    rw [resolution_loaded] at hcoord
    rcases hw with hw | hloads
    · exact .inr ⟨hcoord, hw⟩
    · exact .inl (not_lt.mp fun hmass => hloads ⟨i, node, hi, hmass⟩)

/-- Walls that begin beyond the words stop a substep that looks for them. -/
theorem substep?_eq_none_of_walls
    (hw : Grid.areWallsInRange s.grid.resolution s.params.wallWidth = false) (h : s.Loads) :
    s.substep? = none := by
  obtain ⟨i, node, hi, hmass⟩ := h
  have hsettle : s.loaded.settle? s.params.gravity s.params.timeStep s.params.wallWidth = none :=
    Grid.settle?_eq_none (by rwa [resolution_loaded]) (by simpa only [resolution_loaded] using hw)
      hi hmass.not_ge ..
  have htransfer : s.transfer? = none := by
    refine Option.bind_eq_none_iff.mpr fun loaded hloaded => ?_
    rw [scatter?_of_fits (g := s.grid.reset) hfits] at hloaded
    obtain rfl := Option.some.inj hloaded
    exact Option.bind_eq_none_iff.mpr fun _ h => absurd (hsettle.symm.trans h) (by simp)
  rw [substep?, htransfer]
  rfl

end Fits

theorem substeps?_eq_some {k : ℕ} (h : ∀ j < k, ∀ t, s.substeps? j = some t → t.FitsWords) :
    s.substeps? k = some (Nat.repeat substep k s) := by
  induction k with
  | zero => rfl
  | succ k ih =>
    have hk := ih fun j hj => h j (hj.trans k.lt_succ_self)
    rw [substeps?, hk, Option.bind_some, (h k k.lt_succ_self _ hk).substep?_eq]
    rfl

/-- Walls that begin at words let every substep of a run end. -/
theorem substeps?_of_walls (hfits : s.grid.resolution ^ 3 ≤ 2 ^ 31)
    (hw : Grid.areWallsInRange s.grid.resolution s.params.wallWidth = true) (k : ℕ) :
    s.substeps? k = some (Nat.repeat substep k s) := by
  refine substeps?_eq_some fun j _ t ht => ?_
  obtain ⟨hparams, hresolution, -⟩ := frame_of_substeps? ht
  have hwt : Grid.areWallsInRange t.grid.resolution t.params.wallWidth = true := by
    simpa only [hresolution, hparams] using hw
  exact fitsWords_of_walls (by rwa [hresolution]) (.inl hwt)

end Simulation
end Exact
end MaterialPoint
