import MaterialPoint.Proofs.Health
import MaterialPoint.Proofs.Lattice
import MaterialPoint.Proofs.Sums

/-! Particles that have left the domain are frozen and invisible, in any arithmetic. -/
namespace MaterialPoint
variable {R : Type} [Scalar R]

/-- A particle whose position is not in the domain of a lattice, or is not finite. -/
def Particle.HasEscaped (g : Grid R) (p : Particle R) : Prop := g.contains p.position = false

namespace Particle
variable {g h : Grid R} {p : Particle R}

theorem hasEscaped_congr (hr : g.resolution = h.resolution) : HasEscaped g = HasEscaped h := by
  funext p
  rw [HasEscaped, HasEscaped, Grid.contains_congr hr]

theorem HasEscaped.gather (hp : p.HasEscaped g) (timeStep : R) : p.gather timeStep g = p :=
  if_neg (Bool.eq_false_iff.mp hp)

theorem HasEscaped.filter_eraseIdx {ps : Population R} {i : ℕ} (hp : p.HasEscaped g)
    (hi : ps[i]? = some p) :
    (ps.eraseIdx i).filter (g.contains ·.position) = ps.filter (g.contains ·.position) := by
  obtain ⟨hlt, rfl⟩ := List.getElem?_eq_some_iff.mp hi
  have hps : ps.take i ++ ps[i] :: ps.drop (i + 1) = ps := by
    rw [← List.drop_eq_getElem_cons hlt, List.take_append_drop]
  have hout : ¬g.contains ps[i].position = true := Bool.eq_false_iff.mp hp
  conv_rhs => rw [← hps]
  rw [List.eraseIdx_eq_take_drop_succ, List.filter_append, List.filter_append,
    List.filter_cons, if_neg hout]

variable [Exponential R] [SingularValues R]

theorem HasEscaped.scatter (hp : p.HasEscaped g) (params : Params R) :
    p.scatter params g = ⟨p, []⟩ :=
  if_neg (Bool.eq_false_iff.mp hp)

end Particle

variable [Exponential R] [SingularValues R]

def exchange (params : Params R) (ps : Population R) (g : Grid R) : Population R × Grid R :=
  let (ps, g) := scatter params ps g
  let g := g.settle params.gravity params.timeStep params.wallWidth
  (gather params g ps, g)

theorem Simulation.transfer_eq_exchange (s : Simulation R) :
    s.transfer = { s with
      particles := (exchange s.params s.particles s.grid.reset).1
      grid := (exchange s.params s.particles s.grid.reset).2 } := rfl

section Exchange
variable {params : Params R} {ps qs : Population R} {g : Grid R}

@[simp] theorem resolution_exchange (params : Params R) (ps : Population R) (g : Grid R) :
    (exchange params ps g).2.resolution = g.resolution := resolution_scatter ..

theorem exchange_fst (params : Params R) (ps : Population R) (g : Grid R) :
    (exchange params ps g).1 = ps.map fun p =>
      (p.scatter params g).particle.gather params.timeStep (exchange params ps g).2 := by
  simp only [exchange, gather, scatter, List.map_map]
  rfl

theorem scatter_snd_congr
    (h : ps.filter (g.contains ·.position) = qs.filter (g.contains ·.position)) :
    (scatter params ps g).2 = (scatter params qs g).2 := by
  have hvisible (ps : Population R) :
      ((ps.filter (g.contains ·.position)).flatMap fun p => (p.scatter params g).deposits) =
        ps.flatMap fun p => (p.scatter params g).deposits :=
    flatMap_filter_of_nil fun p _ hp => by rw [Particle.HasEscaped.scatter hp]
  rw [scatter_snd, scatter_snd, ← hvisible ps, ← hvisible qs, h]

theorem exchange_snd_congr
    (h : ps.filter (g.contains ·.position) = qs.filter (g.contains ·.position)) :
    (exchange params ps g).2 = (exchange params qs g).2 := by
  simp only [exchange, scatter_snd_congr h]

end Exchange

namespace Simulation
variable {s : Simulation R} {i : ℕ} {p : Particle R}

theorem transfer_eraseIdx (hi : s.particles[i]? = some p) (hp : p.HasEscaped s.grid) :
    (s.modifyParticles (·.eraseIdx i)).transfer = s.transfer.modifyParticles (·.eraseIdx i) := by
  have hp : p.HasEscaped s.grid.reset := hp
  have hgrid : (exchange s.params (s.particles.eraseIdx i) s.grid.reset).2 =
      (exchange s.params s.particles s.grid.reset).2 := exchange_snd_congr (hp.filter_eraseIdx hi)
  simp only [transfer_eq_exchange, modifyParticles, exchange_fst, hgrid, List.eraseIdx_map]

theorem particles_transfer_of_hasEscaped (hi : s.particles[i]? = some p)
    (hp : p.HasEscaped s.grid) : s.transfer.particles[i]? = some p := by
  have hg : p.HasEscaped s.transfer.grid := by
    rwa [Particle.hasEscaped_congr s.resolution_transfer]
  rw [getElem?_transfer hi, hp.scatter, hg.gather]

/-- Without a particle that has escaped a substep is the same for all others. -/
theorem substep_eraseIdx (hi : s.particles[i]? = some p) (hp : p.HasEscaped s.grid) :
    (s.modifyParticles (·.eraseIdx i)).substep = s.substep.modifyParticles (·.eraseIdx i) := by
  have h := transfer_eraseIdx hi hp
  have hparticles : (s.modifyParticles (·.eraseIdx i)).substep.particles =
      s.substep.particles.eraseIdx i := by
    cases hr : s.params.repairs with
    | false =>
      rw [particles_substep hr, particles_substep (s := s.modifyParticles _) hr, h]
      rfl
    | true =>
      rw [particles_substep_of_repairs hr,
        particles_substep_of_repairs (s := s.modifyParticles _) hr, h]
      exact (List.eraseIdx_map ..).symm
  refine Simulation.ext hparticles ?_ ?_ ?_
  · rw [grid_substep, h]
    exact (grid_substep s).symm
  · rw [params_substep]
    exact (params_substep s).symm
  · rw [substeps_substep]
    exact (substeps_substep s).symm

theorem particles_substep_of_hasEscaped (hi : s.particles[i]? = some p) (hp : p.HasEscaped s.grid)
    (hhealthy : s.params.repairs = true → p.isHealthy = true) :
    s.substep.particles[i]? = some p :=
  getElem?_substep_of_isHealthy (particles_transfer_of_hasEscaped hi hp) hhealthy

/-- A healthy particle that has escaped stays as it is, and the others do not feel it. -/
theorem repeat_substep_of_hasEscaped (hi : s.particles[i]? = some p) (hp : p.HasEscaped s.grid)
    (hhealthy : s.params.repairs = true → p.isHealthy = true) (k : ℕ) :
    (Nat.repeat substep k s).particles[i]? = some p ∧
      Nat.repeat substep k (s.modifyParticles (·.eraseIdx i)) =
        (Nat.repeat substep k s).modifyParticles (·.eraseIdx i) := by
  suffices h : (Nat.repeat substep k s).particles[i]? = some p ∧
      (Nat.repeat substep k s).grid.resolution = s.grid.resolution ∧
      Nat.repeat substep k (s.modifyParticles (·.eraseIdx i)) =
        (Nat.repeat substep k s).modifyParticles (·.eraseIdx i) from ⟨h.1, h.2.2⟩
  induction k with
  | zero => exact ⟨hi, rfl, rfl⟩
  | succ k ih =>
    obtain ⟨hk, hr, herase⟩ := ih
    have hpk : p.HasEscaped (Nat.repeat substep k s).grid := by
      rwa [Particle.hasEscaped_congr hr]
    rw [Nat.repeat, Nat.repeat]
    refine ⟨particles_substep_of_hasEscaped hk hpk ?_, ?_, ?_⟩
    · rwa [params_repeat_substep]
    · rw [resolution_substep, hr]
    · rw [herase, substep_eraseIdx hk hpk]

/-- Particles that have escaped never change, and everything else is as it would be without them. -/
theorem hasEscaped_frozen_invisible (s : Simulation R) :
    let scattered := scatter s.params s.particles s.grid
    let settled := scattered.2.settle s.params.gravity s.params.timeStep s.params.wallWidth
    let gathered := gather s.params settled scattered.1
    let inside := s.particles.filter (s.grid.contains ·.position)
    let alone := scatter s.params inside s.grid
    let settledAlone := alone.2.settle s.params.gravity s.params.timeStep s.params.wallWidth
    (∀ (i : ℕ) (p : Particle R), s.particles[i]? = some p → p.HasEscaped s.grid →
      scattered.1[i]? = some p ∧ gathered[i]? = some p) ∧
    alone.2 = scattered.2 ∧ settledAlone = settled ∧
    gather s.params settledAlone alone.1 = ((s.particles.zip gathered).filter
      fun before_after => s.grid.contains before_after.1.position).map Prod.snd ∧
    (∀ p : Particle R, settled.contains (p.scatter s.params s.grid).particle.position =
      s.grid.contains p.position) ∧
    ∀ (i : ℕ) (p : Particle R), s.particles[i]? = some p → p.HasEscaped s.grid →
      (s.params.repairs = true → p.isHealthy = true) → ∀ k,
        (Nat.repeat substep k s).particles[i]? = some p ∧
        Nat.repeat substep k (s.modifyParticles (·.eraseIdx i)) =
          (Nat.repeat substep k s).modifyParticles (·.eraseIdx i) := by
  intro scattered settled gathered inside alone settledAlone
  have hr : settled.resolution = s.grid.resolution := resolution_exchange ..
  have hinside : inside.filter (s.grid.contains ·.position) =
      s.particles.filter (s.grid.contains ·.position) := by simp [inside]
  have hsettled : settledAlone = settled := exchange_snd_congr hinside
  have hgathered : gathered = s.particles.map fun p =>
      (p.scatter s.params s.grid).particle.gather s.params.timeStep settled := exchange_fst ..
  have halone : gather s.params settledAlone alone.1 = inside.map fun p =>
      (p.scatter s.params s.grid).particle.gather s.params.timeStep settledAlone :=
    exchange_fst ..
  refine ⟨fun i p hi hp => ⟨?_, ?_⟩, scatter_snd_congr hinside, hsettled, ?_, fun p => ?_,
    fun i p hi hp hhealthy k => repeat_substep_of_hasEscaped hi hp hhealthy k⟩
  · have hscattered : scattered.1 = s.particles.map fun p =>
        (p.scatter s.params s.grid).particle := List.map_map
    rw [hscattered, List.getElem?_map, hi, Option.map_some, hp.scatter]
  · have hp' : p.HasEscaped settled := by rwa [Particle.hasEscaped_congr hr]
    rw [hgathered, List.getElem?_map, hi, Option.map_some, hp.scatter, hp'.gather]
  · rw [halone, hsettled, hgathered, ← List.map_prod_left_eq_zip, List.filter_map, List.map_map]
    rfl
  · rw [Particle.position_scatter, Grid.contains_congr hr]

end Simulation

namespace Wreck

def strayed : Particle (Extended ℚ) :=
  { Particle.atRest ⟨0.5, 1.5, 0.5⟩ .snow with velocity := ⟨0, 1, 0⟩ }

def nowhere : Particle (Extended ℚ) := Particle.atRest ⟨.nan, .infinite false, 0.5⟩ .jelly

def escape : Simulation (Extended ℚ) :=
  { simulation with particles := [Particle.atRest center .water, strayed, nowhere] }

end Wreck

open scoped Wreck

theorem Simulation.hasEscaped_frozen_invisible_wreck :
    let s := Wreck.escape
    let scattered := scatter s.params s.particles s.grid
    let settled := scattered.2.settle s.params.gravity s.params.timeStep s.params.wallWidth
    (gather s.params settled scattered.1)[2]? = some Wreck.nowhere ∧
      ∀ k, (Nat.repeat substep k s).particles[1]? = some Wreck.strayed ∧
        Nat.repeat substep k (s.modifyParticles (·.eraseIdx 1)) =
          (Nat.repeat substep k s).modifyParticles (·.eraseIdx 1) := by
  intro s scattered settled
  obtain ⟨hfrozen, -, -, -, -, hrun⟩ := hasEscaped_frozen_invisible s
  have hstrayed : s.grid.contains Wreck.strayed.position = false := by decide +kernel
  have hnowhere : s.grid.contains Wreck.nowhere.position = false := by decide +kernel
  exact ⟨(hfrozen 2 _ rfl hnowhere).2, hrun 1 _ rfl hstrayed fun _ => by decide +kernel⟩

end MaterialPoint
