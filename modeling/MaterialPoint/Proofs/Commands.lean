import MaterialPoint.Proofs.Checked
import MaterialPoint.Proofs.Coherence
import MaterialPoint.Proofs.Drift
import MaterialPoint.Proofs.Seeding

/-! Commands in any order. One that fails changes nothing, and the counter tells the substeps. -/
namespace MaterialPoint

theorem Operation.run_mapConst {R : Type} (x : Operation R Unit) (reply : Reply R)
    (s : Simulation R) : (Functor.mapConst reply x).run s = match x.run s with
      | .ok _ t => .ok reply t
      | .error fault t => .error fault t := by
  rw [LawfulFunctor.map_const, Function.comp_apply, EStateM.run_map]
  cases x.run s with
  | ok _ t => rfl
  | error fault t => rfl

section Operations
variable {R : Type} [Scalar R]

theorem Grid.mapNodes_zero (g : Grid R) : (g.mapNodes fun _ _ => 0) = g.reset := by
  refine Grid.ext rfl (Array.ext ?_ fun i _ _ => ?_)
  · simp [mapNodes, reset, empty, g.size_nodes]
  · simp [mapNodes, reset, empty]

namespace Operation

theorem run_seed [Generator R] (s : Simulation R) (schedule : Seeding.Schedule)
    (regions : List (Region R)) (number : UInt64) :
    (seed schedule regions number).run s = match s.seed schedule regions number with
      | .ok t => .ok t.particles.length t
      | .error fault => .error fault s := by
  rw [seed, Simulation.seed, EStateM.run_bind, EStateM.run_get]
  cases h : Seeding.sample schedule regions s.params.budget number with
  | error fault =>
    simp only [EStateM.run_bind, h]
    rfl
  | ok ps =>
    simp only [EStateM.run_bind, h]
    rfl

theorem run_setParams (s : Simulation R) (params : Params R) :
    (setParams params).run s = match s.setParams params with
      | .ok t => .ok () t
      | .error fault => .error fault s := by
  rw [setParams, Simulation.setParams, EStateM.run_bind]
  cases params.validate with
  | error fault => rfl
  | ok _ =>
    have hrun : (MonadExcept.ofExcept (.ok ()) : Operation R Unit).run s = .ok () s := rfl
    simp only [hrun, EStateM.run_bind, EStateM.run_get]
    by_cases hn : params.resolution = s.grid.resolution
    · simp only [hn, ne_eq, not_true_eq_false, if_false]
      rfl
    · simp only [hn, ne_eq, not_false_eq_true, if_true]
      rfl

variable [Exponential R] [SingularValues R]

theorem run_substep (s : Simulation R) : substep.run s = .ok () s.substep := by
  simp only [substep, EStateM.run_bind, EStateM.run_get, EStateM.run_modify, Grid.mapNodes_zero]
  rw [Simulation.substep, Simulation.transfer]
  cases s.params.repairs with
  | true => rfl
  | false => rfl

theorem run_repeatedly_substep (s : Simulation R) (count : ℕ) :
    (repeatedly substep count).run s = .ok () (Nat.repeat Simulation.substep count s) := by
  induction count with
  | zero => rfl
  | succ count ih =>
    rw [repeatedly, EStateM.run_bind, ih]
    exact run_substep _

theorem run_frame (s : Simulation R) : frame.run s = .ok () s.frame :=
  run_repeatedly_substep s s.params.substepsPerFrame

end Operation

namespace Simulation

section Commands
variable [Generator R] [Exponential R] [SingularValues R] (s : Simulation R)

theorem perform_seed (schedule : Seeding.Schedule) (regions : List (Region R)) (number : UInt64) :
    s.perform (.seed schedule regions number) = match s.seed schedule regions number with
      | .ok t => .ok (.count t.particles.length) t
      | .error fault => .error fault s := by
  rw [perform, Command.operation, EStateM.run_map, Operation.run_seed]
  cases s.seed schedule regions number with
  | error fault => rfl
  | ok t => rfl

theorem perform_setParams (params : Params R) :
    s.perform (.setParams params) = match s.setParams params with
      | .ok t => .ok .done t
      | .error fault => .error fault s := by
  rw [perform, Command.operation, Operation.run_mapConst, Operation.run_setParams]
  cases s.setParams params with
  | error fault => rfl
  | ok t => rfl

theorem perform_repair : s.perform .repair = .ok (.found s.instabilities) s.repair := rfl

theorem perform_substep : s.perform .substep = .ok .done s.substep := by
  rw [perform, Command.operation, Operation.run_mapConst, Operation.run_substep]

theorem perform_frame : s.perform .frame = .ok .done s.frame := by
  rw [perform, Command.operation, Operation.run_mapConst, Operation.run_frame]

end Commands

/-- The lattice has the resolution of the parameters. -/
def IsMatched (s : Simulation R) : Prop := s.grid.resolution = s.params.resolution

theorem isMatched_start {params : Params R} {s : Simulation R} (h : start params = .ok s) :
    s.IsMatched := by
  obtain ⟨-, rfl⟩ := start_eq_ok_iff.mp h
  rfl

theorem IsMatched.setParams {s t : Simulation R} {params : Params R}
    (h : s.setParams params = .ok t) : t.IsMatched := by
  obtain ⟨-, rfl⟩ := setParams_eq_ok_iff.mp h
  unfold IsMatched
  dsimp only
  split_ifs with hr
  · exact hr.symm
  · rfl

variable [Generator R] [Exponential R] [SingularValues R]

omit [Generator R] in
theorem IsMatched.repeat_substep {s : Simulation R} (h : s.IsMatched) (count : ℕ) :
    (Nat.repeat substep count s).IsMatched := by
  induction count with
  | zero => exact h
  | succ count ih =>
    unfold IsMatched
    rw [Nat.repeat, resolution_substep, params_substep]
    exact ih

theorem IsMatched.perform {s : Simulation R} (h : s.IsMatched) (c : Command R) :
    (s.perform c).state.IsMatched := by
  cases c with
  | seed schedule regions number =>
    rw [perform_seed]
    split
    next t hseed =>
      obtain ⟨ps, -, rfl⟩ := seed_eq_ok_iff.mp hseed
      exact h
    next => exact h
  | setParams params =>
    rw [perform_setParams]
    split
    next t hset => exact IsMatched.setParams hset
    next => exact h
  | setParticles particles => exact h
  | modifyParticles f => exact h
  | setGravity gravity => exact h
  | substep =>
    rw [perform_substep]
    exact h.repeat_substep 1
  | frame =>
    rw [perform_frame]
    exact h.repeat_substep _
  | repair => exact h

theorem IsMatched.run {s : Simulation R} (h : s.IsMatched) (commands : List (Command R)) :
    (s.run commands).IsMatched := by
  induction commands generalizing s with
  | nil => exact h
  | cons c commands ih => exact ih (h.perform c)

end Simulation

variable [Generator R] [Exponential R] [SingularValues R]

/-- A command, the simulation that it is given to, and what comes of it. -/
structure Moment (R : Type) where
  before : Simulation R
  command : Command R
  outcome : Simulation.Outcome R

namespace Moment

def substeps (m : Moment R) : ℕ :=
  match m.command with
  | .substep => 1
  | .frame => m.before.params.substepsPerFrame
  | _ => 0

end Moment

namespace Simulation

/-- What commands meet, each of them after the ones before it. -/
def history (s : Simulation R) : List (Command R) → List (Moment R)
  | [] => []
  | c :: commands => ⟨s, c, s.perform c⟩ :: (s.perform c).state.history commands

section Steps
variable {s t : Simulation R} {c : Command R} {outcome : Outcome R}

theorem perform_seed_of_perform? {schedule : Seeding.Schedule} {regions : List (Region R)}
    {number : UInt64} (h : s.perform? (.seed schedule regions number) = some outcome) :
    s.perform (.seed schedule regions number) = outcome := by
  rw [perform?] at h
  split_ifs at h
  exact Option.some.inj h

theorem perform_setParams_of_perform? {params : Params R}
    (h : s.perform? (.setParams params) = some outcome) :
    s.perform (.setParams params) = outcome := by
  rw [perform?] at h
  split_ifs at h
  exact Option.some.inj h

/-- What a command can do: run substeps, or come to the same as over the integers. -/
theorem perform?_cases (h : s.perform? c = some outcome) :
    s.perform c = outcome ∨
    ∃ t count, s.substeps? count = some t ∧ outcome = .ok .done t ∧
      (c = .substep ∧ count = 1 ∨ c = .frame ∧ count = s.params.substepsPerFrame) := by
  cases c with
  | seed schedule regions number => exact .inl (perform_seed_of_perform? h)
  | setParams params => exact .inl (perform_setParams_of_perform? h)
  | setParticles particles => exact .inl (Option.some.inj h)
  | modifyParticles f => exact .inl (Option.some.inj h)
  | setGravity gravity => exact .inl (Option.some.inj h)
  | substep =>
    obtain ⟨t, ht, rfl⟩ := Option.map_eq_some_iff.mp h
    exact .inr ⟨t, 1, ht, rfl, .inl ⟨rfl, rfl⟩⟩
  | frame =>
    obtain ⟨t, ht, rfl⟩ := Option.map_eq_some_iff.mp h
    exact .inr ⟨t, _, ht, rfl, .inr ⟨rfl, rfl⟩⟩
  | repair =>
    obtain ⟨t, ht, rfl⟩ := Option.map_eq_some_iff.mp h
    obtain rfl := eq_of_repair? ht
    exact .inl (perform_repair s)

theorem IsMatched.perform? (hs : s.IsMatched) (h : s.perform? c = some outcome) :
    outcome.state.IsMatched := by
  obtain rfl | ⟨t, count, ht, rfl, -⟩ := perform?_cases h
  · exact hs.perform c
  · obtain ⟨hparams, hresolution, -⟩ := frame_of_substeps? ht
    exact hresolution.trans (hs.trans (congrArg Params.resolution hparams).symm)

theorem run?_cons {commands : List (Command R)} : s.run? (c :: commands) = some t ↔
    ∃ outcome, s.perform? c = some outcome ∧ outcome.state.run? commands = some t := by
  rw [run?, List.foldlM_cons]
  change ((s.perform? c).map Outcome.state).bind (·.run? commands) = some t ↔ _
  rw [Option.bind_map, Option.bind_eq_some_iff]
  rfl

end Steps

theorem IsMatched.run? {s t : Simulation R} (hs : s.IsMatched) {commands : List (Command R)}
    (h : s.run? commands = some t) : t.IsMatched :=
  foldlM_induction IsMatched (fun u c v hu hv => by
    obtain ⟨outcome, hperform, rfl⟩ := Option.map_eq_some_iff.mp hv
    exact hu.perform? hperform) hs h

/-- A command that does not stop comes to the same over the integers. -/
theorem perform_of_perform? {s : Simulation R} (hfits : s.grid.resolution ^ 3 ≤ 2 ^ 31)
    {c : Command R} {outcome : Outcome R} (h : s.perform? c = some outcome) :
    s.perform c = outcome := by
  obtain h | ⟨t, count, ht, rfl, ⟨rfl, rfl⟩ | ⟨rfl, rfl⟩⟩ := perform?_cases h
  · exact h
  · rw [perform_substep, eq_of_substeps? hfits ht]
    rfl
  · rw [perform_frame, eq_of_substeps? hfits ht, frame]

end Simulation
end Operations

namespace Simulation
open scoped Exact

theorem exists_perform_seed {K : Type} [Field K] [LinearOrder K] [IsStrictOrderedRing K]
    [FloorRing K] [Generator K] [Exponential K] [SingularValues K] (s : Simulation K)
    (schedule : Seeding.Schedule) {regions : List (Region K)}
    (h : ∃ r ∈ regions, 0 < r.volume) (number : UInt64) : ∃ ps,
      s.perform (.seed schedule regions number) =
        .ok (.count s.params.budget) (s.setParticles ps) := by
  obtain ⟨ps, hps⟩ := Seeding.exists_sample_of_volume_pos schedule h s.params.budget number
  refine ⟨ps, ?_⟩
  rw [perform_seed, seed_eq_ok_iff.mpr ⟨ps, hps, rfl⟩]
  exact congrArg (EStateM.Result.ok · _) (congrArg Reply.count (Seeding.length_of_sample hps))

end Simulation
end MaterialPoint
