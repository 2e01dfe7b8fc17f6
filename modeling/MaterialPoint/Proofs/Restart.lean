import MaterialPoint.Proofs.Commands

/-! Seeding forgets the past: nothing that is left on a lattice outlasts a substep. -/
namespace MaterialPoint
namespace Simulation

/-- Nothing but the nodes of the lattices may differ. -/
structure IsAlike {R : Type} (s t : Simulation R) : Prop where
  particles_eq : s.particles = t.particles
  params_eq : s.params = t.params
  substeps_eq : s.substeps = t.substeps
  resolution_eq : s.grid.resolution = t.grid.resolution

namespace IsAlike

section Edits
variable {R : Type}

theorem refl (s : Simulation R) : s.IsAlike s := ⟨rfl, rfl, rfl, rfl⟩

variable {s t : Simulation R}

theorem setParticles (h : s.IsAlike t) (ps : Population R) :
    (s.setParticles ps).IsAlike (t.setParticles ps) :=
  ⟨rfl, h.params_eq, rfl, h.resolution_eq⟩

theorem modifyParticles (h : s.IsAlike t) (f : Population R → Population R) :
    (s.modifyParticles f).IsAlike (t.modifyParticles f) :=
  ⟨congrArg f h.particles_eq, h.params_eq, h.substeps_eq, h.resolution_eq⟩

theorem setGravity (h : s.IsAlike t) (gravity : R) :
    (s.setGravity gravity).IsAlike (t.setGravity gravity) :=
  ⟨h.particles_eq, congrArg ({ · with gravity }) h.params_eq, h.substeps_eq, h.resolution_eq⟩

end Edits

variable {R : Type} [Scalar R] {s t : Simulation R}

theorem repair (h : s.IsAlike t) : s.repair.IsAlike t.repair := by
  unfold Simulation.repair
  rw [h.params_eq]
  exact h.modifyParticles _

variable [Exponential R] [SingularValues R]

theorem transfer_eq (h : s.IsAlike t) : s.transfer = t.transfer := by
  have hreset : s.grid.reset = t.grid.reset := congrArg Grid.empty h.resolution_eq
  simp only [transfer, hreset, h.particles_eq, h.params_eq, h.substeps_eq]

theorem substep_eq (h : s.IsAlike t) : s.substep = t.substep := by
  unfold substep
  rw [h.transfer_eq]

theorem repeat_substep_eq (h : s.IsAlike t) {count : ℕ} (hcount : 0 < count) :
    Nat.repeat substep count s = Nat.repeat substep count t := by
  induction count with
  | zero => exact absurd hcount (lt_irrefl 0)
  | succ count ih =>
    rcases Nat.eq_zero_or_pos count with rfl | hpos
    · exact h.substep_eq
    · rw [Nat.repeat, Nat.repeat, ih hpos]

theorem frame_eq (h : s.IsAlike t) (hcount : 0 < s.params.substepsPerFrame) :
    s.frame = t.frame := by
  rw [Simulation.frame, Simulation.frame, ← h.params_eq, h.repeat_substep_eq hcount]

variable [Generator R]

/-- A command is answered alike by simulations that are alike, and leaves them alike. -/
theorem perform (h : s.IsAlike t) (c : Command R) :
    (s.perform c).answer = (t.perform c).answer ∧
      (s.perform c).state.IsAlike (t.perform c).state := by
  cases c with
  | seed schedule regions number =>
    simp only [perform_seed, Simulation.seed, h.params_eq]
    cases Seeding.sample schedule regions t.params.budget number with
    | error fault => exact ⟨rfl, h⟩
    | ok ps => exact ⟨rfl, h.setParticles ps⟩
  | setParams params =>
    simp only [perform_setParams, Simulation.setParams, h.resolution_eq]
    cases params.validate with
    | error fault => exact ⟨rfl, h⟩
    | ok _ =>
      refine ⟨rfl, h.particles_eq, rfl, h.substeps_eq, ?_⟩
      by_cases hr : params.resolution = t.grid.resolution
      · simp only [hr, if_true]
        exact h.resolution_eq
      · simp only [hr, if_false]
        rfl
  | setParticles particles => exact ⟨rfl, h.setParticles particles⟩
  | modifyParticles f => exact ⟨rfl, h.modifyParticles f⟩
  | setGravity gravity => exact ⟨rfl, h.setGravity gravity⟩
  | substep =>
    rw [perform_substep, perform_substep, h.substep_eq]
    exact ⟨rfl, refl _⟩
  | frame =>
    rw [perform_frame, perform_frame]
    refine ⟨rfl, ?_⟩
    rcases Nat.eq_zero_or_pos s.params.substepsPerFrame with hzero | hpos
    · rw [Simulation.frame, Simulation.frame, ← h.params_eq, hzero]
      exact h
    · rw [h.frame_eq hpos]
      exact refl _
  | repair =>
    have hfound : s.instabilities = t.instabilities :=
      congrArg Population.instabilities h.particles_eq
    rw [perform_repair, perform_repair, hfound]
    exact ⟨rfl, h.repair⟩

theorem state_perform_eq (h : s.IsAlike t) {c : Command R}
    (hpos : 0 < (⟨s, c, s.perform c⟩ : Moment R).substeps) :
    (s.perform c).state = (t.perform c).state := by
  cases c with
  | substep => rw [perform_substep, perform_substep, h.substep_eq]
  | frame => rw [perform_frame, perform_frame, h.frame_eq hpos]
  | _ => exact absurd hpos (lt_irrefl 0)

end IsAlike

variable {R : Type} [Scalar R] [Generator R] [Exponential R] [SingularValues R]

def answers (s : Simulation R) (commands : List (Command R)) :
    List (Except (Fault R) (Reply R)) :=
  (s.history commands).map fun m => m.outcome.answer

def executed (s : Simulation R) (commands : List (Command R)) : ℕ :=
  ((s.history commands).map Moment.substeps).sum

theorem IsAlike.run {s t : Simulation R} (h : s.IsAlike t) (commands : List (Command R)) :
    s.answers commands = t.answers commands ∧ (s.run commands).IsAlike (t.run commands) ∧
      (0 < s.executed commands → s.run commands = t.run commands) := by
  induction commands generalizing s t with
  | nil => exact ⟨rfl, h, fun h0 => absurd h0 (lt_irrefl 0)⟩
  | cons c commands ih =>
    obtain ⟨hanswer, hstep⟩ := h.perform c
    obtain ⟨hanswers, hrun, hlater⟩ := ih hstep
    refine ⟨congrArg₂ List.cons hanswer hanswers, hrun, fun hpos => ?_⟩
    rcases Nat.eq_zero_or_pos (⟨s, c, s.perform c⟩ : Moment R).substeps with hzero | hnow
    · refine hlater ?_
      change 0 < (⟨s, c, s.perform c⟩ : Moment R).substeps +
        (s.perform c).state.executed commands at hpos
      rwa [hzero, zero_add] at hpos
    · exact congrArg (Simulation.run · commands) (h.state_perform_eq hnow)

/-- A simulation that comes of commands, however they went, given to one that was started. -/
def IsReachable (s : Simulation R) : Prop :=
  ∃ params s₀ commands, start params = .ok s₀ ∧ s = s₀.run commands

theorem IsReachable.isMatched {s : Simulation R} (h : s.IsReachable) : s.IsMatched := by
  obtain ⟨params, s₀, commands, h0, rfl⟩ := h
  exact (isMatched_start h0).run commands

/-- Whatever their pasts, simulations with the same parameters that are seeded alike go on alike. -/
theorem run_eq_of_seed {s t : Simulation R} (hs : s.IsReachable) (ht : t.IsReachable)
    (hparams : s.params = t.params) (schedule : Seeding.Schedule) (regions : List (Region R))
    (number : UInt64) :
    match s.perform (.seed schedule regions number), t.perform (.seed schedule regions number) with
    | .ok reply a, .ok reply' b => reply = reply' ∧ ∀ commands,
      (a.run commands).particles = (b.run commands).particles ∧
      (a.run commands).substeps = (b.run commands).substeps ∧
      (a.run commands).params = (b.run commands).params ∧
      a.answers commands = b.answers commands ∧
      (0 < a.executed commands → (a.run commands).grid = (b.run commands).grid)
    | .error fault _, .error fault' _ => fault = fault'
    | _, _ => False := by
  rw [perform_seed, perform_seed, Simulation.seed, Simulation.seed, hparams]
  cases Seeding.sample schedule regions t.params.budget number with
  | error fault => rfl
  | ok ps =>
    have hresolution : s.grid.resolution = t.grid.resolution :=
      hs.isMatched.trans ((congrArg Params.resolution hparams).trans ht.isMatched.symm)
    have halike : (s.setParticles ps).IsAlike (t.setParticles ps) :=
      ⟨rfl, hparams, rfl, hresolution⟩
    refine ⟨rfl, fun commands => ?_⟩
    obtain ⟨hanswers, hrun, hequal⟩ := halike.run commands
    exact ⟨hrun.particles_eq, hrun.substeps_eq, hrun.params_eq, hanswers,
      fun hpos => congrArg Simulation.grid (hequal hpos)⟩

open scoped Exact Drift in
/-- A lattice with matter left on it, and one that nothing was ever added to. -/
theorem run_eq_of_seed_drift :
    let regions : List (Region ℚ) := [.block ⟨0, Vec3.splat (1 / 2), .water⟩]
    ∃ s t a b : Simulation ℚ, s.IsReachable ∧ t.IsReachable ∧
      s.perform (.seed .inOrder regions 7) = .ok (.count 16) a ∧
      t.perform (.seed .inOrder regions 7) = .ok (.count 16) b ∧
      a.grid ≠ b.grid ∧ (a.run [.substep]).grid = (b.run [.substep]).grid := by
  intro regions
  let params := (Drift.simulation 1).params
  have h0 : start params = .ok ⟨[], Grid.empty 4, params, 0⟩ :=
    start_eq_ok_iff.mpr ⟨by decide +kernel, rfl⟩
  let past : List (Command ℚ) := [.setParticles (Drift.simulation 1).particles, .substep]
  let s : Simulation ℚ := run ⟨[], Grid.empty 4, params, 0⟩ past
  let t : Simulation ℚ := run ⟨[], Grid.empty 4, params, 0⟩ []
  have hs : s.IsReachable := ⟨params, _, past, h0, rfl⟩
  have ht : t.IsReachable := ⟨params, _, [], h0, rfl⟩
  have hparams : s.params = t.params := by decide +kernel
  have hvolume : ∃ r ∈ regions, 0 < r.volume := ⟨_, List.mem_cons_self, by decide +kernel⟩
  obtain ⟨ps, ha⟩ := s.exists_perform_seed .inOrder hvolume 7
  obtain ⟨qs, hb⟩ := t.exists_perform_seed .inOrder hvolume 7
  have hbudget : s.params.budget = 16 := by decide +kernel
  have hbudget' : t.params.budget = 16 := rfl
  rw [hbudget] at ha
  rw [hbudget'] at hb
  have hmass : s.grid.totalMass ≠ t.grid.totalMass := by decide +kernel
  have hsame := run_eq_of_seed hs ht hparams .inOrder regions 7
  rw [ha, hb] at hsame
  refine ⟨s, t, s.setParticles ps, t.setParticles qs, hs, ht, ha, hb, ?_, ?_⟩
  · exact fun hgrid => hmass (congrArg Grid.totalMass hgrid)
  · exact (hsame.2 [.substep]).2.2.2.2 Nat.one_pos

end Simulation
end MaterialPoint
