import MaterialPoint.Proofs.Commands
import MaterialPoint.Proofs.Health

/-! Which parameters a simulation runs on: valid ones, but for a gravity that nothing checks. -/
namespace MaterialPoint

section Revisions
variable {R : Type} [Scalar R]

namespace Params

theorem Valid.fault?_gravity {p : Params R} (h : p.Valid) (gravity : R) :
    ({ p with gravity } : Params R).fault? =
      if Scalar.isFinite gravity then none else some .gravityNotFinite := by
  obtain ⟨hn, hbudget, htime, -, hwall, hyoung, hpoisson, hdensity⟩ := p.valid_iff_checks.mp h
  cases hg : Scalar.isFinite gravity with
  | true => simp [fault?, hn.not_gt, hbudget, htime, hg, hwall.not_gt, hyoung, hpoisson, hdensity]
  | false => simp [fault?, hn.not_gt, hbudget, htime, hg]

/-- Nothing is wrong with the parameters, unless it is their gravity. -/
def IsValidUpToGravity (p : Params R) : Prop :=
  ∃ gravity, ({ p with gravity } : Params R).Valid

theorem Valid.isValidUpToGravity {p : Params R} (h : p.Valid) : p.IsValidUpToGravity :=
  ⟨p.gravity, h⟩

theorem IsValidUpToGravity.fault? {p : Params R} (h : p.IsValidUpToGravity) :
    p.fault? = if Scalar.isFinite p.gravity then none else some .gravityNotFinite := by
  obtain ⟨gravity, h⟩ := h
  exact h.fault?_gravity p.gravity

end Params

namespace Command

/-- The parameters that a command leaves of those that it finds. -/
def revise (p : Params R) : Command R → Params R
  | setParams params => if params.Valid then params else p
  | setGravity gravity => { p with gravity }
  | seed .. | setParticles _ | modifyParticles _ | substep | frame | repair => p

/-- Whether the command sets gravity to a number that is not finite. -/
def losesGravity : Command R → Bool
  | setGravity gravity => !Scalar.isFinite gravity
  | seed .. | setParticles _ | modifyParticles _ | setParams _ | substep | frame | repair => false

theorem revise_cases (p : Params R) (c : Command R) :
    c.revise p = p ∨ (c.revise p).Valid ∨ ∃ gravity, c = setGravity gravity := by
  cases c with
  | setParams params =>
    rw [revise]
    split
    next hv => exact .inr (.inl hv)
    next => exact .inl rfl
  | setGravity gravity => exact .inr (.inr ⟨gravity, rfl⟩)
  | seed schedule regions number => exact .inl rfl
  | setParticles particles => exact .inl rfl
  | modifyParticles f => exact .inl rfl
  | substep => exact .inl rfl
  | frame => exact .inl rfl
  | repair => exact .inl rfl

theorem isValidUpToGravity_revise {p : Params R} (h : p.IsValidUpToGravity) (c : Command R) :
    (c.revise p).IsValidUpToGravity := by
  rcases c.revise_cases p with hsame | hv | ⟨gravity, rfl⟩
  · rwa [hsame]
  · exact hv.isValidUpToGravity
  · exact h

theorem valid_revise {p : Params R} (h : p.Valid) {c : Command R} (hc : c.losesGravity = false) :
    (c.revise p).Valid := by
  rcases c.revise_cases p with hsame | hv | ⟨gravity, rfl⟩
  · rwa [hsame]
  · exact hv
  · rw [losesGravity, Bool.not_eq_false'] at hc
    rw [revise, Params.Valid, h.fault?_gravity, hc]
    rfl

theorem isValidUpToGravity_foldl_revise {p : Params R} (h : p.IsValidUpToGravity)
    (commands : List (Command R)) : (commands.foldl revise p).IsValidUpToGravity := by
  induction commands generalizing p with
  | nil => exact h
  | cons c commands ih => exact ih (c.isValidUpToGravity_revise h)

theorem valid_foldl_revise {p : Params R} (h : p.Valid) {commands : List (Command R)}
    (hc : ∀ c ∈ commands, c.losesGravity = false) : (commands.foldl revise p).Valid := by
  induction commands generalizing p with
  | nil => exact h
  | cons c commands ih =>
    rw [List.forall_mem_cons] at hc
    exact ih (valid_revise h hc.1) hc.2

end Command

namespace Simulation
variable [Generator R] [Exponential R] [SingularValues R]

theorem params_perform (s : Simulation R) (c : Command R) :
    (s.perform c).state.params = c.revise s.params := by
  cases c with
  | seed schedule regions number =>
    rw [perform_seed]
    split
    next t h =>
      obtain ⟨ps, -, rfl⟩ := seed_eq_ok_iff.mp h
      rfl
    next => rfl
  | setParams params =>
    rw [perform_setParams, Command.revise]
    split
    next t h =>
      obtain ⟨hv, rfl⟩ := setParams_eq_ok_iff.mp h
      exact (if_pos hv).symm
    next fault h =>
      refine (if_neg fun hv => ?_).symm
      rw [setParams_eq_ok_iff.mpr ⟨hv, rfl⟩] at h
      cases h
  | setParticles particles => rfl
  | modifyParticles f => rfl
  | setGravity gravity => rfl
  | substep =>
    rw [perform_substep]
    exact s.params_substep
  | frame =>
    rw [perform_frame]
    exact s.params_frame
  | repair => rfl

theorem params_run (s : Simulation R) (commands : List (Command R)) :
    (s.run commands).params = commands.foldl Command.revise s.params := by
  induction commands generalizing s with
  | nil => rfl
  | cons c commands ih =>
    rw [List.foldl_cons, ← params_perform]
    exact ih _

/-- A run that does not stop is the run over the integers, while all nodes have numbers. -/
theorem run_of_run? {s t : Simulation R} (hs : s.IsMatched)
    (hfits : s.params.resolution ^ 3 ≤ 2 ^ 31) {commands : List (Command R)}
    (hparams : ∀ params, .setParams params ∈ commands → params.resolution ^ 3 ≤ 2 ^ 31)
    (h : s.run? commands = some t) : s.run commands = t := by
  induction commands generalizing s with
  | nil => exact Option.some.inj h
  | cons c commands ih =>
    obtain ⟨outcome, hperform, hrest⟩ := run?_cons.mp h
    obtain rfl := perform_of_perform? (by rwa [hs]) hperform
    refine ih (hs.perform c) ?_ (fun p hp => hparams p (List.mem_cons_of_mem c hp)) hrest
    rw [params_perform]
    cases c with
    | setParams params =>
      rw [Command.revise]
      split_ifs
      · exact hparams params List.mem_cons_self
      · exact hfits
    | seed | setParticles | modifyParticles | setGravity | substep | frame | repair => exact hfits

/-- Parameters are those last found valid with the gravity last set, which alone can be wrong. -/
theorem validate_params_run {params : Params R} {s₀ : Simulation R} (h0 : start params = .ok s₀)
    (commands : List (Command R)) :
    let s := s₀.run commands
    s.params = commands.foldl Command.revise params ∧
    s.params.validate = (if Scalar.isFinite s.params.gravity then .ok ()
      else .error (.parameter .gravityNotFinite)) ∧
    ((∀ c ∈ commands, c.losesGravity = false) → s.params.validate = .ok ()) := by
  intro s
  obtain ⟨hv, rfl⟩ := start_eq_ok_iff.mp h0
  have hparams : s.params = commands.foldl Command.revise params := params_run _ commands
  refine ⟨hparams, ?_, fun hc => ?_⟩
  · have hgravity : s.params.IsValidUpToGravity := by
      rw [hparams]
      exact Command.isValidUpToGravity_foldl_revise hv.isValidUpToGravity commands
    rw [Params.validate, hgravity.fault?]
    cases Scalar.isFinite s.params.gravity with
    | true => rfl
    | false => rfl
  · rw [Params.validate_eq_ok_iff, hparams]
    exact Command.valid_foldl_revise hv hc

end Simulation
end Revisions

open scoped Wreck

namespace Simulation

/-- A gravity that is lost and found again, and then lost for good. -/
theorem validate_params_run_wreck :
    let params := Wreck.simulation.params
    let commands : List (Command (Extended ℚ)) :=
      [.setGravity .nan, .substep, .setParams { params with timeStep := 0 }, .setGravity 1]
    ∃ s₀, start params = .ok s₀ ∧
      (s₀.run commands).params = { params with gravity := 1 } ∧
      (s₀.run commands).params.validate = .ok () ∧
      (s₀.run (commands ++ [.setGravity (.infinite true), .frame])).params.validate =
        .error (.parameter .gravityNotFinite) ∧
      (s₀.run [.setParams { params with gravity := 2 }, .substep]).params.validate = .ok () := by
  intro params commands
  have h0 : start params = .ok _ := start_eq_ok_iff.mpr ⟨by decide +kernel, rfl⟩
  obtain ⟨hparams, hfound, -⟩ := validate_params_run h0 commands
  obtain ⟨hlost, hfault, -⟩ :=
    validate_params_run h0 (commands ++ [.setGravity (.infinite true), .frame])
  have hkept := (validate_params_run h0 [.setParams { params with gravity := 2 }, .substep]).2.2
    (by simp [Command.losesGravity])
  refine ⟨_, h0, ?_, ?_, ?_, hkept⟩
  · rw [hparams]
    decide +kernel
  · rw [hfound, hparams]
    rfl
  · rw [hfault, hlost]
    rfl

/-- A substep is run under a gravity that is not a number. -/
theorem gravity_unchecked :
    ∃ s₀ : Simulation (Extended ℚ), start Wreck.simulation.params = .ok s₀ ∧
      (s₀.run [.setGravity .nan, .substep]).substeps = 1 ∧
      (s₀.run [.setGravity .nan, .substep]).params.validate =
        .error (.parameter .gravityNotFinite) :=
  ⟨_, start_eq_ok_iff.mpr ⟨by decide +kernel, rfl⟩, rfl, by decide +kernel⟩

end Simulation
end MaterialPoint
