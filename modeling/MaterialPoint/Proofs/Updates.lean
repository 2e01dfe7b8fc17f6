import MaterialPoint.Proofs.Edits

/-! What an update makes of the edits before it, and what the counter tells. -/
namespace MaterialPoint.Session

namespace Action
variable {R : Type}

def isSceneEdit : Action R → Bool
  | editScene _ => true
  | editParams _ | editControl _ | update _ => false

/-- What was done since the last update, or since the start. -/
def pending (actions : List (Action R)) : List (Action R) := actions.rtakeWhile (!·.isUpdate)

theorem pending_append_update (actions : List (Action R)) (schedule : Seeding.Schedule) :
    pending (actions ++ [update schedule]) = [] :=
  List.rtakeWhile_concat_neg _ actions (update schedule) Bool.false_ne_true

theorem pending_append {a : Action R} (h : a.isUpdate = false) (actions : List (Action R)) :
    pending (actions ++ [a]) = pending actions ++ [a] :=
  List.rtakeWhile_concat_pos _ actions a (by rw [h]; rfl)

end Action

variable {R : Type} [Scalar R]

theorem simulation_syncParams (s : Session R) :
    s.syncParams.simulation = if s.isStarted && s.params.isTouched then
      (s.simulation.setParams s.params.value).toOption.getD s.simulation else s.simulation := by
  rw [syncParams, ignores_eq]
  cases s.isStarted && s.params.isTouched with
  | false => rfl
  | true => cases s.simulation.setParams s.params.value <;> rfl

theorem syncParams_eq (s : Session R) :
    s.syncParams = { s with simulation := s.syncParams.simulation } := by
  unfold syncParams
  split
  · rfl
  · split <;> rfl

theorem substeps_syncParams (s : Session R) :
    s.syncParams.simulation.substeps = s.simulation.substeps := by
  unfold syncParams
  split
  · rfl
  · split
    next t h =>
      obtain ⟨-, rfl⟩ := Simulation.setParams_eq_ok_iff.mp h
      rfl
    next => rfl

variable [Generator R]

theorem seedScene_eq (s : Session R) (schedule : Seeding.Schedule) :
    s.seedScene schedule = { s with
      simulation := (s.simulation.seed schedule s.scene.value.regions
        s.scene.value.seed).toOption.getD s.simulation } := by
  unfold seedScene
  cases s.simulation.seed schedule s.scene.value.regions s.scene.value.seed <;> rfl

theorem simulation_reseed (s : Session R) (schedule : Seeding.Schedule) :
    (s.reseed schedule).simulation = if s.isStarted && s.scene.isTouched then
      (s.simulation.seed schedule s.scene.value.regions
        s.scene.value.seed).toOption.getD s.simulation
    else s.simulation := by
  rw [reseed, ignores_eq]
  cases s.isStarted && s.scene.isTouched with
  | false => rfl
  | true => cases s.simulation.seed schedule s.scene.value.regions s.scene.value.seed <;> rfl

theorem substeps_getD_seed (simulation : Simulation R) (schedule : Seeding.Schedule)
    (regions : List (Region R)) (number : UInt64) :
    ((simulation.seed schedule regions number).toOption.getD simulation).substeps =
      if (simulation.seed schedule regions number).toBool then 0 else simulation.substeps := by
  cases h : simulation.seed schedule regions number with
  | error fault => rfl
  | ok seeded =>
    obtain ⟨ps, -, rfl⟩ := Simulation.seed_eq_ok_iff.mp h
    rfl

/-- Whether the next update seeds the scene, and succeeds. -/
def seeds (s : Session R) (schedule : Seeding.Schedule) : Bool :=
  (!s.isStarted || s.scene.isTouched) &&
    (s.syncParams.simulation.seed schedule s.scene.value.regions s.scene.value.seed).toBool

/-- A session that an update finds, with the schedule of the update. -/
abbrev Turn (R : Type) := Session R × Seeding.Schedule

/-- The last updates, from the last one that seeds the scene on. They are all when none does. -/
def sinceSeeding : List (Turn R) → List (Turn R)
  | [] => []
  | t :: turns => if turns.any fun (s, schedule) => s.seeds schedule then sinceSeeding turns
    else t :: turns

theorem sinceSeeding_append_singleton (turns : List (Turn R)) (t : Turn R) :
    sinceSeeding (turns ++ [t]) = if t.1.seeds t.2 then [t] else sinceSeeding turns ++ [t] := by
  induction turns with
  | nil => simp [sinceSeeding]
  | cons r turns ih =>
    have hany : ((turns ++ [t]).any fun (s, schedule) => s.seeds schedule) =
        ((turns.any fun (s, schedule) => s.seeds schedule) || t.1.seeds t.2) := by simp
    rw [List.cons_append, sinceSeeding, sinceSeeding, ih, hany]
    cases t.1.seeds t.2 with
    | true => simp
    | false => cases turns.any fun (s, schedule) => s.seeds schedule <;> simp

variable [Exponential R] [SingularValues R]

/-- A frame of a simulation unless there is a pause. -/
def stepUnless (isPaused : Bool) (simulation : Simulation R) : Simulation R :=
  if isPaused then simulation else simulation.frame

omit [Generator R] in
theorem step_eq (s : Session R) :
    s.step = { s with simulation := stepUnless s.control.isPaused s.simulation } := by
  unfold step stepUnless
  split <;> rfl

theorem update_eq (s : Session R) (schedule : Seeding.Schedule) :
    let ready := (s.opened schedule).syncParams.reseed schedule
    (s.update schedule).control = ready.control ∧
      (s.update schedule).simulation = stepUnless ready.control.isPaused ready.simulation := by
  intro ready
  have hstep : (s.update schedule).control = ready.step.control ∧
      (s.update schedule).simulation = ready.step.simulation := ⟨rfl, rfl⟩
  rw [hstep.1, hstep.2, step_eq]
  exact ⟨rfl, rfl⟩

section First
variable {s : Session R} (h : s.isStarted = false) (schedule : Seeding.Schedule)
include h

omit [Generator R] [Exponential R] [SingularValues R] in
theorem syncParams_of_not_isStarted : s.syncParams = s := by
  rw [syncParams, ignores_eq, h]
  rfl

omit [Exponential R] [SingularValues R] in
/-- The first update seeds the scene before it looks for edits, and finds none. -/
theorem ready_of_not_isStarted :
    (s.opened schedule).syncParams.reseed schedule = s.seedScene schedule := by
  have hopened : s.opened schedule = s.seedScene schedule := by
    rw [opened, isNew, h]
    rfl
  have hseeded : (s.seedScene schedule).isStarted = false := by
    rw [seedScene_eq]
    exact h
  rw [hopened, syncParams_of_not_isStarted hseeded, reseed, ignores_eq, hseeded]
  rfl

theorem update_of_not_isStarted :
    (s.update schedule).control = s.control ∧
      (s.update schedule).simulation = stepUnless s.control.isPaused
        ((s.simulation.seed schedule s.scene.value.regions s.scene.value.seed).toOption.getD
          s.simulation) := by
  obtain ⟨hcontrol, hsimulation⟩ := s.update_eq schedule
  rw [ready_of_not_isStarted h, seedScene_eq] at hcontrol hsimulation
  exact ⟨hcontrol, hsimulation⟩

end First

section Later
variable {s : Session R} (h : s.isStarted = true) {schedule : Seeding.Schedule}
include h

theorem update_of_isStarted (schedule : Seeding.Schedule) :
    (s.update schedule).control = (s.syncParams.reseed schedule).control ∧
      (s.update schedule).simulation =
        stepUnless (s.syncParams.reseed schedule).control.isPaused
          (s.syncParams.reseed schedule).simulation := by
  have hopened : s.opened schedule = s := by
    rw [opened, isNew, h]
    rfl
  simpa only [hopened] using s.update_eq schedule

theorem update_of_not_isTouched (ht : s.scene.isTouched = false) :
    (s.update schedule).control = s.control ∧
      (s.update schedule).simulation = stepUnless s.control.isPaused s.syncParams.simulation := by
  have hupdate := update_of_isStarted h schedule
  rw [syncParams_eq, reseed, ignores_eq] at hupdate
  simp only [ht, Bool.and_false, Bool.not_false, if_true] at hupdate
  exact hupdate

theorem update_of_seed_eq_error (ht : s.scene.isTouched = true) {fault : Fault R}
    (hseed : s.syncParams.simulation.seed schedule s.scene.value.regions
      s.scene.value.seed = .error fault) :
    (s.update schedule).control = s.control ∧
      (s.update schedule).simulation = stepUnless s.control.isPaused s.syncParams.simulation := by
  have hupdate := update_of_isStarted h schedule
  rw [syncParams_eq, reseed, ignores_eq] at hupdate
  simp only [h, ht, hseed, Bool.and_true, Bool.not_true, Bool.false_eq_true, if_false] at hupdate
  exact hupdate

theorem update_of_seed_eq_ok (ht : s.scene.isTouched = true) {seeded : Simulation R}
    (hseed : s.syncParams.simulation.seed schedule s.scene.value.regions
      s.scene.value.seed = .ok seeded) :
    (s.update schedule).control = { s.control with
        isPaused := s.control.isPaused || s.scene.value.pausesAfterSeeding } ∧
      (s.update schedule).simulation =
        stepUnless (s.control.isPaused || s.scene.value.pausesAfterSeeding) seeded := by
  have hupdate := update_of_isStarted h schedule
  rw [syncParams_eq, reseed, ignores_eq] at hupdate
  simp only [h, ht, hseed, Bool.and_true, Bool.not_true, Bool.false_eq_true, if_false] at hupdate
  exact hupdate

end Later

def advance (s : Session R) (schedule : Seeding.Schedule) : ℕ :=
  if (s.update schedule).control.isPaused then 0
  else (s.update schedule).simulation.params.substepsPerFrame

theorem substeps_of_stepUnless {s : Session R} {schedule : Seeding.Schedule}
    {seeded : Simulation R} (h : (s.update schedule).simulation =
      stepUnless (s.update schedule).control.isPaused seeded) :
    (s.update schedule).simulation.substeps = seeded.substeps + s.advance schedule := by
  rw [advance, h, stepUnless]
  split
  · rfl
  · rw [Simulation.params_frame, Simulation.substeps_frame]

/-- An update sets the counter back if it seeds the scene, and then adds its frame. -/
theorem substeps_update (s : Session R) (schedule : Seeding.Schedule) :
    (s.update schedule).simulation.substeps =
      (if s.seeds schedule then 0 else s.simulation.substeps) + s.advance schedule := by
  obtain ⟨hcontrol, hsimulation⟩ := s.update_eq schedule
  rw [← hcontrol] at hsimulation
  rw [substeps_of_stepUnless hsimulation]
  congr 1
  cases hs : s.isStarted with
  | false =>
    rw [ready_of_not_isStarted hs, seeds, hs, syncParams_of_not_isStarted hs, seedScene_eq]
    exact substeps_getD_seed ..
  | true =>
    have hopened : s.opened schedule = s := by
      rw [opened, isNew, hs]
      rfl
    have hscene : s.syncParams.scene = s.scene := by rw [syncParams_eq]
    rw [hopened, simulation_reseed, isStarted_syncParams, hscene, seeds, hs]
    cases ht : s.scene.isTouched with
    | false => exact s.substeps_syncParams
    | true =>
      rw [← s.substeps_syncParams]
      exact substeps_getD_seed ..

def turns (s : Session R) : List (Action R) → List (Turn R)
  | [] => []
  | .update schedule :: actions => (s, schedule) :: (s.update schedule).turns actions
  | a :: actions => (s.act a).turns actions

theorem turns_append (s : Session R) (first second : List (Action R)) :
    s.turns (first ++ second) = s.turns first ++ (s.run first).turns second := by
  induction first generalizing s with
  | nil => rfl
  | cons a first ih =>
    cases a with
    | update schedule => exact congrArg ((s, schedule) :: ·) (ih _)
    | editParams | editScene | editControl => exact ih _

/-- The counter adds up the frames since the scene was last seeded. -/
theorem substeps_run {s : Session R} (h : s.simulation.substeps = 0) (actions : List (Action R)) :
    (s.run actions).simulation.substeps =
      ((sinceSeeding (s.turns actions)).map fun (t, schedule) => t.advance schedule).sum := by
  induction actions using List.reverseRecOn with
  | nil => exact h
  | append_singleton actions a ih =>
    rw [run_append, turns_append]
    cases a with
    | update schedule =>
      let t := s.run actions
      change (t.update schedule).simulation.substeps = ((sinceSeeding
        (s.turns actions ++ [(t, schedule)])).map fun (t, schedule) => t.advance schedule).sum
      rw [substeps_update, sinceSeeding_append_singleton, ih]
      cases t.seeds schedule with
      | true => simp
      | false => simp
    | editParams | editScene | editControl => exact ih.trans (by simp [turns])

theorem isStarted_run (s : Session R) (actions : List (Action R)) :
    (s.run actions).isStarted = (s.isStarted || actions.any Action.isUpdate) := by
  induction actions generalizing s with
  | nil => exact (Bool.or_false _).symm
  | cons a actions ih =>
    refine (ih (s.act a)).trans ?_
    cases a with
    | update schedule => simp [act, Action.isUpdate]
    | _ => simp [act, Action.isUpdate, editParams, editScene, editControl]

theorem isTouched_run {s : Session R} (hparams : s.params.isTouched = false)
    (hscene : s.scene.isTouched = false) (actions : List (Action R)) :
    (s.run actions).params.isTouched = (Action.pending actions).any Action.isParamsEdit ∧
      (s.run actions).scene.isTouched = (Action.pending actions).any Action.isSceneEdit := by
  induction actions using List.reverseRecOn with
  | nil => exact ⟨hparams, hscene⟩
  | append_singleton actions a ih =>
    rw [run_append]
    cases a with
    | update schedule =>
      rw [Action.pending_append_update]
      exact ⟨congrArg Edited.isTouched (params_update _ schedule), rfl⟩
    | editParams f =>
      rw [Action.pending_append rfl, List.any_append, List.any_append, ← ih.1, ← ih.2]
      exact ⟨(Bool.or_true _).symm, (Bool.or_false _).symm⟩
    | editScene f =>
      rw [Action.pending_append rfl, List.any_append, List.any_append, ← ih.1, ← ih.2]
      exact ⟨(Bool.or_false _).symm, (Bool.or_true _).symm⟩
    | editControl f =>
      rw [Action.pending_append rfl, List.any_append, List.any_append, ← ih.1, ← ih.2]
      exact ⟨(Bool.or_false _).symm, (Bool.or_false _).symm⟩

/-- The first update seeds the scene. Later ones take over edited parameters, then an edited
scene. -/
theorem update_run {params : Params R} {scene : Scene R} {s : Session R}
    (h0 : start params scene = .ok s) (actions : List (Action R)) (schedule : Seeding.Schedule) :
    let t := s.run actions
    let u := t.update schedule
    let seeded (simulation : Simulation R) :=
      simulation.seed schedule t.scene.value.regions t.scene.value.seed
    let synced := if (Action.pending actions).any Action.isParamsEdit then
      (t.simulation.setParams t.params.value).toOption.getD t.simulation else t.simulation
    (actions.any Action.isUpdate = false →
      u.control = t.control ∧ u.simulation =
        stepUnless t.control.isPaused ((seeded t.simulation).toOption.getD t.simulation)) ∧
    (actions.any Action.isUpdate = true →
      if (Action.pending actions).any Action.isSceneEdit then
        match seeded synced with
        | .ok simulation =>
          u.control = { t.control with
            isPaused := t.control.isPaused || t.scene.value.pausesAfterSeeding } ∧
          u.simulation = stepUnless u.control.isPaused simulation ∧
          (t.scene.value.pausesAfterSeeding = true →
            u.control.isPaused = true ∧ u.simulation.substeps = 0)
        | .error _ =>
          u.control = t.control ∧ u.simulation = stepUnless t.control.isPaused synced
      else u.control = t.control ∧ u.simulation = stepUnless t.control.isPaused synced) ∧
    u.simulation.substeps = ((sinceSeeding (s.turns (actions ++ [.update schedule]))).map
      fun (t, schedule) => t.advance schedule).sum := by
  obtain ⟨-, rfl⟩ := start_eq_ok_iff.mp h0
  intro t u seeded synced
  have hstarted : t.isStarted = actions.any Action.isUpdate := isStarted_run _ actions
  obtain ⟨hparams, hscene⟩ :
      t.params.isTouched = (Action.pending actions).any Action.isParamsEdit ∧
        t.scene.isTouched = (Action.pending actions).any Action.isSceneEdit :=
    isTouched_run rfl rfl actions
  refine ⟨fun hfirst => update_of_not_isStarted (hstarted.trans hfirst) schedule,
    fun hlater => ?_, ?_⟩
  · have hs : t.isStarted = true := hstarted.trans hlater
    have hsynced : t.syncParams.simulation = synced := by
      rw [simulation_syncParams, hs, Bool.true_and, hparams]
    rw [← hscene, ← hsynced]
    cases ht : t.scene.isTouched with
    | false => exact update_of_not_isTouched hs ht
    | true =>
      cases hseed : seeded t.syncParams.simulation with
      | error fault => exact update_of_seed_eq_error hs ht hseed
      | ok simulation =>
        obtain ⟨hcontrol, hsimulation⟩ := update_of_seed_eq_ok hs ht hseed
        have hpaused : u.control.isPaused =
            (t.control.isPaused || t.scene.value.pausesAfterSeeding) :=
          congrArg Control.isPaused hcontrol
        rw [← hpaused] at hsimulation
        refine ⟨hcontrol, hsimulation, fun hpauses => ?_⟩
        obtain ⟨ps, -, rfl⟩ := Simulation.seed_eq_ok_iff.mp hseed
        rw [hsimulation, hpaused, hpauses, Bool.or_true]
        exact ⟨rfl, rfl⟩
  · have hlast := substeps_run (s := ⟨.clean params, .clean scene, ⟨false, .byMaterial⟩,
      ⟨[], Grid.empty params.resolution, params, 0⟩, false⟩) rfl (actions ++ [.update schedule])
    rw [run_append] at hlast
    exact hlast

open scoped Exact Drift in
/-- Refused parameters, a restart, a frame, a pause and a frame; then another scene, which
pauses. -/
theorem update_run_drift :
    let params := { (Drift.simulation 1).params with substepsPerFrame := 2 }
    let actions := [.update .inOrder, .editParams fun p => { p with timeStep := 0 },
      .editScene (·.restart),
      .update .inOrder, .editControl Control.togglePause, .update .inOrder,
      .editControl Control.togglePause]
    let choice := actions ++ [.update .inOrder, .editScene (·.select .doubleDamBreak)]
    ∃ s, start params (default : Scene ℚ) = .ok s ∧
      ((s.run actions).update .inOrder).simulation.substeps = 4 ∧
      ((s.run choice).update .inOrder).simulation.substeps = 0 := by
  intro params actions choice
  have h0 : start params (default : Scene ℚ) = .ok _ :=
    start_eq_ok_iff.mpr ⟨by decide +kernel, rfl⟩
  refine ⟨_, h0, ?_, ?_⟩
  · rw [(update_run h0 actions .inOrder).2.2]
    decide +kernel
  · rw [(update_run h0 choice .inOrder).2.2]
    decide +kernel

end MaterialPoint.Session
