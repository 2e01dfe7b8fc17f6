import MaterialPoint.Proofs.Checked
import MaterialPoint.Proofs.Coherence
import MaterialPoint.Proofs.Drift
import MaterialPoint.Session

/-! Which edits of the parameters reach the simulation. The first update takes over none. -/
namespace MaterialPoint
open scoped Exact Drift

variable {R : Type}

namespace Session

/-- What can happen to a session whose simulation is left to itself. -/
inductive Action (R : Type) where
  | editParams (f : Params R → Params R)
  | editScene (f : Scene R → Scene R)
  | editControl (f : Control → Control)
  | update (schedule : Seeding.Schedule)

namespace Action

def isParamsEdit : Action R → Bool
  | editParams _ => true
  | editScene _ | editControl _ | update _ => false

def isUpdate : Action R → Bool
  | update _ => true
  | editParams _ | editScene _ | editControl _ => false

/-- From the first update on a run goes through it, and the update is no edit. -/
theorem exists_dropWhile_append_update (actions : List (Action R)) (last : Seeding.Schedule) :
    ∃ first rest, actions.dropWhile (!·.isUpdate) ++ [update last] = update first :: rest ∧
      rest.any Action.isParamsEdit =
        (actions.dropWhile (!·.isUpdate)).any Action.isParamsEdit := by
  induction actions with
  | nil => exact ⟨last, [], rfl, rfl⟩
  | cons a actions ih =>
    cases a with
    | editParams f => exact ih
    | editScene f => exact ih
    | editControl f => exact ih
    | update first =>
      refine ⟨first, actions ++ [.update last], rfl, ?_⟩
      change (actions ++ [update last]).any Action.isParamsEdit = actions.any Action.isParamsEdit
      simp [Action.isParamsEdit]

end Action

/-- What is new is not taken over, and neither is what was not edited. -/
theorem ignores_eq {α : Type} (s : Session R) (e : Edited α) :
    s.ignores e = !(s.isStarted && e.isTouched) := by
  simp only [ignores, isChanged, isNew]
  cases s.isStarted <;> cases e.isTouched <;> rfl

end Session

variable [Scalar R]

theorem Simulation.params_of_seed [Generator R] {s t : Simulation R} {schedule : Seeding.Schedule}
    {regions : List (Region R)} {seed : UInt64} (h : s.seed schedule regions seed = .ok t) :
    t.params = s.params := by
  obtain ⟨ps, -, rfl⟩ := seed_eq_ok_iff.mp h
  rfl

namespace Session

theorem start_eq_ok_iff {params : Params R} {scene : Scene R} {s : Session R} :
    start params scene = .ok s ↔ params.Valid ∧
      s = ⟨.clean params, .clean scene, ⟨false, .byMaterial⟩,
        ⟨[], Grid.empty params.resolution, params, 0⟩, false⟩ := by
  unfold start
  constructor
  · intro h
    cases hs : Simulation.start params with
    | error fault =>
      rw [hs] at h
      cases h
    | ok simulation =>
      obtain ⟨hv, rfl⟩ := Simulation.start_eq_ok_iff.mp hs
      rw [hs] at h
      cases h
      exact ⟨hv, rfl⟩
  · rintro ⟨hv, rfl⟩
    rw [Simulation.start_eq_ok_iff.mpr ⟨hv, rfl⟩]
    rfl

section Sync
variable (s : Session R)

@[simp] theorem params_syncParams : s.syncParams.params = s.params := by
  unfold syncParams
  split
  · rfl
  · split <;> rfl

@[simp] theorem isStarted_syncParams : s.syncParams.isStarted = s.isStarted := by
  unfold syncParams
  split
  · rfl
  · split <;> rfl

theorem simulation_params_syncParams :
    s.syncParams.simulation.params =
      if s.isStarted ∧ s.params.isTouched ∧ s.params.value.Valid then s.params.value
      else s.simulation.params := by
  rw [syncParams, ignores_eq]
  cases hs : s.isStarted with
  | false => simp
  | true =>
    cases ht : s.params.isTouched with
    | false => simp
    | true =>
      cases hset : s.simulation.setParams s.params.value with
      | ok t =>
        obtain ⟨hv, rfl⟩ := Simulation.setParams_eq_ok_iff.mp hset
        simp [hv]
      | error fault =>
        have hv : ¬s.params.value.Valid := by
          intro hv
          rw [Simulation.setParams_eq_ok_iff.mpr ⟨hv, rfl⟩] at hset
          cases hset
        simp [hv]

theorem resolution_syncParams :
    s.syncParams.simulation.grid.resolution = s.simulation.grid.resolution ∨
      s.syncParams.simulation.grid.resolution = s.params.value.resolution := by
  unfold syncParams
  split
  · exact .inl rfl
  · split
    next simulation h =>
      obtain ⟨-, rfl⟩ := Simulation.setParams_eq_ok_iff.mp h
      dsimp only
      split_ifs
      · exact .inl rfl
      · exact .inr rfl
    next => exact .inl rfl

end Sync

section Seed
variable [Generator R] (s : Session R) (schedule : Seeding.Schedule)

@[simp] theorem params_opened : (s.opened schedule).params = s.params := by
  unfold opened seedScene
  split
  · split <;> rfl
  · rfl

@[simp] theorem isStarted_opened : (s.opened schedule).isStarted = s.isStarted := by
  unfold opened seedScene
  split
  · split <;> rfl
  · rfl

@[simp] theorem params_reseed : (s.reseed schedule).params = s.params := by
  unfold reseed
  split
  · rfl
  · split <;> rfl

theorem simulation_params_opened :
    (s.opened schedule).simulation.params = s.simulation.params := by
  unfold opened seedScene
  split
  · split
    next t h => exact Simulation.params_of_seed h
    next => rfl
  · rfl

theorem simulation_params_reseed :
    (s.reseed schedule).simulation.params = s.simulation.params := by
  unfold reseed
  split
  · rfl
  · split
    next t h => exact Simulation.params_of_seed h
    next => rfl

theorem grid_seedScene :
    (s.seedScene schedule).simulation.grid = s.simulation.grid := by
  unfold seedScene
  split
  next simulation h =>
    obtain ⟨ps, -, rfl⟩ := Simulation.seed_eq_ok_iff.mp h
    rfl
  next => rfl

theorem grid_reseed :
    (s.reseed schedule).simulation.grid = s.simulation.grid := by
  unfold reseed
  split
  · rfl
  · split
    next simulation h =>
      obtain ⟨ps, -, rfl⟩ := Simulation.seed_eq_ok_iff.mp h
      rfl
    next => rfl

variable {s schedule} in
theorem opened_of_opened? {t : Session R} (h : s.opened? schedule = some t) :
    s.opened schedule = t := by
  rw [opened?] at h
  rw [opened]
  split_ifs at h ⊢
  · exact Option.some.inj (Option.ite_none_right_eq_some.mp h).2
  · exact Option.some.inj h

end Seed

variable [Exponential R] [SingularValues R]

@[simp] theorem params_step (s : Session R) : s.step.params = s.params := by
  unfold step
  split <;> rfl

theorem simulation_params_step (s : Session R) :
    s.step.simulation.params = s.simulation.params := by
  unfold step
  split
  · rfl
  · exact s.simulation.params_frame

variable [Generator R]

theorem params_update (s : Session R) (schedule : Seeding.Schedule) :
    (s.update schedule).params = .clean s.params.value := by
  simp [update, settled]

@[simp] theorem isStarted_update (s : Session R) (schedule : Seeding.Schedule) :
    (s.update schedule).isStarted = true := rfl

/-- The parameters of the simulation after an update. -/
theorem simulation_params_update (s : Session R) (schedule : Seeding.Schedule) :
    (s.update schedule).simulation.params =
      if s.isStarted ∧ s.params.isTouched ∧ s.params.value.Valid then s.params.value
      else s.simulation.params := by
  change ((s.opened schedule).syncParams.reseed schedule).step.simulation.params = _
  rw [simulation_params_step, simulation_params_reseed, simulation_params_syncParams,
    isStarted_opened, params_opened, simulation_params_opened]

def act (s : Session R) : Action R → Session R
  | .editParams f => s.editParams f
  | .editScene f => s.editScene f
  | .editControl f => s.editControl f
  | .update schedule => s.update schedule

def run (s : Session R) (actions : List (Action R)) : Session R := actions.foldl act s

theorem run_append (s : Session R) (first second : List (Action R)) :
    s.run (first ++ second) = (s.run first).run second := List.foldl_append

section Words
variable {s t : Session R} {schedule : Seeding.Schedule}

theorem update_of_update? (hgrid : s.simulation.grid.resolution ^ 3 ≤ 2 ^ 31)
    (hparams : s.params.value.resolution ^ 3 ≤ 2 ^ 31) (h : s.update? schedule = some t) :
    s.update schedule = t := by
  obtain ⟨a, ha, h⟩ := Option.bind_eq_some_iff.mp h
  obtain ⟨b, hb, h⟩ := Option.bind_eq_some_iff.mp h
  obtain ⟨c, hc, h⟩ := Option.bind_eq_some_iff.mp h
  obtain ⟨d, hd, ht⟩ := Option.bind_eq_some_iff.mp h
  obtain rfl := opened_of_opened? ha
  obtain rfl : (s.opened schedule).syncParams = b :=
    Option.some.inj (Option.ite_none_right_eq_some.mp hb).2
  obtain rfl : (s.opened schedule).syncParams.reseed schedule = c :=
    Option.some.inj (Option.ite_none_right_eq_some.mp hc).2
  have hopened : (s.opened schedule).simulation.grid = s.simulation.grid := by
    rw [opened]
    split_ifs
    · exact s.grid_seedScene schedule
    · rfl
  have hfits : ((s.opened schedule).syncParams.reseed schedule).simulation.grid.resolution ^ 3 ≤
      2 ^ 31 := by
    rw [grid_reseed]
    rcases (s.opened schedule).resolution_syncParams with hr | hr
    · rwa [hr, hopened]
    · rwa [hr, params_opened]
  have hstep : ((s.opened schedule).syncParams.reseed schedule).step = d := by
    rw [step?] at hd
    rw [step]
    split_ifs at hd ⊢
    · exact Option.some.inj hd
    · obtain ⟨simulation, hframe, rfl⟩ := Option.map_eq_some_iff.mp hd
      rw [Simulation.eq_of_substeps? hfits hframe, Simulation.frame]
  rw [update, hstep]
  exact Option.some.inj ht

end Words

theorem run_of_forall_not_isUpdate {s : Session R} {actions : List (Action R)}
    (h : ∀ a ∈ actions, a.isUpdate = false) :
    (s.run actions).isStarted = s.isStarted ∧ (s.run actions).simulation = s.simulation ∧
      (actions.any Action.isParamsEdit = false → (s.run actions).params = s.params) := by
  induction actions generalizing s with
  | nil => exact ⟨rfl, rfl, fun _ => rfl⟩
  | cons a actions ih =>
    have ha := h a List.mem_cons_self
    obtain ⟨h1, h2, h3⟩ := ih (s := s.act a) fun b hb => h b (List.mem_cons_of_mem a hb)
    cases a with
    | editParams f => exact ⟨h1, h2, fun he => by simp [Action.isParamsEdit] at he⟩
    | editScene f => exact ⟨h1, h2, h3⟩
    | editControl f => exact ⟨h1, h2, h3⟩
    | update schedule => cases ha

/-- Valid parameters without the mark of an edit are those of the simulation. -/
def IsSynced (s : Session R) : Prop :=
  s.params.isTouched = false → s.params.value.Valid → s.simulation.params = s.params.value

theorem IsSynced.update {s : Session R} (hs : s.isStarted = true) (h : s.IsSynced)
    (schedule : Seeding.Schedule) : (s.update schedule).IsSynced := by
  intro _ hv
  rw [params_update] at hv ⊢
  rw [simulation_params_update]
  split_ifs with ht
  · rfl
  · have hn : s.params.isTouched = false := by
      by_contra hn
      exact ht ⟨hs, by simpa using hn, hv⟩
    exact h hn hv

/-- After the first update, parameters stay with the simulation, and a new edit joins them again. -/
theorem isSynced_run {s : Session R} {actions : List (Action R)} (hs : s.isStarted = true)
    (h : s.IsSynced ∨ actions.any Action.isParamsEdit = true) : (s.run actions).IsSynced := by
  induction actions generalizing s with
  | nil => exact h.resolve_right (by simp)
  | cons a actions ih =>
    cases a with
    -- The mark of the edit stays until an update, and nothing is claimed before that.
    | editParams f => exact ih hs (.inl fun ht => by cases ht)
    | editScene f => exact ih hs h
    | editControl f => exact ih hs h
    | update schedule => exact ih rfl (h.imp_left (·.update hs schedule))

theorem simulation_params_run {s : Session R} {actions : List (Action R)}
    (ht : s.params.isTouched = false) (h : actions.any Action.isParamsEdit = false) :
    (s.run actions).simulation.params = s.simulation.params := by
  induction actions generalizing s with
  | nil => rfl
  | cons a actions ih =>
    cases a with
    | editParams f => simp [Action.isParamsEdit] at h
    | editScene f => exact ih ht h
    | editControl f => exact ih ht h
    | update schedule =>
      have hu : (s.update schedule).params.isTouched = false := by rw [params_update]; rfl
      refine (ih hu h).trans ?_
      rw [simulation_params_update, if_neg]
      rintro ⟨-, ht', -⟩
      rw [ht] at ht'
      cases ht'

theorem params_first_update {params : Params R} {scene : Scene R} {s : Session R}
    (h0 : start params scene = .ok s) {early : List (Action R)}
    (h : ∀ a ∈ early, a.isUpdate = false) (schedule : Seeding.Schedule) :
    ((s.run early).update schedule).simulation.params = params ∧
      (early.any Action.isParamsEdit = false →
        ((s.run early).update schedule).params = .clean params) := by
  obtain ⟨-, rfl⟩ := start_eq_ok_iff.mp h0
  obtain ⟨hs, hsim, hp⟩ := run_of_forall_not_isUpdate (s := ⟨.clean params, .clean scene,
    ⟨false, .byMaterial⟩, ⟨[], Grid.empty params.resolution, params, 0⟩, false⟩) h
  constructor
  · rw [simulation_params_update, hs, hsim]
    simp
  · intro he
    rw [params_update, hp he]
    rfl

/-- Every update leaves the simulation the parameters beside it, unless they were edited before
the first update alone. -/
theorem simulation_params_run_update {params : Params R} {scene : Scene R} {s : Session R}
    (h0 : start params scene = .ok s) (actions : List (Action R)) (schedule : Seeding.Schedule) :
    let early := actions.takeWhile (!·.isUpdate)
    let late := actions.dropWhile (!·.isUpdate)
    let t := s.run (actions ++ [.update schedule])
    (early.any Action.isParamsEdit = false ∨ late.any Action.isParamsEdit = true →
      t.params.value.Valid → t.simulation.params = t.params.value) ∧
    (late.any Action.isParamsEdit = false → t.simulation.params = params) := by
  intro early late t
  have hearly : ∀ a ∈ early, a.isUpdate = false := by
    intro a ha
    simpa using List.mem_takeWhile_imp ha
  obtain ⟨first, rest, hrest, hany⟩ := Action.exists_dropWhile_append_update actions schedule
  obtain ⟨hsim, hclean⟩ := params_first_update h0 hearly first
  have ht : t = ((s.run early).update first).run rest := by
    have hsplit : actions = early ++ late := List.takeWhile_append_dropWhile.symm
    change s.run (actions ++ [.update schedule]) = _
    rw [hsplit, List.append_assoc, hrest, run_append]
    rfl
  have htouched : t.params.isTouched = false := by
    change (s.run (actions ++ [.update schedule])).params.isTouched = false
    rw [run_append]
    exact congrArg Edited.isTouched (params_update _ schedule)
  constructor
  · intro h hv
    have hsync : t.IsSynced := by
      rw [ht]
      refine isSynced_run rfl (h.imp (fun he => ?_) fun hl => hany.trans hl)
      intro _ _
      rw [hsim, hclean he]
      rfl
    exact hsync htouched hv
  · intro hl
    have hu : ((s.run early).update first).params.isTouched = false :=
      congrArg Edited.isTouched (params_update _ first)
    rw [ht, simulation_params_run hu (hany.trans hl), hsim]

theorem simulation_params_run_drift :
    ∃ s, start (Drift.simulation 1).params (default : Scene ℚ) = .ok s ∧
      let t := s.run [.editParams fun p => { p with timeStep := 0 }, .update .inOrder,
        .editParams fun p => { p with timeStep := 1, gravity := 0 }, .update .inOrder]
      t.params.value.Valid ∧ t.simulation.params = t.params.value := by
  have h0 : start (Drift.simulation 1).params (default : Scene ℚ) = .ok _ :=
    start_eq_ok_iff.mpr ⟨by decide +kernel, rfl⟩
  have hv : { (Drift.simulation 1).params with timeStep := 1, gravity := 0 }.Valid := by
    decide +kernel
  refine ⟨_, h0, ?_⟩
  intro t
  have ht : t.params.value = { (Drift.simulation 1).params with timeStep := 1, gravity := 0 } := by
    simp [t, run, act, editParams, params_update, Edited.clean]
  rw [← ht] at hv
  exact ⟨hv, (simulation_params_run_update h0 [.editParams fun p => { p with timeStep := 0 },
    .update .inOrder, .editParams fun p => { p with timeStep := 1, gravity := 0 }] .inOrder).1
      (.inr rfl) hv⟩

/-- An edit before the first update is lost, although it is valid. -/
theorem early_edit_lost :
    ∃ s, start (Drift.simulation 1).params (default : Scene ℚ) = .ok s ∧
      let t := s.run [.editParams fun p => { p with gravity := 0 }, .update .inOrder]
      t.params.value.Valid ∧ t.simulation.params ≠ t.params.value := by
  refine ⟨_, start_eq_ok_iff.mpr ⟨by decide +kernel, rfl⟩, ?_⟩
  intro t
  have hvalue : t.params.value = { (Drift.simulation 1).params with gravity := 0 } := by
    simp [t, run, act, editParams, params_update, Edited.clean]
  have hsim : t.simulation.params = (Drift.simulation 1).params := by
    simp [t, run, act, editParams, simulation_params_update]
  rw [hvalue, hsim]
  decide +kernel

end Session
end MaterialPoint
