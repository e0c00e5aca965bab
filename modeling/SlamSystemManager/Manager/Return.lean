import SlamSystemManager.Manager.Runs

/-!
# The way back to WAIT_MODE

Whatever has happened, the manager is not stuck. The threads that are midway come to their ends;
from the state of rest they leave, a tick of the sensor timer with ready sensors or a request to
stop or to recover leads on, to WAIT_MODE or by ERROR and a recovery.
-/

open TransitionSystem

namespace SlamSystemManager.Manager

/-! ## Assistance -/

/-- What is asked is available, the sensors are ready and every deadline has passed. -/
def calmEnv : Env := { readyEnv with timedOut := true }

/-- The threads go on in calm surroundings, the sensor timer ticks, and an operator stops or
recovers. -/
def Assists (_ : Sys) : Action → Prop
  | .call request => request ∈ [.recover, .stopMapping, .stopLocalization, .sensorTimer]
  | .handler env | .operation env => env = calmEnv
  | _ => False

theorem assists_handler (s : Sys) : Assists s (.handler calmEnv) := rfl

theorem assists_operation (s : Sys) : Assists s (.operation calmEnv) := rfl

namespace Return

variable {config : Config}

/-! ## Threads that come to rest -/

theorem looksAgain_calmEnv (o : Operation) : o.looksAgain calmEnv = false := by
  unfold Operation.looksAgain
  split <;> rfl

theorem Reachable.assisted {s s' : Sys} (h : Reachable config s)
    (hsteps : Steps (Sys.step config) Assists s s') : Reachable config s' :=
  Reaches.steps h (hsteps.mono fun _ _ _ ↦ trivial)

/-- From every state the threads come to rest. -/
theorem resting (s : Sys) : CanReach (Sys.step config) Assists Sys.Resting s := by
  have hends (s : Sys) : CanReach (Sys.step config) Assists
      (fun s' ↦ s'.handler = s.handler ∧ s'.operation = none) s := by
    cases hsome : s.operation with
    | none => exact .refl ⟨rfl, hsome⟩
    | some o =>
      refine (operation_runs (fun _ ↦ calmEnv) (fun s _ ↦ assists_operation s)
        looksAgain_calmEnv (fun _ _ ↦ True) (fun _ ↦ True) (fun _ _ _ _ _ ↦ trivial)
        (fun _ _ ↦ trivial) hsome trivial).mono ?_
      rintro s' ⟨hhandler, -, hended, -⟩
      exact ⟨hhandler, hended⟩
  refine (hends s).bind fun s' _ ⟨_, hended⟩ ↦ ?_
  cases hsome : s'.handler with
  | none => exact .refl ⟨hsome, hended⟩
  | some h =>
    refine (handler_runs (fun _ ↦ calmEnv) (fun s _ ↦ assists_handler s) (fun _ _ ↦ True)
      (fun _ _ ↦ True) (fun s h _ ↦ by unfold Leads; split <;> trivial) hended hsome
      trivial).bind ?_
    refine fun last _ ⟨hnone, _⟩ ↦ (hends last).mono ?_
    rintro final ⟨hhandler, hended⟩
    exact ⟨hhandler.trans hnone, hended⟩

/-! ## Out of the modes -/

theorem state_saveLastPoseStep {s s' : Shared} {pc : SaveLastPose} {next : SaveNext}
    (h : saveLastPoseStep config s pc = (s', next)) : s'.currentState = s.currentState := by
  have hsave := saveLastPoseStep_effect config s pc
  rw [h] at hsave
  exact hsave.state

/-- An operator's stop of a mode on its way. -/
def Leaves (s : Shared) : Operation → Prop
  | .stopMapping _ => s.currentState = .mapping
  | .stopLocalization .resetSession | .stopLocalization .resetQuality =>
    s.currentState = .waitMode
  | .stopLocalization _ => s.currentState.isLocalizationState = true
  | .fail _ _ | .enterError =>
    s.currentState = .mapping ∨ s.currentState.isLocalizationState = true
  | .finish => s.currentState = .waitMode ∨ s.currentState = .error
  | _ => False

theorem leaves_step (s : Shared) (o : Operation) (h : Leaves s o) (next : Operation)
    (hnext : (o.step config calmEnv s).2 = some next) :
    Leaves (o.step config calmEnv s).1 next := by
  cases o with
  | stopMapping pc =>
    cases hnext
    have hstate : s.currentState = .mapping := h
    change Leaves (pc.step calmEnv s).1 (pc.step calmEnv s).2
    cases pc with
    | stop stage =>
      simp only [StopMapping.step]
      split
      all_goals
        rename_i hstop
        have hsame := (Phase.state_stopStep hstop).trans hstate
      · exact hsame
      · exact Or.inl hsame
      · exact hsame
    | unselect =>
      rw [StopMapping.step, if_pos hstate]
      exact hstate
    | toWait => exact Or.inl (currentState_transitionTo_of (by rw [hstate]; rfl))
  | stopLocalization pc =>
    cases hnext
    change Leaves (pc.step config calmEnv s).1 (pc.step config calmEnv s).2
    cases pc with
    | save pc =>
      have hstate : s.currentState.isLocalizationState = true := h
      simp only [StopLocalization.step]
      split
      all_goals
        rename_i hsave
        have hsame := state_saveLastPoseStep hsave
        rw [← hsame] at hstate
      · exact hstate
      · exact hstate
      · exact Or.inr hstate
    | stop stage =>
      have hstate : s.currentState.isLocalizationState = true := h
      simp only [StopLocalization.step]
      split
      all_goals
        rename_i hstop
        have hsame := Phase.state_stopStep hstop
        rw [← hsame] at hstate
      · exact hstate
      · exact Or.inr hstate
      · exact hstate
    | unselect =>
      have hstate : s.currentState.isLocalizationState = true := h
      rw [StopLocalization.step, if_pos hstate]
      exact hstate
    | toWait =>
      have hstate : s.currentState.isLocalizationState = true := h
      refine currentState_transitionTo_of ?_
      revert hstate
      cases s.currentState <;> decide
    | resetSession => exact h
    | resetQuality => exact Or.inl h
  | fail code message =>
    cases hnext
    exact h
  | enterError =>
    cases hnext
    refine Or.inr (currentState_transitionTo_of ?_)
    rcases h with hstate | hstate
    · rw [hstate]
      rfl
    · revert hstate
      cases s.currentState <;> decide
  | finish => cases hnext
  | _ => exact h.elim

/-! ## Out of ERROR -/

/-- In calm surroundings a stop fails of a leader that is not running alone. -/
theorem notRunning_of_stopStep {leader : Leader} {s s' : Shared} {stage : StopStage}
    {what : String} (h : stopStep calmEnv leader s stage = (s', .inr (.error what))) :
    s'.isRunning leader = false := by
  cases stage <;> simp only [stopStep] at h <;> split_ifs at h <;> cases h <;> simp_all [calmEnv]
  all_goals contradiction

/-- A recovery on its way, which has stopped every leader it has found. -/
def Recovers (s : Shared) : Operation → Prop
  | .recovery (.checkRunning _ errors) | .recovery (.stop _ errors _) =>
    s.currentState = .recovering ∧ errors = []
  | .recovery (.recheck leader errors _) =>
    s.currentState = .recovering ∧ errors = [] ∧ s.isRunning leader = false
  | .recovery (.clear status) => s.currentState = .recovering ∧ status.sensorReady = true
  | .recovery (.resume target) => s.currentState = .recovering ∧ target = .waitMode
  | .recovery _ => s.currentState = .recovering
  | .finish => s.currentState = .waitMode
  | _ => False

theorem recovers_afterLeader {s : Shared} (hstate : s.currentState = .recovering)
    (leader : Leader) : Recovers s (Recovery.afterLeader leader []) := by
  cases leader
  · exact ⟨hstate, rfl⟩
  · exact hstate

theorem recovers_step (s : Shared) (o : Operation) (h : Recovers s o) (next : Operation)
    (hnext : (o.step config calmEnv s).2 = some next) :
    Recovers (o.step config calmEnv s).1 next := by
  cases o with
  | recovery pc =>
    cases hnext
    change Recovers (pc.step calmEnv s).1 (pc.step calmEnv s).2
    cases pc with
    | checkRunning leader errors =>
      obtain ⟨hstate, rfl⟩ : s.currentState = .recovering ∧ errors = [] := h
      simp only [Recovery.step]
      split
      · exact ⟨hstate, rfl⟩
      · exact recovers_afterLeader hstate leader
    | stop leader errors stage =>
      obtain ⟨hstate, rfl⟩ : s.currentState = .recovering ∧ errors = [] := h
      simp only [Recovery.step]
      split
      all_goals
        rename_i hstop
        have hsame := (Phase.state_stopStep hstop).trans hstate
      · exact ⟨hsame, rfl⟩
      · exact ⟨hsame, rfl, notRunning_of_stopStep hstop⟩
      · exact recovers_afterLeader hsame leader
    | recheck leader errors error =>
      obtain ⟨hstate, rfl, hdead⟩ :
        s.currentState = .recovering ∧ errors = [] ∧ s.isRunning leader = false := h
      simp only [Recovery.step, hdead]
      exact recovers_afterLeader hstate leader
    | resetSession | resetQuality => exact h
    | readSensors => exact ⟨h, rfl⟩
    | clear status =>
      obtain ⟨hstate, hready⟩ : s.currentState = .recovering ∧ status.sensorReady = true := h
      rw [Recovery.step, if_neg (not_not.mpr hstate), if_pos hready]
      exact ⟨hstate, rfl⟩
    | resume target =>
      obtain ⟨hstate, rfl⟩ : s.currentState = .recovering ∧ target = .waitMode := h
      have hcan : s.currentState.canTransition .waitMode = true := by
        rw [hstate]
        rfl
      rw [Recovery.step, if_pos hcan]
      exact currentState_transitionTo_of hcan
  | finish => cases hnext
  | _ => exact h.elim

/-! ## What is asked for at rest -/

/-- A tick of the sensor timer that finds its sensors ready. -/
def Settles (s : Shared) : Handler → Prop
  | .sensorTick .readStatus =>
    s.currentState = .sensorStarting ∨ s.currentState = .sensorReady
  | .sensorTick (.snapshot status _) => status.sensorReady = true ∧
      (s.currentState = .sensorStarting ∨ s.currentState = .sensorReady)
  | .sensorTick .clearError | .sensorTick .toReady => s.currentState = .sensorStarting
  | .sensorTick .toWait => s.currentState = .sensorReady
  | _ => False

theorem settles_step (s : Shared) (h : Handler) (hs : Settles s h) :
    Leads Settles (fun s' o ↦ o = none ∧ s'.currentState = .waitMode)
      (h.step config calmEnv s) := by
  cases h with
  | sensorTick pc =>
    cases pc with
    | readStatus => exact ⟨rfl, hs⟩
    | snapshot status now =>
      obtain ⟨hready, hstate⟩ : status.sensorReady = true ∧
        (s.currentState = .sensorStarting ∨ s.currentState = .sensorReady) := hs
      change Leads _ _ (sensorSnapshot config status now s)
      rw [sensorSnapshot, if_pos hready]
      rcases hstate with hstate | hstate
      · rw [if_pos hstate]
        exact hstate
      · rw [if_neg (by simp [hstate]), if_pos hstate]
        exact hstate
    | clearError => exact hs
    | toReady =>
      have hstate : s.currentState = .sensorStarting := hs
      exact currentState_transitionTo_of (by rw [hstate]; rfl)
    | toWait =>
      have hstate : s.currentState = .sensorReady := hs
      exact ⟨rfl, currentState_transitionTo_of (by rw [hstate]; rfl)⟩
    | _ => exact hs.elim
  | _ => exact hs.elim

/-- A request that is accepted, and the operation it launches. -/
def Launches (entered : SystemState → Prop) (launched : Operation) (s : Shared) :
    Handler → Prop
  | .stopMapping => s.operationInProgress = false ∧ s.currentState = .mapping ∧
      launched = .stopMapping (.stop .check) ∧ entered .mapping
  | .stopLocalization => s.operationInProgress = false ∧
      s.currentState.isLocalizationState = true ∧
      launched = .stopLocalization (.save .poseValid) ∧ entered s.currentState
  | .recover => s.operationInProgress = false ∧ s.currentState = .error ∧
      launched = .recovery (.checkRunning .mapping []) ∧ entered .recovering
  | .launch operation _ => operation = launched ∧ entered s.currentState
  | _ => False

theorem launches_step (entered : SystemState → Prop) (launched : Operation) (s : Shared)
    (h : Handler) (hs : Launches entered launched s h) :
    Leads (Launches entered launched)
      (fun s' o ↦ o = some launched ∧ entered s'.currentState) (h.step config calmEnv s) := by
  cases h with
  | stopMapping =>
    obtain ⟨hfree, hstate, rfl, hentered⟩ := hs
    change Leads _ _ (stopMappingStep s)
    simp only [stopMappingStep, hstate, hfree]
    exact ⟨rfl, hstate ▸ hentered⟩
  | stopLocalization =>
    obtain ⟨hfree, hstate, rfl, hentered⟩ := hs
    change Leads _ _ (stopLocalizationStep s)
    simp only [stopLocalizationStep, hstate, hfree]
    exact ⟨rfl, hentered⟩
  | recover =>
    obtain ⟨hfree, hstate, rfl, hentered⟩ := hs
    change Leads _ _ (recoverStep s)
    have hcan : s.currentState.canTransition .recovering = true := by
      rw [hstate]
      rfl
    have hnext := currentState_transitionTo_of hcan
    simp only [recoverStep, hfree, hcan]
    simp only [hstate]
    refine ⟨rfl, ?_⟩
    change entered (s.transitionTo .recovering).currentState
    rwa [hnext]
  | launch operation reply =>
    obtain ⟨rfl, hentered⟩ := hs
    exact ⟨rfl, hentered⟩
  | _ => exact hs.elim

/-- A request at rest launches its operation, which runs to its end. -/
theorem served (entered : SystemState → Prop) (A : Shared → Operation → Prop)
    (goal : Shared → Prop)
    (hstep : ∀ s o, A s o → ∀ next, (o.step config calmEnv s).2 = some next →
      A (o.step config calmEnv s).1 next)
    (hfinish : ∀ s, A s .finish → goal s.finishOperation) {s : Sys} (hrest : s.Resting)
    (request : Request) (hassists : Assists s (.call request)) (launched : Operation)
    (hrequest : Launches entered launched s.shared request.handler)
    (hlaunched : ∀ s, entered s.currentState → A s launched) :
    CanReach (Sys.step config) Assists (fun s' ↦ s'.Resting ∧ goal s'.shared) s := by
  have htimer : request ≠ .lastPoseTimer := by
    rintro rfl
    simp [Assists] at hassists
  refine .head hassists (call_of_resting hrest htimer) ?_
  refine (handler_runs (fun _ ↦ calmEnv) (fun s _ ↦ assists_handler s) (Launches entered launched) _
    (launches_step entered launched) (s := { s with handler := some request.handler })
    hrest.operation rfl hrequest).bind ?_
  refine fun s' _ ⟨hhandler, _, hoperation, hentered⟩ ↦ ?_
  refine (operation_runs (fun _ ↦ calmEnv) (fun s _ ↦ assists_operation s) looksAgain_calmEnv A goal
    hstep hfinish hoperation (hlaunched _ hentered)).mono ?_
  rintro last ⟨hsame, -, hended, hgoal⟩
  exact ⟨⟨hsame.trans hhandler, hended⟩, hgoal⟩

/-- The manager rests in WAIT_MODE. -/
def Home (s : Sys) : Prop := s.Resting ∧ s.shared.currentState = .waitMode

theorem home_of_idle {s : Sys} (hrest : s.Resting)
    (hidle : s.shared.currentState.isIdle = true) :
    CanReach (Sys.step config) Assists Home s := by
  by_cases hstate : s.shared.currentState = .waitMode
  · exact .refl ⟨hrest, hstate⟩
  · have hwaits : s.shared.currentState = .sensorStarting ∨
        s.shared.currentState = .sensorReady := by
      revert hidle hstate
      cases s.shared.currentState <;> decide
    have hassists : Assists s (.call .sensorTimer) := by simp [Assists]
    refine .head hassists (call_of_resting hrest (by simp)) ?_
    refine (handler_runs (fun _ ↦ calmEnv) (fun s _ ↦ assists_handler s) Settles _ settles_step
      (s := { s with handler := some (Request.handler .sensorTimer) }) hrest.operation rfl
      hwaits).mono ?_
    rintro s' ⟨hhandler, -, hended, hhome⟩
    exact ⟨⟨hhandler, hended⟩, hhome⟩

theorem home_of_error {s : Sys} (hrest : s.Resting)
    (hfree : s.shared.operationInProgress = false) (hstate : s.shared.currentState = .error) :
    CanReach (Sys.step config) Assists Home s :=
  served (· = .recovering) Recovers (fun s ↦ s.currentState = .waitMode) recovers_step
    (fun _ h ↦ h) hrest .recover (by simp [Assists]) _ ⟨hfree, hstate, rfl, rfl⟩
    fun _ hentered ↦ ⟨hentered, rfl⟩

/-- Where the stop of a mode ends. -/
def Left (s : Shared) : Prop := s.currentState = .waitMode ∨ s.currentState = .error

theorem home_of_left {s : Sys} (hreach : Reachable config s)
    (h : CanReach (Sys.step config) Assists (fun s' ↦ s'.Resting ∧ Left s'.shared) s) :
    CanReach (Sys.step config) Assists Home s := by
  refine h.bind fun s' hsteps ⟨hrest, hleft⟩ ↦ ?_
  rcases hleft with hstate | hstate
  · exact .refl ⟨hrest, hstate⟩
  · exact home_of_error hrest ((Reachable.assisted hreach hsteps).free hrest) hstate

theorem home_of_mapping {s : Sys} (hreach : Reachable config s) (hrest : s.Resting)
    (hstate : s.shared.currentState = .mapping) :
    CanReach (Sys.step config) Assists Home s := by
  apply home_of_left hreach
  exact served (· = .mapping) Leaves Left leaves_step (fun _ h ↦ h) hrest .stopMapping
    (by simp [Assists]) _ ⟨hreach.free hrest, hstate, rfl, rfl⟩ fun _ hentered ↦ hentered

theorem home_of_localization {s : Sys} (hreach : Reachable config s) (hrest : s.Resting)
    (hstate : s.shared.currentState.isLocalizationState = true) :
    CanReach (Sys.step config) Assists Home s := by
  apply home_of_left hreach
  exact served (·.isLocalizationState = true) Leaves Left leaves_step (fun _ h ↦ h) hrest
    .stopLocalization (by simp [Assists]) _ ⟨hreach.free hrest, hstate, rfl, hstate⟩
    fun _ hentered ↦ hentered

/-- From every reachable state the threads come to rest and an operator leads on to WAIT_MODE. -/
theorem home (s : Sys) (h : Reachable config s) : CanReach (Sys.step config) Assists Home s := by
  refine (resting s).bind fun s' hsteps hrest ↦ ?_
  have hreach := Reachable.assisted h hsteps
  rcases hreach.rest hrest with hidle | hstate | hstate | hstate | hstate
  · exact home_of_idle hrest hidle
  · exact home_of_mapping hreach hrest hstate
  · exact home_of_localization hreach hrest (by rw [hstate]; rfl)
  · exact home_of_localization hreach hrest (by rw [hstate]; rfl)
  · exact home_of_error hrest (hreach.free hrest) hstate

end Return

/-- Where no leader is started automatically, none is alive in WAIT_MODE. -/
theorem quiet_of_wait {s : Sys} (h : ReachableUnstarted config s)
    (hstate : s.shared.currentState = .waitMode) : ModeExclusion.Quiet s.shared :=
  ModeExclusion.quiet_of_idle h.exclusiveModes (by rw [hstate]; rfl)

end SlamSystemManager.Manager
