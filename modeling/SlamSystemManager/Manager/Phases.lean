import SlamSystemManager.Manager.Exclusion

/-!
# The states of the phases

The states the manager can be in while a thread stands at a program counter. A body that runs in a
mode is left in its mode or in ERROR by everyone else; RECOVERING is left by the recovery alone; and
a tick of the sensor timer that has classified the state acts on one of the states it has
classified, or on where an operation has led from there.
-/

open TransitionSystem

namespace SlamSystemManager.Manager

namespace Phase

open ModeExclusion

/-! ## Assertions -/

/-- The states in which a timer may find its failure after it has read an active state. -/
def failing (state : SystemState) : Bool :=
  state.isActiveSlamState || state = .error || state = .waitMode

def operation : Operation → SystemState → Bool
  | .startMapping _ _ (.stopAborted _), state => state = .error
  | .startMapping _ _ _, state => state = .mappingStarting || state = .error
  | .startLocalization _ _, state => state.isLocalizationState || state = .error
  | .stopMapping _, state => state = .mapping || state = .error
  | .saveMap _ _, state => state = .mapSaving || state = .error
  | .stopLocalization .resetSession, state | .stopLocalization .resetQuality, state =>
    restOrError state
  | .stopLocalization _, state => state.isLocalizationState || state = .error
  | .stopAfterFailure _, state => state = .error
  | .recovery _, state => state = .recovering
  | _, _ => true

def handler : Handler → SystemState → Bool
  | .startMapping _ .checkLocalization, _ | .startMapping _ .checkMapping, _
  | .startMapping _ .saveService, _ | .startMapping _ .acquire, _ => true
  | .startMapping _ _, state => state.isIdle
  | .startLocalization _ .checkMapping, _ | .startLocalization _ .saveService, _
  | .startLocalization _ .checkLocalization, _ | .startLocalization _ .acquire, _ => true
  | .startLocalization _ _, state => state.isIdle
  | .saveMap (.transition _), state => state = .mapping
  | .saveMap (.path _), state => state = .mapSaving
  | .sensorTick .clearError, state | .sensorTick .toReady, state | .sensorTick .toWait, state
  | .sensorTick (.restart _), state | .sensorTick (.reportWaiting _), state => restOrError state
  | .sensorTick (.reportFailure _), state | .sensorTick .enterError, state => failing state
  | .sensorTick .mappingRunning, state | .sensorTick (.localizationRunning _), state
  | .sensorTick (.claim _ _), state => state = .error
  | .processTick .snapshot, _ => true
  | .processTick _, state => failing state
  | .launch launched _, state => operation launched state
  | _, _ => true

def outline : ProofOutline :=
  { operation := fun s o ↦ ∀ running, o = some running → operation running s.currentState = true
    handler := fun s h ↦ handler h s.currentState = true }

attribute [local simp] operation handler

/-! ## Drift -/

/-- How the state moves outside the steps of the owner of the token. -/
def Drift (before after : SystemState) : Prop :=
  after = before ∨ (after = .error ∧ failing before = true) ∨
    (before.isLocalizationState = true ∧ after.isLocalizationState = true) ∨
    (before.isIdle = true ∧ after.isIdle = true)

theorem operation_drift {before after : SystemState} (h : Drift before after)
    (running : Operation) (hs : operation running before = true) :
    operation running after = true := by
  rcases h with rfl | ⟨rfl, hfailing⟩ | ⟨hbefore, hafter⟩ | ⟨hbefore, hafter⟩
  · exact hs
  · -- RECOVERING is no state in which a timer finds a failure
    cases running with
    | startMapping map created pc => cases pc <;> rfl
    | stopLocalization pc => cases pc <;> rfl
    | recovery pc =>
      have hstate : before = .recovering := by simpa using hs
      rw [hstate] at hfailing
      cases hfailing
    | _ => rfl
  · cases running with
    | startMapping map created pc =>
      cases pc <;> cases before <;> cases hbefore <;> cases hs
    | stopLocalization pc =>
      cases pc <;> first
        | (simp [hafter]; done)
        | (cases before <;> cases hbefore <;> cases hs)
    | startLocalization => simp [hafter]
    | stopMapping | saveMap | stopAfterFailure | recovery =>
      cases before <;> cases hbefore <;> cases hs
    | fail | enterError | finish => rfl
  · cases running with
    | startMapping map created pc =>
      cases pc <;> cases before <;> cases hbefore <;> cases hs
    | stopLocalization pc =>
      cases pc <;> first
        | (simp [restOrError, hafter]; done)
        | (cases before <;> cases hbefore <;> cases hs)
    | startLocalization | stopMapping | saveMap | stopAfterFailure | recovery =>
      cases before <;> cases hbefore <;> cases hs
    | fail | enterError | finish => rfl

/-- How adapter callbacks and the environment move the state. -/
theorem drift_of_interference {s s' : Shared} (h : Interference s s') :
    s'.currentState = s.currentState ∨ (s.currentState.isLocalizationState = true ∧
      s'.currentState.isLocalizationState = true) := by
  rcases h.state with hsame | ⟨hcan, hafter⟩
  · exact Or.inl hsame
  · have hlocalization : s'.currentState.isLocalizationState = true := by
      rcases hafter with hafter | hafter <;> rw [hafter] <;> rfl
    exact Or.inr ⟨SystemState.isLocalizationState_of_canTransition hcan hlocalization
      (by rcases hafter with hafter | hafter <;> simp [hafter]), hlocalization⟩

theorem failing_of_localization {state : SystemState} (h : state.isLocalizationState = true) :
    failing state = true := by
  simp [failing, SystemState.isActiveSlamState, h]

theorem handler_interference {before after : SystemState} {h : Handler}
    (hmoves : after = before ∨
      (before.isLocalizationState = true ∧ after.isLocalizationState = true))
    (hs : handler h before = true) : handler h after = true := by
  rcases hmoves with rfl | ⟨hbefore, hafter⟩
  · exact hs
  · have hdrift : Drift before after := Or.inr (Or.inr (Or.inl ⟨hbefore, hafter⟩))
    have hlaunch := fun running ↦ operation_drift hdrift running
    have hfailing := failing_of_localization hafter
    cases h with
    | startMapping name pc =>
      cases pc <;> first | rfl | (cases before <;> cases hbefore <;> cases hs)
    | startLocalization name pc =>
      cases pc <;> first | rfl | (cases before <;> cases hbefore <;> cases hs)
    | saveMap pc => cases pc <;> first | rfl | (cases before <;> cases hbefore <;> cases hs)
    | sensorTick pc =>
      cases pc <;> first | rfl | exact hfailing | (cases before <;> cases hbefore <;> cases hs)
    | processTick pc => cases pc <;> first | rfl | exact hfailing
    | launch launched reply => exact hlaunch launched hs
    | _ => rfl

/-! ## The operation thread -/

/-- What a step of a body leads to. -/
def After (r : Shared × Operation) : Prop := operation r.2 r.1.currentState = true

theorem state_stopStep {env : Env} {leader : Leader} {s s' : Shared} {stage : StopStage}
    {next : StopStage ⊕ StopResult} (h : stopStep env leader s stage = (s', next)) :
    s'.currentState = s.currentState := by
  rcases stopStep_cases h with rfl | ⟨-, rfl, -⟩ <;> rfl

theorem startMapping_step (config : Config) (env : Env) (map : String) (created : Bool)
    (s : Shared) (pc : StartMapping)
    (h : operation (.startMapping map created pc) s.currentState = true) :
    After (pc.step config env map created s) := by
  cases pc with
  | stopTimedOut stage | stopAborted stage =>
    simp only [StartMapping.step]
    split
    all_goals
      rename_i hstop
      simp only [After, state_stopStep hstop]
      first | exact h | rfl
  | started =>
    simp only [StartMapping.step]
    by_cases hcan : s.currentState.canTransition .mapping = true
    · simp only [hcan, if_true]
      rfl
    · have herror : s.currentState = .error := by
        simp only [operation, Bool.or_eq_true, decide_eq_true_eq] at h
        rcases h with hstarting | herror
        · rw [hstarting] at hcan
          exact absurd rfl hcan
        · exact herror
      have hstays : (s.transitionTo .mapping).currentState = .error := by
        rw [currentState_transitionTo, if_neg hcan, herror]
      simp only [hcan, After]
      exact decide_eq_true hstays
  | unselect | cleanup =>
    simp only [StartMapping.step, errorOrFinish]
    repeat' split
    all_goals first | rfl | exact h
  | _ =>
    simp only [StartMapping.step]
    repeat' split
    all_goals exact h

theorem startLocalization_step (config : Config) (env : Env) (map : String) (s : Shared)
    (pc : StartLocalization)
    (h : operation (.startLocalization map pc) s.currentState = true) :
    After (pc.step config env map s) := by
  cases pc with
  | stopTimedOut missing stage | stopAborted stage =>
    simp only [StartLocalization.step]
    split
    all_goals
      rename_i hstop
      simp only [After, state_stopStep hstop]
      first | exact h | rfl
  | started =>
    have hstate : operation (.startLocalization map .started)
        (s.transitionTo .relocalizing).currentState = true := by
      rw [currentState_transitionTo]
      split
      · rfl
      · exact h
    simp only [StartLocalization.step]
    repeat' split
    all_goals first | rfl | exact hstate
  | publish pose attempt =>
    simp only [StartLocalization.step]
    split
    · rfl
    · rename_i hpublished
      obtain ⟨published, rfl⟩ := publishInitialPose_eq_ok hpublished
      exact h
  | _ =>
    simp only [StartLocalization.step, errorOrFinish]
    repeat' split
    all_goals first | rfl | exact h

theorem stopMapping_step (env : Env) (s : Shared) (pc : StopMapping)
    (h : operation (.stopMapping pc) s.currentState = true) : After (pc.step env s) := by
  cases pc with
  | stop stage =>
    simp only [StopMapping.step]
    split
    all_goals
      rename_i hstop
      simp only [After, state_stopStep hstop]
      first | exact h | rfl
  | unselect =>
    simp only [StopMapping.step]
    split
    · exact h
    · rfl
  | toWait => rfl

theorem saveMap_step (config : Config) (env : Env) (map : String) (s : Shared) (pc : SaveMap)
    (h : operation (.saveMap map pc) s.currentState = true) :
    After (pc.step config env map s) := by
  cases pc with
  | stop saved saveError stage =>
    simp only [SaveMap.step]
    split
    all_goals
      rename_i hstop
      simp only [After, state_stopStep hstop]
      exact h
  | toWait => rfl
  | checkState succeeded =>
    simp only [SaveMap.step]
    repeat' split
    all_goals first | exact h | rfl
  | _ =>
    simp only [SaveMap.step]
    repeat' split
    all_goals exact h

theorem stopLocalization_step (config : Config) (env : Env) (s : Shared) (pc : StopLocalization)
    (h : operation (.stopLocalization pc) s.currentState = true) :
    After (pc.step config env s) := by
  cases pc with
  | save pc =>
    have hstate := (saveLastPoseStep_effect config s pc).state
    simp only [StopLocalization.step, Operation.catchException]
    split
    all_goals
      rename_i hsave
      rw [hsave] at hstate
      simp only at hstate
      simp only [After, hstate]
      first | exact h | rfl
  | stop stage =>
    simp only [StopLocalization.step]
    split
    all_goals
      rename_i hstop
      simp only [After, state_stopStep hstop]
      first | exact h | rfl
  | unselect =>
    simp only [StopLocalization.step, After]
    split
    · exact h
    · rename_i hother
      simp_all [restOrError]
  | toWait =>
    simp only [operation, Bool.or_eq_true, decide_eq_true_eq] at h
    simp only [StopLocalization.step, After, operation, currentState_transitionTo]
    rcases h with hlocalization | herror
    · have hcan : s.currentState.canTransition .waitMode = true := by
        cases hstate : s.currentState <;> rw [hstate] at hlocalization <;>
          cases hlocalization <;> rfl
      rw [if_pos hcan]
      rfl
    · rw [herror]
      rfl
  | resetSession => exact h
  | resetQuality => rfl

theorem stopAfterFailure_step (env : Env) (s : Shared) (pc : StopAfterFailure)
    (h : operation (.stopAfterFailure pc) s.currentState = true) : After (pc.step env s) := by
  cases pc with
  | stopMapping localizationRunning stage =>
    simp only [StopAfterFailure.step]
    split
    · rename_i hstop
      simp only [After, state_stopStep hstop]
      exact h
    · rename_i hstop
      simp only [After, state_stopStep hstop]
      split
      · exact h
      · rfl
  | stopLocalization stage =>
    simp only [StopAfterFailure.step]
    split
    all_goals
      rename_i hstop
      simp only [After, state_stopStep hstop]
      first | exact h | rfl

theorem recovery_step (env : Env) (s : Shared) (pc : Recovery)
    (h : operation (.recovery pc) s.currentState = true) : After (pc.step env s) := by
  cases pc with
  | stop leader errors stage =>
    simp only [Recovery.step]
    split
    all_goals
      rename_i hstop
      simp only [After, state_stopStep hstop, Recovery.afterLeader]
      repeat' split
      all_goals first | exact h | rfl
  | resume target =>
    simp only [Recovery.step]
    split <;> rfl
  | clear status =>
    simp only [Recovery.step]
    split
    · rfl
    · exact h
  | _ =>
    simp only [Recovery.step, Recovery.afterLeader]
    repeat' split
    all_goals first | exact h | rfl

theorem operation_step (config : Config) (env : Env) (s : Shared) (running : Operation)
    (h : operation running s.currentState = true) :
    outline.operation (running.step config env s).1 (running.step config env s).2 := by
  refine running.step_rule config env s (fun _ _ next hnext ↦ ?_) (fun _ next hnext ↦ ?_)
    fun s' next hrun _ _ other hother ↦ ?_
  · cases hnext
    rfl
  · cases hnext
  · cases hother
    cases running with
    | startMapping map created pc =>
      cases hrun
      exact startMapping_step config env map created s pc h
    | startLocalization map pc =>
      cases hrun
      exact startLocalization_step config env map s pc h
    | stopMapping pc =>
      cases hrun
      exact stopMapping_step env s pc h
    | saveMap map pc =>
      cases hrun
      exact saveMap_step config env map s pc h
    | stopLocalization pc =>
      cases hrun
      exact stopLocalization_step config env s pc h
    | stopAfterFailure pc =>
      cases hrun
      exact stopAfterFailure_step env s pc h
    | recovery pc =>
      cases hrun
      exact recovery_step env s pc h
    | fail | enterError =>
      cases hrun
      rfl
    | finish => cases hrun

/-! ## Handlers -/

/-- Outside the steps that enter a mode a handler moves the state as the drift allows. -/
theorem drift_of_handler (config : Config) (env : Env) (s : Shared) {h : Handler}
    (hs : handler h s.currentState = true) (hmode : entersMode h = false) :
    Drift s.currentState (h.step config env s).1.currentState := by
  rcases (h.effect config env s).state with hsame | ⟨htarget, hcan⟩
  · exact Or.inl hsame
  · unfold Handler.target at htarget
    split at htarget
    all_goals simp only [Option.some.injEq, reduceCtorEq] at htarget
    case h_5 | h_6 | h_8 =>
      -- the idle states are entered from the idle states
      rw [← htarget] at hcan ⊢
      refine Or.inr (Or.inr (Or.inr ⟨?_, rfl⟩))
      simp only [handler, restOrError, Bool.or_eq_true, decide_eq_true_eq] at hs
      rcases hs with hidle | herror
      · exact hidle
      · rw [herror] at hcan
        cases hcan
    case h_7 | h_9 => exact Or.inr (Or.inl ⟨htarget.symm, hs⟩)
    all_goals cases hmode

theorem sensorTick_continues (config : Config) (env : Env) (s : Shared) (pc : SensorTick)
    (h : handler (.sensorTick pc) s.currentState = true) :
    outline.Continues (pc.step config env s) := by
  cases pc with
  | snapshot status now =>
    simp only [SensorTick.step, sensorSnapshot]
    split_ifs with hready hstarting hsensor hactive hgrace hidle hwaiting
    · simp [ProofOutline.Continues, outline, hstarting, restOrError, SystemState.isIdle]
    · simp [ProofOutline.Continues, outline, hsensor, restOrError, SystemState.isIdle]
    · trivial
    · trivial
    · simp [ProofOutline.Continues, outline, failing, hactive]
    · rcases hidle with hstate | hstate <;>
        simp [ProofOutline.Continues, outline, hstate, restOrError, SystemState.isIdle]
    · simp [ProofOutline.Continues, outline, hwaiting.1, restOrError, SystemState.isIdle]
    · trivial
  | readStatus => rfl
  | clearError => exact h
  | toReady => exact restOrError_transitionTo s rfl h
  | reportFailure status => exact h
  | enterError =>
    have hstate : (s.transitionTo .error).currentState = .error := by
      rw [currentState_transitionTo]
      split
      · rfl
      · rename_i hcan
        cases hstate : s.currentState <;> rw [hstate] at hcan h <;>
          first | rfl | exact absurd rfl hcan | cases h
    exact decide_eq_true hstate
  | mappingRunning | localizationRunning => exact h
  | claim mapping localization =>
    simp only [SensorTick.step]
    split_ifs
    · exact h
    · exact h
    · trivial
  | restart status =>
    simp only [SensorTick.step]
    split
    · exact restOrError_transitionTo s rfl h
    · trivial
  | toWait => trivial
  | reportWaiting status =>
    simp only [SensorTick.step]
    split <;> trivial

theorem startMapping_continues (config : Config) (env : Env) (name : String) (s : Shared)
    (pc : StartMappingRequest) (h : handler (.startMapping name pc) s.currentState = true) :
    outline.Continues (pc.step config env name s) := by
  cases pc with
  | checkLocalization | checkMapping | saveService =>
    simp only [StartMappingRequest.step]
    repeat' split
    all_goals trivial
  | acquire => exact ProofOutline.continues_acquireForStart id
  | findMap =>
    simp only [StartMappingRequest.step]
    repeat' split
    · trivial
    · exact h
    · exact h
  | create =>
    simp only [StartMappingRequest.step]
    split
    · trivial
    · exact h
  | checkOutput created =>
    simp only [StartMappingRequest.step]
    repeat' split
    · trivial
    · trivial
    · trivial
    · exact h
  | select created => exact h
  | transition created =>
    simp only [StartMappingRequest.step]
    by_cases hcan : s.currentState.canTransition .mappingStarting = true
    · simp [hcan, ProofOutline.Continues, outline, currentState_transitionTo]
    · have hsame : s.transitionTo .mappingStarting = s := by simp [Shared.transitionTo, hcan]
      simp only [hcan, hsame]
      cases created <;> exact h
  | cleanup => exact h
  | unselect => trivial

theorem startLocalization_continues (config : Config) (env : Env) (name : String) (s : Shared)
    (pc : StartLocalizationRequest)
    (h : handler (.startLocalization name pc) s.currentState = true) :
    outline.Continues (pc.step config env name s) := by
  cases pc with
  | checkMapping | saveService | checkLocalization =>
    simp only [StartLocalizationRequest.step]
    repeat' split
    all_goals trivial
  | acquire => exact ProofOutline.continues_acquireForStart id
  | load =>
    simp only [StartLocalizationRequest.step]
    repeat' split
    · trivial
    · trivial
    · exact h
  | select | resetSession | resetQuality => exact h
  | transition =>
    simp only [StartLocalizationRequest.step]
    by_cases hcan : s.currentState.canTransition .localizationStarting = true
    · simp [hcan, ProofOutline.Continues, outline, currentState_transitionTo,
        SystemState.isLocalizationState]
    · have hsame : s.transitionTo .localizationStarting = s := by simp [Shared.transitionTo, hcan]
      simp only [hcan, hsame]
      exact h
  | unselect => trivial

theorem saveMap_continues (config : Config) (s : Shared) (pc : SaveMapRequest)
    (h : handler (.saveMap pc) s.currentState = true) :
    outline.Continues (pc.step config s) := by
  cases pc with
  | acquire =>
    simp only [SaveMapRequest.step]
    split_ifs with hstate htoken
    · trivial
    · trivial
    · simpa [ProofOutline.Continues, outline] using hstate
  | transition map =>
    have hmapping : s.currentState = .mapping := by simpa using h
    have hcan : s.currentState.canTransition .mapSaving = true := by rw [hmapping]; rfl
    simp [SaveMapRequest.step, hcan, ProofOutline.Continues, outline, currentState_transitionTo]
  | path map =>
    have hsaving : s.currentState = .mapSaving := by simpa using h
    simp only [SaveMapRequest.step]
    split
    · trivial
    · simp [ProofOutline.Continues, outline, hsaving]

theorem processTick_continues (s : Shared) (pc : ProcessTick)
    (h : handler (.processTick pc) s.currentState = true) : outline.Continues (pc.step s) := by
  cases pc with
  | snapshot =>
    simp only [ProcessTick.step]
    split_ifs with htoken hmapping hlocalization
    · trivial
    · simp [ProofOutline.Continues, outline, failing, hmapping,
        SystemState.isActiveSlamState, SystemState.isMappingState]
    · rcases hlocalization with hstate | hstate <;>
        simp [ProofOutline.Continues, outline, failing, hstate,
          SystemState.isActiveSlamState, SystemState.isMappingState,
          SystemState.isLocalizationState]
    · trivial
  | checkRunning leader =>
    simp only [ProcessTick.step]
    split
    · trivial
    · exact h
  | readExitCode | report => exact h
  | enterError => trivial

/-- What a handler continues with meets its assertion. -/
theorem handler_continues (config : Config) (env : Env) (s : Shared) (h : Handler)
    (hs : handler h s.currentState = true) : outline.Continues (h.step config env s) := by
  cases h with
  | startMapping name pc => exact startMapping_continues config env name s pc hs
  | startLocalization name pc => exact startLocalization_continues config env name s pc hs
  | saveMap pc => exact saveMap_continues config s pc hs
  | sensorTick pc => exact sensorTick_continues config env s pc hs
  | processTick pc => exact processTick_continues s pc hs
  | recover =>
    simp only [Handler.step, recoverStep]
    split_ifs with hstate htoken hcan
    · trivial
    · trivial
    · trivial
    · simp_all [ProofOutline.Continues, outline, currentState_transitionTo]
  | stopMapping =>
    simp only [Handler.step, stopMappingStep]
    split_ifs with hstate htoken
    · trivial
    · trivial
    · simp_all [ProofOutline.Continues, outline]
  | stopLocalization =>
    simp only [Handler.step, stopLocalizationStep]
    split_ifs with hstate htoken
    · trivial
    · trivial
    · simp_all [ProofOutline.Continues, outline]
  | launch launched reply =>
    intro running hrunning
    cases hrunning
    exact hs
  | _ =>
    refine ProofOutline.continues_of_follows (Handler.follows config env _ _) ?_ (by simp)
    intro next hnext
    cases hnext <;> rfl

/-- How a step of the operation thread moves the state. -/
def Moves (before after : SystemState) : Prop :=
  after = before ∨ after = .error ∨
    (before.isActiveSlamState = true ∧ (after.isActiveSlamState = true ∨ after = .waitMode)) ∨
    before = .recovering

theorem active_of_canTransition {before after : SystemState}
    (hcan : before.canTransition after = true)
    (hafter : after = .mapping ∨ after = .relocalizing) : before.isActiveSlamState = true := by
  revert hcan
  rcases hafter with rfl | rfl <;> cases before <;> decide

theorem active_of_toWait {before : SystemState} (hcan : before.canTransition .waitMode = true)
    (hrest : before.isIdle = false) (hother : before ≠ .recovering) :
    before.isActiveSlamState = true := by
  revert hcan hrest hother
  cases before <;> decide

theorem operation_moves (config : Config) (env : Env) {s : Shared} {running : Operation}
    (hrunning : operation running s.currentState = true) :
    Moves s.currentState (running.step config env s).1.currentState := by
  rcases running.effect config env s with ⟨-, hend⟩ | ⟨-, s', next, hnext, hcontinues⟩
  · rw [hend]
    exact Or.inl rfl
  · rw [hnext]
    rcases hcontinues.effect.state with hsame | ⟨htarget, hcan⟩
    · exact Or.inl hsame
    · unfold Operation.target at htarget
      split at htarget
      all_goals simp only [Option.some.injEq, reduceCtorEq] at htarget
      case h_1 =>
        refine Or.inr (Or.inr (Or.inl ⟨active_of_canTransition hcan (Or.inl htarget.symm), ?_⟩))
        exact Or.inl (htarget ▸ rfl)
      case h_2 =>
        refine Or.inr (Or.inr (Or.inl ⟨active_of_canTransition hcan (Or.inr htarget.symm), ?_⟩))
        exact Or.inl (htarget ▸ rfl)
      case h_3 | h_4 | h_5 =>
        rw [← htarget] at hcan
        refine Or.inr (Or.inr (Or.inl ⟨active_of_toWait hcan ?_ ?_, Or.inr htarget.symm⟩))
        · cases hstate : s.currentState <;> rw [hstate] at hrunning <;>
            first | rfl | cases hrunning
        · intro hstate
          rw [hstate] at hrunning
          cases hrunning
      case h_6 => exact Or.inr (Or.inr (Or.inr (by simpa using hrunning)))
      case h_7 => exact Or.inr (Or.inl htarget.symm)

theorem restOrError_moves {before after : SystemState} (h : Moves before after)
    (hs : restOrError before = true) : restOrError after = true := by
  rcases h with rfl | rfl | ⟨hactive, -⟩ | rfl
  · exact hs
  · rfl
  · cases before <;> cases hactive <;> cases hs
  · cases hs

theorem failing_moves {before after : SystemState} (h : Moves before after)
    (hs : failing before = true) : failing after = true := by
  rcases h with rfl | rfl | ⟨-, hactive | rfl⟩ | rfl
  · exact hs
  · rfl
  · simp [failing, hactive]
  · rfl
  · cases hs

theorem error_moves {before after : SystemState} (h : Moves before after)
    (hs : before = .error) : after = .error := by
  rcases h with rfl | rfl | ⟨hactive, -⟩ | rfl
  · exact hs
  · rfl
  · rw [hs] at hactive
    cases hactive
  · cases hs

/-- The operation thread leads from the states of a timer to the states of the timer. -/
theorem handler_kept {config : Config} {env : Env} {s : Shared} {running : Operation}
    {h : Handler} (hrunning : operation running s.currentState = true)
    (hidle : h.holdsToken = false) (hs : handler h s.currentState = true) :
    handler h (running.step config env s).1.currentState = true := by
  have hmoves := operation_moves config env hrunning
  cases h with
  | startMapping name pc => cases pc <;> first | rfl | cases hidle
  | startLocalization name pc => cases pc <;> first | rfl | cases hidle
  | saveMap pc => cases pc <;> first | rfl | cases hidle
  | sensorTick pc =>
    cases pc with
    | clearError | toReady | toWait | restart | reportWaiting => exact restOrError_moves hmoves hs
    | reportFailure | enterError => exact failing_moves hmoves hs
    | mappingRunning | localizationRunning | claim =>
      exact decide_eq_true (error_moves hmoves (of_decide_eq_true hs))
    | readStatus | snapshot => rfl
  | processTick pc =>
    cases pc with
    | snapshot => rfl
    | checkRunning | readExitCode | report | enterError => exact failing_moves hmoves hs
  | launch launched reply => cases hidle
  | _ => rfl

/-- A step that enters a mode finds no operation thread, or does nothing. -/
theorem operation_entersMode (config : Config) (env : Env) {s : Sys} {h : Handler}
    (hexclusive : s.Exclusive) (hsome : s.handler = some h) (hmode : entersMode h = true) :
    s.operation = none ∨ (h.step config env s.shared).1 = s.shared := by
  rcases recover_or_holdsToken hmode with rfl | hholds
  · cases htoken : s.shared.operationInProgress with
    | true =>
      refine Or.inr ?_
      simp only [Handler.step, recoverStep, htoken]
      split <;> rfl
    | false => exact Or.inl (hexclusive.free htoken).2
  · exact Or.inl (hexclusive.alone (by simp [Sys.handlerHolds, hsome, hholds]))

theorem valid (config : Config) : outline.Valid config anyAction where
  begins s request := by cases request <;> rfl
  handler s env h _ hexclusive hholds hsome := by
    have hs : handler h s.shared.currentState = true := hholds.handler h hsome
    refine ProofOutline.afterHandler_of (fun running hrunning ↦ ?_)
      (handler_continues config env s.shared h hs)
    have hoperation := hholds.operation running hrunning
    by_cases hmode : entersMode h = true
    · rcases operation_entersMode config env hexclusive hsome hmode with hended | hsame
      · rw [hended] at hrunning
        cases hrunning
      · rwa [hsame]
    · exact operation_drift (drift_of_handler config env s.shared hs (by simpa using hmode)) running
        hoperation
  operation s env running _ _ hholds hsome :=
    operation_step config env s.shared running (hholds.operation running hsome)
  handlerKept s env running h _ hexclusive hholds hsome hhandler := by
    have hidle := hexclusive.of_operation hsome
    simp only [Sys.handlerHolds, hhandler, Option.any_some] at hidle
    exact handler_kept (hholds.operation running hsome) hidle (hholds.handler h hhandler)
  interference s s' hinterference := by
    have hmoves := drift_of_interference hinterference
    refine ⟨fun o ho running hrunning ↦ ?_, fun h hs ↦ handler_interference hmoves hs⟩
    have hdrift : Drift s.currentState s'.currentState := by
      rcases hmoves with hsame | hlocalization
      · exact Or.inl hsame
      · exact Or.inr (Or.inr (Or.inl hlocalization))
    exact operation_drift hdrift running (ho running hrunning)

end Phase

theorem Reachable.phase {config : Config} {s : Sys} (h : Reachable config s) :
    Phase.outline.Holds s := by
  refine (Phase.valid config).reaches (fun s hinit running hrunning ↦ ?_) h
  cases hrunning

end SlamSystemManager.Manager
