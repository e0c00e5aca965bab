import SlamSystemManager.Manager.Token

/-!
# How long callbacks and operations take

The work left at a program counter bounds the steps its thread may still take. Every step of a
callback of the default group lowers it. A step of the operation thread lowers it as well,
but for the two loops that poll against a deadline: a look before the deadline puts a round of the
loop on the account.
-/

open TransitionSystem

namespace SlamSystemManager.Manager

/-! ## Work -/

def StopStage.work : StopStage → ℕ
  | .check => 3
  | .lookup => 2
  | .wait => 1

def StartMapping.work : StartMapping → ℕ
  | .checkRunning => 13
  | .saveService => 12
  | .prepareConfig => 11
  | .startProcess => 10
  | .waitService => 9
  | .stopTimedOut stage => stage.work + 6
  | .checkAlive => 8
  | .readExitCode => 7
  | .failed _ => 6
  | .unselect => 5
  | .cleanup _ => 4
  | .started => 7
  | .stopAborted stage => stage.work + 3

/-- The work of a start of localization grows with the retries that are left. -/
def StartLocalization.work (retries : ℕ) : StartLocalization → ℕ
  | .checkRunning => 2 * retries + 11
  | .checkFile => 2 * retries + 10
  | .startProcess => 2 * retries + 9
  | .poll _ => 2 * retries + 8
  | .pollAlive => 2 * retries + 10
  | .pollTopics => 2 * retries + 9
  | .stopTimedOut _ stage => stage.work + 5
  | .readExitCode => 6
  | .failed _ => 5
  | .unselect => 4
  | .started => 2 * retries + 7
  | .stopAborted stage => stage.work + 3
  | .loadLastPose => 2 * retries + 5
  | .waitConsumer _ => 2 * retries + 4
  | .publish _ attempt => 2 * (retries - attempt) + 5
  | .window _ attempt => 2 * (retries - attempt) + 4

def StopMapping.work : StopMapping → ℕ
  | .stop stage => stage.work + 5
  | .unselect => 5
  | .toWait => 4

def SaveMap.work : SaveMap → ℕ
  | .checkRunning => 15
  | .serviceReady => 14
  | .removeOutput => 13
  | .request => 12
  | .checkOutput => 11
  | .markSaved => 10
  | .stop _ _ stage => stage.work + 6
  | .report _ _ _ => 6
  | .checkState _ => 5
  | .toWait => 4

def SaveLastPose.work : SaveLastPose → ℕ
  | .poseValid => 5
  | .readMap => 4
  | .checkPath _ => 3
  | .capture _ => 2
  | .enqueue _ => 1

def StopLocalization.work : StopLocalization → ℕ
  | .save pc => pc.work + 10
  | .stop stage => stage.work + 7
  | .unselect => 7
  | .toWait => 6
  | .resetSession => 5
  | .resetQuality => 4

def StopAfterFailure.work : StopAfterFailure → ℕ
  | .stopMapping _ stage => stage.work + 6
  | .stopLocalization stage => stage.work + 3

def Recovery.work : Recovery → ℕ
  | .checkRunning .mapping _ => 18
  | .stop .mapping _ stage => stage.work + 14
  | .recheck .mapping _ _ => 14
  | .checkRunning .localization _ => 13
  | .stop .localization _ stage => stage.work + 9
  | .recheck .localization _ _ => 9
  | .resetSession => 8
  | .resetQuality => 7
  | .readSensors => 6
  | .clear _ => 5
  | .resume _ => 4

def Operation.work (config : Config) : Operation → ℕ
  | .startMapping _ _ pc => pc.work
  | .startLocalization _ pc => pc.work config.lastPoseRetryCount
  | .stopMapping pc => pc.work
  | .saveMap _ pc => pc.work
  | .stopLocalization pc => pc.work
  | .stopAfterFailure pc => pc.work
  | .recovery pc => pc.work
  | .fail _ _ => 3
  | .enterError => 2
  | .finish => 1

/-- The head of a polling loop that does not find its deadline passed. -/
def Operation.looksAgain (env : Env) : Operation → Bool
  | .startLocalization _ (.poll _) | .startLocalization _ (.window _ _) => !env.timedOut
  | _ => false

def StartMappingRequest.work : StartMappingRequest → ℕ
  | .checkLocalization => 12
  | .checkMapping => 11
  | .saveService => 10
  | .acquire => 9
  | .findMap => 8
  | .create => 7
  | .checkOutput _ => 6
  | .select _ => 5
  | .transition _ => 4
  | .cleanup => 3
  | .unselect => 2

def StartLocalizationRequest.work : StartLocalizationRequest → ℕ
  | .checkMapping => 11
  | .saveService => 10
  | .checkLocalization => 9
  | .acquire => 8
  | .load => 7
  | .select => 6
  | .resetSession => 5
  | .resetQuality => 4
  | .transition => 3
  | .unselect => 2

def SensorTick.work : SensorTick → ℕ
  | .readStatus => 8
  | .snapshot _ _ => 7
  | .reportFailure _ => 6
  | .enterError => 5
  | .mappingRunning => 4
  | .localizationRunning _ => 3
  | .claim _ _ => 2
  | .clearError => 3
  | .toReady => 2
  | .toWait => 1
  | .restart _ => 2
  | .reportWaiting _ => 1

def ProcessTick.work : ProcessTick → ℕ
  | .snapshot => 5
  | .checkRunning _ => 4
  | .readExitCode _ => 3
  | .report _ _ => 2
  | .enterError => 1

def Handler.work : Handler → ℕ
  | .recover | .stopMapping | .stopLocalization => 2
  | .createMap _ .acquire | .deleteMap _ .acquire => 3
  | .createMap _ .create | .deleteMap _ .remove => 2
  | .loadMap _ .acquire => 4
  | .loadMap _ .load => 3
  | .loadMap _ (.select _) => 2
  | .startMapping _ pc => pc.work
  | .saveMap .acquire => 4
  | .saveMap (.transition _) => 3
  | .saveMap (.path _) => 2
  | .startLocalization _ pc => pc.work
  | .setInitialPose _ .check => 2
  | .setInitialPose _ .publish => 1
  | .sensorTick pc => pc.work
  | .processTick pc => pc.work
  | .lastPoseTick pc => pc.work
  | .qualityTick (.readState) => 3
  | .qualityTick (.readProcess _) => 2
  | .qualityTick (.evaluate _) => 1
  | .release _ | .launch _ _ => 1

/-! ## What a step does to the work left -/

theorem work_stopStep {env : Env} {leader : Leader} {s s' : Shared} {stage stage' : StopStage}
    (h : stopStep env leader s stage = (s', .inl stage')) : stage'.work + 1 = stage.work := by
  cases stage <;> simp only [stopStep] at h <;> (repeat' split at h) <;> cases h <;> rfl

@[simp]
theorem StopStage.work_pos (stage : StopStage) : 1 ≤ stage.work := by
  cases stage <;> decide

theorem StopStage.work_le (stage : StopStage) : stage.work ≤ 3 := by
  cases stage <;> decide

theorem work_saveLastPoseStep {config : Config} {s s' : Shared} {pc pc' : SaveLastPose}
    (h : saveLastPoseStep config s pc = (s', .next pc')) : pc'.work + 1 = pc.work := by
  cases pc <;> simp only [saveLastPoseStep] at h <;> (repeat' split at h) <;> cases h <;> rfl

theorem SaveLastPose.work_pos (pc : SaveLastPose) : 1 ≤ pc.work := by
  cases pc <;> simp [SaveLastPose.work]

/-- The end of a body is less work than the body. -/
theorem work_errorOrFinish (config : Config) (shouldTransition : Bool) :
    (errorOrFinish shouldTransition).work config ≤ 2 := by
  cases shouldTransition <;> simp [errorOrFinish, Operation.work]

theorem StartMapping.work_step (config : Config) (env : Env) (map : String) (created : Bool)
    (s : Shared) (pc : StartMapping) :
    (pc.step config env map created s).2.work config < pc.work := by
  cases pc with
  | stopTimedOut stage | stopAborted stage =>
    have hpos := stage.work_pos
    simp only [StartMapping.step]
    split
    · rename_i hstop
      have hless := work_stopStep hstop
      simp only [Operation.work, StartMapping.work]
      omega
    · simp only [Operation.work, StartMapping.work]
      omega
  | unselect =>
    have hend := work_errorOrFinish config (decide (s.currentState = .mappingStarting))
    cases created
    · simp only [StartMapping.step, StartMapping.work, Bool.false_eq_true, if_false]
      omega
    · simp [StartMapping.step, Operation.work, StartMapping.work]
  | cleanup shouldTransition =>
    have hend := work_errorOrFinish config shouldTransition
    simp only [StartMapping.step, StartMapping.work]
    omega
  | _ =>
    simp only [StartMapping.step]
    repeat' split
    all_goals simp [Operation.work, StartMapping.work, StopStage.work]

theorem StartLocalization.work_step (config : Config) (env : Env) (map : String) (s : Shared)
    (pc : StartLocalization) :
    (pc.step config env map s).2.work config <
      pc.work config.lastPoseRetryCount +
        3 * ((Operation.startLocalization map pc).looksAgain env).toNat := by
  cases pc with
  | stopTimedOut missing stage | stopAborted stage =>
    have hpos := stage.work_pos
    simp only [StartLocalization.step]
    split
    · rename_i hstop
      have hless := work_stopStep hstop
      simp only [Operation.work, StartLocalization.work]
      omega
    · simp only [Operation.work, StartLocalization.work]
      omega
  | unselect =>
    have hend := work_errorOrFinish config (decide (s.currentState = .localizationStarting))
    simp only [StartLocalization.step, StartLocalization.work]
    omega
  | poll missing =>
    cases htimed : env.timedOut <;>
      simp [StartLocalization.step, Operation.looksAgain, Operation.work, StartLocalization.work,
        StopStage.work, htimed]
  | waitConsumer pose =>
    simp only [StartLocalization.step]
    split
    · rename_i hready
      have hretries : 1 ≤ config.lastPoseRetryCount := by simp_all
      simp only [Operation.work, StartLocalization.work]
      omega
    · simp only [Operation.work, StartLocalization.work]
      omega
  | window pose attempt =>
    simp only [StartLocalization.step, Operation.looksAgain]
    -- the deadline of an attempt is followed by the next attempt or by the end
    repeat' split
    all_goals simp_all only [Operation.work, StartLocalization.work, Bool.not_true, Bool.not_false,
      Bool.toNat_false, Bool.toNat_true, Bool.not_eq_true]
    all_goals omega
  | _ =>
    simp only [StartLocalization.step]
    repeat' split
    all_goals
      simp only [Operation.work, StartLocalization.work, StopStage.work]
      try omega

theorem StopMapping.work_step (config : Config) (env : Env) (s : Shared) (pc : StopMapping) :
    (pc.step env s).2.work config < pc.work := by
  cases pc with
  | stop stage =>
    have hpos := stage.work_pos
    simp only [StopMapping.step]
    split
    · rename_i hstop
      have hless := work_stopStep hstop
      simp only [Operation.work, StopMapping.work]
      omega
    all_goals
      simp only [Operation.work, StopMapping.work]
      omega
  | unselect =>
    simp only [StopMapping.step]
    split <;> simp [Operation.work, StopMapping.work]
  | toWait => simp [StopMapping.step, Operation.work, StopMapping.work]

theorem SaveMap.work_step (config : Config) (env : Env) (map : String) (s : Shared)
    (pc : SaveMap) : (pc.step config env map s).2.work config < pc.work := by
  cases pc with
  | stop saved saveError stage =>
    have hpos := stage.work_pos
    simp only [SaveMap.step]
    split
    · rename_i hstop
      have hless := work_stopStep hstop
      simp only [Operation.work, SaveMap.work]
      omega
    · simp only [Operation.work, SaveMap.work]
      omega
  | _ =>
    simp only [SaveMap.step]
    repeat' split
    all_goals simp [Operation.work, SaveMap.work, StopStage.work]

theorem StopLocalization.work_step (config : Config) (env : Env) (s : Shared)
    (pc : StopLocalization) : (pc.step config env s).2.work config < pc.work := by
  cases pc with
  | save pc =>
    have hpos := pc.work_pos
    simp only [StopLocalization.step]
    split
    · rename_i hsave
      have hless := work_saveLastPoseStep hsave
      simp only [Operation.work, StopLocalization.work]
      omega
    · simp only [Operation.work, StopLocalization.work, StopStage.work]
      omega
    · simp only [Operation.catchException, Operation.work, StopLocalization.work]
      omega
  | stop stage =>
    have hpos := stage.work_pos
    simp only [StopLocalization.step]
    split
    · rename_i hstop
      have hless := work_stopStep hstop
      simp only [Operation.work, StopLocalization.work]
      omega
    all_goals
      simp only [Operation.work, StopLocalization.work]
      omega
  | unselect =>
    simp only [StopLocalization.step]
    split <;> simp [Operation.work, StopLocalization.work]
  | _ => simp [StopLocalization.step, Operation.work, StopLocalization.work]

theorem StopAfterFailure.work_step (config : Config) (env : Env) (s : Shared)
    (pc : StopAfterFailure) : (pc.step env s).2.work config < pc.work := by
  cases pc with
  | stopMapping localizationRunning stage =>
    have hpos := stage.work_pos
    simp only [StopAfterFailure.step]
    split
    · rename_i hstop
      have hless := work_stopStep hstop
      simp only [Operation.work, StopAfterFailure.work]
      omega
    · cases localizationRunning
      · simp only [Bool.false_eq_true, if_false, Operation.work, StopAfterFailure.work]
        omega
      · have hcheck : StopStage.check.work = 3 := rfl
        simp only [if_true, Operation.work, StopAfterFailure.work]
        omega
  | stopLocalization stage =>
    have hpos := stage.work_pos
    simp only [StopAfterFailure.step]
    split
    · rename_i hstop
      have hless := work_stopStep hstop
      simp only [Operation.work, StopAfterFailure.work]
      omega
    · simp only [Operation.work, StopAfterFailure.work]
      omega

/-- What follows a leader that has been dealt with. -/
theorem Recovery.work_afterLeader (config : Config) (leader : Leader) (errors : List String) :
    (Recovery.afterLeader leader errors).work config <
      (Recovery.recheck leader errors "").work := by
  cases leader <;> simp only [Recovery.afterLeader]
  · simp [Operation.work, Recovery.work]
  · split <;> simp [Operation.work, Recovery.work]

theorem Recovery.work_step (config : Config) (env : Env) (s : Shared) (pc : Recovery) :
    (pc.step env s).2.work config < pc.work := by
  cases pc with
  | checkRunning leader errors =>
    have hafter := Recovery.work_afterLeader config leader errors
    simp only [Recovery.step]
    split
    · cases leader <;> simp [Operation.work, Recovery.work, StopStage.work]
    · cases leader <;> simp only [Recovery.work] at hafter ⊢ <;> omega
  | stop leader errors stage =>
    have hafter := Recovery.work_afterLeader config leader errors
    have hpos := stage.work_pos
    simp only [Recovery.step]
    split
    · rename_i hstop
      have hless := work_stopStep hstop
      cases leader <;> simp only [Operation.work, Recovery.work] <;> omega
    · cases leader <;> simp only [Operation.work, Recovery.work] <;> omega
    · cases leader <;> simp only [Recovery.work] at hafter ⊢ <;> omega
  | recheck leader errors error =>
    have hafter := Recovery.work_afterLeader config leader
      (if s.isRunning leader then errors ++ [leader.name ++ ": " ++ error] else errors)
    cases leader <;> exact hafter
  | clear status =>
    simp only [Recovery.step]
    split <;> simp [Operation.work, Recovery.work]
  | resume target =>
    simp only [Recovery.step]
    split <;> simp [Operation.work, Recovery.work]
  | _ => simp [Recovery.step, Operation.work, Recovery.work]

/-- A body has more work left than the `fail` that an exception in it goes on with. -/
theorem Operation.work_of_isBody (config : Config) {operation : Operation}
    (h : operation.isBody = true) : 4 ≤ operation.work config := by
  cases operation with
  | startMapping map created pc => cases pc <;> simp [Operation.work, StartMapping.work]
  | startLocalization map pc => cases pc <;> simp [Operation.work, StartLocalization.work]
  | stopMapping pc => cases pc <;> simp [Operation.work, StopMapping.work]
  | saveMap map pc => cases pc <;> simp [Operation.work, SaveMap.work]
  | stopLocalization pc => cases pc <;> simp [Operation.work, StopLocalization.work]
  | stopAfterFailure pc =>
    cases pc with
    | stopMapping localizationRunning stage =>
      simp only [Operation.work, StopAfterFailure.work]
      omega
    | stopLocalization stage => simp [Operation.work, StopAfterFailure.work]
  | recovery pc =>
    rcases pc with ⟨leader, _⟩ | ⟨leader, _, _⟩ | ⟨leader, _, _⟩ | _ | _ | _ | _ | _
    · cases leader <;> simp [Operation.work, Recovery.work]
    · cases leader <;> simp only [Operation.work, Recovery.work] <;> omega
    · cases leader <;> simp [Operation.work, Recovery.work]
    all_goals simp [Operation.work, Recovery.work]
  | _ => cases h

/-- A step of the operation thread lowers its work, but for a look that goes on polling. -/
theorem Operation.work_step {config : Config} {env : Env} {s : Shared} {operation next : Operation}
    (h : (operation.step config env s).2 = some next) :
    next.work config < operation.work config + 3 * (operation.looksAgain env).toNat := by
  rcases operation.step_cases config env s with ⟨hrun, -⟩ | ⟨hbody, -, code, what, hthrow⟩
  · rw [hrun] at h
    cases operation with
    | startMapping map created pc =>
      cases h
      exact (StartMapping.work_step config env map created s pc).trans_le (Nat.le_add_right _ _)
    | startLocalization map pc =>
      cases h
      exact StartLocalization.work_step config env map s pc
    | stopMapping pc =>
      cases h
      exact (StopMapping.work_step config env s pc).trans_le (Nat.le_add_right _ _)
    | saveMap map pc =>
      cases h
      exact (SaveMap.work_step config env map s pc).trans_le (Nat.le_add_right _ _)
    | stopLocalization pc =>
      cases h
      exact (StopLocalization.work_step config env s pc).trans_le (Nat.le_add_right _ _)
    | stopAfterFailure pc =>
      cases h
      exact (StopAfterFailure.work_step config env s pc).trans_le (Nat.le_add_right _ _)
    | recovery pc =>
      cases h
      exact (Recovery.work_step config env s pc).trans_le (Nat.le_add_right _ _)
    | fail code message =>
      cases h
      exact Nat.lt_add_right _ (by simp [Operation.work])
    | enterError =>
      cases h
      exact Nat.lt_add_right _ (by simp [Operation.work])
    | finish => cases h
  · rw [hthrow] at h
    cases h
    have hwork := operation.work_of_isBody config hbody
    exact Nat.lt_add_right _ hwork

theorem work_acquireForStart {config : Config} {label : String} {s s' : Shared}
    {next handler : Handler}
    (h : acquireForStart config label s next = (s', .next handler)) : handler = next := by
  unfold acquireForStart at h
  split_ifs at h
  all_goals cases h
  rfl

/-- A step of a callback of the default group lowers its work. -/
theorem Handler.work_step {config : Config} {env : Env} {s s' : Shared} {handler next : Handler}
    (h : handler.step config env s = (s', .next next)) : next.work < handler.work := by
  cases handler with
  | recover =>
    simp only [Handler.step, recoverStep, refuse] at h
    repeat' split at h
    all_goals cases h
    simp [Handler.work]
  | createMap name pc =>
    cases pc <;> simp only [Handler.step, CreateMap.step, refuse] at h <;>
      (repeat' split at h) <;> cases h <;> simp [Handler.work]
  | deleteMap name pc =>
    cases pc <;> simp only [Handler.step, DeleteMap.step, refuse] at h <;>
      (repeat' split at h) <;> cases h <;> simp [Handler.work]
  | loadMap name pc =>
    cases pc <;> simp only [Handler.step, LoadMap.step, refuse] at h <;>
      (repeat' split at h) <;> cases h <;> simp [Handler.work]
  | startMapping name pc =>
    cases pc
    case acquire =>
      cases work_acquireForStart h
      simp [Handler.work, StartMappingRequest.work]
    all_goals
      simp only [Handler.step, StartMappingRequest.step, refuse] at h
      repeat' split at h
      all_goals cases h
      all_goals simp [Handler.work, StartMappingRequest.work]
  | stopMapping =>
    simp only [Handler.step, stopMappingStep, refuse] at h
    repeat' split at h
    all_goals cases h
    simp [Handler.work]
  | saveMap pc =>
    cases pc <;> simp only [Handler.step, SaveMapRequest.step, refuse] at h <;>
      (repeat' split at h) <;> cases h <;> simp [Handler.work]
  | startLocalization name pc =>
    cases pc
    case acquire =>
      cases work_acquireForStart h
      simp [Handler.work, StartLocalizationRequest.work]
    all_goals
      simp only [Handler.step, StartLocalizationRequest.step, refuse] at h
      repeat' split at h
      all_goals cases h
      all_goals simp [Handler.work, StartLocalizationRequest.work]
  | stopLocalization =>
    simp only [Handler.step, stopLocalizationStep, refuse] at h
    repeat' split at h
    all_goals cases h
    simp [Handler.work]
  | setInitialPose pose pc =>
    cases pc <;> simp only [Handler.step, SetInitialPose.step, refuse] at h <;>
      (repeat' split at h) <;> cases h
    simp [Handler.work]
  | sensorTick pc =>
    cases pc <;> simp only [Handler.step, SensorTick.step, sensorSnapshot] at h <;>
      (repeat' split at h) <;> cases h <;> simp [Handler.work, SensorTick.work]
  | processTick pc =>
    cases pc <;> simp only [Handler.step, ProcessTick.step] at h <;>
      (repeat' split at h) <;> cases h <;> simp [Handler.work, ProcessTick.work]
  | lastPoseTick pc =>
    simp only [Handler.step, lastPoseTickStep] at h
    split at h <;> cases h
    rename_i hsave
    have hless := work_saveLastPoseStep hsave
    simp only [Handler.work]
    omega
  | qualityTick pc =>
    cases pc
    all_goals
      simp only [Handler.step, QualityTick.step] at h
      cases h
    all_goals simp [Handler.work]
  | release reply =>
    simp only [Handler.step] at h
    cases h
  | launch operation reply =>
    simp only [Handler.step] at h
    cases h

/-! ## What a run takes -/

/-- The steps the latest callback of the default group has taken, those of the latest operation,
and the looks of the operation that went on polling. -/
structure Work where
  callback : ℕ := 0
  operation : ℕ := 0
  looks : ℕ := 0

def noteWork (work : Work) (s : Sys) (a : Action) (_ : Sys) : Work :=
  match a with
  | .call _ => { work with callback := 0 }
  | .handler _ =>
    match s.handler with
    | some (.launch _ _) => { callback := work.callback + 1 }
    | _ => { work with callback := work.callback + 1 }
  | .operation env =>
    { work with
      operation := work.operation + 1
      looks := work.looks + (s.operation.any fun operation ↦ operation.looksAgain env).toNat }
  | _ => work

/-- The runs from the start, with the work of their latest callback and operation. -/
abbrev WorkReaches (config : Config) (s : Sys × Work) : Prop :=
  Reaches (noting (Sys.step config) noteWork) anyAction (fun s ↦ s.1.Initial ∧ s.2 = {}) s

def callbackBudget : ℕ := 12

def operationBudget (config : Config) : ℕ := max 18 (2 * config.lastPoseRetryCount + 11)

/-- Every operation starts within the budget. -/
theorem Handler.work_launched {handler : Handler} {operation : Operation} {reply : Option Reply}
    (config : Config) (h : handler.Follows (.next (.launch operation reply))) :
    operation.work config ≤ operationBudget config := by
  cases h with
  | launchStopAfterFailure mapping localization pc =>
    refine le_max_of_le_left ?_
    cases pc with
    | stopMapping localizationRunning stage | stopLocalization stage =>
      have hwork := stage.work_le
      simp only [Operation.work, StopAfterFailure.work]
      omega
  | _ => simp [Operation.work, operationBudget, StartMapping.work, StartLocalization.work,
      StopMapping.work, SaveMap.work, StopLocalization.work, SaveLastPose.work, Recovery.work,
      StopStage.work]

theorem Request.work_handler (request : Request) : request.handler.work ≤ callbackBudget := by
  cases request <;>
    simp [Request.handler, Handler.work, callbackBudget, StartMappingRequest.work,
      StartLocalizationRequest.work, SensorTick.work, ProcessTick.work, SaveLastPose.work]

/-- What has been done and what may still be done stay within the budgets. -/
structure Bounded (config : Config) (s : Sys) (work : Work) : Prop where
  callback : work.callback ≤ callbackBudget
  handler : ∀ handler, s.handler = some handler → work.callback + handler.work ≤ callbackBudget
  launched : ∀ operation reply, s.handler = some (.launch operation reply) →
    operation.work config ≤ operationBudget config
  done : work.operation ≤ operationBudget config + 3 * work.looks
  operation : ∀ operation, s.operation = some operation →
    work.operation + operation.work config ≤ operationBudget config + 3 * work.looks

theorem Operation.work_pos (config : Config) (operation : Operation) :
    1 ≤ operation.work config := by
  by_cases hbody : operation.isBody = true
  · exact (by decide : 1 ≤ 4).trans (operation.work_of_isBody config hbody)
  · cases operation <;> simp_all [Operation.isBody, Operation.work]

theorem Handler.work_pos (handler : Handler) : 1 ≤ handler.work := by
  cases handler with
  | lastPoseTick pc => exact pc.work_pos
  | createMap _ pc | deleteMap _ pc | loadMap _ pc | saveMap pc | setInitialPose _ pc
  | qualityTick pc => cases pc <;> simp [Handler.work]
  | startMapping _ pc => cases pc <;> simp [Handler.work, StartMappingRequest.work]
  | startLocalization _ pc => cases pc <;> simp [Handler.work, StartLocalizationRequest.work]
  | sensorTick pc => cases pc <;> simp [Handler.work, SensorTick.work]
  | processTick pc => cases pc <;> simp [Handler.work, ProcessTick.work]
  | _ => simp [Handler.work]

/-- A step of the handler that launches nothing counts for its callback. -/
theorem Bounded.handlerStep {config : Config} {s s' : Sys} {work : Work} (h : Bounded config s work)
    {handler : Handler} (hsome : s.handler = some handler) (hoperation : s'.operation = s.operation)
    (hnext : ∀ next, s'.handler = some next →
      handler.Follows (.next next) ∧ next.work < handler.work) :
    Bounded config s' { work with callback := work.callback + 1 } where
  callback := by
    have hbefore := h.handler handler hsome
    have hpos := handler.work_pos
    change work.callback + 1 ≤ callbackBudget
    omega
  handler next hsome' := by
    have hbefore := h.handler handler hsome
    have hless := (hnext next hsome').2
    change work.callback + 1 + next.work ≤ callbackBudget
    omega
  launched operation reply hsome' := Handler.work_launched config (hnext _ hsome').1
  done := h.done
  operation operation hsome' := h.operation operation (hoperation ▸ hsome')

theorem Bounded.step {config : Config} {s s' : Sys} {a : Action} {work : Work}
    (h : Bounded config s work) (hstep : s.step config a = some s') :
    Bounded config s' (noteWork work s a s') := by
  cases a with
  | call request =>
    obtain ⟨-, rfl⟩ := Sys.call_of_step hstep
    refine ⟨Nat.zero_le _, fun handler hsome ↦ ?_, fun operation reply hsome ↦ ?_, h.done,
      h.operation⟩
    · cases hsome
      simpa [noteWork] using request.work_handler
    · cases request <;> cases hsome
  | handler env =>
    obtain ⟨handler, r, hsome, hr, hmove⟩ := Sys.handlerMove_of_step hstep
    have hkept (hlaunch : ∀ operation reply, handler ≠ .launch operation reply) :
        noteWork work s (.handler env) s' = { work with callback := work.callback + 1 } := by
      simp only [noteWork, hsome]
      split
      · rename_i heq
        cases heq
        exact absurd rfl (hlaunch _ _)
      · rfl
    cases hmove with
    | @next next hhandler hoperation =>
      have hfollows := Handler.follows_of_step hr
      rw [hkept (by rintro operation reply rfl; simp [Handler.step] at hr)]
      refine h.handlerStep hsome hoperation fun other hother ↦ ?_
      cases hhandler.symm.trans hother
      exact ⟨hfollows, Handler.work_step hr⟩
    | ended hnext hlaunched hhandler hoperation =>
      rw [hkept ?_]
      · refine h.handlerStep hsome hoperation fun other hother ↦ ?_
        rw [hhandler] at hother
        cases hother
      · rintro operation reply rfl
        simp only [Handler.step, Prod.mk.injEq] at hr
        exact hlaunched operation reply hr.2.symm
    | @launched launched reply hlaunch hended hhandler hoperation =>
      subst hlaunch
      have hbudget := h.launched launched reply hsome
      simp only [noteWork, hsome]
      refine ⟨?_, fun next hnext ↦ ?_, fun operation reply hnext ↦ ?_, Nat.zero_le _,
        fun operation hsome' ↦ ?_⟩
      · exact h.handler _ hsome
      · rw [hhandler] at hnext
        cases hnext
      · rw [hhandler] at hnext
        cases hnext
      · cases hoperation.symm.trans hsome'
        simpa using hbudget
  | operation env =>
    obtain ⟨operation, hsome, rfl⟩ := Option.map_eq_some_iff.mp hstep
    have hbefore := h.operation operation hsome
    simp only [noteWork, hsome, Option.any_some]
    refine ⟨h.callback, h.handler, h.launched, ?_, fun next hnext ↦ ?_⟩
    · have hpos := operation.work_pos config
      simp only
      omega
    · have hless := Operation.work_step hnext
      simp only
      omega
  | deliver | callback | observe | exit | writeMap | takeSave | writeSave =>
    have hthreads : s'.handler = s.handler ∧ s'.operation = s.operation := by
      have hbystander := bystander_of_step hstep (by simp) (by simp) (by simp)
      exact ⟨hbystander.handler, hbystander.operation⟩
    exact ⟨h.callback, hthreads.1 ▸ h.handler, hthreads.1 ▸ h.launched, h.done,
      hthreads.2 ▸ h.operation⟩

/-- Every callback of the default group ends within twelve steps of its own; and an operation ends
within its budget, to which each look of a polling loop before its deadline adds a round of three
steps. -/
theorem work_bounded (config : Config) (s : Sys) (work : Work) (h : WorkReaches config (s, work)) :
    work.callback ≤ callbackBudget ∧
      work.operation ≤ operationBudget config + 3 * work.looks := by
  have hbounded : Bounded config s work := by
    refine h.invariant (P := fun s : Sys × Work ↦ Bounded config s.1 s.2) (fun s hinit ↦ ?_)
      fun s a s' hs _ hstep ↦ ?_
    · rw [hinit.2]
      exact ⟨Nat.zero_le _, by simp [hinit.1.handler], by simp [hinit.1.handler], Nat.zero_le _,
        by simp [hinit.1.operation]⟩
    · obtain ⟨hnext, hnote⟩ := noting_eq_some hstep
      rw [hnote]
      exact hs.step hnext
  exact ⟨hbounded.callback, hbounded.done⟩

/-- A start of localization that finds no publisher in its first round. -/
def pollTwice : List Action :=
  toWaitMode ++ launchLocalization "m" ++ List.replicate 5 (.operation readyEnv) ++
    .operation absentEnv :: List.replicate 4 (.operation readyEnv)

theorem work_bounded_polling :
    ∃ s work, WorkReaches {} (s, work) ∧ work.operation = 10 ∧ work.looks = 2 ∧
      work.operation ≤ operationBudget {} + 3 * work.looks := by
  have hstart : WorkReaches {} (Sys.initial (storedMaps ["m"]), {}) :=
    .start ⟨initial_initial _, rfl⟩
  have hreplay : (exec (noting (Sys.step {}) noteWork)
      (Sys.initial (storedMaps ["m"]), ({} : Work)) pollTwice).any
        (fun s ↦ s.2.operation == 10 && s.2.looks == 2) = true := rfl
  obtain ⟨⟨s, work⟩, hreach, hfound⟩ := hstart.exists_of_exec hreplay
  simp only [Bool.and_eq_true, beq_iff_eq] at hfound
  exact ⟨s, work, hreach, hfound.1, hfound.2, (work_bounded {} s work hreach).2⟩

end SlamSystemManager.Manager
