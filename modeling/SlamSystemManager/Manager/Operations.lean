import SlamSystemManager.Manager.State

/-!
# Background operations

The bodies that `launchOperation` runs on the operation thread. Each has its own program counter,
one constructor for every critical section or call of the environment, in the order of the
source. The catch-all of `launchOperation` and the catch of `performRecovery` continue with
`fail`, which sets the error fields, enters ERROR and finishes.
-/

open Numeric

namespace SlamSystemManager.Manager

/-- `MappingAdapter::start` and what the body of `handleStartMapping` does around it. -/
inductive StartMapping where
  | checkRunning
  | saveService
  | prepareConfig
  | startProcess
  | waitService
  | stopTimedOut (stage : StopStage)
  | checkAlive
  | readExitCode
  | failed (error : String)
  | unselect
  | cleanup (shouldTransition : Bool)
  | started
  | stopAborted (stage : StopStage)
  deriving DecidableEq

/-- `LocalizationAdapter::start` and what the body of `handleStartLocalization` does around it,
down to the retries of the last pose. -/
inductive StartLocalization where
  | checkRunning
  | checkFile
  | startProcess
  | poll (missing : String)
  | pollAlive
  | pollTopics
  | stopTimedOut (missing : String) (stage : StopStage)
  | readExitCode
  | failed (error : String)
  | unselect
  | started
  | stopAborted (stage : StopStage)
  | loadLastPose
  | waitConsumer (pose : StampedPose)
  | publish (pose : StampedPose) (attempt : ℕ)
  | window (pose : StampedPose) (attempt : ℕ)
  deriving DecidableEq

/-- The body of `handleStopMapping`. -/
inductive StopMapping where
  | stop (stage : StopStage)
  | unselect
  | toWait
  deriving DecidableEq

/-- `MappingAdapter::saveMap` and what the body of `handleSaveMap` does after it. -/
inductive SaveMap where
  | checkRunning
  | serviceReady
  | removeOutput
  | request
  | checkOutput
  | markSaved
  | stop (saved : Bool) (saveError : String) (stage : StopStage)
  | report (saved : Bool) (saveError : String) (stopped : StopResult)
  | checkState (succeeded : Bool)
  | toWait

/-- The body of `handleStopLocalization`. -/
inductive StopLocalization where
  | save (pc : SaveLastPose)
  | stop (stage : StopStage)
  | unselect
  | toWait
  | resetSession
  | resetQuality
  deriving DecidableEq

/-- The body launched by `updateSensorState`. -/
inductive StopAfterFailure where
  | stopMapping (localizationRunning : Bool) (stage : StopStage)
  | stopLocalization (stage : StopStage)
  deriving DecidableEq

/-- `performRecovery`, with the stop errors collected so far. -/
inductive Recovery where
  | checkRunning (leader : Leader) (errors : List String)
  | stop (leader : Leader) (errors : List String) (stage : StopStage)
  | recheck (leader : Leader) (errors : List String) (error : String)
  | resetSession
  | resetQuality
  | readSensors
  | clear (status : SensorStatus)
  | resume (target : SystemState)
  deriving DecidableEq

/-- Where the operation thread stands. -/
inductive Operation where
  | startMapping (map : String) (created : Bool) (pc : StartMapping)
  | startLocalization (map : String) (pc : StartLocalization)
  | stopMapping (pc : StopMapping)
  | saveMap (map : String) (pc : SaveMap)
  | stopLocalization (pc : StopLocalization)
  | stopAfterFailure (pc : StopAfterFailure)
  | recovery (pc : Recovery)
  | fail (code message : String)
  | enterError
  | finish

/-- `if (should_transition) transitionTo(ERROR)` at the end of a body. -/
def errorOrFinish (shouldTransition : Bool) : Operation :=
  if shouldTransition then .enterError else .finish

/-! ## Starting mapping -/

def StartMapping.step (config : Config) (env : Env) (map : String) (created : Bool) (s : Shared) :
    StartMapping → Shared × Operation
  | .checkRunning =>
    (s, .startMapping map created
      (if s.isRunning .mapping then .failed "Mapping process is already running"
      else .saveService))
  | .saveService =>
    (s, .startMapping map created
      (if env.available then
        .failed "Mapping save service already exists; another mapping node may be running"
      else .prepareConfig))
  | .prepareConfig =>
    match env.failure with
    | some what => (s, .startMapping map created (.failed what))
    | none =>
      -- the file written here is none of those in `MapDirectory` under `Config.OwnRuntimeName`
      (s, .startMapping map created
        (if (MapManager.directory? s.maps map).isSome then .startProcess
        else .failed ("Map directory does not exist: " ++
          MapManager.directoryPath config.mapRoot map)))
  | .startProcess =>
    if s.isRunning .mapping then
      (s, .startMapping map created (.failed "Process is already running: mapping"))
    else
      match env.failure with
      | some what => (s, .startMapping map created (.failed what))
      | none => (s.fork .mapping map, .startMapping map created .waitService)
  | .waitService =>
    (s, .startMapping map created (if env.available then .checkAlive else .stopTimedOut .lookup))
  | .stopTimedOut stage =>
    match stopStep env .mapping s stage with
    | (s, .inl stage) => (s, .startMapping map created (.stopTimedOut stage))
    | (s, .inr _) =>
      (s, .startMapping map created
        (.failed ("Mapping process started but save service '" ++ config.saveServiceName ++
          "' was not ready within " ++ config.toText config.mappingStartupTimeoutSec ++
          " seconds")))
  | .checkAlive =>
    (s, .startMapping map created (if s.isRunning .mapping then .started else .readExitCode))
  | .readExitCode =>
    (s, .startMapping map created
      (.failed ("Mapping process exited during startup (exit_code=" ++
        exitText (s.processes .mapping).lastExitCode ++ ")")))
  | .failed error =>
    (s.setSystemError "MAPPING_START_FAILED" error, .startMapping map created .unselect)
  | .unselect =>
    let shouldTransition := decide (s.currentState = .mappingStarting)
    ({ s with currentMap := "" },
      if created then .startMapping map created (.cleanup shouldTransition)
      else errorOrFinish shouldTransition)
  | .cleanup shouldTransition =>
    ({ s with maps := (MapManager.deleteMap env.removed env.failure s.maps map).1 },
      errorOrFinish shouldTransition)
  | .started =>
    (s.transitionTo .mapping,
      if s.currentState.canTransition .mapping then .finish
      else .startMapping map created (.stopAborted .check))
  | .stopAborted stage =>
    match stopStep env .mapping s stage with
    | (s, .inl stage) => (s, .startMapping map created (.stopAborted stage))
    | (s, .inr _) => (s, .finish)

/-! ## Starting localization -/

/-- `publishInitialPose`: the pose published, or nothing when it is refused. -/
def publishInitialPose (config : Config) (env : Env) (s : Shared) (pose : StampedPose) :
    Except String Shared :=
  match RelocalizationAdapter.validatePose config.math config.mapFrame pose with
  | .error what => .error what
  | .ok validated =>
    if env.available then
      .ok { s with
        publishedInitialPoses := { validated with stamp := env.now } :: s.publishedInitialPoses }
    else .error "Localization initial pose subscriber is not ready"

def StartLocalization.step (config : Config) (env : Env) (map : String) (s : Shared) :
    StartLocalization → Shared × Operation
  | .checkRunning =>
    (s, .startLocalization map
      (if s.isRunning .localization then .failed "Localization process is already running"
      else .checkFile))
  | .checkFile =>
    let path := MapManager.filePath config.mapRoot map "map.pcd"
    match (MapManager.directory? s.maps map).bind MapDirectory.mapPcd with
    | none => (s, .startLocalization map (.failed ("Localization map does not exist: " ++ path)))
    | some bytes =>
      (s, .startLocalization map
        (if bytes.isEmpty || env.failure.isSome then
          .failed ("Localization map is empty or unreadable: " ++ path)
        else .startProcess))
  | .startProcess =>
    if s.isRunning .localization then
      (s, .startLocalization map (.failed "Process is already running: localization"))
    else
      match env.failure with
      | some what => (s, .startLocalization map (.failed what))
      | none => (s.fork .localization map, .startLocalization map (.poll ""))
  | .poll missing =>
    (s, .startLocalization map
      (if env.timedOut then .stopTimedOut missing .lookup else .pollAlive))
  | .pollAlive =>
    (s, .startLocalization map
      (if s.isRunning .localization then .pollTopics else .readExitCode))
  | .pollTopics =>
    -- the text lists the topics without a publisher, or is empty before the stability time
    (s, .startLocalization map (if env.available then .started else .poll env.text))
  | .stopTimedOut missing stage =>
    match stopStep env .localization s stage with
    | (s, .inl stage) => (s, .startLocalization map (.stopTimedOut missing stage))
    | (s, .inr _) =>
      (s, .startLocalization map
        (.failed ("Localization was not ready within " ++
          config.toText config.localizationStartupTimeoutSec ++ " seconds (" ++
          (if missing = "" then "process did not remain stable"
          else "missing publishers: " ++ missing) ++ ")")))
  | .readExitCode =>
    (s, .startLocalization map
      (.failed ("Localization process exited during startup (exit_code=" ++
        exitText (s.processes .localization).lastExitCode ++ ")")))
  | .failed error =>
    (s.setSystemError "LOCALIZATION_START_FAILED" error, .startLocalization map .unselect)
  | .unselect =>
    ({ s with currentMap := "" }, errorOrFinish (decide (s.currentState = .localizationStarting)))
  | .started =>
    (s.transitionTo .relocalizing,
      if s.currentState.canTransition .relocalizing then
        (if config.lastPoseEnable then .startLocalization map .loadLastPose else .finish)
      else .startLocalization map (.stopAborted .check))
  | .stopAborted stage =>
    match stopStep env .localization s stage with
    | (s, .inl stage) => (s, .startLocalization map (.stopAborted stage))
    | (s, .inr _) => (s, .finish)
  | .loadLastPose =>
    match RelocalizationAdapter.loadLastPose config.math config.mapFrame config.mapRoot
        (decide (config.mapRoot = config.configuredRoot)) s.maps map with
    | .error _ => (s, .finish)
    | .ok pose => (s, .startLocalization map (.waitConsumer { pose with stamp := env.now }))
  | .waitConsumer pose =>
    (s, if env.available && decide (1 ≤ config.lastPoseRetryCount) then
        .startLocalization map (.publish pose 1)
      else .finish)
  | .publish pose attempt =>
    match publishInitialPose config env s pose with
    | .error _ => (s, .finish)
    | .ok s => (s, .startLocalization map (.window pose attempt))
  | .window pose attempt =>
    (s, if env.timedOut then
        (if attempt < config.lastPoseRetryCount then
          .startLocalization map (.publish pose (attempt + 1))
        else .finish)
      else if s.adapter.correctionAvailable then .finish
      else .startLocalization map (.window pose attempt))

/-! ## Stopping and saving -/

def StopMapping.step (env : Env) (s : Shared) : StopMapping → Shared × Operation
  | .stop stage =>
    match stopStep env .mapping s stage with
    | (s, .inl stage) => (s, .stopMapping (.stop stage))
    | (s, .inr (.error what)) => (s, .fail "MAPPING_STOP_FAILED" what)
    | (s, .inr (.ok ())) => (s, .stopMapping .unselect)
  | .unselect =>
    ({ s with currentMap := "" },
      if s.currentState = .mapping then .stopMapping .toWait else .finish)
  | .toWait => (s.transitionTo .waitMode, .finish)

def SaveMap.step (config : Config) (env : Env) (map : String) (s : Shared) :
    SaveMap → Shared × Operation
  | .checkRunning =>
    (s, .saveMap map
      (if s.isRunning .mapping then .serviceReady
      else .stop false "Mapping process is not running" .check))
  | .serviceReady =>
    (s, .saveMap map
      (if env.available then .removeOutput
      else .stop false ("Mapping save service is not available: " ++ config.saveServiceName)
        .check))
  | .removeOutput =>
    match env.failure with
    | some what =>
      (s, .saveMap map (.stop false ("Unable to remove previous map output: " ++ what) .check))
    | none =>
      ({ s with
          maps := MapManager.updateDirectory s.maps map fun contents ↦
            { contents with mapPcd := none } },
        .saveMap map .request)
  | .request =>
    if env.timedOut then
      (s, .saveMap map (.stop false ("Mapping save service timed out after " ++
        config.toText config.saveTimeoutSec ++ " seconds") .check))
    else
      match env.failure with
      | some what =>
        (s, .saveMap map (.stop false ("Mapping save service failed: " ++ what) .check))
      | none => (s, .saveMap map .checkOutput)
  | .checkOutput =>
    let path := MapManager.filePath config.mapRoot map "map.pcd"
    match (MapManager.directory? s.maps map).bind MapDirectory.mapPcd with
    | none =>
      (s, .saveMap map (.stop false
        ("Mapping save service succeeded but map file was not created: " ++ path) .check))
    | some bytes =>
      (s, .saveMap map
        (if bytes.isEmpty || env.failure.isSome then
          .stop false ("Mapping output is empty or unreadable: " ++ path) .check
        else .markSaved))
  | .markSaved =>
    match MapManager.markMapSaved config.mapRoot env.text env.failure s.maps map with
    | (maps, .error what) => ({ s with maps := maps }, .saveMap map (.stop true what .check))
    | (maps, .ok ()) => ({ s with maps := maps }, .saveMap map (.stop true "" .check))
  | .stop saved saveError stage =>
    match stopStep env .mapping s stage with
    | (s, .inl stage) => (s, .saveMap map (.stop saved saveError stage))
    | (s, .inr stopped) => (s, .saveMap map (.report saved saveError stopped))
  | .report saved saveError stopped =>
    if !saved || saveError ≠ "" then
      (s.setSystemError "MAP_SAVE_FAILED" saveError, .saveMap map (.checkState false))
    else
      match stopped with
      | .error what =>
        (s.setSystemError "MAPPING_STOP_FAILED" what, .saveMap map (.checkState false))
      | .ok () => (s, .saveMap map (.checkState true))
  | .checkState succeeded =>
    (s, if s.currentState = .mapSaving then
        (if succeeded then .saveMap map .toWait else .enterError)
      else .finish)
  | .toWait => (s.transitionTo .waitMode, .finish)

/-! ## Stopping localization and stopping after a sensor failure -/

/-- The continuation of the operation thread after an exception in a body. -/
def Operation.catchException (what : String) : Operation → Operation
  | .recovery _ => .fail "RECOVERY_FAILED" what
  | _ => .fail "SYSTEM_OPERATION_EXCEPTION" what

def StopLocalization.step (config : Config) (env : Env) (s : Shared) :
    StopLocalization → Shared × Operation
  | .save pc =>
    match saveLastPoseStep config s pc with
    | (s, .next pc) => (s, .stopLocalization (.save pc))
    | (s, .done) => (s, .stopLocalization (.stop .check))
    | (s, .throws what) => (s, (Operation.stopLocalization (.save pc)).catchException what)
  | .stop stage =>
    match stopStep env .localization s stage with
    | (s, .inl stage) => (s, .stopLocalization (.stop stage))
    | (s, .inr (.error what)) => (s, .fail "LOCALIZATION_STOP_FAILED" what)
    | (s, .inr (.ok ())) => (s, .stopLocalization .unselect)
  | .unselect =>
    ({ s with currentMap := "" },
      .stopLocalization (if s.currentState.isLocalizationState then .toWait else .resetSession))
  | .toWait => (s.transitionTo .waitMode, .stopLocalization .resetSession)
  | .resetSession => (s.resetSession env.now, .stopLocalization .resetQuality)
  | .resetQuality => (s.resetQuality, .finish)

def StopAfterFailure.step (env : Env) (s : Shared) : StopAfterFailure → Shared × Operation
  | .stopMapping localizationRunning stage =>
    match stopStep env .mapping s stage with
    | (s, .inl stage) => (s, .stopAfterFailure (.stopMapping localizationRunning stage))
    | (s, .inr _) =>
      (s, if localizationRunning then .stopAfterFailure (.stopLocalization .check) else .finish)
  | .stopLocalization stage =>
    match stopStep env .localization s stage with
    | (s, .inl stage) => (s, .stopAfterFailure (.stopLocalization stage))
    | (s, .inr _) => (s, .finish)

/-! ## Recovery -/

/-- What follows when a leader has been dealt with. -/
def Recovery.afterLeader (leader : Leader) (errors : List String) : Operation :=
  match leader with
  | .mapping => .recovery (.checkRunning .localization errors)
  | .localization =>
    if errors = [] then .recovery .resetSession
    else .fail "RECOVERY_FAILED" ("; ".intercalate errors)

def Recovery.step (env : Env) (s : Shared) : Recovery → Shared × Operation
  | .checkRunning leader errors =>
    (s, if s.isRunning leader then .recovery (.stop leader errors .check)
      else Recovery.afterLeader leader errors)
  | .stop leader errors stage =>
    match stopStep env leader s stage with
    | (s, .inl stage) => (s, .recovery (.stop leader errors stage))
    | (s, .inr (.error what)) => (s, .recovery (.recheck leader errors what))
    | (s, .inr (.ok ())) => (s, Recovery.afterLeader leader errors)
  | .recheck leader errors error =>
    (s, Recovery.afterLeader leader
      (if s.isRunning leader then errors ++ [leader.name ++ ": " ++ error] else errors))
  | .resetSession => (s.resetSession env.now, .recovery .resetQuality)
  | .resetQuality => (s.resetQuality, .recovery .readSensors)
  | .readSensors => (s, .recovery (.clear env.status))
  | .clear status =>
    if s.currentState ≠ .recovering then (s, .finish)
    else
      ({ s with
          currentMap := ""
          sensorStatus := status
          sensorFailureStartedAt := none
          errorCode := ""
          errorMessage := "" },
        .recovery (.resume (if status.sensorReady then .waitMode else .sensorStarting)))
  | .resume target =>
    (s.transitionTo target,
      if s.currentState.canTransition target then .finish
      else .fail "RECOVERY_FAILED" "State changed before recovery completed")

/-! ## The operation thread -/

/-- Whether a step belongs to a body, so that an exception in it is caught. -/
def Operation.isBody : Operation → Bool
  | .fail _ _ | .enterError | .finish => false
  | _ => true

/-- One step of the operation thread; `none` when it has released the token and ended. -/
def Operation.run (config : Config) (env : Env) (s : Shared) :
    Operation → Shared × Option Operation
  | .startMapping map created pc => (pc.step config env map created s).map id some
  | .startLocalization map pc => (pc.step config env map s).map id some
  | .stopMapping pc => (pc.step env s).map id some
  | .saveMap map pc => (pc.step config env map s).map id some
  | .stopLocalization pc => (pc.step config env s).map id some
  | .stopAfterFailure pc => (pc.step env s).map id some
  | .recovery pc => (pc.step env s).map id some
  | .fail code message => (s.setSystemError code message, some .enterError)
  | .enterError => (s.transitionTo .error, some .finish)
  | .finish => (s.finishOperation, none)

/-- The thread function of `launchOperation`. -/
def Operation.step (config : Config) (env : Env) (s : Shared) (operation : Operation) :
    Shared × Option Operation :=
  match env.throws with
  | none => operation.run config env s
  | some what =>
    if operation.isBody then (s, some (operation.catchException what))
    else operation.run config env s

end SlamSystemManager.Manager
