import SlamSystemManager.Manager.Operations

/-!
# Service handlers and timers

The callbacks of the default callback group, of which one runs at a time. As for the background
operations, every critical section and every call of the environment is one step. A handler that
has acquired the operation token ends in `release`, which is `finishOperation`, or in `launch`,
which hands the token to the operation thread. The calls of the file system that ask for a status
throw when it cannot be read.
-/

open Numeric

namespace SlamSystemManager.Manager

/-- The response of a service. -/
structure Reply where
  accepted : Bool
  message : String
  mapPath : String := ""
  deriving DecidableEq

def accept (message : String) : Reply := ⟨true, message, ""⟩

def reject (message : String) : Reply := ⟨false, message, ""⟩

inductive CreateMap where
  | acquire
  | create
  deriving DecidableEq

inductive DeleteMap where
  | acquire
  | remove
  deriving DecidableEq

inductive LoadMap where
  | acquire
  | load
  | select (path : String)
  deriving DecidableEq

inductive StartMappingRequest where
  | checkLocalization
  | checkMapping
  | saveService
  | acquire
  | findMap
  | create
  | checkOutput (created : Bool)
  | select (created : Bool)
  | transition (created : Bool)
  | cleanup
  | unselect
  deriving DecidableEq

inductive SaveMapRequest where
  | acquire
  | transition (map : String)
  | path (map : String)
  deriving DecidableEq

inductive StartLocalizationRequest where
  | checkMapping
  | saveService
  | checkLocalization
  | acquire
  | load
  | select
  | resetSession
  | resetQuality
  | transition
  | unselect
  deriving DecidableEq

inductive SetInitialPose where
  | check
  | publish
  deriving DecidableEq

/-- `updateSensorState`. -/
inductive SensorTick where
  | readStatus
  | snapshot (status : SensorStatus) (now : Time)
  | clearError
  | toReady
  | toWait
  | reportFailure (status : SensorStatus)
  | enterError
  | mappingRunning
  | localizationRunning (mapping : Bool)
  | claim (mapping localization : Bool)
  | restart (status : SensorStatus)
  | reportWaiting (status : SensorStatus)
  deriving DecidableEq

/-- `monitorProcesses`. -/
inductive ProcessTick where
  | snapshot
  | checkRunning (leader : Leader)
  | readExitCode (leader : Leader)
  | report (leader : Leader) (message : String)
  | enterError
  deriving DecidableEq

/-- The timer of the quality monitor: the two sections of `localizationQualityContext` and the
evaluation. -/
inductive QualityTick where
  | readState
  | readProcess (context : Quality.Context)
  | evaluate (context : Quality.Context)
  deriving DecidableEq

/-- Where the callback of the default group stands. -/
inductive Handler where
  | recover
  | createMap (name : String) (pc : CreateMap)
  | deleteMap (name : String) (pc : DeleteMap)
  | loadMap (name : String) (pc : LoadMap)
  | startMapping (name : String) (pc : StartMappingRequest)
  | stopMapping
  | saveMap (pc : SaveMapRequest)
  | startLocalization (name : String) (pc : StartLocalizationRequest)
  | stopLocalization
  | setInitialPose (pose : StampedPose) (pc : SetInitialPose)
  | sensorTick (pc : SensorTick)
  | processTick (pc : ProcessTick)
  | lastPoseTick (pc : SaveLastPose)
  | qualityTick (pc : QualityTick)
  | release (reply : Reply)
  | launch (operation : Operation) (reply : Option Reply)

/-- How a step of a handler ends. A timer returns no reply. -/
inductive HandlerNext where
  | next (handler : Handler)
  | done (reply : Option Reply)
  | launched (operation : Operation) (reply : Option Reply)
  | escaped (what : String)

def refuse (message : String) : HandlerNext := .done (some (reject message))

/-! ## Map requests -/

def CreateMap.step (config : Config) (env : Env) (name : String) (s : Shared) :
    CreateMap → Shared × HandlerNext
  | .acquire =>
    if s.currentState.isActiveSlamState || s.operationInProgress then
      (s, refuse "Map directories cannot be changed while SLAM is active")
    else ({ s with operationInProgress := true }, .next (.createMap name .create))
  | .create =>
    match MapManager.createMap config.mapFrame env.text env.failure env.secondFailure s.maps
        name with
    | (maps, .error what) => ({ s with maps := maps }, .next (.release (reject what)))
    | (maps, .ok ()) =>
      ({ s with maps := maps },
        .next (.release ⟨true, "Map directory created",
          MapManager.filePath config.mapRoot name "map.pcd"⟩))

def DeleteMap.step (env : Env) (name : String) (s : Shared) : DeleteMap → Shared × HandlerNext
  | .acquire =>
    if s.currentState.isActiveSlamState || s.operationInProgress then
      (s, refuse "Maps cannot be deleted while SLAM is active")
    else if name = s.currentMap then (s, refuse "Cannot delete the currently selected map")
    else ({ s with operationInProgress := true }, .next (.deleteMap name .remove))
  | .remove =>
    match MapManager.deleteMap env.removed env.failure s.maps name with
    | (maps, .error what) => ({ s with maps := maps }, .next (.release (reject what)))
    | (maps, .ok ()) => ({ s with maps := maps }, .next (.release (accept "Map deleted")))

def LoadMap.step (config : Config) (env : Env) (name : String) (s : Shared) :
    LoadMap → Shared × HandlerNext
  | .acquire =>
    if s.currentState.isActiveSlamState || s.operationInProgress then
      (s, refuse "Maps cannot be loaded while SLAM is active")
    else ({ s with operationInProgress := true }, .next (.loadMap name .load))
  | .load =>
    match env.failure with
    | some what => (s, .next (.release (reject what)))
    | none =>
      match MapManager.loadMap config.mapRoot s.maps name with
      | .error what => (s, .next (.release (reject what)))
      | .ok path => (s, .next (.loadMap name (.select path)))
  | .select path =>
    ({ s with currentMap := name }, .next (.release ⟨true, "Map selected", path⟩))

/-! ## Starting and stopping -/

/-- The text of the refusals that report the state and the sensors. -/
def requiresWaitMode (config : Config) (label : String) (s : Shared) : String :=
  label ++ " requires WAIT_MODE and healthy Ouster data (state=" ++ s.currentState.toString ++
    ", pointcloud_alive=" ++ toString s.sensorStatus.pointcloudAlive ++
    ", imu_alive=" ++ toString s.sensorStatus.imuAlive ++
    ", pointcloud_hz=" ++ config.streamText s.sensorStatus.pointcloudHz ++
    ", imu_hz=" ++ config.streamText s.sensorStatus.imuHz ++ ")"

/-- The section in which both start requests take the token. -/
def acquireForStart (config : Config) (label : String) (s : Shared) (next : Handler) :
    Shared × HandlerNext :=
  if (s.currentState ≠ .waitMode ∧ s.currentState ≠ .sensorReady) ∨
      s.sensorStatus.sensorReady = false then
    (s, refuse (requiresWaitMode config label s))
  else if s.operationInProgress then (s, refuse "Another system operation is in progress")
  else ({ s with operationInProgress := true }, .next next)

def StartMappingRequest.step (config : Config) (env : Env) (name : String) (s : Shared) :
    StartMappingRequest → Shared × HandlerNext
  | .checkLocalization =>
    if !MapManager.isValidMapName name then (s, refuse "Invalid map name")
    else if s.isRunning .localization then (s, refuse "Localization process is running")
    else (s, .next (.startMapping name .checkMapping))
  | .checkMapping =>
    if s.isRunning .mapping then
      (s, refuse "Mapping is already running or an external mapping service exists")
    else (s, .next (.startMapping name .saveService))
  | .saveService =>
    if env.available then
      (s, refuse "Mapping is already running or an external mapping service exists")
    else (s, .next (.startMapping name .acquire))
  | .acquire => acquireForStart config "Mapping" s (.startMapping name .findMap)
  | .findMap =>
    match env.failure with
    | some what => (s, .next (.release (reject what)))
    | none =>
      (s, .next (.startMapping name
        (if MapManager.mapExists s.maps name then .checkOutput false else .create)))
  | .create =>
    match MapManager.createMap config.mapFrame env.text env.failure env.secondFailure s.maps
        name with
    | (maps, .error what) => ({ s with maps := maps }, .next (.release (reject what)))
    | (maps, .ok ()) => ({ s with maps := maps }, .next (.startMapping name (.checkOutput true)))
  | .checkOutput created =>
    match MapManager.getMapPath config.mapRoot name with
    | .error what => (s, .next (.release (reject what)))
    | .ok _ =>
      match env.failure with
      | some what => (s, .next (.release (reject what)))
      | none =>
        if ((MapManager.directory? s.maps name).bind MapDirectory.mapPcd).isSome then
          (s, .next (.release (reject "Refusing to overwrite an existing map.pcd")))
        else (s, .next (.startMapping name (.select created)))
  | .select created =>
    ({ s with currentMap := name, errorCode := "", errorMessage := "" },
      .next (.startMapping name (.transition created)))
  | .transition created =>
    (s.transitionTo .mappingStarting,
      if s.currentState.canTransition .mappingStarting then
        .next (.launch (.startMapping name created .checkRunning)
          (some (accept "Mapping start accepted")))
      else .next (.startMapping name (if created then .cleanup else .unselect)))
  | .cleanup =>
    ({ s with maps := (MapManager.deleteMap env.removed env.failure s.maps name).1 },
      .next (.startMapping name .unselect))
  | .unselect =>
    ({ s with currentMap := "" },
      .next (.release (reject "State changed before mapping could start")))

/-- `handleStopMapping`. -/
def stopMappingStep (s : Shared) : Shared × HandlerNext :=
  if s.currentState ≠ .mapping then (s, refuse "Stop mapping is only valid in MAPPING state")
  else if s.operationInProgress then (s, refuse "Another system operation is in progress")
  else
    ({ s with operationInProgress := true },
      .next (.launch (.stopMapping (.stop .check))
        (some (accept "Mapping stop accepted; unsaved map data will be discarded"))))

def SaveMapRequest.step (config : Config) (s : Shared) : SaveMapRequest → Shared × HandlerNext
  | .acquire =>
    if s.currentState ≠ .mapping then (s, refuse "Save map is only valid in MAPPING state")
    else if s.operationInProgress then (s, refuse "Another system operation is in progress")
    else
      ({ s with operationInProgress := true }, .next (.saveMap (.transition s.currentMap)))
  | .transition map =>
    (s.transitionTo .mapSaving,
      if s.currentState.canTransition .mapSaving then .next (.saveMap (.path map))
      else .next (.release (reject "State changed before map saving could start")))
  | .path map =>
    match MapManager.getMapPath config.mapRoot map with
    | .error what => (s, .escaped what)
    | .ok _ => (s, .next (.launch (.saveMap map .checkRunning) (some (accept "Map save accepted"))))

def StartLocalizationRequest.step (config : Config) (env : Env) (name : String) (s : Shared) :
    StartLocalizationRequest → Shared × HandlerNext
  | .checkMapping =>
    if !MapManager.isValidMapName name then (s, refuse "Invalid map name")
    else if s.isRunning .mapping then
      (s, refuse "Mapping is running or an external mapping service exists")
    else (s, .next (.startLocalization name .saveService))
  | .saveService =>
    if env.available then
      (s, refuse "Mapping is running or an external mapping service exists")
    else (s, .next (.startLocalization name .checkLocalization))
  | .checkLocalization =>
    if s.isRunning .localization then (s, refuse "Localization is already running")
    else (s, .next (.startLocalization name .acquire))
  | .acquire => acquireForStart config "Localization" s (.startLocalization name .load)
  | .load =>
    match env.failure with
    | some what => (s, .next (.release (reject what)))
    | none =>
      match MapManager.loadMap config.mapRoot s.maps name with
      | .error what => (s, .next (.release (reject what)))
      | .ok _ => (s, .next (.startLocalization name .select))
  | .select =>
    ({ s with currentMap := name, errorCode := "", errorMessage := "" },
      .next (.startLocalization name .resetSession))
  | .resetSession =>
    ({ s.resetSession env.now with sessionMap := name },
      .next (.startLocalization name .resetQuality))
  | .resetQuality => (s.resetQuality, .next (.startLocalization name .transition))
  | .transition =>
    (s.transitionTo .localizationStarting,
      if s.currentState.canTransition .localizationStarting then
        .next (.launch (.startLocalization name .checkRunning)
          (some (accept "Localization start accepted")))
      else .next (.startLocalization name .unselect))
  | .unselect =>
    ({ s with currentMap := "" },
      .next (.release (reject "State changed before localization could start")))

/-- `handleStopLocalization`. -/
def stopLocalizationStep (s : Shared) : Shared × HandlerNext :=
  if !s.currentState.isLocalizationState then
    (s, refuse "Stop localization requires an active localization state")
  else if s.operationInProgress then (s, refuse "Another system operation is in progress")
  else
    ({ s with operationInProgress := true },
      .next (.launch (.stopLocalization (.save .poseValid))
        (some (accept "Localization stop accepted"))))

def SetInitialPose.step (config : Config) (env : Env) (pose : StampedPose) (s : Shared) :
    SetInitialPose → Shared × HandlerNext
  | .check =>
    if s.currentState ≠ .relocalizing ∧ s.currentState ≠ .localized then
      (s, refuse "Initial pose requires RELOCALIZING or LOCALIZED state")
    else if s.operationInProgress then (s, refuse "Another system operation is in progress")
    else (s, .next (.setInitialPose pose .publish))
  | .publish =>
    match publishInitialPose config env s pose with
    | .error what => (s, refuse what)
    | .ok s =>
      (s, .done (some (accept "Initial pose published; waiting for localization confirmation")))

/-- `handleRecover`. -/
def recoverStep (s : Shared) : Shared × HandlerNext :=
  if s.currentState ≠ .error then (s, refuse "Recovery is only valid in ERROR state")
  else if s.operationInProgress then (s, refuse "Another system operation is in progress")
  else if !s.currentState.canTransition .recovering then
    (s, refuse "Unable to enter RECOVERING state")
  else
    ({ s.transitionTo .recovering with operationInProgress := true },
      .next (.launch (.recovery (.checkRunning .mapping []))
        (some (accept "Recovery accepted; observe /system/status for completion"))))

/-! ## Timers -/

/-- The error fields set when a sensor failure ends an active SLAM state. -/
def failureReport (status : SensorStatus) : String × String :=
  if !status.pointcloudAlive then
    ("SENSOR_NO_POINTCLOUD", "Ouster PointCloud2 stream timed out")
  else if !status.imuAlive then ("SENSOR_NO_IMU", "Ouster IMU stream timed out")
  else ("SENSOR_RATE_LOW", "Ouster data rate is below the configured minimum")

/-- The error fields set while the manager waits for sensors, if any. -/
def waitingReport (status : SensorStatus) : Option (String × String) :=
  if !status.pointcloudAlive then
    some ("SENSOR_NO_POINTCLOUD", "Waiting for Ouster PointCloud2 data")
  else if !status.imuAlive then some ("SENSOR_NO_IMU", "Waiting for Ouster IMU data")
  else if !status.pointcloudRateOk then
    some ("SENSOR_POINTCLOUD_RATE_LOW", "PointCloud2 frequency is below the configured minimum")
  else if !status.imuRateOk then
    some ("SENSOR_IMU_RATE_LOW", "IMU frequency is below the configured minimum")
  else none

/-- The snapshot section of `updateSensorState` and the branches on what it has read. -/
def sensorSnapshot (config : Config) (status : SensorStatus) (now : Time) (s : Shared) :
    Shared × HandlerNext :=
  let state := s.currentState
  if status.sensorReady then
    ({ s with sensorStatus := status, sensorFailureStartedAt := none },
      if state = .sensorStarting then .next (.sensorTick .clearError)
      else if state = .sensorReady then .next (.sensorTick .toWait)
      else .done none)
  else
    let startedAt := s.sensorFailureStartedAt.getD now
    ({ s with sensorStatus := status, sensorFailureStartedAt := some startedAt },
      if state.isActiveSlamState then
        (if (Double.fin (secondsBetween now startedAt)).lt config.activeFailureGraceSec then
          .done none
        else .next (.sensorTick (.reportFailure status)))
      else if state = .sensorReady ∨ state = .waitMode then .next (.sensorTick (.restart status))
      else if state = .sensorStarting ∧ status.startupGraceElapsed = true then
        .next (.sensorTick (.reportWaiting status))
      else .done none)

def SensorTick.step (config : Config) (env : Env) (s : Shared) :
    SensorTick → Shared × HandlerNext
  | .readStatus => (s, .next (.sensorTick (.snapshot env.status env.now)))
  | .snapshot status now => sensorSnapshot config status now s
  | .clearError => (s.clearError, .next (.sensorTick .toReady))
  | .toReady => (s.transitionTo .sensorReady, .next (.sensorTick .toWait))
  | .toWait => (s.transitionTo .waitMode, .done none)
  | .reportFailure status =>
    (s.setSystemError (failureReport status).1 (failureReport status).2,
      .next (.sensorTick .enterError))
  | .enterError => (s.transitionTo .error, .next (.sensorTick .mappingRunning))
  | .mappingRunning => (s, .next (.sensorTick (.localizationRunning (s.isRunning .mapping))))
  | .localizationRunning mapping =>
    (s, .next (.sensorTick (.claim mapping (s.isRunning .localization))))
  | .claim mapping localization =>
    if !s.operationInProgress && (mapping || localization) then
      ({ s with operationInProgress := true },
        .next (.launch
          (.stopAfterFailure
            (if mapping then .stopMapping localization .check else .stopLocalization .check))
          none))
    else (s, .done none)
  | .restart status =>
    (s.transitionTo .sensorStarting,
      if status.startupGraceElapsed then .next (.sensorTick (.reportWaiting status))
      else .done none)
  | .reportWaiting status =>
    match waitingReport status with
    | some (code, message) => (s.setSystemError code message, .done none)
    | none => (s, .done none)

/-- The error code of a leader that exited on its own. -/
def Leader.exitedCode : Leader → String
  | .mapping => "MAPPING_PROCESS_EXITED"
  | .localization => "LOCALIZATION_PROCESS_EXITED"

def ProcessTick.step (s : Shared) : ProcessTick → Shared × HandlerNext
  | .snapshot =>
    if s.operationInProgress then (s, .done none)
    else if s.currentState = .mapping then (s, .next (.processTick (.checkRunning .mapping)))
    else if s.currentState = .relocalizing ∨ s.currentState = .localized then
      (s, .next (.processTick (.checkRunning .localization)))
    else (s, .done none)
  | .checkRunning leader =>
    (s, if s.isRunning leader then .done none else .next (.processTick (.readExitCode leader)))
  | .readExitCode leader =>
    (s, .next (.processTick (.report leader
      (leader.label ++ " process exited unexpectedly (exit_code=" ++
        exitText (s.processes leader).lastExitCode ++ ")"))))
  | .report leader message =>
    (s.setSystemError leader.exitedCode message, .next (.processTick .enterError))
  | .enterError => (s.transitionTo .error, .done none)

def QualityTick.step (config : Config) (env : Env) (s : Shared) :
    QualityTick → Shared × HandlerNext
  | .readState =>
    (s, .next (.qualityTick (.readProcess
      { localizationActive := s.currentState.isLocalizationState
        localizationInitialized := decide (s.currentState = .localized)
        sensorsHealthy := s.sensorStatus.sensorReady })))
  | .readProcess context =>
    (s, .next (.qualityTick (.evaluate
      { context with localizationProcessAlive := s.isRunning .localization })))
  | .evaluate context =>
    ({ s with
        quality := (s.quality.evaluate config.quality config.mapFrame env.now context).1 },
      .done none)

def lastPoseTickStep (config : Config) (s : Shared) (pc : SaveLastPose) : Shared × HandlerNext :=
  match saveLastPoseStep config s pc with
  | (s, .next pc) => (s, .next (.lastPoseTick pc))
  | (s, .done) => (s, .done none)
  | (s, .throws what) => (s, .escaped what)

/-- One step of the callback of the default group. -/
def Handler.step (config : Config) (env : Env) (s : Shared) : Handler → Shared × HandlerNext
  | .recover => recoverStep s
  | .createMap name pc => pc.step config env name s
  | .deleteMap name pc => pc.step env name s
  | .loadMap name pc => pc.step config env name s
  | .startMapping name pc => pc.step config env name s
  | .stopMapping => stopMappingStep s
  | .saveMap pc => pc.step config s
  | .startLocalization name pc => pc.step config env name s
  | .stopLocalization => stopLocalizationStep s
  | .setInitialPose pose pc => pc.step config env pose s
  | .sensorTick pc => pc.step config env s
  | .processTick pc => pc.step s
  | .lastPoseTick pc => lastPoseTickStep config s pc
  | .qualityTick pc => pc.step config env s
  | .release reply => (s.finishOperation, .done (some reply))
  | .launch operation reply => (s, .launched operation reply)

end SlamSystemManager.Manager
