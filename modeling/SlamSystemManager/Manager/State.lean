import SlamSystemManager.Quality.Monitor
import SlamSystemManager.RelocalizationAdapter
import SlamSystemManager.SystemState

/-!
# The shared state of the system manager

The data that handlers, timers, the operation thread and the adapter callbacks share, and the
pieces of code they all use: the transition function, the error fields, the process table of the
two leaders, `stop` of the two adapters and `saveLastPose`. A thread is a program counter that
moves by one critical section or one call of the environment at a time; what the environment
answers in that step is an `Env`.
-/

open Numeric

namespace SlamSystemManager.Manager

structure SensorStatus where
  pointcloudAlive : Bool := false
  imuAlive : Bool := false
  pointcloudHz : Double := .fin 0
  imuHz : Double := .fin 0
  pointcloudRateOk : Bool := false
  imuRateOk : Bool := false
  sensorReady : Bool := false
  startupGraceElapsed : Bool := false
  deriving DecidableEq

/-- The configuration values the manager reads. -/
structure Config where
  quality : Quality.Config := {}
  math : Cmath := ⟨id, id, id, fun _ _ ↦ 0, fun _ _ ↦ abs_zero_le_four⟩
  mapFrame : String := "map"
  /-- The canonical map root of `MapManager`. -/
  mapRoot : String := "/maps"
  /-- The lexically normal map root of `RelocalizationAdapter`. -/
  configuredRoot : String := "/maps"
  activeFailureGraceSec : Double := .fin 5
  lastPoseEnable : Bool := true
  lastPoseRetryCount : ℕ := 3
  /-- The file that the mapping adapter writes into the directory of a map before a start. -/
  runtimeConfigName : String := "mapping_runtime.yaml"
  mappingStartupTimeoutSec : Double := .fin 10
  saveServiceName : String := "/map_save"
  saveTimeoutSec : Double := .fin 60
  localizationStartupTimeoutSec : Double := .fin 20
  /-- `std::to_string` of a double. -/
  toText : Double → String := fun _ ↦ ""
  /-- A double written to a stream. -/
  streamText : Double → String := fun _ ↦ ""
  /-- The product of two `tf2` transforms. -/
  compose : Pose Double → Pose Double → Pose Double := fun _ pose ↦ pose

/-- The runtime configuration replaces none of the files that the manager reads. -/
def Config.OwnRuntimeName (config : Config) : Prop :=
  config.runtimeConfigName ∉ ["metadata.yaml", "map.pcd", "last_pose.yaml"]

instance (config : Config) : Decidable config.OwnRuntimeName :=
  inferInstanceAs (Decidable (_ ∉ _))

/-- The managed leader processes. -/
inductive Leader where
  | mapping
  | localization
  deriving DecidableEq

/-- The name of the process in the table. -/
def Leader.name : Leader → String
  | .mapping => "mapping"
  | .localization => "localization"

/-- The name of the process in the adapters' messages. -/
def Leader.label : Leader → String
  | .mapping => "Mapping"
  | .localization => "Localization"

/-- A record of the process table; `mapName` is the substitution of the last start. -/
structure Process where
  alive : Bool := false
  mapName : String := ""
  lastExitCode : Option ℤ := none
  deriving DecidableEq

/-- What the environment answers in one step. -/
structure Env where
  now : Time := 0
  status : SensorStatus := {}
  /-- The answer of a service, topic or process that is asked. -/
  available : Bool := true
  /-- Whether the deadline of a polling loop has passed. -/
  timedOut : Bool := false
  /-- The error of an external call, and of a second one made in the same step. -/
  failure : Option String := none
  secondFailure : Option String := none
  /-- What a `remove_all` that fails has removed. -/
  removed : MapManager.Removed := {}
  /-- The exception a step of an operation body throws. -/
  throws : Option String := none
  exitCode : ℤ := 0
  text : String := ""

/-- The members of `SystemManager` and of the components it owns. -/
structure Shared where
  currentState : SystemState := .sensorStarting
  currentMap : String := ""
  errorCode : String := ""
  errorMessage : String := ""
  sensorStatus : SensorStatus := {}
  operationInProgress : Bool := false
  sensorFailureStartedAt : Option Time := none
  processes : Leader → Process := fun _ ↦ {}
  maps : MapStore := ∅
  adapter : RelocalizationAdapter := {}
  quality : Quality.Monitor := {}
  /-- The initial poses published by the adapter, latest first. -/
  publishedInitialPoses : List StampedPose := []
  /-- The map of the last accepted start of localization, kept as a history variable. -/
  sessionMap : String := ""

namespace Shared

/-! ## State, token and errors -/

/-- `transitionTo`; the source's return value is `canTransition s.currentState next`. -/
def transitionTo (s : Shared) (next : SystemState) : Shared :=
  if s.currentState.canTransition next then { s with currentState := next } else s

def finishOperation (s : Shared) : Shared := { s with operationInProgress := false }

def setSystemError (s : Shared) (code message : String) : Shared :=
  { s with errorCode := code, errorMessage := message }

def clearError (s : Shared) : Shared := { s with errorCode := "", errorMessage := "" }

def resetSession (s : Shared) (now : Time) : Shared :=
  { s with adapter := s.adapter.resetSession now }

def resetQuality (s : Shared) : Shared := { s with quality := s.quality.reset }

/-! ## The process table -/

def isRunning (s : Shared) (leader : Leader) : Bool := (s.processes leader).alive

def setProcess (s : Shared) (leader : Leader) (process : Process) : Shared :=
  { s with processes := Function.update s.processes leader process }

/-- The record after a successful `fork` in `startProcess`. -/
def fork (s : Shared) (leader : Leader) (map : String) : Shared :=
  s.setProcess leader { alive := true, mapName := map, lastExitCode := none }

/-- The record after `waitpid` has returned the leader. -/
def reap (s : Shared) (leader : Leader) (exitCode : ℤ) : Shared :=
  s.setProcess leader { s.processes leader with alive := false, lastExitCode := some exitCode }

end Shared

/-- The text of an exit code in the messages. -/
def exitText : Option ℤ → String
  | some code => toString code
  | none => "unknown"

/-! ## Stopping a leader -/

/-- Where `MappingAdapter::stop` and `LocalizationAdapter::stop` stand: the adapter's own check,
the lookup in `stopProcess`, and its signals and waits. -/
inductive StopStage where
  | check
  | lookup
  | wait
  deriving DecidableEq

/-- The end of a call of `stop`. -/
abbrev StopResult := Except String Unit

def stopStep (env : Env) (leader : Leader) (s : Shared) :
    StopStage → Shared × (StopStage ⊕ StopResult)
  | .check =>
    if s.isRunning leader then (s, .inl .lookup)
    else (s, .inr (.error (leader.label ++ " process is not running")))
  | .lookup =>
    if s.isRunning leader then (s, .inl .wait)
    else (s, .inr (.error ("Process is not running: " ++ leader.name)))
  | .wait =>
    if s.isRunning leader then
      if env.available then (s.reap leader env.exitCode, .inr (.ok ()))
      else (s, .inr (.error ("Process could not be reaped after SIGKILL: " ++ leader.name)))
    else (s, .inr (.ok ()))

/-! ## Saving the last pose -/

/-- Where `saveLastPose` and the `requestLastPoseSave` it calls stand. -/
inductive SaveLastPose where
  | poseValid
  | readMap
  | checkPath (map : String)
  | capture (map : String)
  | enqueue (request : SaveRequest)
  deriving DecidableEq

/-- How a step of `saveLastPose` ends. -/
inductive SaveNext where
  | next (pc : SaveLastPose)
  | done
  | throws (what : String)

def saveLastPoseStep (config : Config) (s : Shared) : SaveLastPose → Shared × SaveNext
  | .poseValid => (s, if s.quality.status.poseValid then .next .readMap else .done)
  | .readMap =>
    if s.currentState ≠ .localized ∨ s.currentMap = "" then (s, .done)
    else (s, .next (.checkPath s.currentMap))
  | .checkPath map =>
    match MapManager.getMapPath config.mapRoot map with
    | .error what => (s, .throws what)
    | .ok _ =>
      if config.lastPoseEnable && decide (config.mapRoot = config.configuredRoot) &&
          (MapManager.directory? s.maps map).isSome then
        (s, .next (.capture map))
      else (s, .done)
  | .capture map =>
    match s.adapter.capturePose map s.sessionMap with
    | none => (s, .done)
    | some request => (s, .next (.enqueue request))
  | .enqueue request =>
    ({ s with adapter := { s.adapter with pendingSave := some request } }, .done)

end SlamSystemManager.Manager
