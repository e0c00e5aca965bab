import SlamSystemManager.Library.TransitionSystem
import SlamSystemManager.Manager.Handlers

/-!
# The system manager as a transition system

The threads of the manager take turns: the callback of the default group, the operation thread,
any number of adapter callbacks of the reentrant group and the save worker, beside the two leader
processes and the messages that arrive. An action is one step of one of them.
-/

open TransitionSystem

namespace SlamSystemManager.Manager

/-! ## Callbacks of the relocalization adapter -/

/-- Where a callback of the reentrant group stands: `handleInitialPose` with
`handleInitialPoseObserved`, `handleCorrection` with `handleLocalizationConfirmed`, and
`handleRawOdometry`. -/
inductive Callback where
  | initialPose (message : StampedPose)
  | resetForPose (localized : Bool)
  | resetQualityForPose (localized : Bool)
  | returnToRelocalizing
  | correction (message : StampedPose)
  | confirmState
  | confirmRunning
  | confirmTransition
  | setLocalized
  | rawOdometry (message : StampedPose)
  | publishOdometry (message : StampedPose) (correction : InSession StampedPose)
    (localized : Bool)
  | publishPose (pose : InSession StampedPose) (localized : Bool)
  | storePose (pose : InSession StampedPose)
  deriving DecidableEq

/-- One step of an adapter callback; `none` when it has returned. -/
def Callback.step (config : Config) (env : Env) (s : Shared) : Callback → Shared × Option Callback
  | .initialPose message =>
    match RelocalizationAdapter.validatePose config.math config.mapFrame message with
    | .error _ => (s, none)
    | .ok _ =>
      if s.currentState ≠ .relocalizing ∧ s.currentState ≠ .localized then (s, none)
      else (s, some (.resetForPose (decide (s.currentState = .localized))))
  | .resetForPose localized => (s.resetSession env.now, some (.resetQualityForPose localized))
  | .resetQualityForPose localized =>
    (s.resetQuality, if localized then some .returnToRelocalizing else none)
  | .returnToRelocalizing => (s.transitionTo .relocalizing, none)
  | .correction message =>
    match RelocalizationAdapter.validatePose config.math config.mapFrame message with
    | .error _ => (s, none)
    | .ok validated =>
      ({ s with adapter := (s.adapter.acceptCorrection message validated).1 },
        if (s.adapter.acceptCorrection message validated).2 then some .confirmState else none)
  | .confirmState => (s, if s.currentState = .relocalizing then some .confirmRunning else none)
  | .confirmRunning => (s, if s.isRunning .localization then some .confirmTransition else none)
  | .confirmTransition =>
    (s.transitionTo .localized,
      if s.currentState.canTransition .localized then some .setLocalized else none)
  | .setLocalized => ({ s with adapter := s.adapter.setLocalized true }, none)
  | .rawOdometry message =>
    match s.adapter.copyCorrection with
    | none => (s, none)
    | some (copied, localized) => (s, some (.publishOdometry message copied localized))
  | .publishOdometry message copied localized =>
    let pose := RelocalizationAdapter.unifiedPose config.compose config.mapFrame copied message
    ({ s with
        adapter :=
          { s.adapter with publishedOdometry := pose.value :: s.adapter.publishedOdometry } },
      some (.publishPose pose localized))
  | .publishPose pose localized =>
    ({ s with
        adapter := { s.adapter with publishedPoses := pose.value :: s.adapter.publishedPoses } },
      if localized then some (.storePose pose) else none)
  | .storePose pose => ({ s with adapter := s.adapter.storeTrustedPose pose }, none)

/-! ## Requests and messages -/

/-- What starts a callback of the default group. -/
inductive Request where
  | recover
  | createMap (name : String)
  | deleteMap (name : String)
  | loadMap (name : String)
  | startMapping (name : String)
  | stopMapping
  | saveMap
  | startLocalization (name : String)
  | stopLocalization
  | setInitialPose (pose : StampedPose)
  | sensorTimer
  | processTimer
  | lastPoseTimer
  | qualityTimer
  deriving DecidableEq

def Request.handler : Request → Handler
  | .recover => .recover
  | .createMap name => .createMap name .acquire
  | .deleteMap name => .deleteMap name .acquire
  | .loadMap name => .loadMap name .acquire
  | .startMapping name => .startMapping name .checkLocalization
  | .stopMapping => .stopMapping
  | .saveMap => .saveMap .acquire
  | .startLocalization name => .startLocalization name .checkMapping
  | .stopLocalization => .stopLocalization
  | .setInitialPose pose => .setInitialPose pose .check
  | .sensorTimer => .sensorTick .readStatus
  | .processTimer => .processTick .snapshot
  | .lastPoseTimer => .lastPoseTick .poseValid
  | .qualityTimer => .qualityTick .readState

/-- A message on a topic the adapter subscribes to. -/
inductive AdapterMessage where
  | initialPose (message : StampedPose)
  | correction (message : StampedPose)
  | rawOdometry (message : StampedPose)
  deriving DecidableEq

def AdapterMessage.callback : AdapterMessage → Callback
  | .initialPose message => .initialPose message
  | .correction message => .correction message
  | .rawOdometry message => .rawOdometry message

/-- A message for the quality monitor, with its receipt time. -/
inductive Observation where
  | odometry (message : StampedPose) (receiptTime : Time)
  | pose (message : StampedPose) (receiptTime : Time)
  | correction (message : StampedPose) (receiptTime : Time)
  | registration (message : RegistrationQuality) (receiptTime : Time)

def Observation.apply (config : Config) (monitor : Quality.Monitor) :
    Observation → Quality.Monitor
  | .odometry message receiptTime =>
    monitor.observeOdometry config.quality config.math message receiptTime
  | .pose message receiptTime => monitor.observePose message receiptTime
  | .correction message receiptTime =>
    monitor.observeCorrection config.quality config.math message receiptTime
  | .registration message receiptTime => monitor.observeRegistration message receiptTime

/-! ## The system -/

structure Sys where
  shared : Shared
  handler : Option Handler := none
  operation : Option Operation := none
  callbacks : ℕ → Option Callback := fun _ ↦ none
  /-- The response of the last service that has answered. -/
  lastReply : Option Reply := none
  /-- An exception that has left a callback. -/
  escaped : Option String := none

inductive Action where
  | call (request : Request)
  | handler (env : Env)
  | operation (env : Env)
  | deliver (id : ℕ) (message : AdapterMessage)
  | callback (id : ℕ) (env : Env)
  | observe (observation : Observation)
  | exit (leader : Leader) (exitCode : ℤ)
  | writeMap (bytes : List UInt8)
  | takeSave
  | writeSave (error : Option String)

/-- A callback of the default group starts when none is running; the timer of the last pose
exists only when saving is enabled. -/
def Sys.call (config : Config) (s : Sys) (request : Request) : Option Sys :=
  if s.handler.isSome || (decide (request = .lastPoseTimer) && !config.lastPoseEnable) then none
  else some { s with handler := some request.handler }

/-- The state after a step of the running handler. `launchOperation` joins the previous operation
thread, so a launch waits until that has ended. -/
def Sys.afterHandler (s : Sys) : Shared × HandlerNext → Option Sys
  | (shared, .next handler) => some { s with shared := shared, handler := some handler }
  | (shared, .done reply) =>
    some { s with shared := shared, handler := none, lastReply := reply.or s.lastReply }
  | (shared, .launched operation reply) =>
    match s.operation with
    | some _ => none
    | none =>
      some { s with
        shared := shared
        handler := none
        operation := some operation
        lastReply := reply.or s.lastReply }
  | (shared, .escaped what) =>
    some { s with shared := shared, handler := none, escaped := some what }

def Sys.setCallback (s : Sys) (id : ℕ) (callback : Option Callback) : Sys :=
  { s with callbacks := Function.update s.callbacks id callback }

/-- One step of the save worker that holds a request. -/
def Shared.writeSave (s : Shared) (request : SaveRequest) (error : Option String) : Shared :=
  { s with
    adapter := { s.adapter with saving := none }
    maps :=
      match error with
      | some _ => s.maps
      | none =>
        MapManager.updateDirectory s.maps request.map fun contents ↦
          { contents with lastPose := some (.ok (RelocalizationAdapter.lastPoseFile request)) } }

def Sys.step (config : Config) (s : Sys) : Action → Option Sys
  | .call request => s.call config request
  | .handler env => s.handler.bind fun handler ↦ s.afterHandler (handler.step config env s.shared)
  | .operation env =>
    s.operation.map fun operation ↦
      { s with
        shared := (operation.step config env s.shared).1
        operation := (operation.step config env s.shared).2 }
  | .deliver id message =>
    if (s.callbacks id).isSome then none else some (s.setCallback id (some message.callback))
  | .callback id env =>
    (s.callbacks id).map fun callback ↦
      { s with
        shared := (callback.step config env s.shared).1
        callbacks := Function.update s.callbacks id (callback.step config env s.shared).2 }
  | .observe observation =>
    if s.handler.isSome then none
    else
      some { s with
        shared := { s.shared with quality := observation.apply config s.shared.quality } }
  | .exit leader exitCode =>
    if s.shared.isRunning leader then some { s with shared := s.shared.reap leader exitCode }
    else none
  | .writeMap bytes =>
    if s.shared.isRunning .mapping then
      some { s with
        shared := { s.shared with
          maps := MapManager.updateDirectory s.shared.maps (s.shared.processes .mapping).mapName
            fun contents ↦ { contents with mapPcd := some bytes } } }
    else none
  | .takeSave =>
    match s.shared.adapter.saving, s.shared.adapter.pendingSave with
    | none, some request =>
      some { s with
        shared := { s.shared with
          adapter := { s.shared.adapter with saving := some request, pendingSave := none } } }
    | _, _ => none
  | .writeSave error =>
    s.shared.adapter.saving.map fun request ↦
      { s with shared := s.shared.writeSave request error }

/-- The manager when its constructor has returned: it waits for the sensors, or an auto-start has
failed. Either leader may have been started automatically. -/
structure Sys.Initial (s : Sys) : Prop where
  state : s.shared.currentState = .sensorStarting ∨
    (s.shared.currentState = .error ∧ s.shared.errorCode = "PROCESS_AUTO_START_FAILED")
  map : s.shared.currentMap = ""
  token : s.shared.operationInProgress = false
  timer : s.shared.sensorFailureStartedAt = none
  adapter : s.shared.adapter = {}
  quality : s.shared.quality = {}
  handler : s.handler = none
  operation : s.operation = none
  callbacks : s.callbacks = fun _ ↦ none
  escaped : s.escaped = none

/-- Neither leader is one of the processes that are started automatically. -/
structure Sys.Unstarted (s : Sys) : Prop extends Sys.Initial s where
  processes : s.shared.processes = fun _ ↦ {}

/-- The manager on a map root, before its first callback. -/
def Sys.initial (maps : MapStore) (processes : Leader → Process := fun _ ↦ {}) : Sys :=
  { shared := { maps := maps, processes := processes } }

theorem initial_initial (maps : MapStore) (processes : Leader → Process := fun _ ↦ {}) :
    (Sys.initial maps processes).Initial :=
  ⟨Or.inl rfl, rfl, rfl, rfl, rfl, rfl, rfl, rfl, rfl, rfl⟩

theorem initial_unstarted (maps : MapStore) : (Sys.initial maps).Unstarted :=
  ⟨initial_initial maps, rfl⟩

/-- The manager whose automatic start of a process has failed; the others have been started. -/
def Sys.failedStart (maps : MapStore) (processes : Leader → Process := fun _ ↦ {}) : Sys :=
  { shared :=
      { currentState := .error
        errorCode := "PROCESS_AUTO_START_FAILED"
        maps := maps
        processes := processes } }

theorem failedStart_initial (maps : MapStore) (processes : Leader → Process := fun _ ↦ {}) :
    (Sys.failedStart maps processes).Initial :=
  ⟨Or.inr ⟨rfl, rfl⟩, rfl, rfl, rfl, rfl, rfl, rfl, rfl, rfl, rfl⟩

/-- The states of the manager that some run reaches. -/
def Reachable (config : Config) (s : Sys) : Prop :=
  Reaches (Sys.step config) anyAction Sys.Initial s

/-- The states of the manager that some run reaches where no leader is started automatically. -/
def ReachableUnstarted (config : Config) (s : Sys) : Prop :=
  Reaches (Sys.step config) anyAction Sys.Unstarted s

theorem ReachableUnstarted.reachable {config : Config} {s : Sys} (h : ReachableUnstarted config s) :
    Reachable config s :=
  h.of_init fun _ hs ↦ hs.toInitial

/-! ## Runs from the start -/

theorem unstarted_of_exec {config : Config} {maps : MapStore} {actions : List Action} {s : Sys}
    (h : exec (Sys.step config) (Sys.initial maps) actions = some s) :
    ReachableUnstarted config s :=
  (Reaches.start (initial_unstarted maps)).steps (steps_of_exec h)

theorem reachable_of_exec {config : Config} {maps : MapStore} {actions : List Action} {s : Sys}
    (h : exec (Sys.step config) (Sys.initial maps) actions = some s) : Reachable config s :=
  (unstarted_of_exec h).reachable

/-- What a test finds at the end of a replay holds of a state that the runs reach. -/
theorem exists_unstarted_of_execWith (config : Config) (maps : MapStore) (ok : Sys → Action → Prop)
    (passes : Sys → Action → Bool) (hpasses : ∀ s a, passes s a = true → ok s a)
    (actions : List Action) (test : Sys → Bool)
    (h : (execWith (Sys.step config) passes (Sys.initial maps) actions).any test = true) :
    ∃ s, Reaches (Sys.step config) ok Sys.Unstarted s ∧ test s = true :=
  (Reaches.start (initial_unstarted maps)).exists_of_execWith hpasses h

theorem exists_unstarted_of_exec (config : Config) (maps : MapStore) (actions : List Action)
    (test : Sys → Bool)
    (h : (exec (Sys.step config) (Sys.initial maps) actions).any test = true) :
    ∃ s, ReachableUnstarted config s ∧ test s = true :=
  exists_unstarted_of_execWith config maps anyAction _ (fun _ _ _ ↦ trivial) actions test h

theorem exists_of_execWith (config : Config) (maps : MapStore) (ok : Sys → Action → Prop)
    (passes : Sys → Action → Bool) (hpasses : ∀ s a, passes s a = true → ok s a)
    (actions : List Action) (test : Sys → Bool)
    (h : (execWith (Sys.step config) passes (Sys.initial maps) actions).any test = true) :
    ∃ s, Reaches (Sys.step config) ok Sys.Initial s ∧ test s = true := by
  obtain ⟨s, hreach, htest⟩ :=
    exists_unstarted_of_execWith config maps ok passes hpasses actions test h
  exact ⟨s, hreach.of_init fun _ hinit ↦ hinit.toInitial, htest⟩

theorem exists_of_exec (config : Config) (maps : MapStore) (actions : List Action)
    (test : Sys → Bool)
    (h : (exec (Sys.step config) (Sys.initial maps) actions).any test = true) :
    ∃ s, Reachable config s ∧ test s = true :=
  exists_of_execWith config maps anyAction _ (fun _ _ _ ↦ trivial) actions test h

/-- Everything that is asked is available, and the sensors are ready. -/
def readyEnv : Env :=
  { status :=
      { pointcloudAlive := true
        imuAlive := true
        pointcloudRateOk := true
        imuRateOk := true
        sensorReady := true
        startupGraceElapsed := true } }

/-- Nothing that is asked is available. -/
def absentEnv : Env := { available := false }

/-- A root that holds one complete map of each of the names. -/
def storedMaps (names : List String) : MapStore :=
  names.foldr (fun name maps ↦ maps.insert name (.directory
    { MapManager.newDirectory "map" name "" with mapPcd := some [0] })) ∅

/-- A tick of the sensor timer leads from SENSOR_STARTING to WAIT_MODE. -/
def toWaitMode : List Action := .call .sensorTimer :: List.replicate 5 (.handler readyEnv)

/-- A start of mapping from WAIT_MODE, as far as the launch of the operation. -/
def launchMapping (map : String) : List Action :=
  .call (.startMapping map) :: List.replicate 10 (.handler absentEnv)

/-- The operation of a start of mapping that succeeds. -/
def enterMapping : List Action :=
  List.replicate 4 (.operation absentEnv) ++ List.replicate 4 (.operation readyEnv)

/-- A start of localization from WAIT_MODE, as far as the launch of the operation. -/
def launchLocalization (map : String) : List Action :=
  .call (.startLocalization map) :: List.replicate 10 (.handler absentEnv)

/-- The operation of a start of localization, as far as the transition to RELOCALIZING. -/
def enterRelocalizing : List Action := List.replicate 7 (.operation readyEnv)

/-- Two ticks of the sensor timer without data; the second one, after the grace time, takes a number
of steps. -/
def sensorLoss (steps : ℕ) : List Action :=
  [.call .sensorTimer, .handler {}, .handler {}, .call .sensorTimer] ++
    List.replicate steps (.handler { now := 5000000000 })

/-- A start of localization whose sensors are lost while it loads the last pose: the tick leaves the
token alone, and the operation ends without a stop. -/
def loseSensorsRelocalizing : List Action :=
  toWaitMode ++ launchLocalization "m" ++ enterRelocalizing ++ sensorLoss 7 ++
    List.replicate 2 (.operation {})

/-- The origin of the map frame, at a time. -/
def originAt (stamp : Time) : StampedPose :=
  { frameId := "map"
    stamp := stamp
    pose := ⟨⟨.fin 0, .fin 0, .fin 0⟩, ⟨.fin 0, .fin 0, .fin 0, .fin 1⟩⟩ }

/-- A callback with a message takes a number of steps. -/
def runCallback (id : ℕ) (message : AdapterMessage) (steps : ℕ) (now : Time) : List Action :=
  .deliver id message :: List.replicate steps (.callback id { now := now })

end SlamSystemManager.Manager
