import SlamSystemManager.Library.TransitionSystem
import SlamSystemManager.Manager.State

/-!
# The health monitor

`HealthMonitor` with its configuration. A callback and `getStatus` read the steady clock before they
take the mutex, and the callback group is reentrant: any number of them may stand between the two,
and whichever takes the mutex next does its whole section.
-/

open Numeric

namespace SlamSystemManager

open Manager

/-! ## The data -/

structure SensorConfig where
  pointcloudTimeoutSec : Double := .fin 1
  imuTimeoutSec : Double := .fin (5 / 10)
  minPointcloudHz : Double := .fin 5
  minImuHz : Double := .fin 20
  frequencyWindowSec : Double := .fin 2
  startupGraceSec : Double := .fin 3
  activeFailureGraceSec : Double := .fin 5
  healthCheckHz : Double := .fin 10

/-- The scalars of the file: what the conversion to a double returns, or the text it throws. -/
abbrev SensorDocument := String → Option (Except String Double)

inductive Sensor where
  | pointcloud
  | imu
  deriving DecidableEq

/-- The members of one sensor; the oldest place of the deque comes first. -/
structure SensorStream where
  received : Bool := false
  lastTime : Time := 0
  samples : List Time := []

structure HealthMonitor where
  config : SensorConfig := {}
  startedAt : Time := 0
  streams : Sensor → SensorStream := fun _ ↦ {}

namespace HealthMonitor

/-! ## Configuration -/

/-- `requiredValue<double>`. -/
def requiredValue (root : SensorDocument) (key : String) : Except String Double :=
  match root key with
  | none => .error ("Missing sensor configuration key: " ++ key)
  | some (.error what) => .error ("Invalid sensor configuration key '" ++ key ++ "': " ++ what)
  | some (.ok value) => .ok value

/-- `requirePositive`, with the comparison of the source. -/
def requirePositive (value : Double) (key : String) : Except String Unit :=
  if value.le (.fin 0) then
    .error ("Sensor configuration key '" ++ key ++ "' must be greater than zero")
  else .ok ()

/-- `loadConfig`, after YAML parsing. -/
def loadConfig (root : SensorDocument) : Except String SensorConfig := do
  let config : SensorConfig := {
    pointcloudTimeoutSec := ← requiredValue root "pointcloud_timeout_sec"
    imuTimeoutSec := ← requiredValue root "imu_timeout_sec"
    minPointcloudHz := ← requiredValue root "min_pointcloud_hz"
    minImuHz := ← requiredValue root "min_imu_hz"
    frequencyWindowSec := ← requiredValue root "frequency_window_sec"
    startupGraceSec := ← requiredValue root "startup_grace_sec"
    activeFailureGraceSec := ← requiredValue root "active_failure_grace_sec"
    healthCheckHz := ← requiredValue root "health_check_hz" }
  requirePositive config.pointcloudTimeoutSec "pointcloud_timeout_sec"
  requirePositive config.imuTimeoutSec "imu_timeout_sec"
  requirePositive config.minPointcloudHz "min_pointcloud_hz"
  requirePositive config.minImuHz "min_imu_hz"
  requirePositive config.frequencyWindowSec "frequency_window_sec"
  requirePositive config.startupGraceSec "startup_grace_sec"
  requirePositive config.activeFailureGraceSec "active_failure_grace_sec"
  requirePositive config.healthCheckHz "health_check_hz"
  return config

/-! ## Sections under the mutex -/

/-- `std::chrono::duration<double>(later - earlier).count()`. -/
def duration (later earlier : Time) : Double := .fin (secondsBetween later earlier)

/-- `pruneSamples`. -/
def pruneSamples (samples : List Time) (now : Time) (windowSec : Double) : List Time :=
  samples.dropWhile fun sample ↦ windowSec.lt (duration now sample)

/-- `calculateFrequency`. -/
def calculateFrequency (samples : List Time) : Double :=
  if samples.length < 2 then .fin 0
  else
    let elapsed := secondsBetween (samples.getLastD 0) (samples.headD 0)
    if 0 < elapsed then .fin (((samples.length - 1 : ℕ) : ℚ) / elapsed) else .fin 0

def observe (windowSec : Double) (now : Time) (stream : SensorStream) : SensorStream where
  received := true
  lastTime := now
  samples := pruneSamples (stream.samples ++ [now]) now windowSec

def sensorCallback (sensor : Sensor) (now : Time) (monitor : HealthMonitor) : HealthMonitor :=
  { monitor with
    streams := Function.update monitor.streams sensor
      (observe monitor.config.frequencyWindowSec now (monitor.streams sensor)) }

/-- The section of `pointcloudCallback`. -/
def pointcloudCallback : Time → HealthMonitor → HealthMonitor := sensorCallback .pointcloud

/-- The section of `imuCallback`. -/
def imuCallback : Time → HealthMonitor → HealthMonitor := sensorCallback .imu

def prune (now : Time) (monitor : HealthMonitor) : HealthMonitor :=
  { monitor with
    streams := fun sensor ↦
      { monitor.streams sensor with
        samples := pruneSamples (monitor.streams sensor).samples now
          monitor.config.frequencyWindowSec } }

/-- The section of `getStatus`. -/
def getStatus (now : Time) (monitor : HealthMonitor) : HealthMonitor × SensorStatus :=
  let pruned := monitor.prune now
  let config := monitor.config
  let pointcloud := pruned.streams .pointcloud
  let imu := pruned.streams .imu
  let pointcloudAlive :=
    pointcloud.received && (duration now pointcloud.lastTime).le config.pointcloudTimeoutSec
  let imuAlive := imu.received && (duration now imu.lastTime).le config.imuTimeoutSec
  (pruned,
    { startupGraceElapsed := config.startupGraceSec.le (duration now monitor.startedAt)
      pointcloudAlive := pointcloudAlive
      imuAlive := imuAlive
      pointcloudHz := calculateFrequency pointcloud.samples
      imuHz := calculateFrequency imu.samples
      pointcloudRateOk := config.minPointcloudHz.le (calculateFrequency pointcloud.samples)
      imuRateOk := config.minImuHz.le (calculateFrequency imu.samples)
      sensorReady := pointcloudAlive && imuAlive })

/-! ## Concurrent calls -/

inductive Call where
  | pointcloudCallback
  | imuCallback
  | getStatus
  deriving DecidableEq

/-- The sensor whose message a call brings. -/
def Call.sensor? : Call → Option Sensor
  | .pointcloudCallback => some .pointcloud
  | .imuCallback => some .imu
  | .getStatus => none

/-- The section of a call, and the status it returns. -/
def run (now : Time) (monitor : HealthMonitor) : Call → HealthMonitor × Option SensorStatus
  | .pointcloudCallback => (monitor.pointcloudCallback now, none)
  | .imuCallback => (monitor.imuCallback now, none)
  | .getStatus => ((monitor.getStatus now).1, some (monitor.getStatus now).2)

/-- The monitor, the steady clock, and the calls that have read it and wait for the mutex. -/
structure Sys where
  monitor : HealthMonitor
  clock : Time
  waiting : ℕ → Option (Call × Time)

inductive Action where
  | pass (elapsed : ℕ)
  | read (caller : ℕ) (call : Call)
  | lock (caller : ℕ)

def step (s : Sys) : Action → Option Sys
  | .pass elapsed => some { s with clock := s.clock + elapsed }
  | .read caller call =>
    if (s.waiting caller).isNone then
      some { s with waiting := Function.update s.waiting caller (some (call, s.clock)) }
    else none
  | .lock caller =>
    match s.waiting caller with
    | none => none
    | some (call, now) =>
      some { s with
        monitor := (s.monitor.run now call).1
        waiting := Function.update s.waiting caller none }

/-- The constructor has read the clock, and no message has come. -/
def Started (s : Sys) : Prop :=
  s.monitor.startedAt ≤ s.clock ∧ s.monitor.streams = (fun _ ↦ {}) ∧ s.waiting = fun _ ↦ none

end HealthMonitor

end SlamSystemManager
