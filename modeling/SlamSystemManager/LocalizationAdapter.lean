import Mathlib.Algebra.Order.Archimedean.Basic
import Mathlib.Data.Rat.Floor
import SlamSystemManager.Library.Path
import SlamSystemManager.Library.TransitionSystem
import SlamSystemManager.Manager.Operations

/-!
# Starting localization against the clock

`LocalizationAdapter::start` with every reading of the steady clock, and `loadConfig` with its check
of the timing. The operation thread has the same function with the clock left to its environment.
-/

open Numeric PosixPath TransitionSystem

namespace SlamSystemManager.LocalizationAdapter

/-! ## Configuration -/

structure LocalizationAdapterConfig where
  startupTimeoutSec : Double := .fin 20
  startupStabilitySec : Double := .fin 1
  requiredTopics : List String := []

/-- The `localization_adapter` map: what a value converts to, or the text it throws. -/
structure Document where
  startupTimeoutSec : Option (Except String Double)
  startupStabilitySec : Option (Except String Double)
  requiredTopics : Option (Except String (List String))

def requiredValue {α : Type} (value : Option (Except String α)) (key : String) : Except String α :=
  match value with
  | none => .error ("Missing localization_adapter configuration key: " ++ key)
  | some (.error what) =>
    .error ("Invalid localization_adapter configuration key '" ++ key ++ "': " ++ what)
  | some (.ok value) => .ok value

/-- `loadConfig`, after YAML parsing. -/
def loadConfig (document : Option Document) : Except String LocalizationAdapterConfig := do
  match document with
  | none => throw "Process config must contain a localization_adapter map"
  | some document =>
    let config : LocalizationAdapterConfig := {
      startupTimeoutSec := ← requiredValue document.startupTimeoutSec "startup_timeout_sec"
      startupStabilitySec := ← requiredValue document.startupStabilitySec "startup_stability_sec"
      requiredTopics := ← requiredValue document.requiredTopics "required_topics" }
    if config.startupTimeoutSec.le (.fin 0) || config.startupStabilitySec.le (.fin 0) ||
        config.startupTimeoutSec.lt config.startupStabilitySec then
      throw ("Localization adapter startup timing must be positive and stability must not " ++
        "exceed timeout")
    match config.requiredTopics.find? fun topic ↦ topic.toList.head? ≠ some '/' with
    | some topic => throw ("Localization required topics must be absolute: " ++ topic)
    | none => return config

/-! ## The loop -/

/-- What one iteration reads: the clock in its condition, the answer of the process manager, the
clock once more, and which topics have a publisher. -/
structure Poll where
  loopTime : Time
  running : Bool := true
  exitCode : Option ℤ := none
  checkTime : Time
  published : String → Bool := fun _ ↦ true

/-- The topics `requiredTopicsAvailable` finds without a publisher. -/
def Poll.missingTopics (poll : Poll) (requiredTopics : List String) : List String :=
  requiredTopics.filter fun topic ↦ !poll.published topic

def joinTopics (topics : List String) : String := ", ".intercalate topics

inductive PollResult where
  | timedOut
  | exited (exitCode : Option ℤ)
  | ready
  | again (missing : List String)

/-- One iteration up to its sleep. -/
def Poll.result (poll : Poll) (requiredTopics : List String) (deadline stableAt : ℤ) : PollResult :=
  if deadline ≤ poll.loopTime then .timedOut
  else if poll.running = false then .exited poll.exitCode
  else if stableAt ≤ poll.checkTime then
    (if poll.missingTopics requiredTopics = [] then .ready
    else .again (poll.missingTopics requiredTopics))
  else .again []

inductive LoopEnd where
  | timedOut (missing : List String)
  | exited (exitCode : Option ℤ)
  | ready

/-- The loop from an iteration on, with a bound on the iterations. -/
def pollLoop (requiredTopics : List String) (deadline stableAt : ℤ) (polls : ℕ → Poll) :
    ℕ → ℕ → List String → Option LoopEnd
  | 0, _, _ => none
  | fuel + 1, index, missing =>
    match (polls index).result requiredTopics deadline stableAt with
    | .timedOut => some (.timedOut missing)
    | .exited exitCode => some (.exited exitCode)
    | .ready => some .ready
    | .again missing => pollLoop requiredTopics deadline stableAt polls fuel (index + 1) missing

/-- `duration_cast` of seconds to the nanoseconds of the clock; the cast of a double that has no
place among them is not defined, so it is whatever `undefinedCast` gives. -/
def nanoseconds (undefinedCast : Double → ℤ) (seconds : Double) : ℤ :=
  match seconds with
  | .fin x =>
    if |x * 10 ^ 9| < 2 ^ 63 then (if 0 ≤ x then ⌊x * 10 ^ 9⌋ else ⌈x * 10 ^ 9⌉)
    else undefinedCast (.fin x)
  | seconds => undefinedCast seconds

/-- What `start` meets in the process manager, in the file system and on the clock. -/
structure Surroundings where
  alreadyRunning : Bool := false
  isRegularFile : Bool := true
  fileSize : Except String ℕ := .ok 1
  startProcess : Except String Unit := .ok ()
  startedAt : Time
  polls : ℕ → Poll
  stopProcess : Except String Unit := .ok ()
  /-- Whether the process runs after a stop that has failed. -/
  runsOn : Bool := true
  undefinedCast : Double → ℤ := fun _ ↦ 0
  toText : Double → String := fun _ ↦ ""

/-- The result of `start`, and whether the process is running when it returns. -/
structure Outcome where
  result : Except String Unit
  running : Bool

def deadline (config : LocalizationAdapterConfig) (around : Surroundings) : ℤ :=
  around.startedAt + nanoseconds around.undefinedCast config.startupTimeoutSec

def stableAt (config : LocalizationAdapterConfig) (around : Surroundings) : ℤ :=
  around.startedAt + nanoseconds around.undefinedCast config.startupStabilitySec

def unreadableMap (path : Path) : String := "Localization map is empty or unreadable: " ++ path.text

/-- The checks of `start` before the process is started; a relative path is none. -/
def checkMap (around : Surroundings) (mapPath : Option Path) : Except String Unit :=
  if around.alreadyRunning then .error "Localization process is already running"
  else
    match mapPath.filter fun path ↦ path.filename = "map.pcd" with
    | none => .error "Localization map must be an absolute path ending in map.pcd"
    | some path =>
      if around.isRegularFile then
        match around.fileSize with
        | .error _ => .error (unreadableMap path)
        | .ok size => if size = 0 then .error (unreadableMap path) else .ok ()
      else .error ("Localization map does not exist: " ++ path.text)

/-- `start` from its loop on. -/
def afterLoop (config : LocalizationAdapterConfig) (around : Surroundings) : LoopEnd → Outcome
  | .ready => ⟨.ok (), true⟩
  | .exited exitCode =>
    ⟨.error ("Localization process exited during startup (exit_code=" ++
      Manager.exitText exitCode ++ ")"),
      false⟩
  | .timedOut missing =>
    let detail :=
      if missing = [] then "process did not remain stable"
      else "missing publishers: " ++ joinTopics missing
    ⟨.error ("Localization was not ready within " ++ around.toText config.startupTimeoutSec ++
        " seconds (" ++ detail ++ ")"),
      match around.stopProcess with
      | .ok () => false
      | .error _ => around.runsOn⟩

/-- `start`, with a bound on the iterations of its loop. -/
def start (config : LocalizationAdapterConfig) (around : Surroundings)
    (mapPath : Option Path) (fuel : ℕ) : Option Outcome :=
  match checkMap around mapPath with
  | .error what => some ⟨.error what, around.alreadyRunning⟩
  | .ok () =>
    match around.startProcess with
    | .error what => some ⟨.error what, false⟩
    | .ok () =>
      (pollLoop config.requiredTopics (deadline config around) (stableAt config around)
        around.polls fuel 0 []).map (afterLoop config around)

end SlamSystemManager.LocalizationAdapter
