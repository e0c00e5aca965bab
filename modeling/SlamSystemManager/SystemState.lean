import Mathlib.Tactic.Common

/-!
# The states of the system manager

`SystemState` with its transition table. The table of the source is a list of pairs followed by
the pairs its if-chain adds.
-/

namespace SlamSystemManager

inductive SystemState where
  | boot
  | systemCheck
  | sensorStarting
  | sensorReady
  | waitMode
  | mappingStarting
  | mapping
  | mapSaving
  | localizationStarting
  | relocalizing
  | localized
  | error
  | recovering
  | shutdown
  deriving DecidableEq, Repr

namespace SystemState

def toString : SystemState → String
  | boot => "BOOT"
  | systemCheck => "SYSTEM_CHECK"
  | sensorStarting => "SENSOR_STARTING"
  | sensorReady => "SENSOR_READY"
  | waitMode => "WAIT_MODE"
  | mappingStarting => "MAPPING_STARTING"
  | mapping => "MAPPING"
  | mapSaving => "MAP_SAVING"
  | localizationStarting => "LOCALIZATION_STARTING"
  | relocalizing => "RELOCALIZING"
  | localized => "LOCALIZED"
  | error => "ERROR"
  | recovering => "RECOVERING"
  | shutdown => "SHUTDOWN"

/-- The array `allowed` of `canTransition`. -/
def allowed : List (SystemState × SystemState) :=
  [(boot, systemCheck), (boot, error), (boot, shutdown),
    (systemCheck, sensorStarting), (systemCheck, error), (systemCheck, shutdown),
    (sensorStarting, sensorReady), (sensorStarting, error), (sensorStarting, shutdown),
    (sensorReady, waitMode), (sensorReady, sensorStarting), (sensorReady, mappingStarting),
    (sensorReady, localizationStarting), (sensorReady, error), (sensorReady, shutdown),
    (waitMode, sensorStarting), (waitMode, mappingStarting), (waitMode, localizationStarting),
    (waitMode, error), (waitMode, shutdown),
    (mappingStarting, mapping), (mappingStarting, waitMode), (mappingStarting, error),
    (mappingStarting, shutdown),
    (mapping, mapSaving), (mapping, waitMode), (mapping, error), (mapping, shutdown),
    (mapSaving, waitMode), (mapSaving, error), (mapSaving, shutdown),
    (localizationStarting, relocalizing), (localizationStarting, waitMode),
    (localizationStarting, error),
    (relocalizing, localized), (relocalizing, waitMode), (relocalizing, error),
    (localized, relocalizing), (localized, waitMode), (localized, error),
    (error, recovering)]

def canTransition (source target : SystemState) : Bool :=
  if (source, target) ∈ allowed then true
  else if source = error ∧ target = shutdown then true
  else if source = recovering ∧ (target = systemCheck ∨ target = sensorStarting ∨
      target = waitMode ∨ target = error ∨ target = shutdown) then true
  else if (source = localizationStarting ∨ source = relocalizing ∨ source = localized) ∧
      target = shutdown then true
  else false

def isMappingState (state : SystemState) : Bool :=
  state = mappingStarting || state = mapping || state = mapSaving

def isLocalizationState (state : SystemState) : Bool :=
  state = localizationStarting || state = relocalizing || state = localized

def isActiveSlamState (state : SystemState) : Bool :=
  state.isMappingState || state.isLocalizationState

/-- The states in which the manager waits for sensors or for a mode. -/
def isIdle (state : SystemState) : Bool :=
  state = sensorStarting || state = sensorReady || state = waitMode

/-- RELOCALIZING and LOCALIZED are entered from the localization states only. -/
theorem isLocalizationState_of_canTransition {source target : SystemState}
    (hcan : source.canTransition target = true) (htarget : target.isLocalizationState = true)
    (hne : target ≠ localizationStarting) : source.isLocalizationState = true := by
  revert hcan htarget hne
  cases source <;> cases target <;> decide

end SystemState

end SlamSystemManager
