import SlamSystemManager.MapManager

/-!
# The relocalization adapter

The data of `RelocalizationAdapter` under its two mutexes and the critical sections of its
functions. Two history variables are kept beside the data: `sessions` counts the calls of
`resetSession`, and `acceptedIn` is the session in which the last correction was accepted. A pose
computed from a correction carries the session of that correction.
-/

open Numeric

namespace SlamSystemManager

/-- A value with the session in which the correction it rests on was accepted. -/
structure InSession (α : Type) where
  value : α
  session : Option ℕ
  deriving DecidableEq

/-- `SaveRequest`, with the session that was running when it was captured and its map. -/
structure SaveRequest where
  map : String
  pose : InSession StampedPose
  capturedIn : ℕ
  capturedFor : String
  deriving DecidableEq

/-- The value of a default-constructed message. -/
def StampedPose.empty : StampedPose :=
  { frameId := ""
    stamp := 0
    pose := ⟨⟨.fin 0, .fin 0, .fin 0⟩, ⟨.fin 0, .fin 0, .fin 0, .fin 1⟩⟩ }

structure RelocalizationAdapter where
  localized : Bool := false
  correctionAvailable : Bool := false
  relocalizationStartedAt : Time := 0
  correction : StampedPose := .empty
  latestTrustedPose : Option (InSession StampedPose) := none
  pendingSave : Option SaveRequest := none
  /-- The request the save worker has taken and not yet written. -/
  saving : Option SaveRequest := none
  /-- The messages published on the localization odometry topic, latest first. -/
  publishedOdometry : List StampedPose := []
  /-- The messages published on the localization pose topic, latest first. -/
  publishedPoses : List StampedPose := []
  sessions : ℕ := 0
  acceptedIn : Option ℕ := none

namespace RelocalizationAdapter

/-! ## Poses -/

def finitePosition (position : Point Double) : Bool :=
  position.x.isFinite && position.y.isFinite && position.z.isFinite

/-- `validatePose`: the pose with its frame filled in and its quaternion normalised. -/
def validatePose (math : Cmath) (expectedFrame : String) (pose : StampedPose) :
    Except String StampedPose :=
  let frameId := if pose.frameId = "" then expectedFrame else pose.frameId
  if frameId ≠ expectedFrame then
    .error ("Initial pose frame must be '" ++ expectedFrame ++ "', got '" ++ frameId ++ "'")
  else if !finitePosition pose.pose.position then
    .error "Initial pose position contains a non-finite value"
  else
    let orientation := pose.pose.orientation
    match finiteValue orientation.x, finiteValue orientation.y, finiteValue orientation.z,
        finiteValue orientation.w with
    | some x, some y, some z, some w =>
      let norm := math.sqrt (Quaternion.normSquared ⟨x, y, z, w⟩)
      if norm < 1 / 10 ^ 6 then .error "Initial pose quaternion has zero length"
      else
        .ok { pose with
          frameId := frameId
          pose :=
            { pose.pose with
              orientation :=
                ⟨.fin (x / norm), .fin (y / norm), .fin (z / norm), .fin (w / norm)⟩ } }
    | _, _, _, _ => .error "Initial pose orientation contains a non-finite value"

/-! ## Sections of the data mutex -/

def resetSession (adapter : RelocalizationAdapter) (now : Time) : RelocalizationAdapter :=
  { adapter with
    localized := false
    correctionAvailable := false
    relocalizationStartedAt := now
    correction := .empty
    latestTrustedPose := none
    sessions := adapter.sessions + 1 }

def setLocalized (adapter : RelocalizationAdapter) (localized : Bool) : RelocalizationAdapter :=
  { adapter with
    localized := localized
    latestTrustedPose := if localized then adapter.latestTrustedPose else none }

/-- The section of `handleCorrection` on a validated message; the flag is `first_confirmation`.
The pose of the message is replaced by the validated one. -/
def acceptCorrection (adapter : RelocalizationAdapter) (message validated : StampedPose) :
    RelocalizationAdapter × Bool :=
  if message.stamp ≤ adapter.relocalizationStartedAt then (adapter, false)
  else
    ({ adapter with
        correction := { message with pose := validated.pose }
        correctionAvailable := true
        acceptedIn := some adapter.sessions },
      !adapter.correctionAvailable)

/-- What `handleRawOdometry` copies out of its first section, when a correction is available. -/
def copyCorrection (adapter : RelocalizationAdapter) : Option (InSession StampedPose × Bool) :=
  if adapter.correctionAvailable then
    some (⟨adapter.correction, adapter.acceptedIn⟩, adapter.localized)
  else none

/-- The second section of `handleRawOdometry`. -/
def storeTrustedPose (adapter : RelocalizationAdapter) (pose : InSession StampedPose) :
    RelocalizationAdapter :=
  if adapter.localized then { adapter with latestTrustedPose := some pose } else adapter

/-- The unified pose: the raw odometry moved by the correction, in the map frame. `compose` is the
product of the two transforms. -/
def unifiedPose (compose : Pose Double → Pose Double → Pose Double) (mapFrame : String)
    (correction : InSession StampedPose) (message : StampedPose) : InSession StampedPose :=
  { value :=
      { frameId := mapFrame
        stamp := message.stamp
        pose := compose correction.value.pose message.pose }
    session := correction.session }

/-- The data section of `requestLastPoseSave`. -/
def capturePose (adapter : RelocalizationAdapter) (map sessionMap : String) :
    Option SaveRequest :=
  if adapter.localized then
    adapter.latestTrustedPose.map fun pose ↦ ⟨map, pose, adapter.sessions, sessionMap⟩
  else none

/-! ## Last poses on disk -/

/-- What `writeLastPose` puts into the file. -/
def lastPoseFile (request : SaveRequest) : LastPoseFile :=
  ⟨request.pose.value.frameId, request.pose.value.pose⟩

/-- `loadLastPose` for a map of the store; `rootAgrees` is the containment check of the path. -/
def loadLastPose (math : Cmath) (mapFrame root : String) (rootAgrees : Bool) (store : MapStore)
    (name : String) : Except String StampedPose :=
  let path := MapManager.filePath root name "last_pose.yaml"
  if !rootAgrees then .error "Last Pose path escapes the configured map root"
  else
    match (MapManager.directory? store name).bind MapDirectory.lastPose with
    | none => .error ("Last Pose not found: " ++ path)
    | some (.error what) => .error ("Unable to load Last Pose '" ++ path ++ "': " ++ what)
    | some (.ok file) => validatePose math mapFrame ⟨file.frameId, 0, file.pose⟩

end RelocalizationAdapter

end SlamSystemManager
