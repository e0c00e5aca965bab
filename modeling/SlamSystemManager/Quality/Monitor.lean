import SlamSystemManager.Quality.Config
import SlamSystemManager.Quality.Geometry

/-!
# The localization quality monitor

The state of `LocalizationQualityMonitor`, its four observers, `reset` and `evaluate`. Every
public function runs under the monitor's mutex, so a run of the monitor is a sequence of these
functions. `evaluate` is written in the blocks of the source: the else-if chain of faults, the
weighted score, the registration verdict, the frame counters and the transition. All numbers are
doubles: the program rounds to binary64, and what holds for every rounding holds for the program.
-/

open Numeric

namespace SlamSystemManager.Quality

inductive QualityState where
  | unknown
  | localized
  | degraded
  | lost
  deriving DecidableEq, Repr

/-- The states in which `evaluate` may call the pose valid. -/
def QualityState.Trusted (state : QualityState) : Prop := state ≠ .unknown ∧ state ≠ .lost

def QualityState.toString : QualityState → String
  | .unknown => "UNKNOWN"
  | .localized => "LOCALIZED"
  | .degraded => "DEGRADED"
  | .lost => "LOST"

/-- `LocalizationQualityContext`. -/
structure Context where
  localizationActive : Bool := false
  localizationInitialized : Bool := false
  localizationProcessAlive : Bool := false
  sensorsHealthy : Bool := false
  deriving DecidableEq

/-- `msg::LocalizationStatus`. -/
structure LocalizationStatus where
  stamp : Time := 0
  frameId : String := ""
  state : String := ""
  confidence : Double := .fin 0
  poseValid : Bool := false
  positionJump : Double := .fin 0
  yawJump : Double := .fin 0
  updateAge : Double := .fin 0
  linearVelocity : Double := .fin 0
  angularVelocity : Double := .fin 0
  matchingScore : Double := .fin 0
  inlierRatio : Double := .fin 0
  mapOverlapRatio : Double := .fin 0
  registrationResidual : Double := .fin 0
  registrationAge : Double := .fin 0
  correspondenceCount : ℕ := 0
  consecutiveGoodFrames : ℕ := 0
  consecutiveBadFrames : ℕ := 0
  reason : String := ""
  deriving DecidableEq

def unavailable : Double := .nan

/-- The status the constructor and `reset` leave. -/
def uninitializedStatus : LocalizationStatus :=
  { state := QualityState.unknown.toString
    matchingScore := unavailable
    inlierRatio := unavailable
    mapOverlapRatio := unavailable
    registrationResidual := unavailable
    registrationAge := unavailable
    updateAge := unavailable
    reason := "Localization has not been initialized" }

/-- The quality state with the three frame counters that drive it. -/
structure Hysteresis where
  state : QualityState := .unknown
  consecutiveGoodFrames : ℕ := 0
  consecutiveBadFrames : ℕ := 0
  consecutiveCriticalFrames : ℕ := 0
  deriving DecidableEq

/-- The data members of `LocalizationQualityMonitor`. -/
structure Monitor where
  hysteresis : Hysteresis := {}
  status : LocalizationStatus := uninitializedStatus
  haveOdometry : Bool := false
  havePose : Bool := false
  haveCorrection : Bool := false
  haveRegistration : Bool := false
  lastOdometryReceipt : Time := 0
  lastPoseReceipt : Time := 0
  lastCorrectionReceipt : Time := 0
  lastRegistrationReceipt : Time := 0
  lastOdometryStamp : Time := 0
  lastCorrectionStamp : Time := 0
  lastOdometryPose : Pose ℚ := .identity
  lastCorrectionPose : Pose ℚ := .identity
  positionJump : Double := .fin 0
  yawJump : Double := .fin 0
  linearVelocity : Double := .fin 0
  angularVelocity : Double := .fin 0
  correctionPositionJump : Double := .fin 0
  correctionYawJump : Double := .fin 0
  motionSampleValid : Bool := false
  motionSampleFault : Bool := false
  poseSampleFault : Bool := false
  correctionSampleFault : Bool := false
  motionFaultReason : String := ""
  poseFaultReason : String := ""
  correctionFaultReason : String := ""
  registration : RegistrationQuality := {}
  deriving DecidableEq

/-! ## Observers -/

/-- `LocalizationQualityMonitor::reset`. The stamps, poses and receipt times of the last samples
and the last registration report stay in place. -/
def Monitor.reset (monitor : Monitor) : Monitor :=
  { monitor with
    hysteresis := {}
    status := uninitializedStatus
    haveOdometry := false
    havePose := false
    haveCorrection := false
    haveRegistration := false
    motionSampleValid := false
    motionSampleFault := false
    poseSampleFault := false
    correctionSampleFault := false
    motionFaultReason := ""
    poseFaultReason := ""
    correctionFaultReason := ""
    positionJump := .fin 0
    yawJump := .fin 0
    linearVelocity := .fin 0
    angularVelocity := .fin 0
    correctionPositionJump := .fin 0
    correctionYawJump := .fin 0 }

/-- The else-if chain over jump and velocity limits of `observeOdometry`. -/
def motionFault [Rounding] (config : Config)
    (positionJump yawJump linearVelocity angularVelocity : Double) : Option String :=
  if config.maxPositionJumpM.lt positionJump && config.maxLinearVelocityMps.lt linearVelocity then
    some "Position jump and linear velocity exceeded thresholds"
  else if (radians config.maxYawJumpDeg).lt yawJump &&
      (radians config.maxAngularVelocityDps).lt angularVelocity then
    some "Yaw jump and angular velocity exceeded thresholds"
  else if config.maxLinearVelocityMps.lt linearVelocity then
    some "Linear velocity exceeded the configured physical limit"
  else if (radians config.maxAngularVelocityDps).lt angularVelocity then
    some "Angular velocity exceeded the configured physical limit"
  else none

/-- The motion block of `observeOdometry`, run when an earlier sample is stored. -/
def Monitor.measureMotion [Rounding] (config : Config) (math : Cmath) (monitor : Monitor)
    (stamp : Time) (pose : Pose ℚ) : Monitor :=
  let deltaTime := ageSeconds stamp monitor.lastOdometryStamp
  let positionJump := norm3 math pose.position monitor.lastOdometryPose.position
  let yawJump := yawDifference math pose monitor.lastOdometryPose
  let monitor := { monitor with positionJump := positionJump, yawJump := yawJump }
  if 0 < deltaTime then
    let linearVelocity := positionJump.div (.fin deltaTime)
    let angularVelocity := yawJump.div (.fin deltaTime)
    let fault := motionFault config positionJump yawJump linearVelocity angularVelocity
    { monitor with
      linearVelocity := linearVelocity
      angularVelocity := angularVelocity
      motionSampleValid := true
      motionSampleFault := fault.isSome
      motionFaultReason := fault.getD "" }
  else monitor

def Monitor.observeOdometry [Rounding] (config : Config) (math : Cmath) (monitor : Monitor)
    (message : StampedPose) (receiptTime : Time) : Monitor :=
  match finitePose message.pose with
  | none =>
    { monitor with
      motionSampleFault := true
      motionFaultReason := "Localization odometry contains NaN, Inf, or an invalid quaternion" }
  | some pose =>
    if monitor.haveOdometry && decide (message.stamp ≤ monitor.lastOdometryStamp) then
      { monitor with
        motionSampleFault := true
        motionFaultReason := "Localization odometry timestamp moved backwards or repeated" }
    else
      let cleared :=
        { monitor with
          motionSampleFault := false
          motionFaultReason := ""
          motionSampleValid := false }
      let measured :=
        if monitor.haveOdometry then cleared.measureMotion config math message.stamp pose
        else cleared
      { measured with
        lastOdometryPose := pose
        lastOdometryStamp := message.stamp
        lastOdometryReceipt := receiptTime
        haveOdometry := true }

def Monitor.observePose [Rounding] (monitor : Monitor) (message : StampedPose)
    (receiptTime : Time) : Monitor :=
  match finitePose message.pose with
  | none =>
    { monitor with
      poseSampleFault := true
      poseFaultReason := "Localization pose contains NaN, Inf, or an invalid quaternion" }
  | some _ =>
    { monitor with
      poseSampleFault := false
      poseFaultReason := ""
      lastPoseReceipt := receiptTime
      havePose := true }

/-- The else-if chain over the jump limits of `observeCorrection`. -/
def correctionFault [Rounding] (config : Config) (positionJump yawJump : Double) :
    Option String :=
  if config.maxCorrectionPositionJumpM.lt positionJump then
    some "map_to_odom position correction jumped beyond the threshold"
  else if (radians config.maxCorrectionYawJumpDeg).lt yawJump then
    some "map_to_odom yaw correction jumped beyond the threshold"
  else none

/-- The jump block of `observeCorrection`, run when an earlier sample is stored. -/
def Monitor.measureCorrection [Rounding] (config : Config) (math : Cmath) (monitor : Monitor)
    (pose : Pose ℚ) : Monitor :=
  let positionJump := norm3 math pose.position monitor.lastCorrectionPose.position
  let yawJump := yawDifference math pose monitor.lastCorrectionPose
  let fault := correctionFault config positionJump yawJump
  { monitor with
    correctionPositionJump := positionJump
    correctionYawJump := yawJump
    correctionSampleFault := fault.isSome
    correctionFaultReason := fault.getD "" }

def Monitor.observeCorrection [Rounding] (config : Config) (math : Cmath) (monitor : Monitor)
    (message : StampedPose) (receiptTime : Time) : Monitor :=
  match finitePose message.pose with
  | none =>
    { monitor with
      correctionSampleFault := true
      correctionFaultReason := "map_to_odom contains NaN, Inf, or an invalid quaternion" }
  | some pose =>
    if monitor.haveCorrection && decide (message.stamp ≤ monitor.lastCorrectionStamp) then
      { monitor with
        correctionSampleFault := true
        correctionFaultReason := "map_to_odom timestamp moved backwards or repeated" }
    else
      let cleared := { monitor with correctionSampleFault := false, correctionFaultReason := "" }
      let measured :=
        if monitor.haveCorrection then cleared.measureCorrection config math pose else cleared
      { measured with
        lastCorrectionPose := pose
        lastCorrectionStamp := message.stamp
        lastCorrectionReceipt := receiptTime
        haveCorrection := true }

/-- The check that lets a report flagged valid keep its flags. -/
def RegistrationQuality.malformed (report : RegistrationQuality) : Bool :=
  !report.fitness.isFinite || !report.meanResidual.isFinite || report.sourcePointCount == 0 ||
    decide (report.sourcePointCount < report.correspondenceCount)

def Monitor.observeRegistration (monitor : Monitor) (message : RegistrationQuality)
    (receiptTime : Time) : Monitor :=
  { monitor with
    registration :=
      if message.valid && RegistrationQuality.malformed message then
        { message with valid := false, accepted := false }
      else message
    lastRegistrationReceipt := receiptTime
    haveRegistration := true }

/-! ## Scoring -/

def clamp01 (value : Double) : Double := value.clamp (.fin 0) (.fin 1)

def freshnessScore [Rounding] (age timeout : Double) : Double :=
  if !age.isFinite || age.lt (.fin 0) || timeout.le age then .fin 0
  else
    let fullScoreUntil := timeout.mul (.ofRat (1 / 2))
    if age.le fullScoreUntil then .fin 1
    else clamp01 ((timeout.sub age).div (timeout.sub fullScoreUntil))

/-- Age of a stream's last accepted receipt; a NaN before the first one. -/
def ageOf [Rounding] (received : Bool) (now receipt : Time) : Double :=
  if received then .fin (ageSeconds now receipt) else .nan

/-- The ages `evaluate` computes first. -/
def Monitor.updateAge [Rounding] (monitor : Monitor) (now : Time) : Double :=
  if monitor.haveOdometry && monitor.havePose then
    (ageOf monitor.haveOdometry now monitor.lastOdometryReceipt).max
      (ageOf monitor.havePose now monitor.lastPoseReceipt)
  else .nan

def Monitor.correctionAge [Rounding] (monitor : Monitor) (now : Time) : Double :=
  ageOf monitor.haveCorrection now monitor.lastCorrectionReceipt

def Monitor.registrationAge [Rounding] (monitor : Monitor) (now : Time) : Double :=
  ageOf monitor.haveRegistration now monitor.lastRegistrationReceipt

/-- The first else-if chain of `evaluate`: the reason it makes the frame critical for. -/
def Monitor.fault [Rounding] (config : Config) (monitor : Monitor) (now : Time)
    (context : Context) : Option String :=
  let updateAge := monitor.updateAge now
  let correctionAge := monitor.correctionAge now
  if !context.localizationProcessAlive then some "Localization process is not running"
  else if !context.sensorsHealthy then some "Ouster data is not healthy"
  else if !monitor.haveOdometry || !monitor.havePose then
    some "Waiting for unified localization pose updates"
  else if !updateAge.isFinite || updateAge.lt (.fin 0) then
    some "Localization update time is invalid"
  else if config.poseTimeoutSec.lt updateAge then some "Localization pose update timed out"
  else if monitor.motionSampleFault then some monitor.motionFaultReason
  else if monitor.poseSampleFault then some monitor.poseFaultReason
  else if !monitor.haveCorrection then some "Waiting for map_to_odom updates"
  else if !correctionAge.isFinite || correctionAge.lt (.fin 0) ||
      config.correctionTimeoutSec.lt correctionAge then
    some "map_to_odom update timed out"
  else if monitor.correctionSampleFault then some monitor.correctionFaultReason
  else none

/-- A chain of reasons gives none when all its conditions fail. -/
theorem ite_some_eq_none {c : Prop} [Decidable c] {reason : String} {rest : Option String} :
    (if c then some reason else rest) = none ↔ ¬c ∧ rest = none := by
  by_cases hc : c <;> simp [hc]

/-- The condition under which the last registration report is scored. -/
def Monitor.registrationScored [Rounding] (config : Config) (monitor : Monitor) (now : Time) :
    Bool :=
  let age := monitor.registrationAge now
  monitor.haveRegistration && monitor.registration.valid && age.isFinite &&
    (Double.fin 0).le age && age.le config.registrationTimeoutSec

/-- The registration branches of `evaluate`: the reason they make the frame critical for. -/
def Monitor.registrationFault [Rounding] (config : Config) (monitor : Monitor) (now : Time) :
    Option String :=
  let age := monitor.registrationAge now
  if monitor.registrationScored config now then
    if !monitor.registration.accepted then some "Scan-to-map registration was rejected"
    else if config.maxRegistrationResidualM.lt monitor.registration.meanResidual then
      some "Scan-to-map registration residual exceeded the threshold"
    else none
  else if monitor.haveRegistration &&
      (!age.isFinite || age.lt (.fin 0) || config.registrationTimeoutSec.lt age) then
    some "Registration quality update timed out"
  else none

def Monitor.motionScore [Rounding] (config : Config) (monitor : Monitor) : Double :=
  let linearRatio := monitor.linearVelocity.div config.maxLinearVelocityMps
  let angularRatio := monitor.angularVelocity.div (radians config.maxAngularVelocityDps)
  let ratio := linearRatio.max angularRatio
  if ratio.le (.ofRat (8 / 10)) then .fin 1
  else clamp01 (((Double.fin 1).sub ratio).div (.ofRat (2 / 10)))

def Monitor.registrationScore [Rounding] (config : Config) (monitor : Monitor) : Double :=
  let fitnessScore := clamp01 ((monitor.registration.fitness.sub config.minRegistrationFitness).div
    ((Double.fin 1).sub config.minRegistrationFitness))
  let residualScore := clamp01
    ((Double.fin 1).sub (monitor.registration.meanResidual.div config.maxRegistrationResidualM))
  if !monitor.registration.accepted then .fin 0
  else ((Double.ofRat (7 / 10)).mul fitnessScore).add ((Double.ofRat (3 / 10)).mul residualScore)

/-- The metrics available to one evaluation, each with its weight and score, in the order in
which `evaluate` adds them up. -/
def Monitor.metrics [Rounding] (config : Config) (monitor : Monitor) (now : Time) :
    List (Double × Double) :=
  (if monitor.haveOdometry && monitor.havePose && (monitor.updateAge now).isFinite then
    [(config.updateWeight, freshnessScore (monitor.updateAge now) config.poseTimeoutSec)]
   else []) ++
  (if monitor.motionSampleValid then [(config.motionWeight, monitor.motionScore config)] else []) ++
  (if monitor.registrationScored config now then
    [(config.registrationWeight, monitor.registrationScore config)]
   else [])

def weightedScore [Rounding] (metrics : List (Double × Double)) : Double :=
  metrics.foldl (fun total metric ↦ total.add (metric.1.mul metric.2)) (.fin 0)

def availableWeight [Rounding] (metrics : List (Double × Double)) : Double :=
  metrics.foldl (fun total metric ↦ total.add metric.1) (.fin 0)

/-- What one evaluation concludes about the current data. -/
structure Assessment where
  critical : Bool
  reason : String
  confidence : Double
  deriving DecidableEq

def healthyReason : String := "Localization quality is healthy"

def Monitor.assess [Rounding] (config : Config) (monitor : Monitor) (now : Time)
    (context : Context) : Assessment :=
  let fault := monitor.fault config now context
  let registrationFault := monitor.registrationFault config now
  let critical := fault.isSome || registrationFault.isSome
  let metrics := monitor.metrics config now
  let available := availableWeight metrics
  let score := if (Double.fin 0).lt available then (weightedScore metrics).div available else .fin 0
  { critical := critical
    reason := registrationFault.getD (fault.getD healthyReason)
    confidence := clamp01 (if critical then .fin 0 else score) }

/-! ## Frames, counters and transitions -/

/-- How `evaluate` classifies a frame. -/
inductive Frame where
  | good
  | softBad
  | critical
  deriving DecidableEq, Repr

def Assessment.frame (config : Config) (assessment : Assessment) : Frame :=
  if !assessment.critical && config.localizedThreshold.le assessment.confidence then .good
  else if assessment.critical || assessment.confidence.lt config.degradedThreshold then .critical
  else .softBad

/-- The frame counters after one more frame. -/
def Hysteresis.count (hysteresis : Hysteresis) : Frame → Hysteresis
  | .good =>
    { hysteresis with
      consecutiveGoodFrames := hysteresis.consecutiveGoodFrames + 1
      consecutiveBadFrames := 0
      consecutiveCriticalFrames := 0 }
  | .critical =>
    { hysteresis with
      consecutiveGoodFrames := 0
      consecutiveBadFrames := hysteresis.consecutiveBadFrames + 1
      consecutiveCriticalFrames := hysteresis.consecutiveCriticalFrames + 1 }
  | .softBad =>
    { hysteresis with
      consecutiveGoodFrames := 0
      consecutiveBadFrames := hysteresis.consecutiveBadFrames + 1
      consecutiveCriticalFrames := 0 }

/-- The else-if chain of transitions; `none` when no branch is taken. -/
def Hysteresis.transition (config : Config) (hysteresis : Hysteresis) : Option QualityState :=
  if config.badFramesToLost ≤ hysteresis.consecutiveCriticalFrames then some .lost
  else if hysteresis.state = .unknown ∧
      config.badFramesToDegraded ≤ hysteresis.consecutiveBadFrames then some .degraded
  else if hysteresis.state = .localized ∧
      config.badFramesToDegraded ≤ hysteresis.consecutiveBadFrames then some .degraded
  else if (hysteresis.state = .unknown ∨ hysteresis.state = .degraded ∨
      hysteresis.state = .lost) ∧
      config.goodFramesToRecover ≤ hysteresis.consecutiveGoodFrames then some .localized
  else none

/-- Counters and transition of one frame. -/
def Hysteresis.step (config : Config) (hysteresis : Hysteresis) (frame : Frame) : Hysteresis :=
  let counted := hysteresis.count frame
  { counted with state := (counted.transition config).getD counted.state }

/-- The call of the state-change callback, made when the state really changes. -/
structure StateChange where
  previous : QualityState
  next : QualityState
  reason : String
  deriving DecidableEq

def stateChange (previous next : QualityState) (reason : String) : Option StateChange :=
  if next = previous then none else some ⟨previous, next, reason⟩

/-! ## Evaluation -/

/-- `std::numeric_limits<std::uint32_t>::max()` caps the published counts. -/
def saturatingCount (value : ℕ) : ℕ := min value (2 ^ 32 - 1)

/-- The last lines of `evaluate`, common to its three branches. -/
def Monitor.publishStatus (monitor : Monitor) : Monitor :=
  { monitor with
    status :=
      { monitor.status with
        state := monitor.hysteresis.state.toString
        consecutiveGoodFrames := saturatingCount monitor.hysteresis.consecutiveGoodFrames
        consecutiveBadFrames := saturatingCount monitor.hysteresis.consecutiveBadFrames } }

/-- The inactive and the uninitialized branch of `evaluate`, which differ in their text. -/
def Monitor.evaluateUnknown (monitor : Monitor) (reason : String) : Monitor × Option StateChange :=
  ({ monitor with
      hysteresis := {}
      status :=
        { monitor.status with
          confidence := .fin 0
          poseValid := false
          reason := reason } },
    stateChange monitor.hysteresis.state .unknown reason)

/-- The main branch of `evaluate`. -/
def Monitor.evaluateActive [Rounding] (config : Config) (monitor : Monitor) (now : Time)
    (context : Context) : Monitor × Option StateChange :=
  let registration := monitor.registration
  let registrationShown := monitor.haveRegistration && registration.valid
  let assessment := monitor.assess config now context
  let frame := assessment.frame config
  let reason :=
    if frame = .softBad ∧ assessment.reason = healthyReason then
      "Confidence is below the localized threshold"
    else assessment.reason
  let transition := (monitor.hysteresis.count frame).transition config
  let hysteresis := monitor.hysteresis.step config frame
  let recovered := transition = some .localized
  ({ monitor with
      hysteresis := hysteresis
      status :=
        { monitor.status with
          updateAge := monitor.updateAge now
          positionJump := monitor.positionJump
          yawJump := monitor.yawJump
          linearVelocity := monitor.linearVelocity
          angularVelocity := monitor.angularVelocity
          registrationAge := monitor.registrationAge now
          matchingScore := if registrationShown then registration.fitness else unavailable
          inlierRatio := if registrationShown then registration.fitness else unavailable
          registrationResidual :=
            if registrationShown then registration.meanResidual else unavailable
          correspondenceCount :=
            if monitor.haveRegistration then registration.correspondenceCount else 0
          confidence := assessment.confidence
          poseValid := decide (hysteresis.state ≠ .unknown) && decide (hysteresis.state ≠ .lost) &&
            !assessment.critical && !monitor.motionSampleFault && !monitor.poseSampleFault &&
            !monitor.correctionSampleFault
          reason := if recovered then healthyReason else reason } },
    stateChange monitor.hysteresis.state hysteresis.state
      (if recovered then "Quality remained healthy" else reason))

/-- `LocalizationQualityMonitor::evaluate`; the returned status is `status` of the new state. -/
def Monitor.evaluate [Rounding] (config : Config) (mapFrame : String) (monitor : Monitor)
    (now : Time) (context : Context) : Monitor × Option StateChange :=
  let stamped :=
    { monitor with
      status :=
        { monitor.status with
          stamp := now
          frameId := mapFrame
          mapOverlapRatio := unavailable } }
  let (evaluated, change) :=
    if !context.localizationActive then stamped.evaluateUnknown "Localization is not active"
    else if !context.localizationInitialized then
      stamped.evaluateUnknown "Waiting for localization initialization"
    else stamped.evaluateActive config now context
  (evaluated.publishStatus, change)

/-- When an evaluation calls the pose valid. -/
theorem poseValid_evaluate [Rounding] (config : Config) (mapFrame : String) (monitor : Monitor)
    (now : Time) (context : Context) :
    (monitor.evaluate config mapFrame now context).1.status.poseValid = true ↔
      context.localizationActive = true ∧ context.localizationInitialized = true ∧
      (monitor.evaluate config mapFrame now context).1.hysteresis.state.Trusted ∧
      (monitor.assess config now context).critical = false ∧
      monitor.motionSampleFault = false ∧ monitor.poseSampleFault = false ∧
      monitor.correctionSampleFault = false := by
  unfold Monitor.evaluate
  cases hactive : context.localizationActive
  · simp [Monitor.evaluateUnknown, Monitor.publishStatus]
  · cases hinitialized : context.localizationInitialized
    · simp [Monitor.evaluateUnknown, Monitor.publishStatus]
    · simp only [Monitor.evaluateActive, Monitor.publishStatus, QualityState.Trusted, and_assoc,
        Bool.not_true, Bool.false_eq_true, if_false, Bool.and_eq_true, Bool.not_eq_true',
        decide_eq_true_eq, true_and]
      rfl

end SlamSystemManager.Quality
