import SlamSystemManager.Quality.Hysteresis

/-!
# What the monitor remembers of its streams

The abstract view of the observers: of every stream the monitor keeps the last sample it stored
and whether the latest message was faulty. `streams_run` shows that the have-flags, receipt
times, stamps and fault flags of the monitor are this view of the messages received since the
last reset.
-/

open Numeric

namespace SlamSystemManager.Quality

/-- A stored message. -/
structure Sample where
  pose : Pose ℚ
  stamp : Time
  receipt : Time
  deriving DecidableEq

/-- A received message and its receipt time. -/
abbrev Received := StampedPose × Time

/-- A stream of stamped poses: the stored sample and the verdict on the latest message. -/
structure Stream where
  sample : Option Sample := none
  faulty : Bool := false
  deriving DecidableEq

section Received

variable [Rounding]

/-- A finite message is stored when its stamp advances; `exceeds` judges the motion from the
sample stored before it. -/
def Stream.receive (exceeds : Sample → Pose ℚ → Time → Bool) (stream : Stream)
    (received : Received) : Stream :=
  match finitePose received.1.pose with
  | none => { stream with faulty := true }
  | some pose =>
    match stream.sample with
    | none => ⟨some ⟨pose, received.1.stamp, received.2⟩, false⟩
    | some previous =>
      if received.1.stamp ≤ previous.stamp then { stream with faulty := true }
      else ⟨some ⟨pose, received.1.stamp, received.2⟩, exceeds previous pose received.1.stamp⟩

def Stream.ofMessages (exceeds : Sample → Pose ℚ → Time → Bool) (messages : List Received) :
    Stream :=
  messages.foldl (Stream.receive exceeds) {}

@[simp] theorem Stream.ofMessages_concat (exceeds : Sample → Pose ℚ → Time → Bool)
    (messages : List Received) (received : Received) :
    Stream.ofMessages exceeds (messages ++ [received]) =
      (Stream.ofMessages exceeds messages).receive exceeds received := by
  simp [Stream.ofMessages]

/-- The pose stream keeps only the receipt of its last finite message. -/
structure PoseStream where
  receipt : Option Time := none
  faulty : Bool := false
  deriving DecidableEq

def PoseStream.receive (stream : PoseStream) (received : Received) : PoseStream :=
  match finitePose received.1.pose with
  | none => { stream with faulty := true }
  | some _ => ⟨some received.2, false⟩

def PoseStream.ofMessages (messages : List Received) : PoseStream :=
  messages.foldl PoseStream.receive {}

@[simp] theorem PoseStream.ofMessages_concat (messages : List Received) (received : Received) :
    PoseStream.ofMessages (messages ++ [received]) =
      (PoseStream.ofMessages messages).receive received := by
  simp [PoseStream.ofMessages]

end Received

/-- A report flagged valid loses its flags when it is malformed. -/
def checkedRegistration (report : RegistrationQuality) : RegistrationQuality :=
  if report.valid && RegistrationQuality.malformed report then
    { report with valid := false, accepted := false }
  else report

structure Streams where
  odometry : Stream := {}
  pose : PoseStream := {}
  correction : Stream := {}
  registration : Option (RegistrationQuality × Time) := none
  deriving DecidableEq

/-! ## The implied motion -/

section Motion

variable [Rounding]

def Sample.linearVelocity (math : Cmath) (previous : Sample) (pose : Pose ℚ) (stamp : Time) :
    Double :=
  (norm3 math pose.position previous.pose.position).div (.fin (ageSeconds stamp previous.stamp))

def Sample.angularVelocity (math : Cmath) (previous : Sample) (pose : Pose ℚ) (stamp : Time) :
    Double :=
  (yawDifference math pose previous.pose).div (.fin (ageSeconds stamp previous.stamp))

def Setup.motionExceeds (setup : Setup) (previous : Sample) (pose : Pose ℚ) (stamp : Time) :
    Bool :=
  (motionFault setup.config (norm3 setup.math pose.position previous.pose.position)
    (yawDifference setup.math pose previous.pose)
    (previous.linearVelocity setup.math pose stamp)
    (previous.angularVelocity setup.math pose stamp)).isSome

def Setup.correctionExceeds (setup : Setup) (previous : Sample) (pose : Pose ℚ) (_stamp : Time) :
    Bool :=
  (correctionFault setup.config (norm3 setup.math pose.position previous.pose.position)
    (yawDifference setup.math pose previous.pose)).isSome

/-- A faulty motion exceeds one of the two velocity limits: the jump limits only choose the
text. -/
theorem motionFault_eq_none_iff (config : Config)
    (positionJump yawJump linearVelocity angularVelocity : Double) :
    motionFault config positionJump yawJump linearVelocity angularVelocity = none ↔
      config.maxLinearVelocityMps.lt linearVelocity = false ∧
        (radians config.maxAngularVelocityDps).lt angularVelocity = false := by
  unfold motionFault
  cases config.maxPositionJumpM.lt positionJump <;>
    cases (radians config.maxYawJumpDeg).lt yawJump <;>
    cases config.maxLinearVelocityMps.lt linearVelocity <;>
    cases (radians config.maxAngularVelocityDps).lt angularVelocity <;> simp

theorem correctionFault_eq_none_iff (config : Config) (positionJump yawJump : Double) :
    correctionFault config positionJump yawJump = none ↔
      config.maxCorrectionPositionJumpM.lt positionJump = false ∧
        (radians config.maxCorrectionYawJumpDeg).lt yawJump = false := by
  unfold correctionFault
  cases config.maxCorrectionPositionJumpM.lt positionJump <;>
    cases (radians config.maxCorrectionYawJumpDeg).lt yawJump <;> simp

end Motion

/-! ## The view of a monitor -/

def Monitor.streams (monitor : Monitor) : Streams where
  odometry :=
    { sample := if monitor.haveOdometry then
        some ⟨monitor.lastOdometryPose, monitor.lastOdometryStamp, monitor.lastOdometryReceipt⟩
        else none
      faulty := monitor.motionSampleFault }
  pose :=
    { receipt := if monitor.havePose then some monitor.lastPoseReceipt else none
      faulty := monitor.poseSampleFault }
  correction :=
    { sample := if monitor.haveCorrection then
        some ⟨monitor.lastCorrectionPose, monitor.lastCorrectionStamp,
          monitor.lastCorrectionReceipt⟩
        else none
      faulty := monitor.correctionSampleFault }
  registration :=
    if monitor.haveRegistration then
      some (monitor.registration, monitor.lastRegistrationReceipt)
    else none

theorem streams_observeRegistration (monitor : Monitor) (message : RegistrationQuality)
    (receiptTime : Time) :
    (monitor.observeRegistration message receiptTime).streams =
      { monitor.streams with
        registration := some (checkedRegistration message, receiptTime) } := rfl

section View

variable [Rounding]

theorem streams_observeOdometry (setup : Setup) (monitor : Monitor) (message : StampedPose)
    (receiptTime : Time) :
    (monitor.observeOdometry setup.config setup.math message receiptTime).streams =
      { monitor.streams with
        odometry :=
          monitor.streams.odometry.receive setup.motionExceeds (message, receiptTime) } := by
  unfold Monitor.observeOdometry Stream.receive
  cases hpose : finitePose message.pose with
  | none => rfl
  | some pose =>
    cases hhave : monitor.haveOdometry with
    | false => simp [Monitor.streams, hhave]
    | true =>
      rcases Nat.lt_or_ge monitor.lastOdometryStamp message.stamp with hnewer | holder
      · have hdelta : 0 < ageSeconds message.stamp monitor.lastOdometryStamp :=
          ageSeconds_pos hnewer
        simp [Monitor.streams, Monitor.measureMotion, Setup.motionExceeds,
          Sample.linearVelocity, Sample.angularVelocity, hhave, hdelta, not_le.mpr hnewer]
      · simp [Monitor.streams, hhave, holder]

theorem streams_observePose (monitor : Monitor) (message : StampedPose) (receiptTime : Time) :
    (monitor.observePose message receiptTime).streams =
      { monitor.streams with
        pose := monitor.streams.pose.receive (message, receiptTime) } := by
  unfold Monitor.observePose PoseStream.receive
  cases hpose : finitePose message.pose <;> rfl

theorem streams_observeCorrection (setup : Setup) (monitor : Monitor) (message : StampedPose)
    (receiptTime : Time) :
    (monitor.observeCorrection setup.config setup.math message receiptTime).streams =
      { monitor.streams with
        correction :=
          monitor.streams.correction.receive setup.correctionExceeds (message, receiptTime) } := by
  unfold Monitor.observeCorrection Stream.receive
  cases hpose : finitePose message.pose with
  | none => rfl
  | some pose =>
    cases hhave : monitor.haveCorrection with
    | false => simp [Monitor.streams, hhave]
    | true =>
      rcases Nat.lt_or_ge monitor.lastCorrectionStamp message.stamp with hnewer | holder
      · simp [Monitor.streams, Monitor.measureCorrection, Setup.correctionExceeds, hhave,
          not_le.mpr hnewer]
      · simp [Monitor.streams, hhave, holder]

theorem streams_evaluate (config : Config) (mapFrame : String) (monitor : Monitor) (now : Time)
    (context : Context) :
    (monitor.evaluate config mapFrame now context).1.streams = monitor.streams := by
  unfold Monitor.evaluate
  cases context.localizationActive
  · rfl
  · cases context.localizationInitialized <;> rfl

end View

/-! ## The messages since the last reset -/

def Event.isReset : Event → Bool
  | .reset => true
  | _ => false

def sinceReset (events : List Event) : List Event :=
  (events.reverse.takeWhile fun event ↦ !event.isReset).reverse

@[simp] theorem sinceReset_concat (events : List Event) (event : Event) :
    sinceReset (events ++ [event]) =
      if event.isReset then [] else sinceReset events ++ [event] := by
  cases h : event.isReset <;> simp [sinceReset, h]

def odometryMessages (events : List Event) : List Received :=
  (sinceReset events).filterMap fun
    | .odometry message receiptTime => some (message, receiptTime)
    | _ => none

def poseMessages (events : List Event) : List Received :=
  (sinceReset events).filterMap fun
    | .pose message receiptTime => some (message, receiptTime)
    | _ => none

def correctionMessages (events : List Event) : List Received :=
  (sinceReset events).filterMap fun
    | .correction message receiptTime => some (message, receiptTime)
    | _ => none

def registrationMessages (events : List Event) : List (RegistrationQuality × Time) :=
  (sinceReset events).filterMap fun
    | .registration message receiptTime => some (message, receiptTime)
    | _ => none

/-- The streams as functions of the messages received since the last reset. -/
def Setup.streams [Rounding] (setup : Setup) (events : List Event) : Streams where
  odometry := Stream.ofMessages setup.motionExceeds (odometryMessages events)
  pose := PoseStream.ofMessages (poseMessages events)
  correction := Stream.ofMessages setup.correctionExceeds (correctionMessages events)
  registration := (registrationMessages events).getLast?.map fun received ↦
    (checkedRegistration received.1, received.2)

/-- The monitor remembers exactly what its messages since the last reset determine. -/
theorem streams_run [Rounding] (setup : Setup) (events : List Event) :
    (setup.run events).streams = setup.streams events := by
  induction events using List.reverseRecOn with
  | nil => rfl
  | append_singleton events event ih =>
    rw [Setup.run_concat]
    cases event with
    | odometry message receiptTime =>
      rw [Setup.apply, streams_observeOdometry, ih]
      simp [Setup.streams, odometryMessages, poseMessages, correctionMessages,
        registrationMessages, Event.isReset]
    | pose message receiptTime =>
      rw [Setup.apply, streams_observePose, ih]
      simp [Setup.streams, odometryMessages, poseMessages, correctionMessages,
        registrationMessages, Event.isReset]
    | correction message receiptTime =>
      rw [Setup.apply, streams_observeCorrection, ih]
      simp [Setup.streams, odometryMessages, poseMessages, correctionMessages,
        registrationMessages, Event.isReset]
    | registration message receiptTime =>
      rw [Setup.apply, streams_observeRegistration, ih]
      simp [Setup.streams, odometryMessages, poseMessages, correctionMessages,
        registrationMessages, Event.isReset]
    | reset =>
      simp [Setup.apply, Monitor.reset, Monitor.streams, Setup.streams, odometryMessages,
        poseMessages, correctionMessages, registrationMessages, Event.isReset,
        Stream.ofMessages, PoseStream.ofMessages]
    | evaluate now context =>
      rw [Setup.apply, streams_evaluate, ih]
      simp [Setup.streams, odometryMessages, poseMessages, correctionMessages,
        registrationMessages, Event.isReset]

end SlamSystemManager.Quality
