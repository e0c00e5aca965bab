import SlamSystemManager.Library.Interleaving
import SlamSystemManager.Quality.Isolation
import SlamSystemManager.Quality.Recovery

/-!
# The topics are independent

The monitor listens to four topics. Each observer reads and writes members of its own, so observers
of different topics commute: what the monitor answers later depends on the sequence of messages of
each topic, not on how ROS interleaves them, and what is recorded for a topic stays until that topic
has its next message.
-/

open Interleaving Numeric Unwinding

namespace SlamSystemManager.Quality

/-! ## Observers of different topics commute -/

/-- The members that `observeCorrection` reads and writes. -/
structure CorrectionPart where
  haveCorrection : Bool
  lastCorrectionReceipt : Time
  lastCorrectionStamp : Time
  lastCorrectionPose : Pose ℚ
  correctionPositionJump : Double
  correctionYawJump : Double
  correctionSampleFault : Bool
  correctionFaultReason : String

def Monitor.correctionPart (monitor : Monitor) : CorrectionPart where
  haveCorrection := monitor.haveCorrection
  lastCorrectionReceipt := monitor.lastCorrectionReceipt
  lastCorrectionStamp := monitor.lastCorrectionStamp
  lastCorrectionPose := monitor.lastCorrectionPose
  correctionPositionJump := monitor.correctionPositionJump
  correctionYawJump := monitor.correctionYawJump
  correctionSampleFault := monitor.correctionSampleFault
  correctionFaultReason := monitor.correctionFaultReason

def Monitor.withCorrection (monitor : Monitor) (part : CorrectionPart) : Monitor :=
  { monitor with
    haveCorrection := part.haveCorrection
    lastCorrectionReceipt := part.lastCorrectionReceipt
    lastCorrectionStamp := part.lastCorrectionStamp
    lastCorrectionPose := part.lastCorrectionPose
    correctionPositionJump := part.correctionPositionJump
    correctionYawJump := part.correctionYawJump
    correctionSampleFault := part.correctionSampleFault
    correctionFaultReason := part.correctionFaultReason }

/-- An observer of another stream neither reads nor writes the members of the correction. -/
structure KeepsCorrection (observe : Monitor → Monitor) : Prop where
  part : ∀ monitor, (observe monitor).correctionPart = monitor.correctionPart
  update : ∀ monitor part,
    observe (Monitor.withCorrection monitor part) = (observe monitor).withCorrection part

theorem keepsCorrection_observeRegistration (report : RegistrationQuality) (first : Time) :
    KeepsCorrection fun monitor ↦ monitor.observeRegistration report first :=
  ⟨fun _ ↦ rfl, fun _ _ ↦ rfl⟩

section Commute

variable [Rounding] (config : Config) (math : Cmath) (monitor : Monitor)
  (odometry pose correction : StampedPose) (report : RegistrationQuality) (first second : Time)

theorem observeCorrection_eq :
    monitor.observeCorrection config math correction second =
      monitor.withCorrection ((({} : Monitor).withCorrection
        monitor.correctionPart).observeCorrection config math correction
          second).correctionPart := by
  unfold Monitor.observeCorrection
  cases finitePose correction.pose with
  | none => rfl
  | some correctionPose =>
    cases hhave : monitor.haveCorrection with
    | false => simp [Monitor.withCorrection, Monitor.correctionPart, hhave]
    | true =>
      by_cases hstamp : correction.stamp ≤ monitor.lastCorrectionStamp <;>
        simp [Monitor.withCorrection, Monitor.correctionPart, Monitor.measureCorrection, hstamp,
          hhave]

theorem KeepsCorrection.commutes {observe : Monitor → Monitor} (h : KeepsCorrection observe) :
    (observe monitor).observeCorrection config math correction second =
      observe (monitor.observeCorrection config math correction second) := by
  rw [observeCorrection_eq, observeCorrection_eq config math monitor, h.part, h.update]

theorem keepsCorrection_observeOdometry :
    KeepsCorrection fun monitor ↦ monitor.observeOdometry config math odometry first := by
  constructor
  · intro monitor
    unfold Monitor.observeOdometry Monitor.measureMotion
    cases finitePose odometry.pose with
    | none => rfl
    | some odometryPose =>
      dsimp only
      split_ifs <;> rfl
  · intro monitor part
    unfold Monitor.observeOdometry
    cases finitePose odometry.pose with
    | none => rfl
    | some odometryPose =>
      cases hhave : monitor.haveOdometry with
      | false => simp [Monitor.withCorrection, hhave]
      | true =>
        by_cases hstamp : odometry.stamp ≤ monitor.lastOdometryStamp
        · simp [Monitor.withCorrection, hhave, hstamp]
        · by_cases hdelta : 0 < ageSeconds odometry.stamp monitor.lastOdometryStamp <;>
            simp [Monitor.withCorrection, Monitor.measureMotion, hhave, hstamp, hdelta]

theorem keepsCorrection_observePose :
    KeepsCorrection fun monitor ↦ monitor.observePose pose first := by
  constructor <;> intros <;> unfold Monitor.observePose <;> cases finitePose pose.pose <;> rfl

theorem observeOdometry_observePose :
    (monitor.observeOdometry config math odometry first).observePose pose second =
      (monitor.observePose pose second).observeOdometry config math odometry first := by
  unfold Monitor.observeOdometry Monitor.observePose
  cases finitePose pose.pose <;> cases finitePose odometry.pose with
  | none => rfl
  | some odometryPose =>
    cases monitor.haveOdometry with
    | false => simp
    | true =>
      by_cases hstamp : odometry.stamp ≤ monitor.lastOdometryStamp
      · simp [hstamp]
      · by_cases hdelta : 0 < ageSeconds odometry.stamp monitor.lastOdometryStamp <;>
          simp [Monitor.measureMotion, hstamp, hdelta]

theorem observeOdometry_observeRegistration :
    (monitor.observeOdometry config math odometry first).observeRegistration report second =
      (monitor.observeRegistration report second).observeOdometry config math odometry first := by
  unfold Monitor.observeOdometry Monitor.observeRegistration
  cases finitePose odometry.pose with
  | none => rfl
  | some odometryPose =>
    cases monitor.haveOdometry with
    | false => simp
    | true =>
      by_cases hstamp : odometry.stamp ≤ monitor.lastOdometryStamp
      · simp [hstamp]
      · by_cases hdelta : 0 < ageSeconds odometry.stamp monitor.lastOdometryStamp <;>
          simp [Monitor.measureMotion, hstamp, hdelta]

theorem observePose_observeRegistration :
    (monitor.observePose pose first).observeRegistration report second =
      (monitor.observeRegistration report second).observePose pose first := by
  unfold Monitor.observePose Monitor.observeRegistration
  cases finitePose pose.pose <;> rfl

end Commute

/-! ## Traces -/

/-- The topics the monitor subscribes to. -/
inductive Topic where
  | odometry
  | pose
  | correction
  | registration
  deriving DecidableEq

/-- The topic a message arrived on; none for an evaluation and for a reset. -/
def Event.topic? : Event → Option Topic
  | .odometry _ _ => some .odometry
  | .pose _ _ => some .pose
  | .correction _ _ => some .correction
  | .registration _ _ => some .registration
  | .reset | .evaluate _ _ => none

/-- A trace of messages, as between two evaluations. -/
def Observations (trace : List Event) : Prop := ∀ event ∈ trace, event.topic? ≠ none

theorem Setup.apply_commute [Rounding] (setup : Setup) (monitor : Monitor) {first second : Event}
    (hfirst : first.topic? ≠ none) (hsecond : second.topic? ≠ none)
    (h : first.topic? ≠ second.topic?) :
    setup.apply (setup.apply monitor first) second =
      setup.apply (setup.apply monitor second) first := by
  cases first with
  | reset | evaluate now context => exact absurd rfl hfirst
  | odometry odometry receipt =>
    cases second with
    | reset | evaluate now context => exact absurd rfl hsecond
    | odometry => exact absurd rfl h
    | pose => exact observeOdometry_observePose ..
    | correction => exact (keepsCorrection_observeOdometry ..).commutes ..
    | registration => exact observeOdometry_observeRegistration ..
  | pose pose receipt =>
    cases second with
    | reset | evaluate now context => exact absurd rfl hsecond
    | odometry => exact (observeOdometry_observePose ..).symm
    | pose => exact absurd rfl h
    | correction => exact (keepsCorrection_observePose ..).commutes ..
    | registration => exact observePose_observeRegistration ..
  | correction correction receipt =>
    cases second with
    | reset | evaluate now context => exact absurd rfl hsecond
    | odometry => exact ((keepsCorrection_observeOdometry ..).commutes ..).symm
    | pose => exact ((keepsCorrection_observePose ..).commutes ..).symm
    | correction => exact absurd rfl h
    | registration => exact ((keepsCorrection_observeRegistration ..).commutes ..).symm
  | registration report receipt =>
    cases second with
    | reset | evaluate now context => exact absurd rfl hsecond
    | odometry => exact (observeOdometry_observeRegistration ..).symm
    | pose => exact (observePose_observeRegistration ..).symm
    | correction => exact (keepsCorrection_observeRegistration ..).commutes ..
    | registration => exact absurd rfl h

/-! ## What is recorded for a topic -/

/-- The fault that the members of a topic stand for, with its reason. -/
def Monitor.topicFault [Rounding] (config : Config) (monitor : Monitor) (now : Time) :
    Topic → Option String
  | .odometry => if monitor.motionSampleFault then some monitor.motionFaultReason else none
  | .pose => if monitor.poseSampleFault then some monitor.poseFaultReason else none
  | .correction =>
    if monitor.correctionSampleFault then some monitor.correctionFaultReason else none
  | .registration => monitor.registrationFault config now

/-- A message leaves the faults of the other topics as they were. -/
theorem topicFault_apply [Rounding] (setup : Setup) (now : Time) {topic : Topic} {event : Event}
    (hmessage : event.topic? ≠ none) (hother : event.topic? ≠ some topic) (monitor : Monitor) :
    (setup.apply monitor event).topicFault setup.config now topic =
      monitor.topicFault setup.config now topic := by
  cases event with
  | reset | evaluate now context => exact absurd rfl hmessage
  | odometry message receipt =>
    simp only [Setup.apply, Monitor.observeOdometry, Monitor.measureMotion]
    cases finitePose message.pose with
    | none => cases topic <;> first | rfl | exact absurd rfl hother
    | some pose =>
      dsimp only
      split_ifs <;> cases topic <;> first | rfl | exact absurd rfl hother
  | pose message receipt =>
    simp only [Setup.apply, Monitor.observePose]
    cases finitePose message.pose <;> cases topic <;> first | rfl | exact absurd rfl hother
  | correction message receipt =>
    simp only [Setup.apply, Monitor.observeCorrection, Monitor.measureCorrection]
    cases finitePose message.pose with
    | none => cases topic <;> first | rfl | exact absurd rfl hother
    | some pose =>
      dsimp only
      split_ifs <;> cases topic <;> first | rfl | exact absurd rfl hother
  | registration report receipt =>
    cases topic <;> first | rfl | exact absurd rfl hother

/-- A fault of any topic keeps the pose from being valid, whatever the other topics carry. -/
theorem poseValid_of_topicFault [Rounding] {config : Config} {mapFrame : String} {monitor : Monitor}
    {now : Time} {topic : Topic} (hfault : monitor.topicFault config now topic ≠ none)
    (context : Context) :
    (monitor.evaluate config mapFrame now context).1.status.poseValid = false := by
  rw [← Bool.not_eq_true, poseValid_evaluate]
  rintro ⟨-, -, -, hcritical, hmotion, hpose, hcorrection⟩
  cases topic with
  | odometry => exact hfault (by simp [Monitor.topicFault, hmotion])
  | pose => exact hfault (by simp [Monitor.topicFault, hpose])
  | correction => exact hfault (by simp [Monitor.topicFault, hcorrection])
  | registration =>
    have hnone : monitor.registrationFault config now = none := by
      simpa [Monitor.assess] using (Bool.or_eq_false_iff.mp hcritical).2
    exact hfault hnone

/-! ## Interleavings -/

/-- What the monitor answers after a trace depends on the messages of each topic alone; and what is
recorded for a topic outlasts every trace of the other topics and keeps the pose from being
valid. -/
theorem topics_independent [Rounding] (setup : Setup) (monitor : Monitor)
    (first second : List Event) (hobservations : Observations first)
    (hsame : SameStreams Event.topic? first second) :
    (∀ calls, outputs setup.respond (first.foldl setup.apply monitor) calls =
      outputs setup.respond (second.foldl setup.apply monitor) calls) ∧
    ∀ topic, (∀ event ∈ first, event.topic? ≠ some topic) → ∀ now,
      (first.foldl setup.apply monitor).topicFault setup.config now topic =
        monitor.topicFault setup.config now topic ∧
      (monitor.topicFault setup.config now topic ≠ none → ∀ context,
        ((first.foldl setup.apply monitor).evaluate setup.config setup.mapFrame now
          context).1.status.poseValid = false) := by
  have hcommute : ∀ a ∈ first, ∀ b ∈ first, a.topic? ≠ b.topic? →
      ∀ monitor, setup.apply (setup.apply monitor a) b = setup.apply (setup.apply monitor b) a :=
    fun a ha b hb hne monitor ↦
      setup.apply_commute monitor (hobservations a ha) (hobservations b hb) hne
  constructor
  · intro calls
    rw [hsame.foldl_eq hcommute monitor]
  · intro topic hothers now
    have hkept : (first.foldl setup.apply monitor).topicFault setup.config now topic =
        monitor.topicFault setup.config now topic :=
      foldl_keeps (fun monitor : Monitor ↦ monitor.topicFault setup.config now topic)
        (fun event hevent monitor ↦
          topicFault_apply setup now (hobservations event hevent) (hothers event hevent) monitor)
        monitor
    exact ⟨hkept, fun hfault ↦ poseValid_of_topicFault (hkept ▸ hfault)⟩

/-- An odometry message with a NaN. -/
def brokenOdometry : Event :=
  .odometry { originPose with pose := ⟨⟨.nan, .fin 0, .fin 0⟩, originPose.pose.orientation⟩ } 0

/-- The broken message arrives before or after the healthy messages of two other topics. -/
theorem topics_independent_brokenOdometry :
    outputs defaultSetup.respond
        ([brokenOdometry, .pose originPose 0, .correction originPose 0].foldl
          defaultSetup.apply {}) [.event (.evaluate 0 fullContext)] =
      outputs defaultSetup.respond
        ([.correction originPose 0, .pose originPose 0, brokenOdometry].foldl
          defaultSetup.apply {}) [.event (.evaluate 0 fullContext)] := by
  refine (topics_independent defaultSetup {} _ _ ?_ fun topic ↦ ?_).1 _
  · simp [Observations, Event.topic?, brokenOdometry]
  · cases topic with
    | none => rfl
    | some topic => cases topic <;> rfl

end SlamSystemManager.Quality
