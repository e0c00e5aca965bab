import SlamSystemManager.Quality.Scores

/-!
# Reasons

`evaluate` begins with the reason of a healthy frame and replaces it when it finds a fault. A frame
without a fault is not good when its scores are too low, and then the reason is replaced only if
they are not below the lower threshold. So the healthy reason is reported for a bad frame exactly
when every source is sound and the scores lie below that threshold.
-/

open Numeric

namespace SlamSystemManager.Quality

/-! ## The reasons of the faults -/

/-- No reason that is kept for a fault is the healthy one. -/
structure Monitor.NamesFaults (monitor : Monitor) : Prop where
  motion : monitor.motionFaultReason ≠ healthyReason
  pose : monitor.poseFaultReason ≠ healthyReason
  correction : monitor.correctionFaultReason ≠ healthyReason

theorem motionFault_ne_healthy [Rounding] (config : Config)
    (positionJump yawJump linearVelocity angularVelocity : Double) :
    (motionFault config positionJump yawJump linearVelocity angularVelocity).getD "" ≠
      healthyReason := by
  unfold motionFault
  split_ifs <;> decide

theorem correctionFault_ne_healthy [Rounding] (config : Config) (positionJump yawJump : Double) :
    (correctionFault config positionJump yawJump).getD "" ≠ healthyReason := by
  unfold correctionFault
  split_ifs <;> decide

section Observers

variable [Rounding] {monitor : Monitor} (h : monitor.NamesFaults)

include h

theorem Monitor.NamesFaults.measureMotion (config : Config) (math : Cmath) (stamp : Time)
    (pose : Pose ℚ) : (monitor.measureMotion config math stamp pose).NamesFaults := by
  unfold Monitor.measureMotion
  dsimp only
  split_ifs
  · exact ⟨motionFault_ne_healthy _ _ _ _ _, h.pose, h.correction⟩
  · exact ⟨h.motion, h.pose, h.correction⟩

theorem Monitor.NamesFaults.observeOdometry (config : Config) (math : Cmath)
    (message : StampedPose) (receiptTime : Time) :
    (monitor.observeOdometry config math message receiptTime).NamesFaults := by
  have hcleared : ({ monitor with
      motionSampleFault := false
      motionFaultReason := ""
      motionSampleValid := false } : Monitor).NamesFaults :=
    ⟨by simp [healthyReason], h.pose, h.correction⟩
  unfold Monitor.observeOdometry
  cases finitePose message.pose with
  | none => exact ⟨by simp [healthyReason], h.pose, h.correction⟩
  | some pose =>
    dsimp only
    split_ifs
    · exact ⟨by simp [healthyReason], h.pose, h.correction⟩
    · have hmeasured := hcleared.measureMotion config math message.stamp pose
      exact ⟨hmeasured.motion, hmeasured.pose, hmeasured.correction⟩
    · exact ⟨hcleared.motion, hcleared.pose, hcleared.correction⟩

theorem Monitor.NamesFaults.observePose (message : StampedPose) (receiptTime : Time) :
    (monitor.observePose message receiptTime).NamesFaults := by
  unfold Monitor.observePose
  cases finitePose message.pose with
  | none => exact ⟨h.motion, by simp [healthyReason], h.correction⟩
  | some pose => exact ⟨h.motion, by simp [healthyReason], h.correction⟩

theorem Monitor.NamesFaults.observeCorrection (config : Config) (math : Cmath)
    (message : StampedPose) (receiptTime : Time) :
    (monitor.observeCorrection config math message receiptTime).NamesFaults := by
  unfold Monitor.observeCorrection Monitor.measureCorrection
  cases finitePose message.pose with
  | none => exact ⟨h.motion, h.pose, by simp [healthyReason]⟩
  | some pose =>
    dsimp only
    split_ifs
    · exact ⟨h.motion, h.pose, by simp [healthyReason]⟩
    · exact ⟨h.motion, h.pose, correctionFault_ne_healthy _ _ _⟩
    · exact ⟨h.motion, h.pose, by simp [healthyReason]⟩

theorem Monitor.NamesFaults.evaluate (config : Config) (mapFrame : String) (now : Time)
    (context : Context) : (monitor.evaluate config mapFrame now context).1.NamesFaults := by
  unfold Monitor.evaluate
  dsimp only
  split_ifs <;> exact ⟨h.motion, h.pose, h.correction⟩

end Observers

theorem namesFaults_cleared {monitor : Monitor} (hmotion : monitor.motionFaultReason = "")
    (hpose : monitor.poseFaultReason = "") (hcorrection : monitor.correctionFaultReason = "") :
    monitor.NamesFaults :=
  ⟨by rw [hmotion]; decide, by rw [hpose]; decide, by rw [hcorrection]; decide⟩

/-! ## Frames and transitions -/

theorem Assessment.frame_eq_good (config : Config) (assessment : Assessment) :
    assessment.frame config = .good ↔
      assessment.critical = false ∧ config.localizedThreshold.le assessment.confidence = true := by
  unfold Assessment.frame
  constructor
  · intro h
    split_ifs at h with hgood
    simpa using hgood
  · rintro ⟨hcritical, hle⟩
    simp [hcritical, hle]

/-- Only good frames make LOCALIZED. -/
theorem not_recovered {config : Config} (hcounts : FrameCountsValid config)
    (hysteresis : Hysteresis) {frame : Frame} (h : frame ≠ .good) :
    (hysteresis.count frame).transition config ≠ some .localized := by
  have hnone : (hysteresis.count frame).consecutiveGoodFrames = 0 := by
    cases frame with
    | good => exact absurd rfl h
    | softBad => rfl
    | critical => rfl
  have hrecover := hcounts.recover_pos
  unfold Hysteresis.transition
  split_ifs with _ _ _ hgood
  · simp
  · simp
  · simp
  · omega
  · simp

/-- A good frame leaves the state or makes it LOCALIZED. -/
theorem transition_good {config : Config} (hcounts : FrameCountsValid config)
    (hysteresis : Hysteresis) :
    (hysteresis.count .good).transition config = some .localized ∨
      (hysteresis.count .good).transition config = none := by
  have hlost : ¬config.badFramesToLost ≤ 0 := not_le.mpr hcounts.lost_pos
  have hdegraded : ¬config.badFramesToDegraded ≤ 0 := not_le.mpr hcounts.degraded_pos
  unfold Hysteresis.transition
  simp only [Hysteresis.count, hlost, hdegraded, and_false, if_false]
  exact ite_eq_or_eq _ _ _

theorem stateChange_eq_some {previous next : QualityState} {reason : String} {change : StateChange}
    (h : stateChange previous next reason = some change) :
    next ≠ previous ∧ change = ⟨previous, next, reason⟩ := by
  unfold stateChange at h
  split_ifs at h with hsame
  cases h
  exact ⟨hsame, rfl⟩

/-! ## Faults of one evaluation -/

section Evaluations

variable [Rounding]

theorem namesFaults_run (setup : Setup) (events : List Event) : (setup.run events).NamesFaults := by
  induction events using List.reverseRecOn with
  | nil => exact namesFaults_cleared rfl rfl rfl
  | append_singleton events event ih =>
    rw [Setup.run_concat]
    cases event with
    | odometry message receiptTime => exact ih.observeOdometry ..
    | pose message receiptTime => exact ih.observePose ..
    | correction message receiptTime => exact ih.observeCorrection ..
    | registration message receiptTime => exact ⟨ih.motion, ih.pose, ih.correction⟩
    | reset => exact namesFaults_cleared rfl rfl rfl
    | evaluate now context => exact ih.evaluate ..

theorem fault_ne_healthy {config : Config} {monitor : Monitor} (h : monitor.NamesFaults)
    {now : Time} {context : Context} {reason : String}
    (hfault : monitor.fault config now context = some reason) : reason ≠ healthyReason := by
  unfold Monitor.fault at hfault
  dsimp only at hfault
  split_ifs at hfault <;> cases hfault <;> first
    | decide
    | exact h.motion
    | exact h.pose
    | exact h.correction

theorem registrationFault_ne_healthy {config : Config} {monitor : Monitor} {now : Time}
    {reason : String} (hfault : monitor.registrationFault config now = some reason) :
    reason ≠ healthyReason := by
  unfold Monitor.registrationFault at hfault
  dsimp only at hfault
  split_ifs at hfault <;> cases hfault <;> decide

/-- The reason an assessment begins with is replaced exactly when there is a fault. -/
theorem assess_reason (config : Config) {monitor : Monitor} (h : monitor.NamesFaults) (now : Time)
    (context : Context) :
    (monitor.assess config now context).reason = healthyReason ↔
      monitor.fault config now context = none ∧ monitor.registrationFault config now = none := by
  have hreason : (monitor.assess config now context).reason =
      (monitor.registrationFault config now).getD
        ((monitor.fault config now context).getD healthyReason) := rfl
  rw [hreason]
  constructor
  · intro hhealthy
    cases hregistration : monitor.registrationFault config now with
    | some reason =>
      rw [hregistration] at hhealthy
      exact absurd hhealthy (registrationFault_ne_healthy hregistration)
    | none =>
      cases hfault : monitor.fault config now context with
      | some reason =>
        rw [hregistration, hfault] at hhealthy
        exact absurd hhealthy (fault_ne_healthy h hfault)
      | none => exact ⟨rfl, rfl⟩
  · rintro ⟨hfault, hregistration⟩
    rw [hfault, hregistration]
    rfl

theorem assess_critical (config : Config) (monitor : Monitor) (now : Time) (context : Context) :
    (monitor.assess config now context).critical = false ↔
      monitor.fault config now context = none ∧ monitor.registrationFault config now = none := by
  calc
    (monitor.assess config now context).critical = false ↔
        (monitor.fault config now context).isSome = false ∧
          (monitor.registrationFault config now).isSome = false := Bool.or_eq_false_iff
    _ ↔ monitor.fault config now context = none ∧
          monitor.registrationFault config now = none := by
      simp only [Option.isSome_eq_false_iff, Option.isNone_iff_eq_none]

/-! ## Scores below the lower threshold -/

/-- The weighted average of the scores is below the lower threshold. -/
def ScoresBelow (config : Config) (metrics : List (Double × Double)) : Prop :=
  if (Double.fin 0).lt (availableWeight metrics) = true then
    ((weightedScore metrics).div (availableWeight metrics)).lt config.degradedThreshold = true
  else (Double.fin 0).lt config.degradedThreshold = true

theorem scoresBelow_iff (config : Config) (metrics : List (Double × Double)) :
    ScoresBelow config metrics ↔ (averageScore metrics).lt config.degradedThreshold = true := by
  unfold ScoresBelow averageScore
  split_ifs <;> rfl

/-! ## One evaluation -/

/-- A frame without a fault is put with the critical ones for its confidence alone. -/
theorem Assessment.frame_eq_critical {config : Config} (hconfig : Checked config)
    {assessment : Assessment} (h : assessment.critical = false) :
    assessment.frame config = .critical ↔
      assessment.confidence.lt config.degradedThreshold = true := by
  unfold Assessment.frame
  simp only [h, Bool.not_false, Bool.true_and, Bool.false_or]
  constructor
  · intro hframe
    split_ifs at hframe with _ hlow
    exact hlow
  · intro hlow
    have hnotGood : config.localizedThreshold.le assessment.confidence = false := by
      by_contra hgood
      rw [Bool.not_eq_false] at hgood
      have hordered := Double.le_of_le_of_lt hgood hlow
      rw [hconfig.ordered] at hordered
      cases hordered
    simp [hnotGood, hlow]

/-- The reason that `evaluate` reports for a frame. -/
def reportedReason (config : Config) (assessment : Assessment) : String :=
  if assessment.frame config = .softBad ∧ assessment.reason = healthyReason then
    "Confidence is below the localized threshold"
  else assessment.reason

theorem evaluate_active (config : Config) (mapFrame : String) (monitor : Monitor) (now : Time)
    {context : Context} (hactive : context.localizationActive = true)
    (hinitialized : context.localizationInitialized = true) :
    (monitor.evaluate config mapFrame now context).1.status.reason =
        (if ((monitor.hysteresis.count ((monitor.assess config now context).frame
              config)).transition config) = some .localized then healthyReason
          else reportedReason config (monitor.assess config now context)) ∧
      (monitor.evaluate config mapFrame now context).2 =
        stateChange monitor.hysteresis.state (monitor.hysteresis.step config
            ((monitor.assess config now context).frame config)).state
          (if ((monitor.hysteresis.count ((monitor.assess config now context).frame
              config)).transition config) = some .localized then "Quality remained healthy"
            else reportedReason config (monitor.assess config now context)) := by
  unfold Monitor.evaluate
  simp only [hactive, hinitialized]
  exact ⟨rfl, rfl⟩

/-- The reasons an active evaluation reports fit the frame: only a good frame is called healthy, and
none is found to have a fault. -/
structure ReasonsFit (setup : Setup) (monitor : Monitor) (now : Time) (context : Context) :
    Prop where
  bad : (monitor.assess setup.config now context).frame setup.config ≠ .good →
    (monitor.evaluate setup.config setup.mapFrame now context).1.status.reason ≠ healthyReason ∧
    ∀ change, (monitor.evaluate setup.config setup.mapFrame now context).2 = some change →
      change.reason ≠ healthyReason
  good : (monitor.assess setup.config now context).frame setup.config = .good →
    monitor.fault setup.config now context = none ∧
    monitor.registrationFault setup.config now = none ∧
    (monitor.evaluate setup.config setup.mapFrame now context).1.status.reason = healthyReason ∧
    ∀ change, (monitor.evaluate setup.config setup.mapFrame now context).2 = some change →
      change = ⟨monitor.hysteresis.state, .localized, "Quality remained healthy"⟩

/-- For every accepted configuration and every history, the reasons of an active evaluation fit its
frame unless every source is sound and its scores lie below the lower threshold. -/
theorem reasonsFit_iff (setup : Setup) {document : Option QualityDocument}
    (hconfig : loadConfig document = .ok setup.config) (events : List Event) (now : Time)
    {context : Context} (hactive : context.localizationActive = true)
    (hinitialized : context.localizationInitialized = true) :
    ReasonsFit setup (setup.run events) now context ↔
      ¬(OthersSound setup.config (setup.run events) now context ∧
        (setup.run events).registrationFault setup.config now = none ∧
        ScoresBelow setup.config ((setup.run events).metrics setup.config now)) := by
  have hchecked := checked_of_loadConfig hconfig
  have hcounts := frameCountsValid_of_loadConfig hconfig
  have hnames := namesFaults_run setup events
  generalize setup.run events = monitor at hnames
  obtain ⟨hreason, hchange⟩ :=
    evaluate_active setup.config setup.mapFrame monitor now hactive hinitialized
  rw [← fault_eq_none_iff, scoresBelow_iff]
  have hhealthy := assess_reason setup.config hnames now context
  have hfree := assess_critical setup.config monitor now context
  have hconfidence := assess_confidence hchecked monitor now context
  constructor
  · rintro hfit ⟨hfault, hregistration, hbelow⟩
    have hnotCritical := hfree.mpr ⟨hfault, hregistration⟩
    rw [hnotCritical, if_neg Bool.false_ne_true] at hconfidence
    have hframe := (Assessment.frame_eq_critical hchecked hnotCritical).mpr (hconfidence ▸ hbelow)
    apply (hfit.bad (by rw [hframe]; decide)).1
    rw [hreason, hframe, if_neg (not_recovered hcounts monitor.hysteresis (by decide)),
      reportedReason, hframe]
    exact hhealthy.mpr ⟨hfault, hregistration⟩
  · intro hnotBelow
    constructor
    · intro hbad
      have hrecovered := not_recovered hcounts monitor.hysteresis hbad
      rw [if_neg hrecovered] at hreason hchange
      -- a frame that is not good shows the healthy reason only for low scores without a fault
      have hreported : reportedReason setup.config (monitor.assess setup.config now context) ≠
          healthyReason := by
        unfold reportedReason
        split_ifs with hsoft
        · decide
        · intro hsame
          obtain ⟨hfault, hregistration⟩ := hhealthy.mp hsame
          have hnotCritical := hfree.mpr ⟨hfault, hregistration⟩
          rw [hnotCritical, if_neg Bool.false_ne_true] at hconfidence
          apply hnotBelow
          refine ⟨hfault, hregistration, ?_⟩
          rw [← hconfidence]
          apply (Assessment.frame_eq_critical hchecked hnotCritical).mp
          cases hframe : (monitor.assess setup.config now context).frame setup.config with
          | good => exact absurd hframe hbad
          | softBad => exact absurd ⟨hframe, hsame⟩ hsoft
          | critical => rfl
      rw [hreason]
      refine ⟨hreported, fun change hsome ↦ ?_⟩
      rw [hchange] at hsome
      rw [(stateChange_eq_some hsome).2]
      exact hreported
    · intro hgood
      obtain ⟨hnotCritical, -⟩ := (Assessment.frame_eq_good ..).mp hgood
      obtain ⟨hfault, hregistration⟩ := hfree.mp hnotCritical
      refine ⟨hfault, hregistration, ?_, fun change hsome ↦ ?_⟩
      · rw [hreason, hgood]
        split_ifs with hrecovered
        · rfl
        · rw [reportedReason, hgood]
          exact hhealthy.mpr ⟨hfault, hregistration⟩
      · rw [hchange, hgood] at hsome
        obtain ⟨hmoved, rfl⟩ := stateChange_eq_some hsome
        obtain hrecovered | hnone := transition_good hcounts monitor.hysteresis
        · rw [if_pos hrecovered, Hysteresis.step, hrecovered]
          rfl
        · exact absurd (by rw [Hysteresis.step, hnone]; rfl) hmoved

end Evaluations

/-- Right after the first samples every score is full and the frame good. -/
theorem reasonsFit_firstSamples :
    ReasonsFit defaultSetup
      (defaultSetup.run [.odometry originPose 0, .pose originPose 0, .correction originPose 0]) 0
      fullContext := by
  refine (reasonsFit_iff defaultSetup loadConfig_localizationQualityYaml _ 0 rfl rfl).mpr ?_
  rintro ⟨-, -, hbelow⟩
  exact absurd hbelow (by unfold ScoresBelow; decide +kernel)

/-- Ten milliseconds before the timeout of the pose the freshness is all but gone; the frame is
critical and its reason the healthy one. -/
theorem healthy_reason_for_critical_frame :
    loadConfig (some (localizationQualityYaml [])) = .ok defaultSetup.config ∧
      ((defaultSetup.run [.odometry originPose 0, .pose originPose 0,
        .correction originPose 0]).assess defaultSetup.config (590 * 10 ^ 6) fullContext).frame
          defaultSetup.config = .critical ∧
      ((defaultSetup.run [.odometry originPose 0, .pose originPose 0,
        .correction originPose 0]).evaluate defaultSetup.config defaultSetup.mapFrame (590 * 10 ^ 6)
          fullContext).1.status.reason = healthyReason ∧
      ¬ReasonsFit defaultSetup (defaultSetup.run [.odometry originPose 0, .pose originPose 0,
        .correction originPose 0]) (590 * 10 ^ 6) fullContext := by
  refine ⟨loadConfig_localizationQualityYaml, by decide +kernel, by decide +kernel, fun hfit ↦ ?_⟩
  exact (hfit.bad (by decide +kernel)).1 (by decide +kernel)

end SlamSystemManager.Quality
