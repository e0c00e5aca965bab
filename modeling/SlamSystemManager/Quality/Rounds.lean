import SlamSystemManager.Quality.Localizable
import SlamSystemManager.Quality.Topics

/-!
# Recovery

A round delivers one healthy message on every stream, all received at the time of the evaluation
that follows, in any order. The first sample of a tail of rounds may fault against what the monitor
held before; from the second round on every frame is the same: good for a configuration whose limits
are numbers and whose weights have a finite sum, and never good otherwise.
-/

open ConsecutiveRuns Numeric Numeric.Rounding

namespace SlamSystemManager.Quality

theorem mem_of_sinceReset {events : List Event} {event : Event} (h : event ∈ sinceReset events) :
    event ∈ events := by
  rw [sinceReset, List.mem_reverse] at h
  exact List.mem_reverse.mp ((List.takeWhile_sublist _).subset h)

section Doubles

variable [Rounding]

/-! ## Rounds -/

/-- The messages of one round. -/
structure Round where
  now : Time
  odometry : StampedPose
  pose : StampedPose
  correction : StampedPose
  report : RegistrationQuality
  odometryPose : Pose ℚ
  correctionPose : Pose ℚ
  odometryFinite : finitePose odometry.pose = some odometryPose
  poseFinite : (finitePose pose.pose).isSome = true
  correctionFinite : finitePose correction.pose = some correctionPose
  wellFormed : RegistrationQuality.malformed report = false
  perfect : Perfect report

def Round.deliveries (round : Round) : List Event :=
  [.odometry round.odometry round.now, .pose round.pose round.now,
    .correction round.correction round.now, .registration round.report round.now]

def Round.odometrySample (round : Round) : Sample :=
  ⟨round.odometryPose, round.odometry.stamp, round.now⟩

def Round.correctionSample (round : Round) : Sample :=
  ⟨round.correctionPose, round.correction.stamp, round.now⟩

/-- The stamps of a round lie after every stamp seen before on their streams. -/
structure StampsAdvance (events : List Event) (round : Round) : Prop where
  odometry : ∀ message receipt, .odometry message receipt ∈ events →
    message.stamp < round.odometry.stamp
  correction : ∀ message receipt, .correction message receipt ∈ events →
    message.stamp < round.correction.stamp

/-- The steps between two rounds: at most four fifths of the velocity limits, and corrections within
the jump limits. -/
structure WithinLimits (setup : Setup) (previous round : Round) : Prop where
  linear : ((previous.odometrySample.linearVelocity setup.math round.odometryPose
    round.odometry.stamp).div setup.config.maxLinearVelocityMps).le (.ofRat (8 / 10)) = true
  angular : ((previous.odometrySample.angularVelocity setup.math round.odometryPose
    round.odometry.stamp).div (radians setup.config.maxAngularVelocityDps)).le
      (.ofRat (8 / 10)) = true
  correction :
    setup.withinJump previous.correctionSample round.correctionPose round.correction.stamp

/-- A tail of rounds after a history, with its last round and their number. -/
inductive Rounds (setup : Setup) (events : List Event) : List Event → Option Round → ℕ → Prop where
  | none : Rounds setup events [] none 0
  | next {tail deliveries : List Event} {last : Option Round} {count : ℕ}
      (before : Rounds setup events tail last count) (round : Round)
      (delivered : deliveries.Perm round.deliveries)
      (stamps : StampsAdvance (events ++ tail) round)
      (steps : ∀ previous ∈ last, WithinLimits setup previous round) :
      Rounds setup events (tail ++ (deliveries ++ [.evaluate round.now fullContext])) (some round)
        (count + 1)

/-! ## The order of the deliveries -/

/-- The deliveries of a round, in the order of the streams. -/
def Setup.deliver (setup : Setup) (monitor : Monitor) (round : Round) : Monitor :=
  (((monitor.observeOdometry setup.config setup.math round.odometry round.now).observePose
    round.pose round.now).observeCorrection setup.config setup.math round.correction
      round.now).observeRegistration round.report round.now

theorem Round.observations (round : Round) : Observations round.deliveries := by
  simp [Observations, Round.deliveries, Event.topic?]

/-- The order in which the messages of a round arrive makes no difference. -/
theorem run_deliveries (setup : Setup) (events : List Event) (round : Round)
    {deliveries : List Event} (h : deliveries.Perm round.deliveries) :
    setup.run (events ++ deliveries) = setup.deliver (setup.run events) round := by
  have horder : deliveries.foldl setup.apply (setup.run events) =
      round.deliveries.foldl setup.apply (setup.run events) := by
    apply h.foldl_eq'
    intro first hfirst second hsecond monitor
    have hfirst := h.mem_iff.mp hfirst
    have hsecond := h.mem_iff.mp hsecond
    by_cases htopic : first.topic? = second.topic?
    · simp only [Round.deliveries, List.mem_cons, List.not_mem_nil, or_false] at hfirst hsecond
      obtain rfl | rfl | rfl | rfl := hfirst <;> obtain rfl | rfl | rfl | rfl := hsecond <;>
        first | rfl | cases htopic
    · exact setup.apply_commute monitor (round.observations first hfirst)
        (round.observations second hsecond) htopic
  rw [Setup.run, List.foldl_append]
  exact horder

/-! ## Stored stamps -/

theorem stamp_of_storedSample {messages : List Received} {sample : Sample}
    (h : storedSample messages = some sample) :
    ∃ received ∈ messages, received.1.stamp = sample.stamp := by
  induction messages using List.reverseRecOn with
  | nil => cases h
  | append_singleton messages received ih =>
    rw [storedSample_concat, nextSample] at h
    cases hpose : finitePose received.1.pose with
    | none =>
      rw [hpose] at h
      obtain ⟨earlier, hmember, hstamp⟩ := ih h
      exact ⟨earlier, by simp [hmember], hstamp⟩
    | some pose =>
      rw [hpose] at h
      dsimp only at h
      split_ifs at h
      · obtain ⟨earlier, hmember, hstamp⟩ := ih h
        exact ⟨earlier, by simp [hmember], hstamp⟩
      · cases h
        exact ⟨received, by simp, rfl⟩

/-- The stamp of the stored odometry is the stamp of a message. -/
theorem odometry_of_have {setup : Setup} {events : List Event}
    (h : (setup.run events).haveOdometry = true) :
    ∃ message receipt, .odometry message receipt ∈ events ∧
      message.stamp = (setup.run events).lastOdometryStamp := by
  have hview := congrArg (fun streams ↦ streams.odometry.sample) (streams_run setup events)
  simp only [Monitor.streams, Setup.streams, h, if_true, sample_ofMessages] at hview
  obtain ⟨received, hmember, hstamp⟩ := stamp_of_storedSample hview.symm
  obtain ⟨event, hevent, hreceived⟩ := List.mem_filterMap.mp hmember
  cases event <;> cases hreceived
  exact ⟨_, _, mem_of_sinceReset hevent, hstamp⟩

/-- The stamp of the stored correction is the stamp of a message. -/
theorem correction_of_have {setup : Setup} {events : List Event}
    (h : (setup.run events).haveCorrection = true) :
    ∃ message receipt, .correction message receipt ∈ events ∧
      message.stamp = (setup.run events).lastCorrectionStamp := by
  have hview := congrArg (fun streams ↦ streams.correction.sample) (streams_run setup events)
  simp only [Monitor.streams, Setup.streams, h, if_true, sample_ofMessages] at hview
  obtain ⟨received, hmember, hstamp⟩ := stamp_of_storedSample hview.symm
  obtain ⟨event, hevent, hreceived⟩ := List.mem_filterMap.mp hmember
  cases event <;> cases hreceived
  exact ⟨_, _, mem_of_sinceReset hevent, hstamp⟩

/-- The samples the monitor holds come before those of a round. -/
structure Monitor.Behind (monitor : Monitor) (round : Round) : Prop where
  odometry : monitor.haveOdometry = true → monitor.lastOdometryStamp < round.odometry.stamp
  correction : monitor.haveCorrection = true → monitor.lastCorrectionStamp < round.correction.stamp

theorem behind_of_stampsAdvance (setup : Setup) {events : List Event} {round : Round}
    (h : StampsAdvance events round) : (setup.run events).Behind round := by
  constructor
  · intro hhave
    obtain ⟨message, receipt, hevent, hstamp⟩ := odometry_of_have hhave
    rw [← hstamp]
    exact h.odometry message receipt hevent
  · intro hhave
    obtain ⟨message, receipt, hevent, hstamp⟩ := correction_of_have hhave
    rw [← hstamp]
    exact h.correction message receipt hevent

/-! ## The monitor after a round -/

/-- The monitor holds the odometry and the correction of a round. -/
structure Monitor.Stored (monitor : Monitor) (round : Round) : Prop where
  haveOdometry : monitor.haveOdometry = true
  odometryPose : monitor.lastOdometryPose = round.odometryPose
  odometryStamp : monitor.lastOdometryStamp = round.odometry.stamp
  haveCorrection : monitor.haveCorrection = true
  correctionPose : monitor.lastCorrectionPose = round.correctionPose
  correctionStamp : monitor.lastCorrectionStamp = round.correction.stamp

section Taken

variable {config : Config} {math : Cmath} {monitor : Monitor} {message : StampedPose}
  {receiptTime : Time} {pose : Pose ℚ} (hpose : finitePose message.pose = some pose)

include hpose

theorem observeOdometry_first (hhave : monitor.haveOdometry = false) :
    monitor.observeOdometry config math message receiptTime =
      { monitor with
        motionSampleFault := false
        motionFaultReason := ""
        motionSampleValid := false
        lastOdometryPose := pose
        lastOdometryStamp := message.stamp
        lastOdometryReceipt := receiptTime
        haveOdometry := true } := by
  simp [Monitor.observeOdometry, hpose, hhave]

theorem observeOdometry_newer (hhave : monitor.haveOdometry = true)
    (hstamp : monitor.lastOdometryStamp < message.stamp) :
    monitor.observeOdometry config math message receiptTime =
      { monitor with
        positionJump := norm3 math pose.position monitor.lastOdometryPose.position
        yawJump := yawDifference math pose monitor.lastOdometryPose
        linearVelocity := (norm3 math pose.position monitor.lastOdometryPose.position).div
          (.fin (ageSeconds message.stamp monitor.lastOdometryStamp))
        angularVelocity := (yawDifference math pose monitor.lastOdometryPose).div
          (.fin (ageSeconds message.stamp monitor.lastOdometryStamp))
        motionSampleValid := true
        motionSampleFault := (motionFault config
          (norm3 math pose.position monitor.lastOdometryPose.position)
          (yawDifference math pose monitor.lastOdometryPose)
          ((norm3 math pose.position monitor.lastOdometryPose.position).div
            (.fin (ageSeconds message.stamp monitor.lastOdometryStamp)))
          ((yawDifference math pose monitor.lastOdometryPose).div
            (.fin (ageSeconds message.stamp monitor.lastOdometryStamp)))).isSome
        motionFaultReason := (motionFault config
          (norm3 math pose.position monitor.lastOdometryPose.position)
          (yawDifference math pose monitor.lastOdometryPose)
          ((norm3 math pose.position monitor.lastOdometryPose.position).div
            (.fin (ageSeconds message.stamp monitor.lastOdometryStamp)))
          ((yawDifference math pose monitor.lastOdometryPose).div
            (.fin (ageSeconds message.stamp monitor.lastOdometryStamp)))).getD ""
        lastOdometryPose := pose
        lastOdometryStamp := message.stamp
        lastOdometryReceipt := receiptTime
        haveOdometry := true } := by
  simp [Monitor.observeOdometry, Monitor.measureMotion, hpose, hhave, not_le.mpr hstamp,
    ageSeconds_pos hstamp]

theorem observePose_finite :
    monitor.observePose message receiptTime =
      { monitor with
        poseSampleFault := false
        poseFaultReason := ""
        lastPoseReceipt := receiptTime
        havePose := true } := by
  simp [Monitor.observePose, hpose]

theorem observeCorrection_first (hhave : monitor.haveCorrection = false) :
    monitor.observeCorrection config math message receiptTime =
      { monitor with
        correctionSampleFault := false
        correctionFaultReason := ""
        lastCorrectionPose := pose
        lastCorrectionStamp := message.stamp
        lastCorrectionReceipt := receiptTime
        haveCorrection := true } := by
  simp [Monitor.observeCorrection, hpose, hhave]

theorem observeCorrection_newer (hhave : monitor.haveCorrection = true)
    (hstamp : monitor.lastCorrectionStamp < message.stamp) :
    monitor.observeCorrection config math message receiptTime =
      { monitor with
        correctionPositionJump := norm3 math pose.position monitor.lastCorrectionPose.position
        correctionYawJump := yawDifference math pose monitor.lastCorrectionPose
        correctionSampleFault := (correctionFault config
          (norm3 math pose.position monitor.lastCorrectionPose.position)
          (yawDifference math pose monitor.lastCorrectionPose)).isSome
        correctionFaultReason := (correctionFault config
          (norm3 math pose.position monitor.lastCorrectionPose.position)
          (yawDifference math pose monitor.lastCorrectionPose)).getD ""
        lastCorrectionPose := pose
        lastCorrectionStamp := message.stamp
        lastCorrectionReceipt := receiptTime
        haveCorrection := true } := by
  simp [Monitor.observeCorrection, Monitor.measureCorrection, hpose, hhave, not_le.mpr hstamp]

end Taken

section Deliver

variable {setup : Setup} {monitor : Monitor} {previous round : Round}

theorem matched_deliver : (setup.deliver monitor round).Matched round.now := by
  have hwellFormed :
      (round.report.valid && RegistrationQuality.malformed round.report) = false := by
    rw [round.wellFormed, Bool.and_false]
  have hreport : (setup.deliver monitor round).registration = round.report := by
    simp [Setup.deliver, Monitor.observeRegistration, hwellFormed]
  exact ⟨rfl, by rw [hreport]; exact round.perfect, rfl⟩

/-- Behind a round the monitor takes its samples, whether or not it held any. -/
theorem stored_deliver (h : monitor.Behind round) : (setup.deliver monitor round).Stored round := by
  obtain ⟨pose, hpose⟩ := Option.isSome_iff_exists.mp round.poseFinite
  unfold Setup.deliver
  obtain hhave | hhave := Bool.eq_false_or_eq_true monitor.haveOdometry
  · rw [observeOdometry_newer round.odometryFinite hhave (h.odometry hhave),
      observePose_finite hpose]
    obtain hheld | hheld := Bool.eq_false_or_eq_true monitor.haveCorrection
    · rw [observeCorrection_newer round.correctionFinite (by exact hheld)
        (by exact h.correction hheld)]
      exact ⟨rfl, rfl, rfl, rfl, rfl, rfl⟩
    · rw [observeCorrection_first round.correctionFinite (by exact hheld)]
      exact ⟨rfl, rfl, rfl, rfl, rfl, rfl⟩
  · rw [observeOdometry_first round.odometryFinite hhave, observePose_finite hpose]
    obtain hheld | hheld := Bool.eq_false_or_eq_true monitor.haveCorrection
    · rw [observeCorrection_newer round.correctionFinite (by exact hheld)
        (by exact h.correction hheld)]
      exact ⟨rfl, rfl, rfl, rfl, rfl, rfl⟩
    · rw [observeCorrection_first round.correctionFinite (by exact hheld)]
      exact ⟨rfl, rfl, rfl, rfl, rfl, rfl⟩

theorem ofRat_fourFifths : Double.ofRat (8 / 10) = .fin (nearest (8 / 10)) :=
  (Double.ofRat_of_mem representable_one (by norm_num) (by norm_num)).1

/-- A value of at most four fifths of a limit does not exceed it. -/
theorem not_exceeds_of_ratio {limit : Double} (hlimit : limit.lt (.fin 0) = false) {value : Double}
    (h : (value.div limit).le (.ofRat (8 / 10)) = true) : limit.lt value = false := by
  rw [ofRat_fourFifths] at h
  cases limit with
  | nan => rfl
  | inf negative =>
    cases negative with
    | false => cases value <;> rfl
    | true => cases hlimit
  | fin limit =>
    have hlimit0 : 0 ≤ limit := by simpa using hlimit
    cases value with
    | nan => simp
    | inf negative =>
      cases negative with
      | false => simp [Double.div, Double.le, hlimit0.not_gt] at h
      | true => rfl
    | fin value =>
      by_contra hexceeds
      rw [Bool.not_eq_false] at hexceeds
      have hlt : limit < value := of_decide_eq_true hexceeds
      obtain rfl | hpos := hlimit0.eq_or_lt
      · simp [Double.div, Double.le, hlt.ne', hlt.not_gt] at h
      · -- a quotient of at least one does not round below one
        have hone : (Double.fin 1).le ((Double.fin value).div (.fin limit)) = true := by
          rw [Double.div_fin _ hpos.ne', ← Double.ofRat_one]
          exact Double.ofRat_le_ofRat zero_le_one ((one_le_div hpos).mpr hlt.le)
        have hle := Double.le_of_le_of_le hone h
        exact absurd (of_decide_eq_true hle) (not_le.mpr nearest_four_fifths_lt)

/-- After one round, the next one leaves no fault and a steady motion. -/
theorem fresh_deliver (hconfig : Checked setup.config) (hstored : monitor.Stored previous)
    (h : monitor.Behind round) (hsteps : WithinLimits setup previous round) :
    (setup.deliver monitor round).Fresh round.now ∧
      (setup.deliver monitor round).motionSampleValid = true ∧
      (setup.deliver monitor round).Steady setup.config := by
  obtain ⟨pose, hpose⟩ := Option.isSome_iff_exists.mp round.poseFinite
  have hmotion : motionFault setup.config
      (norm3 setup.math round.odometryPose.position previous.odometryPose.position)
      (yawDifference setup.math round.odometryPose previous.odometryPose)
      (previous.odometrySample.linearVelocity setup.math round.odometryPose round.odometry.stamp)
      (previous.odometrySample.angularVelocity setup.math round.odometryPose round.odometry.stamp) =
        none :=
    (motionFault_eq_none_iff ..).mpr
      ⟨not_exceeds_of_ratio (lt_zero_of_le_zero hconfig.linearVelocity) hsteps.linear,
        not_exceeds_of_ratio (radians_lt_zero hconfig.angularVelocity) hsteps.angular⟩
  have hcorrection : correctionFault setup.config
      (norm3 setup.math round.correctionPose.position previous.correctionPose.position)
      (yawDifference setup.math round.correctionPose previous.correctionPose) = none :=
    (correctionFault_eq_none_iff ..).mpr ⟨Double.gt_eq_false_of_le hsteps.correction.1,
      Double.gt_eq_false_of_le hsteps.correction.2⟩
  unfold Setup.deliver
  rw [observeOdometry_newer round.odometryFinite hstored.haveOdometry
      (h.odometry hstored.haveOdometry), observePose_finite hpose,
    observeCorrection_newer round.correctionFinite (by exact hstored.haveCorrection)
      (by exact h.correction hstored.haveCorrection)]
  simp only [hstored.odometryPose, hstored.odometryStamp, hstored.correctionPose]
  refine ⟨⟨rfl, rfl, rfl, rfl, rfl, rfl, ?_, rfl, ?_⟩, rfl, hsteps.linear, hsteps.angular⟩
  · exact congrArg Option.isSome hmotion
  · exact congrArg Option.isSome hcorrection

end Deliver

/-! ## The frames of the rounds -/

/-- Every limit that a round is scored with is a number, and the weights it is scored with have a
finite sum. -/
structure ScoresAreNumbers (config : Config) : Prop where
  poseTimeout : config.poseTimeoutSec ≠ .nan
  weights : (config.updateWeight.add config.motionWeight).isFinite = true
  registration : config.registrationTimeoutSec ≠ .nan →
    ((config.updateWeight.add config.motionWeight).add config.registrationWeight).isFinite = true ∧
    config.minRegistrationFitness ≠ .nan ∧ config.maxRegistrationResidualM ≠ .nan

/-- The configurations under which rounds give good frames. When the registration is never scored
and alone has a weight, the confidence stays at zero. -/
def Recovers (config : Config) : Prop :=
  if config.registrationTimeoutSec = .nan ∧
      (Double.fin 0).lt (config.updateWeight.add config.motionWeight) = false then
    config.localizedThreshold.le (.fin 0) = true
  else config.localizedThreshold ≠ .nan ∧ ScoresAreNumbers config

section Frame

variable {config : Config} {monitor : Monitor} {now : Time}

theorem metrics_of_round (hconfig : Checked config) (hfresh : monitor.Fresh now)
    (hmatched : monitor.Matched now) (hvalid : monitor.motionSampleValid = true)
    (hsteady : monitor.Steady config) :
    monitor.metrics config now =
      [(config.updateWeight, freshnessScore (.fin 0) config.poseTimeoutSec),
        (config.motionWeight, .fin 1)] ++
      (if config.registrationTimeoutSec ≠ .nan then
        [(config.registrationWeight, monitor.registrationScore config)] else []) := by
  rw [metrics_of_sound (hfresh.sound hconfig), hfresh.updateAge, hmatched.scored hconfig]
  simp [Monitor.steadyMetrics, hvalid, motionScore_of_steady hsteady]

/-- An average of full scores and NaNs reaches the threshold exactly when no number is missing and
the sum of the weights has not overflowed. -/
theorem reaches_iff {metrics : List (Double × Double)} (hconfig : Checked config)
    (hmetrics : ∀ metric ∈ metrics, AcceptedWeight metric.1 ∧ UnitScore metric.2)
    (hpositive : (Double.fin 0).lt (availableWeight metrics) = true)
    (hscores : ∀ metric ∈ metrics, metric.2 = .nan ∨ metric.2 = .fin 1) :
    config.localizedThreshold.le (averageScore metrics) = true ↔
      config.localizedThreshold ≠ .nan ∧ (availableWeight metrics).isFinite = true ∧
        ∀ metric ∈ metrics, metric.2 = .fin 1 := by
  have hvalue (metric : Double × Double) (hmetric : metric ∈ metrics) : metric.1.IsValue :=
    (hmetrics metric hmetric).1.1
  constructor
  · intro hle
    have hnumber := Double.ne_nan_of_le hle
    have hfull : ∀ metric ∈ metrics, metric.2 = .fin 1 := by
      intro metric hmetric
      obtain ⟨-, hscore⟩ :=
        isFinite_of_averageScore (totals metrics hmetrics) hpositive hnumber hmetric
      refine (hscores metric hmetric).resolve_left fun hnan ↦ ?_
      rw [hnan] at hscore
      cases hscore
    refine ⟨fun hnan ↦ ?_, isFinite_availableWeight_of_full
      (fun metric hmetric ↦ ⟨hvalue metric hmetric, hfull metric hmetric⟩) hpositive hnumber, hfull⟩
    rw [hnan] at hle
    cases hle
  · rintro ⟨hthreshold, hfinite, hfull⟩
    rw [averageScore_of_full (fun metric hmetric ↦ ⟨hvalue metric hmetric, hfull metric hmetric⟩)
      hpositive hfinite]
    exact Double.ge_of_not_lt hthreshold hconfig.localizedAtMostOne

theorem freshnessScore_zero_iff {timeout : Double} (h : timeout.le (.fin 0) = false) :
    (freshnessScore (.fin 0) timeout = .nan ∨ freshnessScore (.fin 0) timeout = .fin 1) ∧
      (freshnessScore (.fin 0) timeout = .fin 1 ↔ timeout ≠ .nan) := by
  by_cases hnan : timeout = .nan
  · rw [hnan, freshnessScore_nan le_rfl]
    simp
  · rw [freshnessScore_zero h hnan]
    simp [hnan]

theorem registrationScore_perfect_iff (hconfig : Checked config)
    (h : Perfect monitor.registration) :
    (monitor.registrationScore config = .nan ∨ monitor.registrationScore config = .fin 1) ∧
      (monitor.registrationScore config = .fin 1 ↔
        config.minRegistrationFitness ≠ .nan ∧ config.maxRegistrationResidualM ≠ .nan) := by
  by_cases hnan : config.minRegistrationFitness = .nan ∨ config.maxRegistrationResidualM = .nan
  · rw [registrationScore_nan h.accepted hnan]
    refine ⟨Or.inl rfl, nofun, fun hnumbers ↦ ?_⟩
    exact absurd hnan (not_or.mpr hnumbers)
  · have hnumbers := not_or.mp hnan
    rw [registrationScore_of_perfect hconfig h hnumbers.1 hnumbers.2]
    exact ⟨Or.inr rfl, fun _ ↦ hnumbers, fun _ ↦ rfl⟩

/-- With everything as good as it can be, the frame is good exactly for these configurations. -/
theorem good_iff_recovers (hconfig : Checked config)
    (hweights : (Double.fin 0).lt ((config.updateWeight.add config.motionWeight).add
      config.registrationWeight) = true)
    (hfresh : monitor.Fresh now) (hmatched : monitor.Matched now)
    (hvalid : monitor.motionSampleValid = true) (hsteady : monitor.Steady config) :
    (monitor.assess config now fullContext).frame config = .good ↔ Recovers config := by
  have hnotCritical : (monitor.assess config now fullContext).critical = false :=
    (assess_critical ..).mpr ⟨(fault_eq_none_iff ..).mpr (hfresh.sound hconfig),
      hmatched.registrationFault hconfig⟩
  have hbounds (metric : Double × Double) (h : metric ∈ monitor.metrics config now) :=
    metrics_bounds hconfig monitor now h
  have hupdateValue := hconfig.values config.updateWeight (by simp [Config.numbers])
  have hmetrics := metrics_of_round hconfig hfresh hmatched hvalid hsteady
  obtain ⟨hfreshness, hfreshnessFull⟩ := freshnessScore_zero_iff hconfig.poseTimeout
  rw [Assessment.frame_eq_good, assess_confidence hconfig, hnotCritical, if_neg Bool.false_ne_true]
  simp only [true_and]
  by_cases htimeout : config.registrationTimeoutSec = .nan
  · -- the registration is not scored
    rw [hmetrics, if_neg (not_not_intro htimeout), List.append_nil] at hbounds ⊢
    have havailable : availableWeight [(config.updateWeight,
        freshnessScore (.fin 0) config.poseTimeoutSec), (config.motionWeight, Double.fin 1)] =
          config.updateWeight.add config.motionWeight := by
      simp [availableWeight, Double.fin_zero_add hupdateValue]
    by_cases hpositive :
        (Double.fin 0).lt (config.updateWeight.add config.motionWeight) = true
    · rw [reaches_iff hconfig hbounds (havailable ▸ hpositive) (by simp [hfreshness]), havailable,
        Recovers, if_neg (by simp [hpositive])]
      refine and_congr_right fun _ ↦ Iff.intro ?_ fun hnumbers ↦ ?_
      · rintro ⟨hfinite, hfull⟩
        exact ⟨hfreshnessFull.mp (hfull _ List.mem_cons_self), hfinite,
          fun hnot ↦ absurd htimeout hnot⟩
      · exact ⟨hnumbers.weights, by simp [hfreshnessFull.mpr hnumbers.poseTimeout]⟩
    · rw [averageScore, havailable, if_neg hpositive, Recovers,
        if_pos ⟨htimeout, Bool.eq_false_of_not_eq_true hpositive⟩]
  · rw [hmetrics, if_pos htimeout] at hbounds ⊢
    obtain ⟨hscore, hscoreFull⟩ := registrationScore_perfect_iff hconfig hmatched.perfect
    have havailable : availableWeight ([(config.updateWeight,
        freshnessScore (.fin 0) config.poseTimeoutSec), (config.motionWeight, Double.fin 1)] ++
          [(config.registrationWeight, monitor.registrationScore config)]) =
            (config.updateWeight.add config.motionWeight).add config.registrationWeight := by
      simp [availableWeight, Double.fin_zero_add hupdateValue]
    rw [reaches_iff hconfig hbounds (havailable ▸ hweights) (by simp [hfreshness, hscore]),
      havailable, Recovers, if_neg (by simp [htimeout])]
    refine and_congr_right fun _ ↦ Iff.intro ?_ fun hnumbers ↦ ?_
    · rintro ⟨hfinite, hfull⟩
      obtain ⟨sum, hsum⟩ := Double.exists_of_isFinite hfinite
      obtain ⟨before, -, hbeforeSum, -, -⟩ := Double.exists_of_add_eq_fin hsum
      refine ⟨hfreshnessFull.mp (hfull _ (List.mem_append_left _ List.mem_cons_self)), ?_,
        fun _ ↦ ⟨hfinite, hscoreFull.mp
          (hfull (config.registrationWeight, monitor.registrationScore config) (by simp))⟩⟩
      rw [hbeforeSum]
      rfl
    · obtain ⟨hfinite, hlimits⟩ := hnumbers.registration htimeout
      exact ⟨hfinite, by simp [hfreshnessFull.mpr hnumbers.poseTimeout, hscoreFull.mpr hlimits]⟩

end Frame

/-! ## Runs of rounds -/

theorem Monitor.Stored.evaluate {monitor : Monitor} {round : Round} (h : monitor.Stored round)
    (config : Config) (mapFrame : String) (now : Time) (context : Context) :
    (monitor.evaluate config mapFrame now context).1.Stored round := by
  obtain ⟨hysteresis, status, hevaluated⟩ := evaluate_frame config mapFrame monitor now context
  rw [hevaluated]
  exact ⟨h.haveOdometry, h.odometryPose, h.odometryStamp, h.haveCorrection, h.correctionPose,
    h.correctionStamp⟩

/-- After a tail the monitor holds the samples of its last round. -/
theorem stored_rounds {setup : Setup} {events tail : List Event} {last : Option Round} {count : ℕ}
    (h : Rounds setup events tail last count) :
    ∀ round ∈ last, (setup.run (events ++ tail)).Stored round := by
  cases h with
  | none =>
    intro round hround
    exact absurd hround (Option.not_mem_none round)
  | next before round delivered stamps steps =>
    intro current hcurrent
    rw [← Option.mem_some_iff.mp hcurrent, ← List.append_assoc, ← List.append_assoc,
      Setup.run_concat, Setup.apply, run_deliveries setup _ _ delivered]
    exact (stored_deliver (behind_of_stampsAdvance setup stamps)).evaluate ..

/-- Observations classify no frame. -/
theorem sessionFrames_append_observed (setup : Setup) (events : List Event) {observed : List Event}
    (h : ∀ event ∈ observed, event.receipt ≠ none) :
    setup.sessionFrames (events ++ observed) = setup.sessionFrames events := by
  induction observed using List.reverseRecOn with
  | nil => rw [List.append_nil]
  | append_singleton observed event ih =>
    have hlast := h event (by simp)
    have hbefore := ih fun other hother ↦ h other (by simp [hother])
    rw [← List.append_assoc, Setup.sessionFrames_concat, hbefore]
    cases event with
    | odometry message receiptTime => rfl
    | pose message receiptTime => rfl
    | correction message receiptTime => rfl
    | registration message receiptTime => rfl
    | reset => exact absurd rfl hlast
    | evaluate now context => exact absurd rfl hlast

theorem received_of_delivered {round : Round} {deliveries : List Event}
    (h : deliveries.Perm round.deliveries) : ∀ event ∈ deliveries, event.receipt ≠ none := by
  intro event hevent
  have hmember := h.mem_iff.mp hevent
  simp only [Round.deliveries, List.mem_cons, List.not_mem_nil, or_false] at hmember
  obtain rfl | rfl | rfl | rfl := hmember <;> exact Option.some_ne_none _

section Runs

variable {setup : Setup} (hconfig : Checked setup.config)
  (hweights : (Double.fin 0).lt ((setup.config.updateWeight.add setup.config.motionWeight).add
    setup.config.registrationWeight) = true)

include hconfig hweights

/-- A round after another one gives a good frame exactly for the configurations that recover. -/
theorem frameAt_round {events tail deliveries : List Event} {previous round : Round} {count : ℕ}
    (before : Rounds setup events tail (some previous) count)
    (delivered : deliveries.Perm round.deliveries) (stamps : StampsAdvance (events ++ tail) round)
    (steps : WithinLimits setup previous round) :
    setup.frameAt (events ++ tail ++ deliveries) round.now fullContext = .good ↔
      Recovers setup.config := by
  rw [Setup.frameAt, run_deliveries setup _ _ delivered]
  obtain ⟨hfresh, hvalid, hsteady⟩ := fresh_deliver hconfig (stored_rounds before previous rfl)
    (behind_of_stampsAdvance setup stamps) steps
  exact good_iff_recovers hconfig hweights hfresh matched_deliver hvalid hsteady

/-- All rounds but the first give frames of one kind. -/
theorem trailing_rounds {p : Frame → Bool}
    (hp : ∀ frame, (frame = .good ↔ Recovers setup.config) → p frame = true)
    {events tail : List Event} {last : Option Round} {count : ℕ}
    (h : Rounds setup events tail last count) :
    count - 1 ≤ trailing p (setup.sessionFrames (events ++ tail)) := by
  induction h with
  | none => exact Nat.zero_le _
  | @next tail deliveries last count before round delivered stamps steps ih =>
    cases last with
    | none =>
      cases before
      exact Nat.zero_le _
    | some previous =>
      have hframe := frameAt_round hconfig hweights before delivered stamps (steps previous rfl)
      have hframes := sessionFrames_append_observed setup (events ++ tail)
        (received_of_delivered delivered)
      have hnext : setup.sessionFrames (events ++ (tail ++ (deliveries ++
          [.evaluate round.now fullContext]))) = setup.sessionFrames (events ++ tail) ++
            [setup.frameAt (events ++ tail ++ deliveries) round.now fullContext] := by
        rw [← List.append_assoc, ← List.append_assoc, Setup.sessionFrames_concat, hframes]
        rfl
      rw [hnext, trailing_concat, if_pos (hp _ hframe)]
      omega

/-- Where the rounds give good frames, enough of them lead to LOCALIZED with a valid pose. -/
theorem localized_of_rounds (hcounts : FrameCountsValid setup.config)
    (hrecovers : Recovers setup.config) {events tail : List Event} {last : Option Round} {count : ℕ}
    (h : Rounds setup events tail last count)
    (hcount : setup.config.goodFramesToRecover + 1 ≤ count) :
    (setup.run (events ++ tail)).hysteresis.state = .localized ∧
      (setup.run (events ++ tail)).status.poseValid = true := by
  have hrecover := hcounts.recover_pos
  have htrailing := trailing_rounds (p := Frame.isGood) hconfig hweights
    (fun frame hframe ↦ decide_eq_true (hframe.mpr hrecovers)) h
  have hlocalized : (setup.run (events ++ tail)).hysteresis.state = .localized :=
    localized_of_trailing hcounts (le_trans (by omega) htrailing)
  refine ⟨hlocalized, ?_⟩
  cases h with
  | none => omega
  | @next tail deliveries last count before round delivered stamps steps =>
    cases last with
    | none =>
      cases before
      omega
    | some previous =>
      have hgood := (frameAt_round hconfig hweights before delivered stamps
        (steps previous rfl)).mpr hrecovers
      rw [← List.append_assoc, ← List.append_assoc] at hlocalized ⊢
      exact poseValid_of_good hgood hlocalized

end Runs

/-! ## Rounds at rest -/

def stillRound (n : ℕ) : Round where
  now := 0
  odometry := restPose (n + 1)
  pose := restPose (n + 1)
  correction := restPose (n + 1)
  report := perfectReport
  odometryPose := .identity
  correctionPose := .identity
  odometryFinite := finitePose_restPose _
  poseFinite := by rw [finitePose_restPose]; rfl
  correctionFinite := finitePose_restPose _
  wellFormed := by decide
  perfect := ⟨rfl, rfl, rfl, rfl⟩

def stillTail : ℕ → List Event
  | 0 => []
  | n + 1 => stillTail n ++ ((stillRound n).deliveries ++ [.evaluate 0 fullContext])

theorem stamp_of_stillTail {n : ℕ} {message : StampedPose} {receipt : Time}
    (h : .odometry message receipt ∈ stillTail n ∨ .correction message receipt ∈ stillTail n) :
    message.stamp < n + 1 := by
  induction n with
  | zero => simp [stillTail] at h
  | succ n ih =>
    simp only [stillTail, Round.deliveries, stillRound, List.mem_append, List.mem_cons,
      List.not_mem_nil, or_false, Event.odometry.injEq, Event.correction.injEq, reduceCtorEq,
      false_or] at h
    obtain (hbefore | ⟨rfl, -⟩) | hbefore | ⟨rfl, -⟩ := h
    · exact (ih (Or.inl hbefore)).trans (Nat.lt_succ_self _)
    · exact Nat.lt_succ_self _
    · exact (ih (Or.inr hbefore)).trans (Nat.lt_succ_self _)
    · exact Nat.lt_succ_self _

/-- The limits between two rounds are numbers, and the angular one does not vanish in radians. -/
structure LimitsAreNumbers (config : Config) : Prop where
  linear : config.maxLinearVelocityMps ≠ .nan
  angular : (Double.fin 0).lt (radians config.maxAngularVelocityDps) = true
  position : config.maxCorrectionPositionJumpM ≠ .nan
  yaw : config.maxCorrectionYawJumpDeg ≠ .nan

/-- No ratio to a limit of zero is small. -/
theorem pos_of_ratio {limit value : Double} (hlimit : limit.lt (.fin 0) = false)
    (hvalue : value ≠ .nan → value.NotNegative)
    (h : (value.div limit).le (.ofRat (8 / 10)) = true) : (Double.fin 0).lt limit = true := by
  have hnumber : value ≠ .nan := by
    rintro rfl
    cases h
  rw [ofRat_fourFifths] at h
  cases limit with
  | nan => simp at h
  | inf negative =>
    cases negative with
    | false => rfl
    | true => cases hlimit
  | fin limit =>
    by_contra hzero
    obtain rfl : limit = 0 := by
      have hle : limit ≤ 0 := by simpa using hzero
      have hge : 0 ≤ limit := by simpa using hlimit
      exact le_antisymm hle hge
    obtain rfl | ⟨q, rfl, hq⟩ := (hvalue hnumber).cases
    · simp [Double.div, Double.le] at h
    · by_cases hq0 : q = 0
      · simp [Double.div, hq0] at h
      · simp [Double.div, hq0, hq.not_gt, Double.le] at h

/-- Against a NaN no step is within the limits, nor against a limit that vanishes. -/
theorem limitsAreNumbers_of_within {setup : Setup} (hconfig : Checked setup.config)
    {previous round : Round} (hstamps : previous.odometry.stamp < round.odometry.stamp)
    (h : WithinLimits setup previous round) : LimitsAreNumbers setup.config := by
  refine ⟨fun hnan ↦ ?_, ?_, Double.ne_nan_of_le h.correction.1,
    (radians_ne_nan_iff _).mp (Double.ne_nan_of_le h.correction.2)⟩
  · have hlinear := h.linear
    rw [hnan, Double.div_nan_right] at hlinear
    cases hlinear
  · refine pos_of_ratio (radians_lt_zero hconfig.angularVelocity) (fun hnumber ↦ ?_) h.angular
    have hyaw : yawDifference setup.math round.odometryPose previous.odometryPose ≠ .nan := by
      intro hnan
      apply hnumber
      change (yawDifference setup.math round.odometryPose previous.odometryPose).div _ = _
      rw [hnan]
      rfl
    exact (Double.notNegative_abs hyaw).div (ageSeconds_pos hstamps)

section Still

variable {setup : Setup} (hconfig : Checked setup.config) (hmath : ExactAtRest setup.math)
  (hlimits : LimitsAreNumbers setup.config)

include hconfig hmath hlimits

theorem within_stillRound {previous n : ℕ} (h : previous < n) :
    WithinLimits setup (stillRound previous) (stillRound n) := by
  have hdelta : 0 < ageSeconds (n + 1) (previous + 1) := ageSeconds_pos (Nat.succ_lt_succ h)
  have hjump : norm3 setup.math Pose.identity.position Pose.identity.position = .fin 0 :=
    norm3_self hmath _
  have hyaw : yawDifference setup.math .identity .identity = .fin 0 :=
    yawDifference_self hmath yawDefined_identity
  have hrest : (Double.fin 0).div (.fin (ageSeconds (n + 1) (previous + 1))) = .fin 0 := by
    rw [Double.div_fin _ hdelta.ne', zero_div, Double.ofRat_zero]
  have hlinear : (stillRound previous).odometrySample.linearVelocity setup.math
      (stillRound n).odometryPose (stillRound n).odometry.stamp = .fin 0 := by
    simp [Sample.linearVelocity, Round.odometrySample, stillRound, hjump, hrest]
  have hangular : (stillRound previous).odometrySample.angularVelocity setup.math
      (stillRound n).odometryPose (stillRound n).odometry.stamp = .fin 0 := by
    simp [Sample.angularVelocity, Round.odometrySample, stillRound, hyaw, hrest]
  refine ⟨?_, ?_, ?_, ?_⟩
  · rw [hlinear, zero_div_limit hconfig.linearVelocity hlimits.linear]
    exact zero_le_fourFifths
  · rw [hangular, zero_div_limit (Double.le_eq_false_of_lt hlimits.angular)
      (Double.ne_nan_of_lt hlimits.angular)]
    exact zero_le_fourFifths
  · exact hjump ▸ Double.le_of_not_gt hlimits.position
      (lt_zero_of_le_zero hconfig.positionCorrection)
  · exact hyaw ▸ Double.le_of_not_gt ((radians_ne_nan_iff _).mpr hlimits.yaw)
      (radians_lt_zero hconfig.yawCorrection)

/-- Any number of rounds at rest. -/
theorem rounds_stillTail (n : ℕ) :
    ∃ last, Rounds setup [] (stillTail n) last n ∧
      ∀ round ∈ last, ∃ k < n, round = stillRound k := by
  induction n with
  | zero => exact ⟨none, .none, fun round hround ↦ absurd hround (Option.not_mem_none round)⟩
  | succ n ih =>
    obtain ⟨last, hrounds, hlast⟩ := ih
    refine ⟨some (stillRound n), .next hrounds (stillRound n) (List.Perm.refl _) ?_ ?_, ?_⟩
    · exact ⟨fun _ _ hevent ↦ stamp_of_stillTail (Or.inl hevent),
        fun _ _ hevent ↦ stamp_of_stillTail (Or.inr hevent)⟩
    · intro previous hprevious
      obtain ⟨k, hk, rfl⟩ := hlast previous hprevious
      exact within_stillRound hconfig hmath hlimits hk
    · intro round hround
      exact ⟨n, Nat.lt_succ_self n, (Option.mem_some_iff.mp hround).symm⟩

end Still

/-! ## The verdict -/

/-- After any history, one round more than it takes good frames to recover leads to LOCALIZED with a
valid pose, and so does every longer tail of rounds. -/
def Recoverable (setup : Setup) : Prop :=
  ∀ events tail last count, Rounds setup events tail last count →
    setup.config.goodFramesToRecover + 1 ≤ count →
      (setup.run (events ++ tail)).hysteresis.state = .localized ∧
        (setup.run (events ++ tail)).status.poseValid = true

/-- Two rounds show that the limits are numbers. -/
theorem limitsAreNumbers_of_rounds {setup : Setup} (hconfig : Checked setup.config)
    {events tail : List Event} {last : Option Round} {count : ℕ}
    (h : Rounds setup events tail last count) (hcount : 2 ≤ count) :
    LimitsAreNumbers setup.config := by
  cases h with
  | none => omega
  | @next tail deliveries last count before round delivered stamps steps =>
    cases last with
    | none =>
      cases before
      omega
    | some previous =>
      have hstored := stored_rounds before previous rfl
      have hstamps :=
        (behind_of_stampsAdvance setup stamps).odometry hstored.haveOdometry
      rw [hstored.odometryStamp] at hstamps
      exact limitsAreNumbers_of_within hconfig hstamps (steps previous rfl)

/-- A run of bad frames at the end of the session does not leave LOCALIZED standing. -/
theorem not_localized_of_trailing {setup : Setup} (hcounts : FrameCountsValid setup.config)
    {events : List Event}
    (h : setup.config.badFramesToDegraded ≤ trailing Frame.isBad (setup.sessionFrames events)) :
    (setup.run events).hysteresis.state ≠ .localized := by
  have hverdict := verdict_run hcounts (setup.sessionFrames events)
  rw [← hysteresis_eq_run_sessionFrames] at hverdict
  intro hlocalized
  have hshort := (hverdict.localized.mp hlocalized).2.trailing_lt Frame.isBad_eq_false_of_isGood
    hcounts.recover_pos hcounts.degraded_pos
  omega

/-- Exactly the configurations that give good frames to rounds are recoverable, beside those whose
limits admit no two rounds. -/
theorem recoverable_iff (setup : Setup) {document : Option QualityDocument}
    (hconfig : loadConfig document = .ok setup.config)
    (hweights : (Double.fin 0).lt ((setup.config.updateWeight.add setup.config.motionWeight).add
      setup.config.registrationWeight) = true)
    (hmath : ExactAtRest setup.math) :
    Recoverable setup ↔ Recovers setup.config ∨ ¬LimitsAreNumbers setup.config := by
  have hchecked := checked_of_loadConfig hconfig
  have hcounts := frameCountsValid_of_loadConfig hconfig
  constructor
  · intro hrecoverable
    by_contra hnot
    obtain ⟨hnotRecovers, hlimits⟩ := not_or.mp hnot
    rw [not_not] at hlimits
    -- rounds at rest give bad frames only, and enough of them keep LOCALIZED away
    obtain ⟨last, hrounds, -⟩ := rounds_stillTail hchecked hmath hlimits
      (max setup.config.goodFramesToRecover setup.config.badFramesToDegraded + 1)
    have htrailing := trailing_rounds (p := Frame.isBad) hchecked hweights
      (fun frame hframe ↦ decide_eq_true fun hgood ↦ hnotRecovers (hframe.mp hgood)) hrounds
    have hlocalized := hrecoverable _ _ _ _ hrounds (Nat.succ_le_succ (le_max_left _ _))
    exact not_localized_of_trailing hcounts (le_trans (le_max_right _ _) htrailing) hlocalized.1
  · rintro (hrecovers | hnan) events tail last count hrounds hcount
    · exact localized_of_rounds hchecked hweights hcounts hrecovers hrounds hcount
    · have hrecover := hcounts.recover_pos
      exact absurd (limitsAreNumbers_of_rounds hchecked hrounds (by omega)) hnan

end Doubles

/-- Finite weights with a sum out of range. -/
example : ¬ScoresAreNumbers { updateWeight := .fin (2 ^ 1023), motionWeight := .fin (2 ^ 1023) } :=
  fun h ↦ absurd h.weights (by decide +kernel)

theorem recoverable_restSetup : Recoverable restSetup := by
  refine (recoverable_iff restSetup loadConfig_localizationQualityYaml (by decide +kernel)
    exactAtRest_restSetup).mpr (Or.inl ?_)
  rw [Recovers, if_neg (by decide +kernel)]
  exact ⟨by decide +kernel, by decide +kernel, by decide +kernel,
    fun _ ↦ ⟨by decide +kernel, by decide +kernel, by decide +kernel⟩⟩

/-- The shipped configuration with a NaN as the timeout of the pose, which `loadConfig` accepts. -/
def timelessSetup : Setup := { restSetup with config := { poseTimeoutSec := .nan } }

theorem not_recoverable_timeless :
    loadConfig (some (localizationQualityYaml [("pose_timeout_sec", .real .nan)])) =
        .ok timelessSetup.config ∧
      (∃ last, Rounds timelessSetup [] (stillTail 11) last 11) ∧
      (timelessSetup.run ([] ++ stillTail 11)).hysteresis.state ≠ .localized ∧
      ¬Recoverable timelessSetup := by
  have hconfig : loadConfig (some (localizationQualityYaml [("pose_timeout_sec", .real .nan)])) =
      .ok timelessSetup.config := by
    decide +kernel
  have hlimits : LimitsAreNumbers timelessSetup.config :=
    ⟨by decide, by decide +kernel, by decide +kernel, by decide⟩
  obtain ⟨last, hrounds, -⟩ : ∃ last, Rounds timelessSetup [] (stillTail 11) last 11 ∧
      ∀ round ∈ last, ∃ k < 11, round = stillRound k :=
    rounds_stillTail (checked_of_loadConfig hconfig) exactAtRest_restSetup hlimits 11
  have hnever : (timelessSetup.run ([] ++ stillTail 11)).hysteresis.state ≠ .localized := by
    intro hlocalized
    obtain ⟨-, htimeout, -, -⟩ | ⟨hzero, -⟩ := canLocalize_of_localized hconfig hlocalized
    · exact htimeout rfl
    · exact absurd hzero (by decide +kernel)
  exact ⟨hconfig, ⟨last, hrounds⟩, hnever, fun hrecoverable ↦
    hnever (hrecoverable _ _ _ _ hrounds (by decide)).1⟩

end SlamSystemManager.Quality
