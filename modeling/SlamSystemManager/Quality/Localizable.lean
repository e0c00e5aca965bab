import SlamSystemManager.Quality.FullScores

/-!
# Configurations that can localize

The validation asks for a positive sum of four weights, but the overlap is never scored, and a NaN
passes every check. A configuration can localize when some weight that is scored counts and no NaN
spoils the average. With a threshold that zero reaches, a frame without a fault is good also when
nothing counts. The sequence that reaches LOCALIZED makes one metric count at a time, so that no sum
of weights overflows.
-/

open Numeric Numeric.Rounding

namespace SlamSystemManager.Quality

/-! ## The condition -/

/-- A weight that moves an average. -/
def Counts (weight : Double) : Prop :=
  weight.isFinite = true ∧ (Double.fin 0).lt weight = true

/-- One of the three scored metrics counts. -/
def MetricCounts (config : Config) : Prop :=
  Counts config.updateWeight ∨
    (Counts config.motionWeight ∧ config.maxLinearVelocityMps ≠ .nan) ∨
    (Counts config.registrationWeight ∧ config.registrationTimeoutSec ≠ .nan ∧
      config.minRegistrationFitness ≠ .nan ∧ config.maxRegistrationResidualM ≠ .nan)

/-- Zero reaches the threshold, and the weights can leave the confidence at zero without a fault. -/
def ZeroSuffices (config : Config) : Prop :=
  config.localizedThreshold.le (.fin 0) = true ∧
    (config.updateWeight = .fin 0 ∨ config.updateWeight = .nan ∨ config.motionWeight = .nan ∨
      (config.registrationWeight = .nan ∧ config.registrationTimeoutSec ≠ .nan))

def CanLocalize (config : Config) : Prop :=
  (config.localizedThreshold ≠ .nan ∧ config.poseTimeoutSec ≠ .nan ∧
      config.updateWeight.isFinite = true ∧ MetricCounts config) ∨
    ZeroSuffices config

/-! ## A good frame needs it -/

section Necessary

variable [Rounding] {config : Config} {monitor : Monitor} {now : Time}

theorem mem_steadyMetrics {scored : Bool} {metric : Double × Double}
    (h : metric ∈ monitor.steadyMetrics config scored) :
    metric = (config.motionWeight, monitor.motionScore config) ∨
      (scored = true ∧ metric = (config.registrationWeight, monitor.registrationScore config)) := by
  unfold Monitor.steadyMetrics at h
  obtain hmotion | hregistration := List.mem_append.mp h
  · split_ifs at hmotion
    · exact Or.inl (List.mem_singleton.mp hmotion)
    · cases hmotion
  · split_ifs at hregistration with hscored
    · exact Or.inr ⟨hscored, List.mem_singleton.mp hregistration⟩
    · cases hregistration

theorem timeout_of_scored (h : monitor.registrationScored config now = true) :
    config.registrationTimeoutSec ≠ .nan := by
  simp only [Monitor.registrationScored, Bool.and_eq_true] at h
  exact Double.ne_nan_of_le h.2

theorem accepted_of_scored (h : monitor.registrationScored config now = true)
    (hfault : monitor.registrationFault config now = none) :
    monitor.registration.accepted = true := by
  unfold Monitor.registrationFault at hfault
  dsimp only at hfault
  rw [if_pos h] at hfault
  by_contra hrejected
  simp [Bool.eq_false_of_not_eq_true hrejected] at hfault

/-- The average of a frame without a fault, when some available weight is positive. -/
theorem metricCounts_of_number (hconfig : Checked config) {context : Context}
    (hsound : OthersSound config monitor now context)
    (hfault : monitor.registrationFault config now = none)
    (hpositive : (Double.fin 0).lt (availableWeight (monitor.metrics config now)) = true)
    (hnumber : averageScore (monitor.metrics config now) ≠ .nan) :
    config.poseTimeoutSec ≠ .nan ∧ config.updateWeight.isFinite = true ∧ MetricCounts config := by
  have hfinite {metric : Double × Double} (hmetric : metric ∈ monitor.metrics config now) :=
    isFinite_of_averageScore (totals_metrics hconfig monitor now) hpositive hnumber hmetric
  obtain ⟨metric, hmetric, hweight⟩ := exists_positive_weight hpositive
  have hmetricFinite := hfinite hmetric
  rw [metrics_of_sound hsound] at hmetric
  have hupdate := hfinite (by rw [metrics_of_sound hsound]; exact List.mem_cons_self)
  refine ⟨fun hnan ↦ ?_, hupdate.1, ?_⟩
  · -- the freshness against a NaN is a NaN
    have hage := hsound.updateNotNegative
    rw [updateAge_of_have hsound.haveOdometry hsound.havePose] at hage hupdate
    rw [hnan, freshnessScore_nan (not_lt.mp (of_decide_eq_false hage))] at hupdate
    cases hupdate.2
  · obtain rfl | hsteady := List.mem_cons.mp hmetric
    · exact Or.inl ⟨hmetricFinite.1, hweight⟩
    · obtain rfl | ⟨hscored, rfl⟩ := mem_steadyMetrics hsteady
      · refine Or.inr (Or.inl ⟨⟨hmetricFinite.1, hweight⟩, fun hnan ↦ ?_⟩)
        rw [motionScore_nan hnan] at hmetricFinite
        cases hmetricFinite.2
      · have haccepted := accepted_of_scored hscored hfault
        refine Or.inr (Or.inr ⟨⟨hmetricFinite.1, hweight⟩, timeout_of_scored hscored,
          fun hnan ↦ ?_, fun hnan ↦ ?_⟩)
        · rw [registrationScore_nan haccepted (Or.inl hnan)] at hmetricFinite
          cases hmetricFinite.2
        · rw [registrationScore_nan haccepted (Or.inr hnan)] at hmetricFinite
          cases hmetricFinite.2

theorem canLocalize_of_good (hconfig : Checked config) {context : Context}
    (h : (monitor.assess config now context).frame config = .good) : CanLocalize config := by
  obtain ⟨hnotCritical, hthreshold⟩ := (Assessment.frame_eq_good ..).mp h
  obtain ⟨hfault, hregistration⟩ := (assess_critical ..).mp hnotCritical
  have hsound := (fault_eq_none_iff ..).mp hfault
  rw [assess_confidence hconfig, hnotCritical, if_neg Bool.false_ne_true] at hthreshold
  have hnumber := Double.ne_nan_of_le hthreshold
  by_cases hpositive : (Double.fin 0).lt (availableWeight (monitor.metrics config now)) = true
  · have hcounts := metricCounts_of_number hconfig hsound hregistration hpositive hnumber
    refine Or.inl ⟨fun hnan ↦ ?_, hcounts⟩
    rw [hnan] at hthreshold
    cases hthreshold
  · rw [averageScore, if_neg hpositive] at hthreshold
    refine Or.inr ⟨hthreshold, ?_⟩
    have haccepted : ∀ metric ∈ monitor.metrics config now, AcceptedWeight metric.1 :=
      fun metric hmetric ↦ (metrics_bounds hconfig monitor now hmetric).1
    have hweights := weights_of_not_positive haccepted (Bool.eq_false_of_not_eq_true hpositive)
    rw [metrics_of_sound hsound] at hweights
    obtain ⟨metric, hmetric, hnan⟩ | ⟨-, hzeros⟩ := hweights
    · obtain rfl | hsteady := List.mem_cons.mp hmetric
      · exact Or.inr (Or.inl hnan)
      · obtain rfl | ⟨hscored, rfl⟩ := mem_steadyMetrics hsteady
        · exact Or.inr (Or.inr (Or.inl hnan))
        · exact Or.inr (Or.inr (Or.inr ⟨hnan, timeout_of_scored hscored⟩))
    · exact Or.inl (hzeros _ List.mem_cons_self)

end Necessary

/-- LOCALIZED is reached through a good frame. -/
theorem exists_good_of_localized [Rounding] {setup : Setup}
    (hcounts : FrameCountsValid setup.config) {events : List Event}
    (h : (setup.run events).hysteresis.state = .localized) :
    ∃ before now context, setup.frameAt before now context = .good := by
  induction events using List.reverseRecOn with
  | nil => cases h
  | append_singleton events event ih =>
    by_cases hbefore : (setup.run events).hysteresis.state = .localized
    · exact ih hbefore
    · rw [Setup.run_concat] at h
      cases event with
      | odometry message receiptTime =>
        rw [Setup.apply, hysteresis_observeOdometry] at h
        exact absurd h hbefore
      | pose message receiptTime =>
        rw [Setup.apply, hysteresis_observePose] at h
        exact absurd h hbefore
      | correction message receiptTime =>
        rw [Setup.apply, hysteresis_observeCorrection] at h
        exact absurd h hbefore
      | registration message receiptTime => exact absurd h hbefore
      | reset => cases h
      | evaluate now context =>
        rw [Setup.apply, hysteresis_evaluate] at h
        split_ifs at h
        · exact ⟨events, now, context, good_of_localized hcounts hbefore h⟩

theorem canLocalize_of_localized [Rounding] {setup : Setup} {document : Option QualityDocument}
    (hconfig : loadConfig document = .ok setup.config) {events : List Event}
    (h : (setup.run events).hysteresis.state = .localized) : CanLocalize setup.config := by
  obtain ⟨before, now, context, hgood⟩ :=
    exists_good_of_localized (frameCountsValid_of_loadConfig hconfig) h
  exact canLocalize_of_good (checked_of_loadConfig hconfig) hgood

/-! ## A sequence that reaches LOCALIZED -/

/-- What the library functions give at rest. -/
structure ExactAtRest (math : Cmath) : Prop where
  sqrt : math.sqrt 0 = 0
  sin : math.sin 0 = 0
  cos : math.cos 0 = 1
  atan2 : math.atan2 0 1 = 0

theorem norm3_self [Rounding] {math : Cmath} (h : ExactAtRest math) (point : Point ℚ) :
    norm3 math point point = .fin 0 := by
  simp [norm3, Cmath.sqrtOf, h.sqrt]

theorem yawDifference_self [Rounding] {math : Cmath} (h : ExactAtRest math) {pose : Pose ℚ}
    (hyaw : YawDefined pose.orientation) : yawDifference math pose pose = .fin 0 := by
  obtain ⟨angle, hangle, -⟩ := isAngle_yawFromQuaternion math hyaw
  simp [yawDifference, wrappedAngleDifference, hangle, Cmath.sinOf, Cmath.cosOf, Cmath.atan2Of,
    Double.abs, h.sin, h.cos, h.atan2]

/-- A pose at the origin. -/
def restPose (stamp : Time) : StampedPose := { originPose with stamp := stamp }

@[simp] theorem stamp_restPose (stamp : Time) : (restPose stamp).stamp = stamp := rfl

theorem yawDefined_identity [Rounding] : YawDefined Pose.identity.orientation := by
  simp [YawDefined, Pose.identity]

@[simp] theorem finitePose_restPose [Rounding] (stamp : Time) :
    finitePose (restPose stamp).pose = some .identity := by
  have hunit : (Double.ofRat (1 / 10 ^ 12)).lt (.fin 1) = true := by
    have hle : (1 / 10 ^ 12 : ℚ) ≤ 8 / 10 := by norm_num
    obtain ⟨hround, -, -⟩ := Double.ofRat_of_mem representable_one
      (by norm_num : (0 : ℚ) ≤ 1 / 10 ^ 12) (by norm_num)
    rw [hround]
    exact decide_eq_true ((nearest_mono hle).trans_lt nearest_four_fifths_lt)
  have hnorm : (⟨0, 0, 0, 1⟩ : Quaternion ℚ).squaredNorm = .fin 1 := by
    simp [Quaternion.squaredNorm]
  exact if_pos (by rw [hnorm]; exact hunit)

def perfectReport : RegistrationQuality :=
  { valid := true
    accepted := true
    fitness := .fin 1
    meanResidual := .fin 0
    correspondenceCount := 1
    sourcePointCount := 1 }

/-- One sample of every stream; a second odometry sample and a report where asked for. -/
def restSamples (moved registered : Bool) : List Event :=
  [.odometry (restPose 1) 0, .pose (restPose 1) 0, .correction (restPose 1) 0] ++
    (if moved then [.odometry (restPose 2) 0] else []) ++
    (if registered then [.registration perfectReport 0] else [])

theorem run_restSamples [Rounding] {setup : Setup} (hconfig : Checked setup.config)
    (hmath : ExactAtRest setup.math) (moved registered : Bool) :
    setup.run (restSamples moved registered) =
      { ({} : Monitor) with
        haveOdometry := true
        havePose := true
        haveCorrection := true
        haveRegistration := registered
        lastOdometryStamp := if moved then 2 else 1
        lastCorrectionStamp := 1
        motionSampleValid := moved
        registration := if registered then perfectReport else {} } := by
  have hfault : motionFault setup.config (.fin 0) (.fin 0) (.fin 0) (.fin 0) = none :=
    (motionFault_eq_none_iff ..).mpr ⟨lt_zero_of_le_zero hconfig.linearVelocity,
      radians_lt_zero hconfig.angularVelocity⟩
  have hdelta : 0 < ageSeconds 2 1 := ageSeconds_pos (by decide)
  have hrest : (Double.fin 0).div (.fin (ageSeconds 2 1)) = .fin 0 := by
    rw [Double.div_fin _ hdelta.ne', zero_div, Double.ofRat_zero]
  have hreport : RegistrationQuality.malformed perfectReport = false := by decide
  cases moved <;> cases registered <;>
    simp [restSamples, Setup.run, Setup.apply, Monitor.observeOdometry, Monitor.observePose,
      Monitor.observeCorrection, Monitor.observeRegistration, Monitor.measureMotion,
      norm3_self hmath, yawDifference_self hmath yawDefined_identity, hfault, hdelta, hrest,
      hreport]

section Sufficient

variable [Rounding] {setup : Setup} (hconfig : Checked setup.config)
  (hmath : ExactAtRest setup.math)

include hconfig hmath

theorem fresh_restSamples (moved registered : Bool) :
    (setup.run (restSamples moved registered)).Fresh 0 := by
  rw [run_restSamples hconfig hmath]
  constructor <;> rfl

theorem registrationFault_restSamples (moved registered : Bool) :
    (setup.run (restSamples moved registered)).registrationFault setup.config 0 = none := by
  cases registered with
  | false =>
    apply registrationFault_of_have
    rw [run_restSamples hconfig hmath]
  | true =>
    apply Monitor.Matched.registrationFault hconfig
    rw [run_restSamples hconfig hmath]
    exact ⟨rfl, ⟨rfl, rfl, rfl, rfl⟩, rfl⟩

/-- The evaluation of the samples finds no fault, so its frame depends on the average alone. -/
theorem frameAt_restSamples (moved registered : Bool)
    (h : setup.config.localizedThreshold.le (averageScore
      ((setup.run (restSamples moved registered)).metrics setup.config 0)) = true) :
    setup.frameAt (restSamples moved registered) 0 fullContext = .good := by
  have hsound := (fresh_restSamples hconfig hmath moved registered).sound hconfig
  have hnotCritical : ((setup.run (restSamples moved registered)).assess setup.config 0
      fullContext).critical = false :=
    (assess_critical ..).mpr ⟨(fault_eq_none_iff ..).mpr hsound,
      registrationFault_restSamples hconfig hmath moved registered⟩
  refine (Assessment.frame_eq_good ..).mpr ⟨hnotCritical, ?_⟩
  rw [assess_confidence hconfig, hnotCritical, if_neg Bool.false_ne_true]
  exact h

theorem metrics_restSamples :
    (setup.run (restSamples false false)).metrics setup.config 0 =
      [(setup.config.updateWeight, freshnessScore (.fin 0) setup.config.poseTimeoutSec)] := by
  have hfresh := fresh_restSamples hconfig hmath false false
  rw [metrics_of_sound (hfresh.sound hconfig), hfresh.updateAge, run_restSamples hconfig hmath]
  simp [Monitor.steadyMetrics, Monitor.registrationScored]

theorem metrics_restSamples_moved :
    (setup.run (restSamples true false)).metrics setup.config 0 =
      [(setup.config.updateWeight, freshnessScore (.fin 0) setup.config.poseTimeoutSec),
        (setup.config.motionWeight, (setup.run (restSamples true false)).motionScore
          setup.config)] := by
  have hfresh := fresh_restSamples hconfig hmath true false
  rw [metrics_of_sound (hfresh.sound hconfig), hfresh.updateAge, run_restSamples hconfig hmath]
  simp [Monitor.steadyMetrics, Monitor.registrationScored]

theorem metrics_restSamples_registered (htimeout : setup.config.registrationTimeoutSec ≠ .nan) :
    (setup.run (restSamples false true)).metrics setup.config 0 =
      [(setup.config.updateWeight, freshnessScore (.fin 0) setup.config.poseTimeoutSec),
        (setup.config.registrationWeight, (setup.run (restSamples false true)).registrationScore
          setup.config)] := by
  have hfresh := fresh_restSamples hconfig hmath false true
  have hmatched : (setup.run (restSamples false true)).Matched 0 := by
    rw [run_restSamples hconfig hmath]
    exact ⟨rfl, ⟨rfl, rfl, rfl, rfl⟩, rfl⟩
  rw [metrics_of_sound (hfresh.sound hconfig), hfresh.updateAge, hmatched.scored hconfig,
    run_restSamples hconfig hmath]
  simp [Monitor.steadyMetrics, htimeout]

/-- Full scores with a positive weight reach every threshold that is a number. -/
theorem good_of_full {moved registered : Bool}
    (hthreshold : setup.config.localizedThreshold ≠ .nan)
    (hfull : ∀ metric ∈ (setup.run (restSamples moved registered)).metrics setup.config 0,
      metric.1.IsValue ∧ metric.2 = .fin 1)
    {weight : Double} (hweight : availableWeight
      ((setup.run (restSamples moved registered)).metrics setup.config 0) = weight)
    (hcounts : Counts weight) :
    setup.frameAt (restSamples moved registered) 0 fullContext = .good := by
  apply frameAt_restSamples hconfig hmath
  rw [averageScore_of_full hfull (by rw [hweight]; exact hcounts.2)
    (by rw [hweight]; exact hcounts.1)]
  exact Double.ge_of_not_lt hthreshold hconfig.localizedAtMostOne

theorem good_of_metricCounts (hthreshold : setup.config.localizedThreshold ≠ .nan)
    (htimeout : setup.config.poseTimeoutSec ≠ .nan)
    (hupdate : setup.config.updateWeight.isFinite = true) (hcounts : MetricCounts setup.config) :
    ∃ moved registered, setup.frameAt (restSamples moved registered) 0 fullContext = .good := by
  have hfreshness := freshnessScore_zero hconfig.poseTimeout htimeout
  have hupdateValue := hconfig.values setup.config.updateWeight (by simp [Config.numbers])
  have hmotionValue := hconfig.values setup.config.motionWeight (by simp [Config.numbers])
  have hregistrationValue :=
    hconfig.values setup.config.registrationWeight (by simp [Config.numbers])
  by_cases hpositive : (Double.fin 0).lt setup.config.updateWeight = true
  · refine ⟨false, false, good_of_full hconfig hmath hthreshold ?_ ?_ ⟨hupdate, hpositive⟩⟩
    · rw [metrics_restSamples hconfig hmath]
      simp [hupdateValue, hfreshness]
    · rw [metrics_restSamples hconfig hmath]
      simp [availableWeight, Double.fin_zero_add hupdateValue]
  -- without a weight of its own the freshness leaves the other metric alone
  · have hzero : setup.config.updateWeight = .fin 0 := by
      obtain ⟨-, hnan | hnotNegative⟩ :=
        acceptedWeight_of_not_lt hupdateValue hconfig.updateWeight
      · rw [hnan] at hupdate
        cases hupdate
      · exact hnotNegative.eq_zero (Bool.eq_false_of_not_eq_true hpositive)
    have hzeroValue : (Double.fin 0).IsValue := hzero ▸ hupdateValue
    obtain hupdateCounts | ⟨hmotion, hlimit⟩ |
      ⟨hregistration, hreportTimeout, hfitness, hresidual⟩ := hcounts
    · exact absurd hupdateCounts.2 hpositive
    · have hscore : (setup.run (restSamples true false)).motionScore setup.config = .fin 1 := by
        apply motionScore_of_rest hconfig hlimit <;> rw [run_restSamples hconfig hmath]
      refine ⟨true, false, good_of_full hconfig hmath hthreshold ?_ ?_ hmotion⟩
      · rw [metrics_restSamples_moved hconfig hmath]
        simp [hzero, hzeroValue, hfreshness, hmotionValue, hscore]
      · rw [metrics_restSamples_moved hconfig hmath]
        simp [availableWeight, hzero, Double.fin_zero_add hmotionValue]
    · have hscore :
          (setup.run (restSamples false true)).registrationScore setup.config = .fin 1 := by
        apply registrationScore_of_perfect hconfig _ hfitness hresidual
        rw [run_restSamples hconfig hmath]
        exact ⟨rfl, rfl, rfl, rfl⟩
      refine ⟨false, true, good_of_full hconfig hmath hthreshold ?_ ?_ hregistration⟩
      · rw [metrics_restSamples_registered hconfig hmath hreportTimeout]
        simp [hzero, hzeroValue, hfreshness, hregistrationValue, hscore]
      · rw [metrics_restSamples_registered hconfig hmath hreportTimeout]
        simp [availableWeight, hzero, Double.fin_zero_add hregistrationValue]

/-- A confidence that stays at zero is enough when zero reaches the threshold. -/
theorem good_of_not_positive {moved registered : Bool}
    (hthreshold : setup.config.localizedThreshold.le (.fin 0) = true)
    (h : (Double.fin 0).lt (availableWeight
      ((setup.run (restSamples moved registered)).metrics setup.config 0)) = false) :
    setup.frameAt (restSamples moved registered) 0 fullContext = .good := by
  apply frameAt_restSamples hconfig hmath
  rw [averageScore, if_neg (by rw [h]; exact Bool.false_ne_true)]
  exact hthreshold

theorem good_of_zeroSuffices (h : ZeroSuffices setup.config) :
    ∃ moved registered, setup.frameAt (restSamples moved registered) 0 fullContext = .good := by
  obtain ⟨hthreshold, hzero | hnan | hnan | ⟨hnan, htimeout⟩⟩ := h
  · refine ⟨false, false, good_of_not_positive hconfig hmath hthreshold ?_⟩
    rw [metrics_restSamples hconfig hmath]
    simp [availableWeight, hzero]
  · refine ⟨false, false, good_of_not_positive hconfig hmath hthreshold ?_⟩
    rw [metrics_restSamples hconfig hmath]
    simp [availableWeight, hnan]
  · refine ⟨true, false, good_of_not_positive hconfig hmath hthreshold ?_⟩
    rw [metrics_restSamples_moved hconfig hmath]
    simp [availableWeight, hnan]
  · refine ⟨false, true, good_of_not_positive hconfig hmath hthreshold ?_⟩
    rw [metrics_restSamples_registered hconfig hmath htimeout]
    simp [availableWeight, hnan]

end Sufficient

/-! ### Repeated evaluations -/

section Evaluations

variable [Rounding]

/-- Evaluations keep the samples. -/
theorem run_append_evaluations (setup : Setup) (events : List Event) (now : Time)
    (context : Context) (n : ℕ) : ∃ hysteresis status,
      setup.run (events ++ List.replicate n (.evaluate now context)) =
        { setup.run events with hysteresis := hysteresis, status := status } := by
  induction n with
  | zero => exact ⟨_, _, by rw [List.replicate_zero, List.append_nil]⟩
  | succ n ih =>
    obtain ⟨hysteresis, status, hsame⟩ := ih
    rw [List.replicate_succ', ← List.append_assoc, Setup.run_concat, Setup.apply, hsame]
    exact evaluate_frame _ _ _ _ _

theorem frameAt_append_evaluations (setup : Setup) (events : List Event) (now : Time)
    (context : Context) (n : ℕ) :
    setup.frameAt (events ++ List.replicate n (.evaluate now context)) now context =
      setup.frameAt events now context := by
  obtain ⟨hysteresis, status, hsame⟩ := run_append_evaluations setup events now context n
  rw [Setup.frameAt, hsame]
  rfl

theorem sessionFrames_append_evaluations (setup : Setup) (events : List Event) (now : Time)
    (n : ℕ) :
    setup.sessionFrames (events ++ List.replicate n (.evaluate now fullContext)) =
      setup.sessionFrames events ++ List.replicate n (setup.frameAt events now fullContext) := by
  induction n with
  | zero => simp
  | succ n ih =>
    have hframe := frameAt_append_evaluations setup events now fullContext n
    calc
      setup.sessionFrames (events ++ List.replicate (n + 1) (.evaluate now fullContext)) =
          setup.sessionFrames (events ++ List.replicate n (.evaluate now fullContext)) ++
            [setup.frameAt (events ++ List.replicate n (.evaluate now fullContext)) now
              fullContext] := by
        rw [List.replicate_succ', ← List.append_assoc, Setup.sessionFrames_concat]
        rfl
      _ = setup.sessionFrames events ++ List.replicate n (setup.frameAt events now fullContext) ++
            [setup.frameAt events now fullContext] := by rw [ih, hframe]
      _ = setup.sessionFrames events ++
            List.replicate (n + 1) (setup.frameAt events now fullContext) := by
        rw [List.replicate_succ', List.append_assoc]

/-- Evaluated often enough, good samples make LOCALIZED with a valid pose. -/
theorem localized_of_good {setup : Setup} (hcounts : FrameCountsValid setup.config)
    {events : List Event} {now : Time} (h : setup.frameAt events now fullContext = .good) :
    let localized := setup.run
      (events ++ List.replicate setup.config.goodFramesToRecover (.evaluate now fullContext))
    localized.hysteresis.state = .localized ∧ localized.status.poseValid = true := by
  have hlocalized : (setup.run (events ++ List.replicate setup.config.goodFramesToRecover
      (.evaluate now fullContext))).hysteresis.state = .localized := by
    apply localized_of_trailing hcounts
    rw [sessionFrames_append_evaluations, h]
    exact ConsecutiveRuns.le_trailing_append_replicate rfl _ _
  refine ⟨hlocalized, ?_⟩
  obtain ⟨n, hn⟩ := Nat.exists_eq_succ_of_ne_zero hcounts.recover_pos.ne'
  rw [hn, List.replicate_succ', ← List.append_assoc] at hlocalized ⊢
  exact poseValid_of_good ((frameAt_append_evaluations ..).trans h) hlocalized

end Evaluations

/-! ## The verdict -/

/-- Some sequence of observations and evaluations leads from the construction to LOCALIZED with a
valid pose. -/
def Localizes [Rounding] (setup : Setup) : Prop :=
  ∃ events, (∀ event ∈ events, event.isReset = false) ∧
    (setup.run events).hysteresis.state = .localized ∧ (setup.run events).status.poseValid = true

theorem not_reset_restSamples {moved registered : Bool} {event : Event}
    (h : event ∈ restSamples moved registered) : event.isReset = false := by
  have hall : (restSamples moved registered).all (fun event ↦ !event.isReset) = true := by
    cases moved <;> cases registered <;> rfl
  simpa using List.all_eq_true.mp hall event h

/-- Exactly the configurations that meet the condition can localize, among those accepted. -/
theorem localizes_iff [Rounding] (setup : Setup) {document : Option QualityDocument}
    (hconfig : loadConfig document = .ok setup.config) (hmath : ExactAtRest setup.math) :
    Localizes setup ↔ CanLocalize setup.config := by
  have hchecked := checked_of_loadConfig hconfig
  have hcounts := frameCountsValid_of_loadConfig hconfig
  constructor
  · rintro ⟨events, -, hlocalized, -⟩
    exact canLocalize_of_localized hconfig hlocalized
  · intro h
    obtain ⟨moved, registered, hgood⟩ : ∃ moved registered,
        setup.frameAt (restSamples moved registered) 0 fullContext = .good := by
      obtain ⟨hthreshold, htimeout, hupdate, hmetric⟩ | hzero := h
      · exact good_of_metricCounts hchecked hmath hthreshold htimeout hupdate hmetric
      · exact good_of_zeroSuffices hchecked hmath hzero
    refine ⟨_, fun event hevent ↦ ?_, localized_of_good hcounts hgood⟩
    obtain hsample | hevaluation := List.mem_append.mp hevent
    · exact not_reset_restSamples hsample
    · rw [List.eq_of_mem_replicate hevaluation]
      rfl

/-- The shipped configuration, with library functions that are exact at rest. -/
def restSetup : Setup :=
  { defaultSetup with math := ⟨id, id, fun _ ↦ 1, fun _ _ ↦ 0, fun _ _ ↦ abs_zero_le_four⟩ }

theorem exactAtRest_restSetup : ExactAtRest restSetup.math := ⟨rfl, rfl, rfl, rfl⟩

theorem localizes_restSetup : Localizes restSetup := by
  refine (localizes_iff restSetup loadConfig_localizationQualityYaml exactAtRest_restSetup).mpr ?_
  have hweight : Counts restSetup.config.updateWeight := ⟨by decide +kernel, by decide +kernel⟩
  exact Or.inl ⟨by decide +kernel, by decide +kernel, hweight.1, Or.inl hweight⟩

/-- The shipped document with all the weight on the overlap. -/
def overlapOnlyYaml : QualityDocument :=
  { localizationQualityYaml [] with
    weights := some (yamlMap
      [("update", .real (.fin 0)), ("motion", .real (.fin 0)), ("registration", .real (.fin 0)),
        ("overlap", .real (.fin 1))]) }

def overlapOnlySetup : Setup :=
  { restSetup with
    config :=
      { updateWeight := .fin 0
        motionWeight := .fin 0
        registrationWeight := .fin 0
        overlapWeight := .fin 1 } }

theorem not_localizes_overlapOnly :
    loadConfig (some overlapOnlyYaml) = .ok overlapOnlySetup.config ∧
      ¬Localizes overlapOnlySetup := by
  have hconfig : loadConfig (some overlapOnlyYaml) = .ok overlapOnlySetup.config := by
    decide +kernel
  refine ⟨hconfig, ?_⟩
  rintro ⟨events, -, hlocalized, -⟩
  obtain ⟨-, -, -, hupdate | hmotion | hregistration⟩ | ⟨hzero, -⟩ :=
    canLocalize_of_localized hconfig hlocalized
  · exact absurd hupdate.2 (by decide)
  · exact absurd hmotion.1.2 (by decide)
  · exact absurd hregistration.1.2 (by decide)
  · exact absurd hzero (by decide +kernel)

end SlamSystemManager.Quality
