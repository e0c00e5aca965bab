import SlamSystemManager.Quality.Reasons

/-!
# Silence

Without a new message the ages grow and nothing else changes that an evaluation reads. The freshness
score falls with the age of the pose, the score of the motion stays as it is, and a registration
report leaves the weighted average only by running out of time, which makes the frame critical. So a
later evaluation is never better than an earlier one. The scores are compared over exact rationals.
-/

open Numeric Numeric.Rounding

namespace SlamSystemManager.Quality

/-! ## Events without a message -/

/-- The receipt time of an observation. -/
def Event.receipt : Event → Option Time
  | .odometry _ receiptTime => some receiptTime
  | .pose _ receiptTime => some receiptTime
  | .correction _ receiptTime => some receiptTime
  | .registration _ receiptTime => some receiptTime
  | .reset => none
  | .evaluate _ _ => none

/-- No event of the list is an observation. -/
def Silent (events : List Event) : Prop := ∀ event ∈ events, event.receipt = none

/-- Every observation of the list was received by that time. -/
def ReceivedBy (events : List Event) (time : Time) : Prop :=
  ∀ event ∈ events, ∀ receipt, event.receipt = some receipt → receipt ≤ time

theorem ReceivedBy.append_silent {events silence : List Event} {time : Time}
    (h : ReceivedBy events time) (hsilence : Silent silence) :
    ReceivedBy (events ++ silence) time := by
  intro event hevent receipt hreceipt
  obtain hbefore | hafter := List.mem_append.mp hevent
  · exact h event hbefore receipt hreceipt
  · rw [hsilence event hafter] at hreceipt
    cases hreceipt

section Events

variable [Rounding]

/-- An evaluation writes the hysteresis and the status and nothing else. -/
theorem evaluate_frame (config : Config) (mapFrame : String) (monitor : Monitor) (now : Time)
    (context : Context) : ∃ hysteresis status,
      (monitor.evaluate config mapFrame now context).1 =
        { monitor with hysteresis := hysteresis, status := status } := by
  unfold Monitor.evaluate
  dsimp only
  split_ifs <;> exact ⟨_, _, rfl⟩

/-- After a silence the monitor holds the same samples, or it has been reset. -/
theorem run_append_silent (setup : Setup) (events : List Event) {silence : List Event}
    (h : Silent silence) :
    (setup.run (events ++ silence)).haveOdometry = false ∨ ∃ hysteresis status,
      setup.run (events ++ silence) =
        { setup.run events with hysteresis := hysteresis, status := status } := by
  induction silence using List.reverseRecOn with
  | nil =>
    rw [List.append_nil]
    exact Or.inr ⟨_, _, rfl⟩
  | append_singleton silence event ih =>
    have hlast : event.receipt = none := h event (by simp)
    have hbefore := ih fun other hother ↦ h other (by simp [hother])
    rw [← List.append_assoc, Setup.run_concat]
    cases event with
    | odometry message receiptTime => cases hlast
    | pose message receiptTime => cases hlast
    | correction message receiptTime => cases hlast
    | registration message receiptTime => cases hlast
    | reset => exact Or.inl rfl
    | evaluate now context =>
      obtain ⟨hysteresis, status, hevaluated⟩ := evaluate_frame setup.config setup.mapFrame
        (setup.run (events ++ silence)) now context
      rw [Setup.apply, hevaluated]
      obtain hreset | ⟨_, _, hsame⟩ := hbefore
      · exact Or.inl hreset
      · rw [hsame]
        exact Or.inr ⟨hysteresis, status, rfl⟩

end Events

/-- Every sample the monitor holds was received by that time. -/
structure Monitor.HeldBy (monitor : Monitor) (time : Time) : Prop where
  odometry : monitor.haveOdometry = true → monitor.lastOdometryReceipt ≤ time
  pose : monitor.havePose = true → monitor.lastPoseReceipt ≤ time
  correction : monitor.haveCorrection = true → monitor.lastCorrectionReceipt ≤ time
  registration : monitor.haveRegistration = true → monitor.lastRegistrationReceipt ≤ time

section Observers

variable [Rounding] {monitor : Monitor} {time : Time} (h : monitor.HeldBy time)

include h

theorem Monitor.HeldBy.observeOdometry (config : Config) (math : Cmath) (message : StampedPose)
    {receiptTime : Time} (hreceipt : receiptTime ≤ time) :
    (monitor.observeOdometry config math message receiptTime).HeldBy time := by
  unfold Monitor.observeOdometry Monitor.measureMotion
  cases finitePose message.pose with
  | none => exact ⟨h.odometry, h.pose, h.correction, h.registration⟩
  | some pose =>
    dsimp only
    split_ifs
    · exact ⟨h.odometry, h.pose, h.correction, h.registration⟩
    all_goals exact ⟨fun _ ↦ hreceipt, h.pose, h.correction, h.registration⟩

theorem Monitor.HeldBy.observePose (message : StampedPose) {receiptTime : Time}
    (hreceipt : receiptTime ≤ time) : (monitor.observePose message receiptTime).HeldBy time := by
  unfold Monitor.observePose
  cases finitePose message.pose with
  | none => exact ⟨h.odometry, h.pose, h.correction, h.registration⟩
  | some pose => exact ⟨h.odometry, fun _ ↦ hreceipt, h.correction, h.registration⟩

theorem Monitor.HeldBy.observeCorrection (config : Config) (math : Cmath) (message : StampedPose)
    {receiptTime : Time} (hreceipt : receiptTime ≤ time) :
    (monitor.observeCorrection config math message receiptTime).HeldBy time := by
  unfold Monitor.observeCorrection Monitor.measureCorrection
  cases finitePose message.pose with
  | none => exact ⟨h.odometry, h.pose, h.correction, h.registration⟩
  | some pose =>
    dsimp only
    split_ifs
    · exact ⟨h.odometry, h.pose, h.correction, h.registration⟩
    all_goals exact ⟨h.odometry, h.pose, fun _ ↦ hreceipt, h.registration⟩

theorem Monitor.HeldBy.apply (setup : Setup) (event : Event)
    (hreceipt : ∀ receipt, event.receipt = some receipt → receipt ≤ time) :
    (setup.apply monitor event).HeldBy time := by
  cases event with
  | odometry message receiptTime => exact h.observeOdometry _ _ _ (hreceipt receiptTime rfl)
  | pose message receiptTime => exact h.observePose _ (hreceipt receiptTime rfl)
  | correction message receiptTime => exact h.observeCorrection _ _ _ (hreceipt receiptTime rfl)
  | registration message receiptTime =>
    exact ⟨h.odometry, h.pose, h.correction, fun _ ↦ hreceipt receiptTime rfl⟩
  | reset => exact ⟨nofun, nofun, nofun, nofun⟩
  | evaluate now context =>
    obtain ⟨hysteresis, status, hevaluated⟩ :=
      evaluate_frame setup.config setup.mapFrame monitor now context
    rw [Setup.apply, hevaluated]
    exact ⟨h.odometry, h.pose, h.correction, h.registration⟩

end Observers

theorem heldBy_run [Rounding] (setup : Setup) {events : List Event} {time : Time}
    (h : ReceivedBy events time) : (setup.run events).HeldBy time := by
  induction events using List.reverseRecOn with
  | nil => exact ⟨nofun, nofun, nofun, nofun⟩
  | append_singleton events event ih =>
    have hbefore := ih fun other hother ↦ h other (by simp [hother])
    rw [Setup.run_concat]
    exact hbefore.apply setup event (h event (by simp))

/-! ## Ages -/

section Growing

variable [Rounding] {config : Config} {monitor : Monitor} {earlier later : Time}
  {context : Context}

theorem updateAge_of_have (hodometry : monitor.haveOdometry = true)
    (hpose : monitor.havePose = true) (now : Time) :
    monitor.updateAge now = .fin (max (ageSeconds now monitor.lastOdometryReceipt)
      (ageSeconds now monitor.lastPoseReceipt)) := by
  simp [Monitor.updateAge, ageOf, hodometry, hpose, Double.max_fin_fin]

theorem correctionAge_of_have (h : monitor.haveCorrection = true) (now : Time) :
    monitor.correctionAge now = .fin (ageSeconds now monitor.lastCorrectionReceipt) := by
  simp [Monitor.correctionAge, ageOf, h]

theorem registrationAge_of_have (h : monitor.haveRegistration = true) (now : Time) :
    monitor.registrationAge now = .fin (ageSeconds now monitor.lastRegistrationReceipt) := by
  simp [Monitor.registrationAge, ageOf, h]

variable (hheld : monitor.HeldBy earlier) (hle : earlier ≤ later)

include hheld hle

/-- A chain without a fault had none before. -/
theorem othersSound_before (h : OthersSound config monitor later context) :
    OthersSound config monitor earlier context := by
  obtain ⟨halive, hhealthy, hodometry, hpose, -, -, htimeout, hmotion, hposeFault, hcorrection,
    -, -, hcorrectionTimeout, hfault⟩ := h
  rw [updateAge_of_have hodometry hpose] at htimeout
  rw [correctionAge_of_have hcorrection] at hcorrectionTimeout
  have hodometryAge := (ageSeconds_nonneg_iff _ _).mpr (hheld.odometry hodometry)
  have hcorrectionAge := (ageSeconds_nonneg_iff _ _).mpr (hheld.correction hcorrection)
  have hupdateGrows : max (ageSeconds earlier monitor.lastOdometryReceipt)
      (ageSeconds earlier monitor.lastPoseReceipt) ≤
        max (ageSeconds later monitor.lastOdometryReceipt)
          (ageSeconds later monitor.lastPoseReceipt) :=
    max_le_max (ageSeconds_mono hle _) (ageSeconds_mono hle _)
  constructor
  case alive => exact halive
  case healthy => exact hhealthy
  case haveOdometry => exact hodometry
  case havePose => exact hpose
  case updateFinite => rw [updateAge_of_have hodometry hpose]; rfl
  case updateNotNegative =>
    rw [updateAge_of_have hodometry hpose]
    exact decide_eq_false (not_lt.mpr (le_max_of_le_left hodometryAge))
  case updateInTime =>
    rw [updateAge_of_have hodometry hpose]
    exact Bool.eq_false_of_not_eq_true (mt (Double.lt_fin_mono hupdateGrows) (by simp [htimeout]))
  case motion => exact hmotion
  case pose => exact hposeFault
  case haveCorrection => exact hcorrection
  case correctionFinite => rw [correctionAge_of_have hcorrection]; rfl
  case correctionNotNegative =>
    rw [correctionAge_of_have hcorrection]
    simpa using hcorrectionAge
  case correctionInTime =>
    rw [correctionAge_of_have hcorrection]
    exact Bool.eq_false_of_not_eq_true
      (mt (Double.lt_fin_mono (ageSeconds_mono hle _)) (by simp [hcorrectionTimeout]))
  case correction => exact hfault

/-- A report leaves the score only by running out of time, and then there is a fault. -/
theorem registration_before (h : monitor.registrationFault config later = none) :
    monitor.registrationFault config earlier = none ∧
      monitor.registrationScored config earlier = monitor.registrationScored config later := by
  cases hhave : monitor.haveRegistration with
  | false => simp [Monitor.registrationFault, Monitor.registrationScored, hhave]
  | true =>
    obtain ⟨hlaterAge, htimeout, -⟩ := registration_of_fault_eq_none hhave h
    have hearlierAge := (ageSeconds_nonneg_iff _ _).mpr (hheld.registration hhave)
    have hgrows := ageSeconds_mono hle monitor.lastRegistrationReceipt
    have hearlierTimeout : config.registrationTimeoutSec.lt
        (.fin (ageSeconds earlier monitor.lastRegistrationReceipt)) = false :=
      Bool.eq_false_of_not_eq_true (mt (Double.lt_fin_mono hgrows) (by simp [htimeout]))
    have hscored : monitor.registrationScored config earlier =
        monitor.registrationScored config later := by
      unfold Monitor.registrationScored
      rw [registrationAge_of_have hhave, registrationAge_of_have hhave]
      by_cases hnan : config.registrationTimeoutSec = .nan
      · simp [hnan]
      · simp [hearlierAge, hlaterAge, Double.le_of_not_gt hnan htimeout,
          Double.le_of_not_gt hnan hearlierTimeout]
    refine ⟨?_, hscored⟩
    unfold Monitor.registrationFault at h ⊢
    rw [hscored, registrationAge_of_have hhave]
    dsimp only at h ⊢
    split_ifs at h ⊢
    · rfl
    · rename_i hlate _
      simp [hearlierTimeout, not_lt.mpr hearlierAge] at hlate
    · rfl

/-! ## Scores -/

/-- The metrics that do not depend on the time while the report is scored. -/
def Monitor.steadyMetrics (config : Config) (monitor : Monitor) (scored : Bool) :
    List (Double × Double) :=
  (if monitor.motionSampleValid then [(config.motionWeight, monitor.motionScore config)] else []) ++
  (if scored then [(config.registrationWeight, monitor.registrationScore config)] else [])

omit hheld hle in
theorem metrics_of_sound (h : OthersSound config monitor later context) :
    monitor.metrics config later =
      (config.updateWeight, freshnessScore (monitor.updateAge later) config.poseTimeoutSec) ::
        monitor.steadyMetrics config (monitor.registrationScored config later) := by
  simp [Monitor.metrics, Monitor.steadyMetrics, h.haveOdometry, h.havePose, h.updateFinite]

end Growing

/-- The first weight of a finite sum is finite. -/
theorem exists_of_availableWeight [Rounding] {weight x : Double}
    {metrics : List (Double × Double)} {w : ℚ}
    (h : availableWeight ((weight, x) :: metrics) = .fin w) : ∃ u : ℚ, weight = .fin u := by
  induction metrics using List.reverseRecOn generalizing w with
  | nil =>
    obtain ⟨_, u, -, hu, -⟩ := Double.exists_of_add_eq_fin h
    exact ⟨u, hu⟩
  | append_singleton metrics metric ih =>
    rw [availableWeight, ← List.cons_append, List.foldl_append] at h
    obtain ⟨v, _, hv, -, -⟩ := Double.exists_of_add_eq_fin h
    exact ih hv

section Exact

variable [Rounding] [IsExact]

/-- The freshness falls in a line from the half of the timeout to the timeout. -/
theorem freshnessScore_fin {age timeout : ℚ} (hage : 0 ≤ age) (htimeout : 0 < timeout) :
    freshnessScore (.fin age) (.fin timeout) =
      .fin (max 0 (min ((timeout - age) / (timeout / 2)) 1)) := by
  have hhalf : 0 < timeout / 2 := by linarith
  unfold freshnessScore
  simp only [Double.isFinite_fin, Bool.not_true, Bool.false_or, Double.lt_fin_fin,
    Double.le_fin_fin, Double.ofRat_eq, Double.mul_fin_fin, Double.sub_fin_fin, Bool.or_eq_true,
    decide_eq_true_eq, not_lt.mpr hage, false_or]
  split_ifs with hout hfull
  · have hratio : (timeout - age) / (timeout / 2) ≤ 0 :=
      div_nonpos_of_nonpos_of_nonneg (by linarith) hhalf.le
    rw [min_eq_left (hratio.trans zero_le_one), max_eq_left hratio]
  · have hratio : 1 ≤ (timeout - age) / (timeout / 2) := by
      rw [le_div_iff₀ hhalf]
      linarith
    rw [min_eq_right hratio, max_eq_right zero_le_one]
  · have hrest : timeout - timeout * (1 / 2) = timeout / 2 := by linarith
    have hdiv : (Double.fin (timeout - age)).div (.fin (timeout / 2)) =
        .fin ((timeout - age) / (timeout / 2)) := Double.div_fin_fin _ hhalf.ne'
    rw [hrest, hdiv, clamp01_fin]

/-- The older the pose, the lower its freshness. -/
theorem freshnessScore_antitone {younger older : ℚ} (hage : 0 ≤ younger) (h : younger ≤ older)
    {timeout : Double} (htimeout : timeout.le (.fin 0) = false) :
    (freshnessScore (.fin older) timeout).AtMost (freshnessScore (.fin younger) timeout) := by
  cases timeout with
  | nan =>
    left
    simp [freshnessScore, Double.mul, Double.sub, Double.add, Double.div, not_lt.mpr hage,
      not_lt.mpr (hage.trans h)]
  | inf negative =>
    cases negative with
    | false =>
      left
      simp [freshnessScore, Double.ofRat_eq, Double.mul, Double.scaleInf, Double.le,
        not_lt.mpr hage, not_lt.mpr (hage.trans h)]
    | true => cases htimeout
  | fin timeout =>
    have hpos : 0 < timeout := by simpa using htimeout
    rw [freshnessScore_fin hage hpos, freshnessScore_fin (hage.trans h) hpos]
    apply Double.atMost_fin
    gcongr

/-- Adding the same terms to two sums keeps their order. -/
theorem weightedScore_cons_atMost {x y : Double} {w : ℚ} (hw : 0 ≤ w) (h : x.AtMost y)
    (metrics : List (Double × Double)) :
    (weightedScore ((.fin w, x) :: metrics)).AtMost (weightedScore ((.fin w, y) :: metrics)) := by
  induction metrics using List.reverseRecOn with
  | nil => exact (h.mul hw).add_left _
  | append_singleton metrics metric ih =>
    simp only [weightedScore, ← List.cons_append, List.foldl_append, List.foldl_cons,
      List.foldl_nil] at ih ⊢
    exact ih.add _

theorem isFinite_availableWeight {metrics : List (Double × Double)}
    (h : ∀ metric ∈ metrics, metric.1.isFinite = true) :
    (availableWeight metrics).isFinite = true := by
  induction metrics using List.reverseRecOn with
  | nil => rfl
  | append_singleton metrics metric ih =>
    obtain ⟨w, hw⟩ := Double.exists_of_isFinite (ih fun other hother ↦ h other (by simp [hother]))
    obtain ⟨q, hq⟩ := Double.exists_of_isFinite (h metric (by simp))
    rw [availableWeight_concat, hw, hq, Double.add_fin_fin]
    rfl

/-- An infinite sum of weights divides an infinite score. -/
theorem quotient_of_infinite {metrics : List (Double × Double)} {negative : Bool}
    (h : availableWeight metrics = .inf negative) :
    (weightedScore metrics).div (availableWeight metrics) = .nan := by
  cases hscore : weightedScore metrics with
  | nan => rfl
  | inf other =>
    rw [h]
    rfl
  | fin s =>
    have hfinite := isFinite_availableWeight fun metric hmetric ↦
      (isFinite_of_weightedScore hscore hmetric).1
    rw [h] at hfinite
    cases hfinite

/-- A weighted average falls with its first score. -/
theorem averageScore_cons_atMost {weight x y : Double} (hweight : weight.lt (.fin 0) = false)
    (h : x.AtMost y) (metrics : List (Double × Double)) :
    (averageScore ((weight, x) :: metrics)).AtMost (averageScore ((weight, y) :: metrics)) := by
  have hsame :
      availableWeight ((weight, y) :: metrics) = availableWeight ((weight, x) :: metrics) :=
    rfl
  unfold averageScore
  rw [hsame]
  split_ifs with hpositive
  · cases havailable : availableWeight ((weight, x) :: metrics) with
    | nan =>
      rw [havailable] at hpositive
      cases hpositive
    | inf negative =>
      rw [← havailable, quotient_of_infinite havailable, ← hsame,
        quotient_of_infinite (hsame.trans havailable)]
      exact Or.inl rfl
    | fin w =>
      obtain ⟨u, rfl⟩ := exists_of_availableWeight havailable
      rw [← havailable]
      exact (weightedScore_cons_atMost (by simpa using hweight) h metrics).div hpositive
  · exact Or.inl rfl

/-- A later evaluation finds a fault or gives at most the earlier score. -/
theorem averageScore_of_silence {config : Config} (hconfig : Checked config) {monitor : Monitor}
    {earlier later : Time} {context : Context} (hheld : monitor.HeldBy earlier)
    (hle : earlier ≤ later) (hsound : OthersSound config monitor later context)
    (hregistration : monitor.registrationFault config later = none) :
    (averageScore (monitor.metrics config later)).AtMost
      (averageScore (monitor.metrics config earlier)) := by
  have hbefore := othersSound_before hheld hle hsound
  have hlater := metrics_of_sound hsound
  have hearlier := metrics_of_sound hbefore
  rw [(registration_before hheld hle hregistration).2] at hearlier
  rw [hlater, hearlier]
  have hodometryAge :=
    (ageSeconds_nonneg_iff _ _).mpr (hheld.odometry hbefore.haveOdometry)
  apply averageScore_cons_atMost hconfig.updateWeight
  rw [updateAge_of_have hbefore.haveOdometry hbefore.havePose,
    updateAge_of_have hbefore.haveOdometry hbefore.havePose]
  exact freshnessScore_antitone (le_max_of_le_left hodometryAge)
    (max_le_max (ageSeconds_mono hle _) (ageSeconds_mono hle _)) hconfig.poseTimeout

end Exact

/-! ## Two evaluations -/

/-- The later assessment is no better than the earlier one. -/
structure NoBetter (config : Config) (later earlier : Assessment) : Prop where
  confidence : earlier.confidence = .nan ∨ later.confidence.le earlier.confidence = true
  critical : earlier.frame config = .critical → later.frame config = .critical
  good : later.frame config = .good → earlier.frame config = .good

/-- A fault makes the confidence zero and the frame critical. -/
theorem noBetter_of_critical {config : Config} {later earlier : Assessment}
    (hcritical : later.critical = true) (hzero : later.confidence = .fin 0)
    (hunit : UnitScore earlier.confidence) : NoBetter config later earlier := by
  have hframe : later.frame config = .critical := by
    unfold Assessment.frame
    simp [hcritical]
  refine ⟨?_, fun _ ↦ hframe, fun hgood ↦ ?_⟩
  · obtain hnan | ⟨q, hq, hq0, -⟩ := hunit
    · exact Or.inl hnan
    · rw [hzero, hq]
      exact Or.inr (decide_eq_true hq0)
  · rw [hframe] at hgood
    cases hgood

/-- Without a fault the frames are ordered as the confidences are. -/
theorem noBetter_of_atMost [Rounding] {config : Config} (hconfig : Checked config)
    {later earlier : Assessment} (hlater : later.critical = false)
    (hearlier : earlier.critical = false) (h : later.confidence.AtMost earlier.confidence) :
    NoBetter config later earlier := by
  refine ⟨?_, fun hcritical ↦ ?_, fun hgood ↦ ?_⟩
  · by_cases hnan : earlier.confidence = .nan
    · exact Or.inl hnan
    · exact Or.inr (h.le hnan)
  · rw [Assessment.frame_eq_critical hconfig hlater]
    rw [Assessment.frame_eq_critical hconfig hearlier] at hcritical
    exact h.lt_of_lt hcritical
  · rw [Assessment.frame_eq_good] at hgood ⊢
    exact ⟨hearlier, h.le_of_le hgood.2⟩

/-- The confidence is a score in every assessment. -/
theorem unitScore_confidence [Rounding] {config : Config} (hconfig : Checked config)
    (monitor : Monitor) (now : Time) (context : Context) :
    UnitScore (monitor.assess config now context).confidence := by
  rw [assess_confidence hconfig]
  split_ifs
  · exact unitScore_fin le_rfl zero_le_one
  · exact unitScore_averageScore (totals_metrics hconfig monitor now)

section Evaluations

variable [Rounding] [IsExact]

theorem noBetter_later {config : Config} (hconfig : Checked config) {monitor : Monitor}
    {earlier later : Time} (hheld : monitor.HeldBy earlier) (hle : earlier ≤ later)
    (context : Context) :
    NoBetter config (monitor.assess config later context)
      (monitor.assess config earlier context) := by
  have hconfidence := assess_confidence hconfig monitor later context
  cases hcritical : (monitor.assess config later context).critical with
  | true =>
    rw [hcritical, if_pos rfl] at hconfidence
    exact noBetter_of_critical hcritical hconfidence (unitScore_confidence hconfig ..)
  | false =>
    obtain ⟨hfault, hregistration⟩ := (assess_critical ..).mp hcritical
    have hsound := (fault_eq_none_iff ..).mp hfault
    have hearlier : (monitor.assess config earlier context).critical = false :=
      (assess_critical ..).mpr ⟨(fault_eq_none_iff ..).mpr (othersSound_before hheld hle hsound),
        (registration_before hheld hle hregistration).1⟩
    apply noBetter_of_atMost hconfig hcritical hearlier
    rw [hconfidence, hcritical, assess_confidence hconfig, hearlier]
    exact averageScore_of_silence hconfig hheld hle hsound hregistration

/-- Also when the evaluation comes after a silence in which the monitor was evaluated or reset. -/
theorem noBetter_after_silence {setup : Setup} (hconfig : Checked setup.config)
    {events silence : List Event} (hsilence : Silent silence) {earlier later : Time}
    (hreceived : ReceivedBy events earlier) (hle : earlier ≤ later) (context : Context) :
    NoBetter setup.config ((setup.run (events ++ silence)).assess setup.config later context)
      ((setup.run events).assess setup.config earlier context) := by
  obtain hreset | ⟨hysteresis, status, hsame⟩ := run_append_silent setup events hsilence
  · have hcritical : ((setup.run (events ++ silence)).assess setup.config later context).critical =
        true := by
      by_contra hnot
      have hsound := (assess_critical ..).mp (Bool.eq_false_of_not_eq_true hnot)
      have hhave := ((fault_eq_none_iff ..).mp hsound.1).haveOdometry
      rw [hreset] at hhave
      cases hhave
    have hconfidence := assess_confidence hconfig (setup.run (events ++ silence)) later context
    rw [hcritical, if_pos rfl] at hconfidence
    exact noBetter_of_critical hcritical hconfidence (unitScore_confidence hconfig ..)
  · rw [hsame]
    exact noBetter_later hconfig (heldBy_run setup hreceived) hle context

end Evaluations

/-! ## Silence never improves the quality -/

def Setup.frameAt [Rounding] (setup : Setup) (events : List Event) (now : Time)
    (context : Context) : Frame :=
  ((setup.run events).assess setup.config now context).frame setup.config

/-- The confidence an evaluation after these events publishes. -/
def Setup.confidenceAt [Rounding] (setup : Setup) (events : List Event) (now : Time)
    (context : Context) : Double :=
  (setup.run (events ++ [.evaluate now context])).status.confidence

theorem confidenceAt_of_active [Rounding] (setup : Setup) (events : List Event) (now : Time)
    {context : Context} (hactive : context.localizationActive = true)
    (hinitialized : context.localizationInitialized = true) :
    setup.confidenceAt events now context =
      ((setup.run events).assess setup.config now context).confidence := by
  rw [Setup.confidenceAt, Setup.run_concat, Setup.apply]
  unfold Monitor.evaluate
  simp only [hactive, hinitialized]
  rfl

/-- LOCALIZED is entered on a good frame. -/
theorem good_of_localized {config : Config} (hcounts : FrameCountsValid config)
    {hysteresis : Hysteresis} {frame : Frame} (hbefore : hysteresis.state ≠ .localized)
    (h : (hysteresis.step config frame).state = .localized) : frame = .good := by
  by_contra hnotGood
  have hstate : (hysteresis.count frame).state = hysteresis.state := by cases frame <;> rfl
  have hnot := not_recovered hcounts hysteresis hnotGood
  unfold Hysteresis.step at h
  dsimp only at h
  cases htransition : (hysteresis.count frame).transition config with
  | none =>
    rw [htransition] at h
    exact hbefore (hstate ▸ h)
  | some state =>
    rw [htransition] at h
    exact hnot (htransition.trans (congrArg some h))

/-- A silence after these events never improves the quality, from the time on at which everything
had been received. A confidence that is a NaN is exceeded by nothing. -/
structure SilenceWorsens [Rounding] (setup : Setup) (events silence : List Event)
    (earlier later : Time) (context : Context) : Prop where
  confidence : setup.confidenceAt events earlier context = .nan ∨
    (setup.confidenceAt (events ++ silence) later context).le
      (setup.confidenceAt events earlier context) = true
  critical : setup.frameAt events earlier context = .critical →
    setup.frameAt (events ++ silence) later context = .critical
  good : setup.frameAt (events ++ silence) later context = .good →
    setup.frameAt events earlier context = .good
  recovered : (setup.run (events ++ silence)).hysteresis.state ≠ .localized →
    (setup.run (events ++ silence ++ [.evaluate later context])).hysteresis.state = .localized →
    setup.frameAt events earlier context = .good ∧
      ∀ before now after, silence = before ++ .evaluate now context :: after → earlier ≤ now →
        now ≤ later → setup.frameAt (events ++ before) now context = .good

/-- For every accepted configuration and history, and an active and initialized context. -/
theorem silence_worsens [Rounding] [IsExact] (setup : Setup) {document : Option QualityDocument}
    (hconfig : loadConfig document = .ok setup.config) (events silence : List Event)
    (hsilence : Silent silence) {earlier later : Time} (hreceived : ReceivedBy events earlier)
    (hle : earlier ≤ later) {context : Context} (hactive : context.localizationActive = true)
    (hinitialized : context.localizationInitialized = true) :
    SilenceWorsens setup events silence earlier later context := by
  have hchecked := checked_of_loadConfig hconfig
  have hworse := noBetter_after_silence hchecked hsilence hreceived hle context
  refine ⟨?_, hworse.critical, hworse.good, fun hbefore hlocalized ↦ ?_⟩
  · rw [confidenceAt_of_active setup events earlier hactive hinitialized,
      confidenceAt_of_active setup (events ++ silence) later hactive hinitialized]
    exact hworse.confidence
  · have hgood : setup.frameAt (events ++ silence) later context = .good := by
      rw [Setup.run_concat, Setup.apply, hysteresis_evaluate, hactive, hinitialized] at hlocalized
      exact good_of_localized (frameCountsValid_of_loadConfig hconfig) hbefore hlocalized
    refine ⟨hworse.good hgood, fun before now after hsplit hafter hnow ↦ ?_⟩
    have hbeforeSilent : Silent before :=
      fun event hevent ↦ hsilence event (by simp [hsplit, hevent])
    have hafterSilent : Silent (.evaluate now context :: after) :=
      fun event hevent ↦ hsilence event (by rw [hsplit]; exact List.mem_append_right _ hevent)
    have hreceivedNow : ReceivedBy (events ++ before) now := by
      intro event hevent receipt hreceipt
      exact (hreceived.append_silent hbeforeSilent event hevent receipt hreceipt).trans hafter
    have hrest := noBetter_after_silence hchecked hafterSilent hreceivedNow hnow context
    rw [hsplit, ← List.append_assoc] at hgood
    exact hrest.good hgood

/-- A frame right after the samples against one 0.4 s later. -/
theorem silence_worsens_firstSamples :
    @SilenceWorsens Rounding.exact { defaultSetup with config := exactConfig }
      [.odometry originPose 0, .pose originPose 0, .correction originPose 0]
      [.evaluate 0 fullContext] 0 (400 * 10 ^ 6) fullContext := by
  refine @silence_worsens Rounding.exact isExact_exact { defaultSetup with config := exactConfig }
    _ loadConfig_exactConfig _ _ ?_ _ _ ?_ (by decide) _ rfl rfl
  · intro event hevent
    rw [List.mem_singleton.mp hevent]
    rfl
  · intro event hevent receipt hreceipt
    simp only [List.mem_cons, List.not_mem_nil, or_false] at hevent
    obtain rfl | rfl | rfl := hevent <;> cases hreceipt <;> exact le_rfl

end SlamSystemManager.Quality
