import Mathlib.Algebra.BigOperators.Ring.List
import Mathlib.Algebra.Order.BigOperators.Group.List
import SlamSystemManager.Quality.Scores

/-!
# The arithmetic of the scores

Over the rationals, where neither a NaN nor an infinity occurs, every division of `evaluate` and of
`freshnessScore` has a positive divisor, every partial score lies between zero and one, and the
confidence of a frame without a fault is the convex combination of the scores that are available.
-/

open Numeric Numeric.Rounding

namespace SlamSystemManager.Quality

/-! ## What is divided and what is added up -/

/-- The numbers of the configuration that the scores are computed from. -/
def Config.scoringNumbers (config : Config) : List Double :=
  [config.poseTimeoutSec, config.maxLinearVelocityMps, config.maxAngularVelocityDps,
    config.minRegistrationFitness, config.maxRegistrationResidualM, config.updateWeight,
    config.motionWeight, config.registrationWeight]

/-- A configuration over the rationals. -/
def Config.IsRational (config : Config) : Prop :=
  ∀ number ∈ config.scoringNumbers, number.isFinite = true

/-- The condition under which `evaluate` scores the freshness of the updates. -/
def Monitor.updateScored [Rounding] (monitor : Monitor) (now : Time) : Bool :=
  monitor.haveOdometry && monitor.havePose && (monitor.updateAge now).isFinite

/-- `weighted_score` and `available_weight`, as `evaluate` adds them up. -/
def Monitor.accumulate [Rounding] (config : Config) (monitor : Monitor) (now : Time) :
    Double × Double :=
  let update : Double × Double :=
    if monitor.updateScored now then
      ((Double.fin 0).add
          (config.updateWeight.mul (freshnessScore (monitor.updateAge now) config.poseTimeoutSec)),
        (Double.fin 0).add config.updateWeight)
    else (.fin 0, .fin 0)
  let motion :=
    if monitor.motionSampleValid then
      (update.1.add (config.motionWeight.mul (monitor.motionScore config)),
        update.2.add config.motionWeight)
    else update
  if monitor.registrationScored config now then
    (motion.1.add (config.registrationWeight.mul (monitor.registrationScore config)),
      motion.2.add config.registrationWeight)
  else motion

/-- The divisors of one evaluation: that of the freshness, those of the motion, those of the
registration, and the sum of the weights. -/
def Monitor.divisors [Rounding] (config : Config) (monitor : Monitor) (now : Time) :
    List Double :=
  (if monitor.updateScored now then
    [config.poseTimeoutSec.sub (config.poseTimeoutSec.mul (.ofRat (1 / 2)))] else []) ++
  (if monitor.motionSampleValid then
    [config.maxLinearVelocityMps, radians config.maxAngularVelocityDps, .ofRat (2 / 10)] else []) ++
  (if monitor.registrationScored config now then
    [(Double.fin 1).sub config.minRegistrationFitness, config.maxRegistrationResidualM]
   else []) ++
  (if (Double.fin 0).lt (monitor.accumulate config now).2 then
    [(monitor.accumulate config now).2] else [])

/-- The two scores that the score of a registration is made of. -/
def Monitor.fitnessScore [Rounding] (config : Config) (monitor : Monitor) : Double :=
  clamp01 ((monitor.registration.fitness.sub config.minRegistrationFitness).div
    ((Double.fin 1).sub config.minRegistrationFitness))

def Monitor.residualScore [Rounding] (config : Config) (monitor : Monitor) : Double :=
  clamp01
    ((Double.fin 1).sub (monitor.registration.meanResidual.div config.maxRegistrationResidualM))

/-- The scores that one evaluation computes. -/
def Monitor.scores [Rounding] (config : Config) (monitor : Monitor) (now : Time) :
    List Double :=
  (if monitor.updateScored now then
    [freshnessScore (monitor.updateAge now) config.poseTimeoutSec] else []) ++
  (if monitor.motionSampleValid then [monitor.motionScore config] else []) ++
  (if monitor.registrationScored config now then
    [monitor.fitnessScore config, monitor.residualScore config, monitor.registrationScore config]
   else [])

/-- The two sums of `evaluate` run over the same metrics: those that are available. -/
theorem accumulate_eq [Rounding] (config : Config) (monitor : Monitor) (now : Time) :
    monitor.accumulate config now =
      (weightedScore (monitor.metrics config now),
        availableWeight (monitor.metrics config now)) := by
  unfold Monitor.accumulate Monitor.metrics Monitor.updateScored
  dsimp only
  split_ifs <;> rfl

/-! ## Divisors -/

/-- A positive rational. -/
def Positive (number : Double) : Prop := ∃ q : ℚ, number = .fin q ∧ 0 < q

theorem positive_of_limit {limit : Double} (hfinite : limit.isFinite = true)
    (hlimit : limit.le (.fin 0) = false) : Positive limit := by
  obtain ⟨q, rfl⟩ := Double.exists_of_isFinite hfinite
  exact ⟨q, rfl, by simpa using hlimit⟩

section Exact

variable [Rounding] [IsExact]

theorem positive_freshness {timeout : Double} (htimeout : Positive timeout) :
    Positive (timeout.sub (timeout.mul (.ofRat (1 / 2)))) := by
  obtain ⟨q, rfl, hq⟩ := htimeout
  refine ⟨q - q * (1 / 2), ?_, by linarith⟩
  rw [Double.ofRat_eq, Double.mul_fin_fin, Double.sub_fin_fin]

theorem positive_radians {degrees : Double} (hdegrees : Positive degrees) :
    Positive (radians degrees) := by
  obtain ⟨q, rfl, hq⟩ := hdegrees
  refine ⟨q * kPi / 180, ?_, div_pos (mul_pos hq kPi_pos) (by norm_num)⟩
  rw [radians, Double.mul_fin_fin, Double.div_fin_fin _ (by norm_num)]

theorem positive_fitness {fitness : Double} (hfinite : fitness.isFinite = true)
    (hfitness : (Double.fin 1).le fitness = false) : Positive ((Double.fin 1).sub fitness) := by
  obtain ⟨q, rfl⟩ := Double.exists_of_isFinite hfinite
  have hq : q < 1 := by simpa using hfitness
  exact ⟨1 - q, Double.sub_fin_fin 1 q, by linarith⟩

section Rational

variable {config : Config} (hconfig : Checked config) (hrational : config.IsRational)

include hconfig hrational

theorem positive_divisors {monitor : Monitor} {now : Time} (divisor : Double)
    (hdivisor : divisor ∈ monitor.divisors config now)
    (hweight : (monitor.accumulate config now).2.isFinite = true) : Positive divisor := by
  have hfinite : ∀ number ∈ config.scoringNumbers, number.isFinite = true := hrational
  simp only [Config.scoringNumbers, List.forall_mem_cons] at hfinite
  obtain ⟨hpose, hlinear, hangular, hfitness, hresidual, -⟩ := hfinite
  simp only [Monitor.divisors, List.mem_append] at hdivisor
  obtain ((hupdate | hmotion) | hregistration) | htotal := hdivisor
  · split_ifs at hupdate
    · rw [List.mem_singleton.mp hupdate]
      exact positive_freshness (positive_of_limit hpose hconfig.poseTimeout)
    · cases hupdate
  · split_ifs at hmotion
    · simp only [List.mem_cons, List.not_mem_nil, or_false] at hmotion
      obtain rfl | rfl | rfl := hmotion
      · exact positive_of_limit hlinear hconfig.linearVelocity
      · exact positive_radians (positive_of_limit hangular hconfig.angularVelocity)
      · exact ⟨2 / 10, Double.ofRat_eq _, by norm_num⟩
    · cases hmotion
  · split_ifs at hregistration
    · simp only [List.mem_cons, List.not_mem_nil, or_false] at hregistration
      obtain rfl | rfl := hregistration
      · exact positive_fitness hfitness hconfig.fitnessBelowOne
      · exact positive_of_limit hresidual hconfig.residual
    · cases hregistration
  · split_ifs at htotal with hpositive
    · rw [List.mem_singleton.mp htotal]
      obtain ⟨q, hq⟩ := Double.exists_of_isFinite hweight
      exact ⟨q, hq, by simpa [hq] using hpositive⟩
    · cases htotal

end Rational

end Exact

/-! ## Scores -/

/-- A rational between zero and one. -/
def UnitRational (score : Double) : Prop := ∃ q : ℚ, score = .fin q ∧ 0 ≤ q ∧ q ≤ 1

theorem unitRational_clamp01 (q : ℚ) : UnitRational (clamp01 (.fin q)) := by
  rw [clamp01_fin]
  exact ⟨_, rfl, le_max_left _ _, max_le zero_le_one (min_le_right _ _)⟩

theorem unitRational_zero : UnitRational (.fin 0) := ⟨0, rfl, le_rfl, zero_le_one⟩

theorem unitRational_one : UnitRational (.fin 1) := ⟨1, rfl, zero_le_one, le_rfl⟩

/-! ### What is measured -/

/-- A report kept as valid has numbers in it. -/
structure FiniteReport (report : RegistrationQuality) : Prop where
  fitness : report.fitness.isFinite = true
  residual : report.meanResidual.isFinite = true

/-- What a monitor has measured is over the rationals. -/
structure Monitor.IsRational (monitor : Monitor) : Prop where
  linear : monitor.linearVelocity.isFinite = true
  angular : monitor.angularVelocity.isFinite = true
  report : monitor.registration.valid = true → FiniteReport monitor.registration

section Observers

variable {monitor : Monitor} (h : monitor.IsRational)

include h

theorem Monitor.IsRational.observeRegistration (message : RegistrationQuality)
    (receiptTime : Time) : (monitor.observeRegistration message receiptTime).IsRational := by
  refine ⟨h.linear, h.angular, fun hvalid ↦ ?_⟩
  simp only [Monitor.observeRegistration] at hvalid ⊢
  split_ifs at hvalid ⊢ with hmalformed
  have hnot : RegistrationQuality.malformed message = false := by simpa [hvalid] using hmalformed
  simp only [RegistrationQuality.malformed, Bool.or_eq_false_iff, Bool.not_eq_false'] at hnot
  exact ⟨hnot.1.1.1, hnot.1.1.2⟩

variable [Rounding]

theorem Monitor.IsRational.observePose (message : StampedPose) (receiptTime : Time) :
    (monitor.observePose message receiptTime).IsRational := by
  unfold Monitor.observePose
  cases finitePose message.pose <;> exact ⟨h.linear, h.angular, h.report⟩

theorem Monitor.IsRational.observeCorrection (config : Config) (math : Cmath)
    (message : StampedPose) (receiptTime : Time) :
    (monitor.observeCorrection config math message receiptTime).IsRational := by
  unfold Monitor.observeCorrection Monitor.measureCorrection
  cases finitePose message.pose with
  | none => exact ⟨h.linear, h.angular, h.report⟩
  | some pose =>
    dsimp only
    split_ifs <;> exact ⟨h.linear, h.angular, h.report⟩

theorem Monitor.IsRational.evaluate (config : Config) (mapFrame : String) (now : Time)
    (context : Context) : (monitor.evaluate config mapFrame now context).1.IsRational := by
  unfold Monitor.evaluate
  dsimp only
  split_ifs <;> exact ⟨h.linear, h.angular, h.report⟩

end Observers

/-! ### Partial scores -/

section ExactScores

variable [Rounding] [IsExact]

theorem unitRational_freshnessScore (age : Double) {timeout : Double}
    (htimeout : Positive timeout) :
    UnitRational (freshnessScore age timeout) := by
  obtain ⟨limit, rfl, hlimit⟩ := htimeout
  unfold freshnessScore
  dsimp only
  split_ifs with hstale
  · exact unitRational_zero
  · exact unitRational_one
  · cases age with
    | nan => simp at hstale
    | inf negative => simp [Double.isFinite] at hstale
    | fin age =>
      have hne : limit - limit * (1 / 2) ≠ 0 := by linarith
      rw [Double.ofRat_eq, Double.mul_fin_fin, Double.sub_fin_fin, Double.sub_fin_fin,
        Double.div_fin_fin _ hne]
      exact unitRational_clamp01 _

theorem norm3_eq (math : Cmath) (first second : Point ℚ) :
    ∃ distance : ℚ, norm3 math first second = .fin distance := by
  refine ⟨math.sqrt ((first.x - second.x) * (first.x - second.x) +
    (first.y - second.y) * (first.y - second.y) + (first.z - second.z) * (first.z - second.z)), ?_⟩
  unfold norm3
  simp only [Double.sub_fin_fin, Double.mul_fin_fin, Double.add_fin_fin]
  exact if_neg (not_lt.mpr (add_nonneg (add_nonneg (mul_self_nonneg _) (mul_self_nonneg _))
    (mul_self_nonneg _)))

theorem yawDifference_eq (math : Cmath) (current previous : Pose ℚ) :
    ∃ angle : ℚ, yawDifference math current previous = .fin angle := by
  have hyaw (orientation : Quaternion ℚ) : YawDefined orientation := by
    rw [YawDefined, Double.mul_fin_fin, Double.mul_fin_fin, Double.add_fin_fin]
    exact nofun
  obtain ⟨a, ha, -⟩ := isAngle_yawFromQuaternion math (hyaw current.orientation)
  obtain ⟨b, hb, -⟩ := isAngle_yawFromQuaternion math (hyaw previous.orientation)
  refine ⟨|math.atan2 (math.sin (a - b)) (math.cos (a - b))|, ?_⟩
  rw [yawDifference, wrappedAngleDifference, ha, hb, Double.sub_fin_fin]
  rfl

section Motion

variable {monitor : Monitor} (h : monitor.IsRational)

include h

theorem Monitor.IsRational.measureMotion (config : Config) (math : Cmath) (stamp : Time)
    (pose : Pose ℚ) : (monitor.measureMotion config math stamp pose).IsRational := by
  obtain ⟨distance, hdistance⟩ := norm3_eq math pose.position monitor.lastOdometryPose.position
  obtain ⟨angle, hangle⟩ := yawDifference_eq math pose monitor.lastOdometryPose
  unfold Monitor.measureMotion
  dsimp only
  split_ifs with hdelta
  · refine ⟨?_, ?_, h.report⟩
    · rw [hdistance, Double.div_fin_fin _ hdelta.ne']
      rfl
    · rw [hangle, Double.div_fin_fin _ hdelta.ne']
      rfl
  · exact ⟨h.linear, h.angular, h.report⟩

theorem Monitor.IsRational.observeOdometry (config : Config) (math : Cmath)
    (message : StampedPose) (receiptTime : Time) :
    (monitor.observeOdometry config math message receiptTime).IsRational := by
  have hcleared : ({ monitor with
      motionSampleFault := false
      motionFaultReason := ""
      motionSampleValid := false } : Monitor).IsRational :=
    ⟨h.linear, h.angular, h.report⟩
  unfold Monitor.observeOdometry
  cases finitePose message.pose with
  | none => exact ⟨h.linear, h.angular, h.report⟩
  | some pose =>
    dsimp only
    split_ifs
    · exact ⟨h.linear, h.angular, h.report⟩
    · have hmeasured := hcleared.measureMotion config math message.stamp pose
      exact ⟨hmeasured.linear, hmeasured.angular, hmeasured.report⟩
    · exact ⟨h.linear, h.angular, h.report⟩

end Motion

theorem isRational_run (setup : Setup) (events : List Event) : (setup.run events).IsRational := by
  induction events using List.reverseRecOn with
  | nil => exact ⟨rfl, rfl, nofun⟩
  | append_singleton events event ih =>
    rw [Setup.run_concat]
    cases event with
    | odometry message receiptTime => exact ih.observeOdometry ..
    | pose message receiptTime => exact ih.observePose ..
    | correction message receiptTime => exact ih.observeCorrection ..
    | registration message receiptTime => exact ih.observeRegistration ..
    | reset => exact ⟨rfl, rfl, ih.report⟩
    | evaluate now context => exact ih.evaluate ..

theorem unitRational_motionScore {config : Config} {monitor : Monitor}
    (hmonitor : monitor.IsRational) (hlinear : Positive config.maxLinearVelocityMps)
    (hangular : Positive (radians config.maxAngularVelocityDps)) :
    UnitRational (monitor.motionScore config) := by
  obtain ⟨linear, hlinear, hlinearPos⟩ := hlinear
  obtain ⟨angular, hangular, hangularPos⟩ := hangular
  obtain ⟨speed, hspeed⟩ := Double.exists_of_isFinite hmonitor.linear
  obtain ⟨turn, hturn⟩ := Double.exists_of_isFinite hmonitor.angular
  unfold Monitor.motionScore
  dsimp only
  rw [hlinear, hangular, hspeed, hturn, Double.div_fin_fin _ hlinearPos.ne',
    Double.div_fin_fin _ hangularPos.ne', Double.max_fin_fin, Double.sub_fin_fin]
  split_ifs
  · exact unitRational_one
  · rw [Double.ofRat_eq (2 / 10), Double.div_fin_fin _ (by norm_num)]
    exact unitRational_clamp01 _

theorem unitRational_fitnessScore {config : Config} {monitor : Monitor}
    (hreport : FiniteReport monitor.registration)
    (hfinite : config.minRegistrationFitness.isFinite = true)
    (hfitness : Positive ((Double.fin 1).sub config.minRegistrationFitness)) :
    UnitRational (monitor.fitnessScore config) := by
  obtain ⟨fitness, hfit⟩ := Double.exists_of_isFinite hreport.fitness
  obtain ⟨limit, hlimit⟩ := Double.exists_of_isFinite hfinite
  obtain ⟨range, hrange, hpositive⟩ := hfitness
  have hquotient : monitor.fitnessScore config = clamp01 (.fin ((fitness - limit) / range)) := by
    calc
      monitor.fitnessScore config = clamp01 ((Double.fin (fitness - limit)).div (.fin range)) := by
        rw [Monitor.fitnessScore, hrange, hfit, hlimit, Double.sub_fin_fin]
      _ = clamp01 (.fin ((fitness - limit) / range)) := by
        rw [Double.div_fin_fin _ hpositive.ne']
  rw [hquotient]
  exact unitRational_clamp01 _

theorem unitRational_residualScore {config : Config} {monitor : Monitor}
    (hreport : FiniteReport monitor.registration)
    (hresidual : Positive config.maxRegistrationResidualM) :
    UnitRational (monitor.residualScore config) := by
  obtain ⟨residual, hres⟩ := Double.exists_of_isFinite hreport.residual
  obtain ⟨limit, hlimit, hpositive⟩ := hresidual
  have hquotient : monitor.residualScore config = clamp01 (.fin (1 - residual / limit)) := by
    calc
      monitor.residualScore config =
          clamp01 ((Double.fin 1).sub ((Double.fin residual).div (.fin limit))) := by
        rw [Monitor.residualScore, hlimit, hres]
      _ = clamp01 (.fin (1 - residual / limit)) := by
        rw [Double.div_fin_fin _ hpositive.ne', Double.sub_fin_fin]
  rw [hquotient]
  exact unitRational_clamp01 _

theorem unitRational_registrationScore {config : Config} {monitor : Monitor}
    (hfitness : UnitRational (monitor.fitnessScore config))
    (hresidual : UnitRational (monitor.residualScore config)) :
    UnitRational (monitor.registrationScore config) := by
  have hscore : monitor.registrationScore config =
      if !monitor.registration.accepted then .fin 0
      else ((Double.ofRat (7 / 10)).mul (monitor.fitnessScore config)).add
        ((Double.ofRat (3 / 10)).mul (monitor.residualScore config)) := rfl
  obtain ⟨p, hp, hp0, hp1⟩ := hfitness
  obtain ⟨q, hq, hq0, hq1⟩ := hresidual
  rw [hscore, hp, hq]
  split_ifs
  · exact unitRational_zero
  · refine ⟨7 / 10 * p + 3 / 10 * q, ?_, by linarith, by linarith⟩
    rw [Double.ofRat_eq, Double.ofRat_eq, Double.mul_fin_fin, Double.mul_fin_fin,
      Double.add_fin_fin]

end ExactScores

/-! ## Evaluations -/

/-- The scores that are available, each with its weight: rationals, no weight below zero and every
score between zero and one. -/
structure RationalTerms (metrics : List (Double × Double)) (terms : List (ℚ × ℚ)) : Prop where
  metrics_eq : metrics = terms.map fun term ↦ (.fin term.1, .fin term.2)
  weights : ∀ term ∈ terms, 0 ≤ term.1
  scores : ∀ term ∈ terms, 0 ≤ term.2 ∧ term.2 ≤ 1

/-- The sum of the weights. -/
def totalWeight (terms : List (ℚ × ℚ)) : ℚ := (terms.map Prod.fst).sum

/-- The scores, each with its share of the weights, added up. -/
def convexSum (terms : List (ℚ × ℚ)) : ℚ :=
  (terms.map fun term ↦ term.1 / totalWeight terms * term.2).sum

/-- The arithmetic of one evaluation over the rationals. -/
structure ScoringDefined [Rounding] (config : Config) (monitor : Monitor) (now : Time)
    (context : Context) : Prop where
  divisors : ∀ divisor ∈ monitor.divisors config now, ∃ q : ℚ, divisor = .fin q ∧ 0 < q
  scores : ∀ score ∈ monitor.scores config now, ∃ q : ℚ, score = .fin q ∧ 0 ≤ q ∧ q ≤ 1
  confidence : (monitor.assess config now context).critical = false →
    (Double.fin 0).lt (monitor.accumulate config now).2 = true →
    (monitor.assess config now context).confidence =
      (monitor.accumulate config now).1.div (monitor.accumulate config now).2
  convex : (Double.fin 0).lt (monitor.accumulate config now).2 = true →
    ∃ terms, RationalTerms (monitor.metrics config now) terms ∧ 0 < totalWeight terms ∧
      (terms.map fun term ↦ term.1 / totalWeight terms).sum = 1 ∧
      (monitor.accumulate config now).1.div (monitor.accumulate config now).2 =
        .fin (convexSum terms) ∧
      0 ≤ convexSum terms ∧ convexSum terms ≤ 1

/-! ### The two sums -/

section Terms

variable {metrics : List (Double × Double)} {terms : List (ℚ × ℚ)}

theorem exists_rationalTerms
    (h : ∀ metric ∈ metrics, (∃ w : ℚ, metric.1 = .fin w ∧ 0 ≤ w) ∧ UnitRational metric.2) :
    ∃ terms, RationalTerms metrics terms := by
  induction metrics with
  | nil => exact ⟨[], rfl, nofun, nofun⟩
  | cons metric metrics ih =>
    obtain ⟨terms, hterms⟩ := ih fun other hother ↦ h other (List.mem_cons_of_mem _ hother)
    obtain ⟨⟨w, hw, hw0⟩, q, hq, hq0, hq1⟩ := h metric List.mem_cons_self
    refine ⟨(w, q) :: terms, ?_, ?_, ?_⟩
    · rw [List.map_cons, ← hterms.metrics_eq, ← hw, ← hq]
    · exact List.forall_mem_cons.mpr ⟨hw0, hterms.weights⟩
    · exact List.forall_mem_cons.mpr ⟨⟨hq0, hq1⟩, hterms.scores⟩

section Sums

variable [Rounding] [IsExact]

theorem foldl_add_fin (f : ℚ × ℚ → ℚ) (terms : List (ℚ × ℚ)) (start : ℚ) :
    terms.foldl (fun total term ↦ total.add (.fin (f term))) (Double.fin start) =
      .fin (start + (terms.map f).sum) := by
  induction terms generalizing start with
  | nil => simp
  | cons term terms ih =>
    calc
      (term :: terms).foldl (fun total term ↦ total.add (.fin (f term))) (Double.fin start) =
          terms.foldl (fun total term ↦ total.add (.fin (f term))) (.fin (start + f term)) := by
        rw [List.foldl_cons, Double.add_fin_fin]
      _ = .fin (start + f term + (terms.map f).sum) := ih (start + f term)
      _ = .fin (start + ((term :: terms).map f).sum) := by
        rw [List.map_cons, List.sum_cons, add_assoc]

theorem RationalTerms.availableWeight (h : RationalTerms metrics terms) :
    availableWeight metrics = .fin (totalWeight terms) := by
  calc
    Quality.availableWeight metrics =
        terms.foldl (fun total term ↦ total.add (.fin term.1)) (.fin 0) := by
      rw [Quality.availableWeight, h.metrics_eq, List.foldl_map]
    _ = Double.fin (0 + (terms.map Prod.fst).sum) := foldl_add_fin Prod.fst terms 0
    _ = Double.fin (totalWeight terms) := by rw [zero_add, totalWeight]

theorem RationalTerms.weightedScore (h : RationalTerms metrics terms) :
    weightedScore metrics = .fin (terms.map fun term ↦ term.1 * term.2).sum := by
  calc
    Quality.weightedScore metrics =
        terms.foldl (fun total term ↦ total.add (.fin (term.1 * term.2))) (.fin 0) := by
      simp only [Quality.weightedScore, h.metrics_eq, List.foldl_map, Double.mul_fin_fin]
    _ = .fin (0 + (terms.map fun term ↦ term.1 * term.2).sum) :=
      foldl_add_fin (fun term ↦ term.1 * term.2) terms 0
    _ = .fin (terms.map fun term ↦ term.1 * term.2).sum := by rw [zero_add]

end Sums

theorem convexSum_eq (terms : List (ℚ × ℚ)) :
    convexSum terms = (terms.map fun term ↦ term.1 * term.2).sum / totalWeight terms := by
  have hterms : (terms.map fun term ↦ term.1 / totalWeight terms * term.2) =
      terms.map fun term ↦ term.1 * term.2 * (totalWeight terms)⁻¹ := by
    apply List.map_congr_left
    intro term _
    rw [div_mul_eq_mul_div, div_eq_mul_inv]
  calc
    convexSum terms = (terms.map fun term ↦ term.1 * term.2 * (totalWeight terms)⁻¹).sum :=
      congrArg List.sum hterms
    _ = (terms.map fun term ↦ term.1 * term.2).sum * (totalWeight terms)⁻¹ :=
      List.sum_map_mul_right ..
    _ = (terms.map fun term ↦ term.1 * term.2).sum / totalWeight terms :=
      (div_eq_mul_inv _ _).symm

theorem sum_shares (hpositive : 0 < totalWeight terms) :
    (terms.map fun term ↦ term.1 / totalWeight terms).sum = 1 := by
  calc
    (terms.map fun term ↦ term.1 / totalWeight terms).sum =
        (terms.map Prod.fst).sum * (totalWeight terms)⁻¹ := by
      rw [← List.sum_map_mul_right]
      rfl
    _ = 1 := mul_inv_cancel₀ hpositive.ne'

theorem RationalTerms.convexSum_mem (h : RationalTerms metrics terms)
    (hpositive : 0 < totalWeight terms) : 0 ≤ convexSum terms ∧ convexSum terms ≤ 1 := by
  rw [convexSum_eq]
  constructor
  · apply div_nonneg _ hpositive.le
    apply List.sum_nonneg
    intro product hproduct
    obtain ⟨term, hterm, rfl⟩ := List.mem_map.mp hproduct
    exact mul_nonneg (h.weights term hterm) (h.scores term hterm).1
  · rw [div_le_one hpositive]
    apply List.sum_le_sum
    intro term hterm
    exact mul_le_of_le_one_right (h.weights term hterm) (h.scores term hterm).2

end Terms

/-! ### The theorem -/

theorem nonneg_of_weight {weight : Double} (hfinite : weight.isFinite = true)
    (hweight : weight.lt (.fin 0) = false) : ∃ w : ℚ, weight = .fin w ∧ 0 ≤ w := by
  obtain ⟨w, rfl⟩ := Double.exists_of_isFinite hfinite
  exact ⟨w, rfl, by simpa using hweight⟩

/-- The scores that an evaluation may compute are rationals between zero and one. -/
structure RationalScores [Rounding] (config : Config) (monitor : Monitor) (now : Time) : Prop where
  freshness : UnitRational (freshnessScore (monitor.updateAge now) config.poseTimeoutSec)
  motion : UnitRational (monitor.motionScore config)
  fitness : monitor.registrationScored config now = true →
    UnitRational (monitor.fitnessScore config)
  residual : monitor.registrationScored config now = true →
    UnitRational (monitor.residualScore config)

section Rational

variable [Rounding] [IsExact] {config : Config} (hconfig : Checked config)
  (hrational : config.IsRational)

include hconfig hrational

theorem rationalScores {monitor : Monitor} (now : Time) (hmonitor : monitor.IsRational) :
    RationalScores config monitor now := by
  have hfinite : ∀ number ∈ config.scoringNumbers, number.isFinite = true := hrational
  simp only [Config.scoringNumbers, List.forall_mem_cons] at hfinite
  obtain ⟨hpose, hlinear, hangular, hfitness, hresidual, -⟩ := hfinite
  have hvalid (hscored : monitor.registrationScored config now = true) :
      FiniteReport monitor.registration := by
    simp only [Monitor.registrationScored, Bool.and_eq_true] at hscored
    exact hmonitor.report hscored.1.1.1.2
  constructor
  · exact unitRational_freshnessScore _ (positive_of_limit hpose hconfig.poseTimeout)
  · exact unitRational_motionScore hmonitor (positive_of_limit hlinear hconfig.linearVelocity)
      (positive_radians (positive_of_limit hangular hconfig.angularVelocity))
  · intro hscored
    exact unitRational_fitnessScore (hvalid hscored) hfitness
      (positive_fitness hfitness hconfig.fitnessBelowOne)
  · intro hscored
    exact unitRational_residualScore (hvalid hscored)
      (positive_of_limit hresidual hconfig.residual)

theorem rationalTerms_metrics {monitor : Monitor} {now : Time}
    (h : RationalScores config monitor now) :
    ∃ terms, RationalTerms (monitor.metrics config now) terms := by
  have hfinite : ∀ number ∈ config.scoringNumbers, number.isFinite = true := hrational
  simp only [Config.scoringNumbers, List.forall_mem_cons] at hfinite
  obtain ⟨-, -, -, -, -, hupdateWeight, hmotionWeight, hregistrationWeight, -⟩ := hfinite
  apply exists_rationalTerms
  intro metric hmetric
  simp only [Monitor.metrics, List.mem_append] at hmetric
  obtain (hupdate | hmoved) | hregistered := hmetric
  · split_ifs at hupdate
    · rw [List.mem_singleton.mp hupdate]
      exact ⟨nonneg_of_weight hupdateWeight hconfig.updateWeight, h.freshness⟩
    · cases hupdate
  · split_ifs at hmoved
    · rw [List.mem_singleton.mp hmoved]
      exact ⟨nonneg_of_weight hmotionWeight hconfig.motionWeight, h.motion⟩
    · cases hmoved
  · split_ifs at hregistered with hscored
    · rw [List.mem_singleton.mp hregistered]
      exact ⟨nonneg_of_weight hregistrationWeight hconfig.registrationWeight,
        unitRational_registrationScore (h.fitness hscored) (h.residual hscored)⟩
    · cases hregistered

end Rational

theorem RationalScores.scores [Rounding] [IsExact] {config : Config} {monitor : Monitor}
    {now : Time} (h : RationalScores config monitor now) (score : Double)
    (hscore : score ∈ monitor.scores config now) : UnitRational score := by
  simp only [Monitor.scores, List.mem_append] at hscore
  obtain (hupdate | hmoved) | hregistered := hscore
  · split_ifs at hupdate
    · rw [List.mem_singleton.mp hupdate]
      exact h.freshness
    · cases hupdate
  · split_ifs at hmoved
    · rw [List.mem_singleton.mp hmoved]
      exact h.motion
    · cases hmoved
  · split_ifs at hregistered with hscored
    · simp only [List.mem_cons, List.not_mem_nil, or_false] at hregistered
      obtain rfl | rfl | rfl := hregistered
      · exact h.fitness hscored
      · exact h.residual hscored
      · exact unitRational_registrationScore (h.fitness hscored) (h.residual hscored)
    · cases hregistered

/-- For every accepted configuration over the rationals and every history, the arithmetic of an
evaluation is defined: positive divisors, scores between zero and one, and a confidence that is the
convex combination of the scores available, so that the last clamp changes nothing. -/
theorem scoring_defined [Rounding] [IsExact] (setup : Setup) {document : Option QualityDocument}
    (hconfig : loadConfig document = .ok setup.config) (hrational : setup.config.IsRational)
    (events : List Event) (now : Time) (context : Context) :
    ScoringDefined setup.config (setup.run events) now context := by
  have hchecked := checked_of_loadConfig hconfig
  have hrationals := rationalScores hchecked hrational now (isRational_run setup events)
  generalize setup.run events = monitor at hrationals
  obtain ⟨terms, hterms⟩ := rationalTerms_metrics hchecked hrational hrationals
  have hweight : (monitor.accumulate setup.config now).2 = .fin (totalWeight terms) := by
    rw [accumulate_eq]
    exact hterms.availableWeight
  have hscore : (monitor.accumulate setup.config now).1 =
      .fin (terms.map fun term ↦ term.1 * term.2).sum := by
    rw [accumulate_eq]
    exact hterms.weightedScore
  constructor
  · intro divisor hdivisor
    exact positive_divisors hchecked hrational divisor hdivisor (by rw [hweight]; rfl)
  · exact hrationals.scores
  · intro hcritical hpositive
    have hnot : ¬(monitor.assess setup.config now context).critical = true := by simp [hcritical]
    rw [accumulate_eq] at hpositive ⊢
    rw [assess_confidence hchecked, if_neg hnot, averageScore, if_pos hpositive]
  · intro hpositive
    have htotal : 0 < totalWeight terms := by simpa [hweight] using hpositive
    refine ⟨terms, hterms, htotal, sum_shares htotal, ?_, hterms.convexSum_mem htotal⟩
    rw [hweight, hscore, Double.div_fin_fin _ htotal.ne', convexSum_eq]

/-- The shipped configuration is over the rationals. -/
theorem scoring_defined_firstSamples :
    @ScoringDefined Rounding.exact exactConfig
      (@Setup.run Rounding.exact { defaultSetup with config := exactConfig }
        [.odometry originPose 0, .pose originPose 0, .correction originPose 0]) 0 fullContext :=
  @scoring_defined Rounding.exact isExact_exact { defaultSetup with config := exactConfig } _
    loadConfig_exactConfig (by unfold Config.IsRational; decide) _ 0 fullContext

end SlamSystemManager.Quality
