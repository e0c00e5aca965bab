import SlamSystemManager.Quality.Silence

/-!
# Full scores

What the partial scores are when everything is as good as it can be: samples received at the time
of the evaluation, a motion well within the limits and a report with full fitness and no residual.
Every such score is one, unless a NaN among the limits makes it a NaN. Rounding does not spoil this:
a difference that is not zero does not round to zero, and the two weights of the registration score
round to values that sum up to one.
-/

open ConsecutiveRuns Numeric Numeric.Rounding

namespace SlamSystemManager.Quality

/-! ## Limits -/

/-- A limit that has passed its check does not lie below zero. -/
theorem lt_zero_of_le_zero {limit : Double} (h : limit.le (.fin 0) = false) :
    limit.lt (.fin 0) = false := by
  cases limit with
  | nan => rfl
  | inf negative => exact h
  | fin limit =>
    have hpos : 0 < limit := by simpa using h
    simpa using hpos.le

/-- What is read and passes a check for a positive value. -/
theorem notNegative_of_le_zero {limit : Double} (h : limit.le (.fin 0) = false)
    (hnan : limit ≠ .nan) : limit.NotNegative := by
  cases limit with
  | nan => exact absurd rfl hnan
  | inf negative =>
    cases negative with
    | false => rfl
    | true => cases h
  | fin limit =>
    have hpos : 0 < limit := by simpa using h
    exact Double.notNegative_fin hpos.le

section Scores

variable [Rounding]

/-- In radians an accepted limit may vanish, but it does not become negative. -/
theorem radians_lt_zero {degrees : Double} (h : degrees.le (.fin 0) = false) :
    (radians degrees).lt (.fin 0) = false := by
  by_cases hnan : degrees = .nan
  · rw [hnan]
    rfl
  · exact (notNegative_radians (notNegative_of_le_zero h hnan)).lt_zero

/-! ## The three scores -/

theorem ofRat_half : Double.ofRat (1 / 2) = .fin (1 / 2) := by
  apply Double.ofRat_of_representable
  have hkept := nearest_dyadic 1 (-1) (by norm_num) (by norm_num)
  norm_num at hkept
  refine ⟨by norm_num [hkept], overflows_eq_false ?_ representable_one.inRange⟩
  norm_num

theorem freshnessScore_nan {age : ℚ} (hage : 0 ≤ age) :
    freshnessScore (.fin age) .nan = .nan := by
  simp [freshnessScore, Double.mul, Double.sub, Double.add, Double.div, clamp01, Double.clamp,
    not_lt.mpr hage]

theorem freshnessScore_zero {timeout : Double} (h : timeout.le (.fin 0) = false)
    (hnan : timeout ≠ .nan) : freshnessScore (.fin 0) timeout = .fin 1 := by
  have hfull : (timeout.mul (.ofRat (1 / 2))).NotNegative := by
    rw [ofRat_half]
    exact (notNegative_of_le_zero h hnan).mul (by norm_num)
  unfold freshnessScore
  simp only [Double.isFinite_fin, Double.lt_fin_fin, h]
  exact if_pos hfull

/-- A linear limit that is a NaN spoils the score of every motion. -/
theorem motionScore_nan {config : Config} (h : config.maxLinearVelocityMps = .nan)
    (monitor : Monitor) : monitor.motionScore config = .nan := by
  simp [Monitor.motionScore, h, clamp01, Double.clamp]

/-- No ratio of the motion exceeds four fifths of its limit. -/
def Monitor.Steady (config : Config) (monitor : Monitor) : Prop :=
  (monitor.linearVelocity.div config.maxLinearVelocityMps).le (.ofRat (8 / 10)) = true ∧
    (monitor.angularVelocity.div (radians config.maxAngularVelocityDps)).le
      (.ofRat (8 / 10)) = true

theorem motionScore_of_steady {config : Config} {monitor : Monitor} (h : monitor.Steady config) :
    monitor.motionScore config = .fin 1 := by
  have hratio : ((monitor.linearVelocity.div config.maxLinearVelocityMps).max
      (monitor.angularVelocity.div (radians config.maxAngularVelocityDps))).le
        (.ofRat (8 / 10)) = true := by
    unfold Double.max
    split_ifs
    · exact h.2
    · exact h.1
  exact if_pos hratio

theorem zero_div_limit {limit : Double} (h : limit.le (.fin 0) = false) (hnan : limit ≠ .nan) :
    (Double.fin 0).div limit = .fin 0 := by
  cases limit with
  | nan => exact absurd rfl hnan
  | inf negative => rfl
  | fin limit =>
    have hpos : 0 < limit := by simpa using h
    simp [Double.div, hpos.ne']

/-- `std::max` keeps its first argument when the second is a NaN. -/
theorem max_zero_div (limit : Double) : (Double.fin 0).max ((Double.fin 0).div limit) = .fin 0 := by
  cases limit with
  | nan => rfl
  | inf negative => rfl
  | fin limit =>
    by_cases hzero : limit = 0
    · simp [Double.div, Double.max, hzero]
    · simp [Double.div, Double.max, hzero]

/-- A ratio of zero is within four fifths. -/
theorem zero_le_fourFifths : (Double.fin 0).le (.ofRat (8 / 10)) = true :=
  Double.notNegative_ofRat (by norm_num)

/-- At rest an angular limit that is a NaN or vanishes in radians does no harm. -/
theorem motionScore_of_rest {config : Config} (hconfig : Checked config)
    (hlimit : config.maxLinearVelocityMps ≠ .nan) {monitor : Monitor}
    (hlinear : monitor.linearVelocity = .fin 0) (hangular : monitor.angularVelocity = .fin 0) :
    monitor.motionScore config = .fin 1 := by
  unfold Monitor.motionScore
  dsimp only
  rw [hlinear, hangular, zero_div_limit hconfig.linearVelocity hlimit, max_zero_div]
  exact if_pos zero_le_fourFifths

theorem registrationScore_nan {config : Config} {monitor : Monitor}
    (haccepted : monitor.registration.accepted = true)
    (h : config.minRegistrationFitness = .nan ∨ config.maxRegistrationResidualM = .nan) :
    monitor.registrationScore config = .nan := by
  have hclampNan : clamp01 .nan = .nan := rfl
  unfold Monitor.registrationScore
  obtain hfitness | hresidual := h
  · simp [haccepted, hfitness, hclampNan]
  · simp [haccepted, hresidual, hclampNan]

/-- A report with full fitness and no residual. -/
structure Perfect (report : RegistrationQuality) : Prop where
  valid : report.valid = true
  accepted : report.accepted = true
  fitness : report.fitness = .fin 1
  residual : report.meanResidual = .fin 0

theorem registrationScore_of_perfect {config : Config} (hconfig : Checked config)
    {monitor : Monitor} (h : Perfect monitor.registration)
    (hfitness : config.minRegistrationFitness ≠ .nan)
    (hresidual : config.maxRegistrationResidualM ≠ .nan) :
    monitor.registrationScore config = .fin 1 := by
  have hfitnessScore : ((Double.fin 1).sub config.minRegistrationFitness).div
      ((Double.fin 1).sub config.minRegistrationFitness) = .fin 1 := by
    have hlow := hconfig.fitnessNotNegative
    have hhigh := hconfig.fitnessBelowOne
    have hvalue := hconfig.values config.minRegistrationFitness (by simp [Config.numbers])
    cases hmin : config.minRegistrationFitness with
    | nan => exact absurd hmin hfitness
    | inf negative => cases negative <;> simp [hmin, Double.lt, Double.le] at hlow hhigh
    | fin q =>
      have hq0 : 0 ≤ q := by simpa [hmin] using hlow
      have hbelow : q < 1 := by simpa [hmin] using hhigh
      obtain ⟨hrest, -, -⟩ := Double.ofRat_of_mem representable_one (sub_nonneg.mpr hbelow.le)
        (sub_le_self 1 hq0)
      have hpos : 0 < nearest (1 - q) :=
        nearest_sub_pos (hvalue q hmin).nearest_eq nearest_one hbelow
      rw [Double.sub_fin, hrest, Double.div_fin _ hpos.ne', div_self hpos.ne', Double.ofRat_one]
  have hresidualScore : (Double.fin 1).sub ((Double.fin 0).div config.maxRegistrationResidualM) =
      .fin 1 := by
    rw [zero_div_limit hconfig.residual hresidual, Double.sub_fin, sub_zero, Double.ofRat_one]
  have hclampOne : clamp01 (.fin 1) = .fin 1 :=
    clamp01_of_unitScore (unitScore_fin zero_le_one le_rfl)
  have hweights : ((Double.ofRat (7 / 10)).mul (.fin 1)).add
      ((Double.ofRat (3 / 10)).mul (.fin 1)) = .fin 1 := by
    have hsum := nearest_tenths 7 (by norm_num)
    norm_num at hsum
    rw [Double.mul_fin_one (Double.isValue_ofRat _), Double.mul_fin_one (Double.isValue_ofRat _),
      Double.ofRat_of_inRange (overflows_nearest (m := 1) (by norm_num) (by norm_num [abs_le])),
      Double.ofRat_of_inRange (overflows_nearest (m := 1) (by norm_num) (by norm_num [abs_le])),
      Double.add_fin, Double.ofRat_of_inRange, hsum]
    rw [hsum]
    exact representable_one.inRange
  unfold Monitor.registrationScore
  simp only [h.accepted, h.fitness, h.residual, hfitnessScore, hresidualScore, hclampOne]
  exact hweights

end Scores

/-! ## Samples received now -/

/-- Every stream holds a sample without a fault, received now. -/
structure Monitor.Fresh (monitor : Monitor) (now : Time) : Prop where
  haveOdometry : monitor.haveOdometry = true
  havePose : monitor.havePose = true
  haveCorrection : monitor.haveCorrection = true
  odometryReceipt : monitor.lastOdometryReceipt = now
  poseReceipt : monitor.lastPoseReceipt = now
  correctionReceipt : monitor.lastCorrectionReceipt = now
  motion : monitor.motionSampleFault = false
  pose : monitor.poseSampleFault = false
  correction : monitor.correctionSampleFault = false

/-- The monitor holds a perfect report, received now. -/
structure Monitor.Matched (monitor : Monitor) (now : Time) : Prop where
  haveRegistration : monitor.haveRegistration = true
  perfect : Perfect monitor.registration
  receipt : monitor.lastRegistrationReceipt = now

section Now

variable [Rounding] {config : Config} {monitor : Monitor} {now : Time}

theorem Monitor.Fresh.updateAge (h : monitor.Fresh now) : monitor.updateAge now = .fin 0 := by
  rw [updateAge_of_have h.haveOdometry h.havePose, h.odometryReceipt, h.poseReceipt,
    ageSeconds_self, max_self]

theorem Monitor.Fresh.correctionAge (h : monitor.Fresh now) :
    monitor.correctionAge now = .fin 0 := by
  rw [correctionAge_of_have h.haveCorrection, h.correctionReceipt, ageSeconds_self]

theorem Monitor.Matched.registrationAge (h : monitor.Matched now) :
    monitor.registrationAge now = .fin 0 := by
  rw [registrationAge_of_have h.haveRegistration, h.receipt, ageSeconds_self]

theorem Monitor.Fresh.sound (hconfig : Checked config) (h : monitor.Fresh now) :
    OthersSound config monitor now fullContext where
  alive := rfl
  healthy := rfl
  haveOdometry := h.haveOdometry
  havePose := h.havePose
  updateFinite := by rw [h.updateAge]; rfl
  updateNotNegative := by rw [h.updateAge]; rfl
  updateInTime := by rw [h.updateAge]; exact lt_zero_of_le_zero hconfig.poseTimeout
  motion := h.motion
  pose := h.pose
  haveCorrection := h.haveCorrection
  correctionFinite := by rw [h.correctionAge]; rfl
  correctionNotNegative := by rw [h.correctionAge]; rfl
  correctionInTime := by rw [h.correctionAge]; exact lt_zero_of_le_zero hconfig.correctionTimeout
  correction := h.correction

theorem registrationFault_of_have (h : monitor.haveRegistration = false) :
    monitor.registrationFault config now = none := by
  simp [Monitor.registrationFault, Monitor.registrationScored, h]

/-- Only a timeout that is a NaN keeps a perfect report from being scored. -/
theorem Monitor.Matched.scored (hconfig : Checked config) (h : monitor.Matched now) :
    monitor.registrationScored config now = decide (config.registrationTimeoutSec ≠ .nan) := by
  have htimeout := lt_zero_of_le_zero hconfig.registrationTimeout
  simp only [Monitor.registrationScored, h.haveRegistration, h.perfect.valid, h.registrationAge]
  by_cases hnan : config.registrationTimeoutSec = .nan
  · simp [hnan]
  · simp [hnan, Double.le_of_not_gt hnan htimeout]

theorem Monitor.Matched.registrationFault (hconfig : Checked config) (h : monitor.Matched now) :
    monitor.registrationFault config now = none := by
  have htimeout := lt_zero_of_le_zero hconfig.registrationTimeout
  have hresidual := lt_zero_of_le_zero hconfig.residual
  unfold Monitor.registrationFault
  simp [h.perfect.accepted, h.perfect.residual, h.registrationAge, htimeout, hresidual]

end Now

/-! ## A run of good frames -/

/-- A completed run of good frames at the end of the session makes LOCALIZED. -/
theorem localized_of_trailing [Rounding] {setup : Setup} (hcounts : FrameCountsValid setup.config)
    {events : List Event}
    (h : setup.config.goodFramesToRecover ≤ trailing Frame.isGood (setup.sessionFrames events)) :
    (setup.run events).hysteresis.state = .localized := by
  have hverdict := verdict_run hcounts (setup.sessionFrames events)
  rw [← hysteresis_eq_run_sessionFrames] at hverdict
  have hrecover := hcounts.recover_pos
  obtain hnil | ⟨frames, frame, hframes⟩ := List.eq_nil_or_concat (setup.sessionFrames events)
  · rw [hnil, trailing_nil] at h
    omega
  · rw [hframes, List.concat_eq_append] at h hverdict
    have hnotCritical : trailing Frame.isCritical (frames ++ [frame]) = 0 := by
      have hbad := (trailing_eq_zero_or Frame.isBad_eq_false_of_isGood
        (frames ++ [frame])).resolve_left (by omega)
      exact Nat.eq_zero_of_le_zero (hbad ▸ trailing_mono Frame.isBad_of_isCritical _)
    refine hverdict.localized.mpr ⟨?_, (localizedBy_concat ..).mpr (Or.inl h)⟩
    rw [lostBy_concat, hnotCritical]
    rintro (hlost | ⟨-, hshort⟩)
    · exact absurd hlost (not_le.mpr hcounts.lost_pos)
    · exact hshort h

/-- An evaluation that ends in LOCALIZED on a good frame calls the pose valid. -/
theorem poseValid_of_good [Rounding] {setup : Setup} {events : List Event} {now : Time}
    (hgood : setup.frameAt events now fullContext = .good)
    (hlocalized :
      (setup.run (events ++ [.evaluate now fullContext])).hysteresis.state = .localized) :
    (setup.run (events ++ [.evaluate now fullContext])).status.poseValid = true := by
  have hnotCritical := ((Assessment.frame_eq_good ..).mp hgood).1
  have hsound := (fault_eq_none_iff ..).mp ((assess_critical ..).mp hnotCritical).1
  rw [Setup.run_concat, Setup.apply] at hlocalized ⊢
  refine (poseValid_evaluate ..).mpr
    ⟨rfl, rfl, ?_, hnotCritical, hsound.motion, hsound.pose, hsound.correction⟩
  rw [hlocalized]
  exact ⟨by decide, by decide⟩

end SlamSystemManager.Quality
