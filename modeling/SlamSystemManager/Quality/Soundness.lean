import SlamSystemManager.Quality.Recovery
import SlamSystemManager.Quality.Streams

/-!
# What a valid pose guarantees

`PoseSound` is what a consumer of a valid pose relies on: the context flags hold, the latest
message of every required stream is recent and free of faults, and a registration report, if
there is one, agrees. `evaluate` only rules out that a value lies above its limit, so the
guarantee holds exactly when nothing it compares is a NaN: no limit, and no yaw of an orientation
whose products overflow.
-/

open Numeric

namespace SlamSystemManager.Quality

/-! ## The latest message of a stream -/

section Latest

variable [Rounding]

/-- The stored sample after one more message. -/
def nextSample (stored : Option Sample) (received : Received) : Option Sample :=
  match finitePose received.1.pose with
  | none => stored
  | some pose =>
    if stored.any fun previous ↦ decide (received.1.stamp ≤ previous.stamp) then stored
    else some ⟨pose, received.1.stamp, received.2⟩

/-- The sample that the messages of a stream leave stored. -/
def storedSample (messages : List Received) : Option Sample := messages.foldl nextSample none

@[simp] theorem storedSample_concat (messages : List Received) (received : Received) :
    storedSample (messages ++ [received]) = nextSample (storedSample messages) received := by
  simp [storedSample]

theorem sample_receive (exceeds : Sample → Pose ℚ → Time → Bool) (stream : Stream)
    (received : Received) :
    (stream.receive exceeds received).sample = nextSample stream.sample received := by
  unfold Stream.receive nextSample
  cases finitePose received.1.pose with
  | none => rfl
  | some pose =>
    cases hsample : stream.sample with
    | none => simp
    | some previous =>
      by_cases hstamp : received.1.stamp ≤ previous.stamp <;> simp [hstamp]

@[simp] theorem sample_ofMessages (exceeds : Sample → Pose ℚ → Time → Bool)
    (messages : List Received) :
    (Stream.ofMessages exceeds messages).sample = storedSample messages := by
  induction messages using List.reverseRecOn with
  | nil => rfl
  | append_singleton messages received ih =>
    rw [Stream.ofMessages_concat, sample_receive, ih, storedSample_concat]

/-- The latest message is finite with a valid quaternion, its receipt is recent, and compared with
the sample stored before it its stamp advances and its motion is `within` the limits. -/
def LatestSound (within : Sample → Pose ℚ → Time → Prop) (timeout : Double) (now : Time)
    (messages : List Received) : Prop :=
  ∃ earlier message receipt pose, messages = earlier ++ [(message, receipt)] ∧
    finitePose message.pose = some pose ∧
    (Double.fin (ageSeconds now receipt)).le timeout = true ∧
    ∀ previous ∈ storedSample earlier,
      previous.stamp < message.stamp ∧ within previous pose message.stamp

/-- A stream that has stored a sample and is not faulty stored its latest message. -/
theorem latest_of_not_faulty {exceeds : Sample → Pose ℚ → Time → Bool} {messages : List Received}
    {sample : Sample} (hsample : (Stream.ofMessages exceeds messages).sample = some sample)
    (hfaulty : (Stream.ofMessages exceeds messages).faulty = false) :
    ∃ earlier message, messages = earlier ++ [(message, sample.receipt)] ∧
      finitePose message.pose = some sample.pose ∧ sample.stamp = message.stamp ∧
      ∀ previous ∈ storedSample earlier,
        previous.stamp < message.stamp ∧ exceeds previous sample.pose message.stamp = false := by
  rcases List.eq_nil_or_concat messages with rfl | ⟨earlier, ⟨message, receipt⟩, rfl⟩
  · cases hsample
  · rw [List.concat_eq_append] at hsample hfaulty ⊢
    rw [Stream.ofMessages_concat] at hsample hfaulty
    refine ⟨earlier, message, ?_⟩
    unfold Stream.receive at hsample hfaulty
    rw [sample_ofMessages] at hsample hfaulty
    cases hpose : finitePose message.pose with
    | none => simp [hpose] at hfaulty
    | some pose =>
      cases hprevious : storedSample earlier with
      | none =>
        simp only [hpose, hprevious, Option.some.injEq] at hsample
        subst hsample
        simp
      | some previous =>
        by_cases hstamp : message.stamp ≤ previous.stamp
        · simp [hpose, hprevious, hstamp] at hfaulty
        · simp only [hpose, hprevious, hstamp, if_false, Option.some.injEq] at hsample hfaulty
          subst hsample
          simp [hfaulty, not_le.mp hstamp]

/-- The guarantee for such a stream, when what it compares are numbers: `within` is what not
exceeding comes to then. -/
theorem latestSound_iff {exceeds : Sample → Pose ℚ → Time → Bool}
    {within : Sample → Pose ℚ → Time → Prop} {comparable : Sample → Pose ℚ → Prop}
    (hwithin : ∀ previous pose stamp, previous.stamp < stamp →
      exceeds previous pose stamp = false →
      (within previous pose stamp ↔ comparable previous pose))
    {messages : List Received} {sample : Sample}
    (hsample : (Stream.ofMessages exceeds messages).sample = some sample)
    (hfaulty : (Stream.ofMessages exceeds messages).faulty = false) {timeout : Double}
    {now : Time} :
    LatestSound within timeout now messages ↔
      (Double.fin (ageSeconds now sample.receipt)).le timeout = true ∧
        ∀ previous ∈ storedSample messages.dropLast, comparable previous sample.pose := by
  obtain ⟨earlier, message, rfl, hpose, hstamp, hmotion⟩ := latest_of_not_faulty hsample hfaulty
  rw [List.dropLast_concat]
  constructor
  · rintro ⟨earlier', message', receipt', pose', hlast, hpose', hage, hsound⟩
    obtain ⟨hearlier, hreceived⟩ := List.append_inj' hlast rfl
    cases hearlier
    cases hreceived
    rw [hpose] at hpose'
    cases hpose'
    refine ⟨hage, fun previous hprevious ↦ ?_⟩
    obtain ⟨hnewer, hwithout⟩ := hmotion previous hprevious
    exact (hwithin _ _ _ hnewer hwithout).mp (hsound previous hprevious).2
  · rintro ⟨hage, hcomparable⟩
    refine ⟨earlier, message, sample.receipt, sample.pose, rfl, hpose, hage, fun previous h ↦ ?_⟩
    obtain ⟨hnewer, hwithout⟩ := hmotion previous h
    exact ⟨hnewer, (hwithin _ _ _ hnewer hwithout).mpr (hcomparable previous h)⟩

/-- The finite messages of the pose stream carry no stamp to compare. -/
theorem latest_of_pose_not_faulty {messages : List Received} {receipt : Time}
    (hreceipt : (PoseStream.ofMessages messages).receipt = some receipt)
    (hfaulty : (PoseStream.ofMessages messages).faulty = false) :
    ∃ earlier message pose, messages = earlier ++ [(message, receipt)] ∧
      finitePose message.pose = some pose := by
  rcases List.eq_nil_or_concat messages with rfl | ⟨earlier, ⟨message, last⟩, rfl⟩
  · cases hreceipt
  · rw [List.concat_eq_append] at hreceipt hfaulty ⊢
    rw [PoseStream.ofMessages_concat, PoseStream.receive] at hreceipt hfaulty
    cases hpose : finitePose message.pose with
    | none => simp [hpose] at hfaulty
    | some pose =>
      simp only [hpose, Option.some.injEq] at hreceipt
      exact ⟨earlier, message, pose, by rw [hreceipt], hpose⟩

/-! ## What the branches of `evaluate` establish -/

/-- None of the branches of the fault chain was taken. -/
structure FaultFree (config : Config) (monitor : Monitor) (now : Time) (context : Context) :
    Prop where
  alive : context.localizationProcessAlive = true
  healthy : context.sensorsHealthy = true
  haveOdometry : monitor.haveOdometry = true
  havePose : monitor.havePose = true
  updateAge : config.poseTimeoutSec.lt (monitor.updateAge now) = false
  haveCorrection : monitor.haveCorrection = true
  correctionAge : config.correctionTimeoutSec.lt (monitor.correctionAge now) = false

theorem faultFree_of_fault_eq_none {config : Config} {monitor : Monitor} {now : Time}
    {context : Context} (h : monitor.fault config now context = none) :
    FaultFree config monitor now context := by
  simp only [Monitor.fault, ite_some_eq_none, Bool.not_eq_true, Bool.not_eq_false',
    Bool.or_eq_false_iff] at h
  obtain ⟨halive, hhealthy, ⟨hodometry, hpose⟩, -, htimeout, -, -, hcorrection, hage, -⟩ := h
  exact ⟨halive, hhealthy, hodometry, hpose, htimeout, hcorrection, hage.2⟩

/-- The registration branches were not taken for a report that is held. -/
theorem registration_of_fault_eq_none {config : Config} {monitor : Monitor} {now : Time}
    (hhave : monitor.haveRegistration = true) (h : monitor.registrationFault config now = none) :
    0 ≤ ageSeconds now monitor.lastRegistrationReceipt ∧
      config.registrationTimeoutSec.lt
        (.fin (ageSeconds now monitor.lastRegistrationReceipt)) = false ∧
      (monitor.registration.valid = true → config.registrationTimeoutSec ≠ .nan →
        monitor.registration.accepted = true ∧
          config.maxRegistrationResidualM.lt monitor.registration.meanResidual = false) := by
  have hage : monitor.registrationAge now =
      .fin (ageSeconds now monitor.lastRegistrationReceipt) := by
    simp [Monitor.registrationAge, ageOf, hhave]
  unfold Monitor.registrationFault Monitor.registrationScored at h
  simp only [hage, hhave, Double.isFinite_fin, Double.le_fin_fin, Double.lt_fin_fin] at h
  split_ifs at h with hscored haccepted hresidual htimedOut
  · simp only [Bool.true_and, Bool.and_true, Bool.and_eq_true, decide_eq_true_eq] at hscored
    exact ⟨hscored.1.2, Double.gt_eq_false_of_le hscored.2,
      fun _ _ ↦ ⟨by simpa using haccepted, by simpa using hresidual⟩⟩
  · simp only [Bool.true_and, Bool.not_true, Bool.false_or, Bool.not_eq_true, Bool.or_eq_false_iff,
      decide_eq_false_iff_not, not_lt] at htimedOut
    refine ⟨htimedOut.1, htimedOut.2, fun hvalid hnan ↦ absurd ?_ hscored⟩
    simp [hvalid, htimedOut.1, Double.le_of_not_gt hnan htimedOut.2]

/-! ## The guarantee -/

def Setup.withinVelocity (setup : Setup) (previous : Sample) (pose : Pose ℚ) (stamp : Time) :
    Prop :=
  (previous.linearVelocity setup.math pose stamp).le setup.config.maxLinearVelocityMps = true ∧
    (previous.angularVelocity setup.math pose stamp).le
      (radians setup.config.maxAngularVelocityDps) = true

def Setup.withinJump (setup : Setup) (previous : Sample) (pose : Pose ℚ) (_stamp : Time) : Prop :=
  (norm3 setup.math pose.position previous.pose.position).le
      setup.config.maxCorrectionPositionJumpM = true ∧
    (yawDifference setup.math pose previous.pose).le
      (radians setup.config.maxCorrectionYawJumpDeg) = true

/-- What a consumer of a valid pose relies on. -/
structure PoseSound (setup : Setup) (events : List Event) (now : Time) (context : Context) :
    Prop where
  active : context.localizationActive = true
  initialized : context.localizationInitialized = true
  alive : context.localizationProcessAlive = true
  healthy : context.sensorsHealthy = true
  odometry : LatestSound setup.withinVelocity setup.config.poseTimeoutSec now
    (odometryMessages events)
  pose : ∃ earlier message receipt pose, poseMessages events = earlier ++ [(message, receipt)] ∧
    finitePose message.pose = some pose ∧
    (Double.fin (ageSeconds now receipt)).le setup.config.poseTimeoutSec = true
  correction : LatestSound setup.withinJump setup.config.correctionTimeoutSec now
    (correctionMessages events)
  registration : ∀ report receipt, (registrationMessages events).getLast? = some (report, receipt) →
    0 ≤ ageSeconds now receipt ∧
    (Double.fin (ageSeconds now receipt)).le setup.config.registrationTimeoutSec = true ∧
    ((checkedRegistration report).valid = true → report.accepted = true ∧
      report.meanResidual.le setup.config.maxRegistrationResidualM = true)

/-- Two samples have a motion to compare with two limits: the limits are numbers, and so are the
yaws. -/
structure MotionComparable (linear angular : Double) (previous : Sample) (pose : Pose ℚ) :
    Prop where
  linear : linear ≠ .nan
  angular : angular ≠ .nan
  yaw : YawDefined pose.orientation
  previousYaw : YawDefined previous.pose.orientation

/-- Nothing that an evaluation after these events compares is a NaN. -/
structure NumbersCompared (config : Config) (events : List Event) : Prop where
  poseTimeout : config.poseTimeoutSec ≠ .nan
  correctionTimeout : config.correctionTimeoutSec ≠ .nan
  velocity : ∀ previous ∈ storedSample (odometryMessages events).dropLast,
    ∀ sample ∈ storedSample (odometryMessages events),
      MotionComparable config.maxLinearVelocityMps config.maxAngularVelocityDps previous sample.pose
  jump : ∀ previous ∈ storedSample (correctionMessages events).dropLast,
    ∀ sample ∈ storedSample (correctionMessages events),
      MotionComparable config.maxCorrectionPositionJumpM config.maxCorrectionYawJumpDeg previous
        sample.pose
  registration : ∀ report receipt, (registrationMessages events).getLast? = some (report, receipt) →
    config.registrationTimeoutSec ≠ .nan ∧
    ((checkedRegistration report).valid = true → config.maxRegistrationResidualM ≠ .nan)

/-- Over a positive time a number stays one. -/
theorem div_ne_nan_iff {x : Double} {time : ℚ} (htime : 0 < time) :
    x.div (.fin time) ≠ .nan ↔ x ≠ .nan := by
  cases x with
  | nan => simp [Double.div]
  | inf negative => simp [Double.div]
  | fin x => simp [Double.div_fin x htime.ne']

theorem withinVelocity_iff (setup : Setup) (previous : Sample) (pose : Pose ℚ) (stamp : Time)
    (hnewer : previous.stamp < stamp) (h : setup.motionExceeds previous pose stamp = false) :
    setup.withinVelocity previous pose stamp ↔
      MotionComparable setup.config.maxLinearVelocityMps setup.config.maxAngularVelocityDps previous
        pose := by
  rw [Setup.motionExceeds, Option.isSome_eq_false_iff, Option.isNone_iff_eq_none,
    motionFault_eq_none_iff] at h
  rw [Setup.withinVelocity, Double.le_iff_of_not_gt h.1, Double.le_iff_of_not_gt h.2,
    radians_ne_nan_iff, Sample.linearVelocity, Sample.angularVelocity,
    div_ne_nan_iff (ageSeconds_pos hnewer), div_ne_nan_iff (ageSeconds_pos hnewer),
    yawDifference_ne_nan_iff]
  have hjump := norm3_ne_nan setup.math pose.position previous.pose.position
  constructor
  · rintro ⟨⟨-, hlinear⟩, ⟨hyaw, hprevious⟩, hangular⟩
    exact ⟨hlinear, hangular, hyaw, hprevious⟩
  · intro h
    exact ⟨⟨hjump, h.linear⟩, ⟨h.yaw, h.previousYaw⟩, h.angular⟩

theorem withinJump_iff (setup : Setup) (previous : Sample) (pose : Pose ℚ) (stamp : Time)
    (h : setup.correctionExceeds previous pose stamp = false) :
    setup.withinJump previous pose stamp ↔
      MotionComparable setup.config.maxCorrectionPositionJumpM setup.config.maxCorrectionYawJumpDeg
        previous pose := by
  rw [Setup.correctionExceeds, Option.isSome_eq_false_iff, Option.isNone_iff_eq_none,
    correctionFault_eq_none_iff] at h
  rw [Setup.withinJump, Double.le_iff_of_not_gt h.1, Double.le_iff_of_not_gt h.2,
    radians_ne_nan_iff, yawDifference_ne_nan_iff]
  have hjump := norm3_ne_nan setup.math pose.position previous.pose.position
  constructor
  · rintro ⟨⟨-, hposition⟩, ⟨hyaw, hprevious⟩, hangular⟩
    exact ⟨hposition, hangular, hyaw, hprevious⟩
  · intro h
    exact ⟨⟨hjump, h.linear⟩, ⟨h.yaw, h.previousYaw⟩, h.angular⟩

omit [Rounding] in
/-- A report still flagged valid is the one received, with a finite residual. -/
theorem checkedRegistration_of_valid {report : RegistrationQuality}
    (h : (checkedRegistration report).valid = true) :
    checkedRegistration report = report ∧ ∃ residual, report.meanResidual = .fin residual := by
  unfold checkedRegistration at h ⊢
  split
  · rename_i hmalformed
    simp [hmalformed] at h
  · rename_i hwellFormed
    refine ⟨rfl, ?_⟩
    rw [if_neg hwellFormed] at h
    cases hresidual : report.meanResidual with
    | fin residual => exact ⟨residual, rfl⟩
    | nan => simp [h, RegistrationQuality.malformed, hresidual] at hwellFormed
    | inf negative =>
      simp [h, RegistrationQuality.malformed, hresidual, Double.isFinite] at hwellFormed

/-! ## The streams behind the flags of a monitor -/

section Held

variable {setup : Setup} {events : List Event}

theorem held_odometry (hhave : (setup.run events).haveOdometry = true)
    (hfault : (setup.run events).motionSampleFault = false) :
    ∃ sample, (Stream.ofMessages setup.motionExceeds (odometryMessages events)).sample =
        some sample ∧
      (Stream.ofMessages setup.motionExceeds (odometryMessages events)).faulty = false ∧
      sample.receipt = (setup.run events).lastOdometryReceipt := by
  have hview := congrArg Streams.odometry (streams_run setup events)
  simp only [Monitor.streams, Setup.streams, hhave, hfault, if_true] at hview
  rw [← hview]
  exact ⟨_, rfl, rfl, rfl⟩

theorem held_pose (hhave : (setup.run events).havePose = true)
    (hfault : (setup.run events).poseSampleFault = false) :
    (PoseStream.ofMessages (poseMessages events)).receipt =
        some (setup.run events).lastPoseReceipt ∧
      (PoseStream.ofMessages (poseMessages events)).faulty = false := by
  have hview := congrArg Streams.pose (streams_run setup events)
  simp only [Monitor.streams, Setup.streams, hhave, hfault, if_true] at hview
  rw [← hview]
  exact ⟨rfl, rfl⟩

theorem held_correction (hhave : (setup.run events).haveCorrection = true)
    (hfault : (setup.run events).correctionSampleFault = false) :
    ∃ sample, (Stream.ofMessages setup.correctionExceeds (correctionMessages events)).sample =
        some sample ∧
      (Stream.ofMessages setup.correctionExceeds (correctionMessages events)).faulty = false ∧
      sample.receipt = (setup.run events).lastCorrectionReceipt := by
  have hview := congrArg Streams.correction (streams_run setup events)
  simp only [Monitor.streams, Setup.streams, hhave, hfault, if_true] at hview
  rw [← hview]
  exact ⟨_, rfl, rfl, rfl⟩

theorem held_registration (setup : Setup) {report : RegistrationQuality} {receipt : Time}
    (h : (registrationMessages events).getLast? = some (report, receipt)) :
    (setup.run events).haveRegistration = true ∧
      (setup.run events).registration = checkedRegistration report ∧
      (setup.run events).lastRegistrationReceipt = receipt := by
  have hview := congrArg Streams.registration (streams_run setup events)
  simp only [Setup.streams, h, Option.map_some, Monitor.streams] at hview
  cases hhave : (setup.run events).haveRegistration
  · simp [hhave] at hview
  · simpa [hhave] using hview

end Held

/-- The registration part of the guarantee. -/
theorem registration_sound_iff {setup : Setup} {events : List Event} {now : Time}
    (hfault : (setup.run events).registrationFault setup.config now = none)
    {report : RegistrationQuality} {receipt : Time}
    (h : (registrationMessages events).getLast? = some (report, receipt)) :
    (0 ≤ ageSeconds now receipt ∧
        (Double.fin (ageSeconds now receipt)).le setup.config.registrationTimeoutSec = true ∧
        ((checkedRegistration report).valid = true → report.accepted = true ∧
          report.meanResidual.le setup.config.maxRegistrationResidualM = true)) ↔
      setup.config.registrationTimeoutSec ≠ .nan ∧
        ((checkedRegistration report).valid = true →
          setup.config.maxRegistrationResidualM ≠ .nan) := by
  obtain ⟨hhave, hreport, rfl⟩ := held_registration setup h
  obtain ⟨hage, htimeout, hverdict⟩ := registration_of_fault_eq_none hhave hfault
  rw [Double.le_iff_ne_nan htimeout]
  constructor
  · rintro ⟨-, hnan, hsound⟩
    exact ⟨hnan, fun hvalid ↦ Double.ne_nan_of_le (hsound hvalid).2⟩
  · rintro ⟨hnan, hcomparable⟩
    refine ⟨hage, hnan, fun hvalid ↦ ?_⟩
    obtain ⟨hsame, residual, hresidual⟩ := checkedRegistration_of_valid hvalid
    rw [hreport, hsame] at hverdict
    rw [hsame] at hvalid
    obtain ⟨haccepted, hwithin⟩ := hverdict hvalid hnan
    rw [hresidual] at hwithin ⊢
    exact ⟨haccepted, Double.le_of_not_gt (hcomparable (hsame.symm ▸ hvalid)) hwithin⟩

/-- A valid pose carries its guarantee exactly when nothing the monitor compared is a NaN. -/
theorem poseSound_iff_of_poseValid (setup : Setup) (events : List Event) (now : Time)
    (context : Context)
    (hvalid : (setup.run (events ++ [.evaluate now context])).status.poseValid = true) :
    PoseSound setup events now context ↔ NumbersCompared setup.config events := by
  rw [Setup.run_concat, Setup.apply, poseValid_evaluate] at hvalid
  obtain ⟨hactive, hinitialized, -, hcritical, hmotion, hpose, hcorrection⟩ := hvalid
  simp only [Monitor.assess, Bool.or_eq_false_iff, Option.isSome_eq_false_iff,
    Option.isNone_iff_eq_none] at hcritical
  have hfree := faultFree_of_fault_eq_none hcritical.1
  obtain ⟨odometry, hodometry, hodometryFaulty, hodometryReceipt⟩ :=
    held_odometry hfree.haveOdometry hmotion
  obtain ⟨hposeReceipt, hposeFaulty⟩ := held_pose hfree.havePose hpose
  obtain ⟨correction, hstored, hcorrectionFaulty, hcorrectionReceipt⟩ :=
    held_correction hfree.haveCorrection hcorrection
  have hodometrySound := @latestSound_iff _ _ _ _ (withinVelocity_iff setup) _ _ hodometry
    hodometryFaulty setup.config.poseTimeoutSec now
  have hcorrectionSound := @latestSound_iff _ _ _ _
    (fun previous pose stamp _ ↦ withinJump_iff setup previous pose stamp) _ _ hstored
    hcorrectionFaulty setup.config.correctionTimeoutSec now
  rw [sample_ofMessages] at hodometry hstored
  obtain ⟨earlier, message, pose, hmessages, hfinite⟩ :=
    latest_of_pose_not_faulty hposeReceipt hposeFaulty
  -- the two ages are compared through their maximum
  have hupdateAge := hfree.updateAge
  simp only [Monitor.updateAge, ageOf, hfree.haveOdometry, hfree.havePose, Bool.and_true, if_true,
    Double.max_fin_fin] at hupdateAge
  have hages := (Double.le_max_fin_iff _ _ _).symm.trans (Double.le_iff_ne_nan hupdateAge)
  have hcorrectionAge := hfree.correctionAge
  simp only [Monitor.correctionAge, ageOf, hfree.haveCorrection, if_true] at hcorrectionAge
  rw [hodometryReceipt] at hodometrySound
  rw [hcorrectionReceipt, Double.le_iff_ne_nan hcorrectionAge] at hcorrectionSound
  constructor
  · intro h
    have hodometryIff := hodometrySound.mp h.odometry
    have hcorrectionIff := hcorrectionSound.mp h.correction
    refine ⟨Double.ne_nan_of_le hodometryIff.1, hcorrectionIff.1,
      fun previous hprevious sample hsample ↦ ?_, fun previous hprevious sample hsample ↦ ?_,
      fun report receipt hlast ↦
        (registration_sound_iff hcritical.2 hlast).mp (h.registration report receipt hlast)⟩
    · cases hodometry.symm.trans hsample
      exact hodometryIff.2 previous hprevious
    · cases hstored.symm.trans hsample
      exact hcorrectionIff.2 previous hprevious
  · intro h
    obtain ⟨hodometryAge, hposeAge⟩ := hages.mpr h.poseTimeout
    exact ⟨hactive, hinitialized, hfree.alive, hfree.healthy,
      hodometrySound.mpr ⟨hodometryAge, fun previous hprevious ↦
        h.velocity previous hprevious odometry hodometry⟩,
      ⟨earlier, message, _, pose, hmessages, hfinite, hposeAge⟩,
      hcorrectionSound.mpr ⟨h.correctionTimeout, fun previous hprevious ↦
        h.jump previous hprevious correction hstored⟩, fun report receipt hlast ↦
        (registration_sound_iff hcritical.2 hlast).mpr (h.registration report receipt hlast)⟩

end Latest

/-- A second sample at rest of the odometry and of the correction, and nine evaluations. -/
def steadyStart : List Event :=
  [.odometry originPose 0, .odometry { originPose with stamp := 2 } 0, .pose originPose 0,
    .correction originPose 0, .correction { originPose with stamp := 2 } 0] ++
      List.replicate 9 (.evaluate 0 fullContext)

theorem poseSound_steadyStart : PoseSound defaultSetup steadyStart 0 fullContext := by
  refine (poseSound_iff_of_poseValid defaultSetup steadyStart 0 fullContext
    (by decide +kernel)).mpr ?_
  have hidentity : YawDefined Pose.identity.orientation := by decide +kernel
  have hodometry : storedSample (odometryMessages steadyStart).dropLast =
      some ⟨.identity, 1, 0⟩ ∧
      storedSample (odometryMessages steadyStart) = some ⟨.identity, 2, 0⟩ := by decide +kernel
  have hcorrection : storedSample (correctionMessages steadyStart).dropLast =
      some ⟨.identity, 1, 0⟩ ∧
      storedSample (correctionMessages steadyStart) = some ⟨.identity, 2, 0⟩ := by decide +kernel
  refine ⟨by decide +kernel, by decide +kernel, fun previous hprevious sample hsample ↦ ?_,
    fun previous hprevious sample hsample ↦ ?_, fun _ _ hlast ↦ ?_⟩
  · rw [hodometry.1] at hprevious
    rw [hodometry.2] at hsample
    cases hprevious
    cases hsample
    exact ⟨by decide +kernel, by decide +kernel, hidentity, hidentity⟩
  · rw [hcorrection.1] at hprevious
    rw [hcorrection.2] at hsample
    cases hprevious
    cases hsample
    exact ⟨by decide +kernel, by decide +kernel, hidentity, hidentity⟩
  · cases hlast

/-- The checks of `loadConfig` let a NaN timeout pass. -/
def untimedSetup : Setup := { defaultSetup with config := { correctionTimeoutSec := .nan } }

/-- A correction received 100 s before the odometry and the pose, and nine evaluations. -/
def staleCorrection : List Event :=
  [.correction originPose 0, .odometry originPose (100 * 10 ^ 9),
    .pose originPose (100 * 10 ^ 9)] ++ List.replicate 9 (.evaluate (100 * 10 ^ 9) fullContext)

theorem poseValid_with_stale_correction :
    loadConfig (some (localizationQualityYaml [("correction_timeout_sec", .real .nan)])) =
        .ok untimedSetup.config ∧
      (untimedSetup.run (staleCorrection ++
        [.evaluate (100 * 10 ^ 9) fullContext])).status.poseValid = true ∧
      ¬PoseSound untimedSetup staleCorrection (100 * 10 ^ 9) fullContext := by
  refine ⟨by decide +kernel, by decide +kernel, fun hsound ↦ ?_⟩
  obtain ⟨_, _, _, _, -, -, hage, -⟩ := hsound.correction
  simp [untimedSetup] at hage

end SlamSystemManager.Quality
