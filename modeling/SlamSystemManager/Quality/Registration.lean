import SlamSystemManager.Quality.Soundness

/-!
# Standing registration rejections

A rejection stands until a well-formed report is accepted or the monitor is reset. `evaluate` only
looks at the last report, and at its `accepted` flag only while the report is flagged valid and
fresh: a report that says nothing at all replaces a rejection and lifts it. A frame under a
standing rejection is critical exactly when the last report is a rejection itself, is out of date,
or another stream has a fault.
-/

open Numeric

namespace SlamSystemManager.Quality

/-! ## Standing rejections -/

/-- A report that keeps its flags: it is flagged valid and not malformed. -/
def WellFormedReport (report : RegistrationQuality) : Prop :=
  report.valid = true ∧ RegistrationQuality.malformed report = false

instance (report : RegistrationQuality) : Decidable (WellFormedReport report) := by
  unfold WellFormedReport
  infer_instance

/-- A well-formed report was rejected since the last reset, and no well-formed one has been accepted
after it. -/
def RejectionStands (events : List Event) : Prop :=
  ∃ earlier rejected later, registrationMessages events = earlier ++ rejected :: later ∧
    WellFormedReport rejected.1 ∧ rejected.1.accepted = false ∧
    ∀ received ∈ later, ¬(WellFormedReport received.1 ∧ received.1.accepted = true)

/-- A later report of a standing rejection was not accepted either, unless it is malformed or
flagged invalid. -/
theorem last_of_rejectionStands {events : List Event} (h : RejectionStands events) :
    ∃ report receipt, (registrationMessages events).getLast? = some (report, receipt) ∧
      (WellFormedReport report → report.accepted = false) := by
  obtain ⟨earlier, rejected, later, hmessages, -, hrejected, hlater⟩ := h
  rcases List.eq_nil_or_concat later with rfl | ⟨middle, ⟨report, receipt⟩, rfl⟩
  · exact ⟨rejected.1, rejected.2, by simp [hmessages], fun _ ↦ hrejected⟩
  · have hlast : (registrationMessages events).getLast? = some (report, receipt) := by
      rw [hmessages, List.concat_eq_append, ← List.cons_append, ← List.append_assoc,
        List.getLast?_concat]
    refine ⟨report, receipt, hlast, fun hwellFormed ↦ ?_⟩
    have hnot := hlater (report, receipt) (by simp)
    by_contra haccepted
    exact hnot ⟨hwellFormed, by simpa using haccepted⟩

/-! ## The other streams -/

/-- No fault of the chain that `evaluate` walks before it looks at the registration. -/
structure OthersSound [Rounding] (config : Config) (monitor : Monitor) (now : Time)
    (context : Context) : Prop where
  alive : context.localizationProcessAlive = true
  healthy : context.sensorsHealthy = true
  haveOdometry : monitor.haveOdometry = true
  havePose : monitor.havePose = true
  updateFinite : (monitor.updateAge now).isFinite = true
  updateNotNegative : (monitor.updateAge now).lt (.fin 0) = false
  updateInTime : config.poseTimeoutSec.lt (monitor.updateAge now) = false
  motion : monitor.motionSampleFault = false
  pose : monitor.poseSampleFault = false
  haveCorrection : monitor.haveCorrection = true
  correctionFinite : (monitor.correctionAge now).isFinite = true
  correctionNotNegative : (monitor.correctionAge now).lt (.fin 0) = false
  correctionInTime : config.correctionTimeoutSec.lt (monitor.correctionAge now) = false
  correction : monitor.correctionSampleFault = false

theorem fault_eq_none_iff [Rounding] (config : Config) (monitor : Monitor) (now : Time)
    (context : Context) :
    monitor.fault config now context = none ↔ OthersSound config monitor now context := by
  constructor
  · intro h
    simp only [Monitor.fault, ite_some_eq_none, Bool.not_eq_true, Bool.not_eq_false',
      Bool.or_eq_false_iff] at h
    obtain ⟨halive, hhealthy, ⟨hodometry, hhave⟩, ⟨hfinite, hnegative⟩, htimeout, hmotion, hpose,
      hcorrection, ⟨⟨hageFinite, hageNegative⟩, hage⟩, hfault, -⟩ := h
    exact ⟨halive, hhealthy, hodometry, hhave, hfinite, hnegative, htimeout, hmotion, hpose,
      hcorrection, hageFinite, hageNegative, hage, hfault⟩
  · intro h
    simp [Monitor.fault, h.alive, h.healthy, h.haveOdometry, h.havePose, h.updateFinite,
      h.updateNotNegative, h.updateInTime, h.motion, h.pose, h.haveCorrection, h.correctionFinite,
      h.correctionNotNegative, h.correctionInTime, h.correction]

/-! ## The verdict on the last report -/

theorem checkedRegistration_of_wellFormed {report : RegistrationQuality}
    (h : WellFormedReport report) : checkedRegistration report = report := by
  simp [checkedRegistration, h.2]

theorem valid_checkedRegistration (report : RegistrationQuality) :
    (checkedRegistration report).valid = true ↔ WellFormedReport report := by
  constructor
  · intro h
    have hsame := (checkedRegistration_of_valid h).1
    rw [hsame] at h
    refine ⟨h, ?_⟩
    by_contra hmalformed
    simp only [Bool.not_eq_false] at hmalformed
    rw [checkedRegistration, h, hmalformed] at hsame
    rw [← hsame] at h
    cases h
  · intro h
    rw [checkedRegistration_of_wellFormed h]
    exact h.1

/-- A report from before the evaluation is out of date when its age exceeds the timeout. -/
def RegistrationOutOfDate [Rounding] (config : Config) (now receipt : Time) : Prop :=
  now < receipt ∨ config.registrationTimeoutSec.lt (.fin (ageSeconds now receipt)) = true

/-- What the registration branches say about a last report that is not accepted. -/
theorem registrationFault_isSome_iff [Rounding] {setup : Setup} {events : List Event}
    {report : RegistrationQuality} {receipt : Time} (now : Time)
    (hlast : (registrationMessages events).getLast? = some (report, receipt))
    (hrejected : WellFormedReport report → report.accepted = false) :
    ((setup.run events).registrationFault setup.config now).isSome = true ↔
      RegistrationOutOfDate setup.config now receipt ∨
        (WellFormedReport report ∧ setup.config.registrationTimeoutSec ≠ .nan) := by
  obtain ⟨hhave, hreport, hreceipt⟩ := held_registration setup hlast
  have hage : (setup.run events).registrationAge now = .fin (ageSeconds now receipt) := by
    simp [Monitor.registrationAge, ageOf, hhave, hreceipt]
  have hpast : ageSeconds now receipt < 0 ↔ now < receipt := ageSeconds_neg_iff
  unfold Monitor.registrationFault Monitor.registrationScored RegistrationOutOfDate
  simp only [hage, hhave, hreport, Double.isFinite_fin, Double.le_fin_fin, Double.lt_fin_fin,
    ← hpast]
  by_cases hwellFormed : WellFormedReport report
  · rw [checkedRegistration_of_wellFormed hwellFormed, hwellFormed.1, hrejected hwellFormed]
    rcases lt_or_ge (ageSeconds now receipt) 0 with hnegative | hnonneg
    · simp [hnegative, not_le.mpr hnegative]
    · by_cases hnan : setup.config.registrationTimeoutSec = .nan
      · simp [hnan, not_lt.mpr hnonneg]
      · cases hlate : setup.config.registrationTimeoutSec.lt (.fin (ageSeconds now receipt))
        · have hintime := Double.le_of_not_gt hnan hlate
          simp [hnonneg, hintime, hwellFormed, hnan]
        · simp only [hnonneg]
          cases (Double.fin (ageSeconds now receipt)).le setup.config.registrationTimeoutSec <;>
            simp
  · have hinvalid : (checkedRegistration report).valid = false := by
      rw [← Bool.not_eq_true, valid_checkedRegistration]
      exact hwellFormed
    simp [hinvalid, hwellFormed]

/-! ## Frames under a standing rejection -/

section Frames

variable [Rounding]

/-- An evaluation after these events is critical. -/
structure CriticalFrame (setup : Setup) (events : List Event) (now : Time) (context : Context) :
    Prop where
  critical : ((setup.run events).assess setup.config now context).critical = true
  confidence : (setup.run (events ++ [.evaluate now context])).status.confidence = .fin 0
  poseValid : (setup.run (events ++ [.evaluate now context])).status.poseValid = false

/-- The last report since the last reset is a rejection itself, and comparable with the timeout, or
it is out of date. -/
def RejectionHeld (config : Config) (events : List Event) (now : Time) : Prop :=
  ∃ report receipt, (registrationMessages events).getLast? = some (report, receipt) ∧
    (RegistrationOutOfDate config now receipt ∨
      (WellFormedReport report ∧ config.registrationTimeoutSec ≠ .nan))

theorem criticalFrame_iff (setup : Setup) (events : List Event) (now : Time) {context : Context}
    (hactive : context.localizationActive = true)
    (hinitialized : context.localizationInitialized = true) :
    CriticalFrame setup events now context ↔
      ((setup.run events).assess setup.config now context).critical = true := by
  refine ⟨CriticalFrame.critical, fun hcritical ↦ ⟨hcritical, ?_, ?_⟩⟩
  · have hconfidence :
        ((setup.run events).assess setup.config now context).confidence = .fin 0 := by
      simp only [Monitor.assess] at hcritical ⊢
      rw [hcritical]
      rfl
    rw [Setup.run_concat, ← hconfidence]
    simp [Setup.apply, Monitor.evaluate, hactive, hinitialized, Monitor.evaluateActive,
      Monitor.publishStatus]
    rfl
  · by_contra hvalid
    rw [Bool.not_eq_false, Setup.run_concat, Setup.apply, poseValid_evaluate] at hvalid
    rw [hvalid.2.2.2.1] at hcritical
    cases hcritical

/-- A frame under a standing rejection is critical exactly when the last report is a rejection or
out of date, or another stream has a fault. -/
theorem criticalFrame_iff_of_rejectionStands (setup : Setup) (events : List Event) (now : Time)
    (context : Context) (hstands : RejectionStands events)
    (hactive : context.localizationActive = true)
    (hinitialized : context.localizationInitialized = true) :
    CriticalFrame setup events now context ↔
      RejectionHeld setup.config events now ∨
        ¬OthersSound setup.config (setup.run events) now context := by
  obtain ⟨report, receipt, hlast, hrejected⟩ := last_of_rejectionStands hstands
  have hheld : RejectionHeld setup.config events now ↔
      ((setup.run events).registrationFault setup.config now).isSome = true := by
    rw [registrationFault_isSome_iff now hlast hrejected]
    constructor
    · rintro ⟨other, otherReceipt, hother, hcondition⟩
      cases hlast.symm.trans hother
      exact hcondition
    · intro hcondition
      exact ⟨report, receipt, hlast, hcondition⟩
  rw [criticalFrame_iff setup events now hactive hinitialized, hheld, ← fault_eq_none_iff,
    ← ne_eq, ← Option.isSome_iff_ne_none]
  simp only [Monitor.assess, Bool.or_eq_true]
  exact or_comm

end Frames

def rejectedReport : RegistrationQuality :=
  { valid := true, fitness := .fin (1 / 2), meanResidual := .fin (8 / 10),
    correspondenceCount := 500, sourcePointCount := 1000 }

/-- A rejection in LOCALIZED. -/
def standingRejection : List Event :=
  healthyStart ++ [.evaluate 0 fullContext, .registration rejectedReport 0]

theorem criticalFrame_standingRejection :
    CriticalFrame defaultSetup standingRejection 0 fullContext := by
  refine (criticalFrame_iff_of_rejectionStands defaultSetup _ 0 fullContext
    ⟨[], (rejectedReport, 0), [], by decide +kernel, by decide, rfl, by simp⟩ rfl rfl).mpr
    (Or.inl ?_)
  exact ⟨rejectedReport, 0, by decide +kernel, Or.inr ⟨by decide, by decide⟩⟩

/-- What the matcher reports when it finds no correspondence at all. -/
def failedReport : RegistrationQuality := { meanResidual := .nan, sourcePointCount := 1000 }

/-- The rejection has made a frame critical when the registration fails altogether. -/
def liftedRejection : List Event :=
  standingRejection ++ [.evaluate 0 fullContext, .registration failedReport 0]

/-- A total failure of the registration lifts a standing rejection: the next frame is good and its
pose valid. -/
theorem poseValid_liftedRejection :
    loadConfig (some (localizationQualityYaml [])) = .ok defaultSetup.config ∧
      RejectionStands liftedRejection ∧
      ¬CriticalFrame defaultSetup liftedRejection 0 fullContext ∧
      ((defaultSetup.run liftedRejection).assess defaultSetup.config 0 fullContext).frame
        defaultSetup.config = .good ∧
      (defaultSetup.run (liftedRejection ++ [.evaluate 0 fullContext])).status.poseValid =
        true := by
  refine ⟨loadConfig_localizationQualityYaml,
    ⟨[], (rejectedReport, 0), [(failedReport, 0)], by decide +kernel, by decide, rfl, by decide⟩,
    fun hcritical ↦ ?_, by decide +kernel, by decide +kernel⟩
  exact absurd hcritical.critical (by decide +kernel)

end SlamSystemManager.Quality
