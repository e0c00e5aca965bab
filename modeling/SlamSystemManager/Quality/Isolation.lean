import SlamSystemManager.Library.Unwinding
import SlamSystemManager.Quality.Hysteresis

/-!
# Sessions of the monitor are isolated

`reset` leaves the stamps, poses and receipt times of the last samples and the last registration
report in place and clears the flags that say whether they are there. `visible` erases every such
value whose flag is false. No call of the monitor depends on what is erased, so the monitor after a
`reset` cannot be told from one that has just been constructed.
-/

open Numeric Unwinding

namespace SlamSystemManager.Quality

/-! ## Calls and answers -/

/-- A call of a public function of the monitor. -/
inductive Call where
  | event (event : Event)
  | status

/-- What a call returns, and the state change it reports. -/
structure Answer where
  status : Option LocalizationStatus := none
  change : Option StateChange := none
  deriving DecidableEq

def Setup.respond [Rounding] (setup : Setup) (monitor : Monitor) : Call → Monitor × Answer
  | .event (.evaluate now context) =>
    let (evaluated, change) := monitor.evaluate setup.config setup.mapFrame now context
    (evaluated, ⟨some evaluated.status, change⟩)
  | .event event => (setup.apply monitor event, {})
  | .status => (monitor, { status := some monitor.status })

/-! ## What the flags hide -/

/-- A value that counts only while its flag is true. -/
def guarded {α : Type} (flag : Bool) (value absent : α) : α := if flag then value else absent

section Guarded

variable {α : Type} (flag : Bool) (value absent : α)

@[simp] theorem guarded_true : guarded true value absent = value := rfl

@[simp] theorem guarded_false : guarded false value absent = absent := rfl

@[simp] theorem guarded_guarded :
    guarded flag (guarded flag value absent) absent = guarded flag value absent := by
  cases flag <;> rfl

end Guarded

/-- The monitor without the values whose flag is false. -/
def Monitor.visible (monitor : Monitor) : Monitor :=
  { monitor with
    lastOdometryReceipt := guarded monitor.haveOdometry monitor.lastOdometryReceipt 0
    lastOdometryStamp := guarded monitor.haveOdometry monitor.lastOdometryStamp 0
    lastOdometryPose := guarded monitor.haveOdometry monitor.lastOdometryPose .identity
    lastPoseReceipt := guarded monitor.havePose monitor.lastPoseReceipt 0
    lastCorrectionReceipt := guarded monitor.haveCorrection monitor.lastCorrectionReceipt 0
    lastCorrectionStamp := guarded monitor.haveCorrection monitor.lastCorrectionStamp 0
    lastCorrectionPose := guarded monitor.haveCorrection monitor.lastCorrectionPose .identity
    lastRegistrationReceipt := guarded monitor.haveRegistration monitor.lastRegistrationReceipt 0
    registration := guarded monitor.haveRegistration monitor.registration {} }

@[simp] theorem visible_reset (monitor : Monitor) : monitor.reset.visible = {} := rfl

/-- The registration is read only while it is held. -/
theorem registration_visible (monitor : Monitor) (hhave : monitor.haveRegistration = true) :
    monitor.visible.registration = monitor.registration := by
  simp [Monitor.visible, hhave]

/-! ### Observers -/

theorem observeRegistration_visible (monitor : Monitor) (message : RegistrationQuality)
    (receiptTime : Time) :
    (monitor.visible.observeRegistration message receiptTime).visible =
      (monitor.observeRegistration message receiptTime).visible := by
  simp [Monitor.observeRegistration, Monitor.visible]

section Calls

variable [Rounding]

theorem observeOdometry_visible (config : Config) (math : Cmath) (monitor : Monitor)
    (message : StampedPose) (receiptTime : Time) :
    (monitor.visible.observeOdometry config math message receiptTime).visible =
      (monitor.observeOdometry config math message receiptTime).visible := by
  unfold Monitor.observeOdometry
  cases hpose : finitePose message.pose with
  | none => simp [Monitor.visible]
  | some pose =>
    cases hhave : monitor.haveOdometry with
    | false => simp [Monitor.visible, hhave]
    | true =>
      by_cases hstamp : message.stamp ≤ monitor.lastOdometryStamp
      · simp [Monitor.visible, hhave, hstamp]
      · by_cases hdelta : 0 < ageSeconds message.stamp monitor.lastOdometryStamp <;>
          simp [Monitor.visible, Monitor.measureMotion, hhave, hstamp, hdelta]

theorem observePose_visible (monitor : Monitor) (message : StampedPose) (receiptTime : Time) :
    (monitor.visible.observePose message receiptTime).visible =
      (monitor.observePose message receiptTime).visible := by
  unfold Monitor.observePose
  cases finitePose message.pose <;> simp [Monitor.visible]

theorem observeCorrection_visible (config : Config) (math : Cmath) (monitor : Monitor)
    (message : StampedPose) (receiptTime : Time) :
    (monitor.visible.observeCorrection config math message receiptTime).visible =
      (monitor.observeCorrection config math message receiptTime).visible := by
  unfold Monitor.observeCorrection
  cases hpose : finitePose message.pose with
  | none => simp [Monitor.visible]
  | some pose =>
    cases hhave : monitor.haveCorrection with
    | false => simp [Monitor.visible, hhave]
    | true =>
      by_cases hstamp : message.stamp ≤ monitor.lastCorrectionStamp <;>
        simp [Monitor.visible, Monitor.measureCorrection, hhave, hstamp]

/-! ### Evaluation -/

section Evaluation

variable (config : Config) (monitor : Monitor) (now : Time) (context : Context)

@[simp] theorem updateAge_visible : monitor.visible.updateAge now = monitor.updateAge now := by
  cases hodometry : monitor.haveOdometry <;> cases hpose : monitor.havePose <;>
    simp [Monitor.updateAge, Monitor.visible, hodometry, hpose]

@[simp] theorem correctionAge_visible :
    monitor.visible.correctionAge now = monitor.correctionAge now := by
  cases hhave : monitor.haveCorrection <;>
    simp [Monitor.correctionAge, Monitor.visible, ageOf, hhave]

@[simp] theorem registrationAge_visible :
    monitor.visible.registrationAge now = monitor.registrationAge now := by
  cases hhave : monitor.haveRegistration <;>
    simp [Monitor.registrationAge, Monitor.visible, ageOf, hhave]

@[simp] theorem fault_visible :
    monitor.visible.fault config now context = monitor.fault config now context := by
  simp only [Monitor.fault, updateAge_visible, correctionAge_visible]
  rfl

@[simp] theorem registrationScored_visible :
    monitor.visible.registrationScored config now = monitor.registrationScored config now := by
  unfold Monitor.registrationScored
  rw [registrationAge_visible]
  cases hhave : monitor.haveRegistration
  · simp [Monitor.visible, hhave]
  · rw [registration_visible monitor hhave, ← hhave]
    rfl

theorem haveRegistration_of_scored (h : monitor.registrationScored config now = true) :
    monitor.haveRegistration = true := by
  unfold Monitor.registrationScored at h
  simp only [Bool.and_eq_true] at h
  exact h.1.1.1.1

@[simp] theorem registrationFault_visible :
    monitor.visible.registrationFault config now = monitor.registrationFault config now := by
  unfold Monitor.registrationFault
  rw [registrationScored_visible, registrationAge_visible]
  cases hscored : monitor.registrationScored config now
  · rfl
  · rw [registration_visible monitor (haveRegistration_of_scored config monitor now hscored)]
    rfl

@[simp] theorem metrics_visible :
    monitor.visible.metrics config now = monitor.metrics config now := by
  unfold Monitor.metrics
  rw [registrationScored_visible, updateAge_visible]
  cases hscored : monitor.registrationScored config now
  · rfl
  · have hregistration :=
      registration_visible monitor (haveRegistration_of_scored config monitor now hscored)
    simp only [Monitor.registrationScore, hregistration]
    rfl

@[simp] theorem assess_visible :
    monitor.visible.assess config now context = monitor.assess config now context := by
  simp only [Monitor.assess, fault_visible, registrationFault_visible, metrics_visible]

theorem evaluateActive_visible :
    monitor.visible.evaluateActive config now context =
      ((monitor.evaluateActive config now context).1.visible,
        (monitor.evaluateActive config now context).2) := by
  unfold Monitor.evaluateActive
  simp only [assess_visible, updateAge_visible, registrationAge_visible]
  cases hhave : monitor.haveRegistration
  · simp [Monitor.visible, hhave]
  · simp [Monitor.visible, hhave]

theorem evaluate_visible (mapFrame : String) :
    monitor.visible.evaluate config mapFrame now context =
      ((monitor.evaluate config mapFrame now context).1.visible,
        (monitor.evaluate config mapFrame now context).2) := by
  let stamped : Monitor :=
    { monitor with
      status :=
        { monitor.status with
          stamp := now
          frameId := mapFrame
          mapOverlapRatio := unavailable } }
  have hactive := evaluateActive_visible config stamped now context
  unfold Monitor.evaluate
  cases context.localizationActive
  · rfl
  · cases context.localizationInitialized
    · rfl
    · exact congrArg (fun r : Monitor × Option StateChange ↦ (r.1.publishStatus, r.2)) hactive

end Evaluation

theorem erases_visible (setup : Setup) : Erases setup.respond Monitor.visible where
  output monitor call := by
    cases call with
    | status => rfl
    | event event =>
      cases event with
      | evaluate now context => simp only [Setup.respond, evaluate_visible]; rfl
      | odometry | pose | correction | registration | reset => rfl
  next monitor call := by
    cases call with
    | status => simp [Setup.respond, Monitor.visible]
    | event event =>
      cases event with
      | odometry message receiptTime => exact observeOdometry_visible ..
      | pose message receiptTime => exact observePose_visible ..
      | correction message receiptTime => exact observeCorrection_visible ..
      | registration message receiptTime => exact observeRegistration_visible ..
      | reset => rfl
      | evaluate now context =>
        simp only [Setup.respond, evaluate_visible]
        simp [Monitor.visible]

/-- After a reset the monitor answers every sequence of calls as one just constructed does. -/
theorem outputs_reset (setup : Setup) (events : List Event) (calls : List Call) :
    outputs setup.respond (setup.run (events ++ [.reset])) calls =
      outputs setup.respond {} calls := by
  apply (erases_visible setup).unwinds.outputs_eq
  rw [Setup.run_concat]
  rfl

end Calls

end SlamSystemManager.Quality
