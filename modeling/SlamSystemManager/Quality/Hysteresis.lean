import SlamSystemManager.Library.ConsecutiveRuns
import SlamSystemManager.Quality.Monitor

/-!
# Histories of the quality monitor and its hysteresis

A run of the monitor is a sequence of observations, resets and evaluations. The frames of the
running session are the classifications made by the evaluations since the last point at which
the counters were cleared. The quality state is then a function of these frames alone: which of
the three kinds of run (critical, good, non-good) was completed last decides it.
-/

open ConsecutiveRuns Numeric

namespace SlamSystemManager.Quality

/-- One call of a public function of the monitor that changes it. -/
inductive Event where
  | odometry (message : StampedPose) (receiptTime : Time)
  | pose (message : StampedPose) (receiptTime : Time)
  | correction (message : StampedPose) (receiptTime : Time)
  | registration (message : RegistrationQuality) (receiptTime : Time)
  | reset
  | evaluate (now : Time) (context : Context)

/-- What a monitor is constructed with. -/
structure Setup where
  config : Config
  math : Cmath
  mapFrame : String

section Runs

variable [Rounding]

def Setup.apply (setup : Setup) (monitor : Monitor) : Event → Monitor
  | .odometry message receiptTime =>
    monitor.observeOdometry setup.config setup.math message receiptTime
  | .pose message receiptTime => monitor.observePose message receiptTime
  | .correction message receiptTime =>
    monitor.observeCorrection setup.config setup.math message receiptTime
  | .registration message receiptTime => monitor.observeRegistration message receiptTime
  | .reset => monitor.reset
  | .evaluate now context => (monitor.evaluate setup.config setup.mapFrame now context).1

/-- The monitor after a history that starts at its construction. -/
def Setup.run (setup : Setup) (events : List Event) : Monitor := events.foldl setup.apply {}

@[simp] theorem Setup.run_nil (setup : Setup) : setup.run [] = {} := rfl

@[simp] theorem Setup.run_concat (setup : Setup) (events : List Event) (event : Event) :
    setup.run (events ++ [event]) = setup.apply (setup.run events) event := by
  simp [Setup.run]

/-! ## The hysteresis only moves in evaluations and resets -/

@[simp] theorem hysteresis_observeOdometry (config : Config) (math : Cmath) (monitor : Monitor)
    (message : StampedPose) (receiptTime : Time) :
    (monitor.observeOdometry config math message receiptTime).hysteresis = monitor.hysteresis := by
  unfold Monitor.observeOdometry Monitor.measureMotion
  split
  · rfl
  · split
    · rfl
    · split
      · dsimp only
        split <;> rfl
      · rfl

@[simp] theorem hysteresis_observePose (monitor : Monitor) (message : StampedPose)
    (receiptTime : Time) :
    (monitor.observePose message receiptTime).hysteresis = monitor.hysteresis := by
  unfold Monitor.observePose
  split <;> rfl

@[simp] theorem hysteresis_observeCorrection (config : Config) (math : Cmath) (monitor : Monitor)
    (message : StampedPose) (receiptTime : Time) :
    (monitor.observeCorrection config math message receiptTime).hysteresis =
      monitor.hysteresis := by
  unfold Monitor.observeCorrection Monitor.measureCorrection
  split
  · rfl
  · split
    · rfl
    · split <;> rfl

/-- The active branch of `evaluate` moves the hysteresis by one frame, the others clear it. -/
theorem hysteresis_evaluate (config : Config) (mapFrame : String) (monitor : Monitor) (now : Time)
    (context : Context) :
    (monitor.evaluate config mapFrame now context).1.hysteresis =
      if context.localizationActive && context.localizationInitialized then
        monitor.hysteresis.step config ((monitor.assess config now context).frame config)
      else {} := by
  unfold Monitor.evaluate
  cases hactive : context.localizationActive
  · rfl
  · cases hinitialized : context.localizationInitialized <;> rfl

/-! ## Frames of the running session -/

/-- The frames classified since the counters were last cleared, after one more event. -/
def Setup.nextFrames (setup : Setup) (monitor : Monitor) (frames : List Frame) :
    Event → List Frame
  | .reset => []
  | .evaluate now context =>
    if context.localizationActive && context.localizationInitialized then
      frames ++ [(monitor.assess setup.config now context).frame setup.config]
    else []
  | _ => frames

/-- One event leaves the hysteresis and the frames alone, clears both, or adds one frame. -/
theorem Setup.apply_cases (setup : Setup) (monitor : Monitor) (frames : List Frame)
    (event : Event) :
    ((setup.apply monitor event).hysteresis = monitor.hysteresis ∧
        setup.nextFrames monitor frames event = frames) ∨
      ((setup.apply monitor event).hysteresis = {} ∧
        setup.nextFrames monitor frames event = []) ∨
      ∃ frame, (setup.apply monitor event).hysteresis =
          monitor.hysteresis.step setup.config frame ∧
        setup.nextFrames monitor frames event = frames ++ [frame] := by
  cases event with
  | odometry message receiptTime => exact Or.inl ⟨hysteresis_observeOdometry .., rfl⟩
  | pose message receiptTime => exact Or.inl ⟨hysteresis_observePose .., rfl⟩
  | correction message receiptTime => exact Or.inl ⟨hysteresis_observeCorrection .., rfl⟩
  | registration message receiptTime => exact Or.inl ⟨rfl, rfl⟩
  | reset => exact Or.inr (Or.inl ⟨rfl, rfl⟩)
  | evaluate now context =>
    simp only [Setup.apply, Setup.nextFrames, hysteresis_evaluate]
    split
    · exact Or.inr (Or.inr ⟨_, rfl, rfl⟩)
    · exact Or.inr (Or.inl ⟨rfl, rfl⟩)

/-- The frames since the last reset, inactive or uninitialized evaluation of a history, together
with the monitor after it. -/
def Setup.session (setup : Setup) (events : List Event) : Monitor × List Frame :=
  events.foldl (fun current event ↦
    (setup.apply current.1 event, setup.nextFrames current.1 current.2 event)) ({}, [])

def Setup.sessionFrames (setup : Setup) (events : List Event) : List Frame :=
  (setup.session events).2

theorem Setup.session_fst (setup : Setup) (events : List Event) :
    (setup.session events).1 = setup.run events := by
  induction events using List.reverseRecOn with
  | nil => rfl
  | append_singleton events event ih =>
    rw [Setup.run_concat, ← ih]
    simp [Setup.session]

theorem Setup.sessionFrames_concat (setup : Setup) (events : List Event) (event : Event) :
    setup.sessionFrames (events ++ [event]) =
      setup.nextFrames (setup.run events) (setup.sessionFrames events) event := by
  rw [← setup.session_fst events]
  simp [Setup.sessionFrames, Setup.session]

end Runs

/-- The counters and the state after a sequence of frames. -/
def Hysteresis.run (config : Config) (frames : List Frame) : Hysteresis :=
  frames.foldl (Hysteresis.step config) {}

@[simp] theorem Hysteresis.run_nil (config : Config) : Hysteresis.run config [] = {} := rfl

@[simp] theorem Hysteresis.run_concat (config : Config) (frames : List Frame) (frame : Frame) :
    Hysteresis.run config (frames ++ [frame]) =
      (Hysteresis.run config frames).step config frame := by
  simp [Hysteresis.run]

/-- The monitor's hysteresis is the one of the frames of its running session. -/
theorem hysteresis_eq_run_sessionFrames [Rounding] (setup : Setup) (events : List Event) :
    (setup.run events).hysteresis = Hysteresis.run setup.config (setup.sessionFrames events) := by
  induction events using List.reverseRecOn with
  | nil => rfl
  | append_singleton events event ih =>
    rw [Setup.run_concat, Setup.sessionFrames_concat]
    rcases setup.apply_cases (setup.run events) (setup.sessionFrames events) event with
      ⟨hsame, hframes⟩ | ⟨hclear, hframes⟩ | ⟨frame, hstep, hframes⟩
    · rw [hsame, hframes, ih]
    · rw [hclear, hframes, Hysteresis.run_nil]
    · rw [hstep, hframes, Hysteresis.run_concat, ih]

/-! ## Counters -/

def Frame.isGood (frame : Frame) : Bool := decide (frame = .good)

def Frame.isBad (frame : Frame) : Bool := decide (frame ≠ .good)

def Frame.isCritical (frame : Frame) : Bool := decide (frame = .critical)

theorem Frame.isBad_of_isCritical (frame : Frame) (h : frame.isCritical = true) :
    frame.isBad = true := by
  cases frame <;> simp_all [Frame.isCritical, Frame.isBad]

theorem Frame.isBad_eq_false_of_isGood (frame : Frame) (h : frame.isGood = true) :
    frame.isBad = false := by
  cases frame <;> simp_all [Frame.isGood, Frame.isBad]

/-- The three counters are the lengths of the runs that end the history. -/
structure CountersTrail (hysteresis : Hysteresis) (frames : List Frame) : Prop where
  good : hysteresis.consecutiveGoodFrames = trailing Frame.isGood frames
  bad : hysteresis.consecutiveBadFrames = trailing Frame.isBad frames
  critical : hysteresis.consecutiveCriticalFrames = trailing Frame.isCritical frames

theorem CountersTrail.count {hysteresis : Hysteresis} {frames : List Frame}
    (h : CountersTrail hysteresis frames) (frame : Frame) :
    CountersTrail (hysteresis.count frame) (frames ++ [frame]) := by
  cases frame <;> constructor <;>
    simp [Hysteresis.count, trailing_concat, Frame.isGood, Frame.isBad, Frame.isCritical,
      h.good, h.bad, h.critical]

theorem countersTrail_run (config : Config) (frames : List Frame) :
    CountersTrail (Hysteresis.run config frames) frames := by
  induction frames using List.reverseRecOn with
  | nil => exact ⟨rfl, rfl, rfl⟩
  | append_singleton frames frame ih =>
    rw [Hysteresis.run_concat]
    obtain ⟨hgood, hbad, hcritical⟩ := ih.count frame
    exact ⟨hgood, hbad, hcritical⟩

/-! ## The state as a function of the frames -/

/-- A critical run is the last thing that counts. -/
def LostBy (config : Config) (frames : List Frame) : Prop :=
  StandsSince Frame.isCritical config.badFramesToLost Frame.isGood config.goodFramesToRecover frames

/-- A good run has been completed and no run of non-good frames after it. -/
def LocalizedBy (config : Config) (frames : List Frame) : Prop :=
  StandsSince Frame.isGood config.goodFramesToRecover Frame.isBad config.badFramesToDegraded frames

def DegradedBy (config : Config) (frames : List Frame) : Prop :=
  Completed Frame.isBad config.badFramesToDegraded frames

/-- The verdict the hysteresis is meant to reach on a sequence of frames. -/
structure Verdict (config : Config) (frames : List Frame) (state : QualityState) : Prop where
  lost : state = .lost ↔ LostBy config frames
  localized : state = .localized ↔ ¬LostBy config frames ∧ LocalizedBy config frames
  degraded : state = .degraded ↔
    ¬LostBy config frames ∧ ¬LocalizedBy config frames ∧ DegradedBy config frames
  unknown : state = .unknown ↔
    ¬LostBy config frames ∧ ¬LocalizedBy config frames ∧ ¬DegradedBy config frames

theorem verdict_iff {config : Config} {frames : List Frame} {state : QualityState} :
    Verdict config frames state ↔
      (state = .lost ↔ LostBy config frames) ∧
      (state = .localized ↔ ¬LostBy config frames ∧ LocalizedBy config frames) ∧
      (state = .degraded ↔
        ¬LostBy config frames ∧ ¬LocalizedBy config frames ∧ DegradedBy config frames) ∧
      (state = .unknown ↔
        ¬LostBy config frames ∧ ¬LocalizedBy config frames ∧ ¬DegradedBy config frames) :=
  ⟨fun h ↦ ⟨h.lost, h.localized, h.degraded, h.unknown⟩, fun ⟨h1, h2, h3, h4⟩ ↦ ⟨h1, h2, h3, h4⟩⟩

theorem verdict_nil {config : Config} (hcounts : FrameCountsValid config) :
    Verdict config [] .unknown := by
  have hlost : ¬LostBy config [] := not_standsSince_nil _ hcounts.lost_pos _ _
  have hlocalized : ¬LocalizedBy config [] := not_standsSince_nil _ hcounts.recover_pos _ _
  have hdegraded : ¬DegradedBy config [] := not_completed_nil _ hcounts.degraded_pos
  constructor <;> simp [hlost, hlocalized, hdegraded]

/-- At most one of the three runs a frame can complete excludes the others, except that a
critical run is also a run of non-good frames. -/
theorem CountersTrail.completed_cases {config : Config} (hcounts : FrameCountsValid config)
    {frames : List Frame} {counted : Hysteresis} (h : CountersTrail counted frames) :
    (config.badFramesToDegraded ≤ counted.consecutiveBadFrames ∧
        ¬config.goodFramesToRecover ≤ counted.consecutiveGoodFrames) ∨
      (¬config.badFramesToLost ≤ counted.consecutiveCriticalFrames ∧
        ¬config.badFramesToDegraded ≤ counted.consecutiveBadFrames) := by
  have hdegraded := hcounts.degraded_pos
  have hrecover := hcounts.recover_pos
  have hle := hcounts.degraded_le_lost
  have hcriticalBad : counted.consecutiveCriticalFrames ≤ counted.consecutiveBadFrames := by
    rw [h.critical, h.bad]
    exact trailing_mono Frame.isBad_of_isCritical frames
  have hexclusive :
      counted.consecutiveGoodFrames = 0 ∨ counted.consecutiveBadFrames = 0 := by
    rw [h.good, h.bad]
    exact trailing_eq_zero_or Frame.isBad_eq_false_of_isGood frames
  omega

theorem lostBy_concat (config : Config) (frames : List Frame) (frame : Frame) :
    LostBy config (frames ++ [frame]) ↔
      config.badFramesToLost ≤ trailing Frame.isCritical (frames ++ [frame]) ∨
        (LostBy config frames ∧
          ¬config.goodFramesToRecover ≤ trailing Frame.isGood (frames ++ [frame])) :=
  standsSince_concat ..

theorem localizedBy_concat (config : Config) (frames : List Frame) (frame : Frame) :
    LocalizedBy config (frames ++ [frame]) ↔
      config.goodFramesToRecover ≤ trailing Frame.isGood (frames ++ [frame]) ∨
        (LocalizedBy config frames ∧
          ¬config.badFramesToDegraded ≤ trailing Frame.isBad (frames ++ [frame])) :=
  standsSince_concat ..

theorem degradedBy_concat (config : Config) (frames : List Frame) (frame : Frame) :
    DegradedBy config (frames ++ [frame]) ↔
      DegradedBy config frames ∨
        config.badFramesToDegraded ≤ trailing Frame.isBad (frames ++ [frame]) :=
  completed_concat ..

/-- One frame preserves the verdict: the ordered chain of branches picks the run that has just
been completed. -/
theorem Verdict.step {config : Config} (hcounts : FrameCountsValid config)
    {frames : List Frame} {hysteresis : Hysteresis} (htrail : CountersTrail hysteresis frames)
    (h : Verdict config frames hysteresis.state) (frame : Frame) :
    Verdict config (frames ++ [frame]) (hysteresis.step config frame).state := by
  have hcounted := htrail.count frame
  have hstate : (hysteresis.count frame).state = hysteresis.state := by cases frame <;> rfl
  have hlost := lostBy_concat config frames frame
  have hlocalized := localizedBy_concat config frames frame
  have hdegraded := degradedBy_concat config frames frame
  rw [← hcounted.critical, ← hcounted.good] at hlost
  rw [← hcounted.good, ← hcounted.bad] at hlocalized
  rw [← hcounted.bad] at hdegraded
  simp only [Hysteresis.step, Hysteresis.transition, hstate]
  rcases hcounted.completed_cases hcounts with ⟨hbad, hgood⟩ | ⟨hcritical, hbad⟩
  · -- a bad run ends here, and a critical run if the critical counter says so
    by_cases hcritical : config.badFramesToLost ≤
        (hysteresis.count frame).consecutiveCriticalFrames <;>
      cases hcase : hysteresis.state <;> rw [hcase] at h <;>
      simp_all [verdict_iff, -not_le, -Nat.not_le]
  · by_cases hgood : config.goodFramesToRecover ≤
        (hysteresis.count frame).consecutiveGoodFrames <;>
      cases hcase : hysteresis.state <;> rw [hcase] at h <;>
      simp_all [verdict_iff, -not_le, -Nat.not_le]

theorem verdict_run {config : Config} (hcounts : FrameCountsValid config) (frames : List Frame) :
    Verdict config frames (Hysteresis.run config frames).state := by
  induction frames using List.reverseRecOn with
  | nil => exact verdict_nil hcounts
  | append_singleton frames frame ih =>
    rw [Hysteresis.run_concat]
    exact ih.step hcounts (countersTrail_run config frames) frame

/-! ## Direct transitions -/

theorem state_run_ne_degraded_of_lost {config : Config} (hcounts : FrameCountsValid config)
    (frames : List Frame) (frame : Frame) (h : (Hysteresis.run config frames).state = .lost) :
    (Hysteresis.run config (frames ++ [frame])).state ≠ .degraded := by
  intro hnext
  have hlost := (verdict_run hcounts frames).lost.mp h
  obtain ⟨hnotLost, hnotLocalized, -⟩ := (verdict_run hcounts (frames ++ [frame])).degraded.mp hnext
  rw [lostBy_concat] at hnotLost
  rw [localizedBy_concat] at hnotLocalized
  -- leaving LOST takes a good run, and a good run makes LOCALIZED
  have hgood : config.goodFramesToRecover ≤ trailing Frame.isGood (frames ++ [frame]) := by
    by_contra hgood
    exact hnotLost (Or.inr ⟨hlost, hgood⟩)
  exact hnotLocalized (Or.inl hgood)

theorem counts_eq_of_localized_to_lost {config : Config} (hcounts : FrameCountsValid config)
    (frames : List Frame) (frame : Frame) (h : (Hysteresis.run config frames).state = .localized)
    (hnext : (Hysteresis.run config (frames ++ [frame])).state = .lost) :
    config.badFramesToLost = config.badFramesToDegraded := by
  obtain ⟨hnotLost, hlocalized⟩ := (verdict_run hcounts frames).localized.mp h
  have hlost := (verdict_run hcounts (frames ++ [frame])).lost.mp hnext
  have hcritical : config.badFramesToLost ≤ trailing Frame.isCritical (frames ++ [frame]) := by
    rcases (lostBy_concat config frames frame).mp hlost with hcritical | ⟨hbefore, -⟩
    · exact hcritical
    · exact absurd hbefore hnotLost
  have hshort : trailing Frame.isBad frames < config.badFramesToDegraded :=
    hlocalized.trailing_lt Frame.isBad_eq_false_of_isGood hcounts.recover_pos hcounts.degraded_pos
  have hgrown : trailing Frame.isBad (frames ++ [frame]) ≤ trailing Frame.isBad frames + 1 := by
    rw [trailing_concat]
    split <;> omega
  refine le_antisymm ?_ hcounts.degraded_le_lost
  calc
    config.badFramesToLost ≤ trailing Frame.isCritical (frames ++ [frame]) := hcritical
    _ ≤ trailing Frame.isBad (frames ++ [frame]) := trailing_mono Frame.isBad_of_isCritical _
    _ ≤ trailing Frame.isBad frames + 1 := hgrown
    _ ≤ config.badFramesToDegraded := hshort

/-- The quality state is the verdict on the frames of the running session, for every sequence of
frames and for every history of a monitor. LOST is never followed by DEGRADED, and LOCALIZED is
followed by LOST only when the two counts of bad frames agree. -/
theorem hysteresis_characterization [Rounding] (setup : Setup)
    (hcounts : FrameCountsValid setup.config) :
    (∀ frames, Verdict setup.config frames (Hysteresis.run setup.config frames).state) ∧
      ∀ events,
        Verdict setup.config (setup.sessionFrames events) (setup.run events).hysteresis.state ∧
        ∀ event,
          ((setup.run events).hysteresis.state = .lost →
            (setup.run (events ++ [event])).hysteresis.state ≠ .degraded) ∧
          ((setup.run events).hysteresis.state = .localized →
            (setup.run (events ++ [event])).hysteresis.state = .lost →
            setup.config.badFramesToLost = setup.config.badFramesToDegraded) := by
  refine ⟨verdict_run hcounts, fun events ↦ ⟨?_, fun event ↦ ?_⟩⟩
  · rw [hysteresis_eq_run_sessionFrames]
    exact verdict_run hcounts _
  · rw [Setup.run_concat]
    rcases setup.apply_cases (setup.run events) (setup.sessionFrames events) event with
      ⟨hsame, -⟩ | ⟨hclear, -⟩ | ⟨frame, hstep, -⟩
    · rw [hsame]
      exact ⟨fun h ↦ by simp [h], fun h hlost ↦ by simp [h] at hlost⟩
    · rw [hclear]
      exact ⟨fun _ ↦ by simp, fun _ hlost ↦ by simp at hlost⟩
    · rw [hstep, hysteresis_eq_run_sessionFrames, ← Hysteresis.run_concat]
      exact ⟨state_run_ne_degraded_of_lost hcounts _ frame,
        counts_eq_of_localized_to_lost hcounts _ frame⟩

theorem hysteresis_characterization_default :
    FrameCountsValid ({} : Config) ∧
      Verdict {} [.critical, .critical, .critical]
        (Hysteresis.run {} [.critical, .critical, .critical]).state := by
  have hcounts : FrameCountsValid ({} : Config) := ⟨by decide, by decide, by decide, by decide⟩
  exact ⟨hcounts, (hysteresis_characterization
    { config := {}, math := ⟨id, id, id, fun _ _ ↦ 0, fun _ _ ↦ abs_zero_le_four⟩,
      mapFrame := "map" } hcounts).1 _⟩

end SlamSystemManager.Quality
