import SlamSystemManager.Quality.Hysteresis

/-!
# When a valid pose has been earned

`evaluate` may call a pose valid in LOCALIZED and in DEGRADED. LOCALIZED takes a run of good
frames, but DEGRADED is also entered from UNKNOWN by a run of bad ones. A valid pose has been
earned when a run of good frames was completed after the last point at which the state was
UNKNOWN or LOST: always, unless the last transition was that from UNKNOWN to DEGRADED.
-/

open ConsecutiveRuns Numeric

namespace SlamSystemManager.Quality

section Earning

variable [Rounding]

/-- The quality state after the first `i` events. -/
def Setup.stateAt (setup : Setup) (events : List Event) (i : ℕ) : QualityState :=
  (setup.run (events.take i)).hysteresis.state

/-- A run of good frames was completed and made LOCALIZED at a point from which on the state was
neither UNKNOWN nor LOST. -/
def Setup.Earned (setup : Setup) (events : List Event) : Prop :=
  ∃ i ≤ events.length,
    setup.config.goodFramesToRecover ≤
        trailing Frame.isGood (setup.sessionFrames (events.take i)) ∧
      setup.stateAt events i = .localized ∧
      ∀ j ≤ events.length, i ≤ j → (setup.stateAt events j).Trusted

/-- The state has gone from UNKNOWN to DEGRADED and has stayed there. -/
def Setup.EnteredDegraded (setup : Setup) (events : List Event) : Prop :=
  ∃ i < events.length, setup.stateAt events i = .unknown ∧
    ∀ j ≤ events.length, i < j → setup.stateAt events j = .degraded

theorem stateAt_length (setup : Setup) (events : List Event) :
    setup.stateAt events events.length = (setup.run events).hysteresis.state := by
  rw [Setup.stateAt, List.take_length]

theorem stateAt_concat_of_le (setup : Setup) (events : List Event) (event : Event) {i : ℕ}
    (hi : i ≤ events.length) :
    setup.stateAt (events ++ [event]) i = setup.stateAt events i := by
  rw [Setup.stateAt, Setup.stateAt, List.take_append_of_le_length hi]

theorem earned_concat (setup : Setup) (events : List Event) (event : Event) :
    setup.Earned (events ++ [event]) ↔
      (setup.run (events ++ [event])).hysteresis.state.Trusted ∧
        ((setup.config.goodFramesToRecover ≤
              trailing Frame.isGood (setup.sessionFrames (events ++ [event])) ∧
            (setup.run (events ++ [event])).hysteresis.state = .localized) ∨
          setup.Earned events) := by
  have hlength : (events ++ [event]).length = events.length + 1 := by simp
  rw [← stateAt_length]
  constructor
  · rintro ⟨i, hi, hgood, hlocalized, hsince⟩
    refine ⟨hsince _ le_rfl hi, ?_⟩
    rcases Nat.lt_or_ge events.length i with hend | hbefore
    · have hlast : i = (events ++ [event]).length := by omega
      subst hlast
      rw [List.take_length] at hgood
      exact Or.inl ⟨hgood, hlocalized⟩
    · rw [stateAt_concat_of_le setup events event hbefore] at hlocalized
      rw [List.take_append_of_le_length hbefore] at hgood
      refine Or.inr ⟨i, hbefore, hgood, hlocalized, fun j hj hij ↦ ?_⟩
      rw [← stateAt_concat_of_le setup events event hj]
      exact hsince j (by omega) hij
  · rintro ⟨htrusted, ⟨hgood, hlocalized⟩ | ⟨i, hi, hgood, hlocalized, hsince⟩⟩
    · refine ⟨_, le_rfl, by rwa [List.take_length], hlocalized, fun j hj hij ↦ ?_⟩
      rwa [le_antisymm hj hij]
    · refine ⟨i, by omega, by rwa [List.take_append_of_le_length hi],
        by rwa [stateAt_concat_of_le setup events event hi], fun j hj hij ↦ ?_⟩
      rcases Nat.lt_or_ge events.length j with hend | hbefore
      · rwa [le_antisymm hj (by omega)]
      · rw [stateAt_concat_of_le setup events event hbefore]
        exact hsince j hbefore hij

theorem enteredDegraded_concat (setup : Setup) (events : List Event) (event : Event) :
    setup.EnteredDegraded (events ++ [event]) ↔
      (setup.run (events ++ [event])).hysteresis.state = .degraded ∧
        ((setup.run events).hysteresis.state = .unknown ∨ setup.EnteredDegraded events) := by
  have hlength : (events ++ [event]).length = events.length + 1 := by simp
  rw [← stateAt_length, ← stateAt_length]
  constructor
  · rintro ⟨i, hi, hunknown, hsince⟩
    refine ⟨hsince _ le_rfl hi, ?_⟩
    rw [stateAt_concat_of_le setup events event (by omega)] at hunknown
    rcases Nat.lt_or_ge i events.length with hbefore | hend
    · refine Or.inr ⟨i, hbefore, hunknown, fun j hj hij ↦ ?_⟩
      rw [← stateAt_concat_of_le setup events event hj]
      exact hsince j (by omega) hij
    · have hlast : i = events.length := by omega
      exact Or.inl (hlast ▸ hunknown)
  · rintro ⟨hdegraded, hunknown | ⟨i, hi, hunknown, hsince⟩⟩
    · refine ⟨events.length, by omega, ?_, fun j hj hij ↦ ?_⟩
      · rwa [stateAt_concat_of_le setup events event le_rfl]
      · have hlast : j = (events ++ [event]).length := by omega
        rwa [hlast]
    · refine ⟨i, by omega, ?_, fun j hj hij ↦ ?_⟩
      · rwa [stateAt_concat_of_le setup events event hi.le]
      · rcases Nat.lt_or_ge events.length j with hend | hbefore
        · have hlast : j = (events ++ [event]).length := by omega
          rwa [hlast]
        · rw [stateAt_concat_of_le setup events event hbefore]
          exact hsince j hbefore hij

theorem Setup.EnteredDegraded.state {setup : Setup} {events : List Event}
    (h : setup.EnteredDegraded events) : (setup.run events).hysteresis.state = .degraded := by
  obtain ⟨i, hi, -, hsince⟩ := h
  rw [← stateAt_length]
  exact hsince _ le_rfl hi

/-- What has been earned was LOCALIZED after the last UNKNOWN. -/
theorem Setup.EnteredDegraded.not_earned {setup : Setup} {events : List Event}
    (h : setup.EnteredDegraded events) : ¬setup.Earned events := by
  rintro ⟨i, hi, -, hlocalized, htrusted⟩
  obtain ⟨j, hj, hunknown, hdegraded⟩ := h
  rcases Nat.lt_or_ge j i with hafter | hbefore
  · rw [hdegraded i hi hafter] at hlocalized
    cases hlocalized
  · exact (htrusted j hj.le hbefore).1 hunknown

end Earning

/-! ## Transitions -/

@[simp] theorem Hysteresis.state_count (hysteresis : Hysteresis) (frame : Frame) :
    (hysteresis.count frame).state = hysteresis.state := by
  cases frame <;> rfl

/-- LOCALIZED is entered by the last frame of a run of good ones. -/
theorem Hysteresis.good_of_localized {config : Config} {hysteresis : Hysteresis} {frame : Frame}
    (h : (hysteresis.step config frame).state = .localized) :
    hysteresis.state = .localized ∨
      config.goodFramesToRecover ≤ (hysteresis.count frame).consecutiveGoodFrames := by
  simp only [Hysteresis.step, Hysteresis.transition, state_count] at h
  split_ifs at h with _ _ _ hrecovers
  · cases h
  · cases h
  · cases h
  · exact Or.inr hrecovers.2
  · exact Or.inl h

/-- LOST is not left for DEGRADED. -/
theorem Hysteresis.ne_lost_of_degraded {config : Config} {hysteresis : Hysteresis} {frame : Frame}
    (h : (hysteresis.step config frame).state = .degraded) : hysteresis.state ≠ .lost := by
  intro hlost
  simp only [Hysteresis.step, Hysteresis.transition, state_count, hlost] at h
  split_ifs at h <;> simp_all

/-- A trusted state has been earned, unless it is the DEGRADED that UNKNOWN was left for. -/
theorem earned_or_enteredDegraded [Rounding] (setup : Setup) (events : List Event)
    (htrusted : (setup.run events).hysteresis.state.Trusted) :
    setup.Earned events ∨ setup.EnteredDegraded events := by
  induction events using List.reverseRecOn with
  | nil => exact absurd rfl htrusted.1
  | append_singleton events event ih =>
    -- a state that was earned or entered before stays so as long as it is kept
    have hearned (h : setup.Earned events) : setup.Earned (events ++ [event]) :=
      (earned_concat ..).mpr ⟨htrusted, Or.inr h⟩
    have hentered (hdegraded : (setup.run (events ++ [event])).hysteresis.state = .degraded)
        (h : setup.EnteredDegraded events) : setup.EnteredDegraded (events ++ [event]) :=
      (enteredDegraded_concat ..).mpr ⟨hdegraded, Or.inr h⟩
    rcases setup.apply_cases (setup.run events) (setup.sessionFrames events) event with
      ⟨hsame, -⟩ | ⟨hclear, -⟩ | ⟨frame, hstep, hframes⟩
    · rw [← Setup.run_concat] at hsame
      rw [hsame] at htrusted
      exact (ih htrusted).imp hearned fun h ↦ hentered (by rw [hsame, h.state]) h
    · rw [Setup.run_concat, hclear] at htrusted
      exact absurd rfl htrusted.1
    · rw [← Setup.run_concat] at hstep
      rw [← Setup.sessionFrames_concat] at hframes
      cases hstate : (setup.run (events ++ [event])).hysteresis.state with
      | unknown => exact absurd hstate htrusted.1
      | lost => exact absurd hstate htrusted.2
      | localized =>
        rcases Hysteresis.good_of_localized (hstep ▸ hstate) with hbefore | hgood
        · rcases ih (by simp [hbefore, QualityState.Trusted]) with h | h
          · exact Or.inl (hearned h)
          · have hdegraded := h.state
            rw [hbefore] at hdegraded
            cases hdegraded
        · rw [hysteresis_eq_run_sessionFrames,
            ((countersTrail_run setup.config (setup.sessionFrames events)).count frame).good,
            ← hframes] at hgood
          exact Or.inl ((earned_concat ..).mpr ⟨htrusted, Or.inl ⟨hgood, hstate⟩⟩)
      | degraded =>
        have hnotLost := Hysteresis.ne_lost_of_degraded (hstep ▸ hstate)
        by_cases hunknown : (setup.run events).hysteresis.state = .unknown
        · exact Or.inr ((enteredDegraded_concat ..).mpr ⟨hstate, Or.inl hunknown⟩)
        · exact (ih ⟨hunknown, hnotLost⟩).imp hearned (hentered hstate)

/-! ## Valid poses -/

/-- A valid pose has been earned unless the last transition was that from UNKNOWN to DEGRADED. -/
theorem earned_iff_of_poseValid [Rounding] (setup : Setup) (events : List Event) (now : Time)
    (context : Context)
    (hvalid : (setup.run (events ++ [.evaluate now context])).status.poseValid = true) :
    setup.Earned (events ++ [.evaluate now context]) ↔
      ¬setup.EnteredDegraded (events ++ [.evaluate now context]) := by
  have htrusted : (setup.run (events ++ [.evaluate now context])).hysteresis.state.Trusted := by
    rw [Setup.run_concat, Setup.apply] at hvalid ⊢
    exact ((poseValid_evaluate ..).mp hvalid).2.2.1
  constructor
  · exact fun hearned hentered ↦ hentered.not_earned hearned
  · exact (earned_or_enteredDegraded setup _ htrusted).resolve_right

def defaultSetup : Setup := ⟨{}, ⟨id, id, id, fun _ _ ↦ 0, fun _ _ ↦ abs_zero_le_four⟩, "map"⟩

def originPose : StampedPose :=
  ⟨"map", 1, ⟨⟨.fin 0, .fin 0, .fin 0⟩, ⟨.fin 0, .fin 0, .fin 0, .fin 1⟩⟩⟩

def fullContext : Context := ⟨true, true, true, true⟩

/-- One sample of each stream and nine evaluations; the tenth completes a run of good frames. -/
def healthyStart : List Event :=
  [.odometry originPose 0, .pose originPose 0, .correction originPose 0] ++
    List.replicate 9 (.evaluate 0 fullContext)

theorem earned_healthyStart : defaultSetup.Earned (healthyStart ++ [.evaluate 0 fullContext]) := by
  refine (earned_iff_of_poseValid defaultSetup healthyStart 0 fullContext
    (by decide +kernel)).mpr fun hentered ↦ ?_
  have hlocalized :
      (defaultSetup.run (healthyStart ++ [.evaluate 0 fullContext])).hysteresis.state =
        .localized := by decide +kernel
  rw [hentered.state] at hlocalized
  cases hlocalized

/-- Three evaluations without data lead from UNKNOWN to DEGRADED, and the first frame with data
publishes a valid pose. -/
def degradedStart : List Event :=
  List.replicate 3 (.evaluate 0 fullContext) ++
    [.odometry originPose 0, .pose originPose 0, .correction originPose 0]

theorem poseValid_before_recovery :
    loadConfig (some (localizationQualityYaml [])) = .ok defaultSetup.config ∧
      (defaultSetup.run (degradedStart ++ [.evaluate 0 fullContext])).status.poseValid = true ∧
      ¬defaultSetup.Earned (degradedStart ++ [.evaluate 0 fullContext]) := by
  have hentered : defaultSetup.EnteredDegraded (degradedStart ++ [.evaluate 0 fullContext]) := by
    have hlater : ∀ j ≤ 7, 2 < j → defaultSetup.stateAt
        (degradedStart ++ [.evaluate 0 fullContext]) j = .degraded := by decide +kernel
    exact ⟨2, by decide, by decide +kernel, hlater⟩
  exact ⟨loadConfig_localizationQualityYaml, by decide +kernel, hentered.not_earned⟩

end SlamSystemManager.Quality
