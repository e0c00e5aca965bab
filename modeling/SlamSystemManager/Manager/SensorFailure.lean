import SlamSystemManager.Manager.Phases

/-!
# Sensor failures and finished sessions

A tick of the sensor timer reads the state in one section, reports a failure in a second one and
enters ERROR in a third. A stop or a save that ends its session in between turns the failure of the
session into an ERROR entered from WAIT_MODE. Unless that happens, ERROR is entered from an active
state, and for a session that has not ended.
-/

open TransitionSystem

namespace SlamSystemManager.Manager

/-! ## The history of the timers -/

/-- What the running timer has read, beside the sessions that have ended. -/
structure FailureHistory where
  /-- The state a tick of the sensor timer has read, and whether the sensors were ready. -/
  snapshot : Option (SystemState × Bool) := none
  /-- How many sessions a stop or a save has ended in WAIT_MODE. -/
  ended : ℕ := 0
  /-- How many had ended when a timer last read the state. -/
  seen : ℕ := 0

/-- The step in which a stop or a save leads to WAIT_MODE. -/
def Operation.endsSession : Operation → Bool
  | .stopMapping .toWait | .saveMap _ .toWait | .stopLocalization .toWait => true
  | _ => false

/-- Whether a step of the operation thread ends a session in WAIT_MODE. -/
def Sys.endsSession (s : Sys) (env : Env) : Bool :=
  env.throws.isNone && s.shared.currentState.canTransition .waitMode &&
    s.operation.any Operation.endsSession

def FailureHistory.note (h : FailureHistory) (s : Sys) (a : Action) (_ : Sys) : FailureHistory :=
  match a with
  | .handler _ =>
    match s.handler with
    | some (.sensorTick (.snapshot status _)) =>
      { h with snapshot := some (s.shared.currentState, status.sensorReady), seen := h.ended }
    | some (.processTick .snapshot) => { h with seen := h.ended }
    | _ => h
  | .operation env => if s.endsSession env then { h with ended := h.ended + 1 } else h
  | _ => h

/-- The manager beside the history of its timers. -/
abbrev failureStep (config : Config) :
    Sys × FailureHistory → Action → Option (Sys × FailureHistory) :=
  noting (Sys.step config) FailureHistory.note

/-- Whether a tick of the sensor timer has read an active state and not yet entered ERROR. -/
def Handler.reportsFailure : Handler → Bool
  | .sensorTick (.reportFailure _) | .sensorTick .enterError => true
  | _ => false

/-- No session ends while a tick of the sensor timer is about to enter ERROR. -/
def notWhileReporting (s : Sys) : Action → Prop
  | .operation env => s.handler.any Handler.reportsFailure = true → s.endsSession env = false
  | _ => True

/-! ## What the timers have read -/

/-- The failure read last is not one of idle sensors. -/
def FailureHistory.NotIdle (h : FailureHistory) : Prop :=
  ∀ state, h.snapshot = some (state, false) → state.isIdle = false

/-- What holds of a timer that stands at a program counter. -/
def Reading (s : Sys) (h : FailureHistory) : Handler → Prop
  | .sensorTick .readStatus | .sensorTick (.snapshot _ _) | .sensorTick (.restart _)
  | .sensorTick (.reportWaiting _) => True
  | .sensorTick (.reportFailure _) | .sensorTick .enterError =>
    (s.shared.currentState.isActiveSlamState = true ∨ s.shared.currentState = .error) ∧
      h.seen = h.ended ∧ h.NotIdle
  | .sensorTick _ => h.NotIdle
  | .processTick .snapshot => True
  | .processTick _ => s.operation = none ∧ h.seen = h.ended
  | _ => True

theorem isIdle_of_active {state : SystemState} (h : state.isActiveSlamState = true) :
    state.isIdle = false := by
  cases state <;> first | rfl | cases h

theorem reading_snapshot {config : Config} {s : Sys} {shared : Shared} {h : FailureHistory}
    {status : SensorStatus} {now : Time} {next : Handler}
    (hstep : sensorSnapshot config status now s.shared = (shared, .next next)) :
    Reading { s with shared := shared, handler := some next }
      { h with
        snapshot := some (s.shared.currentState, status.sensorReady)
        seen := h.ended } next := by
  simp only [sensorSnapshot] at hstep
  split_ifs at hstep with hready hstarting hsensor hactive hgrace hidle hwaiting
  all_goals cases hstep
  · intro state hstate
    simp [hready] at hstate
  · intro state hstate
    simp [hready] at hstate
  · refine ⟨Or.inl hactive, rfl, fun state hstate ↦ ?_⟩
    simp only [Option.some.injEq, Prod.mk.injEq] at hstate
    rw [← hstate.1]
    exact isIdle_of_active hactive
  · trivial
  · trivial

/-- A step of a timer carries on what the timer has read. -/
theorem Reading.handler_step {config : Config} {env : Env} {s : Sys} {h : FailureHistory}
    {handler next : Handler} {shared : Shared} (hexclusive : s.Exclusive)
    (hreading : Reading s h handler) (hhandler : s.handler = some handler)
    (hstep : handler.step config env s.shared = (shared, .next next)) (s' : Sys) :
    Reading { s with shared := shared, handler := some next } (h.note s (.handler env) s')
      next := by
  cases handler with
  | sensorTick pc =>
    cases pc with
    | snapshot status now =>
      simp only [FailureHistory.note, hhandler]
      exact reading_snapshot hstep
    | claim mapping localization | restart status =>
      simp only [Handler.step, SensorTick.step] at hstep
      split_ifs at hstep <;> cases hstep
      all_goals trivial
    | reportWaiting status =>
      simp only [Handler.step, SensorTick.step] at hstep
      split at hstep <;> cases hstep
    | enterError =>
      cases hstep
      simp only [FailureHistory.note, hhandler]
      exact hreading.2.2
    | _ =>
      cases hstep
      all_goals
        simp only [FailureHistory.note, hhandler]
        exact hreading
  | processTick pc =>
    cases pc with
    | snapshot =>
      simp only [Handler.step, ProcessTick.step] at hstep
      split_ifs at hstep with htoken
      all_goals cases hstep
      all_goals
        simp only [FailureHistory.note, hhandler]
        exact ⟨(hexclusive.free (by simpa using htoken)).2, rfl⟩
    | checkRunning leader =>
      simp only [Handler.step, ProcessTick.step] at hstep
      split_ifs at hstep
      all_goals cases hstep
      simp only [FailureHistory.note, hhandler]
      exact hreading
    | readExitCode | report =>
      cases hstep
      simp only [FailureHistory.note, hhandler]
      exact hreading
    | enterError => cases hstep
  | _ => cases Handler.follows_of_step hstep <;> trivial

/-! ## Runs -/

/-- The operation thread leads from an active state to WAIT_MODE by the end of a session only. -/
theorem endsSession_of_step {config : Config} {env : Env} {s : Sys} {running : Operation}
    (hoperation : s.operation = some running)
    (hphase : Phase.operation running s.shared.currentState = true)
    (hactive : s.shared.currentState.isActiveSlamState = true)
    (hwait : (running.step config env s.shared).1.currentState = .waitMode) :
    s.endsSession env = true := by
  rcases running.step_cases config env s.shared with ⟨hrun, hthrows⟩ | ⟨-, -, code, what, hthrow⟩
  · have heffect := (running.effect config env s.shared)
    rcases heffect with ⟨rfl, hend⟩ | ⟨-, s', next, hnext, hcontinues⟩
    · rw [hend] at hwait
      rw [show s.shared.currentState = .waitMode from hwait] at hactive
      cases hactive
    · rw [hnext] at hwait
      rcases hcontinues.effect.state with hsame | ⟨htarget, hcan⟩
      · rw [hwait] at hsame
        rw [← hsame] at hactive
        cases hactive
      · simp only at hwait
        rw [hwait] at htarget hcan
        have hends : running.endsSession = true := by
          unfold Operation.target at htarget
          split at htarget
          all_goals simp only [Option.some.injEq, reduceCtorEq] at htarget
          case h_3 | h_4 | h_5 => rfl
          case h_6 =>
            have hrecovering : s.shared.currentState = .recovering := by
              simpa [Phase.operation] using hphase
            rw [hrecovering] at hactive
            cases hactive
        have hbody : running.isBody = true := by
          unfold Operation.endsSession at hends
          split at hends <;> first | rfl | cases hends
        simp [Sys.endsSession, hthrows hbody, hcan, hoperation, hends]
  · rw [hthrow] at hwait
    rw [show s.shared.currentState = .waitMode from hwait] at hactive
    cases hactive

/-- What the running handler has read, if it is a timer. -/
def FailureHistory.Sound (s : Sys) (h : FailureHistory) : Prop :=
  ∀ handler, s.handler = some handler → Reading s h handler

theorem Reading.congr {s s' : Sys} {h : FailureHistory} {handler : Handler}
    (hreading : Reading s h handler) (hoperation : s'.operation = s.operation)
    (hstate : s'.shared.currentState = s.shared.currentState ∨
      (s.shared.currentState.isLocalizationState = true ∧
        s'.shared.currentState.isLocalizationState = true)) : Reading s' h handler := by
  cases handler with
  | sensorTick pc =>
    cases pc with
    | reportFailure | enterError =>
      refine ⟨?_, hreading.2⟩
      rcases hstate with hsame | ⟨-, hlocalization⟩
      · rw [hsame]
        exact hreading.1
      · exact Or.inl (by simp [SystemState.isActiveSlamState, hlocalization])
    | _ => exact hreading
  | processTick pc =>
    cases pc with
    | snapshot => trivial
    | _ => exact ⟨hoperation.trans hreading.1, hreading.2⟩
  | _ => trivial

theorem Reading.operation_step {config : Config} {env : Env} {s s' : Sys} {h : FailureHistory}
    {handler : Handler} {running : Operation} (hreading : Reading s h handler)
    (hphase : Phase.operation running s.shared.currentState = true)
    (hok : notWhileReporting s (.operation env)) (hhandler : s.handler = some handler)
    (hoperation : s.operation = some running)
    (hstate : s'.shared.currentState = (running.step config env s.shared).1.currentState) :
    Reading s' (h.note s (.operation env) s') handler := by
  have hsnapshot : (h.note s (.operation env) s').snapshot = h.snapshot := by
    simp only [FailureHistory.note]
    split <;> rfl
  have hidle : h.NotIdle → (h.note s (.operation env) s').NotIdle := by
    intro hidle state hread
    exact hidle state (hsnapshot ▸ hread)
  cases handler with
  | sensorTick pc =>
    cases pc with
    | reportFailure | enterError =>
      have hends : s.endsSession env = false := hok (by rw [hhandler]; rfl)
      obtain ⟨hfailing, hseen, hread⟩ := hreading
      refine ⟨?_, by simpa [FailureHistory.note, hends] using hseen, hidle hread⟩
      rw [hstate]
      rcases Phase.operation_moves config env hphase with hsame | herror | ⟨hactive, hafter⟩ | hrec
      · rw [hsame]
        exact hfailing
      · exact Or.inr herror
      · rcases hafter with hstill | hwait
        · exact Or.inl hstill
        · rw [endsSession_of_step hoperation hphase hactive hwait] at hends
          cases hends
      · rcases hfailing with hactive | herror
        · rw [hrec] at hactive
          cases hactive
        · rw [hrec] at herror
          cases herror
    | readStatus | snapshot | restart | reportWaiting => trivial
    | _ => exact hidle hreading
  | processTick pc =>
    cases pc with
    | snapshot => trivial
    | _ =>
      have hended : s.operation = none := hreading.1
      rw [hoperation] at hended
      cases hended
  | _ => trivial

theorem FailureHistory.Sound.step {config : Config} {s s' : Sys} {a : Action}
    {h : FailureHistory} (hexclusive : s.Exclusive) (hphase : Phase.outline.Holds s)
    (hsound : h.Sound s) (hok : notWhileReporting s a) (hstep : s.step config a = some s') :
    (h.note s a s').Sound s' := by
  intro handler hhandler
  cases a with
  | call request =>
    obtain ⟨-, rfl⟩ := Sys.call_of_step hstep
    cases hhandler
    cases request <;> trivial
  | handler env =>
    obtain ⟨before, r, hbefore, hr, hmove⟩ := Sys.handlerMove_of_step hstep
    cases hmove with
    | next hafter hsame =>
      cases hafter.symm.trans hhandler
      exact ((hsound before hbefore).handler_step hexclusive hbefore hr s').congr hsame (Or.inl rfl)
    | ended _ _ hafter | launched _ _ hafter =>
      rw [hafter] at hhandler
      cases hhandler
  | operation env =>
    obtain ⟨running, hrunning, rfl⟩ := Option.map_eq_some_iff.mp hstep
    exact (hsound handler hhandler).operation_step (hphase.operation running hrunning) hok hhandler
      hrunning rfl
  | deliver | callback | observe | exit | writeMap | takeSave | writeSave =>
    have hother := bystander_of_step hstep (by simp) (by simp) (by simp)
    exact (hsound handler (hother.handler ▸ hhandler)).congr hother.operation
      (Phase.drift_of_interference hother.interference)

theorem sound_of_reaches {config : Config} {s : Sys} {h : FailureHistory}
    (hreach : Reaches (failureStep config) (fun s ↦ notWhileReporting s.1)
      (fun s ↦ s.1.Initial ∧ s.2 = {}) (s, h)) : h.Sound s := by
  have hreachable (s : Sys × FailureHistory) (hs : Reaches (failureStep config)
      (fun s ↦ notWhileReporting s.1) (fun s ↦ s.1.Initial ∧ s.2 = {}) s) :
      Reachable config s.1 :=
    hs.of_noting (fun _ _ _ ↦ trivial) fun _ hinit ↦ hinit.1
  refine Reaches.invariant_of (P := fun s : Sys × FailureHistory ↦ s.2.Sound s.1) hreachable
    (fun s hinit handler hhandler ↦ ?_) (fun s a s' hs hsound hok hstep ↦ ?_) hreach
  · rw [hinit.1.handler] at hhandler
    cases hhandler
  · obtain ⟨hnext, hnote⟩ := noting_eq_some hstep
    rw [hnote]
    exact hsound.step hs.exclusive hs.phase hok hnext

/-- A step of the handler that enters ERROR is the last one of a timer that has read a failure. -/
theorem timer_of_error {config : Config} {env : Env} {s : Shared} {handler : Handler}
    (hstate : s.currentState ≠ .error)
    (herror : (handler.step config env s).1.currentState = .error) :
    handler = .sensorTick .enterError ∨ handler = .processTick .enterError := by
  rcases (handler.effect config env s).state with hsame | ⟨htarget, -⟩
  · rw [herror] at hsame
    exact absurd hsame.symm hstate
  · rw [herror] at htarget
    unfold Handler.target at htarget
    split at htarget
    all_goals simp only [Option.some.injEq, reduceCtorEq] at htarget
    · exact Or.inl rfl
    · exact Or.inr rfl

/-- After a failure of idle sensors a tick moves the state to SENSOR_STARTING or not at all. -/
theorem starting_of_idle {config : Config} {env : Env} {s : Sys} {h : FailureHistory}
    {pc : SensorTick} {state : SystemState} (hreading : Reading s h (.sensorTick pc))
    (hread : h.snapshot = some (state, false)) (hidle : state.isIdle = true)
    (hmoves : ((Handler.sensorTick pc).step config env s.shared).1.currentState ≠
      s.shared.currentState) :
    ((Handler.sensorTick pc).step config env s.shared).1.currentState = .sensorStarting := by
  have hfailed (hnot : h.NotIdle) : False := by
    rw [hnot state hread] at hidle
    cases hidle
  rcases ((Handler.sensorTick pc).effect config env s.shared).state with hsame | ⟨htarget, -⟩
  · exact absurd hsame hmoves
  · cases pc with
    | restart status => exact (Option.some.inj htarget).symm
    | toReady | toWait => exact (hfailed hreading).elim
    | enterError => exact (hfailed hreading.2.2).elim
    | _ => cases htarget

/-- In a run in which no session ends while a tick of the sensor timer is about to enter ERROR, such
a tick enters ERROR from an active state only; the failure of idle sensors leads to SENSOR_STARTING
only; and no timer enters ERROR when a stop or a save has ended a session since it has read the
state. -/
theorem sensor_failure_active (config : Config) (s : Sys) (h : FailureHistory)
    (hreach : Reaches (failureStep config) (fun s ↦ notWhileReporting s.1)
      (fun s ↦ s.1.Initial ∧ s.2 = {}) (s, h)) (handler : Handler) (env : Env) (s' : Sys)
    (hhandler : s.handler = some handler) (hstep : s.step config (.handler env) = some s')
    (hmoves : s'.shared.currentState ≠ s.shared.currentState) :
    (∀ pc, handler = .sensorTick pc → s'.shared.currentState = .error →
      s.shared.currentState.isActiveSlamState = true) ∧
    (∀ pc state, handler = .sensorTick pc → h.snapshot = some (state, false) →
      state.isIdle = true → s'.shared.currentState = .sensorStarting) ∧
    (s'.shared.currentState = .error → h.seen = h.ended) := by
  have hreading := sound_of_reaches hreach handler hhandler
  obtain ⟨before, hbefore, hnext⟩ := Option.bind_eq_some_iff.mp hstep
  rw [hhandler] at hbefore
  cases hbefore
  rw [Sys.shared_afterHandler hnext] at hmoves ⊢
  have htimer (herror : (handler.step config env s.shared).1.currentState = .error) :
      handler = .sensorTick .enterError ∨ handler = .processTick .enterError :=
    timer_of_error (fun hstate ↦ hmoves (herror.trans hstate.symm)) herror
  refine ⟨?_, ?_, fun herror ↦ ?_⟩
  · rintro pc rfl herror
    rcases htimer herror with hpc | hpc
    · cases hpc
      rcases hreading.1 with hactive | hstate
      · exact hactive
      · exact absurd (herror.trans hstate.symm) hmoves
    · cases hpc
  · rintro pc state rfl hread hidle
    exact starting_of_idle hreading hread hidle hmoves
  · rcases htimer herror with rfl | rfl
    · exact hreading.2.1
    · exact hreading.2

/-! ## Replays -/

/-- A mapping session, as far as the end of its start. -/
def mappingRun : List Action := toWaitMode ++ launchMapping "m" ++ enterMapping

/-- Whether a tick of the sensor timer is about to enter ERROR. -/
def Sys.atEnterError (s : Sys) : Bool :=
  match s.handler with
  | some (.sensorTick .enterError) => true
  | _ => false

theorem handler_of_atEnterError {s : Sys} (h : s.atEnterError = true) :
    s.handler = some (.sensorTick .enterError) := by
  unfold Sys.atEnterError at h
  split at h
  · assumption
  · cases h

theorem exists_of_failureReplay {ok : Sys × FailureHistory → Action → Prop}
    (passes : Sys × FailureHistory → Action → Bool) (hpasses : ∀ s a, passes s a = true → ok s a)
    (actions : List Action) (test : Sys → FailureHistory → Bool)
    (hrun : ((execWith (failureStep {}) passes (Sys.initial ∅, {}) actions).any
      fun s ↦ s.1.atEnterError && (s.1.shared.currentState.canTransition .error && test s.1 s.2)) =
        true) :
    ∃ s h s', Reaches (failureStep {}) ok (fun s ↦ s.1.Initial ∧ s.2 = {}) (s, h) ∧
      s.handler = some (.sensorTick .enterError) ∧ s.step {} (.handler {}) = some s' ∧
      s'.shared.currentState = .error ∧ test s h = true := by
  have hstart : Reaches (failureStep {}) ok (fun s ↦ s.1.Initial ∧ s.2 = {})
      (Sys.initial ∅, {}) := .start ⟨initial_initial ∅, rfl⟩
  obtain ⟨⟨s, h⟩, hreach, htest⟩ := hstart.exists_of_execWith hpasses hrun
  simp only [Bool.and_eq_true] at htest
  obtain ⟨henter, hcan, htest⟩ := htest
  have hhandler := handler_of_atEnterError henter
  have hstep : s.step {} (.handler {}) = some { s with
      shared := s.shared.transitionTo .error
      handler := some (.sensorTick .mappingRunning) } := by
    simp [Sys.step, hhandler, Handler.step, SensorTick.step, Sys.afterHandler]
  exact ⟨s, h, _, hreach, hhandler, hstep, by simp [currentState_transitionTo, hcan], htest⟩

/-- Whether an action ends no session while a tick is about to enter ERROR. -/
def endsNothing (s : Sys × FailureHistory) : Action → Bool
  | .operation env => !(s.1.handler.any Handler.reportsFailure) || !s.1.endsSession env
  | _ => true

theorem notWhileReporting_of_endsNothing (s : Sys × FailureHistory) (a : Action)
    (h : endsNothing s a = true) : notWhileReporting s.1 a := by
  cases a with
  | operation env =>
    intro hreports
    simpa [endsNothing, hreports] using h
  | _ => trivial

/-- The sensors are lost while a map is made. -/
theorem sensor_failure_active_mapping :
    ∃ s s', Sys.step {} s (.handler {}) = some s' ∧ s'.shared.currentState = .error ∧
      s.shared.currentState.isActiveSlamState = true := by
  obtain ⟨s, h, s', hreach, hhandler, hstep, herror, htest⟩ := exists_of_failureReplay endsNothing
    notWhileReporting_of_endsNothing (mappingRun ++ sensorLoss 3)
    (fun s _ ↦ decide (s.shared.currentState ≠ .error)) (by decide +kernel)
  have hmoves : s'.shared.currentState ≠ s.shared.currentState := by
    rw [herror]
    exact (of_decide_eq_true htest).symm
  exact ⟨s, s', hstep, herror, (sensor_failure_active {} s h hreach _ {} s' hhandler hstep hmoves).1
    .enterError rfl herror⟩

/-- The map is stopped between the report of a tick and its transition: the stop succeeds, and the
tick leads from WAIT_MODE to ERROR. -/
theorem sensor_failure_after_stop :
    ∃ s h s', Reaches (failureStep {}) anyAction (fun s ↦ s.1.Initial ∧ s.2 = {}) (s, h) ∧
      s.handler = some (.sensorTick .enterError) ∧ s.step {} (.handler {}) = some s' ∧
      s'.shared.currentState = .error ∧
      s.shared.currentState = .waitMode ∧ h.seen < h.ended := by
  obtain ⟨s, h, s', hreach, hhandler, hstep, herror, htest⟩ := exists_of_failureReplay
    (fun _ _ ↦ true) (fun _ _ _ ↦ trivial)
    (mappingRun ++ .call .stopMapping :: List.replicate 2 (.handler {}) ++
      List.replicate 4 (.operation {}) ++ sensorLoss 3 ++ [.operation {}])
    (fun s h ↦ decide (s.shared.currentState = .waitMode) && decide (h.seen < h.ended))
    (by decide +kernel)
  obtain ⟨hstate, hended⟩ := Bool.and_eq_true_iff.mp htest
  exact ⟨s, h, s', hreach, hhandler, hstep, herror, of_decide_eq_true hstate,
    of_decide_eq_true hended⟩

end SlamSystemManager.Manager
