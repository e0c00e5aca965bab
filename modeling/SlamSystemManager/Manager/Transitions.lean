import SlamSystemManager.Manager.Construction
import SlamSystemManager.Manager.Settled

/-!
# The transitions that are made

The table of allowed transitions says what a thread may try. Which of its entries some run of the
manager takes follows from what the threads try and from the states in which they try it.
-/

open TransitionSystem

namespace SlamSystemManager.Manager

/-- The transitions that the constructor makes. -/
def transitionsConstructing : List (SystemState × SystemState) :=
  [(.boot, .systemCheck), (.systemCheck, .sensorStarting), (.systemCheck, .error)]

/-- The transitions that the manager makes between its construction and its end. -/
def transitionsRunning : List (SystemState × SystemState) :=
  [(.sensorStarting, .sensorReady), (.sensorStarting, .error),
    (.sensorReady, .waitMode), (.sensorReady, .error),
    (.waitMode, .sensorStarting), (.waitMode, .mappingStarting),
    (.waitMode, .localizationStarting), (.waitMode, .error),
    (.mappingStarting, .mapping), (.mappingStarting, .error),
    (.mapping, .mapSaving), (.mapping, .waitMode), (.mapping, .error),
    (.mapSaving, .waitMode), (.mapSaving, .error),
    (.localizationStarting, .relocalizing), (.localizationStarting, .error),
    (.relocalizing, .localized), (.relocalizing, .waitMode), (.relocalizing, .error),
    (.localized, .relocalizing), (.localized, .waitMode), (.localized, .error),
    (.error, .recovering),
    (.recovering, .sensorStarting), (.recovering, .waitMode), (.recovering, .error)]

/-- All transitions that are ever made. -/
def transitionsMade : List (SystemState × SystemState) :=
  transitionsConstructing ++ transitionsRunning

namespace Transition

/-! ## SENSOR_READY -/

/-- SENSOR_READY lasts from one step of the sensor timer to the next. -/
def Passing (s : Sys) : Prop :=
  s.shared.currentState = .sensorReady → s.handler = some (.sensorTick .toWait)

theorem passing_handler {config : Config} {env : Env} {s s' : Sys} (h : Passing s)
    (hstep : s.step config (.handler env) = some s') : Passing s' := by
  intro hafter
  obtain ⟨hd, r, hsome, hr, hmove⟩ := Sys.handlerMove_of_step hstep
  rcases (Handler.effect_of_step hr).state with hsame | ⟨htarget, hcan⟩
  · -- the tick that has entered SENSOR_READY leaves it in its next step
    have hbefore : s.shared.currentState = .sensorReady := hsame ▸ hafter
    have hnow := hsome.symm.trans (h hbefore)
    cases hnow
    have hshared : s.shared.transitionTo .waitMode = s'.shared := congrArg Prod.fst hr
    rw [← hshared, currentState_transitionTo, hbefore] at hafter
    cases hafter
  · rw [hafter] at htarget
    have hticks : hd = .sensorTick .toReady := by
      unfold Handler.target at htarget
      split at htarget <;> cases htarget
      rfl
    subst hticks
    obtain rfl : HandlerNext.next (.sensorTick .toWait) = r := congrArg Prod.snd hr
    cases hmove with
    | next hhandler => exact hhandler
    | ended hnext => exact absurd rfl (hnext _)

/-- No operation enters SENSOR_READY or LOCALIZATION_STARTING. -/
theorem before_of_operation {config : Config} {env : Env} {s : Sys} {o : Operation}
    (hphase : Phase.outline.Holds s) (hsome : s.operation = some o) {state : SystemState}
    (hstate : state = .sensorReady ∨ state = .localizationStarting)
    (h : (o.step config env s.shared).1.currentState = state) : s.shared.currentState = state := by
  rcases o.effect config env s.shared with ⟨-, hend⟩ | ⟨-, shared, next, hnext, hcontinues⟩
  · rwa [hend] at h
  · rw [hnext] at h
    rcases hcontinues.effect.state with hsame | ⟨htarget, hcan⟩
    · exact hsame.symm.trans h
    · have hphase := hphase.operation o hsome
      rw [show shared.currentState = state from h] at htarget hcan
      unfold Operation.target at htarget
      split at htarget <;> cases htarget
      case h_6 =>
        -- a recovery resumes elsewhere
        have hrecovering : s.shared.currentState = .recovering := by
          simpa [Phase.operation] using hphase
        rw [hrecovering] at hcan
        rcases hstate with rfl | rfl <;> cases hcan
      all_goals rcases hstate with hstate | hstate <;> cases hstate

theorem Passing.step {config : Config} {s s' : Sys} {a : Action} (h : Passing s)
    (hphase : Phase.outline.Holds s) (hstep : s.step config a = some s') : Passing s' := by
  cases Sys.move_of_step hstep with
  | call hidle =>
    intro hafter
    rw [h hafter] at hidle
    cases hidle
  | handlerNext | handlerDone | handlerLaunch | handlerEscape => exact passing_handler h hstep
  | operation hsome => 
    exact fun hafter ↦ h (before_of_operation hphase hsome (Or.inl rfl) hafter)
  | deliver => exact h
  | @callback id env callback hsome =>
    intro hafter
    apply h
    rcases (callback.effect config env s.shared).interference.state with hsame | ⟨-, hentered⟩
    · exact hsame.symm.trans hafter
    · rcases hentered with hentered | hentered <;> cases hentered.symm.trans hafter
  | environment heffect => exact fun hafter ↦ h (heffect.state.symm.trans hafter)

/-! ## LOCALIZATION_STARTING -/

def stopsLocalization : Operation → Bool
  | .stopLocalization _ => true
  | _ => false

/-- In LOCALIZATION_STARTING no stop of localization runs or is about to be launched. -/
structure Undisturbed (s : Sys) : Prop where
  operation : s.shared.currentState = .localizationStarting →
    ∀ o, s.operation = some o → stopsLocalization o = false
  launch : s.shared.currentState = .localizationStarting →
    ∀ o reply, s.handler = some (.launch o reply) → stopsLocalization o = false

theorem stopsLocalization_of_follows {o next : Operation} (h : o.Follows next)
    (ho : stopsLocalization o = false) : stopsLocalization next = false := by
  cases h with
  | stopLocalization => cases ho
  | _ => rfl

theorem Undisturbed.handlerStep {config : Config} {env : Env} {s s' : Sys} (h : Undisturbed s)
    (hexclusive : s.Exclusive) (hsettling : Settling.Holds s)
    (hstep : s.step config (.handler env) = some s') : Undisturbed s' := by
  obtain ⟨hd, r, hsome, hr, hmove⟩ := Sys.handlerMove_of_step hstep
  have hfollows := Handler.follows_of_step hr
  have hstate := (Handler.effect_of_step hr).state
  have hentered (hne : s'.shared.currentState ≠ s.shared.currentState)
      (hafter : s'.shared.currentState = .localizationStarting) :
      ∃ name, hd = .startLocalization name .transition := by
    rcases hstate with hsame | ⟨htarget, -⟩
    · exact absurd hsame hne
    · rw [show (s'.shared, r).1.currentState = .localizationStarting from hafter] at htarget
      unfold Handler.target at htarget
      split at htarget <;> cases htarget
      exact ⟨_, rfl⟩
  refine ⟨fun hafter o ho ↦ ?_, fun hafter o reply ho ↦ ?_⟩
  · by_cases hsame : s'.shared.currentState = s.shared.currentState
    · have hbefore := hsame.symm.trans hafter
      cases hmove with
      | next hhandler hoperation => exact h.operation hbefore o (hoperation ▸ ho)
      | ended hnext hlaunched hhandler hoperation => exact h.operation hbefore o (hoperation ▸ ho)
      | launched hlaunch hended hhandler hoperation =>
        cases hoperation.symm.trans ho
        exact h.launch hbefore o _ (hlaunch ▸ hsome)
    · obtain ⟨name, rfl⟩ := hentered hsame hafter
      have hidle := hexclusive.alone (by simp [Sys.handlerHolds, hsome, Handler.holdsToken])
      cases hmove with
      | next hhandler hoperation =>
        rw [hoperation, hidle] at ho
        cases ho
      | ended hnext hlaunched hhandler hoperation =>
        rw [hoperation, hidle] at ho
        cases ho
      | launched hlaunch => cases hlaunch
  · cases hmove with
    | next hhandler =>
      cases hhandler.symm.trans ho
      cases hfollows with
      | launchStopLocalization =>
        -- the token is taken where localization starts, and the request to stop it is refused
        by_cases hsame : s'.shared.currentState = s.shared.currentState
        · have hbefore := hsame.symm.trans hafter
          have htaken := hsettling.busy (by rw [hbefore]; rfl)
          simp [Handler.step, stopLocalizationStep, hbefore, htaken, refuse,
            SystemState.isLocalizationState] at hr
        · obtain ⟨name, hstarts⟩ := hentered hsame hafter
          cases hstarts
      | _ => rfl
    | ended hnext hlaunched hhandler =>
      rw [hhandler] at ho
      cases ho
    | launched hlaunch hended hhandler =>
      rw [hhandler] at ho
      cases ho

theorem Undisturbed.step {config : Config} {s s' : Sys} {a : Action} (h : Undisturbed s)
    (hexclusive : s.Exclusive) (hphase : Phase.outline.Holds s) (hsettling : Settling.Holds s)
    (hstep : s.step config a = some s') : Undisturbed s' := by
  cases Sys.move_of_step hstep with
  | @call request =>
    refine ⟨h.operation, fun _ o reply hlaunch ↦ ?_⟩
    cases request <;> cases hlaunch
  | handlerNext | handlerDone | handlerLaunch | handlerEscape =>
    exact h.handlerStep hexclusive hsettling hstep
  | @operation env o hsome =>
    have hbefore (hafter : (o.step config env s.shared).1.currentState = .localizationStarting) :=
      before_of_operation hphase hsome (Or.inr rfl) hafter
    refine ⟨fun hafter next hnext ↦ ?_, fun hafter ↦ h.launch (hbefore hafter)⟩
    have hplain := h.operation (hbefore hafter) o hsome
    rcases o.effect config env s.shared with ⟨-, hend⟩ | ⟨-, shared, other, hother, hcontinues⟩
    · cases (congrArg Prod.snd hend).symm.trans hnext
    · cases (congrArg Prod.snd hother).symm.trans hnext
      exact stopsLocalization_of_follows hcontinues.follows hplain
  | deliver => exact ⟨h.operation, h.launch⟩
  | @callback id env callback hsome =>
    have hbefore (hafter : (callback.step config env s.shared).1.currentState =
        .localizationStarting) : s.shared.currentState = .localizationStarting := by
      rcases (callback.effect config env s.shared).interference.state with hsame | ⟨-, hentered⟩
      · exact hsame.symm.trans hafter
      · rcases hentered with hentered | hentered <;> cases hentered.symm.trans hafter
    exact ⟨fun hafter ↦ h.operation (hbefore hafter), fun hafter ↦ h.launch (hbefore hafter)⟩
  | environment heffect =>
    exact ⟨fun hafter ↦ h.operation (heffect.state.symm.trans hafter),
      fun hafter ↦ h.launch (heffect.state.symm.trans hafter)⟩

end Transition

theorem Reachable.passing {config : Config} {s : Sys} (h : Reachable config s) :
    Transition.Passing s := by
  refine Reaches.invariant_of (fun s (hs : Reachable config s) ↦ hs.phase)
    (fun s hinit hafter ↦ ?_) (fun s a s' hphase hs _ hstep ↦ hs.step hphase hstep) h
  rcases hinit.state with hstate | ⟨hstate, -⟩ <;> cases hstate.symm.trans hafter

theorem Reachable.undisturbed {config : Config} {s : Sys} (h : Reachable config s) :
    Transition.Undisturbed s := by
  refine Reaches.invariant_of
    (Q := fun s ↦ s.Exclusive ∧ Phase.outline.Holds s ∧ Settling.Holds s)
    (fun s (hs : Reachable config s) ↦ ⟨hs.exclusive, hs.phase, hs.settling⟩)
    (fun s hinit ↦ ⟨by simp [hinit.operation], by simp [hinit.handler]⟩)
    (fun s a s' hknown hs _ hstep ↦ hs.step hknown.1 hknown.2.1 hknown.2.2 hstep) h

namespace Transition

/-! ## Every transition -/

theorem made_of_handler {hd : Handler} {before after : SystemState}
    (hassertion : Phase.handler hd before = true)
    (hpassing : before = .sensorReady → hd = .sensorTick .toWait)
    (htarget : hd.target = some after) (hcan : before.canTransition after = true) :
    (before, after) ∈ transitionsRunning := by
  by_cases hready : before = .sensorReady
  · cases hpassing hready
    cases htarget
    rw [hready]
    decide
  · unfold Handler.target at htarget
    split at htarget <;> cases htarget
    all_goals
      clear hpassing
      revert hassertion hready hcan
      cases before <;> simp [Phase.handler] <;> decide

theorem made_of_operation {s : Sys} {o : Operation} {before after : SystemState}
    (hassertion : Phase.operation o before = true) (hmodes : ModeExclusion.operation s.shared o)
    (hstarted : started before = true)
    (hundisturbed : before = .localizationStarting → stopsLocalization o = false)
    (htarget : o.target = some after) (hcan : before.canTransition after = true) :
    (before, after) ∈ transitionsRunning := by
  unfold Operation.target at htarget
  split at htarget <;> cases htarget
  case h_6 =>
    have hidle : after.isIdle = true := hmodes.2
    clear hmodes
    revert hassertion hcan hidle
    cases before <;> cases after <;> simp [Phase.operation] <;> decide
  case h_5 =>
    have hne : before ≠ .localizationStarting := fun hstate ↦ by cases hundisturbed hstate
    clear hundisturbed hmodes
    revert hassertion hcan hne
    cases before <;> decide
  all_goals
    clear hundisturbed hmodes
    revert hassertion hstarted hcan
    cases before <;> simp [Phase.operation] <;> decide

theorem made_of_callback {callback : Callback} {before after : SystemState}
    (htarget : callback.target = some after) (hcan : before.canTransition after = true) :
    (before, after) ∈ transitionsRunning := by
  unfold Callback.target at htarget
  split at htarget <;> cases htarget
  all_goals
    revert hcan
    cases before <;> decide

theorem made_of_step {config : Config} {s s' : Sys} {a : Action} (hreach : Reachable config s)
    (hstep : s.step config a = some s')
    (hne : s'.shared.currentState ≠ s.shared.currentState) :
    (s.shared.currentState, s'.shared.currentState) ∈ transitionsRunning := by
  have hmove {target : Option SystemState}
      (heffect : StateEffect target s.shared.currentState s'.shared.currentState) :
      target = some s'.shared.currentState ∧
        s.shared.currentState.canTransition s'.shared.currentState = true :=
    heffect.resolve_left hne
  cases Sys.move_of_step hstep with
  | call | deliver => exact absurd rfl hne
  | environment heffect => exact absurd heffect.state hne
  | handlerNext | handlerDone | handlerLaunch | handlerEscape =>
    obtain ⟨hd, r, hsome, hr, -⟩ := Sys.handlerMove_of_step hstep
    obtain ⟨htarget, hcan⟩ := hmove (Handler.effect_of_step hr).state
    exact made_of_handler (hreach.phase.handler hd hsome)
      (fun hready ↦ Option.some.inj (hsome.symm.trans (hreach.passing hready))) htarget hcan
  | @operation env o hsome =>
    have hmodes := hreach.modeExclusion.operation.2
    rw [hsome] at hmodes
    have heffect : StateEffect o.target s.shared.currentState
        (o.step config env s.shared).1.currentState := by
      rcases o.effect config env s.shared with ⟨-, hend⟩ | ⟨-, shared, next, hnext, hcontinues⟩
      · rw [hend]
        exact Or.inl rfl
      · rw [hnext]
        exact hcontinues.effect.state
    obtain ⟨htarget, hcan⟩ := hmove heffect
    exact made_of_operation (s := s) (hreach.phase.operation o hsome) hmodes hreach.started
      (fun hstate ↦ hreach.undisturbed.operation hstate o hsome) htarget hcan
  | @callback id env callback hsome =>
    obtain ⟨htarget, hcan⟩ := hmove (callback.effect config env s.shared).state
    exact made_of_callback htarget hcan

/-! ## Runs that make them -/

/-- The transitions along a run of those of the actions that are enabled. -/
def along (config : Config) : Sys → List Action → List (SystemState × SystemState)
  | _, [] => []
  | s, a :: actions =>
    match s.step config a with
    | none => along config s actions
    | some s' =>
      if s'.shared.currentState = s.shared.currentState then along config s' actions
      else (s.shared.currentState, s'.shared.currentState) :: along config s' actions

theorem exists_of_along {config : Config} {actions : List Action} {s : Sys}
    (hreach : Reachable config s) {source target : SystemState}
    (h : (source, target) ∈ along config s actions) :
    ∃ s a s', Reachable config s ∧ s.step config a = some s' ∧
      s.shared.currentState = source ∧ s'.shared.currentState = target ∧ source ≠ target := by
  induction actions generalizing s with
  | nil => cases h
  | cons a actions ih =>
    simp only [along] at h
    split at h
    · exact ih hreach h
    · rename_i s' hstep
      split_ifs at h with hsame
      · exact ih (hreach.tail trivial hstep) h
      · rcases List.mem_cons.mp h with hhead | hrest
        · cases hhead
          exact ⟨s, a, s', hreach, hstep, rfl, rfl, Ne.symm hsame⟩
        · exact ih (hreach.tail trivial hstep) hrest

def handlerSteps (steps : ℕ) (env : Env) : List Action := List.replicate steps (.handler env)

def operationSteps (steps : ℕ) (env : Env) : List Action := List.replicate steps (.operation env)

/-- The body of the operation throws, and the operation ends. -/
def throwing : List Action := .operation { throws := some "" } :: operationSteps 3 {}

def recovering (env : Env) : List Action :=
  .call .recover :: handlerSteps 2 {} ++ operationSteps 12 env

def mapping (map : String) : List Action := launchMapping map ++ enterMapping

def stopping (request : Request) : List Action := .call request :: handlerSteps 2 {}

def losing : List Action := .call .sensorTimer :: handlerSteps 3 {}

/-- Sessions of mapping that are saved, stopped and lost, and a tick that finds no data. -/
def mappingRuns : List Action :=
  toWaitMode ++ mapping "a" ++ .call .saveMap :: handlerSteps 4 {} ++ operationSteps 3 {} ++
    [.writeMap [0]] ++ operationSteps 10 {} ++ mapping "b" ++ stopping .stopMapping ++
    operationSteps 6 {} ++ losing ++ toWaitMode ++ mapping "c" ++ .call .saveMap ::
    handlerSteps 4 {} ++ throwing ++ stopping .recover ++ throwing ++ recovering {} ++
    toWaitMode ++ launchMapping "d" ++ throwing ++ recovering readyEnv ++ mapping "e" ++
    stopping .stopMapping ++ throwing

def localizing (stamp : Time) : List Action :=
  launchLocalization "m" ++ enterRelocalizing ++
    runCallback 0 (.correction (originAt stamp)) 5 stamp ++ operationSteps 3 {}

/-- Sessions of localization that are confirmed, given an initial pose, stopped and lost. -/
def localizationRuns : List Action :=
  toWaitMode ++ launchLocalization "m" ++ throwing ++ recovering readyEnv ++ localizing 1 ++
    runCallback 0 (.initialPose (originAt 1)) 5 1 ++ stopping .stopLocalization ++
    operationSteps 9 {} ++ launchLocalization "m" ++ enterRelocalizing ++ operationSteps 3 {} ++
    stopping .stopLocalization ++ throwing ++ recovering readyEnv ++ localizing 2 ++
    stopping .stopLocalization ++ operationSteps 9 {} ++ localizing 3 ++
    stopping .stopLocalization ++ throwing

/-- Stops of localization that throw in their last steps, where the sensor timer has moved on. -/
def stoppedRuns : List Action :=
  let stopped := launchLocalization "m" ++ enterRelocalizing ++ operationSteps 3 {} ++
    stopping .stopLocalization ++ operationSteps 6 {}
  toWaitMode ++ stopped ++ throwing ++ recovering readyEnv ++ stopped ++ losing ++ throwing ++
    recovering readyEnv ++ stopped ++ losing ++ .call .sensorTimer :: handlerSteps 4 readyEnv ++
    throwing

theorem made_along : ∀ transition ∈ transitionsRunning,
    transition ∈ [mappingRuns, localizationRuns, stoppedRuns].flatMap
      (along {} (Sys.initial (storedMaps ["m"]))) := by
  decide +kernel

end Transition

namespace Transition

/-! ## The constructor -/

/-- A transition that a step of the constructor makes. -/
def Constructs (source target : SystemState) : Prop :=
  ∃ s pc found s' pc', Constructing s pc ∧ pc.step found s = some (s', pc') ∧
    s.currentState = source ∧ s'.currentState = target ∧ source ≠ target

/-- A transition that a step of a run makes. -/
def Runs (source target : SystemState) : Prop :=
  ∃ config s a s', Reachable config s ∧ s.step config a = some s' ∧
    s.shared.currentState = source ∧ s'.shared.currentState = target ∧ source ≠ target

theorem made_of_setUp {s s' : Shared} {failure : Option String} {code : String}
    {next pc' : Constructor} (hstate : s.currentState = .systemCheck ∨ s.currentState = .error)
    (hset : Constructor.setUp s failure code next = (s', pc'))
    (hne : s'.currentState ≠ s.currentState) :
    (s.currentState, s'.currentState) ∈ transitionsConstructing := by
  unfold Constructor.setUp at hset
  split at hset <;> cases hset
  · rcases hstate with hstate | hstate
    · rw [Constructor.failSetup_of_can _ _ hstate (by decide), hstate]
      simp [transitionsConstructing]
    · refine absurd ?_ hne
      rw [Shared.failSetup, currentState_transitionTo]
      simp only [Shared.setSystemError, hstate]
      decide
  · exact absurd rfl hne

theorem made_of_constructor {s s' : Shared} {pc pc' : Constructor} {found : Found}
    (hstands : pc.Stands s) (hstep : pc.step found s = some (s', pc'))
    (hne : s'.currentState ≠ s.currentState) :
    (s.currentState, s'.currentState) ∈ transitionsConstructing := by
  cases pc with
  | loadConfig | openMaps | loadProcesses =>
    exact made_of_setUp (Or.inl hstands) (Option.some.inj hstep) hne
  | loadSensors | loadQuality =>
    exact made_of_setUp (hstands.imp_right And.left) (Option.some.inj hstep) hne
  | systemCheck =>
    have hstate : s.currentState = .boot := hstands
    simp only [Constructor.step] at hstep
    split at hstep <;> cases hstep
    · rw [Constructor.transitionTo_of_can hstate (by decide), hstate]
      simp [transitionsConstructing]
    · exact absurd rfl hne
  | autoStart =>
    simp only [Constructor.step] at hstep
    split at hstep <;> cases hstep
    · have hstate : s.currentState = .systemCheck := hstands
      rw [Constructor.failSetup_of_can _ _ (by exact hstate) (by decide), hstate]
      simp [transitionsConstructing]
    · exact absurd rfl hne
  | checkPassed =>
    simp only [Constructor.step] at hstep
    split at hstep <;> cases hstep <;> exact absurd rfl hne
  | sensorStarting =>
    have hstate : s.currentState = .systemCheck := hstands
    cases hstep
    rw [Constructor.transitionTo_of_can hstate (by decide), hstate]
    simp [transitionsConstructing]
  | returned | thrown => cases hstep

/-- The constructor as far as a step, all parts before having been set up. -/
theorem constructing_of_exec (steps : List Found) {s : Shared} {pc : Constructor}
    (h : exec constructorStep (Shared.unconstructed ∅, .systemCheck) steps = some (s, pc)) :
    Constructing s pc :=
  (Reaches.start ⟨∅, rfl⟩).steps (steps_of_exec h)

theorem constructs_of_mem {source target : SystemState}
    (h : (source, target) ∈ transitionsConstructing) : Constructs source target := by
  simp only [transitionsConstructing, List.mem_cons, Prod.mk.injEq, List.not_mem_nil,
    or_false] at h
  rcases h with ⟨rfl, rfl⟩ | ⟨rfl, rfl⟩ | ⟨rfl, rfl⟩
  · exact ⟨_, _, {}, _, _, constructing_of_exec [] rfl, rfl, rfl, rfl, by decide⟩
  · exact ⟨_, _, {}, _, _, constructing_of_exec (List.replicate 8 {}) rfl, rfl, rfl, rfl,
      by decide⟩
  · exact ⟨_, _, { failure := some "" }, _, _, constructing_of_exec [{}] rfl, rfl, rfl,
      rfl, by decide⟩

end Transition

/-- A transition is made by the constructor or in some run exactly when it is listed: SENSOR_READY
is never left for a mode, no start is undone, and SHUTDOWN is never entered. -/
theorem transition_made_iff (source target : SystemState) :
    Transition.Constructs source target ∨ Transition.Runs source target ↔
      (source, target) ∈ transitionsMade := by
  rw [transitionsMade, List.mem_append]
  refine or_congr ⟨?_, Transition.constructs_of_mem⟩ ⟨?_, fun hmade ↦ ?_⟩
  · rintro ⟨s, pc, found, s', pc', hreach, hstep, rfl, rfl, hne⟩
    exact Transition.made_of_constructor hreach.stands hstep hne.symm
  · rintro ⟨config, s, a, s', hreach, hstep, rfl, rfl, hne⟩
    exact Transition.made_of_step hreach hstep hne.symm
  · obtain ⟨actions, -, halong⟩ := List.mem_flatMap.mp (Transition.made_along _ hmade)
    exact ⟨{}, Transition.exists_of_along (.start (initial_initial _)) halong⟩

end SlamSystemManager.Manager
