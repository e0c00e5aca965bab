import SlamSystemManager.Manager.Ownership
import SlamSystemManager.Manager.Phases

/-!
# The states in between

MAPPING_STARTING, MAP_SAVING, LOCALIZATION_STARTING and RECOVERING are entered by the owner of the
operation token and left before the token is released. A manager in which no thread is midway rests
in one of the other states.
-/

open TransitionSystem

namespace SlamSystemManager.Manager

namespace Settling

open ModeExclusion (entersMode)

/-! ## Assertions -/

/-- The states that are on the way to another one. -/
def transient (state : SystemState) : Bool :=
  state = .mappingStarting || state = .mapSaving || state = .localizationStarting ||
    state = .recovering

/-- The program counters from which no step leaves a state in between any more have left it. -/
def operation : Operation → SystemState → Bool
  | .startLocalization _ (.stopAborted _), state | .startLocalization _ .loadLastPose, state
  | .startLocalization _ (.waitConsumer _), state | .startLocalization _ (.publish _ _), state
  | .startLocalization _ (.window _ _), state => !transient state
  | .startMapping _ _ (.cleanup false), state => !transient state
  | .finish, state => !transient state
  | _, _ => true

/-- A handler that owns the token has not entered a state in between, unless it is about to launch
the operation that leaves it. -/
def handler : Handler → SystemState → Bool
  | .saveMap (.path _), _ => true
  | .launch launched _, state => operation launched state
  | h, state => !h.holdsToken || !transient state

structure Holds (s : Sys) : Prop where
  busy : transient s.shared.currentState = true → s.shared.operationInProgress = true
  handler : ∀ h, s.handler = some h → handler h s.shared.currentState = true
  operation : ∀ o, s.operation = some o → operation o s.shared.currentState = true

/-- A step that enters no state in between. -/
def Kept (before after : SystemState) : Prop :=
  transient before = false → transient after = false

theorem operation_kept {before after : SystemState} (h : Kept before after) (o : Operation)
    (ho : operation o before = true) : operation o after = true := by
  unfold operation at ho ⊢
  split at ho <;> simp_all [Kept]

theorem handler_kept {before after : SystemState} (h : Kept before after) (hd : Handler)
    (hh : handler hd before = true) : handler hd after = true := by
  unfold handler at hh ⊢
  split at hh
  · rfl
  · exact operation_kept h _ hh
  · simp only [Bool.or_eq_true, Bool.not_eq_true'] at hh ⊢
    exact hh.imp id h

theorem handler_of_unheld {state : SystemState} {hd : Handler} (h : hd.holdsToken = false) :
    handler hd state = true := by
  unfold handler
  split
  · rfl
  · cases h
  · simp [h]

theorem kept_of_effect {target : Option SystemState} {before after : SystemState}
    (htarget : ∀ state, target = some state → transient state = false)
    (h : StateEffect target before after) : Kept before after := by
  intro hbefore
  rcases h with rfl | ⟨hentered, -⟩
  · exact hbefore
  · exact htarget after hentered

/-! ## The operation thread -/

theorem transitionTo_of_not {s : Shared} {next : SystemState}
    (h : ¬ s.currentState.canTransition next = true) : s.transitionTo next = s := by
  simp [Shared.transitionTo, h]

theorem transient_transitionTo (s : Shared) {next : SystemState} (hnext : transient next = false)
    (h : s.currentState.canTransition next = true ∨ transient s.currentState = false) :
    transient (s.transitionTo next).currentState = false := by
  rw [currentState_transitionTo]
  split_ifs with hcan
  · exact hnext
  · exact h.resolve_left hcan

theorem finish_of_error {state : SystemState} (h : state = .error) :
    operation .finish state = true := by
  rw [h]
  rfl

theorem startMapping_step (config : Config) (env : Env) (map : String) (created : Bool)
    (s : Shared) (pc : StartMapping)
    (hphase : Phase.operation (.startMapping map created pc) s.currentState = true)
    (h : operation (.startMapping map created pc) s.currentState = true) :
    operation (pc.step config env map created s).2
      (pc.step config env map created s).1.currentState = true := by
  cases pc with
  | stopTimedOut stage =>
    simp only [StartMapping.step]
    split <;> rfl
  | unselect =>
    simp only [StartMapping.step, errorOrFinish]
    simp only [Phase.operation, Bool.or_eq_true, decide_eq_true_eq] at hphase
    rcases hphase with hstate | hstate <;> cases created <;> simp [hstate, operation, transient]
  | cleanup shouldTransition =>
    cases shouldTransition
    · exact h
    · rfl
  | started =>
    simp only [StartMapping.step]
    split_ifs with hcan
    · simp [operation, transient, currentState_transitionTo, hcan]
    · rfl
  | stopAborted stage =>
    simp only [Phase.operation, decide_eq_true_eq] at hphase
    simp only [StartMapping.step]
    split
    · rfl
    · rename_i hstop
      have hsame := Phase.state_stopStep hstop
      exact finish_of_error (hsame.trans hphase)
  | _ =>
    simp only [StartMapping.step]
    repeat' split
    all_goals rfl

theorem startLocalization_step (config : Config) (env : Env) (map : String) (s : Shared)
    (pc : StartLocalization)
    (hphase : Phase.operation (.startLocalization map pc) s.currentState = true)
    (h : operation (.startLocalization map pc) s.currentState = true) :
    operation (pc.step config env map s).2 (pc.step config env map s).1.currentState = true := by
  cases pc with
  | stopTimedOut missing stage =>
    simp only [StartLocalization.step]
    split <;> rfl
  | unselect =>
    simp only [StartLocalization.step, errorOrFinish]
    split_ifs with hstate
    · rfl
    · revert hphase hstate
      cases s.currentState <;> simp [Phase.operation, SystemState.isLocalizationState, operation,
        transient]
  | started =>
    -- the start that finds the transition refused was not in LOCALIZATION_STARTING any more
    have hleft : transient (s.transitionTo .relocalizing).currentState = false := by
      refine transient_transitionTo s rfl ?_
      revert hphase
      cases s.currentState <;> simp [Phase.operation, SystemState.isLocalizationState, transient]
      decide
    simp only [StartLocalization.step]
    split_ifs <;> simpa [operation] using hleft
  | stopAborted stage =>
    simp only [StartLocalization.step]
    split
    all_goals
      rename_i hstop
      have hsame := Phase.state_stopStep hstop
      simpa only [operation, hsame] using h
  | publish pose attempt =>
    simp only [StartLocalization.step]
    split
    · exact h
    · rename_i hpublish
      obtain ⟨pose, rfl⟩ := publishInitialPose_eq_ok hpublish
      exact h
  | loadLastPose | waitConsumer | window =>
    simp only [StartLocalization.step]
    repeat' split
    all_goals exact h
  | _ =>
    simp only [StartLocalization.step]
    repeat' split
    all_goals rfl

theorem stopMapping_step (env : Env) (s : Shared) (pc : StopMapping)
    (hphase : Phase.operation (.stopMapping pc) s.currentState = true) :
    operation (pc.step env s).2 (pc.step env s).1.currentState = true := by
  have hstate : transient s.currentState = false := by
    revert hphase
    cases s.currentState <;> simp [Phase.operation, transient]
  cases pc with
  | stop stage =>
    simp only [StopMapping.step]
    split <;> rfl
  | unselect =>
    simp only [StopMapping.step]
    split_ifs
    · rfl
    · simpa [operation] using hstate
  | toWait =>
    simp only [StopMapping.step, operation]
    simpa using transient_transitionTo s rfl (Or.inr hstate)

theorem saveMap_step (config : Config) (env : Env) (map : String) (s : Shared) (pc : SaveMap)
    (hphase : Phase.operation (.saveMap map pc) s.currentState = true) :
    operation (pc.step config env map s).2 (pc.step config env map s).1.currentState = true := by
  simp only [Phase.operation, Bool.or_eq_true, decide_eq_true_eq] at hphase
  cases pc with
  | checkState succeeded =>
    rcases hphase with hstate | hstate <;> cases succeeded <;>
      simp [SaveMap.step, hstate, operation, transient]
  | toWait =>
    have hleft : transient (s.transitionTo .waitMode).currentState = false := by
      refine transient_transitionTo s rfl ?_
      rcases hphase with hstate | hstate <;> rw [hstate] <;> decide
    simpa [SaveMap.step, operation] using hleft
  | _ =>
    simp only [SaveMap.step]
    repeat' split
    all_goals rfl

theorem stopLocalization_step (config : Config) (env : Env) (s : Shared) (pc : StopLocalization)
    (hphase : Phase.operation (.stopLocalization pc) s.currentState = true) :
    operation (pc.step config env s).2 (pc.step config env s).1.currentState = true := by
  cases pc with
  | save pc =>
    simp only [StopLocalization.step, Operation.catchException]
    split <;> rfl
  | stop stage =>
    simp only [StopLocalization.step]
    split <;> rfl
  | unselect =>
    simp only [StopLocalization.step]
    split_ifs <;> rfl
  | resetQuality =>
    revert hphase
    simp only [StopLocalization.step, Shared.resetQuality, Phase.operation, operation]
    cases s.currentState <;> decide
  | toWait | resetSession => rfl

theorem stopAfterFailure_step (env : Env) (s : Shared) (pc : StopAfterFailure)
    (hphase : Phase.operation (.stopAfterFailure pc) s.currentState = true) :
    operation (pc.step env s).2 (pc.step env s).1.currentState = true := by
  simp only [Phase.operation, decide_eq_true_eq] at hphase
  cases pc with
  | stopMapping localizationRunning stage =>
    simp only [StopAfterFailure.step]
    split
    · rfl
    · rename_i hstop
      cases localizationRunning
      · exact finish_of_error ((Phase.state_stopStep hstop).trans hphase)
      · rfl
  | stopLocalization stage =>
    simp only [StopAfterFailure.step]
    split
    · rfl
    · rename_i hstop
      exact finish_of_error ((Phase.state_stopStep hstop).trans hphase)

theorem recovery_step (env : Env) (s : Shared) (pc : Recovery)
    (hidle : ∀ target, pc = .resume target → target.isIdle = true)
    (hphase : Phase.operation (.recovery pc) s.currentState = true) :
    operation (pc.step env s).2 (pc.step env s).1.currentState = true := by
  simp only [Phase.operation, decide_eq_true_eq] at hphase
  cases pc with
  | clear status => simp [Recovery.step, hphase, operation]
  | resume target =>
    simp only [Recovery.step]
    split_ifs with hcan
    · have hrest : transient target = false := by
        have hready := hidle target rfl
        revert hready
        cases target <;> decide
      simpa [operation] using transient_transitionTo s hrest (Or.inl hcan)
    · rfl
  | _ =>
    simp only [Recovery.step, Recovery.afterLeader]
    repeat' split
    all_goals rfl

theorem operation_step (config : Config) (env : Env) {s : Sys} {o : Operation}
    (hsome : s.operation = some o) (hphase : Phase.outline.Holds s)
    (hexclusion : ModeExclusion.outline.Holds s) (h : operation o s.shared.currentState = true) :
    ∀ next, (o.step config env s.shared).2 = some next →
      operation next (o.step config env s.shared).1.currentState = true := by
  have hstate := hphase.operation o hsome
  refine o.step_rule (P := fun s' r ↦ ∀ next, r = some next → operation next s'.currentState = true)
    config env s.shared (fun _ _ next hnext ↦ ?_) (fun _ next hnext ↦ ?_)
    fun s' next hrun _ _ other hother ↦ ?_
  · cases hnext
    rfl
  · cases hnext
  · cases hother
    cases o with
    | startMapping map created pc =>
      cases hrun
      exact startMapping_step config env map created s.shared pc hstate h
    | startLocalization map pc =>
      cases hrun
      exact startLocalization_step config env map s.shared pc hstate h
    | stopMapping pc =>
      cases hrun
      exact stopMapping_step env s.shared pc hstate
    | saveMap map pc =>
      cases hrun
      exact saveMap_step config env map s.shared pc hstate
    | stopLocalization pc =>
      cases hrun
      exact stopLocalization_step config env s.shared pc hstate
    | stopAfterFailure pc =>
      cases hrun
      exact stopAfterFailure_step env s.shared pc hstate
    | recovery pc =>
      cases hrun
      refine recovery_step env s.shared pc (fun target htarget ↦ ?_) hstate
      subst htarget
      have hmodes := hexclusion.operation
      rw [hsome] at hmodes
      exact hmodes.2.2
    | fail code message =>
      cases hrun
      rfl
    | enterError =>
      cases hrun
      refine (Bool.not_eq_true' _).mpr (transient_transitionTo s.shared rfl ?_)
      cases s.shared.currentState <;> first | exact Or.inl rfl | exact Or.inr rfl
    | finish => cases hrun

/-! ## Handlers -/

/-- What a step of a handler establishes. -/
def After : Shared × HandlerNext → Prop
  | (s, r) => (transient s.currentState = true → s.operationInProgress = true) ∧
    ∀ next, r = .next next → handler next s.currentState = true

/-- An operation is launched at its first program counter. -/
theorem operation_of_launch {h : Handler} {launched : Operation} {reply : Option Reply}
    (hfollows : h.Follows (.next (.launch launched reply))) (state : SystemState) :
    operation launched state = true := by
  cases hfollows <;> rfl

theorem handler_of_follows {state : SystemState} {h next : Handler}
    (hfollows : h.Follows (.next next))
    (hrest : next.holdsToken = true → transient state = false) : handler next state = true := by
  unfold handler
  split
  · rfl
  · exact operation_of_launch hfollows state
  · cases hholds : next.holdsToken with
    | false => rfl
    | true => simp [hrest hholds]

/-- The steps of handlers that enter no state in between. -/
theorem after_of_kept {env : Env} {s : Shared} {h : Handler} {r : Shared × HandlerNext}
    (heffect : HandlerEffect env h s r) (hfollows : h.Follows r.2)
    (hkept : Kept s.currentState r.1.currentState)
    (hbusy : transient s.currentState = true → s.operationInProgress = true)
    (hrest : h.holdsToken = true → transient s.currentState = false) : After r := by
  have hfree (hfree : s.operationInProgress = false) : transient s.currentState = false := by
    cases hstate : transient s.currentState with
    | false => rfl
    | true =>
      rw [hbusy hstate] at hfree
      cases hfree
  have hbefore (hafter : transient r.1.currentState = true) : transient s.currentState = true := by
    cases hstate : transient s.currentState with
    | true => rfl
    | false =>
      rw [hkept hstate] at hafter
      cases hafter
  have htoken := heffect.token
  rcases r with ⟨s', next | reply | ⟨launched, reply⟩ | what⟩
  · refine ⟨fun hafter ↦ ?_, fun next hnext ↦ ?_⟩
    · rcases htoken with ⟨-, hsame⟩ | ⟨-, -, -, htaken⟩
      · exact hsame.trans (hbusy (hbefore hafter))
      · exact htaken
    · cases hnext
      refine handler_of_follows hfollows fun hholds ↦ hkept ?_
      rcases htoken with ⟨hsame, -⟩ | ⟨-, -, huntaken, -⟩
      · exact hrest (hsame.symm.trans hholds)
      · exact hfree huntaken
  · refine ⟨fun hafter ↦ ?_, by simp⟩
    rcases htoken with ⟨-, hsame⟩ | ⟨hholds, -⟩
    · exact hsame.trans (hbusy (hbefore hafter))
    · rw [hkept (hrest hholds)] at hafter
      cases hafter
  · exact ⟨fun hafter ↦ htoken.2.trans (hbusy (hbefore hafter)), by simp⟩
  · exact ⟨fun hafter ↦ htoken.trans (hbusy (hbefore hafter)), by simp⟩

theorem kept_of_entersMode (config : Config) (env : Env) (s : Shared) {h : Handler}
    (henters : entersMode h = false) :
    Kept s.currentState (h.step config env s).1.currentState := by
  refine kept_of_effect (fun state htarget ↦ ?_) (h.effect config env s).state
  unfold Handler.target at htarget
  split at htarget
  all_goals simp only [Option.some.injEq, reduceCtorEq] at htarget
  case h_1 | h_2 | h_3 | h_4 => cases henters
  all_goals
    rw [← htarget]
    rfl

theorem handler_after (config : Config) (env : Env) (s : Shared) (h : Handler)
    (hholds : h.holdsToken = true → s.operationInProgress = true)
    (hbusy : transient s.currentState = true → s.operationInProgress = true)
    (hs : handler h s.currentState = true) : After (h.step config env s) := by
  by_cases henters : entersMode h = true
  · -- the owner of the token goes on to the launch, or finds the transition refused
    have htaken (next : SystemState) (hheld : h.holdsToken = true) :
        transient (s.transitionTo next).currentState = true →
          (s.transitionTo next).operationInProgress = true := fun _ ↦ by simpa using hholds hheld
    unfold entersMode at henters
    split at henters
    · simp only [Handler.step, recoverStep, refuse]
      split_ifs
      · exact ⟨hbusy, by simp⟩
      · exact ⟨hbusy, by simp⟩
      · exact ⟨hbusy, by simp⟩
      · exact ⟨fun _ ↦ rfl, by rintro next ⟨⟩; rfl⟩
    · have hrest : transient s.currentState = false := by
        simpa [handler, Handler.holdsToken] using hs
      refine ⟨htaken _ rfl, fun next hnext ↦ ?_⟩
      split_ifs at hnext with hcan hcreated
      all_goals cases hnext
      · rfl
      all_goals simp [handler, transitionTo_of_not hcan, hrest]
    · have hrest : transient s.currentState = false := by
        simpa [handler, Handler.holdsToken] using hs
      refine ⟨htaken _ rfl, fun next hnext ↦ ?_⟩
      split_ifs at hnext with hcan
      all_goals cases hnext
      · rfl
      · simp [handler, transitionTo_of_not hcan, hrest]
    · have hrest : transient s.currentState = false := by
        simpa [handler, Handler.holdsToken] using hs
      refine ⟨htaken _ rfl, fun next hnext ↦ ?_⟩
      split_ifs at hnext with hcan
      all_goals cases hnext
      · rfl
      · simp [handler, transitionTo_of_not hcan, hrest]
    · cases henters
  · have hkept := kept_of_entersMode config env s (by simpa using henters)
    have hplain (hrest : h.holdsToken = true → transient s.currentState = false) :
        After (h.step config env s) :=
      after_of_kept (h.effect config env s) (h.follows config env s) hkept hbusy hrest
    unfold handler at hs
    split at hs
    · simp only [Handler.step, SaveMapRequest.step]
      split
      · exact ⟨hbusy, by simp⟩
      · exact ⟨hbusy, by rintro next ⟨⟩; rfl⟩
    · exact ⟨hbusy, by simp⟩
    · exact hplain fun hheld ↦ by simpa [hheld] using hs

/-! ## Every step -/

theorem Holds.handlerStep {config : Config} {env : Env} {s s' : Sys} (h : Holds s)
    (hexclusive : s.Exclusive) (hstep : s.step config (.handler env) = some s') : Holds s' := by
  obtain ⟨hd, r, hsome, hr, hmove⟩ := Sys.handlerMove_of_step hstep
  have hafter := handler_after config env s.shared hd
    (fun hheld ↦ hexclusive.handler (by simp [Sys.handlerHolds, hsome, hheld])) h.busy
    (h.handler hd hsome)
  rw [hr] at hafter
  -- while an operation runs, no handler enters a state in between
  have hkept (o : Operation) (ho : s.operation = some o) :
      Kept s.shared.currentState s'.shared.currentState := by
    rw [← show (hd.step config env s.shared).1 = s'.shared by rw [hr]]
    by_cases henters : entersMode hd = true
    · rcases Phase.operation_entersMode config env hexclusive hsome henters with hended | hsame
      · rw [hended] at ho
        cases ho
      · rw [hsame]
        exact id
    · exact kept_of_entersMode config env s.shared (by simpa using henters)
  cases hmove with
  | @next next hhandler hoperation =>
    refine ⟨hafter.1, fun other hother ↦ ?_, fun o ho ↦ ?_⟩
    · cases hhandler.symm.trans hother
      exact hafter.2 next rfl
    · rw [hoperation] at ho
      exact operation_kept (hkept o ho) o (h.operation o ho)
  | ended hnext hlaunched hhandler hoperation =>
    refine ⟨hafter.1, by simp [hhandler], fun o ho ↦ ?_⟩
    rw [hoperation] at ho
    exact operation_kept (hkept o ho) o (h.operation o ho)
  | launched hlaunch hended hhandler hoperation =>
    subst hlaunch
    refine ⟨hafter.1, by simp [hhandler], fun o ho ↦ ?_⟩
    cases hoperation.symm.trans ho
    simp only [Handler.step, Prod.mk.injEq, and_true] at hr
    rw [← hr]
    exact h.handler _ hsome

theorem Holds.step {config : Config} {s s' : Sys} {a : Action} (h : Holds s)
    (hexclusive : s.Exclusive) (hphase : Phase.outline.Holds s)
    (hmodes : ModeExclusion.outline.Holds s) (hstep : s.step config a = some s') : Holds s' := by
  have hbystander (hcall : ∀ request, a ≠ .call request) (hhandler : ∀ env, a ≠ .handler env)
      (hoperation : ∀ env, a ≠ .operation env)
      (htoken : s'.shared.operationInProgress = s.shared.operationInProgress) : Holds s' := by
    obtain ⟨hsame, hrunning, hinterference⟩ := bystander_of_step hstep hcall hhandler hoperation
    have hstate : s'.shared.currentState = s.shared.currentState ∨
        transient s'.shared.currentState = false := by
      rcases hinterference.state with hsame | ⟨-, hstate | hstate⟩
      · exact Or.inl hsame
      all_goals exact Or.inr (by rw [hstate]; rfl)
    have hkept : Kept s.shared.currentState s'.shared.currentState := by
      rcases hstate with hstate | hstate
      · rw [hstate]
        exact id
      · exact fun _ ↦ hstate
    refine ⟨fun hafter ↦ ?_, fun hd hsome ↦ ?_, fun o hsome ↦ ?_⟩
    · rcases hstate with hstate | hstate
      · rw [htoken]
        exact h.busy (hstate ▸ hafter)
      · rw [hstate] at hafter
        cases hafter
    · exact handler_kept hkept hd (h.handler hd (hsame ▸ hsome))
    · exact operation_kept hkept o (h.operation o (hrunning ▸ hsome))
  cases a with
  | call request =>
    obtain ⟨-, rfl⟩ := Sys.call_of_step hstep
    refine ⟨h.busy, fun hd hsome ↦ ?_, h.operation⟩
    cases hsome
    cases request <;> rfl
  | handler env => exact h.handlerStep hexclusive hstep
  | operation env =>
    obtain ⟨o, hsome, rfl⟩ := Option.map_eq_some_iff.mp hstep
    have hidle := hexclusive.of_operation hsome
    refine ⟨fun hafter ↦ ?_, fun hd hd' ↦ ?_, operation_step config env hsome hphase hmodes
      (h.operation o hsome)⟩
    · rcases o.effect config env s.shared with ⟨rfl, hend⟩ | ⟨-, shared, next, hnext, hcontinues⟩
      · have hrest := h.operation .finish hsome
        have hsame : (Operation.finish.step config env s.shared).1.currentState =
            s.shared.currentState := by
          rw [hend]
          rfl
        have hbefore : transient s.shared.currentState = true := hsame ▸ hafter
        simp [Settling.operation, hbefore] at hrest
      · rw [hnext]
        exact hcontinues.effect.token.trans (hexclusive.operation (by simp [hsome]))
    · apply handler_of_unheld
      simpa [Sys.handlerHolds, show s.handler = some hd from hd'] using hidle
  | callback id env =>
    obtain ⟨callback, -, rfl⟩ := Option.map_eq_some_iff.mp hstep
    exact hbystander (by simp) (by simp) (by simp) (callback.effect config env s.shared).token
  | deliver id message =>
    refine hbystander (by simp) (by simp) (by simp) ?_
    cases Sys.move_of_step hstep with
    | deliver hfree => rfl
    | environment heffect => exact heffect.token
  | observe | exit | writeMap | takeSave | writeSave =>
    refine hbystander (by simp) (by simp) (by simp) ?_
    cases Sys.move_of_step hstep with
    | environment heffect => exact heffect.token

end Settling

theorem Reachable.settling {config : Config} {s : Sys} (h : Reachable config s) :
    Settling.Holds s := by
  refine Reaches.invariant_of
    (Q := fun s ↦ s.Exclusive ∧ Phase.outline.Holds s ∧ ModeExclusion.outline.Holds s)
    (fun s (hs : Reachable config s) ↦ ⟨hs.exclusive, hs.phase, hs.modeExclusion⟩)
    (fun s hinit ↦ ⟨fun hafter ↦ ?_, by simp [hinit.handler], by simp [hinit.operation]⟩)
    (fun s a s' hknown hs _ hstep ↦ hs.step hknown.1 hknown.2.1 hknown.2.2 hstep) h
  rcases hinit.state with hstate | ⟨hstate, -⟩ <;> rw [hstate] at hafter <;> cases hafter

/-! ## States of rest -/

/-- The states after the construction of the manager and before its end. -/
def started (state : SystemState) : Bool :=
  !(state = .boot || state = .systemCheck || state = .shutdown)

theorem started_of_effect {target : Option SystemState} {before after : SystemState}
    (htarget : ∀ state, target = some state → started state = true)
    (h : StateEffect target before after) (hbefore : started before = true) :
    started after = true := by
  rcases h with rfl | ⟨hentered, -⟩
  · exact hbefore
  · exact htarget after hentered

theorem started_of_isIdle {state : SystemState} (h : state.isIdle = true) :
    started state = true := by
  revert h
  cases state <;> decide

theorem started_step {config : Config} {s s' : Sys} {a : Action}
    (hmodes : ModeExclusion.outline.Holds s) (h : started s.shared.currentState = true)
    (hstep : s.step config a = some s') : started s'.shared.currentState = true := by
  cases Sys.move_of_step hstep with
  | call | deliver => exact h
  | @handlerNext env handler next shared hsome hnext
  | @handlerDone env handler reply shared hsome hnext
  | @handlerLaunch env handler operation reply shared hsome hnext hended
  | @handlerEscape env handler what shared hsome hnext =>
    refine started_of_effect (fun state htarget ↦ ?_) (Handler.effect_of_step hnext).state h
    unfold Handler.target at htarget
    split at htarget <;> cases htarget <;> rfl
  | @operation env operation hsome =>
    rcases operation.effect config env s.shared with
      ⟨-, hend⟩ | ⟨-, shared, next, hnext, hcontinues⟩
    · rw [hend]
      exact h
    · rw [hnext]
      refine started_of_effect (fun state htarget ↦ ?_) hcontinues.effect.state h
      have hassertion := hmodes.operation
      rw [hsome] at hassertion
      unfold Operation.target at htarget
      split at htarget <;> cases htarget
      case h_6 => exact started_of_isIdle hassertion.2.2
      all_goals rfl
  | @callback id env callback hsome =>
    refine started_of_effect (fun state htarget ↦ ?_) (callback.effect config env s.shared).state h
    unfold Callback.target at htarget
    split at htarget <;> cases htarget <;> rfl
  | environment heffect => rwa [heffect.state]

theorem Reachable.started {config : Config} {s : Sys} (h : Reachable config s) :
    started s.shared.currentState = true := by
  refine Reaches.invariant_of (fun s (hs : Reachable config s) ↦ hs.modeExclusion)
    (fun s hinit ↦ ?_) (fun s a s' hmodes hs _ hstep ↦ started_step hmodes hs hstep) h
  rcases hinit.state with hstate | ⟨hstate, -⟩ <;> rw [hstate] <;> rfl

/-- No thread of the manager is midway, the adapter callbacks aside. -/
structure Sys.Resting (s : Sys) : Prop where
  handler : s.handler = none
  operation : s.operation = none

theorem Reachable.free {config : Config} {s : Sys} (h : Reachable config s) (hrest : s.Resting) :
    s.shared.operationInProgress = false := by
  cases htaken : s.shared.operationInProgress with
  | false => rfl
  | true =>
    rcases h.owned htaken with hheld | hrunning
    · simp [Sys.handlerHolds, hrest.handler] at hheld
    · exact absurd hrest.operation hrunning

/-- A manager at rest is not on the way to another state. -/
theorem Reachable.rest {config : Config} {s : Sys} (h : Reachable config s) (hrest : s.Resting) :
    s.shared.currentState.isIdle = true ∨ s.shared.currentState = .mapping ∨
      s.shared.currentState = .relocalizing ∨ s.shared.currentState = .localized ∨
      s.shared.currentState = .error := by
  have hstarted := h.started
  have hleft : Settling.transient s.shared.currentState = false := by
    cases hstate : Settling.transient s.shared.currentState with
    | false => rfl
    | true =>
      have htaken := h.settling.busy hstate
      rw [h.free hrest] at htaken
      cases htaken
  revert hstarted hleft
  cases s.shared.currentState <;> decide

end SlamSystemManager.Manager
