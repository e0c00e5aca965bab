import SlamSystemManager.Manager.RecoveryOutcome
import SlamSystemManager.Manager.SessionMap

/-!
# The fields of the status

The error fields, the selected map and the state are written in sections of their own. Whoever
writes an error while the manager is well is on its way to ERROR, and whoever enters a state that
reports none has cleared the fields before. Two races break this: a tick of the sensor timer that
clears the error of an operation it has not seen, and a failed start of localization that finds a
state a callback of an earlier session has entered.
-/

open TransitionSystem

namespace SlamSystemManager.Manager

open MapManager

/-! ## The condition -/

/-- No tick of the sensor timer clears the error an operation has just reported. -/
def keepsReport (s : Sys) : Action → Prop
  | .handler _ => s.handler = some (.sensorTick .clearError) →
      s.shared.currentState ≠ .error ∧ s.operation ≠ some .enterError
  | _ => True

def keepsStatus (s : Sys) (a : Action) : Prop := keepsReport s a ∧ failsBeforeSession s a

/-! ## Assertions -/

/-- The states that report no error. -/
def healthy (state : SystemState) : Bool :=
  state = .sensorReady || state = .waitMode || state.isActiveSlamState

structure Shared.ErrorFree (s : Shared) : Prop where
  code : s.errorCode = ""
  message : s.errorMessage = ""

/-- Whether an operation has reported an error and is on its way to ERROR. -/
def Operation.fails : Operation → Bool
  | .startMapping _ _ .unselect | .startMapping _ _ (.cleanup _) | .startLocalization _ .unselect
  | .saveMap _ (.checkState false) | .fail _ _ | .enterError => true
  | _ => false

/-- Whether a timer has reported an error and is on its way to ERROR. -/
def Handler.fails : Handler → Bool
  | .sensorTick .enterError | .processTick .enterError => true
  | _ => false

/-- An error an operation has reported is there. -/
def Operation.Reported (s : Shared) : Operation → Prop
  | .startMapping _ _ .unselect | .startLocalization _ .unselect | .saveMap _ (.checkState false)
  | .enterError => s.errorCode ≠ ""
  | .startMapping _ _ (.cleanup shouldTransition) =>
    s.errorCode ≠ "" ∧ (shouldTransition = false → s.currentState = .error)
  | .fail code _ => code ≠ ""
  | _ => True

/-- Outside ERROR and RECOVERING an error is one of an operation on its way to ERROR. -/
def Sys.Settled (s : Sys) : Prop :=
  s.shared.currentState.isIdle = true ∨ s.shared.currentState.isActiveSlamState = true →
    s.shared.ErrorFree ∨ s.operation.any Operation.fails = true

def Sys.HandlerReported (s : Sys) : Handler → Prop
  | .sensorTick .enterError | .processTick .enterError => s.shared.errorCode ≠ ""
  | .sensorTick .toReady => s.Settled
  | .sensorTick (.reportWaiting _) =>
    s.shared.currentState = .sensorStarting ∨ s.shared.currentState = .error
  | .launch launched _ => launched.fails = false
  | _ => True

/-- The error fields agree with the state and with the threads under way. -/
structure Sys.ErrorsAgree (s : Sys) : Prop where
  error : s.shared.currentState = .error → s.shared.errorCode ≠ ""
  operation : ∀ running, s.operation = some running → running.Reported s.shared
  handler : ∀ handler, s.handler = some handler → s.HandlerReported handler
  healthy : Manager.healthy s.shared.currentState = true →
    s.Settled ∨ s.handler.any Handler.fails = true

theorem Operation.reported_of_not_fails {running : Operation} {s : Shared}
    (h : running.fails = false) : running.Reported s := by
  cases running with
  | startMapping map created pc => cases pc <;> trivial
  | startLocalization map pc => cases pc <;> trivial
  | saveMap map pc =>
    cases pc with
    | checkState succeeded => cases succeeded <;> trivial
    | _ => trivial
  | fail | enterError => cases h
  | _ => trivial

theorem Operation.reported_congr {running : Operation} {s s' : Shared}
    (hcode : s.errorCode ≠ "" → s'.errorCode ≠ "")
    (herror : s.currentState = .error → s'.currentState = .error) (h : running.Reported s) :
    running.Reported s' := by
  cases running with
  | startMapping map created pc =>
    cases pc with
    | unselect => exact hcode h
    | cleanup target => exact ⟨hcode h.1, fun hfalse ↦ herror (h.2 hfalse)⟩
    | _ => trivial
  | startLocalization map pc => cases pc <;> first | exact hcode h | trivial
  | saveMap map pc =>
    cases pc with
    | checkState succeeded => cases succeeded <;> first | exact hcode h | trivial
    | _ => trivial
  | enterError => exact hcode h
  | fail => exact h
  | _ => trivial

theorem settles_of_healthy {state : SystemState} (h : healthy state = true) :
    state.isIdle = true ∨ state.isActiveSlamState = true := by
  simp only [healthy, Bool.or_eq_true, decide_eq_true_eq] at h
  rcases h with (rfl | rfl) | hactive
  · exact Or.inl rfl
  · exact Or.inl rfl
  · exact Or.inr hactive

/-! ## Steps beside the handlers and the operation thread -/

/-- A step that leaves the error fields alone and moves the state within the localization states
only. -/
structure Beside (s s' : Sys) : Prop where
  errors : SameErrors s.shared s'.shared
  operation : s'.operation = s.operation
  state : s'.shared.currentState = s.shared.currentState ∨
    (s.shared.currentState.isLocalizationState = true ∧
      s'.shared.currentState.isLocalizationState = true)

namespace Beside

variable {s s' : Sys} (h : Beside s s')

include h

theorem error_iff : s'.shared.currentState = .error ↔ s.shared.currentState = .error := by
  rcases h.state with hsame | ⟨hbefore, hafter⟩
  · rw [hsame]
  · constructor <;> intro herror
    · rw [herror] at hafter
      cases hafter
    · rw [herror] at hbefore
      cases hbefore

theorem settled (hs : s.Settled) : s'.Settled := by
  intro hstate
  rw [h.operation]
  refine (hs ?_).imp_left fun hfree ↦ ⟨h.errors.code.trans hfree.code,
    h.errors.message.trans hfree.message⟩
  rcases h.state with hsame | ⟨hbefore, -⟩
  · rwa [hsame] at hstate
  · exact Or.inr (by simp [SystemState.isActiveSlamState, hbefore])

theorem reported {running : Operation} (hs : running.Reported s.shared) :
    running.Reported s'.shared :=
  Operation.reported_congr (fun hcode hempty ↦ hcode (h.errors.code ▸ hempty)) h.error_iff.mpr hs

theorem handlerReported {handler : Handler} (hs : s.HandlerReported handler) :
    s'.HandlerReported handler := by
  cases handler with
  | sensorTick pc =>
    cases pc with
    | enterError => exact fun hempty ↦ hs (h.errors.code ▸ hempty)
    | toReady => exact h.settled hs
    | reportWaiting status =>
      rcases hs with hstarting | herror
      · rcases h.state with hsame | ⟨hbefore, -⟩
        · exact Or.inl (hsame.trans hstarting)
        · rw [hstarting] at hbefore
          cases hbefore
      · exact Or.inr (h.error_iff.mpr herror)
    | _ => trivial
  | processTick pc =>
    cases pc with
    | enterError => exact fun hempty ↦ hs (h.errors.code ▸ hempty)
    | _ => trivial
  | launch => exact hs
  | _ => trivial

theorem errorsAgree (hs : s.ErrorsAgree) (hhandler : ∀ handler, s'.handler = some handler →
      s.handler = some handler ∨ s'.HandlerReported handler)
    (hfails : s.handler.any Handler.fails = true → s'.handler.any Handler.fails = true) :
    s'.ErrorsAgree where
  error herror hempty := hs.error (h.error_iff.mp herror) (h.errors.code ▸ hempty)
  operation running hrunning := h.reported (hs.operation running (h.operation ▸ hrunning))
  handler handler hsome := by
    rcases hhandler handler hsome with hbefore | hreported
    · exact h.handlerReported (hs.handler handler hbefore)
    · exact hreported
  healthy hafter := by
    have hbefore : Manager.healthy s.shared.currentState = true := by
      rcases h.state with hsame | ⟨hlocalization, -⟩
      · rwa [hsame] at hafter
      · simp [Manager.healthy, SystemState.isActiveSlamState, hlocalization]
    exact (hs.healthy hbefore).imp h.settled hfails

end Beside

/-! ## The operation thread -/

/-- What a step of the operation thread does to the error fields. -/
inductive ErrorMove (s : Shared) (r : Shared × Option Operation) : Prop
  | same (hsame : SameErrors s r.1)
  | reports (hcode : r.1.errorCode ≠ "") (hfails : r.2.any Operation.fails = true)
  | clears (hfree : r.1.ErrorFree) (hstate : s.currentState = .recovering)

theorem Operation.errorMove (config : Config) (env : Env) {s : Shared} {running : Operation}
    (h : running.Reported s) : ErrorMove s (running.step config env s) := by
  cases hwrites : running.writesErrors with
  | false => exact .same (running.sameErrors config env s hwrites)
  | true =>
    rcases running.step_cases config env s with ⟨hrun, -⟩ | ⟨-, -, code, what, hthrow⟩
    · rw [hrun]
      unfold Operation.writesErrors at hwrites
      split at hwrites
      · exact .reports (by simp [Operation.run, StartMapping.step, Shared.setSystemError]) rfl
      · exact .reports (by simp [Operation.run, StartLocalization.step, Shared.setSystemError]) rfl
      · simp only [Operation.run, SaveMap.step, Prod.map]
        repeat' split
        · exact .reports (by simp [Shared.setSystemError]) rfl
        · exact .reports (by simp [Shared.setSystemError]) rfl
        · exact .same (.refl s)
      · simp only [Operation.run, Recovery.step, Prod.map]
        split
        · exact .same (.refl s)
        · rename_i hstate
          exact .clears ⟨rfl, rfl⟩ (by simpa using hstate)
      · exact .reports h rfl
      · cases hwrites
    · rw [hthrow]
      exact .same (.refl s)

/-- A code that is set stays set outside RECOVERING. -/
theorem Operation.errorCode_ne (config : Config) (env : Env) {s : Shared} {running : Operation}
    (h : running.Reported s) (hstate : s.currentState ≠ .recovering) (hcode : s.errorCode ≠ "") :
    (running.step config env s).1.errorCode ≠ "" := by
  cases running.errorMove config env h with
  | same hsame => rwa [hsame.code]
  | reports hset => exact hset
  | clears _ hrecovering => exact absurd hrecovering hstate

theorem reported_errorOrFinish {s : Shared} (hcode : s.errorCode ≠ "") (shouldTransition : Bool) :
    (errorOrFinish shouldTransition).Reported s := by
  cases shouldTransition with
  | true => exact hcode
  | false => trivial

theorem StartMapping.reported (config : Config) (env : Env) {map : String} {created : Bool}
    {s : Shared} {pc : StartMapping}
    (hphase : Phase.operation (.startMapping map created pc) s.currentState = true)
    (h : (Operation.startMapping map created pc).Reported s) :
    (pc.step config env map created s).2.Reported (pc.step config env map created s).1 := by
  cases pc with
  | failed error => simp [StartMapping.step, Operation.Reported, Shared.setSystemError]
  | unselect =>
    simp only [StartMapping.step]
    split
    · exact ⟨h, fun hother ↦ by simp_all [Phase.operation]⟩
    · exact reported_errorOrFinish h _
  | cleanup => exact reported_errorOrFinish h.1 _
  | _ =>
    simp only [StartMapping.step]
    repeat' split
    all_goals trivial

theorem StartLocalization.reported (config : Config) (env : Env) {map : String} {s : Shared}
    {pc : StartLocalization} (h : (Operation.startLocalization map pc).Reported s) :
    (pc.step config env map s).2.Reported (pc.step config env map s).1 := by
  cases pc with
  | failed error => simp [StartLocalization.step, Operation.Reported, Shared.setSystemError]
  | unselect => exact reported_errorOrFinish h _
  | _ =>
    simp only [StartLocalization.step]
    repeat' split
    all_goals trivial

theorem SaveMap.reported (config : Config) (env : Env) {map : String} {s : Shared} {pc : SaveMap}
    (h : (Operation.saveMap map pc).Reported s) :
    (pc.step config env map s).2.Reported (pc.step config env map s).1 := by
  cases pc with
  | report saved saveError stopped =>
    simp only [SaveMap.step]
    repeat' split
    all_goals simp [Operation.Reported, Shared.setSystemError]
  | checkState succeeded =>
    simp only [SaveMap.step]
    cases succeeded with
    | true => repeat' split <;> trivial
    | false =>
      repeat' split
      all_goals first | exact h | trivial
  | _ =>
    simp only [SaveMap.step]
    repeat' split
    all_goals trivial

theorem Operation.reported_catchException (what : String) (s : Shared) (running : Operation) :
    (running.catchException what).Reported s := by
  cases running <;> simp [Operation.catchException, Operation.Reported]

theorem Operation.reported_run (config : Config) (env : Env) {s : Shared} {running next : Operation}
    (hphase : Phase.operation running s.currentState = true) (h : running.Reported s)
    (hnext : (running.run config env s).2 = some next) :
    next.Reported (running.run config env s).1 := by
  cases running with
  | startMapping map created pc =>
    cases hnext
    exact StartMapping.reported config env hphase h
  | startLocalization map pc =>
    cases hnext
    exact StartLocalization.reported config env h
  | saveMap map pc =>
    cases hnext
    exact SaveMap.reported config env h
  | stopMapping pc =>
    cases hnext
    cases pc <;> simp only [Operation.run, StopMapping.step, Prod.map] <;> (repeat' split) <;>
      simp [Operation.Reported]
  | stopLocalization pc =>
    cases hnext
    cases pc <;> simp only [Operation.run, StopLocalization.step, Prod.map] <;>
      (repeat' split) <;> simp [Operation.Reported, Operation.catchException]
  | stopAfterFailure pc =>
    cases hnext
    cases pc <;> simp only [Operation.run, StopAfterFailure.step, Prod.map] <;>
      (repeat' split) <;> trivial
  | recovery pc =>
    cases hnext
    cases pc <;> simp only [Operation.run, Recovery.step, Recovery.afterLeader, Prod.map] <;>
      (repeat' split) <;> simp [Operation.Reported]
  | fail code message =>
    cases hnext
    exact h
  | enterError =>
    cases hnext
    trivial
  | finish => cases hnext

/-- What an operation goes on with has been reported. -/
theorem Operation.reported_step (config : Config) (env : Env) {s : Shared}
    {running next : Operation} (hphase : Phase.operation running s.currentState = true)
    (h : running.Reported s) (hnext : (running.step config env s).2 = some next) :
    next.Reported (running.step config env s).1 := by
  unfold Operation.step at hnext ⊢
  cases hthrows : env.throws with
  | none =>
    simp only [hthrows] at hnext ⊢
    exact reported_run config env hphase h hnext
  | some what =>
    by_cases hbody : running.isBody = true
    · simp only [hthrows, hbody, if_true, Option.some.injEq] at hnext ⊢
      rw [← hnext]
      exact running.reported_catchException what s
    · simp only [hthrows, hbody] at hnext ⊢
      exact reported_run config env hphase h hnext

/-- An operation on its way to ERROR stays on it, or has got there. -/
theorem Operation.fails_step {config : Config} {env : Env} {s : Sys} {running : Operation}
    (hrunning : s.operation = some running) (hfails : running.fails = true)
    (hphase : Phase.operation running s.shared.currentState = true)
    (hok : failsBeforeSession s (.operation env)) (h : running.Reported s.shared) :
    (running.step config env s.shared).2.any Operation.fails = true ∨
      ((running.step config env s.shared).1.currentState.isIdle = false ∧
        (running.step config env s.shared).1.currentState.isActiveSlamState = false) := by
  rcases running.step_cases config env s.shared with ⟨hrun, hthrows⟩ | ⟨-, -, code, what, hthrow⟩
  · have herror {shared : Shared} (hstate : shared.currentState = .error) :
        shared.currentState.isIdle = false ∧ shared.currentState.isActiveSlamState = false := by
      rw [hstate]
      exact ⟨rfl, rfl⟩
    rw [hrun]
    unfold Operation.fails at hfails
    split at hfails
    · simp only [Operation.run, StartMapping.step, errorOrFinish, Prod.map]
      repeat' split
      · exact Or.inl rfl
      · exact Or.inl rfl
      · rename_i hother
        exact Or.inr (herror (by simp_all [Phase.operation]))
    · rename_i map created shouldTransition
      cases shouldTransition with
      | true => exact Or.inl rfl
      | false => exact Or.inr (herror (h.2 rfl))
    · rename_i map
      obtain ⟨hrelocalizing, hlocalized⟩ := hok map hrunning (hthrows rfl)
      simp only [Operation.run, StartLocalization.step, errorOrFinish, Prod.map]
      split
      · exact Or.inl rfl
      · exact Or.inr (herror
          (by simp_all [Phase.operation, SystemState.isLocalizationState]))
    · simp only [Operation.run, SaveMap.step, Prod.map]
      split
      · exact Or.inl rfl
      · exact Or.inr (herror (by simp_all [Phase.operation]))
    · exact Or.inl rfl
    · simp only [Operation.run, currentState_transitionTo]
      split
      · exact Or.inr ⟨rfl, rfl⟩
      · rename_i hcan
        cases hstate : s.shared.currentState <;> rw [hstate] at hcan <;>
          first | exact absurd rfl hcan | exact Or.inr ⟨rfl, rfl⟩
    · cases hfails
  · rw [hthrow]
    exact Or.inl rfl

/-- The states a step of the operation thread leads out of, when no other error is cleared. -/
theorem settles_of_moves {before after : SystemState} (h : Phase.Moves before after)
    (hafter : after.isIdle = true ∨ after.isActiveSlamState = true) :
    (before.isIdle = true ∨ before.isActiveSlamState = true) ∨ before = .recovering := by
  rcases h with rfl | rfl | ⟨hactive, -⟩ | hrecovering
  · exact Or.inl hafter
  · rcases hafter with hafter | hafter <;> cases hafter
  · exact Or.inl (Or.inr hactive)
  · exact Or.inr hrecovering

theorem healthy_of_moves {before after : SystemState} (h : Phase.Moves before after)
    (hafter : healthy after = true) : healthy before = true ∨ before = .recovering := by
  rcases h with rfl | rfl | ⟨hactive, -⟩ | hrecovering
  · exact Or.inl hafter
  · cases hafter
  · exact Or.inl (by simp [healthy, hactive])
  · exact Or.inr hrecovering

/-- A recovery leaves RECOVERING with no error reported. -/
theorem settled_of_recovering {config : Config} {s s' : Sys} {a : Action}
    (hreach : Reachable config s) (hstep : s.step config a = some s')
    (hbefore : s.shared.currentState = .recovering) : s'.Settled := by
  intro hafter
  have hne : s'.shared.currentState ≠ .recovering := by
    intro hstate
    rw [hstate] at hafter
    rcases hafter with hafter | hafter <;> cases hafter
  rcases hreach.leaves_recovering hstep hbefore hne with ⟨hcleared, -⟩ | ⟨herror, -⟩
  · exact Or.inl ⟨hcleared.code, hcleared.message⟩
  · rw [herror] at hafter
    rcases hafter with hafter | hafter <;> cases hafter

theorem Sys.Settled.operation_step {config : Config} {env : Env} {s s' : Sys}
    {running : Operation} (h : s.Settled) (hreach : Reachable config s)
    (hok : failsBeforeSession s (.operation env)) (hrunning : s.operation = some running)
    (hreported : running.Reported s.shared) (hstep : s.step config (.operation env) = some s') :
    s'.Settled := by
  intro hafter
  have hphase := hreach.phase.operation running hrunning
  obtain ⟨hnext, -⟩ := Sys.step_operation hrunning hstep
  have hmoves := Phase.operation_moves config env hphase
  have hmove := running.errorMove config env hreported
  have hfails (hfails : running.fails = true) : s'.operation.any Operation.fails = true := by
    rcases running.fails_step hrunning hfails hphase hok hreported with hstays | ⟨hidle, hactive⟩
    · rwa [hnext] at hstays
    · rw [hnext] at hidle hactive
      simp only at hidle hactive
      simp [hidle, hactive] at hafter
  rw [hnext] at hmoves hmove
  rcases settles_of_moves hmoves hafter with hbefore | hrecovering
  · cases hmove with
    | same hsame =>
      rcases h hbefore with hfree | hpending
      · exact Or.inl ⟨hsame.code.trans hfree.code, hsame.message.trans hfree.message⟩
      · rw [hrunning] at hpending
        exact Or.inr (hfails hpending)
    | reports _ hpending => exact Or.inr hpending
    | clears hfree => exact Or.inl hfree
  · exact settled_of_recovering hreach hstep hrecovering hafter

/-- Outside RECOVERING an operation enters ERROR with an error it has reported. -/
theorem Operation.enterError_of_moves {config : Config} {env : Env} {s : Shared}
    {running : Operation} (hphase : Phase.operation running s.currentState = true)
    (hbefore : s.currentState ≠ .error) (hrecovering : s.currentState ≠ .recovering)
    (hafter : (running.step config env s).1.currentState = .error) : running = .enterError := by
  rcases running.effect config env s with ⟨-, hend⟩ | ⟨-, s', next, hgoes, hcontinues⟩
  · rw [hend] at hafter
    exact absurd hafter hbefore
  · rw [hgoes] at hafter
    rcases hcontinues.effect.state with hsame | ⟨htarget, -⟩
    · exact absurd (hsame.symm.trans hafter) hbefore
    · simp only at hafter htarget
      rw [hafter] at htarget
      unfold Operation.target at htarget
      split at htarget
      case h_6 => exact absurd (by simpa [Phase.operation] using hphase) hrecovering
      case h_7 => rfl
      all_goals cases htarget

theorem Sys.ErrorsAgree.operation_step {config : Config} {env : Env} {s s' : Sys}
    (h : s.ErrorsAgree) (hreach : Reachable config s)
    (hok : failsBeforeSession s (.operation env))
    (hstep : s.step config (.operation env) = some s') : s'.ErrorsAgree := by
  obtain ⟨running, hrunning, -⟩ := Option.map_eq_some_iff.mp hstep
  obtain ⟨hnext, hsame⟩ := Sys.step_operation hrunning hstep
  have hphase := hreach.phase.operation running hrunning
  have hreported := h.operation running hrunning
  have hmoves := Phase.operation_moves config env hphase
  have hcode (hstate : s.shared.currentState ≠ .recovering) (hset : s.shared.errorCode ≠ "") :
      s'.shared.errorCode ≠ "" := by
    have hkept := running.errorCode_ne config env hreported hstate hset
    rwa [hnext] at hkept
  rw [hnext] at hmoves
  refine ⟨fun herror ↦ ?_, fun next hsome ↦ ?_, fun handler hhandler ↦ ?_, fun hhealthy ↦ ?_⟩
  · by_cases hbefore : s.shared.currentState = .error
    · exact hcode (by simp [hbefore]) (h.error hbefore)
    · by_cases hrecovering : s.shared.currentState = .recovering
      · rcases hreach.leaves_recovering hstep hrecovering (by simp [herror]) with
          ⟨-, hother⟩ | ⟨-, hfailed⟩
        · exact absurd herror hother
        · simp [hfailed]
      · have henters := running.enterError_of_moves hphase hbefore hrecovering
          (by rw [hnext]; exact herror)
        subst henters
        exact hcode hrecovering hreported
  · have hstep : ∀ next, (running.step config env s.shared).2 = some next →
        next.Reported (running.step config env s.shared).1 :=
      fun _ ↦ running.reported_step config env hphase hreported
    rw [hnext] at hstep
    exact hstep next hsome
  · rw [hsame] at hhandler
    have hassertion := h.handler handler hhandler
    have hstate : Phase.handler handler s.shared.currentState = true :=
      hreach.phase.handler handler hhandler
    have hidle := hreach.exclusive.of_operation hrunning
    simp only [Sys.handlerHolds, hhandler, Option.any_some] at hidle
    cases handler with
    | sensorTick pc =>
      cases pc with
      | enterError =>
        refine hcode (fun hrecovering ↦ ?_) hassertion
        rw [hrecovering] at hstate
        cases hstate
      | toReady => exact hassertion.operation_step hreach hok hrunning hreported hstep
      | reportWaiting status =>
        rcases hassertion with hstarting | herror
        · rw [hstarting] at hmoves
          rcases hmoves with hstays | herror | ⟨hactive, -⟩ | hrecovering
          · exact Or.inl hstays
          · exact Or.inr herror
          · cases hactive
          · cases hrecovering
        · exact Or.inr (Phase.error_moves hmoves herror)
      | _ => trivial
    | processTick pc =>
      cases pc with
      | enterError =>
        refine hcode (fun hrecovering ↦ ?_) hassertion
        rw [hrecovering] at hstate
        cases hstate
      | _ => trivial
    | launch => cases hidle
    | _ => trivial
  · rw [hsame]
    rcases healthy_of_moves hmoves hhealthy with hbefore | hrecovering
    · exact (h.healthy hbefore).imp_left fun hsettled ↦
        hsettled.operation_step hreach hok hrunning hreported hstep
    · exact Or.inl (settled_of_recovering hreach hstep hrecovering)

/-! ## Handlers -/

theorem failureReport_ne (status : SensorStatus) : (failureReport status).1 ≠ "" := by
  unfold failureReport
  repeat' split
  all_goals simp

theorem waitingReport_ne {status : SensorStatus} {code message : String}
    (h : waitingReport status = some (code, message)) : code ≠ "" := by
  unfold waitingReport at h
  repeat' split at h
  all_goals cases h <;> simp

theorem exitedCode_ne (leader : Leader) : leader.exitedCode ≠ "" := by
  cases leader <;> simp [Leader.exitedCode]

/-- An error is cleared by the tick and by the start requests only. -/
theorem Handler.errorCode_ne (config : Config) (env : Env) {s : Shared} {handler : Handler}
    (hphase : Phase.handler handler s.currentState = true)
    (hselects : handler.holdsToken = false ∨ s.currentState = .error)
    (hclear : handler ≠ .sensorTick .clearError)
    (hcode : s.errorCode ≠ "") : (handler.step config env s).1.errorCode ≠ "" := by
  cases hwrites : handler.writesErrors with
  | false => rwa [(handler.sameErrors config env s hwrites).code]
  | true =>
    unfold Handler.writesErrors at hwrites
    split at hwrites
    case h_1 | h_2 =>
      rcases hselects with hidle | herror
      · cases hidle
      · rw [herror] at hphase
        cases hphase
    · exact absurd rfl hclear
    · exact failureReport_ne _
    · simp only [Handler.step, SensorTick.step]
      split
      · rename_i hreport
        exact waitingReport_ne hreport
      · exact hcode
    · exact exitedCode_ne _
    · cases hwrites

/-- The handlers beside an operation keep ERROR. -/
theorem error_of_handler (config : Config) (env : Env) {s : Shared} {handler : Handler}
    (hphase : Phase.handler handler s.currentState = true) (hidle : handler.holdsToken = false)
    (htoken : s.operationInProgress = true) (herror : s.currentState = .error) :
    (handler.step config env s).1.currentState = .error := by
  by_cases hmode : ModeExclusion.entersMode handler = true
  · rcases ModeExclusion.recover_or_holdsToken hmode with rfl | hholds
    · obtain ⟨message, hrefused⟩ := recoverStep_of_token htoken
      simpa only [Handler.step, hrefused] using herror
    · simp_all
  · rcases Phase.drift_of_handler config env s hphase (by simpa using hmode) with
      hsame | ⟨hafter, -⟩ | ⟨hlocalization, -⟩ | ⟨hrest, -⟩
    · exact hsame.trans herror
    · exact hafter
    · rw [herror] at hlocalization
      cases hlocalization
    · rw [herror] at hrest
      cases hrest

/-- Where a tick clears an error, an operation on its way to ERROR has yet to report, or has been
reported. -/
theorem error_of_fails {running : Operation} {state : SystemState} (hfails : running.fails = true)
    (hphase : Phase.operation running state = true)
    (hrest : ModeExclusion.restOrError state = true) :
    state = .error ∨ running = .enterError ∨ ∃ code message, running = .fail code message := by
  unfold Operation.fails at hfails
  split at hfails
  case h_1 | h_2 | h_3 | h_4 =>
    refine Or.inl ?_
    cases state <;> first | rfl | (cases hphase; done) | cases hrest
  case h_5 => exact Or.inr (Or.inr ⟨_, _, rfl⟩)
  case h_6 => exact Or.inr (Or.inl rfl)
  case h_7 => cases hfails

/-- A handler leaves the report of an operation alone. -/
theorem reported_handler {config : Config} {env : Env} {s : Sys} {handler : Handler}
    {running : Operation} (hreach : Reachable config s) (hok : keepsReport s (.handler env))
    (hhandler : s.handler = some handler) (hrunning : s.operation = some running)
    (h : running.Reported s.shared) : running.Reported (handler.step config env s.shared).1 := by
  have hphase : Phase.handler handler s.shared.currentState = true :=
    hreach.phase.handler handler hhandler
  have hidle := hreach.exclusive.of_operation hrunning
  simp only [Sys.handlerHolds, hhandler, Option.any_some] at hidle
  have htoken := hreach.exclusive.operation (by simp [hrunning])
  cases hfails : running.fails with
  | false => exact Operation.reported_of_not_fails hfails
  | true =>
    by_cases hclear : handler = .sensorTick .clearError
    · subst hclear
      obtain ⟨hstate, hnot⟩ := hok hhandler
      rcases error_of_fails hfails (hreach.phase.operation running hrunning) hphase with
        herror | rfl | ⟨code, message, rfl⟩
      · exact absurd herror hstate
      · exact absurd hrunning hnot
      · exact h
    · exact Operation.reported_congr (handler.errorCode_ne config env hphase (Or.inl hidle) hclear)
        (error_of_handler config env hphase hidle htoken) h

/-- What enters a state that reports no error, ticks from SENSOR_STARTING aside, leaves another
one. -/
theorem healthy_of_handler (config : Config) (env : Env) {s : Shared} {handler : Handler}
    (hphase : Phase.handler handler s.currentState = true)
    (hready : handler ≠ .sensorTick .toReady)
    (hafter : healthy (handler.step config env s).1.currentState = true) :
    healthy s.currentState = true := by
  rcases (handler.effect config env s).state with hsame | ⟨htarget, hcan⟩
  · rwa [hsame] at hafter
  · generalize (handler.step config env s).1.currentState = after at htarget hcan hafter
    unfold Handler.target at htarget
    split at htarget <;> cases htarget
    case h_5 => exact absurd rfl hready
    case h_6 =>
      cases hstate : s.currentState <;> rw [hstate] at hcan hphase <;>
        first | rfl | (cases hcan; done) | cases hphase
    all_goals
      first
        | (cases hafter; done)
        | (cases hstate : s.currentState <;> rw [hstate] at hcan <;>
            first | rfl | cases hcan)

/-- A timer that has reported an error enters ERROR. -/
theorem error_of_handlerFails (config : Config) (env : Env) {s : Shared} {handler : Handler}
    (hfails : handler.fails = true) (hphase : Phase.handler handler s.currentState = true) :
    (handler.step config env s).1.currentState = .error := by
  unfold Handler.fails at hfails
  split at hfails
  case h_3 => cases hfails
  all_goals
    simp only [Handler.step, SensorTick.step, ProcessTick.step, currentState_transitionTo]
    split
    · rfl
    · rename_i hcan
      cases hstate : s.currentState <;> rw [hstate] at hcan hphase <;>
        first | rfl | exact absurd rfl hcan | cases hphase

/-- A step of a handler into a state that reports no error finds none, or goes on to ERROR. -/
theorem healthy_handler {config : Config} (env : Env) {s : Sys} {handler : Handler}
    (hreach : Reachable config s) (h : s.ErrorsAgree) (hhandler : s.handler = some handler)
    (hafter : healthy (handler.step config env s.shared).1.currentState = true) :
    ((handler.step config env s.shared).1.ErrorFree ∨ s.operation.any Operation.fails = true) ∨
      ∃ next, (handler.step config env s.shared).2 = .next next ∧ next.fails = true := by
  have hphase : Phase.handler handler s.shared.currentState = true :=
    hreach.phase.handler handler hhandler
  cases hwrites : handler.writesErrors with
  | true =>
    unfold Handler.writesErrors at hwrites
    split at hwrites
    · exact Or.inl (Or.inl ⟨rfl, rfl⟩)
    · exact Or.inl (Or.inl ⟨rfl, rfl⟩)
    · exact Or.inl (Or.inl ⟨rfl, rfl⟩)
    · exact Or.inr ⟨_, rfl, rfl⟩
    · rename_i status
      have hstays : ((SensorTick.reportWaiting status).step config env s.shared).1.currentState =
          s.shared.currentState := by
        simp only [SensorTick.step]
        split <;> rfl
      rw [Handler.step, hstays] at hafter
      rcases h.handler _ hhandler with hstarting | herror
      · rw [hstarting] at hafter
        cases hafter
      · rw [herror] at hafter
        cases hafter
    · exact Or.inr ⟨_, rfl, rfl⟩
    · cases hwrites
  | false =>
    have hsame := handler.sameErrors config env s.shared hwrites
    refine Or.inl ?_
    have hkept (hsettles : s.shared.currentState.isIdle = true ∨
        s.shared.currentState.isActiveSlamState = true) (hsettled : s.Settled) :=
      (hsettled hsettles).imp_left fun hfree ↦
        (⟨hsame.code.trans hfree.code, hsame.message.trans hfree.message⟩ :
          (handler.step config env s.shared).1.ErrorFree)
    by_cases hready : handler = .sensorTick .toReady
    · subst hready
      have hrest : ModeExclusion.restOrError s.shared.currentState = true := hphase
      refine hkept (Or.inl ?_) (h.handler _ hhandler)
      simp only [ModeExclusion.restOrError, Bool.or_eq_true, decide_eq_true_eq] at hrest
      refine hrest.resolve_right fun herror ↦ ?_
      simp only [Handler.step, SensorTick.step, currentState_transitionTo, herror] at hafter
      cases hafter
    · have hbefore := healthy_of_handler config env hphase hready hafter
      rcases h.healthy hbefore with hsettled | hfails
      · exact hkept (settles_of_healthy hbefore) hsettled
      · rw [hhandler] at hfails
        rw [error_of_handlerFails config env hfails hphase] at hafter
        cases hafter

theorem Sys.ErrorsAgree.error_handler {config : Config} {env : Env} {s : Sys} {handler : Handler}
    (h : s.ErrorsAgree) (hreach : Reachable config s) (hok : keepsReport s (.handler env))
    (hhandler : s.handler = some handler)
    (hafter : (handler.step config env s.shared).1.currentState = .error) :
    (handler.step config env s.shared).1.errorCode ≠ "" := by
  have hphase : Phase.handler handler s.shared.currentState = true :=
    hreach.phase.handler handler hhandler
  by_cases hbefore : s.shared.currentState = .error
  · refine handler.errorCode_ne config env hphase (Or.inr hbefore) (fun hclear ↦ ?_)
      (h.error hbefore)
    subst hclear
    exact (hok hhandler).1 hbefore
  · rcases (handler.effect config env s.shared).state with hsame | ⟨htarget, -⟩
    · exact absurd (hsame.symm.trans hafter) hbefore
    · have hassertion := h.handler handler hhandler
      rw [hafter] at htarget
      unfold Handler.target at htarget
      split at htarget
      case h_7 | h_9 =>
        simp only [Handler.step, SensorTick.step, ProcessTick.step,
          (sameErrors_transitionTo s.shared .error).code]
        exact hassertion
      all_goals cases htarget

/-- How a tick of the sensor timer comes to a step that rests on the error fields. -/
theorem SensorTick.enters_of_step {config : Config} {env : Env} {s s' : Shared}
    {pc pc' : SensorTick} (h : pc.step config env s = (s', .next (.sensorTick pc'))) :
    (pc' = .toReady → s'.ErrorFree) ∧ (pc' = .enterError → s'.errorCode ≠ "") ∧
      ∀ status, pc' = .reportWaiting status → s'.currentState = .sensorStarting ∨
        ∃ other, pc = .restart other ∧ s' = s.transitionTo .sensorStarting := by
  cases pc with
  | readStatus | toReady | enterError | mappingRunning | localizationRunning =>
    cases h
    simp
  | clearError =>
    cases h
    exact ⟨fun _ ↦ ⟨rfl, rfl⟩, by simp, by simp⟩
  | reportFailure status =>
    cases h
    exact ⟨by simp, fun _ ↦ failureReport_ne status, by simp⟩
  | restart status =>
    simp only [SensorTick.step] at h
    split at h <;> cases h
    exact ⟨by simp, by simp, fun _ _ ↦ Or.inr ⟨status, rfl, rfl⟩⟩
  | snapshot status now =>
    simp only [SensorTick.step, sensorSnapshot] at h
    split_ifs at h with hready hstarting hsensor hactive hgrace hidle hwaiting
    all_goals cases h
    all_goals simp_all
  | toWait => cases h
  | reportWaiting status =>
    simp only [SensorTick.step] at h
    split at h <;> cases h
  | claim mapping localization =>
    simp only [SensorTick.step] at h
    split at h <;> cases h

theorem ProcessTick.enters_of_step {s s' : Shared} {pc : ProcessTick}
    (h : pc.step s = (s', .next (.processTick .enterError))) : s'.errorCode ≠ "" := by
  cases pc with
  | report leader message =>
    cases h
    exact exitedCode_ne leader
  | snapshot =>
    simp only [ProcessTick.step] at h
    split_ifs at h <;> cases h
  | checkRunning leader =>
    simp only [ProcessTick.step, Prod.mk.injEq] at h
    obtain ⟨-, hnext⟩ := h
    split at hnext <;> cases hnext
  | readExitCode | enterError => cases h

theorem restarted {s : Shared} (h : ModeExclusion.restOrError s.currentState = true) :
    (s.transitionTo .sensorStarting).currentState = .sensorStarting ∨
      (s.transitionTo .sensorStarting).currentState = .error := by
  rw [currentState_transitionTo]
  cases hstate : s.currentState <;> rw [hstate] at h <;>
    first | exact Or.inl rfl | exact Or.inr rfl | cases h

/-- What a handler goes on with has been reported. -/
theorem handlerReported_next {config : Config} {env : Env} {s s' : Sys} {handler next : Handler}
    (hreach : Reachable config s) (hhandler : s.handler = some handler)
    (hstep : handler.step config env s.shared = (s'.shared, .next next)) :
    s'.HandlerReported next := by
  have hphase : Phase.handler handler s.shared.currentState = true :=
    hreach.phase.handler handler hhandler
  cases Handler.follows_of_step hstep with
  | sensorTick pc pc' =>
    obtain ⟨hready, henter, hwaiting⟩ := SensorTick.enters_of_step hstep
    cases pc' with
    | toReady => exact fun _ ↦ Or.inl (hready rfl)
    | enterError => exact henter rfl
    | reportWaiting status =>
      rcases hwaiting status rfl with hstarting | ⟨other, rfl, hrestarted⟩
      · exact Or.inl hstarting
      · have hstate := restarted hphase
        rwa [← hrestarted] at hstate
    | _ => trivial
  | processTick pc pc' =>
    cases pc' with
    | enterError => exact ProcessTick.enters_of_step hstep
    | _ => trivial
  | launchStartMapping | launchStartLocalization | launchStopMapping | launchSaveMap
  | launchStopLocalization | launchStopAfterFailure | launchRecovery => rfl
  | _ => trivial

theorem Sys.ErrorsAgree.handler_step {config : Config} {env : Env} {s s' : Sys}
    (h : s.ErrorsAgree) (hreach : Reachable config s) (hok : keepsReport s (.handler env))
    (hstep : s.step config (.handler env) = some s') : s'.ErrorsAgree := by
  obtain ⟨handler, r, hhandler, hr, hmove⟩ := Sys.handlerMove_of_step hstep
  have hshared : s'.shared = (handler.step config env s.shared).1 := by rw [hr]
  have herror := h.error_handler hreach hok hhandler
  have hhealthy := healthy_handler env hreach h hhandler
  have hreported {running : Operation} (hrunning : s.operation = some running) :
      running.Reported s'.shared := by
    rw [hshared]
    exact reported_handler hreach hok hhandler hrunning (h.operation running hrunning)
  rw [← hshared] at herror hhealthy
  rw [hr] at hhealthy
  cases hmove with
  | next hafter hsame =>
    refine ⟨herror, fun running hrunning ↦ hreported (hsame ▸ hrunning), fun other hother ↦ ?_,
      fun hstate ↦ ?_⟩
    · cases hafter.symm.trans hother
      exact handlerReported_next hreach hhandler hr
    · rcases hhealthy hstate with hsettled | ⟨other, hother, hfails⟩
      · exact Or.inl fun _ ↦ hsame ▸ hsettled
      · cases hother
        simp [hafter, hfails]
  | ended hends _ hafter hsame =>
    refine ⟨herror, fun running hrunning ↦ hreported (hsame ▸ hrunning), by simp [hafter],
      fun hstate ↦ ?_⟩
    rcases hhealthy hstate with hsettled | ⟨other, hother, -⟩
    · exact Or.inl fun _ ↦ hsame ▸ hsettled
    · exact absurd hother (hends other)
  | launched hlaunch hended hafter hoperation =>
    subst hlaunch
    refine ⟨herror, fun running hrunning ↦ ?_, by simp [hafter], fun hstate ↦ ?_⟩
    · cases hoperation.symm.trans hrunning
      exact Operation.reported_of_not_fails (h.handler _ hhandler)
    · rcases hhealthy hstate with (hfree | hpending) | ⟨other, hother, -⟩
      · exact Or.inl fun _ ↦ Or.inl hfree
      · simp [hended] at hpending
      · cases hother

/-! ## Runs -/

theorem Request.handlerReported (s : Sys) (request : Request) :
    s.HandlerReported request.handler := by
  cases request <;> trivial

theorem Sys.ErrorsAgree.step {config : Config} {s s' : Sys} {a : Action} (h : s.ErrorsAgree)
    (hreach : Reachable config s) (hok : keepsStatus s a)
    (hstep : s.step config a = some s') : s'.ErrorsAgree := by
  cases a with
  | handler env => exact h.handler_step hreach hok.1 hstep
  | operation env => exact h.operation_step hreach hok.2 hstep
  | call request =>
    obtain ⟨hfree, rfl⟩ := Sys.call_of_step hstep
    have hbeside : Beside s { s with handler := some request.handler } :=
      ⟨.refl s.shared, rfl, Or.inl rfl⟩
    refine hbeside.errorsAgree h (fun handler hhandler ↦ ?_) fun hfails ↦ ?_
    · cases hhandler
      exact Or.inr (request.handlerReported _)
    · simp [hfree] at hfails
  | deliver | callback | observe | exit | writeMap | takeSave | writeSave =>
    have hother := bystander_of_step hstep (by simp) (by simp) (by simp)
    refine Beside.errorsAgree ⟨sameErrors_of_step hstep (by simp) (by simp), hother.operation,
      Phase.drift_of_interference hother.interference⟩ h
      (fun handler hhandler ↦ Or.inl (hother.handler ▸ hhandler)) fun hfails ↦ ?_
    rwa [hother.handler]

theorem errorsAgree_of_reaches {config : Config} {s : Sys}
    (h : Reaches (Sys.step config) keepsStatus Sys.Initial s) : s.ErrorsAgree := by
  refine Reaches.invariant_of (fun s hs ↦ hs.mono fun _ _ _ ↦ trivial) (fun s hinit ↦ ?_)
    (fun s a s' (hs : Reachable config s) hagrees hok hstep ↦ hagrees.step hs hok hstep) h
  refine ⟨fun herror ↦ ?_, by simp [hinit.operation], by simp [hinit.handler], fun hhealthy ↦ ?_⟩
  · rcases hinit.state with hstate | ⟨-, hcode⟩
    · rw [hstate] at herror
      cases herror
    · simp [hcode]
  · rcases hinit.state with hstate | ⟨hstate, -⟩
    · rw [hstate] at hhealthy
      cases hhealthy
    · rw [hstate] at hhealthy
      cases hhealthy

/-- No callback is midway and no operation is in progress. -/
structure Sys.Quiescent (s : Sys) : Prop where
  handler : s.handler = none
  operation : s.operation = none
  callbacks : ∀ id, s.callbacks id = none

/-- What the fields of the status say of the state. -/
structure Shared.StatusAgrees (s : Shared) : Prop where
  error : s.currentState = .error → s.errorCode ≠ ""
  healthy : s.currentState = .sensorReady ∨ s.currentState = .waitMode ∨
    s.currentState = .mapping ∨ s.currentState = .relocalizing ∨ s.currentState = .localized →
    s.errorCode = "" ∧ s.errorMessage = ""
  map : ∀ leader, session s.currentState = some leader →
    isValidMapName s.currentMap = true ∧ s.currentMap = (s.processes leader).mapName

/-- The fields of the status agree with the state whenever no thread is midway, in every run in
which no tick clears the error of an operation it has not seen and no start of localization fails in
a state that a callback of an earlier session has entered. -/
theorem status_fields (config : Config) (s : Sys)
    (h : Reaches (Sys.step config) keepsStatus Sys.Initial s) (hquiescent : s.Quiescent) :
    s.shared.StatusAgrees := by
  have herrors := errorsAgree_of_reaches h
  have hsession := (sessionMap_of_reaches (h.mono fun _ _ hok ↦ hok.2)).running
  rw [SessionMap.underWay_of_ne (by simp [hquiescent.handler]), hquiescent.operation] at hsession
  refine ⟨herrors.error, fun hstate ↦ ?_, fun leader hleader ↦ ?_⟩
  · have hhealthy : healthy s.shared.currentState = true := by
      rcases hstate with hstate | hstate | hstate | hstate | hstate <;> rw [hstate] <;> rfl
    rcases herrors.healthy hhealthy with hsettled | hfails
    · rcases hsettled (settles_of_healthy hhealthy) with hfree | hpending
      · exact ⟨hfree.code, hfree.message⟩
      · simp [hquiescent.operation] at hpending
    · simp [hquiescent.handler] at hfails
  · exact (hsession.map leader trivial hleader).symm

/-! ## Replays -/

def Sys.quiescent (ids : List ℕ) (s : Sys) : Bool :=
  s.handler.isNone && s.operation.isNone && ids.all fun id ↦ (s.callbacks id).isNone

/-- A test of the condition; where localization fails, no callback has entered a session. -/
def Sys.keepsStatus (s : Sys) : Action → Bool
  | .handler _ =>
    match s.handler, s.operation with
    | some (.sensorTick .clearError), some .enterError => false
    | some (.sensorTick .clearError), _ => decide (s.shared.currentState ≠ .error)
    | _, _ => true
  | .operation _ =>
    match s.operation with
    | some (.startLocalization _ .unselect) =>
      decide (s.shared.currentState ≠ .relocalizing) && decide (s.shared.currentState ≠ .localized)
    | _ => true
  | _ => true

theorem keepsStatus_of_test {s : Sys} {a : Action} (h : s.keepsStatus a = true) :
    Manager.keepsStatus s a := by
  cases a with
  | handler env =>
    refine ⟨fun hclear ↦ ?_, trivial⟩
    simp only [Sys.keepsStatus, hclear] at h
    cases hoperation : s.operation with
    | none => exact ⟨by simpa [hoperation] using h, nofun⟩
    | some operation =>
      cases operation with
      | enterError => simp [hoperation] at h
      | _ => exact ⟨by simpa [hoperation] using h, nofun⟩
  | operation env =>
    refine ⟨trivial, fun map hoperation _ ↦ ?_⟩
    simpa [Sys.keepsStatus, hoperation] using h
  | _ => exact ⟨trivial, trivial⟩

/-- What a test finds at the end of a replay in which no other callbacks run holds of a quiescent
state. -/
theorem exists_of_quiescentReplay {ok : Sys → Action → Prop} (ids : List ℕ) (maps : MapStore)
    (passes : Sys → Action → Bool) (hpasses : ∀ s a, passes s a = true → ok s a)
    (actions : List Action) (test : Sys → Bool)
    (hrun : ((execWith (Sys.step {}) (fun s a ↦ passes s a && a.deliversTo ids) (Sys.initial maps)
      actions).any fun s ↦ s.quiescent ids && test s) = true) :
    ∃ s, Reaches (Sys.step {}) ok Sys.Initial s ∧ s.Quiescent ∧ test s = true := by
  have hboth : ∀ s a, (passes s a && a.deliversTo ids) = true →
      ok s a ∧ a.deliversTo ids = true := by
    intro s a h
    obtain ⟨hok, hdelivers⟩ := Bool.and_eq_true_iff.mp h
    exact ⟨hpasses s a hok, hdelivers⟩
  obtain ⟨s, hs, htest⟩ := exists_of_execWith {} maps
    (fun s a ↦ ok s a ∧ a.deliversTo ids = true) _ hboth actions _ hrun
  simp only [Sys.quiescent, Bool.and_eq_true, Option.isNone_iff_eq_none, List.all_eq_true] at htest
  obtain ⟨⟨⟨hhandler, hoperation⟩, hcallbacks⟩, htest⟩ := htest
  refine ⟨s, hs.mono fun _ _ h ↦ h.1, ⟨hhandler, hoperation, fun id ↦ ?_⟩, htest⟩
  by_cases hid : id ∈ ids
  · exact hcallbacks id hid
  · exact callbacks_none ids (hs.mono fun _ _ h ↦ h.2) id hid

theorem status_fields_mapping :
    ∃ s, Sys.Quiescent s ∧ s.shared.currentState = .mapping ∧ s.shared.StatusAgrees := by
  obtain ⟨s, hreach, hquiescent, htest⟩ := exists_of_quiescentReplay [] ∅ Sys.keepsStatus
    (fun _ _ ↦ keepsStatus_of_test) (toWaitMode ++ launchMapping "m" ++ enterMapping)
    (fun s ↦ decide (s.shared.currentState = .mapping)) (by decide +kernel)
  exact ⟨s, hquiescent, of_decide_eq_true htest, status_fields {} s hreach hquiescent⟩

/-- Localization is confirmed and its start has ended. -/
def localizedRest : List Action :=
  localizedRun ++ [.operation {}, .operation {}, .callback 0 {}]

def requestStop : List Action := [.call .stopLocalization, .handler {}, .handler {}]

/-- A callback of the last session is about to return to RELOCALIZING when localization is stopped
and started again. -/
def staleReturn : List Action :=
  localizedRest ++ runCallback 1 (.initialPose (originAt 3)) 3 3 ++ requestStop ++
    List.replicate 9 (.operation {}) ++ launchLocalization "m" ++ [.callback 1 {}]

/-- A stop of localization throws in its last steps, after a tick has read SENSOR_STARTING and
before it clears the error fields. -/
def staleClear : List Action :=
  localizedRest ++ requestStop ++ List.replicate 6 (.operation {}) ++
    [.call .sensorTimer, .handler {}, .handler {}, .handler {}, .call .sensorTimer,
      .handler readyEnv, .handler readyEnv, .operation { throws := some "mutex" }, .operation {},
      .operation {}, .handler readyEnv, .handler readyEnv, .handler readyEnv, .operation {}]

/-- The start fails in RELOCALIZING: the error is set and the map is unselected, and the state
stays. A stop of localization fails in its last steps, and a tick that has read SENSOR_STARTING
clears the error in ERROR. -/
theorem status_fields_differ :
    (∃ s, Reachable {} s ∧ s.Quiescent ∧ s.shared.currentState = .relocalizing ∧
      s.shared.errorCode = "LOCALIZATION_START_FAILED" ∧ s.shared.currentMap = "") ∧
    ∃ s, Reachable {} s ∧ s.Quiescent ∧ s.shared.currentState = .error ∧
      s.shared.errorCode = "" := by
  constructor
  · obtain ⟨s, hreach, hquiescent, htest⟩ := exists_of_quiescentReplay [0, 1] (storedMaps ["m"])
      (fun _ _ ↦ true) (fun _ _ _ ↦ trivial)
      (staleReturn ++ List.replicate 5 (.operation { failure := some "fork" }))
      (fun s ↦ decide (s.shared.currentState = .relocalizing) &&
        decide (s.shared.errorCode = "LOCALIZATION_START_FAILED") &&
        decide (s.shared.currentMap = "")) (by decide +kernel)
    simp only [Bool.and_eq_true, decide_eq_true_eq] at htest
    exact ⟨s, hreach, hquiescent, htest.1.1, htest.1.2, htest.2⟩
  · obtain ⟨s, hreach, hquiescent, htest⟩ := exists_of_quiescentReplay [0] (storedMaps ["m"])
      (fun _ _ ↦ true) (fun _ _ _ ↦ trivial)
      staleClear
      (fun s ↦ decide (s.shared.currentState = .error) && decide (s.shared.errorCode = ""))
      (by decide +kernel)
    simp only [Bool.and_eq_true, decide_eq_true_eq] at htest
    exact ⟨s, hreach, hquiescent, htest.1, htest.2⟩

end SlamSystemManager.Manager
