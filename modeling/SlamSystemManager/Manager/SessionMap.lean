import SlamSystemManager.Manager.Ownership
import SlamSystemManager.Manager.Phases

/-!
# The map of a session

In MAPPING, RELOCALIZING and LOCALIZED the selected map is the one the leader of the session was
started with. A start of localization that fails leaves its state by an exact test for
LOCALIZATION_STARTING, and a callback of an earlier session may have taken the state further by
then: this is the one way into a session without a map.
-/

open TransitionSystem

namespace SlamSystemManager.Manager

open MapManager

/-- The leader of the session a state stands for. -/
def session : SystemState → Option Leader
  | .mapping => some .mapping
  | .relocalizing | .localized => some .localization
  | _ => none

/-- A start of localization that fails finds neither RELOCALIZING nor LOCALIZED. -/
def failsBeforeSession (s : Sys) : Action → Prop
  | .operation env => ∀ map, s.operation = some (.startLocalization map .unselect) →
      env.throws = none → s.shared.currentState ≠ .relocalizing ∧ s.shared.currentState ≠ .localized
  | _ => True

namespace SessionMap

/-! ## Assertions -/

/-- No session is being entered, and the selected map is that of the session there is, if the
session is one of those considered. -/
structure InSession (covers : Leader → Prop) (s : Shared) : Prop where
  entered : s.currentState ≠ .localizationStarting
  map : ∀ leader, covers leader → session s.currentState = some leader →
    s.currentMap = (s.processes leader).mapName ∧ isValidMapName s.currentMap = true

def operation (covers : Leader → Prop) (s : Shared) : Option Operation → Prop
  | some (.startMapping map _ pc) =>
    match pc with
    | .waitService | .checkAlive | .started => (s.processes .mapping).mapName = map
    | _ => True
  | some (.startLocalization map pc) =>
    match pc with
    | .checkRunning | .checkFile | .startProcess => s.currentMap = map ∧ isValidMapName map = true
    | .poll _ | .pollAlive | .pollTopics | .started =>
      s.currentMap = map ∧ isValidMapName map = true ∧ (s.processes .localization).mapName = map
    | .stopTimedOut _ _ | .readExitCode | .failed _ | .unselect => True
    | _ => InSession covers s
  | some (.stopMapping .toWait) | some (.stopLocalization .toWait) | some (.fail _ _)
  | some .enterError => True
  | _ => InSession covers s

def handler (s : Shared) : Handler → Prop
  | .loadMap _ .acquire => True
  | .loadMap _ _ => s.currentState.isActiveSlamState = false
  | .startLocalization _ .checkMapping | .startLocalization _ .unselect => True
  | .startLocalization name .resetSession | .startLocalization name .resetQuality
  | .startLocalization name .transition => s.currentMap = name ∧ isValidMapName name = true
  | .startLocalization name _ => isValidMapName name = true
  | _ => True

/-- The operation under way, on its thread or about to be launched. -/
def underWay (s : Sys) : Option Operation :=
  match s.handler with
  | some (.launch launched _) => some launched
  | _ => s.operation

structure Agrees (covers : Leader → Prop) (s : Sys) : Prop where
  running : operation covers s.shared (underWay s)
  handler : ∀ h, s.handler = some h → handler s.shared h

/-! ## Stability -/

variable {covers : Leader → Prop}

/-- The states outside the sessions. -/
def Rest (state : SystemState) : Prop := session state = none ∧ state ≠ .localizationStarting

theorem InSession.of_rest {s : Shared} (h : Rest s.currentState) : InSession covers s :=
  ⟨h.2, by simp [h.1]⟩

theorem rest_of_idle {state : SystemState} (h : state.isIdle = true) : Rest state := by
  cases state <;> first | (cases h; done) | exact ⟨rfl, by simp⟩

theorem rest_of_inactive {state : SystemState} (h : state.isActiveSlamState = false) :
    Rest state := by
  cases state <;> first | (cases h; done) | exact ⟨rfl, by simp⟩

theorem rest_error : Rest .error := ⟨rfl, by simp⟩

structure Stable (s s' : Shared) : Prop where
  state : s'.currentState = s.currentState ∨ Rest s'.currentState ∨
    (s.currentState.isLocalizationState = true ∧ session s'.currentState = some .localization)
  map : s'.currentMap = s.currentMap
  mapName : ∀ leader, (s'.processes leader).mapName = (s.processes leader).mapName

theorem Stable.inSession {s s' : Shared} (h : Stable s s') (hs : InSession covers s) :
    InSession covers s' := by
  rcases h.state with hsame | hrest | ⟨hlocalization, hsession⟩
  · refine ⟨hsame ▸ hs.entered, fun leader hcovers hleader ↦ ?_⟩
    rw [h.map, h.mapName]
    exact hs.map leader hcovers (hsame ▸ hleader)
  · exact .of_rest hrest
  · have hbefore : session s.currentState = some .localization := by
      have := hs.entered
      cases hstate : s.currentState <;> rw [hstate] at hlocalization this <;>
        first | rfl | exact absurd rfl this | cases hlocalization
    refine ⟨fun hstarting ↦ ?_, fun leader hcovers hleader ↦ ?_⟩
    · rw [hstarting] at hsession
      cases hsession
    · rw [hsession] at hleader
      cases hleader
      rw [h.map, h.mapName]
      exact hs.map _ hcovers hbefore

theorem operation_stable {s s' : Shared} (h : Stable s s') (o : Option Operation)
    (ho : operation covers s o) : operation covers s' o := by
  have hsession : InSession covers s → InSession covers s' := h.inSession
  have hmap := h.map
  have hname := h.mapName
  unfold operation at ho ⊢
  split <;> (try split) <;> simp_all

theorem mapName_reap (s : Shared) (leader other : Leader) (exitCode : ℤ) :
    ((s.reap leader exitCode).processes other).mapName = (s.processes other).mapName := by
  by_cases hsame : other = leader
  · subst hsame
    simp [Shared.reap, Shared.setProcess]
  · simp [Shared.reap, Shared.setProcess, hsame]

theorem mapName_of_effect {s s' : Shared} (h : ProcessEffect none s s') (leader : Leader) :
    (s'.processes leader).mapName = (s.processes leader).mapName := by
  rcases h with hsame | ⟨_, _, hforks, -⟩ | ⟨reaped, exitCode, hreap⟩
  · rw [hsame]
  · cases hforks
  · rw [hreap]
    exact mapName_reap s reaped leader exitCode

theorem stable_of_stopStep {env : Env} {leader : Leader} {s s' : Shared} {stage : StopStage}
    {next : StopStage ⊕ StopResult} (h : stopStep env leader s stage = (s', next)) :
    Stable s s' := by
  rcases stopStep_cases h with rfl | ⟨-, rfl, -⟩
  · exact ⟨Or.inl rfl, rfl, fun _ ↦ rfl⟩
  · exact ⟨Or.inl rfl, rfl, fun other ↦ mapName_reap s leader other env.exitCode⟩

theorem stable_of_interference {s s' : Shared} (h : Interference s s') : Stable s s' := by
  refine ⟨?_, h.map, fun leader ↦ ?_⟩
  · rcases h.state with hsame | ⟨hcan, hafter⟩
    · exact Or.inl hsame
    · refine Or.inr (Or.inr ⟨SystemState.isLocalizationState_of_canTransition hcan ?_ ?_, ?_⟩) <;>
        rcases hafter with hafter | hafter <;>
          simp [hafter, SystemState.isLocalizationState, session]
  · rcases h.processes with hsame | ⟨reaped, exitCode, hreap⟩
    · rw [hsame]
    · rw [hreap]
      exact mapName_reap s reaped leader exitCode

/-- Outside the starts a session is all an operation needs. -/
def starts : Operation → Bool
  | .startMapping _ _ _ | .startLocalization _ _ => true
  | _ => false

theorem operation_of_inSession {s : Shared} {running : Operation} (hs : InSession covers s)
    (h : starts running = false) : operation covers s (some running) := by
  cases running with
  | startMapping | startLocalization => cases h
  | stopMapping pc => cases pc <;> first | exact hs | trivial
  | stopLocalization pc => cases pc <;> first | exact hs | trivial
  | saveMap | stopAfterFailure | recovery | finish => exact hs
  | fail | enterError => trivial

theorem starts_of_follows {running next : Operation} (h : running.Follows next)
    (hstarts : starts running = false) : starts next = false := by
  cases h <;> first | rfl | cases hstarts

/-! ## The operation thread -/

/-- What a step of the operation thread starts from. -/
structure Given (s : Shared) (running : Operation) : Prop where
  phase : Phase.operation running s.currentState = true
  mode : ModeExclusion.operation s (some running)
  selected : SelectedMap.operation s (some running)

theorem rest_of_mappingStarting {state : SystemState}
    (h : (state = .mappingStarting || state = .error) = true) : Rest state := by
  simp only [Bool.or_eq_true, decide_eq_true_eq] at h
  rcases h with rfl | rfl <;> exact ⟨rfl, by simp⟩

theorem startMapping_step (config : Config) (env : Env) {map : String} {created : Bool}
    {s : Shared} {pc : StartMapping} (hgiven : Given s (.startMapping map created pc))
    (h : operation covers s (some (.startMapping map created pc))) :
    operation covers (pc.step config env map created s).1
      (some (pc.step config env map created s).2) := by
  have hphase := hgiven.phase
  cases pc with
  | startProcess =>
    simp only [StartMapping.step]
    repeat' split
    · trivial
    · trivial
    · simp [operation, Shared.fork, Shared.setProcess]
  | started =>
    obtain ⟨-, hmap, hvalid⟩ := hgiven.selected
    simp only [StartMapping.step]
    by_cases hcan : s.currentState.canTransition .mapping = true
    · simp only [hcan, if_true]
      have hstate : (s.transitionTo .mapping).currentState = .mapping := by
        rw [currentState_transitionTo, if_pos hcan]
      refine ⟨by simp [hstate], fun leader _ hleader ↦ ?_⟩
      rw [hstate] at hleader
      cases hleader
      simp only [currentMap_transitionTo, processes_transitionTo, hmap]
      exact ⟨h.symm, hvalid⟩
    · simp only [hcan]
      trivial
  | stopTimedOut stage =>
    simp only [StartMapping.step]
    split <;> trivial
  | stopAborted stage =>
    simp only [StartMapping.step]
    split
    · trivial
    · rename_i hstop
      refine .of_rest ?_
      rw [Phase.state_stopStep hstop,
        show s.currentState = .error by simpa [Phase.operation] using hphase]
      exact rest_error
  | unselect =>
    simp only [StartMapping.step, errorOrFinish]
    repeat' split
    · trivial
    · trivial
    · exact .of_rest (rest_of_mappingStarting hphase)
  | cleanup shouldTransition =>
    simp only [StartMapping.step, errorOrFinish]
    split
    · trivial
    · exact .of_rest (rest_of_mappingStarting hphase)
  | waitService | checkAlive =>
    simp only [StartMapping.step]
    split
    · exact h
    · trivial
  | checkRunning | saveService | prepareConfig | readExitCode | failed =>
    simp only [StartMapping.step]
    repeat' split
    all_goals trivial

theorem localization_of_session {state : SystemState} {leader : Leader}
    (h : (state.isLocalizationState || state = .error) = true)
    (hleader : session state = some leader) : leader = .localization := by
  cases state <;> first | (cases hleader; done) | (cases hleader; first | rfl | cases h)

/-- A start of localization enters the session of its own map. -/
theorem inSession_relocalizing {s : Shared} {map : String}
    (hphase : (s.currentState.isLocalizationState || s.currentState = .error) = true)
    (hmap : s.currentMap = map) (hvalid : isValidMapName map = true)
    (hname : (s.processes .localization).mapName = map) :
    InSession covers (s.transitionTo .relocalizing) := by
  refine ⟨?_, fun leader _ hleader ↦ ?_⟩
  · rw [currentState_transitionTo]
    split
    · simp
    · rename_i hcan
      intro hstarting
      rw [hstarting] at hcan
      exact hcan rfl
  · have hleads : leader = .localization := by
      rw [currentState_transitionTo] at hleader
      split at hleader
      · cases hleader
        rfl
      · exact localization_of_session hphase hleader
    subst hleads
    simp only [currentMap_transitionTo, processes_transitionTo, hmap]
    exact ⟨hname.symm, hvalid⟩

/-- A start of localization that has failed leaves no session without a selected map. -/
theorem inSession_unselected {s : Shared}
    (hphase : (s.currentState.isLocalizationState || s.currentState = .error) = true)
    (hother : s.currentState ≠ .localizationStarting)
    (hentered : covers .localization →
      s.currentState ≠ .relocalizing ∧ s.currentState ≠ .localized) :
    InSession covers { s with currentMap := "" } := by
  refine ⟨hother, fun leader hcovers hleader ↦ ?_⟩
  have hleads := localization_of_session hphase hleader
  subst hleads
  obtain ⟨hrelocalizing, hlocalized⟩ := hentered hcovers
  have herror : s.currentState = .error := by
    simp_all [SystemState.isLocalizationState]
  rw [show ({ s with currentMap := "" } : Shared).currentState = s.currentState from rfl,
    herror] at hleader
  cases hleader

theorem startLocalization_step (config : Config) (env : Env) {map : String} {s : Shared}
    {pc : StartLocalization} (hgiven : Given s (.startLocalization map pc))
    (hentered : covers .localization → pc = .unselect →
      s.currentState ≠ .relocalizing ∧ s.currentState ≠ .localized)
    (h : operation covers s (some (.startLocalization map pc))) :
    operation covers (pc.step config env map s).1 (some (pc.step config env map s).2) := by
  cases pc with
  | checkRunning =>
    simp only [StartLocalization.step]
    split
    · trivial
    · exact h
  | checkFile =>
    simp only [StartLocalization.step]
    repeat' split
    · trivial
    · trivial
    · exact h
  | startProcess =>
    simp only [StartLocalization.step]
    repeat' split
    · trivial
    · trivial
    · exact ⟨h.1, h.2, by simp [Shared.fork, Shared.setProcess]⟩
  | poll =>
    simp only [StartLocalization.step]
    split
    · trivial
    · exact h
  | pollAlive =>
    simp only [StartLocalization.step]
    split
    · exact h
    · trivial
  | pollTopics =>
    simp only [StartLocalization.step]
    split <;> exact h
  | stopTimedOut missing stage =>
    simp only [StartLocalization.step]
    split <;> trivial
  | readExitCode | failed => trivial
  | unselect =>
    simp only [StartLocalization.step, errorOrFinish]
    split
    · trivial
    · rename_i hstarting
      exact inSession_unselected hgiven.phase (by simpa using hstarting)
        fun hcovers ↦ hentered hcovers rfl
  | started =>
    have hsession : InSession covers (s.transitionTo .relocalizing) :=
      inSession_relocalizing hgiven.phase h.1 h.2.1 h.2.2
    simp only [StartLocalization.step]
    repeat' split
    all_goals exact hsession
  | stopAborted stage =>
    simp only [StartLocalization.step]
    split
    all_goals
      rename_i hstop
      exact (stable_of_stopStep hstop).inSession h
  | publish pose attempt =>
    simp only [StartLocalization.step]
    split
    · exact h
    · rename_i hpublished
      obtain ⟨published, rfl⟩ := publishInitialPose_eq_ok hpublished
      exact ⟨h.entered, h.map⟩
  | loadLastPose | waitConsumer | window =>
    simp only [StartLocalization.step]
    repeat' split
    all_goals exact h

/-- A step that is no start's and does not clear the selected map keeps the session. -/
theorem inSession_effect {env : Env} {running next : Operation} {s s' : Shared}
    (heffect : OperationEffect env running s (s', next)) (hforks : running.forks = none)
    (hclears : running.clearsMap s.currentState = false)
    (htarget : ∀ target, running.target = some target → Rest target) (hs : InSession covers s) :
    InSession covers s' := by
  refine Stable.inSession ⟨?_, ?_, mapName_of_effect (hforks ▸ heffect.process)⟩ hs
  · rcases heffect.state with hsame | ⟨hmoves, -⟩
    · exact Or.inl hsame
    · exact Or.inr (Or.inl (htarget _ hmoves))
  · rcases heffect.map with hsame | ⟨hcleared, -⟩
    · exact hsame
    · simp_all

theorem rest_toWait {state : SystemState} {s : Shared} (hstate : s.currentState = state)
    (hleaves : state.canTransition .waitMode = true ∨ Rest state) :
    Rest (s.transitionTo .waitMode).currentState := by
  rw [currentState_transitionTo, hstate]
  split
  · exact ⟨rfl, by simp⟩
  · rename_i hcan
    exact hleaves.resolve_left hcan

theorem stopMapping_step (env : Env) {s : Shared} {pc : StopMapping}
    (hgiven : Given s (.stopMapping pc)) (h : operation covers s (some (.stopMapping pc))) :
    operation covers (pc.step env s).1 (some (pc.step env s).2) := by
  have hphase := hgiven.phase
  cases pc with
  | stop stage =>
    simp only [StopMapping.step]
    split
    · rename_i hstop
      exact (stable_of_stopStep hstop).inSession h
    · trivial
    · rename_i hstop
      exact (stable_of_stopStep hstop).inSession h
  | unselect =>
    simp only [StopMapping.step]
    split
    · trivial
    · rename_i hother
      have herror : s.currentState = .error := by simp_all [Phase.operation]
      refine .of_rest ?_
      rw [show ({ s with currentMap := "" } : Shared).currentState = s.currentState from rfl,
        herror]
      exact rest_error
  | toWait =>
    simp only [Phase.operation, Bool.or_eq_true, decide_eq_true_eq] at hphase
    refine .of_rest ?_
    rcases hphase with hstate | hstate
    · exact rest_toWait hstate (Or.inl rfl)
    · exact rest_toWait hstate (Or.inr rest_error)

theorem stopLocalization_step (config : Config) (env : Env) {s : Shared} {pc : StopLocalization}
    (hgiven : Given s (.stopLocalization pc))
    (h : operation covers s (some (.stopLocalization pc))) :
    operation covers (pc.step config env s).1 (some (pc.step config env s).2) := by
  have hphase := hgiven.phase
  cases pc with
  | unselect =>
    simp only [StopLocalization.step]
    split
    · trivial
    · rename_i hother
      have herror : s.currentState = .error := by simp_all [Phase.operation]
      refine .of_rest ?_
      rw [show ({ s with currentMap := "" } : Shared).currentState = s.currentState from rfl,
        herror]
      exact rest_error
  | toWait =>
    simp only [Phase.operation, Bool.or_eq_true, decide_eq_true_eq] at hphase
    refine InSession.of_rest ?_
    rcases hphase with hlocalization | hstate
    · refine rest_toWait rfl (Or.inl ?_)
      cases hstate : s.currentState <;> rw [hstate] at hlocalization <;>
        first | rfl | cases hlocalization
    · exact rest_toWait hstate (Or.inr rest_error)
  | save pc =>
    exact operation_of_inSession
      (inSession_effect (StopLocalization.effect config env s (.save pc)) rfl rfl
        (by simp [Operation.target]) h)
      (starts_of_follows (StopLocalization.follows config env s (.save pc)) rfl)
  | stop stage =>
    exact operation_of_inSession
      (inSession_effect (StopLocalization.effect config env s (.stop stage)) rfl rfl
        (by simp [Operation.target]) h)
      (starts_of_follows (StopLocalization.follows config env s (.stop stage)) rfl)
  | resetSession | resetQuality => exact ⟨h.entered, h.map⟩

theorem enterError_step (s : Shared) : InSession covers (s.transitionTo .error) := by
  refine .of_rest ?_
  rw [currentState_transitionTo]
  split
  · exact rest_error
  · rename_i hcan
    cases hstate : s.currentState <;> rw [hstate] at hcan <;>
      first | exact absurd rfl hcan | exact ⟨rfl, by simp⟩

theorem operation_step (config : Config) (env : Env) {s : Sys} {running : Operation}
    (hgiven : Given s.shared running) (hrunning : s.operation = some running)
    (hok : covers .localization → failsBeforeSession s (.operation env))
    (h : operation covers s.shared (some running)) :
    operation covers (running.step config env s.shared).1 (running.step config env s.shared).2 := by
  refine running.step_rule config env s.shared (fun _ _ ↦ trivial) (fun hfinish ↦ ?_)
    fun s' next hrun hthrows hcontinues ↦ ?_
  · subst hfinish
    exact ⟨h.entered, h.map⟩
  · cases running with
    | startMapping map created pc =>
      cases hrun
      exact startMapping_step config env hgiven h
    | startLocalization map pc =>
      cases hrun
      refine startLocalization_step config env hgiven (fun hcovers hpc ↦ ?_) h
      subst hpc
      exact hok hcovers map hrunning (hthrows rfl)
    | stopMapping pc =>
      cases hrun
      exact stopMapping_step env hgiven h
    | stopLocalization pc =>
      cases hrun
      exact stopLocalization_step config env hgiven h
    | saveMap map pc =>
      refine operation_of_inSession (inSession_effect hcontinues.effect rfl rfl ?_ h)
        (starts_of_follows hcontinues.follows rfl)
      rintro target htarget
      cases pc <;> cases htarget
      exact ⟨rfl, by simp⟩
    | stopAfterFailure pc =>
      exact operation_of_inSession
        (inSession_effect hcontinues.effect rfl rfl (by simp [Operation.target]) h)
        (starts_of_follows hcontinues.follows rfl)
    | recovery pc =>
      refine operation_of_inSession (.of_rest ?_) (starts_of_follows hcontinues.follows rfl)
      have hstate : s.shared.currentState = .recovering := by
        simpa [Phase.operation] using hgiven.phase
      rcases hcontinues.effect.state with hsame | ⟨htarget, -⟩
      · rw [hsame, hstate]
        exact ⟨rfl, by simp⟩
      · cases pc with
        | resume target =>
          cases htarget
          exact rest_of_idle hgiven.mode.2
        | _ => cases htarget
    | fail code message =>
      cases hrun
      trivial
    | enterError =>
      cases hrun
      exact enterError_step s.shared
    | finish => cases hrun

/-! ## Handlers -/

theorem underWay_of_idle {s : Sys} (h : s.handlerHolds = false) : underWay s = s.operation := by
  unfold underWay
  split
  · rename_i launched reply hlaunch
    simp [Sys.handlerHolds, hlaunch, Handler.holdsToken] at h
  · rfl

theorem underWay_of_ne {s : Sys} (h : ∀ launched reply, s.handler ≠ some (.launch launched reply)) :
    underWay s = s.operation := by
  unfold underWay
  split
  · rename_i launched reply hlaunch
    exact absurd hlaunch (h launched reply)
  · rfl

/-- The states entered by the handlers are no sessions. -/
theorem rest_of_target {h : Handler} {target : SystemState} (htarget : h.target = some target)
    (hstarts : ∀ name, h ≠ .startLocalization name .transition) : Rest target := by
  unfold Handler.target at htarget
  split at htarget
  case h_4 name => exact absurd rfl (hstarts name)
  all_goals
    cases htarget
    try exact ⟨rfl, by simp⟩

/-- Where a handler selects a map there is no session. -/
theorem rest_of_mapWritten {s : Shared} {h : Handler} {name : String}
    (hwritten : h.mapWritten = some name) (hs : handler s h)
    (hphase : Phase.handler h s.currentState = true) : Rest s.currentState := by
  unfold Handler.mapWritten at hwritten
  split at hwritten
  case h_1 => exact rest_of_inactive hs
  case h_6 => cases hwritten
  all_goals exact rest_of_idle hphase

/-- A step of a handler keeps the session, unless it enters LOCALIZATION_STARTING. -/
theorem inSession_handler (config : Config) (env : Env) {s : Shared} {h : Handler}
    (hassertion : handler s h) (hphase : Phase.handler h s.currentState = true)
    (hstarts : ∀ name, h ≠ .startLocalization name .transition) (hs : InSession covers s) :
    InSession covers (h.step config env s).1 := by
  have heffect := h.effect config env s
  have hstate : (h.step config env s).1.currentState = s.currentState ∨
      Rest (h.step config env s).1.currentState := by
    rcases heffect.state with hsame | ⟨htarget, -⟩
    · exact Or.inl hsame
    · exact Or.inr (rest_of_target htarget hstarts)
  rcases heffect.map with hsame | hwritten
  · refine Stable.inSession ⟨?_, hsame, fun leader ↦ by rw [heffect.processes]⟩ hs
    exact hstate.imp_right Or.inl
  · have hrest := rest_of_mapWritten hwritten hassertion hphase
    refine .of_rest ?_
    rcases hstate with hsame | hafter
    · rwa [hsame]
    · exact hafter

/-- A handler that does not own the token moves nothing an operation rests on. -/
theorem stable_of_handler (config : Config) (env : Env) {s : Shared} {h : Handler}
    (hidle : h.holdsToken = false) : Stable s (h.step config env s).1 := by
  have heffect := h.effect config env s
  refine ⟨?_, ?_, fun leader ↦ by rw [heffect.processes]⟩
  · rcases heffect.state with hsame | ⟨htarget, -⟩
    · exact Or.inl hsame
    · refine Or.inr (Or.inl (rest_of_target htarget fun name hname ↦ ?_))
      rw [hname] at hidle
      cases hidle
  · rcases heffect.map with hsame | hwritten
    · exact hsame
    · have := Handler.holdsToken_of_mapWritten hwritten
      simp_all

theorem handler_continues (config : Config) (env : Env) {s s' : Shared} {h next : Handler}
    (hs : handler s h) (hstep : h.step config env s = (s', .next next)) : handler s' next := by
  have hfollows := Handler.follows_of_step hstep
  cases hfollows with
  | loadMap name pc pc' =>
    cases pc <;> simp only [Handler.step, LoadMap.step] at hstep
    · split at hstep <;> cases hstep
      rename_i hfree
      simp_all [handler]
    · (repeat' split at hstep) <;> cases hstep
      exact hs
    · cases hstep
  | startLocalization name pc pc' =>
    cases pc <;> simp only [Handler.step, StartLocalizationRequest.step, acquireForStart] at hstep
    case checkMapping =>
      split_ifs at hstep with hvalid hrunning
      all_goals cases hstep
      simpa [handler] using hvalid
    case saveService | checkLocalization | acquire =>
      split_ifs at hstep <;> cases hstep
      exact hs
    case load =>
      (repeat' split at hstep) <;> cases hstep
      exact hs
    case select =>
      cases hstep
      exact ⟨rfl, hs⟩
    case resetSession | resetQuality =>
      cases hstep
      exact hs
    case transition =>
      split at hstep <;> cases hstep
      trivial
    case unselect => cases hstep
  | _ => trivial

/-- Without the token nothing is asserted about the shared state. -/
theorem handler_of_idle {s s' : Shared} {h : Handler} (hidle : h.holdsToken = false)
    (hs : handler s h) : handler s' h := by
  cases h with
  | loadMap name pc =>
    cases pc with
    | acquire => trivial
    | load | select => cases hidle
  | startLocalization name pc =>
    cases pc with
    | resetSession | resetQuality | transition => cases hidle
    | _ => exact hs
  | _ => trivial

theorem handler_interference {s s' : Shared} (h : Interference s s') (hd : Handler)
    (hs : handler s hd) : handler s' hd := by
  have hmap := h.map
  cases hd with
  | loadMap name pc =>
    have hinactive (hbefore : s.currentState.isActiveSlamState = false) :
        s'.currentState.isActiveSlamState = false := by
      rcases Phase.drift_of_interference h with hsame | ⟨hlocalization, -⟩
      · rwa [hsame]
      · simp [SystemState.isActiveSlamState, hlocalization] at hbefore
    cases pc with
    | acquire => trivial
    | load => exact hinactive hs
    | select path => exact hinactive hs
  | startLocalization name pc =>
    cases pc with
    | resetSession | resetQuality | transition => exact ⟨hmap.trans hs.1, hs.2⟩
    | _ => exact hs
  | _ => trivial

/-! ## Steps of the system -/

/-- What a step of a handler makes of the session when no operation runs. -/
theorem inSession_next {config : Config} (env : Env) {s : Sys} {h : Handler}
    (hreach : Reachable config s) (hagrees : Agrees covers s) (hhandler : s.handler = some h)
    (hstarts : ∀ name, h ≠ .startLocalization name .transition)
    (hlaunch : ∀ launched reply, h ≠ .launch launched reply) (hended : s.operation = none) :
    InSession covers (h.step config env s.shared).1 := by
  have hrunning := hagrees.running
  rw [underWay_of_ne (by simpa [hhandler] using hlaunch), hended] at hrunning
  exact inSession_handler config env (hagrees.handler h hhandler)
    (hreach.phase.handler h hhandler) hstarts hrunning

theorem operation_handler {config : Config} (env : Env) {s : Sys} {h : Handler}
    (hreach : Reachable config s) (hagrees : Agrees covers s) (hhandler : s.handler = some h)
    (hstarts : ∀ name, h ≠ .startLocalization name .transition)
    (hlaunch : ∀ launched reply, h ≠ .launch launched reply) :
    operation covers (h.step config env s.shared).1 s.operation := by
  cases hidle : h.holdsToken with
  | false =>
    have hrunning := hagrees.running
    rw [underWay_of_ne (by simpa [hhandler] using hlaunch)] at hrunning
    exact operation_stable (stable_of_handler config env hidle) _ hrunning
  | true =>
    have hended := hreach.exclusive.alone (by simp [Sys.handlerHolds, hhandler, hidle])
    rw [hended]
    exact inSession_next env hreach hagrees hhandler hstarts hlaunch hended

theorem operation_launch {config : Config} {env : Env} {s : Sys} {h : Handler} {shared : Shared}
    {launched : Operation} {reply : Option Reply} (hreach : Reachable config s)
    (hagrees : Agrees covers s) (hhandler : s.handler = some h)
    (hstep : h.step config env s.shared = (shared, .next (.launch launched reply)))
    (hstarts : ∀ name, h ≠ .startLocalization name .transition) :
    operation covers shared (some launched) := by
  have hended : s.operation = none := by
    rcases (Handler.effect_of_step hstep).token with ⟨hholds, -⟩ | ⟨-, -, hfree, -⟩
    · refine hreach.exclusive.alone ?_
      rw [Sys.handlerHolds, hhandler, Option.any_some, ← hholds]
      rfl
    · exact (hreach.exclusive.free hfree).2
  have hfollows := Handler.follows_of_step hstep
  have hsession := inSession_next env hreach hagrees hhandler hstarts
    (fun _ _ hsame ↦ by subst hsame; cases hfollows) hended
  rw [hstep] at hsession
  cases hfollows with
  | launchStartMapping => trivial
  | launchStartLocalization name => exact absurd rfl (hstarts name)
  | launchStopMapping | launchSaveMap | launchStopLocalization | launchStopAfterFailure
  | launchRecovery => exact operation_of_inSession hsession rfl

/-- A handler that ends without a launch. -/
theorem operation_ends {config : Config} {env : Env} {s : Sys} {h : Handler} {shared : Shared}
    {next : HandlerNext} (hreach : Reachable config s) (hagrees : Agrees covers s)
    (hhandler : s.handler = some h) (hstep : h.step config env s.shared = (shared, next))
    (hends : ∀ other, next ≠ .next other)
    (hlaunched : ∀ other reply, next ≠ .launched other reply) :
    operation covers shared s.operation := by
  have hkept := operation_handler env hreach hagrees hhandler (fun name hname ↦ ?_)
    fun launched reply hlaunch ↦ ?_
  · rwa [hstep] at hkept
  · subst hname
    simp only [Handler.step, StartLocalizationRequest.step, Prod.mk.injEq] at hstep
    split at hstep <;> exact hends _ hstep.2.symm
  · subst hlaunch
    cases hstep
    exact hlaunched _ _ rfl

/-- The last step of a request to start localization enters LOCALIZATION_STARTING, or it goes on to
give the map back. -/
theorem underWay_transition {config : Config} {env : Env} {s s' : Sys} {name : String}
    {next : Handler} (hagrees : Agrees covers s)
    (hhandler : s.handler = some (.startLocalization name .transition))
    (hr : Handler.step config env s.shared (.startLocalization name .transition) =
      (s'.shared, .next next))
    (hafter : s'.handler = some next) (hsame : s'.operation = s.operation) :
    operation covers s'.shared (underWay s') := by
  have hassertion := hagrees.handler _ hhandler
  have hrunning := hagrees.running
  rw [underWay_of_ne (by simp [hhandler])] at hrunning
  simp only [Handler.step, StartLocalizationRequest.step, Prod.mk.injEq] at hr
  obtain ⟨hshared, hgoes⟩ := hr
  split at hgoes <;> cases hgoes <;> rw [underWay, hafter, ← hshared]
  · exact ⟨by simpa using hassertion.1, hassertion.2⟩
  · rename_i hcan
    simp only [Shared.transitionTo, hcan, hsame]
    exact hrunning

theorem underWay_next {config : Config} {env : Env} {s s' : Sys} {h next : Handler}
    (hreach : Reachable config s) (hagrees : Agrees covers s) (hhandler : s.handler = some h)
    (hr : h.step config env s.shared = (s'.shared, .next next)) (hafter : s'.handler = some next)
    (hsame : s'.operation = s.operation) : operation covers s'.shared (underWay s') := by
  have hlaunch : ∀ launched reply, h ≠ .launch launched reply := by
    rintro launched reply rfl
    cases (Prod.mk.inj hr).2
  by_cases hstarts : ∃ name, h = .startLocalization name .transition
  · obtain ⟨name, rfl⟩ := hstarts
    exact underWay_transition hagrees hhandler hr hafter hsame
  · push Not at hstarts
    have hkept := operation_handler env hreach hagrees hhandler hstarts hlaunch
    rw [hr] at hkept
    rw [underWay, hafter, hsame]
    cases next with
    | launch launched reply => exact operation_launch hreach hagrees hhandler hr hstarts
    | _ => exact hkept

theorem Agrees.handler_step {config : Config} {env : Env} {s s' : Sys} (h : Agrees covers s)
    (hreach : Reachable config s) (hstep : s.step config (.handler env) = some s') :
    Agrees covers s' := by
  obtain ⟨hd, r, hhandler, hr, hmove⟩ := Sys.handlerMove_of_step hstep
  cases hmove with
  | next hafter hsame =>
    refine ⟨underWay_next hreach h hhandler hr hafter hsame, fun other hother ↦ ?_⟩
    cases hafter.symm.trans hother
    exact handler_continues config env (h.handler hd hhandler) hr
  | ended hends hlaunched hafter hsame =>
    refine ⟨?_, by simp [hafter]⟩
    rw [underWay_of_ne (by simp [hafter]), hsame]
    exact operation_ends hreach h hhandler hr hends hlaunched
  | launched hlaunch _ hafter hoperation =>
    have hrunning := h.running
    subst hlaunch
    obtain ⟨hshared, -⟩ := Prod.mk.inj hr
    refine ⟨?_, by simp [hafter]⟩
    rw [underWay_of_ne (by simp [hafter]), hoperation, ← hshared]
    rwa [underWay, hhandler] at hrunning

theorem Agrees.operation_step {config : Config} {env : Env} {s s' : Sys} (h : Agrees covers s)
    (hreach : Reachable config s)
    (hok : covers .localization → failsBeforeSession s (.operation env))
    (hstep : s.step config (.operation env) = some s') : Agrees covers s' := by
  obtain ⟨current, hcurrent, -⟩ := Option.map_eq_some_iff.mp hstep
  obtain ⟨hnext, hsame⟩ := Sys.step_operation hcurrent hstep
  have hidle := hreach.exclusive.of_operation hcurrent
  have hassertion := h.running
  rw [underWay_of_idle hidle, hcurrent] at hassertion
  have hgiven : Given s.shared current := by
    have hmode := hreach.modeExclusion.operation
    have hselected := hreach.selectedMap.operation
    rw [hcurrent] at hmode hselected
    exact ⟨hreach.phase.operation current hcurrent, hmode.2, hselected⟩
  have hafter := SessionMap.operation_step config env hgiven hcurrent hok hassertion
  rw [hnext] at hafter
  refine ⟨?_, fun hd hhandler ↦ ?_⟩
  · rwa [underWay_of_idle (by rwa [Sys.handlerHolds, hsame])]
  · rw [hsame] at hhandler
    simp only [Sys.handlerHolds, hhandler, Option.any_some] at hidle
    exact handler_of_idle hidle (h.handler hd hhandler)

theorem Agrees.step {config : Config} {s s' : Sys} {a : Action} (h : Agrees covers s)
    (hreach : Reachable config s) (hok : covers .localization → failsBeforeSession s a)
    (hstep : s.step config a = some s') : Agrees covers s' := by
  cases a with
  | handler env => exact h.handler_step hreach hstep
  | operation env => exact h.operation_step hreach hok hstep
  | call request =>
    obtain ⟨hnone, rfl⟩ := Sys.call_of_step hstep
    have hrunning := h.running
    rw [underWay_of_ne (by simp [hnone])] at hrunning
    refine ⟨?_, fun hd hhandler ↦ ?_⟩
    · rw [underWay_of_ne (by cases request <;> simp [Request.handler])]
      exact hrunning
    · cases hhandler
      cases request <;> trivial
  | deliver | callback | observe | exit | writeMap | takeSave | writeSave =>
    have hother := bystander_of_step hstep (by simp) (by simp) (by simp)
    refine ⟨?_, fun hd hhandler ↦ ?_⟩
    · rw [underWay, hother.handler, hother.operation]
      exact operation_stable (stable_of_interference hother.interference) _ h.running
    · exact handler_interference hother.interference hd
        (h.handler hd (hother.handler ▸ hhandler))

theorem agrees_of_initial {s : Sys} (hinit : s.Initial) : Agrees covers s := by
  refine ⟨?_, by simp [hinit.handler]⟩
  rw [underWay_of_ne (by simp [hinit.handler]), hinit.operation]
  refine .of_rest ?_
  rcases hinit.state with hstate | ⟨hstate, -⟩ <;> rw [hstate] <;> exact ⟨rfl, by simp⟩

end SessionMap

theorem sessionMap_of_reaches {config : Config} {s : Sys}
    (h : Reaches (Sys.step config) failsBeforeSession Sys.Initial s) :
    SessionMap.Agrees (fun _ ↦ True) s :=
  Reaches.invariant_of (fun _ hs ↦ hs.mono fun _ _ _ ↦ trivial)
    (fun _ hinit ↦ SessionMap.agrees_of_initial hinit)
    (fun _ _ _ (hs : Reachable config _) hagrees hok hstep ↦ hagrees.step hs (fun _ ↦ hok) hstep) h

/-- Sessions of mapping have their map in every run. -/
theorem Reachable.mappingSession {config : Config} {s : Sys} (h : Reachable config s) :
    SessionMap.Agrees (· = .mapping) s :=
  Reaches.invariant_of (fun _ hs ↦ hs) (fun _ hinit ↦ SessionMap.agrees_of_initial hinit)
    (fun _ _ _ (hs : Reachable config _) hagrees _ hstep ↦ hagrees.step hs nofun hstep) h

end SlamSystemManager.Manager
