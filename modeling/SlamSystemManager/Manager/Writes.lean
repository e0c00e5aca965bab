import SlamSystemManager.Manager.Effects

/-!
# The fields a section writes

A section is a sequence of writes to members of the manager and of its components. The footprint
of a section says which of the error fields, the sensor fields, the map store and the slot of the
save worker it may write; what a view shows that none of the writes in the footprint can change is
the same after the section.
-/

open TransitionSystem

namespace SlamSystemManager.Manager

/-! ## Writes -/

inductive Write where
  | state (state : SystemState)
  | selection (map : String)
  | errors (code message : String)
  | sensors (status : SensorStatus) (startedAt : Option Time)
  | token (held : Bool)
  | processes (processes : Leader → Process)
  | maps (maps : MapStore)
  | session (now : Time)
  | sessionMap (map : String)
  | pendingSave (request : SaveRequest)
  | slot (pending taken : Option SaveRequest)
  | published (odometry poses : List StampedPose)
  /-- The members of the adapter apart from the slot and what it has published. -/
  | adapter (written : RelocalizationAdapter)
  | quality (quality : Quality.Monitor)
  | initialPoses (poses : List StampedPose)

def Write.apply (s : Shared) : Write → Shared
  | .state next => { s with currentState := next }
  | .selection map => { s with currentMap := map }
  | .errors code message => { s with errorCode := code, errorMessage := message }
  | .sensors status startedAt =>
    { s with sensorStatus := status, sensorFailureStartedAt := startedAt }
  | .token held => { s with operationInProgress := held }
  | .processes table => { s with processes := table }
  | .maps store => { s with maps := store }
  | .session now => s.resetSession now
  | .sessionMap map => { s with sessionMap := map }
  | .pendingSave request => { s with adapter := { s.adapter with pendingSave := some request } }
  | .slot pending taken =>
    { s with adapter := { s.adapter with pendingSave := pending, saving := taken } }
  | .published odometry poses =>
    { s with
      adapter := { s.adapter with publishedOdometry := odometry, publishedPoses := poses } }
  | .adapter written =>
    { s with
      adapter :=
        { written with
          pendingSave := s.adapter.pendingSave
          saving := s.adapter.saving
          publishedOdometry := s.adapter.publishedOdometry
          publishedPoses := s.adapter.publishedPoses } }
  | .quality monitor => { s with quality := monitor }
  | .initialPoses poses => { s with publishedInitialPoses := poses }

/-- The states after the writes that a footprint admits. -/
abbrev Writes (may : Write → Prop) : Shared → Shared → Prop :=
  Steps (fun s write ↦ some (write.apply s)) fun _ write ↦ may write

section Writes

variable {may : Write → Prop} {s s' : Shared}

theorem Writes.one (write : Write) (h : may write) : Writes may s (write.apply s) :=
  Steps.refl.tail h rfl

theorem Writes.and (h : Writes may s s') (write : Write) (hmay : may write) :
    Writes may s (write.apply s') :=
  h.tail hmay rfl

/-- What no write of the footprint changes is the same after the section. -/
theorem Writes.keeps {β : Type*} (view : Shared → β) (h : Writes may s s')
    (hview : ∀ write, may write → ∀ s, view (write.apply s) = view s) : view s' = view s := by
  apply h.invariant (P := fun later ↦ view later = view s) ?_ rfl
  intro before write after hbefore hmay hstep
  cases hstep
  calc
    view (write.apply before) = view before := hview write hmay before
    _ = view s := hbefore

theorem writes_transitionTo (next : SystemState) (h : may (.state next)) :
    Writes may s (s.transitionTo next) := by
  unfold Shared.transitionTo
  split
  · exact .one (.state next) h
  · exact .refl

theorem writes_stopStep {env : Env} {leader : Leader} {stage : StopStage}
    {next : StopStage ⊕ StopResult} (h : stopStep env leader s stage = (s', next))
    (hmay : ∀ processes, may (.processes processes)) : Writes may s s' := by
  rcases stopStep_cases h with rfl | ⟨-, rfl, -⟩
  · exact .refl
  · exact .one (.processes _) (hmay _)

theorem writes_saveLastPoseStep (config : Config) (pc : SaveLastPose)
    (h : ∀ request, pc.enqueued = some request → may (.pendingSave request)) :
    Writes may s (saveLastPoseStep config s pc).1 := by
  cases pc with
  | enqueue request => exact .one (.pendingSave request) (h request rfl)
  | poseValid => exact .refl
  | readMap | checkPath | capture =>
    simp only [saveLastPoseStep]
    repeat' split
    all_goals exact .refl

theorem writes_publishInitialPose {config : Config} {env : Env} {pose : StampedPose}
    (h : publishInitialPose config env s pose = .ok s')
    (hmay : ∀ poses, may (.initialPoses poses)) : Writes may s s' := by
  obtain ⟨published, rfl⟩ := publishInitialPose_eq_ok h
  exact .one (.initialPoses published) (hmay published)

end Writes

/-! ## The operation thread -/

/-- Whether a step of the operation thread writes the error fields. -/
def Operation.writesErrors : Operation → Bool
  | .startMapping _ _ (.failed _) | .startLocalization _ (.failed _) | .saveMap _ (.report _ _ _)
  | .recovery (.clear _) | .fail _ _ => true
  | _ => false

/-- Whether a step of the operation thread writes the sensor fields. -/
def Operation.readsSensors : Operation → Bool
  | .recovery (.clear _) => true
  | _ => false

/-- Whether a step of the operation thread writes the map store. -/
def Operation.writesMaps : Operation → Bool
  | .startMapping _ _ (.cleanup _) | .saveMap _ .removeOutput | .saveMap _ .markSaved => true
  | _ => false

/-- The footprint of a step of the operation thread. -/
def Operation.mayWrite (operation : Operation) : Write → Prop
  | .errors _ _ => operation.writesErrors = true
  | .sensors _ _ => operation.readsSensors = true
  | .maps _ => operation.writesMaps = true
  | .pendingSave request => operation.enqueued = some request
  | .sessionMap _ | .slot _ _ | .published _ _ | .adapter _ => False
  | _ => True

theorem StartMapping.writes (config : Config) (env : Env) (map : String) (created : Bool)
    (s : Shared) (pc : StartMapping) :
    Writes (Operation.startMapping map created pc).mayWrite s
      (pc.step config env map created s).1 := by
  cases pc with
  | startProcess =>
    simp only [StartMapping.step]
    repeat' split
    all_goals first | exact .refl | exact .one (.processes _) trivial
  | stopTimedOut stage | stopAborted stage =>
    simp only [StartMapping.step]
    split <;> exact writes_stopStep ‹_› fun _ ↦ trivial
  | failed error => exact .one (.errors _ _) rfl
  | unselect => exact .one (.selection "") trivial
  | cleanup shouldTransition => exact .one (.maps _) rfl
  | started => exact writes_transitionTo .mapping trivial
  | prepareConfig =>
    simp only [StartMapping.step]
    split <;> exact .refl
  | checkRunning | saveService | waitService | checkAlive | readExitCode => exact .refl

theorem StartLocalization.writes (config : Config) (env : Env) (map : String) (s : Shared)
    (pc : StartLocalization) :
    Writes (Operation.startLocalization map pc).mayWrite s (pc.step config env map s).1 := by
  cases pc with
  | startProcess =>
    simp only [StartLocalization.step]
    repeat' split
    all_goals first | exact .refl | exact .one (.processes _) trivial
  | stopTimedOut missing stage | stopAborted stage =>
    simp only [StartLocalization.step]
    split <;> exact writes_stopStep ‹_› fun _ ↦ trivial
  | failed error => exact .one (.errors _ _) rfl
  | unselect => exact .one (.selection "") trivial
  | started => exact writes_transitionTo .relocalizing trivial
  | publish pose attempt =>
    simp only [StartLocalization.step]
    split
    · exact .refl
    · exact writes_publishInitialPose ‹_› fun _ ↦ trivial
  | checkFile | loadLastPose =>
    simp only [StartLocalization.step]
    split <;> exact .refl
  | checkRunning | poll | pollAlive | pollTopics | readExitCode | waitConsumer | window =>
    exact .refl

theorem StopMapping.writes (env : Env) (s : Shared) (pc : StopMapping) :
    Writes (Operation.stopMapping pc).mayWrite s (pc.step env s).1 := by
  cases pc with
  | stop stage =>
    simp only [StopMapping.step]
    split <;> exact writes_stopStep ‹_› fun _ ↦ trivial
  | unselect => exact .one (.selection "") trivial
  | toWait => exact writes_transitionTo .waitMode trivial

theorem SaveMap.writes (config : Config) (env : Env) (map : String) (s : Shared) (pc : SaveMap) :
    Writes (Operation.saveMap map pc).mayWrite s (pc.step config env map s).1 := by
  cases pc with
  | removeOutput =>
    simp only [SaveMap.step]
    split
    · exact .refl
    · exact .one (.maps _) rfl
  | markSaved =>
    simp only [SaveMap.step]
    split <;> exact .one (.maps _) rfl
  | stop saved saveError stage =>
    simp only [SaveMap.step]
    split <;> exact writes_stopStep ‹_› fun _ ↦ trivial
  | report saved saveError stopped =>
    simp only [SaveMap.step]
    repeat' split
    all_goals first | exact .refl | exact .one (.errors _ _) rfl
  | toWait => exact writes_transitionTo .waitMode trivial
  | request | checkOutput =>
    simp only [SaveMap.step]
    repeat' split
    all_goals exact .refl
  | checkRunning | serviceReady | checkState => exact .refl

theorem StopLocalization.writes (config : Config) (env : Env) (s : Shared)
    (pc : StopLocalization) :
    Writes (Operation.stopLocalization pc).mayWrite s (pc.step config env s).1 := by
  cases pc with
  | save pc =>
    have hsave : Writes (Operation.stopLocalization (.save pc)).mayWrite s
        (saveLastPoseStep config s pc).1 :=
      writes_saveLastPoseStep config pc fun _ henqueued ↦ henqueued
    simp only [StopLocalization.step]
    split <;> rename_i heq <;> rw [heq] at hsave <;> exact hsave
  | stop stage =>
    simp only [StopLocalization.step]
    split <;> exact writes_stopStep ‹_› fun _ ↦ trivial
  | unselect => exact .one (.selection "") trivial
  | toWait => exact writes_transitionTo .waitMode trivial
  | resetSession => exact .one (.session env.now) trivial
  | resetQuality => exact .one (.quality _) trivial

theorem StopAfterFailure.writes (env : Env) (s : Shared) (pc : StopAfterFailure) :
    Writes (Operation.stopAfterFailure pc).mayWrite s (pc.step env s).1 := by
  cases pc with
  | stopMapping localizationRunning stage =>
    simp only [StopAfterFailure.step]
    split <;> exact writes_stopStep ‹_› fun _ ↦ trivial
  | stopLocalization stage =>
    simp only [StopAfterFailure.step]
    split <;> exact writes_stopStep ‹_› fun _ ↦ trivial

theorem Recovery.writes (env : Env) (s : Shared) (pc : Recovery) :
    Writes (Operation.recovery pc).mayWrite s (pc.step env s).1 := by
  cases pc with
  | stop leader errors stage =>
    simp only [Recovery.step]
    split <;> exact writes_stopStep ‹_› fun _ ↦ trivial
  | resetSession => exact .one (.session env.now) trivial
  | resetQuality => exact .one (.quality _) trivial
  | clear status =>
    simp only [Recovery.step]
    split
    · exact .refl
    · have hselection : Writes (Operation.recovery (.clear status)).mayWrite s
          { s with currentMap := "" } := .one (.selection "") trivial
      have hsensors := hselection.and (.sensors status none) rfl
      exact hsensors.and (.errors "" "") rfl
  | resume target => exact writes_transitionTo target trivial
  | checkRunning | recheck | readSensors => exact .refl

theorem Operation.writes_run (config : Config) (env : Env) (s : Shared) (operation : Operation) :
    Writes operation.mayWrite s (operation.run config env s).1 := by
  cases operation with
  | startMapping map created pc => exact StartMapping.writes config env map created s pc
  | startLocalization map pc => exact StartLocalization.writes config env map s pc
  | stopMapping pc => exact StopMapping.writes env s pc
  | saveMap map pc => exact SaveMap.writes config env map s pc
  | stopLocalization pc => exact StopLocalization.writes config env s pc
  | stopAfterFailure pc => exact StopAfterFailure.writes env s pc
  | recovery pc => exact Recovery.writes env s pc
  | fail code message => exact .one (.errors code message) rfl
  | enterError => exact writes_transitionTo .error trivial
  | finish => exact .one (.token false) trivial

theorem Operation.writes (config : Config) (env : Env) (s : Shared) (operation : Operation) :
    Writes operation.mayWrite s (operation.step config env s).1 := by
  rcases operation.step_cases config env s with ⟨hrun, -⟩ | ⟨-, -, code, what, hthrow⟩
  · rw [hrun]
    exact operation.writes_run config env s
  · rw [hthrow]
    exact .refl

/-! ## Handlers -/

/-- Whether a step of a handler writes the error fields. -/
def Handler.writesErrors : Handler → Bool
  | .startMapping _ (.select _) | .startLocalization _ .select | .sensorTick .clearError
  | .sensorTick (.reportFailure _) | .sensorTick (.reportWaiting _)
  | .processTick (.report _ _) => true
  | _ => false

/-- Whether a step of a handler writes the sensor fields. -/
def Handler.readsSensors : Handler → Bool
  | .sensorTick (.snapshot _ _) => true
  | _ => false

/-- Whether a step of a handler writes the map store. -/
def Handler.writesMaps : Handler → Bool
  | .createMap _ .create | .deleteMap _ .remove | .startMapping _ .create
  | .startMapping _ .cleanup => true
  | _ => false

/-- The footprint of a step of a handler. -/
def Handler.mayWrite (handler : Handler) : Write → Prop
  | .errors _ _ => handler.writesErrors = true
  | .sensors _ _ => handler.readsSensors = true
  | .maps _ => handler.writesMaps = true
  | .pendingSave request => handler.enqueued = some request
  | .sessionMap map => handler.sessionWritten = some map
  | .processes _ | .slot _ _ | .published _ _ | .adapter _ => False
  | _ => True

theorem CreateMap.writes (config : Config) (env : Env) (name : String) (s : Shared)
    (pc : CreateMap) :
    Writes (Handler.createMap name pc).mayWrite s (pc.step config env name s).1 := by
  cases pc with
  | acquire =>
    simp only [CreateMap.step]
    split
    · exact .refl
    · exact .one (.token true) trivial
  | create =>
    simp only [CreateMap.step]
    split <;> exact .one (.maps _) rfl

theorem DeleteMap.writes (env : Env) (name : String) (s : Shared) (pc : DeleteMap) :
    Writes (Handler.deleteMap name pc).mayWrite s (pc.step env name s).1 := by
  cases pc with
  | acquire =>
    simp only [DeleteMap.step]
    repeat' split
    all_goals first | exact .refl | exact .one (.token true) trivial
  | remove =>
    simp only [DeleteMap.step]
    split <;> exact .one (.maps _) rfl

theorem LoadMap.writes (config : Config) (env : Env) (name : String) (s : Shared) (pc : LoadMap) :
    Writes (Handler.loadMap name pc).mayWrite s (pc.step config env name s).1 := by
  cases pc with
  | acquire =>
    simp only [LoadMap.step]
    split
    · exact .refl
    · exact .one (.token true) trivial
  | load =>
    simp only [LoadMap.step]
    repeat' split
    all_goals exact .refl
  | select path => exact .one (.selection name) trivial

theorem writes_acquireForStart {may : Write → Prop} (config : Config) (label : String) (s : Shared)
    (next : Handler) (h : may (.token true)) :
    Writes may s (acquireForStart config label s next).1 := by
  unfold acquireForStart
  repeat' split
  · exact .refl
  · exact .refl
  · exact .one (.token true) h

theorem StartMappingRequest.writes (config : Config) (env : Env) (name : String) (s : Shared)
    (pc : StartMappingRequest) :
    Writes (Handler.startMapping name pc).mayWrite s (pc.step config env name s).1 := by
  cases pc with
  | acquire => exact writes_acquireForStart config _ s _ trivial
  | create =>
    simp only [StartMappingRequest.step]
    split <;> exact .one (.maps _) rfl
  | select created =>
    have hselection : Writes (Handler.startMapping name (.select created)).mayWrite s
        { s with currentMap := name } := .one (.selection name) trivial
    exact hselection.and (.errors "" "") rfl
  | transition created => exact writes_transitionTo .mappingStarting trivial
  | cleanup => exact .one (.maps _) rfl
  | unselect => exact .one (.selection "") trivial
  | checkLocalization | checkMapping | saveService | findMap | checkOutput =>
    simp only [StartMappingRequest.step]
    repeat' split
    all_goals exact .refl

theorem SaveMapRequest.writes (config : Config) (s : Shared) (pc : SaveMapRequest) :
    Writes (Handler.saveMap pc).mayWrite s (pc.step config s).1 := by
  cases pc with
  | acquire =>
    simp only [SaveMapRequest.step]
    repeat' split
    all_goals first | exact .refl | exact .one (.token true) trivial
  | transition map => exact writes_transitionTo .mapSaving trivial
  | path map =>
    simp only [SaveMapRequest.step]
    split <;> exact .refl

theorem StartLocalizationRequest.writes (config : Config) (env : Env) (name : String)
    (s : Shared) (pc : StartLocalizationRequest) :
    Writes (Handler.startLocalization name pc).mayWrite s (pc.step config env name s).1 := by
  cases pc with
  | acquire => exact writes_acquireForStart config _ s _ trivial
  | select =>
    have hselection : Writes (Handler.startLocalization name .select).mayWrite s
        { s with currentMap := name } := .one (.selection name) trivial
    exact hselection.and (.errors "" "") rfl
  | resetSession =>
    have hsession : Writes (Handler.startLocalization name .resetSession).mayWrite s
        (s.resetSession env.now) := .one (.session env.now) trivial
    exact hsession.and (.sessionMap name) rfl
  | resetQuality => exact .one (.quality _) trivial
  | transition => exact writes_transitionTo .localizationStarting trivial
  | unselect => exact .one (.selection "") trivial
  | checkMapping | saveService | checkLocalization | load =>
    simp only [StartLocalizationRequest.step]
    repeat' split
    all_goals exact .refl

theorem SetInitialPose.writes (config : Config) (env : Env) (pose : StampedPose) (s : Shared)
    (pc : SetInitialPose) :
    Writes (Handler.setInitialPose pose pc).mayWrite s (pc.step config env pose s).1 := by
  cases pc with
  | check =>
    simp only [SetInitialPose.step]
    repeat' split
    all_goals exact .refl
  | publish =>
    simp only [SetInitialPose.step]
    split
    · exact .refl
    · exact writes_publishInitialPose ‹_› fun _ ↦ trivial

theorem recoverStep_writes (s : Shared) : Writes Handler.recover.mayWrite s (recoverStep s).1 := by
  unfold recoverStep
  repeat' split
  · exact .refl
  · exact .refl
  · exact .refl
  · have hstate : Writes Handler.recover.mayWrite s (s.transitionTo .recovering) :=
      writes_transitionTo .recovering trivial
    exact hstate.and (.token true) trivial

theorem SensorTick.writes (config : Config) (env : Env) (s : Shared) (pc : SensorTick) :
    Writes (Handler.sensorTick pc).mayWrite s (pc.step config env s).1 := by
  cases pc with
  | snapshot status now =>
    simp only [SensorTick.step, sensorSnapshot]
    split <;> exact .one (.sensors status _) rfl
  | clearError => exact .one (.errors "" "") rfl
  | toReady => exact writes_transitionTo .sensorReady trivial
  | toWait => exact writes_transitionTo .waitMode trivial
  | reportFailure status => exact .one (.errors _ _) rfl
  | enterError => exact writes_transitionTo .error trivial
  | claim mapping localization =>
    simp only [SensorTick.step]
    split
    · exact .one (.token true) trivial
    · exact .refl
  | restart status => exact writes_transitionTo .sensorStarting trivial
  | reportWaiting status =>
    simp only [SensorTick.step]
    split
    · exact .one (.errors _ _) rfl
    · exact .refl
  | readStatus | mappingRunning | localizationRunning => exact .refl

theorem ProcessTick.writes (s : Shared) (pc : ProcessTick) :
    Writes (Handler.processTick pc).mayWrite s (pc.step s).1 := by
  cases pc with
  | snapshot =>
    simp only [ProcessTick.step]
    repeat' split
    all_goals exact .refl
  | report leader message => exact .one (.errors _ _) rfl
  | enterError => exact writes_transitionTo .error trivial
  | checkRunning | readExitCode => exact .refl

theorem Handler.writes (config : Config) (env : Env) (s : Shared) (handler : Handler) :
    Writes handler.mayWrite s (handler.step config env s).1 := by
  cases handler with
  | recover => exact recoverStep_writes s
  | createMap name pc => exact pc.writes config env name s
  | deleteMap name pc => exact pc.writes env name s
  | loadMap name pc => exact pc.writes config env name s
  | startMapping name pc => exact pc.writes config env name s
  | saveMap pc => exact pc.writes config s
  | startLocalization name pc => exact pc.writes config env name s
  | setInitialPose pose pc => exact pc.writes config env pose s
  | sensorTick pc => exact pc.writes config env s
  | processTick pc => exact pc.writes s
  | stopMapping | stopLocalization =>
    simp only [Handler.step, stopMappingStep, stopLocalizationStep]
    repeat' split
    all_goals first | exact .refl | exact .one (.token true) trivial
  | lastPoseTick pc =>
    have hsave : Writes (Handler.lastPoseTick pc).mayWrite s (saveLastPoseStep config s pc).1 :=
      writes_saveLastPoseStep config pc fun _ henqueued ↦ henqueued
    simp only [Handler.step, lastPoseTickStep]
    split <;> rename_i heq <;> rw [heq] at hsave <;> exact hsave
  | qualityTick pc =>
    cases pc with
    | evaluate context => exact .one (.quality _) trivial
    | readState | readProcess => exact .refl
  | release reply => exact .one (.token false) trivial
  | launch => exact .refl

/-! ## Adapter callbacks and the environment -/

/-- The footprint of a step of an adapter callback. -/
def Callback.mayWrite : Write → Prop
  | .state _ | .session _ | .published _ _ | .adapter _ | .quality _ => True
  | _ => False

theorem Callback.writes (config : Config) (env : Env) (s : Shared) (callback : Callback) :
    Writes Callback.mayWrite s (callback.step config env s).1 := by
  cases callback with
  | returnToRelocalizing => exact writes_transitionTo .relocalizing trivial
  | confirmTransition => exact writes_transitionTo .localized trivial
  | resetForPose localized => exact .one (.session env.now) trivial
  | resetQualityForPose localized => exact .one (.quality _) trivial
  | correction message =>
    simp only [Callback.step]
    split
    · exact .refl
    · rename_i validated _
      simp only [RelocalizationAdapter.acceptCorrection]
      split
      · exact .refl
      · exact .one (.adapter { s.adapter with
          correction := { message with pose := validated.pose }
          correctionAvailable := true
          acceptedIn := some s.adapter.sessions }) trivial
  | setLocalized => exact .one (.adapter (s.adapter.setLocalized true)) trivial
  | publishOdometry | publishPose => exact .one (.published _ _) trivial
  | storePose pose =>
    simp only [Callback.step, RelocalizationAdapter.storeTrustedPose]
    split
    · exact .one (.adapter { s.adapter with latestTrustedPose := some pose }) trivial
    · exact .refl
  | initialPose | rawOdometry =>
    simp only [Callback.step]
    repeat' split
    all_goals exact .refl
  | confirmState | confirmRunning => exact .refl

/-- The footprint of a step of the system. -/
def Sys.mayWrite (s : Sys) : Action → Write → Prop
  | .handler _, write => ∃ handler, s.handler = some handler ∧ handler.mayWrite write
  | .operation _, write => ∃ running, s.operation = some running ∧ running.mayWrite write
  | .callback _ _, write => Callback.mayWrite write
  | .exit _ _, .processes _ | .writeMap _, .maps _ | .writeSave _, .maps _
  | .observe _, .quality _ | .takeSave, .slot _ _ | .writeSave _, .slot _ _ => True
  | _, _ => False

theorem writes_of_step {config : Config} {s s' : Sys} {a : Action}
    (h : s.step config a = some s') : Writes (s.mayWrite a) s.shared s'.shared := by
  cases a with
  | call request =>
    obtain ⟨-, rfl⟩ := Sys.call_of_step h
    exact .refl
  | handler env =>
    obtain ⟨handler, hhandler, hafter⟩ := Option.bind_eq_some_iff.mp h
    rw [Sys.shared_afterHandler hafter]
    exact (handler.writes config env s.shared).mono fun _ _ hmay ↦ ⟨handler, hhandler, hmay⟩
  | operation env =>
    obtain ⟨running, hrunning, rfl⟩ := Option.map_eq_some_iff.mp h
    exact (running.writes config env s.shared).mono fun _ _ hmay ↦ ⟨running, hrunning, hmay⟩
  | callback id env =>
    obtain ⟨callback, -, rfl⟩ := Option.map_eq_some_iff.mp h
    exact callback.writes config env s.shared
  | deliver id message =>
    simp only [Sys.step] at h
    split at h <;> cases h
    exact .refl
  | observe observation =>
    simp only [Sys.step] at h
    split at h <;> cases h
    exact .one (.quality _) trivial
  | exit leader exitCode =>
    simp only [Sys.step] at h
    split at h <;> cases h
    exact .one (.processes _) trivial
  | writeMap bytes =>
    simp only [Sys.step] at h
    split at h <;> cases h
    exact .one (.maps _) trivial
  | takeSave =>
    simp only [Sys.step] at h
    split at h <;> cases h
    exact .one (.slot _ _) trivial
  | writeSave error =>
    obtain ⟨request, -, rfl⟩ := Option.map_eq_some_iff.mp h
    have hslot : Writes (s.mayWrite (.writeSave error)) s.shared
        { s.shared with adapter := { s.shared.adapter with saving := none } } :=
      .one (.slot _ _) trivial
    exact hslot.and (.maps _) trivial

end SlamSystemManager.Manager
