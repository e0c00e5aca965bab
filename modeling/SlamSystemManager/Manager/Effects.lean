import SlamSystemManager.Manager.System

/-!
# What a step can do

One description of the effect of a step for each kind of thread: which transition it attempts,
what it does to the operation token, to the processes, to the selected map and to the data of the
adapter. The invariants of the later modules are derived from these descriptions and do not look
into the step functions again.
-/

open TransitionSystem

namespace SlamSystemManager.Manager

/-! ## Transitions -/

theorem currentState_transitionTo (s : Shared) (next : SystemState) :
    (s.transitionTo next).currentState =
      if s.currentState.canTransition next then next else s.currentState := by
  unfold Shared.transitionTo
  split <;> rfl

@[simp] theorem processes_transitionTo (s : Shared) (next : SystemState) :
    (s.transitionTo next).processes = s.processes := by
  unfold Shared.transitionTo
  split <;> rfl

@[simp] theorem operationInProgress_transitionTo (s : Shared) (next : SystemState) :
    (s.transitionTo next).operationInProgress = s.operationInProgress := by
  unfold Shared.transitionTo
  split <;> rfl

@[simp] theorem currentMap_transitionTo (s : Shared) (next : SystemState) :
    (s.transitionTo next).currentMap = s.currentMap := by
  unfold Shared.transitionTo
  split <;> rfl

@[simp] theorem sessionMap_transitionTo (s : Shared) (next : SystemState) :
    (s.transitionTo next).sessionMap = s.sessionMap := by
  unfold Shared.transitionTo
  split <;> rfl

@[simp] theorem adapter_transitionTo (s : Shared) (next : SystemState) :
    (s.transitionTo next).adapter = s.adapter := by
  unfold Shared.transitionTo
  split <;> rfl

/-- The state is left alone, or the step made the transition it attempts. -/
def StateEffect (target : Option SystemState) (before after : SystemState) : Prop :=
  after = before ∨ (target = some after ∧ before.canTransition after = true)

theorem stateEffect_transitionTo (s : Shared) (next : SystemState) :
    StateEffect (some next) s.currentState (s.transitionTo next).currentState := by
  rw [currentState_transitionTo]
  by_cases hcan : s.currentState.canTransition next = true
  · rw [if_pos hcan]
    exact Or.inr ⟨rfl, hcan⟩
  · rw [if_neg hcan]
    exact Or.inl rfl

@[simp] theorem stateEffect_refl (target : Option SystemState) (state : SystemState) :
    StateEffect target state state :=
  Or.inl rfl

/-! ## Data of the adapter -/

/-- The part of the adapter that the data mutex guards, outputs and save requests aside. -/
structure SameData (a b : RelocalizationAdapter) : Prop where
  localized : a.localized = b.localized
  correctionAvailable : a.correctionAvailable = b.correctionAvailable
  relocalizationStartedAt : a.relocalizationStartedAt = b.relocalizationStartedAt
  correction : a.correction = b.correction
  latestTrustedPose : a.latestTrustedPose = b.latestTrustedPose
  sessions : a.sessions = b.sessions
  acceptedIn : a.acceptedIn = b.acceptedIn

@[simp] theorem SameData.refl (a : RelocalizationAdapter) : SameData a a :=
  ⟨rfl, rfl, rfl, rfl, rfl, rfl, rfl⟩

/-- The save requests that wait for the save worker or are being written by it. -/
def Requested (adapter : RelocalizationAdapter) (request : SaveRequest) : Prop :=
  adapter.pendingSave = some request ∨ adapter.saving = some request

/-- Outside the adapter's callbacks its data is left alone or reset, and at most one save request
is handed to the save worker. -/
structure AdapterEffect (now : Time) (resets : Bool) (enqueued : Option SaveRequest)
    (before after : RelocalizationAdapter) : Prop where
  data : SameData after before ∨ (resets = true ∧ after = before.resetSession now)
  saves : ∀ request, Requested after request → Requested before request ∨ enqueued = some request

@[simp] theorem AdapterEffect.refl (now : Time) (resets : Bool) (enqueued : Option SaveRequest)
    (adapter : RelocalizationAdapter) : AdapterEffect now resets enqueued adapter adapter :=
  ⟨Or.inl (SameData.refl _), fun _ ↦ Or.inl⟩

theorem AdapterEffect.reset (now : Time) (enqueued : Option SaveRequest)
    (adapter : RelocalizationAdapter) :
    AdapterEffect now true enqueued adapter (adapter.resetSession now) :=
  ⟨Or.inr ⟨rfl, rfl⟩, fun _ ↦ Or.inl⟩

/-! ## The operation thread -/

/-- The transition a step of the operation thread attempts. -/
def Operation.target : Operation → Option SystemState
  | .startMapping _ _ .started => some .mapping
  | .startLocalization _ .started => some .relocalizing
  | .stopMapping .toWait => some .waitMode
  | .saveMap _ .toWait => some .waitMode
  | .stopLocalization .toWait => some .waitMode
  | .recovery (.resume target) => some target
  | .enterError => some .error
  | _ => none

/-- The leader a step of the operation thread may fork, and the map it is started for. -/
def Operation.forks : Operation → Option (Leader × String)
  | .startMapping map _ .startProcess => some (.mapping, map)
  | .startLocalization map .startProcess => some (.localization, map)
  | _ => none

def Operation.resets : Operation → Bool
  | .stopLocalization .resetSession => true
  | .recovery .resetSession => true
  | _ => false

/-- The save request a step of `saveLastPose` hands over. -/
def SaveLastPose.enqueued : SaveLastPose → Option SaveRequest
  | .enqueue request => some request
  | _ => none

def Operation.enqueued : Operation → Option SaveRequest
  | .stopLocalization (.save pc) => pc.enqueued
  | _ => none

/-- Whether a step of the operation thread in a state clears the selected map. -/
def Operation.clearsMap (state : SystemState) : Operation → Bool
  | .startMapping _ _ .unselect => true
  | .startLocalization _ .unselect => true
  | .stopMapping .unselect => true
  | .stopLocalization .unselect => true
  | .recovery (.clear _) => state = .recovering
  | _ => false

/-- A step leaves the process table alone, forks the leader it is at, or sees one end. -/
def ProcessEffect (forks : Option (Leader × String)) (before after : Shared) : Prop :=
  after.processes = before.processes ∨
    (∃ leader map, forks = some (leader, map) ∧ before.isRunning leader = false ∧
      after.processes = (before.fork leader map).processes) ∨
    ∃ leader exitCode, after.processes = (before.reap leader exitCode).processes

@[simp] theorem processEffect_refl (forks : Option (Leader × String)) (s s' : Shared)
    (h : s'.processes = s.processes) : ProcessEffect forks s s' :=
  Or.inl h

/-! ### Leaders that are alive -/

/-- No leader comes alive. -/
def Wanes (s s' : Shared) : Prop :=
  ∀ leader, s'.isRunning leader = true → s.isRunning leader = true

theorem Wanes.of_processes {s s' : Shared} (h : s'.processes = s.processes) : Wanes s s' := by
  intro leader hrunning
  simpa [Shared.isRunning, h] using hrunning

theorem isRunning_reap (s : Shared) (leader other : Leader) (exitCode : ℤ) :
    (s.reap leader exitCode).isRunning other =
      if other = leader then false else s.isRunning other := by
  by_cases hsame : other = leader
  · subst hsame
    simp [Shared.isRunning, Shared.reap, Shared.setProcess]
  · simp [Shared.isRunning, Shared.reap, Shared.setProcess, hsame]

theorem isRunning_fork (s : Shared) (leader other : Leader) (map : String) :
    (s.fork leader map).isRunning other =
      if other = leader then true else s.isRunning other := by
  by_cases hsame : other = leader
  · subst hsame
    simp [Shared.isRunning, Shared.fork, Shared.setProcess]
  · simp [Shared.isRunning, Shared.fork, Shared.setProcess, hsame]

theorem Wanes.of_reap {s s' : Shared} {leader : Leader} {exitCode : ℤ}
    (h : s'.processes = (s.reap leader exitCode).processes) : Wanes s s' := by
  intro other hrunning
  have hreaped : (s.reap leader exitCode).isRunning other = true := by
    simpa [Shared.isRunning, h] using hrunning
  rw [isRunning_reap] at hreaped
  split at hreaped
  · cases hreaped
  · exact hreaped

theorem Wanes.of_effect {s s' : Shared} (h : ProcessEffect none s s') : Wanes s s' := by
  rcases h with hsame | ⟨leader, map, hforks, -⟩ | ⟨leader, exitCode, hreap⟩
  · exact .of_processes hsame
  · cases hforks
  · exact .of_reap hreap

theorem Wanes.dead {s s' : Shared} (h : Wanes s s') {leader : Leader}
    (hdead : s.isRunning leader = false) : s'.isRunning leader = false := by
  by_contra hrunning
  have := h leader (by simpa using hrunning)
  simp_all

structure OperationEffect (env : Env) (operation : Operation) (s : Shared)
    (r : Shared × Operation) : Prop where
  state : StateEffect operation.target s.currentState r.1.currentState
  token : r.1.operationInProgress = s.operationInProgress
  process : ProcessEffect operation.forks s r.1
  map : r.1.currentMap = s.currentMap ∨
    (operation.clearsMap s.currentState = true ∧ r.1.currentMap = "")
  adapter :
    AdapterEffect env.now operation.resets operation.enqueued s.adapter r.1.adapter
  sessionMap : r.1.sessionMap = s.sessionMap

/-- The three ways a call of `stop` continues. -/
theorem stopStep_cases {env : Env} {leader : Leader} {s s' : Shared} {stage : StopStage}
    {next : StopStage ⊕ StopResult} (h : stopStep env leader s stage = (s', next)) :
    s' = s ∨
      (s.isRunning leader = true ∧ s' = s.reap leader env.exitCode ∧ next = .inr (.ok ())) := by
  cases stage <;> simp only [stopStep] at h <;> split_ifs at h <;> cases h <;> simp_all

theorem wanes_stopStep {env : Env} {leader : Leader} {s s' : Shared} {stage : StopStage}
    {next : StopStage ⊕ StopResult} (h : stopStep env leader s stage = (s', next)) :
    Wanes s s' := by
  rcases stopStep_cases h with rfl | ⟨-, rfl, -⟩
  · exact .of_processes rfl
  · exact .of_reap rfl

/-- A stop that succeeds leaves no leader. -/
theorem dead_of_stopStep {env : Env} {leader : Leader} {s s' : Shared} {stage : StopStage}
    (h : stopStep env leader s stage = (s', .inr (.ok ()))) : s'.isRunning leader = false := by
  cases stage <;> simp only [stopStep] at h <;> split_ifs at h <;> cases h
  · simp [isRunning_reap]
  · simp_all

/-- A stop that ends leaves no leader, unless the leader outlives the signals. -/
theorem dead_of_stopStep_end {env : Env} {leader : Leader} {s s' : Shared} {stage : StopStage}
    {result : StopResult} (h : stopStep env leader s stage = (s', .inr result))
    (havailable : stage = .wait → s.isRunning leader = true → env.available = true) :
    s'.isRunning leader = false := by
  cases stage with
  | check | lookup =>
    simp only [stopStep] at h
    split_ifs at h with hrunning <;> cases h
    simpa using hrunning
  | wait =>
    simp only [stopStep] at h
    split_ifs at h with hrunning hreaped <;> cases h
    · simp [isRunning_reap]
    · exact absurd (havailable rfl hrunning) hreaped
    · simpa using hrunning

theorem OperationEffect.same (env : Env) (operation : Operation) (s : Shared)
    (next : Operation) : OperationEffect env operation s (s, next) :=
  ⟨Or.inl rfl, rfl, Or.inl rfl, Or.inl rfl, .refl .., rfl⟩

theorem OperationEffect.stop (env : Env) (operation : Operation) (leader : Leader) (s : Shared)
    (stage : StopStage) (next : Operation) :
    OperationEffect env operation s ((stopStep env leader s stage).1, next) := by
  rcases stopStep_cases (Prod.eta (stopStep env leader s stage)).symm with
    hsame | ⟨-, hreap, -⟩
  · rw [hsame]
    exact .same env operation s next
  · rw [hreap]
    exact ⟨Or.inl rfl, rfl, Or.inr (Or.inr ⟨leader, env.exitCode, rfl⟩), Or.inl rfl,
      .refl .., rfl⟩

theorem OperationEffect.transitionTo (env : Env) {operation : Operation} {target : SystemState}
    (htarget : operation.target = some target) (s : Shared) (next : Operation) :
    OperationEffect env operation s (s.transitionTo target, next) := by
  refine ⟨?_, by simp, by simp, by simp, by simp, by simp⟩
  rw [htarget]
  exact stateEffect_transitionTo s target

theorem StartMapping.effect (config : Config) (env : Env) (map : String) (created : Bool)
    (s : Shared) (pc : StartMapping) :
    OperationEffect env (.startMapping map created pc) s (pc.step config env map created s) := by
  cases pc with
  | stopTimedOut stage =>
    have hstop := OperationEffect.stop env (.startMapping map created (.stopTimedOut stage))
      .mapping s stage
    simp only [StartMapping.step]
    split <;> simp_all
  | stopAborted stage =>
    have hstop := OperationEffect.stop env (.startMapping map created (.stopAborted stage))
      .mapping s stage
    simp only [StartMapping.step]
    split <;> simp_all
  | started => exact .transitionTo env rfl s _
  | startProcess =>
    simp only [StartMapping.step]
    split
    · exact .same ..
    · split
      · exact .same ..
      · rename_i hrunning _ _
        exact ⟨Or.inl rfl, rfl, Or.inr (Or.inl ⟨.mapping, map, rfl, by simpa using hrunning, rfl⟩),
          Or.inl rfl, .refl .., rfl⟩
  | prepareConfig =>
    simp only [StartMapping.step]
    split <;> exact .same ..
  | failed error => exact ⟨Or.inl rfl, rfl, Or.inl rfl, Or.inl rfl, .refl .., rfl⟩
  | unselect => exact ⟨Or.inl rfl, rfl, Or.inl rfl, Or.inr ⟨rfl, rfl⟩, .refl .., rfl⟩
  | cleanup shouldTransition =>
    exact ⟨Or.inl rfl, rfl, Or.inl rfl, Or.inl rfl, .refl .., rfl⟩
  | checkRunning | saveService | waitService | checkAlive | readExitCode => exact .same ..

theorem publishInitialPose_eq_ok {config : Config} {env : Env} {s s' : Shared}
    {pose : StampedPose} (h : publishInitialPose config env s pose = .ok s') :
    ∃ published, s' = { s with publishedInitialPoses := published } := by
  unfold publishInitialPose at h
  split at h
  · cases h
  · split at h
    · cases h
      exact ⟨_, rfl⟩
    · cases h

theorem StartLocalization.effect (config : Config) (env : Env) (map : String) (s : Shared)
    (pc : StartLocalization) :
    OperationEffect env (.startLocalization map pc) s (pc.step config env map s) := by
  cases pc with
  | stopTimedOut missing stage =>
    have hstop := OperationEffect.stop env (.startLocalization map (.stopTimedOut missing stage))
      .localization s stage
    simp only [StartLocalization.step]
    split <;> simp_all
  | stopAborted stage =>
    have hstop := OperationEffect.stop env (.startLocalization map (.stopAborted stage))
      .localization s stage
    simp only [StartLocalization.step]
    split <;> simp_all
  | started => exact .transitionTo env rfl s _
  | startProcess =>
    simp only [StartLocalization.step]
    split
    · exact .same ..
    · split
      · exact .same ..
      · rename_i hrunning _ _
        exact ⟨Or.inl rfl, rfl,
          Or.inr (Or.inl ⟨.localization, map, rfl, by simpa using hrunning, rfl⟩),
          Or.inl rfl, .refl .., rfl⟩
  | checkFile | loadLastPose =>
    simp only [StartLocalization.step]
    split <;> exact .same ..
  | publish pose attempt =>
    simp only [StartLocalization.step]
    split
    · exact .same ..
    · rename_i hpublished
      obtain ⟨published, rfl⟩ := publishInitialPose_eq_ok hpublished
      exact ⟨Or.inl rfl, rfl, Or.inl rfl, Or.inl rfl, .refl .., rfl⟩
  | failed error => exact ⟨Or.inl rfl, rfl, Or.inl rfl, Or.inl rfl, .refl .., rfl⟩
  | unselect => exact ⟨Or.inl rfl, rfl, Or.inl rfl, Or.inr ⟨rfl, rfl⟩, .refl .., rfl⟩
  | checkRunning | poll missing | pollAlive | pollTopics | readExitCode | waitConsumer pose
  | window pose attempt => exact .same ..

theorem StopMapping.effect (env : Env) (s : Shared) (pc : StopMapping) :
    OperationEffect env (.stopMapping pc) s (pc.step env s) := by
  cases pc with
  | stop stage =>
    have hstop := OperationEffect.stop env (.stopMapping (.stop stage)) .mapping s stage
    simp only [StopMapping.step]
    split <;> simp_all
  | unselect => exact ⟨Or.inl rfl, rfl, Or.inl rfl, Or.inr ⟨rfl, rfl⟩, .refl .., rfl⟩
  | toWait => exact .transitionTo env rfl s _

theorem SaveMap.effect (config : Config) (env : Env) (map : String) (s : Shared) (pc : SaveMap) :
    OperationEffect env (.saveMap map pc) s (pc.step config env map s) := by
  cases pc with
  | stop saved saveError stage =>
    have hstop := OperationEffect.stop env (.saveMap map (.stop saved saveError stage))
      .mapping s stage
    simp only [SaveMap.step]
    split <;> simp_all
  | toWait => exact .transitionTo env rfl s _
  | removeOutput | request | markSaved | report saved saveError stopped =>
    simp only [SaveMap.step]
    repeat' split
    all_goals exact ⟨Or.inl rfl, rfl, Or.inl rfl, Or.inl rfl, .refl .., rfl⟩
  | checkOutput =>
    simp only [SaveMap.step]
    split <;> exact .same ..
  | checkRunning | serviceReady | checkState succeeded => exact .same ..

/-- `saveLastPose` only reads, and leaves a request for the save worker. -/
structure SaveLastPoseEffect (pc : SaveLastPose) (s s' : Shared) : Prop where
  state : s'.currentState = s.currentState
  token : s'.operationInProgress = s.operationInProgress
  processes : s'.processes = s.processes
  map : s'.currentMap = s.currentMap
  data : SameData s'.adapter s.adapter
  saves : ∀ request, Requested s'.adapter request →
    Requested s.adapter request ∨ pc.enqueued = some request
  sessionMap : s'.sessionMap = s.sessionMap

theorem saveLastPoseStep_effect (config : Config) (s : Shared) (pc : SaveLastPose) :
    SaveLastPoseEffect pc s (saveLastPoseStep config s pc).1 := by
  cases pc with
  | enqueue request =>
    refine ⟨rfl, rfl, rfl, rfl, ⟨rfl, rfl, rfl, rfl, rfl, rfl, rfl⟩, fun other hother ↦ ?_, rfl⟩
    rcases hother with hpending | hsaving
    · exact Or.inr hpending
    · exact Or.inl (Or.inr hsaving)
  | poseValid | readMap | checkPath | capture =>
    simp only [saveLastPoseStep]
    repeat' split
    all_goals exact ⟨rfl, rfl, rfl, rfl, SameData.refl _, fun _ ↦ Or.inl, rfl⟩

theorem StopLocalization.effect (config : Config) (env : Env) (s : Shared)
    (pc : StopLocalization) :
    OperationEffect env (.stopLocalization pc) s (pc.step config env s) := by
  cases pc with
  | save pc =>
    have hsave := saveLastPoseStep_effect config s pc
    have heffect (next : Operation) : OperationEffect env (.stopLocalization (.save pc)) s
        ((saveLastPoseStep config s pc).1, next) :=
      ⟨Or.inl hsave.state, hsave.token, Or.inl hsave.processes, Or.inl hsave.map,
        ⟨Or.inl hsave.data, hsave.saves⟩, hsave.sessionMap⟩
    simp only [StopLocalization.step]
    split <;> simp_all
  | stop stage =>
    have hstop := OperationEffect.stop env (.stopLocalization (.stop stage)) .localization s stage
    simp only [StopLocalization.step]
    split <;> simp_all
  | unselect => exact ⟨Or.inl rfl, rfl, Or.inl rfl, Or.inr ⟨rfl, rfl⟩, .refl .., rfl⟩
  | toWait => exact .transitionTo env rfl s _
  | resetSession => exact ⟨Or.inl rfl, rfl, Or.inl rfl, Or.inl rfl, .reset .., rfl⟩
  | resetQuality => exact ⟨Or.inl rfl, rfl, Or.inl rfl, Or.inl rfl, .refl .., rfl⟩

theorem StopAfterFailure.effect (env : Env) (s : Shared) (pc : StopAfterFailure) :
    OperationEffect env (.stopAfterFailure pc) s (pc.step env s) := by
  cases pc with
  | stopMapping localizationRunning stage =>
    have hstop := OperationEffect.stop env
      (.stopAfterFailure (.stopMapping localizationRunning stage)) .mapping s stage
    simp only [StopAfterFailure.step]
    split <;> simp_all
  | stopLocalization stage =>
    have hstop := OperationEffect.stop env (.stopAfterFailure (.stopLocalization stage))
      .localization s stage
    simp only [StopAfterFailure.step]
    split <;> simp_all

theorem Recovery.effect (env : Env) (s : Shared) (pc : Recovery) :
    OperationEffect env (.recovery pc) s (pc.step env s) := by
  cases pc with
  | stop leader errors stage =>
    have hstop := OperationEffect.stop env (.recovery (.stop leader errors stage)) leader s stage
    simp only [Recovery.step]
    split <;> simp_all
  | clear status =>
    simp only [Recovery.step]
    split
    · exact .same ..
    · rename_i hstate
      exact ⟨Or.inl rfl, rfl, Or.inl rfl,
        Or.inr ⟨by simpa [Operation.clearsMap] using hstate, rfl⟩, .refl .., rfl⟩
  | resume target => exact .transitionTo env rfl s _
  | resetSession => exact ⟨Or.inl rfl, rfl, Or.inl rfl, Or.inl rfl, .reset .., rfl⟩
  | resetQuality => exact ⟨Or.inl rfl, rfl, Or.inl rfl, Or.inl rfl, .refl .., rfl⟩
  | checkRunning leader errors | recheck leader errors error | readSensors => exact .same ..

/-- What may follow a program counter of the operation thread: another one of the same body or the
end of a body. -/
inductive Operation.Follows : Operation → Operation → Prop
  | startMapping (map : String) (created : Bool) (pc pc' : StartMapping) :
    Follows (.startMapping map created pc) (.startMapping map created pc')
  | startLocalization (map : String) (pc pc' : StartLocalization) :
    Follows (.startLocalization map pc) (.startLocalization map pc')
  | stopMapping (pc pc' : StopMapping) : Follows (.stopMapping pc) (.stopMapping pc')
  | saveMap (map : String) (pc pc' : SaveMap) : Follows (.saveMap map pc) (.saveMap map pc')
  | stopLocalization (pc pc' : StopLocalization) :
    Follows (.stopLocalization pc) (.stopLocalization pc')
  | stopAfterFailure (pc pc' : StopAfterFailure) :
    Follows (.stopAfterFailure pc) (.stopAfterFailure pc')
  | recovery (pc pc' : Recovery) (hresume : ∀ target, pc' = .resume target → target.isIdle = true) :
    Follows (.recovery pc) (.recovery pc')
  | fail (operation : Operation) (code message : String) : Follows operation (.fail code message)
  | enterError (operation : Operation) : Follows operation .enterError
  | finish (operation : Operation) : Follows operation .finish

theorem StartMapping.follows (config : Config) (env : Env) (map : String) (created : Bool)
    (s : Shared) (pc : StartMapping) :
    Operation.Follows (.startMapping map created pc) (pc.step config env map created s).2 := by
  cases pc <;> simp only [StartMapping.step, errorOrFinish] <;> (repeat' split) <;> constructor

theorem StartLocalization.follows (config : Config) (env : Env) (map : String) (s : Shared)
    (pc : StartLocalization) :
    Operation.Follows (.startLocalization map pc) (pc.step config env map s).2 := by
  cases pc <;> simp only [StartLocalization.step, errorOrFinish] <;> (repeat' split) <;>
    constructor

theorem StopMapping.follows (env : Env) (s : Shared) (pc : StopMapping) :
    Operation.Follows (.stopMapping pc) (pc.step env s).2 := by
  cases pc <;> simp only [StopMapping.step] <;> (repeat' split) <;> constructor

theorem SaveMap.follows (config : Config) (env : Env) (map : String) (s : Shared) (pc : SaveMap) :
    Operation.Follows (.saveMap map pc) (pc.step config env map s).2 := by
  cases pc <;> simp only [SaveMap.step] <;> (repeat' split) <;> constructor

theorem StopLocalization.follows (config : Config) (env : Env) (s : Shared)
    (pc : StopLocalization) :
    Operation.Follows (.stopLocalization pc) (pc.step config env s).2 := by
  cases pc <;> simp only [StopLocalization.step, Operation.catchException] <;>
    (repeat' split) <;> constructor

theorem StopAfterFailure.follows (env : Env) (s : Shared) (pc : StopAfterFailure) :
    Operation.Follows (.stopAfterFailure pc) (pc.step env s).2 := by
  cases pc <;> simp only [StopAfterFailure.step] <;> (repeat' split) <;> constructor

theorem Recovery.follows (env : Env) (s : Shared) (pc : Recovery) :
    Operation.Follows (.recovery pc) (pc.step env s).2 := by
  cases pc <;> simp only [Recovery.step, Recovery.afterLeader] <;> (repeat' split) <;> constructor
  all_goals simp [SystemState.isIdle]

/-- A step of the operation thread that does not end it. -/
structure Operation.Continues (env : Env) (operation : Operation) (s s' : Shared)
    (next : Operation) : Prop where
  effect : OperationEffect env operation s (s', next)
  follows : operation.Follows next

theorem Operation.run_effect (config : Config) (env : Env) (s : Shared) {operation : Operation}
    (h : operation ≠ .finish) :
    ∃ s' next, operation.run config env s = (s', some next) ∧
      operation.Continues env s s' next := by
  cases operation with
  | startMapping map created pc =>
    exact ⟨_, _, rfl, StartMapping.effect config env map created s pc,
      StartMapping.follows config env map created s pc⟩
  | startLocalization map pc =>
    exact ⟨_, _, rfl, StartLocalization.effect config env map s pc,
      StartLocalization.follows config env map s pc⟩
  | stopMapping pc => exact ⟨_, _, rfl, StopMapping.effect env s pc, StopMapping.follows env s pc⟩
  | saveMap map pc =>
    exact ⟨_, _, rfl, SaveMap.effect config env map s pc, SaveMap.follows config env map s pc⟩
  | stopLocalization pc =>
    exact ⟨_, _, rfl, StopLocalization.effect config env s pc,
      StopLocalization.follows config env s pc⟩
  | stopAfterFailure pc =>
    exact ⟨_, _, rfl, StopAfterFailure.effect env s pc, StopAfterFailure.follows env s pc⟩
  | recovery pc => exact ⟨_, _, rfl, Recovery.effect env s pc, Recovery.follows env s pc⟩
  | fail code message =>
    exact ⟨_, _, rfl, ⟨Or.inl rfl, rfl, Or.inl rfl, Or.inl rfl, .refl .., rfl⟩,
      .enterError _⟩
  | enterError => exact ⟨_, _, rfl, .transitionTo env rfl s _, .finish _⟩
  | finish => exact absurd rfl h

/-- A step of a body that throws continues with `fail`; every other step is one of `run`. -/
theorem Operation.step_cases (config : Config) (env : Env) (s : Shared) (operation : Operation) :
    (operation.step config env s = operation.run config env s ∧
      (operation.isBody = true → env.throws = none)) ∨
    (operation.isBody = true ∧ env.throws.isSome = true ∧
      ∃ code what, operation.step config env s = (s, some (.fail code what))) := by
  unfold Operation.step
  cases hthrows : env.throws with
  | none => exact Or.inl ⟨rfl, fun _ ↦ rfl⟩
  | some what =>
    by_cases hbody : operation.isBody = true
    · refine Or.inr ⟨hbody, rfl, ?_⟩
      simp only [hbody, if_true]
      cases operation <;> exact ⟨_, _, rfl⟩
    · exact Or.inl ⟨by simp [hbody], fun h ↦ absurd h hbody⟩

/-- After its body an operation throws nothing. -/
theorem Operation.step_of_tail (config : Config) (env : Env) (s : Shared) {operation : Operation}
    (h : operation.isBody = false) : operation.step config env s = operation.run config env s := by
  rcases operation.step_cases config env s with ⟨hrun, -⟩ | ⟨hbody, -⟩
  · exact hrun
  · rw [h] at hbody
    cases hbody

/-- A step of the operation thread releases the token and ends it, or has the effect of its
program counter. -/
theorem Operation.effect (config : Config) (env : Env) (s : Shared) (operation : Operation) :
    (operation = .finish ∧ operation.step config env s = (s.finishOperation, none)) ∨
      (operation ≠ .finish ∧ ∃ s' next, operation.step config env s = (s', some next) ∧
        operation.Continues env s s' next) := by
  rcases operation.step_cases config env s with ⟨hrun, -⟩ | ⟨hbody, -, code, what, hthrow⟩
  · by_cases hfinish : operation = .finish
    · exact Or.inl ⟨hfinish, by rw [hrun, hfinish]; rfl⟩
    · exact Or.inr ⟨hfinish, by rw [hrun]; exact Operation.run_effect config env s hfinish⟩
  · refine Or.inr ⟨?_, s, _, hthrow, .same env operation s _, .fail _ _ _⟩
    rintro rfl
    cases hbody

/-- The rule for an assertion about the operation thread: an exception goes on with `fail`, the last
step releases the token, and every other step has the effect of its program counter. -/
theorem Operation.step_rule {P : Shared → Option Operation → Prop} (config : Config) (env : Env)
    (s : Shared) (operation : Operation) (hfail : ∀ code what, P s (some (.fail code what)))
    (hfinish : operation = .finish → P s.finishOperation none)
    (hrun : ∀ s' next, operation.run config env s = (s', some next) →
      (operation.isBody = true → env.throws = none) → operation.Continues env s s' next →
      P s' (some next)) :
    P (operation.step config env s).1 (operation.step config env s).2 := by
  rcases operation.step_cases config env s with ⟨hstep, hthrows⟩ | ⟨-, -, code, what, hthrow⟩
  · rw [hstep]
    by_cases hlast : operation = .finish
    · have hended := hfinish hlast
      subst hlast
      exact hended
    · obtain ⟨s', next, hnext, hcontinues⟩ := Operation.run_effect config env s hlast
      rw [hnext]
      exact hrun s' next hnext hthrows hcontinues
  · rw [hthrow]
    exact hfail code what

/-! ## Handlers -/

/-- Whether the running handler owns the operation token. -/
def Handler.holdsToken : Handler → Bool
  | .createMap _ .create => true
  | .deleteMap _ .remove => true
  | .loadMap _ .load | .loadMap _ (.select _) => true
  | .startMapping _ .findMap | .startMapping _ .create | .startMapping _ (.checkOutput _)
  | .startMapping _ (.select _) | .startMapping _ (.transition _) | .startMapping _ .cleanup
  | .startMapping _ .unselect => true
  | .saveMap (.transition _) | .saveMap (.path _) => true
  | .startLocalization _ .load | .startLocalization _ .select
  | .startLocalization _ .resetSession | .startLocalization _ .resetQuality
  | .startLocalization _ .transition | .startLocalization _ .unselect => true
  | .release _ | .launch _ _ => true
  | _ => false

/-- The transition a step of a handler attempts. -/
def Handler.target : Handler → Option SystemState
  | .recover => some .recovering
  | .startMapping _ (.transition _) => some .mappingStarting
  | .saveMap (.transition _) => some .mapSaving
  | .startLocalization _ .transition => some .localizationStarting
  | .sensorTick .toReady => some .sensorReady
  | .sensorTick .toWait => some .waitMode
  | .sensorTick .enterError => some .error
  | .sensorTick (.restart _) => some .sensorStarting
  | .processTick .enterError => some .error
  | _ => none

def Handler.resets : Handler → Bool
  | .startLocalization _ .resetSession => true
  | _ => false

/-- The map name a step of a handler stores. -/
def Handler.mapWritten : Handler → Option String
  | .loadMap name (.select _) => some name
  | .startMapping name (.select _) => some name
  | .startMapping _ .unselect => some ""
  | .startLocalization name .select => some name
  | .startLocalization _ .unselect => some ""
  | _ => none

def Handler.enqueued : Handler → Option SaveRequest
  | .lastPoseTick pc => pc.enqueued
  | _ => none

/-- The map for which a step of a handler begins a session. -/
def Handler.sessionWritten : Handler → Option String
  | .startLocalization name .resetSession => some name
  | _ => none

/-- What a step of a handler does to the token: it keeps it as it is, takes it, releases it at its
end, or hands it over at its end. -/
def TokenEffect (holds before after : Bool) : HandlerNext → Prop
  | .next handler =>
    (handler.holdsToken = holds ∧ after = before) ∨
      (holds = false ∧ handler.holdsToken = true ∧ before = false ∧ after = true)
  | .done _ => (holds = false ∧ after = before) ∨ (holds = true ∧ after = false)
  | .launched _ _ => holds = true ∧ after = before
  | .escaped _ => after = before

attribute [local simp] Handler.holdsToken TokenEffect

structure HandlerEffect (env : Env) (handler : Handler) (s : Shared)
    (r : Shared × HandlerNext) : Prop where
  state : StateEffect handler.target s.currentState r.1.currentState
  token : TokenEffect handler.holdsToken s.operationInProgress r.1.operationInProgress r.2
  processes : r.1.processes = s.processes
  map : r.1.currentMap = s.currentMap ∨ handler.mapWritten = some r.1.currentMap
  adapter : AdapterEffect env.now handler.resets handler.enqueued s.adapter r.1.adapter
  sessionMap : r.1.sessionMap = s.sessionMap ∨ handler.sessionWritten = some r.1.sessionMap

theorem CreateMap.effect (config : Config) (env : Env) (name : String) (s : Shared)
    (pc : CreateMap) : HandlerEffect env (.createMap name pc) s (pc.step config env name s) := by
  cases pc <;> simp only [CreateMap.step, refuse] <;> split
  all_goals constructor <;> simp_all

theorem DeleteMap.effect (env : Env) (name : String) (s : Shared) (pc : DeleteMap) :
    HandlerEffect env (.deleteMap name pc) s (pc.step env name s) := by
  cases pc <;> simp only [DeleteMap.step, refuse] <;> repeat' split
  all_goals constructor <;> simp_all

theorem LoadMap.effect (config : Config) (env : Env) (name : String) (s : Shared)
    (pc : LoadMap) : HandlerEffect env (.loadMap name pc) s (pc.step config env name s) := by
  cases pc with
  | select path =>
    constructor <;> simp [LoadMap.step, Handler.mapWritten]
  | acquire | load =>
    simp only [LoadMap.step, refuse]
    repeat' split
    all_goals constructor <;> simp_all

theorem acquireForStart_effect (config : Config) (env : Env) (label : String) (s : Shared)
    {handler next : Handler} (hbefore : handler.holdsToken = false)
    (hafter : next.holdsToken = true) :
    HandlerEffect env handler s (acquireForStart config label s next) := by
  simp only [acquireForStart, refuse]
  repeat' split
  all_goals constructor <;> simp_all

theorem StartMappingRequest.effect (config : Config) (env : Env) (name : String) (s : Shared)
    (pc : StartMappingRequest) :
    HandlerEffect env (.startMapping name pc) s (pc.step config env name s) := by
  cases pc with
  | acquire => exact acquireForStart_effect config env "Mapping" s rfl rfl
  | transition created =>
    simp only [StartMappingRequest.step]
    refine ⟨stateEffect_transitionTo s _, ?_, by simp, by simp, by simp, by simp⟩
    cases created <;> split <;> simp
  | select created | cleanup | unselect =>
    constructor <;>
      simp [StartMappingRequest.step, Handler.mapWritten]
  | checkLocalization | checkMapping | saveService | findMap | create | checkOutput created =>
    simp only [StartMappingRequest.step, refuse]
    repeat' split
    all_goals constructor <;> simp_all

theorem stopMappingStep_effect (env : Env) (s : Shared) :
    HandlerEffect env .stopMapping s (stopMappingStep s) := by
  simp only [stopMappingStep, refuse]
  repeat' split
  all_goals constructor <;> simp_all

theorem SaveMapRequest.effect (config : Config) (env : Env) (s : Shared) (pc : SaveMapRequest) :
    HandlerEffect env (.saveMap pc) s (pc.step config s) := by
  cases pc with
  | transition map =>
    simp only [SaveMapRequest.step]
    refine ⟨stateEffect_transitionTo s _, ?_, by simp, by simp, by simp, by simp⟩
    split <;> simp
  | acquire | path map =>
    simp only [SaveMapRequest.step, refuse]
    repeat' split
    all_goals constructor <;> simp_all

theorem StartLocalizationRequest.effect (config : Config) (env : Env) (name : String)
    (s : Shared) (pc : StartLocalizationRequest) :
    HandlerEffect env (.startLocalization name pc) s (pc.step config env name s) := by
  cases pc with
  | acquire => exact acquireForStart_effect config env "Localization" s rfl rfl
  | transition =>
    simp only [StartLocalizationRequest.step]
    refine ⟨stateEffect_transitionTo s _, ?_, by simp, by simp, by simp, by simp⟩
    split <;> simp
  | resetSession =>
    exact ⟨Or.inl rfl, Or.inl ⟨rfl, rfl⟩, rfl, Or.inl rfl, .reset .., Or.inr rfl⟩
  | select | unselect | resetQuality =>
    constructor <;> simp [StartLocalizationRequest.step, Handler.mapWritten, Shared.resetQuality]
  | checkMapping | saveService | checkLocalization | load =>
    simp only [StartLocalizationRequest.step, refuse]
    repeat' split
    all_goals constructor <;> simp_all

theorem stopLocalizationStep_effect (env : Env) (s : Shared) :
    HandlerEffect env .stopLocalization s (stopLocalizationStep s) := by
  simp only [stopLocalizationStep, refuse]
  repeat' split
  all_goals constructor <;> simp_all

theorem SetInitialPose.effect (config : Config) (env : Env) (pose : StampedPose) (s : Shared)
    (pc : SetInitialPose) :
    HandlerEffect env (.setInitialPose pose pc) s (pc.step config env pose s) := by
  cases pc with
  | publish =>
    simp only [SetInitialPose.step, refuse]
    split
    · constructor <;> simp
    · rename_i hpublished
      obtain ⟨published, rfl⟩ := publishInitialPose_eq_ok hpublished
      exact ⟨Or.inl rfl, Or.inl ⟨rfl, rfl⟩, rfl, Or.inl rfl, .refl ..,
      Or.inl rfl⟩
  | check =>
    simp only [SetInitialPose.step, refuse]
    repeat' split
    all_goals constructor <;> simp_all

theorem recoverStep_effect (env : Env) (s : Shared) :
    HandlerEffect env .recover s (recoverStep s) := by
  simp only [recoverStep, refuse]
  split_ifs with hstate htoken hcan
  case neg =>
    refine ⟨stateEffect_transitionTo s _, Or.inr ⟨rfl, rfl, by simpa using htoken, rfl⟩,
      by simp, by simp, by simp, by simp⟩
  all_goals constructor <;> simp

theorem sensorSnapshot_effect (config : Config) (env : Env) (status : SensorStatus) (now : Time)
    (s : Shared) :
    HandlerEffect env (.sensorTick (.snapshot status now)) s
      (sensorSnapshot config status now s) := by
  simp only [sensorSnapshot]
  repeat' split
  all_goals constructor <;> simp

theorem SensorTick.effect (config : Config) (env : Env) (s : Shared) (pc : SensorTick) :
    HandlerEffect env (.sensorTick pc) s (pc.step config env s) := by
  cases pc with
  | snapshot status now => exact sensorSnapshot_effect config env status now s
  | toReady | toWait | enterError =>
    exact ⟨stateEffect_transitionTo s _, Or.inl ⟨rfl, by simp [SensorTick.step]⟩,
      by simp [SensorTick.step], by simp [SensorTick.step], by simp [SensorTick.step],
      by simp [SensorTick.step]⟩
  | restart status =>
    simp only [SensorTick.step]
    refine ⟨stateEffect_transitionTo s _, ?_, by simp, by simp, by simp, by simp⟩
    split <;> simp
  | claim mapping localization =>
    simp only [SensorTick.step]
    split
    all_goals constructor <;> simp_all
  | reportWaiting status =>
    simp only [SensorTick.step]
    split
    all_goals constructor <;> simp [Shared.setSystemError]
  | readStatus | clearError | reportFailure status | mappingRunning | localizationRunning mapping =>
    constructor <;> simp [SensorTick.step, Shared.setSystemError, Shared.clearError]

theorem ProcessTick.effect (env : Env) (s : Shared) (pc : ProcessTick) :
    HandlerEffect env (.processTick pc) s (pc.step s) := by
  cases pc with
  | enterError =>
    exact ⟨stateEffect_transitionTo s _, Or.inl ⟨rfl, by simp [ProcessTick.step]⟩,
      by simp [ProcessTick.step], by simp [ProcessTick.step], by simp [ProcessTick.step],
      by simp [ProcessTick.step]⟩
  | snapshot | checkRunning leader | readExitCode leader | report leader message =>
    simp only [ProcessTick.step]
    repeat' split
    all_goals constructor <;> simp [Shared.setSystemError]

theorem lastPoseTickStep_effect (config : Config) (env : Env) (s : Shared) (pc : SaveLastPose) :
    HandlerEffect env (.lastPoseTick pc) s (lastPoseTickStep config s pc) := by
  have hsave := saveLastPoseStep_effect config s pc
  have heffect (next : HandlerNext)
      (htoken : TokenEffect false s.operationInProgress s.operationInProgress next) :
      HandlerEffect env (.lastPoseTick pc) s ((saveLastPoseStep config s pc).1, next) :=
    ⟨Or.inl hsave.state, by rw [hsave.token]; exact htoken, hsave.processes, Or.inl hsave.map,
      ⟨Or.inl hsave.data, hsave.saves⟩, Or.inl hsave.sessionMap⟩
  simp only [lastPoseTickStep]
  split <;> simp_all

theorem QualityTick.effect (config : Config) (env : Env) (s : Shared) (pc : QualityTick) :
    HandlerEffect env (.qualityTick pc) s (pc.step config env s) := by
  cases pc
  all_goals constructor <;> simp [QualityTick.step]

/-- A step of a handler has the effect of its program counter. -/
theorem Handler.effect (config : Config) (env : Env) (s : Shared) (handler : Handler) :
    HandlerEffect env handler s (handler.step config env s) := by
  cases handler with
  | recover => exact recoverStep_effect env s
  | createMap name pc => exact CreateMap.effect config env name s pc
  | deleteMap name pc => exact DeleteMap.effect env name s pc
  | loadMap name pc => exact LoadMap.effect config env name s pc
  | startMapping name pc => exact StartMappingRequest.effect config env name s pc
  | stopMapping => exact stopMappingStep_effect env s
  | saveMap pc => exact SaveMapRequest.effect config env s pc
  | startLocalization name pc => exact StartLocalizationRequest.effect config env name s pc
  | stopLocalization => exact stopLocalizationStep_effect env s
  | setInitialPose pose pc => exact SetInitialPose.effect config env pose s pc
  | sensorTick pc => exact SensorTick.effect config env s pc
  | processTick pc => exact ProcessTick.effect env s pc
  | lastPoseTick pc => exact lastPoseTickStep_effect config env s pc
  | qualityTick pc => exact QualityTick.effect config env s pc
  | release reply =>
    exact ⟨Or.inl rfl, Or.inr ⟨rfl, rfl⟩, rfl, Or.inl rfl, .refl .., Or.inl rfl⟩
  | launch operation reply =>
    exact ⟨Or.inl rfl, ⟨rfl, rfl⟩, rfl, Or.inl rfl, .refl .., Or.inl rfl⟩

theorem Handler.effect_of_step {config : Config} {env : Env} {s s' : Shared} {handler : Handler}
    {next : HandlerNext} (h : handler.step config env s = (s', next)) :
    HandlerEffect env handler s (s', next) := by
  rw [← h]
  exact handler.effect config env s

/-- What may follow a program counter of a handler: another one of the same handler, the release of
the token, the launch of the handler's operation, or the end. -/
inductive Handler.Follows : Handler → HandlerNext → Prop
  | createMap (name : String) (pc pc' : CreateMap) :
    Follows (.createMap name pc) (.next (.createMap name pc'))
  | deleteMap (name : String) (pc pc' : DeleteMap) :
    Follows (.deleteMap name pc) (.next (.deleteMap name pc'))
  | loadMap (name : String) (pc pc' : LoadMap) :
    Follows (.loadMap name pc) (.next (.loadMap name pc'))
  | startMapping (name : String) (pc pc' : StartMappingRequest) :
    Follows (.startMapping name pc) (.next (.startMapping name pc'))
  | saveMap (pc pc' : SaveMapRequest) : Follows (.saveMap pc) (.next (.saveMap pc'))
  | startLocalization (name : String) (pc pc' : StartLocalizationRequest) :
    Follows (.startLocalization name pc) (.next (.startLocalization name pc'))
  | setInitialPose (pose : StampedPose) (pc pc' : SetInitialPose) :
    Follows (.setInitialPose pose pc) (.next (.setInitialPose pose pc'))
  | sensorTick (pc pc' : SensorTick) : Follows (.sensorTick pc) (.next (.sensorTick pc'))
  | processTick (pc pc' : ProcessTick) : Follows (.processTick pc) (.next (.processTick pc'))
  | lastPoseTick (pc pc' : SaveLastPose) : Follows (.lastPoseTick pc) (.next (.lastPoseTick pc'))
  | qualityTick (pc pc' : QualityTick) : Follows (.qualityTick pc) (.next (.qualityTick pc'))
  | release (handler : Handler) (reply : Reply) : Follows handler (.next (.release reply))
  | launchStartMapping (name : String) (created : Bool) (reply : Option Reply) :
    Follows (.startMapping name (.transition created))
      (.next (.launch (.startMapping name created .checkRunning) reply))
  | launchStartLocalization (name : String) (reply : Option Reply) :
    Follows (.startLocalization name .transition)
      (.next (.launch (.startLocalization name .checkRunning) reply))
  | launchStopMapping (reply : Option Reply) :
    Follows .stopMapping (.next (.launch (.stopMapping (.stop .check)) reply))
  | launchSaveMap (map : String) (reply : Option Reply) :
    Follows (.saveMap (.path map)) (.next (.launch (.saveMap map .checkRunning) reply))
  | launchStopLocalization (reply : Option Reply) :
    Follows .stopLocalization (.next (.launch (.stopLocalization (.save .poseValid)) reply))
  | launchStopAfterFailure (mapping localization : Bool) (pc : StopAfterFailure) :
    Follows (.sensorTick (.claim mapping localization))
      (.next (.launch (.stopAfterFailure pc) none))
  | launchRecovery (reply : Option Reply) :
    Follows .recover (.next (.launch (.recovery (.checkRunning .mapping [])) reply))
  | launched (operation : Operation) (reply : Option Reply) :
    Follows (.launch operation reply) (.launched operation reply)
  | done (handler : Handler) (reply : Option Reply) : Follows handler (.done reply)
  | lastPoseEscaped (pc : SaveLastPose) (what : String) : Follows (.lastPoseTick pc) (.escaped what)
  | saveMapEscaped (map what : String) : Follows (.saveMap (.path map)) (.escaped what)

theorem Handler.follows (config : Config) (env : Env) (s : Shared) (handler : Handler) :
    handler.Follows (handler.step config env s).2 := by
  cases handler with
  | recover =>
    simp only [Handler.step, recoverStep]
    repeat' split
    all_goals constructor
  | createMap name pc =>
    cases pc <;> simp only [Handler.step, CreateMap.step] <;> split <;> constructor
  | deleteMap name pc =>
    cases pc <;> simp only [Handler.step, DeleteMap.step] <;> (repeat' split) <;> constructor
  | loadMap name pc =>
    cases pc <;> simp only [Handler.step, LoadMap.step] <;> (repeat' split) <;> constructor
  | startMapping name pc =>
    cases pc <;> simp only [Handler.step, StartMappingRequest.step, acquireForStart] <;>
      (repeat' split) <;> constructor
  | stopMapping =>
    simp only [Handler.step, stopMappingStep]
    repeat' split
    all_goals constructor
  | saveMap pc =>
    cases pc <;> simp only [Handler.step, SaveMapRequest.step] <;> (repeat' split) <;> constructor
  | startLocalization name pc =>
    cases pc <;> simp only [Handler.step, StartLocalizationRequest.step, acquireForStart] <;>
      (repeat' split) <;> constructor
  | stopLocalization =>
    simp only [Handler.step, stopLocalizationStep]
    repeat' split
    all_goals constructor
  | setInitialPose pose pc =>
    cases pc <;> simp only [Handler.step, SetInitialPose.step] <;> (repeat' split) <;> constructor
  | sensorTick pc =>
    cases pc <;> simp only [Handler.step, SensorTick.step, sensorSnapshot] <;>
      (repeat' split) <;> constructor
  | processTick pc =>
    cases pc <;> simp only [Handler.step, ProcessTick.step] <;> (repeat' split) <;> constructor
  | lastPoseTick pc =>
    simp only [Handler.step, lastPoseTickStep]
    split <;> constructor
  | qualityTick pc => cases pc <;> constructor
  | release reply => constructor
  | launch operation reply => constructor

theorem Handler.follows_of_step {config : Config} {env : Env} {s s' : Shared} {handler : Handler}
    {next : HandlerNext} (h : handler.step config env s = (s', next)) : handler.Follows next := by
  have hfollows := handler.follows config env s
  rwa [h] at hfollows

/-- The handlers that select a map own the token. -/
theorem Handler.holdsToken_of_mapWritten {handler : Handler} {name : String}
    (h : handler.mapWritten = some name) : handler.holdsToken = true := by
  unfold Handler.mapWritten at h
  split at h <;> first | rfl | cases h

/-! ## Adapter callbacks -/

/-- The transition a step of an adapter callback attempts. -/
def Callback.target : Callback → Option SystemState
  | .returnToRelocalizing => some .relocalizing
  | .confirmTransition => some .localized
  | _ => none

structure CallbackEffect (callback : Callback) (s s' : Shared) : Prop where
  state : StateEffect callback.target s.currentState s'.currentState
  token : s'.operationInProgress = s.operationInProgress
  processes : s'.processes = s.processes
  map : s'.currentMap = s.currentMap
  saves : ∀ request, Requested s'.adapter request → Requested s.adapter request
  sessionMap : s'.sessionMap = s.sessionMap

/-- An adapter callback moves the state and the adapter only, and requests no save. -/
theorem Callback.effect (config : Config) (env : Env) (s : Shared) (callback : Callback) :
    CallbackEffect callback s (callback.step config env s).1 := by
  cases callback with
  | returnToRelocalizing | confirmTransition =>
    exact ⟨stateEffect_transitionTo s _, by simp [Callback.step], by simp [Callback.step],
      by simp [Callback.step], by simp [Callback.step], by simp [Callback.step]⟩
  | initialPose message | rawOdometry message =>
    simp only [Callback.step]
    repeat' split
    all_goals exact ⟨Or.inl rfl, rfl, rfl, rfl, fun _ ↦ id, rfl⟩
  | correction message =>
    simp only [Callback.step, RelocalizationAdapter.acceptCorrection]
    repeat' split
    all_goals exact ⟨Or.inl rfl, rfl, rfl, rfl, fun _ ↦ id, rfl⟩
  | storePose pose =>
    simp only [Callback.step, RelocalizationAdapter.storeTrustedPose]
    split <;> exact ⟨Or.inl rfl, rfl, rfl, rfl, fun _ ↦ id, rfl⟩
  | resetForPose localized | resetQualityForPose localized | confirmState | confirmRunning
  | setLocalized | publishOdometry message copied localized | publishPose pose localized =>
    exact ⟨Or.inl rfl, rfl, rfl, rfl, fun _ ↦ id, rfl⟩

/-! ## Steps of the system -/

/-- A step in which no thread of the manager takes part. -/
structure EnvironmentEffect (s s' : Shared) : Prop where
  state : s'.currentState = s.currentState
  token : s'.operationInProgress = s.operationInProgress
  processes : s'.processes = s.processes ∨
    ∃ leader exitCode, s'.processes = (s.reap leader exitCode).processes
  map : s'.currentMap = s.currentMap
  data : SameData s'.adapter s.adapter
  saves : ∀ request, Requested s'.adapter request → Requested s.adapter request
  sessionMap : s'.sessionMap = s.sessionMap

/-- The ways in which the system moves. -/
inductive Sys.Move (config : Config) (s : Sys) : Action → Sys → Prop
  | call {request : Request} (hidle : s.handler = none) :
    s.Move config (.call request) { s with handler := some request.handler }
  | handlerNext {env : Env} {handler next : Handler} {shared : Shared}
    (hhandler : s.handler = some handler)
    (hstep : handler.step config env s.shared = (shared, .next next)) :
    s.Move config (.handler env) { s with shared := shared, handler := some next }
  | handlerDone {env : Env} {handler : Handler} {reply : Option Reply} {shared : Shared}
    (hhandler : s.handler = some handler)
    (hstep : handler.step config env s.shared = (shared, .done reply)) :
    s.Move config (.handler env)
      { s with shared := shared, handler := none, lastReply := reply.or s.lastReply }
  | handlerLaunch {env : Env} {handler : Handler} {operation : Operation} {reply : Option Reply}
    {shared : Shared} (hhandler : s.handler = some handler)
    (hstep : handler.step config env s.shared = (shared, .launched operation reply))
    (hended : s.operation = none) :
    s.Move config (.handler env)
      { s with
        shared := shared
        handler := none
        operation := some operation
        lastReply := reply.or s.lastReply }
  | handlerEscape {env : Env} {handler : Handler} {what : String} {shared : Shared}
    (hhandler : s.handler = some handler)
    (hstep : handler.step config env s.shared = (shared, .escaped what)) :
    s.Move config (.handler env) { s with shared := shared, handler := none, escaped := some what }
  | operation {env : Env} {operation : Operation} (hoperation : s.operation = some operation) :
    s.Move config (.operation env)
      { s with
        shared := (operation.step config env s.shared).1
        operation := (operation.step config env s.shared).2 }
  | deliver {id : ℕ} {message : AdapterMessage} (hfree : s.callbacks id = none) :
    s.Move config (.deliver id message) (s.setCallback id (some message.callback))
  | callback {id : ℕ} {env : Env} {callback : Callback}
    (hcallback : s.callbacks id = some callback) :
    s.Move config (.callback id env)
      { s with
        shared := (callback.step config env s.shared).1
        callbacks := Function.update s.callbacks id (callback.step config env s.shared).2 }
  | environment {a : Action} {shared : Shared} (heffect : EnvironmentEffect s.shared shared) :
    s.Move config a { s with shared := shared }

theorem Sys.shared_afterHandler {s s' : Sys} {r : Shared × HandlerNext}
    (h : s.afterHandler r = some s') : s'.shared = r.1 := by
  rcases r with ⟨shared, next⟩
  cases next <;> simp only [Sys.afterHandler] at h
  case launched =>
    split at h <;> cases h
    rfl
  all_goals
    cases h
    rfl

/-- An operation thread that runs is not replaced by a launch. -/
theorem Sys.operation_afterHandler {s s' : Sys} {r : Shared × HandlerNext} {operation : Operation}
    (hoperation : s.operation = some operation) (h : s.afterHandler r = some s') :
    s'.operation = some operation := by
  rcases r with ⟨shared, next⟩
  cases next <;> simp only [Sys.afterHandler, hoperation] at h
  case launched => cases h
  all_goals
    cases h
    rfl

theorem Sys.step_operation {config : Config} {env : Env} {s s' : Sys} {operation : Operation}
    (hoperation : s.operation = some operation) (h : s.step config (.operation env) = some s') :
    operation.step config env s.shared = (s'.shared, s'.operation) ∧ s'.handler = s.handler := by
  simp only [Sys.step, hoperation, Option.map_some, Option.some.injEq] at h
  subst h
  exact ⟨rfl, rfl⟩

theorem Sys.afterHandler_move {config : Config} {env : Env} {s s' : Sys} {handler : Handler}
    (hhandler : s.handler = some handler)
    (h : s.afterHandler (handler.step config env s.shared) = some s') :
    s.Move config (.handler env) s' := by
  rcases hstep : handler.step config env s.shared with ⟨shared, next⟩
  rw [hstep] at h
  cases next with
  | next next =>
    cases h
    exact .handlerNext hhandler hstep
  | done reply =>
    cases h
    exact .handlerDone hhandler hstep
  | launched operation reply =>
    simp only [Sys.afterHandler] at h
    split at h
    · cases h
    · rename_i hended
      cases h
      exact .handlerLaunch hhandler hstep hended
  | escaped what =>
    cases h
    exact .handlerEscape hhandler hstep

/-- What a step of a handler with a given end makes of the threads: the handler goes on, it ends,
or it hands its operation over to the operation thread. -/
inductive Sys.HandlerMove (s s' : Sys) (handler : Handler) : HandlerNext → Prop
  | next {next : Handler} (hhandler : s'.handler = some next)
    (hoperation : s'.operation = s.operation) : s.HandlerMove s' handler (.next next)
  | ended {r : HandlerNext} (hnext : ∀ next, r ≠ .next next)
    (hlaunched : ∀ launched reply, r ≠ .launched launched reply) (hhandler : s'.handler = none)
    (hoperation : s'.operation = s.operation) : s.HandlerMove s' handler r
  | launched {launched : Operation} {reply : Option Reply}
    (hlaunch : handler = .launch launched reply) (hended : s.operation = none)
    (hhandler : s'.handler = none) (hoperation : s'.operation = some launched) :
    s.HandlerMove s' handler (.launched launched reply)

theorem Sys.handlerMove_of_afterHandler {config : Config} {env : Env} {s s' : Sys}
    {handler : Handler} (h : s.afterHandler (handler.step config env s.shared) = some s') :
    ∃ r, handler.step config env s.shared = (s'.shared, r) ∧ s.HandlerMove s' handler r := by
  rcases hr : handler.step config env s.shared with ⟨shared, r⟩
  rw [hr] at h
  refine ⟨r, by rw [Sys.shared_afterHandler h], ?_⟩
  cases r with
  | next next =>
    cases h
    exact .next rfl rfl
  | done reply =>
    cases h
    exact .ended (by simp) (by simp) rfl rfl
  | launched launched reply =>
    simp only [Sys.afterHandler] at h
    split at h <;> cases h
    rename_i hended
    cases Handler.follows_of_step hr
    exact .launched rfl hended rfl rfl
  | escaped what =>
    cases h
    exact .ended (by simp) (by simp) rfl rfl

theorem Sys.handlerMove_of_step {config : Config} {env : Env} {s s' : Sys}
    (h : s.step config (.handler env) = some s') :
    ∃ handler r, s.handler = some handler ∧ handler.step config env s.shared = (s'.shared, r) ∧
      s.HandlerMove s' handler r := by
  obtain ⟨handler, hhandler, hnext⟩ := Option.bind_eq_some_iff.mp h
  obtain ⟨r, hr, hmove⟩ := Sys.handlerMove_of_afterHandler hnext
  exact ⟨handler, r, hhandler, hr, hmove⟩

theorem Sys.call_of_step {config : Config} {s s' : Sys} {request : Request}
    (h : s.step config (.call request) = some s') :
    s.handler = none ∧ s' = { s with handler := some request.handler } := by
  simp only [Sys.step, Sys.call] at h
  split at h
  · cases h
  · rename_i hbusy
    cases h
    exact ⟨by simp_all, rfl⟩

/-- The inversion of a step of the system. -/
theorem Sys.move_of_step {config : Config} {s s' : Sys} {a : Action}
    (h : s.step config a = some s') : s.Move config a s' := by
  cases a with
  | call request =>
    obtain ⟨hidle, rfl⟩ := Sys.call_of_step h
    exact .call hidle
  | handler env =>
    obtain ⟨handler, hhandler, hnext⟩ := Option.bind_eq_some_iff.mp h
    exact Sys.afterHandler_move hhandler hnext
  | operation env =>
    obtain ⟨operation, hoperation, rfl⟩ := Option.map_eq_some_iff.mp h
    exact .operation hoperation
  | deliver id message =>
    simp only [Sys.step] at h
    split at h
    · cases h
    · cases h
      exact .deliver (by simp_all)
  | callback id env =>
    obtain ⟨callback, hcallback, rfl⟩ := Option.map_eq_some_iff.mp h
    exact .callback hcallback
  | observe observation =>
    simp only [Sys.step] at h
    split at h
    · cases h
    · cases h
      exact .environment ⟨rfl, rfl, Or.inl rfl, rfl, SameData.refl _, fun _ ↦ id, rfl⟩
  | exit leader exitCode =>
    simp only [Sys.step] at h
    split at h
    · cases h
      exact .environment ⟨rfl, rfl, Or.inr ⟨leader, exitCode, rfl⟩, rfl, SameData.refl _,
        fun _ ↦ id, rfl⟩
    · cases h
  | writeMap bytes =>
    simp only [Sys.step] at h
    split at h
    · cases h
      exact .environment ⟨rfl, rfl, Or.inl rfl, rfl, SameData.refl _, fun _ ↦ id, rfl⟩
    · cases h
  | takeSave =>
    simp only [Sys.step] at h
    split at h
    · rename_i request hsaving hpending
      cases h
      refine .environment ⟨rfl, rfl, Or.inl rfl, rfl, ⟨rfl, rfl, rfl, rfl, rfl, rfl, rfl⟩,
        fun other hother ↦ ?_, rfl⟩
      rcases hother with hnone | hsome
      · cases hnone
      · exact Or.inl (hpending.trans hsome)
    · cases h
  | writeSave error =>
    obtain ⟨request, -, rfl⟩ := Option.map_eq_some_iff.mp h
    refine .environment ⟨rfl, rfl, Or.inl rfl, rfl, ⟨rfl, rfl, rfl, rfl, rfl, rfl, rfl⟩,
      fun other hother ↦ ?_, rfl⟩
    rcases hother with hpending | hnone
    · exact Or.inl hpending
    · cases hnone

/-! ## Callbacks that do not run -/

/-- Whether an action delivers a message to one of the callbacks, or none at all. -/
def Action.deliversTo (ids : List ℕ) : Action → Bool
  | .deliver id _ => decide (id ∈ ids)
  | _ => true

/-- A callback to which nothing is delivered does not run. -/
theorem callbacks_none {config : Config} (ids : List ℕ) {s : Sys}
    (h : Reaches (Sys.step config) (fun _ a ↦ a.deliversTo ids = true) Sys.Initial s) (id : ℕ)
    (hid : id ∉ ids) : s.callbacks id = none := by
  refine Reaches.invariant (P := fun s : Sys ↦ s.callbacks id = none)
    (fun s hinit ↦ by simp [hinit.callbacks]) (fun s a s' hs hok hstep ↦ ?_) h
  cases Sys.move_of_step hstep with
  | @deliver other message hfree =>
    have hne : id ≠ other := by
      rintro rfl
      exact hid (by simpa [Action.deliversTo] using hok)
    simpa [Sys.setCallback, hne] using hs
  | @callback other env callback hsome =>
    have hne : id ≠ other := by
      rintro rfl
      rw [hs] at hsome
      cases hsome
    simpa [hne] using hs
  | _ => exact hs

end SlamSystemManager.Manager
