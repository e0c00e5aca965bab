import SlamSystemManager.Manager.Token

/-!
# Leaders after a sensor failure

When a sensor failure moves an active SLAM state to ERROR, `updateSensorState` launches the stop of
the leaders only if no operation holds the token; later ticks see ERROR and do nothing. The
obligation to stop a leader therefore rests with the tick, or with the operation that is in
progress when the tick asks for the token. A start hands its leader over once its mode is entered,
and its last steps have no stop ahead.
-/

open TransitionSystem

namespace SlamSystemManager.Manager

/-! ## Names of selected maps -/

namespace ValidMap

/-- The selected map has a valid name, or none is selected. -/
def Valid (s : Shared) : Prop :=
  s.currentMap = "" ∨ MapManager.isValidMapName s.currentMap = true

theorem Valid.of_map {s s' : Shared} (h : s'.currentMap = s.currentMap) (hs : Valid s) :
    Valid s' := by
  rwa [Valid, h]

def operation : Option Operation → Prop
  | some (.stopLocalization (.save (.checkPath map))) => MapManager.isValidMapName map = true
  | _ => True

def handler : Handler → Prop
  | .loadMap name (.select _) => MapManager.isValidMapName name = true
  | .startMapping _ .checkLocalization | .startLocalization _ .checkMapping => True
  | .startMapping name _ | .startLocalization name _ => MapManager.isValidMapName name = true
  | .launch launched _ => operation (some launched)
  | _ => True

def outline : ProofOutline :=
  { operation := fun s o ↦ Valid s ∧ operation o
    handler := fun _ h ↦ handler h }

/-- `saveLastPose` reads the selected map once. -/
theorem read_of_checkPath {config : Config} {s s' : Shared} {pc : SaveLastPose} {map : String}
    (h : saveLastPoseStep config s pc = (s', .next (.checkPath map))) :
    s.currentMap ≠ "" ∧ map = s.currentMap := by
  cases pc <;> simp only [saveLastPoseStep] at h <;> (repeat' split at h) <;> cases h
  rename_i hread
  exact ⟨fun hnone ↦ hread (Or.inr hnone), rfl⟩

theorem stopLocalization_step (config : Config) (env : Env) {s : Shared} (hs : Valid s)
    (pc : StopLocalization) : operation (some (pc.step config env s).2) := by
  cases pc with
  | save pc =>
    simp only [StopLocalization.step, Operation.catchException]
    split
    · rename_i next hnext
      cases next with
      | checkPath map =>
        obtain ⟨hselected, rfl⟩ := read_of_checkPath hnext
        exact hs.resolve_left hselected
      | _ => trivial
    · trivial
    · trivial
  | stop stage =>
    simp only [StopLocalization.step]
    split <;> trivial
  | unselect =>
    simp only [StopLocalization.step]
    split <;> trivial
  | toWait | resetSession | resetQuality => trivial

theorem operation_step (config : Config) (env : Env) {s : Shared} (op : Operation)
    (hs : Valid s) :
    outline.operation (op.step config env s).1 (op.step config env s).2 := by
  refine op.step_rule config env s (fun _ _ ↦ ⟨hs, trivial⟩)
    (fun _ ↦ ⟨hs.of_map rfl, trivial⟩) fun s' next hnext _ hcontinues ↦ ⟨?_, ?_⟩
  · rcases hcontinues.effect.map with hsame | ⟨-, hcleared⟩
    · exact hs.of_map hsame
    · exact Or.inl hcleared
  · cases hcontinues.follows with
    | stopLocalization pc pc' =>
      obtain ⟨-, hpc⟩ := Prod.mk.inj hnext
      rw [← hpc]
      exact stopLocalization_step config env hs pc
    | _ => trivial

theorem handler_continues {config : Config} {env : Env} {s : Shared} {h : Handler}
    (hs : Valid s) (hassertion : handler h) : outline.Continues (h.step config env s) := by
  cases h with
  | loadMap name pc =>
    cases pc with
    | load =>
      simp only [Handler.step, LoadMap.step]
      repeat' split
      · trivial
      · trivial
      · rename_i hload
        exact MapManager.valid_of_loadMap hload
    | acquire =>
      simp only [Handler.step, LoadMap.step]
      split <;> trivial
    | select path => trivial
  | startMapping name pc =>
    by_cases hpc : pc = .checkLocalization
    · subst hpc
      simp only [Handler.step, StartMappingRequest.step]
      split_ifs with hname hrunning
      · trivial
      · trivial
      · exact (by simpa using hname : MapManager.isValidMapName name = true)
    · have hvalid : MapManager.isValidMapName name = true := by
        cases pc <;> first | exact hassertion | exact absurd rfl hpc
      refine ProofOutline.continues_of_follows (Handler.follows config env s _) ?_ (by simp)
      intro next hnext
      cases hnext with
      | startMapping name pc pc' => cases pc' <;> first | exact hvalid | trivial
      | _ => trivial
  | startLocalization name pc =>
    by_cases hpc : pc = .checkMapping
    · subst hpc
      simp only [Handler.step, StartLocalizationRequest.step]
      split_ifs with hname hrunning
      · trivial
      · trivial
      · exact (by simpa using hname : MapManager.isValidMapName name = true)
    · have hvalid : MapManager.isValidMapName name = true := by
        cases pc <;> first | exact hassertion | exact absurd rfl hpc
      refine ProofOutline.continues_of_follows (Handler.follows config env s _) ?_ (by simp)
      intro next hnext
      cases hnext with
      | startLocalization name pc pc' => cases pc' <;> first | exact hvalid | trivial
      | _ => trivial
  | launch operation reply => exact ⟨hs, hassertion⟩
  | _ =>
    refine ProofOutline.continues_of_follows (Handler.follows config env s _) ?_ (by simp)
    intro next hnext
    cases hnext <;> trivial

theorem valid_handler (config : Config) (env : Env) {s : Shared} {h : Handler}
    (hs : Valid s) (hassertion : handler h) : Valid (h.step config env s).1 := by
  rcases (h.effect config env s).map with hsame | hwritten
  · exact hs.of_map hsame
  · unfold Handler.mapWritten at hwritten
    split at hwritten <;> cases hwritten
    · exact Or.inr hassertion
    · exact Or.inr hassertion
    · exact Or.inl rfl
    · exact Or.inr hassertion
    · exact Or.inl rfl

theorem valid (config : Config) : outline.Valid config anyAction where
  begins s request := by cases request <;> trivial
  handler s env h _ _ hholds hsome :=
    have hassertion := hholds.handler h hsome
    ProofOutline.afterHandler_of
      ⟨valid_handler config env hholds.operation.1 hassertion, hholds.operation.2⟩
      (handler_continues hholds.operation.1 hassertion)
  operation s env op _ _ hholds _ := operation_step config env op hholds.operation.1
  handlerKept s env op h _ _ hholds _ hhandler := hholds.handler h hhandler
  interference s s' hinterference :=
    ⟨fun _ ho ↦ ⟨ho.1.of_map hinterference.map, ho.2⟩, fun _ hassertion ↦ hassertion⟩

end ValidMap

theorem Reachable.validMap {config : Config} {s : Sys} (h : Reachable config s) :
    ValidMap.outline.Holds s :=
  (ValidMap.valid config).reaches (fun _ hinit ↦ ⟨Or.inl hinit.map, trivial⟩) h

/-! ## Stops ahead -/

/-- Whether a start of mapping has forked its leader and stops it if MAPPING cannot be entered. -/
def StartMapping.stopAhead : StartMapping → Bool
  | .waitService | .stopTimedOut _ | .checkAlive | .started | .stopAborted _ => true
  | _ => false

def StartLocalization.stopAhead : StartLocalization → Bool
  | .poll _ | .pollAlive | .pollTopics | .stopTimedOut _ _ | .started | .stopAborted _ => true
  | _ => false

def SaveMap.stopAhead : SaveMap → Bool
  | .report _ _ _ | .checkState _ | .toWait => false
  | _ => true

/-- Whether an operation in ERROR is going to stop a leader. -/
def Operation.willStop (leader : Leader) : Operation → Bool
  | .startMapping _ _ pc => leader = .mapping && pc.stopAhead
  | .startLocalization _ pc => leader = .localization && pc.stopAhead
  | .stopMapping (.stop _) => leader = .mapping
  | .saveMap _ pc => leader = .mapping && pc.stopAhead
  | .stopLocalization (.save _) | .stopLocalization (.stop _) => leader = .localization
  | .stopAfterFailure (.stopMapping localizationRunning _) =>
    leader = .mapping || localizationRunning
  | .stopAfterFailure (.stopLocalization _) => leader = .localization
  | _ => false

/-- Whether the tick of the sensor timer is going to launch the stop of a leader alive, if it gets
the token. -/
def Handler.willStop (leader : Leader) : Handler → Bool
  | .sensorTick .mappingRunning => true
  | .sensorTick (.localizationRunning mapping) => leader = .localization || mapping
  | .sensorTick (.claim mapping localization) =>
    match leader with
    | .mapping => mapping
    | .localization => localization
  | .launch operation _ => operation.willStop leader
  | _ => false

/-- The leader whose end an operation waits for. -/
def Operation.waitsFor : Operation → Option Leader
  | .startMapping _ _ (.stopTimedOut .wait) | .startMapping _ _ (.stopAborted .wait)
  | .stopMapping (.stop .wait) | .saveMap _ (.stop _ _ .wait)
  | .stopAfterFailure (.stopMapping _ .wait) => some .mapping
  | .startLocalization _ (.stopTimedOut _ .wait) | .startLocalization _ (.stopAborted .wait)
  | .stopLocalization (.stop .wait) | .stopAfterFailure (.stopLocalization .wait) =>
    some .localization
  | .recovery (.stop leader _ .wait) => some leader
  | _ => none

/-- Every leader alive is one that the operation thread or the handler is going to stop. -/
def Sys.Covered (s : Sys) : Prop :=
  ∀ leader, s.shared.isRunning leader = true →
    s.operation.any (Operation.willStop leader) = true ∨
      s.handler.any (Handler.willStop leader) = true

/-! ## Runs in ERROR -/

/-- The state stays ERROR. -/
def staysInError (config : Config) (s : Sys) (a : Action) : Prop :=
  ∀ s', s.step config a = some s' → s'.shared.currentState = .error

/-- A leader alive whose end `stopProcess` waits for is reaped. -/
def stopSucceeds (s : Sys) : Action → Prop
  | .operation env => ∀ operation leader, s.operation = some operation →
      operation.waitsFor = some leader → s.shared.isRunning leader = true →
      env.throws = none ∧ env.available = true
  | _ => True

/-- A tick that asks for the token of a running operation finds the stop of every leader alive
ahead in it, and no exception ends an operation while a leader is alive that the tick does not
stop. -/
def leavesStop (s : Sys) : Action → Prop
  | .handler _ => ∀ mapping localization,
      s.handler = some (.sensorTick (.claim mapping localization)) →
      s.shared.operationInProgress = true → ∀ leader, s.shared.isRunning leader = true →
      s.operation.any (Operation.willStop leader) = true
  | .operation env => env.throws.isSome = true → s.operation.any Operation.isBody = true →
      ∀ leader, s.shared.isRunning leader = true →
      s.handler.any (Handler.willStop leader) = true
  | _ => True

namespace Orphans

/-! ## The operation thread -/

/-- After a step in which an operation keeps its stop ahead, or the leader is dead. -/
def StopKept (leader : Leader) (r : Shared × Operation) : Prop :=
  r.2.willStop leader = true ∨ r.1.isRunning leader = false

theorem startMapping_step (config : Config) {env : Env} {map : String} {created : Bool}
    {s : Shared} {pc : StartMapping} (hstate : s.currentState = .error)
    (hahead : pc.stopAhead = true)
    (hstop : (Operation.startMapping map created pc).waitsFor = some .mapping →
      s.isRunning .mapping = true → env.available = true) :
    StopKept .mapping (pc.step config env map created s) := by
  cases pc with
  | waitService =>
    simp only [StartMapping.step]
    split <;> exact Or.inl rfl
  | stopTimedOut stage =>
    simp only [StartMapping.step]
    split
    · exact Or.inl rfl
    · rename_i hended
      exact Or.inr (dead_of_stopStep_end hended fun hwait ↦ hstop (by rw [hwait]; rfl))
  | checkAlive =>
    simp only [StartMapping.step]
    split
    · exact Or.inl rfl
    · rename_i hdead
      exact Or.inr (by simpa using hdead)
  | started =>
    simp only [StartMapping.step, hstate]
    exact Or.inl rfl
  | stopAborted stage =>
    simp only [StartMapping.step]
    split
    · exact Or.inl rfl
    · rename_i hended
      exact Or.inr (dead_of_stopStep_end hended fun hwait ↦ hstop (by rw [hwait]; rfl))
  | _ => cases hahead

theorem startLocalization_step (config : Config) {env : Env} {map : String} {s : Shared}
    {pc : StartLocalization} (hstate : s.currentState = .error) (hahead : pc.stopAhead = true)
    (hstop : (Operation.startLocalization map pc).waitsFor = some .localization →
      s.isRunning .localization = true → env.available = true) :
    StopKept .localization (pc.step config env map s) := by
  cases pc with
  | poll | pollTopics =>
    simp only [StartLocalization.step]
    split <;> exact Or.inl rfl
  | pollAlive =>
    simp only [StartLocalization.step]
    split
    · exact Or.inl rfl
    · rename_i hdead
      exact Or.inr (by simpa using hdead)
  | stopTimedOut missing stage =>
    simp only [StartLocalization.step]
    split
    · exact Or.inl rfl
    · rename_i hended
      exact Or.inr (dead_of_stopStep_end hended fun hwait ↦ hstop (by rw [hwait]; rfl))
  | started =>
    simp only [StartLocalization.step, hstate]
    exact Or.inl rfl
  | stopAborted stage =>
    simp only [StartLocalization.step]
    split
    · exact Or.inl rfl
    · rename_i hended
      exact Or.inr (dead_of_stopStep_end hended fun hwait ↦ hstop (by rw [hwait]; rfl))
  | _ => cases hahead

theorem stopMapping_step {env : Env} {s : Shared} {stage : StopStage}
    (hstop : (Operation.stopMapping (.stop stage)).waitsFor = some .mapping →
      s.isRunning .mapping = true → env.available = true) :
    StopKept .mapping (StopMapping.step env s (.stop stage)) := by
  simp only [StopMapping.step]
  split
  · exact Or.inl rfl
  all_goals
    rename_i hended
    exact Or.inr (dead_of_stopStep_end hended fun hwait ↦ hstop (by rw [hwait]; rfl))

theorem saveMap_step (config : Config) {env : Env} {map : String} {s : Shared} {pc : SaveMap}
    (hahead : pc.stopAhead = true)
    (hstop : (Operation.saveMap map pc).waitsFor = some .mapping →
      s.isRunning .mapping = true → env.available = true) :
    StopKept .mapping (pc.step config env map s) := by
  cases pc with
  | stop saved saveError stage =>
    simp only [SaveMap.step]
    split
    · exact Or.inl rfl
    · rename_i hended
      exact Or.inr (dead_of_stopStep_end hended fun hwait ↦ hstop (by rw [hwait]; rfl))
  | report | checkState | toWait => cases hahead
  | checkRunning | serviceReady | removeOutput | request | checkOutput | markSaved =>
    simp only [SaveMap.step]
    repeat' split
    all_goals exact Or.inl rfl

theorem stopLocalization_step (config : Config) {env : Env} {s : Shared} {pc : StopLocalization}
    (hahead : (Operation.stopLocalization pc).willStop .localization = true)
    (hvalid : ∀ map, pc = .save (.checkPath map) → MapManager.isValidMapName map = true)
    (hstop : (Operation.stopLocalization pc).waitsFor = some .localization →
      s.isRunning .localization = true → env.available = true) :
    StopKept .localization (pc.step config env s) := by
  cases pc with
  | save pc =>
    simp only [StopLocalization.step]
    split
    · exact Or.inl rfl
    · exact Or.inl rfl
    · rename_i hthrows
      cases pc <;> simp only [saveLastPoseStep] at hthrows <;> (repeat' split at hthrows) <;>
        cases hthrows
      rename_i map _ hpath
      rw [MapManager.getMapPath_of_valid (hvalid map rfl)] at hpath
      cases hpath
  | stop stage =>
    simp only [StopLocalization.step]
    split
    · exact Or.inl rfl
    all_goals
      rename_i hended
      exact Or.inr (dead_of_stopStep_end hended fun hwait ↦ hstop (by rw [hwait]; rfl))
  | unselect | toWait | resetSession | resetQuality => cases hahead

theorem stopAfterFailure_step {env : Env} {s : Shared} {pc : StopAfterFailure} {leader : Leader}
    (hahead : (Operation.stopAfterFailure pc).willStop leader = true)
    (hstop : (Operation.stopAfterFailure pc).waitsFor = some leader →
      s.isRunning leader = true → env.available = true) :
    StopKept leader (pc.step env s) := by
  cases pc with
  | stopMapping localizationRunning stage =>
    simp only [StopAfterFailure.step]
    split
    · exact Or.inl hahead
    · rename_i hended
      cases leader with
      | mapping =>
        exact Or.inr (dead_of_stopStep_end hended fun hwait ↦ hstop (by rw [hwait]; rfl))
      | localization =>
        have hrunning : localizationRunning = true := by simpa [Operation.willStop] using hahead
        rw [hrunning]
        exact Or.inl rfl
  | stopLocalization stage =>
    have hleader : leader = .localization := by simpa [Operation.willStop] using hahead
    subst hleader
    simp only [StopAfterFailure.step]
    split
    · exact Or.inl rfl
    · rename_i hended
      exact Or.inr (dead_of_stopStep_end hended fun hwait ↦ hstop (by rw [hwait]; rfl))

/-- An operation in ERROR keeps the stop of a leader ahead until the leader is dead. -/
theorem willStop_run {config : Config} {env : Env} {s : Shared} {op : Operation} {leader : Leader}
    (hstate : s.currentState = .error) (hahead : op.willStop leader = true)
    (hvalid : ValidMap.operation (some op))
    (hstop : op.waitsFor = some leader → s.isRunning leader = true → env.available = true)
    (hrunning : (op.run config env s).1.isRunning leader = true) :
    (op.run config env s).2.any (Operation.willStop leader) = true := by
  have hkept {r : Shared × Operation} (h : StopKept leader r)
      (hrunning : r.1.isRunning leader = true) : r.2.willStop leader = true := by
    apply h.resolve_right
    rw [hrunning]
    simp
  cases op with
  | startMapping map created pc =>
    simp only [Operation.willStop, Bool.and_eq_true, decide_eq_true_eq] at hahead
    obtain ⟨rfl, hahead⟩ := hahead
    exact hkept (startMapping_step config hstate hahead hstop) hrunning
  | startLocalization map pc =>
    simp only [Operation.willStop, Bool.and_eq_true, decide_eq_true_eq] at hahead
    obtain ⟨rfl, hahead⟩ := hahead
    exact hkept (startLocalization_step config hstate hahead hstop) hrunning
  | stopMapping pc =>
    cases pc with
    | stop stage =>
      simp only [Operation.willStop, decide_eq_true_eq] at hahead
      subst hahead
      exact hkept (stopMapping_step hstop) hrunning
    | unselect | toWait => cases hahead
  | saveMap map pc =>
    simp only [Operation.willStop, Bool.and_eq_true, decide_eq_true_eq] at hahead
    obtain ⟨rfl, hahead⟩ := hahead
    exact hkept (saveMap_step config hahead hstop) hrunning
  | stopLocalization pc =>
    have hleader : leader = .localization := by
      cases pc <;> simp_all [Operation.willStop]
    subst hleader
    refine hkept (stopLocalization_step config hahead (fun map hpc ↦ ?_) hstop) hrunning
    subst hpc
    exact hvalid
  | stopAfterFailure pc => exact hkept (stopAfterFailure_step hahead hstop) hrunning
  | recovery | fail | enterError | finish => cases hahead

theorem run_of_forks (config : Config) (env : Env) (s : Shared) {op : Operation} {leader : Leader}
    {map : String} (hforks : op.forks = some (leader, map)) :
    (op.run config env s).1 = s ∨
      ((op.run config env s).1 = s.fork leader map ∧
        (op.run config env s).2.any (Operation.willStop leader) = true) := by
  cases op with
  | startMapping name created pc =>
    cases pc with
    | startProcess =>
      cases hforks
      simp only [Operation.run, StartMapping.step]
      repeat' split
      · exact Or.inl rfl
      · exact Or.inl rfl
      · exact Or.inr ⟨rfl, rfl⟩
    | _ => cases hforks
  | startLocalization name pc =>
    cases pc with
    | startProcess =>
      cases hforks
      simp only [Operation.run, StartLocalization.step]
      repeat' split
      · exact Or.inl rfl
      · exact Or.inl rfl
      · exact Or.inr ⟨rfl, rfl⟩
    | _ => cases hforks
  | _ => cases hforks

/-- An operation that forks a leader is going to stop it. -/
theorem willStop_of_forked {config : Config} {env : Env} {s : Shared} {op : Operation}
    {leader : Leader} (hbefore : s.isRunning leader = false)
    (hafter : (op.run config env s).1.isRunning leader = true) :
    (op.run config env s).2.any (Operation.willStop leader) = true := by
  have hnotWanes (hwanes : Wanes s (op.run config env s).1) : False := by
    rw [hwanes.dead hbefore] at hafter
    cases hafter
  cases hforks : op.forks with
  | none =>
    refine (hnotWanes ?_).elim
    by_cases hfinish : op = .finish
    · subst hfinish
      exact .of_processes rfl
    · obtain ⟨s', next, hnext, hcontinues⟩ := Operation.run_effect config env s hfinish
      rw [hnext]
      exact .of_effect (hforks ▸ hcontinues.effect.process)
  | some started =>
    obtain ⟨forked, map⟩ := started
    rcases run_of_forks config env s hforks with hsame | ⟨hfork, hstop⟩
    · exact (hnotWanes (.of_processes (by rw [hsame]))).elim
    · rw [hfork, isRunning_fork] at hafter
      split_ifs at hafter with hleader
      · rw [hleader]
        exact hstop
      · rw [hbefore] at hafter
        cases hafter

theorem covered_operation {config : Config} {env : Env} {s : Sys} {op : Operation}
    (hsome : s.operation = some op) (hstate : s.shared.currentState = .error)
    (hvalid : ValidMap.operation (some op)) (hcovered : s.Covered)
    (hstop : stopSucceeds s (.operation env)) (hleaves : leavesStop s (.operation env))
    {leader : Leader}
    (hrunning : (op.step config env s.shared).1.isRunning leader = true) :
    (op.step config env s.shared).2.any (Operation.willStop leader) = true ∨
      s.handler.any (Handler.willStop leader) = true := by
  rcases op.step_cases config env s.shared with
    ⟨hrun, hthrows⟩ | ⟨hbody, hthrows, code, what, hthrow⟩
  · rw [hrun] at hrunning ⊢
    by_cases hbefore : s.shared.isRunning leader = true
    · rcases hcovered leader hbefore with hahead | htick
      · rw [hsome, Option.any_some] at hahead
        exact Or.inl (willStop_run hstate hahead hvalid
          (fun hwaits _ ↦ (hstop op leader hsome hwaits hbefore).2) hrunning)
      · exact Or.inr htick
    · exact Or.inl (willStop_of_forked (by simpa using hbefore) hrunning)
  · rw [hthrow] at hrunning
    exact Or.inr (hleaves hthrows (by rw [hsome]; exact hbody) leader hrunning)

/-! ## The tick -/

theorem willStop_next {config : Config} {env : Env} {s s' : Shared} {h next : Handler}
    {leader : Leader} (hahead : h.willStop leader = true) (hrunning : s.isRunning leader = true)
    (hnext : h.step config env s = (s', .next next)) : next.willStop leader = true := by
  cases h with
  | sensorTick pc =>
    cases pc with
    | mappingRunning =>
      cases hnext
      cases leader <;> simp [Handler.willStop, hrunning]
    | localizationRunning mapping =>
      cases hnext
      cases leader <;> simp_all [Handler.willStop]
    | claim mapping localization =>
      simp only [Handler.step, SensorTick.step] at hnext
      split at hnext
      · cases hnext
        cases leader <;> cases mapping <;> simp_all [Handler.willStop, Operation.willStop]
      · cases hnext
    | _ => cases hahead
  | launch operation reply => cases hnext
  | _ => cases hahead

/-- A tick that is going to stop a leader ends without a launch only when the token is taken. -/
theorem token_of_done {config : Config} {env : Env} {s s' : Shared} {h : Handler}
    {reply : Option Reply} {leader : Leader} (hahead : h.willStop leader = true)
    (hdone : h.step config env s = (s', .done reply)) :
    s.operationInProgress = true ∧
      ∃ mapping localization, h = .sensorTick (.claim mapping localization) := by
  cases h with
  | sensorTick pc =>
    cases pc with
    | claim mapping localization =>
      refine ⟨?_, mapping, localization, rfl⟩
      simp only [Handler.step, SensorTick.step] at hdone
      split at hdone
      · cases hdone
      · cases leader <;> simp_all [Handler.willStop]
    | mappingRunning | localizationRunning => cases hdone
    | _ => cases hahead
  | launch operation reply => cases hdone
  | _ => cases hahead

/-- The stop of a leader alive stays ahead. -/
theorem covered_step {config : Config} {s s' : Sys} {a : Action}
    (hvalid : ValidMap.outline.Holds s) (hstate : s.shared.currentState = .error)
    (h : s.Covered) (hstop : stopSucceeds s a) (hleaves : leavesStop s a)
    (hstep : s.step config a = some s') : s'.Covered := by
  intro leader hrunning
  have hhandler {env : Env} {handler : Handler} {shared : Shared} {next : HandlerNext}
      (hnext : handler.step config env s.shared = (shared, next))
      (hrunning : shared.isRunning leader = true) : s.shared.isRunning leader = true := by
    exact Wanes.of_processes (Handler.effect_of_step hnext).processes leader hrunning
  cases Sys.move_of_step hstep with
  | @call request hidle =>
    rcases h leader hrunning with hahead | htick
    · exact Or.inl hahead
    · rw [hidle] at htick
      cases htick
  | @handlerNext env handler next shared hsome hnext =>
    have hbefore := hhandler hnext hrunning
    rcases h leader hbefore with hahead | htick
    · exact Or.inl hahead
    · rw [hsome] at htick
      exact Or.inr (willStop_next htick hbefore hnext)
  | @handlerDone env handler reply shared hsome hnext =>
    have hbefore := hhandler hnext hrunning
    rcases h leader hbefore with hahead | htick
    · exact Or.inl hahead
    · rw [hsome] at htick
      obtain ⟨htaken, mapping, localization, rfl⟩ := token_of_done htick hnext
      exact Or.inl (hleaves mapping localization hsome htaken leader hbefore)
  | @handlerLaunch env handler operation reply shared hsome hnext hended =>
    rcases h leader (hhandler hnext hrunning) with hahead | htick
    · rw [hended] at hahead
      cases hahead
    · cases Handler.follows_of_step hnext
      rw [hsome] at htick
      exact Or.inl htick
  | @handlerEscape env handler what shared hsome hnext =>
    rcases h leader (hhandler hnext hrunning) with hahead | htick
    · exact Or.inl hahead
    · have hfollows := Handler.follows_of_step hnext
      rw [hsome] at htick
      cases hfollows <;> cases htick
  | @operation env operation hsome =>
    have hassertion := hvalid.operation.2
    rw [hsome] at hassertion
    exact covered_operation hsome hstate hassertion h hstop hleaves hrunning
  | deliver => exact h leader hrunning
  | @callback id env callback hsome =>
    have heffect := callback.effect config env s.shared
    exact h leader (Wanes.of_processes heffect.processes leader hrunning)
  | environment heffect =>
    apply h leader
    rcases heffect.processes with hsame | ⟨other, exitCode, hreap⟩
    · exact Wanes.of_processes hsame leader hrunning
    · exact Wanes.of_reap hreap leader hrunning

/-! ## After the tick -/

/-- Where the handlers stand that begin in ERROR and leave the state alone. -/
def beginsInError : Handler → Bool
  | .startMapping _ .checkLocalization | .startMapping _ .checkMapping
  | .startMapping _ .saveService | .startMapping _ .acquire => true
  | .startLocalization _ .checkMapping | .startLocalization _ .saveService
  | .startLocalization _ .checkLocalization | .startLocalization _ .acquire => true
  | .startMapping _ _ | .startLocalization _ _ => false
  | .saveMap pc => pc = .acquire
  | .sensorTick (.reportFailure _) | .sensorTick .enterError | .sensorTick .mappingRunning
  | .sensorTick (.localizationRunning _) | .sensorTick (.claim _ _) => false
  | .launch _ _ => false
  | _ => true

theorem willStop_of_beginsInError {h : Handler} (hbegins : beginsInError h = true)
    (leader : Leader) : h.willStop leader = false := by
  cases h with
  | sensorTick pc => cases pc <;> first | rfl | cases hbegins
  | launch operation reply => cases hbegins
  | _ => rfl

theorem beginsInError_handler (request : Request) : beginsInError request.handler = true := by
  cases request <;> rfl

/-- In ERROR the start requests are refused. -/
theorem refused_acquireForStart {config : Config} {label : String} {s s' : Shared}
    {next next' : Handler} (hstate : s.currentState = .error) :
    acquireForStart config label s next ≠ (s', .next next') := by
  simp [acquireForStart, hstate, refuse]

theorem beginsInError_next {config : Config} {env : Env} {s s' : Shared} {h next : Handler}
    (hstate : s.currentState = .error) (hafter : s'.currentState = .error)
    (hbegins : beginsInError h = true) (hnext : h.step config env s = (s', .next next)) :
    beginsInError next = true := by
  cases Handler.follows_of_step hnext with
  | startMapping name pc pc' =>
    cases pc with
    | checkLocalization | checkMapping | saveService =>
      simp only [Handler.step, StartMappingRequest.step] at hnext
      repeat' split at hnext
      all_goals cases hnext
      all_goals rfl
    | acquire => exact absurd hnext (refused_acquireForStart hstate)
    | _ => cases hbegins
  | startLocalization name pc pc' =>
    cases pc with
    | checkMapping | saveService | checkLocalization =>
      simp only [Handler.step, StartLocalizationRequest.step] at hnext
      repeat' split at hnext
      all_goals cases hnext
      all_goals rfl
    | acquire => exact absurd hnext (refused_acquireForStart hstate)
    | _ => cases hbegins
  | saveMap pc pc' =>
    cases pc with
    | acquire => simp [Handler.step, SaveMapRequest.step, hstate, refuse] at hnext
    | _ => cases hbegins
  | sensorTick pc pc' =>
    cases pc with
    | snapshot status now =>
      simp only [Handler.step, SensorTick.step, sensorSnapshot, hstate] at hnext
      split at hnext
      · cases hnext
      · simp [SystemState.isActiveSlamState, SystemState.isMappingState,
          SystemState.isLocalizationState] at hnext
    | readStatus | clearError | toReady =>
      cases hnext
      all_goals rfl
    | toWait => cases hnext
    | restart status =>
      simp only [Handler.step, SensorTick.step] at hnext
      split at hnext <;> cases hnext
      rfl
    | reportWaiting status =>
      simp only [Handler.step, SensorTick.step] at hnext
      split at hnext <;> cases hnext
    | _ => cases hbegins
  | launchStartMapping | launchStartLocalization | launchSaveMap | launchStopAfterFailure =>
    cases hbegins
  | launchStopMapping => simp [Handler.step, stopMappingStep, hstate, refuse] at hnext
  | launchStopLocalization =>
    simp [Handler.step, stopLocalizationStep, hstate, refuse,
      SystemState.isLocalizationState] at hnext
  | launchRecovery =>
    have hafter' : (s.transitionTo .recovering).currentState = .error := by
      simp only [Handler.step, recoverStep] at hnext
      split_ifs at hnext <;> cases hnext
      exact hafter
    rw [currentState_transitionTo, hstate] at hafter'
    cases hafter'
  | createMap | deleteMap | loadMap | setInitialPose | processTick | lastPoseTick | qualityTick
  | release => rfl

theorem beginsInError_step {config : Config} {s s' : Sys} {a : Action}
    (hstate : s.shared.currentState = .error) (hafter : s'.shared.currentState = .error)
    (h : ∀ handler, s.handler = some handler → beginsInError handler = true)
    (hstep : s.step config a = some s') :
    ∀ handler, s'.handler = some handler → beginsInError handler = true := by
  intro handler hsome
  cases Sys.move_of_step hstep with
  | @call request hidle =>
    cases hsome
    exact beginsInError_handler request
  | @handlerNext env before next shared hbefore hnext =>
    cases hsome
    exact beginsInError_next hstate hafter (h before hbefore) hnext
  | handlerDone | handlerLaunch | handlerEscape => cases hsome
  | _ => exact h handler hsome

end Orphans

/-! ## Runs after the failure -/

/-- A run in ERROR in which every `stopProcess` succeeds and no stop is skipped. -/
def endsLeaders (config : Config) (s : Sys) (a : Action) : Prop :=
  staysInError config s a ∧ stopSucceeds s a ∧ leavesStop s a

/-- What holds along such a run. -/
structure Sys.Failed (config : Config) (s : Sys) : Prop where
  reachable : Reachable config s
  state : s.shared.currentState = .error
  covered : s.Covered

theorem Sys.Failed.step {config : Config} {s s' : Sys} {a : Action} (h : s.Failed config)
    (hok : endsLeaders config s a) (hstep : s.step config a = some s') : s'.Failed config :=
  ⟨h.reachable.tail trivial hstep, hok.1 s' hstep,
    Orphans.covered_step h.reachable.validMap h.state h.covered hok.2.1 hok.2.2 hstep⟩

theorem failed_of_enterError {config : Config} {s s' : Sys} {env : Env} (h : Reachable config s)
    (htick : s.handler = some (.sensorTick .enterError))
    (hactive : s.shared.currentState.isActiveSlamState = true)
    (hstep : s.step config (.handler env) = some s') : s'.Failed config := by
  obtain ⟨handler, hsome, hnext⟩ := Option.bind_eq_some_iff.mp hstep
  cases htick.symm.trans hsome
  cases hnext
  refine ⟨h.tail trivial hstep, ?_, fun leader _ ↦ Or.inr rfl⟩
  show (s.shared.transitionTo .error).currentState = .error
  rw [currentState_transitionTo, if_pos]
  revert hactive
  cases s.shared.currentState <;> decide

/-- No orphaned process: when a sensor failure has moved an active state to ERROR, the tick that did
so and the operations in progress have finished and the state is still ERROR, neither leader is
alive, provided that no stop is skipped. -/
theorem no_leader_after_failure (config : Config) (s s₀ s₁ s₂ : Sys) (env : Env)
    (h : Reachable config s) (htick : s.handler = some (.sensorTick .enterError))
    (hactive : s.shared.currentState.isActiveSlamState = true)
    (hstep : s.step config (.handler env) = some s₀)
    (hticking : Steps (Sys.step config) (endsLeaders config) s₀ s₁) (hdone : s₁.handler = none)
    (hrun : Steps (Sys.step config) (endsLeaders config) s₁ s₂) (hended : s₂.operation = none)
    (leader : Leader) : s₂.shared.isRunning leader = false := by
  have hfailed : s₁.Failed config :=
    hticking.invariant (fun _ _ _ hs hok hnext ↦ hs.step hok hnext)
      (failed_of_enterError h htick hactive hstep)
  obtain ⟨hend, hbegins⟩ := hrun.invariant
    (P := fun s ↦ s.Failed config ∧
      ∀ handler, s.handler = some handler → Orphans.beginsInError handler = true)
    (fun s a s' hs hok hnext ↦ ⟨hs.1.step hok hnext,
      Orphans.beginsInError_step hs.1.state (hok.1 s' hnext) hs.2 hnext⟩)
    ⟨hfailed, by simp [hdone]⟩
  by_contra hrunning
  rcases hend.covered leader (by simpa using hrunning) with hahead | htick
  · rw [hended] at hahead
    cases hahead
  · obtain ⟨handler, hsome, htick⟩ := (Option.any_eq_true _ _).mp htick
    rw [Orphans.willStop_of_beginsInError (hbegins handler hsome)] at htick
    cases htick

/-! ### Replays -/

/-- Whether a step ends in ERROR and, if it is one of the operation thread, finds what it asks for
and does not throw. -/
def Sys.stopsInError (config : Config) (s : Sys) (a : Action) : Bool :=
  ((s.step config a).any fun s' ↦ decide (s'.shared.currentState = .error)) &&
    match a with
    | .operation env => env.throws.isNone && env.available
    | _ => true

/-- Whether a step is a tick that asks for a taken token. -/
def Sys.asksTakenToken (s : Sys) : Action → Bool
  | .handler _ =>
    match s.handler with
    | some (.sensorTick (.claim _ _)) => s.shared.operationInProgress
    | _ => false
  | _ => false

theorem assumed_of_stopsInError {config : Config} {s : Sys} {a : Action}
    (h : s.stopsInError config a = true) : staysInError config s a ∧ stopSucceeds s a := by
  simp only [Sys.stopsInError, Bool.and_eq_true] at h
  obtain ⟨hstate, hstop⟩ := h
  constructor
  · intro s' hstep
    simpa [hstep] using hstate
  · cases a with
    | operation env =>
      intro operation leader _ _ _
      simpa using hstop
    | _ => trivial

theorem endsLeaders_of_stopsInError {config : Config} {s : Sys} {a : Action}
    (h : s.stopsInError config a = true) (hasks : s.asksTakenToken a = false) :
    endsLeaders config s a := by
  refine ⟨(assumed_of_stopsInError h).1, (assumed_of_stopsInError h).2, ?_⟩
  cases a with
  | handler env =>
    intro mapping localization hsome htaken
    simp [Sys.asksTakenToken, hsome, htaken] at hasks
  | operation env =>
    intro hthrows
    simp [Sys.stopsInError, Option.isSome_iff_ne_none.mp hthrows] at h
  | _ => trivial

/-- Whether a tick is about to lead from an active state to ERROR. -/
def Sys.losesActive (s : Sys) : Bool :=
  match s.handler with
  | some (.sensorTick .enterError) => s.shared.currentState.isActiveSlamState
  | _ => false

theorem of_losesActive {s : Sys} (h : s.losesActive = true) :
    s.handler = some (.sensorTick .enterError) ∧
      s.shared.currentState.isActiveSlamState = true := by
  unfold Sys.losesActive at h
  split at h
  · exact ⟨by assumption, h⟩
  · cases h

/-- Sensors lost when the start of localization has finished: the tick launches the stop. -/
theorem no_leader_after_failure_relocalizing :
    ∃ s s₀ s₂ : Sys, s.handler = some (.sensorTick .enterError) ∧
      s.shared.isRunning .localization = true ∧ s.step {} (.handler {}) = some s₀ ∧
      Steps (Sys.step {}) anyAction s₀ s₂ ∧ s₂.shared.isRunning .localization = false := by
  obtain ⟨s, hreach, htest⟩ := exists_of_exec {} (storedMaps ["m"])
    (toWaitMode ++ launchLocalization "m" ++ enterRelocalizing ++
      List.replicate 2 (.operation {}) ++ sensorLoss 3)
    (fun s ↦ s.losesActive && s.shared.isRunning .localization &&
      (s.step {} (.handler {})).any fun s₀ : Sys ↦
        (execWith (Sys.step {}) (fun s a ↦ s.stopsInError {} a && !s.asksTakenToken a) s₀
          (List.replicate 4 (.handler {}))).any fun s₁ : Sys ↦ s₁.handler.isNone &&
            (execWith (Sys.step {}) (fun s a ↦ s.stopsInError {} a && !s.asksTakenToken a) s₁
              (List.replicate 4 (.operation {}))).any fun s₂ : Sys ↦ s₂.operation.isNone)
    (by decide +kernel)
  simp only [Bool.and_eq_true, Option.any_eq_true, Option.isNone_iff_eq_none] at htest
  obtain ⟨⟨hloses, hrunning⟩, s₀, hstep, s₁, hticking, hdone, s₂, hrun, hended⟩ := htest
  obtain ⟨hhandler, hactive⟩ := of_losesActive hloses
  have hpasses (s : Sys) (a : Action)
      (h : (s.stopsInError {} a && !s.asksTakenToken a) = true) : endsLeaders {} s a := by
    simp only [Bool.and_eq_true, Bool.not_eq_true'] at h
    exact endsLeaders_of_stopsInError h.1 h.2
  have hticking := steps_of_execWith hpasses hticking
  have hrun := steps_of_execWith hpasses hrun
  exact ⟨s, s₀, s₂, hhandler, hrunning, hstep, (hticking.trans hrun).mono fun _ _ _ ↦ trivial,
    no_leader_after_failure {} s s₀ s₁ s₂ {} hreach hhandler hactive hstep hticking hdone hrun
      hended .localization⟩

/-- Sensors lost while the start of localization loads the last pose: the tick finds the token
taken, and the operation ends without a stop. -/
theorem leader_after_failure :
    ∃ s s₀ s₁ s₂ : Sys, Reachable {} s ∧ s.handler = some (.sensorTick .enterError) ∧
      s.shared.currentState.isActiveSlamState = true ∧ s.step {} (.handler {}) = some s₀ ∧
      Steps (Sys.step {}) (fun s a ↦ staysInError {} s a ∧ stopSucceeds s a) s₀ s₁ ∧
      s₁.handler = none ∧
      Steps (Sys.step {}) (fun s a ↦ staysInError {} s a ∧ stopSucceeds s a) s₁ s₂ ∧
      s₂.operation = none ∧ s₂.shared.isRunning .localization = true := by
  obtain ⟨s, hreach, htest⟩ := exists_of_exec {} (storedMaps ["m"])
    (toWaitMode ++ launchLocalization "m" ++ enterRelocalizing ++ sensorLoss 3)
    (fun s ↦ s.losesActive &&
      (s.step {} (.handler {})).any fun s₀ : Sys ↦
        (execWith (Sys.step {}) (fun s a ↦ s.stopsInError {} a) s₀
          (List.replicate 3 (.handler {}))).any fun s₁ : Sys ↦ s₁.handler.isNone &&
            (execWith (Sys.step {}) (fun s a ↦ s.stopsInError {} a) s₁
              (List.replicate 2 (.operation {}))).any fun s₂ : Sys ↦
                s₂.operation.isNone && s₂.shared.isRunning .localization)
    (by decide +kernel)
  simp only [Bool.and_eq_true, Option.any_eq_true, Option.isNone_iff_eq_none] at htest
  obtain ⟨hloses, s₀, hstep, s₁, hticking, hdone, s₂, hrun, hended, hrunning⟩ := htest
  obtain ⟨hhandler, hactive⟩ := of_losesActive hloses
  exact ⟨s, s₀, s₁, s₂, hreach, hhandler, hactive, hstep,
    steps_of_execWith (fun _ _ hpasses ↦ assumed_of_stopsInError hpasses) hticking, hdone,
    steps_of_execWith (fun _ _ hpasses ↦ assumed_of_stopsInError hpasses) hrun, hended, hrunning⟩

end SlamSystemManager.Manager
