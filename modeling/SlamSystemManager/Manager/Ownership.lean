import SlamSystemManager.Manager.Token

/-!
# The discipline of the operation token

The token is taken exactly while one owner exists. What is left beyond exclusion is that the token
never leaks: `handleSaveMap` asks for the path of the selected map after its acquisition, outside
every handler of exceptions, so the map selected in MAPPING has to have a valid name.
-/

open TransitionSystem

namespace SlamSystemManager.Manager

/-! ## The map selected in MAPPING -/

/-- The map selected in MAPPING has a valid name. -/
def Shared.Mapped (s : Shared) : Prop :=
  s.currentState = .mapping → MapManager.isValidMapName s.currentMap = true

namespace SelectedMap

def operation (s : Shared) : Option Operation → Prop
  | some (.startMapping _ _ (.stopAborted _)) => s.Mapped
  | some (.startMapping _ _ (.cleanup _)) => s.currentState ≠ .mapping
  | some (.startMapping map _ _) =>
    s.currentState ≠ .mapping ∧ s.currentMap = map ∧ MapManager.isValidMapName map = true
  | some (.startLocalization _ _) | some (.stopLocalization _) => s.currentState ≠ .mapping
  -- the map is cleared one section before the state leaves MAPPING
  | some (.stopMapping .toWait) | some (.fail _ _) | some .enterError => True
  | some (.recovery (.resume target)) => s.Mapped ∧ target ≠ .mapping
  | _ => s.Mapped

def handler (s : Shared) : Handler → Prop
  | .loadMap _ .acquire => True
  | .loadMap _ _ => s.currentState ≠ .mapping
  | .startMapping _ .checkLocalization => True
  | .startMapping name .checkMapping | .startMapping name .saveService
  | .startMapping name .acquire => MapManager.isValidMapName name = true
  | .startMapping name (.transition _) =>
    s.currentState ≠ .mapping ∧ s.currentMap = name ∧ MapManager.isValidMapName name = true
  | .startMapping name _ =>
    s.currentState ≠ .mapping ∧ MapManager.isValidMapName name = true
  | .startLocalization _ .checkMapping | .startLocalization _ .saveService
  | .startLocalization _ .checkLocalization | .startLocalization _ .acquire => True
  | .startLocalization _ _ => s.currentState ≠ .mapping
  | .stopLocalization => True
  | .saveMap (.transition map) | .saveMap (.path map) => MapManager.isValidMapName map = true
  | .launch launched _ => operation s (some launched)
  | _ => True

def outline : ProofOutline := ⟨operation, handler⟩

/-- The change of the shared state that every assertion survives. -/
structure Stable (s s' : Shared) : Prop where
  state : s'.currentState = s.currentState ∨ s'.currentState ≠ .mapping
  map : s'.currentMap = s.currentMap

theorem Stable.ne_mapping {s s' : Shared} (h : Stable s s') (hs : s.currentState ≠ .mapping) :
    s'.currentState ≠ .mapping := by
  rcases h.state with hsame | hother
  · rwa [hsame]
  · exact hother

theorem Stable.mapped {s s' : Shared} (h : Stable s s') (hs : s.Mapped) : s'.Mapped := by
  intro hmapping
  rcases h.state with hsame | hother
  · rw [h.map]
    exact hs (hsame ▸ hmapping)
  · exact absurd hmapping hother

theorem operation_stable {s s' : Shared} (h : Stable s s') (o : Option Operation)
    (ho : operation s o) : operation s' o := by
  have hmapped := h.mapped
  have hne := h.ne_mapping
  have hmap := h.map
  unfold operation at ho ⊢
  split <;> simp_all

theorem handler_stable {s s' : Shared} (h : Stable s s') (handler : Handler)
    (hs : SelectedMap.handler s handler) : SelectedMap.handler s' handler := by
  have hne := h.ne_mapping
  have hmap := h.map
  have hlaunch := fun o ↦ operation_stable h o
  unfold SelectedMap.handler at hs ⊢
  split <;> simp_all

/-! ### The operation thread -/

theorem stable_of_stopStep {env : Env} {leader : Leader} {s s' : Shared} {stage : StopStage}
    {next : StopStage ⊕ StopResult} (h : stopStep env leader s stage = (s', next)) :
    Stable s s' := by
  rcases stopStep_cases h with rfl | ⟨-, rfl, -⟩
  · exact ⟨Or.inl rfl, rfl⟩
  · exact ⟨Or.inl rfl, rfl⟩

theorem startMapping_step (config : Config) (env : Env) (map : String) (created : Bool)
    (s : Shared) (pc : StartMapping) (h : operation s (some (.startMapping map created pc))) :
    operation (pc.step config env map created s).1
      (some (pc.step config env map created s).2) := by
  cases pc with
  | stopTimedOut stage =>
    simp only [StartMapping.step]
    split
    all_goals
      rename_i hstop
      exact operation_stable (stable_of_stopStep hstop) _ h
  | stopAborted stage =>
    simp only [StartMapping.step]
    split
    all_goals
      rename_i hstop
      exact operation_stable (stable_of_stopStep hstop) _ h
  | started =>
    obtain ⟨hstate, hmap, hvalid⟩ := h
    simp only [StartMapping.step]
    have hmapped : (s.transitionTo .mapping).Mapped := by
      intro _
      rw [currentMap_transitionTo, hmap]
      exact hvalid
    split <;> exact hmapped
  | unselect =>
    obtain ⟨hstate, -, -⟩ := h
    have hmapped : Shared.Mapped { s with currentMap := "" } := fun h ↦ absurd h hstate
    simp only [StartMapping.step, errorOrFinish]
    split
    · exact hstate
    · split
      · trivial
      · exact hmapped
  | cleanup shouldTransition =>
    simp only [StartMapping.step, errorOrFinish]
    split
    · trivial
    · exact fun hmapping ↦ absurd hmapping h
  | checkRunning | saveService | waitService | checkAlive =>
    simp only [StartMapping.step]
    split <;> exact h
  | prepareConfig | startProcess =>
    simp only [StartMapping.step]
    repeat' split
    all_goals exact h
  | readExitCode | failed error => exact h

theorem mapped_of_ne {s : Shared} (h : s.currentState ≠ .mapping) : s.Mapped :=
  fun hmapping ↦ absurd hmapping h

theorem ne_mapping_transitionTo (s : Shared) {next : SystemState} (hnext : next ≠ .mapping)
    (hcan : SystemState.mapping.canTransition next = true) :
    (s.transitionTo next).currentState ≠ .mapping := by
  rw [currentState_transitionTo]
  split
  · exact hnext
  · rename_i hstays
    intro hmapping
    rw [hmapping] at hstays
    exact hstays hcan

theorem stopMapping_step (env : Env) (s : Shared) (pc : StopMapping)
    (h : operation s (some (.stopMapping pc))) :
    operation (pc.step env s).1 (some (pc.step env s).2) := by
  cases pc with
  | stop stage =>
    simp only [StopMapping.step]
    split
    · rename_i hstop
      exact operation_stable (stable_of_stopStep hstop) (some (.stopMapping (.stop stage))) h
    · trivial
    · rename_i hstop
      exact operation_stable (stable_of_stopStep hstop) (some (.stopMapping (.stop stage))) h
  | unselect =>
    simp only [StopMapping.step]
    split
    · trivial
    · rename_i hstate
      exact mapped_of_ne hstate
  | toWait => exact mapped_of_ne (ne_mapping_transitionTo s (by simp) rfl)

/-- The state does not become MAPPING in a step that does not attempt it. -/
theorem state_of_target {target : Option SystemState} {before after : SystemState}
    (h : StateEffect target before after) (htarget : target ≠ some .mapping) :
    after = before ∨ after ≠ .mapping := by
  rcases h with hsame | ⟨hafter, -⟩
  · exact Or.inl hsame
  · exact Or.inr fun hmapping ↦ htarget (hmapping ▸ hafter)

theorem operation_of_ne {op next : Operation} {s : Shared} (hfollows : op.Follows next)
    (hstart : ∀ map created pc, op ≠ .startMapping map created pc)
    (hne : s.currentState ≠ .mapping) : operation s (some next) := by
  have hmapped := mapped_of_ne hne
  cases hfollows with
  | startMapping map created pc pc' => exact absurd rfl (hstart map created pc)
  | stopMapping pc pc' => cases pc' <;> first | exact hmapped | trivial
  | recovery pc pc' hresume =>
    cases pc' with
    | resume target =>
      refine ⟨hmapped, ?_⟩
      rintro rfl
      cases hresume _ rfl
    | _ => exact hmapped
  | startLocalization | stopLocalization => exact hne
  | saveMap | stopAfterFailure | finish => exact hmapped
  | fail | enterError => trivial

theorem stable_of_effect {env : Env} {op next : Operation} {s s' : Shared}
    (h : OperationEffect env op s (s', next)) (htarget : op.target ≠ some .mapping)
    (hkeeps : op.clearsMap s.currentState = false) : Stable s s' := by
  refine ⟨state_of_target h.state htarget, ?_⟩
  rcases h.map with hsame | ⟨hclears, -⟩
  · exact hsame
  · rw [hkeeps] at hclears
    cases hclears

theorem saveMap_step {env : Env} {map : String} {pc : SaveMap} {next : Operation} {s s' : Shared}
    (hcontinues : Operation.Continues env (.saveMap map pc) s s' next) (h : s.Mapped) :
    operation s' (some next) := by
  have hstable := stable_of_effect hcontinues.effect (by cases pc <;> simp [Operation.target]) rfl
  cases hcontinues.follows with
  | saveMap | finish => exact hstable.mapped h
  | fail | enterError => trivial

theorem stopAfterFailure_step {env : Env} {pc : StopAfterFailure} {next : Operation}
    {s s' : Shared} (hcontinues : Operation.Continues env (.stopAfterFailure pc) s s' next)
    (h : s.Mapped) : operation s' (some next) := by
  have hstable := stable_of_effect hcontinues.effect (by simp [Operation.target]) rfl
  cases hcontinues.follows with
  | stopAfterFailure | finish => exact hstable.mapped h
  | fail | enterError => trivial

theorem recovery_step {env : Env} {pc : Recovery} {next : Operation} {s s' : Shared}
    (hcontinues : Operation.Continues env (.recovery pc) s s' next)
    (h : operation s (some (.recovery pc))) : operation s' (some next) := by
  have htarget : (Operation.recovery pc).target ≠ some .mapping := by
    cases pc <;> simp_all [Operation.target, operation]
  by_cases hclears : (Operation.recovery pc).clearsMap s.currentState = true
  · apply operation_of_ne hcontinues.follows (by simp)
    have hrecovering : s.currentState = .recovering := by
      cases pc <;> simp_all [Operation.clearsMap]
    rcases state_of_target hcontinues.effect.state htarget with hsame | hother
    · rw [hsame, hrecovering]
      simp
    · exact hother
  · have hstable := stable_of_effect hcontinues.effect htarget (by simpa using hclears)
    have hmapped : s'.Mapped := hstable.mapped (by cases pc <;> simp_all [operation])
    cases hcontinues.follows with
    | recovery _ pc' hresume =>
      cases pc' with
      | resume target =>
        refine ⟨hmapped, ?_⟩
        rintro rfl
        cases hresume _ rfl
      | _ => exact hmapped
    | finish => exact hmapped
    | fail | enterError => trivial

/-- An operation that runs outside MAPPING and does not enter it. -/
theorem away_step {env : Env} {op next : Operation} {s s' : Shared}
    (hcontinues : op.Continues env s s' next) (htarget : op.target ≠ some .mapping)
    (hstart : ∀ map created pc, op ≠ .startMapping map created pc)
    (h : s.currentState ≠ .mapping) : operation s' (some next) := by
  apply operation_of_ne hcontinues.follows hstart
  rcases state_of_target hcontinues.effect.state htarget with hsame | hother
  · rwa [hsame]
  · exact hother

theorem operation_step (config : Config) (env : Env) (s : Shared) (op : Operation)
    (h : operation s (some op)) :
    operation (op.step config env s).1 (op.step config env s).2 := by
  refine op.step_rule config env s (fun _ _ ↦ trivial) (fun hfinish ↦ ?_)
    fun s' next hnext _ hcontinues ↦ ?_
  · subst hfinish
    exact h
  · cases op with
    | startMapping map created pc =>
      obtain ⟨hshared, hpc⟩ := Prod.mk.inj hnext
      rw [← hshared, ← hpc]
      exact startMapping_step config env map created s pc h
    | stopMapping pc =>
      obtain ⟨hshared, hpc⟩ := Prod.mk.inj hnext
      rw [← hshared, ← hpc]
      exact stopMapping_step env s pc h
    | startLocalization map pc =>
      exact away_step hcontinues (by cases pc <;> simp [Operation.target]) (by simp) h
    | stopLocalization pc =>
      exact away_step hcontinues (by cases pc <;> simp [Operation.target]) (by simp) h
    | saveMap map pc => exact saveMap_step hcontinues h
    | stopAfterFailure pc => exact stopAfterFailure_step hcontinues h
    | recovery pc => exact recovery_step hcontinues h
    | fail code message =>
      cases hnext
      trivial
    | enterError =>
      cases hnext
      exact mapped_of_ne (ne_mapping_transitionTo s (by simp) rfl)
    | finish => cases hnext

/-! ### Handlers -/

theorem target_ne_mapping (h : Handler) : h.target ≠ some .mapping := by
  unfold Handler.target
  split <;> simp

theorem ne_mapping_of_mapWritten {s : Shared} {h : Handler} {name : String}
    (hs : handler s h) (hwritten : h.mapWritten = some name) : s.currentState ≠ .mapping := by
  unfold Handler.mapWritten at hwritten
  split at hwritten
  · exact hs
  · exact hs.1
  · exact hs.1
  · exact hs
  · exact hs
  · cases hwritten

theorem state_handler (config : Config) (env : Env) (s : Shared) (h : Handler) :
    (h.step config env s).1.currentState = s.currentState ∨
      (h.step config env s).1.currentState ≠ .mapping :=
  state_of_target (h.effect config env s).state (target_ne_mapping h)

/-- A handler leaves the assertion of the operation thread alone. -/
theorem operation_handler {config : Config} {env : Env} {s : Sys} {h : Handler}
    (hexclusive : s.Exclusive) (hholds : outline.Holds s) (hsome : s.handler = some h) :
    operation (h.step config env s.shared).1 s.operation := by
  have hstate := state_handler config env s.shared h
  rcases (h.effect config env s.shared).map with hsame | hwritten
  · exact operation_stable ⟨hstate, hsame⟩ _ hholds.operation
  · have hended := hexclusive.alone (by
      simp [Sys.handlerHolds, hsome, Handler.holdsToken_of_mapWritten hwritten])
    rw [hended]
    have hne := ne_mapping_of_mapWritten (hholds.handler h hsome) hwritten
    apply mapped_of_ne
    rcases hstate with hkept | hother
    · rwa [hkept]
    · exact hother

theorem ne_mapping_of_idle {state : SystemState} (h : state.isIdle = true) : state ≠ .mapping := by
  rintro rfl
  cases h

theorem startMapping_continues (config : Config) (env : Env) (name : String) (s : Shared)
    (pc : StartMappingRequest) (h : handler s (.startMapping name pc)) :
    outline.Continues (pc.step config env name s) := by
  cases pc with
  | checkLocalization =>
    simp only [StartMappingRequest.step]
    split_ifs with hvalid hrunning
    · trivial
    · trivial
    · have hname : MapManager.isValidMapName name = true := by simpa using hvalid
      exact hname
  | checkMapping | saveService =>
    simp only [StartMappingRequest.step]
    split_ifs
    · trivial
    · exact h
  | acquire =>
    exact ProofOutline.continues_acquireForStart fun hidle ↦ ⟨ne_mapping_of_idle hidle, h⟩
  | findMap =>
    simp only [StartMappingRequest.step]
    repeat' split
    · trivial
    · exact h
    · exact h
  | create =>
    simp only [StartMappingRequest.step]
    split
    · trivial
    · exact h
  | checkOutput created =>
    simp only [StartMappingRequest.step]
    repeat' split
    · trivial
    · trivial
    · trivial
    · exact h
  | select created => exact ⟨h.1, rfl, h.2⟩
  | transition created =>
    obtain ⟨hne, hmap, hvalid⟩ := h
    have hne' : (s.transitionTo .mappingStarting).currentState ≠ .mapping := by
      rw [currentState_transitionTo]
      split
      · simp
      · exact hne
    simp only [StartMappingRequest.step]
    split
    · exact ⟨hne', by simpa using hmap, hvalid⟩
    · cases created
      · exact ⟨hne', hvalid⟩
      · exact ⟨hne', hvalid⟩
  | cleanup => exact h
  | unselect => trivial

theorem startLocalization_continues (config : Config) (env : Env) (name : String) (s : Shared)
    (pc : StartLocalizationRequest) (h : handler s (.startLocalization name pc)) :
    outline.Continues (pc.step config env name s) := by
  cases pc with
  | checkMapping | saveService | checkLocalization =>
    simp only [StartLocalizationRequest.step]
    repeat' split
    all_goals trivial
  | acquire => exact ProofOutline.continues_acquireForStart ne_mapping_of_idle
  | load =>
    simp only [StartLocalizationRequest.step]
    repeat' split
    · trivial
    · trivial
    · exact h
  | select | resetSession | resetQuality => exact h
  | transition =>
    have hne' : (s.transitionTo .localizationStarting).currentState ≠ .mapping := by
      rw [currentState_transitionTo]
      split
      · simp
      · exact h
    simp only [StartLocalizationRequest.step]
    split <;> exact hne'
  | unselect => trivial

theorem saveMap_continues (config : Config) (s : Shared) (pc : SaveMapRequest)
    (h : handler s (.saveMap pc))
    (hmapped : pc ≠ .acquire ∨ s.operationInProgress = false → s.Mapped) :
    outline.Continues (pc.step config s) := by
  cases pc with
  | acquire =>
    simp only [SaveMapRequest.step]
    split_ifs with hstate htoken
    · trivial
    · trivial
    · exact hmapped (Or.inr (by simpa using htoken)) (by simpa using hstate)
  | transition map =>
    simp only [SaveMapRequest.step]
    split
    · exact h
    · trivial
  | path map =>
    simp only [SaveMapRequest.step]
    split
    · trivial
    · exact hmapped (Or.inl (by simp))

theorem loadMap_continues (config : Config) (env : Env) (name : String) (s : Shared) (pc : LoadMap)
    (h : handler s (.loadMap name pc)) : outline.Continues (pc.step config env name s) := by
  cases pc with
  | acquire =>
    simp only [LoadMap.step]
    split_ifs with hactive
    · trivial
    · intro hmapping
      simp only at hmapping
      simp [hmapping, SystemState.isActiveSlamState, SystemState.isMappingState] at hactive
  | load =>
    simp only [LoadMap.step]
    repeat' split
    · trivial
    · trivial
    · exact h
  | select path => trivial

/-- What a handler continues with meets its assertion. -/
theorem handler_continues {config : Config} {env : Env} {s : Sys} {h : Handler}
    (hexclusive : s.Exclusive) (hholds : outline.Holds s) (hsome : s.handler = some h) :
    outline.Continues (h.step config env s.shared) := by
  have hassertion := hholds.handler h hsome
  have hmapped (howner : h.holdsToken = true ∨ s.shared.operationInProgress = false) :
      s.shared.Mapped := by
    have hended : s.operation = none := by
      rcases howner with hown | hfree
      · exact hexclusive.alone (by simpa [Sys.handlerHolds, hsome] using hown)
      · exact (hexclusive.free hfree).2
    have hoperation := hholds.operation
    rw [hended] at hoperation
    exact hoperation
  cases h with
  | recover =>
    simp only [Handler.step, recoverStep]
    split_ifs with hstate htoken hcan
    · trivial
    · trivial
    · trivial
    · apply mapped_of_ne
      simp only [currentState_transitionTo]
      split
      · simp
      · simp_all
  | loadMap name pc => exact loadMap_continues config env name s.shared pc hassertion
  | startMapping name pc => exact startMapping_continues config env name s.shared pc hassertion
  | startLocalization name pc =>
    exact startLocalization_continues config env name s.shared pc hassertion
  | saveMap pc =>
    refine saveMap_continues config s.shared pc hassertion fun howner ↦ hmapped ?_
    cases pc <;> simp_all [Handler.holdsToken]
  | stopMapping =>
    simp only [Handler.step, stopMappingStep]
    split_ifs with hstate htoken
    · trivial
    · trivial
    · exact hmapped (Or.inr (by simpa using htoken))
  | stopLocalization =>
    simp only [Handler.step, stopLocalizationStep]
    split_ifs with hstate htoken
    · trivial
    · trivial
    · intro hmapping
      simp only at hmapping
      simp [hmapping, SystemState.isLocalizationState] at hstate
  | sensorTick pc =>
    by_cases hclaim : ∃ mapping localization, pc = .claim mapping localization
    · obtain ⟨mapping, localization, rfl⟩ := hclaim
      simp only [Handler.step, SensorTick.step]
      split_ifs with hfree hmapping
      · exact hmapped (Or.inr (by simp_all))
      · exact hmapped (Or.inr (by simp_all))
      · trivial
    · refine ProofOutline.continues_of_follows (Handler.follows config env _ _) ?_ (by simp)
      intro next hnext
      cases hnext with
      | launchStopAfterFailure mapping localization =>
        exact absurd ⟨mapping, localization, rfl⟩ hclaim
      | sensorTick | release => trivial
  | launch operation reply => exact hassertion
  | _ =>
    refine ProofOutline.continues_of_follows (Handler.follows config env _ _) ?_ (by simp)
    intro next hnext
    cases hnext <;> trivial

theorem handler_away {s s' : Shared} {h : Handler} (hidle : h.holdsToken = false)
    (hassertion : handler s h) : handler s' h := by
  cases h with
  | loadMap name pc => cases pc <;> trivial
  | startMapping name pc => cases pc <;> first | exact hassertion | cases hidle
  | startLocalization name pc => cases pc <;> trivial
  | saveMap pc => cases pc <;> trivial
  | launch operation reply => cases hidle
  | _ => trivial

theorem valid (config : Config) : outline.Valid config anyAction where
  begins s request := by cases request <;> trivial
  handler s env h _ hexclusive hholds hsome :=
    ProofOutline.afterHandler_of (operation_handler hexclusive hholds hsome)
      (handler_continues hexclusive hholds hsome)
  operation s env op _ _ hholds hsome := by
    have hoperation := hholds.operation
    rw [hsome] at hoperation
    exact operation_step config env s.shared op hoperation
  handlerKept s env op h _ hexclusive hholds hsome hhandler := by
    have hidle := hexclusive.of_operation hsome
    simp only [Sys.handlerHolds, hhandler, Option.any_some] at hidle
    exact handler_away hidle (hholds.handler h hhandler)
  interference s s' hinterference := by
    have hstable : Stable s s' := by
      refine ⟨?_, hinterference.map⟩
      rcases hinterference.state with hsame | ⟨-, hstate | hstate⟩
      · exact Or.inl hsame
      · exact Or.inr (by simp [hstate])
      · exact Or.inr (by simp [hstate])
    exact ⟨operation_stable hstable, handler_stable hstable⟩

end SelectedMap

theorem Reachable.selectedMap {config : Config} {s : Sys} (h : Reachable config s) :
    SelectedMap.outline.Holds s := by
  refine (SelectedMap.valid config).reaches (fun s hinit ↦ ?_) h
  apply SelectedMap.mapped_of_ne
  rcases hinit.state with hstate | ⟨hstate, -⟩ <;> simp [hstate]

/-! ## The token -/

/-- How many owners the token has. -/
def Sys.owners (s : Sys) : ℕ := s.handlerHolds.toNat + s.operation.isSome.toNat

/-- A taken token has an owner. -/
def Sys.Owned (s : Sys) : Prop :=
  s.shared.operationInProgress = true → s.handlerHolds = true ∨ s.operation ≠ none

/-- An exception does not leave a handler that owns the token. -/
theorem holdsToken_of_escaped {config : Config} {env : Env} {s : Sys} {handler : Handler}
    {what : String} {shared : Shared} (h : SelectedMap.outline.Holds s)
    (hsome : s.handler = some handler)
    (hstep : handler.step config env s.shared = (shared, .escaped what)) :
    handler.holdsToken = false := by
  cases Handler.follows_of_step hstep with
  | lastPoseEscaped pc => rfl
  | saveMapEscaped map =>
    have hvalid : MapManager.isValidMapName map = true := h.handler _ hsome
    simp [Handler.step, SaveMapRequest.step, MapManager.getMapPath_of_valid hvalid] at hstep

theorem Sys.Owned.step {config : Config} {s s' : Sys} {a : Action}
    (hmap : SelectedMap.outline.Holds s) (h : s.Owned) (hstep : s.step config a = some s') :
    s'.Owned := by
  intro htaken
  cases Sys.move_of_step hstep with
  | @call request hidle =>
    rcases h htaken with hholds | hrunning
    · simp [Sys.handlerHolds, hidle] at hholds
    · exact Or.inr hrunning
  | @handlerNext env handler next shared hsome hnext =>
    have htoken := (Handler.effect_of_step hnext).token
    rcases htoken with ⟨hholds, htoken⟩ | ⟨-, hacquired, -⟩
    · rcases h (htoken ▸ htaken) with hheld | hrunning
      · simp only [Sys.handlerHolds, hsome, Option.any_some] at hheld
        exact Or.inl (by simp [Sys.handlerHolds, hholds, hheld])
      · exact Or.inr hrunning
    · exact Or.inl (by simp [Sys.handlerHolds, hacquired])
  | @handlerDone env handler reply shared hsome hnext =>
    have htoken := (Handler.effect_of_step hnext).token
    rcases htoken with ⟨hholds, htoken⟩ | ⟨-, htoken⟩
    · rcases h (htoken ▸ htaken) with hheld | hrunning
      · simp [Sys.handlerHolds, hsome, hholds] at hheld
      · exact Or.inr hrunning
    · cases htoken.symm.trans htaken
  | handlerLaunch hsome hnext hended => exact Or.inr (by simp)
  | @handlerEscape env handler what shared hsome hnext =>
    have htoken := (Handler.effect_of_step hnext).token
    rcases h (htoken ▸ htaken) with hheld | hrunning
    · simp [Sys.handlerHolds, hsome, holdsToken_of_escaped hmap hsome hnext] at hheld
    · exact Or.inr hrunning
  | @operation env operation hsome =>
    rcases operation.effect config env s.shared with ⟨-, hend⟩ | ⟨-, shared, next, hnext, -⟩
    · simp [hend, Shared.finishOperation] at htaken
    · exact Or.inr (by simp [hnext])
  | deliver hfree => exact h htaken
  | @callback id env callback hsome =>
    exact h ((callback.effect config env s.shared).token ▸ htaken)
  | environment heffect => exact h (heffect.token ▸ htaken)

theorem Reachable.owned {config : Config} {s : Sys} (h : Reachable config s) : s.Owned := by
  refine Reaches.invariant_of (fun s (hs : Reachable config s) ↦ hs.selectedMap)
    (fun s hinit htaken ↦ ?_) (fun s a s' hmap hs _ hstep ↦ hs.step hmap hstep) h
  rw [hinit.token] at htaken
  cases htaken

/-- The token is taken exactly while it has one owner. -/
theorem Reachable.owners_eq {config : Config} {s : Sys} (h : Reachable config s) :
    s.owners = s.shared.operationInProgress.toNat := by
  have hexclusive := h.exclusive
  cases htoken : s.shared.operationInProgress with
  | false =>
    obtain ⟨hhandler, hoperation⟩ := hexclusive.free htoken
    simp [Sys.owners, hhandler, hoperation]
  | true =>
    rcases h.owned htoken with hhandler | hoperation
    · simp [Sys.owners, hhandler, hexclusive.alone hhandler]
    · obtain ⟨operation, hsome⟩ := Option.ne_none_iff_exists'.mp hoperation
      simp [Sys.owners, hexclusive.of_operation hsome, hsome]

/-! ## Launches -/

/-- The actions of a run before its next launch. -/
def noLaunch (s : Sys) : Action → Prop
  | .handler _ => ∀ operation reply, s.handler ≠ some (.launch operation reply)
  | _ => True

/-- An operation thread that has ended stays so until the next launch. -/
theorem operation_none_step {config : Config} {s s' : Sys} {a : Action} (h : s.operation = none)
    (hok : noLaunch s a) (hstep : s.step config a = some s') : s'.operation = none := by
  cases Sys.move_of_step hstep with
  | @handlerLaunch env handler operation reply shared hsome hnext hended =>
    cases Handler.follows_of_step hnext
    exact absurd hsome (hok operation reply)
  | @operation env operation hsome =>
    rw [h] at hsome
    cases hsome
  | _ => exact h

/-- Whether the handler is about to launch the recovery it has accepted. -/
def Sys.recoveryAccepted (s : Sys) : Prop :=
  s.handler = some (.launch (.recovery (.checkRunning .mapping []))
    (some (accept "Recovery accepted; observe /system/status for completion")))

theorem recoveryAccepted_of_step {config : Config} {env : Env} {s s' : Sys}
    (h : s.handler = some .recover) (hstep : s.step config (.handler env) = some s')
    (haccepted : s'.handler ≠ none) : s'.recoveryAccepted := by
  simp only [Sys.step, h, Option.bind_some, Handler.step, recoverStep] at hstep
  split_ifs at hstep
  case neg => cases hstep; rfl
  all_goals
    cases hstep
    exact absurd rfl haccepted

/-- The discipline of the operation token: it is taken exactly while one owner exists, and there
is never more than one; a launch finds no operation that still runs; and when a recovery has been
accepted, no operation launched before makes another step. -/
theorem token_discipline (config : Config) (s : Sys) (h : Reachable config s) :
    (s.shared.operationInProgress = true ↔ s.owners = 1) ∧
      s.owners ≤ 1 ∧
      (∀ env operation reply, s.handler = some (.launch operation reply) →
        s.operation = none ∧ (s.step config (.handler env)).isSome = true) ∧
      (∀ env s', s.handler = some .recover → s.step config (.handler env) = some s' →
        s'.handler ≠ none → s'.recoveryAccepted ∧
          ∀ s'', Steps (Sys.step config) noLaunch s' s'' → s''.operation = none) := by
  have howners := h.owners_eq
  have hended {s : Sys} (h : Reachable config s) {operation : Operation} {reply : Option Reply}
      (hlaunch : s.handler = some (.launch operation reply)) : s.operation = none :=
    h.exclusive.alone (by simp [Sys.handlerHolds, hlaunch, Handler.holdsToken])
  refine ⟨?_, ?_, fun env operation reply hlaunch ↦ ⟨hended h hlaunch, ?_⟩,
    fun env s' hrecover hstep hnone ↦ ?_⟩
  · rw [howners]
    cases s.shared.operationInProgress <;> simp
  · rw [howners]
    exact Bool.toNat_le _
  · simp [Sys.step, hlaunch, Handler.step, Sys.afterHandler, hended h hlaunch]
  · have haccepted := recoveryAccepted_of_step hrecover hstep hnone
    refine ⟨haccepted, fun s'' hsteps ↦ ?_⟩
    exact hsteps.invariant (fun _ _ _ hs hok hnext ↦ operation_none_step hs hok hnext)
      (hended (h.tail trivial hstep) haccepted)

/-- A recovery from a failed automatic start, as far as its acceptance. -/
theorem token_discipline_recovery :
    ∃ s s', exec (Sys.step {}) (Sys.failedStart ∅) [.call .recover] = some s ∧
      s.step {} (.handler {}) = some s' ∧ s'.recoveryAccepted := by
  refine ⟨_, _, rfl, rfl, ?_⟩
  have hrun : exec (Sys.step {}) (Sys.failedStart ∅) [.call .recover] = some _ := rfl
  have hreachable := (Reaches.start (failedStart_initial ∅)).steps (steps_of_exec hrun)
  exact ((token_discipline {} _ hreachable).2.2.2 {} _ rfl rfl (by simp)).1

end SlamSystemManager.Manager
