import SlamSystemManager.Manager.Store

/-!
# Refused requests

A handler refuses a request in its first sections or after it has taken the token. The start
requests have further exits, after a directory was made or the selection and the errors were
overwritten. Nothing moves the state between the acquisition and the transition, and a new directory
has no map file, so most of these exits are never taken; but the status of the output of a new
directory may be one that cannot be read, and then the directory stays.
-/

open TransitionSystem

namespace SlamSystemManager.Manager

open MapManager

/-! ## What a request may have changed -/

/-- A field of the manager, the record of a managed process, or whether a map exists. -/
inductive Observable where
  | state
  | map
  | errorCode
  | errorMessage
  | token
  | process (leader : Leader)
  | known (name : String)
  deriving DecidableEq

def Observable.Value : Observable → Type
  | .state => SystemState
  | .map | .errorCode | .errorMessage => String
  | .token | .known _ => Bool
  | .process _ => Process

instance : (observable : Observable) → DecidableEq observable.Value
  | .state => inferInstanceAs (DecidableEq SystemState)
  | .map | .errorCode | .errorMessage => inferInstanceAs (DecidableEq String)
  | .token | .known _ => inferInstanceAs (DecidableEq Bool)
  | .process _ => inferInstanceAs (DecidableEq Process)

/-- A value for every observable. -/
abbrev Observed : Type := (observable : Observable) → observable.Value

def Shared.observe (s : Shared) : Observed
  | .state => s.currentState
  | .map => s.currentMap
  | .errorCode => s.errorCode
  | .errorMessage => s.errorMessage
  | .token => s.operationInProgress
  | .process leader => s.processes leader
  | .known name => mapExists s.maps name

/-- No map has been added, and everything else is the same. -/
structure Unaltered (before after : Observed) : Prop where
  fields : ∀ observable, (∀ name, observable ≠ .known name) → after observable = before observable
  known : ∀ name, after (.known name) = true → before (.known name) = true

theorem Unaltered.refl (observed : Observed) : Unaltered observed observed :=
  ⟨fun _ _ ↦ rfl, fun _ h ↦ h⟩

/-- What is known about the present request. -/
structure RequestHistory where
  /-- The values from before the request, carried along by the steps of the other threads, of the
  adapter callbacks and of the environment. -/
  before : Observed
  /-- The request has made a directory, and the status of its output could not be read. -/
  unread : Bool := false

/-- Whether the file system fails to give the status of the output of a new directory. -/
def Sys.outputUnread (s : Sys) (env : Env) : Bool :=
  match s.handler with
  | some (.startMapping _ (.checkOutput true)) => env.failure.isSome
  | _ => false

def RequestHistory.note (h : RequestHistory) (s : Sys) (a : Action) (s' : Sys) : RequestHistory :=
  match a with
  | .call _ => { before := s.shared.observe }
  | .handler env => { h with unread := h.unread || s.outputUnread env }
  | _ => { h with before := follow h.before s.shared.observe s'.shared.observe }

abbrev requestStep (config : Config) :
    Sys × RequestHistory → Action → Option (Sys × RequestHistory) :=
  noting (Sys.step config) RequestHistory.note

/-- The response with which a step of a handler ends, if it ends with one. -/
def HandlerNext.reply : HandlerNext → Option Reply
  | .done reply | .launched _ reply => reply
  | _ => none

/-! ## Exits that are not taken -/

namespace Admission

/-- The states in which a start is accepted. -/
def admits (state : SystemState) : Prop := state = .waitMode ∨ state = .sensorReady

/-- Between the acquisition and the transition of a start the state does not move. -/
def handler (s : Shared) : Handler → Prop
  | .startMapping _ pc =>
    match pc with
    | .checkLocalization | .checkMapping | .saveService | .acquire => True
    | .cleanup | .unselect => False
    | _ => admits s.currentState
  | .startLocalization _ pc =>
    match pc with
    | .checkMapping | .saveService | .checkLocalization | .acquire => True
    | .unselect => False
    | _ => admits s.currentState
  | .launch _ reply => ∀ response, reply = some response → response.accepted = true
  | _ => True

def outline : ProofOutline := ⟨fun _ _ ↦ True, handler⟩

theorem canTransition_of_admits {state : SystemState} (h : admits state) :
    state.canTransition .mappingStarting = true ∧
      state.canTransition .localizationStarting = true := by
  rcases h with rfl | rfl <;> decide

/-- No callback leads out of a state in which a start is accepted. -/
theorem admits_of_interference {s s' : Shared} (h : Interference s s')
    (hs : admits s.currentState) : admits s'.currentState := by
  rcases h.state with hsame | ⟨hcan, hafter⟩
  · rwa [hsame]
  · rcases hs with hstate | hstate <;> rcases hafter with hafter | hafter <;>
      rw [hstate, hafter] at hcan <;> cases hcan

theorem continues_acquireForStart {config : Config} {label : String} {s : Shared}
    {next : Handler}
    (h : admits s.currentState → handler { s with operationInProgress := true } next) :
    outline.Continues (acquireForStart config label s next) := by
  unfold acquireForStart
  split_ifs with hstate htoken
  · trivial
  · trivial
  · apply h
    unfold admits
    by_contra hnot
    exact hstate (Or.inl (not_or.mp hnot))

theorem startMapping_continues (config : Config) (env : Env) (name : String) (s : Shared)
    (pc : StartMappingRequest) (h : handler s (.startMapping name pc)) :
    outline.Continues (pc.step config env name s) := by
  cases pc with
  | checkLocalization | checkMapping | saveService =>
    simp only [StartMappingRequest.step]
    repeat' split
    all_goals trivial
  | acquire => exact continues_acquireForStart id
  | findMap =>
    simp only [StartMappingRequest.step]
    repeat' split
    · trivial
    · exact h
    · exact h
  | create =>
    simp only [StartMappingRequest.step]
    split
    · trivial
    · exact h
  | checkOutput created =>
    simp only [StartMappingRequest.step]
    repeat' split
    · trivial
    · trivial
    · trivial
    · exact h
  | select created => exact h
  | transition created =>
    simp only [StartMappingRequest.step, (canTransition_of_admits h).1, if_true]
    intro response hresponse
    cases hresponse
    rfl
  | cleanup | unselect => exact h.elim

theorem startLocalization_continues (config : Config) (env : Env) (name : String) (s : Shared)
    (pc : StartLocalizationRequest) (h : handler s (.startLocalization name pc)) :
    outline.Continues (pc.step config env name s) := by
  cases pc with
  | checkMapping | saveService | checkLocalization =>
    simp only [StartLocalizationRequest.step]
    repeat' split
    all_goals trivial
  | acquire => exact continues_acquireForStart id
  | load =>
    simp only [StartLocalizationRequest.step]
    repeat' split
    · trivial
    · trivial
    · exact h
  | select | resetSession | resetQuality => exact h
  | transition =>
    simp only [StartLocalizationRequest.step, (canTransition_of_admits h).2, if_true]
    intro response hresponse
    cases hresponse
    rfl
  | unselect => exact h.elim

theorem handler_continues (config : Config) (env : Env) (s : Shared) (running : Handler)
    (h : handler s running) : outline.Continues (running.step config env s) := by
  have hfollows := running.follows config env s
  cases running with
  | startMapping name pc => exact startMapping_continues config env name s pc h
  | startLocalization name pc => exact startLocalization_continues config env name s pc h
  | launch launched reply => trivial
  | recover | stopMapping | stopLocalization =>
    simp only [Handler.step, recoverStep, stopMappingStep, stopLocalizationStep]
    repeat' split
    all_goals first | trivial | (intro response hresponse; cases hresponse; rfl)
  | saveMap pc =>
    cases pc <;> simp only [Handler.step, SaveMapRequest.step] <;> (repeat' split) <;>
      first | trivial | (intro response hresponse; cases hresponse; rfl)
  | _ =>
    refine ProofOutline.continues_of_follows hfollows (fun next hnext ↦ ?_) (by simp)
    cases hnext <;> first | trivial | (intro response hresponse; cases hresponse)

theorem valid (config : Config) : outline.Valid config anyAction where
  begins s request := by cases request <;> trivial
  handler s env running _ _ hholds hhandler :=
    ProofOutline.afterHandler_of trivial
      (handler_continues config env s.shared running (hholds.handler running hhandler))
  operation _ _ _ _ _ _ _ := trivial
  handlerKept s env operation running _ hexclusive hholds hoperation hhandler := by
    have hidle := hexclusive.of_operation hoperation
    simp only [Sys.handlerHolds, hhandler, Option.any_some] at hidle
    cases running with
    | startMapping name pc => cases pc <;> trivial
    | startLocalization name pc => cases pc <;> trivial
    | launch launched reply => cases hidle
    | _ => trivial
  interference s s' hinterference := by
    refine ⟨fun _ _ ↦ trivial, fun running h ↦ ?_⟩
    cases running with
    | startMapping name pc =>
      cases pc <;> first | exact admits_of_interference hinterference h | exact h
    | startLocalization name pc =>
      cases pc <;> first | exact admits_of_interference hinterference h | exact h
    | launch launched reply => exact h
    | _ => trivial

end Admission

theorem Reachable.admission {config : Config} {s : Sys} (h : Reachable config s) :
    Admission.outline.Holds s :=
  (Admission.valid config).reaches (fun _ _ ↦ trivial) h

/-! ## A new directory has no map file -/

/-- A start that has made its directory does not find a map file in it. -/
def Sys.MadeEmpty (s : Sys) : Prop :=
  ∀ name, s.handler = some (.startMapping name (.checkOutput true)) →
    isValidMapName name = true ∧ output? s.shared.maps name = none

/-- Only the creation of a directory leads to the check of its output. -/
theorem created_of_step {config : Config} {env : Env} {s s' : Shared} {handler : Handler}
    {name : String}
    (hstep : handler.step config env s = (s', .next (.startMapping name (.checkOutput true)))) :
    handler = .startMapping name .create ∧ isValidMapName name = true ∧ name ∉ s.maps ∧
      s'.maps = s.maps.insert name (.directory (newDirectory config.mapFrame name env.text)) := by
  cases Handler.follows_of_step hstep with
  | startMapping _ pc =>
    cases pc with
    | create =>
      simp only [Handler.step, StartMappingRequest.step] at hstep
      rcases hcreate : MapManager.createMap config.mapFrame env.text env.failure env.secondFailure
        s.maps name with ⟨maps, result⟩
      rw [hcreate] at hstep
      rcases createMap_cases hcreate with ⟨-, what, rfl⟩ | ⟨rfl, hvalid, hnew, rfl⟩
      · cases hstep
      · cases hstep
        exact ⟨rfl, hvalid, hnew, rfl⟩
    | _ =>
      simp only [Handler.step, StartMappingRequest.step, acquireForStart] at hstep
      (repeat' split at hstep) <;> cases hstep

theorem Sys.MadeEmpty.step {config : Config} {s s' : Sys} {a : Action} (hreach : Reachable config s)
    (h : s.MadeEmpty) (hstep : s.step config a = some s') : s'.MadeEmpty := by
  intro name hafter
  have hkept (hhandler : s.handler = s'.handler) (hmaps : output? s'.shared.maps name =
      output? s.shared.maps name) :
      isValidMapName name = true ∧ output? s'.shared.maps name = none := by
    rw [hmaps]
    exact h name (hhandler.trans hafter)
  cases a with
  | call request =>
    obtain ⟨-, rfl⟩ := Sys.call_of_step hstep
    cases request <;> cases hafter
  | handler env =>
    obtain ⟨handler, r, hhandler, hr, hmove⟩ := Sys.handlerMove_of_step hstep
    cases hmove with
    | next hnext =>
      cases hnext.symm.trans hafter
      obtain ⟨-, hvalid, -, hmaps⟩ := created_of_step hr
      exact ⟨hvalid, by simp [hmaps, output?, directory?_insert, newDirectory]⟩
    | ended _ _ hended | launched _ _ hended => cases hended.symm.trans hafter
  | operation env =>
    -- the request has the token, so no operation runs
    obtain ⟨running, hrunning, rfl⟩ := Option.map_eq_some_iff.mp hstep
    have hidle := hreach.exclusive.of_operation hrunning
    rw [Sys.handlerHolds, show s.handler = some _ from hafter] at hidle
    cases hidle
  | deliver | callback | observe | exit | writeMap | takeSave | writeSave =>
    have hother := bystander_of_step hstep (by simp) (by simp) (by simp)
    have hquiet : ModeExclusion.Quiet s.shared :=
      hreach.modeExclusion.handler _ (hother.handler.symm.trans hafter)
    exact hkept hother.handler.symm (output?_of_quiet hquiet hstep (by simp) (by simp) name)

theorem Reachable.madeEmpty {config : Config} {s : Sys} (h : Reachable config s) : s.MadeEmpty := by
  refine Reaches.invariant_of (P := Sys.MadeEmpty) (fun s hs ↦ hs) (fun s hinit name hhandler ↦ ?_)
    (fun s a s' hs hmade _ hstep ↦ hmade.step hs hstep) h
  rw [hinit.handler] at hhandler
  cases hhandler

/-! ## What a step of the handler leaves alone -/

/-- Whether the request of a handler may still be refused. Until then it has changed nothing but the
token. -/
def Handler.mayRefuse : Handler → Bool
  | .recover | .createMap _ _ | .deleteMap _ _ | .loadMap _ _ | .stopMapping | .stopLocalization
  | .setInitialPose _ _ => true
  | .startMapping _ pc =>
    match pc with
    | .checkLocalization | .checkMapping | .saveService | .acquire | .findMap | .create
    | .checkOutput false => true
    | _ => false
  | .saveMap pc =>
    match pc with
    | .acquire | .transition _ => true
    | .path _ => false
  | .startLocalization _ pc =>
    match pc with
    | .checkMapping | .saveService | .checkLocalization | .acquire | .load => true
    | _ => false
  | .release reply => !reply.accepted
  | _ => false

/-- What would be observed without the token of the handler. -/
def Shared.observeWithout (s : Shared) (handler : Handler) : Observed :=
  if handler.holdsToken then Function.update s.observe .token false else s.observe

theorem observeWithout_known (s : Shared) (handler : Handler) (name : String) :
    s.observeWithout handler (.known name) = mapExists s.maps name := by
  unfold Shared.observeWithout
  split
  · exact Function.update_of_ne (by simp) ..
  · rfl

theorem observe_acquire {s : Shared} (hfree : s.operationInProgress = false) :
    Function.update ({ s with operationInProgress := true } : Shared).observe .token false =
      s.observe := by
  funext observable
  cases observable with
  | token => exact (Function.update_self ..).trans hfree.symm
  | _ => exact Function.update_of_ne (by simp) ..

/-- How a request that may be refused has to stand to the values from before it: a deletion that
fails may have made its map unknown. -/
def Handler.Matches (before after : Observed) : Handler → Prop
  | .release _ => Unaltered before after
  | _ => after = before

theorem Handler.Matches.of_eq {before after : Observed} (h : after = before) (handler : Handler) :
    handler.Matches before after := by
  cases handler with
  | release =>
    subst h
    exact .refl after
  | _ => exact h

theorem Handler.Matches.unaltered {before after : Observed} {handler : Handler}
    (h : handler.Matches before after) : Unaltered before after := by
  cases handler with
  | release => exact h
  | _ =>
    have hsame : after = before := h
    exact hsame ▸ .refl after

theorem observe_finishOperation (s : Shared) :
    s.finishOperation.observe = Function.update s.observe .token false := by
  funext observable
  cases observable with
  | token => exact (Function.update_self ..).symm
  | _ => exact (Function.update_of_ne (by simp) ..).symm

/-- The token is all that the acquisition of a start changes. -/
theorem observe_acquireForStart {config : Config} {label : String} {s s' : Shared}
    {next handler : Handler} (h : acquireForStart config label s handler = (s', .next next)) :
    Function.update s'.observe .token false = s.observe ∧ next = handler := by
  unfold acquireForStart at h
  split_ifs at h with hstate htoken
  · cases h
  · cases h
  · cases h
    exact ⟨observe_acquire (by simpa using htoken), rfl⟩

theorem CreateMap.observe_next {config : Config} {env : Env} {name : String} {s s' : Shared}
    {pc : CreateMap} {next : Handler} (hstep : pc.step config env name s = (s', .next next))
    (hnext : next.mayRefuse = true) :
    s'.observeWithout next = s.observeWithout (.createMap name pc) := by
  cases pc with
  | acquire =>
    simp only [CreateMap.step] at hstep
    split_ifs at hstep with hbusy
    · cases hstep
    · cases hstep
      exact observe_acquire (by simp_all)
  | create =>
    simp only [CreateMap.step] at hstep
    rcases hcreate : MapManager.createMap config.mapFrame env.text env.failure env.secondFailure
      s.maps name with ⟨maps, result⟩
    rw [hcreate] at hstep
    rcases createMap_cases hcreate with ⟨rfl, what, rfl⟩ | ⟨rfl, -, -, -⟩
    · cases hstep
      rfl
    · cases hstep
      cases hnext

/-- After a deletion that has failed no other maps are known than before. -/
theorem mapExists_of_failed {store store' : MapStore} {name other : String} {removed : Removed}
    (h : store' = store ∨ store' = updateDirectory store name removed.leave)
    (hknown : mapExists store' other = true) : mapExists store other = true := by
  rcases h with rfl | rfl
  · exact hknown
  · rcases mapExists_leave store name removed with hsame | hforgotten
    · rwa [hsame] at hknown
    · rw [hforgotten, Function.update_apply] at hknown
      split at hknown
      · cases hknown
      · exact hknown

theorem unaltered_of_fewer {s : Shared} {maps : MapStore} {name : String} {reply : Reply}
    (h : ∀ other, mapExists maps other = true → mapExists s.maps other = true) :
    Unaltered (s.observeWithout (.deleteMap name .remove))
      (({ s with maps := maps } : Shared).observeWithout (.release reply)) := by
  refine ⟨fun observable hfield ↦ ?_, fun other hknown ↦ ?_⟩
  · cases observable with
    | known other => exact absurd rfl (hfield other)
    | _ => rfl
  · rw [observeWithout_known] at hknown ⊢
    exact h other hknown

theorem DeleteMap.observe_next {env : Env} {name : String} {s s' : Shared} {pc : DeleteMap}
    {next : Handler} (hstep : pc.step env name s = (s', .next next))
    (hnext : next.mayRefuse = true) :
    next.Matches (s.observeWithout (.deleteMap name pc)) (s'.observeWithout next) := by
  cases pc with
  | acquire =>
    simp only [DeleteMap.step] at hstep
    split_ifs at hstep with hbusy hselected
    · cases hstep
    · cases hstep
    · cases hstep
      exact observe_acquire (by simp_all)
  | remove =>
    simp only [DeleteMap.step] at hstep
    rcases hdelete : MapManager.deleteMap env.removed env.failure s.maps name with ⟨maps, result⟩
    rw [hdelete] at hstep
    rcases deleteMap_cases hdelete with ⟨hmaps, what, rfl⟩ | ⟨rfl, -⟩
    · cases hstep
      exact unaltered_of_fewer fun other hknown ↦ mapExists_of_failed hmaps hknown
    · cases hstep
      cases hnext

theorem LoadMap.observe_next {config : Config} {env : Env} {name : String} {s s' : Shared}
    {pc : LoadMap} {next : Handler} (hstep : pc.step config env name s = (s', .next next))
    (hnext : next.mayRefuse = true) :
    s'.observeWithout next = s.observeWithout (.loadMap name pc) := by
  cases pc with
  | acquire =>
    simp only [LoadMap.step] at hstep
    split_ifs at hstep with hbusy
    · cases hstep
    · cases hstep
      exact observe_acquire (by simp_all)
  | load =>
    simp only [LoadMap.step] at hstep
    (repeat' split at hstep) <;> cases hstep <;> rfl
  | select path =>
    cases hstep
    cases hnext

/-- A start of mapping is refused before it has made its directory, unless the status of its output
cannot be read. -/
theorem StartMappingRequest.observe_next {config : Config} {env : Env} {name : String}
    {s s' : Shared} {pc : StartMappingRequest} {next : Handler}
    (hadmission : Admission.handler s (.startMapping name pc))
    (hmade : pc = .checkOutput true → isValidMapName name = true ∧ output? s.maps name = none ∧
      env.failure = none)
    (hstep : pc.step config env name s = (s', .next next)) (hnext : next.mayRefuse = true) :
    (Handler.startMapping name pc).mayRefuse = true ∧
      s'.observeWithout next = s.observeWithout (.startMapping name pc) := by
  cases pc with
  | checkLocalization | checkMapping | saveService =>
    simp only [StartMappingRequest.step] at hstep
    split_ifs at hstep <;> cases hstep
    exact ⟨rfl, rfl⟩
  | acquire =>
    obtain ⟨hsame, rfl⟩ := observe_acquireForStart hstep
    exact ⟨rfl, hsame⟩
  | findMap =>
    simp only [StartMappingRequest.step] at hstep
    (repeat' split at hstep) <;> cases hstep <;> exact ⟨rfl, rfl⟩
  | create =>
    simp only [StartMappingRequest.step] at hstep
    rcases hcreate : MapManager.createMap config.mapFrame env.text env.failure env.secondFailure
      s.maps name with ⟨maps, result⟩
    rw [hcreate] at hstep
    rcases createMap_cases hcreate with ⟨rfl, what, rfl⟩ | ⟨rfl, -, -, -⟩
    · cases hstep
      exact ⟨rfl, rfl⟩
    · cases hstep
      cases hnext
  | checkOutput created =>
    cases created with
    | true =>
      obtain ⟨hvalid, hnone, hread⟩ := hmade rfl
      rw [output?] at hnone
      simp only [StartMappingRequest.step, getMapPath_of_valid hvalid, hread, hnone] at hstep
      cases hstep
      cases hnext
    | false =>
      simp only [StartMappingRequest.step] at hstep
      repeat' split at hstep
      all_goals cases hstep
      · exact ⟨rfl, rfl⟩
      · exact ⟨rfl, rfl⟩
      · exact ⟨rfl, rfl⟩
      · cases hnext
  | select created =>
    cases hstep
    cases hnext
  | transition created =>
    simp only [StartMappingRequest.step, (Admission.canTransition_of_admits hadmission).1,
      if_true] at hstep
    cases hstep
    cases hnext
  | cleanup | unselect => exact hadmission.elim

/-- A start of localization is refused before it has changed the selection. -/
theorem StartLocalizationRequest.observe_next {config : Config} {env : Env} {name : String}
    {s s' : Shared} {pc : StartLocalizationRequest} {next : Handler}
    (hadmission : Admission.handler s (.startLocalization name pc))
    (hstep : pc.step config env name s = (s', .next next)) (hnext : next.mayRefuse = true) :
    (Handler.startLocalization name pc).mayRefuse = true ∧
      s'.observeWithout next = s.observeWithout (.startLocalization name pc) := by
  cases pc with
  | checkMapping | saveService | checkLocalization =>
    simp only [StartLocalizationRequest.step] at hstep
    split_ifs at hstep <;> cases hstep
    exact ⟨rfl, rfl⟩
  | acquire =>
    obtain ⟨hsame, rfl⟩ := observe_acquireForStart hstep
    exact ⟨rfl, hsame⟩
  | load =>
    simp only [StartLocalizationRequest.step] at hstep
    (repeat' split at hstep) <;> cases hstep
    · exact ⟨rfl, rfl⟩
    · exact ⟨rfl, rfl⟩
    · cases hnext
  | select | resetSession | resetQuality =>
    cases hstep
    cases hnext
  | transition =>
    simp only [StartLocalizationRequest.step, (Admission.canTransition_of_admits hadmission).2,
      if_true] at hstep
    cases hstep
    cases hnext
  | unselect => exact hadmission.elim

theorem SaveMapRequest.observe_next {config : Config} {s s' : Shared} {pc : SaveMapRequest}
    {next : Handler} (hstep : pc.step config s = (s', .next next))
    (hnext : next.mayRefuse = true) :
    (Handler.saveMap pc).mayRefuse = true ∧
      s'.observeWithout next = s.observeWithout (.saveMap pc) := by
  cases pc with
  | acquire =>
    simp only [SaveMapRequest.step] at hstep
    split_ifs at hstep with hstate hbusy
    · cases hstep
    · cases hstep
    · cases hstep
      exact ⟨rfl, observe_acquire (by simpa using hbusy)⟩
  | transition map =>
    simp only [SaveMapRequest.step] at hstep
    split_ifs at hstep with hcan
    · cases hstep
      cases hnext
    · cases hstep
      have hsame : s.transitionTo .mapSaving = s := by simp [Shared.transitionTo, hcan]
      rw [hsame]
      exact ⟨rfl, rfl⟩
  | path map =>
    simp only [SaveMapRequest.step] at hstep
    split at hstep <;> cases hstep
    cases hnext

/-- A request that may still be refused has been so from its beginning, and has changed nothing but
the token, where the status of its output can be read. -/
theorem observe_next {config : Config} {env : Env} {s s' : Shared} {handler next : Handler}
    (hadmission : Admission.handler s handler)
    (hmade : ∀ name, handler = .startMapping name (.checkOutput true) →
      isValidMapName name = true ∧ output? s.maps name = none ∧ env.failure = none)
    (hstep : handler.step config env s = (s', .next next)) (hnext : next.mayRefuse = true) :
    handler.mayRefuse = true ∧
      next.Matches (s.observeWithout handler) (s'.observeWithout next) := by
  have hequal (hsame : handler.mayRefuse = true ∧
      s'.observeWithout next = s.observeWithout handler) :
      handler.mayRefuse = true ∧
        next.Matches (s.observeWithout handler) (s'.observeWithout next) :=
    ⟨hsame.1, .of_eq hsame.2 next⟩
  cases handler with
  | recover | stopMapping | stopLocalization =>
    simp only [Handler.step, recoverStep, stopMappingStep, stopLocalizationStep] at hstep
    (repeat' split at hstep) <;> cases hstep
    cases hnext
  | createMap name pc => exact hequal ⟨rfl, CreateMap.observe_next hstep hnext⟩
  | deleteMap name pc => exact ⟨rfl, DeleteMap.observe_next hstep hnext⟩
  | loadMap name pc => exact hequal ⟨rfl, LoadMap.observe_next hstep hnext⟩
  | startMapping name pc =>
    exact hequal (StartMappingRequest.observe_next hadmission
      (fun hpc ↦ hmade name (by rw [hpc])) hstep hnext)
  | saveMap pc => exact hequal (SaveMapRequest.observe_next hstep hnext)
  | startLocalization name pc =>
    exact hequal (StartLocalizationRequest.observe_next hadmission hstep hnext)
  | setInitialPose pose pc =>
    cases pc with
    | check =>
      simp only [Handler.step, SetInitialPose.step] at hstep
      split_ifs at hstep <;> cases hstep
      exact ⟨rfl, rfl⟩
    | publish =>
      simp only [Handler.step, SetInitialPose.step] at hstep
      split at hstep <;> cases hstep
  | sensorTick pc =>
    cases pc <;> simp only [Handler.step, SensorTick.step, sensorSnapshot] at hstep <;>
      (repeat' split at hstep) <;> cases hstep <;> cases hnext
  | processTick pc =>
    cases pc <;> simp only [Handler.step, ProcessTick.step] at hstep <;>
      (repeat' split at hstep) <;> cases hstep <;> cases hnext
  | lastPoseTick pc =>
    simp only [Handler.step, lastPoseTickStep] at hstep
    split at hstep <;> cases hstep
    cases hnext
  | qualityTick pc => cases pc <;> cases hstep <;> cases hnext
  | release reply | launch launched reply => cases hstep

/-- A refusal leaves what the request has found. -/
theorem observe_refused {config : Config} {env : Env} {s s' : Shared} {handler : Handler}
    {r : HandlerNext} {reply : Reply} (hadmission : Admission.handler s handler)
    (hstep : handler.step config env s = (s', r)) (hreply : r.reply = some reply)
    (hrefused : reply.accepted = false) :
    handler.mayRefuse = true ∧ s'.observe = s.observeWithout handler := by
  cases handler with
  | release response =>
    cases hstep
    cases hreply
    exact ⟨by simp [Handler.mayRefuse, hrefused], observe_finishOperation s⟩
  | launch launched response =>
    cases hstep
    rw [hadmission reply hreply] at hrefused
    cases hrefused
  | recover | stopMapping | stopLocalization =>
    simp only [Handler.step, recoverStep, stopMappingStep, stopLocalizationStep] at hstep
    (repeat' split at hstep) <;> cases hstep <;> cases hreply <;> exact ⟨rfl, rfl⟩
  | createMap name pc =>
    cases pc <;> simp only [Handler.step, CreateMap.step] at hstep <;>
      (repeat' split at hstep) <;> cases hstep <;> cases hreply
    exact ⟨rfl, rfl⟩
  | deleteMap name pc =>
    cases pc <;> simp only [Handler.step, DeleteMap.step] at hstep <;>
      (repeat' split at hstep) <;> cases hstep <;> cases hreply <;> exact ⟨rfl, rfl⟩
  | loadMap name pc =>
    cases pc <;> simp only [Handler.step, LoadMap.step] at hstep <;>
      (repeat' split at hstep) <;> cases hstep <;> cases hreply
    exact ⟨rfl, rfl⟩
  | startMapping name pc =>
    cases pc <;> simp only [Handler.step, StartMappingRequest.step, acquireForStart] at hstep <;>
      (repeat' split at hstep) <;> cases hstep <;> cases hreply <;> exact ⟨rfl, rfl⟩
  | startLocalization name pc =>
    cases pc <;>
      simp only [Handler.step, StartLocalizationRequest.step, acquireForStart] at hstep <;>
      (repeat' split at hstep) <;> cases hstep <;> cases hreply <;> exact ⟨rfl, rfl⟩
  | saveMap pc =>
    cases pc <;> simp only [Handler.step, SaveMapRequest.step] at hstep <;>
      (repeat' split at hstep) <;> cases hstep <;> cases hreply <;> exact ⟨rfl, rfl⟩
  | setInitialPose pose pc =>
    cases pc with
    | check =>
      simp only [Handler.step, SetInitialPose.step] at hstep
      (repeat' split at hstep) <;> cases hstep <;> cases hreply <;> exact ⟨rfl, rfl⟩
    | publish =>
      simp only [Handler.step, SetInitialPose.step] at hstep
      split at hstep <;> cases hstep <;> cases hreply
      · exact ⟨rfl, rfl⟩
      · cases hrefused
  | sensorTick pc =>
    cases pc <;> simp only [Handler.step, SensorTick.step, sensorSnapshot] at hstep <;>
      (repeat' split at hstep) <;> cases hstep <;> cases hreply
  | processTick pc =>
    cases pc <;> simp only [Handler.step, ProcessTick.step] at hstep <;>
      (repeat' split at hstep) <;> cases hstep <;> cases hreply
  | lastPoseTick pc =>
    simp only [Handler.step, lastPoseTickStep] at hstep
    split at hstep <;> cases hstep <;> cases hreply
  | qualityTick pc => cases pc <;> cases hstep <;> cases hreply

/-! ## Runs -/

/-- While a request may still be refused, the values from before it are those observed without its
token, unless it has been given up with its new directory. -/
structure Carried (s : Sys) (h : RequestHistory) : Prop where
  matches_before : ∀ handler, s.handler = some handler → handler.mayRefuse = true →
    h.unread = false → handler.Matches h.before (s.shared.observeWithout handler)
  made : ∀ name, s.handler = some (.startMapping name (.checkOutput true)) →
    h.before (.known name) = false ∧ mapExists s.shared.maps name = true
  unread : ∀ handler, s.handler = some handler → h.unread = true →
    ∃ reply name, handler = .release reply ∧ h.before (.known name) = false ∧
      mapExists s.shared.maps name = true

/-- The other threads leave the token of a handler alone. -/
theorem follow_observeWithout {config : Config} {s s' : Sys} {a : Action} {handler : Handler}
    (hreach : Reachable config s) (hstep : s.step config a = some s')
    (hbefore : s.handler = some handler) (hafter : s'.handler = some handler) :
    follow (s.shared.observeWithout handler) s.shared.observe s'.shared.observe =
      s'.shared.observeWithout handler := by
  unfold Shared.observeWithout
  split_ifs with hholds
  · have htoken {s : Sys} (hexclusive : s.Exclusive) (hhandler : s.handler = some handler) :
        s.shared.operationInProgress = true :=
      hexclusive.handler (by rw [Sys.handlerHolds, hhandler]; exact hholds)
    apply follow_update
    exact (htoken (hreach.exclusive.step hstep) hafter).trans
      (htoken hreach.exclusive hbefore).symm
  · exact follow_self ..

/-- The values from before a request are carried along. -/
theorem Handler.Matches.follow {before now now' seen seen' : Observed} {handler : Handler}
    (h : handler.Matches before now) (hcarried : follow now seen seen' = now') :
    handler.Matches (TransitionSystem.follow before seen seen') now' := by
  subst hcarried
  cases handler with
  | release =>
    refine ⟨fun observable hfield ↦ ?_, fun name hafter ↦ ?_⟩
    · simp only [TransitionSystem.follow, Unaltered.fields h observable hfield]
    · simp only [TransitionSystem.follow] at hafter ⊢
      by_cases hsame : seen' (.known name) = seen (.known name)
      · rw [if_pos hsame] at hafter ⊢
        exact Unaltered.known h name hafter
      · rw [if_neg hsame] at hafter ⊢
        exact hafter
  | _ =>
    have hsame : now = before := h
    rw [hsame]
    exact .of_eq rfl _

theorem Request.observeWithout (request : Request) (s : Shared) :
    s.observeWithout request.handler = s.observe := by
  cases request <;> rfl

theorem follow_known {s s' : Shared} (h : mapExists s'.maps = mapExists s.maps) (before : Observed)
    (name : String) :
    follow before s.observe s'.observe (.known name) = before (.known name) :=
  if_pos (congrFun h name)

/-- Beside the handler nothing is lost of what is known about its request. -/
theorem Carried.beside {config : Config} {s s' : Sys} {a : Action} {h : RequestHistory}
    (hcarried : Carried s h) (hreach : Reachable config s) (hstep : s.step config a = some s')
    (hother : s'.handler = s.handler) (hmaps : s.handlerHolds = true →
      mapExists s'.shared.maps = mapExists s.shared.maps) :
    Carried s' { h with before := follow h.before s.shared.observe s'.shared.observe } := by
  refine ⟨fun handler hafter hmay hread ↦ ?_, fun name hafter ↦ ?_, fun handler hafter hunread ↦ ?_⟩
  · have hbefore := hother.symm.trans hafter
    exact (hcarried.matches_before handler hbefore hmay hread).follow
      (follow_observeWithout hreach hstep hbefore hafter)
  · have hbefore := hother.symm.trans hafter
    have hsame := hmaps (by simp [Sys.handlerHolds, hbefore, Handler.holdsToken])
    obtain ⟨hnew, hknown⟩ := hcarried.made name hbefore
    exact ⟨(follow_known hsame h.before name).trans hnew, by rw [hsame, hknown]⟩
  · have hbefore := hother.symm.trans hafter
    obtain ⟨reply, name, rfl, hnew, hknown⟩ := hcarried.unread handler hbefore hunread
    have hsame := hmaps (by simp [Sys.handlerHolds, hbefore, Handler.holdsToken])
    exact ⟨reply, name, rfl, (follow_known hsame h.before name).trans hnew, by rw [hsame, hknown]⟩

theorem outputUnread_eq_true {s : Sys} {env : Env} (h : s.outputUnread env = true) :
    ∃ name what, s.handler = some (.startMapping name (.checkOutput true)) ∧
      env.failure = some what := by
  unfold Sys.outputUnread at h
  split at h
  · rename_i name hhandler
    obtain ⟨what, hfailure⟩ := Option.isSome_iff_exists.mp h
    exact ⟨name, what, hhandler, hfailure⟩
  · cases h

/-- A step of the handler either gives the request up with its new directory or changes nothing but
the token, as long as the request may be refused. -/
theorem Carried.handler_step {config : Config} {s s' : Sys} {env : Env} {h : RequestHistory}
    (hcarried : Carried s h) (hreach : Reachable config s)
    (hstep : s.step config (.handler env) = some s') :
    Carried s' { h with unread := h.unread || s.outputUnread env } := by
  obtain ⟨running, r, hrunning, hr, hmove⟩ := Sys.handlerMove_of_step hstep
  cases hmove with
  | ended _ _ hended | launched _ _ hended => constructor <;> simp [hended]
  | @next next hnext =>
    cases hfails : s.outputUnread env with
    | true =>
      obtain ⟨name, what, hchecks, hfailure⟩ := outputUnread_eq_true hfails
      cases hrunning.symm.trans hchecks
      obtain ⟨hvalid, -⟩ := hreach.madeEmpty name hchecks
      obtain ⟨hnew, hknown⟩ := hcarried.made name hchecks
      simp only [Handler.step, StartMappingRequest.step, getMapPath_of_valid hvalid, hfailure] at hr
      obtain ⟨hshared, hrelease⟩ := Prod.mk.inj hr
      cases hrelease
      refine ⟨fun _ _ _ hread ↦ by simp at hread, fun other hafter ↦ ?_, fun handler hafter _ ↦ ?_⟩
      · cases hnext.symm.trans hafter
      · cases hnext.symm.trans hafter
        exact ⟨_, name, rfl, hnew, hshared ▸ hknown⟩
    | false =>
      have hread (name : String) (hpc : running = .startMapping name (.checkOutput true)) :
          isValidMapName name = true ∧ output? s.shared.maps name = none ∧ env.failure = none := by
        subst hpc
        obtain ⟨hvalid, hempty⟩ := hreach.madeEmpty name hrunning
        simp only [Sys.outputUnread, hrunning] at hfails
        exact ⟨hvalid, hempty, by simpa using hfails⟩
      refine ⟨fun handler hafter hmay hunread ↦ ?_, fun name hafter ↦ ?_,
        fun handler hafter hunread ↦ ?_⟩
      · cases hnext.symm.trans hafter
        obtain ⟨hmayBefore, hmatches⟩ := observe_next (hreach.admission.handler running hrunning)
          hread hr hmay
        have hbefore := hcarried.matches_before running hrunning hmayBefore (by simpa using hunread)
        cases running with
        | release reply => cases (Prod.mk.inj hr).2
        | _ =>
          have hsame : s.shared.observeWithout _ = h.before := hbefore
          rwa [hsame] at hmatches
      · cases hnext.symm.trans hafter
        obtain ⟨rfl, hvalid, hnew, hmaps⟩ := created_of_step hr
        have hunread : h.unread = false := by
          by_contra hunread
          obtain ⟨_, _, hrelease, -⟩ := hcarried.unread _ hrunning (by simpa using hunread)
          cases hrelease
        have hbefore : s.shared.observeWithout (.startMapping name .create) = h.before :=
          hcarried.matches_before _ hrunning rfl hunread
        refine ⟨?_, ?_⟩
        · rw [← hbefore, observeWithout_known, mapExists, directory?_none_of_notMem hnew]
          simp
          rfl
        · rw [hmaps, mapExists_insert _ hvalid rfl, Function.update_self]
      · have hunread : h.unread = true := by simpa using hunread
        obtain ⟨_, _, rfl, -⟩ := hcarried.unread _ hrunning hunread
        cases (Prod.mk.inj hr).2

theorem Carried.step {config : Config} {s s' : Sys} {a : Action} {h : RequestHistory}
    (hcarried : Carried s h) (hreach : Reachable config s) (hstep : s.step config a = some s') :
    Carried s' (h.note s a s') := by
  cases a with
  | call request =>
    obtain ⟨-, rfl⟩ := Sys.call_of_step hstep
    refine ⟨fun handler hafter _ _ ↦ ?_, fun name hafter ↦ ?_, fun _ _ hunread ↦ by cases hunread⟩
    · cases hafter
      exact .of_eq (request.observeWithout s.shared) _
    · cases request <;> cases hafter
  | handler env => exact hcarried.handler_step hreach hstep
  | operation env =>
    obtain ⟨running, hrunning, rfl⟩ := Option.map_eq_some_iff.mp hstep
    refine hcarried.beside hreach hstep rfl fun hholds ↦ ?_
    rw [hreach.exclusive.of_operation hrunning] at hholds
    cases hholds
  | deliver | callback | observe | exit | writeMap | takeSave | writeSave =>
    exact hcarried.beside hreach hstep
      (bystander_of_step hstep (by simp) (by simp) (by simp)).handler
      fun _ ↦ (storeMove_of_step hstep).mapExists rfl (by simp)

/-- The runs of the manager beside the history of the present request. -/
abbrev RequestReaches (config : Config) : Sys × RequestHistory → Prop :=
  Reaches (requestStep config) anyAction fun s ↦ s.1.Initial

theorem RequestReaches.reachable {config : Config} {s : Sys × RequestHistory}
    (h : RequestReaches config s) : Reachable config s.1 :=
  h.of_noting (fun _ _ _ ↦ trivial) fun _ hinit ↦ hinit

theorem carried_of_reaches {config : Config} {s : Sys × RequestHistory}
    (h : RequestReaches config s) : Carried s.1 s.2 := by
  refine Reaches.invariant_of (P := fun s : Sys × RequestHistory ↦ Carried s.1 s.2)
    (fun s hs ↦ RequestReaches.reachable hs) (fun s hinit ↦ ?_)
    (fun s a s' hreach hs _ hstep ↦ ?_) h
  · constructor <;> simp [hinit.handler]
  · obtain ⟨hnext, hnote⟩ := noting_eq_some hstep
    rw [hnote]
    exact hs.step hreach hnext

/-- A refused request changes nothing, unless it has made a directory whose output it could not ask
for: when its handler returns, the state, the selected map, the error fields, the token and both
managed processes are those from before the request, carried along by the steps of the others, and
no map has been added. -/
theorem refused_unchanged (config : Config) (s : Sys) (h : RequestHistory)
    (hreach : RequestReaches config (s, h)) (env : Env) (s' : Sys) (handler : Handler)
    (reply : Reply) (hhandler : s.handler = some handler)
    (hstep : s.step config (.handler env) = some s')
    (hreply : (handler.step config env s.shared).2.reply = some reply)
    (hrefused : reply.accepted = false) :
    Unaltered h.before s'.shared.observe ↔ h.unread = false := by
  obtain ⟨running, r, hrunning, hr, -⟩ := Sys.handlerMove_of_step hstep
  rw [hhandler] at hrunning
  cases hrunning
  rw [hr] at hreply
  have hcarried := carried_of_reaches hreach
  obtain ⟨hmay, hsame⟩ := observe_refused
    ((RequestReaches.reachable hreach).admission.handler handler hhandler) hr hreply hrefused
  rw [hsame]
  constructor
  · intro hunaltered
    by_contra hunread
    obtain ⟨response, name, -, hnew, hknown⟩ :=
      hcarried.unread handler hhandler (by simpa using hunread)
    have hadded := hunaltered.known name ((observeWithout_known _ _ _).trans hknown)
    rw [hnew] at hadded
    cases hadded
  · exact fun hread ↦ (hcarried.matches_before handler hhandler hmay hread).unaltered

/-- The response that a handler gives when it releases the token. -/
def Sys.releasing (s : Sys) : Option Reply :=
  match s.handler with
  | some (.release reply) => some reply
  | _ => none

theorem handler_of_releasing {s : Sys} {reply : Reply} (h : s.releasing = some reply) :
    s.handler = some (.release reply) := by
  unfold Sys.releasing at h
  split at h
  · rename_i response hhandler
    cases h
    exact hhandler
  · cases h

/-- A replay of a request that is about to give its answer. -/
theorem exists_of_requestReplay (maps : MapStore) (actions : List Action) (reply : Reply)
    (test : Sys → RequestHistory → Bool)
    (hrun : ((exec (requestStep {}) (Sys.initial maps, ⟨(Sys.initial maps).shared.observe, false⟩)
      actions).any fun s ↦ decide (s.1.releasing = some reply) && test s.1 s.2) = true) :
    ∃ s h s', RequestReaches {} (s, h) ∧ s.handler = some (.release reply) ∧
      s.step {} (.handler {}) = some s' ∧ s'.shared = s.shared.finishOperation ∧
      test s h = true := by
  have hstart : RequestReaches {}
      (Sys.initial maps, ⟨(Sys.initial maps).shared.observe, false⟩) := .start (initial_initial _)
  obtain ⟨⟨s, h⟩, hreach, htest⟩ := hstart.exists_of_exec hrun
  obtain ⟨hreleasing, htest⟩ := Bool.and_eq_true_iff.mp htest
  have hhandler : s.handler = some (.release reply) :=
    handler_of_releasing (of_decide_eq_true hreleasing)
  refine ⟨s, h, { s with
      shared := s.shared.finishOperation
      handler := none
      lastReply := some reply }, hreach, hhandler, ?_, rfl, htest⟩
  simp [Sys.step, hhandler, Handler.step, Sys.afterHandler]

/-- A start of mapping finds the map file of a saved map after it has taken the token. -/
theorem refused_unchanged_overwrite :
    ∃ s h s', RequestReaches {} (s, h) ∧
      s.handler = some (.release (reject "Refusing to overwrite an existing map.pcd")) ∧
      s.step {} (.handler {}) = some s' ∧ Unaltered h.before s'.shared.observe := by
  obtain ⟨s, h, s', hreach, hhandler, hstep, -, htest⟩ := exists_of_requestReplay
    (storedMaps ["m"])
    (toWaitMode ++ .call (.startMapping "m") :: List.replicate 6 (.handler absentEnv))
    (reject "Refusing to overwrite an existing map.pcd") (fun _ h ↦ !h.unread) (by decide +kernel)
  exact ⟨s, h, s', hreach, hhandler, hstep,
    (refused_unchanged {} s h hreach {} s' _ _ hhandler hstep rfl rfl).mpr (by simpa using htest)⟩

/-- A start of mapping has made the directory of a new map and cannot ask for its output: the
request is refused, and the map stays. -/
theorem refused_map_added :
    ∃ s h s', RequestReaches {} (s, h) ∧
      s.handler = some (.release (reject "filesystem error: status: Input/output error")) ∧
      s.step {} (.handler {}) = some s' ∧ h.before (.known "m") = false ∧
      s'.shared.observe (.known "m") = true := by
  obtain ⟨s, h, s', hreach, hhandler, hstep, hafter, htest⟩ := exists_of_requestReplay ∅
    (toWaitMode ++ .call (.startMapping "m") :: List.replicate 6 (.handler absentEnv) ++
      [.handler { failure := some "filesystem error: status: Input/output error" }])
    (reject "filesystem error: status: Input/output error")
    (fun s h ↦ !(h.before (.known "m") : Bool) && mapExists s.shared.maps "m") (by decide +kernel)
  obtain ⟨hnew, hknown⟩ := Bool.and_eq_true_iff.mp htest
  have hunknown : h.before (.known "m") = false := by
    cases hbefore : h.before (.known "m") with
    | false => rfl
    | true =>
      rw [hbefore] at hnew
      cases hnew
  refine ⟨s, h, s', hreach, hhandler, hstep, hunknown, ?_⟩
  rw [hafter]
  exact hknown

end SlamSystemManager.Manager
