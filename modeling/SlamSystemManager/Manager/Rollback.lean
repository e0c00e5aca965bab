import SlamSystemManager.Manager.Ownership
import SlamSystemManager.Manager.Store

/-!
# Rollback of a start of mapping

A start of mapping creates the directory of its map when there is none, and selects the map. Each
of its exits undoes both by hand: the request when its transition is refused, the body when the
adapter does not start. Two ways out of the body undo nothing: an exception that leaves it, and a
start that succeeds after the state has left MAPPING_STARTING. Every other run of an accepted start
that does not reach MAPPING leaves the maps as they were when it was requested. A request that is
refused because it cannot ask for the output of its new directory does not undo the directory.
-/

open TransitionSystem

namespace SlamSystemManager.Manager

open MapManager

/-! ## The history of a start -/

/-- A start of mapping that has taken the token, with the maps known when it was requested, the map
selected when it took the token, whether its body has left the paths that undo it, and whether its
request was given up because the output of its new directory could not be asked for. -/
structure MappingStart where
  map : String
  known : String → Bool
  selected : String
  aborted : Bool := false
  unread : Bool := false

structure StartHistory where
  /-- The maps known when a start of mapping was last requested. -/
  asked : String → Bool := fun _ ↦ false
  /-- The start that owns the token and has not reached MAPPING. -/
  started : Option MappingStart := none

/-- Whether a step of the body leaves the paths that undo a start: it throws, or the adapter has
started and the transition to MAPPING is refused. -/
def StartMapping.cutShort (env : Env) (s : Shared) : StartMapping → Bool
  | .started => env.throws.isSome || !s.currentState.canTransition .mapping
  | _ => env.throws.isSome

/-- The start in the history after a step of a handler; a request that goes on from its acquisition
has taken the token. -/
def Handler.noteStart (env : Env) (asked : String → Bool) (s : Shared) (next : Option Handler)
    (started : Option MappingStart) : Handler → Option MappingStart
  | .startMapping name .acquire =>
    if next.isSome then some { map := name, known := asked, selected := s.currentMap } else started
  | .startMapping _ (.checkOutput true) =>
    if env.failure.isSome then started.map fun start ↦ { start with unread := true } else started
  | .release _ => none
  | _ => started

/-- The start in the history after a step of the operation thread. -/
def Operation.noteStart (env : Env) (s : Shared) (started : Option MappingStart) :
    Operation → Option MappingStart
  | .startMapping _ _ pc =>
    if pc.cutShort env s then started.map fun start ↦ { start with aborted := true }
    else if pc = .started then none
    else started
  | .finish => none
  | _ => started

def StartHistory.note (h : StartHistory) (s : Sys) (a : Action) (s' : Sys) : StartHistory :=
  match a with
  | .call (.startMapping _) => { h with asked := mapExists s.shared.maps }
  | .handler env =>
    { h with
      started := s.handler.elim h.started (·.noteStart env h.asked s.shared s'.handler h.started) }
  | .operation env =>
    { h with started := s.operation.elim h.started (·.noteStart env s.shared h.started) }
  | _ => h

/-- The manager beside the history of its starts of mapping. -/
abbrev startStep (config : Config) : Sys × StartHistory → Action → Option (Sys × StartHistory) :=
  noting (Sys.step config) StartHistory.note

/-- `deleteMap` does not fail where a start undoes its directory. -/
def cleanupSucceeds (s : Sys) : Action → Prop
  | .handler env => ∀ map, s.handler = some (.startMapping map .cleanup) → env.failure = none
  | .operation env => ∀ map created shouldTransition,
      s.operation = some (.startMapping map created (.cleanup shouldTransition)) →
      env.failure = none
  | _ => True

/-- The maps are those known at the request, and the map of the start is not selected. -/
def MappingStart.RolledBack (start : MappingStart) (s : Shared) : Prop :=
  mapExists s.maps = start.known ∧ s.currentMap ≠ start.map

/-! ## Assertions -/

namespace MappingStart

/-- What undoes the directory of the start leaves the maps known at the request. -/
def Undoes (start : MappingStart) (maps : MapStore) : Bool → Prop
  | true => start.known start.map = false ∧
      mapExists maps = Function.update start.known start.map true
  | false => mapExists maps = start.known

/-- The states of a start whose body has not come to its transition to MAPPING. -/
def starting (state : SystemState) : Prop := state = .mappingStarting ∨ state = .error

def operation (start : MappingStart) (s : Shared) : Operation → Prop
  | .startMapping map created pc =>
    map = start.map ∧
      match pc with
      | .stopAborted _ => start.aborted = true ∧ s.currentMap = start.map
      | .cleanup _ =>
        created = true ∧ start.aborted = false ∧ start.Undoes s.maps true ∧
          s.currentMap ≠ start.map ∧ starting s.currentState
      | _ =>
        start.aborted = false ∧ start.Undoes s.maps created ∧ s.currentMap = start.map ∧
          starting s.currentState
  | .fail _ _ | .enterError | .finish => start.RolledBack s ↔ start.aborted = false
  | _ => False

def handler (start : MappingStart) (s : Shared) : Handler → Prop
  | .startMapping name pc =>
    name = start.map ∧ (start.aborted = false ∧ start.unread = false) ∧
      match pc with
      | .findMap | .create => start.Undoes s.maps false ∧ s.currentMap = start.selected
      | .checkOutput created =>
        start.Undoes s.maps created ∧ (created = true → output? s.maps start.map = none) ∧
          s.currentMap = start.selected
      | .select created => start.Undoes s.maps created
      | .transition created => start.Undoes s.maps created ∧ s.currentMap = start.map
      | .cleanup => start.Undoes s.maps true
      | .unselect => start.Undoes s.maps false
      | _ => False
  | .release _ =>
    (mapExists s.maps = start.known ↔ start.unread = false) ∧
      (s.currentMap ≠ start.map ∨ s.currentMap = start.selected)
  | .launch launched _ =>
    (∃ map created, launched = .startMapping map created .checkRunning) ∧
      start.operation s launched
  | _ => False

end MappingStart

/-- Whether a handler runs a start of mapping that has taken the token. -/
def Handler.startsMapping : Handler → Bool
  | .startMapping name pc => (Handler.startMapping name pc).holdsToken
  | .launch (.startMapping _ _ _) _ => true
  | _ => false

def Operation.startsMapping : Operation → Bool
  | .startMapping _ _ _ => true
  | _ => false

/-- A start in the history is where its assertion says; without one no start is under way. -/
def Sys.Tracked (s : Sys) : Option MappingStart → Prop
  | some start =>
    (∃ handler, s.handler = some handler ∧ start.handler s.shared handler) ∨
      ∃ operation, s.operation = some operation ∧ start.operation s.shared operation
  | none =>
    (∀ handler, s.handler = some handler → handler.startsMapping = false) ∧
      ∀ operation, s.operation = some operation → operation.startsMapping = false

/-! ## Steps of the other threads -/

/-- What every assertion about a start survives. -/
structure Kept (s s' : Shared) : Prop where
  maps : mapExists s'.maps = mapExists s.maps
  map : s'.currentMap = s.currentMap
  drift : ModeExclusion.Drift s.currentState s'.currentState

theorem Kept.of_eq {s s' : Shared} (h : s' = s) : Kept s s' := by
  subst h
  exact ⟨rfl, rfl, Or.inl rfl⟩

theorem MappingStart.undoes_congr {start : MappingStart} {maps maps' : MapStore}
    (h : mapExists maps' = mapExists maps) : start.Undoes maps' = start.Undoes maps := by
  funext created
  cases created <;> simp only [MappingStart.Undoes, h]

/-- The assertion about a handler is one about an owner of the token. -/
theorem MappingStart.holdsToken_of_handler {start : MappingStart} {s : Shared} {handler : Handler}
    (hs : start.handler s handler) : handler.holdsToken = true := by
  cases handler with
  | startMapping name pc =>
    obtain ⟨-, -, hpc⟩ := hs
    cases pc <;> first | rfl | exact hpc.elim
  | release | launch => rfl
  | _ => exact hs.elim

theorem MappingStart.operation_kept {start : MappingStart} {s s' : Shared} (h : Kept s s')
    {operation : Operation} (hs : start.operation s operation) : start.operation s' operation := by
  have hstarting : starting s.currentState → starting s'.currentState :=
    ModeExclusion.mappingStarting_drift h.drift
  have hundoes : start.Undoes s'.maps = start.Undoes s.maps := undoes_congr h.maps
  cases operation with
  | startMapping map created pc =>
    obtain ⟨hmap, hpc⟩ := hs
    refine ⟨hmap, ?_⟩
    cases pc <;> simp_all [h.map]
  | fail | enterError | finish =>
    simp only [MappingStart.operation, MappingStart.RolledBack, h.maps, h.map] at hs ⊢
    exact hs
  | _ => exact hs

theorem MappingStart.handler_kept {start : MappingStart} {s s' : Shared} (h : Kept s s')
    {handler : Handler} (hs : start.handler s handler)
    (houtput : ∀ created, handler = .startMapping start.map (.checkOutput created) →
      output? s'.maps start.map = output? s.maps start.map) : start.handler s' handler := by
  have hundoes : start.Undoes s'.maps = start.Undoes s.maps := undoes_congr h.maps
  cases handler with
  | startMapping name pc =>
    obtain ⟨rfl, haborted, hpc⟩ := hs
    refine ⟨rfl, haborted, ?_⟩
    cases pc <;> simp_all [h.map]
  | release reply =>
    simp only [MappingStart.handler, h.maps, h.map] at hs ⊢
    exact hs
  | launch launched reply => exact ⟨hs.1, operation_kept h hs.2⟩
  | _ => exact hs

/-- A handler that does not own the token keeps what a start of the operation thread rests on. -/
theorem kept_of_handler (config : Config) (env : Env) {s : Shared} {handler : Handler}
    (hassertion : ModeExclusion.handler s handler) (hidle : handler.holdsToken = false)
    (htoken : s.operationInProgress = true) : Kept s (handler.step config env s).1 := by
  by_cases hmode : ModeExclusion.entersMode handler = true
  · rcases ModeExclusion.recover_or_holdsToken hmode with rfl | hholds
    · apply Kept.of_eq
      simp only [Handler.step, recoverStep, htoken]
      split <;> rfl
    · simp_all
  · refine ⟨?_, ?_, (ModeExclusion.stable_of_handler config env hassertion
      (by simpa using hmode)).drift⟩
    · cases handler.store config env s with
      | same hsame => rw [hsame]
      | create name utcNow hcreates =>
        have := Handler.holdsToken_of_creates hcreates
        simp_all
      | remove name hremoves | leave name removed hremoves =>
        have := Handler.holdsToken_of_removes hremoves
        simp_all
    · rcases (handler.effect config env s).map with hsame | hwritten
      · exact hsame
      · have := Handler.holdsToken_of_mapWritten hwritten
        simp_all

/-- Neither an adapter callback nor the environment disturbs a start. -/
theorem kept_of_step {config : Config} {s s' : Sys} {a : Action} (hstep : s.step config a = some s')
    (hhandler : ∀ env, a ≠ .handler env) (hoperation : ∀ env, a ≠ .operation env) :
    Kept s.shared s'.shared := by
  have hmaps : mapExists s'.shared.maps = mapExists s.shared.maps := by
    refine (storeMove_of_step hstep).mapExists ?_ fun env handler haction ↦ ?_
    · cases a with
      | handler env => exact absurd rfl (hhandler env)
      | operation env => exact absurd rfl (hoperation env)
      | _ => rfl
    · exact absurd haction (hhandler env)
  cases Sys.move_of_step hstep with
  | call | deliver => exact .of_eq rfl
  | @callback id env callback hcallback =>
    have heffect := callback.effect config env s.shared
    exact ⟨hmaps, heffect.map, (ModeExclusion.stable_of_interference heffect.interference).drift⟩
  | environment heffect => exact ⟨hmaps, heffect.map, Or.inl heffect.state⟩
  | @operation env => exact absurd rfl (hoperation env)
  | @handlerNext env | @handlerDone env | @handlerLaunch env | @handlerEscape env =>
    exact absurd rfl (hhandler env)

/-! ## The body of a start -/

theorem Kept.of_stopStep {env : Env} {leader : Leader} {s s' : Shared} {stage : StopStage}
    {next : StopStage ⊕ StopResult} (h : stopStep env leader s stage = (s', next)) : Kept s s' := by
  rcases stopStep_cases h with rfl | ⟨-, rfl, -⟩ <;> exact ⟨rfl, rfl, Or.inl rfl⟩

namespace MappingStart

/-- A directory that a start has made is one more than the maps known at the request. -/
theorem known_ne_of_created {start : MappingStart} {maps : MapStore}
    (h : start.Undoes maps true) : mapExists maps ≠ start.known := by
  intro hsame
  have hknown := congrFun (h.2.symm.trans hsame) start.map
  rw [Function.update_self, h.1] at hknown
  cases hknown

theorem not_rolledBack_of_selected {start : MappingStart} {s : Shared}
    (h : s.currentMap = start.map) : ¬ start.RolledBack s :=
  fun hrolled ↦ hrolled.2 h

/-- The directory a start has created is a map that was not known. -/
theorem not_rolledBack_of_created {start : MappingStart} {s : Shared}
    (h : start.Undoes s.maps true) : ¬ start.RolledBack s :=
  fun hrolled ↦ known_ne_of_created h hrolled.1

theorem mapExists_of_undoes {start : MappingStart} {maps : MapStore}
    (h : start.Undoes maps true) : mapExists maps start.map = true := by
  rw [h.2, Function.update_self]

/-- The directory a start has created is there to be removed, and its removal leaves the maps known
at the request. -/
theorem mapExists_deleteMap {start : MappingStart} {maps : MapStore} (removed : Removed)
    (h : start.Undoes maps true) :
    mapExists (MapManager.deleteMap removed none maps start.map).1 = start.known := by
  obtain ⟨hvalid, hdirectory⟩ := Bool.and_eq_true_iff.mp (mapExists_of_undoes h)
  obtain ⟨contents, hcontents, -⟩ := (Option.any_eq_true _ _).mp hdirectory
  have hdelete : (MapManager.deleteMap removed none maps start.map).1 = maps.erase start.map := by
    simp [MapManager.deleteMap, mapDirectory, hvalid, hcontents]
  rw [hdelete, mapExists_erase, h.2, Function.update_idem]
  exact Function.update_eq_self_iff.mpr h.1.symm

theorem operation_errorOrFinish {start : MappingStart} {s : Shared}
    (h : start.RolledBack s ↔ start.aborted = false) (shouldTransition : Bool) :
    start.operation s (errorOrFinish shouldTransition) := by
  cases shouldTransition <;> exact h

/-- A start that goes its way keeps the paths that undo it open. -/
theorem startMapping_step (config : Config) (env : Env) {start : MappingStart} {s : Shared}
    {map : String} {created : Bool} {pc : StartMapping}
    (hname : pc = .unselect → start.map ≠ "") (hstarted : pc ≠ .started)
    (hdelete : ∀ target, pc = .cleanup target → env.failure = none)
    (hs : start.operation s (.startMapping map created pc)) :
    start.operation (pc.step config env map created s).1 (pc.step config env map created s).2 := by
  obtain ⟨hmap, hpc⟩ := hs
  subst hmap
  cases pc with
  | started => exact absurd rfl hstarted
  | stopTimedOut stage =>
    simp only [StartMapping.step]
    split
    all_goals
      rename_i hstop
      exact operation_kept (.of_stopStep hstop) ⟨rfl, hpc⟩
  | stopAborted stage =>
    simp only [StartMapping.step]
    split
    · rename_i hstop
      exact operation_kept (.of_stopStep hstop) ⟨rfl, hpc⟩
    · rename_i hstop
      have hselected := (Kept.of_stopStep hstop).map.trans hpc.2
      exact iff_of_false (not_rolledBack_of_selected hselected) (by simp [hpc.1])
  | unselect =>
    obtain ⟨haborted, hundoes, -, hstarting⟩ := hpc
    have hunselected : "" ≠ start.map := (hname rfl).symm
    cases created with
    | true => exact ⟨rfl, rfl, haborted, hundoes, hunselected, hstarting⟩
    | false =>
      have hrolled : start.RolledBack { s with currentMap := "" } := ⟨hundoes, hunselected⟩
      exact operation_errorOrFinish (iff_of_true hrolled haborted) _
  | cleanup shouldTransition =>
    obtain ⟨-, haborted, hundoes, hunselected, -⟩ := hpc
    simp only [StartMapping.step, hdelete shouldTransition rfl]
    have hrolled : start.RolledBack
        { s with maps := (MapManager.deleteMap env.removed none s.maps start.map).1 } :=
      ⟨mapExists_deleteMap env.removed hundoes, hunselected⟩
    exact operation_errorOrFinish (iff_of_true hrolled haborted) _
  | checkRunning | saveService | prepareConfig | startProcess | waitService | checkAlive
  | readExitCode | failed =>
    simp only [StartMapping.step]
    repeat' split
    all_goals exact ⟨rfl, hpc⟩

/-- What an exception leaves behind is not undone. -/
theorem not_rolledBack_of_throw {start : MappingStart} {s : Shared} {map : String} {created : Bool}
    {pc : StartMapping} (hs : start.operation s (.startMapping map created pc)) :
    ¬ start.RolledBack s := by
  obtain ⟨-, hpc⟩ := hs
  cases pc with
  | stopAborted stage => exact not_rolledBack_of_selected hpc.2
  | cleanup shouldTransition => exact not_rolledBack_of_created hpc.2.2.1
  | _ => exact not_rolledBack_of_selected hpc.2.2.1

end MappingStart

theorem Handler.holdsToken_of_startsMapping {handler : Handler}
    (h : handler.startsMapping = true) : handler.holdsToken = true := by
  unfold Handler.startsMapping at h
  split at h
  · exact h
  · rfl
  · cases h

/-- What follows a step of an operation that starts no mapping starts none. -/
theorem Operation.Follows.startsMapping {operation next : Operation}
    (h : operation.Follows next) (hnone : operation.startsMapping = false) :
    next.startsMapping = false := by
  cases h <;> first | rfl | cases hnone

theorem Operation.startsMapping_step {config : Config} {env : Env} {s : Shared}
    {operation next : Operation} (hnone : operation.startsMapping = false)
    (hnext : (operation.step config env s).2 = some next) : next.startsMapping = false := by
  rcases operation.effect config env s with ⟨-, hend⟩ | ⟨-, s', other, hstep, hcontinues⟩
  · rw [hend] at hnext
    cases hnext
  · rw [hstep] at hnext
    cases hnext
    exact hcontinues.follows.startsMapping hnone

/-- Where the operation thread stands with a start in the history, or without one. -/
def MappingStart.Runs (s : Shared) (operation : Option Operation) : Option MappingStart → Prop
  | some start => ∃ running, operation = some running ∧ start.operation s running
  | none => ∀ running, operation = some running → running.startsMapping = false

theorem MappingStart.operation_step (config : Config) (env : Env) {start : MappingStart}
    {s : Shared} {operation : Operation} (hs : start.operation s operation)
    (hname : ∀ map created, operation = .startMapping map created .unselect → start.map ≠ "")
    (hdelete : ∀ map created target, operation = .startMapping map created (.cleanup target) →
      env.failure = none) :
    Runs (operation.step config env s).1 (operation.step config env s).2
      (operation.noteStart env s (some start)) := by
  cases operation with
  | startMapping map created pc =>
    cases hthrows : env.throws with
    | some what =>
      have hcut : pc.cutShort env s = true := by cases pc <;> simp [StartMapping.cutShort, hthrows]
      simp only [Operation.noteStart, hcut, if_true, Operation.step, hthrows, Operation.isBody]
      have hnot := not_rolledBack_of_throw hs
      exact ⟨_, rfl, iff_of_false hnot (by simp)⟩
    | none =>
      simp only [Operation.noteStart, Operation.step, hthrows]
      by_cases hstarted : pc = .started
      · subst hstarted
        obtain ⟨hmap, haborted, hundoes, hselected, hstarting⟩ := hs
        by_cases hcan : s.currentState.canTransition .mapping = true
        · simp [StartMapping.cutShort, hthrows, hcan, Operation.run, StartMapping.step, Runs,
            Operation.startsMapping]
        · have hsame : s.transitionTo .mapping = s := by simp [Shared.transitionTo, hcan]
          simp only [StartMapping.cutShort, hthrows, hcan, Operation.run, StartMapping.step]
          exact ⟨_, rfl, hmap, rfl, by simpa using hselected⟩
      · have hcut : pc.cutShort env s = false := by
          cases pc <;> first | exact absurd rfl hstarted | simp [StartMapping.cutShort, hthrows]
        simp only [hcut, hstarted, if_false]
        refine ⟨_, rfl, startMapping_step config env ?_ hstarted ?_ hs⟩
        · rintro rfl
          exact hname map created rfl
        · rintro target rfl
          exact hdelete map created target rfl
  | fail code message =>
    rw [Operation.step_of_tail config env s rfl]
    exact ⟨_, rfl, hs⟩
  | enterError =>
    rw [Operation.step_of_tail config env s rfl]
    refine ⟨_, rfl, ?_⟩
    simp only [MappingStart.operation, MappingStart.RolledBack, Operation.run,
      maps_transitionTo, currentMap_transitionTo]
    exact hs
  | finish =>
    rw [Operation.step_of_tail config env s rfl]
    intro running hrunning
    cases hrunning
  | _ => exact hs.elim

/-- The start in the history is the one the operation thread runs. -/
theorem Sys.Tracked.operation {s : Sys} {start : MappingStart} {operation : Operation}
    (h : s.Tracked (some start)) (hexclusive : s.Exclusive)
    (hoperation : s.operation = some operation) : start.operation s.shared operation := by
  rcases h with ⟨handler, hhandler, hassertion⟩ | ⟨running, hrunning, hassertion⟩
  · have hidle := hexclusive.of_operation hoperation
    have hholds := MappingStart.holdsToken_of_handler hassertion
    simp [Sys.handlerHolds, hhandler, hholds] at hidle
  · rw [hoperation] at hrunning
    cases hrunning
    exact hassertion

/-- A step of the operation thread keeps the history and the threads together. -/
theorem Sys.Tracked.operation_step {config : Config} {s : Sys} {env : Env} {operation : Operation}
    {started : Option MappingStart} (hexclusive : s.Exclusive)
    (hmap : SelectedMap.outline.Holds s) (htracked : s.Tracked started)
    (hok : cleanupSucceeds s (.operation env)) (hoperation : s.operation = some operation) :
    Sys.Tracked { s with
      shared := (operation.step config env s.shared).1
      operation := (operation.step config env s.shared).2 }
      (operation.noteStart env s.shared started) := by
  have hidle := hexclusive.of_operation hoperation
  cases started with
  | none =>
    have hnone := htracked.2 operation hoperation
    have hnoted : operation.noteStart env s.shared none = none := by
      cases operation <;> first | rfl | cases hnone
    rw [hnoted]
    exact ⟨htracked.1, fun next hnext ↦ Operation.startsMapping_step hnone hnext⟩
  | some start =>
    have hassertion := htracked.operation hexclusive hoperation
    have hruns := MappingStart.operation_step config env hassertion (fun map created hunselect ↦ ?_)
      (fun map created target hcleanup ↦ hok map created target (hcleanup ▸ hoperation))
    · cases hnoted : operation.noteStart env s.shared (some start) with
      | some noted =>
        rw [hnoted] at hruns
        exact Or.inr hruns
      | none =>
        rw [hnoted] at hruns
        refine ⟨fun handler hhandler ↦ ?_, hruns⟩
        by_contra hstarts
        have hholds := Handler.holdsToken_of_startsMapping (by simpa using hstarts)
        simp only [Sys.handlerHolds] at hidle
        simp_all
    · subst hunselect
      have hselected := hmap.operation
      rw [hoperation] at hselected
      rw [← hassertion.1]
      exact ne_empty_of_isValidMapName hselected.2.2

/-! ## The request of a start -/

/-- What a step of a request that owns the token establishes; it ends by its release only. -/
def MappingStart.AfterHandler (start : MappingStart) : Shared × HandlerNext → Prop
  | (s, .next next) => start.handler s next
  | (s, .launched launched _) => start.operation s launched
  | _ => False

theorem MappingStart.handler_step (config : Config) (env : Env) {start : MappingStart}
    {s : Shared} {handler : Handler} (hs : start.handler s handler)
    (hvalid : isValidMapName start.map = true) (hends : ∀ reply, handler ≠ .release reply)
    (hread : ∀ map, handler = .startMapping map (.checkOutput true) → env.failure = none)
    (hdelete : ∀ map, handler = .startMapping map .cleanup → env.failure = none) :
    start.AfterHandler (handler.step config env s) := by
  cases handler with
  | startMapping name pc =>
    obtain ⟨hname, haborted, hpc⟩ := hs
    subst hname
    cases pc with
    | findMap =>
      simp only [Handler.step, StartMappingRequest.step]
      split
      · exact ⟨iff_of_true hpc.1 haborted.2, Or.inr hpc.2⟩
      · split
        · exact ⟨rfl, haborted, hpc.1, by simp, hpc.2⟩
        · exact ⟨rfl, haborted, hpc⟩
    | create =>
      obtain ⟨hundoes, hselected⟩ := hpc
      simp only [Handler.step, StartMappingRequest.step]
      rcases hcreate : MapManager.createMap config.mapFrame env.text env.failure env.secondFailure
        s.maps start.map with ⟨maps, result⟩
      rcases createMap_cases hcreate with ⟨rfl, what, rfl⟩ | ⟨rfl, -, hnew, rfl⟩
      · exact ⟨iff_of_true hundoes haborted.2, Or.inr hselected⟩
      · have hunknown : start.known start.map = false := by
          rw [← congrFun hundoes start.map, mapExists, directory?_none_of_notMem hnew]
          simp
        refine ⟨rfl, haborted, ⟨hunknown, ?_⟩, fun _ ↦ ?_, hselected⟩
        · rw [mapExists_insert _ hvalid rfl, hundoes]
        · simp [output?, directory?_insert, newDirectory]
    | checkOutput created =>
      obtain ⟨hundoes, houtput, hselected⟩ := hpc
      simp only [Handler.step, StartMappingRequest.step, getMapPath_of_valid hvalid]
      cases created with
      | true =>
        rw [output?] at houtput
        simp only [hread start.map rfl, houtput rfl]
        exact ⟨rfl, haborted, hundoes⟩
      | false =>
        repeat' split
        · exact ⟨iff_of_true hundoes haborted.2, Or.inr hselected⟩
        · exact ⟨iff_of_true hundoes haborted.2, Or.inr hselected⟩
        · exact ⟨rfl, haborted, hundoes⟩
    | select created => exact ⟨rfl, haborted, hpc, rfl⟩
    | transition created =>
      obtain ⟨hundoes, hselected⟩ := hpc
      simp only [Handler.step, StartMappingRequest.step]
      by_cases hcan : s.currentState.canTransition .mappingStarting = true
      · simp only [hcan, if_true]
        refine ⟨⟨_, _, rfl⟩, rfl, haborted.1, ?_, ?_, Or.inl ?_⟩
        · rwa [maps_transitionTo]
        · rwa [currentMap_transitionTo]
        · simp [currentState_transitionTo, hcan]
      · simp only [hcan]
        cases created
        all_goals
          refine ⟨rfl, haborted, ?_⟩
          simpa [maps_transitionTo] using hundoes
    | cleanup =>
      simp only [Handler.step, StartMappingRequest.step, hdelete start.map rfl]
      exact ⟨rfl, haborted, mapExists_deleteMap env.removed hpc⟩
    | unselect =>
      exact ⟨iff_of_true hpc haborted.2, Or.inl (ne_empty_of_isValidMapName hvalid).symm⟩
    | checkLocalization | checkMapping | saveService | acquire => exact hpc.elim
  | release reply => exact absurd rfl (hends reply)
  | launch launched reply => exact hs.2
  | _ => exact hs.elim

/-- The acquisition of a start: the token was free, and the manager waited for a mode. -/
structure Acquires (s s' : Shared) : Prop where
  free : s.operationInProgress = false
  idle : s.currentState.isIdle = true
  shared : s' = { s with operationInProgress := true }

theorem acquires_of_step {config : Config} {env : Env} {s s' : Shared} {name : String}
    {next : Handler}
    (h : (Handler.startMapping name .acquire).step config env s = (s', .next next)) :
    Acquires s s' ∧ next = .startMapping name .findMap := by
  simp only [Handler.step, StartMappingRequest.step, acquireForStart] at h
  split_ifs at h with hstate htoken
  · cases h
  · cases h
  · cases h
    refine ⟨⟨by simpa using htoken, ?_, rfl⟩, rfl⟩
    by_cases hwait : s.currentState = .waitMode
    · rw [hwait]
      rfl
    · have hready : s.currentState = .sensorReady := by simp_all
      rw [hready]
      rfl

/-- A start begins with its acquisition. -/
theorem starts_of_step {config : Config} {env : Env} {s s' : Shared} {handler next : Handler}
    (h : handler.step config env s = (s', .next next)) (hstarts : next.startsMapping = true) :
    handler.startsMapping = true ∨ ∃ name, handler = .startMapping name .acquire := by
  cases Handler.follows_of_step h with
  | startMapping name pc pc' =>
    cases pc with
    | acquire => exact Or.inr ⟨name, rfl⟩
    | checkLocalization | checkMapping | saveService =>
      simp only [Handler.step, StartMappingRequest.step] at h
      split_ifs at h
      all_goals
        cases h
        try cases hstarts
    | _ => exact Or.inl rfl
  | launchStartMapping name created reply => exact Or.inl rfl
  | _ => cases hstarts

/-- The state and the operation after which no start is accepted until a handler has run. -/
def Sys.Past (s : Sys) : Prop :=
  MappingStart.starting s.shared.currentState ∧
    (s.operation = none ∨ s.operation = some .enterError ∨ s.operation = some .finish)

/-- While a start has not taken the token, the maps are those known when it was requested, or it
will be refused. -/
def Sys.Waits (s : Sys) (asked : String → Bool) : Prop :=
  ∀ name pc, s.handler = some (.startMapping name pc) →
    (Handler.startMapping name pc).holdsToken = false →
    mapExists s.shared.maps = asked ∨ s.Past

theorem Sys.Waits.known {s : Sys} {shared : Shared} {asked : String → Bool} {name : String}
    (h : s.Waits asked) (hhandler : s.handler = some (.startMapping name .acquire))
    (hacquires : Acquires s.shared shared) : mapExists shared.maps = asked := by
  rw [hacquires.shared]
  rcases h name .acquire hhandler rfl with hsame | ⟨hpast, -⟩
  · exact hsame
  · have hidle := hacquires.idle
    rcases hpast with hstate | hstate <;> rw [hstate] at hidle <;> cases hidle

theorem Handler.noteStart_none {env : Env} {asked : String → Bool} {s : Shared}
    {next : Option Handler} {handler : Handler}
    (h : next = none ∨ ∀ name, handler ≠ .startMapping name .acquire) :
    handler.noteStart env asked s next none = none := by
  unfold Handler.noteStart
  split
  · rcases h with rfl | hother
    · rfl
    · exact absurd rfl (hother _)
  · exact ite_self none
  · rfl
  · rfl

theorem Handler.noteStart_some {env : Env} {asked : String → Bool} {s : Shared}
    {next : Option Handler} {start : MappingStart} {handler : Handler}
    (hacquire : next = none ∨ ∀ name, handler ≠ .startMapping name .acquire)
    (hread : ∀ map, handler = .startMapping map (.checkOutput true) → env.failure = none)
    (hrelease : ∀ reply, handler ≠ .release reply) :
    handler.noteStart env asked s next (some start) = some start := by
  unfold Handler.noteStart
  split
  · rcases hacquire with rfl | hother
    · rfl
    · exact absurd rfl (hother _)
  · rw [hread _ rfl]
    rfl
  · exact absurd rfl (hrelease _)
  · rfl

/-- A step of the handler without a start in the history. -/
theorem Sys.Tracked.handler_begins {config : Config} {s s' : Sys} {env : Env} {handler : Handler}
    {asked : String → Bool} (htracked : s.Tracked none) (hwaits : s.Waits asked)
    (hhandler : s.handler = some handler)
    (hnext : s.afterHandler (handler.step config env s.shared) = some s') :
    s'.Tracked (handler.noteStart env asked s.shared s'.handler none) := by
  obtain ⟨hidle, hoperation⟩ := htracked
  obtain ⟨r, hr, hmove⟩ := Sys.handlerMove_of_afterHandler hnext
  cases hmove with
  | @next next hafter hsame =>
    by_cases hstarts : next.startsMapping = true
    · rcases starts_of_step hr hstarts with hbefore | ⟨name, rfl⟩
      · rw [hidle handler hhandler] at hbefore
        cases hbefore
      · obtain ⟨hacquires, rfl⟩ := acquires_of_step hr
        have hknown : mapExists s'.shared.maps = asked := hwaits.known hhandler hacquires
        have hselected : s'.shared.currentMap = s.shared.currentMap := by rw [hacquires.shared]
        rw [hafter]
        exact Or.inl ⟨_, hafter, rfl, ⟨rfl, rfl⟩, hknown, hselected⟩
    · rw [Handler.noteStart_none (Or.inr fun name hacquire ↦ ?_)]
      · refine ⟨fun running hrunning ↦ ?_, hsame ▸ hoperation⟩
        cases hafter.symm.trans hrunning
        simpa using hstarts
      · subst hacquire
        obtain ⟨-, rfl⟩ := acquires_of_step hr
        exact hstarts rfl
  | ended _ _ hafter hsame =>
    rw [Handler.noteStart_none (Or.inl hafter)]
    exact ⟨by simp [hafter], hsame ▸ hoperation⟩
  | @launched launched _ hlaunch _ hafter hlaunched =>
    subst hlaunch
    rw [Handler.noteStart_none (Or.inl hafter)]
    refine ⟨by simp [hafter], fun running hrunning ↦ ?_⟩
    cases hlaunched.symm.trans hrunning
    have hlaunch := hidle _ hhandler
    cases launched <;> first | rfl | cases hlaunch

/-- The map of a start has a valid name. -/
theorem MappingStart.valid_of_handler {start : MappingStart} {s : Shared} {handler : Handler}
    (hassertion : start.handler s handler) (hselected : SelectedMap.handler s handler)
    (hends : ∀ reply, handler ≠ .release reply) : isValidMapName start.map = true := by
  cases handler with
  | startMapping name pc =>
    obtain ⟨hname, -, hpc⟩ := hassertion
    rw [← hname]
    cases pc with
    | transition => exact hselected.2.2
    | checkLocalization | checkMapping | saveService | acquire => exact hpc.elim
    | _ => exact hselected.2
  | launch launched reply =>
    obtain ⟨⟨map, created, rfl⟩, hmap, -⟩ := hassertion
    rw [← hmap]
    exact hselected.2.2
  | release reply => exact absurd rfl (hends reply)
  | _ => exact hassertion.elim

/-- A request that cannot ask for the output of the directory it has made keeps the directory. -/
theorem MappingStart.unread_step {config : Config} {s s' : Sys} {env : Env} {name what : String}
    {asked : String → Bool} {start : MappingStart} (hvalid : isValidMapName start.map = true)
    (hassertion : start.handler s.shared (.startMapping name (.checkOutput true)))
    (hfailure : env.failure = some what)
    (hnext : s.afterHandler ((Handler.startMapping name (.checkOutput true)).step config env
      s.shared) = some s') :
    s'.Tracked ((Handler.startMapping name (.checkOutput true)).noteStart env asked s.shared
      s'.handler (some start)) := by
  obtain ⟨rfl, -, hundoes, -, hselected⟩ := hassertion
  simp only [Handler.step, StartMappingRequest.step, getMapPath_of_valid hvalid, hfailure] at hnext
  cases hnext
  simp only [Handler.noteStart, hfailure, Option.isSome_some, if_true, Option.map_some]
  exact Or.inl ⟨_, rfl, iff_of_false (known_ne_of_created hundoes) (by simp), Or.inr hselected⟩

/-- A step of the handler that runs the start in the history. -/
theorem MappingStart.request_step {config : Config} {s s' : Sys} {env : Env} {handler : Handler}
    {asked : String → Bool} {start : MappingStart} (hexclusive : s.Exclusive)
    (hmap : SelectedMap.outline.Holds s) (hok : cleanupSucceeds s (.handler env))
    (hassertion : start.handler s.shared handler) (hhandler : s.handler = some handler)
    (hnext : s.afterHandler (handler.step config env s.shared) = some s') :
    s'.Tracked (handler.noteStart env asked s.shared s'.handler (some start)) := by
  have hholds := holdsToken_of_handler hassertion
  have hended : s.operation = none :=
    hexclusive.alone (by simp [Sys.handlerHolds, hhandler, hholds])
  by_cases hrelease : ∃ reply, handler = .release reply
  · obtain ⟨reply, rfl⟩ := hrelease
    cases hnext
    exact ⟨by simp, by simp [hended]⟩
  · have hends : ∀ reply, handler ≠ .release reply := fun reply h ↦ hrelease ⟨reply, h⟩
    have hvalid := valid_of_handler hassertion (hmap.handler handler hhandler) hends
    by_cases hunread : ∃ name what, handler = .startMapping name (.checkOutput true) ∧
        env.failure = some what
    · obtain ⟨name, what, rfl, hfailure⟩ := hunread
      exact unread_step hvalid hassertion hfailure hnext
    have hread (name : String) (hchecks : handler = .startMapping name (.checkOutput true)) :
        env.failure = none := by
      cases hfailure : env.failure with
      | none => rfl
      | some what => exact absurd ⟨name, what, hchecks, hfailure⟩ hunread
    have hafter := handler_step config env hassertion hvalid hends hread fun map hcleanup ↦
      hok map (hcleanup ▸ hhandler)
    rw [Handler.noteStart_some (Or.inr fun name hacquire ↦ ?_) hread hends]
    · obtain ⟨r, hr, hmove⟩ := Sys.handlerMove_of_afterHandler hnext
      rw [hr] at hafter
      cases hmove with
      | @next next hgoes => exact Or.inl ⟨next, hgoes, hafter⟩
      | @ended r hnot hlaunched =>
        cases r with
        | next next => exact absurd rfl (hnot next)
        | launched launched reply => exact absurd rfl (hlaunched launched reply)
        | done | escaped => exact hafter.elim
      | @launched launched _ _ _ _ hlaunched => exact Or.inr ⟨launched, hlaunched, hafter⟩
    · subst hacquire
      cases hholds

/-- A step of the handler beside the operation thread that runs the start in the history. -/
theorem MappingStart.beside_step {config : Config} {s s' : Sys} {env : Env} {handler : Handler}
    {asked : String → Bool} {start : MappingStart} {operation : Operation}
    (hexclusive : s.Exclusive) (hmode : ModeExclusion.outline.Holds s)
    (hassertion : start.operation s.shared operation) (hoperation : s.operation = some operation)
    (hhandler : s.handler = some handler)
    (hnext : s.afterHandler (handler.step config env s.shared) = some s') :
    s'.Tracked (handler.noteStart env asked s.shared s'.handler (some start)) := by
  have hidle := hexclusive.of_operation hoperation
  simp only [Sys.handlerHolds, hhandler, Option.any_some] at hidle
  have htoken := hexclusive.operation (by simp [hoperation])
  have hkept : Kept s.shared (handler.step config env s.shared).1 :=
    kept_of_handler config env (hmode.handler handler hhandler) hidle htoken
  have hends : ∀ reply, handler ≠ .release reply := by
    rintro reply rfl
    cases hidle
  have hread (name : String) (hchecks : handler = .startMapping name (.checkOutput true)) :
      env.failure = none := by
    subst hchecks
    cases hidle
  rw [Handler.noteStart_some ?_ hread hends]
  · rw [← Sys.shared_afterHandler hnext] at hkept
    exact Or.inr ⟨operation, Sys.operation_afterHandler hoperation hnext,
      operation_kept hkept hassertion⟩
  · by_cases hacquire : ∃ name, handler = .startMapping name .acquire
    · obtain ⟨name, rfl⟩ := hacquire
      simp only [Handler.step, StartMappingRequest.step, acquireForStart, htoken, if_true] at hnext
      split at hnext <;> cases hnext <;> exact Or.inl rfl
    · exact Or.inr fun name h ↦ hacquire ⟨name, h⟩

/-- Before it takes the token a start of mapping changes nothing. -/
theorem waits_of_step {config : Config} {env : Env} {s s' : Shared} {handler : Handler}
    {name : String} {pc : StartMappingRequest}
    (h : handler.step config env s = (s', .next (.startMapping name pc)))
    (hidle : (Handler.startMapping name pc).holdsToken = false) :
    ∃ before, handler = .startMapping name before ∧
      (Handler.startMapping name before).holdsToken = false ∧ s' = s := by
  cases Handler.follows_of_step h with
  | startMapping name before =>
    cases before with
    | checkLocalization | checkMapping | saveService =>
      simp only [Handler.step, StartMappingRequest.step] at h
      split_ifs at h
      all_goals
        cases h
        try exact ⟨_, rfl, rfl, rfl⟩
    | acquire =>
      obtain ⟨-, hnext⟩ := acquires_of_step h
      cases hnext
      cases hidle
    | _ =>
      have htoken := (Handler.effect_of_step h).token
      rcases htoken with ⟨hholds, -⟩ | ⟨hholds, -⟩
      · rw [hidle] at hholds
        cases hholds
      · cases hholds

theorem Sys.Waits.handler_step {config : Config} {s s' : Sys} {env : Env} {handler : Handler}
    {asked : String → Bool} (h : s.Waits asked) (hhandler : s.handler = some handler)
    (hnext : s.afterHandler (handler.step config env s.shared) = some s') : s'.Waits asked := by
  intro name pc hwaits hidle
  obtain ⟨r, hr, hmove⟩ := Sys.handlerMove_of_afterHandler hnext
  cases hmove with
  | next hafter hsame =>
    cases hafter.symm.trans hwaits
    obtain ⟨before, rfl, hbefore, hshared⟩ := waits_of_step hr hidle
    rw [Sys.Past, hshared, hsame]
    exact h name before hhandler hbefore
  | ended _ _ hafter | launched _ _ hafter =>
    rw [hafter] at hwaits
    cases hwaits

theorem Sys.Tracked.starting_of_cleanup {s : Sys} {started : Option MappingStart} {map : String}
    {created target : Bool} (h : s.Tracked started) (hexclusive : s.Exclusive)
    (hoperation : s.operation = some (.startMapping map created (.cleanup target))) :
    MappingStart.starting s.shared.currentState := by
  cases started with
  | none => cases h.2 _ hoperation
  | some start => exact (h.operation hexclusive hoperation).2.2.2.2.2

/-- What an operation that undoes a start leaves behind is refused to the next one. -/
theorem Sys.Waits.operation_step {config : Config} {s : Sys} {env : Env} {operation : Operation}
    {asked : String → Bool} {started : Option MappingStart} (hexclusive : s.Exclusive)
    (htracked : s.Tracked started) (h : s.Waits asked) (hoperation : s.operation = some operation) :
    Sys.Waits { s with
      shared := (operation.step config env s.shared).1
      operation := (operation.step config env s.shared).2 } asked := by
  intro name pc hwaits hidle
  rcases h name pc hwaits hidle with hsame | ⟨hstarting, hrest⟩
  · by_cases hcleanup :
        ∃ map created target, operation = .startMapping map created (.cleanup target)
    · obtain ⟨map, created, target, rfl⟩ := hcleanup
      rcases Operation.step_cases config env s.shared (.startMapping map created (.cleanup target))
        with ⟨hrun, -⟩ | ⟨-, -, code, what, hthrow⟩
      · rw [hrun]
        refine Or.inr ⟨htracked.starting_of_cleanup hexclusive hoperation, Or.inr ?_⟩
        cases target
        · exact Or.inr rfl
        · exact Or.inl rfl
      · rw [hthrow]
        exact Or.inl hsame
    · have hstep : s.step config (.operation env) = some { s with
          shared := (operation.step config env s.shared).1
          operation := (operation.step config env s.shared).2 } := by
        simp [Sys.step, hoperation]
      refine Or.inl ((storeMove_of_step hstep).mapExists ?_ (by simp) |>.trans hsame)
      simp only [Sys.removes, hoperation]
      split
      · rename_i hcase
        cases hcase
        exact absurd ⟨_, _, _, rfl⟩ hcleanup
      · rfl
  · rcases hrest with hended | herror | hfinish
    · rw [hended] at hoperation
      cases hoperation
    · rw [herror] at hoperation
      cases hoperation
      rw [Operation.step_of_tail config env s.shared rfl]
      refine Or.inr ⟨?_, Or.inr (Or.inr rfl)⟩
      simp only [Operation.run, currentState_transitionTo]
      split
      · exact Or.inr rfl
      · exact hstarting
    · rw [hfinish] at hoperation
      cases hoperation
      rw [Operation.step_of_tail config env s.shared rfl]
      exact Or.inr ⟨hstarting, Or.inl rfl⟩

/-! ## Runs -/

/-- The history of the starts of mapping is that of the threads. -/
structure Recorded (s : Sys) (h : StartHistory) : Prop where
  tracked : s.Tracked h.started
  waits : s.Waits h.asked

theorem Recorded.call {s : Sys} {h : StartHistory} (hrecorded : Recorded s h)
    (hidle : s.handler = none) (request : Request) (s' : Sys) :
    Recorded { s with handler := some request.handler } (h.note s (.call request) s') := by
  have hstarted : (h.note s (.call request) s').started = h.started := by cases request <;> rfl
  constructor
  · rw [hstarted]
    have htracked := hrecorded.tracked
    cases hnoted : h.started with
    | none =>
      rw [hnoted] at htracked
      refine ⟨fun handler hhandler ↦ ?_, htracked.2⟩
      cases hhandler
      cases request <;> rfl
    | some start =>
      rw [hnoted] at htracked
      rcases htracked with ⟨handler, hhandler, -⟩ | hoperation
      · rw [hidle] at hhandler
        cases hhandler
      · exact Or.inr hoperation
  · intro name pc hhandler hpc
    cases request <;> cases hhandler
    exact Or.inl rfl

/-- Adapter callbacks and the environment keep the history and the threads together. -/
theorem Recorded.other {config : Config} {s s' : Sys} {a : Action} {h : StartHistory}
    (hrecorded : Recorded s h) (hmode : ModeExclusion.outline.Holds s)
    (hstep : s.step config a = some s') (hhandler : ∀ env, a ≠ .handler env)
    (hoperation : ∀ env, a ≠ .operation env) (hsame : s'.handler = s.handler)
    (hrunning : s'.operation = s.operation) : Recorded s' h := by
  have hkept := kept_of_step hstep hhandler hoperation
  constructor
  · have htracked := hrecorded.tracked
    cases hnoted : h.started with
    | none =>
      rw [hnoted] at htracked
      exact ⟨by rw [hsame]; exact htracked.1, by rw [hrunning]; exact htracked.2⟩
    | some start =>
      rw [hnoted] at htracked
      rcases htracked with ⟨handler, howner, hassertion⟩ | ⟨operation, howner, hassertion⟩
      · refine Or.inl ⟨handler, hsame.trans howner,
          MappingStart.handler_kept hkept hassertion fun created hcheck ↦ ?_⟩
        have hquiet : ModeExclusion.Quiet s.shared :=
          hmode.handler _ (howner.trans (congrArg some hcheck))
        exact output?_of_quiet hquiet hstep hhandler hoperation start.map
      · exact Or.inr ⟨operation, hrunning.trans howner,
          MappingStart.operation_kept hkept hassertion⟩
  · intro name pc hwaiting hidle
    rcases hrecorded.waits name pc (hsame ▸ hwaiting) hidle with hknown | ⟨hstarting, hrest⟩
    · exact Or.inl (hkept.maps.trans hknown)
    · exact Or.inr ⟨ModeExclusion.mappingStarting_drift hkept.drift hstarting,
        by rw [hrunning]; exact hrest⟩

theorem Recorded.step {config : Config} {s s' : Sys} {a : Action} {h : StartHistory}
    (hreach : Reachable config s) (hrecorded : Recorded s h) (hok : cleanupSucceeds s a)
    (hstep : s.step config a = some s') : Recorded s' (h.note s a s') := by
  have hexclusive := hreach.exclusive
  have hmap := hreach.selectedMap
  have hmode := hreach.modeExclusion
  cases a with
  | call request =>
    obtain ⟨hfree, rfl⟩ := Sys.call_of_step hstep
    exact hrecorded.call hfree request _
  | handler env =>
    obtain ⟨handler, hhandler, hnext⟩ := Option.bind_eq_some_iff.mp hstep
    constructor
    · simp only [StartHistory.note, hhandler, Option.elim_some]
      have htracked := hrecorded.tracked
      cases hnoted : h.started with
      | none =>
        rw [hnoted] at htracked
        exact htracked.handler_begins hrecorded.waits hhandler hnext
      | some start =>
        rw [hnoted] at htracked
        rcases htracked with ⟨owner, howner, hassertion⟩ | ⟨operation, hoperation, hassertion⟩
        · rw [hhandler] at howner
          cases howner
          exact MappingStart.request_step hexclusive hmap hok hassertion hhandler hnext
        · exact MappingStart.beside_step hexclusive hmode hassertion hoperation hhandler hnext
    · exact hrecorded.waits.handler_step hhandler hnext
  | operation env =>
    obtain ⟨operation, hoperation, rfl⟩ := Option.map_eq_some_iff.mp hstep
    constructor
    · simp only [StartHistory.note, hoperation, Option.elim_some]
      exact hrecorded.tracked.operation_step hexclusive hmap hok hoperation
    · exact hrecorded.waits.operation_step hexclusive hrecorded.tracked hoperation
  | deliver | callback | observe | exit | writeMap | takeSave | writeSave =>
    have hother := bystander_of_step hstep (by simp) (by simp) (by simp)
    exact hrecorded.other hmode hstep (by simp) (by simp) hother.handler hother.operation

theorem recorded_of_reaches {config : Config} {s : Sys} {h : StartHistory}
    (hreach : Reaches (startStep config) (fun s ↦ cleanupSucceeds s.1)
      (fun s ↦ s.1.Initial ∧ s.2 = {}) (s, h)) : Recorded s h := by
  have hreachable (s : Sys × StartHistory) (hs : Reaches (startStep config)
      (fun s ↦ cleanupSucceeds s.1) (fun s ↦ s.1.Initial ∧ s.2 = {}) s) : Reachable config s.1 :=
    hs.of_noting (fun _ _ _ ↦ trivial) fun _ hinit ↦ hinit.1
  refine Reaches.invariant_of (P := fun s : Sys × StartHistory ↦ Recorded s.1 s.2) hreachable
    (fun s hinit ↦ ?_) (fun s a s' hs hrecorded hok hstep ↦ ?_) hreach
  · obtain ⟨hinit, hnone⟩ := hinit
    rw [hnone]
    refine ⟨⟨by simp [hinit.handler], by simp [hinit.operation]⟩, fun name pc hhandler ↦ ?_⟩
    rw [hinit.handler] at hhandler
    cases hhandler
  · obtain ⟨hnext, hnote⟩ := noting_eq_some hstep
    rw [hnote]
    exact hrecorded.step hs hok hnext

/-- A start of mapping that finishes without having reached MAPPING is rolled back exactly when no
step of its body has thrown and the state was still MAPPING_STARTING when the adapter had started;
a request that gives the token back leaves the known maps alone unless it could not ask for the
output of its new directory, and its map is not selected unless it was before. -/
theorem start_rolled_back (config : Config) (s : Sys) (h : StartHistory)
    (hreach : Reaches (startStep config) (fun s ↦ cleanupSucceeds s.1)
      (fun s ↦ s.1.Initial ∧ s.2 = {}) (s, h)) :
    (∀ map created pc, s.operation = some (.startMapping map created pc) →
      ∃ start, h.started = some start ∧ start.map = map) ∧
    (∀ start, h.started = some start → s.operation = some .finish →
      (start.RolledBack s.shared ↔ start.aborted = false)) ∧
    (∀ start reply, h.started = some start → s.handler = some (.release reply) →
      (mapExists s.shared.maps = start.known ↔ start.unread = false) ∧
        (s.shared.currentMap ≠ start.map ∨ s.shared.currentMap = start.selected)) := by
  have hexclusive : s.Exclusive :=
    Reachable.exclusive (hreach.of_noting (fun _ _ _ ↦ trivial) fun _ hinit ↦ hinit.1)
  have htracked := (recorded_of_reaches hreach).tracked
  refine ⟨fun map created pc hoperation ↦ ?_, fun start hstarted hfinish ↦ ?_,
    fun start reply hstarted hrelease ↦ ?_⟩
  · cases hstarted : h.started with
    | none =>
      rw [hstarted] at htracked
      cases htracked.2 _ hoperation
    | some start =>
      rw [hstarted] at htracked
      exact ⟨start, rfl, (htracked.operation hexclusive hoperation).1.symm⟩
  · rw [hstarted] at htracked
    exact htracked.operation hexclusive hfinish
  · rw [hstarted] at htracked
    rcases htracked with ⟨handler, hhandler, hassertion⟩ | ⟨operation, hoperation, -⟩
    · rw [hrelease] at hhandler
      cases hhandler
      exact hassertion
    · have hidle := hexclusive.of_operation hoperation
      simp [Sys.handlerHolds, hrelease, Handler.holdsToken] at hidle

/-! ## Replays -/

/-- The calls an action makes succeed. -/
def Action.succeeds : Action → Bool
  | .handler env | .operation env => env.failure.isNone && env.throws.isNone
  | _ => true

theorem cleanupSucceeds_of_succeeds (s : Sys) {a : Action} (h : a.succeeds = true) :
    cleanupSucceeds s a := by
  cases a with
  | handler env =>
    intro map _
    simp_all [Action.succeeds]
  | operation env =>
    intro map created target _
    simp_all [Action.succeeds]
  | _ => trivial

/-- Whether the body of an operation has returned. -/
def Sys.finishing (s : Sys) : Bool :=
  match s.operation with
  | some .finish => true
  | _ => false

theorem finish_of_finishing {s : Sys} (h : s.finishing = true) : s.operation = some .finish := by
  unfold Sys.finishing at h
  split at h
  · assumption
  · cases h

theorem exists_of_startReplay (actions : List Action) (test : Sys → MappingStart → Bool)
    (hrun : ((execWith (startStep {}) (fun _ a ↦ a.succeeds) (Sys.initial ∅, {}) actions).any
      fun s ↦ s.1.finishing && s.2.started.any (test s.1)) = true) :
    ∃ s h start, Reaches (startStep {}) (fun s ↦ cleanupSucceeds s.1)
      (fun s ↦ s.1.Initial ∧ s.2 = {}) (s, h) ∧ h.started = some start ∧
      s.operation = some .finish ∧ test s start = true := by
  have hstart : Reaches (startStep {}) (fun s ↦ cleanupSucceeds s.1)
      (fun s ↦ s.1.Initial ∧ s.2 = {}) (Sys.initial ∅, {}) := .start ⟨initial_initial ∅, rfl⟩
  obtain ⟨⟨s, h⟩, hreach, htest⟩ :=
    hstart.exists_of_execWith (fun s a ↦ cleanupSucceeds_of_succeeds s.1) hrun
  obtain ⟨hfinish, htest⟩ := Bool.and_eq_true_iff.mp htest
  obtain ⟨start, hstarted, htest⟩ := (Option.any_eq_true _ _).mp htest
  exact ⟨s, h, start, hreach, hstarted, finish_of_finishing hfinish, htest⟩

/-- The adapter refuses to start, and the new directory is removed. -/
theorem start_rolled_back_refused :
    ∃ s start, Sys.operation s = some .finish ∧ start.map = "m" ∧
      MappingStart.RolledBack start s.shared := by
  obtain ⟨s, h, start, hreach, hstarted, hfinish, htest⟩ := exists_of_startReplay
    (toWaitMode ++ launchMapping "m" ++ [.operation absentEnv, .operation readyEnv] ++
      List.replicate 4 (.operation {}))
    (fun _ start ↦ decide (start.map = "m") && !start.aborted) (by decide +kernel)
  simp only [Bool.and_eq_true, decide_eq_true_eq, Bool.not_eq_true'] at htest
  exact ⟨s, start, hfinish, htest.1,
    ((start_rolled_back {} s h hreach).2.1 start hstarted hfinish).mpr htest.2⟩

/-- The sensors are lost while the mapping node starts, and the start succeeds: no call fails, the
new directory stays and its map is still selected. -/
theorem start_not_rolled_back :
    ∃ s h start, Reaches (startStep {}) (fun s ↦ cleanupSucceeds s.1)
        (fun s ↦ s.1.Initial ∧ s.2 = {}) (s, h) ∧ h.started = some start ∧
      s.operation = some .finish ∧ s.shared.currentState = .error ∧
      start.known start.map = false ∧ mapExists s.shared.maps start.map = true ∧
      s.shared.currentMap = start.map := by
  obtain ⟨s, h, start, hreach, hstarted, hfinish, htest⟩ := exists_of_startReplay
    (toWaitMode ++ launchMapping "m" ++ List.replicate 4 (.operation absentEnv) ++ sensorLoss 7 ++
      List.replicate 6 (.operation readyEnv))
    (fun s start ↦ decide (s.shared.currentState = .error) && !start.known start.map &&
      mapExists s.shared.maps start.map && decide (s.shared.currentMap = start.map))
    (by decide +kernel)
  simp only [Bool.and_eq_true, decide_eq_true_eq, Bool.not_eq_true'] at htest
  obtain ⟨⟨⟨hstate, hnew⟩, hkept⟩, hselected⟩ := htest
  exact ⟨s, h, start, hreach, hstarted, hfinish, hstate, hnew, hkept, hselected⟩

end SlamSystemManager.Manager
